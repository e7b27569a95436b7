import PagedHeap.Proofs.Page.Compact

/-!
# Inserting into a page

What placing a record comes to is told for pages of any bytes: it is stored if the content and the
directory have room for it, and otherwise it stops at the first of them that has not
(`SlottedPage.place_of_le`, `SlottedPage.place_of_lt`, `SlottedPage.place_of_outside`).

An insert into a well-formed page takes the first empty entry of the directory or else a new one.
It is refused as full exactly if the free and the fragmented bytes together are too few, and
otherwise it adds one record to the map of the page and changes no other
(`SlottedPage.WellFormed.insert_eq`, `SlottedPage.Inserted`).
-/

namespace PagedHeap

namespace SlottedPage

/-- What a page has after a record was inserted. -/
structure Inserted (p : SlottedPage) (record : Bytes) (slot : SlotId) (q : SlottedPage) : Prop where
  wellFormed : q.WellFormed
  page : q.page = p.page
  next : q.next = p.next
  fresh : p.record? slot = none
  record? : q.record? = Function.update p.record? slot (some record)

/-- The number of free bytes that a record needs on a page. -/
def neededFor (p : SlottedPage) (record : Bytes) : Nat :=
  record.length + if p.emptySlot?.isSome then 0 else slotSize

/-- The first empty entry of the directory is one of its empty entries. -/
theorem emptySlot?_eq_some {p : SlottedPage} {slot : SlotId} (h : p.emptySlot? = some slot) :
    slot.toNat < p.slotCount ∧ (p.slotAt slot.toNat).isEmpty = true := by
  unfold emptySlot? at h
  obtain ⟨i, hi, rfl⟩ := Option.map_eq_some_iff.1 h
  have hlt : i < p.slotCount := List.mem_range.1 (List.mem_of_find?_eq_some hi)
  rw [toNat_ofNat_of_lt_slotCount hlt]
  exact ⟨hlt, List.find?_some (p := fun i => (p.slotAt i).isEmpty) hi⟩

/-- A record that is longer than any page can hold is refused for its length. -/
theorem insert_of_long (p : SlottedPage) {record : Bytes} (h : maxRecordSize < record.length) :
    p.insert record = .error (.error (.invalidRecordLength record.length maxRecordSize)) := by
  rw [insert, if_pos h]
  rfl

/-! ## Storing a record in an entry -/

section Place

variable {p : SlottedPage} {slot : SlotId} {record : Bytes} {count : UInt16}

/-- The page with one more record, directly below the others, in entry `slot` of a directory of
`count` entries. -/
def placed (p : SlottedPage) (slot : SlotId) (record : Bytes) (count : UInt16) : SlottedPage :=
  (p.packed (p.header.contentStart.toNat - record.length) slot record).withHeader
    { p.header with
      slotCount := count
      contentStart := UInt16.ofNat (p.header.contentStart.toNat - record.length) }

/-- The length of the directory with a record in the given empty entry or in a new one. -/
def countWith (p : SlottedPage) (reuse : Option SlotId) : Nat :=
  p.slotCount + if reuse.isSome then 0 else 1

/-- A new entry takes its bytes from the free ones. -/
theorem position_countWith (p : SlottedPage) (reuse : Option SlotId) :
    Slot.position (p.countWith reuse) =
      Slot.position p.slotCount + if reuse.isSome then 0 else slotSize := by
  unfold countWith Slot.position
  cases reuse with
  | some slot => rfl
  | none =>
    show dataHeaderSize + (p.slotCount + 1) * slotSize =
      dataHeaderSize + p.slotCount * slotSize + slotSize
    rw [Nat.add_mul, Nat.one_mul, Nat.add_assoc]

/-- The directory is made longer if it has to be. -/
theorem place_eq_bind {reuse : Option SlotId} (hcount : p.countWith reuse < UInt16.size) :
    p.place reuse record = (do
      let (offset, q) ← pack p.header.contentStart.toNat p (reuse.getD p.header.slotCount) record
      return (reuse.getD p.header.slotCount, q.withHeader { p.header with
        slotCount := UInt16.ofNat (p.countWith reuse), contentStart := UInt16.ofNat offset })) := by
  unfold place
  cases reuse with
  | some free =>
    have hsame : UInt16.ofNat (p.countWith (some free)) = p.header.slotCount :=
      UInt16.ofNat_toNat
    rw [hsame]
    rfl
  | none =>
    have hnew : count16 (p.slotCount + 1) = .ok (UInt16.ofNat (p.countWith none)) := if_pos hcount
    rw [hnew]
    rfl

/-- A record is placed if the page is as long as the record up to where the content starts. -/
theorem place_of_le {reuse : Option SlotId} (hcount : p.countWith reuse < UInt16.size)
    (hcontent : p.header.contentStart.toNat ≤ pageSize)
    (hslot : Slot.position (reuse.getD p.header.slotCount).toNat + slotSize ≤ pageSize)
    (hle : record.length ≤ p.header.contentStart.toNat) :
    p.place reuse record = .ok (reuse.getD p.header.slotCount,
      p.placed (reuse.getD p.header.slotCount) record (UInt16.ofNat (p.countWith reuse))) := by
  rw [place_eq_bind hcount, pack_eq p _ record hcontent hslot hle]
  rfl

/-- Otherwise placing it runs over the start of the page. -/
theorem place_of_lt {reuse : Option SlotId} (hcount : p.countWith reuse < UInt16.size)
    (hlt : p.header.contentStart.toNat < record.length) :
    p.place reuse record = .stop .overflow := by
  rw [place_eq_bind hcount]
  unfold pack subtract
  rw [if_neg (Nat.not_le.2 hlt)]
  rfl

/-- An entry that lies behind the page is not stored. -/
theorem place_of_outside {reuse : Option SlotId} (hcount : p.countWith reuse < UInt16.size)
    (hcontent : p.header.contentStart.toNat ≤ pageSize)
    (hslot : pageSize < Slot.position (reuse.getD p.header.slotCount).toNat + slotSize)
    (hle : record.length ≤ p.header.contentStart.toNat) :
    p.place reuse record = .stop .outOfRange := by
  have hin : p.header.contentStart.toNat - record.length + record.length ≤ pageSize := by omega
  rw [place_eq_bind hcount]
  unfold pack subtract setContent setSlot
  rw [if_pos hle, Result.bind_ok, if_pos hin, Result.bind_ok, if_neg (Nat.not_le.2 hslot)]
  rfl

@[simp] theorem header_placed : (p.placed slot record count).header =
    { p.header with
      slotCount := count
      contentStart := UInt16.ofNat (p.header.contentStart.toNat - record.length) } := by
  rw [placed, header_withHeader]

variable (h : p.WellFormed)
variable (hroom : Slot.position (max p.slotCount (slot.toNat + 1)) + record.length ≤
  p.header.contentStart.toNat)
include h hroom

omit h in
/-- The entries of the directory end before the new record. -/
theorem position_add_le {i : Nat} (hi : i < max p.slotCount (slot.toNat + 1)) :
    Slot.position i + slotSize ≤ p.header.contentStart.toNat - record.length := by
  simp only [Slot.position, dataHeaderSize, slotSize] at hroom ⊢
  omega

/-- The entries of the directory after a record was placed. -/
theorem slotAt_placed {i : Nat} (hi : i < max p.slotCount (slot.toNat + 1)) :
    (p.placed slot record count).slotAt i =
      Function.update p.slotAt slot.toNat
        (Slot.ofRange (p.header.contentStart.toNat - record.length) record.length) i := by
  have hcontent := h.layout.content
  have hentry := position_add_le hroom hi
  rw [placed, slotAt_withHeader (by omega)]
  by_cases his : i = slot.toNat
  · subst his
    rw [Function.update_self]
    exact slotAt_packed_self (by omega)
  · rw [Function.update_of_ne his]
    exact slotAt_packed_of_ne his hentry (by omega)

/-- The new record stands in its range. -/
theorem slice_placed_self :
    (p.placed slot record count).data.slice (p.header.contentStart.toNat - record.length)
      record.length = record := by
  have hcontent := h.layout.content
  have hentry := position_add_le hroom
    (Nat.lt_of_lt_of_le (Nat.lt_succ_self _) (Nat.le_max_right ..))
  have hsize : dataHeaderSize ≤ Slot.position slot.toNat := Nat.le_add_right _ _
  rw [placed, slice_withHeader_of_le (by omega) (by omega)]
  exact slice_packed_self hentry (by omega)

/-- The records that were there keep their bytes. -/
theorem slice_placed_of_le {offset length : Nat} (hle : p.header.contentStart.toNat ≤ offset)
    (hin : offset + length ≤ pageSize) :
    (p.placed slot record count).data.slice offset length = p.data.slice offset length := by
  have hcontent := h.layout.content
  have hentry := position_add_le hroom
    (Nat.lt_of_lt_of_le (Nat.lt_succ_self _) (Nat.le_max_right ..))
  have hsize : dataHeaderSize ≤ Slot.position slot.toNat := Nat.le_add_right _ _
  rw [placed, slice_withHeader_of_le (by omega) hin]
  exact Block.slice_congr fun i hi hlt => byteAt_packed (by omega) hentry (Or.inr (by omega))

/-- The directory with the new entry fits to the record area with the new record. -/
theorem layout_placed (hslot : slot.toNat ≤ p.slotCount) (hempty : ¬ p.Live slot.toNat) :
    Layout (Function.update p.slotAt slot.toNat
        (Slot.ofRange (p.header.contentStart.toNat - record.length) record.length))
      (max p.slotCount (slot.toNat + 1)) (p.header.contentStart.toNat - record.length)
      p.header.fragmented.toNat := by
  rcases Nat.lt_or_eq_of_le hslot with hlt | heq
  · rw [Nat.max_eq_left hlt] at hroom ⊢
    have hunused : (p.slotAt slot.toNat).isEmpty = true := by
      by_contra hne
      exact hempty ⟨hlt, by simpa using hne⟩
    exact h.layout.reuse hlt hunused hroom
  · rw [heq, Nat.max_eq_right (Nat.le_succ _)] at hroom ⊢
    exact h.layout.append hroom

omit h in
/-- The new record starts behind the header. -/
theorem placed_pos : 0 < p.header.contentStart.toNat - record.length := by
  simp only [Slot.position, dataHeaderSize, slotSize] at hroom
  omega

omit h hroom in
theorem slotCount_placed (hcount : count.toNat = max p.slotCount (slot.toNat + 1)) :
    (p.placed slot record count).slotCount = max p.slotCount (slot.toNat + 1) := by
  rw [slotCount, header_placed]
  exact hcount

theorem live_placed_self (hcount : count.toNat = max p.slotCount (slot.toNat + 1)) :
    (p.placed slot record count).Live slot.toNat := by
  have hlt : slot.toNat < max p.slotCount (slot.toNat + 1) :=
    (Nat.lt_succ_self _).trans_le (Nat.le_max_right _ _)
  have hcontent := h.layout.content
  have hpos := placed_pos hroom
  refine ⟨(slotCount_placed hcount).symm ▸ hlt, ?_⟩
  rw [slotAt_placed h hroom hlt, Function.update_self]
  exact Slot.isEmpty_ofRange hpos (by omega)

/-- The other slots are in use as before. -/
theorem live_placed_of_ne (hslot : slot.toNat ≤ p.slotCount)
    (hcount : count.toNat = max p.slotCount (slot.toNat + 1)) {i : Nat} (hi : i ≠ slot.toNat) :
    (p.placed slot record count).Live i ↔ p.Live i := by
  have hlt_iff : i < max p.slotCount (slot.toNat + 1) ↔ i < p.slotCount := by omega
  unfold Live
  rw [slotCount_placed hcount, hlt_iff]
  refine and_congr_right fun hlt => ?_
  rw [slotAt_placed h hroom (hlt_iff.2 hlt), Function.update_of_ne hi]

variable (hslot : slot.toNat ≤ p.slotCount) (hempty : ¬ p.Live slot.toNat)
  (hcount : count.toNat = max p.slotCount (slot.toNat + 1))
include hslot hempty hcount

theorem wellFormed_placed : (p.placed slot record count).WellFormed := by
  have hstart : (UInt16.ofNat (p.header.contentStart.toNat - record.length)).toNat =
      p.header.contentStart.toNat - record.length := by
    have hlt : p.header.contentStart.toNat < 2 ^ 16 := p.header.contentStart.toNat_lt
    exact UInt16.toNat_ofNat_of_lt' (lt_of_le_of_lt (Nat.sub_le _ _) hlt)
  have hlayout : Layout (Function.update p.slotAt slot.toNat
      (Slot.ofRange (p.header.contentStart.toNat - record.length) record.length)) count.toNat
      (UInt16.ofNat (p.header.contentStart.toNat - record.length)).toNat
      p.header.fragmented.toNat := by
    rw [hcount, hstart]
    exact layout_placed h hroom hslot hempty
  have hpos := placed_pos hroom
  have hcontent := h.layout.content
  refine wellFormed_withHeader h.kind hlayout (fun i hi => ?_) fun k hk => ?_
  · have hposition := hlayout.position_le hi
    rw [hcount] at hi
    have hplaced : (p.placed slot record count).slotAt i = _ := slotAt_placed h hroom hi
    rwa [placed, slotAt_withHeader (by omega)] at hplaced
  · have hlast : max p.slotCount (slot.toNat + 1) = k + 1 := hcount.symm.trans hk
    by_cases hks : k = slot.toNat
    · rw [hks, Function.update_self]
      exact Slot.isEmpty_ofRange hpos (by omega)
    · rw [Function.update_of_ne hks]
      exact h.last k (by omega)

/-- The new record is added to those that were there. -/
theorem record?_placed : (p.placed slot record count).record? =
    Function.update p.record? slot (some record) := by
  have hwf := wellFormed_placed h hroom hslot hempty hcount
  have hcontent := h.layout.content
  funext s
  by_cases hs : s = slot
  · subst hs
    have hlive := live_placed_self h hroom hcount
    rw [Function.update_self, hwf.record?_of_live hlive,
      slotAt_placed h hroom (slotCount_placed hcount ▸ hlive.1), Function.update_self,
      Slot.offset_ofRange _ (by omega), Slot.length_ofRange (by omega), slice_placed_self h hroom]
  · have hne : s.toNat ≠ slot.toNat := fun heq => hs (UInt16.toNat_inj.1 heq)
    have hlive_iff := live_placed_of_ne h hroom hslot hcount hne
    rw [Function.update_of_ne hs]
    refine record?_congr h hwf hlive_iff fun hlive => ?_
    have hlt := slotCount_placed hcount ▸ (hlive_iff.2 hlive).1
    have hrange := h.layout.range _ hlive.1 hlive.2
    rw [slotAt_placed h hroom hlt, Function.update_of_ne hne]
    exact slice_placed_of_le h hroom hrange.1 hrange.2

/-- Placing a record in an entry that is out of use, or in a new one, adds it to the map. -/
theorem inserted_placed : p.Inserted record slot (p.placed slot record count) :=
  ⟨wellFormed_placed h hroom hslot hempty hcount, page_withHeader, next_withHeader,
    WellFormed.record?_of_not_live hempty, record?_placed h hroom hslot hempty hcount⟩

end Place

namespace WellFormed

variable {p : SlottedPage} (h : p.WellFormed) {record : Bytes}
include h

/-- A record for which there is room is stored in an empty entry or in a new one. -/
theorem place_eq (reuse : Option SlotId) (record : Bytes)
    (hreuse : ∀ s, reuse = some s → s.toNat < p.slotCount ∧ (p.slotAt s.toNat).isEmpty = true)
    (hroom : record.length + (if reuse.isSome then 0 else slotSize) ≤ p.freeSpace) :
    ∃ slot q, p.place reuse record = .ok (slot, q) ∧ p.Inserted record slot q := by
  have hcount := h.layout.count_lt
  have hcontent := h.layout.content
  have hdirectory := h.layout.directory
  have hfree : p.freeSpace = p.header.contentStart.toNat - Slot.position p.slotCount := rfl
  have hsize : p.countWith reuse < UInt16.size := by
    unfold countWith
    simp only [UInt16.size]
    split <;> omega
  have hnat : (UInt16.ofNat (p.countWith reuse)).toNat = p.countWith reuse :=
    UInt16.toNat_ofNat_of_lt' hsize
  have hslot : (reuse.getD p.header.slotCount).toNat ≤ p.slotCount ∧
      p.countWith reuse = max p.slotCount ((reuse.getD p.header.slotCount).toNat + 1) ∧
      ¬p.Live (reuse.getD p.header.slotCount).toNat := by
    cases reuse with
    | some slot =>
      obtain ⟨hlt, hempty⟩ := hreuse slot rfl
      refine ⟨Nat.le_of_lt hlt, (Nat.max_eq_left hlt).symm, fun hlive => ?_⟩
      rw [Option.getD_some, Live, hempty] at hlive
      cases hlive.2
    | none =>
      exact ⟨le_rfl, (Nat.max_eq_right (Nat.le_succ _)).symm, fun hlive => Nat.lt_irrefl _ hlive.1⟩
  obtain ⟨hle, hmax, hlive⟩ := hslot
  have hroom' : Slot.position (p.countWith reuse) + record.length ≤
      p.header.contentStart.toNat := by
    rw [position_countWith]
    omega
  have hentry : Slot.position (reuse.getD p.header.slotCount).toNat + slotSize ≤ pageSize := by
    simp only [Slot.position, dataHeaderSize, slotSize] at hroom' ⊢
    omega
  exact ⟨_, _, place_of_le hsize hcontent hentry (by omega),
    inserted_placed h (hmax ▸ hroom') hle hlive (hnat.trans hmax)⟩

omit h in
/-- A record is refused if the free and the fragmented bytes together are too few for it. -/
theorem insert_of_full (hlen : record.length ≤ maxRecordSize)
    (hfull : p.freeSpace + p.header.fragmented.toNat < p.neededFor record) :
    p.insert record = .error (.error (.pageFull p.page (p.neededFor record)
      (p.freeSpace + p.header.fragmented.toNat))) := by
  have hneeded : record.length + (if p.emptySlot?.isSome then 0 else slotSize) =
    p.neededFor record := rfl
  simp only [insert, if_neg (Nat.not_lt.2 hlen), hneeded, withRoom,
    if_neg (show ¬ p.neededFor record ≤ p.freeSpace by omega), if_pos hfull]
  rfl

/-- Any other record is inserted. -/
theorem insert_of_fits (hlen : record.length ≤ maxRecordSize)
    (hfits : p.neededFor record ≤ p.freeSpace + p.header.fragmented.toNat) :
    ∃ slot q, p.insert record = .ok (slot, q) ∧ p.Inserted record slot q := by
  have hneeded : record.length + (if p.emptySlot?.isSome then 0 else slotSize) =
    p.neededFor record := rfl
  by_cases hroom : p.neededFor record ≤ p.freeSpace
  · obtain ⟨slot, q, hplace, hinserted⟩ :=
      h.place_eq p.emptySlot? record (fun s => emptySlot?_eq_some) (hneeded ▸ hroom)
    refine ⟨slot, q, ?_, hinserted⟩
    simp only [insert, if_neg (Nat.not_lt.2 hlen), hneeded, withRoom, if_pos hroom,
      Result.bind_ok, hplace]
  · obtain ⟨c, hc, hcompacted⟩ := h.compact_eq
    have haccount := h.layout.account
    have hdirectory := h.layout.directory
    have hstart := hcompacted.contentStart
    have hcount : c.slotCount = p.slotCount := by rw [slotCount, hcompacted.header]; rfl
    have hfree : c.freeSpace = p.freeSpace + p.header.fragmented.toNat := by
      have hp : p.freeSpace = p.header.contentStart.toNat - Slot.position p.slotCount := rfl
      have hq : c.freeSpace = c.header.contentStart.toNat - Slot.position c.slotCount := rfl
      rw [hp, hq, hcount]
      omega
    obtain ⟨slot, q, hplace, hinserted⟩ := hcompacted.wellFormed.place_eq
      p.emptySlot? record (fun s hs => by
        obtain ⟨hlt, hempty⟩ := emptySlot?_eq_some hs
        exact ⟨hcount ▸ hlt, by rw [hcompacted.entries _ hlt, hempty]⟩)
      (by rw [hneeded, hfree]; exact hfits)
    refine ⟨slot, q, ?_, hinserted.wellFormed, ?_, ?_, ?_, ?_⟩
    · simp only [insert, if_neg (Nat.not_lt.2 hlen), hneeded, withRoom, if_neg hroom,
        if_neg (Nat.not_lt.2 hfits), hc, Result.bind_ok, hplace]
    · rw [hinserted.page, SlottedPage.page, hcompacted.header]
      rfl
    · rw [hinserted.next, SlottedPage.next, hcompacted.header]
      rfl
    · rw [← hcompacted.record?]
      exact hinserted.fresh
    · rw [← hcompacted.record?]
      exact hinserted.record?

end WellFormed

end SlottedPage

end PagedHeap

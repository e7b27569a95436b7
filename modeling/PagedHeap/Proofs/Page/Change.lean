import PagedHeap.Proofs.Page.Insert

/-!
# Deleting, editing and linking

The other changes of a well-formed page.  Deleting takes one record out of the map and cuts the
empty entries at the end of the directory off, editing exchanges the bytes of one record, and
linking changes no record; a page that was just laid out has none.
-/

namespace PagedHeap

namespace SlottedPage

/-! ## The page without records -/

/-- A new page is well-formed. -/
theorem wellFormed_empty (page : PageId) : (empty page).WellFormed := by
  have hslice : (empty page).data.slice 0 dataHeaderSize = (DataHeader.empty page).encode := by
    have := Block.slice_overwrite_self (Block.zero pageSize) 0 (DataHeader.empty page).encode
      (by rw [DataHeader.length_encode]; simp only [dataHeaderSize, pageSize]; omega)
    rwa [DataHeader.length_encode] at this
  have hcount : (empty page).slotCount = 0 := by
    rw [slotCount, empty, DataHeader.empty]
    rfl
  have hstart : (empty page).header.contentStart.toNat = pageSize := by
    rw [empty, DataHeader.empty]
    rfl
  have hfragmented : (empty page).header.fragmented.toNat = 0 := by
    rw [empty, DataHeader.empty]
    rfl
  refine ⟨hslice, by rw [empty, DataHeader.empty], ?_, fun k hk => by omega⟩
  rw [hcount, hstart, hfragmented]
  exact ⟨by decide, le_rfl, fun i hi => absurd hi (Nat.not_lt_zero i),
    fun i hi => absurd hi (Nat.not_lt_zero i), by simp [usedBytes]⟩

@[simp] theorem page_empty (page : PageId) : (empty page).page = page := by
  rw [SlottedPage.page, empty, DataHeader.empty]

@[simp] theorem next_empty (page : PageId) : (empty page).next = none := by
  rw [SlottedPage.next, empty, DataHeader.empty]

/-- A new page holds no record. -/
theorem record?_empty (page : PageId) (slot : SlotId) : (empty page).record? slot = none := by
  refine WellFormed.record?_of_not_live fun hlive => ?_
  have hcount : (empty page).slotCount = 0 := by
    rw [slotCount, empty, DataHeader.empty]
    rfl
  exact Nat.not_lt_zero _ (hcount ▸ hlive.1)

theorem recordCount_empty (page : PageId) : (empty page).recordCount = 0 := by
  refine List.length_eq_zero_iff.2 (List.eq_nil_iff_forall_not_mem.2 fun slot hslot => ?_)
  rw [(wellFormed_empty page).mem_slots_iff, record?_empty] at hslot
  cases hslot

/-- A page without records has room for every record that is not too long. -/
theorem WellFormed.neededFor_le_of_empty {p : SlottedPage} (h : p.WellFormed)
    (hempty : ∀ slot, p.record? slot = none) {record : Bytes}
    (hlen : record.length ≤ maxRecordSize) :
    p.neededFor record ≤ p.freeSpace + p.header.fragmented.toNat := by
  have hcount : p.slotCount = 0 := by
    by_contra hne
    obtain ⟨k, hk⟩ : ∃ k, p.slotCount = k + 1 := Nat.exists_eq_succ_of_ne_zero hne
    have hlt : k < p.slotCount := hk ▸ Nat.lt_succ_self k
    -- The last slot is always in use.
    have hlive : p.Live (UInt16.ofNat k).toNat := by
      rw [toNat_ofNat_of_lt_slotCount hlt]
      exact ⟨hlt, h.last k hk⟩
    have hsome := h.isSome_record?.2 hlive
    rw [hempty] at hsome
    cases hsome
  have haccount := h.layout.account
  have hdirectory := h.layout.directory
  have hfree : p.freeSpace = p.header.contentStart.toNat - Slot.position p.slotCount := rfl
  have hneeded : p.neededFor record ≤ record.length + slotSize := by
    unfold neededFor
    split <;> omega
  rw [hcount] at haccount hdirectory hfree
  have hused : usedBytes p.slotAt 0 = 0 := rfl
  have hposition : Slot.position 0 = 16 := rfl
  have hmax : maxRecordSize = 4076 := rfl
  simp only [slotSize, pageSize] at hneeded haccount
  omega

/-! ## Linking -/

theorem slotCount_setNext (p : SlottedPage) (next : Option PageId) :
    (p.setNext next).slotCount = p.slotCount := by
  rw [slotCount, SlottedPage.setNext, header_withHeader]
  rfl

namespace WellFormed

variable {p : SlottedPage} (h : p.WellFormed)
include h

/-- Linking a page keeps it well-formed, with the same records. -/
theorem setNext (next : Option PageId) : (p.setNext next).WellFormed ∧
    (p.setNext next).page = p.page ∧ (p.setNext next).next = next ∧
      (p.setNext next).record? = p.record? := by
  have hcontent := h.layout.content
  have hdirectory := h.layout.directory
  have hentry (i : Nat) (hi : i < p.slotCount) : (p.setNext next).slotAt i = p.slotAt i := by
    have hposition := h.layout.position_le hi
    exact slotAt_withHeader (by omega)
  have hwf : (p.setNext next).WellFormed :=
    wellFormed_withHeader h.kind h.layout (fun _ _ => rfl) h.last
  refine ⟨hwf, page_withHeader, next_withHeader, ?_⟩
  funext slot
  have hlive_iff : (p.setNext next).Live slot.toNat ↔ p.Live slot.toNat :=
    live_iff_of_isEmpty_eq (p.slotCount_setNext next) (fun i hi => by rw [hentry i hi]) _
  refine record?_congr h hwf hlive_iff fun hlive => ?_
  have hrange := h.layout.range _ hlive.1 hlive.2
  have hsize : dataHeaderSize ≤ Slot.position p.slotCount := Nat.le_add_right _ _
  rw [hentry _ hlive.1]
  exact slice_withHeader_of_le (by omega) hrange.2

end WellFormed

/-! ## Editing -/

/-- The page with other bytes at the place of the record of a slot. -/
def rewritten (p : SlottedPage) (i : Nat) (new : Bytes) : SlottedPage :=
  { p with data := p.data.overwrite (p.slotAt i).offset.toNat new }

theorem header_rewritten (p : SlottedPage) (i : Nat) (new : Bytes) :
    (p.rewritten i new).header = p.header := by rw [rewritten]

theorem slotCount_rewritten (p : SlottedPage) (i : Nat) (new : Bytes) :
    (p.rewritten i new).slotCount = p.slotCount := by
  rw [slotCount, header_rewritten]
  rfl

namespace WellFormed

variable {p : SlottedPage} (h : p.WellFormed)
include h

section Rewritten

variable {slot : SlotId} {new : Bytes} (hlive : p.Live slot.toNat)
  (hlength : new.length = (p.slotAt slot.toNat).length.toNat)
include hlive

/-- The entries of the directory lie in front of all records. -/
theorem slotAt_rewritten {i : Nat} (hi : i < p.slotCount) :
    (p.rewritten slot.toNat new).slotAt i = p.slotAt i := by
  have hcontent := h.layout.content
  have hposition := h.layout.position_le hi
  have hrange := h.layout.range _ hlive.1 hlive.2
  exact Slot.load_overwrite_of_disjoint _ _ _ _ (by omega) (.inl (by omega))

theorem wellFormed_rewritten : (p.rewritten slot.toNat new).WellFormed := by
  have hdirectory := h.layout.directory
  have hrange := h.layout.range _ hlive.1 hlive.2
  have hsize : dataHeaderSize ≤ Slot.position p.slotCount := Nat.le_add_right _ _
  refine ⟨?_, ?_, ?_, fun k hk => ?_⟩
  · rw [header_rewritten, ← h.stored]
    exact Block.slice_overwrite_of_disjoint _ _ _ _ _ (by decide) (.inl (by omega))
  · rw [header_rewritten]
    exact h.kind
  · rw [slotCount_rewritten, header_rewritten]
    exact h.layout.congr fun i => h.slotAt_rewritten hlive
  · rw [slotCount_rewritten] at hk
    rw [h.slotAt_rewritten hlive (hk ▸ Nat.lt_succ_self k)]
    exact h.last k hk

include hlength

/-- Only the record whose place it is has other bytes. -/
theorem record?_rewritten :
    (p.rewritten slot.toNat new).record? = Function.update p.record? slot (some new) := by
  have hwf : (p.rewritten slot.toNat new).WellFormed := h.wellFormed_rewritten hlive
  have hlive_iff := live_iff_of_isEmpty_eq (p.slotCount_rewritten slot.toNat new) fun i hi =>
    congrArg Slot.isEmpty (h.slotAt_rewritten hlive hi)
  have hstop := (h.layout.range _ hlive.1 hlive.2).2
  unfold Slot.stop at hstop
  funext s
  by_cases hs : s = slot
  · subst hs
    rw [Function.update_self, hwf.record?_of_live ((hlive_iff _).2 hlive),
      h.slotAt_rewritten hlive hlive.1, ← hlength]
    exact congrArg some (Block.slice_overwrite_self _ _ _ (by omega))
  · have hne : s.toNat ≠ slot.toNat := fun heq => hs (UInt16.toNat_inj.1 heq)
    rw [Function.update_of_ne hs]
    refine record?_congr h hwf (hlive_iff _) fun hother => ?_
    have hrange := h.layout.range _ hother.1 hother.2
    have hapart := h.layout.apart _ hother.1 _ hlive.1 hne hother.2 hlive.2
    unfold Slot.Apart Slot.stop at hapart
    rw [h.slotAt_rewritten hlive hother.1]
    exact Block.slice_overwrite_of_disjoint _ _ _ _ _ hrange.2 (by omega)

end Rewritten

/-- There is nothing to edit in a slot without a record. -/
theorem modify_of_none {slot : SlotId} (hnone : p.record? slot = none) (edit : Edit) :
    p.modify slot edit = .error (.error (.slotNotFound ⟨p.page, slot⟩)) := by
  unfold modify
  rw [liveSlot_of_not_live (h.not_live_of_record?_none hnone)]
  rfl

/-- Editing a record exchanges its bytes and nothing else. -/
theorem modify_eq {slot : SlotId} {old : Bytes} (hold : p.record? slot = some old) (edit : Edit) :
    ∃ q, p.modify slot edit = .ok q ∧ q.WellFormed ∧ q.page = p.page ∧ q.next = p.next ∧
      q.record? = Function.update p.record? slot
        (some (edit old.length (Block.ofBytes old)).bytes) := by
  have hlive : p.Live slot.toNat := h.isSome_record?.1 (by rw [hold]; rfl)
  have hrange := h.layout.range _ hlive.1 hlive.2
  have hbytes : p.data.slice (p.slotAt slot.toNat).offset.toNat
      (p.slotAt slot.toNat).length.toNat = old := by
    rw [h.record?_of_live hlive] at hold
    exact Option.some.inj hold
  have hlength : (edit old.length (Block.ofBytes old)).bytes.length =
      (p.slotAt slot.toNat).length.toNat := by
    rw [Block.length_bytes, ← hbytes]
    exact Block.length_slice_of_le _ hrange.2
  refine ⟨p.rewritten slot.toNat (edit old.length (Block.ofBytes old)).bytes, ?_,
    h.wellFormed_rewritten hlive, ?_, ?_, h.record?_rewritten hlive hlength⟩
  · rw [SlottedPage.modify, h.liveSlot_of_live hlive, Result.bind_ok, hbytes]
    rfl
  · rw [SlottedPage.page, header_rewritten]
    rfl
  · rw [SlottedPage.next, header_rewritten]
    rfl

end WellFormed

/-! ## Deleting -/

/-- The directory is cut off behind its last entry in use. -/
theorem trimmed_spec (p : SlottedPage) (count : Nat) :
    p.trimmed count ≤ count ∧
      (∀ i, p.trimmed count ≤ i → i < count → (p.slotAt i).isEmpty = true) ∧
      ∀ k, p.trimmed count = k + 1 → (p.slotAt k).isEmpty = false := by
  induction count with
  | zero =>
    refine ⟨le_rfl, fun i _ hlt => absurd hlt (Nat.not_lt_zero i), fun k hk => ?_⟩
    rw [trimmed] at hk
    omega
  | succ n ih =>
    rw [trimmed]
    split
    · next hempty =>
      refine ⟨le_trans ih.1 (Nat.le_succ n), fun i hi hlt => ?_, ih.2.2⟩
      rcases Nat.lt_succ_iff_lt_or_eq.1 hlt with hlt | rfl
      · exact ih.2.1 i hi hlt
      · exact hempty
    · next hlive =>
      refine ⟨le_rfl, fun i hi hlt => by omega, fun k hk => ?_⟩
      obtain rfl : n = k := by omega
      simpa using hlive

/-- The page with the entry of a slot emptied. -/
def cleared (p : SlottedPage) (i : Nat) : SlottedPage :=
  { p with data := p.data.overwrite (Slot.position i) Slot.empty.encode }

theorem slotCount_cleared (p : SlottedPage) (i : Nat) :
    (p.cleared i).slotCount = p.slotCount := by
  rw [slotCount, cleared]
  rfl

/-- The page without the record of a slot.  Its bytes are lost until the page is compacted, and the
directory is cut off behind its last entry in use. -/
def deleted (p : SlottedPage) (i : Nat) : SlottedPage :=
  (p.cleared i).withHeader { p.header with
    slotCount := UInt16.ofNat ((p.cleared i).trimmed p.slotCount)
    fragmented := UInt16.ofNat (p.header.fragmented.toNat + (p.slotAt i).length.toNat) }

namespace WellFormed

variable {p : SlottedPage} (h : p.WellFormed)
include h

/-- Emptying an entry leaves the others. -/
theorem slotAt_cleared (i : Nat) {k : Nat} (hk : k < p.slotCount) :
    (p.cleared i).slotAt k = Function.update p.slotAt i Slot.empty k := by
  have hcontent := h.layout.content
  have hposition := h.layout.position_le hk
  by_cases hki : k = i
  · subst hki
    rw [Function.update_self]
    exact Slot.load_overwrite_self _ _ _ (by omega)
  · rw [Function.update_of_ne hki]
    refine Slot.load_overwrite_of_disjoint _ _ _ _ (by omega) ?_
    rw [Slot.length_encode]
    exact Slot.position_disjoint hki

theorem slotCount_deleted (i : Nat) :
    (p.deleted i).slotCount = (p.cleared i).trimmed p.slotCount := by
  have hle := ((p.cleared i).trimmed_spec p.slotCount).1
  have hlt := h.layout.count_lt
  change (UInt16.ofNat _).toNat = _
  rw [UInt16.toNat_ofNat']
  exact Nat.mod_eq_of_lt (by omega)

theorem slotCount_deleted_le (i : Nat) : (p.deleted i).slotCount ≤ p.slotCount := by
  rw [h.slotCount_deleted]
  exact ((p.cleared i).trimmed_spec p.slotCount).1

theorem slotAt_deleted (i : Nat) {k : Nat} (hk : k < (p.deleted i).slotCount) :
    (p.deleted i).slotAt k = Function.update p.slotAt i Slot.empty k := by
  have hcontent := h.layout.content
  have hlt := hk.trans_le (h.slotCount_deleted_le i)
  have hposition := h.layout.position_le hlt
  rw [← h.slotAt_cleared i hlt]
  exact slotAt_withHeader (by omega)

/-- Entries that are cut off were out of use. -/
theorem isEmpty_of_slotCount_deleted_le {i k : Nat} (hle : (p.deleted i).slotCount ≤ k)
    (hlt : k < p.slotCount) : (Function.update p.slotAt i Slot.empty k).isEmpty = true := by
  rw [h.slotCount_deleted] at hle
  rw [← h.slotAt_cleared i hlt]
  exact ((p.cleared i).trimmed_spec p.slotCount).2.1 k hle hlt

/-- The bytes that are lost are bytes of the page. -/
theorem fragmented_lt {i : Nat} (hlive : p.Live i) :
    p.header.fragmented.toNat + (p.slotAt i).length.toNat < 2 ^ 16 := by
  have haccount := h.layout.account
  have hused := size_le_usedBytes p.slotAt hlive.1
  rw [Slot.size_of_not_isEmpty hlive.2] at hused
  simp only [pageSize] at haccount
  omega

/-- The slots in use are the others that were. -/
theorem live_deleted (i k : Nat) : (p.deleted i).Live k ↔ k ≠ i ∧ p.Live k := by
  constructor
  · rintro ⟨hlt, hk⟩
    rw [h.slotAt_deleted i hlt] at hk
    by_cases hki : k = i
    · rw [hki, Function.update_self, Slot.isEmpty_empty] at hk
      cases hk
    · rw [Function.update_of_ne hki] at hk
      exact ⟨hki, hlt.trans_le (h.slotCount_deleted_le i), hk⟩
  · rintro ⟨hki, hlt, hk⟩
    have hkept : k < (p.deleted i).slotCount := by
      by_contra hge
      have hempty := h.isEmpty_of_slotCount_deleted_le (Nat.le_of_not_lt hge) hlt
      rw [Function.update_of_ne hki, hk] at hempty
      cases hempty
    refine ⟨hkept, ?_⟩
    rwa [h.slotAt_deleted i hkept, Function.update_of_ne hki]

theorem wellFormed_deleted {i : Nat} (hlive : p.Live i) : (p.deleted i).WellFormed := by
  have hcount := h.slotCount_deleted i
  have hle := h.slotCount_deleted_le i
  have hfragmented : (UInt16.ofNat (p.header.fragmented.toNat + (p.slotAt i).length.toNat)).toNat =
      p.header.fragmented.toNat + (p.slotAt i).length.toNat :=
    UInt16.toNat_ofNat_of_lt' (h.fragmented_lt hlive)
  have hlayout : Layout (Function.update p.slotAt i Slot.empty) (p.deleted i).slotCount
      p.header.contentStart.toNat (p.header.fragmented.toNat + (p.slotAt i).length.toNat) :=
    (h.layout.remove hlive.1 hlive.2).trim hle fun _ => h.isEmpty_of_slotCount_deleted_le
  rw [← hfragmented] at hlayout
  refine wellFormed_withHeader h.kind hlayout (fun k hk => ?_) fun k hk => ?_
  · exact h.slotAt_cleared i (hk.trans_le hle)
  · have hlast : (p.deleted i).slotCount = k + 1 := hk
    rw [← h.slotAt_cleared i (by omega)]
    exact ((p.cleared i).trimmed_spec p.slotCount).2.2 k (hcount ▸ hlast)

/-- The record is taken out of the map. -/
theorem record?_deleted {slot : SlotId} (hlive : p.Live slot.toNat) :
    (p.deleted slot.toNat).record? = Function.update p.record? slot none := by
  have hwf := h.wellFormed_deleted hlive
  funext s
  by_cases hs : s = slot
  · subst hs
    rw [Function.update_self]
    exact record?_of_not_live fun hlive' => ((h.live_deleted _ _).1 hlive').1 rfl
  · have hne : s.toNat ≠ slot.toNat := fun heq => hs (UInt16.toNat_inj.1 heq)
    have hlive_iff := (h.live_deleted slot.toNat s.toNat).trans (and_iff_right hne)
    rw [Function.update_of_ne hs]
    refine record?_congr h hwf hlive_iff fun hother => ?_
    have hdirectory := h.layout.directory
    have hposition := h.layout.position_le hlive.1
    have hrange := h.layout.range _ hother.1 hother.2
    have hsize : dataHeaderSize ≤ Slot.position p.slotCount := Nat.le_add_right _ _
    rw [h.slotAt_deleted _ (hlive_iff.2 hother).1, Function.update_of_ne hne]
    refine (slice_withHeader_of_le (by omega) hrange.2).trans ?_
    refine Block.slice_overwrite_of_disjoint _ _ _ _ _ hrange.2 (.inr ?_)
    rw [Slot.length_encode]
    omega

/-- A slot without a record is refused. -/
theorem delete_of_none {slot : SlotId} (hnone : p.record? slot = none) :
    p.delete slot = .error (.error (.slotNotFound ⟨p.page, slot⟩)) := by
  unfold delete
  rw [liveSlot_of_not_live (h.not_live_of_record?_none hnone)]
  rfl

/-- Deleting a record takes it out of the map and changes nothing else. -/
theorem delete_eq {slot : SlotId} (hsome : (p.record? slot).isSome) :
    ∃ q, p.delete slot = .ok q ∧ q.WellFormed ∧ q.page = p.page ∧ q.next = p.next ∧
      q.record? = Function.update p.record? slot none := by
  have hlive : p.Live slot.toNat := h.isSome_record?.1 hsome
  have hcontent := h.layout.content
  have hposition := h.layout.position_le hlive.1
  have hset : p.setSlot slot.toNat .empty = .ok (p.cleared slot.toNat) := if_pos (by omega)
  have hcount16 : count16 (p.header.fragmented.toNat + (p.slotAt slot.toNat).length.toNat) =
      .ok (UInt16.ofNat (p.header.fragmented.toNat + (p.slotAt slot.toNat).length.toNat)) :=
    if_pos (h.fragmented_lt hlive)
  refine ⟨p.deleted slot.toNat, ?_, h.wellFormed_deleted hlive, page_withHeader, next_withHeader,
    h.record?_deleted hlive⟩
  rw [SlottedPage.delete, h.liveSlot_of_live hlive, Result.bind_ok, hset, Result.bind_ok, hcount16,
    Result.bind_ok, slotCount_cleared]
  rfl

end WellFormed

end SlottedPage

end PagedHeap

import Mathlib.Data.List.Sort
import PagedHeap.Page.Slotted
import PagedHeap.Proofs.Page.Layout
import PagedHeap.Proofs.Page.Slices

/-!
# Well-formed data pages

A data page is well-formed if its stored header is the decoded one, its directory, records and
counters fit together (`Layout`), and the last entry of the directory is in use.  On such a page the
map from slots to records is `SlottedPage.record?`: a slot that is in use is one whose record can be
read, and the lists of slots and records are those of this map in increasing order.

A well-formed page is read back from its bytes as it is (`SlottedPage.WellFormed.read`).
-/

namespace PagedHeap

namespace SlottedPage

/-- Entry `i` belongs to the directory and to a record. -/
def Live (p : SlottedPage) (i : Nat) : Prop := i < p.slotCount ∧ (p.slotAt i).isEmpty = false

instance (p : SlottedPage) (i : Nat) : Decidable (p.Live i) :=
  inferInstanceAs (Decidable (_ ∧ _))

/-- The bytes of the record in a slot, if there is one. -/
def record? (p : SlottedPage) (slot : SlotId) : Option Bytes := (p.get slot).toOption

/-- The header, the directory and the records of a page agree with each other. -/
structure WellFormed (p : SlottedPage) : Prop where
  /-- The decoded header is the stored one. -/
  stored : p.data.slice 0 dataHeaderSize = p.header.encode
  /-- The page is one of records. -/
  kind : p.header.kind = .heapData
  /-- The directory, the records and the counters fit together. -/
  layout : Layout p.slotAt p.slotCount p.header.contentStart.toNat p.header.fragmented.toNat
  /-- The last entry of the directory is in use. -/
  last : ∀ k, p.slotCount = k + 1 → (p.slotAt k).isEmpty = false

/-- The directory ends before the record content starts, and this is inside the page. -/
structure Bounded (p : SlottedPage) : Prop where
  directory : Slot.position p.slotCount ≤ p.header.contentStart.toNat
  content : p.header.contentStart.toNat ≤ pageSize

theorem WellFormed.bounded {p : SlottedPage} (h : p.WellFormed) : p.Bounded :=
  ⟨h.layout.directory, h.layout.content⟩

/-- The entries of the directory lie before the record content. -/
theorem Bounded.position_le {p : SlottedPage} (h : p.Bounded) {i : Nat} (hi : i < p.slotCount) :
    Slot.position i + slotSize ≤ p.header.contentStart.toNat := by
  have hend := h.directory
  simp only [Slot.position, slotSize] at hend ⊢
  omega

/-! ## Slots in use -/

section Slots

variable {p : SlottedPage}

theorem slotCount_lt (p : SlottedPage) : p.slotCount < 2 ^ 16 := p.header.slotCount.toNat_lt

theorem toNat_ofNat_of_lt_slotCount {i : Nat} (hi : i < p.slotCount) :
    (UInt16.ofNat i).toNat = i := by
  have := p.slotCount_lt
  rw [UInt16.toNat_ofNat']
  exact Nat.mod_eq_of_lt (by omega)

theorem mem_slotsFrom {start : Nat} {slot : SlotId} :
    slot ∈ p.slotsFrom start ↔ start ≤ slot.toNat ∧ p.Live slot.toNat := by
  unfold slotsFrom Live
  simp only [List.mem_map, List.mem_filter, List.mem_range'_1, Bool.not_eq_true']
  constructor
  · rintro ⟨i, ⟨⟨hstart, hlt⟩, hlive⟩, rfl⟩
    have hi : i < p.slotCount := by omega
    rw [toNat_ofNat_of_lt_slotCount hi]
    exact ⟨hstart, hi, hlive⟩
  · rintro ⟨hstart, hlt, hlive⟩
    exact ⟨slot.toNat, ⟨⟨hstart, by omega⟩, hlive⟩, UInt16.ofNat_toNat⟩

/-- The slots in use come in increasing order. -/
theorem sortedLT_slotsFrom (p : SlottedPage) (start : Nat) :
    (p.slotsFrom start).Pairwise (· < ·) := by
  unfold slotsFrom
  rw [List.pairwise_map]
  have hrange : (List.range' start (p.slotCount - start)).Pairwise (· < ·) :=
    List.pairwise_lt_range'
  refine (hrange.filter _).imp_of_mem ?_
  intro a b ha hb hab
  have hlt : ∀ {i}, i ∈ List.filter (fun i => !(p.slotAt i).isEmpty)
      (List.range' start (p.slotCount - start)) → i < p.slotCount := fun hi => by
    have := List.mem_range'_1.1 (List.mem_filter.1 hi).1
    omega
  rw [UInt16.lt_iff_toNat_lt, toNat_ofNat_of_lt_slotCount (hlt ha),
    toNat_ofNat_of_lt_slotCount (hlt hb)]
  exact hab

theorem nodup_slotsFrom (p : SlottedPage) (start : Nat) : (p.slotsFrom start).Nodup :=
  (p.sortedLT_slotsFrom start).imp fun h => UInt16.ne_of_lt h

theorem nodup_slots (p : SlottedPage) : p.slots.Nodup := p.nodup_slotsFrom 0

/-- Which slots are in use shows in the directory. -/
theorem live_iff_of_isEmpty_eq {q : SlottedPage} (hcount : q.slotCount = p.slotCount)
    (hempty : ∀ i < p.slotCount, (q.slotAt i).isEmpty = (p.slotAt i).isEmpty) (i : Nat) :
    q.Live i ↔ p.Live i := by
  unfold Live
  rw [hcount]
  exact and_congr_right fun hlt => by rw [hempty i hlt]

/-- There are fewer records on a page than numbers for slots. -/
theorem recordCount_lt (p : SlottedPage) : p.recordCount < 2 ^ 16 := by
  unfold recordCount slots slotsFrom
  rw [List.length_map]
  refine Nat.lt_of_le_of_lt (List.length_filter_le _ _) ?_
  rw [List.length_range']
  exact Nat.lt_of_le_of_lt (Nat.sub_le _ _) p.header.slotCount.toNat_lt

theorem mem_slots {slot : SlotId} : slot ∈ p.slots ↔ p.Live slot.toNat := by
  unfold slots
  rw [mem_slotsFrom]
  simp

/-- The entry of a slot is found, with a range inside the page, or the slot is refused. -/
theorem liveSlot_cases (p : SlottedPage) (slot : SlotId) :
    (p.Live slot.toNat ∧ (p.slotAt slot.toNat).stop ≤ pageSize ∧
      p.liveSlot slot = .ok (p.slotAt slot.toNat)) ∨
    p.liveSlot slot = .error (.error (.slotNotFound ⟨p.page, slot⟩)) := by
  unfold liveSlot
  dsimp only
  split
  · next hlive => exact .inl ⟨⟨hlive.1, by simpa using hlive.2.1⟩, hlive.2.2, rfl⟩
  · exact .inr rfl

/-- The record of a slot is read from the range of its entry, or refused. -/
theorem get_cases (p : SlottedPage) (slot : SlotId) :
    (p.Live slot.toNat ∧ p.get slot = .ok (p.data.slice (p.slotAt slot.toNat).offset.toNat
      (p.slotAt slot.toNat).length.toNat)) ∨
    p.get slot = .error (.error (.slotNotFound ⟨p.page, slot⟩)) := by
  unfold get
  rcases p.liveSlot_cases slot with ⟨hlive, -, hentry⟩ | hentry
  · rw [hentry]
    exact .inl ⟨hlive, rfl⟩
  · rw [hentry]
    exact .inr rfl

theorem live_of_get {slot : SlotId} {bytes : Bytes} (h : p.get slot = .ok bytes) :
    p.Live slot.toNat := by
  rcases p.get_cases slot with ⟨hlive, -⟩ | hget
  · exact hlive
  · rw [hget] at h
    cases h

/-- The records that are listed are in those slots in use that can be read. -/
theorem map_fst_records (p : SlottedPage) :
    p.records.map Prod.fst = p.slots.filter fun slot => (p.get slot).isOk := by
  unfold records
  rw [List.map_filterMap, ← List.filterMap_eq_filter]
  refine List.filterMap_congr fun slot _ => ?_
  cases hget : p.get slot with
  | ok record => simp [Option.guard, hget, Except.toOption, Except.isOk, Except.toBool]
  | error e => simp [Option.guard, hget, Except.toOption, Except.isOk, Except.toBool]

/-- The records that are listed are those that can be read. -/
theorem mem_records_iff {slot : SlotId} {bytes : Bytes} :
    (slot, bytes) ∈ p.records ↔ p.get slot = .ok bytes := by
  unfold records
  rw [List.mem_filterMap]
  constructor
  · rintro ⟨other, -, hrecord⟩
    cases hget : p.get other with
    | ok record =>
      rw [hget] at hrecord
      cases hrecord
      exact hget
    | error e =>
      rw [hget] at hrecord
      cases hrecord
  · intro hget
    refine ⟨slot, mem_slots.2 (live_of_get hget), ?_⟩
    rw [hget]
    rfl

end Slots

namespace WellFormed

variable {p : SlottedPage} (h : p.WellFormed)
include h

/-! ## Reading records -/

/-- A slot in use has its entry. -/
theorem liveSlot_of_live {slot : SlotId} (hlive : p.Live slot.toNat) :
    p.liveSlot slot = .ok (p.slotAt slot.toNat) := by
  have hstop := (h.layout.range _ hlive.1 hlive.2).2
  unfold liveSlot
  simp only [hlive.1, hlive.2, Bool.not_false, hstop, and_self, if_true]

/-- A slot in use has a record, and it is read from its range. -/
theorem get_of_live {slot : SlotId} (hlive : p.Live slot.toNat) :
    p.get slot = .ok (p.data.slice (p.slotAt slot.toNat).offset.toNat
      (p.slotAt slot.toNat).length.toNat) := by
  unfold get
  rw [h.liveSlot_of_live hlive]
  rfl

omit h in
/-- A slot out of use has no entry. -/
theorem liveSlot_of_not_live {slot : SlotId} (hlive : ¬ p.Live slot.toNat) :
    p.liveSlot slot = .error (.error (.slotNotFound ⟨p.page, slot⟩)) := by
  have hnot : ¬ (slot.toNat < p.slotCount ∧ !(p.slotAt slot.toNat).isEmpty ∧
      (p.slotAt slot.toNat).stop ≤ pageSize) := fun hc =>
    hlive ⟨hc.1, by simpa using hc.2.1⟩
  unfold liveSlot
  simp only [hnot, if_false]
  rfl

omit h in
/-- A slot out of use has no record. -/
theorem get_of_not_live {slot : SlotId} (hlive : ¬ p.Live slot.toNat) :
    p.get slot = .error (.error (.slotNotFound ⟨p.page, slot⟩)) := by
  unfold get
  rw [liveSlot_of_not_live hlive]
  rfl

theorem record?_of_live {slot : SlotId} (hlive : p.Live slot.toNat) :
    p.record? slot = some (p.data.slice (p.slotAt slot.toNat).offset.toNat
      (p.slotAt slot.toNat).length.toNat) := by
  unfold record?
  rw [h.get_of_live hlive]
  rfl

omit h in
theorem record?_of_not_live {slot : SlotId} (hlive : ¬ p.Live slot.toNat) :
    p.record? slot = none := by
  unfold record?
  rw [get_of_not_live hlive]
  rfl

/-- The slots in use are those with a record. -/
theorem isSome_record? {slot : SlotId} : (p.record? slot).isSome ↔ p.Live slot.toNat := by
  constructor
  · intro hsome
    by_contra hnot
    rw [record?_of_not_live hnot] at hsome
    cases hsome
  · intro hlive
    rw [h.record?_of_live hlive]
    rfl

theorem get_of_record? {slot : SlotId} {bytes : Bytes} (hr : p.record? slot = some bytes) :
    p.get slot = .ok bytes := by
  have hlive : p.Live slot.toNat := h.isSome_record?.1 (by rw [hr]; rfl)
  rw [h.record?_of_live hlive] at hr
  rw [h.get_of_live hlive, Option.some.inj hr]

/-- A slot without a record is out of use. -/
theorem not_live_of_record?_none {slot : SlotId} (hr : p.record? slot = none) :
    ¬ p.Live slot.toNat := fun hlive => by
  rw [h.record?_of_live hlive] at hr
  cases hr

theorem get_of_record?_none {slot : SlotId} (hr : p.record? slot = none) :
    p.get slot = .error (.error (.slotNotFound ⟨p.page, slot⟩)) :=
  get_of_not_live (h.not_live_of_record?_none hr)

theorem mem_slots_iff {slot : SlotId} : slot ∈ p.slots ↔ (p.record? slot).isSome := by
  rw [mem_slots, h.isSome_record?]

/-- A record of the list is one of the map. -/
theorem mem_records {slot : SlotId} {bytes : Bytes} :
    (slot, bytes) ∈ p.records ↔ p.record? slot = some bytes := by
  rw [mem_records_iff]
  constructor
  · intro hget
    unfold record?
    rw [hget]
    rfl
  · exact h.get_of_record?

/-- The list of records goes through the slots in use. -/
theorem records_map_fst : p.records.map Prod.fst = p.slots := by
  rw [map_fst_records]
  refine List.filter_eq_self.2 fun slot hslot => ?_
  rw [h.get_of_live (mem_slots.1 hslot)]
  rfl

theorem length_records : p.records.length = p.recordCount := by
  rw [← List.length_map (f := Prod.fst), h.records_map_fst]
  rfl

/-! ## Reading the page -/

/-- Storing the header again changes nothing. -/
theorem overwrite_header : p.data.overwrite 0 p.header.encode = p.data := by
  refine Block.overwrite_eq_self _ _ _ fun k hk hlt => ?_
  have hk' : k < (p.data.slice 0 dataHeaderSize).length := by
    rw [h.stored]
    exact hk
  calc p.data.byteAt (0 + k) = (p.data.slice 0 dataHeaderSize)[k] :=
        (Block.getElem_slice _ _ _ _ hk').symm
    _ = p.header.encode[k] := by simp only [h.stored]

/-- The bytes of a well-formed page are read as this page, unless it links to the number of no
page. -/
theorem read (hnext : p.next ≠ some .invalid) : SlottedPage.read p.data = .ok p := by
  have hwrite : p.header.write p.data = .ok p.data := by
    rw [DataHeader.write, if_neg (by decide), h.overwrite_header]
  have hread : DataHeader.read? p.data = some p.header :=
    DataHeader.read?_write hnext hwrite
  have hdirectory : ¬ (p.header.contentStart.toNat < p.header.directoryEnd ∨
      pageSize < p.header.contentStart.toNat) := by
    have hd := h.layout.directory
    have hc := h.layout.content
    have hend : p.header.directoryEnd = Slot.position p.slotCount := rfl
    omega
  unfold SlottedPage.read ofBlock
  rw [dif_pos rfl]
  simp only [Vector.cast_rfl, hread, h.kind, ne_eq, not_true_eq_false, if_false, hdirectory]

/-! ## Counting records -/

variable {q : SlottedPage}

/-- Pages with records in the same slots have the same number of them. -/
theorem recordCount_congr (hq : q.WellFormed)
    (hsame : ∀ slot, (q.record? slot).isSome = (p.record? slot).isSome) :
    q.recordCount = p.recordCount := by
  have hperm : q.slots.Perm p.slots :=
    (List.perm_ext_iff_of_nodup q.nodup_slots p.nodup_slots).2 fun slot => by
      rw [hq.mem_slots_iff, h.mem_slots_iff, hsame]
  exact hperm.length_eq

/-- A page with one record more has one slot more in use. -/
theorem recordCount_succ (hq : q.WellFormed) {slot : SlotId} {bytes : Bytes}
    (hfresh : p.record? slot = none)
    (hrecord : q.record? = Function.update p.record? slot (some bytes)) :
    q.recordCount = p.recordCount + 1 := by
  have hnot : slot ∉ p.slots := fun hmem => by
    rw [h.mem_slots_iff, hfresh] at hmem
    cases hmem
  have hperm : q.slots.Perm (slot :: p.slots) :=
    (List.perm_ext_iff_of_nodup q.nodup_slots
      (List.nodup_cons.2 ⟨hnot, p.nodup_slots⟩)).2 fun other => by
      rw [hq.mem_slots_iff, hrecord, List.mem_cons, h.mem_slots_iff]
      by_cases hother : other = slot
      · rw [hother, Function.update_self]
        simp
      · rw [Function.update_of_ne hother]
        simp [hother]
  exact hperm.length_eq

end WellFormed

end SlottedPage

end PagedHeap

import PagedHeap.Page.Command
import PagedHeap.Proofs.Page.Change

/-!
# A page as a finite map

A page that was laid out empty and then worked on stands for a finite map from slots to records.
The map is kept beside the page, by the answers of the operations alone
(`SlottedPage.Tracks`, `PageCommand.effect`): an insert adds its record at the slot it answers, a
delete takes an entry out, a write changes one, and everything else changes none.

`SlottedPage.WellFormed.step` says what one operation does, and by induction a page stays
well-formed and its records are those of the map (`SlottedPage.Tracks.sound`).  What a user of the
page can see of it is then a matter of the map: `SlottedPage.Tracks.represents`.
-/

namespace PagedHeap

/-- A map from slots to records. -/
abbrev RecordMap := SlotId → Option Bytes

namespace PageCommand

/-- The operation works on the page it is given.  The one that does not takes the bytes of another
page. -/
def OnPage : PageCommand → Prop
  | .reopen _ => False
  | _ => True

/-- What an operation does to the map of a page, by its answer. -/
def effect (m : RecordMap) : PageCommand → PageReply → RecordMap
  | .insert record, .slot slot => Function.update m slot (some record)
  | .fill record _, .filled slots _ =>
    slots.foldl (fun m slot => Function.update m slot (some record)) m
  | .delete slot, .done => Function.update m slot none
  | .modify slot offset new, .done =>
    Function.update m slot
      ((m slot).map fun old => (Block.ofBytes old |>.overwrite offset new).bytes)
  | _, _ => m

end PageCommand

namespace SlottedPage

/-- The pages that were laid out empty and then worked on, with the map that the answers tell.  A
refused operation is among them and changes nothing. -/
inductive Tracks : SlottedPage → RecordMap → Prop
  | format {n : Nat} {b : Block n} {page : PageId} {p : SlottedPage} :
      format b page = .ok p → Tracks p fun _ => none
  | step {p q : SlottedPage} {m : RecordMap} {c : PageCommand} {reply : PageReply} :
      Tracks p m → c.OnPage → p.step c = .ok (reply, q) → Tracks q (c.effect m reply)

/-! ## The slot of a new record -/

section Least

variable {p : SlottedPage}

/-- The entries before the first empty one are in use. -/
theorem live_of_lt_emptySlot? {slot : SlotId} (h : p.emptySlot? = some slot) {i : Nat}
    (hi : i < slot.toNat) : p.Live i := by
  obtain ⟨k, hk, rfl⟩ := Option.map_eq_some_iff.1 h
  have hlt : k < p.slotCount := List.mem_range.1 (List.mem_of_find?_eq_some hk)
  rw [toNat_ofNat_of_lt_slotCount hlt] at hi
  obtain ⟨-, -, hbefore⟩ := List.find?_range_eq_some.1 hk
  exact ⟨by omega, by simpa using hbefore i hi⟩

/-- Without an empty entry the whole directory is in use. -/
theorem live_of_emptySlot?_none (h : p.emptySlot? = none) {i : Nat} (hi : i < p.slotCount) :
    p.Live i := by
  have hnone := List.find?_range_eq_none.1 (Option.map_eq_none_iff.1 h) i hi
  exact ⟨hi, by simpa using hnone⟩

/-- The slots in use from some slot on begin with the least of them. -/
theorem head?_slotsFrom {start : Nat} {slot : SlotId} :
    (p.slotsFrom start).head? = some slot ↔
      start ≤ slot.toNat ∧ p.Live slot.toNat ∧
        ∀ s : SlotId, start ≤ s.toNat → s < slot → ¬ p.Live s.toNat := by
  have hsorted := p.sortedLT_slotsFrom start
  constructor
  · intro h
    obtain ⟨rest, hrest⟩ := List.head?_eq_some_iff.1 h
    rw [hrest] at hsorted
    have hmem : slot ∈ p.slotsFrom start := by simp [hrest]
    refine ⟨(mem_slotsFrom.1 hmem).1, (mem_slotsFrom.1 hmem).2, fun s hs hlt hlive => ?_⟩
    have hmem : s ∈ p.slotsFrom start := mem_slotsFrom.2 ⟨hs, hlive⟩
    rw [hrest] at hmem
    rcases List.mem_cons.1 hmem with rfl | hmem
    · exact UInt16.lt_irrefl _ hlt
    · exact UInt16.lt_asymm hlt ((List.pairwise_cons.1 hsorted).1 s hmem)
  · rintro ⟨hstart, hlive, hleast⟩
    have hmem : slot ∈ p.slotsFrom start := mem_slotsFrom.2 ⟨hstart, hlive⟩
    cases hlist : p.slotsFrom start with
    | nil => simp [hlist] at hmem
    | cons first rest =>
      rw [hlist] at hmem hsorted
      have hfirst := mem_slotsFrom.1 (show first ∈ p.slotsFrom start by simp [hlist])
      rcases List.mem_cons.1 hmem with rfl | hmem
      · rfl
      · exact absurd hfirst.2
          (hleast first hfirst.1 ((List.pairwise_cons.1 hsorted).1 slot hmem))

/-- There is no first slot in use exactly if none is in use. -/
theorem head?_slotsFrom_eq_none {start : Nat} :
    (p.slotsFrom start).head? = none ↔ ∀ s : SlotId, start ≤ s.toNat → ¬ p.Live s.toNat := by
  rw [List.head?_eq_none_iff, List.eq_nil_iff_forall_not_mem]
  simp only [mem_slotsFrom, not_and]

/-- A record is stored in the entry it was meant for. -/
theorem slot_of_place {reuse : Option SlotId} {record : Bytes} {slot : SlotId} {q : SlottedPage}
    (h : p.place reuse record = .ok (slot, q)) : slot = reuse.getD p.header.slotCount := by
  cases reuse with
  | some s =>
    obtain ⟨count, -, h⟩ := Result.bind_eq_ok.1 h
    obtain ⟨r, -, h⟩ := Result.bind_eq_ok.1 h
    exact (Prod.mk.inj (Except.ok.inj h)).1.symm
  | none =>
    obtain ⟨count, -, h⟩ := Result.bind_eq_ok.1 h
    obtain ⟨r, -, h⟩ := Result.bind_eq_ok.1 h
    exact (Prod.mk.inj (Except.ok.inj h)).1.symm

/-- Making room does not change the directory's length. -/
theorem slotCount_withRoom {needed : Nat} {q : SlottedPage} (h : p.withRoom needed = .ok q) :
    q.header.slotCount = p.header.slotCount := by
  unfold withRoom at h
  split at h
  · rw [Except.ok.inj h]
  · dsimp only at h
    split at h
    · cases h
    · unfold compact at h
      obtain ⟨r, -, h⟩ := Result.bind_eq_ok.1 h
      rw [← Except.ok.inj h, header_withHeader]

/-- A record takes the first empty entry, or a new one at the end of the directory. -/
theorem slot_of_insert {record : Bytes} {slot : SlotId} {q : SlottedPage}
    (h : p.insert record = .ok (slot, q)) : slot = p.emptySlot?.getD p.header.slotCount := by
  unfold insert at h
  split at h
  · cases h
  · obtain ⟨r, hr, h⟩ := Result.bind_eq_ok.1 h
    rw [slot_of_place h, slotCount_withRoom hr]

/-- All slots before that of a new record are in use. -/
theorem live_of_lt_insert {record : Bytes} {slot : SlotId} {q : SlottedPage}
    (h : p.insert record = .ok (slot, q)) {i : Nat} (hi : i < slot.toNat) : p.Live i := by
  have hslot := slot_of_insert h
  cases hempty : p.emptySlot? with
  | some s =>
    rw [hempty, Option.getD_some] at hslot
    subst hslot
    exact live_of_lt_emptySlot? hempty hi
  | none =>
    rw [hempty, Option.getD_none] at hslot
    subst hslot
    exact live_of_emptySlot?_none hempty hi

end Least

/-! ## One operation -/

namespace WellFormed

variable {p : SlottedPage} (h : p.WellFormed)
include h

/-- An insert stores its record or is refused. -/
theorem insert_cases (record : Bytes) :
    (∃ slot q, p.insert record = .ok (slot, q) ∧ p.Inserted record slot q) ∨
      ∃ e, p.insert record = .error (.error e) := by
  by_cases hlong : maxRecordSize < record.length
  · exact Or.inr ⟨_, insert_of_long p hlong⟩
  · by_cases hfull : p.freeSpace + p.header.fragmented.toNat < p.neededFor record
    · exact Or.inr ⟨_, insert_of_full (Nat.le_of_not_lt hlong) hfull⟩
    · exact Or.inl (h.insert_of_fits (Nat.le_of_not_lt hlong) (Nat.le_of_not_lt hfull))

/-- A page that is filled with copies of a record has them in the slots that are answered. -/
theorem fill_eq (record : Bytes) (count : Nat) :
    ∃ slots stopped q, p.fill record count = .ok (slots, stopped, q) ∧ q.WellFormed ∧
      q.record? =
        slots.foldl (fun m slot => Function.update m slot (some record)) p.record? := by
  induction count generalizing p with
  | zero => exact ⟨[], none, p, rfl, h, rfl⟩
  | succ k ih =>
    rcases h.insert_cases record with ⟨slot, r, hr, hinserted⟩ | ⟨e, he⟩
    · obtain ⟨slots, stopped, q, hq, hwf, hrecord⟩ := ih hinserted.wellFormed
      refine ⟨slot :: slots, stopped, q, ?_, hwf, ?_⟩
      · simp only [fill, hr, hq]
        rfl
      · rw [hrecord, hinserted.record?, List.foldl_cons]
    · exact ⟨[], some e, p, by simp only [fill, he], h, rfl⟩

/-- An operation has an answer, and its effect on the records of the page is the one that the
answer tells. -/
theorem step (c : PageCommand) (hc : c.OnPage) :
    ∃ reply q, p.step c = .ok (reply, q) ∧ q.WellFormed ∧
      q.record? = c.effect p.record? reply := by
  cases c with
  | insert record =>
    rcases h.insert_cases record with ⟨slot, q, hq, hinserted⟩ | ⟨e, he⟩
    · exact ⟨.slot slot, q, by simp only [SlottedPage.step, hq, settle], hinserted.wellFormed,
        hinserted.record?⟩
    · exact ⟨.refused e, p, by simp only [SlottedPage.step, he, settle], h, rfl⟩
  | fill record count =>
    obtain ⟨slots, stopped, q, hq, hwf, hrecord⟩ := h.fill_eq record count
    exact ⟨.filled slots stopped, q, by simp only [SlottedPage.step, hq]; rfl, hwf, hrecord⟩
  | delete slot =>
    cases hslot : p.record? slot with
    | none =>
      exact ⟨.refused _, p, by
        simp only [SlottedPage.step, h.delete_of_none hslot, Except.map, settle]; rfl, h, rfl⟩
    | some old =>
      obtain ⟨q, hq, hwf, -, -, hrecord⟩ := h.delete_eq (by rw [hslot]; rfl)
      exact ⟨.done, q, by simp only [SlottedPage.step, hq, Except.map, settle], hwf, hrecord⟩
  | modify slot offset new =>
    cases hslot : p.record? slot with
    | none =>
      exact ⟨.refused _, p, by
        simp only [SlottedPage.step, h.modify_of_none hslot, Except.map, settle]; rfl, h, rfl⟩
    | some old =>
      obtain ⟨q, hq, hwf, -, -, hrecord⟩ := h.modify_eq hslot (Edit.store offset new)
      refine ⟨.done, q, by simp only [SlottedPage.step, hq, Except.map, settle], hwf, ?_⟩
      rw [hrecord, PageCommand.effect, hslot]
      rfl
  | get slot =>
    cases hslot : p.record? slot with
    | none =>
      exact ⟨.refused _, p, by
        simp only [SlottedPage.step, h.get_of_record?_none hslot, Except.map, settle]; rfl, h, rfl⟩
    | some old =>
      exact ⟨.record old, p, by
        simp only [SlottedPage.step, h.get_of_record? hslot, Except.map, settle], h, rfl⟩
  | compact =>
    obtain ⟨q, hq, hcompacted⟩ := h.compact_eq
    exact ⟨.done, q, by simp only [SlottedPage.step, hq, Except.map, settle],
      hcompacted.wellFormed, hcompacted.record?⟩
  | setNext next =>
    obtain ⟨hwf, -, -, hrecord⟩ := h.setNext next
    exact ⟨.done, p.setNext next, rfl, hwf, hrecord⟩
  | first => exact ⟨_, p, rfl, h, rfl⟩
  | next slot => exact ⟨_, p, rfl, h, rfl⟩
  | records => exact ⟨_, p, rfl, h, rfl⟩
  | header => exact ⟨_, p, rfl, h, rfl⟩
  | bytes offset length =>
    refine ⟨_, p, rfl, h, ?_⟩
    cases ((p.data.slice? offset length).map PageReply.bytes).getD .noBytes <;> rfl
  | reopen patches => exact hc.elim

end WellFormed

/-! ## All operations -/

/-- The empty page is the one that is laid out. -/
theorem eq_empty_of_format {n : Nat} {b : Block n} {page : PageId} {p : SlottedPage}
    (h : format b page = .ok p) : p = empty page := by
  unfold format ofBlock at h
  split at h
  · exact (Except.ok.inj h).symm
  · cases h

/-- A page stays well-formed, and its records are those of the map that the answers tell. -/
theorem Tracks.sound {p : SlottedPage} {m : RecordMap} (h : Tracks p m) :
    p.WellFormed ∧ p.record? = m := by
  induction h with
  | format h =>
    rw [eq_empty_of_format h]
    exact ⟨wellFormed_empty _, funext (record?_empty _)⟩
  | @step p q m c reply _ hc hstep ih =>
    obtain ⟨hwf, rfl⟩ := ih
    obtain ⟨_, _, heq, hq, hrecord⟩ := hwf.step c hc
    rw [hstep] at heq
    obtain ⟨rfl, rfl⟩ := Prod.mk.inj (Except.ok.inj heq)
    exact ⟨hq, hrecord⟩

/-! ## What is seen of the map -/

/-- What a page that stands for a map answers, and what its operations make of the map. -/
structure Represents (p : SlottedPage) (m : RecordMap) : Prop where
  /-- The record of a slot is that of the map; a slot without one is refused. -/
  get : ∀ slot, p.get slot =
    match m slot with
    | some record => .ok record
    | none => .error (.error (.slotNotFound ⟨p.page, slot⟩))
  /-- A new record gets the least slot that is free. -/
  insert : ∀ record slot q, p.insert record = .ok (slot, q) →
    m slot = none ∧ (∀ s < slot, m s ≠ none) ∧ q.record? = Function.update m slot (some record)
  /-- A delete takes the entry of a slot out; a slot without one is refused. -/
  delete : ∀ slot,
    if m slot = none then p.delete slot = .error (.error (.slotNotFound ⟨p.page, slot⟩))
    else ∃ q, p.delete slot = .ok q ∧ q.record? = Function.update m slot none
  /-- Editing a record exchanges its bytes; a slot without one is refused. -/
  modify : ∀ slot edit,
    match m slot with
    | none => p.modify slot edit = .error (.error (.slotNotFound ⟨p.page, slot⟩))
    | some old => ∃ q, p.modify slot edit = .ok q ∧
        q.record? = Function.update m slot (some (edit old.length (Block.ofBytes old)).bytes)
  /-- Compacting changes no entry. -/
  compact : ∃ q, p.compact = .ok q ∧ q.record? = m
  /-- Linking changes no entry. -/
  setNext : ∀ next, (p.setNext next).record? = m
  /-- The records are listed in increasing order of their slots. -/
  sorted : (p.records.map Prod.fst).Pairwise (· < ·)
  /-- The records that are listed are the entries of the map. -/
  records : ∀ slot record, (slot, record) ∈ p.records ↔ m slot = some record
  /-- The number of records is the length of the list. -/
  recordCount : p.recordCount = p.records.length
  /-- The first slot in use is the least one of the map. -/
  first? : ∀ slot, p.first? = some slot ↔ m slot ≠ none ∧ ∀ s < slot, m s = none
  /-- There is no first slot exactly if the map is empty. -/
  first?_none : p.first? = none ↔ ∀ s, m s = none
  /-- The next slot in use is the least one of the map behind the given slot. -/
  nextAfter? : ∀ after slot, p.nextAfter? after = some slot ↔
    after < slot ∧ m slot ≠ none ∧ ∀ s, after < s → s < slot → m s = none
  /-- There is no next slot exactly if the map has none behind the given one. -/
  nextAfter?_none : ∀ after, p.nextAfter? after = none ↔ ∀ s, after < s → m s = none
  /-- The directory ends with the greatest slot of the map. -/
  slotCount : ∀ slot : SlotId,
    p.slotCount = slot.toNat + 1 ↔ m slot ≠ none ∧ ∀ s, slot < s → m s = none
  /-- The directory of an empty map is empty. -/
  slotCount_zero : p.slotCount = 0 ↔ ∀ s, m s = none

namespace WellFormed

variable {p : SlottedPage} (h : p.WellFormed)
include h

/-- The slots in use are the entries of the map. -/
theorem record?_ne_none {slot : SlotId} : p.record? slot ≠ none ↔ p.Live slot.toNat := by
  rw [← h.isSome_record?, Option.isSome_iff_ne_none]

theorem record?_eq_none {slot : SlotId} : p.record? slot = none ↔ ¬ p.Live slot.toNat := by
  rw [← h.record?_ne_none, not_not]

/-- A directory that ends behind a slot ends with an entry in use. -/
theorem slotCount_eq_succ {i : Nat} :
    p.slotCount = i + 1 ↔ p.Live i ∧ ∀ k, i < k → ¬ p.Live k := by
  constructor
  · intro hcount
    exact ⟨⟨by omega, h.last i hcount⟩, fun k hk hlive => by have := hlive.1; omega⟩
  · rintro ⟨hlive, hgreatest⟩
    have hlt := hlive.1
    obtain ⟨k, hk⟩ : ∃ k, p.slotCount = k + 1 := ⟨p.slotCount - 1, by omega⟩
    rcases Nat.lt_or_ge i k with hik | hik
    · exact absurd ⟨by omega, h.last k hk⟩ (hgreatest k hik)
    · omega

/-- The directory ends with the greatest slot that has a record. -/
theorem slotCount_eq_slot {slot : SlotId} :
    p.slotCount = slot.toNat + 1 ↔ p.record? slot ≠ none ∧ ∀ s, slot < s → p.record? s = none := by
  rw [h.slotCount_eq_succ, h.record?_ne_none]
  refine and_congr_right fun _ => ⟨fun hlast s hs => ?_, fun hlast k hk hlive => ?_⟩
  · exact h.record?_eq_none.2 (hlast _ (UInt16.lt_iff_toNat_lt.1 hs))
  · have hnat : (UInt16.ofNat k).toNat = k := toNat_ofNat_of_lt_slotCount hlive.1
    have hnone := hlast (UInt16.ofNat k) (UInt16.lt_iff_toNat_lt.2 (by omega))
    rw [h.record?_eq_none, hnat] at hnone
    exact hnone hlive

/-- The directory is empty if no slot has a record. -/
theorem slotCount_eq_zero : p.slotCount = 0 ↔ ∀ s, p.record? s = none := by
  constructor
  · intro hzero s
    exact h.record?_eq_none.2 fun hlive => by have := hlive.1; omega
  · intro hempty
    by_contra hne
    obtain ⟨k, hk⟩ : ∃ k, p.slotCount = k + 1 := ⟨p.slotCount - 1, by omega⟩
    have hnat : (UInt16.ofNat k).toNat = k := toNat_ofNat_of_lt_slotCount (p := p) (by omega)
    have hnone := h.record?_eq_none.1 (hempty (UInt16.ofNat k))
    rw [hnat] at hnone
    exact hnone ⟨by omega, h.last k hk⟩

end WellFormed

/-- A page stands for the map that the answers of its operations tell. -/
theorem Tracks.represents {p : SlottedPage} {m : RecordMap} (h : Tracks p m) :
    p.Represents m := by
  obtain ⟨hwf, rfl⟩ := h.sound
  exact {
    get := fun slot => by
      cases hslot : p.record? slot with
      | none => exact hwf.get_of_record?_none hslot
      | some record => exact hwf.get_of_record? hslot
    insert := fun record slot q hq => by
      rcases hwf.insert_cases record with ⟨_, _, heq, hinserted⟩ | ⟨e, he⟩
      · rw [hq] at heq
        obtain ⟨rfl, rfl⟩ := Prod.mk.inj (Except.ok.inj heq)
        exact ⟨hinserted.fresh, fun s hs => hwf.record?_ne_none.2
          (live_of_lt_insert hq (UInt16.lt_iff_toNat_lt.1 hs)), hinserted.record?⟩
      · rw [hq] at he
        cases he
    delete := fun slot => by
      split
      · next hslot => exact hwf.delete_of_none hslot
      · next hslot =>
        obtain ⟨q, hq, -, -, -, hrecord⟩ := hwf.delete_eq (Option.isSome_iff_ne_none.2 hslot)
        exact ⟨q, hq, hrecord⟩
    modify := fun slot edit => by
      split
      · next hslot => exact hwf.modify_of_none hslot edit
      · next old hslot =>
        obtain ⟨q, hq, -, -, -, hrecord⟩ := hwf.modify_eq hslot edit
        exact ⟨q, hq, hrecord⟩
    compact := by
      obtain ⟨q, hq, hcompacted⟩ := hwf.compact_eq
      exact ⟨q, hq, hcompacted.record?⟩
    setNext := fun next => (hwf.setNext next).2.2.2
    sorted := hwf.records_map_fst ▸ p.sortedLT_slotsFrom 0
    records := fun slot record => hwf.mem_records
    recordCount := hwf.length_records.symm
    first? := fun slot => by
      simp only [SlottedPage.first?, slots, head?_slotsFrom, hwf.record?_ne_none,
        hwf.record?_eq_none, Nat.zero_le, true_and, forall_const]
    first?_none := by
      simp only [SlottedPage.first?, slots, head?_slotsFrom_eq_none, hwf.record?_eq_none,
        Nat.zero_le, forall_const]
    nextAfter? := fun after slot => by
      simp only [SlottedPage.nextAfter?, head?_slotsFrom, hwf.record?_ne_none,
        hwf.record?_eq_none, Nat.succ_le_iff, UInt16.lt_iff_toNat_lt]
    nextAfter?_none := fun after => by
      simp only [SlottedPage.nextAfter?, head?_slotsFrom_eq_none, hwf.record?_eq_none,
        Nat.succ_le_iff, UInt16.lt_iff_toNat_lt]
    slotCount := fun slot => hwf.slotCount_eq_slot
    slotCount_zero := hwf.slotCount_eq_zero }

/-- The first of two records, the second of them empty, is deleted. -/
def emptied : RecordMap :=
  Function.update
    (Function.update (Function.update (fun _ => none) 0 (some [7])) 1 (some [])) 0 none

set_option maxRecDepth 20000 in
theorem exists_tracks_emptied : ∃ p, Tracks p emptied := by
  obtain ⟨q, r, s, hq, hr, hs⟩ : ∃ q r s, (empty ⟨5⟩).step (.insert [7]) = .ok (.slot 0, q) ∧
      q.step (.insert []) = .ok (.slot 1, r) ∧ r.step (.delete 0) = .ok (.done, s) :=
    ⟨_, _, _, rfl, rfl, rfl⟩
  have hempty : Tracks (empty ⟨5⟩) fun _ => none := .format (b := Block.zero pageSize) rfl
  have hfirst := hempty.step (c := .insert [7]) trivial hq
  have hsecond := hfirst.step (c := .insert []) trivial hr
  exact ⟨s, hsecond.step (c := .delete 0) trivial hs⟩

theorem Tracks.represents_emptied :
    ∃ p, Tracks p emptied ∧ p.Represents emptied := by
  obtain ⟨p, hp⟩ := exists_tracks_emptied
  exact ⟨p, hp, hp.represents⟩

end SlottedPage

end PagedHeap

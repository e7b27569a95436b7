import Mathlib.Algebra.BigOperators.Group.Finset.Basic
import Mathlib.Algebra.GroupWithZero.Nat
import Mathlib.Algebra.Order.BigOperators.Group.Finset
import PagedHeap.Page.Slot

/-!
# The layout of a slot directory

A directory of `count` entries, records from `start` to the end of the page, and a count of bytes
that belong to no record any more.  `Layout` says how these fit together: the directory ends before
the records start, every record lies in the record area, no two records share a byte, and every
byte of the record area is either that of a record or counted as fragmented.

The lemmas follow a directory through the changes that a page makes to it: a record is added
directly below `start`, an entry is emptied, empty entries at the end are cut off.
-/

namespace PagedHeap

/-- The number of bytes of the record behind an entry. -/
def Slot.size (s : Slot) : Nat := if s.isEmpty then 0 else s.length.toNat

theorem Slot.size_of_isEmpty {s : Slot} (h : s.isEmpty = true) : s.size = 0 := by
  simp [Slot.size, h]

theorem Slot.size_of_not_isEmpty {s : Slot} (h : s.isEmpty = false) :
    s.size = s.length.toNat := by
  simp [Slot.size, h]

/-- Two ranges without a common byte, one after the other. -/
def Slot.Apart (s t : Slot) : Prop := s.stop ≤ t.offset.toNat ∨ t.stop ≤ s.offset.toNat

theorem Slot.Apart.symm {s t : Slot} (h : s.Apart t) : t.Apart s := Or.symm h

/-- The entry of a record of `length` bytes at `offset`, both inside a page. -/
def Slot.ofRange (offset length : Nat) : Slot := ⟨UInt16.ofNat offset, UInt16.ofNat length⟩

section OfRange

variable {offset length : Nat}

theorem Slot.offset_ofRange (length : Nat) (h : offset ≤ pageSize) :
    (Slot.ofRange offset length).offset.toNat = offset := by
  have : offset < 65536 := by simp only [pageSize] at h; omega
  simp [Slot.ofRange, this]

theorem Slot.length_ofRange (h : length ≤ pageSize) :
    (Slot.ofRange offset length).length.toNat = length := by
  have : length < 65536 := by simp only [pageSize] at h; omega
  simp [Slot.ofRange, this]

theorem Slot.stop_ofRange (h : offset + length ≤ pageSize) :
    (Slot.ofRange offset length).stop = offset + length := by
  rw [Slot.stop, Slot.offset_ofRange _ (by omega), Slot.length_ofRange (by omega)]

theorem Slot.isEmpty_ofRange (hpos : 0 < offset) (h : offset ≤ pageSize) :
    (Slot.ofRange offset length).isEmpty = false := by
  have hne : (Slot.ofRange offset length).offset ≠ 0 := fun h0 => by
    have := Slot.offset_ofRange length h
    rw [h0] at this
    simp at this
    omega
  simpa [Slot.isEmpty] using hne

end OfRange

/-- The bytes of all records of a directory. -/
def usedBytes (entry : Nat → Slot) (count : Nat) : Nat :=
  ∑ i ∈ Finset.range count, (entry i).size

section UsedBytes

variable {entry entry' : Nat → Slot} {count : Nat}

theorem usedBytes_succ : usedBytes entry (count + 1) = usedBytes entry count + (entry count).size :=
  Finset.sum_range_succ _ _

theorem usedBytes_congr (h : ∀ i < count, entry i = entry' i) :
    usedBytes entry count = usedBytes entry' count :=
  Finset.sum_congr rfl fun i hi => by rw [h i (Finset.mem_range.1 hi)]

/-- Changing one entry exchanges its share of the bytes. -/
theorem usedBytes_update (entry : Nat → Slot) {i : Nat} (hi : i < count) (s : Slot) :
    usedBytes (Function.update entry i s) count + (entry i).size =
      usedBytes entry count + s.size := by
  have hmem : i ∈ Finset.range count := Finset.mem_range.2 hi
  have rest : ∑ j ∈ (Finset.range count).erase i, (Function.update entry i s j).size =
      ∑ j ∈ (Finset.range count).erase i, (entry j).size :=
    Finset.sum_congr rfl fun j hj => by
      rw [Function.update_of_ne (Finset.ne_of_mem_erase hj)]
  have hnew := Finset.add_sum_erase (Finset.range count)
    (fun j => (Function.update entry i s j).size) hmem
  have hold := Finset.add_sum_erase (Finset.range count) (fun j => (entry j).size) hmem
  simp only [Function.update_self] at hnew
  unfold usedBytes
  omega

/-- Empty entries at the end hold no bytes. -/
theorem usedBytes_of_trailing {kept : Nat} (hle : kept ≤ count)
    (h : ∀ i, kept ≤ i → i < count → (entry i).isEmpty = true) :
    usedBytes entry count = usedBytes entry kept := by
  induction count, hle using Nat.le_induction with
  | base => rfl
  | succ n hn ih =>
    rw [usedBytes_succ, Slot.size_of_isEmpty (h n hn (Nat.lt_succ_self n)), Nat.add_zero,
      ih fun i hi hlt => h i hi (Nat.lt_succ_of_lt hlt)]

/-- The bytes of a record are among those of all records. -/
theorem size_le_usedBytes (entry : Nat → Slot) {i : Nat} (hi : i < count) :
    (entry i).size ≤ usedBytes entry count :=
  Finset.single_le_sum (f := fun j => (entry j).size) (fun _ _ => Nat.zero_le _)
    (Finset.mem_range.2 hi)

end UsedBytes

/-- How a directory, the records and the fragmented bytes of a page fit together. -/
structure Layout (entry : Nat → Slot) (count start fragmented : Nat) : Prop where
  /-- The directory ends before the records start. -/
  directory : Slot.position count ≤ start
  /-- The records start inside the page. -/
  content : start ≤ pageSize
  /-- Every record lies in the record area. -/
  range : ∀ i < count, (entry i).isEmpty = false →
    start ≤ (entry i).offset.toNat ∧ (entry i).stop ≤ pageSize
  /-- Records do not overlap. -/
  apart : ∀ i < count, ∀ j < count, i ≠ j → (entry i).isEmpty = false →
    (entry j).isEmpty = false → (entry i).Apart (entry j)
  /-- Every byte of the record area is accounted for. -/
  account : start + usedBytes entry count + fragmented = pageSize

namespace Layout

variable {entry entry' : Nat → Slot} {count start fragmented : Nat}

/-- The layout is a matter of the entries of the directory only. -/
theorem congr (h : Layout entry count start fragmented) (same : ∀ i < count, entry' i = entry i) :
    Layout entry' count start fragmented where
  directory := h.directory
  content := h.content
  range i hi := by
    rw [same i hi]
    exact h.range i hi
  apart i hi j hj := by
    rw [same i hi, same j hj]
    exact h.apart i hi j hj
  account := by
    rw [usedBytes_congr same]
    exact h.account

/-- A page has room for a bounded number of entries. -/
theorem count_lt (h : Layout entry count start fragmented) : count < 1021 := by
  have hd := h.directory
  have hc := h.content
  simp only [Slot.position, dataHeaderSize, slotSize, pageSize] at hd hc
  omega

/-- The entry of a record is stored outside every record. -/
theorem position_le (h : Layout entry count start fragmented) {i : Nat} (hi : i < count) :
    Slot.position i + slotSize ≤ start := by
  have hd := h.directory
  simp only [Slot.position, dataHeaderSize, slotSize] at hd ⊢
  omega

section Add

variable {slot length : Nat}

/-- A record directly below the others is apart from them. -/
theorem range_add (h : Layout entry count start fragmented) (hlen : length ≤ start) :
    ∀ i < count, (entry i).isEmpty = false →
      (Slot.ofRange (start - length) length).Apart (entry i) := fun i hi he => by
  have hc := h.content
  have hr := h.range i hi he
  refine Or.inl ?_
  rw [Slot.stop_ofRange (by omega)]
  omega

/-- A record is added directly below the others, in an empty entry of the directory. -/
theorem reuse (h : Layout entry count start fragmented) (hslot : slot < count)
    (hempty : (entry slot).isEmpty = true)
    (hroom : Slot.position count + length ≤ start) :
    Layout (Function.update entry slot (Slot.ofRange (start - length) length)) count
      (start - length) fragmented where
  directory := by omega
  content := le_trans (Nat.sub_le _ _) h.content
  range i hi he := by
    have hc := h.content
    by_cases his : i = slot
    · subst his
      rw [Function.update_self, Slot.offset_ofRange _ (by omega), Slot.stop_ofRange (by omega)]
      omega
    · rw [Function.update_of_ne his] at he ⊢
      have := h.range i hi he
      omega
  apart i hi j hj hij hei hej := by
    have below := h.range_add (show length ≤ start by omega)
    by_cases his : i = slot
    · subst his
      rw [Function.update_of_ne (Ne.symm hij)] at hej ⊢
      rw [Function.update_self]
      exact below j hj hej
    · rw [Function.update_of_ne his] at hei ⊢
      by_cases hjs : j = slot
      · subst hjs
        rw [Function.update_self]
        exact (below i hi hei).symm
      · rw [Function.update_of_ne hjs] at hej ⊢
        exact h.apart i hi j hj hij hei hej
  account := by
    have ha := h.account
    have hc := h.content
    have hpos : 0 < start - length := by
      simp only [Slot.position, dataHeaderSize, slotSize] at hroom
      omega
    have hu := usedBytes_update entry hslot (Slot.ofRange (start - length) length)
    rw [Slot.size_of_isEmpty hempty,
      Slot.size_of_not_isEmpty (Slot.isEmpty_ofRange hpos (by omega)),
      Slot.length_ofRange (by omega)] at hu
    omega

/-- An empty entry is added at the end of the directory. -/
theorem grow (h : Layout entry count start fragmented) (hempty : (entry count).isEmpty = true)
    (hroom : Slot.position (count + 1) ≤ start) :
    Layout entry (count + 1) start fragmented where
  directory := hroom
  content := h.content
  range i hi he := by
    rcases Nat.lt_succ_iff_lt_or_eq.1 hi with hlt | rfl
    · exact h.range i hlt he
    · simp [hempty] at he
  apart i hi j hj hij hei hej := by
    rcases Nat.lt_succ_iff_lt_or_eq.1 hi with hilt | rfl
    · rcases Nat.lt_succ_iff_lt_or_eq.1 hj with hjlt | rfl
      · exact h.apart i hilt j hjlt hij hei hej
      · simp [hempty] at hej
    · simp [hempty] at hei
  account := by
    rw [usedBytes_succ, Slot.size_of_isEmpty hempty]
    exact h.account

/-- A record is added directly below the others, in a new entry at the end of the directory. -/
theorem append (h : Layout entry count start fragmented)
    (hroom : Slot.position (count + 1) + length ≤ start) :
    Layout (Function.update entry count (Slot.ofRange (start - length) length)) (count + 1)
      (start - length) fragmented := by
  have hnew : Layout (Function.update entry count Slot.empty) count start fragmented :=
    h.congr fun i hi => Function.update_of_ne (Nat.ne_of_lt hi) _ _
  have hgrown := hnew.grow (by rw [Function.update_self]; rfl) (by omega)
  have := hgrown.reuse (Nat.lt_succ_self count) (by rw [Function.update_self]; rfl) hroom
  rwa [Function.update_idem] at this

end Add

/-- An entry is emptied; the bytes of its record become fragmented. -/
theorem remove (h : Layout entry count start fragmented) {slot : Nat} (hslot : slot < count)
    (hlive : (entry slot).isEmpty = false) :
    Layout (Function.update entry slot Slot.empty) count start
      (fragmented + (entry slot).length.toNat) where
  directory := h.directory
  content := h.content
  range i hi he := by
    by_cases his : i = slot
    · subst his
      simp [Slot.isEmpty_empty] at he
    · rw [Function.update_of_ne his] at he ⊢
      exact h.range i hi he
  apart i hi j hj hij hei hej := by
    by_cases his : i = slot
    · subst his
      simp [Slot.isEmpty_empty] at hei
    · by_cases hjs : j = slot
      · subst hjs
        simp [Slot.isEmpty_empty] at hej
      · rw [Function.update_of_ne his] at hei ⊢
        rw [Function.update_of_ne hjs] at hej ⊢
        exact h.apart i hi j hj hij hei hej
  account := by
    have ha := h.account
    have hu := usedBytes_update entry hslot Slot.empty
    rw [Slot.size_of_isEmpty Slot.isEmpty_empty, Slot.size_of_not_isEmpty hlive] at hu
    omega

/-- Empty entries at the end of the directory are cut off. -/
theorem trim (h : Layout entry count start fragmented) {kept : Nat} (hle : kept ≤ count)
    (hempty : ∀ i, kept ≤ i → i < count → (entry i).isEmpty = true) :
    Layout entry kept start fragmented where
  directory := by
    have hd := h.directory
    simp only [Slot.position, dataHeaderSize, slotSize] at hd ⊢
    omega
  content := h.content
  range i hi := h.range i (lt_of_lt_of_le hi hle)
  apart i hi j hj := h.apart i (lt_of_lt_of_le hi hle) j (lt_of_lt_of_le hj hle)
  account := by
    rw [← usedBytes_of_trailing hle hempty]
    exact h.account

end Layout

end PagedHeap

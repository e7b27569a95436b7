import PagedHeap.Page.Slot

/-!
# Ranges of a block

A range of a block depends on its own bytes only: storing elsewhere does not change it
(`Block.slice_overwrite_of_disjoint`), and what is stored into exactly this range is what is read
from it (`Block.slice_overwrite_self`).  The same two facts for an entry of the slot directory,
which is a range of four bytes, are `Slot.load_overwrite_self` and
`Slot.load_overwrite_of_disjoint`.
-/

namespace PagedHeap

namespace Block

variable {n : Nat}

@[simp] theorem length_slice (b : Block n) (offset length : Nat) :
    (b.slice offset length).length = min length (n - offset) := by
  simp [slice]

theorem length_slice_of_le (b : Block n) {offset length : Nat} (h : offset + length ≤ n) :
    (b.slice offset length).length = length := by
  rw [length_slice, Nat.min_eq_left (by omega)]

/-- The bytes of a range are the bytes of the block from its start on. -/
theorem getElem_slice (b : Block n) (offset length k : Nat)
    (hk : k < (b.slice offset length).length) :
    (b.slice offset length)[k] = b.byteAt (offset + k) := by
  have hin : offset + k < n := by
    rw [length_slice] at hk
    omega
  simp [slice, byteAt, hin]

/-- Blocks with the same bytes in a range have the same slice there. -/
theorem slice_congr {a b : Block n} {offset length : Nat}
    (h : ∀ i, offset ≤ i → i < offset + length → a.byteAt i = b.byteAt i) :
    a.slice offset length = b.slice offset length := by
  apply List.ext_getElem
  · simp
  · intro k ha hb
    rw [getElem_slice, getElem_slice]
    rw [length_slice] at ha
    exact h _ (by omega) (by omega)

/-- A range is made of its parts. -/
theorem slice_add (b : Block n) (offset length length' : Nat) :
    b.slice offset (length + length') =
      b.slice offset length ++ b.slice (offset + length) length' := by
  apply List.ext_getElem
  · simp only [length_slice, List.length_append]
    omega
  · intro k hk hk'
    rw [getElem_slice, List.getElem_append]
    split
    · rw [getElem_slice]
    · next hge =>
      rw [getElem_slice, length_slice]
      rw [length_slice] at hk hge
      congr 1
      omega

/-- A slice is the string of bytes that stands in the range. -/
theorem slice_eq_of_byteAt (b : Block n) (offset : Nat) (xs : Bytes)
    (hin : offset + xs.length ≤ n)
    (h : ∀ k (hk : k < xs.length), b.byteAt (offset + k) = xs[k]) :
    b.slice offset xs.length = xs := by
  apply List.ext_getElem
  · exact length_slice_of_le b hin
  · intro k hk hx
    rw [getElem_slice, h k hx]

/-- What was stored into a range is read from it. -/
theorem slice_overwrite_self (b : Block n) (offset : Nat) (xs : Bytes)
    (hin : offset + xs.length ≤ n) : (b.overwrite offset xs).slice offset xs.length = xs :=
  slice_eq_of_byteAt _ offset xs hin fun k hk =>
    byteAt_overwrite_add b offset xs k hk (by omega)

/-- Bytes that were stored as one of several fields are found in the field's own place. -/
theorem slice_overwrite_field (b : Block n) (before field after : Bytes)
    (hin : before.length + field.length ≤ n) :
    (b.overwrite 0 (before ++ field ++ after)).slice before.length field.length = field := by
  refine slice_eq_of_byteAt _ _ field hin fun k hk => ?_
  have hstored := byteAt_overwrite_add b 0 (before ++ field ++ after) (before.length + k)
    (by simp only [List.length_append]; omega) (by omega)
  rw [Nat.zero_add] at hstored
  rw [hstored]
  simp [hk]

/-- Storing elsewhere does not change a range. -/
theorem slice_overwrite_of_disjoint (b : Block n) (offset length start : Nat) (xs : Bytes)
    (hin : offset + length ≤ n)
    (h : offset + length ≤ start ∨ start + xs.length ≤ offset) :
    (b.overwrite start xs).slice offset length = b.slice offset length :=
  slice_congr fun i _ _ => byteAt_overwrite_of_not_mem b start xs i (by omega) (by omega)

/-- Equal ranges hold equal bytes. -/
theorem byteAt_eq_of_slice_eq {a b : Block n} {offset length i : Nat}
    (h : a.slice offset length = b.slice offset length) (hle : offset ≤ i)
    (hlt : i < offset + length) : a.byteAt i = b.byteAt i := by
  by_cases hi : i < n
  · have hk (c : Block n) : i - offset < (c.slice offset length).length := by
      rw [length_slice]
      omega
    have hbyte (c : Block n) : (c.slice offset length)[i - offset]? = some (c.byteAt i) := by
      rw [List.getElem?_eq_getElem (hk c), getElem_slice, Nat.add_sub_cancel' hle]
    have hsame := hbyte a
    rw [h, hbyte b] at hsame
    exact (Option.some.inj hsame).symm
  · unfold byteAt
    rw [Vector.getElem?_eq_none (Nat.le_of_not_lt hi),
      Vector.getElem?_eq_none (Nat.le_of_not_lt hi)]

/-- Equal numbers are stored in equal bytes. -/
theorem byteAt_eq_of_number_eq {a b : Block n} {offset width i : Nat}
    (h : a.number offset width = b.number offset width) (hle : offset ≤ i)
    (hlt : i < offset + width) : a.byteAt i = b.byteAt i := by
  induction width generalizing offset with
  | zero => omega
  | succ w ih =>
    have ha := a.number_lt (offset + 1) w
    have hb := b.number_lt (offset + 1) w
    -- the first byte is the quotient by what the others can denote, they are the rest
    have hdiv := congrArg (· / valueCount w) h
    have hmod := congrArg (· % valueCount w) h
    have hpos : 0 < valueCount w := Nat.lt_of_le_of_lt (Nat.zero_le _) ha
    simp only [number, Nat.add_comm _ (number _ _ _),
      Nat.add_mul_div_right _ _ hpos, Nat.add_mul_mod_self_right, Nat.div_eq_of_lt ha,
      Nat.div_eq_of_lt hb, Nat.mod_eq_of_lt ha, Nat.mod_eq_of_lt hb, Nat.zero_add] at hdiv hmod
    rcases Nat.eq_or_lt_of_le hle with rfl | hnext
    · exact UInt8.toNat_inj.1 hdiv
    · exact ih hmod hnext (by omega)

/-- A number of 32 bits is stored in the bytes that it denotes. -/
theorem byteAt_eq_of_ofNat_eq {a b : Block n} {offset i : Nat}
    (h : UInt32.ofNat (a.number offset 4) = UInt32.ofNat (b.number offset 4)) (hle : offset ≤ i)
    (hlt : i < offset + 4) : a.byteAt i = b.byteAt i := by
  have hnumber := congrArg UInt32.toNat h
  rw [UInt32.toNat_ofNat_of_lt' (a.number_lt offset 4),
    UInt32.toNat_ofNat_of_lt' (b.number_lt offset 4)] at hnumber
  exact byteAt_eq_of_number_eq hnumber hle hlt

/-- Storing what is there already changes nothing. -/
theorem overwrite_eq_self (b : Block n) (offset : Nat) (xs : Bytes)
    (h : ∀ k (hk : k < xs.length), offset + k < n → b.byteAt (offset + k) = xs[k]) :
    b.overwrite offset xs = b := by
  apply ext_byteAt
  intro i hi
  rw [byteAt_overwrite _ _ _ _ hi]
  split
  · next hle =>
    by_cases hlt : i - offset < xs.length
    · have := h (i - offset) hlt (by omega)
      rw [Nat.add_sub_cancel' hle] at this
      simp [hlt, this]
    · rw [List.getElem?_eq_none (by omega), Option.getD_none]
  · rfl

end Block

/-! ## Entries of the slot directory -/

namespace Slot

variable {n : Nat}

/-- An entry depends on its own four bytes only. -/
theorem load_congr {a b : Block n} {offset : Nat}
    (h : ∀ i, offset ≤ i → i < offset + slotSize → a.byteAt i = b.byteAt i) :
    load a offset = load b offset := by
  unfold load
  rw [Block.number_congr fun i hi hlt => h i hi (by simp only [slotSize]; omega),
    Block.number_congr fun i hi hlt => h i (by omega) (by simp only [slotSize]; omega)]

/-- Storing elsewhere does not change an entry. -/
theorem load_overwrite_of_disjoint (b : Block n) (offset start : Nat) (xs : Bytes)
    (hin : offset + slotSize ≤ n)
    (h : offset + slotSize ≤ start ∨ start + xs.length ≤ offset) :
    load (b.overwrite start xs) offset = load b offset :=
  load_congr fun i _ _ => Block.byteAt_overwrite_of_not_mem b start xs i (by omega) (by omega)

/-- An entry is read back as it was stored. -/
theorem load_overwrite_self (b : Block n) (offset : Nat) (s : Slot)
    (hin : offset + slotSize ≤ n) : load (b.overwrite offset s.encode) offset = s := by
  have hoffset := b.number_overwrite_field offset 2 s.offset.toNat [] (bigEndian 2 s.length.toNat)
    (by simp only [slotSize] at hin; simp; omega)
  have hlength := b.number_overwrite_field offset 2 s.length.toNat (bigEndian 2 s.offset.toNat) []
    (by simp only [slotSize] at hin; simp; omega)
  simp only [List.nil_append, List.length_nil, Nat.add_zero] at hoffset
  simp only [List.append_nil, length_bigEndian] at hlength
  unfold load
  rw [show s.encode = bigEndian 2 s.offset.toNat ++ bigEndian 2 s.length.toNat from rfl, hoffset,
    hlength, toNat_mod_valueCount_two, toNat_mod_valueCount_two, UInt16.ofNat_toNat,
    UInt16.ofNat_toNat]

/-- The entries of a directory do not overlap. -/
theorem position_disjoint {i j : Nat} (h : i ≠ j) :
    position i + slotSize ≤ position j ∨ position j + slotSize ≤ position i := by
  simp only [position, dataHeaderSize, slotSize]
  omega

end Slot

end PagedHeap

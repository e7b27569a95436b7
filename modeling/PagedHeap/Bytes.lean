/-!
# Bytes and fixed-size blocks

A record is a string of bytes (`Bytes`), a page or a header buffer is a block whose size is part of
its type (`Block n`). Storing into a block (`Block.overwrite`) keeps its size, and what it does to
each single byte is `Block.byteAt_overwrite`. Numbers are stored most significant byte first:
`ofBigEndian_bigEndian` says that reading such a number gives it back.
-/

namespace PagedHeap

/-- A string of bytes of any length. -/
abbrev Bytes := List UInt8

/-- A buffer of exactly `n` bytes. -/
abbrev Block (n : Nat) := Vector UInt8 n

/-- The longest string of bytes that memory can hold. -/
def maxBytesSize : Nat := 0x7FFFFFFFFFFFFFFF

/-! ## Numbers as bytes -/

/-- How many numbers a string of `width` bytes can denote. -/
def valueCount (width : Nat) : Nat := Nat.pow 256 width

theorem valueCount_zero : valueCount 0 = 1 := rfl

theorem valueCount_succ (w : Nat) : valueCount (w + 1) = valueCount w * 256 := rfl

/-- A number of 16 bits fits into two bytes. -/
@[simp] theorem toNat_mod_valueCount_two (n : UInt16) : n.toNat % valueCount 2 = n.toNat :=
  Nat.mod_eq_of_lt n.toNat_lt

/-- A number of 32 bits fits into four bytes. -/
@[simp] theorem toNat_mod_valueCount_four (n : UInt32) : n.toNat % valueCount 4 = n.toNat :=
  Nat.mod_eq_of_lt n.toNat_lt

/-- The lowest `width` bytes of `n`, the most significant of them first. -/
def bigEndian : (width : Nat) → (n : Nat) → Bytes
  | 0, _ => []
  | w + 1, n => UInt8.ofNat (n / valueCount w) :: bigEndian w n

/-- The number whose bytes are given, the most significant first. -/
def ofBigEndian : Bytes → Nat
  | [] => 0
  | b :: bs => b.toNat * valueCount bs.length + ofBigEndian bs

/-- The number whose bytes are given, the least significant first. -/
def ofLittleEndian : Bytes → Nat
  | [] => 0
  | b :: bs => b.toNat + 256 * ofLittleEndian bs

/-- The lowest `width` bytes of `n`, the least significant of them first. -/
def littleEndian : (width : Nat) → (n : Nat) → Bytes
  | 0, _ => []
  | w + 1, n => UInt8.ofNat n :: littleEndian w (n / 256)

@[simp] theorem length_bigEndian (w n : Nat) : (bigEndian w n).length = w := by
  induction w with
  | zero => rfl
  | succ w ih => simp [bigEndian, ih]

@[simp] theorem length_littleEndian (w n : Nat) : (littleEndian w n).length = w := by
  induction w generalizing n with
  | zero => rfl
  | succ w ih => simp [littleEndian, ih]

/-- Reading the stored bytes gives the number back, up to the bytes that did not fit. -/
theorem ofBigEndian_bigEndian (w n : Nat) : ofBigEndian (bigEndian w n) = n % valueCount w := by
  induction w with
  | zero => rw [bigEndian, ofBigEndian, valueCount_zero, Nat.mod_one]
  | succ w ih =>
    have byte : (UInt8.ofNat (n / valueCount w)).toNat = n / valueCount w % 256 := by simp
    rw [bigEndian, ofBigEndian, length_bigEndian, ih, byte, valueCount_succ, Nat.mod_mul,
      Nat.mul_comm, Nat.add_comm]

/-- Reading the stored bytes gives the number back, up to the bytes that did not fit. -/
theorem ofLittleEndian_littleEndian (w n : Nat) :
    ofLittleEndian (littleEndian w n) = n % valueCount w := by
  induction w generalizing n with
  | zero => rw [littleEndian, ofLittleEndian, valueCount_zero, Nat.mod_one]
  | succ w ih =>
    have byte : (UInt8.ofNat n).toNat = n % 256 := by simp
    rw [littleEndian, ofLittleEndian, ih, byte, valueCount_succ, Nat.mul_comm (valueCount w),
      Nat.mod_mul]

/-! ## Blocks -/

namespace Block

variable {n : Nat}

/-- The block with every byte zero. -/
def zero (n : Nat) : Block n := Vector.replicate n 0

/-- The block that holds exactly the given bytes. -/
def ofBytes (bytes : Bytes) : Block bytes.length := ⟨bytes.toArray, by simp⟩

/-- The bytes of a block. -/
def bytes (b : Block n) : Bytes := b.toList

/-- The byte at an offset, zero past the end. -/
def byteAt (b : Block n) (i : Nat) : UInt8 := (b[i]?).getD 0

/-- The bytes of a block from `offset` on, at most `length` of them. -/
def slice (b : Block n) (offset length : Nat) : Bytes :=
  (b.toArray.extract offset (offset + length)).toList

/-- The `length` bytes of a block from `offset` on, if the block has them all. -/
def slice? (b : Block n) (offset length : Nat) : Option Bytes :=
  if offset + length ≤ n then some (b.slice offset length) else none

/-- The number stored most significant byte first in the `width` bytes at `offset`. -/
def number (b : Block n) (offset : Nat) : (width : Nat) → Nat
  | 0 => 0
  | w + 1 => (b.byteAt offset).toNat * valueCount w + number b (offset + 1) w

/-- Stores bytes from `offset` on; those past the end of the block are dropped. -/
def overwrite (b : Block n) (offset : Nat) : Bytes → Block n
  | [] => b
  | x :: xs => overwrite (b.setIfInBounds offset x) (offset + 1) xs

@[simp] theorem length_bytes (b : Block n) : b.bytes.length = n := by simp [bytes]

@[simp] theorem byteAt_zero (n i : Nat) : (zero n).byteAt i = 0 := by
  by_cases h : i < n <;> simp [byteAt, zero, h]

@[simp] theorem overwrite_nil (b : Block n) (offset : Nat) : b.overwrite offset [] = b := rfl

theorem overwrite_cons (b : Block n) (offset : Nat) (x : UInt8) (xs : Bytes) :
    b.overwrite offset (x :: xs) = overwrite (b.setIfInBounds offset x) (offset + 1) xs := rfl

/-- Two blocks with the same byte at every offset are equal. -/
theorem ext_byteAt {a b : Block n} (h : ∀ i, i < n → a.byteAt i = b.byteAt i) : a = b := by
  apply Vector.ext
  intro i hi
  have := h i hi
  simpa [byteAt, hi] using this

/-- After storing `xs` at `offset` a byte is the stored one inside that range and the old one
outside. -/
theorem byteAt_overwrite (b : Block n) (offset : Nat) (xs : Bytes) (i : Nat) (hi : i < n) :
    (b.overwrite offset xs).byteAt i =
      if offset ≤ i then (xs[i - offset]?).getD (b.byteAt i) else b.byteAt i := by
  induction xs generalizing b offset with
  | nil => simp
  | cons x xs ih =>
    rw [overwrite_cons, ih]
    rcases Nat.lt_trichotomy i offset with h | h | h
    · have h1 : ¬ offset + 1 ≤ i := by omega
      have h2 : ¬ offset ≤ i := by omega
      have h3 : offset ≠ i := by omega
      simp [byteAt, h1, h2, h3]
    · subst h
      have h1 : ¬ i + 1 ≤ i := by omega
      rw [if_neg h1]
      simp [byteAt, hi]
    · have h1 : offset + 1 ≤ i := by omega
      have h2 : offset ≤ i := by omega
      have h3 : offset ≠ i := by omega
      have h4 : i - offset = (i - (offset + 1)) + 1 := by omega
      simp [byteAt, h1, h2, h3, h4]

/-- Storing does not change the bytes outside its range. -/
theorem byteAt_overwrite_of_not_mem (b : Block n) (offset : Nat) (xs : Bytes) (i : Nat)
    (hi : i < n) (h : i < offset ∨ offset + xs.length ≤ i) :
    (b.overwrite offset xs).byteAt i = b.byteAt i := by
  rw [byteAt_overwrite b offset xs i hi]
  split
  · rw [List.getElem?_eq_none (by omega), Option.getD_none]
  · rfl

/-- The bytes stored at `offset` are found there. -/
theorem byteAt_overwrite_add (b : Block n) (offset : Nat) (xs : Bytes) (k : Nat)
    (hk : k < xs.length) (hi : offset + k < n) :
    (b.overwrite offset xs).byteAt (offset + k) = xs[k] := by
  rw [byteAt_overwrite b offset xs _ hi, if_pos (Nat.le_add_right _ _)]
  simp [hk]

/-! ## Numbers in a block -/

/-- A number depends on the bytes of its own range only. -/
theorem number_congr {a b : Block n} {offset width : Nat}
    (h : ∀ i, offset ≤ i → i < offset + width → a.byteAt i = b.byteAt i) :
    a.number offset width = b.number offset width := by
  induction width generalizing offset with
  | zero => rfl
  | succ w ih =>
    rw [number, number, h offset (Nat.le_refl _) (by omega),
      ih fun i hi hw => h i (by omega) (by omega)]

/-- The number at an offset is the one whose bytes stand there. -/
theorem number_eq_ofBigEndian (b : Block n) (offset : Nat) (xs : Bytes)
    (h : ∀ k (hk : k < xs.length), b.byteAt (offset + k) = xs[k]) :
    b.number offset xs.length = ofBigEndian xs := by
  induction xs generalizing offset with
  | nil => rfl
  | cons x xs ih =>
    have h0 : b.byteAt offset = x := h 0 (Nat.succ_pos _)
    have hs : b.number (offset + 1) xs.length = ofBigEndian xs := ih (offset + 1) fun k hk => by
      have := h (k + 1) (Nat.succ_lt_succ hk)
      rwa [Nat.add_assoc, Nat.add_comm 1 k]
    rw [List.length_cons, number, h0, hs, ofBigEndian]

/-- A number that was stored is read back. -/
theorem number_overwrite_bigEndian (b : Block n) (offset width k : Nat)
    (h : offset + width ≤ n) :
    (b.overwrite offset (bigEndian width k)).number offset width = k % valueCount width := by
  have hl := length_bigEndian width k
  have := number_eq_ofBigEndian (b.overwrite offset (bigEndian width k)) offset
    (bigEndian width k) fun j hj => byteAt_overwrite_add b offset _ j hj (by omega)
  rw [hl] at this
  rw [this, ofBigEndian_bigEndian]

/-- A number that was stored as one of several fields is read back from the field's own place. -/
theorem number_overwrite_field (b : Block n) (offset width k : Nat) (before after : Bytes)
    (h : offset + before.length + width ≤ n) :
    (b.overwrite offset (before ++ bigEndian width k ++ after)).number
      (offset + before.length) width = k % valueCount width := by
  have hl := length_bigEndian width k
  have := number_eq_ofBigEndian (b.overwrite offset (before ++ bigEndian width k ++ after))
    (offset + before.length) (bigEndian width k) fun j hj => by
      rw [Nat.add_assoc, byteAt_overwrite_add b offset _ (before.length + j)
        (by simp only [List.length_append]; omega) (by omega)]
      have hw : j < width := by omega
      simp [hw]
  rw [hl] at this
  rw [this, ofBigEndian_bigEndian]

/-- A number in `width` bytes is one of those that they can denote. -/
theorem number_lt (b : Block n) (offset width : Nat) :
    b.number offset width < valueCount width := by
  induction width generalizing offset with
  | zero => exact Nat.one_pos
  | succ w ih =>
    have hb : (b.byteAt offset).toNat + 1 ≤ 256 := (b.byteAt offset).toNat_lt
    calc b.number offset (w + 1) < ((b.byteAt offset).toNat + 1) * valueCount w := by
          rw [number, Nat.add_mul, Nat.one_mul]; exact Nat.add_lt_add_left (ih _) _
      _ ≤ 256 * valueCount w := Nat.mul_le_mul_right _ hb
      _ = valueCount (w + 1) := by rw [valueCount_succ, Nat.mul_comm]

end Block

end PagedHeap

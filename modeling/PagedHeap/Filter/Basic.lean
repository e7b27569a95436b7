import PagedHeap.Error

/-!
# Filters

A filter compares one field of a record, given by its offset and length, with a constant. Integers
are compared as signed numbers, floats in the total order of their bit patterns, and strings byte by
byte up to their first zero byte. A record that is too short to hold the field passes no filter.
-/

namespace PagedHeap

/-- How the filtered field is read. -/
inductive Datatype where
  /-- A signed number in four bytes, the least significant first. -/
  | integer
  /-- A binary floating-point number in four bytes, the least significant first. -/
  | float
  /-- A string of bytes that ends at its first zero byte or with the field. -/
  | string
deriving DecidableEq

namespace Datatype

/-- The only possible length of a field of a numeric type. -/
def nativeSize : Datatype → Option Nat
  | .integer | .float => some 4
  | .string => none

/-- The name of a type in messages. -/
def text : Datatype → String
  | .integer => "Integer"
  | .float => "Float"
  | .string => "String"

end Datatype

/-- A comparison of the field with the constant. -/
inductive Comparison where
  /-- Less. -/
  | lt
  /-- Less or equal. -/
  | le
  /-- Equal. -/
  | eq
  /-- Greater or equal. -/
  | ge
  /-- Greater. -/
  | gt
  /-- Not equal. -/
  | ne
deriving DecidableEq

/-- Whether the comparison holds when field and constant are ordered as given. -/
def Comparison.accepts : Comparison → Ordering → Bool
  | .lt, o => o == .lt
  | .le, o => o != .gt
  | .eq, o => o == .eq
  | .ge, o => o != .lt
  | .gt, o => o == .gt
  | .ne, o => o != .eq

/-! ## Orders of fields -/

/-- A key whose order as a number is the total order of floats: the lower bits of a negative bit
pattern are inverted, and the result is a signed number. -/
def floatKey (bits : UInt32) : Int :=
  if bits.toNat < 0x80000000 then bits.toNat else (0x7FFFFFFF : Int) - bits.toNat

/-- Strings of bytes are compared up to the first zero byte of each. -/
def compareStrings : Bytes → Bytes → Ordering
  | [], [] => .eq
  | [], b :: _ => if b = 0 then .eq else .lt
  | a :: _, [] => if a = 0 then .eq else .gt
  | a :: as, b :: bs =>
    if a = b then if a = 0 then .eq else compareStrings as bs
    else compare a.toNat b.toNat

/-- The constant of a filter. -/
inductive FilterValue where
  /-- A signed number. -/
  | integer (value : Int32)
  /-- The bit pattern of a floating-point number. -/
  | float (bits : UInt32)
  /-- A string, padded with zeros to the length of the field. -/
  | string (bytes : Bytes)
deriving DecidableEq

/-- How a field is ordered relative to the constant. -/
def FilterValue.compareField : FilterValue → (field : Bytes) → Ordering
  | .integer value, field =>
    compare (UInt32.ofNat (ofLittleEndian field)).toInt32.toInt value.toInt
  | .float bits, field => compare (floatKey (UInt32.ofNat (ofLittleEndian field))) (floatKey bits)
  | .string bytes, field => compareStrings field bytes

/-- A condition on the field of a record from `offset` to `offset + length`. -/
structure Filter where
  /-- Where the field starts. -/
  offset : UInt64
  /-- The length of the field. -/
  length : UInt64
  /-- The constant. -/
  value : FilterValue
  /-- The comparison of the field with the constant. -/
  comparison : Comparison
deriving DecidableEq

namespace Filter

/-- A filter on a field that holds a signed number. -/
def integer (offset : UInt64) (value : Int32) (comparison : Comparison) : Filter :=
  ⟨offset, 4, .integer value, comparison⟩

/-- A filter on a field that holds a floating-point number. -/
def float (offset : UInt64) (bits : UInt32) (comparison : Comparison) : Filter :=
  ⟨offset, 4, .float bits, comparison⟩

/-- The constant of a type in its stored form, which must have the length of the field or, for a
string, at most that length. A string that cannot be padded to the length of the field is a trap. -/
def decodeValue (datatype : Datatype) (length : Nat) (value : Bytes) : Result FilterValue :=
  match datatype.nativeSize with
  | some size =>
    if length ≠ size then
      .refuse (.badScanParameter s!"{datatype.text} filter needs length {size}, got {length}")
    else if value.length ≠ size then
      .refuse (.badScanParameter
        s!"{datatype.text} filter needs a {size} byte value, got {value.length}")
    else
      let bits := UInt32.ofNat (ofLittleEndian value)
      .ok (if datatype = .integer then .integer bits.toInt32 else .float bits)
  | none =>
    if length < value.length then
      .refuse (.badScanParameter
        s!"string value of {value.length} bytes exceeds filter length {length}")
    else if maxBytesSize < length then .stop .overflow
    else .ok (.string (value ++ List.replicate (length - value.length) 0))

/-- The filter with a constant given in its stored form. -/
def new (offset length : UInt64) (datatype : Datatype) (value : Bytes)
    (comparison : Comparison) : Result Filter :=
  if length = 0 then .refuse (.badScanParameter "filter length must be at least 1")
  else if UInt64.size ≤ offset.toNat + length.toNat then
    .refuse (.badScanParameter "filter offset overflows")
  else do
    let value ← decodeValue datatype length.toNat value
    return ⟨offset, length, value, comparison⟩

/-- The filtered field of a record that is long enough. -/
def field? (f : Filter) (record : Bytes) : Option Bytes :=
  if f.offset.toNat + f.length.toNat ≤ record.length then
    some ((record.drop f.offset.toNat).take f.length.toNat)
  else none

/-- Whether a record passes the filter. -/
def accepts (f : Filter) (record : Bytes) : Bool :=
  match f.field? record with
  | none => false
  | some field => f.comparison.accepts (f.value.compareField field)

end Filter

/-- Whether a record passes a filter, if there is one. -/
def passes (filter : Option Filter) (record : Bytes) : Bool :=
  match filter with
  | none => true
  | some f => f.accepts record

end PagedHeap

import PagedHeap.Filter.Basic

/-!
# How types and comparisons are written

The words for types and comparisons are read without regard to the case of ASCII letters.
-/

namespace PagedHeap

/-- The small form of a text; only ASCII letters have one. -/
def lowerAscii (text : String) : String := text.map Char.toLower

/-- The type that a text names. -/
def Datatype.ofText (text : String) : Result Datatype :=
  let word := lowerAscii text
  if word = "int" ∨ word = "integer" then .ok .integer
  else if word = "float" then .ok .float
  else if word = "str" ∨ word = "string" then .ok .string
  else .refuse (.badScanParameter s!"unknown datatype {text}")

/-- The comparison that a text names. -/
def Comparison.ofText (text : String) : Result Comparison :=
  let word := lowerAscii text
  if word = "<" ∨ word = "lt" then .ok .lt
  else if word = "<=" ∨ word = "lte" then .ok .le
  else if word = "=" ∨ word = "==" ∨ word = "eq" then .ok .eq
  else if word = ">=" ∨ word = "gte" then .ok .ge
  else if word = ">" ∨ word = "gt" then .ok .gt
  else if word = "!=" ∨ word = "<>" ∨ word = "ne" then .ok .ne
  else .refuse (.badScanParameter s!"unknown operator {text}")

/-- The constant of a requested filter. -/
inductive FilterRequest.Constant where
  /-- A signed number. -/
  | integer (value : Int32)
  /-- The bit pattern of a floating-point number. -/
  | float (bits : UInt32)
  /-- A string for a field of the given length. -/
  | string (length : UInt64) (value : Bytes)
  /-- A constant of a named type in its stored form. -/
  | raw (datatype : String) (length : UInt64) (value : Bytes)

/-- A filter as it is asked for, before its words are read. -/
structure FilterRequest where
  /-- The word for the comparison. -/
  comparison : String
  /-- Where the field starts. -/
  offset : UInt64
  /-- The constant. -/
  constant : FilterRequest.Constant

/-- Reads the words of a request, that of the comparison first. -/
def FilterRequest.resolve (r : FilterRequest) : Result Filter := do
  let comparison ← Comparison.ofText r.comparison
  match r.constant with
  | .integer value => return .integer r.offset value comparison
  | .float bits => return .float r.offset bits comparison
  | .string length value => Filter.new r.offset length .string value comparison
  | .raw datatype length value => do
    let datatype ← Datatype.ofText datatype
    Filter.new r.offset length datatype value comparison

end PagedHeap

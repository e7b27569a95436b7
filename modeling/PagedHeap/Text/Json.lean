/-!
# Objects as text

A flat object is shown with one field on a line, indented by two blanks.
-/

namespace PagedHeap

namespace Json

/-- The digits of a number below 16. -/
def hexDigit (n : Nat) : Char := if n < 10 then Char.ofNat (48 + n) else Char.ofNat (87 + n)

/-- A character inside a string. Quotes, backslashes and control characters are escaped. -/
def escape (c : Char) : List Char :=
  if c = '"' then ['\\', '"']
  else if c = '\\' then ['\\', '\\']
  else if c = '\n' then ['\\', 'n']
  else if c = '\r' then ['\\', 'r']
  else if c = '\t' then ['\\', 't']
  else if c = '\x08' then ['\\', 'b']
  else if c = '\x0C' then ['\\', 'f']
  else if c.toNat < 0x20 then
    ['\\', 'u', '0', '0', hexDigit (c.toNat / 16), hexDigit (c.toNat % 16)]
  else [c]

/-- A string in quotes. -/
def quote (text : String) : String :=
  String.ofList ('"' :: text.toList.flatMap escape ++ ['"'])

/-- A value of a field. -/
inductive Value where
  /-- A string. -/
  | text (value : String)
  /-- A number. -/
  | number (value : Nat)

/-- The text of a value. -/
def Value.render : Value → String
  | .text value => quote value
  | .number value => toString value

/-- The text of an object with the given fields. -/
def object (fields : List (String × Value)) : String :=
  let lines := fields.map fun (name, value) => "  " ++ quote name ++ ": " ++ value.render
  "\x7b\n" ++ String.intercalate ",\n" lines ++ "\n\x7d"

end Json

end PagedHeap

/-!
# Numbers in decimal notation

Whole numbers and floating-point numbers as they are typed. A floating-point number is rounded once,
from its exact value to the nearest number of the binary32 format; of two nearest ones the one with
the even significand is taken.
-/

namespace PagedHeap

namespace Decimal

/-- The value of a decimal digit. -/
def digit? (c : Char) : Option Nat := if '0' ≤ c ∧ c ≤ '9' then some (c.toNat - '0'.toNat) else none

/-- The value of a string of digits. -/
def ofDigits (digits : List Nat) : Nat := digits.foldl (fun n d => 10 * n + d) 0

/-- The value of a text that consists of one or more digits. -/
def natural? (text : List Char) : Option Nat :=
  if text.isEmpty then none else (text.mapM digit?).map ofDigits

/-- Splits off a sign; the flag says that it is a minus. -/
def splitSign : List Char → Bool × List Char
  | '+' :: rest => (false, rest)
  | '-' :: rest => (true, rest)
  | text => (false, text)

/-- The whole number that a text denotes: digits after an optional sign. -/
def integer? (text : String) : Option Int :=
  let (negative, rest) := splitSign text.toList
  (natural? rest).map fun n => if negative then -(n : Int) else n

/-- A signed number of 32 bits. -/
def int32? (text : String) : Option Int32 :=
  match integer? text with
  | some n =>
    if Int32.minValue.toInt ≤ n ∧ n ≤ Int32.maxValue.toInt then some (Int32.ofInt n) else none
  | none => none

/-- An unsigned number of 64 bits; a minus sign is not accepted, not even before zero. -/
def size? (text : String) : Option UInt64 :=
  let digits := match text.toList with
    | '+' :: rest => rest
    | all => all
  match natural? digits with
  | some n => if n < UInt64.size then some (UInt64.ofNat n) else none
  | none => none

/-! ## Floating-point numbers -/

/-- The bit pattern of infinity. -/
def infinity : Nat := 0x7F800000

/-- The bit pattern of a value that is not a number. -/
def notANumber : Nat := 0x7FC00000

/-- The natural number nearest to a quotient; a tie goes to the even one. -/
def roundQuotient (num den : Nat) : Nat :=
  let q := num / den
  let r := num % den
  if 2 * r < den then q else if den < 2 * r then q + 1 else q + q % 2

/-- The number nearest to a quotient in units of two to the power of `exponent - 149`. -/
def roundAt (num den exponent : Nat) : Nat := roundQuotient (num <<< 149) (den <<< exponent)

/-- The least exponent for which the significand of a quotient has at most 24 bits before it is
rounded. -/
def exponentOf (num den : Nat) : Nat := Nat.log2 ((num <<< 149) / den) - 23

/-- The bit pattern of the binary32 number nearest to a quotient. In a bit pattern the exponent
stands above the significand, whose highest bit counts as one more; so a significand that is rounded
up to 25 bits carries into the exponent by itself, and all patterns from infinity on are too large.
-/
def binary32 (num den : Nat) : Nat :=
  let exponent := exponentOf num den
  min infinity ((exponent <<< 23) + roundAt num den exponent)

/-- The longest start of a text that consists of digits, and the rest. -/
def spanDigits : List Char → List Nat × List Char
  | [] => ([], [])
  | c :: rest =>
    match digit? c with
    | some d => let (ds, tail) := spanDigits rest; (d :: ds, tail)
    | none => ([], c :: rest)

/-- The value of the digits of an exponent. Beyond the bound further digits do not count: the number
is zero or infinite anyway. -/
def saturate (digits : List Nat) : Nat :=
  digits.foldl (fun n d => if n < 0x10000 then 10 * n + d else n) 0

/-- The exponent part of a number, which ends the text; without one the exponent is zero. -/
def exponent? : List Char → Option Int
  | [] => some 0
  | c :: rest =>
    if c = 'e' ∨ c = 'E' then
      let (negative, rest) := splitSign rest
      match spanDigits rest with
      | ([], _) | (_, _ :: _) => none
      | (digits, []) => some (if negative then -(saturate digits : Int) else saturate digits)
    else none

/-- The digits of a number without its exponent part, the number of them behind the point, and the
rest of the text. -/
def significand? (text : List Char) : Option (List Nat × Nat × List Char) :=
  let (whole, rest) := spanDigits text
  let (part, rest) := match rest with
    | '.' :: rest => spanDigits rest
    | rest => ([], rest)
  if whole.isEmpty && part.isEmpty then none else some (whole ++ part, part.length, rest)

/-- The bit pattern of a number in decimal notation without a sign. -/
def unsigned? (text : List Char) : Option Nat := do
  let (digits, places, rest) ← significand? text
  let e ← exponent? rest
  let n := ofDigits digits
  let e := e - places
  if n = 0 then return 0
  else if 0 ≤ e then return binary32 (n * Nat.pow 10 e.toNat) 1
  else return binary32 n (Nat.pow 10 (-e).toNat)

/-- The bit pattern of the values that are written as words, in letters of any case. -/
def word? (text : List Char) : Option Nat :=
  let word := text.map Char.toLower
  if word = ['i', 'n', 'f'] ∨ word = ['i', 'n', 'f', 'i', 'n', 'i', 't', 'y'] then some infinity
  else if word = ['n', 'a', 'n'] then some notANumber
  else none

/-- The bit pattern of the binary32 number that a text denotes. -/
def float? (text : String) : Option UInt32 :=
  let (negative, rest) := splitSign text.toList
  ((unsigned? rest).or (word? rest)).map fun bits =>
    UInt32.ofNat (if negative then bits + 0x80000000 else bits)

end Decimal

end PagedHeap

/-!
# Numerals

Hexadecimal numerals with lowercase digits, filled with zeros to a least width,
and numerals that are read: decimal digits only, no sign, no separator, or digits of
base 64.
-/

namespace Ia32

/-- The hexadecimal digits of `n`, filled with zeros on the left to `width` digits. -/
def hexDigits (width n : Nat) : String :=
  let digits := Nat.toDigits 16 n
  String.ofList (List.replicate (width - digits.length) '0' ++ digits)

/-- `hexDigits` after the mark `0x`. -/
def hex (width n : Nat) : String := "0x" ++ hexDigits width n

/-- An address or dword in full: eight digits. -/
def hex32 (v : UInt32) : String := hex 8 v.toNat

/-- A word in full: four digits. -/
def hex16 (v : UInt16) : String := hex 4 v.toNat

/-- A byte in full: two digits. -/
def hex8 (v : UInt8) : String := hex 2 v.toNat

/-- The number that a nonempty run of decimal digits names. -/
def decimal? (cs : List Char) : Option Nat :=
  if cs.isEmpty || !cs.all Char.isDigit then none
  else some (cs.foldl (fun n c => n * 10 + (c.toNat - '0'.toNat)) 0)

/-- A decimal number that may carry one plus sign. -/
def unsigned? : List Char → Option Nat
  | '+' :: cs => decimal? cs
  | cs => decimal? cs

/-- The value of a digit of base 64. -/
def digit64? (c : Char) : Option Nat :=
  if 'A' ≤ c ∧ c ≤ 'Z' then some (c.toNat - 'A'.toNat)
  else if 'a' ≤ c ∧ c ≤ 'z' then some (c.toNat - 'a'.toNat + 26)
  else if c.isDigit then some (c.toNat - '0'.toNat + 52)
  else if c = '+' then some 62
  else if c = '/' then some 63
  else none

/-- The number that a run of digits of base 64 names, the highest digit first. The empty run
names zero. -/
def base64? (cs : List Char) : Option Nat :=
  cs.foldlM (fun n c => (digit64? c).map (n * 64 + ·)) 0

/-- `text`, filled with spaces on the right to `width` characters. -/
def padRight (width : Nat) (text : String) : String :=
  text ++ String.ofList (List.replicate (width - text.length) ' ')

end Ia32

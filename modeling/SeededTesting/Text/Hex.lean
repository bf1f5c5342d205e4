/-! # Hexadecimal numbers

Numbers are written in upper case without leading zeros and read in either case.
-/

namespace SeededTesting.Text.Hex

/-- The upper-case digit of a value below sixteen. -/
def digit (value : Nat) : Char :=
  Char.ofNat (if value < 10 then 48 + value else 55 + value)

/-- The value of an ASCII hexadecimal digit of either case. -/
def value? (c : Char) : Option Nat :=
  let n := c.toNat
  if 48 ≤ n ∧ n ≤ 57 then some (n - 48)
  else if 65 ≤ n ∧ n ≤ 70 then some (n - 55)
  else if 97 ≤ n ∧ n ≤ 102 then some (n - 87)
  else none

/-- The ASCII hexadecimal digits of either case. -/
def isDigit (c : Char) : Bool :=
  (value? c).isSome

/-- The digits of a number, most significant first; zero has one digit. -/
def digits (n : Nat) : List Char :=
  if n < 16 then [digit n] else digits (n / 16) ++ [digit (n % 16)]

/-- The digits of a number as text. -/
def write (n : Nat) : String :=
  String.ofList (digits n)

/-- The digits of a number in lower case, filled with zeros to a width. -/
def padded (width n : Nat) : List Char :=
  let ds := (digits n).map Char.toLower
  List.replicate (width - ds.length) '0' ++ ds

end SeededTesting.Text.Hex

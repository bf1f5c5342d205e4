import SeededTesting.Text.Blank
import SeededTesting.Text.Digit
import SeededTesting.Text.Hex

/-! # Integer literals

A literal is an optional sign and digits with single underscores between them, surrounded by
blanks. Decimal digits of every script count as digits. A hexadecimal literal may start with
`0x`, which one underscore may follow; a decimal literal has at most 4300 digits.
-/

namespace SeededTesting.Text.Integer

inductive Radix where
  | decimal
  | hexadecimal
deriving DecidableEq, Repr

def Radix.base : Radix → Nat
  | .decimal => 10
  | .hexadecimal => 16

/-- The most digits that a decimal literal may have. -/
def decimalLimit : Nat := 4300

/-- Reduces a literal to ASCII: blanks beyond ASCII become spaces and decimal digits of every
script their ASCII forms. -/
def reduce (c : Char) : Char :=
  if c.toNat < 127 then c
  else if isBlank c then ' '
  else match decimalValue? c with
    | some value => Char.ofNat (48 + value)
    | none => c

/-- The blanks that may surround a reduced literal. The information separators are not among
them. -/
def isPadding (c : Char) : Bool :=
  c == ' ' || (9 ≤ c.toNat && c.toNat ≤ 13)

/-- The value of a digit in a radix. -/
def digitValue? (radix : Radix) (c : Char) : Option Nat :=
  (Hex.value? c).filter (· < radix.base)

/-- Digits with single underscores between them; at least one. -/
def digits? (radix : Radix) : List Char → Option (List Nat)
  | [] => none
  | [c] => (digitValue? radix c).map ([·])
  | c :: '_' :: rest => do
    let value ← digitValue? radix c
    let values ← digits? radix rest
    return value :: values
  | c :: rest => do
    let value ← digitValue? radix c
    let values ← digits? radix rest
    return value :: values

/-- Drops the mark of a hexadecimal literal and the underscore that may follow it. -/
def dropMark : Radix → List Char → List Char
  | .hexadecimal, '0' :: 'x' :: '_' :: rest => rest
  | .hexadecimal, '0' :: 'X' :: '_' :: rest => rest
  | .hexadecimal, '0' :: 'x' :: rest => rest
  | .hexadecimal, '0' :: 'X' :: rest => rest
  | _, text => text

/-- The number that digits denote, most significant first. -/
def ofDigits (radix : Radix) (values : List Nat) : Nat :=
  values.foldl (fun total value => total * radix.base + value) 0

/-- The number of an unsigned literal. -/
def magnitude? (radix : Radix) (text : List Char) : Option Nat := do
  let values ← digits? radix (dropMark radix text)
  guard (radix = .hexadecimal ∨ values.length ≤ decimalLimit)
  return ofDigits radix values

/-- The number that a literal denotes. -/
def parse? (radix : Radix) (text : List Char) : Option Int :=
  match trimBy isPadding (text.map reduce) with
  | '+' :: rest => (magnitude? radix rest).map Int.ofNat
  | '-' :: rest => (magnitude? radix rest).map fun n => -Int.ofNat n
  | rest => (magnitude? radix rest).map Int.ofNat

end SeededTesting.Text.Integer

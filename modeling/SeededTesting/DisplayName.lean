import SeededTesting.Seed.Chain

/-! # Display names

A candidate is shown as `unit#iteration [MASTER:SEED](suite)`; the iteration is left out for a
unit that runs once. A shown name can be read back, and its seeds can be stripped from it.
-/

namespace SeededTesting

/-- What the name of a candidate tells. -/
structure DisplayName where
  unit : String
  iteration : Option Nat
  chain : List Seed
  suite : Option String
deriving DecidableEq, Repr

/-- Why a text is not the name of a candidate. -/
inductive DisplayNameError where
  | notAName (text : String)
  | longIteration (digits : Nat)
  | badChain (reason : SeedError)
deriving DecidableEq, Repr

def DisplayNameError.message : DisplayNameError → String
  | .notAName text => "Not a candidate display name: " ++ Text.quote text
  | .longIteration digits =>
    "Exceeds the limit (" ++ toString Text.Integer.decimalLimit ++
      " digits) for integer string conversion: value has " ++ toString digits ++
      " digits; use sys.set_int_max_str_digits() to increase the limit"
  | .badChain reason => reason.message

namespace DisplayName

/-- The name of one of `count` iterations of a unit. -/
def format (unit : String) (iteration count : Int) (master seed : Seed) (suite : String) : String :=
  let index := if count > 1 then "#" ++ toString iteration else ""
  unit ++ index ++ " " ++ SeedChain.format [master, seed] ++ "(" ++ suite ++ ")"

/-- An ASCII decimal digit. -/
def isDigit (c : Char) : Bool :=
  48 ≤ c.toNat && c.toNat ≤ 57

/-- The parts of a name behind its unit, as they are written. -/
structure Tail where
  iteration : Option (List Char)
  chain : List Char
  suite : Option (List Char)
deriving DecidableEq, Repr

/-- The text before a closing mark at the very end, which one line break may follow. The text
itself has no line break. -/
def beforeClosing? (text : List Char) : Option (List Char) :=
  let inner := match text.reverse with
    | '\n' :: ')' :: rest => some rest.reverse
    | ')' :: rest => some rest.reverse
    | _ => none
  inner.filter fun suite => !suite.contains '\n'

/-- Reads what follows the seed chain: nothing, or a suite in parentheses, up to the end of the
text or to a line break that ends it. -/
def readSuite? : List Char → Option (Option (List Char))
  | [] => some none
  | ['\n'] => some none
  | '(' :: rest => (beforeClosing? rest).map some
  | _ => none

/-- Reads a seed chain in brackets after a space, and what follows it. -/
def readChain? (iteration : Option (List Char)) : List Char → Option Tail
  | ' ' :: '[' :: rest =>
    let chain := rest.takeWhile SeedChain.isBodyChar
    match rest.dropWhile SeedChain.isBodyChar with
    | ']' :: after =>
      if chain.isEmpty then none
      else (readSuite? after).map fun suite => { iteration, chain, suite }
    | _ => none
  | _ => none

/-- Reads what follows the unit: perhaps an iteration, and a seed chain. -/
def readTail? : List Char → Option Tail
  | '#' :: rest =>
    let digits := rest.takeWhile isDigit
    if digits.isEmpty then none else readChain? (some digits) (rest.dropWhile isDigit)
  | text => readChain? none text

/-- Splits a text behind the shortest unit that a tail follows. A unit has no line break; the
characters read so far are given in reverse. -/
def splitUnit? (unit : List Char) : List Char → Option (List Char × Tail)
  | [] => none
  | c :: rest =>
    if c = '\n' then none
    else match readTail? rest with
      | some tail => some ((c :: unit).reverse, tail)
      | none => splitUnit? (c :: unit) rest

/-- The number that an iteration is written as. -/
def readIteration (digits : List Char) : Except DisplayNameError Nat :=
  if digits.length > Text.Integer.decimalLimit then .error (.longIteration digits.length)
  else .ok (digits.foldl (fun n c => 10 * n + (c.toNat - 48)) 0)

/-- Reads the name of a candidate. -/
def parse (text : String) : Except DisplayNameError DisplayName := do
  match splitUnit? [] text.toList with
  | none => .error (.notAName text)
  | some (unit, tail) =>
    let iteration ← tail.iteration.mapM readIteration
    match SeedChain.parse (String.ofList tail.chain) with
    | .error reason => .error (.badChain reason)
    | .ok chain =>
      return {
        unit := String.ofList unit
        iteration
        chain
        suite := tail.suite.map String.ofList }

/-! ## Stripping the seeds -/

/-- The characters between the brackets of a chain that is stripped. -/
def isStrippedChar (c : Char) : Bool :=
  isDigit c || (65 ≤ c.toNat && c.toNat ≤ 90) || (97 ≤ c.toNat && c.toNat ≤ 122) || c == ':'

/-- Drops a chain in brackets behind a blank. -/
def dropChain? : List Char → Option (List Char)
  | blank :: '[' :: rest =>
    if Text.isBlank blank && !(rest.takeWhile isStrippedChar).isEmpty then
      match rest.dropWhile isStrippedChar with
      | ']' :: after => some after
      | _ => none
    else none
  | _ => none

/-- Drops an iteration and a chain in brackets. -/
def dropSeeds? : List Char → Option (List Char)
  | '#' :: rest =>
    if (rest.takeWhile isDigit).isEmpty then none else dropChain? (rest.dropWhile isDigit)
  | text => dropChain? text

/-- Drops seeds wherever they stand, from left to right; the first argument bounds the length of
the text. -/
def stripWithin : Nat → List Char → List Char
  | _, [] => []
  | 0, text => text
  | bound + 1, c :: rest =>
    match dropSeeds? (c :: rest) with
    | some after => stripWithin bound after
    | none => c :: stripWithin bound rest

/-- A name without its iteration and its seeds. -/
def strip (name : String) : String :=
  let text := name.toList
  String.ofList (stripWithin text.length text)

end DisplayName

end SeededTesting

import SeededTesting.Seed.Basic
import SeededTesting.Text.Integer
import SeededTesting.Text.Quoted

/-! # Seed chains

A seed chain lists the seeds of nested scopes, the outermost first, as `[A:B]`. Reading is more
liberal than writing: either bracket may be missing, digits may be of either case, and blanks may
surround the whole.
-/

namespace SeededTesting

/-- Why a text is not a seed or not a seed chain; each reason holds the text it is about. -/
inductive SeedError where
  | notASeed (text : String)
  | outOfRange (text : String)
  | notAChain (text : String)
  | emptyComponent (text : String)
deriving DecidableEq, Repr

def SeedError.message : SeedError → String
  | .notASeed text => "Not a valid seed: " ++ Text.quote text
  | .outOfRange text => "Seed out of 64-bit range: " ++ Text.quote text
  | .notAChain text => "Not a valid seed chain: " ++ Text.quote text
  | .emptyComponent text => "Empty component in seed chain: " ++ Text.quote text

/-- Reads one seed: a hexadecimal literal below `2 ^ 64`. -/
def Seed.parse (text : String) : Except SeedError Seed :=
  match Text.Integer.parse? .hexadecimal text.toList with
  | none => .error (.notASeed text)
  | some n =>
    if 0 ≤ n ∧ n.toNat < UInt64.size then .ok (Seed.ofInt n) else .error (.outOfRange text)

namespace SeedChain

/-- The mark between two components. -/
def separator : Char := ':'

/-- Writes a chain between brackets. -/
def format (seeds : List Seed) : String :=
  "[" ++ String.intercalate ":" (seeds.map Seed.format) ++ "]"

/-- Drops an opening bracket at the start. -/
def dropOpening : List Char → List Char
  | '[' :: rest => rest
  | text => text

/-- Drops a closing bracket at the end. -/
def dropClosing (text : List Char) : List Char :=
  match text.reverse with
  | ']' :: rest => rest.reverse
  | _ => text

/-- What is left of a chain without surrounding blanks and enclosing brackets. -/
def body (text : String) : List Char :=
  dropClosing (dropOpening (Text.trim text.toList))

/-- The characters of components and of the marks between them. -/
def isBodyChar (c : Char) : Bool :=
  Text.Hex.isDigit c || c == separator

/-- A body holds hexadecimal digits and separators only; one line break may end it. -/
def isBody (text : List Char) : Bool :=
  let rest := text.dropWhile isBodyChar
  !(text.takeWhile isBodyChar).isEmpty && (rest == [] || rest == ['\n'])

/-- The parts of a text between separators; a text without separator is one part. -/
def split (mark : Char) : List Char → List (List Char)
  | [] => [[]]
  | c :: rest =>
    if c = mark then [] :: split mark rest
    else match split mark rest with
      | part :: parts => (c :: part) :: parts
      | [] => [[c]]

/-- Reads a chain. -/
def parse (text : String) : Except SeedError (List Seed) :=
  if isBody (body text) then
    let parts := split separator (body text)
    if parts.any List.isEmpty then .error (.emptyComponent text)
    else parts.mapM fun part => Seed.parse (String.ofList part)
  else .error (.notAChain text)

end SeedChain

end SeededTesting

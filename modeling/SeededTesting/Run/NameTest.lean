/-! # Tests of display names

A run may be limited to the candidates whose display names pass a test.
-/

namespace SeededTesting

/-- What is looked for in a name. -/
inductive NamePattern where
  | contains (part : String)
  | startsWith (part : String)
deriving DecidableEq, Repr

/-- A test that names pass if they have a pattern, or if they do not. -/
structure NameTest where
  pattern : NamePattern
  negated : Bool := false
deriving DecidableEq, Repr

/-- Whether one list of characters is found in another. -/
def occursIn (part : List Char) : List Char → Bool
  | [] => part.isEmpty
  | c :: rest => part.isPrefixOf (c :: rest) || occursIn part rest

namespace NamePattern

def found (name : String) : NamePattern → Bool
  | .contains part => occursIn part.toList name.toList
  | .startsWith part => part.toList.isPrefixOf name.toList

end NamePattern

/-- Whether a name passes a test. -/
def NameTest.accepts (test : NameTest) (name : String) : Bool :=
  test.pattern.found name != test.negated

end SeededTesting

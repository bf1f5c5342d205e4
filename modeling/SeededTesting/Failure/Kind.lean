import SeededTesting.Text.Quoted

/-! # Kinds of errors

An error has a kind and perhaps a message. Its kind decides which handlers it passes, how its text
reads, and what happens when something is recorded on an object of it.
-/

namespace SeededTesting

/-- The kind of error with which an object refuses to have an attribute set. -/
inductive Refusal where
  | attribute
  | type
  | value
deriving DecidableEq, Repr

/-- The notes of an error object. An object may hold a text in their place, to which nothing can
be added. -/
inductive Notes where
  | entries (notes : List String)
  | text (text : String)
deriving DecidableEq, Repr

structure ErrorKind where
  name : String
  /-- Interrupts pass the handlers of ordinary errors. -/
  interrupt : Bool := false
  /-- A violated assumption is not a failure of the code under test. -/
  assumption : Bool := false
  /-- The text of the error is its message in quotes. -/
  quotesMessage : Bool := false
  /-- How an object refuses attributes, if it does. -/
  refusal : Option Refusal := none
  /-- The seed chains that a new object already carries. -/
  chains : List String := []
  /-- The notes that a new object already carries. -/
  notes : Notes := .entries []
deriving DecidableEq, Repr

namespace ErrorKind

/-- The kind of a name; names that are not listed stand for ordinary errors. -/
def named (name : String) : ErrorKind :=
  if ["BaseException", "GeneratorExit", "KeyboardInterrupt", "SystemExit"].contains name then
    { name, interrupt := true }
  else if ["AssumptionViolatedError", "SubAssumption"].contains name then
    { name, assumption := true }
  else if name = "KeyError" then { name, quotesMessage := true }
  else if name = "Prechained" then { name, chains := ["[AA]", "[BB]"] }
  else if name = "Sealed" then { name, refusal := some .attribute }
  else if name = "SealedType" then { name, refusal := some .type }
  else if name = "SealedValue" then { name, refusal := some .value }
  else if name = "BadNotes" then { name, notes := .text "not a list" }
  else { name }

def assumptionViolated : ErrorKind := named "AssumptionViolatedError"

def configuration : ErrorKind := named "ConfigurationError"

def context : ErrorKind := named "ContextError"

def value : ErrorKind := named "ValueError"

end ErrorKind

/-- The kind of an error that is raised, and its message. -/
structure Complaint where
  kind : ErrorKind
  message : Option String := none
deriving DecidableEq, Repr

namespace Complaint

/-- The text of an error. -/
def text (c : Complaint) : String :=
  match c.message with
  | none => ""
  | some message => if c.kind.quotesMessage then Text.quote message else message

/-- The kind of an error and its text. -/
def summary (c : Complaint) : String :=
  c.kind.name ++ ": " ++ c.text

/-- An error as it would be written to make it again. -/
def describe (c : Complaint) : String :=
  c.kind.name ++ "(" ++ (c.message.map Text.quote).getD "" ++ ")"

/-- The message about an assumption that is not met and does not say more. -/
def defaultAssumption : String := "assumption not met"

/-- What an assumption raises unless it is met. -/
def ofAssumption (condition : Bool) (message : String) : Option Complaint :=
  if condition then none else some ⟨.assumptionViolated, some message⟩

end Complaint

namespace ErrorKind

/-- The complaint of an object of this kind when an attribute is set on it, if it refuses that. -/
def refusalOf (kind : ErrorKind) (attributeName : String) : Option Complaint :=
  kind.refusal.map fun
    | .attribute => ⟨named "AttributeError", some attributeName⟩
    | .type => ⟨named "TypeError", some attributeName⟩
    | .value => ⟨value, some attributeName⟩

/-- The attribute in which an error keeps its trail: the calls that it has left. -/
def trailAttribute : String := "__traceback__"

/-- The complaint that leaves a scope in the place of an error of this kind, if its object does not
let the scope set its trail. -/
def refusalToLeave (kind : ErrorKind) : Option Complaint :=
  kind.refusalOf trailAttribute

end ErrorKind

end SeededTesting

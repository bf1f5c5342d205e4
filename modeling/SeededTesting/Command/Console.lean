import SeededTesting.Failure.Kind
import SeededTesting.Text.Blank
import SeededTesting.Text.Markup

/-! # Consoles

A console reads the markup of the texts that it is given. A tag opens a style, and a tag that starts
with a slash closes the style that it names, or the one that was opened last if it names none. There
is a complaint about a tag that closes nothing.
-/

namespace SeededTesting.Command

open Text.Markup

/-- What a console knows about tags. Two tags are for one style if they are spelled alike by it, and
some tags ask for a handler, whose parameters are read when they are closed. -/
structure Console where
  style : String → Except Complaint String
  handler : (parameters : String) → Except Complaint Unit
  /-- The style of the mark before an error is known. -/
  exists_red : ∃ name, style "red" = .ok name

namespace Console

variable (console : Console)

def nothingToClose (position : Nat) : Complaint :=
  ⟨.named "MarkupError", some ("closing tag '[/]' at position " ++ toString position ++
    " has nothing to close")⟩

def unmatched (position : Nat) (tag : Tag) : Complaint :=
  ⟨.named "MarkupError", some ("closing tag '" ++ tag.written ++ "' at position " ++
    toString position ++ " doesn't match any open tag")⟩

/-- Reads a tag that closes another one: of the open tags, the last one first, gives the one that is
closed and those that are left. -/
def close (opened : List Tag) (position : Nat) (tag : Tag) :
    Except Complaint (Tag × List Tag) := do
  match Text.trim (tag.name.toList.drop 1), opened with
  | [], [] => throw (nothingToClose position)
  | [], last :: outer => return (last, outer)
  | name, opened =>
    let style ← console.style (String.ofList name)
    match opened.find? (·.name == style) with
    | some closed => return (closed, opened.eraseP (·.name == style))
    | none => throw (unmatched position tag)

/-- Reads what a closed tag asks for. -/
def finish (closed : Tag) : Except Complaint Unit :=
  match closed.name.toList.head?, closed.parameters with
  | some '@', some parameters => if parameters = "" then .ok () else console.handler parameters
  | _, _ => .ok ()

/-- Reads tags one after another, where some are open. -/
def readTags : (opened : List Tag) → List (Nat × Tag) → Except Complaint Unit
  | _, [] => .ok ()
  | opened, (position, tag) :: rest => do
    if tag.name.toList.head? = some '/' then
      let (closed, opened) ← console.close opened position tag
      console.finish closed
      readTags opened rest
    else
      let name ← console.style tag.name
      readTags ({ tag with name } :: opened) rest

/-- Reads the markup of a text. -/
def read (s : String) : Except Complaint Unit :=
  console.readTags [] (tags s)

/-- A console on which every style has a name of its own. -/
def plain : Console where
  style name := .ok name
  handler _ := .ok ()
  exists_red := ⟨_, rfl⟩

end Console

end SeededTesting.Command

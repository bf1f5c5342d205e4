/-! # Markup

Console texts may hold tags in brackets. A text that is to be shown as it is has a backslash
written before every bracket that would open a tag, and those that stand before such a bracket
doubled. A bracket after an odd number of backslashes opens no tag.
-/

namespace SeededTesting.Text.Markup

/-- Whether a tag can begin with a character. -/
def startsTag (c : Char) : Bool :=
  c.isLower || c = '#' || c = '/' || c = '@'

/-- Whether a closing bracket comes before the next opening one. -/
def closes : List Char → Bool
  | [] => false
  | c :: rest => c = ']' || (c != '[' && closes rest)

/-- Whether what follows an opening bracket makes a tag of it. -/
def opensTag : List Char → Bool
  | [] => false
  | c :: rest => startsTag c && closes rest

/-- Escapes what follows so many backslashes. -/
def escapeAfter (backslashes : Nat) : List Char → List Char
  | [] => List.replicate backslashes '\\'
  | c :: rest =>
    if c = '\\' then escapeAfter (backslashes + 1) rest
    else if c = '[' && opensTag rest then
      List.replicate (2 * backslashes + 1) '\\' ++ c :: escapeAfter 0 rest
    else List.replicate backslashes '\\' ++ c :: escapeAfter 0 rest

/-- A text that is shown as it is. -/
def escape (s : String) : String :=
  String.ofList (escapeAfter 0 s.toList)

/-- What stands between the brackets of a tag: a name and, after an equals sign, parameters. -/
structure Tag where
  name : String
  parameters : Option String := none
deriving DecidableEq, Repr

namespace Tag

def ofText (text : List Char) : Tag where
  name := String.ofList (text.takeWhile (· != '='))
  parameters := match text.dropWhile (· != '=') with
    | [] => none
    | _ :: parameters => some (String.ofList parameters)

/-- A tag as it is written. -/
def written (tag : Tag) : String :=
  "[" ++ tag.name ++ tag.parameters.elim "" ("=" ++ ·) ++ "]"

end Tag

/-- The tags with their positions in what follows at a position, after so many backslashes. -/
def tagsFrom (position backslashes : Nat) : List Char → List (Nat × Tag)
  | [] => []
  | c :: rest =>
    if c = '\\' then tagsFrom (position + 1) (backslashes + 1) rest
    else if c = '[' && opensTag rest && backslashes % 2 == 0 then
      (position, Tag.ofText (rest.takeWhile (· != ']'))) :: tagsFrom (position + 1) 0 rest
    else tagsFrom (position + 1) 0 rest

/-- The tags of a text, each with its position. -/
def tags (s : String) : List (Nat × Tag) :=
  tagsFrom 0 0 s.toList

end SeededTesting.Text.Markup

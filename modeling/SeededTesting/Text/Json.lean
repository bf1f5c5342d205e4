import SeededTesting.Text.Hex

/-! # JSON texts

JSON values with whole numbers, whose objects keep their fields in order, and their texts: in one
line or with one line for each item. Texts are ASCII; other characters are written by their UTF-16
units.
-/

namespace SeededTesting

inductive JsonValue where
  | null
  | bool (b : Bool)
  | number (n : Int)
  | string (s : String)
  | array (items : List JsonValue)
  | object (fields : List (String × JsonValue))
deriving Repr, Inhabited

namespace JsonValue

/-- A list of texts. -/
def strings (ss : List String) : JsonValue :=
  .array (ss.map .string)

/-- A string, or null. -/
def string? : Option String → JsonValue
  | none => .null
  | some s => .string s

/-! ## Strings -/

/-- A unit of UTF-16 as an escape. -/
def escapeUnit (n : Nat) : List Char :=
  '\\' :: 'u' :: Text.Hex.padded 4 n

/-- A character inside a string. -/
def escapeChar (c : Char) : List Char :=
  if c = '"' then ['\\', '"']
  else if c = '\\' then ['\\', '\\']
  else if c = '\n' then ['\\', 'n']
  else if c = '\r' then ['\\', 'r']
  else if c = '\t' then ['\\', 't']
  else if c.toNat = 8 then ['\\', 'b']
  else if c.toNat = 12 then ['\\', 'f']
  else if ' ' ≤ c ∧ c ≤ '~' then [c]
  else if c.toNat < 0x10000 then escapeUnit c.toNat
  else
    let offset := c.toNat - 0x10000
    escapeUnit (0xD800 + offset / 0x400) ++ escapeUnit (0xDC00 + offset % 0x400)

/-- A string between quotes. -/
def quoteString (s : String) : String :=
  String.ofList ('"' :: (s.toList.flatMap escapeChar ++ ['"']))

/-! ## Values -/

/-- The text of a value without items. -/
def scalar : JsonValue → String
  | .null | .array _ | .object _ => "null"
  | .bool b => if b then "true" else "false"
  | .number n => toString n
  | .string s => quoteString s

mutual

/-- A value in one line. -/
def compact : JsonValue → String
  | .array items => "[" ++ String.intercalate ", " (compactItems items) ++ "]"
  | .object fields => "\x7b" ++ String.intercalate ", " (compactFields fields) ++ "\x7d"
  | value => value.scalar

def compactItems : List JsonValue → List String
  | [] => []
  | value :: rest => value.compact :: compactItems rest

def compactFields : List (String × JsonValue) → List String
  | [] => []
  | (key, value) :: rest => (quoteString key ++ ": " ++ value.compact) :: compactFields rest

end

/-- Parts between brackets, each in a line of its own at a depth of two blanks for each level;
brackets without parts stay together. -/
def block (opening closing : String) (depth : Nat) (parts : List String) : String :=
  let margin (d : Nat) := "\n" ++ String.ofList (List.replicate (2 * d) ' ')
  if parts.isEmpty then opening ++ closing
  else opening ++ margin (depth + 1) ++ String.intercalate ("," ++ margin (depth + 1)) parts ++
    margin depth ++ closing

mutual

/-- A value with its items in lines of their own. -/
def indented (depth : Nat) : JsonValue → String
  | .array items => block "[" "]" depth (indentedItems (depth + 1) items)
  | .object fields => block "\x7b" "\x7d" depth (indentedFields (depth + 1) fields)
  | value => value.scalar

def indentedItems (depth : Nat) : List JsonValue → List String
  | [] => []
  | value :: rest => value.indented depth :: indentedItems depth rest

def indentedFields (depth : Nat) : List (String × JsonValue) → List String
  | [] => []
  | (key, value) :: rest =>
    (quoteString key ++ ": " ++ value.indented depth) :: indentedFields depth rest

end

end JsonValue

end SeededTesting

import SeededTesting.Text.Hex
import SeededTesting.Text.Unprintable

/-! # Quoted texts

Messages show a text that was given to the program in quotes: single quotes, or double quotes for
a text with a single quote and no double quote. Line breaks, tabs, backslashes, the quote in use
and characters without a visible form are escaped.
-/

namespace SeededTesting.Text

/-- The escape of a character without a visible form. -/
def escapeCode (c : Char) : List Char :=
  if c.toNat < 0x100 then '\\' :: 'x' :: Hex.padded 2 c.toNat
  else if c.toNat < 0x10000 then '\\' :: 'u' :: Hex.padded 4 c.toNat
  else '\\' :: 'U' :: Hex.padded 8 c.toNat

/-- How a character stands between quotes. -/
def quotedChar (mark : Char) (c : Char) : List Char :=
  if c = mark ∨ c = '\\' then ['\\', c]
  else if c = '\n' then ['\\', 'n']
  else if c = '\r' then ['\\', 'r']
  else if c = '\t' then ['\\', 't']
  else if isUnprintable c then escapeCode c
  else [c]

/-- The quotation mark that a text is put in. -/
def quoteMark (text : List Char) : Char :=
  if text.contains '\'' && !text.contains '"' then '"' else '\''

/-- A text in quotes. -/
def quote (text : String) : String :=
  let mark := quoteMark text.toList
  String.ofList (mark :: text.toList.flatMap (quotedChar mark) ++ [mark])

end SeededTesting.Text

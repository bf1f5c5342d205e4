/-! # Layout of texts

Texts are fitted into lines of a width: filled with blanks, wrapped between words, and put beside
each other in columns. The words of a text, with the blanks after them, make up the text again.
-/

namespace SeededTesting.Text

def blanks (count : Nat) : String :=
  String.ofList (List.replicate count ' ')

/-- A text filled with blanks to a width. -/
def fill (width : Nat) (s : String) : String :=
  s ++ blanks (width - s.length)

theorem length_fill (width : Nat) (s : String) : (fill width s).length = max width s.length := by
  simp only [fill, blanks, String.length_append, String.length_ofList, List.length_replicate]
  omega

/-! ## Lines -/

/-- The words of a text, each with the blanks after it. -/
def words : List Char → List (List Char)
  | [] => []
  | c :: rest =>
    match words rest with
    | [] => [[c]]
    | word :: others =>
      if c = ' ' ∧ word.head? ≠ some ' ' then [c] :: word :: others
      else (c :: word) :: others

theorem flatten_words (text : List Char) : (words text).flatten = text := by
  induction text with
  | nil => rfl
  | cons c rest ih =>
    rw [words]
    split
    next h => simpa [h] using ih
    next word others h =>
      rw [h] at ih
      split <;> simpa using ih

def dropTrailingBlanks (text : List Char) : List Char :=
  (text.reverse.dropWhile (· = ' ')).reverse

/-- Puts words on lines after what stands on the first of them. A word goes on the line of the
word before it if it fits there without the blanks after it. -/
def fillLines (width : Nat) (line : List Char) : List (List Char) → List (List Char)
  | [] => [line]
  | word :: rest =>
    if line.isEmpty || line.length + (dropTrailingBlanks word).length ≤ width then
      fillLines width (line ++ word) rest
    else line :: fillLines width word rest

/-- The lines of a text that is wrapped between words. -/
def wrap (width : Nat) (s : String) : List String :=
  (fillLines width [] (words s.toList)).map fun line => String.ofList (dropTrailingBlanks line)

/-- Lines after a lead, which has blanks below it. -/
def hang (lead : String) : List String → List String
  | [] => [lead]
  | line :: rest => (lead ++ line) :: rest.map (blanks lead.length ++ ·)

/-! ## Columns -/

/-- The width of a column. -/
def widest (cells : List String) : Nat :=
  (cells.map String.length).foldr max 0

/-- The greater of two numbers at each place; a list that ends earlier has none to compare. -/
def greatest : List Nat → List Nat → List Nat
  | [], others => others
  | numbers, [] => numbers
  | n :: numbers, other :: others => max n other :: greatest numbers others

/-- The widths of the columns of a table. -/
def columnWidths (rows : List (List String)) : List Nat :=
  rows.foldr (fun row => greatest (row.map String.length)) []

/-- Rows of one cell and so many more; the last row may be shorter. -/
def rowsOf (more : Nat) (cells : List String) : List (List String) :=
  match cells with
  | [] => []
  | cell :: rest => (cell :: rest.take more) :: rowsOf more (rest.drop more)
termination_by cells.length

theorem flatten_rowsOf (more : Nat) (cells : List String) :
    (rowsOf more cells).flatten = cells := by
  fun_induction rowsOf more cells with
  | case1 => rfl
  | case2 cell rest ih => simp [ih]

/-- Cells in as many columns as fit with a blank between them, which are one and at most so many
more. Cells that get no column beside them are wrapped. -/
def inColumns (width : Nat) (cells : List String) : Nat → List String
  | 0 => cells.flatMap (wrap width)
  | more + 1 =>
    let rows := rowsOf (more + 1) cells
    let widths := columnWidths rows
    if widths.sum + (more + 1) ≤ width then
      rows.map fun row => String.intercalate " " (List.zipWith fill widths row)
    else inColumns width cells more

/-- Cells beside each other where the width admits it. -/
def beside (width : Nat) (cells : List String) : List String :=
  inColumns width cells (cells.length - 1)

end SeededTesting.Text

import SeededTesting.Command.Arguments
import SeededTesting.Text.Layout

/-! # Help pages

What a command is and takes, and the page that tells of it: how the command is called, what it is
for, and framed panels with its arguments, its options and its subcommands. Panels with nothing in
them are left out.
-/

namespace SeededTesting.Command

/-- A positional argument of a command. -/
structure ArgumentSpec where
  name : String
  value : ValueSpec := { required := true }
  help : String
deriving DecidableEq, Repr

/-- A command, which has subcommands or arguments and options of its own. -/
structure CommandSpec where
  /-- The names that lead to the command. -/
  path : List String
  summary : String
  /-- Command lines that show the use of the command. -/
  examples : List String := []
  arguments : List ArgumentSpec := []
  /-- Options besides the one for help. -/
  ownOptions : List OptionSpec := []
  /-- Names and summaries of the subcommands. -/
  subcommands : List (String × String) := []
deriving DecidableEq, Repr

namespace CommandSpec

def options (spec : CommandSpec) : List OptionSpec :=
  spec.ownOptions ++ [helpOption]

/-- Whether a subcommand follows the options. -/
def isGroup (spec : CommandSpec) : Bool :=
  !spec.subcommands.isEmpty

end CommandSpec

namespace HelpPage

/-! ## Text on a page -/

def width : Nat := 80

/-- The width inside of a panel. -/
def panelWidth : Nat := width - 4

def emptyLine : String := Text.fill width ""

/-- The lines of a paragraph, which stay clear of both edges. -/
def paragraph (text : String) : List String :=
  (Text.wrap (width - 2) text).map fun line => Text.fill width (" " ++ line)

/-- Part of the edge of a panel. -/
def rule (length : Nat) : String :=
  String.ofList (List.replicate length '─')

/-- Lines in a frame with a title, if there are any. -/
def panel (title : String) (lines : List String) : List String :=
  if lines.isEmpty then []
  else
    ("╭─ " ++ title ++ " " ++ rule (width - 5 - title.length) ++ "╮") ::
      lines.map (fun line => "│ " ++ Text.fill panelWidth line ++ " │") ++
      ["╰" ++ rule (width - 2) ++ "╯"]

/-! ## Arguments and options -/

/-- What a panel says about an argument or an option. -/
structure Entry where
  /-- The long and the short name; arguments have the latter only. -/
  names : String × String
  value : Option ValueSpec
  help : String
deriving DecidableEq, Repr

namespace Entry

def ofArgument (spec : ArgumentSpec) : Entry where
  names := ("", spec.name)
  value := some spec.value
  help := spec.help

def ofOption (spec : OptionSpec) : Entry where
  names := ("--" ++ spec.long, spec.short.elim "" fun letter => "-" ++ letter.toString)
  value := spec.value
  help := spec.help

def required (e : Entry) : Bool :=
  e.value.any (·.required)

/-- The cells before the notes. Two of them are for names that turn an option off, which no option
has. -/
def cells (e : Entry) : List String :=
  [e.names.1, e.names.2, "", "", (e.value.map (·.placeholder)).getD ""]

/-- The help and what else is to be known about the value. -/
def notes (e : Entry) : List String :=
  e.help :: match e.value with
    | none => []
    | some value =>
      ("[default: " ++ value.fallback ++ "]") :: if value.required then ["[required]"] else []

end Entry

/-- The lines of entries: their cells in columns and the notes in the width that is left. Required
entries have a star, for which there is no column if no entry is required. -/
def entryLines (entries : List Entry) : List String :=
  let marked := entries.any (·.required)
  let row := fun (e : Entry) =>
    if marked then (if e.required then "*" else "") :: e.cells else e.cells
  let widths := Text.columnWidths (entries.map row)
  entries.flatMap fun e =>
    let lead := String.join ((List.zipWith Text.fill widths (row e)).map (· ++ "  "))
    Text.hang lead (Text.beside (panelWidth - lead.length) e.notes)

/-! ## Subcommands -/

/-- The lines of subcommands: their names in a column and their summaries. -/
def subcommandLines (subcommands : List (String × String)) : List String :=
  let column := Text.widest (subcommands.map (·.1)) + 3
  subcommands.flatMap fun command =>
    let lead := Text.fill column command.1
    Text.hang lead (Text.wrap (panelWidth - lead.length) command.2)

/-! ## Pages -/

/-- How a command is called. -/
def usage (spec : CommandSpec) : String :=
  "Usage: " ++ String.intercalate " " (spec.path ++ ["[OPTIONS]"] ++
    if spec.isGroup then ["COMMAND", "[ARGS]..."]
    else spec.arguments.map (·.name.toUpper))

/-- What a command is for. -/
def description (spec : CommandSpec) : List String :=
  spec.summary ::
    if spec.examples.isEmpty then []
    else ["Examples:" ++ String.join (spec.examples.map (Text.blanks 5 ++ ·))]

/-- The lines of the page of a command. -/
def lines (spec : CommandSpec) : List String :=
  [emptyLine] ++ paragraph (usage spec) ++ [emptyLine] ++
    (description spec).flatMap paragraph ++ [emptyLine] ++
    panel "Arguments" (entryLines (spec.arguments.map .ofArgument)) ++
    panel "Options" (entryLines (spec.options.map .ofOption)) ++
    panel "Commands" (subcommandLines spec.subcommands) ++
    [""]

end HelpPage

end SeededTesting.Command

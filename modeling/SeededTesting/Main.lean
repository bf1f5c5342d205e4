import SeededTesting.Command.Answer

/-! # The command line

Prints what the answer to a command line holds. Tables are shown without any decoration.
-/

namespace SeededTesting.Command

/-- The plain lines of a console item. -/
def ConsoleItem.lines : ConsoleItem → List String
  | .text s _ => [s]
  | .table t => t.title.toList ++ (t.columns :: t.rows).map (String.intercalate "  ")

end SeededTesting.Command

def main (arguments : List String) : IO UInt32 := do
  match SeededTesting.Command.answer arguments with
  | .error c =>
    IO.eprintln c.summary
    return 1
  | .ok a =>
    IO.print a.stdout
    match a.shown .plain with
    | .error c =>
      IO.eprintln c.summary
      return 1
    | .ok exit =>
      for item in a.console do
        for line in item.lines do
          IO.println line
      return exit.toUInt32

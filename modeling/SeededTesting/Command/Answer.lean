import SeededTesting.Command.Console
import SeededTesting.Command.Request
import SeededTesting.DisplayName
import SeededTesting.Run.Runner
import SeededTesting.Text.Json
import SeededTesting.Text.Markup

/-! # Answers to requests

A request is answered with texts and tables for a console, or with JSON on the standard output,
and with an exit code, which is two if anything is wrong with the request. Help goes to the standard
output too. Any other error leaves the command, and so does a complaint of the console about the
markup of what it is given.
-/

namespace SeededTesting.Command

structure Table where
  title : Option String := none
  columns : List String
  rows : List (List String)
deriving DecidableEq, Repr

/-- The texts of a table in the order in which their markup is read: its columns one after another,
and then the title. -/
def Table.texts (t : Table) : List String :=
  (t.columns.zipIdx.flatMap fun (header, i) => header :: t.rows.filterMap (·[i]?)) ++
    t.title.toList

/-- What a console is given; only some texts have their markup read. -/
inductive ConsoleItem where
  | text (text : String) (markup : Bool)
  | table (table : Table)
deriving DecidableEq, Repr

/-- The texts whose markup is read. -/
def ConsoleItem.marked : ConsoleItem → List String
  | .text s markup => if markup then [s] else []
  | .table t => t.texts

structure Answer where
  exit : Nat := 0
  /-- Lines of the standard output. -/
  lines : List String := []
  console : List ConsoleItem := []
deriving DecidableEq, Repr

namespace Answer

/-- The standard output. -/
def stdout (a : Answer) : String :=
  String.join (a.lines.map (· ++ "\n"))

/-- Shows an answer on a console; gives the exit code unless the console complains. -/
def shown (a : Answer) (console : Console) : Except Complaint Nat := do
  (a.console.flatMap ConsoleItem.marked).forM console.read
  return a.exit

/-- The mark before an error. -/
def errorMark : String := "[red]Error:[/red] "

/-- The answer about an error. On a console the markup of its message is read like that of the mark
before it. -/
def failure (message : String) (json : Bool) : Answer :=
  if json then { exit := 2, lines := [(JsonValue.object [("error", .string message)]).compact] }
  else { exit := 2, console := [.text (errorMark ++ message) true] }

/-- The answer with a value. -/
def value (v : JsonValue) : Answer :=
  { lines := [v.indented 0] }

end Answer

def versionNumber : String := "v0.1.0"

def showVersion : Answer where
  console := [.table {
    columns := ["", ""]
    rows := [["[bold]Seedrunner CLI[/bold]", versionNumber], ["Engine", versionNumber]] }]

/-- A seed as a number. -/
def seedNumber (seed : Seed) : JsonValue :=
  .number seed.toNat

/-! ## Chains -/

/-- Whose seed stands at a place of a chain. -/
def role : Nat → String
  | 0 => "runner"
  | 1 => "test"
  | _ => "nested"

def chainRow (seed : Seed) (place : Nat) : List String :=
  [toString place, role place, seed.format, toString seed.toNat]

/-- Shows the seeds of a chain. -/
def showChain (chain : String) (json : Bool) : Answer :=
  match SeedChain.parse chain with
  | .error e => .failure e.message json
  | .ok seeds =>
    let canonical := SeedChain.format seeds
    if json then
      .value (.object [("chain", .string canonical), ("seeds", .array (seeds.map seedNumber))])
    else
      { console := [.table {
          title := some ("Seed chain " ++ canonical)
          columns := ["Level", "Role", "Hex", "Decimal"]
          rows := seeds.zipIdx.map fun (seed, place) => chainRow seed place }] }

/-! ## Names -/

/-- Strips a display name of its iteration and its seeds. -/
def showStripped (name : String) (json : Bool) : Answer :=
  let stripped := DisplayName.strip name
  if !json then { console := [.text stripped false] }
  else match DisplayName.parse name with
    | .error _ => { lines := [(JsonValue.object [("name", .string stripped)]).compact] }
    | .ok n =>
      .value (.object [("name", .string stripped), ("unit", .string n.unit),
        ("iteration", n.iteration.elim .null fun i => .number i),
        ("seed", .string (SeedChain.format n.chain)), ("suite", .string? n.suite)])

/-! ## Plans -/

/-- The suite of a plan, whose collaborators all do the same. -/
def PlanRequest.toSuite {Code : Type} (p : PlanRequest) (code : Code) : Suite Code where
  name := p.suite
  factory := some { code }
  units := p.units.map fun name =>
    { name
      metadata := { repetition := if p.constantSeed then some { constantSeed := true } else none }
      body := some code }

def PlanRequest.settings (p : PlanRequest) : Settings :=
  { seed := some p.seed, iterations := p.iterations }

/-- The runner of a plan. As its seed is given, it needs no sequence number. -/
def PlanRequest.runner (p : PlanRequest) : Except SetupError (Runner Unit) :=
  (Runner.setUp (p.toSuite ()) (some p.settings) {} 0).map (·.1)

/-- A candidate of a plan with the chain that runs it again. -/
def planRow (master : Seed) (c : Candidate Unit) : List String :=
  [Text.Markup.escape c.name, toString c.iteration, c.seed.format,
    SeedChain.format [master, c.seed]]

def planValue (c : Candidate Unit) : JsonValue :=
  .object [("name", .string c.name), ("unit", .string c.unit.name),
    ("iteration", .number c.iteration), ("seed", .string c.seed.format)]

/-- The candidates of a plan under a master seed. -/
def display (json : Bool) (master : Seed) (candidates : List (Candidate Unit)) : Answer :=
  let chain := SeedChain.format [master]
  if json then
    .value (.object [("runner_seed", .string chain),
      ("candidates", .array (candidates.map planValue))])
  else
    { console := [.table {
        title := some ("Run plan " ++ chain)
        columns := ["Candidate", "Iteration", "Seed", "Reproduce with"]
        rows := candidates.map (planRow master) }] }

/-- Shows which candidates a run would have. Only what is wrong with the configuration or the suite
is answered; other errors leave the command. -/
def showPlan (p : PlanRequest) : Except Complaint Answer :=
  match p.runner with
  | .error e =>
    if e.blamesConfiguration then .ok (.failure e.complaint.text p.json) else .error e.complaint
  | .ok r => .ok (display p.json r.master r.candidates)

/-! ## Command lines -/

/-- Answers a request. -/
def Request.answer : Request → Except Complaint Answer
  | .version => .ok showVersion
  | .parseChain chain json => .ok (showChain chain json)
  | .stripName name json => .ok (showStripped name json)
  | .plan p => showPlan p

/-- Answers a command line. -/
def answer (arguments : List String) : Except Complaint Answer :=
  match Request.ofArguments arguments with
  | .ok request => request.answer
  | .error (.help command) => .ok { lines := HelpPage.lines command }
  | .error .usage => .ok { exit := 2 }

/-- How a command line ends on a console: with an exit code, or with the error that leaves it. -/
def ending (console : Console) (arguments : List String) : Except Complaint Nat := do
  (← answer arguments).shown console

end SeededTesting.Command

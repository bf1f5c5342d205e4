import SeededTesting.Text.Quoted

/-! # Test suites

A suite holds its units, the hooks of its class hierarchy, the rules around its test bodies, a
factory of test instances and factories of listeners. What these collaborators do is a parameter:
a suite of scripts is data, and a suite of actions can be run.
-/

namespace SeededTesting

/-- When in the life of a suite a hook is called. -/
inductive Phase where
  | beforeAll
  | beforeEach
  | afterEach
  | afterAll
deriving DecidableEq, Repr

namespace Phase

/-- Every phase, in the order of a run. -/
def all : List Phase := [.beforeAll, .beforeEach, .afterEach, .afterAll]

def name : Phase → String
  | .beforeAll => "before_all"
  | .beforeEach => "before_each"
  | .afterEach => "after_each"
  | .afterAll => "after_all"

def ofName? (name : String) : Option Phase :=
  all.find? (·.name == name)

/-- The message about a name that no phase has. -/
def unknownName (name : String) : String :=
  Text.quote name ++ " is not a valid Phase"

/-- Hooks of ancestors are called first before a test and last after it. -/
def ancestorsFirst : Phase → Bool
  | .beforeAll | .beforeEach => true
  | .afterEach | .afterAll => false

/-- Hooks around a single test are called with its instance. -/
def perInstance : Phase → Bool
  | .beforeEach | .afterEach => true
  | .beforeAll | .afterAll => false

end Phase

/-- A named hook. The label tells it apart in a trace; one without code cannot be called. -/
structure Hook (Code : Type) where
  name : String
  label : String
  code : Option Code
deriving Repr

/-- The hooks of one level of a class hierarchy. -/
structure Level (Code : Type) where
  owner : String
  beforeAll : List (Hook Code) := []
  beforeEach : List (Hook Code) := []
  afterEach : List (Hook Code) := []
  afterAll : List (Hook Code) := []
deriving Repr

/-- The hooks of a level for a phase. -/
def Level.hooks {Code : Type} (level : Level Code) : Phase → List (Hook Code)
  | .beforeAll => level.beforeAll
  | .beforeEach => level.beforeEach
  | .afterEach => level.afterEach
  | .afterAll => level.afterAll

/-- How often a unit is run, and whether all its iterations share one seed. -/
structure Repetition where
  iterations : Int := 1
  constantSeed : Bool := false
deriving DecidableEq, Repr

/-- What a suite or a unit declares about its execution. -/
structure Metadata where
  seed : Option String := none
  repetition : Option Repetition := none
  nightly : Bool := false
deriving DecidableEq, Repr

/-- A named test; one without code cannot be called. -/
structure TestUnit (Code : Type) where
  name : String
  metadata : Metadata := {}
  ignored : Bool := false
  body : Option Code
deriving Repr

/-- Makes a test instance for every execution; without `yields` it gives none. -/
structure Factory (Code : Type) where
  code : Code
  yields : Bool := true
deriving Repr

/-- A wrapper around test bodies: what it does when it is applied, before and after the inner
statement, how often it runs that statement, and whether it keeps its errors to itself. -/
structure Rule (Code : Type) where
  tag : String
  build : Code
  before : Code
  times : Nat := 1
  after : Code
  swallow : Bool := false
deriving Repr

/-- What a listener does about each kind of notification. -/
structure Reactions (Code : Type) where
  started : Code
  ignored : Code
  assumptionFailed : Code
  failed : Code
  finished : Code
deriving Repr

/-- Makes a listener for a run; a shared one is the same for every run. -/
structure ListenerFactory (Code : Type) where
  tag : String
  shared : Bool := false
  create : Code
  reactions : Reactions Code
deriving Repr

/-- Everything that is needed to run one test class. The levels start with the most derived
class. -/
structure Suite (Code : Type) where
  name : String
  factory : Option (Factory Code)
  units : List (TestUnit Code) := []
  levels : List (Level Code) := []
  metadata : Metadata := {}
  listeners : List (ListenerFactory Code) := []
  rules : List (Rule Code) := []
deriving Repr

end SeededTesting

import SeededTesting.Failure.Kind

/-! # Error objects

Errors are objects: one that is raised twice is the same object both times, and what is recorded
on it the first time is there the second time. A store holds all objects; an error is known by its
place in the store. Objects are linked by explicit causes and by the context in which they were
raised, and extracting the seeds of an error follows these links.
-/

namespace SeededTesting

/-- The place of an error object in a store. -/
abbrev ErrorId := Nat

structure ErrorObject extends Complaint where
  /-- Seed chains recorded on the object, the most recent first. -/
  chains : List String
  notes : Notes
  cause : Option ErrorId := none
  context : Option ErrorId := none
  /-- Whether the context is hidden. -/
  suppressContext : Bool := false
deriving DecidableEq, Repr

/-- An object of a new error. -/
def ErrorObject.ofComplaint (c : Complaint) : ErrorObject :=
  { toComplaint := c, chains := c.kind.chains, notes := c.kind.notes }

instance : Inhabited ErrorObject := ⟨.ofComplaint ⟨{ name := "" }, none⟩⟩

/-- All error objects, in the order in which they were made, and the keys under which some of
them are made once and used again. -/
structure ErrorStore where
  objects : Array ErrorObject := #[]
  shared : List (String × ErrorId) := []
deriving DecidableEq, Repr

namespace ErrorStore

def get (s : ErrorStore) (e : ErrorId) : ErrorObject :=
  s.objects.getD e default

def update (s : ErrorStore) (e : ErrorId) (f : ErrorObject → ErrorObject) : ErrorStore :=
  { s with objects := s.objects.modify e f }

/-- Makes a new object. -/
def add (s : ErrorStore) (c : Complaint) : ErrorId × ErrorStore :=
  (s.objects.size, { s with objects := s.objects.push (.ofComplaint c) })

/-- Makes the object of a key, or gives the one that was made before. -/
def addShared (s : ErrorStore) (key : String) (c : Complaint) : ErrorId × ErrorStore :=
  match s.shared.lookup key with
  | some e => (e, s)
  | none =>
    let (e, s) := s.add c
    (e, { s with shared := (key, e) :: s.shared })

/-! ## Links -/

/-- Sets a cause; doing so hides the context. -/
def setCause (s : ErrorStore) (e : ErrorId) (cause : Option ErrorId) : ErrorStore :=
  s.update e fun o => { o with cause, suppressContext := true }

def setContext (s : ErrorStore) (e : ErrorId) (context : Option ErrorId) : ErrorStore :=
  s.update e fun o => { o with context }

/-- Cuts the chain of contexts that starts at a node before it reaches an object. The first
argument bounds the length of the chain. -/
def cutContext (target : ErrorId) : Nat → ErrorId → ErrorStore → ErrorStore
  | 0, _, s => s
  | bound + 1, node, s =>
    match (s.get node).context with
    | none => s
    | some next => if next = target then s.setContext node none else cutContext target bound next s

/-- Links an error that is raised to the one that is handled at that time. The links of contexts
stay free of cycles. -/
def linkRaised (s : ErrorStore) (handled : Option ErrorId) (e : ErrorId) : ErrorStore :=
  match handled with
  | none => s
  | some h =>
    if h = e then s else (s.cutContext e s.objects.size h).setContext e (some h)

/-- The object that an error came from: its cause, else its context unless that is hidden. -/
def origin (s : ErrorStore) (e : ErrorId) : Option ErrorId :=
  let o := s.get e
  match o.cause with
  | some c => some c
  | none => if o.suppressContext then none else o.context

/-- An error and those it came from, up to the first that was seen before. The first argument
bounds the number of objects. -/
def originsFrom (s : ErrorStore) : Nat → (seen : List ErrorId) → ErrorId → List ErrorId
  | 0, _, _ => []
  | bound + 1, seen, e =>
    if seen.contains e then []
    else e :: match s.origin e with
      | none => []
      | some next => originsFrom s bound (e :: seen) next

/-- An error and those it came from. -/
def origins (s : ErrorStore) (e : ErrorId) : List ErrorId :=
  s.originsFrom (s.objects.size + 1) [] e

/-- The seed chains recorded on an error and on those it came from. -/
def extractSeed (s : ErrorStore) (e : ErrorId) : Option String :=
  let chains := (s.origins e).flatMap fun o => (s.get o).chains
  if chains.isEmpty then none else some (String.intercalate ", " chains)

end ErrorStore

/-- What a report tells about an error. -/
structure ErrorInfo where
  kind : String
  text : String
  seed : Option String
  chains : List String
  notes : Notes
deriving DecidableEq, Repr

/-- What can be told about an error at present. -/
def ErrorStore.info (s : ErrorStore) (e : ErrorId) : ErrorInfo :=
  let o := s.get e
  { kind := o.kind.name, text := o.text, seed := s.extractSeed e, chains := o.chains,
    notes := o.notes }

end SeededTesting

import SeededTesting.Random.Slots

/-! # Programs over contexts

A program works on contexts of runs, on stacks of its own and on sources of randomness, which the
stacks hold by number. One context at a time is ambient: `activate` makes a context ambient for its
body, and a body that is run in a thread of its own starts without one. Errors of the outermost
steps are answered; an interrupt ends the thread that it is raised in, or else the program.
-/

namespace SeededTesting.ContextProgram

/-- A context as it is set up. -/
structure Setup where
  seed : Seed
  target : String
  nightly : Bool
deriving DecidableEq, Repr

/-- The context of a run and the stack that belongs to it. -/
structure Context extends Setup where
  stack : ContextStack Nat := []
deriving DecidableEq, Repr

instance : Inhabited Context := ⟨{ seed := 0, target := "", nightly := false }⟩

/-- Which stack an operation works on. -/
inductive Site where
  | stack (index : Nat)
  | context (index : Nat)
  | ambient
deriving DecidableEq, Repr

/-- Which context an operation asks. -/
inductive Owner where
  | context (index : Nat)
  | ambient
deriving DecidableEq, Repr

inductive Step where
  | push (site : Site) (slot : Nat)
  | pop (site : Site)
  | current (site : Site)
  | depth (site : Site)
  | clear (site : Site)
  | scope (site : Site) (slot : Nat) (body : List Step)
  | activate (index : Nat) (body : List Step)
  | attempt (body : List Step)
  | raise (complaint : Complaint)
  | describe (owner : Owner)
  | randomness (owner : Owner)
  | fraction (owner : Owner)
  | bits (owner : Owner) (width : Int)
  | fork
  | thread (body : List Step)
  | copyContext (body : List Step)
deriving Repr

/-- What an operation answers. -/
inductive Answer where
  | depth (n : Nat)
  | seed (seed : Seed)
  | number (n : Nat)
  | context (index : Nat) (setup : Setup)
  | noError
  | complaint (c : Complaint)
deriving DecidableEq, Repr

structure State where
  sources : SourceTable
  freeStacks : Array (ContextStack Nat)
  contexts : Array Context
  /-- The index of the ambient context. -/
  ambient : Option Nat := none
  /-- Everything answered so far. -/
  answers : Array Answer := #[]
deriving Repr

/-- An operation changes the state, also when it raises. -/
abbrev Action := ExceptT Complaint (StateM State)

namespace State

def context (s : State) (index : Nat) : Context :=
  s.contexts.getD index default

def setStack (s : State) (index : Nat) (stack : ContextStack Nat) : State :=
  { s with contexts := s.contexts.modify index fun c => { c with stack } }

end State

def answer (a : Answer) : Action Unit :=
  modify fun s => { s with answers := s.answers.push a }

/-- Takes over the result of a stack operation. -/
def lift {α : Type} : Except ContextError α → Action α
  | .ok a => pure a
  | .error e => throw e.complaint

/-- The index of the ambient context. -/
def ambientIndex : Action Nat := do
  match (← get).ambient with
  | some index => return index
  | none => throw ContextError.noRun.complaint

/-- Settles which stack is meant. -/
def Site.resolve : Site → Action Site
  | .ambient => return .context (← ambientIndex)
  | site => return site

/-- The stack at a settled site. -/
def Site.read : Site → Action (ContextStack Nat)
  | .stack index => return (← get).freeStacks.getD index []
  | .context index => return ((← get).context index).stack
  | .ambient => return []

/-- Replaces the stack at a settled site. -/
def Site.write (stack : ContextStack Nat) : Site → Action Unit
  | .stack index => modify fun s => { s with freeStacks := s.freeStacks.setIfInBounds index stack }
  | .context index => modify (·.setStack index stack)
  | .ambient => return

def Owner.resolve : Owner → Action Nat
  | .context index => return index
  | .ambient => ambientIndex

/-- The slot of the source on top of the stack of a context. -/
def Owner.currentSlot (owner : Owner) : Action Nat := do
  let index ← owner.resolve
  lift ((← get).context index).stack.current

/-- Draws from the source of a slot. -/
def drawFrom {α : Type} (slot : Nat) (take : RandomSource → α × RandomSource) : Action α :=
  modifyGet fun s =>
    let (value, sources) := s.sources.draw slot take
    (value, { s with sources })

/-- Pushes a slot onto a settled site. -/
def Site.push (site : Site) (slot : Nat) : Action Unit := do
  site.write ((← site.read).push slot)

/-- Pops the top of a settled site. -/
def Site.pop (site : Site) : Action Nat := do
  let (slot, rest) ← lift (← site.read).pop
  site.write rest
  return slot

def seedOf (slot : Nat) : Action Seed :=
  return ((← get).sources.source slot).seed

/-- Runs a body and then, however it ended, an action that may fail in its turn. -/
def andFinally (body after : Action Unit) : Action Unit := do
  match ← (observing body) with
  | .ok () => after
  | .error e => after; throw e
where
  /-- Runs a body and gives how it ended. -/
  observing (body : Action Unit) : Action (Except Complaint Unit) :=
    ExceptT.mk do return .ok (← body.run)

/-- Runs a body as a scope, which sets the trail of an error that leaves it; an error that refuses
this is replaced by the refusal. -/
def leaving (body : Action Unit) : Action Unit := do
  match ← andFinally.observing body with
  | .ok () => return
  | .error e => throw (e.kind.refusalToLeave.getD e)

/-- Runs a body and answers how it ended; interrupts pass. -/
def attempting (body : Action Unit) : Action Unit := do
  match ← andFinally.observing body with
  | .ok () => answer .noError
  | .error e => if e.kind.interrupt then throw e else answer (.complaint e)

/-- Runs a step on its own: an error is answered and goes no further; interrupts pass. -/
def settling (body : Action Unit) : Action Unit := do
  match ← andFinally.observing body with
  | .ok () => return
  | .error e => if e.kind.interrupt then throw e else answer (.complaint e)

/-- Runs a body in a thread of its own. What ends the thread is not heard of outside. -/
def threading (body : Action Unit) : Action Unit :=
  discard (andFinally.observing body)

/-- Runs a body with another ambient context and goes back to the one before. -/
def withAmbient (index : Option Nat) (body : Action Unit) : Action Unit := do
  let before := (← get).ambient
  modify fun s => { s with ambient := index }
  andFinally body (modify fun s => { s with ambient := before })

mutual

def Step.run : Step → Action Unit
  | .push site slot => do
    let site ← site.resolve
    site.push slot
    answer (.depth (← site.read).depth)
  | .pop site => do
    let site ← site.resolve
    let slot ← site.pop
    answer (.seed (← seedOf slot))
  | .current site => do
    let site ← site.resolve
    let slot ← lift (← site.read).current
    answer (.seed (← seedOf slot))
  | .depth site => do
    let site ← site.resolve
    answer (.depth (← site.read).depth)
  | .clear site => do
    let site ← site.resolve
    site.write []
    answer (.depth (← site.read).depth)
  | .scope site slot body => do
    let site ← site.resolve
    site.push slot
    leaving (andFinally (do answer (.seed (← seedOf slot)); runBody body) (discard site.pop))
  | .activate index body =>
    leaving <| withAmbient (some index) <|
      andFinally (runBody body) (modify (·.setStack index []))
  | .attempt body => attempting (runBody body)
  | .raise complaint => throw complaint
  | .describe owner => do
    let index ← owner.resolve
    answer (.context index ((← get).context index).toSetup)
  | .randomness owner => do
    let slot ← owner.currentSlot
    answer (.seed (← seedOf slot))
  | .fraction owner => do
    let slot ← owner.currentSlot
    answer (.number (← drawFrom slot RandomSource.fraction))
  | .bits owner width => do
    let slot ← owner.currentSlot
    if width < 0 then throw negativeWidth
    answer (.number (← drawFrom slot (·.bits width.toNat)))
  | .fork => do
    let slot ← Owner.ambient.currentSlot
    let child ← modifyGet fun s =>
      let (child, sources) := s.sources.fork slot
      (child, { s with sources })
    answer (.seed child.seed)
  | .thread body => withAmbient none (threading (settleBody body))
  | .copyContext body => do withAmbient (← get).ambient (settleBody body)

/-- Runs a body up to its first error. -/
def runBody : List Step → Action Unit
  | [] => return
  | step :: rest => do step.run; runBody rest

/-- Runs each step of a body on its own. -/
def settleBody : List Step → Action Unit
  | [] => return
  | step :: rest => do settling step.run; settleBody rest

end

/-- Everything that the steps of a program answer, unless an interrupt ends it. -/
def run (contexts : List Setup) (freeStacks : Nat) (slots : List Seed) (steps : List Step) :
    Except Complaint (List Answer) :=
  let start : State := {
    sources := (slots.map RandomSource.fresh).toArray
    freeStacks := Array.replicate freeStacks []
    contexts := (contexts.map fun setup => { toSetup := setup }).toArray }
  let (result, s) := (settleBody steps).run.run start
  result.map fun () => s.answers.toList

end SeededTesting.ContextProgram

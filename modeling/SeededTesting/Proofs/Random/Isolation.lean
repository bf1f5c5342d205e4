import Mathlib.Data.List.Basic
import SeededTesting.Random.Slots

/-! # Sources of randomness are isolated

What a source yields, values of draws and seeds of children, follows from its seed and from what it
was asked for, whatever was done with other sources in between. A program is related to the log of
what its sources yielded, in the order of time; the part of one source is then that source alone,
asked for the same.
-/

namespace SeededTesting

/-- What a source can be asked for. -/
inductive Request where
  | fraction
  | bits (width : Nat)
  | fork
deriving DecidableEq, Repr

/-- What a source yields for a request, and how it is left. Of a child it yields the seed. -/
def RandomSource.serve (s : RandomSource) : Request → Nat × RandomSource
  | .fraction => s.fraction
  | .bits width => s.bits width
  | .fork => (s.fork.1.seed.toNat, s.fork.2)

/-- What a source yields for requests one after another, and how it is left. -/
def RandomSource.serveAll : List Request → RandomSource → List Nat × RandomSource
  | [], s => ([], s)
  | request :: rest, s =>
    let (value, s) := s.serve request
    let (values, s) := serveAll rest s
    (value :: values, s)

theorem RandomSource.serveAll_cons (request : Request) (rest : List Request) (s : RandomSource) :
    serveAll (request :: rest) s = ((s.serve request).1 :: (serveAll rest (s.serve request).2).1,
      (serveAll rest (s.serve request).2).2) := rfl

@[simp] theorem RandomSource.seed_serve (s : RandomSource) (request : Request) :
    (s.serve request).2.seed = s.seed := by
  cases request <;> rfl

@[simp] theorem RandomSource.seed_serveAll (requests : List Request) (s : RandomSource) :
    (serveAll requests s).2.seed = s.seed := by
  induction requests generalizing s with
  | nil => rfl
  | cons request rest ih => exact (ih _).trans (s.seed_serve request)

/-- Something that the source of a slot yielded. -/
structure Yield where
  slot : Nat
  request : Request
  value : Nat
deriving DecidableEq, Repr

namespace Yield

/-- What one source was asked for, in order. -/
def asked (slot : Nat) (log : List Yield) : List Request :=
  (log.filter (·.slot = slot)).map (·.request)

/-- What one source yielded, in order. -/
def yielded (slot : Nat) (log : List Yield) : List Nat :=
  (log.filter (·.slot = slot)).map (·.value)

theorem asked_cons_self (slot : Nat) (request : Request) (value : Nat) (log : List Yield) :
    asked slot (⟨slot, request, value⟩ :: log) = request :: asked slot log := by
  simp [asked]

theorem yielded_cons_self (slot : Nat) (request : Request) (value : Nat) (log : List Yield) :
    yielded slot (⟨slot, request, value⟩ :: log) = value :: yielded slot log := by
  simp [yielded]

theorem asked_cons_of_ne {slot : Nat} {y : Yield} (h : y.slot ≠ slot) (log : List Yield) :
    asked slot (y :: log) = asked slot log := by
  simp [asked, h]

theorem yielded_cons_of_ne {slot : Nat} {y : Yield} (h : y.slot ≠ slot) (log : List Yield) :
    yielded slot (y :: log) = yielded slot log := by
  simp [yielded, h]

end Yield

open Yield

namespace SourceTable

/-- From one table to another, sources are made and yield what the log says, and nothing else is
done with them. -/
inductive Follows : SourceTable → List Yield → SourceTable → Prop
  | done (table : SourceTable) : Follows table [] table
  | made {table table' : SourceTable} {log : List Yield} (seed : Seed) :
      Follows (table.push (.fresh seed)) log table' → Follows table log table'
  | served {table table' : SourceTable} {log : List Yield} {slot : Nat} (request : Request) :
      slot < table.size →
      Follows (table.setIfInBounds slot ((table.source slot).serve request).2) log table' →
      Follows table (⟨slot, request, ((table.source slot).serve request).1⟩ :: log) table'

namespace Follows

variable {table table' table'' : SourceTable} {log log' : List Yield}

theorem append (h : Follows table log table') (h' : Follows table' log' table'') :
    Follows table (log ++ log') table'' := by
  induction h with
  | done _ => exact h'
  | made seed _ ih => exact .made seed (ih h')
  | served request hslot _ ih => exact .served request hslot (ih h')

end Follows

section Sources

variable {table : SourceTable} {slot other : Nat}

theorem source_push_of_lt (h : slot < table.size) (new : RandomSource) :
    source (table.push new) slot = source table slot := by
  simp [source, h, Array.getElem?_push, Nat.ne_of_lt h]

theorem source_push_self (new : RandomSource) : source (table.push new) table.size = new := by
  simp [source]

theorem source_set_self (h : slot < table.size) (new : RandomSource) :
    source (table.setIfInBounds slot new) slot = new := by
  simp [source, h]

theorem source_set_of_ne (h : slot ≠ other) (new : RandomSource) :
    source (table.setIfInBounds slot new) other = source table other := by
  simp [source, Array.getElem?_setIfInBounds_ne h]

end Sources

section Isolation

variable {table table' : SourceTable} {log : List Yield} {slot : Nat}

/-- A source that was there yields what it yields alone. -/
theorem Follows.serveAll_of_lt (h : Follows table log table') (hslot : slot < table.size) :
    (table.source slot).serveAll (asked slot log) = (yielded slot log, table'.source slot) := by
  induction h with
  | done _ => rfl
  | made seed _ ih =>
      rw [Array.size_push, source_push_of_lt hslot] at ih
      exact ih (Nat.lt_succ_of_lt hslot)
  | @served table _ log served request _ _ ih =>
      rw [Array.size_setIfInBounds] at ih
      replace ih := ih hslot
      by_cases hhere : served = slot
      · subst hhere
        rw [source_set_self hslot] at ih
        rw [asked_cons_self, yielded_cons_self, RandomSource.serveAll_cons, ih]
      · rw [source_set_of_ne hhere] at ih
        rw [asked_cons_of_ne hhere, yielded_cons_of_ne hhere]
        exact ih

/-- A source that is made in between yields what it yields alone, from its seed on. -/
theorem Follows.serveAll_of_made (h : Follows table log table') (hnew : table.size ≤ slot)
    (hslot : slot < table'.size) : (RandomSource.fresh (table'.source slot).seed).serveAll
      (asked slot log) = (yielded slot log, table'.source slot) := by
  induction h with
  | done table => exact absurd hslot (Nat.not_lt.mpr hnew)
  | @made table table' log seed hrest ih =>
      by_cases hhere : table.size = slot
      · -- This is where the source is made; nothing was asked of it before.
        subst hhere
        have halone := hrest.serveAll_of_lt (by rw [Array.size_push]; exact Nat.lt_succ_self _)
        rw [source_push_self] at halone
        have hseed := RandomSource.seed_serveAll (asked table.size log) (.fresh seed)
        rw [halone] at hseed
        rw [show (table'.source table.size).seed = seed from hseed]
        exact halone
      · refine ih ?_ hslot
        rw [Array.size_push]
        omega
  | @served table _ log served request hserved _ ih =>
      rw [Array.size_setIfInBounds] at ih
      -- The source is not made yet, so another one is asked.
      have hother : served ≠ slot := by omega
      rw [asked_cons_of_ne hother, yielded_cons_of_ne hother]
      exact ih hnew hslot

/-- The sources of a table, and those that are made until another one, are isolated from each other:
each yields what it yields alone, and is left as if alone. -/
structure Isolated (table : SourceTable) (log : List Yield) (table' : SourceTable) : Prop where
  held : ∀ slot < table.size,
    (table.source slot).serveAll (asked slot log) = (yielded slot log, table'.source slot)
  made : ∀ slot < table'.size, table.size ≤ slot →
    (RandomSource.fresh (table'.source slot).seed).serveAll (asked slot log) =
      (yielded slot log, table'.source slot)

theorem Follows.isolated (h : Follows table log table') : Isolated table log table' where
  held _ hslot := h.serveAll_of_lt hslot
  made _ hslot hnew := h.serveAll_of_made hnew hslot

end Isolation
end SourceTable

/-! ## Programs over sources -/

namespace SourceStep

/-- Which source a step asks, and for what. -/
def request? : SourceStep → Option (Nat × Request)
  | .fork slot => some (slot, .fork)
  | .fraction slot => some (slot, .fraction)
  | .bits slot width => if width < 0 then none else some (slot, .bits width.toNat)
  | _ => none

/-- What a source of the table yields in a step, which is what the step answers. -/
def yields (table : SourceTable) (step : SourceStep) : List Yield :=
  match step.request?, (step.run table).1 with
  | some (slot, request), .number value =>
    if slot < table.size then [⟨slot, request, value⟩] else []
  | _, _ => []

/-- What the sources yield in the steps of a program. -/
def log : List SourceStep → SourceTable → List Yield
  | [], _ => []
  | step :: rest, table => step.yields table ++ log rest (step.run table).2

/-- The sources after a program. -/
def leave : List SourceStep → SourceTable → SourceTable
  | [], table => table
  | step :: rest, table => leave rest (step.run table).2

end SourceStep

namespace SourceTable

variable {table : SourceTable} {slot : Nat}

/-- A source that is there yields when it is drawn from; of one that is not, nothing is logged. -/
theorem follows_draw {take : RandomSource → Nat × RandomSource} {request : Request}
    (h : ∀ s : RandomSource, s.serve request = take s) :
    Follows table (if slot < table.size then [⟨slot, request, (table.draw slot take).1⟩] else [])
      (table.draw slot take).2 := by
  by_cases hslot : slot < table.size
  · rw [if_pos hslot, draw, ← h]
    exact .served request hslot (.done _)
  · have hsame : (table.draw slot take).2 = table :=
      Array.setIfInBounds_eq_of_size_le (Nat.le_of_not_lt hslot)
    rw [if_neg hslot, hsame]
    exact .done table

/-- So does one that is forked, which makes a source in any case. -/
theorem follows_fork :
    Follows table
      (if slot < table.size then [⟨slot, .fork, (table.fork slot).1.seed.toNat⟩] else [])
      (table.fork slot).2 := by
  by_cases hslot : slot < table.size
  · rw [if_pos hslot]
    exact .served .fork hslot (.made _ (.done _))
  · have hsame : (table.draw slot RandomSource.fork).2 = table :=
      Array.setIfInBounds_eq_of_size_le (Nat.le_of_not_lt hslot)
    have hfork : (table.fork slot).2 = table.push (.fresh (table.fork slot).1.seed) :=
      congrArg (Array.push · _) hsame
    rw [if_neg hslot, hfork]
    exact .made _ (.done _)

end SourceTable

namespace SourceStep

theorem follows_step (table : SourceTable) (step : SourceStep) :
    SourceTable.Follows table (step.yields table) (step.run table).2 := by
  cases step with
  | make seed => exact .made seed (.done _)
  | fork slot => exact SourceTable.follows_fork
  | fraction slot => exact SourceTable.follows_draw fun _ => rfl
  | bits slot width =>
      by_cases hwidth : width < 0
      · simp only [yields, request?, run, hwidth, if_true]
        exact .done table
      · have hdraw : SourceTable.Follows table
            (if slot < table.size then
              [⟨slot, .bits width.toNat, (table.draw slot (·.bits width.toNat)).1⟩] else [])
            (table.draw slot (·.bits width.toNat)).2 := SourceTable.follows_draw fun _ => rfl
        simp only [yields, request?, run, hwidth, if_false]
        exact hdraw
  | format | describe | keepsGenerator | compare => exact .done table

theorem follows_log (steps : List SourceStep) (table : SourceTable) :
    SourceTable.Follows table (log steps table) (leave steps table) := by
  induction steps generalizing table with
  | nil => exact .done table
  | cons step rest ih => exact (follows_step table step).append (ih _)

end SourceStep
end SeededTesting

import SeededTesting.Proofs.Bond.Blocks
import SeededTesting.Proofs.Context.Yields

/-! # Forks are isolated

A block that a script runs on a fork has no part in what the parent yields afterwards, and the
parent has no part in what is drawn in the block. Behind this stands what holds of all programs over
sources: each source yields what it yields alone.
-/

namespace SeededTesting

open Act

/-- The world after a child was drawn from the active source, and told. -/
def World.forked (w : World) (label : String) (child : RandomSource) (contexts : List RunContext) :
    World :=
  { w with
    contexts
    session := { w.session with
      trace := w.session.trace.push (.observed label (.forked child.seed)) } }

/-- What comes after some more events comes after those before. -/
theorem World.AlikeAfter.earlier {past : List Event} {event : Event} {w v : World}
    (h : AlikeAfter (past ++ [event]) w v) : AlikeAfter past w v := by
  obtain ⟨new, new', hw, hv, heq⟩ := h.events
  refine ⟨h.rest, event :: new, event :: new', ?_, ?_, ?_⟩
  · rw [hw, List.append_assoc, List.singleton_append]
  · rw [hv, List.append_assoc, List.singleton_append]
  · rw [List.filter_cons, List.filter_cons, heq]

namespace Script

variable {host : Host} {label : String} {block : Script} {w : World} {context : RunContext}
  {outer : List RunContext} {parent : RandomSource} {rest : ContextStack RandomSource}
  (hw : w.contexts = { context with stack := parent :: rest } :: outer)

include hw

theorem exec_draw_child : (Act.draw RandomSource.fork).exec w = (.ok parent.fork.1,
    w.within ({ context with stack := parent.fork.2 :: rest } :: outer)) := by
  rw [exec_draw, hw]

omit hw in
theorem exec_tell_child (child : RandomSource) (contexts : List RunContext) :
    (observe label (.forked child.seed)).exec (w.within contexts) =
      (.ok (), w.forked label child contexts) := rfl

/-- A fork draws a child from the active source and runs its block in the scope of the child. -/
theorem exec_fork : ((Step.fork block).run host label).exec w =
    (inScope parent.fork.1 (runSteps host label block)).exec (w.forked label parent.fork.1
      ({ context with stack := parent.fork.2 :: rest } :: outer)) := by
  rw [Step.run_fork, exec_bind_of_ok (exec_draw_child hw), exec_bind_of_ok (exec_tell_child _ _)]

/-- An empty block leaves the parent as the fork has left it. -/
theorem contexts_fork_nil : (((Step.fork []).run host label).exec w).2.contexts =
    { context with stack := parent.fork.2 :: rest } :: outer := by
  let told := w.forked label parent.fork.1
    ({ context with stack := parent.fork.2 :: rest } :: outer)
  let inside := told.within
    ({ context with stack := parent.fork.1 :: parent.fork.2 :: rest } :: outer)
  have htold : told.contexts = { context with stack := parent.fork.2 :: rest } :: outer := rfl
  have hbody : (runSteps host label []).exec inside = (.ok (), inside) := by
    rw [runSteps, exec_pure]
  rw [exec_fork hw, exec_inScope_of_top htold hbody rfl, contexts_leaving_resume]
  rfl

/-- The moments within a fork are those of its block. -/
theorem moments_fork : ((Step.fork block).traced host label).moments w =
    (tracedSteps host label block).moments (w.forked label parent.fork.1
      ({ context with stack := parent.fork.1 :: parent.fork.2 :: rest } :: outer)) := by
  have hpush : (push parent.fork.1).exec (w.forked label parent.fork.1
      ({ context with stack := parent.fork.2 :: rest } :: outer)) =
        (.ok (), w.forked label parent.fork.1
          ({ context with stack := parent.fork.1 :: parent.fork.2 :: rest } :: outer)) := by
    rw [exec_push]
    rfl
  rw [Step.traced, moments_lift_bind_of_ok (exec_draw_child hw),
    moments_lift_bind_of_ok (exec_tell_child _ _), moments_lift_bind_of_ok hpush]
  rfl

end Script

/-- A block that a script runs on a fork, and that never takes from what was there before, leaves
the parent as it is left by the fork alone, and what is below it. Above other parents, other sources
and other contexts the block does the same, and draws the same, if the child has the same seed. -/
theorem Script.fork_isolated {host : Host} {label : String} {block : Script} {w : World}
    {context : RunContext} {outer : List RunContext} {parent : RandomSource}
    {rest : ContextStack RandomSource}
    (hw : w.contexts = { context with stack := parent :: rest } :: outer)
    (hdeep : ∀ u ∈ ((Step.fork block).traced host label).moments w, rest.length + 1 < u.depth)
    {parent' : RandomSource} (hchild : parent'.fork.1.seed = parent.fork.1.seed)
    (rest' : ContextStack RandomSource) (outer' : List RunContext) :
    let left := ((Step.fork block).run host label).exec w
    let right := ((Step.fork block).run host label).exec
      (w.within ({ context with stack := parent' :: rest' } :: outer'))
    right.1 = left.1 ∧ World.AlikeAfter w.session.trace.toList left.2 right.2 ∧ ∃ held,
      left.2.contexts = { context with stack := held ++ parent.fork.2 :: rest } :: outer ∧
        right.2.contexts = { context with stack := held ++ parent'.fork.2 :: rest' } :: outer' := by
  have hsame : parent'.fork.1 = parent.fork.1 := congrArg RandomSource.fresh hchild
  rw [moments_fork hw] at hdeep
  let told := w.forked label parent.fork.1
    ({ context with stack := parent.fork.2 :: rest } :: outer)
  have htold : told.contexts = { context with stack := parent.fork.2 :: rest } :: outer := rfl
  have htrace : told.session.trace.toList =
      w.session.trace.toList ++ [.observed label (.forked parent.fork.1.seed)] := Array.toList_push
  obtain ⟨houtcome, hafter, hcontexts⟩ :=
    scope_alike htold hdeep (parent'.fork.2 :: rest') outer'
  rw [htrace] at hafter
  have hright : ((Step.fork block).run host label).exec
      (w.within ({ context with stack := parent' :: rest' } :: outer')) =
        (inScope parent.fork.1 (runSteps host label block)).exec
          (told.within ({ context with stack := parent'.fork.2 :: rest' } :: outer')) := by
    rw [exec_fork rfl, hsame]
    rfl
  rw [exec_fork hw, hright]
  exact ⟨houtcome, hafter.earlier, hcontexts⟩

/-- Sources of randomness are isolated. In every program over sources, and in every program that
reaches them through the stacks of contexts, from whatever thread, what a source yields, values of
draws and seeds of children, and how it is left is what its state before, or its seed if it is made
in the program, gives for what it alone was asked, in that order. So a block that a script runs on a
fork, and that never goes below where it started, whatever it draws, forks, runs within and fails
with, leaves the parent as an empty block leaves it. With another parent, other sources below it and
other contexts around, the block ends the same and tells the same, but for the depths of the stack,
if only the seed of the child is the same. -/
theorem forks_isolated :
    (∀ (steps : List SourceStep) (table : SourceTable),
      table.Isolated (SourceStep.log steps table) (SourceStep.leave steps table)) ∧
    (∀ (program : List ContextProgram.Step) (s : ContextProgram.State),
      s.sources.Isolated (ContextProgram.log program s)
        (ContextProgram.exec (ContextProgram.settleBody program) s).2.sources) ∧
    ∀ (host : Host) (label : String) (block : Script) (w : World) (context : RunContext)
      (parent : RandomSource) (rest : ContextStack RandomSource) (outer : List RunContext),
      w.contexts = { context with stack := parent :: rest } :: outer →
      (∀ u ∈ ((Script.Step.fork block).traced host label).moments w,
        rest.length + 1 < u.depth) →
      let left := ((Script.Step.fork block).run host label).exec w
      let empty := ((Script.Step.fork []).run host label).exec w
      (∃ parentLeft held,
        left.2.contexts = { context with stack := held ++ parentLeft :: rest } :: outer ∧
          empty.2.contexts = { context with stack := parentLeft :: rest } :: outer) ∧
      ∀ (parent' : RandomSource) (rest' : ContextStack RandomSource) (outer' : List RunContext),
        parent'.fork.1.seed = parent.fork.1.seed →
        let right := ((Script.Step.fork block).run host label).exec
          (w.within ({ context with stack := parent' :: rest' } :: outer'))
        right.1 = left.1 ∧ World.AlikeAfter w.session.trace.toList left.2 right.2 := by
  refine ⟨fun steps table => (SourceStep.follows_log steps table).isolated,
    ContextProgram.isolated_sources, ?_⟩
  intro host label block w context parent rest outer hw hdeep left empty
  obtain ⟨-, -, held, hleft, -⟩ := Script.fork_isolated hw hdeep rfl rest outer
  refine ⟨⟨parent.fork.2, held, hleft, Script.contexts_fork_nil hw⟩, ?_⟩
  intro parent' rest' outer' hchild
  obtain ⟨houtcome, halike, -⟩ := Script.fork_isolated hw hdeep hchild rest' outer'
  exact ⟨houtcome, halike⟩

/-- A block that pushes a source, fails within an attempt and leaves what it has pushed. -/
theorem forks_isolated_leftover :
    let context : RunContext := { runner := 5, target := "t", nightly := false }
    let w : World := { contexts := [{ context with stack := [.fresh 5] }] }
    let block : Script := [.push 7, .bits 8, .attempt
      [.fork [.raise [{ error := { complaint := ⟨.named "RuntimeError", none⟩ } }]]]]
    ∃ parentLeft held, (((Script.Step.fork block).run {} "block").exec w).2.contexts =
        [{ context with stack := held ++ [parentLeft] }] ∧
      (((Script.Step.fork []).run {} "block").exec w).2.contexts =
        [{ context with stack := [parentLeft] }] := by
  intro context w block
  exact (forks_isolated.2.2 {} "block" block w context (.fresh 5) [] [] rfl (by decide +kernel)).1

end SeededTesting

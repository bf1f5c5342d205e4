import SeededTesting.Proofs.Bond.Scripts
import SeededTesting.Proofs.Script.Moments

/-! # Blocks side by side

A script that never takes from the stack what was there before it does the same whatever that was,
and leaves it as it is. Of two runs of the script only the depths of the stacks are told apart. That
the script keeps to this is said of the worlds that its steps leave in one of the runs.
-/

namespace SeededTesting

open Act Bond

/-- How deep the stack of the innermost context is. -/
def World.depth (w : World) : Nat :=
  match w.contexts with
  | [] => 0
  | context :: _ => context.stack.depth

/-! ## Stacks with the same on top -/

section Stacks

variable {below below' : ContextStack RandomSource}

/-- The same sources, at least one, on top of what each of the stacks has. -/
def Atop (below below' s t : ContextStack RandomSource) : Prop :=
  ∃ source top, s = source :: top ++ below ∧ t = source :: top ++ below'

/-- The same sources, or none, on top of what each of the stacks has. -/
def AtopOrEven (below below' s t : ContextStack RandomSource) : Prop :=
  ∃ top, s = top ++ below ∧ t = top ++ below'

/-- The same, unless the first stack is not deep enough for it. -/
def AtopIfDeep (below below' s t : ContextStack RandomSource) : Prop :=
  below.length < s.length → Atop below below' s t

theorem AtopOrEven.ifDeep {s t : ContextStack RandomSource} (h : AtopOrEven below below' s t) :
    AtopIfDeep below below' s t := by
  obtain ⟨top, rfl, rfl⟩ := h
  intro hdeep
  cases top with
  | nil => exact absurd hdeep (lt_irrefl _)
  | cons source top => exact ⟨source, top, rfl, rfl⟩

/-- Two runs with the same on top of the stacks. How deep these are is not seen. -/
structure Bond.Above (β : Bond) (below below' : ContextStack RandomSource) : Prop where
  stack : β.stack = Atop below below'
  states : β.states = true
  unseen : ∀ label depth, β.seen (.observed label (.depth depth)) = false

end Stacks

namespace Bond.Above

variable {α : Type} {β : Bond} {below below' : ContextStack RandomSource}
  (h : β.Above below below')

include h

theorem around_eq : β.around (Atop below below') = β := by
  rw [← h.stack]
  rfl

/-- In both runs there is a source on top, and the same. -/
theorem atop {w v : World} (hwv : β.Holds w v) : ∃ source top,
    w.contexts = { β.context with stack := source :: top ++ below } :: β.outer ∧
      v.contexts = { β.context with stack := source :: top ++ below' } :: β.outer' := by
  obtain ⟨s, t, hst, hw, hv⟩ := hwv.contexts
  rw [h.stack] at hst
  obtain ⟨source, top, rfl, rfl⟩ := hst
  exact ⟨source, top, hw, hv⟩

theorem le_ifDeep : β.Le (β.around (AtopIfDeep below below')) := by
  intro w v hwv
  obtain ⟨s, t, hst, hw, hv⟩ := hwv.contexts
  rw [h.stack] at hst
  exact { hwv with contexts := ⟨s, t, fun _ => hst, hw, hv⟩ }

theorem holds_of_deep {w v : World} (hwv : (β.around (AtopIfDeep below below')).Holds w v)
    (hdeep : below.length < w.depth) : β.Holds w v := by
  obtain ⟨s, t, hst, hw, hv⟩ := hwv.contexts
  have hdepth : w.depth = s.length := by
    rw [World.depth, hw]
    rfl
  have hatop : β.stack s t := by
    rw [h.stack]
    exact hst (hdepth ▸ hdeep)
  exact { hwv with contexts := ⟨s, t, hatop, hw, hv⟩ }

theorem draw (take : RandomSource → α × RandomSource) :
    β.InStep (Act.draw take) (Act.draw take) Eq := by
  intro w v hwv
  obtain ⟨source, top, hw, hv⟩ := h.atop hwv
  have hredrawn : Atop below below' ((take source).2 :: top ++ below)
      ((take source).2 :: top ++ below') := ⟨_, top, rfl, rfl⟩
  have hholds := hwv.withStacks hredrawn
  rw [h.around_eq] at hholds
  rw [exec_draw, exec_draw, hw, hv]
  exact ⟨hholds, rfl⟩

theorem currentSource : β.InStep Act.currentSource Act.currentSource Eq := by
  intro w v hwv
  obtain ⟨source, top, hw, hv⟩ := h.atop hwv
  rw [exec_currentSource, exec_currentSource, hw, hv]
  exact ⟨hwv, rfl⟩

theorem push (source : RandomSource) : β.InStep (Act.push source) (Act.push source) Eq := by
  have hpush : β.Leads (β.around (Atop below below')) (Act.push source) (Act.push source) Eq := by
    refine Leads.push fun s t hst => ?_
    rw [h.stack] at hst
    obtain ⟨source', top, rfl, rfl⟩ := hst
    exact ⟨source, source' :: top, rfl, rfl⟩
  rwa [h.around_eq] at hpush

/-- The same source is popped, and may have been the last of those on top. -/
theorem pop : β.Leads (β.around (AtopOrEven below below')) Act.pop Act.pop Eq := by
  intro w v hwv
  obtain ⟨source, top, hw, hv⟩ := h.atop hwv
  have hpopped : AtopOrEven below below' (top ++ below) (top ++ below') := ⟨top, rfl, rfl⟩
  rw [exec_pop, exec_pop, hw, hv]
  exact ⟨hwv.withStacks hpopped, rfl⟩

/-- Depths are observed on both sides, and not seen. -/
theorem emit_depth (label : String) (m n : Nat) :
    β.InStep (Act.emit (.observed label (.depth m))) (Act.emit (.observed label (.depth n)))
      Eq := by
  refine .modifySession fun s t hst => ?_
  rw [Array.push_eq_append, Array.push_eq_append]
  have hunseen : [.observed label (.depth n)].filter β.seen =
      [.observed label (.depth m)].filter β.seen := by
    simp only [List.filter_singleton, h.unseen, cond_false]
  exact hst.append hunseen

omit h in
theorem clear : β.Leads (β.around (AtopIfDeep below below')) (Act.setStack []) (Act.setStack [])
    Eq :=
  Leads.setStack fun hdeep => absurd hdeep (Nat.not_lt_zero _)

omit h in
theorem even_le_ifDeep :
    (β.around (AtopOrEven below below')).Le (β.around (AtopIfDeep below below')) := by
  intro w v hwv
  obtain ⟨s, t, hst, hw, hv⟩ := hwv.contexts
  exact { hwv with contexts := ⟨s, t, AtopOrEven.ifDeep hst, hw, hv⟩ }

end Bond.Above

/-! ## Programs with their moments -/

/-- From worlds that one bond holds together, a program with its moments and an action end in worlds
that the other holds together, as long as all the moments are as they should be. -/
def Bond.LeadsWhile {α : Type} (β γ : Bond) (P : World → Prop) (body : Script.TracedAct α)
    (body' : Act α) (V : α → α → Prop) : Prop :=
  ∀ w v, β.Holds w v → (∀ u ∈ body.moments w, P u) → γ.Ends V (body.exec w) (body'.exec v)

namespace Bond

variable {α α' : Type} {β γ δ : Bond} {P : World → Prop} {U : α → α → Prop} {V : α' → α' → Prop}

theorem Leads.lift {body body' : Act α} (h : β.Leads γ body body' U) :
    β.LeadsWhile γ P (liftM body) body' U :=
  fun w v hwv _ => h w v hwv

theorem LeadsWhile.bind {body : Script.TracedAct α} {body' : Act α} {next : α → Script.TracedAct α'}
    {next' : α → Act α'} (hbody : β.LeadsWhile γ P body body' U)
    (hnext : ∀ x y, U x y → γ.LeadsWhile δ P (next x) (next' y) V) (hle : γ.Le δ) :
    β.LeadsWhile δ P (body >>= next) (body' >>= next') V := by
  intro w v hwv hmoments
  have hbound := hbody w v hwv
  rw [Traced.exec_bind]
  -- What the first run goes through depends on how its first part ends, so that is split first.
  rcases hout : body.exec w with ⟨e | x, w'⟩
  · rw [Traced.moments_bind_of_error hout] at hmoments
    rcases (hbound hmoments).outcome with
      ⟨x, y, w', v', hok, -⟩ | ⟨e', w'', v', herror, herror', h'⟩
    · rw [hout] at hok
      cases hok
    · rw [hout] at herror
      cases herror
      rw [exec_bind_of_error herror']
      exact ⟨hle h', rfl⟩
  · rw [Traced.moments_bind_of_ok hout, List.forall_mem_append] at hmoments
    rcases (hbound hmoments.1).outcome with
      ⟨x', y, w'', v', hok, hok', h', hU⟩ | ⟨e, w'', v', herror, -⟩
    · rw [hout] at hok
      cases hok
      rw [exec_bind_of_ok hok']
      exact hnext x y hU w' v' h' hmoments.2
    · rw [hout] at herror
      cases herror

end Bond

/-! ## Scripts -/

namespace Script

variable {host : Host} {label : String} {β : Bond} {below below' : ContextStack RandomSource}

theorem inStep_asks_of_above (h : β.Above below below') {step : Step} (hstep : step.asks = true) :
    β.InStep (step.run host label) (step.run host label) Eq := by
  cases step with
  | fraction =>
      rw [Step.run]
      exact (h.draw _).andThen fun _ => inStep_observe _
  | bits width =>
      exact inStep_bits h.currentSource ((h.draw _).andThen fun _ => inStep_observe _)
  | seed =>
      rw [Step.run]
      exact h.currentSource.andThen fun _ => inStep_observe _
  | depth =>
      rw [Step.run]
      refine Leads.currentContext.bind fun c d hcd => ?_
      obtain ⟨s, t, -, rfl, rfl⟩ := hcd
      exact h.emit_depth label _ _
  | context =>
      rw [Step.run]
      refine Leads.currentContext.bind fun c d hcd => ?_
      obtain ⟨s, t, -, rfl, rfl⟩ := hcd
      exact .emit _
  | _ => cases hstep

theorem leads_moves (h : β.Above below below') {step : Step} (hstep : step.moves = true) :
    β.Leads (β.around (AtopIfDeep below below')) (step.run host label) (step.run host label)
      Eq := by
  cases step with
  | push seed =>
      rw [Step.run]
      exact (h.push _).conseq h.le_ifDeep fun _ _ => id
  | pop =>
      rw [Step.run]
      exact (h.pop.conseq Bond.Above.even_le_ifDeep fun _ _ => id).andThen fun _ =>
        inStep_observe _
  | clear =>
      rw [Step.run]
      exact Leads.currentContext.discard.bindLe (fun _ _ _ => Bond.Above.clear) h.le_ifDeep
  | _ => cases hstep

/-- A step does the same, unless it takes from what is below. -/
theorem leads_step (h : β.Above below below') {step : Step}
    (hinner : ∀ script ∈ step.inner, β.LeadsWhile β (below.length < ·.depth)
      (tracedSteps host label script) (runSteps host label script) Eq) :
    β.LeadsWhile (β.around (AtopIfDeep below below')) (below.length < ·.depth)
      (step.traced host label) (step.run host label) Eq := by
  have hkeeps : ∀ {body : Act Unit}, β.InStep body body Eq →
      β.LeadsWhile (β.around (AtopIfDeep below below')) (below.length < ·.depth)
        (liftM body) body Eq :=
    fun hbody => (hbody.conseq h.le_ifDeep fun _ _ => id).lift
  cases step with
  | fork body =>
      rw [Step.traced, Step.run_fork]
      refine (h.draw _).lift.bind (fun child child' hchild => ?_) h.le_ifDeep
      obtain rfl := hchild
      refine (inStep_observe _).lift.bind (fun _ _ _ => ?_) h.le_ifDeep
      refine (h.push child).lift.bind (fun _ _ _ => ?_) h.le_ifDeep
      -- The pop in the end may take the last source above, so the stacks may be even by then.
      intro w v hwv hmoments
      have hbody := hinner body List.mem_cons_self w v hwv hmoments
      rw [exec_tracedSteps] at hbody
      obtain ⟨hholds, halike⟩ := Leads.leaving_at (Leads.andFinally_at hbody h.pop.discard)
      rw [← act_tracedSteps] at hholds halike ⊢
      exact ⟨Bond.Above.even_le_ifDeep hholds, halike⟩
  | attempt body =>
      rw [Step.traced, Step.run]
      intro w v hwv hmoments
      have hbody := hinner body List.mem_cons_self w v hwv hmoments
      rw [exec_tracedSteps] at hbody
      have hcaught : ∀ c, β.InStep (observe label (.caught c)) (observe label (.caught c)) Eq :=
        fun c => inStep_observe _
      obtain ⟨hholds, halike⟩ :=
        Leads.handle_at hbody fun e => Leads.complaint.andThen hcaught
      rw [← act_tracedSteps] at hholds halike ⊢
      exact ⟨h.le_ifDeep hholds, halike⟩
  | fraction | bits | seed | depth | context =>
      rw [Step.traced_of_leaf _ _ rfl]
      exact hkeeps (inStep_asks_of_above h rfl)
  | push | pop | clear =>
      rw [Step.traced_of_leaf _ _ rfl]
      exact (leads_moves h rfl).lift
  | _ =>
      rw [Step.traced_of_leaf _ _ rfl]
      exact hkeeps (inStep_still rfl (fun _ => h.states) fun script _ => repeats host script)

/-- A script does the same as long as it never takes from what is below. -/
theorem leads_while_deep (h : β.Above below below') (script : Script) :
    β.LeadsWhile β (below.length < ·.depth) (tracedSteps host label script)
      (runSteps host label script) Eq := by
  induction script using induction with
  | nil =>
      rw [tracedSteps, runSteps]
      exact fun w v hwv _ => ⟨hwv, rfl⟩
  | cons step rest hinner ih =>
      rw [tracedSteps, runSteps]
      refine LeadsWhile.bind (U := Eq) (fun w v hwv hmoments => ?_) (fun _ _ _ => ih) (.refl β)
      rw [Traced.moments_mark, List.forall_mem_append, List.forall_mem_singleton] at hmoments
      obtain ⟨hinside, hlast⟩ := hmoments
      obtain ⟨hholds, halike⟩ := leads_step h hinner w v hwv hinside
      exact ⟨h.holds_of_deep hholds hlast, halike⟩

end Script

/-! ## Blocks -/

/-- Whether an event tells how deep the stack is. -/
def Event.tellsDepth : Event → Bool
  | .observed _ (.depth _) => true
  | _ => false

/-- The worlds are the same but for their contexts, and for the depths that were told after some
events. -/
structure World.AlikeAfter (past : List Event) (w v : World) : Prop where
  rest : { v with
    contexts := w.contexts
    session := { v.session with trace := w.session.trace } } = w
  events : ∃ new new', w.session.trace.toList = past ++ new ∧
    v.session.trace.toList = past ++ new' ∧
      new'.filter (!·.tellsDepth) = new.filter (!·.tellsDepth)

/-- The runs are the same after some events, but for the depths that are told. -/
def Terms.depthless (past : List Event) : Terms where
  seen event := !event.tellsDepth
  past := past
  past' := past

theorem Terms.Agrees.alikeAfter {past : List Event} {w v : World}
    (h : (depthless past).Agrees w v) : World.AlikeAfter past w v :=
  ⟨h.eq_of_plain ⟨rfl, rfl, rfl⟩, h.session.trace⟩

/-- Two runs from one world on, in which the stacks have the same on top. -/
def Bond.atop (start : World) (context : RunContext) (outer outer' : List RunContext)
    (below below' : ContextStack RandomSource) : Bond where
  toTerms := .depthless start.session.trace.toList
  context := context
  outer := outer
  outer' := outer'
  stack := Atop below below'

theorem Bond.above_atop {start : World} {context : RunContext} {outer outer' : List RunContext}
    {below below' : ContextStack RandomSource} :
    (Bond.atop start context outer outer' below below').Above below below' :=
  ⟨rfl, rfl, fun _ _ => rfl⟩

namespace Script

variable {host : Host} {label : String} {w : World} {context : RunContext}
  {outer : List RunContext} {source : RandomSource} {below : ContextStack RandomSource}

/-- A block that never takes from what is below does the same whatever that is. -/
theorem ends_block {block : Script}
    (hw : w.contexts = { context with stack := source :: below } :: outer)
    (hdeep : ∀ u ∈ (tracedSteps host label block).moments w, below.length < u.depth)
    (below' : ContextStack RandomSource) (outer' : List RunContext) :
    (Bond.atop w context outer outer' below below').Ends Eq ((runSteps host label block).exec w)
      ((runSteps host label block).exec
        (w.within ({ context with stack := source :: below' } :: outer'))) := by
  have hstart : (Bond.atop w context outer outer' below below').Holds w
      (w.within ({ context with stack := source :: below' } :: outer')) :=
    { errors := rfl
      handling := rfl
      sequence := rfl
      journal := fun _ => rfl
      session := Terms.accords_self rfl (List.append_nil _).symm (List.append_nil _).symm
      contexts := ⟨_, _, ⟨source, [], rfl, rfl⟩, hw, rfl⟩ }
  have hends := leads_while_deep Bond.above_atop block w _ hstart hdeep
  rwa [exec_tracedSteps] at hends

/-- A scope pops what its block leaves on top. -/
theorem exec_inScope_block {block : Script} (hw : w.contexts = context :: outer)
    (hdeep : ∀ u ∈ (tracedSteps host label block).moments
        (w.within ({ context with stack := source :: context.stack } :: outer)),
      context.stack.length < u.depth) :
    let ended := (runSteps host label block).exec
      (w.within ({ context with stack := source :: context.stack } :: outer))
    ∃ top held,
      ended.2.contexts = { context with stack := top :: held ++ context.stack } :: outer ∧
        (inScope source (runSteps host label block)).exec w =
          (leaving (resume ended.1)).exec
            (ended.2.within ({ context with stack := held ++ context.stack } :: outer)) := by
  intro ended
  obtain ⟨hholds, -⟩ := ends_block rfl hdeep context.stack outer
  obtain ⟨s, t, ⟨top, held, rfl, rfl⟩, hended, -⟩ := hholds.contexts
  exact ⟨top, held, hended, exec_inScope_of_top hw (Prod.eta ended).symm hended⟩

/-- A scope whose block never takes from what is below leaves that as it is, and does the same
whatever it is. -/
theorem scope_alike {block : Script} (hw : w.contexts = { context with stack := below } :: outer)
    (hdeep : ∀ u ∈ (tracedSteps host label block).moments
      (w.within ({ context with stack := source :: below } :: outer)), below.length < u.depth)
    (below' : ContextStack RandomSource) (outer' : List RunContext) :
    let left := (inScope source (runSteps host label block)).exec w
    let right := (inScope source (runSteps host label block)).exec
      (w.within ({ context with stack := below' } :: outer'))
    right.1 = left.1 ∧ World.AlikeAfter w.session.trace.toList left.2 right.2 ∧ ∃ held,
      left.2.contexts = { context with stack := held ++ below } :: outer ∧
        right.2.contexts = { context with stack := held ++ below' } :: outer' := by
  intro left right
  have hbody := ends_block rfl hdeep below' outer'
  obtain ⟨hholds, halike⟩ :=
    Leads.leaving_at (Leads.andFinally_at hbody Bond.above_atop.pop.discard)
  have hleft : left = (leaving (andFinally (runSteps host label block) (discard pop))).exec
      (w.within ({ context with stack := source :: below } :: outer)) := by
    change (inScope source (runSteps host label block)).exec w = _
    rw [inScope, exec_bind, exec_push, hw]
  obtain ⟨s, t, ⟨held, rfl, rfl⟩, hheld, hheld'⟩ := hholds.contexts
  rw [hleft]
  exact ⟨halike.eq, hholds.alikeAfter, held, hheld, hheld'⟩

end Script
end SeededTesting

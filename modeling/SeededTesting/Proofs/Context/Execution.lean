import SeededTesting.Context.Program

/-! # Executing programs over contexts

What the operations of a program do as functions from a state to how they end and the state that
they leave. Stacks are read and written at settled sites, each of which holds a stack of its own;
later modules reason from these equations and do not open the operations again.
-/

namespace SeededTesting.ContextProgram

variable {α β : Type}

/-- The state after one more answer. -/
def State.answered (s : State) (a : Answer) : State :=
  { s with answers := s.answers.push a }

/-- How an operation ends in a state, and the state that it leaves. -/
def exec (body : Action α) (s : State) : Except Complaint α × State :=
  body.run.run s

@[simp] theorem exec_pure (value : α) (s : State) :
    exec (pure value) s = (.ok value, s) := rfl

@[simp] theorem exec_throw (e : Complaint) (s : State) :
    exec (throw e : Action α) s = (.error e, s) := rfl

@[simp] theorem exec_get (s : State) : exec (get : Action State) s = (.ok s, s) := rfl

@[simp] theorem exec_modify (change : State → State) (s : State) :
    exec (modify change : Action Unit) s = (.ok (), change s) := rfl

@[simp] theorem exec_modifyGet (change : State → α × State) (s : State) :
    exec (modifyGet change : Action α) s = (.ok (change s).1, (change s).2) := rfl

theorem exec_bind (body : Action α) (next : α → Action β) (s : State) :
    exec (body >>= next) s = match exec body s with
      | (.ok value, t) => exec (next value) t
      | (.error e, t) => (.error e, t) := by
  simp only [exec, ExceptT.run_bind, StateT.run_bind]
  generalize body.run.run s = result
  rcases result with ⟨_ | _, t⟩ <;> rfl

@[simp] theorem exec_map (f : α → β) (body : Action α) (s : State) :
    exec (f <$> body) s = ((exec body s).1.map f, (exec body s).2) := by
  rw [← bind_pure_comp, exec_bind]
  rcases exec body s with ⟨_ | _, t⟩ <;> rfl

@[simp] theorem exec_discard (body : Action α) (s : State) :
    exec (discard body) s = ((exec body s).1.map fun _ => (), (exec body s).2) :=
  exec_map (fun _ => ()) body s

@[simp] theorem exec_answer (a : Answer) (s : State) :
    exec (answer a) s = (.ok (), s.answered a) := rfl

@[simp] theorem exec_lift (outcome : Except ContextError α) (s : State) :
    exec (lift outcome) s = (outcome.mapError (·.complaint), s) := by
  cases outcome <;> rfl

/-! ## Bodies -/

@[simp] theorem exec_observing (body : Action Unit) (s : State) :
    exec (andFinally.observing body) s = (.ok (exec body s).1, (exec body s).2) := rfl

theorem exec_andFinally (body after : Action Unit) (s : State) :
    exec (andFinally body after) s = match exec body s with
      | (.ok (), t) => exec after t
      | (.error e, t) => exec (do after; throw e) t := by
  simp only [andFinally, exec_bind (andFinally.observing body), exec_observing]
  rcases exec body s with ⟨e | value, t⟩ <;> rfl

/-- What leaves a scope: an error that refuses to is replaced by its refusal. -/
def leftBy : Except Complaint Unit → Except Complaint Unit
  | .ok () => .ok ()
  | .error e => .error (e.kind.refusalToLeave.getD e)

@[simp] theorem exec_leaving (body : Action Unit) (s : State) :
    exec (leaving body) s = (leftBy (exec body s).1, (exec body s).2) := by
  simp only [leaving, exec_bind, exec_observing]
  rcases exec body s with ⟨e | value, t⟩ <;> rfl

/-- An error is answered unless it is an interrupt, and then goes no further. -/
theorem exec_settling (body : Action Unit) (s : State) :
    exec (settling body) s = match exec body s with
      | (.ok (), t) => (.ok (), t)
      | (.error e, t) => if e.kind.interrupt then (.error e, t)
        else (.ok (), t.answered (.complaint e)) := by
  simp only [settling, exec_bind, exec_observing]
  rcases exec body s with ⟨e | value, t⟩
  · by_cases he : e.kind.interrupt <;> simp [he]
  · rfl

theorem exec_attempting (body : Action Unit) (s : State) :
    exec (attempting body) s = match exec body s with
      | (.ok (), t) => (.ok (), t.answered .noError)
      | (.error e, t) => if e.kind.interrupt then (.error e, t)
        else (.ok (), t.answered (.complaint e)) := by
  simp only [attempting, exec_bind, exec_observing]
  rcases exec body s with ⟨e | value, t⟩
  · by_cases he : e.kind.interrupt <;> simp [he]
  · rfl

@[simp] theorem exec_threading (body : Action Unit) (s : State) :
    exec (threading body) s = (.ok (), (exec body s).2) := rfl

/-- A clean-up that can not fail leaves the outcome of the body. -/
theorem exec_andFinally_modify (body : Action Unit) (change : State → State) (s : State) :
    exec (andFinally body (modify change)) s = ((exec body s).1, change (exec body s).2) := by
  rw [exec_andFinally]
  rcases exec body s with ⟨e | value, t⟩ <;> rfl

theorem exec_withAmbient (index : Option Nat) (body : Action Unit) (s : State) :
    exec (withAmbient index body) s = ((exec body { s with ambient := index }).1,
      { (exec body { s with ambient := index }).2 with ambient := s.ambient }) := by
  simp only [withAmbient, exec_bind, exec_get, exec_modify]
  rw [exec_andFinally_modify]

/-! ## Sites -/

/-- The settled site that is meant in a state. -/
def Site.settled? (s : State) : Site → Option Site
  | .ambient => s.ambient.map .context
  | site => some site

namespace State

/-- The stack at a settled site. -/
def stackAt (s : State) : Site → ContextStack Nat
  | .stack index => s.freeStacks.getD index []
  | .context index => (s.context index).stack
  | .ambient => []

/-- The state with another stack at a settled site. -/
def putStack (s : State) (stack : ContextStack Nat) : Site → State
  | .stack index => { s with freeStacks := s.freeStacks.setIfInBounds index stack }
  | .context index => s.setStack index stack
  | .ambient => s

/-- There is a stack at a settled site. -/
def Has (s : State) : Site → Prop
  | .stack index => index < s.freeStacks.size
  | .context index => index < s.contexts.size
  | .ambient => False

instance (s : State) : (site : Site) → Decidable (s.Has site)
  | .stack index => inferInstanceAs (Decidable (index < s.freeStacks.size))
  | .context index => inferInstanceAs (Decidable (index < s.contexts.size))
  | .ambient => inferInstanceAs (Decidable False)

@[simp] theorem stackAt_answered (s : State) (a : Answer) (site : Site) :
    (s.answered a).stackAt site = s.stackAt site := by
  cases site <;> rfl

theorem stackAt_of_not_has {s : State} {site : Site} (h : ¬s.Has site) : s.stackAt site = [] := by
  cases site with
  | stack index => simp_all [Has, stackAt]
  | context index =>
      have hdefault : s.context index = default := by
        simp_all [Has, State.context]
      rw [stackAt, hdefault]
      rfl
  | ambient => rfl

theorem stackAt_putStack_self {s : State} {site : Site} (h : s.Has site)
    (stack : ContextStack Nat) : (s.putStack stack site).stackAt site = stack := by
  cases site with
  | stack index => simp_all [Has, stackAt, putStack]
  | context index =>
      simp_all [Has, stackAt, putStack, State.context, State.setStack, Array.getElem_modify]
  | ambient => exact h.elim

theorem stackAt_putStack_of_ne {s : State} {site other : Site} (h : site ≠ other)
    (stack : ContextStack Nat) : (s.putStack stack site).stackAt other = s.stackAt other := by
  cases site <;> cases other <;> simp_all [stackAt, putStack, State.context, State.setStack,
    Array.getElem?_modify]

/-- Writing at a site changes the stack that is there, if there is one, and no other. -/
theorem stackAt_putStack (s : State) (stack : ContextStack Nat) (site other : Site) :
    (s.putStack stack site).stackAt other =
      if site = other ∧ s.Has other then stack else s.stackAt other := by
  by_cases hsite : site = other
  · subst hsite
    by_cases hhas : s.Has site
    · simp [hhas, stackAt_putStack_self hhas]
    · have hleft : ¬(s.putStack stack site).Has site := by
        cases site <;> simp_all [Has, putStack, State.setStack]
      simp [hhas, stackAt_of_not_has hhas, stackAt_of_not_has hleft]
  · simp [hsite, stackAt_putStack_of_ne hsite]

end State

theorem exec_ambientIndex (s : State) :
    exec ambientIndex s = (match s.ambient with
      | some index => .ok index
      | none => .error ContextError.noRun.complaint, s) := by
  simp only [ambientIndex, exec_bind, exec_get]
  cases s.ambient <;> rfl

theorem exec_resolve (site : Site) (s : State) :
    exec site.resolve s = (match site.settled? s with
      | some settled => .ok settled
      | none => .error ContextError.noRun.complaint, s) := by
  cases site with
  | ambient =>
      simp only [Site.resolve, Site.settled?, exec_bind, exec_ambientIndex]
      cases s.ambient <;> rfl
  | _ => rfl

theorem exec_read (site : Site) (s : State) : exec site.read s = (.ok (s.stackAt site), s) := by
  cases site <;> rfl

theorem exec_write (stack : ContextStack Nat) (site : Site) (s : State) :
    exec (site.write stack) s = (.ok (), s.putStack stack site) := by
  cases site <;> rfl

theorem exec_push (site : Site) (slot : Nat) (s : State) :
    exec (site.push slot) s = (.ok (), s.putStack (slot :: s.stackAt site) site) := by
  simp only [Site.push, exec_bind, exec_read, exec_write]
  rfl

theorem exec_pop (site : Site) (s : State) :
    exec site.pop s = match s.stackAt site with
      | [] => (.error ContextError.popOfEmpty.complaint, s)
      | slot :: rest => (.ok slot, s.putStack rest site) := by
  simp only [Site.pop, exec_bind, exec_read]
  cases s.stackAt site with
  | nil => rfl
  | cons slot rest =>
      have hpop : ContextStack.pop (slot :: rest) = .ok (slot, rest) := rfl
      rw [hpop, exec_lift]
      simp only [exec_write, exec_pure]
      rfl

@[simp] theorem exec_seedOf (slot : Nat) (s : State) :
    exec (seedOf slot) s = (.ok (s.sources.source slot).seed, s) := rfl

theorem exec_currentSlot (owner : Owner) (s : State) :
    exec owner.currentSlot s = (do
      let index ← (exec owner.resolve s).1
      (s.context index).stack.current.mapError (·.complaint), s) := by
  have hresolve : exec owner.resolve s = ((exec owner.resolve s).1, s) := by
    cases owner with
    | context index => rfl
    | ambient => simp [Owner.resolve, exec_ambientIndex]
  rw [Owner.currentSlot, exec_bind, hresolve]
  rcases (exec owner.resolve s).1 with e | index
  · rfl
  · simp only [exec_bind, exec_get, exec_lift]
    rfl

@[simp] theorem exec_drawFrom (slot : Nat) (take : RandomSource → α × RandomSource) (s : State) :
    exec (drawFrom slot take) s = (.ok (s.sources.draw slot take).1,
      { s with sources := (s.sources.draw slot take).2 }) := rfl

/-- The state in which the body of a scope starts. -/
def State.entered (s : State) (site : Site) (slot : Nat) : State :=
  (s.putStack (slot :: s.stackAt site) site).answered (.seed (s.sources.source slot).seed)

/-- Without a context that is ambient there is no stack for a scope. -/
theorem exec_scope_of_unsettled {site : Site} {s : State} (h : site.settled? s = none) (slot : Nat)
    (body : List Step) : exec (Step.run (.scope site slot body)) s =
      (.error ContextError.noRun.complaint, s) := by
  simp only [Step.run, exec_bind, exec_resolve, h]

/-- What a scope does within itself, after it has pushed. -/
theorem exec_entered (s : State) (site : Site) (slot : Nat) (body : Action α) :
    exec (do answer (.seed (← seedOf slot)); body) (s.putStack (slot :: s.stackAt site) site) =
      exec body (s.entered site slot) := by
  simp only [exec_bind, exec_seedOf, exec_answer]
  cases site <;> rfl

/-- A scope runs its body on what it has pushed and pops in the end, whichever way the body ends. -/
theorem exec_scope {site settled : Site} {s : State} (h : site.settled? s = some settled)
    (slot : Nat) (body : List Step) : exec (Step.run (.scope site slot body)) s =
      (leftBy (exec (andFinally (runBody body) (discard settled.pop)) (s.entered settled slot)).1,
        (exec (andFinally (runBody body) (discard settled.pop)) (s.entered settled slot)).2) := by
  simp only [Step.run, exec_bind, exec_resolve, h, exec_push]
  rw [exec_leaving, exec_andFinally, exec_andFinally, exec_entered]

/-! ## What operations leave as it is -/

/-- An operation leaves a part of every state as it is. -/
def Fixes {γ : Type} (part : State → γ) (body : Action α) : Prop :=
  ∀ s, part (exec body s).2 = part s

namespace Fixes

variable {γ : Type} {part : State → γ} {body : Action α}

theorem bind {next : α → Action β} (hbody : Fixes part body) (hnext : ∀ x, Fixes part (next x)) :
    Fixes part (body >>= next) := by
  intro s
  have hfirst := hbody s
  rw [exec_bind]
  generalize exec body s = result at hfirst ⊢
  obtain ⟨e | x, t⟩ := result
  · exact hfirst
  · exact (hnext x t).trans hfirst

/-- What only asks leaves everything as it is. -/
theorem of_asks (h : ∀ s, (exec body s).2 = s) : Fixes part body := by
  intro s
  rw [h]

theorem value (x : α) : Fixes part (pure x : Action α) :=
  of_asks fun _ => rfl

theorem failure (e : Complaint) : Fixes part (throw e : Action α) :=
  of_asks fun _ => rfl

theorem resolve (site : Site) : Fixes part site.resolve :=
  of_asks fun s => by rw [exec_resolve]

theorem read (site : Site) : Fixes part site.read :=
  of_asks fun s => by rw [exec_read]

theorem lift (outcome : Except ContextError α) : Fixes part (ContextProgram.lift outcome) :=
  of_asks fun s => by rw [exec_lift]

theorem ownerResolve (owner : Owner) : Fixes part owner.resolve :=
  of_asks fun s => by
    cases owner with
    | context index => rfl
    | ambient => rw [Owner.resolve, exec_ambientIndex]

theorem currentSlot (owner : Owner) : Fixes part owner.currentSlot :=
  of_asks fun s => by rw [exec_currentSlot]

section Writing

variable (hput : ∀ s stack site, part (s.putStack stack site) = part s)

include hput

theorem write (stack : ContextStack Nat) (site : Site) : Fixes part (site.write stack) := by
  intro s
  rw [exec_write, hput]

theorem push (site : Site) (slot : Nat) : Fixes part (site.push slot) := by
  intro s
  rw [exec_push, hput]

theorem pop (site : Site) : Fixes part site.pop := by
  intro s
  rw [exec_pop]
  split
  · rfl
  · exact hput _ _ _

end Writing

section Drawing

variable (hsources : ∀ s sources, part { s with sources } = part s)

include hsources

theorem drawFrom (slot : Nat) (take : RandomSource → α × RandomSource) :
    Fixes part (ContextProgram.drawFrom slot take) := by
  intro s
  rw [exec_drawFrom, hsources]

theorem forkFrom (slot : Nat) : Fixes part (modifyGet fun s =>
    let (child, sources) := s.sources.fork slot
    (child, { s with sources }) : Action RandomSource) := by
  intro s
  rw [exec_modifyGet, hsources]

end Drawing
end Fixes

/-! ## What is done around a body -/

section Around

variable {γ : Type} {part : State → γ}

/-- Whichever way the body ends, the clean-up is run on what it leaves. -/
theorem after_andFinally (body cleanup : Action Unit) (s : State) :
    (exec (andFinally body cleanup) s).2 = (exec cleanup (exec body s).2).2 := by
  rw [exec_andFinally]
  rcases exec body s with ⟨e | value, t⟩
  · simp only [exec_bind, exec_throw]
    rcases exec cleanup t with ⟨_ | _, u⟩ <;> rfl
  · rfl

/-- Of an attempt there is at most an answer more than of its body. -/
theorem after_attempting (body : Action Unit) (s : State) :
    (exec (attempting body) s).2 = (exec body s).2 ∨
      ∃ a, (exec (attempting body) s).2 = (exec body s).2.answered a := by
  rw [exec_attempting]
  rcases exec body s with ⟨e | value, t⟩
  · by_cases he : e.kind.interrupt
    · simp [he]
    · exact .inr ⟨.complaint e, by simp [he]⟩
  · exact .inr ⟨.noError, rfl⟩

/-- Of a step that is run on its own there is at most an answer more than of its body. -/
theorem after_settling (body : Action Unit) (s : State) :
    (exec (settling body) s).2 = (exec body s).2 ∨
      ∃ a, (exec (settling body) s).2 = (exec body s).2.answered a := by
  rw [exec_settling]
  rcases exec body s with ⟨e | value, t⟩
  · by_cases he : e.kind.interrupt
    · simp [he]
    · exact .inr ⟨.complaint e, by simp [he]⟩
  · exact .inl rfl

end Around

theorem after_activate (index : Nat) (body : List Step) (s : State) :
    (exec (Step.run (.activate index body)) s).2 =
      { (exec (runBody body) { s with ambient := some index }).2.setStack index [] with
        ambient := s.ambient } := by
  rw [Step.run, exec_leaving, exec_withAmbient, exec_andFinally_modify]

theorem after_thread (body : List Step) (s : State) : (exec (Step.run (.thread body)) s).2 =
    { (exec (settleBody body) { s with ambient := none }).2 with ambient := s.ambient } := by
  rw [Step.run, exec_withAmbient, exec_threading]

theorem after_copyContext (body : List Step) (s : State) :
    (exec (Step.run (.copyContext body)) s).2 =
      { (exec (settleBody body) s).2 with ambient := s.ambient } := by
  rw [Step.run, exec_bind, exec_get]
  exact congrArg Prod.snd (exec_withAmbient s.ambient (settleBody body) s)

/-! ## Steps without a body -/

/-- Whether a step by itself writes a stack. -/
def Step.writes : Step → Bool
  | .push .. | .pop _ | .clear _ => true
  | _ => false

/-- Whether a step draws from a source. -/
def Step.draws : Step → Bool
  | .fraction _ | .bits .. | .fork => true
  | _ => false

/-- The body of a step, if it has one. -/
def Step.body? : Step → Option (List Step)
  | .scope _ _ body | .activate _ body | .attempt body | .thread body | .copyContext body =>
    some body
  | _ => none

/-- A step without a body leaves as it is what belongs neither to the answers nor, if it writes or
draws, to the stacks or the sources. -/
theorem fixes_step {γ : Type} {part : State → γ} {step : Step} (hstep : step.body? = none)
    (hanswer : ∀ s a, part (s.answered a) = part s)
    (hput : step.writes = true → ∀ s stack site, part (s.putStack stack site) = part s)
    (hsources : step.draws = true → ∀ s sources, part { s with sources } = part s) :
    Fixes part step.run := by
  have hanswers : ∀ a, Fixes part (answer a) := fun a s => hanswer s a
  -- Each step first finds a stack or a source, which changes nothing, and answers in the end.
  cases step with
  | scope | activate | attempt | thread | copyContext => cases hstep
  | push site slot =>
      exact (Fixes.resolve site).bind fun settled => (Fixes.push (hput rfl) settled slot).bind
        fun _ => (Fixes.read settled).bind fun _ => hanswers _
  | pop site =>
      exact (Fixes.resolve site).bind fun settled => (Fixes.pop (hput rfl) settled).bind
        fun slot => (Fixes.of_asks fun _ => rfl).bind fun _ => hanswers _
  | clear site =>
      exact (Fixes.resolve site).bind fun settled => (Fixes.write (hput rfl) [] settled).bind
        fun _ => (Fixes.read settled).bind fun _ => hanswers _
  | current site =>
      exact (Fixes.resolve site).bind fun settled => (Fixes.read settled).bind fun _ =>
        (Fixes.lift _).bind fun slot => (Fixes.of_asks fun _ => rfl).bind fun _ => hanswers _
  | depth site =>
      exact (Fixes.resolve site).bind fun settled => (Fixes.read settled).bind fun _ => hanswers _
  | raise complaint => exact .failure complaint
  | describe owner =>
      exact (Fixes.ownerResolve owner).bind fun _ => (Fixes.of_asks fun _ => rfl).bind fun _ =>
        hanswers _
  | randomness owner =>
      exact (Fixes.currentSlot owner).bind fun slot => (Fixes.of_asks fun _ => rfl).bind fun _ =>
        hanswers _
  | fraction owner =>
      exact (Fixes.currentSlot owner).bind fun slot =>
        (Fixes.drawFrom (hsources rfl) slot _).bind fun _ => hanswers _
  | bits owner width =>
      refine (Fixes.currentSlot owner).bind fun slot => ?_
      have hrest : Fixes part (do answer (.number (← drawFrom slot (·.bits width.toNat)))) :=
        (Fixes.drawFrom (hsources rfl) slot _).bind fun _ => hanswers _
      dsimp only
      split
      · exact (Fixes.failure negativeWidth).bind fun _ => hrest
      · exact hrest
  | fork =>
      exact (Fixes.currentSlot .ambient).bind fun slot =>
        (Fixes.forkFrom (hsources rfl) slot).bind fun _ => hanswers _

end SeededTesting.ContextProgram

import SeededTesting.Proofs.Bond.Blocks
import SeededTesting.Proofs.Context.Moments

/-! # What a scope removes

A scope pushes a source and pops what is on top in the end. This is the source only if the block has
left nothing on top of it: of a block that keeps above what it found, everything but the topmost of
what it leaves stays on the stack. What is below stays as it is, item by item, and an error of the
block passes as it passes any scope.
-/

namespace SeededTesting.ContextProgram

/-! ## Blocks that keep above what they found -/

section Keeping

variable {site settled : Site} {base : ContextStack Nat}

/-- What is below stays below, as long as all moments are deep enough for it. -/
def Kept (site : Site) (base : ContextStack Nat) (s : State) (moments : List Moment) (t : State) :
    Prop :=
  (∀ m ∈ moments, base.length ≤ (m.after.stackAt site).length) →
    base <:+ s.stackAt site → base <:+ t.stackAt site

/-- What is below stays below, unless the stack is not deep enough for it in the end. -/
def KeptIfDeep (site : Site) (base : ContextStack Nat) (s : State) (moments : List Moment)
    (t : State) : Prop :=
  base.length ≤ (t.stackAt site).length → Kept site base s moments t

/-- One stack is the other with something on top. -/
def Grown (a b : ContextStack Nat) : Prop :=
  a <:+ b ∨ b <:+ a

theorem Grown.suffix {a b : ContextStack Nat} (h : Grown a b) (hdeep : base.length ≤ b.length)
    (hbase : base <:+ a) : base <:+ b := by
  rcases h with h | h
  · exact hbase.trans h
  · exact List.suffix_of_suffix_length_le hbase h hdeep

theorem suffix_pushed (slot : Nat) (s : State) :
    s.stackAt site <:+ (s.putStack (slot :: s.stackAt settled) settled).stackAt site := by
  rw [State.stackAt_putStack]
  by_cases hhere : settled = site ∧ s.Has site
  · rw [if_pos hhere, hhere.1]
    exact List.suffix_cons _ _
  · rw [if_neg hhere]

theorem stackAt_ambient (s : State) (ambient : Option Nat) :
    { s with ambient }.stackAt site = s.stackAt site := by
  cases site <;> rfl

/-- An operation moves the top of a stack at most. -/
def MovesTop {α : Type} (site : Site) (body : Action α) : Prop :=
  ∀ s, Grown (s.stackAt site) ((exec body s).2.stackAt site)

namespace MovesTop

variable {α β : Type} {body : Action α} {next : α → Action β}

theorem of_fixes (h : Fixes (State.stackAt · site) body) : MovesTop site body := by
  intro s
  have hsame : (exec body s).2.stackAt site = s.stackAt site := h s
  rw [hsame]
  exact .inl (List.suffix_refl _)

theorem after_fixes (hbody : Fixes (State.stackAt · site) body)
    (hnext : ∀ x, MovesTop site (next x)) : MovesTop site (body >>= next) := by
  intro s
  have hsame : (exec body s).2.stackAt site = s.stackAt site := hbody s
  rw [exec_bind]
  generalize exec body s = result at hsame ⊢
  rw [← hsame]
  obtain ⟨e | x, t⟩ := result
  · exact .inl (List.suffix_refl _)
  · exact hnext x t

theorem before_fixes (hbody : MovesTop site body)
    (hnext : ∀ x, Fixes (State.stackAt · site) (next x)) : MovesTop site (body >>= next) := by
  intro s
  have hmoved := hbody s
  rw [exec_bind]
  generalize exec body s = result at hmoved ⊢
  obtain ⟨e | x, t⟩ := result
  · exact hmoved
  · have hsame : (exec (next x) t).2.stackAt site = t.stackAt site := hnext x t
    dsimp only
    rwa [hsame]

/-- Whatever is written at a site is found there or not at all. -/
theorem write_at {s : State} {stack : ContextStack Nat} (h : Grown (s.stackAt settled) stack) :
    Grown (s.stackAt site) ((s.putStack stack settled).stackAt site) := by
  rw [State.stackAt_putStack]
  by_cases hhere : settled = site ∧ s.Has site
  · rw [if_pos hhere, ← hhere.1]
    exact h
  · rw [if_neg hhere]
    exact .inl (List.suffix_refl _)

theorem push (slot : Nat) : MovesTop site (settled.push slot) := by
  intro s
  rw [exec_push]
  exact .inl (suffix_pushed slot s)

theorem pop : MovesTop site settled.pop := by
  intro s
  rw [exec_pop]
  cases hstack : s.stackAt settled with
  | nil => exact .inl (List.suffix_refl _)
  | cons slot rest =>
      apply write_at
      rw [hstack]
      exact .inr (List.suffix_cons _ _)

theorem clear : MovesTop site (settled.write []) := by
  intro s
  rw [exec_write]
  exact write_at (.inr List.nil_suffix)

end MovesTop

theorem fixes_answer (a : Answer) : Fixes (State.stackAt · site) (answer a) :=
  fun s => s.stackAt_answered a site

/-- A step without a body moves the top of a stack at most. -/
theorem movesTop_step {step : Step} (hstep : step.body? = none) : MovesTop site step.run := by
  by_cases hwrites : step.writes = true
  · cases step with
    | push place slot =>
        refine .after_fixes (.resolve place) fun settled => .before_fixes (.push slot) fun _ => ?_
        exact (Fixes.read settled).bind fun _ => fixes_answer _
    | pop place =>
        refine .after_fixes (.resolve place) fun settled => .before_fixes .pop fun slot => ?_
        exact (Fixes.of_asks fun _ => rfl).bind fun _ => fixes_answer _
    | clear place =>
        refine .after_fixes (.resolve place) fun settled => .before_fixes .clear fun _ => ?_
        exact (Fixes.read settled).bind fun _ => fixes_answer _
    | _ => cases hwrites
  · apply MovesTop.of_fixes
    refine fixes_step hstep (fun s a => s.stackAt_answered a site) (fun h => absurd h hwrites) ?_
    intro _ s sources
    cases site <;> rfl

theorem accounting_kept :
    Accounting (fun _ => Kept site base) (fun _ _ => KeptIfDeep site base) where
  composes _ := {
    nil := fun s _ h => h
    append := by
      intro s t u ms ns hfirst hnext hdeep hs
      rw [List.forall_mem_append] at hdeep
      exact hnext hdeep.2 (hfirst hdeep.1 hs) }
  answered := by
    intro within s ms t h a hdeep hs
    rw [State.stackAt_answered]
    exact h hdeep hs
  mark := by
    intro within step s ms h hdeep
    rw [List.forall_mem_append, List.forall_mem_singleton] at hdeep
    exact h hdeep.2 hdeep.1
  leaf hstep s hlast _ hs := (movesTop_step hstep s).suffix hlast hs
  unsettled _ _ _ hs := hs
  scope := by
    intro within place settled slot body s ms t _ h hlast hdeep hs
    have hentered : base <:+ (s.entered settled slot).stackAt site := by
      rw [State.entered, State.stackAt_answered]
      exact hs.trans (suffix_pushed slot s)
    -- The pop takes nothing from below, for the stack is deep enough after it.
    exact (MovesTop.pop t).suffix hlast (h hdeep hentered)
  activate := by
    intro within index body s ms t h hlast hdeep hs
    rw [stackAt_ambient] at hlast ⊢
    rw [Kept, stackAt_ambient] at h
    have hclear : MovesTop site (Site.write [] (.context index)) := .clear
    exact (hclear t).suffix hlast (h hdeep hs)
  attempt h _ := h
  thread := by
    intro within body s ms t h _ hdeep hs
    rw [Kept, stackAt_ambient] at h
    rw [stackAt_ambient]
    exact h hdeep hs
  copyContext := by
    intro within body s ms t h _ hdeep hs
    rw [stackAt_ambient]
    exact h hdeep hs

end Keeping

/-! ## What is left of a scope -/

/-- A scope pops the topmost item that its block leaves. -/
theorem exec_andFinally_pop {settled : Site} {body : Action Unit} {s : State} {slot : Nat}
    {rest : ContextStack Nat} (h : (exec body s).2.stackAt settled = slot :: rest) :
    exec (andFinally body (discard settled.pop)) s =
      ((exec body s).1, (exec body s).2.putStack rest settled) := by
  rw [exec_andFinally]
  generalize exec body s = result at h ⊢
  obtain ⟨e | value, t⟩ := result
  · simp only [exec_bind, exec_discard, exec_pop, h, exec_throw, Except.map]
  · simp only [exec_discard, exec_pop, h, Except.map]

/-- What is left of a scope whose block keeps above what it found. -/
theorem exec_scope_of_deep {s : State} {site settled : Site}
    (hsettled : site.settled? s = some settled) (hhas : s.Has settled) {slot : Nat}
    {body : List Step}
    (hdeep : ∀ m ∈ ((Step.scope site slot body).traced []).moments s,
      (s.stackAt settled).length < (m.after.stackAt settled).length) :
    let ended := exec (runBody body) (s.entered settled slot)
    ∃ held, ended.2.stackAt settled = held ++ slot :: s.stackAt settled ∧
      ended.2.Has settled ∧
      exec (Step.run (.scope site slot body)) s =
        (leftBy ended.1,
          ended.2.putStack ((held ++ [slot]).tail ++ s.stackAt settled) settled) := by
  intro ended
  have hentered : (s.entered settled slot).stackAt settled = slot :: s.stackAt settled := by
    rw [State.entered, State.stackAt_answered, State.stackAt_putStack_self hhas]
  have hkept : (tracedBody [.scope site slot body] body).Accounts
      (Kept settled (slot :: s.stackAt settled)) := (accounting_kept.body body _).1
  have hsuffix := hkept (s.entered settled slot)
  rw [moments_scope _ _ _ hsettled] at hdeep
  rw [exec_tracedBody] at hsuffix
  obtain ⟨held, hheld⟩ := hsuffix hdeep (hentered ▸ List.suffix_refl _)
  have hleft : ended.2.stackAt settled = held ++ slot :: s.stackAt settled := hheld.symm
  have hcons : ended.2.stackAt settled =
      (held ++ [slot]).head (by simp) :: ((held ++ [slot]).tail ++ s.stackAt settled) := by
    rw [hleft, ← List.cons_append, List.cons_head_tail, List.append_assoc, List.singleton_append]
  have hthere : ended.2.Has settled := by
    by_contra hnone
    rw [State.stackAt_of_not_has hnone] at hcons
    cases hcons
  refine ⟨held, hleft, hthere, ?_⟩
  rw [exec_scope hsettled, exec_andFinally_pop hcons]

/-- A scope whose block never goes below where it started, though it may push more than it pops,
open scopes, and end by an error at any point, pops the topmost item that the block has left and
nothing else. So the stack is as it was, item by item, just if the block has left nothing above the
source of the scope; otherwise that source stays. An error of the block leaves the scope as it is,
if its object takes the trail that it is given then. The same goes for blocks of scripts, which may
run other suites. -/
theorem scope_pops_topmost (s : State) (site settled : Site) (slot : Nat) (body : List Step)
    (host : Host) (label : String) (block : Script) (source : RandomSource) (w : World)
    (context : RunContext) (outer : List RunContext) :
    (site.settled? s = some settled → s.Has settled →
      (∀ m ∈ ((Step.scope site slot body).traced []).moments s,
        (s.stackAt settled).length < (m.after.stackAt settled).length) →
      let ended := exec (runBody body) (s.entered settled slot)
      let left := exec (Step.run (.scope site slot body)) s
      ∃ held, ended.2.stackAt settled = held ++ slot :: s.stackAt settled ∧
        left = (leftBy ended.1,
          ended.2.putStack ((held ++ [slot]).tail ++ s.stackAt settled) settled) ∧
        left.2.stackAt settled = (held ++ [slot]).tail ++ s.stackAt settled ∧
        (left.2.stackAt settled = s.stackAt settled ↔ held = [])) ∧
      (w.contexts = context :: outer →
        (∀ u ∈ (Script.tracedSteps host label block).moments
            (w.within ({ context with stack := source :: context.stack } :: outer)),
          context.stack.length < u.depth) →
        let ended := (Script.runSteps host label block).exec
          (w.within ({ context with stack := source :: context.stack } :: outer))
        let left := (Act.inScope source (Script.runSteps host label block)).exec w
        ∃ top held,
          ended.2.contexts = { context with stack := top :: held ++ context.stack } :: outer ∧
            left = (Act.leaving (Act.resume ended.1)).exec
              (ended.2.within ({ context with stack := held ++ context.stack } :: outer)) ∧
            left.2.contexts = { context with stack := held ++ context.stack } :: outer ∧
            (left.2.contexts = w.contexts ↔ held = [])) := by
  constructor
  · intro hsettled hhas hdeep ended left
    obtain ⟨held, hheld, hthere, hleft⟩ := exec_scope_of_deep hsettled hhas hdeep
    have hstack : left.2.stackAt settled = (held ++ [slot]).tail ++ s.stackAt settled := by
      rw [show left = _ from hleft]
      exact State.stackAt_putStack_self hthere _
    refine ⟨held, hheld, hleft, hstack, ?_⟩
    rw [hstack, List.append_left_eq_self]
    cases held <;> simp
  · intro hw hdeep ended left
    obtain ⟨top, held, hended, hleft⟩ := Script.exec_inScope_block hw hdeep
    have hcontexts :
        left.2.contexts = { context with stack := held ++ context.stack } :: outer := by
      rw [show left = _ from hleft, Act.contexts_leaving_resume]
      rfl
    refine ⟨top, held, hended, hleft, hcontexts, ?_⟩
    rw [hcontexts, hw]
    constructor
    · intro h
      have hstack := congrArg RunContext.stack (List.cons.inj h).1
      exact List.append_left_eq_self.mp hstack
    · rintro rfl
      rfl

/-- A block that pushes and does not pop: nothing was on the stack before the scope, and the source
of the scope is on it afterwards. -/
theorem scope_leaves_source :
    let s : State := {
      sources := #[.fresh 5, .fresh 6], freeStacks := #[[]], contexts := #[] }
    let step := Step.scope (.stack 0) 0 [.push (.stack 0) 1]
    (∀ m ∈ (step.traced []).moments s,
        (s.stackAt (.stack 0)).length < (m.after.stackAt (.stack 0)).length) ∧
      s.stackAt (.stack 0) = [] ∧ (exec step.run s).2.stackAt (.stack 0) = [0] := by
  decide

/-- A block within which another scope is left by an error, and a block of a script that pushes. -/
theorem scope_pops_topmost_nested :
    let s : State := {
      sources := #[.fresh 5, .fresh 6], freeStacks := #[[1]], contexts := #[] }
    let body := [Step.push (.stack 0) 1, .scope (.stack 0) 0 [.raise ⟨.named "KeyError", none⟩]]
    let w : World := { contexts := [{ runner := 1, target := "t", nightly := false }] }
    let block : Script := [.push 7, .seed]
    (∃ held, (exec (Step.run (.scope (.stack 0) 0 body)) s).2.stackAt (.stack 0) =
        (held ++ [0]).tail ++ [1]) ∧
      ∃ held, ((Act.inScope (.fresh 3) (Script.runSteps {} "block" block)).exec w).2.contexts =
        [{ runner := 1, target := "t", nightly := false, stack := held }] := by
  intro s body w block
  obtain ⟨hprogram, hscript⟩ := scope_pops_topmost s (.stack 0) (.stack 0) 0 body {} "block" block
    (.fresh 3) w { runner := 1, target := "t", nightly := false } []
  obtain ⟨held, -, -, hleft, -⟩ := hprogram rfl (by decide) (by decide)
  obtain ⟨_, held', -, -, hleft', -⟩ := hscript rfl (by decide)
  exact ⟨⟨held, hleft⟩, held' ++ [], hleft'⟩

end SeededTesting.ContextProgram

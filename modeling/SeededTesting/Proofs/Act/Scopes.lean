import SeededTesting.Proofs.Act.Logic

/-! # Scopes and contexts in the logic of actions

Actions look at and change the stack of the innermost context only. A scope pushes a source and
pops whatever is on top in the end; a context of its own is emptied and left in the end, and the
contexts are then what they were before, whatever was done inside. Both are rewound by themselves:
a scope if its body is, a context in any case.
-/

namespace SeededTesting

/-- A world with other contexts. -/
def World.within (w : World) (contexts : List RunContext) : World :=
  { w with contexts }

/-- The active source has a seed. -/
def World.Seeded (w : World) (seed : Seed) : Prop :=
  ∃ (context : RunContext) (outer : List RunContext) (source : RandomSource)
    (rest : ContextStack RandomSource),
    w.contexts = { context with stack := source :: rest } :: outer ∧ source.seed = seed

/-- Rewinding keeps the active seed. -/
theorem Regime.Leads.seeded {ρ : Regime} {w v : World} (h : ρ.Leads w v) (hρ : ρ.balanced)
    {seed : Seed} (hw : w.Seeded seed) : v.Seeded seed := by
  obtain ⟨context, outer, source, rest, hcontexts, hseed⟩ := hw
  have hrewound := h.rewound hρ
  rw [hcontexts] at hrewound
  obtain ⟨source', hsource, hv⟩ := hrewound.of_active
  exact ⟨context, outer, source', rest, hv, hsource.trans hseed⟩

namespace Act

variable {α β : Type}

/-! ## What the primitives do -/

theorem exec_complain (c : Complaint) (w : World) :
    (complain c : Act α).exec w = (.error w.errors.size,
      { w with errors := (w.errors.add c).2.linkRaised w.handling w.errors.size }) := by
  rw [complain, exec_bind_of_ok (exec_makeError c w), exec_raise]
  rfl

theorem exec_ofStack (outcome : Except ContextError α) (w : World) :
    (ofStack outcome).exec w = match outcome with
      | .ok value => (.ok value, w)
      | .error e => (complain e.complaint : Act α).exec w := by
  cases outcome <;> rfl

theorem exec_currentSource (w : World) :
    currentSource.exec w = match w.contexts with
      | [] => (complain ContextError.noRun.complaint : Act RandomSource).exec w
      | context :: _ => match context.stack with
        | [] => (complain ContextError.nothingActive.complaint : Act RandomSource).exec w
        | source :: _ => (.ok source, w) := by
  rw [currentSource, exec_bind, exec_currentContext]
  cases w.contexts with
  | nil => rfl
  | cons context outer =>
      dsimp only
      rw [exec_ofStack]
      cases context.stack <;> rfl

theorem exec_push (source : RandomSource) (w : World) :
    (push source).exec w = match w.contexts with
      | [] => (complain ContextError.noRun.complaint : Act Unit).exec w
      | context :: outer =>
        (.ok (), w.within ({ context with stack := source :: context.stack } :: outer)) := by
  rw [push, exec_bind, exec_currentContext]
  cases hcontexts : w.contexts with
  | nil => rfl
  | cons context outer =>
      dsimp only
      rw [exec_setStack, hcontexts]
      rfl

theorem exec_pop (w : World) :
    pop.exec w = match w.contexts with
      | [] => (complain ContextError.noRun.complaint : Act RandomSource).exec w
      | context :: outer => match context.stack with
        | [] => (complain ContextError.popOfEmpty.complaint : Act RandomSource).exec w
        | source :: rest =>
          (.ok source, w.within ({ context with stack := rest } :: outer)) := by
  rw [pop, exec_bind, exec_currentContext]
  cases hcontexts : w.contexts with
  | nil => rfl
  | cons context outer =>
      dsimp only
      rw [exec_bind, exec_ofStack]
      cases context.stack with
      | nil => rfl
      | cons source rest =>
          dsimp only [ContextStack.pop]
          rw [exec_bind, exec_setStack, hcontexts]
          rfl

theorem exec_draw (take : RandomSource → α × RandomSource) (w : World) :
    (draw take).exec w = match w.contexts with
      | [] => (complain ContextError.noRun.complaint : Act α).exec w
      | context :: outer => match context.stack with
        | [] => (complain ContextError.nothingActive.complaint : Act α).exec w
        | source :: rest =>
          (.ok (take source).1,
            w.within ({ context with stack := (take source).2 :: rest } :: outer)) := by
  rw [draw, exec_bind, exec_currentSource]
  cases hcontexts : w.contexts with
  | nil => rfl
  | cons context outer =>
      dsimp only
      cases hstack : context.stack with
      | nil => rfl
      | cons source rest =>
          dsimp only
          rw [exec_bind, exec_currentContext, hcontexts]
          dsimp only
          rw [exec_bind, exec_setStack, hcontexts]
          rw [hstack]
          rfl

/-- A scope pops what its body leaves on top of the stack. -/
theorem exec_inScope_of_top {source top : RandomSource} {left : ContextStack RandomSource}
    {body : Act Unit} {w v : World} {outcome : Except ErrorId Unit} {context : RunContext}
    {outer : List RunContext} (hcontexts : w.contexts = context :: outer)
    (hbody : body.exec (w.within ({ context with stack := source :: context.stack } :: outer)) =
      (outcome, v))
    (hv : v.contexts = { context with stack := top :: left } :: outer) :
    (inScope source body).exec w =
      (leaving (resume outcome)).exec (v.within ({ context with stack := left } :: outer)) := by
  have hpop : ∀ handling, (discard pop).exec { v with handling } =
      (.ok (), { v with handling, contexts := { context with stack := left } :: outer }) := by
    intro handling
    rw [exec_discard, exec_pop]
    dsimp only
    rw [hv]
    rfl
  rw [inScope, exec_bind, exec_push, hcontexts]
  dsimp only
  rw [exec_leaving, exec_leaving, exec_andFinally, exec_resume, hbody]
  cases outcome with
  | ok _ =>
      dsimp only
      rw [hpop v.handling]
      rfl
  | error e =>
      dsimp only
      rw [exec_bind, exec_whileHandling, hpop (some e)]
      rfl

/-- A scope whose body rewinds the stack leaves the contexts as they were. -/
theorem exec_inScope {source : RandomSource} {body : Act Unit} {w v : World}
    {outcome : Except ErrorId Unit} {context : RunContext} {outer : List RunContext}
    (hcontexts : w.contexts = context :: outer)
    (hbody : body.exec (w.within ({ context with stack := source :: context.stack } :: outer)) =
      (outcome, v))
    (hrewound : Rewound ({ context with stack := source :: context.stack } :: outer) v.contexts) :
    (inScope source body).exec w =
      (leaving (resume outcome)).exec (v.within w.contexts) := by
  obtain ⟨top, -, hv⟩ := hrewound.of_active
  rw [exec_inScope_of_top hcontexts hbody hv, hcontexts]

/-- However an action ended, what is left of it looks neither at the contexts nor at the session,
and leaves no trace in them. -/
theorem exec_leaving_resume (outcome : Except ErrorId Unit) (w : World)
    (contexts : List RunContext) (session : Session) :
    (leaving (resume outcome)).exec { w with contexts, session } =
      (((leaving (resume outcome)).exec w).1,
        { ((leaving (resume outcome)).exec w).2 with contexts, session }) := by
  rw [exec_leaving, exec_leaving, exec_resume, exec_resume]
  cases outcome with
  | ok _ => rfl
  | error e =>
      dsimp only
      cases (w.errors.get e).kind.refusalToLeave with
      | none => rfl
      | some refusal =>
          dsimp only
          rw [exec_whileHandling, exec_whileHandling, exec_complain, exec_complain]

theorem contexts_leaving_resume (outcome : Except ErrorId Unit) (w : World) :
    ((leaving (resume outcome)).exec w).2.contexts = w.contexts :=
  congrArg (·.2.contexts) (exec_leaving_resume outcome w w.contexts w.session)

theorem session_leaving_resume (outcome : Except ErrorId Unit) (w : World) :
    ((leaving (resume outcome)).exec w).2.session = w.session :=
  congrArg (·.2.session) (exec_leaving_resume outcome w w.contexts w.session)

/-- What leaves a scope with an error leaves it with one, though perhaps with another. -/
theorem exists_error_leaving (e : ErrorId) (w : World) :
    ∃ i, ((leaving (resume (.error e))).exec w).1 = .error i := by
  rw [exec_leaving, exec_resume]
  dsimp only
  cases (w.errors.get e).kind.refusalToLeave with
  | none => exact ⟨e, rfl⟩
  | some refusal =>
      dsimp only
      rw [exec_whileHandling, exec_complain]
      exact ⟨_, rfl⟩

/-- A context of its own is emptied and left in the end, whatever became of its stack. -/
theorem exec_activate_of_contexts {context innermost : RunContext} {body : Act Unit} {w v : World}
    {outcome : Except ErrorId Unit}
    (hbody : body.exec (w.within (context :: w.contexts)) = (outcome, v))
    (hv : v.contexts = innermost :: w.contexts) :
    (activate context body).exec w = (leaving (resume outcome)).exec { v with
      contexts := w.contexts
      session := { v.session with lastContext := some { innermost with stack := [] } } } := by
  have hleave : ∀ handling, leaveContext.exec { v with handling } = (.ok (), { v with
      handling, contexts := w.contexts
      session := { v.session with lastContext := some { innermost with stack := [] } } }) := by
    intro handling
    rw [leaveContext, exec_bind, exec_setStack]
    dsimp only
    rw [hv]
    rfl
  rw [activate, exec_bind, exec_enterContext]
  dsimp only
  rw [← World.within, exec_leaving, exec_leaving, exec_andFinally, exec_resume, hbody]
  cases outcome with
  | ok _ =>
      dsimp only
      rw [hleave v.handling]
  | error e =>
      dsimp only
      rw [exec_bind, exec_whileHandling, hleave (some e)]
      rfl

theorem exec_activate {context : RunContext} {body : Act Unit} {w v : World}
    {outcome : Except ErrorId Unit}
    (hbody : body.exec (w.within (context :: w.contexts)) = (outcome, v))
    (hgrows : (w.within (context :: w.contexts)).Grows v) :
    ∃ last : RunContext, last.stack = [] ∧
      (activate context body).exec w = (leaving (resume outcome)).exec { v with
        contexts := w.contexts
        session := { v.session with lastContext := some last } } := by
  have hv : ∃ innermost, v.contexts = innermost :: w.contexts := by
    have hdepth := hgrows.depth
    have houter := hgrows.outer
    cases hcontexts : v.contexts with
    | nil =>
        rw [hcontexts] at hdepth
        cases hdepth
    | cons innermost outer =>
        rw [hcontexts] at houter
        exact ⟨innermost, congrArg (innermost :: ·) houter⟩
  obtain ⟨innermost, hv⟩ := hv
  exact ⟨{ innermost with stack := [] }, rfl, exec_activate_of_contexts hbody hv⟩

namespace Triple

variable {ρ : Regime} {P : World → Prop} {V : α → World → Prop} {X : ErrorId → World → Prop}

/-- Where `P` holds, a complaint may be raised. -/
def Admits (P : World → Prop) (X : ErrorId → World → Prop) (c : Complaint) : Prop :=
  ∀ e w, P w → e < w.errors.size → (w.errors.get e).toComplaint = c → X e w

/-- Where `P` holds, a context may be misused. -/
def AdmitsMisuse (P : World → Prop) (X : ErrorId → World → Prop) : Prop :=
  ∀ c : ContextError, Admits P X c.complaint

theorem complainAs {c : Complaint} (hP : Robust P) (hc : Admits P X c) :
    Triple ρ P (Act.complain c : Act α) V X :=
  (complain hP).post (fun _ _ h => h) fun e w ⟨hPw, he, hcomplaint⟩ => hc e w hPw he hcomplaint

theorem currentContext (hP : Robust P) (hX : AdmitsMisuse P X) :
    Triple ρ P Act.currentContext (fun _ => P) X := by
  intro w hw hPw
  rw [exec_currentContext]
  cases w.contexts with
  | nil => exact complainAs hP (hX .noRun) w hw hPw
  | cons context outer => exact ⟨.refl hw, hPw⟩

theorem currentSource (hP : Robust P) (hX : AdmitsMisuse P X) :
    Triple ρ P Act.currentSource (fun _ => P) X := by
  intro w hw hPw
  rw [exec_currentSource]
  cases w.contexts with
  | nil => exact complainAs hP (hX .noRun) w hw hPw
  | cons context outer =>
      dsimp only
      cases context.stack with
      | nil => exact complainAs hP (hX .nothingActive) w hw hPw
      | cons source rest => exact ⟨.refl hw, hPw⟩

/-- A change of the stack of the innermost context alone. -/
theorem leads_stack {w : World} (hw : w.Lawful) {context context' : RunContext}
    {outer : List RunContext} (hcontexts : w.contexts = context :: outer)
    (hrewound : ρ.balanced → Rewound w.contexts (context' :: outer)) :
    ρ.Leads w (w.within (context' :: outer)) where
  lawful := ⟨hw.errors, hw.handling⟩
  grows := by
    refine ⟨.refl _, rfl, ?_, ?_⟩
    · rw [hcontexts]
      rfl
    · rw [hcontexts]
      rfl
  step := ρ.refl _
  rewound := hrewound

theorem draw {take : RandomSource → α × RandomSource}
    (htake : ∀ source, (take source).2.seed = source.seed) (hP : Robust P)
    (hX : AdmitsMisuse P X) : Triple ρ P (Act.draw take) (fun _ => P) X := by
  intro w hw hPw
  rw [exec_draw]
  cases hcontexts : w.contexts with
  | nil => exact complainAs hP (hX .noRun) w hw hPw
  | cons context outer =>
      dsimp only
      cases hstack : context.stack with
      | nil => exact complainAs hP (hX .nothingActive) w hw hPw
      | cons source rest =>
          refine ⟨leads_stack hw hcontexts fun _ => ?_, hP w _ (.refl _) rfl hPw⟩
          rw [hcontexts]
          obtain ⟨runner, target, nightly, stack⟩ := context
          cases hstack
          exact .drawn ⟨runner, target, nightly, []⟩ outer rest (htake source)

theorem setStack (hρ : ¬ρ.balanced) {stack : ContextStack RandomSource} (hP : Robust P) :
    Triple ρ P (Act.setStack stack) (fun _ => P) X := by
  intro w hw hPw
  rw [exec_setStack]
  cases hcontexts : w.contexts with
  | nil => exact ⟨.refl hw, hPw⟩
  | cons context outer =>
      exact ⟨leads_stack hw hcontexts fun h => absurd h hρ, hP w _ (.refl _) rfl hPw⟩

theorem push (hρ : ¬ρ.balanced) {source : RandomSource} (hP : Robust P) (hX : AdmitsMisuse P X) :
    Triple ρ P (Act.push source) (fun _ => P) X :=
  bind (currentContext hP hX) fun _ => setStack hρ hP

theorem pop (hρ : ¬ρ.balanced) (hP : Robust P) (hX : AdmitsMisuse P X) :
    Triple ρ P Act.pop (fun _ => P) X := by
  intro w hw hPw
  rw [exec_pop]
  cases hcontexts : w.contexts with
  | nil => exact complainAs hP (hX .noRun) w hw hPw
  | cons context outer =>
      dsimp only
      cases context.stack with
      | nil => exact complainAs hP (hX .popOfEmpty) w hw hPw
      | cons source rest =>
          exact ⟨leads_stack hw hcontexts fun h => absurd h hρ, hP w _ (.refl _) rfl hPw⟩

/-! ## Scopes -/

/-- A regime under which stacks need not be rewound. -/
def loosen (ρ : Regime) : Regime :=
  { ρ with balanced := False }

theorem loose {body : Act α} (h : Triple ρ P body V X) : Triple (loosen ρ) P body V X :=
  h.under ⟨False.elim, fun _ _ h => h⟩

/-- In the place of an error its refusal may be raised. -/
def AdmitsRefusals (X : ErrorId → World → Prop) : Prop :=
  ∀ e i w c, X e w → e < w.errors.size → (w.errors.get e).kind.refusalToLeave = some c →
    i < w.errors.size → (w.errors.get i).toComplaint = c → X i w

/-- What is asserted around a scope, when it is entered and when it is left. -/
structure Scoped (P V : World → Prop) (X : ErrorId → World → Prop) : Prop where
  robust_pre : Robust P
  robust_post : Robust V
  robust_error : ∀ e, Robust (X e)
  entry : AdmitsMisuse P X
  exit : AdmitsMisuse V X
  failedExit : ∀ e, AdmitsMisuse (X e) X
  refusals : AdmitsRefusals X

variable {W : World → Prop} {body : Act Unit}

theorem inScope_loose {source : RandomSource} (hbody : Triple (loosen ρ) P body (fun _ => W) X)
    (h : Scoped P W X) : Triple (loosen ρ) P (Act.inScope source body) (fun _ => W) X := by
  have hρ : ¬(loosen ρ).balanced := id
  have hpop : ∀ {Q : World → Prop}, Robust Q → AdmitsMisuse Q X →
      Triple (loosen ρ) Q (Functor.discard Act.pop) (fun _ => Q) X :=
    fun hQ hmisuse => discard (pop hρ hQ hmisuse) fun _ _ h => h
  refine bind (push hρ h.robust_pre h.entry) fun _ => leaving ?_ h.refusals h.robust_error
  refine andFinally hbody (hpop h.robust_post h.exit) ?_ h.robust_error h.robust_error
  intro e
  exact (hpop (h.robust_error e) (h.failedExit e)).pre fun _ _ h => h.1

/-- A scope whose body rewinds the stack leaves the contexts as they were, however it ends. -/
theorem contexts_inScope {source : RandomSource} (hρ : ρ.balanced)
    (hbody : Triple ρ P body (fun _ => W) X) (h : Scoped P W X) {w : World} (hw : w.Lawful)
    (hPw : P w) : ((Act.inScope source body).exec w).2.contexts = w.contexts := by
  cases hcontexts : w.contexts with
  | nil =>
      have hloose : Triple (loosen ρ) P (Act.inScope source body) (fun _ => W) X :=
        inScope_loose hbody.loose h
      have hdepth := (hloose w hw hPw).1.grows.depth
      rw [hcontexts] at hdepth
      exact List.eq_nil_of_length_eq_zero hdepth
  | cons context outer =>
      have hentered : (loosen ρ).Leads w
          (w.within ({ context with stack := source :: context.stack } :: outer)) :=
        leads_stack hw hcontexts False.elim
      have hinside := (hbody _ hentered.lawful (h.robust_pre w _ (.refl _) rfl hPw)).1
      rw [exec_inScope hcontexts (Prod.eta _).symm (hinside.rewound hρ), contexts_leaving_resume,
        ← hcontexts]
      rfl

theorem inScope {source : RandomSource} (hbody : Triple ρ P body (fun _ => W) X)
    (h : Scoped P W X) : Triple ρ P (Act.inScope source body) (fun _ => W) X := by
  intro w hw hPw
  have hloose : Triple (loosen ρ) P (Act.inScope source body) (fun _ => W) X :=
    inScope_loose hbody.loose h
  obtain ⟨hleads, hends⟩ := hloose w hw hPw
  refine ⟨⟨hleads.lawful, hleads.grows, hleads.step, fun hbalanced => ?_⟩, hends⟩
  rw [contexts_inScope hbalanced hbody h hw hPw]
  exact .same _

/-- Running in a context of its own changes the session only by what it leaves of the context. -/
theorem activate {context : RunContext} (hbody : Triple (loosen ρ) P body (fun _ => W) X)
    (h : Scoped P W X) (hstep : ∀ s last, ρ.step s { s with lastContext := last })
    (hvalue : ∀ w last, W w → W { w with session := { w.session with lastContext := last } })
    (herror : ∀ e w last, X e w →
      X e { w with session := { w.session with lastContext := last } }) :
    Triple ρ P (Act.activate context body) (fun _ => W) X := by
  intro w hw hPw
  have hin : (w.within (context :: w.contexts)).Lawful := ⟨hw.errors, hw.handling⟩
  obtain ⟨hleads, hends⟩ := hbody _ hin (h.robust_pre w _ (.refl _) rfl hPw)
  obtain ⟨last, -, hexec⟩ := exec_activate (Prod.eta _).symm hleads.grows
  generalize (body.exec (w.within (context :: w.contexts))).1 = outcome at *
  generalize (body.exec (w.within (context :: w.contexts))).2 = v at *
  -- However the body ended, the contexts around are put back and this one is remembered.
  have hleft : ρ.Leads w { v with
      contexts := w.contexts
      session := { v.session with lastContext := some last } } := by
    refine ⟨⟨hleads.lawful.errors, hleads.lawful.handling⟩, ?_, ?_, fun _ => .same _⟩
    · exact ⟨hleads.grows.errors, hleads.grows.handling, rfl, rfl⟩
    · exact ρ.trans hleads.step (hstep v.session (some last))
  have hleaving : Triple ρ (Ends (fun _ => W) X outcome) (Act.leaving (Act.resume outcome))
      (fun _ => W) X := leaving resume h.refusals h.robust_error
  -- What was said of the end of the body still holds with the contexts put back.
  have houtcome : Ends (fun _ => W) X outcome { v with
      contexts := w.contexts
      session := { v.session with lastContext := some last } } := by
    cases outcome with
    | ok _ =>
        exact h.robust_post { v with session := { v.session with lastContext := some last } } _
          (.refl _) rfl (hvalue v (some last) hends)
    | error e =>
        exact ⟨hends.1, h.robust_error e
          { v with session := { v.session with lastContext := some last } } _
          (.refl _) rfl (herror e v (some last) hends.2)⟩
  obtain ⟨hleads', hends'⟩ := hleaving _ hleft.lawful houtcome
  rw [hexec]
  exact ⟨hleft.trans hleads', hends'⟩

end Triple
end Act
end SeededTesting

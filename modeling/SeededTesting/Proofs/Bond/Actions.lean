import SeededTesting.Proofs.Act.Scopes
import SeededTesting.Proofs.Bond.Basic

/-! # Actions side by side

Two actions lead from one bond to another if from worlds that the one holds together they end alike,
with the same error if they fail, in worlds that the other holds together. They are in step if they
keep to a bond. The rules below follow the combinators of actions.
-/

namespace SeededTesting.Bond

open Act

variable {α β' : Type}

/-- The two outcomes are values that compare, or one error. -/
def Alike (V : α → α → Prop) : Except ErrorId α → Except ErrorId α → Prop
  | .ok x, .ok y => V x y
  | .error e, .error e' => e' = e
  | _, _ => False

theorem Alike.eq {x y : Except ErrorId α} (h : Alike Eq x y) : y = x := by
  cases x with
  | ok a =>
      cases y with
      | ok b => exact congrArg Except.ok (Eq.symm h)
      | error e => exact h.elim
  | error e =>
      cases y with
      | ok b => exact h.elim
      | error e' => exact congrArg Except.error h

/-- The ends of two actions: alike, in worlds that the bond holds together. -/
def Ends (γ : Bond) (V : α → α → Prop) (left right : Except ErrorId α × World) : Prop :=
  γ.Holds left.2 right.2 ∧ Alike V left.1 right.1

/-- The two ways in which the actions may end. -/
theorem Ends.outcome {γ : Bond} {V : α → α → Prop} {left right : Except ErrorId α × World}
    (h : γ.Ends V left right) :
    (∃ x y w v, left = (.ok x, w) ∧ right = (.ok y, v) ∧ γ.Holds w v ∧ V x y) ∨
      ∃ e w v, left = (.error e, w) ∧ right = (.error e, v) ∧ γ.Holds w v := by
  obtain ⟨hholds, halike⟩ := h
  obtain ⟨e | x, w⟩ := left <;> obtain ⟨e' | y, v⟩ := right
  · obtain rfl : e' = e := halike
    exact .inr ⟨e', w, v, rfl, rfl, hholds⟩
  · exact halike.elim
  · exact halike.elim
  · exact .inl ⟨x, y, w, v, rfl, rfl, hholds, halike⟩

def Leads (β γ : Bond) (body body' : Act α) (V : α → α → Prop) : Prop :=
  ∀ w v, β.Holds w v →
    γ.Holds (body.exec w).2 (body'.exec v).2 ∧ Alike V (body.exec w).1 (body'.exec v).1

abbrev InStep (β : Bond) (body body' : Act α) (V : α → α → Prop) : Prop :=
  β.Leads β body body' V

namespace Leads

variable {β γ δ : Bond} {body body' : Act α} {U V : α → α → Prop} {W : β' → β' → Prop}

theorem outcome (h : β.Leads γ body body' V) {w v : World} (hwv : β.Holds w v) :
    (∃ x y w' v', body.exec w = (.ok x, w') ∧ body'.exec v = (.ok y, v') ∧ γ.Holds w' v' ∧
        V x y) ∨
      ∃ e w' v', body.exec w = (.error e, w') ∧ body'.exec v = (.error e, v') ∧ γ.Holds w' v' :=
  Ends.outcome (h w v hwv)

theorem conseq (h : β.Leads γ body body' U) (hle : γ.Le δ) (hV : ∀ x y, U x y → V x y) :
    β.Leads δ body body' V := by
  intro w v hwv
  rcases h.outcome hwv with ⟨x, y, w', v', hout, hout', h', hU⟩ | ⟨e, w', v', hout, hout', h'⟩
  · rw [hout, hout']
    exact ⟨hle h', hV x y hU⟩
  · rw [hout, hout']
    exact ⟨hle h', rfl⟩

theorem pre (hle : β.Le γ) (h : γ.Leads δ body body' V) : β.Leads δ body body' V :=
  fun w v hwv => h w v (hle hwv)

/-- What holds together only worlds that are the same tells what becomes of one. -/
theorem right {body body' : Act α} (hsame : ∀ w v, β.Holds w v → v = w)
    (h : β.InStep body body' Eq) : β.InStep body' body' Eq := by
  intro w v hwv
  obtain rfl := hsame w v hwv
  obtain ⟨hholds, halike⟩ := h v v hwv
  have heq := hsame _ _ hholds
  rw [← heq] at hholds
  refine ⟨hholds, ?_⟩
  cases (body'.exec v).1 <;> rfl

theorem value {x y : α} (h : V x y) : β.InStep (pure x) (pure y) V :=
  fun _ _ hwv => ⟨hwv, h⟩

/-- What is done next may start from a bond that is looser than the one in which the first action
fails. -/
theorem bindLe {next next' : α → Act β'} (hbody : β.Leads γ body body' V)
    (hnext : ∀ x y, V x y → γ.Leads δ (next x) (next' y) W) (hle : γ.Le δ) :
    β.Leads δ (body >>= next) (body' >>= next') W := by
  intro w v hwv
  rcases hbody.outcome hwv with
    ⟨x, y, w', v', hout, hout', h', hV⟩ | ⟨e, w', v', hout, hout', h'⟩
  · rw [exec_bind_of_ok hout, exec_bind_of_ok hout']
    exact hnext x y hV w' v' h'
  · rw [exec_bind_of_error hout, exec_bind_of_error hout']
    exact ⟨hle h', rfl⟩

theorem bind {next next' : α → Act β'} (hbody : β.Leads γ body body' V)
    (hnext : ∀ x y, V x y → γ.InStep (next x) (next' y) W) :
    β.Leads γ (body >>= next) (body' >>= next') W :=
  hbody.bindLe hnext (.refl γ)

/-- What is done next is told the same value in both runs. -/
theorem andThen {next next' : α → Act β'} (hbody : β.Leads γ body body' Eq)
    (hnext : ∀ x, γ.InStep (next x) (next' x) W) :
    β.Leads γ (body >>= next) (body' >>= next') W :=
  hbody.bind fun x _ hxy => hxy ▸ hnext x

theorem discard (h : β.Leads γ body body' V) : β.Leads γ (discard body) (discard body') Eq :=
  h.bind fun _ _ _ => value rfl

theorem world : β.InStep (get : Act World) get fun w v => β.Holds w v :=
  fun _ _ hwv => ⟨hwv, hwv⟩

/-! ## Errors -/

section Errors

variable {e : ErrorId}

theorem failure : β.InStep (throw e : Act α) (throw e) V :=
  fun _ _ hwv => ⟨hwv, rfl⟩

theorem observe (h : β.Leads γ body body' V) :
    β.Leads γ (Act.observe body) (Act.observe body') (Alike V) :=
  h

theorem resume {x y : Except ErrorId α} (h : Alike V x y) :
    β.InStep (Act.resume x) (Act.resume y) V := by
  intro w v hwv
  rw [exec_resume, exec_resume]
  exact ⟨hwv, h⟩

theorem whileHandling (hbody : β.Leads γ body body' V) :
    β.Leads γ (Act.whileHandling e body) (Act.whileHandling e body') V := by
  intro w v hwv
  obtain ⟨h, halike⟩ := hbody _ _ (hwv.withHandling (some e))
  rw [exec_whileHandling, exec_whileHandling, hwv.handling]
  exact ⟨h.withHandling w.handling, halike⟩

theorem makeError (c : Complaint) : β.InStep (Act.makeError c) (Act.makeError c) Eq := by
  intro w v hwv
  rw [exec_makeError, exec_makeError, hwv.errors]
  exact ⟨hwv.withErrors _, rfl⟩

theorem raise : β.InStep (Act.raise e : Act α) (Act.raise e) V := by
  intro w v hwv
  rw [exec_raise, exec_raise, hwv.errors, hwv.handling]
  exact ⟨(hwv.withErrors _).withHandling w.handling, rfl⟩

theorem setCause (cause : Option ErrorId) :
    β.InStep (modify fun w => { w with errors := w.errors.setCause e cause } : Act Unit)
      (modify fun w => { w with errors := w.errors.setCause e cause }) Eq := by
  intro w v hwv
  rw [exec_modify, exec_modify, hwv.errors]
  exact ⟨hwv.withErrors _, rfl⟩

theorem complain (c : Complaint) :
    β.InStep (Act.complain c : Act α) (Act.complain c) V :=
  (makeError c).andThen fun _ => raise

theorem complaint : β.InStep (Act.complaint e) (Act.complaint e) Eq := by
  intro w v hwv
  rw [exec_complaint, exec_complaint, hwv.errors]
  exact ⟨hwv, rfl⟩

/-- What is handled may be told of two worlds alone. -/
theorem handle_at {handler handler' : ErrorId → Act α} {w v : World}
    (hbody : γ.Ends V (body.exec w) (body'.exec v))
    (hhandler : ∀ e, γ.InStep (handler e) (handler' e) V) :
    γ.Ends V ((Act.handle body handler).exec w) ((Act.handle body' handler').exec v) := by
  rw [exec_handle, exec_handle]
  rcases hbody.outcome with
    ⟨x, y, w', v', hout, hout', h', hV⟩ | ⟨e, w', v', hout, hout', h'⟩
  · rw [hout, hout']
    exact ⟨h', hV⟩
  · rw [hout, hout']
    dsimp only
    rw [h'.errors]
    split
    · exact ⟨h', rfl⟩
    · exact (hhandler e).whileHandling w' v' h'

theorem handle {handler handler' : ErrorId → Act α} (hbody : β.Leads γ body body' V)
    (hhandler : ∀ e, γ.InStep (handler e) (handler' e) V) :
    β.Leads γ (Act.handle body handler) (Act.handle body' handler') V :=
  fun w v hwv => handle_at (hbody w v hwv) hhandler

end Errors

section Units

variable {body body' cleanup cleanup' : Act Unit}

theorem andFinally_at {w v : World} (hbody : γ.Ends Eq (body.exec w) (body'.exec v))
    (hcleanup : γ.Leads δ cleanup cleanup' Eq) :
    δ.Ends Eq ((Act.andFinally body cleanup).exec w) ((Act.andFinally body' cleanup').exec v) := by
  rw [exec_andFinally, exec_andFinally]
  rcases hbody.outcome with ⟨x, y, w', v', hout, hout', h', -⟩ | ⟨e, w', v', hout, hout', h'⟩
  · rw [hout, hout']
    exact hcleanup w' v' h'
  · rw [hout, hout']
    exact hcleanup.whileHandling.bind (fun _ _ _ => failure) w' v' h'

theorem andFinally (hbody : β.Leads γ body body' Eq) (hcleanup : γ.Leads δ cleanup cleanup' Eq) :
    β.Leads δ (Act.andFinally body cleanup) (Act.andFinally body' cleanup') Eq :=
  fun w v hwv => andFinally_at (hbody w v hwv) hcleanup

theorem leaving_at {w v : World} (hbody : γ.Ends Eq (body.exec w) (body'.exec v)) :
    γ.Ends Eq ((Act.leaving body).exec w) ((Act.leaving body').exec v) := by
  rw [exec_leaving, exec_leaving]
  rcases hbody.outcome with ⟨x, y, w', v', hout, hout', h', -⟩ | ⟨e, w', v', hout, hout', h'⟩
  · rw [hout, hout']
    exact ⟨h', rfl⟩
  · rw [hout, hout']
    dsimp only
    rw [h'.errors]
    cases (w'.errors.get e).kind.refusalToLeave with
    | none => exact ⟨h', rfl⟩
    | some refusal => exact (complain refusal).whileHandling w' v' h'

theorem leaving (hbody : β.Leads γ body body' Eq) :
    β.Leads γ (Act.leaving body) (Act.leaving body') Eq :=
  fun w v hwv => leaving_at (hbody w v hwv)

/-! ## Sessions and logs -/

theorem modifySession {change change' : Session → Session}
    (h : ∀ s t, β.Accords s t → β.Accords (change s) (change' t)) :
    β.InStep (Act.modifySession change) (Act.modifySession change') Eq :=
  fun _ _ hwv => ⟨hwv.withSession (h _ _ hwv.session), rfl⟩

theorem emit (event : Event) : β.InStep (Act.emit event) (Act.emit event) Eq :=
  modifySession fun _ _ h => h.emit event

/-- What is logged is the same where it matters. -/
theorem log {record record' : LogRecord} (h : β.states = true → record' = record) :
    β.InStep (Act.log record) (Act.log record') Eq := by
  intro w v hwv
  refine ⟨hwv.withJournal fun hstates => ?_, rfl⟩
  rw [hwv.journal hstates, h hstates]

theorem augment (e : ErrorId) (seeds : List Seed) :
    β.InStep (Act.augment e seeds) (Act.augment e seeds) Eq := by
  intro w v hwv
  rw [exec_augment, exec_augment, hwv.errors]
  have hwv' := hwv.withErrors (w.errors.augment e seeds).2
  generalize w.errors.augment e seeds = result at hwv' ⊢
  obtain ⟨_ | text | c, errors⟩ := result
  · exact ⟨hwv', rfl⟩
  · exact log (fun _ => rfl) _ _ hwv'
  · exact complain c _ _ hwv'

end Units

/-! ## Contexts -/

theorem currentContext : β.InStep Act.currentContext Act.currentContext fun c d => ∃ s t,
    β.stack s t ∧ c = { β.context with stack := s } ∧ d = { β.context with stack := t } := by
  intro w v hwv
  obtain ⟨s, t, hstacks, hw, hv⟩ := hwv.contexts
  rw [exec_currentContext, exec_currentContext, hw, hv]
  exact ⟨hwv, s, t, hstacks, rfl, rfl⟩

/-- The stacks of the innermost contexts are replaced. -/
theorem setStack {R : ContextStack RandomSource → ContextStack RandomSource → Prop}
    {s t : ContextStack RandomSource} (hstacks : R s t) :
    β.Leads (β.around R) (Act.setStack s) (Act.setStack t) Eq := by
  intro w v hwv
  obtain ⟨s', t', -, hw, hv⟩ := hwv.contexts
  rw [exec_setStack, exec_setStack, hw, hv]
  exact ⟨hwv.withStacks hstacks, rfl⟩

/-- A source is pushed on both stacks. -/
theorem push {R : ContextStack RandomSource → ContextStack RandomSource → Prop}
    {source source' : RandomSource} (h : ∀ s t, β.stack s t → R (source :: s) (source' :: t)) :
    β.Leads (β.around R) (Act.push source) (Act.push source') Eq := by
  intro w v hwv
  obtain ⟨s, t, hstacks, hw, hv⟩ := hwv.contexts
  rw [exec_push, exec_push, hw, hv]
  exact ⟨hwv.withStacks (h s t hstacks), rfl⟩

/-- A source is popped from both stacks if there is one. -/
theorem pop {R : ContextStack RandomSource → ContextStack RandomSource → Prop}
    (h : ∀ s t, β.stack s t → (s = [] ∧ t = [] ∧ R [] []) ∨
      ∃ a b r r', s = a :: r ∧ t = b :: r' ∧ R r r') :
    β.Leads (β.around R) Act.pop Act.pop fun _ _ => True := by
  intro w v hwv
  obtain ⟨s, t, hstacks, hw, hv⟩ := hwv.contexts
  rcases h s t hstacks with ⟨rfl, rfl, hR⟩ | ⟨a, b, r, r', rfl, rfl, hR⟩
  · have hwv' : (β.around R).Holds w v := { hwv with contexts := ⟨[], [], hR, hw, hv⟩ }
    rw [exec_pop, exec_pop, hw, hv]
    exact complain _ w v hwv'
  · rw [exec_pop, exec_pop, hw, hv]
    exact ⟨hwv.withStacks hR, trivial⟩

section Scopes

variable {R : ContextStack RandomSource → ContextStack RandomSource → Prop}
  {source source' : RandomSource} {body body' cleanup cleanup' : Act Unit}

/-- Within scopes another relation of stacks holds. -/
theorem scope (hbody : (β.around R).InStep body body' Eq)
    (hcleanup : (β.around R).Leads β cleanup cleanup' Eq)
    (henter : ∀ s t, β.stack s t → R (source :: s) (source' :: t)) :
    β.InStep
      (do
        Act.push source
        Act.leaving (Act.andFinally body cleanup))
      (do
        Act.push source'
        Act.leaving (Act.andFinally body' cleanup')) Eq := by
  intro w v hwv
  obtain ⟨s, t, hstacks, hw, hv⟩ := hwv.contexts
  rw [exec_bind, exec_bind, exec_push, exec_push, hw, hv]
  exact (hbody.andFinally hcleanup).leaving _ _ (hwv.withStacks (henter s t hstacks))

theorem inScope (hbody : (β.around R).InStep body body' Eq)
    (henter : ∀ s t, β.stack s t → R (source :: s) (source' :: t))
    (hleave : ∀ s t, R s t → (s = [] ∧ t = [] ∧ β.stack [] []) ∨
      ∃ a b r r', s = a :: r ∧ t = b :: r' ∧ β.stack r r') :
    β.InStep (Act.inScope source body) (Act.inScope source' body') Eq :=
  scope hbody (pop (β := β.around R) hleave).discard henter

end Scopes

end Leads

/-! ## Stacks that are the same -/

/-- The stacks are the same, and remain so whatever is drawn. -/
structure Tight (β : Bond) : Prop where
  same : ∀ s t, β.stack s t → t = s
  redrawn : ∀ source source' rest, β.stack (source :: rest) (source :: rest) →
    source'.seed = source.seed → β.stack (source' :: rest) (source' :: rest)

/-- Where a source is active in one run, one with its seed is in the other. -/
def SameSeed (β : Bond) : Prop :=
  β.InStep Act.currentSource Act.currentSource fun source source' => source'.seed = source.seed

/-- Nothing is known of the stacks but that they are the same. -/
def Free (β : Bond) : Prop :=
  β.stack = fun s t => t = s

theorem Free.tight {β : Bond} (h : β.Free) : β.Tight where
  same s t hstacks := by rwa [h] at hstacks
  redrawn source source' rest _ _ := by rw [h]

namespace Leads

variable {β : Bond}

theorem ofStack (outcome : Except ContextError α) :
    β.InStep (Act.ofStack outcome) (Act.ofStack outcome) Eq := by
  cases outcome with
  | ok value => exact .value rfl
  | error e => exact complain _

section Tight

variable (h : β.Tight)

include h

theorem currentContext_eq : β.InStep Act.currentContext Act.currentContext Eq := by
  refine currentContext.conseq (.refl β) ?_
  rintro c d ⟨s, t, hstacks, rfl, rfl⟩
  rw [h.same s t hstacks]

theorem currentSource_eq : β.InStep Act.currentSource Act.currentSource Eq :=
  (currentContext_eq h).andThen fun _ => ofStack _

/-- Hooks are put in the same order. -/
theorem sameSeed_of_tight : β.SameSeed :=
  (currentSource_eq h).conseq (.refl β) fun _ _ heq => heq ▸ rfl

theorem draw_eq {take : RandomSource → α × RandomSource}
    (htake : ∀ source, (take source).2.seed = source.seed) :
    β.InStep (Act.draw take) (Act.draw take) Eq := by
  intro w v hwv
  obtain ⟨s, t, hstacks, hw, hv⟩ := hwv.contexts
  obtain rfl := h.same s t hstacks
  rw [exec_draw, exec_draw, hw, hv]
  cases t with
  | nil => exact complain _ w v hwv
  | cons source rest =>
      exact ⟨hwv.withStacks (h.redrawn source _ rest hstacks (htake source)), rfl⟩

end Tight

section Free

variable (h : β.Free)

include h

theorem setStack_eq (stack : ContextStack RandomSource) :
    β.InStep (Act.setStack stack) (Act.setStack stack) Eq :=
  setStack (R := β.stack) (by rw [h])

theorem push_eq (source : RandomSource) : β.InStep (Act.push source) (Act.push source) Eq :=
  push (R := β.stack) fun s t hst => by rw [h] at hst ⊢; rw [hst]

theorem pop_eq : β.InStep Act.pop Act.pop Eq :=
  (currentContext_eq h.tight).andThen fun _ => (ofStack _).andThen fun _ =>
    (setStack_eq h _).andThen fun _ => value rfl

theorem inScope_eq {source : RandomSource} {body body' : Act Unit}
    (hbody : β.InStep body body' Eq) :
    β.InStep (Act.inScope source body) (Act.inScope source body') Eq :=
  (push_eq h source).andThen fun _ => (hbody.andFinally (pop_eq h).discard).leaving

end Free
end Leads
end SeededTesting.Bond

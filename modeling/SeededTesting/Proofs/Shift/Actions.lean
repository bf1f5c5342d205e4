import SeededTesting.Proofs.Act.Scopes
import SeededTesting.Proofs.Shift.Worlds

/-! # Actions along a shift

Two actions correspond along a shift if from related worlds they end alike, in related worlds, and
name the errors that were made since as the shift does. The rules below follow the combinators of
actions; a number bounds from below how many errors there are when an action starts, so that errors
which were made before can be referred to.
-/

namespace SeededTesting

/-- The same value on both sides. -/
abbrev Same {α : Type} (x y : α) (_ : Nat) : Prop :=
  x = y

namespace Shift

open Act

variable (κ : Shift)

/-- One error, by its names in both worlds. -/
def Named (e e' : ErrorId) (size : Nat) : Prop :=
  κ.Fresh size e ∧ e' = κ.place e

def Ends {α : Type} (V : α → α → Nat → Prop) (size : Nat) :
    Except ErrorId α → Except ErrorId α → Prop
  | .ok x, .ok y => V x y size
  | .error e, .error e' => κ.Named e e' size
  | _, _ => False

/-- Two actions do the same along a shift, wherever at least `n` errors were made. -/
def Corresponds {α : Type} (n : Nat) (body body' : Act α) (V : α → α → Nat → Prop) : Prop :=
  ∀ small large, κ.Relates small large → n ≤ small.errors.size →
    κ.Relates (body.exec small).2 (body'.exec large).2 ∧
      small.errors.size ≤ (body.exec small).2.errors.size ∧
      κ.Ends V (body.exec small).2.errors.size (body.exec small).1 (body'.exec large).1

variable {κ}

theorem Named.mono {e e' : ErrorId} {m n : Nat} (h : κ.Named e e' m) (hmn : m ≤ n) :
    κ.Named e e' n :=
  ⟨h.1.mono hmn, h.2⟩

section Ends

variable {α : Type} {V : α → α → Nat → Prop} {m n : Nat} {outcome outcome' : Except ErrorId α}

/-- Both end with values, or both with an error. -/
theorem Ends.inversion (h : κ.Ends V n outcome outcome') :
    (∃ x y, outcome = .ok x ∧ outcome' = .ok y ∧ V x y n) ∨
      ∃ e e', outcome = .error e ∧ outcome' = .error e' ∧ κ.Named e e' n := by
  rcases outcome with e | x <;> rcases outcome' with e' | y
  · exact .inr ⟨e, e', rfl, rfl, h⟩
  · exact h.elim
  · exact h.elim
  · exact .inl ⟨x, y, rfl, rfl, h⟩

theorem Ends.mono (h : κ.Ends V m outcome outcome') (hmn : m ≤ n)
    (hV : ∀ x y, V x y m → V x y n) : κ.Ends V n outcome outcome' := by
  obtain ⟨x, y, rfl, rfl, hxy⟩ | ⟨e, e', rfl, rfl, he⟩ := h.inversion
  · exact hV x y hxy
  · exact Named.mono he hmn

end Ends

namespace Corresponds

variable {α β : Type} {m n : Nat} {body body' : Act α} {U V : α → α → Nat → Prop}
  {W : β → β → Nat → Prop}

/-- The two ways in which corresponding actions may end. -/
theorem outcome (hbody : κ.Corresponds n body body' V) {small large : World}
    (h : κ.Relates small large) (hn : n ≤ small.errors.size) :
    (∃ x y small' large', body.exec small = (.ok x, small') ∧
        body'.exec large = (.ok y, large') ∧ κ.Relates small' large' ∧
        small.errors.size ≤ small'.errors.size ∧ V x y small'.errors.size) ∨
      ∃ e e' small' large', body.exec small = (.error e, small') ∧
        body'.exec large = (.error e', large') ∧ κ.Relates small' large' ∧
        small.errors.size ≤ small'.errors.size ∧ κ.Named e e' small'.errors.size := by
  obtain ⟨hrelates, hsize, hends⟩ := hbody small large h hn
  generalize body.exec small = left at *
  generalize body'.exec large = right at *
  obtain ⟨outcome, small'⟩ := left
  obtain ⟨outcome', large'⟩ := right
  obtain ⟨x, y, rfl, rfl, hxy⟩ | ⟨e, e', rfl, rfl, he⟩ := hends.inversion
  · exact .inl ⟨x, y, small', large', rfl, rfl, hrelates, hsize, hxy⟩
  · exact .inr ⟨e, e', small', large', rfl, rfl, hrelates, hsize, he⟩

theorem mono (h : κ.Corresponds m body body' V) (hmn : m ≤ n) : κ.Corresponds n body body' V :=
  fun small large hrelates hn => h small large hrelates (Nat.le_trans hmn hn)

theorem value {x y : α} (h : ∀ m, n ≤ m → V x y m) :
    κ.Corresponds n (pure x) (pure y) V :=
  fun _ _ hrelates hn => ⟨hrelates, Nat.le_refl _, h _ hn⟩

theorem bind {next next' : α → Act β} (hbody : κ.Corresponds n body body' V)
    (hnext : ∀ x y m, n ≤ m → V x y m → κ.Corresponds m (next x) (next' y) W) :
    κ.Corresponds n (body >>= next) (body' >>= next') W := by
  intro small large h hn
  rcases hbody.outcome h hn with
    ⟨x, y, small', large', hout, hout', h', hsize, hV⟩ |
      ⟨e, e', small', large', hout, hout', h', hsize, he⟩
  · rw [exec_bind_of_ok hout, exec_bind_of_ok hout']
    obtain ⟨h'', hsize', hends⟩ :=
      hnext x y small'.errors.size (Nat.le_trans hn hsize) hV small' large' h' (Nat.le_refl _)
    exact ⟨h'', Nat.le_trans hsize hsize', hends⟩
  · rw [exec_bind_of_error hout, exec_bind_of_error hout']
    exact ⟨h', hsize, he⟩

/-- What is done next needs no more than the value, which is the same on both sides. -/
theorem andThen {next next' : α → Act β} (hbody : κ.Corresponds n body body' Same)
    (hnext : ∀ x, κ.Corresponds n (next x) (next' x) W) :
    κ.Corresponds n (body >>= next) (body' >>= next') W :=
  hbody.bind fun x _ _ hm hxy => hxy ▸ (hnext x).mono hm

theorem discard (h : κ.Corresponds n body body' V) :
    κ.Corresponds n (discard body) (discard body') Same :=
  h.bind fun _ _ _ _ _ => value fun _ _ => rfl

theorem world :
    κ.Corresponds n (get : Act World) get fun small large _ => κ.Relates small large ∧
      n ≤ small.errors.size :=
  fun _ _ hrelates hn => ⟨hrelates, Nat.le_refl _, hrelates, hn⟩

/-! ## Errors -/

section Errors

variable {e e' : ErrorId}

theorem failure (he : κ.Named e e' n) : κ.Corresponds n (throw e : Act α) (throw e') V :=
  fun _ _ hrelates hn => ⟨hrelates, Nat.le_refl _, he.mono hn⟩

theorem observe (h : κ.Corresponds n body body' V) :
    κ.Corresponds n (Act.observe body) (Act.observe body') fun x y m => κ.Ends V m x y :=
  h

theorem resume {x y : Except ErrorId α} (h : ∀ m, n ≤ m → κ.Ends V m x y) :
    κ.Corresponds n (Act.resume x) (Act.resume y) V := by
  intro small large hrelates hn
  rw [exec_resume, exec_resume]
  exact ⟨hrelates, Nat.le_refl _, h _ hn⟩

theorem whileHandling (he : κ.Named e e' n) (hbody : κ.Corresponds n body body' V) :
    κ.Corresponds n (Act.whileHandling e body) (Act.whileHandling e' body') V := by
  intro small large h hn
  have hhandled : κ.Relates { small with handling := some e } { large with handling := some e' } :=
    h.withHandling (congrArg some he.2)
  obtain ⟨h', hsize, hends⟩ := hbody _ _ hhandled hn
  rw [exec_whileHandling, exec_whileHandling]
  exact ⟨h'.withHandling h.handling, hsize, hends⟩

theorem makeError (c : Complaint) :
    κ.Corresponds n (Act.makeError c) (Act.makeError c) κ.Named := by
  intro small large h _
  have hsize : small.errors.size ≤ (small.errors.add c).2.size := by simp
  refine ⟨h.withErrors (h.errors.add c) hsize, hsize, ⟨h.errors.near.1, ?_⟩, ?_⟩
  · exact Nat.lt_of_lt_of_eq (Nat.lt_succ_self _) (small.errors.size_add c).symm
  · exact h.errors.place_size.symm

theorem raise (he : κ.Named e e' n) :
    κ.Corresponds n (Act.raise e : Act α) (Act.raise e') V := by
  intro small large h hn
  obtain ⟨hfresh, rfl⟩ := he
  have hsize : small.errors.size ≤ (small.errors.linkRaised small.handling e).size := by simp
  have hmatches := h.errors.linkRaised small.handling hfresh.1
  rw [← h.handling] at hmatches
  rw [exec_raise, exec_raise]
  exact ⟨h.withErrors hmatches hsize, hsize, hfresh.mono (Nat.le_trans hn hsize), rfl⟩

theorem setCause {cause cause' : Option ErrorId} (he : κ.Named e e' n)
    (hcause : cause' = cause.map κ.place) :
    κ.Corresponds n (modify fun w => { w with errors := w.errors.setCause e cause } : Act Unit)
      (modify fun w => { w with errors := w.errors.setCause e' cause' }) Same := by
  intro small large h _
  obtain ⟨hfresh, rfl⟩ := he
  subst hcause
  have hsize : small.errors.size ≤ (small.errors.setCause e cause).size :=
    Nat.le_of_eq (ErrorStore.size_update _ _ _).symm
  exact ⟨h.withErrors (h.errors.setCause hfresh.1 cause) hsize, hsize, rfl⟩

theorem complain (c : Complaint) :
    κ.Corresponds n (Act.complain c : Act α) (Act.complain c) V :=
  (makeError c).bind fun _ _ _ _ he => raise he

theorem complaint (he : κ.Named e e' n) :
    κ.Corresponds n (Act.complaint e) (Act.complaint e') Same := by
  intro small large h _
  obtain ⟨-, rfl⟩ := he
  rw [exec_complaint, exec_complaint, h.errors.toComplaint]
  exact ⟨h, Nat.le_refl _, rfl⟩

/-- Handlers are told of the same errors. -/
theorem handle {handler handler' : ErrorId → Act α} (hbody : κ.Corresponds n body body' V)
    (hhandler : ∀ e e' m, n ≤ m → κ.Named e e' m →
      κ.Corresponds m (handler e) (handler' e') V) :
    κ.Corresponds n (Act.handle body handler) (Act.handle body' handler') V := by
  intro small large h hn
  rw [exec_handle, exec_handle]
  rcases hbody.outcome h hn with
    ⟨x, y, small', large', hout, hout', h', hsize, hV⟩ |
      ⟨e, e', small', large', hout, hout', h', hsize, he⟩
  · rw [hout, hout']
    exact ⟨h', hsize, hV⟩
  · rw [hout, hout']
    dsimp only
    rw [he.2, h'.errors.toComplaint, ← he.2]
    split
    · exact ⟨h', hsize, he⟩
    · have hhandled := whileHandling he (hhandler e e' _ (Nat.le_trans hn hsize) he)
      obtain ⟨h'', hsize', hends⟩ := hhandled small' large' h' (Nat.le_refl _)
      exact ⟨h'', Nat.le_trans hsize hsize', hends⟩

end Errors

section Units

variable {body body' cleanup cleanup' : Act Unit}

theorem andFinally (hbody : κ.Corresponds n body body' Same)
    (hcleanup : κ.Corresponds n cleanup cleanup' Same) :
    κ.Corresponds n (Act.andFinally body cleanup) (Act.andFinally body' cleanup') Same := by
  refine hbody.observe.bind fun outcome outcome' m hm hends => ?_
  obtain ⟨_, _, rfl, rfl, -⟩ | ⟨e, e', rfl, rfl, he⟩ := hends.inversion
  · exact hcleanup.mono hm
  · refine (whileHandling he (hcleanup.mono hm)).bind fun _ _ _ hm' _ => ?_
    exact failure (Named.mono he hm')

theorem leaving (hbody : κ.Corresponds n body body' Same) :
    κ.Corresponds n (Act.leaving body) (Act.leaving body') Same := by
  refine hbody.observe.bind fun outcome outcome' m hm hends => ?_
  obtain ⟨_, _, rfl, rfl, -⟩ | ⟨e, e', rfl, rfl, he⟩ := hends.inversion
  · exact value fun _ _ => rfl
  · refine (complaint he).andThen fun c => ?_
    cases c.kind.refusalToLeave with
    | none => exact failure he
    | some refusal => exact whileHandling he (complain refusal)

/-! ## Sessions and logs -/

theorem modifySession {change change' : Session → Session}
    (h : ∀ size s t, n ≤ size → κ.Accords size s t → κ.Accords size (change s) (change' t)) :
    κ.Corresponds n (Act.modifySession change) (Act.modifySession change') Same :=
  fun _ _ hrelates hn =>
    ⟨hrelates.withSession (h _ _ _ hn hrelates.session), Nat.le_refl _, rfl⟩

theorem emit (event : Event) :
    κ.Corresponds n (Act.emit event) (Act.emit (κ.event event)) Same :=
  modifySession fun _ _ _ _ h => h.emit event

/-- What is logged is not looked at. -/
theorem log (record record' : LogRecord) :
    κ.Corresponds n (Act.log record) (Act.log record') Same :=
  fun _ _ h _ => ⟨h.withJournal _ _, Nat.le_refl _, rfl⟩

theorem augment {e e' : ErrorId} (he : κ.Named e e' n) (seeds : List Seed) :
    κ.Corresponds n (Act.augment e seeds) (Act.augment e' seeds) Same := by
  intro small large h hn
  obtain ⟨hfresh, rfl⟩ := he
  obtain ⟨hrecording, hmatches⟩ := h.errors.augment hfresh.1 seeds
  have hsize : small.errors.size ≤ (small.errors.augment e seeds).2.size :=
    Nat.le_of_eq (ErrorStore.size_update _ _ _).symm
  have h' := h.withErrors hmatches hsize
  rw [exec_augment, exec_augment]
  rcases hsmall : small.errors.augment e seeds with ⟨recording, s⟩
  rcases hlarge : large.errors.augment (κ.place e) seeds with ⟨recording', t⟩
  rw [hsmall, hlarge] at hrecording h'
  rw [hsmall] at hsize
  cases hrecording
  cases recording with
  | done => exact ⟨h', hsize, rfl⟩
  | refused text =>
      exact ⟨h'.withJournal _ _, hsize, rfl⟩
  | failed c =>
      obtain ⟨h'', hsize', hends⟩ := complain (V := Same) c _ _ h' (Nat.le_trans hn hsize)
      exact ⟨h'', Nat.le_trans hsize hsize', hends⟩

end Units

/-! ## Contexts -/

theorem currentContext :
    κ.Corresponds n Act.currentContext Act.currentContext Same := by
  intro small large h hn
  rw [exec_currentContext, exec_currentContext, h.contexts]
  cases small.contexts with
  | nil => exact complain _ small large h hn
  | cons context outer => exact ⟨h, Nat.le_refl _, rfl⟩

theorem ofStack (outcome : Except ContextError α) :
    κ.Corresponds n (Act.ofStack outcome) (Act.ofStack outcome) Same := by
  cases outcome with
  | ok value => exact .value fun _ _ => rfl
  | error e => exact complain _

theorem currentSource : κ.Corresponds n Act.currentSource Act.currentSource Same :=
  currentContext.andThen fun _ => ofStack _

theorem setStack (stack : ContextStack RandomSource) :
    κ.Corresponds n (Act.setStack stack) (Act.setStack stack) Same := by
  intro small large h _
  rw [exec_setStack, exec_setStack, h.contexts]
  cases small.contexts with
  | nil => exact ⟨h, Nat.le_refl _, rfl⟩
  | cons context outer => exact ⟨h.withContexts _, Nat.le_refl _, rfl⟩

theorem draw (take : RandomSource → α × RandomSource) :
    κ.Corresponds n (Act.draw take) (Act.draw take) Same :=
  currentSource.andThen fun _ => currentContext.andThen fun _ => (setStack _).andThen fun _ =>
    value fun _ _ => rfl

theorem push (source : RandomSource) :
    κ.Corresponds n (Act.push source) (Act.push source) Same :=
  currentContext.andThen fun _ => setStack _

theorem pop : κ.Corresponds n Act.pop Act.pop Same :=
  currentContext.andThen fun _ => (ofStack _).andThen fun _ => (setStack _).andThen fun _ =>
    value fun _ _ => rfl

theorem inScope {body body' : Act Unit} {source : RandomSource}
    (hbody : κ.Corresponds n body body' Same) :
    κ.Corresponds n (Act.inScope source body) (Act.inScope source body') Same :=
  (push source).andThen fun _ => (andFinally hbody pop.discard).leaving

theorem enterContext (context : RunContext) :
    κ.Corresponds n (Act.enterContext context) (Act.enterContext context) Same := by
  intro small large h _
  rw [exec_enterContext, exec_enterContext, h.contexts]
  exact ⟨h.withContexts _, Nat.le_refl _, rfl⟩

theorem leaveContext : κ.Corresponds n Act.leaveContext Act.leaveContext Same := by
  refine (setStack []).andThen fun _ small large h _ => ?_
  have hsession : κ.Accords small.errors.size
      { small.session with lastContext := small.contexts.head? }
      { large.session with lastContext := small.contexts.head? } := { h.session with }
  rw [exec_modify, exec_modify, h.contexts]
  exact ⟨(h.withContexts small.contexts.tail).withSession hsession, Nat.le_refl _, rfl⟩

theorem activate {body body' : Act Unit} {context : RunContext}
    (hbody : κ.Corresponds n body body' Same) :
    κ.Corresponds n (Act.activate context body) (Act.activate context body') Same :=
  (enterContext context).andThen fun _ => (andFinally hbody leaveContext).leaving

end Corresponds
end Shift
end SeededTesting

import SeededTesting.Run.Act

/-! # Executing actions

An action is a function from a world to how it ends and the world that it leaves. This module says
what each combinator and each primitive does as such a function; later modules reason from these
equations and do not open the definitions again.
-/

namespace SeededTesting.Act

variable {α β : Type}

/-- How an action ends in a world, and the world that it leaves. -/
def exec (body : Act α) (w : World) : Except ErrorId α × World :=
  body.run.run w

@[simp] theorem exec_pure (value : α) (w : World) :
    (pure value : Act α).exec w = (.ok value, w) := rfl

theorem exec_bind (body : Act α) (next : α → Act β) (w : World) :
    (body >>= next).exec w = match body.exec w with
      | (.ok value, w') => (next value).exec w'
      | (.error e, w') => (.error e, w') := by
  simp only [exec, ExceptT.run_bind, StateT.run_bind]
  generalize body.run.run w = result
  rcases result with ⟨_ | _, w'⟩ <;> rfl

theorem exec_bind_of_ok {body : Act α} {next : α → Act β} {w w' : World} {value : α}
    (hbody : body.exec w = (.ok value, w')) : (body >>= next).exec w = (next value).exec w' := by
  rw [exec_bind, hbody]

theorem exec_bind_of_error {body : Act α} {next : α → Act β} {w w' : World} {e : ErrorId}
    (hbody : body.exec w = (.error e, w')) : (body >>= next).exec w = (.error e, w') := by
  rw [exec_bind, hbody]

theorem exec_bind_eq_ok_iff {body : Act α} {next : α → Act β} {w v : World} {value : β} :
    (body >>= next).exec w = (.ok value, v) ↔
      ∃ x u, body.exec w = (.ok x, u) ∧ (next x).exec u = (.ok value, v) := by
  rw [exec_bind]
  rcases body.exec w with ⟨e | x, u⟩ <;> simp [and_assoc]

@[simp] theorem exec_throw (e : ErrorId) (w : World) :
    (throw e : Act α).exec w = (.error e, w) := rfl

@[simp] theorem exec_get (w : World) : (get : Act World).exec w = (.ok w, w) := rfl

@[simp] theorem exec_set (v w : World) : (set v : Act Unit).exec w = (.ok (), v) := rfl

@[simp] theorem exec_modify (change : World → World) (w : World) :
    (modify change : Act Unit).exec w = (.ok (), change w) := rfl

@[simp] theorem exec_modifyGet (change : World → α × World) (w : World) :
    (modifyGet change : Act α).exec w = (.ok (change w).1, (change w).2) := rfl

@[simp] theorem exec_map (f : α → β) (body : Act α) (w : World) :
    (f <$> body).exec w = ((body.exec w).1.map f, (body.exec w).2) := by
  rw [← bind_pure_comp, exec_bind]
  rcases body.exec w with ⟨_ | _, w'⟩ <;> rfl

@[simp] theorem exec_discard (body : Act α) (w : World) :
    (discard body).exec w = ((body.exec w).1.map fun _ => (), (body.exec w).2) :=
  exec_map (fun _ => ()) body w

/-! ## Errors -/

@[simp] theorem exec_observe (body : Act α) (w : World) :
    (observe body).exec w = (.ok (body.exec w).1, (body.exec w).2) := rfl

@[simp] theorem exec_resume (outcome : Except ErrorId α) (w : World) :
    (resume outcome).exec w = (outcome, w) := by
  cases outcome <;> rfl

theorem exec_whileHandling (e : ErrorId) (body : Act α) (w : World) :
    (whileHandling e body).exec w =
      ((body.exec { w with handling := some e }).1,
        { (body.exec { w with handling := some e }).2 with handling := w.handling }) := by
  simp [whileHandling, exec_bind]

@[simp] theorem exec_makeError (c : Complaint) (w : World) :
    (makeError c).exec w =
      (.ok (w.errors.add c).1, { w with errors := (w.errors.add c).2 }) := rfl

@[simp] theorem exec_raise (e : ErrorId) (w : World) :
    (raise e : Act α).exec w =
      (.error e, { w with errors := w.errors.linkRaised w.handling e }) := by
  simp [raise, exec_bind]

@[simp] theorem exec_complaint (e : ErrorId) (w : World) :
    (complaint e).exec w = (.ok (w.errors.get e).toComplaint, w) := by
  simp [complaint, Except.map]

theorem exec_handle (body : Act α) (handler : ErrorId → Act α) (w : World) :
    (handle body handler).exec w = match body.exec w with
      | (.ok value, w') => (.ok value, w')
      | (.error e, w') =>
        if (w'.errors.get e).kind.interrupt then (.error e, w')
        else (whileHandling e (handler e)).exec w' := by
  simp only [handle, exec_bind, exec_observe]
  rcases body.exec w with ⟨e | value, w'⟩
  · by_cases hkind : (w'.errors.get e).kind.interrupt <;> simp [exec_bind, hkind]
  · rfl

theorem exec_andFinally (body cleanup : Act Unit) (w : World) :
    (andFinally body cleanup).exec w = match body.exec w with
      | (.ok (), w') => cleanup.exec w'
      | (.error e, w') => (do whileHandling e cleanup; throw e : Act Unit).exec w' := by
  simp only [andFinally, exec_bind (observe body), exec_observe]
  rcases body.exec w with ⟨e | value, w'⟩ <;> rfl

theorem exec_leaving (body : Act Unit) (w : World) :
    (leaving body).exec w = match body.exec w with
      | (.ok (), w') => (.ok (), w')
      | (.error e, w') => match (w'.errors.get e).kind.refusalToLeave with
        | none => (.error e, w')
        | some refusal => (whileHandling e (complain refusal) : Act Unit).exec w' := by
  simp only [leaving, exec_bind (observe body), exec_observe]
  rcases body.exec w with ⟨e | value, w'⟩
  · simp only [exec_bind, exec_complaint]
    cases (w'.errors.get e).kind.refusalToLeave <;> rfl
  · rfl

/-! ## Sessions and logs -/

@[simp] theorem exec_emit (event : Event) (w : World) :
    (emit event).exec w =
      (.ok (), { w with session := { w.session with trace := w.session.trace.push event } }) := rfl

theorem exec_augment (e : ErrorId) (seeds : List Seed) (w : World) :
    (augment e seeds).exec w = match w.errors.augment e seeds with
      | (.done, errors) => (.ok (), { w with errors })
      | (.refused text, errors) =>
        (log ((w.errors.get e).refusalRecord seeds text)).exec { w with errors }
      | (.failed c, errors) => (complain c : Act Unit).exec { w with errors } := by
  simp only [augment, exec_bind, exec_get]
  rcases w.errors.augment e seeds with ⟨_ | _ | _, errors⟩ <;> rfl

/-! ## Contexts -/

theorem exec_currentContext (w : World) :
    currentContext.exec w = match w.contexts with
      | [] => (complain ContextError.noRun.complaint : Act RunContext).exec w
      | context :: _ => (.ok context, w) := by
  simp only [currentContext, exec_bind, exec_get]
  cases w.contexts <;> rfl

@[simp] theorem exec_setStack (stack : ContextStack RandomSource) (w : World) :
    (setStack stack).exec w = match w.contexts with
      | [] => (.ok (), w)
      | context :: outer => (.ok (), { w with contexts := { context with stack } :: outer }) := by
  simp only [setStack, exec_modify]
  cases w.contexts <;> rfl

@[simp] theorem exec_enterContext (context : RunContext) (w : World) :
    (enterContext context).exec w = (.ok (), { w with contexts := context :: w.contexts }) := rfl

end SeededTesting.Act

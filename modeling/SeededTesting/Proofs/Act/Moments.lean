import SeededTesting.Run.Act

/-! # Programs with their moments

A program that changes a state and may fail can be taken together with the moments that it goes
through. What the program does is one component of this, so that nothing has to be said about it
twice; what may be said of its moments is put together as the program is.
-/

namespace SeededTesting

/-- A program together with the moments that it goes through from a state on, in order. -/
structure Traced (ε σ μ α : Type) where
  act : ExceptT ε (StateM σ) α
  moments : σ → List μ

namespace Traced

variable {ε σ μ α β : Type}

/-- How a program ends in a state, and the state that it leaves. -/
def exec (body : Traced ε σ μ α) (s : σ) : Except ε α × σ :=
  body.act.run.run s

instance : Monad (Traced ε σ μ) where
  pure value := ⟨pure value, fun _ => []⟩
  bind body next := {
    act := body.act >>= fun x => (next x).act
    moments := fun s => body.moments s ++ match body.exec s with
      | (.ok x, t) => (next x).moments t
      | (.error _, _) => [] }

/-- What is done without a moment of its own. -/
instance : MonadLift (ExceptT ε (StateM σ)) (Traced ε σ μ) where
  monadLift body := ⟨body, fun _ => []⟩

/-- What runs a program first and goes on without a moment of its own. -/
def around (f : ExceptT ε (StateM σ) α → ExceptT ε (StateM σ) β) (body : Traced ε σ μ α) :
    Traced ε σ μ β where
  act := f body.act
  moments := body.moments

/-- A program with a moment in the end, whichever way it ends. -/
def mark (moment : σ → Except ε α → σ → μ) (body : Traced ε σ μ α) : Traced ε σ μ α where
  act := body.act
  moments s := body.moments s ++ [moment s (body.exec s).1 (body.exec s).2]

@[simp] theorem act_bind (body : Traced ε σ μ α) (next : α → Traced ε σ μ β) :
    (body >>= next).act = body.act >>= fun x => (next x).act := rfl

@[simp] theorem act_pure (value : α) : (pure value : Traced ε σ μ α).act = pure value := rfl

@[simp] theorem act_lift (body : ExceptT ε (StateM σ) α) :
    (liftM body : Traced ε σ μ α).act = body := rfl

@[simp] theorem act_around (f : ExceptT ε (StateM σ) α → ExceptT ε (StateM σ) β)
    (body : Traced ε σ μ α) : (body.around f).act = f body.act := rfl

@[simp] theorem act_mark (moment : σ → Except ε α → σ → μ) (body : Traced ε σ μ α) :
    (body.mark moment).act = body.act := rfl

@[simp] theorem moments_lift (body : ExceptT ε (StateM σ) α) (s : σ) :
    (liftM body : Traced ε σ μ α).moments s = [] := rfl

@[simp] theorem moments_around (f : ExceptT ε (StateM σ) α → ExceptT ε (StateM σ) β)
    (body : Traced ε σ μ α) (s : σ) : (body.around f).moments s = body.moments s := rfl

@[simp] theorem moments_mark (moment : σ → Except ε α → σ → μ) (body : Traced ε σ μ α) (s : σ) :
    (body.mark moment).moments s =
      body.moments s ++ [moment s (body.exec s).1 (body.exec s).2] := rfl

section Bind

variable {body : Traced ε σ μ α} {next : α → Traced ε σ μ β} {s t : σ}

theorem exec_bind : (body >>= next).exec s = match body.exec s with
    | (.ok x, t) => (next x).exec t
    | (.error e, t) => (.error e, t) := by
  simp only [exec, act_bind, ExceptT.run_bind, StateT.run_bind]
  generalize body.act.run.run s = result
  rcases result with ⟨_ | _, t⟩ <;> rfl

theorem moments_bind_of_ok {x : α} (h : body.exec s = (.ok x, t)) :
    (body >>= next).moments s = body.moments s ++ (next x).moments t := by
  change body.moments s ++ _ = _
  rw [h]

theorem moments_bind_of_error {e : ε} (h : body.exec s = (.error e, t)) :
    (body >>= next).moments s = body.moments s := by
  change body.moments s ++ _ = _
  rw [h, List.append_nil]

end Bind

/-! ## What is said of moments -/

/-- A relation between a state, the moments from it on and the state after these that is put
together as moments are. -/
structure Composes (R : σ → List μ → σ → Prop) : Prop where
  nil : ∀ s, R s [] s
  append : ∀ {s t u ms ns}, R s ms t → R t ns u → R s (ms ++ ns) u

/-- A relation holds between every state, the moments of a program and the state that it leaves. -/
def Accounts (R : σ → List μ → σ → Prop) (body : Traced ε σ μ α) : Prop :=
  ∀ s, R s (body.moments s) (body.exec s).2

namespace Accounts

variable {R : σ → List μ → σ → Prop} {body : Traced ε σ μ α}

theorem value (hR : Composes R) (x : α) : Accounts R (pure x : Traced ε σ μ α) :=
  fun s => hR.nil s

theorem lift {body : ExceptT ε (StateM σ) α} (h : ∀ s, R s [] (body.run.run s).2) :
    Accounts R (liftM body : Traced ε σ μ α) :=
  h

theorem bind (hR : Composes R) {next : α → Traced ε σ μ β} (hbody : Accounts R body)
    (hnext : ∀ x, Accounts R (next x)) : Accounts R (body >>= next) := by
  intro s
  have hfirst := hbody s
  rw [exec_bind]
  rcases h : body.exec s with ⟨e | x, t⟩
  · rw [moments_bind_of_error h]
    rwa [h] at hfirst
  · rw [moments_bind_of_ok h]
    rw [h] at hfirst
    exact hR.append hfirst (hnext x t)

/-- What is done after a program may not undo what is said of it. -/
theorem around {f : ExceptT ε (StateM σ) α → ExceptT ε (StateM σ) β} (hbody : Accounts R body)
    (hf : ∀ s ms, R s ms (body.exec s).2 → R s ms ((body.around f).exec s).2) :
    Accounts R (body.around f) :=
  fun s => hf s _ (hbody s)

end Accounts
end Traced
end SeededTesting

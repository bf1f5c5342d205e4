import SeededTesting.Proofs.Context.Moments

/-! # The ambient context is lexical

Which context is ambient where a step is run can be read off the text around the step: it is the
one that the nearest activation names, none within a thread that activates none, and in a copied
context that of the caller. No step changes it for what comes after, however the step ends.
-/

namespace SeededTesting.ContextProgram

/-- The context that is ambient within some steps, the innermost first, by their text. -/
def ambientWithin (start : Option Nat) : List Step → Option Nat
  | [] => start
  | .activate index _ :: _ => some index
  | .thread _ :: _ => none
  | _ :: within => ambientWithin start within

/-- The step is run as it is, the ambient context is the one of the text before and after it, and an
activation that has ended leaves nothing on the stack of its context. -/
structure Moment.Lexical (start : Option Nat) (m : Moment) : Prop where
  run : exec m.step.run m.before = (m.outcome, m.after)
  before : m.before.ambient = ambientWithin start m.within
  after : m.after.ambient = ambientWithin start m.within
  emptied : ∀ index body, m.step = .activate index body → (m.after.context index).stack = []

/-- From where a context is ambient, all moments are lexical, and it is ambient in the end. -/
def Lexically (start ambient : Option Nat) (s : State) (moments : List Moment) (t : State) : Prop :=
  s.ambient = ambient → t.ambient = ambient ∧ ∀ m ∈ moments, m.Lexical start

variable {start : Option Nat}

theorem ambient_putStack (s : State) (stack : ContextStack Nat) (site : Site) :
    (s.putStack stack site).ambient = s.ambient := by
  cases site <;> rfl

/-- An activation empties the stack of its context in the end. -/
theorem stack_activate (index : Nat) (body : List Step) (s : State) :
    ((exec (Step.run (.activate index body)) s).2.context index).stack = [] := by
  rw [after_activate]
  generalize (exec (runBody body) { s with ambient := some index }).2 = t
  have hput := t.stackAt_putStack [] (.context index) (.context index)
  by_cases hhas : t.Has (.context index)
  · rw [if_pos ⟨rfl, hhas⟩] at hput
    exact hput
  · rw [if_neg fun h => hhas h.2, State.stackAt_of_not_has hhas] at hput
    exact hput

theorem accounting_lexically : Accounting
    (fun within => Lexically start (ambientWithin start within))
    (fun within _ => Lexically start (ambientWithin start within)) where
  composes within := {
    nil := fun s h => ⟨h, List.forall_mem_nil _⟩
    append := by
      intro s t u ms ns hfirst hnext hs
      obtain ⟨ht, hms⟩ := hfirst hs
      obtain ⟨hu, hns⟩ := hnext ht
      exact ⟨hu, List.forall_mem_append.mpr ⟨hms, hns⟩⟩ }
  answered h a := h
  mark := by
    intro within step s ms h hs
    obtain ⟨ht, hms⟩ := h hs
    have hmoment : Moment.Lexical start
        ⟨within, step, s, (exec step.run s).1, (exec step.run s).2⟩ := {
      run := rfl
      before := hs
      after := ht
      emptied := by
        rintro index body rfl
        exact stack_activate index body s }
    exact ⟨ht, List.forall_mem_append.mpr ⟨hms, List.forall_mem_singleton.mpr hmoment⟩⟩
  leaf := by
    intro within step hstep s hs
    have hfixes : Fixes State.ambient step.run :=
      fixes_step hstep (fun _ _ => rfl) (fun _ => ambient_putStack) fun _ _ _ => rfl
    exact ⟨(hfixes s).trans hs, List.forall_mem_nil _⟩
  unsettled _ hs := ⟨hs, List.forall_mem_nil _⟩
  scope := by
    intro within site settled slot body s ms t hsettled h hs
    have hentered : (s.entered settled slot).ambient = s.ambient := ambient_putStack s _ settled
    obtain ⟨ht, hms⟩ := h (hentered.trans hs)
    exact ⟨(Fixes.pop ambient_putStack settled t).trans ht, hms⟩
  -- Whatever was ambient at the end of the body, the step goes back to what was before.
  activate h hs := ⟨hs, (h rfl).2⟩
  attempt h hs := h hs
  thread h hs := ⟨hs, (h rfl).2⟩
  copyContext h hs := ⟨hs, (h hs).2⟩

/-- In every program, wherever it is taken up, the ambient context is lexical: before and after each
step, at whatever depth and however the step ended, the context is ambient that the text around the
step names, which is that of the nearest activation, none in a thread of its own, and the caller's
in a copied context. The stack of a context whose activation has ended is empty. Nothing of this is
seen after the program. -/
theorem ambient_lexical (program : List Step) (s : State) :
    (tracedSettled [] program).act = settleBody program ∧
      (∀ m ∈ (tracedSettled [] program).moments s, m.Lexical s.ambient) ∧
        (exec (settleBody program) s).2.ambient = s.ambient := by
  obtain ⟨-, hact⟩ := act_tracedBody program []
  obtain ⟨-, hsettle⟩ := accounting_lexically.body program []
  obtain ⟨hlast, hmoments⟩ := hsettle s rfl
  refine ⟨hact, hmoments, ?_⟩
  rw [exec_tracedSettled] at hlast
  exact hlast

/-- An activation within a thread within an activation, with an error in the end. Each of the seven
steps finds the context of the text around it, and only the outermost that of the caller. -/
example :
    let program := [Step.activate 0 [.push .ambient 0, .thread [.activate 1 [.depth .ambient],
      .describe .ambient], .raise ⟨.named "KeyError", none⟩]]
    let s : State := {
      sources := #[.fresh 5], freeStacks := #[], ambient := some 2
      contexts := #[default, default, default] }
    ((tracedSettled [] program).moments s).map (·.before.ambient) =
      [some 0, some 1, none, none, some 0, some 0, some 2] := by
  decide

end SeededTesting.ContextProgram

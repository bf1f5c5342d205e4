import SeededTesting.Proofs.Run.FailureReports

/-! # What is said, and the sessions around it

What an action says is compared with the session in which it starts and the session that it leaves.
Such a comparison of a whole run follows from those of its parts.
-/

namespace SeededTesting

open Act

namespace Aloud

/-- A relation between a session, what is said from it on and the session after this that is put
together as what is said is. -/
def Composes (R : Session → List Saying → Session → Prop) : Prop :=
  ∀ {s t u said more}, R s said t → R t more u → R s (said ++ more) u

/-- Wherever some condition holds an action is sound, and a relation holds between the session,
what the action says and the session that it leaves. -/
structure AccountsFrom {α : Type} (P : World → Prop) (R : Session → List Saying → Session → Prop)
    (body : Aloud α) : Prop where
  sound : Triple .free P body.act (fun _ _ => True) (Blames anyComplaint)
  said : ∀ w, w.Lawful → P w → R w.session (body.said w) (body.act.exec w).2.session

/-- The same wherever the action starts. -/
abbrev Accounts {α : Type} (R : Session → List Saying → Session → Prop) (body : Aloud α) : Prop :=
  AccountsFrom (fun _ => True) R body

namespace AccountsFrom

variable {α β : Type} {P : World → Prop} {R : Session → List Saying → Session → Prop}

/-- What says nothing and keeps to a regime. -/
theorem lift {ρ : Regime} (hρ : ∀ {s t}, ρ.step s t → R s [] t) {body : Act α}
    (h : Triple ρ P body (fun _ _ => True) (Blames anyComplaint)) :
    AccountsFrom P R (liftM body : Aloud α) where
  sound := h.under .free
  said w hw hP := hρ (h w hw hP).1.step

/-- What is assumed may be a fact. -/
theorem assuming {p : Prop} {body : Aloud α} (h : p → Accounts R body) :
    AccountsFrom (fun _ => p) R body where
  sound w hw hp := (h hp).sound w hw trivial
  said w hw hp := (h hp).said w hw trivial

theorem mono {R' : Session → List Saying → Session → Prop} {body : Aloud α}
    (h : AccountsFrom P R body) (hR : ∀ {s said t}, R s said t → R' s said t) :
    AccountsFrom P R' body where
  sound := h.sound
  said w hw hP := hR (h.said w hw hP)

variable (hR : Composes R)

include hR

/-- What follows may rely on what is known then. -/
theorem bindGiven {body : Aloud α} {next : α → Aloud β} {V : α → World → Prop}
    (h : AccountsFrom P R body) (hbody : Triple .free P body.act V (Blames anyComplaint))
    (hnext : ∀ x, AccountsFrom (V x) R (next x)) : AccountsFrom P R (body >>= next) where
  sound := Triple.bind hbody fun x => (hnext x).sound
  said w hw hP := by
    have hsaid := h.said w hw hP
    rw [act_bind]
    rcases hbody.outcome hw hP with ⟨x, v, hout, hleads, hV⟩ | ⟨e, v, hout, -, -, -⟩
    · rw [hout] at hsaid
      rw [said_bind_of_ok hout, exec_bind_of_ok hout]
      exact hR hsaid ((hnext x).said v hleads.lawful hV)
    · rw [hout] at hsaid
      rw [said_bind_of_error hout, exec_bind_of_error hout]
      exact hsaid

theorem bind {body : Aloud α} {next : α → Aloud β} (h : AccountsFrom P R body)
    (hnext : ∀ x, Accounts R (next x)) : AccountsFrom P R (body >>= next) :=
  bindGiven hR h h.sound hnext

theorem handle {body : Aloud α} {handler : ErrorId → Aloud α} (h : AccountsFrom P R body)
    (hhandler : ∀ e, Accounts R (handler e)) : AccountsFrom P R (.handle body handler) where
  sound := Triple.handle h.sound (fun e => (hhandler e).sound.pre fun _ _ _ => trivial)
    (fun _ _ h _ _ => h) (robust_blames _) (fun _ => Triple.robust_true) (robust_blames _)
  said w hw hP := by
    have hsaid := h.said w hw hP
    change R _ (body.said w ++ _) _
    rw [act_handle, exec_handle]
    rcases h.sound.outcome hw hP with ⟨x, v, hout, -, -⟩ | ⟨e, v, hout, hleads, he, -⟩
    · rw [hout] at hsaid ⊢
      rwa [List.append_nil]
    · rw [hout] at hsaid ⊢
      dsimp only
      -- An interrupt passes the handler by.
      cases (v.errors.get e).kind.interrupt
      · rw [if_neg Bool.false_ne_true, if_neg Bool.false_ne_true, exec_whileHandling]
        exact hR hsaid ((hhandler e).said _ (hleads.lawful.handled he) trivial)
      · rwa [if_pos rfl, if_pos rfl, List.append_nil]

theorem andFinally {body cleanup : Aloud Unit} (h : Accounts R body)
    (hcleanup : Accounts R cleanup) : Accounts R (.andFinally body cleanup) where
  sound := Conduct.andFinally h.sound hcleanup.sound
  said w hw _ := by
    have hsaid := h.said w hw trivial
    change R _ (body.said w ++ _) _
    rw [act_andFinally, exec_andFinally]
    rcases h.sound.outcome hw trivial with ⟨_, v, hout, hleads, -⟩ | ⟨e, v, hout, hleads, he, -⟩
    · rw [hout] at hsaid ⊢
      exact hR hsaid (hcleanup.said v hleads.lawful trivial)
    · rw [hout] at hsaid ⊢
      have hcleaned :=
        hcleanup.said { v with handling := some e } (hleads.lawful.handled he) trivial
      dsimp only
      rw [exec_bind, exec_whileHandling]
      generalize cleanup.act.exec { v with handling := some e } = result at hcleaned ⊢
      obtain ⟨_ | _, u⟩ := result
      · exact hR hsaid hcleaned
      · exact hR hsaid hcleaned

omit hR in
/-- An error that leaves may be replaced, which does not change the session. -/
theorem session_leaving (body : Act Unit) (w : World) :
    ((Act.leaving body).exec w).2.session = (body.exec w).2.session := by
  rw [exec_leaving]
  rcases body.exec w with ⟨e | _, v⟩
  · dsimp only
    cases (v.errors.get e).kind.refusalToLeave with
    | none => rfl
    | some refusal => simp [exec_whileHandling, exec_complain]
  · rfl

omit hR in
theorem leaving {body : Aloud Unit} (h : Accounts R body) : Accounts R (.leaving body) where
  sound := Triple.leaving h.sound (Conduct.admitsRefusals complains_any.toTolerates)
    (robust_blames anyComplaint)
  said w hw _ := by
    change R _ (body.said w) ((Act.leaving body.act).exec w).2.session
    rw [session_leaving]
    exact h.said w hw trivial

theorem inScope {ρ : Regime} (hρ : ∀ {s t}, ρ.step s t → R s [] t) (hloose : ¬ρ.balanced)
    {source : RandomSource} {body : Aloud Unit} (h : Accounts R body) :
    Accounts R (.inScope source body) := by
  have hpush : Accounts R (liftM (Act.push source) : Aloud Unit) :=
    lift hρ (Conduct.push hloose complains_any.toTolerates source)
  have hpop : Accounts R (liftM (discard Act.pop) : Aloud Unit) :=
    lift hρ (Conduct.discard (.pop hloose complains_any.toTolerates))
  exact bind hR hpush fun _ => leaving (andFinally hR h hpop)

end AccountsFrom
end Aloud

end SeededTesting

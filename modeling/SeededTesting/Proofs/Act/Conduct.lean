import SeededTesting.Proofs.Act.Scopes

/-! # How actions conduct themselves

The conduct of an action is what it keeps to wherever it starts: a regime, and the complaints that
the errors it raises may make. Actions that are put together from actions of one conduct are of
that conduct.
-/

namespace SeededTesting

/-- The complaints that can be made in scopes belong to a conduct: contexts may be misused, and an
object may refuse to leave. -/
structure Tolerates (B : Complaint → Prop) : Prop where
  misuse : ∀ c : ContextError, B c.complaint
  refusal : ∀ c d, B c → c.kind.refusalToLeave = some d → B d

namespace Act

/-- An error that makes a complaint of a sort. -/
def Blames (B : Complaint → Prop) (e : ErrorId) (w : World) : Prop :=
  e < w.errors.size ∧ B (w.errors.get e).toComplaint

end Act

/-- An error that is at hand stays at hand. -/
theorem Regime.Leads.blames {ρ : Regime} {w v : World} (h : ρ.Leads w v) {B : Complaint → Prop}
    {e : ErrorId} (hB : Act.Blames B e w) : Act.Blames B e v :=
  ⟨Nat.lt_of_lt_of_le hB.1 h.grows.errors.size_le,
    by rw [h.grows.errors.complaint e hB.1]; exact hB.2⟩

namespace Act

variable {α β : Type} {ρ : Regime} {B N : Complaint → Prop}

/-- Under a regime, an action raises only errors that make complaints of a sort. -/
def Conduct (ρ : Regime) (B : Complaint → Prop) (body : Act α) : Prop :=
  Triple ρ (fun _ => True) body (fun _ _ => True) (Blames B)

/-- The complaints that a handler gets to see. -/
def Caught (B : Complaint → Prop) (c : Complaint) : Prop :=
  B c ∧ c.kind.interrupt = false

theorem robust_blames (B : Complaint → Prop) (e : ErrorId) : Triple.Robust (Blames B e) :=
  Triple.robust_said B e

theorem Blames.mono (h : ∀ c, B c → N c) {e : ErrorId} {w : World} (hB : Blames B e w) :
    Blames N e w :=
  ⟨hB.1, h _ hB.2⟩

namespace Conduct

theorem mono {body : Act α} (hbody : Conduct ρ B body) (h : ∀ c, B c → N c) :
    Conduct ρ N body :=
  Triple.post hbody (fun _ _ h => h) fun _ _ => Blames.mono h

theorem value (value : α) : Conduct ρ B (pure value : Act α) :=
  Triple.value fun _ _ _ => trivial

theorem bind {body : Act α} {next : α → Act β} (hbody : Conduct ρ B body)
    (hnext : ∀ x, Conduct ρ B (next x)) : Conduct ρ B (body >>= next) :=
  Triple.bind hbody hnext

theorem discard {body : Act α} (hbody : Conduct ρ B body) : Conduct ρ B (discard body) :=
  Triple.discard hbody fun _ _ h => h

theorem world : Conduct ρ B (get : Act World) :=
  Triple.world.post (fun _ _ _ => trivial) fun _ _ h => h

theorem modifySession {change : Session → Session} (h : ∀ s, ρ.step s (change s)) :
    Conduct ρ B (Act.modifySession change) :=
  Triple.modifySession fun w _ _ => ⟨h w.session, trivial⟩

theorem log (record : LogRecord) : Conduct ρ B (Act.log record) :=
  Triple.log Triple.robust_true

theorem complaint (e : ErrorId) : Conduct ρ B (Act.complaint e) :=
  Triple.complaint.post (fun _ _ _ => trivial) fun _ _ h => h

theorem complain {c : Complaint} (hc : B c) : Conduct ρ B (Act.complain c : Act α) :=
  (Triple.complain Triple.robust_true).post (fun _ _ h => h) fun _ _ ⟨_, he, hcomplaint⟩ =>
    ⟨he, by rwa [hcomplaint]⟩

/-- Recording seeds on an error fails only with a complaint about the value. -/
theorem augment (hvalue : B ⟨.value, some chainsAttribute⟩) (e : ErrorId) (seeds : List Seed) :
    Conduct ρ B (Act.augment e seeds) :=
  (Triple.augment Triple.robust_true).post (fun _ _ h => h) fun _ _ ⟨_, hi, hcomplaint⟩ =>
    ⟨hi, by rwa [hcomplaint]⟩

/-- An error that is at hand may be raised again. -/
theorem failure (e : ErrorId) :
    Triple ρ (Blames B e) (throw e : Act α) (fun _ _ => True) (Blames B) :=
  Triple.failure fun _ _ h => ⟨h.1, h⟩

/-- Where there is nothing to complain about, an action ends with a value. -/
theorem exists_ok {P : World → Prop} {V : α → World → Prop} {body : Act α}
    (h : Triple ρ P body V (Blames B)) (hB : ∀ c, ¬B c) {w : World} (hw : w.Lawful) (hP : P w) :
    ∃ x v, body.exec w = (.ok x, v) ∧ ρ.Leads w v ∧ V x v := by
  rcases Triple.outcome h hw hP with ⟨x, v, hout, hleads, hV⟩ | ⟨e, v, -, -, -, hblames⟩
  · exact ⟨x, v, hout, hleads, hV⟩
  · exact (hB _ hblames.2).elim

/-- What is done on any condition is done on a given one. -/
theorem given {P : World → Prop} {body : Act α} (hbody : Conduct ρ B body) :
    Triple ρ P body (fun _ _ => True) (Blames B) :=
  Triple.pre hbody fun _ _ _ => trivial

/-! ## Errors -/

theorem handle {body : Act α} {handler : ErrorId → Act α} (hbody : Conduct ρ B body)
    (hhandler : ∀ e, Triple ρ (Blames (Caught B) e) (handler e) (fun _ _ => True) (Blames N))
    (hpass : ∀ c, B c → c.kind.interrupt = true → N c) :
    Conduct ρ N (Act.handle body handler) := by
  refine Triple.handle hbody ?_ ?_ (robust_blames B) (fun _ => Triple.robust_true)
    (robust_blames N)
  · intro e
    exact (hhandler e).pre fun w _ ⟨hB, _, hcaught⟩ => ⟨hB.1, hB.2, hcaught⟩
  · intro e w hB he hkind
    exact ⟨he, hpass _ hB.2 hkind⟩

theorem andFinally {P : World → Prop} {body cleanup : Act Unit}
    (hbody : Triple ρ P body (fun _ _ => True) (Blames B)) (hcleanup : Conduct ρ B cleanup) :
    Triple ρ P (Act.andFinally body cleanup) (fun _ _ => True) (Blames B) := by
  refine Triple.andFinally hbody hcleanup ?_ (robust_blames B) (robust_blames B)
  intro e
  have hkept := Triple.frame hcleanup (F := Blames B e) fun _ _ _ hleads h => hleads.blames h
  refine hkept.conseq ?_ ?_ ?_
  · exact fun _ _ h => ⟨trivial, h.1⟩
  · exact fun _ _ _ h => h.2
  · exact fun _ _ _ _ h => h.1

theorem admitsRefusals (h : Tolerates B) : Triple.AdmitsRefusals (Blames B) := by
  intro e i w c hB he hrefusal hi hcomplaint
  refine ⟨hi, ?_⟩
  rw [hcomplaint]
  exact h.refusal _ c hB.2 hrefusal

theorem toScoped (h : Tolerates B) :
    Triple.Scoped (fun _ => True) (fun _ => True) (Blames B) where
  robust_pre := Triple.robust_true
  robust_post := Triple.robust_true
  robust_error := robust_blames B
  entry c e w _ he hcomplaint := ⟨he, by rw [hcomplaint]; exact h.misuse c⟩
  exit c e w _ he hcomplaint := ⟨he, by rw [hcomplaint]; exact h.misuse c⟩
  failedExit i c e w _ he hcomplaint := ⟨he, by rw [hcomplaint]; exact h.misuse c⟩
  refusals := admitsRefusals h

/-! ## Contexts -/

theorem currentContext (h : Tolerates B) : Conduct ρ B Act.currentContext :=
  Triple.currentContext Triple.robust_true (toScoped h).entry

theorem currentSource (h : Tolerates B) : Conduct ρ B Act.currentSource :=
  Triple.currentSource Triple.robust_true (toScoped h).entry

theorem draw (h : Tolerates B) {take : RandomSource → α × RandomSource}
    (htake : ∀ source, (take source).2.seed = source.seed) : Conduct ρ B (Act.draw take) :=
  Triple.draw htake Triple.robust_true (toScoped h).entry

theorem setStack (hρ : ¬ρ.balanced) (stack : ContextStack RandomSource) :
    Conduct ρ B (Act.setStack stack) :=
  Triple.setStack hρ Triple.robust_true

theorem push (hρ : ¬ρ.balanced) (h : Tolerates B) (source : RandomSource) :
    Conduct ρ B (Act.push source) :=
  Triple.push hρ Triple.robust_true (toScoped h).entry

theorem pop (hρ : ¬ρ.balanced) (h : Tolerates B) : Conduct ρ B Act.pop :=
  Triple.pop hρ Triple.robust_true (toScoped h).entry

theorem inScope (h : Tolerates B) {source : RandomSource} {body : Act Unit}
    (hbody : Conduct ρ B body) : Conduct ρ B (Act.inScope source body) :=
  Triple.inScope hbody (toScoped h)

theorem activate (h : Tolerates B) {context : RunContext} {body : Act Unit}
    (hbody : Conduct (Triple.loosen ρ) B body)
    (hstep : ∀ s last, ρ.step s { s with lastContext := last }) :
    Conduct ρ B (Act.activate context body) :=
  Triple.activate hbody (toScoped h) hstep (fun _ _ h => h) fun _ _ _ h => h

end Conduct
end Act
end SeededTesting

import SeededTesting.Proofs.Act.Execution
import SeededTesting.Proofs.World.Growth

/-! # A logic of actions

A regime says what every action keeps to: a relation between sessions, and perhaps that stacks are
rewound. A triple says that under a regime an action which starts from a precondition ends in a
postcondition, one for values and one for errors; that worlds stay lawful and grow is part of every
triple. The rules below follow the combinators of actions.
-/

namespace SeededTesting

/-- Contexts that are the same but for what was drawn from the active randomness. -/
inductive Rewound : List RunContext → List RunContext → Prop where
  | same (contexts : List RunContext) : Rewound contexts contexts
  | drawn (context : RunContext) (outer : List RunContext) (rest : ContextStack RandomSource)
      {source source' : RandomSource} (h : source'.seed = source.seed) :
      Rewound ({ context with stack := source :: rest } :: outer)
        ({ context with stack := source' :: rest } :: outer)

structure Regime where
  /-- Whether stacks are rewound. -/
  balanced : Prop
  step : Session → Session → Prop
  refl : ∀ s, step s s
  trans : ∀ {s t u}, step s t → step t u → step s u

/-- The regime that asks for nothing. -/
def Regime.free : Regime where
  balanced := False
  step _ _ := True
  refl _ := trivial
  trans _ _ := trivial

/-- What keeps to a regime keeps to one that asks for less. -/
structure Regime.Implies (ρ σ : Regime) : Prop where
  balanced : σ.balanced → ρ.balanced
  step : ∀ s t, ρ.step s t → σ.step s t

theorem Regime.Implies.free {ρ : Regime} : ρ.Implies .free :=
  ⟨False.elim, fun _ _ _ => trivial⟩

/-- One world comes from another as a regime demands. -/
structure Regime.Leads (ρ : Regime) (w v : World) : Prop where
  lawful : v.Lawful
  grows : w.Grows v
  step : ρ.step w.session v.session
  rewound : ρ.balanced → Rewound w.contexts v.contexts

namespace Act

variable {α β : Type}

/-- The postcondition of an outcome. -/
def Ends (V : α → World → Prop) (X : ErrorId → World → Prop) : Except ErrorId α → World → Prop
  | .ok value, w => V value w
  | .error e, w => e < w.errors.size ∧ X e w

/-- Under a regime, an action that starts where `P` holds ends where `V` holds of its value or `X`
of its error. -/
def Triple (ρ : Regime) (P : World → Prop) (body : Act α) (V : α → World → Prop)
    (X : ErrorId → World → Prop) : Prop :=
  ∀ w, w.Lawful → P w → ρ.Leads w (body.exec w).2 ∧ Ends V X (body.exec w).1 (body.exec w).2

end Act

/-- Where a source is active, nothing below it was touched. -/
theorem Rewound.of_active {context : RunContext} {outer l : List RunContext}
    {source : RandomSource} {rest : ContextStack RandomSource}
    (h : Rewound ({ context with stack := source :: rest } :: outer) l) :
    ∃ source', source'.seed = source.seed ∧
      l = { context with stack := source' :: rest } :: outer := by
  generalize hfrom : ({ context with stack := source :: rest } : RunContext) :: outer = k at h
  cases h with
  | same => exact ⟨source, rfl, hfrom.symm⟩
  | drawn context' outer' rest' hseed =>
      simp only [List.cons.injEq, RunContext.mk.injEq] at hfrom
      obtain ⟨⟨hrunner, htarget, hnightly, rfl, rfl⟩, rfl⟩ := hfrom
      rw [← hrunner, ← htarget, ← hnightly]
      exact ⟨_, hseed, rfl⟩

theorem Rewound.trans {l m n : List RunContext} (h : Rewound l m) (h' : Rewound m n) :
    Rewound l n := by
  cases h with
  | same => exact h'
  | drawn context outer rest hseed =>
      obtain ⟨source, hsource, rfl⟩ := h'.of_active
      exact .drawn context outer rest (hsource.trans hseed)

namespace Regime

variable {ρ : Regime} {w v u : World}

theorem Leads.refl (h : w.Lawful) : ρ.Leads w w :=
  ⟨h, .refl w, ρ.refl _, fun _ => .same _⟩

theorem Leads.trans (h : ρ.Leads w v) (h' : ρ.Leads v u) : ρ.Leads w u :=
  ⟨h'.lawful, h.grows.trans h'.grows, ρ.trans h.step h'.step,
    fun hbalanced => (h.rewound hbalanced).trans (h'.rewound hbalanced)⟩

end Regime

namespace World.Lawful

variable {ρ : Regime} {w v : World}

/-- A change of the store alone. -/
theorem leads_errors (h : w.Lawful) {errors : ErrorStore} (hclosed : errors.Closed)
    (hgrows : w.errors.Grows errors) : ρ.Leads w { w with errors } where
  lawful := ⟨hclosed, fun e he => Nat.lt_of_lt_of_le (h.handling e he) hgrows.size_le⟩
  grows := ⟨hgrows, rfl, rfl, rfl⟩
  step := ρ.refl _
  rewound _ := .same _

/-- A change of the log alone. -/
theorem leads_journal (h : w.Lawful) (journal : Array LogRecord) :
    ρ.Leads w { w with journal } :=
  ⟨⟨h.errors, h.handling⟩, ⟨.refl _, rfl, rfl, rfl⟩, ρ.refl _, fun _ => .same _⟩

/-- A change of the session alone. -/
theorem leads_session (h : w.Lawful) {session : Session} (hstep : ρ.step w.session session) :
    ρ.Leads w { w with session } :=
  ⟨⟨h.errors, h.handling⟩, ⟨.refl _, rfl, rfl, rfl⟩, hstep, fun _ => .same _⟩

theorem handled (h : w.Lawful) {e : ErrorId} (he : e < w.errors.size) :
    World.Lawful { w with handling := some e } := by
  refine ⟨h.errors, ?_⟩
  intro i hi
  cases hi
  exact he

/-- What is done while an error is handled, with the handling undone in the end. -/
theorem leads_unhandled (hw : w.Lawful) {e : ErrorId}
    (h : ρ.Leads { w with handling := some e } v) :
    ρ.Leads w { v with handling := w.handling } where
  lawful := by
    refine ⟨h.lawful.errors, ?_⟩
    intro i hi
    exact Nat.lt_of_lt_of_le (hw.handling i hi) h.grows.errors.size_le
  grows := ⟨h.grows.errors, rfl, h.grows.depth, h.grows.outer⟩
  step := h.step
  rewound := h.rewound

end World.Lawful

namespace Act.Triple

variable {α β : Type} {ρ : Regime} {P Q : World → Prop} {U V : α → World → Prop}
  {X Y : ErrorId → World → Prop} {w : World}

/-- The two ways in which an action may end. -/
theorem outcome {body : Act α} (h : Triple ρ P body V X) (hw : w.Lawful) (hP : P w) :
    (∃ x v, body.exec w = (.ok x, v) ∧ ρ.Leads w v ∧ V x v) ∨
      ∃ e v, body.exec w = (.error e, v) ∧ ρ.Leads w v ∧ e < v.errors.size ∧ X e v := by
  obtain ⟨hleads, hends⟩ := h w hw hP
  rcases hout : body.exec w with ⟨e | x, v⟩
  · rw [hout] at hleads hends
    exact .inr ⟨e, v, rfl, hleads, hends⟩
  · rw [hout] at hleads hends
    exact .inl ⟨x, v, rfl, hleads, hends⟩

theorem conseq {body : Act α} (h : Triple ρ P body V X)
    (hP : ∀ w, w.Lawful → Q w → P w) (hV : ∀ x w, w.Lawful → V x w → U x w)
    (hX : ∀ e w, w.Lawful → e < w.errors.size → X e w → Y e w) : Triple ρ Q body U Y := by
  intro w hw hQ
  rcases h.outcome hw (hP w hw hQ) with ⟨x, v, hout, hleads, hVx⟩ | ⟨e, v, hout, hleads, he, hXe⟩
  · rw [hout]
    exact ⟨hleads, hV x v hleads.lawful hVx⟩
  · rw [hout]
    exact ⟨hleads, he, hX e v hleads.lawful he hXe⟩

theorem under {σ : Regime} {body : Act α} (h : Triple ρ P body V X) (hσ : ρ.Implies σ) :
    Triple σ P body V X := by
  intro w hw hP
  obtain ⟨hleads, hends⟩ := h w hw hP
  exact ⟨⟨hleads.lawful, hleads.grows, hσ.step _ _ hleads.step,
    fun hbalanced => hleads.rewound (hσ.balanced hbalanced)⟩, hends⟩

theorem pre {body : Act α} (h : Triple ρ P body V X) (hP : ∀ w, w.Lawful → Q w → P w) :
    Triple ρ Q body V X :=
  h.conseq hP (fun _ _ _ h => h) (fun _ _ _ _ h => h)

theorem post {body : Act α} (h : Triple ρ P body V X) (hV : ∀ x w, V x w → U x w)
    (hX : ∀ e w, X e w → Y e w) : Triple ρ P body U Y :=
  h.conseq (fun _ _ h => h) (fun x w _ => hV x w) (fun e w _ _ => hX e w)

/-- What every allowed step keeps may be carried along. -/
theorem frame {body : Act α} (h : Triple ρ P body V X) {F : World → Prop}
    (hF : ∀ w v, w.Lawful → ρ.Leads w v → F w → F v) :
    Triple ρ (fun w => P w ∧ F w) body (fun x w => V x w ∧ F w) (fun e w => X e w ∧ F w) := by
  intro w hw ⟨hP, hFw⟩
  rcases h.outcome hw hP with ⟨x, v, hout, hleads, hVx⟩ | ⟨e, v, hout, hleads, he, hXe⟩
  · rw [hout]
    exact ⟨hleads, hVx, hF w v hw hleads hFw⟩
  · rw [hout]
    exact ⟨hleads, he, hXe, hF w v hw hleads hFw⟩

theorem value {value : α} (h : ∀ w, w.Lawful → P w → V value w) :
    Triple ρ P (pure value) V X :=
  fun w hw hP => ⟨.refl hw, h w hw hP⟩

theorem bind {body : Act α} {next : α → Act β} {W : β → World → Prop}
    (hbody : Triple ρ P body U X) (hnext : ∀ x, Triple ρ (U x) (next x) W X) :
    Triple ρ P (body >>= next) W X := by
  intro w hw hP
  rcases hbody.outcome hw hP with ⟨x, v, hout, hleads, hUx⟩ | ⟨e, v, hout, hleads, he, hXe⟩
  · rw [exec_bind_of_ok hout]
    obtain ⟨hleads', hends⟩ := hnext x v hleads.lawful hUx
    exact ⟨hleads.trans hleads', hends⟩
  · rw [exec_bind_of_error hout]
    exact ⟨hleads, he, hXe⟩

theorem discard {body : Act α} {W : World → Prop} (h : Triple ρ P body V X)
    (hV : ∀ x w, V x w → W w) : Triple ρ P (discard body) (fun _ => W) X := by
  intro w hw hP
  rw [exec_discard]
  rcases h.outcome hw hP with ⟨x, v, hout, hleads, hVx⟩ | ⟨e, v, hout, hleads, he, hXe⟩
  · rw [hout]
    exact ⟨hleads, hV x v hVx⟩
  · rw [hout]
    exact ⟨hleads, he, hXe⟩

theorem failure {e : ErrorId} (h : ∀ w, w.Lawful → P w → e < w.errors.size ∧ X e w) :
    Triple ρ P (throw e : Act α) V X :=
  fun w hw hP => ⟨.refl hw, h w hw hP⟩

theorem world : Triple ρ P (get : Act World) (fun v w => v = w ∧ P w) X :=
  fun _ hw hP => ⟨.refl hw, rfl, hP⟩

/-! ## Errors -/

theorem observe {body : Act α} (h : Triple ρ P body V X) :
    Triple ρ P (Act.observe body) (Ends V X) Y := by
  intro w hw hP
  obtain ⟨hleads, hends⟩ := h w hw hP
  exact ⟨hleads, hends⟩

theorem resume {outcome : Except ErrorId α} :
    Triple ρ (Ends V X outcome) (Act.resume outcome) V X := by
  intro w hw hP
  rw [exec_resume]
  exact ⟨.refl hw, hP⟩

/-- What is asserted survives when errors are added, and tells neither which one is handled nor
what is active. -/
def Robust (P : World → Prop) : Prop :=
  ∀ w v, w.errors.Grows v.errors → v.session = w.session → P w → P v

theorem robust_true : Robust fun _ => True :=
  fun _ _ _ _ _ => trivial

theorem robust_false : Robust fun _ => False :=
  fun _ _ _ _ h => h

theorem robust_session (p : Session → Prop) : Robust fun w => p w.session := by
  intro w v _ hsession h
  rwa [hsession]

theorem robust_made (e : ErrorId) : Robust fun w => e < w.errors.size :=
  fun _ _ hgrows _ h => Nat.lt_of_lt_of_le h hgrows.size_le

/-- What an error object says stays as it is. -/
theorem robust_said (said : Complaint → Prop) (e : ErrorId) :
    Robust fun w => e < w.errors.size ∧ said (w.errors.get e).toComplaint := by
  intro w v hgrows _ ⟨he, h⟩
  exact ⟨Nat.lt_of_lt_of_le he hgrows.size_le, by rwa [hgrows.complaint e he]⟩

theorem Robust.and (hP : Robust P) (hQ : Robust Q) : Robust fun w => P w ∧ Q w :=
  fun w v hgrows hsession h => ⟨hP w v hgrows hsession h.1, hQ w v hgrows hsession h.2⟩

theorem whileHandling {e : ErrorId} {body : Act α} (h : Triple ρ P body V X)
    (hP : Robust P) (hV : ∀ x, Robust (V x)) (hX : ∀ e, Robust (X e)) :
    Triple ρ (fun w => P w ∧ e < w.errors.size) (Act.whileHandling e body) V X := by
  intro w hw ⟨hPw, he⟩
  rw [exec_whileHandling]
  rcases h.outcome (hw.handled he) (hP w _ (.refl _) rfl hPw) with
    ⟨x, v, hout, hleads, hVx⟩ | ⟨i, v, hout, hleads, hi, hXi⟩
  · rw [hout]
    exact ⟨hw.leads_unhandled hleads, hV x v _ (.refl _) rfl hVx⟩
  · rw [hout]
    exact ⟨hw.leads_unhandled hleads, hi, hX i v _ (.refl _) rfl hXi⟩

theorem makeError {c : Complaint} (hP : Robust P) :
    Triple ρ P (Act.makeError c)
      (fun e w => P w ∧ e < w.errors.size ∧ (w.errors.get e).toComplaint = c) X := by
  intro w hw hPw
  have hgrows := w.errors.grows_add c
  refine ⟨hw.leads_errors (hw.errors.add c) hgrows, hP w _ hgrows rfl hPw, ?_, ?_⟩
  · change w.errors.size < (w.errors.add c).2.size
    simp
  · change ((w.errors.add c).2.get w.errors.size).toComplaint = c
    rw [ErrorStore.get_add_self]
    rfl

theorem raise {e : ErrorId} (hX : Robust (X e)) :
    Triple ρ (fun w => X e w ∧ e < w.errors.size) (Act.raise e : Act α) V X := by
  intro w hw ⟨hXw, he⟩
  have hgrows := w.errors.grows_linkRaised w.handling e
  rw [exec_raise]
  refine ⟨hw.leads_errors (hw.errors.linkRaised hw.handling e) hgrows, ?_, ?_⟩
  · simpa using he
  · exact hX w _ hgrows rfl hXw

theorem setCause {e : ErrorId} {cause : Option ErrorId} (hP : Robust P) :
    Triple ρ (fun w => P w ∧ ∀ o, cause = some o → o < w.errors.size)
      (modify fun w => { w with errors := w.errors.setCause e cause }) (fun _ => P) X := by
  intro w hw ⟨hPw, hcause⟩
  have hgrows := w.errors.grows_setCause e cause
  exact ⟨hw.leads_errors (hw.errors.setCause e hcause) hgrows, hP w _ hgrows rfl hPw⟩

theorem complain {c : Complaint} (hP : Robust P) :
    Triple ρ P (Act.complain c : Act α) V
      (fun e w => P w ∧ e < w.errors.size ∧ (w.errors.get e).toComplaint = c) := by
  refine bind (makeError hP) fun e => ?_
  refine (raise (hP.and (robust_said (· = c) e))).pre ?_
  intro w _ h
  exact ⟨h, h.2.1⟩

theorem complaint {e : ErrorId} :
    Triple ρ P (Act.complaint e) (fun c w => c = (w.errors.get e).toComplaint ∧ P w) X := by
  intro w hw hPw
  rw [exec_complaint]
  exact ⟨.refl hw, rfl, hPw⟩

theorem handle {body : Act α} {handler : ErrorId → Act α} (hbody : Triple ρ P body V Y)
    (hhandler : ∀ e, Triple ρ
      (fun w => Y e w ∧ e < w.errors.size ∧ (w.errors.get e).kind.interrupt = false)
      (handler e) V X)
    (hinterrupt : ∀ e w, Y e w → e < w.errors.size → (w.errors.get e).kind.interrupt = true →
      X e w)
    (hY : ∀ e, Robust (Y e)) (hV : ∀ x, Robust (V x)) (hX : ∀ e, Robust (X e)) :
    Triple ρ P (Act.handle body handler) V X := by
  intro w hw hPw
  rw [exec_handle]
  rcases hbody.outcome hw hPw with ⟨x, v, hout, hleads, hVx⟩ | ⟨e, v, hout, hleads, he, hYe⟩
  · rw [hout]
    exact ⟨hleads, hVx⟩
  · rw [hout]
    dsimp only
    split
    next hkind => exact ⟨hleads, he, hinterrupt e v hYe he hkind⟩
    next hkind =>
      have hhandled := whileHandling (e := e) (hhandler e)
        ((hY e).and (robust_said (·.kind.interrupt = false) e)) hV hX
      obtain ⟨hleads', hends⟩ := hhandled v hleads.lawful
        ⟨⟨hYe, he, Bool.eq_false_iff.mpr hkind⟩, he⟩
      exact ⟨hleads.trans hleads', hends⟩

theorem andFinally {body cleanup : Act Unit} {U V : World → Prop}
    (hbody : Triple ρ P body (fun _ => U) Y)
    (hcleanup : Triple ρ U cleanup (fun _ => V) X)
    (hcleanup' : ∀ e, Triple ρ (fun w => Y e w ∧ e < w.errors.size) cleanup (fun _ => X e) X)
    (hY : ∀ e, Robust (Y e)) (hX : ∀ e, Robust (X e)) :
    Triple ρ P (Act.andFinally body cleanup) (fun _ => V) X := by
  intro w hw hPw
  rw [exec_andFinally]
  rcases hbody.outcome hw hPw with ⟨x, v, hout, hleads, hUx⟩ | ⟨e, v, hout, hleads, he, hYe⟩
  · rw [hout]
    obtain ⟨hleads', hends⟩ := hcleanup v hleads.lawful hUx
    exact ⟨hleads.trans hleads', hends⟩
  · rw [hout]
    have hhandled := whileHandling (e := e) (hcleanup' e) ((hY e).and (robust_made e))
      (fun _ => hX e) hX
    have hrethrown : Triple ρ (fun w => X e w ∧ e < w.errors.size) (throw e : Act Unit)
        (fun _ => V) X := failure fun _ _ h => ⟨h.2, h.1⟩
    have hcarried := hhandled.frame (F := fun w => e < w.errors.size)
      fun _ _ _ hleads h => Nat.lt_of_lt_of_le h hleads.grows.errors.size_le
    have hall := (hcarried.post (fun _ _ h => h) (fun _ _ h => h.1)).bind fun _ => hrethrown
    obtain ⟨hleads', hends⟩ := hall v hleads.lawful ⟨⟨⟨hYe, he⟩, he⟩, he⟩
    exact ⟨hleads.trans hleads', hends⟩

theorem leaving {body : Act Unit} {V : World → Prop} (hbody : Triple ρ P body (fun _ => V) X)
    (hrefusal : ∀ e i w refusal, X e w → e < w.errors.size →
      (w.errors.get e).kind.refusalToLeave = some refusal → i < w.errors.size →
      (w.errors.get i).toComplaint = refusal → X i w)
    (hX : ∀ e, Robust (X e)) : Triple ρ P (Act.leaving body) (fun _ => V) X := by
  intro w hw hPw
  rw [exec_leaving]
  rcases hbody.outcome hw hPw with ⟨x, v, hout, hleads, hVx⟩ | ⟨e, v, hout, hleads, he, hXe⟩
  · rw [hout]
    exact ⟨hleads, hVx⟩
  · rw [hout]
    dsimp only
    split
    next => exact ⟨hleads, he, hXe⟩
    next refusal hkind =>
      -- The refusal is a new object, so what is said of the error is still said of it then.
      have hsaid := (hX e).and (robust_said (·.kind.refusalToLeave = some refusal) e)
      have hcomplain : Triple ρ _ (Act.complain refusal : Act Unit) (fun _ _ => False) _ :=
        complain hsaid
      have hhandled := whileHandling (e := e) hcomplain hsaid (fun _ => robust_false)
        fun i => hsaid.and (robust_said (· = refusal) i)
      have hall := hhandled.post (U := fun _ => V) (Y := X) (fun _ _ h => h.elim)
        fun i u ⟨⟨hXe, he, hkind⟩, hi, hcomplaint⟩ =>
          hrefusal e i u refusal hXe he hkind hi hcomplaint
      obtain ⟨hleads', hends⟩ := hall v hleads.lawful ⟨⟨hXe, he, hkind⟩, he⟩
      exact ⟨hleads.trans hleads', hends⟩

/-! ## Sessions and logs -/

theorem modifySession {change : Session → Session} {V : Unit → World → Prop}
    (hstep : ∀ w, w.Lawful → P w → ρ.step w.session (change w.session) ∧
      V () { w with session := change w.session }) :
    Triple ρ P (Act.modifySession change) V X := by
  intro w hw hPw
  obtain ⟨hstep, hV⟩ := hstep w hw hPw
  exact ⟨hw.leads_session hstep, hV⟩

theorem log {record : LogRecord} (hP : Robust P) :
    Triple ρ P (Act.log record) (fun _ => P) X := by
  intro w hw hPw
  exact ⟨hw.leads_journal _, hP w _ (.refl _) rfl hPw⟩

/-- Recording seeds on an error fails only if its object complains about the value. -/
theorem augment {e : ErrorId} {seeds : List Seed} (hP : Robust P) :
    Triple ρ P (Act.augment e seeds) (fun _ => P)
      (fun i w => (P w ∧ (w.errors.get e).kind.refusal = some .value) ∧
        i < w.errors.size ∧ (w.errors.get i).toComplaint = ⟨.value, some chainsAttribute⟩) := by
  intro w hw hPw
  have hgrows := w.errors.grows_augment e seeds
  have hleads : ρ.Leads w { w with errors := (w.errors.augment e seeds).2 } :=
    hw.leads_errors (hw.errors.augment e seeds) hgrows
  have hPv := hP w { w with errors := (w.errors.augment e seeds).2 } hgrows rfl hPw
  rw [exec_augment]
  rcases hrecording : w.errors.augment e seeds with ⟨recording, errors⟩
  rw [hrecording] at hleads hPv hgrows
  cases recording with
  | done => exact ⟨hleads, hPv⟩
  | refused text =>
      have hlog : Triple ρ P (Act.log ((w.errors.get e).refusalRecord seeds text)) (fun _ => P)
        fun _ _ => False := log hP
      obtain ⟨hleads', hends⟩ := hlog _ hleads.lawful hPv
      exact ⟨hleads.trans hleads', hends⟩
  | failed c =>
      have hfailed : ((w.errors.get e).record (SeedChain.format seeds)).1 = .failed c := by
        rw [ErrorStore.augment_eq] at hrecording
        exact congrArg Prod.fst hrecording
      obtain ⟨hvalue, rfl⟩ := ErrorObject.record_failed hfailed
      -- An object that was never made refuses nothing.
      have he : e < w.errors.size := by
        rcases Nat.lt_or_ge e w.errors.size with hsize | hsize
        · exact hsize
        · rw [ErrorStore.get_of_size_le hsize] at hvalue
          cases hvalue
      have hkept : e < errors.size ∧ (errors.get e).kind.refusal = some .value :=
        ⟨Nat.lt_of_lt_of_le he hgrows.size_le, by rw [hgrows.complaint e he]; exact hvalue⟩
      have hrefusal := robust_said (·.kind.refusal = some .value) e
      obtain ⟨hleads', hends⟩ := (complain (V := fun _ _ => False) (hP.and hrefusal)) _
        hleads.lawful ⟨hPv, hkept⟩
      exact ⟨hleads.trans hleads', hends.1, ⟨hends.2.1.1, hends.2.1.2.2⟩, hends.2.2⟩

end Act.Triple
end SeededTesting

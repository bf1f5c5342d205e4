import SeededTesting.Proofs.Run.Ledger

/-! # Events of rules

A body with rules around it leaves the events of the moments that it goes through, in their order.
A rule announces itself as it is applied, its wrapper as it is entered, as it hears of an error and
as it is left, and the body as it is called. What the code of a rule or of the body does itself is
no call.
-/

namespace SeededTesting

open Act

/-! ## Announcements -/

section Announcements

variable {α : Type} {B : Complaint → Prop} {body : Act α} {w : World}

theorem Act.Conduct.calling (h : Conduct .uncalled B body) : Conduct .calling B body := by
  intro w hw hP
  obtain ⟨hleads, hends⟩ := h w hw hP
  exact ⟨hleads.calling, hends⟩

/-- What calls nothing after an event adds this event to the calls, and no other. -/
theorem Act.announced (h : ∀ v, v.Lawful → Regime.uncalled.Leads v (body.exec v).2)
    {event : Event} (hevent : event.isCall = true) (hw : w.Lawful) :
    Regime.calling.Leads w ((do Act.emit event; body : Act α).exec w).2 ∧
      ((do Act.emit event; body : Act α).exec w).2.session.calls = w.session.calls ++ [event] := by
  have hin : Regime.calling.Leads w ((Act.emit event).exec w).2 :=
    hw.leads_session (Regime.traces_calling.emit w.session event)
  have hbody := h _ hin.lawful
  have hcalls : Session.calls _ = Session.calls _ := hbody.step
  have hemit := w.session.calls_emit event
  rw [if_pos hevent] at hemit
  exact ⟨hin.trans hbody.calling, hcalls.trans hemit⟩

/-- What is called announces itself, if it can be called. -/
theorem announced_callProcedure (hB : Complains B) {code : Option Procedure}
    (h : ∀ procedure, code = some procedure → procedure.Conducts .uncalled B) (label : String)
    (arguments : List Instance) (hw : w.Lawful) :
    Regime.calling.Leads w ((callProcedure label arguments code).exec w).2 ∧
      ((callProcedure label arguments code).exec w).2.session.calls =
        w.session.calls ++ (code.map fun _ => Event.called label arguments).toList := by
  cases code with
  | none =>
      have huncallable : Conduct .uncalled B (Act.complain notCallable : Act Unit) :=
        .complain hB.uncallable
      have hleads := (huncallable w hw trivial).1
      have hcalls : Session.calls _ = Session.calls _ := hleads.step
      exact ⟨hleads.calling, hcalls.trans (List.append_nil _).symm⟩
  | some procedure =>
      exact Act.announced (fun v hv => (h procedure rfl label v hv trivial).1) rfl hw

end Announcements

namespace RuleMoment

/-! ## Accounts of moments -/

/-- The moments between two worlds account for the calls: each leaves its event, and what a wrapper
has heard of is an error of the later world. -/
structure Accounted (rules : List (Rule Procedure)) (unit : TestUnit Procedure)
    (target : Instance) (w : World) (ms : List RuleMoment) (v : World) : Prop where
  lawful : v.Lawful
  grows : w.errors.Grows v.errors
  heard : ∀ place e, .caught place e ∈ ms → e < v.errors.size
  calls : v.session.calls =
    w.session.calls ++ ms.filterMap (event? rules unit target v.errors)

variable {rules : List (Rule Procedure)} {unit : TestUnit Procedure} {target : Instance}
  {B : Complaint → Prop} {w v : World} {ms : List RuleMoment}

/-- An error that a wrapper has heard of keeps its complaint, so its event is the same later. -/
theorem filterMap_event?_of_grows {s t : ErrorStore} (h : s.Grows t)
    (hheard : ∀ place e, .caught place e ∈ ms → e < s.size) :
    ms.filterMap (event? rules unit target t) = ms.filterMap (event? rules unit target s) := by
  refine List.filterMap_congr fun m hm => ?_
  cases m with
  | caught place e =>
      rw [event?, event?, h.complaint e (hheard place e hm)]
  | applied | entered | called | raised | left => rfl

theorem mem_moments_raising {level : Nat} {act : Act Unit} {m : RuleMoment}
    (h : m ∈ (TracedRules.raising level act).moments w) :
    ∃ e interrupt, m = .raised level e interrupt := by
  simp only [TracedRules.raising] at h
  rcases hout : act.exec w with ⟨e | _, v⟩ <;> rw [hout] at h
  · exact ⟨e, _, List.mem_singleton.mp h⟩
  · cases h

theorem filterMap_event?_raising (level : Nat) (act : Act Unit) (w : World)
    (errors : ErrorStore) :
    ((TracedRules.raising level act).moments w).filterMap (event? rules unit target errors) =
      [] := by
  refine List.filterMap_eq_nil_iff.mpr fun m hmem => ?_
  obtain ⟨e, interrupt, rfl⟩ := mem_moments_raising hmem
  rfl

theorem composes_accounted : Traced.Composes fun w ms v =>
    w.Lawful → Accounted rules unit target w ms v where
  nil w hw := {
    lawful := hw
    grows := .refl _
    heard := by simp
    calls := (List.append_nil _).symm }
  append := by
    intro w t v ms ns hms hns hw
    have hfirst := hms hw
    have hrest := hns hfirst.lawful
    refine ⟨hrest.lawful, hfirst.grows.trans hrest.grows, fun place e hmem => ?_, ?_⟩
    · rcases List.mem_append.mp hmem with hmem | hmem
      · exact Nat.lt_of_lt_of_le (hfirst.heard place e hmem) hrest.grows.size_le
      · exact hrest.heard place e hmem
    · rw [hrest.calls, hfirst.calls, List.filterMap_append, List.append_assoc,
        filterMap_event?_of_grows hrest.grows hfirst.heard]

/-- A moment accounts for what is emitted in it, if nothing else is called. -/
theorem Accounted.told {m : RuleMoment} {event : Event} {rest : Act Unit}
    (hm : m.event? rules unit target w.errors = some event) (hevent : event.isCall = true)
    (hrest : ∀ v, v.Lawful → Regime.uncalled.Leads v (rest.exec v).2)
    (hheard : ∀ place e, m = .caught place e → e < w.errors.size) (hw : w.Lawful) :
    Accounted rules unit target w [m] ((do Act.emit event; rest : Act Unit).exec w).2 := by
  obtain ⟨hleads, hcalls⟩ := Act.announced hrest hevent hw
  have hgrows := hleads.grows.errors
  have hearlier : ∀ place e, .caught place e ∈ [m] → e < w.errors.size :=
    fun place e hmem => hheard place e (List.mem_singleton.mp hmem).symm
  have hevents : [m].filterMap (event? rules unit target w.errors) = [event] := by
    rw [List.filterMap_cons, hm]
    rfl
  refine ⟨hleads.lawful, hgrows, fun place e hmem => ?_, ?_⟩
  · exact Nat.lt_of_lt_of_le (hearlier place e hmem) hgrows.size_le
  · rw [hcalls, filterMap_event?_of_grows hgrows hearlier, hevents]

/-- What is told while an error is handled. -/
theorem Accounted.unhandled {e : ErrorId} (hw : w.Lawful)
    (h : Accounted rules unit target { w with handling := some e } ms v) :
    Accounted rules unit target w ms { v with handling := w.handling } where
  lawful := ⟨h.lawful.errors, fun i hi =>
    Nat.lt_of_lt_of_le (hw.handling i hi) h.grows.size_le⟩
  grows := h.grows
  heard := h.heard
  calls := h.calls

/-- A program accounts for its calls by its moments. -/
def Accounts (rules : List (Rule Procedure)) (unit : TestUnit Procedure) (target : Instance)
    (body : TracedRules Unit) : Prop :=
  Traced.Accounts (fun w ms v => w.Lawful → Accounted rules unit target w ms v) body

namespace Accounts

variable {body next : TracedRules Unit} {handler : ErrorId → TracedRules Unit}

theorem done : Accounts rules unit target (return) :=
  .value composes_accounted ()

theorem bind (hbody : Accounts rules unit target body) (hnext : Accounts rules unit target next) :
    Accounts rules unit target (do body; next) :=
  Traced.Accounts.bind composes_accounted hbody fun _ => hnext

/-- What leaves no event may raise. -/
theorem raising (level : Nat) {act : Act Unit} (h : Conduct .uncalled B act) :
    Accounts rules unit target (.raising level act) := by
  intro w hw
  have hleads := (h w hw trivial).1
  have hcalls : Session.calls _ = Session.calls _ := hleads.step
  refine ⟨hleads.lawful, hleads.grows.errors, fun place e hmem => ?_, ?_⟩
  · obtain ⟨_, _, heq⟩ := mem_moments_raising hmem
    cases heq
  · rw [filterMap_event?_raising, List.append_nil]
    exact hcalls

theorem told {m : RuleMoment} {event : Event} {rest : Act Unit}
    (hm : ∀ errors, m.event? rules unit target errors = some event)
    (hevent : event.isCall = true) (hrest : Conduct .uncalled B rest)
    (hunheard : ∀ place e, m ≠ .caught place e) :
    Accounts rules unit target (.told m do Act.emit event; rest) :=
  fun w hw => .told (hm w.errors) hevent (fun v hv => (hrest v hv trivial).1)
    (fun place e h => absurd h (hunheard place e)) hw

/-- A handler is told of an error that is at hand. -/
theorem handle (hbody : Accounts rules unit target body) (hact : Conduct .calling B body.act)
    (hhandler : ∀ e v, v.Lawful → e < v.errors.size →
      Accounted rules unit target v ((handler e).moments v) ((handler e).exec v).2) :
    Accounts rules unit target (.handle body handler) := by
  intro w hw
  have hfirst := hbody w hw
  obtain ⟨hleads, hends⟩ := hact w hw trivial
  change Regime.calling.Leads w (body.exec w).2 at hleads
  change Ends _ _ (body.exec w).1 (body.exec w).2 at hends
  rcases hout : body.exec w with ⟨e | _, v⟩ <;> rw [hout] at hfirst hleads hends
  · rw [TracedRules.exec_handle, hout]
    cases hkind : (v.errors.get e).kind.interrupt with
    | true =>
        rw [TracedRules.moments_handle_of_interrupt hout hkind]
        simpa only [hkind, if_true] using hfirst
    | false =>
        rw [TracedRules.moments_handle_of_error hout hkind]
        have hsecond := hhandler e _ (hleads.lawful.handled hends.1) hends.1
        simp only [hkind, Bool.false_eq_true, if_false, exec_whileHandling]
        exact composes_accounted.append (fun _ => hfirst) (fun hv => hsecond.unhandled hv) hw
  · rw [TracedRules.exec_handle, TracedRules.moments_handle_of_ok hout, hout]
    exact hfirst

end Accounts
end RuleMoment

/-! ## Accounts of rules -/

open RuleMoment

variable {B : Complaint → Prop} {rules : List (Rule Procedure)} {unit : TestUnit Procedure}
  {target : Instance}

namespace Rule

variable {rule : Rule Procedure} {statement : TracedRules Unit}

theorem accounts_tracedRepeated (h : Accounts rules unit target statement) (times : Nat) :
    Accounts rules unit target (tracedRepeated statement times) := by
  induction times with
  | zero => exact .done
  | succ times ih => exact h.bind ih

section Places

variable {place : Nat} (hget : rules[place]? = some rule)
  (hrule : ∀ code ∈ rule.codes, code.Conducts .uncalled B)

include hget

/-- A wrapper hears of an error before it swallows it or lets it pass. -/
theorem accounts_tracedInner (hstatement : Accounts rules unit target statement)
    (hact : Conduct .calling B statement.act) :
    Accounts rules unit target (rule.tracedInner place statement) := by
  have hrepeated : Conduct .calling B (tracedRepeated statement rule.times).act := by
    rw [act_tracedRepeated]
    exact conduct_repeated hact rule.times
  refine (accounts_tracedRepeated hstatement rule.times).handle hrepeated fun e v hv he => ?_
  have hcaught : event? rules unit target v.errors (.caught place e) =
      some (.ruleCaught rule.tag (v.errors.get e).toComplaint) := by
    rw [event?, hget, Option.map_some]
  refine .told hcaught rfl (fun u hu => ?_) (fun _ _ h => ?_) hv
  · -- Swallowing an error and letting it pass both leave the world as it is.
    cases rule.swallow <;> exact .refl hu
  · cases h
    exact he

include hrule

theorem accounts_tracedAround (hstatement : Accounts rules unit target statement)
    (hact : Conduct .calling B statement.act) :
    Accounts rules unit target (rule.tracedAround place statement) := by
  have hbefore : rule.before.Conducts .uncalled B := hrule _ (by simp [codes])
  have hafter : rule.after.Conducts .uncalled B := hrule _ (by simp [codes])
  have hentered : Accounts rules unit target
      (.told (.entered place) (Act.emit (.ruleEntered rule.tag))) :=
    .told (by simp [event?, hget]) rfl (Conduct.value (B := B) ()) (by simp)
  have hleft : Accounts rules unit target
      (.told (.left place) (Act.emit (.ruleLeft rule.tag))) :=
    .told (by simp [event?, hget]) rfl (Conduct.value (B := B) ()) (by simp)
  exact hentered.bind <| (Accounts.raising _ (hbefore _)).bind <|
    (accounts_tracedInner hget hstatement hact).bind <|
      (Accounts.raising _ (hafter _)).bind hleft

end Places

theorem conduct_nest {rules : List (Rule Procedure)} {inner : Act Unit}
    (hrules : ∀ rule ∈ rules, ∀ code ∈ rule.codes, code.Conducts .calling B)
    (h : Conduct .calling B inner) : Conduct .calling B (nest rules inner) := by
  induction rules using List.reverseRecOn with
  | nil => exact h
  | append_singleton rules rule ih =>
      rw [nest, List.foldl_append]
      refine conduct_around Regime.traces_calling (hrules rule (by simp)) (ih ?_)
      exact fun rule hmem => hrules rule (List.mem_append_left _ hmem)

section Rules

variable (hrules : ∀ rule ∈ rules, ∀ code ∈ rule.codes, code.Conducts .uncalled B)

include hrules

/-- The rules that are left to apply, from their place on. -/
theorem accounts_tracedApplyEach {place : Nat} {rest : List (Rule Procedure)}
    (hrest : rest = rules.drop place) :
    Accounts rules unit target (tracedApplyEach unit.name target place rest) := by
  induction rest generalizing place with
  | nil => exact .done
  | cons rule rest ih =>
      have hget : rules[place]? = some rule := by
        rw [← List.head?_drop, ← hrest, List.head?_cons]
      have hrule : rule.build.Conducts .uncalled B :=
        hrules rule (List.mem_of_getElem? hget) _ (by simp [codes])
      have hdrop : rest = rules.drop (place + 1) := by
        rw [← List.tail_drop, ← hrest, List.tail_cons]
      refine Accounts.bind ?_ (ih hdrop)
      exact .told (by simp [event?, hget]) rfl (hrule rule.label) (by simp)

/-- The nest of the first rules, whose inner statement is made of the body. -/
theorem accounts_tracedNest {first rest : List (Rule Procedure)} (h : rules = first ++ rest)
    {statement : TracedRules Unit} (hstatement : Accounts rules unit target statement)
    (hact : Conduct .calling B statement.act) :
    Accounts rules unit target (tracedNest first statement) := by
  -- A later rule goes around the earlier ones, so the list is taken apart from its end.
  induction first using List.reverseRecOn generalizing rest with
  | nil => exact hstatement
  | append_singleton first rule ih =>
      have hsplit : rules = first ++ rule :: rest := by
        rw [h, List.append_assoc, List.singleton_append]
      have hget : rules[first.length]? = some rule := by
        rw [hsplit, List.getElem?_append_right (Nat.le_refl _), Nat.sub_self]
        rfl
      have hinner : Conduct .calling B (tracedNest first statement).act := by
        rw [act_tracedNest]
        refine conduct_nest (fun rule hmem code hcode label => ?_) hact
        have hmem' : rule ∈ rules := hsplit ▸ List.mem_append_left _ hmem
        exact (hrules rule hmem' code hcode label).calling
      rw [tracedNest_snoc]
      exact accounts_tracedAround hget (hrules rule (List.mem_of_getElem? hget)) (ih hsplit) hinner

end Rules
end Rule

/-- The body announces itself, if there is one. -/
theorem TestUnit.accounts_tracedCall (hB : Complains B)
    (hbody : ∀ procedure, unit.body = some procedure → procedure.Conducts .uncalled B) :
    Accounts rules unit target (unit.tracedCall target) := by
  intro w hw
  obtain ⟨hleads, hcalls⟩ :=
    announced_callProcedure hB hbody ("body:" ++ unit.name) [target] hw
  have hexec : (unit.tracedCall target).exec w = (unit.call target).exec w := rfl
  have hmoments : (unit.tracedCall target).moments w =
      .called :: (TracedRules.raising 0 (unit.call target)).moments w := rfl
  rw [hexec, hmoments]
  refine ⟨hleads.lawful, hleads.grows.errors, fun place e hmem => ?_, ?_⟩
  · rcases List.mem_cons.mp hmem with heq | hmem
    · cases heq
    · obtain ⟨_, _, heq⟩ := mem_moments_raising hmem
      cases heq
  · refine hcalls.trans ?_
    rw [List.filterMap_cons, filterMap_event?_raising, event?]
    cases unit.body <;> rfl

namespace Runner

theorem accounts_tracedBody (hB : Complains B) (r : Runner Procedure)
    (hcodes : ∀ code ∈ r.suite.codes, code.Conducts .uncalled B) {c : Candidate Procedure}
    (hunit : c.unit ∈ r.suite.units) (target : Instance) :
    Accounts r.suite.rules c.unit target (r.tracedBody c target) := by
  have hrules : ∀ rule ∈ r.suite.rules, ∀ code ∈ rule.codes, code.Conducts .uncalled B :=
    fun rule hrule code hcode => hcodes code (Suite.rule_mem_codes hrule hcode)
  have hbody : ∀ procedure, c.unit.body = some procedure → procedure.Conducts .uncalled B :=
    fun procedure hcode => hcodes procedure (Suite.body_mem_codes hunit hcode)
  have hcall : Conduct .calling B (c.unit.tracedCall target).act := by
    rw [TestUnit.act_tracedCall]
    exact TestUnit.conduct_call Regime.traces_calling hB
      (fun procedure hcode label => (hbody procedure hcode label).calling) target
  refine Accounts.bind (Rule.accounts_tracedApplyEach hrules rfl) ?_
  exact Rule.accounts_tracedNest hrules (List.append_nil _).symm
    (TestUnit.accounts_tracedCall hB hbody) hcall

/-- What a body leaves with the rules around it are the events of its moments. -/
theorem announced_callBody (hB : Complains B) (r : Runner Procedure)
    (hcodes : ∀ code ∈ r.suite.codes, code.Conducts .uncalled B) {c : Candidate Procedure}
    (hunit : c.unit ∈ r.suite.units) (target : Instance) {w : World} (hw : w.Lawful) :
    ((r.callBody c target).exec w).2.session.calls.drop w.session.calls.length =
      r.bodyEvents c target w := by
  have hexec : (r.callBody c target).exec w = (r.tracedBody c target).exec w := by
    rw [← r.act_tracedBody]
    rfl
  have hcalls := (r.accounts_tracedBody hB hcodes hunit target w hw).calls
  rw [hexec, hcalls, List.drop_left]
  rfl

end Runner
end SeededTesting

import SeededTesting.Proofs.Run.Calm
import SeededTesting.Proofs.Run.RuleMoments
import SeededTesting.Proofs.Script.Reportable

/-! # Ledgers of calls

A ledger is a run without exceptions: a world, and a record of every call that was made to a
collaborator, with the error that it raised. Bookkeeping decides from what is recorded which call
comes next. An action follows bookkeeping if it ends as the bookkeeping says, in the same world,
provided that the recorded errors can be reported.
-/

namespace SeededTesting

open Act

/-- A call to a collaborator of a suite, or to a body with the rules of a runner around it. -/
inductive Call where
  | hook (hook : Hook Procedure) (arguments : List Instance)
  | factory
  | body (r : Runner Procedure) (c : Candidate Procedure) (target : Instance)

/-- A call that was made: the world that it was made in, the error that it raised, if any, and the
events that it left. -/
structure CallRecord where
  call : Call
  start : World
  error : Option Complaint
  events : List Event

structure Ledger where
  world : World
  records : List CallRecord := []

abbrev Bookkeeping := StateM Ledger

/-- The events of calls to hooks, factories, rules and bodies. -/
def Event.isCall : Event → Bool
  | .called .. | .instanceMade _ | .ruleBuilt .. | .ruleEntered _ | .ruleCaught .. | .ruleLeft _ =>
    true
  | .listenerMade _ | .heard .. | .observed .. | .nested .. => false

def Session.calls (s : Session) : List Event :=
  s.trace.toList.filter Event.isCall

/-- What can be said about the error with which an action ended. -/
def raisedIn {α : Type} (w : World) : Except ErrorId α → Option Complaint
  | .ok _ => none
  | .error e => some (w.errors.get e).toComplaint

namespace Ledger

/-- Makes a call and records it. -/
def note {α : Type} (call : Call) (act : Act α) : Bookkeeping (Except ErrorId α) :=
  modifyGet fun l =>
    let (outcome, w) := act.exec l.world
    let events := w.session.calls.drop l.world.session.calls.length
    (outcome, {
      world := w
      records := l.records ++
        [{ call, start := l.world, error := raisedIn w outcome, events }] })

/-- Does something that is not a call. -/
def meanwhile (act : Act Unit) : Bookkeeping Unit :=
  modify fun l => { l with world := (act.exec l.world).2 }

/-- Calls hooks up to and including the first that raises. -/
def untilError (arguments : List Instance) :
    List (Hook Procedure) → Bookkeeping (Except ErrorId Unit)
  | [] => return .ok ()
  | hook :: rest => do
    match ← note (.hook hook arguments) (hook.call arguments) with
    | .ok () => untilError arguments rest
    | .error e => return .error e

/-- The error with which an action ended. -/
def failure? : Except ErrorId Unit → Option ErrorId
  | .ok () => none
  | .error e => some e

/-- Calls hooks whatever they raise, and gives their errors. -/
def each (arguments : List Instance) :
    List (Hook Procedure) → Bookkeeping (List (Hook Procedure × Option ErrorId))
  | [] => return []
  | hook :: rest => do
    let error ← failure? <$> note (.hook hook arguments) (hook.call arguments)
    return (hook, error) :: (← each arguments rest)

/-- All errors that were recorded can be reported. -/
def Reportable (l : Ledger) : Prop :=
  ∀ record ∈ l.records, ∀ c, record.error = some c → c.Reportable

/-- An error was recorded. -/
def Recorded (e : ErrorId) (l : Ledger) : Prop :=
  e < l.world.errors.size ∧
    ∃ record ∈ l.records, record.error = some (l.world.errors.get e).toComplaint

end Ledger

/-- A hook is announced by its label and arguments, a factory by the number of the instance. A body
is announced by what it goes through with the rules around it: as they are applied, and as the nest
that they make is run. -/
def CallRecord.Announced (record : CallRecord) : Prop :=
  match record.call with
  | .hook hook arguments =>
    record.events = if hook.code.isSome then [.called hook.label arguments] else []
  | .factory => ∃ n, record.events = [.instanceMade n]
  | .body r c target => record.events = r.bodyEvents c target record.start

/-! ## Regimes -/

/-- Stacks are rewound, and calls only added. -/
def Regime.calling : Regime where
  balanced := True
  step s t := s.calls <+: t.calls
  refl _ := List.prefix_rfl
  trans := List.IsPrefix.trans

/-- Stacks are rewound, and nothing is called. -/
def Regime.uncalled : Regime where
  balanced := True
  step s t := t.calls = s.calls
  refl _ := rfl
  trans h h' := h'.trans h

theorem Session.calls_emit (s : Session) (event : Event) :
    { s with trace := s.trace.push event : Session }.calls =
      s.calls ++ if event.isCall then [event] else [] := by
  rw [calls, Array.toList_push, List.filter_append, calls]
  cases h : event.isCall <;> simp [h]

theorem Session.calls_emit_of_not {event : Event} (h : event.isCall = false) (s : Session) :
    { s with trace := s.trace.push event : Session }.calls = s.calls := by
  rw [calls_emit, h]
  exact List.append_nil _

theorem Regime.traces_calling : calling.Traces where
  emit s event := by
    change s.calls <+: _
    rw [Session.calls_emit]
    exact List.prefix_append _ _
  instances _ _ := List.prefix_rfl

/-- Whatever a run does, calls are only added. -/
theorem Regime.works_calling : calling.Works where
  traces := traces_calling
  prepares := {
    made s tag := traces_calling.emit s (.listenerMade tag)
    state _ _ := List.prefix_rfl
    listeners _ _ := List.prefix_rfl
    declared _ _ := List.prefix_rfl
    subscribed _ _ _ := List.prefix_rfl }
  closes := ⟨fun _ _ => List.prefix_rfl, fun _ _ => List.prefix_rfl, fun _ _ => List.prefix_rfl⟩
  record _ _ _ := List.prefix_rfl

theorem Regime.heard_uncalled : uncalled.Heard :=
  fun s _ _ _ _ => s.calls_emit_of_not rfl

/-- Calling nothing is a way of adding calls. -/
theorem Regime.Leads.calling {w v : World} (h : uncalled.Leads w v) : calling.Leads w v := by
  have hcalls : v.session.calls = w.session.calls := h.step
  have hstep : w.session.calls <+: v.session.calls := hcalls ▸ List.prefix_rfl
  exact ⟨h.lawful, h.grows, hstep, h.rewound⟩

/-! ## Extensions -/

/-- One ledger goes on from another: calls were made and recorded, whose errors are of a sort. -/
structure Ledger.Extends (B : Complaint → Prop) (l l' : Ledger) : Prop where
  leads : Regime.calling.Leads l.world l'.world
  records : ∃ new, l'.records = l.records ++ new ∧
    l'.world.session.calls = l.world.session.calls ++ new.flatMap (·.events) ∧
    ∀ record ∈ new, record.Announced ∧ ∀ c, record.error = some c → B c

namespace Ledger

variable {B : Complaint → Prop} {l l' l'' : Ledger}

theorem Extends.refl (h : l.world.Lawful) : l.Extends B l :=
  ⟨.refl h, [], (List.append_nil _).symm, (List.append_nil _).symm, List.forall_mem_nil _⟩

theorem Extends.trans (h : l.Extends B l') (h' : l'.Extends B l'') : l.Extends B l'' := by
  obtain ⟨new, hnew, hcalls, hmade⟩ := h.records
  obtain ⟨new', hnew', hcalls', hmade'⟩ := h'.records
  refine ⟨h.leads.trans h'.leads, new ++ new', ?_, ?_, ?_⟩
  · rw [hnew', hnew, List.append_assoc]
  · rw [hcalls', hcalls, List.flatMap_append, List.append_assoc]
  · intro record hmem
    rcases List.mem_append.mp hmem with hmem | hmem
    · exact hmade record hmem
    · exact hmade' record hmem

theorem Extends.reportable (h : l.Extends B l') (hl : l'.Reportable) : l.Reportable := by
  obtain ⟨new, hnew, -, -⟩ := h.records
  intro record hmem
  exact hl record (by rw [hnew]; exact List.mem_append_left new hmem)

/-- Errors that can be reported are added to such. -/
theorem Extends.reportable_of_sort (h : l.Extends Complaint.Reportable l') (hl : l.Reportable) :
    l'.Reportable := by
  obtain ⟨new, hnew, -, hmade⟩ := h.records
  intro record hmem
  rw [hnew] at hmem
  rcases List.mem_append.mp hmem with hmem | hmem
  · exact hl record hmem
  · exact (hmade record hmem).2

theorem Extends.recorded (h : l.Extends B l') {e : ErrorId} (he : l.Recorded e) :
    l'.Recorded e := by
  obtain ⟨hsize, record, hmem, herror⟩ := he
  obtain ⟨new, hnew, -, -⟩ := h.records
  refine ⟨Nat.lt_of_lt_of_le hsize h.leads.grows.errors.size_le, record, ?_, ?_⟩
  · rw [hnew]
    exact List.mem_append_left new hmem
  · rw [h.leads.grows.errors.complaint e hsize]
    exact herror

/-- A world that nothing was called in, with the records of before. -/
theorem Extends.ofUncalled {v : World} (h : Regime.uncalled.Leads l.world v) :
    l.Extends B { l with world := v } := by
  refine ⟨h.calling, [], (List.append_nil _).symm, ?_, List.forall_mem_nil _⟩
  rw [List.flatMap_nil, List.append_nil]
  exact h.step

/-- A recorded error is reportable if all are. -/
theorem Recorded.blames (hl : l.Reportable) {e : ErrorId} (he : l.Recorded e) :
    Blames (Caught Complaint.Reportable) e l.world := by
  obtain ⟨hsize, record, hmem, herror⟩ := he
  have hreportable := hl record hmem _ herror
  exact ⟨hsize, hreportable, hreportable.1⟩

/-! ## Following -/

/-- What is asserted of a ledger is kept when it goes on. -/
def Kept (B : Complaint → Prop) (P : Ledger → Prop) : Prop :=
  ∀ l l' : Ledger, l.Extends B l' → P l → P l'

/-- From ledgers of which `P` holds an action follows bookkeeping, after which `Q` holds. -/
def Follows {α : Type} (B : Complaint → Prop) (P : Ledger → Prop) (body : Act α)
    (book : Bookkeeping α) (Q : α → Ledger → Prop) : Prop :=
  ∀ l, l.world.Lawful → P l → l.Extends B (book.run l).2 ∧ Q (book.run l).1 (book.run l).2 ∧
    ((book.run l).2.Reportable →
      body.exec l.world = (.ok (book.run l).1, (book.run l).2.world))

namespace Follows

variable {α β : Type} {P R : Ledger → Prop} {body : Act α} {book : Bookkeeping α}
  {Q U : α → Ledger → Prop} {V : β → Ledger → Prop}

theorem conseq (h : Follows B P body book Q) (hP : ∀ l, R l → P l)
    (hQ : ∀ x l, Q x l → U x l) : Follows B R body book U := by
  intro l hl hR
  obtain ⟨hextends, hQx, hexec⟩ := h l hl (hP l hR)
  exact ⟨hextends, hQ _ _ hQx, hexec⟩

theorem keep (h : Follows B P body book Q) (hR : Kept B R) :
    Follows B (fun l => P l ∧ R l) body book (fun x l => Q x l ∧ R l) := by
  intro l hl ⟨hPl, hRl⟩
  obtain ⟨hextends, hQx, hexec⟩ := h l hl hPl
  exact ⟨hextends, ⟨hQx, hR _ _ hextends hRl⟩, hexec⟩

theorem congr {body' : Act α} (h : Follows B P body book Q)
    (hexec : ∀ l : Ledger, P l → body'.exec l.world = body.exec l.world) :
    Follows B P body' book Q := by
  intro l hl hPl
  rw [hexec l hPl]
  exact h l hl hPl

theorem value {x : α} (h : ∀ l, P l → Q x l) : Follows B P (pure x) (pure x) Q :=
  fun l hl hPl => ⟨.refl hl, h l hPl, fun _ => rfl⟩

theorem run_bind (book : Bookkeeping α) (rest : α → Bookkeeping β) (l : Ledger) :
    (book >>= rest).run l = (rest (book.run l).1).run (book.run l).2 := rfl

theorem bind {next : α → Act β} {rest : α → Bookkeeping β} (hbody : Follows B P body book Q)
    (hnext : ∀ x, Follows B (Q x) (next x) (rest x) V) :
    Follows B P (body >>= next) (book >>= rest) V := by
  intro l hl hPl
  obtain ⟨hextends, hQx, hexec⟩ := hbody l hl hPl
  obtain ⟨hextends', hV, hexec'⟩ := hnext _ _ hextends.leads.lawful hQx
  refine ⟨hextends.trans hextends', hV, fun hreportable => ?_⟩
  rw [exec_bind_of_ok (hexec (hextends'.reportable hreportable))]
  exact hexec' hreportable

/-- An error that was recorded is handled if it can be reported. -/
theorem handleGiving (give : β → α) {body : Act β} {handler : ErrorId → Act α}
    {book : Bookkeeping (Except ErrorId β)} {Q : Except ErrorId β → Ledger → Prop}
    {rest : Except ErrorId β → Bookkeeping α} (hbody : Follows B P (Act.observe body) book Q)
    (hvalue : ∀ x, Follows B (Q (.ok x)) (pure (give x)) (rest (.ok x)) U)
    (hhandler : ∀ e, Follows B (Q (.error e)) (Act.whileHandling e (handler e)) (rest (.error e)) U)
    (hrecorded : ∀ e l, Q (.error e) l → l.Recorded e) :
    Follows B P (Act.handle (do return give (← body)) handler) (book >>= rest) U := by
  intro l hl hPl
  obtain ⟨hextends, hQx, hexec⟩ := hbody l hl hPl
  rw [exec_observe] at hexec
  rw [exec_handle, exec_bind, run_bind]
  generalize book.run l = result at *
  obtain ⟨outcome, l'⟩ := result
  cases outcome with
  | ok x =>
      obtain ⟨hextends', hU, hexec'⟩ := hvalue x l' hextends.leads.lawful hQx
      refine ⟨hextends.trans hextends', hU, fun hreportable => ?_⟩
      have hbody' := hexec (hextends'.reportable hreportable)
      simp only [Prod.mk.injEq, Except.ok.injEq] at hbody'
      rw [← hexec' hreportable, ← Prod.eta (body.exec l.world), hbody'.1, hbody'.2]
      rfl
  | error e =>
      obtain ⟨hextends', hU, hexec'⟩ := hhandler e l' hextends.leads.lawful hQx
      refine ⟨hextends.trans hextends', hU, fun hreportable => ?_⟩
      have hl' := hextends'.reportable hreportable
      have hbody' := hexec hl'
      simp only [Prod.mk.injEq, Except.ok.injEq] at hbody'
      -- An error that can be reported is no interrupt, so the handler is run.
      have hcaught := ((hrecorded e l' hQx).blames hl').2.2
      rw [← hexec' hreportable, ← Prod.eta (body.exec l.world), hbody'.1, hbody'.2]
      exact if_neg (Bool.eq_false_iff.mp hcaught)

theorem handle {handler : ErrorId → Act α} {book : Bookkeeping (Except ErrorId α)}
    {Q : Except ErrorId α → Ledger → Prop} {rest : Except ErrorId α → Bookkeeping α}
    (hbody : Follows B P (Act.observe body) book Q)
    (hvalue : ∀ x, Follows B (Q (.ok x)) (pure x) (rest (.ok x)) U)
    (hhandler : ∀ e, Follows B (Q (.error e)) (Act.whileHandling e (handler e)) (rest (.error e)) U)
    (hrecorded : ∀ e l, Q (.error e) l → l.Recorded e) :
    Follows B P (Act.handle body handler) (book >>= rest) U := by
  have hgiving := handleGiving (fun x => x) hbody hvalue hhandler hrecorded
  rwa [bind_pure] at hgiving

theorem andFinally {body cleanup : Act Unit} {book finish : Bookkeeping Unit} {Q V : Ledger → Prop}
    (hbody : Follows B P body book fun _ => Q)
    (hcleanup : Follows B Q cleanup finish fun _ => V) :
    Follows B P (Act.andFinally body cleanup) (do book; finish) fun _ => V := by
  intro l hl hPl
  obtain ⟨hextends, hQ, hexec⟩ := hbody l hl hPl
  obtain ⟨hextends', hV, hexec'⟩ := hcleanup _ hextends.leads.lawful hQ
  refine ⟨hextends.trans hextends', hV, fun hreportable => ?_⟩
  rw [exec_andFinally, hexec (hextends'.reportable hreportable)]
  exact hexec' hreportable

/-- What is given while an error is handled is given. -/
theorem handled {e : ErrorId} {act : Act α} (h : Follows B P (Act.whileHandling e act) book Q)
    (give : α → β) :
    Follows B P (Act.whileHandling e (do return give (← act))) (do return give (← book))
      fun y l => ∃ x, y = give x ∧ Q x l := by
  intro l hl hPl
  obtain ⟨hextends, hQx, hexec⟩ := h l hl hPl
  refine ⟨hextends, ⟨_, rfl, hQx⟩, fun hreportable => ?_⟩
  have hact := hexec hreportable
  rw [exec_whileHandling] at hact ⊢
  rw [exec_bind, run_bind]
  generalize act.exec { l.world with handling := some e } = result at *
  obtain ⟨outcome, v⟩ := result
  simp only [Prod.mk.injEq] at hact
  obtain ⟨rfl, hv⟩ := hact
  exact Prod.ext rfl hv

/-- An error that was recorded is kept, and the run goes on. -/
theorem failure? {act : Act Unit} {book : Bookkeeping (Except ErrorId Unit)}
    (h : Follows B P (Act.observe act) book fun outcome l =>
      ∀ e, outcome = .error e → l.Recorded e) :
    Follows B P (Act.handle (do act; return none) (return some ·)) (Ledger.failure? <$> book)
      fun error l => ∀ e, error = some e → l.Recorded e := by
  have hbook : Ledger.failure? <$> book =
      book >>= fun outcome => pure (Ledger.failure? outcome) := rfl
  have hkept : ∀ e, Follows B (Recorded e) (Act.whileHandling e (return some e))
      (return some e) fun error l => ∀ i, error = some i → l.Recorded i := by
    intro e l hl hrecorded
    refine ⟨.refl hl, fun i hi => ?_, fun _ => ?_⟩
    · cases hi
      exact hrecorded
    · rw [exec_whileHandling]
      rfl
  rw [hbook]
  refine handleGiving (fun _ => none) h (fun _ => .value fun _ _ _ he => nomatch he) ?_ ?_
  · exact fun e => (hkept e).conseq (fun l hl => hl e rfl) fun _ _ h => h
  · exact fun e _ hrecorded => hrecorded e rfl

/-- What is no call leaves the records as they are. -/
theorem meanwhile {act : Act Unit} (hP : Kept B P)
    (hleads : ∀ l, l.world.Lawful → P l → Regime.uncalled.Leads l.world (act.exec l.world).2)
    (hends : ∀ l, l.world.Lawful → P l → l.Reportable → (act.exec l.world).1 = .ok ()) :
    Follows B P act (Ledger.meanwhile act) fun _ => P := by
  intro l hl hPl
  have hextends : l.Extends B { l with world := (act.exec l.world).2 } :=
    .ofUncalled (hleads l hl hPl)
  refine ⟨hextends, hP _ _ hextends hPl, fun hreportable => ?_⟩
  exact Prod.ext (hends l hl hPl hreportable) rfl

/-- An action that never raises and calls nothing may come in between. -/
theorem calmly {act : Act Unit} (hP : Kept B P) (h : Conduct .uncalled noComplaint act) :
    Follows B P act (Ledger.meanwhile act) fun _ => P := by
  refine meanwhile hP (fun l hl _ => (h l.world hl trivial).1) fun l hl _ _ => ?_
  obtain ⟨_, v, hout, -, -⟩ := Conduct.exists_ok h (fun _ h => h) hl trivial
  rw [hout]

/-- A call is recorded with the error that it raised. -/
theorem note {call : Call} {act : Act α} (h : Conduct .calling B act)
    (hannounced : ∀ w, w.Lawful → ∀ error,
      CallRecord.Announced ⟨call, w, error,
        (act.exec w).2.session.calls.drop w.session.calls.length⟩) :
    Follows B P (Act.observe act) (Ledger.note call act)
      fun outcome l => ∀ e, outcome = .error e → l.Recorded e := by
  intro l hl _
  have hresult := h l.world hl trivial
  have hann := hannounced l.world hl
  have hrun : (Ledger.note call act).run l = ((act.exec l.world).1, {
      world := (act.exec l.world).2
      records := l.records ++ [{
        call, start := l.world
        error := raisedIn (act.exec l.world).2 (act.exec l.world).1
        events := (act.exec l.world).2.session.calls.drop l.world.session.calls.length }] }) := rfl
  rw [hrun]
  rw [exec_observe]
  generalize act.exec l.world = result at *
  obtain ⟨outcome, v⟩ := result
  obtain ⟨hleads, hends⟩ := hresult
  have hprefix : l.world.session.calls <+: v.session.calls := hleads.step
  refine ⟨⟨hleads, _, rfl, ?_, ?_⟩, ?_, fun _ => rfl⟩
  · rw [List.flatMap_singleton]
    exact (List.prefix_iff_eq_append.mp hprefix).symm
  · intro record hmem
    cases List.mem_singleton.mp hmem
    refine ⟨hann _, fun c hc => ?_⟩
    cases outcome with
    | ok _ => cases hc
    | error e =>
        cases hc
        exact hends.2.2
  · rintro e rfl
    exact ⟨hends.1, _, List.mem_append_right _ List.mem_cons_self, rfl⟩

end Follows
end Ledger
end SeededTesting

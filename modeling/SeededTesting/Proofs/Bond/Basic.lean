import SeededTesting.Run.Act

/-! # Bonds

Two runs can be held side by side, step by step, although they are not the same. A bond says how
their worlds compare: the errors are the same, the innermost contexts differ in their stacks only,
and the sessions differ at most in events that one of the runs has for itself, in the state of the
runner, in the filter, and in the serial numbers of listeners.
-/

namespace SeededTesting

/-- How the sessions of two runs compare. -/
structure Terms where
  /-- Which events the runs have in common. -/
  seen : Event → Bool := fun _ => true
  /-- The events before, in the first run. -/
  past : List Event := []
  /-- The events before, in the second run. -/
  past' : List Event := []
  /-- Whether the runners are in the same state, and log the same. -/
  states : Bool := true
  /-- The state of the first runner before, if they are not. -/
  begun : RunState := .created
  /-- The state of the second runner before. -/
  begun' : RunState := .created
  /-- Whether the candidates are filtered by the same test. -/
  filters : Bool := true
  /-- How many more listeners were made before in the second run. -/
  serials : Nat := 0

structure Bond extends Terms where
  /-- The innermost context of both runs; its stack does not matter. -/
  context : RunContext
  /-- The contexts around it in the first run. -/
  outer : List RunContext
  /-- The contexts around it in the second run. -/
  outer' : List RunContext
  /-- How the stacks of the innermost contexts compare. -/
  stack : ContextStack RandomSource → ContextStack RandomSource → Prop

/-- The listener whose serial number, if it has one, is larger by `n`. -/
def ListenerRef.later (n : Nat) : ListenerRef → ListenerRef
  | .declared index (some serial) => .declared index (some (serial + n))
  | listener => listener

theorem ListenerRef.later_injective (n : Nat) : Function.Injective (later n) := by
  intro a b h
  cases a with
  | caller i =>
      cases b with
      | caller j => exact h
      | declared j serial => cases serial <;> cases h
  | declared i serial =>
      cases b with
      | caller j => cases serial <;> cases h
      | declared j serial' =>
          cases serial <;> cases serial' <;> simp [later] at h ⊢ <;> omega

theorem ListenerRef.later_zero (listener : ListenerRef) : listener.later 0 = listener := by
  cases listener with
  | caller index => rfl
  | declared index serial => cases serial <;> rfl

/-! ## Sessions -/

namespace Terms

/-- The entry of the second recording for an entry of the first. -/
def entry (τ : Terms) (e : ListenerRef × Notification ErrorId) :
    ListenerRef × Notification ErrorId :=
  (e.1.later τ.serials, e.2)

theorem entry_eq_id {τ : Terms} (h : τ.serials = 0) : τ.entry = id := by
  funext e
  rw [entry, h, ListenerRef.later_zero]
  rfl

structure Accords (τ : Terms) (s t : Session) : Prop where
  instances : t.instances = s.instances
  listeners : t.listeners = s.listeners + τ.serials
  subscribed : t.subscribed = s.subscribed.map (·.later τ.serials)
  declared : t.declared = s.declared.map (·.later τ.serials)
  recorded : t.recorded.toList = s.recorded.toList.map τ.entry
  lastContext : t.lastContext = s.lastContext
  /-- A state that a runner enters is entered by the other one. -/
  state : t.state = s.state ∨ τ.states = false ∧ s.state = τ.begun ∧ t.state = τ.begun'
  predicate : τ.filters = true → t.predicate = s.predicate
  trace : ∃ new new', s.trace.toList = τ.past ++ new ∧ t.trace.toList = τ.past' ++ new' ∧
    new'.filter τ.seen = new.filter τ.seen

/-- How worlds compare, but for their contexts. -/
structure Agrees (τ : Terms) (w v : World) : Prop where
  errors : v.errors = w.errors
  handling : v.handling = w.handling
  sequence : v.sequence = w.sequence
  journal : τ.states = true → v.journal = w.journal
  session : τ.Accords w.session v.session

namespace Accords

variable {τ : Terms} {s t : Session}

theorem state_eq (h : τ.Accords s t) (hstates : τ.states = true) : t.state = s.state :=
  h.state.resolve_right fun hbegun => Bool.noConfusion (hstates.symm.trans hbegun.1)

/-- Each run may have events for itself. -/
theorem append (h : τ.Accords s t) {events events' : List Event}
    (hseen : events'.filter τ.seen = events.filter τ.seen) :
    τ.Accords { s with trace := s.trace ++ events } { t with trace := t.trace ++ events' } := by
  obtain ⟨new, new', hs, ht, heq⟩ := h.trace
  refine { h with trace := ⟨new ++ events, new' ++ events', ?_, ?_, ?_⟩ }
  · rw [Array.toList_appendList, hs, List.append_assoc]
  · rw [Array.toList_appendList, ht, List.append_assoc]
  · rw [List.filter_append, List.filter_append, heq, hseen]

theorem emit (h : τ.Accords s t) (event : Event) :
    τ.Accords { s with trace := s.trace.push event } { t with trace := t.trace.push event } := by
  rw [Array.push_eq_append, Array.push_eq_append]
  have hsame : [event].filter τ.seen = [event].filter τ.seen := rfl
  exact h.append hsame

/-- A listener has been told the same in both runs. -/
theorem recordedBy_later (h : τ.Accords s t) (listener : ListenerRef) :
    t.recordedBy (listener.later τ.serials) = s.recordedBy listener := by
  have hfilter : (s.recorded.toList.map τ.entry).filter (·.1 = listener.later τ.serials) =
      (s.recorded.toList.filter (·.1 = listener)).map τ.entry := by
    rw [List.filter_map]
    congr 1
    refine List.filter_congr fun e _ => decide_eq_decide.mpr ?_
    exact (ListenerRef.later_injective τ.serials).eq_iff
  rw [Session.recordedBy, Session.recordedBy, h.recorded, hfilter, List.map_map]
  rfl

theorem record (h : τ.Accords s t) (listener : ListenerRef) (n : Notification ErrorId) :
    τ.Accords (s.record listener n) (t.record (listener.later τ.serials) n) := by
  refine { h with recorded := ?_ }
  unfold Session.record
  rw [Array.toList_push, Array.toList_push, h.recorded, h.recordedBy_later, List.map_append]
  rfl

end Accords

/-- A session accords with itself if both runs start from it. -/
theorem accords_self {τ : Terms} {s : Session} (hserials : τ.serials = 0) {events : List Event}
    (hpast : s.trace.toList = τ.past ++ events) (hpast' : s.trace.toList = τ.past' ++ events) :
    τ.Accords s s where
  instances := rfl
  listeners := by rw [hserials]; rfl
  subscribed := by simp [hserials, ListenerRef.later_zero]
  declared := by simp [hserials, ListenerRef.later_zero]
  recorded := by
    rw [entry_eq_id hserials, List.map_id]
  lastContext := rfl
  state := .inl rfl
  predicate _ := rfl
  trace := ⟨events, events, hpast, hpast', rfl⟩

/-! ## Worlds that are the same -/

/-- The runs are the same but for what is not seen. -/
structure Plain (τ : Terms) : Prop where
  states : τ.states = true
  filters : τ.filters = true
  serials : τ.serials = 0

theorem Accords.eq_of_plain {τ : Terms} {s t : Session} (h : τ.Accords s t) (hτ : τ.Plain) :
    { t with trace := s.trace } = s := by
  have hrecorded : t.recorded = s.recorded := by
    have hlist := h.recorded
    rw [entry_eq_id hτ.serials, List.map_id] at hlist
    exact Array.ext' hlist
  have hlisteners := h.listeners
  have hsubscribed := h.subscribed
  have hdeclared := h.declared
  rw [hτ.serials] at hlisteners
  simp only [hτ.serials, ListenerRef.later_zero, List.map_id'] at hsubscribed hdeclared
  cases s
  cases t
  simp only [Session.mk.injEq]
  exact ⟨trivial, h.instances, hlisteners, h.state_eq hτ.states, h.predicate hτ.filters,
    hsubscribed, hdeclared, hrecorded, h.lastContext⟩

theorem Agrees.eq_of_plain {τ : Terms} {w v : World} (h : τ.Agrees w v) (hτ : τ.Plain) :
    { v with
      contexts := w.contexts
      session := { v.session with trace := w.session.trace } } = w := by
  rw [h.session.eq_of_plain hτ]
  cases w
  cases v
  simp only [World.mk.injEq]
  exact ⟨h.errors, h.handling, trivial, h.sequence, h.journal hτ.states, trivial⟩

/-- The runs are the same, after the same events. -/
def same (past : List Event) : Terms where
  past := past
  past' := past

section Same

variable {past : List Event} {s t : Session} {w v : World}

theorem plain_same : (same past).Plain :=
  ⟨rfl, rfl, rfl⟩

theorem Accords.trace_of_same (h : (same past).Accords s t) : t.trace = s.trace := by
  obtain ⟨new, new', hs, ht, heq⟩ := h.trace
  have hall : ∀ events : List Event, events.filter (same past).seen = events :=
    fun events => List.filter_eq_self.mpr fun _ _ => rfl
  rw [hall, hall] at heq
  apply Array.ext'
  rw [hs, ht, heq]
  rfl

theorem Accords.eq_of_same (h : (same past).Accords s t) : t = s := by
  have hplain := h.eq_of_plain plain_same
  rwa [← h.trace_of_same] at hplain

theorem Agrees.eq_of_same (h : (same past).Agrees w v) (hcontexts : v.contexts = w.contexts) :
    v = w := by
  have hplain := h.eq_of_plain plain_same
  rwa [← hcontexts, ← h.session.trace_of_same] at hplain

end Same
end Terms

/-! ## Worlds -/

namespace Bond

/-- How worlds compare as long as the bond holds. -/
structure Holds (β : Bond) (w v : World) : Prop extends β.Agrees w v where
  contexts : ∃ s t, β.stack s t ∧ w.contexts = { β.context with stack := s } :: β.outer ∧
    v.contexts = { β.context with stack := t } :: β.outer'

/-- The same bond between other stacks. -/
def around (β : Bond) (stack : ContextStack RandomSource → ContextStack RandomSource → Prop) :
    Bond :=
  { β with stack }

/-- Whatever one bond holds together the other does. -/
def Le (β γ : Bond) : Prop :=
  ∀ ⦃w v⦄, β.Holds w v → γ.Holds w v

theorem Le.refl (β : Bond) : β.Le β :=
  fun _ _ h => h

namespace Holds

variable {β : Bond} {w v : World}

theorem withErrors (h : β.Holds w v) (errors : ErrorStore) :
    β.Holds { w with errors } { v with errors } :=
  { h with errors := rfl }

theorem withHandling (h : β.Holds w v) (handling : Option ErrorId) :
    β.Holds { w with handling } { v with handling } :=
  { h with handling := rfl }

theorem withSession (h : β.Holds w v) {s t : Session} (hsession : β.Accords s t) :
    β.Holds { w with session := s } { v with session := t } :=
  { h with session := hsession }

theorem withJournal (h : β.Holds w v) {j k : Array LogRecord}
    (hjournal : β.states = true → k = j) :
    β.Holds { w with journal := j } { v with journal := k } :=
  { h with journal := hjournal }

/-- Other stacks of the innermost contexts. -/
theorem withStacks (h : β.Holds w v)
    {R : ContextStack RandomSource → ContextStack RandomSource → Prop}
    {s t : ContextStack RandomSource} (hstacks : R s t) :
    (β.around R).Holds { w with contexts := { β.context with stack := s } :: β.outer }
      { v with contexts := { β.context with stack := t } :: β.outer' } :=
  { h with contexts := ⟨s, t, hstacks, rfl, rfl⟩ }

end Holds
end Bond
end SeededTesting

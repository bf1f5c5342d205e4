import SeededTesting.Proofs.Shift.Basic

/-! # Worlds along a shift

Two worlds are related along a shift if the same was done in both since the work was taken up. A
world that is left as another one was found, but for what has been made and seen since, is later
than that one, and work can be taken up in both.
-/

namespace SeededTesting

namespace Shift

variable (κ : Shift)

def telling (entry : ListenerRef × Notification ErrorId) : ListenerRef × Notification ErrorId :=
  (entry.1, κ.notification entry.2)

/-- What happened in one session since the work was taken up is found again in the other. -/
structure Accords (size : Nat) (s t : Session) : Prop where
  state : t.state = s.state
  subscribed : t.subscribed = s.subscribed
  declared : t.declared = s.declared
  listeners : t.listeners = s.listeners
  /-- Where candidates were filtered by the same test before, they still are. -/
  predicate : κ.far.session.predicate = κ.near.session.predicate → t.predicate = s.predicate
  instances : t.instances = s.instances + κ.ahead
  instances_le : κ.near.session.instances ≤ s.instances
  trace : ∃ events, s.trace.toList = κ.near.session.trace.toList ++ events ∧
    t.trace.toList = κ.far.session.trace.toList ++ events.map κ.event
  told : ∃ new, s.told = κ.near.session.told ++ new ∧
    t.told = κ.far.session.told ++ new.map κ.telling ∧
    ∀ entry ∈ new, ∀ e, entry.2.error = some e → κ.Fresh size e

/-- Worlds in which the same was done since the work was taken up. -/
structure Relates (small large : World) : Prop where
  errors : κ.Matches small.errors large.errors
  handling : large.handling = small.handling.map κ.place
  contexts : large.contexts = small.contexts
  session : κ.Accords small.errors.size small.session large.session

variable {κ}

/-! ## Sessions -/

namespace Accords

variable {m n : Nat} {s t : Session}

theorem mono (h : κ.Accords m s t) (hmn : m ≤ n) : κ.Accords n s t := by
  obtain ⟨new, hs, ht, hfresh⟩ := h.told
  refine { h with told := ⟨new, hs, ht, ?_⟩ }
  intro entry hmem e he
  exact (hfresh entry hmem e he).mono hmn

theorem emit (h : κ.Accords n s t) (event : Event) :
    κ.Accords n { s with trace := s.trace.push event }
      { t with trace := t.trace.push (κ.event event) } := by
  obtain ⟨events, hs, ht⟩ := h.trace
  refine { h with trace := ⟨events ++ [event], ?_, ?_⟩ }
  · rw [Array.toList_push, hs, List.append_assoc]
  · rw [Array.toList_push, ht, List.map_append, List.append_assoc]
    rfl

theorem told_record (s : Session) (listener : ListenerRef) (note : Notification ErrorId) :
    (s.record listener note).told = s.told ++ [(listener, note.unplaced)] := by
  unfold Session.record Session.told
  rw [Array.toList_push, List.map_append]
  rfl

theorem record (h : κ.Accords n s t) (listener : ListenerRef) {note : Notification ErrorId}
    (hnote : ∀ e, note.error = some e → κ.Fresh n e) :
    κ.Accords n (s.record listener note) (t.record listener (κ.notification note)) := by
  obtain ⟨new, hs, ht, hfresh⟩ := h.told
  refine { h with told := ⟨new ++ [(listener, note.unplaced)], ?_, ?_, ?_⟩ }
  · rw [told_record, hs, List.append_assoc]
  · rw [told_record, ht, List.map_append, List.append_assoc]
    rfl
  · intro entry hmem
    rcases List.mem_append.mp hmem with hmem | hmem
    · exact hfresh entry hmem
    · rw [List.mem_singleton.mp hmem]
      exact hnote

end Accords

/-! ## Worlds -/

namespace Relates

variable {small large : World}

theorem withErrors (h : κ.Relates small large) {s t : ErrorStore} (hmatches : κ.Matches s t)
    (hsize : small.errors.size ≤ s.size) :
    κ.Relates { small with errors := s } { large with errors := t } :=
  ⟨hmatches, h.handling, h.contexts, h.session.mono hsize⟩

theorem withHandling (h : κ.Relates small large) {handled handled' : Option ErrorId}
    (heq : handled' = handled.map κ.place) :
    κ.Relates { small with handling := handled } { large with handling := handled' } :=
  ⟨h.errors, heq, h.contexts, h.session⟩

theorem withSession (h : κ.Relates small large) {s t : Session}
    (hsession : κ.Accords small.errors.size s t) :
    κ.Relates { small with session := s } { large with session := t } :=
  ⟨h.errors, h.handling, h.contexts, hsession⟩

theorem withContexts (h : κ.Relates small large) (contexts : List RunContext) :
    κ.Relates { small with contexts } { large with contexts } :=
  ⟨h.errors, h.handling, rfl, h.session⟩

theorem withJournal (h : κ.Relates small large) (journal journal' : Array LogRecord) :
    κ.Relates { small with journal } { large with journal := journal' } :=
  ⟨h.errors, h.handling, h.contexts, h.session⟩

end Relates
end Shift

/-- The one world is left as the other one was found, but for what has been made and seen. -/
structure World.Later (w v : World) : Prop where
  errors : w.errors.Keeps v.errors
  handling : v.handling = w.handling
  contexts : v.contexts = w.contexts
  state : v.session.state = w.session.state
  subscribed : v.session.subscribed = w.session.subscribed
  declared : v.session.declared = w.session.declared
  listeners : v.session.listeners = w.session.listeners
  instances : w.session.instances ≤ v.session.instances

namespace World.Later

variable {w v u : World}

theorem refl (w : World) : w.Later w :=
  ⟨.refl _, rfl, rfl, rfl, rfl, rfl, rfl, Nat.le_refl _⟩

theorem trans (h : w.Later v) (h' : v.Later u) : w.Later u where
  errors := h.errors.trans h'.errors
  handling := h'.handling.trans h.handling
  contexts := h'.contexts.trans h.contexts
  state := h'.state.trans h.state
  subscribed := h'.subscribed.trans h.subscribed
  declared := h'.declared.trans h.declared
  listeners := h'.listeners.trans h.listeners
  instances := Nat.le_trans h.instances h'.instances

/-- The shift from a world to a later one. -/
def shift (h : w.Later v) (hw : w.Lawful) (rename : String → String) : Shift where
  near := w
  far := v
  rename := rename
  closed := hw.errors
  size_le := h.errors.1
  instances_le := h.instances

theorem relates (h : w.Later v) (hw : w.Lawful) (rename : String → String) :
    (h.shift hw rename).Relates w v where
  errors := by
    have hgap : v.errors.size = w.errors.size + (h.shift hw rename).gap :=
      (Nat.add_sub_of_le h.errors.1).symm
    refine ⟨.refl _, .refl _, hgap, fun e => ?_⟩
    -- Errors of old keep their numbers and are linked among themselves; beyond them is none yet.
    rcases Nat.lt_or_ge e w.errors.size with he | he
    · rw [Shift.place_of_lt he, h.errors.2 e he]
      have hrelink : (w.errors.get e).relink (h.shift hw rename).place = w.errors.get e :=
        Shift.relink_old (hw.errors.cause e) (hw.errors.context e)
      exact hrelink.symm
    · have hfar : (h.shift hw rename).near.errors.size ≤ e := he
      have hplace : v.errors.size ≤ (h.shift hw rename).place e := Shift.far_size_le hfar
      rw [ErrorStore.get_of_size_le he, ErrorStore.get_of_size_le hplace]
      rfl
  handling := by
    rw [h.handling]
    cases hhandling : w.handling with
    | none => rfl
    | some e => exact congrArg some (Shift.place_of_lt (hw.handling e hhandling)).symm
  contexts := h.contexts
  session := {
    state := h.state
    subscribed := h.subscribed
    declared := h.declared
    listeners := h.listeners
    predicate := id
    instances := (Nat.add_sub_of_le h.instances).symm
    instances_le := Nat.le_refl _
    trace := ⟨[], (List.append_nil _).symm, (List.append_nil _).symm⟩
    told := ⟨[], (List.append_nil _).symm, (List.append_nil _).symm, List.forall_mem_nil _⟩ }

end World.Later

namespace Shift

variable {κ : Shift}

/-- Where as many errors were made in both worlds, what is found again has its old place. -/
theorem Relates.later {small large : World} (h : κ.Relates small large) (hgap : κ.gap = 0) :
    small.Later large := by
  have hplace : ∀ e, κ.place e = e := by
    intro e
    unfold place
    rw [hgap]
    exact ite_self e
  have hfun : κ.place = fun e => e := funext hplace
  refine ⟨⟨?_, fun e _ => ?_⟩, ?_, h.contexts, h.session.state, h.session.subscribed,
    h.session.declared, h.session.listeners, ?_⟩
  · rw [h.errors.size]
    exact Nat.le_add_right _ _
  · have hobject := h.errors.objects e
    rw [hplace, hfun] at hobject
    rw [hobject]
    unfold ErrorObject.relink
    rw [Option.map_id', Option.map_id']
  · rw [h.handling, hfun, Option.map_id']
  · rw [h.session.instances]
    exact Nat.le_add_right _ _

end Shift
end SeededTesting

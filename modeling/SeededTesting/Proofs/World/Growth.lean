import SeededTesting.Proofs.Failure.Objects
import SeededTesting.Run.World

/-! # How a world grows

In a lawful world every reference to an error object leads to an object that was made. Whatever
actions do, a world only grows: objects are added and keep what they say, the error that is being
handled is the same again in the end, and no context but the innermost one is touched.
-/

namespace SeededTesting

/-- No link and no key leads out of a store. -/
structure ErrorStore.Closed (s : ErrorStore) : Prop where
  cause : ∀ e o, (s.get e).cause = some o → o < s.size
  context : ∀ e o, (s.get e).context = some o → o < s.size
  shared : ∀ key e, (key, e) ∈ s.shared → e < s.size

/-- One store comes from another: objects were added, and none was replaced. -/
structure ErrorStore.Grows (s t : ErrorStore) : Prop where
  size_le : s.size ≤ t.size
  complaint : ∀ e < s.size, (t.get e).toComplaint = (s.get e).toComplaint

structure World.Lawful (w : World) : Prop where
  errors : w.errors.Closed
  handling : ∀ e, w.handling = some e → e < w.errors.size

/-- One world comes from another by actions. -/
structure World.Grows (w v : World) : Prop where
  errors : w.errors.Grows v.errors
  handling : v.handling = w.handling
  depth : v.contexts.length = w.contexts.length
  outer : v.contexts.tail = w.contexts.tail

/-! ## Stores -/

namespace ErrorStore

theorem Grows.refl (s : ErrorStore) : s.Grows s :=
  ⟨Nat.le_refl _, fun _ _ => rfl⟩

theorem Grows.trans {s t u : ErrorStore} (h : s.Grows t) (h' : t.Grows u) : s.Grows u where
  size_le := Nat.le_trans h.size_le h'.size_le
  complaint e he := (h'.complaint e (Nat.lt_of_lt_of_le he h.size_le)).trans (h.complaint e he)

theorem closed_empty : ({} : ErrorStore).Closed where
  cause e o h := by simp [get] at h; cases h
  context e o h := by simp [get] at h; cases h
  shared key e h := by cases h

theorem grows_add (s : ErrorStore) (c : Complaint) : s.Grows (s.add c).2 where
  size_le := by simp
  complaint e he := by rw [get_add_of_ne s c (Nat.ne_of_lt he)]

theorem Closed.add {s : ErrorStore} (h : s.Closed) (c : Complaint) : (s.add c).2.Closed where
  cause e o ho := by
    rw [size_add]
    by_cases he : e = s.size
    · rw [he, get_add_self] at ho
      cases ho
    · rw [get_add_of_ne s c he] at ho
      exact Nat.lt_succ_of_lt (h.cause e o ho)
  context e o ho := by
    rw [size_add]
    by_cases he : e = s.size
    · rw [he, get_add_self] at ho
      cases ho
    · rw [get_add_of_ne s c he] at ho
      exact Nat.lt_succ_of_lt (h.context e o ho)
  shared key e he := by
    rw [size_add]
    exact Nat.lt_succ_of_lt (h.shared key e he)

theorem grows_linkRaised (s : ErrorStore) (handled : Option ErrorId) (e : ErrorId) :
    s.Grows (s.linkRaised handled e) where
  size_le := by simp
  complaint i _ := by
    obtain ⟨context, heq, _⟩ := s.get_linkRaised handled e i
    rw [heq]

theorem Closed.linkRaised {s : ErrorStore} (h : s.Closed) {handled : Option ErrorId}
    (hhandled : ∀ e, handled = some e → e < s.size) (e : ErrorId) :
    (s.linkRaised handled e).Closed where
  cause i o ho := by
    obtain ⟨context, heq, _⟩ := s.get_linkRaised handled e i
    rw [heq] at ho
    rw [size_linkRaised]
    exact h.cause i o ho
  context i o ho := by
    obtain ⟨context, heq, hcontext⟩ := s.get_linkRaised handled e i
    rw [heq] at ho
    rw [size_linkRaised]
    change context = some o at ho
    rcases hcontext with rfl | rfl | rfl
    · exact h.context i o ho
    · cases ho
    · exact hhandled o ho
  shared key i hi := by
    rw [shared_linkRaised] at hi
    rw [size_linkRaised]
    exact h.shared key i hi

/-- Changing what an object carries besides its complaint. -/
theorem grows_update (s : ErrorStore) (e : ErrorId) {f : ErrorObject → ErrorObject}
    (hf : (f (s.get e)).toComplaint = (s.get e).toComplaint) : s.Grows (s.update e f) where
  size_le := by simp
  complaint i _ := by
    rw [get_update]
    split
    next hi => rw [hf, hi.1]
    next => rfl

theorem Closed.update {s : ErrorStore} (h : s.Closed) (e : ErrorId)
    {f : ErrorObject → ErrorObject}
    (hcause : ∀ o, (f (s.get e)).cause = some o → o < s.size)
    (hcontext : ∀ o, (f (s.get e)).context = some o → o < s.size) : (s.update e f).Closed where
  cause i o ho := by
    rw [size_update]
    rw [get_update] at ho
    split at ho
    · exact hcause o ho
    · exact h.cause i o ho
  context i o ho := by
    rw [size_update]
    rw [get_update] at ho
    split at ho
    · exact hcontext o ho
    · exact h.context i o ho
  shared key i hi := by
    rw [size_update]
    exact h.shared key i hi

theorem grows_augment (s : ErrorStore) (e : ErrorId) (seeds : List Seed) :
    s.Grows (s.augment e seeds).2 := by
  rw [augment_eq]
  exact s.grows_update e (ErrorObject.record_toComplaint _ _)

theorem Closed.augment {s : ErrorStore} (h : s.Closed) (e : ErrorId) (seeds : List Seed) :
    (s.augment e seeds).2.Closed := by
  rw [augment_eq]
  refine h.update e ?_ ?_
  · intro o ho
    rw [ErrorObject.record_cause] at ho
    exact h.cause e o ho
  · intro o ho
    rw [ErrorObject.record_context] at ho
    exact h.context e o ho

theorem grows_setCause (s : ErrorStore) (e : ErrorId) (cause : Option ErrorId) :
    s.Grows (s.setCause e cause) :=
  s.grows_update e rfl

theorem Closed.setCause {s : ErrorStore} (h : s.Closed) (e : ErrorId) {cause : Option ErrorId}
    (hcause : ∀ o, cause = some o → o < s.size) : (s.setCause e cause).Closed :=
  h.update e hcause (h.context e)

theorem grows_addShared (s : ErrorStore) (key : String) (c : Complaint) :
    s.Grows (s.addShared key c).2 := by
  unfold addShared
  split
  · exact .refl s
  · exact ⟨(s.grows_add c).size_le, (s.grows_add c).complaint⟩

theorem Closed.addShared {s : ErrorStore} (h : s.Closed) (key : String) (c : Complaint) :
    (s.addShared key c).2.Closed ∧ (s.addShared key c).1 < (s.addShared key c).2.size := by
  unfold ErrorStore.addShared
  split
  next e he =>
    refine ⟨h, h.shared key e ?_⟩
    obtain ⟨l, r, heq, _⟩ := List.lookup_eq_some_iff.mp he
    rw [heq]
    simp
  next =>
    have hadd := h.add c
    refine ⟨⟨hadd.cause, hadd.context, ?_⟩, ?_⟩
    · intro k e he
      rcases List.mem_cons.mp he with heq | he
      · cases heq
        change s.size < (s.add c).2.size
        simp
      · exact hadd.shared k e he
    · change s.size < (s.add c).2.size
      simp

end ErrorStore

/-! ## Worlds -/

namespace World

/-- The world in which a process starts is lawful, whoever is subscribed. -/
theorem lawful_initial (session : Session) : Lawful { session } where
  errors := ErrorStore.closed_empty
  handling _ h := by cases h

theorem Grows.refl (w : World) : w.Grows w :=
  ⟨.refl _, rfl, rfl, rfl⟩

theorem Grows.trans {w v u : World} (h : w.Grows v) (h' : v.Grows u) : w.Grows u where
  errors := h.errors.trans h'.errors
  handling := h'.handling.trans h.handling
  depth := h'.depth.trans h.depth
  outer := h'.outer.trans h.outer

end World
end SeededTesting

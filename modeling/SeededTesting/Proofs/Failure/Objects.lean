import SeededTesting.Failure.Augment

/-! # What happens to error objects

Objects are only ever added to a store. What an object says stays as it is once the object is
made; its links, chains and notes may change. In a closed store no link leads out of the store.
-/

namespace SeededTesting

namespace ErrorStore

/-- How many objects were made. -/
def size (s : ErrorStore) : Nat :=
  s.objects.size

theorem get_of_size_le {s : ErrorStore} {e : ErrorId} (h : s.size ≤ e) : s.get e = default := by
  simp [get, Array.getElem?_eq_none h]

/-! ## Changing and adding objects -/

@[simp] theorem size_update (s : ErrorStore) (e : ErrorId) (f : ErrorObject → ErrorObject) :
    (s.update e f).size = s.size := by
  simp [size, update]

@[simp] theorem shared_update (s : ErrorStore) (e : ErrorId) (f : ErrorObject → ErrorObject) :
    (s.update e f).shared = s.shared := rfl

theorem get_update (s : ErrorStore) (e i : ErrorId) (f : ErrorObject → ErrorObject) :
    (s.update e f).get i = if i = e ∧ e < s.size then f (s.get e) else s.get i := by
  simp only [get, update, size, Array.getD_eq_getD_getElem?, Array.getElem?_modify]
  by_cases hi : i = e
  · subst hi
    by_cases hlt : i < s.objects.size <;> simp [hlt]
  · simp [hi, Ne.symm hi]

theorem get_update_of_ne (s : ErrorStore) {e i : ErrorId} (h : i ≠ e)
    (f : ErrorObject → ErrorObject) : (s.update e f).get i = s.get i := by
  simp [get_update, h]

theorem get_update_self {s : ErrorStore} {e : ErrorId} (h : e < s.size)
    (f : ErrorObject → ErrorObject) : (s.update e f).get e = f (s.get e) := by
  simp [get_update, h]

@[simp] theorem add_fst (s : ErrorStore) (c : Complaint) : (s.add c).1 = s.size := rfl

@[simp] theorem size_add (s : ErrorStore) (c : Complaint) : (s.add c).2.size = s.size + 1 := by
  simp [size, add]

@[simp] theorem shared_add (s : ErrorStore) (c : Complaint) : (s.add c).2.shared = s.shared := rfl

theorem get_add_self (s : ErrorStore) (c : Complaint) :
    (s.add c).2.get s.size = .ofComplaint c := by
  simp [get, add, size]

theorem get_add_of_ne (s : ErrorStore) (c : Complaint) {e : ErrorId} (h : e ≠ s.size) :
    (s.add c).2.get e = s.get e := by
  have hne : e ≠ s.objects.size := h
  simp [get, add, Array.getElem?_push, hne]

/-! ## Linking -/

/-- Cutting a chain of contexts touches nothing but contexts, and only removes them. -/
theorem get_cutContext (target : ErrorId) (bound : Nat) (node : ErrorId) (s : ErrorStore)
    (i : ErrorId) :
    (s.cutContext target bound node).get i = s.get i ∨
      (s.cutContext target bound node).get i = { s.get i with context := none } ∧
        (s.get i).context = some target := by
  induction bound generalizing node with
  | zero => exact .inl rfl
  | succ bound ih =>
      unfold cutContext
      split
      · exact .inl rfl
      next next hnext =>
        split
        next heq =>
          subst heq
          by_cases hi : i = node
          · subst hi
            by_cases hlt : i < s.size
            · exact .inr ⟨get_update_self hlt _, hnext⟩
            · rw [get_of_size_le (Nat.le_of_not_lt hlt)] at hnext
              cases hnext
          · exact .inl (get_update_of_ne s hi _)
        next => exact ih next

@[simp] theorem size_cutContext (target : ErrorId) (bound : Nat) (node : ErrorId)
    (s : ErrorStore) : (s.cutContext target bound node).size = s.size := by
  induction bound generalizing node with
  | zero => rfl
  | succ bound ih =>
      unfold cutContext
      split
      · rfl
      · split
        · exact size_update _ _ _
        · exact ih _

@[simp] theorem shared_cutContext (target : ErrorId) (bound : Nat) (node : ErrorId)
    (s : ErrorStore) : (s.cutContext target bound node).shared = s.shared := by
  induction bound generalizing node with
  | zero => rfl
  | succ bound ih =>
      unfold cutContext
      split
      · rfl
      · split
        · rfl
        · exact ih _

@[simp] theorem size_linkRaised (s : ErrorStore) (handled : Option ErrorId) (e : ErrorId) :
    (s.linkRaised handled e).size = s.size := by
  unfold linkRaised setContext
  split
  · rfl
  · split <;> simp

@[simp] theorem shared_linkRaised (s : ErrorStore) (handled : Option ErrorId) (e : ErrorId) :
    (s.linkRaised handled e).shared = s.shared := by
  unfold linkRaised setContext
  split
  · rfl
  · split <;> simp

/-- Raising an error touches nothing but contexts: it removes some, and gives the error the one
that is handled. -/
theorem get_linkRaised (s : ErrorStore) (handled : Option ErrorId) (e i : ErrorId) :
    ∃ context, (s.linkRaised handled e).get i = { s.get i with context } ∧
      (context = (s.get i).context ∨ context = none ∨ context = handled) := by
  unfold linkRaised
  split
  · exact ⟨_, rfl, .inl rfl⟩
  next h =>
    split
    · exact ⟨_, rfl, .inl rfl⟩
    -- The handled error may already lead to the one that is raised; that link is cut first, so
    -- that no cycle is made.
    · have hcut : ∃ context, (s.cutContext e s.objects.size h).get i = { s.get i with context } ∧
          (context = (s.get i).context ∨ context = none) := by
        rcases get_cutContext e s.objects.size h s i with heq | ⟨heq, _⟩
        · exact ⟨_, heq, .inl rfl⟩
        · exact ⟨none, heq, .inr rfl⟩
      obtain ⟨context, heq, hcontext⟩ := hcut
      rw [setContext, get_update]
      split
      next hi =>
        obtain ⟨rfl, _⟩ := hi
        rw [heq]
        exact ⟨some h, rfl, .inr (.inr rfl)⟩
      next =>
        exact ⟨context, heq, hcontext.imp_right .inl⟩

/-! ## Recording -/

end ErrorStore

/-- Recording touches nothing but chains and notes. -/
theorem ErrorObject.recordAs_snd (o : ErrorObject) (temper : Temper) (chain : String) :
    (o.recordAs temper chain).2 = { o with
      chains := (o.recordAs temper chain).2.chains
      notes := (o.recordAs temper chain).2.notes } := by
  unfold recordAs
  split
  · rfl
  · split <;> rfl

theorem ErrorObject.record_snd (o : ErrorObject) (chain : String) :
    (o.record chain).2 = { o with
      chains := (o.record chain).2.chains, notes := (o.record chain).2.notes } :=
  o.recordAs_snd o.temper chain

@[simp] theorem ErrorObject.record_toComplaint (o : ErrorObject) (chain : String) :
    (o.record chain).2.toComplaint = o.toComplaint := by
  rw [record_snd]

@[simp] theorem ErrorObject.record_cause (o : ErrorObject) (chain : String) :
    (o.record chain).2.cause = o.cause := by
  rw [record_snd]

@[simp] theorem ErrorObject.record_context (o : ErrorObject) (chain : String) :
    (o.record chain).2.context = o.context := by
  rw [record_snd]

/-- A chain is set exactly on an object that accepts it, whatever becomes of the note. -/
theorem ErrorObject.recordAs_chains (o : ErrorObject) (temper : Temper) (chain : String) :
    (o.recordAs temper chain).2.chains =
      if temper.toChain = .accepts then chain :: o.chains else o.chains := by
  unfold recordAs
  cases temper.toChain with
  | refuses refusal text => rfl
  | accepts => cases temper.toNote <;> rfl

theorem ErrorObject.temper_toChain_eq_accepts {o : ErrorObject} :
    o.temper.toChain = .accepts ↔ o.kind.refusal = none := by
  unfold temper
  cases o.kind.refusal <;> simp

theorem ErrorObject.record_chains (o : ErrorObject) (chain : String) :
    (o.record chain).2.chains = if o.kind.refusal = none then chain :: o.chains else o.chains := by
  rw [record, recordAs_chains]
  simp only [temper_toChain_eq_accepts]

/-- Recording fails only on an object that complains about the value. -/
theorem ErrorObject.record_failed {o : ErrorObject} {chain : String} {c : Complaint}
    (h : (o.record chain).1 = .failed c) :
    o.kind.refusal = some .value ∧ c = ⟨.value, some chainsAttribute⟩ := by
  unfold record recordAs temper at h
  cases hrefusal : o.kind.refusal with
  | some refusal =>
      rw [hrefusal] at h
      cases refusal <;> cases h
      exact ⟨rfl, rfl⟩
  | none =>
      rw [hrefusal] at h
      cases hnotes : o.notes <;> rw [hnotes] at h <;> cases h

/-- Recording touches nothing of any object but chains and notes. -/
theorem ErrorStore.get_augment (s : ErrorStore) (e : ErrorId) (seeds : List Seed) (i : ErrorId) :
    ∃ chains notes, (s.augment e seeds).2.get i = { s.get i with chains, notes } := by
  have hget := s.get_update e i fun _ => ((s.get e).record (SeedChain.format seeds)).2
  split at hget
  next h =>
    rw [h.1] at hget ⊢
    exact ⟨_, _, hget.trans (ErrorObject.record_snd _ _)⟩
  next => exact ⟨_, _, hget⟩

theorem ErrorStore.augment_eq (s : ErrorStore) (e : ErrorId) (seeds : List Seed) :
    s.augment e seeds = (((s.get e).record (SeedChain.format seeds)).1,
      s.update e fun _ => ((s.get e).record (SeedChain.format seeds)).2) := rfl

end SeededTesting

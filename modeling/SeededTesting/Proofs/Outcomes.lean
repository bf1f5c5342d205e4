import Mathlib.Data.List.Forall2

/-! # Outcomes

What is known of the outcome of a sequence, or of the outcomes for the entries of a list, once it is
known of its parts, and what of the parts once it is known of the whole.
-/

namespace SeededTesting

variable {α β ε : Type}

/-! ## Sequences -/

/-- A bound value comes from a value. -/
theorem exists_of_bind_eq_ok {x : Except ε α} {f : α → Except ε β} {b : β}
    (h : x >>= f = .ok b) : ∃ a, x = .ok a ∧ f a = .ok b := by
  cases x with
  | error e => cases h
  | ok a => exact ⟨a, rfl, h⟩

/-- An error of a sequence is one of its first part, or else of what follows it. -/
theorem eq_error_of_bind {x : Except ε α} {f : α → Except ε β} {e : ε} (h : x >>= f = .error e) :
    x = .error e ∨ ∃ a, x = .ok a ∧ f a = .error e := by
  cases x with
  | error e' => exact .inl (congrArg Except.error (Except.error.inj h))
  | ok a => exact .inr ⟨a, rfl, h⟩

/-- What is bound to a value goes on with it. -/
theorem bind_eq_of_eq_ok {x : Except ε α} {a : α} (h : x = .ok a) (f : α → Except ε β) :
    x >>= f = f a := by
  rw [h]
  rfl

/-- Errors are renamed, values kept. -/
theorem mapError_eq_ok_iff {δ : Type} {rename : ε → δ} {x : Except ε α} {a : α} :
    x.mapError rename = .ok a ↔ x = .ok a := by
  cases x with
  | error e => simp [Except.mapError]
  | ok b => simp [Except.mapError]

/-- That there is a value with some property can be found out by computing it. -/
theorem exists_ok_of_any {x : Except ε α} {P : α → Prop} [DecidablePred P]
    (h : x.toOption.any (fun a => decide (P a)) = true) : ∃ a, x = .ok a ∧ P a := by
  cases x with
  | error e => cases h
  | ok a => exact ⟨a, rfl, of_decide_eq_true h⟩

/-! ## Lists -/

/-- A list is mapped entry by entry, and every entry in turn. -/
theorem forall₂_of_mapM_eq_ok {f : α → Except ε β} {l : List α} {m : List β}
    (h : l.mapM f = .ok m) : List.Forall₂ (fun a b => f a = .ok b) l m := by
  induction l generalizing m with
  | nil =>
      cases h
      exact .nil
  | cons a l ih =>
      rw [List.mapM_cons] at h
      obtain ⟨b, ha, h⟩ := exists_of_bind_eq_ok h
      obtain ⟨rest, hl, h⟩ := exists_of_bind_eq_ok h
      cases h
      exact .cons ha (ih hl)

theorem mapM_eq_ok_of_forall₂ {f : α → Except ε β} {l : List α} {m : List β}
    (h : List.Forall₂ (fun a b => f a = .ok b) l m) : l.mapM f = .ok m := by
  induction h with
  | nil => rfl
  | cons ha _ ih =>
      rw [List.mapM_cons, ha, ih]
      rfl

/-- What is paired with a list has a partner for each of its entries. -/
theorem exists_mem_of_forall₂ {R : α → β → Prop} {l : List α} {m : List β}
    (h : List.Forall₂ R l m) {a : α} (ha : a ∈ l) : ∃ b ∈ m, R a b := by
  induction h with
  | nil => cases ha
  | cons hfirst _ ih =>
      rcases List.mem_cons.mp ha with rfl | hrest
      · exact ⟨_, List.mem_cons_self, hfirst⟩
      · obtain ⟨b, hb, hab⟩ := ih hrest
        exact ⟨b, List.mem_cons_of_mem _ hb, hab⟩

theorem mapM_eq_ok {f : α → Except ε β} {g : α → β} {l : List α}
    (h : ∀ a ∈ l, f a = .ok (g a)) : l.mapM f = .ok (l.map g) :=
  mapM_eq_ok_of_forall₂ (List.forall₂_map_right_iff.mpr (List.forall₂_same.mpr h))

/-- An error that a list is mapped to is that of an entry. -/
theorem exists_of_mapM_eq_error {f : α → Except ε β} {e : ε} {l : List α}
    (h : l.mapM f = .error e) : ∃ a ∈ l, f a = .error e := by
  induction l with
  | nil => cases h
  | cons a l ih =>
      rw [List.mapM_cons] at h
      rcases eq_error_of_bind h with ha | ⟨_, -, h⟩
      · exact ⟨a, List.mem_cons_self, ha⟩
      · rcases eq_error_of_bind h with hrest | ⟨_, -, h⟩
        · obtain ⟨b, hb, hfb⟩ := ih hrest
          exact ⟨b, List.mem_cons_of_mem _ hb, hfb⟩
        · cases h

/-- A list is mapped if each of its entries is. -/
theorem exists_mapM_eq_ok {f : α → Except ε β} {l : List α} (h : ∀ a ∈ l, ∃ b, f a = .ok b) :
    ∃ m, l.mapM f = .ok m := by
  cases hmap : l.mapM f with
  | ok m => exact ⟨m, rfl⟩
  | error e =>
      obtain ⟨a, ha, he⟩ := exists_of_mapM_eq_error hmap
      obtain ⟨b, hb⟩ := h a ha
      cases hb.symm.trans he

/-- Where some entry cannot be mapped, and none fails but with one error, the list fails with it. -/
theorem mapM_eq_error {f : α → Except ε β} {e : ε} {l : List α}
    (h : ∀ a ∈ l, (∃ b, f a = .ok b) ∨ f a = .error e) (hsome : ∃ a ∈ l, f a = .error e) :
    l.mapM f = .error e := by
  cases hmap : l.mapM f with
  | ok m =>
      obtain ⟨a, ha, he⟩ := hsome
      obtain ⟨b, -, hb⟩ := exists_mem_of_forall₂ (forall₂_of_mapM_eq_ok hmap) ha
      cases hb.symm.trans he
  | error e' =>
      obtain ⟨a, ha, he'⟩ := exists_of_mapM_eq_error hmap
      rcases h a ha with ⟨b, hb⟩ | he
      · cases hb.symm.trans he'
      · cases he'.symm.trans he
        rfl

end SeededTesting

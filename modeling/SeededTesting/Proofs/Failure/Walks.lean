import Mathlib.Data.Finset.Card
import Mathlib.Data.List.Perm.Subperm
import Mathlib.Logic.Function.Iterate
import SeededTesting.Proofs.World.Growth

/-! # Walks along links

Walks along the links of a store are bounded by its size, and the bounds are no limit: a walk that
were longer would come to an object twice. So what is found out about an error does not depend on
how many objects there are besides those that it came from.
-/

namespace SeededTesting.ErrorStore

/-! ## Contexts -/

/-- The object on a chain of contexts whose context is the target. -/
def contextBefore? (s : ErrorStore) (target : ErrorId) : Nat → ErrorId → Option ErrorId
  | 0, _ => none
  | bound + 1, node =>
    match (s.get node).context with
    | none => none
    | some next => if next = target then some node else s.contextBefore? target bound next

theorem cutContext_eq (s : ErrorStore) (target : ErrorId) (bound : Nat) (node : ErrorId) :
    s.cutContext target bound node = match s.contextBefore? target bound node with
      | none => s
      | some last => s.setContext last none := by
  induction bound generalizing node with
  | zero => rfl
  | succ bound ih =>
      unfold cutContext contextBefore?
      cases (s.get node).context with
      | none => rfl
      | some next =>
          dsimp only
          by_cases h : next = target
          · rw [if_pos h, if_pos h]
          · rw [if_neg h, if_neg h]
            exact ih next

/-- The next object on a chain of contexts. -/
def nextContext (s : ErrorStore) (e : ErrorId) : ErrorId :=
  (s.get e).context.getD 0

/-- A walk of so many steps along the contexts comes to the object before a target, and does not
come to the target earlier. -/
structure Nears (s : ErrorStore) (target node : ErrorId) (steps : Nat) : Prop where
  path : ∀ i < steps, ∃ next, (s.get (s.nextContext^[i] node)).context = some next ∧ next ≠ target
  ends : (s.get (s.nextContext^[steps] node)).context = some target

section Walk

variable {s : ErrorStore} {target node next last : ErrorId}

theorem iterate_nextContext (h : (s.get node).context = some next) (i : Nat) :
    s.nextContext^[i + 1] node = s.nextContext^[i] next := by
  rw [Function.iterate_succ_apply, nextContext, h, Option.getD_some]

@[simp]
theorem nears_zero_iff : s.Nears target node 0 ↔ (s.get node).context = some target :=
  ⟨fun h => h.ends, fun h => ⟨nofun, h⟩⟩

theorem nears_succ_iff {k : Nat} : s.Nears target node (k + 1) ↔
    ∃ next, (s.get node).context = some next ∧ next ≠ target ∧ s.Nears target next k := by
  constructor
  · intro h
    obtain ⟨next, hnext, hne⟩ := h.path 0 (Nat.succ_pos k)
    refine ⟨next, hnext, hne, fun i hi => ?_, ?_⟩
    · rw [← iterate_nextContext hnext]
      exact h.path (i + 1) (Nat.succ_lt_succ hi)
    · rw [← iterate_nextContext hnext]
      exact h.ends
  · rintro ⟨next, hnext, hne, h⟩
    refine ⟨fun i hi => ?_, ?_⟩
    · cases i with
      | zero => exact ⟨next, hnext, hne⟩
      | succ i =>
          rw [iterate_nextContext hnext]
          exact h.path i (Nat.lt_of_succ_lt_succ hi)
    · rw [iterate_nextContext hnext]
      exact h.ends

theorem contextBefore?_eq_some_iff {bound : Nat} :
    s.contextBefore? target bound node = some last ↔
      ∃ k < bound, s.Nears target node k ∧ s.nextContext^[k] node = last := by
  induction bound generalizing node with
  | zero => simp [contextBefore?]
  | succ bound ih =>
      unfold contextBefore?
      rw [Nat.exists_lt_succ_left]
      cases hnext : (s.get node).context with
      | none => simp [nears_succ_iff, hnext]
      | some next =>
          by_cases htarget : next = target
          · simp [nears_succ_iff, hnext, htarget]
          · simp [nears_succ_iff, hnext, htarget, ih, iterate_nextContext hnext]

end Walk

theorem lt_size_of_context {s : ErrorStore} {e next : ErrorId}
    (h : (s.get e).context = some next) : e < s.size := by
  by_contra hsize
  rw [get_of_size_le (Nat.le_of_not_lt hsize)] at h
  cases h

/-- A walk that comes to its target visits every object once: two visits of one object would go on
alike, so that it had come to its target before. -/
theorem Nears.iterate_ne {s : ErrorStore} {target node : ErrorId} {k i j : Nat}
    (h : s.Nears target node k) (hij : i < j) (hj : j ≤ k) :
    s.nextContext^[i] node ≠ s.nextContext^[j] node := by
  intro heq
  obtain ⟨m, rfl⟩ := Nat.exists_eq_add_of_le hj
  have hearlier : s.nextContext^[i + m] node = s.nextContext^[j + m] node := by
    rw [Nat.add_comm i, Nat.add_comm j, Function.iterate_add_apply, heq,
      Function.iterate_add_apply]
  obtain ⟨next, hnext, hne⟩ := h.path (i + m) (by omega)
  rw [hearlier, h.ends] at hnext
  exact hne (Option.some.inj hnext).symm

theorem Nears.lt_size {s : ErrorStore} {target node : ErrorId} {k : Nat}
    (h : s.Nears target node k) : k < s.size := by
  have hlt : ∀ i ≤ k, s.nextContext^[i] node < s.size := by
    intro i hi
    rcases Nat.lt_or_eq_of_le hi with hi | rfl
    · obtain ⟨next, hnext, -⟩ := h.path i hi
      exact lt_size_of_context hnext
    · exact lt_size_of_context h.ends
  have hinj : Set.InjOn (fun i => s.nextContext^[i] node) (Finset.range (k + 1)) := by
    intro i hi j hj heq
    rw [Finset.mem_coe, Finset.mem_range] at hi hj
    rcases Nat.lt_trichotomy i j with hij | hij | hij
    · exact absurd heq (h.iterate_ne hij (by omega))
    · exact hij
    · exact absurd heq.symm (h.iterate_ne hij (by omega))
  have hcard := Finset.card_le_card_of_injOn (t := Finset.range s.size) _ (fun i hi => by
    rw [Finset.mem_coe, Finset.mem_range] at hi ⊢
    exact hlt i (by omega)) hinj
  rwa [Finset.card_range, Finset.card_range] at hcard

/-- The size of a store bounds every walk along its contexts. -/
theorem contextBefore?_of_size_le (s : ErrorStore) (target node : ErrorId) {bound : Nat}
    (h : s.size ≤ bound) :
    s.contextBefore? target bound node = s.contextBefore? target s.size node := by
  have hiff : ∀ last, s.contextBefore? target bound node = some last ↔
      s.contextBefore? target s.size node = some last := by
    intro last
    rw [contextBefore?_eq_some_iff, contextBefore?_eq_some_iff]
    constructor
    · rintro ⟨k, -, hnears, hlast⟩
      exact ⟨k, hnears.lt_size, hnears, hlast⟩
    · rintro ⟨k, hk, hnears, hlast⟩
      exact ⟨k, Nat.lt_of_lt_of_le hk h, hnears, hlast⟩
  exact Option.ext hiff

/-! ## Origins -/

theorem lt_size_of_origin {s : ErrorStore} {e next : ErrorId} (h : s.origin e = some next) :
    e < s.size := by
  by_contra hsize
  rw [origin, get_of_size_le (Nat.le_of_not_lt hsize)] at h
  cases h

theorem length_le_of_nodup {seen : List Nat} {n : Nat} (h : seen.Nodup) (hlt : ∀ e ∈ seen, e < n) :
    seen.length ≤ n := by
  have hsubset : seen ⊆ List.range n := fun e he => List.mem_range.mpr (hlt e he)
  have hle := (h.subperm hsubset).length_le
  rwa [List.length_range] at hle

/-- The objects that were seen are different ones of the store, and the bound is enough to see all
others. -/
structure Affords (s : ErrorStore) (bound : Nat) (seen : List ErrorId) : Prop where
  nodup : seen.Nodup
  lt_size : ∀ i ∈ seen, i < s.size
  enough : s.size < bound + seen.length

namespace Affords

variable {s : ErrorStore} {bound : Nat} {seen : List ErrorId} {e next : ErrorId}

theorem nil (h : s.size < bound) : s.Affords bound [] where
  nodup := List.nodup_nil
  lt_size := List.forall_mem_nil _
  enough := h

/-- Without a bound left, more objects would have been seen than there are. -/
theorem pos (h : s.Affords bound seen) : 0 < bound := by
  have hle := length_le_of_nodup h.nodup h.lt_size
  have henough := h.enough
  omega

/-- An object that leads on is seen at the cost of one step. -/
theorem cons (h : s.Affords (bound + 1) seen) (he : e ∉ seen) (horigin : s.origin e = some next) :
    s.Affords bound (e :: seen) where
  nodup := List.nodup_cons.mpr ⟨he, h.nodup⟩
  lt_size := List.forall_mem_cons.mpr ⟨lt_size_of_origin horigin, h.lt_size⟩
  enough := by
    have henough := h.enough
    rw [List.length_cons]
    omega

end Affords

/-- No walk along origins is longer than its bound. -/
theorem originsFrom_succ (s : ErrorStore) {bound : Nat} {seen : List ErrorId} (e : ErrorId)
    (h : s.Affords bound seen) :
    s.originsFrom (bound + 1) seen e = s.originsFrom bound seen e := by
  induction bound generalizing seen e with
  | zero => exact absurd h.pos (Nat.lt_irrefl 0)
  | succ bound ih =>
      rw [originsFrom, originsFrom]
      by_cases hseen : seen.contains e = true
      · rw [if_pos hseen, if_pos hseen]
      · have hfresh : e ∉ seen := by simpa using hseen
        rw [if_neg hseen, if_neg hseen]
        cases horigin : s.origin e with
        | none => rfl
        | some next =>
            dsimp only
            rw [ih next (h.cons hfresh horigin)]

theorem originsFrom_of_size_lt (s : ErrorStore) (e : ErrorId) {bound : Nat}
    (h : s.size < bound) : s.originsFrom bound [] e = s.origins e := by
  induction bound with
  | zero => omega
  | succ bound ih =>
      rcases Nat.lt_or_eq_of_le (Nat.le_of_lt_succ h) with hlt | heq
      · rw [originsFrom_succ s e (.nil hlt), ih hlt]
      · rw [← heq]
        rfl

/-! ## Stores that go on -/

/-- A store has all objects of another one. -/
def Keeps (s t : ErrorStore) : Prop :=
  s.size ≤ t.size ∧ ∀ e < s.size, t.get e = s.get e

theorem Keeps.refl (s : ErrorStore) : s.Keeps s :=
  ⟨Nat.le_refl _, fun _ _ => rfl⟩

theorem Keeps.trans {s t u : ErrorStore} (h : s.Keeps t) (h' : t.Keeps u) : s.Keeps u :=
  ⟨Nat.le_trans h.1 h'.1, fun e he => (h'.2 e (Nat.lt_of_lt_of_le he h.1)).trans (h.2 e he)⟩

theorem Closed.origin {s : ErrorStore} (h : s.Closed) {e next : ErrorId}
    (horigin : s.origin e = some next) : next < s.size := by
  simp only [ErrorStore.origin] at horigin
  cases hcause : (s.get e).cause with
  | some cause =>
      rw [hcause] at horigin
      cases horigin
      exact h.cause e _ hcause
  | none =>
      rw [hcause] at horigin
      dsimp only at horigin
      split at horigin
      · cases horigin
      · exact h.context e next horigin

theorem Keeps.originsFrom {s t : ErrorStore} (h : s.Keeps t) (hclosed : s.Closed) {e : ErrorId}
    (he : e < s.size) (bound : Nat) (seen : List ErrorId) :
    t.originsFrom bound seen e = s.originsFrom bound seen e := by
  induction bound generalizing seen e with
  | zero => rfl
  | succ bound ih =>
      have horigin : t.origin e = s.origin e := by
        rw [ErrorStore.origin, ErrorStore.origin, h.2 e he]
      rw [ErrorStore.originsFrom, ErrorStore.originsFrom, horigin]
      cases hnext : s.origin e with
      | none => rfl
      | some next =>
          dsimp only
          rw [ih (hclosed.origin hnext)]

theorem mem_originsFrom_lt {s : ErrorStore} (hclosed : s.Closed) {e : ErrorId} (he : e < s.size)
    (bound : Nat) (seen : List ErrorId) : ∀ i ∈ s.originsFrom bound seen e, i < s.size := by
  induction bound generalizing seen e with
  | zero => exact fun _ hi => nomatch hi
  | succ bound ih =>
      intro i hi
      rw [originsFrom] at hi
      split at hi
      · cases hi
      · rcases List.mem_cons.mp hi with rfl | hi
        · exact he
        · cases hnext : s.origin e with
          | none =>
              rw [hnext] at hi
              cases hi
          | some next =>
              rw [hnext] at hi
              exact ih (hclosed.origin hnext) _ i hi

/-- The seeds of an error depend only on the objects that it came from. -/
theorem extractSeed_congr {s t : ErrorStore} {e : ErrorId}
    (horigins : t.origins e = s.origins e)
    (hchains : ∀ i ∈ s.origins e, (t.get i).chains = (s.get i).chains) :
    t.extractSeed e = s.extractSeed e := by
  have hall : ((t.origins e).flatMap fun o => (t.get o).chains) =
      (s.origins e).flatMap fun o => (s.get o).chains := by
    rw [horigins]
    exact List.flatMap_congr hchains
  rw [extractSeed, extractSeed, hall]

/-- What can be told about an error stays the same when other objects are made. -/
theorem Keeps.info {s t : ErrorStore} (h : s.Keeps t) (hclosed : s.Closed) {e : ErrorId}
    (he : e < s.size) : t.info e = s.info e := by
  have horigins : t.origins e = s.origins e := by
    have hbound : s.size < t.size + 1 := Nat.lt_succ_of_le h.1
    rw [← s.originsFrom_of_size_lt e hbound, ← h.originsFrom hclosed he]
    rfl
  have hextract : t.extractSeed e = s.extractSeed e := by
    refine extractSeed_congr horigins fun i hi => ?_
    rw [h.2 i (mem_originsFrom_lt hclosed he _ _ i hi)]
  rw [ErrorStore.info, ErrorStore.info, hextract, h.2 e he]

end SeededTesting.ErrorStore

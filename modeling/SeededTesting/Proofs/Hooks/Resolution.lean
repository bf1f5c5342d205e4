import Mathlib.Data.List.Nodup
import SeededTesting.Proofs.Hooks.Order

/-! # The resolution of hooks

The hooks that are called for a phase are those of the levels, level by level: the hooks of a level
are called together, in an order of their own, and the levels come in the order of the hierarchy or
in its reverse. The lists of the levels are sorted into copies, of which each is then shuffled in
place, so the levels keep their lists as they are. Hooks whose names differ are sorted in one way,
so it does not matter in which order a level declares them.
-/

namespace SeededTesting

variable {α Code : Type}

/-! ## Levels in the order of their calls -/

/-- Levels, the most derived first, in the order in which their hooks are called. -/
def Phase.inCallOrder (levels : List (Level Code)) : Phase → List (Level Code)
  | .beforeAll | .beforeEach => levels.reverse
  | .afterEach | .afterAll => levels

theorem hookGroups_eq (levels : List (Level Code)) (phase : Phase) :
    hookGroups levels phase = (phase.inCallOrder levels).map (·.sortedHooks phase) := by
  cases phase <;> simp [hookGroups, Phase.ancestorsFirst, Phase.inCallOrder]

/-- The hooks that are called fall into segments, one for each level. -/
theorem exists_segments (levels : List (Level Code)) (phase : Phase) (t : Twister) :
    ∃ segments, (resolveHooks levels phase t).1 = segments.flatten ∧
      List.Forall₂ (fun segment level => segment.Perm (level.hooks phase)) segments
        (phase.inCallOrder levels) := by
  refine ⟨(shuffleGroups (hookGroups levels phase) t).1, rfl, ?_⟩
  have hshuffled := shuffleGroups_perm (hookGroups levels phase) t
  rw [hookGroups_eq, List.forall₂_map_right_iff] at hshuffled
  rw [hookGroups_eq]
  exact hshuffled.imp fun segment level h => h.trans (List.mergeSort_perm _ _)

theorem flatten_perm_flatMap {f : α → List (Hook Code)} {segments : List (List (Hook Code))}
    {list : List α} (h : List.Forall₂ (fun segment a => segment.Perm (f a)) segments list) :
    segments.flatten.Perm (list.flatMap f) := by
  induction h with
  | nil => exact .refl _
  | cons hhead _ ih => exact hhead.append ih

/-- Where the levels are called in two parts, so are the hooks. -/
theorem exists_parts {levels first second : List (Level Code)} {phase : Phase}
    (h : phase.inCallOrder levels = first ++ second) (t : Twister) :
    ∃ before after, (resolveHooks levels phase t).1 = before ++ after ∧
      before.Perm (first.flatMap (·.hooks phase)) ∧
        after.Perm (second.flatMap (·.hooks phase)) := by
  obtain ⟨segments, hflatten, hsegments⟩ := exists_segments levels phase t
  rw [h] at hsegments
  have hbefore := List.forall₂_take_append segments first second hsegments
  have hafter := List.forall₂_drop_append segments first second hsegments
  refine ⟨_, _, ?_, flatten_perm_flatMap hbefore, flatten_perm_flatMap hafter⟩
  rw [hflatten, ← List.flatten_append, List.take_append_drop]

/-! ## Shuffling copies in place -/

/-- Lists that can be changed, by number. -/
abbrev ListStore (α : Type) := Array (List α)

namespace ListStore

/-- Makes copies of lists of hooks, each sorted by the names. -/
def sortCopies : List Nat → ListStore (Hook Code) → List Nat × ListStore (Hook Code)
  | [], store => ([], store)
  | list :: rest, store =>
    let sorted := (store.getD list []).mergeSort fun a b => a.name ≤ b.name
    let (copies, grown) := sortCopies rest (store.push sorted)
    (store.size :: copies, grown)

/-- Shuffles lists in place, one after another, and puts together what they are then. -/
def shuffleInPlace : List Nat → ListStore α → Twister → List α × ListStore α × Twister
  | [], store, t => ([], store, t)
  | list :: rest, store, t =>
    let (shuffled, t) := t.shuffle (store.getD list [])
    let store := store.setIfInBounds list shuffled
    let result := store.getD list []
    let (results, store, t) := shuffleInPlace rest store t
    (result ++ results, store, t)

/-- Resolves the hooks of a phase, which the levels have in the lists of the given numbers. -/
def resolve (lists : List Nat) (phase : Phase) (store : ListStore (Hook Code)) (t : Twister) :
    List (Hook Code) × ListStore (Hook Code) × Twister :=
  let (copies, store) := sortCopies lists store
  shuffleInPlace (if phase.ancestorsFirst then copies.reverse else copies) store t

theorem getD_push {store : ListStore α} {list : Nat} (h : list < store.size) (new : List α) :
    (store.push new).getD list [] = store.getD list [] := by
  simp [h, Array.getElem?_push, Nat.ne_of_lt h]

theorem getD_setIfInBounds_of_ne {store : ListStore α} {list other : Nat} (h : other ≠ list)
    (new : List α) : (store.setIfInBounds list new).getD other [] = store.getD other [] := by
  simp [Array.getElem?_setIfInBounds_ne h.symm]

/-- The copies come after all lists that there were, which stay as they are. -/
theorem sortCopies_eq {lists : List Nat} {store : ListStore (Hook Code)}
    (h : ∀ list ∈ lists, list < store.size) : sortCopies lists store =
      (List.range' store.size lists.length,
        store ++ (lists.map fun list =>
          (store.getD list []).mergeSort fun a b => a.name ≤ b.name).toArray) := by
  induction lists generalizing store with
  | nil => simp [sortCopies]
  | cons list rest ih =>
      obtain ⟨hlist, hrest⟩ := List.forall_mem_cons.mp h
      let grown := store.push ((store.getD list []).mergeSort fun a b => a.name ≤ b.name)
      have hgrown : ∀ other ∈ rest, other < grown.size := fun other hother => by
        rw [Array.size_push]
        exact Nat.lt_succ_of_lt (hrest other hother)
      have hsame : ∀ other ∈ rest, grown.getD other [] = store.getD other [] :=
        fun other hother => getD_push (hrest other hother) _
      have hcopies := ih hgrown
      rw [List.map_congr_left fun other hother => by rw [hsame other hother]] at hcopies
      rw [sortCopies, hcopies]
      simp [grown, List.range'_succ]

/-- Lists that are shuffled in place come to be the shuffled groups; all others stay as they are. -/
theorem shuffleInPlace_eq {lists : List Nat} (hnodup : lists.Nodup) {store : ListStore α}
    (h : ∀ list ∈ lists, list < store.size) (t : Twister) :
    ∃ store', shuffleInPlace lists store t =
        ((shuffleGroups (lists.map (store.getD · [])) t).1.flatten, store',
          (shuffleGroups (lists.map (store.getD · [])) t).2) ∧
      ∀ other ∉ lists, store'.getD other [] = store.getD other [] := by
  induction lists generalizing store t with
  | nil => exact ⟨store, rfl, fun _ _ => rfl⟩
  | cons list rest ih =>
      obtain ⟨hlist, hrest⟩ := List.forall_mem_cons.mp h
      obtain ⟨hfresh, hnodup⟩ := List.nodup_cons.mp hnodup
      let shuffled := t.shuffle (store.getD list [])
      let changed := store.setIfInBounds list shuffled.1
      have hchanged : ∀ other ∈ rest, other < changed.size := fun other hother => by
        rw [Array.size_setIfInBounds]
        exact hrest other hother
      obtain ⟨store', hshuffle, hkeeps⟩ := ih hnodup hchanged shuffled.2
      -- The lists still to come are other ones, so they hold what they held at first.
      have hsame : rest.map (changed.getD · []) = rest.map (store.getD · []) :=
        List.map_congr_left fun other hother =>
          getD_setIfInBounds_of_ne (ne_of_mem_of_not_mem hother hfresh) _
      have hhere : changed.getD list [] = shuffled.1 := by
        simp [changed, hlist]
      refine ⟨store', ?_, fun other hother => ?_⟩
      · rw [hsame] at hshuffle
        simp only [shuffleInPlace]
        rw [hshuffle, hhere]
        rfl
      · rw [List.mem_cons, not_or] at hother
        rw [hkeeps other hother.2]
        exact getD_setIfInBounds_of_ne hother.1 _

theorem getD_append_copies (store : ListStore α) (copies : List (List α)) :
    (List.range' store.size copies.length).map ((store ++ copies.toArray).getD · []) = copies := by
  apply List.ext_getElem
  · simp
  · intro i hi hi'
    simp [Array.getElem?_append_right, List.getElem?_eq_getElem hi']

theorem getD_append {store : ListStore α} {list : Nat} (h : list < store.size)
    (copies : List (List α)) : (store ++ copies.toArray).getD list [] = store.getD list [] := by
  simp [Array.getElem?_append_left, h]

section Levels

variable {lists : List Nat} {levels : List (Level Code)} {phase : Phase}
  {store : ListStore (Hook Code)} (hlists : ∀ list ∈ lists, list < store.size)
  (hlevels : lists.map (store.getD · []) = levels.map (·.hooks phase))

include hlists hlevels

/-- Of lists that are those of the levels, the copies are the sorted lists of the levels. -/
theorem sortCopies_levels : sortCopies lists store =
    (List.range' store.size (levels.map (·.sortedHooks phase)).length,
      store ++ (levels.map (·.sortedHooks phase)).toArray) := by
  have hsorted : lists.map (fun list =>
      (store.getD list []).mergeSort fun a b => a.name ≤ b.name) =
        levels.map (·.sortedHooks phase) := by
    have hmapped := congrArg (List.map fun hooks : List (Hook Code) =>
      hooks.mergeSort fun a b => a.name ≤ b.name) hlevels
    rw [List.map_map, List.map_map] at hmapped
    exact hmapped
  rw [sortCopies_eq hlists, hsorted, ← hsorted, List.length_map]

/-- In place the same hooks are resolved, and all lists that there were stay as they are. -/
theorem resolve_eq (t : Twister) :
    ∃ store', resolve lists phase store t =
        ((resolveHooks levels phase t).1, store', (resolveHooks levels phase t).2) ∧
      ∀ list < store.size, store'.getD list [] = store.getD list [] := by
  let groups := levels.map (·.sortedHooks phase)
  let copies := List.range' store.size groups.length
  let ordered := if phase.ancestorsFirst then copies.reverse else copies
  let grown := store ++ groups.toArray
  have hordered : ordered.Perm copies := by
    by_cases hfirst : phase.ancestorsFirst = true <;> simp [ordered, hfirst]
  have hgroups : ordered.map (grown.getD · []) = hookGroups levels phase := by
    have hcopies : copies.map (grown.getD · []) = groups := getD_append_copies store groups
    unfold hookGroups
    by_cases hfirst : phase.ancestorsFirst = true
    · simp only [ordered, hfirst, if_true, List.map_reverse, hcopies, groups]
    · simp only [ordered, hfirst, Bool.false_eq_true, if_false, hcopies, groups]
  -- Only the copies are shuffled, and they have numbers that no list had before.
  have hmem : ∀ list ∈ ordered, store.size ≤ list ∧ list < grown.size := by
    intro list hlist
    have hcopy := List.mem_range'_1.mp (hordered.mem_iff.mp hlist)
    simpa [grown] using hcopy
  have hnodup : ordered.Nodup := hordered.nodup_iff.mpr List.nodup_range'
  obtain ⟨store', hshuffle, hkeeps⟩ :=
    shuffleInPlace_eq hnodup (fun list hlist => (hmem list hlist).2) t
  refine ⟨store', ?_, fun list hlist => ?_⟩
  · rw [hgroups] at hshuffle
    rw [resolve, sortCopies_levels hlists hlevels]
    exact hshuffle
  · rw [hkeeps list fun hcopy => Nat.not_le.mpr hlist (hmem list hcopy).1]
    exact getD_append hlist groups

end Levels

end ListStore

/-- The hooks that are called for a phase fall into one segment for each level, which holds the
hooks of the level for the phase, each as often as it is there, in some order; the segments come in
the order of the hierarchy, from the last level on before tests and from the first on after them. So
nothing is lost, and wherever the levels are divided into descendants and ancestors, the hooks of
all ancestors are called before those of all descendants, or after them. Where the hooks of the
levels are held in lists that can be changed, these stay as they are, whichever of them are held by
several levels. -/
theorem resolveHooks_hierarchy (levels : List (Level Code)) (phase : Phase) (t : Twister) :
    (∃ segments, (resolveHooks levels phase t).1 = segments.flatten ∧
        List.Forall₂ (fun segment level => segment.Perm (level.hooks phase)) segments
          (phase.inCallOrder levels)) ∧
      (resolveHooks levels phase t).1.Perm (levels.flatMap (·.hooks phase)) ∧
      (∀ derived ancestors, levels = derived ++ ancestors → ∃ own inherited,
        own.Perm (derived.flatMap (·.hooks phase)) ∧
          inherited.Perm (ancestors.flatMap (·.hooks phase)) ∧
          (resolveHooks levels phase t).1 = match phase with
            | .beforeAll | .beforeEach => inherited ++ own
            | .afterEach | .afterAll => own ++ inherited) ∧
      ∀ (lists : List Nat) (store : ListStore (Hook Code)), (∀ list ∈ lists, list < store.size) →
        lists.map (store.getD · []) = levels.map (·.hooks phase) →
        ∃ store', ListStore.resolve lists phase store t =
            ((resolveHooks levels phase t).1, store', (resolveHooks levels phase t).2) ∧
          ∀ list < store.size, store'.getD list [] = store.getD list [] := by
  refine ⟨exists_segments levels phase t, resolveHooks_perm levels phase t, ?_, ?_⟩
  · rintro derived ancestors rfl
    have hreversed : ∀ levels : List (Level Code),
        (levels.reverse.flatMap (·.hooks phase)).Perm (levels.flatMap (·.hooks phase)) :=
      fun levels => (List.reverse_perm levels).flatMap_right _
    have hparts : ∀ first second, phase.inCallOrder (derived ++ ancestors) = first ++ second → _ :=
      fun first second h => exists_parts h t
    cases phase with
    | beforeAll | beforeEach =>
        obtain ⟨inherited, own, hcalled, hinherited, hown⟩ := hparts _ _ List.reverse_append
        exact ⟨own, inherited, hown.trans (hreversed _), hinherited.trans (hreversed _), hcalled⟩
    | afterEach | afterAll =>
        obtain ⟨own, inherited, hcalled, hown, hinherited⟩ := hparts derived ancestors rfl
        exact ⟨own, inherited, hown, hinherited, hcalled⟩
  · intro lists store hlists hlevels
    exact ListStore.resolve_eq hlists hlevels t

/-- A class of which two levels hold one list, and a level between them that holds a hook twice. -/
theorem resolveHooks_hierarchy_shared :
    let opens : Hook Unit := { name := "open", label := "open", code := some () }
    let binds : Hook Unit := { name := "bind", label := "bind", code := some () }
    let leaf : Level Unit := { owner := "Leaf", beforeEach := [opens, binds] }
    let mid : Level Unit := { owner := "Mid", beforeEach := [opens, opens] }
    let base : Level Unit := { owner := "Base", beforeEach := [opens, binds] }
    let store : ListStore (Hook Unit) := #[[opens, binds], [opens, opens]]
    (∃ own inherited, own.Perm [opens, binds] ∧
        inherited.Perm [opens, opens, opens, binds] ∧
        (resolveHooks [leaf, mid, base] .beforeEach (Twister.ofNat 7)).1 = inherited ++ own) ∧
      ∃ store', (ListStore.resolve [0, 1, 0] .beforeEach store (Twister.ofNat 7)).2.1 = store' ∧
        ∀ list < 2, store'.getD list [] = store.getD list [] := by
  intro opens binds leaf mid base store
  obtain ⟨-, -, hdivided, hstored⟩ :=
    resolveHooks_hierarchy [leaf, mid, base] .beforeEach (Twister.ofNat 7)
  obtain ⟨store', hresolve, hkept⟩ := hstored [0, 1, 0] store (by decide) rfl
  exact ⟨hdivided [leaf] [mid, base] rfl, store', by rw [hresolve], hkept⟩

/-! ## Declaration order -/

/-- Hooks of distinct names are sorted in one way, in whatever order they were declared. -/
theorem Level.sortedHooks_of_perm {level level' : Level Code} {phase : Phase}
    (hperm : (level.hooks phase).Perm (level'.hooks phase))
    (hnames : ((level.hooks phase).map (·.name)).Nodup) :
    level.sortedHooks phase = level'.sortedHooks phase := by
  have hsorted : ∀ level : Level Code,
      (level.sortedHooks phase).Pairwise fun a b => decide (a.name ≤ b.name) = true := by
    intro level
    apply List.pairwise_mergeSort
    · intro a b c hab hbc
      simp only [decide_eq_true_eq] at hab hbc ⊢
      exact String.le_trans hab hbc
    · intro a b
      simpa using String.le_total a.name b.name
  have hsame : (level.sortedHooks phase).Perm (level'.sortedHooks phase) :=
    (List.mergeSort_perm _ _).trans (hperm.trans (List.mergeSort_perm _ _).symm)
  apply hsame.eq_of_pairwise _ (hsorted level) (hsorted level')
  -- Of two hooks that are in order either way the names are the same, and so are the hooks.
  intro a b ha hb hab hba
  have hname : a.name = b.name := String.le_antisymm (of_decide_eq_true hab) (of_decide_eq_true hba)
  have hdeclared : ∀ hook ∈ level.sortedHooks phase, hook ∈ level.hooks phase :=
    fun hook hmem => List.mem_mergeSort.mp hmem
  exact List.inj_on_of_nodup_map hnames (hdeclared a ha) (hdeclared b (hsame.mem_iff.mpr hb)) hname

/-- Levels that hold the same hooks of a phase, however declared, have the same groups of them. -/
theorem hookGroups_of_perm {levels levels' : List (Level Code)} {phase : Phase}
    (hperm : List.Forall₂ (fun level level' => (level.hooks phase).Perm (level'.hooks phase))
      levels levels')
    (hnames : ∀ level ∈ levels, ((level.hooks phase).map (·.name)).Nodup) :
    hookGroups levels phase = hookGroups levels' phase := by
  have hsorted : levels.map (·.sortedHooks phase) = levels'.map (·.sortedHooks phase) := by
    induction hperm with
    | nil => rfl
    | cons hlevel _ ih =>
        obtain ⟨hfirst, hrest⟩ := List.forall_mem_cons.mp hnames
        rw [List.map_cons, List.map_cons, Level.sortedHooks_of_perm hlevel hfirst, ih hrest]
  rw [hookGroups, hookGroups, hsorted]

/-- The order in which levels declare their hooks does not matter: where two lists of levels hold
the same hooks of a phase, level by level, and the names of the hooks of a level differ, the same
hooks are called in the same order, and the generator is left in the same state. -/
theorem resolveHooks_of_perm {levels levels' : List (Level Code)} {phase : Phase}
    (hperm : List.Forall₂ (fun level level' => (level.hooks phase).Perm (level'.hooks phase))
      levels levels')
    (hnames : ∀ level ∈ levels, ((level.hooks phase).map (·.name)).Nodup) (t : Twister) :
    resolveHooks levels phase t = resolveHooks levels' phase t := by
  rw [resolveHooks, resolveHooks, hookGroups_of_perm hperm hnames]

/-- Two levels that declare their hooks in other orders, of which one holds a name of the other. -/
theorem resolveHooks_of_perm_redeclared :
    let hook (name label : String) : Hook Unit := { name, label, code := some () }
    let leaf : Level Unit := {
      owner := "Leaf"
      afterEach := [hook "close" "Leaf.close", hook "flush" "flush", hook "report" "report"] }
    let leaf' : Level Unit := {
      owner := "Leaf"
      afterEach := [hook "report" "report", hook "close" "Leaf.close", hook "flush" "flush"] }
    let base : Level Unit := {
      owner := "Base", afterEach := [hook "unlock" "unlock", hook "close" "Base.close"] }
    let base' : Level Unit := {
      owner := "Base", afterEach := [hook "close" "Base.close", hook "unlock" "unlock"] }
    leaf.afterEach.map (·.name) ≠ leaf'.afterEach.map (·.name) ∧
      base.afterEach.map (·.name) ≠ base'.afterEach.map (·.name) ∧
      resolveHooks [leaf, base] .afterEach (Twister.ofNat 7) =
        resolveHooks [leaf', base'] .afterEach (Twister.ofNat 7) := by
  refine ⟨by decide, by decide, resolveHooks_of_perm (.cons ?_ (.cons ?_ .nil)) ?_ _⟩
  · exact (List.Perm.swap _ _ _).trans ((List.Perm.swap _ _ _).cons _) |>.symm
  · exact .swap _ _ _
  · simp [Level.hooks]

end SeededTesting

import SeededTesting.Proofs.Failure.Walks

/-! # Where an error came from

The objects that an error came from are the one walk along its links that meets no object twice and
ends only where there is no further link, or one back to an object that was met. Links are never
touched by recording, so the seeds of an error are those that were recorded on the objects of this
walk, whatever was recorded on others.
-/

namespace SeededTesting.ErrorStore

variable {s t : ErrorStore} {e next : ErrorId} {seen path : List ErrorId}

/-! ## Links -/

/-- One object came from another: that is its cause, or it has no cause, and that is its context,
which is not hidden. -/
def Link (s : ErrorStore) (e next : ErrorId) : Prop :=
  (s.get e).cause = some next ∨
    (s.get e).cause = none ∧ (s.get e).suppressContext = false ∧ (s.get e).context = some next

theorem origin_eq_some_iff : s.origin e = some next ↔ s.Link e next := by
  unfold origin Link
  cases hcause : (s.get e).cause with
  | some cause => simp [hcause]
  | none => cases hcontext : (s.get e).suppressContext <;> simp [hcause, hcontext]

theorem Link.unique {other : ErrorId} (h : s.Link e next) (h' : s.Link e other) :
    next = other := by
  rw [← origin_eq_some_iff] at h h'
  exact Option.some.inj (h.symm.trans h')

/-! ## Walks -/

/-- What a walk along links meets, past the objects that were seen before it started. -/
structure Walk (s : ErrorStore) (seen : List ErrorId) (e : ErrorId) (path : List ErrorId) :
    Prop where
  head : path.head? = some e
  nodup : path.Nodup
  fresh : ∀ i ∈ path, i ∉ seen
  linked : path.IsChain s.Link
  ended : ∀ last ∈ path.getLast?, ∀ next, s.Link last next → next ∈ path ∨ next ∈ seen

namespace Walk

theorem single (he : e ∉ seen) (hended : ∀ next, s.Link e next → next ∈ e :: seen) :
    s.Walk seen e [e] where
  head := rfl
  nodup := List.nodup_singleton e
  fresh i hi := by rwa [List.mem_singleton.mp hi]
  linked := .singleton e
  ended last hlast next hlink := by
    cases hlast
    simpa using hended next hlink

theorem cons (he : e ∉ seen) (hlink : s.Link e next) (h : s.Walk (e :: seen) next path) :
    s.Walk seen e (e :: path) := by
  obtain ⟨rest, rfl⟩ := List.head?_eq_some_iff.mp h.head
  refine ⟨rfl, List.nodup_cons.mpr ⟨?_, h.nodup⟩, ?_, .cons_cons hlink h.linked, ?_⟩
  · exact fun hmem => h.fresh e hmem List.mem_cons_self
  · intro i hi
    rcases List.mem_cons.mp hi with rfl | hi
    · exact he
    · exact fun hseen => h.fresh i hi (List.mem_cons_of_mem e hseen)
  · intro last hlast other hother
    rw [List.getLast?_cons_cons] at hlast
    rcases h.ended last hlast other hother with hmem | hmem
    · exact .inl (List.mem_cons_of_mem e hmem)
    · rcases List.mem_cons.mp hmem with rfl | hseen
      · exact .inl List.mem_cons_self
      · exact .inr hseen

/-- A walk stops at its first object, or it takes the link of that and goes on past it. -/
theorem inversion (h : s.Walk seen e path) :
    e ∉ seen ∧ (path = [e] ∧ (∀ next, s.Link e next → next ∈ e :: seen) ∨
      ∃ next rest, path = e :: rest ∧ s.Link e next ∧ s.Walk (e :: seen) next rest) := by
  obtain ⟨rest, rfl⟩ := List.head?_eq_some_iff.mp h.head
  have he : e ∉ seen := h.fresh e List.mem_cons_self
  refine ⟨he, ?_⟩
  cases rest with
  | nil =>
      refine .inl ⟨rfl, fun next hlink => ?_⟩
      simpa using h.ended e rfl next hlink
  | cons next rest =>
      obtain ⟨hmem, hnodup⟩ := List.nodup_cons.mp h.nodup
      obtain ⟨hlink, hlinked⟩ := List.isChain_cons_cons.mp h.linked
      refine .inr ⟨next, _, rfl, hlink, rfl, hnodup, ?_, hlinked, ?_⟩
      · rintro i hi hseen
        rcases List.mem_cons.mp hseen with rfl | hseen
        · exact hmem hi
        · exact h.fresh i (List.mem_cons_of_mem e hi) hseen
      -- An end that leads back to the first object leads to what the rest has seen.
      · intro last hlast other hother
        rcases h.ended last hlast other hother with hmem | hseen
        · rcases List.mem_cons.mp hmem with rfl | hmem
          · exact .inr List.mem_cons_self
          · exact .inl hmem
        · exact .inr (List.mem_cons_of_mem e hseen)

theorem unique {other : List ErrorId} (h : s.Walk seen e path) (h' : s.Walk seen e other) :
    path = other := by
  induction path generalizing seen e other with
  | nil => cases h.head
  | cons i path ih =>
      obtain ⟨-, ⟨heq, hended⟩ | ⟨next, rest, heq, hlink, hrest⟩⟩ := h.inversion
      · obtain ⟨-, ⟨rfl, -⟩ | ⟨next', rest', -, hlink', hrest'⟩⟩ := h'.inversion
        · exact heq
        · exact absurd (hended next' hlink') hrest'.inversion.1
      · cases heq
        obtain ⟨-, ⟨-, hended'⟩ | ⟨next', rest', rfl, hlink', hrest'⟩⟩ := h'.inversion
        · exact absurd (hended' next hlink) hrest.inversion.1
        · obtain rfl := hlink.unique hlink'
          rw [ih hrest hrest']

/-- A walk depends on the links alone. -/
theorem congr (hlink : ∀ i next, t.Link i next ↔ s.Link i next) (h : s.Walk seen e path) :
    t.Walk seen e path where
  head := h.head
  nodup := h.nodup
  fresh := h.fresh
  linked := h.linked.imp fun i next hi => (hlink i next).mpr hi
  ended last hlast next hnext := h.ended last hlast next ((hlink last next).mp hnext)

end Walk

theorem originsFrom_of_mem {bound : Nat} (he : e ∈ seen) : s.originsFrom bound seen e = [] := by
  cases bound with
  | zero => rfl
  | succ bound => rw [originsFrom, if_pos (List.contains_iff_mem.mpr he)]

/-- With a bound that is enough for the store, what is found is a walk. -/
theorem walk_originsFrom {bound : Nat} (h : s.Affords bound seen) (he : e ∉ seen) :
    s.Walk seen e (s.originsFrom bound seen e) := by
  induction bound generalizing seen e with
  | zero => exact absurd h.pos (Nat.lt_irrefl 0)
  | succ bound ih =>
      rw [originsFrom, if_neg (by simpa using he)]
      cases horigin : s.origin e with
      | none =>
          refine .single he fun next hlink => ?_
          rw [← origin_eq_some_iff, horigin] at hlink
          cases hlink
      | some next =>
          have hlink : s.Link e next := origin_eq_some_iff.mp horigin
          dsimp only
          -- A link back ends the walk; any other one spends the bound on an object not seen yet.
          by_cases hnext : next ∈ e :: seen
          · rw [originsFrom_of_mem hnext]
            exact .single he fun other hother => hlink.unique hother ▸ hnext
          · exact .cons he hlink (ih (h.cons he horigin) hnext)

/-- The objects that an error came from are the one walk that starts at it. -/
theorem walk_iff : s.Walk [] e path ↔ path = s.origins e := by
  have horigins : s.Walk [] e (s.origins e) :=
    walk_originsFrom (.nil (Nat.lt_succ_self _)) List.not_mem_nil
  exact ⟨fun h => h.unique horigins, fun h => h ▸ horigins⟩

/-! ## Seeds along a walk -/

theorem extractSeed_eq_none_iff :
    s.extractSeed e = none ↔ ∀ i ∈ s.origins e, (s.get i).chains = [] := by
  rw [extractSeed]
  simp [List.isEmpty_iff, List.flatMap_eq_nil_iff]

theorem extractSeed_eq_some {i : ErrorId} (hi : i ∈ s.origins e) (hchains : (s.get i).chains ≠ []) :
    s.extractSeed e =
      some (String.intercalate ", " ((s.origins e).flatMap fun o => (s.get o).chains)) := by
  have hne : ((s.origins e).flatMap fun o => (s.get o).chains) ≠ [] := by
    rw [Ne, List.flatMap_eq_nil_iff]
    exact fun hall => hchains (hall i hi)
  rw [extractSeed, if_neg (by rwa [List.isEmpty_iff])]

/-! ## Recording -/

theorem link_augment (s : ErrorStore) (o : ErrorId) (seeds : List Seed) (i next : ErrorId) :
    (s.augment o seeds).2.Link i next ↔ s.Link i next := by
  obtain ⟨chains, notes, heq⟩ := s.get_augment o seeds i
  rw [Link, Link, heq]

/-- An object was made, and does not refuse the chains that are set on it. -/
def Takes (s : ErrorStore) (i : ErrorId) : Prop :=
  i < s.size ∧ (s.get i).kind.refusal = none

instance (s : ErrorStore) (i : ErrorId) : Decidable (s.Takes i) :=
  inferInstanceAs (Decidable (_ ∧ _))

theorem chains_augment (s : ErrorStore) (o : ErrorId) (seeds : List Seed) (i : ErrorId) :
    ((s.augment o seeds).2.get i).chains =
      if o = i ∧ s.Takes i then SeedChain.format seeds :: (s.get i).chains
      else (s.get i).chains := by
  rw [augment_eq, get_update]
  by_cases hi : i = o
  · subst hi
    by_cases hlt : i < s.size
    · rw [if_pos ⟨rfl, hlt⟩, ErrorObject.record_chains]
      simp [Takes, hlt]
    · simp [Takes, hlt]
  · simp [hi, Ne.symm hi]

theorem takes_augment (s : ErrorStore) (o : ErrorId) (seeds : List Seed) (i : ErrorId) :
    (s.augment o seeds).2.Takes i ↔ s.Takes i := by
  obtain ⟨chains, notes, heq⟩ := s.get_augment o seeds i
  rw [Takes, Takes, heq, augment_eq, size_update]

/-- Records seeds on one error after the other. -/
def augmentAll (s : ErrorStore) (recordings : List (ErrorId × List Seed)) : ErrorStore :=
  recordings.foldl (fun s r => (s.augment r.1 r.2).2) s

/-- The chains of an object after recordings: those of its own recordings, the last one first, and
then those that it carried before. -/
def chainsAfter (s : ErrorStore) (recordings : List (ErrorId × List Seed)) (i : ErrorId) :
    List String :=
  (if s.Takes i then
      ((recordings.filter (·.1 = i)).map fun r => SeedChain.format r.2).reverse
    else []) ++ (s.get i).chains

theorem link_augmentAll (recordings : List (ErrorId × List Seed)) (i next : ErrorId) :
    (s.augmentAll recordings).Link i next ↔ s.Link i next := by
  induction recordings generalizing s with
  | nil => rfl
  | cons r recordings ih => exact ih.trans (s.link_augment r.1 r.2 i next)

@[simp] theorem size_augmentAll (recordings : List (ErrorId × List Seed)) :
    (s.augmentAll recordings).size = s.size := by
  induction recordings generalizing s with
  | nil => rfl
  | cons r recordings ih => exact ih.trans (size_update _ _ _)

theorem chainsAfter_augment (o : ErrorId) (seeds : List Seed)
    (recordings : List (ErrorId × List Seed)) (i : ErrorId) :
    (s.augment o seeds).2.chainsAfter recordings i =
      s.chainsAfter ((o, seeds) :: recordings) i := by
  unfold chainsAfter
  simp only [chains_augment, takes_augment]
  by_cases htakes : s.Takes i
  · by_cases ho : o = i <;> simp [htakes, ho]
  · simp [htakes]

theorem chains_augmentAll (recordings : List (ErrorId × List Seed)) (i : ErrorId) :
    ((s.augmentAll recordings).get i).chains = s.chainsAfter recordings i := by
  induction recordings generalizing s with
  | nil => simp [augmentAll, chainsAfter]
  | cons r recordings ih =>
      calc ((s.augmentAll (r :: recordings)).get i).chains
        _ = (s.augment r.1 r.2).2.chainsAfter recordings i := ih
        _ = s.chainsAfter (r :: recordings) i := chainsAfter_augment r.1 r.2 recordings i

/-- Whatever the links of a store are, cycles and shared ends included, an error has exactly one
walk along them that meets no object twice. Whatever was recorded on the objects, the walk is found
with every bound beyond the size of the store, and the seeds of the error are the chains on the
objects of the walk, in the order of the walk and on each object the last one first; there are none
exactly if no object of the walk has a chain. Recording on an object off the walk changes nothing
about them. -/
theorem extractSeed_augmentAll (s : ErrorStore) (recordings : List (ErrorId × List Seed))
    (e : ErrorId) :
    ∃ path, (∀ other, s.Walk [] e other ↔ other = path) ∧
      (∀ bound, s.size < bound → (s.augmentAll recordings).originsFrom bound [] e = path) ∧
      ((∀ i ∈ path, s.chainsAfter recordings i = []) ∧
          (s.augmentAll recordings).extractSeed e = none ∨
        (∃ i ∈ path, s.chainsAfter recordings i ≠ []) ∧
          (s.augmentAll recordings).extractSeed e =
            some (String.intercalate ", " (path.flatMap (s.chainsAfter recordings)))) ∧
      ∀ o seeds, o ∉ path →
        ((s.augmentAll recordings).augment o seeds).2.extractSeed e =
          (s.augmentAll recordings).extractSeed e := by
  have hsize : (s.augmentAll recordings).size = s.size := size_augmentAll recordings
  have hwalk : s.Walk [] e ((s.augmentAll recordings).origins e) :=
    (walk_iff.mpr rfl).congr fun i next => (link_augmentAll recordings i next).symm
  refine ⟨(s.augmentAll recordings).origins e, fun other => ?_, ?_, ?_, ?_⟩
  · exact ⟨fun h => h.unique hwalk, fun h => h ▸ hwalk⟩
  · exact fun bound hbound => originsFrom_of_size_lt _ e (hsize ▸ hbound)
  · have hchains : s.chainsAfter recordings = fun i => ((s.augmentAll recordings).get i).chains :=
      funext fun i => (chains_augmentAll recordings i).symm
    rw [hchains]
    by_cases hnone : ∀ i ∈ (s.augmentAll recordings).origins e,
        ((s.augmentAll recordings).get i).chains = []
    · exact .inl ⟨hnone, extractSeed_eq_none_iff.mpr hnone⟩
    · obtain ⟨i, hi, hne⟩ := by simpa only [not_forall, exists_prop] using hnone
      exact .inr ⟨⟨i, hi, hne⟩, extractSeed_eq_some hi hne⟩
  · intro o seeds ho
    refine extractSeed_congr ?_ fun i hi => ?_
    · exact (walk_iff.mp ((walk_iff.mpr rfl).congr (link_augment _ o seeds))).symm
    · rw [chains_augment, if_neg]
      rintro ⟨rfl, -⟩
      exact ho hi

/-- Four errors: the first was caused by the second, which was raised in the context of the third,
which was caused by the second; the last one shares the cause of the first. -/
def tangled : ErrorStore where
  objects := #[
    { ErrorObject.ofComplaint ⟨.value, none⟩ with cause := some 1, context := some 3 },
    { ErrorObject.ofComplaint ⟨.value, none⟩ with context := some 2 },
    { ErrorObject.ofComplaint ⟨.value, none⟩ with cause := some 1 },
    { ErrorObject.ofComplaint ⟨.value, none⟩ with cause := some 1 }]

theorem extractSeed_tangled :
    (tangled.augmentAll [(1, [1]), (0, [2]), (3, [4]), (1, [3])]).extractSeed 0 =
      some (String.intercalate ", " [SeedChain.format [2], SeedChain.format [3],
        SeedChain.format [1]]) := by
  obtain ⟨path, hwalk, -, hseeds, -⟩ :=
    extractSeed_augmentAll tangled [(1, [1]), (0, [2]), (3, [4]), (1, [3])] 0
  obtain rfl : [0, 1, 2] = path := (hwalk [0, 1, 2]).mp (walk_iff.mpr (by decide))
  rcases hseeds with ⟨hnone, -⟩ | ⟨-, hsome⟩
  · exact absurd (hnone 0 (by decide)) (List.cons_ne_nil _ _)
  · exact hsome

end SeededTesting.ErrorStore

import Mathlib.Data.List.Nodup
import SeededTesting.Proofs.DisplayName.Decoding
import SeededTesting.Proofs.Run.Overrides
import SeededTesting.Proofs.Seed.Iterations

/-! # Names that clash

The name of a candidate runs its unit, an index and its seeds together. The seeds can always be told
from what stands before them, but a unit that is run once may be named like an iteration of another
unit. With the same seed the two candidates then have one name, although the units of the suite have
different names.
-/

namespace SeededTesting

variable {Code : Type}

/-! ## The parts of a name -/

/-- What stands before a mark is told by the last one. -/
theorem eq_of_append_mark_eq {α : Type} {mark : α} {a b p q : List α}
    (h : a ++ mark :: p = b ++ mark :: q) (hp : mark ∉ p) (hq : mark ∉ q) : a = b ∧ p = q := by
  rcases List.append_eq_append_iff.mp h with ⟨more, rfl, hmore⟩ | ⟨more, rfl, hmore⟩
  · cases more with
    | nil => exact ⟨(List.append_nil a).symm, (List.cons.inj hmore).2⟩
    | cons c more =>
        obtain ⟨rfl, rfl⟩ := List.cons.inj hmore
        exact absurd (List.mem_append_right _ List.mem_cons_self) hp
  · cases more with
    | nil => exact ⟨List.append_nil b, (List.cons.inj hmore).2.symm⟩
    | cons c more =>
        obtain ⟨rfl, rfl⟩ := List.cons.inj hmore
        exact absurd (List.mem_append_right _ List.mem_cons_self) hq

namespace DisplayName

/-- What stands before the seeds of a name. -/
def numbered (unit : String) (iteration : Nat) (count : Int) : String :=
  unit ++ if count > 1 then "#" ++ toString (iteration : Int) else ""

/-- Before the mark between its seeds a name tells its candidate. -/
theorem toList_format_numbered (unit : String) (iteration : Nat) (count : Int) (master seed : Seed)
    (suite : String) : (format unit iteration count master seed suite).toList =
      ((numbered unit iteration count).toList ++ ' ' :: '[' :: Text.Hex.digits master.toNat) ++
        SeedChain.separator :: Text.Hex.digits seed.toNat ++
          ']' :: '(' :: (suite.toList ++ [')']) := by
  have hinner : SeedChain.inner [master, seed] = Text.Hex.digits master.toNat ++
      SeedChain.separator :: Text.Hex.digits seed.toNat := by
    rw [SeedChain.inner, List.map_cons, List.map_singleton, List.intercalate_cons_cons,
      List.intercalate_singleton, List.append_assoc, List.singleton_append]
  unfold format numbered
  simp only [String.toList_append, SeedChain.toList_format, hinner]
  simp

/-- Names of one run agree if they do in their seeds and before them. -/
theorem format_eq_iff {unit unit' suite : String} {iteration iteration' : Nat} {count count' : Int}
    {master seed seed' : Seed} :
    format unit iteration count master seed suite =
        format unit' iteration' count' master seed' suite ↔
      numbered unit iteration count = numbered unit' iteration' count' ∧ seed = seed' := by
  have hunmarked : ∀ seed : Seed, SeedChain.separator ∉ Text.Hex.digits seed.toNat :=
    fun seed hmem => (Text.Hex.plain_of_mem_digits hmem).unmarked (by decide)
  constructor
  · intro h
    have htext := congrArg String.toList h
    rw [toList_format_numbered, toList_format_numbered] at htext
    obtain ⟨hbefore, hseed⟩ := eq_of_append_mark_eq (List.append_cancel_right htext)
      (hunmarked seed) (hunmarked seed')
    exact ⟨String.toList_injective (List.append_cancel_right hbefore),
      UInt64.toNat_inj.mp (Text.Hex.digits_inj hseed)⟩
  · rintro ⟨hbefore, rfl⟩
    rw [← String.toList_inj, toList_format_numbered, toList_format_numbered, hbefore]

/-- A name is longer than that of its suite. -/
theorem format_ne_suite {unit suite : String} {iteration count : Int} {master seed : Seed} :
    format unit iteration count master seed suite ≠ suite := by
  intro h
  have hlength := congrArg (fun name : String => name.toList.length) h
  unfold format at hlength
  simp only [String.toList_append, List.length_append] at hlength
  have hopening : " ".toList.length = 1 := rfl
  omega

theorem numbered_of_repeated {unit : String} {iteration : Nat} {count : Int} (h : 1 < count) :
    numbered unit iteration count = unit ++ "#" ++ toString iteration := by
  have hindex : toString (iteration : Int) = toString iteration := by
    rw [← String.toList_inj, toList_toString]
    exact Nat.toList_repr.symm
  rw [numbered, if_pos h, hindex, String.append_assoc]

theorem numbered_of_single {unit : String} {iteration : Nat} {count : Int} (h : count ≤ 1) :
    numbered unit iteration count = unit := by
  rw [numbered, if_neg (Int.not_lt.mpr h), String.append_empty]

/-- The last number mark is the one before the index. -/
theorem numbered_inj {unit unit' : String} {iteration iteration' : Nat}
    (h : unit ++ "#" ++ toString iteration = unit' ++ "#" ++ toString iteration') :
    unit = unit' ∧ iteration = iteration' := by
  have hunmarked : ∀ n : Nat, '#' ∉ Nat.toDigits 10 n :=
    fun n hmem => absurd (isDigit_of_mem_toDigits hmem) (by decide)
  have htext : ∀ (unit : String) (n : Nat), (unit ++ "#" ++ toString n).toList =
      unit.toList ++ '#' :: Nat.toDigits 10 n := by
    intro unit n
    rw [String.toList_append, String.toList_append, List.append_assoc, Nat.toString_eq_repr,
      Nat.toList_repr]
    rfl
  have hlist := congrArg String.toList h
  rw [htext, htext] at hlist
  obtain ⟨hunit, hdigits⟩ :=
    eq_of_append_mark_eq hlist (hunmarked iteration) (hunmarked iteration')
  refine ⟨String.toList_injective hunit, ?_⟩
  rw [← Nat.ofDigitChars_ten_toDigits (n := iteration), hdigits, Nat.ofDigitChars_ten_toDigits]

/-- What stands before the seeds tells the unit and the index, unless one unit has no index and is
named like the other with its index. -/
theorem cases_of_numbered_eq {unit unit' : String} {iteration iteration' : Nat}
    {count count' : Int} (h : numbered unit iteration count = numbered unit' iteration' count') :
    (unit = unit' ∧ (iteration = iteration' ∨ count ≤ 1 ∧ count' ≤ 1)) ∨
      (1 < count ∧ count' ≤ 1 ∧ unit' = unit ++ "#" ++ toString iteration) ∨
      (1 < count' ∧ count ≤ 1 ∧ unit = unit' ++ "#" ++ toString iteration') := by
  by_cases hcount : 1 < count
  · rw [numbered_of_repeated hcount] at h
    by_cases hcount' : 1 < count'
    · rw [numbered_of_repeated hcount'] at h
      obtain ⟨hunit, hiteration⟩ := numbered_inj h
      exact .inl ⟨hunit, .inl hiteration⟩
    · have hsingle := Int.not_lt.mp hcount'
      rw [numbered_of_single hsingle] at h
      exact .inr (.inl ⟨hcount, hsingle, h.symm⟩)
  · have hsingle := Int.not_lt.mp hcount
    rw [numbered_of_single hsingle] at h
    by_cases hcount' : 1 < count'
    · rw [numbered_of_repeated hcount'] at h
      exact .inr (.inr ⟨hcount', hsingle, h⟩)
    · have hsingle' := Int.not_lt.mp hcount'
      rw [numbered_of_single hsingle'] at h
      exact .inl ⟨h, .inr ⟨hsingle, hsingle'⟩⟩

end DisplayName

/-! ## Candidates -/

namespace Runner

/-- How often the unit of a candidate is run. -/
def iterationsOf (r : Runner Code) (c : Candidate Code) : Int :=
  iterationCount c.unit.metadata r.suite.metadata r.config

/-- The unit of `d` is run once, with the seed of `c`, and is named like the repeated unit of `c`
with its index. -/
structure Clash (r : Runner Code) (c d : Candidate Code) : Prop where
  repeated : 1 < r.iterationsOf c
  single : r.iterationsOf d ≤ 1
  unit_eq : d.unit.name = c.unit.name ++ "#" ++ toString c.iteration
  seed_eq : d.seed = c.seed

namespace MadeOf

variable {r : Runner Code} {suite : Suite Code} {config : RunConfig} {clock : Int}
  {sequence sequence' : Nat}

/-- What a candidate is called, and where its seed is from. -/
theorem candidate_eq (h : r.MadeOf suite config clock sequence sequence') {c : Candidate Code}
    (hc : c ∈ r.candidates) :
    c.name = DisplayName.format c.unit.name c.iteration (r.iterationsOf c) r.master c.seed
        suite.name ∧
      ∃ seeds, r.derivation.iterationSeeds c.unit.name c.unit.metadata (r.iterationsOf c).toNat =
        .ok seeds ∧ seeds[c.iteration]? = some c.seed := by
  obtain ⟨unit, -, block, -, hmem, hexpand⟩ := h.candidate_block hc
  obtain ⟨seeds, hseeds, rfl⟩ := UnitBlock.expand_eq_ok hexpand
  obtain ⟨⟨seed, iteration⟩, hindex, rfl⟩ := List.mem_map.mp hmem
  have hmetadata : r.derivation.metadata = r.suite.metadata := by
    rw [h.derivation_eq, h.suite_eq]
  rw [hmetadata, ← h.config_eq] at hseeds ⊢
  exact ⟨rfl, seeds, hseeds, List.mem_zipIdx_iff_getElem?.mp hindex⟩

/-- No candidate is called like the suite. -/
theorem name_ne_suite (h : r.MadeOf suite config clock sequence sequence') {c : Candidate Code}
    (hc : c ∈ r.candidates) : c.name ≠ r.suite.name := by
  rw [(h.candidate_eq hc).1, h.suite_eq]
  exact DisplayName.format_ne_suite

theorem iteration_lt (h : r.MadeOf suite config clock sequence sequence') {c : Candidate Code}
    (hc : c ∈ r.candidates) : (c.iteration : Int) < r.iterationsOf c := by
  obtain ⟨-, seeds, hseeds, hseed⟩ := h.candidate_eq hc
  obtain ⟨hlt, -⟩ := List.getElem?_eq_some_iff.mp hseed
  rw [Derivation.length_iterationSeeds hseeds] at hlt
  omega

/-- A unit and an iteration have one seed. -/
theorem seed_eq (h : r.MadeOf suite config clock sequence sequence') {c d : Candidate Code}
    (hc : c ∈ r.candidates) (hd : d ∈ r.candidates) (hunit : c.unit = d.unit)
    (hiteration : c.iteration = d.iteration) : c.seed = d.seed := by
  obtain ⟨-, seeds, hseeds, hseed⟩ := h.candidate_eq hc
  obtain ⟨-, seeds', hseeds', hseed'⟩ := h.candidate_eq hd
  unfold iterationsOf at hseeds hseeds'
  rw [hunit, hseeds'] at hseeds
  obtain rfl := Except.ok.inj hseeds
  rw [hiteration, hseed'] at hseed
  exact (Option.some.inj hseed).symm

end MadeOf

/-- Two candidates of a suite that holds up to its checks have one name just if they are the same
iteration of the same unit, or if they clash. -/
theorem name_eq_iff {suite : Suite Code} {config : Option RunConfig} {host : Host}
    {sequence sequence' : Nat} {r : Runner Code}
    (hmake : make suite config host sequence = .ok (r, sequence')) {c d : Candidate Code}
    (hc : c ∈ r.candidates) (hd : d ∈ r.candidates) :
    c.name = d.name ↔
      (c.unit = d.unit ∧ c.iteration = d.iteration) ∨ r.Clash c d ∨ r.Clash d c := by
  obtain ⟨hviolations, checked, -, hmade⟩ := make_eq_ok hmake
  have hunits : c.unit.name = d.unit.name → c.unit = d.unit :=
    List.inj_on_of_nodup_map (Suite.nodup_names hviolations) (hmade.unit_mem hc) (hmade.unit_mem hd)
  have hfirst : (c.iteration : Int) < r.iterationsOf c := hmade.iteration_lt hc
  have hfirst' : (d.iteration : Int) < r.iterationsOf d := hmade.iteration_lt hd
  rw [(hmade.candidate_eq hc).1, (hmade.candidate_eq hd).1, DisplayName.format_eq_iff]
  constructor
  · rintro ⟨hnumbered, hseed⟩
    rcases DisplayName.cases_of_numbered_eq hnumbered with
      ⟨hunit, hiteration⟩ | ⟨hrepeated, hsingle, hunit⟩ | ⟨hrepeated, hsingle, hunit⟩
    -- A unit without an index is run once, so its iteration is the first.
    · exact .inl ⟨hunits hunit, by omega⟩
    · exact .inr (.inl ⟨hrepeated, hsingle, hunit, hseed.symm⟩)
    · exact .inr (.inr ⟨hrepeated, hsingle, hunit, hseed⟩)
  · rintro (⟨hunit, hiteration⟩ | hclash | hclash)
    · refine ⟨?_, hmade.seed_eq hc hd hunit hiteration⟩
      unfold iterationsOf
      rw [hunit, hiteration]
    · rw [DisplayName.numbered_of_repeated hclash.repeated,
        DisplayName.numbered_of_single hclash.single]
      exact ⟨hclash.unit_eq.symm, hclash.seed_eq.symm⟩
    · rw [DisplayName.numbered_of_single hclash.single,
        DisplayName.numbered_of_repeated hclash.repeated]
      exact ⟨hclash.unit_eq, hclash.seed_eq⟩

end Runner

/-- A suite with a unit that is named like an iteration of another. -/
def clashingSuite : Suite Unit where
  name := "s"
  factory := some { code := () }
  units := [
    { name := "a", body := some (), metadata := { repetition := some { iterations := 2 } } },
    { name := "a#0", body := some () }]

/-- A configuration with one seed for all units. -/
def RunConfig.pinned : RunConfig where
  seed := some "[1:2]"
  chain := [1, 2]
  seeds_eq := rfl
  iterations_pos := RunConfig.unset.iterations_pos

/-- The suite holds up to its checks, but with one seed for all units two of its candidates have one
name. -/
theorem Runner.names_clashingSuite :
    clashingSuite.violations = [] ∧
      ∃ r sequence, make clashingSuite (some .pinned) {} 0 = .ok (r, sequence) ∧
        ∃ c ∈ r.candidates, ∃ d ∈ r.candidates, c.unit.name ≠ d.unit.name ∧ c.name = d.name := by
  refine ⟨by decide +kernel, _, _, rfl, _, List.mem_cons_self, _,
    List.mem_cons_of_mem _ (List.mem_cons_of_mem _ List.mem_cons_self), ?_⟩
  decide +kernel

/-- The first iteration of one unit and the other unit clash. -/
theorem Runner.name_eq_iff_clashingSuite :
    ∃ r sequence, make clashingSuite (some .pinned) {} 0 = .ok (r, sequence) ∧
      ∃ c ∈ r.candidates, ∃ d ∈ r.candidates, c.unit.name = "a" ∧ d.unit.name = "a#0" ∧
        r.Clash c d ∧ (c.name = d.name ↔
          (c.unit = d.unit ∧ c.iteration = d.iteration) ∨ r.Clash c d ∨ r.Clash d c) := by
  obtain ⟨r, sequence, hmake, c, hc, d, hd, hfirst, hother, hclash⟩ : ∃ r sequence,
      make clashingSuite (some .pinned) {} 0 = .ok (r, sequence) ∧
        ∃ c ∈ r.candidates, ∃ d ∈ r.candidates, c.unit.name = "a" ∧ d.unit.name = "a#0" ∧
          r.Clash c d := by
    refine ⟨_, _, rfl, _, List.mem_cons_self, _,
      List.mem_cons_of_mem _ (List.mem_cons_of_mem _ List.mem_cons_self), rfl, rfl, ?_⟩
    exact ⟨by decide +kernel, by decide +kernel, by decide +kernel, by decide +kernel⟩
  exact ⟨r, sequence, hmake, c, hc, d, hd, hfirst, hother, hclash, name_eq_iff hmake hc hd⟩

end SeededTesting

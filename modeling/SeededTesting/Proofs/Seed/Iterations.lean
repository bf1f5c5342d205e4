import Mathlib.Data.List.Nodup
import Mathlib.Data.List.Range
import SeededTesting.Derivation
import SeededTesting.Proofs.Seed.Words

/-! # Seeds of iterations

The iterations of a unit start from its base seed. Unless they all share it, each has a seed of its
own: the index of an iteration is mixed into the base seed, and neither mixing nor the exclusive or
loses the index. Only more iterations than there are words would have to share a seed. A seed that
they do share is not repeated more often than a list can be long.
-/

namespace SeededTesting.Derivation

/-! ## One base seed -/

theorem iterationSeed_zero (base : Seed) : iterationSeed base 0 = base := by
  have hzero : Seed.mix (UInt64.ofNat 0) = 0 := by decide
  rw [iterationSeed, hzero, UInt64.xor_zero]

/-- Two iterations share a seed just if their indices are one word. -/
theorem iterationSeed_eq_iff {base : Seed} {i j : Nat} :
    iterationSeed base i = iterationSeed base j ↔ i % 2 ^ 64 = j % 2 ^ 64 := by
  unfold iterationSeed
  rw [UInt64.xor_right_inj, Seed.mix_injective.eq_iff, UInt64.ofNat_eq_iff_mod_eq_toNat,
    UInt64.toNat_ofNat']

theorem nodup_map_iterationSeed {base : Seed} {count : Nat} :
    ((List.range count).map (iterationSeed base)).Nodup ↔ count ≤ 2 ^ 64 := by
  constructor
  · intro hnodup
    by_contra hmany
    -- The first iteration and the one after all words have the same seed.
    have hfirst : 0 ∈ List.range count := List.mem_range.mpr (by omega)
    have hlast : 2 ^ 64 ∈ List.range count := List.mem_range.mpr (by omega)
    have hseeds : iterationSeed base 0 = iterationSeed base (2 ^ 64) :=
      iterationSeed_eq_iff.mpr (by decide)
    exact absurd (List.inj_on_of_nodup_map hnodup hfirst hlast hseeds) (by decide)
  · intro hfew
    apply List.Nodup.map_on _ List.nodup_range
    intro i hi j hj hseeds
    rw [List.mem_range] at hi hj
    rw [iterationSeed_eq_iff] at hseeds
    omega

/-! ## Units -/

/-- One seed is asked for more often than a list can be long. -/
def Overlong (d : Derivation) (declared : Metadata) (count : Nat) : Prop :=
  d.constantSeed declared = true ∧ lengthLimit ≤ count

instance (d : Derivation) (declared : Metadata) (count : Nat) :
    Decidable (d.Overlong declared count) :=
  inferInstanceAs (Decidable (_ ∧ _))

section Units

variable {d : Derivation} {unit : Text.CodePoints} {declared : Metadata}

theorem iterationSeeds_of_error {reason : DerivationError}
    (h : d.unitSeed unit declared = .error reason) (count : Nat) :
    d.iterationSeeds unit declared count = .error reason := by
  rw [iterationSeeds, h]
  rfl

variable {base : Seed} (h : d.unitSeed unit declared = .ok base) {count : Nat}

include h

theorem iterationSeeds_of_overlong (hlong : d.Overlong declared count) :
    d.iterationSeeds unit declared count = .error .tooMany := by
  have hcount : ¬count < lengthLimit := Nat.not_lt.mpr hlong.2
  rw [iterationSeeds, h]
  change (if d.constantSeed declared = true then _ else _) = _
  rw [if_pos hlong.1, if_neg hcount]
  rfl

/-- The seeds of iterations follow from the base seed of their unit. -/
theorem iterationSeeds_of_unitSeed (hshort : ¬d.Overlong declared count) :
    d.iterationSeeds unit declared count =
      .ok (if d.constantSeed declared then List.replicate count base
        else (List.range count).map (iterationSeed base)) := by
  rw [iterationSeeds, h]
  change (if d.constantSeed declared = true then _ else _) = _
  split
  next hconstant =>
    rw [if_pos (Nat.lt_of_not_le fun hcount => hshort ⟨hconstant, hcount⟩)]
    rfl
  next => rfl

end Units

/-- Seeds that there are follow from a base seed. -/
theorem exists_unitSeed_of_iterationSeeds {d : Derivation} {unit : Text.CodePoints}
    {declared : Metadata} {count : Nat} {seeds : List Seed}
    (h : d.iterationSeeds unit declared count = .ok seeds) :
    ∃ base, d.unitSeed unit declared = .ok base ∧ ¬d.Overlong declared count ∧
      seeds = if d.constantSeed declared then List.replicate count base
        else (List.range count).map (iterationSeed base) := by
  cases hbase : d.unitSeed unit declared with
  | error reason =>
      rw [iterationSeeds_of_error hbase] at h
      cases h
  | ok base =>
      by_cases hlong : d.Overlong declared count
      · rw [iterationSeeds_of_overlong hbase hlong] at h
        cases h
      · rw [iterationSeeds_of_unitSeed hbase hlong] at h
        exact ⟨base, rfl, hlong, (Except.ok.inj h).symm⟩

theorem length_iterationSeeds {d : Derivation} {unit : Text.CodePoints} {declared : Metadata}
    {count : Nat} {seeds : List Seed} (h : d.iterationSeeds unit declared count = .ok seeds) :
    seeds.length = count := by
  obtain ⟨base, -, -, rfl⟩ := exists_unitSeed_of_iterationSeeds h
  split
  · exact List.length_replicate
  · rw [List.length_map, List.length_range]

/-- Mixing takes the integers below `2 ^ 64` one to one onto themselves. A unit has the seeds of its
iterations just if it has a base seed, unless this is to be repeated more often than a list can be
long. The first of them is the base seed. Unless they are all the base seed, they differ from each
other as long as there are no more of them than words. -/
theorem nodup_iterationSeeds :
    Set.BijOn (fun k : Int => ((Seed.mix (Seed.ofInt k)).toNat : Int)) Seed.words Seed.words ∧
      ∀ (d : Derivation) (unit : Text.CodePoints) (declared : Metadata) (count : Nat),
        (∀ reason, d.unitSeed unit declared = .error reason →
          d.iterationSeeds unit declared count = .error reason) ∧
        ∀ base, d.unitSeed unit declared = .ok base →
          (d.Overlong declared count → d.iterationSeeds unit declared count = .error .tooMany) ∧
          (¬d.Overlong declared count →
            ∃ seeds, d.iterationSeeds unit declared count = .ok seeds ∧ seeds.length = count ∧
              (∀ seed ∈ seeds, seed.toNat < 2 ^ 64) ∧ (0 < count → seeds.head? = some base) ∧
              (d.constantSeed declared = false → (seeds.Nodup ↔ count ≤ 2 ^ 64)) ∧
              (d.constantSeed declared = true → ∀ seed ∈ seeds, seed = base)) := by
  refine ⟨Seed.bijOn_mix, fun d unit declared count =>
    ⟨fun reason hreason => iterationSeeds_of_error hreason count, fun base hbase =>
      ⟨iterationSeeds_of_overlong hbase, fun hshort => ?_⟩⟩⟩
  have hseeds := iterationSeeds_of_unitSeed hbase hshort
  refine ⟨_, hseeds, length_iterationSeeds hseeds, fun seed _ => seed.toNat_lt, ?_, ?_, ?_⟩
  · intro hcount
    obtain ⟨rest, rfl⟩ := Nat.exists_eq_add_of_lt hcount
    split
    · rfl
    · rw [Nat.zero_add, List.range_succ_eq_map, List.map_cons, iterationSeed_zero, List.head?_cons]
  · intro hchanging
    rw [hchanging, if_neg Bool.false_ne_true]
    exact nodup_map_iterationSeed
  · intro hconstant seed hseed
    rw [if_pos hconstant] at hseed
    exact List.eq_of_mem_replicate hseed

/-- A unit of a suite that fixes its base seed, run with changing seeds and with one seed. -/
theorem nodup_iterationSeeds_fixed :
    let d : Derivation := ⟨{ seed := some "[C0FFEE:7]" }, 0xC0FFEE, none⟩
    let constant : Metadata := { repetition := some ⟨3, true⟩ }
    d.unitSeed "walks" {} = .ok 7 ∧ d.constantSeed {} = false ∧ d.constantSeed constant = true ∧
      (∃ seeds, d.iterationSeeds "walks" {} 3 = .ok seeds ∧ seeds.head? = some 7 ∧ seeds.Nodup) ∧
      (∃ seeds, d.iterationSeeds "walks" constant 3 = .ok seeds ∧ ∀ seed ∈ seeds, seed = 7) ∧
      d.iterationSeeds "walks" constant (2 ^ 63) = .error .tooMany := by
  intro d constant
  have hbase : d.unitSeed "walks" {} = .ok 7 := by decide +kernel
  have hbase' : d.unitSeed "walks" constant = .ok 7 := by decide +kernel
  obtain ⟨seeds, hseeds, -, -, hfirst, hnodup, -⟩ :=
    ((nodup_iterationSeeds.2 d "walks" {} 3).2 7 hbase).2 (by decide)
  obtain ⟨seeds', hseeds', -, -, -, -, hsame⟩ :=
    ((nodup_iterationSeeds.2 d "walks" constant 3).2 7 hbase').2 (by decide)
  exact ⟨hbase, rfl, rfl, ⟨seeds, hseeds, hfirst (by decide), (hnodup rfl).mpr (by decide)⟩,
    ⟨seeds', hseeds', hsame rfl⟩,
    ((nodup_iterationSeeds.2 d "walks" constant (2 ^ 63)).2 7 hbase').1 (by decide)⟩

end SeededTesting.Derivation

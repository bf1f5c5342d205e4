import Mathlib.Data.Int.ModEq
import Mathlib.Data.Set.Function
import SeededTesting.Seed.Basic

/-! # Seeds as words

Two integers stand for one seed just if they are congruent modulo `2 ^ 64`. Mixing loses nothing of
a word: a fold undoes itself and an odd factor has an inverse, so every word is mixed from exactly
one word.
-/

namespace SeededTesting.Seed

/-! ## Residues -/

theorem toNat_ofInt (n : Int) : ((ofInt n).toNat : Int) = n % 2 ^ 64 := by
  have hnonneg : 0 ≤ n % 2 ^ 64 := Int.emod_nonneg n (by decide)
  have hlt : (n % 2 ^ 64).toNat < UInt64.size := by
    simp only [UInt64.size]
    omega
  rw [ofInt, UInt64.ofInt, UInt64.toNat_ofNat_of_lt' hlt, Int.toNat_of_nonneg hnonneg]

/-- Integers stand for one seed just if they differ by a multiple of `2 ^ 64`. -/
theorem ofInt_eq_ofInt_iff {m n : Int} : ofInt m = ofInt n ↔ m ≡ n [ZMOD 2 ^ 64] := by
  rw [← UInt64.toNat_inj, ← Int.natCast_inj, toNat_ofInt, toNat_ofInt]
  rfl

theorem ofInt_toNat (seed : Seed) : ofInt seed.toNat = seed := by
  apply UInt64.toNat_inj.mp
  have hsize : seed.toNat < 2 ^ 64 := seed.toNat_lt
  have hresidue := toNat_ofInt seed.toNat
  omega

/-! ## Mixing -/

theorem fold_fold (k : Seed) : fold (fold k) = k := by
  have hshifted : k >>> 33 >>> 33 = 0 := by
    -- Two shifts are wider than the word.
    apply UInt64.toNat_inj.mp
    have hsize := k.toNat_lt
    simp only [UInt64.toNat_shiftRight, Nat.shiftRight_eq_div_pow, UInt64.reduceToNat,
      Nat.reduceMod, Nat.reducePow]
    omega
  unfold fold
  rw [UInt64.shiftRight_xor, hshifted, UInt64.xor_zero, UInt64.xor_assoc, UInt64.xor_self,
    UInt64.xor_zero]

/-- What a word is mixed from: the folds again, between the inverses of the two factors. -/
def unmix (k : Seed) : Seed :=
  fold (fold (fold k * 0x9CB4B2F8129337DB) * 0x4F74430C22A54005)

theorem mul_mul_cancel {factor inverse : Seed} (h : factor * inverse = 1) (k : Seed) :
    k * factor * inverse = k := by
  rw [UInt64.mul_assoc, h, UInt64.mul_one]

theorem unmix_mix (k : Seed) : unmix (mix k) = k := by
  unfold unmix mix
  rw [fold_fold, mul_mul_cancel (by decide), fold_fold, mul_mul_cancel (by decide), fold_fold]

theorem mix_unmix (k : Seed) : mix (unmix k) = k := by
  unfold unmix mix
  rw [fold_fold, mul_mul_cancel (by decide), fold_fold, mul_mul_cancel (by decide), fold_fold]

theorem mix_injective : Function.Injective mix :=
  Function.LeftInverse.injective unmix_mix

/-- The integers that are words. -/
def words : Set Int :=
  {k | 0 ≤ k ∧ k < 2 ^ 64}

theorem toNat_mem_words (seed : Seed) : (seed.toNat : Int) ∈ words := by
  have hsize := seed.toNat_lt
  constructor <;> omega

theorem toNat_ofInt_of_mem_words {k : Int} (h : k ∈ words) : ((ofInt k).toNat : Int) = k := by
  rw [toNat_ofInt, Int.emod_eq_of_lt h.1 h.2]

/-- Mixing takes the integers below `2 ^ 64` one to one onto themselves. -/
theorem bijOn_mix : Set.BijOn (fun k : Int => ((mix (ofInt k)).toNat : Int)) words words := by
  have hinv : Set.InvOn (fun k : Int => ((unmix (ofInt k)).toNat : Int))
      (fun k : Int => ((mix (ofInt k)).toNat : Int)) words words := by
    constructor
    · intro k hk
      dsimp only
      rw [ofInt_toNat, unmix_mix, toNat_ofInt_of_mem_words hk]
    · intro k hk
      dsimp only
      rw [ofInt_toNat, mix_unmix, toNat_ofInt_of_mem_words hk]
  exact hinv.bijOn (fun _ _ => toNat_mem_words _) (fun _ _ => toNat_mem_words _)

end SeededTesting.Seed

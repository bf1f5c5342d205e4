import Mathlib.Data.List.Perm.Basic
import SeededTesting.HookOrder

/-! # What the order of hooks keeps

Shuffling changes the places of entries and nothing else, so the hooks that are called for a phase
are the hooks that the levels have for it.
-/

namespace SeededTesting

variable {α Code : Type}

theorem Twister.shuffleUpTo_perm (last : Nat) (entries : Array α) (t : Twister) :
    (shuffleUpTo last entries t).1.Perm entries := by
  induction last generalizing entries t with
  | zero => exact .refl entries
  | succ last ih =>
      rw [shuffleUpTo]
      generalize t.below (last + 2) = drawn
      refine (ih _ drawn.2).trans ?_
      unfold Array.swapIfInBounds
      split
      · split
        · exact Array.swap_perm _ _
        · exact .refl entries
      · exact .refl entries

theorem Twister.shuffle_perm (t : Twister) (entries : List α) :
    (t.shuffle entries).1.Perm entries := by
  have h := shuffleUpTo_perm (entries.length - 1) entries.toArray t
  rw [Array.perm_iff_toList_perm] at h
  exact h

/-- Shuffled groups are the groups, each in an order of its own. -/
theorem shuffleGroups_perm (groups : List (List α)) (t : Twister) :
    List.Forall₂ List.Perm (shuffleGroups groups t).1 groups := by
  induction groups generalizing t with
  | nil => exact .nil
  | cons group groups ih => exact .cons (t.shuffle_perm group) (ih _)

/-- The hooks that are called for a phase are those of all levels, each as often as it is there. -/
theorem resolveHooks_perm (levels : List (Level Code)) (phase : Phase) (t : Twister) :
    (resolveHooks levels phase t).1.Perm (levels.flatMap (·.hooks phase)) := by
  have hshuffled : (resolveHooks levels phase t).1.Perm (hookGroups levels phase).flatten :=
    .flatten_congr (shuffleGroups_perm _ _)
  have hgroups : (hookGroups levels phase).flatten.Perm
      (levels.map (·.sortedHooks phase)).flatten := by
    unfold hookGroups
    split
    · exact (List.reverse_perm _).flatten
    · exact .refl _
  refine hshuffled.trans (hgroups.trans ?_)
  rw [← List.flatMap_def]
  exact .flatMap_left _ fun level _ => List.mergeSort_perm _ _

theorem hooksFor_perm (levels : List (Level Code)) (phase : Phase) (active : Int) :
    (hooksFor levels phase active).Perm (levels.flatMap (·.hooks phase)) :=
  resolveHooks_perm levels phase _

/-- Only hooks of the levels are called. -/
theorem mem_hooksFor {levels : List (Level Code)} {phase : Phase} {active : Int}
    {hook : Hook Code} (h : hook ∈ hooksFor levels phase active) :
    ∃ level ∈ levels, hook ∈ level.hooks phase :=
  List.mem_flatMap.mp ((hooksFor_perm levels phase active).mem_iff.mp h)

end SeededTesting

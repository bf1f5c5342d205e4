import Mathlib.Data.List.Range
import Mathlib.Order.Basic
import SeededTesting.Proofs.Run.Overrides
import SeededTesting.Proofs.Seed.Words
import SeededTesting.Run.Sequence

/-! # Sequence numbers and master seeds of a process

The steps of a process go on after one that fails. Each that needs a number uses up the next one and
no other step does, so the master seeds of derivations that nothing fixes are mixed from different
numbers. Two of them are equal just if number and clock add up to the same word, which a clock that
does not go back rules out.
-/

namespace SeededTesting

/-! ## Derivations -/

/-- A configuration fixes a master seed just if a seed is set. -/
theorem RunConfig.masterSeed_eq_none_iff (config : RunConfig) :
    config.masterSeed = none ↔ config.seed = none := by
  have hseeds := config.seeds_eq
  unfold Settings.seeds at hseeds
  rw [masterSeed, List.getElem?_eq_none_iff, Nat.le_zero, List.length_eq_zero_iff]
  cases hseed : config.seed with
  | none =>
      rw [hseed] at hseeds
      simp [Except.ok.inj hseeds.symm]
  | some text =>
      rw [hseed] at hseeds
      dsimp only at hseeds
      split at hseeds
      next => cases hseeds
      next chain hparse =>
        split at hseeds
        next => cases hseeds
        next hcount =>
          rw [Bool.or_eq_true, not_or, List.isEmpty_iff] at hcount
          rw [← Except.ok.inj hseeds]
          exact iff_of_false hcount.1 (Option.some_ne_none text)

/-- Settings that hold up are kept. -/
theorem Settings.toSettings_of_check {s : Settings} {config : RunConfig}
    (h : s.check = .ok config) : config.toSettings = s := by
  unfold check at h
  split at h
  · cases h
  · split at h
    · cases h
      rfl
    · split at h
      · cases h
      · cases h
        rfl

namespace Derivation

variable {metadata : Metadata} {config : RunConfig} {sequence : Nat} {clock : Int}

/-- Where neither the configuration nor the suite has a seed, the next number is used up. -/
theorem start_of_unset (hconfig : config.seed = none) (hmetadata : metadata.seed = none) :
    start metadata config sequence clock =
      .ok (⟨metadata, fallbackSeed sequence clock, config.unitSeed⟩, sequence + 1) := by
  rw [start, config.masterSeed_eq_none_iff.mpr hconfig, hmetadata]

/-- Where either has one, no number is used up. -/
theorem next_of_start {d : Derivation} {next : Nat}
    (h : start metadata config sequence clock = .ok (d, next))
    (hset : ¬ (config.seed = none ∧ metadata.seed = none)) : next = sequence := by
  unfold start at h
  split at h
  · cases h
    rfl
  · obtain ⟨master, -, h⟩ := exists_of_bind_eq_ok h
    cases h
    rfl
  next hconfig hmetadata =>
    exact absurd ⟨config.masterSeed_eq_none_iff.mp hconfig, hmetadata⟩ hset

theorem fallbackSeed_eq_iff {sequence sequence' : Nat} {clock clock' : Int} :
    fallbackSeed sequence clock = fallbackSeed sequence' clock' ↔
      sequence + clock ≡ sequence' + clock' [ZMOD 2 ^ 64] := by
  unfold fallbackSeed
  rw [Seed.mix_injective.eq_iff, Seed.ofInt_eq_ofInt_iff]
  rfl

end Derivation

/-! ## Turns -/

/-- A step that was performed: the sequence number that it found, what came of it, and the number
that it left for the next one. -/
structure Turn where
  step : SequenceStep
  found : Nat
  outcome : Except SetupError SequenceAnswer
  left : Nat

namespace SequenceStep

/-- Performs a step in its turn. One that fails leaves the number that it found. -/
def turn (step : SequenceStep) (sequence : Nat) : Turn :=
  match step.perform sequence with
  | .ok (answer, following) => ⟨step, sequence, .ok answer, following⟩
  | .error reason => ⟨step, sequence, .error reason, sequence⟩

/-- The turns of a process, from the sequence number that it starts with. -/
def turns : (sequence : Nat) → List SequenceStep → List Turn
  | _, [] => []
  | sequence, step :: rest => step.turn sequence :: turns (step.turn sequence).left rest

/-- A derivation with settings that hold up, whose master seed neither they nor the suite fix. -/
def fallsBack : SequenceStep → Bool
  | .next => false
  | .derive metadata settings _ =>
    metadata.seed.isNone && settings.seed.isNone && settings.check.isOk

/-- The steps that use up a sequence number. -/
def usesNumber : SequenceStep → Bool
  | .next => true
  | step => step.fallsBack

/-- What the clock says when a derivation asks it. -/
def clock : SequenceStep → Int
  | .next => 0
  | .derive _ _ clock => clock

/-- A derivation that falls back gives a master seed and uses up the number that it finds. -/
theorem turn_of_fallsBack {step : SequenceStep} (h : step.fallsBack = true) (sequence : Nat) :
    step.turn sequence =
      ⟨step, sequence, .ok (.master (Derivation.fallbackSeed sequence step.clock)),
        sequence + 1⟩ := by
  cases step with
  | next => cases h
  | derive metadata settings clock =>
      simp only [fallsBack, Bool.and_eq_true, Option.isNone_iff_eq_none] at h
      obtain ⟨⟨hmetadata, hsettings⟩, hok⟩ := h
      cases hcheck : settings.check with
      | error reason =>
          rw [hcheck] at hok
          cases hok
      | ok config =>
          have hconfig : config.seed = none := by
            rw [Settings.toSettings_of_check hcheck, hsettings]
          have hperform : perform sequence (.derive metadata settings clock) =
              .ok (.master (Derivation.fallbackSeed sequence clock), sequence + 1) := by
            rw [perform, hcheck]
            change ((Derivation.start metadata config sequence clock).mapError _ >>= _) = _
            rw [Derivation.start_of_unset hconfig hmetadata]
            rfl
          rw [turn, hperform]
          rfl

/-- Whether it fails or not, every other derivation leaves the number that it finds. -/
theorem left_turn_of_not_usesNumber {step : SequenceStep} (h : step.usesNumber = false)
    (sequence : Nat) : (step.turn sequence).left = sequence := by
  cases step with
  | next => cases h
  | derive metadata settings clock =>
      cases hperform : perform sequence (.derive metadata settings clock) with
      | error reason => rw [turn, hperform]
      | ok performed =>
          obtain ⟨config, hcheck, hstarted⟩ := exists_of_bind_eq_ok hperform
          obtain ⟨⟨d, following⟩, hstart, hanswer⟩ := exists_of_bind_eq_ok hstarted
          rw [mapError_eq_ok_iff] at hcheck hstart
          cases hanswer
          -- With neither seed a derivation that succeeds would have fallen back.
          have hset : ¬ (config.seed = none ∧ metadata.seed = none) := by
            rintro ⟨hconfig, hmetadata⟩
            rw [Settings.toSettings_of_check hcheck] at hconfig
            rw [usesNumber, fallsBack, hconfig, hmetadata, hcheck] at h
            · cases h
            · exact nofun
          rw [turn, hperform, Derivation.next_of_start hstart hset]

theorem left_turn (step : SequenceStep) (sequence : Nat) :
    (step.turn sequence).left = if step.usesNumber then sequence + 1 else sequence := by
  split
  next huses =>
    cases step with
    | next => rfl
    | derive metadata settings clock =>
        have hfalls : (derive metadata settings clock).fallsBack = true := huses
        rw [turn_of_fallsBack hfalls]
  next huses => exact left_turn_of_not_usesNumber (Bool.not_eq_true _ ▸ huses) sequence

theorem step_turn (step : SequenceStep) (sequence : Nat) : (step.turn sequence).step = step := by
  unfold turn
  split <;> rfl

theorem found_turn (step : SequenceStep) (sequence : Nat) :
    (step.turn sequence).found = sequence := by
  unfold turn
  split <;> rfl

end SequenceStep

/-! ## Series of steps -/

/-- What the master seed of a derivation is mixed from. -/
def Turn.stamp (turn : Turn) : Int :=
  turn.found + turn.step.clock

namespace SequenceStep

/-- The turns of derivations that fall back. -/
def fallbacks (sequence : Nat) (steps : List SequenceStep) : List Turn :=
  (turns sequence steps).filter (·.step.fallsBack)

/-- Every turn of a process is that of one of its steps, at some number. -/
theorem exists_turn_of_mem {sequence : Nat} {steps : List SequenceStep} {turn : Turn}
    (h : turn ∈ turns sequence steps) : turn = turn.step.turn turn.found := by
  induction steps generalizing sequence with
  | nil => cases h
  | cons step rest ih =>
      rcases List.mem_cons.mp h with rfl | hrest
      · rw [step_turn, found_turn]
      · exact ih hrest

/-- A process that stops at the first failure takes the same turns up to there. -/
theorem performAll_eq_mapM (sequence : Nat) (steps : List SequenceStep) :
    performAll sequence steps = (turns sequence steps).mapM Turn.outcome := by
  induction steps generalizing sequence with
  | nil => rfl
  | cons step rest ih =>
      rw [performAll, turns, List.mapM_cons]
      cases hperform : step.perform sequence with
      | error reason =>
          rw [turn, hperform]
          rfl
      | ok performed =>
          obtain ⟨answer, following⟩ := performed
          rw [turn, hperform]
          change ((performAll following rest).bind _) = _
          rw [ih]
          rfl

theorem steps_turns (sequence : Nat) (steps : List SequenceStep) :
    (turns sequence steps).map (·.step) = steps := by
  induction steps generalizing sequence with
  | nil => rfl
  | cons step rest ih => rw [turns, List.map_cons, step_turn, ih]

/-- The numbers that are used up follow each other without a gap. -/
theorem numbers_turns (sequence : Nat) (steps : List SequenceStep) :
    ((turns sequence steps).filter (·.step.usesNumber)).map (·.found) =
      List.range' sequence (steps.countP usesNumber) := by
  induction steps generalizing sequence with
  | nil => rfl
  | cons step rest ih =>
      rw [turns, List.filter_cons, step_turn, left_turn]
      by_cases huses : step.usesNumber = true
      · rw [if_pos huses, if_pos huses, List.map_cons, found_turn, ih,
          List.countP_cons_of_pos huses, List.range'_succ]
      · rw [if_neg huses, if_neg huses, ih, List.countP_cons_of_neg huses]

theorem usesNumber_of_fallsBack {step : SequenceStep} (h : step.fallsBack = true) :
    step.usesNumber = true := by
  cases step with
  | next => rfl
  | derive metadata settings clock => exact h

/-- No two derivations find the same number. -/
theorem pairwise_found_fallbacks (sequence : Nat) (steps : List SequenceStep) :
    (fallbacks sequence steps).Pairwise fun a b => a.found < b.found := by
  -- They are among the steps that use up a number, and those find consecutive numbers.
  have hnumbers : ((turns sequence steps).filter (·.step.usesNumber)).Pairwise
      fun a b => a.found < b.found := by
    rw [← List.pairwise_map, numbers_turns]
    exact List.pairwise_lt_range'
  exact hnumbers.sublist
    (List.monotone_filter_right _ fun _ hfalls => usesNumber_of_fallsBack hfalls)

theorem outcome_of_mem_fallbacks {sequence : Nat} {steps : List SequenceStep} {turn : Turn}
    (h : turn ∈ fallbacks sequence steps) :
    turn.outcome = .ok (.master (Derivation.fallbackSeed turn.found turn.step.clock)) := by
  obtain ⟨hmem, hfalls⟩ := List.mem_filter.mp h
  have hturn := exists_turn_of_mem hmem
  rw [turn_of_fallsBack hfalls] at hturn
  rw [hturn]

/-- Two derivations have one master seed just if their stamps are one word. -/
theorem outcome_eq_iff {sequence : Nat} {steps : List SequenceStep} {a b : Turn}
    (ha : a ∈ fallbacks sequence steps) (hb : b ∈ fallbacks sequence steps) :
    a.outcome = b.outcome ↔ a.stamp ≡ b.stamp [ZMOD 2 ^ 64] := by
  rw [outcome_of_mem_fallbacks ha, outcome_of_mem_fallbacks hb, Except.ok.injEq,
    SequenceAnswer.master.injEq]
  exact Derivation.fallbackSeed_eq_iff

/-- The steps of a process answer one after another, and one that fails does not stop the others. A
call for the next number gives it and uses it up, a derivation does so just if nothing fixes its
master seed, and the numbers that are used up are those from the first on, in order. Two
derivations that use up a number have one master seed just if number and clock add up to the same
word; so they all differ if the clock does not go back and the sums stay within less than
`2 ^ 64` of each other. -/
theorem fallbacks_distinct (sequence : Nat) (steps : List SequenceStep) :
    performAll sequence steps = (turns sequence steps).mapM Turn.outcome ∧
      (turns sequence steps).map (·.step) = steps ∧
      ((turns sequence steps).filter (·.step.usesNumber)).map (·.found) =
        List.range' sequence (steps.countP usesNumber) ∧
      (∀ turn ∈ turns sequence steps,
        turn.left = if turn.step.usesNumber then turn.found + 1 else turn.found) ∧
      (∀ turn ∈ turns sequence steps, turn.step = .next →
        turn.outcome = .ok (.number turn.found)) ∧
      (∀ turn ∈ fallbacks sequence steps, ∃ seed, turn.outcome = .ok (.master seed)) ∧
      (∀ a ∈ fallbacks sequence steps, ∀ b ∈ fallbacks sequence steps,
        (a.outcome = b.outcome ↔ a.stamp ≡ b.stamp [ZMOD 2 ^ 64])) ∧
      ((fallbacks sequence steps).Pairwise (fun a b => a.step.clock ≤ b.step.clock) →
        (∀ a ∈ fallbacks sequence steps, ∀ b ∈ fallbacks sequence steps,
          b.stamp - a.stamp < 2 ^ 64) →
        ((fallbacks sequence steps).map (·.outcome)).Nodup) := by
  refine ⟨performAll_eq_mapM sequence steps, steps_turns sequence steps,
    numbers_turns sequence steps, ?_, ?_, fun turn h => ⟨_, outcome_of_mem_fallbacks h⟩,
    fun a ha b hb => outcome_eq_iff ha hb, ?_⟩
  · intro turn hturn
    have hleft := left_turn turn.step turn.found
    rwa [← exists_turn_of_mem hturn] at hleft
  · intro turn hturn hnext
    have heq := exists_turn_of_mem hturn
    rw [hnext] at heq
    rw [heq]
    rfl
  · intro hclock hrange
    rw [List.Nodup, List.pairwise_map]
    refine ((pairwise_found_fallbacks sequence steps).and hclock).imp_of_mem ?_
    rintro a b ha hb ⟨hfound, hclock⟩ heq
    have hwithin := hrange a ha b hb
    have hword := (outcome_eq_iff ha hb).mp heq
    -- Later stamps are larger, but not by as much as a word.
    unfold Turn.stamp Int.ModEq at *
    omega

/-- Steps under a clock that stands still: calls for a number around derivations that fall back,
have a seed of their suite or a configured one, or fail on a seed that cannot be read. -/
def mingled : List SequenceStep := [
  .next,
  .derive {} {} 1000,
  .derive { seed := some "[BEEF:1]" } {} 1000,
  .derive { seed := some "BEE F" } {} 1000,
  .derive {} { iterations := some 2 } 1000,
  .derive {} { seed := some "[7]" } 1000,
  .derive {} {} 1000,
  .next]

/-- Under a clock that stands still the derivations that fall back use up different numbers and have
different master seeds. -/
theorem fallbacks_distinct_mingled :
    (fallbacks 5 mingled).Pairwise (fun a b => a.step.clock ≤ b.step.clock) ∧
      (∀ a ∈ fallbacks 5 mingled, ∀ b ∈ fallbacks 5 mingled, b.stamp - a.stamp < 2 ^ 64) ∧
      ((turns 5 mingled).filter (·.step.usesNumber)).map (·.found) = [5, 6, 7, 8, 9] ∧
      (fallbacks 5 mingled).length = 3 ∧
      ((fallbacks 5 mingled).map (·.outcome)).Nodup := by
  have hstamps : (fallbacks 5 mingled).map Turn.stamp = [1006, 1007, 1008] := by decide +kernel
  have hmem : ∀ a ∈ fallbacks 5 mingled, a.stamp ∈ [1006, 1007, 1008] :=
    fun a ha => hstamps ▸ List.mem_map_of_mem ha
  have hclock : (fallbacks 5 mingled).Pairwise (fun a b => a.step.clock ≤ b.step.clock) := by
    decide +kernel
  have hrange : ∀ a ∈ fallbacks 5 mingled, ∀ b ∈ fallbacks 5 mingled,
      b.stamp - a.stamp < 2 ^ 64 := by
    intro a ha b hb
    have hfirst := hmem a ha
    have hsecond := hmem b hb
    simp only [List.mem_cons, List.not_mem_nil, or_false] at hfirst hsecond
    omega
  obtain ⟨-, -, hnumbers, -, -, -, -, hdistinct⟩ := fallbacks_distinct 5 mingled
  exact ⟨hclock, hrange, hnumbers, by decide +kernel, hdistinct hclock hrange⟩

end SequenceStep

end SeededTesting

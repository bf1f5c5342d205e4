import SeededTesting.Proofs.Seed.RoundTrip
import SeededTesting.Text.Markup

/-! # Texts without tags

A text that is escaped has no tags, whatever it holds. Neither has one without an opening bracket,
nor one that ends in a chain of seeds: their digits are written in upper case, and no tag begins
with one of them.
-/

namespace SeededTesting.Text.Markup

theorem tagsFrom_of_not_mem {text : List Char} (h : '[' ∉ text) (position backslashes : Nat) :
    tagsFrom position backslashes text = [] := by
  induction text generalizing position backslashes with
  | nil => rfl
  | cons c rest ih =>
      rw [List.mem_cons, not_or] at h
      have hopens : ¬(decide (c = '[') && opensTag rest && backslashes % 2 == 0) = true := by
        simp [Ne.symm h.1]
      rw [tagsFrom, if_neg hopens]
      split
      · exact ih h.2 _ _
      · exact ih h.2 _ _

theorem tags_of_not_mem {s : String} (h : '[' ∉ s.toList) : tags s = [] :=
  tagsFrom_of_not_mem h 0 0

/-- The tags of a text that stands further on are further on. -/
theorem tagsFrom_add (position backslashes k : Nat) (text : List Char) :
    tagsFrom (position + k) backslashes text =
      (tagsFrom position backslashes text).map fun (i, tag) => (i + k, tag) := by
  induction text generalizing position backslashes with
  | nil => rfl
  | cons c rest ih =>
      rw [tagsFrom, tagsFrom, Nat.add_right_comm]
      split
      · exact ih _ _
      · split
        · rw [List.map_cons, ih]
        · exact ih _ _

/-- Characters that are no marks are passed over. -/
theorem tagsFrom_append {front : List Char} (h : ∀ c ∈ front, c ≠ '[' ∧ c ≠ '\\')
    (position : Nat) (text : List Char) :
    tagsFrom position 0 (front ++ text) = tagsFrom (position + front.length) 0 text := by
  induction front generalizing position with
  | nil => rfl
  | cons c rest ih =>
      rw [List.forall_mem_cons] at h
      rw [List.cons_append, tagsFrom, if_neg h.1.2, if_neg (by simp [h.1.1]), ih h.2,
        List.length_cons, Nat.add_right_comm, Nat.add_assoc]

/-! ## Escaped texts -/

theorem tagsFrom_replicate (position backslashes n : Nat) (text : List Char) :
    tagsFrom position backslashes (List.replicate n '\\' ++ text) =
      tagsFrom (position + n) (backslashes + n) text := by
  induction n generalizing position backslashes with
  | zero => rfl
  | succ n ih =>
      rw [List.replicate_succ, List.cons_append, tagsFrom, if_pos rfl, ih, Nat.add_right_comm,
        Nat.add_right_comm backslashes]
      rfl

theorem closes_replicate (n : Nat) (text : List Char) :
    closes (List.replicate n '\\' ++ text) = closes text := by
  induction n with
  | zero => rfl
  | succ n ih =>
      rw [List.replicate_succ, List.cons_append, closes, ih]
      rfl

/-- Backslashes do not matter for what closes a tag. -/
theorem closes_escapeAfter (backslashes : Nat) (text : List Char) :
    closes (escapeAfter backslashes text) = closes text := by
  induction text generalizing backslashes with
  | nil =>
      rw [escapeAfter, ← List.append_nil (List.replicate _ _), closes_replicate]
  | cons c rest ih =>
      rw [escapeAfter]
      split
      next hc =>
        rw [ih, hc]
        rfl
      next =>
        split
        · rw [closes_replicate, closes, closes, ih]
        · rw [closes_replicate, closes, closes, ih]

/-- Backslashes that are due are written before anything else. -/
theorem exists_escapeAfter_succ (backslashes : Nat) (text : List Char) :
    ∃ rest, escapeAfter (backslashes + 1) text = '\\' :: rest := by
  induction text generalizing backslashes with
  | nil => exact ⟨_, rfl⟩
  | cons c rest ih =>
      rw [escapeAfter]
      split
      · exact ih (backslashes + 1)
      · split
        · exact ⟨_, rfl⟩
        · exact ⟨_, rfl⟩

theorem opensTag_escapeAfter (text : List Char) :
    opensTag (escapeAfter 0 text) = opensTag text := by
  cases text with
  | nil => rfl
  | cons c rest =>
      rw [escapeAfter]
      split
      next hc =>
        obtain ⟨rest', hrest'⟩ := exists_escapeAfter_succ 0 rest
        rw [hrest', hc]
        rfl
      next =>
        split
        next hopens =>
          -- Neither a backslash nor a bracket begins a tag.
          rw [Bool.and_eq_true, decide_eq_true_iff] at hopens
          rw [hopens.1]
          rfl
        next =>
          rw [List.replicate_zero, List.nil_append, opensTag, opensTag, closes_escapeAfter]

/-- An escaped text has no tags: what would open one has an odd number of backslashes before it. -/
theorem tagsFrom_escapeAfter (position backslashes : Nat) (text : List Char) :
    tagsFrom position 0 (escapeAfter backslashes text) = [] := by
  induction text generalizing position backslashes with
  | nil =>
      refine tagsFrom_of_not_mem (fun h => ?_) _ _
      exact absurd (List.eq_of_mem_replicate h) (by decide)
  | cons c rest ih =>
      rw [escapeAfter]
      split
      next => exact ih _ _
      next hc =>
        split
        next =>
          have hodd : ((0 + (2 * backslashes + 1)) % 2 == 0) = false := by
            rw [beq_eq_false_iff_ne]
            omega
          rw [tagsFrom_replicate, tagsFrom, if_neg hc, hodd, Bool.and_false,
            if_neg Bool.false_ne_true, ih]
        next hopens =>
          have hnone : (decide (c = '[') && opensTag rest) = false := Bool.eq_false_iff.mpr hopens
          rw [tagsFrom_replicate, tagsFrom, if_neg hc, opensTag_escapeAfter, hnone,
            Bool.false_and, if_neg Bool.false_ne_true, ih]

theorem tags_escape (s : String) : tags (escape s) = [] := by
  rw [tags, escape, String.toList_ofList]
  exact tagsFrom_escapeAfter 0 0 s.toList

/-! ## Chains -/

theorem startsTag_of_mem_digits {n : Nat} {c : Char} (h : c ∈ Hex.digits n) :
    startsTag c = false := by
  have hdigit : ∀ value < 16, startsTag (Hex.digit value) = false := by decide
  rw [Hex.digits_eq_map] at h
  obtain ⟨value, hvalue, rfl⟩ := List.mem_map.mp h
  exact hdigit value (Hex.values_lt hvalue)

theorem opensTag_inner (seeds : List Seed) (rest : List Char) :
    opensTag (SeedChain.inner seeds ++ ']' :: rest) = false := by
  cases hinner : SeedChain.inner seeds with
  | nil => rfl
  | cons c _ =>
      have hstarts : startsTag c = false := by
        have hmem : c ∈ SeedChain.inner seeds := hinner ▸ List.mem_cons_self
        rcases SeedChain.eq_or_exists_of_mem_inner hmem with rfl | ⟨n, hn⟩
        · decide
        · exact startsTag_of_mem_digits hn
      rw [List.cons_append, opensTag, hstarts, Bool.false_and]

/-- A chain after a text without marks is no tag. -/
theorem tags_append_format {front : String} (h : ∀ c ∈ front.toList, c ≠ '[' ∧ c ≠ '\\')
    (seeds : List Seed) : tags (front ++ SeedChain.format seeds) = [] := by
  have hrest : '[' ∉ SeedChain.inner seeds ++ [']'] := by
    simp [(SeedChain.bracket_not_mem_inner seeds).1]
  rw [tags, String.toList_append, SeedChain.toList_format, tagsFrom_append h, tagsFrom,
    if_neg (by decide), opensTag_inner, Bool.and_false, Bool.false_and, if_neg Bool.false_ne_true]
  exact tagsFrom_of_not_mem hrest _ _

end SeededTesting.Text.Markup

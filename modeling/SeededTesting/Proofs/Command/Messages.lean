import SeededTesting.Command.Answer
import SeededTesting.Proofs.Outcomes
import SeededTesting.Proofs.Text.Markup

/-! # Brackets in messages

The message about a refused plan quotes what was asked for. None of its own words has an opening
bracket, so there is none in it unless there is one in the seed, in the name of the suite or in that
of a unit.
-/

namespace SeededTesting

open Text

/-! ## Texts -/

/-- A text has no opening bracket. -/
def Unbracketed (s : String) : Prop :=
  '[' ∉ s.toList

instance (s : String) : Decidable (Unbracketed s) :=
  inferInstanceAs (Decidable (_ ∉ _))

theorem unbracketed_append {s t : String} :
    Unbracketed (s ++ t) ↔ Unbracketed s ∧ Unbracketed t := by
  unfold Unbracketed
  rw [String.toList_append, List.mem_append, not_or]

theorem unbracketed_toString (n : Int) : Unbracketed (toString n) := by
  have hdigits : ∀ m : Nat, '[' ∉ Nat.toDigits 10 m := fun m hmem =>
    (Integer.plain_of_mem_toDigits hmem).unmarked (by decide)
  unfold Unbracketed
  rw [Int.toString_eq_repr, Int.repr_eq_if]
  split
  · simpa using hdigits _
  · simpa using hdigits _

theorem unbracketed_intercalate {separator : String} {parts : List String}
    (hseparator : Unbracketed separator) (hparts : ∀ part ∈ parts, Unbracketed part) :
    Unbracketed (String.intercalate separator parts) := by
  intro hmem
  rw [String.toList_intercalate] at hmem
  rcases mem_or_exists_of_mem_intercalate hmem with h | ⟨part, hpart, h⟩
  · exact hseparator h
  · obtain ⟨s, hs, rfl⟩ := List.mem_map.mp hpart
    exact hparts s hs h

theorem bracket_not_mem_padded (width n : Nat) : '[' ∉ Hex.padded width n := by
  have hlower : ∀ value < 16, (Hex.digit value).toLower ≠ '[' := by decide
  intro hmem
  rcases List.mem_append.mp hmem with h | h
  · exact absurd (List.eq_of_mem_replicate h) (by decide)
  · obtain ⟨c, hc, heq⟩ := List.mem_map.mp h
    rw [Hex.digits_eq_map] at hc
    obtain ⟨value, hvalue, rfl⟩ := List.mem_map.mp hc
    exact hlower value (Hex.values_lt hvalue) heq

/-- An escape has letters and digits after its backslash. -/
theorem bracket_not_mem_escapeCode (c : Char) : '[' ∉ escapeCode c := by
  have hcode : ∀ (letter : Char) (width : Nat), letter ≠ '[' →
      '[' ∉ '\\' :: letter :: Hex.padded width c.toNat := by
    intro letter width hletter
    simp [Ne.symm hletter, bracket_not_mem_padded]
  unfold escapeCode
  split
  · exact hcode 'x' 2 (by decide)
  · split
    · exact hcode 'u' 4 (by decide)
    · exact hcode 'U' 8 (by decide)

theorem eq_of_bracket_mem_quotedChar {mark c : Char} (h : '[' ∈ quotedChar mark c) : c = '[' := by
  unfold quotedChar at h
  split at h
  · simpa [eq_comm] using h
  · repeat' split at h
    · simp at h
    · simp at h
    · simp at h
    · exact absurd h (bracket_not_mem_escapeCode c)
    · simpa [eq_comm] using h

theorem unbracketed_quote {s : String} (h : Unbracketed s) : Unbracketed (quote s) := by
  have hmark : ('[' : Char) ≠ quoteMark s.toList := by
    unfold quoteMark
    split <;> decide
  intro hmem
  rw [quote, String.toList_ofList] at hmem
  simp only [List.cons_append, List.mem_cons, List.mem_append, List.mem_flatMap, List.not_mem_nil,
    or_false, hmark, false_or] at hmem
  obtain ⟨c, hc, hquoted⟩ := hmem
  rw [eq_of_bracket_mem_quotedChar hquoted] at hc
  exact h hc

/-! ## Messages -/

namespace SeedChain

theorem mem_of_mem_split {mark c : Char} {part text : List Char} (hpart : part ∈ split mark text)
    (hc : c ∈ part) : c ∈ text := by
  induction text generalizing part with
  | nil =>
      rw [split, List.mem_singleton] at hpart
      rw [hpart] at hc
      cases hc
  | cons d rest ih =>
      rw [split] at hpart
      split at hpart
      · rcases List.mem_cons.mp hpart with rfl | hrest
        · cases hc
        · exact List.mem_cons_of_mem _ (ih hrest hc)
      · split at hpart
        next first parts hsplit =>
          have hmem : ∀ {part}, part ∈ first :: parts → c ∈ part → c ∈ rest :=
            fun h => ih (hsplit ▸ h)
          rcases List.mem_cons.mp hpart with rfl | hrest
          · rcases List.mem_cons.mp hc with rfl | hc
            · exact List.mem_cons_self
            · exact List.mem_cons_of_mem _ (hmem List.mem_cons_self hc)
          · exact List.mem_cons_of_mem _ (hmem (List.mem_cons_of_mem _ hrest) hc)
        next =>
          rw [List.mem_singleton] at hpart
          rw [hpart, List.mem_singleton] at hc
          exact hc ▸ List.mem_cons_self

theorem bracket_not_mem_of_isBody {text : List Char} (h : isBody text = true) : '[' ∉ text := by
  intro hmem
  rw [← List.takeWhile_append_dropWhile (p := isBodyChar) (l := text), List.mem_append] at hmem
  rcases hmem with hmem | hmem
  · exact absurd (List.mem_takeWhile_imp hmem) (by decide)
  · unfold isBody at h
    simp only [Bool.and_eq_true, Bool.or_eq_true, beq_iff_eq] at h
    rcases h.2 with hrest | hrest
    · rw [hrest] at hmem
      cases hmem
    · rw [hrest] at hmem
      exact absurd (List.mem_singleton.mp hmem) (by decide)

/-- What is said about a chain quotes it, or else one of its components. -/
theorem unbracketed_message {text : String} {reason : SeedError}
    (hparse : parse text = .error reason) (h : Unbracketed text) :
    Unbracketed reason.message := by
  have hquoted : ∀ {front s : String}, Unbracketed front → Unbracketed s →
      Unbracketed (front ++ quote s) := fun hfront hs =>
    unbracketed_append.mpr ⟨hfront, unbracketed_quote hs⟩
  unfold parse at hparse
  split at hparse
  next hbody =>
    dsimp only at hparse
    split at hparse
    · cases hparse
      exact hquoted (by decide) h
    · obtain ⟨part, hpart, hseed⟩ := exists_of_mapM_eq_error hparse
      have hpart : Unbracketed (String.ofList part) := by
        unfold Unbracketed
        rw [String.toList_ofList]
        exact fun hmem => bracket_not_mem_of_isBody hbody (mem_of_mem_split hpart hmem)
      unfold Seed.parse at hseed
      split at hseed
      · cases hseed
        exact hquoted (by decide) hpart
      · split at hseed
        · cases hseed
        · cases hseed
          exact hquoted (by decide) hpart
  next =>
    cases hparse
    exact hquoted (by decide) h

end SeedChain

/-- What is said about settings quotes their chain. -/
theorem Settings.unbracketed_message {s : Settings} {reason : ConfigError}
    (hcheck : s.check = .error reason) (h : ∀ text, s.seed = some text → Unbracketed text) :
    Unbracketed reason.message := by
  unfold check at hcheck
  split at hcheck
  next e hseeds =>
    cases hcheck
    unfold seeds at hseeds
    split at hseeds
    · cases hseeds
    next text htext =>
      have hfront : Unbracketed ("Invalid " ++ seedVariable ++ " specification: ") := by decide
      split at hseeds
      next reason hparse =>
        cases hseeds
        have hreason := SeedChain.unbracketed_message hparse (h text htext)
        simp only [ConfigError.message, unbracketed_append] at hfront ⊢
        exact ⟨⟨⟨⟨hfront, h text htext⟩, by decide⟩, hreason⟩, by decide⟩
      next =>
        split at hseeds
        · cases hseeds
          exact unbracketed_append.mpr ⟨hfront, h text htext⟩
        · cases hseeds
  next =>
    split at hcheck
    · cases hcheck
    next n _ =>
      split at hcheck
      · cases hcheck
        exact unbracketed_append.mpr ⟨by decide, unbracketed_toString n⟩
      · cases hcheck

/-! ## Requests -/

namespace Command.PlanRequest

/-- A repetition is declared only for its constant seeds. -/
theorem iterations_of_mem {Code : Type} {p : PlanRequest} {code : Code} {unit : TestUnit Code}
    (h : unit ∈ (p.toSuite code).units) {r : Repetition}
    (hr : unit.metadata.repetition = some r) : r.iterations = 1 := by
  obtain ⟨name, -, rfl⟩ := List.mem_map.mp h
  dsimp only at hr
  split at hr
  · cases hr
    rfl
  · cases hr

/-- No text of a request has an opening bracket. -/
structure Unbracketed (p : PlanRequest) : Prop where
  seed : SeededTesting.Unbracketed p.seed
  suite : SeededTesting.Unbracketed p.suite
  units : ∀ name ∈ p.units, SeededTesting.Unbracketed name

theorem eq_of_mem_flag {condition : Bool} {v v' : Violation} (h : v ∈ flag condition v') :
    v = v' := by
  unfold flag at h
  split at h
  · exact List.mem_singleton.mp h
  · cases h

/-- Only the names of units that declare no more than constant seeds can be wrong. -/
theorem eq_or_exists_of_mem_listViolations {suite : String} {units : List (TestUnit Unit)}
    (hunits : ∀ unit ∈ units, unit.body = some () ∧ unit.metadata.seed = none ∧
      ∀ r, unit.metadata.repetition = some r → r.iterations = 1)
    {earlier : List String} {v : Violation} (h : v ∈ TestUnit.listViolations suite earlier units) :
    v = .emptyUnitName suite ∨ ∃ unit ∈ units, v = .duplicateUnit (.unit suite unit.name) := by
  induction units generalizing earlier with
  | nil => cases h
  | cons unit rest ih =>
      rw [List.forall_mem_cons] at hunits
      obtain ⟨⟨hbody, hseed, hrepetition⟩, hrest⟩ := hunits
      rw [TestUnit.listViolations, List.mem_append] at h
      rcases h with h | h
      · have hmetadata : ∀ place, unit.metadata.violations place 1 = [] := by
          intro place
          rw [Metadata.violations, Metadata.seedViolations, hseed, Metadata.repetitionViolations]
          cases hr : unit.metadata.repetition with
          | none => rfl
          | some r => simp [flag, hrepetition r hr]
        simp only [TestUnit.violations, hmetadata, hbody, Option.isNone_some, List.append_nil,
          List.mem_append] at h
        rcases h with (h | h) | h
        · exact .inl (eq_of_mem_flag h)
        · exact .inr ⟨unit, List.mem_cons_self, eq_of_mem_flag h⟩
        · cases h
      · rcases ih hrest h with h | ⟨other, hother, h⟩
        · exact .inl h
        · exact .inr ⟨other, List.mem_cons_of_mem _ hother, h⟩

variable {p : PlanRequest}

theorem unbracketed_violation (hp : p.Unbracketed) {v : Violation}
    (h : v ∈ (p.toSuite ()).violations) : SeededTesting.Unbracketed v.message := by
  have hunits : ∀ unit ∈ (p.toSuite ()).units, unit.body = some () ∧ unit.metadata.seed = none ∧
      ∀ r, unit.metadata.repetition = some r → r.iterations = 1 := by
    intro unit hunit
    obtain ⟨name, -, rfl⟩ := List.mem_map.mp hunit
    exact ⟨rfl, rfl, fun r hr => iterations_of_mem hunit hr⟩
  have hnone : (p.toSuite ()).metadata.violations (.suite p.suite) 2 = [] := rfl
  rw [Suite.violations, List.mem_append, List.mem_append, List.mem_append, List.mem_append] at h
  rcases h with (((h | h) | h) | h) | h
  · rw [eq_of_mem_flag h]
    decide
  · cases h
  · cases h
  · cases h
  · rcases eq_or_exists_of_mem_listViolations hunits h with rfl | ⟨unit, hunit, rfl⟩
    · simp only [Violation.message, unbracketed_append]
      exact ⟨⟨by decide, hp.suite⟩, by decide⟩
    · obtain ⟨name, hname, rfl⟩ := List.mem_map.mp hunit
      simp only [Violation.message, Place.describe, unbracketed_append]
      exact ⟨⟨⟨⟨by decide, hp.suite⟩, by decide⟩, hp.units name hname⟩, by decide⟩

theorem unbracketed_report (hp : p.Unbracketed) :
    SeededTesting.Unbracketed (Violation.report (p.toSuite ()).violations) := by
  refine unbracketed_append.mpr ⟨by decide, unbracketed_intercalate (by decide) ?_⟩
  exact List.forall_mem_map.mpr fun v hv => unbracketed_violation hp hv

end Command.PlanRequest

end SeededTesting

import Mathlib.Data.List.TakeWhile
import SeededTesting.Proofs.Seed.Words
import SeededTesting.Proofs.Text.Numerals
import SeededTesting.Seed.Chain

/-! # Seeds and chains read back

A seed, and a chain of seeds, is read back from the text that is written for it.
-/

namespace SeededTesting

open Text

namespace Seed

theorem toList_format (seed : Seed) : seed.format.toList = Hex.digits seed.toNat := by
  rw [format, Hex.write, String.toList_ofList]

theorem parse_format (seed : Seed) : parse seed.format = .ok seed := by
  have hsize : seed.toNat < UInt64.size := seed.toNat_lt_size
  rw [parse, toList_format, Integer.parse?_digits]
  dsimp only
  rw [Int.toNat_natCast, if_pos ⟨Int.natCast_nonneg _, hsize⟩, ofInt_toNat]

end Seed

/-- What stands in parts and separators between them stands in one of those. -/
theorem mem_or_exists_of_mem_intercalate {α : Type} {separator : List α} {parts : List (List α)}
    {a : α} (h : a ∈ List.intercalate separator parts) :
    a ∈ separator ∨ ∃ part ∈ parts, a ∈ part := by
  induction parts with
  | nil => cases h
  | cons part rest ih =>
      cases rest with
      | nil =>
          rw [List.intercalate_singleton] at h
          exact .inr ⟨part, List.mem_cons_self, h⟩
      | cons next rest =>
          rw [List.intercalate_cons_cons, List.mem_append, List.mem_append] at h
          rcases h with (h | h) | h
          · exact .inr ⟨part, List.mem_cons_self, h⟩
          · exact .inl h
          · rcases ih h with h | ⟨part', hpart', h⟩
            · exact .inl h
            · exact .inr ⟨part', List.mem_cons_of_mem _ hpart', h⟩

namespace SeedChain

theorem split_of_not_mem {mark : Char} {part : List Char} (h : mark ∉ part) :
    split mark part = [part] := by
  induction part with
  | nil => rfl
  | cons c rest ih =>
      rw [List.mem_cons, not_or] at h
      rw [split, if_neg (Ne.symm h.1), ih h.2]

theorem split_append {mark : Char} {part : List Char} (h : mark ∉ part) (rest : List Char) :
    split mark (part ++ mark :: rest) = part :: split mark rest := by
  induction part with
  | nil => rw [List.nil_append, split, if_pos rfl]
  | cons c part ih =>
      rw [List.mem_cons, not_or] at h
      rw [List.cons_append, split, if_neg (Ne.symm h.1), ih h.2]

/-- Parts without the mark are found again between marks. -/
theorem split_intercalate {mark : Char} {parts : List (List Char)}
    (h : ∀ part ∈ parts, mark ∉ part) (hne : parts ≠ []) :
    split mark (List.intercalate [mark] parts) = parts := by
  induction parts with
  | nil => exact absurd rfl hne
  | cons part rest ih =>
      have hpart := h part List.mem_cons_self
      cases rest with
      | nil => rw [List.intercalate_singleton, split_of_not_mem hpart]
      | cons next rest =>
          have hrest := ih (fun part hmem => h part (List.mem_cons_of_mem _ hmem))
            (List.cons_ne_nil _ _)
          rw [List.intercalate_cons_cons, List.append_assoc, List.singleton_append,
            split_append hpart, hrest]

/-- What is written between the brackets of a chain. -/
def inner (seeds : List Seed) : List Char :=
  List.intercalate [separator] (seeds.map fun seed => Hex.digits seed.toNat)

theorem toList_format (seeds : List Seed) :
    (format seeds).toList = '[' :: (inner seeds ++ [']']) := by
  have hparts : (seeds.map Seed.format).map String.toList =
      seeds.map fun seed => Hex.digits seed.toNat := by
    rw [List.map_map]
    exact List.map_congr_left fun seed _ => seed.toList_format
  rw [format, String.toList_append, String.toList_append, String.toList_intercalate, hparts,
    List.append_assoc]
  rfl

/-- Digits of seeds and marks are all that is written between the brackets. -/
theorem eq_or_exists_of_mem_inner {seeds : List Seed} {c : Char} (h : c ∈ inner seeds) :
    c = separator ∨ ∃ n, c ∈ Hex.digits n := by
  rcases mem_or_exists_of_mem_intercalate h with h | ⟨part, hpart, h⟩
  · exact .inl (List.mem_singleton.mp h)
  · obtain ⟨seed, -, rfl⟩ := List.mem_map.mp hpart
    exact .inr ⟨_, h⟩

theorem plain_of_mem_inner {seeds : List Seed} {c : Char} (h : c ∈ inner seeds) :
    c = separator ∨ Hex.Plain c := by
  rcases eq_or_exists_of_mem_inner h with h | ⟨n, h⟩
  · exact .inl h
  · exact .inr (Hex.plain_of_mem_digits h)

theorem inner_ne_nil {seeds : List Seed} (h : seeds ≠ []) : inner seeds ≠ [] := by
  cases seeds with
  | nil => exact absurd rfl h
  | cons seed rest =>
      cases rest with
      | nil =>
          rw [inner, List.map_singleton, List.intercalate_singleton]
          exact Hex.digits_ne_nil _
      | cons next rest =>
          rw [inner, List.map_cons, List.map_cons, List.intercalate_cons_cons]
          simp [Hex.digits_ne_nil]

theorem unblank_of_plain {c : Char} (h : c = separator ∨ Hex.Plain c) : isBlank c = false := by
  rcases h with rfl | hplain
  · decide
  · exact hplain.unblank

/-- Where all characters are digits and marks between seeds, there is no other mark. -/
theorem bracket_not_mem_of_plain {core : List Char}
    (h : ∀ c ∈ core, c = separator ∨ Hex.Plain c) : '[' ∉ core ∧ ']' ∉ core := by
  constructor
  · intro hmem
    rcases h _ hmem with heq | hplain
    · exact absurd heq (by decide)
    · exact hplain.unmarked (by decide)
  · intro hmem
    rcases h _ hmem with heq | hplain
    · exact absurd heq (by decide)
    · exact hplain.unmarked (by decide)

theorem bracket_not_mem_inner (seeds : List Seed) : '[' ∉ inner seeds ∧ ']' ∉ inner seeds :=
  bracket_not_mem_of_plain fun _ => plain_of_mem_inner

theorem dropOpening_of_not_mem {text : List Char} (h : '[' ∉ text) : dropOpening text = text := by
  unfold dropOpening
  split
  next rest => exact absurd List.mem_cons_self h
  next => rfl

theorem dropClosing_of_not_mem {text : List Char} (h : ']' ∉ text) : dropClosing text = text := by
  unfold dropClosing
  split
  next rest heq => exact absurd (List.mem_reverse.mp (heq ▸ List.mem_cons_self)) h
  next => rfl

theorem dropClosing_append (text : List Char) : dropClosing (text ++ [']']) = text := by
  rw [dropClosing, List.reverse_append, List.reverse_singleton, List.singleton_append]
  exact List.reverse_reverse _

/-- Blanks around a text without brackets are dropped, and so is either bracket where it is
there. -/
theorem body_between {before opening text closing after : List Char}
    (hbefore : ∀ c ∈ before, isBlank c = true) (hopening : opening = [] ∨ opening = ['['])
    (hunmarked : '[' ∉ text ∧ ']' ∉ text) (hclosing : closing = [] ∨ closing = [']'])
    (hafter : ∀ c ∈ after, isBlank c = true)
    (hfirst : ∀ c ∈ (opening ++ (text ++ closing)).head?, isBlank c = false)
    (hlast : ∀ c ∈ (opening ++ (text ++ closing)).getLast?, isBlank c = false) :
    body (String.ofList (before ++ (opening ++ (text ++ closing)) ++ after)) = text := by
  obtain ⟨hnoOpening, hnoClosing⟩ := hunmarked
  have hdropOpening : dropOpening (opening ++ (text ++ closing)) = text ++ closing := by
    rcases hopening with rfl | rfl
    · apply dropOpening_of_not_mem
      rcases hclosing with rfl | rfl <;> simp [hnoOpening]
    · rfl
  have hdropClosing : dropClosing (text ++ closing) = text := by
    rcases hclosing with rfl | rfl
    · rw [List.append_nil, dropClosing_of_not_mem hnoClosing]
    · exact dropClosing_append _
  rw [body, String.toList_ofList, trim, trimBy_between hbefore hfirst hlast hafter, hdropOpening,
    hdropClosing]

/-- Blanks around a chain are dropped, and so is either bracket where it is there. -/
theorem body_surrounded (seeds : List Seed) {before opening closing after : List Char}
    (hbefore : ∀ c ∈ before, isBlank c = true) (hopening : opening = [] ∨ opening = ['['])
    (hclosing : closing = [] ∨ closing = [']']) (hafter : ∀ c ∈ after, isBlank c = true) :
    body (String.ofList (before ++ (opening ++ (inner seeds ++ closing)) ++ after)) =
      inner seeds := by
  have hunblank : ∀ c ∈ opening ++ (inner seeds ++ closing), isBlank c = false := by
    intro c hc
    rcases List.mem_append.mp hc with hc | hc
    · rcases hopening with rfl | rfl
      · cases hc
      · rw [List.mem_singleton.mp hc]
        decide
    rcases List.mem_append.mp hc with hc | hc
    · exact unblank_of_plain (plain_of_mem_inner hc)
    · rcases hclosing with rfl | rfl
      · cases hc
      · rw [List.mem_singleton.mp hc]
        decide
  exact body_between hbefore hopening (bracket_not_mem_inner seeds) hclosing hafter
    (fun c hc => hunblank c (List.mem_of_mem_head? hc))
    fun c hc => hunblank c (List.mem_of_mem_getLast? hc)

theorem body_format (seeds : List Seed) : body (format seeds) = inner seeds := by
  have hbody := body_surrounded seeds (List.forall_mem_nil _) (.inr rfl) (.inr rfl)
    (List.forall_mem_nil _)
  rwa [List.nil_append, List.append_nil, List.singleton_append, ← toList_format,
    String.ofList_toList] at hbody

/-- Without brackets there is nothing to drop. -/
theorem body_inner (seeds : List Seed) : body (String.ofList (inner seeds)) = inner seeds := by
  have hbody := body_surrounded seeds (List.forall_mem_nil _) (.inl rfl) (.inl rfl)
    (List.forall_mem_nil _)
  rwa [List.nil_append, List.append_nil, List.nil_append, List.append_nil] at hbody

theorem isBodyChar_of_mem_inner {seeds : List Seed} {c : Char} (h : c ∈ inner seeds) :
    isBodyChar c = true := by
  rcases plain_of_mem_inner h with rfl | hplain
  · decide
  · rw [isBodyChar, hplain.isDigit, Bool.true_or]

theorem isBody_inner {seeds : List Seed} (h : seeds ≠ []) : isBody (inner seeds) = true := by
  have hchars : ∀ c ∈ inner seeds, isBodyChar c = true := fun c hc => isBodyChar_of_mem_inner hc
  have htake : (inner seeds).takeWhile isBodyChar = inner seeds :=
    List.takeWhile_eq_self_iff.mpr hchars
  have hdrop : (inner seeds).dropWhile isBodyChar = [] := List.dropWhile_eq_nil_iff.mpr hchars
  rw [isBody, htake, hdrop]
  simp [inner_ne_nil h]

/-- A chain is read back from a text with its body. -/
theorem parse_of_body {seeds : List Seed} {text : String} (h : seeds ≠ [])
    (hbody : body text = inner seeds) : parse text = .ok seeds := by
  have hsplit : split separator (inner seeds) = seeds.map fun seed => Hex.digits seed.toNat := by
    -- No digit is a mark, so the text is split between the seeds and nowhere else.
    refine split_intercalate ?_ fun hnil => h (List.map_eq_nil_iff.mp hnil)
    intro part hpart
    obtain ⟨seed, -, rfl⟩ := List.mem_map.mp hpart
    exact fun hmem => (Hex.plain_of_mem_digits hmem).unmarked (by decide)
  have hfull : (seeds.map fun seed => Hex.digits seed.toNat).any List.isEmpty = false := by
    rw [List.any_eq_false]
    intro part hpart
    obtain ⟨seed, -, rfl⟩ := List.mem_map.mp hpart
    simp [Hex.digits_ne_nil]
  have hread : ∀ list : List Seed, (list.map fun seed => Hex.digits seed.toNat).mapM
      (fun part => Seed.parse (String.ofList part)) = .ok list := by
    intro list
    induction list with
    | nil => rfl
    | cons seed rest ih =>
        have hseed : Seed.parse (String.ofList (Hex.digits seed.toNat)) = .ok seed :=
          seed.parse_format
        rw [List.map_cons, List.mapM_cons, hseed, ih]
        rfl
  rw [parse, hbody, isBody_inner h, if_pos rfl, hsplit]
  dsimp only
  rw [hfull, if_neg Bool.false_ne_true, hread]

/-- A chain is read back from its text. -/
theorem parse_format {seeds : List Seed} (h : seeds ≠ []) : parse (format seeds) = .ok seeds :=
  parse_of_body h (body_format seeds)

end SeedChain
end SeededTesting

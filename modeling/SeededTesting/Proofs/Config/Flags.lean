import Mathlib.Data.List.Basic
import SeededTesting.Config
import SeededTesting.Proofs.Text.Literals

/-! # Flags

A flag is one of a few words, in capitals or not and among blanks, and anything else is refused. No
character beyond ASCII becomes a letter of these words in lower case, so it is enough to know the
capitals of ASCII.
-/

namespace SeededTesting

open Text

namespace Flag

/-- The words of a flag that is set and of one that is not. -/
def words : List String :=
  trueWords ++ falseWords

theorem trueWords_subset : trueWords ⊆ words :=
  List.subset_append_left trueWords falseWords

theorem falseWords_subset : falseWords ⊆ words :=
  List.subset_append_right trueWords falseWords

theorem plain_of_mem_words {word : String} (h : word ∈ words) :
    ∀ c ∈ word.toList, c.toNat < 127 ∧ isBlank c = false := by
  have hwords : ∀ word ∈ words,
      word.toList.all (fun c => decide (c.toNat < 127 ∧ isBlank c = false)) = true := by
    decide +kernel
  exact fun c hc => of_decide_eq_true (List.all_eq_true.mp (hwords word h) c hc)

/-- One of the words among blanks, in capitals or not. -/
def Among (words : List String) (text : String) : Prop :=
  ∃ before word after : String,
    (∀ c ∈ before.toList, isBlank c = true) ∧ (∀ c ∈ after.toList, isBlank c = true) ∧
      text = before ++ word ++ after ∧ word.toLower ∈ words

theorem toLower_eq (word : String) : word.toLower = .ofList (word.toList.map Char.toLower) :=
  String.map_eq_internal

theorem toLower_of_beyond {c : Char} (h : 127 ≤ c.toNat) : c.toLower = c := by
  refine dif_neg ?_
  rintro ⟨-, hcapital⟩
  exact Nat.not_lt.mpr h (Nat.lt_of_le_of_lt hcapital (by decide))

theorem isBlank_toLower (c : Char) : isBlank c.toLower = isBlank c := by
  rcases Nat.lt_or_ge c.toNat 127 with hascii | hbeyond
  · exact forall_ascii (P := fun c => isBlank c.toLower = isBlank c) (by decide +kernel) hascii
  · rw [toLower_of_beyond hbeyond]

/-- What is left of a text between blanks is a word in lower case just if the text is this word
among blanks. -/
theorem toLower_trim_mem_iff {list : List String} (hlist : list ⊆ words) {text : String} :
    String.ofList ((trim text.toList).map Char.toLower) ∈ list ↔ Among list text := by
  constructor
  · intro h
    obtain ⟨before, after, hbefore, hafter, htext, -⟩ := exists_surrounding isBlank text.toList
    refine ⟨.ofList before, .ofList (trim text.toList), .ofList after, ?_, ?_, ?_, ?_⟩
    · rwa [String.toList_ofList]
    · rwa [String.toList_ofList]
    · rw [← String.ofList_append, ← String.ofList_append, trim, ← htext, String.ofList_toList]
    · rwa [toLower_eq, String.toList_ofList]
  · rintro ⟨before, word, after, hbefore, hafter, rfl, hword⟩
    rw [toLower_eq] at hword
    have hunblank : ∀ c ∈ word.toList, isBlank c = false := by
      intro c hc
      rw [← isBlank_toLower]
      refine (plain_of_mem_words (hlist hword) _ ?_).2
      rw [String.toList_ofList]
      exact List.mem_map_of_mem hc
    rwa [String.toList_append, String.toList_append, trim, trimBy_append hbefore hunblank hafter]

theorem among_words_iff {text : String} :
    Among words text ↔ Among trueWords text ∨ Among falseWords text := by
  simp only [Among, words, List.mem_append, and_or_left, exists_or]

/-- What a flag that is set is read as. -/
theorem parse_some_cases (name text : String) (default : Bool) :
    Among trueWords text ∧ parse name (some text) default = .ok true ∨
      ¬Among trueWords text ∧ Among falseWords text ∧ parse name (some text) default = .ok false ∨
      ¬Among words text ∧ parse name (some text) default = .error (.notBoolean name text) := by
  rw [among_words_iff, ← toLower_trim_mem_iff trueWords_subset,
    ← toLower_trim_mem_iff falseWords_subset, parse]
  simp only [List.contains_iff_mem]
  split
  next h => exact .inl ⟨h, rfl⟩
  next h =>
    split
    next h' => exact .inr (.inl ⟨h, h', rfl⟩)
    next h' => exact .inr (.inr ⟨not_or.mpr ⟨h, h'⟩, rfl⟩)

variable {name : String} {value : Option String} {default : Bool}

/-- A flag is refused just if it is set to something else than a word. -/
theorem parse_eq_error_iff {e : ConfigError} : parse name value default = .error e ↔
    ∃ text, value = some text ∧ ¬Among words text ∧ e = .notBoolean name text := by
  cases value with
  | none => simp [parse]
  | some text =>
      simp only [Option.some.injEq, exists_eq_left']
      rcases parse_some_cases name text default with ⟨h, heq⟩ | ⟨-, h, heq⟩ | ⟨h, heq⟩
      · simp [heq, among_words_iff, h]
      · simp [heq, among_words_iff, h]
      · simp [heq, h, eq_comm]

/-- A flag is off unless it is set to one of the words for the contrary. -/
theorem eq_true_of_parse_iff {b : Bool} (h : parse name value false = .ok b) :
    b = true ↔ ∃ text, value = some text ∧ Among trueWords text := by
  cases value with
  | none =>
      cases h
      simp
  | some text =>
      simp only [Option.some.injEq, exists_eq_left']
      rcases parse_some_cases name text false with ⟨h', heq⟩ | ⟨h', -, heq⟩ | ⟨h', heq⟩
      · rw [heq] at h
        cases h
        simp [h']
      · rw [heq] at h
        cases h
        simp [h']
      · rw [heq] at h
        cases h

/-! ### Beyond ASCII -/

/-- A way to write texts in lower case: that of ASCII, as far as ASCII goes, and beyond it one that
turns no character into letters of flags alone. -/
structure Lowering (lower : Char → List Char) : Prop where
  ascii : ∀ c : Char, c.toNat < 127 → lower c = [c.toLower]
  beyond : ∀ c : Char, 127 ≤ c.toNat → ∃ d ∈ lower c, ∀ word ∈ words, d ∉ word.toList

/-- Characters beyond ASCII may be left as they are. -/
theorem lowering_toLower : Lowering fun c => [c.toLower] where
  ascii _ _ := rfl
  beyond c hbeyond := by
    refine ⟨c, List.mem_singleton.mpr (toLower_of_beyond hbeyond).symm, fun word hword hc => ?_⟩
    exact Nat.not_lt.mpr hbeyond (plain_of_mem_words hword c hc).1

namespace Lowering

variable {lower : Char → List Char}

theorem eq_word_iff (hlower : Lowering lower) (text : List Char) {word : String}
    (hword : word ∈ words) :
    String.ofList (text.flatMap lower) = word ↔ String.ofList (text.map Char.toLower) = word := by
  by_cases hascii : ∀ c ∈ text, c.toNat < 127
  · have hsingle : text.flatMap lower = text.flatMap fun c => [c.toLower] :=
      List.flatMap_congr fun c hc => hlower.ascii c (hascii c hc)
    rw [hsingle, ← List.map_eq_flatMap]
  · push Not at hascii
    obtain ⟨c, hc, hbeyond⟩ := hascii
    refine iff_of_false ?_ ?_
    · rintro rfl
      obtain ⟨d, hd, hforeign⟩ := hlower.beyond c hbeyond
      refine hforeign _ hword ?_
      rw [String.toList_ofList]
      exact List.mem_flatMap.mpr ⟨c, hc, hd⟩
    · rintro rfl
      refine Nat.not_lt.mpr hbeyond (plain_of_mem_words hword c ?_).1
      rw [String.toList_ofList, ← toLower_of_beyond hbeyond]
      exact List.mem_map_of_mem hc

theorem mem_iff (hlower : Lowering lower) (text : List Char) {list : List String}
    (hlist : list ⊆ words) :
    String.ofList (text.flatMap lower) ∈ list ↔ String.ofList (text.map Char.toLower) ∈ list := by
  constructor
  · intro h
    rwa [(hlower.eq_word_iff text (hlist h)).mp rfl]
  · intro h
    rwa [(hlower.eq_word_iff text (hlist h)).mpr rfl]

/-- However characters beyond ASCII are written in lower case, a flag is read the same. -/
theorem parse_some (hlower : Lowering lower) (name text : String) (default : Bool) :
    parse name (some text) default =
      let word := String.ofList ((trim text.toList).flatMap lower)
      if trueWords.contains word then .ok true
      else if falseWords.contains word then .ok false
      else .error (.notBoolean name text) := by
  have htrue := hlower.mem_iff (trim text.toList) trueWords_subset
  have hfalse := hlower.mem_iff (trim text.toList) falseWords_subset
  simp only [parse, List.contains_iff_mem, htrue, hfalse]

end Lowering

end Flag

end SeededTesting

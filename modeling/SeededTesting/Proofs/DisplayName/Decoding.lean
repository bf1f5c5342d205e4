import Mathlib.Data.List.Chain
import SeededTesting.DisplayName
import SeededTesting.Proofs.Seed.RoundTrip

/-! # Display names decoded

The unit and the suite of a name are free text, so a reader has to find the place where the unit
ends. Two readers look for it: one takes the shortest unit that a tail can follow, the other drops
seeds wherever they stand. Where no blank precedes an opening bracket in either text, both stop at
the seeds that the name was written with, whatever else the texts hold.
-/

namespace SeededTesting.DisplayName

open Text

/-! ## Tails as they are written -/

namespace Tail

/-- What is written behind the unit of one of `count` iterations. -/
def of (iteration count : Int) (master seed : Seed) (suite : String) : Tail where
  iteration := if count > 1 then some (toString iteration).toList else none
  chain := SeedChain.inner [master, seed]
  suite := some suite.toList

def index (tail : Tail) : List Char :=
  match tail.iteration with
  | some digits => '#' :: digits
  | none => []

def closing (tail : Tail) : List Char :=
  match tail.suite with
  | some suite => '(' :: (suite ++ [')'])
  | none => []

/-- The chain in brackets with what follows it. -/
def bracketed (tail : Tail) : List Char :=
  ' ' :: '[' :: (tail.chain ++ ']' :: tail.closing)

def written (tail : Tail) : List Char :=
  tail.index ++ tail.bracketed

/-- A tail whose parts end where they are written to end. -/
structure Legible (tail : Tail) : Prop where
  iteration_ne_nil : ∀ digits ∈ tail.iteration, digits ≠ []
  iteration_digits : ∀ digits ∈ tail.iteration, ∀ c ∈ digits, isDigit c = true
  chain_ne_nil : tail.chain ≠ []
  chain_chars : ∀ c ∈ tail.chain, SeedChain.isBodyChar c = true
  suite_line : ∀ suite ∈ tail.suite, '\n' ∉ suite

end Tail

theorem toList_format (unit : String) (iteration count : Int) (master seed : Seed)
    (suite : String) : (format unit iteration count master seed suite).toList =
      unit.toList ++ (Tail.of iteration count master seed suite).written := by
  unfold format Tail.written Tail.bracketed Tail.index Tail.of Tail.closing
  by_cases hcount : count > 1
  · simp [hcount, SeedChain.toList_format]
  · simp [hcount, SeedChain.toList_format]

/-! ## Tails read back -/

/-- A part is read up to the first character that is not of its class. -/
theorem read_part {inside : Char → Bool} {part : List Char} {mark : Char} (after : List Char)
    (hpart : ∀ c ∈ part, inside c = true) (hmark : inside mark = false) :
    (part ++ mark :: after).takeWhile inside = part ∧
      (part ++ mark :: after).dropWhile inside = mark :: after := by
  constructor
  · rw [List.takeWhile_append_of_pos hpart, List.takeWhile_cons, hmark,
      if_neg Bool.false_ne_true, List.append_nil]
  · rw [List.dropWhile_append_of_pos hpart, List.dropWhile_cons, hmark,
      if_neg Bool.false_ne_true]

section Tails

variable {tail : Tail}

theorem beforeClosing?_append {suite : List Char} (h : '\n' ∉ suite) :
    beforeClosing? (suite ++ [')']) = some suite := by
  have hline : (!suite.contains '\n') = true := by simpa using h
  have hreverse : (suite ++ [')']).reverse = ')' :: suite.reverse := List.reverse_append
  rw [beforeClosing?, hreverse]
  simp only [List.reverse_reverse]
  exact Option.filter_some_pos hline

theorem readSuite?_closing (h : tail.Legible) : readSuite? tail.closing = some tail.suite := by
  unfold Tail.closing
  cases hsuite : tail.suite with
  | none => rfl
  | some suite =>
      rw [readSuite?, beforeClosing?_append (h.suite_line suite hsuite), Option.map_some]

theorem readChain?_bracketed (h : tail.Legible) :
    readChain? tail.iteration tail.bracketed = some tail := by
  obtain ⟨htake, hdrop⟩ := read_part tail.closing h.chain_chars
    (show SeedChain.isBodyChar ']' = false by decide)
  have hfull : tail.chain.isEmpty = false := by simpa using h.chain_ne_nil
  rw [Tail.bracketed, readChain?, htake, hdrop]
  simp only [hfull, if_neg Bool.false_ne_true, readSuite?_closing h, Option.map_some]

/-- The digits of an index are read up to the blank behind them. -/
theorem read_digits (h : tail.Legible) {digits : List Char}
    (hiteration : tail.iteration = some digits) :
    (digits ++ tail.bracketed).takeWhile isDigit = digits ∧
      (digits ++ tail.bracketed).dropWhile isDigit = tail.bracketed ∧ digits.isEmpty = false := by
  obtain ⟨htake, hdrop⟩ := read_part ('[' :: (tail.chain ++ ']' :: tail.closing))
    (h.iteration_digits digits hiteration) (show isDigit ' ' = false by decide)
  exact ⟨htake, hdrop, by simpa using h.iteration_ne_nil digits hiteration⟩

/-- A tail is read back from its text. -/
theorem readTail?_written (h : tail.Legible) : readTail? tail.written = some tail := by
  unfold Tail.written Tail.index
  cases hiteration : tail.iteration with
  | none =>
      rw [← readChain?_bracketed h, hiteration]
      rfl
  | some digits =>
      obtain ⟨htake, hdrop, hfull⟩ := read_digits h hiteration
      rw [List.cons_append, readTail?, htake, hdrop, hfull, if_neg Bool.false_ne_true,
        ← hiteration]
      exact readChain?_bracketed h

/-- The characters of a chain are stripped. -/
theorem isStrippedChar_of_isBodyChar {c : Char} (h : SeedChain.isBodyChar c = true) :
    isStrippedChar c = true := by
  rw [SeedChain.isBodyChar, Bool.or_eq_true] at h
  rcases h with h | h
  · simp only [Hex.isDigit, Hex.value?] at h
    simp only [isStrippedChar, isDigit, Bool.or_eq_true, Bool.and_eq_true, decide_eq_true_eq]
    grind
  · rw [isStrippedChar, Bool.or_eq_true]
    exact .inr h

theorem dropChain?_bracketed (h : tail.Legible) :
    dropChain? tail.bracketed = some tail.closing := by
  have hchars : ∀ c ∈ tail.chain, isStrippedChar c = true :=
    fun c hc => isStrippedChar_of_isBodyChar (h.chain_chars c hc)
  obtain ⟨htake, hdrop⟩ := read_part tail.closing hchars
    (show isStrippedChar ']' = false by decide)
  have hstart : (isBlank ' ' && !tail.chain.isEmpty) = true := by
    simpa using ⟨by decide, h.chain_ne_nil⟩
  rw [Tail.bracketed, dropChain?, htake, if_pos hstart, hdrop]
  rfl

/-- An index and a chain are dropped together. -/
theorem dropSeeds?_written (h : tail.Legible) : dropSeeds? tail.written = some tail.closing := by
  unfold Tail.written Tail.index
  cases hiteration : tail.iteration with
  | none =>
      rw [← dropChain?_bracketed h]
      rfl
  | some digits =>
      obtain ⟨htake, hdrop, hfull⟩ := read_digits h hiteration
      rw [List.cons_append, dropSeeds?, htake, hdrop, hfull, if_neg Bool.false_ne_true]
      exact dropChain?_bracketed h

end Tails

/-! ## Where no seeds start -/

/-- No blank stands directly before an opening bracket. -/
def Unbracketed (text : List Char) : Prop :=
  text.IsChain fun c next => isBlank c = true → next ≠ '['

instance (text : List Char) : Decidable (Unbracketed text) :=
  inferInstanceAs (Decidable (text.IsChain fun c next => isBlank c = true → next ≠ '['))

/-- The text does not start with a blank and an opening bracket. -/
def StartsNoChain (text : List Char) : Prop :=
  ∀ blank rest, text = blank :: '[' :: rest → isBlank blank = false

/-- Neither does what follows an index. -/
structure StartsNoSeeds (text : List Char) : Prop where
  chain : StartsNoChain text
  index : ∀ rest, text = '#' :: rest → rest.takeWhile isDigit ≠ [] →
    StartsNoChain (rest.dropWhile isDigit)

theorem readChain?_eq_none {text : List Char} (h : StartsNoChain text)
    (iteration : Option (List Char)) : readChain? iteration text = none := by
  unfold readChain?
  split
  next rest => exact absurd (h ' ' rest rfl) (by decide)
  next => rfl

theorem dropChain?_eq_none {text : List Char} (h : StartsNoChain text) :
    dropChain? text = none := by
  unfold dropChain?
  split
  next blank rest => rw [h blank rest rfl, Bool.false_and, if_neg Bool.false_ne_true]
  next => rfl

theorem readTail?_eq_none {text : List Char} (h : StartsNoSeeds text) : readTail? text = none := by
  unfold readTail?
  split
  next rest =>
    dsimp only
    split
    next => rfl
    next hfull => exact readChain?_eq_none (h.index rest rfl (by simpa using hfull)) _
  next => exact readChain?_eq_none h.chain none

theorem dropSeeds?_eq_none {text : List Char} (h : StartsNoSeeds text) :
    dropSeeds? text = none := by
  unfold dropSeeds?
  split
  next rest =>
    split
    next => rfl
    next hfull => exact dropChain?_eq_none (h.index rest rfl (by simpa using hfull))
  next => exact dropChain?_eq_none h.chain

theorem startsNoChain_append {text after : List Char} (hne : text ≠ []) (htext : Unbracketed text)
    (hafter : after.head? ≠ some '[') : StartsNoChain (text ++ after) := by
  rintro blank rest heq
  cases text with
  | nil => exact absurd rfl hne
  | cons c text =>
      cases text with
      | nil =>
          rw [List.singleton_append, List.cons.injEq] at heq
          exact absurd (by rw [heq.2]; rfl) hafter
      | cons next text =>
          rw [List.cons_append, List.cons_append, List.cons.injEq, List.cons.injEq] at heq
          obtain ⟨rfl, rfl, -⟩ := heq
          have hfirst := (List.isChain_cons_cons.mp htext).1
          exact Bool.eq_false_iff.mpr fun hblank => hfirst hblank rfl

/-- Where a text has no bracket behind a blank, only an index at its very end could belong to
seeds that follow it. -/
theorem startsNoSeeds_append {text after : List Char} (hne : text ≠ []) (htext : Unbracketed text)
    (hbracket : after.head? ≠ some '[') (hdigit : after.takeWhile isDigit = [])
    (hindex : ∀ digits ≠ [], (∀ c ∈ digits, isDigit c = true) → text = '#' :: digits →
      StartsNoChain after) : StartsNoSeeds (text ++ after) := by
  refine ⟨startsNoChain_append hne htext hbracket, ?_⟩
  intro rest heq hdigits
  cases text with
  | nil => exact absurd rfl hne
  | cons c text =>
      rw [List.cons_append, List.cons.injEq] at heq
      obtain ⟨rfl, rfl⟩ := heq
      -- Digits up to the end of the text run on into what follows, others end within the text.
      by_cases hall : ∀ c ∈ text, isDigit c = true
      · rw [List.takeWhile_append_of_pos hall, hdigit, List.append_nil] at hdigits
        have hdrop : after.dropWhile isDigit = after := by
          have hparts := List.takeWhile_append_dropWhile (p := isDigit) (l := after)
          rwa [hdigit, List.nil_append] at hparts
        rw [List.dropWhile_append_of_pos hall, hdrop]
        exact hindex text hdigits hall rfl
      · have hrest : text.dropWhile isDigit ≠ [] := fun hnil =>
          hall (List.dropWhile_eq_nil_iff.mp hnil)
        rw [List.dropWhile_append, if_neg (by simpa using hrest)]
        exact startsNoChain_append hrest
          (htext.suffix ((List.dropWhile_suffix _).trans (List.suffix_cons _ _))) hbracket

/-! ## The first place where seeds start -/

/-- The shortest unit that a tail follows is the text in which no seeds start. -/
theorem splitUnit?_append {text after : List Char} {tail : Tail} (hne : text ≠ [])
    (hline : '\n' ∉ text)
    (hstart : ∀ suffix ≠ [], suffix <:+ text → StartsNoSeeds (suffix ++ after))
    (htail : readTail? after = some tail) (unit : List Char) :
    splitUnit? unit (text ++ after) = some (unit.reverse ++ text, tail) := by
  induction text generalizing unit with
  | nil => exact absurd rfl hne
  | cons c text ih =>
      rw [List.mem_cons, not_or] at hline
      rw [List.cons_append, splitUnit?, if_neg (Ne.symm hline.1)]
      -- The tail is looked for behind every character, and only behind the last one there is one.
      by_cases htext : text = []
      · rw [htext, List.nil_append, htail]
        exact congrArg (fun unit => some (unit, tail)) List.reverse_cons
      · rw [readTail?_eq_none (hstart text htext (List.suffix_cons c text))]
        dsimp only
        rw [ih htext hline.2
          (fun suffix hne hmem => hstart suffix hne (hmem.trans (List.suffix_cons c text))),
          List.reverse_cons, List.append_assoc, List.singleton_append]

/-- A text in which no seeds start is kept. -/
theorem stripWithin_append {text after : List Char}
    (hstart : ∀ suffix ≠ [], suffix <:+ text → StartsNoSeeds (suffix ++ after)) (bound : Nat) :
    stripWithin (text.length + bound) (text ++ after) = text ++ stripWithin bound after := by
  induction text with
  | nil => rw [List.length_nil, Nat.zero_add, List.nil_append, List.nil_append]
  | cons c text ih =>
      have hbound : (c :: text).length + bound = text.length + bound + 1 := by
        rw [List.length_cons]
        omega
      have hnone := dropSeeds?_eq_none (hstart (c :: text) (List.cons_ne_nil _ _) List.suffix_rfl)
      rw [List.cons_append] at hnone
      rw [hbound, List.cons_append, stripWithin, hnone]
      dsimp only
      rw [ih fun suffix hne hmem => hstart suffix hne (hmem.trans (List.suffix_cons c text)),
        List.cons_append]

theorem stripWithin_eq_self {text : List Char} (h : Unbracketed text) (bound : Nat) :
    stripWithin (text.length + bound) text = text := by
  have hstart : ∀ suffix ≠ [], suffix <:+ text → StartsNoSeeds (suffix ++ []) := by
    intro suffix hne hsuffix
    refine startsNoSeeds_append hne (h.suffix hsuffix) (by simp) rfl ?_
    intro _ _ _ _ _ _ heq
    cases heq
  have hkept := stripWithin_append hstart bound
  have hnil : stripWithin bound [] = [] := by
    cases bound with
    | zero => rfl
    | succ _ => rfl
  rwa [List.append_nil, hnil, List.append_nil] at hkept

theorem stripWithin_of_dropSeeds? {text after : List Char} (h : dropSeeds? text = some after)
    (bound : Nat) : stripWithin (bound + 1) text = stripWithin bound after := by
  cases text with
  | nil => cases h
  | cons c rest => rw [stripWithin, h]

/-! ## Names -/

/-- What keeps a reader from finding seeds in the texts of a name, apart from those it was written
with. Only a unit whose iterations are not counted must not seem to end in an index. -/
structure Decodable (unit suite : String) (count : Int) : Prop where
  unit_ne_empty : unit ≠ ""
  unit_line : '\n' ∉ unit.toList
  suite_line : '\n' ∉ suite.toList
  unit_unbracketed : Unbracketed unit.toList
  suite_unbracketed : Unbracketed suite.toList
  unnumbered : count ≤ 1 → ∀ digits ≠ [], (∀ c ∈ digits, isDigit c = true) →
    ¬ '#' :: digits <:+ unit.toList

section Names

variable {unit suite : String} {count : Int}

theorem toList_toString (n : Nat) : (toString (n : Int)).toList = Nat.toDigits 10 n := by
  rw [Int.toString_eq_repr, Int.repr_eq_if, if_pos (Int.natCast_nonneg n), Int.toNat_natCast,
    Nat.toList_repr]

theorem isDigit_of_mem_toDigits {n : Nat} {c : Char} (h : c ∈ Nat.toDigits 10 n) :
    isDigit c = true := by
  have hdigit := Nat.isDigit_of_mem_toDigits (by decide) (by decide) h
  rw [Char.isDigit, Bool.and_eq_true, decide_eq_true_eq, decide_eq_true_eq] at hdigit
  rw [isDigit, Bool.and_eq_true, decide_eq_true_eq, decide_eq_true_eq]
  exact hdigit

theorem readIteration_toDigits {n : Nat}
    (h : (Nat.toDigits 10 n).length ≤ Integer.decimalLimit) :
    readIteration (Nat.toDigits 10 n) = .ok n := by
  rw [readIteration, if_neg (Nat.not_lt.mpr h)]
  exact congrArg Except.ok Nat.ofDigitChars_ten_toDigits

theorem Decodable.legible (h : Decodable unit suite count) (iteration : Nat) (master seed : Seed) :
    (Tail.of iteration count master seed suite).Legible := by
  have hiteration : ∀ digits ∈ (Tail.of iteration count master seed suite).iteration,
      digits = Nat.toDigits 10 iteration := by
    intro digits hdigits
    unfold Tail.of at hdigits
    split at hdigits
    · rw [← toList_toString]
      exact (Option.some.inj hdigits).symm
    · cases hdigits
  refine ⟨?_, ?_, ?_, ?_, ?_⟩
  · rintro digits hdigits
    rw [hiteration digits hdigits]
    exact Nat.toDigits_ne_nil
  · intro digits hdigits c hc
    rw [hiteration digits hdigits] at hc
    exact isDigit_of_mem_toDigits hc
  · exact SeedChain.inner_ne_nil (List.cons_ne_nil _ _)
  · exact fun c hc => SeedChain.isBodyChar_of_mem_inner hc
  · rintro _ ⟨⟩
    exact h.suite_line

/-- No seeds start within the unit of a name. -/
theorem Decodable.startsNoSeeds (h : Decodable unit suite count) (iteration : Int)
    (master seed : Seed) {suffix : List Char} (hne : suffix ≠ [])
    (hsuffix : suffix <:+ unit.toList) :
    StartsNoSeeds (suffix ++ (Tail.of iteration count master seed suite).written) := by
  unfold Tail.written Tail.index Tail.of
  by_cases hcount : count > 1
  -- An index of the unit cannot be taken for that of the name, which starts with a mark of its own.
  · rw [if_pos hcount]
    refine startsNoSeeds_append hne (h.unit_unbracketed.suffix hsuffix) (by simp) rfl ?_
    rintro _ _ _ _ blank rest heq
    obtain ⟨rfl, -⟩ := List.cons.inj heq
    decide
  · rw [if_neg hcount]
    refine startsNoSeeds_append hne (h.unit_unbracketed.suffix hsuffix) (by simp [Tail.bracketed])
      rfl ?_
    intro digits hdigits hall heq
    exact absurd (heq ▸ hsuffix) (h.unnumbered (by omega) digits hdigits hall)

theorem Decodable.unbracketed_closing (h : Decodable unit suite count) (iteration : Int)
    (master seed : Seed) : Unbracketed (Tail.of iteration count master seed suite).closing := by
  refine List.isChain_cons.mpr ⟨fun _ _ hblank => absurd hblank (by decide), ?_⟩
  refine List.isChain_append.mpr ⟨h.suite_unbracketed, List.isChain_singleton _, ?_⟩
  rintro _ _ _ ⟨⟩ _
  decide

/-- A name is read back as what it was written for. -/
theorem Decodable.parse_format (h : Decodable unit suite count) (iteration : Nat)
    (master seed : Seed) (hdigits : (Nat.toDigits 10 iteration).length ≤ Integer.decimalLimit) :
    parse (format unit iteration count master seed suite) =
      .ok { unit, iteration := if count > 1 then some iteration else none,
            chain := [master, seed], suite := some suite } := by
  have hunit : unit.toList ≠ [] := fun hnil => h.unit_ne_empty (String.toList_eq_nil_iff.mp hnil)
  have hsplit := splitUnit?_append hunit h.unit_line
    (fun suffix hne hsuffix => h.startsNoSeeds iteration master seed hne hsuffix)
    (readTail?_written (h.legible iteration master seed)) []
  have hchain : SeedChain.parse (String.ofList (SeedChain.inner [master, seed])) =
      .ok [master, seed] :=
    SeedChain.parse_of_body (List.cons_ne_nil _ _) (SeedChain.body_inner _)
  have hiteration : (Tail.of iteration count master seed suite).iteration.mapM readIteration =
      .ok (if count > 1 then some iteration else none) := by
    unfold Tail.of
    split
    · rw [Option.mapM_some, toList_toString, readIteration_toDigits hdigits]
      rfl
    · rfl
  -- The scan has cut the name into its parts, and these are read one by one.
  rw [parse, toList_format, hsplit]
  dsimp only
  rw [hiteration]
  simp only [Tail.of, hchain, Option.map_some, String.ofList_toList, List.reverse_nil,
    List.nil_append]
  rfl

/-- The seeds of a name are stripped with the index before them, and nothing else is. -/
theorem Decodable.strip_format (h : Decodable unit suite count) (iteration : Nat)
    (master seed : Seed) :
    strip (format unit iteration count master seed suite) = unit ++ "(" ++ suite ++ ")" := by
  -- The scan is bounded by the length of the name, so there is enough left for the closing.
  obtain ⟨more, hmore⟩ : ∃ more, (Tail.of iteration count master seed suite).written.length =
      (Tail.of iteration count master seed suite).closing.length + more + 1 := by
    refine ⟨(Tail.of iteration count master seed suite).index.length +
      (Tail.of iteration count master seed suite).chain.length + 2, ?_⟩
    simp only [Tail.written, Tail.bracketed, List.length_append, List.length_cons]
    omega
  have hstart : ∀ suffix ≠ [], suffix <:+ unit.toList → StartsNoSeeds
      (suffix ++ (Tail.of iteration count master seed suite).written) :=
    fun suffix hne hsuffix => h.startsNoSeeds iteration master seed hne hsuffix
  rw [strip, toList_format, List.length_append, stripWithin_append hstart, hmore,
    stripWithin_of_dropSeeds? (dropSeeds?_written (h.legible iteration master seed)),
    stripWithin_eq_self (h.unbracketed_closing iteration master seed)]
  simp [Tail.of, Tail.closing, String.ofList_append, String.append_assoc]

/-- Names decode: the parts of a name are found again, and its seeds are stripped, whatever marks,
digits, brackets and parentheses the unit and the suite hold. -/
theorem parse_and_strip_format (h : Decodable unit suite count) (iteration : Nat)
    (master seed : Seed) (hdigits : (Nat.toDigits 10 iteration).length ≤ Integer.decimalLimit) :
    parse (format unit iteration count master seed suite) =
        .ok { unit, iteration := if count > 1 then some iteration else none,
              chain := [master, seed], suite := some suite } ∧
      strip (format unit iteration count master seed suite) = unit ++ "(" ++ suite ++ ")" :=
  ⟨h.parse_format iteration master seed hdigits, h.strip_format iteration master seed⟩

/-- A unit that ends like an index, in a suite that ends like a chain. -/
theorem parse_and_strip_numbered :
    parse (format "x#5" 3 7 1 0xAB "(a)[1:2]") =
        .ok { unit := "x#5", iteration := some 3, chain := [1, 0xAB], suite := some "(a)[1:2]" } ∧
      strip (format "x#5" 3 7 1 0xAB "(a)[1:2]") = "x#5((a)[1:2])" := by
  have hdecodable : Decodable "x#5" "(a)[1:2]" 7 :=
    ⟨by decide, by decide, by decide, by decide, by decide, fun h => absurd h (by decide)⟩
  have hread := parse_and_strip_format hdecodable 3 1 0xAB (by decide)
  exact ⟨hread.1, hread.2.trans (by decide)⟩

end Names

end SeededTesting.DisplayName

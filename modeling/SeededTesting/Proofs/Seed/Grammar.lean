import SeededTesting.Proofs.Seed.Canonical

/-! # The grammar of chains

A chain is components between single marks, each of them hexadecimal digits of either case that
denote a word; blanks and either bracket may surround it. The reader accepts just these texts, but
for one more: it does not mind a line break before the closing bracket.
-/

namespace SeededTesting

open Text

namespace SeedChain

/-! ## Texts of chains -/

/-- Digits, at least one, that denote a seed. -/
structure Component (part : List Char) (seed : Seed) : Prop where
  ne_nil : part ≠ []
  value : ∃ values : List Nat, part.map Hex.value? = values.map some ∧
    Nat.ofDigits 16 values.reverse = seed.toNat

/-- Components with single marks between them denote their seeds in order. -/
inductive Denotes : List Char → List Seed → Prop where
  | last {part : List Char} {seed : Seed} (h : Component part seed) : Denotes part [seed]
  | next {part rest : List Char} {seed : Seed} {seeds : List Seed} (h : Component part seed)
      (hrest : Denotes rest seeds) : Denotes (part ++ separator :: rest) (seed :: seeds)

/-- Components among blanks, perhaps after an opening bracket, and before one of the given
closings. -/
def Written (closings : List String) (text : String) (seeds : List Seed) : Prop :=
  ∃ before opening core closing after : String,
    (∀ c ∈ before.toList, isBlank c = true) ∧ (∀ c ∈ after.toList, isBlank c = true) ∧
      opening ∈ ["", "["] ∧ closing ∈ closings ∧
        text = before ++ (opening ++ (core ++ closing)) ++ after ∧ Denotes core.toList seeds

/-! ## Components -/

/-- What may follow the last component of a body. -/
def Ending (rest : List Char) : Prop :=
  rest = [] ∨ rest = ['\n']

/-- A component denotes what its digits are read as, and so it does before a line break. -/
theorem parse_component_iff {part rest : List Char} {seed : Seed}
    (hpart : ∀ c ∈ part, Hex.isDigit c = true) (hrest : Ending rest) :
    Seed.parse (String.ofList (part ++ rest)) = .ok seed ↔ Component part seed := by
  by_cases hne : part = []
  · have hnone : Integer.parse? .hexadecimal rest = none := by
      rcases hrest with rfl | rfl <;> decide
    subst hne
    rw [Seed.parse, String.toList_ofList, List.nil_append, hnone]
    constructor
    · rintro ⟨⟩
    · exact fun h => absurd rfl h.ne_nil
  obtain ⟨values, hvalues⟩ := Hex.exists_values hpart
  -- To the reader of a number a line break is padding.
  have hpadding : ∀ c ∈ rest, Integer.reduce c = c ∧ Integer.isPadding c = true := by
    rcases hrest with rfl | rfl
    · exact List.forall_mem_nil _
    · exact List.forall_mem_singleton.mpr (by decide +kernel)
  have hcomponent : Component part seed ↔ Nat.ofDigits 16 values.reverse = seed.toNat := by
    constructor
    · rintro ⟨_, values', hvalues', h⟩
      rwa [List.map_injective_iff.mpr (Option.some_injective _) (hvalues.symm.trans hvalues')]
    · exact fun h => ⟨hne, values, hvalues, h⟩
  have hnumber : Integer.ofDigits .hexadecimal values = Nat.ofDigits 16 values.reverse :=
    Integer.ofDigits_eq .hexadecimal values
  rw [hcomponent, Seed.parse, String.toList_ofList, Integer.parse?_of_values hvalues hne hpadding,
    hnumber]
  -- What is left is about one number, which is a seed just if it fits a word.
  generalize Nat.ofDigits 16 values.reverse = n
  dsimp only
  rw [Int.toNat_natCast]
  constructor
  · intro h
    split at h
    next hsize =>
      obtain ⟨-, hsize⟩ := hsize
      have hresidue := Seed.toNat_ofInt n
      rw [← Except.ok.inj h]
      simp only [UInt64.size] at hsize
      omega
    next => cases h
  · rintro rfl
    rw [if_pos ⟨Int.natCast_nonneg _, seed.toNat_lt_size⟩, Seed.ofInt_toNat]

namespace Component

variable {part : List Char} {seed : Seed}

theorem isDigit (h : Component part seed) : ∀ c ∈ part, Hex.isDigit c = true := by
  obtain ⟨values, hvalues, -⟩ := h.value
  exact Hex.isDigit_of_values hvalues

theorem plain (h : Component part seed) : ∀ c ∈ part, Hex.Plain c :=
  fun c hc => Hex.plain_of_isDigit (h.isDigit c hc)

theorem separator_not_mem (h : Component part seed) : separator ∉ part :=
  fun hmem => (h.plain _ hmem).unmarked (by decide)

end Component

/-! ## Bodies -/

namespace Denotes

variable {core : List Char} {seeds : List Seed}

theorem ne_nil (h : Denotes core seeds) : core ≠ [] := by
  cases h with
  | last h => exact h.ne_nil
  | next h _ => exact List.append_ne_nil_of_left_ne_nil h.ne_nil _

/-- Digits and marks are all that components and the marks between them consist of. -/
theorem plain (h : Denotes core seeds) : ∀ c ∈ core, c = separator ∨ Hex.Plain c := by
  induction h with
  | last h => exact fun c hc => .inr (h.plain c hc)
  | next h _ ih =>
      intro c hc
      rcases List.mem_append.mp hc with hc | hc
      · exact .inr (h.plain c hc)
      · rcases List.mem_cons.mp hc with rfl | hc
        · exact .inl rfl
        · exact ih c hc

theorem unblank (h : Denotes core seeds) : ∀ c ∈ core, isBlank c = false :=
  fun c hc => unblank_of_plain (h.plain c hc)

theorem bracket_not_mem (h : Denotes core seeds) : '[' ∉ core ∧ ']' ∉ core :=
  bracket_not_mem_of_plain h.plain

/-- The parts between marks are read one by one, also with a line break after the last. -/
theorem mapM_parse (h : Denotes core seeds) {rest : List Char} (hrest : Ending rest) :
    (∀ part ∈ split separator (core ++ rest), part ≠ []) ∧
      (split separator (core ++ rest)).mapM (fun part => Seed.parse (String.ofList part)) =
        .ok seeds := by
  -- The induction is on the grammar; only its last component has the line break behind it.
  induction h with
  | @last part seed h =>
      have hmark : separator ∉ part ++ rest := by
        rw [List.mem_append, not_or]
        refine ⟨h.separator_not_mem, ?_⟩
        rcases hrest with rfl | rfl <;> decide
      have hseed := (parse_component_iff h.isDigit hrest).mpr h
      rw [split_of_not_mem hmark]
      refine ⟨fun p hp => ?_, ?_⟩
      · rw [List.mem_singleton.mp hp]
        exact List.append_ne_nil_of_left_ne_nil h.ne_nil _
      · rw [List.mapM_cons, hseed]
        rfl
  | @next part core seed seeds h _ ih =>
      have hseed := (parse_component_iff h.isDigit (.inl rfl)).mpr h
      rw [List.append_nil] at hseed
      rw [List.append_assoc, List.cons_append, split_append h.separator_not_mem]
      refine ⟨List.forall_mem_cons.mpr ⟨h.ne_nil, ih.1⟩, ?_⟩
      rw [List.mapM_cons, hseed, ih.2]
      rfl

end Denotes

/-- Whatever parts between marks are read as they denote. -/
theorem denotes_of_mapM {core rest : List Char} {seeds : List Seed}
    (hcore : ∀ c ∈ core, isBodyChar c = true) (hrest : Ending rest)
    (h : (split separator (core ++ rest)).mapM (fun part => Seed.parse (String.ofList part)) =
      .ok seeds) : Denotes core seeds := by
  have hdigit : ∀ {part : List Char}, (∀ c ∈ part, isBodyChar c = true) → separator ∉ part →
      ∀ c ∈ part, Hex.isDigit c = true := by
    intro part hpart hmark c hc
    have hchar := hpart c hc
    rw [isBodyChar, Bool.or_eq_true, beq_iff_eq] at hchar
    refine hchar.resolve_right ?_
    rintro rfl
    exact hmark hc
  -- The first mark, if there is one, ends the first component; what follows it is shorter.
  induction hlength : core.length using Nat.strong_induction_on generalizing core seeds with
  | _ length ih =>
      by_cases hmark : separator ∈ core
      · obtain ⟨part, core', rfl, hpart⟩ := List.eq_append_cons_of_mem hmark
        rw [List.append_assoc, List.cons_append, split_append hpart, List.mapM_cons] at h
        obtain ⟨seed, hseed, h⟩ := exists_of_bind_eq_ok h
        obtain ⟨seeds', hseeds, h⟩ := exists_of_bind_eq_ok h
        cases h
        rw [List.forall_mem_append, List.forall_mem_cons] at hcore
        obtain ⟨hchars, -, hchars'⟩ := hcore
        rw [← List.append_nil part, parse_component_iff (hdigit hchars hpart) (.inl rfl)] at hseed
        refine .next hseed (ih core'.length ?_ hchars' hseeds rfl)
        rw [← hlength, List.length_append, List.length_cons]
        omega
      · have hmark' : separator ∉ core ++ rest := by
          rw [List.mem_append, not_or]
          refine ⟨hmark, ?_⟩
          rcases hrest with rfl | rfl <;> decide
        rw [split_of_not_mem hmark', List.mapM_cons] at h
        obtain ⟨seed, hseed, h⟩ := exists_of_bind_eq_ok h
        cases h
        exact .last ((parse_component_iff (hdigit hcore hmark) hrest).mp hseed)

/-- The body of a chain is components between marks, and perhaps a line break after them. -/
theorem parse_eq_ok_iff_body {text : String} {seeds : List Seed} :
    parse text = .ok seeds ↔
      ∃ core rest, body text = core ++ rest ∧ Ending rest ∧ Denotes core seeds := by
  constructor
  · intro h
    unfold parse at h
    split at h
    next hbody =>
      dsimp only at h
      split at h
      next => cases h
      next =>
        rw [isBody, Bool.and_eq_true, Bool.or_eq_true, beq_iff_eq, beq_iff_eq] at hbody
        have hchars : ∀ c ∈ (body text).takeWhile isBodyChar, isBodyChar c = true :=
          fun c hc => List.mem_takeWhile_imp hc
        refine ⟨_, _, List.takeWhile_append_dropWhile.symm, hbody.2, ?_⟩
        rw [← List.takeWhile_append_dropWhile (p := isBodyChar) (l := body text)] at h
        exact denotes_of_mapM hchars hbody.2 h
    next => cases h
  · rintro ⟨core, rest, hbody, hrest, hcore⟩
    have hchars : ∀ c ∈ core, isBodyChar c = true := by
      intro c hc
      rcases hcore.plain c hc with rfl | hplain
      · decide
      · rw [isBodyChar, hplain.isDigit, Bool.true_or]
    -- No ending starts with a character of a body, so the reader cuts where the grammar does.
    have hends : rest.takeWhile isBodyChar = [] ∧ rest.dropWhile isBodyChar = rest := by
      rcases hrest with rfl | rfl <;> decide
    have hisBody : isBody (core ++ rest) = true := by
      rw [isBody, List.takeWhile_append_of_pos hchars, List.dropWhile_append_of_pos hchars,
        hends.1, hends.2, List.append_nil]
      rcases hrest with rfl | rfl <;> simp [hcore.ne_nil]
    obtain ⟨hparts, hread⟩ := hcore.mapM_parse hrest
    have hfull : (split separator (core ++ rest)).any List.isEmpty = false := by
      rw [List.any_eq_false]
      exact fun part hpart => by simpa using hparts part hpart
    rw [parse, hbody, hisBody, if_pos rfl]
    dsimp only
    rw [hfull, if_neg Bool.false_ne_true, hread]

/-! ## Around the body -/

theorem exists_opening (text : List Char) :
    ∃ opening : List Char, (opening = [] ∨ opening = ['[']) ∧
      text = opening ++ dropOpening text := by
  unfold dropOpening
  split
  next rest => exact ⟨['['], .inr rfl, rfl⟩
  next => exact ⟨[], .inl rfl, rfl⟩

theorem exists_closing (text : List Char) :
    ∃ closing : List Char, (closing = [] ∨ closing = [']']) ∧
      text = dropClosing text ++ closing := by
  unfold dropClosing
  split
  next rest hreverse =>
    refine ⟨[']'], .inr rfl, ?_⟩
    rw [← List.reverse_reverse text, hreverse, List.reverse_cons]
  next => exact ⟨[], .inl rfl, (List.append_nil text).symm⟩

/-- What a body may be followed by, as long as blanks do not follow it: a line break stands before
a bracket only. -/
theorem mem_closings {rest closing : List Char} (hrest : Ending rest)
    (hclosing : closing = [] ∨ closing = [']'])
    (hlast : ∀ c ∈ (rest ++ closing).getLast?, isBlank c = false) :
    String.ofList (rest ++ closing) ∈ ["", "]", "\n]"] := by
  rcases hrest with rfl | rfl
  · rcases hclosing with rfl | rfl <;> decide
  · rcases hclosing with rfl | rfl
    · exact absurd (hlast '\n' rfl) (by decide)
    · decide

theorem written_of_body {text : String} {core rest : List Char} {seeds : List Seed}
    (hbody : body text = core ++ rest) (hrest : Ending rest) (hcore : Denotes core seeds) :
    Written ["", "]", "\n]"] text seeds := by
  obtain ⟨before, after, hbefore, hafter, htext, hlast⟩ := exists_surrounding isBlank text.toList
  obtain ⟨opening, hopening, htrimmed⟩ := exists_opening (trim text.toList)
  obtain ⟨closing, hclosing, hdropped⟩ := exists_closing (dropOpening (trim text.toList))
  unfold body at hbody
  rw [hdropped, hbody] at htrimmed
  change text.toList = before ++ trim text.toList ++ after at htext
  change ∀ c ∈ (trim text.toList).getLast?, isBlank c = false at hlast
  rw [htrimmed] at htext hlast
  refine ⟨.ofList before, .ofList opening, .ofList core, .ofList (rest ++ closing), .ofList after,
    by rwa [String.toList_ofList], by rwa [String.toList_ofList], ?_, ?_, ?_,
    by rwa [String.toList_ofList]⟩
  · rcases hopening with rfl | rfl <;> decide
  · refine mem_closings hrest hclosing fun c hc => hlast c ?_
    rw [List.append_assoc, List.getLast?_append, List.getLast?_append, hc]
    rfl
  · rw [← String.toList_inj, htext]
    simp

theorem body_eq_of_denotes {before opening core closing after : String} {seeds : List Seed}
    {rest mark : List Char} (hbefore : ∀ c ∈ before.toList, isBlank c = true)
    (hafter : ∀ c ∈ after.toList, isBlank c = true) (hopening : opening ∈ ["", "["])
    (hcore : Denotes core.toList seeds) (hclosing : closing.toList = rest ++ mark)
    (hrest : Ending rest) (hmark : mark = [] ∧ rest = [] ∨ mark = [']']) :
    body (before ++ (opening ++ (core ++ closing)) ++ after) = core.toList ++ rest := by
  have htext : before ++ (opening ++ (core ++ closing)) ++ after =
      String.ofList (before.toList ++ (opening.toList ++ (core.toList ++ rest ++ mark)) ++
        after.toList) := by
    rw [← String.toList_inj]
    simp [hclosing]
  have hopening' : opening.toList = [] ∨ opening.toList = ['['] := by
    simp only [List.mem_cons, List.not_mem_nil, or_false] at hopening
    exact hopening.imp (congrArg String.toList) (congrArg String.toList)
  have hunmarked : '[' ∉ core.toList ++ rest ∧ ']' ∉ core.toList ++ rest := by
    rw [List.mem_append, List.mem_append, not_or, not_or]
    refine ⟨⟨hcore.bracket_not_mem.1, ?_⟩, hcore.bracket_not_mem.2, ?_⟩
    · rcases hrest with rfl | rfl <;> decide
    · rcases hrest with rfl | rfl <;> decide
  rw [htext]
  -- Blanks are stripped up to a bracket or, where there is none, up to a component, and neither
  -- of these is blank.
  refine body_between hbefore hopening' hunmarked (hmark.imp_left And.left) hafter
    (fun c hc => ?_) fun c hc => ?_
  · rcases hopening' with h | h
    · rw [h, List.nil_append, List.append_assoc, List.head?_append_of_ne_nil _ hcore.ne_nil] at hc
      exact hcore.unblank c (List.mem_of_mem_head? hc)
    · rw [h] at hc
      cases hc
      decide
  · rcases hmark with ⟨rfl, rfl⟩ | rfl
    · rw [List.append_nil, List.append_nil, List.getLast?_append_of_ne_nil _ hcore.ne_nil] at hc
      exact hcore.unblank c (List.mem_of_mem_getLast? hc)
    · rw [← List.append_assoc, List.getLast?_concat] at hc
      cases hc
      decide

theorem body_of_written {text : String} {seeds : List Seed}
    (h : Written ["", "]", "\n]"] text seeds) :
    ∃ core rest, body text = core ++ rest ∧ Ending rest ∧ Denotes core seeds := by
  obtain ⟨before, opening, core, closing, after, hbefore, hafter, hopening, hclosing, rfl, hcore⟩ :=
    h
  simp only [List.mem_cons, List.not_mem_nil, or_false] at hclosing
  rcases hclosing with rfl | rfl | rfl
  · exact ⟨_, [], body_eq_of_denotes hbefore hafter hopening hcore rfl (.inl rfl)
      (.inl ⟨rfl, rfl⟩), .inl rfl, hcore⟩
  · exact ⟨_, [], body_eq_of_denotes hbefore hafter hopening hcore rfl (.inl rfl) (.inr rfl),
      .inl rfl, hcore⟩
  · exact ⟨_, ['\n'], body_eq_of_denotes hbefore hafter hopening hcore rfl (.inr rfl) (.inr rfl),
      .inr rfl, hcore⟩

theorem parse_eq_ok_iff {text : String} {seeds : List Seed} :
    parse text = .ok seeds ↔ Written ["", "]", "\n]"] text seeds := by
  rw [parse_eq_ok_iff_body]
  constructor
  · rintro ⟨core, rest, hbody, hrest, hcore⟩
    exact written_of_body hbody hrest hcore
  · exact body_of_written

/-- A chain is read just if it is written by the grammar, with a line break before the closing
bracket or without one; its seeds are those that the components denote. Any other text is refused
as a malformed seed. -/
theorem parse_iff_written (text : String) :
    (∀ seeds, parse text = .ok seeds ↔ Written ["", "]", "\n]"] text seeds) ∧
      ((∃ seeds, Written ["", "]", "\n]"] text seeds) ∨
        ∃ reason, parse text = .error reason ∧
          (SetupError.seed reason).complaint.kind = .named "SeedFormatError") := by
  refine ⟨fun seeds => parse_eq_ok_iff, ?_⟩
  cases hparse : parse text with
  | ok seeds => exact .inl ⟨seeds, parse_eq_ok_iff.mp hparse⟩
  | error reason => exact .inr ⟨reason, rfl, rfl⟩

/-- A line break before the closing bracket is read over, although it is no part of a chain. -/
theorem parse_line_break :
    parse "[1\n]" = .ok [1] ∧ ∀ seeds, ¬Written ["", "]"] "[1\n]" seeds := by
  refine ⟨by decide +kernel, fun seeds h => ?_⟩
  obtain ⟨before, opening, core, closing, after, hbefore, hafter, hopening, hclosing, htext,
    hcore⟩ := h
  have hbody : body "[1\n]" = core.toList := by
    rw [htext, ← List.append_nil core.toList]
    simp only [List.mem_cons, List.not_mem_nil, or_false] at hclosing
    rcases hclosing with rfl | rfl
    · exact body_eq_of_denotes hbefore hafter hopening hcore rfl (.inl rfl) (.inl ⟨rfl, rfl⟩)
    · exact body_eq_of_denotes hbefore hafter hopening hcore rfl (.inl rfl) (.inr rfl)
  have hline : '\n' ∈ core.toList := by
    rw [← hbody]
    decide +kernel
  exact absurd (hcore.unblank '\n' hline) (by decide)

end SeedChain
end SeededTesting

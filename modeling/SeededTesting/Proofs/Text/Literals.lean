import Mathlib.Data.List.Induction
import SeededTesting.Proofs.Text.Numerals

/-! # The grammar of decimal literals

A decimal literal is a sign, or none, and digits of any script with single underscores between
them, among blanks other than the information separators. The reader accepts just the literals of
at most 4300 digits, and reads the number that the digits denote in the scale of ten.
-/

namespace SeededTesting.Text

/-! ## Digits of every script -/

/-- What holds of every ASCII character but the last holds of a character below it. -/
theorem forall_ascii {P : Char → Prop} (h : ∀ n < 127, P (Char.ofNat n)) {c : Char}
    (hc : c.toNat < 127) : P c := by
  have hchar := h c.toNat hc
  rwa [Char.ofNat_toNat] at hchar

/-- A digit stands in the run of its script, as far from the zero as its value says. -/
theorem exists_zero_of_decimalValue? {c : Char} {value : Nat} (h : decimalValue? c = some value) :
    value < 10 ∧ ∃ first ∈ decimalZeros, c = Char.ofNat (first + value) := by
  obtain ⟨first, hfirst, rfl⟩ := Option.map_eq_some_iff.mp h
  have hrun := List.find?_some hfirst
  rw [Bool.and_eq_true, decide_eq_true_eq, decide_eq_true_eq] at hrun
  refine ⟨by omega, first, List.mem_of_find?_eq_some hfirst, ?_⟩
  rw [Nat.add_sub_of_le hrun.1, Char.ofNat_toNat]

/-- No digit is taken for what surrounds a literal, a sign or an underscore. -/
theorem unblank_of_decimalValue? {c : Char} {value : Nat} (h : decimalValue? c = some value) :
    isBlank c = false ∧ c ∉ ['+', '-', '_'] := by
  have hall : ∀ first ∈ decimalZeros, ∀ value < 10,
      isBlank (Char.ofNat (first + value)) = false ∧
        Char.ofNat (first + value) ∉ ['+', '-', '_'] := by
    decide +kernel
  obtain ⟨hvalue, first, hfirst, rfl⟩ := exists_zero_of_decimalValue? h
  exact hall first hfirst value hvalue

namespace Integer

/-! ## Literals -/

/-- Digits of any script with single underscores between them, and the values of the digits. -/
inductive Numeral : List Char → List Nat → Prop where
  | single {c : Char} {value : Nat} (h : decimalValue? c = some value) : Numeral [c] [value]
  | cons {c : Char} {rest : List Char} {value : Nat} {values : List Nat}
      (h : decimalValue? c = some value) (hrest : Numeral rest values) :
      Numeral (c :: rest) (value :: values)
  | underscore {c : Char} {rest : List Char} {value : Nat} {values : List Nat}
      (h : decimalValue? c = some value) (hrest : Numeral rest values) :
      Numeral (c :: '_' :: rest) (value :: values)

/-- What may stand around a literal: blanks other than the information separators. -/
def Outside (c : Char) : Prop :=
  isBlank c = true ∧ ¬(28 ≤ c.toNat ∧ c.toNat ≤ 31)

instance : DecidablePred Outside :=
  fun _ => inferInstanceAs (Decidable (_ ∧ _))

/-- The signs, and what they multiply a number by. -/
def signs : List (List Char × Int) :=
  [([], 1), (['+'], 1), (['-'], -1)]

/-- A sign or none, and a numeral of at most 4300 digits, denote a number. -/
def Signed (core : List Char) (n : Int) : Prop :=
  ∃ (sign : List Char) (factor : Int) (digits : List Char) (values : List Nat),
    (sign, factor) ∈ signs ∧ core = sign ++ digits ∧ Numeral digits values ∧
      values.length ≤ 4300 ∧ n = factor * (Nat.ofDigits 10 values.reverse : Nat)

/-- A decimal literal of at most 4300 digits denotes a number. -/
def Literal (text : String) (n : Int) : Prop :=
  ∃ before core after : String,
    (∀ c ∈ before.toList, Outside c) ∧ (∀ c ∈ after.toList, Outside c) ∧
      text = before ++ core ++ after ∧ Signed core.toList n

/-! ## Reduced characters -/

/-- What becomes of a character: ASCII is kept, a blank becomes a space and a digit its ASCII form;
all else is kept, too. -/
theorem reduce_cases (c : Char) :
    c.toNat < 127 ∧ reduce c = c ∨
      127 ≤ c.toNat ∧ isBlank c = true ∧ reduce c = ' ' ∨
      127 ≤ c.toNat ∧ isBlank c = false ∧
        ((∃ value < 10, decimalValue? c = some value ∧ reduce c = Char.ofNat (48 + value)) ∨
          decimalValue? c = none ∧ reduce c = c) := by
  by_cases hascii : c.toNat < 127
  · exact .inl ⟨hascii, if_pos hascii⟩
  have hbeyond := Nat.le_of_not_lt hascii
  unfold reduce
  rw [if_neg hascii]
  cases hblank : isBlank c with
  | true => exact .inr (.inl ⟨hbeyond, rfl, rfl⟩)
  | false =>
      refine .inr (.inr ⟨hbeyond, rfl, ?_⟩)
      cases hvalue : decimalValue? c with
      | none => exact .inr ⟨rfl, rfl⟩
      | some value =>
          exact .inl ⟨value, (exists_zero_of_decimalValue? hvalue).1, rfl, rfl⟩

theorem not_isPadding {c : Char} (h : 127 ≤ c.toNat) : isPadding c = false := by
  have hspace : c ≠ ' ' := by
    rintro rfl
    exact absurd h (by decide)
  have hcontrol : ¬c.toNat ≤ 13 := by omega
  simp [isPadding, hspace, hcontrol]

/-- Blanks but the separators are padding, once they are reduced. -/
theorem isPadding_reduce_iff {c : Char} : isPadding (reduce c) = true ↔ Outside c := by
  rcases reduce_cases c with ⟨hascii, heq⟩ | ⟨hbeyond, hblank, heq⟩ | ⟨hbeyond, hblank, hkept⟩
  · rw [heq]
    exact forall_ascii (P := fun c => isPadding c = true ↔ Outside c) (by decide +kernel) hascii
  · rw [heq]
    exact iff_of_true rfl ⟨hblank, by omega⟩
  · have houtside : ¬Outside c := fun h => absurd (hblank.symm.trans h.1) Bool.false_ne_true
    rcases hkept with ⟨value, hvalue, -, heq⟩ | ⟨-, heq⟩
    · have hdigit : ∀ value < 10, isPadding (Char.ofNat (48 + value)) ≠ true := by decide
      rw [heq]
      exact iff_of_false (hdigit value hvalue) houtside
    · rw [heq, not_isPadding hbeyond]
      exact iff_of_false Bool.false_ne_true houtside

/-- A reduced digit has its value. -/
theorem digitValue?_reduce (c : Char) : digitValue? .decimal (reduce c) = decimalValue? c := by
  rcases reduce_cases c with ⟨hascii, heq⟩ | ⟨hbeyond, hblank, heq⟩ | ⟨hbeyond, -, hkept⟩
  · rw [heq]
    exact forall_ascii (P := fun c => digitValue? .decimal c = decimalValue? c)
      (by decide +kernel) hascii
  · rw [heq]
    cases hvalue : decimalValue? c with
    | none => rfl
    | some value =>
        exact absurd ((unblank_of_decimalValue? hvalue).1.symm.trans hblank) Bool.false_ne_true
  · rcases hkept with ⟨value, hvalue, hc, heq⟩ | ⟨hc, heq⟩
    · have hdigit : ∀ value < 10,
          digitValue? .decimal (Char.ofNat (48 + value)) = some value := by decide
      rw [heq, hc, hdigit value hvalue]
    · rw [heq, hc, digitValue?, Hex.value?, if_neg (by omega), if_neg (by omega),
        if_neg (by omega)]
      rfl

/-- Signs and underscores are not made by reduction. -/
theorem reduce_eq_iff {c mark : Char} (h : mark ∈ ['+', '-', '_']) :
    reduce c = mark ↔ c = mark := by
  obtain ⟨hascii, hspace, hdigit⟩ : mark.toNat < 127 ∧ mark ≠ ' ' ∧
      ∀ value < 10, Char.ofNat (48 + value) ≠ mark := by
    simp only [List.mem_cons, List.not_mem_nil, or_false] at h
    rcases h with rfl | rfl | rfl <;> decide
  rcases reduce_cases c with ⟨-, heq⟩ | ⟨hbeyond, -, heq⟩ | ⟨hbeyond, -, hkept⟩
  · rw [heq]
  · rw [heq]
    refine iff_of_false hspace.symm ?_
    rintro rfl
    omega
  · rcases hkept with ⟨value, hvalue, -, heq⟩ | ⟨-, heq⟩
    · rw [heq]
      refine iff_of_false (hdigit value hvalue) ?_
      rintro rfl
      omega
    · rw [heq]

/-! ## Digits -/

namespace Numeral

variable {core : List Char} {values : List Nat}

theorem lt_ten (h : Numeral core values) : ∀ value ∈ values, value < 10 := by
  induction h with
  | single h => exact List.forall_mem_singleton.mpr (exists_zero_of_decimalValue? h).1
  | cons h _ ih | underscore h _ ih =>
      exact List.forall_mem_cons.mpr ⟨(exists_zero_of_decimalValue? h).1, ih⟩

/-- A numeral starts with a digit. -/
theorem exists_cons (h : Numeral core values) :
    ∃ c rest value, core = c :: rest ∧ decimalValue? c = some value := by
  cases h with
  | single h | cons h _ | underscore h _ => exact ⟨_, _, _, rfl, h⟩

/-- Nothing of a numeral is taken for what surrounds a literal. -/
theorem not_outside (h : Numeral core values) : ∀ c ∈ core, ¬Outside c := by
  have hdigit : ∀ {c : Char} {value : Nat}, decimalValue? c = some value → ¬Outside c :=
    fun h hc => absurd ((unblank_of_decimalValue? h).1.symm.trans hc.1) Bool.false_ne_true
  induction h with
  | single h => exact List.forall_mem_singleton.mpr (hdigit h)
  | cons h _ ih => exact List.forall_mem_cons.mpr ⟨hdigit h, ih⟩
  | underscore h _ ih =>
      exact List.forall_mem_cons.mpr ⟨hdigit h, List.forall_mem_cons.mpr ⟨by decide, ih⟩⟩

end Numeral

theorem reduce_eq_underscore_iff {c : Char} : reduce c = '_' ↔ c = '_' :=
  reduce_eq_iff (by decide)

theorem numeral_of_digits? {core : List Char} {values : List Nat}
    (h : digits? .decimal (core.map reduce) = some values) : Numeral core values := by
  -- The reader looks at two characters, and goes on after both if the second is an underscore.
  induction core using List.twoStepInduction generalizing values with
  | nil => cases h
  | singleton c =>
      obtain ⟨value, hvalue, rfl⟩ := Option.map_eq_some_iff.mp h
      exact .single ((digitValue?_reduce c).symm.trans hvalue)
  | cons_cons c d rest ih ihd =>
      by_cases hd : d = '_'
      · rw [List.map_cons, List.map_cons, reduce_eq_underscore_iff.mpr hd, digits?,
          digitValue?_reduce] at h
        obtain ⟨value, hvalue, h⟩ := Option.bind_eq_some_iff.mp h
        obtain ⟨values', hvalues, h⟩ := Option.bind_eq_some_iff.mp h
        cases h
        exact hd ▸ .underscore hvalue (ih hvalues)
      · rw [List.map_cons, List.map_cons, digits?_cons (mt reduce_eq_underscore_iff.mp hd),
          digitValue?_reduce] at h
        obtain ⟨value, hvalue, h⟩ := Option.bind_eq_some_iff.mp h
        obtain ⟨values', hvalues, h⟩ := Option.bind_eq_some_iff.mp h
        cases h
        exact .cons hvalue (ihd _ hvalues)

theorem Numeral.digits? {core : List Char} {values : List Nat} (h : Numeral core values) :
    digits? .decimal (core.map reduce) = some values := by
  induction h with
  | single h => rw [List.map_singleton, Integer.digits?, digitValue?_reduce, h, Option.map_some]
  | cons h hrest ih =>
      obtain ⟨d, rest, value, rfl, hd⟩ := hrest.exists_cons
      have hnext : reduce d ≠ '_' := by
        rw [ne_eq, reduce_eq_underscore_iff]
        rintro rfl
        exact (unblank_of_decimalValue? hd).2 (by decide)
      rw [List.map_cons] at ih ⊢
      rw [List.map_cons, digits?_cons hnext, digitValue?_reduce, h, ih]
      rfl
  | underscore h _ ih =>
      rw [List.map_cons, List.map_cons, reduce_eq_underscore_iff.mpr rfl, Integer.digits?,
        digitValue?_reduce, h, ih]
      rfl

/-- The reader of digits takes just the numerals, once they are reduced. -/
theorem digits?_eq_some_iff {core : List Char} {values : List Nat} :
    digits? .decimal (core.map reduce) = some values ↔ Numeral core values :=
  ⟨numeral_of_digits?, Numeral.digits?⟩

theorem magnitude?_decimal (text : List Char) :
    magnitude? .decimal text = ((digits? .decimal text).filter fun values =>
      values.length ≤ 4300).map (ofDigits .decimal) := by
  have hmark : dropMark .decimal text = text := by
    unfold dropMark
    split <;> trivial
  rw [magnitude?, hmark]
  cases digits? .decimal text with
  | none => rfl
  | some values =>
      by_cases hshort : values.length ≤ 4300
      · simp [guard, decimalLimit, hshort]
      · simp [guard, decimalLimit, hshort, Nat.lt_of_not_le hshort]

/-- A numeral that is not too long has the number that its digits denote. -/
theorem magnitude?_eq_some_iff {core : List Char} {n : Nat} :
    magnitude? .decimal (core.map reduce) = some n ↔
      ∃ values, Numeral core values ∧ values.length ≤ 4300 ∧
        n = Nat.ofDigits 10 values.reverse := by
  simp only [magnitude?_decimal, Option.map_eq_some_iff, Option.filter_eq_some_iff,
    digits?_eq_some_iff, decide_eq_true_eq, ofDigits_eq, and_assoc, eq_comm (b := n), Radix.base]

/-! ## Signs -/

/-- The number of a literal that nothing surrounds. -/
def signed? (radix : Radix) : List Char → Option Int
  | '+' :: rest => (magnitude? radix rest).map Int.ofNat
  | '-' :: rest => (magnitude? radix rest).map fun n => -Int.ofNat n
  | rest => (magnitude? radix rest).map Int.ofNat

theorem parse?_eq_signed? (radix : Radix) (text : List Char) :
    parse? radix text = signed? radix (trimBy isPadding (text.map reduce)) :=
  rfl

theorem signed?_of_unsigned {radix : Radix} {text : List Char}
    (h : ∀ c ∈ text.head?, c ∉ ['+', '-']) :
    signed? radix text = (magnitude? radix text).map Int.ofNat := by
  unfold signed?
  split
  next => exact absurd (by decide) (h '+' rfl)
  next => exact absurd (by decide) (h '-' rfl)
  next => rfl

/-- Reduction keeps the sign, and adds none. -/
theorem unsigned_reduce {text : List Char} (h : ∀ c ∈ text.head?, c ∉ ['+', '-']) :
    ∀ c ∈ (text.map reduce).head?, c ∉ ['+', '-'] := by
  intro c hc hmem
  rw [List.head?_map] at hc
  obtain ⟨d, hd, rfl⟩ := Option.map_eq_some_iff.mp hc
  have hkept : reduce d = d := ((reduce_eq_iff (List.mem_append_left ['_'] hmem)).mp rfl).symm
  rw [hkept] at hmem
  exact h d hd hmem

theorem signed_of_magnitude? {sign digits : List Char} {factor n : Int} {f : Nat → Int}
    (hsign : (sign, factor) ∈ signs) (hf : ∀ m : Nat, f m = factor * m)
    (h : (magnitude? .decimal (digits.map reduce)).map f = some n) : Signed (sign ++ digits) n := by
  obtain ⟨m, hm, rfl⟩ := Option.map_eq_some_iff.mp h
  obtain ⟨values, hvalues, hshort, rfl⟩ := magnitude?_eq_some_iff.mp hm
  exact ⟨sign, factor, digits, values, hsign, rfl, hvalues, hshort, hf _⟩

theorem signed_of_signed? {core : List Char} {n : Int}
    (h : signed? .decimal (core.map reduce) = some n) : Signed core n := by
  by_cases hunsigned : ∀ c ∈ core.head?, c ∉ ['+', '-']
  · rw [signed?_of_unsigned (unsigned_reduce hunsigned)] at h
    exact signed_of_magnitude? (.head _) (fun m => (Int.one_mul m).symm) h
  · push Not at hunsigned
    obtain ⟨c, hc, hsign⟩ := hunsigned
    obtain ⟨rest, rfl⟩ := List.head?_eq_some_iff.mp hc
    rw [List.map_cons, (reduce_eq_iff (List.mem_append_left ['_'] hsign)).mpr rfl] at h
    simp only [List.mem_cons, List.not_mem_nil, or_false] at hsign
    rcases hsign with rfl | rfl
    · exact signed_of_magnitude? (.tail _ (.head _)) (fun m => (Int.one_mul m).symm) h
    · exact signed_of_magnitude? (.tail _ (.tail _ (.head _))) (fun m => (Int.neg_one_mul m).symm) h

theorem Signed.signed? {core : List Char} {n : Int} (h : Signed core n) :
    signed? .decimal (core.map reduce) = some n := by
  obtain ⟨sign, factor, digits, values, hsign, rfl, hvalues, hshort, rfl⟩ := h
  have hread := magnitude?_eq_some_iff.mpr ⟨values, hvalues, hshort, rfl⟩
  simp only [signs, List.mem_cons, Prod.mk.injEq, List.not_mem_nil, or_false] at hsign
  rcases hsign with ⟨rfl, rfl⟩ | ⟨rfl, rfl⟩ | ⟨rfl, rfl⟩
  · obtain ⟨c, rest, value, rfl, hc⟩ := hvalues.exists_cons
    rw [List.nil_append, signed?_of_unsigned, hread, Option.map_some, Int.one_mul]
    · rfl
    · refine unsigned_reduce ?_
      rintro _ ⟨⟩ hmem
      exact (unblank_of_decimalValue? hc).2 (List.mem_append_left ['_'] hmem)
  · rw [List.map_append, Int.one_mul]
    exact congrArg (Option.map Int.ofNat) hread
  · rw [List.map_append, Int.neg_one_mul]
    exact congrArg (Option.map fun n => -Int.ofNat n) hread

/-! ## Reading -/

theorem trimBy_map {p : Char → Bool} {f : Char → Char} (text : List Char) :
    trimBy p (text.map f) = (trimBy (p ∘ f) text).map f := by
  rw [trimBy, List.dropWhile_map, ← List.map_reverse, List.dropWhile_map, ← List.map_reverse,
    trimBy]

theorem Signed.not_outside {core : List Char} {n : Int} (h : Signed core n) :
    ∀ c ∈ core, ¬Outside c := by
  obtain ⟨sign, factor, digits, values, hsign, rfl, hvalues, -, -⟩ := h
  have hsigns : ∀ sign ∈ signs, sign.1.all (fun c => decide ¬Outside c) = true := by
    decide
  refine List.forall_mem_append.mpr ⟨fun c hc => ?_, hvalues.not_outside⟩
  exact of_decide_eq_true (List.all_eq_true.mp (hsigns _ hsign) c hc)

/-- A text is read just if it is a literal of at most 4300 digits, as the number it denotes. -/
theorem parse?_eq_some_iff {text : String} {n : Int} :
    parse? .decimal text.toList = some n ↔ Literal text n := by
  rw [parse?_eq_signed?, trimBy_map]
  constructor
  · intro h
    obtain ⟨before, after, hbefore, hafter, htext, -⟩ :=
      exists_surrounding (isPadding ∘ reduce) text.toList
    refine ⟨.ofList before, .ofList (trimBy (isPadding ∘ reduce) text.toList), .ofList after,
      ?_, ?_, ?_, ?_⟩
    · rw [String.toList_ofList]
      exact fun c hc => isPadding_reduce_iff.mp (hbefore c hc)
    · rw [String.toList_ofList]
      exact fun c hc => isPadding_reduce_iff.mp (hafter c hc)
    · rw [← String.ofList_append, ← String.ofList_append, ← htext, String.ofList_toList]
    · rw [String.toList_ofList]
      exact signed_of_signed? h
  · rintro ⟨before, core, after, hbefore, hafter, rfl, hcore⟩
    -- Nothing within a literal is padding, so all of it is left when the text is trimmed.
    have hinside : ∀ c ∈ core.toList, (isPadding ∘ reduce) c = false :=
      fun c hc => Bool.eq_false_iff.mpr fun h => hcore.not_outside c hc (isPadding_reduce_iff.mp h)
    rw [String.toList_append, String.toList_append, trimBy_append _ hinside]
    · exact hcore.signed?
    · exact fun c hc => isPadding_reduce_iff.mpr (hafter c hc)
    · exact fun c hc => isPadding_reduce_iff.mpr (hbefore c hc)

example : Literal "\t-٣_0\u2003" (-30) :=
  parse?_eq_some_iff.mp (by decide +kernel)

namespace Literal

variable {text : String} {n : Int}

/-- A text denotes one number at most. -/
theorem eq {m : Int} (h : Literal text n) (h' : Literal text m) : n = m :=
  Option.some.inj ((parse?_eq_some_iff.mpr h).symm.trans (parse?_eq_some_iff.mpr h'))

theorem exists_unblank (h : Literal text n) : ∃ c ∈ text.toList, isBlank c = false := by
  obtain ⟨before, core, after, -, -, rfl, sign, _, digits, _, -, hcore, hvalues, -, -⟩ := h
  obtain ⟨c, rest, value, rfl, hc⟩ := hvalues.exists_cons
  refine ⟨c, ?_, (unblank_of_decimalValue? hc).1⟩
  rw [String.toList_append, String.toList_append, hcore]
  simp

/-- What a literal denotes is no longer than a literal. -/
theorem length_toDigits_le (h : Literal text n) : (Nat.toDigits 10 n.natAbs).length ≤ 4300 := by
  obtain ⟨-, -, -, -, -, -, sign, factor, digits, values, hsign, -, hvalues, hshort, rfl⟩ := h
  have hfactor : ∀ sign ∈ signs, sign.2.natAbs = 1 := by decide
  have hbound : ∀ {width : Nat}, values.length ≤ width →
      Nat.ofDigits 10 values.reverse < 10 ^ width := by
    intro width hwidth
    refine Nat.lt_of_lt_of_le (Nat.ofDigits_lt_base_pow_length (by decide) ?_)
      (Nat.pow_le_pow_right (by decide) (List.length_reverse.trans_le hwidth))
    exact fun value hvalue => hvalues.lt_ten value (List.mem_reverse.mp hvalue)
  rw [Int.natAbs_mul, hfactor _ hsign, Nat.one_mul, Int.natAbs_natCast]
  exact Nat.toDigits_length 10 _ _ (by decide) (hbound hshort)

end Literal
end Integer
end SeededTesting.Text

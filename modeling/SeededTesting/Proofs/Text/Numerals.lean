import Mathlib.Data.List.TakeWhile
import Mathlib.Data.Nat.Digits.Defs
import SeededTesting.Text.Integer

/-! # Literals read back

The digits that a number is written with denote it. They are plain: nothing that a reader treats as
a blank, a sign, a mark or a separator is among them.
-/

namespace SeededTesting.Text

/-! ## Trimming -/

/-- What surrounds a text is dropped, up to the first and the last character that do not belong to
it. -/
theorem trimBy_between {outside : Char → Bool} {before text after : List Char}
    (hbefore : ∀ c ∈ before, outside c = true) (hfirst : ∀ c ∈ text.head?, outside c = false)
    (hlast : ∀ c ∈ text.getLast?, outside c = false) (hafter : ∀ c ∈ after, outside c = true) :
    trimBy outside (before ++ text ++ after) = text := by
  have hkeep : ∀ l rest : List Char, l ≠ [] → (∀ c ∈ l.head?, outside c = false) →
      (l ++ rest).dropWhile outside = l ++ rest := by
    intro l rest hne hl
    obtain ⟨c, l, rfl⟩ := List.exists_cons_of_ne_nil hne
    have hc := hl c rfl
    rw [List.cons_append, List.dropWhile_cons, hc, if_neg Bool.false_ne_true]
  rw [trimBy, List.append_assoc, List.dropWhile_append_of_pos hbefore]
  by_cases hempty : text = []
  · rw [hempty, List.nil_append, List.dropWhile_eq_nil_iff.mpr hafter]
    rfl
  · have hreverse : (text.reverse ++ []).dropWhile outside = text.reverse ++ [] := by
      apply hkeep
      · simpa using hempty
      · simpa using hlast
    rw [hkeep text after hempty hfirst, List.reverse_append,
      List.dropWhile_append_of_pos (by simpa using hafter), ← List.append_nil text.reverse,
      hreverse, List.append_nil, List.reverse_reverse]

/-- What surrounds a text is dropped. -/
theorem trimBy_append {outside : Char → Bool} {before text after : List Char}
    (hbefore : ∀ c ∈ before, outside c = true) (htext : ∀ c ∈ text, outside c = false)
    (hafter : ∀ c ∈ after, outside c = true) :
    trimBy outside (before ++ text ++ after) = text :=
  trimBy_between hbefore (fun c hc => htext c (List.mem_of_mem_head? hc))
    (fun c hc => htext c (List.mem_of_mem_getLast? hc)) hafter

/-- A text is what is left of it among what is dropped, and does not end in the latter. -/
theorem exists_surrounding (outside : Char → Bool) (text : List Char) :
    ∃ before after, (∀ c ∈ before, outside c = true) ∧ (∀ c ∈ after, outside c = true) ∧
      text = before ++ trimBy outside text ++ after ∧
      ∀ c ∈ (trimBy outside text).getLast?, outside c = false := by
  let rest := text.dropWhile outside
  refine ⟨text.takeWhile outside, (rest.reverse.takeWhile outside).reverse,
    fun c hc => List.mem_takeWhile_imp hc,
    fun c hc => List.mem_takeWhile_imp (List.mem_reverse.mp hc), ?_, ?_⟩
  · have hrest : trimBy outside text ++ (rest.reverse.takeWhile outside).reverse = rest := by
      rw [trimBy, ← List.reverse_append, List.takeWhile_append_dropWhile, List.reverse_reverse]
    rw [List.append_assoc, hrest, List.takeWhile_append_dropWhile]
  · intro c hc
    have hhead := List.head?_dropWhile_not outside rest.reverse
    rw [trimBy, List.getLast?_reverse] at hc
    rwa [hc] at hhead

theorem trimBy_eq_nil_iff {outside : Char → Bool} {text : List Char} :
    trimBy outside text = [] ↔ ∀ c ∈ text, outside c = true := by
  constructor
  · intro h
    obtain ⟨before, after, hbefore, hafter, htext, -⟩ := exists_surrounding outside text
    rw [htext, h, List.append_nil]
    exact List.forall_mem_append.mpr ⟨hbefore, hafter⟩
  · intro h
    have htrim := trimBy_append h (List.forall_mem_nil _) (List.forall_mem_nil _)
    rwa [List.append_nil, List.append_nil] at htrim

theorem isEmpty_trim_iff {text : List Char} :
    (trim text).isEmpty = true ↔ ∀ c ∈ text, isBlank c = true := by
  rw [List.isEmpty_iff, trim, trimBy_eq_nil_iff]

/-! ## Digits -/

namespace Hex

/-- What a digit of a literal is to its readers. -/
structure Plain (c : Char) : Prop where
  isDigit : isDigit c = true
  unblank : isBlank c = false
  unpadded : Integer.isPadding c = false
  reduced : Integer.reduce c = c
  unmarked : c ∉ ['+', '-', '_', 'x', 'X', ':', '[', ']']

instance (c : Char) : Decidable (Plain c) :=
  decidable_of_iff (Hex.isDigit c = true ∧ isBlank c = false ∧ Integer.isPadding c = false ∧
    Integer.reduce c = c ∧ c ∉ ['+', '-', '_', 'x', 'X', ':', '[', ']'])
    ⟨fun ⟨a, b, c, d, e⟩ => ⟨a, b, c, d, e⟩, fun ⟨a, b, c, d, e⟩ => ⟨a, b, c, d, e⟩⟩

theorem plain_digit : ∀ value < 16, Plain (digit value) := by
  decide +kernel

theorem value?_digit : ∀ value < 16, value? (digit value) = some value := by
  decide

theorem value?_lt {c : Char} {value : Nat} (h : value? c = some value) : value < 16 := by
  unfold value? at h
  dsimp only at h
  split at h
  · cases h
    omega
  · split at h
    · cases h
      omega
    · split at h
      · cases h
        omega
      · cases h

/-- Digits of either case are plain. -/
theorem plain_of_isDigit {c : Char} (h : isDigit c = true) : Plain c := by
  have hall : ∀ n < 103, isDigit (Char.ofNat n) = true → Plain (Char.ofNat n) := by decide +kernel
  have hsmall : c.toNat < 103 := by
    by_contra hlarge
    rw [isDigit, value?, if_neg (by omega), if_neg (by omega), if_neg (by omega)] at h
    cases h
  have hplain := hall c.toNat hsmall
  rw [Char.ofNat_toNat] at hplain
  exact hplain h

/-- The values of digits, one for each. -/
theorem exists_values {part : List Char} (h : ∀ c ∈ part, isDigit c = true) :
    ∃ values : List Nat, part.map value? = values.map some := by
  induction part with
  | nil => exact ⟨[], rfl⟩
  | cons c rest ih =>
      rw [List.forall_mem_cons] at h
      obtain ⟨value, hvalue⟩ := Option.isSome_iff_exists.mp h.1
      obtain ⟨values, hvalues⟩ := ih h.2
      exact ⟨value :: values, by rw [List.map_cons, List.map_cons, hvalue, hvalues]⟩

theorem isDigit_of_values {part : List Char} {values : List Nat}
    (h : part.map value? = values.map some) : ∀ c ∈ part, isDigit c = true := by
  intro c hc
  have hmem : value? c ∈ values.map some := h ▸ List.mem_map_of_mem hc
  obtain ⟨value, -, hvalue⟩ := List.mem_map.mp hmem
  rw [isDigit, ← hvalue]
  rfl

theorem lt_of_values {part : List Char} {values : List Nat}
    (h : part.map value? = values.map some) : ∀ value ∈ values, value < 16 := by
  intro value hvalue
  have hmem : some value ∈ part.map value? := h ▸ List.mem_map_of_mem hvalue
  obtain ⟨c, -, hc⟩ := List.mem_map.mp hmem
  exact value?_lt hc

/-- The values of the digits of a number. -/
def values (n : Nat) : List Nat :=
  if n < 16 then [n] else values (n / 16) ++ [n % 16]

theorem digits_eq_map (n : Nat) : digits n = (values n).map digit := by
  induction n using values.induct with
  | case1 n h => rw [digits, values, if_pos h, if_pos h, List.map_singleton]
  | case2 n h ih =>
      rw [digits, values, if_neg h, if_neg h, ih, List.map_append, List.map_singleton]

theorem values_lt {n value : Nat} (h : value ∈ values n) : value < 16 := by
  induction n using values.induct with
  | case1 n hn =>
      rw [values, if_pos hn, List.mem_singleton] at h
      rwa [h]
  | case2 n hn ih =>
      rw [values, if_neg hn, List.mem_append, List.mem_singleton] at h
      rcases h with h | rfl
      · exact ih h
      · omega

theorem values_ne_nil (n : Nat) : values n ≠ [] := by
  unfold values
  split
  · exact List.cons_ne_nil _ _
  · exact List.append_ne_nil_of_right_ne_nil _ (List.cons_ne_nil _ _)

theorem ofDigits_values (n : Nat) : Integer.ofDigits .hexadecimal (values n) = n := by
  induction n using values.induct with
  | case1 n h =>
      rw [values, if_pos h]
      exact Nat.zero_add n
  | case2 n h ih =>
      unfold Integer.ofDigits at ih ⊢
      rw [values, if_neg h, List.foldl_append, ih]
      exact Nat.div_add_mod' n 16

theorem plain_of_mem_digits {n : Nat} {c : Char} (h : c ∈ digits n) : Plain c := by
  rw [digits_eq_map] at h
  obtain ⟨value, hvalue, rfl⟩ := List.mem_map.mp h
  exact plain_digit value (values_lt hvalue)

theorem digits_ne_nil (n : Nat) : digits n ≠ [] := by
  rw [digits_eq_map]
  exact fun h => values_ne_nil n (List.map_eq_nil_iff.mp h)

end Hex

/-! ## Literals -/

namespace Integer

theorem ofDigits_eq (radix : Radix) (values : List Nat) :
    ofDigits radix values = Nat.ofDigits radix.base values.reverse := by
  rw [Nat.ofDigits_eq_foldr, List.foldr_reverse, ofDigits]
  congr 1
  funext total value
  exact (Nat.add_comm _ _).trans (congrArg (value + ·) (Nat.mul_comm _ _))

theorem digits?_cons {radix : Radix} {c d : Char} {rest : List Char} (h : d ≠ '_') :
    digits? radix (c :: d :: rest) = (do
      let value ← digitValue? radix c
      let values ← digits? radix (d :: rest)
      return value :: values) := by
  rw [digits?]
  · exact List.cons_ne_nil _ _
  · rintro _ ⟨⟩
    exact h rfl

/-- Plain digits below the base are read one by one. -/
theorem digits?_of_values {radix : Radix} {part : List Char} {values : List Nat}
    (h : part.map Hex.value? = values.map some) (hbase : ∀ value ∈ values, value < radix.base)
    (hne : part ≠ []) : digits? radix part = some values := by
  have hvalue : ∀ {c : Char} {value : Nat}, Hex.value? c = some value → value < radix.base →
      digitValue? radix c = some value := by
    intro c value hc hlt
    rw [digitValue?, hc]
    exact Option.filter_some_pos (decide_eq_true hlt)
  induction part generalizing values with
  | nil => exact absurd rfl hne
  | cons c rest ih =>
      cases values with
      | nil => cases h
      | cons value values =>
          rw [List.map_cons, List.map_cons, List.cons.injEq] at h
          rw [List.forall_mem_cons] at hbase
          cases rest with
          | nil =>
              obtain rfl : values = [] := List.map_eq_nil_iff.mp h.2.symm
              rw [digits?, hvalue h.1 hbase.1]
              rfl
          | cons d rest =>
              -- No plain digit is an underscore, so the reader goes on by one character.
              have hplain : Hex.Plain d :=
                Hex.plain_of_isDigit (Hex.isDigit_of_values h.2 d List.mem_cons_self)
              have hnext : d ≠ '_' := by
                rintro rfl
                exact hplain.unmarked (by decide)
              rw [digits?_cons hnext, hvalue h.1 hbase.1, ih h.2 hbase.2 (List.cons_ne_nil _ _)]
              rfl

theorem dropMark_eq_self {text : List Char} (h : ∀ c ∈ text, Hex.Plain c) (radix : Radix) :
    dropMark radix text = text := by
  have hmark : ∀ c ∈ text, c ≠ 'x' ∧ c ≠ 'X' := by
    intro c hc
    constructor
    · rintro rfl
      exact (h _ hc).unmarked (by decide)
    · rintro rfl
      exact (h _ hc).unmarked (by decide)
  unfold dropMark
  split
  · exact absurd rfl (hmark 'x' (by simp)).1
  · exact absurd rfl (hmark 'X' (by simp)).2
  · exact absurd rfl (hmark 'x' (by simp)).1
  · exact absurd rfl (hmark 'X' (by simp)).2
  · rfl

/-- Digits denote the number that they make up, unless there are too many. -/
theorem magnitude?_of_values {radix : Radix} {part : List Char} {values : List Nat}
    (h : part.map Hex.value? = values.map some) (hbase : ∀ value ∈ values, value < radix.base)
    (hne : part ≠ []) :
    magnitude? radix part = if radix = .hexadecimal ∨ values.length ≤ decimalLimit then
      some (ofDigits radix values) else none := by
  have hplain : ∀ c ∈ part, Hex.Plain c :=
    fun c hc => Hex.plain_of_isDigit (Hex.isDigit_of_values h c hc)
  rw [magnitude?, dropMark_eq_self hplain, digits?_of_values h hbase hne]
  change (guard (radix = .hexadecimal ∨ values.length ≤ decimalLimit) >>= fun _ =>
    some (ofDigits radix values) : Option Nat) = _
  by_cases hlimit : radix = .hexadecimal ∨ values.length ≤ decimalLimit
  · have hguard : guard (radix = .hexadecimal ∨ values.length ≤ decimalLimit) = some () :=
      if_pos hlimit
    rw [hguard, if_pos hlimit]
    rfl
  · have hguard : guard (radix = .hexadecimal ∨ values.length ≤ decimalLimit) =
        (none : Option Unit) := if_neg hlimit
    rw [hguard, if_neg hlimit]
    rfl

/-- A plain text is not changed by what is done before its digits are read, whatever padding comes
after it. -/
theorem parse?_of_plain {radix : Radix} {part after : List Char}
    (hplain : ∀ c ∈ part, Hex.Plain c)
    (hafter : ∀ c ∈ after, reduce c = c ∧ isPadding c = true) :
    parse? radix (part ++ after) = (magnitude? radix part).map Int.ofNat := by
  have hreduce : (part ++ after).map reduce = part ++ after := by
    have hid : (part ++ after).map id = part ++ after := List.map_id _
    rw [← hid, List.map_map]
    refine List.map_congr_left fun c hc => ?_
    rcases List.mem_append.mp hc with hc | hc
    · exact (hplain c hc).reduced
    · exact (hafter c hc).1
  have htrim : trimBy isPadding (part ++ after) = part :=
    trimBy_append (List.forall_mem_nil _) (fun c hc => (hplain c hc).unpadded)
      fun c hc => (hafter c hc).2
  rw [parse?, hreduce, htrim]
  split
  next rest => exact absurd (by decide) (hplain '+' (by simp)).unmarked
  next rest => exact absurd (by decide) (hplain '-' (by simp)).unmarked
  next => rfl

/-- The same after a minus. -/
theorem parse?_neg_of_plain {radix : Radix} {part : List Char}
    (hplain : ∀ c ∈ part, Hex.Plain c) :
    parse? radix ('-' :: part) = (magnitude? radix part).map fun n => -Int.ofNat n := by
  have hminus : reduce '-' = '-' ∧ isPadding '-' = false := by decide +kernel
  have hreduce : ('-' :: part).map reduce = '-' :: part := by
    rw [List.map_cons, hminus.1, List.map_congr_left fun c hc => (hplain c hc).reduced]
    exact congrArg _ (List.map_id _)
  have htrim : trimBy isPadding ('-' :: part) = '-' :: part := by
    have hunpadded : ∀ c ∈ '-' :: part, isPadding c = false :=
      List.forall_mem_cons.mpr ⟨hminus.2, fun c hc => (hplain c hc).unpadded⟩
    simpa using trimBy_append (List.forall_mem_nil _) hunpadded (List.forall_mem_nil _)
  rw [parse?, hreduce, htrim]
  rfl

/-- Digits denote the number that they make up, also with padding after them. -/
theorem parse?_of_values {part after : List Char} {values : List Nat}
    (h : part.map Hex.value? = values.map some) (hne : part ≠ [])
    (hafter : ∀ c ∈ after, reduce c = c ∧ isPadding c = true) :
    parse? .hexadecimal (part ++ after) = some (ofDigits .hexadecimal values : Int) := by
  have hplain : ∀ c ∈ part, Hex.Plain c :=
    fun c hc => Hex.plain_of_isDigit (Hex.isDigit_of_values h c hc)
  have hbase : ∀ value ∈ values, value < Radix.hexadecimal.base := Hex.lt_of_values h
  rw [parse?_of_plain hplain hafter, magnitude?_of_values h hbase hne, if_pos (.inl rfl)]
  rfl

/-- The digits of a number denote it. -/
theorem parse?_digits (n : Nat) : parse? .hexadecimal (Hex.digits n) = some (n : Int) := by
  have hvalues : (Hex.digits n).map Hex.value? = (Hex.values n).map some := by
    rw [Hex.digits_eq_map, List.map_map]
    exact List.map_congr_left fun value hvalue => Hex.value?_digit value (Hex.values_lt hvalue)
  have hparse := parse?_of_values hvalues (Hex.digits_ne_nil n) (List.forall_mem_nil _)
  rwa [List.append_nil, Hex.ofDigits_values] at hparse

/-! ## Decimal literals -/

theorem bounds_of_mem_toDigits {n : Nat} {c : Char} (h : c ∈ Nat.toDigits 10 n) :
    48 ≤ c.toNat ∧ c.toNat ≤ 57 := by
  have hdigit := Nat.isDigit_of_mem_toDigits (by decide) (by decide) h
  rw [Char.isDigit, Bool.and_eq_true, decide_eq_true_eq, decide_eq_true_eq] at hdigit
  exact hdigit

theorem value?_of_mem_toDigits {n : Nat} {c : Char} (h : c ∈ Nat.toDigits 10 n) :
    Hex.value? c = some (c.toNat - 48) :=
  if_pos (bounds_of_mem_toDigits h)

theorem plain_of_mem_toDigits {n : Nat} {c : Char} (h : c ∈ Nat.toDigits 10 n) : Hex.Plain c := by
  apply Hex.plain_of_isDigit
  rw [Hex.isDigit, value?_of_mem_toDigits h]
  rfl

/-- The digits of a number, read as a decimal literal. -/
theorem magnitude?_toDigits (n : Nat) : magnitude? .decimal (Nat.toDigits 10 n) =
    if (Nat.toDigits 10 n).length ≤ decimalLimit then some n else none := by
  let values := (Nat.toDigits 10 n).map fun c => c.toNat - 48
  have hvalues : (Nat.toDigits 10 n).map Hex.value? = values.map some := by
    rw [List.map_map]
    exact List.map_congr_left fun c hc => value?_of_mem_toDigits hc
  have hbase : ∀ value ∈ values, value < Radix.decimal.base := by
    intro value hvalue
    obtain ⟨c, hc, rfl⟩ := List.mem_map.mp hvalue
    have hdigit := bounds_of_mem_toDigits hc
    change c.toNat - 48 < 10
    omega
  have hnumber : ofDigits .decimal values = n := by
    rw [ofDigits, List.foldl_map]
    simp only [Radix.base, Nat.mul_comm _ 10]
    exact Nat.ofDigitChars_ten_toDigits
  rw [magnitude?_of_values hvalues hbase Nat.toDigits_ne_nil, hnumber, List.length_map]
  simp

/-- A whole number is read back, unless it has too many digits. -/
theorem parse?_toString (n : Int) : parse? .decimal (toString n).toList =
    if (Nat.toDigits 10 n.natAbs).length ≤ decimalLimit then some n else none := by
  rw [Int.toString_eq_repr, Int.repr_eq_if]
  -- A negative number is written as a sign and its absolute value, and read so.
  split
  next hn =>
    obtain ⟨m, rfl⟩ := Int.eq_ofNat_of_zero_le hn
    have hplain : ∀ c ∈ Nat.toDigits 10 m, Hex.Plain c := fun c hc => plain_of_mem_toDigits hc
    have hread : parse? .decimal _ = _ := parse?_of_plain hplain (List.forall_mem_nil _)
    rw [List.append_nil, magnitude?_toDigits] at hread
    rw [Int.toNat_natCast, Nat.toList_repr, hread, Int.natAbs_natCast]
    split <;> rfl
  next hn =>
    have hplain : ∀ c ∈ Nat.toDigits 10 n.natAbs, Hex.Plain c :=
      fun c hc => plain_of_mem_toDigits hc
    have hread : parse? .decimal _ = _ := parse?_neg_of_plain hplain
    rw [magnitude?_toDigits] at hread
    have habs : (-n).toNat = n.natAbs := by omega
    have hneg : -Int.ofNat n.natAbs = n := by
      rw [Int.ofNat_eq_natCast]
      omega
    rw [habs, String.toList_append, Nat.toList_repr]
    refine hread.trans ?_
    split
    · exact congrArg some hneg
    · rfl

end Integer

theorem Hex.digits_inj {m n : Nat} (h : digits m = digits n) : m = n := by
  have hm := Integer.parse?_digits m
  rw [h, Integer.parse?_digits n] at hm
  exact (Int.natCast_inj.mp (Option.some.inj hm)).symm

end SeededTesting.Text

import Mathlib.Data.List.Induction
import SeededTesting.Proofs.Run.Making
import SeededTesting.Proofs.Seed.RoundTrip
import SeededTesting.Random.Source

/-! # Canonical chains

Readers of a chain are liberal, its writer is not: one pair of brackets around numerals in upper
case without padding. Every chain has just one such text, whatever text it was read from, and is
read back from it, also among blanks and without its brackets.
-/

namespace SeededTesting

open Text

/-! ## Numerals -/

namespace Text.Hex

/-- The digits that numbers are written with. -/
def upperDigits : List Char :=
  ['0', '1', '2', '3', '4', '5', '6', '7', '8', '9', 'A', 'B', 'C', 'D', 'E', 'F']

/-- A numeral in upper case without leading zeros. -/
structure Canonical (text : List Char) : Prop where
  ne_nil : text ≠ []
  upper : ∀ c ∈ text, c ∈ upperDigits
  unpadded : text.head? = some '0' → text = ['0']

theorem upperDigits_eq_map : upperDigits = (List.range 16).map digit := by
  decide +kernel

theorem mem_upperDigits_iff {c : Char} : c ∈ upperDigits ↔ ∃ value < 16, digit value = c := by
  simp only [upperDigits_eq_map, List.mem_map, List.mem_range]

theorem digits_zero : digits 0 = ['0'] := by
  decide +kernel

theorem digits_add {n value : Nat} (hn : 0 < n) (hvalue : value < 16) :
    digits (n * 16 + value) = digits n ++ [digit value] := by
  have hlarge : ¬ n * 16 + value < 16 := by omega
  have hrest : (n * 16 + value) / 16 = n := by omega
  have hlast : (n * 16 + value) % 16 = value := by omega
  rw [digits, if_neg hlarge, hrest, hlast]

/-- Numbers are written without leading zeros. -/
theorem canonical_digits (n : Nat) : Canonical (digits n) where
  ne_nil := digits_ne_nil n
  upper c hc := by
    rw [digits_eq_map] at hc
    obtain ⟨value, hvalue, rfl⟩ := List.mem_map.mp hc
    exact mem_upperDigits_iff.mpr ⟨value, values_lt hvalue, rfl⟩
  unpadded := by
    induction n using digits.induct with
    | case1 n h =>
        rw [digits, if_pos h]
        intro hhead
        rw [Option.some.inj hhead]
    | case2 n h ih =>
        rw [digits, if_neg h, List.head?_append_of_ne_nil _ (digits_ne_nil _)]
        intro hhead
        -- Only zero starts with a zero, but what is left of a longer number is not zero.
        have hzero : n / 16 = 0 := digits_inj ((ih hhead).trans digits_zero.symm)
        omega

/-- The numerals in upper case without leading zeros are those that numbers are written as. -/
theorem canonical_iff {text : List Char} : Canonical text ↔ ∃ n, text = digits n := by
  constructor
  · intro h
    induction text using List.reverseRecOn with
    | nil => exact absurd rfl h.ne_nil
    | append_singleton text c ih =>
        -- The last digit is taken off; unless nothing is left, the rest is a numeral again.
        obtain ⟨value, hvalue, rfl⟩ := mem_upperDigits_iff.mp (h.upper c (by simp))
        by_cases hempty : text = []
        · refine ⟨value, ?_⟩
          rw [digits, if_pos hvalue, hempty, List.nil_append]
        · have hhead : text.head? ≠ some '0' := by
            intro hhead
            have hsingle := h.unpadded (by rw [List.head?_append_of_ne_nil _ hempty, hhead])
            have hlength := congrArg List.length hsingle
            rw [List.length_append, List.length_singleton, List.length_singleton] at hlength
            exact hempty (List.length_eq_zero_iff.mp (Nat.succ_injective hlength))
          obtain ⟨n, rfl⟩ := ih ⟨hempty, fun c hc => h.upper c (List.mem_append_left _ hc),
            fun heq => absurd heq hhead⟩
          have hpos : 0 < n := by
            rcases Nat.eq_zero_or_pos n with rfl | hpos
            · exact absurd (by rw [digits_zero]; rfl) hhead
            · exact hpos
          exact ⟨n * 16 + value, (digits_add hpos hvalue).symm⟩
  · rintro ⟨n, rfl⟩
    exact canonical_digits n

theorem length_digits_le_iff {n width : Nat} :
    (digits n).length ≤ width + 1 ↔ n < 16 ^ (width + 1) := by
  induction n using digits.induct generalizing width with
  | case1 n h =>
      have hpow : 16 ^ 1 ≤ 16 ^ (width + 1) := Nat.pow_le_pow_right (by decide) (by omega)
      rw [digits, if_pos h, List.length_singleton]
      omega
  | case2 n h ih =>
      rw [digits, if_neg h, List.length_append, List.length_singleton, Nat.add_le_add_iff_right]
      cases width with
      | zero =>
          have hpos := List.length_pos_iff.mpr (digits_ne_nil (n / 16))
          omega
      | succ width =>
          rw [ih, Nat.pow_succ 16 (width + 1), Nat.div_lt_iff_lt_mul (by decide)]

end Text.Hex

/-! ## Chains -/

namespace SeedChain

/-- One pair of brackets around numerals without leading zeros, none of them wider than a word. -/
def Canonical (text : String) : Prop :=
  ∃ parts : List (List Char), parts ≠ [] ∧
    (∀ part ∈ parts, Hex.Canonical part ∧ part.length ≤ 16) ∧
    text.toList = '[' :: (List.intercalate [separator] parts ++ [']'])

theorem canonical_format {seeds : List Seed} (h : seeds ≠ []) : Canonical (format seeds) := by
  refine ⟨seeds.map fun seed : Seed => Hex.digits seed.toNat, ?_, ?_, toList_format seeds⟩
  · simpa using h
  · intro part hpart
    obtain ⟨seed, -, rfl⟩ := List.mem_map.mp hpart
    exact ⟨Hex.canonical_digits _, Hex.length_digits_le_iff.mpr seed.toNat_lt⟩

/-- The canonical texts are those that chains are written as. -/
theorem canonical_iff {text : String} :
    Canonical text ↔ ∃ seeds, seeds ≠ [] ∧ text = format seeds := by
  constructor
  · rintro ⟨parts, hne, hparts, htext⟩
    have hseeds : ∃ seeds : List Seed, seeds.map (fun seed => Hex.digits seed.toNat) = parts := by
      clear hne htext
      induction parts with
      | nil => exact ⟨[], rfl⟩
      | cons part parts ih =>
          rw [List.forall_mem_cons] at hparts
          obtain ⟨⟨hpart, hwidth⟩, hrest⟩ := hparts
          obtain ⟨n, rfl⟩ := Hex.canonical_iff.mp hpart
          obtain ⟨seeds, rfl⟩ := ih hrest
          have hsize : n < UInt64.size := Hex.length_digits_le_iff.mp hwidth
          exact ⟨UInt64.ofNat n :: seeds, by rw [List.map_cons, UInt64.toNat_ofNat_of_lt' hsize]⟩
    obtain ⟨seeds, rfl⟩ := hseeds
    refine ⟨seeds, by simpa using hne, ?_⟩
    rw [← String.toList_inj, htext, toList_format]
    rfl
  · rintro ⟨seeds, hne, rfl⟩
    exact canonical_format hne

theorem split_ne_nil (mark : Char) (text : List Char) : split mark text ≠ [] := by
  cases text with
  | nil => exact List.cons_ne_nil _ _
  | cons c rest =>
      rw [split]
      split
      · exact List.cons_ne_nil _ _
      · split <;> exact List.cons_ne_nil _ _

/-- A chain that is read has a seed. -/
theorem ne_nil_of_parse {text : String} {seeds : List Seed} (h : parse text = .ok seeds) :
    seeds ≠ [] := by
  unfold parse at h
  split at h
  · dsimp only at h
    split at h
    · cases h
    · -- There is a seed for every part, and a text has at least one part.
      have hlength := (forall₂_of_mapM_eq_ok h).length_eq
      rintro rfl
      exact split_ne_nil _ _ (List.length_eq_zero_iff.mp hlength)
  · cases h

/-- What a chain is written from: an integer, or a source of randomness that was made from one and
may have been drawn from. -/
inductive Link where
  | number (n : Int)
  | source (n : Int) (generator : Option Twister)

namespace Link

/-- The integer that a link is given as. -/
def value : Link → Int
  | .number n => n
  | .source n _ => n

def seed : Link → Seed
  | .number n => Seed.ofInt n
  | .source n generator => ({ seed := Seed.ofInt n, generator } : RandomSource).seed

theorem toNat_seed (link : Link) : (link.seed.toNat : Int) = link.value % 2 ^ 64 := by
  cases link with
  | number n => exact Seed.toNat_ofInt n
  | source n generator => exact Seed.toNat_ofInt n

end Link

theorem format_eq_bracketed (seeds : List Seed) :
    format seeds = "[" ++ String.ofList (inner seeds) ++ "]" := by
  rw [← String.toList_inj, toList_format]
  simp

/-- A chain is read back among blanks, and without either bracket. -/
theorem parse_surrounded {seeds : List Seed} (hne : seeds ≠ [])
    {before opening closing after : String} (hbefore : ∀ c ∈ before.toList, isBlank c = true)
    (hafter : ∀ c ∈ after.toList, isBlank c = true) (hopening : opening ∈ ["", "["])
    (hclosing : closing ∈ ["", "]"]) :
    parse (before ++ (opening ++ (String.ofList (inner seeds) ++ closing)) ++ after) =
      .ok seeds := by
  have htext : before ++ (opening ++ (String.ofList (inner seeds) ++ closing)) ++ after =
      String.ofList (before.toList ++ (opening.toList ++ (inner seeds ++ closing.toList)) ++
        after.toList) := by
    rw [← String.toList_inj]
    simp
  have hside : ∀ {side mark : String}, side ∈ ["", mark] →
      side.toList = [] ∨ side.toList = mark.toList := by
    intro side mark hside
    simp only [List.mem_cons, List.not_mem_nil, or_false] at hside
    exact hside.imp (congrArg String.toList) (congrArg String.toList)
  rw [htext]
  exact parse_of_body hne (body_surrounded seeds hbefore (hside hopening) (hside hclosing) hafter)

/-- Different chains are written differently. -/
theorem format_inj {seeds seeds' : List Seed} (hne : seeds ≠ []) (hne' : seeds' ≠ []) :
    format seeds = format seeds' ↔ seeds = seeds' := by
  constructor
  · intro h
    have hread := parse_format hne
    rw [h, parse_format hne'] at hread
    exact (Except.ok.inj hread).symm
  · exact congrArg format

/-- Integers and sources of randomness, at least one of them, are written as a chain of their
residues, and this chain is read back from the text: among blanks, and without either bracket. The
chain that is read from any text is written as a canonical text, from which it is read again; no
other text is canonical and read as this chain. Chains that are read are equal just if they are
written as one text. -/
theorem parse_surrounded_and_canonical :
    (∀ links : List Link, links ≠ [] →
      ∃ (seeds : List Seed) (bare : String),
        seeds.map (fun seed => (seed.toNat : Int)) = links.map (fun link => link.value % 2 ^ 64) ∧
        format (links.map Link.seed) = "[" ++ bare ++ "]" ∧
        ∀ before after : String, (∀ c ∈ before.toList, isBlank c = true) →
          (∀ c ∈ after.toList, isBlank c = true) → ∀ opening ∈ ["", "["], ∀ closing ∈ ["", "]"],
          parse (before ++ (opening ++ (bare ++ closing)) ++ after) = .ok seeds) ∧
      (∀ (text : String) (seeds : List Seed), parse text = .ok seeds →
        Canonical (format seeds) ∧ parse (format seeds) = .ok seeds ∧
          (Canonical text ↔ text = format seeds)) ∧
      ∀ (text text' : String) (seeds seeds' : List Seed), parse text = .ok seeds →
        parse text' = .ok seeds' → (format seeds = format seeds' ↔ seeds = seeds') := by
  refine ⟨?_, ?_, ?_⟩
  · intro links hne
    refine ⟨links.map Link.seed, _, ?_, format_eq_bracketed _, ?_⟩
    · rw [List.map_map]
      exact List.map_congr_left fun link _ => link.toNat_seed
    · intro before after hbefore hafter opening hopening closing hclosing
      exact parse_surrounded (by simpa using hne) hbefore hafter hopening hclosing
  · intro text seeds hparse
    have hne := ne_nil_of_parse hparse
    refine ⟨canonical_format hne, parse_format hne, ?_⟩
    constructor
    · intro htext
      obtain ⟨seeds', hne', rfl⟩ := canonical_iff.mp htext
      rw [parse_format hne'] at hparse
      rw [Except.ok.inj hparse]
    · rintro rfl
      exact canonical_format hne
  · intro text text' seeds seeds' hparse hparse'
    exact format_inj (ne_nil_of_parse hparse) (ne_nil_of_parse hparse')

/-- A negative integer and a source that was made from a wide one, read back without the opening
bracket, and two texts of one chain. -/
theorem parse_surrounded_and_canonical_wide :
    (∃ (seeds : List Seed) (bare : String),
      seeds.map (fun seed => (seed.toNat : Int)) = [2 ^ 64 - 1, 7] ∧
        format ([Link.number (-1), .source (2 ^ 70 + 7) none].map Link.seed) = "[" ++ bare ++ "]" ∧
        parse ("\t " ++ ("" ++ (bare ++ "]")) ++ "\n") = .ok seeds) ∧
      parse " ff:7" = .ok [0xFF, 7] ∧ parse "[0Ff:07\n]" = .ok [0xFF, 7] ∧
      Canonical (format [0xFF, 7]) ∧ parse (format [0xFF, 7]) = .ok [0xFF, 7] ∧
      (Canonical " ff:7" ↔ " ff:7" = format [0xFF, 7]) ∧
      (format [0xFF, 7] = format [0xFF, 7] ↔ ([0xFF, 7] : List Seed) = [0xFF, 7]) := by
  have hparse : parse " ff:7" = .ok [0xFF, 7] := by decide +kernel
  have hparse' : parse "[0Ff:07\n]" = .ok [0xFF, 7] := by decide +kernel
  obtain ⟨hlinks, htexts, hpairs⟩ := parse_surrounded_and_canonical
  obtain ⟨seeds, bare, hresidues, hformat, hread⟩ :=
    hlinks [.number (-1), .source (2 ^ 70 + 7) none] (List.cons_ne_nil _ _)
  obtain ⟨hcanonical, hagain, honly⟩ := htexts _ _ hparse
  have hbefore : ∀ c ∈ "\t ".toList, isBlank c = true := List.all_eq_true.mp (by decide +kernel)
  have hafter : ∀ c ∈ "\n".toList, isBlank c = true := List.all_eq_true.mp (by decide +kernel)
  exact ⟨⟨seeds, bare, hresidues, hformat,
      hread _ _ hbefore hafter _ List.mem_cons_self _ (List.mem_cons_of_mem _ List.mem_cons_self)⟩,
    hparse, hparse', hcanonical, hagain, honly, hpairs _ _ _ _ hparse hparse'⟩

end SeedChain
end SeededTesting

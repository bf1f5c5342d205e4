import SeededTesting.Text.Hex

/-! # Texts with lone surrogates

A text that comes from outside may hold surrogates that stand alone. They are no characters: a text
with one of them is no `String`, and it has no UTF-8 form.
-/

namespace SeededTesting.Text

/-- A character, or a surrogate that stands alone, counted from U+D800. -/
inductive CodePoint where
  | char (c : Char)
  | surrogate (offset : Fin 0x800)
deriving DecidableEq, Repr

namespace CodePoint

def char? : CodePoint → Option Char
  | .char c => some c
  | .surrogate _ => none

def isSurrogate (p : CodePoint) : Bool :=
  p.char?.isNone

/-- A code point as the message about a text names it. -/
def escaped : CodePoint → String
  | .char c => c.toString
  | .surrogate offset => "\\u" ++ String.ofList (Hex.padded 4 (0xD800 + offset))

end CodePoint

abbrev CodePoints := List CodePoint

/-- Why a text has no UTF-8 form: the surrogates from the first one on that stand together, and the
place of the first one. -/
structure EncodingError where
  start : Nat
  surrogates : CodePoints
deriving DecidableEq, Repr

def EncodingError.message (e : EncodingError) : String :=
  let place := match e.surrogates with
    | [p] => "character '" ++ p.escaped ++ "' in position " ++ toString e.start
    | _ => "characters in position " ++ toString e.start ++ "-" ++
      toString (e.start + e.surrogates.length - 1)
  "'utf-8' codec can't encode " ++ place ++ ": surrogates not allowed"

namespace CodePoints

def ofString (s : String) : CodePoints :=
  s.toList.map .char

instance : Coe String CodePoints where
  coe := ofString

/-- The first surrogates of a text that has some. -/
def encodingError (text : CodePoints) : EncodingError where
  start := (text.takeWhile fun p => !p.isSurrogate).length
  surrogates := (text.dropWhile fun p => !p.isSurrogate).takeWhile (·.isSurrogate)

/-- The UTF-8 form of a text. -/
def utf8 (text : CodePoints) : Except EncodingError (List UInt8) :=
  match text.mapM CodePoint.char? with
  | some cs => .ok (String.ofList cs).toUTF8.toList
  | none => .error text.encodingError

/-- Some surrogate stands alone in a text. -/
def Broken (text : CodePoints) : Prop :=
  ∃ p ∈ text, p.isSurrogate = true

theorem mapM_char?_eq_none_iff {text : CodePoints} :
    text.mapM CodePoint.char? = none ↔ text.Broken := by
  unfold Broken
  induction text with
  | nil => simp
  | cons p rest ih =>
    simp only [List.mapM_cons, List.mem_cons, exists_eq_or_imp, ← ih]
    cases p with
    | char c =>
      cases hrest : rest.mapM CodePoint.char? <;> simp [CodePoint.isSurrogate, CodePoint.char?]
    | surrogate offset => simp [CodePoint.isSurrogate, CodePoint.char?]

/-- A text has a UTF-8 form unless it is broken. -/
theorem utf8_eq_error_iff {text : CodePoints} {e : EncodingError} :
    text.utf8 = .error e ↔ text.Broken ∧ e = text.encodingError := by
  rw [← mapM_char?_eq_none_iff, utf8]
  cases text.mapM CodePoint.char? with
  | some cs => simp
  | none => simp [eq_comm]

theorem mapM_char?_ofString (s : String) : (ofString s).mapM CodePoint.char? = some s.toList := by
  rw [ofString]
  induction s.toList with
  | nil => rfl
  | cons c cs ih =>
    rw [List.map_cons, List.mapM_cons, ih]
    rfl

theorem utf8_ofString (s : String) : (ofString s).utf8 = .ok s.toUTF8.toList := by
  rw [utf8, mapM_char?_ofString]
  dsimp only
  rw [String.ofList_toList]

theorem not_broken_ofString (s : String) : ¬(ofString s).Broken := by
  rw [← mapM_char?_eq_none_iff, mapM_char?_ofString]
  simp

end CodePoints

end SeededTesting.Text

import SeededTesting.Seed.Basic
import SeededTesting.Seed.Digest
import SeededTesting.Text.CodePoint

/-! # Hashes of names

A name enters a seed through the first 64 bits of the digest of its UTF-8 text, so the same name
gives the same seed in every process. A name without a UTF-8 text has no hash.
-/

namespace SeededTesting

/-- The first 64 bits of the digest of a byte string. -/
def Seed.ofBytes (bytes : List UInt8) : Seed :=
  let digest := Digest.sha256 bytes
  (digest.a.toUInt64 <<< 32) ||| digest.b.toUInt64

/-- The first 64 bits of the digest of a name. -/
def nameHash (name : Text.CodePoints) : Except Text.EncodingError Seed :=
  Seed.ofBytes <$> name.utf8

theorem nameHash_ofString (name : String) :
    nameHash name = .ok (Seed.ofBytes name.toUTF8.toList) := by
  rw [nameHash, Text.CodePoints.utf8_ofString]
  rfl

end SeededTesting

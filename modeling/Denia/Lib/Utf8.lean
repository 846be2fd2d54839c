/-
  Denia.Lib.Utf8 — decoding bytes as UTF-8 with REPLACEMENT of what is not UTF-8.

  `decodeLossy` replaces each maximal part of a character that cannot be continued by U+FFFD:
  the first byte says how many bytes the character has, and the bytes that were right before
  the first wrong one are skipped with it.  Bytes past the end read as `0`.

  `decodeLossy_encode`: nothing is replaced in an encoded text, wherever it stands.
-/
import Mathlib.Data.List.Basic

namespace Denia.Lib

/-- The bytes of a text. -/
def encodeUtf8 (text : List Char) : List UInt8 := text.flatMap String.utf8EncodeChar

/-- The bytes are those of a text. -/
def ValidUtf8 (bytes : List UInt8) : Prop := ∃ text, bytes = encodeUtf8 text

/-- U+FFFD. -/
def replacementChar : Char := Char.ofNat 0xFFFD

/-- A byte that continues a character. -/
def isContinuation (b : Nat) : Bool := 0x80 ≤ b && b ≤ 0xBF

/-- The second byte of three, which must rule out overlong forms and surrogates. -/
def isSecondOfThree (first b : Nat) : Bool :=
  if first = 0xE0 then 0xA0 ≤ b && b ≤ 0xBF
  else if first = 0xED then 0x80 ≤ b && b ≤ 0x9F
  else isContinuation b

/-- The second byte of four, which must rule out overlong forms and what is past
U+10FFFF. -/
def isSecondOfFour (first b : Nat) : Bool :=
  if first = 0xF0 then 0x90 ≤ b && b ≤ 0xBF
  else if first = 0xF4 then 0x80 ≤ b && b ≤ 0x8F
  else isContinuation b

/-- How many of the bytes after `first` are replaced with it, if they make no character. -/
def replacedAfter (first : UInt8) (rest : List UInt8) : Nat :=
  let a := first.toNat
  let b := (rest.getD 0 0).toNat
  let c := (rest.getD 1 0).toNat
  if 0xE0 ≤ a ∧ a ≤ 0xEF then
    if isSecondOfThree a b then 1 else 0
  else if 0xF0 ≤ a ∧ a ≤ 0xF4 then
    if !isSecondOfFour a b then 0 else if isContinuation c then 2 else 1
  else 0

/-- The character that starts with `first`, and how many of the bytes after it belong to
it or are replaced with it. -/
def nextChar (first : UInt8) (rest : List UInt8) : Char × Nat :=
  match (first :: rest).toByteArray.utf8DecodeChar? 0 with
  | some c => (c, c.utf8Size - 1)
  | none => (replacementChar, replacedAfter first rest)

/-- Decode after skipping the bytes that belong to the character before. -/
def decodeFrom : Nat → List UInt8 → List Char
  | _, [] => []
  | skip + 1, _ :: rest => decodeFrom skip rest
  | 0, first :: rest => (nextChar first rest).1 :: decodeFrom (nextChar first rest).2 rest

/-- The text of the bytes, with replacements. -/
def decodeLossy (bytes : List UInt8) : List Char := decodeFrom 0 bytes

theorem decodeFrom_append (skipped rest : List UInt8) :
    decodeFrom skipped.length (skipped ++ rest) = decodeFrom 0 rest := by
  induction skipped with
  | nil => rfl
  | cons b skipped ih => exact ih

/-- **One character**: its code is read as the character, to its last byte. -/
theorem nextChar_encode (c : Char) (rest : List UInt8) :
    ∃ first more, String.utf8EncodeChar c = first :: more ∧
      nextChar first (more ++ rest) = (c, more.length) := by
  obtain ⟨first, more, hcode⟩ := List.exists_cons_of_ne_nil (String.utf8EncodeChar_ne_nil (c := c))
  have hsize : more.length = c.utf8Size - 1 := by
    rw [← String.length_utf8EncodeChar, hcode, List.length_cons, Nat.add_sub_cancel]
  have hread : (first :: (more ++ rest)).toByteArray.utf8DecodeChar? 0 = some c := by
    rw [← List.cons_append, ← hcode, List.toByteArray_append, ← List.utf8Encode_singleton]
    exact List.utf8DecodeChar?_utf8Encode_singleton_append
  refine ⟨first, more, hcode, ?_⟩
  rw [nextChar, hread, hsize]

/-- **Nothing is replaced in a text**: its bytes are decoded as the text, and what
follows them is decoded on its own. -/
theorem decodeLossy_encode_append (text : List Char) (rest : List UInt8) :
    decodeLossy (encodeUtf8 text ++ rest) = text ++ decodeLossy rest := by
  induction text with
  | nil => rfl
  | cons c text ih =>
    obtain ⟨first, more, hcode, hnext⟩ := nextChar_encode c (encodeUtf8 text ++ rest)
    have hbytes : encodeUtf8 (c :: text) ++ rest
        = first :: (more ++ (encodeUtf8 text ++ rest)) := by
      rw [encodeUtf8, List.flatMap_cons, hcode, List.append_assoc]
      rfl
    rw [hbytes, decodeLossy, decodeFrom, hnext, decodeFrom_append, ← decodeLossy, ih]
    rfl

theorem decodeLossy_encode (text : List Char) : decodeLossy (encodeUtf8 text) = text := by
  simpa [decodeLossy, decodeFrom] using decodeLossy_encode_append text []

/-- The byte of an ASCII character is in no other character's code. -/
theorem ascii_notMem_encode {b : UInt8} {c : Char} (hb : b.toNat < 0x80)
    (hc : c.toNat ≠ b.toNat) : b ∉ String.utf8EncodeChar c := by
  have hhigh : ∀ n, n % 256 ≠ b.toNat → b ≠ UInt8.ofNat n := by
    intro n hn h
    rw [h, UInt8.toNat_ofNat'] at hn
    exact hn rfl
  have hvalid : c.val.toNat < 55296 ∨ 57343 < c.val.toNat ∧ c.val.toNat < 1114112 := c.valid
  have hc' : c.val.toNat ≠ b.toNat := hc
  unfold String.utf8EncodeChar
  generalize c.val.toNat = v at hvalid hc'
  dsimp only
  repeat' split
  all_goals
    simp only [List.mem_cons, List.not_mem_nil, or_false, not_or]
    repeat' apply And.intro
    all_goals exact hhigh _ (by omega)

end Denia.Lib

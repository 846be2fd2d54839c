/-
  Denia.Registry.Repo — the hosted registry's SQLite rows
  (`src/registry/repo.rs`): manifest rows, per-repository blob rows and the
  garbage-collection runs.

  `hosted_manifests` and `hosted_blobs` have the primary key
  `(repository_id, digest)`, so each table is an `AList` on that pair.  A call
  holds the one SQLite connection for its whole length: each function below is
  one atomic step.
-/
import Mathlib.Data.List.AList
import Denia.Lib.AssocMap
import Denia.Registry.Storage

namespace Denia.Registry

open Lib

/-- `hosted_manifests`, past its key. -/
structure HostedManifest where
  mediaType : String
  size : Nat
  deriving DecidableEq

/-- `hosted_registry_gc_runs`, past its id and timestamps. -/
structure GcRun where
  scannedBlobs : Nat
  deletedBlobs : Nat
  deletedBytes : Nat

/-- The rows of the hosted registry. -/
structure HostedRegistryRepo where
  manifests : AList fun _ : Nat × String => HostedManifest
  /-- The recorded size of each blob row. -/
  blobs : AList fun _ : Nat × String => Nat
  gcRuns : List GcRun

namespace HostedRegistryRepo

/-- `put_manifest`: insert or overwrite one manifest row. -/
def putManifest (r : HostedRegistryRepo) (repositoryId : Nat) (digest : String)
    (mediaType : String) (size : Nat) : HostedRegistryRepo :=
  { r with manifests := r.manifests.insert (repositoryId, digest) ⟨mediaType, size⟩ }

/-- `manifest`. -/
def manifest (r : HostedRegistryRepo) (repositoryId : Nat) (digest : String) :
    Option HostedManifest :=
  r.manifests.lookup (repositoryId, digest)

/-- `put_blob`: insert or overwrite one blob row. -/
def putBlob (r : HostedRegistryRepo) (repositoryId : Nat) (digest : String) (size : Nat) :
    HostedRegistryRepo :=
  { r with blobs := r.blobs.insert (repositoryId, digest) size }

/-- `blob_size`: the recorded size of a blob in a repository. -/
def blobSize (r : HostedRegistryRepo) (repositoryId : Nat) (digest : String) : Option Nat :=
  r.blobs.lookup (repositoryId, digest)

/-- `has_blob`. -/
def hasBlob (r : HostedRegistryRepo) (repositoryId : Nat) (digest : String) : Bool :=
  (r.blobSize repositoryId digest).isSome

/-- `delete_blob_rows`: the rows of `digest` in EVERY repository. -/
def deleteBlobRows (r : HostedRegistryRepo) (digest : String) : HostedRegistryRepo :=
  { r with blobs := restrict r.blobs fun k => k.2 ≠ digest }

/-- `record_gc_run`. -/
def recordGcRun (r : HostedRegistryRepo) (scanned deleted deletedBytes : Nat) :
    HostedRegistryRepo :=
  { r with gcRuns := r.gcRuns ++ [⟨scanned, deleted, deletedBytes⟩] }

/-- Some repository has a manifest row for `digest`. -/
def Recorded (r : HostedRegistryRepo) (digest : String) : Prop :=
  ∃ repositoryId, (r.manifest repositoryId digest).isSome

/-- `ds` is an answer of `all_manifest_digests`: `SELECT DISTINCT digest` lists
each recorded manifest digest once, in an order SQLite is free to choose. -/
def IsManifestListing (r : HostedRegistryRepo) (ds : List String) : Prop :=
  ds.Nodup ∧ ∀ d, d ∈ ds ↔ r.Recorded d

/-! ## The rows after a call. -/

variable {repo : HostedRegistryRepo} {repository r size : Nat} {digest d : String}

theorem hasBlob_putBlob : (repo.putBlob repository digest size).hasBlob r d = true ↔
      (r = repository ∧ d = digest) ∨ repo.hasBlob r d = true := by
  show ((repo.blobs.insert (repository, digest) size).lookup (r, d)).isSome = true ↔ _
  rw [AList.lookup_isSome, AList.mem_insert, Prod.mk.injEq, ← AList.lookup_isSome]
  rfl

theorem hasBlob_deleteBlobRows :
    (repo.deleteBlobRows digest).hasBlob r d = true ↔ d ≠ digest ∧ repo.hasBlob r d = true := by
  show ((restrict repo.blobs fun k => k.2 ≠ digest).lookup (r, d)).isSome = true ↔ _
  rw [lookup_restrict]
  by_cases hd : d = digest
  · simp [hd]
  · simp [hd, hasBlob, blobSize]

theorem isSome_manifest_putManifest {m mediaType : String} :
    ((repo.putManifest repository digest mediaType size).manifest r m).isSome ↔
      (r = repository ∧ m = digest) ∨ (repo.manifest r m).isSome := by
  show ((repo.manifests.insert (repository, digest) ⟨mediaType, size⟩).lookup (r, m)).isSome ↔ _
  rw [AList.lookup_isSome, AList.mem_insert, Prod.mk.injEq, ← AList.lookup_isSome]
  rfl

end HostedRegistryRepo

end Denia.Registry

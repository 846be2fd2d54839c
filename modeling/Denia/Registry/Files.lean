/-
  Denia.Registry.Files — what ONE CALL of a handler does to the files.

  The calls that matter to a property of the registry's files are the ones that create, write,
  rename or unlink.  `FileMove` lists them with the call they are made at and where the handler
  goes on; `call_files` says that there are no others.  A handler that works on a blob file has
  its name from `blob_path` (`Pc.Named`).
-/
import Denia.Registry.ContentAddressed

namespace Denia.Registry

open Lib

/-- The file name is the one of some digest. -/
def HexName (fileName : String) : Prop := ∃ digest, blobPath digest = .ok fileName

/-- The blob file a handler is about to write has its name from `blob_path`. -/
def Pc.Named : Pc → Prop
  | .commitOpen c | .commitRename c | .commitCreate c => HexName c.fileName
  | .stageCreate fileName | .stageWrite fileName _ _ | .stageRename fileName => HexName fileName
  | _ => True

/-- **What one call does to the files**, and where it leaves the handler. -/
inductive FileMove (cfg : Config) (w : Shared) (t : Thread) : Fs Path UInt8 → Thread → Prop
  | rests {t'} (hidle : t'.pc.idle = true) : FileMove cfg w t w.fs t'
  | measures (hpc : t.pc = .streamSize) :
      FileMove cfg w t w.fs
        { t with pc := streaming cfg t.request (w.uploadSize t.upload) t.request.body.chunks }
  | opens {batch total rest} (hpc : t.pc = .appendOpen batch total rest) :
      FileMove cfg w t (w.fs.openCreate w.clock (.data t.upload)).1
        { t with
          pc := .appendWrite batch (w.fs.openCreate w.clock (.data t.upload)).2 total rest }
  | appends {left fd total rest} (n : Nat) (hpc : t.pc = .appendWrite left fd total rest) :
      FileMove cfg w t (w.fs.write w.clock fd (w.fs.contents fd ++ left.take n))
        { t with pc := match left.drop n with
          | [] => streaming cfg t.request total rest
          | left => .appendWrite left fd total rest }
  | commits {c : Commit} {fs' t'} (hname : HexName c.fileName)
      (hrename : w.fs.rename (.data t.upload) (.blob c.fileName) = some fs')
      (hidle : t'.pc.idle = true) : FileMove cfg w t fs' t'
  | empties {c : Commit} {t'} (hname : HexName c.fileName) (hidle : t'.pc.idle = true) :
      FileMove cfg w t (w.fs.create w.clock (.blob c.fileName)).1 t'
  | drops {t'} (hidle : t'.pc.idle = true) : FileMove cfg w t (w.fs.unlink (.data t.upload)) t'
  | stages {fileName} (hname : HexName fileName) :
      FileMove cfg w t (w.fs.create w.clock (.blob (tmpName fileName))).1
        { t with
          pc := .stageWrite fileName (w.fs.create w.clock (.blob (tmpName fileName))).2 0 }
  | writes {fileName fd offset offset' bytes} (hpc : t.pc = .stageWrite fileName fd offset) :
      FileMove cfg w t (w.fs.write w.clock fd bytes)
        { t with pc := .stageWrite fileName fd offset' }
  | publishes {fileName fs' t'} (hname : HexName fileName)
      (hrename : w.fs.rename (.blob (tmpName fileName)) (.blob fileName) = some fs')
      (hidle : t'.pc.idle = true) : FileMove cfg w t fs' t'
  | deletes {fileName t'} (hname : HexName fileName) (hidle : t'.pc.idle = true) :
      FileMove cfg w t (w.fs.unlink (.blob fileName)) t'

/-! ## §1. Where a handler is idle. -/

theorem named_of_plain {pc : Pc} (h : pc.plain = true) : pc.Named := by
  cases pc <;> first | exact trivial | exact absurd h Bool.false_ne_true

theorem idle_hashed (actual digest : String) (size : Nat) :
    (hashed actual digest size).idle = true ∧ (hashed actual digest size).Named := by
  unfold hashed
  split <;> exact ⟨rfl, trivial⟩

theorem idle_checks (digest : String) (checked rest : List String) :
    (checks digest checked rest).idle = true ∧ (checks digest checked rest).Named := by
  unfold checks
  split
  · exact ⟨rfl, trivial⟩
  · split
    next => exact ⟨rfl, trivial⟩
    next h => exact ⟨rfl, _, h⟩

theorem idle_start (cfg : Config) (request : Request) :
    (Thread.start cfg request).pc.idle = true ∧ (Thread.start cfg request).pc.Named := by
  cases request with
  | startUpload repository mount =>
    rcases mount with _ | ⟨d, _ | source⟩ <;> exact ⟨rfl, trivial⟩
  | patchUpload | commitUpload | sweepOnce => exact ⟨rfl, trivial⟩
  | putManifest =>
    unfold Thread.start Request.start
    dsimp only
    split
    · exact ⟨rfl, trivial⟩
    split
    · exact ⟨rfl, trivial⟩
    split
    · exact ⟨rfl, trivial⟩
    · exact idle_checks _ _ _

/-! ## §2. The calls. -/

section
variable {cfg : Config} {w w' : Shared} {t t' : Thread} {a : Answer}

theorem rests_plain (h : t'.pc.plain = true ∧ t'.pc.idle = true) :
    FileMove cfg w t w.fs t' ∧ t'.pc.Named :=
  ⟨.rests h.2, named_of_plain h.1⟩

theorem startUpload_files (h : w.startUpload t t.pc = some (w', t')) :
    FileMove cfg w t w'.fs t' ∧ t'.pc.Named := by
  unfold Shared.startUpload at h
  cases hpc : t.pc <;> simp only [hpc, reduceCtorEq] at h
  case mountSource =>
    split at h <;> cases h <;> exact ⟨.rests rfl, trivial⟩
  case mountDisk =>
    repeat' split at h
    all_goals cases h; exact ⟨.rests rfl, trivial⟩
  case mountPut | createDir =>
    cases h
    exact ⟨.rests rfl, trivial⟩
  case createSession =>
    cases h
    dsimp only
    split <;> exact ⟨.rests rfl, trivial⟩

theorem stream_files (h : w.stream cfg t a t.pc = some (w', t')) :
    FileMove cfg w t w'.fs t' ∧ t'.pc.Named := by
  unfold Shared.stream at h
  cases hpc : t.pc <;> simp only [hpc, reduceCtorEq] at h
  case session =>
    split at h <;> cases h
    · dsimp only
      split <;> exact ⟨.rests rfl, trivial⟩
    · exact ⟨.rests rfl, trivial⟩
  case rangeSize =>
    split at h <;> cases h <;> exact ⟨.rests rfl, trivial⟩
  case streamSize =>
    cases h
    exact ⟨.measures hpc, named_of_plain (plain_streaming ..)⟩
  case appendOpen =>
    split at h <;> cases h
    · exact ⟨.opens hpc, trivial⟩
    · exact rests_plain (plain_streamFailed ..)
  case appendWrite =>
    cases h
    refine ⟨.appends (max 1 a.amount) hpc, ?_⟩
    dsimp only
    split
    · exact named_of_plain (plain_streaming ..)
    · trivial

theorem commit_files (hnamed : t.pc.Named) (h : w.commit cfg t a t.pc = some (w', t')) :
    FileMove cfg w t w'.fs t' ∧ t'.pc.Named := by
  unfold Shared.commit at h
  cases hpc : t.pc <;> simp only [hpc, reduceCtorEq] at h <;> rw [hpc] at hnamed
  case hashOpen | hashRead =>
    split at h <;> cases h
    · exact (idle_hashed ..).imp_left .rests
    · exact ⟨.rests rfl, trivial⟩
  case commitStat =>
    split at h
    next =>
      cases h
      exact ⟨.rests rfl, trivial⟩
    next hpath =>
      split at h <;> cases h <;> exact ⟨.rests rfl, _, hpath⟩
  case commitOpen =>
    split at h <;> cases h
    · exact ⟨.rests rfl, trivial⟩
    · exact ⟨.rests rfl, hnamed⟩
  case commitRename =>
    split at h <;> cases h
    next => exact ⟨.rests rfl, trivial⟩
    next hrename => exact ⟨.commits hnamed hrename rfl, trivial⟩
  case commitCreate =>
    cases h
    exact ⟨.empties hnamed rfl, trivial⟩
  case cleanData | dropData =>
    cases h
    exact ⟨.drops rfl, trivial⟩
  case cleanDir | dropDir =>
    cases h
    unfold Shared.rmdir
    split <;> exact ⟨.rests rfl, trivial⟩
  case putBlob | deleteSession | dropSession =>
    cases h
    exact ⟨.rests rfl, trivial⟩

theorem putManifest_files (hnamed : t.pc.Named) (h : w.putManifest cfg t a t.pc = some (w', t')) :
    FileMove cfg w t w'.fs t' ∧ t'.pc.Named := by
  unfold Shared.putManifest at h
  cases hpc : t.pc <;> simp only [hpc, reduceCtorEq] at h <;> rw [hpc] at hnamed
  case checkBlob | checkManifest =>
    split at h <;> cases h
    · exact (idle_checks ..).imp_left .rests
    · exact ⟨.rests rfl, trivial⟩
  case stageCreate =>
    cases h
    exact ⟨.stages hnamed, hnamed⟩
  case stageWrite =>
    split at h <;> cases h
    · exact ⟨.rests rfl, hnamed⟩
    · exact ⟨.writes hpc, hnamed⟩
  case stageRename =>
    split at h <;> cases h
    next => exact ⟨.rests rfl, trivial⟩
    next hrename => exact ⟨.publishes hnamed hrename rfl, trivial⟩
  case recordManifest =>
    cases h
    exact ⟨.rests rfl, trivial⟩

theorem sweep_files (h : w.sweep cfg t a t.pc = some (w', t')) :
    FileMove cfg w t w'.fs t' ∧ t'.pc.Named := by
  unfold Shared.sweep at h
  cases hpc : t.pc <;> simp only [hpc, reduceCtorEq] at h
  case listManifests =>
    split at h <;> cases h
    exact rests_plain (plain_marking ..)
  case markOpen =>
    repeat' split at h
    all_goals cases h; exact ⟨.rests rfl, trivial⟩
  case markRead =>
    split at h <;> cases h
    · exact rests_plain (plain_marked ..)
    · exact ⟨.rests rfl, trivial⟩
  case countUploads | recordRun =>
    cases h
    exact ⟨.rests rfl, trivial⟩
  case listBlobs =>
    cases h
    exact rests_plain (plain_listing ..)
  case statBlob =>
    split at h
    next =>
      cases h
      exact rests_plain (plain_sweeping ..)
    next =>
      split at h <;> cases h
      · exact ⟨.rests rfl, trivial⟩
      · exact rests_plain (plain_listing ..)
  case deleteFile =>
    split at h <;> cases h
    next => exact ⟨.rests rfl, trivial⟩
    next hpath => exact ⟨.deletes ⟨_, hpath⟩ rfl, trivial⟩
  case deleteRows =>
    cases h
    exact rests_plain (plain_sweeping ..)

/-- **Every call makes one of these moves.** -/
theorem call_files (hnamed : t.pc.Named) (h : w.call cfg t a = some (w', t')) :
    FileMove cfg w t w'.fs t' ∧ t'.pc.Named := by
  rcases call_cases h with h | h | h | h | h
  · exact startUpload_files h
  · exact stream_files h
  · exact commit_files hnamed h
  · exact putManifest_files hnamed h
  · exact sweep_files h

end

end Denia.Registry

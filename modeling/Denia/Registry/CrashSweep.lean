/-
  Denia.Registry.CrashSweep — a sweep AFTER A CRASH.

  The process may stop between any two calls of its handlers; the files and the rows stay
  as they are and the requests are gone.  `put_content` stages a manifest as `<hex>.tmp`
  next to the blobs, so a stop before its rename leaves that file there.  `list_blobs`
  lists it like a blob, and once it is older than the grace period the sweep hands its name
  to `delete_blob`, which refuses it: not a digest.

  Main results: `blob_names`, what the blob directory holds; `sweep_survives_iff`;
  `staged_leftover_stops_sweep`.
-/
import Denia.Registry.Files

namespace Denia.Registry

open Lib

/-! ## §1. Runs with crashes. -/

/-- A handler moves, or the server crashes. -/
inductive CrashEvent where
  | event (event : Event)
  | crash

/-- One event, or the process stops: files, rows and clock stay, the requests are gone. -/
def Server.stepOrCrash (cfg : Config) (σ : Server) : CrashEvent → Option Server
  | .event event => σ.step cfg event
  | .crash => some { σ with threads := ∅ }

/-- A name of the blob directory: the file of a digest, or one staged for it. -/
def BlobName (fileName : String) : Prop :=
  HexName fileName ∨ ∃ hex, HexName hex ∧ fileName = tmpName hex

/-- The names there are, and the names the handlers work with. -/
structure WellNamed (σ : Server) : Prop where
  files : ∀ fileName i, σ.shared.fs.links.lookup (.blob fileName) = some i → BlobName fileName
  threads : ∀ i t, σ.threads.lookup i = some t → t.pc.Named

variable {w : Shared} {fileName : String}

section
variable {cfg : Config} {t t' : Thread} {fs' : Fs Path UInt8} {σ σ' : Server}

/-- A call adds the file of a digest or a staged one, if it adds a name at all. -/
theorem FileMove.names (h : FileMove cfg w t fs' t')
    (hfiles : ∀ fileName i, w.fs.links.lookup (.blob fileName) = some i → BlobName fileName) :
    ∀ fileName i, fs'.links.lookup (.blob fileName) = some i → BlobName fileName := by
  intro fileName i hlink
  -- a new name is that of a digest, or staged for one
  cases h with
  | rests | measures | appends | writes => exact hfiles fileName i hlink
  | opens =>
    rw [Fs.links_openCreate_of_ne (by simp)] at hlink
    exact hfiles fileName i hlink
  | @commits c fs' t' hname hrename hidle =>
    by_cases heq : fileName = c.fileName
    · subst heq
      exact .inl hname
    · rw [Fs.links_rename_of_ne hrename (by simp) (by simpa using heq)] at hlink
      exact hfiles fileName i hlink
  | @empties c t' hname hidle =>
    by_cases heq : fileName = c.fileName
    · subst heq
      exact .inl hname
    · rw [Fs.links_create_of_ne (by simpa using heq)] at hlink
      exact hfiles fileName i hlink
  | drops =>
    rw [Fs.links_unlink_of_ne (by simp)] at hlink
    exact hfiles fileName i hlink
  | @stages name hname =>
    by_cases heq : fileName = tmpName name
    · exact .inr ⟨name, hname, heq⟩
    · rw [Fs.links_create_of_ne (by simpa using heq)] at hlink
      exact hfiles fileName i hlink
  | @publishes name fs' t' hname hrename hidle =>
    by_cases heq : fileName = name
    · subst heq
      exact .inl hname
    by_cases htmp : fileName = tmpName name
    · exact .inr ⟨name, hname, htmp⟩
    · rw [Fs.links_rename_of_ne hrename (by simpa using htmp) (by simpa using heq)] at hlink
      exact hfiles fileName i hlink
  | deletes =>
    exact hfiles fileName i (lookup_of_erase hlink).2

theorem step_wellNamed {event : CrashEvent} (hσ : WellNamed σ)
    (h : σ.stepOrCrash cfg event = some σ') : WellNamed σ' := by
  cases event with
  | crash =>
    cases h
    exact ⟨hσ.files, fun i t ht => by cases ht.symm.trans (AList.lookup_empty i)⟩
  | event event =>
    have h : σ.step cfg event = some σ' := h
    cases event with
    | arrive request =>
      cases h
      refine ⟨hσ.files, fun i t ht => ?_⟩
      rcases lookup_insert_cases ht with ⟨rfl, rfl⟩ | ⟨-, hold⟩
      · exact (idle_start cfg request).2
      · exact hσ.threads i t hold
    | elapse =>
      cases h
      exact ⟨hσ.files, hσ.threads⟩
    | proceed i =>
      obtain ⟨t, w, t', ht, hcall, rfl⟩ := step_proceed h
      obtain ⟨hmove, hnamed⟩ := call_files (hσ.threads i t ht) hcall
      refine ⟨hmove.names hσ.files, fun j s hs => ?_⟩
      rcases lookup_insert_cases hs with ⟨rfl, rfl⟩ | ⟨-, hold⟩
      · exact hnamed
      · exact hσ.threads j s hold

theorem wellNamed_empty : WellNamed emptyRegistry where
  files fileName i hlink := by cases hlink.symm.trans (AList.lookup_empty _)
  threads i t ht := by cases ht.symm.trans (AList.lookup_empty i)

/-- **The names in the blob directory**, after any run with any number of crashes. -/
theorem blob_names {events : List CrashEvent}
    (h : exec (Server.stepOrCrash cfg) emptyRegistry events = some σ) {i : Nat}
    (hlink : σ.shared.fs.links.lookup (.blob fileName) = some i) : BlobName fileName :=
  (exec_invariant_all WellNamed (fun _ _ _ hs hstep => step_wellNamed hs hstep) wellNamed_empty
    h).files fileName i hlink

end

/-! ## §2. What a later sweep works on. -/

namespace Shared

/-- The blob directory, in its order. -/
def blobFiles (w : Shared) : AList fun _ : String => BlobFile :=
  insertAll id (fun fileName => (w.fs.links.lookup (.blob fileName)).map fun i =>
    (⟨w.fs.contents i, w.fs.mtime i⟩ : BlobFile)) w.blobNames.reverse ∅

/-- The uploads with a data file; the others are not counted. -/
def uploadFiles (w : Shared) : AList fun _ : Uuid => Option Bytes :=
  insertAll id (fun upload => some (w.fs.read (.data upload)))
    (w.fs.links.keys.filterMap fun
      | .data upload => if upload ∈ w.dirs then some upload else none
      | .blob _ => none) ∅

/-- The registry as a sweep that runs alone finds it. -/
def registryState (w : Shared) : RegistryState where
  storage := { blobs := w.blobFiles, uploads := w.uploadFiles }
  repo := w.repo

theorem nodup_blobNames (w : Shared) : w.blobNames.Nodup := by
  refine List.Nodup.filterMap ?_ (AList.keys_nodup w.fs.links)
  intro p q name hp hq
  cases p with
  | data => cases hp
  | blob a =>
    cases q with
    | data => cases hq
    | blob b =>
      obtain rfl : a = name := Option.some.inj hp
      obtain rfl : b = a := Option.some.inj hq
      rfl

theorem mem_blobNames :
    fileName ∈ w.blobNames ↔ ∃ i, w.fs.links.lookup (.blob fileName) = some i := by
  have hkey : (∃ i, w.fs.links.lookup (.blob fileName) = some i) ↔
      Path.blob fileName ∈ w.fs.links.keys := by
    rw [← AList.mem_keys, ← AList.lookup_isSome, Option.isSome_iff_exists]
  rw [hkey]
  unfold blobNames
  rw [List.mem_filterMap]
  constructor
  · rintro ⟨p, hp, hname⟩
    cases p with
    | data => cases hname
    | blob name =>
      obtain rfl : name = fileName := Option.some.inj hname
      exact hp
  · intro hp
    exact ⟨_, hp, rfl⟩

theorem lookup_blobFiles {file : BlobFile} : w.blobFiles.lookup fileName = some file ↔
      ∃ i, w.fs.links.lookup (.blob fileName) = some i ∧
        (⟨w.fs.contents i, w.fs.mtime i⟩ : BlobFile) = file := by
  have hnodup : (w.blobNames.reverse.map id).Nodup := by
    rw [List.map_id]
    exact List.nodup_reverse.mpr w.nodup_blobNames
  unfold blobFiles
  rw [lookup_insertAll hnodup]
  constructor
  · rintro (⟨x, -, rfl, hfile⟩ | ⟨-, hempty⟩)
    · exact Option.map_eq_some_iff.mp hfile
    · cases hempty.symm.trans (AList.lookup_empty _)
  · rintro ⟨i, hlink, hfile⟩
    refine .inl ⟨fileName, List.mem_reverse.mpr (mem_blobNames.mpr ⟨i, hlink⟩), rfl, ?_⟩
    exact Option.map_eq_some_iff.mpr ⟨i, hlink, hfile⟩

end Shared

/-! ## §3. When the sweep goes through. -/

/-- A sweep that returns, and deletes every blob that is neither referenced nor younger
than the grace period. -/
def SweepsAll (fromSlice : Bytes → Option Json) (grace : Nat) (now : Time)
    (digests : List String) (st : RegistryState) : Prop :=
  ∃ st' report, sweepOnce fromSlice grace now digests st = .ok (st', report) ∧
    ∀ digest name file, blobPath digest = .ok name → st.storage.blobs.lookup name = some file →
      file.mtime ≤ now - grace → ¬ BlobReachable fromSlice st digest →
      ¬ st'.storage.HasBlob digest

theorem blobPath_of_hexName (h : HexName fileName) :
    blobPath (digestOf fileName) = .ok fileName := by
  obtain ⟨digest, hpath⟩ := h
  rwa [digestOf_of_blobPath hpath]

theorem blobPath_tmpName (hex name : String) : blobPath (digestOf (tmpName hex)) ≠ .ok name := by
  intro hpath
  have hname : name = tmpName hex := digestOf_inj (digestOf_of_blobPath hpath)
  exact blobPath_ne_tmpName hpath hex hname

/-- The mark loop has what recorded manifests name, as far as they are read. -/
theorem marked_iff {fromSlice : Bytes → Option Json} {storage : RegistryStorage}
    {digests marked : List String}
    (h : markLoop fromSlice storage [] digests.reverse = .ok marked) (d : String) :
    d ∈ marked ↔ NamedByReadRow fromSlice storage digests d := by
  rw [markLoop_spec fromSlice storage h]
  simp [NamedByReadRow, readRows]

/-- **A sweep after crashes.**  In every registry that a run with any number of crashes
leaves, with every recorded manifest readable: a sweep returns and deletes every blob that
is neither referenced nor younger than the grace period if and only if every staged file
that was left behind is younger than the grace period, or named by a recorded manifest
that the sweep reads. -/
theorem sweep_survives_iff {cfg : Config} {events : List CrashEvent} {σ : Server}
    (h : exec (Server.stepOrCrash cfg) emptyRegistry events = some σ) {digests : List String}
    (hlist : σ.shared.repo.IsManifestListing digests) (hread : ∀ d ∈ digests,
      ∃ v, manifestBody cfg.fromSlice σ.shared.registryState.storage d = .ok v) (now : Time) :
    SweepsAll cfg.fromSlice cfg.grace now digests σ.shared.registryState ↔
      ∀ hex file, σ.shared.blobFiles.lookup (tmpName hex) = some file →
        now - cfg.grace < file.mtime ∨
          NamedByReadRow cfg.fromSlice σ.shared.registryState.storage digests
            (digestOf (tmpName hex)) := by
  have hmark : ∃ marked,
      markLoop cfg.fromSlice σ.shared.registryState.storage [] digests.reverse = .ok marked :=
    markLoop_ok cfg.fromSlice σ.shared.registryState.storage
      fun d hd _ => hread d (List.mem_reverse.mp hd)
  obtain ⟨marked, hmark⟩ := hmark
  have hmarked := marked_iff hmark
  have hentry : ∀ name file, σ.shared.blobFiles.lookup name = some file →
      (digestOf name, file.mtime, file.bytes.length) ∈
        σ.shared.registryState.storage.listBlobs := by
    intro name file hfile
    exact List.mem_map.mpr ⟨⟨name, file⟩, AList.mem_lookup_iff.mp hfile, rfl⟩
  constructor
  · rintro ⟨st', report, hsweep, -⟩ hex file hfile
    -- the loop has returned, so an entry it wanted deleted had a path
    obtain ⟨marked', st1, report0, hmark', hloop, -⟩ := sweepOnce_cases hsweep
    rw [hmark] at hmark'
    obtain rfl := Except.ok.inj hmark'
    by_contra hleft
    rw [not_or, Int.not_lt] at hleft
    obtain ⟨name, hname⟩ := sweepLoop_ok_iff.mp ⟨_, hloop⟩ _ (hentry _ _ hfile)
      ⟨fun hmem => hleft.2 ((hmarked _).mp hmem), hleft.1⟩
    exact blobPath_tmpName hex name hname
  · intro hcond
    have hpaths : ∀ e ∈ σ.shared.registryState.storage.listBlobs,
        Swept marked (now - cfg.grace) e → ∃ name, blobPath e.1 = .ok name := by
      intro e he hswept
      obtain ⟨⟨name, file⟩, hentry, rfl⟩ := List.mem_map.mp he
      have hfile : σ.shared.blobFiles.lookup name = some file := AList.mem_lookup_iff.mpr hentry
      obtain ⟨i, hlink, -⟩ := Shared.lookup_blobFiles.mp hfile
      rcases blob_names h hlink with hhex | ⟨hex, -, rfl⟩
      · exact ⟨name, blobPath_of_hexName hhex⟩
      · rcases hcond hex file hfile with hyoung | hnamed
        · exact absurd hswept.2 (Int.not_le.mpr hyoung)
        · exact absurd ((hmarked _).mpr hnamed) hswept.1
    obtain ⟨⟨st1, report1⟩, hloop⟩ := sweepLoop_ok_iff.mpr hpaths
    have hsweep : ∃ st' report, sweepOnce cfg.fromSlice cfg.grace now digests
        σ.shared.registryState = .ok (st', report) := by
      unfold sweepOnce
      rw [hmark]
      simp only
      rw [hloop]
      exact ⟨_, _, rfl⟩
    obtain ⟨st', report, hsweep⟩ := hsweep
    refine ⟨st', report, hsweep, ?_⟩
    rintro digest name file hpath hfile hold hunreachable ⟨name', file', hpath', hleft⟩
    rw [hpath] at hpath'
    obtain rfl := Except.ok.inj hpath'
    have hgone := (sweepOnce_deletes_iff hsweep hfile).mpr ⟨hold, fun hnamed => hunreachable ?_⟩
    · simp [hgone] at hleft
    · rw [← digestOf_of_blobPath hpath]
      exact hnamed.reachable hlist

/-! ## §4. A crash inside `put_content`. -/

/-- A manifest without references, by its name. -/
def bareName : String := "44136fa355b3678a1146ad16f7e8649e94fb4fc21fe77e8310c060f61caaff8a"

/-- The manifest is pushed, up to its staged file. -/
def pushBare (i : Nat) : List Event :=
  .arrive (.putManifest 1 "latest" "application/json" (ascii "\x7b\x7d")) :: proceeds i 1

/-- How a sweep of what a run leaves ends, with no manifest recorded. -/
def sweepEnds (now : Time) (σ : Server) : Option RegistryGcError :=
  match sweepOnce parseExample exampleConfig.grace now [] σ.shared.registryState with
  | .ok _ => none
  | .error e => some e

theorem isManifestListing_of_keys {repo : HostedRegistryRepo} {ds : List String}
    (hnodup : ds.Nodup) (h : repo.manifests.keys.map (·.2) = ds) : repo.IsManifestListing ds := by
  refine ⟨hnodup, fun d => ?_⟩
  rw [← h, List.mem_map]
  constructor
  · rintro ⟨key, hkey, rfl⟩
    exact ⟨key.1, AList.lookup_isSome.mpr (AList.mem_keys.mpr hkey)⟩
  · rintro ⟨repository, hrow⟩
    exact ⟨(repository, d), AList.mem_keys.mp (AList.lookup_isSome.mp hrow), rfl⟩

/-- **A leftover stops the sweep**: ten seconds after a crash before the rename a sweep, with no
manifest recorded at all, ends with an error. -/
theorem staged_leftover_stops_sweep : ∃ σ, exec (Server.stepOrCrash exampleConfig) emptyRegistry
        ((pushBare 0).map .event ++ [.crash]) = some σ ∧
      σ.shared.repo.IsManifestListing [] ∧
      sweepOnce exampleConfig.fromSlice exampleConfig.grace 10 [] σ.shared.registryState
        = .error (.storage .invalidDigest) := by
  refine exists_run (fun σ => sweepEnds 10 σ = some (.storage .invalidDigest) ∧
    σ.shared.repo.manifests.keys.map (·.2) = []) (by decide +kernel) fun σ _ hend => ?_
  obtain ⟨hends, hnone⟩ := hend
  refine ⟨isManifestListing_of_keys List.nodup_nil hnone, ?_⟩
  unfold sweepEnds at hends
  split at hends
  next => cases hends
  next e he => exact he.trans (congrArg _ (Option.some.inj hends))

/-- The blob "ab" is committed and the manifest recorded; ten seconds later the manifest is
pushed again, and the process stops before the rename. -/
def youngLeftover : List CrashEvent :=
  (uploadAb ++ hashAb 2 ++ proceeds 2 7 ++ pushBare 3 ++ proceeds 3 4 ++
    .elapse 10 :: pushBare 4).map .event ++ [.crash]

/-- Two seconds after the crash a sweep spares the staged file and the manifest, and deletes
"ab". -/
theorem sweep_survives_committed :
    ∃ σ, exec (Server.stepOrCrash exampleConfig) emptyRegistry youngLeftover = some σ ∧
      σ.shared.blobNames = [tmpName bareName, bareName, abName] ∧
      SweepsAll exampleConfig.fromSlice exampleConfig.grace 12 [digestOf bareName]
        σ.shared.registryState := by
  refine exists_run (fun σ => σ.shared.blobNames = [tmpName bareName, bareName, abName] ∧
    σ.shared.repo.manifests.keys.map (·.2) = [digestOf bareName] ∧
    (manifestBody parseExample σ.shared.registryState.storage (digestOf bareName)).toOption.isSome ∧
    ∀ e ∈ σ.shared.blobFiles.entries, '.' ∈ e.1.toList → (7 : Int) < e.2.mtime)
    (by decide +kernel) fun σ hσ hend => ?_
  obtain ⟨hnames, hrows, hbody, hyoung⟩ := hend
  refine ⟨hnames, (sweep_survives_iff hσ (isManifestListing_of_keys (List.nodup_singleton _) hrows)
    (fun d hd => ?_) 12).mpr fun hex file hfile => .inl ?_⟩
  · rw [List.mem_singleton.mp hd]
    cases hread : manifestBody parseExample σ.shared.registryState.storage (digestOf bareName) with
    | error =>
      rw [hread] at hbody
      cases hbody
    | ok v => exact ⟨v, hread⟩
  · refine hyoung ⟨tmpName hex, file⟩ (AList.mem_lookup_iff.mp hfile) ?_
    rw [tmpName, String.toList_append]
    exact List.mem_append_right _ (by decide)

end Denia.Registry

/-
  Denia.Registry.GcConcurrent — a sweep of the collector while manifests are pushed.

  A sweep marks from the rows it listed at its start and deletes from the directory it
  listed later; a push checks the blob rows one by one and writes its own row at the end.
  So a blob that was unreferenced when the sweep marked can be referenced when it is deleted.

  Main results: `call_progress`, one call; `sweep_keeps_recorded`, if each deletion of the
  rows of a digest is safe (`safeStep`); `sweep_breaks_push`.
-/
import Denia.Registry.ContentAddressed

namespace Denia.Registry

open Lib Thread

/-- The config and layer digests of a manifest body. -/
def contentOf (cfg : Config) (bytes : Bytes) : List String :=
  ((cfg.fromSlice bytes).map contentDigests).getD []

/-- The manifest `manifest` names `digest` as its config or as a layer. -/
def Names (cfg : Config) (manifest digest : String) : Prop :=
  ∃ bytes, cfg.sha256 bytes = manifest ∧ digest ∈ contentOf cfg bytes

/-- A file stands at `blob_path(digest)`. -/
def HasFile (fs : Fs Path UInt8) (digest : String) : Prop :=
  ∃ fileName, blobPath digest = .ok fileName ∧ (fs.links.lookup (.blob fileName)).isSome

/-- The config and the layers of every recorded manifest have their blob row, in the
repository of the manifest, and their blob file. -/
def Intact (cfg : Config) (w : Shared) : Prop :=
  ∀ repository manifest, (w.repo.manifest repository manifest).isSome →
    ∀ digest, Names cfg manifest digest →
      w.repo.hasBlob repository digest = true ∧ HasFile w.fs digest

/-! ## §1. What a push and a sweep rely on. -/

/-- The push has found the row of a digest it names, and has not written its own. -/
def Thread.counts (cfg : Config) (t : Thread) (digest : String) : Bool :=
  match t.pc with
  | .checkBlob checked _ _ | .checkManifest checked _ _ =>
      digest ∈ checked ∧ digest ∈ contentOf cfg t.request.manifestBytes
  | .stageCreate _ | .stageWrite _ _ _ | .stageRename _ | .recordManifest =>
      digest ∈ contentOf cfg t.request.manifestBytes
  | _ => false

/-- The sweep has deleted the file of a digest and is about to delete its rows. -/
def Thread.collects (t : Thread) (digest : String) : Bool :=
  match t.pc with
  | .deleteRows _ _ d _ _ => d = digest
  | _ => false

/-- What the bodies that were read name is marked. -/
def Marks (cfg : Config) (s : Sweep) : Prop :=
  ∀ bytes ∈ s.bodies, ∀ digest ∈ contentOf cfg bytes, digest ∈ s.referenced

/-- What a handler is in the middle of. -/
def InStep (cfg : Config) (t : Thread) : Prop :=
  match t.pc with
  | .checkBlob checked dep rest | .checkManifest checked dep rest =>
      ∀ digest ∈ contentOf cfg t.request.manifestBytes, digest ∈ checked ++ dep :: rest
  | .markOpen s _ _ | .markRead s _ _ _ _ | .countUploads s | .listBlobs s
  | .statBlob s _ _ _ | .recordRun s => Marks cfg s
  | .deleteFile s _ digest _ _ | .deleteRows s _ digest _ _ =>
      Marks cfg s ∧ digest ∉ s.referenced
  | _ => True

/-- The calls of uploads, and the end. -/
def Pc.ofUpload : Pc → Bool
  | .checkBlob _ _ _ | .checkManifest _ _ _ | .stageCreate _ | .stageWrite _ _ _
  | .stageRename _ | .recordManifest | .markOpen _ _ _ | .markRead _ _ _ _ _
  | .countUploads _ | .listBlobs _ | .statBlob _ _ _ _ | .deleteFile _ _ _ _ _
  | .deleteRows _ _ _ _ _ | .recordRun _ => false
  | _ => true

variable {cfg : Config} {t : Thread} {s : Sweep} {checked rest : List String} {digest d : String}

theorem inStep_ofUpload (h : t.pc.ofUpload = true) : InStep cfg t := by
  unfold InStep
  cases hpc : t.pc <;> first | trivial | (rw [hpc] at h; cases h)

theorem counts_ofUpload (h : t.pc.ofUpload = true) (digest : String) :
    t.counts cfg digest = false := by
  unfold counts
  cases hpc : t.pc <;> first | rfl | (rw [hpc] at h; cases h)

theorem ofUpload_streamFailed (request : Request) (error : ApiError) :
    (streamFailed request error).ofUpload = true := by
  unfold streamFailed
  split <;> rfl

theorem ofUpload_streaming (request : Request) (total : Nat) (rest : List Bytes) :
    (streaming cfg request total rest).ofUpload = true := by
  unfold streaming
  split
  · rfl
  · exact ofUpload_streamFailed _ _
  · split <;> rfl

theorem ofUpload_hashed (actual digest : String) (size : Nat) :
    (hashed actual digest size).ofUpload = true := by
  unfold hashed
  split <;> rfl

/-- A handler that is no push: it counts on no row. -/
def Sweeps (cfg : Config) (t : Thread) : Prop := InStep cfg t ∧ ∀ d, t.counts cfg d = false

theorem sweeps_ofUpload (h : t.pc.ofUpload = true) : Sweeps cfg t :=
  ⟨inStep_ofUpload h, counts_ofUpload h⟩

theorem sweeps_marking (h : Marks cfg s) (queue : List String) :
    Sweeps cfg { t with pc := marking s queue } := by
  induction queue with
  | nil => exact ⟨h, fun _ => rfl⟩
  | cons digest queue ih =>
    unfold marking
    split
    · exact ih
    · exact ⟨h, fun _ => rfl⟩

theorem sweeps_marked (h : Marks cfg s) (digest : String) (queue : List String) (bytes : Bytes) :
    Sweeps cfg { t with pc := marked cfg s digest queue bytes } := by
  unfold marked
  split
  next => exact sweeps_ofUpload rfl
  next v hparse =>
    refine sweeps_marking (fun b hb d hd => ?_) _
    refine mem_markBody.mpr ?_
    rcases List.mem_cons.mp hb with rfl | hb
    · refine .inr (List.mem_append_left _ ?_)
      simpa [contentOf, hparse] using hd
    · exact .inl (List.mem_cons_of_mem _ (h b hb d hd))

theorem sweeps_sweeping (h : Marks cfg s) (cutoff : Time) (listed : List Listed) :
    Sweeps cfg { t with pc := sweeping s cutoff listed } := by
  induction listed generalizing s with
  | nil => exact ⟨h, fun _ => rfl⟩
  | cons e rest ih =>
    unfold sweeping
    dsimp only
    split
    next => exact ih h
    next hmarked =>
      split
      next => exact ih h
      next => exact ⟨⟨h, hmarked⟩, fun _ => rfl⟩

theorem sweeps_listing (h : Marks cfg s) (cutoff : Time) (listed : List Listed)
    (names : List String) : Sweeps cfg { t with pc := listing s cutoff listed names } := by
  unfold listing
  split
  · exact sweeps_sweeping h _ _
  · exact ⟨h, fun _ => rfl⟩

theorem inStep_checks (h : ∀ d ∈ contentOf cfg t.request.manifestBytes, d ∈ checked ++ rest) :
    InStep cfg { t with pc := checks digest checked rest } := by
  unfold checks
  split
  · exact h
  · split
    · exact inStep_ofUpload rfl
    · trivial

/-- A push that goes on to its next digest counts on what it has checked. -/
theorem counts_checks (hall : ∀ d ∈ contentOf cfg t.request.manifestBytes, d ∈ checked ++ rest)
    (h : ({ t with pc := checks digest checked rest } : Thread).counts cfg d = true) :
    d ∈ checked ∧ d ∈ contentOf cfg t.request.manifestBytes := by
  unfold checks at h
  split at h
  · simpa [counts] using h
  · split at h
    · simp [counts] at h
    · have hd : d ∈ contentOf cfg t.request.manifestBytes := by simpa [counts] using h
      exact ⟨by simpa using hall d hd, hd⟩

/-- A handler starts counting on nothing. -/
theorem starts (cfg : Config) (request : Request) : Sweeps cfg (start cfg request) := by
  unfold start
  cases request with
  | startUpload repository mount =>
    rcases mount with _ | ⟨d, _ | source⟩ <;> exact sweeps_ofUpload rfl
  | patchUpload | commitUpload | sweepOnce => exact sweeps_ofUpload rfl
  | putManifest repository reference mediaType bytes =>
    unfold Request.start
    dsimp only
    split
    · exact sweeps_ofUpload rfl
    split
    · exact sweeps_ofUpload rfl
    split
    next => exact sweeps_ofUpload rfl
    next v hparse =>
      let t : Thread := ⟨.putManifest repository reference mediaType bytes, 0, .session⟩
      have hall : ∀ d ∈ contentOf cfg t.request.manifestBytes, d ∈ [] ++ referencedDigests v := by
        intro d hd
        show d ∈ contentDigests v ++ subManifestDigests v
        refine List.mem_append_left _ ?_
        simpa [contentOf, t, Request.manifestBytes, hparse] using hd
      refine ⟨inStep_checks (t := t) hall, fun d => ?_⟩
      by_contra hcounts
      have hmem := (counts_checks (t := t) hall (Bool.eq_true_of_not_eq_false hcounts)).1
      cases hmem

variable {w' : Shared} {t' : Thread} {a : Answer} {now : Time}

/-! ## §2. The files. -/

section
variable {fs fs' : Fs Path UInt8} {w : Shared}

/-- The blob files stay; a temporary file may go. -/
def KeepsFiles (fs fs' : Fs Path UInt8) : Prop :=
  ∀ name, (∀ m, name ≠ tmpName m) → (fs.links.lookup (.blob name)).isSome →
    (fs'.links.lookup (.blob name)).isSome

variable {p : Path} {r : Uuid}

theorem KeepsFiles.hasFile (h : KeepsFiles fs fs') (hfile : HasFile fs digest) :
    HasFile fs' digest := by
  obtain ⟨fileName, hpath, hlink⟩ := hfile
  exact ⟨fileName, hpath, h fileName (blobPath_ne_tmpName hpath) hlink⟩

theorem keepsFiles_openCreate : KeepsFiles fs (fs.openCreate now p).1 := by
  intro name _ hlink
  by_cases hp : .blob name = p
  · rw [hp, Fs.links_openCreate_self]
    rfl
  · rwa [Fs.links_openCreate_of_ne hp]

theorem keepsFiles_create : KeepsFiles fs (fs.create now p).1 := by
  intro name _ hlink
  by_cases hp : .blob name = p
  · rw [hp, Fs.links_create_self]
    rfl
  · rwa [Fs.links_create_of_ne hp]

theorem KeepsFiles.refl (fs : Fs Path UInt8) : KeepsFiles fs fs := fun _ _ h => h

/-- A rename of an upload or of a temporary file. -/
theorem keepsFiles_rename {q : Path} (h : fs.rename p q = some fs')
    (hp : ∀ name, (∀ m, name ≠ tmpName m) → .blob name ≠ p) : KeepsFiles fs fs' := by
  intro name hname hlink
  by_cases hq : .blob name = q
  · obtain ⟨i, _, rfl⟩ := Fs.rename_eq_some h
    show (((fs.links.erase p).insert q i).lookup (.blob name)).isSome
    rw [hq, AList.lookup_insert]
    rfl
  · rwa [Fs.links_rename_of_ne h (hp name hname) hq]

theorem keepsFiles_unlink {upload : Uuid} : KeepsFiles fs (fs.unlink (.data upload)) := by
  intro name _ hlink
  rwa [Fs.links_unlink_of_ne (by simp)]

/-! ## §3. One call. -/

/-- What one call does to the rows. -/
inductive RowMove (cfg : Config) (w : Shared) (t : Thread) (w' : Shared) (t' : Thread) : Prop
  | quiet (hblobs : w'.repo.blobs = w.repo.blobs)
      (hmanifests : w'.repo.manifests = w.repo.manifests)
      (hcollects : ∀ d, t.collects d = false) (hstep : InStep cfg t')
      (hcounts : ∀ d, t'.counts cfg d = true →
        t.counts cfg d = true ∨ w.repo.hasBlob t.request.repository d = true)
  | putBlob {digest : String} {size : Nat}
      (hpc : t.pc = .mountPut digest size ∨ t.pc = .putBlob digest size)
      (hrepo : w'.repo = w.repo.putBlob t.request.repository digest size)
      (hpc' : t'.pc.ofUpload = true)
  | record (hpc : t.pc = .recordManifest)
      (hrepo : w'.repo = w.repo.putManifest t.request.repository
        (cfg.sha256 t.request.manifestBytes) t.request.mediaType t.request.manifestBytes.length)
      (hpc' : t'.pc.ofUpload = true)
  | deleteRows {s : Sweep} {cutoff : Time} {digest : String} {size : Nat} {rest : List Listed}
      (hpc : t.pc = .deleteRows s cutoff digest size rest)
      (hrepo : w'.repo = w.repo.deleteBlobRows digest)
      (hstep : InStep cfg t') (hcounts : ∀ d, t'.counts cfg d = false)

/-- What one call does to the files and to the rows.  Only a sweep takes a blob file away,
and it goes on to delete the rows. -/
structure Progress (cfg : Config) (w : Shared) (t : Thread) (w' : Shared) (t' : Thread) : Prop where
  request : t'.request = t.request
  files : ∀ d, HasFile w.fs d → HasFile w'.fs d ∨ t'.collects d = true
  rows : RowMove cfg w t w' t'

/-- A call of an upload that leaves the rows of blobs and manifests alone. -/
theorem Progress.of_upload (hpc : t.pc.ofUpload = true) (hpc' : t'.pc.ofUpload = true)
    (hfiles : KeepsFiles w.fs w'.fs := by exact .refl _)
    (hrequest : t'.request = t.request := by rfl) (hrepo : w'.repo = w.repo := by rfl) :
    Progress cfg w t w' t' where
  request := hrequest
  files _ hd := .inl (hfiles.hasFile hd)
  rows := by
    refine .quiet (by rw [hrepo]) (by rw [hrepo]) (fun d => ?_) (inStep_ofUpload hpc')
      fun d hd => ?_
    · unfold collects
      cases ht : t.pc <;> first | rfl | (rw [ht] at hpc; cases hpc)
    · simp [counts_ofUpload hpc'] at hd

theorem startUpload_progress (h : w.startUpload t t.pc = some (w', t')) :
    Progress cfg w t w' t' := by
  unfold Shared.startUpload at h
  cases hpc : t.pc <;> simp only [hpc, reduceCtorEq] at h
  all_goals have hup : t.pc.ofUpload = true := by rw [hpc]; rfl
  case mountSource =>
    split at h <;> cases h <;> exact .of_upload hup rfl
  case mountDisk =>
    repeat' split at h
    all_goals cases h; exact .of_upload hup rfl
  case mountPut =>
    cases h
    exact ⟨rfl, fun _ hd => .inl hd, .putBlob (.inl hpc) rfl rfl⟩
  case createDir =>
    cases h
    exact .of_upload hup rfl
  case createSession =>
    cases h
    refine .of_upload hup ?_
    dsimp only
    split <;> rfl

theorem stream_progress (h : w.stream cfg t a t.pc = some (w', t')) : Progress cfg w t w' t' := by
  unfold Shared.stream at h
  cases hpc : t.pc <;> simp only [hpc, reduceCtorEq] at h
  all_goals have hup : t.pc.ofUpload = true := by rw [hpc]; rfl
  case session =>
    split at h <;> cases h
    · refine .of_upload hup ?_
      dsimp only
      split <;> rfl
    · exact .of_upload hup rfl
  case rangeSize =>
    split at h <;> cases h <;> exact .of_upload hup rfl
  case streamSize =>
    cases h
    exact .of_upload hup (ofUpload_streaming ..)
  case appendOpen =>
    split at h <;> cases h
    · exact .of_upload hup rfl keepsFiles_openCreate
    · exact .of_upload hup (ofUpload_streamFailed ..)
  case appendWrite =>
    cases h
    refine .of_upload hup ?_ (fun _ _ hlink => hlink)
    dsimp only
    split
    · exact ofUpload_streaming ..
    · rfl

theorem commit_progress (h : w.commit cfg t a t.pc = some (w', t')) : Progress cfg w t w' t' := by
  unfold Shared.commit at h
  cases hpc : t.pc <;> simp only [hpc, reduceCtorEq] at h
  all_goals have hup : t.pc.ofUpload = true := by rw [hpc]; rfl
  case hashOpen | hashRead =>
    split at h <;> cases h
    · exact .of_upload hup (ofUpload_hashed ..)
    · exact .of_upload hup rfl
  case commitStat =>
    repeat' split at h
    all_goals cases h; exact .of_upload hup rfl
  case commitOpen =>
    split at h <;> cases h <;> exact .of_upload hup rfl
  case commitRename =>
    split at h <;> cases h
    next => exact .of_upload hup rfl
    next hrename =>
      exact .of_upload hup rfl (keepsFiles_rename hrename fun _ _ => by simp)
  case commitCreate =>
    cases h
    exact .of_upload hup rfl keepsFiles_create
  case cleanData | dropData =>
    cases h
    exact .of_upload hup rfl keepsFiles_unlink
  case cleanDir | dropDir =>
    cases h
    unfold Shared.rmdir
    split <;> exact .of_upload hup rfl
  case putBlob =>
    cases h
    exact ⟨rfl, fun _ hd => .inl hd, .putBlob (.inr hpc) rfl rfl⟩
  case deleteSession | dropSession =>
    cases h
    exact .of_upload hup rfl

/-- A digest named as config or layer is found by its blob row, if it is found. -/
def throughBlobRow (cfg : Config) (w : Shared) (t : Thread) : Prop :=
  match t.pc with
  | .checkManifest _ dep _ =>
      dep ∈ contentOf cfg t.request.manifestBytes →
        w.repo.manifest t.request.repository dep = none
  | _ => True

/-- A call of a push that leaves the rows alone and has checked no more digests. -/
theorem Progress.of_push (hcollects : ∀ d, t.collects d = false)
    (hfiles : KeepsFiles w.fs w'.fs) (hstep : InStep cfg t')
    (hcounts : ∀ d, t'.counts cfg d = true →
      t.counts cfg d = true ∨ w.repo.hasBlob t.request.repository d = true)
    (hrequest : t'.request = t.request := by rfl) (hrepo : w'.repo = w.repo := by rfl) :
    Progress cfg w t w' t' where
  request := hrequest
  files _ hd := .inl (hfiles.hasFile hd)
  rows := .quiet (by rw [hrepo]) (by rw [hrepo]) hcollects hstep hcounts

/-- One more digest is checked, by its blob row if the manifest names it. -/
theorem checked_progress {dep : String} (hcollects : ∀ d, t.collects d = false)
    (hin : ∀ d ∈ contentOf cfg t.request.manifestBytes, d ∈ checked ++ dep :: rest)
    (hchecked : ∀ d ∈ checked, d ∈ contentOf cfg t.request.manifestBytes →
      t.counts cfg d = true) (hrow : dep ∈ contentOf cfg t.request.manifestBytes →
      w.repo.hasBlob t.request.repository dep = true) : Progress cfg w t w { t with
      pc := checks (cfg.sha256 t.request.manifestBytes) (checked ++ [dep]) rest } := by
  have hin' : ∀ d ∈ contentOf cfg t.request.manifestBytes, d ∈ (checked ++ [dep]) ++ rest := by
    intro d hd
    rw [List.append_assoc]
    exact hin d hd
  refine .of_push hcollects (.refl _) (inStep_checks hin') fun d hd => ?_
  obtain ⟨hmem, hcontent⟩ := counts_checks hin' hd
  rcases List.mem_append.mp hmem with hmem | hmem
  · exact .inl (hchecked d hmem hcontent)
  · rw [List.mem_singleton] at hmem
    subst hmem
    exact .inr (hrow hcontent)

theorem putManifest_progress (hin : InStep cfg t) (hrow : throughBlobRow cfg w t)
    (h : w.putManifest cfg t a t.pc = some (w', t')) : Progress cfg w t w' t' := by
  unfold Shared.putManifest at h
  cases hpc : t.pc <;> simp only [hpc, reduceCtorEq] at h <;>
    simp only [InStep, throughBlobRow, hpc] at hin hrow
  all_goals have hcollects : ∀ d, t.collects d = false := fun d => by simp [collects, hpc]
  case checkBlob checked dep rest =>
    split at h <;> cases h
    next hblob =>
      refine checked_progress hcollects hin (fun d hd hcontent => ?_) fun _ => hblob
      simp [counts, hpc, hd, hcontent]
    next =>
      refine .of_push hcollects (.refl _) hin fun d hd => .inl ?_
      simpa [counts, hpc] using hd
  case checkManifest checked dep rest =>
    split at h <;> cases h
    next hmanifest =>
      refine checked_progress hcollects hin (fun d hd hcontent => ?_) fun hcontent => ?_
      · simp [counts, hpc, hd, hcontent]
      -- content was to be found by its blob row
      · simp [hrow hcontent] at hmanifest
    next =>
      refine .of_push hcollects (.refl _) (inStep_ofUpload rfl) fun d hd => ?_
      simp [counts] at hd
  case stageCreate =>
    cases h
    refine .of_push hcollects keepsFiles_create trivial fun d hd => .inl ?_
    simpa [counts, hpc] using hd
  case stageWrite =>
    split at h <;> cases h
    · refine .of_push hcollects (.refl _) trivial fun d hd => .inl ?_
      simpa [counts, hpc] using hd
    · refine .of_push hcollects (fun _ _ hlink => hlink) trivial fun d hd => .inl ?_
      simpa [counts, hpc] using hd
  case stageRename fileName =>
    split at h <;> cases h
    next =>
      refine .of_push hcollects (.refl _) (inStep_ofUpload rfl) fun d hd => ?_
      simp [counts] at hd
    next hrename =>
      refine .of_push hcollects
        (keepsFiles_rename hrename fun name hname => by simpa using hname fileName) trivial
        fun d hd => .inl ?_
      simpa [counts, hpc] using hd
  case recordManifest =>
    cases h
    exact ⟨rfl, fun _ hd => .inl hd, .record hpc rfl rfl⟩

/-- A call of a sweep that leaves the files and the rows alone. -/
theorem Progress.of_sweep (hcollects : ∀ d, t.collects d = false) (hsweeps : Sweeps cfg t')
    (hrequest : t'.request = t.request := by rfl) (hfs : w'.fs = w.fs := by rfl)
    (hblobs : w'.repo.blobs = w.repo.blobs := by rfl)
    (hmanifests : w'.repo.manifests = w.repo.manifests := by rfl) : Progress cfg w t w' t' where
  request := hrequest
  files _ hd := .inl (hfs ▸ hd)
  rows := by
    refine .quiet hblobs hmanifests hcollects hsweeps.1 fun d hd => ?_
    simp [hsweeps.2 d] at hd

theorem sweep_progress (hin : InStep cfg t) (h : w.sweep cfg t a t.pc = some (w', t')) :
    Progress cfg w t w' t' := by
  unfold Shared.sweep at h
  cases hpc : t.pc <;> simp only [hpc, reduceCtorEq] at h <;> simp only [InStep, hpc] at hin
  case deleteRows s cutoff digest size rest =>
    cases h
    have hsweeps := sweeps_sweeping (t := t) (s := { s with report := { s.report with
      deletedBlobs := s.report.deletedBlobs + 1
      deletedBytes := s.report.deletedBytes + size } }) hin.1 cutoff rest
    exact ⟨rfl, fun _ hd => .inl hd, .deleteRows hpc rfl hsweeps.1 hsweeps.2⟩
  all_goals have hcollects : ∀ d, t.collects d = false := fun d => by simp [collects, hpc]
  case listManifests =>
    split at h <;> cases h
    have hmarks : Marks cfg ⟨[], [], {}⟩ := fun _ hb => absurd hb List.not_mem_nil
    exact .of_sweep hcollects (sweeps_marking hmarks _)
  case markOpen =>
    repeat' split at h
    all_goals cases h
    · exact .of_sweep hcollects (sweeps_ofUpload rfl)
    · exact .of_sweep hcollects (sweeps_ofUpload rfl)
    · exact .of_sweep hcollects ⟨hin, fun _ => rfl⟩
  case markRead =>
    split at h <;> cases h
    · exact .of_sweep hcollects (sweeps_marked hin ..)
    · exact .of_sweep hcollects ⟨hin, fun _ => rfl⟩
  case countUploads =>
    cases h
    exact .of_sweep hcollects ⟨hin, fun _ => rfl⟩
  case listBlobs =>
    cases h
    exact .of_sweep hcollects (sweeps_listing hin ..)
  case statBlob =>
    split at h
    next =>
      cases h
      exact .of_sweep hcollects (sweeps_sweeping hin ..)
    next =>
      split at h <;> cases h
      · exact .of_sweep hcollects (sweeps_ofUpload rfl)
      · exact .of_sweep hcollects (sweeps_listing hin ..)
  case deleteFile s cutoff digest size rest =>
    split at h <;> cases h
    next => exact .of_sweep hcollects (sweeps_ofUpload rfl)
    next fileName hpath =>
      refine ⟨rfl, fun d hd => ?_, .quiet rfl rfl hcollects hin fun d hd => ?_⟩
      · obtain ⟨name, hname, hlink⟩ := hd
        by_cases heq : name = fileName
        · -- the file that goes is the file of the digest whose rows go next
          right
          have hdigest : digest = d := by
            rw [← digestOf_of_blobPath hpath, ← digestOf_of_blobPath hname, heq]
          simp [collects, hdigest]
        · left
          refine ⟨name, hname, ?_⟩
          rwa [Fs.links_unlink_of_ne (by simpa using heq)]
      · simp [counts] at hd
  case recordRun =>
    cases h
    exact .of_sweep hcollects (sweeps_ofUpload rfl)

/-! What follows for the rows, without looking at the call again. -/

theorem collects_eq (h : t.collects digest = true) :
    ∃ s cutoff size rest, t.pc = .deleteRows s cutoff digest size rest := by
  unfold collects at h
  cases hpc : t.pc <;> simp only [hpc, Bool.false_eq_true, decide_eq_true_eq] at h
  subst h
  exact ⟨_, _, _, _, rfl⟩

section
variable (h : RowMove cfg w t w' t')
include h

theorem RowMove.inStep : InStep cfg t' := by
  cases h with
  | quiet _ _ _ hstep => exact hstep
  | putBlob _ _ hpc' | record _ _ hpc' => exact inStep_ofUpload hpc'
  | deleteRows _ _ hstep => exact hstep

/-- A blob row stays, unless its digest is being collected. -/
theorem RowMove.hasBlob_kept (hcollects : t.collects d = false) (hd : w.repo.hasBlob r d = true) :
    w'.repo.hasBlob r d = true := by
  cases h with
  | quiet hblobs =>
    unfold HostedRegistryRepo.hasBlob HostedRegistryRepo.blobSize at hd ⊢
    rwa [hblobs]
  | putBlob _ hrepo =>
    rw [hrepo]
    exact HostedRegistryRepo.hasBlob_putBlob.mpr (.inr hd)
  | record _ hrepo =>
    rwa [hrepo]
  | deleteRows hpc hrepo =>
    rw [hrepo]
    refine HostedRegistryRepo.hasBlob_deleteBlobRows.mpr ⟨fun heq => ?_, hd⟩
    simp [collects, hpc, heq] at hcollects

/-- A blob row was there before, and its digest is not being collected; or it is written
now. -/
theorem RowMove.hasBlob_before (hd : w'.repo.hasBlob r d = true) :
    (w.repo.hasBlob r d = true ∧ t.collects d = false) ∨
      ∃ size, t.pc = .mountPut d size ∨ t.pc = .putBlob d size := by
  cases h with
  | quiet hblobs _ hcollects =>
    unfold HostedRegistryRepo.hasBlob HostedRegistryRepo.blobSize at hd ⊢
    rw [hblobs] at hd
    exact .inl ⟨hd, hcollects d⟩
  | @putBlob digest size hpc hrepo =>
    rw [hrepo] at hd
    rcases HostedRegistryRepo.hasBlob_putBlob.mp hd with ⟨-, rfl⟩ | hd
    · exact .inr ⟨size, hpc⟩
    · refine .inl ⟨hd, ?_⟩
      rcases hpc with hpc | hpc <;> simp [collects, hpc]
  | record hpc hrepo =>
    rw [hrepo] at hd
    exact .inl ⟨hd, by simp [collects, hpc]⟩
  | deleteRows hpc hrepo =>
    rw [hrepo] at hd
    obtain ⟨hne, hd⟩ := HostedRegistryRepo.hasBlob_deleteBlobRows.mp hd
    exact .inl ⟨hd, by simpa [collects, hpc] using Ne.symm hne⟩

/-- A manifest row was there before, or a push writes it now. -/
theorem RowMove.manifest_before {m : String} (hm : (w'.repo.manifest r m).isSome) :
    (w.repo.manifest r m).isSome ∨
      (t.pc = .recordManifest ∧ r = t.request.repository ∧
        m = cfg.sha256 t.request.manifestBytes) := by
  cases h with
  | quiet _ hmanifests =>
    unfold HostedRegistryRepo.manifest at hm ⊢
    rw [hmanifests] at hm
    exact .inl hm
  | putBlob _ hrepo | deleteRows _ hrepo =>
    rw [hrepo] at hm
    exact .inl hm
  | record hpc hrepo =>
    rw [hrepo] at hm
    rcases HostedRegistryRepo.isSome_manifest_putManifest.mp hm with ⟨hr, hm⟩ | hm
    · exact .inr ⟨hpc, hr, hm⟩
    · exact .inl hm

/-- A push counts on a row it counted on before, or has just found. -/
theorem RowMove.counts_before (hd : t'.counts cfg d = true) : t.collects d = false ∧
      (t.counts cfg d = true ∨ w.repo.hasBlob t.request.repository d = true) := by
  cases h with
  | quiet _ _ hcollects _ hcounts => exact ⟨hcollects d, hcounts d hd⟩
  | putBlob _ _ hpc' | record _ _ hpc' =>
    simp [counts_ofUpload hpc'] at hd
  | deleteRows _ _ _ hcounts =>
    simp [hcounts d] at hd

end

/-- **What one call does** to the files and to the rows. -/
theorem call_progress (hin : InStep cfg t) (hrow : throughBlobRow cfg w t)
    (h : w.call cfg t a = some (w', t')) : Progress cfg w t w' t' := by
  rcases call_cases h with h | h | h | h | h
  · exact startUpload_progress h
  · exact stream_progress h
  · exact commit_progress h
  · exact putManifest_progress hin hrow h
  · exact sweep_progress hin h

end

/-! ## §4. Runs. -/

/-- The conditions under which an event is safe.  A blob row is written while the file
is there.  A push finds the digests it names as config or layer by their blob rows.  And
the rows of a digest are deleted only when the sweep has read every recorded manifest
that names it, and when no push has passed its check of it. -/
def safeStep (cfg : Config) (σ : Server) : Event → Prop
  | .proceed i _ => ∀ t, σ.threads.lookup i = some t →
      match t.pc with
      | .mountPut digest _ | .putBlob digest _ => HasFile σ.shared.fs digest
      | .checkManifest _ dep _ =>
          dep ∈ contentOf cfg t.request.manifestBytes →
            σ.shared.repo.manifest t.request.repository dep = none
      | .deleteRows s _ digest _ _ =>
          (∀ repository manifest, (σ.shared.repo.manifest repository manifest).isSome →
            Names cfg manifest digest → ∃ bytes ∈ s.bodies, cfg.sha256 bytes = manifest) ∧
          ∀ j u, σ.threads.lookup j = some u → u.counts cfg digest = false
      | _ => True
  | _ => True

/-- The invariant.  A row has its file, unless a sweep is about to delete the row; the
recorded manifests and the pushes under way have the rows they name. -/
structure RowsKept (cfg : Config) (σ : Server) : Prop where
  backed : ∀ repository digest, σ.shared.repo.hasBlob repository digest = true →
    HasFile σ.shared.fs digest ∨ ∃ i t, σ.threads.lookup i = some t ∧ t.collects digest = true
  recorded : ∀ repository manifest, (σ.shared.repo.manifest repository manifest).isSome →
    ∀ digest, Names cfg manifest digest → σ.shared.repo.hasBlob repository digest = true
  inStep : ∀ i t, σ.threads.lookup i = some t → InStep cfg t
  counted : ∀ i t, σ.threads.lookup i = some t → ∀ digest, t.counts cfg digest = true →
    σ.shared.repo.hasBlob t.request.repository digest = true
  numbered : ∀ i, σ.arrived ≤ i → σ.threads.lookup i = none

variable {σ : Server} {i : Nat}

section
variable {σ' : Server}

/-- No recorded manifest names a digest whose rows are deleted safely: the sweep would
have marked it. -/
theorem unnamed_of_deleteRows (hsha : Function.Injective cfg.sha256)
    (hin : Marks cfg s ∧ digest ∉ s.referenced)
    (hread : ∀ repository manifest, (σ.shared.repo.manifest repository manifest).isSome →
      Names cfg manifest digest → ∃ bytes ∈ s.bodies, cfg.sha256 bytes = manifest)
    {repository : Uuid} {manifest : String}
    (hrecorded : (σ.shared.repo.manifest repository manifest).isSome) :
    ¬ Names cfg manifest digest := by
  intro hnames
  obtain ⟨bytes, hbytes, hsha1⟩ := hread repository manifest hrecorded hnames
  obtain ⟨bytes', hsha2, hdigest⟩ := hnames
  obtain rfl : bytes' = bytes := hsha (hsha2.trans hsha1.symm)
  exact hin.2 (hin.1 bytes' hbytes digest hdigest)

/-- **A safe call keeps the rows and the files.** -/
theorem move_kept (hsha : Function.Injective cfg.sha256) (h : RowsKept cfg σ)
    (hsafe : safeStep cfg σ (.proceed i a)) (ht : σ.threads.lookup i = some t)
    (hprogress : Progress cfg σ.shared t w' t') :
    RowsKept cfg { σ with shared := w', threads := σ.threads.insert i t' } := by
  obtain ⟨hrequest, hfiles, hmove⟩ := hprogress
  have hsafe := hsafe t ht
  have hin := h.inStep i t ht
  -- a file that was there is there, or the handler that moved has just taken it away
  have hbacked : ∀ d, HasFile σ.shared.fs d → HasFile w'.fs d ∨
      ∃ j u, (σ.threads.insert i t').lookup j = some u ∧ u.collects d = true := by
    intro d hd
    rcases hfiles d hd with hd | hd
    · exact .inl hd
    · exact .inr ⟨i, t', AList.lookup_insert _, hd⟩
  refine ⟨fun r d hd => ?_, fun r m hm d hnames => ?_, fun j u hu => ?_, fun j u hu d hd => ?_,
    fun j hj => ?_⟩
  · rcases hmove.hasBlob_before hd with ⟨hd, hcollects⟩ | ⟨size, hpc⟩
    · rcases h.backed r d hd with hfile | ⟨j, u, hu, hcollecting⟩
      · exact hbacked d hfile
      · have hj : j ≠ i := by
          rintro rfl
          cases ht.symm.trans hu
          cases hcollects.symm.trans hcollecting
        exact .inr ⟨j, u, (AList.lookup_insert_ne hj).trans hu, hcollecting⟩
    · rcases hpc with hpc | hpc <;> simp only [hpc] at hsafe <;> exact hbacked d hsafe
  · rcases hmove.manifest_before hm with hm | ⟨hpc, rfl, rfl⟩
    · refine hmove.hasBlob_kept ?_ (h.recorded r m hm d hnames)
      -- a digest that is being collected is named by no recorded manifest
      by_contra hcollects
      obtain ⟨s, cutoff, size, rest, hpc⟩ := collects_eq (Bool.eq_true_of_not_eq_false hcollects)
      simp only [InStep, hpc] at hin
      simp only [hpc] at hsafe
      exact unnamed_of_deleteRows hsha hin hsafe.1 hm hnames
    · obtain ⟨bytes, hbytes, hd⟩ := hnames
      obtain rfl : bytes = t.request.manifestBytes := hsha hbytes
      refine hmove.hasBlob_kept (by simp [collects, hpc]) (h.counted i t ht d ?_)
      simpa [counts, hpc] using hd
  · rcases lookup_insert_cases hu with ⟨-, rfl⟩ | ⟨-, hu⟩
    · exact hmove.inStep
    · exact h.inStep j u hu
  · rcases lookup_insert_cases hu with ⟨-, rfl⟩ | ⟨-, hu⟩
    · obtain ⟨hcollects, hbefore⟩ := hmove.counts_before hd
      rw [hrequest]
      refine hmove.hasBlob_kept hcollects ?_
      rcases hbefore with hcounts | hblob
      · exact h.counted i t ht d hcounts
      · exact hblob
    · refine hmove.hasBlob_kept ?_ (h.counted j u hu d hd)
      by_contra hcollects
      obtain ⟨s, cutoff, size, rest, hpc⟩ := collects_eq (Bool.eq_true_of_not_eq_false hcollects)
      simp only [hpc] at hsafe
      simp [hsafe.2 j u hu] at hd
  · exact Numbered.replace h.numbered ht t' j hj

/-- **One safe event keeps the rows and the files.** -/
theorem step_rowsKept (hsha : Function.Injective cfg.sha256) {event : Event}
    (h : RowsKept cfg σ) (hsafe : safeStep cfg σ event) (hstep : σ.step cfg event = some σ') :
    RowsKept cfg σ' := by
  cases event with
  | arrive request =>
    -- a new request has done nothing yet
    cases hstep
    refine ⟨fun r d hd => ?_, h.recorded, fun j u hu => ?_, fun j u hu d hd => ?_, fun j hj => ?_⟩
    · rcases h.backed r d hd with hfile | ⟨j, u, hu, hcollects⟩
      · exact .inl hfile
      · have hne : j ≠ σ.arrived := Nat.ne_of_lt (Numbered.lt h.numbered hu)
        exact .inr ⟨j, u, (AList.lookup_insert_ne hne).trans hu, hcollects⟩
    · rcases lookup_insert_cases hu with ⟨-, rfl⟩ | ⟨-, hu⟩
      · exact (starts cfg request).1
      · exact h.inStep j u hu
    · rcases lookup_insert_cases hu with ⟨-, rfl⟩ | ⟨-, hu⟩
      · simp [(starts cfg request).2 d] at hd
      · exact h.counted j u hu d hd
    · exact Numbered.insert h.numbered _ j hj
  | elapse =>
    cases hstep
    exact ⟨h.backed, h.recorded, h.inStep, h.counted, h.numbered⟩
  | proceed i =>
    obtain ⟨t, w', t', ht, hcall, rfl⟩ := step_proceed hstep
    have hrow : throughBlobRow cfg σ.shared t := by
      have hsafe := hsafe t ht
      unfold throughBlobRow
      cases hpc : t.pc <;> simp only [hpc] at hsafe ⊢
      exact hsafe
    exact move_kept hsha h hsafe ht (call_progress (h.inStep i t ht) hrow hcall)

/-- **A sweep and concurrent pushes.**  From a registry at rest whose rows have their
files and whose recorded manifests have their rows, in every run of safe events, once
every request and every sweep has finished, the config and the layers of every recorded
manifest have their blob rows and their blob files. -/
theorem sweep_keeps_recorded (hsha : Function.Injective cfg.sha256) {events : List Event}
    (hidle : σ.threads = ∅) (hstart : Intact cfg σ.shared)
    (hrows : ∀ repository digest, σ.shared.repo.hasBlob repository digest = true →
      HasFile σ.shared.fs digest) (hsafe : Guarded (Server.step cfg) (safeStep cfg) σ events)
    (hrun : exec (Server.step cfg) σ events = some σ')
    (hdone : ∀ i t, σ'.threads.lookup i = some t → ∃ outcome, t.pc = .done outcome) :
    Intact cfg σ'.shared := by
  have hinit : RowsKept cfg σ := by
    have hnone : ∀ i, σ.threads.lookup i = none := fun i => by rw [hidle, AList.lookup_empty]
    refine ⟨fun r d hd => .inl (hrows r d hd), fun r m hm d hd => (hstart r m hm d hd).1,
      fun i t ht => ?_, fun i t ht => ?_, fun i _ => hnone i⟩ <;> rw [hnone i] at ht <;> cases ht
  have hkept := exec_invariant (RowsKept cfg) (fun _ _ _ h hs ht => step_rowsKept hsha h hs ht)
    hinit hsafe hrun
  intro repository manifest hrecorded digest hnames
  have hblob := hkept.recorded repository manifest hrecorded digest hnames
  refine ⟨hblob, (hkept.backed repository digest hblob).resolve_right ?_⟩
  rintro ⟨i, t, ht, hcollects⟩
  obtain ⟨outcome, hpc⟩ := hdone i t ht
  simp [collects, hpc] at hcollects

end

/-! ## §5. A push during a sweep. -/

/-- The layer is uploaded. -/
def uploadLayer : List Event :=
  .arrive (.startUpload 1 none (some (digestOf layerName)) ⟨[ascii "layer"], false⟩) ::
    proceeds 0 15

/-- The image manifest is pushed, up to the check of its layer. -/
def pushChecked (i : Nat) : List Event :=
  .arrive (.putManifest 1 "latest" "application/json" (arrayBody "layers" layerName)) ::
    proceeds i 1

/-- How the handlers ended, and whether the manifest has its row, the layer its row and its
file. -/
def layerState (σ : Server) : List Pc × Bool × Bool × Bool :=
  (σ.threads.entries.map (·.2.pc), (σ.shared.repo.manifest 1 (digestOf imageName)).isSome,
    σ.shared.repo.hasBlob 1 (digestOf layerName),
    (σ.shared.fs.links.lookup (.blob layerName)).isSome)

theorem all_accepted {n : Nat}
    (hdone : σ.threads.entries.map (·.2.pc) = List.replicate n (.done .accepted))
    (ht : σ.threads.lookup i = some t) : t.pc = .done .accepted := by
  have hmem : t.pc ∈ σ.threads.entries.map (·.2.pc) :=
    List.mem_map.mpr ⟨⟨i, t⟩, AList.mem_lookup_iff.mp ht, rfl⟩
  rw [hdone] at hmem
  exact List.eq_of_mem_replicate hmem

/-- **The defect.**  A sweep has marked, and listed a layer that nothing refers to yet.  A
push checks the layer and finds its row; the sweep deletes the file and the row; the push
records its manifest.  All three requests succeed, and the manifest has lost its layer. -/
theorem sweep_breaks_push : Function.Injective exampleConfig.sha256 ∧
      ∃ σ, exec (Server.step exampleConfig) emptyRegistry
          (uploadLayer ++ .elapse 10 :: .arrive .sweepOnce :: proceeds 1 4 ++ pushChecked 2 ++
            proceeds 1 3 ++ proceeds 2 5) = some σ ∧
        (∀ i t, σ.threads.lookup i = some t → t.pc = .done .accepted) ∧
        (σ.shared.repo.manifest 1 (digestOf imageName)).isSome ∧
        Names exampleConfig (digestOf imageName) (digestOf layerName) ∧
        σ.shared.repo.hasBlob 1 (digestOf layerName) = false ∧
        ¬ HasFile σ.shared.fs (digestOf layerName) ∧ ¬ Intact exampleConfig σ.shared := by
  refine ⟨exampleSha_injective, exists_run
    (fun σ => layerState σ = (List.replicate 3 (.done .accepted), true, false, false))
    (by decide +kernel) fun σ _ hstate => ?_⟩
  simp only [layerState, Prod.mk.injEq] at hstate
  obtain ⟨hdone, hmanifest, hblob, hfile⟩ := hstate
  have hnames : Names exampleConfig (digestOf imageName) (digestOf layerName) :=
    ⟨arrayBody "layers" layerName, by decide +kernel, by decide +kernel⟩
  have hgone : ¬ HasFile σ.shared.fs (digestOf layerName) := by
    rintro ⟨fileName, hpath, hlink⟩
    obtain rfl : fileName = layerName := digestOf_inj (digestOf_of_blobPath hpath)
    cases hfile.symm.trans hlink
  refine ⟨fun i t ht => ?_, hmanifest, hnames, hblob, hgone,
    fun hintact => hgone (hintact 1 _ hmanifest _ hnames).2⟩
  exact all_accepted hdone ht

/-- A test for `safeStep`: at a deletion of rows the sweep has read EVERY recorded
manifest. -/
def testSafe (cfg : Config) (σ : Server) : Event → Bool
  | .proceed i _ =>
      match σ.threads.lookup i with
      | none => true
      | some t =>
          match t.pc with
          | .mountPut digest _ | .putBlob digest _ =>
              match blobPath digest with
              | .error _ => false
              | .ok fileName => (σ.shared.fs.links.lookup (.blob fileName)).isSome
          | .checkManifest _ dep _ => decide (dep ∉ contentOf cfg t.request.manifestBytes)
          | .deleteRows s _ digest _ _ =>
              (σ.shared.repo.manifests.keys.all fun k =>
                s.bodies.any fun bytes => cfg.sha256 bytes = k.2) &&
              σ.threads.entries.all fun e => !e.2.counts cfg digest
          | _ => true
  | _ => true

theorem safeStep_of_testSafe (σ : Server) (event : Event) (h : testSafe cfg σ event = true) :
    safeStep cfg σ event := by
  cases event with
  | arrive | elapse => trivial
  | proceed =>
    intro t ht
    simp only [testSafe, ht] at h
    cases hpc : t.pc <;> simp only [hpc] at h ⊢
    case mountPut digest size | putBlob digest size =>
      split at h
      next => cases h
      next fileName hpath => exact ⟨fileName, hpath, h⟩
    case checkManifest checked dep rest =>
      intro hdep
      exact absurd hdep (of_decide_eq_true h)
    case deleteRows s cutoff digest size rest =>
      obtain ⟨hread, hcounts⟩ := Bool.and_eq_true_iff.mp h
      refine ⟨fun r m hm _ => ?_, fun j u hu => ?_⟩
      · have hkey : (r, m) ∈ σ.shared.repo.manifests.keys :=
          AList.mem_keys.mp (AList.lookup_isSome.mp hm)
        have hany := List.all_eq_true.mp hread _ hkey
        simpa using List.any_eq_true.mp hany
      · have hcount := List.all_eq_true.mp hcounts _ (AList.mem_lookup_iff.mp hu)
        simpa using hcount

/-- The layer; the manifest, and at the same time the blob "ab", which nothing refers to; then a
sweep, and at the same time the blob "c".  The sweep reads the manifest and deletes "ab". -/
def sweepAfterPush : List Event :=
  uploadLayer ++ pushChecked 1 ++
    .arrive (.startUpload 1 none (some (exampleSha (ascii "ab"))) abBody) ::
    proceeds 2 7 ++ proceeds 1 5 ++ proceeds 2 8 ++ .elapse 10 :: .arrive .sweepOnce ::
    .proceed 3 ⟨8192, [digestOf imageName]⟩ ::
    .arrive (.startUpload 1 none (some (exampleSha (ascii "c"))) ⟨[ascii "c"], false⟩) ::
    proceeds 4 8 ++ proceeds 3 7 ++ proceeds 4 7 ++ proceeds 3 4

theorem sweep_keeps_layer :
    ∃ σ, exec (Server.step exampleConfig) emptyRegistry sweepAfterPush = some σ ∧
      (σ.shared.repo.manifest 1 (digestOf imageName)).isSome ∧
      (σ.shared.fs.links.lookup (.blob abName)).isSome = false ∧
      Intact exampleConfig σ.shared := by
  refine exists_run (fun σ => layerState σ = (List.replicate 5 (.done .accepted), true, true, true)
    ∧ (σ.shared.fs.links.lookup (.blob abName)).isSome = false) (by decide +kernel)
    fun σ hσ hend => ?_
  obtain ⟨hstate, hswept⟩ := hend
  have hintact : Intact exampleConfig emptyRegistry.shared := by
    intro r m hm
    cases hm
  have hrows : ∀ r d, emptyRegistry.shared.repo.hasBlob r d = true →
      HasFile emptyRegistry.shared.fs d := by
    intro r d hd
    cases hd
  simp only [layerState, Prod.mk.injEq] at hstate
  obtain ⟨hdone, hmanifest, -⟩ := hstate
  exact ⟨hmanifest, hswept, sweep_keeps_recorded exampleSha_injective rfl hintact hrows
    (guarded_of_checked safeStep_of_testSafe (by decide +kernel)) hσ fun i t ht =>
      ⟨.accepted, all_accepted hdone ht⟩⟩

end Denia.Registry

/-
  Denia.Registry.ContentAddressed — the file of a digest holds the bytes of that digest.

  A commit hashes `uploads/<id>/data` first and renames it afterwards, and nothing keeps
  another request on the same upload away in between; `put_content` stages under a name
  that every `PUT` of one digest shares.  Each handler has something it relies on at each
  of its calls (`Holds`), and a call of another handler can take it away (`undisturbed`).

  Main results: `call_kept`, one call; `blobs_content_addressed`, every run without such a
  call; `second_commit_truncates`.
-/
import Denia.Registry.Server

namespace Denia.Registry

open Lib Thread

/-- Every file at `blob_path(digest)` has contents whose SHA-256 is `digest`. -/
def ContentAddressed (cfg : Config) (fs : Fs Path UInt8) : Prop :=
  ∀ digest fileName bytes, blobPath digest = .ok fileName →
    fs.read (.blob fileName) = some bytes → cfg.sha256 bytes = digest

/-- The bytes served for a digest. -/
def Shared.serves (w : Shared) (digest : String) : Option Bytes :=
  match blobPath digest with
  | .error _ => none
  | .ok fileName => w.fs.read (.blob fileName)

/-! ## §1. What a handler relies on. -/

/-- The data of the upload, an absent file counting as empty, has the digest. -/
def Hashed (cfg : Config) (fs : Fs Path UInt8) (upload : Uuid) (digest : String) : Prop :=
  cfg.sha256 ((fs.read (.data upload)).getD []) = digest

/-- What the handler relies on at its next call. -/
def Holds (cfg : Config) (fs : Fs Path UInt8) (t : Thread) : Prop :=
  match t.pc with
  | .hashRead _ fd seen =>
      fs.links.lookup (.data t.upload) = some fd ∧ seen <+: fs.contents fd
  | .commitStat digest _ => Hashed cfg fs t.upload digest
  | .commitOpen c | .commitRename c =>
      blobPath c.digest = .ok c.fileName ∧ Hashed cfg fs t.upload c.digest
  | .commitCreate c => blobPath c.digest = .ok c.fileName ∧ cfg.sha256 [] = c.digest
  | .stageCreate fileName => blobPath (cfg.sha256 t.request.manifestBytes) = .ok fileName
  | .stageWrite fileName fd offset =>
      blobPath (cfg.sha256 t.request.manifestBytes) = .ok fileName ∧
        fs.links.lookup (.blob (tmpName fileName)) = some fd ∧
        offset ≤ t.request.manifestBytes.length ∧
        fs.contents fd = t.request.manifestBytes.take offset
  | .stageRename fileName =>
      blobPath (cfg.sha256 t.request.manifestBytes) = .ok fileName ∧
        fs.read (.blob (tmpName fileName)) = some t.request.manifestBytes
  | _ => True

/-- The calls at which a handler relies on no file. -/
def Pc.plain : Pc → Bool
  | .hashRead _ _ _ | .commitStat _ _ | .commitOpen _ | .commitRename _ | .commitCreate _
  | .stageCreate _ | .stageWrite _ _ _ | .stageRename _ => false
  | _ => true

/-- The handler has no stream under way and no file open for writing. -/
def Pc.idle : Pc → Bool
  | .appendOpen _ _ _ | .appendWrite _ _ _ _ | .stageWrite _ _ _ => false
  | _ => true

variable {cfg : Config} {fs : Fs Path UInt8} {t : Thread}

theorem holds_plain (h : t.pc.plain = true) : Holds cfg fs t := by
  unfold Holds
  cases hpc : t.pc <;> first | trivial | (rw [hpc] at h; cases h)

theorem plain_streamFailed (request : Request) (error : ApiError) :
    (streamFailed request error).plain = true ∧ (streamFailed request error).idle = true := by
  unfold streamFailed
  split <;> exact ⟨rfl, rfl⟩

theorem plain_streaming (cfg : Config) (request : Request) (total : Nat) (rest : List Bytes) :
    (streaming cfg request total rest).plain = true := by
  unfold streaming
  split
  · rfl
  · exact (plain_streamFailed ..).1
  · split <;> rfl

section
variable (s : Sweep)

theorem plain_marking (queue : List String) :
    (marking s queue).plain = true ∧ (marking s queue).idle = true := by
  induction queue with
  | nil => exact ⟨rfl, rfl⟩
  | cons digest queue ih =>
    unfold marking
    split
    · exact ih
    · exact ⟨rfl, rfl⟩

theorem plain_marked (cfg : Config) (digest : String) (queue : List String) (bytes : Bytes) :
    (marked cfg s digest queue bytes).plain = true ∧
      (marked cfg s digest queue bytes).idle = true := by
  unfold marked
  split
  · exact ⟨rfl, rfl⟩
  · exact plain_marking _ _

theorem plain_sweeping (cutoff : Time) (listed : List Listed) :
    (sweeping s cutoff listed).plain = true ∧ (sweeping s cutoff listed).idle = true := by
  induction listed generalizing s with
  | nil => exact ⟨rfl, rfl⟩
  | cons e rest ih =>
    unfold sweeping
    dsimp only
    split
    · exact ih _
    split
    · exact ih _
    · exact ⟨rfl, rfl⟩

theorem plain_listing (cutoff : Time) (listed : List Listed) (names : List String) :
    (listing s cutoff listed names).plain = true ∧
      (listing s cutoff listed names).idle = true := by
  unfold listing
  split
  · exact plain_sweeping _ _ _
  · exact ⟨rfl, rfl⟩

end

/-- The referenced digests are checked and `put_content` is next. -/
theorem holds_checks {checked rest : List String} :
    Holds cfg fs { t with pc := checks (cfg.sha256 t.request.manifestBytes) checked rest } := by
  unfold checks
  split
  · exact holds_plain rfl
  · split
    next => exact holds_plain rfl
    next h => exact h

variable {digest : String} {bytes : Bytes}

theorem holds_hashed {size : Nat} (h : (fs.read (.data t.upload)).getD [] = bytes) :
    Holds cfg fs { t with pc := hashed (cfg.sha256 bytes) digest size } := by
  unfold hashed
  split
  next hdigest =>
    show cfg.sha256 _ = digest
    rwa [h]
  next => exact holds_plain rfl

theorem holds_start (cfg : Config) (fs : Fs Path UInt8) (request : Request) :
    Holds cfg fs (start cfg request) := by
  unfold start
  cases request with
  | startUpload repository mount =>
    rcases mount with _ | ⟨d, _ | source⟩ <;> exact holds_plain rfl
  | patchUpload | commitUpload | sweepOnce => exact holds_plain rfl
  | putManifest repository reference mediaType bytes =>
    unfold Request.start
    dsimp only
    split
    · exact holds_plain rfl
    split
    · exact holds_plain rfl
    split
    · exact holds_plain rfl
    · exact holds_checks (t := ⟨.putManifest repository reference mediaType bytes, 0, .session⟩)

/-! ## §2. What another handler can take away. -/

/-- The upload is hashed, up to its digest. -/
def Thread.hashes (t : Thread) (upload : Uuid) : Bool :=
  t.upload = upload && match t.pc with
    | .hashRead _ _ _ => true
    | _ => false

/-- The upload is hashed and not yet renamed. -/
def Thread.commits (t : Thread) (upload : Uuid) : Bool :=
  t.upload = upload && match t.pc with
    | .commitStat _ _ | .commitOpen _ | .commitRename _ => true
    | _ => false

/-- The blob is staged under its temporary name. -/
def Thread.stages (t : Thread) (fileName : String) : Bool :=
  match t.pc with
  | .stageWrite name _ _ | .stageRename name => name = fileName
  | _ => false

/-- The next call of `t` leaves alone what `s` relies on. -/
def Thread.spares (t s : Thread) : Bool :=
  match t.pc with
  | .appendWrite _ _ _ _ => !s.commits t.upload
  | .commitRename _ | .cleanData _ | .dropData _ =>
      !s.hashes t.upload && !s.commits t.upload
  | .stageCreate fileName | .stageWrite fileName _ _ | .stageRename fileName =>
      !s.stages fileName
  | _ => true

/-- An append goes to the file that is the data of its upload at the moment of the write. -/
def Thread.appendsToUpload (t : Thread) (fs : Fs Path UInt8) : Bool :=
  match t.pc with
  | .appendWrite _ fd _ _ => fs.links.lookup (.data t.upload) = some fd
  | _ => true

/-- The event takes nothing away from a handler: no append after the rename of its file
or between a hash and its rename, no rename or removal of an upload that another handler
is hashing or committing, no two `put_content` of one digest at once. -/
def undisturbed (σ : Server) : Event → Bool
  | .proceed i _ =>
      match σ.threads.lookup i with
      | none => true
      | some t =>
          t.appendsToUpload σ.shared.fs &&
            σ.threads.entries.all fun e => e.1 = i || t.spares e.2
  | _ => true

variable {now : Time}

/-! ## §3. One call. -/

section
variable {fs' fs1 : Fs Path UInt8} {s : Thread} {fileName : String} {fd most offset : Nat}
  {chunk seen : Bytes}

/-- A blob's file is no temporary file. -/
theorem blobPath_ne_tmpName (h : blobPath digest = .ok fileName) (name : String) :
    fileName ≠ tmpName name := by
  intro heq
  have hdot : '.' ∈ fileName.toList := by
    rw [heq, tmpName, String.toList_append]
    exact List.mem_append_right _ (by decide)
  exact absurd (isAsciiHexdigit_of_blobPath h '.' hdot) (by decide)

/-- What a handler relies on is untouched where its files are. -/
theorem Holds.frame (h : Holds cfg fs s)
    (hdata : s.hashes s.upload = true ∨ s.commits s.upload = true →
      fs.SameAt fs' (.data s.upload))
    (htmp : ∀ name, s.stages name = true → fs.SameAt fs' (.blob (tmpName name))) :
    Holds cfg fs' s := by
  unfold Holds at h ⊢
  unfold hashes commits at hdata
  unfold stages at htmp
  cases hpc : s.pc <;> simp only [hpc] at h hdata htmp ⊢
  case hashRead digest fd seen =>
    have hsame := hdata (by simp)
    refine ⟨hsame.1.trans h.1, ?_⟩
    rw [hsame.contents h.1]
    exact h.2
  case commitStat | commitOpen | commitRename =>
    unfold Hashed at h ⊢
    rwa [(hdata (by simp)).2]
  case commitCreate | stageCreate => exact h
  case stageWrite name fd offset =>
    have hsame := htmp name (by simp)
    refine ⟨h.1, hsame.1.trans h.2.1, h.2.2.1, ?_⟩
    rw [hsame.contents h.2.1]
    exact h.2.2.2
  case stageRename name =>
    have hsame := htmp name (by simp)
    exact ⟨h.1, hsame.2.trans h.2⟩

/-- What one call does for the blob files, for its handler and for every other one. -/
structure Kept (cfg : Config) (w : Shared) (t : Thread) (w' : Shared) (t' : Thread) : Prop where
  addressed : ContentAddressed cfg w.fs → ContentAddressed cfg w'.fs
  own : Holds cfg w'.fs t'
  others : ∀ s, t.spares s = true → Holds cfg w.fs s → Holds cfg w'.fs s

variable {w w' : Shared} {t' : Thread} {a : Answer}

/-- A call that touches no file. -/
theorem Kept.of_fs_eq (hfs : w'.fs = w.fs) (hown : Holds cfg w.fs t') : Kept cfg w t w' t' where
  addressed := hfs ▸ id
  own := hfs ▸ hown
  others _ _ h := hfs ▸ h

/-- A call that touches no file, and leaves its handler with nothing to rely on. -/
theorem Kept.plain (hpc : t'.pc.plain = true) (hfs : w'.fs = w.fs := by rfl) : Kept cfg w t w' t' :=
  .of_fs_eq hfs (holds_plain hpc)

theorem tmpName_inj {a b : String} (h : tmpName a = tmpName b) : a = b := by
  have hl := congrArg String.toList h
  simp only [tmpName, String.toList_append] at hl
  exact String.toList_inj.mp (List.append_cancel_right hl)

/-- One blob file is replaced, by bytes of its digest or by none. -/
theorem ContentAddressed.replace (h : ContentAddressed cfg fs)
    (hpath : blobPath digest = .ok fileName)
    (hnew : ∀ bytes, fs'.read (.blob fileName) = some bytes → cfg.sha256 bytes = digest)
    (hothers : ∀ name, name ≠ fileName → (∀ m, name ≠ tmpName m) →
      fs'.read (.blob name) = fs.read (.blob name)) : ContentAddressed cfg fs' := by
  intro d name bytes hd hread
  by_cases hname : name = fileName
  · subst hname
    rw [← digestOf_of_blobPath hd, digestOf_of_blobPath hpath]
    exact hnew bytes hread
  · rw [hothers name hname (blobPath_ne_tmpName hd)] at hread
    exact h d name bytes hd hread

/-- No blob file is touched. -/
theorem ContentAddressed.congr (h : ContentAddressed cfg fs)
    (hsame : ∀ name, (∀ m, name ≠ tmpName m) → fs'.read (.blob name) = fs.read (.blob name)) :
    ContentAddressed cfg fs' := by
  intro d name bytes hd hread
  rw [hsame name (blobPath_ne_tmpName hd)] at hread
  exact h d name bytes hd hread

/-- A call that touches the data of the upload and nothing else. -/
theorem Kept.of_data (hsame : ∀ p, p ≠ .data t.upload → w.fs.SameAt w'.fs p)
    (hown : Holds cfg w'.fs t')
    (hothers : ∀ s : Thread, s.upload = t.upload → t.spares s = true → Holds cfg w.fs s →
      Holds cfg w'.fs s) : Kept cfg w t w' t' where
  addressed h := h.congr fun name _ => (hsame (.blob name) (by simp)).2
  own := hown
  others s hspare hs := by
    by_cases hupload : s.upload = t.upload
    · exact hothers s hupload hspare hs
    · exact hs.frame (fun _ => hsame _ (by simpa using hupload)) fun name _ => hsame _ (by simp)

/-- The data of an upload is gone; nobody was hashing or committing it. -/
theorem Kept.of_unlink (hspares : ∀ s, t.spares s = (!s.hashes t.upload && !s.commits t.upload))
    (hfs : w'.fs = w.fs.unlink (.data t.upload)) (hown : t'.pc.plain = true) :
    Kept cfg w t w' t' := by
  have hsame : ∀ p, p ≠ .data t.upload → w.fs.SameAt w'.fs p := by
    intro p hp
    rw [hfs]
    exact Fs.sameAt_unlink hp
  refine .of_data hsame (holds_plain hown) fun s hupload hspare hs => ?_
  rw [hspares, ← hupload] at hspare
  refine hs.frame (fun hworks => ?_) fun name _ => hsame _ (by simp)
  rcases hworks with hworks | hworks <;> simp [hworks] at hspare

/-- A call that replaces one blob file. -/
theorem Kept.of_blob (hpath : blobPath digest = .ok fileName)
    (hsame : ∀ p, p ≠ .blob fileName → w.fs.SameAt w'.fs p)
    (hnew : ∀ bytes, w'.fs.read (.blob fileName) = some bytes → cfg.sha256 bytes = digest)
    (hown : Holds cfg w'.fs t') : Kept cfg w t w' t' where
  addressed h := h.replace hpath hnew fun name hname _ => (hsame _ (by simpa using hname)).2
  own := hown
  others s _ hs := by
    refine hs.frame (fun _ => hsame _ (by simp)) fun name _ => hsame _ ?_
    intro heq
    injection heq with heq
    exact blobPath_ne_tmpName hpath name heq.symm

/-- A call that touches a temporary file and nothing else; nobody else stages there. -/
theorem Kept.of_tmp (hspares : ∀ s, t.spares s = !s.stages fileName)
    (hsame : ∀ p, p ≠ .blob (tmpName fileName) → w.fs.SameAt w'.fs p) (hown : Holds cfg w'.fs t') :
    Kept cfg w t w' t' where
  addressed h := h.congr fun name hname => (hsame _ (by simpa using hname fileName)).2
  own := hown
  others s hspare hs := by
    rw [hspares] at hspare
    refine hs.frame (fun _ => hsame _ (by simp)) fun name hstages => hsame _ ?_
    intro heq
    injection heq with heq
    rw [tmpName_inj heq] at hstages
    simp [hstages] at hspare

theorem startUpload_kept (h : w.startUpload t t.pc = some (w', t')) : Kept cfg w t w' t' := by
  unfold Shared.startUpload at h
  cases hpc : t.pc <;> simp only [hpc, reduceCtorEq] at h
  case mountSource =>
    split at h <;> cases h <;> exact .plain rfl
  case mountDisk =>
    repeat' split at h
    all_goals cases h; exact .plain rfl
  case mountPut | createDir =>
    cases h
    exact .plain rfl
  case createSession =>
    cases h
    refine .plain ?_
    dsimp only
    split <;> rfl

theorem hashes_self (h : s.hashes s.upload = true) :
    ∃ digest fd seen, s.pc = .hashRead digest fd seen := by
  unfold hashes at h
  cases hpc : s.pc <;> simp only [hpc, Bool.and_false, Bool.false_eq_true] at h
  exact ⟨_, _, _, rfl⟩

/-- Opening the data file for an append changes no contents: a new file is empty, and an
absent one counted as empty. -/
theorem holds_openCreate (h : Holds cfg fs s) :
    Holds cfg (fs.openCreate now (.data s.upload)).1 s := by
  by_cases hcommits : s.commits s.upload = true
  · have hread : ((fs.openCreate now (.data s.upload)).1.read (.data s.upload)).getD []
        = (fs.read (.data s.upload)).getD [] := by
      rw [Fs.read_openCreate_self]
      rfl
    unfold commits at hcommits
    unfold Holds Hashed at h ⊢
    rw [hread]
    cases hpc : s.pc <;> simp only [hpc, Bool.and_false, Bool.false_eq_true] at hcommits h ⊢ <;>
      exact h
  · refine h.frame (fun hworks => ?_) fun name _ => Fs.sameAt_openCreate (by simp)
    -- a file that is being read is there already
    obtain ⟨digest, fd, seen, hpc⟩ := hashes_self (hworks.resolve_right hcommits)
    simp only [Holds, hpc] at h
    rw [Fs.openCreate_of_link h.1]
    exact .refl _ _

/-- An append to an upload that nobody has hashed yet: what was read of it stays a part. -/
theorem holds_append (hupload : s.upload = t.upload) (hcommits : s.commits t.upload = false)
    (hlink : fs.links.lookup (.data t.upload) = some fd) (h : Holds cfg fs s) :
    Holds cfg (fs.write now fd (fs.contents fd ++ chunk)) s := by
  rw [← hupload] at hcommits hlink
  by_cases hhashes : s.hashes s.upload = true
  · obtain ⟨digest, fd', seen, hpc⟩ := hashes_self hhashes
    simp only [Holds, hpc] at h ⊢
    obtain rfl : fd' = fd := Option.some.inj (h.1.symm.trans hlink)
    refine ⟨h.1, h.2.trans ?_⟩
    show _ <+: Function.update fs.contents fd' _ fd'
    rw [Function.update_self]
    exact List.prefix_append _ _
  · refine h.frame (fun hworks => ?_) fun name _ => Fs.sameAt_write hlink (by simp)
    rcases hworks with hworks | hworks
    · exact absurd hworks hhashes
    · simp [hcommits] at hworks

theorem stream_kept (hfile : t.appendsToUpload w.fs = true)
    (h : w.stream cfg t a t.pc = some (w', t')) : Kept cfg w t w' t' := by
  unfold Shared.stream at h
  cases hpc : t.pc <;> simp only [hpc, reduceCtorEq] at h
  case session =>
    split at h <;> cases h
    · refine .plain ?_
      dsimp only
      split <;> rfl
    · exact .plain rfl
  case rangeSize =>
    split at h <;> cases h <;> exact .plain rfl
  case streamSize =>
    cases h
    exact .plain (plain_streaming ..)
  case appendOpen batch total rest =>
    split at h <;> cases h
    · refine .of_data (fun p hp => Fs.sameAt_openCreate hp) (holds_plain rfl)
        fun s hupload _ hs => ?_
      rw [← hupload]
      exact holds_openCreate hs
    · exact .plain (plain_streamFailed ..).1
  case appendWrite left fd total rest =>
    cases h
    have hlink : w.fs.links.lookup (.data t.upload) = some fd := by
      simpa [appendsToUpload, hpc] using hfile
    refine .of_data (fun p hp => Fs.sameAt_write hlink hp) (holds_plain ?_)
      fun s hupload hspare hs => ?_
    · dsimp only
      split
      · exact plain_streaming ..
      · rfl
    · have hcommits : s.commits t.upload = false := by
        simpa [spares, hpc] using hspare
      exact holds_append hupload hcommits hlink hs

/-- The end of the file: everything in it was read. -/
theorem eq_contents_of_readAt_nil (hseen : seen <+: fs.contents fd)
    (h : fs.readAt fd seen.length most = []) : fs.contents fd = seen := by
  obtain ⟨rest, hrest⟩ := hseen
  unfold Fs.readAt at h
  rw [← hrest, List.drop_left, List.take_eq_nil_iff] at h
  rcases h with h | h
  · omega
  · rw [← hrest, h, List.append_nil]

/-- One more chunk of the file was read. -/
theorem readAt_prefix (hseen : seen <+: fs.contents fd)
    (h : fs.readAt fd seen.length most = chunk) : seen ++ chunk <+: fs.contents fd := by
  obtain ⟨rest, hrest⟩ := hseen
  unfold Fs.readAt at h
  rw [← hrest, List.drop_left] at h
  rw [← hrest, ← h]
  exact (List.prefix_append_right_inj seen).mpr (List.take_prefix _ _)

/-- The data file becomes the blob. -/
theorem kept_commitRename {c : Commit} (hpc : t.pc = .commitRename c)
    (hpath : blobPath c.digest = .ok c.fileName) (hhashed : Hashed cfg w.fs t.upload c.digest)
    (hrename : w.fs.rename (.data t.upload) (.blob c.fileName) = some fs1) :
    Kept cfg w t { w with fs := fs1 } { t with pc := .cleanData c } where
  addressed h := by
    refine h.replace hpath (fun bytes hread => ?_) fun name hname _ =>
      Fs.read_rename_of_ne hrename (by simp) (by simpa using hname)
    have hdata : w.fs.read (.data t.upload) = some bytes :=
      (Fs.read_rename_target hrename).symm.trans hread
    unfold Hashed at hhashed
    rwa [hdata] at hhashed
  own := holds_plain rfl
  others s hspare hs := by
    simp only [spares, hpc, Bool.and_eq_true, Bool.not_eq_true'] at hspare
    refine hs.frame (fun hworks => ?_) fun name _ => ?_
    · have hne : s.upload ≠ t.upload := by
        intro heq
        rw [← heq] at hspare
        rcases hworks with hworks | hworks <;> simp [hworks] at hspare
      exact Fs.sameAt_rename hrename (by simpa using hne) (by simp)
    · refine Fs.sameAt_rename hrename (by simp) fun heq => ?_
      injection heq with heq
      exact blobPath_ne_tmpName hpath name heq.symm

theorem commit_kept (hown : Holds cfg w.fs t) (h : w.commit cfg t a t.pc = some (w', t')) :
    Kept cfg w t w' t' := by
  unfold Shared.commit at h
  cases hpc : t.pc <;> simp only [hpc, reduceCtorEq] at h <;> simp only [Holds, hpc] at hown
  case hashOpen digest =>
    split at h <;> cases h
    next hnone =>
      refine .of_fs_eq rfl (holds_hashed ?_)
      rw [Fs.read, hnone]
      rfl
    next fd hlink => exact .of_fs_eq rfl ⟨hlink, List.nil_prefix⟩
  case hashRead digest fd seen =>
    split at h <;> cases h
    next hend =>
      refine .of_fs_eq rfl (holds_hashed ?_)
      rw [Fs.read_of_link hown.1]
      exact eq_contents_of_readAt_nil hown.2 hend
    next => exact .of_fs_eq rfl ⟨hown.1, readAt_prefix hown.2 rfl⟩
  case commitStat digest size =>
    split at h
    next =>
      cases h
      exact .plain rfl
    next fileName hpath =>
      split at h <;> cases h
      next => exact .of_fs_eq rfl ⟨hpath, hown⟩
      next hnone =>
        -- the file is absent, and was hashed as empty
        unfold Hashed at hown
        rw [hnone] at hown
        exact .of_fs_eq rfl ⟨hpath, hown⟩
  case commitOpen c =>
    split at h <;> cases h
    · exact .plain rfl
    · exact .of_fs_eq rfl hown
  case commitRename c =>
    split at h <;> cases h
    next => exact .plain rfl
    next hrename => exact kept_commitRename hpc hown.1 hown.2 hrename
  case commitCreate c =>
    cases h
    refine .of_blob hown.1 (fun p hp => Fs.sameAt_create hp) (fun bytes hread => ?_)
      (holds_plain rfl)
    rw [Fs.read_create_self] at hread
    rw [← Option.some.inj hread]
    exact hown.2
  case cleanData c | dropData e =>
    cases h
    exact .of_unlink (fun s => by simp only [spares, hpc]) rfl rfl
  case cleanDir c | dropDir e =>
    cases h
    refine .plain rfl ?_
    unfold Shared.rmdir
    split <;> rfl
  case putBlob | deleteSession | dropSession =>
    cases h
    exact .plain rfl

/-- Nothing is left to write. -/
theorem staged_all (h : (bytes.drop offset).take (max 1 most) = []) :
    bytes.take offset = bytes := by
  rw [List.take_eq_nil_iff] at h
  have hnil : bytes.drop offset = [] := h.resolve_left (by omega)
  exact List.take_of_length_le (List.drop_eq_nil_iff.mp hnil)

/-- A write at the end of what was written before. -/
theorem overwrite_take {n : Nat} (hoffset : offset ≤ bytes.length) :
    Fs.overwrite (bytes.take offset) offset ((bytes.drop offset).take n)
      = bytes.take (offset + ((bytes.drop offset).take n).length) := by
  have hlen : (bytes.take offset).length = offset := List.length_take_of_le hoffset
  have hwrite := Fs.overwrite_length (bytes.take offset) ((bytes.drop offset).take n)
  rw [hlen] at hwrite
  rw [hwrite, List.take_add, List.length_take, ← List.take_eq_take_min]

/-- The temporary file becomes the blob. -/
theorem kept_stageRename (hpc : t.pc = .stageRename fileName)
    (hpath : blobPath (cfg.sha256 t.request.manifestBytes) = .ok fileName)
    (hstaged : w.fs.read (.blob (tmpName fileName)) = some t.request.manifestBytes)
    (hrename : w.fs.rename (.blob (tmpName fileName)) (.blob fileName) = some fs1) :
    Kept cfg w t { w with fs := fs1 } { t with pc := .recordManifest } where
  addressed h := by
    refine h.replace hpath (fun bytes hread => ?_) fun name hname htmp =>
      Fs.read_rename_of_ne hrename (by simpa using htmp fileName) (by simpa using hname)
    rw [Fs.read_rename_target hrename, hstaged] at hread
    rw [← Option.some.inj hread]
  own := holds_plain rfl
  others s hspare hs := by
    simp only [spares, hpc, Bool.not_eq_true'] at hspare
    refine hs.frame (fun _ => Fs.sameAt_rename hrename (by simp) (by simp)) fun name hstages =>
      Fs.sameAt_rename hrename (fun heq => ?_) fun heq => ?_
    · injection heq with heq
      rw [tmpName_inj heq, hspare] at hstages
      cases hstages
    · injection heq with heq
      exact blobPath_ne_tmpName hpath name heq.symm

theorem putManifest_kept (hown : Holds cfg w.fs t)
    (h : w.putManifest cfg t a t.pc = some (w', t')) : Kept cfg w t w' t' := by
  unfold Shared.putManifest at h
  cases hpc : t.pc <;> simp only [hpc, reduceCtorEq] at h <;> simp only [Holds, hpc] at hown
  case checkBlob | checkManifest =>
    split at h <;> cases h
    · exact .of_fs_eq rfl holds_checks
    · exact .plain rfl
  case stageCreate fileName =>
    cases h
    refine .of_tmp (fun s => by simp only [spares, hpc])
      (fun p hp => Fs.sameAt_create hp) ?_
    exact ⟨hown, Fs.links_create_self, Nat.zero_le _, Fs.contents_create⟩
  case stageWrite fileName fd offset =>
    obtain ⟨hpath, hlink, hoffset, hcontents⟩ := hown
    split at h <;> cases h
    next hend =>
      -- all is written: the staged file is the manifest
      refine .of_fs_eq rfl ⟨hpath, ?_⟩
      rw [Fs.read_of_link hlink, hcontents, staged_all hend]
    next =>
      refine .of_tmp (fun s => by simp only [spares, hpc])
        (fun p hp => Fs.sameAt_write hlink hp) ⟨hpath, hlink, ?_, ?_⟩
      · show offset + _ ≤ t.request.manifestBytes.length
        rw [List.length_take, List.length_drop]
        omega
      · show Function.update w.fs.contents fd _ fd = _
        rw [Function.update_self, hcontents]
        exact overwrite_take hoffset
  case stageRename fileName =>
    split at h <;> cases h
    next => exact .plain rfl
    next hrename => exact kept_stageRename hpc hown.1 hown.2 hrename
  case recordManifest =>
    cases h
    exact .plain rfl

theorem sweep_kept (h : w.sweep cfg t a t.pc = some (w', t')) : Kept cfg w t w' t' := by
  unfold Shared.sweep at h
  cases hpc : t.pc <;> simp only [hpc, reduceCtorEq] at h
  case listManifests =>
    split at h <;> cases h
    exact .plain (plain_marking ..).1
  case markOpen =>
    repeat' split at h
    all_goals cases h; exact .plain rfl
  case markRead =>
    split at h <;> cases h
    · exact .plain (plain_marked ..).1
    · exact .plain rfl
  case countUploads | recordRun =>
    cases h
    exact .plain rfl
  case listBlobs =>
    cases h
    exact .plain (plain_listing ..).1
  case statBlob =>
    split at h
    next =>
      cases h
      exact .plain (plain_sweeping ..).1
    next =>
      split at h <;> cases h
      · exact .plain rfl
      · exact .plain (plain_listing ..).1
  case deleteFile =>
    split at h <;> cases h
    next => exact .plain rfl
    next hpath =>
      refine .of_blob hpath (fun p hp => Fs.sameAt_unlink hp) (fun bytes hread => ?_)
        (holds_plain rfl)
      simp [Fs.read_unlink_self] at hread
  case deleteRows =>
    cases h
    exact .plain (plain_sweeping ..).1

/-- **What one call does**, for the blob files, for its handler and for every other one. -/
theorem call_kept (hown : Holds cfg w.fs t) (hfile : t.appendsToUpload w.fs = true)
    (h : w.call cfg t a = some (w', t')) : Kept cfg w t w' t' := by
  rcases call_cases h with h | h | h | h | h
  · exact startUpload_kept h
  · exact stream_kept hfile h
  · exact commit_kept hown h
  · exact putManifest_kept hown h
  · exact sweep_kept h

end

/-! ## §4. Runs. -/

/-- The invariant: the blob files, and what every handler relies on. -/
structure Addressed (cfg : Config) (σ : Server) : Prop where
  blobs : ContentAddressed cfg σ.shared.fs
  handlers : ∀ i t, σ.threads.lookup i = some t → Holds cfg σ.shared.fs t

/-- **One event keeps the blobs content-addressed**, unless it disturbs a handler. -/
theorem step_addressed {σ σ' : Server} {event : Event} (h : Addressed cfg σ)
    (hguard : undisturbed σ event = true) (hstep : σ.step cfg event = some σ') :
    Addressed cfg σ' := by
  cases event with
  | arrive request =>
    cases hstep
    refine ⟨h.blobs, fun i t ht => ?_⟩
    rcases lookup_insert_cases ht with ⟨-, rfl⟩ | ⟨-, ht⟩
    · exact holds_start cfg _ request
    · exact h.handlers i t ht
  | elapse =>
    cases hstep
    exact ⟨h.blobs, h.handlers⟩
  | proceed i =>
    obtain ⟨t, w', t', ht, hcall, rfl⟩ := step_proceed hstep
    simp only [undisturbed, ht, Bool.and_eq_true, List.all_eq_true] at hguard
    have hkept := call_kept (h.handlers i t ht) hguard.1 hcall
    refine ⟨hkept.addressed h.blobs, fun j s hs => ?_⟩
    rcases lookup_insert_cases hs with ⟨-, rfl⟩ | ⟨hj, hs⟩
    · exact hkept.own
    · have hspare := hguard.2 ⟨j, s⟩ (AList.mem_lookup_iff.mp hs)
      simp only [hj, decide_false, Bool.false_or] at hspare
      exact hkept.others s hspare (h.handlers j s hs)

/-- **The blobs are content-addressed.**  In every run without a call that disturbs
another handler, from a registry without requests in flight, every file at
`blob_path(digest)` holds bytes with that SHA-256, and a digest that was served keeps
its bytes for as long as it is served. -/
theorem blobs_content_addressed {cfg : Config} (hsha : Function.Injective cfg.sha256)
    {σ σ1 σ2 : Server} {before after : List Event} (hidle : σ.threads = ∅)
    (hstart : ContentAddressed cfg σ.shared.fs)
    (hguard : Guarded (Server.step cfg) (fun σ event => undisturbed σ event = true) σ
      (before ++ after)) (hbefore : exec (Server.step cfg) σ before = some σ1)
    (hafter : exec (Server.step cfg) σ1 after = some σ2) : ContentAddressed cfg σ2.shared.fs ∧
      ∀ digest bytes bytes', σ1.shared.serves digest = some bytes →
        σ2.shared.serves digest = some bytes' → bytes' = bytes := by
  obtain ⟨hguard1, hguard2⟩ := guarded_append hguard hbefore
  have hinit : Addressed cfg σ := by
    refine ⟨hstart, fun i t ht => ?_⟩
    rw [hidle, AList.lookup_empty] at ht
    cases ht
  have h1 := exec_invariant (Addressed cfg) (fun _ _ _ h hg hs => step_addressed h hg hs) hinit
    hguard1 hbefore
  have h2 := exec_invariant (Addressed cfg) (fun _ _ _ h hg hs => step_addressed h hg hs) h1
    hguard2 hafter
  refine ⟨h2.blobs, fun digest bytes bytes' hserved hserved' => ?_⟩
  unfold Shared.serves at hserved hserved'
  cases hpath : blobPath digest with
  | error => simp [hpath] at hserved
  | ok fileName =>
    simp only [hpath] at hserved hserved'
    have hb := h1.blobs digest fileName bytes hpath hserved
    have hb' := h2.blobs digest fileName bytes' hpath hserved'
    exact hsha (hb'.trans hb.symm)

/-! ## §5. Two commits of one upload. -/

/-- A registry with a grace period of 5 seconds. -/
def exampleConfig : Config where
  sha256 := exampleSha
  fromSlice := parseExample
  maxBlobBytes := 1000
  maxManifestBytes := 1000
  grace := 5

/-- Nothing is stored, and no request is there. -/
def emptyRegistry : Server where
  shared := {
    fs := .empty, dirs := ∅, repo := ⟨∅, ∅, []⟩, sessions := ∅, nextUpload := 1, clock := 0 }
  threads := ∅
  arrived := 0

/-- A handler makes its next calls, reading and writing whole files. -/
def proceeds (i n : Nat) : List Event := List.replicate n (.proceed i ⟨8192, []⟩)

/-- The bytes "ab", in one chunk. -/
def abBody : Body := ⟨[ascii "ab"], false⟩

/-- An upload is started and gets its bytes. -/
def uploadAb : List Event :=
  .arrive (.startUpload 1 none none ⟨[], false⟩) :: proceeds 0 2 ++
    .arrive (.patchUpload 1 1 none abBody) :: proceeds 1 4

/-- A commit of the upload, up to the end of its hash. -/
def hashAb (i : Nat) : List Event :=
  .arrive (.commitUpload 1 1 (some (exampleSha (ascii "ab"))) ⟨[], false⟩) :: proceeds i 5

/-- **The defect.**  Two commits of one upload both hash its data.  The first renames the
file into place and is done; the second finds no data file, takes the upload for an
empty one and creates the blob anew: the bytes served for the digest are gone. -/
theorem second_commit_truncates : Function.Injective exampleConfig.sha256 ∧
      ∃ σ1 σ2,
        exec (Server.step exampleConfig) emptyRegistry
          (uploadAb ++ hashAb 2 ++ hashAb 3 ++ proceeds 2 7) = some σ1 ∧
        exec (Server.step exampleConfig) σ1 (proceeds 3 2) = some σ2 ∧
        (σ1.threads.lookup 2).map (·.pc) = some (.done .accepted) ∧
        σ1.shared.serves (exampleSha (ascii "ab")) = some (ascii "ab") ∧
        σ2.shared.serves (exampleSha (ascii "ab")) = some [] ∧
        ¬ ContentAddressed exampleConfig σ2.shared.fs := by
  obtain ⟨σ1, hrun1, hdone, hserved1, σ2, hrun2, hserved2⟩ :
      ∃ σ1 ∈ exec (Server.step exampleConfig) emptyRegistry
          (uploadAb ++ hashAb 2 ++ hashAb 3 ++ proceeds 2 7),
        (σ1.threads.lookup 2).map (·.pc) = some (.done .accepted) ∧
        σ1.shared.serves (exampleSha (ascii "ab")) = some (ascii "ab") ∧
        ∃ σ2 ∈ exec (Server.step exampleConfig) σ1 (proceeds 3 2),
          σ2.shared.serves (exampleSha (ascii "ab")) = some [] := by
    decide +kernel
  refine ⟨exampleSha_injective, σ1, σ2, hrun1, hrun2, hdone, hserved1, hserved2, fun haddr => ?_⟩
  have hpath : blobPath (exampleSha (ascii "ab")) = .ok abName := by decide +kernel
  unfold Shared.serves at hserved2
  rw [hpath] at hserved2
  have hsha : exampleSha [] = exampleSha (ascii "ab") := haddr _ _ _ hpath hserved2
  cases exampleSha_injective hsha

/-- A commit of the upload, and at the same time another upload, in one request. -/
def commitAndUpload : List Event :=
  hashAb 2 ++ .arrive (.startUpload 1 none (some (exampleSha (ascii "c"))) ⟨[ascii "c"], false⟩) ::
    proceeds 3 6 ++ proceeds 2 4 ++ proceeds 3 3

/-- Two requests that take turns: the first serves its digest while the second is on its way. -/
theorem served_digest_kept : ∃ σ1 σ2,
      exec (Server.step exampleConfig) emptyRegistry (uploadAb ++ commitAndUpload) = some σ1 ∧
      exec (Server.step exampleConfig) σ1 (proceeds 2 3 ++ proceeds 3 6) = some σ2 ∧
      (σ1.shared.serves (exampleSha (ascii "ab"))).isSome ∧
      (σ1.shared.serves (exampleSha (ascii "c"))).isSome = false ∧
      (σ2.shared.serves (exampleSha (ascii "c"))).isSome ∧
      ContentAddressed exampleConfig σ2.shared.fs ∧
      ∀ digest bytes bytes', σ1.shared.serves digest = some bytes →
        σ2.shared.serves digest = some bytes' → bytes' = bytes := by
  obtain ⟨σ1, hrun1, hab, hnot, σ2, hrun2, hc⟩ :
      ∃ σ1 ∈ exec (Server.step exampleConfig) emptyRegistry (uploadAb ++ commitAndUpload),
        (σ1.shared.serves (exampleSha (ascii "ab"))).isSome ∧
        (σ1.shared.serves (exampleSha (ascii "c"))).isSome = false ∧
        ∃ σ2 ∈ exec (Server.step exampleConfig) σ1 (proceeds 2 3 ++ proceeds 3 6),
          (σ2.shared.serves (exampleSha (ascii "c"))).isSome := by
    decide +kernel
  have hstart : ContentAddressed exampleConfig emptyRegistry.shared.fs := by
    intro digest fileName bytes _ hread
    cases hread
  exact ⟨σ1, σ2, hrun1, hrun2, hab, hnot, hc,
    blobs_content_addressed exampleSha_injective rfl hstart
      (guarded_of_checked (fun _ _ h => h) (by decide +kernel)) hrun1 hrun2⟩

end Denia.Registry

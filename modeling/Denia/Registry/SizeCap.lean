/-
  Denia.Registry.SizeCap — the SIZE CAP of an upload while several requests stream to it.

  `stream_to_upload` reads the size of the data file once, and from then on counts its own
  bytes; all the streams of an upload append to one file.  A stream alone stays within
  `registry_max_blob_bytes`, because what it has counted covers the file and the batch it
  is about to append (`Fits`).  A second one counts from a size that is out of date.

  Main results: `uploads_within_cap`, where a stream measures only while no other one of its
  upload is under way; `two_patches_exceed_cap`, two `PATCH` requests at once.
-/
import Denia.Registry.Files

namespace Denia.Registry

open Lib

/-! ## §1. What a stream has counted. -/

/-- The length of the data file; none counts as empty. -/
def dataSize (fs : Fs Path UInt8) (upload : Uuid) : Nat :=
  ((fs.read (.data upload)).map List.length).getD 0

/-- A stream to its upload is under way. -/
def Thread.streams (t : Thread) : Bool :=
  match t.pc with
  | .appendOpen _ _ _ | .appendWrite _ _ _ _ => true
  | _ => false

/-- **What a handler with an open stream has counted** covers the file and what it has yet
to append; its descriptor is the data file of its upload or none.  A staged manifest is no
data file. -/
def Fits (cfg : Config) (fs : Fs Path UInt8) (t : Thread) : Prop :=
  match t.pc with
  | .appendOpen batch total _ =>
      dataSize fs t.upload + batch.length ≤ total ∧ total ≤ cfg.maxBlobBytes
  | .appendWrite left fd total _ =>
      dataSize fs t.upload + left.length ≤ total ∧ total ≤ cfg.maxBlobBytes ∧ fd < fs.next ∧
        ∀ upload, fs.links.lookup (.data upload) = some fd → upload = t.upload
  | .stageWrite _ fd _ => fd < fs.next ∧ ∀ upload, fs.links.lookup (.data upload) ≠ some fd
  | _ => True

variable {cfg : Config} {fs : Fs Path UInt8} {t : Thread}

theorem fits_idle (h : t.pc.idle = true) : Fits cfg fs t := by
  unfold Fits
  cases hpc : t.pc <;> first | trivial | (rw [hpc] at h; cases h)

theorem not_streams_idle (h : t.pc.idle = true) : t.streams = false := by
  unfold Thread.streams
  cases hpc : t.pc <;> first | rfl | (rw [hpc] at h; cases h)

variable {total : Nat} {batch : Bytes} {rest : List Bytes}

/-- A batch is as long as what it adds to the count, and the count stays under the cap. -/
theorem nextBatch_append {broken : Bool} {total' : Nat} {pending : Bytes} {chunks : List Bytes}
    (htotal : total ≤ cfg.maxBlobBytes)
    (h : nextBatch cfg broken total pending chunks = .append batch total' rest) :
    total + batch.length = total' + pending.length ∧ total' ≤ cfg.maxBlobBytes := by
  induction chunks generalizing total pending with
  | nil =>
    unfold nextBatch at h
    split at h
    · cases h
    split at h <;> cases h
    exact ⟨rfl, htotal⟩
  | cons chunk chunks ih =>
    unfold nextBatch at h
    split at h
    · cases h
    next hle =>
      have hle : total + chunk.length ≤ cfg.maxBlobBytes := Nat.le_of_not_lt hle
      split at h
      · cases h
        rw [List.length_append]
        exact ⟨by omega, hle⟩
      · obtain ⟨hsum, hcap⟩ := ih hle h
        rw [List.length_append] at hsum
        exact ⟨by omega, hcap⟩

/-- A stream that has counted at least the file goes on counting right. -/
theorem fits_streaming (rest : List Bytes) (hsize : dataSize fs t.upload ≤ total)
    (htotal : total ≤ cfg.maxBlobBytes) :
    Fits cfg fs { t with pc := streaming cfg t.request total rest } := by
  unfold streaming
  split
  next batch total' rest' hnext =>
    obtain ⟨hsum, hcap⟩ := nextBatch_append htotal hnext
    refine ⟨?_, hcap⟩
    rw [List.length_nil] at hsum
    show dataSize fs t.upload + batch.length ≤ total'
    omega
  next => exact fits_idle (plain_streamFailed ..).2
  next => split <;> exact fits_idle rfl

/-! ## §2. What a call does to the data files. -/

/-- The data files of `fs'` are ones of `fs` or new. -/
structure DataLinks (fs fs' : Fs Path UInt8) : Prop where
  next_le : fs.next ≤ fs'.next
  links : ∀ upload i, fs'.links.lookup (.data upload) = some i →
    fs.links.lookup (.data upload) = some i ∨ fs.next ≤ i

variable {s : Thread}

section
variable {fs' : Fs Path UInt8} {t' : Thread} {w : Shared}

theorem DataLinks.of_same (hnext : fs.next ≤ fs'.next)
    (hsame : ∀ upload, fs.SameAt fs' (.data upload)) : DataLinks fs fs' :=
  ⟨hnext, fun upload _ h => .inl ((hsame upload).1.symm.trans h)⟩

theorem dataSize_of_same {upload : Uuid} (h : fs.SameAt fs' (.data upload)) :
    dataSize fs' upload = dataSize fs upload := by
  unfold dataSize
  rw [h.2]

/-- What another handler has counted still covers its file. -/
theorem Fits.frame (h : Fits cfg fs s) (hlinks : DataLinks fs fs')
    (hsize : s.streams = true → dataSize fs' s.upload ≤ dataSize fs s.upload) : Fits cfg fs' s := by
  -- a file that is new is not the one of an old descriptor
  have hold : ∀ fd, fd < fs.next → ∀ upload, fs'.links.lookup (.data upload) = some fd →
      fs.links.lookup (.data upload) = some fd := by
    intro fd hfd upload hlink
    rcases hlinks.links upload fd hlink with hlink | hle
    · exact hlink
    · exact absurd hfd (Nat.not_lt.mpr hle)
  unfold Thread.streams at hsize
  unfold Fits at h ⊢
  cases hpc : s.pc <;> simp only [hpc] at h hsize ⊢
  case appendOpen batch total rest =>
    have hle := hsize trivial
    exact ⟨by omega, h.2⟩
  case appendWrite left fd total rest =>
    obtain ⟨hcount, hcap, hfd, hown⟩ := h
    have hle := hsize trivial
    exact ⟨by omega, hcap, Nat.lt_of_lt_of_le hfd hlinks.next_le,
      fun upload hlink => hown upload (hold fd hfd upload hlink)⟩
  case stageWrite fileName fd offset =>
    exact ⟨Nat.lt_of_lt_of_le h.1 hlinks.next_le,
      fun upload hlink => h.2 upload (hold fd h.1 upload hlink)⟩

/-- What one call owes the cap: the files stay under it, its own handler has counted right,
and the files of the other streams do not grow. -/
structure Capped (cfg : Config) (fs : Fs Path UInt8) (t : Thread) (fs' : Fs Path UInt8)
    (t' : Thread) : Prop where
  sizes : ∀ upload, dataSize fs' upload ≤ cfg.maxBlobBytes
  own : Fits cfg fs' t'
  links : DataLinks fs fs'
  others : ∀ upload, (t.streams = true → upload ≠ t.upload) →
    dataSize fs' upload ≤ dataSize fs upload
  stream : t'.streams = true → t'.upload = t.upload ∧ (t.streams = true ∨ t.pc = .streamSize)

/-- A call that leaves the data files alone. -/
theorem Capped.of_same (hcap : ∀ upload, dataSize fs upload ≤ cfg.maxBlobBytes)
    (hnext : fs.next ≤ fs'.next) (hsame : ∀ upload, fs.SameAt fs' (.data upload))
    (hown : Fits cfg fs' t')
    (hstream : t'.streams = true → t'.upload = t.upload ∧ (t.streams = true ∨ t.pc = .streamSize)) :
    Capped cfg fs t fs' t' where
  sizes upload := by
    rw [dataSize_of_same (hsame upload)]
    exact hcap upload
  own := hown
  links := .of_same hnext hsame
  others upload _ := Nat.le_of_eq (dataSize_of_same (hsame upload))
  stream := hstream

theorem streams_of_idle (h : t'.pc.idle = true) {P : Prop} (hs : t'.streams = true) : P := by
  simp [not_streams_idle h] at hs

/-- A call after which a data file is gone. -/
theorem Capped.of_gone (hcap : ∀ upload, dataSize fs upload ≤ cfg.maxBlobBytes)
    (hnext : fs'.next = fs.next) (hgone : fs'.links.lookup (.data t.upload) = none)
    (hsame : ∀ upload, upload ≠ t.upload → fs.SameAt fs' (.data upload))
    (hidle : t'.pc.idle = true) : Capped cfg fs t fs' t' := by
  have hzero : dataSize fs' t.upload = 0 := by
    unfold dataSize Fs.read
    rw [hgone]
    rfl
  have hle : ∀ upload, dataSize fs' upload ≤ dataSize fs upload := by
    intro upload
    by_cases hu : upload = t.upload
    · rw [hu, hzero]
      exact Nat.zero_le _
    · exact Nat.le_of_eq (dataSize_of_same (hsame upload hu))
  refine ⟨fun upload => Nat.le_trans (hle upload) (hcap upload), fits_idle hidle,
    ⟨Nat.le_of_eq hnext.symm, fun upload i hlink => ?_⟩, fun upload _ => hle upload,
    streams_of_idle hidle⟩
  by_cases hu : upload = t.upload
  · rw [hu, hgone] at hlink
    cases hlink
  · exact .inl ((hsame upload hu).1.symm.trans hlink)

/-- Opening the data file for an append. -/
theorem capped_opens (hcap : ∀ upload, dataSize w.fs upload ≤ cfg.maxBlobBytes)
    (hfits : Fits cfg w.fs t) (hpc : t.pc = .appendOpen batch total rest) :
    Capped cfg w.fs t (w.fs.openCreate w.clock (.data t.upload)).1
      { t with
        pc := .appendWrite batch (w.fs.openCreate w.clock (.data t.upload)).2 total rest } := by
  -- a new file is empty, and an absent one counted as empty
  have hsize : ∀ upload, dataSize (w.fs.openCreate w.clock (.data t.upload)).1 upload =
      dataSize w.fs upload := by
    intro upload
    by_cases hu : upload = t.upload
    · subst hu
      unfold dataSize
      rw [Fs.read_openCreate_self]
      cases w.fs.read (.data t.upload) <;> rfl
    · exact dataSize_of_same (Fs.sameAt_openCreate (by simpa using hu))
  have hlink : (w.fs.openCreate w.clock (.data t.upload)).1.links.lookup (.data t.upload) =
      some (w.fs.openCreate w.clock (.data t.upload)).2 := Fs.links_openCreate_self
  simp only [Fits, hpc] at hfits
  refine ⟨fun upload => by rw [hsize]; exact hcap upload, ?_, ⟨Fs.next_le_openCreate, ?_⟩,
    fun upload _ => Nat.le_of_eq (hsize upload), fun _ => ⟨rfl, .inl ?_⟩⟩
  · refine ⟨?_, hfits.2, Fs.links_lt _ _ _ hlink, fun upload hu => ?_⟩
    · show dataSize _ t.upload + batch.length ≤ total
      rw [hsize]
      exact hfits.1
    · have heq := Fs.links_inj _ _ _ _ hu hlink
      injection heq
  · intro upload i hi
    by_cases hu : upload = t.upload
    · subst hu
      unfold Fs.openCreate at hi
      split at hi
      next => exact .inl hi
      next =>
        rw [Fs.links_link_self] at hi
        injection hi with hi
        exact .inr (Nat.le_of_eq hi)
    · rw [Fs.links_openCreate_of_ne (by simpa using hu)] at hi
      exact .inl hi
  · unfold Thread.streams
    rw [hpc]

/-- An append through the descriptor of a stream. -/
theorem capped_appends {left : Bytes} {fd : Nat} (n : Nat)
    (hcap : ∀ upload, dataSize w.fs upload ≤ cfg.maxBlobBytes) (hfits : Fits cfg w.fs t)
    (hpc : t.pc = .appendWrite left fd total rest) :
    Capped cfg w.fs t (w.fs.write w.clock fd (w.fs.contents fd ++ left.take n))
      { t with pc := match left.drop n with
        | [] => streaming cfg t.request total rest
        | left => .appendWrite left fd total rest } := by
  simp only [Fits, hpc] at hfits
  obtain ⟨hcount, htotal, hfd, hown⟩ := hfits
  have hlength : (left.take n).length + (left.drop n).length = left.length := by
    rw [← List.length_append, List.take_append_drop]
  -- the file of the upload grows by what was written, if it is the descriptor's
  have hgrow : dataSize (w.fs.write w.clock fd (w.fs.contents fd ++ left.take n)) t.upload ≤
      dataSize w.fs t.upload + (left.take n).length := by
    unfold dataSize
    by_cases hlink : w.fs.links.lookup (.data t.upload) = some fd
    · rw [Fs.read_write_self hlink, Fs.read_of_link hlink]
      simp
    · have hsame : (w.fs.write w.clock fd (w.fs.contents fd ++ left.take n)).read
          (.data t.upload) = w.fs.read (.data t.upload) := Fs.read_write_of_not_link hlink
      rw [hsame]
      exact Nat.le_add_right _ _
  have hsame : ∀ upload, upload ≠ t.upload →
      w.fs.SameAt (w.fs.write w.clock fd (w.fs.contents fd ++ left.take n)) (.data upload) := by
    intro upload hu
    exact ⟨rfl, Fs.read_write_of_not_link fun hlink => hu (hown upload hlink)⟩
  have hstreams : t.streams = true := by
    unfold Thread.streams
    rw [hpc]
  refine ⟨fun upload => ?_, ?_, ⟨Nat.le_refl _, fun _ _ hlink => .inl hlink⟩, fun upload hu => ?_,
    fun _ => ⟨rfl, .inl hstreams⟩⟩
  · by_cases hu : upload = t.upload
    · subst hu
      omega
    · rw [dataSize_of_same (hsame upload hu)]
      exact hcap upload
  · cases hdrop : left.drop n with
    | nil =>
      rw [hdrop, List.length_nil] at hlength
      exact fits_streaming rest (by omega) htotal
    | cons b bs =>
      rw [hdrop] at hlength
      refine ⟨?_, htotal, hfd, hown⟩
      show dataSize _ t.upload + (b :: bs).length ≤ total
      omega
  · exact Nat.le_of_eq (dataSize_of_same (hsame upload (hu hstreams)))

/-- A staged file is no data file: it is new, or it was under a temporary name. -/
theorem fits_stages {fileName : String} {offset : Nat} :
    Fits cfg (w.fs.create w.clock (.blob (tmpName fileName))).1
      { t with
        pc := .stageWrite fileName (w.fs.create w.clock (.blob (tmpName fileName))).2 offset } := by
  have hlink : (w.fs.create w.clock (.blob (tmpName fileName))).1.links.lookup
      (.blob (tmpName fileName)) = some (w.fs.create w.clock (.blob (tmpName fileName))).2 :=
    Fs.links_create_self
  refine ⟨Fs.links_lt _ _ _ hlink, fun upload hu => ?_⟩
  cases Fs.links_inj _ _ _ _ hu hlink

/-- **What every call owes the cap, it pays.** -/
theorem capped_of_move (hcap : ∀ upload, dataSize w.fs upload ≤ cfg.maxBlobBytes)
    (hfits : Fits cfg w.fs t) (h : FileMove cfg w t fs' t') : Capped cfg w.fs t fs' t' := by
  cases h with
  | rests hidle =>
    exact .of_same hcap (Nat.le_refl _) (fun _ => .refl _ _) (fits_idle hidle)
      (streams_of_idle hidle)
  | measures hpc =>
    exact .of_same hcap (Nat.le_refl _) (fun _ => .refl _ _)
      (fits_streaming _ (Nat.le_refl _) (hcap t.upload)) fun _ => ⟨rfl, .inr hpc⟩
  | opens hpc => exact capped_opens hcap hfits hpc
  | appends n hpc => exact capped_appends n hcap hfits hpc
  | commits hname hrename hidle =>
    exact .of_gone hcap (Fs.inodes_rename hrename).2 (Fs.links_rename_source hrename (by simp))
      (fun upload hu => Fs.sameAt_rename hrename (by simpa using hu) (by simp)) hidle
  | empties hname hidle =>
    exact .of_same hcap Fs.next_le_create (fun _ => Fs.sameAt_create (by simp))
      (fits_idle hidle) (streams_of_idle hidle)
  | drops hidle =>
    refine .of_gone hcap rfl ?_ (fun upload hu => Fs.sameAt_unlink (by simpa using hu)) hidle
    exact AList.lookup_erase _ _
  | stages =>
    exact .of_same hcap Fs.next_le_create (fun _ => Fs.sameAt_create (by simp)) fits_stages
      (fun hs => by cases hs)
  | @writes fileName fd offset offset' bytes hpc =>
    simp only [Fits, hpc] at hfits
    exact .of_same hcap (Nat.le_refl _)
      (fun upload => ⟨rfl, Fs.read_write_of_not_link (hfits.2 upload)⟩) hfits
      (fun hs => by cases hs)
  | publishes hname hrename hidle =>
    exact .of_same hcap (Nat.le_of_eq (Fs.inodes_rename hrename).2.symm)
      (fun _ => Fs.sameAt_rename hrename (by simp) (by simp)) (fits_idle hidle)
      (streams_of_idle hidle)
  | deletes hname hidle =>
    exact .of_same hcap (Nat.le_refl _) (fun _ => Fs.sameAt_unlink (by simp)) (fits_idle hidle)
      (streams_of_idle hidle)

end

/-! ## §3. Along a run. -/

/-- **A stream measures alone**: when a request reads the size of its upload, no other
request has a stream to it under way. -/
def measuresAlone (σ : Server) : Event → Bool
  | .proceed i _ =>
      match σ.threads.lookup i with
      | some t =>
          t.pc != .streamSize ||
            σ.threads.entries.all fun e => e.1 = i || !(e.2.streams && e.2.upload = t.upload)
      | none => true
  | _ => true

/-- The cap, what every handler has counted, and that no two streams share an upload. -/
structure WithinCap (cfg : Config) (σ : Server) : Prop where
  sizes : ∀ upload, dataSize σ.shared.fs upload ≤ cfg.maxBlobBytes
  each : ∀ i t, σ.threads.lookup i = some t → Fits cfg σ.shared.fs t ∧ t.pc.Named
  apart : ∀ i j t s, i ≠ j → σ.threads.lookup i = some t → σ.threads.lookup j = some s →
    t.streams = true → s.streams = true → t.upload ≠ s.upload

variable {σ σ' : Server}

theorem measuresAlone_others {i : Nat} {a : Answer} (hguard : measuresAlone σ (.proceed i a) = true)
    (ht : σ.threads.lookup i = some t) (hpc : t.pc = .streamSize) {j : Nat} (hj : j ≠ i)
    (hs : σ.threads.lookup j = some s) (hstreams : s.streams = true) : s.upload ≠ t.upload := by
  simp only [measuresAlone, ht, hpc, bne_self_eq_false, Bool.false_or] at hguard
  have hentry := List.all_eq_true.mp hguard ⟨j, s⟩ (AList.mem_lookup_iff.mp hs)
  simpa [hj, hstreams] using hentry

theorem step_withinCap {event : Event} (hσ : WithinCap cfg σ)
    (hguard : measuresAlone σ event = true) (h : σ.step cfg event = some σ') :
    WithinCap cfg σ' := by
  cases event with
  | arrive request =>
    cases h
    obtain ⟨hidle, hnamed⟩ := idle_start cfg request
    have hnot := not_streams_idle hidle
    refine ⟨hσ.sizes, fun i t ht => ?_, fun i j t s hij ht hs hts hss => ?_⟩
    · rcases lookup_insert_cases ht with ⟨rfl, rfl⟩ | ⟨-, hold⟩
      · exact ⟨fits_idle hidle, hnamed⟩
      · exact hσ.each i t hold
    · rcases lookup_insert_cases ht with ⟨rfl, rfl⟩ | ⟨-, ht⟩
      · simp [hnot] at hts
      rcases lookup_insert_cases hs with ⟨rfl, rfl⟩ | ⟨-, hs⟩
      · simp [hnot] at hss
      · exact hσ.apart i j t s hij ht hs hts hss
  | elapse =>
    cases h
    exact ⟨hσ.sizes, hσ.each, hσ.apart⟩
  | proceed i =>
    obtain ⟨t, w, t', ht, hcall, rfl⟩ := step_proceed h
    obtain ⟨hfits, hnamed⟩ := hσ.each i t ht
    obtain ⟨hmove, hnamed'⟩ := call_files hnamed hcall
    have hcapped := capped_of_move hσ.sizes hfits hmove
    -- the new stream of `t` is an old one, or nobody else streams to its upload
    have hnew : t'.streams = true → ∀ j s, j ≠ i → σ.threads.lookup j = some s →
        s.streams = true → s.upload ≠ t'.upload := by
      intro hstreams j s hj hs hss
      obtain ⟨hupload, hwas⟩ := hcapped.stream hstreams
      rw [hupload]
      rcases hwas with hwas | hpc
      · exact hσ.apart j i s t hj hs ht hss hwas
      · exact measuresAlone_others hguard ht hpc hj hs hss
    refine ⟨hcapped.sizes, fun j s hs => ?_, fun j k s r hjk hs hr hss hrs => ?_⟩
    · rcases lookup_insert_cases hs with ⟨rfl, rfl⟩ | ⟨hj, hs⟩
      · exact ⟨hcapped.own, hnamed'⟩
      · refine ⟨(hσ.each j s hs).1.frame hcapped.links fun hss => ?_, (hσ.each j s hs).2⟩
        exact hcapped.others s.upload fun hts => hσ.apart j i s t hj hs ht hss hts
    · rcases lookup_insert_cases hs with ⟨rfl, rfl⟩ | ⟨hj, hs⟩
      · rcases lookup_insert_cases hr with ⟨rfl, -⟩ | ⟨hk, hr⟩
        · exact absurd rfl hjk
        · exact fun heq => hnew hss k r hk hr hrs heq.symm
      · rcases lookup_insert_cases hr with ⟨rfl, rfl⟩ | ⟨-, hr⟩
        · exact hnew hrs j s hj hs hss
        · exact hσ.apart j k s r hjk hs hr hss hrs

theorem withinCap_empty (cfg : Config) : WithinCap cfg emptyRegistry where
  sizes upload := Nat.zero_le _
  each i t ht := by cases ht.symm.trans (AList.lookup_empty i)
  apart i j t s _ ht := by cases ht.symm.trans (AList.lookup_empty i)

/-- **No upload is longer than the cap.**  In every state that a run of the registry
reaches, with any requests in any interleaving of their calls, if every stream measures
its upload while no other stream to it is under way. -/
theorem uploads_within_cap {events : List Event}
    (hguard : Guarded (Server.step cfg) (fun σ event => measuresAlone σ event = true)
      emptyRegistry events)
    (h : exec (Server.step cfg) emptyRegistry events = some σ) (upload : Uuid) :
    σ.shared.uploadSize upload ≤ cfg.maxBlobBytes :=
  (exec_invariant (WithinCap cfg) (fun _ _ _ hs hg hstep => step_withinCap hs hg hstep)
    (withinCap_empty cfg) hguard h).sizes upload

/-! ## §4. Two streams at once. -/

/-- A registry for blobs of two bytes. -/
def tinyConfig : Config := { exampleConfig with maxBlobBytes := 2 }

/-- An upload is started, and two requests with the bytes "ab" are past its session. -/
def twoPatches : List Event :=
  .arrive (.startUpload 1 none none ⟨[], false⟩) :: proceeds 0 2 ++
    .arrive (.patchUpload 1 1 none abBody) :: proceeds 1 1 ++
    .arrive (.patchUpload 1 1 none abBody) :: proceeds 2 1

/-- **Two requests that measure before either appends** make a data file of twice the
cap, and both are accepted. -/
theorem two_patches_exceed_cap : ∃ σ, exec (Server.step tinyConfig) emptyRegistry
        (twoPatches ++ proceeds 1 1 ++ proceeds 2 1 ++ proceeds 1 2 ++ proceeds 2 2) = some σ ∧
      tinyConfig.maxBlobBytes < σ.shared.uploadSize 1 ∧
      ∀ i t, σ.threads.lookup i = some t → t.pc = .done .accepted := by
  refine exists_run (fun σ => tinyConfig.maxBlobBytes < σ.shared.uploadSize 1 ∧
    (σ.threads.entries.all fun e => e.2.pc = .done .accepted) = true) (by decide +kernel)
    fun σ _ hend => ⟨hend.1, fun i t ht => ?_⟩
  exact of_decide_eq_true (List.all_eq_true.mp hend.2 _ (AList.mem_lookup_iff.mp ht))

/-- One after the other the second request is refused. -/
theorem uploads_within_cap_in_turn : ∃ σ, exec (Server.step tinyConfig) emptyRegistry
        (twoPatches ++ proceeds 1 3 ++ proceeds 2 1) = some σ ∧
      σ.shared.uploadSize 1 = 2 ∧ ∀ upload, σ.shared.uploadSize upload ≤ 2 := by
  refine exists_run (fun σ => σ.shared.uploadSize 1 = 2) (by decide +kernel)
    fun σ hσ hsize => ⟨hsize, ?_⟩
  exact uploads_within_cap (guarded_of_checked (fun _ _ hg => hg) (by decide +kernel)) hσ

end Denia.Registry

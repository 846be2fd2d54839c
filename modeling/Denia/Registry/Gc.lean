/-
  Denia.Registry.Gc — the hosted registry's garbage collector (`src/registry/gc.rs`),
  running ALONE.

  `sweep_once` builds one set, `referenced`, with a worklist: pop a manifest
  digest, insert it, read and parse its body, insert what it names and push its
  sub-manifests.  Then it lists the blob directory and deletes every blob that is
  neither in the set nor younger than the grace period.

  The set is the visited marker AND the mark set.  A sub-manifest is inserted when
  it is pushed, so when it is popped it looks visited and its body is never read.

  Main results: `markLoop_spec`, the loop marks the recorded digests and what the UNSKIPPED
  recorded manifests name; `sweepOnce_keeps_reachable_iff`.
-/
import Mathlib.Logic.Relation
import Denia.Lib.Worklist
import Denia.Registry.Repo
import Denia.Registry.Manifest

namespace Denia.Registry

open Lib

/-- `RegistryGcError`. -/
inductive RegistryGcError where
  | storage (e : RegistryStorageError)
  | json
  deriving DecidableEq

/-- `RegistryGcReport`, past its timestamp. -/
structure RegistryGcReport where
  scannedBlobs : Nat := 0
  deletedBlobs : Nat := 0
  deletedBytes : Nat := 0
  keptReferenced : Nat := 0
  keptRecent : Nat := 0
  keptUploads : Nat := 0
  deriving DecidableEq

/-- What the collector works on: the blob directory and the metadata rows. -/
structure RegistryState where
  storage : RegistryStorage
  repo : HostedRegistryRepo

variable {referenced queue marked : List String} {named : String → List String}
  {digest d name : String} {fromSlice : Bytes → Option Json} {grace : Nat}

section Mark

variable (fromSlice : Bytes → Option Json) (storage : RegistryStorage)

/-! ## §1. The mark loop. -/

/-- The parsed body of a manifest digest. -/
def manifestBody (digest : String) : Except RegistryGcError Json :=
  match storage.readBlob digest with
  | .error e => .error (.storage e)
  | .ok bytes =>
      match fromSlice bytes with
      | none => .error .json
      | some v => .ok v

/-- The digests named by the body of `digest`; none when it cannot be read. -/
def namedBy (digest : String) : List String :=
  match manifestBody fromSlice storage digest with
  | .ok v => referencedDigests v
  | .error _ => []

/-- How many sub-manifests expanding one blob file can push. -/
def pushWeight (referenced : List String) (e : Sigma fun _ : String => BlobFile) : Nat :=
  if digestOf e.1 ∈ referenced then 0
  else match fromSlice e.2.bytes with
    | some v => (subManifestDigests v).length
    | none => 0

/-- The bound on the remaining iterations of the mark loop. -/
def markBound (referenced queue : List String) : Nat :=
  queue.length + (storage.blobs.entries.map (pushWeight fromSlice referenced)).sum

variable {v : Json}

theorem markBound_expand {referenced' : List String} (hfresh : digest ∉ referenced)
    (hbody : manifestBody fromSlice storage digest = .ok v) (hsub : referenced ⊆ referenced')
    (hmem : digest ∈ referenced') :
    markBound fromSlice storage referenced' ((subManifestDigests v).reverse ++ queue)
      < markBound fromSlice storage referenced (digest :: queue) := by
  unfold manifestBody at hbody
  split at hbody
  next => cases hbody
  next bytes hread =>
    split at hbody
    next => cases hbody
    next w hparse =>
      injection hbody with hbody
      subst hbody
      unfold RegistryStorage.readBlob at hread
      split at hread
      next => cases hread
      next name hpath =>
        split at hread
        next => cases hread
        next file hlook =>
          injection hread with hread
          subst hread
          have hname := digestOf_of_blobPath hpath
          have hentry : (⟨name, file⟩ : Sigma fun _ : String => BlobFile)
              ∈ storage.blobs.entries := AList.mem_lookup_iff.mp hlook
          -- the body just walked pushes at most its own weight, which is spent
          have hdrop := sum_map_add_le_sum_map
            (f := pushWeight fromSlice referenced) (g := pushWeight fromSlice referenced')
            hentry
            (by
              intro e _
              unfold pushWeight
              by_cases h : digestOf e.1 ∈ referenced
              · rw [if_pos h, if_pos (hsub h)]
              · rw [if_neg h]
                split
                · exact Nat.zero_le _
                · exact Nat.le_refl _)
            (by simp only [pushWeight, hname, if_pos hmem])
          have hweight : pushWeight fromSlice referenced ⟨name, file⟩
              = (subManifestDigests w).length := by
            simp only [pushWeight, hname, if_neg hfresh, hparse]
          simp only [markBound, List.length_append, List.length_reverse, List.length_cons]
          omega

/-- The set after one body is walked: config, layers and sub-manifests are
inserted. -/
def markBody (referenced : List String) (v : Json) : List String :=
  (referencedDigests v).foldl (fun acc d => acc.insert d) referenced

theorem mem_markBody : d ∈ markBody referenced v ↔ d ∈ referenced ∨ d ∈ referencedDigests v := by
  unfold markBody
  induction referencedDigests v generalizing referenced with
  | nil => simp
  | cons x xs ih =>
    simp only [List.foldl_cons, ih, List.mem_insert_iff, List.mem_cons]
    tauto

/-- The `while let Some(d) = queue.pop()` loop of `sweep_once`.  `queue` is the
`Vec` with its END first: `pop` takes the head, and pushing the sub-manifests of
a body in order leaves the last one on top. -/
def markLoop (referenced queue : List String) : Except RegistryGcError (List String) :=
  match queue with
  | [] => .ok referenced
  | digest :: queue =>
      -- `!referenced.insert(d)`: already processed
      if digest ∈ referenced then markLoop referenced queue
      else
        match _hbody : manifestBody fromSlice storage digest with
        | .error e => .error e
        | .ok v =>
            markLoop (markBody (digest :: referenced) v)
              ((subManifestDigests v).reverse ++ queue)
termination_by markBound fromSlice storage referenced queue
decreasing_by
  · simp only [markBound, List.length_cons]
    omega
  · rename_i hfresh
    exact markBound_expand fromSlice storage hfresh _hbody
      (fun x hx => mem_markBody.mpr (.inl (List.mem_cons_of_mem _ hx)))
      (mem_markBody.mpr (.inl (by simp)))

/-! ## §2. What the loop marks. -/

/-- The manifests of a queue whose body the loop reads: one that is already
marked when it is popped is SKIPPED, whether it was read before or only named. -/
def unskipped (named : String → List String) : List String → List String → List String
  | _, [] => []
  | marked, digest :: queue =>
      if digest ∈ marked then unskipped named marked queue
      else digest :: unskipped named (digest :: named digest ++ marked) queue

theorem unskipped_congr {marked' : List String} (h : ∀ d, d ∈ marked ↔ d ∈ marked')
    (queue : List String) : unskipped named marked queue = unskipped named marked' queue := by
  induction queue generalizing marked marked' with
  | nil => rfl
  | cons q queue ih =>
    unfold unskipped
    by_cases hq : q ∈ marked
    · rw [if_pos hq, if_pos ((h q).mp hq), ih h]
    · rw [if_neg hq, if_neg (fun hq' => hq ((h q).mpr hq'))]
      congr 1
      apply ih
      intro d
      simp only [List.cons_append, List.mem_cons, List.mem_append, h]

/-- Marked manifests on top of the queue are all skipped. -/
theorem unskipped_append_marked {pushed : List String} (hpushed : ∀ d ∈ pushed, d ∈ marked)
    (queue : List String) :
    unskipped named marked (pushed ++ queue) = unskipped named marked queue := by
  induction pushed with
  | nil => rfl
  | cons p pushed ih =>
    rw [List.cons_append, unskipped, if_pos (hpushed p (by simp))]
    exact ih fun d hd => hpushed d (List.mem_cons_of_mem _ hd)

theorem namedBy_of_body (h : manifestBody fromSlice storage digest = .ok v) :
    namedBy fromSlice storage digest = referencedDigests v := by
  unfold namedBy
  rw [h]

/-- **What one run of the mark loop marks.**  Pushed sub-manifests are marked
before they are pushed, so the manifests whose body is read are the unskipped
ones of the queue the loop starts from. -/
theorem markLoop_spec (h : markLoop fromSlice storage referenced queue = .ok marked) (d : String) :
    d ∈ marked ↔ d ∈ referenced ∨ d ∈ queue ∨
      ∃ r ∈ unskipped (namedBy fromSlice storage) referenced queue,
        d ∈ namedBy fromSlice storage r := by
  -- the induction is on the loop's own recursion; the sub-manifests a body
  -- pushes drop out of `unskipped` because `markBody` has marked them
  fun_induction markLoop fromSlice storage referenced queue with
  | case1 =>
    cases h
    simp [unskipped]
  | case2 referenced digest queue hmem ih =>
    rw [ih h, unskipped, if_pos hmem]
    simp only [List.mem_cons]
    constructor
    · tauto
    · rintro (h | (rfl | h) | h)
      · exact .inl h
      · exact .inl hmem
      · exact .inr (.inl h)
      · exact .inr (.inr h)
  | case3 => cases h
  | case4 referenced digest queue hfresh v hbody ih =>
    have hnamed := namedBy_of_body fromSlice storage hbody
    have hsubs : ∀ x ∈ (subManifestDigests v).reverse,
        x ∈ markBody (digest :: referenced) v := by
      intro x hx
      apply mem_markBody.mpr
      exact .inr (List.mem_append_right _ (List.mem_reverse.mp hx))
    have hmarks : ∀ x, x ∈ markBody (digest :: referenced) v ↔
        x ∈ digest :: namedBy fromSlice storage digest ++ referenced := by
      intro x
      rw [mem_markBody, hnamed]
      simp only [List.cons_append, List.mem_cons, List.mem_append]
      tauto
    rw [ih h, unskipped_append_marked hsubs, unskipped, if_neg hfresh, unskipped_congr hmarks]
    simp only [hmarks, List.cons_append, List.mem_cons, List.mem_append,
      List.mem_reverse, exists_eq_or_imp]
    have : d ∈ subManifestDigests v → d ∈ namedBy fromSlice storage digest := by
      intro hd
      rw [hnamed]
      exact List.mem_append_right _ hd
    -- the two sides differ in the order of their cases, and in the sub-manifests
    constructor
    · rintro ((hd | hd | hd) | (hd | hd) | hd)
      · exact .inr (.inl (.inl hd))
      · exact .inr (.inr (.inl hd))
      · exact .inl hd
      · exact .inr (.inr (.inl (this hd)))
      · exact .inr (.inl (.inr hd))
      · exact .inr (.inr (.inr hd))
    · rintro (hd | (hd | hd) | hd | hd)
      · exact .inl (.inr (.inr hd))
      · exact .inl (.inl hd)
      · exact .inr (.inl (.inr hd))
      · exact .inl (.inr (.inl hd))
      · exact .inr (.inr hd)

/-- The loop returns if the manifests it starts from can be read: a sub-manifest is marked
before it is pushed, so its body is not read. -/
theorem markLoop_ok
    (h : ∀ d ∈ queue, d ∉ referenced → ∃ v, manifestBody fromSlice storage d = .ok v) :
    ∃ marked, markLoop fromSlice storage referenced queue = .ok marked := by
  fun_induction markLoop fromSlice storage referenced queue with
  | case1 referenced => exact ⟨referenced, rfl⟩
  | case2 referenced digest queue hmem ih =>
    exact ih fun d hd => h d (List.mem_cons_of_mem _ hd)
  | case3 referenced digest queue hfresh e hbody =>
    obtain ⟨v, hv⟩ := h digest List.mem_cons_self hfresh
    simp [hbody] at hv
  | case4 referenced digest queue hfresh v hbody ih =>
    refine ih fun d hd hnot => ?_
    rcases List.mem_append.mp hd with hd | hd
    · refine absurd (mem_markBody.mpr (.inr ?_)) hnot
      exact List.mem_append_right _ (List.mem_reverse.mp hd)
    · refine h d (List.mem_cons_of_mem _ hd) fun hold => hnot ?_
      exact mem_markBody.mpr (.inl (List.mem_cons_of_mem _ hold))

end Mark

/-! ## §3. The sweep. -/

/-- The loop over `list_blobs`: keep what is referenced, keep what is recent,
delete the rest from disk and from the metadata. -/
def sweepLoop (referenced : List String) (cutoff : Time) :
    List (String × Time × Nat) → RegistryState → RegistryGcReport →
      Except RegistryGcError (RegistryState × RegistryGcReport)
  | [], st, report => .ok (st, report)
  | (digest, mtime, size) :: rest, st, report =>
      let report := { report with scannedBlobs := report.scannedBlobs + 1 }
      if digest ∈ referenced then
        sweepLoop referenced cutoff rest st
          { report with keptReferenced := report.keptReferenced + 1 }
      else if mtime > cutoff then
        sweepLoop referenced cutoff rest st
          { report with keptRecent := report.keptRecent + 1 }
      else
        match st.storage.deleteBlob digest with
        | .error e => .error (.storage e)
        | .ok storage =>
            sweepLoop referenced cutoff rest
              { storage := storage, repo := st.repo.deleteBlobRows digest }
              { report with
                deletedBlobs := report.deletedBlobs + 1
                deletedBytes := report.deletedBytes + size }

/-- `sweep_once`.  `digests` is the answer of `all_manifest_digests`; `now` is the
clock reading the cutoff is computed from. -/
def sweepOnce (fromSlice : Bytes → Option Json) (grace : Nat) (now : Time)
    (digests : List String) (st : RegistryState) :
    Except RegistryGcError (RegistryState × RegistryGcReport) :=
  match markLoop fromSlice st.storage [] digests.reverse with
  | .error e => .error e
  | .ok referenced =>
      let report : RegistryGcReport := { keptUploads := st.storage.countActiveUploads }
      match sweepLoop referenced (now - grace) st.storage.listBlobs st report with
      | .error e => .error e
      | .ok (st, report) =>
          .ok ({ st with
            repo := st.repo.recordGcRun report.scannedBlobs report.deletedBlobs
              report.deletedBytes }, report)

/-- A listed blob the sweep loop deletes. -/
def Swept (referenced : List String) (cutoff : Time) (e : String × Time × Nat) : Prop :=
  e.1 ∉ referenced ∧ e.2.1 ≤ cutoff

variable {digests : List String} {cutoff now : Time} {listing : List (String × Time × Nat)}
  {st st' : RegistryState} {report : RegistryGcReport}

/-- **What the sweep loop deletes**: the files of the swept entries, and no
other. -/
theorem sweepLoop_spec {report' : RegistryGcReport}
    (h : sweepLoop referenced cutoff listing st report = .ok (st', report')) (name : String) :
    st'.storage.blobs.lookup name = none ↔
      st.storage.blobs.lookup name = none ∨
        ∃ e ∈ listing, e.1 = digestOf name ∧ Swept referenced cutoff e := by
  induction listing generalizing st report with
  | nil =>
    cases h
    simp
  | cons e rest ih =>
    obtain ⟨digest, mtime, size⟩ := e
    simp only [sweepLoop] at h
    split at h
    next href =>
      rw [ih h]
      simp [Swept, href]
    next href =>
      split at h
      next hrecent =>
        rw [ih h]
        simp only [List.mem_cons, exists_eq_or_imp, Swept]
        have : ¬ mtime ≤ cutoff := Int.not_le.mpr hrecent
        tauto
      next hold =>
        split at h
        next => cases h
        next storage hdel =>
          rw [ih h]
          have hswept : Swept referenced cutoff (digest, mtime, size) :=
            ⟨href, Int.not_lt.mp hold⟩
          unfold RegistryStorage.deleteBlob at hdel
          split at hdel <;> cases hdel
          next n hpath =>
            have hn := digestOf_of_blobPath hpath
            simp only [List.mem_cons, exists_eq_or_imp, hswept, and_true]
            by_cases hname : name = n
            · subst hname
              simp [AList.lookup_erase, hn]
            · rw [AList.lookup_erase_ne hname]
              have : digest ≠ digestOf name := by
                rw [← hn]
                intro heq
                exact hname (digestOf_inj heq).symm
              tauto

/-- **When the sweep loop returns**: the names it wants deleted must be digests. -/
theorem sweepLoop_ok_iff : (∃ r, sweepLoop referenced cutoff listing st report = .ok r) ↔
      ∀ e ∈ listing, Swept referenced cutoff e → ∃ name, blobPath e.1 = .ok name := by
  induction listing generalizing st report with
  | nil => exact ⟨fun _ _ he => absurd he List.not_mem_nil, fun _ => ⟨_, rfl⟩⟩
  | cons e rest ih =>
    obtain ⟨digest, mtime, size⟩ := e
    rw [List.forall_mem_cons]
    simp only [sweepLoop]
    split
    next href =>
      rw [ih]
      exact ⟨fun hrest => ⟨fun hswept => absurd href hswept.1, hrest⟩, And.right⟩
    next href =>
      split
      next hrecent =>
        rw [ih]
        exact ⟨fun hrest => ⟨fun hswept => absurd hswept.2 (Int.not_le.mpr hrecent), hrest⟩,
          And.right⟩
      next hold =>
        have hswept : Swept referenced cutoff (digest, mtime, size) :=
          ⟨href, Int.not_lt.mp hold⟩
        cases hpath : blobPath digest with
        | error =>
          simp only [RegistryStorage.deleteBlob, hpath]
          constructor
          · rintro ⟨r, hr⟩
            cases hr
          · rintro ⟨hname, -⟩
            obtain ⟨name, hname⟩ := hname hswept
            cases hname
        | ok name =>
          simp only [RegistryStorage.deleteBlob, hpath]
          rw [ih]
          exact ⟨fun hrest => ⟨fun _ => ⟨name, rfl⟩, hrest⟩, And.right⟩

/-! ## §4. Reachability, and when a sweep keeps it. -/

section Reach

variable (fromSlice : Bytes → Option Json)

/-- The body of `digest` parses, and `select` finds `d` in it. -/
def BodyNames (storage : RegistryStorage) (select : Json → List String)
    (digest d : String) : Prop :=
  ∃ v, manifestBody fromSlice storage digest = .ok v ∧ d ∈ select v

/-- A manifest reachable from the recorded ones through `manifests[].digest`,
with or without a row of its own. -/
def ManifestReachable (st : RegistryState) (m : String) : Prop :=
  ∃ r, st.repo.Recorded r ∧
    Relation.ReflTransGen (BodyNames fromSlice st.storage subManifestDigests) r m

/-- A blob reachable from the recorded manifests: a reachable manifest, or a
config or layer that one names. -/
def BlobReachable (st : RegistryState) (d : String) : Prop :=
  ManifestReachable fromSlice st d ∨
    ∃ m, ManifestReachable fromSlice st m ∧
      BodyNames fromSlice st.storage contentDigests m d

/-- The recorded manifests that a sweep reads: going through the rows from the
LAST one, a manifest is skipped when one that was read before it names it. -/
def readRows (storage : RegistryStorage) (digests : List String) : List String :=
  unskipped (namedBy fromSlice storage) [] digests.reverse

/-- `d` is recorded itself or named by a recorded manifest that is not skipped. -/
def NamedByReadRow (storage : RegistryStorage) (digests : List String) (d : String) : Prop :=
  d ∈ digests ∨
    ∃ r ∈ readRows fromSlice storage digests, d ∈ namedBy fromSlice storage r

end Reach

theorem unskipped_subset : ∀ d ∈ unskipped named marked queue, d ∈ queue := by
  induction queue generalizing marked with
  | nil => exact fun _ hd => hd
  | cons q queue ih =>
    intro d hd
    unfold unskipped at hd
    split at hd
    · exact List.mem_cons_of_mem _ (ih d hd)
    · rcases List.mem_cons.mp hd with rfl | hd
      · exact List.mem_cons_self
      · exact List.mem_cons_of_mem _ (ih d hd)

/-- What a sweep keeps by name is reachable. -/
theorem NamedByReadRow.reachable (hlist : st.repo.IsManifestListing digests)
    (h : NamedByReadRow fromSlice st.storage digests d) : BlobReachable fromSlice st d := by
  rcases h with hd | ⟨r, hr, hd⟩
  · exact .inl ⟨d, (hlist.2 d).mp hd, .refl⟩
  · have hrow : st.repo.Recorded r :=
      (hlist.2 r).mp (List.mem_reverse.mp (unskipped_subset r hr))
    unfold namedBy at hd
    split at hd
    next v hbody =>
      rcases List.mem_append.mp hd with hd | hd
      · exact .inr ⟨r, ⟨r, hrow, .refl⟩, v, hbody, hd⟩
      · exact .inl ⟨r, hrow, .single ⟨v, hbody, hd⟩⟩
    next => exact absurd hd List.not_mem_nil

theorem sweepOnce_cases (h : sweepOnce fromSlice grace now digests st = .ok (st', report)) :
    ∃ referenced st1 report0,
      markLoop fromSlice st.storage [] digests.reverse = .ok referenced ∧
      sweepLoop referenced (now - grace) st.storage.listBlobs st report0 = .ok (st1, report) ∧
      st'.storage = st1.storage := by
  unfold sweepOnce at h
  split at h
  next => cases h
  next referenced hmark =>
    simp only at h
    split at h
    next => cases h
    next st1 report1 hsweep =>
      injection h with h
      injection h with hst hrep
      subst hrep
      exact ⟨referenced, st1, _, hmark, hsweep, by rw [← hst]⟩

/-- **What a sweep deletes**: the blob files that are older than the grace period
and neither recorded nor named by a recorded manifest that is read. -/
theorem sweepOnce_deletes_iff (h : sweepOnce fromSlice grace now digests st = .ok (st', report))
    {file : BlobFile} (hfile : st.storage.blobs.lookup name = some file) :
    st'.storage.blobs.lookup name = none ↔
      file.mtime ≤ now - grace ∧
        ¬ NamedByReadRow fromSlice st.storage digests (digestOf name) := by
  obtain ⟨referenced, st1, report0, hmark, hsweep, hst⟩ := sweepOnce_cases h
  have hmem : digestOf name ∈ referenced ↔
      NamedByReadRow fromSlice st.storage digests (digestOf name) := by
    rw [markLoop_spec fromSlice st.storage hmark]
    simp [NamedByReadRow, readRows]
  rw [hst, sweepLoop_spec hsweep, ← hmem]
  have hentry : (⟨name, file⟩ : Sigma fun _ : String => BlobFile)
      ∈ st.storage.blobs.entries := AList.mem_lookup_iff.mp hfile
  constructor
  · rintro (hnone | ⟨e, he, hname, hswept⟩)
    · simp [hfile] at hnone
    · obtain ⟨e', he', rfl⟩ := List.mem_map.mp he
      have hkey : e'.1 = name := digestOf_inj hname
      have hsame : (⟨name, e'.2⟩ : Sigma fun _ : String => BlobFile)
          ∈ st.storage.blobs.entries := by
        subst hkey
        exact he'
      have hval : e'.2 = file :=
        Option.some_injective _ ((AList.mem_lookup_iff.mpr hsame).symm.trans hfile)
      exact ⟨by rw [← hval]; exact hswept.2, by rw [← hkey]; exact hswept.1⟩
  · rintro ⟨hold, hun⟩
    exact .inr ⟨_, List.mem_map.mpr ⟨_, hentry, rfl⟩, rfl, hun, hold⟩

/-- **Exactly when a sweep keeps everything reachable.**  A sweep that runs alone
and returns keeps every reachable blob iff every reachable blob file past the
grace period is recorded or named by a recorded manifest that is not skipped.
Nothing reached only through a sub-manifest without an unskipped row of its own
passes that test. -/
theorem sweepOnce_keeps_reachable_iff {fromSlice : Bytes → Option Json} {grace : Nat}
    {now : Time} {digests : List String} {st st' : RegistryState} {report : RegistryGcReport}
    (hlist : st.repo.IsManifestListing digests)
    (h : sweepOnce fromSlice grace now digests st = .ok (st', report)) :
    (∀ d, BlobReachable fromSlice st d → st.storage.HasBlob d → st'.storage.HasBlob d) ↔
      ∀ d name file, BlobReachable fromSlice st d → blobPath d = .ok name →
        st.storage.blobs.lookup name = some file → file.mtime ≤ now - grace →
          st.repo.Recorded d ∨
            ∃ r ∈ readRows fromSlice st.storage digests, d ∈ namedBy fromSlice st.storage r := by
  constructor
  · intro hkeep d name file hreach hpath hfile hold
    obtain ⟨name', file', hpath', hfile'⟩ := hkeep d hreach ⟨name, file, hpath, hfile⟩
    have hname : name' = name := by
      rw [hpath] at hpath'
      injection hpath' with hpath'
      exact hpath'.symm
    subst hname
    -- neither recorded nor named, it would have been deleted
    by_contra hun
    have hdel : st'.storage.blobs.lookup name' = none := by
      apply (sweepOnce_deletes_iff h hfile).mpr
      refine ⟨hold, fun hnamed => hun ?_⟩
      rw [digestOf_of_blobPath hpath] at hnamed
      exact hnamed.imp_left (hlist.2 d).mp
    simp [hdel] at hfile'
  · rintro hcond d hreach ⟨name, file, hpath, hfile⟩
    cases hlook : st'.storage.blobs.lookup name with
    | some file' => exact ⟨name, file', hpath, hlook⟩
    | none =>
      obtain ⟨hold, hun⟩ := (sweepOnce_deletes_iff h hfile).mp hlook
      rw [digestOf_of_blobPath hpath] at hun
      exact absurd ((hcond d name file hreach hpath hfile hold).imp_left (hlist.2 d).mpr) hun

/-! ## §5. An index alone, and with its manifest.

Three real blobs: a layer, an image manifest with that layer, and an index with
that manifest.  The names are the SHA-256 of the contents. -/

/-- The three blobs on disk, all written at time 0. -/
def exampleStorage : RegistryStorage where
  blobs := ((∅ : AList fun _ : String => BlobFile).insert layerName ⟨ascii "layer", 0⟩).insert
      imageName ⟨arrayBody "layers" layerName, 0⟩
    |>.insert indexName ⟨arrayBody "manifests" imageName, 0⟩
  uploads := ∅

/-- A manifest row for each of the names, in repository 1. -/
def exampleRows : List String → AList fun _ : Nat × String => HostedManifest
  | [] => ∅
  | name :: names => (exampleRows names).insert (1, digestOf name) ⟨"application/json", 100⟩

/-- The blobs, with these rows. -/
def exampleState (names : List String) : RegistryState :=
  ⟨exampleStorage, ⟨exampleRows names, ∅, []⟩⟩

/-- A sweep of `exampleState names` a day later. -/
def exampleSweep (names : List String) :
    Except RegistryGcError (RegistryState × RegistryGcReport) :=
  sweepOnce parseExample 3600 86400 (names.map digestOf) (exampleState names)

/-- The blobs it leaves. -/
def sweptNames (names : List String) : Option (List String) :=
  match exampleSweep names with
  | .ok (st, _) => some (st.storage.blobs.entries.map Sigma.fst)
  | .error _ => none

theorem sweptNames_spec {names left : List String} (h : sweptNames names = some left) :
    ∃ st' report, exampleSweep names = .ok (st', report) ∧
      ∀ n, (∃ file, st'.storage.blobs.lookup n = some file) → n ∈ left := by
  unfold sweptNames at h
  split at h
  next st' report hsweep =>
    injection h with h
    refine ⟨st', report, hsweep, ?_⟩
    rintro n ⟨file, hfile⟩
    rw [← h]
    exact List.mem_map.mpr ⟨⟨n, file⟩, AList.mem_lookup_iff.mp hfile, rfl⟩
  next => cases h

theorem exampleState_recorded (names : List String) (d : String) :
    d ∈ names.map digestOf ↔ (exampleState names).repo.Recorded d := by
  show _ ↔ ∃ repositoryId, ((exampleRows names).lookup (repositoryId, d)).isSome
  induction names with
  | nil => simp [exampleRows]
  | cons name names ih =>
    rw [List.map_cons, List.mem_cons, ih]
    constructor
    · rintro (rfl | ⟨repositoryId, h⟩)
      · exact ⟨1, by rw [exampleRows, AList.lookup_insert]; rfl⟩
      · refine ⟨repositoryId, AList.lookup_isSome.mpr ((AList.mem_insert _).mpr (.inr ?_))⟩
        exact AList.lookup_isSome.mp h
    · rintro ⟨repositoryId, h⟩
      rcases (AList.mem_insert _).mp (AList.lookup_isSome.mp h) with heq | hmem
      · exact .inl (Prod.mk.inj heq).2
      · exact .inr ⟨repositoryId, AList.lookup_isSome.mpr hmem⟩

theorem exampleState_listing {names : List String} (h : (names.map digestOf).Nodup) :
    (exampleState names).repo.IsManifestListing (names.map digestOf) :=
  ⟨h, exampleState_recorded names⟩

/-- The image manifest on disk. -/
theorem manifestBody_imageName : manifestBody parseExample exampleStorage (digestOf imageName)
    = .ok (arrayJson "layers" layerName) := by rfl

/-- The index on disk. -/
theorem manifestBody_indexName : manifestBody parseExample exampleStorage (digestOf indexName)
    = .ok (arrayJson "manifests" imageName) := by rfl

/-- **The defect.**  The only recorded manifest is an index; the image manifest it
lists has no row.  Its layer is reachable, and one sweep a day later deletes it. -/
theorem sweepOnce_drops_layer_of_index :
    (exampleState [indexName]).repo.IsManifestListing [digestOf indexName] ∧
      BlobReachable parseExample (exampleState [indexName]) (digestOf layerName) ∧
      (exampleState [indexName]).storage.HasBlob (digestOf layerName) ∧
      ∃ st' report,
        sweepOnce parseExample 3600 86400 [digestOf indexName] (exampleState [indexName])
          = .ok (st', report) ∧
        ¬ st'.storage.HasBlob (digestOf layerName) := by
  refine ⟨exampleState_listing (List.nodup_singleton _), .inr ⟨digestOf imageName, ?_, ?_⟩, ?_, ?_⟩
  · refine ⟨digestOf indexName, (exampleState_recorded _ _).mp (List.mem_singleton_self _), ?_⟩
    exact Relation.ReflTransGen.single ⟨_, manifestBody_indexName, by decide +kernel⟩
  · exact ⟨_, manifestBody_imageName, by decide +kernel⟩
  · exact ⟨layerName, ⟨ascii "layer", 0⟩, by decide +kernel, by decide +kernel⟩
  · obtain ⟨st', report, hsweep, hleft⟩ := sweptNames_spec
      (show sweptNames [indexName] = some [indexName, imageName] by decide +kernel)
    refine ⟨st', report, hsweep, ?_⟩
    rintro ⟨name, file, hpath, hfile⟩
    obtain rfl : name = layerName := digestOf_inj (digestOf_of_blobPath hpath)
    exact absurd (hleft layerName ⟨file, hfile⟩) (by decide +kernel)

/-- With rows for the two manifests, no other one is reachable. -/
theorem manifestReachable_example {m : String}
    (h : ManifestReachable parseExample (exampleState [indexName, imageName]) m) :
    m = digestOf indexName ∨ m = digestOf imageName := by
  obtain ⟨r, hr, hpath⟩ := h
  induction hpath with
  | refl => simpa using (exampleState_recorded _ _).mpr hr
  | tail _ hstep ih =>
    obtain ⟨v, hv, hmem⟩ := hstep
    rcases ih with rfl | rfl
    · cases hv.symm.trans manifestBody_indexName
      exact .inr (List.mem_singleton.mp hmem)
    · cases hv.symm.trans manifestBody_imageName
      cases hmem

/-- With a row for the image manifest as well, listed after that of the index, the condition
holds, and the sweep keeps the layer. -/
theorem sweepOnce_keeps_layer_of_image : ∃ st' report,
      sweepOnce parseExample 3600 86400 [digestOf indexName, digestOf imageName]
        (exampleState [indexName, imageName]) = .ok (st', report) ∧
      BlobReachable parseExample (exampleState [indexName, imageName]) (digestOf layerName) ∧
      ∀ d, BlobReachable parseExample (exampleState [indexName, imageName]) d →
        (exampleState [indexName, imageName]).storage.HasBlob d → st'.storage.HasBlob d := by
  obtain ⟨st', report, hsweep, -⟩ := sweptNames_spec
    (show sweptNames [indexName, imageName] = some [indexName, imageName, layerName]
      by decide +kernel)
  have hnames : ([indexName, imageName].map digestOf).Nodup := by decide +kernel
  have hlist := exampleState_listing hnames
  have hreached : ∀ name ∈ [indexName, imageName],
      ManifestReachable parseExample (exampleState [indexName, imageName]) (digestOf name) :=
    fun name hname => ⟨_, (exampleState_recorded _ _).mp (List.mem_map_of_mem hname), .refl⟩
  refine ⟨st', report, hsweep, .inr ⟨digestOf imageName, hreached imageName (by simp), _,
    manifestBody_imageName, by decide +kernel⟩, ?_⟩
  refine (sweepOnce_keeps_reachable_iff hlist hsweep).mpr ?_
  rintro d name file (hreach | ⟨m, hm, v, hv, hmem⟩) _ _ _
  · refine .inl ((exampleState_recorded _ d).mp ?_)
    rcases manifestReachable_example hreach with rfl | rfl <;> simp
  · refine .inr ⟨m, ?_, ?_⟩
    · rcases manifestReachable_example hm with rfl | rfl <;> decide +kernel
    · rw [namedBy_of_body parseExample (exampleState [indexName, imageName]).storage hv]
      exact List.mem_append_left _ hmem

end Denia.Registry

/-
  Denia.Artifacts.Concurrent — concurrent acquisitions of one image.

  Nothing orders the callers of `write_bundle`, and the sidecar that would make a second caller
  keep the rootfs is written AFTER the rename that shows it.  So a caller that looks in between
  removes a rootfs that is being handed out, and one that has looked before loses the rename.
  And all callers write `layers.json.tmp` under one name.

  Main results: `concurrent_bundle_intact`, for callers that take turns at both;
  `concurrent_bundle_lost`, for others.
-/
import Denia.Artifacts.Callers

namespace Denia.Artifacts

open Lib BundlePc

variable {ε : Type} {job : BundleJob ε} {s s' : SharedBundle ε} {pc pc' q : BundlePc ε}
  {σ σ' : System (SharedBundle ε) (BundlePc ε)} {event : BundleEvent} {k i j : Nat}

/-! ## §1. The callers in order. -/

/-- **The callers are in order**: while one claims the rootfs, all others wait. -/
structure InOrder (job : BundleJob ε) (σ : System (SharedBundle ε) (BundlePc ε)) : Prop where
  kept : σ.shared.Kept job
  each : ∀ (i : Nat) pc, σ.procs[i]? = some pc → pc.Sound job σ.shared
  alone : ∀ (i j : Nat) p q, i ≠ j → σ.procs[i]? = some p → σ.procs[j]? = some q →
    p.Claims job σ.shared → q.waiting = true
  single : ∀ (i j : Nat) p q, i ≠ j → σ.procs[i]? = some p → σ.procs[j]? = some q →
    p.publishing = true → q.publishing = false

theorem claims_of_waiting (h : pc.waiting = true) : ¬ pc.Claims job s := by
  cases pc <;> simp_all [waiting, BundlePc.Claims, writing]

theorem sound_of_waiting (h : pc.waiting = true) : pc.Sound job s := by
  cases pc with
  | createDir | stat => trivial
  | _ => cases h

/-- A caller that neither waits nor claims the rootfs relies on a signed one. -/
theorem BundlePc.Sound.signed (hpc : pc.Sound job s) (hwaits : pc.waiting = false)
    (hclaims : ¬ pc.Claims job s) : s.Signed job := by
  cases pc with
  | createDir | stat => cases hwaits
  | readSidecar => exact by_contra fun hunsigned => hclaims (.inr ⟨rfl, hunsigned⟩)
  | truncateLayers => exact hpc
  | writeLayers | renameLayers => exact hpc.1
  | done result => cases result <;> simp_all [BundlePc.Sound]
  | _ => exact absurd (.inl rfl) hclaims

/-- A caller that has just looked at a rootfs it cannot keep is alone with it. -/
theorem InOrder.waits_of_looked (hσ : InOrder job σ) (hpc : σ.procs[i]? = some .stat)
    (hq : σ.procs[j]? = some q) (hturn : inTurn job σ (.move i k))
    (hunsigned : ¬ σ.shared.Signed job) : q.waiting = true := by
  have hnone := (hturn _ hpc).1 rfl j q hq
  by_contra hwaits
  exact hunsigned ((hσ.each j q hq).signed (Bool.eq_false_iff.mpr hwaits) hnone)

section Moves
variable [DecidableEq ε]

/-- While a caller claims the rootfs, whoever else moves in turn does not touch the bundle. -/
theorem InOrder.waits (hσ : InOrder job σ) (hij : j ≠ i) (hpc : σ.procs[i]? = some pc)
    (hq : σ.procs[j]? = some q) (hclaims : q.Claims job σ.shared) (hturn : inTurn job σ (.move i k))
    (h : advanceBundle job σ.shared pc k = some (s', pc')) :
    s' = σ.shared ∧ pc'.waiting = true := by
  have hwaits := hσ.alone j i q pc hij hq hpc hclaims
  cases pc with
  | createDir => cases h; exact ⟨rfl, rfl⟩
  | stat => exact absurd hclaims ((hturn _ hpc).1 rfl j q hq)
  | _ => cases hwaits

theorem inOrder_move (hσ : InOrder job σ) (hturn : inTurn job σ (.move i k))
    (hpc : σ.procs[i]? = some pc) (h : advanceBundle job σ.shared pc k = some (s', pc')) :
    InOrder job ⟨s', σ.procs.set i pc'⟩ := by
  obtain ⟨hkept, hsound⟩ := move_sound hσ.kept (hσ.each i pc hpc) h
  -- what the others keep: a caller that writes leaves only waiting ones beside it
  have hframe : ∀ (j : Nat) q, j ≠ i → σ.procs[j]? = some q →
      q.waiting = true ∨ σ.shared.SameRootfs s' := by
    intro j q hji hq
    cases hwriting : pc.writing with
    | true => exact .inl (hσ.alone i j pc q hji.symm hpc hq (.inl hwriting))
    | false => exact .inr (sameRootfs_of_not_writing h hwriting)
  have hothers : ∀ (j : Nat) q, j ≠ i → σ.procs[j]? = some q → q.Sound job s' := by
    intro j q hji hq
    rcases hframe j q hji hq with hwaits | hsame
    · exact sound_of_waiting hwaits
    · refine (hσ.each j q hq).frame hsame fun hpublishing => ?_
      rcases publishing_of_move h with (hown | htruncate) | ⟨-, htmp⟩
      · simp [hσ.single i j pc q hji.symm hpc hq hown] at hpublishing
      · simp [(hturn _ hpc).2 htruncate j q hq] at hpublishing
      · rw [htmp]
  have hpublished : pc'.publishing = true → ∀ (j : Nat) q, j ≠ i → σ.procs[j]? = some q →
      q.publishing = false := by
    intro hpublishing j q hji hq
    rcases publishing_of_move h with (hown | htruncate) | ⟨hnot, -⟩
    · exact hσ.single i j pc q hji.symm hpc hq hown
    · exact (hturn _ hpc).2 htruncate j q hq
    · simp [hnot] at hpublishing
  refine ⟨hkept, ?_, ?_, ?_⟩
  · intro j q hq
    rcases getElem?_set_cases hq with ⟨-, rfl⟩ | ⟨hji, hq⟩
    · exact hsound
    · exact hothers j q hji hq
  · intro j l p q hjl hp hq hclaims
    rcases getElem?_set_cases hp with ⟨hji, rfl⟩ | ⟨hji, hpold⟩
    · -- the caller that moved claims the rootfs
      rcases getElem?_set_cases hq with ⟨hli, -⟩ | ⟨hli, hq⟩
      · exact absurd (hji.trans hli.symm) hjl
      · rcases claims_of_move hclaims h with hbefore | ⟨rfl, hunsigned⟩
        · exact hσ.alone i l pc q hli.symm hpc hq hbefore
        · exact hσ.waits_of_looked hpc hq hturn hunsigned
    · -- another caller claims it, and did before
      have hbefore : p.Claims job σ.shared := by
        rcases hframe j p hji hpold with hwaits | hsame
        · exact absurd hclaims (claims_of_waiting hwaits)
        · exact hsame.claims.mp hclaims
      rcases getElem?_set_cases hq with ⟨-, rfl⟩ | ⟨-, hq⟩
      · exact (hσ.waits hji hpc hpold hbefore hturn h).2
      · exact hσ.alone j l p q hjl hpold hq hbefore
  · intro j l p q hjl hp hq hpublishing
    rcases getElem?_set_cases hp with ⟨hji, rfl⟩ | ⟨hji, hpold⟩
    · rcases getElem?_set_cases hq with ⟨hli, -⟩ | ⟨hli, hq⟩
      · exact absurd (hji.trans hli.symm) hjl
      · exact hpublished hpublishing l q hli hq
    · rcases getElem?_set_cases hq with ⟨-, rfl⟩ | ⟨-, hq⟩
      · by_contra hboth
        simp [hpublished (Bool.eq_true_of_not_eq_false hboth) j p hji hpold] at hpublishing
      · exact hσ.single j l p q hjl hpold hq hpublishing

theorem inOrder_step (hσ : InOrder job σ) (hturn : inTurn job σ event)
    (h : (bundleCalls job).step σ event = some σ') : InOrder job σ' := by
  cases event with
  | spawn =>
    cases h
    refine ⟨hσ.kept, ?_, ?_, ?_⟩
    · intro j q hq
      rcases getElem?_concat_cases hq with hq | ⟨-, rfl⟩
      · exact hσ.each j q hq
      · trivial
    · intro j l p q hjl hp hq hclaims
      rcases getElem?_concat_cases hq with hq | ⟨-, rfl⟩
      · rcases getElem?_concat_cases hp with hp | ⟨-, rfl⟩
        · exact hσ.alone j l p q hjl hp hq hclaims
        · exact absurd hclaims (claims_of_waiting rfl)
      · rfl
    · intro j l p q hjl hp hq hpublishing
      rcases getElem?_concat_cases hq with hq | ⟨-, rfl⟩
      · rcases getElem?_concat_cases hp with hp | ⟨-, rfl⟩
        · exact hσ.single j l p q hjl hp hq hpublishing
        · cases hpublishing
      · rfl
  | move =>
    obtain ⟨pc, s', pc', hpc, hadvance, rfl⟩ := Program.step_move h
    exact inOrder_move hσ hturn hpc hadvance
  | outer e => exact nomatch e

end Moves

/-! ## §2. Every call returns. -/

/-- The entries at `rootfs`. -/
def SharedBundle.size (s : SharedBundle ε) : Nat :=
  match s.rootfs with
  | .dir d => d.entries.length
  | _ => 0

/-- A bound on the entries that a caller can come upon. -/
def SharedBundle.bound (job : BundleJob ε) (s : SharedBundle ε) : Nat :=
  max s.size job.image.length

/-- The steps a caller still has to make, at most. -/
def BundlePc.rank (job : BundleJob ε) (s : SharedBundle ε) : BundlePc ε → Nat
  | .createDir => 19 + job.image.length + 2 * s.bound job
  | .stat => 18 + job.image.length + 2 * s.bound job
  | .readSidecar => 17 + job.image.length + 2 * s.bound job
  | .reclaimList => 16 + job.image.length + 2 * s.bound job
  | .reclaim todo => 15 + job.image.length + s.bound job + todo.length
  | .openRootfs => 14 + job.image.length + s.bound job
  | .unlinkEntries _ => 13 + job.image.length + s.size
  | .rmdir => 12 + job.image.length
  | .mkStaged => 11 + job.image.length
  | .unpack _ _ todo => 10 + todo.length
  | .setPermissions _ => 9
  | .lchown _ => 8
  | .rename _ => 7
  | .removeStaged _ => 6
  | .truncateSidecar => 5
  | .writeSidecar => 4
  | .truncateLayers => 3
  | .writeLayers _ => 2
  | .renameLayers => 1
  | .done _ => 0

theorem SharedBundle.size_eq {d : Dir ε} (h : s.rootfs = .dir d) : s.size = d.entries.length := by
  unfold SharedBundle.size
  rw [h]

theorem SharedBundle.SameRootfs.size (h : s.SameRootfs s') : s'.size = s.size := by
  unfold SharedBundle.size
  rw [h.1]

section Ranks
variable [DecidableEq ε]

section OneMove
variable (hpc : pc.Sound job s) (h : advanceBundle job s pc k = some (s', pc'))
include hpc h

/-- What a step does to the size of the rootfs: it stays, shrinks, or is that of the image. -/
theorem size_of_move : s'.size ≤ s.size ∨ s'.size = job.image.length := by
  cases hwriting : pc.writing with
  | false => exact .inl (le_of_eq (sameRootfs_of_not_writing h hwriting).size)
  | true =>
    cases pc with
    | rename =>
      obtain ⟨habsent, hstaged⟩ := hpc
      simp only [advanceBundle, habsent, renameDir] at h
      cases h
      exact .inr (congrArg List.length hstaged)
    | unlinkEntries =>
      obtain ⟨⟨d, hdir, -⟩, -⟩ := hpc
      simp only [advanceBundle] at h
      split at h <;> cases h
      · exact .inl (le_refl _)
      · left
        unfold SharedBundle.unlinkEntry
        rw [SharedBundle.size_eq hdir, hdir]
        exact List.length_eraseIdx_le _ _
    | removeStaged => exact hpc.elim
    | reclaim todo | unpack _ _ todo => cases todo <;> grind [advanceBundle]
    | _ => grind [advanceBundle, SharedBundle.size, writing]

theorem bound_of_move : s'.bound job ≤ s.bound job := by
  unfold SharedBundle.bound
  rcases size_of_move hpc h with hsize | hsize <;> omega

/-- **A step of a caller brings it nearer to its return.** -/
theorem rank_of_move : pc'.rank job s' < pc.rank job s := by
  have hsize : s.size ≤ s.bound job := Nat.le_max_left _ _
  cases pc with
  | unlinkEntries =>
    obtain ⟨⟨d, hdir, -⟩, -⟩ := hpc
    simp only [advanceBundle] at h
    split at h <;> cases h
    · simp only [rank]
      omega
    next hleft =>
      -- one of the entries that are left goes
      rw [hdir] at hleft
      have hne : d.entries ≠ [] := fun hempty => hleft (decide_eq_true (.inr hempty))
      have hpos := List.length_pos_of_ne_nil hne
      have hlt := Nat.mod_lt k hpos
      have hsmaller : (s.unlinkEntry k).size = d.entries.length - 1 := by
        unfold SharedBundle.unlinkEntry
        rw [hdir]
        exact List.length_eraseIdx_of_lt hlt
      simp only [rank, hsmaller, SharedBundle.size_eq hdir]
      omega
  | removeStaged => exact hpc.elim
  | reclaim todo | unpack _ _ todo =>
    cases todo <;> grind [advanceBundle, rank, BundlePc.Sound]
  | _ =>
    grind [advanceBundle, rank, BundlePc.Sound, SharedBundle.size_eq, renameDir]

end OneMove

/-- A caller that has not returned can move. -/
theorem advances_of_not_done (job : BundleJob ε) (s : SharedBundle ε) {pc : BundlePc ε}
    (hpc : ∀ r, pc ≠ .done r) : ∃ s' pc', advanceBundle job s pc 0 = some (s', pc') := by
  unfold advanceBundle
  repeat' split
  all_goals first | exact ⟨_, _, rfl⟩ | exact absurd rfl (hpc _)

/-- The steps all callers together still have to make, at most. -/
def totalRank (job : BundleJob ε) (σ : System (SharedBundle ε) (BundlePc ε)) : Nat :=
  (σ.procs.map (rank job σ.shared)).sum

/-- A caller's rank does not grow by what others do. -/
theorem rank_frame (hσ : InOrder job σ) (hturn : inTurn job σ (.move i k))
    (hpc : σ.procs[i]? = some pc) (h : advanceBundle job σ.shared pc k = some (s', pc'))
    (hji : j ≠ i) (hq : σ.procs[j]? = some q) : q.rank job s' ≤ q.rank job σ.shared := by
  have hbound := bound_of_move (hσ.each i pc hpc) h
  cases hwriting : q.writing with
  | true =>
    rw [(hσ.waits hji hpc hq (.inl hwriting) hturn h).1]
  | false =>
    cases q with
    | createDir | stat | readSidecar =>
      simp only [rank]
      omega
    | truncateLayers | writeLayers | renameLayers | done => exact le_refl _
    | _ => cases hwriting

omit [DecidableEq ε] in
/-- As long as a call has not returned, some caller's turn has come. -/
theorem exists_inTurn (job : BundleJob ε)
    (hleft : ∃ (i : Nat) (pc : BundlePc ε), σ.procs[i]? = some pc ∧ ∀ r, pc ≠ .done r) :
    ∃ (i : Nat) (pc : BundlePc ε), σ.procs[i]? = some pc ∧ (∀ r, pc ≠ .done r) ∧
      inTurn job σ (.move i 0) := by
  -- first whoever claims the rootfs, then whoever has `layers.json.tmp`, then anyone
  by_cases hclaims : ∃ (i : Nat) (pc : BundlePc ε), σ.procs[i]? = some pc ∧ pc.Claims job σ.shared
  · obtain ⟨i, pc, hpc, hclaims⟩ := hclaims
    refine ⟨i, pc, hpc, ?_, fun pc' hpc' => ⟨?_, ?_⟩⟩
    · rintro r rfl
      rcases hclaims with hclaims | ⟨hclaims, -⟩ <;> cases hclaims
    all_goals
      rintro rfl
      cases hpc.symm.trans hpc'
      rcases hclaims with hclaims | ⟨hclaims, -⟩ <;> cases hclaims
  by_cases hpublishing : ∃ (i : Nat) (pc : BundlePc ε), σ.procs[i]? = some pc ∧ pc.publishing = true
  · obtain ⟨i, pc, hpc, hpublishing⟩ := hpublishing
    refine ⟨i, pc, hpc, ?_, fun pc' hpc' => ⟨?_, ?_⟩⟩
    · rintro r rfl
      cases hpublishing
    all_goals
      rintro rfl
      cases hpc.symm.trans hpc'
      cases hpublishing
  · obtain ⟨i, pc, hpc, hnot⟩ := hleft
    refine ⟨i, pc, hpc, hnot, fun _ _ => ⟨fun _ j q hq hq' => hclaims ⟨j, q, hq, hq'⟩, ?_⟩⟩
    intro _ j q hq
    exact Bool.eq_false_iff.mpr fun hq' => hpublishing ⟨j, q, hq, hq'⟩

theorem totalRank_of_move (hσ : InOrder job σ) (hturn : inTurn job σ (.move i k))
    (hpc : σ.procs[i]? = some pc) (h : advanceBundle job σ.shared pc k = some (s', pc')) :
    totalRank job ⟨s', σ.procs.set i pc'⟩ < totalRank job σ :=
  sum_map_set_lt hpc (rank_of_move (hσ.each i pc hpc) h) fun _ _ hji hq =>
    rank_frame hσ hturn hpc h hji hq

/-- **Every call can return, and returns `Ok`.** -/
theorem InOrder.all_return (hσ : InOrder job σ) :
    ∃ rest σ', Guarded (bundleCalls job).step (inTurn job) σ rest ∧
      exec (bundleCalls job).step σ rest = some σ' ∧ σ'.procs.length = σ.procs.length ∧
      ∀ (i : Nat) pc, σ'.procs[i]? = some pc → pc = .done (.ok ()) := by
  induction hrank : totalRank job σ using Nat.strongRecOn generalizing σ with
  | ind n ih =>
    subst hrank
    by_cases hleft : ∃ (i : Nat) (pc : BundlePc ε), σ.procs[i]? = some pc ∧ ∀ r, pc ≠ .done r
    · obtain ⟨i, pc, hpc, hnot, hturn⟩ := exists_inTurn job hleft
      obtain ⟨s', pc', hadvance⟩ := advances_of_not_done job σ.shared hnot
      have hstep : (bundleCalls job).step σ (.move i 0) = some ⟨s', σ.procs.set i pc'⟩ := by
        simp only [Program.step, hpc]
        rw [show (bundleCalls job).advance σ.shared pc 0 = some (s', pc') from hadvance]
      obtain ⟨rest, σ', hguard, hexec, hlength, hall⟩ :=
        ih _ (totalRank_of_move hσ hturn hpc hadvance) (inOrder_move hσ hturn hpc hadvance) rfl
      refine ⟨.move i 0 :: rest, σ', ⟨hturn, ?_⟩, ?_, ?_, hall⟩
      · intro σ1 hσ1
        cases hstep.symm.trans hσ1
        exact hguard
      · exact (exec_cons_of_eq hstep rest).trans hexec
      · exact hlength.trans List.length_set
    · refine ⟨[], σ, trivial, rfl, rfl, fun i pc hpc => ?_⟩
      by_contra hne
      refine hleft ⟨i, pc, hpc, ?_⟩
      rintro r rfl
      cases r with
      | error => exact hσ.each i _ hpc
      | ok => exact hne rfl

/-- **The bundle stays intact as long as the callers take turns.**  From a bundle whose rootfs,
if it is signed, is complete: no call fails; from the first return on the rootfs is there and
complete; and every call can return. -/
theorem concurrent_bundle_intact {s0 : SharedBundle ε} {events : List BundleEvent}
    (hs0 : s0.Kept job) (hturn : Guarded (bundleCalls job).step (inTurn job) ⟨s0, []⟩ events)
    (h : exec (bundleCalls job).step ⟨s0, []⟩ events = some σ) :
    (∀ (i : Nat) e, σ.procs[i]? ≠ some (.done (.error e))) ∧
      ((∃ i : Nat, σ.procs[i]? = some (.done (.ok ()))) → σ.shared.Complete job) ∧
      ∃ rest σ', Guarded (bundleCalls job).step (inTurn job) σ rest ∧
        exec (bundleCalls job).step σ rest = some σ' ∧ σ'.procs.length = σ.procs.length ∧
        ∀ (i : Nat) pc, σ'.procs[i]? = some pc → pc = .done (.ok ()) := by
  have hstart : InOrder job ⟨s0, []⟩ := by
    refine ⟨hs0, ?_, ?_, ?_⟩ <;> simp
  have hσ := exec_invariant (InOrder job) (fun _ _ _ hσ => inOrder_step hσ) hstart hturn h
  refine ⟨fun i e => hσ.each i _, ?_, hσ.all_return⟩
  rintro ⟨i, hdone⟩
  exact hσ.kept.2 (hσ.each i _ hdone)

end Ranks

/-! ## §3. Two callers. -/

/-- An image of one entry. -/
def paperJob : BundleJob Nat :=
  ⟨⟨rootfsOwnershipVersion, 100000, 65536⟩, false, "/srv/artifacts/b/rootfs", [7], ["sha256:e0"]⟩

/-- A new bundle directory. -/
def newBundle : SharedBundle Nat := ⟨.absent, .missing, none, none, 0⟩

/-- A bundle that was acquired before. -/
def readyBundle : SharedBundle Nat :=
  ⟨.dir ⟨0, [7]⟩, .holds paperJob.ownership, none, some ⟨1, some ["sha256:e0"]⟩, 2⟩

/-- Whether the call has returned, and with which error. -/
def BundlePc.result {ε : Type} : BundlePc ε → Option (Option IoError)
  | .done (.ok _) => some none
  | .done (.error e) => some (some e)
  | _ => none

/-- What callers have returned, and the entries of the rootfs. -/
def bundleOutcome (s : SharedBundle Nat) (events : List BundleEvent) :
    Option (List (Option (Option IoError)) × Rootfs (List Nat)) :=
  (exec (bundleCalls paperJob).step ⟨s, []⟩ events).map fun σ =>
    (σ.procs.map result, σ.shared.rootfs.entries)

/-- A caller makes its next calls. -/
def calls (i n : Nat) : List BundleEvent := List.replicate n (.move i 0)

/-- **A bundle is lost.**  Of two callers that find no rootfs, the second to rename fails; a
caller that looks between the rename and the sidecar of another empties the rootfs that the
other has returned; and of two callers that write `layers.json.tmp`, the second to rename finds
it gone. -/
theorem concurrent_bundle_lost :
    bundleOutcome newBundle ([.spawn (), .spawn ()] ++ calls 0 6 ++ calls 1 6 ++ calls 0 1 ++
      calls 1 2) = some ([none, some (some (Errno.toIo .notempty))], .dir [7]) ∧
    bundleOutcome newBundle ([.spawn (), .spawn ()] ++ calls 0 7 ++ calls 1 4 ++ calls 0 5) =
      some ([some none, none], .dir [7]) ∧
    bundleOutcome newBundle ([.spawn (), .spawn ()] ++ calls 0 7 ++ calls 1 4 ++ calls 0 5 ++
      calls 1 1) = some ([some none, none], .dir []) ∧
    bundleOutcome readyBundle ([.spawn (), .spawn ()] ++ calls 0 3 ++ calls 1 3 ++ calls 0 1 ++
      calls 1 1 ++ calls 0 2 ++ calls 1 2) =
      some ([some none, some (some notFound)], .dir [7]) := by
  refine ⟨?_, ?_, ?_, ?_⟩
  all_goals decide +kernel

/-- The rootfs is there and its sidecar matches, as a test. -/
def testSigned (s : SharedBundle Nat) : Bool :=
  match s.rootfs with
  | .dir _ => s.sidecarMatches paperJob
  | _ => false

/-- The condition on a step, as a test. -/
def testTurn (σ : System (SharedBundle Nat) (BundlePc Nat)) : BundleEvent → Bool
  | .move i _ =>
      match σ.procs[i]? with
      | some .stat => σ.procs.all fun q => !q.writing && testSigned σ.shared
          || q.waiting || q.result.isSome
      | some .truncateLayers => σ.procs.all fun q => !q.publishing
      | _ => true
  | _ => true

theorem signed_of_test {s : SharedBundle Nat} (h : testSigned s = true) : s.Signed paperJob := by
  unfold testSigned at h
  split at h
  next d hdir => exact ⟨⟨d, hdir⟩, of_decide_eq_true h⟩
  next => cases h

theorem inTurn_of_test {σ : System (SharedBundle Nat) (BundlePc Nat)}
    (h : testTurn σ event = true) :
    inTurn paperJob σ event := by
  cases event with
  | spawn | outer => trivial
  | move =>
    intro pc hpc
    rw [testTurn, hpc] at h
    constructor
    · rintro rfl j q hq hclaims
      have htest := List.all_eq_true.mp h q (List.mem_of_getElem? hq)
      rw [Bool.or_eq_true, Bool.or_eq_true, Bool.and_eq_true, Bool.not_eq_true'] at htest
      rcases htest with (⟨hreads, hsigned⟩ | hwaits) | hdone
      · rcases hclaims with hwriting | ⟨-, hunsigned⟩
        · simp [hreads] at hwriting
        · exact hunsigned (signed_of_test hsigned)
      · exact claims_of_waiting hwaits hclaims
      · cases q with
        | done => rcases hclaims with hclaims | ⟨hclaims, -⟩ <;> cases hclaims
        | _ => cases hdone
    · rintro rfl j q hq
      have htest := List.all_eq_true.mp h q (List.mem_of_getElem? hq)
      exact (Bool.not_eq_true' _).mp htest

/-- Two callers that take turns: the first unpacks, the second keeps what it finds. -/
theorem concurrent_bundle_intact_in_turn : newBundle.Kept paperJob ∧
      ∃ σ, exec (bundleCalls paperJob).step ⟨newBundle, []⟩
          ([.spawn (), .spawn ()] ++ calls 0 9 ++ calls 1 3 ++ calls 0 3 ++ calls 1 3) = some σ ∧
        σ.procs.map result = [some none, some none] ∧ σ.shared.Complete paperJob := by
  have hkept : newBundle.Kept paperJob := ⟨nofun, nofun⟩
  refine ⟨hkept, exists_run (fun σ => σ.procs.map result = [some none, some none])
    (by decide +kernel) fun σ hexec hresults => ⟨hresults, ?_⟩⟩
  have hcheck : ∀ σ event, testTurn σ event = true → inTurn paperJob σ event :=
    fun _ _ => inTurn_of_test
  obtain ⟨-, hcomplete, -⟩ :=
    concurrent_bundle_intact hkept (guarded_of_checked hcheck (by decide +kernel)) hexec
  refine hcomplete ⟨0, ?_⟩
  have hfirst := congrArg (·[0]?) hresults
  rw [List.getElem?_map] at hfirst
  obtain ⟨pc, hpc, hdone⟩ := Option.map_eq_some_iff.mp hfirst
  rw [hpc]
  unfold result at hdone
  split at hdone <;> cases hdone
  rfl

end Denia.Artifacts

/-
  Denia.Oci.Reservations — what the counts and the lock of the layer cache are good for.

  The reservations are one map, bumped and lowered by pulls under a mutex; the lock is
  held by a sweep from its listing to its last deletion.

  Main results: `counted_step`, a count is the number of reservations held; `locked_keeps`,
  one sweep has the lock, and what it deletes is not reserved.
-/
import Denia.Oci.Cache

namespace Denia.Oci

open Lib CacheProc
open Registry (digestOf)

/-! ## §1. Reservations are counted. -/

/-- How often a process has a digest reserved. -/
def CacheProc.reserved (digest : String) : CacheProc → Nat
  | .pull p => p.held.count digest + if p.pc.current = some digest then 1 else 0
  | .sweep _ => 0

/-- How many reservations it adds. -/
def Effect.reserves (digest : String) : Effect → Nat
  | .reserve x => if x = digest then 1 else 0
  | _ => 0

/-- How many it takes back. -/
def Effect.releases (digest : String) : Effect → Nat
  | .release x => if x = digest then 1 else 0
  | _ => 0

theorem reservationCount_reserve (c : Cache) (x digest : String) :
    (c.reserve x).reservationCount digest
      = c.reservationCount digest + if x = digest then 1 else 0 := by
  unfold Cache.reserve Cache.reservationCount
  by_cases h : x = digest
  · subst h
    simp only [AList.lookup_insert, if_true]
  · rw [AList.lookup_insert_ne (fun heq => h heq.symm), if_neg h]
    rfl

theorem reservationCount_release (c : Cache) (x digest : String) :
    (c.release x).reservationCount digest
      = c.reservationCount digest - if x = digest then 1 else 0 := by
  unfold Cache.release
  by_cases h : x = digest
  · subst h
    rw [if_pos rfl]
    split
    next hnone => simp [Cache.reservationCount, hnone]
    next n hn =>
      split
      next hzero => simp [Cache.reservationCount, hn, hzero]
      next => simp [Cache.reservationCount, hn]
  · rw [if_neg h]
    have hne : digest ≠ x := fun heq => h heq.symm
    split
    next => rfl
    next n hn =>
      split <;> simp [Cache.reservationCount, AList.lookup_erase_ne hne,
        AList.lookup_insert_ne hne]

theorem reservationCount_apply (c : Cache) (effect : Effect) (digest : String) :
    (c.apply effect).reservationCount digest
      = c.reservationCount digest + effect.reserves digest - effect.releases digest := by
  cases effect with
  | reserve x => exact reservationCount_reserve c x digest
  | release x => exact reservationCount_release c x digest
  | _ => rfl

theorem reserved_obtain (p : Pull) (layer : Layer) (digest : String) :
    reserved digest (.pull (p.obtain layer))
      = p.held.count digest + if layer.desc.digest = digest then 1 else 0 := by
  unfold Pull.obtain Pull.nextLayer
  split <;> simp [reserved, Pull.goTo, PullPc.current, List.count_singleton]

variable {digest : String} {cfg : CacheConfig} {c c' : Cache} {p : CacheProc}
  {σ : System Cache CacheProc}

/-- A pull that stays at its layer, and holds what it held. -/
theorem reserved_goTo {p : Pull} {pc : PullPc} (hcurrent : pc.current = p.pc.current) :
    reserved digest (.pull (p.goTo pc)) = reserved digest (.pull p) := by
  simp only [reserved, Pull.goTo, hcurrent]

/-- **Every step moves what its process has reserved as it moves the reservations.** -/
theorem reserved_move {p' : CacheProc} {effect : Effect} (h : CacheMove cfg c p effect p')
    (digest : String) :
    p'.reserved digest + effect.releases digest = p.reserved digest + effect.reserves digest := by
  cases h with
  | sweep h => cases h <;> rfl
  | pull h =>
    cases h with
    | reserve desc hpc =>
      simp [reserved, hpc, PullPc.current, Effect.reserves, Effect.releases, Pull.goTo]
    | goes pc' hcurrent => exact reserved_goTo hcurrent
    | found layer hcurrent | mismatch layer hcurrent => exact reserved_goTo hcurrent.symm
    | hit layer hpc | renamed layer id hpc =>
      rw [reserved_obtain]
      simp [reserved, hpc, PullPc.current, Effect.reserves, Effect.releases]
    | released x hpc =>
      simp [reserved, hpc, PullPc.current, Effect.reserves, Effect.releases, Pull.goTo]
    | releasedHeld x held hpc hheld =>
      simp [reserved, hpc, hheld, PullPc.current, Effect.reserves, Effect.releases, List.count_cons]
    | opened _ _ hpc | removed _ hpc | cleaned _ hpc | created _ hpc | streamed _ _ _ _ hpc
    | gaveUp _ _ _ hpc | dropped _ _ hpc | synced _ _ hpc | touched _ _ hpc =>
      exact reserved_goTo (by rw [hpc]; rfl)

/-- The count of every digest is what the processes have reserved. -/
def Counted (σ : System Cache CacheProc) : Prop :=
  ∀ digest, σ.shared.reservationCount digest = (σ.procs.map (reserved digest)).sum

theorem reserved_start (request : CacheRequest) (digest : String) :
    reserved digest (.start request) = 0 := by
  cases request with
  | sweep => rfl
  | pull layers =>
    cases layers <;> rfl

/-- **Reservations are counted**, in every step. -/
theorem counted_step {σ' : System Cache CacheProc} {event : Event CacheRequest CacheReply Empty}
    (hσ : Counted σ) (h : (cacheProgram cfg).step σ event = some σ') : Counted σ' := by
  intro digest
  refine Program.tally_step (g := fun c => c.reservationCount digest)
    (fun request => reserved_start request digest) nofun ?_ (hσ digest) h
  intro c p reply c' p' hle hadvance
  obtain ⟨effect, hmove, rfl⟩ := advance_move hadvance
  have hreserved := reserved_move hmove digest
  show (c.apply effect).reservationCount digest + _ = _
  rw [reservationCount_apply]
  omega

theorem reserved_pos_of_current {p : Pull} (h : p.pc.current = some digest) :
    0 < reserved digest (.pull p) := by
  simp [reserved, h]

theorem reserved_pos_of_held {p : Pull} (h : digest ∈ p.held) :
    0 < reserved digest (.pull p) :=
  Nat.lt_of_lt_of_le (List.count_pos_iff.mpr h) (Nat.le_add_right _ _)

/-- What no reservation is counted for, nobody has reserved. -/
theorem Counted.reserved_eq_zero (hσ : Counted σ) (hzero : σ.shared.reservationCount digest = 0)
    {i : Nat} (hp : σ.procs[i]? = some p) : p.reserved digest = 0 := by
  rw [hσ digest, List.sum_eq_zero_iff] at hzero
  exact hzero _ (List.mem_map_of_mem (List.mem_of_getElem? hp))

/-! ## §2. The lock. -/

/-- Inside the lock. -/
def CacheProc.inLock : CacheProc → Bool
  | .pull _ => false
  | .sweep s => s.inLock

/-- What it is about to remove. -/
def CacheProc.doomed : CacheProc → Option String
  | .pull _ => none
  | .sweep s => s.doomed

theorem inLock_of_doomed {name : String} (h : p.doomed = some name) : p.inLock = true := by
  cases p with
  | pull => cases h
  | sweep s =>
    cases s with
    | age | stat | removeBlob => rfl
    | _ => cases h

/-- A sweep past the lock has it, and what it is about to delete is not reserved. -/
structure LockSafe (c : Cache) (p : CacheProc) : Prop where
  locked : p.inLock = true → c.gcLocked = true
  unreserved : ∀ name, p.doomed = some name → c.reservationCount (digestOf name) = 0

/-- Not two sweeps have the lock. -/
def LockApart (p q : CacheProc) : Prop := ¬(p.inLock = true ∧ q.inLock = true)

theorem LockSafe.of_not_inLock (h : p.inLock ≠ true) : LockSafe c p where
  locked hlock := absurd hlock h
  unreserved _ hdoomed := absurd (inLock_of_doomed hdoomed) h

/-- A step that leaves the lock, and reserves nothing while it is taken. -/
theorem LockSafe.mono (h : LockSafe c p) (hlock : c'.gcLocked = c.gcLocked)
    (hcount : c.gcLocked = true →
      ∀ digest, c'.reservationCount digest ≤ c.reservationCount digest) : LockSafe c' p where
  locked hin := hlock.trans (h.locked hin)
  unreserved name hdoomed := by
    have hle := hcount (h.locked (inLock_of_doomed hdoomed)) (digestOf name)
    rw [h.unreserved name hdoomed] at hle
    exact Nat.le_zero.mp hle

/-- A pull leaves the lock as it is, and reserves only while nobody has it. -/
theorem pullMove_lock {p p' : Pull} {effect : Effect} (h : PullMove cfg c p effect p') :
    (c.apply effect).gcLocked = c.gcLocked ∧ (c.gcLocked = true → ∀ digest,
      (c.apply effect).reservationCount digest ≤ c.reservationCount digest) := by
  have hrelease : ∀ x, (c.release x).gcLocked = c.gcLocked := by
    intro x
    unfold Cache.release
    split
    · rfl
    · split <;> rfl
  cases h with
  | reserve desc hpc hfree =>
    refine ⟨rfl, fun hlocked => ?_⟩
    simp [hfree] at hlocked
  | released x | releasedHeld x =>
    refine ⟨hrelease x, fun _ digest => ?_⟩
    show (c.release x).reservationCount digest ≤ _
    rw [reservationCount_release]
    exact Nat.sub_le _ _
  | _ => exact ⟨rfl, fun _ _ => Nat.le_refl _⟩

/-- What a step of a sweep owes the others, unless it takes the lock or gives it back. -/
theorem sweep_locked {i : Nat} {s s' : SweepPc} (hσ : σ.Holds (fun _ => True) LockSafe LockApart)
    (hp : σ.procs[i]? = some (.sweep s)) (hlock : c'.gcLocked = σ.shared.gcLocked)
    (hcount : ∀ digest, c'.reservationCount digest = σ.shared.reservationCount digest)
    (hin : s'.inLock = true → s.inLock = true)
    (hdoomed : ∀ name, s'.doomed = some name → σ.shared.reservationCount (digestOf name) = 0) :
    LockSafe c' (.sweep s') ∧ ∀ (j : Nat) q, j ≠ i → σ.procs[j]? = some q →
      LockSafe c' q ∧ LockApart (.sweep s') q := by
  refine ⟨⟨fun h => hlock.trans ((hσ.each i _ hp).locked (hin h)), fun name h => ?_⟩, ?_⟩
  · rw [hcount]
    exact hdoomed name h
  · intro j q hj hq
    refine ⟨(hσ.each j q hq).mono hlock fun _ digest => Nat.le_of_eq (hcount digest), ?_⟩
    exact fun hboth => hσ.apart i j _ q hj.symm hp hq ⟨hin hboth.1, hboth.2⟩

/-- **One sweep at a time has the lock, and what it is about to delete is not reserved**,
in every interleaving. -/
theorem locked_keeps (cfg : CacheConfig) :
    (cacheProgram cfg).Keeps (fun _ _ => True) (fun _ => True) LockSafe LockApart where
  symm p q h := fun hboth => h ⟨hboth.2, hboth.1⟩
  start_each c r _ := by
    cases r with
    | pull => exact .of_not_inLock nofun
    | sweep => exact .of_not_inLock nofun
  start_apart r q := by
    cases r with
    | pull => exact fun h => nomatch h.1
    | sweep => exact fun h => nomatch h.1
  outer σ e := nomatch e
  move σ i p reply c' p' hσ _ hp hadvance := by
    refine ⟨trivial, ?_⟩
    obtain ⟨effect, hmove, rfl⟩ := advance_move hadvance
    cases hmove with
    | pull hpull =>
      obtain ⟨hlock, hcount⟩ := pullMove_lock hpull
      exact ⟨.of_not_inLock nofun, fun j q _ hq =>
        ⟨(hσ.each j q hq).mono hlock hcount, fun h => nomatch h.1⟩⟩
    | @sweep s s' _ hsweep =>
      have hL := hσ.each i _ hp
      -- a sweep that has no entry in hand owes no count
      have hno : s'.doomed = none → ∀ name, s'.doomed = some name →
          σ.shared.reservationCount (digestOf name) = 0 := by
        intro hnone name hname
        simp [hnone] at hname
      cases hsweep with
      | locks hfree hlock' hdoomed' =>
        have hout : ∀ (j : Nat) q, σ.procs[j]? = some q → q.inLock ≠ true := by
          intro j q hq hin
          have hlocked := (hσ.each j q hq).locked hin
          simp [hfree] at hlocked
        refine ⟨⟨fun _ => rfl, hno hdoomed'⟩, fun j q _ hq => ⟨?_, ?_⟩⟩
        · exact .of_not_inLock (hout j q hq)
        · exact fun hboth => hout j q hq hboth.2
      | unlocks hlock hlock' =>
        have hout' : (sweep s').inLock ≠ true := by
          show s'.inLock ≠ true
          rw [hlock']
          nofun
        refine ⟨.of_not_inLock hout', fun j q hj hq => ⟨?_, fun hboth => hout' hboth.1⟩⟩
        exact .of_not_inLock fun hin => hσ.apart i j _ q hj.symm hp hq ⟨hlock, hin⟩
      | dooms name hzero hlock hdoomed' =>
        refine sweep_locked hσ hp rfl (fun _ => rfl) (fun _ => hlock) fun name' hname' => ?_
        rw [hdoomed'] at hname'
        injection hname' with hname'
        rwa [← hname']
      | goes hlock hdoomed' =>
        exact sweep_locked hσ hp rfl (fun _ => rfl) hlock fun name hname =>
          hL.unreserved name (hdoomed' name hname)
      | removesBlob name hdoomed hlock hdoomed' =>
        exact sweep_locked hσ hp rfl (fun _ => rfl) (fun _ => hlock) (hno hdoomed')
      | removesLastref hex hlock hdoomed' =>
        exact sweep_locked hσ hp rfl (fun _ => rfl) (fun _ => hlock) (hno hdoomed')

end Denia.Oci

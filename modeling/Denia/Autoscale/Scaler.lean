/-
  Denia.Autoscale.Scaler — the metric arithmetic of the control loop
  (`src/autoscale/scaler.rs`).  Products are taken in `u64`, where they cannot
  overflow; the quotient is cast to `u32`, which truncates.
-/
import Denia.Domain

namespace Denia.Autoscale

/-- `ServiceUsage`, past the fields the controller does not read. -/
structure ServiceUsage where
  avgCpuPct : Nat
  avgMemPct : Nat
  liveReadings : Nat

/-- `ceil_div`. -/
def ceilDiv (a b : Nat) : Nat := (a + (max b 1 - 1)) / max b 1

/-- `x as u32`. -/
def asU32 (x : Nat) : Nat := x % 2 ^ 32

/-- `desired_up`: the larger of the cpu-driven and the memory-driven count, never
below the current one. -/
def desiredUp (current cpuPct targetCpu : Nat) (memPct targetMem : Option Nat) : Nat :=
  let c := asU32 (ceilDiv (current * cpuPct) targetCpu)
  let m := match memPct, targetMem with
    | some mp, some tm => asU32 (ceilDiv (current * mp) tm)
    | _, _ => 0
  max (max c m) current

/-- `desired_down`: cpu only. -/
def desiredDown (current cpuPct targetCpu : Nat) : Nat :=
  asU32 (ceilDiv (current * cpuPct) targetCpu)

/-- `Ord::clamp`, for bounds in order. -/
def clamp (x lo hi : Nat) : Nat := if x < lo then lo else if hi < x then hi else x

/-- `clamp_loop`: the loop's floor is one replica. -/
def clampLoop (desired min max : Nat) : Nat := clamp desired (Nat.max min 1) max

/-- What the loop clamps to is within the bounds of the policy. -/
theorem clampLoop_bounds (policy : AutoscalePolicy) (desired : Nat) :
    policy.minReplicas ≤ clampLoop desired policy.minReplicas policy.maxReplicas ∧
      clampLoop desired policy.minReplicas policy.maxReplicas ≤ policy.maxReplicas := by
  obtain ⟨hone, hle⟩ := policy.replica_bounds
  have hfloor : Nat.max policy.minReplicas 1 ≤ policy.maxReplicas := Nat.max_le.mpr ⟨hle, hone⟩
  have hmin : policy.minReplicas ≤ Nat.max policy.minReplicas 1 := Nat.le_max_left _ _
  unfold clampLoop clamp
  split
  · omega
  · split <;> omega

/-- `CooldownState`. -/
structure CooldownState where
  belowSince : Option Nat

namespace CooldownState

/-- `CooldownState::default`. -/
def default : CooldownState := { belowSince := none }

/-- `note_above_target`. -/
def noteAboveTarget (_cd : CooldownState) (_nowS : Nat) : CooldownState := { belowSince := none }

/-- `scale_down_allowed`. -/
def scaleDownAllowed (cd : CooldownState) (nowS cooldownS : Nat) : CooldownState × Bool :=
  match cd.belowSince with
  | none => ({ belowSince := some nowS }, false)
  | some start => (cd, decide (cooldownS ≤ nowS - start))

end CooldownState

end Denia.Autoscale

/-
  Denia.Autoscale.Ledger — the host resource ledger (`src/autoscale/ledger.rs`).

  The ledger only ever grows through the check in `try_reserve`, so a commitment
  within the allocatable amount is part of the type.
-/
import Denia.Domain

namespace Denia.Autoscale

/-- What the host has. -/
structure HostCapacity where
  cpuMillis : Nat
  memBytes : Nat

/-- What is kept back for the host itself. -/
structure Headroom where
  cpuMillis : Nat
  memBytes : Nat

/-- What is committed to replicas, within what is allocatable. -/
structure ResourceLedger where
  committedCpu : Nat
  committedMem : Nat
  allocatableCpu : Nat
  allocatableMem : Nat
  cpu_le : committedCpu ≤ allocatableCpu
  mem_le : committedMem ≤ allocatableMem

namespace ResourceLedger

/-- `ResourceLedger::new`. -/
def new (host : HostCapacity) (headroom : Headroom) : ResourceLedger where
  committedCpu := 0
  committedMem := 0
  allocatableCpu := host.cpuMillis - headroom.cpuMillis
  allocatableMem := host.memBytes - headroom.memBytes
  cpu_le := Nat.zero_le _
  mem_le := Nat.zero_le _

/-- `try_reserve`, with the saturating additions of `u32` and `u64`. -/
def tryReserve (l : ResourceLedger) (limits : ResourceLimits) : Option ResourceLedger :=
  let nextCpu := min (l.committedCpu + limits.cpuMillis) u32Max
  let nextMem := min (l.committedMem + limits.memoryBytes) u64Max
  if h : nextCpu ≤ l.allocatableCpu ∧ nextMem ≤ l.allocatableMem then
    some { l with committedCpu := nextCpu, committedMem := nextMem, cpu_le := h.1, mem_le := h.2 }
  else none

/-- `release`, with saturating subtractions. -/
def release (l : ResourceLedger) (limits : ResourceLimits) : ResourceLedger :=
  { l with
    committedCpu := l.committedCpu - limits.cpuMillis
    committedMem := l.committedMem - limits.memoryBytes
    cpu_le := le_trans (Nat.sub_le _ _) l.cpu_le
    mem_le := le_trans (Nat.sub_le _ _) l.mem_le }

/-- No reservation can be granted by saturation: `u32::MAX` millicores or
`u64::MAX` bytes are not allocatable. -/
def Unsaturated (l : ResourceLedger) : Prop :=
  l.allocatableCpu < u32Max ∧ l.allocatableMem < u64Max

variable {l l' : ResourceLedger} {limits : ResourceLimits}

/-- The limits fit beside what is committed. -/
def Fits (l : ResourceLedger) (limits : ResourceLimits) : Prop :=
  min (l.committedCpu + limits.cpuMillis) u32Max ≤ l.allocatableCpu ∧
    min (l.committedMem + limits.memoryBytes) u64Max ≤ l.allocatableMem

instance : Decidable (l.Fits limits) := inferInstanceAs (Decidable (_ ∧ _))

/-- **A granted reservation**: the limits fit, and they are committed. -/
theorem tryReserve_eq_some (h : l.tryReserve limits = some l') :
    l.Fits limits ∧ l'.committedCpu = min (l.committedCpu + limits.cpuMillis) u32Max ∧
      l'.committedMem = min (l.committedMem + limits.memoryBytes) u64Max ∧
      l'.allocatableCpu = l.allocatableCpu ∧ l'.allocatableMem = l.allocatableMem := by
  unfold tryReserve at h
  simp only at h
  split at h <;> cases h
  next hfits => exact ⟨hfits, rfl, rfl, rfl, rfl⟩

/-- It adds exactly the limits, unless it was granted by saturation. -/
theorem tryReserve_spec (h : l.tryReserve limits = some l') (hsat : l.Unsaturated) :
    l'.committedCpu = l.committedCpu + limits.cpuMillis ∧
      l'.committedMem = l.committedMem + limits.memoryBytes ∧
      l'.allocatableCpu = l.allocatableCpu ∧ l'.allocatableMem = l.allocatableMem := by
  obtain ⟨⟨hcpu, hmem⟩, hcpu', hmem', halloc⟩ := tryReserve_eq_some h
  have := hsat.1
  have := hsat.2
  exact ⟨by omega, by omega, halloc⟩

theorem tryReserve_allocatable (h : l.tryReserve limits = some l') :
    l'.allocatableCpu = l.allocatableCpu ∧ l'.allocatableMem = l.allocatableMem :=
  (tryReserve_eq_some h).2.2.2

end ResourceLedger

end Denia.Autoscale

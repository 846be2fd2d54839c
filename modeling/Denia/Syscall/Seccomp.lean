/-
  Denia.Syscall.Seccomp — the DENYLIST FILTER of the system calls, on x86_64 (`build_program`,
  `denylist`, `src/syscall/seccomp.rs`).

  The filter denies every call of another architecture.  A call of the x32 ABI comes with the
  architecture word of x86_64 and with bit 30 set in its number, and the filter compares the
  number as it comes.

  Main results: `buildProgram_runs`, what the program returns; `filter_exact_iff`, for which
  calls that is what the list says.
-/
import Denia.Lib.Bpf

namespace Denia.Syscall

open Lib.Bpf

/-! ## §1. The program. -/

/-- `AUDIT_ARCH_X86_64`. -/
def auditArchX8664 : UInt32 := 0xC000003E

/-- An instruction that does not jump. -/
def stmt (code : UInt16) (k : UInt32) : Insn := ⟨code, 0, 0, k⟩

/-- A conditional jump. -/
def jump (code : UInt16) (k : UInt32) (jt jf : UInt8) : Insn := ⟨code, jt, jf, k⟩

/-- Deny with an errno. -/
def denyErrno (errno : UInt16) : UInt32 := 0x00050000 ||| errno.toUInt32

/-- `EPERM`. -/
def eperm : UInt16 := 1

/-- `SECCOMP_RET_ALLOW`. -/
def retAllow : UInt32 := 0x7FFF0000

/-- `build_program`; the additions on `u8` wrap, as in a release build. -/
def buildProgram (syscalls : List UInt32) : List Insn :=
  let count := syscalls.length
  [stmt ldAbs 4, jump jeqK auditArchX8664 0 (UInt8.ofNat count + 2), stmt ldAbs 0]
    ++ syscalls.mapIdx (fun i nr => jump jeqK nr (UInt8.ofNat (count - i - 1) + 1) 0)
    ++ [stmt retK retAllow, stmt retK (denyErrno eperm)]

/-- `denylist`: the numbers of `libc` on x86_64, first those of the architecture. -/
def denylist : List UInt32 :=
  -- ptrace, sethostname, setsid, mount, umount2, init_module, delete_module, kexec_load,
  -- kexec_file_load, mknod, mknodat, uselib, swapon, swapoff, nfsservctl, putpmsg, kcmp,
  -- finit_module, bpf, open_tree, move_mount, fsopen, fsconfig, fsmount, memfd_create
  [101, 170, 112, 165, 166, 175, 176, 246, 320, 133, 259, 134, 167, 168, 180, 182, 312, 313, 321,
    428, 429, 430, 431, 432, 319]
  -- keyctl, add_key, request_key, unshare, setns, userfaultfd, perf_event_open, io_uring_setup,
  -- process_vm_readv, process_vm_writev, quotactl, acct, seccomp
  ++ [250, 248, 249, 272, 308, 323, 298, 425, 310, 311, 179, 163, 317]

/-- The words of `seccomp_data` that the program loads. -/
def seccompData (arch nr : UInt32) (offset : UInt32) : Option UInt32 :=
  if offset = 0 then some nr else if offset = 4 then some arch else none

/-! ## §2. What it returns. -/

/-- The loop pushes the comparisons of `matchAny`. -/
theorem mapIdx_eq_matchAny (syscalls : List UInt32) (before : Nat) : syscalls.mapIdx (fun i nr =>
        jump jeqK nr (UInt8.ofNat (before + syscalls.length - (i + before) - 1) + 1) 0)
      = matchAny syscalls := by
  induction syscalls generalizing before with
  | nil => rfl
  | cons nr rest ih =>
    rw [List.mapIdx_cons, matchAny, ← ih (before + 1)]
    congr 1
    · simp [jump]
    · congr 1
      funext i nr
      simp only [List.length_cons]
      congr 3
      omega

/-- **What the filter returns**: the list decides on the number as it comes. -/
theorem buildProgram_runs {syscalls : List UInt32} (hlength : syscalls.length ≤ 253)
    (arch nr : UInt32) : eval (seccompData arch nr) (buildProgram syscalls)
      = some (if arch ≠ auditArchX8664 ∨ nr ∈ syscalls then denyErrno eperm else retAllow) := by
  have hcount : (UInt8.ofNat syscalls.length + 2).toNat = syscalls.length + 2 := by
    rw [UInt8.toNat_add, UInt8.toNat_ofNat', show (2 : UInt8).toNat = 2 from rfl]
    omega
  have hprogram : buildProgram syscalls
      = stmt ldAbs 4 :: jump jeqK auditArchX8664 0 (UInt8.ofNat syscalls.length + 2)
        :: stmt ldAbs 0 :: (matchAny syscalls ++
          stmt retK retAllow :: [stmt retK (denyErrno eperm)]) := by
    have hloop := mapIdx_eq_matchAny syscalls 0
    simp only [Nat.zero_add, Nat.add_zero] at hloop
    simp [buildProgram, hloop]
  refine Runs.eval_eq ?_
  rw [hprogram]
  refine .ld rfl (.jeq ?_)
  by_cases harch : arch = auditArchX8664
  · simp only [harch, if_true, ne_eq, not_true_eq_false, false_or, UInt8.toNat_zero, List.drop_zero]
    refine .ld rfl (.matchAny (by omega) (fun hnr => ?_) fun hnr => ?_)
    · rw [if_pos hnr]
      exact .ret
    · rw [if_neg hnr]
      exact .ret
  · -- over the load, the comparisons and the first return
    have hdrop : (stmt ldAbs 0 :: (matchAny syscalls ++
        stmt retK retAllow :: [stmt retK (denyErrno eperm)])).drop (syscalls.length + 2)
          = [stmt retK (denyErrno eperm)] := by
      rw [List.drop_succ_cons, ← length_matchAny syscalls, List.drop_length_add_append]
      rfl
    rw [if_neg harch, hcount, hdrop, if_pos (.inl harch)]
    exact .ret

/-! ## §3. The calls of the x32 ABI. -/

/-- `__X32_SYSCALL_BIT`. -/
def x32Bit : UInt32 := 0x40000000

/-- What the list says of a call: it is denied by its number in either ABI. -/
def verdict (syscalls : List UInt32) (arch nr : UInt32) : UInt32 :=
  if arch ≠ auditArchX8664 ∨ nr &&& ~~~x32Bit ∈ syscalls then denyErrno eperm else retAllow

/-- **The filter is exact** except for the calls that reach a listed number through the x32
ABI. -/
theorem filter_exact_iff (syscalls : List UInt32) (hlength : syscalls.length ≤ 253)
    (hplain : ∀ n ∈ syscalls, n &&& x32Bit = 0) (arch nr : UInt32) :
    (eval (seccompData arch nr) (buildProgram syscalls)).isSome ∧
      (eval (seccompData arch nr) (buildProgram syscalls) = some (verdict syscalls arch nr) ↔
        arch ≠ auditArchX8664 ∨ nr &&& x32Bit = 0 ∨ nr &&& ~~~x32Bit ∉ syscalls) := by
  have hreturns : denyErrno eperm ≠ retAllow := by decide
  have hclear : nr &&& x32Bit = 0 → nr &&& ~~~x32Bit = nr := by
    intro h
    rw [← UInt32.toBitVec_inj] at h ⊢
    ext i hi
    have hbit := congrArg (fun word : BitVec 32 => word[i]) h
    simpa using hbit
  rw [buildProgram_runs hlength, verdict]
  refine ⟨rfl, ?_⟩
  by_cases harch : arch = auditArchX8664
  · by_cases hbit : nr &&& x32Bit = 0
    · simp [hclear hbit, hbit]
    · have hnr : nr ∉ syscalls := fun h => hbit (hplain nr h)
      by_cases hlisted : nr &&& ~~~x32Bit ∈ syscalls <;>
        simp [harch, hbit, hnr, hlisted, hreturns.symm]
  · simp [harch]

theorem denylist_plain : ∀ n ∈ denylist, n &&& x32Bit = 0 := by
  have hall : (denylist.all fun n => n &&& x32Bit == 0) = true := by decide
  simpa using hall

/-- `mount` is denied. -/
theorem filter_exact_iff_mount :
    eval (seccompData auditArchX8664 165) (buildProgram denylist) = some (denyErrno eperm) :=
  (filter_exact_iff denylist (by decide) denylist_plain auditArchX8664 165).2.mpr
    (.inr (.inl (by decide)))

/-- **`mount` through the x32 ABI** is let through. -/
theorem x32_mount_allowed :
    eval (seccompData auditArchX8664 (0x40000000 + 165)) (buildProgram denylist) = some retAllow ∧
      (0x40000000 + 165) &&& ~~~x32Bit ∈ denylist := by
  decide +kernel

end Denia.Syscall

/-
  Denia.Lib.Bpf — CLASSIC BPF as far as filters of system calls use it: loads of a word of the
  data, jumps on equality, and returns.

  A jump goes FORWARD, by an 8-bit offset from the next instruction.  A run ends at a return; it
  is stuck at any other instruction, at a load that the data do not have, and past the end.

  Main results: the rules of `Runs`, one per instruction, and `Runs.matchAny` for a chain of
  comparisons that all jump to the end of the chain.
-/
import Mathlib.Init

namespace Denia.Lib.Bpf

/-- `sock_filter`. -/
structure Insn where
  code : UInt16
  jt : UInt8
  jf : UInt8
  k : UInt32

/-- `BPF_LD | BPF_W | BPF_ABS`. -/
def ldAbs : UInt16 := 0x00 ||| 0x00 ||| 0x20

/-- `BPF_JMP | BPF_JEQ | BPF_K`. -/
def jeqK : UInt16 := 0x05 ||| 0x10 ||| 0x00

/-- `BPF_RET | BPF_K`. -/
def retK : UInt16 := 0x06 ||| 0x00

/-- The run of what is left of a program, with the accumulator. -/
def run (data : UInt32 → Option UInt32) : (fuel : Nat) → List Insn → UInt32 → Option UInt32
  | fuel + 1, i :: rest, acc =>
    if i.code = ldAbs then (data i.k).bind (run data fuel rest)
    else if i.code = jeqK then
      run data fuel (rest.drop (if acc = i.k then i.jt else i.jf).toNat) acc
    else if i.code = retK then some i.k
    else none
  | _, _, _ => none

/-- No instruction is met twice, so the length is enough fuel. -/
def eval (data : UInt32 → Option UInt32) (program : List Insn) : Option UInt32 :=
  run data program.length program 0

/-- The program returns `r`. -/
def Runs (data : UInt32 → Option UInt32) (program : List Insn) (acc r : UInt32) : Prop :=
  ∀ fuel, program.length ≤ fuel → run data fuel program acc = some r

variable {data : UInt32 → Option UInt32} {rest : List Insn} {acc r k : UInt32}

theorem Runs.eval_eq {program : List Insn} (h : Runs data program 0 r) :
    eval data program = some r := h _ (Nat.le_refl _)

variable {jt jf : UInt8}

theorem Runs.ret : Runs data (⟨retK, jt, jf, k⟩ :: rest) acc k := by
  rintro (_ | fuel) hfuel
  · simp at hfuel
  · simp [run, show retK ≠ ldAbs by decide, show retK ≠ jeqK by decide]

theorem Runs.ld {word : UInt32} (hword : data k = some word) (h : Runs data rest word r) :
    Runs data (⟨ldAbs, jt, jf, k⟩ :: rest) acc r := by
  rintro (_ | fuel) hfuel
  · simp at hfuel
  · simp [run, hword, h fuel (by simpa using hfuel)]

theorem Runs.jeq (h : Runs data (rest.drop (if acc = k then jt else jf).toNat) acc r) :
    Runs data (⟨jeqK, jt, jf, k⟩ :: rest) acc r := by
  rintro (_ | fuel) hfuel
  · simp at hfuel
  · have hlength : (rest.drop (if acc = k then jt else jf).toNat).length ≤ fuel := by
      simp only [List.length_cons, List.length_drop] at hfuel ⊢
      omega
    simp [run, show jeqK ≠ ldAbs by decide, h fuel hlength]

/-- Comparisons with the keys, one after the other; each jumps over those that are left and
one instruction more. -/
def matchAny : List UInt32 → List Insn
  | [] => []
  | key :: keys => ⟨jeqK, UInt8.ofNat keys.length + 1, 0, key⟩ :: matchAny keys

@[simp] theorem length_matchAny (keys : List UInt32) : (matchAny keys).length = keys.length := by
  induction keys with
  | nil => rfl
  | cons key keys ih => simp [matchAny, ih]

/-- **The chain** goes on at the instruction behind it, or at the one after that if the
accumulator is among the keys. -/
theorem Runs.matchAny {keys : List UInt32} {miss : Insn} (hkeys : keys.length ≤ 255)
    (hhit : acc ∈ keys → Runs data rest acc r)
    (hmiss : acc ∉ keys → Runs data (miss :: rest) acc r) :
    Runs data (Bpf.matchAny keys ++ miss :: rest) acc r := by
  induction keys with
  | nil => exact hmiss List.not_mem_nil
  | cons key keys ih =>
    simp only [List.length_cons] at hkeys
    rw [Bpf.matchAny, List.cons_append]
    refine Runs.jeq ?_
    by_cases hkey : acc = key
    · have hoffset : (UInt8.ofNat keys.length + 1).toNat = (Bpf.matchAny keys).length + 1 := by
        rw [UInt8.toNat_add, UInt8.toNat_ofNat', length_matchAny, UInt8.toNat_one]
        omega
      rw [if_pos hkey, hoffset, List.drop_length_add_append]
      exact hhit (hkey ▸ List.mem_cons_self)
    · rw [if_neg hkey]
      exact ih (by omega) (fun h => hhit (List.mem_cons_of_mem _ h))
        fun h => hmiss (by simp [hkey, h])

end Denia.Lib.Bpf

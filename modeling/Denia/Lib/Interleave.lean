/-
  Denia.Lib.Interleave — PROCESSES over one shared state, and the rule for what holds
  in every interleaving of them.

  Between two steps of one process the others may move, new ones may start, and the
  surroundings may change the shared state.  An invariant has three parts: what holds of the
  shared state, what holds of each process against it, and what holds between any two
  processes.  A step then owes the shared part, the part of the process that moved, and that
  no OTHER process loses what it had.

  Main results: `Program.Keeps.step` and `Program.Keeps.run`, the rule; `Program.tally_step`,
  a counter that moves with the weights of the processes is their sum.
-/
import Denia.Lib.Run
import Mathlib.Algebra.Order.BigOperators.Group.List
import Mathlib.Algebra.Order.Ring.Nat

namespace Denia.Lib

variable {S P R A E : Type*}

/-- How a process starts, one step of it under an answer of the surroundings, and a
change from outside. -/
structure Program (S P R A E : Type*) where
  start : R → P
  advance : S → P → A → Option (S × P)
  outer : S → E → Option S

/-- The shared state and the processes, in the order they started. -/
structure System (S P : Type*) where
  shared : S
  procs : List P

/-- A process starts or moves, or something outside happens. -/
inductive Event (R A E : Type*) where
  | spawn (request : R)
  | move (i : Nat) (answer : A)
  | outer (change : E)
  deriving DecidableEq

namespace Program

variable (prog : Program S P R A E)

/-- One event. -/
def step (σ : System S P) : Event R A E → Option (System S P)
  | .spawn request => some { σ with procs := σ.procs ++ [prog.start request] }
  | .move i answer =>
      match σ.procs[i]? with
      | none => none
      | some p =>
          match prog.advance σ.shared p answer with
          | none => none
          | some (s, p') => some ⟨s, σ.procs.set i p'⟩
  | .outer change =>
      match prog.outer σ.shared change with
      | none => none
      | some s => some { σ with shared := s }

variable {prog} {σ σ' : System S P}

theorem step_move {i : Nat} {a : A} (h : prog.step σ (.move i a) = some σ') :
    ∃ p s p', σ.procs[i]? = some p ∧ prog.advance σ.shared p a = some (s, p') ∧
      σ' = ⟨s, σ.procs.set i p'⟩ := by
  simp only [step] at h
  split at h
  next => cases h
  next p hp =>
    split at h <;> cases h
    next s p' hadvance => exact ⟨p, s, p', hp, hadvance, rfl⟩

theorem step_outer {e : E} (h : prog.step σ (.outer e) = some σ') :
    ∃ s, prog.outer σ.shared e = some s ∧ σ' = { σ with shared := s } := by
  simp only [step] at h
  split at h <;> cases h
  next s hs => exact ⟨s, hs, rfl⟩

end Program

/-! ## §1. The processes after a step. -/

variable {l : List P} {p q p' : P} {i : Nat} {σ σ' : System S P} {event : Event R A E}
  {f : P → Nat}

/-- A process of a grown list is an old one or the new one. -/
theorem getElem?_concat_cases (h : (l ++ [p])[i]? = some q) :
    l[i]? = some q ∨ i = l.length ∧ q = p := by
  grind

/-- A process of a list in which one has moved is that one or another, unmoved. -/
theorem getElem?_set_cases {j : Nat} (h : (l.set i p')[j]? = some q) :
    j = i ∧ q = p' ∨ j ≠ i ∧ l[j]? = some q := by
  grind

/-- Where a process of the state after a step comes from. -/
theorem Program.step_proc {prog : Program S P R A E} (h : prog.step σ event = some σ')
    (hp' : σ'.procs[i]? = some p') : (∀ a, event ≠ .move i a) ∧ σ.procs[i]? = some p' ∨
      (∃ r, event = .spawn r ∧ p' = prog.start r) ∨
      ∃ p a s', event = .move i a ∧ σ.procs[i]? = some p ∧
        prog.advance σ.shared p a = some (s', p') := by
  cases event with
  | spawn r =>
    cases h
    rcases getElem?_concat_cases hp' with hp' | ⟨-, rfl⟩
    · exact .inl ⟨nofun, hp'⟩
    · exact .inr (.inl ⟨r, rfl, rfl⟩)
  | move j a =>
    obtain ⟨p, s, p1, hp, hadvance, rfl⟩ := step_move h
    rcases getElem?_set_cases hp' with ⟨rfl, rfl⟩ | ⟨hne, hp'⟩
    · exact .inr (.inr ⟨p, a, s, rfl, hp, hadvance⟩)
    · refine .inl ⟨?_, hp'⟩
      rintro b ⟨⟩
      exact hne rfl
  | outer =>
    obtain ⟨s, -, rfl⟩ := step_outer h
    exact .inl ⟨nofun, hp'⟩

/-- What becomes of a process in a step. -/
theorem Program.step_proc_next {prog : Program S P R A E} (h : prog.step σ event = some σ')
    (hp : σ.procs[i]? = some p) : (∀ a, event ≠ .move i a) ∧ σ'.procs[i]? = some p ∨
      ∃ a s' p', event = .move i a ∧ σ'.procs[i]? = some p' ∧
        prog.advance σ.shared p a = some (s', p') := by
  obtain ⟨hlt, -⟩ := List.getElem?_eq_some_iff.mp hp
  cases event with
  | spawn =>
    cases h
    exact .inl ⟨nofun, (List.getElem?_append_left hlt).trans hp⟩
  | move j a =>
    obtain ⟨q, s, q', hq, hadvance, rfl⟩ := step_move h
    by_cases hij : j = i
    · subst hij
      cases hp.symm.trans hq
      exact .inr ⟨a, s, q', rfl, List.getElem?_set_self hlt, hadvance⟩
    · refine .inl ⟨?_, (List.getElem?_set_ne hij).trans hp⟩
      rintro b ⟨⟩
      exact hij rfl
  | outer =>
    obtain ⟨s, -, rfl⟩ := step_outer h
    exact .inl ⟨nofun, hp⟩

/-! ## §2. The rule. -/

/-- An invariant in its three parts. -/
structure System.Holds (I : S → Prop) (L : S → P → Prop) (X : P → P → Prop)
    (σ : System S P) : Prop where
  shared : I σ.shared
  each : ∀ (i : Nat) p, σ.procs[i]? = some p → L σ.shared p
  apart : ∀ (i j : Nat) p q, i ≠ j → σ.procs[i]? = some p → σ.procs[j]? = some q → X p q

/-- Before any process has started only the shared part is owed. -/
theorem System.Holds.start {I : S → Prop} {L : S → P → Prop} {X : P → P → Prop} {s : S}
    (h : I s) : (⟨s, []⟩ : System S P).Holds I L X where
  shared := h
  each i p hp := by cases hp
  apart i j p q _ hp _ := by cases hp

/-- What the steps of a program owe an invariant. -/
structure Program.Keeps (prog : Program S P R A E) (guard : System S P → Event R A E → Prop)
    (I : S → Prop) (L : S → P → Prop) (X : P → P → Prop) : Prop where
  symm : ∀ p q, X p q → X q p
  start_each : ∀ s r, I s → L s (prog.start r)
  start_apart : ∀ r q, X (prog.start r) q
  outer : ∀ σ e s', σ.Holds I L X → guard σ (.outer e) → prog.outer σ.shared e = some s' →
    I s' ∧ ∀ q, L σ.shared q → L s' q
  move : ∀ σ i p a s' p', σ.Holds I L X → guard σ (.move i a) → σ.procs[i]? = some p →
    prog.advance σ.shared p a = some (s', p') →
    I s' ∧ L s' p' ∧ ∀ (j : Nat) q, j ≠ i → σ.procs[j]? = some q → L s' q ∧ X p' q

namespace Program.Keeps

variable {prog : Program S P R A E} {guard : System S P → Event R A E → Prop} {I : S → Prop}
  {L : S → P → Prop} {X : P → P → Prop} {σ σ' : System S P}

theorem step (keeps : prog.Keeps guard I L X) {event : Event R A E} (hσ : σ.Holds I L X)
    (hguard : guard σ event) (h : prog.step σ event = some σ') : σ'.Holds I L X := by
  cases event with
  | spawn r =>
    cases h
    refine ⟨hσ.shared, ?_, ?_⟩
    · intro i p hp
      rcases getElem?_concat_cases hp with hp | ⟨-, rfl⟩
      · exact hσ.each i p hp
      · exact keeps.start_each _ r hσ.shared
    · intro i j p q hij hp hq
      rcases getElem?_concat_cases hp with hp | ⟨hi, rfl⟩
      · rcases getElem?_concat_cases hq with hq | ⟨-, rfl⟩
        · exact hσ.apart i j p q hij hp hq
        · exact keeps.symm _ _ (keeps.start_apart r p)
      · exact keeps.start_apart r q
  | move i a =>
    obtain ⟨p, s, p', hp, hadvance, rfl⟩ := step_move h
    obtain ⟨hI, hL, hothers⟩ := keeps.move σ i p a s p' hσ hguard hp hadvance
    refine ⟨hI, ?_, ?_⟩
    · intro j q hq
      rcases getElem?_set_cases hq with ⟨-, rfl⟩ | ⟨hj, hq⟩
      · exact hL
      · exact (hothers j q hj hq).1
    · intro j k q q' hjk hq hq'
      -- two processes are the one that moved and another, or two others
      rcases getElem?_set_cases hq with ⟨hji, rfl⟩ | ⟨hji, hqold⟩
      · rcases getElem?_set_cases hq' with ⟨hki, -⟩ | ⟨hki, hq'⟩
        · exact absurd (hji.trans hki.symm) hjk
        · exact (hothers k q' hki hq').2
      · rcases getElem?_set_cases hq' with ⟨-, rfl⟩ | ⟨-, hq'⟩
        · exact keeps.symm _ _ (hothers j q hji hqold).2
        · exact hσ.apart j k q q' hjk hqold hq'
  | outer e =>
    obtain ⟨s, houter, rfl⟩ := step_outer h
    obtain ⟨hI, hL⟩ := keeps.outer σ e s hσ hguard houter
    exact ⟨hI, fun i p hp => hL p (hσ.each i p hp), hσ.apart⟩

/-- **The rule for a run**: what the steps keep holds in every state a guarded run
reaches. -/
theorem run (keeps : prog.Keeps guard I L X) {events : List (Event R A E)} (hσ : σ.Holds I L X)
    (hguard : Guarded prog.step guard σ events) (h : exec prog.step σ events = some σ') :
    σ'.Holds I L X :=
  exec_invariant (System.Holds I L X) (fun _ _ _ => keeps.step) hσ hguard h

end Program.Keeps

/-! ## §3. Counters. -/

theorem sum_map_set (h : l[i]? = some p) (p' : P) :
    ((l.set i p').map f).sum + f p = (l.map f).sum + f p' := by
  induction l generalizing i with
  | nil => cases h
  | cons q l ih =>
    cases i with
    | zero =>
      cases h
      simp only [List.set_cons_zero, List.map_cons, List.sum_cons]
      omega
    | succ i =>
      have hrest := ih (i := i) h
      simp only [List.set_cons_succ, List.map_cons, List.sum_cons]
      omega

/-- A weight that falls for the process that moves, and rises for none, falls in all. -/
theorem sum_map_set_lt {g : P → Nat} (h : l[i]? = some p) (hmoved : g p' < f p)
    (hothers : ∀ (j : Nat) q, j ≠ i → l[j]? = some q → g q ≤ f q) :
    ((l.set i p').map g).sum < (l.map f).sum := by
  induction l generalizing i with
  | nil => cases h
  | cons q l ih =>
    cases i with
    | zero =>
      cases h
      have hrest : (l.map g).sum ≤ (l.map f).sum := by
        refine List.sum_le_sum fun x hx => ?_
        obtain ⟨j, hj⟩ := List.getElem?_of_mem hx
        exact hothers (j + 1) x (Nat.succ_ne_zero j) hj
      simp only [List.set_cons_zero, List.map_cons, List.sum_cons]
      omega
    | succ i =>
      have hhead := hothers 0 q (Nat.succ_ne_zero i).symm rfl
      have hrest := ih (i := i) h fun j x hj hx => hothers (j + 1) x (by omega) hx
      simp only [List.set_cons_succ, List.map_cons, List.sum_cons]
      omega

/-- **The rule for a counter.**  A counter `g` of the shared state that no change from
outside touches, and that a step of a process moves exactly as it moves the weight `f` of
the process, is the sum of the weights. -/
theorem Program.tally_step {prog : Program S P R A E} {g : S → Nat}
    (hstart : ∀ r, f (prog.start r) = 0) (houter : ∀ s e s', prog.outer s e = some s' → g s' = g s)
    (hmove : ∀ s p a s' p', f p ≤ g s → prog.advance s p a = some (s', p') →
      g s' + f p = g s + f p') (hσ : g σ.shared = (σ.procs.map f).sum)
    (h : prog.step σ event = some σ') : g σ'.shared = (σ'.procs.map f).sum := by
  cases event with
  | spawn =>
    cases h
    simpa [hstart] using hσ
  | move i a =>
    obtain ⟨p, s, p', hp, hadvance, rfl⟩ := step_move h
    have hle : f p ≤ g σ.shared := by
      rw [hσ]
      exact List.single_le_sum (fun _ _ => Nat.zero_le _) _
        (List.mem_map_of_mem (List.mem_of_getElem? hp))
    have hg := hmove σ.shared p a s p' hle hadvance
    have hsum := sum_map_set (f := f) hp p'
    show g s = ((σ.procs.set i p').map f).sum
    omega
  | outer e =>
    obtain ⟨s, hs, rfl⟩ := step_outer h
    exact (houter _ e s hs).trans hσ

end Denia.Lib

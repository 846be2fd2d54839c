/-
  Denia.Lib.Hoare — pre- and postconditions for programs that keep a state and can fail.

  A failing program keeps the state it has reached (`ExceptT` over `StateM`), so a triple
  has two postconditions: `Q` for a returned value and `E` for an error.  An INVARIANT of
  the whole run, errors included, is the choice `E = I`.  `ends_forM` is the rule for a loop
  that is followed through the states it passes.

  `Returns` and `Fails` are the other reading: what a program that returned has read and
  written, and what one that failed has left.  Their simp lemmas take a straight-line program
  apart step by step; `bind_eq_ok` and its companions do the same for `Except`.
-/
import Mathlib.Init

namespace Denia.Lib

universe u

variable {σ ε α β : Type u}

/-- A program on the state `σ` that returns an `α` or fails with an `ε`. -/
abbrev Prog (σ ε α : Type u) := ExceptT ε (StateM σ) α

/-- Run a program. -/
def runProg (m : Prog σ ε α) (s : σ) : Except ε α × σ := m.run.run s

/-- What a run ends with: `Q` for a value, `E` for an error. -/
def Ends (Q : α → σ → Prop) (E : σ → Prop) : Except ε α × σ → Prop
  | (.ok a, s) => Q a s
  | (.error _, s) => E s

/-- From every state that meets `P`, the program ends in `Q`, or fails in `E`. -/
def Triple (P : σ → Prop) (m : Prog σ ε α) (Q : α → σ → Prop) (E : σ → Prop) : Prop :=
  ∀ s, P s → Ends Q E (runProg m s)

theorem Ends.mono {Q Q' : α → σ → Prop} {E E' : σ → Prop} {r : Except ε α × σ}
    (h : Ends Q E r) (hQ : ∀ a s, Q a s → Q' a s) (hE : ∀ s, E s → E' s) : Ends Q' E' r := by
  obtain ⟨_ | a, s⟩ := r
  · exact hE s h
  · exact hQ a s h

section
variable {P P' : σ → Prop} {Q Q' : α → σ → Prop} {E : σ → Prop} {m : Prog σ ε α}

theorem Triple.conseq (h : Triple P m Q E) (hP : ∀ s, P' s → P s)
    (hQ : ∀ a s, Q a s → Q' a s) : Triple P' m Q' E :=
  fun s hs => (h s (hP s hs)).mono hQ fun _ hE => hE

theorem Triple.post (h : Triple P m Q E) (hQ : ∀ a s, Q a s → Q' a s) : Triple P m Q' E :=
  h.conseq (fun _ hs => hs) hQ

theorem Triple.mono_error {E' : σ → Prop} (h : Triple P m Q E) (hE : ∀ s, E s → E' s) :
    Triple P m Q E' :=
  fun s hs => (h s hs).mono (fun _ _ hQ => hQ) hE

/-- A fact that the precondition carries is assumed of the program. -/
theorem Triple.assume {φ : Prop} (h : φ → Triple P m Q E) : Triple (fun s => P s ∧ φ) m Q E :=
  fun s hs => h hs.2 s hs.1

theorem triple_pure {a : α} (h : ∀ s, P s → Q a s) : Triple P (pure a : Prog σ ε α) Q E :=
  fun s hs => h s hs

theorem triple_throw {e : ε} (h : ∀ s, P s → E s) : Triple P (throw e : Prog σ ε α) Q E :=
  fun s hs => h s hs

theorem triple_get {R : σ → σ → Prop} (h : ∀ s, P s → R s s) : Triple P (get : Prog σ ε σ) R E :=
  fun s hs => h s hs

theorem triple_modify {R : PUnit → σ → Prop} {f : σ → σ} (h : ∀ s, P s → R ⟨⟩ (f s)) :
    Triple P (modify f : Prog σ ε PUnit) R E :=
  fun s hs => h s hs

theorem runProg_bind (m : Prog σ ε α) (f : α → Prog σ ε β) (s : σ) :
    runProg (m >>= f) s = match runProg m s with
      | (.ok a, s') => runProg (f a) s'
      | (.error e, s') => (.error e, s') := by
  unfold runProg
  rw [ExceptT.run_bind, StateT.run_bind]
  cases StateT.run m.run s with
  | mk r => cases r <;> rfl

/-- The rule of the semicolon. -/
theorem triple_bind {f : α → Prog σ ε β} {R : β → σ → Prop} (hm : Triple P m Q E)
    (hf : ∀ a, Triple (Q a) (f a) R E) : Triple P (m >>= f) R E := by
  intro s hs
  have h := hm s hs
  rw [runProg_bind]
  revert h
  rcases runProg m s with ⟨_ | a, s'⟩
  · exact id
  · exact hf a s'

end

/-! ## Loops. -/

section
variable {τ : Type u} {I E : σ → Prop} {f : τ → Prog σ ε PUnit} {xs : List τ}

/-- The loop that never asks for anything but its invariant. -/
theorem triple_forM (h : ∀ x ∈ xs, Triple I (f x) (fun _ => I) E) :
    Triple I (xs.forM f) (fun _ => I) E := by
  induction xs with
  | nil => exact triple_pure fun _ hs => hs
  | cons x xs ih =>
    show Triple I (f x >>= fun _ => xs.forM f) _ E
    exact triple_bind (h x List.mem_cons_self) fun _ =>
      ih fun y hy => h y (List.mem_cons_of_mem _ hy)

/-- Every iteration starts from a state that meets the guard. -/
def GuardedLoop (guard : σ → τ → Prop) (f : τ → Prog σ ε PUnit) : σ → List τ → Prop
  | _, [] => True
  | s, x :: xs =>
      guard s x ∧ ∀ s', runProg (f x) s = (.ok ⟨⟩, s') → GuardedLoop guard f s' xs

/-- The guard, tried along the run. -/
def checkLoop (test : σ → τ → Bool) (f : τ → Prog σ ε PUnit) : σ → List τ → Bool
  | _, [] => true
  | s, x :: xs =>
      test s x && match runProg (f x) s with
        | (.ok _, s') => checkLoop test f s' xs
        | (.error _, _) => true

theorem guardedLoop_of_check {guard : σ → τ → Prop} {test : σ → τ → Bool}
    (htest : ∀ s x, test s x = true → guard s x) {s : σ} (hcheck : checkLoop test f s xs = true) :
    GuardedLoop guard f s xs := by
  induction xs generalizing s with
  | nil => exact trivial
  | cons x xs ih =>
    rw [checkLoop, Bool.and_eq_true] at hcheck
    refine ⟨htest s x hcheck.1, ?_⟩
    intro s' hrun
    have hnext := hcheck.2
    rw [hrun] at hnext
    exact ih hnext

/-- **The loop rule**: what one guarded iteration keeps, the guarded loop keeps. -/
theorem ends_forM {guard : σ → τ → Prop}
    (h : ∀ x, Triple (fun s => I s ∧ guard s x) (f x) (fun _ => I) E) {s : σ} (hs : I s)
    (hg : GuardedLoop guard f s xs) : Ends (fun _ => I) E (runProg (xs.forM f) s) := by
  induction xs generalizing s with
  | nil => exact hs
  | cons x xs ih =>
    obtain ⟨hguard, hnext⟩ := hg
    have hx := h x s ⟨hs, hguard⟩
    show Ends _ E (runProg (f x >>= fun _ => xs.forM f) s)
    rw [runProg_bind]
    revert hx hnext
    rcases runProg (f x) s with ⟨_ | a, s'⟩
    · exact fun _ hx => hx
    · exact fun hnext hx => ih hx (hnext s' rfl)

end

/-! ## Programs that returned. -/

/-- From `s` the program returns `a` and leaves `s'`. -/
def Returns (m : Prog σ ε α) (s : σ) (a : α) (s' : σ) : Prop := runProg m s = (.ok a, s')

/-- Go on if the condition holds. -/
def ensure (c : Prop) [Decidable c] (e : ε) : Prog σ ε PUnit := if c then pure ⟨⟩ else throw e

theorem runProg_ensure (c : Prop) [Decidable c] (e : ε) (s : σ) :
    runProg (ensure c e) s = (if c then .ok ⟨⟩ else .error e, s) := by
  unfold ensure
  split <;> rfl

/-- Go on with the value, if there is one. -/
def found (o : Option α) (e : ε) : Prog σ ε α :=
  match o with
  | some a => pure a
  | none => throw e

/-- Go on with the result of a pure computation that can fail. -/
def accept (r : Except ε α) : Prog σ ε α :=
  match r with
  | .ok a => pure a
  | .error e => throw e

theorem triple_accept {P : σ → Prop} (r : Except ε α) :
    Triple P (accept r) (fun a s => P s ∧ r = .ok a) P := by
  cases r with
  | error => exact triple_throw fun _ hs => hs
  | ok => exact triple_pure fun _ hs => ⟨hs, rfl⟩

/-- The invariant of a program, its failures included. -/
abbrev Preserves (I : σ → Prop) (m : Prog σ ε α) : Prop := Triple I m (fun _ => I) I

theorem Preserves.state {I : σ → Prop} {m : Prog σ ε α} {s : σ} (h : Preserves I m) (hs : I s) :
    I (runProg m s).2 := by
  have hends := h s hs
  revert hends
  rcases runProg m s with ⟨_ | a, s'⟩ <;> exact id

theorem preserves_accept {I : σ → Prop} {r : Except ε α} {f : α → Prog σ ε β}
    (hf : ∀ a, r = .ok a → Preserves I (f a)) : Preserves I (accept r >>= f) :=
  triple_bind (triple_accept r) fun a => Triple.assume (hf a)

variable {r : PUnit} {c : Prop}

section
variable {s s' : σ} {a b : α} {e : ε} {m : Prog σ ε α}

@[simp] theorem returns_pure : Returns (pure b : Prog σ ε α) s a s' ↔ a = b ∧ s' = s := by
  show ((.ok b, s) : Except ε α × σ) = (.ok a, s') ↔ _
  simp [eq_comm]

@[simp] theorem returns_throw : ¬ Returns (throw e : Prog σ ε α) s a s' := by
  intro h
  cases h

@[simp] theorem returns_modify {f : σ → σ} :
    Returns (modify f : Prog σ ε PUnit) s r s' ↔ s' = f s := by
  show ((.ok ⟨⟩, f s) : Except ε PUnit × σ) = (.ok r, s') ↔ _
  simp [eq_comm]

/-- What a sequence of two programs returned, the first had gone through. -/
theorem returns_bind {f : α → Prog σ ε β} {b : β} :
    Returns (m >>= f) s b s' ↔ ∃ a s1, Returns m s a s1 ∧ Returns (f a) s1 b s' := by
  unfold Returns
  rw [runProg_bind]
  rcases runProg m s with ⟨_ | a, s1⟩ <;> simp [and_assoc]

@[simp] theorem returns_ensure [Decidable c] :
    Returns (ensure c e : Prog σ ε PUnit) s r s' ↔ c ∧ s' = s := by
  unfold ensure
  by_cases hc : c <;> simp [hc]

@[simp] theorem returns_accept {r : Except ε α} :
    Returns (accept r : Prog σ ε α) s a s' ↔ r = .ok a ∧ s' = s := by
  cases r <;> simp [accept, eq_comm]

section
variable {b : β}

@[simp] theorem returns_get_bind {f : σ → Prog σ ε β} :
    Returns (get >>= f) s b s' ↔ Returns (f s) s b s' := Iff.rfl

@[simp] theorem returns_modify_bind {g : σ → σ} {f : PUnit → Prog σ ε β} :
    Returns (modify g >>= f) s b s' ↔ Returns (f ⟨⟩) (g s) b s' := Iff.rfl

@[simp] theorem returns_ensure_bind [Decidable c] {f : PUnit → Prog σ ε β} :
    Returns (ensure c e >>= f) s b s' ↔ c ∧ Returns (f ⟨⟩) s b s' := by
  unfold ensure
  by_cases hc : c <;> simp [hc]

@[simp] theorem returns_found_bind {o : Option α} {f : α → Prog σ ε β} :
    Returns (found o e >>= f) s b s' ↔ ∃ a, o = some a ∧ Returns (f a) s b s' := by
  cases o <;> simp [found]

@[simp] theorem returns_accept_bind {r : Except ε α} {f : α → Prog σ ε β} :
    Returns (accept r >>= f) s b s' ↔ ∃ a, r = .ok a ∧ Returns (f a) s b s' := by
  simp [returns_bind, and_assoc]

end

/-- A loop that returned went through its first round and the rest. -/
theorem returns_forM_cons {τ : Type u} {f : τ → Prog σ ε PUnit} {x : τ} {xs : List τ} :
    Returns ((x :: xs).forM f) s r s' ↔
      ∃ s1, Returns (f x) s ⟨⟩ s1 ∧ Returns (xs.forM f) s1 r s' := by
  show Returns (f x >>= fun _ => xs.forM f) s r s' ↔ _
  rw [returns_bind]
  exact ⟨fun ⟨_, h⟩ => h, fun h => ⟨⟨⟩, h⟩⟩

/-- The same, from its last round. -/
theorem returns_forM_concat {τ : Type u} {f : τ → Prog σ ε PUnit} {x : τ} {xs : List τ} :
    Returns ((xs ++ [x]).forM f) s ⟨⟩ s' ↔
      ∃ s1, Returns (xs.forM f) s ⟨⟩ s1 ∧ Returns (f x) s1 ⟨⟩ s' := by
  induction xs generalizing s with
  | nil => simp [List.forM_nil]
  | cons y ys ih =>
    simp only [List.cons_append, returns_forM_cons, ih]
    constructor
    · rintro ⟨s1, hy, s2, hys, hx⟩
      exact ⟨s2, ⟨s1, hy, hys⟩, hx⟩
    · rintro ⟨s2, ⟨s1, hy, hys⟩, hx⟩
      exact ⟨s1, hy, s2, hys, hx⟩

end

/-! ## Programs that failed. -/

/-- From `s` the program fails and leaves `s'`. -/
def Fails (m : Prog σ ε α) (s s' : σ) : Prop := ∃ e, runProg m s = (.error e, s')

section
variable {s s' : σ} {m : Prog σ ε α}

theorem ensure_bind_of [Decidable c] {e : ε} (hc : c) (f : PUnit → Prog σ ε α) :
    ensure c e >>= f = f ⟨⟩ := by
  unfold ensure
  rw [if_pos hc]
  rfl

@[simp] theorem not_fails_pure {a : α} : ¬ Fails (pure a : Prog σ ε α) s s' := by
  rintro ⟨e, h⟩
  cases h

@[simp] theorem fails_throw {e : ε} : Fails (throw e : Prog σ ε α) s s' ↔ s' = s := by
  show (∃ e', ((.error e, s) : Except ε α × σ) = (.error e', s')) ↔ _
  simp [eq_comm]

theorem fails_get_bind {f : σ → Prog σ ε α} : Fails (get >>= f) s s' ↔ Fails (f s) s s' := Iff.rfl

/-- A sequence of two fails in the first, or in the second after the first. -/
theorem fails_bind {f : α → Prog σ ε β} :
    Fails (m >>= f) s s' ↔ Fails m s s' ∨ ∃ a s1, Returns m s a s1 ∧ Fails (f a) s1 s' := by
  unfold Fails Returns
  rw [runProg_bind]
  rcases runProg m s with ⟨_ | a, s1⟩ <;> simp [and_assoc]

theorem fails_ensure [Decidable c] {e : ε} :
    Fails (ensure c e : Prog σ ε PUnit) s s' ↔ ¬ c ∧ s' = s := by
  unfold ensure
  split
  next hc => simp [hc]
  next hc => simp [hc]

theorem fails_found {o : Option α} {e : ε} :
    Fails (found o e : Prog σ ε α) s s' ↔ o = none ∧ s' = s := by
  cases o <;> simp [found]

theorem fails_accept {r : Except ε α} :
    Fails (accept r : Prog σ ε α) s s' ↔ (∃ e, r = .error e) ∧ s' = s := by
  cases r <;> simp [accept]

/-- **Where a loop failed**: after the rounds up to one, in that one. -/
theorem fails_forM {τ : Type u} {f : τ → Prog σ ε PUnit} {xs : List τ} :
    Fails (xs.forM f) s s' ↔ ∃ before x after s1, xs = before ++ x :: after ∧
      Returns (before.forM f) s ⟨⟩ s1 ∧ Fails (f x) s1 s' := by
  induction xs generalizing s with
  | nil =>
    refine ⟨fun h => absurd h not_fails_pure, ?_⟩
    rintro ⟨before, x, after, s1, h, -⟩
    exact absurd h (by simp)
  | cons y ys ih =>
    show Fails (f y >>= fun _ => ys.forM f) s s' ↔ _
    rw [fails_bind]
    constructor
    · rintro (hy | ⟨_, s1, hy, hys⟩)
      · exact ⟨[], y, ys, s, rfl, returns_pure.mpr ⟨rfl, rfl⟩, hy⟩
      · obtain ⟨before, x, after, s2, rfl, hbefore, hx⟩ := ih.mp hys
        exact ⟨y :: before, x, after, s2, rfl, returns_forM_cons.mpr ⟨s1, hy, hbefore⟩, hx⟩
    · rintro ⟨before, x, after, s1, hsplit, hbefore, hx⟩
      cases before with
      | nil =>
        obtain ⟨-, rfl⟩ := returns_pure.mp hbefore
        cases hsplit
        exact .inl hx
      | cons y' before =>
        cases hsplit
        obtain ⟨s2, hy, hbefore⟩ := returns_forM_cons.mp hbefore
        exact .inr ⟨⟨⟩, s2, hy, ih.mpr ⟨before, x, after, s1, rfl, hbefore, hx⟩⟩

end

/-! ## Programs that only read. -/

/-- However it ends, the program has written nothing. -/
def ReadOnly (m : Prog σ ε α) : Prop := ∀ s, (runProg m s).2 = s

section
variable {m : Prog σ ε α} {s s' : σ}

/-- A run that failed has written nothing. -/
def FailsClean (m : Prog σ ε α) : Prop := ∀ s s', Fails m s s' → s' = s

theorem ReadOnly.failsClean (hm : ReadOnly m) : FailsClean m := by
  rintro s s' ⟨e, h⟩
  simpa [h] using hm s

theorem ReadOnly.returns (hm : ReadOnly m) {a : α} (h : Returns m s a s') : s' = s := by
  have hs := hm s
  rwa [h] at hs

/-- What reads first and fails clean after that fails clean. -/
theorem failsClean_bind {f : α → Prog σ ε β} (hm : ReadOnly m) (hf : ∀ a, FailsClean (f a)) :
    FailsClean (m >>= f) := by
  intro s s' h
  rcases fails_bind.mp h with h | ⟨a, s1, hreturns, hfails⟩
  · exact hm.failsClean s s' h
  · obtain rfl := hm.returns hreturns
    exact hf a _ s' hfails

theorem readOnly_pure (a : α) : ReadOnly (pure a : Prog σ ε α) := fun _ => rfl

theorem readOnly_get : ReadOnly (get : Prog σ ε σ) := fun _ => rfl

theorem readOnly_ensure (c : Prop) [Decidable c] (e : ε) :
    ReadOnly (ensure c e : Prog σ ε PUnit) := by
  unfold ensure
  split <;> exact fun _ => rfl

theorem readOnly_found (o : Option α) (e : ε) : ReadOnly (found o e : Prog σ ε α) := by
  cases o <;> exact fun _ => rfl

theorem readOnly_accept (r : Except ε α) : ReadOnly (accept r : Prog σ ε α) := by
  cases r <;> exact fun _ => rfl

theorem readOnly_bind {f : α → Prog σ ε β} (hm : ReadOnly m) (hf : ∀ a, ReadOnly (f a)) :
    ReadOnly (m >>= f) := by
  intro s
  have hs := hm s
  rw [runProg_bind]
  revert hs
  rcases runProg m s with ⟨e | a, s1⟩
  · exact id
  · rintro rfl
    exact hf a s1

end

/-! ## Computations without a state. -/

section
variable {x : Except ε α} {b : β}

theorem bind_eq_ok {f : α → Except ε β} : x >>= f = .ok b ↔ ∃ a, x = .ok a ∧ f a = .ok b := by
  cases x <;> simp [bind, Except.bind]

theorem mapError_eq_ok {δ : Type u} {f : ε → δ} {a : α} : x.mapError f = .ok a ↔ x = .ok a := by
  cases x with
  | ok => constructor <;> (rintro ⟨⟩; rfl)
  | error => constructor <;> rintro ⟨⟩

/-- The error, if there is one. -/
def failure : Except ε α → Option ε
  | .ok _ => none
  | .error e => some e

theorem failure_eq_none : failure x = none ↔ ∃ a, x = .ok a := by
  cases x with
  | ok a => exact iff_of_true rfl ⟨a, rfl⟩
  | error => exact ⟨by rintro ⟨⟩, by rintro ⟨_, ⟨⟩⟩⟩

theorem failure_eq_some {e : ε} : failure x = some e ↔ x = .error e := by
  cases x with
  | ok => constructor <;> rintro ⟨⟩
  | error => rw [failure, Option.some.injEq, Except.error.injEq]

/-- The value, if there is one. -/
def orError (o : Option α) (e : ε) : Except ε α := (o.map .ok).getD (.error e)

theorem orError_eq_ok {o : Option α} {e : ε} {a : α} : orError o e = .ok a ↔ o = some a := by
  cases o <;> simp [orError]

/-- The condition holds. -/
def require (c : Prop) [Decidable c] (e : ε) : Except ε PUnit := if c then .ok ⟨⟩ else .error e

theorem require_eq_ok [Decidable c] {e : ε} : require c e = .ok r ↔ c := by
  unfold require
  split <;> simp_all

end

end Denia.Lib

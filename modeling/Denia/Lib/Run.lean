/-
  Denia.Lib.Run — schedules of a partial step function, and the INVARIANT RULE
  for schedules whose every step meets a guard.

  A system is an executable `step : σ → α → Option σ`; `none` means that the label is not
  enabled.  A schedule is a list of labels, so "for every interleaving" is a quantifier over
  lists.  `exec_invariant` is the induction over schedules: each safety theorem supplies its
  invariant, the initial state and one step.
-/
import Mathlib.Data.List.Basic

namespace Denia.Lib

variable {σ α : Type*}

/-- Replay a schedule; `none` as soon as a label is not enabled. -/
def exec (step : σ → α → Option σ) : σ → List α → Option σ
  | s, [] => some s
  | s, a :: as => (step s a).bind fun s' => exec step s' as

/-- Every step of the schedule meets `guard` in the state it is taken from. -/
def Guarded (step : σ → α → Option σ) (guard : σ → α → Prop) : σ → List α → Prop
  | _, [] => True
  | s, a :: as => guard s a ∧ ∀ s', step s a = some s' → Guarded step guard s' as

variable {step : σ → α → Option σ} {s t s' : σ} {as bs : List α} {guard : σ → α → Prop}
  {Inv : σ → Prop}

theorem exec_cons {a : α} (h : exec step s (a :: as) = some t) :
    ∃ s', step s a = some s' ∧ exec step s' as = some t :=
  Option.bind_eq_some_iff.mp h

theorem exec_cons_of_eq {a : α} (h : step s a = some s') (as : List α) :
    exec step s (a :: as) = exec step s' as := by
  rw [exec, h]
  rfl

theorem exec_append (h : exec step s (as ++ bs) = some t) :
    ∃ s', exec step s as = some s' ∧ exec step s' bs = some t := by
  induction as generalizing s with
  | nil => exact ⟨s, rfl, h⟩
  | cons a as ih =>
    obtain ⟨s1, hs1, h⟩ := exec_cons h
    obtain ⟨s', hs', ht⟩ := ih h
    exact ⟨s', (exec_cons_of_eq hs1 as).trans hs', ht⟩

/-- A schedule goes on from where its first part ends. -/
theorem exec_append_of_eq (h : exec step s as = some s') (bs : List α) :
    exec step s (as ++ bs) = exec step s' bs := by
  induction as generalizing s with
  | nil =>
    cases h
    rfl
  | cons a as ih =>
    obtain ⟨s1, hs1, h⟩ := exec_cons h
    exact (exec_cons_of_eq hs1 _).trans (ih h)

/-- A guarded schedule is guarded at each of its cuts. -/
theorem guarded_append (hg : Guarded step guard s (as ++ bs)) (h : exec step s as = some s') :
    Guarded step guard s as ∧ Guarded step guard s' bs := by
  induction as generalizing s with
  | nil =>
    cases h
    exact ⟨trivial, hg⟩
  | cons a as ih =>
    obtain ⟨s1, hs1, h⟩ := exec_cons h
    obtain ⟨hga, hgas⟩ := hg
    refine ⟨⟨hga, fun s2 hs2 => ?_⟩, (ih (hgas s1 hs1) h).2⟩
    cases hs1.symm.trans hs2
    exact (ih (hgas s1 hs1) h).1

/-- **The invariant rule**: what one guarded step keeps, a guarded schedule
keeps. -/
theorem exec_invariant (Inv : σ → Prop)
    (hstep : ∀ s a s', Inv s → guard s a → step s a = some s' → Inv s') (hs : Inv s)
    (hg : Guarded step guard s as) (h : exec step s as = some t) : Inv t := by
  induction as generalizing s with
  | nil =>
    cases h
    exact hs
  | cons a as ih =>
    obtain ⟨s', hs', ht⟩ := exec_cons h
    exact ih (hstep s a s' hs hg.1 hs') (hg.2 s' hs') ht

theorem guarded_and {guard' : σ → α → Prop} (h : Guarded step guard s as)
    (h' : Guarded step guard' s as) : Guarded step (fun s a => guard s a ∧ guard' s a) s as := by
  induction as generalizing s with
  | nil => trivial
  | cons a as ih => exact ⟨⟨h.1, h'.1⟩, fun s' hs' => ih (h.2 s' hs') (h'.2 s' hs')⟩

/-- What a guarded schedule keeps may be assumed at each of its steps. -/
theorem guarded_of_invariant (hstep : ∀ s a s', Inv s → guard s a → step s a = some s' → Inv s')
    (hs : Inv s) (hg : Guarded step guard s as) : Guarded step (fun s _ => Inv s) s as := by
  induction as generalizing s with
  | nil => trivial
  | cons a as ih => exact ⟨hs, fun s' hs' => ih (hstep s a s' hs hg.1 hs') (hg.2 s' hs')⟩

/-- A guard on the labels alone. -/
theorem guarded_of_forall_mem {P : α → Prop} (h : ∀ a ∈ as, P a) (s : σ) :
    Guarded step (fun _ a => P a) s as := by
  induction as generalizing s with
  | nil => trivial
  | cons a as ih =>
    exact ⟨h a List.mem_cons_self, fun s' _ => ih (fun b hb => h b (List.mem_cons_of_mem _ hb)) s'⟩

/-- The invariant rule for schedules made of labels that meet `P`. -/
theorem exec_invariant_mem {P : α → Prop} (Inv : σ → Prop)
    (hstep : ∀ s a s', Inv s → P a → step s a = some s' → Inv s') (hs : Inv s)
    (hP : ∀ a ∈ as, P a) (h : exec step s as = some t) : Inv t :=
  exec_invariant Inv hstep hs (guarded_of_forall_mem hP s) h

/-- The invariant rule without a guard. -/
theorem exec_invariant_all (Inv : σ → Prop)
    (hstep : ∀ s a s', Inv s → step s a = some s' → Inv s') (hs : Inv s)
    (h : exec step s as = some t) : Inv t :=
  exec_invariant_mem (P := fun _ => True) Inv (fun s a s' hs _ => hstep s a s' hs) hs
    (fun _ _ => trivial) h

/-- A schedule is guarded throughout, or a step that is not leads to where nothing leads
back from. -/
theorem guarded_or_exec {Bad : σ → Prop}
    (hkeeps : ∀ s a s', Inv s → guard s a → step s a = some s' → Inv s')
    (hbreaks : ∀ s a s', Inv s → ¬ guard s a → step s a = some s' → Bad s')
    (hbad : ∀ s a s', Bad s → step s a = some s' → Bad s') (hs : Inv s)
    (h : exec step s as = some t) : Guarded step guard s as ∨ Bad t := by
  induction as generalizing s with
  | nil => exact .inl trivial
  | cons a as ih =>
    obtain ⟨s1, hs1, h⟩ := exec_cons h
    by_cases hg : guard s a
    · rcases ih (hkeeps s a s1 hs hg hs1) h with hrest | hbad
      · refine .inl ⟨hg, fun s2 hs2 => ?_⟩
        cases hs1.symm.trans hs2
        exact hrest
      · exact .inr hbad
    · exact .inr (exec_invariant_all Bad hbad (hbreaks s a s1 hs hg hs1) h)

/-- **A property and a guard that decide each other**: one guarded step keeps what the
property follows from, and a step that is not guarded breaks the property.  Then the
property holds in every state a schedule goes through exactly if the schedule is
guarded. -/
theorem guarded_iff_exec {P : σ → Prop}
    (hkeeps : ∀ s a s', Inv s → guard s a → step s a = some s' → Inv s')
    (hbreaks : ∀ s a s', Inv s → ¬ guard s a → step s a = some s' → ¬ P s')
    (hP : ∀ s, Inv s → P s) (hs : Inv s) (h : exec step s as = some t) :
    (∀ before after u, as = before ++ after → exec step s before = some u → P u) ↔
      Guarded step guard s as := by
  constructor
  · intro hall
    induction as generalizing s with
    | nil => trivial
    | cons a as ih =>
      obtain ⟨s1, hs1, h⟩ := exec_cons h
      have hg : guard s a := by
        by_contra hg
        exact hbreaks s a s1 hs hg hs1 (hall [a] as s1 rfl (exec_cons_of_eq hs1 []))
      refine ⟨hg, fun s2 hs2 => ?_⟩
      cases hs1.symm.trans hs2
      refine ih (hkeeps s a s1 hs hg hs1) h fun before after u has hu => ?_
      exact hall (a :: before) after u (by rw [has]; rfl) ((exec_cons_of_eq hs1 _).trans hu)
  · intro hg before after u has hu
    subst has
    exact hP u (exec_invariant Inv hkeeps hs (guarded_append hg hu).1 hu)

/-- A guard that is tested on a given schedule. -/
def checked (step : σ → α → Option σ) (check : σ → α → Bool) : σ → List α → Bool
  | _, [] => true
  | s, a :: as =>
      check s a && match step s a with
        | none => true
        | some s' => checked step check s' as

theorem guarded_of_checked {check : σ → α → Bool} (hcheck : ∀ s a, check s a = true → guard s a)
    (h : checked step check s as = true) : Guarded step guard s as := by
  induction as generalizing s with
  | nil => trivial
  | cons a as ih =>
    obtain ⟨ha, hrest⟩ := Bool.and_eq_true_iff.mp h
    refine ⟨hcheck s a ha, fun s' hs' => ih ?_⟩
    rwa [hs'] at hrest

/-- A run on a fixed input, and what is computed of its end. -/
theorem exists_run {o : Option σ} {P : σ → Prop} (Q : σ → Prop) (h : ∃ t ∈ o, Q t)
    (hP : ∀ t, o = some t → Q t → P t) : ∃ t, o = some t ∧ P t := by
  obtain ⟨t, ht, hQ⟩ := h
  exact ⟨t, ht, hP t ht hQ⟩

end Denia.Lib

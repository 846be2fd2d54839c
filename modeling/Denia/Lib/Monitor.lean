/-
  Denia.Lib.Monitor — a resource behind ONE LOCK, worked on by threads that can be cut.

  The lock is `some i` while thread `i` holds it.  What a thread has in hand then is read off
  its local state (`held`), and `Mid h r` says what is true of the resource while `h` is in
  hand; `Mid none` is the resource invariant.  The rules are the moves: a thread is spawned,
  works without the lock, works with it, is cut off and loses it.
-/
import Mathlib.Data.List.AList

namespace Denia.Lib

variable {ι τ η ρ : Type*} [DecidableEq ι]

/-- The lock is where the local states say it is, and the resource is as it has to be
for what the holder has in hand. -/
structure Monitor (held : τ → Option η) (Mid : Option η → ρ → Prop)
    (threads : AList fun _ : ι => τ) (lock : Option ι) (res : ρ) : Prop where
  holder : ∀ i t, threads.lookup i = some t → ((held t).isSome ↔ lock = some i)
  present : ∀ i, lock = some i → ∃ t, threads.lookup i = some t
  mid : Mid ((lock.bind fun i => threads.lookup i).bind held) res

namespace Monitor

variable {held : τ → Option η} {Mid : Option η → ρ → Prop} {threads : AList fun _ : ι => τ}
  {lock lock' : Option ι} {res res' : ρ} {i : ι} {t t' : τ}

section
variable (h : Monitor held Mid threads lock res)
include h

theorem mid_free (hfree : lock = none) : Mid none res := by
  subst hfree
  exact h.mid

theorem lock_ne (ht : threads.lookup i = some t) (hheld : held t = none) : lock ≠ some i := by
  intro hlock
  have hsome := (h.holder i t ht).mpr hlock
  simp [hheld] at hsome

/-- What the resource is like, as the thread that may work on it sees it. -/
theorem mid_own (ht : threads.lookup i = some t) (hown : lock = none ∨ lock = some i) :
    Mid (held t) res := by
  have hmid := h.mid
  rcases hown with rfl | rfl
  · have hheld : held t = none := by
      rw [← Option.not_isSome_iff_eq_none, h.holder i t ht]
      nofun
    rwa [hheld]
  · rwa [Option.bind_some, ht] at hmid

variable {threads' : AList fun _ : ι => τ}

/-- A thread without the lock comes, goes on or goes: its entry changes, the lock does
not. -/
theorem aside (hlock : lock ≠ some i) (hself : ∀ t', threads'.lookup i = some t' → held t' = none)
    (hothers : ∀ j, j ≠ i → threads'.lookup j = threads.lookup j)
    (hmid : ∀ x, Mid x res → Mid x res') : Monitor held Mid threads' lock res' where
  holder j s hs := by
    by_cases hj : j = i
    · subst hj
      rw [hself s hs]
      exact iff_of_false Bool.false_ne_true hlock
    · rw [hothers j hj] at hs
      exact h.holder j s hs
  present j hj := by
    have hne : j ≠ i := fun hji => hlock (hji ▸ hj)
    rw [hothers j hne]
    exact h.present j hj
  mid := by
    have hsame : (lock.bind fun j => threads'.lookup j) = lock.bind fun j => threads.lookup j :=
      Option.bind_congr fun j hj => hothers j fun hji => hlock (hji ▸ hj)
    rw [hsame]
    exact hmid _ h.mid

/-- The thread that holds the lock, or takes it, or gives it back. -/
theorem own {hand : Option η} (hown : lock = none ∨ lock = some i)
    (hself : ∀ t', threads'.lookup i = some t' → held t' = hand)
    (hpresent : hand.isSome → ∃ t', threads'.lookup i = some t')
    (hothers : ∀ j, j ≠ i → threads'.lookup j = threads.lookup j)
    (hlock : lock' = if hand.isSome then some i else none) (hmid : Mid hand res') :
    Monitor held Mid threads' lock' res' where
  holder j s hs := by
    by_cases hj : j = i
    · subst hj
      rw [hself s hs, hlock]
      cases hand <;> simp
    · -- nobody else holds the lock, before or after
      rw [hothers j hj] at hs
      rw [h.holder j s hs, hlock]
      refine iff_of_false (fun hl => ?_) fun hl => ?_
      · rcases hown with rfl | rfl <;> cases hl
        exact hj rfl
      · split at hl <;> cases hl
        exact hj rfl
  present j hj := by
    rw [hlock] at hj
    split at hj <;> cases hj
    next hhand => exact hpresent hhand
  mid := by
    subst hlock
    cases hand with
    | none => exact hmid
    | some =>
      obtain ⟨t', ht'⟩ := hpresent rfl
      simpa [ht', hself t' ht'] using hmid

/-- A new thread, which holds nothing. -/
theorem spawn (hnew : threads.lookup i = none) (ht : held t = none) :
    Monitor held Mid (threads.insert i t) lock res := by
  refine h.aside (i := i) (fun hl => ?_) (fun t' ht' => ?_)
    (fun j hj => AList.lookup_insert_ne hj) (fun _ hm => hm)
  · obtain ⟨s, hs⟩ := h.present i hl
    simp [hnew] at hs
  · cases (AList.lookup_insert _).symm.trans ht'
    exact ht

/-- A thread goes on without the lock. -/
theorem background (ht : threads.lookup i = some t) (hheld : held t = none)
    (hheld' : held t' = none) (hmid : ∀ x, Mid x res → Mid x res') :
    Monitor held Mid (threads.insert i t') lock res' := by
  refine h.aside (h.lock_ne ht hheld) (fun s hs => ?_)
    (fun j hj => AList.lookup_insert_ne hj) hmid
  cases (AList.lookup_insert _).symm.trans hs
  exact hheld'

/-- A thread goes on with the lock, takes it or gives it back. -/
theorem move (hown : lock = none ∨ lock = some i)
    (hlock : lock' = if (held t').isSome then some i else none) (hmid : Mid (held t') res') :
    Monitor held Mid (threads.insert i t') lock' res' := by
  refine h.own hown (fun s hs => ?_) (fun _ => ⟨t', AList.lookup_insert _⟩)
    (fun j hj => AList.lookup_insert_ne hj) hlock hmid
  cases (AList.lookup_insert _).symm.trans hs
  rfl

/-- **The rule of the cut**: a thread is stopped where it is, its guard is dropped, and
what it had in hand must have been nothing that breaks the invariant. -/
theorem cut (ht : threads.lookup i = some t)
    (hself : ∀ t', threads'.lookup i = some t' → held t' = none)
    (hothers : ∀ j, j ≠ i → threads'.lookup j = threads.lookup j)
    (hmid : ∀ x, Mid x res → Mid x res') (hsafe : Mid (held t) res → Mid none res) :
    Monitor held Mid threads' (if lock = some i then none else lock) res' := by
  by_cases hl : lock = some i
  · rw [if_pos hl]
    have hfree : Mid none res := hsafe (h.mid_own ht (.inr hl))
    exact h.own (.inr hl) hself (fun hf => by cases hf) hothers rfl (hmid _ hfree)
  · rw [if_neg hl]
    exact h.aside hl hself hothers hmid

end

end Monitor

end Denia.Lib

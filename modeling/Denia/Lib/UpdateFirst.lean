/-
  Denia.Lib.UpdateFirst — change the first element of a list that meets a test
  (`iter_mut().find(..)` followed by an assignment), and what such a change
  leaves alone.
-/
import Mathlib.Data.List.Basic

namespace Denia.Lib

variable {α β : Type*}

/-- Apply `f` to the first element that meets `p`. -/
def updateFirst (p : α → Bool) (f : α → α) : List α → List α
  | [] => []
  | x :: xs => if p x then f x :: xs else x :: updateFirst p f xs

variable {p q : α → Bool} {f : α → α} {l : List α} {y : α}

/-- A projection that `f` does not touch, where it is applied, is the same at every position. -/
theorem map_updateFirst_of {g : α → β} (hg : ∀ x, p x = true → g (f x) = g x) (l : List α) :
    (updateFirst p f l).map g = l.map g := by
  induction l with
  | nil => rfl
  | cons => grind [updateFirst]

theorem map_updateFirst {g : α → β} (hg : ∀ x, g (f x) = g x) (l : List α) :
    (updateFirst p f l).map g = l.map g :=
  map_updateFirst_of (fun x _ => hg x) l

/-- An element of the changed list is an old one, or a change of an old one that
met the test. -/
theorem mem_updateFirst (h : y ∈ updateFirst p f l) : y ∈ l ∨ ∃ x ∈ l, p x = true ∧ y = f x := by
  induction l with
  | nil => cases h
  | cons => grind [updateFirst]

/-- An element that does not meet the test stays. -/
theorem mem_updateFirst_of_neg (hy : y ∈ l) (hp : p y = false) : y ∈ updateFirst p f l := by
  induction l with
  | nil => cases hy
  | cons => grind [updateFirst]

/-- A change of an element that a filter drops before and after is not seen by the
filter. -/
theorem filter_updateFirst (h : ∀ x, l.find? p = some x → q x = false ∧ q (f x) = false) :
    (updateFirst p f l).filter q = l.filter q := by
  induction l with
  | nil => rfl
  | cons x xs ih =>
    unfold updateFirst
    cases hp : p x with
    | true => simp [h x (by simp [hp])]
    | false => simp [List.filter_cons, ih fun y hy => h y (by simpa [hp] using hy)]

/-- A change that keeps the test changes the element the test finds. -/
theorem find?_updateFirst (hp : ∀ x, p (f x) = p x) (l : List α) :
    (updateFirst p f l).find? p = (l.find? p).map f := by
  induction l with
  | nil => rfl
  | cons => grind [updateFirst]

/-- A test that no changed element meets finds what it found. -/
theorem find?_updateFirst_of_ne (hq : ∀ x, q (f x) = q x) (hpq : ∀ x, p x = true → q x = false)
    (l : List α) : (updateFirst p f l).find? q = l.find? q := by
  induction l with
  | nil => rfl
  | cons => grind [updateFirst]

/-- Only the last element can meet the test. -/
theorem updateFirst_concat (hl : ∀ x ∈ l, p x = false) (hy : p y = true) :
    updateFirst p f (l ++ [y]) = l ++ [f y] := by
  induction l with
  | nil => simp [updateFirst, hy]
  | cons => grind [updateFirst]

end Denia.Lib

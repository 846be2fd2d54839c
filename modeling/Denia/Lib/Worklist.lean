/-
  Denia.Lib.Worklist — weights over a finite list, for the termination of worklist loops.

  A worklist loop that expands each node at most once is bounded by the length of its list
  plus the out-degrees of the nodes it has not expanded yet.
-/
import Mathlib.Algebra.Order.BigOperators.Group.List
import Mathlib.Algebra.Order.Ring.Nat

namespace Denia.Lib

variable {α : Type*}

/-- Dropping the weight of the member `a` to zero, with no other weight growing,
lowers the sum by at least the old weight of `a`. -/
theorem sum_map_add_le_sum_map {f g : α → Nat} {l : List α} {a : α}
    (ha : a ∈ l) (hle : ∀ x ∈ l, g x ≤ f x) (hga : g a = 0) :
    (l.map g).sum + f a ≤ (l.map f).sum := by
  induction l with
  | nil => exact absurd ha (by simp)
  | cons y l ih =>
    simp only [List.map_cons, List.sum_cons]
    have htail : ∀ x ∈ l, g x ≤ f x := fun x hx => hle x (List.mem_cons_of_mem _ hx)
    rcases List.mem_cons.mp ha with rfl | ha
    · have := List.sum_le_sum htail
      omega
    · have := ih ha htail
      have := hle y (by simp)
      omega

end Denia.Lib

/-
  Denia.Lib.Lines — cutting a stream into the pieces that a separator ends.

  `cutLines sep carry xs` reads `xs` after the unfinished piece `carry` and gives
  the pieces that are now complete, with the new unfinished one.  Reading in
  portions is then ONE LAW (`cutLines_append`): the unfinished piece is all that has
  to be carried from one portion to the next.

  `cutLines_flatMap` is for an encoding under which only the separator's code holds
  the code of the separator: the lines of the code are the codes of the lines.
-/
import Mathlib.Data.List.Basic

namespace Denia.Lib

variable {α β : Type*} [DecidableEq α] [DecidableEq β]

/-- The pieces completed by reading `xs` after `carry`, and what is left unfinished. -/
def cutLines (sep : α) : List α → List α → List (List α) × List α
  | carry, [] => ([], carry)
  | carry, x :: xs =>
    if x = sep then (carry :: (cutLines sep [] xs).1, (cutLines sep [] xs).2)
    else cutLines sep (carry ++ [x]) xs

variable {sep : α}

/-- **Reading in portions**: the second goes on from what the first left unfinished. -/
theorem cutLines_append (carry xs ys : List α) : cutLines sep carry (xs ++ ys)
      = ((cutLines sep carry xs).1 ++ (cutLines sep (cutLines sep carry xs).2 ys).1,
          (cutLines sep (cutLines sep carry xs).2 ys).2) := by
  induction xs generalizing carry with
  | nil => rfl
  | cons x xs ih =>
    rw [List.cons_append, cutLines, cutLines]
    split
    · rw [ih]
      rfl
    · exact ih _

/-- A portion without a separator completes nothing. -/
theorem cutLines_of_notMem {xs : List α} (hxs : sep ∉ xs) (carry : List α) :
    cutLines sep carry xs = ([], carry ++ xs) := by
  induction xs generalizing carry with
  | nil => simp [cutLines]
  | cons => grind [cutLines]

/-- So what is carried can as well be read again. -/
theorem cutLines_carry {carry : List α} (hcarry : sep ∉ carry) (xs : List α) :
    cutLines sep carry xs = cutLines sep [] (carry ++ xs) := by
  rw [cutLines_append, cutLines_of_notMem hcarry]
  rfl

/-- What is left unfinished holds no separator. -/
theorem notMem_cutLines {carry : List α} (hcarry : sep ∉ carry) (xs : List α) :
    sep ∉ (cutLines sep carry xs).2 := by
  induction xs generalizing carry with
  | nil => exact hcarry
  | cons x xs ih =>
    rw [cutLines]
    split
    · exact ih List.not_mem_nil
    next hx => exact ih (by simp [hcarry, Ne.symm hx])

/-- The complete pieces of a portion are the first ones of whatever it grows to. -/
theorem cutLines_isPrefix (carry xs ys : List α) :
    (cutLines sep carry xs).1 <+: (cutLines sep carry (xs ++ ys)).1 := by
  rw [cutLines_append]
  exact List.prefix_append _ _

/-- Closing the last piece: the pieces are those of `List.splitOn`. -/
theorem cutLines_concat_sep (carry xs : List α) :
    cutLines sep carry (xs ++ [sep]) = ((xs.splitOn sep).modifyHead (carry ++ ·), []) := by
  induction xs generalizing carry with
  | nil =>
    rw [List.nil_append, cutLines, if_pos rfl, List.splitOn_nil]
    exact congrArg (fun l => ([l], _)) (List.append_nil carry).symm
  | cons x xs ih =>
    rw [List.cons_append, cutLines, List.splitOn, List.splitOnP_cons_eq_if_modifyHead,
      ← List.splitOn]
    by_cases hx : x = sep
    · rw [if_pos hx, if_pos (beq_iff_eq.mpr hx), ih]
      have hid : (xs.splitOn sep).modifyHead ([] ++ ·) = xs.splitOn sep := by
        cases xs.splitOn sep <;> rfl
      rw [hid]
      exact congrArg (fun l => (l :: _, _)) (List.append_nil carry).symm
    · rw [if_neg hx, if_neg (fun h => hx (beq_iff_eq.mp h)), ih, List.modifyHead_modifyHead]
      refine congrArg (fun f => ((xs.splitOn sep).modifyHead f, _)) (funext fun l => ?_)
      exact List.append_assoc carry [x] l

/-- **Lines under an encoding** in which the separator's code is one symbol that no other
code holds. -/
theorem cutLines_flatMap {enc : α → List β} {code : β} (hsep : enc sep = [code])
    (hother : ∀ a, a ≠ sep → code ∉ enc a) (carry xs : List α) :
    cutLines code (carry.flatMap enc) (xs.flatMap enc)
      = ((cutLines sep carry xs).1.map fun l => l.flatMap enc,
          (cutLines sep carry xs).2.flatMap enc) := by
  induction xs generalizing carry with
  | nil => rfl
  | cons x xs ih =>
    rw [List.flatMap_cons, cutLines]
    by_cases hx : x = sep
    · have hread := ih []
      rw [List.flatMap_nil] at hread
      rw [if_pos hx, hx, hsep, List.singleton_append, cutLines, if_pos rfl, hread]
      rfl
    · rw [if_neg hx, cutLines_append, cutLines_of_notMem (hother x hx)]
      have hcarry : carry.flatMap enc ++ enc x = (carry ++ [x]).flatMap enc := by
        rw [List.flatMap_append, List.flatMap_singleton]
      rw [hcarry, ih, List.nil_append]

end Denia.Lib

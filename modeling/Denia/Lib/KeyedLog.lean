/-
  Denia.Lib.KeyedLog — BOUNDED LOGS, one for each key.

  A log keeps the last `cap` entries that were appended to it: when it is full the oldest
  one goes.  `Records` relates the logs to everything that was ever appended; `append`
  keeps it, so that what a log shows is read off the history and not off the queue.
-/
import Denia.Lib.AssocMap

namespace Denia.Lib

variable {κ ε : Type*} [DecidableEq κ] {cap : Nat} {l : List ε} {x : ε}

/-! ## §1. One log. -/

/-- The last `cap` entries. -/
def lastOf (cap : Nat) (l : List ε) : List ε := l.drop (l.length - cap)

/-- An entry goes to the end of a log; a full one loses its first. -/
def pushLast (cap : Nat) (l : List ε) (x : ε) : List ε :=
  (if l.length = cap then l.tail else l) ++ [x]

theorem length_lastOf : (lastOf cap l).length = min cap l.length := by
  unfold lastOf
  rw [List.length_drop]
  omega

theorem reverse_lastOf : (lastOf cap l).reverse = l.reverse.take cap := by
  unfold lastOf
  rw [List.reverse_drop, List.take_eq_take_iff, List.length_reverse]
  omega

/-- **The queue holds the last entries**: pushing onto the last ones of a history gives
the last ones of the longer history. -/
theorem pushLast_lastOf (hcap : 0 < cap) :
    pushLast cap (lastOf cap l) x = lastOf cap (l ++ [x]) := by
  unfold pushLast
  rw [length_lastOf]
  unfold lastOf
  by_cases h : cap ≤ l.length
  · have hle : l.length + 1 - cap ≤ l.length := by omega
    rw [if_pos (Nat.min_eq_left h), List.tail_drop, List.length_append, List.length_singleton,
      List.drop_append_of_le_length hle, Nat.sub_add_comm h]
  · have hall : l.length - cap = 0 ∧ l.length + 1 - cap = 0 := by omega
    rw [if_neg (by omega)]
    simp [hall]

/-! ## §2. Logs by key. -/

/-- A log for each key. -/
abbrev KeyedLog (κ ε : Type*) := AList fun _ : κ => List ε

namespace KeyedLog

/-- The log of a key, oldest entry first. -/
def of (m : KeyedLog κ ε) (k : κ) : List ε := (m.lookup k).getD []

/-- An entry for a key. -/
def append (cap : Nat) (m : KeyedLog κ ε) (k : κ) (x : ε) : KeyedLog κ ε :=
  m.insert k (pushLast cap (of m k) x)

variable {m : KeyedLog κ ε} {k k' : κ}

theorem of_append_self : of (append cap m k x) k = pushLast cap (of m k) x := by
  simp [of, append]

theorem of_append_of_ne (h : k' ≠ k) : of (append cap m k x) k' = of m k' := by
  simp [of, append, AList.lookup_insert_ne h]

end KeyedLog

/-- The entries of a history that have the key. -/
def entriesOf (history : List (κ × ε)) (k : κ) : List ε :=
  (history.filter fun r => r.1 = k).map Prod.snd

theorem mem_entriesOf {history : List (κ × ε)} {k : κ} :
    x ∈ entriesOf history k ↔ (k, x) ∈ history := by
  simp [entriesOf]

theorem entriesOf_concat_self (history : List (κ × ε)) (k : κ) (x : ε) :
    entriesOf (history ++ [(k, x)]) k = entriesOf history k ++ [x] := by
  simp [entriesOf]

theorem entriesOf_concat_of_ne (history : List (κ × ε)) {k k' : κ} (h : k' ≠ k) (x : ε) :
    entriesOf (history ++ [(k, x)]) k' = entriesOf history k' := by
  simp [entriesOf, h.symm]

/-- The logs hold the last entries of the history, key by key. -/
def Records (cap : Nat) (m : KeyedLog κ ε) (history : List (κ × ε)) : Prop :=
  ∀ k, KeyedLog.of m k = lastOf cap (entriesOf history k)

theorem records_nil : Records cap (∅ : KeyedLog κ ε) [] := by
  intro k
  simp [KeyedLog.of, lastOf, entriesOf]

theorem Records.append {m : KeyedLog κ ε} {history : List (κ × ε)} (hcap : 0 < cap)
    (h : Records cap m history) (k : κ) (x : ε) :
    Records cap (KeyedLog.append cap m k x) (history ++ [(k, x)]) := by
  intro k'
  by_cases hk : k' = k
  · subst hk
    rw [KeyedLog.of_append_self, h, pushLast_lastOf hcap, entriesOf_concat_self]
  · rw [KeyedLog.of_append_of_ne hk, h, entriesOf_concat_of_ne history hk]

end Denia.Lib

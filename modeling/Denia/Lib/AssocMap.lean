/-
  Denia.Lib.AssocMap — what a store needs beyond Mathlib's `AList`: keep the entries
  whose key passes a test (a `DELETE ... WHERE`, a `retain`), read an entry of an
  updated map back by cases, and build a map from the rows of a query.  `tabled` is a
  function that a table gives on finitely many arguments.
-/
import Mathlib.Data.List.AList

namespace Denia.Lib

variable {α : Type*} {β : α → Type*} [DecidableEq α] {a a' : α}

/-- Keep the entries that pass `p`. -/
def retain (m : AList β) (p : (a : α) → β a → Bool) : AList β :=
  ⟨m.entries.filter fun e => p e.1 e.2, m.nodupKeys.sublist List.filter_sublist⟩

theorem lookup_retain {m : AList β} {p : (a : α) → β a → Bool} {b : β a} :
    (retain m p).lookup a = some b ↔ p a b = true ∧ m.lookup a = some b := by
  have hmem : ∀ m' : AList β, m'.lookup a = some b ↔ ⟨a, b⟩ ∈ m'.entries :=
    fun m' => AList.mem_lookup_iff (s := m')
  rw [hmem, hmem]
  unfold retain
  rw [List.mem_filter, and_comm]

/-- Keep the entries whose key passes `p`. -/
def restrict (m : AList β) (p : α → Bool) : AList β :=
  ⟨m.entries.filter fun e => p e.1, m.nodupKeys.sublist List.filter_sublist⟩

theorem mem_lookup_restrict {m : AList β} {p : α → Bool} {b : β a} :
    b ∈ (restrict m p).lookup a ↔ p a = true ∧ b ∈ m.lookup a :=
  lookup_retain (p := fun a _ => p a)

theorem lookup_restrict (m : AList β) (p : α → Bool) (a : α) :
    (restrict m p).lookup a = if p a then m.lookup a else none := by
  apply Option.ext
  intro b
  have h := mem_lookup_restrict (m := m) (p := p) (a := a) (b := b)
  simp only [Option.mem_def] at h
  rw [h]
  by_cases hp : p a = true <;> simp [hp]

/-- An entry of an updated map is the new one, or an old one under another key. -/
theorem lookup_insert_cases {δ : Type*} {m : AList fun _ : α => δ} {b b' : δ}
    (h : (m.insert a b).lookup a' = some b') :
    (a = a' ∧ b = b') ∨ (a' ≠ a ∧ m.lookup a' = some b') := by
  by_cases hk : a' = a
  · rw [hk, AList.lookup_insert] at h
    exact .inl ⟨hk.symm, Option.some.inj h⟩
  · rw [AList.lookup_insert_ne hk] at h
    exact .inr ⟨hk, h⟩

/-- What is left after an erasure was there. -/
theorem lookup_of_erase {m : AList β} {b : β a'} (h : (m.erase a).lookup a' = some b) :
    a' ≠ a ∧ m.lookup a' = some b := by
  by_cases hk : a' = a
  · subst hk
    simp [AList.lookup_erase] at h
  · rw [AList.lookup_erase_ne hk] at h
    exact ⟨hk, h⟩

/-- Replacing an entry changes no entry of another value. -/
theorem lookup_insert_iff_of_ne {δ : Type*} {m : AList fun _ : α => δ} {b b' c : δ}
    (h : m.lookup a = some b) (hb : b ≠ c) (hb' : b' ≠ c) (a' : α) :
    (m.insert a b').lookup a' = some c ↔ m.lookup a' = some c := by
  by_cases hk : a' = a
  · subst hk
    rw [AList.lookup_insert, h]
    simp only [Option.some.injEq, hb, hb']
  · rw [AList.lookup_insert_ne hk]

/-! ## Maps with numbered keys. -/

section
variable {δ : Type*} {m : AList fun _ : Nat => δ} {n i : Nat} {b : δ}

/-- The keys are numbers given out so far. -/
def Numbered (n : Nat) (m : AList fun _ : Nat => δ) : Prop := ∀ j, n ≤ j → m.lookup j = none

theorem Numbered.lt (hm : Numbered n m) (h : m.lookup i = some b) : i < n := by
  by_contra hle
  simp [hm i (Nat.le_of_not_lt hle)] at h

theorem Numbered.mono {n' : Nat} (hm : Numbered n m) (hn : n ≤ n') : Numbered n' m :=
  fun j hj => hm j (Nat.le_trans hn hj)

theorem Numbered.sub {m' : AList fun _ : Nat => δ} (hm : Numbered n m)
    (hsub : ∀ j b, m'.lookup j = some b → m.lookup j = some b) : Numbered n m' := by
  intro j hj
  cases hb : m'.lookup j with
  | none => rfl
  | some b =>
    have hold := hsub j b hb
    simp [hm j hj] at hold

theorem Numbered.replace (hm : Numbered n m) (h : m.lookup i = some b) (b' : δ) :
    Numbered n (m.insert i b') := by
  intro j hj
  rw [AList.lookup_insert_ne (Nat.ne_of_gt (Nat.lt_of_lt_of_le (hm.lt h) hj))]
  exact hm j hj

theorem Numbered.insert (hm : Numbered n m) (b : δ) : Numbered (n + 1) (m.insert n b) := by
  intro j hj
  rw [AList.lookup_insert_ne (Nat.ne_of_gt hj)]
  exact hm j (Nat.le_of_lt hj)

end

/-! ## Maps built from a list of rows. -/

section
variable {γ δ : Type*}

/-- Insert the value the row gives, if it gives one. -/
def insertRow (key : γ → α) (f : γ → Option δ) (m : AList fun _ : α => δ) (x : γ) :
    AList fun _ : α => δ :=
  match f x with
  | none => m
  | some b => m.insert (key x) b

/-- Insert the rows one after another. -/
def insertAll (key : γ → α) (f : γ → Option δ) (rows : List γ) (m : AList fun _ : α => δ) :
    AList fun _ : α => δ :=
  rows.foldl (insertRow key f) m

theorem lookup_insertRow (key : γ → α) (f : γ → Option δ) (m : AList fun _ : α => δ) (x : γ)
    (a : α) (b : δ) : (insertRow key f m x).lookup a = some b ↔
      (key x = a ∧ f x = some b) ∨ ((key x = a → f x = none) ∧ m.lookup a = some b) := by
  unfold insertRow
  cases hf : f x with
  | none => simp
  | some =>
    by_cases ha : key x = a
    · subst ha
      simp
    · have hne : a ≠ key x := fun h => ha h.symm
      simp [ha, AList.lookup_insert_ne hne]

/-- Rows with distinct keys: a key has the value its row gives, or what it had. -/
theorem lookup_insertAll {key : γ → α} {f : γ → Option δ} {rows : List γ}
    (hkeys : (rows.map key).Nodup) (m : AList fun _ : α => δ) (a : α) (b : δ) :
    (insertAll key f rows m).lookup a = some b ↔
      (∃ x ∈ rows, key x = a ∧ f x = some b) ∨
        ((∀ x ∈ rows, key x = a → f x = none) ∧ m.lookup a = some b) := by
  induction rows generalizing m with
  | nil => simp [insertAll]
  | cons x xs ih =>
    rw [List.map_cons, List.nodup_cons] at hkeys
    show (insertAll key f xs (insertRow key f m x)).lookup a = some b ↔ _
    rw [ih hkeys.2, lookup_insertRow]
    simp only [List.mem_cons, exists_eq_or_imp, forall_eq_or_imp]
    -- no later row has the key of the first
    have hlater : key x = a → ∀ y ∈ xs, key y = a → f y = none := by
      intro hx y hy hya
      exact absurd (List.mem_map.mpr ⟨y, hy, hya.trans hx.symm⟩) hkeys.1
    constructor
    · rintro (h | ⟨hxs, h | ⟨hx, hm⟩⟩)
      · exact .inl (.inr h)
      · exact .inl (.inl h)
      · exact .inr ⟨⟨hx, hxs⟩, hm⟩
    · rintro ((h | h) | ⟨⟨hx, hxs⟩, hm⟩)
      · exact .inr ⟨hlater h.1, .inl h⟩
      · exact .inl h
      · exact .inr ⟨hxs, .inr ⟨hx, hm⟩⟩

theorem lookup_insertAll_empty {key : γ → α} {f : γ → Option δ} {rows : List γ}
    (hkeys : (rows.map key).Nodup) {a : α} {b : δ} :
    (insertAll key f rows ∅).lookup a = some b ↔ ∃ x ∈ rows, key x = a ∧ f x = some b := by
  simp [lookup_insertAll hkeys]

end

section
variable {δ : Type*} {table : List (α × δ)} {f : α → δ}

/-- What a table says of a key, and `f` of any other. -/
def tabled (table : List (α × δ)) (f : α → δ) (a : α) : δ := (table.lookup a).getD (f a)

theorem tabled_cases (table : List (α × δ)) (f : α → δ) (a : α) :
    (a, tabled table f a) ∈ table ∨ tabled table f a = f a := by
  unfold tabled
  cases h : table.lookup a with
  | none => exact .inr rfl
  | some =>
    obtain ⟨before, after, htable, -⟩ := List.lookup_eq_some_iff.mp h
    rw [htable]
    exact .inl (List.mem_append_right _ List.mem_cons_self)

/-- A table whose values are distinct, and apart from those of `f`. -/
theorem tabled_injective (hf : Function.Injective f) (hvalues : (table.map Prod.snd).Nodup)
    (hapart : ∀ p ∈ table, ∀ a, p.2 ≠ f a) : Function.Injective (tabled table f) := by
  intro a b h
  rcases tabled_cases table f a with ha | ha <;> rcases tabled_cases table f b with hb | hb
  · exact congrArg Prod.fst (List.inj_on_of_nodup_map hvalues ha hb h)
  · exact absurd (h.trans hb) (hapart _ ha b)
  · exact absurd (h.symm.trans ha) (hapart _ hb a)
  · exact hf (ha.symm.trans (h.trans hb))

end

end Denia.Lib

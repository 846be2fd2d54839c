/-
  Denia.Lib.References — REFERENCES between keyed tables, for a database that declares no
  foreign keys.

  `Refers t u ref ok` says that every row of `t` that names a key of `u` finds a row there, and
  that the two rows fit (`ok`).  A row of either table is written or goes, and each of the four
  has its rule; a new reference and a referred row that goes ask for something.
-/
import Denia.Lib.AssocMap

namespace Denia.Lib

variable {κ ι ρ τ : Type*} [DecidableEq κ] [DecidableEq ι]
  {t t' : AList fun _ : κ => ρ} {u u' : AList fun _ : ι => τ}
  {ref : κ → ρ → Option ι} {ok : ρ → τ → Prop}

/-- Every row of `t` that names a key of `u` finds a fitting row there. -/
def Refers (t : AList fun _ : κ => ρ) (u : AList fun _ : ι => τ) (ref : κ → ρ → Option ι)
    (ok : ρ → τ → Prop) : Prop :=
  ∀ k r i, t.lookup k = some r → ref k r = some i → ∃ x, u.lookup i = some x ∧ ok r x

namespace Refers

section
variable (h : Refers t u ref ok)
include h

/-- The rows that are left refer as before. -/
theorem sub (ht : ∀ k r, t'.lookup k = some r → t.lookup k = some r) : Refers t' u ref ok :=
  fun k r i hr hi => h k r i (ht k r hr) hi

theorem erase (k : κ) : Refers (t.erase k) u ref ok :=
  h.sub fun _ _ hr => (lookup_of_erase hr).2

theorem retain (p : κ → ρ → Bool) : Refers (Lib.retain t p) u ref ok :=
  h.sub fun _ _ hr => (lookup_retain.mp hr).2

theorem restrict (p : κ → Bool) : Refers (Lib.restrict t p) u ref ok :=
  h.sub fun k r hr => (mem_lookup_restrict.mp (show r ∈ (Lib.restrict t p).lookup k from hr)).2

/-- A row may be written if what it names is there. -/
theorem insert {k : κ} {r : ρ} (hr : ∀ i, ref k r = some i → ∃ x, u.lookup i = some x ∧ ok r x) :
    Refers (t.insert k r) u ref ok := by
  intro k' r' i hr' hi
  rcases lookup_insert_cases hr' with ⟨rfl, rfl⟩ | ⟨-, hold⟩
  · exact hr i hi
  · exact h k' r' i hold hi

/-- A row of the referred table may be written in the place of one that fitted no more
than it does. -/
theorem write {i : ι} {x : τ}
    (hx : ∀ k r y, t.lookup k = some r → ref k r = some i → u.lookup i = some y → ok r y → ok r x) :
    Refers t (u.insert i x) ref ok := by
  intro k r i' hr hi
  obtain ⟨y, hy, hok⟩ := h k r i' hr hi
  by_cases hii : i' = i
  · subst hii
    exact ⟨x, AList.lookup_insert _, hx k r y hr hi hy hok⟩
  · exact ⟨y, by rw [AList.lookup_insert_ne hii]; exact hy, hok⟩

end

/-- Where any row fits, a table with the same keys and more will do. -/
theorem grow (h : Refers t u ref fun _ _ => True) (hu : ∀ i ∈ u, i ∈ u') :
    Refers t u' ref fun _ _ => True := by
  intro k r i hr hi
  obtain ⟨x, hx, -⟩ := h k r i hr hi
  have hmem : i ∈ u' := hu i (AList.lookup_isSome.mp (Option.isSome_iff_exists.mpr ⟨x, hx⟩))
  obtain ⟨x', hx'⟩ := Option.isSome_iff_exists.mp (AList.lookup_isSome.mpr hmem)
  exact ⟨x', hx', trivial⟩

/-- Rows of the referred table may go if nothing names them. -/
theorem drop (h : Refers t u ref ok) {p : ι → τ → Bool}
    (hp : ∀ k r i x, t.lookup k = some r → ref k r = some i → ok r x → p i x = true) :
    Refers t (Lib.retain u p) ref ok := by
  intro k r i hr hi
  obtain ⟨x, hx, hok⟩ := h k r i hr hi
  exact ⟨x, lookup_retain.mpr ⟨hp k r i x hr hi hok, hx⟩, hok⟩

theorem drop_erase (h : Refers t u ref ok) {i : ι}
    (hi : ∀ k r, t.lookup k = some r → ref k r ≠ some i) : Refers t (u.erase i) ref ok := by
  intro k r j hr hj
  obtain ⟨x, hx, hok⟩ := h k r j hr hj
  refine ⟨x, ?_, hok⟩
  rw [AList.lookup_erase_ne]
  · exact hx
  · rintro rfl
    exact hi k r hr hj

end Refers

end Denia.Lib

/-
  Denia.Lib.Path — paths as TEXT: what `std::path` sees of them, before any file system.

  A path is the list of its segments between slashes, the empty ones and the dots
  included: `a/`, `a/.` and `a` are the same components but not the same path, and the
  kernel follows a symlink `a` in the first two.  Two paths are equal, and one starts with
  the other, by their components.
-/
import Mathlib.Data.List.DropRight

namespace Denia.Lib

/-- A segment of a path. -/
inductive Comp where
  | empty
  | dot
  | up
  | name (n : String)
  deriving DecidableEq

/-- What a segment is. -/
def Comp.ofSegment (s : String) : Comp :=
  if s = "" then .empty else if s = "." then .dot else if s = ".." then .up else .name s

/-- Its text. -/
def Comp.text : Comp → String
  | .empty => ""
  | .dot => "."
  | .up => ".."
  | .name n => n

/-- The segment is not a component: `std::path` does not see it. -/
def Comp.silent : Comp → Bool
  | .empty | .dot => true
  | _ => false

/-- A path, past its leading slash. -/
structure PathText where
  absolute : Bool
  comps : List Comp
  deriving DecidableEq

/-- Split at the slashes. -/
def PathText.parse (s : String) : PathText :=
  match (s.toList.splitOn '/').map String.ofList with
  | "" :: first :: rest => ⟨true, (first :: rest).map Comp.ofSegment⟩
  | segments => ⟨false, segments.map Comp.ofSegment⟩

/-- `Path::display`. -/
def PathText.display (p : PathText) : String :=
  (if p.absolute then "/" else "") ++ "/".intercalate (p.comps.map Comp.text)

/-! ## §1. `std::path`, on the segments of an absolute path. -/

/-- `Path::components`. -/
def components (c : List Comp) : List Comp := c.filter fun x => !x.silent

/-- The path without what it ends in. -/
def trimEnd (c : List Comp) : List Comp := c.rdropWhile Comp.silent

/-- `Path::parent`. -/
def parentPath (c : List Comp) : Option (List Comp) :=
  match trimEnd c with
  | [] => none
  | t => some (trimEnd t.dropLast)

/-- `Path::file_name`. -/
def fileName (c : List Comp) : Option String :=
  match (trimEnd c).getLast? with
  | some (.name n) => some n
  | _ => none

/-- `Path::starts_with`. -/
def startsWith (c start : List Comp) : Bool := (components start).isPrefixOf (components c)

/-- The names of a path, as far as it has some. -/
def names (c : List Comp) : List String :=
  c.filterMap fun
    | .name n => some n
    | _ => none

/-- The part of a path whose symlinks are followed when its last name is not. -/
def followed (c : List Comp) : List Comp :=
  match c.getLast? with
  | some (.name _) => c.dropLast
  | _ => c

/-- Where a path leads when nothing on it is a symlink; two dots may only stand at its end. -/
def endpoint (c : List Comp) : List String :=
  match c.getLast? with
  | some .up => (names c).dropLast
  | _ => names c

/-- The path of a list of names. -/
def ofNames (ns : List String) : List Comp := ns.map .name

/-! ## §2. Lemmas. -/

@[simp] theorem names_ofNames (ns : List String) : names (ofNames ns) = ns := by
  induction ns with
  | nil => rfl
  | cons n ns ih => exact congrArg (n :: ·) ih

@[simp] theorem names_append (a b : List Comp) : names (a ++ b) = names a ++ names b :=
  List.filterMap_append

theorem names_trimEnd (c : List Comp) : names (trimEnd c) = names c := by
  unfold trimEnd
  induction c using List.reverseRecOn with
  | nil => rfl
  | append_singleton c x ih =>
    rw [List.rdropWhile_concat]
    split
    next h =>
      rw [ih, names_append]
      cases x with
      | empty | dot => simp [names]
      | up | name => cases h
    next => rfl

variable {c : List Comp}

theorem mem_of_mem_trimEnd {x : Comp} (h : x ∈ trimEnd c) : x ∈ c :=
  (List.rdropWhile_prefix _ _).subset h

theorem names_components (c : List Comp) : names (components c) = names c := by
  induction c with
  | nil => rfl
  | cons x c ih =>
    cases x with
    | empty | dot | up => exact ih
    | name n => exact congrArg (n :: ·) ih

theorem components_ofNames (ns : List String) : components (ofNames ns) = ofNames ns := by
  induction ns with
  | nil => rfl
  | cons n ns ih => exact congrArg (Comp.name n :: ·) ih

/-- What a path has below the one it starts with. -/
theorem names_of_startsWith {root : List String} (h : startsWith c (ofNames root) = true) :
    names c = root ++ names ((components c).drop root.length) := by
  have hpre : ofNames root <+: components c := by
    rwa [startsWith, components_ofNames, List.isPrefixOf_iff_prefix] at h
  obtain ⟨rest, hrest⟩ := hpre
  have hlen : root.length = (ofNames root).length := by simp [ofNames]
  rw [← names_components c, ← hrest, hlen, List.drop_left, names_append, names_ofNames]

/-- The parent of a path without two dots has all names but the last. -/
theorem parentPath_some {parent : List Comp} (hup : Comp.up ∉ c) (h : parentPath c = some parent) :
    (∃ n, fileName c = some n ∧ names c = names parent ++ [n]) ∧ Comp.up ∉ parent := by
  unfold parentPath at h
  split at h
  next => cases h
  next ht =>
    injection h with h
    have hlast := List.dropLast_append_getLast ht
    have hloud : ¬ ((trimEnd c).getLast ht).silent = true :=
      List.rdropWhile_last_not Comp.silent c ht
    have hmem : (trimEnd c).getLast ht ∈ c := mem_of_mem_trimEnd (List.getLast_mem ht)
    constructor
    · cases hx : (trimEnd c).getLast ht with
      | empty | dot => exact absurd (by rw [hx]; rfl) hloud
      | up => exact absurd (hx ▸ hmem) hup
      | name n =>
        refine ⟨n, ?_, ?_⟩
        · rw [fileName, List.getLast?_eq_some_getLast ht, hx]
        · rw [← names_trimEnd c, ← hlast, hx, names_append, ← h, names_trimEnd]
          rfl
    · intro hmem'
      rw [← h] at hmem'
      exact hup (mem_of_mem_trimEnd (List.dropLast_subset _ (mem_of_mem_trimEnd hmem')))

theorem parentPath_none (h : parentPath c = none) : names c = [] := by
  unfold parentPath at h
  split at h
  next ht => rw [← names_trimEnd, ht]; rfl
  next => cases h

theorem up_not_mem_ofNames (ns : List String) : Comp.up ∉ ofNames ns := by
  simp [ofNames]

end Denia.Lib

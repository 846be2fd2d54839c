/-
  Denia.Oci.Changeset — WHAT A LAYER MEANS, and what reading it as a stream makes of it.

  The reference has two phases: first the whiteouts and opaque markers of a layer remove
  from the lower tree, then its entries are added.  The stream is what the unpacker does:
  entries are added and opaque markers clear as they are read, and a whiteout is queued, if its
  path is there, to the end of the layer.  A tree is a function from the paths below the root.

  Main result: `streamed_eq_reference_iff` — the two agree on a layer EXACTLY if it is
  `Faithful`.
-/
import Mathlib.Data.List.Infix
import Denia.Lib.Run
import Denia.Lib.Tree

namespace Denia.Oci

open Lib

/-! ## §1. Trees and changes. -/

/-- What stands at each path below the root. -/
abbrev View := List String → Option Kind

/-- `q` is at `p` or below it, and not `p`. -/
def Beneath (p q : List String) : Prop := p <+: q ∧ q ≠ p

instance instDecidableBeneath : DecidableRel Beneath := fun p q =>
  inferInstanceAs (Decidable (p <+: q ∧ q ≠ p))

/-- The places on the way to a path. -/
def above (p : List String) : List (List String) := p.inits.filter (· ≠ p)

variable {p q r : List String} {T : View}

theorem mem_above : q ∈ above p ↔ Beneath q p := by
  simp only [above, List.mem_filter, List.mem_inits, Beneath, decide_eq_true_eq]
  exact and_congr_right fun _ => ne_comm

/-- What an entry is; `bytes` is the data the archive has for it. -/
inductive Item where
  | dir
  | file (bytes : List UInt8)
  | link (target : PathText)
  | hardlink (target : Option (List String)) (bytes : List UInt8)
  deriving DecidableEq

/-- What an entry of a layer does. -/
inductive Change where
  | add (path : List String) (item : Item)
  | whiteout (path : List String)
  | opaqueMarker (dir : List String)

/-- What the stream makes of an item: a hardlink is a file of its own. -/
def Item.made : Item → Kind
  | .dir => .dir
  | .file bytes => .file bytes
  | .link target => .link target
  | .hardlink _ bytes => .file bytes

/-- A hardlink. -/
def Item.isHardlink : Item → Bool
  | .hardlink _ _ => true
  | _ => false

/-- The path of an entry that is added. -/
def Change.entryPath : Change → Option (List String)
  | .add p _ => some p
  | _ => none

/-- The change adds an entry below the path. -/
def Change.addsBelow (q : List String) : Change → Bool
  | .add p _ => Beneath q p
  | _ => false

/-- The change adds an entry at the path or below it. -/
def Change.addsWithin (q : List String) : Change → Bool
  | .add p _ => q <+: p
  | _ => false

/-- The change adds something other than a directory above the path. -/
def Change.covers (q : List String) : Change → Bool
  | .add p item => item.made ≠ .dir ∧ Beneath p q
  | _ => false

/-- The change is a marker that removes what the lower tree has at the path. -/
def Change.removes (q : List String) : Change → Bool
  | .whiteout t => t <+: q
  | .opaqueMarker d => Beneath d q
  | .add _ _ => false

/-- The item a layer gives at a path. -/
def itemAt (layer : List Change) (q : List String) : Option Item :=
  layer.findSome? fun
    | .add p item => if p = q then some item else none
    | _ => none

/-! ## §2. The reference. -/

/-- The tree of the two phases, with hardlinks not yet followed: entries stand, and the
directories above them; the rest is of the lower tree, as far as it is not removed. -/
def twoPhase (lower : View) (layer : List Change) : View := fun q =>
  match itemAt layer q with
  | some item => some item.made
  | none =>
      if layer.any (·.addsBelow q) then some .dir
      else if layer.any fun c => c.removes q || c.covers q then none
      else lower q

/-- What stands at a path when hardlinks have the content of their targets; a chain of
hardlinks is followed `n` times. -/
def linked (lower : View) (layer : List Change) : Nat → View
  | 0 => fun _ => none
  | n + 1 => fun q =>
      match itemAt layer q with
      | some (.hardlink target _) => target.bind (linked lower layer n)
      | _ => twoPhase lower layer q

/-- A hardlink leads to something that is no directory. -/
def Change.resolves (lower : View) (layer : List Change) : Change → Bool
  | .add _ (.hardlink target _) =>
      (target.bind (linked lower layer layer.length)).any (· ≠ .dir)
  | _ => true

/-- **The reference semantics** of a layer, which has none if a hardlink leads nowhere. -/
def reference (lower : View) (layer : List Change) : Option View :=
  if layer.all (·.resolves lower layer) then some (linked lower layer (layer.length + 1))
  else none

/-! ## §3. The stream. -/

/-- What a change makes of what stands at a path: an entry brings the directories above
it, and what is no directory covers what was below its path. -/
def Change.touch (q : List String) (k : Option Kind) : Change → Option Kind
  | .add p item =>
      if q = p then some item.made
      else if q <+: p then some .dir
      else if item.made ≠ .dir ∧ p <+: q then none
      else k
  | .whiteout _ => k
  | .opaqueMarker d => if Beneath d q then none else k

/-- The tree after the change. -/
def Change.apply (T : View) (c : Change) : View := fun q => c.touch q (T q)

/-- A path is removed, with all below it. -/
def View.drop (T : View) (t : List String) : View := fun q => if t <+: q then none else T q

/-- The tree so far and the whiteouts that wait. -/
structure Stream where
  tree : View
  queue : List (List String)

/-- What is there lets an entry be added: directories or nothing above it, a directory or
nothing where a directory is given, no directory where a file is given.  A symlink takes
the place of anything. -/
def Allows (T : View) (p : List String) (item : Item) : Prop :=
  (∀ q ∈ above p, T q = none ∨ T q = some .dir) ∧
    match item with
    | .dir => T p = none ∨ T p = some .dir
    | .link _ => p ≠ []
    | .file _ | .hardlink _ _ => T p ≠ some .dir

instance (T : View) (p : List String) (item : Item) : Decidable (Allows T p item) := by
  unfold Allows
  cases item <;> exact inferInstance

/-- One entry. -/
def Stream.step (s : Stream) : Change → Option Stream
  | .add p item =>
      if Allows s.tree p item then some { s with tree := (Change.add p item).apply s.tree }
      else none
  | .whiteout t =>
      some (if (s.tree t).isSome then { s with queue := s.queue ++ [t] } else s)
  | .opaqueMarker d => some { s with tree := (Change.opaqueMarker d).apply s.tree }

/-- The end of the layer. -/
def Stream.finish (s : Stream) : View := s.queue.foldl View.drop s.tree

/-- A layer, read as a stream. -/
def streamed (lower : View) (layer : List Change) : Option View :=
  (exec Stream.step ⟨lower, []⟩ layer).map Stream.finish

/-! ## §4. Layers, and when the stream is faithful. -/

/-- The places above the path of a change. -/
def Change.parents : Change → List (List String)
  | .add p _ | .whiteout p => above p
  | .opaqueMarker d => d.inits

/-- No path is given twice, and none has a symlink above it, in the lower tree or in the
layer. -/
structure Described (lower : View) (layer : List Change) : Prop where
  once : (layer.filterMap Change.entryPath).Nodup
  parents : ∀ c ∈ layer, ∀ q ∈ c.parents,
    ∀ target, lower q ≠ some (.link target) ∧ .add q (.link target) ∉ layer

/-- A change has something stand at a path, or nothing, or leaves it. -/
def Change.shows (t : List String) (shown : Bool) : Change → Bool
  | .add p item =>
      if t <+: p then true else if item.made ≠ .dir ∧ p <+: t then false else shown
  | .whiteout _ => shown
  | .opaqueMarker d => if Beneath d t then false else shown

/-- Something stands at the path when the changes have been read. -/
def shown (lower : View) (before : List Change) (t : List String) : Bool :=
  before.foldl (fun b c => c.shows t b) (lower t).isSome

/-- An opaque marker takes the entry away for good: it is no directory that a later entry
brings back. -/
def Change.lostTo (d : List String) (after : List Change) : Change → Bool
  | .add p item => Beneath d p && !(item = .dir && after.any (·.addsBelow p))
  | _ => false

/-- The stream does to the change what the reference does: a hardlink has the bytes of its
target, an opaque marker takes away no entry of the layer, and a whiteout that finds its
path has no entry there. -/
def Change.keeps (lower : View) (layer before after : List Change) : Change → Bool
  | .add _ (.hardlink target bytes) =>
      target.bind (linked lower layer layer.length) = some (.file bytes)
  | .add _ _ => true
  | .opaqueMarker d => before.all fun c => !c.lostTo d after
  | .whiteout t => !shown lower before t || layer.all fun c => !c.addsWithin t

/-- `f` holds of each element with those before and after it. -/
def eachSplit {α : Type*} (f : List α → α → List α → Bool) : List α → List α → Bool
  | _, [] => true
  | before, a :: after => f before a after && eachSplit f (before ++ [a]) after

theorem eachSplit_iff {α : Type*} {f : List α → α → List α → Bool} {before l : List α} :
    eachSplit f before l = true ↔
      ∀ xs a ys, l = xs ++ a :: ys → f (before ++ xs) a ys = true := by
  induction l generalizing before with
  | nil => simp [eachSplit]
  | cons b l ih =>
    rw [eachSplit, Bool.and_eq_true, ih]
    constructor
    · rintro ⟨hfirst, hrest⟩ (_ | ⟨x, xs⟩) a ys hsplit
      · cases hsplit
        simpa using hfirst
      · cases hsplit
        simpa using hrest xs a ys rfl
    · intro h
      refine ⟨by simpa using h [] b l rfl, fun xs a ys hsplit => ?_⟩
      simpa using h (b :: xs) a ys (by rw [hsplit]; rfl)

/-- Every change of the layer is faithful. -/
def Faithful (lower : View) (layer : List Change) : Prop :=
  eachSplit (fun before c after => c.keeps lower layer before after) [] layer = true

variable {lower : View} {layer : List Change}

theorem faithful_iff : Faithful lower layer ↔ ∀ before c after, layer = before ++ c :: after →
      c.keeps lower layer before after = true := by
  unfold Faithful
  rw [eachSplit_iff]
  rfl

/-! ## §5. Trees stay trees. -/

/-- What is there lies in directories. -/
def Closed (T : View) : Prop := ∀ p n, T (p ++ [n]) ≠ none → T p = some .dir

variable {n : String}

/-- A directory has no longer path. -/
theorem not_concat_prefix : ¬ p ++ [n] <+: p :=
  fun hpre => absurd hpre.length_le (by simp)

theorem beneath_concat : Beneath p (q ++ [n]) ↔ p <+: q := by
  constructor
  · rintro ⟨hpre, hne⟩
    exact (List.prefix_concat_iff.mp hpre).resolve_left fun heq => hne heq.symm
  · intro hq
    refine ⟨hq.trans (List.prefix_append q [n]), ?_⟩
    rintro rfl
    exact not_concat_prefix hq

theorem prefix_antisymm (hpq : p <+: q) (hqp : q <+: p) : p = q :=
  hpq.eq_of_length_le hqp.length_le

theorem Beneath.trans_prefix (hpq : Beneath p q) (hqr : q <+: r) : Beneath p r := by
  refine ⟨hpq.1.trans hqr, ?_⟩
  rintro rfl
  exact hpq.2 (prefix_antisymm hqr hpq.1)

theorem Closed.above (hT : Closed T) (hpq : Beneath p q) (hq : T q ≠ none) : T p = some .dir := by
  induction q using List.reverseRecOn with
  | nil => exact absurd (List.prefix_nil.mp hpq.1).symm hpq.2
  | append_singleton q n ih =>
    have hparent := hT q n hq
    by_cases heq : q = p
    · exact heq ▸ hparent
    · exact ih ⟨beneath_concat.mp hpq, heq⟩ (by simp [hparent])

theorem Closed.none_within (hT : Closed T) (hpq : p <+: q) (hp : T p = none) : T q = none := by
  by_contra hq
  by_cases heq : q = p
  · exact hq (heq ▸ hp)
  · cases hp.symm.trans (hT.above ⟨hpq, heq⟩ hq)

theorem Closed.drop (hT : Closed T) (t : List String) : Closed (T.drop t) := by
  intro q n hq
  unfold View.drop at hq ⊢
  split at hq
  next => exact absurd rfl hq
  next ht =>
    rw [if_neg fun h => ht (h.trans (List.prefix_append q [n]))]
    exact hT q n hq

theorem Closed.marker (hT : Closed T) (d : List String) :
    Closed ((Change.opaqueMarker d).apply T) := by
  intro q n hq
  simp only [Change.apply, Change.touch] at hq ⊢
  split at hq
  next => exact absurd rfl hq
  next hd =>
    rw [if_neg fun h => hd (h.trans_prefix (List.prefix_append q [n]))]
    exact hT q n hq

theorem Closed.add (hT : Closed T) (p : List String) (item : Item) :
    Closed ((Change.add p item).apply T) := by
  intro q n hq
  simp only [Change.apply, Change.touch] at hq ⊢
  by_cases hqp : Beneath q p
  · -- a directory above the new entry
    rw [if_neg fun heq => hqp.2 heq.symm, if_pos hqp.1]
  · have hlong : ¬ q ++ [n] <+: p := fun h => hqp (Beneath.trans_prefix (beneath_concat.mpr
      List.prefix_rfl) h)
    have hother : q ++ [n] ≠ p := fun heq => hlong (heq ▸ List.prefix_rfl)
    rw [if_neg hother, if_neg hlong] at hq
    split at hq
    next => exact absurd rfl hq
    next hcover =>
      by_cases heq : q = p
      · rw [if_pos heq]
        by_contra hdir
        exact hcover ⟨fun h => hdir (congrArg some h), heq ▸ List.prefix_append q [n]⟩
      · rw [if_neg heq, if_neg fun h => hqp ⟨h, fun h' => heq h'.symm⟩,
          if_neg fun h => hcover ⟨h.1, h.2.trans (List.prefix_append q [n])⟩]
        exact hT q n hq

variable {bytes : List UInt8}

section
variable {s s' : Stream} {rest : List Change} {c : Change} {item : Item} {k : Kind}
  {o : Option Kind} {n : Nat} {target : Option (List String)} {R : View}

/-- What a step does to the tree, path by path. -/
theorem step_tree (h : s.step c = some s') (q : List String) :
    s'.tree q = c.touch q (s.tree q) := by
  cases c with
  | add =>
    simp only [Stream.step] at h
    split at h <;> cases h
    rfl
  | whiteout =>
    cases h
    split <;> rfl
  | opaqueMarker =>
    cases h
    rfl

theorem step_allows (h : s.step (.add p item) = some s') : Allows s.tree p item := by
  simp only [Stream.step] at h
  split at h
  next hallows => exact hallows
  next => cases h

theorem closed_step (hs : Closed s.tree) (h : s.step c = some s') : Closed s'.tree := by
  have htree : s'.tree = c.apply s.tree := funext (step_tree h)
  rw [htree]
  cases c with
  | add p item => exact hs.add p item
  | whiteout => exact hs
  | opaqueMarker d => exact hs.marker d

theorem closed_exec (hs : Closed s.tree) (h : exec Stream.step s layer = some s') :
    Closed s'.tree :=
  exec_invariant_all (fun s => Closed s.tree) (fun _ _ _ hs hstep => closed_step hs hstep) hs h

/-- The tree after a run, path by path. -/
theorem exec_tree (h : exec Stream.step s layer = some s') (q : List String) :
    s'.tree q = layer.foldl (Change.touch q) (s.tree q) := by
  induction layer generalizing s with
  | nil =>
    cases h
    rfl
  | cons c layer ih =>
    obtain ⟨s1, hs1, h⟩ := exec_cons h
    rw [ih h, step_tree hs1]
    rfl

theorem finish_eq (s : Stream) (q : List String) :
    s.finish q = if s.queue.any (· <+: q) then none else s.tree q := by
  obtain ⟨tree, queue⟩ := s
  unfold Stream.finish
  show queue.foldl View.drop tree q = if queue.any (· <+: q) then none else tree q
  induction queue generalizing tree with
  | nil => rfl
  | cons t queue ih =>
    rw [List.foldl_cons, ih, List.any_cons]
    unfold View.drop
    by_cases ht : t <+: q <;> simp [ht]

theorem closed_finish (hs : Closed s.tree) : Closed s.finish := by
  obtain ⟨tree, queue⟩ := s
  show Closed (queue.foldl View.drop tree)
  induction queue generalizing tree with
  | nil => exact hs
  | cons t queue ih => exact ih (tree.drop t) (Closed.drop hs t)

/-- What a change shows is whether something stands there. -/
theorem isSome_touch (c : Change) (t : List String) (k : Option Kind) :
    (c.touch t k).isSome = c.shows t k.isSome := by
  cases c with
  | add p =>
    by_cases heq : t = p
    · simp [Change.touch, Change.shows, heq]
    · simp only [Change.touch, Change.shows, if_neg heq]
      split
      · rfl
      · split <;> rfl
  | whiteout => rfl
  | opaqueMarker =>
    rw [Change.touch, Change.shows]
    split <;> rfl

theorem isSome_foldl_touch (before : List Change) (t : List String) (k : Option Kind) :
    (before.foldl (Change.touch t) k).isSome = before.foldl (fun b c => c.shows t b) k.isSome := by
  induction before generalizing k with
  | nil => rfl
  | cons c before ih => rw [List.foldl_cons, ih, List.foldl_cons, isSome_touch]

/-- **What is queued**: the whiteouts whose paths were shown when they were read. -/
theorem mem_queue (h : exec Stream.step s layer = some s') (t : List String) :
    t ∈ s'.queue ↔ t ∈ s.queue ∨ ∃ before after, layer = before ++ .whiteout t :: after ∧
      shown s.tree before t = true := by
  induction layer generalizing s with
  | nil =>
    cases h
    simp
  | cons c layer ih =>
    obtain ⟨s1, hs1, h⟩ := exec_cons h
    -- one step shifts what is shown by its change
    have hshown : ∀ before, shown s1.tree before t = shown s.tree (c :: before) t := by
      intro before
      unfold shown
      rw [step_tree hs1, List.foldl_cons, isSome_touch]
    have hqueue : t ∈ s1.queue ↔ t ∈ s.queue ∨ (c = .whiteout t ∧ (s.tree t).isSome = true) := by
      cases c with
      | add =>
        simp only [Stream.step] at hs1
        split at hs1 <;> cases hs1
        simp
      | whiteout u =>
        cases hs1
        by_cases hut : u = t
        · subst hut
          split
          next hu => simp [hu]
          next hu => simp [hu]
        · split <;> simp [hut, Ne.symm hut]
      | opaqueMarker =>
        cases hs1
        simp
    rw [ih h, hqueue]
    constructor
    · rintro ((hq | ⟨rfl, ht⟩) | ⟨before, after, rfl, hb⟩)
      · exact .inl hq
      · exact .inr ⟨[], layer, rfl, ht⟩
      · exact .inr ⟨c :: before, after, rfl, hshown before ▸ hb⟩
    · rintro (hq | ⟨before, after, hsplit, hb⟩)
      · exact .inl (.inl hq)
      · cases before with
        | nil =>
          obtain ⟨rfl, -⟩ := List.cons.inj hsplit
          exact .inl (.inr ⟨rfl, hb⟩)
        | cons b before =>
          obtain ⟨rfl, hl⟩ := List.cons.inj hsplit
          exact .inr ⟨before, after, hl, (hshown before).trans hb⟩

/-! ## §6. What stands at an entry's path. -/

/-- **An entry stands to the end**, if what an opaque marker takes away is a directory that a
later entry brings back. -/
theorem entry_stands (h : exec Stream.step s rest = some s') (hclosed : Closed s.tree)
    (hq : ∀ item, .add q item ∉ rest)
    (hlinks : ∀ p target, .add p (.link target) ∈ rest → ¬ Beneath p q)
    (hmarkers : ∀ xs d ys, rest = xs ++ .opaqueMarker d :: ys → Beneath d q →
      k = .dir ∧ ys.any (·.addsBelow q) = true) (hnow : s.tree q = some k ∨
      s.tree q = none ∧ k = .dir ∧ rest.any (·.addsBelow q) = true) : s'.tree q = some k := by
  induction rest generalizing s with
  | nil =>
    cases h
    rcases hnow with hnow | ⟨-, -, hany⟩
    · exact hnow
    · cases hany
  | cons c rest ih =>
    obtain ⟨s1, hs1, h⟩ := exec_cons h
    refine ih h (closed_step hclosed hs1) (fun item hmem => hq item (List.mem_cons_of_mem _ hmem))
      (fun p target hmem => hlinks p target (List.mem_cons_of_mem _ hmem))
      (fun xs d ys hsplit => hmarkers (c :: xs) d ys (by rw [hsplit]; rfl)) ?_
    have htree := step_tree hs1 q
    cases c with
    | add p item =>
      have hne : q ≠ p := by
        rintro rfl
        exact hq item List.mem_cons_self
      by_cases hbelow : Beneath q p
      · -- an entry below: the path is a directory, before and after
        have hdir : k = .dir := by
          rcases hnow with hnow | ⟨-, hdir, -⟩
          · simpa [hnow] using (step_allows hs1).1 q (mem_above.mpr hbelow)
          · exact hdir
        rw [Change.touch, if_neg hne, if_pos hbelow.1] at htree
        exact .inl (hdir ▸ htree)
      · have hpre : ¬ q <+: p := fun hp => hbelow ⟨hp, fun heq => hne heq.symm⟩
        simp only [List.any_cons, Change.addsBelow, hbelow, decide_false, Bool.false_or] at hnow
        rw [Change.touch, if_neg hne, if_neg hpre] at htree
        split at htree
        next hcover =>
          have hpq : Beneath p q := ⟨hcover.2, hne⟩
          rcases hnow with hnow | ⟨-, hdir, hany⟩
          · -- a file above something that stands is refused, and a symlink is not given
            have hdir := hclosed.above hpq (by simp [hnow])
            have hallows := (step_allows hs1).2
            cases item with
            | dir => exact absurd rfl hcover.1
            | link target => exact absurd hpq (hlinks p target List.mem_cons_self)
            | file bytes | hardlink target bytes => exact absurd hdir hallows
          · exact .inr ⟨htree, hdir, hany⟩
        next => rwa [htree]
    | whiteout => rwa [htree]
    | opaqueMarker d =>
      rw [Change.touch] at htree
      split at htree
      next hd => exact .inr ⟨htree, hmarkers [] d rest rfl hd⟩
      next => rwa [htree]

/-- Past its entry a path has what was made there, a directory, or nothing. -/
theorem foldl_touch_cases (hq : ∀ item, .add q item ∉ rest)
    (ho : o = none ∨ o = some .dir ∨ o = some k) :
    rest.foldl (Change.touch q) o = none ∨ rest.foldl (Change.touch q) o = some .dir ∨
      rest.foldl (Change.touch q) o = some k := by
  induction rest generalizing o with
  | nil => exact ho
  | cons c rest ih =>
    refine ih (fun item hmem => hq item (List.mem_cons_of_mem _ hmem)) ?_
    cases c with
    | add p item =>
      have hne : q ≠ p := by
        rintro rfl
        exact hq item List.mem_cons_self
      rw [Change.touch, if_neg hne]
      split
      · simp
      · split <;> simp [ho]
    | whiteout => exact ho
    | opaqueMarker =>
      rw [Change.touch]
      split <;> simp [ho]

/-- The change takes away what stands at the path as soon as it is read. -/
def Change.wipes (q : List String) : Change → Bool
  | .opaqueMarker d => Beneath d q
  | c => c.covers q

theorem touch_bare (hbare : c.addsWithin q = false) :
    c.touch q o = if c.wipes q then none else o := by
  cases c with
  | add p =>
    have hpre : ¬ q <+: p := of_decide_eq_false hbare
    have hne : ¬ q = p := fun heq => hpre (heq ▸ List.prefix_rfl)
    rw [Change.touch, if_neg hne, if_neg hpre]
    simp [Change.wipes, Change.covers, Beneath, hne]
  | whiteout => rfl
  | opaqueMarker => simp [Change.touch, Change.wipes]

/-- Where nothing is added, at the path or below, what stands there is what stood, or
nothing. -/
theorem foldl_touch_bare (hbare : rest.any (·.addsWithin q) = false) :
    rest.foldl (Change.touch q) o = if rest.any (·.wipes q) then none else o := by
  induction rest generalizing o with
  | nil => rfl
  | cons c rest ih =>
    rw [List.any_cons, Bool.or_eq_false_iff] at hbare
    rw [List.foldl_cons, ih hbare.2, touch_bare hbare.1, List.any_cons]
    cases hc : c.wipes q <;> cases hr : rest.any (·.wipes q) <;> rfl

/-! ## §7. The entries of a layer. -/

theorem mem_of_itemAt (h : itemAt layer q = some item) : .add q item ∈ layer := by
  obtain ⟨c, hc, hfound⟩ := List.exists_of_findSome?_eq_some h
  cases c with
  | add p item' =>
    obtain ⟨rfl, rfl⟩ : p = q ∧ item' = item := by simpa using hfound
    exact hc
  | whiteout | opaqueMarker => cases hfound

theorem not_mem_of_itemAt (h : itemAt layer q = none) (item : Item) : .add q item ∉ layer := by
  intro hmem
  have hnone := List.findSome?_eq_none_iff.mp h _ hmem
  simp at hnone

/-- A path that is given once is given nowhere else. -/
theorem Described.alone (hd : Described lower layer) {before after : List Change}
    (hsplit : layer = before ++ .add q item :: after) (item' : Item) :
    .add q item' ∉ before ∧ .add q item' ∉ after := by
  have honce := hd.once
  have hhead : (Change.add q item :: after).filterMap Change.entryPath =
      q :: after.filterMap Change.entryPath := rfl
  rw [hsplit, List.filterMap_append, hhead, List.nodup_middle, List.nodup_cons, List.mem_append,
    not_or] at honce
  constructor
  · exact fun hmem => honce.1.1 (List.mem_filterMap.mpr ⟨_, hmem, rfl⟩)
  · exact fun hmem => honce.1.2 (List.mem_filterMap.mpr ⟨_, hmem, rfl⟩)

theorem Described.itemAt_eq (hd : Described lower layer) (hmem : .add q item ∈ layer) :
    itemAt layer q = some item := by
  cases hentry : itemAt layer q with
  | none => exact absurd hmem (not_mem_of_itemAt hentry item)
  | some =>
    obtain ⟨before, after, hsplit⟩ := List.append_of_mem (mem_of_itemAt hentry)
    obtain ⟨hbefore, hafter⟩ := hd.alone hsplit item
    rw [hsplit, List.mem_append, List.mem_cons] at hmem
    rcases hmem with hmem | heq | hmem
    · exact absurd hmem hbefore
    · rw [(Change.add.inj heq).2]
    · exact absurd hmem hafter

theorem any_addsWithin (h : layer.any (·.addsWithin q) = true) :
    ∃ p item, .add p item ∈ layer ∧ q <+: p := by
  obtain ⟨c, hc, hadds⟩ := List.any_eq_true.mp h
  cases c with
  | add p item => exact ⟨p, item, hc, of_decide_eq_true hadds⟩
  | whiteout | opaqueMarker => cases hadds

theorem any_addsBelow :
    layer.any (·.addsBelow q) = true ↔ ∃ p item, .add p item ∈ layer ∧ Beneath q p := by
  rw [List.any_eq_true]
  constructor
  · rintro ⟨c, hc, hadds⟩
    cases c with
    | add p item => exact ⟨p, item, hc, of_decide_eq_true hadds⟩
    | whiteout | opaqueMarker => cases hadds
  · rintro ⟨p, item, hmem, hbelow⟩
    exact ⟨_, hmem, decide_eq_true hbelow⟩

/-! ## §8. The stream and the reference. -/

/-- **Entries stand in the streamed tree** of a faithful layer. -/
theorem Faithful.entry_stands (hf : Faithful lower layer) (hlower : Closed lower)
    (hd : Described lower layer) (h : exec Stream.step ⟨lower, []⟩ layer = some s)
    (hmem : .add q item ∈ layer) : s.finish q = some item.made := by
  obtain ⟨before, after, hsplit⟩ := List.append_of_mem hmem
  have hkeeps := faithful_iff.mp hf
  have hmade : s.tree q = some item.made := by
    rw [hsplit] at h
    obtain ⟨s1, hs1, h⟩ := exec_append h
    obtain ⟨s2, hs2, h⟩ := exec_cons h
    refine Oci.entry_stands h (closed_step (closed_exec hlower hs1) hs2)
      (fun item' => (hd.alone hsplit item').2) ?_ ?_ (.inl ?_)
    · intro p target hlink hbelow
      refine (hd.parents _ hmem p (mem_above.mpr hbelow) target).2 ?_
      rw [hsplit]
      exact List.mem_append_right _ (List.mem_cons_of_mem _ hlink)
    · intro xs d ys hafter hbelow
      have hmarker := hkeeps (before ++ .add q item :: xs) (.opaqueMarker d) ys
        (by rw [hsplit, hafter, List.append_assoc, List.cons_append])
      have hnot : (Change.add q item).lostTo d ys = false := by
        have hall := List.all_eq_true.mp hmarker (.add q item)
          (List.mem_append_right _ List.mem_cons_self)
        exact Bool.not_eq_true' _ ▸ hall
      simp only [Change.lostTo, hbelow, decide_true, Bool.true_and, Bool.not_eq_false',
        Bool.and_eq_true, decide_eq_true_iff] at hnot
      exact ⟨by rw [hnot.1]; rfl, hnot.2⟩
    · rw [step_tree hs2, Change.touch, if_pos rfl]
  rw [finish_eq, if_neg, hmade]
  intro hqueued
  -- a faithful whiteout hides no entry of its own layer
  obtain ⟨t, ht, hpre⟩ := List.any_eq_true.mp hqueued
  rcases (mem_queue h t).mp ht with hnil | ⟨xs, ys, hwhite, hshown⟩
  · cases hnil
  · have hwhiteout := hkeeps xs (.whiteout t) ys hwhite
    simp only [Change.keeps, hshown, Bool.not_true, Bool.false_or] at hwhiteout
    have hnot := List.all_eq_true.mp hwhiteout _ hmem
    simp only [Change.addsWithin, Bool.not_eq_true', decide_eq_false_iff_not] at hnot
    exact hnot (of_decide_eq_true hpre)

/-- What the reference has at the path of a hardlink. -/
theorem linked_hardlink (hentry : itemAt layer q = some (.hardlink target bytes)) :
    linked lower layer (n + 1) q = target.bind (linked lower layer n) := by
  simp only [linked, hentry]

/-- What it has at the path of any other entry. -/
theorem linked_entry (hentry : itemAt layer q = some item) (hplain : item.isHardlink = false) :
    linked lower layer (n + 1) q = some item.made := by
  cases item with
  | hardlink => cases hplain
  | dir | file | link => simp only [linked, twoPhase, hentry]

/-- Where the layer has no entry, the reference has the directories above entries and what
is left of the lower tree. -/
theorem linked_bare (hentry : itemAt layer q = none) : linked lower layer (n + 1) q =
      if layer.any (·.addsBelow q) then some .dir
      else if layer.any fun c => c.removes q || c.covers q then none
      else lower q := by
  simp only [linked, twoPhase, hentry]

/-- The streamed tree where the layer adds nothing. -/
theorem finish_bare (hlower : Closed lower) (h : exec Stream.step ⟨lower, []⟩ layer = some s)
    (hbare : layer.any (·.addsWithin q) = false) :
    s.finish q = if layer.any (fun c => c.removes q || c.covers q) then none else lower q := by
  have htree := exec_tree h q
  rw [foldl_touch_bare hbare] at htree
  rw [finish_eq]
  by_cases hgone : layer.any (fun c => c.removes q || c.covers q) = true
  · rw [if_pos hgone]
    split
    next => rfl
    next hnot =>
      obtain ⟨c, hc, hgone⟩ := List.any_eq_true.mp hgone
      by_cases hwipes : c.wipes q = true
      · rw [htree, if_pos (List.any_eq_true.mpr ⟨c, hc, hwipes⟩)]
      · -- a whiteout that was not queued has found nothing
        cases c with
        | add | opaqueMarker => simp_all [Change.wipes, Change.removes, Change.covers]
        | whiteout t =>
          have hpre : t <+: q := by
            simpa [Change.removes, Change.covers] using hgone
          obtain ⟨before, after, hsplit⟩ := List.append_of_mem hc
          have hunseen : shown lower before t ≠ true := by
            intro hshown
            refine hnot (List.any_eq_true.mpr ⟨t, ?_, decide_eq_true hpre⟩)
            exact (mem_queue h t).mpr (.inr ⟨before, after, hsplit, hshown⟩)
          rw [hsplit] at h hbare
          obtain ⟨s1, hs1, h⟩ := exec_append h
          have hnone : s1.tree t = none := by
            rwa [exec_tree hs1, ← Option.not_isSome_iff_eq_none, isSome_foldl_touch]
          have hq : s1.tree q = none := (closed_exec hlower hs1).none_within hpre hnone
          rw [List.any_append, Bool.or_eq_false_iff] at hbare
          rw [exec_tree h, foldl_touch_bare hbare.2, hq]
          split <;> rfl
  · rw [if_neg hgone]
    have hkept : ∀ c ∈ layer, c.removes q = false ∧ c.covers q = false := by
      simpa using hgone
    have hqueue : s.queue.any (· <+: q) = false := by
      rw [List.any_eq_false]
      intro t ht hpre
      rcases (mem_queue h t).mp ht with hnil | ⟨before, after, hsplit, -⟩
      · cases hnil
      · have hmem : Change.whiteout t ∈ layer := by
          rw [hsplit]
          exact List.mem_append_right _ List.mem_cons_self
        exact absurd (hpre.symm.trans (hkept _ hmem).1) Bool.noConfusion
    have hwipes : layer.any (·.wipes q) = false := by
      rw [List.any_eq_false]
      intro c hc hwipes
      obtain ⟨hremoves, hcovers⟩ := hkept c hc
      cases c with
      | add | whiteout => cases hwipes.symm.trans hcovers
      | opaqueMarker => cases hwipes.symm.trans hremoves
    rw [hqueue, htree, hwipes]
    rfl

/-- A faithful layer's stream is the reference. -/
theorem Faithful.reference_eq (hf : Faithful lower layer) (hlower : Closed lower)
    (hd : Described lower layer) (h : exec Stream.step ⟨lower, []⟩ layer = some s) :
    reference lower layer = some s.finish := by
  have hkeeps := faithful_iff.mp hf
  -- a hardlink leads to the bytes that the stream has for it
  have hlink : ∀ q target bytes, .add q (.hardlink target bytes) ∈ layer →
      target.bind (linked lower layer layer.length) = some (.file bytes) := by
    intro q target bytes hmem
    obtain ⟨before, after, hsplit⟩ := List.append_of_mem hmem
    exact of_decide_eq_true (hkeeps before _ after hsplit)
  have hresolves : layer.all (·.resolves lower layer) = true := by
    rw [List.all_eq_true]
    intro c hc
    cases c with
    | add q item =>
      cases item with
      | hardlink target bytes => simp [Change.resolves, hlink q target bytes hc]
      | dir | file | link => rfl
    | whiteout | opaqueMarker => rfl
  have hstands : ∀ q item, .add q item ∈ layer → s.finish q = some item.made :=
    fun q item hmem => hf.entry_stands hlower hd h hmem
  unfold reference
  rw [if_pos hresolves]
  refine congrArg some (funext fun q => ?_)
  cases hentry : itemAt layer q with
  | some item =>
    have hmem := mem_of_itemAt hentry
    rw [hstands q item hmem]
    cases item with
    | hardlink target bytes => rw [linked_hardlink hentry, hlink q target bytes hmem, Item.made]
    | dir | file | link => exact linked_entry hentry rfl
  | none =>
    rw [linked_bare hentry]
    by_cases hbelow : layer.any (·.addsBelow q) = true
    · -- an entry below stands, so the path is a directory
      rw [if_pos hbelow]
      obtain ⟨p, item, hmem, hqp⟩ := any_addsBelow.mp hbelow
      have hclosed : Closed s.finish := closed_finish (closed_exec hlower h)
      exact (hclosed.above hqp (by simp [hstands p item hmem])).symm
    · rw [if_neg hbelow]
      have hbare : layer.any (·.addsWithin q) = false := by
        rw [← Bool.not_eq_true]
        intro hany
        obtain ⟨p, item, hmem, hpre⟩ := any_addsWithin hany
        by_cases heq : p = q
        · exact not_mem_of_itemAt hentry item (heq ▸ hmem)
        · exact hbelow (any_addsBelow.mpr ⟨p, item, hmem, hpre, heq⟩)
      exact (finish_bare hlower h hbare).symm

/-- Where the reference is defined, a hardlink leads to what stands at its path. -/
theorem reference_hardlink (hd : Described lower layer) (hR : reference lower layer = some R)
    (hmem : .add q (.hardlink target bytes) ∈ layer) :
    ∃ k, k ≠ .dir ∧ R q = some k ∧ target.bind (linked lower layer layer.length) = some k := by
  unfold reference at hR
  split at hR <;> cases hR
  next hresolves =>
    have hres := List.all_eq_true.mp hresolves _ hmem
    rw [linked_hardlink (hd.itemAt_eq hmem)]
    simp only [Change.resolves] at hres
    cases hk : target.bind (linked lower layer layer.length) with
    | none =>
      simp [hk] at hres
    | some k =>
      rw [hk] at hres
      exact ⟨k, of_decide_eq_true hres, rfl, rfl⟩

/-- The reference has something at the path of each entry, and a directory only where the
entry is one. -/
theorem reference_entry (hd : Described lower layer) (hR : reference lower layer = some R)
    (hmem : .add q item ∈ layer) : ∃ k, R q = some k ∧ (k = .dir → item = .dir) := by
  cases hplain : item.isHardlink with
  | false =>
    unfold reference at hR
    split at hR <;> cases hR
    refine ⟨item.made, linked_entry (hd.itemAt_eq hmem) hplain, ?_⟩
    cases item <;> simp [Item.made]
  | true =>
    cases item with
    | hardlink =>
      obtain ⟨k, hk, hRq, -⟩ := reference_hardlink hd hR hmem
      exact ⟨k, hRq, fun heq => absurd heq hk⟩
    | dir | file | link => cases hplain

/-- What stands in the streamed tree was not dropped at the end. -/
theorem finish_some (h : s.finish q = some k) : s.tree q = some k ∧ ∀ t ∈ s.queue, ¬ t <+: q := by
  rw [finish_eq] at h
  split at h
  next => cases h
  next hnot => exact ⟨h, by simpa using hnot⟩

/-- **The stream is the reference only on faithful layers.** -/
theorem faithful_of_reference (hd : Described lower layer)
    (h : exec Stream.step ⟨lower, []⟩ layer = some s)
    (hR : reference lower layer = some s.finish) : Faithful lower layer := by
  rw [faithful_iff]
  intro before c after hsplit
  have hmem : c ∈ layer := by
    rw [hsplit]
    exact List.mem_append_right _ List.mem_cons_self
  cases c with
  | add q item =>
    cases item with
    | hardlink target bytes =>
      -- the path has what was made there, or a directory; the target is no directory
      obtain ⟨k, hk, hRq, hlink⟩ := reference_hardlink hd hR hmem
      have htree := (finish_some hRq).1
      rw [hsplit] at h
      rw [exec_tree h, List.foldl_append, List.foldl_cons, Change.touch, if_pos rfl] at htree
      have hcases := foldl_touch_cases (fun item' => (hd.alone hsplit item').2)
        (.inr (.inr rfl : _ ∨ some (Item.hardlink target bytes).made = some _))
      rw [htree] at hcases
      rcases hcases with hnone | hdir | hfile
      · cases hnone
      · exact absurd (Option.some.inj hdir) hk
      · rw [hfile] at hlink
        exact decide_eq_true hlink
    | dir | file | link => rfl
  | whiteout t =>
    simp only [Change.keeps]
    cases hshown : shown lower before t with
    | false => rfl
    | true =>
      -- it was queued, and nothing stands at its path or below
      have hqueued : t ∈ s.queue :=
        (mem_queue h t).mpr (.inr ⟨before, after, hsplit, hshown⟩)
      rw [Bool.not_true, Bool.false_or, List.all_eq_true]
      intro c hc
      cases c with
      | add =>
        obtain ⟨k, hRq, -⟩ := reference_entry hd hR hc
        simpa [Change.addsWithin] using (finish_some hRq).2 t hqueued
      | whiteout | opaqueMarker => rfl
  | opaqueMarker d =>
    simp only [Change.keeps, List.all_eq_true, Bool.not_eq_true']
    intro c hc
    cases c with
    | whiteout | opaqueMarker => rfl
    | add q item =>
      by_cases hbelow : Beneath d q
      · obtain ⟨k, hRq, hdir⟩ := reference_entry hd hR (hsplit ▸ List.mem_append_left _ hc)
        have htree := (finish_some hRq).1
        have halone : ∀ item', .add q item' ∉ after := by
          obtain ⟨xs, ys, hbefore⟩ := List.append_of_mem hc
          have hsplit' : layer = xs ++ .add q item :: (ys ++ .opaqueMarker d :: after) := by
            rw [hsplit, hbefore, List.append_assoc, List.cons_append]
          intro item' hafter
          exact (hd.alone hsplit' item').2
            (List.mem_append_right _ (List.mem_cons_of_mem _ hafter))
        rw [hsplit] at h
        rw [exec_tree h, List.foldl_append, List.foldl_cons, Change.touch, if_pos hbelow]
          at htree
        -- the marker took the path away; it stands in the end because an entry below remade it
        have hany : after.any (·.addsBelow q) = true := by
          by_contra hnot
          have hbare : after.any (·.addsWithin q) = false := by
            rw [← Bool.not_eq_true]
            intro hwithin
            obtain ⟨p, item', hp, hpre⟩ := any_addsWithin hwithin
            by_cases heq : p = q
            · exact halone item' (heq ▸ hp)
            · exact hnot (any_addsBelow.mpr ⟨p, item', hp, hpre, heq⟩)
          rw [foldl_touch_bare hbare] at htree
          split at htree <;> cases htree
        have hcases := foldl_touch_cases (k := .dir) halone (.inl rfl)
        rw [htree] at hcases
        have hk : k = .dir := by simpa using hcases
        simp [Change.lostTo, hdir hk, hany]
      · simp [Change.lostTo, hbelow]

/-- **The stream and the reference agree on a layer exactly if it is faithful.** -/
theorem streamed_eq_reference_iff (hlower : Closed lower) (hd : Described lower layer)
    (h : streamed lower layer = some R) :
    reference lower layer = some R ↔ Faithful lower layer := by
  unfold streamed at h
  obtain ⟨s, hs, rfl⟩ := Option.map_eq_some_iff.mp h
  exact ⟨faithful_of_reference hd hs, fun hf => hf.reference_eq hlower hd hs⟩

end

end Denia.Oci

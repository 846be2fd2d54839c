/-
  Denia.Oci.Reserved — does a cached layer stay in place while it is reserved?

  A sweep deletes nothing that is reserved.  A PULL deletes too: a blob that does not pass
  the check of verify-on-hit is removed without a look at the reservations.  In the mode
  `Size` the check compares the blob with the size the descriptor declares, and two
  descriptors may declare different sizes for one digest.

  Main results: `inPlace_keeps`, a step spares what the OTHER pulls rely on if the declared
  sizes agree with the blobs that are there; `reserved_layer_stays`;
  `size_mismatch_removes_reserved`.
-/
import Denia.Oci.Reservations

namespace Denia.Oci

open Lib
open Registry (digestOf exampleHex abName ascii)

/-! ## §1. What a step leaves in place. -/

/-- A file stands at the path of the digest. -/
def InPlace (c : Cache) (digest : String) : Prop :=
  ∃ hex, blobHex digest = .ok hex ∧ (c.fs.links.lookup (.blob hex)).isSome

/-- Every blob has the digest it is named after. -/
def Sound (cfg : CacheConfig) (c : Cache) : Prop :=
  ∀ hex bytes, c.fs.read (.blob hex) = some bytes → cfg.sha256 bytes = hex

variable {cfg : CacheConfig} {c c' : Cache} {effect : Effect} {σ : System Cache CacheProc}
   {s s' : SweepPc}

theorem inPlace_of_layer {layer : Layer} {bytes : List UInt8}
    (h : c.fs.read (.blob layer.hex) = some bytes) : InPlace c layer.desc.digest := by
  obtain ⟨inode, hlink, -⟩ := Fs.read_eq_some.mp h
  exact ⟨layer.hex, layer.path, by rw [hlink]; rfl⟩

/-- The effects on no blob and no temporary file. -/
def Effect.quiet : Effect → Bool
  | .nothing | .reserve _ | .release _ | .lock | .unlock | .touchLastref _
  | .removeLastref _ => true
  | .createTemp _ | .download _ _ | .removeTemp _ _ | .rename _ _ | .removeBlob _ => false

/-- Nothing but the sidecars, the reservations and the lock has changed. -/
structure Quiet (c c' : Cache) : Prop where
  blob : ∀ hex, Fs.SameAt c.fs c'.fs (.blob hex)
  temp : ∀ hex id, Fs.SameAt c.fs c'.fs (.temp hex id)
  contents : ∀ inode, inode < c.fs.next → c'.fs.contents inode = c.fs.contents inode
  next : c.fs.next ≤ c'.fs.next

theorem Quiet.of_fs (h : c'.fs = c.fs) : Quiet c c' := by
  refine ⟨fun hex => ?_, fun hex id => ?_, fun inode _ => by rw [h], by rw [h]⟩
  · rw [h]
    exact .refl _ _
  · rw [h]
    exact .refl _ _

theorem quiet_apply (h : effect.quiet = true) (c : Cache) : Quiet c (c.apply effect) := by
  cases effect with
  | nothing | reserve | lock | unlock => exact .of_fs rfl
  | release x =>
    refine .of_fs ?_
    show (c.release x).fs = c.fs
    unfold Cache.release
    split
    · rfl
    · split <;> rfl
  | touchLastref =>
    exact ⟨fun _ => Fs.sameAt_openCreate nofun, fun _ _ => Fs.sameAt_openCreate nofun,
      fun _ => Fs.contents_openCreate_of_lt, Fs.next_le_openCreate⟩
  | removeLastref =>
    exact ⟨fun _ => Fs.sameAt_unlink nofun, fun _ _ => Fs.sameAt_unlink nofun,
      fun _ _ => rfl, Nat.le_refl _⟩
  | _ => cases h

theorem rename_apply {hex : String} {id : Uuid} {inode : Nat}
    (h : c.fs.links.lookup (.temp hex id) = some inode) :
    c.fs.rename (.temp hex id) (.blob hex) = some (c.apply (.rename hex id)).fs := by
  obtain ⟨fs', hrename⟩ := Fs.exists_rename h (.blob hex)
  show _ = some ((c.fs.rename _ _).getD c.fs)
  rw [hrename]
  rfl

/-- What a pull sees to before it acts: a new temporary file has a new name, bytes go to a
temporary file, and only a whole one is renamed. -/
def Effect.Legal (cfg : CacheConfig) (c : Cache) : Effect → Prop
  | .createTemp hex => c.fs.links.lookup (.temp hex c.nextId) = none
  | .download inode _ => ∃ hex id, c.fs.links.lookup (.temp hex id) = some inode
  | .rename hex id => ∃ bytes, c.fs.read (.temp hex id) = some bytes ∧ cfg.sha256 bytes = hex
  | _ => True

/-- **What a legal effect does to one blob**: nothing, or it is removed, or replaced by a
whole one. -/
theorem blob_apply (hlegal : effect.Legal cfg c) (hex : String) :
    Fs.SameAt c.fs (c.apply effect).fs (.blob hex) ∨ effect = .removeBlob hex ∨
      ∃ bytes, (c.apply effect).fs.read (.blob hex) = some bytes ∧ cfg.sha256 bytes = hex := by
  by_cases hquiet : effect.quiet = true
  · exact .inl ((quiet_apply hquiet c).blob hex)
  cases effect with
  | createTemp => exact .inl (Fs.sameAt_link nofun)
  | download =>
    obtain ⟨x, id, hlink⟩ := hlegal
    exact .inl (Fs.sameAt_write hlink nofun)
  | removeTemp => exact .inl (Fs.sameAt_unlink nofun)
  | removeBlob x =>
    by_cases hx : hex = x
    · exact .inr (.inl (by rw [hx]))
    · refine .inl (Fs.sameAt_unlink fun heq => hx ?_)
      injection heq
  | rename x =>
    obtain ⟨bytes, hread, hsha⟩ := hlegal
    obtain ⟨inode, hinode, -⟩ := Fs.read_eq_some.mp hread
    have hrename := rename_apply hinode
    by_cases hx : hex = x
    · subst hx
      exact .inr (.inr ⟨bytes, (Fs.read_rename_target hrename).trans hread, hsha⟩)
    · refine .inl (Fs.sameAt_rename hrename nofun fun heq => hx ?_)
      injection heq
  | _ => exact absurd rfl hquiet

/-- **Only a deletion of its blob takes a digest away.** -/
theorem inPlace_apply {digest : String} (hlegal : effect.Legal cfg c)
    (hremove : ∀ hex, effect = .removeBlob hex → digestOf hex ≠ digest) (h : InPlace c digest) :
    InPlace (c.apply effect) digest := by
  obtain ⟨hex, hpath, hlink⟩ := h
  refine ⟨hex, hpath, ?_⟩
  rcases blob_apply hlegal hex with hsame | hremoved | ⟨bytes, hread, -⟩
  · rwa [hsame.1]
  · exact absurd (digestOf_of_blobHex hpath) (hremove hex hremoved)
  · obtain ⟨inode, hinode, -⟩ := Fs.read_eq_some.mp hread
    rw [hinode]
    rfl

/-- **Every blob goes on having the digest it is named after.** -/
theorem sound_apply (h : Sound cfg c) (hlegal : effect.Legal cfg c) :
    Sound cfg (c.apply effect) := by
  intro hex bytes hread
  rcases blob_apply hlegal hex with hsame | rfl | ⟨whole, hwhole, hsha⟩
  · rw [hsame.2] at hread
    exact h hex bytes hread
  · have hnone : (c.apply (.removeBlob hex)).fs.read (.blob hex) = none := Fs.read_unlink_self
    simp [hnone] at hread
  · rw [hwhole] at hread
    injection hread with hread
    rwa [← hread]

/-! ## §2. What a pull relies on. -/

/-- The temporary file of a pull. -/
def PullPc.temp : PullPc → Option (String × Uuid)
  | .download layer id _ | .removeTemp layer id | .sync layer id | .touchFirst layer id
  | .rename layer id => some (layer.hex, id)
  | _ => none

/-- The inode a pull writes. -/
def PullPc.writing : PullPc → Option Nat
  | .download _ _ inode => some inode
  | _ => none

/-- The inode a pull reads. -/
def PullPc.hashing : PullPc → Option Nat
  | .hashBlob _ inode => some inode
  | _ => none

/-- What a pull relies on where it is. -/
def PullPc.Safe (cfg : CacheConfig) (c : Cache) : PullPc → Prop
  | .hashBlob layer inode =>
      InPlace c layer.desc.digest ∧ inode < c.fs.next ∧ cfg.sha256 (c.fs.contents inode) = layer.hex
  | .touch layer => InPlace c layer.desc.digest
  | .removeBlob _ => False
  | .download layer id inode => c.fs.links.lookup (.temp layer.hex id) = some inode
  | .removeTemp layer id => (c.fs.links.lookup (.temp layer.hex id)).isSome
  | .sync layer id | .touchFirst layer id | .rename layer id =>
      ∃ bytes, c.fs.read (.temp layer.hex id) = some bytes ∧ cfg.sha256 bytes = layer.hex
  | _ => True

/-- The blobs a pull has a path for are in place, and so is what it works on. -/
structure PullSafe (cfg : CacheConfig) (c : Cache) (p : Pull) : Prop where
  held : ∀ digest ∈ p.held, InPlace c digest
  pc : p.pc.Safe cfg c

/-- Two pulls do not work on one file. -/
structure Apart (p q : PullPc) : Prop where
  temp : ∀ t, p.temp = some t → q.temp ≠ some t
  reads : ∀ inode, p.hashing = some inode → q.writing ≠ some inode
  writes : ∀ inode, p.writing = some inode → q.hashing ≠ some inode

/-- Nothing a pull works on has changed. -/
structure Spares (c c' : Cache) (pc : PullPc) : Prop where
  temp : ∀ hex id, pc.temp = some (hex, id) → Fs.SameAt c.fs c'.fs (.temp hex id)
  contents : ∀ inode, pc.hashing = some inode → inode < c.fs.next →
    c'.fs.contents inode = c.fs.contents inode
  next : c.fs.next ≤ c'.fs.next

theorem Quiet.spares (h : Quiet c c') (pc : PullPc) : Spares c c' pc :=
  ⟨fun hex id _ => h.temp hex id, fun inode _ => h.contents inode, h.next⟩

theorem PullPc.Safe.of_plain {pc : PullPc} (h : pc.plain = true) : pc.Safe cfg c := by
  cases pc with
  | reserve | metadata | openBlob | removeLastref | createTemp | reading | releasing | done =>
    trivial
  | hashBlob | removeBlob | touch | download | removeTemp | sync | touchFirst | rename => cases h

/-- **A pull loses nothing in a step that spares it.** -/
theorem PullSafe.mono {p : Pull} (h : PullSafe cfg c p)
    (hplace : ∀ digest, 0 < CacheProc.reserved digest (.pull p) → InPlace c digest →
      InPlace c' digest) (hspares : Spares c c' p.pc) : PullSafe cfg c' p := by
  obtain ⟨hheld, hpc⟩ := h
  refine ⟨fun digest hd => hplace digest (reserved_pos_of_held hd) (hheld digest hd), ?_⟩
  obtain ⟨todo, held, pc⟩ := p
  have hcurrent : ∀ digest, pc.current = some digest → InPlace c digest → InPlace c' digest :=
    fun digest hcurrent => hplace digest (reserved_pos_of_current hcurrent)
  cases pc with
  | hashBlob layer inode =>
    obtain ⟨hin, hlt, hsha⟩ := hpc
    refine ⟨hcurrent _ rfl hin, Nat.lt_of_lt_of_le hlt hspares.next, ?_⟩
    rwa [hspares.contents inode rfl hlt]
  | touch => exact hcurrent _ rfl hpc
  | removeBlob => exact hpc
  | download => exact (hspares.temp _ _ rfl).1.trans hpc
  | removeTemp =>
    show (c'.fs.links.lookup _).isSome = true
    rwa [(hspares.temp _ _ rfl).1]
  | sync layer id | touchFirst layer id | rename layer id =>
    obtain ⟨bytes, hread, hsha⟩ := hpc
    exact ⟨bytes, (hspares.temp _ _ rfl).2.trans hread, hsha⟩
  | _ => trivial

/-- The temporary file of a pull is there. -/
theorem PullPc.Safe.temp_link {pc : PullPc} (h : pc.Safe cfg c) {hex : String} {id : Uuid}
    (htemp : pc.temp = some (hex, id)) : (c.fs.links.lookup (.temp hex id)).isSome := by
  cases pc with
  | download layer _ inode =>
    cases htemp
    show (c.fs.links.lookup _).isSome = true
    rw [show c.fs.links.lookup (.temp layer.hex id) = some inode from h]
    rfl
  | removeTemp =>
    cases htemp
    exact h
  | sync layer _ | touchFirst layer _ | rename layer _ =>
    cases htemp
    obtain ⟨bytes, hread, -⟩ := h
    obtain ⟨inode, hlink, -⟩ := Fs.read_eq_some.mp hread
    rw [hlink]
    rfl
  | _ => cases htemp

/-! ## §3. What a step of a pull owes. -/

section
variable {p p' : Pull} {q : PullPc}

theorem legal_of_move (hp : PullSafe cfg c p) (h : PullMove cfg c p effect p') :
    effect.Legal cfg c ∧ ∀ hex, effect ≠ .removeBlob hex := by
  have hpc := hp.pc
  cases h with
  | created layer _ hnew => exact ⟨hnew, nofun⟩
  | streamed layer id inode bytes hat =>
    rw [hat] at hpc
    exact ⟨⟨_, _, hpc⟩, nofun⟩
  | renamed layer id hat =>
    rw [hat] at hpc
    exact ⟨hpc, nofun⟩
  | removed layer hat =>
    rw [hat] at hpc
    exact hpc.elim
  | _ => exact ⟨trivial, nofun⟩

/-- **A pull spares the others.** -/
theorem spares_of_move (hp : PullSafe cfg c p) (hq : q.Safe cfg c) (hapart : Apart p.pc q)
    (h : PullMove cfg c p effect p') : Spares c (c.apply effect) q := by
  by_cases hquiet : effect.quiet = true
  · exact (quiet_apply hquiet c).spares q
  have hpc := hp.pc
  have hother : ∀ {hex hex' : String} {id id' : Uuid}, p.pc.temp = some (hex, id) →
      q.temp = some (hex', id') → CacheFile.temp hex' id' ≠ .temp hex id := by
    intro hex hex' id id' hown htemp heq
    cases heq
    exact hapart.temp _ hown htemp
  cases h with
  | created layer hat hnew =>
    -- the other's temporary file is there, and the new one was not
    refine ⟨fun hex id htemp => Fs.sameAt_link fun heq => ?_,
      fun inode _ => Fs.contents_link_of_lt, Nat.le_succ _⟩
    have hlink := hq.temp_link htemp
    rw [heq, hnew] at hlink
    cases hlink
  | streamed layer id inode bytes hat =>
    rw [hat] at hpc hother hapart
    refine ⟨fun hex' id' htemp => Fs.sameAt_write hpc (hother rfl htemp),
      fun inode' hhash _ => Function.update_of_ne (fun heq => ?_) .., Nat.le_refl _⟩
    -- nobody hashes an inode that is still written
    exact hapart.writes inode rfl (heq ▸ hhash)
  | dropped layer id hat =>
    rw [hat] at hother
    exact ⟨fun hex' id' htemp => Fs.sameAt_unlink (hother rfl htemp), fun _ _ _ => rfl,
      Nat.le_refl _⟩
  | renamed layer id hat =>
    rw [hat] at hpc hother
    obtain ⟨bytes, hread, -⟩ := hpc
    obtain ⟨inode, hinode, -⟩ := Fs.read_eq_some.mp hread
    have hrename := rename_apply hinode
    obtain ⟨hcontents, hnext⟩ := Fs.inodes_rename hrename
    exact ⟨fun hex' id' htemp => Fs.sameAt_rename hrename (hother rfl htemp) nofun,
      fun _ _ _ => by rw [hcontents], Nat.le_of_eq hnext.symm⟩
  | removed layer hat =>
    rw [hat] at hpc
    exact hpc.elim
  | _ => exact absurd rfl hquiet

theorem Apart.of_temp {p p' : PullPc} (h : Apart p q) (htemp : p'.temp = p.temp)
    (hhashing : p'.hashing = none) (hwriting : p'.writing = none) : Apart p' q := by
  refine ⟨fun t ht => h.temp t (htemp ▸ ht), fun inode hin => ?_, fun inode hin => ?_⟩
  · simp [hhashing] at hin
  · simp [hwriting] at hin

/-- A pull without a file of its own is apart from every other. -/
theorem Apart.of_none {p : PullPc} (htemp : p.temp = none) (hhashing : p.hashing = none)
    (hwriting : p.writing = none) : Apart p q := by
  refine ⟨fun t ht => ?_, fun inode hin => ?_, fun inode hin => ?_⟩
  · simp [htemp] at ht
  · simp [hhashing] at hin
  · simp [hwriting] at hin

theorem Apart.of_plain {p : PullPc} (h : p.plain = true) : Apart p q := by
  cases p with
  | reserve | metadata | openBlob | removeLastref | createTemp | reading | releasing | done =>
    exact .of_none rfl rfl rfl
  | hashBlob | removeBlob | touch | download | removeTemp | sync | touchFirst | rename => cases h

theorem plain_nextLayer (p : Pull) : p.nextLayer.pc.plain = true := by
  unfold Pull.nextLayer
  split <;> rfl

/-- **A pull keeps to files of its own.** -/
theorem apart_of_move (hq : q.Safe cfg c) (hapart : Apart p.pc q)
    (h : PullMove cfg c p effect p') : Apart p'.pc q := by
  cases h with
  | reserve | removed | cleaned | dropped | released => exact .of_plain rfl
  | goes pc' _ hplain => exact .of_plain hplain
  | hit | renamed => exact .of_plain (plain_nextLayer _)
  | releasedHeld digest held hpc =>
    refine .of_plain ?_
    show p.pc.plain = true
    rw [hpc]
    rfl
  | found | mismatch => exact .of_none rfl rfl rfl
  | opened layer inode _ hlink =>
    refine ⟨nofun, fun inode' hin hwriting => ?_, nofun⟩
    cases hin
    -- the inode of a blob is not the inode of a temporary file
    cases q with
    | download =>
      cases hwriting
      exact nomatch c.fs.links_inj _ _ _ hlink hq
    | _ => cases hwriting
  | created layer _ hnew =>
    refine ⟨fun t ht htemp => ?_, nofun, fun inode hin hhashing => ?_⟩
    · cases ht
      have hlink := hq.temp_link htemp
      simp [hnew] at hlink
    · cases hin
      -- nobody reads an inode that is not there yet
      cases q with
      | hashBlob =>
        cases hhashing
        exact absurd hq.2.1 (Nat.lt_irrefl _)
      | _ => cases hhashing
  | streamed _ _ _ _ hpc | gaveUp _ _ _ hpc | synced _ _ hpc | touched _ _ hpc =>
    rw [hpc] at hapart
    exact hapart.of_temp rfl rfl rfl

theorem PullSafe.obtained {layer : Layer} (hheld : ∀ digest ∈ p.held, InPlace c digest)
    (hnew : InPlace c layer.desc.digest) : PullSafe cfg c (p.obtain layer) := by
  refine ⟨fun digest hd => ?_, .of_plain (plain_nextLayer _)⟩
  have hd : digest ∈ p.held ++ [layer.desc.digest] := by
    unfold Pull.obtain Pull.nextLayer at hd
    split at hd <;> exact hd
  rcases List.mem_append.mp hd with hd | hd
  · exact hheld digest hd
  · rwa [List.mem_singleton.mp hd]

/-- **A pull goes on having what it relies on**, unless it finds a blob of another size. -/
theorem safe_of_move (hsound : Sound cfg c) (hp : PullSafe cfg c p)
    (hsize : ∀ layer, ¬Mismatch cfg c p layer) (h : PullMove cfg c p effect p') :
    PullSafe cfg (c.apply effect) p' := by
  obtain ⟨hlegal, hnot⟩ := legal_of_move hp h
  have hkeep : ∀ digest, InPlace c digest → InPlace (c.apply effect) digest :=
    fun digest => inPlace_apply hlegal fun hex heq => absurd heq (hnot hex)
  have hheld : ∀ digest ∈ p.held, InPlace (c.apply effect) digest :=
    fun digest hd => hkeep digest (hp.held digest hd)
  have hpc := hp.pc
  cases h with
  | reserve | cleaned | dropped | released => exact ⟨hheld, trivial⟩
  | removed layer hat =>
    rw [hat] at hpc
    exact hpc.elim
  | goes pc' _ hplain => exact ⟨hheld, .of_plain hplain⟩
  | found layer _ hthere =>
    refine ⟨hheld, ?_⟩
    show InPlace c layer.desc.digest
    rcases hthere with ⟨bytes, hread⟩ | ⟨inode, hat⟩
    · exact inPlace_of_layer hread
    · rw [hat] at hpc
      exact hpc.1
  | mismatch layer _ hmismatch => exact absurd hmismatch (hsize layer)
  | opened layer inode _ hlink =>
    -- the blob is sound when it is opened, and its inode is not written any more
    have hread := Fs.read_of_link hlink
    exact ⟨hheld, inPlace_of_layer hread, c.fs.links_lt _ _ hlink, hsound _ _ hread⟩
  | hit layer hat =>
    rw [hat] at hpc
    exact .obtained hheld (hkeep _ hpc)
  | created => exact ⟨hheld, Fs.links_link_self⟩
  | streamed layer id inode bytes hat hsha =>
    rw [hat] at hpc
    exact ⟨hheld, bytes, Fs.read_write_self hpc, hsha⟩
  | gaveUp layer id inode hat =>
    rw [hat] at hpc
    exact ⟨hheld, hpc.temp_link rfl⟩
  | synced layer id hat =>
    rw [hat] at hpc
    exact ⟨hheld, hpc⟩
  | touched layer id hat =>
    rw [hat] at hpc
    obtain ⟨bytes, hread, hsha⟩ := hpc
    exact ⟨hheld, bytes, ((quiet_apply rfl c).temp _ _).2.trans hread, hsha⟩
  | renamed layer id hat =>
    rw [hat] at hpc
    obtain ⟨bytes, hread, -⟩ := hpc
    obtain ⟨inode, hinode, -⟩ := Fs.read_eq_some.mp hread
    rw [← Fs.read_rename_target (rename_apply hinode)] at hread
    exact .obtained hheld (inPlace_of_layer hread)
  | releasedHeld digest held hat heq =>
    refine ⟨fun x hx => hheld x ?_, .of_plain ?_⟩
    · rw [heq]
      exact List.mem_cons_of_mem _ hx
    · show p.pc.plain = true
      rw [hat]
      rfl

end

/-! ## §4. A reserved layer. -/

/-- In the mode `Size`, a pull that looks at the blob of its digest declares the size the
blob has, or none. -/
def sizesAgree (cfg : CacheConfig) (σ : System Cache CacheProc) :
    Event CacheRequest CacheReply Empty → Bool
  | .move i _ =>
      match cfg.verifyOnHit, σ.procs[i]? with
      | .size, some (.pull ⟨_, _, .metadata desc⟩) =>
          match blobHex desc.digest with
          | .error _ => true
          | .ok hex =>
              match σ.shared.fs.read (.blob hex), desc.expectedSize with
              | some bytes, some expected => bytes.length == expected
              | _, _ => true
      | _, _ => true
  | _ => true

theorem no_mismatch {i : Nat} {p : Pull} {reply : CacheReply}
    (hagree : sizesAgree cfg σ (.move i reply) = true) (hp : σ.procs[i]? = some (.pull p))
    (hsafe : PullSafe cfg σ.shared p) (layer : Layer) : ¬Mismatch cfg σ.shared p layer := by
  intro hmismatch
  obtain ⟨todo, held, pc⟩ := p
  cases hmismatch with
  | size bytes expected hpc hmode hread hexpected hne =>
    obtain rfl : pc = .metadata layer.desc := hpc
    simp only [sizesAgree, hmode, hp, layer.path, hread, hexpected, beq_iff_eq] at hagree
    exact hne hagree
  | digest inode hpc hne =>
    obtain rfl : pc = .hashBlob layer inode := hpc
    exact hne hsafe.pc.2.2

/-- What a process relies on. -/
def ProcSafe (cfg : CacheConfig) (c : Cache) : CacheProc → Prop
  | .pull p => PullSafe cfg c p
  | .sweep _ => True

/-- Two pulls are apart. -/
def ProcApart : CacheProc → CacheProc → Prop
  | .pull p, .pull q => Apart p.pc q.pc
  | _, _ => True

/-- A step that keeps what a process has reserved in place, and spares what it works on. -/
theorem ProcSafe.mono {q : CacheProc} (h : ProcSafe cfg c q)
    (hplace : ∀ digest, 0 < q.reserved digest → InPlace c digest → InPlace c' digest)
    (hspares : ∀ p, q = .pull p → Spares c c' p.pc) : ProcSafe cfg c' q := by
  cases q with
  | pull p => exact PullSafe.mono h hplace (hspares p rfl)
  | sweep => trivial

/-- A sweep changes nothing but the blob it removes. -/
theorem sweepMove_spares (h : SweepMove c s effect s') (pc : PullPc) :
    Spares c (c.apply effect) pc := by
  cases h with
  | removesBlob =>
    exact ⟨fun _ _ _ => Fs.sameAt_unlink nofun, fun _ _ _ => rfl, Nat.le_refl _⟩
  | _ => exact (quiet_apply rfl c).spares pc

theorem sweepMove_legal (h : SweepMove c s effect s') : effect.Legal cfg c := by
  cases h <;> trivial

/-- **The invariant of the cache**, where the declared sizes agree with the blobs. -/
theorem inPlace_keeps (cfg : CacheConfig) : (cacheProgram cfg).Keeps
      (fun σ event => sizesAgree cfg σ event = true ∧ Counted σ ∧
        σ.Holds (fun _ => True) LockSafe LockApart)
      (Sound cfg) (ProcSafe cfg) ProcApart where
  symm p q h := by
    cases p with
    | sweep => cases q <;> trivial
    | pull =>
      cases q with
      | sweep => trivial
      | pull =>
        exact ⟨fun t hq hp => h.temp t hp hq, fun i hq hp => h.writes i hp hq,
          fun i hq hp => h.reads i hp hq⟩
  start_each c r _ := by
    cases r with
    | sweep => trivial
    | pull layers => cases layers <;> exact ⟨nofun, trivial⟩
  start_apart r q := by
    cases q with
    | sweep => cases r <;> trivial
    | pull =>
      cases r with
      | sweep => trivial
      | pull => exact Apart.of_plain (plain_nextLayer _)
  outer σ e := nomatch e
  move σ i p reply c' p' hσ hguard hp hadvance := by
    obtain ⟨hagree, hcounted, hlock⟩ := hguard
    obtain ⟨effect, hmove, rfl⟩ := advance_move hadvance
    have hL := hσ.each i p hp
    cases hmove with
    | pull hpull =>
      obtain ⟨hlegal, hnot⟩ := legal_of_move hL hpull
      refine ⟨sound_apply hσ.shared hlegal,
        safe_of_move hσ.shared hL (no_mismatch hagree hp hL) hpull, fun j q hj hq => ?_⟩
      have hLq := hσ.each j q hq
      have hapart := hσ.apart i j _ q hj.symm hp hq
      refine ⟨hLq.mono (fun digest _ => inPlace_apply hlegal fun hex heq => ?_) ?_, ?_⟩
      · exact absurd heq (hnot hex)
      · intro p' hp'
        subst hp'
        exact spares_of_move hL hLq.pc hapart hpull
      · cases q with
        | pull => exact apart_of_move hLq.pc hapart hpull
        | sweep => trivial
    | sweep hsweep =>
      have hlegal : effect.Legal cfg σ.shared := sweepMove_legal hsweep
      refine ⟨sound_apply hσ.shared hlegal, trivial, fun j q hj hq => ⟨?_, ?_⟩⟩
      · refine (hσ.each j q hq).mono (fun digest hpos => inPlace_apply hlegal ?_)
          fun p' _ => sweepMove_spares hsweep p'.pc
        -- what a sweep removes has no reservation, and so nobody has it reserved
        intro hex heq hdigest
        subst hdigest
        cases hsweep with
        | removesBlob name hdoomed =>
          cases heq
          have hzero := (hlock.each i _ hp).unreserved hex hdoomed
          exact absurd (hcounted.reserved_eq_zero hzero hq) (Nat.ne_of_gt hpos)
        | _ => cases heq
      · cases q <;> trivial

/-- **A reserved layer stays in place**, in every interleaving of pulls and sweeps in
which, in the mode `Size`, every pull declares the size of the blob it finds: from the
moment a pull has a path until it drops the reservation, the file is there and hashes to
the digest. -/
theorem reserved_layer_stays {cfg : CacheConfig} {fs : Fs CacheFile UInt8} {nextId : Uuid}
    {events : List (Event CacheRequest CacheReply Empty)} {σ : System Cache CacheProc}
    (hsound : ∀ hex bytes, fs.read (.blob hex) = some bytes → cfg.sha256 bytes = hex)
    (hagree : Guarded (cacheProgram cfg).step (fun σ event => sizesAgree cfg σ event = true)
      ⟨.opened fs nextId, []⟩ events)
    (h : exec (cacheProgram cfg).step ⟨.opened fs nextId, []⟩ events = some σ)
    {i : Nat} {p : Pull} (hp : σ.procs[i]? = some (.pull p)) {digest : String}
    (hheld : digest ∈ p.held) :
    ∃ hex bytes, blobHex digest = .ok hex ∧ σ.shared.fs.read (.blob hex) = some bytes ∧
      cfg.sha256 bytes = hex := by
  have hcounted : Counted ⟨.opened fs nextId, []⟩ := fun digest => rfl
  have hguard := guarded_and hagree (guarded_and
    (guarded_of_invariant (fun _ _ _ hσ _ hs => counted_step hσ hs) hcounted hagree)
    (guarded_of_invariant (fun _ _ _ hσ _ hs => (locked_keeps cfg).step hσ trivial hs)
      (.start trivial) hagree))
  have hstart : Sound cfg (.opened fs nextId) := hsound
  have hσ := (inPlace_keeps cfg).run (.start hstart) hguard h
  obtain ⟨hex, hpath, hlink⟩ := (hσ.each i _ hp).held digest hheld
  obtain ⟨inode, hinode⟩ := Option.isSome_iff_exists.mp hlink
  have hread := Fs.read_of_link hinode
  exact ⟨hex, _, hpath, hread, hσ.shared hex _ hread⟩

/-! ## §5. Two sizes for one digest. -/

/-- A cache in the mode `Size`. -/
def sizeCache : CacheConfig := ⟨.size, exampleHex⟩

/-- One pull downloads the layer "ab"; then come other events. -/
def pullThen (events : List (Event CacheRequest CacheReply Empty)) :
    List (Event CacheRequest CacheReply Empty) :=
  .spawn (.pull [⟨digestOf abName, 2⟩]) :: List.replicate 3 (.move 0 .ok) ++
    .move 0 (.downloaded (ascii "ab")) :: List.replicate 3 (.move 0 .ok) ++ events

/-- Another one pulls the digest, with the size it declares, up to its look at the blob. -/
def pullAgain (size : Int) : List (Event CacheRequest CacheReply Empty) :=
  .spawn (.pull [⟨digestOf abName, size⟩]) :: List.replicate 3 (.move 1 .ok)

/-- A sweep lists the blob and counts its reservations, while the second pull goes on. -/
def sweepMeanwhile : List (Event CacheRequest CacheReply Empty) :=
  .spawn .sweep :: .move 2 (.deployed []) :: .move 2 .ok :: .move 2 (.listed [abName]) ::
    .move 1 .ok :: [.move 2 .ok, .move 2 .ok]

/-- The digests the first pull has a path for, and the blob. -/
def pullState (σ : System Cache CacheProc) : Option (List String) × Option (List UInt8) :=
  (match σ.procs[(0 : Nat)]? with
    | some (.pull p) => some p.held
    | _ => none,
    σ.shared.fs.read (.blob abName))

theorem pullState_held {blob : Option (List UInt8)}
    (h : pullState σ = (some [digestOf abName], blob)) :
    (∃ p, σ.procs[0]? = some (.pull p) ∧ digestOf abName ∈ p.held) ∧
      σ.shared.fs.read (.blob abName) = blob := by
  injection h with hheld hblob
  refine ⟨?_, hblob⟩
  split at hheld
  next p hp =>
    injection hheld with hheld
    exact ⟨p, hp, by rw [hheld]; exact List.mem_singleton_self _⟩
  next => cases hheld

/-- **A pull removes a blob that is reserved.**  The first pull has the path of the blob,
and reads the image; the second one declares another size. -/
theorem size_mismatch_removes_reserved : ∃ σ p,
      exec (cacheProgram sizeCache).step ⟨.opened .empty 0, []⟩ (pullThen (pullAgain 3))
        = some σ ∧
      σ.procs[0]? = some (.pull p) ∧ digestOf abName ∈ p.held ∧
      ¬∃ hex bytes, blobHex (digestOf abName) = .ok hex ∧
        σ.shared.fs.read (.blob hex) = some bytes ∧ sizeCache.sha256 bytes = hex := by
  obtain ⟨σ, hσ, hstate⟩ : ∃ σ ∈ exec (cacheProgram sizeCache).step ⟨.opened .empty 0, []⟩
      (pullThen (pullAgain 3)), pullState σ = (some [digestOf abName], none) := by
    decide +kernel
  obtain ⟨⟨p, hp, hheld⟩, hblob⟩ := pullState_held hstate
  refine ⟨σ, p, hσ, hp, hheld, ?_⟩
  rintro ⟨hex, bytes, hpath, hread, -⟩
  have hname : blobHex (digestOf abName) = .ok abName := by decide +kernel
  cases hname.symm.trans hpath
  rw [hblob] at hread
  cases hread

/-- Where the sizes agree, the second pull and a sweep leave the blob to the first. -/
theorem reserved_layer_stays_shared : ∃ σ p,
      exec (cacheProgram sizeCache).step ⟨.opened .empty 0, []⟩
        (pullThen (pullAgain 2 ++ sweepMeanwhile)) = some σ ∧
      σ.procs[0]? = some (.pull p) ∧ digestOf abName ∈ p.held ∧
      ∃ hex bytes, blobHex (digestOf abName) = .ok hex ∧
        σ.shared.fs.read (.blob hex) = some bytes ∧ sizeCache.sha256 bytes = hex := by
  obtain ⟨σ, hσ, hstate⟩ : ∃ σ ∈ exec (cacheProgram sizeCache).step ⟨.opened .empty 0, []⟩
      (pullThen (pullAgain 2 ++ sweepMeanwhile)),
      pullState σ = (some [digestOf abName], some (ascii "ab")) := by
    decide +kernel
  obtain ⟨⟨p, hp, hheld⟩, -⟩ := pullState_held hstate
  refine ⟨σ, p, hσ, hp, hheld, reserved_layer_stays ?_ ?_ hσ hp hheld⟩
  · intro hex bytes hread
    cases hread
  · exact guarded_of_checked (fun _ _ h => h) (by decide +kernel)

end Denia.Oci

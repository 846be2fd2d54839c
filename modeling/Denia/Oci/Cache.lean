/-
  Denia.Oci.Cache — the layer cache (`src/oci/cache/{store,gc}.rs`) and the pulls that go
  through it (`pull` and `ensure_cached` of `src/oci/registry.rs`).

  A pull reserves a digest, takes the blob that is there or downloads it to a temporary file of
  its own and renames that into place, and keeps every reservation until the image is dropped.
  A sweep holds the WRITE side of the cache's lock from its listing to its last deletion; a
  reservation takes the read side for a moment.  Pulls do their file operations under no lock.

  Each file operation, each access to the reservations and each change of the lock is one step,
  and what it does to the shared state is an `Effect`.  Times are left out: whether an entry is
  old enough, and which names a walk over the directory sees, are answers like any other.
-/
import Denia.Domain
import Denia.Lib.Fs
import Denia.Lib.Interleave
import Denia.Registry.Storage

namespace Denia.Oci

open Lib
open Registry (sha256Prefix digestOf isAsciiHexdigit)

/-! ## §1. The cache. -/

/-- `CacheError`. -/
inductive CacheError where
  | unsupportedDigest (digest : String)
  deriving DecidableEq

/-- `OciCacheVerifyMode`. -/
inductive VerifyMode where
  | none
  | size
  | full

/-- The configuration of the cache. -/
structure CacheConfig where
  verifyOnHit : VerifyMode
  /-- SHA-256 of a file's bytes, as hex digits. -/
  sha256 : List UInt8 → String

/-- The files under `blobs/sha256/`. -/
inductive CacheFile where
  | blob (hex : String)
  | lastref (hex : String)
  | temp (hex : String) (id : Uuid)
  deriving DecidableEq

/-- `blob_path` and `sanitize_hex`: the file name of a digest. -/
def blobHex (digest : String) : Except CacheError String :=
  match digest.toList.dropPrefix? sha256Prefix.toList with
  | none => .error (.unsupportedDigest digest)
  | some hex =>
      if hex.isEmpty || decide (128 < hex.length) || !hex.all isAsciiHexdigit then
        .error (.unsupportedDigest (digestOf (String.ofList hex)))
      else .ok (String.ofList hex)

theorem digestOf_of_blobHex {digest hex : String} (h : blobHex digest = .ok hex) :
    digestOf hex = digest := by
  unfold blobHex at h
  split at h
  next => cases h
  next hex' hpre =>
    split at h <;> cases h
    exact Registry.digestOf_of_dropPrefix hpre

/-- What pulls and sweeps share.  `gcLocked` is the write side of the lock, `nextId` the
next `Uuid::now_v7()`. -/
structure Cache where
  fs : Fs CacheFile UInt8
  reservations : AList fun _ : String => Nat
  gcLocked : Bool
  nextId : Uuid

namespace Cache

/-- `LayerCache::new`, over the files that are there. -/
def opened (fs : Fs CacheFile UInt8) (nextId : Uuid) : Cache := ⟨fs, ∅, false, nextId⟩

/-- `reservation_count`. -/
def reservationCount (c : Cache) (digest : String) : Nat :=
  match c.reservations.lookup digest with
  | none => 0
  | some n => n

/-- The bump of `reserve`. -/
def reserve (c : Cache) (digest : String) : Cache :=
  { c with reservations := c.reservations.insert digest (c.reservationCount digest + 1) }

/-- `release_now`. -/
def release (c : Cache) (digest : String) : Cache :=
  match c.reservations.lookup digest with
  | none => c
  | some n =>
      if n - 1 = 0 then { c with reservations := c.reservations.erase digest }
      else { c with reservations := c.reservations.insert digest (n - 1) }

end Cache

/-- What one step does to the cache. -/
inductive Effect where
  | nothing
  | reserve (digest : String)
  | release (digest : String)
  | lock
  | unlock
  | touchLastref (hex : String)
  | removeLastref (hex : String)
  | createTemp (hex : String)
  | download (inode : Nat) (bytes : List UInt8)
  | removeTemp (hex : String) (id : Uuid)
  | rename (hex : String) (id : Uuid)
  | removeBlob (hex : String)

/-- What a call leaves. -/
def Cache.apply (c : Cache) : Effect → Cache
  | .nothing => c
  | .reserve digest => c.reserve digest
  | .release digest => c.release digest
  | .lock => { c with gcLocked := true }
  | .unlock => { c with gcLocked := false }
  | .touchLastref hex => { c with fs := (c.fs.openCreate 0 (.lastref hex)).1 }
  | .removeLastref hex => { c with fs := c.fs.unlink (.lastref hex) }
  | .createTemp hex => { c with fs := c.fs.link 0 (.temp hex c.nextId), nextId := c.nextId + 1 }
  | .download inode bytes => { c with fs := c.fs.write 0 inode bytes }
  | .removeTemp hex id => { c with fs := c.fs.unlink (.temp hex id) }
  | .rename hex id => { c with fs := (c.fs.rename (.temp hex id) (.blob hex)).getD c.fs }
  | .removeBlob hex => { c with fs := c.fs.unlink (.blob hex) }

/-- How a call ends.  A pull is dropped, with all its reservations, at an await. -/
inductive CacheReply where
  | ok
  | fails (reason : String)
  | dropped
  | downloaded (bytes : List UInt8)
  | deployed (digests : List String)
  | listed (names : List String)
  | old (isOld : Bool)

/-! ## §2. A pull. -/

/-- `OciDescriptor`, of it what is read. -/
structure Descriptor where
  digest : String
  size : Int

/-- The size a hit is checked against. -/
def Descriptor.expectedSize (desc : Descriptor) : Option Nat :=
  if 0 ≤ desc.size then some desc.size.toNat else none

/-- A descriptor whose digest has a path. -/
structure Layer where
  desc : Descriptor
  hex : String
  path : blobHex desc.digest = .ok hex

/-- What a pull does next.  `get` goes from `metadata` to `touch` or to `createTemp`, and
`finalize_temp` from `sync` to `rename`. -/
inductive PullPc where
  | reserve (desc : Descriptor)
  | metadata (desc : Descriptor)
  | openBlob (layer : Layer)
  | hashBlob (layer : Layer) (inode : Nat)
  | removeBlob (layer : Layer)
  | removeLastref (layer : Layer)
  | touch (layer : Layer)
  | createTemp (layer : Layer)
  | download (layer : Layer) (id : Uuid) (inode : Nat)
  | removeTemp (layer : Layer) (id : Uuid)
  | sync (layer : Layer) (id : Uuid)
  | touchFirst (layer : Layer) (id : Uuid)
  | rename (layer : Layer) (id : Uuid)
  | reading
  | releasing (current : Option String)
  | done

/-- A pull: the layers to come, and the digests it has a path for, in the order their
reservations are dropped. -/
structure Pull where
  todo : List Descriptor
  held : List String
  pc : PullPc

namespace Pull

/-- On to another call. -/
def goTo (p : Pull) (pc : PullPc) : Pull := { p with pc := pc }

/-- Go on to the next layer; after the last one the image is read. -/
def nextLayer (p : Pull) : Pull :=
  match p.todo with
  | [] => p.goTo .reading
  | desc :: todo => { p with todo := todo, pc := .reserve desc }

/-- The path of the layer is obtained. -/
def obtain (p : Pull) (layer : Layer) : Pull :=
  { p with held := p.held ++ [layer.desc.digest] }.nextLayer

/-- The pull fails: the reservation of the layer is dropped, then all the others. -/
def abort (p : Pull) (digest : String) : Pull := p.goTo (.releasing (some digest))

/-- Verify-on-hit, for a blob of the given length. -/
def verify (cfg : CacheConfig) (layer : Layer) (length : Nat) : PullPc :=
  match cfg.verifyOnHit with
  | .none => .touch layer
  | .size =>
      match layer.desc.expectedSize with
      | none => .touch layer
      | some expected => if length ≠ expected then .removeBlob layer else .touch layer
  | .full => .openBlob layer

/-- The next call, if it succeeds. -/
def proceed (cfg : CacheConfig) (c : Cache) (p : Pull) : Option (Effect × Pull) :=
  match p.pc with
  | .reserve desc =>
      -- the read side of the lock, held for the bump only
      if c.gcLocked then none else some (.reserve desc.digest, p.goTo (.metadata desc))
  | .metadata desc =>
      -- without a path `get` fails, and so does `unique_temp_path` after it
      match h : blobHex desc.digest with
      | .error _ => some (.nothing, p.abort desc.digest)
      | .ok hex =>
          match c.fs.read (.blob hex) with
          | none => some (.nothing, p.goTo (.createTemp ⟨desc, hex, h⟩))
          | some bytes => some (.nothing, p.goTo (verify cfg ⟨desc, hex, h⟩ bytes.length))
  | .openBlob layer =>
      -- `hash_file_sha256` reads the inode it has opened, whatever becomes of the name
      match c.fs.links.lookup (.blob layer.hex) with
      | none => some (.nothing, p.goTo (.createTemp layer))
      | some inode => some (.nothing, p.goTo (.hashBlob layer inode))
  | .hashBlob layer inode =>
      if cfg.sha256 (c.fs.contents inode) ≠ layer.hex then
        some (.nothing, p.goTo (.removeBlob layer))
      else some (.nothing, p.goTo (.touch layer))
  | .removeBlob layer => some (.removeBlob layer.hex, p.goTo (.removeLastref layer))
  | .removeLastref layer => some (.removeLastref layer.hex, p.goTo (.createTemp layer))
  | .touch layer => some (.touchLastref layer.hex, p.obtain layer)
  | .createTemp layer =>
      -- `create_new` refuses a name that is there
      match c.fs.links.lookup (.temp layer.hex c.nextId) with
      | some _ => some (.nothing, p.abort layer.desc.digest)
      | none => some (.createTemp layer.hex, p.goTo (.download layer c.nextId c.fs.next))
  | .download _ _ _ => none
  | .removeTemp layer id => some (.removeTemp layer.hex id, p.abort layer.desc.digest)
  | .sync layer id => some (.nothing, p.goTo (.touchFirst layer id))
  | .touchFirst layer id => some (.touchLastref layer.hex, p.goTo (.rename layer id))
  | .rename layer id =>
      match c.fs.links.lookup (.temp layer.hex id) with
      | none => some (.nothing, p.abort layer.desc.digest)
      | some _ => some (.rename layer.hex id, p.obtain layer)
  | .reading => some (.nothing, p.goTo (.releasing none))
  | .releasing (some digest) => some (.release digest, p.goTo (.releasing none))
  | .releasing none =>
      match p.held with
      | [] => some (.nothing, p.goTo .done)
      | digest :: held => some (.release digest, { p with held := held })
  | .done => none

/-- The next call fails.  A failed `get` is ignored, like a file that cannot be removed;
everything else ends the pull. -/
def fail (p : Pull) : Option Pull :=
  match p.pc with
  | .metadata desc =>
      match h : blobHex desc.digest with
      | .error _ => some (p.abort desc.digest)
      | .ok hex => some (p.goTo (.createTemp ⟨desc, hex, h⟩))
  | .openBlob layer | .hashBlob layer _ | .removeLastref layer | .touch layer =>
      some (p.goTo (.createTemp layer))
  | .removeBlob layer => some (p.goTo (.removeLastref layer))
  | .download layer id _ => some (p.goTo (.removeTemp layer id))
  | .createTemp layer | .removeTemp layer _ | .sync layer _ | .touchFirst layer _
  | .rename layer _ => some (p.abort layer.desc.digest)
  | .reserve _ | .reading | .releasing _ | .done => none

/-- The pull is dropped while it waits for a file or the registry. -/
def drop (p : Pull) : Option Pull :=
  match p.pc with
  | .createTemp layer | .download layer _ _ | .removeTemp layer _ | .sync layer _ =>
      some (p.abort layer.desc.digest)
  | _ => none

/-- `pull_blob` has streamed the blob into the temporary file, and found the digest. -/
def streamed (cfg : CacheConfig) (bytes : List UInt8) (p : Pull) : Option (Effect × Pull) :=
  match p.pc with
  | .download layer id inode =>
      if cfg.sha256 bytes = layer.hex then
        some (.download inode bytes, p.goTo (.sync layer id))
      else none
  | _ => none

/-- One call of a pull. -/
def next (cfg : CacheConfig) (c : Cache) (p : Pull) : CacheReply → Option (Effect × Pull)
  | .ok => p.proceed cfg c
  | .fails _ => p.fail.map fun p' => (.nothing, p')
  | .dropped => p.drop.map fun p' => (.nothing, p')
  | .downloaded bytes => p.streamed cfg bytes
  | _ => none

end Pull

/-! ## §3. A sweep. -/

/-- What a sweep does next, with the names still to come and the deployed digests. -/
inductive SweepPc where
  | snapshot
  | lock (deployed : List String)
  | list (deployed : List String)
  | count (name : String) (names deployed : List String)
  | age (name : String) (names deployed : List String)
  | stat (name : String) (names deployed : List String)
  | removeBlob (name : String) (names deployed : List String)
  | removeLastref (name : String) (names deployed : List String)
  | unlock
  | done

namespace SweepPc

/-- On to the next name listed. -/
def nextEntry (deployed : List String) : List String → SweepPc
  | [] => .unlock
  | name :: names => .count name names deployed

/-- The next call, if it succeeds. -/
def proceed (c : Cache) : SweepPc → Option (Effect × SweepPc)
  | .lock deployed => if c.gcLocked then none else some (.lock, .list deployed)
  | .count name names deployed =>
      -- the only look at the reservations; the deletion is calls away
      if digestOf name ∈ deployed ∨ 0 < c.reservationCount (digestOf name) then
        some (.nothing, nextEntry deployed names)
      else some (.nothing, .age name names deployed)
  | .stat name names deployed =>
      match c.fs.links.lookup (.blob name) with
      | none => some (.nothing, nextEntry deployed names)
      | some _ => some (.nothing, .removeBlob name names deployed)
  | .removeBlob name names deployed =>
      some (.removeBlob name, .removeLastref name names deployed)
  | .removeLastref name names deployed =>
      -- a name that is no digest has no sidecar
      match blobHex (digestOf name) with
      | .error _ => some (.nothing, nextEntry deployed names)
      | .ok hex => some (.removeLastref hex, nextEntry deployed names)
  | .unlock => some (.unlock, .done)
  | .snapshot | .list _ | .age _ _ _ | .done => none

/-- The next call fails; a file that cannot be removed is let be. -/
def fail : SweepPc → Option SweepPc
  | .snapshot => some .done
  | .list _ => some .unlock
  | .stat _ names deployed | .removeLastref _ names deployed => some (nextEntry deployed names)
  | .removeBlob name names deployed => some (.removeLastref name names deployed)
  | .lock _ | .count _ _ _ | .age _ _ _ | .unlock | .done => none

/-- One call of a sweep. -/
def next (c : Cache) (s : SweepPc) : CacheReply → Option (Effect × SweepPc)
  | .ok => s.proceed c
  | .fails _ => s.fail.map fun s' => (.nothing, s')
  | .deployed digests =>
      match s with
      | .snapshot => some (.nothing, .lock digests)
      | _ => none
  | .listed names =>
      match s with
      | .list deployed => some (.nothing, nextEntry deployed names)
      | _ => none
  | .old isOld =>
      match s with
      | .age name names deployed =>
          some (.nothing, if isOld then .stat name names deployed else nextEntry deployed names)
      | _ => none
  | _ => none

end SweepPc

/-! ## §4. All of them. -/

/-- The processes. -/
inductive CacheProc where
  | pull (p : Pull)
  | sweep (s : SweepPc)

/-- What starts a process. -/
inductive CacheRequest where
  | pull (layers : List Descriptor)
  | sweep

namespace CacheProc

/-- Where it starts. -/
def start : CacheRequest → CacheProc
  | .pull layers => .pull (Pull.nextLayer ⟨layers, [], .reading⟩)
  | .sweep => .sweep .snapshot

/-- One call. -/
def next (cfg : CacheConfig) (c : Cache) (reply : CacheReply) :
    CacheProc → Option (Effect × CacheProc)
  | .pull p => (p.next cfg c reply).map fun (effect, p') => (effect, .pull p')
  | .sweep s => (s.next c reply).map fun (effect, s') => (effect, .sweep s')

end CacheProc

/-- Any number of pulls and sweeps over one cache. -/
def cacheProgram (cfg : CacheConfig) : Program Cache CacheProc CacheRequest CacheReply Empty where
  start := CacheProc.start
  advance c p reply := (p.next cfg c reply).map fun (effect, p') => (c.apply effect, p')
  outer := nofun

/-! ## §5. What one step does. -/

/-- The digest of the layer a pull is at, once it is reserved. -/
def PullPc.current : PullPc → Option String
  | .metadata desc => some desc.digest
  | .openBlob layer | .hashBlob layer _ | .removeBlob layer | .removeLastref layer | .touch layer
  | .createTemp layer | .download layer _ _ | .removeTemp layer _ | .sync layer _
  | .touchFirst layer _ | .rename layer _ => some layer.desc.digest
  | .releasing current => current
  | .reserve _ | .reading | .done => none

/-- The pull relies on no file, and has none of its own. -/
def PullPc.plain : PullPc → Bool
  | .reserve _ | .metadata _ | .openBlob _ | .removeLastref _ | .createTemp _ | .reading
  | .releasing _ | .done => true
  | .hashBlob _ _ | .removeBlob _ | .touch _ | .download _ _ _ | .removeTemp _ _ | .sync _ _
  | .touchFirst _ _ | .rename _ _ => false

/-- A verify-on-hit that fails: the blob is not of the declared size, or its bytes do not
have the digest. -/
inductive Mismatch (cfg : CacheConfig) (c : Cache) (p : Pull) (layer : Layer) : Prop
  | size (bytes : List UInt8) (expected : Nat) (hpc : p.pc = .metadata layer.desc)
      (hmode : cfg.verifyOnHit = .size) (hread : c.fs.read (.blob layer.hex) = some bytes)
      (hexpected : layer.desc.expectedSize = some expected) (hne : bytes.length ≠ expected)
  | digest (inode : Nat) (hpc : p.pc = .hashBlob layer inode)
      (hne : cfg.sha256 (c.fs.contents inode) ≠ layer.hex)

/-- One step of a pull. -/
inductive PullMove (cfg : CacheConfig) (c : Cache) (p : Pull) : Effect → Pull → Prop
  | reserve (desc : Descriptor) (hpc : p.pc = .reserve desc) (hfree : c.gcLocked = false) :
      PullMove cfg c p (.reserve desc.digest) (p.goTo (.metadata desc))
  | goes (pc' : PullPc) (hcurrent : pc'.current = p.pc.current) (hplain : pc'.plain = true) :
      PullMove cfg c p .nothing (p.goTo pc')
  | found (layer : Layer) (hcurrent : p.pc.current = some layer.desc.digest)
      (hthere : (∃ bytes, c.fs.read (.blob layer.hex) = some bytes) ∨
        ∃ inode, p.pc = .hashBlob layer inode) :
      PullMove cfg c p .nothing (p.goTo (.touch layer))
  | mismatch (layer : Layer) (hcurrent : p.pc.current = some layer.desc.digest)
      (hmismatch : Mismatch cfg c p layer) : PullMove cfg c p .nothing (p.goTo (.removeBlob layer))
  | opened (layer : Layer) (inode : Nat) (hpc : p.pc = .openBlob layer)
      (hlink : c.fs.links.lookup (.blob layer.hex) = some inode) :
      PullMove cfg c p .nothing (p.goTo (.hashBlob layer inode))
  | removed (layer : Layer) (hpc : p.pc = .removeBlob layer) :
      PullMove cfg c p (.removeBlob layer.hex) (p.goTo (.removeLastref layer))
  | cleaned (layer : Layer) (hpc : p.pc = .removeLastref layer) :
      PullMove cfg c p (.removeLastref layer.hex) (p.goTo (.createTemp layer))
  | hit (layer : Layer) (hpc : p.pc = .touch layer) :
      PullMove cfg c p (.touchLastref layer.hex) (p.obtain layer)
  | created (layer : Layer) (hpc : p.pc = .createTemp layer)
      (hnew : c.fs.links.lookup (.temp layer.hex c.nextId) = none) :
      PullMove cfg c p (.createTemp layer.hex) (p.goTo (.download layer c.nextId c.fs.next))
  | streamed (layer : Layer) (id : Uuid) (inode : Nat) (bytes : List UInt8)
      (hpc : p.pc = .download layer id inode) (hsha : cfg.sha256 bytes = layer.hex) :
      PullMove cfg c p (.download inode bytes) (p.goTo (.sync layer id))
  | gaveUp (layer : Layer) (id : Uuid) (inode : Nat) (hpc : p.pc = .download layer id inode) :
      PullMove cfg c p .nothing (p.goTo (.removeTemp layer id))
  | dropped (layer : Layer) (id : Uuid) (hpc : p.pc = .removeTemp layer id) :
      PullMove cfg c p (.removeTemp layer.hex id) (p.abort layer.desc.digest)
  | synced (layer : Layer) (id : Uuid) (hpc : p.pc = .sync layer id) :
      PullMove cfg c p .nothing (p.goTo (.touchFirst layer id))
  | touched (layer : Layer) (id : Uuid) (hpc : p.pc = .touchFirst layer id) :
      PullMove cfg c p (.touchLastref layer.hex) (p.goTo (.rename layer id))
  | renamed (layer : Layer) (id : Uuid) (hpc : p.pc = .rename layer id) :
      PullMove cfg c p (.rename layer.hex id) (p.obtain layer)
  | released (digest : String) (hpc : p.pc = .releasing (some digest)) :
      PullMove cfg c p (.release digest) (p.goTo (.releasing none))
  | releasedHeld (digest : String) (held : List String) (hpc : p.pc = .releasing none)
      (hheld : p.held = digest :: held) :
      PullMove cfg c p (.release digest) { p with held := held }

variable {cfg : CacheConfig} {c : Cache} {p : Pull}

theorem verify_move {layer : Layer} {bytes : List UInt8} (hpc : p.pc = .metadata layer.desc)
    (hread : c.fs.read (.blob layer.hex) = some bytes) :
    PullMove cfg c p .nothing (p.goTo (Pull.verify cfg layer bytes.length)) := by
  have hcurrent : p.pc.current = some layer.desc.digest := by
    rw [hpc]
    rfl
  unfold Pull.verify
  split
  next => exact .found layer hcurrent (.inl ⟨bytes, hread⟩)
  next hmode =>
    split
    next => exact .found layer hcurrent (.inl ⟨bytes, hread⟩)
    next expected hexpected =>
      split
      next hne =>
        exact .mismatch layer hcurrent (.size bytes expected hpc hmode hread hexpected hne)
      next => exact .found layer hcurrent (.inl ⟨bytes, hread⟩)
  next => exact .goes (.openBlob layer) hcurrent.symm rfl

variable {p' : Pull} {effect : Effect}

theorem pullProceed_move (h : p.proceed cfg c = some (effect, p')) :
    PullMove cfg c p effect p' := by
  obtain ⟨todo, held, pc⟩ := p
  unfold Pull.proceed at h
  cases pc with
  | reserve desc =>
    simp only at h
    split at h <;> cases h
    next hfree => exact .reserve desc rfl (by simpa using hfree)
  | metadata =>
    simp only at h
    split at h
    · cases h
      exact .goes _ rfl rfl
    next hex hpath =>
    split at h <;> cases h
    · exact .goes _ rfl rfl
    next bytes hread => exact verify_move rfl hread
  | openBlob layer =>
    simp only at h
    split at h <;> cases h
    · exact .goes _ rfl rfl
    next inode hlink => exact .opened layer inode rfl hlink
  | hashBlob layer inode =>
    simp only at h
    split at h <;> cases h
    next hne => exact .mismatch layer rfl (.digest inode rfl hne)
    · exact .found layer rfl (.inr ⟨inode, rfl⟩)
  | removeBlob layer => cases h; exact .removed layer rfl
  | removeLastref layer => cases h; exact .cleaned layer rfl
  | touch layer => cases h; exact .hit layer rfl
  | createTemp layer =>
    simp only at h
    split at h <;> cases h
    · exact .goes _ rfl rfl
    next hnew => exact .created layer rfl hnew
  | download => cases h
  | removeTemp layer id => cases h; exact .dropped layer id rfl
  | sync layer id => cases h; exact .synced layer id rfl
  | touchFirst layer id => cases h; exact .touched layer id rfl
  | rename layer id =>
    simp only at h
    split at h <;> cases h
    · exact .goes _ rfl rfl
    · exact .renamed layer id rfl
  | reading => cases h; exact .goes _ rfl rfl
  | releasing current =>
    cases current with
    | some digest => cases h; exact .released digest rfl
    | none =>
      cases held with
      | nil => cases h; exact .goes _ rfl rfl
      | cons digest held => cases h; exact .releasedHeld digest held rfl rfl
  | done => cases h

theorem pullFail_move (h : p.fail = some p') : PullMove cfg c p .nothing p' := by
  obtain ⟨todo, held, pc⟩ := p
  unfold Pull.fail at h
  cases pc with
  | metadata =>
    simp only at h
    split at h <;> (cases h; exact .goes _ rfl rfl)
  | openBlob | hashBlob | removeBlob | removeLastref | touch | createTemp | removeTemp | sync
  | touchFirst | rename => cases h; exact .goes _ rfl rfl
  | download layer id inode => cases h; exact .gaveUp layer id inode rfl
  | reserve | reading | releasing | done => cases h

theorem pullDrop_move (h : p.drop = some p') : PullMove cfg c p .nothing p' := by
  obtain ⟨todo, held, pc⟩ := p
  unfold Pull.drop at h
  cases pc with
  | createTemp | download | removeTemp | sync => cases h; exact .goes _ rfl rfl
  | reserve | metadata | openBlob | hashBlob | removeBlob | removeLastref | touch | touchFirst
  | rename | reading | releasing | done => cases h

variable {reply : CacheReply}

/-- **What one step of a pull does.** -/
theorem pullNext_move (h : p.next cfg c reply = some (effect, p')) :
    PullMove cfg c p effect p' := by
  cases reply with
  | ok => exact pullProceed_move h
  | fails =>
    obtain ⟨p1, hfail, heq⟩ := Option.map_eq_some_iff.mp h
    cases heq
    exact pullFail_move hfail
  | dropped =>
    obtain ⟨p1, hdrop, heq⟩ := Option.map_eq_some_iff.mp h
    cases heq
    exact pullDrop_move hdrop
  | downloaded bytes =>
    obtain ⟨todo, held, pc⟩ := p
    change Pull.streamed cfg bytes _ = _ at h
    unfold Pull.streamed at h
    split at h
    next layer id inode hpc =>
      split at h <;> cases h
      next hsha => exact .streamed layer id inode bytes hpc hsha
    next => cases h
  | deployed | listed | old => cases h

/-- A sweep has the lock. -/
def SweepPc.inLock : SweepPc → Bool
  | .list _ | .count _ _ _ | .age _ _ _ | .stat _ _ _ | .removeBlob _ _ _ | .removeLastref _ _ _
  | .unlock => true
  | .snapshot | .lock _ | .done => false

/-- The entry a sweep has found without a reservation, until it is gone. -/
def SweepPc.doomed : SweepPc → Option String
  | .age name _ _ | .stat name _ _ | .removeBlob name _ _ => some name
  | _ => none

/-- One step of a sweep. -/
inductive SweepMove (c : Cache) (s : SweepPc) : Effect → SweepPc → Prop
  | locks {s'} (hfree : c.gcLocked = false) (hlock' : s'.inLock = true)
      (hdoomed' : s'.doomed = none) : SweepMove c s .lock s'
  | unlocks {s'} (hlock : s.inLock = true) (hlock' : s'.inLock = false)
      (hdoomed' : s'.doomed = none) : SweepMove c s .unlock s'
  | dooms {s'} (name : String) (hzero : c.reservationCount (digestOf name) = 0)
      (hlock : s.inLock = true) (hdoomed' : s'.doomed = some name) : SweepMove c s .nothing s'
  | goes {s'} (hlock : s'.inLock = true → s.inLock = true)
      (hdoomed' : ∀ name, s'.doomed = some name → s.doomed = some name) : SweepMove c s .nothing s'
  | removesBlob {s'} (name : String) (hdoomed : s.doomed = some name) (hlock : s.inLock = true)
      (hdoomed' : s'.doomed = none) : SweepMove c s (.removeBlob name) s'
  | removesLastref {s'} (hex : String) (hlock : s.inLock = true) (hdoomed' : s'.doomed = none) :
      SweepMove c s (.removeLastref hex) s'

theorem doomed_nextEntry (deployed names : List String) :
    (SweepPc.nextEntry deployed names).doomed = none := by
  cases names <;> rfl

variable {s : SweepPc}

theorem sweepGoes_nextEntry (hlock : s.inLock = true) (deployed names : List String) :
    SweepMove c s .nothing (.nextEntry deployed names) := by
  refine .goes (fun _ => hlock) fun name hname => ?_
  simp [doomed_nextEntry] at hname

theorem sweepProceed_move {s' : SweepPc} (h : s.proceed c = some (effect, s')) :
    SweepMove c s effect s' := by
  cases s with
  | snapshot | list deployed | age name names deployed | done => cases h
  | lock =>
    simp only [SweepPc.proceed] at h
    split at h <;> cases h
    next hfree => exact .locks (by simpa using hfree) rfl rfl
  | count name names deployed =>
    simp only [SweepPc.proceed] at h
    split at h <;> cases h
    · exact sweepGoes_nextEntry rfl deployed names
    next hkept =>
      refine .dooms name ?_ rfl rfl
      omega
  | stat name names deployed =>
    simp only [SweepPc.proceed] at h
    split at h <;> cases h
    · exact sweepGoes_nextEntry rfl deployed names
    · exact .goes (fun _ => rfl) fun _ hname => hname
  | removeBlob name => cases h; exact .removesBlob name rfl rfl rfl
  | removeLastref name names deployed =>
    simp only [SweepPc.proceed] at h
    split at h <;> cases h
    · exact sweepGoes_nextEntry rfl deployed names
    · exact .removesLastref _ rfl (doomed_nextEntry deployed names)
  | unlock => cases h; exact .unlocks rfl rfl rfl

/-- **What one step of a sweep does.** -/
theorem sweepNext_move {s' : SweepPc} (h : s.next c reply = some (effect, s')) :
    SweepMove c s effect s' := by
  cases reply with
  | ok => exact sweepProceed_move h
  | fails =>
    obtain ⟨s1, hfail, heq⟩ := Option.map_eq_some_iff.mp h
    cases heq
    cases s with
    | snapshot => cases hfail; exact .goes nofun nofun
    | list => cases hfail; exact .goes (fun _ => rfl) nofun
    | stat name names deployed | removeLastref name names deployed =>
      cases hfail
      exact sweepGoes_nextEntry rfl deployed names
    | removeBlob => cases hfail; exact .goes (fun _ => rfl) nofun
    | _ => cases hfail
  | deployed =>
    cases s with
    | snapshot => cases h; exact .goes nofun nofun
    | _ => cases h
  | listed names =>
    cases s with
    | list deployed => cases h; exact sweepGoes_nextEntry rfl deployed names
    | _ => cases h
  | old isOld =>
    cases s with
    | age name names deployed =>
      cases isOld with
      | true => cases h; exact .goes (fun _ => rfl) fun _ hname => hname
      | false => cases h; exact sweepGoes_nextEntry rfl deployed names
    | _ => cases h
  | dropped | downloaded => cases h

/-- One step of a process. -/
inductive CacheMove (cfg : CacheConfig) (c : Cache) : CacheProc → Effect → CacheProc → Prop
  | pull {p p' : Pull} {effect : Effect} (h : PullMove cfg c p effect p') :
      CacheMove cfg c (.pull p) effect (.pull p')
  | sweep {s s' : SweepPc} {effect : Effect} (h : SweepMove c s effect s') :
      CacheMove cfg c (.sweep s) effect (.sweep s')

/-- **What one step does.** -/
theorem advance_move {c' : Cache} {p p' : CacheProc}
    (h : (cacheProgram cfg).advance c p reply = some (c', p')) :
    ∃ effect, CacheMove cfg c p effect p' ∧ c' = c.apply effect := by
  obtain ⟨⟨effect, p1⟩, hnext, heq⟩ := Option.map_eq_some_iff.mp h
  cases heq
  refine ⟨effect, ?_, rfl⟩
  cases p with
  | pull =>
    obtain ⟨⟨effect, p'⟩, hpull, heq⟩ := Option.map_eq_some_iff.mp hnext
    cases heq
    exact .pull (pullNext_move hpull)
  | sweep =>
    obtain ⟨⟨effect, s'⟩, hsweep, heq⟩ := Option.map_eq_some_iff.mp hnext
    cases heq
    exact .sweep (sweepNext_move hsweep)

end Denia.Oci

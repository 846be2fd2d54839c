/-
  Denia.Oci.Unpack — `TarRootfsUnpacker::unpack` (src/oci/unpack.rs): tar layers applied
  to a rootfs directory.

  The host is a tree with symlinks (`Lib.Tree`); a path keeps the slashes and dots its
  entry has in the archive, since the kernel follows a symlink `a` in `a/` and in `a/.`.
  Whiteouts and the owners of directories are QUEUED while the entries of a layer are read.

  Every call that changes the tree is traced with the physical path it resolved to.  The
  calls fail as the tree makes them fail; that the process lacks a permission, or a disk
  fails, is left out, and an entry whose header or data cannot be read is an input.
-/
import Denia.Lib.Hoare
import Denia.Lib.Tree
import Mathlib.Algebra.Ring.Nat

namespace Denia.Oci

open Lib

/-! ## §1. Archives. -/

/-- What the extractor tells apart of tar's entry types. -/
inductive EntryType where
  | regular
  | directory
  | symlink
  | hardlink
  | other
  deriving DecidableEq

/-- A directory. -/
def EntryType.isDir : EntryType → Bool
  | .directory => true
  | _ => false

/-- A symlink. -/
def EntryType.isSymlink : EntryType → Bool
  | .symlink => true
  | _ => false

/-- An entry: its path, the header fields that are read (or why they cannot be), and its
data up to where reading breaks off. -/
structure Entry where
  path : PathText
  /-- `file_name().to_str()` succeeds. -/
  utf8 : Bool
  entryType : EntryType
  linkName : Except String (Option PathText)
  entrySize : Except String Nat
  mode : Except String Nat
  uid : Option Nat
  gid : Option Nat
  data : List UInt8
  broken : Option String

/-- A layer: whether its file and its decoder open, and what the archive yields. -/
structure LayerBlob where
  opened : Except String Unit
  entries : List (Except String Entry)

/-- `OciError`. -/
inductive OciError where
  | unsafePath (message : String)
  | sys (errno : Errno)
  | other (message : String)

/-- `MAX_UNCOMPRESSED_BYTES`. -/
def maxUncompressedBytes : Nat := 10 * 1024 * 1024 * 1024

/-- `MAX_SINGLE_FILE_BYTES`. -/
def maxSingleFileBytes : Nat := 2 * 1024 * 1024 * 1024

/-- `MAX_FILE_COUNT`. -/
def maxFileCount : Nat := 1000000

/-! ## §2. The unpacker's state. -/

/-- The calls that change the host. -/
inductive OpKind where
  | createDir
  | createLink
  | write
  | chmod
  | chown
  | removeFile
  | removeDirAll
  deriving DecidableEq

/-- A change of the tree, with the physical path the kernel found. -/
structure Op where
  kind : OpKind
  path : List String
  deriving DecidableEq

/-- The state of an unpacking. -/
structure Unpacker where
  host : Host
  ops : List Op
  /-- `(target, safe_path)`. -/
  pendingWhiteouts : List (List Comp × List Comp)
  /-- `(path, uid, gid)`. -/
  pendingDirOwners : List (List Comp × Nat × Nat)
  totalBytes : Nat
  fileCount : Nat

/-- The locals of `apply_layer`, at its start. -/
def Unpacker.fresh (s : Unpacker) : Unpacker :=
  { s with pendingWhiteouts := [], pendingDirOwners := [], totalBytes := 0, fileCount := 0 }

/-- The paths that wait for the end of the layer. -/
def Unpacker.queued (s : Unpacker) : List (List Comp) :=
  s.pendingDirOwners.map (·.1) ++ s.pendingWhiteouts.map (·.1)

/-- Nothing is unpacked. -/
def Unpacker.start (h : Host) : Unpacker := ⟨h, [], [], [], 0, 0⟩

/-- A function of the unpacker. -/
abbrev Unpack (α : Type) := Prog Unpacker OciError α

/-- The host as it is. -/
def readHost : Unpack Host := do
  let s ← get
  pure s.host

/-- The state after a call, with what the call touched. -/
def Unpacker.traced (s : Unpacker) (kind : OpKind) (done : Host.Done) : Unpacker :=
  { s with
    host := done.host
    ops := s.ops ++ (done.touched.map (Op.mk kind)).toList }

/-- Make a call. -/
def perform (kind : OpKind) (call : Host → Host.Done) : Unpack (Except Errno Unit) := do
  let s ← get
  set (s.traced kind (call s.host))
  pure (call s.host).result

/-- `?` on a call. -/
def orIo {α : Type} : Except Errno α → Unpack α
  | .ok a => pure a
  | .error e => throw (.sys e)

/-- `?` on what is read from the archive. -/
def orOther {α : Type} : Except String α → Unpack α
  | .ok a => pure a
  | .error e => throw (.other e)

/-- `?` on a check. -/
def orThrow {α : Type} : Except OciError α → Unpack α
  | .ok a => pure a
  | .error e => throw e

/-- `let _ =`. -/
def ignore (m : Unpack (Except Errno Unit)) : Unpack PUnit := do
  let _ ← m
  pure ⟨⟩

/-! ## §3. Paths under the root. -/

/-- `path.display()` of a path under the root. -/
def display (c : List Comp) : String := PathText.display ⟨true, c⟩

/-- `canonicalize().unwrap_or_else(|_| path)`. -/
def canonicalOr (h : Host) (c : List Comp) : List Comp :=
  match h.resolve c with
  | .ok p => ofNames p
  | .error _ => c

/-- `root.join(entry)`, for a relative entry. -/
def joinRoot (root : List String) (entry : PathText) : List Comp := ofNames root ++ entry.comps

/-- `safe_join`. -/
def safeJoin (h : Host) (root : List String) (entry : PathText) : Except OciError (List Comp) :=
  if entry.absolute then .error (.unsafePath ("absolute path rejected: " ++ entry.display))
  else if Comp.up ∈ entry.comps then
    .error (.unsafePath ("parent dir component rejected: " ++ entry.display))
  else
    let joined := joinRoot root entry
    let rootCanonical := canonicalOr h (ofNames root)
    if components (canonicalOr h joined) = components rootCanonical then .ok joined
    else
      let parent := (parentPath joined).getD (ofNames root)
      if startsWith (canonicalOr h parent) rootCanonical then .ok joined
      else .error (.unsafePath ("path traversal rejected: " ++ entry.display))

/-- The paths `root/a`, `root/a/b`, … that a walk down from the root visits; components that
are not names are skipped. -/
def below (root : List String) (dir : List Comp) : List (List Comp) :=
  ((names ((components dir).drop root.length)).inits.drop 1).map fun ns => ofNames (root ++ ns)

/-- The path leaves the root. -/
def traversalRejected (dir : List Comp) : OciError :=
  .unsafePath ("path traversal rejected: " ++ display dir)

/-- A symlink is on the way. -/
def symlinkRejected (current : List Comp) : OciError :=
  .unsafePath ("symlink prefix rejected: " ++ display current)

/-- Something else is on the way. -/
def nonDirectoryRejected (current : List Comp) : OciError :=
  .unsafePath ("non-directory prefix rejected: " ++ display current)

/-- One round of `create_dir_all_no_symlink`. -/
def createStep (current : List Comp) : Unpack PUnit := do
  let h ← readHost
  match h.lstat current with
  | .ok found =>
      if found.isLink then throw (symlinkRejected current)
      else if found.isDir then pure ⟨⟩
      else throw (nonDirectoryRejected current)
  | .error .noent => do
      let r ← perform .createDir (·.mkdir current)
      orIo r
  | .error e => throw (.sys e)

/-- `create_dir_all_no_symlink`. -/
def createDirAllNoSymlink (root : List String) (dir : List Comp) : Unpack PUnit :=
  if startsWith dir (ofNames root) then (below root dir).forM createStep
  else throw (traversalRejected dir)

/-- One round of `ensure_existing_dir_no_symlink`. -/
def ensureStep (current : List Comp) : Unpack PUnit := do
  let h ← readHost
  let found ← orIo (h.lstat current)
  if found.isLink then throw (symlinkRejected current)
  else if found.isDir then pure ⟨⟩
  else throw (nonDirectoryRejected current)

/-- `ensure_existing_dir_no_symlink`. -/
def ensureExistingDirNoSymlink (root : List String) (dir : List Comp) : Unpack PUnit :=
  if startsWith dir (ofNames root) then (below root dir).forM ensureStep
  else throw (traversalRejected dir)

/-- `validate_symlink_target`. -/
def validateSymlinkTarget (h : Host) (root : List String) (target : PathText) :
    Except OciError Unit :=
  if target.absolute then .ok ()
  else
    match h.resolve (joinRoot root target) with
    | .error _ => .ok ()
    | .ok canonical =>
        if startsWith (ofNames canonical) (canonicalOr h (ofNames root)) then .ok ()
        else .error (.unsafePath ("symlink target escapes rootfs: " ++ target.display))

/-! ## §4. Whiteouts. -/

/-- `remove_dir_all` or `remove_file`, by what is there; failures are ignored. -/
def removeFound (found : Node) (path : List Comp) : Unpack PUnit :=
  if found.isDir then ignore (perform .removeDirAll (·.removeDirAll path))
  else ignore (perform .removeFile (·.unlink path))

/-- One child of a directory that an opaque marker empties. -/
def removeChild (safePath child : List Comp) : Unpack PUnit :=
  if components child = components safePath then pure ⟨⟩
  else do
    let h ← readHost
    let found ← orIo (h.lstat child)
    removeFound found child

/-- `.wh..wh..opq`. -/
def applyOpaqueMarker (root : List String) (safePath : List Comp) : Unpack PUnit :=
  match parentPath safePath with
  | none => pure ⟨⟩
  | some parent => do
      let h ← readHost
      if startsWith parent (ofNames root) && h.pathExists parent then do
        ensureExistingDirNoSymlink root parent
        let children ← orIo (h.readDir parent)
        children.forM fun child => removeChild safePath (parent ++ [.name child])
      else pure ⟨⟩

/-- A target that is there, under the root, is removed at the end of the layer. -/
def pushWhiteout (root : List String) (h : Host) (target safePath : List Comp) : Unpack PUnit :=
  if startsWith target (ofNames root) && (h.lstat target).isOk then
    modify fun s => { s with pendingWhiteouts := s.pendingWhiteouts ++ [(target, safePath)] }
  else pure ⟨⟩

/-- `.wh.<stripped>`. -/
def queueWhiteout (root : List String) (safePath : List Comp) (stripped : String) : Unpack PUnit :=
  match parentPath safePath with
  | none => pure ⟨⟩
  | some parent => do
      let h ← readHost
      (if h.pathExists parent then ensureExistingDirNoSymlink root parent else pure ⟨⟩)
      pushWhiteout root h (parent ++ [Comp.ofSegment stripped]) safePath

/-- A queued whiteout, after the last entry. -/
def removeWhiteout (root : List String) (whiteout : List Comp × List Comp) : Unpack PUnit :=
  if startsWith whiteout.1 (ofNames root) then do
    let h ← readHost
    match h.lstat whiteout.1 with
    | .error _ => pure ⟨⟩
    | .ok found => removeFound found whiteout.1
  else pure ⟨⟩

/-! ## §5. Entries. -/

/-- `u32::try_from`. -/
def toU32 (n : Nat) (message : String) : Except OciError Nat :=
  if n < 2 ^ 32 then .ok n else .error (.other message)

/-- `entry_owner`. -/
def entryOwner (entry : Entry) : Except OciError (Option (Nat × Nat)) := do
  let uid ← toU32 (entry.uid.getD 0) "tar uid exceeds u32"
  let gid ← toU32 (entry.gid.getD 0) "tar gid exceeds u32"
  pure (some (uid, gid))

/-- `ignore_chown_eperm` of an `lchown`, which never is `EPERM` here. -/
def chownPath (path : List Comp) (uid gid : Nat) : Unpack PUnit := do
  let r ← perform .chown (·.lchown path uid gid)
  orIo r

/-- `cap` is `has_effective_cap_chown()`. -/
def preservePathOwner (cap : Bool) (path : List Comp) (entry : Entry) : Unpack PUnit :=
  if cap then do
    let owner ← orThrow (entryOwner entry)
    match owner with
    | none => pure ⟨⟩
    | some (uid, gid) => chownPath path uid gid
  else pure ⟨⟩

/-- `create_dir_all_no_symlink` on the parent, if there is one. -/
def createParents (root : List String) (safePath : List Comp) : Unpack PUnit :=
  match parentPath safePath with
  | none => pure ⟨⟩
  | some parent => createDirAllNoSymlink root parent

/-- A directory entry. -/
def makeDirectory (root : List String) (safePath : List Comp) (entry : Entry) : Unpack PUnit := do
  createDirAllNoSymlink root safePath
  let owner ← orThrow (entryOwner entry)
  match owner with
  | none => pure ⟨⟩
  | some (uid, gid) =>
      modify fun s =>
        { s with pendingDirOwners := s.pendingDirOwners ++ [(safePath, uid, gid)] }

/-- A real directory where the symlink is to stand goes with all its contents. -/
def clearDirectory (safePath : List Comp) : Unpack PUnit := do
  let h ← readHost
  match h.lstat safePath with
  | .error _ => pure ⟨⟩
  | .ok found =>
      if found.isDir then do
        let r ← perform .removeDirAll (·.removeDirAll safePath)
        orIo r
      else pure ⟨⟩

/-- A symlink entry. -/
def makeSymlink (root : List String) (cap : Bool) (safePath : List Comp) (entry : Entry) :
    Unpack PUnit := do
  let link ← orOther entry.linkName
  match link with
  | none => throw (.other "symlink without target")
  | some target => do
      let h ← readHost
      orThrow (validateSymlinkTarget h root target)
      createParents root safePath
      ignore (perform .removeFile (·.unlink safePath))
      clearDirectory safePath
      let r ← perform .createLink (·.symlink target safePath)
      orIo r
      preservePathOwner cap safePath entry

/-- A file or symlink at the path is unlinked, so that `File::create` follows none. -/
def unlinkStale (safePath : List Comp) : Unpack PUnit := do
  let h ← readHost
  match h.lstat safePath with
  | .error _ => pure ⟨⟩
  | .ok found =>
      if found.isDir then pure ⟨⟩ else ignore (perform .removeFile (·.unlink safePath))

/-- `io::copy`: what was copied before reading broke off is in the file. -/
def copied (entry : Entry) : Except String Nat :=
  match entry.broken with
  | none => .ok entry.data.length
  | some e => .error e

/-- The cap on the bytes. -/
def countBytes (written : Nat) : Unpack PUnit := do
  modify fun s => { s with totalBytes := s.totalBytes + written }
  let s ← get
  if maxUncompressedBytes < s.totalBytes then
    throw (.other ("layer exceeds total size limit (" ++ toString s.totalBytes ++ " > "
      ++ toString maxUncompressedBytes ++ ")"))
  else pure ⟨⟩

/-- Any other entry. -/
def writeEntry (root : List String) (safePath : List Comp) (entry : Entry) : Unpack PUnit := do
  let entrySize ← orOther entry.entrySize
  if maxSingleFileBytes < entrySize then
    throw (.other ("file exceeds per-file size limit (" ++ toString entrySize ++ " > "
      ++ toString maxSingleFileBytes ++ "): " ++ entry.path.display))
  else do
    createParents root safePath
    unlinkStale safePath
    let r ← perform .write (·.writeFile safePath entry.data)
    orIo r
    let written ← orOther (copied entry)
    countBytes written

/-- The mode of the entry. -/
def setMode (safePath : List Comp) (entry : Entry) : Unpack PUnit := do
  let mode ← orOther entry.mode
  if mode = 0 then pure ⟨⟩
  else ignore (perform .chmod (·.chmod safePath (mode &&& 0o777)))

/-- Every entry that is materialised counts. -/
def countEntry : Unpack PUnit := do
  modify fun s => { s with fileCount := s.fileCount + 1 }
  let s ← get
  if maxFileCount < s.fileCount then
    throw (.other ("layer exceeds entry count limit (" ++ toString s.fileCount ++ " > "
      ++ toString maxFileCount ++ ")"))
  else pure ⟨⟩

/-- The branch on the entry's type; all that is neither directory nor symlink is a file. -/
def materialize (root : List String) (cap : Bool) (safePath : List Comp) (entry : Entry) :
    Unpack PUnit :=
  if entry.entryType.isDir then do
    makeDirectory root safePath entry
    setMode safePath entry
  else if entry.entryType.isSymlink then makeSymlink root cap safePath entry
  else do
    writeEntry root safePath entry
    setMode safePath entry
    preservePathOwner cap safePath entry

/-- `file_name().and_then(to_str).unwrap_or("")`. -/
def entryFileName (entry : Entry) : String :=
  if entry.utf8 then (fileName entry.path.comps).getD "" else ""

/-- `strip_prefix(".wh.")`. -/
def stripWhiteout (name : String) : Option String :=
  if ".wh.".toList.isPrefixOf name.toList then some (String.ofList (name.toList.drop 4))
  else none

/-- The body of the loop over the entries. -/
def applyEntry (root : List String) (cap : Bool) (next : Except String Entry) : Unpack PUnit := do
  let entry ← orOther next
  let h ← readHost
  let safePath ← orThrow (safeJoin h root entry.path)
  if entryFileName entry = ".wh..wh..opq" then applyOpaqueMarker root safePath
  else
    match stripWhiteout (entryFileName entry) with
    | some stripped => queueWhiteout root safePath stripped
    | none => do
        countEntry
        materialize root cap safePath entry

/-! ## §6. Layers. -/

/-- A queued owner, after the last entry. -/
def chownDirectory (cap : Bool) (owner : List Comp × Nat × Nat) : Unpack PUnit :=
  if cap then chownPath owner.1 owner.2.1 owner.2.2 else pure ⟨⟩

/-- What waits for the end of the layer: the owners, the last one first, then the whiteouts. -/
def finishLayer (root : List String) (cap : Bool) : Unpack PUnit := do
  let s ← get
  s.pendingDirOwners.reverse.forM (chownDirectory cap)
  s.pendingWhiteouts.forM (removeWhiteout root)

/-- `apply_layer`. -/
def applyLayer (root : List String) (cap : Bool) (layer : LayerBlob) : Unpack PUnit := do
  orOther layer.opened
  modify Unpacker.fresh
  layer.entries.forM (applyEntry root cap)
  finishLayer root cap

/-- `path.is_dir()`, which follows symlinks. -/
def isDirAt (h : Host) (c : List Comp) : Bool :=
  match h.resolve c with
  | .ok p => h.isDir p
  | .error _ => false

/-- A failed `mkdir` is no failure if the directory is there. -/
def orIsDir (c : List Comp) (e : Errno) : Unpack PUnit := do
  let h ← readHost
  if isDirAt h c then pure ⟨⟩ else throw (.sys e)

/-- `fs::create_dir_all`, on the reversed names. -/
def createDirAll : List String → Unpack PUnit
  | [] => pure ⟨⟩
  | n :: parents => do
      let path := ofNames (n :: parents).reverse
      let r ← perform .createDir (·.mkdir path)
      match r with
      | .ok _ => pure ⟨⟩
      | .error .noent => do
          createDirAll parents
          let r ← perform .createDir (·.mkdir path)
          match r with
          | .ok _ => pure ⟨⟩
          | .error e => orIsDir path e
      | .error e => orIsDir path e

/-- `TarRootfsUnpacker::unpack`. -/
def unpack (root : List String) (cap : Bool) (layers : List LayerBlob) : Unpack PUnit := do
  createDirAll root.reverse
  layers.forM (applyLayer root cap)

end Denia.Oci

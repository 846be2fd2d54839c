/-
  Denia.Artifacts.Process — the process a bundle runs: from the image config and the unpacked
  rootfs to `process.json` (`rootfs_bundle_from_oci_config`, `src/artifacts/acquirer.rs`, and
  the `TryFrom` of `src/oci/config.rs`).

  The rootfs is an arbitrary type of trees that is read in two ways (`RootfsReads`): the text
  of a file, and whether a path is an executable file.  Who owns a file is not read.
-/
import Denia.Oci.Image
import Denia.Oci.Unpack

namespace Denia.Artifacts

open Lib Oci

/-! ## §1. Errors. -/

/-- The `std::io::ErrorKind`s that the acquirer tells apart or makes. -/
inductive ErrorKind where
  | notFound
  | alreadyExists
  | permissionDenied
  | directoryNotEmpty
  | invalidInput
  | invalidData
  | other
  deriving DecidableEq

/-- `io::Error`. -/
structure IoError where
  kind : ErrorKind
  message : String
  deriving DecidableEq

/-- `CommandError`. -/
inductive CommandError where
  | io (error : IoError)
  | failed (status : Int) (stderr : String)

/-- `ArtifactError`. -/
inductive ArtifactError where
  | emptyDigest

/-- `ArtifactAcquireError`; its `Oci` variant is split by who returns it. -/
inductive ArtifactAcquireError where
  | command (error : CommandError)
  | artifact (error : ArtifactError)
  | io (error : IoError)
  | missingProcessArgv
  | invalidEnvironmentEntry (entry : String)
  | invalidImageUser (user reason : String)
  | puller (error : PullerError)
  | unpacker (error : OciError)
  | invalidUploadId

/-! ## §2. Text. -/

/-- `char::is_whitespace`. -/
def isWhitespace (c : Char) : Bool :=
  (0x09 ≤ c.toNat ∧ c.toNat ≤ 0x0d) ∨ c.toNat = 0x20 ∨ c.toNat = 0x85 ∨ c.toNat = 0xa0 ∨
    c.toNat = 0x1680 ∨ (0x2000 ≤ c.toNat ∧ c.toNat ≤ 0x200a) ∨ c.toNat = 0x2028 ∨
    c.toNat = 0x2029 ∨ c.toNat = 0x202f ∨ c.toNat = 0x205f ∨ c.toNat = 0x3000

/-- `str::trim`. -/
def trim (s : String) : String :=
  String.ofList ((s.toList.dropWhile isWhitespace).rdropWhile isWhitespace)

/-- `split_once`. -/
def splitOnce (s : String) (sep : Char) : Option (String × String) :=
  if sep ∈ s.toList then
    some (String.ofList (s.toList.takeWhile (· ≠ sep)),
      String.ofList ((s.toList.dropWhile (· ≠ sep)).drop 1))
  else none

/-- `split` at a character. -/
def splitAt (s : String) (sep : Char) : List String := (s.toList.splitOn sep).map String.ofList

/-- `lines`: a line that a line feed ends loses the carriage return before it; what follows
the last line feed is a line, as it stands, unless it is empty. -/
def lines (s : String) : List String :=
  let split := s.toList.splitOn '\n'
  let ended := split.dropLast.map fun line =>
    if line.getLast? = some '\r' then line.dropLast else line
  (ended ++ split.getLast?.toList.filter (· ≠ [])).map String.ofList

/-- The number a list of decimal digits writes. -/
def digits : Nat → List Char → Option Nat
  | n, [] => some n
  | n, c :: rest => if c.isDigit then digits (10 * n + (c.toNat - '0'.toNat)) rest else none

/-- `parse::<u32>`: digits, with at most a plus sign before them. -/
def parseU32 (s : String) : Option Nat :=
  let text := match s.toList with
    | '+' :: rest => rest
    | text => text
  match text with
  | [] => none
  | text => (digits 0 text).filter (· < 2 ^ 32)

/-! ## §3. From the image config. -/

/-- `ProcessUser`. -/
structure ProcessUser where
  uid : Nat
  gid : Nat

/-- `process.json`. -/
structure RootfsBundleSpec where
  argv : List String
  env : List (String × String)
  workdir : String
  user : ProcessUser

/-- How a rootfs is read: `fs::read_to_string` of a path below it, and whether `fs::metadata`
finds a file there with one of its executable bits set. -/
structure RootfsReads (Tree : Type) where
  readToString : Tree → String → Except IoError String
  isExecutable : Tree → String → Bool

/-- `parse_env`. -/
def parseEnv : List String → Except ArtifactAcquireError (List (String × String))
  | [] => pure []
  | entry :: rest => do
      let pair ← orError (splitOnce entry '=') (.invalidEnvironmentEntry entry)
      let others ← parseEnv rest
      pure (pair :: others)

/-- Entrypoint and command, or the command alone. -/
def argvOf (process : OciImageProcessConfig) : Except ArtifactAcquireError (List String) :=
  let entrypoint := process.entrypoint.getD []
  let cmd := process.cmd.getD []
  if entrypoint ≠ [] then .ok (entrypoint ++ cmd)
  else if cmd ≠ [] then .ok cmd
  else .error .missingProcessArgv

/-- `PasswdEntry`. -/
structure PasswdEntry where
  name : String
  uid : Nat
  gid : Nat

/-- `GroupEntry`. -/
structure GroupEntry where
  name : String
  gid : Nat

/-- A line of `etc/passwd`. -/
def passwdEntry (line : String) : Option PasswdEntry :=
  match splitAt line ':' with
  | name :: _ :: uid :: gid :: _ => do
      let uid ← parseU32 uid
      let gid ← parseU32 gid
      some ⟨name, uid, gid⟩
  | _ => none

/-- A line of `etc/group`. -/
def groupEntry (line : String) : Option GroupEntry :=
  match splitAt line ':' with
  | name :: _ :: gid :: _ => do
      let gid ← parseU32 gid
      some ⟨name, gid⟩
  | _ => none

section
variable {Tree : Type} (reads : RootfsReads Tree)

/-- The text of a file that may be missing. -/
def readOptional (rootfs : Tree) (path : String) : Except ArtifactAcquireError String :=
  match reads.readToString rootfs path with
  | .ok content => .ok content
  | .error e => if e.kind = .notFound then .ok "" else .error (.io e)

/-- `read_passwd`. -/
def readPasswd (rootfs : Tree) : Except ArtifactAcquireError (List PasswdEntry) := do
  let content ← readOptional reads rootfs "etc/passwd"
  pure ((lines content).filterMap passwdEntry)

/-- `read_group`. -/
def readGroup (rootfs : Tree) : Except ArtifactAcquireError (List GroupEntry) := do
  let content ← readOptional reads rootfs "etc/group"
  pure ((lines content).filterMap groupEntry)

/-- The user named by number or by name, with the group it has in `etc/passwd`. -/
def userIds (passwd : List PasswdEntry) (rawUser userPart : String) :
    Except ArtifactAcquireError (Nat × Nat) :=
  match parseU32 userPart with
  | some uid => .ok (uid, ((passwd.find? fun e => e.uid = uid).map (·.gid)).getD 0)
  | none => do
      let entry ← orError (passwd.find? fun e => e.name = userPart)
        (.invalidImageUser rawUser "unknown user name")
      pure (entry.uid, entry.gid)

/-- The gid of the group part. -/
def groupId (groups : List GroupEntry) (rawUser groupPart : String) (defaultGid : Nat) :
    Except ArtifactAcquireError Nat :=
  if groupPart = "" then .ok defaultGid
  else
    match parseU32 groupPart with
    | some gid => .ok gid
    | none => do
        let entry ← orError (groups.find? fun e => e.name = groupPart)
          (.invalidImageUser rawUser "unknown group name")
        pure entry.gid

/-- `resolve_process_user`. -/
def resolveProcessUser (user : String) (rootfs : Tree) (usernsSize : Nat) :
    Except ArtifactAcquireError ProcessUser := do
  let rawUser := trim user
  if rawUser = "" then pure ⟨0, 0⟩
  else
    let (userPart, groupPart) := (splitOnce rawUser ':').getD (rawUser, "")
    require (userPart ≠ "") (.invalidImageUser rawUser "user component is empty")
    let passwd ← readPasswd reads rootfs
    let groups ← readGroup reads rootfs
    let (uid, defaultGid) ← userIds passwd rawUser userPart
    let gid ← groupId groups rawUser groupPart defaultGid
    require (uid < usernsSize ∧ gid < usernsSize)
      (.invalidImageUser rawUser "uid/gid is outside the configured user namespace size")
    pure ⟨uid, gid⟩

/-- `rootfs.join(entry.trim_start_matches('/')).join(argv0)`, below the rootfs. -/
def candidate (entry argv0 : String) : String :=
  match entry.toList.dropWhile (· = '/') with
  | [] => argv0
  | dir => String.ofList dir ++ "/" ++ argv0

/-- The first directory of `PATH` that has the program. -/
def lookupArgv0 (rootfs : Tree) (argv0 : String) : List String → Option String
  | [] => none
  | entry :: rest =>
      if entry.toList.head? = some '/' ∧ reads.isExecutable rootfs (candidate entry argv0) then
        some (entry ++ "/" ++ argv0)
      else lookupArgv0 rootfs argv0 rest

/-- `resolve_relative_argv0_from_path`. -/
def resolveRelativeArgv0FromPath (process : RootfsBundleSpec) (rootfs : Tree) : RootfsBundleSpec :=
  match process.argv with
  | [] => process
  | argv0 :: args =>
      if '/' ∈ argv0.toList then process
      else
        match process.env.find? fun e => e.1 = "PATH" with
        | none => process
        | some (_, path) =>
            match lookupArgv0 reads rootfs argv0 (splitAt path ':') with
            | none => process
            | some found => { process with argv := found :: args }

/-- `rootfs_bundle_from_oci_config`. -/
def rootfsBundleFromOciConfig (config : OciImageConfig) (rootfs : Tree) (usernsSize : Nat) :
    Except ArtifactAcquireError RootfsBundleSpec := do
  let process ← orError config.config .missingProcessArgv
  let argv ← argvOf process
  let env ← parseEnv (process.envVars.getD [])
  let user ← resolveProcessUser reads (process.user.getD "") rootfs usernsSize
  pure (resolveRelativeArgv0FromPath reads
    ⟨argv, env, process.workingDir.getD "/", user⟩ rootfs)

end

end Denia.Artifacts

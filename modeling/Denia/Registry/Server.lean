/-
  Denia.Registry.Server — the hosted registry while it is IN USE: any number of blob
  uploads, mounts, manifest pushes and collector sweeps at once
  (`src/registry/api_v2.rs`, `src/registry/storage.rs`, `src/registry/gc.rs`).

  No lock is held between two calls of a handler, and none per upload or per digest.
  A handler is therefore a program counter over its calls, and one call (one
  filesystem step, or one repository call, which holds the connection for its whole
  length) is one step of the machine.

  What the environment answers is part of the label: how many bytes a `read` or a
  `write` moves, and in which order SQLite returns rows.  A response is reduced to
  whether the request was accepted and, if not, to its error.  Durability
  (`sync_all`, `sync_parent_dir`) has no effect that another request can see.  The deletion
  of rows (`delete_manifest`, `delete_blob`) is not among the requests.
-/
import Mathlib.Data.Finset.Erase
import Mathlib.Data.Finset.Insert
import Denia.Lib.Fs
import Denia.Lib.Run
import Denia.Registry.Gc

namespace Denia.Registry

open Lib

/-- Upload ids and repository ids. -/
abbrev Uuid := Nat

/-- A file of the registry: `uploads/<id>/data`, or a name in `blobs/sha256/`. -/
inductive Path where
  | data (upload : Uuid)
  | blob (fileName : String)
  deriving DecidableEq

/-- What the handlers are configured with.  SHA-256, with its prefix and in hex, and
`serde_json::from_slice` are outside the repository. -/
structure Config where
  sha256 : Bytes → String
  fromSlice : Bytes → Option Json
  maxBlobBytes : Nat
  maxManifestBytes : Nat
  grace : Nat

/-- `FLUSH_THRESHOLD`. -/
def flushThreshold : Nat := 1024 * 1024

/-- The buffer of `hash_upload`. -/
def hashBuffer : Nat := 8192

/-- The `ApiError`s the handlers answer with. -/
inductive ApiError where
  | badRequest (reason : String)
  | notFound (reason : String)
  | conflict (reason : String)
  | payloadTooLarge (reason : String)
  deriving DecidableEq

/-- `storage_err`. -/
def storageErr : RegistryStorageError → ApiError
  | .invalidDigest => .badRequest "invalid digest"
  | .io .notFound => .notFound "blob unknown"
  | .io .other => .conflict "registry storage error"

/-- A request body as it arrives: its chunks, and whether the stream then breaks off. -/
structure Body where
  chunks : List Bytes
  broken : Bool

/-- A request, past authorisation: `repository` is the one its path resolves to, and so
is the source repository of a mount. -/
inductive Request where
  | startUpload (repository : Uuid) (mount : Option (String × Option Uuid))
      (digest : Option String) (body : Body)
  | patchUpload (repository upload : Uuid) (rangeStart : Option Nat) (body : Body)
  | commitUpload (repository upload : Uuid) (digest : Option String) (body : Body)
  | putManifest (repository : Uuid) (reference mediaType : String) (bytes : Bytes)
  | sweepOnce

namespace Request

/-- The repository of a request; a sweep has none. -/
def repository : Request → Uuid
  | startUpload repository _ _ _ | patchUpload repository _ _ _
  | commitUpload repository _ _ _ | putManifest repository _ _ _ => repository
  | sweepOnce => 0

/-- The body that is streamed. -/
def body : Request → Body
  | startUpload _ _ _ body | patchUpload _ _ _ body | commitUpload _ _ _ body => body
  | putManifest _ _ _ _ | sweepOnce => ⟨[], false⟩

/-- The digest a streamed body is committed under; none for a `PATCH`. -/
def target : Request → Option String
  | startUpload _ _ digest _ | commitUpload _ _ digest _ => digest
  | patchUpload _ _ _ _ | putManifest _ _ _ _ | sweepOnce => none

end Request

/-- How a request or a sweep ends. -/
inductive Outcome where
  | accepted
  | refused (error : ApiError)
  | aborted (error : RegistryGcError)
  deriving DecidableEq

/-- `commit_blob` under way: the digest, the size `hash_upload` counted, and the file
name `blob_path` gave. -/
structure Commit where
  digest : String
  size : Nat
  fileName : String
  deriving DecidableEq

/-- A sweep under way.  `bodies` is a HISTORY: the manifest bodies parsed so far. -/
structure Sweep where
  referenced : List String
  bodies : List Bytes
  report : RegistryGcReport
  deriving DecidableEq

/-- An entry of `list_blobs`. -/
abbrev Listed := String × Time × Nat

/-- The next call of a handler. -/
inductive Pc where
  -- `start_upload`: the mount, then the session
  | mountSource (digest : String) (source : Uuid)
  | mountDisk (digest : String) (size : Nat)
  | mountPut (digest : String) (size : Nat)
  | createDir
  | createSession
  -- `patch_upload` and `commit_upload`: the session, and the `Content-Range` check
  | session
  | rangeSize (start : Nat)
  -- `stream_to_upload`: `append_upload` batch by batch
  | streamSize
  | appendOpen (batch : Bytes) (total : Nat) (rest : List Bytes)
  | appendWrite (left : Bytes) (fd total : Nat) (rest : List Bytes)
  -- `hash_upload`
  | hashOpen (digest : String)
  | hashRead (digest : String) (fd : Nat) (seen : Bytes)
  -- `commit_blob`
  | commitStat (digest : String) (size : Nat)
  | commitOpen (c : Commit)
  | commitRename (c : Commit)
  | commitCreate (c : Commit)
  | cleanData (c : Commit)
  | cleanDir (c : Commit)
  -- ... and its rows
  | putBlob (digest : String) (size : Nat)
  | deleteSession
  -- the upload is given up: `delete_upload`, on disk and in the rows
  | dropData (error : ApiError)
  | dropDir (error : ApiError)
  | dropSession (error : ApiError)
  -- `put_manifest`: the referenced digests one by one, `put_content`, the row
  | checkBlob (checked : List String) (dep : String) (rest : List String)
  | checkManifest (checked : List String) (dep : String) (rest : List String)
  | stageCreate (fileName : String)
  | stageWrite (fileName : String) (fd offset : Nat)
  | stageRename (fileName : String)
  | recordManifest
  -- `sweep_once`
  | listManifests
  | markOpen (s : Sweep) (digest : String) (queue : List String)
  | markRead (s : Sweep) (digest : String) (queue : List String) (fd : Nat) (seen : Bytes)
  | countUploads (s : Sweep)
  | listBlobs (s : Sweep)
  | statBlob (s : Sweep) (cutoff : Time) (names : List String) (listed : List Listed)
  | deleteFile (s : Sweep) (cutoff : Time) (digest : String) (size : Nat) (rest : List Listed)
  | deleteRows (s : Sweep) (cutoff : Time) (digest : String) (size : Nat) (rest : List Listed)
  | recordRun (s : Sweep)
  | done (outcome : Outcome)
  deriving DecidableEq

/-- A request being handled; `upload` is the session it works on. -/
structure Thread where
  request : Request
  upload : Uuid
  pc : Pc

/-- What the handlers share: the files, the upload directories, the rows (`sessions` is
`hosted_uploads`) and the clock.  `Uuid::now_v7` is the counter `nextUpload`. -/
structure Shared where
  fs : Fs Path UInt8
  dirs : Finset Uuid
  repo : HostedRegistryRepo
  sessions : AList fun _ : Uuid => Uuid
  nextUpload : Uuid
  clock : Time

/-- What the environment answers to one call: how many bytes are moved at most, and the
rows of `all_manifest_digests` in the order SQLite returns them. -/
structure Answer where
  amount : Nat
  listing : List String

/-! ## §1. Between two calls. -/

/-- `stream_to_upload` up to its next append. -/
inductive Batch where
  | append (batch : Bytes) (total : Nat) (rest : List Bytes)
  | finished
  | failed (error : ApiError)

/-- The loop over the chunks of a body. -/
def nextBatch (cfg : Config) (broken : Bool) (total : Nat) (pending : Bytes) : List Bytes → Batch
  | [] =>
      if broken then .failed (.badRequest "body read error")
      else if pending.isEmpty then .finished
      else .append pending total []
  | chunk :: rest =>
      if cfg.maxBlobBytes < total + chunk.length then
        .failed (.payloadTooLarge
          ("blob upload exceeds " ++ toString cfg.maxBlobBytes ++ " byte limit"))
      else if flushThreshold ≤ (pending ++ chunk).length then
        .append (pending ++ chunk) (total + chunk.length) rest
      else nextBatch cfg broken (total + chunk.length) (pending ++ chunk) rest

/-- A body that could not be streamed: a commit gives the upload up, a `PATCH` keeps it. -/
def streamFailed (request : Request) (error : ApiError) : Pc :=
  match request.target with
  | none => .done (.refused error)
  | some _ => .dropData error

/-- Past an append, or before the first one. -/
def streaming (cfg : Config) (request : Request) (total : Nat) (rest : List Bytes) : Pc :=
  match nextBatch cfg request.body.broken total [] rest with
  | .append batch total rest => .appendOpen batch total rest
  | .failed error => streamFailed request error
  | .finished =>
      match request.target with
      | none => .done .accepted
      | some digest => .hashOpen digest

/-- Past `hash_upload`: the computed digest against the one that was asked for. -/
def hashed (actual digest : String) (size : Nat) : Pc :=
  if actual = digest then .commitStat digest size
  else .dropData (.badRequest "digest mismatch")

/-- The loop over the referenced digests, and `put_content` after it. -/
def checks (digest : String) (checked : List String) : List String → Pc
  | dep :: rest => .checkBlob checked dep rest
  | [] =>
      match blobPath digest with
      | .error e => .done (.refused (storageErr e))
      | .ok fileName => .stageCreate fileName

/-- The temporary name of `put_content`: a blob's name is all hex digits, so
`with_extension` only appends. -/
def tmpName (fileName : String) : String := fileName ++ ".tmp"

/-- The mark loop up to its next read. -/
def marking (s : Sweep) : List String → Pc
  | [] => .countUploads s
  | digest :: queue =>
      if digest ∈ s.referenced then marking s queue else .markOpen s digest queue

/-- A manifest body has been read. -/
def marked (cfg : Config) (s : Sweep) (digest : String) (queue : List String) (bytes : Bytes) :
    Pc :=
  match cfg.fromSlice bytes with
  | none => .done (.aborted .json)
  | some v =>
      marking
        { s with
          referenced := markBody (digest :: s.referenced) v
          bodies := bytes :: s.bodies }
        ((subManifestDigests v).reverse ++ queue)

/-- The loop over `list_blobs` up to its next deletion. -/
def sweeping (s : Sweep) (cutoff : Time) : List Listed → Pc
  | [] => .recordRun s
  | (digest, mtime, size) :: rest =>
      let scanned := { s.report with scannedBlobs := s.report.scannedBlobs + 1 }
      if digest ∈ s.referenced then
        sweeping { s with
          report := { scanned with keptReferenced := scanned.keptReferenced + 1 } } cutoff rest
      else if mtime > cutoff then
        sweeping { s with
          report := { scanned with keptRecent := scanned.keptRecent + 1 } } cutoff rest
      else .deleteFile { s with report := scanned } cutoff digest size rest

/-- Past the metadata of some of the listed files. -/
def listing (s : Sweep) (cutoff : Time) (listed : List Listed) : List String → Pc
  | [] => sweeping s cutoff listed
  | name :: names => .statBlob s cutoff (name :: names) listed

/-- Where a handler starts. -/
def Request.start (cfg : Config) : Request → Pc
  | .startUpload _ (some (digest, some source)) _ _ => .mountSource digest source
  | .startUpload _ _ _ _ => .createDir
  | .patchUpload _ _ _ _ | .commitUpload _ _ _ _ => .session
  | .putManifest _ reference _ bytes =>
      if cfg.maxManifestBytes < bytes.length then
        .done (.refused (.payloadTooLarge
          ("manifest exceeds " ++ toString cfg.maxManifestBytes ++ " byte limit")))
      else if reference.startsWith sha256Prefix ∧ reference ≠ cfg.sha256 bytes then
        .done (.refused (.badRequest
          ("manifest digest mismatch: url=" ++ reference ++ " body=" ++ cfg.sha256 bytes)))
      else
        match cfg.fromSlice bytes with
        | none => .done (.refused (.badRequest "invalid manifest body"))
        | some v => checks (cfg.sha256 bytes) [] (referencedDigests v)
  | .sweepOnce => .listManifests

/-- A request that has just arrived. -/
def Thread.start (cfg : Config) (request : Request) : Thread :=
  { request
    upload := match request with
      | .patchUpload _ upload _ _ | .commitUpload _ upload _ _ => upload
      | _ => 0
    pc := request.start cfg }

/-- The bytes of a manifest request, and none of the others. -/
def Request.manifestBytes : Request → Bytes
  | .putManifest _ _ _ bytes => bytes
  | _ => []

/-- The media type a manifest is recorded with. -/
def Request.mediaType : Request → String
  | .putManifest _ _ mediaType _ => mediaType
  | _ => ""

/-! ## §2. One call. -/

namespace Shared

/-- `upload_size`, `metadata(..).len()` with a missing file as zero. -/
def uploadSize (w : Shared) (upload : Uuid) : Nat :=
  ((w.fs.read (.data upload)).map List.length).getD 0

/-- The names in `blobs/sha256/`, in directory order. -/
def blobNames (w : Shared) : List String :=
  w.fs.links.keys.filterMap fun
    | .blob fileName => some fileName
    | .data _ => none

/-- `count_active_uploads`. -/
def countActiveUploads (w : Shared) : Nat :=
  (w.fs.links.keys.filter fun
    | .data upload => upload ∈ w.dirs
    | .blob _ => false).length

/-- The listing is an answer of `all_manifest_digests`. -/
def lists (w : Shared) (digests : List String) : Bool :=
  digests.Nodup ∧ (∀ d ∈ digests, ∃ k ∈ w.repo.manifests.keys, k.2 = d) ∧
    ∀ k ∈ w.repo.manifests.keys, k.2 ∈ digests

/-- `unlink` of the data file, as `remove_dir_all` does it. -/
def unlinkData (w : Shared) (upload : Uuid) : Shared :=
  { w with fs := w.fs.unlink (.data upload) }

/-- `rmdir` of the upload directory: refused while it has a data file. -/
def rmdir (w : Shared) (upload : Uuid) : Shared :=
  if (w.fs.read (.data upload)).isSome then w else { w with dirs := w.dirs.erase upload }

/-- `start_upload`. -/
def startUpload (w : Shared) (t : Thread) : Pc → Option (Shared × Thread)
  | .mountSource digest source =>
      match w.repo.blobSize source digest with
      | none => some (w, { t with pc := .createDir })
      | some size => some (w, { t with pc := .mountDisk digest size })
  | .mountDisk digest size =>
      match blobPath digest with
      | .error e => some (w, { t with pc := .done (.refused (storageErr e)) })
      | .ok fileName =>
          match w.fs.read (.blob fileName) with
          | none => some (w, { t with pc := .createDir })
          | some _ => some (w, { t with pc := .mountPut digest size })
  | .mountPut digest size =>
      some ({ w with repo := w.repo.putBlob t.request.repository digest size },
        { t with pc := .done .accepted })
  | .createDir =>
      some ({ w with dirs := insert w.nextUpload w.dirs, nextUpload := w.nextUpload + 1 },
        { t with upload := w.nextUpload, pc := .createSession })
  | .createSession =>
      some ({ w with sessions := w.sessions.insert t.upload t.request.repository },
        { t with pc := match t.request.target with
          | none => .done .accepted
          | some _ => .streamSize })
  | _ => none

/-- `patch_upload` and `commit_upload` up to the stream, and `stream_to_upload`. -/
def stream (cfg : Config) (w : Shared) (t : Thread) (a : Answer) : Pc → Option (Shared × Thread)
  | .session =>
      if w.sessions.lookup t.upload = some t.request.repository then
        some (w, { t with pc := match t.request with
          | .patchUpload _ _ (some start) _ => .rangeSize start
          | .commitUpload _ _ none _ => .done (.refused (.badRequest "missing digest"))
          | _ => .streamSize })
      else some (w, { t with pc := .done (.refused (.notFound "upload unknown")) })
  | .rangeSize start =>
      if start = w.uploadSize t.upload then some (w, { t with pc := .streamSize })
      else some (w, { t with pc := .done (.refused (.badRequest
        ("out-of-order chunk: Content-Range start " ++ toString start ++
          " != current offset " ++ toString (w.uploadSize t.upload)))) })
  | .streamSize =>
      some (w, { t with
        pc := streaming cfg t.request (w.uploadSize t.upload) t.request.body.chunks })
  | .appendOpen batch total rest =>
      if t.upload ∈ w.dirs then
        some ({ w with fs := (w.fs.openCreate w.clock (.data t.upload)).1 },
          { t with
            pc := .appendWrite batch (w.fs.openCreate w.clock (.data t.upload)).2 total rest })
      else some (w, { t with pc := streamFailed t.request (storageErr (.io .notFound)) })
  | .appendWrite left fd total rest =>
      -- `O_APPEND`: the bytes go to the end, wherever that is by now
      some ({ w with
          fs := w.fs.write w.clock fd (w.fs.contents fd ++ left.take (max 1 a.amount)) },
        { t with pc := match left.drop (max 1 a.amount) with
          | [] => streaming cfg t.request total rest
          | left => .appendWrite left fd total rest })
  | _ => none

/-- `hash_upload`, `commit_blob` and the rows of a commit; `delete_upload`. -/
def commit (cfg : Config) (w : Shared) (t : Thread) (a : Answer) : Pc → Option (Shared × Thread)
  | .hashOpen digest =>
      match w.fs.links.lookup (.data t.upload) with
      | none => some (w, { t with pc := hashed (cfg.sha256 []) digest 0 })
      | some fd => some (w, { t with pc := .hashRead digest fd [] })
  | .hashRead digest fd seen =>
      match w.fs.readAt fd seen.length (min hashBuffer a.amount) with
      | [] => some (w, { t with pc := hashed (cfg.sha256 seen) digest seen.length })
      | chunk => some (w, { t with pc := .hashRead digest fd (seen ++ chunk) })
  | .commitStat digest size =>
      match blobPath digest with
      | .error e => some (w, { t with pc := .done (.refused (storageErr e)) })
      | .ok fileName =>
          match w.fs.read (.data t.upload) with
          | some _ => some (w, { t with pc := .commitOpen ⟨digest, size, fileName⟩ })
          | none => some (w, { t with pc := .commitCreate ⟨digest, size, fileName⟩ })
  | .commitOpen c =>
      match w.fs.read (.data t.upload) with
      | none => some (w, { t with pc := .done (.refused (storageErr (.io .notFound))) })
      | some _ => some (w, { t with pc := .commitRename c })
  | .commitRename c =>
      match w.fs.rename (.data t.upload) (.blob c.fileName) with
      | none => some (w, { t with pc := .done (.refused (storageErr (.io .notFound))) })
      | some fs => some ({ w with fs := fs }, { t with pc := .cleanData c })
  | .commitCreate c =>
      some ({ w with fs := (w.fs.create w.clock (.blob c.fileName)).1 },
        { t with pc := .cleanData c })
  | .cleanData c => some (w.unlinkData t.upload, { t with pc := .cleanDir c })
  | .cleanDir c => some (w.rmdir t.upload, { t with pc := .putBlob c.digest c.size })
  | .putBlob digest size =>
      some ({ w with repo := w.repo.putBlob t.request.repository digest size },
        { t with pc := .deleteSession })
  | .deleteSession =>
      some ({ w with sessions := w.sessions.erase t.upload }, { t with pc := .done .accepted })
  | .dropData e => some (w.unlinkData t.upload, { t with pc := .dropDir e })
  | .dropDir e => some (w.rmdir t.upload, { t with pc := .dropSession e })
  | .dropSession e =>
      some ({ w with sessions := w.sessions.erase t.upload },
        { t with pc := .done (.refused e) })
  | _ => none

/-- `put_manifest`. -/
def putManifest (cfg : Config) (w : Shared) (t : Thread) (a : Answer) :
    Pc → Option (Shared × Thread)
  | .checkBlob checked dep rest =>
      if w.repo.hasBlob t.request.repository dep then
        some (w, { t with
          pc := checks (cfg.sha256 t.request.manifestBytes) (checked ++ [dep]) rest })
      else some (w, { t with pc := .checkManifest checked dep rest })
  | .checkManifest checked dep rest =>
      if (w.repo.manifest t.request.repository dep).isSome then
        some (w, { t with
          pc := checks (cfg.sha256 t.request.manifestBytes) (checked ++ [dep]) rest })
      else some (w, { t with pc := .done (.refused (.badRequest
        ("manifest references unknown blob: " ++ dep))) })
  | .stageCreate fileName =>
      some ({ w with fs := (w.fs.create w.clock (.blob (tmpName fileName))).1 },
        { t with
          pc := .stageWrite fileName (w.fs.create w.clock (.blob (tmpName fileName))).2 0 })
  | .stageWrite fileName fd offset =>
      match (t.request.manifestBytes.drop offset).take (max 1 a.amount) with
      | [] => some (w, { t with pc := .stageRename fileName })
      | chunk =>
          some ({ w with
              fs := w.fs.write w.clock fd (Fs.overwrite (w.fs.contents fd) offset chunk) },
            { t with pc := .stageWrite fileName fd (offset + chunk.length) })
  | .stageRename fileName =>
      match w.fs.rename (.blob (tmpName fileName)) (.blob fileName) with
      | none => some (w, { t with pc := .done (.refused (storageErr (.io .notFound))) })
      | some fs => some ({ w with fs := fs }, { t with pc := .recordManifest })
  | .recordManifest =>
      some ({ w with
          repo := w.repo.putManifest t.request.repository (cfg.sha256 t.request.manifestBytes)
            t.request.mediaType t.request.manifestBytes.length },
        { t with pc := .done .accepted })
  | _ => none

/-- `sweep_once`. -/
def sweep (cfg : Config) (w : Shared) (t : Thread) (a : Answer) : Pc → Option (Shared × Thread)
  | .listManifests =>
      if w.lists a.listing then
        some (w, { t with pc := marking ⟨[], [], {}⟩ a.listing.reverse })
      else none
  | .markOpen s digest queue =>
      match blobPath digest with
      | .error e => some (w, { t with pc := .done (.aborted (.storage e)) })
      | .ok fileName =>
          match w.fs.links.lookup (.blob fileName) with
          | none => some (w, { t with pc := .done (.aborted (.storage (.io .notFound))) })
          | some fd => some (w, { t with pc := .markRead s digest queue fd [] })
  | .markRead s digest queue fd seen =>
      match w.fs.readAt fd seen.length a.amount with
      | [] => some (w, { t with pc := marked cfg s digest queue seen })
      | chunk => some (w, { t with pc := .markRead s digest queue fd (seen ++ chunk) })
  | .countUploads s =>
      some (w, { t with
        pc := .listBlobs { s with report :=
          { s.report with keptUploads := w.countActiveUploads } } })
  | .listBlobs s => some (w, { t with pc := listing s (w.clock - cfg.grace) [] w.blobNames })
  | .statBlob s cutoff names listed =>
      match names with
      | [] => some (w, { t with pc := sweeping s cutoff listed })
      | fileName :: names =>
          match w.fs.links.lookup (.blob fileName) with
          | none => some (w, { t with pc := .done (.aborted (.storage (.io .notFound))) })
          | some i =>
              some (w, { t with
                pc := listing s cutoff
                  (listed ++ [(digestOf fileName, w.fs.mtime i, (w.fs.contents i).length)]) names })
  | .deleteFile s cutoff digest size rest =>
      match blobPath digest with
      | .error e => some (w, { t with pc := .done (.aborted (.storage e)) })
      | .ok fileName =>
          some ({ w with fs := w.fs.unlink (.blob fileName) },
            { t with pc := .deleteRows s cutoff digest size rest })
  | .deleteRows s cutoff digest size rest =>
      some ({ w with repo := w.repo.deleteBlobRows digest },
        { t with pc := sweeping { s with report := { s.report with
          deletedBlobs := s.report.deletedBlobs + 1
          deletedBytes := s.report.deletedBytes + size } } cutoff rest })
  | .recordRun s =>
      some ({ w with
          repo := w.repo.recordGcRun s.report.scannedBlobs s.report.deletedBlobs
            s.report.deletedBytes },
        { t with pc := .done .accepted })
  | _ => none

/-- The next call of a handler. -/
def call (cfg : Config) (w : Shared) (t : Thread) (a : Answer) : Option (Shared × Thread) :=
  (w.startUpload t t.pc).or <| (w.stream cfg t a t.pc).or <| (w.commit cfg t a t.pc).or <|
    (w.putManifest cfg t a t.pc).or <| w.sweep cfg t a t.pc

end Shared

/-! ## §3. The machine. -/

/-- The registry and the requests in flight, numbered as they arrive. -/
structure Server where
  shared : Shared
  threads : AList fun _ : Nat => Thread
  arrived : Nat

/-- A request arrives, a handler makes its next call, or time passes. -/
inductive Event where
  | arrive (request : Request)
  | proceed (thread : Nat) (answer : Answer)
  | elapse (seconds : Nat)

/-- One event. -/
def Server.step (cfg : Config) (σ : Server) : Event → Option Server
  | .arrive request =>
      some { σ with
        threads := σ.threads.insert σ.arrived (Thread.start cfg request)
        arrived := σ.arrived + 1 }
  | .proceed i a =>
      match σ.threads.lookup i with
      | none => none
      | some t =>
          match σ.shared.call cfg t a with
          | none => none
          | some (w, t) => some { σ with shared := w, threads := σ.threads.insert i t }
  | .elapse seconds =>
      some { σ with shared := { σ.shared with clock := σ.shared.clock + seconds } }

/-! ## §4. Inversion. -/

theorem call_cases {cfg : Config} {w : Shared} {t : Thread} {a : Answer} {r : Shared × Thread}
    (h : w.call cfg t a = some r) : w.startUpload t t.pc = some r ∨ w.stream cfg t a t.pc = some r ∨
      w.commit cfg t a t.pc = some r ∨ w.putManifest cfg t a t.pc = some r ∨
      w.sweep cfg t a t.pc = some r := by
  unfold Shared.call at h
  simp only [Option.or_eq_some_iff] at h
  tauto

theorem step_proceed {cfg : Config} {σ σ' : Server} {i : Nat} {a : Answer}
    (h : σ.step cfg (.proceed i a) = some σ') :
    ∃ t w t', σ.threads.lookup i = some t ∧ σ.shared.call cfg t a = some (w, t') ∧
      σ' = { σ with shared := w, threads := σ.threads.insert i t' } := by
  unfold Server.step at h
  cases ht : σ.threads.lookup i with
  | none =>
    simp only [ht] at h
    cases h
  | some t =>
    simp only [ht] at h
    cases hcall : σ.shared.call cfg t a with
    | none =>
      simp only [hcall] at h
      cases h
    | some r =>
      simp only [hcall] at h
      injection h with h
      exact ⟨t, r.1, r.2, rfl, hcall, h.symm⟩

end Denia.Registry

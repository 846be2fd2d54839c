/-
  Denia.Uploads.Api — uploaded build contexts: the request that stages one
  (`upload_handler`, `src/api/uploads.rs`), the deployment that builds from it and takes it
  away (`create_deployment`, `src/api/deployments.rs`; `acquire_staged`,
  `src/artifacts/acquirer.rs`), and the sweep (`sweep_expired_uploads`).

  Each call that others can see is a step, and requests of any principals run side by side.
  The role check of an upload is on the service in its path, the one of a deployment on the
  service in its body; the directory is addressed by the UPLOAD ID alone.  The answers of the
  surroundings are inputs; the database may become any other between two steps, and the clock
  may show any time.

  Main results: `advance_dir`, whose directory a step can touch; `advance_holds`, how a
  deployment comes to use one.
-/
import Denia.Lib.Interleave
import Denia.Tenancy.Api

namespace Denia.Uploads

open Lib
open Tenancy (Principal Database ServiceConfig ensureRole ensureRoleOrNotFound)

/-! ## §1. Requests and answers. -/

/-- `ApiError`. -/
inductive ApiError where
  | api (error : Tenancy.ApiError)
  | payloadTooLarge (reason : String)
  | tooManyRequests (reason : String)
  | deploy (reason : String)
  | log (reason : String)

/-- `ApiError::BadRequest` with a message. -/
def ApiError.badRequest (reason : String) : ApiError := .api (.badRequest reason)

/-- `DeploymentRequest`. -/
inductive DeploymentRequest where
  | git (serviceId : Uuid) (repoUrl gitRef : String)
  | externalImage (serviceId : Uuid) (image : String)
  | upload (serviceId : Uuid) (uploadId dockerfilePath contextPath : String)
  | redeploy (serviceId : Uuid)

/-- The service it is for. -/
def DeploymentRequest.serviceId : DeploymentRequest → Uuid
  | .git serviceId _ _ | .externalImage serviceId _ | .upload serviceId _ _ _
  | .redeploy serviceId => serviceId

/-- `UploadResponse`. -/
structure UploadResponse where
  uploadId : Uuid
  expiresAt : Nat

/-- The settings, and `Uuid::parse_str`. -/
structure Config where
  uploadMaxBytes : Nat
  uploadTtlSecs : Nat
  parseUuid : String → Option Uuid

/-- The clock is in nanoseconds. -/
def second : Nat := 1000000000

/-- The age at which an upload is swept. -/
def Config.maxAge (cfg : Config) : Nat := cfg.uploadTtlSecs * second

/-- `expires_at`: a lifetime that `chrono` cannot hold in milliseconds becomes an hour. -/
def Config.expiresAt (cfg : Config) (now : Nat) : Nat :=
  if cfg.uploadTtlSecs ≤ (2 ^ 63 - 1) / 1000 then now + cfg.uploadTtlSecs * second
  else now + 3600 * second

/-- The upload a deployment builds from, and removes at its end. -/
def DeploymentRequest.names (cfg : Config) : DeploymentRequest → Option Uuid
  | .upload _ uploadId _ _ => cfg.parseUuid uploadId
  | .git .. | .externalImage .. | .redeploy _ => none

/-- `uploads_dir/<id>`. -/
structure UploadDir where
  contextTarZst : Bool
  context : Bool
  mtime : Nat

/-- `DEPLOY_CONCURRENCY_LIMIT`. -/
def deployConcurrencyLimit : Nat := 8

/-- What the requests share; `nextId` is the next `Uuid::now_v7()`, `sweep` the time at which
the sweep under way has read the clock. -/
structure Shared where
  db : Database
  uploads : AList fun _ : Uuid => UploadDir
  permits : Nat
  nextId : Uuid
  clock : Nat
  sweep : Option Nat

/-- What a call answers. -/
inductive Answer where
  | ok
  | fails (error : String)
  | chunk (bytes : Nat)
  | rejected (reason : String)
  | joinError (error : String)

/-- A change from outside: the database, the clock, and the sweep with the entries as
`read_dir` comes to them. -/
inductive Change where
  | database (db : Database)
  | clock (now : Nat)
  | sweepStart
  | visit (id : Uuid)
  | sweepEnd

/-! ## §2. `upload_handler`. -/

/-- Where an upload stands. -/
inductive UploadPc where
  | start
  | found (service : ServiceConfig)
  | createDir
  | reading (id : Uuid) (buffered : Nat)
  | writeArchive (id : Uuid)
  | createContext (id : Uuid)
  | extract (id : Uuid)
  | removeArchive (id : Uuid)
  | respond (id : Uuid)
  | failed (id : Uuid) (error : ApiError)
  | answered (result : Except ApiError UploadResponse)

namespace Shared
variable (s : Shared)

/-- `remove_dir_all`; that the directory is not there is an error nobody looks at. -/
def removeUpload (id : Uuid) : Shared := { s with uploads := s.uploads.erase id }

/-- The directory of an upload is written. -/
def putUpload (id : Uuid) (dir : UploadDir) : Shared :=
  { s with uploads := s.uploads.insert id dir }

end Shared

/-- One step of `upload_handler`. -/
def advanceUpload (cfg : Config) (s : Shared) (principal : Principal) (serviceId : Uuid)
    (pc : UploadPc) (answer : Answer) : Option (Shared × UploadPc) :=
  match pc, answer with
  | .start, .ok =>
      match s.db.getService serviceId with
      | none => some (s, .answered (.error (.api (.notFound "service not found"))))
      | some service => some (s, .found service)
  | .start, .fails e => some (s, .answered (.error (.api (.repo (.sqlite e)))))
  | .found service, .ok =>
      match (runProg (ensureRole principal service.projectId .operator) s.db).1 with
      | .error e => some (s, .answered (.error (.api e)))
      | .ok _ => some (s, .createDir)
  | .createDir, .ok =>
      some ({ s.putUpload s.nextId ⟨false, false, s.clock⟩ with nextId := s.nextId + 1 },
        .reading s.nextId 0)
  | .createDir, .fails e =>
      some ({ s with nextId := s.nextId + 1 },
        .answered (.error (.badRequest ("failed to create upload dir: " ++ e))))
  | .reading id buffered, .chunk bytes =>
      if cfg.uploadMaxBytes < buffered + bytes then
        some (s, .failed id (.payloadTooLarge
          ("upload exceeds " ++ toString cfg.uploadMaxBytes ++ " byte limit")))
      else some (s, .reading id (buffered + bytes))
  | .reading id _, .fails e => some (s, .failed id (.badRequest ("body read error: " ++ e)))
  | .reading id _, .ok => some (s, .writeArchive id)
  | .writeArchive id, .ok =>
      match s.uploads.lookup id with
      | none => none
      | some dir =>
          some (s.putUpload id { dir with contextTarZst := true, mtime := s.clock },
            .createContext id)
  | .writeArchive id, .fails e =>
      some (s, .failed id (.badRequest ("failed to write archive: " ++ e)))
  | .createContext id, .ok =>
      -- `create_dir_all` also makes the upload's directory, if a sweep has taken it away
      some (s.putUpload id
        ⟨((s.uploads.lookup id).map (·.contextTarZst)).getD false, true, s.clock⟩, .extract id)
  | .createContext id, .fails e =>
      some (s, .failed id (.badRequest ("failed to create context dir: " ++ e)))
  | .extract id, .ok => some (s, .removeArchive id)
  | .extract id, .joinError e =>
      some (s, .failed id (.badRequest ("archive extraction task failed: " ++ e)))
  | .extract id, .rejected reason =>
      some (s, .failed id (.badRequest ("archive rejected: " ++ reason)))
  | .extract id, .fails e => some (s, .failed id (.badRequest ("archive io error: " ++ e)))
  | .removeArchive id, .ok =>
      match s.uploads.lookup id with
      | none => none
      | some dir =>
          some (s.putUpload id { dir with contextTarZst := false, mtime := s.clock }, .respond id)
  | .removeArchive id, .fails _ => some (s, .respond id)
  | .respond id, .ok => some (s, .answered (.ok ⟨id, cfg.expiresAt s.clock⟩))
  | .failed id error, .ok => some (s.removeUpload id, .answered (.error error))
  | .failed _ error, .fails _ => some (s, .answered (.error error))
  | _, _ => none

/-! ## §3. `create_deployment`, and the task it spawns. -/

/-- Where a deployment stands. -/
inductive DeployPc where
  | start
  | found (service : ServiceConfig)
  | permit
  | pending
  | openLog
  | accepted
  | building
  | finishing
  | cleanup
  | ended
  | refused (error : ApiError)

namespace Shared
variable (s : Shared)

/-- A permit is given back. -/
def releasePermit : Shared := { s with permits := s.permits + 1 }

/-- The end of the task: `upload_cleanup`, and the permit goes with it. -/
def cleanUp (names : Option Uuid) : Shared :=
  match names with
  | none => s.releasePermit
  | some id => (s.removeUpload id).releasePermit

end Shared

/-- One step of `create_deployment` up to its `202`, and of the spawned task after it.  The
task is `accepted` until its status is `Building`, `building` while the artifact is acquired
(for an upload: while the build reads `uploads_dir/<id>/context`), and `finishing` from there to
the end of the pipeline. -/
def advanceDeploy (cfg : Config) (s : Shared) (principal : Principal)
    (request : DeploymentRequest) (pc : DeployPc) (answer : Answer) : Option (Shared × DeployPc) :=
  match pc, answer with
  | .start, .ok =>
      match s.db.getService request.serviceId with
      | none => some (s, .refused (.api (.notFound "service not found")))
      | some service => some (s, .found service)
  | .start, .fails e => some (s, .refused (.api (.repo (.sqlite e))))
  | .found service, .ok =>
      match (runProg (ensureRoleOrNotFound principal service.projectId .operator
          "deployment not found") s.db).1 with
      | .error e => some (s, .refused (.api e))
      | .ok _ => some (s, .permit)
  | .permit, .ok =>
      if s.permits = 0 then
        some (s, .refused (.tooManyRequests "too many concurrent deployments, retry shortly"))
      else some ({ s with permits := s.permits - 1 }, .pending)
  | .pending, .ok => some (s, .openLog)
  | .pending, .fails e => some (s.releasePermit, .refused (.deploy e))
  | .openLog, .ok => some (s, .accepted)
  | .openLog, .fails e => some (s.releasePermit, .refused (.log e))
  | .accepted, .ok => some (s, .building)
  | .accepted, .fails _ => some (s, .cleanup)
  | .building, .ok => some (s, .finishing)
  | .building, .fails _ => some (s, .cleanup)
  | .finishing, .ok => some (s, .cleanup)
  | .finishing, .fails _ => some (s, .cleanup)
  | .cleanup, .ok => some (s.cleanUp (request.names cfg), .ended)
  | .cleanup, .fails _ => some (s.releasePermit, .ended)
  | _, _ => none

/-! ## §4. The system. -/

/-- The requests under way. -/
inductive Task where
  | upload (principal : Principal) (serviceId : Uuid) (pc : UploadPc)
  | deploy (principal : Principal) (request : DeploymentRequest) (pc : DeployPc)

/-- The requests. -/
inductive Request where
  | upload (principal : Principal) (serviceId : Uuid)
  | deploy (principal : Principal) (request : DeploymentRequest)

/-- Where it starts. -/
def start : Request → Task
  | .upload principal serviceId => .upload principal serviceId .start
  | .deploy principal request => .deploy principal request .start

/-- One call. -/
def advance (cfg : Config) (s : Shared) (task : Task) (answer : Answer) : Option (Shared × Task) :=
  match task with
  | .upload principal serviceId pc =>
      (advanceUpload cfg s principal serviceId pc answer).map fun r =>
        (r.1, .upload principal serviceId r.2)
  | .deploy principal request pc =>
      (advanceDeploy cfg s principal request pc answer).map fun r =>
        (r.1, .deploy principal request r.2)

/-- The test of `sweep_expired_uploads`; a time in the future has no age. -/
def expired (cfg : Config) (now mtime : Nat) : Bool := mtime ≤ now ∧ cfg.maxAge ≤ now - mtime

/-- `sweep_expired_uploads` reads the clock once, before the first entry. -/
def change (cfg : Config) (s : Shared) : Change → Option Shared
  | .database db => some { s with db }
  | .clock now => some { s with clock := now }
  | .sweepStart =>
      match s.sweep with
      | none => some { s with sweep := some s.clock }
      | some _ => none
  | .visit id =>
      match s.sweep with
      | none => none
      | some now =>
          match s.uploads.lookup id with
          | none => some s
          | some dir => if expired cfg now dir.mtime then some (s.removeUpload id) else some s
  | .sweepEnd =>
      match s.sweep with
      | none => none
      | some _ => some { s with sweep := none }

/-- The program of the requests. -/
def requests (cfg : Config) : Program Shared Task Request Answer Change where
  start := start
  advance := advance cfg
  outer := change cfg

/-- The daemon with its requests. -/
abbrev Daemon := System Shared Task

/-- The daemon has just started, with a database and an empty `uploads_dir`. -/
def booted (db : Database) (clock : Nat) : Daemon :=
  ⟨⟨db, ∅, deployConcurrencyLimit, 0, clock, none⟩, []⟩

/-! ## §5. What a task has to do with an upload. -/

/-- The directory an upload request has made. -/
def UploadPc.id : UploadPc → Option Uuid
  | .reading id _ | .writeArchive id | .createContext id | .extract id | .removeArchive id
  | .respond id | .failed id _ => some id
  | .answered (.ok response) => some response.uploadId
  | .start | .found _ | .createDir | .answered (.error _) => none

/-- The request has not been answered. -/
def UploadPc.open : UploadPc → Bool
  | .answered _ => false
  | _ => true

/-- From the `202` on to the removal. -/
def DeployPc.holding : DeployPc → Bool
  | .accepted | .building | .finishing | .cleanup => true
  | _ => false

/-- From the `202` on to the end of the build. -/
def DeployPc.buildRuns : DeployPc → Bool
  | .accepted | .building => true
  | _ => false

namespace Task

/-- The upload it stages. -/
def uploadId : Task → Option Uuid
  | .upload _ _ pc => pc.id
  | .deploy .. => none

/-- The service it is for. -/
def serviceId : Task → Uuid
  | .upload _ serviceId _ => serviceId
  | .deploy _ request _ => request.serviceId

/-- The upload whose directory an upload request is working on. -/
def staging : Task → Option Uuid
  | .upload _ _ pc => if pc.open then pc.id else none
  | .deploy .. => none

/-- The upload an accepted deployment has not yet removed. -/
def holds (cfg : Config) : Task → Option Uuid
  | .upload .. => none
  | .deploy _ request pc => if pc.holding then request.names cfg else none

/-- The upload of a deployment that is accepted and whose build has not ended. -/
def builds (cfg : Config) : Task → Option Uuid
  | .upload .. => none
  | .deploy _ request pc => if pc.buildRuns then request.names cfg else none

/-- The upload whose directory a deployment is reading. -/
def reads (cfg : Config) : Task → Option Uuid
  | .deploy _ request .building => request.names cfg
  | _ => none

/-- The upload an accepted deployment would use, one step before its `202`. -/
def asksFor (cfg : Config) : Task → Option Uuid
  | .deploy _ request .openLog => request.names cfg
  | _ => none

theorem holds_of_builds {cfg : Config} {task : Task} {id : Uuid}
    (h : task.builds cfg = some id) : task.holds cfg = some id := by
  cases task with
  | upload => cases h
  | deploy principal request pc => cases pc <;> first | exact h | cases h

theorem builds_of_reads {cfg : Config} {task : Task} {id : Uuid}
    (h : task.reads cfg = some id) : task.builds cfg = some id := by
  cases task with
  | upload => cases h
  | deploy principal request pc => cases pc <;> first | exact h | cases h

end Task

/-! ## §6. The steps, by what they do. -/

/-- A step of an upload request. -/
inductive UploadMove (s : Shared) : UploadPc → Shared → UploadPc → Prop where
  | goesOn {pc pc' : UploadPc} (hopen : pc.open = true) (hid : pc'.id = pc.id ∨ pc'.id = none) :
      UploadMove s pc s pc'
  | creates (dir : UploadDir) :
      UploadMove s .createDir { s.putUpload s.nextId dir with nextId := s.nextId + 1 }
        (.reading s.nextId 0)
  | skips (error : ApiError) :
      UploadMove s .createDir { s with nextId := s.nextId + 1 } (.answered (.error error))
  | writes {pc pc' : UploadPc} (id : Uuid) (dir : UploadDir) (hopen : pc.open = true)
      (hid : pc.id = some id) (hid' : pc'.id = some id) :
      UploadMove s pc (s.putUpload id dir) pc'
  | removes (id : Uuid) (error : ApiError) :
      UploadMove s (.failed id error) (s.removeUpload id) (.answered (.error error))

variable {s s' : Shared} {principal : Principal} {answer : Answer}

theorem advanceUpload_move {cfg : Config} {serviceId : Uuid} {pc pc' : UploadPc}
    (h : advanceUpload cfg s principal serviceId pc answer = some (s', pc')) :
    UploadMove s pc s' pc' := by
  unfold advanceUpload at h
  split at h
  case h_1 =>
    split at h <;> cases h <;> exact .goesOn rfl (.inl rfl)
  case h_3 =>
    split at h <;> cases h <;> exact .goesOn rfl (.inl rfl)
  case h_4 =>
    cases h
    exact .creates _
  case h_5 =>
    cases h
    exact .skips _
  case h_6 =>
    split at h <;> cases h <;> exact .goesOn rfl (.inl rfl)
  case h_9 =>
    split at h <;> cases h
    exact .writes _ _ rfl rfl rfl
  case h_11 =>
    cases h
    exact .writes _ _ rfl rfl rfl
  case h_17 =>
    split at h <;> cases h
    exact .writes _ _ rfl rfl rfl
  case h_20 =>
    cases h
    exact .removes _ _
  case h_21 =>
    cases h
    exact .goesOn rfl (.inr rfl)
  case h_22 => cases h
  all_goals
    cases h
    exact .goesOn rfl (.inl rfl)

/-- A step of a deployment. -/
inductive DeployMove (s : Shared) (names : Option Uuid) :
    DeployPc → Shared → DeployPc → Prop where
  | goesOn {s' : Shared} {pc pc' : DeployPc} (huploads : s'.uploads = s.uploads)
      (hsweep : s'.sweep = s.sweep) (hnext : s'.nextId = s.nextId)
      (hholding : pc'.holding = true → pc = .openLog ∨ pc.holding = true)
      (hruns : pc'.buildRuns = true → pc = .openLog ∨ pc.buildRuns = true) :
      DeployMove s names pc s' pc'
  | cleansUp : DeployMove s names .cleanup (s.cleanUp names) .ended

variable {request : DeploymentRequest} {pc : DeployPc}

theorem advanceDeploy_move {cfg : Config} {pc' : DeployPc}
    (h : advanceDeploy cfg s principal request pc answer = some (s', pc')) :
    DeployMove s (request.names cfg) pc s' pc' := by
  unfold advanceDeploy at h
  split at h
  case h_1 => split at h <;> cases h <;> exact .goesOn rfl rfl rfl nofun nofun
  case h_3 => split at h <;> cases h <;> exact .goesOn rfl rfl rfl nofun nofun
  case h_4 => split at h <;> cases h <;> exact .goesOn rfl rfl rfl nofun nofun
  case h_7 =>
    -- the step that accepts
    cases h
    exact .goesOn rfl rfl rfl (fun _ => .inl rfl) (fun _ => .inl rfl)
  case h_9 =>
    cases h
    exact .goesOn rfl rfl rfl (fun _ => .inr rfl) (fun _ => .inr rfl)
  case h_15 =>
    cases h
    exact .cleansUp
  case h_17 => cases h
  all_goals
    cases h
    refine .goesOn rfl rfl rfl ?_ nofun
    first
    | exact fun _ => .inr rfl
    | exact nofun

/-! ## §7. What a step leaves alone. -/

section
variable {cfg : Config} {task task' : Task}

/-- A step of a task, whichever it is. -/
theorem advance_cases (h : advance cfg s task answer = some (s', task')) :
    (∃ principal serviceId pc pc', task = .upload principal serviceId pc ∧
        task' = .upload principal serviceId pc' ∧ UploadMove s pc s' pc') ∨
      ∃ principal request pc pc', task = .deploy principal request pc ∧
        task' = .deploy principal request pc' ∧ DeployMove s (request.names cfg) pc s' pc' := by
  cases task with
  | upload principal serviceId pc =>
    obtain ⟨⟨s1, pc'⟩, hmove, heq⟩ := Option.map_eq_some_iff.mp h
    injection heq with hs htask
    subst hs
    exact .inl ⟨principal, serviceId, pc, pc', rfl, htask.symm, advanceUpload_move hmove⟩
  | deploy principal request pc =>
    obtain ⟨⟨s1, pc'⟩, hmove, heq⟩ := Option.map_eq_some_iff.mp h
    injection heq with hs htask
    subst hs
    exact .inr ⟨principal, request, pc, pc', rfl, htask.symm, advanceDeploy_move hmove⟩

theorem cleanUp_sweep (s : Shared) (names : Option Uuid) : (s.cleanUp names).sweep = s.sweep := by
  cases names <;> rfl

theorem cleanUp_nextId (s : Shared) (names : Option Uuid) :
    (s.cleanUp names).nextId = s.nextId := by
  cases names <;> rfl

theorem advance_sweep (h : advance cfg s task answer = some (s', task')) : s'.sweep = s.sweep := by
  rcases advance_cases h with ⟨_, _, pc, pc', -, -, hmove⟩ | ⟨_, request, pc, pc', -, -, hmove⟩
  · cases hmove <;> rfl
  · cases hmove with
    | goesOn _ hsweep => exact hsweep
    | cleansUp => exact cleanUp_sweep s _

theorem advance_nextId (h : advance cfg s task answer = some (s', task')) :
    s.nextId ≤ s'.nextId := by
  rcases advance_cases h with ⟨_, _, pc, pc', -, -, hmove⟩ | ⟨_, request, pc, pc', -, -, hmove⟩
  · cases hmove with
    | creates | skips => exact Nat.le_succ _
    | goesOn | writes | removes => exact Nat.le_refl _
  · cases hmove with
    | goesOn _ _ hnext => exact hnext.ge
    | cleansUp => exact (cleanUp_nextId s _).ge

/-- **Whose directory a step can touch**: an upload request the one it is staging or a new
one, a deployment the one it names, at its end. -/
theorem advance_dir (h : advance cfg s task answer = some (s', task')) (id : Uuid) :
    s'.uploads.lookup id = s.uploads.lookup id ∨ task.staging = some id ∨
      (task'.uploadId = some id ∧ id = s.nextId) ∨ task.holds cfg = some id ∧
        task.builds cfg = none ∧
        s'.uploads.lookup id = none := by
  rcases advance_cases h with
    ⟨_, serviceId, pc, pc', rfl, rfl, hmove⟩ | ⟨_, request, pc, pc', rfl, rfl, hmove⟩
  · cases hmove with
    | goesOn | skips => exact .inl rfl
    | creates =>
      by_cases hid : id = s.nextId
      · subst hid
        exact .inr (.inr (.inl ⟨rfl, rfl⟩))
      · exact .inl (AList.lookup_insert_ne hid)
    | writes id1 dir hopen hpc =>
      by_cases hid : id = id1
      · refine .inr (.inl ?_)
        show (if pc.open then pc.id else none) = some id
        rw [hopen, hpc, hid]
        rfl
      · exact .inl (AList.lookup_insert_ne hid)
    | removes id1 =>
      by_cases hid : id = id1
      · subst hid
        exact .inr (.inl rfl)
      · exact .inl (AList.lookup_erase_ne hid)
  · cases hmove with
    | goesOn huploads => exact .inl (by rw [huploads])
    | cleansUp =>
      cases hnames : request.names cfg with
      | none => exact .inl rfl
      | some id1 =>
        by_cases hid : id = id1
        · subst hid
          exact .inr (.inr (.inr ⟨hnames, rfl, AList.lookup_erase _ _⟩))
        · exact .inl (AList.lookup_erase_ne hid)

variable {id : Uuid}

/-- An upload request keeps its id, and gets a new one. -/
theorem advance_uploadId (h : advance cfg s task answer = some (s', task'))
    (hid : task'.uploadId = some id) :
    task.uploadId = some id ∨ id = s.nextId ∧ s.nextId < s'.nextId := by
  rcases advance_cases h with
    ⟨_, serviceId, pc, pc', rfl, rfl, hmove⟩ | ⟨_, request, pc, pc', rfl, rfl, -⟩
  · have hpc' : pc'.id = some id := hid
    cases hmove with
    | goesOn _ hsame =>
      rcases hsame with hsame | hnone
      · exact .inl (hsame.symm.trans hpc')
      · simp [hnone] at hpc'
    | creates =>
      injection hpc' with hpc'
      exact .inr ⟨hpc'.symm, Nat.lt_succ_self _⟩
    | skips | removes => cases hpc'
    | writes id1 dir _ hpc hpc1 => exact .inl (hpc.trans (hpc1.symm.trans hpc'))
  · cases hid

/-- A deployment has none. -/
theorem advance_deploy_uploadId
    (h : advance cfg s (.deploy principal request pc) answer = some (s', task')) :
    task'.uploadId = none := by
  rcases advance_cases h with ⟨_, _, _, _, heq, -, -⟩ | ⟨_, _, _, _, -, rfl, -⟩
  · cases heq
  · rfl

variable (h : advance cfg s task answer = some (s', task'))
include h

theorem advance_serviceId : task'.serviceId = task.serviceId := by
  rcases advance_cases h with ⟨_, _, _, _, rfl, rfl, -⟩ | ⟨_, _, _, _, rfl, rfl, -⟩ <;> rfl

/-- **How a deployment comes to use an upload**: in the step that accepts it. -/
theorem advance_holds (hholds : task'.holds cfg = some id) :
    task.asksFor cfg = some id ∨ task.holds cfg = some id ∧
      (task'.builds cfg = some id → task.builds cfg = some id) := by
  rcases advance_cases h with
    ⟨_, serviceId, pc, pc', rfl, rfl, -⟩ | ⟨_, request, pc, pc', rfl, rfl, hmove⟩
  · cases hholds
  · obtain ⟨hpc', hnames⟩ := Option.ite_none_right_eq_some.mp hholds
    cases hmove with
    | goesOn _ _ _ hholding hruns =>
      rcases hholding hpc' with rfl | hpc
      · exact .inl hnames
      · refine .inr ⟨Option.ite_none_right_eq_some.mpr ⟨hpc, hnames⟩, fun hbuilds => ?_⟩
        rcases hruns (Option.ite_none_right_eq_some.mp hbuilds).1 with rfl | hpcRuns
        · cases hpc
        · exact Option.ite_none_right_eq_some.mpr ⟨hpcRuns, hnames⟩
    | cleansUp => cases hpc'

end

end Denia.Uploads

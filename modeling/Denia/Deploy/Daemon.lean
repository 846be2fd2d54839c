/-
  Denia.Deploy.Daemon — deploys and stops of one service side by side: the tasks take
  turns, one call at a time, over one world; and what the status and promotion
  calls do to the rows.
-/
import Denia.Deploy.Phases

namespace Denia.Deploy

open Autoscale Lib

/-! ## §1. The daemon: tasks over one world. -/

/-- A deploy or a stop. -/
inductive Task where
  | deploy (t : DeployTask)
  | stop (t : StopTask)

/-- The tasks of one service, numbered in the order they were accepted. -/
structure Daemon where
  world : World
  tasks : AList fun _ : Nat => Task
  accepted : Nat

/-- Who moves, and what the call is answered. -/
inductive Turn where
  | acceptDeploy (service : ServiceConfig) (request : DeploymentRequest)
  | acceptStop (routesOnly : Bool)
  | call (task : Nat) (answer : Answer)

namespace Daemon

/-- Accept a task under the next number. -/
def accept (σ : Daemon) (world : World) (task : Task) : Daemon :=
  { world := world, tasks := σ.tasks.insert σ.accepted task, accepted := σ.accepted + 1 }

/-- One turn of the tasks of `serviceId`. -/
def step (serviceId : Uuid) (σ : Daemon) : Turn → Option Daemon
  | .acceptDeploy service request =>
      if service.id = serviceId then
        let created := σ.world.store.createDeployment serviceId
        some (σ.accept (σ.world.onStore fun _ => created.1)
          (.deploy (.runWithDeps created.2 service request)))
      else none
  | .acceptStop routesOnly => some (σ.accept σ.world (.stop (.start serviceId routesOnly)))
  | .call i answer =>
      match σ.tasks.lookup i with
      | none => none
      | some (.deploy t) =>
          (deployStep (σ.world, t) answer).map fun (w, t) =>
            { σ with world := w, tasks := σ.tasks.insert i (.deploy t) }
      | some (.stop t) =>
          (stopStep (σ.world, t) answer).map fun (w, t) =>
            { σ with world := w, tasks := σ.tasks.insert i (.stop t) }

end Daemon

/-- The task has returned. -/
def Task.finished : Task → Prop
  | .deploy t => ∃ r, t.pc = .done r
  | .stop t => ∃ r, t.pc = .done r

/-- No deploy or stop is in flight. -/
def Daemon.Quiet (σ : Daemon) : Prop := ∀ i task, σ.tasks.lookup i = some task → task.finished

/-! ## §2. The rows, by service and status. -/

/-- The service and the status of a row. -/
def Store.row (db : Store) (d : Uuid) : Option (Uuid × DeploymentStatus) :=
  (db.deployments.lookup d).map fun r => (r.serviceId, r.status)

theorem row_updateDeploymentStatus (db : Store) (id : Uuid) (status : DeploymentStatus) (d : Uuid) :
    (db.updateDeploymentStatus id status).row d
      = if d = id then (db.row d).map fun r => (r.1, status) else db.row d := by
  unfold Store.updateDeploymentStatus Store.row
  split
  next h =>
    split
    next hd => rw [hd, h]; rfl
    next => rfl
  next row h =>
    by_cases hd : d = id
    · subst hd
      rw [AList.lookup_insert, if_pos rfl, h]
      rfl
    · rw [AList.lookup_insert_ne hd, if_neg hd]

theorem row_setDeploymentArtifact (db : Store) (id : Uuid) (digest : String) (d : Uuid) :
    (db.setDeploymentArtifact id digest).row d = db.row d := by
  unfold Store.setDeploymentArtifact Store.row
  split
  next => rfl
  next row h =>
    by_cases hd : d = id
    · subst hd
      rw [AList.lookup_insert, h]
      rfl
    · rw [AList.lookup_insert_ne hd]

theorem row_createDeployment (db : Store) (serviceId d : Uuid) :
    (db.createDeployment serviceId).1.row d
      = if d = db.nextId then some (serviceId, .pending) else db.row d := by
  unfold Store.createDeployment Store.row
  simp only
  by_cases hd : d = db.nextId
  · rw [if_pos hd, hd, AList.lookup_insert]
    rfl
  · rw [if_neg hd, AList.lookup_insert_ne hd]

/-- A promotion demotes the promoted row, if it is another one; so does its first statement. -/
theorem row_demoteOutgoing (db : Store) (serviceId id d : Uuid) :
    (db.demoteOutgoing serviceId id).row d
      = if db.promotedDeployment serviceId = some d ∧ d ≠ id
        then (db.row d).map fun r => (r.1, .inactive) else db.row d := by
  unfold Store.demoteOutgoing
  cases hprev : db.promotedDeployment serviceId with
  | none => rw [if_neg (by simp)]
  | some prev =>
    simp only [Option.some.injEq]
    by_cases hself : prev = id
    · rw [if_pos hself, if_neg (by rintro ⟨rfl, hne⟩; exact hne hself)]
    · rw [if_neg hself, row_updateDeploymentStatus]
      by_cases hd : d = prev
      · subst hd
        rw [if_pos rfl, if_pos ⟨rfl, hself⟩]
      · rw [if_neg hd, if_neg (by rintro ⟨rfl, -⟩; exact hd rfl)]

theorem promoteDeployment_promoted (db : Store) (serviceId id : Uuid) :
    (db.promoteDeployment serviceId id).promotedDeployment serviceId = some id := by
  unfold Store.promoteDeployment Store.promotedDeployment
  exact AList.lookup_insert _

theorem promoteDeployment_nextId (db : Store) (serviceId id : Uuid) :
    (db.promoteDeployment serviceId id).nextId = db.nextId := by
  obtain ⟨rows, hrows⟩ := db.demoteOutgoing_eq serviceId id
  show (db.demoteOutgoing serviceId id).nextId = _
  rw [hrows]

end Denia.Deploy

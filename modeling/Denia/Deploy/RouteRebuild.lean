/-
  Denia.Deploy.RouteRebuild — what a FAILED route rebuild leaves behind (`apply_routes` in
  `src/deploy/routes.rs`, `write_route_table` and `stop_service_routes_only` in
  `src/deploy/coordinator.rs`).

  The three functions change the `SharedRoutes` snapshot in place and swap the live table
  last.  Any repository read may fail (`Faults`), and so may the build of the table, when an
  entry has a domain that `try_upsert` refuses.  The live table is safe: it is swapped when
  nothing can fail any more.  The snapshot is not: `apply_routes` has CLEARED it before the
  first read of a service's hostnames, and the other two change their entry before the build.

  Main results: `fails_applyRoutes` and its companions, how far each one got when it failed;
  `runProg_applyRoutes` and its companions, without faults they are the functions of
  `Deploy.Api` and `Deploy.Coordinator`; `route_rebuild_fails_cleanly_iff`;
  `failed_rebuild_changes_snapshot`.
-/
import Denia.Deploy.Api
import Denia.Ingress.StoredHostnames
import Denia.Lib.Hoare

namespace Denia.Deploy.Rebuild

open Autoscale Lib Verification

/-! ## §1. The three functions. -/

/-- The calls that fail: a repository call with its error, or the lock of the snapshot. -/
structure Faults where
  listServices : Option String
  hostnames : Uuid → Option String
  promoted : Option String
  poisoned : Bool
  updateStatus : Option String
  clearPromoted : Option String

/-- Nothing fails. -/
def Faults.none : Faults := ⟨.none, fun _ => .none, .none, false, .none, .none⟩

/-- A program on the routes. -/
abbrev Routing (α : Type) := Prog World DeployError α

/-- A repository call, with its error if it fails. -/
def repoCall : Option String → Except DeployError PUnit
  | none => .ok ⟨⟩
  | some reason => .error (.repo reason)

/-- `route_table_from_snapshot(&routes)?` and `swap_routes`. -/
def swapBuilt : Routing PUnit := do
  let w ← get
  let table ← accept ((routeTableFromSnapshot w.snapshot).mapError .ingress)
  modify fun w => { w with routes := table }

/-- An iteration of `apply_routes`; `existing` is the snapshot before it was cleared. -/
def applyService (faults : Faults) (existing : RouteSnapshot)
    (svc : ServiceConfig) : Routing PUnit := do
  accept (repoCall (faults.hostnames svc.id))
  let w ← get
  let hostnames := w.store.listVerifiedHostnames svc.id
  if hostnames.isEmpty then pure ⟨⟩
  else
    match existing.lookup svc.id with
    | none => pure ⟨⟩
    | some _ =>
        modify fun w => { w with snapshot := w.snapshot.insert svc.id (routeOf svc hostnames) }

/-- `apply_routes`. -/
def applyRoutes (faults : Faults) : Routing PUnit := do
  accept (repoCall faults.listServices)
  let w ← get
  ensure (faults.poisoned = false) .routesLockPoisoned
  modify fun w => { w with snapshot := ∅ }
  w.store.listServices.forM (applyService faults w.snapshot)
  swapBuilt

/-- `write_route_table`. -/
def writeRouteTable (faults : Faults) (service : ServiceConfig) : Routing PUnit := do
  accept (repoCall (faults.hostnames service.id))
  let w ← get
  let hostnames := w.store.listVerifiedHostnames service.id
  if hostnames.isEmpty then pure ⟨⟩
  else do
    ensure (faults.poisoned = false) .routesLockPoisoned
    modify fun w =>
      { w with snapshot := w.snapshot.insert service.id (routeOf service hostnames) }
    swapBuilt

/-- `stop_service_routes_only`, up to the swap of the table. -/
def unrouteService (faults : Faults) (serviceId : Uuid) : Routing (Option Uuid) := do
  accept (repoCall faults.promoted)
  let w ← get
  ensure (faults.poisoned = false) .routesLockPoisoned
  modify fun w => { w with snapshot := w.snapshot.erase serviceId }
  swapBuilt
  pure (w.store.promotedDeployment serviceId)

/-- `stop_service_routes_only`. -/
def stopServiceRoutesOnly (faults : Faults) (serviceId : Uuid) : Routing PUnit := do
  match ← unrouteService faults serviceId with
  | none => pure ⟨⟩
  | some deploymentId => do
      accept (repoCall faults.updateStatus)
      modify fun w => w.onStore (·.updateDeploymentStatus deploymentId .stopped)
      accept (repoCall faults.clearPromoted)
      modify fun w => w.onStore (·.clearPromotedDeployment serviceId)

variable {faults : Faults} {w w' : World} {svc : ServiceConfig} {r : PUnit}
  {services : List ServiceConfig}

/-! ## §2. Where they fail. -/

section
variable {w0 : World} {fault : Option String}

theorem repoCall_eq_ok : repoCall fault = .ok r ↔ fault = none := by
  cases fault with
  | none => exact ⟨fun _ => rfl, fun _ => rfl⟩
  | some => exact ⟨nofun, nofun⟩

theorem fails_repoCall :
    Fails (accept (repoCall fault) : Routing PUnit) w w' ↔ fault ≠ none ∧ w' = w := by
  rw [fails_accept]
  cases fault with
  | none => exact ⟨fun ⟨⟨e, he⟩, _⟩ => (nomatch he), fun h => absurd rfl h.1⟩
  | some => exact ⟨fun h => ⟨nofun, h.2⟩, fun h => ⟨⟨_, rfl⟩, h.2⟩⟩

/-- After a repository call the rest runs in the same state. -/
theorem fails_repoCall_bind {α : Type} {f : PUnit → Routing α} :
    Fails (accept (repoCall fault) >>= f) w w' ↔
      (fault ≠ none ∧ w' = w) ∨ (fault = none ∧ Fails (f ⟨⟩) w w') := by
  rw [fails_bind, fails_repoCall]
  refine or_congr_right ?_
  constructor
  · rintro ⟨r, w1, hreturns, hf⟩
    obtain ⟨hr, rfl⟩ := returns_accept.mp hreturns
    exact ⟨repoCall_eq_ok.mp hr, hf⟩
  · rintro ⟨hfault, hf⟩
    exact ⟨⟨⟩, w, returns_accept.mpr ⟨repoCall_eq_ok.mpr hfault, rfl⟩, hf⟩

theorem fails_lock_bind {α : Type} {f : PUnit → Routing α} :
    Fails (ensure (faults.poisoned = false) .routesLockPoisoned >>= f) w w' ↔
      (faults.poisoned = true ∧ w' = w) ∨ (faults.poisoned = false ∧ Fails (f ⟨⟩) w w') := by
  rw [fails_bind, fails_ensure, Bool.not_eq_false]
  refine or_congr_right ?_
  constructor
  · rintro ⟨r, w1, hreturns, hf⟩
    obtain ⟨hlock, rfl⟩ := returns_ensure.mp hreturns
    exact ⟨hlock, hf⟩
  · rintro ⟨hlock, hf⟩
    exact ⟨⟨⟩, w, returns_ensure.mpr ⟨hlock, rfl⟩, hf⟩

theorem fails_modify_bind {α : Type} {g : World → World} {f : PUnit → Routing α} :
    Fails (modify g >>= f) w w' ↔ Fails (f ⟨⟩) (g w) w' := Iff.rfl

/-- Every entry of the snapshot is one `try_upsert` accepts. -/
def Buildable (snapshot : RouteSnapshot) : Prop :=
  ∀ id spec, snapshot.lookup id = some spec → spec.Routable

theorem fails_swapBuilt : Fails swapBuilt w w' ↔ ¬ Buildable w.snapshot ∧ w' = w := by
  unfold swapBuilt Buildable
  rw [fails_get_bind, ← routeTableFromSnapshot_ok_iff]
  cases routeTableFromSnapshot w.snapshot with
  | error =>
    refine fails_throw.trans ⟨fun h => ⟨nofun, h⟩, fun h => h.2⟩
  | ok table =>
    refine ⟨?_, fun h => absurd ⟨table, rfl⟩ h.1⟩
    rintro ⟨e, h⟩
    cases h

/-- An iteration that returned has made the entry of the service, if it gets one. -/
theorem returns_applyService (hstore : w.store = w0.store) :
    Returns (applyService faults w0.snapshot svc) w r w' ↔
      faults.hostnames svc.id = none ∧
        w' = { w with snapshot := insertRow (·.id) w0.appliedEntry w.snapshot svc } := by
  have hnames : w.store.listVerifiedHostnames svc.id = w0.store.listVerifiedHostnames svc.id := by
    rw [hstore]
  unfold applyService insertRow World.appliedEntry
  rw [returns_accept_bind]
  simp only [repoCall_eq_ok, exists_const, returns_get_bind, hnames]
  refine and_congr_right fun _ => ?_
  cases hempty : (w0.store.listVerifiedHostnames svc.id).isEmpty with
  | true => exact returns_pure.trans ⟨fun h => h.2, fun h => ⟨rfl, h⟩⟩
  | false =>
    cases w0.snapshot.lookup svc.id with
    | none => exact returns_pure.trans ⟨fun h => h.2, fun h => ⟨rfl, h⟩⟩
    | some => exact returns_modify

theorem fails_applyService :
    Fails (applyService faults w0.snapshot svc) w w' ↔ faults.hostnames svc.id ≠ none ∧ w' = w := by
  unfold applyService
  rw [fails_repoCall_bind, or_iff_left_iff_imp]
  rintro ⟨-, hfails⟩
  rw [fails_get_bind] at hfails
  -- only the read can fail
  dsimp only at hfails
  split at hfails
  · exact absurd hfails not_fails_pure
  · split at hfails
    · exact absurd hfails not_fails_pure
    · obtain ⟨e, h⟩ := hfails
      cases h

/-- The loop, over the services it has been through. -/
theorem returns_applyServices (hstore : w.store = w0.store) :
    Returns (services.forM (applyService faults w0.snapshot)) w ⟨⟩ w' ↔
      (∀ svc ∈ services, faults.hostnames svc.id = none) ∧
        w' = { w with snapshot := insertAll (·.id) w0.appliedEntry services w.snapshot } := by
  induction services generalizing w with
  | nil =>
    refine returns_pure.trans ⟨fun h => ⟨nofun, h.2⟩, fun h => ⟨rfl, h.2⟩⟩
  | cons svc services ih =>
    rw [returns_forM_cons, List.forall_mem_cons]
    have hafter : World.store { w with
        snapshot := insertRow (·.id) w0.appliedEntry w.snapshot svc } = w0.store := hstore
    constructor
    · rintro ⟨w1, hfirst, hrest⟩
      obtain ⟨hread, rfl⟩ := (returns_applyService hstore).mp hfirst
      obtain ⟨hreads, rfl⟩ := (ih hafter).mp hrest
      exact ⟨⟨hread, hreads⟩, rfl⟩
    · rintro ⟨⟨hread, hreads⟩, rfl⟩
      exact ⟨_, (returns_applyService hstore).mpr ⟨hread, rfl⟩, (ih hafter).mpr ⟨hreads, rfl⟩⟩

end

/-- The snapshot of `apply_routes` when the services `before` have had their turn. -/
def appliedUpTo (w : World) (before : List ServiceConfig) : RouteSnapshot :=
  insertAll (·.id) w.appliedEntry before ∅

variable {serviceId : Uuid}

/-- **Where `apply_routes` fails**: before it touches the snapshot, at a service whose
hostnames cannot be read, or when it builds the table. -/
theorem fails_applyRoutes : Fails (applyRoutes faults) w w' ↔
      (faults.listServices ≠ none ∧ w' = w) ∨ (faults.listServices = none ∧
        ((faults.poisoned = true ∧ w' = w) ∨ (faults.poisoned = false ∧
          ((∃ before svc after, w.store.listServices = before ++ svc :: after ∧
              (∀ b ∈ before, faults.hostnames b.id = none) ∧ faults.hostnames svc.id ≠ none ∧
              w' = { w with snapshot := appliedUpTo w before }) ∨
            ((∀ svc ∈ w.store.listServices, faults.hostnames svc.id = none) ∧
              ¬ Buildable w.appliedSnapshot ∧
              w' = { w with snapshot := w.appliedSnapshot }))))) := by
  unfold applyRoutes
  rw [fails_repoCall_bind, fails_get_bind, fails_lock_bind, fails_modify_bind, fails_bind,
    fails_forM]
  refine or_congr_right (and_congr_right fun _ => or_congr_right (and_congr_right fun _ => ?_))
  have hcleared : World.store { w with snapshot := ∅ } = w.store := rfl
  refine or_congr ?_ ?_
  · constructor
    · rintro ⟨before, svc, after, w1, hsplit, hbefore, hfails⟩
      obtain ⟨hreads, rfl⟩ := (returns_applyServices hcleared).mp hbefore
      obtain ⟨hread, rfl⟩ := fails_applyService.mp hfails
      exact ⟨before, svc, after, hsplit, hreads, hread, rfl⟩
    · rintro ⟨before, svc, after, hsplit, hreads, hread, rfl⟩
      exact ⟨before, svc, after, _, hsplit, (returns_applyServices hcleared).mpr ⟨hreads, rfl⟩,
        fails_applyService.mpr ⟨hread, rfl⟩⟩
  · constructor
    · rintro ⟨r, w1, hall, hswap⟩
      obtain ⟨hreads, rfl⟩ := (returns_applyServices hcleared).mp hall
      obtain ⟨hbuild, rfl⟩ := fails_swapBuilt.mp hswap
      exact ⟨hreads, hbuild, rfl⟩
    · rintro ⟨hreads, hbuild, rfl⟩
      exact ⟨⟨⟩, _, (returns_applyServices hcleared).mpr ⟨hreads, rfl⟩,
        fails_swapBuilt.mpr ⟨hbuild, rfl⟩⟩

/-- **Where `write_route_table` fails.** -/
theorem fails_writeRouteTable : Fails (writeRouteTable faults svc) w w' ↔
      (faults.hostnames svc.id ≠ none ∧ w' = w) ∨ (faults.hostnames svc.id = none ∧
        w.store.listVerifiedHostnames svc.id ≠ [] ∧
        ((faults.poisoned = true ∧ w' = w) ∨ (faults.poisoned = false ∧
          ∃ snapshot, snapshot = w.snapshot.insert svc.id
              (routeOf svc (w.store.listVerifiedHostnames svc.id)) ∧
            ¬ Buildable snapshot ∧ w' = { w with snapshot := snapshot }))) := by
  unfold writeRouteTable
  rw [fails_repoCall_bind, fails_get_bind]
  refine or_congr_right (and_congr_right fun _ => ?_)
  dsimp only
  split
  next hempty =>
    exact ⟨fun h => absurd h not_fails_pure, fun h => absurd (List.isEmpty_iff.mp hempty) h.1⟩
  next hempty =>
    have hne : w.store.listVerifiedHostnames svc.id ≠ [] := fun h => hempty (List.isEmpty_iff.mpr h)
    rw [fails_lock_bind, fails_modify_bind, fails_swapBuilt]
    constructor
    · rintro (h | ⟨hlock, hbuild, rfl⟩)
      · exact ⟨hne, .inl h⟩
      · exact ⟨hne, .inr ⟨hlock, _, rfl, hbuild, rfl⟩⟩
    · rintro ⟨-, h | ⟨hlock, snapshot, rfl, hbuild, rfl⟩⟩
      · exact .inl h
      · exact .inr ⟨hlock, hbuild, rfl⟩

/-- **Where the route part of `stop_service_routes_only` fails.** -/
theorem fails_unrouteService : Fails (unrouteService faults serviceId) w w' ↔
      (faults.promoted ≠ none ∧ w' = w) ∨ (faults.promoted = none ∧
        ((faults.poisoned = true ∧ w' = w) ∨ (faults.poisoned = false ∧
          ¬ Buildable (w.snapshot.erase serviceId) ∧
          w' = { w with snapshot := w.snapshot.erase serviceId }))) := by
  unfold unrouteService
  rw [fails_repoCall_bind, fails_get_bind, fails_lock_bind, fails_modify_bind, fails_bind,
    fails_swapBuilt]
  refine or_congr_right (and_congr_right fun _ => or_congr_right (and_congr_right fun _ => ?_))
  exact or_iff_left fun ⟨_, _, _, hpure⟩ => not_fails_pure hpure

/-- The other errors of `stop_service_routes_only` come after the swap, from the two writes. -/
theorem fails_stopServiceRoutesOnly : Fails (stopServiceRoutesOnly faults serviceId) w w' ↔
      Fails (unrouteService faults serviceId) w w' ∨
      ∃ deploymentId w1, Returns (unrouteService faults serviceId) w (some deploymentId) w1 ∧
        ((faults.updateStatus ≠ none ∧ w' = w1) ∨ (faults.updateStatus = none ∧
          faults.clearPromoted ≠ none ∧
          w' = w1.onStore (·.updateDeploymentStatus deploymentId .stopped))) := by
  unfold stopServiceRoutesOnly
  rw [fails_bind]
  refine or_congr_right ?_
  constructor
  · rintro ⟨promoted, w1, hreturns, hfails⟩
    cases promoted with
    | none => exact absurd hfails not_fails_pure
    | some deploymentId =>
      refine ⟨deploymentId, w1, hreturns, ?_⟩
      rcases fails_repoCall_bind.mp hfails with h | ⟨hstatus, hfails⟩
      · exact .inl h
      · rcases fails_repoCall_bind.mp hfails with h | ⟨-, e, h⟩
        · exact .inr ⟨hstatus, h⟩
        · cases h
  · rintro ⟨deploymentId, w1, hreturns, h⟩
    refine ⟨some deploymentId, w1, hreturns, fails_repoCall_bind.mpr ?_⟩
    rcases h with h | ⟨hstatus, h⟩
    · exact .inl h
    · exact .inr ⟨hstatus, fails_repoCall_bind.mpr (.inl h)⟩

/-! ## §3. Without faults. -/

theorem runProg_swapBuilt (w : World) (snapshot : RouteSnapshot) :
    runProg swapBuilt { w with snapshot := snapshot }
      = ((w.rebuild snapshot).2, w.putSnapshot snapshot) := by
  unfold World.rebuild World.putSnapshot
  show runProg (accept ((routeTableFromSnapshot snapshot).mapError DeployError.ingress) >>= _) _ = _
  cases routeTableFromSnapshot snapshot with
  | error => rfl
  | ok => rfl

/-- Without faults `apply_routes` is the one the requests call. -/
theorem runProg_applyRoutes (w : World) :
    runProg (applyRoutes .none) w = (w.applyRoutes.2, w.applyRoutes.1) := by
  have hcleared : World.store { w with snapshot := ∅ } = w.store := rfl
  have hloop : Returns (w.store.listServices.forM (applyService .none w.snapshot))
      { w with snapshot := ∅ } ⟨⟩ { w with snapshot := w.appliedSnapshot } :=
    (returns_applyServices hcleared).mpr ⟨fun _ _ => rfl, rfl⟩
  show runProg (w.store.listServices.forM (applyService .none w.snapshot) >>= fun _ => swapBuilt)
    { w with snapshot := ∅ } = _
  rw [runProg_bind, hloop]
  exact runProg_swapBuilt w w.appliedSnapshot

/-- Without faults `write_route_table` is the route step of a deploy. -/
theorem runProg_writeRouteTable (w : World) (svc : ServiceConfig)
    (hnames : w.store.listVerifiedHostnames svc.id ≠ []) : (runProg (writeRouteTable .none svc) w).2
      = w.apply (.route (routeOf svc (w.store.listVerifiedHostnames svc.id))) := by
  have hempty : (w.store.listVerifiedHostnames svc.id).isEmpty = false :=
    List.isEmpty_eq_false_iff.mpr hnames
  have hrun : runProg (writeRouteTable .none svc) w = runProg swapBuilt { w with
      snapshot := w.snapshot.insert svc.id
        (routeOf svc (w.store.listVerifiedHostnames svc.id)) } := by
    show runProg (if (w.store.listVerifiedHostnames svc.id).isEmpty then _ else _) w = _
    rw [hempty]
    rfl
  rw [hrun, runProg_swapBuilt]
  rfl

/-- Without faults the route part of `stop_service_routes_only` is the route step of a stop. -/
theorem runProg_unrouteService (w : World) (serviceId : Uuid) :
    (runProg (unrouteService .none serviceId) w).2 = w.apply (.unroute serviceId) := by
  have hrun : runProg (unrouteService .none serviceId) w
      = runProg (swapBuilt >>= fun _ => pure (w.store.promotedDeployment serviceId))
        { w with snapshot := w.snapshot.erase serviceId } := rfl
  rw [hrun, runProg_bind, runProg_swapBuilt]
  cases (w.rebuild (w.snapshot.erase serviceId)).2 with
  | error => rfl
  | ok => rfl

/-! ## §4. When nothing has changed. -/

/-- The snapshot has the same entries and the live table is the same. -/
def Unchanged (w w' : World) : Prop :=
  (∀ id, w'.snapshot.lookup id = w.snapshot.lookup id) ∧ w'.routes = w.routes

/-- Every entry of the snapshot is up to date, and of one of these services. -/
def UpToDate (w : World) (services : List ServiceConfig) : Prop :=
  ∀ id spec, w.snapshot.lookup id = some spec → ∃ svc ∈ services, svc.id = id ∧
    w.store.listVerifiedHostnames id ≠ [] ∧ spec = routeOf svc (w.store.listVerifiedHostnames id)

variable {spec : RouteSpec}

section
theorem unchanged_self : Unchanged w w := ⟨fun _ => rfl, rfl⟩

variable {id : Uuid}

theorem not_unchanged (h : w'.snapshot.lookup id ≠ w.snapshot.lookup id) :
    ¬ Unchanged w w' := fun hsame => h (hsame.1 id)

theorem lookup_appliedUpTo (hids : (services.map (·.id)).Nodup) (id : Uuid) (spec : RouteSpec) :
    (appliedUpTo w services).lookup id = some spec ↔
      ∃ svc ∈ services, svc.id = id ∧ w.store.listVerifiedHostnames id ≠ [] ∧
        (w.snapshot.lookup id).isSome ∧ spec = routeOf svc (w.store.listVerifiedHostnames id) := by
  refine (lookup_insertAll_empty hids).trans (exists_congr fun svc => and_congr_right fun _ => ?_)
  refine and_congr_right fun hid => ?_
  rw [World.appliedEntry_eq_some, hid]

/-- Clearing the snapshot and going through these services restores it exactly if it was up
to date. -/
theorem unchanged_appliedUpTo_iff (hids : (services.map (·.id)).Nodup) :
    Unchanged w { w with snapshot := appliedUpTo w services } ↔ UpToDate w services := by
  have hlook := lookup_appliedUpTo (w := w) hids
  constructor
  · rintro ⟨hsame, -⟩ id spec hspec
    obtain ⟨svc, hmem, hid, hnames, -, heq⟩ := (hlook id spec).mp ((hsame id).trans hspec)
    exact ⟨svc, hmem, hid, hnames, heq⟩
  · intro hcurrent
    refine ⟨fun id => ?_, rfl⟩
    show (appliedUpTo w services).lookup id = w.snapshot.lookup id
    cases hspec : w.snapshot.lookup id with
    | none =>
      refine Option.eq_none_iff_forall_not_mem.mpr fun spec hnew => ?_
      obtain ⟨-, -, -, -, hsome, -⟩ := (hlook id spec).mp hnew
      simp [hspec] at hsome
    | some spec =>
      obtain ⟨svc, hmem, hid, hnames, heq⟩ := hcurrent id spec hspec
      exact (hlook id spec).mpr ⟨svc, hmem, hid, hnames, by rw [hspec]; rfl, heq⟩

theorem unchanged_insert_iff : Unchanged w { w with snapshot := w.snapshot.insert id spec } ↔
      w.snapshot.lookup id = some spec := by
  constructor
  · rintro ⟨hsame, -⟩
    exact (hsame id).symm.trans (AList.lookup_insert _)
  · intro hspec
    refine ⟨fun id' => ?_, rfl⟩
    show (w.snapshot.insert id spec).lookup id' = w.snapshot.lookup id'
    by_cases hid : id' = id
    · rw [hid, AList.lookup_insert, hspec]
    · rw [AList.lookup_insert_ne hid]

theorem unchanged_erase_iff :
    Unchanged w { w with snapshot := w.snapshot.erase id } ↔ w.snapshot.lookup id = none := by
  constructor
  · rintro ⟨hsame, -⟩
    exact (hsame id).symm.trans (AList.lookup_erase _ _)
  · intro hnone
    refine ⟨fun id' => ?_, rfl⟩
    show (w.snapshot.erase id).lookup id' = w.snapshot.lookup id'
    by_cases hid : id' = id
    · rw [hid, AList.lookup_erase, hnone]
    · rw [AList.lookup_erase_ne hid]

/-! ## §5. Which tables cannot be built. -/

/-- An entry of another service stops the table. -/
def StoppedByOther (w : World) (serviceId : Uuid) : Prop :=
  ∃ id spec, id ≠ serviceId ∧ w.snapshot.lookup id = some spec ∧ ¬ spec.Routable

/-- A service with an entry has a name or a hostname that stops the table. -/
def StoppedByService (w : World) : Prop :=
  ∃ svc ∈ w.store.listServices, (w.snapshot.lookup svc.id).isSome ∧
    ¬ (routeOf svc (w.store.listVerifiedHostnames svc.id)).Routable

theorem not_buildable_iff {snapshot : RouteSnapshot} :
    ¬ Buildable snapshot ↔ ∃ id spec, snapshot.lookup id = some spec ∧ ¬ spec.Routable := by
  unfold Buildable
  simp only [not_forall, exists_prop]

theorem not_buildable_applied : ¬ Buildable w.appliedSnapshot ↔ StoppedByService w := by
  have hlook := lookup_appliedUpTo (w := w) w.store.listServices_nodup
  rw [not_buildable_iff]
  constructor
  · rintro ⟨id, spec, hspec, hstop⟩
    obtain ⟨svc, hmem, rfl, -, hsome, rfl⟩ := (hlook id spec).mp hspec
    exact ⟨svc, hmem, hsome, hstop⟩
  · rintro ⟨svc, hmem, hsome, hstop⟩
    -- without a hostname it would be skipped
    have hnames : w.store.listVerifiedHostnames svc.id ≠ [] := fun hnil => hstop (.inl hnil)
    exact ⟨svc.id, _, (hlook svc.id _).mpr ⟨svc, hmem, rfl, hnames, hsome, rfl⟩, hstop⟩

theorem not_buildable_insert :
    ¬ Buildable (w.snapshot.insert id spec) ↔ ¬ spec.Routable ∨ StoppedByOther w id := by
  rw [not_buildable_iff]
  constructor
  · rintro ⟨id', spec', hspec, hstop⟩
    rcases lookup_insert_cases hspec with ⟨rfl, rfl⟩ | ⟨hid, hspec⟩
    · exact .inl hstop
    · exact .inr ⟨id', spec', hid, hspec, hstop⟩
  · rintro (hstop | ⟨id', spec', hid, hspec, hstop⟩)
    · exact ⟨id, spec, AList.lookup_insert _, hstop⟩
    · exact ⟨id', spec', (AList.lookup_insert_ne hid).trans hspec, hstop⟩

theorem not_buildable_erase : ¬ Buildable (w.snapshot.erase id) ↔ StoppedByOther w id := by
  rw [not_buildable_iff]
  constructor
  · rintro ⟨id', spec', hspec, hstop⟩
    by_cases hid : id' = id
    · rw [hid, AList.lookup_erase] at hspec
      cases hspec
    · exact ⟨id', spec', hid, (AList.lookup_erase_ne hid).symm.trans hspec, hstop⟩
  · rintro ⟨id', spec', hid, hspec, hstop⟩
    exact ⟨id', spec', (AList.lookup_erase_ne hid).trans hspec, hstop⟩

/-! ## §6. The three conditions. -/

/-- `apply_routes`: if it gets past the lock, the entries are up to date and all of services
before the first one whose hostnames cannot be read; and if all can be read but the table
cannot be built, the entries are up to date. -/
def AppliesCleanly (faults : Faults) (w : World) : Prop :=
  faults.listServices = none → faults.poisoned = false →
    (∀ before svc after, w.store.listServices = before ++ svc :: after →
        (∀ b ∈ before, faults.hostnames b.id = none) → faults.hostnames svc.id ≠ none →
        UpToDate w before) ∧
      ((∀ svc ∈ w.store.listServices, faults.hostnames svc.id = none) → StoppedByService w →
        UpToDate w w.store.listServices)

/-- `write_route_table`: if the table cannot be built, the entry was already there. -/
def WritesCleanly (faults : Faults) (w : World) (svc : ServiceConfig) : Prop :=
  faults.hostnames svc.id = none → w.store.listVerifiedHostnames svc.id ≠ [] →
    faults.poisoned = false →
    (¬ (routeOf svc (w.store.listVerifiedHostnames svc.id)).Routable ∨ StoppedByOther w svc.id) →
    w.snapshot.lookup svc.id = some (routeOf svc (w.store.listVerifiedHostnames svc.id))

/-- `stop_service_routes_only`: if the table cannot be built, there was no entry. -/
def StopsCleanly (faults : Faults) (w : World) (serviceId : Uuid) : Prop :=
  faults.promoted = none → faults.poisoned = false → StoppedByOther w serviceId →
    w.snapshot.lookup serviceId = none

theorem applyRoutes_clean_iff :
    (∀ w', Fails (applyRoutes faults) w w' → Unchanged w w') ↔ AppliesCleanly faults w := by
  have hbefore : ∀ {before svc after}, w.store.listServices = before ++ svc :: after →
      (before.map (·.id)).Nodup := by
    intro before svc after hsplit
    have hids := w.store.listServices_nodup
    rw [hsplit, List.map_append] at hids
    exact hids.of_append_left
  constructor
  · intro hclean hlist hlock
    refine ⟨fun before svc after hsplit hreads hread => ?_, fun hreads hstop => ?_⟩
    · refine (unchanged_appliedUpTo_iff (hbefore hsplit)).mp (hclean _ (fails_applyRoutes.mpr ?_))
      exact .inr ⟨hlist, .inr ⟨hlock, .inl ⟨before, svc, after, hsplit, hreads, hread, rfl⟩⟩⟩
    · refine (unchanged_appliedUpTo_iff w.store.listServices_nodup).mp
        (hclean _ (fails_applyRoutes.mpr ?_))
      exact .inr ⟨hlist, .inr ⟨hlock, .inr ⟨hreads, not_buildable_applied.mpr hstop, rfl⟩⟩⟩
  · intro hclean w' hfails
    rcases fails_applyRoutes.mp hfails with ⟨-, rfl⟩ | ⟨hlist, ⟨-, rfl⟩ | ⟨hlock, hlate⟩⟩
    · exact unchanged_self
    · exact unchanged_self
    · obtain ⟨hread, hbuild⟩ := hclean hlist hlock
      rcases hlate with ⟨before, svc, after, hsplit, hreads, hfault, rfl⟩ | ⟨hreads, hstop, rfl⟩
      · exact (unchanged_appliedUpTo_iff (hbefore hsplit)).mpr
          (hread before svc after hsplit hreads hfault)
      · exact (unchanged_appliedUpTo_iff w.store.listServices_nodup).mpr
          (hbuild hreads (not_buildable_applied.mp hstop))

theorem writeRouteTable_clean_iff :
    (∀ w', Fails (writeRouteTable faults svc) w w' → Unchanged w w') ↔
      WritesCleanly faults w svc := by
  constructor
  · intro hclean hread hnames hlock hstop
    refine unchanged_insert_iff.mp (hclean _ (fails_writeRouteTable.mpr ?_))
    exact .inr ⟨hread, hnames, .inr ⟨hlock, _, rfl, not_buildable_insert.mpr hstop, rfl⟩⟩
  · intro hclean w' hfails
    rcases fails_writeRouteTable.mp hfails with
      ⟨-, rfl⟩ | ⟨hread, hnames, ⟨-, rfl⟩ | ⟨hlock, snapshot, rfl, hstop, rfl⟩⟩
    · exact unchanged_self
    · exact unchanged_self
    · exact unchanged_insert_iff.mpr (hclean hread hnames hlock (not_buildable_insert.mp hstop))

theorem unrouteService_clean_iff :
    (∀ w', Fails (unrouteService faults serviceId) w w' → Unchanged w w') ↔
      StopsCleanly faults w serviceId := by
  constructor
  · intro hclean hread hlock hstop
    refine unchanged_erase_iff.mp (hclean _ (fails_unrouteService.mpr ?_))
    exact .inr ⟨hread, .inr ⟨hlock, not_buildable_erase.mpr hstop, rfl⟩⟩
  · intro hclean w' hfails
    rcases fails_unrouteService.mp hfails with ⟨-, rfl⟩ | ⟨hread, ⟨-, rfl⟩ | ⟨hlock, hstop, rfl⟩⟩
    · exact unchanged_self
    · exact unchanged_self
    · exact unchanged_erase_iff.mpr (hclean hread hlock (not_buildable_erase.mp hstop))

end

/-- **When a failed rebuild has changed nothing**, for each of the three functions. -/
theorem route_rebuild_fails_cleanly_iff (faults : Faults) (w : World) (svc : ServiceConfig) :
    ((∀ w', Fails (applyRoutes faults) w w' → Unchanged w w') ↔ AppliesCleanly faults w) ∧
    ((∀ w', Fails (writeRouteTable faults svc) w w' → Unchanged w w') ↔
      WritesCleanly faults w svc) ∧
    ((∀ w', Fails (unrouteService faults svc.id) w w' → Unchanged w w') ↔
      StopsCleanly faults w svc.id) :=
  ⟨applyRoutes_clean_iff, writeRouteTable_clean_iff, unrouteService_clean_iff⟩

/-! ## §7. Rebuilds that leave a changed snapshot. -/

/-- The hostname of the blog, and of the shop. -/
def siteHost : Bool → Hostname
  | false => ⟨"blog.example.com", by decide +kernel⟩
  | true => ⟨"shop.example.com", by decide +kernel⟩

/-- Three services, in the order of their names, each with a verified hostname. -/
def siteStore : Store :=
  { ((idleWorld.store.putService (.plain 30 "shop")).putService (.plain 20 "docs")).putService
      (.plain 10 "blog") with
    domains := [⟨11, 10, siteHost false, .verified⟩, ⟨21, 20, longHostname, .verified⟩,
      ⟨31, 30, siteHost true, .verified⟩]
    domain_id_unique := by decide
    hostname_unique := by decide +kernel }

/-- The blog and the shop are routed; the docs are not deployed yet, and their hostname is
too long. -/
def routedWorld : World :=
  World.putSnapshot { idleWorld with store := siteStore }
    (AList.insert 10 (routeOf (.plain 10 "blog") ["blog.example.com"])
      (AList.insert 30 (routeOf (.plain 30 "shop") ["shop.example.com"]) ∅))

/-- The hostnames of the shop cannot be read. -/
def shopUnreadable : Faults :=
  { Faults.none with hostnames := fun id => if id = 30 then some "disk I/O error" else none }

/-- After the read error: the entry of the blog has been made again, the one of the shop not. -/
def afterApply : World :=
  { routedWorld with snapshot := appliedUpTo routedWorld [.plain 10 "blog", .plain 20 "docs"] }

/-- After a deploy of the docs that failed to write its route. -/
def afterWrite : World :=
  { routedWorld with
    snapshot := routedWorld.snapshot.insert 20 (routeOf (.plain 20 "docs") [longHostname.name]) }

/-- And after a stop of the shop. -/
def afterStop : World := { afterWrite with snapshot := afterWrite.snapshot.erase 30 }

theorem docs_not_routable : ¬ (routeOf (.plain 20 "docs") [longHostname.name]).Routable := by
  rintro (hnil | ⟨-, hdomains⟩)
  · cases hnil
  · have hok := hdomains longHostname.name List.mem_cons_self
    have hname : longHostname.name.toList = longName := String.toList_ofList
    rw [domainOk_hostname, hname] at hok
    exact absurd hok (by decide +kernel)

/-- **Failed rebuilds that change the snapshot.**  A read error in `apply_routes` loses the
entry of the shop, and the next rebuild, without any error, takes its route away.  A hostname
that cannot be routed leaves an entry that was never applied, and with it a stop of the shop
loses the shop's entry while its route stays. -/
theorem failed_rebuild_changes_snapshot :
    (Fails (applyRoutes shopUnreadable) routedWorld afterApply ∧
      ¬ Unchanged routedWorld afterApply ∧
      (afterApply.routes.resolve "shop.example.com").isSome ∧ afterApply.applyRoutes.2 = .ok () ∧
      afterApply.applyRoutes.1.routes.resolve "shop.example.com" = none) ∧
    (Fails (writeRouteTable .none (.plain 20 "docs")) routedWorld afterWrite ∧
      ¬ Unchanged routedWorld afterWrite ∧ afterWrite.routes = routedWorld.routes) ∧
    (Fails (unrouteService .none 30) afterWrite afterStop ∧ ¬ Unchanged afterWrite afterStop ∧
      (afterStop.routes.resolve "shop.example.com").isSome) := by
  have hlost : afterApply.snapshot.lookup 30 ≠ routedWorld.snapshot.lookup 30 := by decide +kernel
  have hdocs : afterWrite.snapshot.lookup 20 ≠ routedWorld.snapshot.lookup 20 := by decide +kernel
  have hshop : afterStop.snapshot.lookup 30 ≠ afterWrite.snapshot.lookup 30 := by decide +kernel
  refine ⟨⟨fails_applyRoutes.mpr ?_, not_unchanged hlost, ?_⟩,
    ⟨fails_writeRouteTable.mpr ?_, not_unchanged hdocs, rfl⟩,
    ⟨fails_unrouteService.mpr ?_, not_unchanged hshop, ?_⟩⟩
  · refine .inr ⟨rfl, .inr ⟨rfl, .inl ⟨[.plain 10 "blog", .plain 20 "docs"],
      .plain 30 "shop", [], by decide +kernel, ?_, nofun, rfl⟩⟩⟩
    decide +kernel
  · decide +kernel
  · refine .inr ⟨rfl, by decide +kernel, .inr ⟨rfl, afterWrite.snapshot, rfl, ?_, rfl⟩⟩
    exact not_buildable_insert.mpr (.inl docs_not_routable)
  · refine .inr ⟨rfl, .inr ⟨rfl, not_buildable_erase.mpr ?_, rfl⟩⟩
    exact ⟨20, _, by decide, AList.lookup_insert _, docs_not_routable⟩
  · decide +kernel

end Denia.Deploy.Rebuild

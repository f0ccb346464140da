import Aspm.Install.Reached
import Aspm.Lib.History

/-!
# What an approval is for

Two requests with one plan id are the same request, as long as the id is a digest.  Where the
installer hands out the id of its checkpoint, it has compared the target and the caller, and
for a resumed `apply` also the bundle, the configuration and the roles; never the role keys or
the trust key, and for a reapplied release not the configuration or the roles either.
-/

namespace Aspm.Install

open Json (Text)

variable {r : Request} {id : PlanID} {e : Entry} {c : Call} {record : Record} {todo : List StepName}

/-- The last call that wrote a checkpoint of its own, and the id it was approved with. -/
def lastBegan : List Entry → Option (Request × PlanID)
  | [] => none
  | .began r id :: _ => some (r, id)
  | _ :: log => lastBegan log

theorem mem_of_lastBegan {log : List Entry} (last : lastBegan log = some (r, id)) :
    .began r id ∈ log := by
  fun_induction lastBegan log with
  | case1 => cases last
  | case2 r' id' log =>
    cases last
    exact List.mem_cons_self
  | case3 e log other ih => exact List.mem_cons_of_mem _ (ih last)

/-- A plan id was given to a request, by `Plan` or by an `Execute` that it approved. -/
def Given (log : List Entry) (r : Request) (id : PlanID) : Prop :=
  .planned r id ∈ log ∨ .began r id ∈ log

/-- The id is the digest of a plan for this request. -/
def Binds (id : PlanID) (r : Request) : Prop :=
  ∃ kind current, id = boundID r (makePlan r kind current)

/-- A digest has one request. -/
theorem Binds.unique {r' : Request} (binds : Binds id r) (binds' : Binds id r') : r = r' := by
  obtain ⟨kind, current, rfl⟩ := binds
  obtain ⟨kind', current', same⟩ := binds'
  cases r
  cases r'
  simp only [boundID, makePlan, PlanID.mk.injEq, Plan.mk.injEq] at same
  simp only [Request.mk.injEq]
  tauto

/-- A request that is given the id of the checkpoint is the one the checkpoint was begun
with. -/
def repeats (host : Host) (w : World) (r : Request) : Bool :=
  match prepare host w.disk.record r with
  | .ok p => w.disk.record.planID ≠ some p.id || (lastBegan w.log).map Prod.fst = some r
  | .error _ => true

def repeating (host : Host) (w : World) : Action → Bool
  | .plan r | .execute r _ => repeats host w r
  | .proceed | .fail _ | .kill => true

/-- The call that a stage is in. -/
def Stage.call : Stage → Option Call
  | .idle | .opening _ => none
  | .looping c _ _ | .running c _ _ _ _ => some c

/-- A step is run by the call that began last. -/
def Entry.Approved : Entry → List Entry → Prop
  | .ran r _, log => ∃ id, lastBegan log = some (r, id)
  | _, _ => True

structure World.Bound (w : World) : Prop where
  /-- The id of the checkpoint is a digest of the request that wrote it. -/
  stored : ∀ id, w.disk.record.planID = some id →
    ∃ r, (lastBegan w.log).map Prod.fst = some r ∧ Binds id r
  given : ∀ r id, Given w.log r id → Binds id r
  opening : ∀ c, w.stage = .opening c → Binds c.id c.request
  call : ∀ c, w.stage.call = some c → lastBegan w.log = some (c.request, c.id)
  ran : History.Everywhere Entry.Approved w.log

/-- An entry that is not about a plan. -/
def Entry.plain : Entry → Bool
  | .planned _ _ | .began _ _ => false
  | _ => true

theorem lastBegan_of_plain (plain : e.plain = true) (log : List Entry) :
    lastBegan (e :: log) = lastBegan log := by
  cases e with
  | planned | began => cases plain
  | rejected | ran | issued | failed | returned => rfl

theorem given_of_plain (plain : e.plain = true) {log : List Entry} :
    Given (e :: log) r id ↔ Given log r id := by
  cases e with
  | planned | began => cases plain
  | rejected | ran | issued | failed | returned => simp [Given]

namespace World.Bound

variable {host : Host} {w w' : World} {a : Action}

/-- The digest of a prepared request, if it repeats the last one. -/
theorem binds_of_prepared (bound : w.Bound) {p : Prepared}
    (prepared : prepare host w.disk.record r = .ok p) (same : repeats host w r = true) :
    Binds p.id r := by
  obtain ⟨-, -, -, kind, current, -, id, identified, rfl⟩ := prepare_eq_ok.mp prepared
  rcases identify_eq_ok identified with kept | fresh
  · obtain ⟨stored, -⟩ := planID_of_keptID kept
    obtain ⟨r', began, binds⟩ := bound.stored id stored
    have last : (lastBegan w.log).map Prod.fst = some r := by
      simp only [repeats, prepared] at same
      simpa [stored] using same
    rw [last] at began
    obtain rfl := Option.some.inj began
    exact binds
  · exact ⟨kind, current, fresh⟩

/-- A step that leaves the plan id and logs nothing about plans. -/
theorem quiet (bound : w.Bound) (planID : w'.disk.record.planID = w.disk.record.planID)
    (log : w'.log = e :: w.log) (plain : e.plain = true) (approved : e.Approved w.log)
    (opening : ∀ c, w'.stage ≠ .opening c)
    (call : ∀ c, w'.stage.call = some c → w.stage.call = some c) : w'.Bound where
  stored := by
    rw [planID, log, lastBegan_of_plain plain]
    exact bound.stored
  given := by
    intro r id
    rw [log, given_of_plain plain]
    exact bound.given r id
  opening := fun c at_ => absurd at_ (opening c)
  call := by
    intro c found
    rw [log, lastBegan_of_plain plain]
    exact bound.call c (call c found)
  ran := by
    rw [log]
    exact History.everywhere_cons.mpr ⟨approved, bound.ran⟩

/-- A step that leaves the plan id and logs nothing. -/
theorem silent (bound : w.Bound) (planID : w'.disk.record.planID = w.disk.record.planID)
    (log : w'.log = w.log) (opening : ∀ c, w'.stage = .opening c → Binds c.id c.request)
    (call : ∀ c, w'.stage.call = some c → w.stage.call = some c) : w'.Bound where
  stored := by
    rw [planID, log]
    exact bound.stored
  given := by
    rw [log]
    exact bound.given
  opening := opening
  call := by
    intro c found
    rw [log]
    exact bound.call c (call c found)
  ran := by
    rw [log]
    exact bound.ran

theorem failStep (bound : w.Bound) (holding : Holding w c record todo) (s : StepName)
    (cause : Failure) : (failStep w c record s cause).Bound := by
  refine bound.quiet ?_ rfl rfl trivial (fun _ => Stage.noConfusion) (fun _ none => by cases none)
  exact (Record.same_units holding.linked).planID.symm

theorem openCall (bound : w.Bound) (based : w.Based host) (at_ : w.stage = .opening c) :
    (openCall w c).Bound := by
  have regular := (based.opening at_).regular based.formed
  have binds := bound.opening c at_
  simp only [Install.openCall, if_neg regular]
  refine ⟨?_, ?_, fun _ => Stage.noConfusion, ?_, ?_⟩
  · intro id stored
    obtain rfl : c.id = id := Option.some.inj stored
    exact ⟨c.request, rfl, binds⟩
  · intro r id given
    have cases : (r = c.request ∧ id = c.id) ∨ Given w.log r id := by
      simpa [Given, or_left_comm, or_assoc] using given
    rcases cases with ⟨rfl, rfl⟩ | earlier
    · exact binds
    · exact bound.given r id earlier
  · intro c' found
    cases found
    rfl
  · exact History.everywhere_cons.mpr ⟨trivial, bound.ran⟩

theorem enterStep (bound : w.Bound) (based : w.Based host) {s : StepName}
    (at_ : w.stage = .looping c record (s :: todo)) : (enterStep w c record s todo).Bound := by
  have holding := based.looping at_
  have planID := (Record.same_units holding.linked).planID
  have last : lastBegan w.log = some (c.request, c.id) := bound.call c (by rw [at_]; rfl)
  have call : ∀ c', some c = some c' → w.stage.call = some c' := by
    intro c' found
    rw [at_]
    exact found
  unfold Install.enterStep
  split
  · exact bound.silent rfl rfl (fun _ => Stage.noConfusion) call
  · split
    · exact bound.quiet planID.symm rfl rfl ⟨c.id, last⟩ (fun _ => Stage.noConfusion) call
    · exact bound.quiet rfl rfl rfl ⟨c.id, last⟩ (fun _ => Stage.noConfusion) call

theorem performNext (bound : w.Bound) (based : w.Based host) {s : StepName} {e : Effect}
    {pending : List Effect} (at_ : w.stage = .running c record s (e :: pending) todo) :
    (performNext host w c record s e pending todo).Bound := by
  obtain ⟨holding, -⟩ := based.running at_
  have call : ∀ c', some c = some c' → w.stage.call = some c' := by
    intro c' found
    rw [at_]
    exact found
  rcases performNext_cases host w c record s e pending todo with
    ⟨cause, failed⟩ | ⟨disk, record', result, next⟩
  · rw [failed]
    exact bound.failStep holding s cause
  · rw [next]
    have planID : disk.record.planID = w.disk.record.planID := congrArg _ (perform_loaded result)
    cases e with
    | native command =>
      exact bound.quiet planID rfl rfl trivial (fun _ => Stage.noConfusion) call
    | material | policy | environments | readPolicy | unit _ | networkFiles | requireOwned
      | validate | remove _ | values =>
        exact bound.silent planID rfl (fun _ => Stage.noConfusion) call

/-- **The step**, if the requests repeat. -/
theorem step (bound : w.Bound) (based : w.Based host) (same : repeating host w a = true)
    (taken : step host w a = some w') : w'.Bound := by
  cases taken_of_step taken with
  | planned idle prepared =>
    have binds := bound.binds_of_prepared prepared same
    refine ⟨bound.stored, ?_, fun c at_ => bound.opening c at_, fun c found => bound.call c found,
      History.everywhere_cons.mpr ⟨trivial, bound.ran⟩⟩
    rename_i r p
    intro r' id given
    have cases : (r' = r ∧ id = p.id) ∨ Given w.log r' id := by
      simpa [Given, or_assoc] using given
    rcases cases with ⟨rfl, rfl⟩ | earlier
    · exact binds
    · exact bound.given r' id earlier
  | planRefused idle =>
    exact bound.quiet rfl rfl rfl trivial (fun c at_ => by simp [idle] at at_)
      (fun _ found => found)
  | refused idle =>
    exact bound.quiet rfl rfl rfl trivial (fun c at_ => by simp [idle] at at_)
      (fun _ found => found)
  | entered idle admitted =>
    obtain ⟨request, -, entered⟩ := enter_eq_ok admitted
    subst request
    refine bound.silent rfl rfl ?_ (fun _ none => by cases none)
    rintro c' opening
    cases opening
    exact bound.binds_of_prepared entered.prepared same
  | opened at_ => exact bound.openCall based at_
  | finished at_ =>
    have holding := based.looping at_
    refine bound.quiet ?_ rfl rfl trivial (fun _ => Stage.noConfusion)
      (fun _ none => by cases none)
    rw [(Record.same_units holding.linked).planID]
    exact Record.finish_planID _ _
  | stepped at_ => exact bound.enterStep based at_
  | performed at_ => exact bound.performNext based at_
  | completed at_ =>
    obtain ⟨holding, -⟩ := based.running at_
    refine bound.silent (Record.same_units holding.linked).planID.symm rfl
      (fun _ => Stage.noConfusion) (fun c' found => ?_)
    rw [at_]
    exact found
  | refusedStep at_ => exact bound.failStep (based.looping at_) _ _
  | failed at_ => exact bound.failStep (based.running at_).1 _ _
  | killed => exact bound.silent rfl rfl (fun _ => Stage.noConfusion) (fun _ none => by cases none)

theorem blank : World.blank.Bound where
  stored := fun id stored => by cases stored
  given := fun r id given => by simp [Given, World.blank] at given
  opening := fun c at_ => by cases at_
  call := fun c none => by cases none
  ran := History.everywhere_nil

end World.Bound

/-- A host on which nothing is refused, and roles do not show in the units. -/
def plainHost : Host where
  resolves := fun _ => none
  trusts := fun _ => true
  inspects := fun _ => none
  leaks := fun _ _ => false
  secrets := fun _ => none
  environments := fun _ => none
  renderRole := fun data _ => some data
  pinnedImage := fun _ => true

def plainUnit : Text := "[Container]\nImage=x".toList

/-- A release whose images have its name. -/
def plainBundle (name : Text) : Bundle where
  release := name
  application := name
  postgres := name
  storage := name
  units := activationUnits.map fun u => (u, plainUnit)
  rest := []

def plainRole (name : Text) : RoleSelection := ⟨⟨name, [], []⟩, [], [], [], []⟩

def plainKeys : RoleCredentials := ⟨⟨['c'], ['c']⟩, ⟨['i'], ['i']⟩, ⟨['r'], ['r']⟩⟩

def plainRequest (operation : Operation) (target : TargetKind) (name : Text) : Request where
  operation := operation
  deleteData := false
  config := ⟨name, target, [], []⟩
  bundle := plainBundle name
  roles := ⟨plainRole ['c'], plainRole ['i'], plainRole ['r']⟩
  roleKeys := plainKeys
  trustKey := []
  caller := none
  fingerprint := ['m']

/-- The same request for another core secret. -/
def Request.withCore (r : Request) (name : Text) : Request :=
  { r with roles.core := plainRole name }

/-- A request with the id that is a digest of its plan. -/
def plainID (r : Request) (kind : ChangeKind) (current : Option Bundle) : PlanID :=
  boundID r (makePlan r kind current)

/-- An approved call, and as many of its steps. -/
def callFor (r : Request) (id : PlanID) (n : ℕ) : List Action :=
  .execute r (some id) :: List.replicate n .proceed

/-- The first release of the examples on a cluster. -/
def clusterInstall : Request := plainRequest .apply .kubernetes ['a']

def clusterInstallID : PlanID := plainID clusterInstall .initialInstall none

def plannedInstall : List Action := .plan clusterInstall :: callFor clusterInstall clusterInstallID 3

/-- The release is installed; then the same release is planned and executed with another
secret for its core role, under the approval of the installation. -/
def approvedTwice : List Action :=
  .plan clusterInstall :: callFor clusterInstall clusterInstallID 30 ++
    .plan (clusterInstall.withCore ['d']) ::
      callFor (clusterInstall.withCore ['d']) clusterInstallID 3

end Aspm.Install

import PgHa.Ha.Failover

/-!
# `ha/switchover.py`: the switchover engine

`SwitchoverEngine` on both sides of a planned hand-off.
-/

namespace PgHa.SwitchoverEngine

open Effect

variable (cfg : Config)

def cmdSwitchoverRequest : String := "SWITCHOVER_REQUEST"

def cmdSwitchoverAccept : String := "SWITCHOVER_ACCEPT"

/-- `_MGMT_TIMEOUT_SECS`. -/
def mgmtTimeoutMillis : Int := 30000

/-- `value.get(key)` of a JSON object; any other value has no `get`. -/
def jsonGet (value : Json) (key : String) : Except Exc (Option Json) :=
  match value with
  | .obj fields => .ok ((fields.find? (·.1 == key)).map (·.2))
  | _ => .error ⟨.other, "object has no attribute 'get'"⟩

/-- A field that is present and equal to the text. -/
def isText (field : Option Json) (text : String) : Bool :=
  match field with
  | some (.str value) => value == text
  | _ => false

/-! ## Steps of the primary -/

/-- The loop of `_step_pre_check`. -/
def pollPeer (deadline : Int) : ℕ → Mgr Unit
  | 0 => .stuck
  | fuel + 1 => do
      let now ← Mgr.host .monotonic
      if now < deadline then
        match ← (Mgr.host
            (.createConnection cfg.cluster.peerIp cfg.cluster.peerPort 3000)).attempt with
        | .ok _ => pure ()
        | .error exc =>
            if exc.isOSError then
              Mgr.host (.sleep 2000)
              pollPeer deadline fuel
            else .raise exc
      else
        .raise (.runtimeError
          s!"Pre-check failed: peer {cfg.cluster.peerIp}:{cfg.cluster.peerPort} not reachable")

theorem pollPeer_calls {allowed : Call → Prop} (hclock : allowed (.host .monotonic))
    (hconnect : ∀ ip port timeout, allowed (.host (.createConnection ip port timeout)))
    (hsleep : ∀ duration, allowed (.host (.sleep duration))) (deadline : Int) (fuel : ℕ) :
    (pollPeer cfg deadline fuel).Calls allowed := by
  induction fuel with
  | zero => trivial
  | succ fuel ih =>
      refine .perform_bind hclock fun now => .ite (.bind ?_ fun result => ?_) trivial
      · exact .attempt (Prog.Calls.perform (hconnect _ _ _))
      · cases result with
        | ok _ => trivial
        | error exc => exact .ite (.perform_bind (hsleep _) fun _ => ih) trivial

theorem pollPeer_minor (deadline : Int) (fuel : ℕ) :
    (pollPeer cfg deadline fuel).Calls Call.minor :=
  pollPeer_calls cfg trivial (fun _ _ _ => trivial) (fun _ => trivial) deadline fuel

def stepPreCheck : Mgr Unit := do
  let now ← Mgr.host .monotonic
  pollPeer cfg (now + mgmtTimeoutMillis) cfg.loopBound

def stepStopPostgres : Mgr Unit := do
  Mgr.disk (.stopPostgres .fast)
  Mgr.host (.setPgState .stopped)

def stepUmount : Mgr Unit := Mgr.disk .unmountDisk

def stepDetachDisk : Mgr Unit := do
  Mgr.disk .detachDisk
  Mgr.host (.setDiskState .detached)
  emit cfg .diskDetached s!"RPD detached from {cfg.cluster.nodeName}"

def stepReleaseVip : Mgr Unit := do
  Mgr.net .releaseVip
  emit cfg .vipReleased s!"VIP released from {cfg.cluster.nodeName}"

/-- The request to the peer, with the token when one is configured. -/
def peerRequest (cmd : String) : PeerRequest :=
  ⟨cmd, if cfg.cluster.peerAuthToken = "" then none else some cfg.cluster.peerAuthToken⟩

def stepSignalPeer : Mgr Unit := do
  Mgr.host (.createConnection cfg.cluster.peerIp cfg.cluster.peerPort mgmtTimeoutMillis)
  Mgr.host (.sendRequest (peerRequest cfg cmdSwitchoverRequest))
  let resp ← Mgr.host .recvReply
  let cmd ← Prog.ofExcept (jsonGet resp.value "cmd")
  if isText cmd cmdSwitchoverAccept then pure ()
  else .raise (.runtimeError s!"Unexpected peer response: {resp.text}")

def stepDemote : Mgr Unit := do
  Mgr.host (.setRole .standby)
  Mgr.host (.setHealth .healthy)
  emit cfg .roleChanged s!"{cfg.cluster.nodeName} demoted to STANDBY"

/-! ## The primary side -/

def primarySteps : List (StepName × Mgr Unit) :=
  [(.preCheck, stepPreCheck cfg), (.vipRelease, stepReleaseVip cfg), (.pgStop, stepStopPostgres),
    (.umount, stepUmount), (.detach, stepDetachDisk cfg), (.signalPeer, stepSignalPeer cfg),
    (.demote, stepDemote cfg)]

/-- The operations that the steps of the primary perform. -/
def Handing : Call → Prop
  | .net .releaseVip | .disk (.stopPostgres _) | .disk .unmountDisk | .disk .detachDisk => True
  | .host (.setRole role) => role = .standby
  | .host .monotonic | .host (.createConnection ..) | .host (.sleep _) | .host (.putEvent _)
  | .host (.setPgState _) | .host (.setDiskState _) | .host (.setHealth _)
  | .host .recvReply => True
  | .host (.sendRequest request) => request.cmd = cmdSwitchoverRequest
  | _ => False

theorem primarySteps_handing : ∀ step ∈ primarySteps cfg, step.2.Calls Handing := by
  intro step hstep
  have hemit (eventType : HaEventType) (message : String) :
      (emit cfg eventType message).Calls Handing := emit_calls (fun _ => trivial) _ _
  simp only [primarySteps, List.mem_cons, List.not_mem_nil, or_false] at hstep
  rcases hstep with rfl | rfl | rfl | rfl | rfl | rfl | rfl
  · refine .perform_bind trivial fun now => ?_
    exact pollPeer_calls cfg trivial (fun _ _ _ => trivial) (fun _ => trivial) _ _
  · exact .perform_bind trivial fun _ => hemit _ _
  · exact .perform_bind trivial fun _ => Prog.Calls.perform trivial
  · exact Prog.Calls.perform trivial
  · exact .perform_bind trivial fun _ => .perform_bind trivial fun _ => hemit _ _
  · refine .perform_bind trivial fun _ => .perform_bind rfl fun _ =>
      .perform_bind trivial fun resp => .bind (Prog.calls_ofExcept _) fun cmd =>
        .ite trivial trivial
  · exact .perform_bind rfl fun _ => .perform_bind trivial fun _ => hemit _ _

/-- The loop of `execute_as_primary`. -/
def runPrimarySteps : List (StepName × Mgr Unit) → Mgr Bool
  | [] => pure true
  | (name, step) :: rest => do
      Mgr.host (.mark (.step name))
      match ← step.attempt with
      | .ok _ => runPrimarySteps rest
      | .error exc =>
          emit cfg .switchoverFailed s!"Failed at {name.text}: {exc.message}"
          pure false

/-- What every step may do, the loop may do. -/
theorem runPrimarySteps_calls {allowed : Call → Prop}
    (hput : ∀ event, allowed (.host (.putEvent event))) {steps : List (StepName × Mgr Unit)}
    (hmark : ∀ step ∈ steps, allowed (.host (.mark (.step step.1))))
    (hsteps : ∀ step ∈ steps, step.2.Calls allowed) :
    (runPrimarySteps cfg steps).Calls allowed := by
  induction steps with
  | nil => trivial
  | cons step rest ih =>
      refine .perform_bind (hmark step List.mem_cons_self) fun _ =>
        .bind (.attempt (hsteps step List.mem_cons_self)) fun result => ?_
      cases result with
      | ok _ =>
          apply ih
          · exact fun step hstep => hmark step (List.mem_cons_of_mem _ hstep)
          · exact fun step hstep => hsteps step (List.mem_cons_of_mem _ hstep)
      | error exc => exact .bind (emit_calls hput _ _) fun _ => trivial

def executeAsPrimary : Mgr Bool := do
  if !(← LocalNode.isPrimary) then
    pure false
  else
    inSequence .asPrimary do
      emit cfg .switchoverStarted "Planned switchover initiated on primary"
      if ← runPrimarySteps cfg (primarySteps cfg) then
        emit cfg .switchoverCompleted s!"{cfg.cluster.nodeName} demoted to STANDBY"
        pure true
      else
        pure false

/-- What the steps may do, a whole switchover of the primary may do. -/
theorem executeAsPrimary_calls {allowed : Call → Prop} (hhanding : ∀ op, Handing op → allowed op)
    (hrole : allowed (.host .role)) (henter : allowed (.host (.mark (.enter .asPrimary))))
    (hleave : allowed (.host (.mark (.leave .asPrimary))))
    (hmark : ∀ step ∈ primarySteps cfg, allowed (.host (.mark (.step step.1)))) :
    (executeAsPrimary cfg).Calls allowed := by
  have hput (event : HaEvent) : allowed (.host (.putEvent event)) := hhanding _ trivial
  have hsteps : (runPrimarySteps cfg (primarySteps cfg)).Calls allowed :=
    runPrimarySteps_calls cfg hput hmark fun step hstep =>
      (primarySteps_handing cfg step hstep).mono hhanding
  refine .bind (.perform_bind hrole fun role => trivial) fun primary => .ite trivial ?_
  refine .perform_bind henter fun _ => .ensuring ?_ (Prog.Calls.perform hleave)
  refine .bind (emit_calls hput _ _) fun _ => .bind hsteps fun succeeded => ?_
  exact .ite (.bind (emit_calls hput _ _) fun _ => trivial) trivial

/-! ## Steps of the standby -/

def peerInstance : String :=
  if cfg.cluster.nodeName ≠ cfg.gcp.instancePrimary then cfg.gcp.instancePrimary
  else cfg.gcp.instanceStandby

def stillAttached : Exc :=
  .runtimeError (s!"Disk is still attached RW to peer {peerInstance cfg} — " ++
    "refusing to force-attach during switchover. " ++ "Peer must detach first.")

def stepAttachDisk : Mgr Unit := do
  let holder ← Mgr.disk .currentRwHolder
  if holder = some (peerInstance cfg) then
    .raise (stillAttached cfg)
  else
    Mgr.disk .attachDiskRw
    Mgr.host (.setDiskState .attachedRw)

def stepMountDisk : Mgr Unit := Mgr.disk .mountDisk

def stepStartPostgres : Mgr Unit := startPostgresFrom cfg 3

def stepAcquireVip : Mgr Unit := do
  Mgr.net .acquireVip
  emit cfg .vipAcquired s!"VIP {cfg.gcp.vipAddress} moved to {cfg.cluster.nodeName}"

def stepPromote : Mgr Unit := do
  Mgr.host (.setRole .primary)
  Mgr.host (.setHealth .healthy)
  emit cfg .roleChanged s!"{cfg.cluster.nodeName} promoted to PRIMARY"

/-! ## The standby side -/

def standbySteps : List (StepName × Mgr Unit) :=
  [(.attach, stepAttachDisk cfg), (.mount, stepMountDisk), (.pgStart, stepStartPostgres cfg),
    (.vip, stepAcquireVip cfg), (.promote, stepPromote cfg)]

/-- What `_rollback_promotion` does about one completed step. -/
def undo : StepName → Mgr Unit
  | .pgStart => do
      Mgr.disk (.stopPostgres .immediate)
      Mgr.host (.setPgState .stopped)
  | .mount => Mgr.disk .unmountDisk
  | .attach => do
      Mgr.disk .detachDisk
      Mgr.host (.setDiskState .detached)
  | .vip => Mgr.net .releaseVip
  | _ => pure ()

/-- `_rollback_promotion`; the completed steps come last one first. -/
def rollbackPromotion : List StepName → Mgr Unit
  | [] => pure ()
  | step :: rest => do
      let _ ← (undo step).attempt
      rollbackPromotion rest

theorem standbySteps_working : ∀ step ∈ standbySteps cfg, step.2.Calls Call.working := by
  intro step hstep
  simp only [standbySteps, List.mem_cons, List.not_mem_nil, or_false] at hstep
  rcases hstep with rfl | rfl | rfl | rfl | rfl
  · refine .perform_bind trivial fun holder => .ite trivial ?_
    exact .perform_bind trivial fun _ => Prog.Calls.perform trivial
  · exact Prog.Calls.perform trivial
  · exact startPostgresFrom_working cfg 3
  · exact .perform_bind trivial fun _ => emit_calls_of (by simp [Call.working])
  · exact .perform_bind rfl fun _ => .perform_bind trivial fun _ =>
      emit_calls_of (by simp [Call.working])

theorem undo_calls_of {allowed : Call → Prop} (hdisk : ∀ call, allowed (.disk call))
    (hvip : allowed (.net .releaseVip)) (hpgState : ∀ state, allowed (.host (.setPgState state)))
    (hdiskState : ∀ state, allowed (.host (.setDiskState state))) (name : StepName) :
    (undo name).Calls allowed := by
  cases name with
  | pgStart => exact .perform_bind (hdisk _) fun _ => Prog.Calls.perform (hpgState _)
  | attach => exact .perform_bind (hdisk _) fun _ => Prog.Calls.perform (hdiskState _)
  | mount => exact Prog.Calls.perform (hdisk _)
  | vip => exact Prog.Calls.perform hvip
  | _ => trivial

theorem undo_working (name : StepName) : (undo name).Calls Call.working :=
  undo_calls_of (fun _ => trivial) trivial (fun _ => trivial) (fun _ => trivial) name

/-- The loop of `execute_as_standby`; `completed` holds the steps that have
succeeded so far, the last one first. -/
def runStandbySteps (completed : List StepName) : List (StepName × Mgr Unit) → Mgr Bool
  | [] => pure true
  | (name, step) :: rest => do
      Mgr.host (.mark (.step name))
      match ← step.attempt with
      | .ok _ => runStandbySteps (name :: completed) rest
      | .error exc =>
          emit cfg .switchoverFailed s!"Promotion failed at {name.text}: {exc.message}"
          rollbackPromotion completed
          pure false

theorem rollbackPromotion_calls {allowed : Call → Prop}
    (hundo : ∀ name, (undo name).Calls allowed) (completed : List StepName) :
    (rollbackPromotion completed).Calls allowed := by
  induction completed with
  | nil => trivial
  | cons name rest ih => exact .bind (.attempt (hundo name)) fun _ => ih

/-- What every step and the rollback may do, the loop may do. -/
theorem runStandbySteps_calls {allowed : Call → Prop}
    (hput : ∀ event, allowed (.host (.putEvent event)))
    (hmark : ∀ name, allowed (.host (.mark (.step name))))
    (hundo : ∀ name, (undo name).Calls allowed) (completed : List StepName)
    {steps : List (StepName × Mgr Unit)} (hsteps : ∀ step ∈ steps, step.2.Calls allowed) :
    (runStandbySteps cfg completed steps).Calls allowed := by
  induction steps generalizing completed with
  | nil => trivial
  | cons step rest ih =>
      refine .perform_bind (hmark _) fun _ => .bind (.attempt (hsteps step List.mem_cons_self)) ?_
      intro result
      cases result with
      | ok _ => exact ih _ fun step hstep => hsteps step (List.mem_cons_of_mem _ hstep)
      | error exc =>
          refine .bind (emit_calls hput _ _) fun _ => ?_
          exact .bind (rollbackPromotion_calls hundo completed) fun _ => trivial

def executeAsStandby : Mgr Bool := do
  if !(← LocalNode.isStandby) then
    pure false
  else
    inSequence .asStandby do
      if ← runStandbySteps cfg [] (standbySteps cfg) then
        emit cfg .switchoverCompleted s!"{cfg.cluster.nodeName} promoted to PRIMARY"
        pure true
      else
        pure false

end PgHa.SwitchoverEngine

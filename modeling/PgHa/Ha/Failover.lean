import PgHa.Cluster.Node

/-!
# `ha/failover.py`: the failover engine

`FailoverEngine` over the operations of the two managers and of the host.  The
engine's fields (`_attempts`, `_last_attempt_ts`, `_peer_instance_status`) are
shared by the daemon's threads, so reading and writing them are operations too.
-/

namespace PgHa

open Effect

/-- The names of the steps, as the code's log lines and messages have them. -/
def StepName.text : StepName → String
  | .verify => "VERIFY"
  | .fence => "FENCE"
  | .wait => "WAIT"
  | .attach => "ATTACH"
  | .mount => "MOUNT"
  | .pgStart => "PG_START"
  | .vip => "VIP"
  | .promote => "PROMOTE"
  | .preCheck => "PRE_CHECK"
  | .vipRelease => "VIP_RELEASE"
  | .pgStop => "PG_STOP"
  | .umount => "UMOUNT"
  | .detach => "DETACH"
  | .signalPeer => "SIGNAL_PEER"
  | .demote => "DEMOTE"

/-- `_emit` of both engines: put an event, or drop it when the queue is full. -/
def emit (cfg : Config) (eventType : HaEventType) (message : String) : Mgr Unit :=
  (Mgr.host (.putEvent ⟨eventType, cfg.cluster.nodeName, message⟩)).except fun exc =>
    if exc.cls = .queueFull then pure () else .raise exc

/-- A sequence between its first and its last log line, however it ends. -/
def inSequence {α : Type} (sequence : Sequence) (body : Mgr α) : Mgr α := do
  Mgr.host (.mark (.enter sequence))
  body.ensuring (Mgr.host (.mark (.leave sequence)))

/-- What both engines do about a leftover `postmaster.pid` between two attempts. -/
def removeStalePidFile (cfg : Config) : Mgr Unit := do
  let pidFile := joinPath cfg.postgresql.dataDir "postmaster.pid"
  if ← Mgr.host (.pathExists pidFile) then
    (Mgr.host (.remove pidFile)).except fun rmExc =>
      if rmExc.isOSError then pure () else .raise rmExc

/-- The retry loop of both engines' `_step_start_postgres`, with as many
attempts left as the last argument says. -/
def startPostgresFrom (cfg : Config) : ℕ → Mgr Unit
  | 0 => pure ()
  | left + 1 =>
      (do
          Mgr.disk .startPostgres
          Mgr.host (.setPgState .runningPrimary)).except fun exc =>
        if exc.isRuntimeError ∧ left ≠ 0 then do
          removeStalePidFile cfg
          Mgr.host (.sleep 3000)
          startPostgresFrom cfg left
        else .raise exc

theorem emit_calls_of {cfg : Config} {allowed : Call → Prop} {eventType : HaEventType}
    {message : String}
    (hput : allowed (.host (.putEvent ⟨eventType, cfg.cluster.nodeName, message⟩))) :
    (emit cfg eventType message).Calls allowed :=
  Prog.Calls.except (Prog.Calls.perform hput) fun _ => .ite trivial trivial

theorem emit_calls {cfg : Config} {allowed : Call → Prop}
    (hput : ∀ event, allowed (.host (.putEvent event)))
    (eventType : HaEventType) (message : String) : (emit cfg eventType message).Calls allowed :=
  emit_calls_of (hput _)

theorem removeStalePidFile_calls {cfg : Config} {allowed : Call → Prop}
    (hexists : ∀ path, allowed (.host (.pathExists path)))
    (hremove : ∀ path, allowed (.host (.remove path))) :
    (removeStalePidFile cfg).Calls allowed :=
  .perform_bind (hexists _) fun _ => .ite
    (.except (Prog.Calls.perform (hremove _)) fun _ => .ite trivial trivial) trivial

/-- The operations that the steps of a failover perform. -/
def Call.working : Call → Prop
  | .disk _ | .net _ => True
  | .host (.sleep _) | .host (.createConnection ..) | .host (.pathExists _) | .host (.remove _)
  | .host (.setPeerInstanceStatus _) | .host .peerInstanceStatus | .host (.setPgState _)
  | .host (.setDiskState _) | .host (.setHealth _) => True
  | .host (.setRole role) => role = .primary
  | .host (.putEvent event) => event.eventType ≠ .failoverFailed
  | _ => False

/-- What the retry loop may do. -/
theorem startPostgresFrom_calls_of {cfg : Config} {allowed : Call → Prop}
    (hstart : allowed (.disk .startPostgres))
    (hstate : allowed (.host (.setPgState .runningPrimary)))
    (hexists : ∀ path, allowed (.host (.pathExists path)))
    (hremove : ∀ path, allowed (.host (.remove path)))
    (hsleep : ∀ duration, allowed (.host (.sleep duration))) (left : ℕ) :
    (startPostgresFrom cfg left).Calls allowed := by
  induction left with
  | zero => trivial
  | succ left ih =>
      refine .except (.perform_bind hstart fun _ => ?_) fun exc => .ite ?_ trivial
      · exact Prog.Calls.perform hstate
      · refine .bind (removeStalePidFile_calls hexists hremove) fun _ => ?_
        exact .perform_bind (hsleep _) fun _ => ih

theorem startPostgresFrom_working (cfg : Config) (left : ℕ) :
    (startPostgresFrom cfg left).Calls Call.working :=
  startPostgresFrom_calls_of trivial trivial (fun _ => trivial) (fun _ => trivial)
    (fun _ => trivial) left

theorem emit_minor (cfg : Config) (eventType : HaEventType) (message : String) :
    (emit cfg eventType message).Calls Call.minor :=
  emit_calls (fun _ => trivial) eventType message

theorem startPostgresFrom_minor (cfg : Config) (left : ℕ) :
    (startPostgresFrom cfg left).Calls fun op => op.minor ∨ op = .disk .startPostgres :=
  startPostgresFrom_calls_of (.inr rfl) (.inl trivial) (fun _ => .inl trivial)
    (fun _ => .inl trivial) (fun _ => .inl trivial) left

namespace FailoverEngine

variable (cfg : Config)

def retryBackoffMillis : Int := 30000

def maxAttempts : ℕ := 3

/-- `_INSTANCE_DOWN_STATES`: the states in which the VM is confirmed down. -/
def instanceDown (status : String) : Bool := status == "TERMINATED" || status == "STOPPED"

def shouldAttempt : Mgr Bool := do
  if !(← LocalNode.isStandby) then
    pure false
  else
    let attempts ← Mgr.host .attempts
    if attempts ≥ maxAttempts then
      pure false
    else
      let now ← Mgr.host .monotonic
      let lastAttempt ← Mgr.host .lastAttemptTs
      pure (!(decide (attempts > 0) && decide (now - lastAttempt < retryBackoffMillis)))

/-! ## Steps -/

def isPeerPgReachable : Mgr Bool := do
  let result ← (Mgr.host
    (.createConnection cfg.cluster.peerIp cfg.postgresql.port 2000)).attempt
  match result with
  | .ok _ => pure true
  | .error exc => if exc.isOSError then pure false else .raise exc

def apiUnreachable : Exc :=
  .runtimeError ("GCP Compute API unreachable — cannot verify peer state. " ++
    "Aborting failover to prevent split-brain. " ++ "Primary continues running. " ++
    "(Pacemaker equivalent: quorum device unreachable — no action)")

def databaseReachable (status : String) : Exc :=
  .runtimeError
    (s!"ABORT: peer {cfg.cluster.peerNode} is {status} and PostgreSQL port " ++
      s!"{cfg.postgresql.port} is reachable via TCP. " ++
      "Heartbeat path failed but database is up and serving. " ++
      "Aborting failover to prevent false-positive disk detach " ++ "on a live primary.")

def stepVerifyPeerState : Mgr Unit := do
  let status ← Mgr.disk (.getInstanceStatus cfg.cluster.peerNode cfg.peerZone)
  Mgr.host (.setPeerInstanceStatus status)
  if status = "UNKNOWN" then
    .raise apiUnreachable
  else if instanceDown status then
    pure ()
  else if ← isPeerPgReachable cfg then
    .raise (databaseReachable cfg status)
  else
    pure ()

def stepFence : Mgr Unit := do
  let peerStatus ← Mgr.host .peerInstanceStatus
  Mgr.disk .forceDetachFromPeer
  emit cfg .nodeFenced
    s!"Peer {cfg.cluster.peerNode} fenced: disk detached via GCP API (peer was {peerStatus})"

def stepFenceWait : Mgr Unit := Mgr.host (.sleep cfg.cluster.fenceWait)

/-- The text by which a retryable failure of `attach_disk_rw` is recognised. -/
def resourceInUse (exc : Exc) : Bool := occursIn "already being used" exc.message

/-- The retry loop of `_step_attach_disk`, with as many attempts left as the
last argument says. -/
def attachFrom (backoff : Int) : ℕ → Mgr Unit
  | 0 => pure ()
  | left + 1 =>
      (do
          Mgr.disk .attachDiskRw
          Mgr.host (.setDiskState .attachedRw)
          emit cfg .diskAttached
            s!"RPD attached to {cfg.cluster.nodeName} in RW mode").except fun exc =>
        if exc.isRuntimeError ∧ left ≠ 0 ∧ resourceInUse exc then do
          Mgr.host (.sleep backoff)
          attachFrom (min (backoff * 2) 30000) left
        else .raise exc

def stepAttachDisk : Mgr Unit := attachFrom cfg 3000 5

def stepMountDisk : Mgr Unit := Mgr.disk .mountDisk

def stepStartPostgres : Mgr Unit := startPostgresFrom cfg 3

def stepAcquireVip : Mgr Unit := do
  Mgr.net .acquireVip
  emit cfg .vipAcquired s!"VIP {cfg.gcp.vipAddress} moved to {cfg.cluster.nodeName}"

def stepPromote : Mgr Unit := do
  Mgr.host (.setRole .primary)
  Mgr.host (.setHealth .healthy)
  emit cfg .roleChanged s!"{cfg.cluster.nodeName} promoted to PRIMARY"

/-! ## The sequence -/

def steps : List (StepName × Mgr Unit) :=
  [(.verify, stepVerifyPeerState cfg), (.fence, stepFence cfg), (.wait, stepFenceWait cfg),
    (.attach, stepAttachDisk cfg), (.mount, stepMountDisk), (.pgStart, stepStartPostgres cfg),
    (.vip, stepAcquireVip cfg), (.promote, stepPromote cfg)]

/-- What the loop over the attempts may do. -/
theorem attachFrom_calls_of {allowed : Call → Prop} (hattach : allowed (.disk .attachDiskRw))
    (hstate : allowed (.host (.setDiskState .attachedRw)))
    (hput : ∀ event : HaEvent, event.eventType = .diskAttached → allowed (.host (.putEvent event)))
    (hsleep : ∀ duration, allowed (.host (.sleep duration))) (backoff : Int) (left : ℕ) :
    (attachFrom cfg backoff left).Calls allowed := by
  induction left generalizing backoff with
  | zero => trivial
  | succ left ih =>
      refine .except (.perform_bind hattach fun _ => .perform_bind hstate fun _ => ?_) fun exc =>
        .ite (.perform_bind (hsleep _) fun _ => ih _) trivial
      exact emit_calls_of (hput _ rfl)

theorem attachFrom_working (backoff : Int) (left : ℕ) :
    (attachFrom cfg backoff left).Calls Call.working :=
  attachFrom_calls_of cfg trivial trivial (fun event htype => by simp [Call.working, htype])
    (fun _ => trivial) backoff left

theorem isPeerPgReachable_working : (isPeerPgReachable cfg).Calls Call.working := by
  refine .bind (.attempt (Prog.Calls.perform trivial)) fun result => ?_
  cases result with
  | ok _ => trivial
  | error exc => exact .ite trivial trivial

theorem steps_working : ∀ step ∈ steps cfg, step.2.Calls Call.working := by
  intro step hstep
  simp only [steps, List.mem_cons, List.not_mem_nil, or_false] at hstep
  rcases hstep with rfl | rfl | rfl | rfl | rfl | rfl | rfl | rfl
  · refine .perform_bind trivial fun status => .perform_bind trivial fun _ => .ite trivial ?_
    exact .ite trivial (.bind (isPeerPgReachable_working cfg) fun _ => .ite trivial trivial)
  · exact .perform_bind trivial fun _ => .perform_bind trivial fun _ =>
      emit_calls_of (by simp [Call.working])
  · exact Prog.Calls.perform trivial
  · exact attachFrom_working cfg 3000 5
  · exact Prog.Calls.perform trivial
  · exact startPostgresFrom_working cfg 3
  · exact .perform_bind trivial fun _ => emit_calls_of (by simp [Call.working])
  · exact .perform_bind rfl fun _ => .perform_bind trivial fun _ =>
      emit_calls_of (by simp [Call.working])

/-- The steps that `skip_fence` leaves out. -/
def skipped (skipFence : Bool) (name : StepName) : Bool :=
  skipFence && (name == .verify || name == .fence || name == .wait)

/-- The loop of `execute`: the value is whether every step succeeded. -/
def runSteps (skipFence : Bool) : List (StepName × Mgr Unit) → Mgr Bool
  | [] => pure true
  | (name, step) :: rest =>
      if skipped skipFence name then runSteps skipFence rest
      else do
        Mgr.host (.mark (.step name))
        match ← step.attempt with
        | .ok _ => runSteps skipFence rest
        | .error exc =>
            Mgr.host (.setHealth .failed)
            emit cfg .failoverFailed s!"Failed at {name.text}: {exc.message}"
            pure false

/-- What every step may do, the loop may do. -/
theorem runSteps_calls {allowed : Call → Prop}
    (hhealth : ∀ health, allowed (.host (.setHealth health)))
    (hput : ∀ event, allowed (.host (.putEvent event)))
    (hmark : ∀ name, allowed (.host (.mark (.step name)))) (skipFence : Bool)
    {steps : List (StepName × Mgr Unit)} (hsteps : ∀ step ∈ steps, step.2.Calls allowed) :
    (runSteps cfg skipFence steps).Calls allowed := by
  induction steps with
  | nil => trivial
  | cons step rest ih =>
      have hrest := ih fun step hstep => hsteps step (List.mem_cons_of_mem _ hstep)
      refine .ite hrest (.perform_bind (hmark _) fun _ => .bind ?_ fun result => ?_)
      · exact .attempt (hsteps step List.mem_cons_self)
      · cases result with
        | ok _ => exact hrest
        | error exc =>
            exact .perform_bind (hhealth _) fun _ => .bind (emit_calls hput _ _) fun _ => trivial

def execute (skipFence : Bool) : Mgr Bool := inSequence .failover do
  let attempts ← Mgr.host .attempts
  Mgr.host (.setAttempts (attempts + 1))
  let now ← Mgr.host .monotonic
  Mgr.host (.setLastAttemptTs now)
  let current ← Mgr.host .attempts
  emit cfg .failoverStarted s!"Attempt {current}/{maxAttempts}"
  if ← runSteps cfg skipFence (steps cfg) then
    Mgr.host (.setAttempts 0)
    emit cfg .failoverCompleted "Failover succeeded — this node is now PRIMARY"
    pure true
  else
    pure false

end FailoverEngine

end PgHa

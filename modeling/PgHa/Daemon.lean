import PgHa.Cluster.Election
import PgHa.Ha.Switchover

/-!
# `daemon.py`: triggers and transition sequences

The parts of `PgHaDaemon` that start, run or refuse a transition: the main
loop, the event handler, the peer's commands, the management command
`switchover`, self-demotion, and the bodies of the threads that are started.
The main loop is modelled one pass at a time; between two passes it waits.
-/

namespace PgHa.PgHaDaemon

open Effect LocalNode SwitchoverEngine

variable (cfg : Config)

/-! ## Maintenance mode -/

def isMaintenance : Mgr Bool := Mgr.host (.isfile cfg.cluster.maintenanceFile)

/-- A command to the peer over TCP, up to its parsed reply. -/
def askPeer (cmd : String) : Mgr PeerReply := do
  Mgr.host (.createConnection cfg.cluster.peerIp cfg.cluster.peerPort 10000)
  Mgr.host (.sendRequest (peerRequest cfg cmd))
  Mgr.host .recvReply

def sendMaintenanceToPeer (cmd : String) : Mgr Unit := do
  let _ ← (do
    let resp ← askPeer cfg cmd
    let _ ← Prog.ofExcept (jsonGet resp.value "result")
    pure ()).attempt
  pure ()

def enterMaintenance (propagate : Bool) : Mgr String := do
  Mgr.host (.makeParent cfg.cluster.maintenanceFile)
  Mgr.host (.writeFile cfg.cluster.maintenanceFile)
  if propagate then
    sendMaintenanceToPeer cfg "MAINTENANCE_ON"
  pure "maintenance mode enabled"

def exitMaintenance (propagate : Bool) : Mgr String := do
  if ← isMaintenance cfg then
    Mgr.host (.remove cfg.cluster.maintenanceFile)
  if propagate then
    sendMaintenanceToPeer cfg "MAINTENANCE_OFF"
  pure "maintenance mode disabled"

/-! ## EFM service -/

def efmStart : Mgr Unit := do
  if cfg.efm.enabled then
    let _ ← (Mgr.host (.run (.systemctl ["start"] cfg.efm.serviceName))).attempt
    pure ()

def efmStop : Mgr Unit := do
  if cfg.efm.enabled then
    let _ ← (Mgr.host (.run (.systemctl ["stop"] cfg.efm.serviceName))).attempt
    let _ ← (do
      let result ← Mgr.host (.run (.systemctl ["is-active"] cfg.efm.serviceName))
      if strip result.stdout = "active" then
        let _ ← Mgr.host (.run (.systemctl ["kill", "-s", "SIGKILL"] cfg.efm.serviceName))
        pure ()).attempt
    pure ()

theorem efmStart_calls {allowed : Call → Prop} (hrun : ∀ command, allowed (.host (.run command))) :
    (efmStart cfg).Calls allowed :=
  .ite (.bind (.attempt (Prog.Calls.perform (hrun _))) fun _ => trivial) trivial

theorem efmStop_calls {allowed : Call → Prop} (hrun : ∀ command, allowed (.host (.run command))) :
    (efmStop cfg).Calls allowed := by
  refine .ite (.bind (.attempt (Prog.Calls.perform (hrun _))) fun _ => ?_) trivial
  refine .bind (.attempt (.perform_bind (hrun _) fun result => .ite ?_ trivial)) fun _ => trivial
  exact .perform_bind (hrun _) fun _ => trivial

theorem efmStart_minor : (efmStart cfg).Calls Call.minor := efmStart_calls cfg fun _ => trivial

theorem efmStop_minor : (efmStop cfg).Calls Call.minor := efmStop_calls cfg fun _ => trivial

/-! ## Threads -/

def runSwitchover : Mgr Unit := do
  Mgr.host (.setSwitchoverActive true)
  Mgr.host (.pgMonSetActive false)
  efmStop cfg
  (do
      let _ ← executeAsPrimary cfg
      pure ()).ensuring do
    let now ← Mgr.host .time
    Mgr.host (.setLastDemotionTs now)
    Mgr.host (.setSwitchoverActive false)

def runFailover (skipFence : Bool) : Mgr Unit := do
  if ← FailoverEngine.execute cfg skipFence then
    efmStart cfg

def runSwitchoverAsStandby : Mgr Unit :=
  (do
      if ← executeAsStandby cfg then
        efmStart cfg).ensuring (Mgr.host (.setSwitchoverActive false))

/-- The body of a thread that the daemon starts. -/
def taskBody : Task → Mgr Unit
  | .runFailover skipFence => runFailover cfg skipFence
  | .runSwitchover => runSwitchover cfg
  | .runSwitchoverAsStandby => runSwitchoverAsStandby cfg

/-- `with self._failover_lock:` -/
def withFailoverLock (body : Mgr Unit) : Mgr Unit := do
  let _ ← Mgr.host (.acquireFailoverLock true)
  body.ensuring (Mgr.host .releaseFailoverLock)

/-! ## Self-demotion -/

def sendPgFailHandoff : Mgr Unit := do
  let resp ← askPeer cfg "PG_FAIL_HANDOFF"
  let _ ← Prog.ofExcept (jsonGet resp.value "cmd")
  pure ()

/-- The actions of a self-demotion, each of them best effort. -/
def demotionActions : List (Mgr Unit) :=
  [Mgr.net .releaseVip, Mgr.disk (.stopPostgres .immediate),
    Mgr.host (.killMountUsers cfg.gcp.diskMountPoint), Mgr.disk .unmountDisk, Mgr.disk .detachDisk]

/-- Run every action, going on after the ones that raise. -/
def bestEffort : List (Mgr Unit) → Mgr Unit
  | [] => pure ()
  | action :: rest => do
      let _ ← action.attempt
      bestEffort rest

def selfDemoteAfterPgFailure : Mgr Unit := do
  if !(← isPrimary) then
    pure ()
  else
    inSequence .selfDemotion do
      efmStop cfg
      bestEffort (demotionActions cfg)
      Mgr.host (.setRole .standby)
      Mgr.host (.setDiskState .detached)
      Mgr.host (.setPgState .stopped)
      Mgr.host (.setHealth .healthy)
      Mgr.host (.pgMonSetActive false)
      let now ← Mgr.host .time
      Mgr.host (.setLastDemotionTs now)
      let _ ← (sendPgFailHandoff cfg).attempt
      pure ()

/-! ## The main loop -/

def handleEvent (evt : HaEvent) : Mgr Unit := do
  if evt.eventType = .peerDead then
    if ← isStandby then
      if ← isMaintenance cfg then
        pure ()
      else
        withFailoverLock do
          if ← FailoverEngine.shouldAttempt then
            Mgr.host (.startThread (.runFailover false))

/-- The inner loop over the event queue. -/
def drainEvents : ℕ → Mgr Unit
  | 0 => .stuck
  | fuel + 1 => do
      match ← (Mgr.host .getEvent).attempt with
      | .ok evt =>
          handleEvent cfg evt
          drainEvents fuel
      | .error exc => if exc.cls = .queueEmpty then pure () else .raise exc

/-- The reaction to a failed PostgreSQL check. -/
def handlePgFailure : Mgr Unit := do
  if (← Mgr.host .pgMonConsecutiveFailures) ≥ cfg.monitor.pgFailThreshold then
    if ← isPrimary then
      if !(← Mgr.host .switchoverActive) then
        if ← isMaintenance cfg then
          pure ()
        else
          Mgr.host (.setHealth .failed)
          selfDemoteAfterPgFailure cfg

def refreshState : Mgr Unit := do
  let primary ← isPrimary
  Mgr.host (.pgMonSetActive primary)
  let pgSnap ← Mgr.host .pgMonSnapshot
  let osSnap ← Mgr.host .osMonSnapshot
  match pgSnap with
  | some snap =>
      Mgr.host (.setPgState snap.state)
      if !snap.ok then
        handlePgFailure cfg
      else
        let health ← Mgr.host .health
        if health ≠ .healthy then
          Mgr.host (.setHealth .healthy)
  | none => pure ()
  match osSnap with
  | some snap => if snap.degraded then Mgr.host (.setHealth .degraded)
  | none => pure ()

/-- The last lines of `refreshState`. -/
def noteOsSnapshot (osSnap : Option OsHealthSnapshot) : Mgr Unit :=
  match osSnap with
  | some snap => if snap.degraded then Mgr.host (.setHealth .degraded) else pure ()
  | none => pure ()

def demotionGraceMillis : Int := 30000

/-- The guard of the heartbeat fallback; the later tests are made only when the
earlier ones hold. -/
def fallbackAllowed (inGrace : Bool) : Mgr Bool := do
  if ← isStandby then
    if ← Mgr.host .isPeerAlive then
      if inGrace then
        pure false
      else if ← Mgr.host .switchoverActive then
        pure false
      else
        let maintenance ← isMaintenance cfg
        pure !maintenance
    else
      pure false
  else
    pure false

def heartbeatFallback : Mgr Unit := do
  let now ← Mgr.host .time
  let lastDemotion ← Mgr.host .lastDemotionTs
  if ← fallbackAllowed cfg (decide (now - lastDemotion < demotionGraceMillis)) then
    let peerSnap ← Mgr.host .peerSnapshot
    if peerSnap.role = .standby ∧ peerSnap.diskState = .detached then
      if ← Mgr.host (.acquireFailoverLock false) then
        (do
            if ← isStandby then
              if ← FailoverEngine.shouldAttempt then
                Mgr.host (.startThread (.runFailover true))).ensuring
          (Mgr.host .releaseFailoverLock)

/-- One pass of `_main_loop`. -/
def mainLoopPass : Mgr Unit := do
  drainEvents cfg cfg.loopBound
  refreshState cfg
  heartbeatFallback cfg

/-- The operations with which an event is handled. -/
def Deciding : Call → Prop
  | .host .getEvent | .host .role | .host (.isfile _) | .host (.acquireFailoverLock _)
  | .host .releaseFailoverLock | .host .attempts | .host .monotonic | .host .lastAttemptTs => True
  | .host (.startThread task) => task = .runFailover false
  | _ => False

theorem shouldAttempt_deciding : FailoverEngine.shouldAttempt.Calls Deciding := by
  refine .bind (.perform_bind trivial fun role => trivial) fun standby => .ite trivial ?_
  refine .perform_bind trivial fun attempts => .ite trivial ?_
  exact .perform_bind trivial fun now => .perform_bind trivial fun lastAttempt => trivial

theorem handleEvent_deciding (evt : HaEvent) : (handleEvent cfg evt).Calls Deciding := by
  have hstart : Prog.Calls Deciding (Mgr.host (.startThread (.runFailover false))) :=
    Prog.Calls.perform rfl
  refine .ite (.bind (.perform_bind trivial fun role => trivial) fun standby => ?_) trivial
  refine .ite (.perform_bind trivial fun maintenance => .ite trivial ?_) trivial
  refine .perform_bind trivial fun _ => .ensuring ?_ (Prog.Calls.perform trivial)
  exact .bind shouldAttempt_deciding fun permitted => .ite hstart trivial

theorem drainEvents_deciding (fuel : ℕ) : (drainEvents cfg fuel).Calls Deciding := by
  induction fuel with
  | zero => trivial
  | succ fuel ih =>
      refine .bind (.attempt (Prog.Calls.perform trivial)) fun result => ?_
      cases result with
      | ok evt => exact .bind (handleEvent_deciding cfg evt) fun _ => ih
      | error exc => exact .ite trivial trivial

/-- The operations that a pass of the main loop performs outside of its event handler and
of its attempts. -/
def Tending : Call → Prop
  | .net .releaseVip | .disk (.stopPostgres _) | .disk .unmountDisk | .disk .detachDisk => True
  | .host (.setRole role) => role = .standby
  | .host (.mark (.enter sequence)) | .host (.mark (.leave sequence)) => sequence = .selfDemotion
  | .host .role | .host (.isfile _) | .host .isPeerAlive | .host .switchoverActive | .host .time
  | .host (.run _) | .host (.killMountUsers _) | .host (.setDiskState _) | .host (.setPgState _)
  | .host .health | .host (.setHealth _) | .host (.setLastDemotionTs _)
  | .host (.createConnection ..) | .host (.sendRequest _) | .host .recvReply
  | .host (.pgMonSetActive _) | .host .pgMonSnapshot | .host .pgMonConsecutiveFailures
  | .host .osMonSnapshot => True
  | _ => False

theorem bestEffort_calls {allowed : Call → Prop} {actions : List (Mgr Unit)}
    (h : ∀ action ∈ actions, action.Calls allowed) : (bestEffort actions).Calls allowed := by
  induction actions with
  | nil => trivial
  | cons action rest ih =>
      refine .bind (.attempt (h action List.mem_cons_self)) fun _ => ?_
      exact ih fun action haction => h action (List.mem_cons_of_mem _ haction)

theorem isPrimary_tending : isPrimary.Calls Tending := .perform_bind trivial fun _ => trivial

theorem isStandby_tending : isStandby.Calls Tending := .perform_bind trivial fun _ => trivial

theorem isMaintenance_tending : (isMaintenance cfg).Calls Tending :=
  Prog.Calls.perform trivial

/-- The operations of a self-demotion. -/
def Demoting : Call → Prop
  | .net .releaseVip | .disk (.stopPostgres _) | .disk .unmountDisk | .disk .detachDisk => True
  | .host (.setRole role) => role = .standby
  | .host (.mark (.enter sequence)) | .host (.mark (.leave sequence)) => sequence = .selfDemotion
  | .host .role | .host .time | .host (.run _) | .host (.killMountUsers _)
  | .host (.setDiskState _) | .host (.setPgState _) | .host (.setHealth _)
  | .host (.setLastDemotionTs _) | .host (.createConnection ..) | .host (.sendRequest _)
  | .host .recvReply | .host (.pgMonSetActive _) => True
  | _ => False

theorem tending_of_demoting {op : Call} (h : Demoting op) : Tending op := by
  cases op with
  | net call => cases call <;> exact h
  | disk call => cases call <;> exact h
  | host call =>
      cases call with
      | mark mark => cases mark <;> exact h
      | _ => first | exact h | exact h.elim

/-- What a self-demotion does once it has found the node PRIMARY. -/
theorem demotionSequence_demoting : Prog.Calls Demoting (inSequence .selfDemotion do
    efmStop cfg
    bestEffort (demotionActions cfg)
    Mgr.host (.setRole .standby)
    Mgr.host (.setDiskState .detached)
    Mgr.host (.setPgState .stopped)
    Mgr.host (.setHealth .healthy)
    Mgr.host (.pgMonSetActive false)
    let now ← Mgr.host .time
    Mgr.host (.setLastDemotionTs now)
    let _ ← (sendPgFailHandoff cfg).attempt
    pure ()) := by
  have hactions : (bestEffort (demotionActions cfg)).Calls Demoting := by
    refine bestEffort_calls fun action haction => ?_
    simp only [demotionActions, List.mem_cons, List.not_mem_nil, or_false] at haction
    rcases haction with rfl | rfl | rfl | rfl | rfl <;> exact Prog.Calls.perform trivial
  have hsignal : (sendPgFailHandoff cfg).Calls Demoting := by
    refine .bind ?_ fun resp => .bind (Prog.calls_ofExcept _) fun _ => trivial
    exact .perform_bind trivial fun _ => .perform_bind trivial fun _ =>
      Prog.Calls.perform trivial
  refine .perform_bind rfl fun _ => .ensuring ?_ (Prog.Calls.perform rfl)
  refine .bind (efmStop_calls cfg fun _ => trivial) fun _ => .bind hactions fun _ => ?_
  exact .perform_bind rfl fun _ => .perform_bind trivial fun _ => .perform_bind trivial fun _ =>
    .perform_bind trivial fun _ => .perform_bind trivial fun _ => .perform_bind trivial fun now =>
    .perform_bind trivial fun _ => .bind hsignal.attempt fun _ => trivial

theorem selfDemoteAfterPgFailure_tending :
    (selfDemoteAfterPgFailure cfg).Calls Tending :=
  .bind isPrimary_tending fun _ => .ite trivial
    ((demotionSequence_demoting cfg).mono fun _ => tending_of_demoting)

theorem handlePgFailure_tending : (handlePgFailure cfg).Calls Tending := by
  refine .perform_bind trivial fun failures =>
    .ite (.bind isPrimary_tending fun primary => ?_) trivial
  refine .ite (.perform_bind trivial fun active => .ite ?_ trivial) trivial
  refine .bind (isMaintenance_tending cfg) fun maintenance => .ite trivial ?_
  exact .perform_bind trivial fun _ => selfDemoteAfterPgFailure_tending cfg

theorem refreshState_tending : (refreshState cfg).Calls Tending := by
  refine .bind isPrimary_tending fun primary => .perform_bind trivial fun _ =>
    .perform_bind trivial fun pgSnap => .perform_bind trivial fun osSnap => ?_
  have hdegraded : (noteOsSnapshot osSnap).Calls Tending := by
    cases osSnap with
    | some snap => exact .ite (Prog.Calls.perform trivial) trivial
    | none => trivial
  cases pgSnap with
  | none => exact hdegraded
  | some snap =>
      refine .perform_bind trivial fun _ => .ite ?_ ?_
      · exact .bind (handlePgFailure_tending cfg) fun _ => hdegraded
      · refine .perform_bind trivial fun health => .ite ?_ hdegraded
        exact .perform_bind trivial fun _ => hdegraded

theorem fallbackAllowed_tending (inGrace : Bool) :
    (fallbackAllowed cfg inGrace).Calls Tending := by
  refine .bind isStandby_tending fun standby => .ite (.perform_bind trivial fun alive => ?_) trivial
  refine .ite (.ite trivial (.perform_bind trivial fun active => .ite trivial ?_)) trivial
  exact .bind (isMaintenance_tending cfg) fun maintenance => trivial

/-- The operations with which the main loop watches the peer. -/
def Watching : Call → Prop
  | .host .time | .host .lastDemotionTs | .host .peerSnapshot | .host .isPeerAlive
  | .host .switchoverActive => True
  | .host (.startThread task) => ∃ skipFence, task = .runFailover skipFence
  | op => Deciding op

theorem watching_of_deciding {op : Call} (h : Deciding op) : Watching op := by
  unfold Watching
  split
  case h_6 => exact ⟨false, h⟩
  all_goals trivial

theorem drainEvents_watching (fuel : ℕ) : (drainEvents cfg fuel).Calls Watching :=
  (drainEvents_deciding cfg fuel).mono fun _ => watching_of_deciding

/-- A failover is started if the engine says that it may be attempted. -/
theorem attempt_watching (skipFence : Bool) : Prog.Calls Watching (do
    if ← FailoverEngine.shouldAttempt then
      Mgr.host (.startThread (.runFailover skipFence))) := by
  refine .bind (shouldAttempt_deciding.mono fun _ => watching_of_deciding) fun permitted => ?_
  exact .ite (Prog.Calls.perform ⟨skipFence, rfl⟩) trivial

theorem heartbeatFallback_watching : (heartbeatFallback cfg).Calls Watching := by
  have hstandby : isStandby.Calls Watching := .perform_bind trivial fun role => trivial
  have hallowed (inGrace : Bool) : (fallbackAllowed cfg inGrace).Calls Watching := by
    refine .bind hstandby fun standby => .ite (.perform_bind trivial fun alive => ?_) trivial
    refine .ite (.ite trivial (.perform_bind trivial fun active => .ite trivial ?_)) trivial
    exact .perform_bind trivial fun maintenance => trivial
  refine .perform_bind trivial fun now => .perform_bind trivial fun lastDemotion => ?_
  refine .bind (hallowed _) fun allowed => .ite (.perform_bind trivial fun peerSnap => ?_) trivial
  refine .ite (.perform_bind trivial fun locked => .ite ?_ trivial) trivial
  refine .ensuring (.bind hstandby fun standby => .ite ?_ trivial)
    (Prog.Calls.perform trivial)
  exact attempt_watching true

/-! ## Commands of the peer -/

/-- `hmac.compare_digest`: both arguments must be texts of ASCII characters. -/
def compareDigest (token : Option Json) (expected : String) : Except Exc Bool :=
  match token.getD (.str "") with
  | .str value =>
      if value.toList.all (·.val < 128) && expected.toList.all (·.val < 128) then
        .ok (value == expected)
      else .error ⟨.other, "comparing strings with non-ASCII characters is not supported"⟩
  | _ => .error ⟨.other, "unsupported operand types(s) or combination of types"⟩

/-- Receive a command: the whole object and its `cmd` field. -/
def receiveCommand : Mgr (Json × Option Json) := do
  let req ← Mgr.host .recvCommand
  let cmd ← Prog.ofExcept (jsonGet req "cmd")
  pure (req, cmd)

def authenticated (req : Json) : Mgr Bool := do
  if cfg.cluster.peerAuthToken = "" then
    pure true
  else
    let token ← Prog.ofExcept (jsonGet req "token")
    .ofExcept (compareDigest token cfg.cluster.peerAuthToken)

def handleSwitchoverRequest : Mgr Unit := do
  Mgr.host (.sendReply [("cmd", "SWITCHOVER_ACCEPT")])
  Mgr.host (.setSwitchoverActive true)
  Mgr.host (.startThread .runSwitchoverAsStandby)

def handlePgFailHandoff : Mgr Unit := do
  if ← Mgr.host .switchoverActive then
    Mgr.host (.sendReply [("cmd", "PG_FAIL_HANDOFF_ACK")])
  else if ← isMaintenance cfg then
    Mgr.host (.sendReply [("cmd", "PG_FAIL_HANDOFF_ACK")])
  else
    Mgr.host (.sendReply [("cmd", "PG_FAIL_HANDOFF_ACK")])
    withFailoverLock do
      if ← isStandby then
        if ← FailoverEngine.shouldAttempt then
          Mgr.host (.startThread (.runFailover true))

/-- The branches of `_handle_peer_conn` for an authenticated command. -/
def dispatchPeer (cmd : Option Json) : Mgr Unit :=
  if isText cmd "SWITCHOVER_REQUEST" then
    handleSwitchoverRequest
  else if isText cmd "PG_FAIL_HANDOFF" then
    handlePgFailHandoff cfg
  else if isText cmd "MAINTENANCE_ON" then do
    let _ ← enterMaintenance cfg false
    Mgr.host (.sendReply [("result", "ok")])
  else if isText cmd "MAINTENANCE_OFF" then do
    let _ ← exitMaintenance cfg false
    Mgr.host (.sendReply [("result", "ok")])
  else
    Mgr.host (.sendReply [("error", "unknown peer command")])

def handlePeerConn : Mgr Unit := do
  match ← receiveCommand.attempt with
  | .error exc =>
      if exc.cls = .valueError ∨ exc.isOSError then pure () else .raise exc
  | .ok (req, cmd) =>
      if ← authenticated cfg req then
        dispatchPeer cfg cmd
      else
        Mgr.host (.sendReply [("error", "auth_failed")])

/-! ## Management commands -/

/-- The branch `switchover` of `_dispatch_mgmt`. -/
def dispatchSwitchover : Mgr (List (String × String)) := do
  if ← isMaintenance cfg then
    pure [("error", "switchover blocked — maintenance mode is active. " ++
      "Run 'pgha-ctl maintenance off' first.")]
  else if !(← isPrimary) then
    pure [("error", "switchover must be run on the PRIMARY node")]
  else if ← Mgr.host .switchoverActive then
    pure [("error", "switchover already in progress")]
  else
    Mgr.host (.startThread .runSwitchover)
    pure [("result", "switchover initiated")]

/-- A field of the peer, as the answer to `status` shows it. -/
def ifPeerAlive {α : Type} (value absent : α) : Mgr α := do
  if ← Mgr.host .isPeerAlive then
    pure value
  else
    pure absent

/-- How long ago the last heartbeat came; there is none before the first one. -/
def heartbeatAge (peer : NodeState) : Mgr (Option Int) := do
  if peer.lastHeartbeatTs ≠ 0 then
    let now ← Mgr.host .time
    pure (some (now - peer.lastHeartbeatTs))
  else
    pure none

/-- The branch `status` of `_dispatch_mgmt`. -/
def dispatchStatus : Mgr StatusReport := do
  let localNode ← Mgr.host .localSnapshot
  let peer ← Mgr.host .peerSnapshot
  let postgres ← Mgr.host .pgMonSnapshot
  let os ← Mgr.host .osMonSnapshot
  let peerRole ← ifPeerAlive peer.role .unknown
  let peerHealth ← ifPeerAlive peer.health .unknown
  let peerPgState ← ifPeerAlive peer.pgState .unknown
  let lastHbAge ← heartbeatAge peer
  let peerAlive ← Mgr.host .isPeerAlive
  let maintenance ← isMaintenance cfg
  pure
    { localNode, peerNode := peer.name, peerRole, peerHealth, peerPgState, lastHbAge, peerAlive,
      postgres, os, maintenance }

def dispatchMgmt (req : Json) : Mgr MgmtReply := do
  let cmd ← Prog.ofExcept (jsonGet req "cmd")
  if isText cmd "status" then
    let report ← dispatchStatus cfg
    pure (.status report)
  else if isText cmd "switchover" then
    let answer ← dispatchSwitchover cfg
    pure (.fields answer)
  else if isText cmd "maintenance_on" then
    let msg ← enterMaintenance cfg true
    pure (.fields [("result", msg)])
  else if isText cmd "maintenance_off" then
    let msg ← exitMaintenance cfg true
    pure (.fields [("result", msg)])
  else if isText cmd "reload" then
    pure (.fields [("result", "reload not implemented")])
  else
    pure .unknownCommand

/-- The `try` of `_handle_mgmt_conn`: the answer to what arrives on a connection. -/
def mgmtResponse : Mgr MgmtReply :=
  (do
      let req ← Mgr.host .recvCommand
      dispatchMgmt cfg req : Mgr MgmtReply).except fun exc =>
    if exc.cls = .valueError then
      pure (.fields [("error", s!"Invalid request: {exc.message}")])
    else .raise exc

def handleMgmtConn : Mgr Unit := do
  let resp ← mgmtResponse cfg
  Mgr.host (.sendMgmtReply resp)

/-- The operations with which the daemon answers a command that concerns no transition. -/
def Answering : Call → Prop
  | .host (.sendRequest request) =>
      request.cmd = "MAINTENANCE_ON" ∨ request.cmd = "MAINTENANCE_OFF"
  | .host (.createConnection ..) | .host .recvReply
  | .host (.isfile _) | .host (.makeParent _) | .host (.writeFile _) | .host .localSnapshot
  | .host .peerSnapshot | .host .pgMonSnapshot | .host .osMonSnapshot | .host .isPeerAlive
  | .host .time => True
  | _ => False

theorem sendMaintenanceToPeer_answering {cmd : String}
    (hcmd : cmd = "MAINTENANCE_ON" ∨ cmd = "MAINTENANCE_OFF") :
    (sendMaintenanceToPeer cfg cmd).Calls Answering := by
  have hask : (askPeer cfg cmd).Calls Answering :=
    .perform_bind trivial fun _ => .perform_bind hcmd fun _ => Prog.Calls.perform trivial
  refine .bind (.attempt (.bind hask fun resp => ?_)) fun _ => trivial
  exact .bind (Prog.calls_ofExcept _) fun _ => trivial

theorem enterMaintenance_answering (propagate : Bool) :
    (enterMaintenance cfg propagate).Calls Answering := by
  refine .perform_bind trivial fun _ => .perform_bind trivial fun _ => ?_
  exact .ite (.bind (sendMaintenanceToPeer_answering cfg (.inl rfl)) fun _ => trivial) trivial

theorem dispatchStatus_answering : (dispatchStatus cfg).Calls Answering := by
  have halive {α : Type} (value absent : α) : (ifPeerAlive value absent).Calls Answering :=
    .perform_bind trivial fun _ => .ite trivial trivial
  refine .perform_bind trivial fun localNode => .perform_bind trivial fun peer => ?_
  refine .perform_bind trivial fun postgres => .perform_bind trivial fun os => ?_
  refine .bind (halive _ _) fun _ => .bind (halive _ _) fun _ => .bind (halive _ _) fun _ => ?_
  refine .bind (.ite (.perform_bind trivial fun _ => trivial) trivial) fun _ => ?_
  exact .perform_bind trivial fun _ => .perform_bind trivial fun _ => trivial

/-! ## Startup -/

/-- `run` from the startup election to the main loop. -/
def startup : Mgr Unit := do
  let role ← ElectionManager.elect cfg
  if role = .primary then
    efmStart cfg
  else
    efmStop cfg
  Mgr.host .pgMonReset
  Mgr.host (.pgMonSetActive (role == .primary))

end PgHa.PgHaDaemon

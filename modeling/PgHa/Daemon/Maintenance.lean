import PgHa.Daemon.Authentication
import PgHa.Effect.Triple
import PgHa.Model.Resources

/-!
# The maintenance flag at every entry point

While the flag file exists, no trigger of the daemon may start a transition.
Each entry point makes the test itself: the handler of `PEER_DEAD`, the reaction
to a failed PostgreSQL, the heartbeat fallback, the command `PG_FAIL_HANDOFF`
and the management command `switchover`.  The branch of `SWITCHOVER_REQUEST`
makes no such test.

The daemon is in any state when it handles the trigger.  What it reads of its own state
and of the flag file is what is there, and the payload of a connection is given; all other
answers are arbitrary.
-/

namespace PgHa.Maintenance

open Effect Prog PgHaDaemon SwitchoverEngine

variable {cfg : Config}

/-- What sets the daemon off: a pass of the main loop, with its events, its checks
and its fallback, or what arrives on a connection. -/
inductive Trigger
  | mainLoop
  | peer (received : Except Exc Json)
  | management (received : Except Exc Json)

namespace Trigger

def handler (cfg : Config) : Trigger → Mgr Unit
  | .mainLoop => mainLoopPass cfg
  | .peer _ => handlePeerConn cfg
  | .management _ => handleMgmtConn cfg

def received? : Trigger → Option (Except Exc Json)
  | .mainLoop => none
  | .peer received | .management received => some received

/-- The management command that ends the maintenance. -/
def SwitchesOff (trigger : Trigger) : Prop :=
  ∃ req cmd, trigger = .management (.ok req) ∧ jsonGet req "cmd" = .ok cmd ∧
    isText cmd "maintenance_off" = true

/-- A `SWITCHOVER_REQUEST` of the peer that passes the authentication. -/
def AsksSwitchover (cfg : Config) (trigger : Trigger) : Prop :=
  ∃ req cmd, trigger = .peer (.ok req) ∧ jsonGet req "cmd" = .ok cmd ∧
    isText cmd "SWITCHOVER_REQUEST" = true ∧ authenticated cfg req = .pure true

end Trigger

/-- The daemon and its flag file. -/
structure FlaggedNode where
  daemon : DaemonState
  flag : Bool

/-- The flag file is there until the handler removes it. -/
structure FlagStep (cfg : Config) (trigger : Trigger) (s : FlaggedNode)
    (event : Event Call.Ret Exc) (s' : FlaggedNode) : Prop where
  daemon : DaemonState.alone s.daemon event s'.daemon
  isfile : ∀ answer, event = ⟨.host (.isfile cfg.cluster.maintenanceFile), answer⟩ →
    answer = .ok s.flag
  received : ∀ payload answer, trigger.received? = some payload →
    event = ⟨.host .recvCommand, answer⟩ → answer = payload
  stays : event.op ≠ .host (.remove cfg.cluster.maintenanceFile) → s.flag = true → s'.flag = true

/-- The threads that were started. -/
def started (log : List (Event Call.Ret Exc)) : List Task :=
  log.filterMap fun event =>
    match event with
    | ⟨.host (.startThread task), .ok _⟩ => some task
    | _ => none

/-- The threads of the list run to their ends. -/
inductive RunTasks (cfg : Config) (trigger : Trigger) :
    FlaggedNode → List Task → List (Event Call.Ret Exc) → Prop
  | nil (s : FlaggedNode) : RunTasks cfg trigger s [] []
  | cons {s s' : FlaggedNode} {task : Task} {tasks : List Task}
      {log rest : List (Event Call.Ret Exc)} {outcome : Outcome Exc Unit}
      (htrace : (taskBody cfg task).Trace log outcome)
      (hhistory : History (FlagStep cfg trigger) s log s')
      (hrest : RunTasks cfg trigger s' tasks rest) :
      RunTasks cfg trigger s (task :: tasks) (log ++ rest)

/-- The handling of a trigger: its handler, and the threads that it starts. -/
def Handling (cfg : Config) (trigger : Trigger) (s : FlaggedNode)
    (log : List (Event Call.Ret Exc)) : Prop :=
  ∃ first rest outcome s', (trigger.handler cfg).Trace first outcome ∧
    History (FlagStep cfg trigger) s first s' ∧ RunTasks cfg trigger s' (started first) rest ∧
      log = first ++ rest

/-- An operation that starts no sequence, and changes neither the role nor anything
of the disk, the database and the VIP. -/
structure Harmless (op : Call) : Prop where
  enters : ∀ sequence, op ≠ .host (.mark (.enter sequence))
  reported : ∀ call s, op = .host call → (DaemonState.after s call).node.role = s.node.role ∧
    (DaemonState.after s call).node.diskState = s.node.diskState
  held : ∀ held, op.done held = held
  peer : op ≠ .disk .forceDetachFromPeer

/-- The operations of the host that start nothing and say nothing of the node. -/
def calm : Call → Prop
  | .host (.startThread _) | .host (.mark _) | .host (.setRole _) | .host (.setDiskState _)
  | .host (.killMountUsers _) | .host (.remove _) => False
  | .host _ => True
  | _ => False

theorem harmless_host {call : HostCall} (hmark : ∀ mark, call ≠ .mark mark)
    (hrole : ∀ role, call ≠ .setRole role) (hdisk : ∀ diskState, call ≠ .setDiskState diskState)
    (hkill : ∀ mountPt, call ≠ .killMountUsers mountPt) : Harmless (.host call) := by
  refine ⟨?_, ?_, ?_, by simp⟩
  · intro sequence heq
    exact hmark _ (Call.host.inj heq)
  · rintro call s ⟨⟩
    cases call with
    | setRole role => exact absurd rfl (hrole role)
    | setDiskState diskState => exact absurd rfl (hdisk diskState)
    | _ => exact ⟨rfl, rfl⟩
  · intro held
    cases call with
    | killMountUsers mountPt => exact absurd rfl (hkill mountPt)
    | _ => rfl

theorem harmless_of_calm {op : Call} (h : calm op) : Harmless op := by
  cases op with
  | host call => refine harmless_host ?_ ?_ ?_ ?_ <;> rintro _ rfl <;> exact h
  | _ => exact h.elim

theorem Harmless.role_eq {trigger : Trigger} {s s' : FlaggedNode} {event : Event Call.Ret Exc}
    (h : Harmless event.op) (hstep : FlagStep cfg trigger s event s') :
    s'.daemon.node.role = s.daemon.node.role := by
  obtain ⟨op, answer⟩ := event
  have hdaemon := hstep.daemon
  cases op with
  | host call =>
      rw [hdaemon.2]
      exact (h.reported call s.daemon rfl).1
  | disk call => exact congrArg (·.node.role) hdaemon
  | net call => exact congrArg (·.node.role) hdaemon

theorem harmless_remove (path : String) : Harmless (.host (.remove path)) :=
  harmless_host (by simp) (by simp) (by simp) (by simp)

/-- An operation that also starts no thread. -/
structure Quiet (op : Call) : Prop where
  harmless : Harmless op
  starts : ∀ task, op ≠ .host (.startThread task)

theorem quiet_of_calm {op : Call} (h : calm op) : Quiet op := by
  refine ⟨harmless_of_calm h, ?_⟩
  rintro task rfl
  exact h

theorem quiet_remove (path : String) : Quiet (.host (.remove path)) :=
  ⟨harmless_remove path, by simp⟩

theorem started_of_quiet {log : List (Event Call.Ret Exc)} (h : ∀ event ∈ log, Quiet event.op) :
    started log = [] := by
  refine List.filterMap_eq_nil_iff.mpr fun event hmem => ?_
  have hstarts := (h event hmem).starts
  split
  · exact absurd rfl (hstarts _)
  · rfl

/-! ## What the handlers keep -/

section Handlers

variable {trigger : Trigger}

/-- Every operation is quiet, and the flag file stays until it is removed. -/
abbrev watched (cfg : Config) (trigger : Trigger) : Transformer Call.Ret Exc FlaggedNode :=
  guarded (fun _ op => Quiet op) (FlagStep cfg trigger)

theorem watched_monotone : (watched cfg trigger).Monotone := guarded_monotone _ _

theorem keeps_of_calm {α : Type} {program : Mgr α} (h : program.Calls calm) :
    Keeps (watched cfg trigger) (·.flag = true) program := by
  refine .of_calls watched_monotone (fun op hop s hflag => ?_) h
  refine ⟨quiet_of_calm hop, fun answer s' hstep => ?_⟩
  refine hstep.stays ?_ hflag
  rintro ⟨⟩
  exact hop

theorem isMaintenance_triple : Triple (watched cfg trigger) (·.flag = true) (isMaintenance cfg)
    (fun value s => value = true ∧ s.flag = true) (·.flag = true) := by
  refine .perform fun s hflag => ⟨quiet_of_calm trivial, ?_⟩
  intro answer s' hstep
  have hstays : s'.flag = true := hstep.stays (by simp) hflag
  obtain rfl := hstep.isfile answer rfl
  exact ⟨hflag, hstays⟩

/-- A branch that is taken only when there is no maintenance is not taken. -/
theorem keeps_of_isMaintenance {α : Type} {blocked next : Mgr α} (h : blocked.Calls calm) :
    Keeps (watched cfg trigger) (·.flag = true)
      ((isMaintenance cfg).bind fun active => if active then blocked else next) := by
  refine .bind watched_monotone isMaintenance_triple fun active => ?_
  refine .ite (fun _ => ?_) fun hactive => ?_
  · exact (keeps_of_calm h).conseq watched_monotone (fun _ h => h.2) (fun _ _ => id) fun _ => id
  · intro s h
    exact absurd h.1 hactive

/-- What is done first does not matter, when it starts nothing. -/
theorem keeps_bind {α β : Type} {program : Mgr α} {next : α → Mgr β} (h : program.Calls calm)
    (hnext : ∀ value, Keeps (watched cfg trigger) (·.flag = true) (next value)) :
    Keeps (watched cfg trigger) (·.flag = true) (program.bind next) :=
  .after_keeps watched_monotone (keeps_of_calm h) hnext fun _ => id

theorem perform_calm {call : HostCall} (h : calm (.host call)) : (Mgr.host call).Calls calm :=
  Calls.perform h

/-! ### The main loop -/

theorem handleEvent_keeps (evt : HaEvent) :
    Keeps (watched cfg trigger) (·.flag = true) (handleEvent cfg evt) := by
  refine .ite (fun _ => ?_) fun _ => keeps_pure _
  refine keeps_bind (.perform_bind trivial fun _ => trivial) fun standby => ?_
  exact .ite (fun _ => keeps_of_isMaintenance trivial) fun _ => keeps_pure _

theorem drainEvents_keeps (fuel : ℕ) :
    Keeps (watched cfg trigger) (·.flag = true) (drainEvents cfg fuel) := by
  induction fuel with
  | zero => exact keeps_of_calm trivial
  | succ fuel ih =>
      refine keeps_bind (.attempt (perform_calm trivial)) fun received => ?_
      cases received with
      | ok evt =>
          exact .after_keeps watched_monotone (handleEvent_keeps evt) (fun _ => ih) fun _ => id
      | error exc => exact .ite (fun _ => keeps_pure _) fun _ => keeps_raise _

theorem handlePgFailure_keeps :
    Keeps (watched cfg trigger) (·.flag = true) (handlePgFailure cfg) := by
  refine keeps_bind (perform_calm trivial) fun failures => ?_
  refine .ite (fun _ => ?_) fun _ => keeps_pure _
  refine keeps_bind (.perform_bind trivial fun _ => trivial) fun primary => ?_
  refine .ite (fun _ => ?_) fun _ => keeps_pure _
  refine keeps_bind (perform_calm trivial) fun active => ?_
  exact .ite (fun _ => keeps_of_isMaintenance trivial) fun _ => keeps_pure _

theorem refreshState_keeps : Keeps (watched cfg trigger) (·.flag = true) (refreshState cfg) := by
  refine keeps_bind (.perform_bind trivial fun _ => trivial) fun primary => ?_
  refine keeps_bind (perform_calm trivial) fun _ =>
    keeps_bind (perform_calm trivial) fun pgSnap => ?_
  refine keeps_bind (perform_calm trivial) fun (osSnap : Option OsHealthSnapshot) => ?_
  -- what the monitor of the host has seen only sets the health
  have hos : Keeps (watched cfg trigger) (·.flag = true) (noteOsSnapshot osSnap) := by
    cases osSnap with
    | none => exact keeps_pure _
    | some snap => exact keeps_of_calm (.ite (perform_calm trivial) trivial)
  cases pgSnap with
  | none => exact hos
  | some snap =>
      refine keeps_bind (perform_calm trivial) fun _ => ?_
      by_cases hok : snap.ok = true
      · simp only [hok, Bool.not_true, Bool.false_eq_true, if_false]
        exact keeps_bind (perform_calm trivial) fun health =>
          .ite (fun _ => keeps_bind (perform_calm trivial) fun _ => hos) fun _ => hos
      · simp only [hok, Bool.not_false, if_true]
        exact .after_keeps watched_monotone handlePgFailure_keeps (fun _ => hos) fun _ => id

/-- The guard of the fallback fails while there is maintenance. -/
theorem fallbackAllowed_triple (inGrace : Bool) : Triple (watched cfg trigger) (·.flag = true)
    (fallbackAllowed cfg inGrace) (fun value s => value = false ∧ s.flag = true)
    (·.flag = true) := by
  have hfalse : Triple (watched cfg trigger) (·.flag = true) (.pure false : Mgr Bool)
      (fun value s => value = false ∧ s.flag = true) (·.flag = true) :=
    .pure fun _ h => ⟨rfl, h⟩
  refine .after_keeps watched_monotone (keeps_of_calm (.perform_bind trivial fun _ => trivial))
    (fun standby => .ite (fun _ => ?_) fun _ => hfalse) fun _ => id
  refine .after_keeps watched_monotone (keeps_of_calm (perform_calm trivial))
    (fun alive => .ite (fun _ => ?_) fun _ => hfalse) fun _ => id
  refine .ite (fun _ => hfalse) fun _ => ?_
  refine .after_keeps watched_monotone (keeps_of_calm (perform_calm trivial))
    (fun active => .ite (fun _ => hfalse) fun _ => ?_) fun _ => id
  refine .bind watched_monotone isMaintenance_triple fun maintenance => ?_
  refine .pure fun s h => ⟨?_, h.2⟩
  rw [h.1]
  rfl

theorem heartbeatFallback_keeps :
    Keeps (watched cfg trigger) (·.flag = true) (heartbeatFallback cfg) := by
  refine keeps_bind (perform_calm trivial) fun now => ?_
  refine keeps_bind (perform_calm trivial) fun lastDemotion => ?_
  refine .bind watched_monotone (fallbackAllowed_triple _) fun allowed => ?_
  refine .ite (fun hallowed => ?_) fun _ => ?_
  · intro s h
    simp [h.1] at hallowed
  · exact (keeps_pure _).conseq watched_monotone (fun _ h => h.2) (fun _ _ => id) fun _ => id

theorem mainLoopPass_keeps : Keeps (watched cfg trigger) (·.flag = true) (mainLoopPass cfg) := by
  refine .after_keeps watched_monotone (drainEvents_keeps _) (fun _ => ?_) fun _ => id
  exact .after_keeps watched_monotone refreshState_keeps (fun _ => heartbeatFallback_keeps)
    fun _ => id

/-! ### Commands -/

theorem calm_of_answering {op : Call} (h : Answering op) : calm op := by
  cases op with
  | host call => cases call <;> trivial
  | _ => exact h

theorem calls_calm {α : Type} {program : Mgr α} (h : program.Calls Answering) :
    program.Calls calm := h.mono fun _ => calm_of_answering

theorem handlePgFailHandoff_keeps :
    Keeps (watched cfg trigger) (·.flag = true) (handlePgFailHandoff cfg) := by
  refine keeps_bind (perform_calm trivial) fun active => ?_
  refine .ite (fun _ => keeps_of_calm (perform_calm trivial)) fun _ => ?_
  exact keeps_of_isMaintenance (perform_calm trivial)

/-- Once the file has been removed, nothing of it is known. -/
theorem quiet_of_keeps {α : Type} {program : Mgr α}
    (h : Keeps (watched cfg trigger) (·.flag = true) program) :
    Triple (watched cfg trigger) (·.flag = true) program (fun _ _ => True) fun _ => True :=
  h.conseq watched_monotone (fun _ => id) (fun _ _ _ => trivial) fun _ _ => trivial

/-- To switch maintenance off removes a file, and starts nothing. -/
theorem exitMaintenance_quiet (propagate : Bool) :
    Triple (watched cfg trigger) (·.flag = true) (exitMaintenance cfg propagate)
      (fun _ _ => True) fun _ => True := by
  have hafter {α : Type} {program : Mgr α} (h : program.Calls calm) :
      Triple (watched cfg trigger) (fun _ => True) program (fun _ _ => True) fun _ => True :=
    .of_calls watched_monotone (fun op hop _ _ => ⟨quiet_of_calm hop, fun _ _ _ => trivial⟩) h
  have hrest : (if propagate then
        (sendMaintenanceToPeer cfg "MAINTENANCE_OFF").bind fun _ =>
          .pure "maintenance mode disabled"
      else .pure "maintenance mode disabled" : Mgr String).Calls calm :=
    .ite (.bind (calls_calm (sendMaintenanceToPeer_answering cfg (.inr rfl)))
      fun _ => trivial) trivial
  have hasked : Triple (watched cfg trigger) (·.flag = true) (isMaintenance cfg)
      (fun _ _ => True) fun _ => True :=
    isMaintenance_triple.conseq watched_monotone (fun _ => id) (fun _ _ _ => trivial)
      fun _ _ => trivial
  refine .bind watched_monotone hasked fun active => .ite (fun _ => ?_) fun _ => hafter hrest
  · refine .bind watched_monotone (.perform fun _ _ => ⟨quiet_remove _, ?_⟩) fun _ => hafter hrest
    rintro (_ | _) _ _ <;> trivial

theorem quiet_of_calls {α : Type} {program : Mgr α} (h : program.Calls calm) :
    Triple (watched cfg trigger) (·.flag = true) program (fun _ _ => True) fun _ => True :=
  quiet_of_keeps (keeps_of_calm h)

theorem sendReply_quiet (reply : List (String × String)) {P : FlaggedNode → Prop} :
    Triple (watched cfg trigger) P (Mgr.host (.sendReply reply)) (fun _ _ => True)
      fun _ => True := by
  refine .perform fun _ _ => ⟨quiet_of_calm trivial, ?_⟩
  rintro (_ | _) _ _ <;> trivial

/-- Every command of the peer but one is quiet. -/
theorem dispatchPeer_quiet {cmd : Option Json} (hcmd : isText cmd "SWITCHOVER_REQUEST" = false) :
    Triple (watched cfg trigger) (·.flag = true) (dispatchPeer cfg cmd) (fun _ _ => True)
      fun _ => True := by
  unfold dispatchPeer
  rw [if_neg (by simp [hcmd])]
  refine .ite (fun _ => quiet_of_keeps handlePgFailHandoff_keeps) fun _ => ?_
  refine .ite (fun _ => ?_) fun _ => .ite (fun _ => ?_) fun _ => sendReply_quiet _
  · have henter : (enterMaintenance cfg false).Calls calm :=
      calls_calm (enterMaintenance_answering cfg false)
    exact quiet_of_calls (.bind henter fun _ => perform_calm trivial)
  · exact .bind watched_monotone (exitMaintenance_quiet _) fun _ => sendReply_quiet _

/-- What passes for an authentication either lets the command through, or refuses
it, or raises. -/
theorem authenticated_cases (cfg : Config) (req : Json) : authenticated cfg req = .pure true ∨
    authenticated cfg req = .pure false ∨ ∃ exc, authenticated cfg req = .raise exc := by
  unfold authenticated
  split
  · exact .inl rfl
  · cases jsonGet req "token" with
    | error exc => exact .inr (.inr ⟨exc, rfl⟩)
    | ok token =>
        cases hdigest : compareDigest token cfg.cluster.peerAuthToken with
        | error exc =>
            refine .inr (.inr ⟨exc, ?_⟩)
            simp [Prog.ofExcept, hdigest]
        | ok accepted =>
            cases accepted with
            | true => exact .inl (by simp [Prog.ofExcept, hdigest])
            | false => exact .inr (.inl (by simp [Prog.ofExcept, hdigest]))

theorem respond_quiet {received : Except Exc Json}
    (hasks : ¬ (Trigger.peer received).AsksSwitchover cfg) :
    Triple (watched cfg trigger) (·.flag = true) (respond cfg received) (fun _ _ => True)
      fun _ => True := by
  cases received with
  | error exc => exact quiet_of_calls (.ite trivial trivial)
  | ok req =>
      unfold respond
      dsimp only
      cases hcmd : jsonGet req "cmd" with
      | error exc => exact quiet_of_calls trivial
      | ok cmd =>
          unfold handleRequest
          dsimp only
          rcases authenticated_cases cfg req with hauth | hauth | ⟨exc, hauth⟩
          · rw [hauth]
            refine dispatchPeer_quiet (Bool.eq_false_iff.mpr fun htext => hasks ?_)
            exact ⟨req, cmd, rfl, hcmd, htext, hauth⟩
          · rw [hauth]
            exact sendReply_quiet _
          · rw [hauth]
            exact quiet_of_calls trivial

/-- Every management command but `maintenance_off` is quiet. -/
theorem dispatchMgmt_quiet {req : Json}
    (hoff : ¬ (Trigger.management (.ok req)).SwitchesOff) :
    Triple (watched cfg trigger) (·.flag = true) (dispatchMgmt cfg req) (fun _ _ => True)
      fun _ => True := by
  unfold dispatchMgmt
  cases hcmd : jsonGet req "cmd" with
  | error exc => exact quiet_of_calls trivial
  | ok cmd =>
      have hnot : isText cmd "maintenance_off" = false :=
        Bool.eq_false_iff.mpr fun htext => hoff ⟨req, cmd, rfl, hcmd, htext⟩
      refine .ite (fun _ => ?_) fun _ => .ite (fun _ => ?_) fun _ => .ite (fun _ => ?_) fun _ => ?_
      · have hstatus : (dispatchStatus cfg).Calls calm := calls_calm (dispatchStatus_answering cfg)
        exact quiet_of_calls (.bind hstatus fun _ => trivial)
      · have hblocked : Keeps (watched cfg trigger) (·.flag = true) (dispatchSwitchover cfg) :=
          keeps_of_isMaintenance trivial
        exact quiet_of_keeps
          (.after_keeps watched_monotone hblocked (fun _ => keeps_pure _) fun _ => id)
      · have henter : (enterMaintenance cfg true).Calls calm :=
          calls_calm (enterMaintenance_answering cfg true)
        exact quiet_of_calls (.bind henter fun _ => trivial)
      · rw [if_neg (by simp [hnot])]
        exact quiet_of_calls (.ite trivial trivial)

theorem handleMgmtConn_quiet {received : Except Exc Json}
    (hreceived : trigger.received? = some received)
    (hoff : ¬ (Trigger.management received).SwitchesOff) :
    Triple (watched cfg trigger) (·.flag = true) (handleMgmtConn cfg) (fun _ _ => True)
      fun _ => True := by
  have hheard : Triple (watched cfg trigger) (·.flag = true) (Mgr.host .recvCommand)
      (fun req s => received = .ok req ∧ s.flag = true) fun _ => True := by
    refine .perform fun s hflag => ⟨quiet_of_calm trivial, fun answer s' h => ?_⟩
    obtain rfl := h.received received answer hreceived rfl
    cases answer with
    | error exc => trivial
    | ok req => exact ⟨rfl, h.stays (by simp) hflag⟩
  have hanswer : Triple (watched cfg trigger) (·.flag = true) (mgmtResponse cfg) (fun _ _ => True)
      fun _ => True := by
    refine .except watched_monotone (R := fun _ => True) ?_ fun exc => ?_
    · refine .bind watched_monotone hheard fun req s h => ?_
      obtain ⟨rfl, hflag⟩ := h
      exact dispatchMgmt_quiet hoff s hflag
    · exact .ite (fun _ _ _ => trivial) fun _ _ _ => trivial
  refine .bind watched_monotone hanswer fun resp => .perform fun _ _ => ?_
  refine ⟨quiet_of_calm trivial, ?_⟩
  rintro (_ | _) _ _ <;> trivial

theorem handlePeerConn_quiet {received : Except Exc Json}
    (hreceived : trigger.received? = some received)
    (hasks : ¬ (Trigger.peer received).AsksSwitchover cfg) :
    Triple (watched cfg trigger) (·.flag = true) (handlePeerConn cfg) (fun _ _ => True)
      fun _ => True := by
  rw [handlePeerConn_eq]
  refine fun s hflag => ⟨quiet_of_calm trivial, fun answer s' h => ?_⟩
  obtain rfl := h.received received answer hreceived rfl
  exact respond_quiet hasks s' (h.stays (by simp) hflag)

end Handlers

/-! ## The thread of an accepted request -/

section Thread

variable {trigger : Trigger}

/-- On a node that is no standby, the thread of a promotion ends at its guard. -/
theorem runSwitchoverAsStandby_wp {s : FlaggedNode} (hrole : s.daemon.node.role ≠ .standby) :
    (runSwitchoverAsStandby cfg).wp (watched cfg trigger)
      (fun _ s' => s'.daemon.node.role = s.daemon.node.role) s := by
  have hclear {α : Type} (s₁ : FlaggedNode) (result : Except Exc α)
      (hsame : s₁.daemon.node.role = s.daemon.node.role) :
      ((Mgr.host (.setSwitchoverActive false)).bind fun _ => Prog.ofExcept result).wp
        (watched cfg trigger) (fun _ s' => s'.daemon.node.role = s.daemon.node.role) s₁ := by
    rw [wp_bind, wp_perform]
    refine ⟨quiet_of_calm trivial, fun answer s₂ hstep => ?_⟩
    obtain ⟨rfl, hdaemon⟩ := hstep.daemon
    rw [answered_ok, andThen_returned, wp_ofExcept, ← hsame]
    exact congrArg (·.node.role) hdaemon
  have hguard : (s.daemon.node.role == NodeRole.standby) = false := beq_eq_false_iff_ne.mpr hrole
  refine ⟨quiet_of_calm trivial, fun answer s₁ hstep => ?_⟩
  obtain ⟨rfl, hdaemon⟩ := hstep.daemon
  have hsame : s₁.daemon.node.role = s.daemon.node.role := congrArg (·.node.role) hdaemon
  simp only [Prog.ofExcept, Prog.pure_bind, hguard]
  exact hclear s₁ (.ok ()) hsame

/-- Nor do the threads of accepted requests do any harm on a node that is no standby. -/
theorem RunTasks.harmless {s : FlaggedNode} {tasks : List Task} {log : List (Event Call.Ret Exc)}
    (h : RunTasks cfg trigger s tasks log)
    (htasks : ∀ task ∈ tasks, task = .runSwitchoverAsStandby)
    (hrole : s.daemon.node.role ≠ .standby) : ∀ event ∈ log, Harmless event.op := by
  induction h with
  | nil s => simp
  | @cons s s' task tasks log rest outcome htrace hhistory hrest ih =>
      obtain rfl := htasks task List.mem_cons_self
      have hbody : (runSwitchoverAsStandby cfg).wp (watched cfg trigger)
          (fun _ s' => s'.daemon.node.role = s.daemon.node.role) s :=
        runSwitchoverAsStandby_wp hrole
      have hsame : s'.daemon.node.role = s.daemon.node.role :=
        trace_wp (wp_of_guarded hbody) htrace hhistory
      intro event hmem
      rcases List.mem_append.mp hmem with hlog | hrest
      · exact (checked_of_wp_guarded hbody htrace hhistory event hlog).harmless
      · refine ih (fun task hmem => htasks task (List.mem_cons_of_mem _ hmem)) ?_ event hrest
        rwa [hsame]

end Thread

/-! ## Accepted requests -/

section Accepted

variable {req : Json} {cmd : Option Json}

/-- An operation on the way to the thread of a promotion. -/
def Accepting (op : Call) : Prop :=
  Harmless op ∧ ∀ task, op = .host (.startThread task) → task = .runSwitchoverAsStandby

theorem Quiet.accepting {op : Call} (h : Quiet op) : Accepting op :=
  ⟨h.harmless, fun task htask => absurd htask (h.starts task)⟩

theorem handleSwitchoverRequest_accepting : handleSwitchoverRequest.Calls Accepting := by
  refine .perform_bind (Quiet.accepting (quiet_of_calm trivial)) fun _ => ?_
  refine .perform_bind (Quiet.accepting (quiet_of_calm trivial)) fun _ => ?_
  refine Calls.perform ⟨harmless_host (by simp) (by simp) (by simp) (by simp), ?_⟩
  rintro task ⟨⟩
  rfl

theorem respond_of_asks (hcmd : jsonGet req "cmd" = .ok cmd)
    (htext : isText cmd "SWITCHOVER_REQUEST" = true) (hauth : authenticated cfg req = .pure true) :
    respond cfg (.ok req) = handleSwitchoverRequest := by
  simp only [respond, hcmd, handleRequest, hauth, bind_eq, Prog.pure_bind, if_true, dispatchPeer,
    htext]

/-- The handler itself does no harm; it starts the thread of a promotion. -/
theorem handlePeerConn_wp (hcmd : jsonGet req "cmd" = .ok cmd)
    (htext : isText cmd "SWITCHOVER_REQUEST" = true) (hauth : authenticated cfg req = .pure true)
    (s : FlaggedNode) : (handlePeerConn cfg).wp
      (guarded (fun _ => Accepting) (FlagStep cfg (.peer (.ok req))))
      (fun _ s' => s'.daemon.node.role = s.daemon.node.role) s := by
  rw [handlePeerConn_eq]
  refine ⟨Quiet.accepting (quiet_of_calm trivial), fun answer s₁ hstep => ?_⟩
  obtain rfl := hstep.received _ answer rfl rfl
  obtain ⟨-, hdaemon⟩ := hstep.daemon
  rw [respond_of_asks hcmd htext hauth]
  -- none of its operations sets the role
  have hrole : s₁.daemon.node.role = s.daemon.node.role := congrArg (·.node.role) hdaemon
  refine wp_of_calls (guarded_monotone _ _) (fun op hop s₂ hs₂ => ?_)
    handleSwitchoverRequest_accepting hrole fun _ _ => id
  exact ⟨hop, fun answer s₃ hstep => (hop.1.role_eq hstep).trans hs₂⟩

theorem mem_started {log : List (Event Call.Ret Exc)} {task : Task} (h : task ∈ started log) :
    ∃ event ∈ log, event.op = .host (.startThread task) := by
  obtain ⟨event, hmem, htask⟩ := List.mem_filterMap.mp h
  refine ⟨event, hmem, ?_⟩
  split at htask
  · obtain rfl := Option.some.inj htask
    rfl
  · cases htask

/-- On a node that is no standby, an accepted request does no harm. -/
theorem handling_harmless_of_asks (hcmd : jsonGet req "cmd" = .ok cmd)
    (htext : isText cmd "SWITCHOVER_REQUEST" = true) (hauth : authenticated cfg req = .pure true)
    {s : FlaggedNode} (hrole : s.daemon.node.role ≠ .standby) {log : List (Event Call.Ret Exc)}
    (h : Handling cfg (.peer (.ok req)) s log) : ∀ event ∈ log, Harmless event.op := by
  obtain ⟨first, rest, outcome, s', htrace, hhistory, htasks, rfl⟩ := h
  have hhandler := handlePeerConn_wp hcmd htext hauth s
  have hfirst := checked_of_wp_guarded hhandler htrace hhistory
  have hsame : s'.daemon.node.role = s.daemon.node.role :=
    trace_wp (wp_of_guarded hhandler) htrace hhistory
  have hrest : ∀ event ∈ rest, Harmless event.op := by
    refine htasks.harmless (fun task hmem => ?_) (by rwa [hsame])
    obtain ⟨event, hevent, hop⟩ := mem_started hmem
    exact (hfirst event hevent).2 task hop
  intro event hmem
  rcases List.mem_append.mp hmem with hmem | hmem
  · exact (hfirst event hmem).1
  · exact hrest event hmem

/-- What the handler does with an accepted request. -/
def accepted (req : Json) : List (Event Call.Ret Exc) :=
  [⟨.host .recvCommand, .ok req⟩, ⟨.host (.sendReply [("cmd", "SWITCHOVER_ACCEPT")]), .ok ()⟩,
    ⟨.host (.setSwitchoverActive true), .ok ()⟩,
    ⟨.host (.startThread .runSwitchoverAsStandby), .ok ()⟩]

/-- The promotion on a standby that cannot ask who holds the disk. -/
def attempted (cfg : Config) (message : String) : List (Event Call.Ret Exc) :=
  [⟨.host .role, .ok .standby⟩, ⟨.host (.mark (.enter .asStandby)), .ok ()⟩,
    ⟨.host (.mark (.step .attach)), .ok ()⟩, ⟨.disk .currentRwHolder, .error ⟨.other, ""⟩⟩,
    ⟨.host (.putEvent ⟨.switchoverFailed, cfg.cluster.nodeName, message⟩), .ok ()⟩,
    ⟨.host (.mark (.leave .asStandby)), .ok ()⟩, ⟨.host (.setSwitchoverActive false), .ok ()⟩]

theorem trace_attempted (cfg : Config) : ∃ message,
    (taskBody cfg .runSwitchoverAsStandby).Trace (attempted cfg message) (.returned ()) :=
  ⟨_, .call (.call (.call (.call (.call (.call (.call (.pure ())))))))⟩

/-- A step of the handling, but for the operations whose answers are known. -/
theorem flagStep_of (s s' : FlaggedNode) {event : Event Call.Ret Exc}
    (hdaemon : DaemonState.alone s.daemon event s'.daemon)
    (hisfile : ∀ path, event.op ≠ .host (.isfile path))
    (hreceived : ∀ answer, event = ⟨.host .recvCommand, answer⟩ → answer = .ok req)
    (hflag : s'.flag = s.flag) : FlagStep cfg (.peer (.ok req)) s event s' := by
  refine ⟨hdaemon, ?_, ?_, fun _ h => hflag.trans h⟩
  · rintro answer rfl
    exact absurd rfl (hisfile _)
  · rintro payload answer ⟨⟩ hevent
    exact hreceived answer hevent

/-- The node once a request has been accepted, and once its thread has ended. -/
def FlaggedNode.switching (s : FlaggedNode) (active : Bool) : FlaggedNode :=
  { s with daemon := { s.daemon with switchoverActive := active } }

/-- An accepted request is handled by whatever its thread does. -/
theorem handling_of_asks (hcmd : jsonGet req "cmd" = .ok cmd)
    (htext : isText cmd "SWITCHOVER_REQUEST" = true) (hauth : authenticated cfg req = .pure true)
    {s s' : FlaggedNode} {log : List (Event Call.Ret Exc)} {outcome : Outcome Exc Unit}
    (htrace : (taskBody cfg .runSwitchoverAsStandby).Trace log outcome)
    (hrest : History (FlagStep cfg (.peer (.ok req))) (s.switching true) log s') :
    Handling cfg (.peer (.ok req)) s (accepted req ++ log) := by
  have hhandler : (handlePeerConn cfg).Trace (accepted req) (.returned ()) := by
    rw [handlePeerConn_eq]
    refine .call ?_
    rw [respond_of_asks hcmd htext hauth]
    exact .call (.call (.call (.pure ())))
  have hfirst : History (FlagStep cfg (.peer (.ok req))) s (accepted req) (s.switching true) := by
    refine .cons (flagStep_of s s ⟨trivial, rfl⟩ (by simp) ?_ rfl) ?_
    · rintro answer ⟨⟩
      rfl
    · refine .cons (flagStep_of s s ⟨trivial, rfl⟩ (by simp) (by simp) rfl) ?_
      refine .cons (flagStep_of s (s.switching true) ⟨rfl, rfl⟩ (by simp) (by simp) rfl) ?_
      exact .cons (flagStep_of _ _ ⟨trivial, rfl⟩ (by simp) (by simp) rfl) (.nil _)
  refine ⟨accepted req, log, .returned (), s.switching true, hhandler, hfirst, ?_, rfl⟩
  rw [← List.append_nil log]
  exact .cons htrace hrest (.nil _)

/-- On a standby, there is a run in which the promotion starts. -/
theorem exists_handling_of_asks (hcmd : jsonGet req "cmd" = .ok cmd)
    (htext : isText cmd "SWITCHOVER_REQUEST" = true) (hauth : authenticated cfg req = .pure true)
    {s : FlaggedNode} (hrole : s.daemon.node.role = .standby) :
    ∃ message, Handling cfg (.peer (.ok req)) s (accepted req ++ attempted cfg message) := by
  obtain ⟨message, htrace⟩ := trace_attempted cfg
  have hmark (mark : Mark) : FlagStep cfg (.peer (.ok req)) (s.switching true)
      ⟨.host (.mark mark), .ok ()⟩ (s.switching true) :=
    flagStep_of _ _ ⟨rfl, rfl⟩ (by simp) (by simp) rfl
  have hrest : History (FlagStep cfg (.peer (.ok req))) (s.switching true) (attempted cfg message)
      (s.switching false) := by
    let active := s.switching true
    refine .cons (flagStep_of active active ⟨congrArg _ hrole.symm, rfl⟩ (by simp) (by simp) rfl) ?_
    refine .cons (hmark _) (.cons (hmark _) ?_)
    refine .cons (flagStep_of active active rfl (by simp) (by simp) rfl) ?_
    refine .cons (flagStep_of active active ⟨by simp, rfl⟩ (by simp) (by simp) rfl) ?_
    refine .cons (hmark _) (.cons ?_ (.nil _))
    exact flagStep_of active (s.switching false) ⟨rfl, rfl⟩ (by simp) (by simp) rfl
  exact ⟨message, handling_of_asks hcmd htext hauth htrace hrest⟩

end Accepted

/-! ## Every trigger -/

/-- What is quiet throughout a handler starts no thread, so nothing follows it. -/
theorem Handling.harmless {trigger : Trigger} {s : FlaggedNode} {log : List (Event Call.Ret Exc)}
    (h : Handling cfg trigger s log) (hflag : s.flag = true)
    (hhandler : Triple (watched cfg trigger) (·.flag = true) (trigger.handler cfg)
      (fun _ _ => True) fun _ => True) : ∀ event ∈ log, Harmless event.op := by
  obtain ⟨first, rest, outcome, s', htrace, hhistory, htasks, rfl⟩ := h
  have hquiet : ∀ event ∈ first, Quiet event.op :=
    checked_of_wp_guarded (hhandler s hflag) htrace hhistory
  rw [started_of_quiet hquiet] at htasks
  cases htasks
  intro event hmem
  rw [List.append_nil] at hmem
  exact (hquiet event hmem).harmless

/-- **Maintenance.**  While the flag file exists, the handling of a trigger starts no
transition and leaves the node as it is, exactly when the trigger is no authenticated
`SWITCHOVER_REQUEST` that arrives on a standby. -/
theorem blocked_iff (cfg : Config) (trigger : Trigger) (s : FlaggedNode) (hflag : s.flag = true)
    (hoff : ¬ trigger.SwitchesOff) :
    (∀ log, Handling cfg trigger s log → ∀ event ∈ log, Harmless event.op) ↔
      ¬ (trigger.AsksSwitchover cfg ∧ s.daemon.node.role = .standby) := by
  constructor
  · rintro h ⟨⟨req, cmd, rfl, hcmd, htext, hauth⟩, hrole⟩
    obtain ⟨message, hlog⟩ := exists_handling_of_asks hcmd htext hauth hrole
    have hharmless := h _ hlog ⟨.host (.mark (.enter .asStandby)), .ok ()⟩
      (by simp [attempted])
    exact hharmless.enters .asStandby rfl
  · intro hnot log hlog
    by_cases hasks : trigger.AsksSwitchover cfg
    · obtain ⟨req, cmd, rfl, hcmd, htext, hauth⟩ := id hasks
      exact handling_harmless_of_asks hcmd htext hauth (fun hrole => hnot ⟨hasks, hrole⟩) hlog
    · apply hlog.harmless hflag
      cases trigger with
      | mainLoop => exact quiet_of_keeps mainLoopPass_keeps
      | peer received => exact handlePeerConn_quiet rfl hasks
      | management received => exact handleMgmtConn_quiet rfl hoff

section Sample

def request : Json := .obj [("cmd", .str "SWITCHOVER_REQUEST")]

/-- A node under maintenance, in the given role. -/
def maintained (role : NodeRole) : FlaggedNode :=
  ⟨⟨{ name := "pg-standby", role := role }, 0, 0, "UNKNOWN", false, false, 0⟩, true⟩

/-- What the thread of a promotion does on a node that is no standby. -/
def declined : List (Event Call.Ret Exc) :=
  [⟨.host .role, .ok .primary⟩, ⟨.host (.setSwitchoverActive false), .ok ()⟩]

/-- A PRIMARY under maintenance accepts the request, and nothing comes of it. -/
theorem blocked_iff_primary : ∃ log,
    Handling .sampleStandby (.peer (.ok request)) (maintained .primary) log ∧
      ∀ event ∈ log, Harmless event.op := by
  have htrace : (taskBody .sampleStandby .runSwitchoverAsStandby).Trace declined (.returned ()) :=
    .call (.call (.pure ()))
  have hrest : History (FlagStep .sampleStandby (.peer (.ok request)))
      ((maintained .primary).switching true) declined ((maintained .primary).switching false) := by
    let active := (maintained .primary).switching true
    refine .cons (flagStep_of active active ⟨rfl, rfl⟩ (by simp) (by simp) rfl) ?_
    refine .cons ?_ (.nil _)
    exact flagStep_of active (active.switching false) ⟨rfl, rfl⟩ (by simp) (by simp) rfl
  refine ⟨accepted request ++ declined, handling_of_asks rfl rfl rfl htrace hrest, ?_⟩
  refine (blocked_iff .sampleStandby (.peer (.ok request)) (maintained .primary) rfl ?_).mpr ?_ _
    (handling_of_asks rfl rfl rfl htrace hrest)
  · rintro ⟨req, cmd, ⟨⟩, -⟩
  · rintro ⟨-, hrole⟩
    cases hrole

/-- A STANDBY under maintenance is promoted at the request of its peer. -/
theorem not_blocked : ¬ ∀ (cfg : Config) (trigger : Trigger) (s : FlaggedNode),
    s.flag = true → ¬ trigger.SwitchesOff →
      ∀ log, Handling cfg trigger s log → ∀ event ∈ log, Harmless event.op := by
  intro h
  have hhandling : ∃ message, Handling .sampleStandby (.peer (.ok request)) (maintained .standby)
      (accepted request ++ attempted .sampleStandby message) :=
    exists_handling_of_asks rfl rfl rfl rfl
  obtain ⟨message, hlog⟩ := hhandling
  have hoff : ¬ (Trigger.peer (.ok request)).SwitchesOff := by
    rintro ⟨req, cmd, ⟨⟩, -⟩
  have hharmless := h .sampleStandby (.peer (.ok request)) (maintained .standby) rfl hoff _ hlog
    ⟨.host (.mark (.enter .asStandby)), .ok ()⟩ (by simp [attempted])
  exact hharmless.enters .asStandby rfl

end Sample

end PgHa.Maintenance

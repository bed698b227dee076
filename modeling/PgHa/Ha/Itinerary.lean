import Mathlib.Data.List.Flatten
import PgHa.Daemon
import PgHa.Effect.Plan
import PgHa.Gcp.Footprint
import PgHa.Model.Host

/-!
# What a transition can do to the world, and in which order

Every transition of a node goes through retries, rollbacks and operations that
look before they act.  What is left of it, on any answers, are the requests and
commands that change something (`Deed`), and these come in the order of a plan
that is written down here for each of the transitions (`Undertaking.plan`): a
failover makes at most one request to detach the peer's disk, then at most five to
attach its own, and so on; a planned switchover of the primary attaches nothing.

`follows_plan` is about the transition as a whole, down to the requests.  It is put
together from the plan of each operation of the managers (`managers_follow`) and
the plan of the sequence over these operations.
-/

namespace PgHa.Itinerary

open Effect

/-- A request or a command that changes something outside of the daemon. -/
inductive Deed
  | attachDisk (name : String)
  | detachDisk (name : String)
  | patchNic (name : String)
  | umount
  | makeMountPoint
  | mount
  | pgStart
  | pgStop (mode : StopMode)
  | killMountUsers
  | remove (path : String)
  | efm (verb : List String)
  /-- A command to the peer. -/
  | tell (cmd : String)
  deriving DecidableEq, Repr

/-- What an operation of the managers' interface does. -/
def deed : SysCall → List Deed
  | .gcp (.attachDisk _ _ name _) => [.attachDisk name]
  | .gcp (.detachDisk _ _ name _) => [.detachDisk name]
  | .gcp (.updateNetworkInterface _ _ name _ _) => [.patchNic name]
  | .host (.run (.umount ..)) => [.umount]
  | .host (.run (.mkdir _)) => [.makeMountPoint]
  | .host (.run (.mount ..)) => [.mount]
  | .host (.run (.pgCtlStart ..)) => [.pgStart]
  | .host (.run (.pgCtlStop _ _ _ mode _)) => [.pgStop mode]
  | .host (.run (.systemctl verb _)) => if verb = ["is-active"] then [] else [.efm verb]
  | .host (.killMountUsers _) => [.killMountUsers]
  | .host (.remove path) => [.remove path]
  | .host (.sendRequest request) => [.tell request.cmd]
  | _ => []

variable (cfg : Config)

/-- What the implementation of an operation can do. -/
def deeds : Call → List Deed
  | .disk .attachDiskRw => [.attachDisk cfg.cluster.nodeName]
  | .disk .detachDisk => [.detachDisk cfg.cluster.nodeName]
  | .disk .forceDetachFromPeer => [.detachDisk cfg.cluster.peerNode]
  | .disk .mountDisk => [.umount, .makeMountPoint, .mount]
  | .disk .unmountDisk => [.umount, .umount]
  | .disk .startPostgres => [.pgStart]
  | .disk (.stopPostgres mode) => [.pgStop mode]
  | .net .acquireVip =>
      List.replicate 3 (.patchNic cfg.cluster.peerNode) ++
        List.replicate 3 (.patchNic cfg.cluster.nodeName)
  | .net .releaseVip => List.replicate 3 (.patchNic cfg.cluster.nodeName)
  | .disk .currentRwHolder | .disk (.getInstanceStatus ..) => []
  | .host call => deed (.host call)

/-! ## The managers -/

theorem deed_isPoll {op : SysCall} (h : isPoll op) : deed op = [] := by
  obtain ⟨_, _, _, rfl⟩ | rfl | ⟨_, rfl⟩ := isPoll_cases h <;> rfl

theorem deed_isQuery {op : SysCall} (h : isQuery op) : deed op = [] := by
  unfold isQuery at h
  split at h <;> first | exact h.elim | rfl

theorem deed_isLook {op : SysCall} (h : isLook op) : deed op = [] := by
  unfold isLook at h
  split at h <;> first | exact h.elim | rfl

section Managers

open DiskManager NetworkManager

variable {cfg} {plan : List Deed}

theorem query_follows {α : Type} {program : Sys α} (h : program.Calls isQuery) :
    program.Follows deed plan :=
  .of_calls (fun _ => deed_isQuery) h

theorem look_follows {α : Type} {program : Sys α} (h : program.Calls isLook) :
    program.Follows deed plan :=
  .of_calls (fun _ => deed_isLook) h

theorem awaitNamed_follows (zone : String) (op : Operation) :
    (awaitNamed cfg zone op).Follows deed plan :=
  .of_calls (fun _ => deed_isPoll) (awaitNamed_calls cfg zone op)

theorem attachDiskRw_follows :
    (attachDiskRw cfg).Follows deed (deeds cfg (.disk .attachDiskRw)) := by
  have hrequest : (requestAttach cfg).Follows deed [.attachDisk cfg.cluster.nodeName] :=
    .bind_silent (.perform _) fun resp => .ite trivial
      (.bind_silent (.ofExcept _) fun op => awaitNamed_follows _ _)
  refine .silent_bind (query_follows (currentRwHolder_calls cfg)) fun holder => .ite trivial ?_
  exact .except_silent hrequest fun exc => .ite trivial trivial

/-- A request to detach the disk, with what comes before and after it. -/
theorem detach_follows {name zone : String} {request : String → Sys Unit}
    {handler : Exc → Sys Unit}
    (hrequest : ∀ device, (request device).Follows deed [.detachDisk name])
    (hhandler : ∀ exc, (handler exc).Follows deed []) :
    ((lookupDeviceName cfg name zone).bind fun found =>
      match found with
      | none => pure ()
      | some device => (request device).except handler).Follows deed [.detachDisk name] := by
  refine .silent_bind (query_follows (lookupDeviceName_calls ..)) fun found => ?_
  cases found with
  | none => trivial
  | some device => exact .except_silent (hrequest device) hhandler

theorem detachDisk_follows : (detachDisk cfg).Follows deed (deeds cfg (.disk .detachDisk)) := by
  refine detach_follows (fun device => ?_) fun exc => .ite trivial trivial
  exact .bind_silent (.perform _) fun resp => .ite trivial
    (.bind_silent (.ofExcept _) fun op => awaitNamed_follows _ _)

theorem forceDetachFromPeer_follows :
    (forceDetachFromPeer cfg).Follows deed (deeds cfg (.disk .forceDetachFromPeer)) := by
  refine detach_follows (fun device => ?_) fun exc => .ite trivial trivial
  exact .bind_silent (.perform _) fun resp => .ite
    (.bind_silent (.ofExcept _) fun op => awaitNamed_follows _ _) (.ite trivial trivial)

theorem mountDevice_follows : (mountDevice cfg).Follows deed [.makeMountPoint, .mount] := by
  have hmount : ((Sys.host (.run (.mount (devPath cfg) cfg.gcp.diskMountPoint))).bind fun result =>
      if result.returncode ≠ 0 then
        let text := strip result.stderr
        Prog.raise (.runtimeError s!"mount {devPath cfg} {cfg.gcp.diskMountPoint} failed: {text}")
      else pure PUnit.unit : Sys Unit).Follows deed [.mount] :=
    .bind_silent (.perform _) fun result => .ite trivial trivial
  refine .silent_bind (.perform _) fun present => .ite ?_ (hmount.mono (List.sublist_cons_self _ _))
  have hmkdir : (Sys.host (.run (.mkdir cfg.gcp.diskMountPoint))).Follows deed [.makeMountPoint] :=
    .perform _
  exact hmkdir.bind fun result => .ite trivial hmount

theorem mountDisk_follows : (mountDisk cfg).Follows deed (deeds cfg (.disk .mountDisk)) := by
  have hdevice : (mountDevice cfg).Follows deed (deeds cfg (.disk .mountDisk)) :=
    mountDevice_follows.mono (List.sublist_cons_self _ _)
  refine .silent_bind (look_follows (waitForDevice_calls cfg _ _)) fun _ => ?_
  refine .silent_bind (look_follows (isMounted_calls _)) fun mounted => .ite ?_ hdevice
  refine .silent_bind (look_follows (isMountHealthy_calls _)) fun healthy => .ite trivial ?_
  have humount : (Sys.host (.run (.umount true cfg.gcp.diskMountPoint))).attempt.Follows
      deed [.umount] :=
    .attempt (.perform _)
  exact humount.bind fun _ => mountDevice_follows

theorem unmountDisk_follows : (unmountDisk cfg).Follows deed (deeds cfg (.disk .unmountDisk)) := by
  have humount (forced : Bool) : (Sys.host (.run (.umount forced cfg.gcp.diskMountPoint))).Follows
      deed [.umount] := .perform _
  refine .silent_bind (look_follows (isMounted_calls _)) fun mounted => .ite ?_ trivial
  refine (humount false).bind fun result => .ite trivial ?_
  exact .bind_silent (humount true) fun result => .ite trivial trivial

theorem startPostgres_follows :
    (startPostgres cfg).Follows deed (deeds cfg (.disk .startPostgres)) := by
  have hstatus : (pgIsRunning cfg).Follows deed [] := by
    refine .silent_bind (.attempt (.perform _)) fun result => ?_
    cases result <;> trivial
  refine .silent_bind hstatus fun running => .ite trivial ?_
  exact .bind_silent (.perform _) fun result => .ite trivial trivial

theorem stopPostgres_follows (mode : StopMode) :
    (stopPostgres cfg mode).Follows deed (deeds cfg (.disk (.stopPostgres mode))) :=
  .bind_silent (.perform _) fun _ => trivial

theorem patchFrom_follows (name zone : String) (aliasRanges : List (Option String))
    (maxRetries : ℕ) (fingerprint : String) (left : ℕ) :
    (patchFrom cfg name zone aliasRanges maxRetries fingerprint left).Follows deed
      (List.replicate left (.patchNic name)) := by
  induction left generalizing fingerprint with
  | zero => trivial
  | succ left ih =>
      have hpatch : (Sys.gcp (.updateNetworkInterface cfg.gcp.projectId zone name cfg.gcp.nicName
          ⟨aliasRanges, fingerprint⟩)).Follows deed [.patchNic name] := .perform _
      rw [List.replicate_succ, ← List.singleton_append]
      refine hpatch.bind fun resp => .ite ?_ (.ite ?_ trivial)
      · refine .silent_bind (.ofExcept _) fun op => ?_
        cases nonempty? op.name with
        | none => trivial
        | some opName =>
            exact .silent_bind (.perform _) fun _ =>
              .of_calls (fun _ => deed_isPoll) (pollZoneOp_calls ..)
      · refine .silent_bind (.perform _) fun _ => ?_
        exact .silent_bind (query_follows (getNic_calls ..)) fun nic => ih _

theorem verifyAlias_follows (name zone : String) : (verifyAlias cfg name zone).Follows deed [] :=
  .silent_bind (query_follows (getNic_calls ..)) fun _ => trivial

theorem addAliasIp_follows (name zone : String) :
    (addAliasIp cfg name zone).Follows deed (List.replicate 3 (.patchNic name)) := by
  refine .silent_bind (query_follows (getNic_calls ..)) fun nic => .ite trivial ?_
  exact .bind_silent (patchFrom_follows ..) fun _ => verifyAlias_follows name zone

theorem removeAliasIp_follows (name zone : String) :
    (removeAliasIp cfg name zone).Follows deed (List.replicate 3 (.patchNic name)) := by
  refine .silent_bind (query_follows (getNic_calls ..)) fun nic => .ite trivial ?_
  exact .bind_silent (patchFrom_follows ..) fun _ => verifyAlias_follows name zone

theorem acquireVip_follows : (acquireVip cfg).Follows deed (deeds cfg (.net .acquireVip)) := by
  have hquery : (hasAliasIp cfg cfg.cluster.peerNode cfg.peerZone).Follows deed [] := by
    refine .silent_bind (.attempt (query_follows (getNic_calls ..))) fun result => ?_
    cases result <;> trivial
  have hrelease : (releaseVipFromPeer cfg).Follows deed
      (List.replicate 3 (.patchNic cfg.cluster.peerNode)) :=
    .silent_bind hquery fun present => .ite (removeAliasIp_follows ..) trivial
  exact hrelease.bind fun _ => addAliasIp_follows ..

end Managers

/-- The implementation of an operation does no more than the operation stands for. -/
theorem managers_follow (call : Call) : (managers cfg call).Follows deed (deeds cfg call) := by
  cases call with
  | host call => exact .perform _
  | net call =>
      cases call with
      | acquireVip => exact acquireVip_follows
      | releaseVip => exact removeAliasIp_follows ..
  | disk call =>
      cases call with
      | currentRwHolder => exact query_follows (DiskManager.currentRwHolder_calls cfg)
      | getInstanceStatus name zone =>
          refine .silent_bind (.attempt (query_follows (DiskManager.getInstance_calls ..)))
            fun result => ?_
          cases result <;> trivial
      | forceDetachFromPeer => exact forceDetachFromPeer_follows
      | attachDiskRw => exact attachDiskRw_follows
      | detachDisk => exact detachDisk_follows
      | mountDisk => exact mountDisk_follows
      | unmountDisk => exact unmountDisk_follows
      | startPostgres => exact startPostgres_follows
      | stopPostgres mode => exact stopPostgres_follows mode

/-! ## The plans -/

def pidFile : String := joinPath cfg.postgresql.dataDir "postmaster.pid"

/-- The attempts to start PostgreSQL, with what is done about a leftover between two of them. -/
def startPlan : ℕ → List Deed
  | 0 => []
  | 1 => [.pgStart]
  | left + 2 => .pgStart :: .remove (pidFile cfg) :: startPlan (left + 1)

/-- The steps by which a node that has the disk becomes a primary. -/
def equipPlan : List Deed :=
  deeds cfg (.disk .mountDisk) ++ startPlan cfg 3 ++ deeds cfg (.net .acquireVip)

def efmStopPlan : List Deed := [.efm ["stop"], .efm ["kill", "-s", "SIGKILL"]]

/-- What a node does about its role. -/
inductive Undertaking
  | task (task : Task)
  | selfDemotion
  | startup

def Undertaking.body : Undertaking → Mgr Unit
  | .task started => PgHaDaemon.taskBody cfg started
  | .selfDemotion => PgHaDaemon.selfDemoteAfterPgFailure cfg
  | .startup => PgHaDaemon.startup cfg

def Undertaking.plan : Undertaking → List Deed
  | .task (.runFailover skipFence) =>
      (if skipFence then [] else [.detachDisk cfg.cluster.peerNode]) ++
        List.replicate 5 (.attachDisk cfg.cluster.nodeName) ++ equipPlan cfg ++ [.efm ["start"]]
  | .task .runSwitchover =>
      efmStopPlan ++ deeds cfg (.net .releaseVip) ++
        [.pgStop .fast, .umount, .umount, .detachDisk cfg.cluster.nodeName,
          .tell "SWITCHOVER_REQUEST"]
  | .task .runSwitchoverAsStandby =>
      .attachDisk cfg.cluster.nodeName :: equipPlan cfg ++ deeds cfg (.net .releaseVip) ++
        [.pgStop .immediate, .umount, .umount, .detachDisk cfg.cluster.nodeName, .efm ["start"]]
  | .selfDemotion =>
      efmStopPlan ++ deeds cfg (.net .releaseVip) ++
        [.pgStop .immediate, .killMountUsers, .umount, .umount,
          .detachDisk cfg.cluster.nodeName, .tell "PG_FAIL_HANDOFF"]
  | .startup =>
      .attachDisk cfg.cluster.nodeName :: deeds cfg (.disk .mountDisk) ++ .pgStart ::
        deeds cfg (.net .acquireVip) ++ [.pgStop .immediate, .umount, .umount, .efm ["start"]] ++
        efmStopPlan

/-! ## The failover engine, whatever is looked at -/

/-- What the daemon does for itself and its log. -/
def Bookkeeping : Call → Prop
  | .host (.mark _) | .host (.putEvent _) | .host (.setHealth _) | .host (.setRole _)
  | .host (.setPgState _) | .host (.setDiskState _) | .host .attempts | .host (.setAttempts _)
  | .host .monotonic | .host (.setLastAttemptTs _) | .host (.setPeerInstanceStatus _)
  | .host .peerInstanceStatus => True
  | _ => False

section Engine

variable {cfg} {α τ : Type} {label : Call → List τ} (hsilent : ∀ op, Bookkeeping op → label op = [])
  {plan : List τ}

include hsilent

theorem bookkeeping_silent {program : Mgr α} (h : program.Calls Bookkeeping) :
    program.Follows label plan :=
  .of_calls hsilent h

theorem emit_silent (eventType : HaEventType) (message : String) :
    (emit cfg eventType message).Follows label plan :=
  bookkeeping_silent hsilent (emit_calls (fun _ => trivial) eventType message)

theorem inSequence_silent {sequence : Sequence} {body : Mgr α} (h : body.Follows label plan) :
    (inSequence sequence body).Follows label plan := by
  have henter : (Mgr.host (.mark (.enter sequence))).Follows label [] :=
    bookkeeping_silent hsilent (Prog.Calls.perform trivial)
  have hleave : (Mgr.host (.mark (.leave sequence))).Follows label [] :=
    bookkeeping_silent hsilent (Prog.Calls.perform trivial)
  refine henter.silent_bind fun _ => ?_
  exact h.attempt.bind_silent fun result => hleave.silent_bind fun _ => .ofExcept _

/-- The plan of a list of steps is that of the steps one after the other. -/
theorem runSteps_follows {skipFence : Bool} {steps : List (StepName × Mgr Unit)}
    {part : StepName → List τ} (h : ∀ step ∈ steps, step.2.Follows label (part step.1)) :
    (FailoverEngine.runSteps cfg skipFence steps).Follows label
      (((steps.map (·.1)).filter
        fun name => !FailoverEngine.skipped skipFence name).flatMap part) := by
  induction steps with
  | nil => trivial
  | cons step rest ih =>
      have hrest := ih fun step hstep => h step (List.mem_cons_of_mem _ hstep)
      unfold FailoverEngine.runSteps
      by_cases hskip : FailoverEngine.skipped skipFence step.1 = true
      · simpa [hskip] using hrest
      · have hmark : (Mgr.host (.mark (.step step.1))).Follows label [] :=
          bookkeeping_silent hsilent (Prog.Calls.perform trivial)
        simp only [List.map_cons, hskip, Bool.not_false, List.filter_cons_of_pos, List.flatMap_cons,
          Bool.false_eq_true, if_false]
        refine hmark.silent_bind fun _ => (h step List.mem_cons_self).attempt.bind fun result => ?_
        cases result with
        | ok _ => exact hrest
        | error exc =>
            refine bookkeeping_silent hsilent
              (.perform_bind trivial fun _ => .bind ?_ fun _ => trivial)
            exact emit_calls (fun _ => trivial) _ _

theorem execute_follows {skipFence : Bool} {part : StepName → List τ}
    (h : ∀ step ∈ FailoverEngine.steps cfg, step.2.Follows label (part step.1)) :
    (FailoverEngine.execute cfg skipFence).Follows label
      ((((FailoverEngine.steps cfg).map (·.1)).filter fun name =>
        !FailoverEngine.skipped skipFence name).flatMap part) := by
  have hop (op : Call) (hop : Bookkeeping op) :
      (Prog.perform op : Mgr op.Ret).Follows label [] :=
    bookkeeping_silent hsilent (Prog.Calls.perform hop)
  have hemit (eventType : HaEventType) (message : String) :
      (emit cfg eventType message).Follows label [] := emit_silent hsilent eventType message
  refine inSequence_silent hsilent ?_
  refine .silent_bind (hop _ (by trivial)) fun _ => .silent_bind (hop _ (by trivial)) fun _ => ?_
  refine .silent_bind (hop _ (by trivial)) fun _ => .silent_bind (hop _ (by trivial)) fun _ => ?_
  refine .silent_bind (hop _ (by trivial)) fun _ => .silent_bind (hemit _ _) fun _ => ?_
  refine (runSteps_follows hsilent h).bind_silent fun succeeded => .ite ?_ trivial
  exact .silent_bind (hop _ (by trivial)) fun _ => .silent_bind (hemit _ _) fun _ => .pure _

end Engine

/-! ## The sequences -/

section Sequences

open PgHaDaemon

variable {cfg} {α : Type} {plan : List Deed}

/-- Operations that change nothing outside of the daemon. -/
def Quiet (cfg : Config) (op : Call) : Prop := deeds cfg op = []

theorem quiet_follows {program : Mgr α} (h : program.Calls (Quiet cfg)) :
    program.Follows (deeds cfg) plan :=
  .of_calls (fun _ hop => hop) h

theorem silent_deeds {op : Call} (h : Bookkeeping op) : deeds cfg op = [] := by
  unfold Bookkeeping at h
  split at h <;> first | exact h.elim | rfl

theorem emit_follows (eventType : HaEventType) (message : String) :
    (emit cfg eventType message).Follows (deeds cfg) plan :=
  emit_silent (fun _ => silent_deeds) eventType message

theorem inSequence_follows {sequence : Sequence} {body : Mgr α}
    (h : body.Follows (deeds cfg) plan) : (inSequence sequence body).Follows (deeds cfg) plan :=
  inSequence_silent (fun _ => silent_deeds) h

theorem efmStart_follows : (efmStart cfg).Follows (deeds cfg) [.efm ["start"]] :=
  .ite (.bind_silent (.attempt (.perform _)) fun _ => trivial) trivial

theorem efmStop_follows : (efmStop cfg).Follows (deeds cfg) efmStopPlan := by
  have hstop :
      (Mgr.host (.run (.systemctl ["stop"] cfg.efm.serviceName))).attempt.Follows (deeds cfg)
        [.efm ["stop"]] := .attempt (.perform _)
  refine .ite (hstop.bind fun _ => .bind_silent (.attempt ?_) fun _ => trivial) trivial
  refine .silent_bind (.perform _) fun result => .ite ?_ trivial
  exact .bind_silent (.perform _) fun _ => trivial

theorem removeStalePidFile_follows :
    (removeStalePidFile cfg).Follows (deeds cfg) [.remove (pidFile cfg)] := by
  refine .silent_bind (.perform _) fun present => .ite ?_ trivial
  exact .except_silent (.perform _) fun exc => .ite trivial trivial

/-- By induction on the attempts that are left: the handler is what comes between two of them. -/
theorem startPostgresFrom_follows (left : ℕ) :
    (startPostgresFrom cfg left).Follows (deeds cfg) (startPlan cfg left) := by
  have hstart : (do
      Mgr.disk .startPostgres
      Mgr.host (.setPgState .runningPrimary) : Mgr Unit).Follows (deeds cfg) [.pgStart] :=
    .bind_silent (.perform _) fun _ => .perform _
  induction left with
  | zero => trivial
  | succ left ih =>
      cases left with
      | zero =>
          refine .except_silent hstart fun exc => ?_
          rw [if_neg (by simp)]
          trivial
      | succ left =>
          refine hstart.except fun exc => .ite ?_ trivial
          exact removeStalePidFile_follows.bind fun _ => .silent_bind (.perform _) fun _ => ih

theorem attachFrom_follows (backoff : Int) (left : ℕ) :
    (FailoverEngine.attachFrom cfg backoff left).Follows (deeds cfg)
      (List.replicate left (.attachDisk cfg.cluster.nodeName)) := by
  induction left generalizing backoff with
  | zero => trivial
  | succ left ih =>
      have hattach : (do
          Mgr.disk .attachDiskRw
          Mgr.host (.setDiskState .attachedRw)
          emit cfg .diskAttached
            s!"RPD attached to {cfg.cluster.nodeName} in RW mode" : Mgr Unit).Follows (deeds cfg)
            [.attachDisk cfg.cluster.nodeName] :=
        .bind_silent (.perform _) fun _ => .silent_bind (.perform _) fun _ => emit_follows _ _
      rw [List.replicate_succ, ← List.singleton_append]
      exact hattach.except fun exc => .ite (.silent_bind (.perform _) fun _ => ih _) trivial

theorem runPrimarySteps_follows {steps : List (StepName × Mgr Unit)} {part : StepName → List Deed}
    (h : ∀ step ∈ steps, step.2.Follows (deeds cfg) (part step.1)) :
    (SwitchoverEngine.runPrimarySteps cfg steps).Follows (deeds cfg)
      ((steps.map (·.1)).flatMap part) := by
  induction steps with
  | nil => trivial
  | cons step rest ih =>
      have hstep : step.2.attempt.Follows (deeds cfg) (part step.1) :=
        .attempt (h step List.mem_cons_self)
      rw [List.map_cons, List.flatMap_cons]
      refine .silent_bind (.perform _) fun _ => hstep.bind fun result => ?_
      cases result with
      | ok _ => exact ih fun step hstep => h step (List.mem_cons_of_mem _ hstep)
      | error exc => exact .silent_bind (emit_follows _ _) fun _ => trivial

/-- What is undone of a completed step. -/
def undoPart (cfg : Config) : StepName → List Deed
  | .pgStart => [.pgStop .immediate]
  | .mount => deeds cfg (.disk .unmountDisk)
  | .attach => [.detachDisk cfg.cluster.nodeName]
  | .vip => deeds cfg (.net .releaseVip)
  | _ => []

theorem undo_follows (name : StepName) :
    (SwitchoverEngine.undo name).Follows (deeds cfg) (undoPart cfg name) := by
  cases name with
  | pgStart => exact .bind_silent (.perform _) fun _ => .perform _
  | mount => exact .perform _
  | attach => exact .bind_silent (.perform _) fun _ => .perform _
  | vip => exact .perform _
  | _ => trivial

theorem rollbackPromotion_follows (completed : List StepName) :
    (SwitchoverEngine.rollbackPromotion completed).Follows (deeds cfg)
      (completed.flatMap (undoPart cfg)) := by
  induction completed with
  | nil => trivial
  | cons name rest ih =>
      have hundo : (SwitchoverEngine.undo name).attempt.Follows (deeds cfg) (undoPart cfg name) :=
        .attempt (undo_follows name)
      rw [List.flatMap_cons]
      exact hundo.bind fun _ => ih

/-- The steps, and after them the way back from the last one: a failure on the way only leaves
something out of either. -/
theorem runStandbySteps_follows {steps : List (StepName × Mgr Unit)} {part : StepName → List Deed}
    (h : ∀ step ∈ steps, step.2.Follows (deeds cfg) (part step.1)) (completed : List StepName) :
    (SwitchoverEngine.runStandbySteps cfg completed steps).Follows (deeds cfg)
      ((steps.map (·.1)).flatMap part ++
        ((steps.map (·.1)).reverse ++ completed).flatMap (undoPart cfg)) := by
  induction steps generalizing completed with
  | nil => trivial
  | cons step rest ih =>
      have hstep : step.2.attempt.Follows (deeds cfg) (part step.1) :=
        .attempt (h step List.mem_cons_self)
      rw [List.map_cons, List.flatMap_cons, List.reverse_cons, List.append_assoc, List.append_assoc,
        List.singleton_append]
      refine .silent_bind (.perform _) fun _ => hstep.bind fun result => ?_
      cases result with
      | ok _ =>
          exact ih (fun step hstep => h step (List.mem_cons_of_mem _ hstep)) (step.1 :: completed)
      | error exc =>
          have hback : completed.Sublist ((rest.map (·.1)).reverse ++ step.1 :: completed) :=
            (List.sublist_cons_self _ _).trans (List.sublist_append_right _ _)
          have hrollback : (SwitchoverEngine.rollbackPromotion completed).Follows (deeds cfg)
              (completed.flatMap (undoPart cfg)) := rollbackPromotion_follows completed
          have hwhole := hrollback.mono ((hback.flatMap (undoPart cfg)).trans
            (List.sublist_append_right ((rest.map (·.1)).flatMap part) _))
          exact .silent_bind (emit_follows _ _) fun _ => hwhole.bind_silent fun _ => trivial

/-- What a step of a failover can do. -/
def failoverPart (cfg : Config) : StepName → List Deed
  | .fence => [.detachDisk cfg.cluster.peerNode]
  | .attach => List.replicate 5 (.attachDisk cfg.cluster.nodeName)
  | .mount => deeds cfg (.disk .mountDisk)
  | .pgStart => startPlan cfg 3
  | .vip => deeds cfg (.net .acquireVip)
  | _ => []

theorem stepVip_follows {eventType : HaEventType} {message : String} :
    ((Mgr.net .acquireVip).bind fun _ => emit cfg eventType message).Follows (deeds cfg)
      (deeds cfg (.net .acquireVip)) :=
  .bind_silent (.perform _) fun _ => emit_follows _ _

theorem stepPromote_follows : (FailoverEngine.stepPromote cfg).Follows (deeds cfg) [] :=
  .silent_bind (.perform _) fun _ => .silent_bind (.perform _) fun _ => emit_follows _ _

theorem failoverSteps_follow : ∀ step ∈ FailoverEngine.steps cfg,
    step.2.Follows (deeds cfg) (failoverPart cfg step.1) := by
  intro step hstep
  simp only [FailoverEngine.steps, List.mem_cons, List.not_mem_nil, or_false] at hstep
  rcases hstep with rfl | rfl | rfl | rfl | rfl | rfl | rfl | rfl
  · have hreachable : (FailoverEngine.isPeerPgReachable cfg).Calls (Quiet cfg) := by
      refine .bind (.attempt (Prog.Calls.perform rfl)) fun result => ?_
      cases result with
      | ok _ => trivial
      | error exc => exact .ite trivial trivial
    exact quiet_follows (.perform_bind rfl fun status => .perform_bind rfl fun _ =>
      .ite trivial (.ite trivial (.bind hreachable fun _ => .ite trivial trivial)))
  · exact .silent_bind (.perform _) fun _ => .bind_silent (.perform _) fun _ => emit_follows _ _
  · exact .perform _
  · exact attachFrom_follows 3000 5
  · exact .perform _
  · exact startPostgresFrom_follows 3
  · exact stepVip_follows
  · exact stepPromote_follows

theorem runFailover_follows (skipFence : Bool) :
    (runFailover cfg skipFence).Follows (deeds cfg)
      (Undertaking.plan cfg (.task (.runFailover skipFence))) := by
  have hexecute : (FailoverEngine.execute cfg skipFence).Follows (deeds cfg)
      ((if skipFence then [] else [.detachDisk cfg.cluster.peerNode]) ++
        List.replicate 5 (.attachDisk cfg.cluster.nodeName) ++ equipPlan cfg) := by
    cases skipFence <;> exact execute_follows (fun _ => silent_deeds) failoverSteps_follow
  exact hexecute.bind fun succeeded => .ite efmStart_follows trivial

/-- What a step of the primary's side of a switchover can do. -/
def handingPart (cfg : Config) : StepName → List Deed
  | .vipRelease => deeds cfg (.net .releaseVip)
  | .pgStop => [.pgStop .fast]
  | .umount => deeds cfg (.disk .unmountDisk)
  | .detach => [.detachDisk cfg.cluster.nodeName]
  | .signalPeer => [.tell "SWITCHOVER_REQUEST"]
  | _ => []

theorem primarySteps_follow : ∀ step ∈ SwitchoverEngine.primarySteps cfg,
    step.2.Follows (deeds cfg) (handingPart cfg step.1) := by
  intro step hstep
  simp only [SwitchoverEngine.primarySteps, List.mem_cons, List.not_mem_nil, or_false] at hstep
  rcases hstep with rfl | rfl | rfl | rfl | rfl | rfl | rfl
  · have hclock : Quiet cfg (.host .monotonic) := rfl
    exact quiet_follows (.perform_bind hclock fun now =>
      SwitchoverEngine.pollPeer_calls cfg hclock (fun _ _ _ => rfl) (fun _ => rfl) _ _)
  · exact .bind_silent (.perform _) fun _ => emit_follows _ _
  · exact .bind_silent (.perform _) fun _ => .perform _
  · exact .perform _
  · exact .bind_silent (.perform _) fun _ => .silent_bind (.perform _) fun _ => emit_follows _ _
  · refine .silent_bind (.perform _) fun _ => .bind_silent (.perform _) fun _ => ?_
    exact .silent_bind (.perform _) fun resp => .silent_bind (.ofExcept _) fun cmd =>
      .ite trivial trivial
  · exact .silent_bind (.perform _) fun _ => .silent_bind (.perform _) fun _ => emit_follows _ _

theorem runSwitchover_follows :
    (runSwitchover cfg).Follows (deeds cfg) (Undertaking.plan cfg (.task .runSwitchover)) := by
  have hexecute : (SwitchoverEngine.executeAsPrimary cfg).Follows (deeds cfg)
      (deeds cfg (.net .releaseVip) ++ [.pgStop .fast, .umount, .umount,
        .detachDisk cfg.cluster.nodeName, .tell "SWITCHOVER_REQUEST"]) := by
    refine .silent_bind (.silent_bind (.perform _) fun _ => trivial) fun primary => .ite trivial ?_
    refine inSequence_follows (.silent_bind (emit_follows _ _) fun _ => ?_)
    refine (runPrimarySteps_follows primarySteps_follow).bind_silent fun succeeded =>
      .ite ?_ trivial
    exact .silent_bind (emit_follows _ _) fun _ => trivial
  have hcleanup : (do
      let now ← Mgr.host .time
      Mgr.host (.setLastDemotionTs now)
      Mgr.host (.setSwitchoverActive false) : Mgr Unit).Follows (deeds cfg) [] :=
    .silent_bind (.perform _) fun _ => .silent_bind (.perform _) fun _ => .perform _
  refine .silent_bind (.perform _) fun _ => .silent_bind (.perform _) fun _ => ?_
  have hwhole : (do
      let _ ← SwitchoverEngine.executeAsPrimary cfg
      pure () : Mgr Unit).Follows (deeds cfg) (deeds cfg (.net .releaseVip) ++ [.pgStop .fast,
        .umount, .umount, .detachDisk cfg.cluster.nodeName, .tell "SWITCHOVER_REQUEST"]) :=
    hexecute.bind_silent fun _ => trivial
  have hrest := hwhole.ensuring hcleanup
  rw [List.append_nil] at hrest
  exact efmStop_follows.bind fun _ => hrest

/-- What a step of the standby's side of a switchover can do. -/
def takingPart (cfg : Config) : StepName → List Deed
  | .attach => [.attachDisk cfg.cluster.nodeName]
  | .mount => deeds cfg (.disk .mountDisk)
  | .pgStart => startPlan cfg 3
  | .vip => deeds cfg (.net .acquireVip)
  | _ => []

theorem standbySteps_follow : ∀ step ∈ SwitchoverEngine.standbySteps cfg,
    step.2.Follows (deeds cfg) (takingPart cfg step.1) := by
  intro step hstep
  simp only [SwitchoverEngine.standbySteps, List.mem_cons, List.not_mem_nil, or_false] at hstep
  rcases hstep with rfl | rfl | rfl | rfl | rfl
  · refine .silent_bind (.perform _) fun holder => .ite trivial ?_
    exact .bind_silent (.perform _) fun _ => .perform _
  · exact .perform _
  · exact startPostgresFrom_follows 3
  · exact stepVip_follows
  · exact .silent_bind (.perform _) fun _ => .silent_bind (.perform _) fun _ => emit_follows _ _

theorem runSwitchoverAsStandby_follows : (runSwitchoverAsStandby cfg).Follows (deeds cfg)
    (Undertaking.plan cfg (.task .runSwitchoverAsStandby)) := by
  have hexecute : (SwitchoverEngine.executeAsStandby cfg).Follows (deeds cfg)
      (.attachDisk cfg.cluster.nodeName :: equipPlan cfg ++ deeds cfg (.net .releaseVip) ++
        [.pgStop .immediate, .umount, .umount, .detachDisk cfg.cluster.nodeName]) := by
    have hsteps := runStandbySteps_follows (@standbySteps_follow cfg) []
    refine .silent_bind (.silent_bind (.perform _) fun _ => trivial) fun standby => .ite trivial ?_
    refine inSequence_follows ?_
    refine hsteps.bind_silent fun succeeded => .ite ?_ trivial
    exact .silent_bind (emit_follows _ _) fun _ => trivial
  have hbody : (do
      if ← SwitchoverEngine.executeAsStandby cfg then
        efmStart cfg : Mgr Unit).Follows (deeds cfg)
      (Undertaking.plan cfg (.task .runSwitchoverAsStandby)) :=
    (hexecute.bind fun succeeded => .ite efmStart_follows (.pure _)).mono
      (by simp [Undertaking.plan])
  have hwhole : (runSwitchoverAsStandby cfg).Follows (deeds cfg)
      (Undertaking.plan cfg (.task .runSwitchoverAsStandby) ++ []) :=
    hbody.ensuring (.perform _)
  rwa [List.append_nil] at hwhole

theorem bestEffort_follows {actions : List (Mgr Unit)} {parts : List (List Deed)}
    (h : List.Forall₂ (fun action part => action.Follows (deeds cfg) part) actions parts) :
    (bestEffort actions).Follows (deeds cfg) parts.flatten := by
  induction h with
  | nil => trivial
  | cons haction _ ih => exact haction.attempt.bind fun _ => ih

theorem selfDemoteAfterPgFailure_follows : (selfDemoteAfterPgFailure cfg).Follows (deeds cfg)
    (Undertaking.plan cfg .selfDemotion) := by
  have hactions : (bestEffort (demotionActions cfg)).Follows (deeds cfg)
      ([deeds cfg (.net .releaseVip), [.pgStop .immediate], [.killMountUsers], [.umount, .umount],
        [.detachDisk cfg.cluster.nodeName]] : List (List Deed)).flatten :=
    bestEffort_follows (.cons (.perform _) (.cons (.perform _) (.cons (.perform _)
      (.cons (.perform _) (.cons (.perform _) .nil)))))
  have hsignal : (sendPgFailHandoff cfg).Follows (deeds cfg) [.tell "PG_FAIL_HANDOFF"] := by
    have hask : (askPeer cfg "PG_FAIL_HANDOFF").Follows (deeds cfg) [.tell "PG_FAIL_HANDOFF"] :=
      .silent_bind (.perform _) fun _ => .bind_silent (.perform _) fun _ => .perform _
    exact hask.bind_silent fun resp => .silent_bind (.ofExcept _) fun _ => trivial
  refine .silent_bind (.silent_bind (.perform _) fun _ => trivial) fun primary => .ite trivial ?_
  refine inSequence_follows ?_
  have hplan : Undertaking.plan cfg .selfDemotion = efmStopPlan ++
      (([deeds cfg (.net .releaseVip), [.pgStop .immediate], [.killMountUsers], [.umount, .umount],
        [.detachDisk cfg.cluster.nodeName]] : List (List Deed)).flatten ++
          [.tell "PG_FAIL_HANDOFF"]) := rfl
  rw [hplan]
  refine efmStop_follows.bind fun _ => hactions.bind fun _ => ?_
  -- what the node says of itself is not seen from outside
  refine .silent_bind (.perform _) fun _ => .silent_bind (.perform _) fun _ => ?_
  refine .silent_bind (.perform _) fun _ => .silent_bind (.perform _) fun _ => ?_
  refine .silent_bind (.perform _) fun _ => .silent_bind (.perform _) fun _ => ?_
  exact .silent_bind (.perform _) fun _ => hsignal.attempt.bind_silent fun _ => .pure _

theorem becomeStandby_follows : ElectionManager.becomeStandby.Follows (deeds cfg) plan :=
  quiet_follows (.perform_bind rfl fun _ => .perform_bind rfl fun _ => .perform_bind rfl fun _ =>
    .perform_bind rfl fun _ => trivial)

/-- A node becomes a primary, or takes back what it has done for it. -/
theorem becomePrimary_follows : (ElectionManager.becomePrimary false).Follows (deeds cfg)
    (deeds cfg (.disk .mountDisk) ++ ([.pgStart] ++ deeds cfg (.net .acquireVip)) ++
      ([.pgStop .immediate] ++ deeds cfg (.disk .unmountDisk))) := by
  have hrecord : (do
      Mgr.host (.setRole .primary)
      Mgr.host (.setDiskState .attachedRw)
      Mgr.host (.setPgState .runningPrimary)
      Mgr.host (.setHealth .healthy)
      pure .primary : Mgr NodeRole).Follows (deeds cfg) [] :=
    quiet_follows (.perform_bind rfl fun _ => .perform_bind rfl fun _ => .perform_bind rfl fun _ =>
      .perform_bind rfl fun _ => trivial)
  have hmount : (Mgr.disk .mountDisk).Follows (deeds cfg)
      (deeds cfg (.disk .mountDisk)) := .perform _
  have hstart : (Mgr.disk .startPostgres).Follows (deeds cfg) [.pgStart] := .perform _
  have hvip : (Mgr.net .acquireVip).Follows (deeds cfg) (deeds cfg (.net .acquireVip)) := .perform _
  have htake : (ElectionManager.takeOver false).Follows (deeds cfg)
      (deeds cfg (.disk .mountDisk) ++ ([.pgStart] ++ deeds cfg (.net .acquireVip))) :=
    hmount.bind fun _ => hstart.bind fun _ => hvip.bind_silent fun _ => hrecord
  have hstop : (Mgr.disk (.stopPostgres .immediate)).attempt.Follows (deeds cfg)
      [.pgStop .immediate] := .attempt (.perform _)
  have humount : (Mgr.disk .unmountDisk).attempt.Follows (deeds cfg)
      (deeds cfg (.disk .unmountDisk)) := .attempt (.perform _)
  have hback : ElectionManager.rollbackPrimary.Follows (deeds cfg)
      ([.pgStop .immediate] ++ deeds cfg (.disk .unmountDisk)) :=
    hstop.bind fun _ => humount.bind_silent fun _ => .pure _
  exact htake.except fun exc => .silent_bind (.perform _) fun _ =>
    hback.bind_silent fun _ => becomeStandby_follows

theorem elect_follows : (ElectionManager.elect cfg).Follows (deeds cfg)
    ([.attachDisk cfg.cluster.nodeName] ++
      (deeds cfg (.disk .mountDisk) ++ ([.pgStart] ++ deeds cfg (.net .acquireVip)) ++
        ([.pgStop .immediate] ++ deeds cfg (.disk .unmountDisk)))) := by
  have hattach : (Mgr.disk .attachDiskRw).Follows (deeds cfg) [.attachDisk cfg.cluster.nodeName] :=
    .perform _
  refine .silent_bind (.perform _) fun holder => .ite ?_ (.ite becomeStandby_follows ?_)
  · exact becomePrimary_follows.mono (List.sublist_append_right _ _)
  · refine .silent_bind (.perform _) fun hash => .silent_bind (.perform _) fun _ => ?_
    exact .except_silent (hattach.bind fun _ => becomePrimary_follows) fun exc =>
      .ite becomeStandby_follows trivial

theorem startup_follows :
    (startup cfg).Follows (deeds cfg) (Undertaking.plan cfg .startup) := by
  have hmonitor (role : NodeRole) : (do
      Mgr.host .pgMonReset
      Mgr.host (.pgMonSetActive (role == .primary)) : Mgr Unit).Follows (deeds cfg) [] :=
    .silent_bind (.perform _) fun _ => .perform _
  have hplan : Undertaking.plan cfg .startup = ([.attachDisk cfg.cluster.nodeName] ++
      (deeds cfg (.disk .mountDisk) ++ ([.pgStart] ++ deeds cfg (.net .acquireVip)) ++
        ([.pgStop .immediate] ++ deeds cfg (.disk .unmountDisk)))) ++
      ([.efm ["start"]] ++ efmStopPlan) := rfl
  rw [hplan]
  refine elect_follows.bind fun role => .ite ?_ ?_
  · exact (efmStart_follows.bind_silent fun _ => hmonitor role).mono (List.sublist_append_left _ _)
  · exact (efmStop_follows.bind_silent fun _ => hmonitor role).mono (List.sublist_append_right _ _)

theorem body_follows (undertaking : Undertaking) :
    (undertaking.body cfg).Follows (deeds cfg) (undertaking.plan cfg) := by
  cases undertaking with
  | task started =>
      cases started with
      | runFailover skipFence => exact runFailover_follows skipFence
      | runSwitchover => exact runSwitchover_follows
      | runSwitchoverAsStandby => exact runSwitchoverAsStandby_follows
  | selfDemotion => exact selfDemoteAfterPgFailure_follows
  | startup => exact startup_follows

end Sequences

/-- **Every transition follows its plan.**  What it does to the world, down to the single request
and the single command and on any answers, comes in the order of the plan and no more often. -/
theorem follows_plan (undertaking : Undertaking) {trace : List (Event SysCall.Ret Exc)}
    {outcome : Outcome Exc Unit}
    (htrace : ((undertaking.body cfg).lower (managers cfg)).Trace trace outcome) :
    (shown deed trace).Sublist (undertaking.plan cfg) :=
  ((body_follows undertaking).lower (managers_follow cfg)).shown_sublist htrace

/-! ## How long a failover takes -/

/-- The operations that take time: those of the managers, sleeps, connections and commands. -/
def timed : Call → List Call
  | .disk call => [.disk call]
  | .net call => [.net call]
  | .host (.sleep duration) => [.host (.sleep duration)]
  | .host (.createConnection ip port timeout) => [.host (.createConnection ip port timeout)]
  | .host (.run command) => [.host (.run command)]
  | _ => []

/-- The attempts to attach the disk, with the sleeps between them. -/
def longestAttach (backoff : Int) : ℕ → List Call
  | 0 => []
  | 1 => [.disk .attachDiskRw]
  | left + 2 =>
      .disk .attachDiskRw :: .host (.sleep backoff) ::
        longestAttach (min (backoff * 2) 30000) (left + 1)

def longestStart : ℕ → List Call
  | 0 => []
  | 1 => [.disk .startPostgres]
  | left + 2 => .disk .startPostgres :: .host (.sleep 3000) :: longestStart (left + 1)

/-- What a step of a failover can take. -/
def longestStep (cfg : Config) : StepName → List Call
  | .verify =>
      [.disk (.getInstanceStatus cfg.cluster.peerNode cfg.peerZone),
        .host (.createConnection cfg.cluster.peerIp cfg.postgresql.port 2000)]
  | .fence => [.disk .forceDetachFromPeer]
  | .wait => [.host (.sleep cfg.cluster.fenceWait)]
  | .attach => longestAttach 3000 5
  | .mount => [.disk .mountDisk]
  | .pgStart => longestStart 3
  | .vip => [.net .acquireVip]
  | _ => []

/-- The longest way to fail over, with fencing. -/
def longest (cfg : Config) : List Call :=
  longestStep cfg .verify ++ longestStep cfg .fence ++ longestStep cfg .wait ++
    longestStep cfg .attach ++ longestStep cfg .mount ++ longestStep cfg .pgStart ++
    longestStep cfg .vip ++ [.host (.run (.systemctl ["start"] cfg.efm.serviceName))]

theorem silent_timed {op : Call} (h : Bookkeeping op) : timed op = [] := by
  unfold Bookkeeping at h
  split at h <;> first | exact h.elim | rfl

section Timed

variable {cfg} {plan : List Call}

theorem attachFrom_timed (backoff : Int) (left : ℕ) :
    (FailoverEngine.attachFrom cfg backoff left).Follows timed (longestAttach backoff left) := by
  induction left generalizing backoff with
  | zero => trivial
  | succ left ih =>
      have hattach : (do
          Mgr.disk .attachDiskRw
          Mgr.host (.setDiskState .attachedRw)
          emit cfg .diskAttached
            s!"RPD attached to {cfg.cluster.nodeName} in RW mode" : Mgr Unit).Follows timed
            [.disk .attachDiskRw] :=
        .bind_silent (.perform _) fun _ => .silent_bind (.perform _) fun _ =>
          emit_silent (fun _ => silent_timed) _ _
      cases left with
      | zero =>
          -- after the last attempt there is nothing to wait for
          refine .except_silent hattach fun exc => ?_
          rw [if_neg (by simp)]
          trivial
      | succ left =>
          have hsleep : (Mgr.host (.sleep backoff)).Follows timed
              [.host (.sleep backoff)] := .perform _
          exact hattach.except fun exc => .ite (hsleep.bind fun _ => ih _) trivial

theorem startPostgresFrom_timed (left : ℕ) :
    (startPostgresFrom cfg left).Follows timed (longestStart left) := by
  have hstart : (do
      Mgr.disk .startPostgres
      Mgr.host (.setPgState .runningPrimary) : Mgr Unit).Follows timed [.disk .startPostgres] :=
    .bind_silent (.perform _) fun _ => .perform _
  have hpid : (removeStalePidFile cfg).Follows timed [] :=
    .silent_bind (.perform _) fun present =>
      .ite (.except_silent (.perform _) fun exc => .ite trivial trivial) trivial
  induction left with
  | zero => trivial
  | succ left ih =>
      cases left with
      | zero =>
          refine .except_silent hstart fun exc => ?_
          rw [if_neg (by simp)]
          trivial
      | succ left =>
          have hsleep : (Mgr.host (.sleep 3000)).Follows timed [.host (.sleep 3000)] := .perform _
          exact hstart.except fun exc =>
            .ite (hpid.silent_bind fun _ => hsleep.bind fun _ => ih) trivial

theorem failoverSteps_timed : ∀ step ∈ FailoverEngine.steps cfg,
    step.2.Follows timed (longestStep cfg step.1) := by
  intro step hstep
  have hemit (eventType : HaEventType) (message : String) :
      (emit cfg eventType message).Follows timed [] :=
    emit_silent (fun _ => silent_timed) eventType message
  simp only [FailoverEngine.steps, List.mem_cons, List.not_mem_nil, or_false] at hstep
  rcases hstep with rfl | rfl | rfl | rfl | rfl | rfl | rfl | rfl
  · have hstatus : (Mgr.disk (.getInstanceStatus cfg.cluster.peerNode cfg.peerZone)).Follows timed
        [.disk (.getInstanceStatus cfg.cluster.peerNode cfg.peerZone)] := .perform _
    have hprobe : (FailoverEngine.isPeerPgReachable cfg).Follows timed
        [.host (.createConnection cfg.cluster.peerIp cfg.postgresql.port 2000)] := by
      refine .bind_silent (.attempt (.perform _)) fun result => ?_
      cases result with
      | ok _ => trivial
      | error exc => exact .ite trivial trivial
    refine hstatus.bind fun status => .silent_bind (.perform _) fun _ => .ite trivial ?_
    exact .ite trivial (hprobe.bind_silent fun _ => .ite trivial trivial)
  · exact .silent_bind (.perform _) fun _ => .bind_silent (.perform _) fun _ => hemit _ _
  · exact .perform _
  · exact attachFrom_timed 3000 5
  · exact .perform _
  · exact startPostgresFrom_timed 3
  · exact .bind_silent (.perform _) fun _ => hemit _ _
  · exact .silent_bind (.perform _) fun _ => .silent_bind (.perform _) fun _ => hemit _ _

theorem runFailover_timed (skipFence : Bool) :
    (PgHaDaemon.runFailover cfg skipFence).Follows timed (longest cfg) := by
  have hefm : (PgHaDaemon.efmStart cfg).Follows timed
      [.host (.run (.systemctl ["start"] cfg.efm.serviceName))] :=
    .ite (.bind_silent (.attempt (.perform _)) fun _ => trivial) trivial
  have hexecute : (FailoverEngine.execute cfg skipFence).Follows timed
      (longestStep cfg .verify ++ longestStep cfg .fence ++ longestStep cfg .wait ++
        longestStep cfg .attach ++ longestStep cfg .mount ++ longestStep cfg .pgStart ++
        longestStep cfg .vip) := by
    cases skipFence with
    | false => exact execute_follows (fun _ => silent_timed) failoverSteps_timed
    | true =>
        refine (execute_follows (fun _ => silent_timed) failoverSteps_timed).mono ?_
        exact List.sublist_append_right
          (longestStep cfg .verify ++ longestStep cfg .fence ++ longestStep cfg .wait) _
  exact hexecute.bind fun succeeded => .ite hefm trivial

end Timed

/-- **A failover takes no longer than its longest way**, however long each operation takes at most:
one look at the peer, one fencing, five attempts to attach the disk, one mount, three attempts to
start PostgreSQL and one move of the address, with the sleeps between them. -/
theorem failover_duration (skipFence : Bool) (duration : Call → ℕ)
    {trace : List (Event Call.Ret Exc)} {outcome : Outcome Exc Unit}
    (htrace : (PgHaDaemon.runFailover cfg skipFence).Trace trace outcome) :
    ((shown timed trace).map duration).sum ≤ ((longest cfg).map duration).sum :=
  (runFailover_timed skipFence).sum_le duration htrace

/-- The sleep that an operation is, in milliseconds. -/
def slept : Call → ℕ
  | .host (.sleep duration) => duration.toNat
  | _ => 0

/-- The sleeps of a failover add up to `fence_wait` and 51 seconds. -/
theorem slept_longest : ((longest cfg).map slept).sum = cfg.cluster.fenceWait.toNat + 51000 := by
  simp only [longest, longestStep, longestAttach, longestStart, List.map_append, List.sum_append,
    List.map_cons, List.map_nil, List.sum_cons, List.sum_nil, slept]
  omega

/-! ## Runs -/

def sampleHandle (op : SysCall) (s : DaemonState) : Except Exc op.Ret × DaemonState :=
  match op with
  | .gcp (.getDisk ..) => (.ok (.ok ⟨[]⟩), s)
  | .gcp (.getInstance ..) => (.ok (.ok ⟨some "RUNNING", [], [⟨some "nic0", some "fp", []⟩]⟩), s)
  | .gcp (.getOperation ..) | .gcp (.attachDisk ..) | .gcp (.detachDisk ..)
  | .gcp (.updateNetworkInterface ..) => (.ok (.ok ⟨none, none, none⟩), s)
  | .host (.pathExists _) => (.ok true, s)
  | .host (.run (.pgCtlStatus ..)) => (.ok ⟨3, "", ""⟩, s)
  | .host call => (s.reply call, s.after call)

def sampleDaemon : DaemonState where
  node := { name := "pg-standby", role := .standby }
  attempts := 0
  lastAttemptTs := 0
  peerInstanceStatus := ""
  switchoverActive := false
  failoverLocked := false
  lastDemotionTs := 0

abbrev sampleRun : Run SysCall.Ret Exc Unit DaemonState :=
  ((Undertaking.body .sampleStandby (.task (.runFailover true))).lower
    (managers .sampleStandby)).run sampleHandle sampleDaemon

theorem follows_plan_sample : (shown deed sampleRun.log).Sublist
    (Undertaking.plan .sampleStandby (.task (.runFailover true))) :=
  follows_plan .sampleStandby _ (trace_run _ _ _)

/-- A failover in which nothing goes wrong does each thing once. -/
example : shown deed sampleRun.log = [.attachDisk "pg-standby", .mount, .pgStart,
    .patchNic "pg-standby"] := by
  decide +kernel

/-- A failover at whose every operation there is a failure. -/
abbrev failingRun : Run Call.Ret Exc Unit DaemonState :=
  (PgHaDaemon.runFailover .sampleStandby true).run (fun op s =>
    match op with
    | .host call => (s.reply call, s.after call)
    | .disk _ | .net _ => (.error (.runtimeError "disk is already being used"), s)) sampleDaemon

theorem failover_duration_sample : ((shown timed failingRun.log).map slept).sum ≤
    ((longest .sampleStandby).map slept).sum :=
  failover_duration .sampleStandby true slept (trace_run _ _ _)

/-- It gives up after the sleeps between five attempts to attach the disk. -/
example : ((shown timed failingRun.log).map slept).sum = 45000 := by
  decide +kernel

end PgHa.Itinerary

import PgHa.Gcp.Network

/-!
# Which requests and commands an operation makes

For every operation of the managers, the requests to the Compute API and the
operations of the host that its implementation performs, on any answers.
Results that are about a few kinds of request use this to leave everything else
out.
-/

namespace PgHa

open Effect

/-- What waiting for an operation takes. -/
def isPoll : SysCall → Prop
  | .gcp (.getOperation ..) | .host .monotonic | .host (.sleep _) => True
  | _ => False

/-- Requests that only read, and waiting. -/
def isQuery : SysCall → Prop
  | .gcp (.getDisk ..) | .gcp (.getInstance ..) | .gcp (.getOperation ..) => True
  | .host .monotonic | .host (.sleep _) => True
  | _ => False

/-- Looks at files and mounts, and waiting. -/
def isLook : SysCall → Prop
  | .host .readMounts | .host (.pathExists _) | .host (.listdir _) => True
  | .host .monotonic | .host (.sleep _) => True
  | _ => False

/-- Commands and files of the host, and waiting. -/
def isLocal : SysCall → Prop
  | .host (.run _) | .host .readMounts | .host (.pathExists _) | .host (.listdir _) => True
  | .host .monotonic | .host (.sleep _) => True
  | _ => False

def isAttachPost : SysCall → Prop
  | .gcp (.attachDisk ..) => True
  | _ => False

def isDetachPost : SysCall → Prop
  | .gcp (.detachDisk ..) => True
  | _ => False

def isPatch : SysCall → Prop
  | .gcp (.updateNetworkInterface ..) => True
  | _ => False

/-- What the implementation of an operation may perform. -/
def footprint : Call → SysCall → Prop
  | .disk .currentRwHolder, op | .disk (.getInstanceStatus ..), op => isQuery op
  | .disk .attachDiskRw, op => isQuery op ∨ isAttachPost op
  | .disk .detachDisk, op | .disk .forceDetachFromPeer, op => isQuery op ∨ isDetachPost op
  | .disk .mountDisk, op | .disk .unmountDisk, op | .disk .startPostgres, op
  | .disk (.stopPostgres _), op => isLocal op
  | .net _, op => isQuery op ∨ isPatch op
  | .host call, op => op = .host call

variable (cfg : Config)

theorem isPoll_cases {op : SysCall} (h : isPoll op) :
    (∃ project zone operation, op = .gcp (.getOperation project zone operation)) ∨
      op = .host .monotonic ∨ ∃ duration, op = .host (.sleep duration) := by
  unfold isPoll at h
  split at h
  · exact .inl ⟨_, _, _, rfl⟩
  · exact .inr (.inl rfl)
  · exact .inr (.inr ⟨_, rfl⟩)
  · exact h.elim

theorem isQuery_of_isPoll (op : SysCall) (h : isPoll op) : isQuery op := by
  obtain ⟨project, zone, operation, rfl⟩ | rfl | ⟨duration, rfl⟩ := isPoll_cases h <;> trivial

theorem pollZoneOp_calls (opName zone : String) (pollInterval deadline : Int) (fuel : ℕ) :
    (pollZoneOp cfg opName zone pollInterval deadline fuel).Calls isPoll := by
  induction fuel with
  | zero => trivial
  | succ fuel ih =>
      refine .perform_bind trivial fun now => .ite ?_ trivial
      refine .perform_bind trivial fun resp => .bind (Prog.calls_ofExcept _) fun op => .ite ?_ ?_
      · cases op.error <;> trivial
      · exact .perform_bind trivial fun _ => ih

namespace DiskManager

theorem getInstance_calls (name zone : String) : (getInstance cfg name zone).Calls isQuery :=
  .perform_bind trivial fun _ => Prog.calls_ofExcept _

theorem lookupDeviceName_calls (name zone : String) :
    (lookupDeviceName cfg name zone).Calls isQuery :=
  .bind (getInstance_calls cfg name zone).attempt fun result => by cases result <;> trivial

theorem awaitNamed_calls (zone : String) (op : Operation) :
    (awaitNamed cfg zone op).Calls isPoll := by
  unfold awaitNamed
  cases nonempty? op.name with
  | none => trivial
  | some opName => exact .perform_bind trivial fun _ => pollZoneOp_calls ..

theorem holderAmong_calls (users : List String) : (holderAmong cfg users).Calls isQuery := by
  induction users with
  | nil => trivial
  | cons userUrl rest ih =>
      unfold holderAmong
      cases hzone : zoneForInstance cfg (lastSegment userUrl) with
      | none => simpa [hzone] using ih
      | some zone =>
          simp only [hzone]
          refine .bind (getInstance_calls ..).attempt fun result => ?_
          cases result with
          | error exc => exact ih
          | ok inst => exact .ite trivial ih

theorem currentRwHolder_calls : (currentRwHolder cfg).Calls isQuery := by
  refine .bind (Prog.Calls.attempt (.perform_bind trivial fun _ => Prog.calls_ofExcept _))
    fun result => ?_
  cases result with
  | error exc => trivial
  | ok disk => exact holderAmong_calls cfg disk.users

theorem detachPost_calls {name zone devName : String} {next : Response Operation → Sys Unit}
    (hnext : ∀ resp, (next resp).Calls isQuery) :
    ((Sys.gcp (.detachDisk cfg.gcp.projectId zone name devName)).bind next).Calls
      fun op => isQuery op ∨ isDetachPost op :=
  .perform_bind (.inr trivial) fun resp => (hnext resp).mono fun _ => .inl

theorem forceDetachFromPeer_calls :
    (forceDetachFromPeer cfg).Calls fun op => isQuery op ∨ isDetachPost op := by
  refine .bind ((lookupDeviceName_calls ..).mono fun _ => .inl) fun devName => ?_
  cases devName with
  | none => trivial
  | some devName =>
      refine .except (detachPost_calls cfg fun resp => .ite ?_ (.ite trivial trivial))
        fun exc => .ite trivial trivial
      exact .bind (Prog.calls_ofExcept _) fun op => (awaitNamed_calls ..).mono isQuery_of_isPoll

theorem detachDisk_calls :
    (detachDisk cfg).Calls fun op => isQuery op ∨ isDetachPost op := by
  refine .bind ((lookupDeviceName_calls ..).mono fun _ => .inl) fun devName => ?_
  cases devName with
  | none => trivial
  | some devName =>
      refine .except (detachPost_calls cfg fun resp => .ite trivial ?_)
        fun exc => .ite trivial trivial
      exact .bind (Prog.calls_ofExcept _) fun op => (awaitNamed_calls ..).mono isQuery_of_isPoll

theorem attachDiskRw_calls :
    (attachDiskRw cfg).Calls fun op => isQuery op ∨ isAttachPost op := by
  refine .bind ((currentRwHolder_calls cfg).mono fun _ => .inl) fun holder => .ite trivial ?_
  refine .except (.perform_bind (.inr trivial) fun resp => .ite trivial ?_)
    fun exc => .ite trivial trivial
  exact .bind (Prog.calls_ofExcept _) fun op =>
    (awaitNamed_calls ..).mono fun op h => .inl (isQuery_of_isPoll op h)

theorem isLocal_of_isLook (op : SysCall) (h : isLook op) : isLocal op := by
  unfold isLook at h
  split at h <;> first | exact h.elim | trivial

theorem isMounted_calls (mountPt : String) : (isMounted mountPt).Calls isLook :=
  .perform_bind trivial fun _ => trivial

theorem isMountHealthy_calls (mountPt : String) : (isMountHealthy mountPt).Calls isLook :=
  .bind (Prog.Calls.attempt (Prog.Calls.perform trivial)) fun result => by
    cases result with
    | ok _ => trivial
    | error exc => exact .ite trivial trivial

theorem pollDevice_calls (devPath : String) (timeout deadline : Int) (fuel : ℕ) :
    (pollDevice devPath timeout deadline fuel).Calls isLook := by
  induction fuel with
  | zero => trivial
  | succ fuel ih =>
      refine .perform_bind trivial fun now => .ite (.perform_bind trivial fun present => ?_) trivial
      exact .ite trivial (.perform_bind trivial fun _ => ih)

theorem waitForDevice_calls (devPath : String) (timeout : Int) :
    (waitForDevice cfg devPath timeout).Calls isLook :=
  .perform_bind trivial fun _ => pollDevice_calls ..

theorem mountDevice_calls : (mountDevice cfg).Calls isLocal := by
  have hmount : ((Sys.host (.run (.mount (devPath cfg) cfg.gcp.diskMountPoint))).bind fun result =>
      if result.returncode ≠ 0 then
        let text := strip result.stderr
        Prog.raise (.runtimeError s!"mount {devPath cfg} {cfg.gcp.diskMountPoint} failed: {text}")
      else pure PUnit.unit : Sys Unit).Calls isLocal :=
    .perform_bind trivial fun _ => .ite trivial trivial
  refine .perform_bind trivial fun present => .ite ?_ hmount
  exact .perform_bind trivial fun result => .ite trivial hmount

theorem mountDisk_calls : (mountDisk cfg).Calls isLocal := by
  refine .bind ((waitForDevice_calls cfg _ _).mono isLocal_of_isLook) fun _ => ?_
  refine .bind ((isMounted_calls _).mono isLocal_of_isLook) fun mounted => ?_
  refine .ite (.bind ((isMountHealthy_calls _).mono isLocal_of_isLook) fun healthy => ?_)
    (mountDevice_calls cfg)
  refine .ite trivial (.bind (Prog.Calls.attempt (Prog.Calls.perform trivial)) fun _ => ?_)
  exact mountDevice_calls cfg

theorem unmountDisk_calls : (unmountDisk cfg).Calls isLocal := by
  refine .bind ((isMounted_calls _).mono isLocal_of_isLook) fun mounted => .ite ?_ trivial
  refine .perform_bind trivial fun result => .ite trivial ?_
  exact .perform_bind trivial fun result => .ite trivial trivial

theorem startPostgres_calls : (startPostgres cfg).Calls isLocal := by
  refine .bind (.bind (Prog.Calls.attempt (Prog.Calls.perform trivial)) fun result => ?_)
    fun running => .ite trivial (.perform_bind trivial fun result => .ite trivial trivial)
  cases result <;> trivial

theorem stopPostgres_calls (mode : StopMode) : (stopPostgres cfg mode).Calls isLocal :=
  .perform_bind trivial fun _ => trivial

end DiskManager

namespace NetworkManager

theorem getNic_calls (name zone : String) : (getNic cfg name zone).Calls isQuery := by
  refine .bind (.perform_bind trivial fun _ => Prog.calls_ofExcept _) fun inst => ?_
  cases inst.networkInterfaces.find? (·.name == some cfg.gcp.nicName) <;> trivial

theorem patchFrom_calls (name zone : String) (aliasRanges : List (Option String))
    (maxRetries : ℕ) (fingerprint : String) (left : ℕ) :
    (patchFrom cfg name zone aliasRanges maxRetries fingerprint left).Calls
      fun op => isQuery op ∨ isPatch op := by
  induction left generalizing fingerprint with
  | zero => trivial
  | succ left ih =>
      refine .perform_bind (.inr trivial) fun resp => .ite ?_ (.ite ?_ trivial)
      · refine .bind (Prog.calls_ofExcept _) fun op => ?_
        cases nonempty? op.name with
        | none => trivial
        | some opName =>
            exact .perform_bind (.inl trivial) fun _ =>
              (pollZoneOp_calls ..).mono fun op h => .inl (isQuery_of_isPoll op h)
      · refine .perform_bind (.inl trivial) fun _ => ?_
        exact .bind ((getNic_calls ..).mono fun _ => .inl) fun nic => ih _

theorem verifyAlias_calls (name zone : String) :
    (verifyAlias cfg name zone).Calls fun op => isQuery op ∨ isPatch op :=
  .bind ((getNic_calls ..).mono fun _ => .inl) fun _ => trivial

theorem addAliasIp_calls (name zone : String) :
    (addAliasIp cfg name zone).Calls fun op => isQuery op ∨ isPatch op := by
  refine .bind ((getNic_calls ..).mono fun _ => .inl) fun nic => .ite trivial ?_
  exact .bind (patchFrom_calls ..) fun _ => verifyAlias_calls ..

theorem removeAliasIp_calls (name zone : String) :
    (removeAliasIp cfg name zone).Calls fun op => isQuery op ∨ isPatch op := by
  refine .bind ((getNic_calls ..).mono fun _ => .inl) fun nic => .ite trivial ?_
  exact .bind (patchFrom_calls ..) fun _ => verifyAlias_calls ..

theorem acquireVip_calls : (acquireVip cfg).Calls fun op => isQuery op ∨ isPatch op := by
  refine .bind (.bind ?_ fun present => .ite (removeAliasIp_calls ..) trivial)
    fun _ => addAliasIp_calls ..
  refine .bind ((getNic_calls ..).mono fun _ => .inl).attempt fun result => ?_
  cases result <;> trivial

end NetworkManager

/-- Every operation stays within its footprint. -/
theorem managers_calls (call : Call) : (managers cfg call).Calls (footprint call) := by
  match call with
  | .disk .currentRwHolder => exact DiskManager.currentRwHolder_calls cfg
  | .disk (.getInstanceStatus name zone) =>
      exact .bind (DiskManager.getInstance_calls ..).attempt fun result => by
        cases result <;> trivial
  | .disk .forceDetachFromPeer => exact DiskManager.forceDetachFromPeer_calls cfg
  | .disk .attachDiskRw => exact DiskManager.attachDiskRw_calls cfg
  | .disk .detachDisk => exact DiskManager.detachDisk_calls cfg
  | .disk .mountDisk => exact DiskManager.mountDisk_calls cfg
  | .disk .unmountDisk => exact DiskManager.unmountDisk_calls cfg
  | .disk .startPostgres => exact DiskManager.startPostgres_calls cfg
  | .disk (.stopPostgres mode) => exact DiskManager.stopPostgres_calls cfg mode
  | .net .acquireVip => exact NetworkManager.acquireVip_calls cfg
  | .net .releaseVip => exact NetworkManager.removeAliasIp_calls ..
  | .host call => exact Prog.Calls.perform rfl

/-! ## Who moves the disk -/

/-- Requests that attach or detach a disk. -/
def isMovePost (op : SysCall) : Prop := isAttachPost op ∨ isDetachPost op

theorem not_isMovePost_of_isQuery (op : SysCall) (h : isQuery op) : ¬ isMovePost op := by
  rcases op with (_ | _ | _ | _ | _ | _) | _ <;>
    simp_all [isQuery, isMovePost, isAttachPost, isDetachPost]

theorem not_isAttachPost_of_isQuery (op : SysCall) (h : isQuery op) : ¬ isAttachPost op :=
  fun hattach => not_isMovePost_of_isQuery op h (.inl hattach)

theorem not_isMovePost_of_footprint {call : Call} (h : ¬ call.movesDisk) (op : SysCall)
    (hop : footprint call op) : ¬ isMovePost op := by
  rcases op with (_ | _ | _ | _ | _ | _) | _ <;>
    try exact fun hmove => hmove.elim id id
  all_goals rcases call with (_ | _ | _ | _ | _ | _ | _ | _ | _) | (_ | _) | _ <;>
    simp_all [Call.movesDisk, footprint, isQuery, isLocal, isPatch]

/-- A program that does not move the disk sends no request to move it. -/
theorem lower_calls_not_move {α : Type} {program : Mgr α}
    (h : program.Calls fun call => ¬ call.movesDisk) :
    (program.lower (managers cfg)).Calls fun op => ¬ isMovePost op :=
  h.lower fun call hcall => (managers_calls cfg call).mono (not_isMovePost_of_footprint hcall)

theorem lower_calls_not_attach {α : Type} {program : Mgr α}
    (h : program.Calls fun call => ¬ call.movesDisk) :
    (program.lower (managers cfg)).Calls fun op => ¬ isAttachPost op :=
  (lower_calls_not_move cfg h).mono fun _ hmove hattach => hmove (.inl hattach)

end PgHa

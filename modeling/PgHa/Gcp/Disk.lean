import PgHa.Model.Interface

/-!
# `gcp/disk.py`: the disk manager

`DiskManager` over the requests of the Compute API and the commands of the
host.  Every method keeps the source's order of requests, its handlers and its
messages.
-/

namespace PgHa

open Effect

/-- `GCP operation … failed`, with the messages of its errors. -/
def operationFailed (opName : String) (errors : List (Option String)) : Exc :=
  let messages := "; ".intercalate (errors.map (·.getD ""))
  .runtimeError s!"GCP operation {opName} failed: {messages}"

/-- The loop of both managers' `_wait_zone_op`. -/
def pollZoneOp (cfg : Config) (opName zone : String) (pollInterval deadline : Int) :
    ℕ → Sys Unit
  | 0 => .stuck
  | fuel + 1 => do
      let now ← Sys.host .monotonic
      if now < deadline then
        let resp ← Sys.gcp (.getOperation cfg.gcp.projectId zone opName)
        let op ← Prog.ofExcept resp.checkedJson
        if op.status.getD "" = "DONE" then
          match op.error with
          | some errors => .raise (operationFailed opName errors)
          | none => pure ()
        else
          Sys.host (.sleep pollInterval)
          pollZoneOp cfg opName zone pollInterval deadline fuel
      else
        .raise (.timeoutError
          s!"GCP operation {opName} did not complete in {cfg.gcp.apiTimeout}s")

namespace DiskManager

variable (cfg : Config)

/-! ## Internal helpers -/

/-- The pattern by which an attached disk is recognised as the regional one. -/
def diskSuffix : String := "/disks/" ++ cfg.gcp.diskName

def diskSelfLink : String :=
  "https://www.googleapis.com/compute/v1/projects/" ++ cfg.gcp.projectId ++ "/regions/" ++
    cfg.gcp.region ++ "/disks/" ++ cfg.gcp.diskName

def zoneForInstance (name : String) : Option String :=
  if name = cfg.gcp.instancePrimary then some cfg.gcp.zonePrimary
  else if name = cfg.gcp.instanceStandby then some cfg.gcp.zoneStandby
  else none

/-- An entry of an instance's disks is the regional disk. -/
def isOurs (disk : AttachedDisk) : Bool := endswith (disk.source.getD "") (diskSuffix cfg)

/-- What is attached under the link of the configuration is recognised again. -/
theorem isOurs_diskSelfLink (mode deviceName : Option String) :
    isOurs cfg ⟨some (diskSelfLink cfg), mode, deviceName⟩ = true := by
  have hlink : diskSelfLink cfg =
      "https://www.googleapis.com/compute/v1/projects/" ++ cfg.gcp.projectId ++ "/regions/" ++
        cfg.gcp.region ++ diskSuffix cfg := by
    unfold diskSelfLink diskSuffix
    exact String.append_assoc
  rw [isOurs, hlink]
  exact endswith_append _ _

/-- An instance lists the regional disk in read-write mode. -/
def showsRw (inst : Instance) : Bool :=
  inst.disks.any fun disk => isOurs cfg disk && disk.mode == some "READ_WRITE"

/-- GET an instance, raise for its status and parse it. -/
def getInstance (name zone : String) : Sys Instance := do
  let resp ← Sys.gcp (.getInstance cfg.gcp.projectId zone name)
  .ofExcept resp.checkedJson

theorem attempt_getInstance (name zone : String) : (getInstance cfg name zone).attempt =
    .call (.gcp (.getInstance cfg.gcp.projectId zone name)) fun answer =>
      .pure (Response.fetched answer) := by
  refine congrArg (Prog.call _) (funext fun answer => ?_)
  rcases answer with exc | resp
  · rfl
  · simp only [Prog.ofExcept, Prog.pure_bind, Response.fetched_ok]
    cases resp.checkedJson <;> rfl

def lookupDeviceName (name zone : String) : Sys (Option String) := do
  match ← (getInstance cfg name zone).attempt with
  | .ok inst => pure ((inst.disks.find? (isOurs cfg)).bind (·.deviceName))
  | .error _ => pure none

def waitZoneOp (opName zone : String) : Sys Unit := do
  let now ← Sys.host .monotonic
  pollZoneOp cfg opName zone 2000 (now + 1000 * cfg.gcp.apiTimeout) cfg.loopBound

/-- Wait for the operation that an answer names, if it names one. -/
def awaitNamed (zone : String) (op : Operation) : Sys Unit :=
  match nonempty? op.name with
  | some opName => waitZoneOp cfg opName zone
  | none => pure ()

/-! ## Disk state queries -/

/-- The loop of `get_disk_state` over the disks of this node. -/
def stateAmong : List AttachedDisk → DiskState
  | [] => .detached
  | disk :: rest =>
      if isOurs cfg disk then
        if disk.mode.getD "" = "READ_WRITE" then .attachedRw
        else if disk.mode.getD "" = "READ_ONLY" then .attachedRo
        else stateAmong rest
      else stateAmong rest

def getDiskState : Sys DiskState := do
  match ← (getInstance cfg cfg.cluster.nodeName cfg.myZone).attempt with
  | .ok inst => pure (stateAmong cfg inst.disks)
  | .error _ => pure .unknown

/-- The loop of `current_rw_holder` over the disk's users. -/
def holderAmong : List String → Sys (Option String)
  | [] => pure none
  | userUrl :: rest =>
      let name := lastSegment userUrl
      match zoneForInstance cfg name with
      | none => holderAmong rest
      | some zone => do
          match ← (getInstance cfg name zone).attempt with
          | .ok inst => if showsRw cfg inst then pure (some name) else holderAmong rest
          | .error _ => holderAmong rest

def getDisk : Sys Disk := do
  let resp ← Sys.gcp (.getDisk cfg.gcp.projectId cfg.gcp.region cfg.gcp.diskName)
  .ofExcept resp.checkedJson

theorem attempt_getDisk : (getDisk cfg).attempt =
    .call (.gcp (.getDisk cfg.gcp.projectId cfg.gcp.region cfg.gcp.diskName)) fun answer =>
      .pure (Response.fetched answer) := by
  refine congrArg (Prog.call _) (funext fun answer => ?_)
  rcases answer with exc | resp
  · rfl
  · simp only [Prog.ofExcept, Prog.pure_bind, Response.fetched_ok]
    cases resp.checkedJson <;> rfl

def currentRwHolder : Sys (Option String) := do
  match ← (getDisk cfg).attempt with
  | .ok disk => holderAmong cfg disk.users
  | .error _ => pure none

def getInstanceStatus (name zone : String) : Sys String := do
  match ← (getInstance cfg name zone).attempt with
  | .ok inst => pure (inst.status.getD "UNKNOWN")
  | .error _ => pure "UNKNOWN"

/-! ## Disk operations -/

/-- The part of `force_detach_from_peer` under `try`. -/
def requestForceDetach (devName : String) : Sys Unit := do
  let zone := cfg.peerZone
  let resp ← Sys.gcp (.detachDisk cfg.gcp.projectId zone cfg.cluster.peerNode devName)
  if resp.statusCode = 200 ∨ resp.statusCode = 204 then
    let op ← Prog.ofExcept resp.json
    awaitNamed cfg zone op
  else if resp.statusCode = 400 ∨ resp.statusCode = 404 then
    pure ()
  else
    .raise (.runtimeError
      s!"force_detach_from_peer failed (HTTP {resp.statusCode}): {resp.text}")

def forceDetachFromPeer : Sys Unit := do
  match ← lookupDeviceName cfg cfg.cluster.peerNode cfg.peerZone with
  | none => pure ()
  | some devName =>
      (requestForceDetach cfg devName).except fun exc =>
        if exc.isRequestException then pure () else .raise exc

def attachPayload : AttachPayload where
  source := diskSelfLink cfg
  mode := "READ_WRITE"
  autoDelete := false
  deviceName := cfg.gcp.diskDeviceName

/-- The part of `attach_disk_rw` under `try`. -/
def requestAttach : Sys Unit := do
  let resp ← Sys.gcp
    (.attachDisk cfg.gcp.projectId cfg.myZone cfg.cluster.nodeName (attachPayload cfg))
  if resp.statusCode ≠ 200 then
    .raise (.runtimeError s!"attachDisk failed (HTTP {resp.statusCode}): {resp.text}")
  else
    let op ← Prog.ofExcept resp.json
    awaitNamed cfg cfg.myZone op

def attachDiskRw : Sys Unit := do
  let holder ← currentRwHolder cfg
  if holder = some cfg.cluster.nodeName then
    pure ()
  else
    (requestAttach cfg).except fun exc =>
      if exc.isRequestException then
        .raise (.runtimeError s!"attach_disk_rw failed for {cfg.cluster.nodeName}: {exc.message}")
      else .raise exc

/-- The part of `detach_disk` under `try`. -/
def requestDetach (devName : String) : Sys Unit := do
  let resp ← Sys.gcp
    (.detachDisk cfg.gcp.projectId cfg.myZone cfg.cluster.nodeName devName)
  if resp.statusCode ≠ 200 then
    .raise (.runtimeError s!"detachDisk failed (HTTP {resp.statusCode}): {resp.text}")
  else
    let op ← Prog.ofExcept resp.json
    awaitNamed cfg cfg.myZone op

def detachDisk : Sys Unit := do
  match ← lookupDeviceName cfg cfg.cluster.nodeName cfg.myZone with
  | none => pure ()
  | some devName =>
      (requestDetach cfg devName).except fun exc =>
        if exc.isRequestException then
          .raise (.runtimeError s!"detach_disk failed for {cfg.cluster.nodeName}: {exc.message}")
        else .raise exc

/-! ## Filesystem operations -/

/-- A line of `/proc/mounts` has the mount point as its second field. -/
def mountsAt (mountPt line : String) : Bool := (split line)[1]? == some mountPt

def isMounted (mountPt : String) : Sys Bool := do
  let lines ← Sys.host .readMounts
  pure (lines.any (mountsAt mountPt))

def isMountHealthy (mountPt : String) : Sys Bool := do
  match ← (Sys.host (.listdir mountPt)).attempt with
  | .ok _ => pure true
  | .error exc => if exc.isOSError then pure false else .raise exc

/-- The loop of `_wait_for_device`; `timeout` is in seconds. -/
def pollDevice (devPath : String) (timeout deadline : Int) : ℕ → Sys Unit
  | 0 => .stuck
  | fuel + 1 => do
      let now ← Sys.host .monotonic
      if now < deadline then
        if ← Sys.host (.pathExists devPath) then
          pure ()
        else
          Sys.host (.sleep 1000)
          pollDevice devPath timeout deadline fuel
      else
        .raise (.timeoutError s!"Device {devPath} did not appear within {timeout}s")

def waitForDevice (devPath : String) (timeout : Int) : Sys Unit := do
  let now ← Sys.host .monotonic
  pollDevice devPath timeout (now + 1000 * timeout) cfg.loopBound

def devPath : String := "/dev/disk/by-id/google-" ++ cfg.gcp.diskDeviceName

/-- The part of `mount_disk` that runs when nothing healthy is mounted. -/
def mountDevice : Sys Unit := do
  let mountPt := cfg.gcp.diskMountPoint
  let device := devPath cfg
  if !(← Sys.host (.pathExists mountPt)) then
    let result ← Sys.host (.run (.mkdir mountPt))
    if result.returncode ≠ 0 then
      let text := strip result.stderr
      Prog.raise (.runtimeError s!"mkdir -p {mountPt} failed: {text}")
  let result ← Sys.host (.run (.mount device mountPt))
  if result.returncode ≠ 0 then
    let text := strip result.stderr
    Prog.raise (.runtimeError s!"mount {device} {mountPt} failed: {text}")

def mountDisk : Sys Unit := do
  let mountPt := cfg.gcp.diskMountPoint
  waitForDevice cfg (devPath cfg) 30
  if ← isMounted mountPt then
    if ← isMountHealthy mountPt then
      pure ()
    else
      -- the outcome of the forced unmount is only logged
      let _ ← (Sys.host (.run (.umount true mountPt))).attempt
      mountDevice cfg
  else
    mountDevice cfg

def unmountDisk : Sys Unit := do
  let mountPt := cfg.gcp.diskMountPoint
  if ← isMounted mountPt then
    let result ← Sys.host (.run (.umount false mountPt))
    if result.returncode = 0 then
      pure ()
    else
      let resultLazy ← Sys.host (.run (.umount true mountPt))
      if resultLazy.returncode ≠ 0 then
        let text := strip resultLazy.stderr
        .raise (.runtimeError s!"umount -f -l failed: {text}")
      else pure ()
  else
    pure ()

/-! ## PostgreSQL start and stop -/

def pgIsRunning : Sys Bool := do
  let pg := cfg.postgresql
  match ← (Sys.host (.run (.pgCtlStatus pg.pgOsUser pg.pgCtl pg.dataDir))).attempt with
  | .ok result => pure (result.returncode == 0)
  | .error _ => pure false

def startPostgres : Sys Unit := do
  let pg := cfg.postgresql
  if ← pgIsRunning cfg then
    pure ()
  else
    let result ← Sys.host
      (.run (.pgCtlStart pg.pgOsUser pg.pgCtl pg.dataDir pg.pgStartTimeout))
    if result.returncode ≠ 0 then
      let text := (nonempty? (some (strip result.stderr))).getD "(no output)"
      .raise (.runtimeError s!"pg_ctl start failed (exit code {result.returncode}): {text}")
    else pure ()

/-- A non-zero exit code of `pg_ctl stop` is only logged. -/
def stopPostgres (mode : StopMode) : Sys Unit := do
  let pg := cfg.postgresql
  let _ ← Sys.host (.run (.pgCtlStop pg.pgOsUser pg.pgCtl pg.dataDir mode pg.pgStopTimeout))
  pure ()

end DiskManager

end PgHa

import PgHa.Gcp.Disk

/-!
# `gcp/network.py`: the network manager

`NetworkManager` over the requests of the Compute API: moving the alias address
of the cluster between the interfaces of the two instances.
-/

namespace PgHa.NetworkManager

open Effect

variable (cfg : Config)

/-- The CIDRs of an interface's alias list, entry by entry. -/
def cidrs (nic : Nic) : List (Option String) := nic.aliasIpRanges.map (·.ipCidrRange)

/-! ## Interface helpers -/

def getInstanceJson (name zone : String) : Sys Instance := do
  let resp ← Sys.gcp (.getInstance cfg.gcp.projectId zone name)
  .ofExcept resp.checkedJson

def getNic (name zone : String) : Sys Nic := do
  let inst ← getInstanceJson cfg name zone
  match inst.networkInterfaces.find? (·.name == some cfg.gcp.nicName) with
  | some nic => pure nic
  | none => .raise (.runtimeError s!"NIC '{cfg.gcp.nicName}' not found on {name}")

/-- The interface that an answer to the request for the instance shows. -/
def nicIn (name nicName : String) (answer : Except Exc (Response Instance)) : Except Exc Nic :=
  (Response.fetched answer).bind fun inst =>
    match inst.networkInterfaces.find? (·.name == some nicName) with
    | some nic => .ok nic
    | none => .error (.runtimeError s!"NIC '{nicName}' not found on {name}")

/-- Fetching the interface is one request. -/
theorem getNic_eq_call (name zone : String) :
    getNic cfg name zone = .call (.gcp (.getInstance cfg.gcp.projectId zone name)) fun answer =>
      .ofExcept (nicIn name cfg.gcp.nicName answer) := by
  refine congrArg (Prog.call _) (funext fun answer => ?_)
  cases answer with
  | error exc => rfl
  | ok resp =>
      simp only [nicIn, Response.fetched_ok, Prog.ofExcept, Prog.pure_bind]
      cases resp.checkedJson with
      | error exc => rfl
      | ok inst =>
          simp only [Prog.pure_bind, Except.bind]
          cases inst.networkInterfaces.find? (·.name == some cfg.gcp.nicName) <;> rfl

def hasAliasIp (name zone : String) : Sys Bool := do
  match ← (getNic cfg name zone).attempt with
  | .ok nic => pure (decide (some cfg.gcp.vipCidr ∈ cidrs nic))
  | .error _ => pure false

/-! ## Changing the alias list -/

def waitZoneOp (opName zone : String) : Sys Unit := do
  let now ← Sys.host .monotonic
  pollZoneOp cfg opName zone 3000 (now + 1000 * cfg.gcp.apiTimeout) cfg.loopBound

/-- The loop of `_patch_nic_aliases`, with as many attempts left as the last
argument says.  A retry fetches the interface again, and takes over its
fingerprint only. -/
def patchFrom (name zone : String) (aliasRanges : List (Option String)) (maxRetries : ℕ)
    (fingerprint : String) : ℕ → Sys Unit
  | 0 => pure ()
  | left + 1 => do
      let attempt := maxRetries - left
      let resp ← Sys.gcp (.updateNetworkInterface cfg.gcp.projectId zone name cfg.gcp.nicName
        ⟨aliasRanges, fingerprint⟩)
      if resp.statusCode = 200 then
        let op ← Prog.ofExcept resp.json
        match nonempty? op.name with
        | some opName => waitZoneOp cfg opName zone
        | none => pure ()
      else if (resp.statusCode = 409 ∨ resp.statusCode = 412 ∨ resp.statusCode = 429) ∧
          attempt < maxRetries then
        Sys.host (.sleep (2000 * attempt))
        let freshNic ← getNic cfg name zone
        patchFrom name zone aliasRanges maxRetries (freshNic.fingerprint.getD "") left
      else
        .raise (.runtimeError
          s!"PATCH updateNetworkInterface failed (HTTP {resp.statusCode}): {resp.text}")

def patchNicAliases (name zone : String) (nic : Nic) (aliasRanges : List (Option String)) :
    Sys Unit :=
  patchFrom cfg name zone aliasRanges 3 (nic.fingerprint.getD "") 3

/-- `_verify_alias_present` and `_verify_alias_absent`: both fetch the interface
and only log what they find. -/
def verifyAlias (name zone : String) : Sys Unit := do
  let _ ← getNic cfg name zone
  pure ()

def verifyAliasPresent (name zone : String) : Sys Unit := verifyAlias cfg name zone

def verifyAliasAbsent (name zone : String) : Sys Unit := verifyAlias cfg name zone

def addAliasIp (name zone : String) : Sys Unit := do
  let nic ← getNic cfg name zone
  let vipCidr := cfg.gcp.vipCidr
  let existing := cidrs nic
  if some vipCidr ∈ existing then
    pure ()
  else
    patchNicAliases cfg name zone nic (existing ++ [some vipCidr])
    verifyAliasPresent cfg name zone

def removeAliasIp (name zone : String) : Sys Unit := do
  let nic ← getNic cfg name zone
  let vipCidr := cfg.gcp.vipCidr
  let existing := cidrs nic
  if some vipCidr ∉ existing then
    pure ()
  else
    patchNicAliases cfg name zone nic (existing.filter (· ≠ some vipCidr))
    verifyAliasAbsent cfg name zone

/-! ## Moving the address -/

def releaseVip : Sys Unit := removeAliasIp cfg cfg.cluster.nodeName cfg.myZone

def releaseVipFromPeer : Sys Unit := do
  if ← hasAliasIp cfg cfg.cluster.peerNode cfg.peerZone then
    removeAliasIp cfg cfg.cluster.peerNode cfg.peerZone

def acquireVip : Sys Unit := do
  releaseVipFromPeer cfg
  addAliasIp cfg cfg.cluster.nodeName cfg.myZone

end PgHa.NetworkManager

namespace PgHa

open Effect

/-- The operations of the election, the engines and the daemon, implemented by
the two managers. -/
def managers (cfg : Config) : (call : Call) → Sys call.Ret
  | .disk .currentRwHolder => DiskManager.currentRwHolder cfg
  | .disk (.getInstanceStatus name zone) => DiskManager.getInstanceStatus cfg name zone
  | .disk .forceDetachFromPeer => DiskManager.forceDetachFromPeer cfg
  | .disk .attachDiskRw => DiskManager.attachDiskRw cfg
  | .disk .detachDisk => DiskManager.detachDisk cfg
  | .disk .mountDisk => DiskManager.mountDisk cfg
  | .disk .unmountDisk => DiskManager.unmountDisk cfg
  | .disk .startPostgres => DiskManager.startPostgres cfg
  | .disk (.stopPostgres mode) => DiskManager.stopPostgres cfg mode
  | .net .acquireVip => NetworkManager.acquireVip cfg
  | .net .releaseVip => NetworkManager.releaseVip cfg
  | .host call => Sys.host call

end PgHa

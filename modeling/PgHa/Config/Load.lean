import PgHa.Model.Interface
import PgHa.Text.IniDocument

/-!
# `config.py`: the configuration file

`load` with every section and every default, over the reader of `Text/Ini.lean`.
What it uses of the standard library besides (`str.lower`, `int`, `float`) is a
`Stdlib`.  A key without a default that is missing is `None`, and no error.

The other modules read a part of the configuration only; `Config.view` is that
part.
-/

namespace PgHa.ConfigFile

open Ini

structure Stdlib where
  /-- `text.lower()`. -/
  lower : List Char → List Char
  /-- `int(text)`, which raises `ValueError` or nothing. -/
  intOfText : String → Option Int
  /-- `float(text)`, which raises `ValueError` or nothing. -/
  floatOfText : String → Option Real
  /-- `str(number)`. -/
  strFloat : Real → String

/-- `configparser.ConfigParser(inline_comment_prefixes=("#", ";"))`. -/
def dialect (std : Stdlib) : Dialect where
  space := isSpace
  prefixes := ['#', ';']
  delimiters := ['=', ':']
  lower := std.lower

/-! ## The sections -/

structure ClusterCfg where
  name : Option String
  nodeName : Option String
  peerNode : Option String
  peerIp : Option String
  heartbeatPort : Int
  peerPort : Int
  heartbeatInterval : Real
  deadInterval : Real
  quorumTimeout : Real
  fenceWait : Real
  peerAuthToken : String
  maintenanceFile : String
  deriving DecidableEq

structure GcpCfg where
  projectId : Option String
  region : Option String
  zonePrimary : Option String
  zoneStandby : Option String
  diskName : Option String
  diskDeviceName : Option String
  diskMountPoint : Option String
  diskFsType : String
  instancePrimary : Option String
  instanceStandby : Option String
  nicName : String
  vipAddress : Option String
  vipCidr : Option String
  serviceAccountKey : Option String
  apiTimeout : Int
  deriving DecidableEq

structure PostgreSQLCfg where
  host : String
  port : Int
  user : String
  database : String
  dataDir : Option String
  pgCtl : String
  pgIsready : String
  pgOsUser : String
  pgStartTimeout : Int
  pgStopTimeout : Int
  deriving DecidableEq

structure MonitorCfg where
  checkInterval : Real
  pgResponseTimeout : Real
  pgFailThreshold : Int
  osCpuThreshold : Real
  osMemThreshold : Real
  osDiskThreshold : Real
  osFailCount : Int
  deriving DecidableEq

structure LoggingCfg where
  level : String
  file : String
  maxBytes : Int
  backupCount : Int
  deriving DecidableEq

structure ApiCfg where
  socketPath : String
  deriving DecidableEq

structure EfmCfg where
  enabled : Bool
  serviceName : String
  deriving DecidableEq

structure Config where
  cluster : ClusterCfg
  gcp : GcpCfg
  postgresql : PostgreSQLCfg
  monitor : MonitorCfg
  logging : LoggingCfg
  api : ApiCfg
  efm : EfmCfg
  deriving DecidableEq

/-! ## `load` -/

/-- What is at a path: a file that cannot be opened is read as an empty one. -/
inductive OnDisk
  | missing
  | unreadable
  | text (text : String)

inductive LoadError
  /-- `FileNotFoundError` -/
  | notFound (message : String)
  /-- `configparser.Error` -/
  | parser (fault : Fault)
  /-- `ValueError` of `int` or `float` -/
  | value (text : String)
  deriving DecidableEq

/-- `p.read(path)` -/
def readFile (std : Stdlib) : OnDisk → Except LoadError Dialect.File
  | .missing | .unreadable => .ok ⟨[], []⟩
  | .text text => ((dialect std).read ((linesOf text).map (·.toList))).mapError .parser

section Get

variable (std : Stdlib) (file : Dialect.File) (section' key : String)

/-- `_get` without a fallback. -/
def get? : Except LoadError (Option String) :=
  ((file.get (dialect std) section'.toList key.toList).map
    fun value => value.map String.ofList).mapError .parser

/-- `_get` with a text to fall back to. -/
def get (fallback : String) : Except LoadError String := do
  let value ← get? std file section' key
  pure (value.getD fallback)

/-- `int(_get(…))` -/
def getInt (fallback : Int) : Except LoadError Int := do
  match ← get? std file section' key with
  | none => pure fallback
  | some text =>
      match std.intOfText text with
      | some value => pure value
      | none => .error (.value text)

/-- `float(_get(…))` -/
def getFloat (fallback : Real) : Except LoadError Real := do
  match ← get? std file section' key with
  | none => pure fallback
  | some text =>
      match std.floatOfText text with
      | some value => pure value
      | none => .error (.value text)

end Get

section Sections

variable (std : Stdlib) (file : Dialect.File)

def clusterCfg : Except LoadError ClusterCfg := do
  let name ← get? std file "cluster" "name"
  let nodeName ← get? std file "cluster" "node_name"
  let peerNode ← get? std file "cluster" "peer_node"
  let peerIp ← get? std file "cluster" "peer_ip"
  let heartbeatPort ← getInt std file "cluster" "heartbeat_port" 7777
  let peerPort ← getInt std file "cluster" "peer_port" 7778
  let heartbeatInterval ← getFloat std file "cluster" "heartbeat_interval" (.finite 1)
  let deadInterval ← getFloat std file "cluster" "dead_interval" (.finite 5)
  let quorumTimeout ← getFloat std file "cluster" "quorum_timeout" (.finite 10)
  let fenceWait ← getFloat std file "cluster" "fence_wait" (.finite 8)
  let peerAuthToken ← get std file "cluster" "peer_auth_token" ""
  let maintenanceFile ← get std file "cluster" "maintenance_file" "/var/run/pgha/maintenance"
  pure
    { name, nodeName, peerNode, peerIp, heartbeatPort, peerPort, heartbeatInterval, deadInterval,
      quorumTimeout, fenceWait, peerAuthToken, maintenanceFile }

/-- The key is read before the section. -/
def gcpCfg : Except LoadError GcpCfg := do
  let sak ← get std file "gcp" "service_account_key" ""
  let projectId ← get? std file "gcp" "project_id"
  let region ← get? std file "gcp" "region"
  let zonePrimary ← get? std file "gcp" "zone_primary"
  let zoneStandby ← get? std file "gcp" "zone_standby"
  let diskName ← get? std file "gcp" "disk_name"
  let diskDeviceName ← get? std file "gcp" "disk_device_name"
  let diskMountPoint ← get? std file "gcp" "disk_mount_point"
  let diskFsType ← get std file "gcp" "disk_fs_type" "xfs"
  let instancePrimary ← get? std file "gcp" "instance_primary"
  let instanceStandby ← get? std file "gcp" "instance_standby"
  let nicName ← get std file "gcp" "nic_name" "nic0"
  let vipAddress ← get? std file "gcp" "vip_address"
  let vipCidr ← get? std file "gcp" "vip_cidr"
  let apiTimeout ← getInt std file "gcp" "api_timeout" 120
  pure
    { projectId, region, zonePrimary, zoneStandby, diskName, diskDeviceName, diskMountPoint,
      diskFsType, instancePrimary, instanceStandby, nicName, vipAddress, vipCidr,
      serviceAccountKey := nonempty? (some (strip sak)), apiTimeout }

def postgresqlCfg : Except LoadError PostgreSQLCfg := do
  let host ← get std file "postgresql" "host" "/var/run/edb/as15"
  let port ← getInt std file "postgresql" "port" 5444
  let user ← get std file "postgresql" "user" "enterprisedb"
  let database ← get std file "postgresql" "database" "edb"
  let dataDir ← get? std file "postgresql" "data_dir"
  let pgCtl ← get std file "postgresql" "pg_ctl" "/usr/edb/as15/bin/pg_ctl"
  let pgIsready ← get std file "postgresql" "pg_isready" "/usr/edb/as15/bin/pg_isready"
  let pgOsUser ← get std file "postgresql" "pg_os_user" "enterprisedb"
  let pgStartTimeout ← getInt std file "postgresql" "pg_start_timeout" 60
  let pgStopTimeout ← getInt std file "postgresql" "pg_stop_timeout" 30
  pure
    { host, port, user, database, dataDir, pgCtl, pgIsready, pgOsUser, pgStartTimeout,
      pgStopTimeout }

def monitorCfg : Except LoadError MonitorCfg := do
  let checkInterval ← getFloat std file "monitor" "check_interval" (.finite 2)
  let pgResponseTimeout ← getFloat std file "monitor" "pg_response_timeout" (.finite 5)
  let pgFailThreshold ← getInt std file "monitor" "pg_fail_threshold" 3
  let osCpuThreshold ← getFloat std file "monitor" "os_cpu_threshold" (.finite 95)
  let osMemThreshold ← getFloat std file "monitor" "os_mem_threshold" (.finite 95)
  let osDiskThreshold ← getFloat std file "monitor" "os_disk_threshold" (.finite 90)
  let osFailCount ← getInt std file "monitor" "os_fail_count" 5
  pure
    { checkInterval, pgResponseTimeout, pgFailThreshold, osCpuThreshold, osMemThreshold,
      osDiskThreshold, osFailCount }

def loggingCfg : Except LoadError LoggingCfg := do
  let level ← get std file "logging" "level" "INFO"
  let logFile ← get std file "logging" "file" "/var/log/pgha/pgha.log"
  let maxBytes ← getInt std file "logging" "max_bytes" 104857600
  let backupCount ← getInt std file "logging" "backup_count" 10
  pure { level, file := logFile, maxBytes, backupCount }

def defaultSocketPath : String := "/var/run/pgha/pgha.sock"

def apiCfg : Except LoadError ApiCfg := do
  let socketPath ← get std file "api" "socket_path" defaultSocketPath
  pure { socketPath }

/-- `text.lower() in ("true", "1", "yes")` -/
def saysYes (text : String) : Bool :=
  String.ofList (std.lower text.toList) ∈ ["true", "1", "yes"]

def efmCfg : Except LoadError EfmCfg := do
  let enabled ← get std file "efm" "enabled" "false"
  let serviceName ← get std file "efm" "service_name" "edb-efm-4.7"
  pure { enabled := saysYes std enabled, serviceName }

def configOf : Except LoadError Config := do
  let cluster ← clusterCfg std file
  let gcp ← gcpCfg std file
  let postgresql ← postgresqlCfg std file
  let monitor ← monitorCfg std file
  let logging ← loggingCfg std file
  let api ← apiCfg std file
  let efm ← efmCfg std file
  pure { cluster, gcp, postgresql, monitor, logging, api, efm }

end Sections

def load (std : Stdlib) (path : String) : OnDisk → Except LoadError Config
  | .missing => .error (.notFound s!"pgha config not found: {path}")
  | onDisk => do
      let file ← readFile std onDisk
      configOf std file

/-- `_socket_from_config` of `pgha-ctl`, which reads the same file. -/
def socketFromConfig (std : Stdlib) (onDisk : OnDisk) : Except LoadError String := do
  let file ← readFile std onDisk
  get std file "api" "socket_path" defaultSocketPath

theorem exists_of_bind_ok {ε α β : Type} {result : Except ε α} {next : α → Except ε β} {value : β}
    (h : (result >>= next) = .ok value) : ∃ first, result = .ok first ∧ next first = .ok value := by
  cases result with
  | error _ => cases h
  | ok first => exact ⟨first, rfl, h⟩

theorem apiCfg_of_configOf {std : Stdlib} {file : Dialect.File} {cfg : Config}
    (h : configOf std file = .ok cfg) : apiCfg std file = .ok cfg.api := by
  obtain ⟨cluster, -, h⟩ := exists_of_bind_ok h
  obtain ⟨gcp, -, h⟩ := exists_of_bind_ok h
  obtain ⟨postgresql, -, h⟩ := exists_of_bind_ok h
  obtain ⟨monitor, -, h⟩ := exists_of_bind_ok h
  obtain ⟨logging, -, h⟩ := exists_of_bind_ok h
  obtain ⟨api, hapi, h⟩ := exists_of_bind_ok h
  obtain ⟨efm, -, h⟩ := exists_of_bind_ok h
  cases h
  exact hapi

/-- On a file that the daemon loads, `pgha-ctl` connects to the socket that the daemon binds. -/
theorem socketFromConfig_of_load {std : Stdlib} {path : String} {onDisk : OnDisk} {cfg : Config}
    (h : load std path onDisk = .ok cfg) :
    socketFromConfig std onDisk = .ok cfg.api.socketPath := by
  cases onDisk with
  | missing => cases h
  | unreadable | text content =>
      obtain ⟨file, hread, hconfig⟩ := exists_of_bind_ok h
      obtain ⟨socketPath, hget, hapi⟩ := exists_of_bind_ok (apiCfg_of_configOf hconfig)
      rw [socketFromConfig, hread, ← Except.ok.inj hapi]
      exact hget

/-! ## What the other modules read of it -/

/-- A number of seconds, in milliseconds, when it is a whole number of them. -/
def millis : Real → Option Int
  | .finite seconds => if (seconds * 1000).den = 1 then some (seconds * 1000).num else none
  | _ => none

def natural (value : Int) : Option ℕ := if 0 ≤ value then some value.toNat else none

/-- The configuration as the other modules have it; there is none when a name is missing or a
number is not of the kind that the daemon needs. -/
def Config.view (cfg : Config) (loopBound : ℕ) : Option PgHa.Config := do
  let nodeName ← cfg.cluster.nodeName
  let peerNode ← cfg.cluster.peerNode
  let peerIp ← cfg.cluster.peerIp
  let peerPort ← natural cfg.cluster.peerPort
  let deadInterval ← millis cfg.cluster.deadInterval
  let fenceWait ← millis cfg.cluster.fenceWait
  let projectId ← cfg.gcp.projectId
  let region ← cfg.gcp.region
  let zonePrimary ← cfg.gcp.zonePrimary
  let zoneStandby ← cfg.gcp.zoneStandby
  let diskName ← cfg.gcp.diskName
  let diskDeviceName ← cfg.gcp.diskDeviceName
  let diskMountPoint ← cfg.gcp.diskMountPoint
  let instancePrimary ← cfg.gcp.instancePrimary
  let instanceStandby ← cfg.gcp.instanceStandby
  let vipAddress ← cfg.gcp.vipAddress
  let vipCidr ← cfg.gcp.vipCidr
  let port ← natural cfg.postgresql.port
  let dataDir ← cfg.postgresql.dataDir
  let pgStartTimeout ← natural cfg.postgresql.pgStartTimeout
  let pgStopTimeout ← natural cfg.postgresql.pgStopTimeout
  let pgFailThreshold ← natural cfg.monitor.pgFailThreshold
  pure
    { cluster :=
        { nodeName, peerNode, peerIp, peerPort, deadInterval, fenceWait,
          peerAuthToken := cfg.cluster.peerAuthToken,
          maintenanceFile := cfg.cluster.maintenanceFile }
      gcp :=
        { projectId, region, zonePrimary, zoneStandby, diskName, diskDeviceName, diskMountPoint,
          instancePrimary, instanceStandby, nicName := cfg.gcp.nicName, vipAddress, vipCidr,
          apiTimeout := cfg.gcp.apiTimeout }
      postgresql :=
        { port, dataDir, pgCtl := cfg.postgresql.pgCtl, pgOsUser := cfg.postgresql.pgOsUser,
          pgStartTimeout, pgStopTimeout }
      monitor := { pgFailThreshold }
      efm := { enabled := cfg.efm.enabled, serviceName := cfg.efm.serviceName }
      loopBound }

end PgHa.ConfigFile

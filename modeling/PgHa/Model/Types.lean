import Mathlib.Data.List.Basic
import Mathlib.Tactic.Common

/-!
# Data of the daemon

The enumerations and records of `models.py`, the configuration of `config.py`
as far as the modelled functions read it, the JSON objects of the Compute API
that the managers look into, and the exceptions the code tells apart.

Times are integers in milliseconds; strings are compared character by
character through `endswith` and `lastSegment`.
-/

namespace PgHa

/-! ## `models.py` -/

inductive NodeRole
  | primary
  | standby
  | unknown
  deriving DecidableEq, Repr

inductive NodeHealth
  | healthy
  | degraded
  | failed
  | fenced
  | unknown
  deriving DecidableEq, Repr

inductive PgState
  | runningPrimary
  | runningStandby
  | stopped
  | starting
  | stopping
  | crashed
  | unknown
  deriving DecidableEq, Repr

inductive DiskState
  | attachedRw
  | attachedRo
  | detached
  | unknown
  deriving DecidableEq, Repr

inductive HaEventType
  | peerDead
  | peerRecovered
  | pgFailed
  | pgRecovered
  | failoverStarted
  | failoverCompleted
  | failoverFailed
  | switchoverStarted
  | switchoverCompleted
  | switchoverFailed
  | diskAttached
  | diskDetached
  | vipAcquired
  | vipReleased
  | nodeFenced
  | roleChanged
  deriving DecidableEq, Repr

structure HaEvent where
  eventType : HaEventType
  node : String
  message : String
  deriving DecidableEq, Repr

/-- The state of a single node, this one or the peer. -/
structure NodeState where
  name : String
  role : NodeRole := .unknown
  health : NodeHealth := .unknown
  pgState : PgState := .unknown
  diskState : DiskState := .unknown
  lastHeartbeatTs : Int := 0
  heartbeatSeq : Int := 0
  deriving DecidableEq, Repr

/-- A heartbeat.  `node` is its sender's name, when that is a text, and `nodeText` how
Python prints it; the time it was sent is checked but not used. -/
structure HeartbeatMsg where
  node : Option String
  nodeText : String
  role : NodeRole
  seq : Int
  pgState : PgState
  diskState : DiskState
  nodeHealth : NodeHealth
  deriving DecidableEq, Repr

structure PgHealthSnapshot where
  ok : Bool
  state : PgState
  deriving DecidableEq, Repr

structure OsHealthSnapshot where
  degraded : Bool
  deriving DecidableEq, Repr

/-! ## `config.py` -/

structure ClusterCfg where
  nodeName : String
  peerNode : String
  peerIp : String
  peerPort : ℕ
  deadInterval : Int
  fenceWait : Int
  peerAuthToken : String
  maintenanceFile : String

structure GcpCfg where
  projectId : String
  region : String
  zonePrimary : String
  zoneStandby : String
  diskName : String
  diskDeviceName : String
  diskMountPoint : String
  instancePrimary : String
  instanceStandby : String
  nicName : String
  vipAddress : String
  vipCidr : String
  /-- In seconds, as in the file. -/
  apiTimeout : Int

structure PostgreSQLCfg where
  port : ℕ
  dataDir : String
  pgCtl : String
  pgOsUser : String
  pgStartTimeout : ℕ
  pgStopTimeout : ℕ

structure MonitorCfg where
  pgFailThreshold : ℕ

structure EfmCfg where
  enabled : Bool
  serviceName : String

/-- The configuration of one node.  `loopBound` is not in the file: it is the
number of passes that the model follows through a loop without a bound of its
own, and every result holds for each value of it. -/
structure Config where
  cluster : ClusterCfg
  gcp : GcpCfg
  postgresql : PostgreSQLCfg
  monitor : MonitorCfg
  efm : EfmCfg
  loopBound : ℕ

namespace Config

def myZone (cfg : Config) : String :=
  if cfg.cluster.nodeName = cfg.gcp.instancePrimary then cfg.gcp.zonePrimary
  else cfg.gcp.zoneStandby

def peerZone (cfg : Config) : String :=
  if cfg.cluster.nodeName = cfg.gcp.instancePrimary then cfg.gcp.zoneStandby
  else cfg.gcp.zonePrimary

end Config

/-- The two nodes of a cluster. -/
inductive Site
  | primary
  | standby
  deriving DecidableEq, Repr

/-- The peer of a node. -/
def Site.other : Site → Site
  | .primary => .standby
  | .standby => .primary

theorem Site.other_other (site : Site) : site.other.other = site := by cases site <;> rfl

theorem Site.other_ne (site : Site) : site.other ≠ site := by
  cases site <;> simp [other]

theorem Site.eq_other {site site' : Site} (h : site ≠ site') : site = site'.other := by
  cases site <;> cases site' <;> simp_all [other]

/-- The configurations of the two nodes of a cluster: they agree but for which
of the two configured instances is the node itself and which is its peer. -/
structure Mirrored (cfg : Site → Config) : Prop where
  gcp : (cfg .standby).gcp = (cfg .primary).gcp
  primaryNode : (cfg .primary).cluster.nodeName = (cfg .primary).gcp.instancePrimary
  primaryPeer : (cfg .primary).cluster.peerNode = (cfg .primary).gcp.instanceStandby
  standbyNode : (cfg .standby).cluster.nodeName = (cfg .primary).gcp.instanceStandby
  standbyPeer : (cfg .standby).cluster.peerNode = (cfg .primary).gcp.instancePrimary
  distinct : (cfg .primary).gcp.instancePrimary ≠ (cfg .primary).gcp.instanceStandby

/-- The sample configuration that ships with the daemon, for one of the nodes. -/
def Config.sample (nodeName peerNode : String) : Config where
  cluster :=
    { nodeName, peerNode, peerIp := "10.0.0.3", peerPort := 7778, deadInterval := 15000,
      fenceWait := 3000, peerAuthToken := "", maintenanceFile := "/var/run/pgha/maintenance" }
  gcp :=
    { projectId := "my-gcp-project", region := "us-central1", zonePrimary := "us-central1-a",
      zoneStandby := "us-central1-b", diskName := "pg-regional-disk",
      diskDeviceName := "pg-data-disk", diskMountPoint := "/pgdata",
      instancePrimary := "pg-primary", instanceStandby := "pg-standby", nicName := "nic0",
      vipAddress := "10.0.0.100", vipCidr := "10.0.0.100/32", apiTimeout := 30 }
  postgresql :=
    { port := 5444, dataDir := "/pgdata/as15/data", pgCtl := "/usr/edb/as15/bin/pg_ctl",
      pgOsUser := "enterprisedb", pgStartTimeout := 60, pgStopTimeout := 30 }
  monitor := { pgFailThreshold := 3 }
  efm := { enabled := false, serviceName := "edb-efm-4.7" }
  loopBound := 8

/-- The node that the sample configuration is written for, and its mirror image. -/
def Config.samplePrimary : Config := .sample "pg-primary" "pg-standby"

def Config.sampleStandby : Config := .sample "pg-standby" "pg-primary"

def sampleSites : Site → Config
  | .primary => .samplePrimary
  | .standby => .sampleStandby

theorem mirrored_sampleSites : Mirrored sampleSites := by
  refine ⟨rfl, rfl, rfl, rfl, rfl, by decide⟩

theorem Mirrored.nodeName_injective {cfg : Site → Config} (h : Mirrored cfg) {i j : Site}
    (hij : (cfg i).cluster.nodeName = (cfg j).cluster.nodeName) : i = j := by
  have hdistinct : (cfg .primary).cluster.nodeName ≠ (cfg .standby).cluster.nodeName := by
    rw [h.primaryNode, h.standbyNode]
    exact h.distinct
  cases i <;> cases j
  · rfl
  · exact absurd hij hdistinct
  · exact absurd hij.symm hdistinct
  · rfl

/-! ## Strings -/

/-- `text.endswith(suffix)`. -/
def endswith (text suffix : String) : Bool := suffix.toList.isSuffixOf text.toList

theorem endswith_append (text suffix : String) : endswith (text ++ suffix) suffix = true := by
  rw [endswith, List.isSuffixOf_iff_suffix, String.toList_append]
  exact List.suffix_append _ _

/-- `needle in text`. -/
def occursIn (needle text : String) : Bool :=
  text.toList.tails.any needle.toList.isPrefixOf

/-- `text.startswith(start)`. -/
def startswith (text start : String) : Bool := start.toList.isPrefixOf text.toList

/-- `path.rstrip("/")`. -/
def rstripSlashes (path : String) : String :=
  String.ofList (path.toList.reverse.dropWhile (· == '/')).reverse

/-- `url.rstrip("/").split("/")[-1]`. -/
def lastSegment (url : String) : String :=
  String.ofList ((url.toList.reverse.dropWhile (· == '/')).takeWhile (· != '/')).reverse

/-- `char.isspace()`: the white space of `strip` and `split`. -/
def isSpace (char : Char) : Bool :=
  let code := char.toNat
  (0x09 ≤ code && code ≤ 0x0d) || (0x1c ≤ code && code ≤ 0x20) || code == 0x85 || code == 0xa0 ||
    code == 0x1680 || (0x2000 ≤ code && code ≤ 0x200a) || code == 0x2028 || code == 0x2029 ||
    code == 0x202f || code == 0x205f || code == 0x3000

/-- `text.strip()`. -/
def strip (text : String) : String :=
  String.ofList ((text.toList.dropWhile isSpace).reverse.dropWhile isSpace).reverse

/-- `line.split()`: the fields of a line, separated by white space. -/
def split (line : String) : List String :=
  ((line.toList.splitOnP isSpace).filter (· ≠ [])).map String.ofList

/-- The translation of the line ends of a file that is read as text. -/
def universalNewlines : List Char → List Char
  | '\r' :: '\n' :: rest => '\n' :: universalNewlines rest
  | '\r' :: rest => '\n' :: universalNewlines rest
  | char :: rest => char :: universalNewlines rest
  | [] => []

/-- `for line in file`, without the line ends; what follows the last of them is a line of its
own, be it empty. -/
def linesOf (text : String) : List String :=
  ((universalNewlines text.toList).splitOn '\n').map String.ofList

/-- `os.path.join(dir, name)`, for a relative name. -/
def joinPath (dir name : String) : String :=
  if dir = "" ∨ endswith dir "/" then dir ++ name else dir ++ "/" ++ name

/-- The value of an optional text that is neither missing nor empty, as `if text:` tests. -/
def nonempty? : Option String → Option String
  | some "" | none => none
  | some text => some text

theorem eq_of_nonempty? {text : Option String} {value : String} (h : nonempty? text = some value) :
    text = some value := by
  unfold nonempty? at h
  split at h <;> simp_all

/-! ## Exceptions -/

/-- The exception classes that some handler of the code tells apart. -/
inductive ExcClass
  | runtimeError
  | timeoutError
  | osError
  | requestException
  | subprocessTimeout
  | valueError
  | keyError
  | queueEmpty
  | queueFull
  | other
  deriving DecidableEq, Repr

/-- An exception: its class and `str(exc)`. -/
structure Exc where
  cls : ExcClass
  message : String
  deriving DecidableEq, Repr

namespace Exc

def runtimeError (message : String) : Exc := ⟨.runtimeError, message⟩

def timeoutError (message : String) : Exc := ⟨.timeoutError, message⟩

/-- Caught by `except RuntimeError`. -/
def isRuntimeError (exc : Exc) : Bool := exc.cls == .runtimeError

/-- Caught by `except OSError`: `TimeoutError` and the exceptions of `requests`
are subclasses of it. -/
def isOSError (exc : Exc) : Bool :=
  exc.cls == .osError || exc.cls == .timeoutError || exc.cls == .requestException

/-- Caught by `except requests.exceptions.RequestException`. -/
def isRequestException (exc : Exc) : Bool := exc.cls == .requestException

end Exc

/-! ## The Compute API -/

/-- The answer to an HTTP request that was answered at all.  `json` is what
`resp.json()` returns or raises. -/
structure Response (α : Type) where
  statusCode : ℕ
  text : String
  json : Except Exc α

namespace Response

variable {α : Type}

/-- `resp.raise_for_status()` and then `resp.json()`. -/
def checkedJson (resp : Response α) : Except Exc α :=
  if 400 ≤ resp.statusCode ∧ resp.statusCode < 600 then
    .error ⟨.requestException, s!"{resp.statusCode} Error"⟩
  else resp.json

/-- A successful answer with the given body. -/
def ok (body : α) : Response α := ⟨200, "", .ok body⟩

/-- What a request that is raised for its status and parsed comes to. -/
def fetched (answer : Except Exc (Response α)) : Except Exc α := answer.bind checkedJson

@[simp] theorem fetched_error (exc : Exc) :
    fetched (.error exc : Except Exc (Response α)) = .error exc :=
  rfl

@[simp] theorem fetched_ok (resp : Response α) : fetched (.ok resp) = resp.checkedJson := rfl

@[simp] theorem checkedJson_ok (body : α) : (ok body).checkedJson = .ok body := rfl

end Response

/-- The regional disk, as far as the code reads it. -/
structure Disk where
  users : List String

structure AttachedDisk where
  source : Option String
  mode : Option String
  deviceName : Option String
  deriving DecidableEq

/-- One entry of `aliasIpRanges`; `extra` holds its remaining fields. -/
structure AliasRange where
  ipCidrRange : Option String
  subnetworkRangeName : Option String := none
  extra : List (String × String) := []
  deriving DecidableEq

structure Nic where
  name : Option String
  fingerprint : Option String
  aliasIpRanges : List AliasRange
  deriving DecidableEq

/-- A virtual machine, as far as the code reads it. -/
structure Instance where
  status : Option String
  disks : List AttachedDisk
  networkInterfaces : List Nic

/-- A long-running operation.  `error` is absent when it is missing or empty,
and else lists the `message` field of each of its `errors`. -/
structure Operation where
  name : Option String
  status : Option String
  error : Option (List (Option String))

end PgHa

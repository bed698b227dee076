import PgHa.Effect.Prog
import PgHa.Model.Types

/-!
# The operations of the daemon

Two interfaces.  `Call` is what the election, the engines and the daemon
perform: public methods of `DiskManager` and `NetworkManager`, and operations
of the host.  `SysCall` is what the two managers perform in turn: requests to
the Compute API, and operations of the host.  `Mgr` and `Sys` are the programs
over them.

A request is made with fresh credentials (`_auth_headers`), so an answer
`.error exc` to it stands for a failed refresh of the credentials as well as
for a request that was not answered.
-/

namespace PgHa

open Effect

/-! ## The Compute API -/

/-- The body of an `attachDisk` request. -/
structure AttachPayload where
  source : String
  mode : String
  autoDelete : Bool
  deviceName : String
  deriving DecidableEq

/-- The body of an `updateNetworkInterface` request. -/
structure NicPayload where
  aliasIpRanges : List (Option String)
  fingerprint : String
  deriving DecidableEq

inductive GcpCall
  /-- `GET …/regions/{region}/disks/{disk}` -/
  | getDisk (project region disk : String)
  /-- `GET …/zones/{zone}/instances/{instance}` -/
  | getInstance (project zone name : String)
  /-- `GET …/zones/{zone}/operations/{operation}` -/
  | getOperation (project zone operation : String)
  /-- `POST …/instances/{instance}/attachDisk?forceAttach=true` -/
  | attachDisk (project zone name : String) (payload : AttachPayload)
  /-- `POST …/instances/{instance}/detachDisk?deviceName={device}` -/
  | detachDisk (project zone name device : String)
  /-- `PATCH …/instances/{instance}/updateNetworkInterface?networkInterface={nic}` -/
  | updateNetworkInterface (project zone name nic : String) (payload : NicPayload)
  deriving DecidableEq

abbrev GcpCall.Ret : GcpCall → Type
  | .getDisk .. => Response Disk
  | .getInstance .. => Response Instance
  | .getOperation .. | .attachDisk .. | .detachDisk .. | .updateNetworkInterface .. =>
      Response Operation

/-! ## The host -/

inductive StopMode
  | smart
  | fast
  | immediate
  deriving DecidableEq, Repr

/-- The command lines given to `subprocess.run`. -/
inductive Command
  | pgCtlStatus (osUser pgCtl dataDir : String)
  | pgCtlStart (osUser pgCtl dataDir : String) (timeout : ℕ)
  | pgCtlStop (osUser pgCtl dataDir : String) (mode : StopMode) (timeout : ℕ)
  /-- `umount -f`, with `-l` as well when `lazy`. -/
  | umount (lazy : Bool) (mountPt : String)
  | mkdir (path : String)
  | mount (device mountPt : String)
  | systemctl (verb : List String) (service : String)
  deriving DecidableEq

structure CompletedProcess where
  returncode : Int
  stdout : String
  stderr : String

/-- Floating-point numbers, as `json.loads` returns them. -/
inductive Real
  | finite (value : Rat)
  | infinite (negative : Bool)
  | nan
  deriving DecidableEq

/-- JSON values, as `json.loads` returns them. -/
inductive Json
  | null
  | bool (value : Bool)
  | num (value : Int)
  | real (value : Real)
  | str (value : String)
  | arr (values : List Json)
  | obj (fields : List (String × Json))

/-- A reply of the peer, parsed, and how Python prints it. -/
structure PeerReply where
  value : Json
  text : String

/-- The message of one node to the other over the peer port. -/
structure PeerRequest where
  cmd : String
  token : Option String
  deriving DecidableEq

/-- The four transition sequences of a node. -/
inductive Sequence
  | failover
  | asPrimary
  | asStandby
  | selfDemotion
  deriving DecidableEq, Repr

/-- The steps of the engines. -/
inductive StepName
  | verify
  | fence
  | wait
  | attach
  | mount
  | pgStart
  | vip
  | promote
  | preCheck
  | vipRelease
  | pgStop
  | umount
  | detach
  | signalPeer
  | demote
  deriving DecidableEq, Repr

/-- Places in the code that results speak about.  They are where the code
writes a log line, and reaching one does nothing else. -/
inductive Mark
  | enter (sequence : Sequence)
  | leave (sequence : Sequence)
  | step (name : StepName)
  deriving DecidableEq, Repr

/-- The targets of the threads that the daemon starts. -/
inductive Task
  | runFailover (skipFence : Bool)
  | runSwitchover
  | runSwitchoverAsStandby
  deriving DecidableEq, Repr

/-- The answer to the management command `status`.  Ages are in milliseconds. -/
structure StatusReport where
  localNode : NodeState
  peerNode : String
  peerRole : NodeRole
  peerHealth : NodeHealth
  peerPgState : PgState
  lastHbAge : Option Int
  peerAlive : Bool
  postgres : Option PgHealthSnapshot
  os : Option OsHealthSnapshot
  maintenance : Bool
  deriving DecidableEq, Repr

/-- The answer to a management command. -/
inductive MgmtReply
  | fields (fields : List (String × String))
  | status (report : StatusReport)
  /-- `{"error": f"Unknown command: {cmd}"}` -/
  | unknownCommand
  deriving DecidableEq, Repr

inductive HostCall
  | monotonic
  | time
  | sleep (duration : Int)
  /-- `hash(text)`, which Python salts differently in every process. -/
  | hash (text : String)
  | run (command : Command)
  /-- The lines of `/proc/mounts`. -/
  | readMounts
  | listdir (path : String)
  | pathExists (path : String)
  | isfile (path : String)
  | remove (path : String)
  /-- `os.makedirs(os.path.dirname(path), exist_ok=True)`. -/
  | makeParent (path : String)
  | writeFile (path : String)
  | killMountUsers (mountPt : String)
  /-- `socket.create_connection`. -/
  | createConnection (ip : String) (port : ℕ) (timeout : Int)
  | sendRequest (request : PeerRequest)
  /-- Receive, decode and parse the peer's reply. -/
  | recvReply
  /-- Receive, decode and parse a command on an accepted connection. -/
  | recvCommand
  | sendReply (reply : List (String × String))
  | sendMgmtReply (reply : MgmtReply)
  | putEvent (event : HaEvent)
  | getEvent
  -- `LocalNode`
  | setRole (role : NodeRole)
  | setHealth (health : NodeHealth)
  | setPgState (pgState : PgState)
  | setDiskState (diskState : DiskState)
  | role
  | health
  | localSnapshot
  -- fields of `FailoverEngine`
  | attempts
  | setAttempts (attempts : ℕ)
  | lastAttemptTs
  | setLastAttemptTs (ts : Int)
  | peerInstanceStatus
  | setPeerInstanceStatus (status : String)
  -- fields of the daemon, and what it shares with the other threads
  | switchoverActive
  | setSwitchoverActive (active : Bool)
  | acquireFailoverLock (blocking : Bool)
  | releaseFailoverLock
  | lastDemotionTs
  | setLastDemotionTs (ts : Int)
  | startThread (task : Task)
  | pgMonSetActive (active : Bool)
  | pgMonReset
  | pgMonSnapshot
  | pgMonConsecutiveFailures
  | osMonSnapshot
  -- `HeartbeatManager`
  | isPeerAlive
  | peerSnapshot
  /-- Receive a datagram on the heartbeat port. -/
  | recvDatagram
  /-- Read `_peer_alive` without the lock. -/
  | peerAliveFlag
  /-- The block under the lock that stores a heartbeat, with the time of its receipt. -/
  | storeHeartbeat (msg : HeartbeatMsg)
  /-- The time of the last heartbeat and the flag, read under the lock. -/
  | peerTimes
  /-- Set `_peer_alive` to False under the lock. -/
  | clearPeerAlive
  | mark (mark : Mark)
  deriving DecidableEq

abbrev HostCall.Ret : HostCall → Type
  | .monotonic | .time | .hash _ | .lastAttemptTs | .lastDemotionTs => Int
  | .run _ => CompletedProcess
  | .readMounts => List String
  | .pathExists _ | .isfile _ | .switchoverActive | .acquireFailoverLock _ | .isPeerAlive
  | .peerAliveFlag => Bool
  | .recvDatagram => List UInt8
  | .peerTimes => Int × Bool
  | .recvReply => PeerReply
  | .recvCommand => Json
  | .getEvent => HaEvent
  | .role => NodeRole
  | .health => NodeHealth
  | .attempts | .pgMonConsecutiveFailures => ℕ
  | .peerInstanceStatus => String
  | .pgMonSnapshot => Option PgHealthSnapshot
  | .osMonSnapshot => Option OsHealthSnapshot
  | .peerSnapshot | .localSnapshot => NodeState
  | _ => Unit

/-! ## The managers -/

inductive DiskCall
  | currentRwHolder
  | getInstanceStatus (name zone : String)
  | forceDetachFromPeer
  | attachDiskRw
  | detachDisk
  | mountDisk
  | unmountDisk
  | startPostgres
  | stopPostgres (mode : StopMode)
  deriving DecidableEq, Repr

abbrev DiskCall.Ret : DiskCall → Type
  | .currentRwHolder => Option String
  | .getInstanceStatus .. => String
  | _ => Unit

inductive NetCall
  | acquireVip
  | releaseVip
  deriving DecidableEq, Repr

abbrev NetCall.Ret : NetCall → Type := fun _ => Unit

inductive Call
  | disk (call : DiskCall)
  | net (call : NetCall)
  | host (call : HostCall)
  deriving DecidableEq

/-- The operations that attach or detach the disk. -/
def Call.movesDisk : Call → Prop
  | .disk .attachDiskRw | .disk .detachDisk | .disk .forceDetachFromPeer => True
  | _ => False

/-- The operations of the host that neither say something of the node, nor
reach another thread or the peer: clocks, commands, files and events. -/
def Call.minor : Call → Prop
  | .host (.setRole _) | .host (.setDiskState _) | .host (.setSwitchoverActive _)
  | .host (.startThread _) | .host (.mark _) => False
  | .host (.sendRequest _) | .host .recvReply | .host .recvCommand | .host (.sendReply _) => False
  | .host _ => True
  | _ => False

abbrev Call.Ret : Call → Type
  | .disk call => call.Ret
  | .net call => call.Ret
  | .host call => call.Ret

inductive SysCall
  | gcp (call : GcpCall)
  | host (call : HostCall)
  deriving DecidableEq

abbrev SysCall.Ret : SysCall → Type
  | .gcp call => call.Ret
  | .host call => call.Ret

/-- Programs of the election, the engines and the daemon. -/
abbrev Mgr := Prog Call.Ret Exc

/-- Programs of the two managers. -/
abbrev Sys := Prog SysCall.Ret Exc

namespace Mgr

abbrev disk (call : DiskCall) : Mgr call.Ret := .perform (Call.disk call)

abbrev net (call : NetCall) : Mgr call.Ret := .perform (Call.net call)

abbrev host (call : HostCall) : Mgr call.Ret := .perform (Call.host call)

end Mgr

namespace Sys

abbrev gcp (call : GcpCall) : Sys call.Ret := .perform (SysCall.gcp call)

abbrev host (call : HostCall) : Sys call.Ret := .perform (SysCall.host call)

end Sys

end PgHa

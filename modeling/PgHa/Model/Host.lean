import PgHa.Effect.Wp
import PgHa.Model.Interface

/-!
# What the operations of the host do

`DaemonState` is the state of one daemon process that its threads share.
`DaemonState.after` is the effect of an operation on it, and
`DaemonState.Answers` says which answers an operation may have: reads return
what was written, the clocks and the setters do not fail, and a call that
leaves the process (a command, a file, a socket, a sleep) may do anything.
-/

namespace PgHa

open Effect

structure DaemonState where
  node : NodeState
  attempts : ℕ
  lastAttemptTs : Int
  peerInstanceStatus : String
  switchoverActive : Bool
  failoverLocked : Bool
  lastDemotionTs : Int

namespace DaemonState

/-- The effect of an operation of the host on the daemon's own state. -/
@[simp] def after (s : DaemonState) : HostCall → DaemonState
  | .setRole role => { s with node := { s.node with role := role } }
  | .setHealth health => { s with node := { s.node with health := health } }
  | .setPgState pgState => { s with node := { s.node with pgState := pgState } }
  | .setDiskState diskState => { s with node := { s.node with diskState := diskState } }
  | .setAttempts attempts => { s with attempts := attempts }
  | .setLastAttemptTs ts => { s with lastAttemptTs := ts }
  | .setPeerInstanceStatus status => { s with peerInstanceStatus := status }
  | .setSwitchoverActive active => { s with switchoverActive := active }
  | .acquireFailoverLock _ => { s with failoverLocked := true }
  | .releaseFailoverLock => { s with failoverLocked := false }
  | .setLastDemotionTs ts => { s with lastDemotionTs := ts }
  | _ => s

theorem after_role (s : DaemonState) {call : HostCall} (h : ∀ role, call ≠ .setRole role) :
    (s.after call).node.role = s.node.role := by
  cases call with
  | setRole role => exact absurd rfl (h role)
  | _ => rfl

/-- The answers that an operation of the host may have.  A blocking acquisition
of the failover lock has one only while the lock is free. -/
@[simp] def Answers (s : DaemonState) : (call : HostCall) → Except Exc call.Ret → Prop
  | .role, answer => answer = .ok s.node.role
  | .health, answer => answer = .ok s.node.health
  | .localSnapshot, answer => answer = .ok s.node
  | .attempts, answer => answer = .ok s.attempts
  | .lastAttemptTs, answer => answer = .ok s.lastAttemptTs
  | .peerInstanceStatus, answer => answer = .ok s.peerInstanceStatus
  | .switchoverActive, answer => answer = .ok s.switchoverActive
  | .lastDemotionTs, answer => answer = .ok s.lastDemotionTs
  | .acquireFailoverLock blocking, answer =>
      answer = .ok (!s.failoverLocked) ∧ (blocking → s.failoverLocked = false)
  | .putEvent _, answer => ∀ exc, answer = .error exc → exc.cls = .queueFull
  | .getEvent, answer => ∀ exc, answer = .error exc → exc.cls = .queueEmpty
  | .setRole _, answer | .setHealth _, answer | .setPgState _, answer | .setDiskState _, answer
  | .setAttempts _, answer | .setLastAttemptTs _, answer | .setPeerInstanceStatus _, answer
  | .setSwitchoverActive _, answer | .releaseFailoverLock, answer | .setLastDemotionTs _, answer
  | .pgMonSetActive _, answer | .pgMonReset, answer | .storeHeartbeat _, answer
  | .clearPeerAlive, answer | .mark _, answer => answer = .ok ()
  | .monotonic, answer | .time, answer | .hash _, answer | .pgMonSnapshot, answer
  | .pgMonConsecutiveFailures, answer | .osMonSnapshot, answer | .isPeerAlive, answer
  | .peerSnapshot, answer | .peerAliveFlag, answer | .peerTimes, answer =>
      ∃ value, answer = .ok value
  | _, _ => True

/-- A host on which every operation succeeds: its clocks stand still, no file
exists but those the daemon makes, and the peer accepts a switchover. -/
def reply (s : DaemonState) : (call : HostCall) → Except Exc call.Ret
  | .role => .ok s.node.role
  | .health => .ok s.node.health
  | .localSnapshot => .ok s.node
  | .attempts => .ok s.attempts
  | .lastAttemptTs => .ok s.lastAttemptTs
  | .peerInstanceStatus => .ok s.peerInstanceStatus
  | .switchoverActive => .ok s.switchoverActive
  | .lastDemotionTs => .ok s.lastDemotionTs
  | .acquireFailoverLock _ => .ok (!s.failoverLocked)
  | .getEvent => .error ⟨.queueEmpty, ""⟩
  | .monotonic | .time | .hash _ => .ok 0
  | .pgMonConsecutiveFailures => .ok 0
  | .pgMonSnapshot => .ok none
  | .osMonSnapshot => .ok none
  | .isPeerAlive | .peerAliveFlag => .ok true
  | .peerSnapshot => .ok s.node
  | .run _ => .ok ⟨0, "", ""⟩
  | .readMounts => .ok []
  | .pathExists _ | .isfile _ => .ok false
  | .recvReply => .ok ⟨.obj [("cmd", .str "SWITCHOVER_ACCEPT")], ""⟩
  | .recvCommand => .ok .null
  | .recvDatagram => .error ⟨.osError, "timed out"⟩
  | .peerTimes => .ok (0, true)
  | .sleep _ | .listdir _ | .remove _ | .makeParent _ | .writeFile _ | .killMountUsers _
  | .createConnection .. | .sendRequest _ | .sendReply _ | .sendMgmtReply _ | .putEvent _
  | .storeHeartbeat _ | .clearPeerAlive | .setRole _
  | .setHealth _ | .setPgState _ | .setDiskState _ | .setAttempts _ | .setLastAttemptTs _
  | .setPeerInstanceStatus _ | .setSwitchoverActive _ | .releaseFailoverLock
  | .setLastDemotionTs _ | .startThread _ | .pgMonSetActive _ | .pgMonReset | .mark _ => .ok ()

theorem answers_reply (s : DaemonState) (call : HostCall)
    (hlock : ∀ blocking, call = .acquireFailoverLock blocking → s.failoverLocked = false) :
    s.Answers call (s.reply call) := by
  cases call with
  | acquireFailoverLock blocking => exact ⟨rfl, fun _ => hlock blocking rfl⟩
  | _ => simp [reply]

/-- What an operation does when one thread runs alone: nothing but the thread
writes the daemon's state, and the managers may answer anything. -/
def alone (s : DaemonState) (event : Event Call.Ret Exc) (s' : DaemonState) : Prop :=
  match event with
  | ⟨.host call, answer⟩ => s.Answers call answer ∧ s' = s.after call
  | _ => s' = s

section Alone

variable {s : DaemonState} {log : List (Event Call.Ret Exc)}

@[simp] theorem alone_host (call : HostCall)
    (post : Except Exc call.Ret → DaemonState × List (Event Call.Ret Exc) → Prop) :
    demonic (logged alone) (.host call) post (s, log) ↔ ∀ answer, s.Answers call answer →
      post answer (s.after call, log ++ [⟨.host call, answer⟩]) := by
  refine demonic_logged_iff.trans ⟨fun h answer hanswer => h answer _ ⟨hanswer, rfl⟩, ?_⟩
  rintro h answer s' ⟨hanswer, rfl⟩
  exact h answer hanswer

@[simp] theorem alone_disk (call : DiskCall)
    (post : Except Exc call.Ret → DaemonState × List (Event Call.Ret Exc) → Prop) :
    demonic (logged alone) (.disk call) post (s, log) ↔
      ∀ answer, post answer (s, log ++ [⟨.disk call, answer⟩]) := by
  refine demonic_logged_iff.trans ⟨fun h answer => h answer _ rfl, ?_⟩
  rintro h answer s' rfl
  exact h answer

@[simp] theorem alone_net (call : NetCall)
    (post : Except Exc call.Ret → DaemonState × List (Event Call.Ret Exc) → Prop) :
    demonic (logged alone) (.net call) post (s, log) ↔
      ∀ answer, post answer (s, log ++ [⟨.net call, answer⟩]) := by
  refine demonic_logged_iff.trans ⟨fun h answer => h answer _ rfl, ?_⟩
  rintro h answer s' rfl
  exact h answer

end Alone

end DaemonState

/-- Every operation on the disk succeeds, and nobody holds it. -/
def DiskCall.reply : (call : DiskCall) → Except Exc call.Ret
  | .currentRwHolder => .ok none
  | .getInstanceStatus .. => .ok "RUNNING"
  | .forceDetachFromPeer | .attachDiskRw | .detachDisk | .mountDisk | .unmountDisk
  | .startPostgres | .stopPostgres _ => .ok ()

end PgHa

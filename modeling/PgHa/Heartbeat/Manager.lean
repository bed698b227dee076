import PgHa.Ha.Failover

/-!
# `heartbeat.py`: the heartbeat manager

The receiver and the watchdog of `HeartbeatManager`, and `HeartbeatMsg.from_dict`
of `models.py`.  What they use of the standard library (decoding and parsing a
datagram, reading a number from a text, printing a value) is a `Decoder`.  The
loops run until the daemon stops; `receiverLoop` and `watchdogLoop` follow them
for a number of passes.
-/

namespace PgHa

open Effect

/-- The functions of the standard library that a datagram goes through. -/
structure Decoder where
  /-- `json.loads(data.decode("utf-8"))`. -/
  loads : List UInt8 → Except Exc Json
  /-- `int(text)`, which raises `ValueError` or nothing. -/
  intOfText : String → Option Int
  /-- `float(text)`, which raises `ValueError` or nothing. -/
  floatOfText : String → Option Real
  /-- `str(value)`. -/
  str : Json → String

/-! ## `HeartbeatMsg.from_dict` -/

def nodeRoles : List (String × NodeRole) :=
  [("primary", .primary), ("standby", .standby), ("unknown", .unknown)]

def nodeHealths : List (String × NodeHealth) :=
  [("healthy", .healthy), ("degraded", .degraded), ("failed", .failed), ("fenced", .fenced),
    ("unknown", .unknown)]

def pgStates : List (String × PgState) :=
  [("running_primary", .runningPrimary), ("running_standby", .runningStandby),
    ("stopped", .stopped), ("starting", .starting), ("stopping", .stopping),
    ("crashed", .crashed), ("unknown", .unknown)]

def diskStates : List (String × DiskState) :=
  [("attached_rw", .attachedRw), ("attached_ro", .attachedRo), ("detached", .detached),
    ("unknown", .unknown)]

/-- `d[key]`. -/
def item (fields : List (String × Json)) (key : String) : Except Exc Json :=
  match fields.find? (·.1 == key) with
  | some field => .ok field.2
  | none => .error ⟨.keyError, key⟩

/-- `convert(d[key])`. -/
def field {α : Type} (fields : List (String × Json)) (key : String)
    (convert : Json → Except Exc α) : Except Exc α :=
  (item fields key).bind convert

/-- The member of an enumeration with the given value. -/
def member {α : Type} (members : List (String × α)) (value : Json) : Except Exc α :=
  match value with
  | .str text =>
      match members.find? (·.1 == text) with
      | some entry => .ok entry.2
      | none => .error ⟨.valueError, "not a valid member"⟩
  | _ => .error ⟨.valueError, "not a valid member"⟩

/-- From here on an integer is too large for a floating-point number. -/
def floatBound : ℕ := Nat.pow 2 1024 - Nat.pow 2 970

namespace Decoder

variable (dec : Decoder)

/-- `int(value)`. -/
def int : Json → Except Exc Int
  | .num value => .ok value
  | .bool value => .ok (if value then 1 else 0)
  | .real (.finite value) => .ok (value.num.tdiv value.den)
  | .real (.infinite _) => .error ⟨.other, "cannot convert float infinity to integer"⟩
  | .real .nan => .error ⟨.valueError, "cannot convert float NaN to integer"⟩
  | .str text =>
      match dec.intOfText text with
      | some value => .ok value
      | none => .error ⟨.valueError, "invalid literal for int()"⟩
  | .null | .arr _ | .obj _ => .error ⟨.other, "int() argument must be a string or a number"⟩

/-- `float(value)`, as far as it raises. -/
def checkFloat : Json → Except Exc Unit
  | .num value =>
      if value.natAbs < floatBound then .ok ()
      else .error ⟨.other, "int too large to convert to float"⟩
  | .bool _ | .real _ => .ok ()
  | .str text =>
      match dec.floatOfText text with
      | some _ => .ok ()
      | none => .error ⟨.valueError, "could not convert string to float"⟩
  | .null | .arr _ | .obj _ => .error ⟨.other, "float() argument must be a string or a number"⟩

/-- The name of the sender, when it is a text. -/
def nodeName? : Json → Option String
  | .str name => some name
  | _ => none

def fromDict (d : Json) : Except Exc HeartbeatMsg :=
  match d with
  | .obj fields => do
      let node ← item fields "node"
      let role ← field fields "role" (member nodeRoles)
      let seq ← field fields "seq" dec.int
      let pgState ← field fields "pg_state" (member pgStates)
      let diskState ← field fields "disk_state" (member diskStates)
      let nodeHealth ← field fields "node_health" (member nodeHealths)
      field fields "ts" dec.checkFloat
      pure
        { node := nodeName? node, nodeText := dec.str node, role, seq, pgState, diskState,
          nodeHealth }
  | _ => .error ⟨.other, "indices must be integers or slices, not str"⟩

/-- The first `try` after a datagram has been received. -/
def decode (data : List UInt8) : Except Exc HeartbeatMsg := do
  let d ← dec.loads data
  dec.fromDict d

end Decoder

namespace HeartbeatManager

variable (cfg : Config)

/-- What the manager keeps of the peer. -/
structure View where
  peer : NodeState
  alive : Bool

/-- The block under the lock that stores a heartbeat. -/
def View.store (view : View) (msg : HeartbeatMsg) (now : Int) : View where
  peer :=
    { view.peer with
      role := msg.role
      health := msg.nodeHealth
      pgState := msg.pgState
      diskState := msg.diskState
      lastHeartbeatTs := now
      heartbeatSeq := msg.seq }
  alive := true

/-- The exceptions that mark a datagram as malformed. -/
def malformed (exc : Exc) : Bool := exc.cls == .valueError || exc.cls == .keyError

/-- One pass of `_receiver_loop`. -/
def receiverPass (dec : Decoder) : Mgr Unit := do
  match ← (Mgr.host .recvDatagram).attempt with
  | .error exc => if exc.isOSError then pure () else .raise exc
  | .ok data =>
      match dec.decode data with
      | .error exc => if malformed exc then pure () else .raise exc
      | .ok msg =>
          if msg.node = some cfg.cluster.nodeName then
            pure ()
          else
            let wasAlive ← Mgr.host .peerAliveFlag
            Mgr.host (.storeHeartbeat msg)
            if !wasAlive then
              emit cfg .peerRecovered s!"Peer {msg.nodeText} is alive again (seq={msg.seq})"

def receiverLoop (dec : Decoder) : ℕ → Mgr Unit
  | 0 => .stuck
  | fuel + 1 => do
      receiverPass cfg dec
      receiverLoop dec fuel

/-- How the watchdog prints a time in seconds, with one decimal. -/
def tenths (millis : Int) : String := s!"{millis / 1000}.{millis % 1000 / 100}"

/-- One pass of `_watchdog_loop`. -/
def watchdogPass : Mgr Unit := do
  Mgr.host (.sleep (min 1000 (cfg.cluster.deadInterval / 2)))
  let (lastTs, wasAlive) ← Mgr.host .peerTimes
  if lastTs = 0 then
    pure ()
  else
    let now ← Mgr.host .time
    if now - lastTs > cfg.cluster.deadInterval ∧ wasAlive then
      if ← FailoverEngine.isPeerPgReachable cfg then
        pure ()
      else
        Mgr.host .clearPeerAlive
        emit cfg .peerDead
          (s!"No heartbeat from {cfg.cluster.peerNode} for {tenths (now - lastTs)}s " ++
            s!"(threshold {tenths cfg.cluster.deadInterval}s) and " ++
            s!"TCP probe to port {cfg.postgresql.port} failed")

def watchdogLoop : ℕ → Mgr Unit
  | 0 => .stuck
  | fuel + 1 => do
      watchdogPass cfg
      watchdogLoop fuel

end HeartbeatManager

end PgHa

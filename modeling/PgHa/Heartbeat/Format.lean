import Mathlib.Data.List.Nodup
import PgHa.Heartbeat.Reception
import PgHa.Text.JsonPrint

/-!
# The format of a heartbeat

`HeartbeatMsg.to_dict` and `HeartbeatMsg.from_dict` of `models.py`, with all
seven fields, and what `_sender_loop` puts into a datagram.  The receiver of
`Manager.lean` keeps less of a message than `from_dict` returns; `fromDict_eq_map`
says what it leaves out, and the results are about the whole messages.

`heartbeat_exchange`: a heartbeat that fits into a datagram decodes to what was
sent, field by field, and a dictionary with an integer `seq` and a float `ts` that
is accepted is, on its seven keys, the dictionary of the message.
-/

namespace PgHa

/-! ## Enumerations and their values -/

/-- `x.value` of a member of an enumeration. -/
def valueIn {α : Type} [DecidableEq α] (members : List (String × α)) (x : α) : String :=
  match members.find? (·.2 == x) with
  | some entry => entry.1
  | none => ""

def NodeRole.value (role : NodeRole) : String := valueIn nodeRoles role

def NodeHealth.value (health : NodeHealth) : String := valueIn nodeHealths health

def PgState.value (pgState : PgState) : String := valueIn pgStates pgState

def DiskState.value (diskState : DiskState) : String := valueIn diskStates diskState

/-- A table that lists every member of an enumeration once, each under a value of its own. -/
structure Enumerates {α : Type} (members : List (String × α)) : Prop where
  values : (members.map Prod.fst).Nodup
  names : (members.map Prod.snd).Nodup
  complete : ∀ x, x ∈ members.map Prod.snd

theorem enumerates_nodeRoles : Enumerates nodeRoles :=
  ⟨by decide, by decide, fun role => by cases role <;> decide⟩

theorem enumerates_nodeHealths : Enumerates nodeHealths :=
  ⟨by decide, by decide, fun health => by cases health <;> decide⟩

theorem enumerates_pgStates : Enumerates pgStates :=
  ⟨by decide, by decide, fun pgState => by cases pgState <;> decide⟩

theorem enumerates_diskStates : Enumerates diskStates :=
  ⟨by decide, by decide, fun diskState => by cases diskState <;> decide⟩

/-- An entry is found under its key when no two entries share one. -/
theorem find?_eq_some_of_nodup {α κ : Type} [DecidableEq κ] {key : α → κ} {l : List α}
    (hnodup : (l.map key).Nodup) {x : α} (hx : x ∈ l) : l.find? (key · == key x) = some x := by
  cases hfind : l.find? (key · == key x) with
  | none =>
      have hnone := List.find?_eq_none.mp hfind x hx
      simp at hnone
  | some y =>
      have hkey : key y = key x := by simpa using List.find?_some hfind
      rw [List.inj_on_of_nodup_map hnodup (List.mem_of_find?_eq_some hfind) hx hkey]

section Enumerates

variable {α : Type} [DecidableEq α] {members : List (String × α)}

theorem valueIn_of_mem (h : Enumerates members) {entry : String × α} (hentry : entry ∈ members) :
    valueIn members entry.2 = entry.1 := by
  unfold valueIn
  rw [find?_eq_some_of_nodup h.names hentry]

/-- The value of a member is read back as that member. -/
theorem member_valueIn (h : Enumerates members) (x : α) :
    member members (.str (valueIn members x)) = .ok x := by
  obtain ⟨entry, hentry, rfl⟩ := List.mem_map.mp (h.complete x)
  rw [valueIn_of_mem h hentry]
  unfold member
  dsimp only
  rw [find?_eq_some_of_nodup h.values hentry]

/-- Nothing but the value of a member is read as that member. -/
theorem eq_of_member (h : Enumerates members) {value : Json} {x : α}
    (hx : member members value = .ok x) : value = .str (valueIn members x) := by
  unfold member at hx
  split at hx
  · rename_i text
    split at hx
    · rename_i entry hfind
      obtain rfl : entry.2 = x := Except.ok.inj hx
      have htext : entry.1 = text := by simpa using List.find?_some hfind
      rw [valueIn_of_mem h (List.mem_of_find?_eq_some hfind), htext]
    · cases hx
  · cases hx

end Enumerates

/-! ## The message -/

/-- All fields of a heartbeat.  `from_dict` does not look at what `node` is. -/
structure HeartbeatMsg.Whole where
  node : Json
  role : NodeRole
  seq : Int
  pgState : PgState
  diskState : DiskState
  nodeHealth : NodeHealth
  ts : Real

def HeartbeatMsg.Whole.toDict (msg : HeartbeatMsg.Whole) : List (String × Json) :=
  [("node", msg.node), ("role", .str msg.role.value), ("seq", .num msg.seq),
    ("pg_state", .str msg.pgState.value), ("disk_state", .str msg.diskState.value),
    ("node_health", .str msg.nodeHealth.value), ("ts", .real msg.ts)]

/-- The functions of the standard library that a heartbeat goes through on its way. -/
structure Codec extends Decoder where
  /-- `json.dumps(d).encode("utf-8")`. -/
  dumps : Json → List UInt8
  /-- `float(value)` of an integer that is not too large. -/
  floatOfInt : Int → Real

namespace Codec

variable (codec : Codec)

/-- `float(value)`. -/
def float : Json → Except Exc Real
  | .num value =>
      if value.natAbs < floatBound then .ok (codec.floatOfInt value)
      else .error ⟨.other, "int too large to convert to float"⟩
  | .bool value => .ok (.finite (if value then 1 else 0))
  | .real value => .ok value
  | .str text =>
      match codec.floatOfText text with
      | some value => .ok value
      | none => .error ⟨.valueError, "could not convert string to float"⟩
  | .null | .arr _ | .obj _ => .error ⟨.other, "float() argument must be a string or a number"⟩

/-- `HeartbeatMsg.from_dict`. -/
def fromDict (d : Json) : Except Exc HeartbeatMsg.Whole :=
  match d with
  | .obj fields => do
      let node ← item fields "node"
      let role ← field fields "role" (member nodeRoles)
      let seq ← field fields "seq" codec.int
      let pgState ← field fields "pg_state" (member pgStates)
      let diskState ← field fields "disk_state" (member diskStates)
      let nodeHealth ← field fields "node_health" (member nodeHealths)
      let ts ← field fields "ts" codec.float
      pure { node, role, seq, pgState, diskState, nodeHealth, ts }
  | _ => .error ⟨.other, "indices must be integers or slices, not str"⟩

/-- What the receiver keeps of a message. -/
def kept (msg : HeartbeatMsg.Whole) : HeartbeatMsg where
  node := Decoder.nodeName? msg.node
  nodeText := codec.str msg.node
  role := msg.role
  seq := msg.seq
  pgState := msg.pgState
  diskState := msg.diskState
  nodeHealth := msg.nodeHealth

/-- `checkFloat` is `float`, as far as it raises. -/
theorem checkFloat_eq_map (value : Json) :
    codec.checkFloat value = (codec.float value).map fun _ => () := by
  cases value with
  | num value => simp only [Decoder.checkFloat, float]; split <;> rfl
  | str text =>
      simp only [Decoder.checkFloat, float]
      cases codec.floatOfText text <;> rfl
  | _ => rfl

section Results

variable {α β γ : Type}

theorem map_bind (result : Except Exc α) (next : α → Except Exc β) (f : β → γ) :
    (result.bind next).map f = result.bind fun value => (next value).map f := by
  cases result <;> rfl

theorem bind_eq_ok_iff {result : Except Exc α} {next : α → Except Exc β} {value : β} :
    result.bind next = .ok value ↔ ∃ first, result = .ok first ∧ next first = .ok value := by
  cases result <;> simp [Except.bind]

end Results

/-- The receiver of `Manager.lean` decodes as `from_dict` does. -/
theorem fromDict_eq_map (d : Json) :
    codec.toDecoder.fromDict d = (codec.fromDict d).map codec.kept := by
  cases d with
  | obj fields =>
      simp only [Decoder.fromDict, fromDict, field, bind, map_bind]
      refine congrArg _ (funext fun node => congrArg _ (funext fun role => ?_))
      refine congrArg _ (funext fun seq => congrArg _ (funext fun pgState => ?_))
      refine congrArg _ (funext fun diskState => congrArg _ (funext fun nodeHealth => ?_))
      cases item fields "ts" with
      | error exc => rfl
      | ok value =>
          show (codec.checkFloat value).bind _ = (codec.float value).bind _
          rw [checkFloat_eq_map]
          cases codec.float value <;> rfl
  | _ => rfl

/-- A dictionary is accepted with the message whose fields its items are read as. -/
theorem fromDict_eq_ok_iff {fields : List (String × Json)} {msg : HeartbeatMsg.Whole} :
    codec.fromDict (.obj fields) = .ok msg ↔
      item fields "node" = .ok msg.node ∧
      field fields "role" (member nodeRoles) = .ok msg.role ∧
      field fields "seq" codec.int = .ok msg.seq ∧
      field fields "pg_state" (member pgStates) = .ok msg.pgState ∧
      field fields "disk_state" (member diskStates) = .ok msg.diskState ∧
      field fields "node_health" (member nodeHealths) = .ok msg.nodeHealth ∧
      field fields "ts" codec.float = .ok msg.ts := by
  simp only [fromDict, bind, bind_eq_ok_iff, pure, Except.pure, Except.ok.injEq]
  constructor
  · rintro ⟨node, hnode, role, hrole, seq, hseq, pgState, hpg, diskState, hdisk,
      health, hhealth, ts, hts, rfl⟩
    exact ⟨hnode, hrole, hseq, hpg, hdisk, hhealth, hts⟩
  · rintro ⟨hnode, hrole, hseq, hpg, hdisk, hhealth, hts⟩
    exact ⟨_, hnode, _, hrole, _, hseq, _, hpg, _, hdisk, _, hhealth, _, hts, rfl⟩

/-- What `to_dict` writes, `from_dict` reads back. -/
theorem fromDict_toDict (msg : HeartbeatMsg.Whole) :
    codec.fromDict (.obj msg.toDict) = .ok msg := by
  rw [fromDict_eq_ok_iff]
  have hrole := member_valueIn enumerates_nodeRoles msg.role
  have hpg := member_valueIn enumerates_pgStates msg.pgState
  have hdisk := member_valueIn enumerates_diskStates msg.diskState
  have hhealth := member_valueIn enumerates_nodeHealths msg.nodeHealth
  exact ⟨rfl, hrole, rfl, hpg, hdisk, hhealth, rfl⟩

/-! ## What is accepted -/

/-- The keys of a heartbeat. -/
def keys : List String := ["node", "role", "seq", "pg_state", "disk_state", "node_health", "ts"]

/-- `d[key]` in the dictionary restricted to the keys of a heartbeat. -/
def restricted (d : List (String × Json)) (key : String) : Except Exc Json :=
  if key ∈ keys then item d key else .error ⟨.keyError, key⟩

theorem item_toDict_of_notMem (msg : HeartbeatMsg.Whole) {key : String} (hkey : key ∉ keys) :
    item msg.toDict key = .error ⟨.keyError, key⟩ := by
  have hnone : msg.toDict.find? (·.1 == key) = none := by
    refine List.find?_eq_none.mpr fun entry hentry heq => hkey ?_
    -- the keys of the dictionary are exactly those of the list
    have hmem : entry.1 ∈ msg.toDict.map Prod.fst := List.mem_map_of_mem hentry
    rwa [beq_iff_eq.mp heq] at hmem
  rw [item, hnone]

/-- The item under the key of an enumeration is the value of the member that is read. -/
theorem item_of_field_member {α : Type} [DecidableEq α] {members : List (String × α)}
    (hmembers : Enumerates members) {d : List (String × Json)} {key : String} {x : α}
    (h : field d key (member members) = .ok x) : item d key = .ok (.str (valueIn members x)) := by
  obtain ⟨value, hitem, hmember⟩ := bind_eq_ok_iff.mp h
  rw [hitem, eq_of_member hmembers hmember]

/-- An accepted dictionary is, on the keys of a heartbeat, the one that is written again. -/
theorem item_toDict {d : List (String × Json)} {msg : HeartbeatMsg.Whole} {seq : Int} {ts : Real}
    (h : codec.fromDict (.obj d) = .ok msg) (hseq : item d "seq" = .ok (.num seq))
    (hts : item d "ts" = .ok (.real ts)) (key : String) :
    item msg.toDict key = restricted d key := by
  obtain ⟨hnode, hrole, hseq', hpg, hdisk, hhealth, hts'⟩ := (codec.fromDict_eq_ok_iff).mp h
  have hseqEq : seq = msg.seq := by simpa [field, hseq, Except.bind, Decoder.int] using hseq'
  have htsEq : ts = msg.ts := by simpa [field, hts, Except.bind, float] using hts'
  by_cases hkey : key ∈ keys
  · rw [restricted, if_pos hkey]
    simp only [keys, List.mem_cons, List.not_mem_nil, or_false] at hkey
    rcases hkey with rfl | rfl | rfl | rfl | rfl | rfl | rfl
    · exact hnode.symm
    · exact (item_of_field_member enumerates_nodeRoles hrole).symm
    · rw [hseq, hseqEq]
      rfl
    · exact (item_of_field_member enumerates_pgStates hpg).symm
    · exact (item_of_field_member enumerates_diskStates hdisk).symm
    · exact (item_of_field_member enumerates_nodeHealths hhealth).symm
    · rw [hts, htsEq]
      rfl
  · rw [restricted, if_neg hkey]
    exact item_toDict_of_notMem msg hkey

/-- The first `try` after a datagram has been received. -/
def decode (data : List UInt8) : Except Exc HeartbeatMsg.Whole := do
  let d ← codec.loads data
  codec.fromDict d

end Codec

/-! ## From the sender to the receiver -/

namespace HeartbeatManager

/-- `_MAX_MSG_BYTES`. -/
def maxMsgBytes : ℕ := 4096

/-- The message that `_sender_loop` builds of the state of its node. -/
def message (cfg : Config) (localState : NodeState) (seq : Int) (ts : Real) :
    HeartbeatMsg.Whole where
  node := .str cfg.cluster.nodeName
  role := localState.role
  seq := seq
  pgState := localState.pgState
  diskState := localState.diskState
  nodeHealth := localState.health
  ts := ts

def payload (codec : Codec) (msg : HeartbeatMsg.Whole) : List UInt8 :=
  codec.dumps (.obj msg.toDict)

/-- `recvfrom(_MAX_MSG_BYTES)`, which drops the rest of a longer datagram. -/
def received (datagram : List UInt8) : List UInt8 := datagram.take maxMsgBytes

/-- The message says this of the state of a node. -/
structure Tells (cfg : Config) (localState : NodeState) (seq : Int) (ts : Real)
    (msg : HeartbeatMsg.Whole) : Prop where
  node : msg.node = .str cfg.cluster.nodeName
  role : msg.role = localState.role
  seq : msg.seq = seq
  pgState : msg.pgState = localState.pgState
  diskState : msg.diskState = localState.diskState
  nodeHealth : msg.nodeHealth = localState.health
  ts : msg.ts = ts

/-- A heartbeat decodes to what was sent, and an accepted dictionary is the dictionary of its
message.  What is assumed of the codecs is that they return the dictionary of this message. -/
theorem heartbeat_exchange (codec : Codec) :
    (∀ cfg localState seq ts,
      (payload codec (message cfg localState seq ts)).length ≤ maxMsgBytes →
      codec.loads (payload codec (message cfg localState seq ts)) =
        .ok (.obj (message cfg localState seq ts).toDict) →
      ∃ msg, codec.decode (received (payload codec (message cfg localState seq ts))) = .ok msg ∧
        Tells cfg localState seq ts msg) ∧
    ∀ d msg seq ts, codec.fromDict (.obj d) = .ok msg → item d "seq" = .ok (.num seq) →
      item d "ts" = .ok (.real ts) → ∀ key, item msg.toDict key = Codec.restricted d key := by
  refine ⟨fun cfg localState seq ts hlength hloads => ?_, fun d msg seq ts => ?_⟩
  · have hwhole : received (payload codec (message cfg localState seq ts)) =
        payload codec (message cfg localState seq ts) := List.take_of_length_le hlength
    refine ⟨message cfg localState seq ts, ?_, rfl, rfl, rfl, rfl, rfl, rfl, rfl⟩
    rw [hwhole, Codec.decode, hloads]
    exact codec.fromDict_toDict _
  · intro h hseq hts
    exact codec.item_toDict h hseq hts

/-- The encoder of the standard library at the time of the sample heartbeats. -/
def sampleCoding : JsonText.Coding where
  limit := 998
  parseFloat _ := .nan
  reprFloat _ := "1760000000.5".toList

/-- Codecs that know the sample heartbeats. -/
def sampleCodec : Codec where
  toDecoder := sampleDecoder
  dumps value := sampleBytes (String.ofList (sampleCoding.dumps value))
  floatOfInt value := .finite value

theorem payload_sampleCodec (msg : HeartbeatMsg.Whole) : payload sampleCodec msg =
    sampleBytes (String.ofList (sampleCoding.dumps (.obj msg.toDict))) := rfl

/-- The state of a promoted primary. -/
def sampleState : NodeState :=
  ⟨"pg-primary", .primary, .healthy, .runningPrimary, .attachedRw, 0, 0⟩

def sampleMessage : HeartbeatMsg.Whole :=
  message .samplePrimary sampleState 2 (.finite (3520000001 / 2))

theorem heartbeat_exchange_sample :
    (∃ msg, sampleCodec.decode (received (payload sampleCodec sampleMessage)) = .ok msg ∧
      Tells .samplePrimary sampleState 2 (.finite (3520000001 / 2)) msg) ∧
    ∀ key, item sampleMessage.toDict key = Codec.restricted sampleMessage.toDict key := by
  have htext : String.ofList (sampleCoding.dumps (.obj sampleMessage.toDict)) =
      samplePromoted.1 := by
    decide +kernel
  have hpayload : payload sampleCodec sampleMessage = sampleBytes samplePromoted.1 := by
    rw [payload_sampleCodec, htext]
  have hshort : (payload sampleCodec sampleMessage).length ≤ maxMsgBytes := by
    rw [hpayload]
    unfold sampleBytes samplePromoted sampleHeartbeat
    rw [List.length_map]
    simp [maxMsgBytes, -String.reduceAppend]
  have hdict : Json.obj sampleMessage.toDict = samplePromoted.2 := rfl
  have hloads : sampleCodec.loads (payload sampleCodec sampleMessage) =
      .ok (.obj sampleMessage.toDict) := by
    rw [hdict, hpayload]
    exact loads_samplePromoted
  have hread : sampleCodec.fromDict (.obj sampleMessage.toDict) = .ok sampleMessage :=
    sampleCodec.fromDict_toDict sampleMessage
  exact ⟨(heartbeat_exchange sampleCodec).1 _ _ _ _ hshort hloads,
    (heartbeat_exchange sampleCodec).2 _ _ _ _ hread rfl rfl⟩

end HeartbeatManager

end PgHa

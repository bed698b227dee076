import Mathlib.Data.List.Nodup
import PgHa.Effect.Wp
import PgHa.Heartbeat.Manager

/-!
# What the receiver makes of a datagram

`_receiver_loop` catches `ValueError` (with `json.JSONDecodeError`) and
`KeyError`.  Two results about its runs over any datagrams:

* `keepsReceiving_iff`: it survives exactly the datagrams that are not `Fatal`,
  and nothing but a datagram that it accepts changes what it keeps of the peer,
  the flag or the event queue.  A JSON value that is not an object, or an object
  whose `seq` or `ts` is `null`, raises a `TypeError` and ends the thread.
* `keepsLatest`: what it keeps of the peer is what the last heartbeat said that it
  accepted.  It compares no sequence numbers, and of names only its own.

A `Receipt` remembers, for every datagram received, what was kept and queued when
it came.
-/

namespace PgHa

open Effect

/-! ## Datagrams that the handler does not cover -/

/-- A computation that raises something that does not count as malformed. -/
def Escapes {α : Type} (result : Except Exc α) : Prop :=
  ∃ exc, result = .error exc ∧ HeartbeatManager.malformed exc = false

section Escapes

variable {α β : Type}

@[simp] theorem escapes_ok (value : α) : ¬ Escapes (.ok value : Except Exc α) := by
  rintro ⟨exc, h, -⟩
  cases h

@[simp] theorem escapes_error (exc : Exc) :
    Escapes (.error exc : Except Exc α) ↔ HeartbeatManager.malformed exc = false :=
  ⟨fun ⟨_, h, hexc⟩ => Except.error.inj h ▸ hexc, fun h => ⟨exc, rfl, h⟩⟩

/-- A sequence escapes where one of its parts does. -/
theorem escapes_bind {result : Except Exc α} {next : α → Except Exc β} :
    Escapes (result.bind next) ↔
      Escapes result ∨ ∃ value, result = .ok value ∧ Escapes (next value) := by
  cases result with
  | error exc => simp [Except.bind]
  | ok value => simp [Except.bind]

/-- A missing key is a `KeyError`. -/
@[simp] theorem not_escapes_item (fields : List (String × Json)) (key : String) :
    ¬ Escapes (item fields key) := by
  unfold item
  split <;> simp [HeartbeatManager.malformed]

/-- A value that is not in an enumeration is a `ValueError`. -/
@[simp] theorem not_escapes_member (members : List (String × α)) (value : Json) :
    ¬ Escapes (member members value) := by
  unfold member
  split
  · split <;> simp [HeartbeatManager.malformed]
  · simp [HeartbeatManager.malformed]

theorem escapes_field {fields : List (String × Json)} {key : String}
    {convert : Json → Except Exc α} :
    Escapes (field fields key convert) ↔
      ∃ value, item fields key = .ok value ∧ Escapes (convert value) := by
  simp [field, escapes_bind]

end Escapes

namespace Decoder

/-- The values that `int` refuses with a `TypeError` or an `OverflowError`. -/
inductive NoInt : Json → Prop
  | null : NoInt .null
  | arr (values : List Json) : NoInt (.arr values)
  | obj (fields : List (String × Json)) : NoInt (.obj fields)
  | infinite (negative : Bool) : NoInt (.real (.infinite negative))

/-- The values that `float` refuses with a `TypeError` or an `OverflowError`. -/
inductive NoFloat : Json → Prop
  | null : NoFloat .null
  | arr (values : List Json) : NoFloat (.arr values)
  | obj (fields : List (String × Json)) : NoFloat (.obj fields)
  | huge (value : Int) : floatBound ≤ value.natAbs → NoFloat (.num value)

variable (dec : Decoder)

theorem escapes_int {value : Json} : Escapes (dec.int value) ↔ NoInt value := by
  constructor
  · intro h
    unfold int at h
    split at h <;> (try split at h) <;> simp [HeartbeatManager.malformed] at h <;> constructor
  · rintro (_ | values | fields | negative) <;> simp [int, HeartbeatManager.malformed]

theorem escapes_checkFloat {value : Json} : Escapes (dec.checkFloat value) ↔ NoFloat value := by
  constructor
  · intro h
    unfold checkFloat at h
    split at h
    · split at h
      · simp at h
      · exact .huge _ (by omega)
    all_goals (try split at h) <;> simp [HeartbeatManager.malformed] at h <;> constructor
  · rintro (_ | values | fields | ⟨value, hhuge⟩)
    · simp [checkFloat, HeartbeatManager.malformed]
    · simp [checkFloat, HeartbeatManager.malformed]
    · simp [checkFloat, HeartbeatManager.malformed]
    · have hnot : ¬ value.natAbs < floatBound := by omega
      simp [checkFloat, hnot, HeartbeatManager.malformed]

/-- The datagrams that end the receiver's thread. -/
inductive Fatal (data : List UInt8) : Prop
  /-- Parsing raises something else than a `ValueError`, as deep nesting does. -/
  | parsing {exc : Exc} : dec.loads data = .error exc →
      HeartbeatManager.malformed exc = false → Fatal data
  /-- A JSON value that is no object. -/
  | noObject {value : Json} : dec.loads data = .ok value → (∀ fields, value ≠ .obj fields) →
      Fatal data
  /-- An object whose fields are well formed up to a sequence number that is no number. -/
  | seq {fields : List (String × Json)} {node value : Json} {role : NodeRole} :
      dec.loads data = .ok (.obj fields) → item fields "node" = .ok node →
      field fields "role" (member nodeRoles) = .ok role → item fields "seq" = .ok value →
      NoInt value → Fatal data
  /-- An object whose fields are well formed up to a time that is no number. -/
  | ts {fields : List (String × Json)} {node value : Json} {role : NodeRole} {seq : Int}
      {pgState : PgState} {diskState : DiskState} {nodeHealth : NodeHealth} :
      dec.loads data = .ok (.obj fields) → item fields "node" = .ok node →
      field fields "role" (member nodeRoles) = .ok role →
      field fields "seq" dec.int = .ok seq →
      field fields "pg_state" (member pgStates) = .ok pgState →
      field fields "disk_state" (member diskStates) = .ok diskState →
      field fields "node_health" (member nodeHealths) = .ok nodeHealth →
      item fields "ts" = .ok value → NoFloat value → Fatal data

variable {dec}

/-- Which objects raise something that the handler does not cover. -/
theorem escapes_fromDict {fields : List (String × Json)} :
    Escapes (dec.fromDict (.obj fields)) ↔
      ∃ node, item fields "node" = .ok node ∧
      ∃ role, field fields "role" (member nodeRoles) = .ok role ∧
      ((∃ value, item fields "seq" = .ok value ∧ NoInt value) ∨
        ∃ seq, field fields "seq" dec.int = .ok seq ∧
        ∃ pgState, field fields "pg_state" (member pgStates) = .ok pgState ∧
        ∃ diskState, field fields "disk_state" (member diskStates) = .ok diskState ∧
        ∃ nodeHealth, field fields "node_health" (member nodeHealths) = .ok nodeHealth ∧
        ∃ value, item fields "ts" = .ok value ∧ NoFloat value) := by
  simp only [fromDict, bind, pure, Except.pure, escapes_bind, not_escapes_item,
    not_escapes_member, escapes_field, escapes_int, escapes_checkFloat, escapes_ok, false_or,
    and_false, exists_false, or_false]

/-- **The fatal datagrams are those whose decoding the handler does not cover.** -/
theorem escapes_decode_iff {data : List UInt8} : Escapes (dec.decode data) ↔ dec.Fatal data := by
  constructor
  · intro h
    rcases escapes_bind.mp h with ⟨exc, hloads, hexc⟩ | ⟨value, hloads, hvalue⟩
    · exact .parsing hloads hexc
    by_cases hobj : ∃ fields, value = .obj fields
    · obtain ⟨fields, rfl⟩ := hobj
      obtain ⟨node, hnode, role, hrole, hrest⟩ := escapes_fromDict.mp hvalue
      rcases hrest with ⟨value, hitem, hno⟩ | ⟨seq, hseq, pg, hpg, disk, hdisk, health, hhealth,
        value, hitem, hno⟩
      · exact .seq hloads hnode hrole hitem hno
      · exact .ts hloads hnode hrole hseq hpg hdisk hhealth hitem hno
    · exact .noObject hloads fun fields hfields => hobj ⟨fields, hfields⟩
  · intro h
    apply escapes_bind.mpr
    cases h with
    | parsing hloads hexc => exact .inl ⟨_, hloads, hexc⟩
    | @noObject value hloads hobj =>
        refine .inr ⟨value, hloads, ?_⟩
        cases value with
        | obj fields => exact absurd rfl (hobj fields)
        | _ => simp [fromDict, HeartbeatManager.malformed]
    | seq hloads hnode hrole hitem hno =>
        exact .inr ⟨_, hloads, escapes_fromDict.mpr ⟨_, hnode, _, hrole, .inl ⟨_, hitem, hno⟩⟩⟩
    | ts hloads hnode hrole hseq hpg hdisk hhealth hitem hno =>
        refine .inr ⟨_, hloads, escapes_fromDict.mpr ⟨_, hnode, _, hrole, .inr ?_⟩⟩
        exact ⟨_, hseq, _, hpg, _, hdisk, _, hhealth, _, hitem, hno⟩

end Decoder

/-! ## Sample datagrams -/

def sampleBytes (text : String) : List UInt8 :=
  text.toList.map fun c => UInt8.ofNat c.toNat

/-- A heartbeat of the primary of the sample configuration, and its text. -/
def sampleHeartbeat (role pgState diskState seq : String) (value : Int) : String × Json :=
  ("\x7b\"node\": \"pg-primary\", \"role\": \"" ++ role ++ "\", \"seq\": " ++ seq ++
      ", \"pg_state\": \"" ++ pgState ++ "\", \"disk_state\": \"" ++ diskState ++
      "\", \"node_health\": \"healthy\", \"ts\": 1760000000.5\x7d",
    .obj [("node", .str "pg-primary"), ("role", .str role), ("seq", .num value),
      ("pg_state", .str pgState), ("disk_state", .str diskState), ("node_health", .str "healthy"),
      ("ts", .real (.finite (3520000001 / 2)))])

/-- A primary that was a standby without the disk before. -/
def sampleDemoted : String × Json := sampleHeartbeat "standby" "stopped" "detached" "1" 1

def samplePromoted : String × Json :=
  sampleHeartbeat "primary" "running_primary" "attached_rw" "2" 2

/-- A decoder that knows a few texts. -/
def sampleDecoder : Decoder where
  loads data :=
    if data = sampleBytes "[]" then .ok (.arr [])
    else if data = sampleBytes sampleDemoted.1 then .ok sampleDemoted.2
    else if data = sampleBytes samplePromoted.1 then .ok samplePromoted.2
    else .error ⟨.valueError, "Expecting value"⟩
  intOfText _ := none
  floatOfText _ := none
  str
    | .str text => text
    | _ => ""

theorem sampleBytes_append (first second : String) :
    sampleBytes (first ++ second) = sampleBytes first ++ sampleBytes second := by
  unfold sampleBytes
  rw [String.toList_append, List.map_append]

/-- Two sample heartbeats have the same bytes up to their roles. -/
theorem sampleBytes_sampleHeartbeat (role pgState diskState seq : String) (value : Int) :
    ∃ rest, sampleBytes (sampleHeartbeat role pgState diskState seq value).1 =
      sampleBytes "\x7b\"node\": \"pg-primary\", \"role\": \"" ++ (sampleBytes role ++ rest) := by
  obtain ⟨rest, htext⟩ : ∃ rest, (sampleHeartbeat role pgState diskState seq value).1 =
      "\x7b\"node\": \"pg-primary\", \"role\": \"" ++ (role ++ rest) := by
    unfold sampleHeartbeat
    simp only [String.append_assoc]
    exact ⟨_, rfl⟩
  rw [htext, sampleBytes_append, sampleBytes_append]
  exact ⟨sampleBytes rest, rfl⟩

theorem sampleBytes_sampleHeartbeat_ne (role pgState diskState seq : String) (value : Int) :
    sampleBytes (sampleHeartbeat role pgState diskState seq value).1 ≠ sampleBytes "[]" := by
  obtain ⟨rest, hrest⟩ := sampleBytes_sampleHeartbeat role pgState diskState seq value
  rw [hrest]
  unfold sampleBytes
  simp

theorem loads_sampleDemoted :
    sampleDecoder.loads (sampleBytes sampleDemoted.1) = .ok sampleDemoted.2 := by
  have hne : sampleBytes sampleDemoted.1 ≠ sampleBytes "[]" :=
    sampleBytes_sampleHeartbeat_ne _ _ _ _ _
  simp [sampleDecoder, hne]

theorem loads_samplePromoted :
    sampleDecoder.loads (sampleBytes samplePromoted.1) = .ok samplePromoted.2 := by
  have hne : sampleBytes samplePromoted.1 ≠ sampleBytes "[]" :=
    sampleBytes_sampleHeartbeat_ne _ _ _ _ _
  have hne' : sampleBytes samplePromoted.1 ≠ sampleBytes sampleDemoted.1 := by
    obtain ⟨rest, hrest⟩ := sampleBytes_sampleHeartbeat "primary" "running_primary"
      "attached_rw" "2" 2
    obtain ⟨rest', hrest'⟩ := sampleBytes_sampleHeartbeat "standby" "stopped" "detached" "1" 1
    rw [samplePromoted, sampleDemoted, hrest, hrest']
    intro hsame
    have hroles := List.append_cancel_left hsame
    unfold sampleBytes at hroles
    simp at hroles
  simp [sampleDecoder, hne, hne']

/-! ## The receiver and its datagrams -/

open HeartbeatManager

/-- `_EVENT_QUEUE_SIZE` of `daemon.py`. -/
def eventQueueSize : ℕ := 256

/-- A datagram, and what was kept of the peer and queued when it came. -/
structure Receipt where
  data : List UInt8
  view : View
  queue : List HaEvent

/-- The receiver's side of the manager.  The inbox holds the datagrams that are still to
come, as `recvfrom` returns them. -/
structure Reception where
  view : View
  queue : List HaEvent
  inbox : List (List UInt8)
  receipts : List Receipt

namespace Reception

/-- The state in which the receiver starts. -/
def start (view : View) (queue : List HaEvent) (inbox : List (List UInt8)) : Reception :=
  ⟨view, queue, inbox, []⟩

def receive (s : Reception) (data : List UInt8) (rest : List (List UInt8)) : Reception :=
  { s with inbox := rest, receipts := s.receipts ++ [⟨data, s.view, s.queue⟩] }

def store (s : Reception) (msg : HeartbeatMsg) (now : Int) : Reception :=
  { s with view := s.view.store msg now }

/-- `put_nowait`: an event that finds no room is dropped. -/
def put (s : Reception) (event : HaEvent) : Reception :=
  if s.queue.length < eventQueueSize then { s with queue := s.queue ++ [event] } else s

@[simp] theorem put_view (s : Reception) (event : HaEvent) : (s.put event).view = s.view := by
  unfold put
  split <;> rfl

@[simp] theorem put_inbox (s : Reception) (event : HaEvent) : (s.put event).inbox = s.inbox := by
  unfold put
  split <;> rfl

@[simp] theorem put_receipts (s : Reception) (event : HaEvent) :
    (s.put event).receipts = s.receipts := by
  unfold put
  split <;> rfl

/-- What the operations of the receiver do.  Waiting for a datagram may also time out or
fail. -/
def step (s : Reception) (event : Event Call.Ret Exc) (s' : Reception) : Prop :=
  match event with
  | ⟨.host .recvDatagram, answer⟩ =>
      (∃ data rest, s.inbox = data :: rest ∧ answer = .ok data ∧ s' = s.receive data rest) ∨
        ∃ exc, answer = .error exc ∧ exc.isOSError = true ∧ s' = s
  | ⟨.host .peerAliveFlag, answer⟩ => answer = .ok s.view.alive ∧ s' = s
  | ⟨.host (.storeHeartbeat msg), answer⟩ => answer = .ok () ∧ ∃ now, s' = s.store msg now
  | ⟨.host (.putEvent event), answer⟩ =>
      answer = (if s.queue.length < eventQueueSize then .ok () else .error ⟨.queueFull, ""⟩) ∧
        s' = s.put event
  | _ => s' = s

/-- The block that tells the main loop of a peer that was not alive before. -/
def announce (cfg : Config) (msg : HeartbeatMsg) (wasAlive : Bool) (s : Reception) : Reception :=
  if !wasAlive then
    s.put ⟨.peerRecovered, cfg.cluster.nodeName,
      s!"Peer {msg.nodeText} is alive again (seq={msg.seq})"⟩
  else s

@[simp] theorem announce_inbox (cfg : Config) (msg : HeartbeatMsg) (wasAlive : Bool)
    (s : Reception) : (s.announce cfg msg wasAlive).inbox = s.inbox := by
  unfold announce
  split <;> simp

@[simp] theorem announce_view (cfg : Config) (msg : HeartbeatMsg) (wasAlive : Bool)
    (s : Reception) : (s.announce cfg msg wasAlive).view = s.view := by
  unfold announce
  split <;> simp

@[simp] theorem announce_receipts (cfg : Config) (msg : HeartbeatMsg) (wasAlive : Bool)
    (s : Reception) : (s.announce cfg msg wasAlive).receipts = s.receipts := by
  unfold announce
  split <;> simp

variable {cfg : Config} {dec : Decoder} {s s' : Reception}

/-- What one pass of `_receiver_loop` comes to. -/
inductive Passed (cfg : Config) (dec : Decoder) (s : Reception) :
    Outcome Exc Unit → Reception → Prop
  | waited : Passed cfg dec s (.returned ()) s
  | malformed {data : List UInt8} {rest : List (List UInt8)} {exc : Exc} :
      s.inbox = data :: rest → dec.decode data = .error exc →
      HeartbeatManager.malformed exc = true →
      Passed cfg dec s (.returned ()) (s.receive data rest)
  | fatal {data : List UInt8} {rest : List (List UInt8)} {exc : Exc} :
      s.inbox = data :: rest → dec.decode data = .error exc →
      HeartbeatManager.malformed exc = false →
      Passed cfg dec s (.raised exc) (s.receive data rest)
  | own {data : List UInt8} {rest : List (List UInt8)} {msg : HeartbeatMsg} :
      s.inbox = data :: rest → dec.decode data = .ok msg →
      msg.node = some cfg.cluster.nodeName →
      Passed cfg dec s (.returned ()) (s.receive data rest)
  | stored {data : List UInt8} {rest : List (List UInt8)} {msg : HeartbeatMsg} (now : Int) :
      s.inbox = data :: rest → dec.decode data = .ok msg →
      msg.node ≠ some cfg.cluster.nodeName →
      Passed cfg dec s (.returned ())
        (((s.receive data rest).store msg now).announce cfg msg s.view.alive)

/-- While the last datagram was not accepted, nothing has changed since it came. -/
def Tidy (dec : Decoder) (s : Reception) : Prop :=
  ∀ receipt, s.receipts.getLast? = some receipt →
    (∃ msg, dec.decode receipt.data = .ok msg) ∨
      (s.view = receipt.view ∧ s.queue = receipt.queue)

theorem tidy_start (view : View) (queue : List HaEvent) (inbox : List (List UInt8)) :
    Tidy dec (start view queue inbox) := by
  intro receipt hlast
  simp [start] at hlast

/-- A datagram that has just come has not changed anything. -/
theorem tidy_receive (s : Reception) (data : List UInt8) (rest : List (List UInt8)) :
    Tidy dec (s.receive data rest) := by
  intro receipt hlast
  obtain rfl : ⟨data, s.view, s.queue⟩ = receipt := by simpa [receive] using hlast
  exact .inr ⟨rfl, rfl⟩

theorem tidy_accepted {data : List UInt8} {msg : HeartbeatMsg} {before : List Receipt}
    {view : View} {queue : List HaEvent} (hmsg : dec.decode data = .ok msg)
    (hreceipts : s.receipts = before ++ [⟨data, view, queue⟩]) : Tidy dec s := by
  intro receipt hlast
  obtain rfl : ⟨data, view, queue⟩ = receipt := by simpa [hreceipts] using hlast
  exact .inl ⟨msg, hmsg⟩

/-- What a pass does at each of its operations, if the state is tidy throughout. -/
abbrev watched (dec : Decoder) : Transformer Call.Ret Exc Reception :=
  guarded (fun mid _ => Tidy dec mid) step

theorem watched_monotone (dec : Decoder) : (watched dec).Monotone := guarded_monotone _ _

theorem wp_emit {eventType : HaEventType} {message : String}
    {post : Outcome Exc Unit → Reception → Prop} (htidy : Tidy dec s)
    (hpost : post (.returned ()) (s.put ⟨eventType, cfg.cluster.nodeName, message⟩)) :
    (emit cfg eventType message).wp (watched dec) post s := by
  rw [emit, Prog.wp_except, Prog.wp_perform]
  refine ⟨htidy, ?_⟩
  rintro answer s' ⟨rfl, rfl⟩
  split
  · exact hpost
  · simpa using hpost

/-- **One pass of the receiver.** -/
theorem wp_receiverPass {post : Outcome Exc Unit → Reception → Prop} (htidy : Tidy dec s)
    (hpost : ∀ outcome s', Passed cfg dec s outcome s' → post outcome s') :
    (receiverPass cfg dec).wp (watched dec) post s := by
  simp only [receiverPass, Prog.bind_eq, Prog.wp_bind, Prog.wp_attempt, Prog.wp_perform]
  refine ⟨htidy, ?_⟩
  rintro answer s' (⟨data, rest, hinbox, rfl, rfl⟩ | ⟨exc, rfl, hexc, rfl⟩)
  · have hreceived : Tidy dec (s.receive data rest) := tidy_receive s data rest
    simp only [Prog.answered_ok, Prog.captured_returned, Prog.andThen_returned]
    -- one case for each way in which a pass can end
    cases hdecode : dec.decode data with
    | error exc =>
        cases hexc : malformed exc with
        | true => simpa [hexc] using hpost _ _ (.malformed hinbox hdecode hexc)
        | false => simpa [hexc] using hpost _ _ (.fatal hinbox hdecode hexc)
    | ok msg =>
        by_cases hnode : msg.node = some cfg.cluster.nodeName
        · simpa [hnode] using hpost _ _ (.own hinbox hdecode hnode)
        simp only [hnode, if_false, Prog.wp_bind, Prog.wp_perform]
        refine ⟨hreceived, ?_⟩
        rintro answer s' ⟨rfl, rfl⟩
        simp only [Prog.answered_ok, Prog.andThen_returned, Prog.wp_bind, Prog.wp_perform]
        refine ⟨hreceived, ?_⟩
        rintro answer s' ⟨rfl, now, rfl⟩
        have hstored : Tidy dec ((s.receive data rest).store msg now) :=
          tidy_accepted hdecode rfl
        have hend := hpost _ _ (.stored now hinbox hdecode hnode)
        cases halive : s.view.alive with
        | true => simpa [halive, receive, announce] using hend
        | false =>
            rw [halive] at hend
            simpa [halive, receive] using wp_emit hstored hend
  · simpa [hexc] using hpost _ _ .waited

/-- Every such pass is one that the receiver can make. -/
theorem post_of_passed {post : Outcome Exc Unit → Reception → Prop}
    (h : (receiverPass cfg dec).wp (demonic step) post s) {outcome : Outcome Exc Unit}
    (hpassed : Passed cfg dec s outcome s') : post outcome s' := by
  simp only [receiverPass, Prog.bind_eq, Prog.wp_bind, Prog.wp_attempt, Prog.wp_perform] at h
  have hreceive : ∀ {data rest}, s.inbox = data :: rest → _ := fun hinbox =>
    h (.ok _) _ (.inl ⟨_, _, hinbox, rfl, rfl⟩)
  cases hpassed with
  | waited => simpa [Exc.isOSError] using h (.error ⟨.osError, ""⟩) s (.inr ⟨_, rfl, rfl, rfl⟩)
  | malformed hinbox hdecode hexc => simpa [hdecode, hexc] using hreceive hinbox
  | fatal hinbox hdecode hexc => simpa [hdecode, hexc] using hreceive hinbox
  | own hinbox hdecode hnode => simpa [hdecode, hnode] using hreceive hinbox
  | @stored data rest msg now hinbox hdecode hnode =>
      have hflag := hreceive hinbox
      simp only [Prog.answered_ok, Prog.captured_returned, Prog.andThen_returned, hdecode, hnode,
        if_false, Prog.wp_bind, Prog.wp_perform] at hflag
      have hstore := hflag (.ok s.view.alive) _ ⟨rfl, rfl⟩
      simp only [Prog.answered_ok, Prog.andThen_returned, Prog.wp_bind, Prog.wp_perform] at hstore
      have hend := hstore (.ok ()) _ ⟨rfl, now, rfl⟩
      cases halive : s.view.alive with
      | true => simpa [halive, announce] using hend
      | false =>
          simp only [halive, Prog.answered_ok, Prog.andThen_returned, Bool.not_false, if_true, emit,
            Prog.wp_except, Prog.wp_perform] at hend
          have hput := hend _ _ ⟨rfl, rfl⟩
          split at hput
          · simpa [announce] using hput
          · simpa [announce] using hput

/-! ## Reception survives what is not fatal -/

theorem wp_receiverLoop {inv : Reception → Prop} {E : Exc → Reception → Prop}
    (htidy : ∀ s, inv s → Tidy dec s)
    (hpass : ∀ s outcome s', inv s → Passed cfg dec s outcome s' →
      Prog.passing inv E outcome s') (fuel : ℕ) (hs : inv s) :
    (receiverLoop cfg dec fuel).wp (watched dec) (Prog.passing inv E) s := by
  refine Prog.wp_passes (watched_monotone dec) rfl (fun _ => rfl) ?_ fuel hs
  intro s hs
  exact wp_receiverPass (htidy s hs) fun outcome s' hpassed => hpass s outcome s' hs hpassed

/-- The receiver goes on whatever comes, and a datagram that it does not accept leaves what
it keeps of the peer, the flag and the queue as they were. -/
def KeepsReceiving (cfg : Config) (dec : Decoder) (inbox : List (List UInt8)) : Prop :=
  ∀ view queue fuel trace outcome s', (receiverLoop cfg dec fuel).Trace trace outcome →
    History step (start view queue inbox) trace s' →
      (∀ exc, outcome ≠ .raised exc) ∧
        ∀ before after mid, trace = before ++ after →
          History step (start view queue inbox) before mid → Tidy dec mid

theorem Passed.tidy {outcome : Outcome Exc Unit} (h : Passed cfg dec s outcome s')
    (htidy : Tidy dec s) : Tidy dec s' := by
  cases h with
  | waited => exact htidy
  | malformed => exact tidy_receive _ _ _
  | fatal => exact tidy_receive _ _ _
  | own => exact tidy_receive _ _ _
  | @stored data rest msg now hinbox hdecode =>
      have hreceipts :
          (((s.receive data rest).store msg now).announce cfg msg s.view.alive).receipts =
            s.receipts ++ [⟨data, s.view, s.queue⟩] := announce_receipts _ _ _ _
      exact tidy_accepted hdecode hreceipts

theorem Passed.inbox {outcome : Outcome Exc Unit} (h : Passed cfg dec s outcome s') :
    s'.inbox = s.inbox ∨ ∃ data, s.inbox = data :: s'.inbox := by
  cases h with
  | waited => exact .inl rfl
  | malformed hinbox => exact .inr ⟨_, hinbox⟩
  | fatal hinbox => exact .inr ⟨_, hinbox⟩
  | own hinbox => exact .inr ⟨_, hinbox⟩
  | @stored data rest msg now hinbox =>
      refine .inr ⟨data, ?_⟩
      rw [announce_inbox]
      exact hinbox

/-- A pass ends the thread only on a fatal datagram. -/
theorem Passed.fatal_of_raised {exc : Exc} (h : Passed cfg dec s (.raised exc) s') :
    ∃ data ∈ s.inbox, dec.Fatal data := by
  cases h with
  | @fatal data rest _ hinbox hdecode hexc =>
      exact ⟨data, by simp [hinbox], Decoder.escapes_decode_iff.mp ⟨exc, hdecode, hexc⟩⟩

/-- A datagram that is not fatal is dealt with. -/
theorem exists_passed {data : List UInt8} {rest : List (List UInt8)}
    (hinbox : s.inbox = data :: rest) (hfatal : ¬ dec.Fatal data) :
    ∃ s', Passed cfg dec s (.returned ()) s' ∧ s'.inbox = rest := by
  cases hdecode : dec.decode data with
  | error exc =>
      have hexc : malformed exc = true := by
        by_contra h
        exact hfatal (Decoder.escapes_decode_iff.mp ⟨exc, hdecode, by simpa using h⟩)
      exact ⟨_, .malformed hinbox hdecode hexc, rfl⟩
  | ok msg =>
      by_cases hnode : msg.node = some cfg.cluster.nodeName
      · exact ⟨_, .own hinbox hdecode hnode, rfl⟩
      · refine ⟨_, .stored 0 hinbox hdecode hnode, ?_⟩
        rw [announce_inbox]
        rfl

theorem not_fatal_of_wp {inbox : List (List UInt8)} (hinbox : s.inbox = inbox)
    (h : (receiverLoop cfg dec inbox.length).wp (demonic step)
      (fun outcome _ => ∀ exc, outcome ≠ .raised exc) s) : ∀ data ∈ inbox, ¬ dec.Fatal data := by
  induction inbox generalizing s with
  | nil => simp
  | cons data rest ih =>
      rw [List.length_cons, receiverLoop, Prog.bind_eq, Prog.wp_bind] at h
      have hdata : ¬ dec.Fatal data := by
        intro hfatal
        obtain ⟨exc, hdecode, hexc⟩ := Decoder.escapes_decode_iff.mpr hfatal
        exact post_of_passed h (.fatal hinbox hdecode hexc) exc rfl
      obtain ⟨s', hpassed, hrest⟩ : ∃ s', Passed cfg dec s (.returned ()) s' ∧ s'.inbox = rest :=
        exists_passed hinbox hdata
      intro d hd
      rcases List.mem_cons.mp hd with rfl | hd
      · exact hdata
      · exact ih hrest (post_of_passed h hpassed) d hd

theorem not_fatal_of_keepsReceiving {inbox : List (List UInt8)}
    (h : KeepsReceiving cfg dec inbox) : ∀ data ∈ inbox, ¬ dec.Fatal data := by
  let view : View := ⟨⟨cfg.cluster.peerNode, .unknown, .unknown, .unknown, .unknown, 0, 0⟩, false⟩
  have hwp : (receiverLoop cfg dec inbox.length).wp (demonic step)
      (fun outcome _ => ∀ exc, outcome ≠ .raised exc) (start view [] inbox) := by
    apply Prog.wp_demonic_iff.mpr
    intro trace outcome s' htrace hhistory
    exact (h _ _ _ _ _ _ htrace hhistory).1
  exact not_fatal_of_wp rfl hwp

/-- **Which datagrams the receiver survives.** -/
theorem keepsReceiving_iff (cfg : Config) (dec : Decoder) (inbox : List (List UInt8)) :
    KeepsReceiving cfg dec inbox ↔ ∀ data ∈ inbox, ¬ dec.Fatal data := by
  constructor
  · exact not_fatal_of_keepsReceiving
  · intro h view queue fuel trace outcome s' htrace hhistory
    -- a fatal datagram that is not there is not received
    let inv (s : Reception) : Prop := Tidy dec s ∧ ∀ data ∈ s.inbox, ¬ dec.Fatal data
    have hloop : (receiverLoop cfg dec fuel).wp (watched dec)
        (Prog.passing inv fun _ _ => False) (start view queue inbox) := by
      refine wp_receiverLoop (fun s hs => hs.1) ?_ fuel ⟨tidy_start view queue inbox, h⟩
      intro s outcome s' hs hpassed
      have hinv : inv s' := by
        refine ⟨hpassed.tidy hs.1, fun data hdata => hs.2 data ?_⟩
        rcases hpassed.inbox with hsame | ⟨first, hfirst⟩
        · exact hsame ▸ hdata
        · exact hfirst ▸ List.mem_cons_of_mem _ hdata
      cases outcome with
      | returned value => exact hinv
      | stuck => exact hinv
      | raised exc =>
          obtain ⟨data, hdata, hfatal⟩ := hpassed.fatal_of_raised
          exact hs.2 data hdata hfatal
    have hend := Prog.trace_wp (Prog.wp_of_guarded hloop) htrace hhistory
    constructor
    · rintro exc rfl
      exact hend
    · intro before after mid hsplit hbefore
      refine Prog.throughout_of_wp_guarded (Prog.wp_mono (watched_monotone dec) ?_ hloop) htrace
        hsplit hbefore
      intro outcome s' hend
      cases outcome with
      | returned value => exact hend.1
      | stuck => exact hend.1
      | raised exc => exact hend.elim

/-- A datagram of two brackets is a JSON value, and `d["node"]` of it is a `TypeError`. -/
theorem not_keepsReceiving :
    ¬ KeepsReceiving .samplePrimary sampleDecoder [sampleBytes "[]"] := by
  intro h
  have hloads : sampleDecoder.loads (sampleBytes "[]") = .ok (.arr []) := by
    simp [sampleDecoder]
  exact not_fatal_of_keepsReceiving h _ (by simp) (.noObject hloads (by simp))

/-! ## What the receiver keeps is what it heard last -/

/-- The heartbeat that the receiver makes of a datagram, unless it drops it. -/
def heard (cfg : Config) (dec : Decoder) (data : List UInt8) : Option HeartbeatMsg :=
  match dec.decode data with
  | .ok msg => if msg.node = some cfg.cluster.nodeName then none else some msg
  | .error _ => none

def latest (cfg : Config) (dec : Decoder) (handled : List (List UInt8)) : Option HeartbeatMsg :=
  (handled.filterMap (heard cfg dec)).getLast?

/-- The datagrams received so far. -/
def handled (s : Reception) : List (List UInt8) := s.receipts.map Receipt.data

/-- What is kept of the peer is what the heartbeat said. -/
structure Shows (peer : NodeState) (msg : HeartbeatMsg) : Prop where
  role : peer.role = msg.role
  health : peer.health = msg.nodeHealth
  pgState : peer.pgState = msg.pgState
  diskState : peer.diskState = msg.diskState
  heartbeatSeq : peer.heartbeatSeq = msg.seq

/-- What is kept after a latest heartbeat, or without one. -/
def Reports (before : View) : Option HeartbeatMsg → View → Prop
  | some msg, view => Shows view.peer msg
  | none, view => view = before

/-- A state of a run from `start view queue inbox` in which the receiver is about to wait. -/
structure Follows (cfg : Config) (dec : Decoder) (view : View) (inbox : List (List UInt8))
    (s : Reception) : Prop where
  reports : Reports view (latest cfg dec s.handled) s.view
  order : s.handled ++ s.inbox = inbox

theorem latest_append (data : List UInt8) (earlier : List (List UInt8)) :
    latest cfg dec (earlier ++ [data]) = (heard cfg dec data).or (latest cfg dec earlier) := by
  unfold latest
  cases h : heard cfg dec data <;> simp [h]

@[simp] theorem handled_receive (s : Reception) (data : List UInt8) (rest : List (List UInt8)) :
    (s.receive data rest).handled = s.handled ++ [data] := by
  simp [handled, receive]

theorem follows_start (view : View) (queue : List HaEvent) (inbox : List (List UInt8)) :
    Follows cfg dec view inbox (start view queue inbox) :=
  ⟨rfl, rfl⟩

section Follows

variable {view : View} {inbox rest : List (List UInt8)} {data : List UInt8}

theorem Follows.receive (h : Follows cfg dec view inbox s) (hinbox : s.inbox = data :: rest)
    (hheard : heard cfg dec data = none) : Follows cfg dec view inbox (s.receive data rest) := by
  refine ⟨?_, ?_⟩
  · rw [handled_receive, latest_append, hheard, Option.none_or]
    exact h.reports
  · have horder := h.order
    rw [hinbox] at horder
    rw [handled_receive, List.append_assoc]
    exact horder

theorem Follows.stored (h : Follows cfg dec view inbox s) (hinbox : s.inbox = data :: rest)
    {msg : HeartbeatMsg} (hheard : heard cfg dec data = some msg) (now : Int) (wasAlive : Bool) :
    Follows cfg dec view inbox
      (((s.receive data rest).store msg now).announce cfg msg wasAlive) := by
  have hhandled : (((s.receive data rest).store msg now).announce cfg msg wasAlive).handled =
      s.handled ++ [data] := by
    rw [handled, announce_receipts]
    exact handled_receive s data rest
  refine ⟨?_, ?_⟩
  · rw [hhandled, latest_append, hheard, Option.some_or, announce_view]
    exact ⟨rfl, rfl, rfl, rfl, rfl⟩
  · have horder := h.order
    rw [hinbox] at horder
    rw [hhandled, announce_inbox, List.append_assoc]
    exact horder

/-- What one pass preserves. -/
theorem Follows.passed (h : Follows cfg dec view inbox s) {outcome : Outcome Exc Unit}
    (hpassed : Passed cfg dec s outcome s') : Follows cfg dec view inbox s' := by
  cases hpassed with
  | waited => exact h
  | malformed hinbox hdecode => exact h.receive hinbox (by simp [heard, hdecode])
  | fatal hinbox hdecode => exact h.receive hinbox (by simp [heard, hdecode])
  | own hinbox hdecode hnode => exact h.receive hinbox (by simp [heard, hdecode, hnode])
  | stored now hinbox hdecode hnode =>
      exact h.stored hinbox (by simp [heard, hdecode, hnode]) now s.view.alive

/-- What a whole run preserves. -/
theorem follows_run {queue : List HaEvent} {fuel : ℕ} {trace : List (Event Call.Ret Exc)}
    {outcome : Outcome Exc Unit} (htrace : (receiverLoop cfg dec fuel).Trace trace outcome)
    (hhistory : History step (start view queue inbox) trace s') :
    Follows cfg dec view inbox s' := by
  let inv (s : Reception) : Prop := Tidy dec s ∧ Follows cfg dec view inbox s
  have hloop : (receiverLoop cfg dec fuel).wp (watched dec) (Prog.passing inv fun _ => inv)
      (start view queue inbox) := by
    apply wp_receiverLoop (fun s hs => hs.1) _ fuel
      ⟨tidy_start view queue inbox, follows_start view queue inbox⟩
    intro s outcome s' hs hpassed
    have hinv : inv s' := ⟨hpassed.tidy hs.1, hs.2.passed hpassed⟩
    cases outcome <;> exact hinv
  have hend := Prog.trace_wp (Prog.wp_of_guarded hloop) htrace hhistory
  cases outcome <;> exact hend.2

end Follows

/-- Datagrams that carry messages of one uninterrupted run of the peer's sender, or
heartbeats of other nodes. -/
structure SenderRun (cfg : Config) (dec : Decoder) (sent : List HeartbeatMsg)
    (inbox : List (List UInt8)) : Prop where
  named : ∀ msg ∈ sent, msg.node = some cfg.cluster.peerNode
  increasing : sent.Pairwise fun msg later => msg.seq < later.seq
  arrives : ∀ data ∈ inbox, ∃ msg, dec.decode data = .ok msg ∧
    (msg ∈ sent ∨ msg.node ≠ some cfg.cluster.peerNode)

/-- A sequence number belongs to one message. -/
theorem SenderRun.unique {sent : List HeartbeatMsg} {inbox : List (List UInt8)}
    (h : SenderRun cfg dec sent inbox) {msg msg' : HeartbeatMsg} (hmsg : msg ∈ sent)
    (hmsg' : msg' ∈ sent) (hseq : msg.seq = msg'.seq) : msg = msg' := by
  have hnodup : (sent.map HeartbeatMsg.seq).Nodup :=
    List.pairwise_map.mpr (h.increasing.imp fun hlt => Int.ne_of_lt hlt)
  exact List.inj_on_of_nodup_map hnodup hmsg hmsg' hseq

/-- For every delivery of the peer's heartbeats, the receiver keeps what the newest one says
that it has received, and heartbeats of other nodes change nothing. -/
def KeepsFreshest (cfg : Config) (dec : Decoder) (delivery : List (List UInt8) → Prop) : Prop :=
  ∀ sent view queue inbox fuel trace outcome s', SenderRun cfg dec sent inbox → delivery inbox →
    (receiverLoop cfg dec fuel).Trace trace outcome →
    History step (start view queue inbox) trace s' →
      (∀ msg ∈ sent, (∃ data ∈ s'.handled, dec.decode data = .ok msg) →
        (∀ data ∈ s'.handled, ∀ other, dec.decode data = .ok other →
          other.node = some cfg.cluster.peerNode → other.seq ≤ msg.seq) →
        Shows s'.view.peer msg) ∧
      ((∀ data ∈ s'.handled, ∀ msg, dec.decode data = .ok msg →
          msg.node ≠ some cfg.cluster.peerNode) →
        s'.view = view)

/-- The receiver keeps what the last heartbeat says that it has received under another name
than its own, whatever its sequence number, and nothing else changes what it keeps. -/
def KeepsLatest (cfg : Config) (dec : Decoder) : Prop :=
  ∀ view queue inbox fuel trace outcome s', (receiverLoop cfg dec fuel).Trace trace outcome →
    History step (start view queue inbox) trace s' →
      Reports view (latest cfg dec s'.handled) s'.view

/-- Only the peer's heartbeats arrive, and in the order in which they were sent. -/
structure InOrder (cfg : Config) (dec : Decoder) (inbox : List (List UInt8)) : Prop where
  named : ∀ data ∈ inbox, ∃ msg, dec.decode data = .ok msg ∧
    msg.node = some cfg.cluster.peerNode ∧ msg.node ≠ some cfg.cluster.nodeName
  sorted : inbox.Pairwise fun data later => ∀ msg msg', dec.decode data = .ok msg →
    dec.decode later = .ok msg' → msg.seq ≤ msg'.seq

/-- In order, the last one is the newest one. -/
theorem keepsFreshest_inOrder (cfg : Config) (dec : Decoder) :
    KeepsFreshest cfg dec (InOrder cfg dec) := by
  intro sent view queue inbox fuel trace outcome s' hsender horder htrace hhistory
  have hfollows := follows_run htrace hhistory
  have hsub : ∀ data ∈ s'.handled, data ∈ inbox := by
    intro data hdata
    rw [← hfollows.order]
    exact List.mem_append_left _ hdata
  have hheard : ∀ data ∈ s'.handled, ∃ msg, dec.decode data = .ok msg ∧
      msg.node = some cfg.cluster.peerNode ∧ heard cfg dec data = some msg := by
    intro data hdata
    obtain ⟨msg, hdecode, hpeer, hown⟩ := horder.named data (hsub data hdata)
    exact ⟨msg, hdecode, hpeer, by simp [heard, hdecode, hown]⟩
  refine ⟨?_, ?_⟩
  · rintro msg hmsg ⟨data, hdata, hdecode⟩ hmax
    obtain ⟨earlier, last, hsplit⟩ : ∃ earlier last, s'.handled = earlier ++ [last] :=
      ⟨_, _, (List.dropLast_append_getLast (List.ne_nil_of_mem hdata)).symm⟩
    have hlast : last ∈ s'.handled := by simp [hsplit]
    obtain ⟨newest, hnewest, hpeer, hshown⟩ := hheard last hlast
    have hreports := hfollows.reports
    rw [hsplit, latest_append, hshown, Option.some_or] at hreports
    -- `msg` was received no later than the last one, and no other one is newer than it
    have hle : newest.seq ≤ msg.seq := hmax last hlast newest hnewest hpeer
    have hge : msg.seq ≤ newest.seq := by
      rcases List.mem_append.mp (hsplit ▸ hdata) with hearlier | hlast
      · -- what was handled earlier has arrived earlier, in the order of the numbers
        have hsorted : (s'.handled ++ s'.inbox).Pairwise _ := hfollows.order ▸ horder.sorted
        rw [hsplit] at hsorted
        have hpair := (List.pairwise_append.mp (List.pairwise_append.mp hsorted).1).2.2
        exact hpair data hearlier last (by simp) msg newest hdecode hnewest
      · obtain rfl : data = last := by simpa using hlast
        obtain rfl : msg = newest := Except.ok.inj (hdecode.symm.trans hnewest)
        exact Int.le_refl _
    have hsent : newest ∈ sent := by
      obtain ⟨other, hother, hcase⟩ := hsender.arrives last (hsub last hlast)
      obtain rfl : other = newest := Except.ok.inj (hother.symm.trans hnewest)
      exact hcase.resolve_right fun hne => hne hpeer
    -- a number stands for one message
    have heq : newest = msg := hsender.unique hsent hmsg (Int.le_antisymm hle hge)
    exact heq ▸ hreports
  · intro hnone
    have hempty : s'.handled = [] := by
      cases hhandled : s'.handled with
      | nil => rfl
      | cons data rest =>
          have hmem : data ∈ s'.handled := by simp [hhandled]
          obtain ⟨msg, hdecode, hpeer, -⟩ := hheard data hmem
          exact absurd hpeer (hnone data hmem msg hdecode)
    have hreports := hfollows.reports
    rw [hempty] at hreports
    exact hreports

/-- **What the receiver keeps of the peer.** -/
theorem keepsLatest (cfg : Config) (dec : Decoder) :
    KeepsLatest cfg dec ∧ KeepsFreshest cfg dec (InOrder cfg dec) :=
  ⟨fun _ _ _ _ _ _ _ htrace hhistory => (follows_run htrace hhistory).reports,
    keepsFreshest_inOrder cfg dec⟩

/-- The messages of the two sample datagrams. -/
def sampleOlder : HeartbeatMsg :=
  ⟨some "pg-primary", "pg-primary", .standby, 1, .stopped, .detached, .healthy⟩

def sampleNewer : HeartbeatMsg :=
  ⟨some "pg-primary", "pg-primary", .primary, 2, .runningPrimary, .attachedRw, .healthy⟩

theorem decode_sampleDemoted :
    sampleDecoder.decode (sampleBytes sampleDemoted.1) = .ok sampleOlder := by
  rw [Decoder.decode, loads_sampleDemoted]
  decide

theorem decode_samplePromoted :
    sampleDecoder.decode (sampleBytes samplePromoted.1) = .ok sampleNewer := by
  rw [Decoder.decode, loads_samplePromoted]
  decide

/-- Heartbeats that arrive in order: after both, the newer one is kept. -/
theorem keepsLatest_inOrder : ∃ older newer trace outcome s',
    sampleDecoder.decode older = .ok sampleOlder ∧ sampleDecoder.decode newer = .ok sampleNewer ∧
      (receiverLoop .sampleStandby sampleDecoder 2).Trace trace outcome ∧
      History step (start ⟨⟨"pg-primary", .unknown, .unknown, .unknown, .unknown, 0, 0⟩, true⟩ []
        [older, newer]) trace s' ∧
      s'.handled = [older, newer] ∧ Shows s'.view.peer sampleNewer := by
  obtain ⟨newer, hnewer⟩ : ∃ data, sampleDecoder.decode data = .ok sampleNewer :=
    ⟨_, decode_samplePromoted⟩
  obtain ⟨older, holder⟩ : ∃ data, sampleDecoder.decode data = .ok sampleOlder :=
    ⟨_, decode_sampleDemoted⟩
  let view : View := ⟨⟨"pg-primary", .unknown, .unknown, .unknown, .unknown, 0, 0⟩, true⟩
  have hsender : SenderRun .sampleStandby sampleDecoder [sampleOlder, sampleNewer]
      [older, newer] := by
    refine ⟨by decide, by decide, ?_⟩
    intro data hdata
    rcases List.mem_pair.mp hdata with rfl | rfl
    · exact ⟨_, holder, .inl (by simp)⟩
    · exact ⟨_, hnewer, .inl (by simp)⟩
  have horder : InOrder .sampleStandby sampleDecoder [older, newer] := by
    refine ⟨fun data hdata => ?_, ?_⟩
    · rcases List.mem_pair.mp hdata with rfl | rfl
      · exact ⟨_, holder, by decide⟩
      · exact ⟨_, hnewer, by decide⟩
    · refine List.pairwise_pair.mpr fun msg msg' hmsg hmsg' => ?_
      obtain rfl := Except.ok.inj (holder.symm.trans hmsg)
      obtain rfl := Except.ok.inj (hnewer.symm.trans hmsg')
      decide
  -- a run of two passes, found by assuming that there is none
  by_contra hnone
  have hwp : (receiverLoop .sampleStandby sampleDecoder 2).wp (demonic step)
      (fun _ s' => s'.handled ≠ [older, newer]) (start view [] [older, newer]) := by
    apply Prog.wp_demonic_iff.mpr
    intro trace outcome s' htrace hhistory hhandled
    refine hnone ⟨older, newer, trace, outcome, s', holder, hnewer, htrace, hhistory, hhandled, ?_⟩
    apply ((keepsLatest _ _).2 _ _ _ _ 2 _ _ _ hsender horder htrace hhistory).1 _ (by simp)
    · exact ⟨newer, by simp [hhandled], hnewer⟩
    · intro data hdata other hdecode _
      rw [hhandled] at hdata
      rcases List.mem_pair.mp hdata with rfl | rfl
      · obtain rfl := Except.ok.inj (holder.symm.trans hdecode)
        decide
      · obtain rfl := Except.ok.inj (hnewer.symm.trans hdecode)
        exact Int.le_refl _
  rw [receiverLoop, Prog.bind_eq, Prog.wp_bind] at hwp
  have hfirst := post_of_passed hwp (.stored 1 rfl holder (by decide))
  rw [Prog.andThen_returned, receiverLoop, Prog.bind_eq, Prog.wp_bind] at hfirst
  have hsecond := post_of_passed hfirst (.stored 2 rfl hnewer (by decide))
  exact hsecond rfl

/-- The heartbeat of a standby without the disk, overtaken by the next one of the same node,
now the primary, is what this node keeps. -/
theorem not_keepsFreshest : ¬ KeepsFreshest .sampleStandby sampleDecoder fun _ => True := by
  intro h
  -- the bytes do not matter from here on
  obtain ⟨newer, hnewer⟩ : ∃ data, sampleDecoder.decode data = .ok sampleNewer :=
    ⟨_, decode_samplePromoted⟩
  obtain ⟨older, holder⟩ : ∃ data, sampleDecoder.decode data = .ok sampleOlder :=
    ⟨_, decode_sampleDemoted⟩
  let view : View := ⟨⟨"pg-primary", .unknown, .unknown, .unknown, .unknown, 0, 0⟩, true⟩
  have hsender : SenderRun .sampleStandby sampleDecoder [sampleOlder, sampleNewer]
      [newer, older] := by
    refine ⟨by decide, by decide, ?_⟩
    intro data hdata
    rcases List.mem_pair.mp hdata with rfl | rfl
    · exact ⟨_, hnewer, .inl (by simp)⟩
    · exact ⟨_, holder, .inl (by simp)⟩
  have hwp : (receiverLoop .sampleStandby sampleDecoder 2).wp (demonic step)
      (fun _ s' => s'.handled = [newer, older] → Shows s'.view.peer sampleNewer)
      (start view [] [newer, older]) := by
    apply Prog.wp_demonic_iff.mpr
    intro trace outcome s' htrace hhistory hhandled
    apply (h _ _ _ _ 2 _ _ _ hsender trivial htrace hhistory).1 sampleNewer (by simp)
    · exact ⟨newer, by simp [hhandled], hnewer⟩
    · intro data hdata other hdecode _
      rw [hhandled] at hdata
      rcases List.mem_pair.mp hdata with rfl | rfl
      · obtain rfl := Except.ok.inj (hnewer.symm.trans hdecode)
        exact Int.le_refl _
      · obtain rfl := Except.ok.inj (holder.symm.trans hdecode)
        decide
  rw [receiverLoop, Prog.bind_eq, Prog.wp_bind] at hwp
  have hfirst := post_of_passed hwp (.stored 1 rfl hnewer (by decide))
  rw [Prog.andThen_returned, receiverLoop, Prog.bind_eq, Prog.wp_bind] at hfirst
  have hsecond := post_of_passed hfirst (.stored 2 rfl holder (by decide))
  have hseq : sampleOlder.seq = sampleNewer.seq := (hsecond rfl).heartbeatSeq
  exact absurd hseq (by decide)

end Reception

end PgHa

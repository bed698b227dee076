import PgHa.Heartbeat.Format
import PgHa.Text.JsonPrint
import PgHa.Text.Utf8

/-!
# The sender of the heartbeat manager

`_sender_loop`, and what its datagrams are: one line of JSON each, written by the
encoder of `JsonPrint.lean` and read by the decoder of `Json.lean`.  A datagram
that arrives whole is read as the message that was sent (`decode_whole`).  One that
is longer than the receiver's buffer loses its end, and what is left of it is
malformed (`decode_cut`).

The counter `_seq` is written by the sender alone; the loop takes it with it.
-/

namespace PgHa.HeartbeatManager

open Effect JsonText

/-! ## The loop -/

/-- The operations of the manager's threads: those of the daemon, and sending a datagram. -/
inductive LinkCall
  | daemon (call : Call)
  /-- `_tx_sock.sendto(payload, (ip, port))` -/
  | sendto (payload : List UInt8) (ip : String) (port : ℕ)
  deriving DecidableEq

abbrev LinkCall.Ret : LinkCall → Type
  | .daemon call => call.Ret
  | .sendto .. => Unit

/-- Programs of the manager's threads. -/
abbrev Link := Prog LinkCall.Ret Exc

abbrev Link.host (call : HostCall) : Link call.Ret := .perform (LinkCall.daemon (.host call))

/-- A loop of the manager that sends nothing. -/
def Link.ofMgr {α : Type} (program : Mgr α) : Link α :=
  program.lower fun call => .perform (LinkCall.daemon call)

/-- The functions of the standard library that a heartbeat goes through. -/
structure Wire extends JsonText.Coding where
  /-- `int(text)` -/
  intOfText : String → Option Int
  /-- `float(text)` -/
  floatOfText : String → Option Real
  /-- `float(value)` of an integer that is not too large -/
  floatOfInt : Int → Real
  /-- `str(value)` -/
  str : Json → String

/-- `json.dumps(d).encode("utf-8")` and `json.loads(data.decode("utf-8"))`. -/
def Wire.codec (wire : Wire) : Codec where
  loads data :=
    match Utf8.decode data with
    | some text => JsonText.loads wire.toDecoding text
    | none => .error ⟨.valueError, "'utf-8' codec can't decode data"⟩
  dumps d := Utf8.encode (wire.toCoding.dumps d)
  intOfText := wire.intOfText
  floatOfText := wire.floatOfText
  floatOfInt := wire.floatOfInt
  str := wire.str

/-- A time of the model as `time.time()` returns it, in seconds. -/
def seconds (millis : Int) : Rat := millis / 1000

/-- The heartbeat that is built of the state of the node. -/
def heartbeat (cfg : Config) (localState : NodeState) (seq now : Int) : HeartbeatMsg.Whole :=
  message cfg localState seq (.finite (seconds now))

/-- The datagram that holds it. -/
def datagram (wire : Wire) (cfg : Config) (localState : NodeState) (seq now : Int) : List UInt8 :=
  payload wire.codec (heartbeat cfg localState seq now)

/-- One pass of `_sender_loop`, up to its wait; the counter has just been advanced. -/
def senderPass (wire : Wire) (cfg : Config) (port : ℕ) (seq : Int) : Link Unit :=
  (do
      let localState ← Link.host .localSnapshot
      let now ← Link.host .time
      .perform (LinkCall.sendto (datagram wire cfg localState seq now) cfg.cluster.peerIp port) :
        Link Unit).except fun exc =>
    if exc.isOSError then pure () else .raise exc

/-- `_sender_loop`, with the number of the last heartbeat. -/
def senderLoop (wire : Wire) (cfg : Config) (port : ℕ) (interval seq : Int) : ℕ → Link Unit
  | 0 => .stuck
  | fuel + 1 => do
      senderPass wire cfg port (seq + 1)
      Link.host (.sleep interval)
      senderLoop wire cfg port interval (seq + 1) fuel

/-! ## The datagrams -/

section Datagram

variable {wire : Wire} {cfg : Config} {localState : NodeState} {seq now : Int}

/-- A heartbeat is a flat object without a key twice. -/
theorem fits_heartbeat (h : wire.toCoding.Exact (seconds now)) (limit : ℕ) :
    wire.toCoding.Fits (limit + 1) (.obj (heartbeat cfg localState seq now).toDict) := by
  refine .obj (by simp [HeartbeatMsg.Whole.toDict]) fun field hfield => ?_
  simp only [HeartbeatMsg.Whole.toDict, heartbeat, message, List.mem_cons, List.not_mem_nil,
    or_false] at hfield
  rcases hfield with rfl | rfl | rfl | rfl | rfl | rfl | rfl
  · exact .str _
  · exact .str _
  · exact .num _
  · exact .str _
  · exact .str _
  · exact .str _
  · exact .finite h

theorem loads_datagram (h : wire.toCoding.Exact (seconds now)) :
    wire.codec.loads (datagram wire cfg localState seq now) =
      .ok (.obj (heartbeat cfg localState seq now).toDict) := by
  have hdecode : Utf8.decode (datagram wire cfg localState seq now) =
      some (wire.toCoding.dumps (.obj (heartbeat cfg localState seq now).toDict)) :=
    Utf8.decode_encode _
  simp only [Wire.codec, hdecode]
  exact Coding.loads_dumps (fits_heartbeat h wire.limit)

/-- **A whole datagram is read as what was sent.** -/
theorem decode_whole (h : wire.toCoding.Exact (seconds now)) :
    wire.codec.decode (datagram wire cfg localState seq now) =
      .ok (heartbeat cfg localState seq now) := by
  rw [Codec.decode, loads_datagram h]
  exact wire.codec.fromDict_toDict _

/-- The text of an object ends with its brace. -/
theorem dumps_getLast (d : Coding) (first : String × Json) (rest : List (String × Json)) :
    ∃ text, d.dumps (.obj (first :: rest)) = text ++ ['}'] := by
  refine ⟨'{' :: (printString first.1 ++
    ([':', ' '] ++ (d.dumps first.2 ++ d.dumpsMembers rest))), ?_⟩
  simp only [Coding.dumps, List.cons_append, List.append_assoc]

/-- **A datagram that has lost its end is malformed.** -/
theorem decode_cut (h : wire.toCoding.Exact (seconds now)) {count : ℕ}
    (hcount : count < (datagram wire cfg localState seq now).length) :
    ∃ exc, wire.codec.decode ((datagram wire cfg localState seq now).take count) = .error exc ∧
      exc.cls = .valueError := by
  suffices hloads : ∃ exc, wire.codec.loads ((datagram wire cfg localState seq now).take count) =
      .error exc ∧ exc.cls = .valueError by
    obtain ⟨exc, hexc, hcls⟩ := hloads
    exact ⟨exc, by rw [Codec.decode, hexc]; rfl, hcls⟩
  obtain ⟨text, htext⟩ : ∃ text, wire.toCoding.dumps
      (.obj (heartbeat cfg localState seq now).toDict) = text ++ ['}'] :=
        dumps_getLast wire.toCoding _ _
  have hwhole : loads wire.toDecoding (text ++ ['}']) =
      .ok (.obj (heartbeat cfg localState seq now).toDict) :=
    htext ▸ Coding.loads_dumps (fits_heartbeat h wire.limit)
  have hbytes : Utf8.encode (text ++ ['}']) = (datagram wire cfg localState seq now).take count ++
      (datagram wire cfg localState seq now).drop count := by
    rw [List.take_append_drop, ← htext]
    rfl
  simp only [Wire.codec]
  cases hdecode : Utf8.decode ((datagram wire cfg localState seq now).take count) with
  | none => exact ⟨_, rfl, rfl⟩
  | some first =>
      obtain ⟨tail, hsplit, hrest⟩ := Utf8.prefix_of_decode hdecode hbytes
      -- something is cut off, and it holds the closing brace
      have htail : tail ≠ [] := by
        rintro rfl
        have hnone : (datagram wire cfg localState seq now).drop count = [] := hrest.symm
        rw [List.drop_eq_nil_iff] at hnone
        omega
      have hbrace : '}' ∈ tail := by
        have hlast : (first ++ tail).getLast? = some '}' := by rw [← hsplit]; simp
        rw [List.getLast?_append_of_ne_nil _ htail] at hlast
        exact List.mem_of_getLast? hlast
      rw [hsplit] at hwhole
      rcases loads_of_cut hwhole with hrefused | hblank
      · exact hrefused
      · exact absurd (hblank '}' hbrace) (by decide)

/-- What the receiver makes of a datagram that this node has sent: the message, or nothing if
the datagram is too long. -/
theorem received_datagram (h : wire.toCoding.Exact (seconds now)) {msg : HeartbeatMsg}
    (hmsg : wire.codec.toDecoder.decode
    (received (datagram wire cfg localState seq now)) = .ok msg) :
    msg = wire.codec.kept (heartbeat cfg localState seq now) := by
  have hread : wire.codec.toDecoder.decode (received (datagram wire cfg localState seq now)) =
      (wire.codec.decode (received (datagram wire cfg localState seq now))).map
        wire.codec.kept := by
    simp only [Decoder.decode, Codec.decode]
    cases wire.codec.loads (received (datagram wire cfg localState seq now)) with
    | error exc => rfl
    | ok d => exact wire.codec.fromDict_eq_map d
  rcases Nat.lt_or_ge maxMsgBytes (datagram wire cfg localState seq now).length with hlong | hshort
  · obtain ⟨exc, hexc, -⟩ := decode_cut h hlong
    rw [hread, received, hexc] at hmsg
    cases hmsg
  · rw [hread, received, List.take_of_length_le hshort, decode_whole h] at hmsg
    exact (Except.ok.inj hmsg).symm

end Datagram

end PgHa.HeartbeatManager

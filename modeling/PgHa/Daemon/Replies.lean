import PgHa.Daemon.Authentication
import PgHa.Text.Json
import PgHa.Text.Utf8

/-!
# Every request is answered

`_handle_mgmt_conn` turns a `ValueError` of the decoder into a reply, and
`_handle_peer_conn` turns it into a warning.  Whatever else is raised on the way
ends the thread of the connection without a reply: a request that is not an
object has no `get`, `hmac.compare_digest` takes ASCII texts only, and the file
of the maintenance mode may be out of reach.

`answered_iff` says that nothing else goes wrong.  The payload is decoded and
parsed by the standard library, which stands here as an arbitrary function of
the bytes.
-/

namespace PgHa.PgHaDaemon

open Effect LocalNode SwitchoverEngine

variable {cfg : Config} {received : Except Exc Json}

/-! ## Connections -/

/-- Whether a call to the file system has failed, and the lines sent in reply. -/
structure Tally where
  failed : Bool
  replies : ℕ

/-- The payload arrives in one chunk and the socket is writable.  The maintenance
commands may fail to reach their file, and anything may happen on a connection to
the peer; what is left are tests, getters and setters. -/
def serving (received : Except Exc Json) (t : Tally) (event : Event Call.Ret Exc) (t' : Tally) :
    Prop :=
  match event with
  | ⟨.host .recvCommand, answer⟩ => answer = received ∧ t' = t
  | ⟨.host (.sendReply _), answer⟩ | ⟨.host (.sendMgmtReply _), answer⟩ =>
      answer = .ok () ∧ t' = { t with replies := t.replies + 1 }
  | ⟨.host (.makeParent _), answer⟩ | ⟨.host (.writeFile _), answer⟩
  | ⟨.host (.remove _), answer⟩ =>
      (answer = .ok () ∧ t' = t) ∨
        ∃ exc, answer = .error exc ∧ exc.isOSError = true ∧ t' = { t with failed := true }
  | ⟨.host (.createConnection ..), _⟩ | ⟨.host (.sendRequest _), _⟩ |
      ⟨.host .recvReply, _⟩ => t' = t
  | ⟨_, answer⟩ => (∃ value, answer = .ok value) ∧ t' = t

/-- The operations on files, and those on a connection of the daemon's own. -/
def isFile : Call → Prop
  | .host (.makeParent _) | .host (.writeFile _) | .host (.remove _) => True
  | _ => False

def isContact : Call → Prop
  | .host (.createConnection ..) | .host (.sendRequest _) | .host .recvReply => True
  | _ => False

def isReply : Call → Prop
  | .host (.sendReply _) | .host (.sendMgmtReply _) => True
  | _ => False

/-- The operations that always succeed and send nothing. -/
def isPlain : Call → Prop
  | .host .recvCommand | .host (.sendReply _) | .host (.sendMgmtReply _) | .host (.makeParent _)
  | .host (.writeFile _) | .host (.remove _) | .host (.createConnection ..)
  | .host (.sendRequest _) | .host .recvReply => False
  | _ => True

theorem serving_of_plain {op : Call} (hop : isPlain op) {t t' : Tally}
    {answer : Except Exc op.Ret} (h : serving received t ⟨op, answer⟩ t') :
    (∃ value, answer = .ok value) ∧ t' = t := by
  cases op with
  | disk call => exact h
  | net call => exact h
  | host call =>
      cases call with
      | recvCommand | sendReply | sendMgmtReply | makeParent | writeFile | remove | createConnection
      | sendRequest | recvReply => exact hop.elim
      | _ => exact h

/-! ## Programs that serve a request -/

/-- A return finds no failed call and `n` lines sent, and an exception comes from a call
that has failed. -/
def served {α : Type} (n : ℕ) : Outcome Exc α → Tally → Prop
  | .returned _, t => t = ⟨false, n⟩
  | .raised exc, t => exc.isOSError = true ∧ t.failed = true
  | .stuck, _ => False

/-- The program sends as many lines as are missing between `n` and `m`. -/
def Serves {α : Type} (received : Except Exc Json) (n m : ℕ) (program : Mgr α) : Prop :=
  program.wp (demonic (serving received)) (served m) ⟨false, n⟩

namespace Serves

variable {α β : Type} {n m k : ℕ} {program : Mgr α}

theorem pure {value : α} : Serves received n n (.pure value) := rfl

theorem bind {next : α → Mgr β} (h : Serves received n m program)
    (hnext : ∀ value, Serves received m k (next value)) :
    Serves received n k (program.bind next) := by
  unfold Serves
  rw [Prog.wp_bind]
  apply Prog.wp_mono (demonic_monotone _) _ h
  intro outcome t hend
  cases outcome with
  | returned value =>
      have htally : t = ⟨false, m⟩ := hend
      rw [htally]
      exact hnext value
  | raised exc => exact hend
  | stuck => exact hend

theorem ite {condition : Prop} [Decidable condition] {no : Mgr α}
    (h : Serves received n m program) (hno : Serves received n m no) :
    Serves received n m (if condition then program else no) := by
  split
  · exact h
  · exact hno

theorem plain {op : Call} (hop : isPlain op) : Serves received n n (.perform op) := by
  unfold Serves
  rw [Prog.wp_perform]
  intro answer t hstep
  obtain ⟨⟨value, rfl⟩, rfl⟩ := serving_of_plain hop hstep
  rfl

theorem file {op : Call} (hop : isFile op) : Serves received n n (.perform op) := by
  unfold Serves
  rw [Prog.wp_perform]
  intro answer t hstep
  unfold isFile at hop
  split at hop
  case h_4 => exact hop.elim
  all_goals
    rcases hstep with ⟨rfl, rfl⟩ | ⟨exc, rfl, hexc, rfl⟩
    · rfl
    · exact ⟨hexc, rfl⟩

theorem reply {op : Call} (hop : isReply op) : Serves received n (n + 1) (.perform op) := by
  unfold Serves
  rw [Prog.wp_perform]
  intro answer t hstep
  unfold isReply at hop
  split at hop
  case h_3 => exact hop.elim
  all_goals
    obtain ⟨rfl, rfl⟩ := hstep
    rfl

/-- Whatever happens on a connection of the daemon's own is caught, by induction on the
program. -/
theorem contact (hcalls : program.Calls isContact) (hbounded : program.Bounded)
    (hcaught : program.Raises fun _ => False) : Serves received n n program := by
  induction program with
  | pure value => rfl
  | raise exc => exact hcaught.elim
  | stuck => exact hbounded.elim
  | call op rest ih =>
      intro answer t hstep
      have htally : t = ⟨false, n⟩ := by
        have hop : isContact op := hcalls.1
        unfold isContact at hop
        split at hop
        case h_4 => exact hop.elim
        all_goals exact hstep
      rw [htally]
      exact ih answer (hcalls.2 answer) (hbounded answer) (hcaught answer)

/-- The lock is released however the body ends. -/
theorem releasing (h : Serves received n m program) :
    Serves received n m (program.ensuring (Mgr.host .releaseFailoverLock)) := by
  unfold Serves
  rw [Prog.wp_ensuring]
  apply Prog.wp_mono (demonic_monotone _) _ h
  intro outcome t hend
  cases outcome with
  | returned value =>
      rw [Prog.captured_returned, Prog.andThen_returned, Prog.wp_bind, Prog.wp_perform]
      rintro answer t' ⟨⟨_, rfl⟩, rfl⟩
      exact hend
  | raised exc =>
      rw [Prog.captured_raised, Prog.andThen_returned, Prog.wp_bind, Prog.wp_perform]
      rintro answer t' ⟨⟨_, rfl⟩, rfl⟩
      exact hend
  | stuck => exact hend

end Serves

/-! ## The commands -/

theorem isMaintenance_serves {n : ℕ} : Serves received n n (isMaintenance cfg) := .plain trivial

theorem isPrimary_serves {n : ℕ} : Serves received n n isPrimary :=
  .bind (.plain trivial) fun _ => .pure

theorem isStandby_serves {n : ℕ} : Serves received n n isStandby :=
  .bind (.plain trivial) fun _ => .pure

theorem sendMaintenanceToPeer_serves (cmd : String) {n : ℕ} :
    Serves received n n (sendMaintenanceToPeer cfg cmd) := by
  have hask : (askPeer cfg cmd).Calls isContact :=
    .perform_bind trivial fun _ => .perform_bind trivial fun _ => Prog.Calls.perform trivial
  have hbounded : (askPeer cfg cmd).Bounded :=
    .bind (Prog.bounded_perform _) fun _ => .bind (Prog.bounded_perform _) fun _ =>
      Prog.bounded_perform _
  refine .bind (.contact (.attempt (.bind hask fun resp => ?_))
    (.attempt (.bind hbounded fun resp => ?_)) (Prog.raises_attempt _)) fun _ => .pure
  · exact .bind (Prog.calls_ofExcept _) fun _ => trivial
  · exact .bind (Prog.bounded_ofExcept _) fun _ => trivial

theorem enterMaintenance_serves (propagate : Bool) {n : ℕ} :
    Serves received n n (enterMaintenance cfg propagate) := by
  refine .bind (.file trivial) fun _ => .bind (.file trivial) fun _ => .ite ?_ .pure
  exact .bind (sendMaintenanceToPeer_serves _) fun _ => .pure

theorem exitMaintenance_serves (propagate : Bool) {n : ℕ} :
    Serves received n n (exitMaintenance cfg propagate) := by
  have htell : Serves received n n (do
      if propagate then
        sendMaintenanceToPeer cfg "MAINTENANCE_OFF"
      pure "maintenance mode disabled" : Mgr String) :=
    .ite (.bind (sendMaintenanceToPeer_serves _) fun _ => .pure) .pure
  exact .bind isMaintenance_serves fun maintenance =>
    .ite (.bind (.file trivial) fun _ => htell) htell

theorem dispatchStatus_serves {n : ℕ} : Serves received n n (dispatchStatus cfg) := by
  have halive {α : Type} (value absent : α) : Serves received n n (ifPeerAlive value absent) :=
    .bind (.plain trivial) fun _ => .ite .pure .pure
  refine .bind (.plain trivial) fun localNode => .bind (.plain trivial) fun peer => ?_
  refine .bind (.plain trivial) fun postgres => .bind (.plain trivial) fun os => ?_
  refine .bind (halive _ _) fun _ => .bind (halive _ _) fun _ => .bind (halive _ _) fun _ => ?_
  refine .bind (.ite (.bind (.plain trivial) fun _ => .pure) .pure) fun _ => ?_
  exact .bind (.plain trivial) fun _ => .bind isMaintenance_serves fun _ => .pure

theorem dispatchSwitchover_serves {n : ℕ} : Serves received n n (dispatchSwitchover cfg) := by
  refine .bind isMaintenance_serves fun maintenance => .ite .pure ?_
  refine .bind isPrimary_serves fun primary => .ite .pure ?_
  exact .bind (.plain trivial) fun active => .ite .pure (.bind (.plain trivial) fun _ => .pure)

theorem dispatchMgmt_serves (fields : List (String × Json)) {n : ℕ} :
    Serves received n n (dispatchMgmt cfg (.obj fields)) := by
  refine .ite (.bind dispatchStatus_serves fun report => .pure) ?_
  refine .ite (.bind dispatchSwitchover_serves fun answer => .pure) ?_
  refine .ite (.bind (enterMaintenance_serves true) fun msg => .pure) ?_
  refine .ite (.bind (exitMaintenance_serves true) fun msg => .pure) ?_
  exact .ite .pure .pure

theorem shouldAttempt_serves {n : ℕ} : Serves received n n FailoverEngine.shouldAttempt := by
  refine .bind isStandby_serves fun standby => .ite .pure ?_
  refine .bind (.plain trivial) fun attempts => .ite .pure ?_
  exact .bind (.plain trivial) fun now => .bind (.plain trivial) fun lastAttempt => .pure

theorem handlePgFailHandoff_serves : Serves received 0 1 (handlePgFailHandoff cfg) := by
  have hack : Serves received 0 1 (Mgr.host (.sendReply [("cmd", "PG_FAIL_HANDOFF_ACK")])) :=
    .reply trivial
  refine .bind (.plain trivial) fun active => .ite hack ?_
  refine .bind isMaintenance_serves fun maintenance => .ite hack (.bind hack fun _ => ?_)
  refine .bind (.plain trivial) fun _ => .releasing ?_
  refine .bind isStandby_serves fun standby => .ite ?_ .pure
  exact .bind shouldAttempt_serves fun permitted => .ite (.plain trivial) .pure

theorem dispatchPeer_serves (cmd : Option Json) : Serves received 0 1 (dispatchPeer cfg cmd) := by
  have hrequest : Serves received 0 1 handleSwitchoverRequest :=
    .bind (.reply trivial) fun _ => .bind (.plain trivial) fun _ => .plain trivial
  refine .ite hrequest (.ite handlePgFailHandoff_serves ?_)
  refine .ite (.bind (enterMaintenance_serves false) fun _ => .reply trivial) ?_
  refine .ite (.bind (exitMaintenance_serves false) fun _ => .reply trivial) ?_
  exact .reply trivial

/-! ## The handlers -/

/-- The exceptions that the two handlers expect of a payload. -/
def expectedByMgmt (exc : Exc) : Prop := exc.cls = .valueError

def expectedByPeer (exc : Exc) : Prop := exc.cls = .valueError ∨ exc.isOSError = true

/-- The payload is refused with an exception that the handler expects. -/
def Rejected (expected : Exc → Prop) (received : Except Exc Json) : Prop :=
  ∃ exc, received = .error exc ∧ expected exc

/-- The payload is an object, or it is refused as it should be. -/
def Understood (expected : Exc → Prop) (received : Except Exc Json) : Prop :=
  (∃ fields, received = .ok (.obj fields)) ∨ Rejected expected received

/-- A request on the management socket is answered with one line. -/
def Answered (outcome : Outcome Exc Unit) (t : Tally) : Prop :=
  outcome = .returned () ∧ t.replies = 1

theorem not_answered_of_raised {exc : Exc} {t : Tally} : ¬ Answered (.raised exc) t := by
  rintro ⟨hreturned, -⟩
  cases hreturned

theorem cls_ne_of_isOSError {exc : Exc} (h : exc.isOSError = true) : exc.cls ≠ .valueError := by
  intro hcls
  simp [Exc.isOSError, hcls] at h

/-- A value that is not an object has no `get`. -/
theorem jsonGet_of_not_obj {value : Json} (h : ∀ fields, value ≠ .obj fields) (key : String) :
    jsonGet value key = .error ⟨.other, "object has no attribute 'get'"⟩ := by
  cases value with
  | obj fields => exact absurd rfl (h fields)
  | _ => rfl

theorem not_understood_of_not_obj {expected : Exc → Prop} {value : Json}
    (h : ∀ fields, value ≠ .obj fields) : ¬ Understood expected (.ok value) := by
  rintro (⟨fields, hobj⟩ | ⟨exc, hobj, -⟩)
  · exact h fields (Except.ok.inj hobj)
  · cases hobj

theorem understood_error_iff {expected : Exc → Prop} {exc : Exc} :
    Understood expected (.error exc) ↔ expected exc := by
  constructor
  · rintro (⟨fields, h⟩ | ⟨exc', h, hexpected⟩)
    · cases h
    · cases h
      exact hexpected
  · exact fun hexpected => .inr ⟨exc, rfl, hexpected⟩

/-- The reply of the management socket is sent. -/
theorem sendMgmtReply_wp (resp : MgmtReply) {post : Outcome Exc Unit → Tally → Prop}
    (hpost : post (.returned ()) ⟨false, 1⟩) :
    (Mgr.host (.sendMgmtReply resp)).wp (demonic (serving received)) post ⟨false, 0⟩ := by
  rw [Prog.wp_perform]
  rintro answer t ⟨rfl, rfl⟩
  exact hpost

/-- The handler of the management socket. -/
theorem handleMgmtConn_wp : (handleMgmtConn cfg).wp (demonic (serving received))
    (fun outcome t => Answered outcome t ↔
      Understood expectedByMgmt received ∧ t.failed = false) ⟨false, 0⟩ := by
  unfold handleMgmtConn mgmtResponse
  rw [Prog.bind_eq, Prog.wp_bind, Prog.wp_except, Prog.bind_eq, Prog.wp_bind, Prog.wp_perform]
  rintro answer t ⟨rfl, rfl⟩
  have hsent (resp : MgmtReply) (hunderstood : Understood expectedByMgmt answer) :
      (Mgr.host (.sendMgmtReply resp)).wp (demonic (serving answer))
        (fun outcome t => Answered outcome t ↔
          Understood expectedByMgmt answer ∧ t.failed = false) ⟨false, 0⟩ :=
    sendMgmtReply_wp resp (iff_of_true ⟨rfl, rfl⟩ ⟨hunderstood, rfl⟩)
  cases answer with
  | error exc =>
      rw [Prog.answered_error, Prog.andThen_raised, Prog.handled_raised, Prog.wp_ite]
      split
      · rename_i hcls
        exact hsent _ (understood_error_iff.mpr hcls)
      · rename_i hcls
        exact iff_of_false not_answered_of_raised fun h => hcls (understood_error_iff.mp h.1)
  | ok req =>
      rw [Prog.answered_ok, Prog.andThen_returned]
      by_cases hobj : ∃ fields, req = .obj fields
      · obtain ⟨fields, rfl⟩ := hobj
        apply Prog.wp_mono (demonic_monotone _) _ (dispatchMgmt_serves fields)
        intro outcome t hend
        cases outcome with
        | returned resp =>
            obtain rfl : t = ⟨false, 0⟩ := hend
            exact hsent resp (.inl ⟨fields, rfl⟩)
        | raised exc =>
            -- a failed call to the file system is not caught
            obtain ⟨hexc, hfailed⟩ := hend
            rw [Prog.handled_raised, if_neg (cls_ne_of_isOSError hexc)]
            exact iff_of_false not_answered_of_raised fun h => by simp [hfailed] at h
        | stuck => exact hend.elim
      · -- the exception of `get` is none that the handler catches
        have hnot : ∀ fields, req ≠ .obj fields := fun fields heq => hobj ⟨fields, heq⟩
        unfold dispatchMgmt
        rw [jsonGet_of_not_obj hnot]
        exact iff_of_false not_answered_of_raised fun h => not_understood_of_not_obj hnot h.1

/-- A configured token can be compared with the one of the request. -/
def Comparable (cfg : Config) (received : Except Exc Json) : Prop :=
  ∀ fields, received = .ok (.obj fields) → cfg.cluster.peerAuthToken = "" ∨
    ∃ same, compareDigest ((fields.find? (·.1 == "token")).map (·.2)) cfg.cluster.peerAuthToken =
      .ok same

/-- A request on the peer port is answered with one line, or refused with the warning. -/
def AnsweredOrRejected (received : Except Exc Json) (outcome : Outcome Exc Unit)
    (t : Tally) : Prop :=
  outcome = .returned () ∧ (t.replies = 1 ∨ Rejected expectedByPeer received)

theorem not_answeredOrRejected_of_raised {exc : Exc} {t : Tally} :
    ¬ AnsweredOrRejected received (.raised exc) t := by
  rintro ⟨hreturned, -⟩
  cases hreturned

theorem authenticated_obj (fields : List (String × Json)) : authenticated cfg (.obj fields) =
    if cfg.cluster.peerAuthToken = "" then .pure true
    else .ofExcept (compareDigest ((fields.find? (·.1 == "token")).map (·.2))
      cfg.cluster.peerAuthToken) := rfl

variable (received) in
/-- An object is answered, unless the token cannot be compared. -/
theorem respond_obj (fields : List (String × Json)) :
    (Comparable cfg (.ok (.obj fields)) ∧ Serves received 0 1 (respond cfg (.ok (.obj fields)))) ∨
    (¬ Comparable cfg (.ok (.obj fields)) ∧ ∃ exc, respond cfg (.ok (.obj fields)) =
      .raise exc) := by
  have hrespond : respond cfg (.ok (.obj fields)) =
      handleRequest cfg (.obj fields) ((fields.find? (·.1 == "cmd")).map (·.2)) := rfl
  rw [hrespond, handleRequest, Prog.bind_eq, authenticated_obj]
  by_cases htoken : cfg.cluster.peerAuthToken = ""
  · rw [if_pos htoken, Prog.pure_bind, if_pos rfl]
    exact .inl ⟨fun _ _ => .inl htoken, dispatchPeer_serves _⟩
  · rw [if_neg htoken]
    cases hdigest : compareDigest ((fields.find? (·.1 == "token")).map (·.2))
      cfg.cluster.peerAuthToken with
    | error exc =>
        -- a token that is no text, or has a character outside ASCII
        refine .inr ⟨fun hcomparable => ?_, exc, rfl⟩
        rcases hcomparable fields rfl with hnone | ⟨same, hsame⟩
        · exact htoken hnone
        · rw [hdigest] at hsame
          cases hsame
    | ok same =>
        left
        constructor
        · intro fields' hfields
          obtain rfl := Json.obj.inj (Except.ok.inj hfields)
          exact .inr ⟨same, hdigest⟩
        · rw [Prog.ofExcept, Prog.pure_bind]
          cases same with
          | true => exact dispatchPeer_serves _
          | false => exact .reply trivial

/-- The handler of the peer port. -/
theorem handlePeerConn_wp : (handlePeerConn cfg).wp (demonic (serving received))
    (fun outcome t => AnsweredOrRejected received outcome t ↔
      Understood expectedByPeer received ∧ Comparable cfg received ∧ t.failed = false)
        ⟨false, 0⟩ := by
  rw [handlePeerConn_eq, Prog.wp_call]
  rintro answer t ⟨rfl, rfl⟩
  cases answer with
  | error exc =>
      have hcomparable : Comparable cfg (.error exc) := fun fields h => by cases h
      unfold respond
      rw [Prog.wp_ite]
      split
      · -- refused with a warning, and no line is sent
        rename_i hexpected
        exact iff_of_true ⟨rfl, .inr ⟨exc, rfl, hexpected⟩⟩
          ⟨understood_error_iff.mpr hexpected, hcomparable, rfl⟩
      · rename_i hexpected
        exact iff_of_false not_answeredOrRejected_of_raised fun h =>
          hexpected (understood_error_iff.mp h.1)
  | ok req =>
      by_cases hobj : ∃ fields, req = .obj fields
      · obtain ⟨fields, rfl⟩ := hobj
        have hunderstood : Understood expectedByPeer (.ok (.obj fields)) := .inl ⟨fields, rfl⟩
        rcases respond_obj (.ok (.obj fields)) fields with
          ⟨hcomparable, hserves⟩ | ⟨hnot, exc, hraise⟩
        · apply Prog.wp_mono (demonic_monotone _) _ hserves
          intro outcome t hend
          cases outcome with
          | returned value =>
              obtain rfl : t = ⟨false, 1⟩ := hend
              exact iff_of_true ⟨rfl, .inl rfl⟩ ⟨hunderstood, hcomparable, rfl⟩
          | raised exc =>
              obtain ⟨-, hfailed⟩ := hend
              exact iff_of_false not_answeredOrRejected_of_raised fun h => by simp [hfailed] at h
          | stuck => exact hend.elim
        · rw [hraise]
          exact iff_of_false not_answeredOrRejected_of_raised fun h => hnot h.2.1
      · have hnot : ∀ fields, req ≠ .obj fields := fun fields heq => hobj ⟨fields, heq⟩
        unfold respond
        dsimp only
        rw [jsonGet_of_not_obj hnot]
        exact iff_of_false not_answeredOrRejected_of_raised fun h =>
          not_understood_of_not_obj hnot h.1

/-- **When a request is answered.**  Exactly when its payload is an object or is refused by the
decoder, the token of a peer can be compared, and no call to the file system fails. -/
theorem answered_iff (cfg : Config) (decode : List UInt8 → Except Exc Json) (payload : List UInt8) :
    (∀ trace outcome t, (handleMgmtConn cfg).Trace trace outcome →
      History (serving (decode payload)) ⟨false, 0⟩ trace t →
      (Answered outcome t ↔ Understood expectedByMgmt (decode payload) ∧ t.failed = false)) ∧
    ∀ trace outcome t, (handlePeerConn cfg).Trace trace outcome →
      History (serving (decode payload)) ⟨false, 0⟩ trace t →
      (AnsweredOrRejected (decode payload) outcome t ↔
        Understood expectedByPeer (decode payload) ∧ Comparable cfg (decode payload) ∧
          t.failed = false) :=
  ⟨fun _ _ _ htrace hhistory => Prog.trace_wp handleMgmtConn_wp htrace hhistory,
    fun _ _ _ htrace hhistory => Prog.trace_wp handlePeerConn_wp htrace hhistory⟩

/-! ## Sample requests -/

/-- `json.loads(data.decode().strip())`, with which both handlers begin. -/
def decodeCommand (d : JsonText.Decoding) (data : List UInt8) : Except Exc Json :=
  match Utf8.decode data with
  | some text => JsonText.loads d (strip (String.ofList text)).toList
  | none => .error ⟨.valueError, "'utf-8' codec can't decode data"⟩

/-- The decoder of a small process. -/
def sampleDecoding : JsonText.Decoding := ⟨900, fun _ => .nan⟩

theorem decodeCommand_encode {d : JsonText.Decoding} {text : List Char} :
    decodeCommand d (Utf8.encode text) = JsonText.loads d (strip (String.ofList text)).toList := by
  rw [decodeCommand, Utf8.decode_encode]

/-- The command `maintenance_on`, and a request that is not an object. -/
def maintenanceRequest : List UInt8 := Utf8.encode "\x7b\"cmd\": \"maintenance_on\"\x7d\n".toList

def listRequest : List UInt8 := Utf8.encode "[]\n".toList

theorem decodeCommand_maintenanceRequest : decodeCommand sampleDecoding maintenanceRequest =
    .ok (.obj [("cmd", .str "maintenance_on")]) := by
  have htext : (strip (String.ofList "\x7b\"cmd\": \"maintenance_on\"\x7d\n".toList)).toList =
      ['{', '"', 'c', 'm', 'd', '"', ':', ' ', '"', 'm', 'a', 'i', 'n', 't', 'e',
        'n', 'a', 'n', 'c', 'e', '_', 'o', 'n', '"', '}'] := by
    simp only [strip, String.toList_ofList, String.reduceToList]
    rfl
  rw [maintenanceRequest, decodeCommand_encode, htext]
  rfl

theorem decodeCommand_listRequest : decodeCommand sampleDecoding listRequest = .ok (.arr []) := by
  have htext : (strip (String.ofList "[]\n".toList)).toList = ['[', ']'] := by
    simp only [strip, String.toList_ofList, String.reduceToList]
    rfl
  rw [listRequest, decodeCommand_encode, htext]
  rfl

/-- The file of the maintenance mode can be written, and the peer is down. -/
def serve (received : Except Exc Json) : (op : Call) → Tally → Except Exc op.Ret × Tally
  | .host .recvCommand, t => (received, t)
  | .host (.sendReply _), t | .host (.sendMgmtReply _), t =>
    (.ok (), { t with replies := t.replies + 1 })
  | .host (.makeParent _), t | .host (.writeFile _), t | .host (.remove _), t => (.ok (), t)
  | .host (.isfile _), t => (.ok false, t)
  | _, t => (.error ⟨.osError, "refused"⟩, t)

/-- The operations that the sample requests lead to. -/
def isSampled : Call → Bool
  | .host .recvCommand | .host (.sendReply _) | .host (.sendMgmtReply _) | .host (.makeParent _)
  | .host (.writeFile _) | .host (.createConnection ..) => true
  | _ => false

theorem serving_serve (received : Except Exc Json) (t : Tally) (op : Call)
    (hop : isSampled op = true) :
    serving received t ⟨op, (serve received op t).1⟩ (serve received op t).2 := by
  unfold isSampled at hop
  split at hop
  · exact ⟨rfl, rfl⟩
  · exact ⟨rfl, rfl⟩
  · exact ⟨rfl, rfl⟩
  · exact .inl ⟨rfl, rfl⟩
  · exact .inl ⟨rfl, rfl⟩
  · rfl
  · cases hop

/-- A request as both handlers answer it. -/
def mgmtRun (received : Except Exc Json) : Run Call.Ret Exc Unit Tally :=
  (handleMgmtConn .samplePrimary).run (serve received) ⟨false, 0⟩

def peerRun (received : Except Exc Json) : Run Call.Ret Exc Unit Tally :=
  (handlePeerConn .samplePrimary).run (serve received) ⟨false, 0⟩

def maintenanceObject : Except Exc Json := .ok (.obj [("cmd", .str "maintenance_on")])

/-- The management command is carried out, and the peer's is unknown. -/
theorem answered_maintenanceRequest :
    Answered (mgmtRun maintenanceObject).outcome (mgmtRun maintenanceObject).final ∧
    AnsweredOrRejected maintenanceObject (peerRun maintenanceObject).outcome
      (peerRun maintenanceObject).final := by
  have hmgmt := history_run_of_log (serving_serve maintenanceObject) (handleMgmtConn .samplePrimary)
    ⟨false, 0⟩ (by decide)
  have hpeer := history_run_of_log (serving_serve maintenanceObject) (handlePeerConn .samplePrimary)
    ⟨false, 0⟩ (by decide)
  have hobject : decodeCommand sampleDecoding maintenanceRequest = maintenanceObject :=
    decodeCommand_maintenanceRequest
  have hiff := answered_iff .samplePrimary (decodeCommand sampleDecoding) maintenanceRequest
  rw [hobject] at hiff
  exact ⟨(hiff.1 _ _ _ (trace_run _ _ _) hmgmt).mpr ⟨.inl ⟨_, rfl⟩, rfl⟩,
    (hiff.2 _ _ _ (trace_run _ _ _) hpeer).mpr ⟨.inl ⟨_, rfl⟩, fun _ _ => .inl rfl, rfl⟩⟩

/-- A request that is not an object gets no reply. -/
theorem not_answered : ¬ ∀ (cfg : Config) (payload : List UInt8) trace outcome t,
    (handleMgmtConn cfg).Trace trace outcome →
      History (serving (decodeCommand sampleDecoding payload)) ⟨false, 0⟩ trace t →
      Answered outcome t := by
  intro h
  have hhistory := history_run_of_log (serving_serve (.ok (.arr [])))
    (handleMgmtConn .samplePrimary) ⟨false, 0⟩ (by decide)
  rw [← decodeCommand_listRequest] at hhistory
  obtain ⟨hreturned, -⟩ := h .samplePrimary listRequest _ _ _ (trace_run _ _ _) hhistory
  rw [decodeCommand_listRequest] at hreturned
  cases hreturned

end PgHa.PgHaDaemon

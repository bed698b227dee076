import PgHa.Daemon
import PgHa.Model.Host

/-!
# A peer without the token has no influence

`_handle_peer_conn` checks the token before it looks at the command.  What it
does with a payload without the right token is decided by the payload alone: it
says nothing, or it says `auth_failed`, and it touches nothing of the daemon.
The payload is decoded and parsed by the standard library, which stands here as
an arbitrary function of the bytes.
-/

namespace PgHa.PgHaDaemon

open Effect SwitchoverEngine

variable {cfg : Config}

/-- A payload, as it comes out of the decoder, that holds the token. -/
def Authentic (cfg : Config) (received : Except Exc Json) : Prop :=
  ∃ req, received = .ok req ∧ jsonGet req "token" = .ok (some (.str cfg.cluster.peerAuthToken))

/-- The body of the handler once a payload has been parsed. -/
def handleRequest (cfg : Config) (req : Json) (cmd : Option Json) : Mgr Unit := do
  if ← authenticated cfg req then
    dispatchPeer cfg cmd
  else
    Mgr.host (.sendReply [("error", "auth_failed")])

/-- What the handler does with what it has received. -/
def respond (cfg : Config) : Except Exc Json → Mgr Unit
  | .error exc => if exc.cls = .valueError ∨ exc.isOSError then pure () else .raise exc
  | .ok req =>
      match jsonGet req "cmd" with
      | .error exc => .raise exc
      | .ok cmd => handleRequest cfg req cmd

theorem handlePeerConn_eq : handlePeerConn cfg = .call (.host .recvCommand) (respond cfg) := by
  refine congrArg (Prog.call _) (funext fun received => ?_)
  cases received with
  | error exc => rfl
  | ok req =>
      cases req <;> rfl

theorem token_of_compareDigest {token : Option Json} {expected : String} (hexpected : expected ≠ "")
    (h : compareDigest token expected = .ok true) : token = some (.str expected) := by
  unfold compareDigest at h
  cases token with
  | none =>
      split at h
      · split_ifs at h
        simp_all
      · cases h
  | some token =>
      cases token with
      | str value =>
          dsimp only [Option.getD_some] at h
          split_ifs at h
          simp_all
      | _ => cases h

/-- The handler answers nothing, or `auth_failed`, when the token is not there. -/
theorem respond_cases (htoken : cfg.cluster.peerAuthToken ≠ "") {received : Except Exc Json}
    (hforeign : ¬ Authentic cfg received) :
    respond cfg received = .pure () ∨ (∃ exc, respond cfg received = .raise exc) ∨
      respond cfg received = Mgr.host (.sendReply [("error", "auth_failed")]) := by
  cases received with
  | error exc =>
      by_cases hcaught : exc.cls = .valueError ∨ exc.isOSError
      · exact .inl (if_pos hcaught)
      · exact .inr (.inl ⟨exc, if_neg hcaught⟩)
  | ok req =>
      unfold respond
      dsimp only
      cases hcmd : jsonGet req "cmd" with
      | error exc => exact .inr (.inl ⟨exc, rfl⟩)
      | ok cmd =>
          dsimp only
          rw [handleRequest, authenticated, if_neg htoken]
          cases htok : jsonGet req "token" with
          | error exc => exact .inr (.inl ⟨exc, rfl⟩)
          | ok token =>
              cases hdigest : compareDigest token cfg.cluster.peerAuthToken with
              | error exc =>
                  right
                  left
                  refine ⟨exc, ?_⟩
                  simp [Prog.ofExcept, hdigest]
              | ok accepted =>
                  cases accepted with
                  -- a digest that compares equal is that of an authentic request
                  | true =>
                      refine absurd ⟨req, rfl, ?_⟩ hforeign
                      rw [htok, token_of_compareDigest htoken hdigest]
                  | false =>
                      right
                      right
                      simp [Prog.ofExcept, hdigest]

/-! ## Runs -/

/-- `received` is what arrives on the connection. -/
def hearing (received : Except Exc Json) (s : DaemonState) (event : Event Call.Ret Exc)
    (s' : DaemonState) : Prop :=
  DaemonState.alone s event s' ∧
    ∀ answer, event = ⟨.host .recvCommand, answer⟩ → answer = received

/-- A run of the handler of a connection. -/
structure Handles (cfg : Config) (received : Except Exc Json) (s : DaemonState)
    (log : List (Event Call.Ret Exc)) (outcome : Outcome Exc Unit) (s' : DaemonState) : Prop where
  trace : (handlePeerConn cfg).Trace log outcome
  history : History (hearing received) s log s'

/-- What is sent back. -/
def replies (log : List (Event Call.Ret Exc)) : List (List (String × String)) :=
  log.filterMap fun event =>
    match event.op with
    | .host (.sendReply reply) => some reply
    | _ => none

/-- The operations of a handler that refuses. -/
def refusal (op : Call) : Prop :=
  op = .host .recvCommand ∨ op = .host (.sendReply [("error", "auth_failed")])

/-- A run without the token performs nothing but the exchange itself, and what is
sent back depends on the payload alone. -/
theorem Handles.refused (htoken : cfg.cluster.peerAuthToken ≠ "") {received : Except Exc Json}
    (hforeign : ¬ Authentic cfg received) : ∃ answers, ∀ s log outcome s',
      Handles cfg received s log outcome s' →
        s' = s ∧ (∀ event ∈ log, refusal event.op) ∧ replies log = answers := by
  have hrun {s s' : DaemonState} {log : List (Event Call.Ret Exc)} {outcome : Outcome Exc Unit}
      (h : Handles cfg received s log outcome s') : ∃ rest,
        log = ⟨.host .recvCommand, received⟩ :: rest ∧
          (respond cfg received).Trace rest outcome ∧ History (hearing received) s rest s' := by
    have htrace := h.trace
    have hhistory := h.history
    rw [handlePeerConn_eq] at htrace
    cases htrace with
    | call htrace =>
        cases hhistory with
        | cons hstep hhistory =>
            obtain ⟨⟨-, rfl⟩, hreceived⟩ := hstep
            obtain rfl := hreceived _ rfl
            exact ⟨_, rfl, htrace, hhistory⟩
  -- whatever of the three it is, it does not depend on the state
  rcases respond_cases htoken hforeign with hrespond | ⟨exc, hrespond⟩ | hrespond
  · refine ⟨[], fun s log outcome s' h => ?_⟩
    obtain ⟨rest, rfl, htrace, hhistory⟩ := hrun h
    rw [hrespond] at htrace
    cases htrace
    cases hhistory
    exact ⟨rfl, by simp [refusal], rfl⟩
  · refine ⟨[], fun s log outcome s' h => ?_⟩
    obtain ⟨rest, rfl, htrace, hhistory⟩ := hrun h
    rw [hrespond] at htrace
    cases htrace
    cases hhistory
    exact ⟨rfl, by simp [refusal], rfl⟩
  · refine ⟨[[("error", "auth_failed")]], fun s log outcome s' h => ?_⟩
    obtain ⟨rest, rfl, htrace, hhistory⟩ := hrun h
    rw [hrespond] at htrace
    cases htrace with
    | @call _ _ answer rest _ htrace =>
        cases hhistory with
        | cons hstep hhistory =>
            obtain ⟨⟨-, rfl⟩, -⟩ := hstep
            cases answer <;> cases htrace <;> cases hhistory <;> exact ⟨rfl, by simp [refusal], rfl⟩

/-- **Unauthenticated peers.**  Whatever bytes arrive, unless they hold the token,
handling them changes nothing in the daemon, and what is sent back is the same in
any two runs from any two states. -/
theorem unauthenticated_no_influence (cfg : Config) (decode : List UInt8 → Except Exc Json)
    (payload : List UInt8) (htoken : cfg.cluster.peerAuthToken ≠ "")
    (hforeign : ¬ Authentic cfg (decode payload)) :
    (∀ s log outcome s', Handles cfg (decode payload) s log outcome s' →
      s' = s ∧ ∀ event ∈ log, refusal event.op) ∧
    ∀ s₁ log₁ outcome₁ s₁' s₂ log₂ outcome₂ s₂',
      Handles cfg (decode payload) s₁ log₁ outcome₁ s₁' →
      Handles cfg (decode payload) s₂ log₂ outcome₂ s₂' → replies log₁ = replies log₂ := by
  obtain ⟨answers, hrefused⟩ := Handles.refused htoken hforeign
  constructor
  · intro s log outcome s' h
    obtain ⟨hsame, hops, -⟩ := hrefused s log outcome s' h
    exact ⟨hsame, hops⟩
  · intro s₁ log₁ outcome₁ s₁' s₂ log₂ outcome₂ s₂' h₁ h₂
    rw [(hrefused _ _ _ _ h₁).2.2, (hrefused _ _ _ _ h₂).2.2]

section Sample

/-- The sample configuration, with a token. -/
def guarded : Config :=
  { Config.sampleStandby with
    cluster := { Config.sampleStandby.cluster with peerAuthToken := "secret" } }

/-- A request without a token. -/
def bareRequest : Json := .obj [("cmd", .str "SWITCHOVER_REQUEST")]

def hear (received : Json) : (op : Call) → DaemonState → Except Exc op.Ret × DaemonState
  | .host .recvCommand, s => (.ok received, s)
  | .host call, s => (s.reply call, s.after call)
  | .disk call, s => (call.reply, s)
  | .net _, s => (.ok (), s)

/-- The request, as a daemon in the given role handles it. -/
def bareRun (role : NodeRole) : Run Call.Ret Exc Unit DaemonState :=
  (handlePeerConn guarded).run (hear bareRequest)
    ⟨{ name := "pg-standby", role := role }, 0, 0, "UNKNOWN", false, false, 0⟩

/-- The operations of the exchange on the connection. -/
def onConnection : Call → Bool
  | .host .recvCommand | .host (.sendReply _) => true
  | _ => false

theorem hearing_hear (received : Json) (s : DaemonState) (op : Call)
    (hop : onConnection op = true) :
    hearing (.ok received) s ⟨op, (hear received op s).1⟩ (hear received op s).2 := by
  unfold onConnection at hop
  split at hop
  · refine ⟨⟨trivial, rfl⟩, fun answer h => ?_⟩
    cases h
    rfl
  · refine ⟨⟨trivial, rfl⟩, fun answer h => ?_⟩
    cases h
  · cases hop

theorem handles_bareRun (role : NodeRole) : Handles guarded (.ok bareRequest)
    ⟨{ name := "pg-standby", role := role }, 0, 0, "UNKNOWN", false, false, 0⟩ (bareRun role).log
    (bareRun role).outcome (bareRun role).final := by
  refine ⟨trace_run _ _ _, history_run_of_log (hearing_hear bareRequest) _ _ ?_⟩
  cases role <;> decide

/-- A PRIMARY and a STANDBY refuse in the same words. -/
theorem unauthenticated_no_influence_bareRequest :
    replies (bareRun .primary).log = replies (bareRun .standby).log := by
  have hforeign : ¬ Authentic guarded (.ok bareRequest) := by
    rintro ⟨req, hreq, htoken⟩
    obtain rfl := Except.ok.inj hreq
    have hnone : jsonGet bareRequest "token" = .ok none := rfl
    rw [hnone] at htoken
    cases htoken
  exact (unauthenticated_no_influence guarded (fun _ => .ok bareRequest) [] (by decide)
    hforeign).2 _ _ _ _ _ _ _ _ (handles_bareRun .primary) (handles_bareRun .standby)

end Sample

end PgHa.PgHaDaemon

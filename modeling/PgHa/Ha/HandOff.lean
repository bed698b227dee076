import PgHa.Daemon
import PgHa.Effect.Threads
import PgHa.Model.Host

/-!
# The hand-off of the role between two nodes

A planned switchover runs on both nodes at once: the giver releases everything,
asks its peer to take over, waits for the peer to accept, and only then gives up
its role.  The peer accepts first and promotes itself in a thread of its own, so
nothing orders the promotion after the demotion; when the acceptance is lost, the
giver never gives up its role at all.

Here every operation of the managers succeeds and the disk is as the Compute API
says.  The request and the acceptance may be delayed or lost.  `inOrder` is what the
code does not see to: that an acceptance meets a giver that waits for it, that the
giver then reads it, and that the promotion comes after the end of the giver's
sequence.  `one_primary` shows that nothing else is missing.

The argument is about the acceptance.  While the giver does not listen, none is
sent, so a giver whose wait has ended without one knows that none has been; and a
giver that has read one goes on to DEMOTE.  Either way (`Settled`) it has given up
its role if anybody has accepted, and so it is when its sequence has ended.  A
promotion is started only by a handler that has accepted.
-/

namespace PgHa.HandOff

open Effect SwitchoverEngine

variable {cfg : Site → Config} {giver : Site}

/-! ## The system -/

/-- The threads: the one that runs the switchover on the giver, and on its peer
one for each connection and one for the promotion that it may start. -/
inductive Slot
  | giver
  | handler (n : ℕ)
  | promoter (n : ℕ)
  deriving DecidableEq

/-- The node that a thread runs on. -/
def Slot.site (giver : Site) : Slot → Site
  | .giver => giver
  | .handler _ | .promoter _ => giver.other

/-- What has become of a connection: nothing yet, an acceptance, or an
acceptance and a promotion. -/
inductive Stage
  | idle
  | promised
  | started
  deriving DecidableEq

/-- Both daemons, the disk, and the messages in flight.  The last four fields record
what has happened, and no operation reads them: the giver has sent its request, it
waits for the reply, its sequence has ended, and what has become of each connection. -/
structure World where
  node : Site → DaemonState
  holder : Option String
  request : Option PeerRequest
  reply : Option (List (String × String))
  requested : Bool
  listening : Bool
  ended : Bool
  stage : ℕ → Stage

namespace World

def role (s : World) (site : Site) : NodeRole := (s.node site).node.role

def after (s : World) (site : Site) (call : HostCall) : World :=
  { s with node := Function.update s.node site ((s.node site).after call) }

/-- The disk is detached from an instance. -/
def detach (s : World) (name : String) : World :=
  { s with holder := if s.holder = some name then none else s.holder }

end World

/-- A request, parsed. -/
def requestJson (request : PeerRequest) : Json :=
  match request.token with
  | none => .obj [("cmd", .str request.cmd)]
  | some token => .obj [("cmd", .str request.cmd), ("token", .str token)]

/-- A reply, parsed. -/
def replyJson (fields : List (String × String)) : Json :=
  .obj (fields.map fun field => (field.1, .str field.2))

/-- The reply that `_step_signal_peer` waits for. -/
def isAcceptance (reply : Json) : Bool :=
  match jsonGet reply "cmd" with
  | .ok cmd => isText cmd cmdSwitchoverAccept
  | .error _ => false

def accepts (fields : List (String × String)) : Bool := isAcceptance (replyJson fields)

def stageAfter (slot : Slot) (fields : List (String × String)) (stage : ℕ → Stage) : ℕ → Stage :=
  match slot with
  | .handler n => if accepts fields then Function.update stage n .promised else stage
  | _ => stage

/-- What an operation of the host does. -/
def hostStep (giver : Site) (slot : Slot) (s : World) (call : HostCall)
    (answer : Except Exc call.Ret) (s' : World) : Prop :=
  match call, answer with
  | .sendRequest request, answer =>
      -- a `sendall` that raises may have sent the request all the same
      s' = { s with requested := true, request := some request, listening := answer.toBool } ∨
        (∃ exc, answer = .error exc) ∧ s' = s
  | .recvCommand, answer =>
      (∃ request, s.request = some request ∧ answer = .ok (requestJson request) ∧
        s' = { s with request := none }) ∨ (∃ exc, answer = .error exc) ∧ s' = s
  | .sendReply fields, answer =>
      answer = .ok () ∧
        s' = { s with reply := some fields, stage := stageAfter slot fields s.stage } ∨
      (∃ exc, answer = .error exc) ∧ s' = s
  | .recvReply, answer =>
      (∃ fields text, s.reply = some fields ∧ answer = .ok ⟨replyJson fields, text⟩ ∧
        s' = { s with reply := none, listening := false }) ∨
      (∃ exc, answer = .error exc) ∧ s' = { s with listening := false }
  | .mark (.leave .asPrimary), answer =>
      answer = .ok () ∧
        s' = { s.after (slot.site giver) (.mark (.leave .asPrimary)) with ended := true }
  | .startThread _, _ => False
  | call, answer =>
      (s.node (slot.site giver)).Answers call answer ∧ s' = s.after (slot.site giver) call

/-- Every operation of the managers succeeds, and the disk is where the Compute
API says. -/
def handOffStep (cfg : Site → Config) (giver : Site) (slot : Slot) (s : World)
    (event : Event Call.Ret Exc) (s' : World) : Prop :=
  match event with
  | ⟨.disk .currentRwHolder, answer⟩ => answer = .ok s.holder ∧ s' = s
  | ⟨.disk .attachDiskRw, answer⟩ =>
      answer = .ok () ∧ s' = { s with holder := some (cfg (slot.site giver)).cluster.nodeName }
  | ⟨.disk .detachDisk, answer⟩ =>
      answer = .ok () ∧ s' = s.detach (cfg (slot.site giver)).cluster.nodeName
  | ⟨.disk .forceDetachFromPeer, answer⟩ =>
      answer = .ok () ∧ s' = s.detach (cfg (slot.site giver)).cluster.peerNode
  | ⟨.disk _, answer⟩ => (∃ value, answer = .ok value) ∧ s' = s
  | ⟨.net _, answer⟩ => answer = .ok () ∧ s' = s
  | ⟨.host call, answer⟩ => hostStep giver slot s call answer s'

/-- The rest of the two daemons leaves the roles and the disk alone, and
messages are lost. -/
structure Quiet (s s' : World) : Prop where
  role : ∀ site, s'.role site = s.role site
  holder : s'.holder = s.holder
  request : ∀ request, s'.request = some request → s.request = some request
  reply : ∀ fields, s'.reply = some fields → s.reply = some fields
  requested : s'.requested = s.requested
  listening : s'.listening = s.listening
  ended : s'.ended = s.ended
  stage : s'.stage = s.stage

/-- A connection is handled at any time, and the handler may start a thread. -/
def handOffSystem (cfg : Site → Config) (giver : Site) : System Slot Call.Ret Exc Unit World where
  step := handOffStep cfg giver
  fork i j s event s' child := ∃ n task, i = .handler n ∧ j = .promoter n ∧
    event = ⟨.host (.startThread task), .ok ()⟩ ∧
    child = PgHaDaemon.taskBody (cfg giver.other) task ∧
    s' = { s with stage := Function.update s.stage n .started }
  arrive i s program s' := (∃ n, i = .handler n) ∧
    program = PgHaDaemon.handlePeerConn (cfg giver.other) ∧ s' = s
  env := Quiet

/-- One PRIMARY and one STANDBY; no message has been sent. -/
structure Start (cfg : Site → Config) (giver : Site)
    (state : Threads Slot Call.Ret Exc Unit World) : Prop where
  giverRole : state.shared.role giver = .primary
  takerRole : state.shared.role giver.other = .standby
  request : state.shared.request = none
  reply : state.shared.reply = none
  requested : state.shared.requested = false
  listening : state.shared.listening = false
  ended : state.shared.ended = false
  stage : ∀ n, state.shared.stage n = .idle
  program : state.prog .giver = PgHaDaemon.runSwitchover (cfg giver)
  handlers : ∀ n, state.prog (.handler n) = .pure ()
  promoters : ∀ n, state.prog (.promoter n) = .pure ()

/-- Some connection has been answered with an acceptance. -/
def Acknowledged (s : World) : Prop := ∃ n, s.stage n ≠ .idle

/-- What the code does not see to.  The peer accepts while the giver waits for its reply; a
wait during which it has accepted ends with the acceptance; and the peer promotes itself after
the giver's sequence has ended. -/
def inOrder (_ : Slot) (s : World) (event : Event Call.Ret Exc) : Prop :=
  match event with
  | ⟨.host (.sendReply fields), _⟩ => accepts fields = true → s.listening = true
  | ⟨.host .recvReply, answer⟩ =>
      Acknowledged s → ∃ resp, answer = .ok resp ∧ isAcceptance resp.value = true
  | ⟨.host (.setRole .primary), _⟩ => s.ended = true
  | _ => True

/-! ## The contract of the threads -/

/-- The giver does not wait for a reply, and if anybody has accepted, it has given up its role. -/
structure Settled (giver : Site) (s : World) : Prop where
  deaf : s.listening = false
  demoted : Acknowledged s → s.role giver ≠ .primary

/-- What holds between the two nodes throughout. -/
structure Consistent (cfg : Site → Config) (giver : Site) (s : World) : Prop where
  request : ∀ request, s.request = some request →
    request.cmd = cmdSwitchoverRequest ∧ s.requested = true
  reply : ∀ fields, s.reply = some fields → accepts fields = true → Acknowledged s
  stage : ∀ n, s.stage n ≠ .idle → s.requested = true
  /-- The giver asks only after it has detached the disk. -/
  holder : s.requested = true → s.holder ≠ some (cfg giver).cluster.nodeName
  /-- The giver gives up its role only when the peer has accepted. -/
  demoted : s.role giver ≠ .primary → Acknowledged s
  settled : s.ended = true → Settled giver s
  taker : s.role giver.other = .standby ∨
    s.role giver.other = .primary ∧ s.role giver ≠ .primary

/-- What the peer leaves to the giver. -/
structure LeavesGiver (cfg : Site → Config) (giver : Site) (s s' : World) : Prop where
  role : s'.role giver = s.role giver
  listening : s'.listening = s.listening
  ended : s'.ended = s.ended
  unheard : s.listening = false → Acknowledged s' → Acknowledged s
  holder : s.holder ≠ some (cfg giver).cluster.nodeName →
    s'.holder ≠ some (cfg giver).cluster.nodeName

/-- What only thread `i` changes. -/
def Own (cfg : Site → Config) (giver : Site) (s s' : World) : Slot → Prop
  | .giver => LeavesGiver cfg giver s s'
  | .handler n => s'.stage n = s.stage n
  | .promoter n => s'.stage n = .started → s.stage n = .started

/-- How the other threads may change the state under a thread. -/
structure Relies (cfg : Site → Config) (giver : Site) (i : Slot) (s s' : World) : Prop where
  requested : s.requested = true → s'.requested = true
  stage : ∀ n, s.stage n ≠ .idle → s'.stage n ≠ .idle
  promoted : s.role giver.other = .primary → s'.role giver.other = .primary
  own : Own cfg giver s s' i

/-- What a thread has done when it has ended: a handler that has accepted has
started a promotion, and a promotion has made the peer PRIMARY. -/
def Done (giver : Site) (s : World) : Slot → Prop
  | .giver => True
  | .handler n => s.stage n ≠ .promised
  | .promoter n => s.stage n = .started → s.role giver.other = .primary

def handOffContract (cfg : Site → Config) (giver : Site) :
    Contract ((handOffSystem cfg giver).restrict inOrder) where
  inv := Consistent cfg giver
  rely := Relies cfg giver
  refl i s := by
    refine ⟨id, fun _ => id, id, ?_⟩
    cases i with
    | giver => exact ⟨rfl, rfl, rfl, fun _ => id, id⟩
    | handler n => exact rfl
    | promoter n => exact id
  trans i s s' s'' h h' := by
    refine ⟨h'.requested ∘ h.requested, fun n => h'.stage n ∘ h.stage n,
      h'.promoted ∘ h.promoted, ?_⟩
    have hown := h.own
    have hown' := h'.own
    cases i with
    | giver =>
        refine ⟨hown'.role.trans hown.role, hown'.listening.trans hown.listening,
          hown'.ended.trans hown.ended, fun hdeaf hack => ?_, hown'.holder ∘ hown.holder⟩
        exact hown.unheard hdeaf (hown'.unheard (hown.listening.trans hdeaf) hack)
    | handler n => exact hown'.trans hown
    | promoter n => exact hown ∘ hown'
  start i program s := match i with
    | .giver => False
    | .handler n => program = PgHaDaemon.handlePeerConn (cfg giver.other) ∧ s.stage n ≠ .promised
    | .promoter _ => program = PgHaDaemon.runSwitchoverAsStandby (cfg giver.other) ∧
        Acknowledged s
  post i outcome s := outcome ≠ .stuck → Done giver s i
  stable i outcome s s' hrely _ hpost hended := by
    have hown := hrely.own
    have hdone := hpost hended
    cases i with
    | giver => trivial
    | handler n =>
        have hsame : s'.stage n = s.stage n := hown
        exact fun h => hdone (hsame.symm.trans h)
    | promoter n => exact fun h => hrely.promoted (hdone (hown h))

/-- A thread of the hand-off among the others. -/
abbrev during (cfg : Site → Config) (giver : Site) (i : Slot) : Transformer Call.Ret Exc World :=
  (handOffContract cfg giver).thread i

theorem during_monotone {i : Slot} : (during cfg giver i).Monotone :=
  (handOffContract cfg giver).thread_monotone i

/-- The other threads do not take the assertion away. -/
def Stable (cfg : Site → Config) (giver : Site) (i : Slot) (P : World → Prop) : Prop :=
  ∀ s s', P s → Relies cfg giver i s s' → Consistent cfg giver s' → P s'

theorem Settled.of_same {s s' : World} (h : Settled giver s)
    (hlistening : s'.listening = s.listening) (hstage : s'.stage = s.stage)
    (hrole : s'.role giver = s.role giver) : Settled giver s' := by
  refine ⟨hlistening.trans h.deaf, ?_⟩
  rw [Acknowledged, hstage, hrole]
  exact h.demoted

theorem Quiet.relies {s s' : World} (h : Quiet s s') (i : Slot) : Relies cfg giver i s s' where
  requested := by simp [h.requested]
  stage := by simp [h.stage]
  promoted := by simp [h.role]
  own := by
    cases i with
    | giver =>
        refine ⟨h.role giver, h.listening, h.ended, fun _ hack => ?_, by simp [h.holder]⟩
        rwa [Acknowledged, h.stage] at hack
    | handler n => exact congrFun h.stage n
    | promoter n => simp [Own, h.stage]

theorem Quiet.consistent {s s' : World} (h : Quiet s s') (hs : Consistent cfg giver s) :
    Consistent cfg giver s' where
  request := by
    intro request hrequest
    rw [h.requested]
    exact hs.request request (h.request request hrequest)
  reply := by
    intro fields hreply
    rw [Acknowledged, h.stage]
    exact hs.reply fields (h.reply fields hreply)
  stage := by
    rw [h.stage, h.requested]
    exact hs.stage
  holder := by
    rw [h.requested, h.holder]
    exact hs.holder
  demoted := by
    rw [h.role, Acknowledged, h.stage]
    exact hs.demoted
  settled := by
    rw [h.ended]
    exact fun hended => (hs.settled hended).of_same h.listening h.stage (h.role giver)
  taker := by
    rw [h.role, h.role]
    exact hs.taker

/-! ## Operations that the other threads do not see -/

/-- The operations that neither change a role or the disk, nor send anything or wait for a
reply, nor start a thread or end the giver's sequence. -/
def quiet : Call → Prop
  | .disk .attachDiskRw | .disk .detachDisk | .disk .forceDetachFromPeer => False
  | .host (.setRole _) | .host (.sendRequest _) | .host (.sendReply _) | .host .recvReply
  | .host (.startThread _) | .host (.mark (.leave .asPrimary)) => False
  | _ => True

theorem quiet_of_minor {op : Call} (h : op.minor) : quiet op := by
  unfold quiet
  split <;> first | exact h | trivial

theorem quiet_after (s : World) (site : Site) {call : HostCall}
    (h : ∀ role, call ≠ .setRole role) : Quiet s (s.after site call) where
  role := by
    intro other
    by_cases hsite : other = site
    · subst hsite
      simp only [World.role, World.after, Function.update_self]
      exact DaemonState.after_role _ h
    · simp only [World.role, World.after, Function.update_of_ne hsite]
  holder := rfl
  request := fun _ => id
  reply := fun _ => id
  requested := rfl
  listening := rfl
  ended := rfl
  stage := rfl

theorem quiet_refl (s : World) : Quiet s s :=
  ⟨fun _ => rfl, rfl, fun _ => id, fun _ => id, rfl, rfl, rfl, rfl⟩

variable {i : Slot}

theorem quiet_of_step {op : Call} (hop : quiet op) {s s' : World} {answer : Except Exc op.Ret}
    (h : handOffStep cfg giver i s ⟨op, answer⟩ s') : Quiet s s' := by
  cases op with
  | disk call =>
      have hsame : s' = s := by
        cases call <;> first | exact hop.elim | exact h.2
      exact hsame ▸ quiet_refl s
  | net call =>
      have hsame : s' = s := h.2
      exact hsame ▸ quiet_refl s
  | host call =>
      cases call
      -- a request that is received is no longer on its way
      case recvCommand =>
        rcases h with ⟨request, -, -, rfl⟩ | ⟨-, rfl⟩
        · exact ⟨fun _ => rfl, rfl, by simp, fun _ => id, rfl, rfl, rfl, rfl⟩
        · exact quiet_refl _
      case mark mark =>
        rcases mark with (_ | _ | _ | _) | (_ | _ | _ | _) | _
        all_goals first
          | exact hop.elim
          | exact h.2 ▸ quiet_after s (i.site giver) (by simp)
      all_goals first
        | exact hop.elim
        | exact h.2 ▸ quiet_after s (i.site giver) (by simp)

/-- A quiet operation keeps what the other threads keep. -/
theorem quiet_perform {op : Call} {P : World → Prop} {post : Except Exc op.Ret → World → Prop}
    (hop : quiet op) (hP : Stable cfg giver i P)
    (hpost : ∀ s s' answer, Consistent cfg giver s → P s' →
      handOffStep cfg giver i s ⟨op, answer⟩ s' → post answer s')
    (s : World) (hs : P s) : during cfg giver i op post s := by
  refine Contract.thread_of_step (C := handOffContract cfg giver) P hs hP ?_ ?_
  · rintro j s answer s' child ⟨-, n, task, -, -, hevent, -⟩
    obtain ⟨rfl, -⟩ := Event.mk.inj hevent
    exact hop
  · intro s hs hinv answer s' hstep
    have hquiet := quiet_of_step hop hstep.2
    have hinv' : Consistent cfg giver s' := hquiet.consistent hinv
    refine ⟨hinv', fun j _ => hquiet.relies j, ?_⟩
    exact hpost s s' answer hinv (hP s s' hs (hquiet.relies i) hinv') hstep.2

theorem keeps_of_quiet {α : Type} {program : Mgr α} (hcalls : program.Calls quiet)
    {P : World → Prop} (hP : Stable cfg giver i P) : Prog.Keeps (during cfg giver i) P program := by
  apply Prog.Triple.of_calls during_monotone _ hcalls
  intro op hop
  exact quiet_perform hop hP fun _ _ _ _ hs' _ => hs'

theorem perform_of_quiet (op : Call) (hop : quiet op) {P : World → Prop}
    (hP : Stable cfg giver i P) : Prog.Keeps (during cfg giver i) P (Prog.perform op) :=
  keeps_of_quiet (Prog.Calls.perform hop) hP

/-- Started where `P` holds, the program returns, where `Q` holds. -/
abbrev Returns (cfg : Site → Config) (giver : Site) (i : Slot) {α : Type} (P : World → Prop)
    (program : Mgr α) (Q : α → World → Prop) : Prop :=
  Prog.Triple (during cfg giver i) P program Q fun _ => False

/-- An operation that always succeeds. -/
theorem returns_of_quiet (op : Call) {P : World → Prop} (hop : quiet op)
    (hP : Stable cfg giver i P)
    (hok : ∀ s s' answer, handOffStep cfg giver i s ⟨op, answer⟩ s' → ∃ value, answer = .ok value) :
    Returns cfg giver i P (Prog.perform op) fun _ => P := by
  apply Prog.Triple.perform
  apply quiet_perform hop hP
  intro s s' answer _ hs' hstep
  obtain ⟨value, rfl⟩ := hok s s' answer hstep
  exact hs'

/-- An event that is dropped is no failure. -/
theorem emit_returns {config : Config} {P : World → Prop} (hP : Stable cfg giver i P)
    (eventType : HaEventType) (message : String) :
    Returns cfg giver i P (emit config eventType message) fun _ => P := by
  intro s hs
  rw [emit, Prog.wp_except, Prog.wp_perform]
  refine quiet_perform (by trivial) hP ?_ s hs
  intro s s' answer _ hs' hstep
  cases answer with
  | ok _ => exact hs'
  | error exc =>
      have hfull : exc.cls = .queueFull := hstep.1 exc rfl
      rw [Prog.answered_error, Prog.handled_raised, if_pos hfull]
      exact hs'

/-! ## The promotion -/

section Promoter

variable {n : ℕ}

theorem stable_acknowledged : Stable cfg giver i Acknowledged := by
  rintro s s' ⟨n, hn⟩ hrely _
  exact ⟨n, hrely.stage n hn⟩

/-- Who has accepted has been asked, and then the giver does not hold the disk. -/
theorem Acknowledged.holder {s : World} (h : Acknowledged s) (hs : Consistent cfg giver s) :
    s.holder ≠ some (cfg giver).cluster.nodeName := by
  obtain ⟨n, hn⟩ := h
  exact hs.holder (hs.stage n hn)

/-- The peer is PRIMARY. -/
def Promoted (giver : Site) (s : World) : Prop := s.role giver.other = .primary

theorem stable_promoted : Stable cfg giver i (Promoted giver) :=
  fun _ _ hs hrely _ => hrely.promoted hs

/-- The instance that `_step_attach_disk` takes for its peer is the other node. -/
theorem peerInstance_eq (hcfg : Mirrored cfg) (site : Site) :
    peerInstance (cfg site.other) = (cfg site).cluster.nodeName := by
  cases site with
  | primary =>
      have hnode : (cfg .standby).cluster.nodeName ≠ (cfg .standby).gcp.instancePrimary := by
        rw [hcfg.standbyNode, hcfg.gcp]
        exact hcfg.distinct.symm
      rw [Site.other, peerInstance, if_pos hnode, hcfg.gcp, hcfg.primaryNode]
  | standby =>
      rw [Site.other, peerInstance, if_neg (not_not.mpr hcfg.primaryNode), hcfg.standbyNode]

theorem nodeName_other_ne (hcfg : Mirrored cfg) (site : Site) :
    (cfg site.other).cluster.nodeName ≠ (cfg site).cluster.nodeName :=
  fun h => site.other_ne (hcfg.nodeName_injective h)

theorem currentRwHolder_returns :
    Returns cfg giver (.promoter n) Acknowledged (Mgr.disk .currentRwHolder)
      fun holder s => Acknowledged s ∧ holder ≠ some (cfg giver).cluster.nodeName := by
  apply Prog.Triple.perform
  apply quiet_perform (by trivial) stable_acknowledged
  intro s s' answer hs hack hstep
  obtain ⟨rfl, rfl⟩ := hstep
  exact ⟨hack, hack.holder hs⟩

theorem attachDiskRw_returns (hcfg : Mirrored cfg) :
    Returns cfg giver (.promoter n) Acknowledged (Mgr.disk .attachDiskRw) fun _ =>
      Acknowledged := by
  refine Contract.triple_of_step (C := handOffContract cfg giver) stable_acknowledged ?_ ?_
  · rintro j s answer s' child ⟨-, _, _, h, -⟩
    cases h
  · rintro s hs hinv answer s' ⟨-, rfl, rfl⟩
    have hfree : some (cfg giver.other).cluster.nodeName ≠ some (cfg giver).cluster.nodeName :=
      fun h => nodeName_other_ne hcfg giver (Option.some.inj h)
    refine ⟨⟨hinv.request, hinv.reply, hinv.stage, fun _ => hfree, hinv.demoted,
      fun h => (hinv.settled h).of_same rfl rfl rfl, hinv.taker⟩, ?_, hs⟩
    intro j _
    refine ⟨id, fun _ => id, id, ?_⟩
    cases j with
    | giver => exact ⟨rfl, rfl, rfl, fun _ => id, fun _ => hfree⟩
    | handler m => exact rfl
    | promoter m => exact id

/-- The disk is attached to nobody else, so the step does not refuse. -/
theorem stepAttachDisk_returns (hcfg : Mirrored cfg) :
    Returns cfg giver (.promoter n) Acknowledged (stepAttachDisk (cfg giver.other)) fun _ =>
      Acknowledged := by
  apply currentRwHolder_returns.bind during_monotone
  intro holder
  apply Prog.Triple.ite
  · intro hpeer
    refine .raise fun s hs => hs.2 ?_
    rw [hpeer, peerInstance_eq hcfg]
  · intro _
    have hattach : Returns cfg giver (.promoter n)
        (fun s => Acknowledged s ∧ holder ≠ some (cfg giver).cluster.nodeName)
        (Mgr.disk .attachDiskRw) fun _ => Acknowledged :=
      (attachDiskRw_returns hcfg).conseq during_monotone (fun _ h => h.1)
        (fun _ _ => id) fun _ => id
    apply hattach.bind during_monotone
    intro _
    exact returns_of_quiet (.host (.setDiskState .attachedRw)) trivial stable_acknowledged
      fun _ _ _ hstep => ⟨(), hstep.1⟩

theorem stepStartPostgres_returns :
    Returns cfg giver (.promoter n) Acknowledged (stepStartPostgres (cfg giver.other)) fun _ =>
      Acknowledged := by
  refine Prog.Triple.except during_monotone (R := fun _ => False) ?_ ?_
  · apply (returns_of_quiet (.disk .startPostgres) trivial stable_acknowledged
      fun _ _ _ h => h.1).bind during_monotone
    intro _
    exact returns_of_quiet (.host (.setPgState .runningPrimary)) trivial stable_acknowledged
      fun _ _ _ hstep => ⟨(), hstep.1⟩
  · exact fun _ _ h => h.elim

theorem stepAcquireVip_returns :
    Returns cfg giver (.promoter n) Acknowledged (stepAcquireVip (cfg giver.other)) fun _ =>
      Acknowledged := by
  apply (returns_of_quiet (.net .acquireVip) trivial stable_acknowledged
    fun _ _ _ hstep => ⟨(), hstep.1⟩).bind during_monotone
  exact fun _ => emit_returns stable_acknowledged _ _

/-- After the end of the giver's sequence, which somebody has accepted, the giver has given up its
role. -/
theorem setRole_returns :
    Returns cfg giver (.promoter n) Acknowledged (Mgr.host (.setRole .primary)) fun _ =>
      Promoted giver := by
  refine Contract.triple_of_step (C := handOffContract cfg giver) stable_acknowledged ?_ ?_
  · rintro j s answer s' child ⟨-, _, _, h, -⟩
    cases h
  · rintro s hack hinv answer s' ⟨hlast, hanswer, rfl⟩
    obtain rfl : answer = .ok () := hanswer
    -- the promotion comes after the end of the giver's sequence, and that is settled
    have hended : s.ended = true := hlast
    have hdemoted : s.role giver ≠ .primary := (hinv.settled hended).demoted hack
    have htaker : (s.after giver.other (.setRole .primary)).role giver.other = .primary := by
      simp [World.role, World.after]
    have hgiver : (s.after giver.other (.setRole .primary)).role giver = s.role giver := by
      simp [World.role, World.after, Function.update_of_ne giver.other_ne.symm]
    refine ⟨⟨hinv.request, hinv.reply, hinv.stage, hinv.holder, ?_, ?_, ?_⟩, ?_, htaker⟩
    · exact fun _ => hinv.demoted hdemoted
    · exact fun h => (hinv.settled h).of_same rfl rfl hgiver
    · exact .inr ⟨htaker, hgiver ▸ hdemoted⟩
    · intro j _
      refine ⟨id, fun _ => id, fun _ => htaker, ?_⟩
      cases j with
      | giver => exact ⟨hgiver, rfl, rfl, fun _ => id, id⟩
      | handler m => exact rfl
      | promoter m => exact id

theorem stepPromote_returns :
    Returns cfg giver (.promoter n) Acknowledged (stepPromote (cfg giver.other)) fun _ =>
      Promoted giver := by
  apply setRole_returns.bind during_monotone
  intro _
  apply (returns_of_quiet (.host (.setHealth .healthy)) trivial stable_promoted
    fun _ _ _ hstep => ⟨(), hstep.1⟩).bind during_monotone
  exact fun _ => emit_returns stable_promoted _ _

/-- One pass of the loop of `execute_as_standby`, whose step does not raise. -/
theorem runStandbySteps_cons {P P' Q : World → Prop} {completed : List StepName} {name : StepName}
    {step : Mgr Unit} {rest : List (StepName × Mgr Unit)} (hP : Stable cfg giver i P)
    (hstep : Returns cfg giver i P step fun _ => P')
    (hrest : Returns cfg giver i P' (runStandbySteps (cfg giver.other) (name :: completed) rest)
      fun _ => Q) :
    Returns cfg giver i P (runStandbySteps (cfg giver.other) completed ((name, step) :: rest))
      fun _ => Q := by
  apply (returns_of_quiet (.host (.mark (.step name))) trivial hP
    fun _ _ _ hstep => ⟨(), hstep.1⟩).bind during_monotone
  intro _
  apply (hstep.attempt during_monotone).bind during_monotone
  intro result
  cases result with
  | ok _ => exact hrest
  | error exc => exact fun _ h => h.elim

theorem standbySteps_returns (hcfg : Mirrored cfg) :
    Returns cfg giver (.promoter n) Acknowledged
      (runStandbySteps (cfg giver.other) [] (standbySteps (cfg giver.other))) fun _ =>
        Promoted giver := by
  apply runStandbySteps_cons stable_acknowledged (stepAttachDisk_returns hcfg)
  apply runStandbySteps_cons stable_acknowledged
    (returns_of_quiet (.disk .mountDisk) trivial stable_acknowledged fun _ _ _ hstep => hstep.1)
  apply runStandbySteps_cons stable_acknowledged stepStartPostgres_returns
  apply runStandbySteps_cons stable_acknowledged stepAcquireVip_returns
  apply runStandbySteps_cons stable_acknowledged stepPromote_returns
  exact .pure fun _ => id

/-- A peer that is not STANDBY any more is PRIMARY already. -/
theorem isStandby_returns : Returns cfg giver (.promoter n) Acknowledged LocalNode.isStandby
    fun standby s => Acknowledged s ∧ (standby = false → Promoted giver s) := by
  have hrole : Returns cfg giver (.promoter n) Acknowledged (Mgr.host .role)
      fun role s => Acknowledged s ∧ (role ≠ .standby → Promoted giver s) := by
    apply Prog.Triple.perform
    apply quiet_perform (by trivial) stable_acknowledged
    rintro s s' answer hs hack ⟨rfl, rfl⟩
    refine ⟨hack, fun hnot => ?_⟩
    have hprimary : s.role giver.other = .primary := (hs.taker.resolve_left hnot).1
    have hquiet : Quiet s (s.after giver.other .role) := quiet_after s giver.other (by simp)
    exact (hquiet.role giver.other).trans hprimary
  apply hrole.bind during_monotone
  intro role
  apply Prog.Triple.pure
  rintro s ⟨hack, hnot⟩
  exact ⟨hack, fun h => hnot (by simpa using h)⟩

theorem executeAsStandby_promotes (hcfg : Mirrored cfg) :
    Prog.Triple (during cfg giver (.promoter n)) Acknowledged (executeAsStandby (cfg giver.other))
      (fun _ => Promoted giver) (Promoted giver) := by
  -- what does not raise reaches its end, whatever is asked of an exception
  have hends {α : Type} {P : World → Prop} {program : Mgr α} {Q : α → World → Prop}
      (h : Returns cfg giver (.promoter n) P program Q) :
      Prog.Triple (during cfg giver (.promoter n)) P program Q (Promoted giver) :=
    h.conseq during_monotone (fun _ => id) (fun _ _ => id) fun _ => False.elim
  have henter : Returns cfg giver (.promoter n) Acknowledged
      (Mgr.host (.mark (.enter .asStandby))) fun _ => Acknowledged :=
    returns_of_quiet (.host (.mark (.enter .asStandby))) trivial stable_acknowledged
      fun _ _ _ hstep => ⟨(), hstep.1⟩
  have hleave : Returns cfg giver (.promoter n) (Promoted giver)
      (Mgr.host (.mark (.leave .asStandby))) fun _ => Promoted giver :=
    returns_of_quiet (.host (.mark (.leave .asStandby))) trivial stable_promoted
      fun _ _ _ hstep => ⟨(), hstep.1⟩
  apply (hends isStandby_returns).bind during_monotone
  intro standby
  apply Prog.Triple.ite
  · intro hnot
    exact .pure fun s hs => hs.2 (by simpa using hnot)
  · intro _
    have hbody : Prog.Triple (during cfg giver (.promoter n)) Acknowledged (do
        if ← runStandbySteps (cfg giver.other) [] (standbySteps (cfg giver.other)) then
          emit (cfg giver.other) .switchoverCompleted
            s!"{(cfg giver.other).cluster.nodeName} promoted to PRIMARY"
          pure true
        else
          pure false) (fun _ => Promoted giver) (Promoted giver) := by
      apply (hends (standbySteps_returns hcfg)).bind during_monotone
      intro succeeded
      apply keeps_of_quiet _ stable_promoted
      refine .ite (.bind ?_ fun _ => trivial) trivial
      exact (emit_minor _ _ _).mono fun _ => quiet_of_minor
    -- the `finally` only records the end, which keeps the promotion
    have hsequence := (hends henter).bind during_monotone
      fun _ => hbody.ensuring during_monotone (hends hleave)
    exact hsequence.conseq during_monotone (fun _ h => h.1) (fun _ _ => id) fun _ => id

/-- However it ends, the promotion has made the peer PRIMARY. -/
theorem runSwitchoverAsStandby_promotes (hcfg : Mirrored cfg) :
    Prog.Triple (during cfg giver (.promoter n)) Acknowledged
      (PgHaDaemon.runSwitchoverAsStandby (cfg giver.other)) (fun _ => Promoted giver)
      (Promoted giver) := by
  have hclear : Prog.Keeps (during cfg giver (.promoter n)) (Promoted giver)
      (Mgr.host (.setSwitchoverActive false)) :=
    perform_of_quiet (.host (.setSwitchoverActive false)) trivial stable_promoted
  refine Prog.Triple.ensuring during_monotone ?_ hclear
  apply (executeAsStandby_promotes hcfg).bind during_monotone
  intro promoted
  apply keeps_of_quiet _ stable_promoted
  exact .ite ((PgHaDaemon.efmStart_minor _).mono fun _ => quiet_of_minor) trivial

end Promoter

/-! ## The handler -/

section Handler

variable {n : ℕ}

/-- The giver has asked. -/
def Asked (s : World) : Prop := s.requested = true

theorem stable_asked : Stable cfg giver i Asked := fun _ _ hs hrely _ => hrely.requested hs

/-- The connection has been answered with an acceptance, and no promotion has
been started. -/
def Promised (n : ℕ) (s : World) : Prop := s.stage n = .promised

/-- What the handler keeps but for the moment between its acceptance and the
start of the promotion. -/
def Clear (n : ℕ) (s : World) : Prop := s.stage n ≠ .promised

theorem stable_promised : Stable cfg giver (.handler n) (Promised n) := by
  intro s s' hs hrely _
  have hsame : s'.stage n = s.stage n := hrely.own
  exact hsame.trans hs

theorem stable_clear : Stable cfg giver (.handler n) (Clear n) := by
  intro s s' hs hrely _ hpromised
  have hsame : s'.stage n = s.stage n := hrely.own
  exact hs (hsame.symm.trans hpromised)

theorem stable_asked_clear : Stable cfg giver (.handler n) fun s => Asked s ∧ Clear n s :=
  fun s s' hs hrely hinv => ⟨stable_asked s s' hs.1 hrely hinv, stable_clear s s' hs.2 hrely hinv⟩

/-- The only command in flight is the giver's request. -/
theorem recvCommand_triple : Prog.Triple (during cfg giver (.handler n)) (Clear n)
    (Mgr.host .recvCommand) (fun req s => (Asked s ∧ Clear n s) ∧
      ∃ request : PeerRequest, request.cmd = cmdSwitchoverRequest ∧ req = requestJson request)
    (Clear n) := by
  apply Prog.Triple.perform
  apply quiet_perform (by trivial) stable_clear
  intro s s' answer hs hclear hstep
  rcases hstep with ⟨request, hrequest, rfl, rfl⟩ | ⟨⟨exc, rfl⟩, rfl⟩
  · obtain ⟨hcmd, hasked⟩ := hs.request request hrequest
    exact ⟨⟨hasked, hclear⟩, request, hcmd, rfl⟩
  · exact hclear

theorem jsonGet_requestJson (request : PeerRequest) :
    jsonGet (requestJson request) "cmd" = .ok (some (.str request.cmd)) := by
  unfold requestJson
  split <;> rfl

theorem receiveCommand_triple : Prog.Triple (during cfg giver (.handler n)) (Clear n)
    PgHaDaemon.receiveCommand (fun received s => (Asked s ∧ Clear n s) ∧
      received.2 = some (.str cmdSwitchoverRequest)) (Clear n) := by
  apply recvCommand_triple.bind during_monotone
  intro req s
  rintro ⟨hs, request, hcmd, rfl⟩
  rw [Prog.bind_eq, jsonGet_requestJson]
  exact ⟨hs, by rw [hcmd]⟩

/-- A reply changes nothing but its own connection. -/
theorem stageAfter_cases (fields : List (String × String)) (stage : ℕ → Stage) (m : ℕ) :
    stageAfter (.handler n) fields stage m = stage m ∨
      m = n ∧ stageAfter (.handler n) fields stage m = .promised := by
  by_cases hm : m = n
  · subst hm
    by_cases haccepts : accepts fields = true
    · right
      simp [stageAfter, haccepts]
    · left
      simp [stageAfter, haccepts]
  · left
    by_cases haccepts : accepts fields = true
    · simp [stageAfter, haccepts, Function.update_of_ne hm]
    · simp [stageAfter, haccepts]

theorem stageAfter_of_accepts {fields : List (String × String)} (h : accepts fields = true)
    (stage : ℕ → Stage) : stageAfter (.handler n) fields stage n = .promised := by
  simp [stageAfter, h]

/-- What a reply changes, for the other threads.  A giver that does not listen gets no
acceptance. -/
theorem reply_step {s : World} (hs : Consistent cfg giver s) (hasked : Asked s)
    (fields : List (String × String)) (horder : accepts fields = true → s.listening = true)
    {s' : World} (hs' : s' = { s with
      reply := some fields, stage := stageAfter (.handler n) fields s.stage }) :
    Consistent cfg giver s' ∧ ∀ j, j ≠ .handler n → Relies cfg giver j s s' := by
  subst hs'
  have hmono (m : ℕ) (hm : s.stage m ≠ .idle) :
      stageAfter (.handler n) fields s.stage m ≠ .idle := by
    rcases stageAfter_cases fields s.stage m with hsame | ⟨-, hpromised⟩
    · rwa [hsame]
    · simp [hpromised]
  -- while the giver does not listen, the reply is none
  have hdeaf (hlistening : s.listening = false) :
      stageAfter (.handler n) fields s.stage = s.stage := by
    have hrefuses : accepts fields = false := by
      rw [Bool.eq_false_iff]
      intro haccepts
      rw [horder haccepts] at hlistening
      cases hlistening
    simp [stageAfter, hrefuses]
  refine ⟨⟨hs.request, ?_, fun _ _ => hasked, hs.holder, ?_, fun hended => ?_, hs.taker⟩, ?_⟩
  · intro fields' hfields haccepts
    obtain rfl : fields = fields' := Option.some.inj hfields
    refine ⟨n, ?_⟩
    simp only [stageAfter_of_accepts haccepts]
    simp
  · intro hdemoted
    obtain ⟨m, hm⟩ := hs.demoted hdemoted
    exact ⟨m, hmono m hm⟩
  · exact (hs.settled hended).of_same rfl (hdeaf (hs.settled hended).deaf) rfl
  · intro j hj
    refine ⟨id, hmono, id, ?_⟩
    cases j with
    | giver =>
        refine ⟨rfl, rfl, rfl, fun hlistening hack => ?_, id⟩
        obtain ⟨m, hm⟩ := hack
        exact ⟨m, by rwa [← hdeaf hlistening]⟩
    | handler m =>
        rcases stageAfter_cases (n := n) fields s.stage m with hsame | ⟨hm, -⟩
        · exact hsame
        · exact absurd (congrArg Slot.handler hm) hj
    | promoter m =>
        -- a promotion that has been started is not taken back by another reply
        intro hstarted
        have hstarted : stageAfter (.handler n) fields s.stage m = .started := hstarted
        rcases stageAfter_cases fields s.stage m with hsame | ⟨-, hpromised⟩
        · rw [← hsame, hstarted]
        · rw [hpromised] at hstarted
          cases hstarted

/-- The answer to a request that has not been answered yet. -/
theorem reply_triple (fields : List (String × String)) {Q : World → Prop}
    (hQ : ∀ s, Asked s → Clear n s → Q { s with
      reply := some fields, stage := stageAfter (.handler n) fields s.stage }) :
    Prog.Triple (during cfg giver (.handler n)) (fun s => Asked s ∧ Clear n s)
      (Mgr.host (.sendReply fields)) (fun _ => Q) fun s => Asked s ∧ Clear n s := by
  refine Contract.triple_of_step (C := handOffContract cfg giver) stable_asked_clear ?_ ?_
  · rintro j s answer s' child ⟨-, _, _, -, -, h, -⟩
    cases h
  · rintro s ⟨hasked, hclear⟩ hinv answer s' ⟨horder, hstep⟩
    rcases hstep with ⟨rfl, hs'⟩ | ⟨⟨exc, rfl⟩, rfl⟩
    · obtain ⟨hinv', hothers⟩ := reply_step hinv hasked _ horder hs'
      refine ⟨hinv', hothers, ?_⟩
      rw [hs']
      exact hQ s hasked hclear
    · exact ⟨hinv, fun j _ => (quiet_refl _).relies j, hasked, hclear⟩

/-- The acceptance is sent before the promotion is started. -/
theorem accept_triple : Prog.Triple (during cfg giver (.handler n))
    (fun s => Asked s ∧ Clear n s)
    (Mgr.host (.sendReply [("cmd", "SWITCHOVER_ACCEPT")])) (fun _ => Promised n) (Clear n) := by
  have hreply : Prog.Triple (during cfg giver (.handler n)) (fun s => Asked s ∧ Clear n s)
      (Mgr.host (.sendReply [("cmd", "SWITCHOVER_ACCEPT")])) (fun _ => Promised n)
      fun s => Asked s ∧ Clear n s := by
    apply reply_triple
    intro s _ _
    have haccepts : accepts [("cmd", "SWITCHOVER_ACCEPT")] = true := by decide
    exact stageAfter_of_accepts haccepts s.stage
  exact hreply.conseq during_monotone (fun _ => id) (fun _ _ => id) fun _ hs => hs.2

/-- The promotion is started in its own thread. -/
theorem startThread_triple : Prog.Triple (during cfg giver (.handler n)) (Promised n)
    (Mgr.host (.startThread .runSwitchoverAsStandby)) (fun _ => Clear n) (Clear n) := by
  apply Prog.Triple.perform
  intro s hs s₁ hrely hinv answer
  have hs₁ : Promised n s₁ := stable_promised s s₁ hs hrely hinv
  have hasked : s₁.requested = true := hinv.stage n (by rw [hs₁]; simp)
  refine ⟨fun s₂ hstep => hstep.2.elim, ?_⟩
  rintro j s₂ child ⟨-, m, task, hm, rfl, hevent, rfl, rfl⟩ -
  obtain rfl : n = m := Slot.handler.inj hm
  cases hevent
  -- a connection that has promised goes on, and none goes back
  have hmono (m : ℕ) (hm : s₁.stage m ≠ .idle) :
      Function.update s₁.stage n .started m ≠ .idle := by
    by_cases hmn : m = n
    · subst hmn
      simp
    · rwa [Function.update_of_ne hmn]
  have hack : Acknowledged s₁ := ⟨n, by rw [hs₁]; simp⟩
  -- somebody had accepted before, so the record of the start says nothing new
  have hsettled (hended : s₁.ended = true) : Settled giver
      { s₁ with stage := Function.update s₁.stage n .started } :=
    ⟨(hinv.settled hended).deaf, fun _ => (hinv.settled hended).demoted hack⟩
  refine ⟨⟨hinv.request, ?_, fun _ _ => hasked, hinv.holder, ?_, hsettled, hinv.taker⟩, ?_,
    ⟨rfl, n, by simp⟩, ?_⟩
  · intro fields hfields haccepts
    obtain ⟨m, hm⟩ := hinv.reply fields hfields haccepts
    exact ⟨m, hmono m hm⟩
  · intro hdemoted
    obtain ⟨m, hm⟩ := hinv.demoted hdemoted
    exact ⟨m, hmono m hm⟩
  · intro l hl hl'
    refine ⟨id, hmono, id, ?_⟩
    cases l with
    | giver => exact ⟨rfl, rfl, rfl, fun _ _ => hack, id⟩
    | handler m =>
        have hmn : m ≠ n := fun h => hl (congrArg Slot.handler h)
        exact Function.update_of_ne hmn _ _
    | promoter m =>
        have hmn : m ≠ n := fun h => hl' (congrArg Slot.promoter h)
        simp [Own, Function.update_of_ne hmn]
  · simp [Prog.ending, Clear]

theorem handleSwitchoverRequest_triple : Prog.Triple (during cfg giver (.handler n))
    (fun s => Asked s ∧ Clear n s) PgHaDaemon.handleSwitchoverRequest (fun _ => Clear n)
    (Clear n) := by
  apply accept_triple.bind during_monotone
  intro _
  have hset : Returns cfg giver (.handler n) (Promised n)
      (Mgr.host (.setSwitchoverActive true)) fun _ => Promised n :=
    returns_of_quiet (.host (.setSwitchoverActive true)) trivial stable_promised
      fun _ _ _ hstep => ⟨(), hstep.1⟩
  apply (hset.conseq during_monotone (fun _ => id) (fun _ _ => id) fun _ => False.elim).bind
    during_monotone
  exact fun _ => startThread_triple

theorem authenticated_quiet (config : Config) (req : Json) :
    (PgHaDaemon.authenticated config req).Calls quiet :=
  .ite trivial (.bind (Prog.calls_ofExcept _) fun _ => Prog.calls_ofExcept _)

/-- A refusal accepts nothing. -/
theorem refuse_triple : Prog.Keeps (during cfg giver (.handler n))
    (fun s => Asked s ∧ Clear n s) (Mgr.host (.sendReply [("error", "auth_failed")])) := by
  apply reply_triple
  intro s hasked hclear
  have hrefuses : accepts [("error", "auth_failed")] = false := by decide
  have hstage : stageAfter (.handler n) [("error", "auth_failed")] s.stage = s.stage := by
    simp [stageAfter, hrefuses]
  refine ⟨hasked, ?_⟩
  rw [Clear, hstage]
  exact hclear

theorem handlePeerConn_triple : Prog.Triple (during cfg giver (.handler n)) (Clear n)
    (PgHaDaemon.handlePeerConn (cfg giver.other)) (fun _ => Clear n) (Clear n) := by
  apply (receiveCommand_triple.attempt during_monotone).bind during_monotone
  intro result
  cases result with
  | error exc => exact .ite (fun _ => .pure fun _ => id) fun _ => .raise fun _ => id
  | ok received =>
      -- the only request on its way is the giver's, so the handler gets to its branch
      obtain ⟨req, cmd⟩ := received
      have hdispatch : Prog.Triple (during cfg giver (.handler n)) (fun s => Asked s ∧ Clear n s)
          (do
            if ← PgHaDaemon.authenticated (cfg giver.other) req then
              PgHaDaemon.dispatchPeer (cfg giver.other) (some (.str cmdSwitchoverRequest))
            else
              Mgr.host (.sendReply [("error", "auth_failed")])) (fun _ => Clear n) (Clear n) := by
        apply Prog.Triple.after_keeps during_monotone
          (keeps_of_quiet (authenticated_quiet _ _) stable_asked_clear) _ fun _ h => h.2
        intro known
        apply Prog.Triple.ite
        · exact fun _ => handleSwitchoverRequest_triple
        · intro _
          exact refuse_triple.conseq during_monotone (fun _ => id) (fun _ _ h => h.2) fun _ h => h.2
      rintro s ⟨hs, hcmd⟩
      obtain rfl : cmd = some (.str cmdSwitchoverRequest) := hcmd
      exact hdispatch s hs

end Handler

/-! ## The giver -/

section Giver

/-- The giver's sequence goes on, and nobody has accepted yet. -/
structure Unanswered (s : World) : Prop where
  deaf : s.listening = false
  running : s.ended = false
  unheard : ¬ Acknowledged s

/-- The giver has given up its disk, and nobody has accepted yet. -/
structure Released (cfg : Site → Config) (giver : Site) (s : World) : Prop
    extends Unanswered s where
  holder : s.holder ≠ some (cfg giver).cluster.nodeName

/-- The wait for the reply has ended, and by then somebody has accepted or nobody does. -/
def Heard (accepted : Bool) (s : World) : Prop :=
  s.listening = false ∧ (Acknowledged s ↔ accepted = true)

theorem Unanswered.settled {s : World} (h : Unanswered s) : Settled giver s :=
  ⟨h.deaf, fun hack => absurd hack h.unheard⟩

theorem Heard.settled {s : World} (h : Heard false s) : Settled giver s :=
  ⟨h.1, fun hack => absurd (h.2.mp hack) (by simp)⟩

theorem stable_true : Stable cfg giver i fun _ => True := fun _ _ _ _ _ => trivial

theorem stable_unanswered : Stable cfg giver .giver Unanswered := by
  intro s s' hs hrely _
  have hown : LeavesGiver cfg giver s s' := hrely.own
  exact ⟨hown.listening.trans hs.deaf, hown.ended.trans hs.running,
    fun hack => hs.unheard (hown.unheard hs.deaf hack)⟩

theorem stable_released : Stable cfg giver .giver (Released cfg giver) :=
  fun s s' hs hrely hinv => ⟨stable_unanswered s s' hs.toUnanswered hrely hinv,
    hrely.own.holder hs.holder⟩

theorem stable_heard (accepted : Bool) : Stable cfg giver .giver (Heard accepted) := by
  intro s s' hs hrely hinv
  have hown : LeavesGiver cfg giver s s' := hrely.own
  refine ⟨hown.listening.trans hs.1, fun hack => hs.2.mp (hown.unheard hs.1 hack), fun h => ?_⟩
  exact stable_acknowledged s s' (hs.2.mpr h) hrely hinv

theorem stable_settled : Stable cfg giver .giver (Settled giver) := by
  intro s s' hs hrely _
  have hown : LeavesGiver cfg giver s s' := hrely.own
  refine ⟨hown.listening.trans hs.deaf, fun hack => ?_⟩
  rw [hown.role]
  exact hs.demoted (hown.unheard hs.deaf hack)

/-- What a part of the giver's sequence reaches when it returns; it never raises but where the
giver is settled. -/
abbrev Reaches (cfg : Site → Config) (giver : Site) {α : Type} (P : World → Prop)
    (program : Mgr α) (Q : α → World → Prop) : Prop :=
  Prog.Triple (during cfg giver .giver) P program Q (Settled giver)

theorem reaches_of_quiet {α : Type} {program : Mgr α} (hcalls : program.Calls quiet)
    {P : World → Prop} (hP : Stable cfg giver .giver P) (hsettled : ∀ s, P s → Settled giver s) :
    Reaches cfg giver P program fun _ => P :=
  (keeps_of_quiet hcalls hP).conseq during_monotone (fun _ => id) (fun _ _ => id) hsettled

theorem quiet_of_calls_minor {α : Type} {program : Mgr α} (hcalls : program.Calls Call.minor) :
    program.Calls quiet :=
  hcalls.mono fun _ => quiet_of_minor

theorem detachDisk_reaches :
    Reaches cfg giver Unanswered (Mgr.disk .detachDisk) fun _ => Released cfg giver := by
  refine Contract.triple_of_step (C := handOffContract cfg giver) stable_unanswered ?_ ?_
  · rintro j s answer s' child ⟨-, _, _, h, -⟩
    cases h
  · rintro s hs hinv answer s' ⟨-, rfl, rfl⟩
    have hfree : (s.detach (cfg giver).cluster.nodeName).holder ≠
        some (cfg giver).cluster.nodeName := by
      simp only [World.detach]
      split
      · simp
      · assumption
    refine ⟨⟨hinv.request, hinv.reply, hinv.stage, fun _ => hfree, hinv.demoted,
      fun h => (hinv.settled h).of_same rfl rfl rfl, hinv.taker⟩, ?_,
      ⟨hs.deaf, hs.running, hs.unheard⟩, hfree⟩
    intro j _
    refine ⟨id, fun _ => id, id, ?_⟩
    cases j with
    | giver => exact ⟨rfl, rfl, rfl, fun _ => id, fun _ => hfree⟩
    | handler m => exact rfl
    | promoter m => exact id

/-- The giver listens from when it has sent its request; when that raises it does not, though the
request may be out. -/
theorem sendRequest_reaches (token : Option String) : Reaches cfg giver (Released cfg giver)
    (Mgr.host (.sendRequest ⟨cmdSwitchoverRequest, token⟩)) fun _ _ => True := by
  refine Contract.triple_of_step (C := handOffContract cfg giver) stable_released ?_ ?_
  · rintro j s answer s' child ⟨-, _, _, h, -⟩
    cases h
  · rintro s hs hinv answer s' ⟨-, hstep⟩
    -- either the request is out, and the giver listens only if `sendall` has returned, or
    -- nothing has happened
    rcases hstep with rfl | ⟨⟨exc, rfl⟩, rfl⟩
    · refine ⟨⟨?_, hinv.reply, fun _ _ => rfl, fun _ => hs.holder, hinv.demoted, ?_, hinv.taker⟩,
        ?_, ?_⟩
      · intro request hrequest
        obtain rfl := Option.some.inj hrequest
        exact ⟨rfl, rfl⟩
      · intro hended
        have hended : s.ended = true := hended
        rw [hs.running] at hended
        cases hended
      · intro j _
        refine ⟨fun _ => rfl, fun _ => id, id, ?_⟩
        cases j with
        | giver => contradiction
        | handler m => exact rfl
        | promoter m => exact id
      · cases answer with
        | ok _ => trivial
        | error exc => exact ⟨rfl, fun hack => absurd hack hs.unheard⟩
    · exact ⟨hinv, fun j _ => (quiet_refl _).relies j, hs.settled⟩

/-- The reply says whether anybody has accepted: what the giver reads has been sent, and what has
been sent it reads. -/
theorem recvReply_reaches : Reaches cfg giver (fun _ => True) (Mgr.host .recvReply)
    fun resp => Heard (isAcceptance resp.value) := by
  refine Contract.triple_of_step (C := handOffContract cfg giver) stable_true ?_ ?_
  · rintro j s answer s' child ⟨-, _, _, h, -⟩
    cases h
  · rintro s - hinv answer s' ⟨horder, hstep⟩
    -- the end of the wait concerns nobody but the giver
    have hothers (s' : World) (hnode : s'.node = s.node) (hholder : s'.holder = s.holder)
        (hrequested : s'.requested = s.requested) (hstage : s'.stage = s.stage) (j : Slot)
        (hj : j ≠ .giver) : Relies cfg giver j s s' := by
      refine ⟨by simp [hrequested], by simp [hstage], by simp [World.role, hnode], ?_⟩
      cases j with
      | giver => contradiction
      | handler m => exact congrFun hstage m
      | promoter m => simp [Own, hstage]
    rcases hstep with ⟨fields, text, hreply, rfl, rfl⟩ | ⟨⟨exc, rfl⟩, rfl⟩
    · refine ⟨⟨hinv.request, by simp, hinv.stage, hinv.holder, hinv.demoted,
        fun h => ⟨rfl, (hinv.settled h).demoted⟩, hinv.taker⟩,
        hothers _ rfl rfl rfl rfl, rfl, fun hack => ?_, hinv.reply fields hreply⟩
      -- if somebody has accepted, then what is read is the acceptance
      obtain ⟨resp, hresp, haccepts⟩ := horder hack
      cases hresp
      exact haccepts
    · refine ⟨⟨hinv.request, hinv.reply, hinv.stage, hinv.holder, hinv.demoted,
        fun h => ⟨rfl, (hinv.settled h).demoted⟩, hinv.taker⟩,
        hothers _ rfl rfl rfl rfl, rfl, fun hack => ?_⟩
      -- a wait that fails is one during which nobody has accepted
      obtain ⟨resp, hresp, -⟩ := horder hack
      cases hresp

theorem stepSignalPeer_reaches : Reaches cfg giver (Released cfg giver)
    (stepSignalPeer (cfg giver)) fun _ => Heard true := by
  have hconnect : (Mgr.host (.createConnection (cfg giver).cluster.peerIp
      (cfg giver).cluster.peerPort mgmtTimeoutMillis)).Calls quiet :=
    Prog.Calls.perform trivial
  apply (reaches_of_quiet hconnect stable_released fun _ h => h.settled).bind during_monotone
  intro _
  apply (sendRequest_reaches _).bind during_monotone
  intro _
  apply recvReply_reaches.bind during_monotone
  intro resp s hs
  rw [Prog.bind_eq, Prog.wp_bind, Prog.wp_ofExcept]
  -- the step goes on exactly when the reply is an acceptance, and raises otherwise
  cases hcmd : jsonGet resp.value "cmd" with
  | error exc =>
      have hrefuses : isAcceptance resp.value = false := by rw [isAcceptance, hcmd]
      rw [hrefuses] at hs
      exact hs.settled
  | ok cmd =>
      have haccepts : isAcceptance resp.value = isText cmd cmdSwitchoverAccept := by
        rw [isAcceptance, hcmd]
      rw [haccepts] at hs
      rw [Prog.answered_ok, Prog.andThen_returned, Prog.wp_ite]
      split_ifs with htext
      · rwa [htext] at hs
      · rw [Bool.eq_false_iff.mpr htext] at hs
        exact hs.settled

/-- The giver gives up its role once the peer has accepted. -/
theorem setRole_reaches : Reaches cfg giver (Heard true) (Mgr.host (.setRole .standby))
    fun _ => Settled giver := by
  refine Contract.triple_of_step (C := handOffContract cfg giver) (stable_heard true) ?_ ?_
  · rintro j s answer s' child ⟨-, _, _, h, -⟩
    cases h
  · rintro s hs hinv answer s' ⟨-, hanswer, rfl⟩
    obtain rfl : answer = .ok () := hanswer
    have hgiver : (s.after giver (.setRole .standby)).role giver ≠ .primary := by
      simp [World.role, World.after]
    have htaker : (s.after giver (.setRole .standby)).role giver.other = s.role giver.other := by
      simp [World.role, World.after, Function.update_of_ne giver.other_ne]
    have hsettled : Settled giver (s.after giver (.setRole .standby)) := ⟨hs.1, fun _ => hgiver⟩
    refine ⟨⟨hinv.request, hinv.reply, hinv.stage, hinv.holder, fun _ => hs.2.mpr rfl,
      fun _ => hsettled, ?_⟩, ?_, hsettled⟩
    -- the role of the taker stays, and the giver has none that could be in its way
    · exact hinv.taker.imp htaker.trans fun h => ⟨htaker.trans h.1, hgiver⟩
    · intro j hj
      refine ⟨id, fun _ => id, htaker.trans, ?_⟩
      cases j with
      | giver => exact absurd rfl hj
      | handler m => exact rfl
      | promoter m => exact id

/-- One pass of the loop of `execute_as_primary`.  However its step ends, so does the loop where
the giver is settled. -/
theorem runPrimarySteps_cons {P P' : World → Prop} {name : StepName} {step : Mgr Unit}
    {rest : List (StepName × Mgr Unit)} (hP : Stable cfg giver .giver P)
    (hstep : Reaches cfg giver P step fun _ => P')
    (hrest : Reaches cfg giver P' (runPrimarySteps (cfg giver) rest) fun _ => Settled giver) :
    Reaches cfg giver P (runPrimarySteps (cfg giver) ((name, step) :: rest)) fun _ =>
      Settled giver := by
  have hmark : Returns cfg giver .giver P (Mgr.host (.mark (.step name))) fun _ => P :=
    returns_of_quiet (.host (.mark (.step name))) trivial hP fun _ _ _ hstep => ⟨(), hstep.1⟩
  have hmark : Reaches cfg giver P (Mgr.host (.mark (.step name))) fun _ => P :=
    hmark.conseq during_monotone (fun _ => id) (fun _ _ => id) fun _ => False.elim
  apply hmark.bind during_monotone
  intro _
  apply (hstep.attempt during_monotone).bind during_monotone
  intro result
  cases result with
  | ok _ => exact hrest
  | error exc =>
      apply reaches_of_quiet _ stable_settled fun _ => id
      exact .bind (quiet_of_calls_minor (emit_minor _ _ _)) fun _ => trivial

/-- Until it asks, the giver is settled because nobody has accepted; after the reply, because
nobody has or because DEMOTE follows. -/
theorem primarySteps_reaches : Reaches cfg giver Unanswered
    (runPrimarySteps (cfg giver) (primarySteps (cfg giver))) fun _ => Settled giver := by
  have hquiet {step : Mgr Unit} (hcalls : step.Calls quiet) :
      Reaches cfg giver Unanswered step fun _ => Unanswered :=
    reaches_of_quiet hcalls stable_unanswered fun _ h => h.settled
  -- up to UMOUNT nothing is sent, and the disk stays
  have hpreCheck : (stepPreCheck (cfg giver)).Calls quiet :=
    .perform_bind trivial fun now => quiet_of_calls_minor (pollPeer_minor _ _ _)
  have hvip : (stepReleaseVip (cfg giver)).Calls quiet :=
    .perform_bind trivial fun _ => quiet_of_calls_minor (emit_minor _ _ _)
  have hstop : stepStopPostgres.Calls quiet :=
    .perform_bind trivial fun _ => Prog.Calls.perform trivial
  have humount : stepUmount.Calls quiet := Prog.Calls.perform trivial
  have hdetach : Reaches cfg giver Unanswered (stepDetachDisk (cfg giver))
      fun _ => Released cfg giver := by
    apply detachDisk_reaches.bind during_monotone
    intro _
    apply reaches_of_quiet _ stable_released fun _ h => h.settled
    exact .perform_bind trivial fun _ => quiet_of_calls_minor (emit_minor _ _ _)
  have hdemote : Reaches cfg giver (Heard true) (stepDemote (cfg giver)) fun _ =>
      Settled giver := by
    apply setRole_reaches.bind during_monotone
    intro _
    apply reaches_of_quiet _ stable_settled fun _ => id
    exact .perform_bind trivial fun _ => quiet_of_calls_minor (emit_minor _ _ _)
  -- from step to step: nobody asked, disk detached, answer heard, settled
  apply runPrimarySteps_cons stable_unanswered (hquiet hpreCheck)
  apply runPrimarySteps_cons stable_unanswered (hquiet hvip)
  apply runPrimarySteps_cons stable_unanswered (hquiet hstop)
  apply runPrimarySteps_cons stable_unanswered (hquiet humount)
  apply runPrimarySteps_cons stable_unanswered hdetach
  apply runPrimarySteps_cons stable_released stepSignalPeer_reaches
  apply runPrimarySteps_cons (stable_heard true) hdemote
  exact .pure fun _ => id

/-- A sequence that ends settled may be recorded to have ended. -/
theorem leave_reaches : Prog.Triple (during cfg giver .giver) (Settled giver)
    (Mgr.host (.mark (.leave .asPrimary))) (fun _ _ => True) fun _ => True := by
  refine Contract.triple_of_step (C := handOffContract cfg giver) stable_settled ?_ ?_
  · rintro j s answer s' child ⟨-, _, _, h, -⟩
    cases h
  · rintro s hs hinv answer s' ⟨-, rfl, rfl⟩
    have hrole (site : Site) :
        (s.after giver (.mark (.leave .asPrimary))).role site = s.role site :=
      (quiet_after s giver (by simp)).role site
    refine ⟨⟨hinv.request, hinv.reply, hinv.stage, hinv.holder, ?_, ?_, ?_⟩, ?_, trivial⟩
    · exact fun h => hinv.demoted (hrole giver ▸ h)
    · exact fun _ => hs.of_same rfl rfl (hrole giver)
    · exact hinv.taker.imp (hrole giver.other).trans fun h =>
        ⟨(hrole giver.other).trans h.1, fun hgiver => h.2 ((hrole giver).symm.trans hgiver)⟩
    · intro j hj
      refine ⟨id, fun _ => id, (hrole giver.other).trans, ?_⟩
      cases j with
      | giver => exact absurd rfl hj
      | handler m => exact rfl
      | promoter m => exact id

theorem executeAsPrimary_ends : Prog.Triple (during cfg giver .giver) Unanswered
    (executeAsPrimary (cfg giver)) (fun _ _ => True) fun _ => True := by
  have hemit {P : World → Prop} (hP : Stable cfg giver .giver P)
      (hsettled : ∀ s, P s → Settled giver s) (eventType : HaEventType) (message : String) :
      Reaches cfg giver P (emit (cfg giver) eventType message) fun _ => P :=
    reaches_of_quiet (quiet_of_calls_minor (emit_minor _ _ _)) hP hsettled
  have hdrop {α : Type} {P : World → Prop} {program : Mgr α} {Q : α → World → Prop}
      (h : Reaches cfg giver P program Q) :
      Prog.Triple (during cfg giver .giver) P program Q fun _ => True :=
    h.conseq during_monotone (fun _ => id) (fun _ _ => id) fun _ _ => trivial
  have hprimary : Reaches cfg giver Unanswered LocalNode.isPrimary fun _ => Unanswered :=
    reaches_of_quiet (quiet_of_calls_minor LocalNode.isPrimary_minor) stable_unanswered
      fun _ h => h.settled
  have hquiet : (Mgr.host (.mark (.enter .asPrimary))).Calls quiet := Prog.Calls.perform trivial
  have henter : Reaches cfg giver Unanswered (Mgr.host (.mark (.enter .asPrimary))) fun _ =>
      Unanswered :=
    reaches_of_quiet hquiet stable_unanswered fun _ h => h.settled
  apply (hdrop hprimary).bind during_monotone
  intro primary
  apply Prog.Triple.ite
  · exact fun _ => .pure fun _ _ => trivial
  · intro _
    -- the `finally` runs however the steps end, and finds the giver settled
    refine Prog.Triple.bind during_monotone (hdrop henter) fun _ =>
      Prog.Triple.ensuring during_monotone ?_ leave_reaches
    apply (hemit stable_unanswered (fun _ h => h.settled) _ _).bind during_monotone
    intro _
    apply primarySteps_reaches.bind during_monotone
    intro succeeded
    apply Prog.Triple.ite
    · intro _
      exact (hemit stable_settled (fun _ => id) _ _).bind during_monotone fun _ =>
        .pure fun _ => id
    · exact fun _ => .pure fun _ => id

theorem runSwitchover_ends : Prog.Triple (during cfg giver .giver) Unanswered
    (PgHaDaemon.runSwitchover (cfg giver)) (fun _ _ => True) fun _ => True := by
  have hquiet {α : Type} {program : Mgr α} (hcalls : program.Calls quiet) {P : World → Prop}
      (hP : Stable cfg giver .giver P) :
      Prog.Triple (during cfg giver .giver) P program (fun _ => P) fun _ => True :=
    (keeps_of_quiet hcalls hP).conseq during_monotone (fun _ => id) (fun _ _ => id)
      fun _ _ => trivial
  have hcall (op : Call) (hop : quiet op) {P : World → Prop} (hP : Stable cfg giver .giver P) :
      Prog.Triple (during cfg giver .giver) P (Prog.perform op) (fun _ => P) fun _ => True :=
    hquiet (Prog.Calls.perform hop) hP
  apply (hcall (.host (.setSwitchoverActive true)) trivial stable_unanswered).bind during_monotone
  intro _
  apply (hcall (.host (.pgMonSetActive false)) trivial stable_unanswered).bind during_monotone
  intro _
  apply (hquiet (quiet_of_calls_minor (PgHaDaemon.efmStop_minor _)) stable_unanswered).bind
    during_monotone
  intro _
  -- nothing is asked of the bookkeeping that follows the sequence
  apply Prog.Triple.ensuring during_monotone
  · exact executeAsPrimary_ends.bind during_monotone fun _ => .pure fun _ => id
  · apply (hcall (.host .time) trivial stable_true).bind during_monotone
    intro now
    apply (hcall (.host (.setLastDemotionTs now)) trivial stable_true).bind during_monotone
    exact fun _ => hcall (.host (.setSwitchoverActive false)) trivial stable_true

end Giver

/-! ## Both nodes -/

theorem handOffContract_holds (hcfg : Mirrored cfg) : (handOffContract cfg giver).Holds where
  start i program s _ hstart := by
    cases i with
    | giver => exact hstart.elim
    -- a handler that has accepted has started the promotion before it ends
    | handler n =>
        obtain ⟨rfl, hclear⟩ := hstart
        apply Prog.wp_mono during_monotone _ (handlePeerConn_triple s hclear)
        intro outcome s' hend hended
        cases outcome with
        | stuck => exact absurd rfl hended
        | _ => exact hend
    -- a promotion that ends, in whatever way, has made the peer PRIMARY
    | promoter n =>
        obtain ⟨rfl, hasked⟩ := hstart
        apply Prog.wp_mono during_monotone _ (runSwitchoverAsStandby_promotes hcfg s hasked)
        intro outcome s' hend hended
        cases outcome with
        | stuck => exact absurd rfl hended
        | _ => exact fun _ => hend
  arrive i s program s' hinv harrive hpost := by
    obtain ⟨⟨n, rfl⟩, rfl, rfl⟩ := harrive
    obtain ⟨outcome, hended, hdone⟩ := hpost
    exact ⟨hinv, fun j _ => (quiet_refl _).relies j, rfl, hdone hended⟩
  env s s' hinv henv := ⟨henv.consistent hinv, fun i => henv.relies i⟩

theorem sound_of_start {start : Threads Slot Call.Ret Exc Unit World} (h : Start cfg giver start) :
    (handOffContract cfg giver).Sound start := by
  have hidle (n : ℕ) : ¬ start.shared.stage n ≠ .idle := not_not.mpr (h.stage n)
  have hunheard : ¬ Acknowledged start.shared := fun ⟨n, hn⟩ => hidle n hn
  -- nothing is on its way, and nobody has accepted
  refine ⟨⟨?_, ?_, fun n hn => absurd hn (hidle n), ?_, ?_, ?_, .inl h.takerRole⟩, ?_⟩
  · simp [h.request]
  · simp [h.reply]
  · simp [h.requested]
  · exact fun hdemoted => absurd h.giverRole hdemoted
  · simp [h.ended]
  · intro i
    cases i with
    | giver =>
        rw [Contract.Safe, h.program]
        have hstart : Unanswered start.shared := ⟨h.listening, h.ended, hunheard⟩
        apply Prog.wp_mono during_monotone _ (runSwitchover_ends start.shared hstart)
        exact fun _ _ _ _ => trivial
    -- the other threads have not been started
    | handler n =>
        rw [Contract.Safe, h.handlers n]
        intro _ hpromised
        rw [h.stage n] at hpromised
        cases hpromised
    | promoter n =>
        rw [Contract.Safe, h.promoters n]
        intro _ hstarted
        rw [h.stage n] at hstarted
        cases hstarted

/-- **Ordered hand-off.**  If an acceptance meets a giver that waits for it and reads it, and the
promotion waits for the end of the giver's sequence, then at most one node is PRIMARY in every
state, whatever becomes of the request; and exactly one is when all threads have ended. -/
theorem one_primary (hcfg : Mirrored cfg) {start state : Threads Slot Call.Ret Exc Unit World}
    (hstart : Start cfg giver start)
    (hrun : ((handOffSystem cfg giver).restrict inOrder).Reach start state) :
    ¬ (state.shared.role giver = .primary ∧ state.shared.role giver.other = .primary) ∧
    ((∀ i, (state.prog i).Finished) → ∃! site, state.shared.role site = .primary) := by
  have hsound := (handOffContract_holds hcfg).reach hrun (sound_of_start hstart)
  have hinv : Consistent cfg giver state.shared := hsound.1
  have hone :
      ¬ (state.shared.role giver = .primary ∧ state.shared.role giver.other = .primary) := by
    -- the taker is STANDBY, or PRIMARY while the giver is not
    rintro ⟨hgiver, htaker⟩
    rcases hinv.taker with hstandby | ⟨-, hnot⟩
    · rw [htaker] at hstandby
      cases hstandby
    · exact hnot hgiver
  refine ⟨hone, fun hended => ?_⟩
  have hdone (i : Slot) : Done giver state.shared i := by
    obtain ⟨outcome, houtcome, hpost⟩ := (hsound.2 i).of_finished (hended i)
    exact hpost houtcome
  by_cases hgiver : state.shared.role giver = .primary
  -- the giver still has its role, so the peer has not taken it
  · refine ⟨giver, hgiver, fun site hsite => ?_⟩
    by_contra hne
    obtain rfl : site = giver.other := Site.eq_other hne
    exact hone ⟨hgiver, hsite⟩
  · -- somebody has accepted, has started a promotion, and that has ended
    obtain ⟨n, hn⟩ := hinv.demoted hgiver
    have hstarted : state.shared.stage n = .started := by
      have hclear : state.shared.stage n ≠ .promised := hdone (.handler n)
      cases hstage : state.shared.stage n with
      | idle => exact absurd hstage hn
      | promised => exact absurd hstage hclear
      | started => rfl
    have htaker : state.shared.role giver.other = .primary := hdone (.promoter n) hstarted
    refine ⟨giver.other, htaker, fun site hsite => ?_⟩
    apply Site.eq_other
    rintro rfl
    exact hgiver hsite

/-! ## Sample runs -/

/-- Operations that succeed; a message is received when it is there. -/
def obey (cfg : Site → Config) (giver : Site) (i : Slot) :
    (op : Call) → World → Except Exc op.Ret × World
  | .disk .currentRwHolder, s => (.ok s.holder, s)
  | .disk .attachDiskRw, s =>
      (.ok (), { s with holder := some (cfg (i.site giver)).cluster.nodeName })
  | .disk .detachDisk, s => (.ok (), s.detach (cfg (i.site giver)).cluster.nodeName)
  | .disk .forceDetachFromPeer, s => (.ok (), s.detach (cfg (i.site giver)).cluster.peerNode)
  | .disk (.getInstanceStatus ..), s => (.ok "RUNNING", s)
  | .disk .mountDisk, s | .disk .unmountDisk, s | .disk .startPostgres, s
  | .disk (.stopPostgres _), s | .net .acquireVip, s | .net .releaseVip, s => (.ok (), s)
  | .host (.sendRequest request), s =>
      (.ok (), { s with requested := true, request := some request, listening := true })
  | .host .recvCommand, s =>
      match s.request with
      | some request => (.ok (requestJson request), { s with request := none })
      | none => (.error ⟨.osError, "timed out"⟩, s)
  | .host (.sendReply fields), s =>
      (.ok (), { s with reply := some fields, stage := stageAfter i fields s.stage })
  | .host .recvReply, s =>
      match s.reply with
      | some fields => (.ok ⟨replyJson fields, ""⟩, { s with reply := none, listening := false })
      | none => (.error ⟨.osError, "timed out"⟩, { s with listening := false })
  | .host (.mark (.leave .asPrimary)), s =>
      (.ok (), { s.after (i.site giver) (.mark (.leave .asPrimary)) with ended := true })
  | .host call, s => ((s.node (i.site giver)).reply call, s.after (i.site giver) call)

/-- Stop before a thread is started, and where nothing can be said of the
failover lock. -/
def beforeStart : Call → World → Bool
  | .host (.startThread _), _ | .host (.acquireFailoverLock _), _ => true
  | _, _ => false

theorem handOffStep_obey (i : Slot) (s : World) (op : Call) (hop : beforeStart op s = false) :
    handOffStep cfg giver i s ⟨op, (obey cfg giver i op s).1⟩ (obey cfg giver i op s).2 := by
  cases op with
  | disk call => cases call <;> first | exact ⟨rfl, rfl⟩ | exact ⟨⟨_, rfl⟩, rfl⟩
  | net call => cases call <;> exact ⟨rfl, rfl⟩
  | host call =>
      cases call
      case startThread => cases hop
      case acquireFailoverLock => cases hop
      case sendRequest request => exact .inl rfl
      case sendReply fields => exact .inl ⟨rfl, rfl⟩
      -- a message is received when it is there
      case recvCommand =>
        cases hrequest : s.request with
        | none =>
            have hobey : obey cfg giver i (.host .recvCommand) s =
                (.error ⟨.osError, "timed out"⟩, s) := by simp only [obey, hrequest]
            rw [hobey]
            exact .inr ⟨⟨_, rfl⟩, rfl⟩
        | some request =>
            have hobey : obey cfg giver i (.host .recvCommand) s =
                (.ok (requestJson request), { s with request := none }) := by
              simp only [obey, hrequest]
            rw [hobey]
            exact .inl ⟨request, hrequest, rfl, rfl⟩
      case recvReply =>
        cases hreply : s.reply with
        | none =>
            have hobey : obey cfg giver i (.host .recvReply) s =
                (.error ⟨.osError, "timed out"⟩, { s with listening := false }) := by
              simp only [obey, hreply]
            rw [hobey]
            exact .inr ⟨⟨_, rfl⟩, rfl⟩
        | some fields =>
            have hobey : obey cfg giver i (.host .recvReply) s =
                (.ok ⟨replyJson fields, ""⟩, { s with reply := none, listening := false }) := by
              simp only [obey, hreply]
            rw [hobey]
            exact .inl ⟨fields, "", hreply, rfl, rfl⟩
      case mark mark =>
        rcases mark with (_ | _ | _ | _) | (_ | _ | _ | _) | _
        all_goals exact ⟨rfl, rfl⟩
      all_goals exact ⟨DaemonState.answers_reply _ _ (by simp), rfl⟩

section Sample

abbrev Sample : Type := Threads Slot Call.Ret Exc Unit World

def sampleStart : Sample where
  shared :=
    { node := fun site => ⟨{ name := "", role := if site = .primary then .primary else .standby },
        0, 0, "UNKNOWN", false, false, 0⟩
      holder := some "pg-primary"
      request := none
      reply := none
      requested := false
      listening := false
      ended := false
      stage := fun _ => .idle }
  prog
    | .giver => PgHaDaemon.runSwitchover .samplePrimary
    | _ => .pure ()

theorem start_sampleStart : Start sampleSites .primary sampleStart :=
  ⟨rfl, rfl, rfl, rfl, rfl, rfl, rfl, fun _ => rfl, rfl, fun _ => rfl, fun _ => rfl⟩

/-- Let a thread run, but not past the place where it waits for its peer. -/
def waits : Call → World → Bool
  | .host .recvReply, s => !s.reply.any accepts
  | .host (.sendReply _), s => !s.listening
  | .host (.setRole .primary), s => !s.ended
  | op, s => beforeStart op s

theorem beforeStart_of_waits {op : Call} {s : World} (h : waits op s = false) :
    beforeStart op s = false := by
  unfold waits at h
  split at h <;> first | rfl | exact h

/-- The giver waits for the reply. -/
def asked : Sample :=
  sampleStart.advance (obey sampleSites .primary .giver) waits .giver 100

/-- The peer has accepted, and is about to start the promotion. -/
def accepted : Sample :=
  (asked.arrived (.handler 0) asked.shared (PgHaDaemon.handlePeerConn .sampleStandby)).advance
    (obey sampleSites .primary (.handler 0)) waits (.handler 0) 100

def promoting : Sample :=
  accepted.forked (.handler 0) (.promoter 0) (.host (.startThread .runSwitchoverAsStandby)) (.ok ())
    { accepted.shared with stage := Function.update accepted.shared.stage 0 .started }
    (PgHaDaemon.runSwitchoverAsStandby .sampleStandby)

/-- The giver reads the acceptance first, and then the peer promotes itself. -/
def handedOver : Sample :=
  (promoting.advance (obey sampleSites .primary .giver) waits .giver 100).advance
    (obey sampleSites .primary (.promoter 0)) waits (.promoter 0) 100

section Reached

variable {allowed : Slot → World → Event Call.Ret Exc → Prop}
  (hallowed : ∀ i s op, waits op s = false →
    allowed i s ⟨op, (obey sampleSites .primary i op s).1⟩)
include hallowed

theorem step_obey (i : Slot) (s : World) (op : Call) (hop : waits op s = false) :
    ((handOffSystem sampleSites .primary).restrict allowed).step i s
      ⟨op, (obey sampleSites .primary i op s).1⟩ (obey sampleSites .primary i op s).2 :=
  ⟨hallowed i s op hop, handOffStep_obey i s op (beforeStart_of_waits hop)⟩

/-- What the sample runs have in common. -/
theorem reach_promoting
    (hstart : ∀ i s answer, allowed i s ⟨.host (.startThread .runSwitchoverAsStandby), answer⟩) :
    ((handOffSystem sampleSites .primary).restrict allowed).Reach sampleStart promoting := by
  have hasked : ((handOffSystem sampleSites .primary).restrict allowed).Reach sampleStart asked :=
    System.Reach.advance .refl (step_obey hallowed .giver) 100
  have haccepted : ((handOffSystem sampleSites .primary).restrict allowed).Reach sampleStart
      accepted := by
    apply System.Reach.advance _ (step_obey hallowed (.handler 0)) 100
    exact hasked.arrive ⟨⟨0, rfl⟩, rfl, rfl⟩ trivial
  have hidle : (accepted.prog (.promoter 0)).Finished := trivial
  apply haccepted.fork (by decide) _ (by decide) hidle
  exact ⟨hstart _ _ _, 0, .runSwitchoverAsStandby, rfl, rfl, rfl, rfl, rfl⟩

end Reached

theorem inOrder_of_waits (i : Slot) (s : World) (op : Call) (hop : waits op s = false) :
    inOrder i s ⟨op, (obey sampleSites .primary i op s).1⟩ := by
  unfold inOrder
  split
  -- an acceptance is sent to a giver that listens
  next fields answer hevent =>
    obtain ⟨rfl, -⟩ := Event.mk.inj hevent
    intro _
    simpa [waits] using hop
  -- a giver that somebody has accepted reads the acceptance
  next answer hevent =>
    obtain ⟨rfl, hanswer⟩ := Event.mk.inj hevent
    intro _
    cases hreply : s.reply with
    | none => simp [waits, hreply] at hop
    | some fields =>
        have haccepts : accepts fields = true := by simpa [waits, hreply] using hop
        refine ⟨⟨replyJson fields, ""⟩, ?_, haccepts⟩
        rw [← eq_of_heq hanswer]
        simp only [obey, hreply]
  -- the promotion waits for the end of the giver's sequence
  next answer hevent =>
    obtain ⟨rfl, -⟩ := Event.mk.inj hevent
    simpa [waits] using hop
  next => trivial

theorem reach_handedOver :
    ((handOffSystem sampleSites .primary).restrict inOrder).Reach sampleStart handedOver := by
  have hpromoting := reach_promoting inOrder_of_waits (by simp [inOrder])
  exact (hpromoting.advance (step_obey inOrder_of_waits .giver) 100).advance
    (step_obey inOrder_of_waits (.promoter 0)) 100

theorem finished_handedOver (i : Slot) : (handedOver.prog i).Finished := by
  have hrest (j : Slot) (hgiver : j ≠ .giver) (hhandler : j ≠ .handler 0)
      (hpromoter : j ≠ .promoter 0) :
      handedOver.prog j = sampleStart.prog j := by
    rw [handedOver, Threads.advance_prog hpromoter, Threads.advance_prog hgiver, promoting,
      Threads.forked_prog hhandler hpromoter, accepted, Threads.advance_prog hhandler,
      Threads.arrived_prog hhandler, asked, Threads.advance_prog hgiver]
  by_cases hgiver : i = .giver
  · subst hgiver
    exact Prog.finished_of_returned () (by decide)
  by_cases hhandler : i = .handler 0
  · subst hhandler
    exact Prog.finished_of_returned () (by decide)
  by_cases hpromoter : i = .promoter 0
  · subst hpromoter
    exact Prog.finished_of_returned () (by decide)
  -- the other threads have never been started
  rw [hrest i hgiver hhandler hpromoter]
  cases i with
  | giver => exact absurd rfl hgiver
  | handler n => trivial
  | promoter n => trivial

theorem one_primary_handedOver : ∃! site, handedOver.shared.role site = .primary :=
  (one_primary mirrored_sampleSites start_sampleStart reach_handedOver).2 finished_handedOver

/-- The peer has promoted itself, and the giver still waits for the reply. -/
def promotedFirst : Sample :=
  promoting.advance (obey sampleSites .primary (.promoter 0)) beforeStart (.promoter 0) 100

/-- The acceptance is lost. -/
def lost : Sample := ⟨{ promotedFirst.shared with reply := none }, promotedFirst.prog⟩

/-- The giver stays PRIMARY. -/
def bothPrimary : Sample :=
  lost.advance (obey sampleSites .primary .giver) beforeStart .giver 100

theorem quiet_lost (s : World) : Quiet s { s with reply := none } :=
  ⟨fun _ => rfl, rfl, fun _ => id, by simp, rfl, rfl, rfl, rfl⟩

theorem reach_bothPrimary :
    (handOffSystem sampleSites .primary).Reach sampleStart bothPrimary := by
  have hpromoting : (handOffSystem sampleSites .primary).Reach sampleStart promoting :=
    System.Reach.unrestrict (fun _ _ _ => True)
      (reach_promoting (fun _ _ _ _ => trivial) fun _ _ _ => trivial)
  have hstep (i : Slot) (s : World) (op : Call) (hop : beforeStart op s = false) :
      (handOffSystem sampleSites .primary).step i s
        ⟨op, (obey sampleSites .primary i op s).1⟩ (obey sampleSites .primary i op s).2 :=
    handOffStep_obey i s op hop
  have hpromoted : (handOffSystem sampleSites .primary).Reach sampleStart promotedFirst :=
    hpromoting.advance (hstep (.promoter 0)) 100
  have hlost : (handOffSystem sampleSites .primary).Reach sampleStart lost :=
    hpromoted.env (quiet_lost promotedFirst.shared)
  exact hlost.advance (hstep .giver) 100

/-- Both nodes are PRIMARY, and the giver's thread has ended. -/
theorem not_one_primary : ¬ ∀ cfg giver, Mirrored cfg → ∀ start state, Start cfg giver start →
    (handOffSystem cfg giver).Reach start state →
      ¬ (state.shared.role giver = .primary ∧ state.shared.role giver.other = .primary) ∧
      ((∀ i, (state.prog i).Finished) → state.shared.request = none → state.shared.reply = none →
        ∃! site, state.shared.role site = .primary) := by
  intro h
  have hone := (h sampleSites .primary mirrored_sampleSites sampleStart bothPrimary
    start_sampleStart reach_bothPrimary).1
  exact hone ⟨by decide, by decide⟩

end Sample

end PgHa.HandOff

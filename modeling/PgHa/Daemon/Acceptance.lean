import PgHa.Ha.HandOff

/-!
# What an accepted switchover comes to

The peer server of the taker accepts a `SWITCHOVER_REQUEST` without looking at
the role, and it already runs while the startup election does.  The role is
looked at in the thread of the promotion, later, and a node that is no STANDBY
does nothing there; the giver has been told by then that it may give up its role.

Here both nodes run side by side, the taker's role is changed by anybody at any
time, and every operation of the managers may have any outcome.  A `Connection`
records what has happened to a request; no operation reads it.
-/

namespace PgHa.Acceptance

open Effect SwitchoverEngine
open HandOff (Slot requestJson replyJson accepts)

variable {giver taker : Config}

/-! ## The system -/

/-- What has happened on a connection of the taker: the role in which its handler has
sent the acceptance, the role that the thread of the promotion has found, and
whether that thread has gone on to the step `ATTACH`. -/
structure Connection where
  opened : Bool := false
  accepted : Option NodeRole := none
  started : Bool := false
  guard : Option NodeRole := none
  began : Bool := false

/-- The taker's role, the messages in flight, and what has happened.  `asker` is the
connection on which the giver's request has arrived, and `readFrom` the one whose
acceptance the giver has read. -/
structure World where
  role : NodeRole
  request : Option PeerRequest
  asker : Option ℕ
  reply : Option (ℕ × List (String × String))
  readFrom : Option ℕ
  connection : ℕ → Connection

namespace World

def onConnection (s : World) (n : ℕ) (f : Connection → Connection) : World :=
  { s with connection := Function.update s.connection n (f (s.connection n)) }

/-- A reply is sent on a connection. -/
def replied (s : World) (n : ℕ) (fields : List (String × String)) : World :=
  let sent := { s with reply := if s.asker = some n then some (n, fields) else s.reply }
  if accepts fields then sent.onConnection n fun c => { c with accepted := some s.role } else sent

end World

/-- The operations of the host, for the giver. -/
def giverStep (s : World) : (call : HostCall) → Except Exc call.Ret → World → Prop
  | .sendRequest request, _, s' => s' = { s with request := some request } ∨ s' = s
  | .recvReply, answer, s' =>
      (∃ n fields text, s.reply = some (n, fields) ∧ answer = .ok ⟨replyJson fields, text⟩ ∧
        s' = { s with reply := none, readFrom := if accepts fields then some n else s.readFrom }) ∨
      (∃ exc, answer = .error exc) ∧ s' = s
  | _, _, s' => s' = s

/-- The operations of the host, for the handler of a connection.  Anybody may connect
and send anything. -/
def handlerStep (n : ℕ) (s : World) : (call : HostCall) → Except Exc call.Ret → World → Prop
  | .recvCommand, answer, s' =>
      (∃ request, s.request = some request ∧ answer = .ok (requestJson request) ∧
        s' = { s with request := none, asker := some n }) ∨ s' = s
  | .sendReply fields, answer, s' =>
      s' = s.replied n fields ∨ (∃ exc, answer = .error exc) ∧ s' = s
  | .startThread _, answer, s' => (∃ exc, answer = .error exc) ∧ s' = s
  | .role, answer, s' => answer = .ok s.role ∧ s' = s
  | .setRole role, _, s' => s' = { s with role := role }
  | _, _, s' => s' = s

/-- The operations of the host, for the thread of a promotion; the role that counts is
the first one it reads, and a log line does not fail. -/
def promoterStep (n : ℕ) (s : World) : (call : HostCall) → Except Exc call.Ret → World → Prop
  | .role, answer, s' =>
      answer = .ok s.role ∧ s' = s.onConnection n fun c =>
        { c with guard := some (c.guard.getD s.role) }
  | .mark (.step .attach), answer, s' =>
      answer = .ok () ∧ s' = s.onConnection n fun c => { c with began := true }
  | .mark _, answer, s' => answer = .ok () ∧ s' = s
  | .setRole role, _, s' => s' = { s with role := role }
  | _, _, s' => s' = s

/-- The managers answer anything. -/
def acceptanceStep (slot : Slot) (s : World) (event : Event Call.Ret Exc) (s' : World) : Prop :=
  match event with
  | ⟨.host call, answer⟩ =>
      match slot with
      | .giver => giverStep s call answer s'
      | .handler n => handlerStep n s call answer s'
      | .promoter n => promoterStep n s call answer s'
  | _ => s' = s

/-- The taker's role is changed by its other threads, and messages are lost. -/
structure Outside (s s' : World) : Prop where
  reply : ∀ message, s'.reply = some message → s.reply = some message
  readFrom : s'.readFrom = s.readFrom
  connection : s'.connection = s.connection

/-- A thread whose value says nothing. -/
def asThread (program : Mgr Unit) : Mgr Bool := program.bind fun _ => .pure true

def acceptanceSystem (taker : Config) : System Slot Call.Ret Exc Bool World where
  step := acceptanceStep
  fork i j s event s' child := ∃ n task, i = .handler n ∧ j = .promoter n ∧
    event = ⟨.host (.startThread task), .ok ()⟩ ∧
    child = asThread (PgHaDaemon.taskBody taker task) ∧
    s' = s.onConnection n fun c => { c with started := true }
  arrive i s program s' := ∃ n, i = .handler n ∧ (s.connection n).opened = false ∧
    program = asThread (PgHaDaemon.handlePeerConn taker) ∧
    s' = s.onConnection n fun c => { c with opened := true }
  env := Outside

/-- The giver starts a switchover; no message has been sent, and the taker is in any role. -/
structure Start (giver : Config) (state : Threads Slot Call.Ret Exc Bool World) : Prop where
  reply : state.shared.reply = none
  readFrom : state.shared.readFrom = none
  connection : ∀ n, state.shared.connection n = {}
  program : state.prog .giver = executeAsPrimary giver
  handlers : ∀ n, state.prog (.handler n) = .pure true
  promoters : ∀ n, state.prog (.promoter n) = .pure true

/-- An acceptance is kept: the node was STANDBY, and the promotion goes past its guard. -/
def Connection.Kept (c : Connection) : Prop := c.accepted = some .standby ∧ c.began = true

/-! ## The contract of the threads -/

/-- What holds throughout. -/
structure Consistent (s : World) : Prop where
  reply : ∀ n fields, s.reply = some (n, fields) → accepts fields = true →
    (s.connection n).accepted ≠ none
  readFrom : ∀ n, s.readFrom = some n → (s.connection n).accepted ≠ none
  unopened : ∀ n, (s.connection n).opened = false → s.connection n = {}

/-- What only one thread changes.  A handler has its connection to itself until it
starts a thread. -/
def Own (s s' : World) : Slot → Prop
  | .giver => s'.readFrom = s.readFrom
  | .handler n => (s.connection n).started = false → s'.connection n = s.connection n
  | .promoter n =>
      (s'.connection n).guard = (s.connection n).guard ∧
      (s'.connection n).began = (s.connection n).began ∧
      ((s.connection n).started = true → (s'.connection n).started = true ∧
        (s'.connection n).accepted = (s.connection n).accepted)

/-- How the other threads may change the state under a thread. -/
structure Relies (i : Slot) (s s' : World) : Prop where
  accepted : ∀ n, (s.connection n).accepted ≠ none → (s'.connection n).accepted ≠ none
  own : Own s s' i

/-- The thread of a promotion has gone on exactly if it has found a STANDBY; for a
thread without an acceptance nothing is said. -/
def Settled (c : Connection) : Prop :=
  (c.began = true ↔ c.guard = some .standby) ∨ c.started = true ∧ c.accepted = none

/-- A thread that has just been started. -/
structure Fresh (c : Connection) : Prop where
  started : c.started = true
  guard : c.guard = none
  began : c.began = false

def acceptanceContract (taker : Config) : Contract (acceptanceSystem taker) where
  inv := Consistent
  rely := Relies
  refl i s := ⟨fun _ => id, by cases i <;> simp [Own]⟩
  trans i s s' s'' h h' := by
    refine ⟨fun n => h'.accepted n ∘ h.accepted n, ?_⟩
    have hown := h.own
    have hown' := h'.own
    cases i with
    | giver => exact hown'.trans hown
    | handler n =>
        intro hstarted
        have hsame : s'.connection n = s.connection n := hown hstarted
        exact (hown' (hsame ▸ hstarted)).trans hsame
    | promoter n =>
        refine ⟨hown'.1.trans hown.1, hown'.2.1.trans hown.2.1, fun hstarted => ?_⟩
        obtain ⟨hstarted', haccepted⟩ := hown.2.2 hstarted
        exact ⟨(hown'.2.2 hstarted').1, (hown'.2.2 hstarted').2.trans haccepted⟩
  start i program s := match i with
    | .giver => False
    | .handler n => program = asThread (PgHaDaemon.handlePeerConn taker) ∧
        s.connection n = { opened := true }
    | .promoter n => ∃ task, program = asThread (PgHaDaemon.taskBody taker task) ∧
        Fresh (s.connection n) ∧
        (task = .runSwitchoverAsStandby ∨ (s.connection n).accepted = none)
  post i outcome s := match i with
    | .giver => outcome = .returned true → s.readFrom ≠ none
    | .handler _ => True
    | .promoter n => outcome ≠ .stuck → Settled (s.connection n)
  stable i outcome s s' hrely _ hpost := by
    have hown := hrely.own
    cases i with
    | giver =>
        intro hout
        have hsame : s'.readFrom = s.readFrom := hown
        rw [hsame]
        exact hpost hout
    | handler n => trivial
    | promoter n =>
        intro hended
        obtain ⟨hguard, hbegan, hstays⟩ := hown
        rcases hpost hended with hsettled | ⟨hstarted, haccepted⟩
        · left
          rw [hbegan, hguard]
          exact hsettled
        · obtain ⟨hstarted', hsame⟩ := hstays hstarted
          exact .inr ⟨hstarted', hsame.trans haccepted⟩

/-- A thread among the others. -/
abbrev among (taker : Config) (i : Slot) : Transformer Call.Ret Exc World :=
  (acceptanceContract taker).thread i

theorem among_monotone {i : Slot} : (among taker i).Monotone :=
  (acceptanceContract taker).thread_monotone i

/-- A step that changes no connection and puts no acceptance in flight. -/
structure Unseen (s s' : World) : Prop where
  reply : ∀ n fields, s'.reply = some (n, fields) → accepts fields = true →
    s.reply = some (n, fields)
  readFrom : s'.readFrom = s.readFrom
  connection : s'.connection = s.connection

theorem unseen_refl (s : World) : Unseen s s := ⟨fun _ _ h _ => h, rfl, rfl⟩

theorem Outside.unseen {s s' : World} (h : Outside s s') : Unseen s s' :=
  ⟨fun _ _ hreply _ => h.reply _ hreply, h.readFrom, h.connection⟩

theorem Unseen.consistent {s s' : World} (h : Unseen s s') (hs : Consistent s) :
    Consistent s' where
  reply n fields hreply haccepts := by
    rw [h.connection]
    exact hs.reply n fields (h.reply n fields hreply haccepts) haccepts
  readFrom n hread := by
    rw [h.connection]
    exact hs.readFrom n (h.readFrom ▸ hread)
  unopened n hopened := by
    rw [h.connection] at hopened ⊢
    exact hs.unopened n hopened

theorem Unseen.relies {s s' : World} (h : Unseen s s') (i : Slot) : Relies i s s' where
  accepted n := by simp [h.connection]
  own := by cases i <;> simp [Own, h.connection, h.readFrom]

variable {i : Slot}

/-- The other threads do not take the assertion away. -/
def Stable (i : Slot) (P : World → Prop) : Prop := ∀ s s', P s → Relies i s s' → P s'

/-- A step that keeps the contract and the assertion. -/
structure Keeping (i : Slot) (P : World → Prop) (s s' : World) : Prop where
  consistent : Consistent s'
  relies : ∀ j, j ≠ i → Relies j s s'
  kept : P s'

/-- The rule for an operation that starts no thread. -/
theorem triple_perform {op : Call} {P : World → Prop} {Q : op.Ret → World → Prop}
    {E : World → Prop} (hP : Stable i P) (hfork : ∀ n task, i = .handler n →
      op ≠ .host (.startThread task))
    (hstep : ∀ s answer s', Consistent s → P s → acceptanceStep i s ⟨op, answer⟩ s' →
      Keeping i (Prog.ending Q E (Prog.answered answer)) s s') :
    Prog.Triple (among taker i) P (Prog.perform op) Q E := by
  have hstable : (acceptanceContract taker).Stable i P := fun s s' hs hrely _ => hP s s' hs hrely
  refine Contract.triple_perform hstable ?_ fun s answer s' hinv hs h => ?_
  · rintro j s answer s' child ⟨n, task, rfl, -, hevent, -⟩
    obtain ⟨hop, -⟩ := Event.mk.inj hevent
    exact hfork n task rfl hop
  · obtain ⟨hinv', hothers, hkept⟩ := hstep s answer s' hinv hs h
    exact ⟨hinv', hothers, hkept⟩

/-- What every operation of a thread keeps, when the thread starts no other. -/
theorem keeps_of_step {α : Type} {P : World → Prop} (hP : Stable i P) {allowed : Call → Prop}
    (hfork : ∀ n task, i = .handler n → ¬ allowed (.host (.startThread task)))
    (hstep : ∀ s event s', allowed event.op → Consistent s → P s → acceptanceStep i s event s' →
      Keeping i P s s') {program : Mgr α} (hcalls : program.Calls allowed) :
    Prog.Keeps (among taker i) P program := by
  have hstable : (acceptanceContract taker).Stable i P := fun s s' hs hrely _ => hP s s' hs hrely
  refine Contract.keeps_of_step hstable ?_ (fun s event s' hop hinv hs h => ?_) hcalls
  · rintro op hop j s answer s' child ⟨n, task, rfl, -, hevent, -⟩
    obtain ⟨rfl, -⟩ := Event.mk.inj hevent
    exact hfork n task rfl hop
  · obtain ⟨hinv', hothers, hkept⟩ := hstep s event s' hop hinv hs h
    exact ⟨hinv', hothers, hkept⟩

section OnConnection

variable {n : ℕ} {f : Connection → Connection} {s : World}

theorem World.connection_onConnection (s : World) (n : ℕ) (f : Connection → Connection) (m : ℕ) :
    (s.onConnection n f).connection m =
      if m = n then f (s.connection n) else s.connection m := by
  by_cases hm : m = n
  · subst hm
    simp [onConnection]
  · simp [onConnection, hm]

theorem accepted_onConnection
    (haccepted : (s.connection n).accepted ≠ none → (f (s.connection n)).accepted ≠ none) (m : ℕ)
    (hm : (s.connection m).accepted ≠ none) :
    ((s.onConnection n f).connection m).accepted ≠ none := by
  rw [World.connection_onConnection]
  split_ifs with hmn
  · exact haccepted (hmn ▸ hm)
  · exact hm

/-- A record on an open connection that forgets no acceptance. -/
theorem Consistent.onConnection (hs : Consistent s) (hopened : (f (s.connection n)).opened = true)
    (haccepted : (s.connection n).accepted ≠ none → (f (s.connection n)).accepted ≠ none) :
    Consistent (s.onConnection n f) where
  reply m fields hreply hfields :=
    accepted_onConnection haccepted m (hs.reply m fields hreply hfields)
  readFrom m hread := accepted_onConnection haccepted m (hs.readFrom m hread)
  unopened m hm := by
    rw [World.connection_onConnection] at hm ⊢
    split_ifs at hm ⊢
    · rw [hopened] at hm
      cases hm
    · exact hs.unopened m hm

/-- The threads of the other connections, and the giver, do not notice. -/
theorem relies_onConnection {j : Slot} (hhandler : j ≠ .handler n) (hpromoter : j ≠ .promoter n)
    (haccepted : (s.connection n).accepted ≠ none → (f (s.connection n)).accepted ≠ none) :
    Relies j s (s.onConnection n f) := by
  refine ⟨accepted_onConnection haccepted, ?_⟩
  cases j with
  | giver => rfl
  | handler m =>
      have hm : m ≠ n := fun h => hhandler (congrArg Slot.handler h)
      intro _
      rw [World.connection_onConnection, if_neg hm]
  | promoter m =>
      have hm : m ≠ n := fun h => hpromoter (congrArg Slot.promoter h)
      rw [Own, World.connection_onConnection, if_neg hm]
      exact ⟨rfl, rfl, fun h => ⟨h, rfl⟩⟩

end OnConnection

/-! ## The giver -/

section Giver

/-- Every operation of the giver but the reading of an acceptance goes unseen. -/
theorem giver_step {s s' : World} {event : Event Call.Ret Exc} (hs : Consistent s)
    (h : acceptanceStep .giver s event s') :
    Keeping .giver (fun s' => s.readFrom ≠ none → s'.readFrom ≠ none) s s' := by
  have hunseen (h : Unseen s s') :
      Keeping .giver (fun s' => s.readFrom ≠ none → s'.readFrom ≠ none) s s' :=
    ⟨h.consistent hs, fun j _ => h.relies j, by simp [h.readFrom]⟩
  obtain ⟨op, answer⟩ := event
  cases op with
  | disk call => exact hunseen (h ▸ unseen_refl s)
  | net call => exact hunseen (h ▸ unseen_refl s)
  | host call =>
      have h : giverStep s call answer s' := h
      unfold giverStep at h
      split at h
      · rcases h with rfl | rfl
        · exact hunseen ⟨fun _ _ h _ => h, rfl, rfl⟩
        · exact hunseen (unseen_refl _)
      · rcases h with ⟨n, fields, text, hreply, -, rfl⟩ | ⟨-, rfl⟩
        · -- a reply is read, and it is an acceptance only if one has been sent
          refine ⟨⟨by simp, ?_, hs.unopened⟩, ?_, ?_⟩
          · intro m hm
            dsimp only at hm
            split_ifs at hm with haccepts
            · obtain rfl := Option.some.inj hm
              exact hs.reply _ fields hreply haccepts
            · exact hs.readFrom m hm
          · intro j hj
            refine ⟨fun _ => id, ?_⟩
            cases j with
            | giver => exact absurd rfl hj
            | handler m => exact fun _ => rfl
            | promoter m => exact ⟨rfl, rfl, fun h => ⟨h, rfl⟩⟩
          · intro hread
            dsimp only
            split_ifs
            · simp
            · exact hread
        · exact hunseen (unseen_refl _)
      · subst h
        exact hunseen (unseen_refl _)

/-- The giver has read an acceptance. -/
def Read (s : World) : Prop := s.readFrom ≠ none

theorem stable_read : Stable .giver Read := by
  intro s s' hs hrely
  have hsame : s'.readFrom = s.readFrom := hrely.own
  rwa [Read, hsame]

theorem stable_true : Stable i fun _ => True := fun _ _ _ _ => trivial

/-- What the giver has read it has read, whatever it does. -/
theorem giver_keeps {α : Type} {P : World → Prop} (hP : Stable .giver P)
    (hread : ∀ s s', (Read s → Read s') → P s → P s') (program : Mgr α) :
    Prog.Keeps (among taker .giver) P program := by
  have hcalls : program.Calls fun _ => True := Prog.calls_of_forall (fun _ => trivial) program
  refine keeps_of_step hP (by simp) (fun s event s' _ hinv hs hstep => ?_) hcalls
  obtain ⟨hinv', hothers, hkept⟩ := giver_step hinv hstep
  exact ⟨hinv', hothers, hread s s' hkept hs⟩

theorem keeps_read {α : Type} (program : Mgr α) : Prog.Keeps (among taker .giver) Read program :=
  giver_keeps stable_read (fun _ _ h => h) program

theorem keeps_true {α : Type} (program : Mgr α) :
    Prog.Keeps (among taker .giver) (fun _ => True) program :=
  giver_keeps stable_true (fun _ _ _ _ => trivial) program

/-- What a part of the giver's thread reaches when it returns. -/
abbrev Reaches (taker : Config) {α : Type} (P : World → Prop) (program : Mgr α)
    (Q : α → World → Prop) : Prop :=
  Prog.Triple (among taker .giver) P program Q fun _ => True

theorem recvReply_reaches : Reaches taker (fun _ => True) (Mgr.host .recvReply)
    fun resp s => ∀ cmd, jsonGet resp.value "cmd" = .ok cmd →
      isText cmd cmdSwitchoverAccept = true → Read s := by
  refine triple_perform stable_true (by simp) fun s answer s' hinv _ hstep => ?_
  obtain ⟨hinv', hothers, -⟩ := giver_step hinv hstep
  refine ⟨hinv', hothers, ?_⟩
  rcases hstep with ⟨n, fields, text, -, rfl, rfl⟩ | ⟨⟨exc, rfl⟩, -⟩
  · intro cmd hcmd htext
    have haccepts : accepts fields = true := by
      rw [accepts, HandOff.isAcceptance, hcmd]
      exact htext
    simp [Read, haccepts]
  · trivial

theorem stepSignalPeer_reaches :
    Reaches taker (fun _ => True) (stepSignalPeer giver) fun _ => Read := by
  refine .bind among_monotone (keeps_true _) fun _ =>
    .bind among_monotone (keeps_true _) fun _ => ?_
  refine .bind among_monotone recvReply_reaches fun resp s hs => ?_
  rw [Prog.bind_eq, Prog.wp_bind, Prog.wp_ofExcept]
  cases hcmd : jsonGet resp.value "cmd" with
  | error exc => trivial
  | ok cmd =>
      rw [Prog.answered_ok, Prog.andThen_returned, Prog.wp_ite]
      split_ifs with htext
      · exact hs cmd hcmd htext
      · trivial

/-- The hand-off succeeds only when an acceptance has been read. -/
def Success (succeeded : Bool) (s : World) : Prop := succeeded = true → Read s

/-- One pass of the loop of `execute_as_primary`. -/
theorem runPrimarySteps_cons {P R : World → Prop} {name : StepName} {step : Mgr Unit}
    {rest : List (StepName × Mgr Unit)} (hmark : Prog.Keeps (among taker .giver) P
      (Mgr.host (.mark (.step name))))
    (hstep : Reaches taker P step fun _ => R)
    (hrest : Reaches taker R (runPrimarySteps giver rest) Success) :
    Reaches taker P (runPrimarySteps giver ((name, step) :: rest)) Success := by
  have hmark : Reaches taker P (Mgr.host (.mark (.step name))) fun _ => P :=
    hmark.conseq among_monotone (fun _ => id) (fun _ _ => id) fun _ _ => trivial
  apply hmark.bind among_monotone
  intro _
  apply (hstep.attempt among_monotone).bind among_monotone
  intro result
  cases result with
  | ok _ => exact hrest
  | error exc =>
      refine .bind among_monotone (keeps_true _) fun _ => .pure fun s _ h => ?_
      cases h

theorem executeAsPrimary_reaches :
    Reaches taker (fun _ => True) (executeAsPrimary giver) Success := by
  have hany {name : StepName} {step : Mgr Unit} {rest : List (StepName × Mgr Unit)}
      (hrest : Reaches taker (fun _ => True) (runPrimarySteps giver rest) Success) :
      Reaches taker (fun _ => True) (runPrimarySteps giver ((name, step) :: rest)) Success :=
    runPrimarySteps_cons (keeps_true _) (keeps_true _) hrest
  -- only the step that signals the peer reads a reply; what the others do is of no account
  have hsteps : Reaches taker (fun _ => True) (runPrimarySteps giver (primarySteps giver))
      Success := by
    refine hany (hany (hany (hany (hany ?_))))
    apply runPrimarySteps_cons (keeps_true _) stepSignalPeer_reaches
    refine runPrimarySteps_cons (keeps_read _) (R := Read) ?_ (.pure fun s hs _ => hs)
    exact (keeps_read _).conseq among_monotone (fun _ => id) (fun _ _ => id) fun _ _ => trivial
  have hkept (succeeded : Bool) : Prog.Keeps (among taker .giver) (Success succeeded)
      (Mgr.host (.mark (.leave .asPrimary))) := by
    refine giver_keeps ?_ (fun _ _ hread hs hsucceeded => hread (hs hsucceeded)) _
    exact fun s s' hs hrely hsucceeded => stable_read s s' (hs hsucceeded) hrely
  refine .bind among_monotone (keeps_true _) fun primary => .ite (fun _ => ?_) fun _ => ?_
  · exact .pure fun _ _ h => absurd h Bool.false_ne_true
  refine .bind among_monotone (keeps_true _) fun _ => ?_
  -- the `finally` depends on the result, which is kept through it
  refine .ensuring_each among_monotone (Q := Success) (E := fun _ => True) ?_ (fun succeeded => ?_)
    (keeps_true _)
  · refine .bind among_monotone (keeps_true _) fun _ => .bind among_monotone hsteps ?_
    intro succeeded
    refine .ite (fun hsucceeded => ?_) fun _ => .pure fun _ _ h => absurd h Bool.false_ne_true
    have hemit : Reaches taker (Success succeeded) (emit giver .switchoverCompleted
        s!"{giver.cluster.nodeName} demoted to STANDBY") fun _ => Read :=
      (keeps_read _).conseq among_monotone (fun s hs => hs hsucceeded) (fun _ _ => id)
        fun _ _ => trivial
    exact hemit.bind among_monotone fun _ => .pure fun s hs _ => hs
  · exact (hkept succeeded).conseq among_monotone (fun _ => id) (fun _ _ => id) fun _ _ => trivial

end Giver

/-! ## The thread of a promotion -/

section Promoter

variable {n : ℕ}

/-- A record that keeps what the other threads rely on. -/
theorem keeping_onConnection {s : World} (hs : Consistent s)
    (hstarted : (s.connection n).started = true) {f : Connection → Connection}
    (haccepted : ∀ c, (f c).accepted = c.accepted) (hopened : ∀ c, (f c).opened = c.opened) :
    Consistent (s.onConnection n f) ∧
      ∀ j, j ≠ .promoter n → Relies j s (s.onConnection n f) := by
  have hmono : (s.connection n).accepted ≠ none → (f (s.connection n)).accepted ≠ none := by
    rw [haccepted]
    exact id
  -- a connection that has started a thread has been opened
  have hopen : (s.connection n).opened = true := by
    by_contra hnot
    rw [hs.unopened n (Bool.eq_false_iff.mpr hnot)] at hstarted
    cases hstarted
  refine ⟨hs.onConnection (by rw [hopened, hopen]) hmono, fun j hpromoter => ?_⟩
  by_cases hhandler : j = .handler n
  · subst hhandler
    refine ⟨accepted_onConnection hmono, fun hnot => ?_⟩
    rw [hstarted] at hnot
    cases hnot
  · exact relies_onConnection hhandler hpromoter hmono

/-- What an operation of the thread of a promotion does. -/
theorem promoter_cases {s s' : World} {event : Event Call.Ret Exc}
    (h : acceptanceStep (.promoter n) s event s') : Unseen s s' ∨
      s' = (s.onConnection n fun c => { c with guard := some (c.guard.getD s.role) }) ∨
      event.op = .host (.mark (.step .attach)) ∧
        s' = s.onConnection n fun c => { c with began := true } := by
  obtain ⟨op, answer⟩ := event
  cases op with
  | disk call => exact .inl (h ▸ unseen_refl s)
  | net call => exact .inl (h ▸ unseen_refl s)
  | host call =>
      have h : promoterStep n s call answer s' := h
      unfold promoterStep at h
      split at h
      · exact .inr (.inl h.2)
      · exact .inr (.inr ⟨rfl, h.2⟩)
      · obtain ⟨-, rfl⟩ := h
        exact .inl (unseen_refl _)
      · subst h
        exact .inl ⟨fun _ _ h _ => h, rfl, rfl⟩
      · subst h
        exact .inl (unseen_refl _)

/-- The thread has found the role, and has gone on or not. -/
structure Found (n : ℕ) (role : NodeRole) (began : Bool) (s : World) : Prop where
  started : (s.connection n).started = true
  guard : (s.connection n).guard = some role
  began : (s.connection n).began = began

theorem stable_found {role : NodeRole} {began : Bool} :
    Stable (.promoter n) (Found n role began) := by
  rintro s s' hs ⟨-, hguard, hbegan, hstays⟩
  exact ⟨(hstays hs.started).1, hguard.trans hs.guard, hbegan.trans hs.began⟩

theorem Found.settled {role : NodeRole} {began : Bool} {s : World} (h : Found n role began s)
    (hbegan : began = true ↔ role = .standby) : Settled (s.connection n) := by
  left
  rw [h.began, h.guard, hbegan, Option.some.injEq]

/-- What the thread records of its own connection. -/
theorem keeping_found {role : NodeRole} {began : Bool} {s : World} {f : Connection → Connection}
    (hinv : Consistent s) (hstarted : (s.connection n).started = true)
    (haccepted : ∀ c, (f c).accepted = c.accepted) (hopened : ∀ c, (f c).opened = c.opened)
    (hkept : (f (s.connection n)).started = true) (hguard : (f (s.connection n)).guard = some role)
    (hbegan : (f (s.connection n)).began = began) :
    Keeping (.promoter n) (Found n role began) s (s.onConnection n f) := by
  obtain ⟨hinv', hothers⟩ := keeping_onConnection hinv hstarted haccepted hopened
  refine ⟨hinv', hothers, ?_, ?_, ?_⟩
  · simpa [World.onConnection] using hkept
  · simpa [World.onConnection] using hguard
  · simpa [World.onConnection] using hbegan

/-- Once the role has been found, only the step `ATTACH` is recorded. -/
theorem keeps_found {α : Type} {role : NodeRole} {began : Bool} {program : Mgr α}
    (hcalls : program.Calls fun op => op = .host (.mark (.step .attach)) → began = true) :
    Prog.Keeps (among taker (.promoter n)) (Found n role began) program := by
  refine keeps_of_step stable_found (by simp) (fun s event s' hop hinv hs hstep => ?_) hcalls
  rcases promoter_cases hstep with hunseen | rfl | ⟨hattach, rfl⟩
  · refine ⟨hunseen.consistent hinv, fun j _ => hunseen.relies j, ?_, ?_, ?_⟩
    all_goals rw [hunseen.connection]
    exacts [hs.started, hs.guard, hs.began]
  · have hguard : some ((s.connection n).guard.getD s.role) = some role := by rw [hs.guard]; rfl
    exact keeping_found hinv hs.started (fun _ => rfl) (fun _ => rfl) hs.started hguard hs.began
  · exact keeping_found hinv hs.started (fun _ => rfl) (fun _ => rfl) hs.started hs.guard
      (hop hattach).symm

/-- A thread that was started without an acceptance. -/
def Unasked (n : ℕ) (s : World) : Prop :=
  (s.connection n).started = true ∧ (s.connection n).accepted = none

theorem keeps_unasked {α : Type} (program : Mgr α) :
    Prog.Keeps (among taker (.promoter n)) (Unasked n) program := by
  have hstable : Stable (.promoter n) (Unasked n) := by
    rintro s s' ⟨hstarted, haccepted⟩ ⟨-, -, -, hstays⟩
    exact ⟨(hstays hstarted).1, (hstays hstarted).2.trans haccepted⟩
  have hrecord {s : World} (hinv : Consistent s) (hs : Unasked n s) {f : Connection → Connection}
      (haccepted : ∀ c, (f c).accepted = c.accepted) (hopened : ∀ c, (f c).opened = c.opened)
      (hstarted : ∀ c, (f c).started = c.started) :
      Keeping (.promoter n) (Unasked n) s (s.onConnection n f) := by
    obtain ⟨hinv', hothers⟩ := keeping_onConnection hinv hs.1 haccepted hopened
    refine ⟨hinv', hothers, ?_, ?_⟩
    · simpa [World.onConnection, hstarted] using hs.1
    · simpa [World.onConnection, haccepted] using hs.2
  have hcalls : program.Calls fun _ => True := Prog.calls_of_forall (fun _ => trivial) program
  refine keeps_of_step hstable (by simp) (fun s event s' _ hinv hs hstep => ?_) hcalls
  rcases promoter_cases hstep with hunseen | rfl | ⟨-, rfl⟩
  · refine ⟨hunseen.consistent hinv, fun j _ => hunseen.relies j, ?_⟩
    rwa [Unasked, hunseen.connection]
  · exact hrecord hinv hs (fun _ => rfl) (fun _ => rfl) fun _ => rfl
  · exact hrecord hinv hs (fun _ => rfl) (fun _ => rfl) fun _ => rfl

theorem stable_fresh : Stable (.promoter n) fun s => Fresh (s.connection n) := by
  rintro s s' hs ⟨-, hguard, hbegan, hstays⟩
  exact ⟨(hstays hs.started).1, hguard.trans hs.guard, hbegan.trans hs.began⟩

/-- The thread has gone on exactly if it has found a STANDBY. -/
def Decided (n : ℕ) (s : World) : Prop :=
  ∃ role began, (began = true ↔ role = .standby) ∧ Found n role began s

theorem Decided.settled {s : World} (h : Decided n s) : Settled (s.connection n) := by
  obtain ⟨role, began, hbegan, hfound⟩ := h
  exact hfound.settled hbegan

/-- What is not the step `ATTACH` decides nothing. -/
theorem keeps_decided {α : Type} {program : Mgr α}
    (hcalls : program.Calls (· ≠ .host (.mark (.step .attach)))) :
    Prog.Keeps (among taker (.promoter n)) (Decided n) program := by
  rintro s ⟨role, began, hbegan, hfound⟩
  have hfound' : Prog.Keeps (among taker (.promoter n)) (Found n role began) program :=
    keeps_found (hcalls.mono fun op hop hattach => absurd hattach hop)
  have hdecided (s : World) (hs : Found n role began s) : Decided n s := ⟨role, began, hbegan, hs⟩
  exact hfound'.conseq among_monotone (fun _ => id) (fun _ => hdecided) hdecided s hfound

theorem isStandby_triple : Prog.Triple (among taker (.promoter n))
    (fun s => Fresh (s.connection n)) LocalNode.isStandby
    (fun standby s => ∃ role, standby = (role == .standby) ∧ Found n role false s)
    fun _ => False := by
  have hrole : Prog.Triple (among taker (.promoter n)) (fun s => Fresh (s.connection n))
      (Mgr.host .role) (fun role => Found n role false) fun _ => False := by
    refine triple_perform stable_fresh (by simp) fun s answer s' hinv hs hstep => ?_
    obtain ⟨rfl, rfl⟩ := hstep
    have hguard : some ((s.connection n).guard.getD s.role) = some s.role := by rw [hs.guard]; rfl
    exact keeping_found hinv hs.started (fun _ => rfl) (fun _ => rfl) hs.started hguard hs.began
  exact hrole.bind among_monotone fun role => .pure fun s hs => ⟨role, rfl, hs⟩

/-- The first step of the promotion is recorded. -/
theorem attach_triple : Prog.Triple (among taker (.promoter n)) (Found n .standby false)
    (Mgr.host (.mark (.step .attach))) (fun _ => Found n .standby true) fun _ => False := by
  refine triple_perform stable_found (by simp) fun s answer s' hinv hs hstep => ?_
  obtain ⟨rfl, rfl⟩ := hstep
  exact keeping_found hinv hs.started (fun _ => rfl) (fun _ => rfl) hs.started hs.guard rfl

theorem enter_triple : Prog.Triple (among taker (.promoter n)) (Found n .standby false)
    (Mgr.host (.mark (.enter .asStandby))) (fun _ => Found n .standby false) fun _ => False := by
  refine triple_perform stable_found (by simp) fun s answer s' hinv hs hstep => ?_
  obtain ⟨rfl, rfl⟩ := hstep
  exact ⟨hinv, fun j _ => (unseen_refl _).relies j, hs⟩

theorem keeps_began {α : Type} (program : Mgr α) :
    Prog.Keeps (among taker (.promoter n)) (Found n .standby true) program :=
  keeps_found (Prog.calls_of_forall (fun _ _ => rfl) program)

/-- A thread that has found a STANDBY goes on to `ATTACH`, and then records no more. -/
theorem promotion_triple : Prog.Triple (among taker (.promoter n)) (Found n .standby false)
    (inSequence .asStandby do
      if ← runStandbySteps taker [] (standbySteps taker) then
        emit taker .switchoverCompleted s!"{taker.cluster.nodeName} promoted to PRIMARY"
        pure true
      else
        pure false) (fun _ => Found n .standby true) (Found n .standby true) := by
  have hmark {Q : Unit → World → Prop} {program : Mgr Unit} (h : Prog.Triple
      (among taker (.promoter n)) (Found n .standby false) program Q fun _ => False) :
      Prog.Triple (among taker (.promoter n)) (Found n .standby false) program Q
        (Found n .standby true) :=
    h.conseq among_monotone (fun _ => id) (fun _ _ => id) fun _ => False.elim
  refine .bind among_monotone (hmark enter_triple) fun _ => ?_
  refine .ensuring among_monotone (R := Found n .standby true) ?_ (keeps_began _)
  refine .bind among_monotone (R := fun _ => Found n .standby true) ?_ fun _ => keeps_began _
  exact .bind among_monotone (hmark attach_triple) fun _ => keeps_began _

theorem executeAsStandby_decides : Prog.Triple (among taker (.promoter n))
    (fun s => Fresh (s.connection n)) (executeAsStandby taker) (fun _ => Decided n)
    (Decided n) := by
  refine .bind among_monotone (isStandby_triple.conseq among_monotone (fun _ => id)
    (fun _ _ => id) fun _ => False.elim) fun standby => .ite (fun hnot => ?_) fun hstandby => ?_
  · refine .pure ?_
    rintro s ⟨role, rfl, hfound⟩
    exact ⟨role, false, by simpa using hnot, hfound⟩
  · have hdecided (s : World) (hs : Found n .standby true s) : Decided n s :=
      ⟨.standby, true, by simp, hs⟩
    refine promotion_triple.conseq among_monotone ?_ (fun _ => hdecided) hdecided
    rintro s ⟨role, rfl, hfound⟩
    obtain rfl : role = .standby := by simpa using hstandby
    exact hfound

/-- However it ends, the thread of a promotion has decided. -/
theorem runSwitchoverAsStandby_decides : Prog.Triple (among taker (.promoter n))
    (fun s => Fresh (s.connection n)) (PgHaDaemon.runSwitchoverAsStandby taker)
    (fun _ => Decided n) (Decided n) := by
  refine .ensuring among_monotone (R := Decided n) ?_
    (keeps_decided (Prog.Calls.perform (by simp)))
  refine .bind among_monotone executeAsStandby_decides fun promoted => ?_
  refine .ite (fun _ => keeps_decided ?_) fun _ => Prog.keeps_pure _
  refine (PgHaDaemon.efmStart_minor taker).mono ?_
  rintro op hminor rfl
  exact hminor

end Promoter

/-! ## The handler -/

section Handler

variable {n : ℕ}

/-- The connection has been opened, and no thread has been started for it. -/
def Waiting (n : ℕ) (accepted : Option NodeRole) (s : World) : Prop :=
  s.connection n = { opened := true, accepted := accepted }

theorem stable_waiting {accepted : Option NodeRole} : Stable (.handler n) (Waiting n accepted) := by
  rintro s s' hs ⟨-, hown⟩
  have hsame : s'.connection n = s.connection n := hown (by rw [hs])
  exact hsame.trans hs

/-- The operations of a handler that neither accept nor start a thread. -/
def unremarkable : Call → Prop
  | .host (.sendReply fields) => accepts fields = false
  | .host (.startThread _) => False
  | _ => True

theorem unseen_of_unremarkable {s s' : World} {event : Event Call.Ret Exc}
    (hop : unremarkable event.op) (h : acceptanceStep (.handler n) s event s') : Unseen s s' := by
  obtain ⟨op, answer⟩ := event
  cases op with
  | disk call => exact h ▸ unseen_refl s
  | net call => exact h ▸ unseen_refl s
  | host call =>
      have h : handlerStep n s call answer s' := h
      unfold handlerStep at h
      split at h
      · rcases h with ⟨request, -, -, rfl⟩ | rfl
        · exact ⟨fun _ _ h _ => h, rfl, rfl⟩
        · exact unseen_refl _
      · rcases h with rfl | ⟨-, rfl⟩
        · -- a reply that refuses leaves no acceptance on its way
          have hrefuses : accepts _ = false := hop
          refine ⟨?_, ?_, ?_⟩
          · intro m fields' hreply haccepts
            simp only [World.replied, hrefuses, Bool.false_eq_true, if_false] at hreply
            split_ifs at hreply
            · obtain ⟨rfl, rfl⟩ := Prod.mk.inj (Option.some.inj hreply)
              rw [hrefuses] at haccepts
              cases haccepts
            · exact hreply
          · simp [World.replied, hrefuses]
          · simp [World.replied, hrefuses]
        · exact unseen_refl _
      · exact hop.elim
      · obtain ⟨-, rfl⟩ := h
        exact unseen_refl _
      · subst h
        exact ⟨fun _ _ h _ => h, rfl, rfl⟩
      · subst h
        exact unseen_refl _

theorem keeps_of_unremarkable {α : Type} {P : World → Prop} (hP : Stable (.handler n) P)
    {program : Mgr α} (hcalls : program.Calls unremarkable) :
    Prog.Keeps (among taker (.handler n)) P program := by
  refine keeps_of_step hP (by simp [unremarkable]) (fun s event s' hop hinv hs hstep => ?_) hcalls
  have hunseen := unseen_of_unremarkable hop hstep
  exact ⟨hunseen.consistent hinv, fun j _ => hunseen.relies j, hP s s' hs (hunseen.relies _)⟩

/-- What a part of the handler does; nothing is asked of how it ends. -/
abbrev Conforms (taker : Config) (n : ℕ) {α : Type} (P : World → Prop) (program : Mgr α) : Prop :=
  Prog.Triple (among taker (.handler n)) P program (fun _ _ => True) fun _ => True

theorem conforms_of_unremarkable {α : Type} {program : Mgr α} (hcalls : program.Calls unremarkable)
    (P : World → Prop) : Conforms taker n P program :=
  (keeps_of_unremarkable stable_true hcalls).conseq among_monotone (fun _ _ => trivial)
    (fun _ _ => id) fun _ => id

/-- A first part that is unremarkable leaves the connection as it is. -/
theorem conforms_bind {α β : Type} {accepted : Option NodeRole} {program : Mgr α}
    {next : α → Mgr β} (hcalls : program.Calls unremarkable)
    (hnext : ∀ value, Conforms taker n (Waiting n accepted) (next value)) :
    Conforms taker n (Waiting n accepted) (program.bind next) :=
  .after_keeps among_monotone (keeps_of_unremarkable stable_waiting hcalls) hnext
    fun _ _ => trivial

theorem perform_unremarkable {call : HostCall} (h : unremarkable (.host call)) :
    (Mgr.host call).Calls unremarkable := Prog.Calls.perform h

theorem reply_unremarkable {fields : List (String × String)} (h : accepts fields = false) :
    (Mgr.host (.sendReply fields)).Calls unremarkable := perform_unremarkable h

/-- A reply in flight on a connection that has accepted. -/
theorem Consistent.sent {s : World} (hs : Consistent s) {fields : List (String × String)}
    (haccepted : (s.connection n).accepted ≠ none) :
    Consistent { s with reply := if s.asker = some n then some (n, fields) else s.reply } := by
  refine ⟨fun m fields' hreply hfields => ?_, hs.readFrom, hs.unopened⟩
  dsimp only at hreply
  split_ifs at hreply
  · obtain ⟨rfl, rfl⟩ := Prod.mk.inj (Option.some.inj hreply)
    exact haccepted
  · exact hs.reply m fields' hreply hfields

/-- The acceptance is sent, and the role at that moment recorded. -/
theorem accept_triple : Prog.Triple (among taker (.handler n)) (Waiting n none)
    (Mgr.host (.sendReply [("cmd", "SWITCHOVER_ACCEPT")]))
    (fun _ s => ∃ accepted, Waiting n accepted s) fun _ => True := by
  refine triple_perform stable_waiting (by simp) fun s answer s' hinv hs hstep => ?_
  rcases hstep with hreplied | ⟨⟨exc, rfl⟩, rfl⟩
  · let recorded := s.onConnection n fun c => { c with accepted := some s.role }
    let reply := if s.asker = some n then some (n, [("cmd", "SWITCHOVER_ACCEPT")]) else s.reply
    have hs' : s' = { recorded with reply := reply } := by
      have haccepts : accepts [("cmd", "SWITCHOVER_ACCEPT")] = true := by decide
      rw [hreplied, World.replied, if_pos haccepts]
      rfl
    have hwaiting : s.connection n = { opened := true, accepted := none } := hs
    have hrecorded : recorded.connection n = { opened := true, accepted := some s.role } := by
      rw [World.connection_onConnection, if_pos rfl, hwaiting]
    have hmono : (s.connection n).accepted ≠ none → some s.role ≠ none := fun _ => by simp
    have hinv' : Consistent recorded := hinv.onConnection (by rw [hwaiting]) hmono
    have hthere : (recorded.connection n).accepted ≠ none := by simp [hrecorded]
    refine ⟨hs' ▸ hinv'.sent hthere, fun j hj => ?_, ?_⟩
    · -- a thread of the promotion has not been started, so it has nothing to rely on
      have hrelies : Relies j s recorded := by
        by_cases hpromoter : j = .promoter n
        · subst hpromoter
          refine ⟨accepted_onConnection hmono, ?_⟩
          rw [Own, hrecorded, hwaiting]
          exact ⟨rfl, rfl, by simp⟩
        · exact relies_onConnection hj hpromoter hmono
      rw [hs']
      exact ⟨hrelies.accepted, by cases j <;> exact hrelies.own⟩
    · cases answer with
      | ok _ =>
          refine ⟨some s.role, ?_⟩
          rw [hs']
          exact hrecorded
      | error exc => trivial
  · -- the reply could not be sent
    exact ⟨hinv, fun j _ => (unseen_refl _).relies j, trivial⟩

/-- A thread is started for the connection, once. -/
theorem startThread_conforms {task : Task} {accepted : Option NodeRole}
    (htask : task = .runSwitchoverAsStandby ∨ accepted = none) :
    Conforms taker n (Waiting n accepted) (Mgr.host (.startThread task)) := by
  refine .perform fun s hs s₁ hrely hinv answer => ?_
  have hs₁ : s₁.connection n = { opened := true, accepted := accepted } :=
    stable_waiting s s₁ hs hrely
  have hends (s₂ : World) : Prog.ending (fun _ _ => True) (fun _ => True)
      (Prog.answered answer) s₂ := by
    cases answer <;> trivial
  constructor
  · rintro s₂ ⟨⟨exc, rfl⟩, rfl⟩
    exact ⟨hinv, fun j _ => (unseen_refl _).relies j, trivial⟩
  · rintro j s₂ child ⟨m, task', hm, rfl, hevent, rfl, rfl⟩ -
    obtain rfl : n = m := Slot.handler.inj hm
    cases hevent
    have hstarted : (s₁.onConnection n fun c => { c with started := true }).connection n =
        { opened := true, accepted := accepted, started := true } := by
      rw [World.connection_onConnection, if_pos rfl, hs₁]
    refine ⟨hinv.onConnection (by rw [hs₁]) id, fun l hhandler hpromoter =>
      relies_onConnection hhandler hpromoter id, ⟨task, rfl, ?_, ?_⟩, hends _⟩
    · rw [hstarted]
      exact ⟨rfl, rfl, rfl⟩
    · rw [hstarted]
      exact htask

theorem handleSwitchoverRequest_conforms :
    Conforms taker n (Waiting n none) PgHaDaemon.handleSwitchoverRequest := by
  refine .bind among_monotone accept_triple fun _ s hs => ?_
  obtain ⟨accepted, hwaiting⟩ := hs
  have hrest : Conforms taker n (Waiting n accepted) (do
      Mgr.host (.setSwitchoverActive true)
      Mgr.host (.startThread .runSwitchoverAsStandby)) :=
    conforms_bind (perform_unremarkable trivial) fun _ => startThread_conforms (.inl rfl)
  exact hrest s hwaiting

theorem handlePgFailHandoff_conforms :
    Conforms taker n (Waiting n none) (PgHaDaemon.handlePgFailHandoff taker) := by
  have hrefuses : accepts [("cmd", "PG_FAIL_HANDOFF_ACK")] = false := by decide
  have hack : (Mgr.host (.sendReply [("cmd", "PG_FAIL_HANDOFF_ACK")])).Calls unremarkable :=
    reply_unremarkable hrefuses
  have hstandby : LocalNode.isStandby.Calls unremarkable := .perform_bind trivial fun _ => trivial
  have hattempt : FailoverEngine.shouldAttempt.Calls unremarkable := by
    refine .bind hstandby fun _ => .ite trivial (.perform_bind trivial fun _ => .ite trivial ?_)
    exact .perform_bind trivial fun _ => .perform_bind trivial fun _ => trivial
  refine conforms_bind (perform_unremarkable trivial) fun active => .ite (fun _ => ?_) fun _ => ?_
  · exact conforms_of_unremarkable hack _
  refine conforms_bind (perform_unremarkable trivial) fun maintenance =>
    .ite (fun _ => ?_) fun _ => ?_
  · exact conforms_of_unremarkable hack _
  refine conforms_bind hack fun _ => conforms_bind (perform_unremarkable trivial) fun _ => ?_
  have hrelease : (Mgr.host .releaseFailoverLock).Calls unremarkable := perform_unremarkable trivial
  refine .ensuring among_monotone (R := fun _ => True) ?_ (conforms_of_unremarkable hrelease _)
  refine conforms_bind hstandby fun _ => .ite (fun _ => ?_) fun _ => .pure fun _ _ => trivial
  refine conforms_bind hattempt fun _ => .ite (fun _ => ?_) fun _ => .pure fun _ _ => trivial
  exact startThread_conforms (.inr rfl)

theorem dispatchPeer_conforms (cmd : Option Json) :
    Conforms taker n (Waiting n none) (PgHaDaemon.dispatchPeer taker cmd) := by
  have hmaintenance : (PgHaDaemon.isMaintenance taker).Calls unremarkable :=
    perform_unremarkable trivial
  refine .ite (fun _ => handleSwitchoverRequest_conforms) fun _ => ?_
  refine .ite (fun _ => handlePgFailHandoff_conforms) fun _ => conforms_of_unremarkable ?_ _
  refine .ite ?_ (.ite ?_ (reply_unremarkable (by decide)))
  · refine .bind (.perform_bind trivial fun _ => .perform_bind trivial fun _ => ?_) fun _ =>
      reply_unremarkable (by decide)
    exact trivial
  · refine .bind (.bind hmaintenance fun _ => .ite ?_ trivial)
      fun _ => reply_unremarkable (by decide)
    exact .perform_bind trivial fun _ => trivial

theorem handlePeerConn_conforms :
    Conforms taker n (Waiting n none) (PgHaDaemon.handlePeerConn taker) := by
  have hreceive : PgHaDaemon.receiveCommand.Calls unremarkable :=
    .perform_bind trivial fun _ => .bind (Prog.calls_ofExcept _) fun _ => trivial
  refine conforms_bind hreceive.attempt fun received => ?_
  cases received with
  | error exc =>
      refine .ite (fun _ => ?_) fun _ => ?_
      · exact .pure fun _ _ => trivial
      · exact .raise fun _ _ => trivial
  | ok received =>
      have hauth : (PgHaDaemon.authenticated taker received.1).Calls unremarkable :=
        .ite trivial (.bind (Prog.calls_ofExcept _) fun _ => Prog.calls_ofExcept _)
      refine conforms_bind hauth fun known => .ite (fun _ => dispatchPeer_conforms _) fun _ => ?_
      have hrefuses : accepts [("error", "auth_failed")] = false := by decide
      exact conforms_of_unremarkable (reply_unremarkable hrefuses) _

end Handler

/-! ## Both nodes -/

theorem acceptanceContract_holds : (acceptanceContract taker).Holds where
  start i program s _ hstart := by
    cases i with
    | giver => exact hstart.elim
    | handler n =>
        obtain ⟨rfl, hwaiting⟩ := hstart
        have hthread : Conforms taker n (Waiting n none)
            (asThread (PgHaDaemon.handlePeerConn taker)) :=
          handlePeerConn_conforms.bind among_monotone fun _ => .pure fun _ _ => trivial
        exact Prog.wp_mono among_monotone (fun _ _ _ => trivial) (hthread s hwaiting)
    | promoter n =>
        obtain ⟨task, rfl, hfresh, htask⟩ := hstart
        have hpost {P : World → Prop} {program : Mgr Bool}
            (h : Prog.Triple (among taker (.promoter n)) P program
              (fun _ s => Settled (s.connection n)) fun s => Settled (s.connection n))
            (hs : P s) : (acceptanceContract taker).Safe (.promoter n) program s := by
          refine Prog.wp_mono among_monotone (fun outcome s' hend hended => ?_) (h s hs)
          cases outcome with
          | stuck => exact absurd rfl hended
          | _ => exact hend
        rcases htask with rfl | haccepted
        · -- the promotion itself; a thread started without an acceptance has promised nothing
          have hthread : Prog.Triple (among taker (.promoter n)) (fun s => Fresh (s.connection n))
              (asThread (PgHaDaemon.runSwitchoverAsStandby taker)) (fun _ => Decided n)
              (Decided n) :=
            runSwitchoverAsStandby_decides.bind among_monotone fun _ => Prog.keeps_pure _
          exact hpost (hthread.conseq among_monotone (fun _ => id) (fun _ _ => Decided.settled)
            fun _ => Decided.settled) hfresh
        · have hunasked (s : World) (hs : Unasked n s) : Settled (s.connection n) := .inr hs
          exact hpost ((keeps_unasked _).conseq among_monotone (fun _ => id) (fun _ => hunasked)
            hunasked) ⟨hfresh.started, haccepted⟩
  arrive i s program s' hinv harrive _ := by
    obtain ⟨n, rfl, hopened, rfl, rfl⟩ := harrive
    have hidle : s.connection n = {} := hinv.unopened n hopened
    have hwaiting : Waiting n none (s.onConnection n fun c => { c with opened := true }) := by
      rw [Waiting, World.connection_onConnection, if_pos rfl, hidle]
    refine ⟨hinv.onConnection rfl id, fun j hhandler => ?_, rfl, hwaiting⟩
    by_cases hpromoter : j = .promoter n
    · subst hpromoter
      refine ⟨accepted_onConnection id, ?_⟩
      rw [Own, World.connection_onConnection, if_pos rfl]
      exact ⟨rfl, rfl, fun h => ⟨h, rfl⟩⟩
    · exact relies_onConnection hhandler hpromoter id
  env s s' hinv henv := ⟨henv.unseen.consistent hinv, henv.unseen.relies⟩

theorem sound_of_start {start : Threads Slot Call.Ret Exc Bool World} (h : Start giver start) :
    (acceptanceContract taker).Sound start := by
  refine ⟨⟨?_, ?_, fun n _ => h.connection n⟩, fun i => ?_⟩
  · intro n fields hreply
    rw [h.reply] at hreply
    cases hreply
  · intro n hread
    rw [h.readFrom] at hread
    cases hread
  · unfold Contract.Safe
    cases i with
    | giver =>
        rw [h.program]
        refine Prog.wp_mono among_monotone (fun outcome s hend hout => ?_)
          (executeAsPrimary_reaches start.shared trivial)
        subst hout
        exact hend rfl
    | handler n =>
        rw [h.handlers]
        exact trivial
    | promoter n =>
        rw [h.promoters]
        intro _
        left
        simp [h.connection n]

/-- **Accepted switchovers.**  Once all threads have ended, an acceptance has been kept
exactly when it was sent by a STANDBY that was still STANDBY when the thread of the
promotion looked; and a giver that has given up its role has read an acceptance, so its
peer has begun the promotion exactly when the same is true of that one. -/
theorem accepted_iff (giver taker : Config) (start state : Threads Slot Call.Ret Exc Bool World)
    (hstart : Start giver start) (hreach : (acceptanceSystem taker).Reach start state)
    (hended : ∀ i, (state.prog i).Finished) :
    (∀ n, (state.shared.connection n).accepted ≠ none →
      ((state.shared.connection n).Kept ↔ (state.shared.connection n).accepted = some .standby ∧
        (state.shared.connection n).guard = some .standby)) ∧
    (state.prog .giver = .pure true → ∃ n, state.shared.readFrom = some n ∧
      (state.shared.connection n).accepted ≠ none ∧
      ((state.shared.connection n).began = true ↔
        (state.shared.connection n).guard = some .standby)) := by
  have hsound : (acceptanceContract taker).Sound state :=
    acceptanceContract_holds.reach hreach (sound_of_start hstart)
  have hsettled (n : ℕ) (haccepted : (state.shared.connection n).accepted ≠ none) :
      (state.shared.connection n).began = true ↔
        (state.shared.connection n).guard = some .standby := by
    obtain ⟨outcome, hnot, hpost⟩ := (hsound.2 (.promoter n)).of_finished (hended _)
    exact (hpost hnot).resolve_right fun h => haccepted h.2
  refine ⟨fun n haccepted => and_congr_right fun _ => hsettled n haccepted, fun hgiver => ?_⟩
  have hread : state.shared.readFrom ≠ none :=
    hsound.ended (i := .giver) (by rw [hgiver]; rfl) rfl
  obtain ⟨n, hn⟩ := Option.ne_none_iff_exists'.mp hread
  have haccepted := hsound.1.readFrom n hn
  exact ⟨n, hn, haccepted, hsettled n haccepted⟩

/-! ## Sample runs -/

section Sample

/-- Operations that succeed, on a giver that is PRIMARY; a message is received when it is
there. -/
def obey (i : Slot) : (op : Call) → World → Except Exc op.Ret × World
  | .disk call, s => (call.reply, s)
  | .net _, s => (.ok (), s)
  | .host call, s =>
      let node : DaemonState := ⟨{ name := "", role := .primary }, 0, 0, "UNKNOWN", false, false, 0⟩
      match i, call with
      | .giver, .sendRequest request => (.ok (), { s with request := some request })
      | .giver, .recvReply =>
          match s.reply with
          | some (n, fields) => (.ok ⟨replyJson fields, ""⟩, { s with
              reply := none, readFrom := if accepts fields then some n else s.readFrom })
          | none => (.error ⟨.osError, "timed out"⟩, s)
      | .giver, call => (node.reply call, s)
      | .handler n, .recvCommand =>
          match s.request with
          | some request => (.ok (requestJson request), { s with request := none, asker := some n })
          | none => (.error ⟨.osError, "timed out"⟩, s)
      | .handler n, .sendReply fields => (.ok (), s.replied n fields)
      | .handler _, .startThread _ => (.error ⟨.runtimeError, "can't start new thread"⟩, s)
      | .handler _, .role => (.ok s.role, s)
      | .handler _, .setRole role => (.ok (), { s with role := role })
      | .handler _, call => (node.reply call, s)
      | .promoter n, .role =>
          (.ok s.role, s.onConnection n fun c => { c with guard := some (c.guard.getD s.role) })
      | .promoter n, .mark (.step .attach) =>
          (.ok (), s.onConnection n fun c => { c with began := true })
      | .promoter _, .setRole role => (.ok (), { s with role := role })
      | .promoter _, call => (node.reply call, s)

theorem giverStep_obey (call : HostCall) (s : World) :
    giverStep s call (obey .giver (.host call) s).1 (obey .giver (.host call) s).2 := by
  cases call
  case sendRequest request => exact .inl rfl
  case recvReply =>
    cases hreply : s.reply with
    | none =>
        have hobey : obey .giver (.host .recvReply) s = (.error ⟨.osError, "timed out"⟩, s) := by
          simp only [obey, hreply]
        rw [hobey]
        exact .inr ⟨⟨_, rfl⟩, rfl⟩
    | some message =>
        obtain ⟨n, fields⟩ := message
        have hobey : obey .giver (.host .recvReply) s = (.ok ⟨replyJson fields, ""⟩, { s with
            reply := none, readFrom := if accepts fields then some n else s.readFrom }) := by
          simp only [obey, hreply]
        rw [hobey]
        exact .inl ⟨n, fields, "", hreply, rfl, rfl⟩
  all_goals rfl

theorem handlerStep_obey (n : ℕ) (call : HostCall) (s : World) :
    handlerStep n s call (obey (.handler n) (.host call) s).1
      (obey (.handler n) (.host call) s).2 := by
  cases call
  case recvCommand =>
    cases hrequest : s.request with
    | none =>
        have hobey : obey (.handler n) (.host .recvCommand) s =
            (.error ⟨.osError, "timed out"⟩, s) := by simp only [obey, hrequest]
        rw [hobey]
        exact .inr rfl
    | some request =>
        have hobey : obey (.handler n) (.host .recvCommand) s =
            (.ok (requestJson request), { s with request := none, asker := some n }) := by
          simp only [obey, hrequest]
        rw [hobey]
        exact .inl ⟨request, hrequest, rfl, rfl⟩
  case sendReply fields => exact .inl rfl
  case startThread task => exact ⟨⟨_, rfl⟩, rfl⟩
  case role => exact ⟨rfl, rfl⟩
  all_goals rfl

theorem promoterStep_obey (n : ℕ) (call : HostCall) (s : World) :
    promoterStep n s call (obey (.promoter n) (.host call) s).1
      (obey (.promoter n) (.host call) s).2 := by
  cases call
  case role => exact ⟨rfl, rfl⟩
  case mark mark =>
    cases mark
    case step name => cases name <;> exact ⟨rfl, rfl⟩
    all_goals exact ⟨rfl, rfl⟩
  all_goals rfl

theorem acceptanceStep_obey (i : Slot) (op : Call) (s : World) :
    acceptanceStep i s ⟨op, (obey i op s).1⟩ (obey i op s).2 := by
  cases op with
  | disk call => rfl
  | net call => rfl
  | host call =>
      cases i with
      | giver => exact giverStep_obey call s
      | handler n => exact handlerStep_obey n call s
      | promoter n => exact promoterStep_obey n call s

abbrev Sample : Type := Threads Slot Call.Ret Exc Bool World

/-- Let a thread run, but not past the place where it waits for its peer or starts a
thread. -/
def waits : Call → World → Bool
  | .host .recvReply, s => s.reply.isNone
  | .host (.startThread _), _ => true
  | _, _ => false

/-- The giver is about to hand over, and the taker is in the given role. -/
def sampleStart (role : NodeRole) : Sample where
  shared :=
    { role := role
      request := none
      asker := none
      reply := none
      readFrom := none
      connection := fun _ => {} }
  prog
    | .giver => executeAsPrimary .samplePrimary
    | _ => .pure true

theorem start_sampleStart (role : NodeRole) : Start .samplePrimary (sampleStart role) :=
  ⟨rfl, rfl, fun _ => rfl, rfl, fun _ => rfl, fun _ => rfl⟩

/-- The giver waits for the reply. -/
def asked (role : NodeRole) : Sample := (sampleStart role).advance (obey .giver) waits .giver 100

/-- The taker has accepted, and is about to start the promotion. -/
def acknowledged (role : NodeRole) : Sample :=
  ((asked role).arrived (.handler 0)
    ((asked role).shared.onConnection 0 fun c => { c with opened := true })
    (asThread (PgHaDaemon.handlePeerConn .sampleStandby))).advance (obey (.handler 0)) waits
      (.handler 0) 100

def promoting (role : NodeRole) : Sample :=
  (acknowledged role).forked (.handler 0) (.promoter 0)
    (.host (.startThread .runSwitchoverAsStandby)) (.ok ())
    ((acknowledged role).shared.onConnection 0 fun c => { c with started := true })
    (asThread (PgHaDaemon.runSwitchoverAsStandby .sampleStandby))

/-- Both threads have ended. -/
def handedOver (role : NodeRole) : Sample :=
  ((promoting role).advance (obey (.promoter 0)) waits (.promoter 0) 100).advance (obey .giver)
    waits .giver 100

theorem reach_handedOver (role : NodeRole) :
    (acceptanceSystem .sampleStandby).Reach (sampleStart role) (handedOver role) := by
  have hstep (i : Slot) (s : World) (op : Call) (_ : waits op s = false) :
      (acceptanceSystem .sampleStandby).step i s ⟨op, (obey i op s).1⟩ (obey i op s).2 :=
    acceptanceStep_obey i op s
  have hasked : (acceptanceSystem .sampleStandby).Reach (sampleStart role) (asked role) :=
    System.Reach.advance .refl (hstep .giver) 100
  have hacknowledged : (acceptanceSystem .sampleStandby).Reach (sampleStart role)
      (acknowledged role) := by
    apply System.Reach.advance _ (hstep (.handler 0)) 100
    refine hasked.arrive ⟨0, rfl, ?_, rfl, rfl⟩ trivial
    cases role <;> decide
  have hpromoting : (acceptanceSystem .sampleStandby).Reach (sampleStart role)
      (promoting role) := by
    have hidle : ((acknowledged role).prog (.promoter 0)).Finished := trivial
    apply hacknowledged.fork _ _ (by decide) hidle
    · cases role <;> decide
    · exact ⟨0, .runSwitchoverAsStandby, rfl, rfl, rfl, rfl, rfl⟩
  exact (hpromoting.advance (hstep (.promoter 0)) 100).advance (hstep .giver) 100

theorem finished_handedOver (role : NodeRole) (i : Slot) :
    ((handedOver role).prog i).Finished := by
  have hrest (j : Slot) (hgiver : j ≠ .giver) (hhandler : j ≠ .handler 0)
      (hpromoter : j ≠ .promoter 0) : (handedOver role).prog j = (sampleStart role).prog j := by
    rw [handedOver, Threads.advance_prog hgiver, Threads.advance_prog hpromoter, promoting,
      Threads.forked_prog hhandler hpromoter, acknowledged, Threads.advance_prog hhandler,
      Threads.arrived_prog hhandler, asked, Threads.advance_prog hgiver]
  by_cases hgiver : i = .giver
  · subst hgiver
    cases role <;> exact Prog.finished_of_returned true (by decide)
  by_cases hhandler : i = .handler 0
  · subst hhandler
    cases role <;> exact Prog.finished_of_returned true (by decide)
  by_cases hpromoter : i = .promoter 0
  · subst hpromoter
    cases role <;> exact Prog.finished_of_returned true (by decide)
  rw [hrest i hgiver hhandler hpromoter]
  cases i with
  | giver => exact absurd rfl hgiver
  | handler n => trivial
  | promoter n => trivial

/-- A STANDBY that stays STANDBY keeps its word. -/
theorem accepted_iff_standby : ((handedOver .standby).shared.connection 0).Kept := by
  have hiff := accepted_iff .samplePrimary .sampleStandby (sampleStart .standby)
    (handedOver .standby) (start_sampleStart .standby) (reach_handedOver .standby)
    (finished_handedOver .standby)
  exact (hiff.1 0 (by decide)).mpr ⟨by decide, by decide⟩

/-- A taker in its startup election accepts, the giver gives up its role, and nobody is
promoted. -/
theorem not_accepted : ¬ ∀ giver taker start state, Start giver start →
    (acceptanceSystem taker).Reach start state → (∀ i, (state.prog i).Finished) →
      (∀ n, (state.shared.connection n).accepted ≠ none → (state.shared.connection n).Kept) ∧
      ((state.prog .giver).outcome? = some (.returned true) →
        ∃ n, (state.shared.connection n).began = true) := by
  intro h
  have hkept := (h .samplePrimary .sampleStandby (sampleStart .unknown) (handedOver .unknown)
    (start_sampleStart .unknown) (reach_handedOver .unknown) (finished_handedOver .unknown)).1 0
    (by decide)
  exact absurd hkept.2 (by decide)

end Sample

end PgHa.Acceptance

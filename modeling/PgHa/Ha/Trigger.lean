import PgHa.Daemon
import PgHa.Heartbeat.Reception
import PgHa.Effect.Threads
import PgHa.Model.Host

/-!
# The trigger of a failover

The watchdog puts one `PEER_DEAD` when it declares the peer dead.  The main loop takes it
and starts a failover, or drops it: in maintenance, within the back-off of an earlier
attempt, on a node that is no STANDBY.  Nothing puts it back, and nothing repeats an attempt
that has failed.

Here the watchdog, the main loop and the threads of the failovers run side by side, while
heartbeats come, maintenance is switched on and off, other events fill the queue and time
goes on.  `keepsTrigger` says when the trigger is not lost: if no such drop happens while
the peer is dead, then on a STANDBY at rest whose peer is dead a `PEER_DEAD` is queued.
-/

namespace PgHa.Trigger

open Effect FailoverEngine

variable {cfg : Config}

/-! ## The system -/

inductive Slot
  | watchdog
  | mainLoop
  | failover (n : ℕ)
  deriving DecidableEq, Repr

/-- What the threads share, and what has happened: whether the watchdog has cleared the
flag and is to put a `PEER_DEAD`, whether a `PEER_DEAD` is what the main loop has taken
last, and the threads of failovers that have neither promoted the node nor failed. -/
structure World where
  role : NodeRole
  alive : Bool
  lastTs : Int
  maintenance : Bool
  attempts : ℕ
  lastAttemptTs : Int
  now : Int
  queue : List HaEvent
  declaring : Bool
  handling : Bool
  underWay : List ℕ

def isPeerDead (event : HaEvent) : Bool := event.eventType == .peerDead

namespace World

/-- A `PEER_DEAD` is queued. -/
def queued (s : World) : Bool := s.queue.any isPeerDead

/-- `put_nowait`: an event that finds no room is dropped. -/
def enqueue (s : World) (event : HaEvent) : World :=
  if s.queue.length < eventQueueSize then { s with queue := s.queue ++ [event] } else s

/-- A failover has promoted the node or has failed. -/
def settle (s : World) : Slot → World
  | .failover n => { s with underWay := s.underWay.filter (· ≠ n) }
  | _ => s

/-- An event is emitted by one of the threads. -/
def emitted (s : World) (slot : Slot) (event : HaEvent) : World :=
  match slot, event.eventType with
  | .watchdog, .peerDead => { s.enqueue event with declaring := false }
  | .failover n, .failoverFailed => (s.enqueue event).settle (.failover n)
  | _, _ => s.enqueue event

def enact (s : World) (slot : Slot) (role : NodeRole) : World :=
  if role = .primary then { s with role := role }.settle slot else { s with role := role }

end World

/-- The operations of the host.  A thread for a failover is started by `fork`. -/
def hostStep (slot : Slot) (s : World) : (call : HostCall) → Except Exc call.Ret → World → Prop
  | .role, answer, s' => answer = .ok s.role ∧ s' = s
  | .setRole role, answer, s' => answer = .ok () ∧ s' = s.enact slot role
  | .setHealth _, answer, s' => answer = .ok () ∧ s' = s
  | .mark _, answer, s' => answer = .ok () ∧ s' = s
  | .isfile _, answer, s' => answer = .ok s.maintenance ∧ s' = s
  | .isPeerAlive, answer, s' => answer = .ok s.alive ∧ s' = s
  | .attempts, answer, s' => answer = .ok s.attempts ∧ s' = s
  | .setAttempts attempts, answer, s' => answer = .ok () ∧ s' = { s with attempts := attempts }
  | .lastAttemptTs, answer, s' => answer = .ok s.lastAttemptTs ∧ s' = s
  | .setLastAttemptTs ts, answer, s' => answer = .ok () ∧ s' = { s with lastAttemptTs := ts }
  | .monotonic, answer, s' => answer = .ok s.now ∧ s' = s
  | .acquireFailoverLock _, answer, s' => (∃ locked, answer = .ok locked) ∧ s' = s
  | .peerTimes, answer, s' => answer = .ok (s.lastTs, s.alive) ∧ s' = s
  | .clearPeerAlive, answer, s' =>
      answer = .ok () ∧ s' = { s with alive := false, declaring := true }
  | .putEvent event, answer, s' =>
      answer = (if s.queue.length < eventQueueSize then .ok () else .error ⟨.queueFull, ""⟩) ∧
        s' = s.emitted slot event
  | .getEvent, answer, s' =>
      match s.queue with
      | [] => answer = .error ⟨.queueEmpty, ""⟩ ∧ s' = { s with handling := false }
      | event :: rest =>
          answer = .ok event ∧ s' = { s with queue := rest, handling := isPeerDead event }
  | .startThread (.runFailover _), answer, s' => (∃ exc, answer = .error exc) ∧ s' = s
  | _, _, s' => s' = s

/-- The managers, and the rest of the host, answer anything. -/
def triggerStep (slot : Slot) (s : World) (event : Event Call.Ret Exc) (s' : World) : Prop :=
  match event with
  | ⟨.host call, answer⟩ => hostStep slot s call answer s'
  | _ => s' = s

/-- What happens outside of the three kinds of threads. -/
inductive Outside (s : World) : World → Prop
  /-- The receiver stores a heartbeat. -/
  | heartbeat (ts : Int) : Outside s { s with alive := true, lastTs := ts }
  /-- Maintenance is switched on or off. -/
  | maintenance (on : Bool) : Outside s { s with maintenance := on }
  /-- Some other event is put into the queue. -/
  | event (event : HaEvent) : Outside s (s.enqueue event)
  | time (now : Int) : s.now ≤ now → Outside s { s with now := now }

def triggerSystem (cfg : Config) : System Slot Call.Ret Exc Unit World where
  step := triggerStep
  fork i j s event s' child := i = .mainLoop ∧ ∃ n skipFence, j = .failover n ∧
    event = ⟨.host (.startThread (.runFailover skipFence)), .ok ()⟩ ∧
    child = PgHaDaemon.runFailover cfg skipFence ∧ s' = { s with underWay := n :: s.underWay }
  arrive i s program s' := s' = s ∧
    (i = .watchdog ∧ program = HeartbeatManager.watchdogPass cfg ∨
      i = .mainLoop ∧ program = PgHaDaemon.mainLoopPass cfg)
  env := Outside

abbrev State : Type := Threads Slot Call.Ret Exc Unit World

/-- The daemon has just been started, in the role that it was elected to. -/
def begin (role : NodeRole) (now : Int) : State where
  shared :=
    { role := role
      alive := false
      lastTs := 0
      maintenance := false
      attempts := 0
      lastAttemptTs := 0
      now := now
      queue := []
      declaring := false
      handling := false
      underWay := [] }
  prog _ := .pure ()

/-! ## What it means to lose the trigger -/

/-- `should_attempt` would return True, but for the role. -/
def Permitted (s : World) : Prop :=
  s.attempts < maxAttempts ∧
    (s.attempts = 0 ∨ retryBackoffMillis ≤ s.now - s.lastAttemptTs)

/-- A STANDBY that could take over from a peer that is dead. -/
structure Waiting (s : World) : Prop where
  standby : s.role = .standby
  heard : s.lastTs ≠ 0
  dead : s.alive = false
  maintenance : s.maintenance = false
  permitted : Permitted s

/-- No transition is in progress, the main loop is between two iterations, and the watchdog
is not about to put an event. -/
structure AtRest (state : State) : Prop where
  mainLoop : (state.prog .mainLoop).Finished
  failovers : ∀ n, (state.prog (.failover n)).Finished
  calm : state.shared.declaring = false

/-- The main loop alone, which may start a failover. -/
def loopStep (s : World) (event : Event Call.Ret Exc) (s' : World) : Prop :=
  triggerStep .mainLoop s event s' ∨
    ∃ skipFence, event = ⟨.host (.startThread (.runFailover skipFence)), .ok ()⟩ ∧ s' = s

def startsFailover (event : Event Call.Ret Exc) : Bool :=
  match event.op with
  | .host (.startThread (.runFailover _)) => true
  | _ => false

/-- The next iteration of the main loop starts a failover. -/
def NextStarts (cfg : Config) (s : World) : Prop :=
  ∀ trace outcome s', (PgHaDaemon.mainLoopPass cfg).Trace trace outcome → outcome ≠ .stuck →
    History loopStep s trace s' → trace.any startsFailover = true

/-- In every state that a run of the system reaches. -/
def KeepsTrigger (cfg : Config) (S : System Slot Call.Ret Exc Unit World) : Prop :=
  ∀ role now state, S.Reach (begin role now) state → AtRest state → Waiting state.shared →
    state.shared.queued = true ∨ NextStarts cfg state.shared

/-- No trigger is missing: the node is no STANDBY, has never heard its peer or hears it, or
a `PEER_DEAD` is queued or a failover under way. -/
def Noticed (s : World) : Prop :=
  s.role ≠ .standby ∨ s.lastTs = 0 ∨ s.alive = true ∨ s.queued = true ∨ s.underWay ≠ []

/-- Where nothing else would notice that the peer is dead, a `PEER_DEAD` that the main loop
handles finds maintenance off and an attempt permitted, and its thread starts; one that the
watchdog puts finds room; no failover fails; and the node does not become STANDBY. -/
def Honoured (slot : Slot) (s : World) (event : Event Call.Ret Exc) : Prop :=
  match slot, event with
  | .mainLoop, ⟨.host (.isfile _), _⟩ => s.handling = true → s.maintenance = false ∨ Noticed s
  | .mainLoop, ⟨.host .attempts, _⟩ => s.handling = true → Permitted s ∨ Noticed s
  | .mainLoop, ⟨.host (.startThread (.runFailover _)), .error _⟩ => s.handling = true → Noticed s
  | .mainLoop, ⟨.host (.setRole role), _⟩ => Noticed { s with role := role }
  | .watchdog, ⟨.host (.putEvent _), .error _⟩ => Noticed s
  | .failover n, ⟨.host (.putEvent event), _⟩ =>
      event.eventType = .failoverFailed → Noticed (s.settle (.failover n))
  | _, _ => True

/-! ## The contract of the threads -/

section Fields

variable (s : World) (event : HaEvent)

@[simp] theorem enqueue_role : (s.enqueue event).role = s.role := by
  unfold World.enqueue
  split <;> rfl

@[simp] theorem enqueue_alive : (s.enqueue event).alive = s.alive := by
  unfold World.enqueue
  split <;> rfl

@[simp] theorem enqueue_lastTs : (s.enqueue event).lastTs = s.lastTs := by
  unfold World.enqueue
  split <;> rfl

@[simp] theorem enqueue_lastAttemptTs : (s.enqueue event).lastAttemptTs = s.lastAttemptTs := by
  unfold World.enqueue
  split <;> rfl

@[simp] theorem enqueue_now : (s.enqueue event).now = s.now := by
  unfold World.enqueue
  split <;> rfl

@[simp] theorem enqueue_declaring : (s.enqueue event).declaring = s.declaring := by
  unfold World.enqueue
  split <;> rfl

@[simp] theorem enqueue_handling : (s.enqueue event).handling = s.handling := by
  unfold World.enqueue
  split <;> rfl

@[simp] theorem enqueue_underWay : (s.enqueue event).underWay = s.underWay := by
  unfold World.enqueue
  split <;> rfl

variable {s event}

/-- What is queued stays queued. -/
theorem queued_enqueue (h : s.queued = true) : (s.enqueue event).queued = true := by
  unfold World.enqueue
  split
  · simpa [World.queued] using .inl (by simpa [World.queued] using h)
  · exact h

theorem queued_of_room (hroom : s.queue.length < eventQueueSize) (hdead : isPeerDead event = true) :
    (s.enqueue event).queued = true := by
  simp [World.enqueue, World.queued, hroom, hdead]

theorem Noticed.enqueue (h : Noticed s) : Noticed (s.enqueue event) := by
  rcases h with hrole | hnever | halive | hqueued | hunder
  · exact .inl (by rwa [enqueue_role])
  · exact .inr (.inl (by rwa [enqueue_lastTs]))
  · exact .inr (.inr (.inl (by rwa [enqueue_alive])))
  · exact .inr (.inr (.inr (.inl (queued_enqueue hqueued))))
  · exact .inr (.inr (.inr (.inr (by rwa [enqueue_underWay]))))

end Fields

/-- A STANDBY whose peer is dead, as the watchdog has declared or is not about to. -/
structure Dead (s : World) : Prop where
  standby : s.role = .standby
  heard : s.lastTs ≠ 0
  dead : s.alive = false
  declared : s.declaring = false

/-- While the peer is dead, a `PEER_DEAD` is queued or a failover is under way. -/
def Covered (s : World) : Prop := Dead s → s.queued = true ∨ s.underWay ≠ []

theorem covered_of_noticed {s : World} (h : Noticed s) : Covered s := by
  intro hdead
  rcases h with hrole | hnever | halive | hcovered
  · exact absurd hdead.standby hrole
  · exact absurd hnever hdead.heard
  · exact absurd (halive.symm.trans hdead.dead) (by simp)
  · exact hcovered

/-- How the other threads may change the state under the main loop: they do not take a
`PEER_DEAD` away, and an attempt is recorded only while a failover is under way. -/
structure LoopRelies (s s' : World) : Prop where
  covered : Covered s → Covered s'
  lastAttemptTs : Covered s' ∨ s'.lastAttemptTs = s.lastAttemptTs
  now : s.now ≤ s'.now
  handling : s'.handling = s.handling

theorem LoopRelies.trans {s s' s'' : World} (h : LoopRelies s s') (h' : LoopRelies s' s'') :
    LoopRelies s s'' where
  covered := h'.covered ∘ h.covered
  lastAttemptTs := by
    rcases h'.lastAttemptTs with hcovered | hsame
    · exact .inl hcovered
    · rcases h.lastAttemptTs with hcovered | hsame'
      · exact .inl (h'.covered hcovered)
      · exact .inr (hsame.trans hsame')
  now := Int.le_trans h.now h'.now
  handling := h'.handling.trans h.handling

def Relies : Slot → World → World → Prop
  | .watchdog, _, _ => True
  | .mainLoop, s, s' => LoopRelies s s'
  | .failover n, s, s' => n ∈ s'.underWay ↔ n ∈ s.underWay

theorem relies_refl (i : Slot) (s : World) : Relies i s s := by
  cases i with
  | watchdog => trivial
  | mainLoop => exact ⟨id, .inr rfl, Int.le_refl _, rfl⟩
  | failover n => exact Iff.rfl

theorem Relies.trans {i : Slot} {s s' s'' : World} (h : Relies i s s') (h' : Relies i s' s'') :
    Relies i s s'' := by
  cases i with
  | watchdog => trivial
  | mainLoop => exact LoopRelies.trans h h'
  | failover n => exact Iff.trans h' h

/-- The system in which the condition is met. -/
abbrev honoured (cfg : Config) : System Slot Call.Ret Exc Unit World :=
  (triggerSystem cfg).restrict Honoured

/-- The main loop leaves the trigger in place, and the thread of a failover does not end
before the failover has promoted the node or has failed. -/
def triggerContract (cfg : Config) : Contract (honoured cfg) where
  inv _ := True
  rely := Relies
  refl := relies_refl
  trans _ _ _ _ := Relies.trans
  start i program s := match i with
    | .watchdog => program = HeartbeatManager.watchdogPass cfg
    | .mainLoop => program = PgHaDaemon.mainLoopPass cfg ∧ Covered s
    | .failover n => (∃ skipFence, program = PgHaDaemon.runFailover cfg skipFence) ∧
        n ∈ s.underWay
  post i outcome s := match i with
    | .watchdog => True
    | .mainLoop => outcome ≠ .stuck → Covered s
    | .failover n => outcome ≠ .stuck → n ∉ s.underWay
  stable i outcome s s' hrely _ hpost := by
    cases i with
    | watchdog => trivial
    | mainLoop => exact fun hended => hrely.covered (hpost hended)
    | failover n => exact fun hended hmem => hpost hended (hrely.mp hmem)

/-- A thread among the others. -/
abbrev among (cfg : Config) (i : Slot) : Transformer Call.Ret Exc World :=
  (triggerContract cfg).thread i

variable {i : Slot} {α β : Type}

theorem among_monotone : (among cfg i).Monotone := (triggerContract cfg).thread_monotone i

/-- What a step of a thread means to the others. -/
theorem relies_of_step {s s' : World} (hloop : i ≠ .mainLoop → LoopRelies s s')
    (hother : ∀ n, i ≠ .failover n → (n ∈ s'.underWay ↔ n ∈ s.underWay)) (j : Slot) (hj : j ≠ i) :
    Relies j s s' := by
  cases j with
  | watchdog => trivial
  | mainLoop => exact hloop hj.symm
  | failover n => exact hother n hj.symm

/-- The rule for an operation that starts no failover. -/
theorem triple_perform {op : Call} {P : World → Prop} {Q : op.Ret → World → Prop}
    {E : World → Prop} (hstable : (triggerContract cfg).Stable i P)
    (hop : ∀ skipFence, op ≠ .host (.startThread (.runFailover skipFence)))
    (hstep : ∀ s answer s', P s → Honoured i s ⟨op, answer⟩ → triggerStep i s ⟨op, answer⟩ s' →
      (triggerContract cfg).Keeping i (Prog.ending Q E (Prog.answered answer) s') s s') :
    Prog.Triple (among cfg i) P (Prog.perform op) Q E := by
  refine Contract.triple_perform hstable ?_ fun s answer s' _ hs h => hstep s answer s' hs h.1 h.2
  rintro j s answer s' child ⟨-, -, n, skipFence, -, hevent, -⟩
  obtain ⟨rfl, -⟩ := Event.mk.inj hevent
  exact hop skipFence rfl

/-- The operations that have nothing to do with the trigger. -/
def Quiet : Call → Prop
  | .host (.setRole _) | .host (.setAttempts _) | .host (.setLastAttemptTs _)
  | .host .clearPeerAlive | .host (.putEvent _) | .host .getEvent
  | .host (.startThread (.runFailover _)) => False
  | _ => True

theorem eq_of_quiet {s s' : World} {event : Event Call.Ret Exc} (hquiet : Quiet event.op)
    (h : triggerStep i s event s') : s' = s := by
  obtain ⟨op, answer⟩ := event
  cases op with
  | disk call => exact h
  | net call => exact h
  | host call =>
      cases call
      case startThread task => cases task <;> first | exact hquiet.elim | exact h
      all_goals first | exact hquiet.elim | exact h | exact h.2

theorem keeping_refl {s : World} {kept : Prop} (h : kept) :
    (triggerContract cfg).Keeping i kept s s :=
  ⟨trivial, fun j _ => relies_refl j s, h⟩

theorem keeps_of_quiet {P : World → Prop} (hstable : (triggerContract cfg).Stable i P)
    {program : Mgr α} (hcalls : program.Calls Quiet) : Prog.Keeps (among cfg i) P program := by
  refine Contract.keeps_of_step hstable ?_ ?_ hcalls
  · rintro op hquiet j s answer s' child ⟨-, -, n, skipFence, -, hevent, -⟩
    obtain ⟨rfl, -⟩ := Event.mk.inj hevent
    exact hquiet
  · intro s event s' hquiet _ hs h
    obtain rfl := eq_of_quiet hquiet h.2
    exact keeping_refl hs

/-- An operation that does not raise, and what comes after it. -/
theorem perform_bind {op : Call} {P : World → Prop} {Q : op.Ret → World → Prop}
    {R : α → World → Prop} {E : World → Prop} {next : op.Ret → Mgr α}
    (h : Prog.Triple (among cfg i) P (Prog.perform op) Q fun _ => False)
    (hnext : ∀ value, Prog.Triple (among cfg i) (Q value) (next value) R E) :
    Prog.Triple (among cfg i) P ((Prog.perform op).bind next) R E :=
  .bind among_monotone (h.conseq among_monotone (fun _ => id) (fun _ _ => id)
    fun _ => False.elim) hnext

/-- Putting an event does not raise. -/
theorem emit_triple {P Q : World → Prop} {eventType : HaEventType} {message : String}
    (hstable : (triggerContract cfg).Stable i P)
    (hstep : ∀ s answer s', P s →
      Honoured i s ⟨.host (.putEvent ⟨eventType, cfg.cluster.nodeName, message⟩), answer⟩ →
      s' = s.emitted i ⟨eventType, cfg.cluster.nodeName, message⟩ →
      (triggerContract cfg).Keeping i (Q s') s s') :
    Prog.Triple (among cfg i) P (emit cfg eventType message) (fun _ => Q) fun _ => False := by
  intro s hs
  rw [emit, Prog.wp_except, Prog.wp_perform]
  refine Contract.thread_of_step P hs hstable ?_ fun s hs _ answer s' h => ?_
  · rintro j s answer s' child ⟨-, -, n, skipFence, -, hevent, -⟩
    cases hevent
  · obtain ⟨hhonoured, hanswer, hs'⟩ := h
    obtain ⟨hinv, hrelies, hkept⟩ := hstep s answer s' hs hhonoured hs'
    refine ⟨hinv, hrelies, ?_⟩
    rw [hanswer]
    split
    · exact hkept
    · exact hkept

/-! ## The watchdog -/

section Watchdog

/-- The operations of the watchdog. -/
def Watching : Call → Prop
  | .host .clearPeerAlive => True
  | .host (.putEvent event) => event.eventType = .peerDead
  | op => Quiet op

theorem watching_cases {op : Call} (hop : Watching op) :
    op = .host .clearPeerAlive ∨
      (∃ event : HaEvent, event.eventType = .peerDead ∧ op = .host (.putEvent event)) ∨
        Quiet op := by
  unfold Watching at hop
  split at hop
  · exact .inl rfl
  · exact .inr (.inl ⟨_, hop, rfl⟩)
  · exact .inr (.inr hop)

theorem watchdogPass_watching : (HeartbeatManager.watchdogPass cfg).Calls Watching := by
  have hprobe : (isPeerPgReachable cfg).Calls Watching := by
    refine .bind (.attempt (Prog.Calls.perform trivial)) fun result => ?_
    cases result with
    | ok _ => trivial
    | error exc => exact .ite trivial trivial
  refine .perform_bind trivial fun _ => .perform_bind trivial fun times => .ite trivial ?_
  refine .perform_bind trivial fun now =>
    .ite (.bind hprobe fun reachable => .ite trivial ?_) trivial
  exact .perform_bind trivial fun _ => emit_calls_of rfl

/-- The watchdog has cleared the flag, and is to put an event. -/
theorem loopRelies_clear (s : World) :
    LoopRelies s { s with alive := false, declaring := true } where
  covered _ hdead := absurd hdead.declared (by simp)
  lastAttemptTs := .inr rfl
  now := Int.le_refl _
  handling := rfl

/-- The watchdog has put the event, or has found no room where it is not missed. -/
theorem loopRelies_declare {s : World} {event : HaEvent} (hdead : event.eventType = .peerDead)
    (hroom : s.queue.length < eventQueueSize ∨ Noticed s) :
    LoopRelies s (s.emitted .watchdog event) := by
  have hemitted : s.emitted .watchdog event = { s.enqueue event with declaring := false } := by
    unfold World.emitted
    rw [hdead]
  rw [hemitted]
  refine ⟨fun _ => ?_, .inr (enqueue_lastAttemptTs s event), Int.le_of_eq (by simp), by simp⟩
  rcases hroom with hroom | hnoticed
  · exact fun _ => .inl (queued_of_room hroom (by simp [isPeerDead, hdead]))
  · have hkept : Noticed { s.enqueue event with declaring := false } := hnoticed.enqueue
    exact covered_of_noticed hkept

theorem emitted_underWay_watchdog {s : World} {event : HaEvent} :
    (s.emitted .watchdog event).underWay = s.underWay := by
  unfold World.emitted
  split <;> simp_all

theorem watchdogPass_keeps :
    Prog.Keeps (among cfg .watchdog) (fun _ => True) (HeartbeatManager.watchdogPass cfg) := by
  refine Contract.keeps_of_step Contract.stable_true ?_ ?_ watchdogPass_watching
  · rintro op hwatching j s answer s' child ⟨-, hslot, -⟩
    cases hslot
  · intro s event s' hwatching _ _ ⟨hhonoured, h⟩
    obtain ⟨op, answer⟩ := event
    rcases watching_cases hwatching with rfl | ⟨event, hdead, rfl⟩ | hquiet
    · obtain ⟨-, rfl⟩ : answer = .ok () ∧ s' = { s with alive := false, declaring := true } := h
      exact ⟨trivial, relies_of_step (fun _ => loopRelies_clear s) fun _ _ => Iff.rfl, trivial⟩
    · obtain ⟨hanswer, rfl⟩ : answer = (if s.queue.length < eventQueueSize then .ok ()
        else .error ⟨.queueFull, ""⟩) ∧ s' = s.emitted .watchdog event := h
      refine ⟨trivial, relies_of_step (fun _ => loopRelies_declare hdead ?_) fun n _ => ?_, trivial⟩
      · by_cases hroom : s.queue.length < eventQueueSize
        · exact .inl hroom
        · rw [hanswer, if_neg hroom] at hhonoured
          exact .inr hhonoured
      · rw [emitted_underWay_watchdog]
    · obtain rfl := eq_of_quiet hquiet h
      exact keeping_refl trivial

end Watchdog

/-! ## The thread of a failover -/

section Attempt

variable {n : ℕ}

/-- The failover is under way. -/
def Trying (n : ℕ) (s : World) : Prop := n ∈ s.underWay

/-- The failover has promoted the node or has failed. -/
def Settled (n : ℕ) (s : World) : Prop := n ∉ s.underWay

theorem stable_trying : (triggerContract cfg).Stable (.failover n) (Trying n) :=
  fun _ _ hs hrely _ => hrely.mpr hs

theorem stable_settled : (triggerContract cfg).Stable (.failover n) (Settled n) :=
  fun _ _ hs hrely _ hmem => hs (hrely.mp hmem)

theorem mem_settle {s : World} {m : ℕ} :
    m ∈ (s.settle (.failover n)).underWay ↔ m ∈ s.underWay ∧ m ≠ n := by
  simp [World.settle]

theorem settled_settle (s : World) : Settled n (s.settle (.failover n)) :=
  fun hmem => (mem_settle.mp hmem).2 rfl

/-- Settling one failover says nothing of the others. -/
theorem other_settle {s : World} {m : ℕ} (hm : Slot.failover n ≠ .failover m) :
    m ∈ (s.settle (.failover n)).underWay ↔ m ∈ s.underWay := by
  refine mem_settle.trans (and_iff_left fun h => hm ?_)
  rw [h]

/-- What a promoted node does next, its peer's death does not trigger. -/
theorem loopRelies_promote (s : World) :
    LoopRelies s ({ s with role := .primary }.settle (.failover n)) where
  covered _ hdead := absurd hdead.standby (by simp [World.settle])
  lastAttemptTs := .inr rfl
  now := Int.le_refl _
  handling := rfl

theorem settle_enqueue (s : World) (event : HaEvent) (slot : Slot) :
    (s.enqueue event).settle slot = (s.settle slot).enqueue event := by
  cases slot with
  | failover n =>
      by_cases hroom : s.queue.length < eventQueueSize <;> simp [World.enqueue, World.settle, hroom]
  | _ => rfl

/-- A failover fails where it is not missed. -/
theorem loopRelies_fail {s : World} {event : HaEvent} (h : Noticed (s.settle (.failover n))) :
    LoopRelies s ((s.enqueue event).settle (.failover n)) where
  covered _ := by
    rw [settle_enqueue]
    exact covered_of_noticed h.enqueue
  lastAttemptTs := .inr (enqueue_lastAttemptTs s event)
  now := Int.le_of_eq (enqueue_now s event).symm
  handling := enqueue_handling s event

theorem loopRelies_enqueue (s : World) (event : HaEvent) : LoopRelies s (s.enqueue event) where
  covered hs hdead := by
    have hwas : Dead s := by
      refine ⟨?_, ?_, ?_, ?_⟩
      · exact (enqueue_role s event).symm.trans hdead.standby
      · exact fun h => hdead.heard ((enqueue_lastTs s event).trans h)
      · exact (enqueue_alive s event).symm.trans hdead.dead
      · exact (enqueue_declaring s event).symm.trans hdead.declared
    rcases hs hwas with hqueued | hunder
    · exact .inl (queued_enqueue hqueued)
    · exact .inr (by rwa [enqueue_underWay])
  lastAttemptTs := .inr (enqueue_lastAttemptTs s event)
  now := Int.le_of_eq (enqueue_now s event).symm
  handling := enqueue_handling s event

/-- An event of a failover, but for the one of its failure. -/
theorem emitted_of_ne {s : World} {event : HaEvent} (h : event.eventType ≠ .failoverFailed) :
    s.emitted (.failover n) event = s.enqueue event := by
  unfold World.emitted
  split <;> simp_all

/-- The operations of a failover that has been recorded. -/
def Working : Call → Prop
  | .host (.setAttempts _) => True
  | .host (.setRole role) => role = .primary
  | .host (.putEvent event) => event.eventType ≠ .failoverFailed
  | op => Quiet op

theorem working_cases {op : Call} (hop : Working op) :
    (∃ attempts, op = .host (.setAttempts attempts)) ∨ op = .host (.setRole .primary) ∨
      (∃ event : HaEvent, event.eventType ≠ .failoverFailed ∧ op = .host (.putEvent event)) ∨
        Quiet op := by
  unfold Working at hop
  split at hop
  · exact .inl ⟨_, rfl⟩
  · subst hop
    exact .inr (.inl rfl)
  · exact .inr (.inr (.inl ⟨_, hop, rfl⟩))
  · exact .inr (.inr (.inr hop))

theorem working_of_working {op : Call} (hop : op.working) : Working op := by
  cases op with
  | disk call => trivial
  | net call => trivial
  | host call =>
      cases call
      case setRole role => exact hop
      case putEvent event => exact hop
      all_goals first | exact hop.elim | trivial

/-- A recorded failover goes on, and is settled once it has promoted the node. -/
theorem step_of_working {s s' : World} {event : Event Call.Ret Exc} (hop : Working event.op)
    (h : triggerStep (.failover n) s event s') :
    LoopRelies s s' ∧ (∀ m, Slot.failover n ≠ .failover m → (m ∈ s'.underWay ↔ m ∈ s.underWay)) ∧
      (Settled n s → Settled n s') := by
  obtain ⟨op, answer⟩ := event
  rcases working_cases hop with ⟨attempts, rfl⟩ | rfl | ⟨event, hevent, rfl⟩ | hquiet
  · obtain ⟨-, rfl⟩ : answer = .ok () ∧ s' = { s with attempts := attempts } := h
    refine ⟨⟨fun hs hdead => hs ?_, .inr rfl, Int.le_refl _, rfl⟩, fun _ _ => Iff.rfl, id⟩
    exact ⟨hdead.standby, hdead.heard, hdead.dead, hdead.declared⟩
  · obtain ⟨-, rfl⟩ : answer = .ok () ∧
      s' = World.settle { s with role := .primary } (.failover n) := h
    exact ⟨loopRelies_promote s, fun m hm => other_settle hm, fun _ => settled_settle _⟩
  · have hs' : s' = s.emitted (.failover n) event := h.2
    rw [emitted_of_ne hevent] at hs'
    subst hs'
    refine ⟨loopRelies_enqueue s event, fun m _ => by rw [enqueue_underWay], fun hs => ?_⟩
    rwa [Settled, enqueue_underWay]
  · obtain rfl := eq_of_quiet hquiet h
    exact ⟨⟨id, .inr rfl, Int.le_refl _, rfl⟩, fun _ _ => Iff.rfl, id⟩

theorem not_fork_failover {j : Slot} {s s' : World} {event : Event Call.Ret Exc}
    {child : Mgr Unit} : ¬ (honoured cfg).fork (.failover n) j s event s' child := by
  rintro ⟨-, hslot, -⟩
  cases hslot

theorem working_keeps {program : Mgr α} (hcalls : program.Calls Working) :
    Prog.Keeps (among cfg (.failover n)) (fun _ => True) program := by
  refine Contract.keeps_of_step Contract.stable_true
    (fun _ _ _ _ _ _ _ => not_fork_failover) ?_ hcalls
  intro s event s' hop _ _ h
  obtain ⟨hloop, hother, -⟩ := step_of_working hop h.2
  exact ⟨trivial, relies_of_step (fun _ => hloop) hother, trivial⟩

theorem settled_keeps {program : Mgr α} (hcalls : program.Calls Working) :
    Prog.Keeps (among cfg (.failover n)) (Settled n) program := by
  refine Contract.keeps_of_step stable_settled (fun _ _ _ _ _ _ _ => not_fork_failover) ?_ hcalls
  intro s event s' hop _ hs h
  obtain ⟨hloop, hother, hsettled⟩ := step_of_working hop h.2
  exact ⟨trivial, relies_of_step (fun _ => hloop) hother, hsettled hs⟩

/-- The step of a failover that is promoted settles it, if it succeeds. -/
theorem stepPromote_triple : Prog.Triple (among cfg (.failover n)) (fun _ => True)
    (stepPromote cfg) (fun _ => Settled n) fun _ => True := by
  have hset : Prog.Triple (among cfg (.failover n)) (fun _ => True)
      (Mgr.host (.setRole .primary)) (fun _ => Settled n) fun _ => False := by
    refine triple_perform Contract.stable_true (by simp) fun s answer s' _ _ h => ?_
    obtain ⟨rfl, rfl⟩ : answer = .ok () ∧
      s' = World.settle { s with role := .primary } (.failover n) := h
    exact ⟨trivial, relies_of_step (fun _ => loopRelies_promote s) fun m hm => other_settle hm,
      settled_settle _⟩
  have hrest : Prog.Calls Working (do
      Mgr.host (.setHealth .healthy)
      emit cfg .roleChanged s!"{cfg.cluster.nodeName} promoted to PRIMARY" : Mgr Unit) :=
    .perform_bind trivial fun _ => emit_calls_of (by simp [Working])
  refine perform_bind hset fun _ => ?_
  exact (settled_keeps hrest).conseq among_monotone (fun _ => id) (fun _ _ => id) fun _ _ => trivial

/-- What the loop does about a step that fails settles the failover. -/
theorem failed_triple (message : String) : Prog.Triple (among cfg (.failover n)) (fun _ => True)
    (do
      Mgr.host (.setHealth .failed)
      emit cfg .failoverFailed message
      pure false : Mgr Bool) (fun _ => Settled n) fun _ => False := by
  have hhealth : Prog.Triple (among cfg (.failover n)) (fun _ => True)
      (Mgr.host (.setHealth .failed)) (fun _ _ => True) fun _ => False := by
    refine triple_perform Contract.stable_true (by simp) fun s answer s' _ _ h => ?_
    obtain ⟨rfl, rfl⟩ := h
    exact keeping_refl trivial
  refine perform_bind hhealth fun _ => .bind among_monotone ?_ fun _ => .pure fun _ => id
  refine emit_triple Contract.stable_true fun s answer s' _ hhonoured hs' => ?_
  obtain rfl : s' = (s.enqueue _).settle (.failover n) := hs'
  refine ⟨trivial, relies_of_step (fun _ => loopRelies_fail (hhonoured rfl)) fun m hm => ?_, ?_⟩
  · rw [other_settle hm, enqueue_underWay]
  · exact settled_settle _

/-- However the loop over the steps ends, the failover is settled: by the last step, or by
the event of the failure. -/
theorem runSteps_triple (skipFence : Bool) {before : List (StepName × Mgr Unit)}
    (hbefore : ∀ step ∈ before, step.2.Calls Call.working) :
    Prog.Triple (among cfg (.failover n)) (fun _ => True)
      (runSteps cfg skipFence (before ++ [(.promote, stepPromote cfg)])) (fun _ => Settled n)
      fun _ => False := by
  have hmark (name : StepName) : Prog.Triple (among cfg (.failover n)) (fun _ => True)
      (Mgr.host (.mark (.step name))) (fun _ _ => True) fun _ => False := by
    refine triple_perform Contract.stable_true (by simp) fun s answer s' _ _ h => ?_
    obtain ⟨rfl, rfl⟩ := h
    exact keeping_refl trivial
  induction before with
  | nil =>
      have hpromote : ¬ skipped skipFence .promote = true := by simp [skipped]
      refine .ite (fun h => absurd h hpromote) fun _ => perform_bind (hmark _) fun _ => ?_
      refine .bind among_monotone (stepPromote_triple.attempt among_monotone) fun result => ?_
      cases result with
      | ok _ => exact .pure fun _ => id
      | error exc => exact failed_triple _
  | cons step before ih =>
      have hrest := ih fun other hother => hbefore other (List.mem_cons_of_mem _ hother)
      refine .ite (fun _ => hrest) fun _ => perform_bind (hmark _) fun _ => ?_
      have hstep : step.2.Calls Working :=
        (hbefore step List.mem_cons_self).mono fun _ => working_of_working
      refine .bind among_monotone ((working_keeps hstep).attempted among_monotone) fun result => ?_
      cases result with
      | ok _ => exact hrest
      | error exc => exact failed_triple _

/-- The record of an attempt: until it is made, the failover is under way. -/
theorem record_triple (now : Int) : Prog.Triple (among cfg (.failover n)) (Trying n)
    (Mgr.host (.setLastAttemptTs now)) (fun _ _ => True) fun _ => False := by
  refine triple_perform stable_trying (by simp) fun s answer s' hs _ h => ?_
  obtain ⟨rfl, rfl⟩ := h
  have hunder : s.underWay ≠ [] := List.ne_nil_of_mem hs
  refine ⟨trivial, relies_of_step (fun _ => ?_) fun _ _ => Iff.rfl, trivial⟩
  exact ⟨fun _ _ => .inr hunder, .inl fun _ => .inr hunder, Int.le_refl _, rfl⟩

/-- An operation that does not raise and leaves everything as it is. -/
theorem answered_triple {op : Call} (hop : Quiet op)
    (hanswer : ∀ s answer s', triggerStep (.failover n) s ⟨op, answer⟩ s' →
      ∃ value, answer = .ok value) :
    Prog.Triple (among cfg (.failover n)) (Trying n) (Prog.perform op) (fun _ => Trying n)
      fun _ => False := by
  refine triple_perform stable_trying ?_ fun s answer s' hs _ h => ?_
  · rintro skipFence rfl
    exact hop
  · obtain ⟨value, rfl⟩ := hanswer s answer s' h
    obtain rfl := eq_of_quiet hop h
    exact keeping_refl hs

theorem execute_triple (skipFence : Bool) : Prog.Triple (among cfg (.failover n)) (Trying n)
    (execute cfg skipFence) (fun _ => Settled n) (Settled n) := by
  have hcount (attempts : ℕ) : Prog.Triple (among cfg (.failover n)) (Trying n)
      (Mgr.host (.setAttempts attempts)) (fun _ => Trying n) fun _ => False := by
    refine triple_perform stable_trying (by simp) fun s answer s' hs _ h => ?_
    obtain ⟨rfl, rfl⟩ := h
    have hunder : s.underWay ≠ [] := List.ne_nil_of_mem hs
    refine ⟨trivial, relies_of_step (fun _ => ?_) fun _ _ => Iff.rfl, hs⟩
    exact ⟨fun _ _ => .inr hunder, .inr rfl, Int.le_refl _, rfl⟩
  have hcurrent : Prog.Triple (among cfg (.failover n)) (fun _ => True)
      (Mgr.host .attempts) (fun _ _ => True) fun _ => False := by
    refine triple_perform Contract.stable_true (by simp) fun s answer s' _ _ h => ?_
    obtain ⟨rfl, rfl⟩ := h
    exact keeping_refl trivial
  have hstarted (message : String) : Prog.Triple (among cfg (.failover n)) (fun _ => True)
      (emit cfg .failoverStarted message) (fun _ _ => True) fun _ => False := by
    refine emit_triple Contract.stable_true fun s answer s' _ _ hs' => ?_
    obtain rfl : s' = s.enqueue _ := hs'
    refine ⟨trivial, relies_of_step (fun _ => loopRelies_enqueue s _) fun m _ => ?_, trivial⟩
    rw [enqueue_underWay]
  -- only the last step takes the role
  have hbefore : ∀ step ∈ (steps cfg).dropLast, step.2.Calls Call.working :=
    fun step hstep => steps_working cfg step (List.dropLast_subset _ hstep)
  have hend (succeeded : Bool) : Prog.Calls Working (if succeeded = true then do
      Mgr.host (.setAttempts 0)
      emit cfg .failoverCompleted "Failover succeeded — this node is now PRIMARY"
      pure true
    else pure false : Mgr Bool) :=
    .ite (.perform_bind trivial fun _ => .bind (emit_calls_of (by simp [Working])) fun _ => trivial)
      trivial
  refine perform_bind (answered_triple trivial fun _ _ _ h => ⟨_, h.1⟩) fun _ => ?_
  refine .ensuring among_monotone (R := Settled n) ?_ (settled_keeps (Prog.Calls.perform trivial))
  refine perform_bind (answered_triple trivial fun _ _ _ h => ⟨_, h.1⟩) fun attempts => ?_
  refine perform_bind (hcount _) fun _ => ?_
  refine perform_bind (answered_triple trivial fun _ _ _ h => ⟨_, h.1⟩) fun now => ?_
  refine perform_bind (record_triple now) fun _ => perform_bind hcurrent fun current => ?_
  refine .bind among_monotone ((hstarted _).conseq among_monotone (fun _ => id) (fun _ _ => id)
    fun _ => False.elim) fun _ => ?_
  refine .bind among_monotone ((runSteps_triple skipFence hbefore).conseq among_monotone
    (fun _ => id) (fun _ _ => id) fun _ => False.elim) fun succeeded => ?_
  exact settled_keeps (hend succeeded)

theorem runFailover_triple (skipFence : Bool) : Prog.Triple (among cfg (.failover n)) (Trying n)
    (PgHaDaemon.runFailover cfg skipFence) (fun _ => Settled n) (Settled n) := by
  refine .bind among_monotone (execute_triple skipFence) fun succeeded => settled_keeps ?_
  exact .ite (PgHaDaemon.efmStart_calls cfg fun _ => trivial) trivial

end Attempt

/-! ## The main loop -/

section MainLoop

/-- The main loop has taken a `PEER_DEAD` from the queue. -/
def Facing (s : World) : Prop := s.handling = true

theorem stable_covered : (triggerContract cfg).Stable .mainLoop Covered :=
  fun _ _ hs hrely _ => hrely.covered hs

theorem stable_facing : (triggerContract cfg).Stable .mainLoop Facing :=
  fun _ _ hs hrely _ => hrely.handling.trans hs

/-- The failover that the counter, as it was read, permits. -/
def Due (attempts : ℕ) (s : World) : Prop :=
  Covered s ∨ attempts < maxAttempts ∧
    (attempts = 0 ∨ retryBackoffMillis ≤ s.now - s.lastAttemptTs)

/-- The time has been read as well. -/
def DueAt (attempts : ℕ) (now : Int) (s : World) : Prop :=
  Covered s ∨ attempts < maxAttempts ∧
    (attempts = 0 ∨ retryBackoffMillis ≤ now - s.lastAttemptTs)

theorem stable_due {attempts : ℕ} : (triggerContract cfg).Stable .mainLoop (Due attempts) := by
  intro s s' hs hrely _
  rcases hs with hcovered | ⟨hfew, hdue⟩
  · exact .inl (hrely.covered hcovered)
  · rcases hrely.lastAttemptTs with hcovered | hsame
    · exact .inl hcovered
    · have hnow := hrely.now
      exact .inr ⟨hfew, by omega⟩

theorem stable_dueAt {attempts : ℕ} {now : Int} :
    (triggerContract cfg).Stable .mainLoop (DueAt attempts now) := by
  intro s s' hs hrely _
  rcases hs with hcovered | ⟨hfew, hdue⟩
  · exact .inl (hrely.covered hcovered)
  · rcases hrely.lastAttemptTs with hcovered | hsame
    · exact .inl hcovered
    · exact .inr ⟨hfew, by rwa [hsame]⟩

theorem isStandby_triple : Prog.Triple (among cfg .mainLoop) Facing LocalNode.isStandby
    (fun standby s => Facing s ∧ (standby = false → Covered s)) Covered := by
  have hrole : Prog.Triple (among cfg .mainLoop) Facing (Mgr.host .role)
      (fun role s => Facing s ∧ (role ≠ .standby → Covered s)) fun _ => False := by
    refine triple_perform stable_facing (by simp) fun s answer s' hs _ h => ?_
    obtain ⟨rfl, rfl⟩ := h
    exact keeping_refl ⟨hs, fun hrole => covered_of_noticed (.inl hrole)⟩
  refine perform_bind hrole fun role => .pure fun s hs => ⟨hs.1, fun hother => hs.2 ?_⟩
  rintro rfl
  cases hother

theorem isMaintenance_triple : Prog.Triple (among cfg .mainLoop) Facing
    (PgHaDaemon.isMaintenance cfg) (fun on s => Facing s ∧ (on = true → Covered s))
    fun _ => False := by
  refine triple_perform stable_facing (by simp) fun s answer s' hs hhonoured h => ?_
  obtain ⟨rfl, rfl⟩ := h
  refine keeping_refl ⟨hs, fun hon => ?_⟩
  rcases hhonoured hs with hoff | hnoticed
  · rw [hoff] at hon
    cases hon
  · exact covered_of_noticed hnoticed

theorem attempts_triple : Prog.Triple (among cfg .mainLoop) Facing (Mgr.host .attempts)
    (fun attempts s => Facing s ∧ Due attempts s) fun _ => False := by
  refine triple_perform stable_facing (by simp) fun s answer s' hs hhonoured h => ?_
  obtain ⟨rfl, rfl⟩ := h
  refine keeping_refl ⟨hs, ?_⟩
  rcases hhonoured hs with hpermitted | hnoticed
  · exact .inr hpermitted
  · exact .inl (covered_of_noticed hnoticed)

theorem monotonic_triple {attempts : ℕ} : Prog.Triple (among cfg .mainLoop)
    (fun s => Facing s ∧ Due attempts s) (Mgr.host .monotonic)
    (fun now s => Facing s ∧ DueAt attempts now s) fun _ => False := by
  refine triple_perform (stable_facing.and stable_due) (by simp) fun s answer s' hs _ h => ?_
  obtain ⟨rfl, rfl⟩ := h
  exact keeping_refl hs

theorem lastAttemptTs_triple {attempts : ℕ} {now : Int} : Prog.Triple (among cfg .mainLoop)
    (fun s => Facing s ∧ DueAt attempts now s) (Mgr.host .lastAttemptTs)
    (fun lastAttempt s => Facing s ∧ (¬ (attempts < maxAttempts ∧
      (attempts = 0 ∨ retryBackoffMillis ≤ now - lastAttempt)) → Covered s)) fun _ => False := by
  refine triple_perform (stable_facing.and stable_dueAt) (by simp) fun s answer s' hs _ h => ?_
  obtain ⟨rfl, rfl⟩ := h
  exact keeping_refl ⟨hs.1, hs.2.resolve_right⟩

theorem shouldAttempt_triple : Prog.Triple (among cfg .mainLoop) Facing shouldAttempt
    (fun permitted s => Facing s ∧ (permitted = false → Covered s)) Covered := by
  refine .bind among_monotone isStandby_triple fun standby => .ite (fun hother => ?_) fun _ => ?_
  · exact .pure fun s hs => ⟨hs.1, fun _ => hs.2 (by simpa using hother)⟩
  refine Prog.Triple.conseq among_monotone (P := Facing) ?_ (fun _ hs => hs.1) (fun _ _ => id)
    fun _ => id
  refine perform_bind attempts_triple fun attempts => .ite (fun hmany => ?_) fun hfew => ?_
  · refine .pure fun s hs => ⟨hs.1, fun _ => hs.2.resolve_right fun hdue => ?_⟩
    exact absurd hdue.1 (Nat.not_lt.mpr hmany)
  · refine perform_bind monotonic_triple fun now => perform_bind lastAttemptTs_triple ?_
    refine fun lastAttempt => .pure fun s hs => ⟨hs.1, fun hrefused => hs.2 fun hdue => ?_⟩
    have hpositive : 0 < attempts ∧ now - lastAttempt < retryBackoffMillis := by
      simpa using hrefused
    rcases hdue.2 with hnone | hlate
    · exact absurd hnone (Nat.ne_of_gt hpositive.1)
    · exact absurd hpositive.2 (Int.not_lt.mpr hlate)

/-- A thread that is started is a failover under way; one that cannot be started does not
take the place of the trigger. -/
theorem startThread_triple (skipFence : Bool) : Prog.Triple (among cfg .mainLoop)
    (fun s => Covered s ∨ Facing s) (Mgr.host (.startThread (.runFailover skipFence)))
    (fun _ => Covered) Covered := by
  refine .perform fun s hs s₁ hrely _ answer => ?_
  have hends {s₂ : World} (h : Covered s₂) : Prog.ending (fun _ => Covered) Covered
      (Prog.answered answer) s₂ := by
    cases answer <;> exact h
  have hs₁ : Covered s₁ ∨ Facing s₁ :=
    hs.imp (fun h => hrely.covered h) fun h => hrely.handling.trans h
  constructor
  · rintro s₂ ⟨hhonoured, ⟨exc, rfl⟩, rfl⟩
    refine ⟨trivial, fun j _ => relies_refl j s₂, ?_⟩
    rcases hs₁ with hcovered | hfacing
    · exact hcovered
    · exact covered_of_noticed (hhonoured hfacing)
  · rintro j s₂ child ⟨-, -, n, skipFence', rfl, -, rfl, rfl⟩ -
    refine ⟨trivial, fun l hl hother => ?_, ⟨⟨skipFence', rfl⟩, List.mem_cons_self⟩, hends ?_⟩
    · cases l with
      | watchdog => trivial
      | mainLoop => exact absurd rfl hl
      | failover m =>
          have hne : m ≠ n := fun h => hother (by rw [h])
          exact List.mem_cons.trans (or_iff_right hne)
    · exact fun _ => .inr (List.cons_ne_nil _ _)

/-- The check and what it permits, for a `PEER_DEAD` that the main loop faces. -/
theorem attempt_triple : Prog.Triple (among cfg .mainLoop) Facing
    (do
      if ← shouldAttempt then
        Mgr.host (.startThread (.runFailover false))) (fun _ => Covered) Covered := by
  refine .bind among_monotone shouldAttempt_triple fun permitted =>
    .ite (fun _ => ?_) fun hrefused => ?_
  · exact (startThread_triple false).conseq among_monotone (fun s hs => .inr hs.1) (fun _ _ => id)
      fun _ => id
  · exact .pure fun s hs => hs.2 (by simpa using hrefused)

theorem covered_of_quiet {program : Mgr α} (hcalls : program.Calls Quiet) :
    Prog.Keeps (among cfg .mainLoop) Covered program := keeps_of_quiet stable_covered hcalls

theorem withFailoverLock_triple {body : Mgr Unit}
    (hbody : Prog.Triple (among cfg .mainLoop) Facing body (fun _ => Covered) Covered) :
    Prog.Triple (among cfg .mainLoop) Facing (PgHaDaemon.withFailoverLock body)
      (fun _ => Covered) Covered := by
  have hacquire : Prog.Triple (among cfg .mainLoop) Facing
      (Mgr.host (.acquireFailoverLock true)) (fun _ => Facing) fun _ => False := by
    refine triple_perform stable_facing (by simp) fun s answer s' hs _ h => ?_
    obtain ⟨⟨locked, rfl⟩, rfl⟩ := h
    exact keeping_refl hs
  refine perform_bind hacquire fun locked => .ensuring among_monotone hbody ?_
  exact covered_of_quiet (Prog.Calls.perform trivial)

/-- A `PEER_DEAD` that is handled is not lost. -/
theorem handleEvent_triple {evt : HaEvent} (hdead : evt.eventType = .peerDead) :
    Prog.Triple (among cfg .mainLoop) Facing (PgHaDaemon.handleEvent cfg evt)
      (fun _ => Covered) Covered := by
  refine .ite (fun _ => ?_) fun hother => absurd hdead hother
  refine .bind among_monotone isStandby_triple fun standby => .ite (fun _ => ?_) fun hother => ?_
  · refine Prog.Triple.conseq among_monotone (P := Facing) ?_ (fun _ hs => hs.1) (fun _ _ => id)
      fun _ => id
    refine .bind among_monotone (isMaintenance_triple.conseq among_monotone (fun _ => id)
      (fun _ _ => id) fun _ => False.elim) fun on => .ite (fun hon => ?_) fun _ => ?_
    · exact .pure fun s hs => hs.2 hon
    · exact (withFailoverLock_triple attempt_triple).conseq among_monotone (fun s hs => hs.1)
        (fun _ _ => id) fun _ => id
  · exact .pure fun s hs => hs.2 (by simpa using hother)

/-- An event of another kind is not handled at all. -/
theorem handleEvent_keeps {evt : HaEvent} (hother : evt.eventType ≠ .peerDead) :
    Prog.Keeps (among cfg .mainLoop) Covered (PgHaDaemon.handleEvent cfg evt) :=
  .ite (fun hdead => absurd hdead hother) fun _ => Prog.keeps_pure ()

/-- The next event is taken from the queue. -/
theorem getEvent_triple : Prog.Triple (among cfg .mainLoop) Covered (Mgr.host .getEvent)
    (fun evt s => if evt.eventType = .peerDead then Facing s else Covered s) Covered := by
  refine triple_perform stable_covered (by simp) fun s answer s' hs _ h => ?_
  have hcovered {rest : List HaEvent} {handling : Bool}
      (hqueued : s.queued = true → rest.any isPeerDead = true) :
      Covered { s with queue := rest, handling := handling } := by
    intro hdead
    have hwas : Dead s := ⟨hdead.standby, hdead.heard, hdead.dead, hdead.declared⟩
    exact (hs hwas).imp_left hqueued
  unfold triggerStep hostStep at h
  dsimp only at h
  split at h
  case h_1 hqueue =>
    obtain ⟨rfl, rfl⟩ := h
    refine ⟨trivial, relies_of_step (fun hne => absurd rfl hne) fun _ _ => Iff.rfl, ?_⟩
    exact hcovered id
  case h_2 evt rest hqueue =>
    obtain ⟨rfl, rfl⟩ := h
    refine ⟨trivial, relies_of_step (fun hne => absurd rfl hne) fun _ _ => Iff.rfl, ?_⟩
    show if evt.eventType = .peerDead then Facing _ else Covered _
    split
    · exact beq_iff_eq.mpr ‹_›
    · have hother : isPeerDead evt = false := beq_false_of_ne ‹_›
      refine hcovered fun hqueued => ?_
      simpa [World.queued, hqueue, hother] using hqueued

theorem drainEvents_keeps (fuel : ℕ) :
    Prog.Keeps (among cfg .mainLoop) Covered (PgHaDaemon.drainEvents cfg fuel) := by
  induction fuel with
  | zero => exact fun _ _ => trivial
  | succ fuel ih =>
      refine .bind among_monotone (getEvent_triple.attempt among_monotone) fun result => ?_
      cases result with
      | ok evt =>
          refine .bind among_monotone ?_ fun _ => ih
          dsimp only
          by_cases hdead : evt.eventType = .peerDead
          · simp only [if_pos hdead]
            exact handleEvent_triple hdead
          · simp only [if_neg hdead]
            exact handleEvent_keeps hdead
      | error exc => exact .ite (fun _ => Prog.keeps_pure ()) fun _ => Prog.keeps_raise exc

theorem tending_cases {op : Call} (hop : PgHaDaemon.Tending op) :
    op = .host (.setRole .standby) ∨ Quiet op := by
  cases op with
  | disk call => exact .inr trivial
  | net call => exact .inr trivial
  | host call =>
      cases call
      case setRole role =>
        obtain rfl : role = .standby := hop
        exact .inl rfl
      all_goals first | exact .inr trivial | exact hop.elim

/-- The housekeeping of the main loop leaves the trigger in place; a node does not become
STANDBY where it would miss one. -/
theorem tending_keeps {program : Mgr α} (hcalls : program.Calls PgHaDaemon.Tending) :
    Prog.Keeps (among cfg .mainLoop) Covered program := by
  refine Contract.keeps_of_step stable_covered ?_ ?_ hcalls
  · rintro op hop j s answer s' child ⟨-, -, n, skipFence, -, hevent, -⟩
    obtain ⟨rfl, -⟩ := Event.mk.inj hevent
    exact hop
  · intro s event s' hop _ hs h
    obtain ⟨op, answer⟩ := event
    rcases tending_cases hop with rfl | hquiet
    · obtain ⟨-, rfl⟩ : answer = .ok () ∧ s' = { s with role := .standby } := h.2
      refine ⟨trivial, relies_of_step (fun hne => absurd rfl hne) fun _ _ => Iff.rfl, ?_⟩
      exact covered_of_noticed h.1
    · obtain rfl := eq_of_quiet hquiet h.2
      exact keeping_refl hs

theorem shouldAttempt_quiet : shouldAttempt.Calls Quiet := by
  refine .bind (.perform_bind trivial fun role => trivial) fun standby => .ite trivial ?_
  refine .perform_bind trivial fun attempts => .ite trivial ?_
  exact .perform_bind trivial fun now => .perform_bind trivial fun lastAttempt => trivial

/-- A first part that has nothing to do with the trigger. -/
theorem covered_bind {program : Mgr α} {next : α → Mgr β} (hcalls : program.Calls Quiet)
    (hnext : ∀ value, Prog.Keeps (among cfg .mainLoop) Covered (next value)) :
    Prog.Keeps (among cfg .mainLoop) Covered (program.bind next) :=
  .bind among_monotone (covered_of_quiet hcalls) hnext

theorem heartbeatFallback_keeps :
    Prog.Keeps (among cfg .mainLoop) Covered (PgHaDaemon.heartbeatFallback cfg) := by
  have hone (op : Call) (hop : Quiet op) : (Prog.perform op : Mgr op.Ret).Calls Quiet :=
    Prog.Calls.perform hop
  refine covered_bind (hone _ trivial) fun now => covered_bind (hone _ trivial) fun demotion => ?_
  refine .bind among_monotone (tending_keeps (PgHaDaemon.fallbackAllowed_tending cfg _)) ?_
  refine fun allowed => .ite (fun _ => ?_) fun _ => Prog.keeps_pure ()
  refine covered_bind (hone _ trivial) fun peerSnap => .ite (fun _ => ?_) fun _ =>
    Prog.keeps_pure ()
  refine covered_bind (hone _ trivial) fun locked => .ite (fun _ => ?_) fun _ => Prog.keeps_pure ()
  refine .ensuring among_monotone (R := Covered) ?_ (covered_of_quiet (hone _ trivial))
  refine covered_bind (.perform_bind trivial fun role => trivial) fun standby =>
    .ite (fun _ => ?_) ?_
  · refine covered_bind shouldAttempt_quiet fun permitted => .ite (fun _ => ?_) ?_
    · exact (startThread_triple true).conseq among_monotone (fun s hs => .inl hs) (fun _ _ => id)
        fun _ => id
    · exact fun _ => Prog.keeps_pure ()
  · exact fun _ => Prog.keeps_pure ()

theorem mainLoopPass_keeps :
    Prog.Keeps (among cfg .mainLoop) Covered (PgHaDaemon.mainLoopPass cfg) := by
  refine .bind among_monotone (drainEvents_keeps _) fun _ => ?_
  exact .bind among_monotone (tending_keeps (PgHaDaemon.refreshState_tending cfg))
    fun _ => heartbeatFallback_keeps

end MainLoop

/-! ## All threads -/

theorem loopRelies_outside {s s' : World} (h : Outside s s') : LoopRelies s s' := by
  cases h with
  | heartbeat ts =>
      exact ⟨fun _ => covered_of_noticed (.inr (.inr (.inl rfl))), .inr rfl, Int.le_refl _, rfl⟩
  | maintenance on =>
      refine ⟨fun hs hdead => hs ?_, .inr rfl, Int.le_refl _, rfl⟩
      exact ⟨hdead.standby, hdead.heard, hdead.dead, hdead.declared⟩
  | event event => exact loopRelies_enqueue s event
  | time now hnow =>
      refine ⟨fun hs hdead => hs ?_, .inr rfl, hnow, rfl⟩
      exact ⟨hdead.standby, hdead.heard, hdead.dead, hdead.declared⟩

theorem underWay_outside {s s' : World} (h : Outside s s') : s'.underWay = s.underWay := by
  cases h with
  | event event => exact enqueue_underWay s event
  | _ => rfl

theorem triggerContract_holds : (triggerContract cfg).Holds where
  start i program s _ hstart := by
    cases i with
    | watchdog =>
        subst hstart
        exact Prog.wp_mono among_monotone (fun _ _ _ => trivial) (watchdogPass_keeps s trivial)
    | mainLoop =>
        obtain ⟨rfl, hcovered⟩ := hstart
        apply Prog.wp_mono among_monotone _ (mainLoopPass_keeps s hcovered)
        intro outcome s' hend hended
        cases outcome with
        | stuck => exact absurd rfl hended
        | _ => exact hend
    -- a failover is under way until it has promoted the node or failed
    | failover n =>
        obtain ⟨⟨skipFence, rfl⟩, hunder⟩ := hstart
        apply Prog.wp_mono among_monotone _ (runFailover_triple skipFence s hunder)
        intro outcome s' hend hended
        cases outcome with
        | stuck => exact absurd rfl hended
        | _ => exact hend
  arrive i s program s' _ harrive hended := by
    obtain ⟨rfl, hcase⟩ := harrive
    obtain ⟨outcome, hnot, hpost⟩ := hended
    refine ⟨trivial, fun j _ => relies_refl j s', ?_⟩
    rcases hcase with ⟨rfl, rfl⟩ | ⟨rfl, rfl⟩
    · exact rfl
    · exact ⟨rfl, hpost hnot⟩
  env s s' _ henv := by
    refine ⟨trivial, fun i => ?_⟩
    cases i with
    | watchdog => trivial
    | mainLoop => exact loopRelies_outside henv
    | failover n => exact iff_of_eq (by rw [underWay_outside henv])

theorem sound_of_begin (role : NodeRole) (now : Int) :
    (triggerContract cfg).Sound (begin role now) := by
  refine ⟨trivial, fun i => ?_⟩
  cases i with
  | watchdog => trivial
  | mainLoop => exact fun _ hdead => absurd rfl hdead.heard
  | failover n => exact fun _ hmem => absurd hmem List.not_mem_nil

/-- **No lost trigger.**  If the condition is met, a `PEER_DEAD` is queued in every state at
rest in which the node could take over from a dead peer. -/
theorem keepsTrigger (cfg : Config) : KeepsTrigger cfg (honoured cfg) := by
  intro role now state hreach hrest hwaiting
  have hsound := triggerContract_holds.reach hreach (sound_of_begin role now)
  have hcovered : Covered state.shared := by
    obtain ⟨outcome, hnot, hpost⟩ := (hsound.2 .mainLoop).of_finished hrest.mainLoop
    exact hpost hnot
  have hsettled : state.shared.underWay = [] := by
    refine List.eq_nil_iff_forall_not_mem.mpr fun n => ?_
    obtain ⟨outcome, hnot, hpost⟩ := (hsound.2 (.failover n)).of_finished (hrest.failovers n)
    exact hpost hnot
  have hdead : Dead state.shared :=
    ⟨hwaiting.standby, hwaiting.heard, hwaiting.dead, hrest.calm⟩
  rcases hcovered hdead with hqueued | hunder
  · exact .inl hqueued
  · exact absurd hsettled hunder

/-! ## Sample runs -/

section Sample

/-- The Compute API does not answer, and the peer refuses a connection. -/
def obey (slot : Slot) : (op : Call) → World → Except Exc op.Ret × World
  | .disk call, s =>
      match call with
      | .getInstanceStatus .. => (.ok "UNKNOWN", s)
      | call => (call.reply, s)
  | .net _, s => (.ok (), s)
  | .host call, s =>
      let node : DaemonState := ⟨{ name := "" }, 0, 0, "UNKNOWN", false, false, 0⟩
      match call with
      | .role => (.ok s.role, s)
      | .setRole role => (.ok (), s.enact slot role)
      | .isfile _ => (.ok s.maintenance, s)
      | .isPeerAlive => (.ok s.alive, s)
      | .attempts => (.ok s.attempts, s)
      | .setAttempts attempts => (.ok (), { s with attempts := attempts })
      | .lastAttemptTs => (.ok s.lastAttemptTs, s)
      | .setLastAttemptTs ts => (.ok (), { s with lastAttemptTs := ts })
      | .monotonic | .time => (.ok s.now, s)
      | .peerTimes => (.ok (s.lastTs, s.alive), s)
      | .createConnection .. => (.error ⟨.osError, "Connection refused"⟩, s)
      | .clearPeerAlive => (.ok (), { s with alive := false, declaring := true })
      | .putEvent event =>
          (if s.queue.length < eventQueueSize then .ok () else .error ⟨.queueFull, ""⟩,
            s.emitted slot event)
      | .getEvent =>
          match s.queue with
          | [] => (.error ⟨.queueEmpty, ""⟩, { s with handling := false })
          | event :: rest => (.ok event, { s with queue := rest, handling := isPeerDead event })
      | .startThread (.runFailover _) => (.error ⟨.runtimeError, "can't start new thread"⟩, s)
      | call => (node.reply call, s)

theorem triggerStep_obey (slot : Slot) (op : Call) (s : World) :
    triggerStep slot s ⟨op, (obey slot op s).1⟩ (obey slot op s).2 := by
  cases op with
  | disk call => cases call <;> rfl
  | net call => rfl
  | host call =>
      cases call
      case getEvent =>
        obtain ⟨role, alive, lastTs, maintenance, attempts, lastAttemptTs, now, queue, declaring,
          handling, underWay⟩ := s
        cases queue <;> exact ⟨rfl, rfl⟩
      case startThread task => cases task <;> first | exact ⟨⟨_, rfl⟩, rfl⟩ | rfl
      all_goals first | rfl | exact ⟨rfl, rfl⟩ | exact ⟨⟨_, rfl⟩, rfl⟩

/-- A thread is not started by an operation of its own, and no event is dropped. -/
def waits : Call → World → Bool
  | .host (.startThread _), _ => true
  | .host (.putEvent _), s => !decide (s.queue.length < eventQueueSize)
  | _, _ => false

theorem honoured_watchdog {op : Call} {s : World} (h : waits op s = false) :
    Honoured .watchdog s ⟨op, (obey .watchdog op s).1⟩ := by
  cases op with
  | disk call => trivial
  | net call => trivial
  | host call =>
      cases call
      case putEvent event =>
        have hroom : s.queue.length < eventQueueSize := by simpa [waits] using h
        have hanswer : (obey .watchdog (.host (.putEvent event)) s).1 = .ok () := if_pos hroom
        rw [hanswer]
        trivial
      all_goals trivial

/-- The node has heard its peer. -/
def heard : State where
  shared := { (begin .standby 1000000).shared with alive := true, lastTs := 1000000 }
  prog := (begin .standby 1000000).prog

/-- Time goes on. -/
def later (millis : Int) (state : State) : State :=
  ⟨{ state.shared with now := state.shared.now + millis }, state.prog⟩

/-- A thread goes on, as far as it can. -/
def onward (slot : Slot) (state : State) : State := state.advance (obey slot) waits slot 100

/-- No heartbeat has come for twenty seconds, and the watchdog has looked. -/
def declared : State :=
  onward .watchdog ((later 20000 heard).arrived .watchdog (later 20000 heard).shared
    (HeartbeatManager.watchdogPass .sampleStandby))

section

variable {allowed : Slot → World → Event Call.Ret Exc → Prop} {start state : State}

/-- The runs of the sample standby in which a condition is met. -/
abbrev sampleRuns (allowed : Slot → World → Event Call.Ret Exc → Prop) :
    System Slot Call.Ret Exc Unit World :=
  (triggerSystem .sampleStandby).restrict allowed

theorem reach_later {millis : Int} (hmillis : 0 ≤ millis)
    (h : (sampleRuns allowed).Reach start state) :
    (sampleRuns allowed).Reach start (later millis state) :=
  h.env (.time _ (Int.le_add_of_nonneg_right hmillis))

theorem reach_onward {slot : Slot}
    (hallowed : ∀ op s, waits op s = false → allowed slot s ⟨op, (obey slot op s).1⟩)
    (h : (sampleRuns allowed).Reach start state) :
    (sampleRuns allowed).Reach start (onward slot state) :=
  h.advance (fun s op hop => ⟨hallowed op s hop, triggerStep_obey slot op s⟩) 100

theorem reach_declared
    (hallowed : ∀ op s, waits op s = false → allowed .watchdog s ⟨op, (obey .watchdog op s).1⟩) :
    (sampleRuns allowed).Reach (begin .standby 1000000) declared := by
  have hheard : (sampleRuns allowed).Reach (begin .standby 1000000) heard :=
    System.Reach.env .refl (.heartbeat 1000000)
  have hidle : ((later 20000 heard).prog .watchdog).Finished := trivial
  exact reach_onward hallowed
    ((reach_later (by decide) hheard).arrive ⟨rfl, .inl ⟨rfl, rfl⟩⟩ hidle)

end

theorem declared_prog {slot : Slot} (h : slot ≠ .watchdog) : declared.prog slot = .pure () :=
  (Threads.advance_prog h).trans (Threads.arrived_prog h)

theorem atRest_declared : AtRest declared where
  mainLoop := by
    rw [declared_prog (by simp)]
    trivial
  failovers n := by
    rw [declared_prog (by simp)]
    trivial
  calm := by decide

theorem waiting_declared : Waiting declared.shared where
  standby := by decide
  heard := by decide
  dead := by decide
  maintenance := by decide
  permitted := ⟨by decide, .inl (by decide)⟩

/-- The trigger of a peer that has just been declared dead is there. -/
theorem keepsTrigger_declared : ∃ state,
    (honoured .sampleStandby).Reach (begin .standby 1000000) state ∧ AtRest state ∧
      Waiting state.shared ∧
        (state.shared.queued = true ∨ NextStarts .sampleStandby state.shared) := by
  have hreach : (honoured .sampleStandby).Reach (begin .standby 1000000) declared :=
    reach_declared fun op s h => honoured_watchdog h
  refine ⟨declared, hreach, atRest_declared, waiting_declared, ?_⟩
  exact keepsTrigger .sampleStandby _ _ _ hreach atRest_declared waiting_declared

/-- The main loop has taken the event. -/
def answered : State :=
  onward .mainLoop (declared.arrived .mainLoop declared.shared
    (PgHaDaemon.mainLoopPass .sampleStandby))

/-- It has started a failover, which fails at its first step. -/
def failed : State :=
  onward .mainLoop (onward (.failover 0) (answered.forked .mainLoop (.failover 0)
    (.host (.startThread (.runFailover false))) (.ok ())
    { answered.shared with underWay := 0 :: answered.shared.underWay }
    (PgHaDaemon.runFailover .sampleStandby false)))

/-- The back-off has elapsed. -/
def elapsed : State := later 40000 failed

theorem answered_prog {slot : Slot} (h : slot ≠ .mainLoop) (h' : slot ≠ .watchdog) :
    answered.prog slot = .pure () :=
  (Threads.advance_prog h).trans ((Threads.arrived_prog h).trans (declared_prog h'))

theorem failed_prog {slot : Slot} (h : slot ≠ .mainLoop) (h' : slot ≠ .watchdog)
    (h'' : slot ≠ .failover 0) : failed.prog slot = .pure () :=
  (Threads.advance_prog h).trans ((Threads.advance_prog h'').trans
    ((Threads.forked_prog h h'').trans (answered_prog h h')))

theorem reach_elapsed :
    (triggerSystem .sampleStandby).Reach (begin .standby 1000000) elapsed := by
  have honward {slot : Slot} {state : State}
      (h : (sampleRuns fun _ _ _ => True).Reach (begin .standby 1000000) state) :
      (sampleRuns fun _ _ _ => True).Reach (begin .standby 1000000) (onward slot state) :=
    reach_onward (fun _ _ _ => trivial) h
  have hdeclared : (sampleRuns fun _ _ _ => True).Reach (begin .standby 1000000) declared :=
    reach_declared fun _ _ _ => trivial
  have hanswered : (sampleRuns fun _ _ _ => True).Reach (begin .standby 1000000) answered :=
    honward (hdeclared.arrive ⟨rfl, .inr ⟨rfl, rfl⟩⟩ atRest_declared.mainLoop)
  have hhead : (answered.prog .mainLoop).head? =
      some (.host (.startThread (.runFailover false))) := by
    decide
  have hfree : (answered.prog (.failover 0)).Finished := by
    rw [answered_prog (by simp) (by simp)]
    trivial
  have hforked := hanswered.fork hhead ⟨trivial, rfl, 0, false, rfl, rfl, rfl, rfl⟩ (by simp) hfree
  exact (reach_later (by decide) (honward (honward hforked))).unrestrict

theorem atRest_elapsed : AtRest elapsed where
  mainLoop := Prog.finished_of_returned () (by decide)
  failovers n := by
    cases n with
    | zero => exact Prog.finished_of_returned () (by decide)
    | succ n =>
        have hprog : failed.prog (.failover (n + 1)) = .pure () :=
          failed_prog (by simp) (by simp) (by simp)
        show (failed.prog (.failover (n + 1))).Finished
        rw [hprog]
        trivial
  calm := by decide

theorem waiting_elapsed : Waiting elapsed.shared where
  standby := by decide
  heard := by decide
  dead := by decide
  maintenance := by decide
  permitted := ⟨by decide, .inr (by decide)⟩

/-- A failed attempt is not repeated: nothing is queued, and the main loop starts nothing. -/
theorem not_keepsTrigger : ¬ KeepsTrigger .sampleStandby (triggerSystem .sampleStandby) := by
  intro h
  rcases h _ _ _ reach_elapsed atRest_elapsed waiting_elapsed with hqueued | hstarts
  · have hempty : elapsed.shared.queued = false := by decide
    rw [hempty] at hqueued
    cases hqueued
  · let pass := (PgHaDaemon.mainLoopPass .sampleStandby).run (obey .mainLoop) elapsed.shared
    have htrace : (PgHaDaemon.mainLoopPass .sampleStandby).Trace pass.log pass.outcome :=
      trace_run _ _ _
    have hhistory : History loopStep elapsed.shared pass.log pass.final :=
      history_run (fun s op => .inl (triggerStep_obey .mainLoop op s)) _ _
    have hended : pass.outcome ≠ .stuck := by decide
    have hnone : pass.log.any startsFailover = false := by decide
    have hsome := hstarts _ _ _ htrace hended hhistory
    rw [hnone] at hsome
    cases hsome

end Sample

end PgHa.Trigger

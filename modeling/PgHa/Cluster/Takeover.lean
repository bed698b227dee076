import PgHa.Daemon
import PgHa.Effect.Threads
import PgHa.Ha.HandOff
import PgHa.Heartbeat.Manager
import PgHa.Model.Host

/-!
# Taking over without fencing

A failover with `skip_fence` trusts that the peer has released everything.  The heartbeat
fallback takes this from the last heartbeat, and `PG_FAIL_HANDOFF` from a command: both say
what the peer was when it sent them.  A node that has demoted itself and the one that is
taking over from it both report STANDBY and DETACHED until the disk is attached, so each of
them may find the other one ready to be replaced.

Here both daemons run side by side, with all their threads, and messages are delayed, lost
and reordered.  Every message is dated: it carries the number of promotions that its sender
had started, if the sender was in order when it made the message, with no promotion under
way.  No operation reads the date.  `upToDate` asks that a promotion be started only on a
message whose date still is that of its sender.

Between two promotions a node can only give things up, so what a dated message has said once
holds as long as its date does (`Stands`).  A STANDBY that reads STANDBY and DETACHED from an
up-to-date heartbeat, or `PG_FAIL_HANDOFF`, which a node sends when it has detached the disk
and given up the role, then finds the other node idle; and the other node starts no promotion
meanwhile, because what it would act on must be up to date as well.  From this
`takesOverApart` follows.
-/

namespace PgHa.Takeover

open Effect

variable {cfg : Site → Config}

/-! ## The system -/

/-- The threads of a daemon: the main loop, one for each connection of the peer and of the
operator, and those that are started for a transition. -/
inductive Thread
  | mainLoop
  | peer (n : ℕ)
  | management (n : ℕ)
  | task (n : ℕ)
  deriving DecidableEq, Repr

abbrev Slot : Type := Site × Thread

/-- What a node has said of itself, and the number of promotions that it had started, if it
was in order. -/
structure Report where
  role : NodeRole
  diskState : DiskState
  date : Option ℕ
  deriving DecidableEq, Repr

/-- One daemon, and whether its instance holds the disk.  The lists are those of its threads
that run a promotion, that run a failover without fencing, and that are between the steps
ATTACH and PROMOTE.  `date` is that of the heartbeat in `view`; `read` is what a thread has
last read about the other node, and `gone` what this one was when a thread last detached
the disk. -/
structure Side where
  daemon : DaemonState
  held : Bool
  view : HeartbeatManager.View
  promotions : List ℕ
  unfenced : List ℕ
  promoting : List ℕ
  started : ℕ
  date : Option ℕ
  read : Thread → Report
  gone : Thread → Report

/-- What the other node is when the disk is attached. -/
structure Moment where
  role : NodeRole
  held : Bool
  promoting : Bool
  deriving DecidableEq, Repr

namespace Side

def role (side : Side) : NodeRole := side.daemon.node.role

def moment (side : Side) : Moment := ⟨side.role, side.held, !side.promoting.isEmpty⟩

/-- No promotion is under way, and the node does not hold a disk that it calls DETACHED. -/
def inOrder (side : Side) : Bool :=
  side.promotions.isEmpty && !(side.daemon.node.diskState == .detached && side.held)

/-- What the node says of itself. -/
def report (side : Side) : Report :=
  ⟨side.role, side.daemon.node.diskState, if side.inOrder then some side.started else none⟩

/-- The last heartbeat of the other node. -/
def heard (side : Side) : Report := ⟨side.view.peer.role, side.view.peer.diskState, side.date⟩

/-- A thread reads about the other node. -/
def learn (side : Side) (thread : Thread) (report : Report) : Side :=
  { side with read := Function.update side.read thread report }

/-- A thread detaches the disk. -/
def detach (side : Side) (thread : Thread) : Side :=
  let side := { side with held := false }
  { side with gone := Function.update side.gone thread { side.report with diskState := .detached } }

/-- A thread has given up the role. -/
def demoted (side : Side) (thread : Thread) : Side :=
  { side with
    gone := Function.update side.gone thread { side.gone thread with role := .standby } }

/-- A thread is started. -/
def start (side : Side) (n : ℕ) : Task → Side
  | .runFailover true =>
      { side with
        promotions := n :: side.promotions
        unfenced := n :: side.unfenced
        started := side.started + 1 }
  | .runFailover false | .runSwitchoverAsStandby =>
      { side with promotions := n :: side.promotions, started := side.started + 1 }
  | .runSwitchover => side

/-- A thread has come to the step ATTACH. -/
def attaching (side : Side) : Thread → Side
  | .task n => { side with promoting := n :: side.promoting }
  | _ => side

/-- A thread has promoted the node. -/
def promoted (side : Side) : Thread → Side
  | .task n => { side with promoting := side.promoting.filter (· ≠ n) }
  | _ => side

/-- A promotion has ended. -/
def settle (side : Side) : Thread → Side
  | .task n =>
      { side with
        promotions := side.promotions.filter (· ≠ n)
        unfenced := side.unfenced.filter (· ≠ n)
        promoting := side.promoting.filter (· ≠ n) }
  | _ => side

/-- The effect of an operation of the host, performed by one of the daemon's threads.  A
failover ends with its last mark, a switchover with its flag. -/
def after (side : Side) (thread : Thread) (call : HostCall) : Side :=
  let side := { side with daemon := side.daemon.after call }
  match call with
  | .mark (.step .attach) => side.attaching thread
  | .setRole .primary => side.promoted thread
  | .setRole .standby => side.demoted thread
  | .mark (.leave .failover) | .setSwitchoverActive false => side.settle thread
  | _ => side

end Side

/-- What `_sender_loop` sends. -/
def heartbeatOf (node : NodeState) (seq : Int) : HeartbeatMsg where
  node := some node.name
  nodeText := node.name
  role := node.role
  seq := seq
  pgState := node.pgState
  diskState := node.diskState
  nodeHealth := node.health

/-- Both daemons, the heartbeats that they have sent, with their dates, the commands that they
have sent and the other one has not received, each with what its node was when the thread that
sent it last detached the disk, and what the other node was at each `attach_disk_rw` of a
failover without fencing. -/
structure World where
  side : Site → Side
  beats : Site → List (HeartbeatMsg × Option ℕ)
  commands : Site → List (PeerRequest × Report)
  now : Int
  attaches : List Moment

namespace World

def modify (s : World) (site : Site) (f : Side → Side) : World :=
  { s with side := Function.update s.side site (f (s.side site)) }

def hold (s : World) (site : Site) (held : Bool) : World :=
  s.modify site fun side => { side with held := held }

/-- The disk is attached to an instance, and no longer to the other one. -/
def attach (s : World) (site : Site) : World := (s.hold site true).hold site.other false

/-- `attach_disk_rw` is called. -/
def attaching (s : World) (slot : Slot) : World :=
  match slot with
  | (site, .task n) =>
      if n ∈ (s.side site).unfenced then
        { s with attaches := s.attaches ++ [(s.side site.other).moment] }
      else s
  | _ => s

def beat (s : World) (site : Site) (seq : Int) : World :=
  let msg := heartbeatOf (s.side site).daemon.node seq
  let date := (s.side site).report.date
  { s with beats := Function.update s.beats site ((msg, date) :: s.beats site) }

def sent (s : World) (slot : Slot) (request : PeerRequest) : World :=
  let letter := (request, (s.side slot.1).gone slot.2)
  { s with commands := Function.update s.commands slot.1 (s.commands slot.1 ++ [letter]) }

def received (s : World) (site : Site) (letter : PeerRequest × Report) : World :=
  { s with commands := Function.update s.commands site ((s.commands site).erase letter) }

end World

/-- The operations of the disk.  The Compute API tells the truth, and what releases
something succeeds. -/
def diskStep (cfg : Site → Config) (slot : Slot) (s : World) (call : DiskCall)
    (answer : Except Exc call.Ret) (s' : World) : Prop :=
  match call, answer with
  | .currentRwHolder, answer =>
      (∀ name, answer = .ok (some name) →
        ∃ site, (s.side site).held = true ∧ name = (cfg site).cluster.nodeName) ∧
      (answer = .ok none → ∀ site, (s.side site).held = false) ∧ s' = s
  | .attachDiskRw, answer =>
      s' = (s.attaching slot).attach slot.1 ∨ (∃ exc, answer = .error exc) ∧ s' = s.attaching slot
  | .detachDisk, answer => answer = .ok () ∧ s' = s.modify slot.1 (·.detach slot.2)
  | .forceDetachFromPeer, answer =>
      s' = s.hold slot.1.other false ∨ (∃ exc, answer = .error exc) ∧ s' = s
  | .unmountDisk, answer | .stopPostgres _, answer => answer = .ok () ∧ s' = s
  | _, _ => s' = s

/-- The operations of the host.  A thread is started by `fork`. -/
def hostStep (slot : Slot) (s : World) (call : HostCall) (answer : Except Exc call.Ret)
    (s' : World) : Prop :=
  match call, answer with
  | .time, answer => answer = .ok s.now ∧ s' = s
  | .isPeerAlive, answer => answer = .ok (s.side slot.1).view.alive ∧ s' = s
  | .peerSnapshot, answer =>
      answer = .ok (s.side slot.1).view.peer ∧
        s' = s.modify slot.1 fun side => side.learn slot.2 side.heard
  | .sendRequest request, answer =>
      s' = s.sent slot request ∨ (∃ exc, answer = .error exc) ∧ s' = s
  | .recvCommand, answer =>
      match slot.2 with
      | .peer _ =>
          (∃ letter ∈ s.commands slot.1.other, answer = .ok (HandOff.requestJson letter.1) ∧
            s' = (s.received slot.1.other letter).modify slot.1 (·.learn slot.2 letter.2)) ∨
          (∃ exc, answer = .error exc) ∧ s' = s
      | _ => s' = s
  | .startThread _, answer => (∃ exc, answer = .error exc) ∧ s' = s
  | call, answer =>
      (s.side slot.1).daemon.Answers call answer ∧ s' = s.modify slot.1 (·.after slot.2 call)

def takeoverStep (cfg : Site → Config) (slot : Slot) (s : World) (event : Event Call.Ret Exc)
    (s' : World) : Prop :=
  match event with
  | ⟨.disk call, answer⟩ => diskStep cfg slot s call answer s'
  | ⟨.net .releaseVip, answer⟩ => answer = .ok () ∧ s' = s
  | ⟨.net .acquireVip, _⟩ => s' = s
  | ⟨.host call, answer⟩ => hostStep slot s call answer s'

/-- The threads of the heartbeats, and time. -/
inductive Outside (s : World) : World → Prop
  | send (site : Site) (seq : Int) : Outside s (s.beat site seq)
  /-- A heartbeat may arrive late, more than once, out of order, or never. -/
  | receive (site : Site) (beat : HeartbeatMsg × Option ℕ) : beat ∈ s.beats site.other →
      Outside s (s.modify site fun side =>
        { side with view := side.view.store beat.1 s.now, date := beat.2 })
  /-- The watchdog has declared the peer dead. -/
  | silence (site : Site) : Outside s
      (s.modify site fun side => { side with view := { side.view with alive := false } })
  | time (now : Int) : s.now ≤ now → Outside s { s with now := now }

/-- What starts in a slot by itself. -/
def Arrives (cfg : Site → Config) : Slot → Mgr Unit → Prop
  | (site, .mainLoop), program => program = PgHaDaemon.mainLoopPass (cfg site)
  | (site, .peer _), program => program = PgHaDaemon.handlePeerConn (cfg site)
  | (site, .management _), program => program = PgHaDaemon.handleMgmtConn (cfg site)
  | (_, .task _), _ => False

def takeoverSystem (cfg : Site → Config) : System Slot Call.Ret Exc Unit World where
  step := takeoverStep cfg
  fork i j s event s' child := ∃ n task, j = (i.1, .task n) ∧
    event = ⟨.host (.startThread task), .ok ()⟩ ∧ child = PgHaDaemon.taskBody (cfg i.1) task ∧
    s' = s.modify i.1 (·.start n task)
  arrive i s program s' := Arrives cfg i program ∧ s' = s
  env := Outside

abbrev State : Type := Threads Slot Call.Ret Exc Unit World

/-- A daemon after its startup, as PRIMARY or as STANDBY. -/
def Side.begin (cfg : Config) (primary : Bool) : Side where
  daemon :=
    { node :=
        { name := cfg.cluster.nodeName
          role := if primary then .primary else .standby
          health := .healthy
          pgState := if primary then .runningPrimary else .stopped
          diskState := if primary then .attachedRw else .detached }
      attempts := 0
      lastAttemptTs := 0
      peerInstanceStatus := "UNKNOWN"
      switchoverActive := false
      failoverLocked := false
      lastDemotionTs := 0 }
  held := primary
  view := ⟨{ name := cfg.cluster.peerNode }, false⟩
  promotions := []
  unfenced := []
  promoting := []
  started := 0
  date := none
  read _ := ⟨.unknown, .unknown, none⟩
  gone _ := ⟨.unknown, .unknown, none⟩

/-- Both daemons after their startup; one of them may be PRIMARY. -/
def begin (cfg : Site → Config) (active : Option Site) (now : Int) : State where
  shared :=
    { side := fun site => .begin (cfg site) (active == some site)
      beats := fun _ => []
      commands := fun _ => []
      now := now
      attaches := [] }
  prog _ := .pure ()

/-- The other node is not PRIMARY, does not hold the disk and is not about to. -/
structure Apart (m : Moment) : Prop where
  role : m.role ≠ .primary
  held : m.held = false
  promoting : m.promoting = false

/-- In every run, whenever the disk is attached without fencing. -/
def TakesOverApart (cfg : Site → Config) (S : System Slot Call.Ret Exc Unit World) : Prop :=
  ∀ active now state, S.Reach (begin cfg active now) state →
    ∀ m ∈ state.shared.attaches, Apart m

/-- A node that is not PRIMARY, does not hold the disk and runs no promotion. -/
structure Idle (side : Side) : Prop where
  role : side.role ≠ .primary
  held : side.held = false
  promotions : side.promotions = []

/-- The other node was in order when it said so, and has started no promotion since. -/
def UpToDate (report : Report) (side : Side) : Prop := report.date = some side.started

/-- A promotion is started only on a heartbeat or a command that is up to date.  PEER_DEAD is
no message of the peer; a failover is started on it only while the peer runs none without
fencing. -/
def upToDate (slot : Slot) (s : World) (event : Event Call.Ret Exc) : Prop :=
  match event with
  | ⟨.host (.startThread (.runFailover true)), .ok _⟩
  | ⟨.host (.startThread .runSwitchoverAsStandby), .ok _⟩ =>
      UpToDate ((s.side slot.1).read slot.2) (s.side slot.1.other)
  | ⟨.host (.startThread (.runFailover false)), .ok _⟩ => (s.side slot.1.other).unfenced = []
  | _ => True

/-! ## What a dated message says -/

/-- The node has no promotion under way, and is what it has said. -/
structure Agrees (report : Report) (side : Side) : Prop where
  promotions : side.promotions = []
  role : report.role ≠ .primary → side.role ≠ .primary
  held : report.diskState = .detached → side.held = false

/-- What a node has said holds as long as it starts no promotion. -/
def Stands (report : Report) (side : Side) : Prop :=
  ∀ date, report.date = some date →
    date ≤ side.started ∧ (date = side.started → Agrees report side)

/-- The node has said that it has given everything up. -/
structure Report.Demoted (report : Report) : Prop where
  role : report.role = .standby
  diskState : report.diskState = .detached

theorem Stands.agrees {report : Report} {side : Side} (h : Stands report side)
    (hdate : UpToDate report side) : Agrees report side := (h side.started hdate).2 rfl

/-- Whoever reads STANDBY and DETACHED while that is up to date finds the node idle. -/
theorem Stands.idle {report : Report} {side : Side} (h : Stands report side)
    (hdemoted : report.Demoted) (hdate : UpToDate report side) : Idle side := by
  have hagrees : Agrees report side := h.agrees hdate
  refine ⟨hagrees.role ?_, hagrees.held hdemoted.diskState, hagrees.promotions⟩
  simp [hdemoted.role]

theorem stands_of_undated {report : Report} {side : Side} (h : report.date = none) :
    Stands report side := by
  intro date hdate
  rw [h] at hdate
  cases hdate

/-- A report holds when it is made. -/
theorem stands_report (side : Side) : Stands side.report side := by
  intro date hdate
  have hdate : (if side.inOrder then some side.started else none) = some date := hdate
  split at hdate
  case isFalse => cases hdate
  case isTrue horder =>
    obtain rfl : side.started = date := Option.some.inj hdate
    have horder : side.promotions = [] ∧
        (side.daemon.node.diskState = .detached → side.held = false) := by
      simpa [Side.inOrder, or_iff_not_imp_left] using horder
    exact ⟨Nat.le_refl _, fun _ => ⟨horder.1, id, horder.2⟩⟩

/-- A node takes nothing, except in a promotion. -/
structure Side.Rests (side side' : Side) : Prop where
  started : side.started ≤ side'.started
  promotions : side'.started = side.started → side.promotions = [] → side'.promotions = []
  role : side.promotions = [] → side'.role = .primary → side.role = .primary
  held : side.promotions = [] → side'.held = true → side.held = true

theorem Side.Rests.stands {side side' : Side} (h : side.Rests side') {report : Report}
    (hstands : Stands report side) : Stands report side' := by
  intro date hdate
  obtain ⟨hle, hagrees⟩ := hstands date hdate
  refine ⟨Nat.le_trans hle h.started, fun hnow => ?_⟩
  have hsame : side'.started = side.started := Nat.le_antisymm (hnow ▸ hle) h.started
  have hagrees : Agrees report side := hagrees (hnow.trans hsame)
  refine ⟨h.promotions hsame hagrees.promotions, fun hrole hprimary => ?_, fun hdetached => ?_⟩
  · exact hagrees.role hrole (h.role hagrees.promotions hprimary)
  · by_contra hheld
    have hbefore : side.held = true := h.held hagrees.promotions (by simpa using hheld)
    rw [hagrees.held hdetached] at hbefore
    cases hbefore

/-- What a node knows of the other one. -/
structure Knows (side other : Side) : Prop where
  heard : Stands side.heard other
  read : ∀ thread, Stands (side.read thread) other

/-- Every message, on its way or read already, stands. -/
structure Reports (s : World) : Prop where
  knows : ∀ site, Knows (s.side site) (s.side site.other)
  gone : ∀ site thread, Stands ((s.side site).gone thread) (s.side site)
  beats : ∀ site, ∀ beat ∈ s.beats site,
    Stands ⟨beat.1.role, beat.1.diskState, beat.2⟩ (s.side site)
  letters : ∀ site, ∀ letter ∈ s.commands site, Stands letter.2 (s.side site)
  handOff : ∀ site, ∀ letter ∈ s.commands site, letter.1.cmd = "PG_FAIL_HANDOFF" →
    letter.2.Demoted

/-! ## The contract of the threads -/

/-- A failover without fencing under way keeps the other node idle. -/
structure Inv (s : World) : Prop where
  idle : ∀ site, (s.side site).unfenced ≠ [] → Idle (s.side site.other)
  unfenced : ∀ site, (s.side site).unfenced ⊆ (s.side site).promotions
  promoting : ∀ site, (s.side site).promoting ⊆ (s.side site).promotions
  apart : ∀ m ∈ s.attaches, Apart m
  reports : Reports s

/-- A thread that runs a promotion is known to do so until it has ended. -/
def Running (slot : Slot) (s : World) : Prop :=
  match slot with
  | (site, .task n) => n ∈ (s.side site).promotions
  | _ => True

/-- The other threads do not end a thread's promotion, and not what it knows. -/
structure Kept (slot : Slot) (s s' : World) : Prop where
  running : Running slot s → Running slot s'
  read : (s'.side slot.1).read slot.2 = (s.side slot.1).read slot.2
  gone : (s'.side slot.1).gone slot.2 = (s.side slot.1).gone slot.2

def takeoverContract (cfg : Site → Config) :
    Contract ((takeoverSystem cfg).restrict upToDate) where
  inv := Inv
  rely := Kept
  refl _ _ := ⟨id, rfl, rfl⟩
  trans _ _ _ _ h h' :=
    ⟨h'.running ∘ h.running, h'.read.trans h.read, h'.gone.trans h.gone⟩
  start i program s := match i with
    | (site, .task _) => ∃ task, program = PgHaDaemon.taskBody (cfg site) task ∧
        (task ≠ .runSwitchover → Running i s)
    | _ => Arrives cfg i program
  post _ _ _ := True
  stable _ _ _ _ _ _ _ := trivial

/-- A thread among the others. -/
abbrev among (cfg : Site → Config) (i : Slot) : Transformer Call.Ret Exc World :=
  (takeoverContract cfg).thread i

variable {i : Slot} {α β : Type}

theorem among_monotone : (among cfg i).Monotone := (takeoverContract cfg).thread_monotone i

theorem stable_running : (takeoverContract cfg).Stable i (Running i) :=
  fun _ _ hs hrely _ => hrely.running hs

/-! ## Steps that grasp at nothing -/

/-- A node gives things up, and of its promotions only the one of the given thread ends. -/
structure Side.Eases (thread : Thread) (side side' : Side) : Prop where
  role : side'.role = .primary → side.role = .primary
  held : side'.held = true → side.held = true
  started : side'.started = side.started
  promotions : side'.promotions ⊆ side.promotions
  unfenced : ∀ n ∈ side'.unfenced, n ∈ side.unfenced ∧ (n ∈ side.promotions → n ∈ side'.promotions)
  promoting : ∀ n ∈ side'.promoting,
    n ∈ side.promoting ∧ (n ∈ side.promotions → n ∈ side'.promotions)
  others : ∀ n ∈ side.promotions, thread ≠ .task n → n ∈ side'.promotions

theorem Side.Eases.refl (thread : Thread) (side : Side) : side.Eases thread side :=
  ⟨id, id, rfl, fun _ => id, fun _ h => ⟨h, id⟩, fun _ h => ⟨h, id⟩, fun _ h _ => h⟩

/-- A change that the lists of threads do not show. -/
theorem Side.Eases.of_lists {thread : Thread} {side side' : Side}
    (hrole : side'.role = .primary → side.role = .primary)
    (hheld : side'.held = true → side.held = true) (hstarted : side'.started = side.started)
    (hpromotions : side'.promotions = side.promotions)
    (hunfenced : side'.unfenced = side.unfenced) (hpromoting : side'.promoting ⊆ side.promoting) :
    side.Eases thread side' where
  role := hrole
  held := hheld
  started := hstarted
  promotions := by rw [hpromotions]; exact fun _ => id
  unfenced n h := by
    rw [hunfenced] at h
    rw [hpromotions]
    exact ⟨h, id⟩
  promoting n h := by
    rw [hpromotions]
    exact ⟨hpromoting h, id⟩
  others n h _ := by rwa [hpromotions]

theorem Side.Eases.idle {thread : Thread} {side side' : Side} (h : side.Eases thread side')
    (hidle : Idle side) : Idle side' where
  role := fun hprimary => hidle.role (h.role hprimary)
  held := by
    by_contra hheld
    have := h.held (by simpa using hheld)
    rw [hidle.held] at this
    cases this
  promotions := by
    have hnone := h.promotions
    rw [hidle.promotions] at hnone
    exact List.subset_nil.mp hnone

theorem Side.Eases.rests {thread : Thread} {side side' : Side} (h : side.Eases thread side') :
    side.Rests side' where
  started := Nat.le_of_eq h.started.symm
  promotions _ hnone := by
    have hsub := h.promotions
    rw [hnone] at hsub
    exact List.subset_nil.mp hsub
  role _ := h.role
  held _ := h.held

theorem Side.eases_settle (side : Side) (thread : Thread) :
    side.Eases thread (side.settle thread) := by
  cases thread with
  | task n =>
      have hother {m : ℕ} {list : List ℕ} (hm : m ∈ list.filter (· ≠ n)) : m ≠ n := by
        simpa using (List.mem_filter.mp hm).2
      have hstays {m : ℕ} (hm : m ≠ n) (h : m ∈ side.promotions) :
          m ∈ side.promotions.filter (· ≠ n) :=
        List.mem_filter.mpr ⟨h, by simpa using hm⟩
      refine ⟨id, id, rfl, fun _ => List.mem_of_mem_filter, fun m hm => ?_, fun m hm => ?_,
        fun m hm hne => ?_⟩
      · exact ⟨List.mem_of_mem_filter hm, hstays (hother hm)⟩
      · exact ⟨List.mem_of_mem_filter hm, hstays (hother hm)⟩
      · exact hstays (fun h => hne (by rw [h])) hm
  | _ => exact .refl _ _

theorem Side.Eases.trans {thread : Thread} {side side' side'' : Side} (h : side.Eases thread side')
    (h' : side'.Eases thread side'') : side.Eases thread side'' where
  role := h.role ∘ h'.role
  held := h.held ∘ h'.held
  started := h'.started.trans h.started
  promotions := fun _ hn => h.promotions (h'.promotions hn)
  unfenced n hn := by
    obtain ⟨hmid, hkept'⟩ := h'.unfenced n hn
    obtain ⟨hold, hkept⟩ := h.unfenced n hmid
    exact ⟨hold, hkept' ∘ hkept⟩
  promoting n hn := by
    obtain ⟨hmid, hkept'⟩ := h'.promoting n hn
    obtain ⟨hold, hkept⟩ := h.promoting n hmid
    exact ⟨hold, hkept' ∘ hkept⟩
  others n hn hne := h'.others n (h.others n hn hne) hne

theorem Side.eases_demoted (side : Side) (thread ended : Thread) :
    side.Eases ended (side.demoted thread) := .of_lists id id rfl rfl rfl fun _ => id

theorem Side.eases_learn (side : Side) (thread ended : Thread) (report : Report) :
    side.Eases ended (side.learn thread report) := .of_lists id id rfl rfl rfl fun _ => id

theorem Side.eases_detach (side : Side) (thread ended : Thread) :
    side.Eases ended (side.detach thread) :=
  .of_lists id (by simp [Side.detach]) rfl rfl rfl fun _ => id

theorem Side.eases_release (side : Side) (thread : Thread) :
    side.Eases thread { side with held := false } :=
  .of_lists id (by simp) rfl rfl rfl fun _ => id

/-- The operations that neither take the disk or the role nor come to the step ATTACH. -/
def Calm : Call → Prop
  | .disk .attachDiskRw | .host (.setRole .primary) | .host (.mark (.step .attach)) => False
  | _ => True

/-- The operations of a promotion that has not ended, and that starts no thread. -/
def Steady : Call → Prop
  | .host (.startThread _) | .host (.setSwitchoverActive _) | .host (.sendRequest _)
  | .host (.mark (.leave .failover)) => False
  | _ => True

theorem Side.eases_after (side : Side) {thread ended : Thread} {call : HostCall}
    (hcalm : Calm (.host call)) (hended : ended = thread ∨ Steady (.host call)) :
    side.Eases ended (side.after thread call) := by
  have hdaemon : side.Eases ended { side with daemon := side.daemon.after call } := by
    refine .of_lists (fun hprimary => ?_) id rfl rfl rfl fun _ => id
    -- a role may only be given up
    by_cases hset : ∃ role, call = .setRole role
    · obtain ⟨role, rfl⟩ := hset
      obtain rfl : role = .primary := hprimary
      exact hcalm.elim
    · rw [← hprimary]
      exact (DaemonState.after_role _ fun role h => hset ⟨role, h⟩).symm
  have hsettle (h : ended = thread) : side.Eases ended
      ({ side with daemon := side.daemon.after call }.settle thread) := by
    subst h
    exact hdaemon.trans (eases_settle _ _)
  -- a sequence that ends settles the promotion of its own thread
  unfold Side.after
  dsimp only
  split
  · exact hcalm.elim
  · exact hcalm.elim
  · exact hdaemon.trans (eases_demoted _ _ _)
  · exact hsettle (hended.resolve_right id)
  · exact hsettle (hended.resolve_right id)
  · exact hdaemon

/-- As `Side.Eases`, for both nodes. -/
structure Eases (site : Site) (ended : Thread) (s s' : World) : Prop where
  own : (s.side site).Eases ended (s'.side site)
  other : (s.side site.other).Eases .mainLoop (s'.side site.other)
  attaches : s'.attaches = s.attaches

variable {site : Site} {ended : Thread} {s s' : World} {f : Side → Side}

@[simp] theorem modify_own : (s.modify site f).side site = f (s.side site) :=
  Function.update_self ..

theorem modify_of_ne {site' : Site} (h : site' ≠ site) :
    (s.modify site f).side site' = s.side site' := Function.update_of_ne h ..

theorem eases_of_same (hside : s'.side = s.side) (hattaches : s'.attaches = s.attaches) :
    Eases site ended s s' := by
  refine ⟨?_, ?_, hattaches⟩
  · rw [hside]
    exact .refl _ _
  · rw [hside]
    exact .refl _ _

theorem eases_modify (h : (s.side site).Eases ended (f (s.side site))) :
    Eases site ended s (s.modify site f) := by
  refine ⟨?_, ?_, rfl⟩
  · rwa [modify_own]
  · rw [modify_of_ne (Site.other_ne _)]
    exact .refl _ _

theorem eases_modify_other (h : (s.side site.other).Eases .mainLoop (f (s.side site.other))) :
    Eases site ended s (s.modify site.other f) := by
  refine ⟨?_, ?_, rfl⟩
  · rw [modify_of_ne (Site.other_ne _).symm]
    exact .refl _ _
  · rwa [modify_own]

theorem Eases.side (h : Eases site ended s s') (site' : Site) :
    ∃ thread, (s.side site').Eases thread (s'.side site') := by
  by_cases hsite : site' = site
  · exact ⟨ended, hsite ▸ h.own⟩
  · exact ⟨.mainLoop, Site.eq_other hsite ▸ h.other⟩

theorem Eases.rests (h : Eases site ended s s') (site' : Site) :
    (s.side site').Rests (s'.side site') := by
  obtain ⟨thread, hside⟩ := h.side site'
  exact hside.rests

theorem Eases.inv (h : Eases site ended s s') (hinv : Inv s) (hreports : Reports s') : Inv s' where
  idle site hunder := by
    obtain ⟨thread, hside⟩ := h.side site
    obtain ⟨thread', hother⟩ := h.side site.other
    obtain ⟨n, hn⟩ := List.exists_mem_of_ne_nil _ hunder
    exact hother.idle (hinv.idle site (List.ne_nil_of_mem (hside.unfenced n hn).1))
  unfenced site n hn := by
    obtain ⟨thread, hside⟩ := h.side site
    obtain ⟨hold, hkept⟩ := hside.unfenced n hn
    exact hkept (hinv.unfenced site hold)
  promoting site n hn := by
    obtain ⟨thread, hside⟩ := h.side site
    obtain ⟨hold, hkept⟩ := hside.promoting n hn
    exact hkept (hinv.promoting site hold)
  apart := by
    rw [h.attaches]
    exact hinv.apart
  reports := hreports

/-- Only the thread that has ended stops running. -/
theorem Eases.running (h : Eases site ended s s') {j : Slot} (hj : j ≠ (site, ended))
    (hrunning : Running j s) : Running j s' := by
  obtain ⟨site', thread⟩ := j
  cases thread with
  | task n =>
      by_cases hsite : site' = site
      · subst hsite
        exact h.own.others n hrunning fun hthread => hj (by rw [hthread])
      · obtain rfl := Site.eq_other hsite
        exact h.other.others n hrunning (by simp)
  | _ => trivial

theorem eases_of_step {op : Call} (hcalm : Calm op) (hended : ended = i.2 ∨ Steady op)
    {answer : Except Exc op.Ret} (h : takeoverStep cfg i s ⟨op, answer⟩ s') :
    Eases i.1 ended s s' := by
  cases op with
  | disk call =>
      cases call
      case currentRwHolder =>
        obtain ⟨-, -, rfl⟩ := h
        exact eases_of_same rfl rfl
      case attachDiskRw => exact hcalm.elim
      -- a node only gives things up, be it by its own request or by the peer's
      case detachDisk =>
        obtain ⟨-, rfl⟩ := h
        exact eases_modify (Side.eases_detach _ _ _)
      case forceDetachFromPeer =>
        rcases h with rfl | ⟨-, rfl⟩
        · exact eases_modify_other (Side.eases_release _ _)
        · exact eases_of_same rfl rfl
      all_goals
        have hsame : s' = s := by first | exact h | exact h.2
        exact hsame ▸ eases_of_same rfl rfl
  | net call =>
      have hsame : s' = s := by cases call <;> first | exact h | exact h.2
      exact hsame ▸ eases_of_same rfl rfl
  | host call =>
      cases call
      case sendRequest request => rcases h with rfl | ⟨-, rfl⟩ <;> exact eases_of_same rfl rfl
      case peerSnapshot =>
        obtain ⟨-, rfl⟩ := h
        exact eases_modify (Side.eases_learn _ _ _ _)
      case recvCommand =>
        obtain ⟨site, thread⟩ := i
        cases thread with
        | peer n =>
            rcases h with ⟨letter, -, -, rfl⟩ | ⟨-, rfl⟩
            · have heases : Eases site ended (s.received site.other letter)
                  ((s.received site.other letter).modify site (·.learn (.peer n) letter.2)) :=
                eases_modify (Side.eases_learn _ _ _ _)
              exact ⟨heases.own, heases.other, heases.attaches⟩
            · exact eases_of_same rfl rfl
        | _ =>
            obtain rfl : s' = s := h
            exact eases_of_same rfl rfl
      all_goals
        obtain ⟨-, rfl⟩ := h
        first | exact eases_of_same rfl rfl | exact eases_modify (Side.eases_after _ hcalm hended)

/-! ## What the messages say after a step -/

theorem reports_of_same (h : Reports s) (hside : s'.side = s.side) (hbeats : s'.beats = s.beats)
    (hcommands : s'.commands = s.commands) : Reports s' := by
  constructor
  · rw [hside]
    exact h.knows
  · rw [hside]
    exact h.gone
  · rw [hside, hbeats]
    exact h.beats
  · rw [hside, hcommands]
    exact h.letters
  · rw [hcommands]
    exact h.handOff

theorem Knows.rests {side other other' : Side} (h : Knows side other)
    (hrests : other.Rests other') : Knows side other' :=
  ⟨hrests.stands h.heard, fun thread => hrests.stands (h.read thread)⟩

/-- One node changes, what it knows and what it has said. -/
theorem Reports.modify (h : Reports s) (hrests : (s.side site).Rests (f (s.side site)))
    (hknows : Knows (f (s.side site)) (s.side site.other))
    (hgone : ∀ thread, Stands ((f (s.side site)).gone thread) (f (s.side site))) :
    Reports (s.modify site f) := by
  -- no earlier report is contradicted, on the changed node or on the other one
  have hall (site' : Site) : (s.side site').Rests ((s.modify site f).side site') := by
    by_cases hsite : site' = site
    · subst hsite
      rwa [modify_own]
    · rw [modify_of_ne hsite]
      exact (Side.Eases.refl .mainLoop _).rests
  constructor
  · intro site'
    by_cases hsite : site' = site
    · subst hsite
      rwa [modify_own, modify_of_ne (Site.other_ne _)]
    · rw [modify_of_ne hsite]
      exact (h.knows site').rests (hall site'.other)
  · intro site' thread
    by_cases hsite : site' = site
    · subst hsite
      rw [modify_own]
      exact hgone thread
    · rw [modify_of_ne hsite]
      exact h.gone site' thread
  · exact fun site' beat hbeat => (hall site').stands (h.beats site' beat hbeat)
  · exact fun site' letter hletter => (hall site').stands (h.letters site' letter hletter)
  · exact h.handOff

/-- A change that the messages of the node do not show. -/
theorem Reports.modify_of_same (h : Reports s) (hrests : (s.side site).Rests (f (s.side site)))
    (hheard : (f (s.side site)).heard = (s.side site).heard)
    (hread : (f (s.side site)).read = (s.side site).read)
    (hgone : (f (s.side site)).gone = (s.side site).gone) : Reports (s.modify site f) := by
  apply h.modify hrests
  · have hknows := h.knows site
    refine ⟨?_, fun thread => ?_⟩
    · rw [hheard]
      exact hknows.heard
    · rw [hread]
      exact hknows.read thread
  · intro thread
    rw [hgone]
    exact hrests.stands (h.gone site thread)

theorem Reports.release (h : Reports s) : Reports (s.hold site false) :=
  h.modify_of_same (Side.eases_release _ .mainLoop).rests rfl rfl rfl

theorem Reports.learn (h : Reports s) {thread : Thread} {report : Report}
    (hreport : Stands report (s.side site.other)) :
    Reports (s.modify site (·.learn thread report)) := by
  have hrests : (s.side site).Rests ((s.side site).learn thread report) :=
    (Side.eases_learn _ thread .mainLoop report).rests
  apply h.modify hrests
  · refine ⟨(h.knows site).heard, fun thread' => ?_⟩
    show Stands (Function.update (s.side site).read thread report thread') _
    by_cases hthread : thread' = thread
    · rwa [hthread, Function.update_self]
    · rw [Function.update_of_ne hthread]
      exact (h.knows site).read thread'
  · exact fun thread' => hrests.stands (h.gone site thread')

/-- A node that has detached the disk does not hold it. -/
theorem Reports.detach (h : Reports s) (thread : Thread) :
    Reports (s.modify site (·.detach thread)) := by
  have hrests : (s.side site).Rests ((s.side site).detach thread) :=
    (Side.eases_detach _ thread .mainLoop).rests
  apply h.modify hrests ⟨(h.knows site).heard, (h.knows site).read⟩
  intro thread'
  let released : Side := { s.side site with held := false }
  show Stands (Function.update (s.side site).gone thread
    { released.report with diskState := .detached } thread') _
  by_cases hthread : thread' = thread
  · rw [hthread, Function.update_self]
    intro date hdate
    obtain ⟨hle, hagrees⟩ := stands_report released date hdate
    exact ⟨hle, fun hnow => ⟨(hagrees hnow).promotions, (hagrees hnow).role, fun _ => rfl⟩⟩
  · rw [Function.update_of_ne hthread]
    exact hrests.stands (h.gone site thread')

theorem after_heard (side : Side) (thread : Thread) (call : HostCall) :
    (side.after thread call).heard = side.heard := by
  unfold Side.after
  dsimp only
  split <;> cases thread <;> rfl

theorem after_read (side : Side) (thread : Thread) (call : HostCall) :
    (side.after thread call).read = side.read := by
  unfold Side.after
  dsimp only
  split <;> cases thread <;> rfl

theorem after_gone (side : Side) (thread : Thread) {call : HostCall}
    (hcall : call ≠ .setRole .standby) : (side.after thread call).gone = side.gone := by
  unfold Side.after
  dsimp only
  split
  case h_3 => exact absurd rfl hcall
  all_goals cases thread <;> rfl

theorem Reports.after (h : Reports s) {thread : Thread} {call : HostCall}
    (hrests : (s.side site).Rests ((s.side site).after thread call)) :
    Reports (s.modify site (·.after thread call)) := by
  by_cases hcall : call = .setRole .standby
  · subst hcall
    apply h.modify hrests ⟨(h.knows site).heard, (h.knows site).read⟩
    intro thread'
    have hstands : Stands ((s.side site).gone thread')
        ((s.side site).after thread (.setRole .standby)) := hrests.stands (h.gone site thread')
    show Stands (Function.update (s.side site).gone thread
      { (s.side site).gone thread with role := .standby } thread') _
    by_cases hthread : thread' = thread
    · -- the node is no PRIMARY now, whatever it has been when the thread detached the disk
      rw [hthread, Function.update_self]
      rw [hthread] at hstands
      intro date hdate
      obtain ⟨hle, hagrees⟩ := hstands date hdate
      refine ⟨hle, fun hnow => ⟨(hagrees hnow).promotions, fun _ => ?_, (hagrees hnow).held⟩⟩
      exact fun hprimary => NodeRole.noConfusion hprimary
    · rwa [Function.update_of_ne hthread]
  · exact h.modify_of_same hrests (after_heard _ _ _) (after_read _ _ _) (after_gone _ _ hcall)

/-- A command carries what its thread has left of the node. -/
theorem Reports.sent (h : Reports s) {request : PeerRequest}
    (hletter : request.cmd = "PG_FAIL_HANDOFF" → ((s.side i.1).gone i.2).Demoted) :
    Reports (s.sent i request) := by
  have hcases {site' : Site} {letter : PeerRequest × Report}
      (hmem : letter ∈ (s.sent i request).commands site') : letter ∈ s.commands site' ∨
        site' = i.1 ∧ letter = (request, (s.side i.1).gone i.2) := by
    have hmem : letter ∈ Function.update s.commands i.1
      (s.commands i.1 ++ [(request, (s.side i.1).gone i.2)]) site' := hmem
    by_cases hsite : site' = i.1
    · rw [hsite, Function.update_self] at hmem
      rw [hsite]
      exact (List.mem_append.mp hmem).imp_right fun hlast => ⟨rfl, List.mem_singleton.mp hlast⟩
    · rw [Function.update_of_ne hsite] at hmem
      exact .inl hmem
  refine ⟨h.knows, h.gone, h.beats, fun site' letter hmem => ?_, fun site' letter hmem hcmd => ?_⟩
  · rcases hcases hmem with hold | ⟨rfl, rfl⟩
    · exact h.letters site' letter hold
    · exact h.gone i.1 i.2
  · rcases hcases hmem with hold | ⟨rfl, rfl⟩
    · exact h.handOff site' letter hold hcmd
    · exact hletter hcmd

theorem Reports.received (h : Reports s) (letter : PeerRequest × Report) :
    Reports (s.received site letter) := by
  have hmem {site' : Site} {letter' : PeerRequest × Report}
      (hmem : letter' ∈ (s.received site letter).commands site') :
      letter' ∈ s.commands site' := by
    have hmem : letter' ∈ Function.update s.commands site ((s.commands site).erase letter) site' :=
      hmem
    by_cases hsite : site' = site
    · rw [hsite, Function.update_self] at hmem
      rw [hsite]
      exact List.mem_of_mem_erase hmem
    · rwa [Function.update_of_ne hsite] at hmem
  exact ⟨h.knows, h.gone, h.beats, fun site' letter' hin => h.letters site' letter' (hmem hin),
    fun site' letter' hin => h.handOff site' letter' (hmem hin)⟩

/-- A thread reads a command of the other node. -/
theorem Reports.recvCommand (h : Reports s) {thread : Thread} {letter : PeerRequest × Report}
    (hmem : letter ∈ s.commands site.other) :
    Reports ((s.received site.other letter).modify site (·.learn thread letter.2)) :=
  (h.received letter).learn (h.letters site.other letter hmem)

/-- Every operation but the attaching of the disk, by a thread that hands over only once it has
given the node up. -/
theorem reports_of_step {op : Call} (hop : op ≠ .disk .attachDiskRw) (h : Reports s)
    (hrests : ∀ site', (s.side site').Rests (s'.side site'))
    (hletter : ∀ request, op = .host (.sendRequest request) → request.cmd = "PG_FAIL_HANDOFF" →
      ((s.side i.1).gone i.2).Demoted)
    {answer : Except Exc op.Ret} (hstep : takeoverStep cfg i s ⟨op, answer⟩ s') : Reports s' := by
  cases op with
  | disk call =>
      cases call
      case currentRwHolder =>
        obtain ⟨-, -, rfl⟩ := hstep
        exact h
      case attachDiskRw => exact absurd rfl hop
      case detachDisk =>
        obtain ⟨-, rfl⟩ := hstep
        exact h.detach i.2
      case forceDetachFromPeer =>
        rcases hstep with rfl | ⟨-, rfl⟩
        · exact h.release
        · exact h
      all_goals
        have hsame : s' = s := by first | exact hstep | exact hstep.2
        exact hsame ▸ h
  | net call =>
      have hsame : s' = s := by cases call <;> first | exact hstep | exact hstep.2
      exact hsame ▸ h
  | host call =>
      cases call
      -- a letter carries the report that its thread made when it detached the disk
      case sendRequest request =>
        rcases hstep with rfl | ⟨-, rfl⟩
        · exact h.sent (hletter request rfl)
        · exact h
      case peerSnapshot =>
        obtain ⟨-, rfl⟩ := hstep
        exact h.learn (h.knows i.1).heard
      -- a handler learns the report of a letter that has been sent
      case recvCommand =>
        obtain ⟨site, thread⟩ := i
        cases thread with
        | peer n =>
            rcases hstep with ⟨letter, hmem, -, rfl⟩ | ⟨-, rfl⟩
            · exact h.recvCommand hmem
            · exact h
        | _ =>
            obtain rfl : s' = s := hstep
            exact h
      all_goals
        obtain ⟨-, rfl⟩ := hstep
        first
          | exact h
          | (refine h.after ?_
             have hown := hrests i.1
             rwa [modify_own] at hown)

/-! ## What a step leaves to the other threads -/

/-- Only thread `i` has learnt or detached anything. -/
def Minds (i : Slot) (s s' : World) : Prop :=
  ∀ j, j ≠ i → (s'.side j.1).read j.2 = (s.side j.1).read j.2 ∧
    (s'.side j.1).gone j.2 = (s.side j.1).gone j.2

theorem minds_of_same (h : s'.side = s.side) : Minds i s s' := by
  intro j _
  rw [h]
  exact ⟨rfl, rfl⟩

theorem minds_modify {thread : Thread}
    (hread : ∀ t, t ≠ thread → (f (s.side site)).read t = (s.side site).read t)
    (hgone : ∀ t, t ≠ thread → (f (s.side site)).gone t = (s.side site).gone t) :
    Minds (site, thread) s (s.modify site f) := by
  rintro ⟨site', thread'⟩ hj
  by_cases hsite : site' = site
  · subst hsite
    have hthread : thread' ≠ thread := fun h => hj (by rw [h])
    rw [modify_own]
    exact ⟨hread thread' hthread, hgone thread' hthread⟩
  · rw [modify_of_ne hsite]
    exact ⟨rfl, rfl⟩

/-- A change by which no thread learns anything. -/
theorem mind_modify_of_same (hread : (f (s.side site)).read = (s.side site).read)
    (hgone : (f (s.side site)).gone = (s.side site).gone) (j : Slot) :
    ((s.modify site f).side j.1).read j.2 = (s.side j.1).read j.2 ∧
      ((s.modify site f).side j.1).gone j.2 = (s.side j.1).gone j.2 := by
  obtain ⟨site', thread⟩ := j
  by_cases hsite : site' = site
  · subst hsite
    rw [modify_own, hread, hgone]
    exact ⟨rfl, rfl⟩
  · rw [modify_of_ne hsite]
    exact ⟨rfl, rfl⟩

theorem minds_modify_of_same (hread : (f (s.side site)).read = (s.side site).read)
    (hgone : (f (s.side site)).gone = (s.side site).gone) : Minds i s (s.modify site f) :=
  fun j _ => mind_modify_of_same hread hgone j

theorem Minds.trans {s'' : World} (h : Minds i s s') (h' : Minds i s' s'') : Minds i s s'' :=
  fun j hj => ⟨(h' j hj).1.trans (h j hj).1, (h' j hj).2.trans (h j hj).2⟩

theorem attaching_side (slot : Slot) : (s.attaching slot).side = s.side := by
  unfold World.attaching
  split
  · split <;> rfl
  · rfl

theorem after_gone_of_ne (side : Side) (call : HostCall) {thread thread' : Thread}
    (h : thread' ≠ thread) : (side.after thread call).gone thread' = side.gone thread' := by
  by_cases hcall : call = .setRole .standby
  · subst hcall
    exact Function.update_of_ne h _ _
  · rw [after_gone side thread hcall]

theorem minds_of_step {op : Call} {answer : Except Exc op.Ret}
    (h : takeoverStep cfg i s ⟨op, answer⟩ s') : Minds i s s' := by
  cases op with
  | disk call =>
      cases call
      case currentRwHolder =>
        obtain ⟨-, -, rfl⟩ := h
        exact minds_of_same rfl
      case attachDiskRw =>
        rcases h with rfl | ⟨-, rfl⟩
        · refine (minds_of_same (attaching_side i)).trans ?_
          unfold World.attach World.hold
          exact (minds_modify_of_same rfl rfl).trans (minds_modify_of_same rfl rfl)
        · exact minds_of_same (attaching_side i)
      case detachDisk =>
        obtain ⟨-, rfl⟩ := h
        exact minds_modify (fun _ _ => rfl) fun _ ht => Function.update_of_ne ht _ _
      case forceDetachFromPeer =>
        rcases h with rfl | ⟨-, rfl⟩
        · exact minds_modify_of_same rfl rfl
        · exact minds_of_same rfl
      all_goals
        have hsame : s' = s := by first | exact h | exact h.2
        exact hsame ▸ minds_of_same rfl
  | net call =>
      have hsame : s' = s := by cases call <;> first | exact h | exact h.2
      exact hsame ▸ minds_of_same rfl
  | host call =>
      cases call
      case sendRequest request => rcases h with rfl | ⟨-, rfl⟩ <;> exact minds_of_same rfl
      case peerSnapshot =>
        obtain ⟨-, rfl⟩ := h
        exact minds_modify (fun _ ht => Function.update_of_ne ht _ _) fun _ _ => rfl
      -- only the handler of a connection reads a command
      case recvCommand =>
        obtain ⟨site, thread⟩ := i
        cases thread with
        | peer n =>
            rcases h with ⟨letter, -, -, rfl⟩ | ⟨-, rfl⟩
            · exact minds_modify (s := s.received site.other letter)
                (fun _ ht => Function.update_of_ne ht _ _) fun _ _ => rfl
            · exact minds_of_same rfl
        | _ =>
            obtain rfl : s' = s := h
            exact minds_of_same rfl
      all_goals
        obtain ⟨-, rfl⟩ := h
        first
          | exact minds_of_same rfl
          | exact minds_modify (fun _ _ => by rw [after_read])
              fun _ ht => after_gone_of_ne _ _ ht

/-- A step that grasps at nothing keeps the contract. -/
theorem calm_step {op : Call} (hcalm : Calm op) (hended : ended = i.2 ∨ Steady op)
    (hinv : Inv s) (hletter : ∀ request, op = .host (.sendRequest request) →
      request.cmd = "PG_FAIL_HANDOFF" → ((s.side i.1).gone i.2).Demoted)
    {answer : Except Exc op.Ret} (h : takeoverStep cfg i s ⟨op, answer⟩ s') :
    Inv s' ∧ ∀ j, j ≠ i → (j = (i.1, ended) → Running j s → Running j s') → Kept j s s' := by
  have heases : Eases i.1 ended s s' := eases_of_step hcalm hended h
  have hop : op ≠ .disk .attachDiskRw := by
    rintro rfl
    exact hcalm
  have hreports : Reports s' := reports_of_step hop hinv.reports heases.rests hletter h
  refine ⟨heases.inv hinv hreports, fun j hj hsame => ?_⟩
  have hminds := minds_of_step h j hj
  refine ⟨fun hrunning => ?_, hminds.1, hminds.2⟩
  -- the one thread that may have ended is the exception
  by_cases hjended : j = (i.1, ended)
  · exact hsame hjended hrunning
  · exact heases.running hjended hrunning

/-! ## Threads that are started -/

/-- A node may take things while the other one runs no failover without fencing. -/
theorem inv_modify (hinv : Inv s) (hother : (s.side site.other).unfenced = [])
    (hidle : (f (s.side site)).unfenced ≠ [] → Idle (s.side site.other))
    (hunfenced : (f (s.side site)).unfenced ⊆ (f (s.side site)).promotions)
    (hpromoting : (f (s.side site)).promoting ⊆ (f (s.side site)).promotions)
    (hreports : Reports (s.modify site f)) : Inv (s.modify site f) where
  idle site' hunder := by
    by_cases hsite : site' = site
    · subst hsite
      rw [modify_own] at hunder
      rw [modify_of_ne (Site.other_ne _)]
      exact hidle hunder
    · obtain rfl := Site.eq_other hsite
      rw [modify_of_ne (Site.other_ne _)] at hunder
      exact absurd hother hunder
  unfenced site' := by
    by_cases hsite : site' = site
    · subst hsite
      rwa [modify_own]
    · rw [modify_of_ne hsite]
      exact hinv.unfenced site'
  promoting site' := by
    by_cases hsite : site' = site
    · subst hsite
      rwa [modify_own]
    · rw [modify_of_ne hsite]
      exact hinv.promoting site'
  apart := hinv.apart
  reports := hreports

theorem Inv.unfenced_eq_nil (hinv : Inv s) (h : (s.side site).promotions = []) :
    (s.side site).unfenced = [] := by
  have hsub := hinv.unfenced site
  rw [h] at hsub
  exact List.subset_nil.mp hsub

/-- A node that has started a promotion is at a later date. -/
theorem rests_start (side : Side) (n : ℕ) {task : Task} (h : task ≠ .runSwitchover) :
    side.Rests (side.start n task) := by
  have hlater : (side.start n task).started = side.started + 1 := by
    unfold Side.start
    split <;> first | rfl | exact absurd rfl h
  have hnow : (side.start n task).started ≠ side.started := by omega
  have hsame : (side.start n task).role = side.role ∧ (side.start n task).held = side.held := by
    unfold Side.start
    split <;> exact ⟨rfl, rfl⟩
  refine ⟨by omega, fun hstarted => absurd hstarted hnow, fun _ hprimary => ?_, fun _ hheld => ?_⟩
  · rwa [hsame.1] at hprimary
  · rwa [hsame.2] at hheld

theorem reports_start (h : Reports s) (n : ℕ) {task : Task} (htask : task ≠ .runSwitchover) :
    Reports (s.modify site (·.start n task)) := by
  refine h.modify_of_same (rests_start _ n htask) ?_ ?_ ?_ <;>
    (unfold Side.start; split <;> rfl)

theorem minds_start (n : ℕ) (task : Task) : Minds i s (s.modify site (·.start n task)) := by
  refine minds_modify_of_same ?_ ?_ <;> (unfold Side.start; split <;> rfl)

/-- What a thread has to know of the other node when it starts a promotion. -/
def Clear (other : Side) (task : Task) : Prop :=
  other.unfenced = [] ∧ (task = .runFailover true → Idle other)

/-- A promotion is started. -/
theorem inv_start (hinv : Inv s) {n : ℕ} {task : Task} (htask : task ≠ .runSwitchover)
    (hclear : Clear (s.side site.other) task) : Inv (s.modify site (·.start n task)) := by
  have hunfenced := hinv.unfenced site
  have hpromoting := hinv.promoting site
  have hreports : Reports (s.modify site (·.start n task)) := reports_start hinv.reports n htask
  have hlater {list : List ℕ} (hlist : list ⊆ (s.side site).promotions) :
      list ⊆ n :: (s.side site).promotions := fun m hm => List.mem_cons_of_mem _ (hlist hm)
  cases task with
  | runFailover skipFence =>
      cases skipFence with
      -- without fencing it is the thread that knows the other node to be idle
      | true =>
          apply inv_modify hinv hclear.1 fun _ => hclear.2 rfl
          · exact List.cons_subset_cons _ hunfenced
          · exact hlater hpromoting
          · exact hreports
      | false =>
          exact inv_modify hinv hclear.1 (hinv.idle site) (hlater hunfenced) (hlater hpromoting)
            hreports
  | runSwitchover => exact absurd rfl htask
  | runSwitchoverAsStandby =>
      exact inv_modify hinv hclear.1 (hinv.idle site) (hlater hunfenced) (hlater hpromoting)
        hreports

theorem mem_start {side : Side} {n m : ℕ} (task : Task) (h : m ∈ side.promotions) :
    m ∈ (side.start n task).promotions := by
  unfold Side.start
  split
  · exact List.mem_cons_of_mem _ h
  · exact List.mem_cons_of_mem _ h
  · exact List.mem_cons_of_mem _ h
  · exact h

theorem mem_start_self {side : Side} {n : ℕ} {task : Task} (h : task ≠ .runSwitchover) :
    n ∈ (side.start n task).promotions := by
  unfold Side.start
  split
  · exact List.mem_cons_self
  · exact List.mem_cons_self
  · exact List.mem_cons_self
  · exact absurd rfl h

theorem running_start {n : ℕ} {task : Task} {j : Slot} (h : Running j s) :
    Running j (s.modify site (·.start n task)) := by
  obtain ⟨site', thread⟩ := j
  cases thread with
  | task m =>
      show m ∈ ((s.modify site (·.start n task)).side site').promotions
      by_cases hsite : site' = site
      · subst hsite
        rw [modify_own]
        exact mem_start task h
      · rw [modify_of_ne hsite]
        exact h
  | _ => trivial

/-- A thread that is clear to do so starts a promotion. -/
theorem start_triple (task : Task) (htask : task ≠ .runSwitchover) {P : World → Prop}
    (hP : ∀ s s', P s → Kept i s s' → P s')
    (hclear : ∀ s, Inv s → P s → upToDate i s ⟨.host (.startThread task), .ok ()⟩ →
      Clear (s.side i.1.other) task) :
    Prog.Triple (among cfg i) P (Mgr.host (.startThread task)) (fun _ _ => True)
      fun _ => True := by
  apply Prog.Triple.perform
  intro s hs s₁ hrely hinv answer
  have hs : P s₁ := hP s s₁ hs hrely
  -- either `start` raises, or the new thread is there
  constructor
  · rintro s₂ ⟨-, hstep⟩
    obtain ⟨⟨exc, rfl⟩, rfl⟩ : (∃ exc, answer = .error exc) ∧ s₂ = s₁ := hstep
    exact ⟨hinv, fun j _ => ⟨id, rfl, rfl⟩, trivial⟩
  · rintro j s₂ child ⟨hinformed, n, task', rfl, hevent, rfl, rfl⟩ -
    cases hevent
    have hready : Clear (s₁.side i.1.other) task := hclear s₁ hinv hs hinformed
    refine ⟨inv_start hinv htask hready, fun l hl _ => ?_, ?_, trivial⟩
    · exact ⟨running_start, (minds_start n task l hl).1, (minds_start n task l hl).2⟩
    · refine ⟨task, rfl, fun _ => ?_⟩
      show n ∈ ((s₁.modify i.1 (·.start n task)).side i.1).promotions
      rw [modify_own]
      exact mem_start_self htask

/-! ## Threads that run no promotion -/

/-- The rule for an operation that grasps at nothing and starts no thread. -/
theorem calm_triple (op : Call) (hcalm : Calm op) (hop : ∀ task, op ≠ .host (.startThread task))
    {P : World → Prop} (hP : ∀ s s', P s → Kept i s s' → P s')
    (hletter : ∀ s request, P s → op = .host (.sendRequest request) →
      request.cmd = "PG_FAIL_HANDOFF" → ((s.side i.1).gone i.2).Demoted)
    {Q : op.Ret → World → Prop} {E : World → Prop}
    (h : ∀ s answer s', Inv s → P s → takeoverStep cfg i s ⟨op, answer⟩ s' →
      Prog.ending Q E (Prog.answered answer) s') :
    Prog.Triple (among cfg i) P (Prog.perform op) Q E := by
  refine Contract.triple_perform (C := takeoverContract cfg)
    (fun s s' hs hrely _ => hP s s' hs hrely) ?_ ?_
  · rintro j s answer s' child ⟨-, n, task, -, hevent, -⟩
    exact hop task (congrArg Event.op hevent)
  · rintro s answer s' hinv hs ⟨-, hstep⟩
    obtain ⟨hinv', hkept⟩ := calm_step hcalm (.inl rfl) hinv
      (fun request => hletter s request hs) hstep
    exact ⟨hinv', fun j hj => hkept j hj fun h => absurd h hj, h s answer s' hinv hs hstep⟩

/-- The operations of a thread that starts no promotion and does not say that the node has
given everything up. -/
def Quiet : Call → Prop
  | .host (.sendRequest request) => request.cmd ≠ "PG_FAIL_HANDOFF"
  | .host (.startThread task) => task = .runSwitchover
  | op => Calm op

theorem calm_of_quiet {op : Call} (h : Quiet op) : Calm op := by
  unfold Quiet at h
  split at h
  · trivial
  · trivial
  · exact h

theorem quiet_keeps {program : Mgr α} (hcalls : program.Calls Quiet) :
    Prog.Keeps (among cfg i) (fun _ => True) program := by
  refine .of_calls among_monotone (fun op hquiet _ _ => ?_) hcalls
  intro s hrely hinv answer
  constructor
  · rintro s' ⟨-, hstep⟩
    have hletter (request : PeerRequest) (hop : op = .host (.sendRequest request))
        (hcmd : request.cmd = "PG_FAIL_HANDOFF") : ((s.side i.1).gone i.2).Demoted := by
      subst hop
      exact absurd hcmd hquiet
    obtain ⟨hinv', hkept⟩ := calm_step (calm_of_quiet hquiet) (.inl rfl) hinv hletter hstep
    exact ⟨hinv', fun j hj => hkept j hj fun h => absurd h hj, trivial⟩
  · -- a thread that is started runs the switchover of the primary
    rintro j s' child ⟨-, n, task, rfl, hevent, rfl, rfl⟩ -
    obtain ⟨rfl, -⟩ := Event.mk.inj hevent
    obtain rfl : task = .runSwitchover := hquiet
    have hsame : s.modify i.1 (·.start n .runSwitchover) = s := by
      simp [World.modify, Side.start]
    rw [hsame]
    refine ⟨hinv, fun l _ _ => ⟨id, rfl, rfl⟩,
      ⟨.runSwitchover, rfl, fun h => absurd rfl h⟩, trivial⟩

theorem quiet_perform (op : Call) (hop : Quiet op) :
    Prog.Keeps (among cfg i) (fun _ => True) (Prog.perform op : Mgr op.Ret) :=
  quiet_keeps (Prog.Calls.perform hop)

/-- What depends only on what thread `i` has read and has left of the node. -/
def OfMind (i : Slot) (P : World → Prop) : Prop :=
  ∀ s s', (s'.side i.1).read i.2 = (s.side i.1).read i.2 →
    (s'.side i.1).gone i.2 = (s.side i.1).gone i.2 → P s → P s'

/-- The operations by which a thread learns nothing and leaves the node as it is. -/
def Still : Call → Prop
  | .host .peerSnapshot | .host .recvCommand | .host (.setRole _) | .disk .detachDisk
  | .host (.startThread _) | .host (.sendRequest _) => False
  | op => Calm op

theorem calm_of_still {op : Call} (h : Still op) : Calm op := by
  unfold Still at h
  split at h <;> first | exact h.elim | exact h

theorem still_of_step {op : Call} (hstill : Still op) {answer : Except Exc op.Ret}
    (h : takeoverStep cfg i s ⟨op, answer⟩ s') :
    (s'.side i.1).read i.2 = (s.side i.1).read i.2 ∧
      (s'.side i.1).gone i.2 = (s.side i.1).gone i.2 := by
  cases op with
  | disk call =>
      cases call
      case currentRwHolder =>
        obtain ⟨-, -, rfl⟩ := h
        exact ⟨rfl, rfl⟩
      case attachDiskRw => exact hstill.elim
      case detachDisk => exact hstill.elim
      -- the disk is taken from the other node
      case forceDetachFromPeer =>
        rcases h with rfl | ⟨-, rfl⟩
        · have hside : (s.hold i.1.other false).side i.1 = s.side i.1 :=
            modify_of_ne (Site.other_ne i.1).symm
          rw [hside]
          exact ⟨rfl, rfl⟩
        · exact ⟨rfl, rfl⟩
      all_goals
        have hsame : s' = s := by first | exact h | exact h.2
        exact hsame ▸ ⟨rfl, rfl⟩
  | net call =>
      have hsame : s' = s := by cases call <;> first | exact h | exact h.2
      exact hsame ▸ ⟨rfl, rfl⟩
  | host call =>
      have hafter (hcall : call ≠ .setRole .standby) :
          ((s.modify i.1 (·.after i.2 call)).side i.1).read i.2 = (s.side i.1).read i.2 ∧
            ((s.modify i.1 (·.after i.2 call)).side i.1).gone i.2 = (s.side i.1).gone i.2 := by
        rw [modify_own, after_read, after_gone _ _ hcall]
        exact ⟨rfl, rfl⟩
      cases call <;> first
        | exact hstill.elim
        | (obtain ⟨-, rfl⟩ := h; first | exact ⟨rfl, rfl⟩ | exact hafter (by simp))

/-- What a thread knows, it still knows after operations that teach it nothing. -/
theorem still_keeps {P : World → Prop} (hP : OfMind i P) {program : Mgr α}
    (hcalls : program.Calls Still) : Prog.Keeps (among cfg i) P program := by
  have hstable : (takeoverContract cfg).Stable i P :=
    fun s s' hs hrely _ => hP s s' hrely.read hrely.gone hs
  refine Contract.keeps_of_step hstable ?_ ?_ hcalls
  · rintro op hstill j s answer s' child ⟨-, n, task, -, hevent, -⟩
    obtain ⟨rfl, -⟩ := Event.mk.inj hevent
    exact hstill
  · rintro s ⟨op, answer⟩ s' hstill hinv hs ⟨-, hstep⟩
    have hletter (request : PeerRequest) (hop : op = .host (.sendRequest request))
        (_ : request.cmd = "PG_FAIL_HANDOFF") : ((s.side i.1).gone i.2).Demoted := by
      subst hop
      exact hstill.elim
    -- a step that is calm keeps the contract, and a still one what the thread has in mind
    obtain ⟨hinv', hkept⟩ := calm_step (calm_of_still hstill) (.inl rfl) hinv hletter hstep
    obtain ⟨hread, hgone⟩ := still_of_step hstill hstep
    exact ⟨hinv', fun j hj => hkept j hj fun h => absurd h hj, hP s s' hread hgone hs⟩

/-- The same, where nothing is said of a program that raises. -/
theorem still_triple {P : World → Prop} (hP : OfMind i P) {program : Mgr α}
    (hcalls : program.Calls Still) :
    Prog.Triple (among cfg i) P program (fun _ => P) fun _ => True :=
  (still_keeps hP hcalls).conseq among_monotone (fun _ => id) (fun _ _ => id) fun _ _ => trivial

theorem still_perform (op : Call) (hop : Still op) {P : World → Prop} (hP : OfMind i P) :
    Prog.Triple (among cfg i) P (Prog.perform op) (fun _ => P) fun _ => True :=
  still_triple hP (Prog.Calls.perform hop)

theorem OfMind.kept {P : World → Prop} (hP : OfMind i P) (s s' : World) (hs : P s)
    (h : Kept i s s') : P s' := hP s s' h.read h.gone hs

/-! ### What the main loop reads, and what it leaves -/

/-- Thread `i` has read that the other node has given everything up. -/
def ReadDemoted (i : Slot) (s : World) : Prop := ((s.side i.1).read i.2).Demoted

theorem ofMind_readDemoted : OfMind i (ReadDemoted i) := by
  intro s s' hread _ hs
  rw [ReadDemoted, hread]
  exact hs

/-- A look at the last heartbeat. -/
theorem peerSnapshot_triple : Prog.Triple (among cfg i) (fun _ => True)
    (Mgr.host .peerSnapshot)
    (fun peer s => peer.role = .standby ∧ peer.diskState = .detached → ReadDemoted i s)
    fun _ => True := by
  refine calm_triple (.host .peerSnapshot) trivial (by simp) (fun _ _ _ _ => trivial) (by simp) ?_
  rintro s answer s' - - ⟨rfl, rfl⟩
  rintro ⟨hrole, hdisk⟩
  have hread : ((s.modify i.1 fun side => side.learn i.2 side.heard).side i.1).read i.2 =
      (s.side i.1).heard := by
    rw [modify_own]
    exact Function.update_self ..
  rw [ReadDemoted, hread]
  exact ⟨hrole, hdisk⟩

/-- A thread that has read so, and is up to date, finds the other node idle. -/
theorem clear_of_readDemoted (hinv : Inv s) (hread : ReadDemoted i s)
    (hdate : UpToDate ((s.side i.1).read i.2) (s.side i.1.other)) (task : Task) :
    Clear (s.side i.1.other) task := by
  have hidle : Idle (s.side i.1.other) :=
    Stands.idle ((hinv.reports.knows i.1).read i.2) hread hdate
  exact ⟨hinv.unfenced_eq_nil hidle.promotions, fun _ => hidle⟩

theorem shouldAttempt_still : FailoverEngine.shouldAttempt.Calls Still := by
  refine .bind (.perform_bind trivial fun role => trivial) fun standby => .ite trivial ?_
  refine .perform_bind trivial fun attempts => .ite trivial ?_
  exact .perform_bind trivial fun now => .perform_bind trivial fun lastAttempt => trivial

/-- The node gives itself up: `P` holds of what thread `i` has left of it. -/
def Left (i : Slot) (P : Report → Prop) (s : World) : Prop := P ((s.side i.1).gone i.2)

theorem ofMind_left {P : Report → Prop} : OfMind i (Left i P) := by
  intro s s' _ hgone hs
  rw [Left, hgone]
  exact hs

theorem detachDisk_triple : Prog.Triple (among cfg i) (fun _ => True) (Mgr.disk .detachDisk)
    (fun _ => Left i fun report => report.diskState = .detached) fun _ => False := by
  refine calm_triple (.disk .detachDisk) trivial (by simp) (fun _ _ _ _ => trivial) (by simp) ?_
  rintro s answer s' - - ⟨rfl, rfl⟩
  show (((s.modify i.1 (·.detach i.2)).side i.1).gone i.2).diskState = .detached
  rw [modify_own]
  show (Function.update (s.side i.1).gone i.2 _ i.2).diskState = .detached
  rw [Function.update_self]

theorem setRole_triple : Prog.Triple (among cfg i)
    (Left i fun report => report.diskState = .detached) (Mgr.host (.setRole .standby))
    (fun _ => Left i Report.Demoted) fun _ => True := by
  refine calm_triple (.host (.setRole .standby)) trivial (by simp) ofMind_left.kept (by simp) ?_
  rintro s answer s' - hs ⟨rfl, rfl⟩
  have hgone : ((s.modify i.1 (·.after i.2 (.setRole .standby))).side i.1).gone i.2 =
      { (s.side i.1).gone i.2 with role := .standby } := by
    rw [modify_own]
    exact Function.update_self ..
  show (((s.modify i.1 (·.after i.2 (.setRole .standby))).side i.1).gone i.2).Demoted
  rw [hgone]
  exact ⟨rfl, hs⟩

/-- `PG_FAIL_HANDOFF` is sent by a thread that has detached the disk and given up the role. -/
theorem sendRequest_triple (request : PeerRequest) : Prog.Triple (among cfg i)
    (Left i Report.Demoted) (Mgr.host (.sendRequest request)) (fun _ _ => True)
    fun _ => True := by
  refine calm_triple (.host (.sendRequest request)) trivial (by simp) ofMind_left.kept
    (fun s _ hs _ _ => hs) ?_
  intro s answer s' _ _ _
  cases answer <;> trivial

/-! ### The main loop -/

variable {config : Config}

/-- Operations by which the main loop starts no failover but that on PEER_DEAD. -/
def Heeding (op : Call) : Prop := Quiet op ∨ op = .host (.startThread (.runFailover false))

theorem heeding_keeps {program : Mgr α} (hcalls : program.Calls Heeding) :
    Prog.Keeps (among cfg i) (fun _ => True) program := by
  refine .of_calls among_monotone (fun op hop s hs => ?_) hcalls
  have hkeeps : Prog.Keeps (among cfg i) (fun _ => True) (Prog.perform op) := by
    rcases hop with hquiet | rfl
    · exact quiet_keeps (Prog.Calls.perform hquiet)
    · apply start_triple _ (by simp) fun _ _ _ _ => trivial
      exact fun s _ _ hdate => ⟨hdate, by simp⟩
  have hperformed := hkeeps s hs
  rw [Prog.wp_perform] at hperformed
  refine among_monotone _ _ _ s (fun answer s' hend => ?_) hperformed
  cases answer <;> trivial

theorem heeding_of_deciding {op : Call} (h : PgHaDaemon.Deciding op) : Heeding op := by
  unfold Heeding Quiet
  cases op with
  | host call =>
      cases call
      case startThread task =>
        obtain rfl : task = .runFailover false := h
        exact .inr rfl
      all_goals first | exact h.elim | exact .inl trivial
  | _ => exact h.elim

/-- A failover without fencing, which is started when the engine says that it may be
attempted. -/
theorem attempt_triple : Prog.Triple (among cfg i) (ReadDemoted i) (do
      if ← FailoverEngine.shouldAttempt then
        Mgr.host (.startThread (.runFailover true))) (fun _ _ => True) fun _ => True := by
  apply (still_triple ofMind_readDemoted shouldAttempt_still).bind among_monotone
  intro permitted
  apply Prog.Triple.ite
  · intro _
    apply start_triple _ (by simp) ofMind_readDemoted.kept
    exact fun s hinv hread hdate => clear_of_readDemoted hinv hread hdate _
  · exact fun _ => .pure fun _ _ => trivial

/-- The same with the lock, which is released however the attempt ends. -/
theorem guarded_triple : Prog.Triple (among cfg i) (ReadDemoted i) ((do
      if ← LocalNode.isStandby then
        if ← FailoverEngine.shouldAttempt then
          Mgr.host (.startThread (.runFailover true)) : Mgr Unit).ensuring
        (Mgr.host .releaseFailoverLock)) (fun _ _ => True) fun _ => True := by
  have hstandby : LocalNode.isStandby.Calls Still := .perform_bind trivial fun role => trivial
  refine .ensuring among_monotone ?_ (quiet_perform (.host .releaseFailoverLock) trivial)
  apply (still_triple ofMind_readDemoted hstandby).bind among_monotone
  intro standby
  exact .ite (fun _ => attempt_triple) fun _ => .pure fun _ _ => trivial

theorem isStandby_quiet : LocalNode.isStandby.Calls Quiet := .perform_bind trivial fun _ => trivial

theorem isPrimary_quiet : LocalNode.isPrimary.Calls Quiet := .perform_bind trivial fun _ => trivial

theorem isMaintenance_quiet : (PgHaDaemon.isMaintenance config).Calls Quiet :=
  Prog.Calls.perform trivial

/-- The fallback takes the last heartbeat for what the other node is. -/
theorem heartbeatFallback_keeps :
    Prog.Keeps (among cfg i) (fun _ => True) (PgHaDaemon.heartbeatFallback config) := by
  apply (quiet_perform (.host .time) trivial).bind among_monotone
  intro now
  apply (quiet_perform (.host .lastDemotionTs) trivial).bind among_monotone
  intro lastDemotion
  have hallowed (inGrace : Bool) : (PgHaDaemon.fallbackAllowed config inGrace).Calls Quiet := by
    refine .bind isStandby_quiet fun standby => .ite (.perform_bind trivial fun alive => ?_) trivial
    refine .ite (.ite trivial (.perform_bind trivial fun active => .ite trivial ?_)) trivial
    exact .bind isMaintenance_quiet fun maintenance => trivial
  apply (quiet_keeps (hallowed _)).bind among_monotone
  intro allowed
  apply Prog.Triple.ite _ fun _ => Prog.keeps_pure _
  intro _
  -- from here on the thread has read what the last heartbeat said
  apply peerSnapshot_triple.bind among_monotone
  intro peer
  apply Prog.Triple.ite _ fun _ => .pure fun _ _ => trivial
  intro hpeer
  have hlock : Prog.Triple (among cfg i)
      (fun s => peer.role = .standby ∧ peer.diskState = .detached → ReadDemoted i s)
      (Mgr.host (.acquireFailoverLock false)) (fun _ => ReadDemoted i) fun _ => True :=
    (still_perform (.host (.acquireFailoverLock false)) trivial ofMind_readDemoted).conseq
      among_monotone (fun _ hs => hs hpeer) (fun _ _ => id) fun _ => id
  apply hlock.bind among_monotone
  intro acquired
  exact .ite (fun _ => guarded_triple) fun _ => .pure fun _ _ => trivial

theorem sendPgFailHandoff_triple : Prog.Triple (among cfg i) (Left i Report.Demoted)
    (PgHaDaemon.sendPgFailHandoff config) (fun _ _ => True) fun _ => True := by
  have hask : Prog.Triple (among cfg i) (Left i Report.Demoted)
      (PgHaDaemon.askPeer config "PG_FAIL_HANDOFF") (fun _ _ => True) fun _ => True := by
    apply (still_perform (.host (.createConnection config.cluster.peerIp config.cluster.peerPort
      10000)) trivial ofMind_left).bind among_monotone
    intro _
    apply (sendRequest_triple _).bind among_monotone
    exact fun _ => quiet_perform (.host .recvReply) trivial
  apply hask.bind among_monotone
  exact fun resp => quiet_keeps (.bind (Prog.calls_ofExcept _) fun _ => trivial)

/-- The node is given up, and the other one is told. -/
theorem selfDemoteAfterPgFailure_keeps :
    Prog.Keeps (among cfg i) (fun _ => True) (PgHaDaemon.selfDemoteAfterPgFailure config) := by
  apply (quiet_keeps isPrimary_quiet).bind among_monotone
  intro primary
  apply Prog.Triple.ite fun _ => Prog.keeps_pure _
  intro _
  apply (quiet_perform (.host (.mark (.enter .selfDemotion))) trivial).bind among_monotone
  intro _
  refine .ensuring among_monotone ?_ (quiet_perform (.host (.mark (.leave .selfDemotion))) trivial)
  have hefm : (PgHaDaemon.efmStop config).Calls Quiet := PgHaDaemon.efmStop_calls _ fun _ => trivial
  apply (quiet_keeps hefm).bind among_monotone
  intro _
  have hactions : Prog.Triple (among cfg i) (fun _ => True)
      (PgHaDaemon.bestEffort (PgHaDaemon.demotionActions config))
      (fun _ => Left i fun report => report.diskState = .detached) fun _ => True := by
    have hattempt (op : Call) (hop : Quiet op) :
        Prog.Keeps (among cfg i) (fun _ => True) (Prog.perform op : Mgr op.Ret).attempt :=
      quiet_keeps (.attempt (Prog.Calls.perform hop))
    apply (hattempt (.net .releaseVip) trivial).bind among_monotone
    intro _
    apply (hattempt (.disk (.stopPostgres .immediate)) trivial).bind among_monotone
    intro _
    apply (hattempt (.host (.killMountUsers config.gcp.diskMountPoint)) trivial).bind among_monotone
    intro _
    apply (hattempt (.disk .unmountDisk) trivial).bind among_monotone
    intro _
    apply (detachDisk_triple.attempt among_monotone).bind among_monotone
    intro result
    cases result with
    | ok _ => exact .pure fun _ => id
    | error exc => exact .pure fun _ => False.elim
  apply hactions.bind among_monotone
  intro _
  apply setRole_triple.bind among_monotone
  intro _
  -- what follows leaves the node as the thread has left it
  apply (still_perform (.host (.setDiskState .detached)) trivial ofMind_left).bind among_monotone
  intro _
  apply (still_perform (.host (.setPgState .stopped)) trivial ofMind_left).bind among_monotone
  intro _
  apply (still_perform (.host (.setHealth .healthy)) trivial ofMind_left).bind among_monotone
  intro _
  apply (still_perform (.host (.pgMonSetActive false)) trivial ofMind_left).bind among_monotone
  intro _
  apply (still_perform (.host .time) trivial ofMind_left).bind among_monotone
  intro now
  apply (still_perform (.host (.setLastDemotionTs now)) trivial ofMind_left).bind among_monotone
  intro _
  apply (sendPgFailHandoff_triple.attempted among_monotone).bind among_monotone
  exact fun _ => Prog.keeps_pure _

theorem handlePgFailure_keeps :
    Prog.Keeps (among cfg i) (fun _ => True) (PgHaDaemon.handlePgFailure config) := by
  apply (quiet_perform (.host .pgMonConsecutiveFailures) trivial).bind among_monotone
  intro failures
  apply Prog.Triple.ite _ fun _ => Prog.keeps_pure _
  intro _
  apply (quiet_keeps isPrimary_quiet).bind among_monotone
  intro primary
  apply Prog.Triple.ite _ fun _ => Prog.keeps_pure _
  intro _
  apply (quiet_perform (.host .switchoverActive) trivial).bind among_monotone
  intro active
  apply Prog.Triple.ite _ fun _ => Prog.keeps_pure _
  intro _
  apply (quiet_keeps isMaintenance_quiet).bind among_monotone
  intro maintenance
  apply Prog.Triple.ite fun _ => Prog.keeps_pure _
  intro _
  apply (quiet_perform (.host (.setHealth .failed)) trivial).bind among_monotone
  exact fun _ => selfDemoteAfterPgFailure_keeps

theorem refreshState_keeps :
    Prog.Keeps (among cfg i) (fun _ => True) (PgHaDaemon.refreshState config) := by
  apply (quiet_keeps isPrimary_quiet).bind among_monotone
  intro primary
  apply (quiet_perform (.host (.pgMonSetActive primary)) trivial).bind among_monotone
  intro _
  apply (quiet_perform (.host .pgMonSnapshot) trivial).bind among_monotone
  intro pgSnap
  apply (quiet_perform (.host .osMonSnapshot) trivial).bind among_monotone
  intro osSnap
  -- the health of the operating system does not concern the other node
  have hdegraded : Prog.Keeps (among cfg i) (fun _ => True) (PgHaDaemon.noteOsSnapshot osSnap) := by
    apply quiet_keeps
    cases osSnap with
    | some snap => exact .ite (Prog.Calls.perform trivial) trivial
    | none => trivial
  cases pgSnap with
  | none => exact hdegraded
  | some snap =>
      apply (quiet_perform (.host (.setPgState snap.state)) trivial).bind among_monotone
      intro _
      apply Prog.Triple.ite
      · exact fun _ => handlePgFailure_keeps.bind among_monotone fun _ => hdegraded
      · intro _
        apply (quiet_perform (.host .health) trivial).bind among_monotone
        intro health
        apply Prog.Triple.ite _ fun _ => hdegraded
        intro _
        apply (quiet_perform (.host (.setHealth .healthy)) trivial).bind among_monotone
        exact fun _ => hdegraded

theorem mainLoopPass_keeps :
    Prog.Keeps (among cfg i) (fun _ => True) (PgHaDaemon.mainLoopPass config) := by
  have hdrain : (PgHaDaemon.drainEvents config config.loopBound).Calls Heeding :=
    (PgHaDaemon.drainEvents_deciding config _).mono fun _ => heeding_of_deciding
  apply (heeding_keeps hdrain).bind among_monotone
  intro _
  apply refreshState_keeps.bind among_monotone
  exact fun _ => heartbeatFallback_keeps

/-! ### Commands -/

theorem quiet_of_answering {op : Call} (h : PgHaDaemon.Answering op) : Quiet op := by
  cases op with
  | host call =>
      cases call
      case sendRequest request =>
        show request.cmd ≠ "PG_FAIL_HANDOFF"
        rcases h with hcmd | hcmd <;> rw [hcmd] <;> decide
      all_goals first | exact h.elim | trivial
  | _ => exact h.elim

theorem calls_quiet {program : Mgr α} (h : program.Calls PgHaDaemon.Answering) :
    program.Calls Quiet := h.mono fun _ => quiet_of_answering

theorem enterMaintenance_quiet (propagate : Bool) :
    (PgHaDaemon.enterMaintenance config propagate).Calls Quiet :=
  calls_quiet (PgHaDaemon.enterMaintenance_answering _ _)

theorem exitMaintenance_quiet (propagate : Bool) :
    (PgHaDaemon.exitMaintenance config propagate).Calls Quiet := by
  have hsend : (PgHaDaemon.sendMaintenanceToPeer config "MAINTENANCE_OFF").Calls Quiet :=
    calls_quiet (PgHaDaemon.sendMaintenanceToPeer_answering _ (.inr rfl))
  have hrest : (if propagate then
        (PgHaDaemon.sendMaintenanceToPeer config "MAINTENANCE_OFF").bind fun _ =>
          .pure "maintenance mode disabled"
      else .pure "maintenance mode disabled" : Mgr String).Calls Quiet :=
    .ite (.bind hsend fun _ => trivial) trivial
  exact .bind isMaintenance_quiet fun active => .ite (.perform_bind trivial fun _ => hrest) hrest

theorem sendReply_quiet (reply : List (String × String)) :
    (Mgr.host (.sendReply reply)).Calls Quiet := Prog.Calls.perform trivial

/-- A command is received with what its sender has left of the node. -/
theorem recvCommand_triple {n : ℕ} : Prog.Triple (among cfg (site, .peer n)) (fun _ => True)
    (Mgr.host .recvCommand)
    (fun req s => ∃ request : PeerRequest, req = HandOff.requestJson request ∧
      (request.cmd = "PG_FAIL_HANDOFF" → ReadDemoted (site, .peer n) s)) fun _ => True := by
  refine calm_triple (.host .recvCommand) trivial (by simp) (fun _ _ _ _ => trivial) (by simp) ?_
  rintro s answer s' hinv - (⟨letter, hmem, rfl, rfl⟩ | ⟨⟨exc, rfl⟩, rfl⟩)
  · refine ⟨letter.1, rfl, fun hcmd => ?_⟩
    have hread : (((s.received site.other letter).modify site
        (·.learn (.peer n) letter.2)).side site).read (.peer n) = letter.2 := by
      rw [modify_own]
      exact Function.update_self ..
    show Report.Demoted _
    rw [hread]
    exact hinv.reports.handOff site.other letter hmem hcmd
  · trivial

theorem receiveCommand_triple {n : ℕ} : Prog.Triple (among cfg (site, .peer n)) (fun _ => True)
    PgHaDaemon.receiveCommand
    (fun received s => ∃ request : PeerRequest, received.2 = some (.str request.cmd) ∧
      (request.cmd = "PG_FAIL_HANDOFF" → ReadDemoted (site, .peer n) s)) fun _ => True := by
  apply recvCommand_triple.bind among_monotone
  rintro req s ⟨request, rfl, hread⟩
  rw [Prog.bind_eq, HandOff.jsonGet_requestJson]
  exact ⟨request, rfl, hread⟩

theorem handleSwitchoverRequest_keeps :
    Prog.Keeps (among cfg i) (fun _ => True) PgHaDaemon.handleSwitchoverRequest := by
  apply (quiet_keeps (sendReply_quiet _)).bind among_monotone
  intro _
  apply (quiet_perform (.host (.setSwitchoverActive true)) trivial).bind among_monotone
  intro _
  apply start_triple _ (by simp) fun _ _ _ _ => trivial
  intro s hinv _ hdate
  have hagrees : Agrees ((s.side i.1).read i.2) (s.side i.1.other) :=
    Stands.agrees ((hinv.reports.knows i.1).read i.2) hdate
  exact ⟨hinv.unfenced_eq_nil hagrees.promotions, by simp⟩

theorem handlePgFailHandoff_triple : Prog.Triple (among cfg i) (ReadDemoted i)
    (PgHaDaemon.handlePgFailHandoff config) (fun _ _ => True) fun _ => True := by
  have hreply : Prog.Triple (among cfg i) (ReadDemoted i)
      (Mgr.host (.sendReply [("cmd", "PG_FAIL_HANDOFF_ACK")])) (fun _ _ => True) fun _ => True :=
    (quiet_keeps (sendReply_quiet _)).conseq among_monotone (fun _ _ => trivial) (fun _ _ => id)
      fun _ => id
  apply (still_perform (.host .switchoverActive) trivial ofMind_readDemoted).bind among_monotone
  intro active
  apply Prog.Triple.ite fun _ => hreply
  intro _
  have hmaintenance : (PgHaDaemon.isMaintenance config).Calls Still := Prog.Calls.perform trivial
  apply (still_triple ofMind_readDemoted hmaintenance).bind among_monotone
  intro maintenance
  apply Prog.Triple.ite fun _ => hreply
  intro _
  apply (still_perform (.host (.sendReply [("cmd", "PG_FAIL_HANDOFF_ACK")])) trivial
    ofMind_readDemoted).bind among_monotone
  intro _
  apply (still_perform (.host (.acquireFailoverLock true)) trivial ofMind_readDemoted).bind
    among_monotone
  exact fun _ => guarded_triple

theorem dispatchPeer_triple {cmd : String} : Prog.Triple (among cfg i)
    (fun s => cmd = "PG_FAIL_HANDOFF" → ReadDemoted i s)
    (PgHaDaemon.dispatchPeer config (some (.str cmd))) (fun _ _ => True) fun _ => True := by
  have hkeeps {program : Mgr Unit} (h : Prog.Keeps (among cfg i) (fun _ => True) program) :
      Prog.Triple (among cfg i) (fun s => cmd = "PG_FAIL_HANDOFF" → ReadDemoted i s) program
        (fun _ _ => True) fun _ => True :=
    h.conseq among_monotone (fun _ _ => trivial) (fun _ _ => id) fun _ => id
  apply Prog.Triple.ite fun _ => hkeeps handleSwitchoverRequest_keeps
  intro _
  apply Prog.Triple.ite
  · intro hcmd
    have hcmd : cmd = "PG_FAIL_HANDOFF" := by simpa [SwitchoverEngine.isText] using hcmd
    exact handlePgFailHandoff_triple.conseq among_monotone (fun _ hs => hs hcmd)
      (fun _ _ => id) fun _ => id
  · intro _
    refine hkeeps (quiet_keeps (.ite ?_ (.ite ?_ (sendReply_quiet _))))
    · exact .bind (enterMaintenance_quiet _) fun _ => sendReply_quiet _
    · exact .bind (exitMaintenance_quiet _) fun _ => sendReply_quiet _

theorem handlePeerConn_keeps {n : ℕ} : Prog.Keeps (among cfg (site, .peer n)) (fun _ => True)
    (PgHaDaemon.handlePeerConn config) := by
  apply (receiveCommand_triple.attempt among_monotone).bind among_monotone
  intro received
  cases received with
  | error exc => exact quiet_keeps (.ite trivial trivial)
  | ok received =>
      rintro s ⟨request, hcmd, hread⟩
      have hauthenticated : (PgHaDaemon.authenticated config received.1).Calls Still :=
        .ite trivial (.bind (Prog.calls_ofExcept _) fun token => Prog.calls_ofExcept _)
      -- checking the token does not change what has been read
      have hmind : OfMind (site, .peer n)
          fun s => request.cmd = "PG_FAIL_HANDOFF" → ReadDemoted (site, .peer n) s :=
        fun s s' hread hgone hs hcmd => ofMind_readDemoted s s' hread hgone (hs hcmd)
      have hanswered : Prog.Triple (among cfg (site, .peer n))
          (fun s => request.cmd = "PG_FAIL_HANDOFF" → ReadDemoted (site, .peer n) s)
          (do
            if ← PgHaDaemon.authenticated config received.1 then
              PgHaDaemon.dispatchPeer config received.2
            else
              Mgr.host (.sendReply [("error", "auth_failed")])) (fun _ _ => True)
          fun _ => True := by
        apply (still_triple hmind hauthenticated).bind among_monotone
        intro accepted
        rw [hcmd]
        apply Prog.Triple.ite fun _ => dispatchPeer_triple
        intro _
        exact (quiet_keeps (sendReply_quiet _)).conseq among_monotone (fun _ _ => trivial)
          (fun _ _ => id) fun _ => id
      exact hanswered s hread

theorem dispatchSwitchover_quiet : (PgHaDaemon.dispatchSwitchover config).Calls Quiet := by
  refine .bind isMaintenance_quiet fun maintenance => .ite trivial ?_
  refine .bind isPrimary_quiet fun primary => .ite trivial ?_
  exact .perform_bind trivial fun active => .ite trivial (.perform_bind rfl fun _ => trivial)

theorem handleMgmtConn_quiet : (PgHaDaemon.handleMgmtConn config).Calls Quiet := by
  have hdispatch (req : Json) : (PgHaDaemon.dispatchMgmt config req).Calls Quiet := by
    refine .bind (Prog.calls_ofExcept _) fun cmd => .ite ?_ (.ite ?_ (.ite ?_ (.ite ?_ ?_)))
    · exact .bind (calls_quiet (PgHaDaemon.dispatchStatus_answering _)) fun _ => trivial
    · exact .bind dispatchSwitchover_quiet fun _ => trivial
    · exact .bind (enterMaintenance_quiet _) fun _ => trivial
    · exact .bind (exitMaintenance_quiet _) fun _ => trivial
    · exact .ite trivial trivial
  have hresponse : (PgHaDaemon.mgmtResponse config).Calls Quiet :=
    .except (.perform_bind trivial fun req => hdispatch req) fun exc => .ite trivial trivial
  exact .bind hresponse fun _ => Prog.Calls.perform trivial

/-! ### The switchover of the primary -/

theorem quiet_of_handing {op : Call} (h : SwitchoverEngine.Handing op) : Quiet op := by
  cases op with
  | host call =>
      cases call
      case sendRequest request =>
        have hcmd : request.cmd = SwitchoverEngine.cmdSwitchoverRequest := h
        show request.cmd ≠ "PG_FAIL_HANDOFF"
        rw [hcmd]
        decide
      case setRole role =>
        obtain rfl : role = .standby := h
        trivial
      all_goals first | exact h.elim | trivial
  | disk call => cases call <;> first | exact h.elim | trivial
  | net call => trivial

theorem runSwitchover_quiet : (PgHaDaemon.runSwitchover config).Calls Quiet := by
  have hexecute : (SwitchoverEngine.executeAsPrimary config).Calls Quiet := by
    refine SwitchoverEngine.executeAsPrimary_calls _ (fun _ => quiet_of_handing) trivial trivial
      trivial fun step hstep => ?_
    simp only [SwitchoverEngine.primarySteps, List.mem_cons, List.not_mem_nil, or_false] at hstep
    rcases hstep with rfl | rfl | rfl | rfl | rfl | rfl | rfl <;> trivial
  refine .perform_bind trivial fun _ => .perform_bind trivial fun _ =>
    .bind (PgHaDaemon.efmStop_calls _ fun _ => trivial) fun _ => ?_
  refine .ensuring (.bind hexecute fun _ => trivial) ?_
  exact .perform_bind trivial fun now => .perform_bind trivial fun _ =>
    Prog.Calls.perform trivial

/-! ## Threads that run a promotion -/

section Promotion

variable {n : ℕ}

/-- While a promotion runs, the other node runs no failover without fencing. -/
theorem Inv.unfenced_of_running (hinv : Inv s) (hrunning : Running (site, .task n) s) :
    (s.side site.other).unfenced = [] := by
  by_contra hunder
  have hidle := hinv.idle site.other hunder
  rw [Site.other_other] at hidle
  have hmem : n ∈ (s.side site).promotions := hrunning
  rw [hidle.promotions] at hmem
  cases hmem

/-- A node that runs a promotion has said nothing that is up to date. -/
theorem rests_of_running (hrunning : Running (site, .task n) s) {side' : Side}
    (hstarted : side'.started = (s.side site).started) : (s.side site).Rests side' := by
  have hbusy : (s.side site).promotions ≠ [] := List.ne_nil_of_mem hrunning
  exact ⟨Nat.le_of_eq hstarted.symm, fun _ h => absurd h hbusy, fun h => absurd h hbusy,
    fun h => absurd h hbusy⟩

/-- The other node is idle when the disk is attached without fencing. -/
theorem inv_attaching (hinv : Inv s) (slot : Slot) : Inv (s.attaching slot) := by
  obtain ⟨site, thread⟩ := slot
  cases thread with
  | task n =>
      unfold World.attaching
      dsimp only
      split
      case isTrue hunder =>
        refine ⟨hinv.idle, hinv.unfenced, hinv.promoting, fun m hm => ?_,
          reports_of_same hinv.reports rfl rfl rfl⟩
        rcases List.mem_append.mp hm with hold | hnew
        · exact hinv.apart m hold
        · obtain rfl := List.mem_singleton.mp hnew
          have hidle := hinv.idle site (List.ne_nil_of_mem hunder)
          have hnone := hinv.promoting site.other
          rw [hidle.promotions] at hnone
          refine ⟨hidle.role, hidle.held, ?_⟩
          simp [Side.moment, List.subset_nil.mp hnone]
      case isFalse => exact hinv
  | _ => exact hinv

/-- A change that ends no promotion. -/
theorem running_modify (hsame : (f (s.side site)).promotions = (s.side site).promotions) {j : Slot}
    (h : Running j s) : Running j (s.modify site f) := by
  obtain ⟨site', thread⟩ := j
  cases thread with
  | task m =>
      show m ∈ ((s.modify site f).side site').promotions
      by_cases hsite : site' = site
      · subst hsite
        rw [modify_own, hsame]
        exact h
      · rw [modify_of_ne hsite]
        exact h
  | _ => trivial

theorem running_of_side {j : Slot} (hside : s'.side = s.side) (h : Running j s) : Running j s' := by
  obtain ⟨site', thread⟩ := j
  cases thread with
  | task m =>
      show m ∈ (s'.side site').promotions
      rw [hside]
      exact h
  | _ => trivial

/-- A promotion attaches the disk. -/
theorem attach_step (cfg : Site → Config) (hinv : Inv s) (hrunning : Running (site, .task n) s)
    {answer : Except Exc Unit}
    (h : takeoverStep cfg (site, .task n) s ⟨.disk .attachDiskRw, answer⟩ s') :
    Inv s' ∧ ∀ j, Running j s → Running j s' := by
  have hattaching := inv_attaching hinv (site, .task n)
  have hside := attaching_side (s := s) (site, .task n)
  -- the disk has moved, or the request has failed
  rcases h with rfl | ⟨-, rfl⟩
  · have hown : Inv ((s.attaching (site, .task n)).hold site true) := by
      have hrunning' : Running (site, .task n) (s.attaching (site, .task n)) :=
        running_of_side hside hrunning
      apply inv_modify hattaching _ (hattaching.idle site) (hattaching.unfenced site)
        (hattaching.promoting site)
      · exact hattaching.reports.modify_of_same (rests_of_running hrunning' rfl) rfl rfl rfl
      · rw [hside]
        exact hinv.unfenced_of_running hrunning
    have hother : Eases site.other .mainLoop ((s.attaching (site, .task n)).hold site true)
        ((s.attaching (site, .task n)).attach site) :=
      eases_modify (f := fun side => { side with held := false }) (Side.eases_release _ _)
    have hreports : Reports ((s.attaching (site, .task n)).attach site) :=
      hown.reports.release
    refine ⟨hother.inv hown hreports, fun j hj => ?_⟩
    unfold World.attach World.hold
    apply running_modify rfl
    apply running_modify rfl
    exact running_of_side hside hj
  · exact ⟨hattaching, fun j => running_of_side hside⟩

/-- A promotion comes to the step ATTACH, or promotes the node. -/
theorem modify_step (hinv : Inv s) (hrunning : Running (site, .task n) s) {call : HostCall}
    (hcall : call ≠ .setRole .standby)
    (hunfenced : ((s.side site).after (.task n) call).unfenced = (s.side site).unfenced)
    (hpromotions : ((s.side site).after (.task n) call).promotions = (s.side site).promotions)
    (hstarted : ((s.side site).after (.task n) call).started = (s.side site).started)
    (hpromoting : ∀ m ∈ ((s.side site).after (.task n) call).promoting,
      m = n ∨ m ∈ (s.side site).promoting) :
    Inv (s.modify site (·.after (.task n) call)) ∧
      ∀ j, Running j s → Running j (s.modify site (·.after (.task n) call)) := by
  refine ⟨?_, fun j => running_modify hpromotions⟩
  -- the other node runs no failover without fencing while this promotion is under way
  apply inv_modify hinv (hinv.unfenced_of_running hrunning)
  · rw [hunfenced]
    exact hinv.idle site
  · rw [hunfenced, hpromotions]
    exact hinv.unfenced site
  · rw [hpromotions]
    intro m hm
    rcases hpromoting m hm with rfl | hold
    · exact hrunning
    · exact hinv.promoting site hold
  · exact hinv.reports.modify_of_same (rests_of_running hrunning hstarted) (after_heard _ _ _)
      (after_read _ _ _) (after_gone _ _ hcall)

theorem calm_cases (op : Call) : Calm op ∨ op = .disk .attachDiskRw ∨
    op = .host (.setRole .primary) ∨ op = .host (.mark (.step .attach)) := by
  unfold Calm
  split <;> simp

theorem steady_keeps {program : Mgr α} (hcalls : program.Calls Steady) :
    Prog.Keeps (among cfg (site, .task n)) (Running (site, .task n)) program := by
  refine Contract.keeps_of_step stable_running ?_ ?_ hcalls
  · rintro op hsteady j s answer s' child ⟨-, m, task, -, hevent, -⟩
    obtain ⟨rfl, -⟩ := Event.mk.inj hevent
    exact hsteady
  · rintro s ⟨op, answer⟩ s' hsteady hinv hrunning ⟨-, h⟩
    have hminds : Minds (site, .task n) s s' := minds_of_step h
    have hkeeping (hkept : Inv s' ∧ ∀ j, Running j s → Running j s') :
        (takeoverContract cfg).Keeping (site, .task n) (Running (site, .task n) s') s s' :=
      ⟨hkept.1, fun j hj => ⟨hkept.2 j, (hminds j hj).1, (hminds j hj).2⟩, hkept.2 _ hrunning⟩
    apply hkeeping
    -- what is not calm takes the disk or the role, and a promotion under way may
    rcases calm_cases op with hcalm | rfl | rfl | rfl
    · have heases : Eases site .mainLoop s s' := eases_of_step hcalm (.inr hsteady) h
      have hop : op ≠ .disk .attachDiskRw := by
        rintro rfl
        exact hcalm
      have hreports : Reports s' := by
        refine reports_of_step hop hinv.reports heases.rests ?_ h
        rintro request rfl
        exact hsteady.elim
      refine ⟨heases.inv hinv hreports, fun j hj => ?_⟩
      by_cases hloop : j = (site, .mainLoop)
      · rw [hloop]
        trivial
      · exact heases.running hloop hj
    · exact attach_step cfg hinv hrunning h
    · obtain ⟨-, rfl⟩ := h
      refine modify_step hinv hrunning (by simp) rfl rfl rfl fun m hm => .inr ?_
      exact List.mem_of_mem_filter hm
    · obtain ⟨-, rfl⟩ := h
      exact modify_step hinv hrunning (by simp) rfl rfl rfl fun m hm => List.mem_cons.mp hm

/-- A promotion that has ended takes nothing any more. -/
theorem ended_keeps {program : Mgr α} (hcalls : program.Calls Quiet) :
    Prog.Triple (among cfg (site, .task n)) (Running (site, .task n)) program (fun _ _ => True)
      fun _ => True :=
  (quiet_keeps hcalls).conseq among_monotone (fun _ _ => trivial) (fun _ _ => id) fun _ => id

theorem steady_of_working {op : Call} (h : op.working) : Steady op := by
  unfold Steady
  split <;> first | exact h.elim | trivial

theorem execute_triple (skipFence : Bool) :
    Prog.Triple (among cfg (site, .task n)) (Running (site, .task n))
      (FailoverEngine.execute (cfg site) skipFence) (fun _ _ => True) fun _ => True := by
  have hemit (eventType : HaEventType) (message : String) :
      (emit (cfg site) eventType message).Calls Steady := emit_calls (fun _ => trivial) _ _
  have hsteps : (FailoverEngine.runSteps (cfg site) skipFence
      (FailoverEngine.steps (cfg site))).Calls Steady :=
    FailoverEngine.runSteps_calls _ (fun _ => trivial) (fun _ => trivial) (fun _ => trivial) _
      fun step hstep => (FailoverEngine.steps_working _ step hstep).mono fun _ => steady_of_working
  have henter : Prog.Calls Steady (Mgr.host (.mark (.enter .failover))) :=
    Prog.Calls.perform trivial
  refine .bind among_monotone ((steady_keeps henter).conseq among_monotone (fun _ => id)
    (fun _ _ => id) fun _ _ => trivial) fun _ => ?_
  refine .ensuring among_monotone (R := Running (site, .task n)) (steady_keeps ?_)
    (ended_keeps (Prog.Calls.perform trivial))
  refine .perform_bind trivial fun attempts => .perform_bind trivial fun _ =>
    .perform_bind trivial fun now => .perform_bind trivial fun _ =>
    .perform_bind trivial fun current => .bind (hemit _ _) fun _ => .bind hsteps fun succeeded => ?_
  exact .ite (.perform_bind trivial fun _ => .bind (hemit _ _) fun _ => trivial) trivial

theorem runFailover_triple (skipFence : Bool) :
    Prog.Triple (among cfg (site, .task n)) (Running (site, .task n))
      (PgHaDaemon.runFailover (cfg site) skipFence) (fun _ _ => True) fun _ => True := by
  refine .bind among_monotone (execute_triple skipFence) fun succeeded => quiet_keeps ?_
  exact .ite (PgHaDaemon.efmStart_calls _ fun _ => trivial) trivial

theorem runSwitchoverAsStandby_triple :
    Prog.Triple (among cfg (site, .task n)) (Running (site, .task n))
      (PgHaDaemon.runSwitchoverAsStandby (cfg site)) (fun _ _ => True) fun _ => True := by
  have hsteps : (SwitchoverEngine.runStandbySteps (cfg site) []
      (SwitchoverEngine.standbySteps (cfg site))).Calls Steady := by
    apply SwitchoverEngine.runStandbySteps_calls _ (fun _ => trivial) fun _ => trivial
    · exact fun name => (SwitchoverEngine.undo_working name).mono fun _ => steady_of_working
    · exact fun step hstep =>
        (SwitchoverEngine.standbySteps_working _ step hstep).mono fun _ => steady_of_working
  have hexecute : (SwitchoverEngine.executeAsStandby (cfg site)).Calls Steady := by
    refine .bind (.perform_bind trivial fun role => trivial) fun standby => .ite trivial ?_
    refine .perform_bind trivial fun _ => .ensuring ?_ (Prog.Calls.perform trivial)
    refine .bind hsteps fun succeeded => .ite (.bind ?_ fun _ => trivial) trivial
    exact emit_calls (fun _ => trivial) _ _
  refine .ensuring among_monotone (R := Running (site, .task n)) (steady_keeps ?_)
    (ended_keeps (Prog.Calls.perform trivial))
  refine .bind hexecute fun promoted => .ite ?_ trivial
  exact PgHaDaemon.efmStart_calls _ fun _ => trivial

end Promotion

/-! ## Both nodes -/

/-- A change of a node that no thread makes. -/
theorem modify_outside (hinv : Inv s) (hsame : (s.side site).Eases .mainLoop (f (s.side site)))
    (hread : (f (s.side site)).read = (s.side site).read)
    (hgone : (f (s.side site)).gone = (s.side site).gone)
    (hheard : Stands (f (s.side site)).heard (s.side site.other)) :
    Inv (s.modify site f) ∧ ∀ j, Kept j s (s.modify site f) := by
  have heases : Eases site .mainLoop s (s.modify site f) := eases_modify hsame
  have hreports : Reports (s.modify site f) := by
    refine hinv.reports.modify hsame.rests ⟨hheard, fun thread => ?_⟩ fun thread => ?_
    · rw [hread]
      exact (hinv.reports.knows site).read thread
    · rw [hgone]
      exact hsame.rests.stands (hinv.reports.gone site thread)
  refine ⟨heases.inv hinv hreports, fun j => ?_⟩
  obtain ⟨hread', hgone'⟩ := mind_modify_of_same hread hgone j
  refine ⟨fun hrunning => ?_, hread', hgone'⟩
  by_cases hloop : j = (site, .mainLoop)
  · rw [hloop]
    trivial
  · exact heases.running hloop hrunning

theorem inv_of_same (hinv : Inv s) (hside : s'.side = s.side) (hattaches : s'.attaches = s.attaches)
    (hreports : Reports s') : Inv s' ∧ ∀ j, Kept j s s' := by
  have heases : Eases .primary .mainLoop s s' := eases_of_same hside hattaches
  refine ⟨heases.inv hinv hreports, fun j => ⟨running_of_side hside, ?_, ?_⟩⟩ <;> rw [hside]

/-- A node says what it is. -/
theorem reports_beat (h : Reports s) (seq : Int) : Reports (s.beat site seq) := by
  refine ⟨h.knows, h.gone, fun site' beat hbeat => ?_, h.letters, h.handOff⟩
  have hbeat : beat ∈ Function.update s.beats site
    ((heartbeatOf (s.side site).daemon.node seq, (s.side site).report.date) :: s.beats site)
      site' := hbeat
  by_cases hsite : site' = site
  · subst hsite
    rw [Function.update_self] at hbeat
    rcases List.mem_cons.mp hbeat with rfl | hold
    · exact stands_report (s.side site')
    · exact h.beats site' beat hold
  · rw [Function.update_of_ne hsite] at hbeat
    exact h.beats site' beat hbeat

theorem inv_outside (hinv : Inv s) (h : Outside s s') : Inv s' ∧ ∀ j, Kept j s s' := by
  cases h with
  | send site seq => exact inv_of_same hinv rfl rfl (reports_beat hinv.reports seq)
  | receive site beat hmem =>
      apply modify_outside hinv (.of_lists id id rfl rfl rfl fun _ => id) rfl rfl
      exact hinv.reports.beats site.other beat hmem
  | silence site =>
      apply modify_outside hinv (.of_lists id id rfl rfl rfl fun _ => id) rfl rfl
      exact (hinv.reports.knows site).heard
  | time now hnow => exact inv_of_same hinv rfl rfl (reports_of_same hinv.reports rfl rfl rfl)

theorem arrives_keeps {program : Mgr Unit} (h : Arrives cfg i program) :
    Prog.Keeps (among cfg i) (fun _ => True) program := by
  obtain ⟨site, thread⟩ := i
  cases thread with
  | mainLoop =>
      rw [show program = _ from h]
      exact mainLoopPass_keeps
  | peer n =>
      rw [show program = _ from h]
      exact handlePeerConn_keeps
  | management n =>
      rw [show program = _ from h]
      exact quiet_keeps handleMgmtConn_quiet
  | task n => exact h.elim

theorem taskBody_triple {n : ℕ} {task : Task} (hrunning : task ≠ .runSwitchover →
      Running (site, .task n) s) :
    (PgHaDaemon.taskBody (cfg site) task).wp (among cfg (site, .task n)) (fun _ _ => True) s := by
  have hany {P : World → Prop} {program : Mgr Unit} (hs : P s)
      (h : Prog.Triple (among cfg (site, .task n)) P program (fun _ _ => True) fun _ => True) :
      program.wp (among cfg (site, .task n)) (fun _ _ => True) s :=
    Prog.wp_mono among_monotone (fun _ _ _ => trivial) (h s hs)
  cases task with
  | runFailover skipFence => exact hany (hrunning (by simp)) (runFailover_triple skipFence)
  | runSwitchover => exact hany trivial (quiet_keeps runSwitchover_quiet)
  | runSwitchoverAsStandby => exact hany (hrunning (by simp)) runSwitchoverAsStandby_triple

theorem takeoverContract_holds : (takeoverContract cfg).Holds where
  start i program s _ hstart := by
    have hkeeps (h : Arrives cfg i program) : (takeoverContract cfg).Safe i program s :=
      Prog.wp_mono among_monotone (fun _ _ _ => trivial) (arrives_keeps h s trivial)
    obtain ⟨site, thread⟩ := i
    cases thread with
    | task n =>
        obtain ⟨task, rfl, hrunning⟩ := hstart
        exact taskBody_triple hrunning
    | _ => exact hkeeps hstart
  arrive i s program s' hinv harrive _ := by
    obtain ⟨harrives, rfl⟩ := harrive
    refine ⟨hinv, fun j _ => ⟨id, rfl, rfl⟩, ?_⟩
    obtain ⟨site, thread⟩ := i
    cases thread with
    | task n => exact harrives.elim
    | _ => exact harrives
  env s s' hinv henv := inv_outside hinv henv

/-- After the startup nothing has been said yet. -/
theorem reports_begin (active : Option Site) (now : Int) :
    Reports (begin cfg active now).shared where
  knows _ := ⟨stands_of_undated rfl, fun _ => stands_of_undated rfl⟩
  gone _ _ := stands_of_undated rfl
  beats _ _ h := absurd h List.not_mem_nil
  letters _ _ h := absurd h List.not_mem_nil
  handOff _ _ h := absurd h List.not_mem_nil

theorem sound_of_begin (active : Option Site) (now : Int) :
    (takeoverContract cfg).Sound (begin cfg active now) := by
  refine ⟨⟨fun site h => absurd rfl h, fun site => List.nil_subset _, fun site =>
    List.nil_subset _, fun m hm => absurd hm List.not_mem_nil, reports_begin active now⟩,
    fun i => trivial⟩

/-- **Taking over without fencing.**  If promotions are started only on messages that are up to
date, and on PEER_DEAD only while the peer runs no failover without fencing, the other node is
not PRIMARY, does not hold the disk and is not about to whenever a failover without fencing
attaches it. -/
theorem takesOverApart (cfg : Site → Config) :
    TakesOverApart cfg ((takeoverSystem cfg).restrict upToDate) :=
  fun active now _ hreach =>
    (takeoverContract_holds.reach hreach (sound_of_begin active now)).1.apart

/-! ## Sample runs -/

section Sample

/-- A PRIMARY whose PostgreSQL has crashed, and a STANDBY; nobody accepts a connection. -/
def Side.answer (side : Side) (now : Int) : (call : HostCall) → Except Exc call.Ret
  | .monotonic => .ok now
  | .pgMonSnapshot => .ok (if side.role = .primary then some ⟨false, .crashed⟩ else none)
  | .pgMonConsecutiveFailures => .ok 3
  | .createConnection .. => .error ⟨.osError, "Connection refused"⟩
  | call => side.daemon.reply call

/-- The answer to who holds the disk. -/
def World.holder (s : World) : Option String :=
  if (s.side .primary).held then some (sampleSites .primary).cluster.nodeName
  else if (s.side .standby).held then some (sampleSites .standby).cluster.nodeName
  else none

theorem holder_spec (s : World) :
    (∀ name, s.holder = some name →
      ∃ site, (s.side site).held = true ∧ name = (sampleSites site).cluster.nodeName) ∧
    (s.holder = none → ∀ site, (s.side site).held = false) := by
  unfold World.holder
  split
  case isTrue hprimary =>
    exact ⟨fun name h => ⟨.primary, hprimary, (Option.some.inj h).symm⟩, by simp⟩
  case isFalse hprimary =>
    split
    case isTrue hstandby =>
      exact ⟨fun name h => ⟨.standby, hstandby, (Option.some.inj h).symm⟩, by simp⟩
    case isFalse hstandby =>
      refine ⟨by simp, fun _ site => ?_⟩
      cases site with
      | primary => simpa using hprimary
      | standby => simpa using hstandby

/-- Every other operation succeeds. -/
def obey (slot : Slot) : (op : Call) → World → Except Exc op.Ret × World
  | .disk call, s =>
      match call with
      | .currentRwHolder => (.ok s.holder, s)
      | .attachDiskRw => (.ok (), (s.attaching slot).attach slot.1)
      | .detachDisk => (.ok (), s.modify slot.1 (·.detach slot.2))
      | .forceDetachFromPeer => (.ok (), s.hold slot.1.other false)
      | call => (call.reply, s)
  | .net _, s => (.ok (), s)
  | .host call, s =>
      match call with
      | .time => (.ok s.now, s)
      | .isPeerAlive => (.ok (s.side slot.1).view.alive, s)
      | .peerSnapshot =>
          (.ok (s.side slot.1).view.peer,
            s.modify slot.1 fun side => side.learn slot.2 side.heard)
      | .sendRequest request => (.ok (), s.sent slot request)
      | .recvCommand => (.error ⟨.osError, "timed out"⟩, s)
      | .startThread _ => (.error ⟨.runtimeError, "can't start new thread"⟩, s)
      | call => ((s.side slot.1).answer s.now call, s.modify slot.1 (·.after slot.2 call))

/-- A thread waits for the lock, and a thread is not started by an operation of its own. -/
def waits (slot : Slot) : Call → World → Bool
  | .host (.acquireFailoverLock _), s => (s.side slot.1).daemon.failoverLocked
  | .host (.startThread _), _ => true
  | _, _ => false

theorem takeoverStep_obey (slot : Slot) (s : World) (op : Call) (h : waits slot op s = false) :
    takeoverStep sampleSites slot s ⟨op, (obey slot op s).1⟩ (obey slot op s).2 := by
  cases op with
  | disk call =>
      cases call
      case currentRwHolder =>
        obtain ⟨hsome, hnone⟩ := holder_spec s
        exact ⟨fun name h => hsome name (Except.ok.inj h), fun h => hnone (Except.ok.inj h), rfl⟩
      case attachDiskRw => exact .inl rfl
      case forceDetachFromPeer => exact .inl rfl
      all_goals first | rfl | exact ⟨rfl, rfl⟩
  | net call => cases call <;> first | rfl | exact ⟨rfl, rfl⟩
  | host call =>
      cases call
      case sendRequest request => exact .inl rfl
      case recvCommand =>
        obtain ⟨site, thread⟩ := slot
        cases thread with
        | peer n => exact .inr ⟨⟨_, rfl⟩, rfl⟩
        | _ => rfl
      case startThread task => exact ⟨⟨_, rfl⟩, rfl⟩
      case acquireFailoverLock blocking => exact ⟨⟨rfl, fun _ => h⟩, rfl⟩
      case putEvent event => exact ⟨by simp [obey, Side.answer, DaemonState.reply], rfl⟩
      case getEvent => exact ⟨by simp [obey, Side.answer, DaemonState.reply], rfl⟩
      all_goals first | exact ⟨rfl, rfl⟩ | exact ⟨⟨_, rfl⟩, rfl⟩ | exact ⟨trivial, rfl⟩

/-- A thread goes on as far as it can, or until it would perform an operation of `stop`. -/
def onwardUntil (stop : Call → Bool) (slot : Slot) (state : State) : State :=
  state.advance (obey slot) (fun op s => waits slot op s || stop op) slot 100

def onward : Slot → State → State := onwardUntil fun _ => false

/-- A pass of a main loop. -/
def pass (site : Site) (state : State) : State :=
  onward (site, .mainLoop) (state.arrived (site, .mainLoop) state.shared
    (PgHaDaemon.mainLoopPass (sampleSites site)))

/-- The main loop of a node, which is about to start a failover, has started it. -/
def taking (site : Site) (state : State) : State :=
  onward (site, .mainLoop) (state.forked (site, .mainLoop) (site, .task 0)
    (.host (.startThread (.runFailover true))) (.ok ())
    (state.shared.modify site (·.start 0 (.runFailover true)))
    (PgHaDaemon.runFailover (sampleSites site) true))

/-- A heartbeat is sent, and arrives. -/
def heartbeat (site : Site) (seq : Int) (state : State) : State :=
  let msg := heartbeatOf (state.shared.side site).daemon.node seq
  let date := (state.shared.side site).report.date
  ⟨(state.shared.beat site seq).modify site.other fun side =>
    { side with view := side.view.store msg state.shared.now, date := date }, state.prog⟩

/-- Time goes on. -/
def later (millis : Int) (state : State) : State :=
  ⟨{ state.shared with now := state.shared.now + millis }, state.prog⟩

section

variable {allowed : Slot → World → Event Call.Ret Exc → Prop} {start state : State}

/-- The runs of the sample nodes in which a condition is met. -/
abbrev sampleRuns (allowed : Slot → World → Event Call.Ret Exc → Prop) :
    System Slot Call.Ret Exc Unit World :=
  (takeoverSystem sampleSites).restrict allowed

/-- The condition lets the threads obey. -/
def Lenient (allowed : Slot → World → Event Call.Ret Exc → Prop) : Prop :=
  ∀ slot s op, waits slot op s = false → allowed slot s ⟨op, (obey slot op s).1⟩

theorem lenient_upToDate : Lenient upToDate := by
  intro slot s op h
  cases op with
  | host call =>
      cases call
      case startThread task => cases h
      all_goals trivial
  | _ => trivial

theorem Lenient.reach_until (hallowed : Lenient allowed) {stop : Call → Bool} {slot : Slot}
    (h : (sampleRuns allowed).Reach start state) :
    (sampleRuns allowed).Reach start (onwardUntil stop slot state) := by
  refine h.advance (fun s op hop => ?_) 100
  have hgoes : waits slot op s = false := (Bool.or_eq_false_iff.mp hop).1
  exact ⟨hallowed slot s op hgoes, takeoverStep_obey slot s op hgoes⟩

theorem Lenient.reach_pass (hallowed : Lenient allowed) {site : Site}
    (h : (sampleRuns allowed).Reach start state)
    (hidle : (state.prog (site, .mainLoop)).Finished) :
    (sampleRuns allowed).Reach start (pass site state) :=
  hallowed.reach_until (h.arrive ⟨rfl, rfl⟩ hidle)

theorem Lenient.reach_taking (hallowed : Lenient allowed) {site : Site}
    (h : (sampleRuns allowed).Reach start state)
    (hstart : allowed (site, .mainLoop) state.shared
      ⟨.host (.startThread (.runFailover true)), .ok ()⟩)
    (hhead : (state.prog (site, .mainLoop)).head? =
      some (.host (.startThread (.runFailover true))))
    (hidle : (state.prog (site, .task 0)).Finished) :
    (sampleRuns allowed).Reach start (taking site state) :=
  hallowed.reach_until
    (h.fork hhead ⟨hstart, 0, .runFailover true, rfl, rfl, rfl, rfl⟩ (by simp) hidle)

theorem reach_heartbeat (site : Site) (seq : Int) (h : (sampleRuns allowed).Reach start state) :
    (sampleRuns allowed).Reach start (heartbeat site seq state) := by
  refine (h.env (.send site seq)).env (.receive site.other
    (heartbeatOf (state.shared.side site).daemon.node seq,
      (state.shared.side site).report.date) ?_)
  cases site <;> exact List.mem_cons_self

theorem reach_later {millis : Int} (hmillis : 0 ≤ millis)
    (h : (sampleRuns allowed).Reach start state) :
    (sampleRuns allowed).Reach start (later millis state) :=
  h.env (.time _ (Int.le_add_of_nonneg_right hmillis))

end

def sampleStart : State := begin sampleSites (some .primary) 1000000

/-- The PRIMARY has demoted itself, and the STANDBY has heard it. -/
def demoted : State := heartbeat .primary 1 (pass .primary sampleStart)

/-- The main loop of the STANDBY is about to start a failover. -/
def ready : State := pass .standby demoted

/-- It has started it. -/
def taken : State := taking .standby ready

/-- The failover of the STANDBY is about to attach the disk. -/
def paused : State := onwardUntil (fun op => op == .disk .attachDiskRw) (.standby, .task 0) taken

/-- The grace period of the former PRIMARY is over, and it has heard the STANDBY. -/
def graced : State := pass .primary (heartbeat .standby 1 (later 31000 paused))

theorem Lenient.reach_taken {allowed : Slot → World → Event Call.Ret Exc → Prop}
    (hallowed : Lenient allowed) (hstart : allowed (.standby, .mainLoop) ready.shared
      ⟨.host (.startThread (.runFailover true)), .ok ()⟩) :
    (sampleRuns allowed).Reach sampleStart taken := by
  have hdemoted : (sampleRuns allowed).Reach sampleStart demoted :=
    reach_heartbeat .primary 1 (hallowed.reach_pass .refl trivial)
  have hready : (sampleRuns allowed).Reach sampleStart ready :=
    hallowed.reach_pass hdemoted (Prog.finished_of_returned () (by decide))
  exact hallowed.reach_taking hready hstart (by decide)
    (Prog.finished_of_returned () (by decide))

/-- The STANDBY attaches the disk while the former PRIMARY is idle. -/
theorem takesOverApart_promoted : ∃ state, (sampleRuns upToDate).Reach sampleStart state ∧
    state.shared.attaches ≠ [] ∧ ∀ m ∈ state.shared.attaches, Apart m := by
  have hdate : UpToDate ((ready.shared.side .standby).read .mainLoop)
      (ready.shared.side .primary) := by
    unfold UpToDate
    decide
  have hreach : (sampleRuns upToDate).Reach sampleStart (onward (.standby, .task 0) taken) :=
    lenient_upToDate.reach_until (lenient_upToDate.reach_taken hdate)
  refine ⟨_, hreach, by decide, ?_⟩
  exact takesOverApart sampleSites (some .primary) 1000000 _ hreach

/-- While the STANDBY is about to attach the disk, its last heartbeat still lets the former
PRIMARY take over, which attaches the disk without fencing. -/
theorem not_takesOverApart : ¬ TakesOverApart sampleSites (takeoverSystem sampleSites) := by
  intro h
  have hlenient : Lenient fun _ _ _ => True := fun _ _ _ _ => trivial
  have hpaused : (sampleRuns fun _ _ _ => True).Reach sampleStart paused :=
    hlenient.reach_until (hlenient.reach_taken trivial)
  have hheard : (sampleRuns fun _ _ _ => True).Reach sampleStart
      (heartbeat .standby 1 (later 31000 paused)) :=
    reach_heartbeat .standby 1 (reach_later (by decide) hpaused)
  have hgraced : (sampleRuns fun _ _ _ => True).Reach sampleStart graced :=
    hlenient.reach_pass hheard (Prog.finished_of_returned () (by decide))
  have htaking : (sampleRuns fun _ _ _ => True).Reach sampleStart (taking .primary graced) :=
    hlenient.reach_taking hgraced trivial (by decide)
      (Prog.finished_of_returned () (by decide))
  have hretaken : (sampleRuns fun _ _ _ => True).Reach sampleStart
      (onward (.primary, .task 0) (taking .primary graced)) := hlenient.reach_until htaking
  have hattaches : (onward (.primary, .task 0) (taking .primary graced)).shared.attaches =
      [⟨.standby, false, true⟩] := by
    decide
  have hapart := h _ _ _ hretaken.unrestrict ⟨.standby, false, true⟩ (by rw [hattaches]; simp)
  cases hapart.promoting

end Sample

end PgHa.Takeover

import PgHa.Effect.Threads
import PgHa.Heartbeat.Sender
import PgHa.Model.Host

/-!
# What two nodes know of each other

The heartbeat managers of both nodes, each with its sender, its receiver and its
watchdog, and the network between them, one operation at a time.  The nodes go
through their states meanwhile, and the network does with the datagrams under way
what it likes: it may be `wild` (lose, delay, double, reorder and reflect them) or
`orderly` (only lose some of them).

* Whatever the network does, a node takes nothing for a heartbeat of its peer that
  the peer has not sent: what it keeps of the peer is one state of the peer as a
  whole, never parts of two, and never its own (`keptOf_past`).
* If the network is orderly, a node hears the peer's heartbeats in the order in
  which they were sent, and each at most once (`stored_inOrder`).

The invariant is `Accounted`: the datagrams under way to a node and those that it
has stored are among those that were sent, in an orderly network in their order.
A datagram between its receipt and the store is the receiver's own (`Pending`).
-/

namespace PgHa.Exchange

open Effect HeartbeatManager JsonText
open Reception (Shows)

/-! ## The system -/

inductive Thread
  | sender
  | receiver
  | watchdog
  deriving DecidableEq, Repr

abbrev Slot : Type := Site × Thread

/-- A node: the state that it is in and those before it, what it keeps of its peer, the
datagrams that it has sent, the heartbeats that it has stored, and the datagrams that are
under way to it. -/
structure Node where
  current : NodeState
  earlier : List NodeState
  view : View
  sent : List (List UInt8)
  stored : List HeartbeatMsg
  arriving : List (List UInt8)

def Node.states (node : Node) : List NodeState := node.current :: node.earlier

structure World where
  node : Site → Node
  now : Int

namespace World

def modify (s : World) (site : Site) (f : Node → Node) : World :=
  { s with node := Function.update s.node site (f (s.node site)) }

/-- A datagram is on its way to the peer. -/
def post (s : World) (site : Site) (data : List UInt8) : World :=
  (s.modify site fun node => { node with sent := node.sent ++ [data] }).modify site.other
    fun node => { node with arriving := node.arriving ++ [data] }

end World

/-- The operations of the host that the threads of one site perform. -/
def hostStep (site : Site) (s : World) : (call : HostCall) → Except Exc call.Ret → World → Prop
  | .localSnapshot, answer, s' => answer = .ok (s.node site).current ∧ s' = s
  | .time, answer, s' => answer = .ok s.now ∧ s' = s
  | .recvDatagram, answer, s' =>
      (∃ exc, answer = .error exc ∧ s' = s) ∨
        ∃ data rest, (s.node site).arriving = data :: rest ∧ answer = .ok (received data) ∧
          s' = s.modify site fun node => { node with arriving := rest }
  | .peerAliveFlag, answer, s' => answer = .ok (s.node site).view.alive ∧ s' = s
  | .storeHeartbeat msg, answer, s' =>
      answer = .ok () ∧ s' = s.modify site fun node =>
        { node with view := node.view.store msg s.now, stored := node.stored ++ [msg] }
  | .peerTimes, answer, s' =>
      answer = .ok ((s.node site).view.peer.lastHeartbeatTs, (s.node site).view.alive) ∧ s' = s
  | .clearPeerAlive, answer, s' =>
      answer = .ok () ∧ s' = s.modify site fun node =>
        { node with view := { node.view with alive := false } }
  | _, _, s' => s' = s

def linkStep (slot : Slot) (s : World) (event : Event LinkCall.Ret Exc) (s' : World) : Prop :=
  match event with
  | ⟨.daemon (.host call), answer⟩ => hostStep slot.1 s call answer s'
  | ⟨.sendto payload _ _, answer⟩ =>
      (∃ exc, answer = .error exc ∧ s' = s) ∨ answer = .ok () ∧ s' = s.post slot.1 payload
  | _ => s' = s

/-- What the network does with the datagrams under way. -/
inductive Weather
  | orderly
  | wild
  deriving DecidableEq, Repr

/-- The datagrams under way to a node, those that its peer and it have sent, and the heartbeats
that it has stored. -/
structure Ledger where
  sent : List (List UInt8)
  own : List (List UInt8)
  arriving : List (List UInt8)
  stored : List HeartbeatMsg

def World.ledger (s : World) (site : Site) : Ledger where
  sent := (s.node site.other).sent
  own := (s.node site).sent
  arriving := (s.node site).arriving
  stored := (s.node site).stored

/-- The datagrams that may be under way instead. -/
def Weather.Moves : Weather → Ledger → List (List UInt8) → Prop
  | .orderly, ledger, arriving => arriving.Sublist ledger.arriving
  | .wild, ledger, arriving => ∀ data ∈ arriving, data ∈ ledger.sent ∨ data ∈ ledger.own

/-- What happens outside of the threads. -/
inductive Outside (wire : Wire) (weather : Weather) (s : World) : World → Prop
  /-- The clock shows times that `repr` writes exactly, as those of `time.time()` are. -/
  | time {now : Int} (h : wire.toCoding.Exact (seconds now)) :
      Outside wire weather s { s with now := now }
  | become (site : Site) (state : NodeState) :
      Outside wire weather s (s.modify site fun node =>
        { node with current := state, earlier := node.states })
  | network (site : Site) {arriving : List (List UInt8)}
      (h : weather.Moves (s.ledger site) arriving) :
      Outside wire weather s (s.modify site fun node => { node with arriving := arriving })

def linkSystem (wire : Wire) (weather : Weather) : System Slot LinkCall.Ret Exc Unit World where
  step := linkStep
  fork _ _ _ _ _ _ := False
  arrive _ _ _ _ := False
  env := Outside wire weather

abbrev State : Type := Threads Slot LinkCall.Ret Exc Unit World

/-- How long the threads of a site are followed, and what they are started with. -/
structure Setting where
  cfg : Site → Config
  port : ℕ
  interval : Int
  passes : Slot → ℕ

def Setting.prog (setting : Setting) (wire : Wire) : Slot → Link Unit
  | (site, .sender) =>
      senderLoop wire (setting.cfg site) setting.port setting.interval 0
        (setting.passes (site, .sender))
  | (site, .receiver) => Link.ofMgr
      (receiverLoop (setting.cfg site) wire.codec.toDecoder (setting.passes (site, .receiver)))
  | (site, .watchdog) => Link.ofMgr
      (watchdogLoop (setting.cfg site) (setting.passes (site, .watchdog)))

/-- Nothing has been heard of the peer. -/
def unheard (cfg : Config) : NodeState := { name := cfg.cluster.peerNode }

/-- Both managers have been started. -/
def begin (setting : Setting) (wire : Wire) (state : Site → NodeState) (now : Int) : State where
  shared :=
    { node := fun site => ⟨state site, [], ⟨unheard (setting.cfg site), false⟩, [], [], []⟩
      now := now }
  prog := setting.prog wire

/-! ## Accounts -/

/-- The heartbeat that was stored was read from a datagram. -/
def ReadFrom (wire : Wire) (data : List UInt8) (msg : HeartbeatMsg) : Prop :=
  wire.codec.toDecoder.decode (received data) = .ok msg

/-- Where the datagrams under way and the stored heartbeats come from. -/
structure Accounted (wire : Wire) (weather : Weather) (ledger : Ledger) : Prop where
  arriving : ∀ data ∈ ledger.arriving, data ∈ ledger.sent ∨ data ∈ ledger.own
  stored : ∃ heard, List.Forall₂ (ReadFrom wire) heard ledger.stored ∧
    (∀ data ∈ heard, data ∈ ledger.sent) ∧
    (weather = .orderly → (heard ++ ledger.arriving).Sublist ledger.sent)

section Accounted

variable {wire : Wire} {weather : Weather} {ledger : Ledger} {data : List UInt8}
  {rest : List (List UInt8)}

theorem accounted_nil : Accounted wire weather ⟨[], [], [], []⟩ :=
  ⟨by simp, [], .nil, by simp, fun _ => List.Sublist.refl _⟩

theorem Accounted.post (h : Accounted wire weather ledger) (data : List UInt8) :
    Accounted wire weather
      { ledger with sent := ledger.sent ++ [data], arriving := ledger.arriving ++ [data] } := by
  obtain ⟨heard, hread, hsent, horder⟩ := h.stored
  refine ⟨fun other hother => ?_, heard, hread, fun other hother => ?_, fun hweather => ?_⟩
  · rcases List.mem_append.mp hother with hother | hother
    · exact (h.arriving other hother).imp_left fun hmem => List.mem_append_left _ hmem
    · exact .inl (List.mem_append_right _ hother)
  · exact List.mem_append_left _ (hsent other hother)
  · rw [← List.append_assoc]
    exact (horder hweather).append_right [data]

theorem Accounted.own (h : Accounted wire weather ledger) (data : List UInt8) :
    Accounted wire weather { ledger with own := ledger.own ++ [data] } :=
  ⟨fun other hother => (h.arriving other hother).imp_right fun hmem => List.mem_append_left _ hmem,
    h.stored⟩

theorem Accounted.moved (h : Accounted wire weather ledger) {arriving : List (List UInt8)}
    (hmoves : weather.Moves ledger arriving) :
    Accounted wire weather { ledger with arriving := arriving } := by
  obtain ⟨heard, hread, hsent, horder⟩ := h.stored
  cases weather with
  | orderly =>
      have hsub : arriving.Sublist ledger.arriving := hmoves
      refine ⟨fun data hdata => h.arriving data (hsub.subset hdata), heard, hread,
        hsent, fun _ => ?_⟩
      exact ((List.Sublist.refl heard).append hsub).trans (horder rfl)
  | wild => exact ⟨hmoves, heard, hread, hsent, fun hweather => by cases hweather⟩

/-- A datagram that makes no difference. -/
theorem Accounted.drop (h : Accounted wire weather ledger)
    (harriving : ledger.arriving = data :: rest) :
    Accounted wire weather { ledger with arriving := rest } := by
  obtain ⟨heard, hread, hsent, horder⟩ := h.stored
  rw [harriving] at horder
  refine ⟨fun other hother => h.arriving other ?_, heard, hread, hsent, fun hweather => ?_⟩
  · rw [harriving]
    exact List.mem_cons_of_mem _ hother
  · have hshort : (heard ++ rest).Sublist (heard ++ data :: rest) :=
      (List.Sublist.refl heard).append (List.sublist_cons_self data rest)
    exact hshort.trans (horder hweather)

/-- A heartbeat of the peer is stored. -/
theorem Accounted.take (h : Accounted wire weather ledger)
    (harriving : ledger.arriving = data :: rest) (hdata : data ∈ ledger.sent)
    {msg : HeartbeatMsg} (hmsg : ReadFrom wire data msg) :
    Accounted wire weather { ledger with arriving := rest, stored := ledger.stored ++ [msg] } := by
  obtain ⟨heard, hread, hsent, horder⟩ := h.stored
  refine ⟨(h.drop harriving).arriving, heard ++ [data], ?_, fun other hother => ?_,
    fun hweather => ?_⟩
  · exact List.rel_append hread (.cons hmsg .nil)
  · rcases List.mem_append.mp hother with hother | hother
    · exact hsent other hother
    · rwa [List.mem_singleton.mp hother]
  · rw [harriving] at horder
    rw [List.append_assoc, List.singleton_append]
    exact horder hweather

end Accounted

/-! ## What a sender has sent -/

/-- The datagrams of a sender that has counted to `seq`, each with a state of its node. -/
inductive Told (wire : Wire) (cfg : Config) (states : List NodeState) :
    Int → List (List UInt8) → Prop
  | start : Told wire cfg states 0 []
  /-- A heartbeat that could not be sent. -/
  | failed {seq : Int} {sent : List (List UInt8)} (h : Told wire cfg states seq sent) :
      Told wire cfg states (seq + 1) sent
  | beat {seq now : Int} {sent : List (List UInt8)} {state : NodeState}
      (h : Told wire cfg states seq sent) (hstate : state ∈ states)
      (hnow : wire.toCoding.Exact (seconds now)) :
      Told wire cfg states (seq + 1) (sent ++ [datagram wire cfg state (seq + 1) now])

/-- A heartbeat: the state that it tells, its number and its time. -/
structure Beat where
  state : NodeState
  seq : Int
  now : Int

def Beat.datagram (wire : Wire) (cfg : Config) (beat : Beat) : List UInt8 :=
  HeartbeatManager.datagram wire cfg beat.state beat.seq beat.now

/-- What a receiver keeps of it. -/
def Beat.message (wire : Wire) (cfg : Config) (beat : Beat) : HeartbeatMsg :=
  wire.codec.kept (heartbeat cfg beat.state beat.seq beat.now)

section Told

variable {wire : Wire} {cfg : Config} {states states' : List NodeState} {seq : Int}
  {sent : List (List UInt8)}

theorem Told.mono (h : Told wire cfg states seq sent) (hsub : ∀ state ∈ states, state ∈ states') :
    Told wire cfg states' seq sent := by
  induction h with
  | start => exact .start
  | failed _ ih => exact .failed ih
  | beat _ hstate hnow ih => exact .beat ih (hsub _ hstate) hnow

/-- The numbers of the heartbeats go up. -/
theorem Told.beats (h : Told wire cfg states seq sent) : ∃ beats : List Beat,
    sent = beats.map (Beat.datagram wire cfg) ∧ (beats.map Beat.seq).Pairwise (· < ·) ∧
      ∀ beat ∈ beats, beat.seq ≤ seq ∧ beat.state ∈ states ∧
        wire.toCoding.Exact (seconds beat.now) := by
  induction h with
  | start => exact ⟨[], rfl, .nil, by simp⟩
  | @failed seq sent _ ih =>
      obtain ⟨beats, hsent, horder, hbeats⟩ := ih
      refine ⟨beats, hsent, horder, fun beat hbeat => ?_⟩
      obtain ⟨hseq, hrest⟩ := hbeats beat hbeat
      exact ⟨by omega, hrest⟩
  | @beat seq now sent state _ hstate hnow ih =>
      obtain ⟨beats, rfl, horder, hbeats⟩ := ih
      refine ⟨beats ++ [⟨state, seq + 1, now⟩], by simp [Beat.datagram], ?_, fun beat hbeat => ?_⟩
      · rw [List.map_append, List.pairwise_append]
        refine ⟨horder, by simp, fun number hnumber other hother => ?_⟩
        obtain ⟨beat, hbeat, rfl⟩ := List.mem_map.mp hnumber
        have hseq := (hbeats beat hbeat).1
        simp only [List.map_cons, List.map_nil, List.mem_singleton] at hother
        omega
      · rcases List.mem_append.mp hbeat with hbeat | hbeat
        · obtain ⟨hseq, hrest⟩ := hbeats beat hbeat
          exact ⟨by omega, hrest⟩
        · obtain rfl := List.mem_singleton.mp hbeat
          exact ⟨Int.le_refl _, hstate, hnow⟩

/-- What is read from a heartbeat. -/
theorem Told.read (h : Told wire cfg states seq sent) {data : List UInt8} (hdata : data ∈ sent)
    {msg : HeartbeatMsg} (hmsg : ReadFrom wire data msg) :
    ∃ beat : Beat, beat.datagram wire cfg ∈ sent ∧ beat.state ∈ states ∧
      msg = beat.message wire cfg := by
  obtain ⟨beats, rfl, -, hbeats⟩ := h.beats
  obtain ⟨beat, hbeat, rfl⟩ := List.mem_map.mp hdata
  obtain ⟨-, hstate, hnow⟩ := hbeats beat hbeat
  exact ⟨beat, List.mem_map_of_mem hbeat, hstate, received_datagram hnow hmsg⟩

/-- A heartbeat bears the name of its sender. -/
theorem Told.node (h : Told wire cfg states seq sent) {data : List UInt8} (hdata : data ∈ sent)
    {msg : HeartbeatMsg} (hmsg : ReadFrom wire data msg) :
    msg.node = some cfg.cluster.nodeName := by
  obtain ⟨beat, -, -, rfl⟩ := h.read hdata hmsg
  rfl

end Told

/-! ## The contract -/

section Contract

variable {setting : Setting} {wire : Wire} {weather : Weather}

/-- What is kept of the peer is what was stored last. -/
structure Kept (cfg : Config) (node : Node) : Prop where
  none : node.stored = [] → node.view.peer = unheard cfg
  last : ∀ msg, node.stored.getLast? = some msg → Shows node.view.peer msg

structure NodeInv (setting : Setting) (wire : Wire) (weather : Weather) (s : World) (site : Site) :
    Prop where
  told : ∃ seq, Told wire (setting.cfg site) (s.node site).states seq (s.node site).sent
  accounted : Accounted wire weather (s.ledger site)
  kept : Kept (setting.cfg site) (s.node site)

structure Inv (setting : Setting) (wire : Wire) (weather : Weather) (s : World) : Prop where
  exact : wire.toCoding.Exact (seconds s.now)
  node : ∀ site, NodeInv setting wire weather s site

/-- The receiver has received a heartbeat that it has not stored yet. -/
def Pending (wire : Wire) (weather : Weather) (site : Site) (msg : HeartbeatMsg)
    (s : World) : Prop :=
  Accounted wire weather { s.ledger site with stored := (s.node site).stored ++ [msg] }

/-- How the others may change the state under a thread. -/
def Relies (wire : Wire) (weather : Weather) : Slot → World → World → Prop
  | (site, .sender), s, s' =>
      (s'.node site).sent = (s.node site).sent ∧
        ∀ state ∈ (s.node site).states, state ∈ (s'.node site).states
  | (site, .receiver), s, s' =>
      ∀ msg, Pending wire weather site msg s → Pending wire weather site msg s'
  | (_, .watchdog), _, _ => True

theorem relies_refl (i : Slot) (s : World) : Relies wire weather i s s := by
  obtain ⟨site, thread⟩ := i
  cases thread with
  | sender => exact ⟨rfl, fun _ h => h⟩
  | receiver => exact fun _ h => h
  | watchdog => trivial

def exchangeContract (setting : Setting) (wire : Wire) (weather : Weather) :
    Contract (linkSystem wire weather) where
  inv := Inv setting wire weather
  rely := Relies wire weather
  refl := relies_refl
  trans i s s' s'' h h' := by
    obtain ⟨site, thread⟩ := i
    cases thread with
    | sender => exact ⟨h'.1.trans h.1, fun state hstate => h'.2 state (h.2 state hstate)⟩
    | receiver => exact fun msg hmsg => h' msg (h msg hmsg)
    | watchdog => trivial
  start _ _ _ := False
  post _ _ _ := True
  stable _ _ _ _ _ _ _ := trivial

/-! ### Steps that no account changes -/

/-- A step after which every node has sent and stored what it had before, and whose datagrams
under way can still be accounted for. -/
structure Calm (wire : Wire) (weather : Weather) (s s' : World) : Prop where
  exact : wire.toCoding.Exact (seconds s.now) → wire.toCoding.Exact (seconds s'.now)
  sent : ∀ site, (s'.node site).sent = (s.node site).sent
  states : ∀ site, ∀ state ∈ (s.node site).states, state ∈ (s'.node site).states
  stored : ∀ site, (s'.node site).stored = (s.node site).stored
  peer : ∀ site, (s'.node site).view.peer = (s.node site).view.peer
  accounted : ∀ site stored, Accounted wire weather { s.ledger site with stored := stored } →
    Accounted wire weather { s'.ledger site with stored := stored }

variable {s s' : World} {site : Site}

theorem Calm.refl (s : World) : Calm wire weather s s :=
  ⟨id, fun _ => rfl, fun _ _ h => h, fun _ => rfl, fun _ => rfl, fun _ _ h => h⟩

theorem Calm.inv (h : Calm wire weather s s') (hinv : Inv setting wire weather s) :
    Inv setting wire weather s' := by
  refine ⟨h.exact hinv.exact, fun site => ?_⟩
  obtain ⟨⟨seq, htold⟩, haccounted, hkept⟩ := hinv.node site
  refine ⟨⟨seq, ?_⟩, ?_, ?_, ?_⟩
  · rw [h.sent]
    exact htold.mono (h.states site)
  · have hsame : (s'.ledger site).stored = (s.ledger site).stored := h.stored site
    have hledger := h.accounted site (s.ledger site).stored haccounted
    rwa [← hsame] at hledger
  · rw [h.stored, h.peer]
    exact hkept.none
  · rw [h.stored, h.peer]
    exact hkept.last

theorem Calm.relies (h : Calm wire weather s s') (j : Slot) : Relies wire weather j s s' := by
  obtain ⟨site, thread⟩ := j
  cases thread with
  | sender => exact ⟨h.sent site, h.states site⟩
  | receiver =>
      intro msg hmsg
      have hledger := h.accounted site _ hmsg
      rwa [← h.stored site] at hledger
  | watchdog => trivial

@[simp] theorem node_modify_self (f : Node → Node) :
    (s.modify site f).node site = f (s.node site) :=
  Function.update_self ..

theorem node_modify_of_ne {site' : Site} (h : site' ≠ site) (f : Node → Node) :
    (s.modify site f).node site' = s.node site' := Function.update_of_ne h ..

theorem ledger_modify_self {f : Node → Node} (hsent : (f (s.node site)).sent = (s.node site).sent) :
    (s.modify site f).ledger site = { s.ledger site with
      arriving := (f (s.node site)).arriving
      stored := (f (s.node site)).stored } := by
  simp only [World.ledger, node_modify_self, node_modify_of_ne (Site.other_ne site), hsent]

theorem ledger_modify_of_ne {f : Node → Node} (hsent : (f (s.node site)).sent = (s.node site).sent)
    {site' : Site} (h : site' ≠ site) : (s.modify site f).ledger site' = s.ledger site' := by
  have hpeer : ((s.modify site f).node site'.other).sent = (s.node site'.other).sent := by
    by_cases hother : site'.other = site
    · rw [hother, node_modify_self, hsent]
    · rw [node_modify_of_ne hother]
  simp only [World.ledger, node_modify_of_ne h, hpeer]

/-- A change of one node that concerns its view, its state or the datagrams under way to it. -/
theorem calm_modify {f : Node → Node} (hsent : (f (s.node site)).sent = (s.node site).sent)
    (hstates : ∀ state ∈ (s.node site).states, state ∈ (f (s.node site)).states)
    (hstored : (f (s.node site)).stored = (s.node site).stored)
    (hpeer : (f (s.node site)).view.peer = (s.node site).view.peer)
    (haccounted : ∀ stored, Accounted wire weather { s.ledger site with stored := stored } →
      Accounted wire weather
        { s.ledger site with arriving := (f (s.node site)).arriving, stored := stored }) :
    Calm wire weather s (s.modify site f) := by
  have hall {α : Type} (part : Node → α) (h : part (f (s.node site)) = part (s.node site))
      (site' : Site) : part ((s.modify site f).node site') = part (s.node site') := by
    by_cases hsite : site' = site
    · rw [hsite, node_modify_self, h]
    · rw [node_modify_of_ne hsite]
  refine ⟨id, hall Node.sent hsent, fun site' => ?_, hall Node.stored hstored,
    hall (fun node => node.view.peer) hpeer, fun site' stored haccount => ?_⟩
  · by_cases hsite : site' = site
    · rw [hsite, node_modify_self]
      exact hstates
    · rw [node_modify_of_ne hsite]
      exact fun _ h => h
  · by_cases hsite : site' = site
    · subst hsite
      rw [ledger_modify_self hsent]
      exact haccounted stored haccount
    · rw [ledger_modify_of_ne hsent hsite]
      exact haccount

theorem calm_outside (h : Outside wire weather s s') : Calm wire weather s s' := by
  cases h with
  | time hnow =>
      exact ⟨fun _ => hnow, fun _ => rfl, fun _ _ h => h, fun _ => rfl, fun _ => rfl,
        fun _ _ h => h⟩
  | become site state =>
      exact calm_modify rfl (fun _ h => List.mem_cons_of_mem _ h) rfl rfl fun _ h => h
  | network site hmoves =>
      refine calm_modify rfl (fun _ h => h) rfl rfl fun stored haccount => haccount.moved ?_
      cases weather <;> exact hmoves

/-- A datagram is taken off the network. -/
theorem calm_receive {data : List UInt8} {rest : List (List UInt8)}
    (harriving : (s.node site).arriving = data :: rest) :
    Calm wire weather s (s.modify site fun node => { node with arriving := rest }) :=
  calm_modify rfl (fun _ h => h) rfl rfl fun _ h => h.drop harriving

/-! ### The rules for the threads -/

abbrev among (setting : Setting) (wire : Wire) (weather : Weather) (i : Slot) :
    Transformer LinkCall.Ret Exc World := (exchangeContract setting wire weather).thread i

theorem among_monotone {i : Slot} : (among setting wire weather i).Monotone :=
  (exchangeContract setting wire weather).thread_monotone i

variable {i : Slot} {α : Type}

/-- A thread keeps the contract with a step that changes no account. -/
theorem keeping_calm (hinv : Inv setting wire weather s) (h : Calm wire weather s s') {kept : Prop}
    (hkept : kept) : (exchangeContract setting wire weather).Keeping i kept s s' :=
  ⟨h.inv hinv, fun j _ => h.relies j, hkept⟩

theorem link_perform {op : LinkCall} {P : World → Prop} {Q : op.Ret → World → Prop}
    {E : World → Prop} (hstable : (exchangeContract setting wire weather).Stable i P)
    (hstep : ∀ s answer s', Inv setting wire weather s → P s → linkStep i s ⟨op, answer⟩ s' →
      (exchangeContract setting wire weather).Keeping i
        (Prog.ending Q E (Prog.answered answer) s') s s') :
    Prog.Triple (among setting wire weather i) P (.perform op) Q E :=
  Contract.triple_perform hstable (fun _ _ _ _ _ h => h) hstep

/-- The operations that no account depends on. -/
def Aside : LinkCall → Prop
  | .daemon (.host (.storeHeartbeat _)) | .daemon (.host .recvDatagram) | .sendto .. => False
  | _ => True

theorem calm_of_aside {event : Event LinkCall.Ret Exc} (haside : Aside event.op)
    (h : linkStep i s event s') : Calm wire weather s s' := by
  obtain ⟨op, answer⟩ := event
  cases op with
  | sendto => exact haside.elim
  | daemon call =>
      cases call with
      | disk call =>
          obtain rfl : s' = s := h
          exact .refl _
      | net call =>
          obtain rfl : s' = s := h
          exact .refl _
      | host call =>
          cases call with
          | storeHeartbeat => exact haside.elim
          | recvDatagram => exact haside.elim
          | clearPeerAlive =>
              obtain ⟨-, rfl⟩ := h
              exact calm_modify rfl (fun _ h => h) rfl rfl fun _ h => h
          | _ =>
              obtain rfl : s' = s := by first | exact h | exact h.2
              exact .refl _

theorem keeps_of_aside {P : World → Prop}
    (hstable : (exchangeContract setting wire weather).Stable i P)
    (hcalm : ∀ s s', P s → Calm wire weather s s' → P s') {program : Link α}
    (hcalls : program.Calls Aside) : Prog.Keeps (among setting wire weather i) P program := by
  refine Contract.keeps_of_step hstable (fun _ _ _ _ _ _ _ h => h) ?_ hcalls
  intro s event s' haside hinv hs hstep
  have h : Calm wire weather s s' := calm_of_aside haside hstep
  exact keeping_calm hinv h (hcalm s s' hs h)

theorem keeps_of_aside_true {program : Link α} (hcalls : program.Calls Aside) :
    Prog.Keeps (among setting wire weather i) (fun _ => True) program :=
  keeps_of_aside Contract.stable_true (fun _ _ _ _ => trivial) hcalls

end Contract

/-! ## The sender -/

section Sender

variable {setting : Setting} {wire : Wire} {weather : Weather} {s s' : World}
  {site : Site} {seq : Int}

/-- The sender has counted to `seq`. -/
def Counted (setting : Setting) (wire : Wire) (site : Site) (seq : Int) (s : World) : Prop :=
  Told wire (setting.cfg site) (s.node site).states seq (s.node site).sent

theorem Counted.mono (h : Counted setting wire site seq s)
    (hsent : (s'.node site).sent = (s.node site).sent)
    (hstates : ∀ state ∈ (s.node site).states, state ∈ (s'.node site).states) :
    Counted setting wire site seq s' := by
  unfold Counted
  rw [hsent]
  exact Told.mono h hstates

theorem stable_counted :
    (exchangeContract setting wire weather).Stable (site, .sender)
      (Counted setting wire site seq) :=
  fun _ _ hs hrely _ => hs.mono hrely.1 hrely.2

/-- The sender has read a state of its node. -/
def Snapped (site : Site) (state : NodeState) (s : World) : Prop := state ∈ (s.node site).states

theorem stable_snapped {state : NodeState} :
    (exchangeContract setting wire weather).Stable (site, .sender) (Snapped site state) :=
  fun _ _ hs hrely _ => hrely.2 _ hs

theorem node_post_self {data : List UInt8} : (s.post site data).node site =
    { s.node site with sent := (s.node site).sent ++ [data] } := by
  rw [World.post, node_modify_of_ne (Site.other_ne site).symm, node_modify_self]

theorem node_post_other {data : List UInt8} : (s.post site data).node site.other =
    { s.node site.other with arriving := (s.node site.other).arriving ++ [data] } := by
  rw [World.post, node_modify_self, node_modify_of_ne (Site.other_ne site)]

theorem Site.eq_or_other (site site' : Site) : site' = site ∨ site' = site.other := by
  cases site' <;> cases site <;> simp [Site.other]

/-- The accounts of both nodes after a datagram has been sent, whatever they have stored. -/
theorem accounted_post {data : List UInt8} (site' : Site) (stored : List HeartbeatMsg)
    (h : Accounted wire weather { s.ledger site' with stored := stored }) :
    Accounted wire weather { (s.post site data).ledger site' with stored := stored } := by
  obtain rfl | rfl := Site.eq_or_other site site'
  · simp only [World.ledger, node_post_self, node_post_other] at h ⊢
    exact h.own data
  · simp only [World.ledger, Site.other_other, node_post_self, node_post_other] at h ⊢
    exact h.post data

/-- A datagram is sent: it is told, and it is under way to the peer. -/
theorem keeping_post {data : List UInt8} (hinv : Inv setting wire weather s)
    (htold : Told wire (setting.cfg site) (s.node site).states seq ((s.node site).sent ++ [data])) :
    (exchangeContract setting wire weather).Keeping (site, .sender)
      (Counted setting wire site seq (s.post site data)) s (s.post site data) := by
  have hcounted : Counted setting wire site seq (s.post site data) := by
    rw [Counted, node_post_self]
    exact htold
  -- the node that sends, its peer, and then what the other threads rely on
  refine ⟨⟨hinv.exact, fun site' => ?_⟩, fun j hj => ?_, hcounted⟩
  · obtain ⟨⟨count, hcount⟩, haccounted, hkept⟩ := hinv.node site'
    obtain rfl | rfl := Site.eq_or_other site site'
    · refine ⟨⟨seq, hcounted⟩, accounted_post site' _ ?_, ?_⟩
      · rw [node_post_self]
        exact haccounted
      · rw [node_post_self]
        exact ⟨hkept.none, hkept.last⟩
    · refine ⟨⟨count, ?_⟩, accounted_post site.other _ ?_, ?_⟩
      · rw [node_post_other]
        exact hcount
      · rw [node_post_other]
        exact haccounted
      · rw [node_post_other]
        exact ⟨hkept.none, hkept.last⟩
  · obtain ⟨site', thread⟩ := j
    cases thread with
    | sender =>
        obtain rfl | rfl := Site.eq_or_other site site'
        · exact absurd rfl hj
        · refine ⟨?_, fun state hstate => ?_⟩ <;> rw [node_post_other]
          exact hstate
    | receiver =>
        intro msg hmsg
        have hstored : ((s.post site data).node site').stored = (s.node site').stored := by
          obtain rfl | rfl := Site.eq_or_other site site'
          · rw [node_post_self]
          · rw [node_post_other]
        rw [Pending, hstored]
        exact accounted_post site' _ hmsg
    | watchdog => trivial

/-- A heartbeat that could not be sent has been counted all the same. -/
theorem counted_failed (h : Counted setting wire site seq s) :
    Counted setting wire site (seq + 1) s := Told.failed h

theorem senderPass_triple :
    Prog.Triple (among setting wire weather (site, .sender)) (Counted setting wire site seq)
      (senderPass wire (setting.cfg site) setting.port (seq + 1))
      (fun _ => Counted setting wire site (seq + 1)) fun _ => True := by
  refine .except among_monotone (R := Counted setting wire site (seq + 1)) ?_ fun exc => ?_
  · have hsnapshot : Prog.Triple (among setting wire weather (site, .sender))
        (Counted setting wire site seq) (Link.host .localSnapshot)
        (fun state s => Counted setting wire site seq s ∧ Snapped site state s)
        (Counted setting wire site (seq + 1)) := by
      refine link_perform stable_counted fun s answer s' hinv hs hstep => ?_
      obtain ⟨rfl, rfl⟩ := hstep
      exact keeping_calm hinv (.refl _) ⟨hs, List.mem_cons_self ..⟩
    have htime (state : NodeState) : Prog.Triple (among setting wire weather (site, .sender))
        (fun s => Counted setting wire site seq s ∧ Snapped site state s) (Link.host .time)
        (fun now s => (Counted setting wire site seq s ∧ Snapped site state s) ∧
          wire.toCoding.Exact (seconds now)) (Counted setting wire site (seq + 1)) := by
      refine link_perform (stable_counted.and stable_snapped) fun s answer s' hinv hs hstep => ?_
      obtain ⟨rfl, rfl⟩ := hstep
      exact keeping_calm hinv (.refl _) ⟨hs, hinv.exact⟩
    refine .bind among_monotone hsnapshot fun state =>
      .bind among_monotone (htime state) fun now => ?_
    refine link_perform ((stable_counted.and stable_snapped).and fun _ _ h _ _ => h) ?_
    rintro s answer s' hinv ⟨⟨hcounted, hsnapped⟩, hnow⟩ hstep
    rcases hstep with ⟨exc, rfl, rfl⟩ | ⟨rfl, rfl⟩
    · exact keeping_calm hinv (.refl _) (counted_failed hcounted)
    · exact keeping_post hinv (.beat hcounted hsnapped hnow)
  · exact .ite (fun _ => .pure fun _ h => h) fun _ => .raise fun _ _ => trivial

theorem senderLoop_triple (fuel : ℕ) (seq : Int) :
    Prog.Triple (among setting wire weather (site, .sender)) (Counted setting wire site seq)
      (senderLoop wire (setting.cfg site) setting.port setting.interval seq fuel)
      (fun _ _ => True) fun _ => True := by
  induction fuel generalizing seq with
  | zero => exact fun _ _ => trivial
  | succ fuel ih =>
      have hsleep : Prog.Keeps (among setting wire weather (site, .sender))
          (Counted setting wire site (seq + 1)) (Link.host (.sleep setting.interval)) :=
        keeps_of_aside stable_counted (fun s s' hs h => hs.mono (h.sent site) (h.states site))
          (Prog.Calls.perform trivial)
      refine .bind among_monotone senderPass_triple fun _ => ?_
      exact .after_keeps among_monotone hsleep (fun _ => ih (seq + 1)) fun _ _ => trivial

end Sender

/-! ## The receiver and the watchdog -/

section Receiver

variable {setting : Setting} {wire : Wire} {weather : Weather} {site : Site}

/-- A heartbeat of the peer that is read from the datagram can be stored. -/
def Heard (setting : Setting) (wire : Wire) (weather : Weather) (site : Site) (data : List UInt8)
    (s : World) : Prop :=
  ∀ msg, wire.codec.toDecoder.decode data = .ok msg →
    msg.node ≠ some (setting.cfg site).cluster.nodeName → Pending wire weather site msg s

theorem stable_heard {data : List UInt8} : (exchangeContract setting wire weather).Stable
    (site, .receiver) (Heard setting wire weather site data) :=
  fun _ _ hs hrely _ msg hmsg hnode => hrely msg (hs msg hmsg hnode)

theorem stable_pending {msg : HeartbeatMsg} : (exchangeContract setting wire weather).Stable
    (site, .receiver) (Pending wire weather site msg) :=
  fun _ _ hs hrely _ => hrely msg hs

/-- What the network has brought comes from the peer, or bears the receiver's own name. -/
theorem recv_triple : Prog.Triple (among setting wire weather (site, .receiver)) (fun _ => True)
    (Link.host .recvDatagram) (Heard setting wire weather site) fun _ => True := by
  refine link_perform Contract.stable_true fun s answer s' hinv _ hstep => ?_
  rcases hstep with ⟨exc, rfl, rfl⟩ | ⟨data, rest, harriving, rfl, rfl⟩
  · exact keeping_calm hinv (.refl _) trivial
  · refine keeping_calm hinv (calm_receive harriving) fun msg hmsg hnode => ?_
    have haccounted : Accounted wire weather (s.ledger site) := (hinv.node site).accounted
    have hfirst : (s.ledger site).arriving = data :: rest := harriving
    rcases haccounted.arriving data (hfirst ▸ List.mem_cons_self ..) with hpeer | hown
    · rw [Pending, ledger_modify_self rfl, node_modify_self]
      exact haccounted.take hfirst hpeer hmsg
    · obtain ⟨count, htold⟩ := (hinv.node site).told
      exact absurd (htold.node hown hmsg) hnode

theorem store_triple (msg : HeartbeatMsg) :
    Prog.Triple (among setting wire weather (site, .receiver)) (Pending wire weather site msg)
      (Link.host (.storeHeartbeat msg)) (fun _ _ => True) fun _ => True := by
  refine link_perform stable_pending fun s answer s' hinv hs hstep => ?_
  obtain ⟨rfl, rfl⟩ := hstep
  refine ⟨⟨hinv.exact, fun site' => ?_⟩, fun j hj => ?_, trivial⟩
  · have hnode := hinv.node site'
    by_cases hsite : site' = site
    · subst hsite
      refine ⟨?_, ?_, ?_⟩
      · rw [node_modify_self]
        exact hnode.told
      -- what is stored now was pending before
      · rw [ledger_modify_self rfl]
        exact hs
      · rw [node_modify_self]
        refine ⟨fun hnone => by simp at hnone, fun other hother => ?_⟩
        obtain rfl : msg = other := by simpa using hother
        exact ⟨rfl, rfl, rfl, rfl, rfl⟩
    · refine ⟨?_, ?_, ?_⟩
      · rw [node_modify_of_ne hsite]
        exact hnode.told
      · rw [ledger_modify_of_ne rfl hsite]
        exact hnode.accounted
      · rw [node_modify_of_ne hsite]
        exact hnode.kept
  · obtain ⟨site', thread⟩ := j
    cases thread with
    | sender =>
        by_cases hsite : site' = site
        · subst hsite
          exact ⟨by rw [node_modify_self], fun state hstate => by
            rw [node_modify_self]; exact hstate⟩
        · exact ⟨by rw [node_modify_of_ne hsite], fun state hstate => by
            rw [node_modify_of_ne hsite]; exact hstate⟩
    | receiver =>
        intro other hother
        have hsite : site' ≠ site := fun h => hj (by rw [h])
        rw [Pending, ledger_modify_of_ne rfl hsite, node_modify_of_ne hsite]
        exact hother
    | watchdog => trivial

theorem ofMgr_host (call : HostCall) : Link.ofMgr (Mgr.host call) = Link.host call :=
  Prog.lower_perform ..

theorem ofMgr_bind {α β : Type} (program : Mgr α) (next : α → Mgr β) :
    Link.ofMgr (program.bind next) = (Link.ofMgr program).bind fun value =>
      Link.ofMgr (next value) :=
  Prog.lower_bind ..

/-- What the manager does aside is aside in the system. -/
theorem ofMgr_aside {α : Type} {program : Mgr α}
    (h : program.Calls fun call => Aside (.daemon call)) : (Link.ofMgr program).Calls Aside :=
  h.lower fun _ hop => Prog.Calls.perform hop

theorem emit_aside (cfg : Config) (eventType : HaEventType) (message : String) :
    (emit cfg eventType message).Calls fun call => Aside (.daemon call) :=
  .except (.perform trivial) fun _ => .ite trivial trivial

theorem receiverPass_triple : Prog.Keeps (among setting wire weather (site, .receiver))
    (fun _ => True) (Link.ofMgr (receiverPass (setting.cfg site) wire.codec.toDecoder)) := by
  have hreceive : Link.ofMgr (Mgr.host .recvDatagram).attempt =
      (Link.host .recvDatagram).attempt := by
    rw [Link.ofMgr, Prog.lower_attempt]
    exact congrArg _ (ofMgr_host _)
  rw [receiverPass, Prog.bind_eq, ofMgr_bind, hreceive]
  refine .bind among_monotone (.attempt among_monotone recv_triple) fun result => ?_
  cases result with
  | error exc =>
      refine keeps_of_aside_true (ofMgr_aside ?_)
      exact .ite trivial trivial
  | ok data =>
      dsimp only
      cases hmsg : wire.codec.toDecoder.decode data with
      | error exc =>
          have hdropped : (if malformed exc then pure () else .raise exc : Mgr Unit).Calls
              fun call => Aside (.daemon call) := .ite trivial trivial
          exact (keeps_of_aside_true (ofMgr_aside hdropped)).conseq among_monotone
            (fun _ _ => trivial) (fun _ _ _ => trivial) fun _ _ => trivial
      | ok msg =>
          rw [Link.ofMgr, Prog.lower_ite]
          refine .ite (fun _ => .pure fun _ _ => trivial) fun hnode => ?_
          -- the datagram is the peer's from here on
          have hflag : Prog.Triple (among setting wire weather (site, .receiver))
              (Heard setting wire weather site data) (Link.ofMgr (Mgr.host .peerAliveFlag))
              (fun _ => Pending wire weather site msg) fun _ => True := by
            rw [ofMgr_host]
            refine link_perform stable_heard fun s answer s' hinv hs hstep => ?_
            obtain ⟨rfl, rfl⟩ := hstep
            exact keeping_calm hinv (.refl _) (hs msg hmsg hnode)
          have hstore : Prog.Triple (among setting wire weather (site, .receiver))
              (Pending wire weather site msg) (Link.ofMgr (Mgr.host (.storeHeartbeat msg)))
              (fun _ _ => True) fun _ => True := by
            rw [ofMgr_host]
            exact store_triple msg
          simp only [Prog.bind_eq, Prog.lower_bind]
          refine .bind among_monotone hflag fun alive => .bind among_monotone hstore fun _ => ?_
          exact keeps_of_aside_true (ofMgr_aside (.ite (emit_aside ..) trivial))

theorem receiverLoop_triple (fuel : ℕ) : Prog.Keeps (among setting wire weather (site, .receiver))
    (fun _ => True) (Link.ofMgr (receiverLoop (setting.cfg site) wire.codec.toDecoder fuel)) := by
  induction fuel with
  | zero => exact fun _ _ => trivial
  | succ fuel ih =>
      rw [receiverLoop, Prog.bind_eq, ofMgr_bind]
      exact .bind among_monotone receiverPass_triple fun _ => ih

end Receiver

section Watchdog

variable {setting : Setting} {wire : Wire} {weather : Weather} {site : Site}

theorem watchdogLoop_aside (cfg : Config) (fuel : ℕ) :
    (watchdogLoop cfg fuel).Calls fun call => Aside (.daemon call) := by
  induction fuel with
  | zero => trivial
  | succ fuel ih =>
      have hprobe : (FailoverEngine.isPeerPgReachable cfg).Calls fun call =>
          Aside (.daemon call) := by
        refine .bind (.attempt (.perform trivial)) fun result => ?_
        cases result with
        | ok _ => trivial
        | error exc => exact .ite trivial trivial
      refine .bind ?_ fun _ => ih
      refine .perform_bind trivial fun _ => .perform_bind trivial fun times => ?_
      refine .ite trivial (.perform_bind trivial fun now => .ite ?_ trivial)
      refine .bind hprobe fun reachable => .ite trivial (.perform_bind trivial fun _ => ?_)
      exact emit_aside ..

end Watchdog

/-! ## Both nodes -/

section Both

variable {setting : Setting} {wire : Wire} {weather : Weather}

theorem exchangeContract_holds : (exchangeContract setting wire weather).Holds where
  start _ _ _ _ hstart := hstart.elim
  arrive _ _ _ _ _ harrive := harrive.elim
  env s s' hinv henv := by
    have h : Calm wire weather s s' := calm_outside henv
    exact ⟨h.inv hinv, h.relies⟩

theorem safe_of_triple {i : Slot} {P : World → Prop} {program : Link Unit} {s : World}
    (h : Prog.Triple (among setting wire weather i) P program (fun _ _ => True) fun _ => True)
    (hs : P s) : (exchangeContract setting wire weather).Safe i program s :=
  Prog.wp_mono among_monotone (fun _ _ _ => trivial) (h s hs)

theorem sound_of_begin {now : Int} (hnow : wire.toCoding.Exact (seconds now))
    (state : Site → NodeState) :
    (exchangeContract setting wire weather).Sound (begin setting wire state now) := by
  refine ⟨⟨hnow, fun site => ⟨⟨0, .start⟩, accounted_nil, fun _ => rfl, by simp [begin]⟩⟩, ?_⟩
  rintro ⟨site, thread⟩
  cases thread with
  | sender => exact safe_of_triple (senderLoop_triple _ 0) Told.start
  | receiver => exact safe_of_triple (receiverLoop_triple _) trivial
  | watchdog =>
      exact safe_of_triple (keeps_of_aside_true (ofMgr_aside (watchdogLoop_aside ..))) trivial

/-- What a node keeps of its peer is what the heartbeat told. -/
structure Recalls (peer : NodeState) (beat : Beat) : Prop where
  role : peer.role = beat.state.role
  health : peer.health = beat.state.health
  pgState : peer.pgState = beat.state.pgState
  diskState : peer.diskState = beat.state.diskState
  heartbeatSeq : peer.heartbeatSeq = beat.seq

theorem recalls_of_shows {cfg : Config} {peer : NodeState} {beat : Beat}
    (h : Shows peer (beat.message wire cfg)) : Recalls peer beat :=
  ⟨h.role, h.health, h.pgState, h.diskState, h.heartbeatSeq⟩

theorem exists_readFrom {heard : List (List UInt8)} {stored : List HeartbeatMsg}
    (h : List.Forall₂ (ReadFrom wire) heard stored) {msg : HeartbeatMsg} (hmsg : msg ∈ stored) :
    ∃ data ∈ heard, ReadFrom wire data msg := by
  induction h with
  | nil => cases hmsg
  | cons hfirst _ ih =>
      rcases List.mem_cons.mp hmsg with rfl | hrest
      · exact ⟨_, List.mem_cons_self .., hfirst⟩
      · obtain ⟨data, hdata, hread⟩ := ih hrest
        exact ⟨data, List.mem_cons_of_mem _ hdata, hread⟩

/-- The heartbeats that were stored, if they were read from what these ones were sent as. -/
theorem eq_map_of_readFrom {cfg : Config} {beats : List Beat}
    (hexact : ∀ beat ∈ beats, wire.toCoding.Exact (seconds beat.now)) {stored : List HeartbeatMsg}
    (h : List.Forall₂ (ReadFrom wire) (beats.map (Beat.datagram wire cfg)) stored) :
    stored = beats.map (Beat.message wire cfg) := by
  induction beats generalizing stored with
  | nil => cases h with | nil => rfl
  | cons beat beats ih =>
      cases h with
      | cons hfirst hrest =>
          have hmsg := received_datagram (hexact beat (List.mem_cons_self ..)) hfirst
          rw [List.map_cons, hmsg, ih (fun beat h => hexact beat (List.mem_cons_of_mem _ h)) hrest]
          rfl

variable {state : Site → NodeState} {now : Int} {s : State}

/-- **A node keeps one past state of its peer.**  In every state that the system reaches, whatever
the network has done, a node either keeps what it began with or all that one heartbeat of its peer
said: it was sent by the peer, of a state that the peer has been in. -/
theorem keptOf_past (hnow : wire.toCoding.Exact (seconds now))
    (hreach : (linkSystem wire weather).Reach (begin setting wire state now) s) (site : Site) :
    (s.shared.node site).view.peer = unheard (setting.cfg site) ∨
      ∃ beat : Beat, beat.datagram wire (setting.cfg site.other) ∈ (s.shared.node site.other).sent ∧
        beat.state ∈ (s.shared.node site.other).states ∧
        Recalls (s.shared.node site).view.peer beat := by
  have hinv := (exchangeContract_holds.reach hreach (sound_of_begin hnow state)).1
  obtain ⟨-, haccounted, hkept⟩ := hinv.node site
  obtain ⟨seq, htold⟩ := (hinv.node site.other).told
  obtain ⟨heard, hread, hsent, -⟩ := haccounted.stored
  rcases List.eq_nil_or_concat' (s.shared.node site).stored with hnone | ⟨before, msg, hlast⟩
  · exact .inl (hkept.none hnone)
  · have hmem : msg ∈ (s.shared.ledger site).stored := by
      rw [show (s.shared.ledger site).stored = before ++ [msg] from hlast]
      simp
    obtain ⟨data, hdata, hmsg⟩ := exists_readFrom hread hmem
    obtain ⟨beat, hbeat, hstate, rfl⟩ := htold.read (hsent data hdata) hmsg
    have hkeptLast := hkept.last (beat.message wire (setting.cfg site.other)) (by
      rw [hlast, List.getLast?_concat])
    exact .inr ⟨beat, hbeat, hstate, recalls_of_shows hkeptLast⟩

/-- **An orderly network keeps the heartbeats in order.**  What a node has stored are heartbeats of
its peer in the order in which they were sent, none twice, and it keeps what the last one of them
told, whose number is the highest. -/
theorem stored_inOrder (hnow : wire.toCoding.Exact (seconds now))
    (hreach : (linkSystem wire .orderly).Reach (begin setting wire state now) s) (site : Site) :
    ∃ beats : List Beat,
      (s.shared.node site).stored = beats.map (Beat.message wire (setting.cfg site.other)) ∧
      (beats.map (Beat.datagram wire (setting.cfg site.other))).Sublist
        (s.shared.node site.other).sent ∧
      (beats.map Beat.seq).Pairwise (· < ·) ∧
      (∀ beat ∈ beats, beat.state ∈ (s.shared.node site.other).states ∧
        beat.seq ≤ (s.shared.node site).view.peer.heartbeatSeq) ∧
      ∀ last, beats.getLast? = some last → Recalls (s.shared.node site).view.peer last := by
  have hinv := (exchangeContract_holds.reach hreach (sound_of_begin hnow state)).1
  obtain ⟨-, haccounted, hkept⟩ := hinv.node site
  obtain ⟨seq, htold⟩ := (hinv.node site.other).told
  obtain ⟨heard, hread, -, horder⟩ := haccounted.stored
  obtain ⟨told, hsent, hcount, htold⟩ := htold.beats
  have hheard : heard.Sublist (told.map (Beat.datagram wire (setting.cfg site.other))) := by
    rw [← hsent]
    exact (List.sublist_append_left _ _).trans (horder rfl)
  obtain ⟨beats, hbeats, rfl⟩ := List.sublist_map_iff.mp hheard
  have hstored := eq_map_of_readFrom (fun beat h => (htold beat (hbeats.subset h)).2.2) hread
  have hpairwise : (beats.map Beat.seq).Pairwise (· < ·) := hcount.sublist (hbeats.map _)
  -- the last of them is the one that is kept
  have hrecalls (last : Beat) (hlast : beats.getLast? = some last) :
      Recalls (s.shared.node site).view.peer last := by
    refine recalls_of_shows (hkept.last (last.message wire (setting.cfg site.other)) ?_)
    rw [show (s.shared.node site).stored = _ from hstored, List.getLast?_map, hlast,
      Option.map_some]
  refine ⟨beats, hstored, ?_, hpairwise,
    fun beat hbeat => ⟨(htold beat (hbeats.subset hbeat)).2.1, ?_⟩, hrecalls⟩
  · rw [hsent]
    exact hbeats.map _
  · obtain rfl | ⟨before, last, rfl⟩ := List.eq_nil_or_concat' beats
    · simp at hbeat
    rw [(hrecalls last List.getLast?_concat).heartbeatSeq]
    rcases List.mem_append.mp hbeat with hbefore | hsame
    · rw [List.map_append, List.pairwise_append] at hpairwise
      have hless := hpairwise.2.2 beat.seq (List.mem_map_of_mem hbefore) last.seq (by simp)
      omega
    · exact Int.le_of_eq (congrArg Beat.seq (List.mem_singleton.mp hsame))

end Both

/-! ## A sample run -/

section Sample

/-- The moment of the sample. -/
def sampleNow : Int := 1760000001000

def sampleWire : Wire where
  limit := 900
  parseFloat _ := .finite 1760000001
  reprFloat _ := "1760000001.0".toList
  intOfText _ := none
  floatOfText _ := none
  floatOfInt value := .finite value
  str
    | .str text => text
    | _ => ""

theorem exact_sampleNow : sampleWire.toCoding.Exact (seconds sampleNow) := by
  have hdigits : Digits ('1' :: "760000001".toList) := .many (by simp) rfl (by simp [isDigit])
  have hfractional : Fractional ".0".toList := by
    rw [show ".0".toList = ['.', '0'] from rfl]
    exact .digits rfl (by simp)
  refine ⟨⟨⟨false, '1', "760000001".toList, ".0".toList, []⟩,
    ⟨hdigits, hfractional, .none, .inl ?_⟩, rfl⟩, ?_⟩
  · simp
  · have hseconds : seconds sampleNow = 1760000001 := by decide +kernel
    rw [hseconds]
    rfl

def sampleSetting : Setting where
  cfg := sampleSites
  port := 7777
  interval := 1000
  passes _ := 1

def sampleStates : Site → NodeState
  | .primary => ⟨"pg-primary", .primary, .healthy, .runningPrimary, .attachedRw, 0, 0⟩
  | .standby => ⟨"pg-standby", .standby, .healthy, .stopped, .detached, 0, 0⟩

/-- Nothing fails, and there is a datagram whenever a receiver waits for one. -/
def deliver (slot : Slot) : (op : LinkCall) → World → Except Exc op.Ret × World
  | .sendto payload _ _, s => (.ok (), s.post slot.1 payload)
  | .daemon (.disk call), s => (call.reply, s)
  | .daemon (.net _), s => (.ok (), s)
  | .daemon (.host call), s =>
      let node : DaemonState := ⟨{ name := "" }, 0, 0, "UNKNOWN", false, false, 0⟩
      match call with
      | .localSnapshot => (.ok (s.node slot.1).current, s)
      | .time => (.ok s.now, s)
      | .recvDatagram =>
          match (s.node slot.1).arriving with
          | [] => (.error ⟨.osError, "timed out"⟩, s)
          | data :: rest =>
              (.ok (received data), s.modify slot.1 fun node => { node with arriving := rest })
      | .peerAliveFlag => (.ok (s.node slot.1).view.alive, s)
      | .storeHeartbeat msg => (.ok (), s.modify slot.1 fun node =>
          { node with view := node.view.store msg s.now, stored := node.stored ++ [msg] })
      | .peerTimes =>
          (.ok ((s.node slot.1).view.peer.lastHeartbeatTs, (s.node slot.1).view.alive), s)
      | .clearPeerAlive => (.ok (), s.modify slot.1 fun node =>
          { node with view := { node.view with alive := false } })
      | call => (node.reply call, s)

theorem linkStep_deliver (slot : Slot) (s : World) (op : LinkCall) :
    linkStep slot s ⟨op, (deliver slot op s).1⟩ (deliver slot op s).2 := by
  cases op with
  | sendto => exact .inr ⟨rfl, rfl⟩
  | daemon call =>
      cases call with
      | disk call => rfl
      | net call => rfl
      | host call =>
          cases call with
          | recvDatagram =>
              simp only [deliver, linkStep, hostStep]
              cases harriving : (s.node slot.1).arriving with
              | nil => exact .inl ⟨_, rfl, rfl⟩
              | cons data rest => exact .inr ⟨data, rest, rfl, rfl, rfl⟩
          | _ => first | rfl | exact ⟨rfl, rfl⟩

def sampleBegin : State := begin sampleSetting sampleWire sampleStates sampleNow

/-- The primary has sent a heartbeat, and the standby has received it. -/
@[irreducible] def sampleHeard : State :=
  (sampleBegin.advance
    (deliver (.primary, .sender)) (fun _ _ => false) (.primary, .sender) 3).advance
    (deliver (.standby, .receiver)) (fun _ _ => false) (.standby, .receiver) 3

theorem reach_sampleHeard : (linkSystem sampleWire .orderly).Reach sampleBegin sampleHeard := by
  have hsent : (linkSystem sampleWire .orderly).Reach sampleBegin (sampleBegin.advance
      (deliver (.primary, .sender)) (fun _ _ => false) (.primary, .sender) 3) :=
    .advance .refl (fun s op _ => linkStep_deliver _ s op) 3
  unfold sampleHeard
  exact hsent.advance (fun s op _ => linkStep_deliver _ s op) 3

theorem seq_sampleHeard : (sampleHeard.shared.node .standby).view.peer.heartbeatSeq = 1 ∧
    (sampleHeard.shared.node .standby).stored.length = 1 := by
  decide +kernel

/-- The standby keeps the state that the primary has told. -/
theorem keptOf_past_sample : ∃ beat : Beat,
    beat.datagram sampleWire .samplePrimary ∈ (sampleHeard.shared.node .primary).sent ∧
      beat.state ∈ (sampleHeard.shared.node .primary).states ∧
      Recalls (sampleHeard.shared.node .standby).view.peer beat := by
  refine (keptOf_past exact_sampleNow reach_sampleHeard .standby).resolve_left fun hunheard => ?_
  have hseq := seq_sampleHeard.1
  rw [hunheard] at hseq
  cases hseq

/-- It has stored the one heartbeat that was sent, and keeps what that one told. -/
theorem stored_inOrder_sample : ∃ beat : Beat,
    [beat.datagram sampleWire .samplePrimary].Sublist (sampleHeard.shared.node .primary).sent ∧
    Recalls (sampleHeard.shared.node .standby).view.peer beat := by
  obtain ⟨beats, hstored, hsent, -, -, hrecalls⟩ :=
    stored_inOrder exact_sampleNow reach_sampleHeard .standby
  have hlength := seq_sampleHeard.2
  rw [hstored, List.length_map] at hlength
  obtain ⟨beat, rfl⟩ := List.length_eq_one_iff.mp hlength
  exact ⟨beat, hsent, hrecalls beat rfl⟩

end Sample

end PgHa.Exchange

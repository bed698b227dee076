import Mathlib.Data.List.Range
import PgHa.Effect.Threads
import PgHa.Heartbeat.Reception
import PgHa.Model.Host

/-!
# When the peer is declared dead

The receiver and the watchdog of the heartbeat manager, one operation of one of them at
a time, while the clock goes on.  The watchdog looks at the time of the last heartbeat,
probes the peer, and clears the flag without looking again; the receiver reads the flag
before it takes the lock.  A heartbeat that is stored in between makes a death that is
no silence, or a pair of events in the wrong order.

`deathsAreReal` says that nothing else does: in every run in which no heartbeat is
stored between the watchdog's look and its event, and the flag is not cleared while the
receiver deals with a heartbeat, every death is a real silence and the events alternate.
-/

namespace PgHa.Silence

open Effect HeartbeatManager

variable {cfg : Config} {dec : Decoder}

/-! ## The system -/

inductive Slot
  | receiver
  | watchdog
  deriving DecidableEq, Repr

/-- Where the receiver is with a heartbeat. -/
inductive Phase
  | idle
  /-- It has read the flag. -/
  | read (alive : Bool)
  /-- It has stored a heartbeat of a peer that was not alive, and is to say so. -/
  | announcing
  deriving DecidableEq, Repr

/-- What the manager keeps of the peer, the clock, and what has happened: the types of the
events that were emitted, whether the watchdog has cleared the flag and is to say so,
whether a heartbeat has been stored since it has looked, and for how long the peer had
been silent whenever it cleared the flag or said so. -/
structure World where
  view : View
  now : Int
  emitted : List HaEventType
  phase : Phase
  declaring : Bool
  stored : Bool
  silences : List Int

namespace World

/-- The time of the last heartbeat. -/
def lastTs (s : World) : Int := s.view.peer.lastHeartbeatTs

/-- How long ago the last heartbeat was stored. -/
def age (s : World) : Int := s.now - s.lastTs

end World

/-- The operations of the host, for the receiver. -/
def receiverStep (s : World) : (call : HostCall) → Except Exc call.Ret → World → Prop
  | .peerAliveFlag, answer, s' =>
      answer = .ok s.view.alive ∧ s' = { s with phase := .read s.view.alive }
  | .storeHeartbeat msg, answer, s' =>
      answer = .ok () ∧ s' = { s with
        view := s.view.store msg s.now
        stored := true
        phase := if s.phase = .read true then .idle else .announcing }
  | .putEvent event, answer, s' =>
      (∀ exc, answer = .error exc → exc.cls = .queueFull) ∧
        s' = { s with emitted := s.emitted ++ [event.eventType], phase := .idle }
  | _, _, s' => s' = s

/-- The operations of the host, for the watchdog. -/
def watchdogStep (s : World) : (call : HostCall) → Except Exc call.Ret → World → Prop
  | .peerTimes, answer, s' =>
      answer = .ok (s.lastTs, s.view.alive) ∧ s' = { s with stored := false }
  | .time, answer, s' => answer = .ok s.now ∧ s' = s
  | .clearPeerAlive, answer, s' =>
      answer = .ok () ∧ s' = { s with
        view := { s.view with alive := false }
        declaring := true
        silences := s.silences ++ [s.age] }
  | .putEvent event, answer, s' =>
      (∀ exc, answer = .error exc → exc.cls = .queueFull) ∧ s' = { s with
        emitted := s.emitted ++ [event.eventType]
        declaring := false
        silences := s.silences ++ [s.age] }
  | _, _, s' => s' = s

def silenceStep (slot : Slot) (s : World) (event : Event Call.Ret Exc) (s' : World) : Prop :=
  match event with
  | ⟨.host call, answer⟩ =>
      match slot with
      | .receiver => receiverStep s call answer s'
      | .watchdog => watchdogStep s call answer s'
  | _ => s' = s

/-- Time goes on. -/
def silenceSystem : System Slot Call.Ret Exc Unit World where
  step := silenceStep
  fork _ _ _ _ _ _ := False
  arrive _ _ _ _ := False
  env s s' := ∃ now, s.now ≤ now ∧ s' = { s with now := now }

abbrev State : Type := Threads Slot Call.Ret Exc Unit World

/-- The heartbeat manager has been started, and its loops are followed for some passes. -/
def begin (cfg : Config) (dec : Decoder) (now : Int) (received watched : ℕ) : State where
  shared :=
    { view := ⟨{ name := cfg.cluster.peerNode }, false⟩
      now := now
      emitted := []
      phase := .idle
      declaring := false
      stored := false
      silences := [] }
  prog
    | .receiver => receiverLoop cfg dec received
    | .watchdog => watchdogLoop cfg watched

/-- The events that alternate, beginning with a recovery. -/
def alternately (count : ℕ) : List HaEventType :=
  (List.range count).map fun i => if i % 2 = 0 then .peerRecovered else .peerDead

/-- Deaths are declared on silence alone, and the events tell what has happened. -/
structure Real (cfg : Config) (s : World) : Prop where
  silences : ∀ age ∈ s.silences, cfg.cluster.deadInterval < age
  alternates : s.emitted = alternately s.emitted.length
  agrees : s.phase = .idle → s.declaring = false →
    (s.emitted.getLast? = some .peerRecovered ↔ s.view.alive = true)

/-- In every state that a run of the system reaches. -/
def DeathsAreReal (cfg : Config) (dec : Decoder)
    (S : System Slot Call.Ret Exc Unit World) : Prop :=
  ∀ now received watched state, S.Reach (begin cfg dec now received watched) state →
    Real cfg state.shared

/-- The flag is cleared only while no heartbeat has come since the watchdog has looked and
the receiver deals with none, and no heartbeat is stored until the death has been said. -/
def Undisturbed (_ : Slot) (s : World) (event : Event Call.Ret Exc) : Prop :=
  match event.op with
  | .host .clearPeerAlive => s.stored = false ∧ s.phase = .idle
  | .host (.storeHeartbeat _) => s.declaring = false
  | _ => True

/-! ## The contract of the two threads -/

theorem alternately_succ (count : ℕ) : alternately (count + 1) =
    alternately count ++ [if count % 2 = 0 then .peerRecovered else .peerDead] := by
  simp [alternately, List.range_succ]

/-- What holds throughout. -/
structure Inv (cfg : Config) (s : World) : Prop where
  silences : ∀ age ∈ s.silences, cfg.cluster.deadInterval < age
  alternates : s.emitted = alternately s.emitted.length
  flag : ∀ alive, s.phase = .read alive → s.view.alive = alive
  announcing : s.phase = .announcing →
    s.view.alive = true ∧ s.emitted.length % 2 = 0 ∧ s.declaring = false
  declaring : s.declaring = true → s.view.alive = false ∧ s.emitted.length % 2 = 1
  settled : s.phase ≠ .announcing → s.declaring = false →
    (s.emitted.length % 2 = 1 ↔ s.view.alive = true)

/-- How the receiver may change the state under the watchdog. -/
structure WatchdogRelies (s s' : World) : Prop where
  declaring : s'.declaring = s.declaring
  now : s.now ≤ s'.now
  alive : s.view.alive = true → s'.view.alive = true
  stored : s'.stored = false → s.stored = false ∧ s'.lastTs = s.lastTs
  declared : s.declaring = true → s'.lastTs = s.lastTs

def Relies : Slot → World → World → Prop
  | .receiver, s, s' => s'.phase = s.phase
  | .watchdog, s, s' => WatchdogRelies s s'

theorem relies_refl (i : Slot) (s : World) : Relies i s s := by
  cases i with
  | receiver => rfl
  | watchdog => exact ⟨rfl, Int.le_refl _, id, fun h => ⟨h, rfl⟩, fun _ => rfl⟩

theorem WatchdogRelies.trans {s s' s'' : World} (h : WatchdogRelies s s')
    (h' : WatchdogRelies s' s'') : WatchdogRelies s s'' where
  declaring := h'.declaring.trans h.declaring
  now := Int.le_trans h.now h'.now
  alive := h'.alive ∘ h.alive
  stored hstored := by
    obtain ⟨hstored', hsame'⟩ := h'.stored hstored
    obtain ⟨hstored, hsame⟩ := h.stored hstored'
    exact ⟨hstored, hsame'.trans hsame⟩
  declared hdeclaring :=
    (h'.declared (h.declaring.trans hdeclaring)).trans (h.declared hdeclaring)

/-- The system in which nothing comes between. -/
abbrev undisturbed : System Slot Call.Ret Exc Unit World := silenceSystem.restrict Undisturbed

/-- The two loops only keep the invariant: no thread is started, and nothing is said of
a loop that ends. -/
def silenceContract (cfg : Config) : Contract undisturbed where
  inv := Inv cfg
  rely := Relies
  refl := relies_refl
  trans i s s' s'' h h' := by
    cases i with
    | receiver => exact Eq.trans h' h
    | watchdog => exact h.trans h'
  start _ _ _ := False
  post _ _ _ := True
  stable _ _ _ _ _ _ _ := trivial

/-- A thread among the others. -/
abbrev among (cfg : Config) (i : Slot) : Transformer Call.Ret Exc World :=
  (silenceContract cfg).thread i

theorem among_monotone {i : Slot} : (among cfg i).Monotone :=
    (silenceContract cfg).thread_monotone i

variable {i : Slot} {α : Type}

/-- The rule for one operation. -/
theorem triple_perform {op : Call} {P : World → Prop} {Q : op.Ret → World → Prop} {E : World → Prop}
    (hstable : (silenceContract cfg).Stable i P)
    (hstep : ∀ s answer s', Inv cfg s → P s → Undisturbed i s ⟨op, answer⟩ →
      silenceStep i s ⟨op, answer⟩ s' →
      (silenceContract cfg).Keeping i (Prog.ending Q E (Prog.answered answer) s') s s') :
    Prog.Triple (among cfg i) P (Prog.perform op) Q E :=
  Contract.triple_perform hstable (fun _ _ _ _ _ h => h.2) fun s answer s' hinv hs h =>
    hstep s answer s' hinv hs h.1 h.2

/-- Operations of which neither thread takes notice. -/
def Quiet : Call → Prop
  | .host .peerAliveFlag | .host (.storeHeartbeat _) | .host (.putEvent _) | .host .peerTimes
  | .host .clearPeerAlive => False
  | _ => True

theorem eq_of_quiet {s s' : World} {event : Event Call.Ret Exc} (hquiet : Quiet event.op)
    (h : silenceStep i s event s') : s' = s := by
  obtain ⟨op, answer⟩ := event
  cases op with
  | disk call => exact h
  | net call => exact h
  | host call => cases i <;> cases call <;> first | exact hquiet.elim | exact h | exact h.2

theorem keeping_refl {s : World} {kept : Prop} (hinv : Inv cfg s) (h : kept) :
    (silenceContract cfg).Keeping i kept s s :=
  ⟨hinv, fun j _ => relies_refl j s, h⟩

theorem keeps_of_quiet {P : World → Prop} (hstable : (silenceContract cfg).Stable i P)
    {program : Mgr α} (hcalls : program.Calls Quiet) : Prog.Keeps (among cfg i) P program := by
  refine Contract.keeps_of_step hstable (fun _ _ _ _ _ _ _ h => h.2) ?_ hcalls
  intro s event s' hquiet hinv hs h
  obtain rfl := eq_of_quiet hquiet h.2
  exact keeping_refl hinv hs

/-! ## The receiver -/

section Receiver

/-- The receiver is in the given phase. -/
def In (phase : Phase) (s : World) : Prop := s.phase = phase

theorem stable_in {phase : Phase} : (silenceContract cfg).Stable .receiver (In phase) :=
  fun _ _ hs hrely _ => Eq.trans hrely hs

theorem flag_triple : Prog.Triple (among cfg .receiver) (In .idle) (Mgr.host .peerAliveFlag)
    (fun alive => In (.read alive)) fun _ => False := by
  refine triple_perform stable_in fun s answer s' hinv hs _ hstep => ?_
  obtain ⟨rfl, rfl⟩ := hstep
  have hphase : s.phase ≠ .announcing := by simp [show s.phase = .idle from hs]
  refine ⟨?_, ?_, rfl⟩
  · exact ⟨hinv.silences, hinv.alternates, fun alive h => by simpa using h, by simp,
      hinv.declaring, fun _ => hinv.settled hphase⟩
  · intro j hj
    cases j with
    | receiver => exact absurd rfl hj
    | watchdog => exact ⟨rfl, Int.le_refl _, id, fun h => ⟨h, rfl⟩, fun _ => rfl⟩

/-- A heartbeat is stored; the peer recovers when it was not alive before. -/
theorem store_triple (msg : HeartbeatMsg) (alive : Bool) :
    Prog.Triple (among cfg .receiver) (In (.read alive)) (Mgr.host (.storeHeartbeat msg))
      (fun _ => In (if alive then .idle else .announcing)) fun _ => False := by
  refine triple_perform stable_in fun s answer s' hinv hs hallowed hstep => ?_
  obtain ⟨rfl, rfl⟩ := hstep
  have hphase : s.phase = .read alive := hs
  have hdeclaring : s.declaring = false := hallowed
  have halive : s.view.alive = alive := hinv.flag alive hphase
  have hsettled : s.emitted.length % 2 = 1 ↔ s.view.alive = true :=
    hinv.settled (by simp [hphase]) hdeclaring
  refine ⟨⟨hinv.silences, hinv.alternates, ?_, ?_, ?_, ?_⟩, ?_, ?_⟩
  · cases alive <;> simp [hphase]
  · cases alive <;> simp_all [View.store]
  · simp [hdeclaring]
  · cases alive <;> simp_all [View.store]
  · intro j hj
    cases j with
    | receiver => exact absurd rfl hj
    | watchdog => exact ⟨rfl, Int.le_refl _, fun _ => rfl, by simp, by simp [hdeclaring]⟩
  · cases alive <;> simp [Prog.ending, In, hphase]

/-- An event whose turn it is. -/
theorem alternates_append {s : World} (hinv : Inv cfg s) {eventType : HaEventType}
    (hturn : eventType = if s.emitted.length % 2 = 0 then .peerRecovered else .peerDead) :
    s.emitted ++ [eventType] = alternately (s.emitted ++ [eventType]).length := by
  rw [List.length_append, List.length_singleton, alternately_succ, ← hinv.alternates, hturn]

theorem recovered_triple (message : String) :
    Prog.Triple (among cfg .receiver) (In .announcing) (emit cfg .peerRecovered message)
      (fun _ => In .idle) (In .idle) := by
  refine .except among_monotone (R := In .idle) ?_ fun exc => ?_
  · refine triple_perform stable_in fun s answer s' hinv hs _ hstep => ?_
    obtain ⟨-, rfl⟩ := hstep
    obtain ⟨halive, heven, hdeclaring⟩ := hinv.announcing hs
    refine ⟨⟨hinv.silences, alternates_append hinv (by simp [heven]), by simp, by simp, ?_, ?_⟩,
      ?_, ?_⟩
    · simp [hdeclaring]
    · intro _ _
      rw [List.length_append, List.length_singleton]
      simp only [halive, iff_true]
      omega
    · intro j hj
      cases j with
      | receiver => exact absurd rfl hj
      | watchdog => exact ⟨rfl, Int.le_refl _, id, fun h => ⟨h, rfl⟩, fun _ => rfl⟩
    · cases answer <;> rfl
  · exact .ite (fun _ => Prog.keeps_pure ()) fun _ => Prog.keeps_raise exc

theorem receiverPass_triple :
    Prog.Keeps (among cfg .receiver) (In .idle) (receiverPass cfg dec) := by
  have hreceive : Prog.Keeps (among cfg .receiver) (In .idle) (Mgr.host .recvDatagram).attempt :=
    keeps_of_quiet stable_in (.attempt (Prog.Calls.perform trivial))
  refine .bind among_monotone hreceive fun received => ?_
  cases received with
  | error exc => exact .ite (fun _ => Prog.keeps_pure ()) fun _ => Prog.keeps_raise exc
  | ok data =>
      dsimp only
      cases dec.decode data with
      | error exc => exact .ite (fun _ => Prog.keeps_pure ()) fun _ => Prog.keeps_raise exc
      | ok msg =>
          refine .ite (fun _ => Prog.keeps_pure ()) fun _ => ?_
          refine .bind among_monotone (flag_triple.conseq among_monotone (fun _ => id)
            (fun _ _ => id) fun _ => False.elim) fun alive => ?_
          refine .bind among_monotone ((store_triple msg alive).conseq among_monotone (fun _ => id)
            (fun _ _ => id) fun _ => False.elim) fun _ => ?_
          cases alive with
          | true => exact Prog.keeps_pure ()
          | false => exact recovered_triple _

end Receiver

/-! ## The watchdog -/

section Watchdog

/-- The watchdog is not about to say that the peer is dead. -/
def Calm (s : World) : Prop := s.declaring = false

/-- The watchdog has read the time of the last heartbeat and the flag. -/
structure Looked (lastTs : Int) (alive : Bool) (s : World) : Prop where
  calm : s.declaring = false
  lastTs : s.stored = false → s.lastTs = lastTs
  alive : alive = true → s.view.alive = true

/-- It has found the peer silent, and has cleared the flag. -/
structure Declared (cfg : Config) (s : World) : Prop where
  declaring : s.declaring = true
  silent : cfg.cluster.deadInterval < s.age

theorem stable_calm : (silenceContract cfg).Stable .watchdog Calm :=
  fun _ _ hs hrely _ => hrely.declaring.trans hs

theorem stable_looked {lastTs : Int} {alive : Bool} :
    (silenceContract cfg).Stable .watchdog (Looked lastTs alive) := by
  intro s s' hs hrely _
  refine ⟨hrely.declaring.trans hs.calm, fun hstored => ?_, fun h => hrely.alive (hs.alive h)⟩
  obtain ⟨hbefore, hsame⟩ := hrely.stored hstored
  exact hsame.trans (hs.lastTs hbefore)

theorem stable_now {now : Int} : (silenceContract cfg).Stable .watchdog (now ≤ ·.now) :=
  fun _ _ hs hrely _ => Int.le_trans hs hrely.now

theorem stable_declared : (silenceContract cfg).Stable .watchdog (Declared cfg) := by
  intro s s' hs hrely _
  refine ⟨hrely.declaring.trans hs.declaring, ?_⟩
  have hsame : s'.lastTs = s.lastTs := hrely.declared hs.declaring
  have hsilent := hs.silent
  have hnow := hrely.now
  unfold World.age at hsilent ⊢
  omega

theorem peerTimes_triple : Prog.Triple (among cfg .watchdog) Calm (Mgr.host .peerTimes)
    (fun times => Looked times.1 times.2) Calm := by
  refine triple_perform stable_calm fun s answer s' hinv hs _ hstep => ?_
  obtain ⟨rfl, rfl⟩ := hstep
  refine ⟨⟨hinv.silences, hinv.alternates, hinv.flag, hinv.announcing, hinv.declaring,
    hinv.settled⟩, ?_, ?_⟩
  · intro j hj
    cases j with
    | receiver => rfl
    | watchdog => exact absurd rfl hj
  · exact ⟨hs, fun _ => rfl, id⟩

theorem time_triple {lastTs : Int} {alive : Bool} :
    Prog.Triple (among cfg .watchdog) (Looked lastTs alive) (Mgr.host .time)
      (fun now s => Looked lastTs alive s ∧ now ≤ s.now) Calm := by
  refine triple_perform stable_looked fun s answer s' hinv hs _ hstep => ?_
  obtain ⟨rfl, rfl⟩ := hstep
  exact keeping_refl hinv ⟨hs, Int.le_refl _⟩

/-- The flag is cleared on a silence that is still one. -/
theorem clear_triple {lastTs now : Int} (hsilent : now - lastTs > cfg.cluster.deadInterval) :
    Prog.Triple (among cfg .watchdog) (fun s => Looked lastTs true s ∧ now ≤ s.now)
      (Mgr.host .clearPeerAlive) (fun _ => Declared cfg) Calm := by
  refine triple_perform (stable_looked.and stable_now) fun s answer s' hinv hs hallowed hstep => ?_
  obtain ⟨rfl, rfl⟩ := hstep
  obtain ⟨hlooked, hnow⟩ := hs
  obtain ⟨hstored, hphase⟩ : s.stored = false ∧ s.phase = .idle := hallowed
  have hage : cfg.cluster.deadInterval < s.age := by
    have hsame : s.lastTs = lastTs := hlooked.lastTs hstored
    unfold World.age
    omega
  have hodd : s.emitted.length % 2 = 1 :=
    (hinv.settled (by simp [hphase]) hlooked.calm).mpr (hlooked.alive rfl)
  refine ⟨⟨?_, hinv.alternates, by simp [hphase], by simp [hphase], fun _ => ⟨rfl, hodd⟩, by simp⟩,
    ?_, ⟨rfl, hage⟩⟩
  · intro age hmem
    rcases List.mem_append.mp hmem with hold | hnew
    · exact hinv.silences age hold
    · obtain rfl := List.mem_singleton.mp hnew
      exact hage
  · intro j hj
    cases j with
    | receiver => rfl
    | watchdog => exact absurd rfl hj

theorem dead_triple (message : String) :
    Prog.Triple (among cfg .watchdog) (Declared cfg) (emit cfg .peerDead message) (fun _ => Calm)
      Calm := by
  refine .except among_monotone (R := Calm) ?_ fun exc => ?_
  · refine triple_perform stable_declared fun s answer s' hinv hs _ hstep => ?_
    obtain ⟨-, rfl⟩ := hstep
    obtain ⟨halive, hodd⟩ := hinv.declaring hs.declaring
    refine ⟨⟨?_, alternates_append hinv (by simp [hodd]), hinv.flag, ?_, by simp, ?_⟩, ?_, ?_⟩
    · intro age hmem
      rcases List.mem_append.mp hmem with hold | hnew
      · exact hinv.silences age hold
      · obtain rfl := List.mem_singleton.mp hnew
        exact hs.silent
    · intro hphase
      have hcalm := (hinv.announcing hphase).2.2
      rw [hs.declaring] at hcalm
      cases hcalm
    · intro _ _
      rw [List.length_append, List.length_singleton]
      simp only [halive, Bool.false_eq_true, iff_false]
      omega
    · intro j hj
      cases j with
      | receiver => rfl
      | watchdog => exact absurd rfl hj
    · cases answer <;> rfl
  · exact .ite (fun _ => Prog.keeps_pure ()) fun _ => Prog.keeps_raise exc

theorem watchdogPass_triple : Prog.Keeps (among cfg .watchdog) Calm (watchdogPass cfg) := by
  have hsleep : Prog.Keeps (among cfg .watchdog) Calm
      (Mgr.host (.sleep (min 1000 (cfg.cluster.deadInterval / 2)))) :=
    keeps_of_quiet stable_calm (Prog.Calls.perform trivial)
  have hprobe : (FailoverEngine.isPeerPgReachable cfg).Calls Quiet := by
    refine .bind (.attempt (Prog.Calls.perform trivial)) fun result => ?_
    cases result with
    | ok _ => trivial
    | error exc => exact .ite trivial trivial
  refine .bind among_monotone hsleep fun _ => .bind among_monotone peerTimes_triple fun times => ?_
  obtain ⟨lastTs, alive⟩ := times
  refine .ite (fun _ => .pure fun s hs => hs.calm) fun _ => ?_
  refine .bind among_monotone time_triple fun now => ?_
  refine .ite (fun hdead => ?_) fun _ => .pure fun s hs => hs.1.calm
  obtain ⟨hsilent, rfl⟩ := hdead
  refine .after_keeps among_monotone (keeps_of_quiet (stable_looked.and stable_now) hprobe)
    (fun reachable => .ite (fun _ => .pure fun s hs => hs.1.calm) fun _ => ?_)
    fun s hs => hs.1.calm
  exact .bind among_monotone (clear_triple hsilent) fun _ => dead_triple _

end Watchdog

/-! ## Both threads -/

theorem silenceContract_holds : (silenceContract cfg).Holds where
  start _ _ _ _ hstart := hstart.elim
  arrive _ _ _ _ _ harrive := harrive.elim
  env s s' hinv henv := by
    obtain ⟨now, hnow, rfl⟩ := henv
    refine ⟨⟨hinv.silences, hinv.alternates, hinv.flag, hinv.announcing, hinv.declaring,
      hinv.settled⟩, fun i => ?_⟩
    cases i with
    | receiver => rfl
    | watchdog => exact ⟨rfl, hnow, id, fun h => ⟨h, rfl⟩, fun _ => rfl⟩

theorem sound_of_begin (now : Int) (received watched : ℕ) :
    (silenceContract cfg).Sound (begin cfg dec now received watched) := by
  refine ⟨⟨by simp [begin], rfl, by simp [begin], by simp [begin], by simp [begin], ?_⟩, ?_⟩
  · simp [begin]
  · have hsafe {i : Slot} {P : World → Prop} {program : Mgr Unit} {s : World}
        (h : Prog.Keeps (among cfg i) P program) (hs : P s) :
        (silenceContract cfg).Safe i program s :=
      Prog.wp_mono among_monotone (fun _ _ _ => trivial) (h s hs)
    intro i
    cases i with
    | receiver =>
        have hloop : Prog.Keeps (among cfg .receiver) (In .idle) (receiverLoop cfg dec received) :=
          Prog.keeps_passes among_monotone rfl (fun _ => rfl) receiverPass_triple received
        exact hsafe hloop rfl
    | watchdog =>
        have hloop : Prog.Keeps (among cfg .watchdog) Calm (watchdogLoop cfg watched) :=
          Prog.keeps_passes among_monotone rfl (fun _ => rfl) watchdogPass_triple watched
        exact hsafe hloop rfl

theorem Inv.real {s : World} (h : Inv cfg s) : Real cfg s := by
  refine ⟨h.silences, h.alternates, fun hidle hcalm => ?_⟩
  have hsettled := h.settled (by simp [hidle]) hcalm
  rw [← hsettled]
  cases hlength : s.emitted.length with
  | zero => simp [List.length_eq_zero_iff.mp hlength]
  | succ count =>
      have hemitted := h.alternates
      rw [hlength, alternately_succ] at hemitted
      rw [hemitted, List.getLast?_concat, Option.some.injEq]
      split_ifs
      · simp only [true_iff]
        omega
      · simp only [false_iff]
        omega

/-- **Deaths are real.**  In every run in which nothing comes between the watchdog's look
and its event, the peer is declared dead only on silence, the events alternate, and when
both threads are idle the last one tells whether the peer counts as alive. -/
theorem deathsAreReal (cfg : Config) (dec : Decoder) : DeathsAreReal cfg dec undisturbed :=
  fun now received watched _ hreach =>
    (silenceContract_holds.reach hreach (sound_of_begin now received watched)).1.real

/-! ## Sample runs -/

section Sample

/-- A heartbeat is there whenever the receiver waits for one, and the peer refuses a
connection. -/
def obey (slot : Slot) : (op : Call) → World → Except Exc op.Ret × World
  | .disk call, s => (call.reply, s)
  | .net _, s => (.ok (), s)
  | .host call, s =>
      let node : DaemonState := ⟨{ name := "" }, 0, 0, "UNKNOWN", false, false, 0⟩
      match slot, call with
      | .receiver, .recvDatagram => (.ok (sampleBytes sampleDemoted.1), s)
      | .receiver, .peerAliveFlag => (.ok s.view.alive, { s with phase := .read s.view.alive })
      | .receiver, .storeHeartbeat msg => (.ok (), { s with
          view := s.view.store msg s.now
          stored := true
          phase := if s.phase = .read true then .idle else .announcing })
      | .receiver, .putEvent event =>
          (.ok (), { s with emitted := s.emitted ++ [event.eventType], phase := .idle })
      | .watchdog, .peerTimes => (.ok (s.lastTs, s.view.alive), { s with stored := false })
      | .watchdog, .time => (.ok s.now, s)
      | .watchdog, .createConnection .. => (.error ⟨.osError, "Connection refused"⟩, s)
      | .watchdog, .clearPeerAlive => (.ok (), { s with
          view := { s.view with alive := false }
          declaring := true
          silences := s.silences ++ [s.age] })
      | .watchdog, .putEvent event => (.ok (), { s with
          emitted := s.emitted ++ [event.eventType]
          declaring := false
          silences := s.silences ++ [s.age] })
      | _, call => (node.reply call, s)

theorem silenceStep_obey (slot : Slot) (op : Call) (s : World) :
    silenceStep slot s ⟨op, (obey slot op s).1⟩ (obey slot op s).2 := by
  cases op with
  | disk call => rfl
  | net call => rfl
  | host call =>
      cases slot <;> cases call <;>
        first | rfl | exact ⟨rfl, rfl⟩ | exact ⟨by simp [obey], rfl⟩

/-- Where something would come in between. -/
def disturbed : Call → World → Bool
  | .host .clearPeerAlive, s => s.stored || s.phase != .idle
  | .host (.storeHeartbeat _), s => s.declaring
  | _, _ => false

theorem undisturbed_obey (slot : Slot) (s : World) (op : Call) (h : disturbed op s = false) :
    undisturbed.step slot s ⟨op, (obey slot op s).1⟩ (obey slot op s).2 := by
  refine ⟨?_, silenceStep_obey slot op s⟩
  cases op with
  | host call => cases call <;> simp_all [Undisturbed, disturbed]
  | _ => trivial

/-- The manager of the sample standby. -/
def sampleBegin : State := begin .sampleStandby sampleDecoder 1000000 2 1

/-- A first heartbeat has come. -/
def heard : State := sampleBegin.advance (obey .receiver) disturbed .receiver 4

/-- And then none for twenty seconds. -/
def silent : State := ⟨{ heard.shared with now := 1020000 }, heard.prog⟩

theorem reach_silent : undisturbed.Reach sampleBegin silent := by
  have hheard : undisturbed.Reach sampleBegin heard := .advance .refl (undisturbed_obey .receiver) 4
  refine hheard.env ⟨1020000, ?_, rfl⟩
  decide +kernel

/-- The peer is declared dead. -/
theorem deathsAreReal_silent : ∃ state, undisturbed.Reach sampleBegin state ∧
    state.shared.emitted = [.peerRecovered, .peerDead] ∧
      ∀ age ∈ state.shared.silences, Config.sampleStandby.cluster.deadInterval < age := by
  have hreach := reach_silent.advance (undisturbed_obey .watchdog) 6
  refine ⟨_, hreach, by decide +kernel, ?_⟩
  exact (deathsAreReal .sampleStandby sampleDecoder _ _ _ _ hreach).silences

/-- A thread goes on, whatever comes in between. -/
def onward (slot : Slot) (count : ℕ) (state : State) : State :=
  state.advance (obey slot) (fun _ _ => false) slot count

theorem reach_onward {start state : State} (h : silenceSystem.Reach start state) (slot : Slot)
    (count : ℕ) : silenceSystem.Reach start (onward slot count state) :=
  h.advance (fun s op _ => silenceStep_obey slot op s) count

/-- The second heartbeat comes while the watchdog probes the peer. -/
theorem not_deathsAreReal : ¬ DeathsAreReal .sampleStandby sampleDecoder silenceSystem := by
  intro h
  have hlooked := reach_onward reach_silent.unrestrict .watchdog 4
  have hovertaken := reach_onward hlooked .receiver 3
  have hdeclared := reach_onward hovertaken .watchdog 2
  have hsilences := (h _ _ _ _ hdeclared).silences 0 (by decide +kernel)
  exact absurd hsilences (by decide)

end Sample

end PgHa.Silence

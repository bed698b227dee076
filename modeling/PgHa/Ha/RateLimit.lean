import PgHa.Daemon
import PgHa.Effect.Threads
import PgHa.Model.Host

/-!
# How often a failover is attempted

`should_attempt` reads the counter and the time of the last attempt; `execute` writes
both, later and in the thread that the check has started.  The failover lock covers the
check and the start of the thread but not what that thread writes, so a second trigger
that looks in between sees the counter of before.

`rateLimited` says that nothing else breaks the limit: in every run in which a failover is
started only on a counter that was read when every attempt started before had been
recorded, there are at most `maxAttempts` entries since the last success, and any two of
them are `retryBackoffMillis` apart.
-/

namespace PgHa.RateLimit

open Effect FailoverEngine

variable {cfg : Config}

/-! ## The system -/

/-- The threads that look after failovers: the main loop, the handlers of the peer's
connections, and the threads that they start. -/
inductive Slot
  | mainLoop
  | handler (n : ℕ)
  | failover (n : ℕ)
  deriving DecidableEq, Repr

/-- How far an attempt is with its record. -/
inductive Phase
  | started
  /-- `execute` has been entered. -/
  | entered
  /-- The counter has been written, the time has not. -/
  | counted
  deriving DecidableEq, Repr

/-- The fields of the engine, the lock with its holder, the monotonic clock, and what has
happened: when `execute` has been entered since the start of the daemon or the last
success, newest first, the attempts that are not recorded yet, and whether there were
any when a trigger has last read the counter. -/
structure World where
  attempts : ℕ
  lastAttemptTs : Int
  holder : Option Slot
  now : Int
  entries : List Int
  pending : List (Slot × Phase)
  checked : Bool

namespace World

/-- The attempt of a thread goes on to another phase. -/
def moveTo (s : World) (slot : Slot) (phase : Phase) : World :=
  { s with pending := s.pending.map fun attempt =>
      if attempt.1 = slot then (slot, phase) else attempt }

/-- The counter is written: by a success, or for an attempt. -/
def counting (s : World) (slot : Slot) (attempts : ℕ) : World :=
  if attempts = 0 then { s with attempts := 0, entries := [] }
  else { s.moveTo slot .counted with attempts := attempts }

/-- The counter is read; a trigger does so to decide on an attempt. -/
def reading (s : World) : Slot → World
  | .failover _ => s
  | _ => { s with checked := s.pending.isEmpty }

end World

/-- The operations of the host.  A thread for a failover is started by `fork`. -/
def limitStep (slot : Slot) (s : World) : (call : HostCall) → Except Exc call.Ret → World → Prop
  | .attempts, answer, s' => answer = .ok s.attempts ∧ s' = s.reading slot
  | .setAttempts attempts, answer, s' => answer = .ok () ∧ s' = s.counting slot attempts
  | .lastAttemptTs, answer, s' => answer = .ok s.lastAttemptTs ∧ s' = s
  | .setLastAttemptTs ts, answer, s' =>
      answer = .ok () ∧ s' = { s with
        lastAttemptTs := ts
        pending := s.pending.filter (·.1 ≠ slot) }
  | .monotonic, answer, s' => answer = .ok s.now ∧ s' = s
  | .mark (.enter .failover), answer, s' =>
      answer = .ok () ∧ s' = { s.moveTo slot .entered with entries := s.now :: s.entries }
  | .acquireFailoverLock blocking, answer, s' =>
      answer = .ok s.holder.isNone ∧ (blocking = true → s.holder = none) ∧
        s' = { s with holder := some (s.holder.getD slot) }
  | .releaseFailoverLock, answer, s' => answer = .ok () ∧ s' = { s with holder := none }
  | .startThread (.runFailover _), answer, s' => (∃ exc, answer = .error exc) ∧ s' = s
  | _, _, s' => s' = s

/-- The managers, and the rest of the host, answer anything. -/
def rateStep (slot : Slot) (s : World) (event : Event Call.Ret Exc) (s' : World) : Prop :=
  match event with
  | ⟨.host call, answer⟩ => limitStep slot s call answer s'
  | _ => s' = s

/-- The main loop makes its passes, anybody connects, and time goes on.  The threads of a
switchover never execute a failover and are left out. -/
def rateSystem (cfg : Config) : System Slot Call.Ret Exc Unit World where
  step := rateStep
  fork _ j s event s' child := ∃ n skipFence, j = .failover n ∧
    event = ⟨.host (.startThread (.runFailover skipFence)), .ok ()⟩ ∧
    child = PgHaDaemon.runFailover cfg skipFence ∧
    s' = { s with pending := (j, .started) :: s.pending }
  arrive i s program s' := s' = s ∧
    (i = .mainLoop ∧ program = PgHaDaemon.mainLoopPass cfg ∨
      ∃ n, i = .handler n ∧ program = PgHaDaemon.handlePeerConn cfg)
  env s s' := ∃ now, s.now ≤ now ∧ s' = { s with now := now }

abbrev State : Type := Threads Slot Call.Ret Exc Unit World

/-- The daemon has just been started. -/
def begin (now : Int) : State where
  shared :=
    { attempts := 0
      lastAttemptTs := 0
      holder := none
      now := now
      entries := []
      pending := []
      checked := false }
  prog _ := .pure ()

/-- The limit on the entries since the last success. -/
structure Limited (s : World) : Prop where
  few : s.entries.length ≤ maxAttempts
  apart : s.entries.Pairwise fun later earlier => earlier + retryBackoffMillis ≤ later

/-- In every state that a run of the system reaches. -/
def RateLimited (S : System Slot Call.Ret Exc Unit World) : Prop :=
  ∀ now state, S.Reach (begin now) state → Limited state.shared

/-- A failover is started only on a counter that was read when every attempt before was
recorded. -/
def Orderly (_ : Slot) (s : World) (event : Event Call.Ret Exc) : Prop :=
  match event with
  | ⟨.host (.startThread (.runFailover _)), .ok _⟩ => s.checked = true
  | _ => True

/-! ## The contract of the threads -/

/-- Every entry was made at the given time or before. -/
def UpTo (entries : List Int) (time : Int) : Prop := ∀ entry ∈ entries, entry ≤ time

/-- What the fields of the engine say of the entries.  At most one attempt is pending, and
until it has entered, another entry may be made. -/
def Accounts (s : World) : Prop :=
  match s.pending with
  | [] => s.entries.length ≤ s.attempts ∧ UpTo s.entries s.lastAttemptTs
  | [(_, .started)] => s.entries.length ≤ s.attempts ∧ s.entries.length < maxAttempts ∧
      UpTo s.entries (s.now - retryBackoffMillis)
  | [(_, .entered)] => s.entries.length ≤ s.attempts + 1
  | [(_, .counted)] => s.entries.length ≤ s.attempts
  | _ => False

/-- What holds throughout. -/
structure Inv (s : World) : Prop where
  limited : Limited s
  past : UpTo s.entries s.now
  accounts : Accounts s

/-- The entries are those of before, or a success has cleared them. -/
def Cleared (s s' : World) : Prop := s'.entries = s.entries ∨ s'.entries = []

theorem Cleared.trans {s s' s'' : World} (h : Cleared s s') (h' : Cleared s' s'') :
    Cleared s s'' := by
  rcases h' with h' | h'
  · rcases h with h | h
    · exact .inl (h'.trans h)
    · exact .inr (h'.trans h)
  · exact .inr h'

theorem Cleared.upTo {s s' : World} (h : Cleared s s') {time : Int} (hs : UpTo s.entries time) :
    UpTo s'.entries time := by
  rcases h with h | h
  · rwa [h]
  · rw [h]
    exact fun _ hmem => absurd hmem List.not_mem_nil

theorem Cleared.length_le {s s' : World} (h : Cleared s s') :
    s'.entries.length ≤ s.entries.length := by
  rcases h with h | h <;> simp [h]

/-- How the other threads may change the state under a thread: they leave it the lock, what
the counter was read with, and its own attempt; and with nothing pending they record
nothing. -/
structure Relies (i : Slot) (s s' : World) : Prop where
  now : s.now ≤ s'.now
  free : s.holder ≠ some i → s'.holder ≠ some i
  held : s.holder = some i → s'.holder = some i ∧ s'.checked = s.checked ∧
    (s.pending = [] → s'.pending = [] ∧ s'.lastAttemptTs = s.lastAttemptTs ∧ Cleared s s')
  own : ∀ phase, s.pending = [(i, phase)] → s'.pending = [(i, phase)] ∧ Cleared s s'

theorem relies_refl (i : Slot) (s : World) : Relies i s s :=
  ⟨Int.le_refl _, id, fun h => ⟨h, rfl, fun h => ⟨h, rfl, .inl rfl⟩⟩, fun _ h => ⟨h, .inl rfl⟩⟩

theorem Relies.trans {i : Slot} {s s' s'' : World} (h : Relies i s s') (h' : Relies i s' s'') :
    Relies i s s'' where
  now := Int.le_trans h.now h'.now
  free := h'.free ∘ h.free
  held hheld := by
    obtain ⟨hheld', hchecked, hnone⟩ := h.held hheld
    obtain ⟨hheld'', hchecked', hnone'⟩ := h'.held hheld'
    refine ⟨hheld'', hchecked'.trans hchecked, fun hpending => ?_⟩
    obtain ⟨hpending', hlast, hcleared⟩ := hnone hpending
    obtain ⟨hpending'', hlast', hcleared'⟩ := hnone' hpending'
    exact ⟨hpending'', hlast'.trans hlast, hcleared.trans hcleared'⟩
  own phase hpending := by
    obtain ⟨hpending', hcleared⟩ := h.own phase hpending
    obtain ⟨hpending'', hcleared'⟩ := h'.own phase hpending'
    exact ⟨hpending'', hcleared.trans hcleared'⟩

/-- The system in which the condition is met. -/
abbrev orderly (cfg : Config) : System Slot Call.Ret Exc Unit World :=
  (rateSystem cfg).restrict Orderly

/-- A trigger does not hold the lock when it starts and when it has ended. -/
def rateContract (cfg : Config) : Contract (orderly cfg) where
  inv := Inv
  rely := Relies
  refl := relies_refl
  trans _ _ _ _ := Relies.trans
  start i program s := match i with
    | .mainLoop => program = PgHaDaemon.mainLoopPass cfg ∧ s.holder ≠ some i
    | .handler _ => program = PgHaDaemon.handlePeerConn cfg ∧ s.holder ≠ some i
    | .failover _ => (∃ skipFence, program = PgHaDaemon.runFailover cfg skipFence) ∧
        s.pending = [(i, .started)]
  post i outcome s := match i with
    | .failover _ => True
    | _ => outcome ≠ .stuck → s.holder ≠ some i
  stable i outcome s s' hrely _ hpost := by
    cases i with
    | failover n => trivial
    | _ => exact fun hended => hrely.free (hpost hended)

/-- A thread among the others. -/
abbrev among (cfg : Config) (i : Slot) : Transformer Call.Ret Exc World :=
  (rateContract cfg).thread i

variable {i : Slot} {α β : Type}

theorem among_monotone : (among cfg i).Monotone := (rateContract cfg).thread_monotone i

/-- The rule for an operation that starts no failover. -/
theorem triple_perform {op : Call} {P : World → Prop} {Q : op.Ret → World → Prop}
    {E : World → Prop} (hstable : (rateContract cfg).Stable i P)
    (hop : ∀ skipFence, op ≠ .host (.startThread (.runFailover skipFence)))
    (hstep : ∀ s answer s', Inv s → P s → rateStep i s ⟨op, answer⟩ s' →
      (rateContract cfg).Keeping i (Prog.ending Q E (Prog.answered answer) s') s s') :
    Prog.Triple (among cfg i) P (Prog.perform op) Q E := by
  refine Contract.triple_perform hstable ?_ fun s answer s' hinv hs h =>
    hstep s answer s' hinv hs h.2
  rintro j s answer s' child ⟨-, n, skipFence, -, hevent, -⟩
  obtain ⟨rfl, -⟩ := Event.mk.inj hevent
  exact hop skipFence rfl

/-- The operations that have nothing to do with the limit. -/
def Quiet : Call → Prop
  | .host .attempts | .host (.setAttempts _) | .host (.setLastAttemptTs _)
  | .host (.acquireFailoverLock _) | .host .releaseFailoverLock
  | .host (.startThread (.runFailover _)) | .host (.mark (.enter .failover)) => False
  | _ => True

theorem eq_of_quiet {s s' : World} {event : Event Call.Ret Exc} (hquiet : Quiet event.op)
    (h : rateStep i s event s') : s' = s := by
  obtain ⟨op, answer⟩ := event
  cases op with
  | disk call => exact h
  | net call => exact h
  | host call =>
      cases call
      case mark mark =>
        cases mark
        case enter sequence => cases sequence <;> first | exact hquiet.elim | exact h
        all_goals exact h
      case startThread task => cases task <;> first | exact hquiet.elim | exact h
      all_goals first | exact hquiet.elim | exact h | exact h.2

theorem keeping_refl {s : World} {kept : Prop} (hinv : Inv s) (h : kept) :
    (rateContract cfg).Keeping i kept s s :=
  ⟨hinv, fun j _ => relies_refl j s, h⟩

theorem keeps_of_quiet {P : World → Prop} (hstable : (rateContract cfg).Stable i P)
    {program : Mgr α} (hcalls : program.Calls Quiet) : Prog.Keeps (among cfg i) P program := by
  refine Contract.keeps_of_step hstable ?_ ?_ hcalls
  · rintro op hquiet j s answer s' child ⟨-, n, skipFence, -, hevent, -⟩
    obtain ⟨rfl, -⟩ := Event.mk.inj hevent
    exact hquiet
  · intro s event s' hquiet hinv hs h
    obtain rfl := eq_of_quiet hquiet h.2
    exact keeping_refl hinv hs

/-! ## The check -/

section Trigger

/-- A thread that may start a failover. -/
def Trigger (i : Slot) : Prop := ∀ n, i ≠ .failover n

theorem reading_of_trigger (hi : Trigger i) (s : World) :
    s.reading i = { s with checked := s.pending.isEmpty } := by
  cases i with
  | failover n => exact absurd rfl (hi n)
  | _ => rfl

def Free (i : Slot) (s : World) : Prop := s.holder ≠ some i

def Held (i : Slot) (s : World) : Prop := s.holder = some i

/-- The lock is held, and the counter has been read. -/
structure Seen (i : Slot) (attempts : ℕ) (s : World) : Prop where
  held : s.holder = some i
  seen : s.checked = true → s.pending = [] ∧ s.entries.length ≤ attempts

/-- The time of the last attempt has been read as well. -/
def Dated (lastAttempt : Int) (s : World) : Prop :=
  s.checked = true → UpTo s.entries lastAttempt

/-- Another entry may be made. -/
structure Permit (i : Slot) (s : World) : Prop where
  held : s.holder = some i
  due : s.checked = true → s.pending = [] ∧ s.entries.length < maxAttempts ∧
    UpTo s.entries (s.now - retryBackoffMillis)

theorem stable_free : (rateContract cfg).Stable i (Free i) := fun _ _ hs hrely _ => hrely.free hs

theorem stable_held : (rateContract cfg).Stable i (Held i) :=
  fun _ _ hs hrely _ => (hrely.held hs).1

theorem stable_seen {attempts : ℕ} : (rateContract cfg).Stable i (Seen i attempts) := by
  intro s s' hs hrely _
  obtain ⟨hheld, hchecked, hnone⟩ := hrely.held hs.held
  refine ⟨hheld, fun h => ?_⟩
  obtain ⟨hpending, hlength⟩ := hs.seen (hchecked ▸ h)
  obtain ⟨hpending', -, hcleared⟩ := hnone hpending
  exact ⟨hpending', Nat.le_trans hcleared.length_le hlength⟩

theorem stable_now {now : Int} : (rateContract cfg).Stable i (now ≤ ·.now) :=
  fun _ _ hs hrely _ => Int.le_trans hs hrely.now

theorem stable_permit : (rateContract cfg).Stable i (Permit i) := by
  intro s s' hs hrely _
  obtain ⟨hheld, hchecked, hnone⟩ := hrely.held hs.held
  refine ⟨hheld, fun h => ?_⟩
  obtain ⟨hpending, hfew, hdue⟩ := hs.due (hchecked ▸ h)
  obtain ⟨hpending', -, hcleared⟩ := hnone hpending
  refine ⟨hpending', Nat.lt_of_le_of_lt hcleared.length_le hfew, fun entry hmem => ?_⟩
  have hentry := hcleared.upTo hdue entry hmem
  have hnow := hrely.now
  omega

/-- Only what a thread has read with changes. -/
theorem keeping_checked {s : World} {checked : Bool} {kept : Prop} (hinv : Inv s)
    (hheld : s.holder = some i) (h : kept) :
    (rateContract cfg).Keeping i kept s { s with checked := checked } := by
  refine ⟨⟨⟨hinv.limited.few, hinv.limited.apart⟩, hinv.past, hinv.accounts⟩, fun j hj => ?_, h⟩
  refine ⟨Int.le_refl _, id, fun hother => ?_, fun _ h => ⟨h, .inl rfl⟩⟩
  have : j = i := Option.some.inj (hother.symm.trans hheld)
  exact absurd this hj

theorem attempts_triple (hi : Trigger i) : Prog.Triple (among cfg i) (Held i)
    (Mgr.host .attempts) (Seen i) (Held i) := by
  refine triple_perform stable_held (by simp) fun s answer s' hinv hs hstep => ?_
  obtain ⟨rfl, rfl⟩ := hstep
  rw [reading_of_trigger hi]
  refine keeping_checked hinv hs ⟨hs, fun hempty => ?_⟩
  have hpending : s.pending = [] := List.isEmpty_iff.mp hempty
  have haccounts := hinv.accounts
  unfold Accounts at haccounts
  rw [hpending] at haccounts
  exact ⟨hpending, haccounts.1⟩

theorem monotonic_triple {P : World → Prop} (hP : (rateContract cfg).Stable i P) :
    Prog.Triple (among cfg i) P (Mgr.host .monotonic) (fun now s => P s ∧ now ≤ s.now) P := by
  refine triple_perform hP (by simp) fun s answer s' hinv hs hstep => ?_
  obtain ⟨rfl, rfl⟩ := hstep
  exact keeping_refl hinv ⟨hs, Int.le_refl _⟩

theorem lastAttemptTs_triple {attempts : ℕ} {now : Int} :
    Prog.Triple (among cfg i) (fun s => Seen i attempts s ∧ now ≤ s.now)
      (Mgr.host .lastAttemptTs)
      (fun lastAttempt s => (Seen i attempts s ∧ now ≤ s.now) ∧ Dated lastAttempt s) (Held i) := by
  refine triple_perform (stable_seen.and stable_now) (by simp) fun s answer s' hinv hs hstep => ?_
  obtain ⟨rfl, rfl⟩ := hstep
  refine keeping_refl hinv ⟨hs, fun hchecked => ?_⟩
  have haccounts := hinv.accounts
  unfold Accounts at haccounts
  rw [(hs.1.seen hchecked).1] at haccounts
  exact haccounts.2

/-- What `should_attempt` has found. -/
def Granted (i : Slot) (permitted : Bool) (s : World) : Prop :=
  Held i s ∧ (permitted = true → Permit i s)

theorem isStandby_keeps {P : World → Prop} (hP : (rateContract cfg).Stable i P) :
    Prog.Keeps (among cfg i) P LocalNode.isStandby :=
  keeps_of_quiet hP (.perform_bind trivial fun _ => trivial)

/-- The arithmetic of the permission. -/
theorem Seen.permit {attempts : ℕ} {now lastAttempt : Int} {s : World} (h : Seen i attempts s)
    (hnow : now ≤ s.now) (hdated : Dated lastAttempt s) (hfew : attempts < maxAttempts)
    (hdue : attempts = 0 ∨ retryBackoffMillis ≤ now - lastAttempt) : Permit i s := by
  refine ⟨h.held, fun hchecked => ?_⟩
  obtain ⟨hpending, hlength⟩ := h.seen hchecked
  refine ⟨hpending, Nat.lt_of_le_of_lt hlength hfew, fun entry hmem => ?_⟩
  have hentry : entry ≤ lastAttempt := hdated hchecked entry hmem
  have hpos : 0 < s.entries.length := List.length_pos_of_mem hmem
  omega

theorem shouldAttempt_triple (hi : Trigger i) :
    Prog.Triple (among cfg i) (Held i) shouldAttempt (Granted i) (Held i) := by
  have hrefused {P : World → Prop} (hP : ∀ s, P s → Held i s) :
      Prog.Triple (among cfg i) P (Prog.pure false : Mgr Bool) (Granted i) (Held i) :=
    .pure fun s hs => ⟨hP s hs, by simp⟩
  refine .bind among_monotone (isStandby_keeps stable_held) fun standby => ?_
  refine .ite (fun _ => hrefused fun _ => id) fun _ => ?_
  refine .bind among_monotone (attempts_triple hi) fun attempts => ?_
  refine .ite (fun _ => hrefused fun _ => Seen.held) fun hmany => ?_
  have hfew : attempts < maxAttempts := Nat.lt_of_not_le hmany
  refine .bind among_monotone ((monotonic_triple stable_seen).conseq among_monotone (fun _ => id)
    (fun _ _ => id) fun _ => Seen.held) fun now => ?_
  refine .bind among_monotone lastAttemptTs_triple fun lastAttempt => .pure ?_
  rintro s ⟨⟨hseen, hnow⟩, hdated⟩
  refine ⟨hseen.held, fun hpermitted => ?_⟩
  exact hseen.permit hnow hdated hfew (by simpa using hpermitted)

/-- The thread of a failover is started on a permission. -/
theorem startThread_triple (skipFence : Bool) : Prog.Triple (among cfg i) (Permit i)
    (Mgr.host (.startThread (.runFailover skipFence))) (fun _ => Held i) (Held i) := by
  refine .perform fun s hs s₁ hrely hinv answer => ?_
  have hstable : (rateContract cfg).Stable i (Permit i) := stable_permit
  obtain ⟨hheld, hdue⟩ := hstable s s₁ hs hrely hinv
  have hends {s₂ : World} (h : Held i s₂) : Prog.ending (fun _ => Held i) (Held i)
      (Prog.answered answer) s₂ := by
    cases answer <;> exact h
  -- the call may raise, and otherwise the new thread has an attempt to account for
  constructor
  · rintro s₂ ⟨-, -, rfl⟩
    exact ⟨hinv, fun j _ => relies_refl j s₂, hends hheld⟩
  · rintro j s₂ child ⟨hallowed, n, skipFence', rfl, hevent, rfl, rfl⟩ -
    obtain ⟨hop, hanswer⟩ := Event.mk.inj hevent
    have hchecked : s₁.checked = true := by
      cases hop
      rw [eq_of_heq hanswer] at hallowed
      exact hallowed
    obtain ⟨hpending, hfew, hapart⟩ := hdue hchecked
    have haccounts := hinv.accounts
    unfold Accounts at haccounts
    rw [hpending] at haccounts ⊢
    refine ⟨⟨⟨hinv.limited.few, hinv.limited.apart⟩, hinv.past, ?_⟩,
      fun l hl _ => ?_, ?_, hends hheld⟩
    · exact ⟨haccounts.1, hfew, hapart⟩
    · refine ⟨Int.le_refl _, id, fun hother => ?_, fun phase hown => ?_⟩
      · have : l = i := Option.some.inj (hother.symm.trans hheld)
        exact absurd this hl
      · rw [hpending] at hown
        cases hown
    · exact ⟨⟨skipFence', rfl⟩, rfl⟩

/-- The check and what it permits. -/
theorem attempt_triple (hi : Trigger i) (skipFence : Bool) : Prog.Triple (among cfg i) (Held i)
    (do
      if ← shouldAttempt then
        Mgr.host (.startThread (.runFailover skipFence))) (fun _ => Held i) (Held i) := by
  refine .bind among_monotone (shouldAttempt_triple hi) fun permitted =>
    .ite (fun hpermitted => ?_) ?_
  · exact (startThread_triple skipFence).conseq among_monotone (fun s hs => hs.2 hpermitted)
      (fun _ _ => id) fun _ => id
  · exact fun _ => .pure fun s hs => hs.1

theorem acquire_triple (blocking : Bool) : Prog.Triple (among cfg i) (Free i)
    (Mgr.host (.acquireFailoverLock blocking))
    (fun locked s => (locked = true ∨ blocking = true → Held i s) ∧ (locked = false → Free i s))
    (Free i) := by
  refine triple_perform stable_free (by simp) fun s answer s' hinv hs hstep => ?_
  obtain ⟨rfl, hblocking, rfl⟩ := hstep
  cases hholder : s.holder with
  | none =>
      refine ⟨⟨⟨hinv.limited.few, hinv.limited.apart⟩, hinv.past, hinv.accounts⟩,
        fun j hj => ?_, ?_⟩
      · refine ⟨Int.le_refl _, fun _ h => hj (Option.some.inj h).symm, fun hother => ?_,
          fun _ h => ⟨h, .inl rfl⟩⟩
        rw [hholder] at hother
        cases hother
      · exact ⟨fun _ => rfl, by simp⟩
  | some k =>
      have hsame : { s with holder := some k } = s := by rw [← hholder]
      rw [Option.getD_some, hsame]
      refine keeping_refl hinv ⟨fun h => ?_, fun _ => hs⟩
      rcases h with h | h
      · cases h
      · have := hblocking h
        rw [hholder] at this
        cases this

theorem release_triple : Prog.Triple (among cfg i) (Held i) (Mgr.host .releaseFailoverLock)
    (fun _ => Free i) (Free i) := by
  refine triple_perform stable_held (by simp) fun s answer s' hinv hs hstep => ?_
  obtain ⟨rfl, rfl⟩ := hstep
  refine ⟨⟨⟨hinv.limited.few, hinv.limited.apart⟩, hinv.past, hinv.accounts⟩, fun j hj => ?_, ?_⟩
  · refine ⟨Int.le_refl _, fun _ h => (by cases h), fun hother => ?_, fun _ h => ⟨h, .inl rfl⟩⟩
    have : j = i := Option.some.inj (hother.symm.trans hs)
    exact absurd this hj
  · exact fun h => by cases h

theorem withFailoverLock_triple {body : Mgr Unit}
    (hbody : Prog.Keeps (among cfg i) (Held i) body) :
    Prog.Keeps (among cfg i) (Free i) (PgHaDaemon.withFailoverLock body) := by
  refine .bind among_monotone (acquire_triple true) fun locked => ?_
  refine .ensuring among_monotone (R := Held i) ?_ release_triple
  exact hbody.conseq among_monotone (fun s hs => hs.1 (.inr rfl)) (fun _ _ => id) fun _ => id

/-! ## The triggers -/

theorem free_of_quiet {program : Mgr α} (hcalls : program.Calls Quiet) :
    Prog.Keeps (among cfg i) (Free i) program := keeps_of_quiet stable_free hcalls

/-- A first part that has nothing to do with the limit. -/
theorem free_bind {program : Mgr α} {next : α → Mgr β} (hcalls : program.Calls Quiet)
    (hnext : ∀ value, Prog.Keeps (among cfg i) (Free i) (next value)) :
    Prog.Keeps (among cfg i) (Free i) (program.bind next) :=
  .bind among_monotone (free_of_quiet hcalls) hnext

theorem isStandby_quiet : LocalNode.isStandby.Calls Quiet := .perform_bind trivial fun _ => trivial

theorem isMaintenance_quiet : (PgHaDaemon.isMaintenance cfg).Calls Quiet :=
  Prog.Calls.perform trivial

theorem handleEvent_keeps (hi : Trigger i) (evt : HaEvent) :
    Prog.Keeps (among cfg i) (Free i) (PgHaDaemon.handleEvent cfg evt) := by
  refine .ite (fun _ => ?_) fun _ => Prog.keeps_pure ()
  refine free_bind isStandby_quiet fun standby => .ite (fun _ => ?_) fun _ => Prog.keeps_pure ()
  refine free_bind isMaintenance_quiet fun maintenance => ?_
  refine .ite (fun _ => Prog.keeps_pure ()) fun _ => ?_
  exact withFailoverLock_triple (attempt_triple hi false)

theorem drainEvents_keeps (hi : Trigger i) (fuel : ℕ) :
    Prog.Keeps (among cfg i) (Free i) (PgHaDaemon.drainEvents cfg fuel) := by
  induction fuel with
  | zero => exact fun _ _ => trivial
  | succ fuel ih =>
      refine free_bind (.attempt (Prog.Calls.perform trivial)) fun result => ?_
      cases result with
      | ok evt => exact .bind among_monotone (handleEvent_keeps hi evt) fun _ => ih
      | error exc => exact .ite (fun _ => Prog.keeps_pure ()) fun _ => Prog.keeps_raise exc

theorem quiet_of_tending {op : Call} (hop : PgHaDaemon.Tending op) : Quiet op := by
  unfold Quiet
  split
  all_goals first | exact hop.elim | cases hop | trivial

theorem heartbeatFallback_keeps (hi : Trigger i) :
    Prog.Keeps (among cfg i) (Free i) (PgHaDaemon.heartbeatFallback cfg) := by
  refine free_bind (Prog.Calls.perform trivial) fun now => ?_
  refine free_bind (Prog.Calls.perform trivial) fun lastDemotion => ?_
  refine free_bind ((PgHaDaemon.fallbackAllowed_tending cfg _).mono fun _ => quiet_of_tending)
    fun allowed => ?_
  refine .ite (fun _ => ?_) fun _ => Prog.keeps_pure ()
  refine free_bind (Prog.Calls.perform trivial) fun peerSnap => ?_
  refine .ite (fun _ => ?_) fun _ => Prog.keeps_pure ()
  refine .bind among_monotone (acquire_triple false) fun locked => .ite (fun hlocked => ?_) ?_
  · refine .ensuring among_monotone (R := Held i) ?_ release_triple
    have hbody : Prog.Keeps (among cfg i) (Held i) (do
        if ← LocalNode.isStandby then
          if ← shouldAttempt then
            Mgr.host (.startThread (.runFailover true))) :=
      .bind among_monotone (isStandby_keeps stable_held) fun standby =>
        .ite (fun _ => attempt_triple hi true) fun _ => Prog.keeps_pure ()
    exact hbody.conseq among_monotone (fun s hs => hs.1 (.inl hlocked)) (fun _ _ => id) fun _ => id
  · exact fun hlocked => .pure fun s hs => hs.2 (by simpa using hlocked)

theorem mainLoopPass_keeps (hi : Trigger i) :
    Prog.Keeps (among cfg i) (Free i) (PgHaDaemon.mainLoopPass cfg) := by
  refine .bind among_monotone (drainEvents_keeps hi _) fun _ => ?_
  exact free_bind ((PgHaDaemon.refreshState_tending cfg).mono fun _ => quiet_of_tending)
    fun _ => heartbeatFallback_keeps hi

theorem reply_keeps (fields : List (String × String)) :
    Prog.Keeps (among cfg i) (Free i) (Mgr.host (.sendReply fields)) :=
  free_of_quiet (Prog.Calls.perform trivial)

theorem handlePgFailHandoff_keeps (hi : Trigger i) :
    Prog.Keeps (among cfg i) (Free i) (PgHaDaemon.handlePgFailHandoff cfg) := by
  refine free_bind (Prog.Calls.perform trivial) fun active => ?_
  refine .ite (fun _ => reply_keeps _) fun _ => free_bind isMaintenance_quiet fun maintenance => ?_
  refine .ite (fun _ => reply_keeps _) fun _ => .bind among_monotone (reply_keeps _) fun _ => ?_
  refine withFailoverLock_triple (.bind among_monotone (isStandby_keeps stable_held) ?_)
  exact fun standby => .ite (fun _ => attempt_triple hi true) fun _ => Prog.keeps_pure ()

theorem dispatchPeer_keeps (hi : Trigger i) (cmd : Option Json) :
    Prog.Keeps (among cfg i) (Free i) (PgHaDaemon.dispatchPeer cfg cmd) := by
  refine .ite (fun _ => free_of_quiet ?_) fun _ => .ite (fun _ => handlePgFailHandoff_keeps hi) ?_
  · exact .perform_bind trivial fun _ => .perform_bind trivial fun _ =>
      Prog.Calls.perform trivial
  refine fun _ => .ite (fun _ => free_of_quiet ?_) fun _ => .ite (fun _ => free_of_quiet ?_) ?_
  · refine .bind (.perform_bind trivial fun _ => .perform_bind trivial fun _ => trivial) ?_
    exact fun _ => Prog.Calls.perform trivial
  · refine .bind (.bind isMaintenance_quiet fun present => .ite ?_ trivial) ?_
    · exact .perform_bind trivial fun _ => trivial
    · exact fun _ => Prog.Calls.perform trivial
  · exact fun _ => reply_keeps _

theorem handlePeerConn_keeps (hi : Trigger i) :
    Prog.Keeps (among cfg i) (Free i) (PgHaDaemon.handlePeerConn cfg) := by
  have hreceive : PgHaDaemon.receiveCommand.Calls Quiet :=
    .perform_bind trivial fun req => .bind (Prog.calls_ofExcept _) fun _ => trivial
  refine free_bind hreceive.attempt fun received => ?_
  cases received with
  | error exc => exact .ite (fun _ => Prog.keeps_pure ()) fun _ => Prog.keeps_raise exc
  | ok received =>
      have hauthenticated : (PgHaDaemon.authenticated cfg received.1).Calls Quiet :=
        .ite trivial (.bind (Prog.calls_ofExcept _) fun token => Prog.calls_ofExcept _)
      refine free_bind hauthenticated fun known => .ite (fun _ => dispatchPeer_keeps hi _) ?_
      exact fun _ => reply_keeps _

end Trigger

/-! ## The thread of a failover -/

section Attempt

variable {n : ℕ}

/-- The thread's attempt is the one that is pending. -/
def Attempting (n : ℕ) (phase : Phase) (s : World) : Prop := s.pending = [(.failover n, phase)]

theorem stable_attempting {phase : Phase} :
    (rateContract cfg).Stable (.failover n) (Attempting n phase) :=
  fun _ _ hs hrely _ => (hrely.own phase hs).1

/-- While an attempt is pending, no other thread relies on the record. -/
theorem relies_of_attempting {phase : Phase} {s s' : World} (hs : Attempting n phase s)
    (hnow : s.now ≤ s'.now) (hholder : s'.holder = s.holder) (hchecked : s'.checked = s.checked)
    (j : Slot) (hj : j ≠ .failover n) : Relies j s s' := by
  refine ⟨hnow, fun h => by rwa [hholder], fun hheld => ⟨hholder.trans hheld, hchecked, ?_⟩, ?_⟩
  · intro hnone
    rw [hs] at hnone
    cases hnone
  · intro other hother
    rw [hs] at hother
    cases hother
    exact absurd rfl hj

/-- `execute` is entered. -/
theorem enter_triple : Prog.Triple (among cfg (.failover n)) (Attempting n .started)
    (Mgr.host (.mark (.enter .failover))) (fun _ => Attempting n .entered) fun _ => False := by
  refine triple_perform stable_attempting (by simp) fun s answer s' hinv hs hstep => ?_
  obtain ⟨rfl, rfl⟩ := hstep
  have hmoved : (s.moveTo (.failover n) .entered).pending = [(.failover n, .entered)] := by
    simp [World.moveTo, show s.pending = _ from hs]
  obtain ⟨hcount, hfew, hdue⟩ : s.entries.length ≤ s.attempts ∧ s.entries.length < maxAttempts ∧
      UpTo s.entries (s.now - retryBackoffMillis) := by
    have haccounts := hinv.accounts
    unfold Accounts at haccounts
    rwa [show s.pending = _ from hs] at haccounts
  refine ⟨⟨⟨hfew, ?_⟩, ?_, ?_⟩, ?_, hmoved⟩
  · refine List.pairwise_cons.mpr ⟨fun entry hmem => ?_, hinv.limited.apart⟩
    have hentry := hdue entry hmem
    omega
  · intro entry hmem
    rcases List.mem_cons.mp hmem with rfl | hold
    · exact Int.le_refl _
    · exact hinv.past entry hold
  · unfold Accounts
    dsimp only
    rw [hmoved]
    exact Nat.succ_le_succ hcount
  · exact relies_of_attempting hs (Int.le_refl _) rfl rfl

/-- The counter has been read by the attempt itself. -/
structure Counting (n attempts : ℕ) (s : World) : Prop where
  attempting : Attempting n .entered s
  enough : s.entries.length ≤ attempts + 1

theorem stable_counting {attempts : ℕ} :
    (rateContract cfg).Stable (.failover n) (Counting n attempts) := by
  intro s s' hs hrely _
  obtain ⟨hpending, hcleared⟩ := hrely.own .entered hs.attempting
  exact ⟨hpending, Nat.le_trans hcleared.length_le hs.enough⟩

theorem count_triple : Prog.Triple (among cfg (.failover n)) (Attempting n .entered)
    (Mgr.host .attempts) (Counting n) fun _ => False := by
  refine triple_perform stable_attempting (by simp) fun s answer s' hinv hs hstep => ?_
  have hpending : s.pending = [(.failover n, .entered)] := hs
  have haccounts := hinv.accounts
  unfold Accounts at haccounts
  rw [hpending] at haccounts
  obtain ⟨rfl, rfl⟩ := hstep
  exact keeping_refl hinv ⟨hs, haccounts⟩

theorem setAttempts_triple (attempts : ℕ) :
    Prog.Triple (among cfg (.failover n)) (Counting n attempts)
      (Mgr.host (.setAttempts (attempts + 1))) (fun _ => Attempting n .counted) fun _ => False := by
  refine triple_perform stable_counting (by simp) fun s answer s' hinv hs hstep => ?_
  obtain ⟨rfl, hs'⟩ := hstep
  rw [World.counting, if_neg (Nat.succ_ne_zero attempts)] at hs'
  subst hs'
  have hmoved : (s.moveTo (.failover n) .counted).pending = [(.failover n, .counted)] := by
    simp [World.moveTo, show s.pending = _ from hs.attempting]
  refine ⟨⟨⟨hinv.limited.few, hinv.limited.apart⟩, hinv.past, ?_⟩, ?_, hmoved⟩
  · unfold Accounts
    dsimp only
    rw [hmoved]
    exact hs.enough
  · exact relies_of_attempting hs.attempting (Int.le_refl _) rfl rfl

/-- The clock has been read for the record. -/
structure Timed (n : ℕ) (now : Int) (s : World) : Prop where
  attempting : Attempting n .counted s
  past : UpTo s.entries now

theorem stable_timed {now : Int} : (rateContract cfg).Stable (.failover n) (Timed n now) := by
  intro s s' hs hrely _
  obtain ⟨hpending, hcleared⟩ := hrely.own .counted hs.attempting
  exact ⟨hpending, hcleared.upTo hs.past⟩

theorem clock_triple : Prog.Triple (among cfg (.failover n)) (Attempting n .counted)
    (Mgr.host .monotonic) (Timed n) fun _ => False := by
  refine triple_perform stable_attempting (by simp) fun s answer s' hinv hs hstep => ?_
  obtain ⟨rfl, rfl⟩ := hstep
  exact keeping_refl hinv ⟨hs, hinv.past⟩

/-- The attempt is recorded. -/
theorem record_triple (now : Int) : Prog.Triple (among cfg (.failover n)) (Timed n now)
    (Mgr.host (.setLastAttemptTs now)) (fun _ _ => True) fun _ => False := by
  refine triple_perform stable_timed (by simp) fun s answer s' hinv hs hstep => ?_
  obtain ⟨rfl, rfl⟩ := hstep
  have hcount : s.entries.length ≤ s.attempts := by
    have haccounts := hinv.accounts
    unfold Accounts at haccounts
    rwa [show s.pending = _ from hs.attempting] at haccounts
  have hnone : s.pending.filter (·.1 ≠ .failover n) = [] := by
    simp [show s.pending = _ from hs.attempting]
  refine ⟨⟨⟨hinv.limited.few, hinv.limited.apart⟩, hinv.past, ?_⟩, ?_, trivial⟩
  · unfold Accounts
    dsimp only
    rw [hnone]
    exact ⟨hcount, hs.past⟩
  · exact relies_of_attempting hs.attempting (Int.le_refl _) rfl rfl

/-- The operations of an attempt that has been recorded. -/
def Spent : Call → Prop
  | .host .attempts => True
  | .host (.setAttempts attempts) => attempts = 0
  | op => Quiet op

theorem spent_cases {op : Call} (hop : Spent op) :
    op = .host .attempts ∨ op = .host (.setAttempts 0) ∨ Quiet op := by
  unfold Spent at hop
  split at hop
  · exact .inl rfl
  · subst hop
    exact .inr (.inl rfl)
  · exact .inr (.inr hop)

theorem spent_of_working {op : Call} (hop : op.working) : Spent op := by
  unfold Spent
  split
  · trivial
  · exact hop.elim
  · unfold Quiet
    split <;> first | exact hop.elim | trivial

/-- A success only ever takes entries away. -/
theorem keeping_success {s : World} (hinv : Inv s) (j : Slot) :
    Inv { s with attempts := 0, entries := [] } ∧
      Relies j s { s with attempts := 0, entries := [] } := by
  have hnone (time : Int) : UpTo [] time := fun _ hmem => absurd hmem List.not_mem_nil
  refine ⟨⟨⟨Nat.zero_le _, List.Pairwise.nil⟩, hnone _, ?_⟩, Int.le_refl _, id, ?_, ?_⟩
  · have haccounts := hinv.accounts
    unfold Accounts at haccounts ⊢
    dsimp only
    split <;> simp_all [maxAttempts]
  · exact fun hheld => ⟨hheld, rfl, fun hpending => ⟨hpending, rfl, .inr rfl⟩⟩
  · exact fun phase hpending => ⟨hpending, .inr rfl⟩

theorem spent_keeps {program : Mgr α} (hcalls : program.Calls Spent) :
    Prog.Keeps (among cfg (.failover n)) (fun _ => True) program := by
  refine Contract.keeps_of_step Contract.stable_true ?_ ?_ hcalls
  · rintro op hspent j s answer s' child ⟨-, m, skipFence, -, hevent, -⟩
    obtain ⟨rfl, -⟩ := Event.mk.inj hevent
    exact hspent
  · intro s event s' hspent hinv _ h
    obtain ⟨op, answer⟩ := event
    rcases spent_cases hspent with rfl | rfl | hquiet
    · obtain ⟨-, rfl⟩ : answer = .ok s.attempts ∧ s' = s := h.2
      exact keeping_refl hinv trivial
    · obtain ⟨-, rfl⟩ : answer = .ok () ∧ s' = { s with attempts := 0, entries := [] } := h.2
      exact ⟨(keeping_success hinv (.failover n)).1, fun j _ => (keeping_success hinv j).2, trivial⟩
    · obtain rfl := eq_of_quiet hquiet h.2
      exact keeping_refl hinv trivial

theorem execute_triple (skipFence : Bool) : Prog.Triple (among cfg (.failover n))
    (Attempting n .started) (execute cfg skipFence) (fun _ _ => True) fun _ => True := by
  have hany {γ : Type} {P : World → Prop} {op : Call} {Q : op.Ret → World → Prop}
      {next : op.Ret → Mgr γ}
      (h : Prog.Triple (among cfg (.failover n)) P (Prog.perform op) Q fun _ => False)
      (hnext : ∀ value, Prog.Triple (among cfg (.failover n)) (Q value) (next value)
        (fun _ _ => True) fun _ => True) :
      Prog.Triple (among cfg (.failover n)) P ((Prog.perform op).bind next) (fun _ _ => True)
        fun _ => True :=
    .bind among_monotone (h.conseq among_monotone (fun _ => id) (fun _ _ => id)
      fun _ => False.elim) hnext
  have hemit (eventType : HaEventType) (message : String) :
      (emit cfg eventType message).Calls Spent := emit_calls (fun _ => trivial) _ _
  have hsteps : (runSteps cfg skipFence (steps cfg)).Calls Spent :=
    runSteps_calls cfg (fun _ => trivial) (fun _ => trivial) (fun _ => trivial) skipFence
      fun step hstep => (steps_working cfg step hstep).mono fun _ => spent_of_working
  refine hany enter_triple fun _ => .ensuring among_monotone (R := fun _ => True) ?_ ?_
  · refine hany count_triple fun attempts => hany (setAttempts_triple attempts) fun _ => ?_
    refine hany clock_triple fun now => hany (record_triple now) fun _ => spent_keeps ?_
    refine .perform_bind trivial fun current => .bind (hemit _ _) fun _ => .bind hsteps ?_
    exact fun succeeded => .ite
      (.perform_bind rfl fun _ => .bind (hemit _ _) fun _ => trivial) trivial
  · exact spent_keeps (Prog.Calls.perform trivial)

theorem runFailover_triple (skipFence : Bool) : Prog.Triple (among cfg (.failover n))
    (Attempting n .started) (PgHaDaemon.runFailover cfg skipFence) (fun _ _ => True)
    fun _ => True := by
  refine .bind among_monotone (execute_triple skipFence) fun succeeded => spent_keeps ?_
  exact .ite (PgHaDaemon.efmStart_calls cfg fun _ => trivial) trivial

end Attempt

/-! ## All threads -/

theorem safe_of_trigger {program : Mgr Unit} {s : World} (hi : Trigger i)
    (h : Prog.Keeps (among cfg i) (Free i) program) (hs : Free i s) :
    (rateContract cfg).Safe i program s := by
  apply Prog.wp_mono among_monotone _ (h s hs)
  intro outcome s' hend
  cases i with
  | failover n => exact absurd rfl (hi n)
  | _ =>
      intro hended
      cases outcome with
      | stuck => exact absurd rfl hended
      | _ => exact hend

theorem rateContract_holds : (rateContract cfg).Holds where
  start i program s _ hstart := by
    cases i with
    | mainLoop =>
        obtain ⟨rfl, hfree⟩ := hstart
        exact safe_of_trigger (by simp [Trigger]) (mainLoopPass_keeps (by simp [Trigger])) hfree
    | handler n =>
        obtain ⟨rfl, hfree⟩ := hstart
        exact safe_of_trigger (by simp [Trigger]) (handlePeerConn_keeps (by simp [Trigger])) hfree
    | failover n =>
        obtain ⟨⟨skipFence, rfl⟩, hpending⟩ := hstart
        exact Prog.wp_mono among_monotone (fun _ _ _ => trivial)
          (runFailover_triple skipFence s hpending)
  arrive i s program s' hinv harrive hended := by
    obtain ⟨rfl, hcase⟩ := harrive
    obtain ⟨outcome, hnot, hpost⟩ := hended
    refine ⟨hinv, fun j _ => relies_refl j s', ?_⟩
    rcases hcase with ⟨rfl, rfl⟩ | ⟨n, rfl, rfl⟩
    · exact ⟨rfl, hpost hnot⟩
    · exact ⟨rfl, hpost hnot⟩
  env s s' hinv henv := by
    obtain ⟨now, hnow, rfl⟩ := henv
    refine ⟨⟨⟨hinv.limited.few, hinv.limited.apart⟩, fun entry hmem => ?_, ?_⟩, fun i => ?_⟩
    · exact Int.le_trans (hinv.past entry hmem) hnow
    -- the clock goes on, so whatever was due still is
    · have haccounts := hinv.accounts
      unfold Accounts at haccounts ⊢
      dsimp only
      split <;> simp_all
      · refine fun entry hmem => ?_
        have hentry := haccounts.2.2 entry hmem
        omega
    · exact ⟨hnow, id, fun h => ⟨h, rfl, fun h => ⟨h, rfl, .inl rfl⟩⟩, fun _ h => ⟨h, .inl rfl⟩⟩

theorem sound_of_begin (now : Int) : (rateContract cfg).Sound (begin now) := by
  refine ⟨⟨⟨Nat.zero_le _, .nil⟩, fun _ hmem => absurd hmem List.not_mem_nil, ?_⟩, fun i => ?_⟩
  · exact ⟨Nat.le_refl _, fun _ hmem => absurd hmem List.not_mem_nil⟩
  · cases i with
    | failover n => exact trivial
    | _ => exact fun _ h => by cases h

/-- **The rate limit.**  In every run in which failovers are started on a counter that was
read when all attempts were recorded, the limit holds in every state. -/
theorem rateLimited (cfg : Config) : RateLimited (orderly cfg) :=
  fun now _ hreach => (rateContract_holds.reach hreach (sound_of_begin now)).1.limited

/-! ## Sample runs -/

section Sample

/-- Every operation succeeds, and whoever connects hands the database over. -/
def obey (slot : Slot) : (op : Call) → World → Except Exc op.Ret × World
  | .disk call, s => (call.reply, s)
  | .net _, s => (.ok (), s)
  | .host call, s =>
      let node : DaemonState := ⟨{ name := "", role := .standby }, 0, 0, "UNKNOWN", false, false, 0⟩
      match call with
      | .attempts => (.ok s.attempts, s.reading slot)
      | .setAttempts attempts => (.ok (), s.counting slot attempts)
      | .lastAttemptTs => (.ok s.lastAttemptTs, s)
      | .setLastAttemptTs ts => (.ok (), { s with
          lastAttemptTs := ts
          pending := s.pending.filter (·.1 ≠ slot) })
      | .monotonic => (.ok s.now, s)
      | .mark (.enter .failover) =>
          (.ok (), { s.moveTo slot .entered with entries := s.now :: s.entries })
      | .acquireFailoverLock _ =>
          (.ok s.holder.isNone, { s with holder := some (s.holder.getD slot) })
      | .releaseFailoverLock => (.ok (), { s with holder := none })
      | .startThread (.runFailover _) => (.error ⟨.runtimeError, "can't start new thread"⟩, s)
      | .recvCommand => (.ok (.obj [("cmd", .str "PG_FAIL_HANDOFF")]), s)
      | call => (node.reply call, s)

/-- A thread waits for the lock, and a thread is not started by an operation of its own. -/
def waits : Call → World → Bool
  | .host (.acquireFailoverLock _), s => s.holder.isSome
  | .host (.startThread _), _ => true
  | _, _ => false

theorem orderly_obey (slot : Slot) (s : World) (op : Call) (h : waits op s = false) :
    Orderly slot s ⟨op, (obey slot op s).1⟩ ∧
      rateStep slot s ⟨op, (obey slot op s).1⟩ (obey slot op s).2 := by
  cases op with
  | disk call => exact ⟨trivial, rfl⟩
  | net call => exact ⟨trivial, rfl⟩
  | host call =>
      cases call
      case acquireFailoverLock blocking =>
        have hnone : s.holder = none := by simpa [waits] using h
        exact ⟨trivial, rfl, fun _ => hnone, rfl⟩
      case startThread task => cases h
      case mark mark =>
        cases mark
        case enter sequence =>
          cases sequence <;> first | exact ⟨trivial, rfl⟩ | exact ⟨trivial, rfl, rfl⟩
        all_goals exact ⟨trivial, rfl⟩
      all_goals first | exact ⟨trivial, rfl⟩ | exact ⟨trivial, rfl, rfl⟩

/-- The handler of a connection is about to start a failover. -/
def permitted (n : ℕ) (state : State) : State :=
  (state.arrived (.handler n) state.shared
    (PgHaDaemon.handlePeerConn .sampleStandby)).advance (obey (.handler n)) waits (.handler n) 100

/-- It has started the failover, and has ended. -/
def handedOff (n : ℕ) (state : State) : State :=
  ((permitted n state).forked (.handler n) (.failover n)
    (.host (.startThread (.runFailover true))) (.ok ())
    { (permitted n state).shared with
      pending := (.failover n, .started) :: (permitted n state).shared.pending }
    (PgHaDaemon.runFailover .sampleStandby true)).advance (obey (.handler n)) waits (.handler n) 100

/-- The thread of the failover has entered it. -/
def entered (n : ℕ) (state : State) : State :=
  state.advance (obey (.failover n)) waits (.failover n) 1

section

variable {allowed : Slot → World → Event Call.Ret Exc → Prop} {start state : State} {n : ℕ}

/-- The runs of the sample standby in which a condition is met. -/
abbrev sampleRuns (allowed : Slot → World → Event Call.Ret Exc → Prop) :
    System Slot Call.Ret Exc Unit World :=
  (rateSystem .sampleStandby).restrict allowed

/-- The condition lets the threads obey. -/
def Lenient (allowed : Slot → World → Event Call.Ret Exc → Prop) : Prop :=
  ∀ slot s op, waits op s = false → allowed slot s ⟨op, (obey slot op s).1⟩

theorem Lenient.reach_advance (hallowed : Lenient allowed) {slot : Slot} {count : ℕ}
    (h : (sampleRuns allowed).Reach start state) :
    (sampleRuns allowed).Reach start (state.advance (obey slot) waits slot count) :=
  h.advance (fun s op hop => ⟨hallowed slot s op hop, (orderly_obey slot s op hop).2⟩) count

theorem Lenient.reach_permitted (hallowed : Lenient allowed)
    (h : (sampleRuns allowed).Reach start state) (hidle : (state.prog (.handler n)).Finished) :
    (sampleRuns allowed).Reach start (permitted n state) :=
  hallowed.reach_advance (h.arrive ⟨rfl, .inr ⟨n, rfl, rfl⟩⟩ hidle)

theorem Lenient.reach_handedOff (hallowed : Lenient allowed)
    (h : (sampleRuns allowed).Reach start (permitted n state))
    (hstart : allowed (.handler n) (permitted n state).shared
      ⟨.host (.startThread (.runFailover true)), .ok ()⟩)
    (hhead : ((permitted n state).prog (.handler n)).head? =
      some (.host (.startThread (.runFailover true))))
    (hidle : ((permitted n state).prog (.failover n)).Finished) :
    (sampleRuns allowed).Reach start (handedOff n state) :=
  hallowed.reach_advance (h.fork hhead ⟨hstart, n, true, rfl, rfl, rfl, rfl⟩ (by simp) hidle)

end

/-- A peer hands over once. -/
theorem reach_first {allowed : Slot → World → Event Call.Ret Exc → Prop}
    (hallowed : Lenient allowed) (hstart : allowed (.handler 0) (permitted 0 (begin 1000000)).shared
      ⟨.host (.startThread (.runFailover true)), .ok ()⟩) :
    (sampleRuns allowed).Reach (begin 1000000) (handedOff 0 (begin 1000000)) := by
  have hpermitted : (sampleRuns allowed).Reach (begin 1000000) (permitted 0 (begin 1000000)) :=
    hallowed.reach_permitted .refl trivial
  have hidle : ((permitted 0 (begin 1000000)).prog (.failover 0)).Finished := trivial
  exact hallowed.reach_handedOff hpermitted hstart (by decide) hidle

/-- The failover is entered. -/
theorem rateLimited_first : ∃ state, (orderly .sampleStandby).Reach (begin 1000000) state ∧
    state.shared.entries = [1000000] ∧ state.shared.entries.length ≤ maxAttempts := by
  have hlenient : Lenient Orderly := fun slot s op hop => (orderly_obey slot s op hop).1
  have hchecked : (permitted 0 (begin 1000000)).shared.checked = true := by decide
  have hreach : (orderly .sampleStandby).Reach (begin 1000000)
      (entered 0 (handedOff 0 (begin 1000000))) :=
    hlenient.reach_advance (reach_first hlenient hchecked)
  exact ⟨_, hreach, by decide, (rateLimited .sampleStandby _ _ hreach).few⟩

/-- A peer hands over twice, and the second check comes before the first thread has
recorded its attempt: both are entered at the same time. -/
theorem not_rateLimited : ¬ RateLimited (rateSystem .sampleStandby) := by
  intro h
  have hlenient : Lenient fun _ _ _ => True := fun _ _ _ _ => trivial
  have hfirst := reach_first hlenient trivial
  have hfinished : ((handedOff 0 (begin 1000000)).prog (.handler 1)).Finished := trivial
  have hpermitted := hlenient.reach_permitted hfirst hfinished
  have hidle : ((permitted 1 (handedOff 0 (begin 1000000))).prog (.failover 1)).Finished := trivial
  have hsecond := hlenient.reach_handedOff hpermitted trivial (by decide) hidle
  have hentered : (sampleRuns fun _ _ _ => True).Reach (begin 1000000)
      (entered 1 (entered 0 (handedOff 1 (handedOff 0 (begin 1000000))))) :=
    hlenient.reach_advance (hlenient.reach_advance hsecond)
  have hentries : (entered 1 (entered 0 (handedOff 1 (handedOff 0 (begin 1000000))))).shared.entries
      = [1000000, 1000000] := by
    decide
  have hapart := (h _ _ hentered.unrestrict).apart
  rw [hentries] at hapart
  exact absurd hapart (by decide)

end Sample

end PgHa.RateLimit

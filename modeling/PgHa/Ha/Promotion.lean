import PgHa.Ha.Failover
import PgHa.Model.Host

/-!
# Automatic failover is gated and ordered

The steps of `execute` are programs of their own, and the log of a run is what their operations
have answered.  `Succeeded` and `Failed` read off a log whether a step has succeeded, and why it
has failed; `StepRun` says that a step which returns has succeeded, and that one which raises
has failed.  A loop over steps keeps them in order (`InOrder`): an operation is performed only
after every earlier step has succeeded, and never after one of a later step.

At the end the parts are put together.  With fencing, the verification comes first, so
that nothing is taken over before it; the promotion comes last, so that a run has promoted the
node exactly when all steps have succeeded; and a run that returns False names a step which
was reached and has failed.
-/

namespace PgHa.FailoverEngine

open Effect DaemonState

variable {cfg : Config}

/-- The events of a run of the failover engine. -/
abbrev Log := List (Event Call.Ret Exc)

/-- The step that an operation belongs to. -/
def stepOf : Call → Option StepName
  | .disk (.getInstanceStatus ..) => some .verify
  | .host (.createConnection ..) => some .verify
  | .disk .forceDetachFromPeer => some .fence
  | .disk .attachDiskRw => some .attach
  | .disk .mountDisk => some .mount
  | .disk .startPostgres => some .pgStart
  | .net .acquireVip => some .vip
  | .host (.setRole _) => some .promote
  | _ => none

/-- An operation of the managers. -/
def managed : Call → Bool
  | .disk _ | .net _ => true
  | .host _ => false

/-- The operations that a step may perform. -/
def allowedIn (name : StepName) (op : Call) : Prop :=
  stepOf op = some name ∨ stepOf op = none ∧ managed op = false

/-- The peer is down, or its database does not answer, as far as the log shows. -/
def Verified (cfg : Config) (log : Log) : Prop :=
  ∃ status, (⟨.disk (.getInstanceStatus cfg.cluster.peerNode cfg.peerZone), .ok status⟩ :
      Event Call.Ret Exc) ∈ log ∧ status ≠ "UNKNOWN" ∧
    (instanceDown status = true ∨ ∃ exc, exc.isOSError = true ∧
      (⟨.host (.createConnection cfg.cluster.peerIp cfg.postgresql.port 2000), .error exc⟩ :
        Event Call.Ret Exc) ∈ log)

def Returned (op : Call) (log : Log) : Prop := ∃ value, (⟨op, .ok value⟩ : Event Call.Ret Exc) ∈ log

/-- What it means that a step has succeeded. -/
def Succeeded (cfg : Config) : StepName → Log → Prop
  | .verify, log => Verified cfg log
  | .fence, log => Returned (.disk .forceDetachFromPeer) log
  | .wait, log => Returned (.host (.sleep cfg.cluster.fenceWait)) log
  | .attach, log => Returned (.disk .attachDiskRw) log
  | .mount, log => Returned (.disk .mountDisk) log
  | .pgStart, log => Returned (.disk .startPostgres) log
  | .vip, log => Returned (.net .acquireVip) log
  | .promote, log => Returned (.host (.setRole .primary)) log
  | _, _ => False

def effect : StepName → NodeState → NodeState
  | .attach, node => { node with diskState := .attachedRw }
  | .pgStart, node => { node with pgState := .runningPrimary }
  | .promote, node => { node with role := .primary, health := .healthy }
  | _, node => node

/-- The operation has raised. -/
def Raised (op : Call) (log : Log) : Prop := ∃ exc, (⟨op, .error exc⟩ : Event Call.Ret Exc) ∈ log

/-- The event is a failed attempt at the operation. -/
def isFailure (op : Call) (event : Event Call.Ret Exc) : Bool :=
  event.op == op && !event.answer.toBool

/-- An operation that is tried again after some exceptions has raised another one, or has raised
in every attempt at it. -/
def RaisedForGood (op : Call) (again : Exc → Prop) (attempts : ℕ) (log : Log) : Prop :=
  (∃ exc, (⟨op, .error exc⟩ : Event Call.Ret Exc) ∈ log ∧ ¬ again exc) ∨
    attempts ≤ log.countP (isFailure op)

/-- The verification has found that the peer must not be taken over, or has found nothing out. -/
def Refuted (cfg : Config) (log : Log) : Prop :=
  Raised (.disk (.getInstanceStatus cfg.cluster.peerNode cfg.peerZone)) log ∨
  ∃ status, (⟨.disk (.getInstanceStatus cfg.cluster.peerNode cfg.peerZone), .ok status⟩ :
      Event Call.Ret Exc) ∈ log ∧ (status = "UNKNOWN" ∨ instanceDown status = false ∧
    ∃ answer, (⟨.host (.createConnection cfg.cluster.peerIp cfg.postgresql.port 2000), answer⟩ :
        Event Call.Ret Exc) ∈ log ∧ ∀ exc, answer = .error exc → exc.isOSError = false)

/-- The attempts at the attach have failed, or the wait before another one has. -/
def AttachFailed (attempts : ℕ) (log : Log) : Prop :=
  RaisedForGood (.disk .attachDiskRw)
      (fun exc => exc.isRuntimeError = true ∧ resourceInUse exc = true) attempts log ∨
    ∃ backoff, Raised (.host (.sleep backoff)) log

/-- The attempts at the start have failed, or what is done before another one has. -/
def PgStartFailed (attempts : ℕ) (log : Log) : Prop :=
  RaisedForGood (.disk .startPostgres) (fun exc => exc.isRuntimeError = true) attempts log ∨
    Raised (.host (.sleep 3000)) log ∨ ∃ path, Raised (.host (.pathExists path)) log ∨
      ∃ exc, (⟨.host (.remove path), .error exc⟩ : Event Call.Ret Exc) ∈ log ∧
        exc.isOSError = false

/-- What it means that a step has failed. -/
def Failed (cfg : Config) : StepName → Log → Prop
  | .verify, log => Refuted cfg log
  | .fence, log => Raised (.disk .forceDetachFromPeer) log
  | .wait, log => Raised (.host (.sleep cfg.cluster.fenceWait)) log
  | .attach, log => AttachFailed 5 log
  | .mount, log => Raised (.disk .mountDisk) log
  | .pgStart, log => PgStartFailed 3 log
  | .vip, log => Raised (.net .acquireVip) log
  | _, _ => False

/-- A run of one step. -/
structure StepRun (cfg : Config) (name : StepName) (failed : Log → Prop) (s : DaemonState)
    (outcome : Outcome Exc Unit) (log : Log) (s' : DaemonState) : Prop where
  returned : ∀ value, outcome = .returned value →
    Succeeded cfg name log ∧ s'.node = effect name s.node
  raised : ∀ exc, outcome = .raised exc → s'.node = s.node ∧ name ≠ .promote ∧ failed log
  finishes : outcome ≠ .stuck

section Failed

variable {log log' : Log} (hsub : log.Sublist log')

include hsub

theorem Raised.mono {op : Call} (h : Raised op log) : Raised op log' :=
  h.imp fun _ => hsub.mem

theorem RaisedForGood.mono {op : Call} {again : Exc → Prop} {attempts : ℕ}
    (h : RaisedForGood op again attempts log) : RaisedForGood op again attempts log' :=
  h.imp (fun ⟨exc, hmem, hexc⟩ => ⟨exc, hsub.mem hmem, hexc⟩) fun h => Nat.le_trans h hsub.countP_le

theorem AttachFailed.mono {attempts : ℕ} (h : AttachFailed attempts log) :
    AttachFailed attempts log' :=
  h.imp (·.mono hsub) fun ⟨backoff, h⟩ => ⟨backoff, h.mono hsub⟩

theorem PgStartFailed.mono {attempts : ℕ} (h : PgStartFailed attempts log) :
    PgStartFailed attempts log' :=
  h.imp (·.mono hsub) fun h => h.imp (·.mono hsub) fun ⟨path, h⟩ => ⟨path,
    h.imp (·.mono hsub) fun ⟨exc, hmem, hexc⟩ => ⟨exc, hsub.mem hmem, hexc⟩⟩

theorem Failed.mono {name : StepName} (h : Failed cfg name log) : Failed cfg name log' := by
  cases name with
  | verify =>
      refine h.imp (·.mono hsub) ?_
      rintro ⟨status, hmem, hcase⟩
      refine ⟨status, hsub.mem hmem, hcase.imp_right ?_⟩
      rintro ⟨hup, answer, hprobe, hanswer⟩
      exact ⟨hup, answer, hsub.mem hprobe, hanswer⟩
  | attach => exact AttachFailed.mono hsub h
  | pgStart => exact PgStartFailed.mono hsub h
  | fence | wait | mount | vip => exact Raised.mono hsub h
  | _ => exact h

end Failed

/-- One more attempt has failed. -/
theorem RaisedForGood.succ {op : Call} {again : Exc → Prop} {attempts : ℕ} {first rest : Log}
    {exc : Exc} (hfirst : (⟨op, .error exc⟩ : Event Call.Ret Exc) ∈ first)
    (h : RaisedForGood op again attempts rest) :
    RaisedForGood op again (attempts + 1) (first ++ rest) := by
  rcases h with ⟨exc', hmem, hexc⟩ | hcount
  · exact .inl ⟨exc', List.mem_append_right _ hmem, hexc⟩
  · have hone : 0 < first.countP (isFailure op) :=
      List.countP_pos_iff.mpr ⟨_, hfirst, by simp [isFailure, Except.toBool]⟩
    refine .inr ?_
    rw [List.countP_append]
    omega

theorem Succeeded.mono {name : StepName} {log log' : Log} (h : Succeeded cfg name log)
    (hsub : log ⊆ log') : Succeeded cfg name log' := by
  cases name <;> simp only [Succeeded] at h ⊢
  case verify =>
    obtain ⟨status, hmem, hknown, hdown | ⟨exc, hos, hprobe⟩⟩ := h
    · exact ⟨status, hsub hmem, hknown, .inl hdown⟩
    · exact ⟨status, hsub hmem, hknown, .inr ⟨exc, hos, hsub hprobe⟩⟩
  all_goals
    obtain ⟨value, hmem⟩ := h
    exact ⟨value, hsub hmem⟩

theorem StepRun.prepend {name : StepName} {failed failed' : Log → Prop} {s s' : DaemonState}
    {outcome : Outcome Exc Unit} {log : Log} (h : StepRun cfg name failed s outcome log s')
    (past : Log) (hfailed : failed log → failed' (past ++ log)) :
    StepRun cfg name failed' s outcome (past ++ log) s' where
  returned value hvalue :=
    ⟨(h.returned value hvalue).1.mono (List.subset_append_right past log),
      (h.returned value hvalue).2⟩
  raised exc hexc := (h.raised exc hexc).imp_right fun h => h.imp_right hfailed
  finishes := h.finishes

theorem StepRun.ofReturned {name : StepName} {failed : Log → Prop} {s s' : DaemonState}
    {log : Log} (hsucc : Succeeded cfg name log) (hnode : s'.node = effect name s.node) :
    StepRun cfg name failed s (.returned ()) log s' where
  returned _ _ := ⟨hsucc, hnode⟩
  raised _ h := by cases h
  finishes := by simp

theorem StepRun.ofRaised {name : StepName} {failed : Log → Prop} {s s' : DaemonState} {exc : Exc}
    {log : Log} (hnode : s'.node = s.node) (hname : name ≠ .promote) (hfailed : failed log) :
    StepRun cfg name failed s (.raised exc) log s' where
  returned _ h := by cases h
  raised _ _ := ⟨hnode, hname, hfailed⟩
  finishes := by simp

theorem emit_spec (eventType : HaEventType) (message : String) :
    Spec alone (emit cfg eventType message)
      fun s outcome _ s' => s' = s ∧ outcome = .returned () := by
  refine Spec.of_wp fun s => ?_
  simp only [emit, Prog.wp_except, Prog.wp_perform, alone_host]
  rintro (exc | value) h
  · simp [show exc.cls = .queueFull from h exc rfl]
  · simp

theorem stepVerify_spec :
    Spec alone (stepVerifyPeerState cfg) (StepRun cfg .verify (Failed cfg .verify)) := by
  refine Spec.of_wp fun s => ?_
  simp only [stepVerifyPeerState, isPeerPgReachable, Prog.bind_eq, Prog.wp_bind, Prog.wp_perform,
    alone_disk]
  rintro (exc | status)
  · exact .ofRaised rfl (by decide) (.inl ⟨exc, by simp⟩)
  · simp
    split_ifs with hunknown hdown
    · exact .ofRaised rfl (by decide) (.inr ⟨status, by simp, .inl hunknown⟩)
    · exact .ofReturned (by simp [Succeeded, Verified, hunknown, hdown]) rfl
    · have hup : instanceDown status = false := by simpa using hdown
      rintro (exc | value)
      · by_cases hos : exc.isOSError = true
        · simp [hos]
          exact .ofReturned (by simp [Succeeded, Verified, hunknown, hos]) rfl
        · simp [hos]
          refine .ofRaised rfl (by decide)
            (.inr ⟨status, by simp, .inr ⟨hup, .error exc, by simp, ?_⟩⟩)
          rintro _ ⟨⟩
          simpa using hos
      · simp
        exact .ofRaised rfl (by decide)
          (.inr ⟨status, by simp, .inr ⟨hup, .ok value, by simp, by simp⟩⟩)

theorem stepFence_spec : Spec alone (stepFence cfg) (StepRun cfg .fence (Failed cfg .fence)) := by
  refine Spec.of_wp fun s => ?_
  simp [stepFence]
  rintro (exc | value)
  · exact .ofRaised rfl (by decide) ⟨exc, by simp⟩
  · refine (emit_spec _ _).wp ?_
    rintro outcome log s' ⟨rfl, rfl⟩
    exact .ofReturned (by simp [Succeeded, Returned]) rfl

theorem stepFenceWait_spec :
    Spec alone (stepFenceWait cfg) (StepRun cfg .wait (Failed cfg .wait)) := by
  refine Spec.of_wp fun s => ?_
  simp [stepFenceWait]
  rintro (exc | value)
  · exact .ofRaised rfl (by decide) ⟨exc, by simp⟩
  · exact .ofReturned (by simp [Succeeded, Returned]) rfl

theorem attachFrom_spec (backoff : Int) (left : ℕ) (hleft : left ≠ 0) :
    Spec alone (attachFrom cfg backoff left) (StepRun cfg .attach (AttachFailed left)) := by
  induction left generalizing backoff with
  | zero => exact absurd rfl hleft
  | succ left ih =>
      refine Spec.of_wp fun s => ?_
      simp [attachFrom]
      rintro (exc | value)
      · simp
        split_ifs with hretry
        · rintro (exc' | value)
          · exact .ofRaised rfl (by decide) (.inr ⟨backoff, exc', by simp⟩)
          · refine (ih _ hretry.2.1).wp ?_
            rintro outcome log s' hrun
            refine hrun.prepend _ fun hfailed => ?_
            rcases hfailed with hattempts | ⟨backoff', hsleep⟩
            · exact .inl (hattempts.succ (List.mem_cons_self ..))
            · exact .inr ⟨backoff', hsleep.mono (List.sublist_append_right ..)⟩
        · refine .ofRaised rfl (by decide) (.inl ?_)
          by_cases hlast : left = 0
          · -- this was the last attempt
            exact .inr (by simp [hlast, isFailure, Except.toBool])
          · exact .inl ⟨exc, by simp, fun hagain => hretry ⟨hagain.1, hlast, hagain.2⟩⟩
      · simp
        refine (emit_spec _ _).wp ?_
        rintro outcome log s' ⟨rfl, rfl⟩
        exact .ofReturned (by simp [Succeeded, Returned]) rfl

theorem removeStalePidFile_spec :
    Spec alone (removeStalePidFile cfg) fun s outcome log s' => s' = s ∧ outcome ≠ .stuck ∧
      ∀ exc, outcome = .raised exc → ∃ path, Raised (.host (.pathExists path)) log ∨
        ∃ exc, (⟨.host (.remove path), .error exc⟩ : Event Call.Ret Exc) ∈ log ∧
          exc.isOSError = false := by
  refine Spec.of_wp fun s => ?_
  simp only [removeStalePidFile, Prog.bind_eq, Prog.wp_bind, Prog.wp_perform, alone_host]
  rintro (exc | (_ | _)) -
  · simp
    exact ⟨_, exc, List.mem_singleton_self _⟩
  · simp
  · simp
    rintro (exc | value)
    · by_cases hos : exc.isOSError = true
      · simp [hos]
      · simp [hos]
    · simp

theorem startPostgresFrom_spec (left : ℕ) (hleft : left ≠ 0) :
    Spec alone (startPostgresFrom cfg left) (StepRun cfg .pgStart (PgStartFailed left)) := by
  induction left with
  | zero => exact absurd rfl hleft
  | succ left ih =>
      refine Spec.of_wp fun s => ?_
      simp [startPostgresFrom]
      rintro (exc | value)
      · simp
        split_ifs with hretry
        · refine removeStalePidFile_spec.wp ?_
          rintro (value | exc' | _) log s' ⟨rfl, hfinishes, hpid⟩
          · simp
            rintro (exc' | value)
            · exact .ofRaised rfl (by decide) (.inr (.inl ⟨exc', by simp⟩))
            · refine (ih hretry.2).wp fun outcome rest s' hrun => ?_
              refine hrun.prepend _ fun hfailed => ?_
              rcases hfailed with hattempts | hbetween
              · exact .inl (hattempts.succ (List.mem_cons_self ..))
              · exact PgStartFailed.mono (List.sublist_append_right ..) (.inr hbetween)
          · refine .ofRaised rfl (by decide)
              (PgStartFailed.mono (List.sublist_append_right _ log) ?_)
            exact .inr (.inr (hpid exc' rfl))
          · exact absurd rfl hfinishes
        · refine .ofRaised rfl (by decide) (.inl ?_)
          by_cases hlast : left = 0
          · -- this was the last attempt
            exact .inr (by simp [hlast, isFailure, Except.toBool])
          · exact .inl ⟨exc, by simp, fun hagain => hretry ⟨hagain, hlast⟩⟩
      · simp
        exact .ofReturned (by simp [Succeeded, Returned]) rfl

theorem stepMountDisk_spec : Spec alone stepMountDisk (StepRun cfg .mount (Failed cfg .mount)) := by
  refine Spec.of_wp fun s => ?_
  simp [stepMountDisk]
  rintro (exc | value)
  · exact .ofRaised rfl (by decide) ⟨exc, by simp⟩
  · exact .ofReturned (by simp [Succeeded, Returned]) rfl

theorem stepAcquireVip_spec :
    Spec alone (stepAcquireVip cfg) (StepRun cfg .vip (Failed cfg .vip)) := by
  refine Spec.of_wp fun s => ?_
  simp [stepAcquireVip]
  rintro (exc | value)
  · exact .ofRaised rfl (by decide) ⟨exc, by simp⟩
  · refine (emit_spec _ _).wp ?_
    rintro outcome log s' ⟨rfl, rfl⟩
    exact .ofReturned (by simp [Succeeded, Returned]) rfl

theorem stepPromote_spec :
    Spec alone (stepPromote cfg) (StepRun cfg .promote (Failed cfg .promote)) := by
  refine Spec.of_wp fun s => ?_
  simp [stepPromote]
  refine (emit_spec _ _).wp ?_
  rintro outcome log s' ⟨rfl, rfl⟩
  exact .ofReturned (by simp [Succeeded, Returned]) rfl

/-! ## Which operations a step performs -/

/-- An operation of the host that belongs to no step. -/
def aside (op : Call) : Prop := stepOf op = none ∧ managed op = false

theorem emit_aside (eventType : HaEventType) (message : String) :
    (emit cfg eventType message).Calls aside :=
  emit_calls (fun _ => ⟨rfl, rfl⟩) eventType message

theorem attachFrom_calls (backoff : Int) (left : ℕ) :
    (attachFrom cfg backoff left).Calls (allowedIn .attach) :=
  attachFrom_calls_of cfg (.inl rfl) (.inr ⟨rfl, rfl⟩) (fun _ _ => .inr ⟨rfl, rfl⟩)
    (fun _ => .inr ⟨rfl, rfl⟩) backoff left

theorem startPostgresFrom_calls (left : ℕ) :
    (startPostgresFrom cfg left).Calls (allowedIn .pgStart) :=
  startPostgresFrom_calls_of (.inl rfl) (.inr ⟨rfl, rfl⟩) (fun _ => .inr ⟨rfl, rfl⟩)
    (fun _ => .inr ⟨rfl, rfl⟩) (fun _ => .inr ⟨rfl, rfl⟩) left

theorem stepVerifyPeerState_calls :
    (stepVerifyPeerState cfg).Calls (allowedIn .verify) := by
  refine .perform_bind (.inl rfl) fun status => .perform_bind (.inr ⟨rfl, rfl⟩) fun _ => ?_
  refine .ite trivial (.ite trivial (.bind ?_ fun reachable => .ite trivial trivial))
  refine .bind (Prog.Calls.attempt (Prog.Calls.perform (.inl rfl))) fun result => ?_
  cases result
  · exact .ite trivial trivial
  · trivial

/-- A step of the sequence, with what it does and which operations it performs. -/
def StepSpec (cfg : Config) (step : StepName × Mgr Unit) : Prop :=
  Spec alone step.2 (StepRun cfg step.1 (Failed cfg step.1)) ∧ step.2.Calls (allowedIn step.1)

theorem steps_spec : ∀ step ∈ steps cfg, StepSpec cfg step := by
  have haside {name : StepName} {op : Call} (h : aside op) : allowedIn name op := .inr h
  simp only [steps, List.forall_mem_cons]
  refine ⟨⟨stepVerify_spec, stepVerifyPeerState_calls⟩, ⟨stepFence_spec, ?_⟩,
    ⟨stepFenceWait_spec, ?_⟩, ⟨attachFrom_spec 3000 5 (by decide), attachFrom_calls 3000 5⟩,
    ⟨stepMountDisk_spec, ?_⟩,
    ⟨startPostgresFrom_spec 3 (by decide), startPostgresFrom_calls 3⟩,
    ⟨stepAcquireVip_spec, ?_⟩, ⟨stepPromote_spec, ?_⟩, by simp⟩
  · exact .perform_bind (.inr ⟨rfl, rfl⟩) fun _ => .perform_bind (.inl rfl) fun _ =>
      (emit_aside _ _).mono fun _ => haside
  · exact Prog.Calls.perform (.inr ⟨rfl, rfl⟩)
  · exact Prog.Calls.perform (.inl rfl)
  · exact .perform_bind (.inl rfl) fun _ => (emit_aside _ _).mono fun _ => haside
  · exact .perform_bind (.inl rfl) fun _ => .perform_bind (.inr ⟨rfl, rfl⟩) fun _ =>
      (emit_aside _ _).mono fun _ => haside

/-! ## The order of the operations -/

/-- The position of a step in the sequence. -/
def rank : StepName → ℕ
  | .verify => 0
  | .fence => 1
  | .wait => 2
  | .attach => 3
  | .mount => 4
  | .pgStart => 5
  | .vip => 6
  | _ => 7

/-- What holds when an operation is performed after the ones of `before`, in a
run of the steps `names`. -/
structure InOrder (cfg : Config) (names : List StepName) (before : Log)
    (event : Event Call.Ret Exc) : Prop where
  ofStep : managed event.op = true → stepOf event.op ≠ none
  unskipped : ∀ name, stepOf event.op = some name → name ∈ names
  afterSuccess : ∀ name, stepOf event.op = some name →
    ∀ earlier ∈ names, rank earlier < rank name → Succeeded cfg earlier before
  afterNoLater : ∀ name, stepOf event.op = some name →
    ∀ other ∈ before, ∀ name', stepOf other.op = some name' → rank name' ≤ rank name

theorem inOrder_of_aside {names : List StepName} {before : Log} {event : Event Call.Ret Exc}
    (h : aside event.op) : InOrder cfg names before event where
  ofStep hmanaged := by simp [h.2] at hmanaged
  unskipped name hname := by simp [h.1] at hname
  afterSuccess name hname := by simp [h.1] at hname
  afterNoLater name hname := by simp [h.1] at hname

theorem atEach_of_aside {names : List StepName} (past : Log) {log : Log}
    (h : ∀ event ∈ log, aside event.op) :
    AtEach (fun before event => InOrder cfg names (past ++ before) event) log := by
  rintro before event after rfl
  exact inOrder_of_aside (h event (by simp))

/-- Operations of the first step, in order whatever follows. -/
theorem atEach_of_first {name : StepName} {names : List StepName} {log : Log}
    (hlog : ∀ event ∈ log, allowedIn name event.op)
    (hlater : ∀ other ∈ names, rank name < rank other) :
    AtEach (InOrder cfg (name :: names)) log := by
  rintro before event after rfl
  rcases hlog event (by simp) with hstep | haside
  · have hsame : ∀ name', stepOf event.op = some name' → name' = name := fun name' h =>
      Option.some.inj (h.symm.trans hstep)
    refine ⟨fun _ => by simp [hstep], fun name' h => by simp [hsame name' h], ?_, ?_⟩
    · intro name' h earlier hmem hlt
      rw [hsame name' h] at hlt
      rcases List.mem_cons.mp hmem with rfl | hmem
      · exact absurd hlt (Nat.lt_irrefl _)
      · exact absurd (hlater earlier hmem) (by omega)
    · intro name' h other hother name'' hother'
      rw [hsame name' h]
      rcases hlog other (by simp [hother]) with hname | haside
      · exact Nat.le_of_eq (congrArg rank (Option.some.inj (hother'.symm.trans hname)))
      · simp [haside.1] at hother'
  · exact inOrder_of_aside haside

/-- What later steps do in order stays in order after a first step that has succeeded. -/
theorem InOrder.after_first {name : StepName} {names : List StepName} {log before : Log}
    {event : Event Call.Ret Exc} (h : InOrder cfg names before event)
    (hlog : ∀ event ∈ log, allowedIn name event.op) (hsucc : Succeeded cfg name log)
    (hlater : ∀ other ∈ names, rank name < rank other) :
    InOrder cfg (name :: names) (log ++ before) event where
  ofStep := h.ofStep
  unskipped name' hname := List.mem_cons_of_mem name (h.unskipped name' hname)
  afterSuccess name' hname earlier hmem hlt := by
    rcases List.mem_cons.mp hmem with rfl | hmem
    · exact hsucc.mono (List.subset_append_left _ _)
    · exact (h.afterSuccess name' hname earlier hmem hlt).mono (List.subset_append_right _ _)
  afterNoLater name' hname other hother name'' hother' := by
    rcases List.mem_append.mp hother with hmem | hmem
    · rcases hlog other hmem with hstep | haside
      · rw [Option.some.inj (hother'.symm.trans hstep)]
        exact Nat.le_of_lt (hlater name' (h.unskipped name' hname))
      · simp [haside.1] at hother'
    · exact h.afterNoLater name' hname other hmem name'' hother'

/-! ## The whole sequence -/

/-- The steps of a list that are not skipped. -/
def unskipped (skipFence : Bool) (steps : List (StepName × Mgr Unit)) : List StepName :=
  (steps.map (·.1)).filter fun name => !skipped skipFence name

/-- The node after the given steps have succeeded. -/
def effects (names : List StepName) (node : NodeState) : NodeState :=
  names.foldl (fun node name => effect name node) node

/-- A run over the steps `names` that ended with `done`. -/
structure Ran (cfg : Config) (names : List StepName) (s : DaemonState) (done : Bool) (log : Log)
    (s' : DaemonState) : Prop where
  inOrder : AtEach (InOrder cfg names) log
  success : done = true → (∀ name ∈ names, Succeeded cfg name log) ∧
    s'.node = effects names s.node
  failure : done = false → ∃ before name after, names = before ++ name :: after ∧
    (∀ earlier ∈ before, Succeeded cfg earlier log) ∧ Failed cfg name log ∧
    s'.node = { effects before s.node with health := .failed } ∧
    ∀ event ∈ log, stepOf event.op ≠ some .promote

theorem Ran.step {name : StepName} {names : List StepName} {s s₁ s' : DaemonState} {done : Bool}
    {first log : Log} (h : Ran cfg names s₁ done log s')
    (hfirst : ∀ event ∈ first, allowedIn name event.op) (hsucc : Succeeded cfg name first)
    (hnode : s₁.node = effect name s.node) (hlater : ∀ other ∈ names, rank name < rank other)
    (hpromote : name = .promote → names = []) :
    Ran cfg (name :: names) s done (first ++ log) s' where
  inOrder := (atEach_of_first hfirst hlater).append
    (h.inOrder.mono fun _ _ _ horder => horder.after_first hfirst hsucc hlater)
  success hdone := by
    obtain ⟨hall, hfinal⟩ := h.success hdone
    refine ⟨?_, by rw [hfinal, hnode]; rfl⟩
    rintro other (_ | ⟨_, hmem⟩)
    · exact hsucc.mono (List.subset_append_left _ _)
    · exact (hall other hmem).mono (List.subset_append_right _ _)
  failure hdone := by
    obtain ⟨before, failed, after, hsplit, hall, hfailed, hfinal, hpromoted⟩ := h.failure hdone
    refine ⟨name :: before, failed, after, by rw [hsplit]; rfl, ?_,
      hfailed.mono (List.sublist_append_right ..), by rw [hfinal, hnode]; rfl, ?_⟩
    · rintro other (_ | ⟨_, hmem⟩)
      · exact hsucc.mono (List.subset_append_left _ _)
      · exact (hall other hmem).mono (List.subset_append_right _ _)
    · intro event hmem hstep
      rcases List.mem_append.mp hmem with hmem | hmem
      · rcases hfirst event hmem with hname | haside
        · have := hpromote (Option.some.inj (hname.symm.trans hstep))
          simp [this] at hsplit
        · simp [haside.1] at hstep
      · exact hpromoted event hmem hstep

/-- A first step that fails ends the run. -/
theorem ran_of_failed {name : StepName} {names : List StepName} {s s' : DaemonState} {log : Log}
    (hnode : s'.node = { s.node with health := .failed })
    (hlog : ∀ event ∈ log, allowedIn name event.op) (hpromote : name ≠ .promote)
    (hfailed : Failed cfg name log) (hlater : ∀ other ∈ names, rank name < rank other) :
    Ran cfg (name :: names) s false log s' where
  inOrder := atEach_of_first hlog hlater
  success hdone := by simp at hdone
  failure _ := by
    refine ⟨[], name, names, rfl, by simp, hfailed, hnode, fun event hmem hstep => ?_⟩
    rcases hlog event hmem with hname | haside
    · exact hpromote (Option.some.inj (hname.symm.trans hstep))
    · simp [haside.1] at hstep

/-- A run over the steps `names` that has returned. -/
def Completed (cfg : Config) (names : List StepName) (s : DaemonState)
    (outcome : Outcome Exc Bool) (log : Log) (s' : DaemonState) : Prop :=
  ∃ done, outcome = .returned done ∧ Ran cfg names s done log s'

theorem rank_le_promote (name : StepName) : rank name ≤ rank .promote := by
  cases name <;> decide

theorem runSteps_spec (skipFence : Bool) (steps : List (StepName × Mgr Unit))
    (hsteps : ∀ step ∈ steps, StepSpec cfg step)
    (hrank : steps.Pairwise fun step step' => rank step.1 < rank step'.1) :
    Spec alone (runSteps cfg skipFence steps) (Completed cfg (unskipped skipFence steps)) := by
  induction steps with
  | nil =>
      refine Spec.of_wp fun s => ?_
      exact ⟨true, rfl, by rintro before event after h; simp at h,
        fun _ => ⟨by simp [unskipped], rfl⟩, by simp⟩
  | cons step rest ih =>
      obtain ⟨name, program⟩ := step
      obtain ⟨hlater, hrest⟩ := List.pairwise_cons.mp hrank
      have ih := ih (fun step hmem => hsteps step (List.mem_cons_of_mem _ hmem)) hrest
      obtain ⟨hspec, hcalls⟩ := hsteps (name, program) (by simp)
      by_cases hskip : skipped skipFence name = true
      · -- a step that is skipped leaves no trace
        simpa [runSteps, hskip, unskipped] using ih
      · have hnames : unskipped skipFence ((name, program) :: rest) =
            name :: unskipped skipFence rest := by simp [unskipped, hskip]
        have hlater : ∀ other ∈ unskipped skipFence rest, rank name < rank other := by
          intro other hother
          obtain ⟨step, hmem, rfl⟩ := List.mem_map.mp (List.mem_of_mem_filter hother)
          exact hlater step hmem
        rw [hnames]
        refine Spec.of_wp fun s => ?_
        simp only [runSteps, hskip, Bool.false_eq_true, ↓reduceIte, Prog.pure_eq, Prog.bind_eq,
          Prog.wp_bind, Prog.wp_perform, alone_host, Answers, after, List.nil_append, forall_eq,
          Prog.answered_ok, Prog.andThen_returned, Prog.wp_attempt]
        refine (hspec.with_calls hcalls).wp ?_
        rintro (value | exc | _) log s₁ ⟨hrun, hlog⟩
        · -- the step has succeeded, and the others follow
          obtain ⟨hsucc, hnode⟩ := hrun.returned value rfl
          simp only [List.cons_append, List.nil_append, Prog.captured_returned,
            Prog.andThen_returned]
          refine ih.wp ?_
          rintro outcome log' s' ⟨done, rfl, hran⟩
          refine ⟨done, rfl, hran.step ?_ (hsucc.mono (List.subset_cons_self _ _)) hnode hlater ?_⟩
          · simpa using ⟨.inr ⟨rfl, rfl⟩, hlog⟩
          · rintro rfl
            refine List.eq_nil_iff_forall_not_mem.mpr fun other hmem => ?_
            exact absurd (hlater other hmem) (Nat.not_lt.mpr (rank_le_promote other))
        · -- the step has failed, and the loop ends with it
          obtain ⟨hnode, hpromote, hfailed⟩ := hrun.raised exc rfl
          simp only [List.cons_append, List.nil_append, Prog.captured_raised,
            Prog.andThen_returned, Prog.wp_bind, Prog.wp_perform, alone_host, Answers, after,
            forall_eq, Prog.answered_ok]
          refine ((emit_spec _ _).with_calls (emit_aside _ _)).wp ?_
          rintro outcome log' s' ⟨⟨rfl, rfl⟩, hlog'⟩
          refine ⟨false, rfl, ran_of_failed (by simp [hnode]) ?_ hpromote ?_ hlater⟩
          · have hquiet : ∀ event ∈ log', allowedIn name event.op := fun event hmem =>
              .inr (hlog' event hmem)
            simp only [List.forall_mem_append, List.forall_mem_cons]
            exact ⟨⟨.inr ⟨rfl, rfl⟩, hlog, .inr ⟨rfl, rfl⟩, by simp⟩, hquiet⟩
          · exact hfailed.mono (by simp)
        · exact absurd rfl hrun.finishes

theorem InOrder.prepend {names : List StepName} {first before : Log}
    {event : Event Call.Ret Exc} (h : InOrder cfg names before event)
    (hfirst : ∀ event ∈ first, aside event.op) : InOrder cfg names (first ++ before) event where
  ofStep := h.ofStep
  unskipped := h.unskipped
  afterSuccess name hname earlier hmem hlt :=
    (h.afterSuccess name hname earlier hmem hlt).mono (List.subset_append_right _ _)
  afterNoLater name hname other hother name' hother' := by
    rcases List.mem_append.mp hother with hmem | hmem
    · simp [(hfirst other hmem).1] at hother'
    · exact h.afterNoLater name hname other hmem name' hother'

/-- Operations of no step around a run leave it one. -/
theorem Ran.around {names : List StepName} {s s₁ s' s'' : DaemonState} {done : Bool}
    (first : Log) {log : Log} (last : Log) (h : Ran cfg names s₁ done log s')
    (hbefore : s₁.node = s.node) (hafter : s''.node = s'.node)
    (hfirst : ∀ event ∈ first, aside event.op) (hlast : ∀ event ∈ last, aside event.op) :
    Ran cfg names s done (first ++ (log ++ last)) s'' := by
  have hsub : log ⊆ first ++ (log ++ last) := by simp
  refine ⟨?_, fun hdone => ?_, fun hdone => ?_⟩
  · rw [← List.append_assoc]
    refine ((atEach_of_aside [] hfirst).append ?_).append (atEach_of_aside _ hlast)
    exact h.inOrder.mono fun _ _ _ horder => horder.prepend hfirst
  · obtain ⟨hall, hfinal⟩ := h.success hdone
    exact ⟨fun name hmem => (hall name hmem).mono hsub, by rw [hafter, hfinal, hbefore]⟩
  · obtain ⟨before, failed, after, hsplit, hall, hfailed, hfinal, hpromoted⟩ := h.failure hdone
    have hmiddle : log.Sublist (first ++ (log ++ last)) :=
      (List.sublist_append_left log last).trans (List.sublist_append_right ..)
    refine ⟨before, failed, after, hsplit, fun name hmem => (hall name hmem).mono hsub,
      hfailed.mono hmiddle, by rw [hafter, hfinal, hbefore], ?_⟩
    simp only [List.forall_mem_append]
    exact ⟨fun event hmem => by simp [(hfirst event hmem).1], hpromoted,
      fun event hmem => by simp [(hlast event hmem).1]⟩

theorem execute_spec (skipFence : Bool) :
    Spec alone (execute cfg skipFence) (Completed cfg (unskipped skipFence (steps cfg))) := by
  refine Spec.of_wp fun s => ?_
  simp [execute, inSequence]
  intro now
  refine ((emit_spec _ _).with_calls (emit_aside _ _)).wp ?_
  rintro outcome log s' ⟨⟨rfl, rfl⟩, hlog⟩
  simp
  refine (runSteps_spec skipFence (steps cfg) steps_spec (by simp [steps, rank])).wp ?_
  rintro outcome log' s₁ ⟨done, rfl, hran⟩
  cases done
  · simp
    refine ⟨false, rfl, hran.around (_ :: _ :: _ :: _ :: _ :: _ :: log) [_] rfl rfl ?_ ?_⟩
    · simpa [aside, stepOf, managed] using hlog
    · simp [aside, stepOf, managed]
  · simp
    refine ((emit_spec _ _).with_calls (emit_aside _ _)).wp ?_
    rintro outcome log'' s' ⟨⟨rfl, rfl⟩, hlog''⟩
    simp
    refine ⟨true, rfl,
      hran.around (_ :: _ :: _ :: _ :: _ :: _ :: log) (_ :: (log'' ++ [_])) rfl rfl ?_ ?_⟩
    · simpa [aside, stepOf, managed] using hlog
    · simpa [aside, stepOf, managed, or_imp, forall_and] using hlog''

/-! ## Gated, all-or-nothing promotion -/

/-- The operations that take over the primary's resources. -/
def promotionCalls : List Call :=
  [.disk .forceDetachFromPeer, .disk .attachDiskRw, .disk .mountDisk, .disk .startPostgres,
    .net .acquireVip]

/-- What every run of `execute` does. -/
structure Promotion (cfg : Config) (skipFence : Bool) (s : DaemonState)
    (outcome : Outcome Exc Bool) (log : Log) (s' : DaemonState) : Prop where
  /-- With fencing, nothing is taken over before the peer's state is verified. -/
  gated : skipFence = false →
    AtEach (fun before event => event.op ∈ promotionCalls → Verified cfg before) log
  /-- With fencing, the disk is attached only after the peer has been fenced. -/
  fenced : skipFence = false →
    AtEach (fun before event => event.op = .disk .attachDiskRw →
      Returned (.disk .forceDetachFromPeer) before) log
  /-- A run whose verification fails asks for the peer's status and touches
  nothing else, here or elsewhere. -/
  aborted : skipFence = false → ¬ Verified cfg log →
    (∀ event ∈ log, managed event.op = true →
      ∃ name zone, event.op = .disk (.getInstanceStatus name zone)) ∧
    s'.node.role = s.node.role ∧ s'.node.diskState = s.node.diskState ∧
    s'.node.pgState = s.node.pgState
  /-- The operations follow the order of the steps, and an operation is
  performed only after every earlier unskipped step has succeeded. -/
  ordered : AtEach (InOrder cfg (unskipped skipFence (steps cfg))) log
  /-- The result says whether every unskipped step has succeeded; if it is False, a step
  has failed, and the ones before it have succeeded. -/
  result : ∃ done, outcome = .returned done ∧
    (done = true ↔ ∀ name ∈ unskipped skipFence (steps cfg), Succeeded cfg name log) ∧
    (done = true → s'.node = { s.node with
      role := .primary, health := .healthy, diskState := .attachedRw,
      pgState := .runningPrimary }) ∧
    (done = false → s'.node.role = s.node.role ∧ s'.node.health = .failed ∧
      ∃ earlier failed later, unskipped skipFence (steps cfg) = earlier ++ failed :: later ∧
        (∀ name ∈ earlier, Succeeded cfg name log) ∧ Failed cfg failed log)

theorem unskipped_steps_false : unskipped false (steps cfg) =
    [.verify, .fence, .wait, .attach, .mount, .pgStart, .vip, .promote] := by
  simp [unskipped, steps, skipped]

theorem unskipped_steps_true : unskipped true (steps cfg) =
    [.attach, .mount, .pgStart, .vip, .promote] := by
  simp [unskipped, steps, skipped]

theorem promote_mem_unskipped (skipFence : Bool) :
    .promote ∈ unskipped skipFence (steps cfg) := by
  cases skipFence <;> simp [unskipped_steps_false, unskipped_steps_true]

theorem effects_unskipped (skipFence : Bool) (node : NodeState) :
    effects (unskipped skipFence (steps cfg)) node =
      { node with role := .primary, health := .healthy, diskState := .attachedRw,
                  pgState := .runningPrimary } := by
  cases skipFence <;> simp [unskipped_steps_false, unskipped_steps_true, effects, effect]

/-- Steps before the promotion leave the role alone. -/
theorem effects_role {names : List StepName} (h : .promote ∉ names) (node : NodeState) :
    (effects names node).role = node.role := by
  induction names generalizing node with
  | nil => rfl
  | cons name rest ih =>
      have hname : (effect name node).role = node.role := by
        cases name <;> simp_all [effect]
      exact (ih (fun hmem => h (List.mem_cons_of_mem _ hmem)) _).trans hname

/-- In a run with fencing, what is done after the verification has been verified. -/
theorem verified_of_rank {log before after : Log} {event : Event Call.Ret Exc} {name : StepName}
    (h : AtEach (InOrder cfg (unskipped false (steps cfg))) log)
    (hsplit : log = before ++ event :: after) (hname : stepOf event.op = some name)
    (hrank : 0 < rank name) : Verified cfg before :=
  (h before event after hsplit).afterSuccess name hname .verify
    (by simp [unskipped_steps_false]) hrank

theorem isStatusQuery_of_verify {op : Call} (hmanaged : managed op = true)
    (hstep : stepOf op = some .verify) :
    ∃ name zone, op = .disk (.getInstanceStatus name zone) := by
  match op with
  | .disk (.getInstanceStatus name zone) => exact ⟨name, zone, rfl⟩
  | .disk .currentRwHolder | .disk .forceDetachFromPeer | .disk .attachDiskRw
  | .disk .detachDisk | .disk .mountDisk | .disk .unmountDisk | .disk .startPostgres
  | .disk (.stopPostgres _) | .net .acquireVip | .net .releaseVip => simp [stepOf] at hstep
  | .host _ => simp [managed] at hmanaged

/-- A run that fails has not promoted the node. -/
theorem Ran.not_promoted {names : List StepName} {s s' : DaemonState} {log : Log}
    (h : Ran cfg names s false log s') : ¬ Succeeded cfg .promote log := by
  obtain ⟨before, failed, after, -, -, -, -, hpromoted⟩ := h.failure rfl
  rintro ⟨value, hmem⟩
  exact hpromoted _ hmem rfl

/-- **Automatic failover is gated, ordered and all-or-nothing.** -/
theorem execute_promotes (skipFence : Bool) :
    Spec alone (execute cfg skipFence) (Promotion cfg skipFence) := by
  intro s log outcome s' htrace hhistory
  obtain ⟨done, rfl, hran⟩ := execute_spec skipFence s log _ s' htrace hhistory
  have hinOrder := hran.inOrder
  refine ⟨?_, ?_, ?_, hinOrder, done, rfl, ⟨fun hdone => (hran.success hdone).1, ?_⟩, ?_, ?_⟩
  · rintro rfl before event after hsplit hmem
    simp only [promotionCalls, List.mem_cons, List.not_mem_nil, or_false] at hmem
    rcases hmem with hop | hop | hop | hop | hop <;>
      exact verified_of_rank hinOrder hsplit (by rw [hop]; rfl) (by decide)
  · rintro rfl before event after hsplit hop
    exact (hinOrder before event after hsplit).afterSuccess .attach (by rw [hop]; rfl) .fence
      (by simp [unskipped_steps_false]) (by decide)
  · rintro rfl hverified
    refine ⟨fun event hmem hmanaged => ?_, ?_⟩
    · obtain ⟨before, after, hsplit⟩ := List.append_of_mem hmem
      obtain ⟨name, hname⟩ :=
        Option.ne_none_iff_exists'.mp ((hinOrder before event after hsplit).ofStep hmanaged)
      -- an event of a later step would come after a verification that has succeeded
      have hrank : rank name = 0 := by
        by_contra hrank
        have hbefore : Succeeded cfg .verify before :=
          verified_of_rank hinOrder hsplit hname (Nat.pos_of_ne_zero hrank)
        exact hverified (hbefore.mono (by simp [hsplit]))
      have hverify : name = .verify := by cases name <;> simp [rank] at hrank ⊢
      exact isStatusQuery_of_verify hmanaged (hverify ▸ hname)
    · cases done with
      | true =>
          exact absurd ((hran.success rfl).1 .verify (by simp [unskipped_steps_false])) hverified
      | false =>
          obtain ⟨before, failed, after, hsplit, hall, -, hfinal, -⟩ := hran.failure rfl
          -- the verification comes first, so it is the step that has failed
          cases before with
          | nil => rw [hfinal]; exact ⟨rfl, rfl, rfl⟩
          | cons first rest =>
              have hfirst : first = .verify := by
                rw [unskipped_steps_false, List.cons_append] at hsplit
                exact (List.cons.inj hsplit).1.symm
              exact absurd (hall .verify (by simp [hfirst])) hverified
  · intro hall
    cases done with
    | true => rfl
    | false => exact absurd (hall .promote (promote_mem_unskipped skipFence)) hran.not_promoted
  · intro hdone
    rw [(hran.success hdone).2, effects_unskipped]
  · rintro rfl
    obtain ⟨before, failed, after, hsplit, hall, hfailed, hfinal, -⟩ := hran.failure rfl
    rw [hfinal]
    exact ⟨effects_role (fun hmem => hran.not_promoted (hall _ hmem)) s.node, rfl,
      before, failed, after, hsplit, hall, hfailed⟩

/-! ## A sample run -/

/-- The peer is down, and every operation succeeds. -/
def takeOver : (op : Call) → DaemonState → Except Exc op.Ret × DaemonState
  | .disk (.getInstanceStatus ..), s => (.ok "TERMINATED", s)
  | .disk call, s => (call.reply, s)
  | .net _, s => (.ok (), s)
  | .host call, s => (s.reply call, s.after call)

/-- Nothing is said of the failover lock. -/
def unlocked : Call → Bool
  | .host (.acquireFailoverLock _) => false
  | _ => true

theorem alone_takeOver (s : DaemonState) (op : Call) (hop : unlocked op = true) :
    alone s ⟨op, (takeOver op s).1⟩ (takeOver op s).2 := by
  cases op with
  | disk call => cases call <;> rfl
  | net call => rfl
  | host call =>
      refine ⟨answers_reply s call ?_, rfl⟩
      rintro blocking rfl
      cases hop

/-- A standby that has given the peer up. -/
def promoting : Run Call.Ret Exc Bool DaemonState :=
  (execute .sampleStandby false).run takeOver
    ⟨{ name := "pg-standby", role := .standby }, 0, 0, "UNKNOWN", false, false, 0⟩

theorem execute_promotes_promoting : promoting.outcome = .returned true ∧
    promoting.final.node.role = .primary ∧ promoting.final.node.health = .healthy ∧
    promoting.final.node.diskState = .attachedRw ∧
    promoting.final.node.pgState = .runningPrimary := by
  have hhistory : History alone _ promoting.log promoting.final :=
    history_run_of_log alone_takeOver _ _ (by decide)
  have hpromotion := execute_promotes false _ _ _ _ (trace_run _ _ _) hhistory
  obtain ⟨done, hdone, -, hsuccess, -⟩ := hpromotion.result
  have hreturned : promoting.outcome = .returned true := by decide
  obtain rfl : done = true := by simpa using hdone.symm.trans hreturned
  rw [hsuccess rfl]
  exact ⟨hreturned, rfl, rfl, rfl, rfl⟩

end PgHa.FailoverEngine

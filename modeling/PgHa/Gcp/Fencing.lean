import PgHa.Effect.Triple
import PgHa.Gcp.Footprint

/-!
# When a detach that returns has detached the disk

`detach_disk` and `force_detach_from_peer` look up the device name, post the
detach and poll the operation until it is done.  What is followed here is
whether the disk is attached to the instance in question, together with the
operation by which it has been asked to be detached: a GET of the instance that
succeeds is truthful, and an operation that is polled as done has done its work.

Along the successful path each stage hands its result to the next one: the
lookup finds the device of the disk or nothing, the post names the operation,
and polling it as done says that the disk is gone.  The programs return
normally on other paths as well.  A lookup whose GET fails, an entry without a
device name and an answer without an operation name end them with nothing
detached and nothing raised, and for the forced detach so do a refused request
and a poll that fails.  These are the silent answers (`silentEvent`).  Every
other return has been confirmed.
-/

namespace PgHa.Fencing

open Effect DiskManager

variable {cfg : Config} {target zone : String}

/-- Whether the regional disk is attached to the instance in question, and the
operation by which it has been asked to be detached. -/
structure Attachment where
  attached : Bool
  operation : Option String

/-- An answer that says that the operation is done, without error. -/
def saysDone (answer : Except Exc (Response Operation)) : Prop :=
  ∃ op, Response.fetched answer = .ok op ∧ op.status = some "DONE" ∧ op.error = none

/-! ## Waiting for an operation -/

section Waiting

variable {σ : Type} {step : σ → Event SysCall.Ret Exc → σ → Prop} {P Q E : σ → Prop}
  {opName : String}

/-- Polling, by induction on the fuel: it returns once the operation is polled as done. -/
theorem pollZoneOp_within
    (hkeep : ∀ s op answer s', isPoll op → P s → step s ⟨op, answer⟩ s' → P s')
    (hdone : ∀ s answer s', P s → saysDone answer →
      step s ⟨.gcp (.getOperation cfg.gcp.projectId zone opName), answer⟩ s' → Q s')
    (hE : ∀ s, P s → E s) (pollInterval deadline : Int) (fuel : ℕ) :
    Prog.Within (demonic step) P (pollZoneOp cfg opName zone pollInterval deadline fuel)
      (fun _ => Q) E := by
  have hmono : (demonic step).Monotone := demonic_monotone step
  have hpoll {op : SysCall} (hop : isPoll op) :
      Prog.Within (demonic step) P (.perform op) (fun _ => P) E :=
    .of_calls hmono (fun op hop s hs answer s' => hkeep s op answer s' hop hs)
      (Prog.Calls.perform hop) hE
  induction fuel with
  -- a loop that runs out of fuel neither returns nor raises
  | zero => exact hE
  | succ fuel ih =>
      have hclock : isPoll (.host .monotonic) := trivial
      refine (hpoll hclock).bind hmono fun now => .ite (fun _ s hs => ?_) fun _ => .raise hE
      rw [Prog.bind_eq, Prog.wp_bind, Prog.wp_perform]
      intro answer s₁ hstep
      have hs₁ : P s₁ := hkeep s _ answer s₁ trivial hs hstep
      cases answer with
      | error exc => exact hE s₁ hs₁
      | ok resp =>
          rw [Prog.answered_ok, Prog.andThen_returned, Prog.bind_eq, Prog.wp_bind,
            Prog.wp_ofExcept]
          cases hjson : resp.checkedJson with
          | error exc => exact hE s₁ hs₁
          | ok op =>
              rw [Prog.answered_ok, Prog.andThen_returned, Prog.wp_ite]
              split_ifs with hstatus
              · cases herror : op.error with
                | some errors => exact hE s₁ hs₁
                | none =>
                    have hstatus : op.status = some "DONE" := by
                      cases hop : op.status <;> simp_all
                    -- DONE without an error; the other ways on are an error and another round
                    have htold : saysDone (.ok resp) := ⟨op, hjson, hstatus, herror⟩
                    exact hdone s _ s₁ hs htold hstep
              · have hsleep : isPoll (.host (.sleep pollInterval)) := trivial
                exact (hpoll hsleep).bind hmono (fun _ => ih) s₁ hs₁

/-- Both managers' `_wait_zone_op` read the clock and poll until a deadline. -/
theorem waitZoneOp_within
    (hkeep : ∀ s op answer s', isPoll op → P s → step s ⟨op, answer⟩ s' → P s')
    (hdone : ∀ s answer s', P s → saysDone answer →
      step s ⟨.gcp (.getOperation cfg.gcp.projectId zone opName), answer⟩ s' → Q s')
    (hE : ∀ s, P s → E s) (pollInterval : Int) (deadline : Int → Int) (fuel : ℕ) :
    Prog.Within (demonic step) P ((Sys.host .monotonic).bind fun now =>
      pollZoneOp cfg opName zone pollInterval (deadline now) fuel) (fun _ => Q) E := by
  have hmono : (demonic step).Monotone := demonic_monotone step
  have hclock : Prog.Calls isPoll (Sys.host .monotonic) := Prog.Calls.perform trivial
  refine .bind hmono (.of_calls hmono ?_ hclock hE) fun now =>
    pollZoneOp_within hkeep hdone hE _ _ _
  exact fun op hop s hs answer s' => hkeep s op answer s' hop hs

end Waiting

/-! ## The disk in question -/

/-- Requests may fail at any time; a GET of the instance that succeeds is
truthful, a detach operation polled as done has detached the disk, and nobody
attaches it again. -/
def detachStep (cfg : Config) (target zone : String) (s : Attachment)
    (event : Event SysCall.Ret Exc) (s' : Attachment) : Prop :=
  (s'.attached = true → s.attached = true) ∧
  match event with
  | ⟨.gcp (.getInstance _ zone' name), answer⟩ =>
      s'.operation = s.operation ∧ (name = target → zone' = zone →
        ∀ inst, Response.fetched answer = .ok inst →
          (inst.disks.any (isOurs cfg) = true ↔ s.attached = true))
  | ⟨.gcp (.detachDisk _ zone' name _), answer⟩ =>
      name = target → zone' = zone → ∀ resp op, answer = .ok resp → resp.json = .ok op →
        s'.operation = op.name
  | ⟨.gcp (.getOperation _ zone' opName), answer⟩ =>
      s'.operation = s.operation ∧ (zone' = zone → s.operation = some opName →
        saysDone answer → s'.attached = false)
  | ⟨.host .monotonic, answer⟩ => s'.operation = s.operation ∧ ∃ now, answer = .ok now
  | ⟨.host (.sleep _), answer⟩ => s'.operation = s.operation ∧ answer = .ok ()
  | _ => s'.operation = s.operation

/-- The device name that an answer to the lookup gives. -/
def deviceIn (cfg : Config) (answer : Except Exc (Response Instance)) : Option String :=
  match Response.fetched answer with
  | .ok inst => (inst.disks.find? (isOurs cfg)).bind (·.deviceName)
  | .error _ => none

/-- The answers to a forced detach after which `force_detach_from_peer`
returns without having waited for an operation. -/
def forcedSilently : Except Exc (Response Operation) → Prop
  | .error exc => exc.isRequestException = true
  | .ok resp => resp.statusCode = 400 ∨ resp.statusCode = 404 ∨
      (resp.statusCode = 200 ∨ resp.statusCode = 204) ∧
        match resp.json with
        | .ok op => nonempty? op.name = none
        | .error exc => exc.isRequestException = true

/-- The answers to a detach after which `detach_disk` returns without having
waited for an operation. -/
def detachedSilently : Except Exc (Response Operation) → Prop
  | .error _ => False
  | .ok resp => resp.statusCode = 200 ∧ ∃ op, resp.json = .ok op ∧ nonempty? op.name = none

/-- An answer after which the function returns although nothing has confirmed
that the disk is detached: a lookup that failed or found no device name, a
detach request answered as above, or, when the detach is forced, a poll that
failed with an error of the request. -/
def silentEvent (cfg : Config) (target zone : String) (force : Bool) :
    Event SysCall.Ret Exc → Prop
  | ⟨.gcp (.getInstance _ zone' name), answer⟩ =>
      name = target ∧ zone' = zone ∧ deviceIn cfg answer = none
  | ⟨.gcp (.detachDisk _ zone' name _), answer⟩ =>
      name = target ∧ zone' = zone ∧
        if force then forcedSilently answer else detachedSilently answer
  | ⟨.gcp (.getOperation ..), answer⟩ =>
      force = true ∧ ∃ exc, Response.fetched answer = .error exc ∧ exc.isRequestException = true
  | _ => False

/-- The function has ended in one of those ways. -/
def Silent (cfg : Config) (target zone : String) (force : Bool)
    (log : List (Event SysCall.Ret Exc)) : Prop :=
  ∃ event ∈ log, silentEvent cfg target zone force event

variable {force : Bool}

@[simp] theorem silent_nil : ¬ Silent cfg target zone force [] := by simp [Silent]

@[simp] theorem silent_cons {event : Event SysCall.Ret Exc} {log : List (Event SysCall.Ret Exc)} :
    Silent cfg target zone force (event :: log) ↔
      silentEvent cfg target zone force event ∨ Silent cfg target zone force log := by
  simp [Silent]

@[simp] theorem silent_append {first second : List (Event SysCall.Ret Exc)} :
    Silent cfg target zone force (first ++ second) ↔
      Silent cfg target zone force first ∨ Silent cfg target zone force second := by
  simp [Silent, or_and_right, exists_or]

/-- What a wait for the detach operation ends with. -/
structure Waited (cfg : Config) (target zone : String) (force : Bool)
    (outcome : Outcome Exc Unit) (log : List (Event SysCall.Ret Exc)) (s' : Attachment) : Prop where
  returned : ∀ value, outcome = .returned value →
    s'.attached = false ∧ ¬ Silent cfg target zone force log
  raised : ∀ exc, outcome = .raised exc →
    (Silent cfg target zone force log ↔ force = true ∧ exc.isRequestException = true)
  stuck : outcome = .stuck → ¬ Silent cfg target zone force log

theorem pollZoneOp_spec (force : Bool) (opName : String) (pollInterval deadline : Int) (fuel : ℕ) :
    Spec (detachStep cfg target zone) (pollZoneOp cfg opName zone pollInterval deadline fuel)
      fun s outcome log s' => s.operation = some opName →
        Waited cfg target zone force outcome log s' := by
  induction fuel with
  | zero => exact Spec.of_wp fun s h => ⟨by simp, by simp, by simp⟩
  | succ fuel ih =>
      refine Spec.of_wp fun s => ?_
      simp only [pollZoneOp, Prog.bind_eq, Prog.wp_bind, Prog.wp_perform, demonic_logged_iff]
      rintro answer s₁ ⟨hmono, hop, now, rfl⟩
      simp only [Prog.answered_ok, Prog.andThen_returned, Prog.wp_ite]
      split_ifs with htime
      · simp only [Prog.wp_bind, Prog.wp_perform, demonic_logged_iff]
        rintro answer s₂ ⟨hmono₂, hop₂, hdone⟩
        rcases answer with exc | resp
        · exact fun h => ⟨by simp, by simp [silentEvent], by simp⟩
        · simp only [Prog.answered_ok, Prog.andThen_returned, Prog.wp_bind, Prog.wp_ofExcept]
          cases hjson : resp.checkedJson with
          | error exc => exact fun h => ⟨by simp, by simp [silentEvent, hjson], by simp⟩
          | ok op =>
              simp only [Prog.answered_ok, Prog.andThen_returned, Prog.wp_ite]
              split_ifs with hstatus
              · -- the operation is over, and it may have failed
                have hstatus : op.status = some "DONE" := by
                  cases hop : op.status <;> simp_all
                cases herror : op.error with
                | some errors =>
                    exact fun h => ⟨by simp, by simp [silentEvent, hjson, operationFailed,
                      Exc.runtimeError, Exc.isRequestException], by simp⟩
                | none =>
                    refine fun h =>
                      ⟨fun _ _ => ⟨?_, by simp [silentEvent, hjson]⟩, by simp, by simp⟩
                    exact hdone rfl (hop.trans h) ⟨op, hjson, hstatus, herror⟩
              · -- it is still under way
                simp only [Prog.wp_bind, Prog.wp_perform, demonic_logged_iff]
                rintro answer s₃ ⟨hmono₃, hop₃, rfl⟩
                refine ih.wp fun outcome log s' hrest h => ?_
                obtain ⟨hreturned, hraised, hstuck⟩ := hrest (hop₃.trans (hop₂.trans (hop.trans h)))
                refine ⟨?_, ?_, ?_⟩
                · simpa [silentEvent, hjson] using hreturned
                · simpa [silentEvent, hjson] using hraised
                · simpa [silentEvent, hjson] using hstuck
      · -- the time is up
        exact fun h =>
          ⟨by simp, by simp [silentEvent, Exc.timeoutError, Exc.isRequestException], by simp⟩

theorem awaitNamed_spec (force : Bool) {op : Operation} (hname : nonempty? op.name ≠ none) :
    Spec (detachStep cfg target zone) (awaitNamed cfg zone op) fun s outcome log s' =>
      s.operation = op.name → Waited cfg target zone force outcome log s' := by
  obtain ⟨opName, hname⟩ := Option.ne_none_iff_exists'.mp hname
  refine Spec.of_wp fun s => ?_
  simp only [awaitNamed, hname, waitZoneOp, Prog.bind_eq, Prog.wp_bind, Prog.wp_perform,
    demonic_logged_iff]
  rintro answer s₁ ⟨hmono, hop, now, rfl⟩
  refine (pollZoneOp_spec force opName _ _ _).wp fun outcome log s' hwaited h => ?_
  obtain ⟨hreturned, hraised, hstuck⟩ :=
    hwaited (hop.trans (h.trans (eq_of_nonempty? hname)))
  refine ⟨?_, ?_, ?_⟩
  · simpa [silentEvent] using hreturned
  · simpa [silentEvent] using hraised
  · simpa [silentEvent] using hstuck

/-- The function returns normally, with the disk still attached, exactly when
it has ended silently. -/
def SilentOnly (cfg : Config) (target zone : String) (force : Bool) (outcome : Outcome Exc Unit)
    (log : List (Event SysCall.Ret Exc)) (s' : Attachment) : Prop :=
  s'.attached = true → (outcome = .returned () ↔ Silent cfg target zone force log)

/-- A handler goes on after a poll that has failed silently, and raises after any other. -/
theorem Waited.silentOnly {handler : Exc → Sys Unit} {past log : List (Event SysCall.Ret Exc)}
    {outcome : Outcome Exc Unit} {s' : Attachment} (h : Waited cfg target zone force outcome log s')
    (hpast : ¬ Silent cfg target zone force past)
    (hgoes : ∀ exc, force = true ∧ exc.isRequestException = true → handler exc = .pure ())
    (hraises : ∀ exc, ¬ (force = true ∧ exc.isRequestException = true) →
      ∃ exc', handler exc = .raise exc') :
    Prog.handled (demonic (logged (detachStep cfg target zone))) handler
      (fun outcome s' => SilentOnly cfg target zone force outcome s'.2 s'.1) outcome
      (s', past ++ log) := by
  cases outcome with
  | returned value => exact fun hattached => absurd hattached (by simp [(h.returned value rfl).1])
  | raised exc =>
      have hsilent := h.raised exc rfl
      by_cases hrequest : force = true ∧ exc.isRequestException = true
      · have hpoll : Silent cfg target zone force (past ++ log) :=
          silent_append.mpr (.inr (hsilent.mpr hrequest))
        rw [Prog.handled_raised, hgoes exc hrequest]
        simp [SilentOnly, hpoll]
      · obtain ⟨exc', hexc⟩ := hraises exc hrequest
        have hnone : ¬ Silent cfg target zone force (past ++ log) := by
          rw [silent_append, hsilent, not_or]
          exact ⟨hpast, hrequest⟩
        rw [Prog.handled_raised, hexc]
        simp [SilentOnly, hnone]
  | stuck => simp [SilentOnly, hpast, h.stuck rfl]

theorem lookupDeviceName_spec (force : Bool) :
    Spec (detachStep cfg target zone) (lookupDeviceName cfg target zone)
      fun s outcome log s' => (s'.attached = true → s.attached = true) ∧ ∃ device,
        outcome = .returned device ∧ (Silent cfg target zone force log ↔ device = none) := by
  refine Spec.of_wp fun s => ?_
  simp only [lookupDeviceName, attempt_getInstance, Prog.bind_eq, Prog.call_bind, Prog.pure_bind,
    Prog.wp_call, demonic_logged_iff]
  rintro answer s₁ ⟨hmono, hop, htruth⟩
  cases hanswer : Response.fetched answer with
  | error exc => exact ⟨hmono, none, rfl, by simp [silentEvent, deviceIn, hanswer]⟩
  | ok inst =>
      exact ⟨hmono, _, rfl, by simp [silentEvent, deviceIn, hanswer]⟩

theorem forceDetachFromPeer_spec :
    Spec (detachStep cfg cfg.cluster.peerNode cfg.peerZone) (forceDetachFromPeer cfg)
      fun _ outcome log s' =>
        SilentOnly cfg cfg.cluster.peerNode cfg.peerZone true outcome log s' := by
  refine Spec.of_wp fun s => ?_
  simp only [forceDetachFromPeer, Prog.bind_eq, Prog.wp_bind]
  refine (lookupDeviceName_spec true).wp ?_
  rintro outcome log s₁ ⟨hmono, device, rfl, hsilent⟩
  cases device with
  | none => exact fun _ => by simpa using hsilent
  | some devName =>
      simp only [reduceCtorEq, iff_false] at hsilent
      simp only [Prog.andThen_returned, requestForceDetach, Prog.wp_except, Prog.bind_eq,
        Prog.wp_bind, Prog.wp_perform, demonic_logged_iff]
      rintro (exc | resp) s₂ ⟨hmono₂, hop⟩
      · by_cases hrequest : exc.isRequestException = true <;>
          simp [SilentOnly, silentEvent, forcedSilently, hrequest, hsilent]
      · simp only [Prog.answered_ok, Prog.andThen_returned, Prog.wp_ite]
        split_ifs with hstatus hstatus'
        · simp only [Prog.wp_bind, Prog.wp_ofExcept]
          cases hjson : resp.json with
          | error exc =>
              by_cases hrequest : exc.isRequestException = true <;>
                rcases hstatus with hstatus | hstatus <;>
                simp [SilentOnly, silentEvent, forcedSilently, hrequest, hsilent, hjson, hstatus]
          | ok op =>
              simp only [Prog.answered_ok, Prog.andThen_returned]
              -- without a name there is no operation to wait for
              by_cases hname : nonempty? op.name = none
              · rcases hstatus with hstatus | hstatus <;>
                  simp [awaitNamed, hname, SilentOnly, silentEvent, forcedSilently, hjson, hstatus]
              · refine (awaitNamed_spec true hname).wp fun outcome log s' hwaited => ?_
                have hpost : ¬ forcedSilently (.ok resp) := by
                  rcases hstatus with hstatus | hstatus <;>
                    simp [forcedSilently, hstatus, hjson, hname]
                apply (hwaited (hop rfl rfl resp op rfl hjson)).silentOnly
                · simp [silentEvent, hsilent, hpost]
                · exact fun exc hrequest => if_pos hrequest.2
                · intro exc hother
                  exact ⟨exc, if_neg fun hrequest => hother ⟨rfl, hrequest⟩⟩
        · -- the disk is not attached there, or the peer is gone
          have hpost : forcedSilently (.ok resp) := hstatus'.elim .inl fun h => .inr (.inl h)
          simp [SilentOnly, silentEvent, hpost]
        · have hpost : ¬ forcedSilently (.ok resp) := by
            simp_all [forcedSilently]
          simp [SilentOnly, silentEvent, hsilent, hpost, Exc.runtimeError, Exc.isRequestException]

theorem detachDisk_spec :
    Spec (detachStep cfg cfg.cluster.nodeName cfg.myZone) (detachDisk cfg)
      fun _ outcome log s' =>
        SilentOnly cfg cfg.cluster.nodeName cfg.myZone false outcome log s' := by
  refine Spec.of_wp fun s => ?_
  simp only [detachDisk, Prog.bind_eq, Prog.wp_bind]
  refine (lookupDeviceName_spec false).wp ?_
  rintro outcome log s₁ ⟨hmono, device, rfl, hsilent⟩
  cases device with
  | none => exact fun _ => by simpa using hsilent
  | some devName =>
      simp only [reduceCtorEq, iff_false] at hsilent
      simp only [Prog.andThen_returned, requestDetach, Prog.wp_except, Prog.bind_eq,
        Prog.wp_bind, Prog.wp_perform, demonic_logged_iff]
      rintro (exc | resp) s₂ ⟨hmono₂, hop⟩
      · by_cases hrequest : exc.isRequestException = true <;>
          simp [SilentOnly, silentEvent, detachedSilently, hrequest, hsilent]
      · simp only [Prog.answered_ok, Prog.andThen_returned, Prog.wp_ite]
        split_ifs with hstatus
        · simp [SilentOnly, silentEvent, detachedSilently, hsilent, hstatus, Exc.runtimeError,
            Exc.isRequestException]
        · simp only [ne_eq, Decidable.not_not] at hstatus
          simp only [Prog.wp_bind, Prog.wp_ofExcept]
          cases hjson : resp.json with
          | error exc =>
              by_cases hrequest : exc.isRequestException = true <;>
                simp [SilentOnly, silentEvent, detachedSilently, hrequest, hsilent, hjson]
          | ok op =>
              simp only [Prog.answered_ok, Prog.andThen_returned]
              by_cases hname : nonempty? op.name = none
              · simp [awaitNamed, hname, SilentOnly, silentEvent, detachedSilently, hjson, hstatus]
              · refine (awaitNamed_spec false hname).wp fun outcome log s' hwaited => ?_
                have hpost : ¬ detachedSilently (.ok resp) := by
                  simp [detachedSilently, hjson, hname]
                apply (hwaited (hop rfl rfl resp op rfl hjson)).silentOnly
                · simp [silentEvent, hsilent, hpost]
                · exact fun _ hforced => absurd hforced.1 (by decide)
                · -- the own disk is not detached by force, so every failure is raised
                  intro exc _
                  by_cases hrequest : exc.isRequestException = true
                  · exact ⟨_, if_pos hrequest⟩
                  · exact ⟨exc, if_neg hrequest⟩

/-! ## Confirmed fencing -/

/-- A detach that returns normally has detached the disk. -/
def Confirmed (outcome : Outcome Exc Unit) (s' : Attachment) : Prop :=
  outcome = .returned () → s'.attached = false

theorem SilentOnly.confirmed_iff {outcome : Outcome Exc Unit}
    {log : List (Event SysCall.Ret Exc)} {s' : Attachment}
    (h : SilentOnly cfg target zone force outcome log s') :
    Confirmed outcome s' ↔ ¬ (s'.attached = true ∧ Silent cfg target zone force log) := by
  cases hattached : s'.attached with
  | false => simp [Confirmed, hattached]
  | true => simp [Confirmed, hattached, h hattached]

/-- **Exactly when a detach is confirmed.**  For every state of the Compute API
and every pattern of answers, fencing the peer and detaching the own disk keep
their promise unless the disk is still attached and the function has ended
silently. -/
theorem confirmed_iff_not_silent (cfg : Config) :
    Spec (detachStep cfg cfg.cluster.peerNode cfg.peerZone) (forceDetachFromPeer cfg)
      (fun _ outcome log s' => Confirmed outcome s' ↔
        ¬ (s'.attached = true ∧ Silent cfg cfg.cluster.peerNode cfg.peerZone true log)) ∧
    Spec (detachStep cfg cfg.cluster.nodeName cfg.myZone) (detachDisk cfg)
      (fun _ outcome log s' => Confirmed outcome s' ↔
        ¬ (s'.attached = true ∧ Silent cfg cfg.cluster.nodeName cfg.myZone false log)) :=
  ⟨fun s log outcome s' htrace hhistory =>
      (forceDetachFromPeer_spec s log outcome s' htrace hhistory).confirmed_iff,
    fun s log outcome s' htrace hhistory =>
      (detachDisk_spec s log outcome s' htrace hhistory).confirmed_iff⟩

/-- No request is answered. -/
def unanswered : (op : SysCall) → Attachment → Except Exc op.Ret × Attachment
  | .host .monotonic, s => (.ok 0, s)
  | .host (.sleep _), s => (.ok (), s)
  | _, s => (.error ⟨.requestException, "Connection reset by peer"⟩, s)

theorem detachStep_unanswered (s : Attachment) (op : SysCall) :
    detachStep cfg target zone s ⟨op, (unanswered op s).1⟩ (unanswered op s).2 := by
  rcases op with call | call <;> cases call <;> simp [detachStep, unanswered, saysDone]

/-- The lookup of the peer's device name fails, and fencing returns normally
with the disk attached to the peer. -/
theorem not_confirmed : ¬ ∀ cfg,
    Spec (detachStep cfg cfg.cluster.peerNode cfg.peerZone) (forceDetachFromPeer cfg)
      (fun _ outcome _ s' => Confirmed outcome s') ∧
    Spec (detachStep cfg cfg.cluster.nodeName cfg.myZone) (detachDisk cfg)
      (fun _ outcome _ s' => Confirmed outcome s') := by
  intro h
  have := (h .sampleStandby).1 ⟨true, none⟩ _ _ _ (trace_run unanswered _ _)
    (history_run detachStep_unanswered _ _) rfl
  exact absurd this (by decide)

end PgHa.Fencing

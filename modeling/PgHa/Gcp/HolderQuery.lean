import PgHa.Cluster.Election
import PgHa.Gcp.Footprint
import PgHa.Ha.Switchover
import PgHa.Effect.Wp

/-!
# When a held disk is force-attached

`current_rw_holder` answers `None` both when nobody holds the disk and when it
could not find out, and its callers take `None` for "free".  For a fixed state
of the Compute API and a fixed pattern of failing requests, this file says
exactly when the startup election and the switchover's attach step send
`attachDisk?forceAttach=true`.
-/

namespace PgHa.HolderQuery

open Effect DiskManager

variable {cfg : Config}

/-- What the Compute API knows: the users of the regional disk, and the
instances by zone and name. -/
structure GcpView where
  users : List String
  instances : String → String → Instance

/-- Which requests are answered: the disk GET of every holder query, and the
instance GETs of every query one after the other. -/
structure Availability where
  disk : ℕ → Bool
  user : ℕ → ℕ → Bool

/-- How many holder queries have been started, and how many instance GETs the
last of them has made. -/
structure Progress where
  queries : ℕ
  position : ℕ

/-- A request that is answered is answered truthfully. -/
def Answered {α : Type} (available : Bool) (answer : Except Exc (Response α)) (truth : α) : Prop :=
  if available then Response.fetched answer = .ok truth
  else ∃ exc, Response.fetched answer = .error exc

/-- Requests are answered as `available` says; nothing else is assumed of the
other operations but that hashing and sleeping do not fail. -/
def queryStep (view : GcpView) (available : Availability) (s : Progress)
    (event : Event SysCall.Ret Exc) (s' : Progress) : Prop :=
  match event with
  | ⟨.gcp (.getDisk ..), answer⟩ =>
      s' = ⟨s.queries + 1, 0⟩ ∧ Answered (available.disk s.queries) answer ⟨view.users⟩
  | ⟨.gcp (.getInstance _ zone name), answer⟩ =>
      s' = { s with position := s.position + 1 } ∧
        Answered (available.user (s.queries - 1) s.position) answer (view.instances zone name)
  | ⟨.host (.hash _), answer⟩ => s' = s ∧ ∃ value, answer = .ok value
  | ⟨.host (.sleep _), answer⟩ => s' = s ∧ answer = .ok ()
  | _ => s' = s

/-- The instances that query number `query` can see holding the disk
read-write, from a given request on. -/
def visibleFrom (cfg : Config) (view : GcpView) (available : Availability) (query : ℕ) :
    ℕ → List String → List String
  | _, [] => []
  | position, userUrl :: rest =>
      match zoneForInstance cfg (lastSegment userUrl) with
      | none => visibleFrom cfg view available query position rest
      | some zone =>
          let others := visibleFrom cfg view available query (position + 1) rest
          if available.user query position ∧
              showsRw cfg (view.instances zone (lastSegment userUrl)) then
            lastSegment userUrl :: others
          else others

/-- The instances that query number `query` can see holding the disk
read-write. -/
def visible (cfg : Config) (view : GcpView) (available : Availability) (query : ℕ) :
    List String :=
  if available.disk query then visibleFrom cfg view available query 0 view.users else []

variable {view : GcpView} {available : Availability}

theorem holderAmong_spec (users : List String) :
    Spec (queryStep view available) (holderAmong cfg users) fun s outcome _ s' =>
      outcome = .returned
        (visibleFrom cfg view available (s.queries - 1) s.position users).head? ∧
      s'.queries = s.queries := by
  induction users with
  | nil => exact Spec.of_wp fun s => ⟨rfl, rfl⟩
  | cons userUrl rest ih =>
      unfold holderAmong visibleFrom
      cases hzone : zoneForInstance cfg (lastSegment userUrl) with
      | none => simpa [hzone] using ih
      | some zone =>
          refine Spec.of_wp fun s => ?_
          simp only [hzone, attempt_getInstance, Prog.bind_eq, Prog.call_bind, Prog.pure_bind,
            Prog.wp_call, demonic_logged_iff]
          rintro answer s₁ ⟨rfl, hanswer⟩
          by_cases havailable : available.user (s.queries - 1) s.position = true
          · have hok : Response.fetched answer =
                .ok (view.instances zone (lastSegment userUrl)) := by
              simpa [Answered, havailable] using hanswer
            by_cases hshows : showsRw cfg (view.instances zone (lastSegment userUrl)) = true
            · simp [hok, hshows, havailable]
            · simp only [hok, hshows, havailable]
              exact ih.wp fun outcome log s' h => h
          · obtain ⟨exc, herror⟩ : ∃ exc, Response.fetched answer = .error exc := by
              simpa [Answered, havailable] using hanswer
            simp only [herror, havailable]
            exact ih.wp fun outcome log s' h => h

theorem currentRwHolder_spec :
    Spec (queryStep view available) (currentRwHolder cfg) fun s outcome _ s' =>
      outcome = .returned (visible cfg view available s.queries).head? ∧
      s'.queries = s.queries + 1 := by
  refine Spec.of_wp fun s => ?_
  simp only [currentRwHolder, attempt_getDisk, Prog.bind_eq, Prog.call_bind, Prog.pure_bind,
    Prog.wp_call, demonic_logged_iff]
  rintro answer s₁ ⟨rfl, hanswer⟩
  by_cases havailable : available.disk s.queries = true
  · have hok : Response.fetched answer = .ok ⟨view.users⟩ := by
      simpa [Answered, havailable] using hanswer
    simp only [hok, visible, havailable, if_true]
    exact (holderAmong_spec view.users).wp fun outcome log s' h => h
  · obtain ⟨exc, herror⟩ : ∃ exc, Response.fetched answer = .error exc := by
      simpa [Answered, havailable] using hanswer
    simp [herror, visible, havailable]

/-! ## When the disk is force-attached -/

/-- The request `attachDisk?forceAttach=true` has been sent. -/
def Posts (log : List (Event SysCall.Ret Exc)) : Prop := ∃ event ∈ log, isAttachPost event.op

theorem posts_append {first second : List (Event SysCall.Ret Exc)} :
    Posts (first ++ second) ↔ Posts first ∨ Posts second := by
  simp [Posts, or_and_right, exists_or]

theorem posts_cons {event : Event SysCall.Ret Exc} {log : List (Event SysCall.Ret Exc)} :
    Posts (event :: log) ↔ isAttachPost event.op ∨ Posts log := by
  simp [Posts]

theorem not_posts {log : List (Event SysCall.Ret Exc)}
    (h : ∀ event ∈ log, ¬ isAttachPost event.op) : ¬ Posts log := by
  rintro ⟨event, hmem, hpost⟩
  exact h event hmem hpost

/-- Once the request has been sent it has been sent, whatever follows. -/
theorem posts_wp {α : Type} (program : Sys α) {s : Progress} {past : List (Event SysCall.Ret Exc)}
    (h : Posts past) : program.wp (demonic (logged (queryStep view available)))
      (fun _ s' => Posts s'.2) (s, past) :=
  (Spec.trivial program).wp fun _ _ _ _ => posts_append.mpr (.inl h)

/-- A program that begins with the query for the holder goes on with what is visible, and has not
attached the disk so far. -/
theorem holder_wp {α : Type} {next : Option String → Sys α} {s : Progress}
    {post : Outcome Exc α → Progress × List (Event SysCall.Ret Exc) → Prop}
    (h : ∀ log s', s'.queries = s.queries + 1 → ¬ Posts log →
      (next (visible cfg view available s.queries).head?).wp
        (demonic (logged (queryStep view available))) post (s', log)) :
    ((currentRwHolder cfg).bind next).wp (demonic (logged (queryStep view available))) post
      (s, []) := by
  rw [Prog.wp_bind]
  apply (currentRwHolder_spec.with_calls (currentRwHolder_calls cfg)).wp
  rintro outcome log s' ⟨⟨rfl, hqueries⟩, hlog⟩
  have hnone : ¬ Posts log := not_posts fun event hmem =>
    not_isAttachPost_of_isQuery event.op (hlog event hmem)
  rw [Prog.andThen_returned, List.nil_append]
  exact h log s' hqueries hnone

theorem attachDiskRw_spec :
    Spec (queryStep view available) (attachDiskRw cfg) fun s _ log _ =>
      Posts log ↔ (visible cfg view available s.queries).head? ≠ some cfg.cluster.nodeName := by
  refine Spec.of_wp fun s => ?_
  simp only [attachDiskRw, Prog.bind_eq]
  refine holder_wp fun log s₁ hqueries hnone => ?_
  rw [Prog.wp_ite]
  split_ifs with hholder
  · simpa [hholder] using hnone
  · simp only [ne_eq, hholder, not_false_eq_true, iff_true]
    rintro answer ⟨s₂, log₂⟩ ⟨-, rfl⟩
    exact posts_wp _ ⟨_, List.mem_append_right _ (List.mem_singleton_self _), trivial⟩

/-- What follows cannot attach the disk. -/
theorem quiet_wp {α : Type} {program : Sys α}
    (h : program.Calls fun op => ¬ isAttachPost op) {s : Progress}
    {past : List (Event SysCall.Ret Exc)} {condition : Prop} (hpast : Posts past ↔ condition) :
    program.wp (demonic (logged (queryStep view available)))
      (fun _ s' => Posts s'.2 ↔ condition) (s, past) := by
  refine ((Spec.trivial _).with_calls h).wp ?_
  rintro outcome log s' ⟨-, hlog⟩
  rw [posts_append, or_iff_left (not_posts hlog), hpast]

/-- **Startup election.**  The disk is force-attached exactly when the first
query sees nobody and the query inside `attach_disk_rw` does not see this node
first. -/
theorem elect_spec :
    Spec (queryStep view available) ((ElectionManager.elect cfg).lower (managers cfg))
      fun s _ log _ => Posts log ↔ visible cfg view available s.queries = [] ∧
        (visible cfg view available (s.queries + 1)).head? ≠ some cfg.cluster.nodeName := by
  refine Spec.of_wp fun s => ?_
  simp only [ElectionManager.elect, Prog.bind_eq, Prog.lower_bind, Prog.lower_perform,
    Prog.lower_ite, managers]
  refine holder_wp fun log s₁ hqueries hnone => ?_
  rw [Prog.wp_ite]
  cases hvisible : visible cfg view available s.queries with
  | cons name rest =>
      -- a holder is seen, so nobody competes for the disk
      have hno : Posts log ↔ (False ∧
        (visible cfg view available (s.queries + 1)).head? ≠ some cfg.cluster.nodeName) := by
        simpa using hnone
      simp only [List.head?_cons, Option.isSome_some, if_true]
      split_ifs
      · exact quiet_wp (lower_calls_not_attach cfg ElectionManager.becomePrimary_calls) hno
      · exact quiet_wp (lower_calls_not_attach cfg ElectionManager.becomeStandby_calls) hno
  | nil =>
      simp only [List.head?_nil, reduceCtorEq, if_false, Option.isSome_none, Bool.false_eq_true,
        ElectionManager.competeForPrimary, Prog.bind_eq, Prog.lower_bind, Prog.lower_perform,
        Prog.lower_except, Prog.wp_bind, managers, Prog.wp_perform, demonic_logged_iff]
      rintro answer s₂ ⟨rfl, hash, rfl⟩
      simp only [Prog.answered_ok, Prog.andThen_returned, Prog.wp_bind, Prog.wp_perform,
        demonic_logged_iff]
      rintro answer s₃ ⟨rfl, rfl⟩
      simp only [Prog.answered_ok, Prog.andThen_returned, Prog.wp_except, Prog.wp_bind]
      refine attachDiskRw_spec.wp ?_
      rintro outcome log' s' hposts
      -- whatever comes after the attachment asks for no other one
      have hhandler (error : Exc) : (if error.isRuntimeError = true then
          ElectionManager.becomeStandby else Prog.raise error).Calls fun call => ¬ call.movesDisk :=
        .ite ElectionManager.becomeStandby_calls trivial
      have hall : Posts (log ++ [⟨.host (.hash cfg.cluster.nodeName), .ok hash⟩] ++
          [⟨.host (.sleep (100 * (hash % 20))), .ok ()⟩] ++ log') ↔
          True ∧ (visible cfg view available (s.queries + 1)).head? ≠
            some cfg.cluster.nodeName := by
        rw [hqueries] at hposts
        simpa [posts_append, posts_cons, isAttachPost, hnone] using hposts
      rcases outcome with value | error | _
      · simp only [Prog.andThen_returned, ← Prog.wp_except]
        have hprimary := lower_calls_not_attach cfg ElectionManager.becomePrimary_calls
        exact quiet_wp
          (.except hprimary fun error => lower_calls_not_attach cfg (hhandler error)) hall
      · exact quiet_wp (lower_calls_not_attach cfg (hhandler error)) hall
      · exact hall

/-- **Switchover.**  The attach step of the standby force-attaches the disk
exactly when neither its own query sees the peer first nor the query inside
`attach_disk_rw` sees this node first. -/
theorem stepAttachDisk_spec :
    Spec (queryStep view available)
      ((SwitchoverEngine.stepAttachDisk cfg).lower (managers cfg))
      fun s _ log _ => Posts log ↔
        (visible cfg view available s.queries).head? ≠
          some (SwitchoverEngine.peerInstance cfg) ∧
        (visible cfg view available (s.queries + 1)).head? ≠ some cfg.cluster.nodeName := by
  refine Spec.of_wp fun s => ?_
  simp only [SwitchoverEngine.stepAttachDisk, Prog.bind_eq, Prog.lower_bind, Prog.lower_perform,
    Prog.lower_ite, managers]
  refine holder_wp fun log s₁ hqueries hnone => ?_
  rw [Prog.wp_ite]
  split_ifs with hholder
  · simpa [hholder] using hnone
  · simp only [ne_eq, hholder, not_false_eq_true, true_and, Prog.wp_bind]
    refine attachDiskRw_spec.wp ?_
    rintro outcome log' s' hposts
    have hall : Posts (log ++ log') ↔
        ¬ (visible cfg view available (s.queries + 1)).head? = some cfg.cluster.nodeName := by
      rw [hqueries] at hposts
      simpa [posts_append, hnone] using hposts
    rcases outcome with value | error | _
    · simp only [Prog.andThen_returned]
      exact quiet_wp (Prog.Calls.perform id) hall
    · exact hall
    · exact hall

/-! ## No theft of a held disk -/

/-- Some instance other than this node has the disk attached read-write. -/
def HeldByOther (cfg : Config) (view : GcpView) : Prop :=
  ∃ userUrl ∈ view.users, lastSegment userUrl ≠ cfg.cluster.nodeName ∧
    ∃ zone, showsRw cfg (view.instances zone (lastSegment userUrl)) = true

/-- A held disk is never taken: whoever else holds it and whichever requests
fail, it is not force-attached, and the holder query does not answer `None`. -/
def NoTheft (cfg : Config) : Prop :=
  ∀ view available, HeldByOther cfg view →
    Spec (queryStep view available) ((ElectionManager.elect cfg).lower (managers cfg))
      (fun _ _ log _ => ¬ Posts log) ∧
    Spec (queryStep view available) ((SwitchoverEngine.stepAttachDisk cfg).lower (managers cfg))
      (fun _ _ log _ => ¬ Posts log) ∧
    Spec (queryStep view available) (currentRwHolder cfg)
      (fun _ outcome _ _ => outcome ≠ .returned none)

/-- **Exactly when a disk is not taken**, for every state of the Compute API
and every pattern of failing requests. -/
theorem not_posts_iff_visible (cfg : Config) (view : GcpView) (available : Availability) :
    Spec (queryStep view available) ((ElectionManager.elect cfg).lower (managers cfg))
      (fun s _ log _ => ¬ Posts log ↔ visible cfg view available s.queries ≠ [] ∨
        (visible cfg view available (s.queries + 1)).head? = some cfg.cluster.nodeName) ∧
    Spec (queryStep view available) ((SwitchoverEngine.stepAttachDisk cfg).lower (managers cfg))
      (fun s _ log _ => ¬ Posts log ↔
        (visible cfg view available s.queries).head? = some (SwitchoverEngine.peerInstance cfg) ∨
        (visible cfg view available (s.queries + 1)).head? = some cfg.cluster.nodeName) ∧
    Spec (queryStep view available) (currentRwHolder cfg)
      (fun s outcome _ _ => outcome ≠ .returned none ↔
        visible cfg view available s.queries ≠ []) := by
  refine ⟨fun s log outcome s' htrace hhistory => ?_, fun s log outcome s' htrace hhistory => ?_,
    fun s log outcome s' htrace hhistory => ?_⟩
  · exact (not_congr (elect_spec s log outcome s' htrace hhistory)).trans
      (by rw [not_and_or, not_ne_iff])
  · exact (not_congr (stepAttachDisk_spec s log outcome s' htrace hhistory)).trans
      (by rw [not_and_or, not_ne_iff, not_ne_iff])
  · obtain ⟨rfl, -⟩ := currentRwHolder_spec s log outcome s' htrace hhistory
    simp

/-- The peer holds the disk. -/
def peerHolds : GcpView where
  users := ["projects/my-gcp-project/zones/us-central1-a/instances/pg-primary"]
  instances _ name :=
    { status := some "RUNNING",
      disks := if name = "pg-primary" then
          [⟨some (diskSelfLink .sampleStandby), some "READ_WRITE", some "pg-data-disk"⟩]
        else [],
      networkInterfaces := [] }

/-- No request for the disk succeeds. -/
def diskUnavailable : Availability := ⟨fun _ => false, fun _ _ => true⟩

/-- The disk cannot be read and nothing can be changed; instances can be read. -/
def internalError : (op : SysCall) → Progress → Except Exc op.Ret × Progress
  | .gcp (.getDisk ..), s => (.error ⟨.requestException, "503"⟩, ⟨s.queries + 1, 0⟩)
  | .gcp (.getInstance _ zone name), s =>
      (.ok (.ok (peerHolds.instances zone name)), { s with position := s.position + 1 })
  | .host (.hash _), s => (.ok 0, s)
  | .host (.sleep _), s => (.ok (), s)
  | _, s => (.error ⟨.requestException, "503"⟩, s)

theorem queryStep_internalError (s : Progress) (op : SysCall) :
    queryStep peerHolds diskUnavailable s ⟨op, (internalError op s).1⟩ (internalError op s).2 := by
  rcases op with call | call <;> cases call <;>
    simp [queryStep, internalError, Answered, diskUnavailable]

/-- The peer holds the disk, the GET of the disk fails, and the starting node
takes the disk away from it. -/
theorem not_noTheft : ¬ NoTheft .sampleStandby := by
  intro h
  have hname : lastSegment "projects/my-gcp-project/zones/us-central1-a/instances/pg-primary" =
      "pg-primary" := by decide
  have hshows : showsRw .sampleStandby (peerHolds.instances "us-central1-a" (lastSegment
      "projects/my-gcp-project/zones/us-central1-a/instances/pg-primary")) = true := by
    rw [hname]
    simp [showsRw, peerHolds, isOurs_diskSelfLink]
  have hheld : HeldByOther .sampleStandby peerHolds :=
    ⟨_, List.mem_singleton_self _, hname ▸ by decide, "us-central1-a", hshows⟩
  refine (h peerHolds diskUnavailable hheld).1 ⟨0, 0⟩ _ _ _ (trace_run internalError _ _)
    (history_run queryStep_internalError _ _) ?_
  exact (elect_spec _ _ _ _ (trace_run internalError _ _)
    (history_run queryStep_internalError _ _)).mpr ⟨rfl, by simp [visible, diskUnavailable]⟩

end PgHa.HolderQuery

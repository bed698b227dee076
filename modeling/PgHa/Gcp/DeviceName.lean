import PgHa.Gcp.Fencing
import PgHa.Gcp.HolderQuery
import PgHa.Model.Host

/-!
# The name under which the disk is attached

`mount_disk` waits for the device that bears the configured name.  `attach_disk_rw` asks
for that name when it attaches the disk, but it also returns when it finds the disk
attached to this node in read-write mode, under whichever name: the disk may have been
attached by hand.

`ready_iff` tells the two paths apart by what the look for the holder is shown, which
`HolderQuery.lean` follows request by request (`visible`): the slow path always ends with
the disk under the configured name, and the shortcut leaves it as it was found.
-/

namespace PgHa.DeviceName

open Effect DiskManager

variable {cfg : Config}

/-- The disks that are attached to each instance, by zone and name. -/
abbrev Attachments : Type := String → String → List AttachedDisk

/-- The entry that a request asks for. -/
def entryOf (payload : AttachPayload) : AttachedDisk :=
  ⟨some payload.source, some payload.mode, some payload.deviceName⟩

/-- A request to attach a disk that the Compute API has accepted. -/
structure Attach where
  operation : Option String
  zone : String
  name : String
  payload : AttachPayload

/-- The disk is attached as asked for, and by force taken from every other instance. -/
def Attach.apply (attach : Attach) (attached : Attachments) : Attachments := fun zone name =>
  if zone = attach.zone ∧ name = attach.name then
    (attached zone name).insert (entryOf attach.payload)
  else (attached zone name).filter (·.source ≠ some attach.payload.source)

/-- The attachments as the Compute API has them, and a request on its way. -/
structure DiskWorld where
  attached : Attachments
  pending : Option Attach

/-- The regional disk is attached to this node in read-write mode, under the name of the
device that is mounted. -/
def Ready (cfg : Config) (s : DiskWorld) : Prop :=
  entryOf (attachPayload cfg) ∈ s.attached cfg.myZone cfg.cluster.nodeName

/-- The regional disk is attached to the instance. -/
def Uses (cfg : Config) (s : DiskWorld) (name : String) : Prop :=
  ∃ zone, ∃ disk ∈ s.attached zone name, disk.source = some (diskSelfLink cfg)

/-- Nothing happens but that an accepted request may take effect. -/
structure Rests (s s' : DiskWorld) : Prop where
  pending : s'.pending = s.pending
  attached : s'.attached = s.attached ∨
    ∃ attach, s.pending = some attach ∧ s'.attached = attach.apply s.attached

/-- A request is refused, or it is accepted: then its answer names the operation, if it
arrives, and the request takes effect now or later, or its operation fails. -/
def Answered (s : DiskWorld) (zone name : String) (payload : AttachPayload)
    (answer : Except Exc (Response Operation)) (s' : DiskWorld) : Prop :=
  (s' = s ∧ ∀ resp, answer = .ok resp → resp.statusCode ≠ 200) ∨
  ∃ operation, s'.pending = some ⟨operation, zone, name, payload⟩ ∧
    (s'.attached = s.attached ∨
      s'.attached = Attach.apply ⟨operation, zone, name, payload⟩ s.attached) ∧
    ∀ resp, answer = .ok resp → resp.statusCode = 200 ∧
      ∀ op, resp.json = .ok op → operation = op.name ∧ nonempty? op.name ≠ none

/-- Requests may fail at any time.  A GET that succeeds is truthful, a request whose
operation is polled as done has taken effect, and nobody else attaches or detaches. -/
def diskStep (cfg : Config) (s : DiskWorld) (event : Event SysCall.Ret Exc) (s' : DiskWorld) :
    Prop :=
  match event with
  | ⟨.gcp (.getDisk ..), answer⟩ =>
      Rests s s' ∧ ∀ disk, Response.fetched answer = .ok disk →
        ∀ name, name ∈ disk.users.map lastSegment ↔ Uses cfg s' name
  | ⟨.gcp (.getInstance _ zone name), answer⟩ =>
      Rests s s' ∧ ∀ inst, Response.fetched answer = .ok inst → inst.disks = s'.attached zone name
  | ⟨.gcp (.attachDisk _ zone name payload), answer⟩ => Answered s zone name payload answer s'
  | ⟨.gcp (.getOperation _ zone opName), answer⟩ =>
      Rests s s' ∧ (Fencing.saysDone answer → ∀ attach, s.pending = some attach →
        attach.operation = some opName → attach.zone = zone →
          s'.attached = attach.apply s.attached)
  | _ => Rests s s'

/-! ## The look for the holder -/

/-- While no request is on its way, the attachments stay as they are. -/
theorem Rests.eq_of_none {s s' : DiskWorld} (h : Rests s s') (hnone : s.pending = none) :
    s' = s := by
  have hattached : s'.attached = s.attached := by
    rcases h.attached with hsame | ⟨attach, hattach, -⟩
    · exact hsame
    · cases hnone.symm.trans hattach
  obtain ⟨attached, pending⟩ := s
  obtain ⟨attached', pending'⟩ := s'
  rw [DiskWorld.mk.injEq]
  exact ⟨hattached, h.pending⟩

theorem rests_of_query {s s' : DiskWorld} {event : Event SysCall.Ret Exc} (hop : isQuery event.op)
    (h : diskStep cfg s event s') : Rests s s' := by
  obtain ⟨op, answer⟩ := event
  cases op with
  | host call => exact h
  | gcp call =>
      cases call with
      | getDisk project region disk => exact h.1
      | getInstance project zone name => exact h.1
      | getOperation project zone operation => exact h.1
      | attachDisk project zone name payload => exact hop.elim
      | _ => exact h

abbrev disks (cfg : Config) : Transformer SysCall.Ret Exc DiskWorld := demonic (diskStep cfg)

/-- The instance is seen to have the disk in read-write mode. -/
def Shown (cfg : Config) (attached : Attachments) (name : String) : Prop :=
  ∃ zone, zoneForInstance cfg name = some zone ∧
    ∃ disk ∈ attached zone name, isOurs cfg disk = true ∧ disk.mode = some "READ_WRITE"

theorem shown_of_showsRw {attached : Attachments} {name zone : String} {inst : Instance}
    (hzone : zoneForInstance cfg name = some zone) (hdisks : inst.disks = attached zone name)
    (hshows : showsRw cfg inst = true) : Shown cfg attached name := by
  obtain ⟨disk, hmem, hdisk⟩ := List.any_eq_true.mp hshows
  obtain ⟨hours, hmode⟩ : isOurs cfg disk = true ∧ disk.mode = some "READ_WRITE" := by
    simpa using hdisk
  exact ⟨zone, hzone, disk, hdisks ▸ hmem, hours, hmode⟩

/-- The look changes nothing, and finds nobody who is not seen to hold the disk. -/
theorem holderAmong_triple (attached : Attachments) (users : List String) :
    Prog.Triple (disks cfg) (· = ⟨attached, none⟩) (holderAmong cfg users)
      (fun holder s => s = ⟨attached, none⟩ ∧ ∀ name, holder = some name → Shown cfg attached name)
      fun _ => False := by
  induction users with
  | nil => exact .pure fun s hs => ⟨hs, by simp⟩
  | cons userUrl rest ih =>
      unfold holderAmong
      cases hzone : zoneForInstance cfg (lastSegment userUrl) with
      | none => simpa [hzone] using ih
      | some zone =>
          rintro s rfl
          simp only [hzone, attempt_getInstance, Prog.bind_eq, Prog.call_bind, Prog.pure_bind,
            Prog.wp_call]
          rintro answer s₁ ⟨hrests, htruth⟩
          obtain rfl : s₁ = ⟨attached, none⟩ := hrests.eq_of_none rfl
          cases hfetched : Response.fetched answer with
          | error exc => exact ih _ rfl
          | ok inst =>
              rw [Prog.wp_ite]
              split_ifs with hshows
              · refine ⟨rfl, fun name hname => ?_⟩
                obtain rfl : lastSegment userUrl = name := Option.some.inj hname
                exact shown_of_showsRw hzone (htruth inst hfetched) hshows
              · exact ih _ rfl

theorem currentRwHolder_triple (attached : Attachments) :
    Prog.Triple (disks cfg) (· = ⟨attached, none⟩) (currentRwHolder cfg)
      (fun holder s => s = ⟨attached, none⟩ ∧ ∀ name, holder = some name → Shown cfg attached name)
      fun _ => False := by
  rintro s rfl
  simp only [currentRwHolder, attempt_getDisk, Prog.bind_eq, Prog.call_bind, Prog.pure_bind,
    Prog.wp_call]
  rintro answer s₁ ⟨hrests, -⟩
  obtain rfl : s₁ = ⟨attached, none⟩ := hrests.eq_of_none rfl
  cases hfetched : Response.fetched answer with
  | error exc => exact ⟨rfl, by simp⟩
  | ok disk => exact holderAmong_triple attached disk.users _ rfl

/-! ## The request -/

theorem ready_of_applied {operation : Option String} {s s' : DiskWorld}
    (h : s'.attached = Attach.apply
      ⟨operation, cfg.myZone, cfg.cluster.nodeName, attachPayload cfg⟩ s.attached) :
    Ready cfg s' := by
  have hown : s'.attached cfg.myZone cfg.cluster.nodeName =
      (s.attached cfg.myZone cfg.cluster.nodeName).insert
        (entryOf (attachPayload cfg)) := by
    rw [h, Attach.apply, if_pos ⟨rfl, rfl⟩]
  rw [Ready, hown]
  exact List.mem_insert_self

/-- The request of this node is on its way. -/
def Asked (cfg : Config) (opName : String) (s : DiskWorld) : Prop :=
  s.pending = some ⟨some opName, cfg.myZone, cfg.cluster.nodeName, attachPayload cfg⟩

/-- Waiting for the operation returns once the disk is attached as asked for. -/
theorem waitZoneOp_within (opName : String) :
    Prog.Within (disks cfg) (Asked cfg opName) (waitZoneOp cfg opName cfg.myZone)
      (fun _ => Ready cfg) fun _ => True := by
  refine Fencing.waitZoneOp_within ?_ ?_ (fun _ _ => trivial) _ _ _
  · intro s op answer s' hop hs hstep
    exact (rests_of_query (isQuery_of_isPoll op hop) hstep).pending.trans hs
  · intro s answer s' hs hdone hstep
    exact ready_of_applied (hstep.2 hdone _ hs rfl rfl)

/-- The slow path returns only when the disk is attached as asked for. -/
theorem requestAttach_within : Prog.Within (disks cfg) (fun _ => True) (requestAttach cfg)
    (fun _ => Ready cfg) fun _ => True := by
  intro s _
  rw [requestAttach, Prog.bind_eq, Prog.wp_bind, Prog.wp_perform]
  intro answer s₁ hanswered
  cases answer with
  | error exc => trivial
  | ok resp =>
      rw [Prog.answered_ok, Prog.andThen_returned, Prog.wp_ite]
      split_ifs with hstatus
      · trivial
      · rcases hanswered with ⟨-, hrefused⟩ | ⟨operation, hpending, -, haccepted⟩
        · exact absurd (not_not.mp hstatus) (hrefused resp rfl)
        · rw [Prog.bind_eq, Prog.wp_bind, Prog.wp_ofExcept]
          cases hjson : resp.json with
          | error exc => trivial
          | ok op =>
              obtain ⟨hoperation, hname⟩ := (haccepted resp rfl).2 op hjson
              obtain ⟨opName, hopName⟩ := Option.ne_none_iff_exists'.mp hname
              have hasked : Asked cfg opName s₁ := by
                rw [Asked, hpending, hoperation, eq_of_nonempty? hopName]
              rw [Prog.answered_ok, Prog.andThen_returned]
              simp only [awaitNamed, hopName]
              exact waitZoneOp_within opName s₁ hasked

/-! ## Both paths -/

/-- A return without a request has changed nothing, and the node is seen to have the disk
in read-write mode; a return after a request has attached it. -/
theorem attachDiskRw_spec : Spec (diskStep cfg) (attachDiskRw cfg) fun s outcome log s' =>
    s.pending = none → outcome = .returned () →
      HolderQuery.Posts log ∧ Ready cfg s' ∨
      ¬ HolderQuery.Posts log ∧ s' = s ∧ Shown cfg s.attached cfg.cluster.nodeName := by
  have hlook : Spec (diskStep cfg) (currentRwHolder cfg) fun s outcome _ s' => s.pending = none →
      Prog.ending (fun holder s' => s' = s ∧ ∀ name, holder = some name →
        Shown cfg s.attached name) (fun _ => False) outcome s' := by
    rintro ⟨attached, pending⟩ trace outcome s' htrace hhistory hnone
    obtain rfl : pending = none := hnone
    exact Prog.trace_wp (currentRwHolder_triple attached _ rfl) htrace hhistory
  have hask : Spec (diskStep cfg) (requestAttach cfg) fun _ outcome log s' =>
      HolderQuery.Posts log ∧ Prog.bounding (fun _ => Ready cfg) (fun _ => True) outcome s' := by
    rintro s trace outcome s' htrace hhistory
    refine ⟨?_, Prog.trace_wp (requestAttach_within s trivial) htrace hhistory⟩
    cases htrace with
    | call hrest => exact ⟨_, List.mem_cons_self, trivial⟩
  refine Spec.of_wp fun s => ?_
  simp only [attachDiskRw, Prog.bind_eq, Prog.wp_bind]
  refine (hlook.with_calls (currentRwHolder_calls cfg)).wp ?_
  rintro outcome log s₁ ⟨hend, hlog⟩
  have hnone : ¬ HolderQuery.Posts log := HolderQuery.not_posts fun event hmem =>
    not_isAttachPost_of_isQuery event.op (hlog event hmem)
  cases outcome with
  | raised exc => exact fun _ houtcome => by cases houtcome
  | stuck => exact fun _ houtcome => by cases houtcome
  | returned holder =>
      rw [Prog.andThen_returned, Prog.wp_ite]
      split_ifs with hown
      · -- the shortcut
        intro hpending _
        obtain ⟨rfl, hshown⟩ := hend hpending
        exact .inr ⟨hnone, rfl, hshown _ hown⟩
      · rw [Prog.wp_except]
        refine hask.wp ?_
        rintro outcome log' s' ⟨hposts, hready⟩
        have hposts' : HolderQuery.Posts ([] ++ log ++ log') :=
          HolderQuery.posts_append.mpr (.inr hposts)
        cases outcome with
        | returned value => exact fun _ _ => .inl ⟨hposts', hready⟩
        | stuck => exact fun _ houtcome => by cases houtcome
        | raised exc =>
            rw [Prog.handled_raised, Prog.wp_ite]
            split_ifs <;> exact fun _ houtcome => by cases houtcome

/-- The attachments that the Compute API knows of. -/
def attachments (view : HolderQuery.GcpView) : Attachments := fun zone name =>
  (view.instances zone name).disks

/-- The look for the holder is shown `view` by the requests that are answered. -/
def attachStep (cfg : Config) (view : HolderQuery.GcpView) (available : HolderQuery.Availability)
    (s : DiskWorld × HolderQuery.Progress) (event : Event SysCall.Ret Exc)
    (s' : DiskWorld × HolderQuery.Progress) : Prop :=
  diskStep cfg s.1 event s'.1 ∧ HolderQuery.queryStep view available s.2 event s'.2

/-- The holder that the look finds: the first user of the disk whose instance is shown, and shows
the disk in read-write mode. -/
def foundHolder (cfg : Config) (view : HolderQuery.GcpView) (available : HolderQuery.Availability) :
    Option String :=
  (HolderQuery.visible cfg view available 0).head?

/-- **Both paths.**  From any attachments, and whichever requests of the look are answered, a normal
return has the disk attached under the configured name exactly when the look does not find this
node, or the disk was attached to it so before. -/
theorem ready_iff (cfg : Config) (view : HolderQuery.GcpView)
    (available : HolderQuery.Availability) (trace : List (Event SysCall.Ret Exc))
    (s' : DiskWorld × HolderQuery.Progress) (htrace : (attachDiskRw cfg).Trace trace (.returned ()))
    (hhistory : History (attachStep cfg view available)
    (⟨attachments view, none⟩, ⟨0, 0⟩) trace s') :
    Ready cfg s'.1 ↔ foundHolder cfg view available ≠ some cfg.cluster.nodeName ∨
      Ready cfg ⟨attachments view, none⟩ := by
  have hdisk : History (diskStep cfg) ⟨attachments view, none⟩ trace s'.1 :=
    hhistory.map Prod.fst fun _ _ _ _ h => h.1
  have hlook : History (HolderQuery.queryStep view available) ⟨0, 0⟩ trace s'.2 :=
    hhistory.map Prod.snd fun _ _ _ _ h => h.2
  -- the disk is asked for exactly when the look does not find this node
  have hposts : HolderQuery.Posts trace ↔
      foundHolder cfg view available ≠ some cfg.cluster.nodeName :=
    HolderQuery.attachDiskRw_spec _ _ _ _ htrace hlook
  rw [← hposts]
  rcases attachDiskRw_spec _ _ _ _ htrace hdisk rfl rfl with ⟨hasked, hready⟩ | ⟨hnone, hsame, -⟩
  · exact iff_of_true hready (.inl hasked)
  · rw [hsame]
    exact (or_iff_right hnone).symm

/-! ## Sample runs -/

section Sample

/-- Nobody is known to use the disk, and requests to attach it are carried out. -/
def serve : (op : SysCall) → DiskWorld → Except Exc op.Ret × DiskWorld
  | .gcp (.getInstance _ zone name), s =>
      (.ok (.ok ⟨some "RUNNING", s.attached zone name, []⟩), s)
  | .gcp (.attachDisk _ zone name payload), s =>
      (.ok (.ok ⟨some "operation-1", none, none⟩),
        { s with pending := some ⟨some "operation-1", zone, name, payload⟩ })
  | .gcp (.getOperation ..), s =>
      (.ok (.ok ⟨some "operation-1", some "DONE", none⟩),
        { s with attached := s.pending.elim s.attached (·.apply s.attached) })
  | .gcp (.getDisk ..), s | .gcp (.detachDisk ..), s | .gcp (.updateNetworkInterface ..), s =>
      (.error ⟨.requestException, "timed out"⟩, s)
  | .host call, s =>
      let node : DaemonState := ⟨{ name := "" }, 0, 0, "UNKNOWN", false, false, 0⟩
      (node.reply call, s)

theorem diskStep_serve (s : DiskWorld) (op : SysCall) :
    diskStep cfg s ⟨op, (serve op s).1⟩ (serve op s).2 := by
  have hrests : Rests s s := ⟨rfl, .inl rfl⟩
  cases op with
  | host call => exact hrests
  | gcp call =>
      cases call with
      | getDisk project region disk => exact ⟨hrests, fun disk hdisk => by cases hdisk⟩
      | getInstance project zone name =>
          refine ⟨hrests, fun inst hinst => ?_⟩
          cases hinst
          rfl
      | attachDisk project zone name payload =>
          refine .inr ⟨some "operation-1", rfl, .inl rfl, fun resp hresp => ?_⟩
          cases hresp
          refine ⟨rfl, fun op hop => ?_⟩
          cases hop
          exact ⟨rfl, by decide⟩
      | getOperation project zone operation =>
          obtain ⟨attached, pending⟩ := s
          cases pending with
          | none => exact ⟨⟨rfl, .inl rfl⟩, fun _ _ h => by cases h⟩
          | some attach =>
              refine ⟨⟨rfl, .inr ⟨attach, rfl, rfl⟩⟩, fun _ other hother _ _ => ?_⟩
              cases hother
              rfl
      | _ => exact hrests

/-- The disk is attached to nobody. -/
def detached : HolderQuery.GcpView where
  users := []
  instances _ _ := ⟨some "RUNNING", [], []⟩

/-- The same, for the look as well. -/
def serveLook (op : SysCall) (s : DiskWorld × HolderQuery.Progress) :
    Except Exc op.Ret × (DiskWorld × HolderQuery.Progress) :=
  ((serve op s.1).1, (serve op s.1).2,
    match op with
    | .gcp (.getDisk ..) => ⟨s.2.queries + 1, 0⟩
    | _ => s.2)

/-- The attachment of a disk that is attached to nobody. -/
def slow : Run SysCall.Ret Exc Unit (DiskWorld × HolderQuery.Progress) :=
  (attachDiskRw .samplePrimary).run serveLook (⟨attachments detached, none⟩, ⟨0, 0⟩)

/-- The operations that the attachment performs. -/
def performed : SysCall → Bool
  | .gcp (.getDisk ..) | .gcp (.attachDisk ..) | .gcp (.getOperation ..) | .host .monotonic => true
  | _ => false

theorem attachStep_serveLook (s : DiskWorld × HolderQuery.Progress) (op : SysCall)
    (hop : performed op = true) :
    attachStep cfg detached HolderQuery.diskUnavailable s ⟨op, (serveLook op s).1⟩
      (serveLook op s).2 := by
  refine ⟨diskStep_serve s.1 op, ?_⟩
  cases op with
  | host call =>
      cases call with
      | monotonic => rfl
      | _ => cases hop
  | gcp call =>
      cases call with
      | getDisk => exact ⟨rfl, _, rfl⟩
      | attachDisk => rfl
      | getOperation => rfl
      | _ => cases hop

/-- The node asks for the disk, and gets it under the configured name. -/
theorem ready_slow : Ready .samplePrimary slow.final.1 := by
  have htrace : (attachDiskRw .samplePrimary).Trace slow.log slow.outcome := trace_run _ _ _
  have houtcome : slow.outcome = .returned () := by decide
  rw [houtcome] at htrace
  have hhistory : History (attachStep .samplePrimary detached HolderQuery.diskUnavailable)
      (⟨attachments detached, none⟩, ⟨0, 0⟩) slow.log slow.final :=
    history_run_of_log attachStep_serveLook _ _ (by decide)
  refine (ready_iff .samplePrimary detached _ slow.log slow.final htrace hhistory).mpr (.inl ?_)
  exact fun hfound => by cases hfound

/-- The disk has been attached to the node by hand, under the default name. -/
def byHand : Attachments := fun zone name =>
  if zone = "us-central1-a" ∧ name = "pg-primary" then
    [⟨some (diskSelfLink .samplePrimary), some "READ_WRITE", some "persistent-disk-1"⟩]
  else []

theorem uses_byHand (name : String) :
    Uses .samplePrimary ⟨byHand, none⟩ name ↔ name = "pg-primary" := by
  constructor
  · rintro ⟨zone, disk, hmem, -⟩
    by_contra hname
    simp [byHand, hname] at hmem
  · rintro rfl
    exact ⟨"us-central1-a", _, List.mem_singleton_self _, rfl⟩

/-- The node is known to use the disk. -/
def known : (op : SysCall) → DiskWorld → Except Exc op.Ret × DiskWorld
  | .gcp (.getDisk ..), s => (.ok (.ok ⟨["zones/us-central1-a/instances/pg-primary"]⟩), s)
  | op, s => serve op s

/-- The attachment finds the disk attached. -/
def fast : Run SysCall.Ret Exc Unit DiskWorld :=
  (attachDiskRw .samplePrimary).run known ⟨byHand, none⟩

theorem history_fast : History (diskStep .samplePrimary) ⟨byHand, none⟩ fast.log
    ⟨byHand, none⟩ := by
  have hrests : Rests ⟨byHand, none⟩ ⟨byHand, none⟩ := ⟨rfl, .inl rfl⟩
  have hlook : diskStep .samplePrimary ⟨byHand, none⟩
      ⟨.gcp (.getDisk "my-gcp-project" "us-central1" "pg-regional-disk"),
        .ok (.ok ⟨["zones/us-central1-a/instances/pg-primary"]⟩)⟩ ⟨byHand, none⟩ := by
    refine ⟨hrests, fun disk hdisk name => ?_⟩
    cases hdisk
    have hsegment : lastSegment "zones/us-central1-a/instances/pg-primary" = "pg-primary" := by
      decide
    rw [uses_byHand, List.map_singleton, List.mem_singleton, hsegment]
  exact .cons hlook (.cons (diskStep_serve _ _) (.nil _))

/-- The shortcut leaves the disk under the name by which it was found. -/
theorem not_ready : ¬ ∀ cfg attached trace s', (attachDiskRw cfg).Trace trace (.returned ()) →
    History (diskStep cfg) ⟨attached, none⟩ trace s' → Ready cfg s' := by
  intro h
  have htrace : (attachDiskRw .samplePrimary).Trace fast.log fast.outcome := trace_run _ _ _
  have hready := h .samplePrimary byHand fast.log ⟨byHand, none⟩ htrace history_fast
  have hmissing : entryOf (attachPayload .samplePrimary) ∉ byHand "us-central1-a" "pg-primary" := by
    decide
  exact hmissing hready

end Sample

end PgHa.DeviceName

import Mathlib.Data.List.Induction
import PgHa.Cluster.Cloud

/-!
# Who serves next

A cluster from its first start through any number of switchovers, failures of the
database, crashes of the machine that serves and of the one that stands by.
`succession` says that each of them can always take place, that it leaves exactly
one node that serves and one that stands by, that it is the right one, and that no
run of a daemon on the way raises or hangs.

What is assumed is in the definitions: the configurations fit (`Deployed`), the
cluster does what it is asked (`Cloud.cloud`), and one thing happens at a time
(`Undergoes`).
-/

namespace PgHa.Succession

open Effect Behaviour Service Cloud

variable {cfg : Site → Config}

/-! ## What happens -/

/-- The configurations of the two nodes fit, and the mount point is a word that a line of
`/proc/mounts` can show. -/
structure Deployed (cfg : Site → Config) : Prop where
  mirrored : Mirrored cfg
  shown : ∀ i, ∃ line, DiskManager.mountsAt (cfg i).gcp.diskMountPoint line = true
  token : ∀ i, (cfg i.other).cluster.peerAuthToken = (cfg i).cluster.peerAuthToken
  timeout : ∀ i, 0 < (cfg i).gcp.apiTimeout
  bound : ∀ i, 0 < (cfg i).loopBound

/-- Before a run, both daemons may have noted anything but a change of what they say of
themselves. -/
structure Rests (w w' : World) : Prop where
  node : ∀ i, (w'.vm i).daemon.node = (w.vm i).daemon.node
  up : ∀ i, (w'.vm i).up = (w.vm i).up
  mounted : ∀ i, (w'.vm i).mounted = (w.vm i).mounted
  postgres : ∀ i, (w'.vm i).postgres = (w.vm i).postgres
  inst : w'.inst = w.inst
  url : w'.url = w.url

/-- A run of a thread of the daemon at `site`, over the requests and the commands of its
managers. -/
def Runs (cfg : Site → Config) (site : Site) (program : Mgr Unit) (t : Moment World)
    (outcome : Outcome Exc Unit) (t' : Moment World) : Prop :=
  ∃ t₀ trace, Rests t.state t₀.state ∧
    (program.lower (managers (cfg site))).Trace trace outcome ∧
    History (cloud cfg site).Step t₀ trace t'

/-- The database stops, and the daemon notes of that what it notes. -/
def Fails (site : Site) (w w' : World) : Prop :=
  ∃ daemon mounted, daemon.node.role = (w.vm site).daemon.node.role ∧
    w' = w.setVm site { w.vm site with daemon, mounted, postgres := false }

/-- The machine goes down, and with it what ran there; the API can tell. -/
def Crashes (site : Site) (w w' : World) : Prop :=
  ∃ daemon status, status ≠ "UNKNOWN" ∧
    w' = (w.setVm site ⟨daemon, false, false, false⟩).set site
      { w.inst site with status := some status }

/-- The machine comes up again, with nothing mounted and nothing running. -/
def Boots (site : Site) (w w' : World) : Prop :=
  ∃ daemon status, w' = (w.setVm site ⟨daemon, true, false, false⟩).set site
    { w.inst site with status := some status }

inductive Change
  /-- A switchover that is asked for. -/
  | switchover
  /-- A failure of the database that serves. -/
  | failure
  /-- A crash of the machine that serves. -/
  | crash
  /-- A crash of the machine that stands by. -/
  | restart

/-- Who serves after the change. -/
def Change.successor : Change → Site → Site
  | .restart, site => site
  | _, site => site.other

/-- A change of a cluster in which the node at `site` serves: what happens to the machines, and
the runs of the daemons that follow, with their outcomes. -/
inductive Undergoes (cfg : Site → Config) (site : Site) :
    Change → Moment World → List (Outcome Exc Unit) → Moment World → Prop
  | switchover {t t₁ t₂ : Moment World} {first second : Outcome Exc Unit}
      (handing : Runs cfg site (PgHaDaemon.runSwitchover (cfg site)) t first t₁)
      (taking : Runs cfg site.other
      (PgHaDaemon.runSwitchoverAsStandby (cfg site.other)) t₁ second t₂) :
      Undergoes cfg site .switchover t [first, second] t₂
  | failure {t t₁ t₂ t₃ : Moment World} {first second : Outcome Exc Unit}
      (failing : Fails site t.state t₁.state)
      (demoting : Runs cfg site (PgHaDaemon.selfDemoteAfterPgFailure (cfg site)) t₁ first t₂)
      (taking : Runs cfg site.other (PgHaDaemon.runFailover (cfg site.other) true) t₂ second t₃) :
      Undergoes cfg site .failure t [first, second] t₃
  | crash {t t₁ t₂ t₃ t₄ : Moment World} {first second : Outcome Exc Unit}
      (crashing : Crashes site t.state t₁.state)
      (taking : Runs cfg site.other (PgHaDaemon.runFailover (cfg site.other) false) t₁ first t₂)
      (booting : Boots site t₂.state t₃.state)
      (starting : Runs cfg site (PgHaDaemon.startup (cfg site)) t₃ second t₄) :
      Undergoes cfg site .crash t [first, second] t₄
  | restart {t t₁ t₂ t₃ : Moment World} {first : Outcome Exc Unit}
      (crashing : Crashes site.other t.state t₁.state)
      (booting : Boots site.other t₁.state t₂.state)
      (starting : Runs cfg site.other (PgHaDaemon.startup (cfg site.other)) t₂ first t₃) :
      Undergoes cfg site .restart t [first] t₃

/-- The life of a cluster: the node at `site` starts, the other one starts, and then one change
follows on the other. -/
inductive Lives (cfg : Site → Config) (site : Site) (t : Moment World) :
    List Change → List (Outcome Exc Unit) → Site → Moment World → Prop
  | start {t₁ t₂ : Moment World} {first second : Outcome Exc Unit}
      (winning : Runs cfg site (PgHaDaemon.startup (cfg site)) t first t₁)
      (joining : Runs cfg site.other (PgHaDaemon.startup (cfg site.other)) t₁ second t₂) :
      Lives cfg site t [] [first, second] site t₂
  | next {changes : List Change} {change : Change} {past outcomes : List (Outcome Exc Unit)}
      {serving : Site} {t₁ t₂ : Moment World} (before : Lives cfg site t changes past serving t₁)
      (now : Undergoes cfg serving change t₁ outcomes t₂) :
      Lives cfg site t (changes ++ [change]) (past ++ outcomes) (change.successor serving) t₂

/-- One node serves, and the other one stands by. -/
structure Serving (cfg : Site → Config) (site : Site) (w : World) : Prop where
  sane : Sane cfg w
  serves : Serves (w.pair cfg) site

/-- The node is about to join the other one, which serves. -/
def Joins (site : Site) (x : Pair) : Prop := Survives x site.other ∧ ∀ i, x.up i = true

/-- No run raises or hangs. -/
def Smooth (outcomes : List (Outcome Exc Unit)) : Prop :=
  ∀ outcome ∈ outcomes, outcome = .returned ()

/-! ## One run -/

section Run

variable {site : Site} {program : Mgr Unit} {t t' : Moment World} {outcome : Outcome Exc Unit}
  {P Q : Pair → Prop}

theorem alike_of_rests {w w' : World} (h : Rests w w') : Alike (w.pair cfg) (w'.pair cfg) := by
  refine ⟨fun i => ?_, funext h.up, ?_⟩
  · refine Prod.ext (h.node i) (funext fun r => ?_)
    cases r with
    | vip => exact congrArg (fun inst : Site → Instance => World.hasVip (cfg i) (inst i)) h.inst
    | disk =>
        exact congrArg (fun inst : Site → Instance => DiskManager.showsRw (cfg i) (inst i)) h.inst
    | postgres => exact h.postgres i
    | filesystem => exact h.mounted i
  · exact funext fun i =>
      congrArg (fun inst : Site → Instance => (inst i).status.getD "UNKNOWN") h.inst

theorem sane_of_rests {w w' : World} (h : Rests w w') (hs : Sane cfg w) : Sane cfg w' := by
  obtain ⟨ours, single, nic, url⟩ := hs
  rw [← h.inst] at ours single nic
  rw [← h.url] at url
  exact ⟨ours, single, nic, url⟩

/-- A thread that leads the pair from the one to the other, whatever has been noted before. -/
structure Leads (cfg : Site → Config) (site : Site) (program : Mgr Unit)
    (P Q : Pair → Prop) : Prop where
  returns : ∀ x, P x → Prog.Returns (serving cfg site) (Is x) program fun _ s => Q s.state
  alike : ∀ x x', P x → Alike x x' → P x'

/-- What a thread does to the pair, its run does to the cluster. -/
theorem lowered_wp (hd : Deployed cfg) (h : Leads cfg site program P Q)
    (hs : Sane cfg t.state) (hP : P (t.state.pair cfg)) :
    (program.lower (managers (cfg site))).wp (cloud cfg site).transformer
      (fun outcome t' => outcome = .returned () ∧ Sane cfg t'.state ∧ Q (t'.state.pair cfg)) t := by
  have hrefine := @managers_refine cfg site hd.mirrored (hd.bound site)
  have hwp := hrefine.wp_lower (s := ⟨t.state.pair cfg, t.now⟩) (t := t) ⟨rfl, rfl, hs⟩
    (h.returns _ hP _ rfl)
  refine Prog.wp_mono transformer_monotone (fun outcome t' hend => ?_) hwp
  obtain ⟨s', ⟨hstate, -, hs'⟩, hout⟩ := hend
  cases outcome with
  | returned value => exact ⟨rfl, hs', hstate ▸ hout⟩
  | _ => exact hout.elim

theorem ends_of_runs (hd : Deployed cfg) (h : Leads cfg site program P Q) (hs : Sane cfg t.state)
    (hP : P (t.state.pair cfg)) (hrun : Runs cfg site program t outcome t') :
    outcome = .returned () ∧ Sane cfg t'.state ∧ Q (t'.state.pair cfg) := by
  obtain ⟨t₀, trace, hrests, htrace, hhistory⟩ := hrun
  have hP₀ := h.alike _ _ hP (alike_of_rests hrests)
  have hwp := lowered_wp (t := t₀) hd h (sane_of_rests hrests hs) hP₀
  exact Prog.trace_wp (Prog.wp_of_guarded hwp) htrace hhistory

end Run

/-! ## What happens to the machines -/

section Events

variable {site : Site} {w w' : World}

/-- Another state of a machine, and another status of its instance. -/
def replaced (w : World) (i : Site) (vm : Vm) (status : String) : World :=
  (w.setVm i vm).set i { w.inst i with status := some status }

theorem sane_replaced (hs : Sane cfg w) (i : Site) (vm : Vm) (status : String) :
    Sane cfg (replaced w i vm status) :=
  (hs.setVm i vm).set (i := i) (hs.ours i) (hs.nic i) (hs.single i)

theorem node_replaced (cfg : Site → Config) (w : World) (i : Site) (vm : Vm) (status : String) :
    ((replaced w i vm status).pair cfg).node i =
      { daemon := vm.daemon
        held := fun
          | .postgres => vm.postgres
          | .filesystem => vm.mounted
          | r => ((w.pair cfg).node i).held r } := by
  have hvm : (replaced w i vm status).vm i = vm := if_pos rfl
  have hinst : (replaced w i vm status).inst i =
      { w.inst i with status := some status } := if_pos rfl
  refine congr (congrArg NodeWorld.mk (congrArg Vm.daemon hvm)) (funext fun r => ?_)
  cases r with
  | postgres => exact congrArg Vm.postgres hvm
  | filesystem => exact congrArg Vm.mounted hvm
  | vip => exact (congrArg (World.hasVip (cfg i)) hinst).trans rfl
  | disk => exact (congrArg (DiskManager.showsRw (cfg i)) hinst).trans rfl

theorem node_replaced_other (cfg : Site → Config) {i j : Site} (hij : j ≠ i) (w : World) (vm : Vm)
    (status : String) :
    ((replaced w i vm status).pair cfg).node j = (w.pair cfg).node j :=
  node_eq (if_neg hij) (if_neg hij)

theorem up_replaced (cfg : Site → Config) (w : World) (i : Site) (vm : Vm) (status : String) :
    ((replaced w i vm status).pair cfg).up i = vm.up := congrArg Vm.up (if_pos rfl)

theorem up_replaced_other (cfg : Site → Config) {i j : Site} (hij : j ≠ i) (w : World) (vm : Vm)
    (status : String) :
    ((replaced w i vm status).pair cfg).up j = (w.pair cfg).up j := congrArg Vm.up (if_neg hij)

theorem status_replaced (cfg : Site → Config) (w : World) (i : Site) (vm : Vm) (status : String) :
    ((replaced w i vm status).pair cfg).status i = status :=
  congrArg (fun inst : Instance => inst.status.getD "UNKNOWN") (if_pos rfl)

theorem broken_of_fails (hs : Sane cfg w) (h : Serves (w.pair cfg) site)
    (hfails : Fails site w w') :
    Sane cfg w' ∧ Broken (w'.pair cfg) site := by
  obtain ⟨daemon, mounted, hrole, rfl⟩ := hfails
  have hself := setVm_vm w site { w.vm site with daemon, mounted, postgres := false }
  have hother := setVm_vm_other w site.other_ne
      { w.vm site with daemon, mounted, postgres := false }
  refine ⟨hs.setVm _ _, forall_of_other site ?_ ?_, ?_, ?_⟩
  · exact (congrArg Vm.up hself).trans (h.up site)
  · exact (congrArg Vm.up hother).trans (h.up site.other)
  · have hdaemon := congrArg (fun vm : Vm => vm.daemon.node.role) hself
    exact hdaemon.trans (hrole.trans h.serving.role)
  · rw [node_eq hother rfl]
    exact h.standby

theorem bereft_of_crashes (hs : Sane cfg w) (h : Serves (w.pair cfg) site)
    (hcrashes : Crashes site w w') : Sane cfg w' ∧ Bereft (w'.pair cfg) site.other := by
  obtain ⟨daemon, status, hstatus, rfl⟩ := hcrashes
  refine ⟨sane_replaced hs site ⟨daemon, false, false, false⟩ status, ?_⟩
  have hnode := node_replaced cfg w site ⟨daemon, false, false, false⟩ status
  have hother := node_replaced_other cfg site.other_ne w ⟨daemon, false, false, false⟩ status
  refine ⟨?_, ?_, ?_, ?_, ?_, ?_⟩
  · exact (up_replaced_other cfg site.other_ne w _ status).trans (h.up _)
  · rw [Site.other_other site]
    exact up_replaced cfg w site _ status
  · rw [Site.other_other site]
    exact (status_replaced cfg w site _ status).symm ▸ hstatus
  · exact hother.symm ▸ h.standby
  · rw [Site.other_other site]
    exact congrArg (fun node : NodeWorld => node.held .filesystem) hnode
  · rw [Site.other_other site]
    exact congrArg (fun node : NodeWorld => node.held .postgres) hnode

theorem joins_of_boots (hs : Sane cfg w) (h : Survives (w.pair cfg) site.other)
    (hboots : Boots site w w') : Sane cfg w' ∧ Joins site (w'.pair cfg) := by
  obtain ⟨daemon, status, rfl⟩ := hboots
  have hnode := node_replaced cfg w site ⟨daemon, true, false, false⟩ status
  have hother := node_replaced_other cfg site.other_ne w ⟨daemon, true, false, false⟩ status
  have hup := (up_replaced_other cfg site.other_ne w ⟨daemon, true, false, false⟩ status).trans
    h.up
  refine ⟨sane_replaced hs site _ status, ⟨hup, hother.symm ▸ h.serving, fun r => ?_⟩,
    forall_of_other site (up_replaced cfg w site _ status) hup⟩
  have hheld := h.free r
  rw [Site.other_other site] at hheld ⊢
  refine (congrArg (fun node : NodeWorld => node.held r) hnode).trans ?_
  cases r with
  | postgres => rfl
  | filesystem => rfl
  | _ => exact hheld

/-- A standby that goes down and comes up again has lost nothing that the cluster needs. -/
theorem joins_of_restart {w₁ w₂ : World} (hs : Sane cfg w) (h : Serves (w.pair cfg) site)
    (hcrashes : Crashes site.other w w₁) (hboots : Boots site.other w₁ w₂) :
    Sane cfg w₂ ∧ Joins site.other (w₂.pair cfg) := by
  obtain ⟨daemon, status, -, rfl⟩ := hcrashes
  have hsane := sane_replaced hs site.other ⟨daemon, false, false, false⟩ status
  have hne : site ≠ site.other := site.other_ne.symm
  have hnode := node_replaced cfg w site.other ⟨daemon, false, false, false⟩ status
  have hself := node_replaced_other cfg hne w ⟨daemon, false, false, false⟩ status
  have hup := up_replaced_other cfg hne w ⟨daemon, false, false, false⟩ status
  have hsurvives : Survives ((replaced w site.other ⟨daemon, false, false, false⟩ status).pair cfg)
      site.other.other := by
    rw [Site.other_other site]
    refine ⟨hup.trans (h.up _), hself.symm ▸ h.serving, fun r => ?_⟩
    refine (congrArg (fun node : NodeWorld => node.held r) hnode).trans ?_
    cases r with
    | postgres => rfl
    | filesystem => rfl
    | vip => exact h.standby.held .vip
    | disk => exact h.standby.held .disk
  exact joins_of_boots hsane hsurvives hboots

end Events

/-! ## One change -/

section Changes

variable {site : Site} {t t' : Moment World} {change : Change} {outcomes : List (Outcome Exc Unit)}

theorem nodeName_ne (hd : Deployed cfg) (i : Site) :
    (cfg i.other).cluster.nodeName ≠ (cfg i).cluster.nodeName :=
  fun h => i.other_ne (hd.mirrored.nodeName_injective h)

theorem runSwitchover_leads (hd : Deployed cfg) (site : Site) :
    Leads cfg site (PgHaDaemon.runSwitchover (cfg site)) (Serves · site) Vacant :=
  ⟨fun _ h => runSwitchover_vacates (hd.bound site) (hd.token site) h, fun _ _ h => h.of_alike⟩

theorem runSwitchoverAsStandby_leads (site : Site) :
    Leads cfg site (PgHaDaemon.runSwitchoverAsStandby (cfg site)) Vacant (Serves · site) :=
  ⟨fun _ h => runSwitchoverAsStandby_serves h, fun _ _ h => h.of_alike⟩

theorem selfDemote_leads (site : Site) :
    Leads cfg site (PgHaDaemon.selfDemoteAfterPgFailure (cfg site)) (Broken · site) Vacant :=
  ⟨fun _ h => selfDemote_vacates h, fun _ _ h => h.of_alike⟩

theorem unfenced_leads (site : Site) :
    Leads cfg site (PgHaDaemon.runFailover (cfg site) true) Vacant (Serves · site) :=
  ⟨fun _ h => runFailover_serves h, fun _ _ h => h.of_alike⟩

theorem fenced_leads (site : Site) :
    Leads cfg site (PgHaDaemon.runFailover (cfg site) false) (Bereft · site) (Survives · site) :=
  ⟨fun _ h => runFailover_survives h, fun _ _ h => h.of_alike⟩

theorem joining_leads (hd : Deployed cfg) (site : Site) :
    Leads cfg site (PgHaDaemon.startup (cfg site)) (Joins site) (Serves · site.other) :=
  ⟨fun _ h => startup_serves (nodeName_ne hd site) h.2 h.1,
    fun _ _ h hsame => ⟨h.1.of_alike hsame, fun i => hsame.up ▸ h.2 i⟩⟩

theorem winning_leads (site : Site) :
    Leads cfg site (PgHaDaemon.startup (cfg site)) Empty (Joins site.other) := by
  refine ⟨fun _ h => ?_, fun _ _ h => h.of_alike⟩
  unfold Joins
  rw [Site.other_other]
  exact startup_survives h

/-- A change of a cluster that serves leaves one that serves. -/
theorem serving_of_undergoes (hd : Deployed cfg) (h : Serving cfg site t.state)
    (hchange : Undergoes cfg site change t outcomes t') :
    Smooth outcomes ∧ Serving cfg (change.successor site) t'.state := by
  obtain ⟨hs, hserves⟩ := h
  cases hchange with
  | switchover handing taking =>
      obtain ⟨rfl, hs₁, hvacant⟩ := ends_of_runs hd (runSwitchover_leads hd site) hs hserves handing
      obtain ⟨rfl, hs₂, hend⟩ :=
        ends_of_runs hd (runSwitchoverAsStandby_leads site.other) hs₁ hvacant taking
      exact ⟨by simp [Smooth], hs₂, hend⟩
  | failure failing demoting taking =>
      obtain ⟨hs₁, hbroken⟩ := broken_of_fails hs hserves failing
      obtain ⟨rfl, hs₂, hvacant⟩ := ends_of_runs hd (selfDemote_leads site) hs₁ hbroken demoting
      obtain ⟨rfl, hs₃, hend⟩ := ends_of_runs hd (unfenced_leads site.other) hs₂ hvacant taking
      exact ⟨by simp [Smooth], hs₃, hend⟩
  | crash crashing taking booting starting =>
      obtain ⟨hs₁, hbereft⟩ := bereft_of_crashes hs hserves crashing
      obtain ⟨rfl, hs₂, hsurvives⟩ := ends_of_runs hd (fenced_leads site.other) hs₁ hbereft taking
      obtain ⟨hs₃, hjoins⟩ := joins_of_boots hs₂ hsurvives booting
      obtain ⟨rfl, hs₄, hend⟩ := ends_of_runs hd (joining_leads hd site) hs₃ hjoins starting
      exact ⟨by simp [Smooth], hs₄, hend⟩
  | restart crashing booting starting =>
      obtain ⟨hs₂, hjoins⟩ := joins_of_restart hs hserves crashing booting
      obtain ⟨rfl, hs₃, hend⟩ := ends_of_runs hd (joining_leads hd site.other) hs₂ hjoins starting
      rw [Site.other_other] at hend
      exact ⟨by simp [Smooth], hs₃, hend⟩

/-- Both daemons have started. -/
theorem serving_of_start (hd : Deployed cfg) (hs : Sane cfg t.state)
    (hempty : Empty (t.state.pair cfg)) {t₁ : Moment World} {first second : Outcome Exc Unit}
    (winning : Runs cfg site (PgHaDaemon.startup (cfg site)) t first t₁)
    (joining : Runs cfg site.other (PgHaDaemon.startup (cfg site.other)) t₁ second t') :
    Smooth [first, second] ∧ Serving cfg site t'.state := by
  obtain ⟨rfl, hs₁, hjoins⟩ := ends_of_runs hd (winning_leads site) hs hempty winning
  obtain ⟨rfl, hs₂, hend⟩ := ends_of_runs hd (joining_leads hd site.other) hs₁ hjoins joining
  rw [Site.other_other] at hend
  exact ⟨by simp [Smooth], hs₂, hend⟩

/-- So does a whole life; by induction on the changes. -/
theorem serving_of_lives (hd : Deployed cfg) (hs : Sane cfg t.state)
    (hempty : Empty (t.state.pair cfg)) {changes : List Change} {serving : Site}
    (hlives : Lives cfg site t changes outcomes serving t') :
    Smooth outcomes ∧ Serving cfg serving t'.state := by
  induction hlives with
  | start winning joining => exact serving_of_start hd hs hempty winning joining
  | next before now ih =>
      obtain ⟨hpast, hserving⟩ := ih
      obtain ⟨hnow, hend⟩ := serving_of_undergoes hd hserving now
      refine ⟨fun outcome hmem => ?_, hend⟩
      rcases List.mem_append.mp hmem with hmem | hmem
      · exact hpast outcome hmem
      · exact hnow outcome hmem

end Changes

/-! ## Every change can take place -/

section Progress

variable {site : Site} {program : Mgr Unit} {t : Moment World} {P Q : Pair → Prop}

theorem exists_answer_gcp (hm : Mirrored cfg) (w : World) (call : GcpCall) :
    ∃ answer, w.AnswersRequest cfg call answer := by
  cases call with
  | getDisk project region disk => exact ⟨.ok (.ok ⟨w.users cfg⟩), fun _ _ => rfl⟩
  | getInstance project zone name =>
      by_cases hprimary : (project, zone, name) = address cfg .primary
      · refine ⟨.ok (.ok (w.inst .primary)), fun i hi => ?_⟩
        rw [address_injective hm (hi.symm.trans hprimary)]
      · refine ⟨.ok (.ok (w.inst .standby)), fun i hi => ?_⟩
        cases i with
        | primary => exact absurd hi hprimary
        | standby => rfl
  | getOperation project zone operation =>
    exact ⟨.ok (.ok ⟨none, some "DONE", none⟩), _, rfl, rfl, rfl⟩
  | attachDisk project zone name payload =>
    exact ⟨.ok (.ok ⟨none, none, none⟩), fun _ _ _ => ⟨_, rfl⟩⟩
  | detachDisk project zone name device => exact ⟨.ok (.ok ⟨none, none, none⟩), fun _ _ => ⟨_, rfl⟩⟩
  | updateNetworkInterface project zone name nic payload =>
      exact ⟨.ok (.ok ⟨none, none, none⟩), fun _ _ _ _ _ => ⟨_, rfl⟩⟩

/-- What a host answers that does what it is asked, at a given time. -/
def hostReply (cfg : Site → Config) (site : Site) (w : World) (now : Int) (line : String) :
    (call : HostCall) → Except Exc call.Ret
  | .monotonic => .ok now
  | .readMounts => .ok (if (w.vm site).mounted then [line] else [])
  | .pathExists _ => .ok true
  | .run (.pgCtlStatus ..) => .ok ⟨if (w.vm site).postgres then 0 else 3, "", ""⟩
  | .createConnection .. =>
      if (w.pair cfg).up site.other then .ok () else .error ⟨.osError, "no route to host"⟩
  | call => (w.vm site).daemon.reply call

theorem answersHost_hostReply {w : World} {now : Int} {line : String}
    (hline : DiskManager.mountsAt (cfg site).gcp.diskMountPoint line = true) (call : HostCall) :
    w.AnswersHost cfg site call (hostReply cfg site w now line call) := by
  cases call with
  | readMounts =>
      refine ⟨_, rfl, ?_⟩
      cases (w.vm site).mounted <;> simp [hline]
  | listdir path => exact fun _ => ⟨_, rfl⟩
  | pathExists path => exact ⟨true, rfl, fun _ _ => rfl⟩
  | run command =>
      cases command with
      | pgCtlStatus osUser pgCtl dataDir =>
          refine ⟨_, rfl, ?_⟩
          cases (w.vm site).postgres <;> rfl
      | systemctl verb service => trivial
      | pgCtlStop osUser pgCtl dataDir mode timeout => exact ⟨_, rfl⟩
      | _ => exact ⟨_, rfl, rfl⟩
  | createConnection host port timeout =>
      -- the peer answers when its machine is up
      have hpeer : (w.pair cfg).PeerAnswers cfg site (.createConnection host port timeout)
          (hostReply cfg site w now line (.createConnection host port timeout)) := by
        cases hup : (w.pair cfg).up site.other with
        | true => simp [Pair.PeerAnswers, hostReply, hup]
        | false => simp [Pair.PeerAnswers, hostReply, hup, Exc.isOSError]
      exact hpeer
  | recvReply => exact fun _ _ => ⟨_, rfl, rfl⟩
  | sendRequest request => exact fun _ => rfl
  | sleep time => exact rfl
  | _ => trivial

/-- The daemon's own state has an answer, if the lock is free. -/
theorem answers_hostReply {w : World} {now : Int} {line : String} {call : HostCall}
    (hready : (cloud cfg site).ready w (.host call)) :
    (w.vm site).daemon.Answers call (hostReply cfg site w now line call) := by
  have hreply : (w.vm site).daemon.Answers call ((w.vm site).daemon.reply call) := by
    refine DaemonState.answers_reply _ call ?_
    rintro blocking rfl
    exact hready
  cases call with
  | monotonic => exact ⟨now, rfl⟩
  | run command => trivial
  | _ => exact hreply

theorem exists_step (hd : Deployed cfg) (t : Moment World) {op : SysCall}
    (hready : (cloud cfg site).ready t.state op) :
    ∃ answer t', (cloud cfg site).Step t ⟨op, answer⟩ t' := by
  cases op with
  | gcp call =>
      obtain ⟨answer, hanswer⟩ := exists_answer_gcp hd.mirrored t.state call
      exact ⟨answer, ⟨(cloud cfg site).done t.state (.gcp call), t.now⟩, hanswer, rfl, trivial⟩
  | host call =>
      obtain ⟨line, hline⟩ := hd.shown site
      refine ⟨hostReply cfg site t.state t.now line call,
        ⟨(cloud cfg site).done t.state (.host call), t.now⟩,
        ⟨answers_hostReply hready, answersHost_hostReply hline call⟩, rfl, ?_⟩
      cases call with
      | monotonic =>
          have htimeout := hd.timeout site
          have hpatience : 0 < patience (cfg site) := by
            unfold patience
            omega
          exact ⟨rfl, show t.now < t.now + patience (cfg site) by omega⟩
      | _ => trivial

theorem rests_refl (w : World) : Rests w w :=
  ⟨fun _ => rfl, fun _ => rfl, fun _ => rfl, fun _ => rfl, rfl, rfl⟩

/-- A thread that leads anywhere on the pair has a run on the cluster. -/
theorem exists_runs (hd : Deployed cfg) (h : Leads cfg site program P Q) (hs : Sane cfg t.state)
    (hP : P (t.state.pair cfg)) : ∃ outcome t', Runs cfg site program t outcome t' ∧
      Sane cfg t'.state ∧ Q (t'.state.pair cfg) := by
  obtain ⟨trace, outcome, t', htrace, hhistory⟩ :=
    Prog.exists_trace (fun t op hready => exists_step hd t hready) (lowered_wp hd h hs hP)
  have hrun : Runs cfg site program t outcome t' := ⟨t, trace, rests_refl t.state, htrace, hhistory⟩
  exact ⟨outcome, t', hrun, (ends_of_runs hd h hs hP hrun).2⟩

theorem exists_fails (site : Site) (t : Moment World) :
    ∃ t' : Moment World, Fails site t.state t'.state :=
  ⟨⟨_, t.now⟩, (t.state.vm site).daemon, false, rfl, rfl⟩

theorem exists_crashes (site : Site) (t : Moment World) :
    ∃ t' : Moment World, Crashes site t.state t'.state :=
  ⟨⟨_, t.now⟩, (t.state.vm site).daemon, "TERMINATED", by decide, rfl⟩

theorem exists_boots (site : Site) (t : Moment World) :
    ∃ t' : Moment World, Boots site t.state t'.state :=
  ⟨⟨_, t.now⟩, (t.state.vm site).daemon, "RUNNING", rfl⟩

/-- From a cluster that serves, every change can take place. -/
theorem exists_undergoes (hd : Deployed cfg) (h : Serving cfg site t.state) (change : Change) :
    ∃ outcomes t', Undergoes cfg site change t outcomes t' := by
  obtain ⟨hs, hserves⟩ := h
  cases change with
  | switchover =>
      obtain ⟨first, t₁, handing, hs₁, hvacant⟩ :=
        exists_runs hd (runSwitchover_leads hd site) hs hserves
      obtain ⟨second, t₂, taking, -⟩ :=
        exists_runs hd (runSwitchoverAsStandby_leads site.other) hs₁ hvacant
      exact ⟨_, t₂, .switchover handing taking⟩
  | failure =>
      obtain ⟨t₁, hfails⟩ := exists_fails site t
      obtain ⟨hs₁, hbroken⟩ := broken_of_fails hs hserves hfails
      obtain ⟨first, t₂, demoting, hs₂, hvacant⟩ :=
        exists_runs hd (selfDemote_leads site) hs₁ hbroken
      obtain ⟨second, t₃, taking, -⟩ := exists_runs hd (unfenced_leads site.other) hs₂ hvacant
      exact ⟨_, t₃, .failure hfails demoting taking⟩
  -- the machine comes back only after the peer has taken over
  | crash =>
      obtain ⟨t₁, hcrashes⟩ := exists_crashes site t
      obtain ⟨hs₁, hbereft⟩ := bereft_of_crashes hs hserves hcrashes
      obtain ⟨first, t₂, taking, hs₂, hsurvives⟩ :=
        exists_runs hd (fenced_leads site.other) hs₁ hbereft
      obtain ⟨t₃, hboots⟩ := exists_boots site t₂
      obtain ⟨hs₃, hjoins⟩ := joins_of_boots hs₂ hsurvives hboots
      obtain ⟨second, t₄, starting, -⟩ := exists_runs hd (joining_leads hd site) hs₃ hjoins
      exact ⟨_, t₄, .crash hcrashes taking hboots starting⟩
  | restart =>
      obtain ⟨t₁, hcrashes⟩ := exists_crashes site.other t
      obtain ⟨t₂, hboots⟩ := exists_boots site.other t₁
      obtain ⟨hs₂, hjoins⟩ := joins_of_restart hs hserves hcrashes hboots
      obtain ⟨first, t₃, starting, -⟩ := exists_runs hd (joining_leads hd site.other) hs₂ hjoins
      exact ⟨_, t₃, .restart hcrashes hboots starting⟩

/-- Every sequence of changes can take place; by induction on the changes, the last one last. -/
theorem exists_lives (hd : Deployed cfg) (hs : Sane cfg t.state) (hempty : Empty (t.state.pair cfg))
    (site : Site) (changes : List Change) :
    ∃ outcomes serving t', Lives cfg site t changes outcomes serving t' := by
  induction changes using List.reverseRecOn with
  | nil =>
      obtain ⟨first, t₁, winning, hs₁, hjoins⟩ := exists_runs hd (winning_leads site) hs hempty
      obtain ⟨second, t₂, joining, -⟩ := exists_runs hd (joining_leads hd site.other) hs₁ hjoins
      exact ⟨_, _, t₂, .start winning joining⟩
  | append_singleton changes change ih =>
      obtain ⟨past, serving, t₁, before⟩ := ih
      obtain ⟨outcomes, t₂, now⟩ :=
        exists_undergoes hd (serving_of_lives hd hs hempty before).2 change
      exact ⟨_, _, t₂, .next before now⟩

end Progress

/-- Who serves after the changes. -/
def heir (changes : List Change) (site : Site) : Site :=
  changes.foldl (fun serving change => change.successor serving) site

theorem heir_of_lives {site serving : Site} {t t' : Moment World} {changes : List Change}
    {outcomes : List (Outcome Exc Unit)} (h : Lives cfg site t changes outcomes serving t') :
    serving = heir changes site := by
  induction h with
  | start => rfl
  | next before now ih => rw [heir, List.foldl_append, List.foldl_cons, List.foldl_nil, ih, heir]

/-- **From an empty cluster, every sequence of changes can take place, and whichever way it does,
no run of a daemon raises or hangs, and at its end the heir serves and its peer stands by.** -/
theorem succession (hd : Deployed cfg) {t : Moment World} (hs : Sane cfg t.state)
    (hempty : Empty (t.state.pair cfg)) (site : Site) (changes : List Change) :
    (∃ outcomes serving t', Lives cfg site t changes outcomes serving t') ∧
    ∀ outcomes serving t', Lives cfg site t changes outcomes serving t' →
      Smooth outcomes ∧ serving = heir changes site ∧ Serving cfg serving t'.state := by
  refine ⟨exists_lives hd hs hempty site changes, fun outcomes serving t' hlives => ?_⟩
  obtain ⟨hsmooth, hserving⟩ := serving_of_lives hd hs hempty hlives
  exact ⟨hsmooth, heir_of_lives hlives, hserving⟩

/-! ## A cluster that has just been set up -/

/-- The machines run, and nothing else does. -/
def sampleWorld : World where
  vm i :=
    { daemon :=
        { node := { name := (sampleSites i).cluster.nodeName }, attempts := 0, lastAttemptTs := 0,
          peerInstanceStatus := "", switchoverActive := false, failoverLocked := false,
          lastDemotionTs := 0 }
      up := true
      mounted := false
      postgres := false }
  inst _ := ⟨some "RUNNING", [], [⟨some "nic0", some "fp", []⟩]⟩
  url i := "https://www.googleapis.com/compute/v1/projects/my-gcp-project/zones/" ++
    (sampleSites i).myZone ++ "/instances/" ++ (sampleSites i).cluster.nodeName
  request := none

theorem deployed_sampleSites : Deployed sampleSites where
  mirrored := mirrored_sampleSites
  shown i := ⟨"/dev/sdb /pgdata xfs rw 0 0", by cases i <;> decide +kernel⟩
  token i := by cases i <;> rfl
  timeout i := by cases i <;> decide
  bound i := by cases i <;> decide

theorem sane_sampleWorld : Sane sampleSites sampleWorld where
  ours i disk hmem := by cases hmem
  single i hshows := by cases hshows
  nic i := by cases i <;> exact ⟨_, rfl⟩
  url i := by cases i <;> decide +kernel

theorem empty_sampleWorld : Empty (sampleWorld.pair sampleSites) where
  up _ := rfl
  free i r := by cases i <;> cases r <;> rfl

theorem succession_sample :
    (∃ outcomes serving t', Lives sampleSites .primary ⟨sampleWorld, 0⟩
      [.switchover, .failure, .restart, .crash] outcomes serving t') ∧
    ∀ outcomes serving t', Lives sampleSites .primary ⟨sampleWorld, 0⟩
      [.switchover, .failure, .restart, .crash] outcomes serving t' →
      Smooth outcomes ∧ serving = .standby ∧ Serving sampleSites serving t'.state :=
  succession deployed_sampleSites sane_sampleWorld empty_sampleWorld .primary _

end PgHa.Succession

import PgHa.Gcp.Footprint
import PgHa.Effect.Threads

/-!
# Clusters that share an interface

The daemons of several clusters run on the same pair of machines, each with an
alias address of its own, and add and remove these addresses on the same
interface.  An update carries the whole alias list and the fingerprint of the
interface, and the Compute API accepts it only with the current fingerprint.

`_patch_nic_aliases` answers a refusal by fetching the interface again.  It
takes over the new fingerprint, but not the new alias list, so the update that
is then accepted still carries the list that the operation read first
(`not_aliases_after`).  As long as no accepted update carries a list that has
changed since it was read, nothing is lost (`aliases_after`).
-/

namespace PgHa.AliasRace

open Effect NetworkManager

variable {ι : Type} [DecidableEq ι]

/-- The interface that the clusters share. -/
structure SharedNic where
  instanceName : String
  zone : String
  nicName : String

/-- The clusters use the interface, each for an address of its own. -/
structure Sharing (cfg : ι → Config) (nic : SharedNic) : Prop where
  nicName : ∀ i, (cfg i).gcp.nicName = nic.nicName
  vipCidr_injective : ∀ i j, (cfg i).gcp.vipCidr = (cfg j).gcp.vipCidr → i = j

/-- The interface as the Compute API has it, and the alias list that each
operation has read first. -/
structure NicState (ι : Type) where
  aliases : List (Option String)
  fingerprint : String
  firstRead : ι → Option (List (Option String))

/-- Operation `i` reads the interface. -/
def NicState.read (s : NicState ι) (i : ι) : NicState ι :=
  { s with firstRead := Function.update s.firstRead i (some ((s.firstRead i).getD s.aliases)) }

/-- An update is accepted only with the current fingerprint, and is answered
412 with any other one.  When it is accepted, it replaces the alias list and
changes the fingerprint. -/
def Updated (s : NicState ι) (payload : NicPayload) (answer : Except Exc (Response Operation))
    (s' : NicState ι) : Prop :=
  (payload.fingerprint = s.fingerprint ∧
    (∀ resp, answer = .ok resp → resp.statusCode = 200) ∧ s'.aliases = payload.aliasIpRanges ∧
    s'.fingerprint ≠ s.fingerprint ∧ s'.firstRead = s.firstRead) ∨
  (s' = s ∧ ∀ resp, answer = .ok resp → resp.statusCode ≠ 200 ∧
    (payload.fingerprint ≠ s.fingerprint → resp.statusCode = 412))

/-- A request of cluster `i`.  Requests may fail; a GET of the instance that
succeeds is truthful. -/
def aliasStep (nic : SharedNic) (i : ι) (s : NicState ι) (event : Event SysCall.Ret Exc)
    (s' : NicState ι) : Prop :=
  match event with
  | ⟨.gcp (.getInstance _ zone name), answer⟩ =>
      if name = nic.instanceName ∧ zone = nic.zone then
        s' = s.read i ∧ ∀ found, nicIn name nic.nicName answer = .ok found →
          cidrs found = s.aliases ∧ found.fingerprint.getD "" = s.fingerprint
      else s' = s
  | ⟨.gcp (.updateNetworkInterface _ zone name nicName payload), answer⟩ =>
      if name = nic.instanceName ∧ zone = nic.zone ∧ nicName = nic.nicName then
        Updated s payload answer s'
      else s' = s
  | _ => s' = s

/-- The operations of all clusters over the Compute API. -/
def aliasSystem (nic : SharedNic) : System ι SysCall.Ret Exc Unit (NicState ι) where
  step := aliasStep nic
  fork _ _ _ _ _ _ := False
  arrive _ _ _ _ := False
  env _ _ := False

/-- Cluster `i` adds its address or removes it. -/
def aliasOperation (cfg : ι → Config) (nic : SharedNic) (adds : ι → Bool) (i : ι) : Sys Unit :=
  if adds i then addAliasIp (cfg i) nic.instanceName nic.zone
  else removeAliasIp (cfg i) nic.instanceName nic.zone

def aliasStart (cfg : ι → Config) (nic : SharedNic) (adds : ι → Bool)
    (aliases : List (Option String)) (fingerprint : String) :
    Threads ι SysCall.Ret Exc Unit (NicState ι) where
  shared := ⟨aliases, fingerprint, fun _ => none⟩
  prog := aliasOperation cfg nic adds

/-- An update that can be accepted finds the alias list as its operation has
read it first. -/
def readUnchanged (i : ι) (s : NicState ι) (event : Event SysCall.Ret Exc) : Prop :=
  match event with
  | ⟨.gcp (.updateNetworkInterface _ _ _ _ payload), answer⟩ =>
      payload.fingerprint = s.fingerprint → (∀ resp, answer = .ok resp → resp.statusCode = 200) →
        s.firstRead i = some s.aliases
  | _ => True

/-! ## The list that an update carries -/

/-- The address of cluster `i`, as an entry of an alias list. -/
def vip (cfg : ι → Config) (i : ι) : Option String := some (cfg i).gcp.vipCidr

/-- An alias list after an address has been added or removed. -/
def edited (add : Bool) (cidr : Option String) (ranges : List (Option String)) :
    List (Option String) :=
  if add then ranges ++ [cidr] else ranges.filter (· ≠ cidr)

theorem mem_edited_self (add : Bool) (cidr : Option String) (ranges : List (Option String)) :
    cidr ∈ edited add cidr ranges ↔ add = true := by
  cases add <;> simp [edited]

theorem mem_edited_of_ne (add : Bool) {cidr other : Option String} (h : other ≠ cidr)
    (ranges : List (Option String)) : other ∈ edited add cidr ranges ↔ other ∈ ranges := by
  cases add <;> simp [edited, h]

/-! ## The contract -/

variable {cfg : ι → Config} {nic : SharedNic} {adds : ι → Bool} {aliases : List (Option String)}

/-- Nobody touches the entries that belong to no cluster, and a cluster can
rely on the others not touching its own address. -/
def aliasContract (cfg : ι → Config) (nic : SharedNic) (adds : ι → Bool)
    (aliases : List (Option String)) :
    Contract ((aliasSystem (ι := ι) nic).restrict readUnchanged) where
  inv s := ∀ cidr, (∀ i, cidr ≠ vip cfg i) → (cidr ∈ s.aliases ↔ cidr ∈ aliases)
  rely i s s' := (vip cfg i ∈ s'.aliases ↔ vip cfg i ∈ s.aliases) ∧ s'.firstRead i = s.firstRead i
  refl _ _ := ⟨Iff.rfl, rfl⟩
  trans _ _ _ _ h h' := ⟨h'.1.trans h.1, h'.2.trans h.2⟩
  start _ _ _ := False
  post i outcome s := outcome = .returned () → (vip cfg i ∈ s.aliases ↔ adds i = true)
  stable _ _ _ _ hrely _ hpost houtcome := hrely.1.trans (hpost houtcome)

/-- The transformer of cluster `i` among the others. -/
abbrev sharer (cfg : ι → Config) (nic : SharedNic) (adds : ι → Bool)
    (aliases : List (Option String)) (i : ι) : Transformer SysCall.Ret Exc (NicState ι) :=
  (aliasContract cfg nic adds aliases).thread i

/-- What an operation that changes nothing leaves behind. -/
theorem read_or_same_of_query {i : ι} {s s' : NicState ι} {event : Event SysCall.Ret Exc}
    (hop : isQuery event.op) (hstep : aliasStep nic i s event s') : s' = s.read i ∨ s' = s := by
  obtain ⟨op, answer⟩ := event
  rcases op with (_ | _ | _ | _ | _ | _) | _
  case gcp.getInstance =>
    simp only [aliasStep] at hstep
    split_ifs at hstep
    · exact .inl hstep.1
    · exact .inr hstep
  case gcp.updateNetworkInterface => exact hop.elim
  all_goals exact .inr hstep

theorem rely_read {i j : ι} (hj : j ≠ i) (s : NicState ι) :
    (aliasContract cfg nic adds aliases).rely j s (s.read i) :=
  ⟨Iff.rfl, Function.update_of_ne hj _ _⟩

/-- One request of cluster `i`, from states that the other clusters do not
leave. -/
theorem sharer_of_step {i : ι} {op : SysCall} (assertion : NicState ι → Prop)
    {post : Except Exc op.Ret → NicState ι → Prop} {s : NicState ι} (hs : assertion s)
    (hrely : ∀ s s', assertion s → (aliasContract cfg nic adds aliases).rely i s s' →
      assertion s')
    (hstep : ∀ s₁, assertion s₁ → (aliasContract cfg nic adds aliases).inv s₁ → ∀ answer s₂,
      readUnchanged i s₁ ⟨op, answer⟩ → aliasStep nic i s₁ ⟨op, answer⟩ s₂ →
        (aliasContract cfg nic adds aliases).inv s₂ ∧
        (∀ j, j ≠ i → (aliasContract cfg nic adds aliases).rely j s₁ s₂) ∧ post answer s₂) :
    sharer cfg nic adds aliases i op post s :=
  Contract.thread_of_step assertion hs (fun s₁ s₂ h₁ h _ => hrely s₁ s₂ h₁ h)
    (fun _ _ _ _ _ h => h.2)
    fun s₁ h₁ hinv answer s₂ h => hstep s₁ h₁ hinv answer s₂ h.1 h.2

/-- A query keeps what reading the interface keeps. -/
theorem sharer_of_query {i : ι} (assertion : NicState ι → Prop)
    (hrely : ∀ s s', assertion s → (aliasContract cfg nic adds aliases).rely i s s' →
      assertion s')
    (hread : ∀ s, assertion s → assertion (s.read i)) (op : SysCall) (hop : isQuery op)
    (s : NicState ι) (hs : assertion s) :
    sharer cfg nic adds aliases i op (fun _ s' => assertion s') s := by
  apply sharer_of_step assertion hs hrely
  intro s₁ h₁ hinv answer s₂ _ hstep
  rcases read_or_same_of_query hop hstep with rfl | rfl
  · exact ⟨hinv, fun j hj => rely_read hj s₁, hread s₁ h₁⟩
  · exact ⟨hinv, fun j _ => (aliasContract cfg nic adds aliases).refl j _, h₁⟩

/-- Cluster `i` has what it wants. -/
def Settled (cfg : ι → Config) (adds : ι → Bool) (i : ι) (s : NicState ι) : Prop :=
  vip cfg i ∈ s.aliases ↔ adds i = true

theorem settled_wp {i : ι} {program : Sys Unit} (hcalls : program.Calls isQuery)
    {s : NicState ι} (hs : Settled cfg adds i s) :
    program.wp (sharer cfg nic adds aliases i)
      (fun outcome s' => outcome = .returned () → Settled cfg adds i s') s :=
  Prog.wp_of_calls ((aliasContract cfg nic adds aliases).thread_monotone i)
    (sharer_of_query (Settled cfg adds i) (fun _ _ h hrely => hrely.1.trans h) fun _ h => h)
    hcalls hs fun _ _ h _ => h

/-- Fetching the interface of the instance. -/
theorem getNic_wp (hshare : Sharing cfg nic) {i : ι} {s : NicState ι}
    {post : Outcome Exc Nic → NicState ι → Prop} (assertion : NicState ι → Prop)
    (hs : assertion s)
    (hrely : ∀ s s', assertion s → (aliasContract cfg nic adds aliases).rely i s s' →
      assertion s')
    (hreturned : ∀ s' found, assertion s' → cidrs found = s'.aliases →
      post (.returned found) (s'.read i))
    (hraised : ∀ s' exc, post (.raised exc) s') :
    (getNic (cfg i) nic.instanceName nic.zone).wp (sharer cfg nic adds aliases i) post s := by
  rw [getNic_eq_call, Prog.wp_call, hshare.nicName i]
  apply sharer_of_step assertion hs hrely
  intro s₁ h₁ hinv answer s₂ _ hstep
  obtain ⟨rfl, htruth⟩ := (if_pos ⟨rfl, rfl⟩).mp hstep
  refine ⟨hinv, fun j hj => rely_read hj s₁, ?_⟩
  rw [Prog.wp_ofExcept]
  cases hfound : nicIn nic.instanceName nic.nicName answer with
  | error exc => exact hraised _ exc
  | ok found => exact hreturned s₁ found h₁ (htruth found hfound).1

/-- An update that carries the list that was read first, with the own address
added or removed, changes nothing else when it is accepted. -/
theorem update_wp (hshare : Sharing cfg nic) {i : ι} {ranges : List (Option String)}
    {project fingerprint : String} {s : NicState ι} (hs : s.firstRead i = some ranges)
    {post : Except Exc (Response Operation) → NicState ι → Prop}
    (haccepted : ∀ answer s', Settled cfg adds i s' →
      (∀ resp, answer = .ok resp → resp.statusCode = 200) → post answer s')
    (hrefused : ∀ answer s', s'.firstRead i = some ranges →
      (∀ resp, answer = .ok resp → resp.statusCode ≠ 200) → post answer s') :
    sharer cfg nic adds aliases i (.gcp (.updateNetworkInterface project nic.zone nic.instanceName
      (cfg i).gcp.nicName ⟨edited (adds i) (vip cfg i) ranges, fingerprint⟩)) post s := by
  rw [hshare.nicName i]
  apply sharer_of_step (fun s => s.firstRead i = some ranges) hs
    (fun _ _ h hrely => hrely.2.trans h)
  intro s₁ h₁ hinv answer s₂ hallowed hstep
  rcases (if_pos ⟨rfl, rfl, rfl⟩).mp hstep with
    ⟨hcurrent, hstatus, haliases, -, hread⟩ | ⟨rfl, hstatus⟩
  · -- the list that was read is the list that the interface has
    have hranges : s₁.aliases = ranges :=
      Option.some.inj ((hallowed hcurrent hstatus).symm.trans h₁)
    refine ⟨fun cidr hcidr => ?_, fun j hj => ⟨?_, by rw [hread]⟩, haccepted _ _ ?_ hstatus⟩
    · rw [haliases, mem_edited_of_ne _ (hcidr i), ← hranges]
      exact hinv cidr hcidr
    · have hne : vip cfg j ≠ vip cfg i := fun h =>
        hj (hshare.vipCidr_injective j i (Option.some.inj h))
      rw [haliases, mem_edited_of_ne _ hne, ← hranges]
    · rw [Settled, haliases]
      exact mem_edited_self _ _ _
  · refine ⟨hinv, fun j _ => (aliasContract cfg nic adds aliases).refl j _, ?_⟩
    exact hrefused answer _ h₁ fun resp h => (hstatus resp h).1

theorem read_firstRead {i : ι} {ranges : List (Option String)} {s : NicState ι}
    (h : s.firstRead i = some ranges) : (s.read i).firstRead i = some ranges := by
  simp [NicState.read, h]

/-- The retry loop, by induction on the attempts that are left: until an
update is accepted, the operation still carries the list it has read first. -/
theorem patchFrom_wp (hshare : Sharing cfg nic) {i : ι} {ranges : List (Option String)}
    {maxRetries : ℕ} (left : ℕ) (hleft : left ≠ 0) (fingerprint : String) {s : NicState ι}
    (hs : s.firstRead i = some ranges) :
    (patchFrom (cfg i) nic.instanceName nic.zone (edited (adds i) (vip cfg i) ranges) maxRetries
      fingerprint left).wp (sharer cfg nic adds aliases i)
      (fun outcome s' => outcome = .returned () → Settled cfg adds i s') s := by
  have hmono := (aliasContract cfg nic adds aliases).thread_monotone i
  have hrely (s s' : NicState ι) (h : s.firstRead i = some ranges)
      (hrely : (aliasContract cfg nic adds aliases).rely i s s') : s'.firstRead i = some ranges :=
    hrely.2.trans h
  induction left generalizing fingerprint s with
  | zero => exact absurd rfl hleft
  | succ left ih =>
      simp only [patchFrom, Prog.bind_eq, Prog.wp_bind, Prog.wp_perform]
      apply update_wp hshare hs
      · -- the update is accepted, and what follows only waits
        intro answer s₁ hsettled hstatus
        cases answer with
        | error exc => exact fun h => by cases h
        | ok resp =>
            rw [Prog.answered_ok, Prog.andThen_returned, if_pos (hstatus resp rfl)]
            apply settled_wp _ hsettled
            refine .bind (Prog.calls_ofExcept _) fun op => ?_
            cases nonempty? op.name with
            | none => trivial
            | some opName =>
                exact .perform_bind trivial fun _ => (pollZoneOp_calls ..).mono isQuery_of_isPoll
      · -- it is refused: the fingerprint is read again, the list is not
        intro answer s₁ hread hstatus
        cases answer with
        | error exc => exact fun h => by cases h
        | ok resp =>
            rw [Prog.answered_ok, Prog.andThen_returned, if_neg (hstatus resp rfl), Prog.wp_ite]
            split_ifs with hretry
            · have hleft' : left ≠ 0 := by omega
              rw [Prog.wp_bind, Prog.wp_perform]
              apply hmono _ _ _ _ _ (sharer_of_query (fun s => s.firstRead i = some ranges) hrely
                (fun _ => read_firstRead) (.host (.sleep _)) trivial s₁ hread)
              intro slept s₂ h₂
              cases slept with
              | error exc => exact fun h => by cases h
              | ok _ =>
                  rw [Prog.answered_ok, Prog.andThen_returned, Prog.wp_bind]
                  apply getNic_wp hshare (fun s => s.firstRead i = some ranges) h₂ hrely
                  · intro s₃ freshNic h₃ _
                    exact ih hleft' _ (read_firstRead h₃)
                  · intro s₃ exc h
                    cases h
            · intro h
              cases h

omit [DecidableEq ι] in
/-- Adding and removing are one read, and an update and a last look if the
list is not yet as it should be. -/
theorem aliasOperation_eq (i : ι) :
    aliasOperation cfg nic adds i =
      (getNic (cfg i) nic.instanceName nic.zone).bind fun found =>
        if vip cfg i ∈ cidrs found ↔ adds i = true then .pure ()
        else (patchNicAliases (cfg i) nic.instanceName nic.zone found
          (edited (adds i) (vip cfg i) (cidrs found))).bind fun _ =>
            verifyAlias (cfg i) nic.instanceName nic.zone := by
  unfold aliasOperation
  cases hadds : adds i with
  | true =>
      simp only [if_true, iff_true]
      rfl
  | false =>
      simp only [Bool.false_eq_true, if_false, iff_false]
      rfl

/-- The operation of a cluster, from its first read on. -/
theorem aliasOperation_wp (hshare : Sharing cfg nic) {i : ι} {s : NicState ι}
    (hs : s.firstRead i = none) :
    (aliasContract cfg nic adds aliases).Safe i (aliasOperation cfg nic adds i) s := by
  have hmono := (aliasContract cfg nic adds aliases).thread_monotone i
  unfold Contract.Safe
  rw [aliasOperation_eq, Prog.wp_bind]
  apply getNic_wp hshare (fun s => s.firstRead i = none) hs
    (fun s s' h hrely => hrely.2.trans h)
  · intro s₁ found h₁ hcidrs
    rw [Prog.andThen_returned, Prog.wp_ite]
    split_ifs with hdone
    · intro _
      rwa [hcidrs] at hdone
    · have hread : (s₁.read i).firstRead i = some (cidrs found) := by
        simp [NicState.read, h₁, hcidrs]
      rw [Prog.wp_bind]
      apply Prog.wp_mono hmono _ (patchFrom_wp hshare 3 (by omega) _ hread)
      intro outcome s₂ hsettled
      cases outcome with
      | returned value =>
          have hcalls : (verifyAlias (cfg i) nic.instanceName nic.zone).Calls isQuery :=
            .bind (getNic_calls ..) fun _ => trivial
          exact settled_wp hcalls (hsettled rfl)
      | raised exc => exact fun h => by cases h
      | stuck => exact fun h => by cases h
  · intro s₁ exc h
    cases h

theorem aliasContract_holds : (aliasContract cfg nic adds aliases).Holds where
  start _ _ _ _ h := h.elim
  arrive _ _ _ _ _ h := h.elim
  env _ _ _ h := h.elim

/-- **No lost update.**  When the operations of all clusters have returned, and
every accepted update has carried a list that was still the one of the
interface, each address is on the interface exactly when its cluster has added
it, and every other entry is where it was. -/
theorem aliases_after (hshare : Sharing cfg nic) {fingerprint : String}
    {state : Threads ι SysCall.Ret Exc Unit (NicState ι)}
    (hrun : ((aliasSystem nic).restrict readUnchanged).Reach
      (aliasStart cfg nic adds aliases fingerprint) state)
    (hreturned : ∀ i, (state.prog i).outcome? = some (.returned ())) :
    (∀ i, some (cfg i).gcp.vipCidr ∈ state.shared.aliases ↔ adds i = true) ∧
    ∀ cidr, (∀ i, cidr ≠ some (cfg i).gcp.vipCidr) →
      (cidr ∈ state.shared.aliases ↔ cidr ∈ aliases) := by
  have hsound : (aliasContract cfg nic adds aliases).Sound state :=
    aliasContract_holds.reach hrun ⟨fun _ _ => Iff.rfl, fun i => aliasOperation_wp hshare rfl⟩
  exact ⟨fun i => hsound.ended (hreturned i) rfl, hsound.1⟩

/-! ## Two clusters on one interface -/

def sampleNic : SharedNic := ⟨"pg-primary", "us-central1-a", "nic0"⟩

/-- The sample cluster, and a second one with the next address. -/
def sampleClusters : Fin 2 → Config
  | 0 => .samplePrimary
  | 1 => { Config.samplePrimary with
      gcp := { Config.samplePrimary.gcp with vipCidr := "10.0.0.101/32" } }

theorem sharing_sampleClusters : Sharing sampleClusters sampleNic where
  nicName := by decide
  vipCidr_injective := by decide

/-- The instance of the interface. -/
def sampleInstance (s : NicState (Fin 2)) : Instance where
  status := some "RUNNING"
  disks := []
  networkInterfaces :=
    [⟨some "nic0", some s.fingerprint, s.aliases.map fun cidr => ⟨cidr, none, []⟩⟩]

/-- An environment in which only stale fingerprints are refused. -/
def answerNic (i : Fin 2) :
    (op : SysCall) → NicState (Fin 2) → Except Exc op.Ret × NicState (Fin 2)
  | .gcp (.getInstance _ zone name), s =>
      if name = "pg-primary" ∧ zone = "us-central1-a" then (.ok (.ok (sampleInstance s)), s.read i)
      else (.error ⟨.other, ""⟩, s)
  | .gcp (.updateNetworkInterface _ zone name nicName payload), s =>
      if name = "pg-primary" ∧ zone = "us-central1-a" ∧ nicName = "nic0" then
        if payload.fingerprint = s.fingerprint then
          (.ok (.ok ⟨none, none, none⟩),
            ⟨payload.aliasIpRanges, s.fingerprint ++ "1", s.firstRead⟩)
        else (.ok ⟨412, "conditionNotMet", .error ⟨.other, ""⟩⟩, s)
      else (.error ⟨.other, ""⟩, s)
  | .host (.sleep _), s => (.ok (), s)
  | _, s => (.error ⟨.other, ""⟩, s)

theorem cidrs_sampleInstance (s : NicState (Fin 2)) {name : String} {found : Nic}
    (h : nicIn name "nic0" (.ok (.ok (sampleInstance s))) = .ok found) :
    cidrs found = s.aliases ∧ found.fingerprint.getD "" = s.fingerprint := by
  have hfound : found = ⟨some "nic0", some s.fingerprint,
      s.aliases.map fun cidr => ⟨cidr, none, []⟩⟩ := by
    simpa [nicIn, sampleInstance, Except.bind, eq_comm] using h
  subst hfound
  simp [cidrs, Function.comp_def]

theorem aliasStep_answerNic (i : Fin 2) (s : NicState (Fin 2)) (op : SysCall) :
    aliasStep sampleNic i s ⟨op, (answerNic i op s).1⟩ (answerNic i op s).2 := by
  rcases op with call | call
  · cases call with
    | getInstance project zone name =>
        by_cases htarget : name = "pg-primary" ∧ zone = "us-central1-a"
        · simp only [aliasStep, sampleNic, answerNic, if_pos htarget]
          exact ⟨trivial, fun found => cidrs_sampleInstance s⟩
        · simp [aliasStep, sampleNic, answerNic, if_neg htarget]
    | updateNetworkInterface project zone name nicName payload =>
        by_cases htarget : name = "pg-primary" ∧ zone = "us-central1-a" ∧ nicName = "nic0"
        · by_cases hcurrent : payload.fingerprint = s.fingerprint
          · simp [aliasStep, sampleNic, answerNic, if_pos htarget, Updated,
              Response.ok, hcurrent]
          · simp [aliasStep, sampleNic, answerNic, if_pos htarget, if_neg hcurrent, Updated]
        · simp [aliasStep, sampleNic, answerNic, if_neg htarget]
    | _ => rfl
  · cases call <;> rfl

/-- Both clusters add their address. -/
abbrev bothAdd : Threads (Fin 2) SysCall.Ret Exc Unit (NicState (Fin 2)) :=
  aliasStart sampleClusters sampleNic (fun _ => true) [some "10.0.1.7/32"] "1"

/-- Stop before an update whose list is no longer the one of the interface. -/
def beforeStale (i : Fin 2) : SysCall → NicState (Fin 2) → Bool
  | .gcp (.updateNetworkInterface ..), s => s.firstRead i ≠ some s.aliases
  | _, _ => false

/-- One cluster after the other. -/
def inTurn : Threads (Fin 2) SysCall.Ret Exc Unit (NicState (Fin 2)) :=
  (bothAdd.advance (answerNic 0) (beforeStale 0) 0 20).advance (answerNic 1) (beforeStale 1) 1 20

theorem aliases_after_inTurn :
    some "10.0.0.100/32" ∈ inTurn.shared.aliases ∧
      some "10.0.0.101/32" ∈ inTurn.shared.aliases := by
  have hstep (i : Fin 2) (s : NicState (Fin 2)) (op : SysCall) (hop : beforeStale i op s = false) :
      ((aliasSystem sampleNic).restrict readUnchanged).step i s ⟨op, (answerNic i op s).1⟩
        (answerNic i op s).2 := by
    refine ⟨?_, aliasStep_answerNic i s op⟩
    rcases op with (_ | _ | _ | _ | _ | _) | _
    case gcp.updateNetworkInterface =>
      intro _ _
      simpa [beforeStale] using hop
    all_goals trivial
  have hafter := aliases_after sharing_sampleClusters
    ((System.Reach.advance .refl (hstep 0) 20).advance (hstep 1) 20 :
      ((aliasSystem sampleNic).restrict readUnchanged).Reach bothAdd inTurn) (by decide)
  exact ⟨(hafter.1 0).mpr rfl, (hafter.1 1).mpr rfl⟩

/-- The second cluster adds its address after the first one has read the
interface, and before it updates it. -/
def inBetween : Threads (Fin 2) SysCall.Ret Exc Unit (NicState (Fin 2)) :=
  ((bothAdd.advance (answerNic 0) (fun _ _ => false) 0 1).advance (answerNic 1)
    (fun _ _ => false) 1 20).advance (answerNic 0) (fun _ _ => false) 0 20

/-- Both operations return, and the address of the second cluster is gone. -/
theorem not_aliases_after : ¬ ∀ (cfg : Fin 2 → Config) (nic : SharedNic) (adds : Fin 2 → Bool)
    (aliases : List (Option String)) (fingerprint : String)
    (state : Threads (Fin 2) SysCall.Ret Exc Unit (NicState (Fin 2))), Sharing cfg nic →
      (aliasSystem nic).Reach (aliasStart cfg nic adds aliases fingerprint) state →
      (∀ i, (state.prog i).outcome? = some (.returned ())) →
      (∀ i, some (cfg i).gcp.vipCidr ∈ state.shared.aliases ↔ adds i = true) ∧
      ∀ cidr, (∀ i, cidr ≠ some (cfg i).gcp.vipCidr) →
        (cidr ∈ state.shared.aliases ↔ cidr ∈ aliases) := by
  intro h
  have hstep (i : Fin 2) (s : NicState (Fin 2)) (op : SysCall) (_ : false = false) :
      (aliasSystem sampleNic).step i s ⟨op, (answerNic i op s).1⟩ (answerNic i op s).2 :=
    aliasStep_answerNic i s op
  have hreach : (aliasSystem sampleNic).Reach bothAdd inBetween :=
    ((System.Reach.advance .refl (hstep 0) 1).advance (hstep 1) 20).advance (hstep 0) 20
  have hafter := h _ _ _ _ _ inBetween sharing_sampleClusters hreach (by decide)
  have hlost : some "10.0.0.101/32" ∉ inBetween.shared.aliases := by decide
  exact hlost ((hafter.1 1).mpr rfl)

end PgHa.AliasRace

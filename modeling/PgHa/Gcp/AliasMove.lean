import PgHa.Effect.Triple
import PgHa.Gcp.AliasRace
import PgHa.Gcp.Fencing

/-!
# Moving the address from one interface to the other

`acquire_vip` first looks at the peer's interface, removes the address there if the
look has shown it, and then adds it to the own interface.  A look that fails counts
as one that has not shown the address, so the own interface is given an address that
the peer still has (`moved_iff`).

An update carries the whole alias list, rebuilt from the CIDRs of its entries: the
entries of other addresses lose all their other fields (`preserves_iff`).
-/

namespace PgHa.AliasMove

open Effect NetworkManager

variable {cfg : Config}

/-- An instance in its zone. -/
structure Place where
  zone : String
  name : String
  deriving DecidableEq

/-- The alias list of the interface of each instance that has one. -/
abbrev AliasLists : Type := Place → Option (List AliasRange)

/-- An update that the Compute API has accepted. -/
structure Update where
  operation : Option String
  place : Place
  cidrs : List (Option String)

/-- The alias list that an update asks for: its entries have no fields but the CIDR. -/
def requested (cidrs : List (Option String)) : List AliasRange :=
  cidrs.map fun cidr => ⟨cidr, none, []⟩

def Update.apply (update : Update) (lists : AliasLists) : AliasLists :=
  Function.update lists update.place (some (requested update.cidrs))

/-- The interfaces as the Compute API has them.  `doubled` records that the address has
been sent to the own interface while the peer's carried it, and no request reads it. -/
structure NicWorld where
  lists : AliasLists
  pending : Option Update
  doubled : Bool

def own (cfg : Config) : Place := ⟨cfg.myZone, cfg.cluster.nodeName⟩

def peer (cfg : Config) : Place := ⟨cfg.peerZone, cfg.cluster.peerNode⟩

def vip (cfg : Config) : Option String := some cfg.gcp.vipCidr

/-- The CIDRs of an alias list. -/
def cidrsOf (ranges : List AliasRange) : List (Option String) := ranges.map (·.ipCidrRange)

/-- The instance has an interface that carries the address. -/
def Carries (cfg : Config) (lists : AliasLists) (place : Place) : Prop :=
  ∃ ranges, lists place = some ranges ∧ vip cfg ∈ cidrsOf ranges

/-- Nothing happens but that an accepted update may take effect. -/
structure Rests (s s' : NicWorld) : Prop where
  pending : s'.pending = s.pending
  doubled : s'.doubled = s.doubled
  lists : s'.lists = s.lists ∨ ∃ update, s.pending = some update ∧ s'.lists = update.apply s.lists

/-- An update is refused, or it is accepted: then its answer names the operation, if it
arrives, and the update takes effect now or later. -/
def Answered (s : NicWorld) (place : Place) (payload : NicPayload)
    (answer : Except Exc (Response Operation)) (s' : NicWorld) : Prop :=
  (s'.lists = s.lists ∧ s'.pending = s.pending ∧
    ∀ resp, answer = .ok resp → resp.statusCode ≠ 200) ∨
  ∃ update, update.place = place ∧ update.cidrs = payload.aliasIpRanges ∧
    s'.pending = some update ∧ (s'.lists = s.lists ∨ s'.lists = update.apply s.lists) ∧
    ∀ resp, answer = .ok resp → resp.statusCode = 200 ∧
      ∀ op, resp.json = .ok op → update.operation = op.name ∧ nonempty? op.name ≠ none

/-- Requests may fail at any time.  A GET of an instance that succeeds is truthful, an
update whose operation is polled as done has taken effect, and nobody else writes. -/
def nicStep (cfg : Config) (s : NicWorld) (event : Event SysCall.Ret Exc) (s' : NicWorld) : Prop :=
  match event with
  | ⟨.gcp (.getInstance _ zone name), answer⟩ =>
      Rests s s' ∧ ∀ inst, Response.fetched answer = .ok inst →
        s'.lists ⟨zone, name⟩ = (inst.networkInterfaces.find?
          (·.name == some cfg.gcp.nicName)).map (·.aliasIpRanges)
  | ⟨.gcp (.updateNetworkInterface _ zone name _ payload), answer⟩ =>
      (s'.doubled = true ↔ s.doubled = true ∨ (⟨zone, name⟩ : Place) = own cfg ∧
        vip cfg ∈ payload.aliasIpRanges ∧ Carries cfg s.lists (peer cfg)) ∧
      Answered s ⟨zone, name⟩ payload answer s'
  | ⟨.gcp (.getOperation _ zone opName), answer⟩ =>
      Rests s s' ∧ (Fencing.saysDone answer → ∀ update, s.pending = some update →
        update.operation = some opName → update.place.zone = zone →
          s'.lists = update.apply s.lists)
  | _ => Rests s s'

/-- The interfaces before a function is called: no update is on its way. -/
def start (lists : AliasLists) : NicWorld := ⟨lists, none, false⟩

/-! ## Adding and removing -/

/-- Add the address to an interface, or remove it. -/
def editAliasIp (cfg : Config) (adds : Bool) (name zone : String) : Sys Unit :=
  if adds then addAliasIp cfg name zone else removeAliasIp cfg name zone

/-- Both are one read, and an update and a last look if the list is not yet as it
should be. -/
theorem editAliasIp_eq (adds : Bool) (name zone : String) : editAliasIp cfg adds name zone =
    (getNic cfg name zone).bind fun found =>
      if vip cfg ∈ cidrs found ↔ adds = true then .pure ()
      else (patchNicAliases cfg name zone found
        (AliasRace.edited adds (vip cfg) (cidrs found))).bind fun _ => verifyAlias cfg name zone :=
  @AliasRace.aliasOperation_eq Unit (fun _ => cfg) ⟨name, zone, cfg.gcp.nicName⟩ (fun _ => adds) ()

theorem nicIn_eq_ok {name nicName : String} {answer : Except Exc (Response Instance)} {nic : Nic} :
    nicIn name nicName answer = .ok nic ↔ ∃ inst, Response.fetched answer = .ok inst ∧
      inst.networkInterfaces.find? (·.name == some nicName) = some nic := by
  unfold nicIn
  cases Response.fetched answer with
  | error exc => simp [Except.bind]
  | ok inst =>
      cases hfind : inst.networkInterfaces.find? (·.name == some nicName) <;>
        simp [Except.bind, hfind]

/-! ## While nothing is on its way -/

/-- The alias lists are these, and no update will change them. -/
structure Calm (lists : AliasLists) (s : NicWorld) : Prop where
  shows : s.lists = lists
  pending : ∀ update, s.pending = some update → update.apply lists = lists
  doubled : s.doubled = false

theorem calm_start (lists : AliasLists) : Calm lists (start lists) := ⟨rfl, by simp [start], rfl⟩

theorem Calm.rests {lists : AliasLists} {s s' : NicWorld} (hs : Calm lists s) (h : Rests s s') :
    Calm lists s' := by
  refine ⟨?_, fun update hupdate => hs.pending update (h.pending ▸ hupdate),
    h.doubled.trans hs.doubled⟩
  rcases h.lists with hsame | ⟨update, hupdate, happlied⟩
  · exact hsame.trans hs.shows
  · rw [happlied, hs.shows]
    exact hs.pending update hupdate

theorem rests_of_query {s s' : NicWorld} {event : Event SysCall.Ret Exc} (hop : isQuery event.op)
    (h : nicStep cfg s event s') : Rests s s' := by
  obtain ⟨op, answer⟩ := event
  cases op with
  | host call => exact h
  | gcp call =>
      cases call with
      | getInstance project zone name => exact h.1
      | getOperation project zone operation => exact h.1
      | updateNetworkInterface project zone name nic payload => exact hop.elim
      | _ => exact h

/-- What the requests of this node do to the interfaces. -/
abbrev nics (cfg : Config) : Transformer SysCall.Ret Exc NicWorld := demonic (nicStep cfg)

theorem nics_monotone : (nics cfg).Monotone := demonic_monotone _

/-- The address has not been doubled. -/
def Single (s : NicWorld) : Prop := s.doubled = false

/-- Queries leave everything as it is. -/
theorem calm_within {lists : AliasLists} {α : Type} {program : Sys α}
    (hcalls : program.Calls isQuery) :
    Prog.Within (nics cfg) (Calm lists) program (fun _ => Calm lists) Single := by
  apply Prog.Within.of_calls nics_monotone _ hcalls fun _ hs => hs.doubled
  intro op hop s hs answer s' hstep
  exact hs.rests (rests_of_query hop hstep)

/-- A look that succeeds shows the list. -/
theorem getNic_within (lists : AliasLists) (name zone : String) :
    Prog.Within (nics cfg) (Calm lists) (getNic cfg name zone)
      (fun found s => Calm lists s ∧ lists ⟨zone, name⟩ = some found.aliasIpRanges) Single := by
  intro s hs
  rw [getNic_eq_call, Prog.wp_call]
  intro answer s' hstep
  obtain ⟨hrests, htruth⟩ := hstep
  have hs' : Calm lists s' := hs.rests hrests
  rw [Prog.wp_ofExcept]
  cases hnic : nicIn name cfg.gcp.nicName answer with
  | error exc => exact hs'.doubled
  | ok nic =>
      obtain ⟨inst, hinst, hfind⟩ := nicIn_eq_ok.mp hnic
      refine ⟨hs', ?_⟩
      have hshown := htruth inst hinst
      rw [hs'.shows, hfind] at hshown
      exact hshown

/-! ## While an update is on its way -/

/-- The update has been accepted, and may have taken effect. -/
structure Underway (lists : AliasLists) (update : Update) (s : NicWorld) : Prop where
  shows : s.lists = lists ∨ s.lists = update.apply lists
  pending : s.pending = some update
  doubled : s.doubled = false

theorem Update.apply_apply (update : Update) (lists : AliasLists) :
    update.apply (update.apply lists) = update.apply lists := by
  unfold apply
  exact Function.update_idem _ _ _

theorem Underway.applied {lists : AliasLists} {update : Update} {s : NicWorld}
    (hs : Underway lists update s) : update.apply s.lists = update.apply lists := by
  rcases hs.shows with hsame | happlied
  · rw [hsame]
  · rw [happlied, update.apply_apply]

theorem Underway.rests {lists : AliasLists} {update : Update} {s s' : NicWorld}
    (hs : Underway lists update s) (h : Rests s s') : Underway lists update s' := by
  refine ⟨?_, h.pending.trans hs.pending, h.doubled.trans hs.doubled⟩
  rcases h.lists with hsame | ⟨update', hupdate, happlied⟩
  · rw [hsame]
    exact hs.shows
  · obtain rfl : update = update' := Option.some.inj (hs.pending.symm.trans hupdate)
    exact .inr (happlied.trans hs.applied)

/-- An update that has taken effect is over. -/
theorem Underway.calm {lists : AliasLists} {update : Update} {s : NicWorld}
    (hs : Underway lists update s) (hdone : s.lists = update.apply lists) :
    Calm (update.apply lists) s := by
  refine ⟨hdone, fun update' hupdate => ?_, hs.doubled⟩
  obtain rfl : update = update' := Option.some.inj (hs.pending.symm.trans hupdate)
  exact update.apply_apply lists

/-- Waiting for the operation of the update returns once the update has taken effect. -/
theorem waitZoneOp_within {lists : AliasLists} {update : Update} {opName zone : String}
    (hname : update.operation = some opName) (hzone : update.place.zone = zone) :
    Prog.Within (nics cfg) (Underway lists update) (waitZoneOp cfg opName zone)
      (fun _ => Calm (update.apply lists)) Single := by
  refine Fencing.waitZoneOp_within ?_ ?_ ?_ _ _ _
  · intro s op answer s' hop hs hstep
    exact hs.rests (rests_of_query (isQuery_of_isPoll op hop) hstep)
  · intro s answer s' hs hdone hstep
    apply (hs.rests hstep.1).calm
    rw [hstep.2 hdone update hs.pending hname hzone, hs.applied]
  · exact fun _ hs => hs.doubled

/-- What an update may carry: not the address for the own interface while the peer's
has it. -/
def Harmless (cfg : Config) (lists : AliasLists) (place : Place) (cidrs : List (Option String)) :
    Prop :=
  ¬ (place = own cfg ∧ vip cfg ∈ cidrs ∧ Carries cfg lists (peer cfg))

/-- The retry loop, by induction on the attempts that are left: it returns once an update
has been accepted and is done. -/
theorem patchFrom_within {lists : AliasLists} {name zone : String} {cidrs : List (Option String)}
    (hsafe : Harmless cfg lists ⟨zone, name⟩ cidrs) (maxRetries left : ℕ) (hleft : left ≠ 0)
    (fingerprint : String) : Prog.Within (nics cfg) (Calm lists)
      (patchFrom cfg name zone cidrs maxRetries fingerprint left)
      (fun _ => Calm (Function.update lists ⟨zone, name⟩ (some (requested cidrs)))) Single := by
  induction left generalizing fingerprint with
  | zero => exact absurd rfl hleft
  | succ left ih =>
      intro s hs
      simp only [patchFrom, Prog.bind_eq, Prog.wp_bind, Prog.wp_perform]
      intro answer s₁ hstep
      obtain ⟨hdoubled, hanswered⟩ := hstep
      have hsingle : s₁.doubled = false := by
        rw [Bool.eq_false_iff]
        intro h
        rcases hdoubled.mp h with hbefore | ⟨hown, hvip, hpeer⟩
        · rw [hs.doubled] at hbefore
          cases hbefore
        · exact hsafe ⟨hown, hvip, hs.shows ▸ hpeer⟩
      cases answer with
      | error exc => exact hsingle
      | ok resp =>
          rw [Prog.answered_ok, Prog.andThen_returned, Prog.wp_ite]
          rcases hanswered with ⟨hlists, hpending, hrefused⟩ | ⟨update, hplace, hcidrs, hpending,
            hlists, haccepted⟩
          · -- the update is refused, and the next attempt starts from a new look
            have hs₁ : Calm lists s₁ :=
              ⟨hlists.trans hs.shows, fun update h => hs.pending update (hpending ▸ h), hsingle⟩
            rw [if_neg (hrefused resp rfl), Prog.wp_ite]
            split_ifs with hretry
            · have hleft' : left ≠ 0 := by omega
              have hsleep : (Sys.host (.sleep (2000 * ((maxRetries - left : ℕ) : Int)))).Calls
                  isQuery := Prog.Calls.perform trivial
              have hagain := (calm_within hsleep).bind nics_monotone fun _ =>
                (calm_within (getNic_calls cfg name zone)).bind nics_monotone fun freshNic =>
                  ih hleft' (freshNic.fingerprint.getD "")
              exact hagain s₁ hs₁
            · exact hsingle
          · -- it is accepted, and its operation is waited for
            obtain ⟨hstatus, hnamed⟩ := haccepted resp rfl
            rw [if_pos hstatus, Prog.wp_bind, Prog.wp_ofExcept]
            cases hjson : resp.json with
            | error exc => exact hsingle
            | ok op =>
                obtain ⟨hop, hname⟩ := hnamed op hjson
                obtain ⟨opName, hopName⟩ := Option.ne_none_iff_exists'.mp hname
                have hs₁ : Underway lists update s₁ := by
                  refine ⟨?_, hpending, hsingle⟩
                  rw [← hs.shows]
                  exact hlists
                have happly : Function.update lists ⟨zone, name⟩ (some (requested cidrs)) =
                    update.apply lists := by
                  rw [Update.apply, hplace, hcidrs]
                have hoperation : update.operation = some opName :=
                  hop.trans (eq_of_nonempty? hopName)
                have hzone : update.place.zone = zone := by rw [hplace]
                rw [Prog.answered_ok, Prog.andThen_returned]
                simp only [hopName]
                rw [happly]
                exact waitZoneOp_within hoperation hzone s₁ hs₁

theorem cidrsOf_requested (cidrs : List (Option String)) : cidrsOf (requested cidrs) = cidrs := by
  simp [cidrsOf, requested, Function.comp_def]

/-- The address is on the interface or not, as wanted, and the other interfaces are as
they were. -/
def Edited (cfg : Config) (lists : AliasLists) (place : Place) (adds : Bool) (s : NicWorld) :
    Prop :=
  ∃ lists', Calm lists' s ∧ (Carries cfg lists' place ↔ adds = true) ∧
    ∀ other, other ≠ place → lists' other = lists other

/-- Adding and removing, unless the address is added while the peer's interface has it. -/
theorem editAliasIp_within {lists : AliasLists} {adds : Bool} {name zone : String}
    (hsafe : adds = true → (⟨zone, name⟩ : Place) = own cfg → Carries cfg lists (peer cfg) →
      ∀ ranges, lists ⟨zone, name⟩ = some ranges → vip cfg ∈ cidrsOf ranges) :
    Prog.Within (nics cfg) (Calm lists) (editAliasIp cfg adds name zone)
      (fun _ => Edited cfg lists ⟨zone, name⟩ adds) Single := by
  rw [editAliasIp_eq]
  apply (getNic_within lists name zone).bind nics_monotone
  intro found
  have hcarries : lists ⟨zone, name⟩ = some found.aliasIpRanges →
      (Carries cfg lists ⟨zone, name⟩ ↔ vip cfg ∈ cidrs found) := by
    intro hfound
    simp [Carries, hfound, cidrs, cidrsOf]
  apply Prog.Within.ite
  · rintro hdone
    apply Prog.Within.pure
    rintro s ⟨hs, hfound⟩
    exact ⟨lists, hs, (hcarries hfound).trans hdone, fun _ _ => rfl⟩
  · rintro hnot s ⟨hs, hfound⟩
    -- harmful would be to add the address here while the peer carries it
    have hharmless : Harmless cfg lists ⟨zone, name⟩
        (AliasRace.edited adds (vip cfg) (cidrs found)) := by
      rintro ⟨hown, hvip, hpeer⟩
      have hadds : adds = true := (AliasRace.mem_edited_self adds _ _).mp hvip
      have hhas : vip cfg ∈ cidrs found := hsafe hadds hown hpeer found.aliasIpRanges hfound
      exact hnot (iff_of_true hhas hadds)
    have hverify : (verifyAlias cfg name zone).Calls isQuery :=
      .bind (getNic_calls ..) fun _ => trivial
    have hpatch := (patchFrom_within hharmless 3 3 (by omega)
      (found.fingerprint.getD "")).bind nics_monotone fun _ => calm_within hverify
    apply Prog.wp_mono nics_monotone _ (hpatch s hs)
    intro outcome s' hend
    cases outcome with
    | raised exc => exact hend
    | stuck => exact hend
    | returned value =>
        refine ⟨_, hend, ?_, fun other hother => Function.update_of_ne hother _ _⟩
        simp [Carries, cidrsOf_requested, AliasRace.mem_edited_self]

/-! ## Acquiring the address -/

/-- What `acquire_vip` does once it has looked at the peer's interface. -/
def afterLook (cfg : Config) (answer : Except Exc (Response Instance)) : Sys Unit :=
  match nicIn cfg.cluster.peerNode cfg.gcp.nicName answer with
  | .error _ => addAliasIp cfg cfg.cluster.nodeName cfg.myZone
  | .ok nic =>
      if (cidrs nic).contains (vip cfg) then
        (removeAliasIp cfg cfg.cluster.peerNode cfg.peerZone).bind fun _ =>
          addAliasIp cfg cfg.cluster.nodeName cfg.myZone
      else addAliasIp cfg cfg.cluster.nodeName cfg.myZone

/-- The look at the peer's interface. -/
def lookAtPeer (cfg : Config) : SysCall :=
  .gcp (.getInstance cfg.gcp.projectId cfg.peerZone cfg.cluster.peerNode)

theorem acquireVip_eq_call : acquireVip cfg = .call (lookAtPeer cfg) (afterLook cfg) := by
  simp only [acquireVip, releaseVipFromPeer, hasAliasIp, getNic_eq_call, Prog.bind_eq,
    Prog.attempt, Prog.call_bind]
  refine congrArg (Prog.call _) (funext fun answer => ?_)
  unfold afterLook
  cases nicIn cfg.cluster.peerNode cfg.gcp.nicName answer with
  | error exc => rfl
  | ok nic =>
      by_cases hvip : vip cfg ∈ cidrs nic
      · have hvip' : some cfg.gcp.vipCidr ∈ cidrs nic := hvip
        simp [Prog.ofExcept, hvip, hvip']
      · have hvip' : some cfg.gcp.vipCidr ∉ cidrs nic := hvip
        simp [Prog.ofExcept, hvip, hvip']

/-- The address has been moved safely: it was never sent to the own interface while the
peer's had it, and the own one has it when the function returns. -/
def Moved (cfg : Config) (outcome : Outcome Exc Unit) (s : NicWorld) : Prop :=
  s.doubled = false ∧ (outcome = .returned () → Carries cfg s.lists (own cfg))

/-- The look has shown the instance. -/
def Shown (answer : Except Exc (Response Instance)) : Prop :=
  ∃ inst, Response.fetched answer = .ok inst

/-- There is nothing to send to the own interface. -/
def NothingToAdd (cfg : Config) (lists : AliasLists) : Prop :=
  ∀ ranges, lists (own cfg) = some ranges → vip cfg ∈ cidrsOf ranges

/-- Once the look has shown what is there, or when it makes no difference, the address is
moved safely. -/
theorem afterLook_within {lists : AliasLists} {answer : Except Exc (Response Instance)}
    (htruth : ∀ inst, Response.fetched answer = .ok inst → lists (peer cfg) =
      (inst.networkInterfaces.find? (·.name == some cfg.gcp.nicName)).map (·.aliasIpRanges))
    (hsafe : Shown answer ∨ ¬ Carries cfg lists (peer cfg) ∨ NothingToAdd cfg lists) :
    Prog.Within (nics cfg) (Calm lists) (afterLook cfg answer)
      (fun _ s => Single s ∧ Carries cfg s.lists (own cfg)) Single := by
  have hadd {lists : AliasLists} (h : ¬ Carries cfg lists (peer cfg) ∨ NothingToAdd cfg lists) :
      Prog.Within (nics cfg) (Calm lists) (addAliasIp cfg cfg.cluster.nodeName cfg.myZone)
        (fun _ s => Single s ∧ Carries cfg s.lists (own cfg)) Single := by
    have hedit : Prog.Within (nics cfg) (Calm lists)
        (editAliasIp cfg true cfg.cluster.nodeName cfg.myZone)
        (fun _ => Edited cfg lists (own cfg) true) Single :=
      editAliasIp_within fun _ _ hpeer => h.resolve_left (not_not_intro hpeer)
    apply hedit.conseq nics_monotone (fun _ => id) _ fun _ => id
    rintro _ s ⟨lists', hs, hcarries, -⟩
    refine ⟨hs.doubled, ?_⟩
    rw [hs.shows]
    exact hcarries.mpr rfl
  unfold afterLook
  cases hnic : nicIn cfg.cluster.peerNode cfg.gcp.nicName answer with
  | error exc =>
      apply hadd
      rcases hsafe with ⟨inst, hinst⟩ | hsafe
      · -- the instance has no such interface
        have hnone : inst.networkInterfaces.find? (·.name == some cfg.gcp.nicName) = none := by
          cases hfind : inst.networkInterfaces.find? (·.name == some cfg.gcp.nicName) with
          | none => rfl
          | some nic => cases hnic.symm.trans (nicIn_eq_ok.mpr ⟨inst, hinst, hfind⟩)
        have hpeer : lists (peer cfg) = none := by simp [htruth inst hinst, hnone]
        exact .inl (by simp [Carries, hpeer])
      · exact hsafe
  | ok nic =>
      obtain ⟨inst, hinst, hfind⟩ := nicIn_eq_ok.mp hnic
      -- the look tells whether the address has to be removed there first
      have hpeer : Carries cfg lists (peer cfg) ↔ vip cfg ∈ cidrs nic := by
        simp [Carries, htruth inst hinst, hfind, cidrs, cidrsOf]
      apply Prog.Within.ite
      · intro _
        have hremove : Prog.Within (nics cfg) (Calm lists)
            (editAliasIp cfg false cfg.cluster.peerNode cfg.peerZone)
            (fun _ => Edited cfg lists (peer cfg) false) Single :=
          editAliasIp_within fun h => by cases h
        apply Prog.Within.bind nics_monotone hremove
        rintro _ s ⟨lists', hs, hcarries, -⟩
        exact hadd (.inl (by simp [hcarries])) s hs
      · intro hnot
        apply hadd (.inl fun hcarries => hnot ?_)
        exact List.contains_iff_mem.mpr (hpeer.mp hcarries)

/-- The look has not shown the address that the peer's interface has: the next look finds
the own interface without it, and it is sent there. -/
theorem exists_doubling {lists : AliasLists} {answer : Except Exc (Response Instance)}
    (hhidden : ¬ Shown answer) (hpeer : Carries cfg lists (peer cfg))
    (hadd : ¬ NothingToAdd cfg lists) : ∃ log outcome s',
      (acquireVip cfg).Trace (⟨lookAtPeer cfg, answer⟩ :: log) outcome ∧
      History (nicStep cfg) (start lists) (⟨lookAtPeer cfg, answer⟩ :: log) s' ∧
      s'.doubled = true := by
  obtain ⟨lookExc, hfetched⟩ : ∃ exc, Response.fetched answer = .error exc := by
    cases hfetched : Response.fetched answer with
    | error exc => exact ⟨exc, rfl⟩
    | ok inst => exact absurd ⟨inst, hfetched⟩ hhidden
  have hlook : nicIn cfg.cluster.peerNode cfg.gcp.nicName answer = .error lookExc := by
    simp [nicIn, hfetched, Except.bind]
  obtain ⟨ranges, hown, hnew⟩ : ∃ ranges, lists (own cfg) = some ranges ∧
      vip cfg ∉ cidrsOf ranges := by
    simpa [NothingToAdd] using hadd
  -- what the own instance shows, and the answer that the update never gets
  let nic : Nic := ⟨some cfg.gcp.nicName, some "", ranges⟩
  let inst : Instance := ⟨some "RUNNING", [], [nic]⟩
  let lost : Exc := ⟨.requestException, "timed out"⟩
  let look : Event SysCall.Ret Exc :=
    ⟨.gcp (.getInstance cfg.gcp.projectId cfg.myZone cfg.cluster.nodeName), .ok (.ok inst)⟩
  let update : Event SysCall.Ret Exc := ⟨.gcp (.updateNetworkInterface cfg.gcp.projectId cfg.myZone
    cfg.cluster.nodeName cfg.gcp.nicName ⟨cidrsOf ranges ++ [vip cfg], ""⟩), .error lost⟩
  have hinst : nicIn cfg.cluster.nodeName cfg.gcp.nicName (.ok (.ok inst)) = .ok nic :=
    nicIn_eq_ok.mpr ⟨inst, rfl, by simp [inst, nic]⟩
  refine ⟨[look, update], .raised lost, ⟨lists, none, true⟩, ?_, ?_, rfl⟩
  · rw [acquireVip_eq_call]
    apply Prog.Trace.call
    unfold afterLook
    rw [hlook]
    have hadds : addAliasIp cfg cfg.cluster.nodeName cfg.myZone =
        editAliasIp cfg true cfg.cluster.nodeName cfg.myZone := rfl
    rw [hadds, editAliasIp_eq, getNic_eq_call, Prog.call_bind]
    apply Prog.Trace.call
    have hnot : ¬ (vip cfg ∈ cidrs nic ↔ true = true) := by simpa [nic, cidrs, cidrsOf] using hnew
    rw [hinst, Prog.ofExcept, Prog.pure_bind, if_neg hnot]
    exact Prog.Trace.call (Prog.Trace.raise lost)
  · have hlooked : nicStep cfg (start lists) ⟨lookAtPeer cfg, answer⟩ (start lists) := by
      refine ⟨⟨rfl, rfl, .inl rfl⟩, fun inst hinst => ?_⟩
      rw [hfetched] at hinst
      cases hinst
    have hread : nicStep cfg (start lists) look (start lists) := by
      refine ⟨⟨rfl, rfl, .inl rfl⟩, fun inst' hinst' => ?_⟩
      obtain rfl : inst = inst' := Except.ok.inj hinst'
      have hshown : (start lists).lists ⟨cfg.myZone, cfg.cluster.nodeName⟩ = some ranges := hown
      rw [hshown]
      simp [inst, nic]
    have hsent : nicStep cfg (start lists) update ⟨lists, none, true⟩ := by
      refine ⟨iff_of_true rfl (.inr ⟨rfl, by simp, hpeer⟩), .inl ⟨rfl, rfl, ?_⟩⟩
      intro resp hresp
      cases hresp
    exact .cons hlooked (.cons hread (.cons hsent (.nil _)))

/-- **One holder.**  Every run that begins with a given answer to the look at the peer's
interface moves the address safely if and only if the look has shown the instance, or the
peer's interface does not carry the address, or nothing is to be added to the own one. -/
theorem moved_iff (cfg : Config) (lists : AliasLists) (answer : Except Exc (Response Instance)) :
    (∀ log outcome s', (acquireVip cfg).Trace (⟨lookAtPeer cfg, answer⟩ :: log) outcome →
      History (nicStep cfg) (start lists) (⟨lookAtPeer cfg, answer⟩ :: log) s' →
        Moved cfg outcome s') ↔
    Shown answer ∨ ¬ Carries cfg lists (peer cfg) ∨ NothingToAdd cfg lists := by
  constructor
  · intro h
    by_contra hnot
    simp only [not_or, not_not] at hnot
    obtain ⟨hhidden, hpeer, hadd⟩ := hnot
    -- the peer is not seen to carry it, and so it is added to both
    obtain ⟨log, outcome, s', htrace, hhistory, hdoubled⟩ := exists_doubling hhidden hpeer hadd
    have hmoved := (h log outcome s' htrace hhistory).1
    rw [hdoubled] at hmoved
    cases hmoved
  · intro hsafe log outcome s' htrace hhistory
    rw [acquireVip_eq_call] at htrace
    cases htrace with
    | call hrest =>
        cases hhistory with
        | @cons _ s₁ _ _ _ hlooked hhistory =>
            have hs₁ : Calm lists s₁ := (calm_start lists).rests hlooked.1
            -- what the look shows is what the interface carries
            have htruth : ∀ inst, Response.fetched answer = .ok inst → lists (peer cfg) =
                (inst.networkInterfaces.find? (·.name == some cfg.gcp.nicName)).map
                  (·.aliasIpRanges) := by
              intro inst hinst
              have hshown := hlooked.2 inst hinst
              rw [hs₁.shows] at hshown
              exact hshown
            have hend := Prog.trace_wp (afterLook_within htruth hsafe s₁ hs₁) hrest hhistory
            cases outcome with
            | returned value => exact ⟨hend.1, fun _ => hend.2⟩
            | raised exc => exact ⟨hend, fun h => by cases h⟩
            | stuck => exact ⟨hend, fun h => by cases h⟩

/-- The address is on the interface of the peer only. -/
def onPeerOnly (cfg : Config) : AliasLists := fun place =>
  if place = peer cfg then some [⟨vip cfg, none, []⟩] else some []

/-- The look at the peer's interface times out, and the address is on its way to both. -/
theorem not_moved : ¬ ∀ cfg lists trace outcome s', (acquireVip cfg).Trace trace outcome →
    History (nicStep cfg) (start lists) trace s' → Moved cfg outcome s' := by
  intro h
  let cfg : Config := .sampleStandby
  have hhidden : ¬ Shown (.error ⟨.requestException, "timed out"⟩) := by simp [Shown]
  have hpeer : Carries cfg (onPeerOnly cfg) (peer cfg) := ⟨_, if_pos rfl, by simp [cidrsOf]⟩
  have hown : onPeerOnly cfg (own cfg) = some [] := if_neg (by decide)
  have hadd : ¬ NothingToAdd cfg (onPeerOnly cfg) := by simp [NothingToAdd, hown, cidrsOf]
  obtain ⟨log, outcome, s', htrace, hhistory, hdoubled⟩ := exists_doubling hhidden hpeer hadd
  have hmoved := (h cfg (onPeerOnly cfg) _ outcome s' htrace hhistory).1
  rw [hdoubled] at hmoved
  cases hmoved

/-! ## The other entries -/

/-- The entry is another one's. -/
def other (cfg : Config) (entry : AliasRange) : Bool := entry.ipCidrRange ≠ vip cfg

/-- An entry without any other fields. -/
def Bare (entry : AliasRange) : Prop := entry.subnetworkRangeName = none ∧ entry.extra = []

/-- The update leaves the other entries as they are, in their order, and adds the address
or removes it. -/
def Preserves (cfg : Config) (adds : Bool) (ranges : List AliasRange) (payload : NicPayload) :
    Prop :=
  (requested payload.aliasIpRanges).filter (other cfg) = ranges.filter (other cfg) ∧
    (vip cfg ∈ payload.aliasIpRanges ↔ adds = true)

/-- An entry survives being rebuilt from its CIDR exactly when it is bare. -/
theorem rebuilt_eq_iff (entry : AliasRange) : (⟨entry.ipCidrRange, none, []⟩ : AliasRange) = entry ↔
    Bare entry := by
  obtain ⟨cidr, name, extra⟩ := entry
  simp [Bare, eq_comm]

theorem requested_cidrsOf (ranges : List AliasRange) :
    requested (cidrsOf ranges) = ranges ↔ ∀ entry ∈ ranges, Bare entry := by
  have hmap : requested (cidrsOf ranges) =
      ranges.map fun entry => (⟨entry.ipCidrRange, none, []⟩ : AliasRange) := by
    simp [requested, cidrsOf, Function.comp_def]
  have hid : ranges = ranges.map id := (List.map_id ranges).symm
  rw [hmap]
  nth_rewrite 2 [hid]
  rw [List.map_inj_left]
  exact forall₂_congr fun entry _ => rebuilt_eq_iff entry

/-- What an update says of the other entries. -/
theorem filter_requested_edited (adds : Bool) (ranges : List AliasRange) :
    (requested (AliasRace.edited adds (vip cfg) (cidrsOf ranges))).filter (other cfg) =
      requested (cidrsOf (ranges.filter (other cfg))) := by
  have hfilter (cidrs : List (Option String)) :
      (requested cidrs).filter (other cfg) = requested (cidrs.filter (· ≠ vip cfg)) := by
    simp [requested, List.filter_map, Function.comp_def, other]
  have hcidrs : (cidrsOf ranges).filter (· ≠ vip cfg) = cidrsOf (ranges.filter (other cfg)) := by
    have hother : other cfg = fun entry => decide (entry.ipCidrRange ≠ vip cfg) := rfl
    rw [hother]
    simp [cidrsOf, List.filter_map, Function.comp_def]
  rw [hfilter, ← hcidrs]
  cases adds with
  | true => simp [AliasRace.edited]
  | false => simp [AliasRace.edited]

theorem preserves_edited_iff (adds : Bool) (ranges : List AliasRange) (fingerprint : String) :
    Preserves cfg adds ranges ⟨AliasRace.edited adds (vip cfg) (cidrsOf ranges), fingerprint⟩ ↔
      ∀ entry ∈ ranges, entry.ipCidrRange ≠ vip cfg → Bare entry := by
  have hothers : (requested (AliasRace.edited adds (vip cfg) (cidrsOf ranges))).filter (other cfg) =
      ranges.filter (other cfg) ↔ ∀ entry ∈ ranges, entry.ipCidrRange ≠ vip cfg → Bare entry := by
    rw [filter_requested_edited, requested_cidrsOf]
    simp [other]
  rw [Preserves, hothers]
  exact and_iff_left (AliasRace.mem_edited_self adds _ _)

/-- The updates that have been accepted. -/
def accepted (trace : List (Event SysCall.Ret Exc)) : List NicPayload :=
  trace.filterMap fun event =>
    match event with
    | ⟨.gcp (.updateNetworkInterface _ _ _ _ payload), .ok resp⟩ =>
        if resp.statusCode = 200 then some payload else none
    | _ => none

/-- The updates of a program carry this list. -/
def carriesList (cidrs : List (Option String)) : SysCall → Prop
  | .gcp (.updateNetworkInterface _ _ _ _ payload) => payload.aliasIpRanges = cidrs
  | _ => True

theorem carriesList_of_query {cidrs : List (Option String)} (op : SysCall) (hop : isQuery op) :
    carriesList cidrs op := by
  unfold carriesList
  split
  · exact hop.elim
  · trivial

/-- Every attempt carries the list of the first one. -/
theorem patchFrom_carries (name zone : String) (cidrs : List (Option String)) (maxRetries : ℕ)
    (fingerprint : String) (left : ℕ) :
    (patchFrom cfg name zone cidrs maxRetries fingerprint left).Calls (carriesList cidrs) := by
  induction left generalizing fingerprint with
  | zero => trivial
  | succ left ih =>
      refine .perform_bind rfl fun resp => .ite ?_ (.ite ?_ trivial)
      · refine .bind (Prog.calls_ofExcept _) fun op => ?_
        cases nonempty? op.name with
        | none => trivial
        | some opName =>
            have hwait : (waitZoneOp cfg opName zone).Calls isQuery :=
              .perform_bind trivial fun _ => (pollZoneOp_calls ..).mono isQuery_of_isPoll
            exact hwait.mono carriesList_of_query
      · refine .perform_bind trivial fun _ => .bind ?_ fun freshNic => ih _
        exact (getNic_calls cfg name zone).mono carriesList_of_query

theorem aliasIpRanges_of_accepted {trace : List (Event SysCall.Ret Exc)}
    {cidrs : List (Option String)} (h : ∀ event ∈ trace, carriesList cidrs event.op)
    {payload : NicPayload} (hpayload : payload ∈ accepted trace) :
    payload.aliasIpRanges = cidrs := by
  obtain ⟨event, hmem, hevent⟩ := List.mem_filterMap.mp hpayload
  have hcarries := h event hmem
  split at hevent
  · split_ifs at hevent
    obtain rfl := Option.some.inj hevent
    exact hcarries
  · cases hevent

/-- **The other entries.**  When an address is added or removed, an accepted update leaves
the other entries of the list as they are if and only if each of them is bare. -/
theorem preserves_iff (cfg : Config) (adds : Bool) (name zone : String) (lists : AliasLists)
    (ranges : List AliasRange) (hranges : lists ⟨zone, name⟩ = some ranges)
    (trace : List (Event SysCall.Ret Exc)) (outcome : Outcome Exc Unit) (s' : NicWorld)
    (htrace : (editAliasIp cfg adds name zone).Trace trace outcome)
    (hhistory : History (nicStep cfg) (start lists) trace s') (payload : NicPayload)
    (hpayload : payload ∈ accepted trace) :
    Preserves cfg adds ranges payload ↔
      ∀ entry ∈ ranges, entry.ipCidrRange ≠ vip cfg → Bare entry := by
  rw [editAliasIp_eq, getNic_eq_call, Prog.call_bind] at htrace
  cases htrace with
  | @call _ _ answer rest _ hrest =>
      cases hhistory with
      | @cons _ s₁ _ _ _ hlooked _ =>
          have hs₁ : Calm lists s₁ := (calm_start lists).rests hlooked.1
          have hpayload : payload ∈ accepted rest := hpayload
          simp only at hrest
          cases hnic : nicIn name cfg.gcp.nicName answer with
          | error exc =>
              rw [hnic] at hrest
              cases hrest
              cases hpayload
          | ok nic =>
              obtain ⟨inst, hinst, hfind⟩ := nicIn_eq_ok.mp hnic
              -- the list that is edited is the one of the interface
              have hshown : nic.aliasIpRanges = ranges := by
                have h := hlooked.2 inst hinst
                rw [hs₁.shows, hranges, hfind] at h
                exact (Option.some.inj h).symm
              rw [hnic, Prog.ofExcept, Prog.pure_bind] at hrest
              split_ifs at hrest with hdone
              · cases hrest
                cases hpayload
              · have hcalls : Prog.Calls
                    (carriesList (AliasRace.edited adds (vip cfg) (cidrs nic)))
                    ((patchNicAliases cfg name zone nic
                      (AliasRace.edited adds (vip cfg) (cidrs nic))).bind fun _ =>
                        verifyAlias cfg name zone) := by
                  refine .bind (patchFrom_carries ..) fun _ => .bind ?_ fun _ => trivial
                  exact (getNic_calls cfg name zone).mono carriesList_of_query
                have hlist := aliasIpRanges_of_accepted (hcalls.trace hrest) hpayload
                obtain ⟨payloadCidrs, fingerprint⟩ := payload
                obtain rfl : payloadCidrs =
                    AliasRace.edited adds (vip cfg) (cidrsOf ranges) := by
                  rw [← hshown]
                  exact hlist
                exact preserves_edited_iff adds ranges fingerprint

section Sample

instance decidableCarries (lists : AliasLists) (place : Place) :
    Decidable (Carries cfg lists place) :=
  decidable_of_iff ((lists place).any (fun ranges => (cidrsOf ranges).contains (vip cfg)) = true)
    (by cases hlist : lists place <;> simp [Carries, hlist])

/-- Every request succeeds, and an update takes effect at once. -/
def obliging (cfg : Config) : (op : SysCall) → NicWorld → Except Exc op.Ret × NicWorld
  | .gcp (.getInstance _ zone name), s =>
      match s.lists ⟨zone, name⟩ with
      | some ranges =>
          (.ok (.ok ⟨some "RUNNING", [], [⟨some cfg.gcp.nicName, some "", ranges⟩]⟩), s)
      | none => (.error ⟨.other, ""⟩, s)
  | .gcp (.updateNetworkInterface _ zone name _ payload), s =>
      let update : Update := ⟨some "operation-1", ⟨zone, name⟩, payload.aliasIpRanges⟩
      let doubles := decide ((⟨zone, name⟩ : Place) = own cfg) &&
        payload.aliasIpRanges.contains (vip cfg) && decide (Carries cfg s.lists (peer cfg))
      (.ok (.ok ⟨some "operation-1", none, none⟩),
        ⟨update.apply s.lists, some update, s.doubled || doubles⟩)
  | .gcp (.getOperation ..), s =>
      (.ok (.ok ⟨none, some "DONE", none⟩), match s.pending with
        | some update => { s with lists := update.apply s.lists }
        | none => s)
  | .host .monotonic, s => (.ok 0, s)
  | .host (.sleep _), s => (.ok (), s)
  | _, s => (.error ⟨.other, ""⟩, s)

theorem nicStep_obliging (s : NicWorld) (op : SysCall) :
    nicStep cfg s ⟨op, (obliging cfg op s).1⟩ (obliging cfg op s).2 := by
  have hrests (s : NicWorld) : Rests s s := ⟨rfl, rfl, .inl rfl⟩
  rcases op with call | call
  · cases call with
    | getInstance project zone name =>
        cases hlist : s.lists ⟨zone, name⟩ with
        | none =>
            simp only [nicStep, obliging, hlist]
            exact ⟨hrests s, by simp⟩
        | some ranges =>
            simp only [nicStep, obliging, hlist]
            refine ⟨hrests s, fun inst hinst => ?_⟩
            obtain rfl := Except.ok.inj hinst
            simp
    -- the update is accepted at once, and takes effect when it is polled
    | updateNetworkInterface project zone name nic payload =>
        refine ⟨by simp [obliging, and_assoc], .inr ⟨_, rfl, rfl, rfl, .inr rfl, ?_⟩⟩
        intro resp hresp
        obtain rfl := Except.ok.inj hresp
        refine ⟨rfl, fun op hop => ?_⟩
        obtain rfl := Except.ok.inj hop
        exact ⟨rfl, by decide⟩
    | getOperation project zone operation =>
        cases hpending : s.pending with
        | none =>
            simp only [nicStep, obliging, hpending]
            exact ⟨hrests s, fun _ update h => by cases h⟩
        | some update =>
            simp only [nicStep, obliging, hpending]
            refine ⟨⟨hpending.symm, rfl, .inr ⟨update, hpending, rfl⟩⟩, fun _ update' h _ _ => ?_⟩
            obtain rfl : update = update' := Option.some.inj h
            rfl
    | _ => exact hrests s
  · cases call <;> exact hrests s

/-- Every instance has an interface with this alias list. -/
def listed (ranges : List AliasRange) : AliasLists := fun _ => some ranges

/-- The address is added to an interface with another entry. -/
def addition (entry : AliasRange) : Run SysCall.Ret Exc Unit NicWorld :=
  (editAliasIp .sampleStandby true "pg-standby" "us-central1-b").run
    (obliging .sampleStandby) (start (listed [entry]))

theorem history_addition (entry : AliasRange) : History (nicStep .sampleStandby)
    (start (listed [entry])) (addition entry).log (addition entry).final :=
  history_run nicStep_obliging _ _

/-- An entry without further fields survives. -/
theorem preserves_bare : Preserves .sampleStandby true [⟨some "10.0.1.7/32", none, []⟩]
    ⟨[some "10.0.1.7/32", some "10.0.0.100/32"], ""⟩ := by
  apply (preserves_iff .sampleStandby true "pg-standby" "us-central1-b" (listed _) _ rfl _ _ _
    (trace_run _ _ _) (history_addition ⟨some "10.0.1.7/32", none, []⟩) _ (by decide)).mpr
  intro entry hentry _
  obtain rfl := List.mem_singleton.mp hentry
  exact ⟨rfl, rfl⟩

/-- An entry out of a secondary range of the subnet loses its range. -/
theorem not_preserves : ¬ ∀ cfg adds name zone lists ranges, lists ⟨zone, name⟩ = some ranges →
    ∀ trace outcome s', (editAliasIp cfg adds name zone).Trace trace outcome →
      History (nicStep cfg) (start lists) trace s' → ∀ payload ∈ accepted trace,
        Preserves cfg adds ranges payload := by
  intro h
  have hpreserves := h .sampleStandby true "pg-standby" "us-central1-b" (listed _) _ rfl _ _ _
    (trace_run _ _ _) (history_addition ⟨some "10.4.0.0/24", some "pods", []⟩)
    ⟨[some "10.4.0.0/24", some "10.0.0.100/32"], ""⟩ (by decide)
  exact absurd hpreserves.1 (by decide)

end Sample

end PgHa.AliasMove

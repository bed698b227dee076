import PgHa.Gcp.AliasRace
import PgHa.Data.ListEdit

/-!
# Operations on a shared interface, one after the other

When the operations of `AliasRace.lean` do not overlap, each of them that
returns has edited the alias list once, whatever refusals it has met on the way:
it adds its address at the end unless it is there, or filters it out
(`sequence_aliases`).  What a sequence of operations does is then a matter of
the edits (`alias_laws`).
-/

namespace PgHa.AliasRace

open Effect NetworkManager

variable {ι : Type} {cfg : ι → Config} {nic : SharedNic}

/-- An operation of a cluster: it adds its address, or removes it. -/
structure AliasOp (ι : Type) where
  cluster : ι
  adds : Bool

def AliasOp.program (cfg : ι → Config) (nic : SharedNic) (op : AliasOp ι) : Sys Unit :=
  aliasOperation cfg nic (fun _ => op.adds) op.cluster

/-- What an operation is for. -/
def AliasOp.edit (cfg : ι → Config) (op : AliasOp ι) : ListEdit (Option String) :=
  ⟨vip cfg op.cluster, op.adds⟩

/-- The operations are executed one after the other, and all of them return. -/
inductive Sequence [DecidableEq ι] (cfg : ι → Config) (nic : SharedNic) :
    NicState ι → List (AliasOp ι) → NicState ι → Prop
  | nil (s : NicState ι) : Sequence cfg nic s [] s
  | cons {s s₁ s' : NicState ι} {op : AliasOp ι} {ops : List (AliasOp ι)}
      {trace : List (Event SysCall.Ret Exc)} :
      (op.program cfg nic).Trace trace (.returned ()) →
      History (aliasStep nic op.cluster) s trace s₁ → Sequence cfg nic s₁ ops s' →
      Sequence cfg nic s (op :: ops) s'

/-! ## One operation -/

theorem apply_edit (op : AliasOp ι) (ranges : List (Option String)) :
    (op.edit cfg).apply ranges =
      if vip cfg op.cluster ∈ ranges ↔ op.adds = true then ranges
      else edited op.adds (vip cfg op.cluster) ranges := by
  split
  · rename_i hsettled
    exact ListEdit.apply_of_settled hsettled
  · rename_i hunsettled
    obtain ⟨i, adds⟩ := op
    cases adds with
    | false => exact ListEdit.remove_eq_filter
    | true => exact ListEdit.add_of_notMem fun hmem => hunsettled (iff_of_true hmem rfl)

variable [DecidableEq ι]

/-- The interface shows this list. -/
def Shows (ranges : List (Option String)) (s : NicState ι) : Prop := s.aliases = ranges

/-- When the operation returns, the interface shows this list. -/
def leaving (ranges : List (Option String)) (outcome : Outcome Exc Unit) (s : NicState ι) : Prop :=
  outcome = .returned () → Shows ranges s

variable (nic) in
theorem shows_of_query {i : ι} {ranges : List (Option String)} (op : SysCall) (hop : isQuery op)
    (s : NicState ι) (hs : Shows ranges s) :
    demonic (aliasStep nic i) op (fun _ s' => Shows ranges s') s := by
  intro answer s' hstep
  rcases read_or_same_of_query hop hstep with rfl | rfl
  · exact hs
  · exact hs

/-- What follows an edit looks at the interface only. -/
theorem leaving_of_calls {i : ι} {ranges : List (Option String)} {program : Sys Unit}
    (hcalls : program.Calls isQuery) {s : NicState ι} (hs : Shows ranges s) :
    program.wp (demonic (aliasStep nic i)) (leaving ranges) s :=
  Prog.wp_of_calls (demonic_monotone _) (shows_of_query nic) hcalls hs fun _ _ h _ => h

/-- Fetching the interface, while nobody else changes it. -/
theorem getNic_shows (hshare : Sharing cfg nic) {i : ι} {ranges : List (Option String)}
    {next : Nic → Sys Unit} {after : List (Option String)} {s : NicState ι} (hs : Shows ranges s)
    (hnext : ∀ found s', cidrs found = ranges → Shows ranges s' →
      (next found).wp (demonic (aliasStep nic i)) (leaving after) s') :
    ((getNic (cfg i) nic.instanceName nic.zone).bind next).wp (demonic (aliasStep nic i))
      (leaving after) s := by
  rw [getNic_eq_call, hshare.nicName i, Prog.wp_bind, Prog.wp_call]
  intro answer s' hstep
  obtain ⟨rfl, htruth⟩ := (if_pos ⟨rfl, rfl⟩).mp hstep
  rw [Prog.wp_ofExcept]
  cases hfound : nicIn nic.instanceName nic.nicName answer with
  | error exc => exact fun h => by cases h
  | ok found => exact hnext found _ ((htruth found hfound).1.trans hs) hs

/-- The retry loop, by induction on the attempts that are left: until an update is
accepted nothing has changed, and the one that is accepted leaves the new list. -/
theorem patchFrom_shows (hshare : Sharing cfg nic) {i : ι} {before after : List (Option String)}
    {maxRetries : ℕ} (left : ℕ) (hleft : left ≠ 0) (fingerprint : String) {s : NicState ι}
    (hs : Shows before s) :
    (patchFrom (cfg i) nic.instanceName nic.zone after maxRetries fingerprint left).wp
      (demonic (aliasStep nic i)) (leaving after) s := by
  induction left generalizing fingerprint s with
  | zero => exact absurd rfl hleft
  | succ left ih =>
      simp only [patchFrom, Prog.bind_eq, Prog.wp_bind, Prog.wp_perform]
      intro answer s₁ hstep
      rw [hshare.nicName i] at hstep
      cases answer with
      | error exc => exact fun h => by cases h
      | ok resp =>
          rw [Prog.answered_ok, Prog.andThen_returned]
          rcases (if_pos ⟨rfl, rfl, rfl⟩).mp hstep with
            ⟨-, hstatus, haliases, -, -⟩ | ⟨rfl, hstatus⟩
          · -- accepted: what is left is to wait for the operation
            rw [if_pos (hstatus resp rfl)]
            apply leaving_of_calls _ haliases
            refine .bind (Prog.calls_ofExcept _) fun op => ?_
            cases nonempty? op.name with
            | none => trivial
            | some opName =>
                exact .perform_bind trivial fun _ => (pollZoneOp_calls ..).mono isQuery_of_isPoll
          · -- refused: the list is still the old one when the next attempt begins
            rw [if_neg (hstatus resp rfl).1, Prog.wp_ite]
            split_ifs with hretry
            · have hleft' : left ≠ 0 := by omega
              rw [Prog.wp_bind, Prog.wp_perform]
              intro slept s₂ hslept
              have hs₂ : Shows before s₂ :=
                shows_of_query nic (.host (.sleep _)) trivial _ hs slept s₂ hslept
              cases slept with
              | error exc => exact fun h => by cases h
              | ok _ =>
                  rw [Prog.answered_ok, Prog.andThen_returned]
                  exact getNic_shows hshare hs₂ fun found s₃ _ hs₃ => ih hleft' _ hs₃
            · exact fun h => by cases h

/-- An operation that returns has made its edit. -/
theorem program_shows (hshare : Sharing cfg nic) (op : AliasOp ι) (s : NicState ι) :
    (op.program cfg nic).wp (demonic (aliasStep nic op.cluster))
      (leaving ((op.edit cfg).apply s.aliases)) s := by
  unfold AliasOp.program
  rw [aliasOperation_eq]
  have hs : Shows s.aliases s := rfl
  refine getNic_shows hshare hs fun found s₁ hcidrs hs₁ => ?_
  rw [hcidrs, apply_edit, Prog.wp_ite]
  split
  · -- the edit asks for what is there
    exact fun _ => hs₁
  · rw [Prog.wp_bind]
    have hpatch : (patchNicAliases (cfg op.cluster) nic.instanceName nic.zone found
        (edited op.adds (vip cfg op.cluster) s.aliases)).wp (demonic (aliasStep nic op.cluster))
          (leaving (edited op.adds (vip cfg op.cluster) s.aliases)) s₁ :=
      patchFrom_shows hshare 3 (by omega) _ hs₁
    apply Prog.wp_mono (demonic_monotone _) _ hpatch
    intro outcome s₂ hpatched
    cases outcome with
    | returned value =>
        have hcalls : (verifyAlias (cfg op.cluster) nic.instanceName nic.zone).Calls isQuery :=
          .bind (getNic_calls ..) fun _ => trivial
        exact leaving_of_calls hcalls (hpatched rfl)
    | raised exc => exact fun h => by cases h
    | stuck => exact fun h => by cases h

/-! ## Sequences -/

/-- The edits of a sequence of operations. -/
def edits (cfg : ι → Config) (ops : List (AliasOp ι)) : List (ListEdit (Option String)) :=
  ops.map (AliasOp.edit cfg)

/-- A sequence of operations is the sequence of their edits. -/
theorem sequence_aliases (hshare : Sharing cfg nic) {s s' : NicState ι} {ops : List (AliasOp ι)}
    (h : Sequence cfg nic s ops s') : s'.aliases = ListEdit.applyAll (edits cfg ops) s.aliases := by
  induction h with
  | nil s => rfl
  | @cons s s₁ s' op ops trace htrace hhistory _ ih =>
      have hedited : s₁.aliases = (op.edit cfg).apply s.aliases :=
        Prog.trace_wp (program_shows hshare op s) htrace hhistory rfl
      rw [ih, hedited]
      rfl

/-- What the last operation of the cluster asks for, if it has any. -/
def lastOf (i : ι) (ops : List (AliasOp ι)) : Option Bool :=
  (ops.reverse.find? fun op => decide (op.cluster = i)).map AliasOp.adds

theorem lastOf_edits (hshare : Sharing cfg nic) (i : ι) (ops : List (AliasOp ι)) :
    ListEdit.lastOf (vip cfg i) (edits cfg ops) = lastOf i ops := by
  induction ops with
  | nil => rfl
  | cons op ops ih =>
      have hvip : (op.edit cfg).item = vip cfg i ↔ op.cluster = i := by
        constructor
        · intro h
          exact hshare.vipCidr_injective _ _ (Option.some.inj h)
        · rintro rfl
          rfl
      rw [edits, List.map_cons, ListEdit.lastOf]
      simp only [hvip]
      rw [← edits, ih]
      -- the last of the later operations decides, if the cluster has any
      unfold lastOf
      rw [List.reverse_cons, List.find?_append]
      by_cases hcluster : op.cluster = i
      · cases (ops.reverse.find? fun op => decide (op.cluster = i)) <;>
          simp [hcluster, AliasOp.edit]
      · cases (ops.reverse.find? fun op => decide (op.cluster = i)) <;> simp [hcluster]

/-- What holds of operations that do not overlap. -/
structure Laws (cfg : ι → Config) (nic : SharedNic) : Prop where
  /-- The last operation of each cluster decides about its address, and no other entry
  comes or goes. -/
  lastOperation : ∀ {s s' ops}, Sequence cfg nic s ops s' →
    (∀ i, vip cfg i ∈ s'.aliases ↔
      lastOf i ops = some true ∨ lastOf i ops = none ∧ vip cfg i ∈ s.aliases) ∧
    ∀ cidr, (∀ i, cidr ≠ vip cfg i) → (cidr ∈ s'.aliases ↔ cidr ∈ s.aliases)
  commute : ∀ {s s' s'' op other first last}, op.cluster ≠ other.cluster →
    Sequence cfg nic s (first ++ op :: other :: last) s' →
    Sequence cfg nic s (first ++ other :: op :: last) s'' → s'.aliases.Perm s''.aliases
  idempotent : ∀ {s s' s'' op first last}, Sequence cfg nic s (first ++ op :: op :: last) s' →
    Sequence cfg nic s (first ++ op :: last) s'' → s'.aliases = s''.aliases
  listedOnce : ∀ {s s' ops i}, Sequence cfg nic s ops s' → s.aliases.count (vip cfg i) ≤ 1 →
    s'.aliases.count (vip cfg i) ≤ 1
  restored : ∀ {s s' i}, vip cfg i ∉ s.aliases →
    Sequence cfg nic s [⟨i, true⟩, ⟨i, false⟩] s' → s'.aliases = s.aliases

/-- **Operations that do not overlap are independent.** -/
theorem alias_laws (hshare : Sharing cfg nic) : Laws cfg nic where
  -- each law is one of lists that are edited
  lastOperation := by
    intro s s' ops hrun
    have haliases : s'.aliases = ListEdit.applyAll (edits cfg ops) s.aliases :=
      sequence_aliases hshare hrun
    refine ⟨fun i => ?_, fun cidr hcidr => ?_⟩
    · rw [haliases, ListEdit.mem_applyAll, lastOf_edits hshare]
    · have hnone : ListEdit.lastOf cidr (edits cfg ops) = none := by
        apply ListEdit.lastOf_eq_none
        intro edit hmem
        obtain ⟨op, -, rfl⟩ := List.mem_map.mp hmem
        exact (hcidr op.cluster).symm
      rw [haliases, ListEdit.mem_applyAll, hnone]
      simp
  commute := by
    intro s s' s'' op other first last hne hrun hrun'
    rw [sequence_aliases hshare hrun, sequence_aliases hshare hrun']
    have hitem : (op.edit cfg).item ≠ (other.edit cfg).item := fun h =>
      hne (hshare.vipCidr_injective _ _ (Option.some.inj h))
    simp only [edits, List.map_append, List.map_cons, ListEdit.applyAll_append,
      ListEdit.applyAll_cons]
    exact ListEdit.perm_applyAll (ListEdit.perm_apply_comm hitem)
  idempotent := by
    intro s s' s'' op first last hrun hrun'
    rw [sequence_aliases hshare hrun, sequence_aliases hshare hrun']
    simp only [edits, List.map_append, List.map_cons, ListEdit.applyAll_append,
      ListEdit.applyAll_cons, ListEdit.apply_apply]
  listedOnce := by
    intro s s' ops i hrun hcount
    rw [sequence_aliases hshare hrun]
    exact ListEdit.count_applyAll_le hcount
  restored := by
    intro s s' i habsent hrun
    rw [sequence_aliases hshare hrun]
    exact ListEdit.remove_add habsent

/-! ## A sample sequence -/

/-- An operation of a sample cluster, on its own. -/
def turn (s : NicState (Fin 2)) (op : AliasOp (Fin 2)) :
    Run SysCall.Ret Exc Unit (NicState (Fin 2)) :=
  (op.program sampleClusters sampleNic).run (answerNic op.cluster) s

def unclaimed : NicState (Fin 2) := ⟨[some "10.0.1.7/32"], "1", fun _ => none⟩

/-- Both clusters add their address, and the first one removes it again. -/
def sampleOps : List (AliasOp (Fin 2)) :=
  [⟨⟨0, by decide⟩, true⟩, ⟨⟨1, by decide⟩, true⟩, ⟨⟨0, by decide⟩, false⟩]

def inSequence (s : NicState (Fin 2)) (ops : List (AliasOp (Fin 2))) : NicState (Fin 2) :=
  ops.foldl (fun s op => (turn s op).final) s

theorem Sequence.of_turns {s : NicState (Fin 2)} {op : AliasOp (Fin 2)}
    {ops : List (AliasOp (Fin 2))} (hreturned : (turn s op).outcome = .returned ())
    (hrest : Sequence sampleClusters sampleNic (turn s op).final ops
      (inSequence (turn s op).final ops)) :
    Sequence sampleClusters sampleNic s (op :: ops) (inSequence s (op :: ops)) := by
  have htrace : (op.program sampleClusters sampleNic).Trace (turn s op).log (.returned ()) := by
    rw [← hreturned]
    exact trace_run _ _ _
  exact .cons htrace (history_run (aliasStep_answerNic op.cluster) _ _) hrest

theorem alias_laws_sample :
    some "10.0.0.100/32" ∉ (inSequence unclaimed sampleOps).aliases ∧
    some "10.0.0.101/32" ∈ (inSequence unclaimed sampleOps).aliases := by
  have hrun : Sequence sampleClusters sampleNic unclaimed sampleOps
      (inSequence unclaimed sampleOps) := by
    apply Sequence.of_turns (by decide)
    apply Sequence.of_turns (by decide)
    apply Sequence.of_turns (by decide)
    exact .nil _
  have hlast := ((alias_laws sharing_sampleClusters).lastOperation hrun).1
  exact ⟨fun hmem => absurd ((hlast 0).mp hmem) (by decide), (hlast 1).mpr (by decide)⟩

end PgHa.AliasRace

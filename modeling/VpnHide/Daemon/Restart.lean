import VpnHide.Daemon.Receipts

/-!
# What a restart makes of the receipts

A restart takes the receipts one by one (`JournalEntry.recovered`). It never changes what an
operation is, and afterwards all of them are settled (`JournalEntry.Whole.recovered`). Those
that were settled keep their outcomes; one that was in flight has the outcomes that were on
record, or what the evidence says (`JournalEntry.recovered_of_running`).
-/

namespace VpnHide.Daemon

open Lib Config

/-! ## A receipt -/

namespace JournalEntry

/-- What the revocation on record says of its repair. -/
def repaired (r : Option ZygiskRevocation) (e : JournalEntry) : JournalEntry :=
  match r with
  | none => e
  | some r =>
    if r.state = .confirmed && r.operation = some e.record.op && e.isRevocationOnlyRepair then
      e.settleFirst .confirmed
    else e

/-- A receipt after a restart. -/
def recovered (device : Device) (f : Option CanonicalConfig) (r : Option ZygiskRevocation)
    (e : JournalEntry) :
    JournalEntry :=
  recoverEntry device f (e.repaired r).fence

/-- Two states of a receipt of the same operation. -/
structure Recast (e e' : JournalEntry) : Prop where
  op : e'.record.op = e.record.op
  admission : e'.admission = e.admission
  command : e'.command = e.command
  candidate : e'.candidate = e.candidate
  nativeIntent : e'.nativeIntent = e.nativeIntent
  supersededBy : e'.supersededBy = e.supersededBy
  supersededPhases : e'.supersededPhases = e.supersededPhases
  phases : e'.record.phases.map (·.phase) = e.record.phases.map (·.phase)

variable {device : Device} {f : Option CanonicalConfig} {r : Option ZygiskRevocation}
  {e e' e'' : JournalEntry}

theorem Recast.refl (e : JournalEntry) : Recast e e := ⟨rfl, rfl, rfl, rfl, rfl, rfl, rfl, rfl⟩

theorem Recast.trans (h : Recast e e') (h' : Recast e' e'') : Recast e e'' :=
  ⟨h'.1.trans h.1, h'.2.trans h.2, h'.3.trans h.3, h'.4.trans h.4, h'.5.trans h.5, h'.6.trans h.6,
    h'.7.trans h.7, h'.8.trans h.8⟩

/-- The proof of a receipt stays. -/
theorem Recast.proof (h : Recast e e') : e'.proof = e.proof := by
  rw [JournalEntry.proof, JournalEntry.proof, h.admission, h.candidate, h.command]

theorem recast_settleFirst (e : JournalEntry) (outcome : PhaseOutcome) :
    Recast e (e.settleFirst outcome) := by
  rw [settleFirst]
  split_ifs
  · refine ⟨rfl, rfl, rfl, rfl, rfl, rfl, rfl, ?_⟩
    cases e.record.phases <;> rfl
  · exact .refl e

/-- Repairing a receipt recasts it. -/
theorem recast_repaired (r : Option ZygiskRevocation) (e : JournalEntry) :
    Recast e (e.repaired r) := by
  cases r with
  | none => exact .refl e
  | some r =>
    rw [repaired]
    split_ifs
    · exact e.recast_settleFirst _
    · exact .refl e

theorem map_phase_eq {phases : List PhaseRecord} {g : PhaseRecord → PhaseRecord}
    (hg : ∀ p, (g p).phase = p.phase) :
    (phases.map g).map (·.phase) = phases.map (·.phase) := by
  rw [List.map_map]
  exact List.map_congr_left fun p _ => hg p

/-- Fencing a receipt recasts it. -/
theorem recast_fence (e : JournalEntry) : Recast e e.fence := by
  refine ⟨rfl, rfl, rfl, rfl, rfl, rfl, rfl, map_phase_eq fun p => ?_⟩
  split_ifs <;> rfl

/-- Looking a receipt up on the device recasts it. -/
theorem recast_reconcileEntry (device : Device) (f : Option CanonicalConfig) (e : JournalEntry) :
    Recast e (reconcileEntry device f e) := by
  rw [reconcileEntry]
  split_ifs
  · exact .refl e
  · split
    next => exact .refl e
    next =>
      refine ⟨rfl, rfl, rfl, rfl, rfl, rfl, rfl, map_phase_eq fun p => ?_⟩
      split_ifs <;> rfl

/-- A restart recasts each receipt. -/
theorem recast_recovered (device : Device) (f : Option CanonicalConfig)
    (r : Option ZygiskRevocation) (e : JournalEntry) :
    Recast e (e.recovered device f r) := by
  have h := ((e.recast_repaired r).trans (recast_fence _)).trans (recast_reconcileEntry device f _)
  exact ⟨h.1, h.2, h.3, h.4, h.5, h.6, h.7, h.8⟩

/-- A repair that only finishes a revocation has one phase, and not that of the config. -/
theorem phases_of_isRevocationOnlyRepair (h : e.isRevocationOnlyRepair) :
    ∃ o, e.record.phases = [⟨.native, o⟩] := by
  simp only [isRevocationOnlyRepair, Bool.and_eq_true] at h
  obtain ⟨⟨-, hphases⟩, -⟩ := h
  split at hphases
  next p hp =>
    obtain ⟨phase, o⟩ := p
    obtain rfl : phase = .native := by simpa using hphases
    exact ⟨o, hp⟩
  next => cases hphases

theorem candidate_of_isRevocationOnlyRepair (h : e.isRevocationOnlyRepair) :
    e.candidate = none := by
  simp only [isRevocationOnlyRepair, Bool.and_eq_true, Option.isNone_iff_eq_none] at h
  exact h.1.1.1.2

/-- A receipt is repaired only for its own revocation. -/
theorem repaired_cases (r : Option ZygiskRevocation) (e : JournalEntry) : e.repaired r = e ∨
    (e.isRevocationOnlyRepair ∧ r.bind (·.operation) = some e.record.op ∧
      r.any (·.uncertain) = false ∧ e.finalizedUnknown = false ∧ e.record.settled = none ∧
        e.repaired r = { e with
          record := { e.record with
            phases := [⟨.native, .confirmed⟩], settled := some .confirmed } }) := by
  cases r with
  | none => exact .inl rfl
  | some r =>
    rw [repaired]
    split_ifs with hcond
    · simp only [Bool.and_eq_true, decide_eq_true_eq] at hcond
      obtain ⟨⟨hstate, hop⟩, hrepair⟩ := hcond
      rw [settleFirst]
      split_ifs with hrun
      · simp only [Bool.and_eq_true, Bool.not_eq_true', Option.isNone_iff_eq_none] at hrun
        obtain ⟨o, hphases⟩ := phases_of_isRevocationOnlyRepair hrepair
        refine .inr ⟨hrepair, hop, ?_, hrun.1, hrun.2, ?_⟩
        · simp [ZygiskRevocation.uncertain, hstate]
        · simp [hphases]
      · exact .inl rfl
    · exact .inl rfl

/-! ## A receipt that is settled -/

theorem map_eq_self {phases : List PhaseRecord} {g : PhaseRecord → PhaseRecord}
    (h : ∀ p ∈ phases, g p = p) :
    phases.map g = phases :=
  (List.map_congr_left h).trans (List.map_id _)

/-- A whole receipt needs no repair. -/
theorem Whole.repaired (h : e.Whole) : e.repaired r = e := by
  obtain heq | ⟨-, -, -, -, hrun, -⟩ := e.repaired_cases r
  · exact heq
  · exact absurd hrun h.settled

/-- A whole receipt is fenced already. -/
theorem Whole.fence (h : e.Whole) :
    e.fence = { e with finalizedUnknown := e.finalizedUnknown ||
      e.record.settled = some .unknown } := by
  have hphases :
      e.record.phases.map (fun p => if p.outcome = .running then
        { p with outcome := .unknown } else p) =
      e.record.phases := map_eq_self fun p hp => if_neg (h.running p hp)
  have hsettled : (if (e.record.settled = some .unknown || e.record.settled.isNone ||
      e.record.phases.any fun p => p.outcome = .running) = true then some .unknown
        else e.record.settled) =
      e.record.settled := by
    have hrunning : (e.record.phases.any fun p => p.outcome = .running) = false := by
      simpa [List.any_eq_false] using h.running
    have hnone : e.record.settled.isNone = false := by
      simpa [Option.isNone_eq_false_iff, Option.isSome_iff_ne_none] using h.settled
    rw [hrunning, hnone, Bool.or_false, Bool.or_false]
    split_ifs with hunknown
    · exact (decide_eq_true_eq.mp hunknown).symm
    · rfl
  rw [JournalEntry.fence, hphases, hsettled]

/-- It keeps its outcomes, and how it is settled unless this was not final. -/
theorem Whole.reconcileEntry (h : e.Whole)
    (hfinal : e.record.settled = some .unknown → e.finalizedUnknown) :
    reconcileEntry device f e = e ∨
      (e.record.settled ≠ some .unknown ∧ ⟨.persist, .notAttempted⟩ ∉ e.record.phases ∧
        reconcileEntry device f e =
          { e with
            record := { e.record with settled := some (settleFromPhases e.record.phases) } }) := by
  rw [Daemon.reconcileEntry]
  split_ifs with hdone
  · exact .inl rfl
  · cases hcandidate : e.candidate with
    | none => exact .inl rfl
    | some candidate =>
      simp only [Bool.or_eq_true, not_or, Bool.not_eq_true] at hdone
      obtain ⟨⟨-, hopen⟩, hcomplete⟩ := hdone
      have hunknown : e.record.settled ≠ some .unknown := fun heq => by simp [hfinal heq] at hopen
      have hnone : ∀ p ∈ e.record.phases, p.outcome ≠ .unknown := h.unknown hunknown
      have hany : (e.record.phases.any fun p => p.outcome = .unknown || p.outcome = .running) =
          false := by
        simpa [List.any_eq_false] using fun p hp => ⟨hnone p hp, h.running p hp⟩
      have hphases : e.record.phases.map (fun p =>
          if p.outcome ≠ .unknown ∨ p.phase ∈ e.supersededPhases then p
          else { p with outcome := resolvePhase device f e candidate p.phase }) = e.record.phases :=
        map_eq_self fun p hp => if_pos (.inl (hnone p hp))
      refine .inr ⟨hunknown, ?_, ?_⟩
      · obtain hp | hp | hp | hp := h.persist
        · simp [isComplete, hp, hany] at hcomplete
        · simp [isComplete, hp, hany] at hcomplete
        · exact absurd hp hunknown
        · exact hp
      · simp only [Bool.or_eq_true, decide_eq_true_eq, hphases]

/-- What a restart makes of a whole receipt. -/
theorem Whole.recovered_cases (h : e.Whole) :
    (e.recovered device f r).record.phases = e.record.phases ∧
    ((e.recovered device f r).record.settled = e.record.settled ∨
      (e.record.settled ≠ some .unknown ∧ ⟨.persist, .notAttempted⟩ ∉ e.record.phases ∧
        (e.recovered device f r).record.settled = some (settleFromPhases e.record.phases))) := by
  have hfenced :
      ({ e with
        finalizedUnknown := e.finalizedUnknown || e.record.settled = some .unknown } :
          JournalEntry).Whole := ⟨h.1, h.2, h.3, h.4, h.5⟩
  rw [recovered, h.repaired, h.fence, recoverEntry]
  obtain heq | ⟨hunknown, hpersist, heq⟩ :=
    @Whole.reconcileEntry device f _ hfenced (by simpa using .inr)
  · rw [heq]
    exact ⟨rfl, .inl rfl⟩
  · rw [heq]
    exact ⟨rfl, .inr ⟨hunknown, hpersist, rfl⟩⟩

/-! ## What is held -/

/-- How the phases settle an operation. -/
theorem settleFromPhases_cases (phases : List PhaseRecord) :
    (settleFromPhases phases = .unknown ∧ (phases = [] ∨ ∃ q ∈ phases, unresolved q.outcome)) ∨
      ((settleFromPhases phases = .confirmed ∨ settleFromPhases phases = .failedKnown) ∧
        ∀ q ∈ phases, q.outcome ≠ .unknown) := by
  rw [settleFromPhases]
  split_ifs with hempty hunknown hfailed hnot
  · exact .inl ⟨rfl, .inl (List.isEmpty_iff.1 hempty)⟩
  · obtain ⟨q, hq, hout⟩ := List.any_eq_true.1 hunknown
    refine .inl ⟨rfl, .inr ⟨q, hq, ?_⟩⟩
    simp only [Bool.or_eq_true, decide_eq_true_eq] at hout
    obtain hout | hout := hout <;> simp [hout, unresolved]
  · refine .inr ⟨.inr rfl, fun q hq hout => hunknown (List.any_eq_true.2 ⟨q, hq, by simp [hout]⟩)⟩
  · obtain ⟨q, hq, hout⟩ := List.any_eq_true.1 hnot
    exact .inl ⟨rfl, .inr ⟨q, hq, by simp [of_decide_eq_true hout, unresolved]⟩⟩
  · refine .inr ⟨.inl rfl, fun q hq hout => hunknown (List.any_eq_true.2 ⟨q, hq, by simp [hout]⟩)⟩

/-- What a held phase tells of its receipt. -/
theorem settled_of_held {p : ConfigPhase} (h : p ∈ e.heldPhases) :
    e.supersededBy = none ∧ e.record.settled = some .unknown ∧ p ∈ e.record.phases.map (·.phase) ∧
      p ∉ e.supersededPhases ∧ ((∃ q ∈ e.record.phases, unresolved q.outcome) →
        ∃ q ∈ e.record.phases, q.phase = p ∧ unresolved q.outcome) := by
  rw [heldPhases] at h
  split_ifs at h with hfree
  · cases h
  · simp only [not_or, Bool.not_eq_true, Option.isSome_eq_false_iff, Option.isNone_iff_eq_none,
      not_not] at hfree
    obtain ⟨hmem, hsuper⟩ := List.mem_filter.1 h
    refine ⟨hfree.1, hfree.2, ?_, by simpa using hsuper, ?_⟩
    · split_ifs at hmem
      · exact hmem
      · obtain ⟨q, hq, rfl⟩ := List.mem_map.1 hmem
        exact List.mem_map.2 ⟨q, (List.mem_filter.1 hq).1, rfl⟩
    · rintro ⟨q, hq, hout⟩
      rw [if_neg] at hmem
      · obtain ⟨q, hq, rfl⟩ := List.mem_map.1 hmem
        exact ⟨q, (List.mem_filter.1 hq).1, rfl, (List.mem_filter.1 hq).2⟩
      · exact List.ne_nil_of_mem (List.mem_map.2 ⟨q, List.mem_filter.2 ⟨hq, hout⟩, rfl⟩)

/-- An unresolved phase is held. -/
theorem held_of_unresolved {q : PhaseRecord} (hby : e.supersededBy = none)
    (hsettled : e.record.settled = some .unknown) (hq : q ∈ e.record.phases)
    (hout : unresolved q.outcome) (hsuper : q.phase ∉ e.supersededPhases) :
    q.phase ∈ e.heldPhases := by
  have hpending : q.phase ∈ (e.record.phases.filter (unresolved ·.outcome)).map (·.phase) :=
    List.mem_map.2 ⟨q, List.mem_filter.2 ⟨hq, hout⟩, rfl⟩
  rw [heldPhases, if_neg (by simp [hby, hsettled])]
  refine List.mem_filter.2 ⟨?_, by simpa using hsuper⟩
  rw [if_neg (List.ne_nil_of_mem hpending)]
  exact hpending

/-- What a receipt that is settled holds of the config is held after a restart, and no more. -/
theorem Whole.persist_held (h : e.Whole)
    (hheld : ConfigPhase.persist ∈ (e.recovered device f r).heldPhases) :
    ConfigPhase.persist ∈ e.heldPhases := by
  have hcast := e.recast_recovered device f r
  obtain ⟨hphases, hsettled | ⟨hunknown, hpersist, hsettled⟩⟩ :=
    @Whole.recovered_cases device f r e h
  · rw [heldPhases, hcast.supersededBy, hcast.supersededPhases, hphases, hsettled] at hheld
    exact hheld
  · -- it is settled as uncertain, but for another phase
    obtain ⟨-, hsettled', hmem, -, hheld⟩ := settled_of_held hheld
    rw [hphases] at hmem hheld
    rw [hsettled, Option.some.injEq] at hsettled'
    obtain ⟨-, hempty | hopen⟩ | ⟨hsure, -⟩ := settleFromPhases_cases e.record.phases
    · rw [hempty] at hmem
      cases hmem
    · obtain ⟨⟨phase, o⟩, hq, rfl, hout⟩ := hheld hopen
      cases o with
      | unknown => exact absurd rfl (h.unknown hunknown _ hq)
      | running => exact absurd rfl (h.running _ hq)
      | notAttempted => exact absurd hq hpersist
      | confirmed => cases hout
      | failedKnown => cases hout
    · rw [hsettled'] at hsure
      simp at hsure

/-- A whole receipt stays whole. -/
theorem Whole.recovered (h : e.Whole) : (e.recovered device f r).Whole := by
  have hcast := e.recast_recovered device f r
  obtain ⟨hphases, hsettled⟩ := @Whole.recovered_cases device f r e h
  refine ⟨hcast.phases ▸ h.nodup, ?_, hphases ▸ h.running, fun hunknown => ?_, ?_⟩
  · obtain hsettled | ⟨-, -, hsettled⟩ := hsettled
    · exact hsettled ▸ h.settled
    · simp [hsettled]
  · rw [hphases]
    obtain hsettled | ⟨hunknown', -⟩ := hsettled
    · exact h.unknown (hsettled ▸ hunknown)
    · exact h.unknown hunknown'
  · rw [hphases]
    obtain hsettled | ⟨-, hpersist, -⟩ := hsettled
    · rw [hsettled]
      exact h.persist
    · exact .inr (.inr (.inr hpersist))

/-! ## A receipt in flight -/

/-- A receipt in flight, as it may be on disk. -/
structure Afloat (e : JournalEntry) : Prop where
  settled : e.record.settled = none
  nodup : (e.record.phases.map (·.phase)).Nodup
  supersededBy : e.supersededBy = none
  supersededPhases : e.supersededPhases = []
  finalizedUnknown : e.finalizedUnknown = false
  candidate : e.candidate ≠ none ∨ .persist ∉ e.record.phases.map (·.phase)

/-- A phase in flight, by the evidence. -/
def resolved (device : Device) (f : Option CanonicalConfig) (e : JournalEntry)
    (candidate : CanonicalConfig) (p : PhaseRecord) : PhaseRecord :=
  if p.outcome = .running ∨ p.outcome = .unknown then
    { p with outcome := resolvePhase device f e candidate p.phase }
  else p

/-- A phase in flight, without evidence. -/
def fenced (p : PhaseRecord) : PhaseRecord :=
  if p.outcome = .running then { p with outcome := .unknown } else p

/-- A receipt in flight is fenced. -/
theorem Afloat.fence (h : e.Afloat) :
    e.fence = { e with
      record := { e.record with
        phases := e.record.phases.map fenced, settled := some .unknown } } := by
  have hsettled : (e.record.settled = some .unknown || e.record.settled.isNone ||
      e.record.phases.any fun p => p.outcome = .running) = true := by simp [h.settled]
  rw [JournalEntry.fence, if_pos hsettled, h.settled]
  simp [fenced]

/-- What becomes of a phase of a receipt in flight. -/
theorem resolved_fenced (candidate : CanonicalConfig) (p : PhaseRecord) :
    (if (fenced p).outcome ≠ .unknown then fenced p
      else { fenced p with outcome := resolvePhase device f e candidate (fenced p).phase }) =
      resolved device f e candidate p := by
  obtain ⟨phase, o⟩ := p
  cases o <;> simp [fenced, resolved]

/-- What is open is looked up on the device. -/
theorem reconcileEntry_of_open {candidate : CanonicalConfig}
    (hcandidate : e.candidate = some candidate) (hby : e.supersededBy = none)
    (hsuper : e.supersededPhases = []) (hfinal : e.finalizedUnknown = false)
    (hcomplete : e.isComplete = false) {phases : List PhaseRecord}
    (hphases : e.record.phases.map (fun p => if p.outcome ≠ .unknown then p
      else { p with outcome := resolvePhase device f e candidate p.phase }) = phases) :
    Daemon.reconcileEntry device f e =
      { e with record := { e.record with phases, settled := some (settleFromPhases phases) } } := by
  rw [Daemon.reconcileEntry, if_neg (by simp [hby, hfinal, hcomplete]), hcandidate, ← hphases]
  simp [hsuper]

/-- What becomes of it: the evidence of its revocation settles a repair, that of the files any
    other operation. -/
theorem Afloat.recovered_cases (h : e.Afloat) :
    (e.isRevocationOnlyRepair ∧ r.bind (·.operation) = some e.record.op ∧
      r.any (·.uncertain) = false ∧ (e.recovered device f r).record.phases =
        [⟨.native, .confirmed⟩] ∧
      (e.recovered device f r).record.settled = some .confirmed) ∨
    (e.candidate = none ∧ (e.recovered device f r).record.phases = e.record.phases.map fenced ∧
      (e.recovered device f r).record.settled = some .unknown) ∨
    ∃ candidate, e.candidate = some candidate ∧
      (e.recovered device f r).record.phases = e.record.phases.map (resolved device f e candidate) ∧
      (e.recovered device f r).record.settled =
        some (settleFromPhases (e.record.phases.map (resolved device f e candidate))) := by
  obtain heq | ⟨hrepair, hop, hsure, hfinal, -, heq⟩ := e.repaired_cases r
  · cases hcandidate : e.candidate with
    | none =>
      have hreconcile : Daemon.reconcileEntry device f e.fence = e.fence := by
        have hcandidate' : e.fence.candidate = none := hcandidate
        rw [Daemon.reconcileEntry, hcandidate']
        exact ite_self _
      rw [recovered, heq, recoverEntry, hreconcile, h.fence]
      exact .inr (.inl ⟨rfl, rfl, rfl⟩)
    | some candidate =>
      have hcomplete : e.fence.isComplete = false := by simp [h.fence, isComplete]
      have hphases : e.fence.record.phases.map (fun p => if p.outcome ≠ .unknown then p
          else { p with outcome := resolvePhase device f e.fence candidate p.phase }) =
          e.record.phases.map (resolved device f e candidate) := by
        rw [h.fence, List.map_map]
        exact List.map_congr_left fun p _ => resolved_fenced candidate p
      have hreconcile :=
        @reconcileEntry_of_open device f e.fence candidate hcandidate h.supersededBy
        h.supersededPhases (by simp [h.fence, h.finalizedUnknown]) hcomplete _ hphases
      rw [recovered, heq, recoverEntry, hreconcile]
      exact .inr (.inr ⟨candidate, rfl, rfl, rfl⟩)
  · -- nothing is left to do
    have hrecovered : e.recovered device f r = { e with record := { e.record with
        phases := [⟨.native, .confirmed⟩], settled := some .confirmed } } := by
      rw [recovered, heq]
      simp [JournalEntry.fence, recoverEntry, Daemon.reconcileEntry, isComplete]
    refine .inl ⟨hrepair, hop, hsure, ?_, ?_⟩ <;> rw [hrecovered]

/-- A look at the native backend finds it not running. -/
theorem reconcileNative_ne_running (device : Device) (intent : Option NativeIntent) :
    reconcileNative device intent ≠ .running := by
  unfold reconcileNative
  repeat' split
  all_goals simp

/-- The config file decides about its phase. -/
theorem resolvePhase_persist {candidate : CanonicalConfig}
    (hcandidate : e.candidate = some candidate) :
    resolvePhase device f e candidate .persist = if e.proof.matches f then .confirmed
      else .failedKnown := by
  rw [resolvePhase]
  exact if_congr (proof_matches hcandidate).symm rfl rfl

/-- A phase that is looked up is not running. -/
theorem resolvePhase_ne_running (candidate : CanonicalConfig) (p : ConfigPhase) :
    resolvePhase device f e candidate p ≠ .running := by
  cases p with
  | persist =>
    rw [resolvePhase]
    split_ifs <;> simp
  | native => exact reconcileNative_ne_running device e.nativeIntent
  | _ => simp [resolvePhase]

/-- A receipt in flight becomes whole. -/
theorem Afloat.recovered (h : e.Afloat) : (e.recovered device f r).Whole := by
  have hnodup := (e.recast_recovered device f r).phases ▸ h.nodup
  obtain ⟨-, -, -, hphases, hsettled⟩ | ⟨-, hphases, hsettled⟩ |
      ⟨candidate, -, hphases, hsettled⟩ :=
    @Afloat.recovered_cases device f r e h
  · exact ⟨hnodup, by simp [hsettled], by simp [hphases], by simp [hphases], .inl hsettled⟩
  · refine ⟨hnodup, by simp [hsettled], fun p hp => ?_, absurd hsettled,
      .inr (.inr (.inl hsettled))⟩
    rw [hphases] at hp
    obtain ⟨q, -, rfl⟩ := List.mem_map.1 hp
    rw [fenced]
    split_ifs with hq
    · simp
    · exact hq
  · have hcases := settleFromPhases_cases (e.record.phases.map (resolved device f e candidate))
    refine ⟨hnodup, by simp [hsettled], fun p hp => ?_, fun hsure => ?_, ?_⟩
    · rw [hphases] at hp
      obtain ⟨q, -, rfl⟩ := List.mem_map.1 hp
      rw [resolved]
      split_ifs with hq
      · exact resolvePhase_ne_running candidate q.phase
      · exact fun hout => hq (.inl hout)
    · rw [hphases]
      obtain ⟨hunknown, -⟩ | ⟨-, hnone⟩ := hcases
      · exact absurd (hsettled.trans (congrArg some hunknown)) hsure
      · exact hnone
    · rw [hsettled]
      obtain ⟨heq, -⟩ | ⟨heq | heq, -⟩ := hcases <;> simp [heq]

/-- What it holds of the config was not attempted. -/
theorem Afloat.persist_held (h : e.Afloat)
    (hheld : ConfigPhase.persist ∈ (e.recovered device f r).heldPhases) :
    ⟨.persist, .notAttempted⟩ ∈ e.record.phases := by
  obtain ⟨-, hunknown, hmem, -, hopen⟩ := settled_of_held hheld
  rw [(e.recast_recovered device f r).phases] at hmem
  obtain ⟨-, -, -, -, hsettled⟩ | ⟨hcandidate, -⟩ | ⟨candidate, hcandidate, hphases, hsettled⟩ :=
    @Afloat.recovered_cases device f r e h
  · simp [hsettled] at hunknown
  · exact absurd hmem (h.candidate.resolve_left (absurd hcandidate))
  · rw [hsettled, Option.some.injEq] at hunknown
    obtain ⟨-, hempty | hopen'⟩ | ⟨hsure, -⟩ :=
      settleFromPhases_cases (e.record.phases.map (resolved device f e candidate))
    · rw [List.map_eq_nil_iff] at hempty
      simp [hempty] at hmem
    · rw [← hphases] at hopen'
      obtain ⟨q, hq, hpersist, hout⟩ := hopen hopen'
      rw [hphases] at hq
      obtain ⟨⟨phase, o⟩, hp, rfl⟩ := List.mem_map.1 hq
      obtain rfl : phase = .persist := by
        rw [← hpersist, resolved]
        split_ifs <;> rfl
      have hresolve := @resolvePhase_persist device f e candidate hcandidate
      cases o with
      | notAttempted => exact hp
      | running | unknown =>
        rw [resolved, if_pos (by simp)] at hout
        change unresolved (resolvePhase device f e candidate .persist) at hout
        rw [hresolve] at hout
        split_ifs at hout <;> cases hout
      | confirmed | failedKnown => cases hout
    · rw [hunknown] at hsure
      simp at hsure

/-! ## What is observed of a write -/

/-- When a write is known to have landed. -/
theorem persistCommitObserved_iff : persistCommitObserved e f ↔
    ⟨.persist, .confirmed⟩ ∈ e.record.phases ∨
      (⟨.persist, .unknown⟩ ∈ e.record.phases ∧ e.proof.matches f) := by
  have hproof :
      (if e.command = some .fullReset then f.isNone else e.candidate.isSome && e.candidate = f) =
      e.proof.matches f := by
    by_cases hreset : e.command = some .fullReset <;> simp [proof, PendingPersist.matches, hreset]
  rw [persistCommitObserved, hproof, List.any_eq_true]
  constructor
  · rintro ⟨⟨phase, o⟩, hp, hcond⟩
    simp only [Bool.and_eq_true, Bool.or_eq_true, decide_eq_true_eq] at hcond
    obtain ⟨rfl, rfl | ⟨rfl, hmatch⟩⟩ := hcond
    · exact .inl hp
    · exact .inr ⟨hp, hmatch⟩
  · rintro (hp | ⟨hp, hmatch⟩)
    · exact ⟨_, hp, by simp⟩
    · exact ⟨_, hp, by simp [hmatch]⟩

/-- A write that was on record as uncertain is observed in the config file. -/
theorem Whole.observed (h : e.Whole) (hunknown : ⟨.persist, .unknown⟩ ∈ e.record.phases)
    (hmatch : e.proof.matches f) :
    persistCommitObserved (e.recovered device f r) f := by
  rw [persistCommitObserved_iff, (e.recast_recovered device f r).proof,
    (@Whole.recovered_cases device f r e h).1]
  exact .inr ⟨hunknown, hmatch⟩

/-- So is one that was in flight. -/
theorem Afloat.observed (h : e.Afloat) {o : PhaseOutcome} (hp : ⟨.persist, o⟩ ∈ e.record.phases)
    (ho : o = .confirmed ∨ (unresolved o ∧ o ≠ .notAttempted ∧ e.proof.matches f)) :
    persistCommitObserved (e.recovered device f r) f := by
  have hmem : .persist ∈ e.record.phases.map (·.phase) := List.mem_map.2 ⟨_, hp, rfl⟩
  rw [persistCommitObserved_iff]
  obtain ⟨hrepair, -⟩ | ⟨hcandidate, -⟩ | ⟨candidate, hcandidate, hphases, -⟩ :=
    @Afloat.recovered_cases device f r e h
  · exact absurd hmem
      (h.candidate.resolve_left (absurd (candidate_of_isRevocationOnlyRepair hrepair)))
  · exact absurd hmem (h.candidate.resolve_left (absurd hcandidate))
  · refine .inl (hphases ▸ List.mem_map.2 ⟨_, hp, ?_⟩)
    have hresolve := @resolvePhase_persist device f e candidate hcandidate
    obtain rfl | ⟨hopen, hout, hmatch⟩ := ho
    · simp [resolved]
    · rw [if_pos hmatch] at hresolve
      cases o with
      | running | unknown => simp [resolved, hresolve]
      | notAttempted => exact absurd rfl hout
      | confirmed | failedKnown => cases hopen

end JournalEntry

/-! ## The journal -/

namespace Journal

variable {device : Device} {f : Option CanonicalConfig} {j : Journal}
  {e : JournalEntry} {op : OperationId}

/-- What a restart makes of what was under way, without a projection. -/
theorem fenceUnresolved_eq (h : j.zygiskProjection = none) : j.fenceUnresolved = { j with
    zygiskBootstrap := j.zygiskBootstrap.map (·.fenceRestart)
    replacement := j.replacement.map (·.fenceRestart)
    zygiskRevocation :=
      j.zygiskRevocation.map fun r => if r.state = .running then { r with state := .unknown } else r
    operations := j.operations.map fun e => (e.repaired j.zygiskRevocation).fence } := by
  simp only [fenceUnresolved, fenceProjection, h, Option.map_none]
  cases hrevocation : j.zygiskRevocation with
  | none => simp [fenceRevocation, JournalEntry.repaired]
  | some r => simp [fenceRevocation, JournalEntry.repaired, Function.comp_def]

/-- A journal as it may be on disk. -/
structure Stored (j : Journal) : Prop where
  nodup : (j.operations.map (·.record.op)).Nodup
  entries : ∀ e ∈ j.operations, e.Whole ∨ e.Afloat
  admitted : ∀ e ∈ j.operations, e.admission ≠ none
  pending : j.PendingSound
  retain : 0 < j.retainSettled
  projection : j.zygiskProjection = none

/-- An upgrade keeps a journal stored. -/
theorem Stored.upgrade (h : j.Stored) : j.upgrade.Stored :=
  ⟨h.nodup, h.entries, h.admitted, ⟨h.pending.admitted, h.pending.held⟩,
    lt_min h.retain (by decide), h.projection⟩

theorem Stored.prune (h : j.Stored) : j.prune.Stored where
  nodup := nodup_prune h.nodup
  entries e he := h.entries e (mem_of_mem_prune he)
  admitted e he := h.admitted e (mem_of_mem_prune he)
  pending := h.pending.prune h.admitted
  retain := j.keeps_prune.retainSettled ▸ h.retain
  projection := j.keeps_prune.zygiskProjection.trans h.projection

/-- The receipts after a restart. -/
theorem operations_recoverJournal (h : j.Stored) : (recoverJournal device f j).operations =
    j.operations.map (·.recovered device f j.zygiskRevocation) := by
  simp only [recoverJournal, fenceUnresolved_eq h.projection, List.map_map]
  rfl

theorem ids_recoverJournal (h : j.Stored) :
    (recoverJournal device f j).operations.map (·.record.op) = j.operations.map (·.record.op) := by
  rw [operations_recoverJournal h, List.map_map]
  exact List.map_congr_left fun e _ => (e.recast_recovered device f j.zygiskRevocation).op

/-- A restart forgets no id. -/
theorem Known.recover (h : j.Stored) (hop : j.Known op) : (recoverJournal device f j).Known op := by
  refine hop.step (.adjust j _ (ids_recoverJournal h) ?_ ?_)
  · simp only [recoverJournal, fenceUnresolved_eq h.projection]
  · simp only [recoverJournal, fenceUnresolved_eq h.projection]

end Journal

/-! ## The revision -/

/-- A receipt never takes the revision back. -/
theorem le_revisionAfterReconcile (f : Option CanonicalConfig) (revision : ℕ) (e : JournalEntry) :
    revision ≤ revisionAfterReconcile f revision e := by
  rw [revisionAfterReconcile]
  split
  · exact le_rfl
  · split_ifs
    · exact le_max_left _ _
    · exact le_rfl

/-- Nor do all receipts. -/
theorem le_foldl_revision (f : Option CanonicalConfig) (entries : List JournalEntry)
    (revision : ℕ) :
    revision ≤ entries.foldl (revisionAfterReconcile f) revision := by
  induction entries generalizing revision with
  | nil => exact le_rfl
  | cons e entries ih => exact (le_revisionAfterReconcile f revision e).trans (ih _)

/-- A write that landed is not above the revision. -/
theorem commit_le_foldl_revision {f : Option CanonicalConfig} {entries : List JournalEntry}
    {e : JournalEntry} {a : Admission} (he : e ∈ entries) (hobserved : persistCommitObserved e f)
    (ha : e.admission = some a)
    (revision : ℕ) : a.commitRevision ≤ entries.foldl (revisionAfterReconcile f) revision := by
  induction entries generalizing revision with
  | nil => cases he
  | cons d entries ih =>
    obtain rfl | he := List.mem_cons.1 he
    · refine le_trans ?_ (le_foldl_revision f entries _)
      simp [revisionAfterReconcile, ha, hobserved]
    · exact ih he _

namespace Journal

variable {device : Device} {f : Option CanonicalConfig} {j : Journal}
  {e : JournalEntry} {a : Admission}

/-- The revision that is observed is not below that of the receipts. -/
theorem foldl_le_observedRevision (j : Journal) (f : Option CanonicalConfig) :
    j.operations.foldl (revisionAfterReconcile f) j.configRevision ≤ observedRevision j f := by
  rw [observedRevision]
  split
  · exact le_rfl
  · exact le_max_left _ _

/-- A restart never takes the revision back. -/
theorem configRevision_le_recover (h : j.Stored) :
    j.configRevision ≤ (recoverJournal device f j).configRevision := by
  have hle := (le_foldl_revision f _ _).trans (foldl_le_observedRevision { j.fenceUnresolved with
    debugLeases := [], operations := j.fenceUnresolved.operations.map (recoverEntry device f) } f)
  rw [fenceUnresolved_eq h.projection] at hle
  refine hle.trans_eq ?_
  rw [recoverJournal, fenceUnresolved_eq h.projection]

/-- The revision of a write that is observed. -/
theorem commit_le_recover (he : e ∈ (recoverJournal device f j).operations)
    (hobserved : persistCommitObserved e f) (ha : e.admission = some a) :
    a.commitRevision ≤ (recoverJournal device f j).configRevision :=
  (commit_le_foldl_revision he hobserved ha _).trans
  (foldl_le_observedRevision { j.fenceUnresolved with
    debugLeases := [], operations := j.fenceUnresolved.operations.map (recoverEntry device f) } f)

/-- A pending write that landed is not above the revision. -/
theorem commit_le_recover_of_pending (h : j.Stored) {p : PendingPersist}
    (hp : j.pendingPersist = some p) (hmatch : p.matches f) (ha : p.admission = some a) :
    a.commitRevision ≤ (recoverJournal device f j).configRevision := by
  have hpending : observedPending { j.fenceUnresolved with
      debugLeases := [], operations :=
    j.fenceUnresolved.operations.map (recoverEntry device f) } f = some a := by
    rw [fenceUnresolved_eq h.projection]
    simp [observedPending, hp, Option.filter, hmatch, ha]
  change _ ≤ observedRevision _ f
  rw [observedRevision, hpending]
  exact le_max_right _ _

/-- After a restart all receipts are settled, and what they wrote is not newer than the config. -/
theorem Stored.recover (h : j.Stored) : (recoverJournal device f j).Sound (fun _ => False)
    (recoverJournal device f j).configRevision := by
  have hentry : ∀ e' ∈ (recoverJournal device f j).operations, e'.Whole ∧ e'.admission ≠ none := by
    intro e' he'
    rw [operations_recoverJournal h] at he'
    obtain ⟨e, he, rfl⟩ := List.mem_map.1 he'
    refine ⟨?_, (e.recast_recovered device f _).admission ▸ h.admitted e he⟩
    obtain hwhole | hafloat := h.entries e he
    · exact hwhole.recovered
    · exact hafloat.recovered
  refine ⟨ids_recoverJournal h ▸ h.nodup, fun e he _ => (hentry e he).1,
    fun e he => (hentry e he).2, fun e he _ hconf a ha => ?_, ?_, ?_, ?_⟩
  · refine commit_le_recover he (JournalEntry.persistCommitObserved_iff.2 (.inl ?_)) ha
    exact JournalEntry.persistConfirmed_iff.1 hconf
  · simp only [recoverJournal, fenceUnresolved_eq h.projection]
    exact ⟨h.pending.admitted, h.pending.held⟩
  · simp only [recoverJournal, fenceUnresolved_eq h.projection]
    exact h.retain
  · simp only [recoverJournal, fenceUnresolved_eq h.projection]
    exact h.projection

end Journal

end VpnHide.Daemon

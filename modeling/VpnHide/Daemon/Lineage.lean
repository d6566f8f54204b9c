import VpnHide.Daemon.Execution

/-!
# What becomes of the journal

Every journal that Core writes comes from an earlier one by recording a receipt, by retention,
by touching what is not a receipt, or by a restart. What these keep (`Heritable`), the execution
of a request keeps, wherever it crashes; it dispatches no phase twice, and does nothing for
operations that are known (`Serves.safe_executeEditOpts`).
-/

namespace VpnHide.Daemon

open Lib Config

/-! ## Steps of the journal -/

namespace Journal

/-- The same receipts, but for what supersedes them. -/
structure Touches (j j' : Journal) : Prop where
  receipts : ∃ g : JournalEntry → JournalEntry, (∀ e, (g e).record = e.record) ∧
    j'.operations = j.operations.map g
  issuedThrough : j.issuedThrough ≤ j'.issuedThrough
  expiredThrough : j'.expiredThrough = j.expiredThrough
  retiredIds : j'.retiredIds = j.retiredIds

/-- What every step of the journal keeps that records no receipt of an operation in `S`. -/
structure Heritable (S : OperationId → Prop) (P : Journal → Prop) : Prop where
  known : ∀ j, P j → ∀ op, S op → j.Known op
  touches : ∀ j j', j.Touches j' → P j → P j'
  prune : ∀ j, P j → P j.prune
  insert : ∀ j entry, ¬ S entry.record.op → P j → P (j.insert entry)
  migrate : ∀ j, P j → P j.migrate
  recover : ∀ device f j, j.Stored → P j → P (recoverJournal device f j)

variable {j j' : Journal}

theorem touches_of_eq (hops : j'.operations = j.operations)
    (hissued : j.issuedThrough ≤ j'.issuedThrough) (hexpired : j'.expiredThrough = j.expiredThrough)
    (hretired : j'.retiredIds = j.retiredIds) : j.Touches j' :=
  ⟨⟨id, fun _ => rfl, by simp [hops]⟩, hissued, hexpired, hretired⟩

theorem Touches.ids (h : j.Touches j') :
    j'.operations.map (·.record.op) = j.operations.map (·.record.op) := by
  obtain ⟨g, hg, hops⟩ := h.receipts
  rw [hops, List.map_map]
  exact List.map_congr_left fun e _ => congrArg (·.op) (hg e)

/-- A touched journal has the same receipts. -/
theorem Touches.mem (h : j.Touches j') {e' : JournalEntry} (he' : e' ∈ j'.operations) :
    ∃ e ∈ j.operations, e'.record = e.record := by
  obtain ⟨g, hg, hops⟩ := h.receipts
  rw [hops] at he'
  obtain ⟨e, he, rfl⟩ := List.mem_map.1 he'
  exact ⟨e, he, hg e⟩

/-- What touches a journal forgets no id. -/
theorem Known.touches {op : OperationId} (hop : j.Known op) (h : j.Touches j') : j'.Known op :=
  hop.step (.adjust j j' h.ids h.expiredThrough h.retiredIds)

/-- A transfer of the revocation touches the journal. -/
theorem touches_transferRevocation (j : Journal) (op : OperationId) (sameGrant : Bool)
    (r : Option ZygiskRevocation) :
    j.Touches { j.transferRevocation op sameGrant with zygiskRevocation := r } := by
  rw [transferRevocation]
  split
  next => exact touches_of_eq rfl le_rfl rfl rfl
  next previous _ =>
    split_ifs
    · refine ⟨⟨_, fun e => ?_, rfl⟩, le_rfl, rfl, rfl⟩
      split_ifs <;> rfl
    · exact touches_of_eq rfl le_rfl rfl rfl

/-- Superseding receipts touches the journal. -/
theorem touches_supersede (r : Request) (c : Operation) (o : PlanOutcome) (j : Journal) :
    j.Touches (supersede r c o j) := by
  rw [supersede]
  split_ifs
  · exact ⟨⟨supersedeEntry c o, fun e => (yields_supersedeEntry c o e).record, rfl⟩,
      le_rfl, rfl, rfl⟩
  · exact touches_of_eq rfl le_rfl rfl rfl

end Journal

/-! ## Core at work -/

/-- The phases that were dispatched. -/
def Effect.dispatched : Effect → Option (OperationId × ConfigPhase)
  | .phase op p none => some (op, p)
  | _ => none

/-- The phases that have been dispatched, the last one first. -/
def World.dispatches (w : World) : List (OperationId × ConfigPhase) :=
  w.effects.filterMap Effect.dispatched

/-- What a crash leaves of a world `w₀`, where nothing was done for the operations in `S`. -/
structure Descends (S : OperationId → Prop) (P : Journal → Prop) (w₀ w : World) : Prop where
  disk : P w.disk
  effects : ∃ notes, w.effects = notes ++ w₀.effects ∧ ∀ e ∈ notes, ¬ S e.op
  once : w.dispatches.Nodup

/-- What has become of a world while Core is up. -/
structure Serves (S : OperationId → Prop) (P : Journal → Prop) (w₀ w : World) :
    Prop extends Descends S P w₀ w where
  store : P w.store.journal

/-- What a crash leaves while the operation `op` runs. -/
structure Drifts (P : Journal → Prop) (op : OperationId) (w₀ w : World) : Prop where
  disk : P w.disk
  effects : ∃ notes, w.effects = notes ++ w₀.effects ∧ ∀ e ∈ notes, e.op = op
  once : w.dispatches.Nodup

/-- Core while it runs the operation `op`; the phases `ds` were dispatched. -/
structure Steers (P : Journal → Prop) (op : OperationId) (w₀ : World)
    (ds : List (OperationId × ConfigPhase)) (w : World) : Prop extends Drifts P op w₀ w where
  store : P w.store.journal
  dispatches : w.dispatches = ds

section Flight

variable {S : OperationId → Prop} {P : Journal → Prop} {op : OperationId} {w₀ w : World}
  {ds : List (OperationId × ConfigPhase)} {j : Journal} {s : ConfigStore}
  {c : Operation} {hk : Hook}
  {p : ConfigPhase} {entry : JournalEntry} {r : Request} {o : PlanOutcome}

/-- A write of a journal that has the property. -/
theorem Steers.safe_writeAtomic (h : Steers P op w₀ ds w) (hj : P j) :
    (writeAtomic j).Safe (fun _ w' => Steers P op w₀ ds w' ∧ w'.store = w.store)
    (Drifts P op w₀) w := by
  refine Daemon.safe_writeAtomic h.toDrifts fun result => ?_
  split_ifs
  · exact ⟨⟨⟨hj, h.effects, h.once⟩, h.store, h.dispatches⟩, rfl⟩
  · exact ⟨h, rfl⟩

/-- Core takes a store whose journal has the property. -/
theorem Steers.install (h : Steers P op w₀ ds w) (hs : P s.journal) :
    Steers P op w₀ ds (w.install s) :=
  ⟨⟨h.disk, h.effects, h.once⟩, hs, h.dispatches⟩

theorem journal_foldl_takeOver (entries : List JournalEntry) (s : ConfigStore) :
    (entries.foldl takeOver s).journal = s.journal := by
  induction entries generalizing s with
  | nil => rfl
  | cons e entries ih =>
    rw [List.foldl_cons, ih, takeOver]
    split
    · rfl
    · split_ifs <;> rfl

/-- Progress is shown of a journal that has the property. -/
theorem Steers.safe_publishProgress (h : Steers P op w₀ ds w) (hj : P j) :
    (publishProgress j).Safe (fun _ => Steers P op w₀ ds) (Drifts P op w₀) w := by
  refine .get_bind (safe_installStore (h.install ?_))
  rw [journal_foldl_takeOver]
  exact hj

theorem Steers.safe_freezeStorageFault (h : Steers P op w₀ ds w) (hs : P s.journal) :
    (freezeStorageFault s).Safe (fun _ => Steers P op w₀ ds) (Drifts P op w₀) w :=
  Daemon.safe_freezeStorageFault ⟨⟨h.disk, h.effects, h.once⟩, hs, h.dispatches⟩

/-- A transition to a journal that has the property. -/
theorem Steers.safe_persistTransitionJournal (h : Steers P op w₀ ds w) (hj : P j) :
    (persistTransitionJournal j).Safe (fun _ => Steers P op w₀ ds) (Drifts P op w₀) w := by
  refine .get_bind (.seq (h.safe_writeAtomic hj) (fun _ => id) ?_)
  rintro result w₁ ⟨h₁, hstore⟩
  split_ifs
  · exact .seq (h₁.safe_publishProgress hj) (fun _ => id) fun _ _ h₂ => .pure h₂
  · exact .seq (h₁.safe_freezeStorageFault h.store) (fun _ => id) fun _ _ h₂ => .pure h₂

/-- Something is done for the operation that is not a dispatch. -/
theorem Steers.safe_note (h : Steers P op w₀ ds w) {e : Effect} (hop : e.op = op)
    (he : e.dispatched = none) :
    (note e).Safe (fun _ => Steers P op w₀ ds) (Drifts P op w₀) w := by
  obtain ⟨notes, heq, hnotes⟩ := h.effects
  have hdispatches : World.dispatches { w with effects := e :: w.effects } = w.dispatches := by
    simp [World.dispatches, he]
  refine .modify ⟨⟨h.disk, ⟨e :: notes, by simp [heq], List.forall_mem_cons.2 ⟨hop, hnotes⟩⟩, ?_⟩,
    h.store, ?_⟩
  · rw [hdispatches]
    exact h.once
  · exact hdispatches.trans h.dispatches

theorem Steers.pruned (h : Steers P op w₀ ds w) (x : Option CanonicalConfig × Journal) :
    Steers P op w₀ ds { w with pruned := x :: w.pruned } :=
  ⟨⟨h.disk, h.effects, h.once⟩, h.store, h.dispatches⟩

/-- Expiry keeps an inherited property. -/
theorem Steers.safe_prune (h : Steers P op w₀ ds w) (hP : Journal.Heritable S P) (hj : P j) :
    (prune j).Safe (fun j' w' => Steers P op w₀ ds w' ∧ P j') (Drifts P op w₀) w :=
  Daemon.safe_prune ⟨h.pruned _, hP.prune j hj⟩

/-- Taking in a receipt keeps it, if it is about other operations. -/
theorem Steers.safe_upsert (h : Steers P op w₀ ds w) (hP : Journal.Heritable S P) (hop : ¬ S op)
    (hentry : entry.record.op = op) (hj : P j) :
    (upsert j entry).Safe (fun j' w' => Steers P op w₀ ds w' ∧ P j') (Drifts P op w₀) w :=
  h.safe_prune hP (hP.insert j entry (hentry ▸ hop) hj)

/-! ## Before a phase -/

/-- What a step before a phase leaves: the journal in `get` of its result. -/
abbrev Steps {α : Type} (P : Journal → Prop) (op : OperationId) (w₀ : World)
    (ds : List (OperationId × ConfigPhase)) (get : α → Journal) (m : Core α) (w : World) : Prop :=
  m.Safe (fun a w' => Steers P op w₀ ds w' ∧ P (get a)) (Drifts P op w₀) w

/-- A revocation keeps it. -/
theorem Steers.safe_revoke (h : Steers P op w₀ ds w) (hP : Journal.Heritable S P) (hj : P j) :
    Steps P op w₀ ds (·.journal) (revoke op j) w := by
  refine .ask_bind h.toDrifts fun answer sameGrant _ => ?_
  cases sameGrant with
  | none => exact .pure ⟨h, hj⟩
  | some sameGrant =>
    dsimp only
    split_ifs
    · exact .pure ⟨h, hj⟩
    · have hrevoked : ∀ state, P { j.transferRevocation op sameGrant with
          zygiskRevocation := some ⟨some op, state⟩ } := fun state =>
        hP.touches j _ (Journal.touches_transferRevocation j op sameGrant _) hj
      refine .seq (h.safe_persistTransitionJournal (hrevoked .running)) (fun _ => id) ?_
      intro result w₁ h₁
      cases result with
      | refused => exact .pure ⟨h₁, hrevoked .running⟩
      | uncertain landed => exact .pure ⟨h₁, hrevoked .running⟩
      | written =>
        refine .seq (h₁.safe_note rfl rfl) (fun _ => id) ?_
        intro _ w₂ h₂
        refine .ask_bind h₂.toDrifts fun answer ok _ => ?_
        refine .seq (h₂.safe_note rfl rfl) (fun _ => id) ?_
        intro _ w₃ h₃
        exact .seq (h₃.safe_persistTransitionJournal (hrevoked _)) (fun _ => id) fun _ _ h₄ =>
          .pure ⟨h₄, hrevoked _⟩

/-- Retiring the targets of Zygisk keeps it. -/
theorem Steers.safe_retire (h : Steers P c.op w₀ ds w) (hP : Journal.Heritable S P) (hj : P j) :
    Steps P c.op w₀ ds (·.2) (retire c j) w := by
  refine .ask_bind h.toDrifts fun answer needed _ => ?_
  rcases needed with _ | _ | _
  · exact .pure ⟨h, hj⟩
  · exact .pure ⟨h, hj⟩
  · exact .seq (h.safe_revoke hP hj) (fun _ => id) fun _ _ h₁ => .pure h₁

theorem Journal.Heritable.startup {j : Journal} (hP : Journal.Heritable S P) (hj : P j)
    (uncertain : Bool) :
    P { j with nativeStartupUncertain := uncertain } :=
  hP.touches j _ (Journal.touches_of_eq rfl le_rfl rfl rfl) hj

/-- What comes before a start keeps it. -/
theorem Steers.safe_beforeStartup (h : Steers P op w₀ ds w) (hj : P hk.journal) :
    (beforeStartup hk p).Safe (fun _ => Steers P op w₀ ds) (Drifts P op w₀) w := by
  rw [beforeStartup]
  split_ifs
  · refine .ask_bind h.toDrifts fun answer prepared _ => ?_
    obtain ⟨evidence, refused, intent⟩ := prepared
    have hend : ∀ (result : WriteResult) w₁, Steers P op w₀ ds w₁ → Prog.Safe
        (if result ≠ .written then pure (some .unknown, none)
          else if refused then pure (some .failedKnown, none)
          else pure (none, intent) : Core (Option PhaseOutcome × Option NativeIntent))
        (fun _ => Steers P op w₀ ds) (Drifts P op w₀) w₁ := by
      intro result w₁ h₁
      split_ifs <;> exact .pure h₁
    cases evidence with
    | true => exact .seq (h.safe_persistTransitionJournal hj) (fun _ => id) hend
    | false => exact .seq (Prog.Safe.pure h) (fun _ => id) hend
  · exact .pure h

/-- A phase is dispatched that was not before. -/
theorem Steers.safe_perform (h : Steers P c.op w₀ ds w) (hp : (c.op, p) ∉ ds) :
    (perform c p).Safe (fun _ => Steers P c.op w₀ ((c.op, p) :: ds)) (Drifts P c.op w₀) w := by
  obtain ⟨notes, heq, hnotes⟩ := h.effects
  have h₁ : Steers P c.op w₀ ((c.op, p) :: ds)
      { w with effects := .phase c.op p none :: w.effects } := by
    have hdispatches : World.dispatches { w with effects := .phase c.op p none :: w.effects } =
        (c.op, p) :: ds := by
      rw [← h.dispatches]
      rfl
    refine ⟨⟨h.disk,
      ⟨.phase c.op p none :: notes, by simp [heq], List.forall_mem_cons.2 ⟨rfl, hnotes⟩⟩, ?_⟩,
      h.store, hdispatches⟩
    rw [hdispatches, List.nodup_cons]
    exact ⟨hp, h.dispatches ▸ h.once⟩
  refine .modify_bind (.ask_bind h₁.toDrifts fun answer outcome _ =>
    .modify_bind (.seq ?_ (fun _ => id) fun _ _ h₂ => .pure h₂))
  split_ifs
  · have h₂ : Steers P c.op w₀ ((c.op, p) :: ds) { w with
        effects := .phase c.op p none :: w.effects, file := c.target, landed :=
      c.admission.commitRevision :: w.landed } :=
      ⟨⟨h₁.disk, h₁.effects, h₁.once⟩, h₁.store, h₁.dispatches⟩
    exact h₂.safe_note rfl rfl
  · exact h₁.safe_note rfl rfl

section Phases

variable (hP : Journal.Heritable S P) (hop : ¬ S c.op)

include hP hop

/-- Taking down that a phase runs keeps it. -/
theorem Steers.safe_recordPhaseRunning (h : Steers P c.op w₀ ds w) (hj : P hk.journal)
    (intent : Option NativeIntent) :
    Steps P c.op w₀ ds (·.2.journal) (recordPhaseRunning c hk p intent) w := by
  refine .seq (h.safe_upsert hP hop rfl hj) (fun _ => id) ?_
  rintro j w₁ ⟨h₁, hj₁⟩
  exact .seq (h₁.safe_writeAtomic hj₁) (fun _ => id) fun _ _ h₂ => .pure ⟨h₂.1, hj₁⟩

/-- An activation keeps it. -/
theorem Steers.safe_activate (h : Steers P c.op w₀ ds w) (hj : P hk.journal) :
    Steps P c.op w₀ ds (·.2.journal) (activate c hk) w := by
  refine .ask_bind h.toDrifts fun answer activation _ => ?_
  cases activation with
  | none => exact .pure ⟨h, hj⟩
  | refused => exact .pure ⟨h, hj⟩
  | begun intent =>
    refine .seq (h.safe_recordPhaseRunning hP hop (hP.startup hj true) intent) (fun _ => id) ?_
    rintro ⟨result, hk₁⟩ w₁ ⟨h₁, hj₁⟩
    dsimp only
    split_ifs
    · exact .pure ⟨h₁, hj₁⟩
    · refine .seq (h₁.safe_publishProgress hj₁) (fun _ => id) ?_
      intro _ w₂ h₂
      refine .seq (h₂.safe_retire hP hj₁) (fun _ => id) ?_
      rintro ⟨stop, j₃⟩ w₃ ⟨h₃, hj₃⟩
      cases stop with
      | some outcome => exact .pure ⟨h₃, hj₃⟩
      | none =>
        refine .ask_bind h₃.toDrifts fun answer ok _ => ?_
        split_ifs
        · exact .pure ⟨h₃, hj₃⟩
        · refine .seq (h₃.safe_note rfl rfl) (fun _ => id) ?_
          intro _ w₄ h₄
          refine .ask_bind h₄.toDrifts fun answer uncertain _ => ?_
          have hj₅ := hP.startup hj₃ uncertain
          exact .seq (h₄.safe_persistTransitionJournal hj₅) (fun _ => id) fun _ _ h₅ =>
            .pure ⟨h₅, hj₅⟩

/-- What comes before the native phase keeps it. -/
theorem Steers.safe_beforeRevocation (h : Steers P c.op w₀ ds w) (hj : P hk.journal) :
    Steps P c.op w₀ ds (·.2.journal) (beforeRevocation c hk p) w := by
  rw [Steps, beforeRevocation]
  split_ifs
  · refine .seq (h.safe_recordPhaseRunning hP hop hj none) (fun _ => id) ?_
    rintro ⟨result, hk₁⟩ w₁ ⟨h₁, hj₁⟩
    dsimp only
    split_ifs
    · exact .pure ⟨h₁, hj₁⟩
    · refine .seq (h₁.safe_publishProgress hj₁) (fun _ => id) ?_
      intro _ w₂ h₂
      exact .seq (h₂.safe_revoke hP hj₁) (fun _ => id) fun _ _ h₃ => .pure h₃
  · exact .pure ⟨h, hj⟩

/-- Taking down an intent keeps it. -/
theorem Steers.safe_recordIntent (h : Steers P c.op w₀ ds w) (hj : P hk.journal)
    (intent : Option NativeIntent) :
    Steps P c.op w₀ ds (·.2.journal) (recordIntent c hk p intent) w := by
  refine .seq (h.safe_recordPhaseRunning hP hop hj intent) (fun _ => id) ?_
  rintro ⟨result, hk₁⟩ w₁ ⟨h₁, hj₁⟩
  cases result with
  | refused => exact .pure ⟨h₁, hj₁⟩
  | uncertain landed => exact .pure ⟨h₁, hj₁⟩
  | written =>
    refine .seq (h₁.safe_publishProgress hj₁) (fun _ => id) ?_
    intro _ w₂ h₂
    refine .ask_bind h₂.toDrifts fun answer valid _ => ?_
    split_ifs
    · exact .pure ⟨h₂, hj₁⟩
    · exact h₂.safe_activate hP hop hj₁
    · exact .seq (h₂.safe_retire hP hj₁) (fun _ => id) fun _ _ h₃ => .pure h₃
    · exact .pure ⟨h₂, hj₁⟩

/-- What comes before a phase keeps it. -/
theorem Steers.safe_before (h : Steers P c.op w₀ ds w) (hj : P hk.journal) :
    Steps P c.op w₀ ds (·.2.journal) (before c hk p) w := by
  refine .seq (h.safe_beforeRevocation hP hop hj) (fun _ => id) ?_
  rintro ⟨stop, hk₁⟩ w₁ ⟨h₁, hj₁⟩
  cases stop with
  | some outcome => exact .pure ⟨h₁, hj₁⟩
  | none =>
    refine .seq (h₁.safe_beforeStartup hj₁) (fun _ => id) ?_
    rintro ⟨stop, intent⟩ w₂ h₂
    cases stop with
    | some outcome => exact .pure ⟨h₂, hj₁⟩
    | none => exact h₂.safe_recordIntent hP hop hj₁ intent

/-! ## A plan -/

/-- What a phase leaves: it may have been dispatched. -/
def Sent (P : Journal → Prop) (op : OperationId) (w₀ : World)
    (ds : List (OperationId × ConfigPhase)) (p : ConfigPhase) (r : PhaseOutcome × Hook)
    (w : World) : Prop :=
  P r.2.journal ∧ ∃ ds', Steers P op w₀ ds' w ∧ ∀ x ∈ ds', x = (op, p) ∨ x ∈ ds

/-- What comes after a phase keeps it. -/
theorem Steers.safe_after (h : Steers P c.op w₀ ((c.op, p) :: ds) w) (hj : P hk.journal)
    (outcome : PhaseOutcome) :
    (after c hk p outcome).Safe (Sent P c.op w₀ ds p) (Drifts P c.op w₀) w := by
  have hsent : ∀ {hk' : Hook} {w'} (x : PhaseOutcome), Steers P c.op w₀ ((c.op, p) :: ds) w' →
      P hk'.journal → Sent P c.op w₀ ds p (x, hk') w' :=
    fun _ h' hj' => ⟨hj', _, h', fun _ => List.mem_cons.1⟩
  rw [after]
  dsimp only
  split_ifs
  · refine .seq (h.safe_upsert hP hop rfl hj) (fun _ => id) ?_
    rintro j w₁ ⟨h₁, hj₁⟩
    refine .seq (h₁.safe_writeAtomic hj₁) (fun _ => id) ?_
    rintro result w₂ ⟨h₂, -⟩
    split_ifs
    · exact .pure (hsent _ h₂ hj₁)
    · exact .seq (h₂.safe_publishProgress hj₁) (fun _ => id) fun _ _ h₃ => .pure (hsent _ h₃ hj₁)
  · exact .pure (hsent _ h hj)

/-- A phase keeps it, and is dispatched at most once. -/
theorem Steers.safe_stepPhase (h : Steers P c.op w₀ ds w) (hj : P hk.journal)
    (hp : (c.op, p) ∉ ds) :
    (stepPhase c hk p).Safe (Sent P c.op w₀ ds p) (Drifts P c.op w₀) w := by
  have hsent : ∀ {hk' : Hook} {w'} (x : PhaseOutcome), Steers P c.op w₀ ds w' → P hk'.journal →
      Sent P c.op w₀ ds p (x, hk') w' := fun _ h' hj' => ⟨hj', ds, h', fun _ => .inr⟩
  rw [stepPhase]
  split_ifs
  · exact .pure (hsent _ h hj)
  · refine .seq (h.safe_before hP hop hj) (fun _ => id) ?_
    rintro ⟨blocked, hk₁⟩ w₁ ⟨h₁, hj₁⟩
    cases blocked with
    | some fail => exact .pure (hsent _ h₁ hj₁)
    | none => exact .seq (h₁.safe_perform hp) (fun _ => id) fun outcome _ h₂ =>
      h₂.safe_after hP hop hj₁ outcome

/-- A plan dispatches each of its phases once. -/
theorem Steers.safe_runPlan {rest : List ConfigPhase} (h : Steers P c.op w₀ ds w)
    (hj : P hk.journal) (hnodup : rest.Nodup) (hnew : ∀ p ∈ rest, (c.op, p) ∉ ds) :
    (runPlan c rest hk o).Safe (fun r w' => P r.1.journal ∧ ∃ ds', Steers P c.op w₀ ds' w')
    (Drifts P c.op w₀) w := by
  induction rest generalizing hk o w ds with
  | nil => exact .pure ⟨hj, ds, h⟩
  | cons p rest ih =>
    rw [List.nodup_cons] at hnodup
    rw [List.forall_mem_cons] at hnew
    refine .seq (h.safe_stepPhase hP hop hj hnew.1) (fun _ => id) ?_
    rintro ⟨outcome, hk₁⟩ w₁ ⟨hj₁, ds₁, h₁, hds₁⟩
    dsimp only
    split_ifs
    · exact .pure ⟨hj₁, ds₁, h₁⟩
    · refine ih h₁ hj₁ hnodup.2 fun q hq hmem => ?_
      obtain heq | hmem := hds₁ _ hmem
      · exact hnodup.1 ((Prod.mk.inj heq).2 ▸ hq)
      · exact hnew.2 q hq hmem

/-! ## An operation -/

/-- Settling an operation keeps it. -/
theorem Steers.safe_settle (h : Steers P c.op w₀ ds w) (hs : P s.journal) :
    (settle r c s o).Safe (fun _ => Steers P c.op w₀ ds) (Drifts P c.op w₀) w := by
  have hcommit : (commitOutcome c s o).journal.operations = s.journal.operations ∧
      (commitOutcome c s o).journal.issuedThrough = s.journal.issuedThrough ∧
      (commitOutcome c s o).journal.expiredThrough = s.journal.expiredThrough ∧
      (commitOutcome c s o).journal.retiredIds = s.journal.retiredIds := by
    rw [commitOutcome]
    split_ifs <;> exact ⟨rfl, rfl, rfl, rfl⟩
  have hcommitted : P (commitOutcome c s o).journal :=
    hP.touches s.journal _
      (Journal.touches_of_eq hcommit.1 hcommit.2.1.ge hcommit.2.2.1 hcommit.2.2.2) hs
  have hsettled : P (settledJournal c (commitOutcome c s o) o) :=
    hP.insert _ _ hop
      (hP.touches (commitOutcome c s o).journal _ (Journal.touches_of_eq rfl le_rfl rfl rfl)
        hcommitted)
  refine .seq (h.safe_prune hP hsettled) (fun _ => id) ?_
  rintro settled w₁ ⟨h₁, hj₁⟩
  refine .seq (h₁.safe_writeAtomic hj₁) (fun _ => id) ?_
  rintro result w₂ ⟨h₂, -⟩
  split_ifs
  · exact .seq (h₂.safe_freezeStorageFault hcommitted) (fun _ => id) fun _ _ h₃ => .pure h₃
  · refine .seq (h₂.safe_prune hP (hP.touches _ _ (Journal.touches_supersede r c o settled) hj₁))
      (fun _ => id) ?_
    rintro j w₃ ⟨h₃, hj₃⟩
    refine .seq (h₃.safe_writeAtomic hj₃) (fun _ => id) ?_
    rintro result w₄ ⟨h₄, -⟩
    split_ifs
    · exact .seq (h₄.safe_freezeStorageFault hj₁) (fun _ => id) fun _ _ h₅ => .pure h₅
    · exact .bind (safe_installStore (.pure (h₄.install hj₃)))

/-- A dispatch keeps it, and dispatches no phase twice. -/
theorem Steers.safe_dispatch (h : Steers P c.op w₀ ds w) (hs : P s.journal) (hnodup : c.plan.Nodup)
    (hnew : ∀ p, (c.op, p) ∉ ds) :
    (dispatch r c s).Safe (fun _ w' => ∃ ds', Steers P c.op w₀ ds' w') (Drifts P c.op w₀) w := by
  refine .seq (h.safe_upsert hP hop rfl hs) (fun _ => id) ?_
  rintro j w₁ ⟨h₁, hj₁⟩
  refine .bind (safe_installStore ?_)
  refine .seq ((h₁.install hj₁).safe_runPlan hP hop hj₁ hnodup fun p _ => hnew p) (fun _ => id) ?_
  rintro ⟨hk, o⟩ w₂ ⟨hj₂, ds', h₂⟩
  exact (h₂.safe_settle hP hop hj₂).mono (fun _ _ h₃ => ⟨ds', h₃⟩) fun _ => id

end Phases

/-- A repair keeps it. -/
theorem Steers.safe_executeRevocationRepair (h : Steers P r.op w₀ ds w) (hP : Journal.Heritable S P)
    (hop : ¬ S r.op) (hs : P s.journal) :
    (executeRevocationRepair r s).Safe (fun _ => Steers P r.op w₀ ds) (Drifts P r.op w₀) w := by
  refine .seq (h.safe_upsert hP hop rfl hs) (fun _ => id) ?_
  rintro j w₁ ⟨h₁, hj₁⟩
  refine .seq (h₁.safe_revoke hP hj₁) (fun _ => id) ?_
  rintro revocation w₂ ⟨h₂, hj₂⟩
  have hsettled :
      ∀ outcome, P (revocation.journal.insert (revocationEntry r s outcome (some outcome))) :=
    fun outcome => hP.insert _ _ hop hj₂
  refine .get_bind ?_
  split
  next => exact .pure h₂
  next =>
    refine .seq (h₂.safe_writeAtomic (hsettled _)) (fun _ => id) ?_
    rintro result w₃ ⟨h₃, -⟩
    split
    next => exact .seq (h₃.safe_freezeStorageFault h₂.store) (fun _ => id) fun _ _ h₄ => .pure h₄
    next => exact .bind (safe_installStore (.pure (h₃.install (hsettled _))))

end Flight

/-! ## Requests and leases -/

section Work

variable {S : OperationId → Prop} {P : Journal → Prop} {op : OperationId} {w₀ w w' : World}
  {s : ConfigStore} {j : Journal} {env : Env} {r : Request}

theorem Descends.refl (hdisk : P w.disk) (honce : w.dispatches.Nodup) : Descends S P w w :=
  ⟨hdisk, ⟨[], rfl, by simp⟩, honce⟩

/-- A state that drifts from a descendant is one. -/
theorem Descends.drifts (h : Descends S P w₀ w) (hop : ¬ S op) (h' : Drifts P op w w') :
    Descends S P w₀ w' := by
  obtain ⟨notes, heq, hnotes⟩ := h.effects
  obtain ⟨notes', heq', hnotes'⟩ := h'.effects
  refine ⟨h'.disk, ⟨notes' ++ notes, by rw [heq', heq, List.append_assoc], fun e he => ?_⟩, h'.once⟩
  obtain he | he := List.mem_append.1 he
  · exact hnotes' e he ▸ hop
  · exact hnotes e he

/-- Nothing was done, and the disk keeps `P`. -/
theorem Descends.congr (h : Descends S P w₀ w) (hdisk : P w'.disk)
    (heffects : w'.effects = w.effects) :
    Descends S P w₀ w' :=
  ⟨hdisk, heffects ▸ h.effects, by rw [World.dispatches, heffects]; exact h.once⟩

/-- The phases that were dispatched. -/
theorem mem_dispatches {x : OperationId × ConfigPhase} :
    x ∈ w.dispatches ↔ .phase x.1 x.2 none ∈ w.effects := by
  rw [World.dispatches, List.mem_filterMap]
  constructor
  · rintro ⟨e, he, hx⟩
    cases e with
    | phase op p o =>
      cases o with
      | none =>
        obtain rfl := Option.some.inj hx
        exact he
      | some o => cases hx
    | revocation op ok => cases hx
    | startup op => cases hx
  · exact fun he => ⟨_, he, rfl⟩

/-- A reconciliation keeps an inherited property. -/
theorem Reconciles.journal {readback : Bool} (h : Reconciles w readback s)
    (hP : Journal.Heritable S P) (hstore : P w.store.journal) : P s.journal := by
  cases h with
  | free => exact hstore
  | adopted => exact hP.touches w.store.journal _ (Journal.touches_of_eq rfl le_rfl rfl rfl) hstore
  | same => exact hstore

/-- What a new operation does is done for it only. -/
theorem Serves.drifts {ds : List (OperationId × ConfigPhase)} {op : OperationId}
    (h : Serves S P w₀ w) (hop : ¬ S op) (h' : Steers P op w ds w') : Serves S P w₀ w' :=
  ⟨h.toDescends.drifts hop h'.toDrifts, h'.store⟩

/-- An operation begins where Core serves. -/
theorem Serves.steers (h : Serves S P w₀ w) (op : OperationId) : Steers P op w w.dispatches w :=
  ⟨⟨h.disk, ⟨[], rfl, by simp⟩, h.once⟩, h.store, rfl⟩

/-- A request whose store is ready is admitted and executed, or refused. -/
theorem Serves.safe_execute {readback : Bool} (h : Serves S P w₀ w) (hP : Journal.Heritable S P)
    (hr : r.Regular) (hop : ¬ S r.op) (hfresh : ∀ p, (r.op, p) ∉ w.dispatches) (hs : P s.journal) :
    Prog.Safe (do
      match ← admitRequest env r readback s with
      | .error error => pure (.error error)
      | .ok (s, c) => dispatch r c s) (fun _ => Serves S P w₀) (Descends S P w₀) w := by
  refine .seq (safe_admitRequest env r readback s w) (fun w' heq => heq ▸ h.toDescends) ?_
  rintro result w' ⟨rfl, hresult⟩
  cases result with
  | error error => exact .pure h
  | ok admitted =>
    obtain ⟨s', c⟩ := admitted
    obtain ⟨rfl, hadmits⟩ := hresult s' c rfl
    have hnodup : c.plan.Nodup := hadmits.plan ▸ (planOf_spec hr env c.changed readback).1
    rw [← hadmits.op] at hfresh hop
    exact ((h.steers c.op).safe_dispatch hP hop hs hnodup hfresh).mono
      (fun _ _ h' => h'.elim fun _ => h.drifts hop)
      fun _ => h.toDescends.drifts hop

/-- A request that is executed is new. -/
theorem Serves.safe_executeEditOpts (h : Serves S P w₀ w) (hP : Journal.Heritable S P)
    (hup : Up w) (hr : r.Regular) :
    (executeEditOpts env r).Safe (fun _ => Serves S P w₀) (Descends S P w₀) w := by
  refine .get_bind ?_
  dsimp only
  split
  next => exact .pure h
  next => exact .pure h
  next hdedupe _ =>
    obtain ⟨hfault, hnew⟩ := new_of_dedupe hdedupe
    have hidle := hup.idle hfault
    have hop : ¬ S r.op := fun hS => hnew (hP.known _ h.store _ hS)
    have hfresh : ∀ p, (r.op, p) ∉ w.dispatches := fun p hmem =>
      hidle.fresh (hidle.disk ▸ hnew) _ (mem_dispatches.1 hmem) rfl
    by_cases hrepair : isRevocationRepair r w.store
    · rw [if_pos hrepair]
      exact ((h.steers r.op).safe_executeRevocationRepair hP hop h.store).mono
        (fun _ _ => h.drifts hop)
        fun _ => h.toDescends.drifts hop
    · rw [if_neg hrepair]
      split
      next => exact .pure h
      next =>
        by_cases hedit : (isRepair r.edit || r.lease) = true
        · rw [if_pos hedit]
          refine .seq (safe_reconcileHeldPersist w) (fun w' heq => heq ▸ h.toDescends) ?_
          rintro result w' ⟨rfl, hresult⟩
          cases result with
          | error error => exact .pure h
          | ok reconciled =>
            obtain ⟨readback, s⟩ := reconciled
            exact h.safe_execute hP hr hop hfresh ((hresult readback s rfl).journal hP h.store)
        · rw [if_neg hedit]
          exact .bind (.pure (h.safe_execute hP hr hop hfresh h.store))

end Work

end VpnHide.Daemon

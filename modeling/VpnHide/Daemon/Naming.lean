import VpnHide.Daemon.Execution
import VpnHide.Daemon.Runs

/-!
# A revision names a config

Every job keeps Core on safe ground (`Up.safe_job`), so that over all runs a published revision
never decreases, and names one config, as long as retention keeps what a readback finds
(`revision_names_config`). It does not always: a receipt that expires overwrites what is left of
an older one.
-/

namespace VpnHide.Daemon

open Lib Config

variable {w w' : World} {s : ConfigStore} {env : Env} {r : Request} {op : OperationId}
  {j : Journal} {readback : Bool}

/-! ## Stores that are persisted -/

/-- Persisting a store that Core may continue with. -/
theorem Up.safe_persistStore (h : Up w) (hs : w.fault = false → Stands w s.snapshot s.journal ∧
    (w.Kept → Follows s.snapshot w.store.snapshot)) :
    (persistStore s).Safe (fun result w' => Up w' ∧ (result = .ok () → w'.store = s)) Down w := by
  refine .get_bind ?_
  by_cases hfault : w.fault = true
  · rw [if_pos hfault]
    exact .pure ⟨h, by simp⟩
  · rw [if_neg hfault]
    obtain ⟨hstands, hfollows⟩ := hs (Bool.eq_false_iff.2 hfault)
    exact h.toDown.safe_write hstands hfollows (fun _ hup _ => ⟨hup, by simp⟩)
      fun _ hup _ hstore => ⟨hup, fun _ => hstore⟩

/-- Nothing but the lifecycle and the leases changes. -/
theorem Up.safe_persistJournal (h : Up w) (hj : w.store.journal.SameReceipts j) :
    (persistStore { w.store with journal := j }).Safe (fun result w' => Up w' ∧
      (result = .ok () → w'.store = { w.store with journal := j })) Down w :=
  h.safe_persistStore fun hfault => ⟨(h.idle hfault).stands.retouch hj, fun _ => .refl _⟩

/-- The leases of the process are not durable. -/
theorem Up.withLive (h : Up w) (live : List (ℕ × Bool)) : Up { w with live } := by
  refine ⟨⟨⟨h.grounded.stored, h.grounded.known, fun hkept => ?_⟩, h.ordered⟩, fun hfault => ?_⟩
  · obtain ⟨hnames, r, hresumes⟩ := h.grounded.names hkept
    exact ⟨⟨hnames.pairwise, hnames.store⟩, r, hresumes.congr rfl rfl rfl⟩
  · have hidle := h.idle hfault
    exact ⟨hidle.disk, hidle.sound, hidle.known, hidle.revision, hidle.matched, hidle.attempted,
      hidle.witnessed, fun hkept => ⟨(hidle.names hkept).pairwise, (hidle.names hkept).store⟩⟩

/-- Handing out an id keeps the invariant. -/
theorem Up.safe_issueOperationIdDirect (h : Up w) :
    issueOperationIdDirect.Safe (fun _ => Up) Down w := by
  refine .get_bind ?_
  dsimp only
  split_ifs with hrefused
  · exact .pure h
  · simp only [Bool.or_eq_true, decide_eq_true_eq, not_or, Bool.not_eq_true] at hrefused
    have hidle := h.idle hrefused.1
    set j : Journal := { w.store.journal with issuedThrough := w.store.journal.issuedThrough + 1 }
    have hstands : Stands w w.store.snapshot j :=
      hidle.stands.retouch ⟨rfl, rfl, rfl, rfl, rfl, rfl, rfl, rfl⟩
    refine .bind (safe_writeAtomic h.toDown fun result => ?_)
    have hdown : Down { w with disk := j } := h.toDown.write (s := w.store) hstands fun _ => .refl _
    by_cases hresult : result = .written
    · subst hresult
      rw [if_neg (not_not.2 rfl)]
      -- memory takes the id over, and publishes nothing
      refine .modify_bind (.pure ?_)
      have hw : Rewrites w { w with disk := j, store := { w.store with journal := j } } :=
        ⟨rfl, rfl, rfl, fun _ => id⟩
      have hstands' := hstands.rewrites hw
      have hidle' : Idle { w with disk := j, store := { w.store with journal := j } } :=
        ⟨rfl, hstands'.sound, hstands'.known, hstands'.revision, hstands'.matched,
          hstands'.attempted, hstands'.witnessed, fun hkept =>
            ⟨(hidle.names hkept).pairwise, (hidle.names hkept).store⟩⟩
      exact ⟨⟨hidle'.grounded, h.ordered.rewrites hw⟩, fun _ => hidle'⟩
    · rw [if_pos hresult]
      refine .bind (safe_freezeStorageFault (.pure ?_))
      split_ifs
      · exact hdown.freeze
      · exact h.toDown.freeze

/-! ## Leases -/

theorem regular_debugRequest (op : OperationId) (base : ℕ) (enabled : Bool)
    (kind : Option PlanKind) :
    (debugRequest op base enabled kind).Regular :=
  ⟨by simp [debugRequest, Request.ofEdit], by simp [debugRequest, Request.ofEdit], .inl rfl,
    by simp [debugRequest, Request.ofEdit]⟩

/-- Turning `debug` on or off keeps the invariant. -/
theorem Up.safe_writeDebugDirect (h : Up w) (enabled : Bool) :
    (writeDebugDirect env enabled).Safe (fun _ => Up) Down w := by
  refine .seq h.safe_issueOperationIdDirect (fun _ => id) ?_
  rintro (error | op) w₁ h₁
  · exact .pure h₁
  · refine .get_bind
      (.seq (h₁.safe_executeEditOpts (regular_debugRequest _ _ _ _)) (fun _ => id) ?_)
    rintro result w₂ h₂
    exact .get_bind (.pure h₂)

theorem Up.safe_clearRestore (h : Up w) :
    (persistStore (clearRestore w.store)).Safe (fun _ => Up) Down w := by
  have hj : w.store.journal.SameReceipts (clearRestore w.store).journal :=
    ⟨rfl, rfl, rfl, rfl, rfl, rfl, rfl, rfl⟩
  exact (h.safe_persistJournal hj).mono (fun _ _ hup => hup.1) fun _ => id

/-- So does handing out an id for the restoration. -/
theorem Up.safe_restoreOp (h : Up w) : (restoreOp w.store).Safe (fun _ => Up) Down w := by
  rw [restoreOp]
  split
  next => exact .pure h
  next =>
    refine .seq h.safe_issueOperationIdDirect (fun _ => id) ?_
    rintro (error | op) w₁ h₁
    · exact .pure h₁
    · refine .get_bind
        (.seq (h₁.safe_persistJournal ⟨rfl, rfl, rfl, rfl, rfl, rfl, rfl, rfl⟩) (fun _ => id) ?_)
      rintro (error | u) w₂ ⟨h₂, -⟩
      · exact .pure h₂
      · exact .pure h₂

/-- So does the restoration. -/
theorem Up.safe_restoreBy (h : Up w) (saved : Bool × Bool) (retrying : Bool) :
    (restoreBy env saved retrying w.store).Safe (fun _ => Up) Down w := by
  rw [restoreBy]
  split
  next => exact h.safe_clearRestore
  next config _ =>
    refine .seq h.safe_restoreOp (fun _ => id) ?_
    rintro (error | op) w₁ h₁
    · exact .pure h₁
    · refine .get_bind
        (.seq (h₁.safe_executeEditOpts (regular_debugRequest _ _ _ _)) (fun _ => id) ?_)
      rintro (error | op') w₂ h₂
      · exact .pure h₂
      · refine .get_bind ?_
        split_ifs
        · exact h₂.safe_clearRestore
        · exact .pure h₂

theorem Up.safe_restoreSaved (h : Up w) (saved : Bool × Bool) (retryKnownFailure : Bool) :
    (restoreSaved env saved retryKnownFailure w.store).Safe (fun _ => Up) Down w := by
  rw [restoreSaved]
  split
  next => exact h.safe_restoreBy saved false
  next e _ =>
    split
    next => exact h.safe_clearRestore
    next =>
      refine .seq (h.safe_persistJournal ⟨rfl, rfl, rfl, rfl, rfl, rfl, rfl, rfl⟩) (fun _ => id) ?_
      rintro (error | u) w₁ ⟨h₁, hstore⟩
      · exact .pure h₁
      · have hrestore : (restoreBy env saved true w₁.store).Safe (fun _ => Up) Down w₁ :=
          h₁.safe_restoreBy saved true
        rw [hstore rfl] at hrestore
        exact hrestore
    next => exact .pure h

/-- So does what is left to do without leases. -/
theorem Up.safe_restoreDebugIfUnleased (h : Up w) (retryKnownFailure : Bool) :
    (restoreDebugIfUnleased env retryKnownFailure).Safe (fun _ => Up) Down w := by
  refine .get_bind ?_
  split_ifs
  · exact .pure h
  split
  next => exact .pure h
  next saved _ =>
    refine .seq (safe_reconcileHeldPersist w) (fun w' heq => heq ▸ h.toDown) ?_
    rintro (error | ⟨readback, s⟩) w' ⟨rfl, hresult⟩
    · exact .pure h
    · have hread := hresult readback s rfl
      cases readback with
      | true =>
        have hpersist := h.safe_persistStore (s := s) fun hfault =>
          let hembarks := (h.idle hfault).embarks_of_reconciles hread
          ⟨hembarks.stands, hembarks.follows⟩
        refine .seq hpersist (fun _ => id) ?_
        rintro (error | u) w₁ ⟨h₁, hstore⟩
        · exact .pure h₁
        · have hrestore :
              (restoreSaved env saved retryKnownFailure w₁.store).Safe (fun _ => Up) Down w₁ :=
            h₁.safe_restoreSaved saved retryKnownFailure
          rw [hstore rfl] at hrestore
          exact hrestore
      | false =>
        cases hread
        exact .bind (.pure (h.safe_restoreSaved saved retryKnownFailure))

/-- So does taking a lease. -/
theorem Up.safe_acquireDebugLease (h : Up w) (id owner : ℕ) :
    (acquireDebugLease env id owner).Safe (fun _ => Up) Down w := by
  refine .ask_bind h.toDown fun _ bounded _ => .get_bind ?_
  split_ifs
  · exact .pure h
  split
  next => exact .pure h
  next => exact .pure h
  next config _ _ =>
    refine .seq (h.safe_persistJournal ⟨rfl, rfl, rfl, rfl, rfl, rfl, rfl, rfl⟩)
      (fun _ hdown => hdown) ?_
    rintro (error | u) w₁ ⟨h₁, -⟩
    · exact .pure h₁
    · refine .ask_bind h₁.toDown fun _ inTime _ => ?_
      cases inTime with
      | false => exact .pure h₁
      | true =>
        -- the lease is live, and logging is switched on unless it is on already
        have hactive :
            ∀ confirmed w₃, Up w₃ →
              Prog.Safe (if !confirmed then pure (.error .unavailable)
                else do
                  .modify fun w => { w with live := setLive w.live id true }
                  pure (.ok ()) : Core (Except SubmitError Unit)) (fun _ => Up) Down w₃ := by
          intro confirmed w₃ h₃
          split_ifs
          · exact .pure h₃
          · exact .modify_bind (.pure (h₃.withLive _))
        refine .modify_bind ?_
        have h₂ := h₁.withLive (setLive w₁.live id (w.live.contains (id, true) && config.debug))
        by_cases hon : (w.live.contains (id, true) && config.debug) = true
        · rw [if_pos hon]
          exact .bind (.pure (hactive true _ h₂))
        · rw [if_neg hon]
          exact .seq (h₂.safe_writeDebugDirect true) (fun _ hdown => hdown) hactive

/-- So does releasing one. -/
theorem Up.safe_releaseDebugLease (h : Up w) (id : ℕ) :
    (releaseDebugLease env id).Safe (fun _ => Up) Down w := by
  refine .get_bind (.seq (h.safe_persistJournal ⟨rfl, rfl, rfl, rfl, rfl, rfl, rfl, rfl⟩)
    (fun _ hdown => hdown) ?_)
  rintro (error | u) w₁ ⟨h₁, -⟩
  · exact .pure h₁
  · exact .modify_bind ((h₁.withLive _).safe_restoreDebugIfUnleased true)

/-- So does the end of leases. -/
theorem Up.safe_expireDebugLeases (h : Up w) (elapsed : ℕ → Bool) :
    (expireDebugLeases env elapsed).Safe (fun _ => Up) Down w := by
  refine .get_bind ?_
  by_cases hfault : w.fault = true
  · rw [if_pos hfault]
    exact .pure h
  · rw [if_neg hfault]
    have hdropped : ∀ w₁, Up w₁ → Prog.Safe (do
        .modify fun w₁ => { w₁ with live := w₁.live.filter fun live =>
          (w.store.journal.debugLeases.filter fun lease =>
            w.live.any fun live => live.1 = lease.1 && !elapsed live.1).any (·.1 = live.1) }
        let _ ← restoreDebugIfUnleased env false
        pure () : Core Unit) (fun _ => Up) Down w₁ := fun w₁ h₁ =>
      .modify_bind (.seq ((h₁.withLive _).safe_restoreDebugIfUnleased false) (fun _ => id)
        fun _ _ h₂ => .pure h₂)
    dsimp only
    split_ifs
    · refine .seq (h.safe_persistJournal ⟨rfl, rfl, rfl, rfl, rfl, rfl, rfl, rfl⟩) (fun _ => id) ?_
      rintro (error | u) w₁ ⟨h₁, -⟩
      · exact .pure h₁
      · exact hdropped w₁ h₁
    · exact .bind (.pure (hdropped w h))

/-! ## Commands -/

/-- The plan of a reset begins with the config, if that is in it. -/
theorem resetPlan_spec (env : Env) : (resetPlan env).Nodup ∧ .persist ∉ (resetPlan env).tail := by
  rw [resetPlan]
  cases env.native <;> cases env.ports <;> decide

/-- The request of an edit is regular. -/
theorem regular_ofEdit (op : OperationId) (base : ℕ) (edit : ConfigEdit) :
    (Request.ofEdit op base edit).Regular :=
  ⟨by simp [Request.ofEdit], by simp [Request.ofEdit], .inl rfl, by simp [Request.ofEdit]⟩

/-- A command makes one of the requests that are known. -/
theorem regular_requestOf {command : CoreCommand} (h : requestOf env op command s = .ok r) :
    r.Regular := by
  -- By the command, whose request is either made of an edit or spelled out.
  cases command with
  | edit base edit =>
    obtain rfl := Except.ok.inj h
    exact regular_ofEdit _ _ _
  | reapply base kind =>
    obtain rfl := Except.ok.inj h
    exact ⟨by simp [Request.ofEdit], by simp [Request.ofEdit], .inl rfl, by simp [Request.ofEdit]⟩
  | setSuperkey base remember superkey =>
    simp only [requestOf] at h
    split_ifs at h
    obtain rfl := Except.ok.inj h
    exact ⟨by simp [Request.ofEdit], by simp, .inr (.inl rfl), by simp [Request.ofEdit]⟩
  | clearSuperkey base =>
    simp only [requestOf] at h
    split_ifs at h
    obtain rfl := Except.ok.inj h
    exact ⟨by simp [Request.ofEdit], by simp, .inr (.inl rfl), by simp [Request.ofEdit]⟩
  | importConfig base config cleanupLegacy =>
    simp only [requestOf] at h
    split_ifs at h
    all_goals
      obtain rfl := Except.ok.inj h
      exact ⟨by simp [Request.ofEdit], by simp, by simp, by simp [Request.ofEdit]⟩
  | migrateLegacy base mode apply =>
    simp only [requestOf] at h
    cases hmigrated : apply (s.config.getD .default) with
    | error error =>
      rw [hmigrated] at h
      cases h
    | ok config =>
      rw [hmigrated] at h
      change (if _ then _ else _) = _ at h
      split_ifs at h
      obtain rfl := Except.ok.inj h
      exact ⟨by simp [Request.ofEdit], by simp, .inr (.inr rfl), by simp [Request.ofEdit]⟩
  | prepareSelfTargets base persistOnly prepare =>
    simp only [requestOf] at h
    cases hprepared : prepare s.config with
    | error error =>
      rw [hprepared] at h
      cases h
    | ok edit =>
      rw [hprepared] at h
      obtain rfl := Except.ok.inj h
      exact ⟨by simp [Request.ofEdit], by simp, .inl rfl, by simp [Request.ofEdit]⟩
  | cleanupLegacy =>
    simp only [requestOf] at h
    split_ifs at h
    obtain rfl := Except.ok.inj h
    exact ⟨by simp [Request.ofEdit], fun _ => rfl, .inr (.inr rfl), by simp⟩
  | fullReset capturing =>
    simp only [requestOf] at h
    split_ifs at h
    obtain rfl := Except.ok.inj h
    exact ⟨by simp, by simp, .inr (.inr rfl), by simp [resetPlan_spec env]⟩

/-- Every command keeps the invariant. -/
theorem Up.safe_executeCommand (h : Up w) (op : OperationId) (command : CoreCommand) :
    (executeCommand env op command).Safe (fun _ => Up) Down w := by
  refine .get_bind ?_
  split_ifs
  · exact .pure h
  split
  next => exact .pure h
  next => exact .pure h
  next hrequest => exact h.safe_executeEditOpts (regular_requestOf hrequest)

/-! ## Jobs -/

/-- A load establishes the invariant. -/
theorem Down.safe_loadWithJournal (h : Down w) (device : Device) :
    (loadWithJournal env device).Safe (fun ok w' => Down w' ∧ (ok → Up w')) Down w := by
  refine (h.grounded.safe_loadWithJournal env device).mono ?_ fun w' hw' =>
    ⟨hw'.1, h.ordered.rewrites hw'.2⟩
  rintro ok w' ⟨hgrounded, hw, hok⟩
  have hdown : Down w' := ⟨hgrounded, h.ordered.rewrites hw⟩
  exact ⟨hdown, fun hload => ⟨hdown, fun _ => (hok hload).2.1⟩⟩

/-- A job that Core runs while it is up. -/
theorem Up.safe_job (h : Up w) (job : Job) :
    (job.run env).Safe (fun ok w' => Down w' ∧ (job.isUp ok → Up w')) Down w := by
  cases job with
  | load device => exact h.toDown.safe_loadWithJournal device
  | issue =>
    exact .seq h.safe_issueOperationIdDirect (fun _ => id) fun _ w' h' =>
      .pure ⟨h'.toDown, fun _ => h'⟩
  | command op command =>
    exact .seq (h.safe_executeCommand op command) (fun _ => id) fun _ w' h' =>
      .pure ⟨h'.toDown, fun _ => h'⟩
  | acquire id owner =>
    exact .seq (h.safe_acquireDebugLease id owner) (fun _ hdown => hdown) fun _ w' h' =>
      .pure ⟨h'.toDown, fun _ => h'⟩
  | release id =>
    exact .seq (h.safe_releaseDebugLease id) (fun _ hdown => hdown) fun _ w' h' =>
      .pure ⟨h'.toDown, fun _ => h'⟩
  | expire elapsed =>
    exact .seq (h.safe_expireDebugLeases elapsed) (fun _ => id) fun _ w' h' =>
      .pure ⟨h'.toDown, fun _ => h'⟩
  | lifecycle l =>
    refine .get_bind
      (.seq (h.safe_persistJournal ⟨rfl, rfl, rfl, rfl, rfl, rfl, rfl, rfl⟩) (fun _ => id) ?_)
    exact fun _ w' h' => .pure ⟨h'.1.toDown, fun _ => h'.1⟩

/-- The invariant holds before the first load. -/
theorem down_initial (file : Option CanonicalConfig) : Down (.initial file) := by
  have hstored : (World.initial file).disk.Stored :=
    ⟨List.nodup_nil, by simp [World.initial, Journal.empty], by simp [World.initial, Journal.empty],
      ⟨by simp [World.initial, Journal.empty], by simp [World.initial, Journal.empty]⟩,
      Nat.succ_pos _, rfl⟩
  refine ⟨⟨hstored, by simp [World.initial], fun _ =>
    ⟨⟨by simp [World.initial], by simp [World.initial]⟩, 0, ?_⟩⟩,
    fun _ => by simp [World.initial]⟩
  refine ⟨by simp [World.initial, Journal.Attempted, Journal.empty],
    by simp [World.initial, Journal.empty], fun _ device =>
      ⟨Nat.zero_le _, ⟨Nat.zero_le _, fun hzero => ?_⟩, by simp [World.initial]⟩⟩
  cases file with
  | none => rfl
  | some config =>
    -- a config on file has a revision
    have hrevision :
        0 = loadedRevision (some config) ((World.initial (some config)).reloadedJournal device) :=
      hzero
    rw [loadedRevision] at hrevision
    split_ifs at hrevision
    all_goals omega

/-- Every job keeps the invariant. -/
theorem Down.safe_job (h : Down w) {up : Bool} (hw : up → Up w) {job : Job}
    (hup : (∃ device, job = .load device) ∨ up) :
    (job.run env).Safe (fun ok w' => Down w' ∧ (job.isUp ok → Up w')) Down w := by
  obtain ⟨device, rfl⟩ | hup := hup
  · exact h.safe_loadWithJournal device
  · exact (hw hup).safe_job job

/-- A run leaves Core on safe ground. -/
theorem Run.safe {up : Bool} {granted : List ℕ} (hrun : Run up w granted) :
    Down w ∧ (up → Up w) := by
  induction hrun with
  | start file => exact ⟨down_initial file, by simp⟩
  | @job _ _ _ _ _ env job hup tape _ _ h ih =>
    have hsafe := @Down.safe_job _ env ih.1 _ ih.2 job hup tape
    rwa [h] at hsafe
  | @crash _ _ _ _ _ env job hup tape h ih =>
    have hsafe := @Down.safe_job _ env ih.1 _ ih.2 job hup tape
    rw [h] at hsafe
    exact ⟨hsafe, by simp⟩

/-! ## Reservations -/

/-- An operation that a request comes to in a world, after the config file is read back where
    it has to be. -/
def World.Admitted (env : Env) (r : Request) (w : World) (c : Operation) : Prop :=
  ∃ tape tape' tape'' w' w'' readback s s',
    (if isRepair r.edit || r.lease then reconcileHeldPersist w.store
      else pure (.ok (false, w.store))) tape w =
      .done (.ok (readback, s)) tape' w' ∧
    admitRequest env r readback s tape' w' = .done (.ok (s', c)) tape'' w''

/-- The store that an operation is admitted to. -/
theorem World.Admitted.store {c : Operation} (h : w.Admitted env r c) : ∃ readback s,
    (s = w.store ∧ readback = false ∨ Reconciles w readback s) ∧ Admits env r readback s c := by
  obtain ⟨tape, tape', tape'', w', w'', readback, s, s', hread, hadm⟩ := h
  have hw : w' = w ∧ (s = w.store ∧ readback = false ∨ Reconciles w readback s) := by
    split_ifs at hread
    · have hsafe := safe_reconcileHeldPersist w tape
      rw [hread] at hsafe
      exact ⟨hsafe.1, .inr (hsafe.2 _ _ rfl)⟩
    · obtain ⟨hres, -, hw⟩ := Outcome.done.inj hread
      obtain ⟨rfl, rfl⟩ := Prod.mk.inj (Except.ok.inj hres)
      exact ⟨hw.symm, .inl ⟨rfl, rfl⟩⟩
  have hsafe := safe_admitRequest env r readback s w' tape'
  rw [hadm] at hsafe
  exact ⟨readback, s, hw.2, (hsafe.2 _ _ rfl).2⟩

/-- The revision that a change reserves is newer than that of every write that may have landed. -/
theorem Idle.lt_commit (h : Idle w) {c : Operation} (hadmitted : w.Admitted env r c)
    (hchanged : c.changed) (hplan : .persist ∈ c.plan) :
    (w.Kept → ∀ n ∈ w.landed, n < c.admission.commitRevision) ∧
      ∀ p ∈ w.store.journal.proofs, ∀ a, p.admission = some a →
        a.commitRevision < c.admission.commitRevision := by
  obtain ⟨readback, s, hs, hadmits⟩ := hadmitted.store
  have hembarks : Embarks w s readback := by
    obtain ⟨rfl, rfl⟩ | hread := hs
    · exact h.embarks
    · exact h.embarks_of_reconciles hread
  have hproofs : s.journal.proofs = w.store.journal.proofs := by
    obtain ⟨rfl, -⟩ | hread := hs
    · rfl
    · cases hread <;> rfl
  rw [hadmits.commit hchanged hplan]
  exact ⟨fun hkept n hn => Nat.lt_succ_of_le (hembarks.landed_le_reserved hkept n hn),
    fun p hp a ha => Nat.lt_succ_of_le (le_reserved (hproofs ▸ hp) ha)⟩

/-- A published revision names a config, over every run in which retention keeps what a readback
    finds: it never decreases, and the snapshots of one revision have one config. What reached the
    file did so with increasing revisions, and the revision that a change reserves is newer than
    that of every write that may have landed. -/
theorem revision_names_config {up : Bool} {w : World} {granted : List ℕ} (hrun : Run up w granted)
    (hkept : w.Kept) :
    w.published.Pairwise Follows ∧ w.landed.Pairwise (· > ·) ∧
    (up → w.fault = false → ∀ env r c, w.Admitted env r c → c.changed → .persist ∈ c.plan →
      (∀ n ∈ w.landed, n < c.admission.commitRevision) ∧
      ∀ p ∈ w.store.journal.proofs, ∀ a, p.admission = some a →
        a.commitRevision < c.admission.commitRevision) := by
  -- What the run keeps says the first two parts; the third is about the state that it has reached.
  obtain ⟨hdown, hup⟩ := hrun.safe
  refine ⟨(hdown.names hkept).pairwise, hdown.ordered hkept,
    fun hisUp hfault env r c hadmitted hchanged hplan => ?_⟩
  have hlt := ((hup hisUp).idle hfault).lt_commit hadmitted hchanged hplan
  exact ⟨hlt.1 hkept, hlt.2⟩

/-! ## Runs on tapes -/

/-- A restart, which needs no Core. -/
def Job.restarts : Job → Bool
  | load _ => true
  | _ => false

/-- Jobs one after another, with the answers for each. -/
def follow (env : Env) : Bool → World → List (Job × List Answer) → Option (Bool × World)
  | up, w, [] => some (up, w)
  | up, w, (job, tape) :: jobs =>
    if up || job.restarts then
      match job.run env tape w with
      | .done ok _ w' => follow env (job.isUp ok) w' jobs
      | .crashed w' => follow env false w' jobs
    else none

/-- A run that goes on is a run. -/
theorem Run.follow {up up' : Bool} {granted : List ℕ} {jobs : List (Job × List Answer)}
    (hrun : Run up w granted) (h : Daemon.follow env up w jobs = some (up', w')) :
    ∃ granted', Run up' w' granted' := by
  induction jobs generalizing up w granted with
  | nil =>
    obtain ⟨rfl, rfl⟩ := Prod.mk.inj (Option.some.inj h)
    exact ⟨granted, hrun⟩
  | cons next jobs ih =>
    obtain ⟨job, tape⟩ := next
    rw [Daemon.follow] at h
    split_ifs at h with hcan
    have hup : (∃ device, job = .load device) ∨ up := by
      cases job with
      | load device => exact .inl ⟨device, rfl⟩
      | _ => exact .inr (by simpa [Job.restarts] using hcan)
    split at h
    next hdone => exact ih (hrun.job env job hup hdone) h
    next hcrash => exact ih (hrun.crash env job hup hcrash) h

/-- While few receipts are settled, retention keeps everything. -/
theorem Journal.keepsProof_of_few (h : (j.operations.filter j.droppable).length ≤ j.retainSettled)
    (f : Option CanonicalConfig) : j.KeepsProof f := by
  intro p a hp _ _
  rwa [Journal.prune, if_pos h]

section Examples

/-- Core without backends, with the default config on file. -/
def plainEnv : Env := ⟨false, false, true, fun _ => .ok ()⟩

/-- A device that shows nothing. -/
def plainDevice : Device := ⟨[], fun _ => none⟩

/-- The answers to an operation whose only effect is the write of the config. -/
def answersTo (outcome : PhaseOutcome) (landed : Bool) : List Answer :=
  [.write .written, .fence true, .effect outcome landed, .write .written,
    .write .written, .write .written]

/-- An id is handed out, and the command runs under it. -/
def issued (op : OperationId) (command : CoreCommand) (answers : List Answer) :
    List (Job × List Answer) :=
  [(.issue, [.write .written]), (.command op command, answers)]

/-- Core is started, and the journal written. -/
def loaded : Job × List Answer := (.load plainDevice, [.write .written])

/-- An edit that is confirmed, and one that is uncertain, and a restart. -/
def twoEdits : List (Job × List Answer) :=
  loaded :: issued 1 (.edit 1 (.toggle .debug true)) (answersTo .confirmed true) ++
    issued 2 (.edit 2 (.toggle .debug false)) (answersTo .unknown true) ++ [loaded]

/-- Two edits, whose revisions name their configs. -/
theorem revision_names_config_twoEdits : ∃ w,
    follow plainEnv false (.initial (some .default)) twoEdits = some (true, w) ∧ w.landed = [3, 2] ∧
      w.published.map (·.1) = [3, 2, 2, 2, 2, 2, 2, 1, 1, 1] ∧ w.published.Pairwise Follows ∧
    w.landed.Pairwise (· > ·) := by
  have hran : (follow plainEnv false (.initial (some .default)) twoEdits).any (fun x => x.1 &&
      x.2.landed = [3, 2] && x.2.published.map (·.1) = [3, 2, 2, 2, 2, 2, 2, 1, 1, 1] &&
      x.2.pruned.all fun y => (y.2.operations.filter y.2.droppable).length ≤
        y.2.retainSettled) := by
    decide +kernel
  obtain ⟨⟨up, w⟩, hfollow, hw⟩ := (Option.any_eq_true _ _).1 hran
  simp only [Bool.and_eq_true, List.all_eq_true, decide_eq_true_eq] at hw
  obtain ⟨⟨⟨rfl, hlanded⟩, hpublished⟩, hfew⟩ := hw
  obtain ⟨granted, hrun⟩ := (Run.start _).follow hfollow
  have hkept : w.Kept := fun y hy => Journal.keepsProof_of_few (hfew y hy) _
  have hnames := revision_names_config hrun hkept
  exact ⟨w, hfollow, hlanded, hpublished, hnames.1, hnames.2.1⟩

/-- An edit is uncertain, and has landed; a reset after it is uncertain, and has not. Both
    receipts expire while resets fail, and Core is started again. -/
def overwrittenProof : List (Job × List Answer) :=
  loaded :: issued 1 (.edit 1 (.toggle .debug true)) (answersTo .unknown true) ++
    issued 2 (.fullReset false) (answersTo .unknown false) ++
    (List.range 64).flatMap
    (fun n => issued (n + 3) (.fullReset false) (answersTo .failedKnown false)) ++ [loaded]

/-- What is left of the write that landed is overwritten, and its config is published with a
    revision that names another one. -/
theorem revision_reused : ∃ up w granted config config', Run up w granted ∧
    (1, some config) ∈ w.published ∧ (1, some config') ∈ w.published ∧ config ≠ config' := by
  have hreused : (follow plainEnv false (.initial (some .default)) overwrittenProof).any (fun x =>
      x.2.published.any (fun p => p.1 = 1 && p.2.map (·.debug) = some true) &&
      x.2.published.any (fun p => p.1 = 1 && p.2.map (·.debug) = some false)) := by
    decide +kernel
  obtain ⟨⟨up, w⟩, hfollow, hboth⟩ := (Option.any_eq_true _ _).1 hreused
  simp only [Bool.and_eq_true, List.any_eq_true, decide_eq_true_eq] at hboth
  obtain ⟨⟨⟨n, config⟩, hmem, rfl, hdebug⟩, ⟨n', config'⟩, hmem', rfl, hdebug'⟩ := hboth
  obtain ⟨config, rfl, hdebug⟩ := Option.map_eq_some_iff.1 hdebug
  obtain ⟨config', rfl, hdebug'⟩ := Option.map_eq_some_iff.1 hdebug'
  obtain ⟨granted, hrun⟩ := (Run.start _).follow hfollow
  refine ⟨up, w, granted, config, config', hrun, hmem, hmem', ?_⟩
  rintro rfl
  rw [hdebug] at hdebug'
  cases hdebug'

end Examples

end VpnHide.Daemon

import VpnHide.Daemon.Lineage
import VpnHide.Daemon.Naming

/-!
# What every job keeps

A rule for the jobs of Core: what storing a journal, issuing an id, executing a request and a
restart keep, every job keeps (`Upheld.safe_job`). With it, what the steps of the journal keep
is kept by every run that goes on from a world (`Leads.descends`).
-/

namespace VpnHide.Daemon

open Lib Config

/-! ## The rule -/

/-- What Core keeps while it is up, and what a crash leaves of it, by what each job does to the
    world: storing a journal, issuing an id, executing a request, and a restart. -/
structure Upheld (env : Env) (U D : World → Prop) : Prop where
  down : ∀ w, U w → D w
  withLive : ∀ w live, U w → U { w with live }
  issue : ∀ w, U w → issueOperationIdDirect.Safe (fun _ => U) D w
  retouch : ∀ w j, U w → w.store.journal.SameReceipts j →
    w.store.journal.issuedThrough ≤ j.issuedThrough →
    (persistStore { w.store with journal := j }).Safe (fun result w' => U w' ∧
      (result = .ok () → w'.store = { w.store with journal := j })) D w
  adopt : ∀ w s, U w → Reconciles w true s →
    (persistStore s).Safe (fun result w' => U w' ∧ (result = .ok () → w'.store = s)) D w
  execute : ∀ w r, U w → r.Regular → (executeEditOpts env r).Safe (fun _ => U) D w
  load : ∀ w device, D w → (loadWithJournal env device).Safe (fun ok w' => D w' ∧ (ok → U w')) D w

namespace Upheld

variable {env : Env} {U D : World → Prop} {w : World} (h : Upheld env U D)

include h

/-- Turning `debug` on or off. -/
theorem safe_writeDebugDirect (hw : U w) (enabled : Bool) :
    (writeDebugDirect env enabled).Safe (fun _ => U) D w := by
  refine .seq (h.issue w hw) (fun _ => id) ?_
  rintro (error | op) w₁ h₁
  · exact .pure h₁
  · refine .get_bind (.seq (h.execute _ _ h₁ (regular_debugRequest _ _ _ _)) (fun _ => id) ?_)
    intro result w₂ h₂
    exact .get_bind (.pure h₂)

theorem safe_clearRestore (hw : U w) :
    (persistStore (clearRestore w.store)).Safe (fun _ => U) D w :=
  (h.retouch w (clearRestore w.store).journal hw ⟨rfl, rfl, rfl, rfl, rfl, rfl, rfl, rfl⟩
    le_rfl).mono
    (fun _ _ h₁ => h₁.1) fun _ => id

/-- The restoration, by a command of its own. -/
theorem safe_restoreBy (hw : U w) (saved : Bool × Bool) (retrying : Bool) :
    (restoreBy env saved retrying w.store).Safe (fun _ => U) D w := by
  rw [restoreBy]
  split
  next => exact h.safe_clearRestore hw
  next config _ =>
    have hop : (restoreOp w.store).Safe (fun _ => U) D w := by
      rw [restoreOp]
      split
      next => exact .pure hw
      next =>
        refine .seq (h.issue w hw) (fun _ => id) ?_
        rintro (error | op) w₁ h₁
        · exact .pure h₁
        · refine .get_bind (.seq (h.retouch w₁ _ h₁ ⟨rfl, rfl, rfl, rfl, rfl, rfl, rfl, rfl⟩ le_rfl)
            (fun _ => id) ?_)
          rintro (error | u) w₂ ⟨h₂, -⟩ <;> exact .pure h₂
    refine .seq hop (fun _ => id) ?_
    rintro (error | op) w₁ h₁
    · exact .pure h₁
    · refine .get_bind (.seq (h.execute _ _ h₁ (regular_debugRequest _ _ _ _)) (fun _ => id) ?_)
      rintro (error | op') w₂ h₂
      · exact .pure h₂
      · refine .get_bind ?_
        split_ifs
        · exact h.safe_clearRestore h₂
        · exact .pure h₂

/-- The restoration of what was saved. -/
theorem safe_restoreSaved (hw : U w) (saved : Bool × Bool) (retryKnownFailure : Bool) :
    (restoreSaved env saved retryKnownFailure w.store).Safe (fun _ => U) D w := by
  rw [restoreSaved]
  split
  next => exact h.safe_restoreBy hw saved false
  next e _ =>
    split
    next => exact h.safe_clearRestore hw
    next =>
      refine .seq (h.retouch w _ hw ⟨rfl, rfl, rfl, rfl, rfl, rfl, rfl, rfl⟩ le_rfl)
        (fun _ => id) ?_
      rintro (error | u) w₁ ⟨h₁, hstore⟩
      · exact .pure h₁
      · have hrestore : (restoreBy env saved true w₁.store).Safe (fun _ => U) D w₁ :=
          h.safe_restoreBy h₁ saved true
        rw [hstore rfl] at hrestore
        exact hrestore
    next => exact .pure hw

/-- What is left to do without leases. -/
theorem safe_restoreDebugIfUnleased (hw : U w) (retryKnownFailure : Bool) :
    (restoreDebugIfUnleased env retryKnownFailure).Safe (fun _ => U) D w := by
  refine .get_bind ?_
  split_ifs
  · exact .pure hw
  split
  next => exact .pure hw
  next saved _ =>
    refine .seq (safe_reconcileHeldPersist w) (fun w' heq => heq ▸ h.down w hw) ?_
    rintro (error | ⟨readback, s⟩) w' ⟨rfl, hresult⟩
    · exact .pure hw
    · have hread := hresult readback s rfl
      cases readback with
      | true =>
        refine .seq (h.adopt _ s hw hread) (fun _ => id) ?_
        rintro (error | u) w₁ ⟨h₁, hstore⟩
        · exact .pure h₁
        · have hrestore :
              (restoreSaved env saved retryKnownFailure w₁.store).Safe (fun _ => U) D w₁ :=
            h.safe_restoreSaved h₁ saved retryKnownFailure
          rw [hstore rfl] at hrestore
          exact hrestore
      | false =>
        cases hread
        exact .bind (.pure (h.safe_restoreSaved hw saved retryKnownFailure))

/-- Taking a lease. -/
theorem safe_acquireDebugLease (hw : U w) (id owner : ℕ) :
    (acquireDebugLease env id owner).Safe (fun _ => U) D w := by
  refine .ask_bind (h.down w hw) fun _ bounded _ => .get_bind ?_
  split_ifs
  · exact .pure hw
  split
  next => exact .pure hw
  next => exact .pure hw
  next config _ _ =>
    refine .seq (h.retouch w _ hw ⟨rfl, rfl, rfl, rfl, rfl, rfl, rfl, rfl⟩ le_rfl)
      (fun _ hd => hd) ?_
    rintro (error | u) w₁ ⟨h₁, -⟩
    · exact .pure h₁
    · refine .ask_bind (h.down _ h₁) fun _ inTime _ => ?_
      cases inTime with
      | false => exact .pure h₁
      | true =>
        -- the lease is live, and logging is switched on unless it is on already
        have hactive :
            ∀ confirmed w₃, U w₃ →
              Prog.Safe (if !confirmed then pure (.error .unavailable)
                else do
                  .modify fun w => { w with live := setLive w.live id true }
                  pure (.ok ()) : Core (Except SubmitError Unit)) (fun _ => U) D w₃ := by
          intro confirmed w₃ h₃
          split_ifs
          · exact .pure h₃
          · exact .modify_bind (.pure (h.withLive _ _ h₃))
        refine .modify_bind ?_
        have h₂ := h.withLive _ (setLive w₁.live id (w.live.contains (id, true) && config.debug)) h₁
        by_cases hon : (w.live.contains (id, true) && config.debug) = true
        · rw [if_pos hon]
          exact .bind (.pure (hactive true _ h₂))
        · rw [if_neg hon]
          exact .seq (h.safe_writeDebugDirect h₂ true) (fun _ hd => hd) hactive

/-- Releasing a lease. -/
theorem safe_releaseDebugLease (hw : U w) (id : ℕ) :
    (releaseDebugLease env id).Safe (fun _ => U) D w := by
  refine .get_bind (.seq (h.retouch w _ hw ⟨rfl, rfl, rfl, rfl, rfl, rfl, rfl, rfl⟩ le_rfl)
    (fun _ hd => hd) ?_)
  rintro (error | u) w₁ ⟨h₁, -⟩
  · exact .pure h₁
  · exact .modify_bind (h.safe_restoreDebugIfUnleased (h.withLive _ _ h₁) true)

/-- The end of leases. -/
theorem safe_expireDebugLeases (hw : U w) (elapsed : ℕ → Bool) :
    (expireDebugLeases env elapsed).Safe (fun _ => U) D w := by
  refine .get_bind ?_
  by_cases hfault : w.fault = true
  · rw [if_pos hfault]
    exact .pure hw
  · rw [if_neg hfault]
    have hdropped : ∀ w₁, U w₁ → Prog.Safe (do
        .modify fun w₁ => { w₁ with live := w₁.live.filter fun live =>
          (w.store.journal.debugLeases.filter fun lease =>
            w.live.any fun live => live.1 = lease.1 && !elapsed live.1).any (·.1 = live.1) }
        let _ ← restoreDebugIfUnleased env false
        pure () : Core Unit) (fun _ => U) D w₁ := fun w₁ h₁ =>
      .modify_bind (.seq (h.safe_restoreDebugIfUnleased (h.withLive _ _ h₁) false) (fun _ => id)
        fun _ _ h₂ => .pure h₂)
    dsimp only
    split_ifs
    · refine .seq (h.retouch w _ hw ⟨rfl, rfl, rfl, rfl, rfl, rfl, rfl, rfl⟩ le_rfl)
        (fun _ => id) ?_
      rintro (error | u) w₁ ⟨h₁, -⟩
      · exact .pure h₁
      · exact hdropped w₁ h₁
    · exact .bind (.pure (hdropped w hw))

/-- A command. -/
theorem safe_executeCommand (hw : U w) (op : OperationId) (command : CoreCommand) :
    (executeCommand env op command).Safe (fun _ => U) D w := by
  refine .get_bind ?_
  split_ifs
  · exact .pure hw
  split
  next => exact .pure hw
  next => exact .pure hw
  next hrequest => exact h.execute w _ hw (regular_requestOf hrequest)

/-- Every job keeps it. -/
theorem safe_job {up : Bool} (hdown : D w) (hw : up → U w) {job : Job}
    (hup : (∃ device, job = .load device) ∨ up) :
    (job.run env).Safe (fun ok w' => D w' ∧ (job.isUp ok → U w')) D w := by
  have hjob : ∀ {α : Type} {m : Core α} (f : α → Bool), m.Safe (fun _ => U) D w →
      Prog.Safe (m >>= fun a => pure (f a)) (fun ok w' => D w' ∧ (job.isUp ok → U w')) D w :=
    fun f hm =>
    .seq hm (fun _ => id) fun _ w' h' => .pure ⟨h.down w' h', fun _ => h'⟩
  obtain ⟨device, rfl⟩ | hup := hup
  · exact h.load w device hdown
  have hw := hw hup
  cases job with
  | load device => exact h.load w device hdown
  | issue => exact hjob _ (h.issue w hw)
  | command op command => exact hjob _ (h.safe_executeCommand hw op command)
  | acquire id owner => exact hjob _ (h.safe_acquireDebugLease hw id owner)
  | release id => exact hjob _ (h.safe_releaseDebugLease hw id)
  | expire elapsed => exact hjob _ (h.safe_expireDebugLeases hw elapsed)
  | lifecycle l =>
    have hpersist :=
      h.retouch w (w.store.journal.withLifecycle l) hw ⟨rfl, rfl, rfl, rfl, rfl,
        rfl, rfl, rfl⟩ le_rfl
    exact .get_bind (hjob _ (hpersist.mono (fun _ _ h' => h'.1) fun _ => id))

end Upheld

/-! ## Runs that go on -/

section Runs

variable {S : OperationId → Prop} {P : Journal → Prop} {w₀ w w' : World} {s : ConfigStore}
  {j : Journal} {env : Env}

/-- A journal is written, and memory takes a store over or storage fails. -/
theorem Serves.written (h : Serves S P w₀ w) (hj : P j) (result : WriteResult) :
    Serves S P w₀ (if result.lands then { w with disk := j } else w) := by
  split_ifs
  · exact ⟨h.toDescends.congr hj rfl, h.store⟩
  · exact h

/-- A write of the store keeps an inherited property. -/
theorem Serves.safe_persistStore (h : Serves S P w₀ w) (hs : P s.journal) :
    (persistStore s).Safe (fun _ => Serves S P w₀) (Descends S P w₀) w := by
  refine .get_bind ?_
  split_ifs
  · exact .pure h
  · refine .bind (safe_writeAtomic h.toDescends fun result => ?_)
    have h₁ := h.written hs result
    generalize (if result.lands then { w with disk := s.journal } else w : World) = w₁ at h₁
    split_ifs
    · exact .bind (safe_freezeStorageFault (.pure ⟨h₁.toDescends.congr h₁.disk rfl, h.store⟩))
    · exact .bind (safe_installStore (.pure ⟨h₁.toDescends.congr h₁.disk rfl, hs⟩))

/-- Handing out an id keeps it. -/
theorem Serves.safe_issueOperationIdDirect (h : Serves S P w₀ w) (hP : Journal.Heritable S P) :
    issueOperationIdDirect.Safe (fun _ => Serves S P w₀) (Descends S P w₀) w := by
  refine .get_bind ?_
  dsimp only
  split_ifs
  · exact .pure h
  · have hj : P { w.store.journal with issuedThrough := w.store.journal.issuedThrough + 1 } :=
      hP.touches w.store.journal _ (Journal.touches_of_eq rfl (Nat.le_succ _) rfl rfl) h.store
    refine .bind (safe_writeAtomic h.toDescends fun result => ?_)
    have h₁ := h.written hj result
    generalize (if result.lands then { w with
      disk := { w.store.journal with issuedThrough := w.store.journal.issuedThrough + 1 } }
        else w : World) = w₁ at h₁
    split_ifs
    · exact .bind (safe_freezeStorageFault (.pure ⟨h₁.toDescends.congr h₁.disk rfl, h.store⟩))
    · exact .modify_bind (.pure ⟨h₁.toDescends.congr h₁.disk rfl, hj⟩)

/-- A load keeps it. -/
theorem Descends.safe_loadWithJournal (h : Descends S P w₀ w) (hP : Journal.Heritable S P)
    (hstored : w.disk.Stored) (device : Device) :
    (loadWithJournal env device).Safe (fun ok w' => Descends S P w₀ w' ∧ (ok → Serves S P w₀ w'))
      (Descends S P w₀) w := by
  have hj : P (w.reloadedJournal device) :=
    hP.recover device w.file _ hstored.upgrade.prune (hP.migrate _ h.disk)
  refine .get_bind ?_
  split
  next => exact .pure ⟨h, by simp⟩
  next =>
    refine .bind (safe_prune (.bind (safe_writeAtomic (h.congr h.disk rfl) fun result => ?_)))
    by_cases hresult : result = .written
    · subst hresult
      rw [if_neg (not_not.2 rfl)]
      refine .modify_bind (.bind (safe_installStore (.pure ?_)))
      have hserves : Serves S P w₀ (World.install { w with
          pruned := (w.file, w.disk.upgrade) :: w.pruned, disk :=
        w.reloadedJournal device, fault := false, live := [] }
          (w.reloadedStore device)) := ⟨h.congr hj rfl, hj⟩
      exact ⟨hserves.toDescends, fun _ => hserves⟩
    · rw [if_pos hresult]
      refine .pure ⟨?_, by simp⟩
      split_ifs
      · exact h.congr hj rfl
      · exact h.congr h.disk rfl

/-- An inherited property is upheld. -/
theorem Journal.Heritable.upheld (hP : Journal.Heritable S P) (env : Env) (w₀ : World) :
    Upheld env (fun w => Up w ∧ Serves S P w₀ w) (fun w => Down w ∧ Descends S P w₀ w) where
  down w hw := ⟨hw.1.toDown, hw.2.toDescends⟩
  withLive w live hw := ⟨hw.1.withLive live, hw.2.toDescends.congr hw.2.disk rfl, hw.2.store⟩
  issue w hw := hw.1.safe_issueOperationIdDirect.and (hw.2.safe_issueOperationIdDirect hP)
  retouch w j hw hj hissued := by
    have hjournal : P j :=
      hP.touches _ j (Journal.touches_of_eq hj.operations hissued hj.expiredThrough hj.retiredIds)
      hw.2.store
    exact ((hw.1.safe_persistJournal hj).and (hw.2.safe_persistStore hjournal)).mono
      (fun _ _ h => ⟨⟨h.1.1, h.2⟩, h.1.2⟩) fun _ => id
  adopt w s hw hread := by
    have hpersist := hw.1.safe_persistStore (s := s) fun hfault =>
      let hembarks := (hw.1.idle hfault).embarks_of_reconciles hread
      ⟨hembarks.stands, hembarks.follows⟩
    exact (hpersist.and (hw.2.safe_persistStore (hread.journal hP hw.2.store))).mono
      (fun _ _ h => ⟨⟨h.1.1, h.2⟩, h.1.2⟩) fun _ => id
  execute w r hw hr := (hw.1.safe_executeEditOpts hr).and (hw.2.safe_executeEditOpts hP hw.1 hr)
  load w device hw := ((hw.1.safe_loadWithJournal device).and
    (hw.2.safe_loadWithJournal hP hw.1.grounded.stored device)).mono
      (fun _ _ h => ⟨⟨h.1.1, h.2.1⟩, fun hok => ⟨h.1.2 hok, h.2.2 hok⟩⟩) fun _ => id

/-- What has become of a world while Core is up, also if storage had failed before: nothing is
    written until a restart then. -/
def Weathers (S : OperationId → Prop) (P : Journal → Prop) (w₀ w : World) : Prop :=
  Serves S P w₀ w ∨ w.fault = true ∧ Descends S P w₀ w

section Failed

variable {U D : World → Prop} (hfault : w.fault = true) (hw : U w)

include hfault hw

/-- After a fault nothing is written. -/
theorem safe_persistStore_of_fault (s : ConfigStore) :
    (persistStore s).Safe (fun result w' => U w' ∧ result ≠ .ok ()) D w := by
  refine .get_bind ?_
  rw [if_pos hfault]
  exact .pure ⟨hw, by simp⟩

/-- After a fault no id is handed out. -/
theorem safe_issueOperationIdDirect_of_fault : issueOperationIdDirect.Safe (fun _ => U) D w := by
  refine .get_bind ?_
  dsimp only
  rw [hfault, Bool.true_or, if_pos rfl]
  exact .pure hw

/-- After a fault no command is executed. -/
theorem safe_executeEditOpts_of_fault (env : Env) (r : Request) :
    (executeEditOpts env r).Safe (fun _ => U) D w := by
  have hanswer :
      dedupe w.fault w.store.journal r.op r.base r.edit r.intent = some (.error .unavailable) := by
    rw [hfault]
    rfl
  refine .get_bind ?_
  dsimp only
  rw [hanswer]
  exact .pure hw

end Failed

/-- An inherited property weathers a fault. -/
theorem Journal.Heritable.upheld_weathers (hP : Journal.Heritable S P) (env : Env) (w₀ : World) :
    Upheld env (fun w => Up w ∧ Weathers S P w₀ w) (fun w => Down w ∧ Descends S P w₀ w) where
  down w hw := ⟨hw.1.toDown, hw.2.elim (·.toDescends) (·.2)⟩
  withLive w live hw := by
    refine ⟨hw.1.withLive live, ?_⟩
    obtain h | ⟨hfault, h⟩ := hw.2
    · exact .inl ⟨h.toDescends.congr h.disk rfl, h.store⟩
    · exact .inr ⟨hfault, h.congr h.disk rfl⟩
  issue w hw := by
    obtain h | ⟨hfault, h⟩ := hw.2
    · exact ((hP.upheld env w₀).issue w ⟨hw.1, h⟩).mono (fun _ _ h' => ⟨h'.1, .inl h'.2⟩) fun _ =>
        id
    · exact safe_issueOperationIdDirect_of_fault hfault hw
  retouch w j hw hj hissued := by
    obtain h | ⟨hfault, h⟩ := hw.2
    · exact ((hP.upheld env w₀).retouch w j ⟨hw.1, h⟩ hj hissued).mono
        (fun _ _ h' => ⟨⟨h'.1.1, .inl h'.1.2⟩, h'.2⟩) fun _ => id
    · exact (safe_persistStore_of_fault hfault hw _).mono
        (fun _ _ h' => ⟨h'.1, fun hok => absurd hok h'.2⟩) fun _ => id
  adopt w s hw hread := by
    obtain h | ⟨hfault, h⟩ := hw.2
    · exact ((hP.upheld env w₀).adopt w s ⟨hw.1, h⟩ hread).mono
        (fun _ _ h' => ⟨⟨h'.1.1, .inl h'.1.2⟩, h'.2⟩) fun _ => id
    · exact (safe_persistStore_of_fault hfault hw s).mono
        (fun _ _ h' => ⟨h'.1, fun hok => absurd hok h'.2⟩) fun _ => id
  execute w r hw hr := by
    obtain h | ⟨hfault, h⟩ := hw.2
    · exact ((hP.upheld env w₀).execute w r ⟨hw.1, h⟩ hr).mono (fun _ _ h' => ⟨h'.1, .inl h'.2⟩)
        fun _ => id
    · exact safe_executeEditOpts_of_fault hfault hw env r
  load w device hw :=
    ((hP.upheld env w₀).load w device hw).mono
      (fun _ _ h' => ⟨h'.1, fun hok => ⟨(h'.2 hok).1, .inl (h'.2 hok).2⟩⟩) fun _ => id

/-- What a run may go on to from a world. -/
inductive Leads (up : Bool) (w : World) : Bool → World → Prop
  | refl : Leads up w up w
  | job {up' : Bool} {w' w'' : World} (h : Leads up w up' w') (env : Env) (job : Job)
      (hup : (∃ device, job = .load device) ∨ up') {tape tape' : List Answer} {ok : Bool}
      (hrun : job.run env tape w' = .done ok tape' w'') : Leads up w (job.isUp ok) w''
  | crash {up' : Bool} {w' w'' : World} (h : Leads up w up' w') (env : Env) (job : Job)
      (hup : (∃ device, job = .load device) ∨ up') {tape : List Answer}
      (hrun : job.run env tape w' = .crashed w'') : Leads up w false w''

/-- What every job keeps, a run keeps that goes on. -/
theorem Leads.keeps {up up' : Bool} {U D : World → Prop} (h : Leads up w up' w')
    (hjobs : ∀ env, Upheld env U D) (hdown : D w) (hup : up → U w) : D w' ∧ (up' → U w') := by
  induction h with
  | refl => exact ⟨hdown, hup⟩
  | @job _ _ _ _ env job hcan tape _ _ hrun ih =>
    have hsafe := (hjobs env).safe_job ih.1 ih.2 hcan tape
    rwa [hrun] at hsafe
  | @crash _ _ _ _ env job hcan tape hrun ih =>
    have hsafe := (hjobs env).safe_job ih.1 ih.2 hcan tape
    rw [hrun] at hsafe
    exact ⟨hsafe, by simp⟩

/-- What the steps of the journal keep, too. -/
theorem Leads.descends {up up' : Bool} (h : Leads up w up' w') (hP : Journal.Heritable S P)
    (hdown : Down w ∧ Descends S P w₀ w) (hup : up → Up w ∧ Serves S P w₀ w) :
    (Down w' ∧ Descends S P w₀ w') ∧ (up' → Up w' ∧ Serves S P w₀ w') :=
  h.keeps (fun env => hP.upheld env w₀) hdown hup

/-- What leads on is a run. -/
theorem Run.leads {up up' : Bool} {granted : List ℕ} (hrun : Run up w granted)
    (h : Leads up w up' w') :
    ∃ granted', Run up' w' granted' := by
  induction h with
  | refl => exact ⟨granted, hrun⟩
  | job _ env job hcan hjob ih =>
    obtain ⟨granted', hrun'⟩ := ih
    exact ⟨_, hrun'.job env job hcan hjob⟩
  | crash _ env job hcan hjob ih =>
    obtain ⟨granted', hrun'⟩ := ih
    exact ⟨_, hrun'.crash env job hcan hjob⟩

end Runs

end VpnHide.Daemon

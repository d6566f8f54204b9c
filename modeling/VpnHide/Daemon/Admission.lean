import VpnHide.Daemon.Settlement

/-!
# Admitting a request

What an idle Core makes of a request. The config file may be read back first, and the store
that the request then starts from is one that Core could continue with (`Embarks`). The
revision that a change reserves is newer than every one at which a write may have reached the
file, so that a request that is admitted departs (`Embarks.departure`), and Core is up again
when it is executed (`Up.safe_executeEditOpts`).
-/

namespace VpnHide.Daemon

open Lib Config

variable {w w' : World} {s : ConfigStore} {env : Env} {r : Request} {c : Operation} {j j' : Journal}
  {f : Option CanonicalConfig} {readback : Bool}

/-! ## Reading the config file back -/

/-- Without a held config there is nothing to read back. -/
theorem Journal.readback_of_free (h : j.PendingSound) (hfree : j.persistHeld = false)
    (f : Option CanonicalConfig) :
    j.readback f = none := by
  have hnot : ¬ (ConfigPhase.persist ∈ j.expiredHolds ∨ j.persistHolders ≠ []) := by
    rintro (hin | hne)
    · simp [persistHeld, hin] at hfree
    · simp [persistHeld, hne] at hfree
  rw [not_or, not_not] at hnot
  have hpending : j.pendingPersist = none := by
    by_contra hne
    exact hnot.1 (h.held hne)
  simp [readback, proofs, hnot.2, hpending]

/-- When nothing holds the config, it is certain. -/
theorem Idle.settles (h : Idle w) (hfree : w.store.journal.persistHeld = false) :
    Settles w w.store.snapshot := by
  refine ⟨h.matched.resolve_right fun huncertain => ?_, fun hkept n hn => ?_⟩
  · rw [huncertain.persistHeld] at hfree
    cases hfree
  · refine ((h.witnessed hkept).landed n hn).resolve_right ?_
    rintro ⟨p, a, hp, -⟩
    rw [Journal.readback_of_free h.sound.pending hfree] at hp
    cases hp

/-- The store that a request starts from, and whether the config file was read back. -/
structure Embarks (w : World) (s : ConfigStore) (readback : Bool) : Prop where
  stands : Stands w s.snapshot s.journal
  resumes : w.Kept → w.Resumes s.snapshot s.configRevision
  follows : w.Kept → Follows s.snapshot w.store.snapshot
  known : ∀ op, w.disk.Known op ↔ s.journal.Known op
  revocation : s.journal.zygiskRevocation = w.disk.zygiskRevocation
  held : s.journal.persistHeld = w.store.journal.persistHeld
  settles : w.store.journal.persistHeld = false ∨ readback → Settles w s.snapshot

/-- Core goes on from where it is idle. -/
theorem Idle.resumes (h : Idle w) (hkept : w.Kept) :
    w.Resumes w.store.snapshot w.store.configRevision := by
  have hstored : w.disk.Stored := h.disk ▸ h.sound.stored fun _ _ => False.elim
  refine resumes_of_witnessed hstored (h.disk ▸ h.attempted hkept) (fun e he hrun => ?_)
    (h.disk ▸ h.witnessed hkept)
    (h.disk ▸ (h.revision hkept).le)
  rw [h.disk] at he
  exact absurd hrun (h.sound.whole e he id).settled

/-- An operation can begin where Core is idle. -/
theorem Idle.embarks (h : Idle w) : Embarks w w.store false where
  stands := h.stands
  resumes := h.resumes
  follows _ := .refl _
  known op := by rw [h.disk]
  revocation := by rw [h.disk]
  held := rfl
  settles hfree := h.settles (hfree.resolve_right (by simp))

/-- The store that takes over what the config file has. -/
def adopt (w : World) (a : Admission) : ConfigStore :=
  let configRevision := max w.store.configRevision a.commitRevision
  let fieldRevisions := noteWrites w.store.fieldRevisions a.writes a.commitRevision
  ⟨w.file, configRevision, { w.store.journal with fieldRevisions, configRevision }, fieldRevisions⟩

/-- So it can when an uncertain write is adopted. -/
theorem Idle.embarks_adopt (h : Idle w) {p : PendingPersist} {a : Admission}
    (hread : w.store.journal.readback w.file = some p) (ha : p.admission = some a) :
    Embarks w (adopt w a) true := by
  have hle : w.store.configRevision ≤ max w.store.configRevision a.commitRevision := le_max_left _ _
  -- memory is up to date, or the write that is found is newer
  have hnewer : w.Kept → w.file = w.store.config ∨ w.store.configRevision < a.commitRevision := by
    intro hkept
    refine (h.witnessed hkept).config.imp_right ?_
    rintro ⟨p', a', hp', ha', hlt⟩
    obtain rfl := Option.some.inj (hread.symm.trans hp')
    obtain rfl := Option.some.inj (ha.symm.trans ha')
    exact hlt
  have hlanded : w.Kept → ∀ n ∈ w.landed, n ≤ max w.store.configRevision a.commitRevision := by
    intro hkept n hn
    obtain hn | ⟨p', a', hp', ha', hn⟩ := (h.witnessed hkept).landed n hn
    · exact hn.trans hle
    · obtain rfl := Option.some.inj (hread.symm.trans hp')
      obtain rfl := Option.some.inj (ha.symm.trans ha')
      exact hn.trans (le_max_right _ _)
  have hsound := h.sound.mono hle
  refine ⟨⟨⟨hsound.nodup, hsound.whole, hsound.admitted, hsound.confirmed,
      ⟨hsound.pending.admitted, hsound.pending.held⟩, hsound.retain, hsound.projection⟩, h.known,
      fun hkept => ?_, .inl rfl, fun hkept e he hheld => ?_, fun hkept =>
        ⟨.inl rfl, fun n hn => .inl (hlanded hkept n hn)⟩⟩,
    fun hkept => ?_, fun hkept => ⟨hle, fun heq => ?_⟩,
    fun op => h.disk ▸ (Iff.rfl : w.store.journal.Known op ↔ _), ?_, rfl, fun _ => ⟨rfl, hlanded⟩⟩
  · refine (@loadedRevision_of_pos (adopt w a).journal _ fun hne => ?_).symm
    obtain hsame | hlt := hnewer hkept
    · have hpos := loadedRevision_pos (h.revision hkept)
      exact (hpos fun hnone => hne (hsame.trans hnone)).trans_le hle
    · exact ((Nat.zero_le _).trans_lt hlt).trans_le (le_max_right _ _)
  · exact (h.attempted hkept e he hheld).imp_right fun hold a' ha' => (hold a' ha').trans hle
  · have hstored : w.disk.Stored := h.disk ▸ h.sound.stored fun _ _ => False.elim
    have hresumes := h.resumes hkept
    refine ⟨fun e he hheld => (hresumes.attempted e he hheld).imp_right fun hold a' ha' =>
      (hold a' ha').trans hle,
      fun e he hrun hp a' ha' => (hresumes.running e he hrun hp a' ha').trans hle,
      fun hkeeps device => ?_⟩
    obtain ⟨hrev, -, hold⟩ := hresumes.reloads hkeeps device
    have hcommit : a.commitRevision ≤ (w.reloaded device).1 := by
      by_cases hlt : w.store.configRevision < a.commitRevision
      · refine le_trans ?_ (le_loadedRevision _ _)
        exact commit_le_of_readback hstored hresumes.attempted hkeeps (h.disk ▸ hread) ha hlt
      · exact (Nat.le_of_not_lt hlt).trans hrev
    exact ⟨max_le hrev hcommit, ⟨max_le hrev hcommit, fun _ => rfl⟩, hold⟩
  · obtain hsame | hlt := hnewer hkept
    · exact hsame.symm
    · exact absurd (hlt.trans_le (le_max_right _ _)) heq.not_lt
  · exact congrArg (·.zygiskRevocation) h.disk.symm

/-- What reading the config file back finds. -/
inductive Reconciles (w : World) : Bool → ConfigStore → Prop
  | free (hfree : w.store.journal.persistHeld = false) : Reconciles w false w.store
  | adopted {p : PendingPersist} {a : Admission} (hread : w.store.journal.readback w.file = some p)
      (ha : p.admission = some a) : Reconciles w true (adopt w a)
  | same (hread : w.store.journal.readback w.file = none) (hfile : w.file = w.store.config) :
      Reconciles w true w.store

/-- `reconcile_held_persist` changes nothing but what it returns. -/
theorem safe_reconcileHeldPersist (w : World) :
    (reconcileHeldPersist w.store).Safe
    (fun result w' => w' = w ∧ ∀ readback s, result = .ok (readback, s) →
      Reconciles w readback s) (· = w) w := by
  rw [reconcileHeldPersist]
  split_ifs with hfree
  · rw [Bool.not_eq_true'] at hfree
    refine .pure ⟨rfl, fun readback s heq => ?_⟩
    obtain ⟨rfl, rfl⟩ := Prod.mk.inj (Except.ok.inj heq)
    exact .free hfree
  · refine .ask_bind rfl fun _ ok _ => ?_
    cases ok with
    | false => exact .pure ⟨rfl, by simp⟩
    | true =>
      refine .get_bind ?_
      dsimp only
      split
      next p hread =>
        split
        next => exact .pure ⟨rfl, by simp⟩
        next a ha =>
          refine .pure ⟨rfl, fun readback s heq => ?_⟩
          obtain ⟨rfl, rfl⟩ := Prod.mk.inj (Except.ok.inj heq)
          exact .adopted hread ha
      next hread =>
        split_ifs with hdiffers
        · exact .pure ⟨rfl, by simp⟩
        · refine .pure ⟨rfl, fun readback s heq => ?_⟩
          obtain ⟨rfl, rfl⟩ := Prod.mk.inj (Except.ok.inj heq)
          exact .same hread (not_not.1 hdiffers)

/-- After a reconciliation the config is not held, or it was read back. -/
theorem Reconciles.known (h : Reconciles w readback s) :
    w.store.journal.persistHeld = false ∨ readback := by
  cases h with
  | free hfree => exact .inl hfree
  | adopted => exact .inr rfl
  | same => exact .inr rfl

/-- An operation can begin after a reconciliation. -/
theorem Idle.embarks_of_reconciles (h : Idle w) (hread : Reconciles w readback s) :
    Embarks w s readback := by
  cases hread with
  | free => exact h.embarks
  | adopted hread ha => exact h.embarks_adopt hread ha
  | same hread hfile =>
    have hembarks := h.embarks
    refine ⟨hembarks.stands, hembarks.resumes, hembarks.follows, hembarks.known,
      hembarks.revocation, rfl, fun _ => ⟨hfile, fun hkept n hn => ?_⟩⟩
    refine ((h.witnessed hkept).landed n hn).resolve_right ?_
    rintro ⟨p, a, hp, -⟩
    rw [hread] at hp
    cases hp

/-! ## The operation that is admitted -/

/-- The requests that commands and leases make. -/
structure Request.Regular (r : Request) : Prop where
  reset : r.reset ↔ r.intent = .fullReset
  cleanup : r.intent = .cleanupLegacy → isRepair r.edit
  effect : r.effect = none ∨ r.effect = some .secret ∨ r.effect = some .cleanup
  forced : ∀ plan, r.forced = some plan → plan.Nodup ∧ .persist ∉ plan.tail

/-- The config is written first, and no phase runs twice. -/
theorem planOf_spec (hr : r.Regular) (env : Env) (changed readback : Bool) :
    (planOf env r changed readback).Nodup ∧ .persist ∉ (planOf env r changed readback).tail := by
  rw [planOf]
  generalize r.kind.getD _ = kind
  cases hforced : r.forced with
  | some plan => exact hr.forced plan hforced
  | none =>
    obtain heffect | heffect | heffect := hr.effect <;> rw [heffect] <;> revert kind readback
    all_goals intro readback kind; cases kind <;> cases readback <;> decide

/-- The revision of every write that may have reached the file is reserved. -/
theorem le_reserved {p : PendingPersist} {a : Admission} (hp : p ∈ s.journal.proofs)
    (ha : p.admission = some a) :
    a.commitRevision ≤ reserved s := by
  have hmem : a.commitRevision ∈ s.journal.proofs.filterMap fun proof =>
    proof.admission.map (·.commitRevision) :=
    List.mem_filterMap.2 ⟨p, hp, by simp [ha]⟩
  obtain ⟨m, hm⟩ := Option.isSome_iff_exists.1 (List.isSome_max?_of_mem hmem)
  rw [reserved, hm, Option.getD_some]
  exact ((List.max?_eq_some_iff.1 hm).2 _ hmem).trans (le_max_right _ _)

/-- The reservation is above all that has landed. -/
theorem Embarks.landed_le_reserved (h : Embarks w s readback) (hkept : w.Kept) :
    ∀ n ∈ w.landed, n ≤ reserved s := by
  intro n hn
  obtain hle | ⟨p, a, hp, ha, hle⟩ := (h.stands.witnessed hkept).landed n hn
  · exact hle.trans (le_max_left _ _)
  · exact hle.trans (le_reserved (List.mem_of_find?_eq_some hp) ha)

/-- What is admitted, after all checks. -/
structure Admits (env : Env) (r : Request) (readback : Bool) (s : ConfigStore) (c : Operation) :
    Prop where
  conflicts : checkConflicts r s = .ok ()
  op : c.op = r.op
  command : c.command = r.intent
  reset : c.reset = r.reset
  changed : c.changed = isChange r s c.candidate
  plan : c.plan = planOf env r c.changed readback
  admission : admissionOf r s c.plan c.changed = .ok c.admission

/-- What `admit_request` answers. -/
theorem safe_admitRequest (env : Env) (r : Request) (readback : Bool)
    (s : ConfigStore) (w : World) :
    (admitRequest env r readback s).Safe (fun result w' => w' = w ∧ ∀ s' c, result = .ok (s', c) →
      s' = s ∧ Admits env r readback s c) (· = w) w := by
  refine .get_bind ?_
  split
  next => exact .pure ⟨rfl, by simp⟩
  next => exact .pure ⟨rfl, by simp⟩
  next next hconflicts _ =>
    have hadmitted :
        ∀ admission, admissionOf r s (planOf env r (isChange r s next) readback)
          (isChange r s next) =
        .ok admission →
          Prog.Safe (pure (.ok (s, operationOf r next (planOf env r (isChange r s next) readback)
            (isChange r s next) admission)) : Core (Except SubmitError (ConfigStore × Operation)))
        (fun result w' => w' = w ∧ ∀ s' c, result = .ok (s', c) →
          s' = s ∧ Admits env r readback s c) (· = w) w := by
      intro admission hadmission
      refine .pure ⟨rfl, fun s' c heq => ?_⟩
      obtain ⟨rfl, rfl⟩ := Prod.mk.inj (Except.ok.inj heq)
      exact ⟨rfl, hconflicts, rfl, rfl, rfl, rfl, rfl, hadmission⟩
    dsimp only
    split_ifs
    · refine .ask_bind rfl fun _ refusal _ => ?_
      split
      next => exact .pure ⟨rfl, by simp⟩
      next => exact .pure ⟨rfl, by simp⟩
      next hadmission _ => exact hadmitted _ hadmission
    · -- the backend was not asked
      refine .bind (.pure ?_)
      split
      next refused => cases refused
      next => exact .pure ⟨rfl, by simp⟩
      next hadmission => exact hadmitted _ hadmission

/-- A change commits the revision above the reservation. -/
theorem Admits.commit (h : Admits env r readback s c) (hchanged : c.changed)
    (hplan : .persist ∈ c.plan) :
    c.admission.commitRevision = reserved s + 1 := by
  have hadmission := h.admission
  simp only [admissionOf, hchanged, hplan, decide_true, Bool.and_self, if_true] at hadmission
  split_ifs at hadmission
  exact congrArg Admission.commitRevision (Except.ok.inj hadmission).symm

/-- Without a change the candidate is the config that is there. -/
theorem Admits.unchanged (h : Admits env r readback s c) (hchanged : c.changed = false) :
    r.reset = false ∧ s.config = some c.candidate ∧
      c.admission.commitRevision = s.configRevision := by
  have hchange := h.changed
  rw [hchanged, isChange] at hchange
  have hadmission := h.admission
  simp only [admissionOf, hchanged, Bool.false_and, Bool.false_eq_true, if_false] at hadmission
  refine ⟨?_, ?_, congrArg Admission.commitRevision (Except.ok.inj hadmission).symm⟩
  · cases hreset : r.reset with
    | false => rfl
    | true => simp [hreset] at hchange
  · by_contra hne
    simp [hne] at hchange

/-- What is held is permitted by the check. -/
theorem permitted_of_checkResources (h : checkResources env r j = .ok ()) :
    (recoveryAction r).any (fun action =>
    !permitsHeld action (if j.persistHeld then [ConfigPhase.persist] else [])) = false := by
  simp only [checkResources] at h
  generalize (if j.persistHeld then [ConfigPhase.persist] else []) = held at h ⊢
  by_contra hrefused
  rw [Bool.not_eq_false] at hrefused
  simp only [hrefused, if_true] at h
  split_ifs at h <;> cases h

/-- Nothing is uncertain after the check, unless it is a recovery. -/
theorem certain_of_checkConflicts (h : checkConflicts r s = .ok ()) :
    (s.journal.hasUnknown && !r.lease &&
    !isRepair r.edit && (recoveryAction r).isNone && !bootstrapWithStartupHold r s) = false := by
  simp only [checkConflicts] at h
  split_ifs at h with hrefused
  · cases h
  · exact Bool.eq_false_iff.2 hrefused

/-- A request that leaves the config as it is needs nothing to be uncertain of it. -/
theorem free_of_checks (hr : r.Regular) (hresources : checkResources env r j = .ok ())
    (hconflicts : checkConflicts r s = .ok ()) (hheld : s.journal.persistHeld = j.persistHeld)
    (hedit : (isRepair r.edit || r.lease) = false) (hreset : r.reset = false) :
    j.persistHeld = false := by
  rw [Bool.or_eq_false_iff] at hedit
  by_contra hfree
  rw [Bool.not_eq_false] at hfree
  rw [hfree] at hheld
  have hpermitted := permitted_of_checkResources hresources
  have hcertain := certain_of_checkConflicts hconflicts
  have hunknown : s.journal.hasUnknown ∧ bootstrapWithStartupHold r s = false := by
    obtain hin | hin := Journal.persistHeld_iff.1 hheld
    · have hne : s.journal.expiredHolds.isEmpty = false := by
        simpa using List.ne_nil_of_mem hin
      simp [Journal.hasUnknown, bootstrapWithStartupHold, hne]
    · obtain ⟨e, he, hmem⟩ := List.mem_flatMap.1 hin
      have hne : e.heldPhases.isEmpty = false := by
        simpa using List.ne_nil_of_mem hmem
      refine ⟨?_, ?_⟩
      · have hany : (s.journal.operations.any fun e => !e.heldPhases.isEmpty) = true :=
          List.any_eq_true.2 ⟨e, he, by simp [hne]⟩
        simp [Journal.hasUnknown, hany]
      · have hall : (s.journal.operations.all fun e => e.heldPhases.isEmpty) = false :=
          List.all_eq_false.2 ⟨e, he, by simp [hne]⟩
        simp [bootstrapWithStartupHold, hall]
  -- only an action that removes what is uncertain is left
  obtain ⟨action, haction⟩ : ∃ action, recoveryAction r = some action := by
    rw [← Option.isSome_iff_exists]
    simpa [hunknown, hedit] using hcertain
  rw [haction, Option.any_some, hfree, if_pos rfl, Bool.not_eq_false'] at hpermitted
  rw [recoveryAction] at haction
  split at haction
  next hintent =>
    obtain rfl := Option.some.inj haction
    cases hpermitted
  next hintent =>
    obtain rfl := Option.some.inj haction
    cases hpermitted
  next hintent =>
    rw [hr.reset.2 hintent] at hreset
    cases hreset
  next hintent =>
    rw [hr.cleanup hintent] at hedit
    cases hedit.1
  next =>
    rw [hedit.1] at haction
    cases haction

/-- A request that is admitted departs. -/
theorem Embarks.departure (h : Embarks w s readback) (hr : r.Regular)
    (hadmits : Admits env r readback s c)
    (hresources : checkResources env r w.store.journal = .ok ())
    (hedit : isRepair r.edit || r.lease → w.store.journal.persistHeld = false ∨ readback) :
    ∃ d : Departure, d.op = c ∧ d.store = s ∧ d.start = w := by
  obtain ⟨hnodup, hhead⟩ := planOf_spec hr env c.changed readback
  rw [← hadmits.plan] at hnodup hhead
  have hsettles : c.changed = false → Settles w s.snapshot := by
    intro hchanged
    refine h.settles ?_
    by_cases he : (isRepair r.edit || r.lease) = true
    · exact hedit he
    · exact .inl (free_of_checks hr hresources hadmits.conflicts h.held (Bool.eq_false_iff.2 he)
        (hadmits.unchanged hchanged).1)
  refine ⟨⟨c, s, w, h.stands.revision, ?_, hnodup, hhead, fun hchanged hplan => ?_,
    fun hchanged => ?_, fun hchanged _ => ⟨(hsettles hchanged).file, (hsettles hchanged).landed⟩⟩,
    rfl, rfl, rfl⟩
  · rw [hadmits.reset, hadmits.command]
    exact hr.reset
  · rw [hadmits.commit hchanged hplan]
    exact ⟨Nat.lt_succ_of_le (le_max_left _ _), fun hkept n hn =>
      Nat.lt_succ_of_le (h.landed_le_reserved hkept n hn)⟩
  · obtain ⟨hreset, hconfig, hcommit⟩ := hadmits.unchanged hchanged
    refine ⟨?_, hcommit⟩
    rw [Operation.target, hadmits.reset, hreset, hconfig]
    rfl

end VpnHide.Daemon

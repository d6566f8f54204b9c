import VpnHide.Daemon.Runs

/-!
# What the journal keeps

The journal is changed in three ways while an operation runs: its receipt is recorded
(`Journal.insert`), old receipts are pruned, and native transitions touch what has nothing to
do with the config (`Journal.Alike`). This module says what each of them keeps: the holds on
the config, and what a readback finds.
-/

namespace VpnHide.Daemon

open Lib Config

/-! ## Recording a receipt -/

/-- The slot of a receipt, or the end of the journal. -/
theorem Journal.withEntry_eq (entries : List JournalEntry) (entry : JournalEntry) :
    (∃ before old after, entries = before ++ old :: after ∧ old.record.op = entry.record.op ∧
      Journal.withEntry entries entry = before ++ entry :: after) ∨
    ((∀ e ∈ entries, e.record.op ≠ entry.record.op) ∧
      Journal.withEntry entries entry = entries ++ [entry]) := by
  rw [Journal.withEntry]
  split
  next i hi =>
    obtain ⟨hlt, hop, -⟩ := List.findIdx?_eq_some_iff_getElem.1 hi
    refine .inl ⟨entries.take i, entries[i], entries.drop (i + 1), ?_, by simpa using hop,
      List.set_eq_take_append_cons_drop.trans (if_pos hlt)⟩
    rw [List.getElem_cons_drop, List.take_append_drop]
  next hi =>
    refine .inr ⟨fun e he => ?_, rfl⟩
    simpa using List.findIdx?_eq_none_iff.1 hi e he

namespace JournalEntry

/-- A running operation holds nothing. -/
theorem heldPhases_of_running {e : JournalEntry} (h : e.record.settled = none) :
    e.heldPhases = [] := by
  simp [heldPhases, h]

/-- When the proof of a receipt matches a config. -/
theorem proof_matches {e : JournalEntry} {f : Option CanonicalConfig} {candidate : CanonicalConfig}
    (h : e.candidate = some candidate) :
    e.proof.matches f ↔ f = if e.command = some .fullReset then none else some candidate := by
  by_cases hreset : e.command = some .fullReset
  · simp [proof, PendingPersist.matches, hreset]
  · simp [proof, PendingPersist.matches, hreset, h, eq_comm]

theorem persistConfirmed_iff {e : JournalEntry} :
    e.persistConfirmed ↔ ⟨.persist, .confirmed⟩ ∈ e.record.phases := by
  rw [persistConfirmed, List.any_eq_true]
  constructor
  · rintro ⟨⟨phase, outcome⟩, hp, hp'⟩
    simp only [Bool.and_eq_true, decide_eq_true_eq] at hp'
    obtain ⟨rfl, rfl⟩ := hp'
    exact hp
  · exact fun hp => ⟨_, hp, rfl⟩

end JournalEntry

namespace Journal

variable {j j' : Journal} {entry e : JournalEntry} {f : Option CanonicalConfig} {op : OperationId}

/-- A receipt after an insertion was there, or is the new one. -/
theorem mem_insert : e ∈ (j.insert entry).operations → e = entry ∨ e ∈ j.operations := by
  intro he
  obtain ⟨before, old, after, hops, -, heq⟩ | ⟨-, heq⟩ := withEntry_eq j.operations entry
  · rw [Journal.insert, heq] at he
    rw [hops]
    simp only [List.mem_append, List.mem_cons] at he ⊢
    tauto
  · rw [Journal.insert, heq] at he
    simp only [List.mem_append, List.mem_singleton] at he
    tauto

theorem entry_mem_insert (j : Journal) (entry : JournalEntry) :
    entry ∈ (j.insert entry).operations := by
  obtain ⟨before, old, after, -, -, heq⟩ | ⟨-, heq⟩ := withEntry_eq j.operations entry
  · rw [Journal.insert, heq]
    simp
  · rw [Journal.insert, heq]
    simp

/-- Only the receipt with the same id goes. -/
theorem mem_insert_of_ne (he : e ∈ j.operations) (hop : e.record.op ≠ entry.record.op) :
    e ∈ (j.insert entry).operations := by
  obtain ⟨before, old, after, hops, hold, heq⟩ | ⟨-, heq⟩ := withEntry_eq j.operations entry
  · rw [Journal.insert, heq]
    rw [hops] at he
    simp only [List.mem_append, List.mem_cons] at he ⊢
    obtain he | rfl | he := he
    · exact .inl he
    · exact absurd hold hop
    · exact .inr (.inr he)
  · rw [Journal.insert, heq]
    exact List.mem_append_left _ he

/-- Each operation keeps one receipt. -/
theorem nodup_insert (h : (j.operations.map (·.record.op)).Nodup) :
    ((j.insert entry).operations.map (·.record.op)).Nodup := by
  obtain ⟨before, old, after, hops, hold, heq⟩ | ⟨hnew, heq⟩ := withEntry_eq j.operations entry
  · rw [Journal.insert, heq]
    rw [hops] at h
    simpa only [List.map_append, List.map_cons, hold] using h
  · rw [Journal.insert, heq, List.map_append, List.map_singleton]
    refine List.nodup_append.2 ⟨h, by simp, ?_⟩
    intro op hop op' hop' heq'
    obtain ⟨e, he, rfl⟩ := List.mem_map.1 hop
    exact hnew e he (heq'.trans (List.mem_singleton.1 hop'))

/-- A new receipt is the last one. -/
theorem insert_new (hnew : ∀ e ∈ j.operations, e.record.op ≠ entry.record.op) :
    (j.insert entry).operations = j.operations ++ [entry] := by
  obtain ⟨before, old, after, hops, hop, -⟩ | ⟨-, heq⟩ := withEntry_eq j.operations entry
  · exact absurd hop (hnew old (by simp [hops]))
  · exact heq

/-- The last receipt is replaced in its slot. -/
theorem insert_last {entries : List JournalEntry} (hnodup : (j.operations.map (·.record.op)).Nodup)
    (hops : j.operations = entries ++ [e]) (hop : e.record.op = entry.record.op) :
    (j.insert entry).operations = entries ++ [entry] := by
  rw [hops, List.map_append, List.nodup_append] at hnodup
  obtain ⟨before, old, after, hops', hold, heq⟩ | ⟨hnew, -⟩ := withEntry_eq j.operations entry
  · rw [Journal.insert, heq]
    rw [hops] at hops'
    obtain rfl | ⟨d, after, rfl⟩ := List.eq_nil_or_concat after
    · rw [(List.append_inj' hops' rfl).1]
    · -- the slot would be before the last one, with the same id
      rw [List.concat_eq_append, ← List.cons_append, ← List.append_assoc] at hops'
      obtain ⟨hentries, -⟩ := List.append_inj' hops' rfl
      refine absurd (hold.trans hop.symm) (hnodup.2.2 old.record.op ?_ e.record.op (by simp))
      rw [hentries]
      simp
  · exact absurd hop (hnew e (by simp [hops]))

/-- An insertion forgets no id. -/
theorem Known.insert (h : op = entry.record.op ∨ j.Known op) : (j.insert entry).Known op := by
  obtain h | h | h := h
  · exact .inl (get_ne_none.2 (mem_withEntry_op.2 (.inl h)))
  · exact .inl (get_ne_none.2 (mem_withEntry_op.2 (.inr (get_ne_none.1 h))))
  · exact .inr h

/-- A receipt that does not hold the config, in the place of one that does not. -/
theorem persistHolders_insert (hentry : ConfigPhase.persist ∉ entry.heldPhases)
    (hold : ∀ e ∈ j.operations, e.record.op = entry.record.op →
      ConfigPhase.persist ∉ e.heldPhases) :
    (j.insert entry).persistHolders = j.persistHolders := by
  obtain ⟨before, old, after, hops, hop, heq⟩ | ⟨-, heq⟩ := withEntry_eq j.operations entry
  · have hmem : old ∈ j.operations := by simp [hops]
    rw [persistHolders, persistHolders, Journal.insert, heq, hops]
    simp [hentry, hold old hmem hop]
  · rw [persistHolders, persistHolders, Journal.insert, heq]
    simp [hentry]

/-! ## The receipt of an operation -/

/-- The receipt of an operation is found. -/
theorem get_eq_some (h : (j.operations.map (·.record.op)).Nodup) (he : e ∈ j.operations) :
    j.get e.record.op = some e := by
  rw [get]
  generalize j.operations = entries at h he
  induction entries with
  | nil => cases he
  | cons d entries ih =>
    rw [List.map_cons, List.nodup_cons] at h
    obtain rfl | he := List.mem_cons.1 he
    · simp
    · have hne : d.record.op ≠ e.record.op := fun heq => h.1 (heq ▸ List.mem_map.2 ⟨e, he, rfl⟩)
      rw [List.find?_cons_of_neg (by simpa using hne)]
      exact ih h.2 he

theorem mem_of_get (h : j.get op = some e) : e ∈ j.operations ∧ e.record.op = op :=
  ⟨List.mem_of_find?_eq_some h, by simpa using List.find?_some h⟩

/-! ## Retention -/

/-- Expiry adds no receipt. -/
theorem mem_of_mem_prune (he : e ∈ j.prune.operations) : e ∈ j.operations := by
  obtain ⟨dropped, -, hsub, -⟩ := j.prune_eq
  exact hsub.subset he

/-- A receipt that is not settled stays. -/
theorem mem_prune_of_running (he : e ∈ j.operations) (hrun : e.record.settled = none) :
    e ∈ j.prune.operations := by
  obtain ⟨dropped, hperm, -, hdrop⟩ := j.prune_split
  obtain h | h := List.mem_append.1 (hperm.mem_iff.1 he)
  · exact absurd (.inl hrun) (hdrop e h).1
  · exact h

/-- A receipt that stays in the journal stays the last one. -/
theorem prune_last {entries : List JournalEntry} (hnodup : (j.operations.map (·.record.op)).Nodup)
    (hops : j.operations = entries ++ [e]) (he : e ∈ j.prune.operations) :
    ∃ kept, j.prune.operations = kept ++ [e] := by
  obtain ⟨dropped, -, hsub, -⟩ := j.prune_eq
  rw [hops] at hsub
  obtain ⟨kept, last, heq, hkept, hlast⟩ := List.sublist_append_iff.1 hsub
  rw [hops, List.map_append, List.nodup_append] at hnodup
  obtain rfl | rfl := List.sublist_singleton.1 hlast
  · rw [heq, List.append_nil] at he
    refine absurd rfl
      (hnodup.2.2 e.record.op (List.mem_map.2 ⟨e, hkept.subset he, rfl⟩) e.record.op ?_)
    simp
  · exact ⟨kept, heq⟩

/-- Each operation keeps one receipt. -/
theorem nodup_prune (h : (j.operations.map (·.record.op)).Nodup) :
    (j.prune.operations.map (·.record.op)).Nodup := by
  obtain ⟨dropped, -, hsub, -⟩ := j.prune_eq
  exact h.sublist (hsub.map _)

/-- What expiring receipts leaves alone. -/
structure Keeps (j j' : Journal) : Prop where
  zygiskProjection : j'.zygiskProjection = j.zygiskProjection
  configRevision : j'.configRevision = j.configRevision
  retainSettled : j'.retainSettled = j.retainSettled
  debugLeases : j'.debugLeases = j.debugLeases
  debugRestore : j'.debugRestore = j.debugRestore
  debugRestoreOp : j'.debugRestoreOp = j.debugRestoreOp

theorem Keeps.refl (j : Journal) : j.Keeps j := ⟨rfl, rfl, rfl, rfl, rfl, rfl⟩

theorem Keeps.trans {j'' : Journal} (h : j.Keeps j') (h' : j'.Keeps j'') : j.Keeps j'' :=
  ⟨h'.1.trans h.1, h'.2.trans h.2, h'.3.trans h.3, h'.4.trans h.4, h'.5.trans h.5, h'.6.trans h.6⟩

/-- What the expiry of receipts leaves alone. -/
theorem keeps_foldl_expire (j : Journal) (dropped : List JournalEntry) :
    j.Keeps (dropped.foldl expire j) := by
  induction dropped generalizing j with
  | nil => exact .refl j
  | cons e dropped ih =>
    have hexpire : j.Keeps (j.expire e) := ⟨rfl, rfl, rfl, rfl, rfl, rfl⟩
    exact hexpire.trans (ih (j.expire e))

/-- What pruning leaves alone. -/
theorem keeps_prune (j : Journal) : j.Keeps j.prune := by
  obtain ⟨dropped, -, -, -, heq⟩ := j.prune_eq
  have h := keeps_foldl_expire j dropped
  rw [heq]
  exact ⟨h.1, h.2, h.3, h.4, h.5, h.6⟩

theorem zygiskRevocation_prune (j : Journal) : j.prune.zygiskRevocation = j.zygiskRevocation := by
  obtain ⟨dropped, -, -, -, heq⟩ := j.prune_eq
  have hfold : ∀ j : Journal, (dropped.foldl expire j).zygiskRevocation = j.zygiskRevocation := by
    clear heq
    induction dropped with
    | nil => exact fun _ => rfl
    | cons e dropped ih => exact fun j => ih (j.expire e)
  rw [heq]
  exact hfold j

/-- The config is held by a receipt, or by one that has expired. -/
theorem persistHeld_iff : j.persistHeld ↔
    ConfigPhase.persist ∈ j.expiredHolds ∨
      ConfigPhase.persist ∈ j.operations.flatMap (·.heldPhases) := by
  simp [persistHeld, persistHolders, List.mem_flatMap]

/-- A proof that is pending came from a receipt, and its hold is on record. -/
structure PendingSound (j : Journal) : Prop where
  admitted : ∀ p, j.pendingPersist = some p → p.admission ≠ none
  held : j.pendingPersist ≠ none → ConfigPhase.persist ∈ j.expiredHolds

/-- Expiry keeps the pending proof sound. -/
theorem PendingSound.expire (h : j.PendingSound) (he : e.admission ≠ none) :
    (j.expire e).PendingSound := by
  by_cases hheld : ConfigPhase.persist ∈ e.heldPhases
  · refine ⟨fun p hp => ?_, fun _ => (mem_expiredHolds_expire j e _).2 (.inr hheld)⟩
    simp only [Journal.expire, hheld, if_true, Option.some.injEq] at hp
    rw [← hp]
    exact he
  · have hpending : (j.expire e).pendingPersist = j.pendingPersist := by
      simp [Journal.expire, hheld]
    refine ⟨fun p hp => h.admitted p (hpending ▸ hp), fun hp => ?_⟩
    rw [hpending] at hp
    exact (mem_expiredHolds_expire j e _).2 (.inl (h.held hp))

/-- Pruning keeps it sound. -/
theorem PendingSound.prune (h : j.PendingSound)
    (hadmitted : ∀ e ∈ j.operations, e.admission ≠ none) :
    j.prune.PendingSound := by
  obtain ⟨dropped, hperm, -, -, heq⟩ := j.prune_eq
  have hdropped : ∀ e ∈ dropped, e.admission ≠ none := fun e he =>
    hadmitted e (hperm.mem_iff.2 (List.mem_append_left _ he))
  have hfold : (dropped.foldl Journal.expire j).PendingSound := by
    clear heq hperm hadmitted
    induction dropped generalizing j with
    | nil => exact h
    | cons e dropped ih =>
      rw [List.forall_mem_cons] at hdropped
      exact ih (h.expire hdropped.1) hdropped.2
  rw [heq]
  exact ⟨hfold.admitted, hfold.held⟩

/-! ## Native transitions -/

end Journal

/-- Two states of a receipt that agree on everything but what supersedes it. -/
structure EntryLike (e e' : JournalEntry) : Prop where
  record : e'.record = e.record
  admission : e'.admission = e.admission
  command : e'.command = e.command
  candidate : e'.candidate = e.candidate
  /-- A receipt that is not settled holds nothing that could be superseded. -/
  running : e.record.settled = none → e' = e
  persist : ConfigPhase.persist ∈ e'.heldPhases ↔ ConfigPhase.persist ∈ e.heldPhases

theorem EntryLike.refl (e : JournalEntry) : EntryLike e e :=
  ⟨rfl, rfl, rfl, rfl, fun _ => rfl, Iff.rfl⟩

theorem EntryLike.trans {e e' e'' : JournalEntry} (h : EntryLike e e') (h' : EntryLike e' e'') :
    EntryLike e e'' where
  record := h'.record.trans h.record
  admission := h'.admission.trans h.admission
  command := h'.command.trans h.command
  candidate := h'.candidate.trans h.candidate
  running hrun := (h'.running (h.record ▸ hrun)).trans (h.running hrun)
  persist := h'.persist.trans h.persist

theorem EntryLike.proof {e e' : JournalEntry} (h : EntryLike e e') : e'.proof = e.proof := by
  rw [JournalEntry.proof, JournalEntry.proof, h.admission, h.candidate, h.command]

namespace Journal

variable {j j' : Journal} {e : JournalEntry} {f : Option CanonicalConfig}

/-- Two journals that agree on everything but the native lifecycle. -/
structure Alike (j j' : Journal) : Prop where
  operations : ∃ g, (∀ e, EntryLike e (g e)) ∧ j'.operations = j.operations.map g
  keeps : j.Keeps j'
  expiredThrough : j'.expiredThrough = j.expiredThrough
  retiredIds : j'.retiredIds = j.retiredIds
  expiredHolds : j'.expiredHolds = j.expiredHolds
  pendingPersist : j'.pendingPersist = j.pendingPersist

theorem Alike.trans {j'' : Journal} (h : j.Alike j') (h' : j'.Alike j'') : j.Alike j'' := by
  obtain ⟨g, hg, hops⟩ := h.operations
  obtain ⟨g', hg', hops'⟩ := h'.operations
  refine ⟨⟨g' ∘ g, fun e => (hg e).trans (hg' (g e)), ?_⟩, h.keeps.trans h'.keeps, ?_, ?_, ?_, ?_⟩
  · rw [hops', hops, List.map_map]
  · exact h'.expiredThrough.trans h.expiredThrough
  · exact h'.retiredIds.trans h.retiredIds
  · exact h'.expiredHolds.trans h.expiredHolds
  · exact h'.pendingPersist.trans h.pendingPersist

/-- The same receipts. -/
theorem alike_of_eq (hops : j'.operations = j.operations) (hkeeps : j.Keeps j')
    (hthrough : j'.expiredThrough = j.expiredThrough) (hretired : j'.retiredIds = j.retiredIds)
    (hholds : j'.expiredHolds = j.expiredHolds) (hpending : j'.pendingPersist = j.pendingPersist) :
    j.Alike j' :=
  ⟨⟨id, EntryLike.refl, hops.trans (List.map_id _).symm⟩, hkeeps, hthrough,
    hretired, hholds, hpending⟩

theorem Alike.refl (j : Journal) : j.Alike j := alike_of_eq rfl (.refl j) rfl rfl rfl rfl

/-- The same operations have receipts. -/
theorem Alike.ids (h : j.Alike j') :
    j'.operations.map (·.record.op) = j.operations.map (·.record.op) := by
  obtain ⟨g, hg, hops⟩ := h.operations
  rw [hops, List.map_map]
  exact List.map_congr_left fun e _ => congrArg (·.op) (hg e).record

/-- Each receipt has its counterpart. -/
theorem Alike.mem (h : j.Alike j') {e' : JournalEntry} (he : e' ∈ j'.operations) :
    ∃ e ∈ j.operations, EntryLike e e' := by
  obtain ⟨g, hg, hops⟩ := h.operations
  rw [hops] at he
  obtain ⟨e, hmem, rfl⟩ := List.mem_map.1 he
  exact ⟨e, hmem, hg e⟩

/-- A running receipt stays as it is. -/
theorem Alike.mem_of_running (h : j.Alike j') (he : e ∈ j.operations)
    (hrun : e.record.settled = none) :
    e ∈ j'.operations := by
  obtain ⟨g, hg, hops⟩ := h.operations
  rw [hops]
  exact List.mem_map.2 ⟨e, he, (hg e).running hrun⟩

/-- The same proofs are on record. -/
theorem Alike.proofs (h : j.Alike j') : j'.proofs = j.proofs := by
  obtain ⟨g, hg, hops⟩ := h.operations
  have hholders : j'.persistHolders = j.persistHolders.map g := by
    rw [persistHolders, persistHolders, hops, List.filter_map]
    refine congrArg (List.map g) (List.filter_congr fun e _ => ?_)
    exact decide_eq_decide.2 (hg e).persist
  rw [Journal.proofs, Journal.proofs, hholders, h.pendingPersist, ← List.map_reverse, List.map_map]
  congr 1
  exact List.map_congr_left fun e _ => (hg e).proof

/-- The same proof is found. -/
theorem Alike.readback (h : j.Alike j') : j'.readback f = j.readback f := by
  rw [Journal.readback, Journal.readback, h.proofs]

/-- The pending proof stays sound. -/
theorem Alike.pendingSound (h : j.Alike j') (hsound : j.PendingSound) : j'.PendingSound := by
  refine ⟨fun p hp => hsound.admitted p (h.pendingPersist ▸ hp), fun hp => ?_⟩
  rw [h.expiredHolds]
  exact hsound.held (h.pendingPersist ▸ hp)

/-- A repair that only finishes a revocation does not hold the config. -/
theorem not_held_of_isRevocationOnlyRepair (h : e.isRevocationOnlyRepair) :
    ConfigPhase.persist ∉ e.heldPhases := by
  simp only [JournalEntry.isRevocationOnlyRepair, Bool.and_eq_true] at h
  obtain ⟨⟨-, hphases⟩, -⟩ := h
  rw [JournalEntry.heldPhases]
  split_ifs with hheld
  · exact List.not_mem_nil
  · split at hphases
    next p hp =>
      have hp' : p.phase = .native := by simpa using hphases
      intro hmem
      have hmem' := (List.mem_filter.1 hmem).1
      rw [hp] at hmem'
      split_ifs at hmem' with hpending
      · simp [hp'] at hmem'
      · obtain ⟨q, hq, hq'⟩ := List.mem_map.1 hmem'
        have hq2 := (List.mem_filter.1 hq).1
        rw [List.mem_singleton] at hq2
        rw [hq2, hp'] at hq'
        cases hq'
    next => cases hphases

/-- A transfer of the revocation leaves the receipts alike. -/
theorem alike_transferRevocation (j : Journal) (op : OperationId) (sameGrant : Bool) :
    j.Alike (j.transferRevocation op sameGrant) := by
  rw [transferRevocation]
  split
  next => exact .refl j
  next previous =>
    split_ifs
    · refine ⟨⟨_, fun e => ?_, rfl⟩, ⟨rfl, rfl, rfl, rfl, rfl, rfl⟩, rfl, rfl, rfl, rfl⟩
      split_ifs with he
      · simp only [Bool.and_eq_true, decide_eq_true_eq] at he
        obtain ⟨⟨-, hrepair⟩, hnative⟩ := he
        refine ⟨rfl, rfl, rfl, rfl, fun hrun => ?_, ?_⟩
        · rw [JournalEntry.heldPhases_of_running hrun] at hnative
          cases hnative
        · refine iff_of_false ?_ (not_held_of_isRevocationOnlyRepair hrepair)
          simp [JournalEntry.heldPhases]
      · exact .refl e
    · exact .refl j

end Journal

/-! ## Sound journals -/

/-- A receipt that is settled: nothing of it runs, and a phase is uncertain only when it is
    settled so. -/
structure JournalEntry.Whole (e : JournalEntry) : Prop where
  nodup : (e.record.phases.map (·.phase)).Nodup
  settled : e.record.settled ≠ none
  running : ∀ p ∈ e.record.phases, p.outcome ≠ .running
  unknown : e.record.settled ≠ some .unknown → ∀ p ∈ e.record.phases, p.outcome ≠ .unknown
  /-- A restart settles it as uncertain, but not for the config. -/
  persist : e.record.settled = some .confirmed ∨ e.record.settled = some .failedKnown ∨
    e.record.settled = some .unknown ∨ ⟨.persist, .notAttempted⟩ ∉ e.record.phases

namespace Journal

variable {j j' : Journal} {entry e : JournalEntry} {flying flying' : OperationId → Prop} {r r' : ℕ}

/-- All receipts but those of operations in flight are settled, and what they wrote is not newer
    than the revision of the config. -/
structure Sound (flying : OperationId → Prop) (r : ℕ) (j : Journal) : Prop where
  nodup : (j.operations.map (·.record.op)).Nodup
  whole : ∀ e ∈ j.operations, ¬ flying e.record.op → e.Whole
  admitted : ∀ e ∈ j.operations, e.admission ≠ none
  confirmed : ∀ e ∈ j.operations, ¬ flying e.record.op → e.persistConfirmed →
    ∀ a, e.admission = some a → a.commitRevision ≤ r
  pending : j.PendingSound
  retain : 0 < j.retainSettled
  projection : j.zygiskProjection = none

/-- A journal that is sound up to a revision is so up to a higher one. -/
theorem Sound.mono (h : j.Sound flying r) (hr : r ≤ r') : j.Sound flying r' :=
  ⟨h.nodup, h.whole, h.admitted,
    fun e he hop hconf a ha => (h.confirmed e he hop hconf a ha).trans hr, h.pending,
    h.retain, h.projection⟩

/-- Pruning keeps a journal sound. -/
theorem Sound.prune (h : j.Sound flying r) : j.prune.Sound flying r where
  nodup := nodup_prune h.nodup
  whole e he := h.whole e (mem_of_mem_prune he)
  admitted e he := h.admitted e (mem_of_mem_prune he)
  confirmed e he := h.confirmed e (mem_of_mem_prune he)
  pending := h.pending.prune h.admitted
  retain := j.keeps_prune.retainSettled ▸ h.retain
  projection := j.keeps_prune.zygiskProjection.trans h.projection

/-- Journals that are alike are equally sound. -/
theorem Sound.alike (h : j.Sound flying r) (halike : j.Alike j') : j'.Sound flying r := by
  refine ⟨halike.ids ▸ h.nodup, fun e' he' hop => ?_, fun e' he' => ?_, fun e' he' hop hconf => ?_,
    halike.pendingSound h.pending, halike.keeps.retainSettled ▸ h.retain,
    halike.keeps.zygiskProjection.trans h.projection⟩
  all_goals obtain ⟨e, he, hlike⟩ := halike.mem he'
  · rw [hlike.record] at hop
    obtain ⟨hnodup, hsettled, hrunning, hunknown, hpersist⟩ := h.whole e he hop
    rw [← hlike.record] at hnodup hsettled hrunning hunknown hpersist
    exact ⟨hnodup, hsettled, hrunning, hunknown, hpersist⟩
  · rw [hlike.admission]
    exact h.admitted e he
  · rw [hlike.record] at hop
    rw [JournalEntry.persistConfirmed, hlike.record] at hconf
    rw [hlike.admission]
    exact h.confirmed e he hop hconf

/-- Recording a receipt, which may settle its operation. -/
theorem Sound.insert (h : j.Sound flying r) (hr : r ≤ r')
    (hflying : ∀ op, op ≠ entry.record.op → flying op → flying' op)
    (hadmitted : entry.admission ≠ none)
    (hentry : ¬ flying' entry.record.op → entry.Whole ∧
      (entry.persistConfirmed → ∀ a, entry.admission = some a → a.commitRevision ≤ r')) :
    (j.insert entry).Sound flying' r' := by
  have hnodup : ((j.insert entry).operations.map (·.record.op)).Nodup := nodup_insert h.nodup
  have hmem : ∀ e ∈ (j.insert entry).operations, e = entry ∨
      (e ∈ j.operations ∧ e.record.op ≠ entry.record.op) := by
    intro e he
    by_cases hop : e.record.op = entry.record.op
    · have hget := get_eq_some hnodup (j.entry_mem_insert entry)
      rw [← hop, get_eq_some hnodup he, Option.some.injEq] at hget
      exact .inl hget
    · exact (mem_insert he).imp_right fun he => ⟨he, hop⟩
  refine ⟨hnodup, fun e he hop => ?_, fun e he => ?_, fun e he hop hconf a ha => ?_,
    ⟨h.pending.admitted, h.pending.held⟩, h.retain, h.projection⟩
  all_goals obtain rfl | ⟨he, hne⟩ := hmem e he
  · exact (hentry hop).1
  · exact h.whole e he fun hfly => hop (hflying _ hne hfly)
  · exact hadmitted
  · exact h.admitted e he
  · exact (hentry hop).2 hconf a ha
  · exact (h.confirmed e he (fun hfly => hop (hflying _ hne hfly)) hconf a ha).trans hr

end Journal

end VpnHide.Daemon

import VpnHide.Config.Conflict
import VpnHide.Daemon.Journal

/-!
# Commits and stale edits

The store of Core has the config with its revision, and what was written when, once for
itself and once in the journal. Committing an edit notes what it writes; pruning the journal
forgets what was written up to `conflictFloor`, and edits based on less than that are refused
(`conflictGate`, in `execute_edit_opts`).

Over any run, both maps agree above the floor with the history of all commits (`Tracks`), so
that no update is lost (`no_lost_update`).
-/

namespace VpnHide.Daemon

open Lib Config

/-- The store of Core: the config with its revision, the journal, and what committed what. -/
structure ConfigStore where
  config : Option CanonicalConfig
  configRevision : ℕ
  journal : Journal
  /-- The last revision that committed each path. -/
  fieldRevisions : StrMap ℕ

/-- Repairs activate the config again, and write nothing of it. -/
def isRepair : ConfigEdit → Bool
  | .repairActivation => true
  | _ => false

namespace ConfigStore

/-- The check for conflicts. Repairs, leases and resets do not need the history. -/
def conflictGate (s : ConfigStore) (base : ℕ) (edit : ConfigEdit) (lease reset : Bool) :
    Option SubmitError :=
  if base < s.journal.conflictFloor && !isRepair edit && !lease && !reset then
    some (.conflict "config history expired".toList)
  else (conflictField base s.configRevision edit s.fieldRevisions).map .conflict

/-- Taking over an edit whose write is confirmed. -/
def commit (s : ConfigStore) (config : Option CanonicalConfig) (edit : ConfigEdit) (revision : ℕ) :
    ConfigStore :=
  let fieldRevisions := noteWrites s.fieldRevisions (writeSet edit) revision
  { config, configRevision := revision, fieldRevisions,
    journal := { s.journal with fieldRevisions } }

/-! ## Runs -/

/-- Steps of the journal, whatever else happens to its receipts. -/
inductive JournalStep : Journal → Journal → Prop
  | upsert (j : Journal) (entry : JournalEntry) : JournalStep j (j.upsert entry)
  | prune (j : Journal) : JournalStep j j.prune
  | migrate (j : Journal) : JournalStep j j.migrate
  | adjust (j j' : Journal) (hrevision : j'.configRevision = j.configRevision)
      (hfloor : j'.conflictFloor = j.conflictFloor)
      (hfields : j'.fieldRevisions = j.fieldRevisions) :
      JournalStep j j'

/-- A store without commits. -/
structure Fresh (s : ConfigStore) : Prop where
  floor : s.journal.conflictFloor ≤ s.journal.configRevision
  revision : s.journal.configRevision ≤ s.configRevision
  fields : s.fieldRevisions = ∅
  journal : s.journal.fieldRevisions = ∅

/-- A run of the store with the edits it committed, newest first. Revisions increase; the
    journal takes a step at any time, also between a commit and its settlement. -/
inductive Run : ConfigStore → List (ℕ × ConfigEdit) → Prop
  | start {s : ConfigStore} (h : s.Fresh) : Run s []
  | commit {s : ConfigStore} {log : List (ℕ × ConfigEdit)} (hrun : Run s log)
      (config : Option CanonicalConfig)
      (edit : ConfigEdit) (revision : ℕ) (h : s.configRevision < revision) :
      Run (s.commit config edit revision) ((revision, edit) :: log)
  | settle {s : ConfigStore} {log : List (ℕ × ConfigEdit)} (hrun : Run s log) :
      Run { s with journal := { s.journal with configRevision := s.configRevision } } log
  | journal {s : ConfigStore} {log : List (ℕ × ConfigEdit)} (hrun : Run s log) {j : Journal}
      (h : JournalStep s.journal j) : Run { s with journal := j } log
  | sync {s : ConfigStore} {log : List (ℕ × ConfigEdit)} (hrun : Run s log) :
      Run { s with fieldRevisions := s.journal.fieldRevisions } log

/-- The history of a log, without any pruning. -/
def historyOf (log : List (ℕ × ConfigEdit)) : StrMap ℕ :=
  history (log.map fun c => (c.1, writeSet c.2))

/-! ## What the maps keep -/

end ConfigStore

namespace Journal

/-- The floor advances up to the revision at most, and nothing above it is forgotten. -/
structure Truncates (j j' : Journal) : Prop where
  revision : j'.configRevision = j.configRevision
  le_floor : j.conflictFloor ≤ j'.conflictFloor
  floor_le : j'.conflictFloor ≤ max j.conflictFloor j.configRevision
  fields : AgreeAbove j'.conflictFloor j'.fieldRevisions j.fieldRevisions

/-- Expiry drops revisions, and raises the floor over them. -/
theorem truncates_prune (j : Journal) : j.Truncates j.prune := by
  obtain ⟨dropped, -, -, -, heq⟩ := j.prune_eq
  obtain ⟨-, -, -, -, -, hrevision, -⟩ := foldl_expire_frame j dropped
  obtain ⟨hle, hub⟩ := conflictFloor_foldl j dropped
  refine ⟨?_, ?_, ?_, ?_⟩
  · rw [heq]
    exact hrevision
  · rw [heq]
    exact hle
  · rw [heq]
    exact hub
  · rw [prune]
    split_ifs
    · exact fun _ _ _ => Iff.rfl
    · dsimp only
      obtain ⟨dropped, -, -, -, hdrop⟩ :=
        j.dropFirst_eq ((j.operations.filter j.droppable).length - j.retainSettled) j.operations
      rw [hdrop]
      obtain ⟨-, -, -, -, -, -, hfields⟩ := foldl_expire_frame j dropped
      rw [hfields]
      exact agreeAbove_filter _ _

/-- So does taking in a receipt. -/
theorem truncates_upsert (j : Journal) (entry : JournalEntry) : j.Truncates (j.upsert entry) :=
  let h := truncates_prune { j with
    issuedThrough := max j.issuedThrough entry.record.op
    operations := withEntry j.operations entry }
  ⟨h.revision, h.le_floor, h.floor_le, h.fields⟩

/-- A floor that is sound already is not lowered by the migration. -/
theorem truncates_migrate {j : Journal} (hfloor : j.conflictFloor ≤ j.configRevision) :
    j.Truncates j.migrate := by
  have h := truncates_prune { j with
    conflictFloor := min j.conflictFloor j.configRevision
    retainSettled := min j.retainSettled defaultRetainSettled
    expiredThrough := max ((j.retiredIds.max?).getD 0) j.expiredThrough
    issuedThrough := max (max (((j.operations.map (·.record.op)).max?).getD 0) j.issuedThrough)
      (max ((j.retiredIds.max?).getD 0) j.expiredThrough)
    retiredIds := [] }
  have hmin : min j.conflictFloor j.configRevision = j.conflictFloor := min_eq_left hfloor
  exact ⟨h.revision, hmin ▸ h.le_floor, hmin ▸ h.floor_le, h.fields⟩

end Journal

namespace ConfigStore

/-- So does every step of a journal. -/
theorem JournalStep.truncates {j j' : Journal} (h : JournalStep j j')
    (hfloor : j.conflictFloor ≤ j.configRevision) :
    j.Truncates j' := by
  cases h with
  | upsert entry => exact j.truncates_upsert entry
  | prune => exact j.truncates_prune
  | migrate => exact Journal.truncates_migrate hfloor
  | adjust _ hrevision hfloor' hfields =>
    refine ⟨hrevision, hfloor'.ge, hfloor'.le.trans (le_max_left _ _), ?_⟩
    rw [hfields]
    exact fun _ _ _ => Iff.rfl

/-- What ties the store to its log. -/
structure Tracks (s : ConfigStore) (log : List (ℕ × ConfigEdit)) : Prop where
  floor : s.journal.conflictFloor ≤ s.journal.configRevision
  revision : s.journal.configRevision ≤ s.configRevision
  /-- Nothing is written after what is current. -/
  bound : ∀ (k : Str) (r : ℕ), (historyOf log)[k]? = some r → r ≤ s.configRevision
  fields : AgreeAbove s.journal.conflictFloor s.fieldRevisions (historyOf log)
  journal : AgreeAbove s.journal.conflictFloor s.journal.fieldRevisions (historyOf log)

/-- The log and the revisions agree after a commit. -/
theorem Tracks.commit {s : ConfigStore} {log : List (ℕ × ConfigEdit)} (h : s.Tracks log)
    (config : Option CanonicalConfig) (edit : ConfigEdit) {revision : ℕ}
    (hrev : s.configRevision < revision) :
    (s.commit config edit revision).Tracks ((revision, edit) :: log) := by
  have hfloor : s.journal.conflictFloor ≤ s.configRevision := h.floor.trans h.revision
  have hfields := h.fields.noteWrites hfloor h.bound hrev (writeSet edit)
  refine ⟨h.floor, h.revision.trans hrev.le, fun k r hr => ?_, hfields, hfields⟩
  change (noteWrites (historyOf log) (writeSet edit) revision)[k]? = some r at hr
  by_cases hk : k ∈ writeSet edit
  · rw [getElem?_noteWrites_of_mem hk, Option.some.injEq] at hr
    rw [← hr]
    refine max_le ?_ le_rfl
    cases hget : (historyOf log)[k]? with
    | none => exact Nat.zero_le _
    | some last => exact (h.bound k last hget).trans hrev.le
  · rw [getElem?_noteWrites_of_not_mem hk] at hr
    exact (h.bound k r hr).trans hrev.le

/-- They agree along every run. -/
theorem Run.tracks {s : ConfigStore} {log : List (ℕ × ConfigEdit)} (hrun : Run s log) :
    s.Tracks log := by
  induction hrun with
  | start h =>
    refine ⟨h.floor, h.revision, fun k r hr => ?_, ?_, ?_⟩
    · simp [historyOf, history] at hr
    · rw [h.fields]
      exact fun _ _ _ => Iff.rfl
    · rw [h.journal]
      exact fun _ _ _ => Iff.rfl
  | commit _ config edit revision hrev ih => exact ih.commit config edit hrev
  | settle _ ih => exact ⟨ih.floor.trans ih.revision, le_rfl, ih.bound, ih.fields, ih.journal⟩
  | journal _ hstep ih =>
    obtain ⟨hrevision, hle, hub, hfields⟩ := hstep.truncates ih.floor
    refine ⟨?_, hrevision.trans_le ih.revision, ih.bound, ih.fields.mono hle,
      hfields.trans (ih.journal.mono hle)⟩
    change _ ≤ _ at hub
    rw [hrevision]
    exact hub.trans (max_le ih.floor le_rfl)
  | sync _ ih => exact ⟨ih.floor, ih.revision, ih.bound, ih.journal, ih.journal⟩

/-- An edit that passes the gate conflicts with nothing. -/
theorem conflictGate_eq_none {s : ConfigStore} {base : ℕ} {edit : ConfigEdit}
    (h : s.conflictGate base edit false false = none) :
    (edit = .repairActivation ∨ s.journal.conflictFloor ≤ base) ∧
      conflictField base s.configRevision edit s.fieldRevisions = none := by
  rw [conflictGate] at h
  split_ifs at h with hfloor
  refine ⟨?_, Option.map_eq_none_iff.1 h⟩
  cases hrepair : isRepair edit with
  | true =>
    cases edit with
    | repairActivation => exact .inl rfl
    | _ => cases hrepair
  | false =>
    refine .inr (Nat.le_of_not_lt fun hlt => hfloor ?_)
    simp [hlt, hrepair]

/-- No update is lost: when an ordinary edit passes the check for conflicts, nothing that was
    committed since its base wrote a path that overlaps what it writes. And down to the floor the
    check gives the same verdict as on the history without pruning. -/
theorem no_lost_update {s : ConfigStore} {log : List (ℕ × ConfigEdit)} (hrun : Run s log) (base : ℕ)
    (edit : ConfigEdit) :
    (s.conflictGate base edit false false = none →
      ∀ revision committed, (revision, committed) ∈ log → base < revision →
        revision ≤ s.configRevision → ∀ write ∈ writeSet edit, ∀ written ∈ writeSet committed,
          fieldsOverlap write written = false) ∧
    (s.journal.conflictFloor ≤ base →
      conflictField base s.configRevision edit s.fieldRevisions =
        conflictField base s.configRevision edit (historyOf log)) := by
  have htracks := hrun.tracks
  have hverdict (hfloor : s.journal.conflictFloor ≤ base) :
      conflictField base s.configRevision edit s.fieldRevisions =
        conflictField base s.configRevision edit (historyOf log) :=
    (htracks.fields.mono hfloor).conflictField_eq
  refine ⟨fun hgate revision committed hmem hbase hcurrent write hwrite written hwritten => ?_,
    hverdict⟩
  obtain ⟨hfloor, hnone⟩ := conflictGate_eq_none hgate
  obtain rfl | hfloor := hfloor
  · cases hwrite
  · rw [hverdict hfloor] at hnone
    obtain heq | ⟨-, hdisjoint⟩ := not_overlap_of_conflictField hnone
    · omega
    · -- the last writer of the path came no earlier than this commit
      have hlog : (revision, writeSet committed) ∈ log.map fun c => (c.1, writeSet c.2) :=
        List.mem_map.2 ⟨(revision, committed), hmem, rfl⟩
      obtain ⟨r, hr, hle⟩ := exists_getElem?_history hlog hwritten
      exact hdisjoint write hwrite written r hr (hbase.trans_le hle)

/-- The store of a first start. -/
def empty : ConfigStore := ⟨none, 0, Journal.empty, ∅⟩

/-- Two commits, the second of them to another path. -/
theorem no_lost_update_debug :
    let s := (empty.commit none (.toggle .debug true) 1).commit none (.removeApp "org.a".toList) 2
    let log := [(2, .removeApp "org.a".toList), (1, .toggle .debug true)]
    s.conflictGate 1 (.toggle .debug false) false false = none ∧
      (∀ revision committed, (revision, committed) ∈ log → 1 < revision →
        revision ≤ s.configRevision →
          ∀ write ∈ writeSet (.toggle .debug false), ∀ written ∈ writeSet committed,
            fieldsOverlap write written = false) ∧
      conflictField 0 s.configRevision (.toggle .debug false) s.fieldRevisions =
        conflictField 0 s.configRevision (.toggle .debug false) (historyOf log) := by
  have hfresh : empty.Fresh := ⟨le_rfl, le_rfl, rfl, rfl⟩
  have hrun := Run.commit (.commit (.start hfresh) none (.toggle .debug true) 1 (by decide)) none
    (.removeApp "org.a".toList) 2 (by decide)
  have hgate :
      ((empty.commit none (.toggle .debug true) 1).commit none (.removeApp "org.a".toList)
        2).conflictGate
      1 (.toggle .debug false) false false = none := by
    decide
  exact ⟨hgate, (no_lost_update hrun 1 _).1 hgate, (no_lost_update hrun 0 _).2 le_rfl⟩

end ConfigStore

end VpnHide.Daemon

import VpnHide.Daemon.Landing

/-!
# Core between jobs

What holds of the world when Core is up and nothing runs (`Idle`), and wherever Core may be
when it crashes (`Grounded`). A restart makes an idle world of a grounded one: no snapshot
that was published is contradicted, and every write of the config that reached the file is
below the revision it continues with, as long as retention has kept what is known of it.
-/

namespace VpnHide.Daemon

open Lib Config

variable {w w' : World} {t : Trip} {device : Device} {f config : Option CanonicalConfig}
  {r : ℕ} {j : Journal}

/-! ## Evidence of a write -/

theorem loadedRevision_mono {j j' : Journal} (h : j.configRevision ≤ j'.configRevision) :
    loadedRevision f j ≤ loadedRevision f j' := by
  cases f with
  | none => exact h
  | some config =>
    simp only [loadedRevision]
    split_ifs <;> omega

/-- What holds a phase is whole. -/
theorem JournalEntry.Whole.not_running {e : JournalEntry} (h : e.Whole ∨ e.Afloat) {p : ConfigPhase}
    (hheld : p ∈ e.heldPhases) : e.Whole := by
  obtain hwhole | hafloat := h
  · exact hwhole
  · rw [heldPhases_of_running hafloat.settled] at hheld
    cases hheld

/-- A readback finds a proof of a receipt that holds the config, or the one that is pending. -/
theorem Journal.readback_cases {p : PendingPersist} (h : j.readback f = some p) : p.matches f ∧
    ((∃ e ∈ j.operations, ConfigPhase.persist ∈ e.heldPhases ∧ e.proof = p) ∨
      j.pendingPersist = some p) := by
  have hfind : j.proofs.find? (fun q => q.matches f) = some p := h
  refine ⟨(List.find?_eq_some_iff_append.1 hfind).1, ?_⟩
  obtain hp | hp := List.mem_append.1 (List.mem_of_find?_eq_some h)
  · obtain ⟨e, he, rfl⟩ := List.mem_map.1 hp
    obtain ⟨hmem, hheld⟩ := List.mem_filter.1 (List.mem_reverse.1 he)
    exact .inl ⟨e, hmem, by simpa using hheld, rfl⟩
  · exact .inr (by simpa using hp)

/-- The journal that a restart continues with. -/
def World.reloadedJournal (device : Device) (w : World) : Journal :=
  recoverJournal device w.file w.disk.upgrade.prune

/-- The store that a restart continues with. -/
def World.reloadedStore (device : Device) (w : World) : ConfigStore where
  config := w.file
  configRevision := loadedRevision w.file (w.reloadedJournal device)
  journal := w.reloadedJournal device
  fieldRevisions := (w.reloadedJournal device).fieldRevisions

/-- What a restart publishes. -/
def World.reloaded (device : Device) (w : World) : ℕ × Option CanonicalConfig :=
  (w.reloadedStore device).snapshot

theorem World.snd_reloaded (w : World) (device : Device) : (w.reloaded device).2 = w.file := rfl

/-- A restart never goes back in revisions. -/
theorem configRevision_le_reloaded (h : w.disk.Stored) :
    w.disk.configRevision ≤ (w.reloadedJournal device).configRevision := by
  have hprune : w.disk.upgrade.prune.configRevision = w.disk.configRevision :=
    w.disk.upgrade.keeps_prune.configRevision
  exact hprune.ge.trans (Journal.configRevision_le_recover h.upgrade.prune)

/-- A write that a readback finds is observed. -/
theorem commit_le_of_readback (h : w.disk.Stored) (hattempted : w.disk.Attempted r)
    (hkeeps : w.disk.upgrade.KeepsProof w.file) {p : PendingPersist} {a : Admission}
    (hread : w.disk.readback w.file = some p) (ha : p.admission = some a)
    (hlt : r < a.commitRevision) :
    a.commitRevision ≤ (w.reloadedJournal device).configRevision := by
  by_cases hrev : a.commitRevision ≤ w.disk.configRevision
  · exact hrev.trans (configRevision_le_reloaded h)
  · have hkept : w.disk.upgrade.prune.readback w.file = some p :=
      hkeeps p a hread ha (Nat.lt_of_not_le hrev)
    obtain ⟨hmatch, ⟨e, he, hheld, rfl⟩ | hpending⟩ := Journal.readback_cases hkept
    · have hwhole := JournalEntry.Whole.not_running (h.upgrade.prune.entries e he) hheld
      have hunknown : e.persistUnknown :=
        (hattempted e (Journal.mem_of_mem_prune (j := w.disk.upgrade) he) hheld).resolve_right
          fun hle => hlt.not_ge (hle a ha)
      refine Journal.commit_le_recover ?_
        (hwhole.observed (r := w.disk.upgrade.prune.zygiskRevocation) hunknown hmatch)
        (((e.recast_recovered device w.file _).admission).trans ha)
      rw [Journal.operations_recoverJournal h.upgrade.prune]
      exact List.mem_map.2 ⟨e, he, rfl⟩
    · exact Journal.commit_le_recover_of_pending h.upgrade.prune hpending hmatch ha

/-! ## On the ground -/

/-- A restart would continue from a snapshot; `r` bounds the revision of what was not attempted. -/
structure World.Resumes (w : World) (x : ℕ × Option CanonicalConfig) (r : ℕ) : Prop where
  attempted : w.disk.Attempted r
  running : ∀ e ∈ w.disk.operations, e.record.settled = none →
    ⟨.persist, .notAttempted⟩ ∈ e.record.phases → ∀ a, e.admission = some a → a.commitRevision ≤ r
  reloads : w.disk.upgrade.KeepsProof w.file → ∀ device,
    r ≤ (w.reloaded device).1 ∧ Follows (w.reloaded device) x ∧
      ∀ n ∈ w.landed, n ≤ (w.reloaded device).1

/-- The world wherever Core may crash. -/
structure Grounded (w : World) : Prop where
  stored : w.disk.Stored
  known : ∀ e ∈ w.effects, w.disk.Known e.op
  names : w.Kept → w.Names ∧ ∃ r, w.Resumes w.store.snapshot r

/-- The world while Core is up and nothing runs. -/
structure Idle (w : World) : Prop where
  disk : w.disk = w.store.journal
  sound : w.store.journal.Sound (fun _ => False) w.store.configRevision
  known : ∀ e ∈ w.effects, w.store.journal.Known e.op
  revision : w.Kept → w.store.configRevision = loadedRevision w.store.config w.store.journal
  matched : w.file = w.store.config ∨ w.store.journal.PersistUncertain
  attempted : w.Kept → w.store.journal.Attempted w.store.configRevision
  witnessed : w.Kept → Witnessed w.file w.store.config w.store.configRevision
    w.landed w.store.journal
  names : w.Kept → w.Names

/-- What the journal shows of the config file is enough for a restart. -/
theorem resumes_of_witnessed (h : w.disk.Stored) (hattempted : w.disk.Attempted r)
    (hrunning : ∀ e ∈ w.disk.operations, e.record.settled = none →
      ⟨.persist, .notAttempted⟩ ∈ e.record.phases → ∀ a, e.admission = some a →
      a.commitRevision ≤ r)
    (hwitnessed : Witnessed w.file config r w.landed w.disk)
    (hrev : r ≤ loadedRevision config w.disk) :
    w.Resumes (r, config) r := by
  refine ⟨hattempted, hrunning, fun hkeeps device => ?_⟩
  have hle : ∀ n, n ≤ (w.reloadedJournal device).configRevision → n ≤ (w.reloaded device).1 :=
    fun n hn =>
    hn.trans (le_loadedRevision _ _)
  have hr : r ≤ (w.reloaded device).1 ∧ Follows (w.reloaded device) (r, config) := by
    obtain hsame | ⟨p, a, hread, ha, hlt⟩ := hwitnessed.config
    · have hr : r ≤ (w.reloaded device).1 := by
        rw [← hsame] at hrev
        exact hrev.trans (loadedRevision_mono (configRevision_le_reloaded h))
      exact ⟨hr, hr, fun _ => hsame.symm⟩
    · have hlt' := hlt.trans_le (hle _ (commit_le_of_readback h hattempted hkeeps hread ha hlt))
      exact ⟨hlt'.le, .of_lt hlt'⟩
  refine ⟨hr.1, hr.2, fun n hn => ?_⟩
  obtain hn | ⟨p, a, hread, ha, hn⟩ := hwitnessed.landed n hn
  · exact hn.trans hr.1
  · by_cases hlt : r < a.commitRevision
    · exact hn.trans (hle _ (commit_le_of_readback h hattempted hkeeps hread ha hlt))
    · exact (hn.trans (Nat.le_of_not_lt hlt)).trans hr.1

/-- A sound journal can be stored. -/
theorem Journal.Sound.stored {flying : OperationId → Prop} (h : j.Sound flying r)
    (hflying : ∀ e ∈ j.operations, flying e.record.op → e.Afloat) : j.Stored where
  nodup := h.nodup
  entries e he := by
    by_cases hfly : flying e.record.op
    · exact .inr (hflying e he hfly)
    · exact .inl (h.whole e he hfly)
  admitted := h.admitted
  pending := h.pending
  retain := h.retain
  projection := h.projection

/-- What is idle is grounded. -/
theorem Idle.grounded (h : Idle w) : Grounded w where
  stored := h.disk ▸ h.sound.stored fun _ _ => False.elim
  known := h.disk ▸ h.known
  names hkept := by
    have hwitnessed := h.witnessed hkept
    have hattempted := h.attempted hkept
    have hstored : w.disk.Stored := h.disk ▸ h.sound.stored fun _ _ => False.elim
    have hrev : w.store.configRevision ≤ loadedRevision w.store.config w.disk :=
      h.disk ▸ (h.revision hkept).le
    refine ⟨h.names hkept, w.store.configRevision,
      resumes_of_witnessed hstored (h.disk ▸ hattempted) (fun e he hrun => ?_)
        (h.disk ▸ hwitnessed) hrev⟩
    rw [h.disk] at he
    exact absurd hrun (h.sound.whole e he id).settled

/-! ## A crash in flight -/

/-- An operation that starts from an idle world. -/
structure Trip.Lawful (t : Trip) : Prop where
  idle : Idle t.start
  known : ∀ op, t.start.disk.Known op → t.store.journal.Known op
  resumes : t.start.Kept → t.start.Resumes t.store.snapshot t.store.configRevision

theorem World.Resumes.congr {x : ℕ × Option CanonicalConfig} (h : w.Resumes x r)
    (hdisk : w'.disk = w.disk) (hfile : w'.file = w.file) (hlanded : w'.landed = w.landed) :
    w'.Resumes x r := by
  have hreloaded : ∀ device, w'.reloaded device = w.reloaded device := fun device => by
    rw [World.reloaded, World.reloadedStore, World.reloadedJournal, hdisk, hfile]
    rfl
  refine ⟨hdisk ▸ h.attempted, hdisk ▸ h.running, fun hkeeps device => ?_⟩
  rw [hreloaded, hlanded]
  exact h.reloads (hdisk ▸ hfile ▸ hkeeps) device

/-- The receipt in flight, as it is on disk. -/
theorem Ready.own (h : Ready t w j) : ∃ e ∈ j.operations, j.get t.op = some e ∧ e.record.op = t.op ∧
    t.own e ∧ t.shows w.landed w.effects e.record.phases ∧ e.Afloat := by
  obtain ⟨e, he, hget, hop, hrun, hown⟩ := h.carries.own
  have hshown := h.shown
  rw [Journal.phasesOf, hget] at hshown
  exact ⟨e, he, hget, hop, hown, hshown, t.own_afloat e _ _ hown hrun hshown⟩

/-- The receipt of the operation is its own. -/
theorem Ready.eq_own (h : Ready t w j) {e : JournalEntry} (he : e ∈ j.operations)
    (hop : e.record.op = t.op) :
    t.own e ∧ t.shows w.landed w.effects e.record.phases ∧ e.Afloat := by
  obtain ⟨own, -, hget, -, hown⟩ := h.own
  rw [← hop, Journal.get_eq_some h.carries.sound.nodup he, Option.some.injEq] at hget
  rwa [hget]

/-- The journal in flight can be stored. -/
theorem Ready.stored (h : Ready t w j) : j.Stored :=
  h.carries.sound.stored fun _ he hop => (h.eq_own he hop).2.2

/-- The journal in flight knows every effect. -/
theorem Ready.known (h : Ready t w j) (haloft : Aloft t w) (hlawful : t.Lawful) :
    ∀ e ∈ w.effects, j.Known e.op := by
  intro e he
  obtain hold | hop := haloft.effects e he
  · exact h.carries.known _ (hlawful.known _ (hlawful.idle.grounded.known e hold))
  · obtain ⟨own, hmem, -, hown, -⟩ := h.own
    exact .inl (Journal.get_ne_none.2 (hop ▸ hown ▸ List.mem_map.2 ⟨own, hmem, rfl⟩))

/-- A receipt in flight that did not attempt the write is not newer than memory. -/
theorem Ready.running (h : Ready t w j) : ∀ e ∈ j.operations, e.record.settled = none →
    ⟨.persist, .notAttempted⟩ ∈ e.record.phases → ∀ a, e.admission = some a →
    a.commitRevision ≤ t.store.configRevision := by
  intro e he hrun hp a ha
  have hop : e.record.op = t.op := by
    by_contra hne
    exact absurd hrun (h.carries.sound.whole e he hne).settled
  obtain ⟨hown, hshown, -⟩ := h.eq_own he hop
  exact t.own_attempted e _ _ hown hshown hp a ha

/-- A load in flight does not go back. -/
theorem Ready.le_loadedRevision (h : Ready t w j) (hkept : t.start.Kept) :
    t.store.configRevision ≤ loadedRevision t.store.config j :=
  (t.revision hkept).le.trans (loadedRevision_mono h.carries.keeps.configRevision.ge)

/-- The write of the config has landed, and its receipt shows it. -/
theorem Ready.commit_le (h : Ready t w w.disk) (hlanded : w.landed = t.commit :: t.start.landed)
    (hfile : w.file = t.target) : t.commit ≤ (w.reloaded device).1 := by
  obtain ⟨e, he, -, -, hown, hshown, hafloat⟩ := h.own
  rw [hlanded] at hshown
  obtain ⟨o, hp, ho, a, ha, hcommit⟩ := t.own_landed e _ hown hshown
  rw [← hfile] at ho
  have hmem : e ∈ w.disk.upgrade.prune.operations :=
    Journal.mem_prune_of_running (j := w.disk.upgrade) he hafloat.settled
  have hobserved :=
    @JournalEntry.Afloat.observed device w.file w.disk.upgrade.prune.zygiskRevocation e
      hafloat o hp ho
  refine le_trans ?_ (Daemon.le_loadedRevision _ _)
  rw [← hcommit]
  refine Journal.commit_le_recover ?_ hobserved
    ((e.recast_recovered device w.file _).admission.trans ha)
  rw [Journal.operations_recoverJournal h.stored.upgrade.prune]
  exact List.mem_map.2 ⟨e, hmem, rfl⟩

/-- Core can go on from a journal in flight. -/
theorem Ready.resumes (h : Ready t w w.disk) (haloft : Aloft t w) (hkept : w.Kept) :
    w.Resumes w.store.snapshot t.store.configRevision := by
  obtain ⟨hlanded, hfile⟩ | ⟨hlanded, hfile, hreserved⟩ := haloft.file
  · rw [haloft.snapshot hlanded]
    have hwitnessed := h.witnessed hkept hlanded
    rw [← hfile, ← hlanded] at hwitnessed
    exact resumes_of_witnessed h.stored (h.attempted hkept) h.running hwitnessed
      (h.le_loadedRevision fun x hx => hkept x (haloft.pruned x hx))
  · refine ⟨h.attempted hkept, h.running, fun _ device => ?_⟩
    have hcommit : t.commit ≤ (w.reloaded device).1 := h.commit_le hlanded hfile
    refine ⟨hreserved.1.le.trans hcommit, ?_, fun n hn => ?_⟩
    · obtain hstore | ⟨hstore, -⟩ := haloft.store
      · rw [hstore]
        exact .of_lt (hreserved.1.trans_le hcommit)
      · rw [hstore]
        exact ⟨hcommit, fun _ => hfile.symm⟩
    · rw [hlanded] at hn
      obtain rfl | hn := List.mem_cons.1 hn
      · exact hcommit
      · exact (hreserved.2 (fun x hx => hkept x (haloft.pruned x hx)) n hn).le.trans hcommit

/-- A crash while an operation runs. -/
theorem Aloft.grounded (h : Aloft t w) (hlawful : t.Lawful) : Grounded w := by
  obtain ⟨hdisk, hlanded, -, hfresh⟩ | hready := h.disk
  · have hground := hlawful.idle.grounded
    refine ⟨hdisk ▸ hground.stored, fun e he => hdisk ▸
      hground.known e ((h.effects e he).resolve_right (hfresh e he)), fun hkept =>
        ⟨h.names hkept, t.store.configRevision, ?_⟩⟩
    rw [h.snapshot hlanded]
    exact (hlawful.resumes fun x hx => hkept x (h.pruned x hx)).congr hdisk
      (h.file_eq hlanded) hlanded
  · exact ⟨hready.stored, hready.known h hlawful, fun hkept =>
      ⟨h.names hkept, _, hready.resumes h hkept⟩⟩

/-! ## A restart -/

/-- After a restart, what holds the config is as old as before, or was uncertain before. -/
theorem attempted_reloadedJournal (h : Grounded w) {x : ℕ × Option CanonicalConfig}
    (hresumes : w.Resumes x r) {r' : ℕ} (hr : r ≤ r') :
    (w.reloadedJournal device).Attempted r' := by
  have hstored := h.stored.upgrade.prune
  intro e' he' hheld
  rw [World.reloadedJournal, Journal.operations_recoverJournal hstored] at he'
  obtain ⟨e, he, rfl⟩ := List.mem_map.1 he'
  have hcast := e.recast_recovered device w.file w.disk.upgrade.prune.zygiskRevocation
  have hmem : e ∈ w.disk.operations := Journal.mem_of_mem_prune (j := w.disk.upgrade) he
  rw [hcast.admission]
  obtain hwhole | hafloat := hstored.entries e he
  · obtain hunknown | hle := hresumes.attempted e hmem (hwhole.persist_held hheld)
    · refine .inl ?_
      rw [JournalEntry.persistUnknown, (JournalEntry.Whole.recovered_cases hwhole).1]
      exact hunknown
    · exact .inr fun a ha => (hle a ha).trans hr
  · exact .inr fun a ha =>
      (hresumes.running e hmem hafloat.settled (hafloat.persist_held hheld) a ha).trans hr

/-- The journal after a restart is sound. -/
theorem reloadedJournal_stored (h : Grounded w) : (w.reloadedJournal device).Sound (fun _ => False)
    (w.reloadedJournal device).configRevision :=
  h.stored.upgrade.prune.recover

/-- The journal after a restart knows every effect. -/
theorem reloadedJournal_known (h : Grounded w) :
    ∀ e ∈ w.effects, (w.reloadedJournal device).Known e.op := by
  intro e he
  have hknown : w.disk.upgrade.prune.Known e.op := by
    rw [Journal.prune_upgrade]
    exact (h.known e he).migrate
  exact hknown.recover h.stored.upgrade.prune

/-- Another restart from what a restart has written continues from the same revision, or a later
    one. -/
theorem Grounded.rewritten (h : Grounded w) :
    Grounded { w with
      pruned := (w.file, w.disk.upgrade) :: w.pruned, disk := w.reloadedJournal device } := by
  have hsound := @reloadedJournal_stored _ device h
  have hstored : (w.reloadedJournal device).Stored := hsound.stored fun _ _ => False.elim
  refine ⟨hstored, fun e he => reloadedJournal_known h e he, fun hkept => ?_⟩
  have hkeeps : w.disk.upgrade.KeepsProof w.file :=
    hkept (w.file, w.disk.upgrade) List.mem_cons_self
  obtain ⟨hnames, r, hresumes⟩ := h.names fun x hx => hkept x (List.mem_cons_of_mem _ hx)
  obtain ⟨hr, hfollows, hlanded⟩ := hresumes.reloads hkeeps device
  refine ⟨⟨hnames.pairwise, hnames.store⟩, (w.reloaded device).1,
    attempted_reloadedJournal h hresumes hr,
    fun e he hrun => absurd hrun (hsound.whole e he id).settled, fun _ device' => ?_⟩
  set w' : World :=
    { w with pruned := (w.file, w.disk.upgrade) :: w.pruned, disk := w.reloadedJournal device }
  have hle : (w.reloaded device).1 ≤ (w'.reloaded device').1 :=
    loadedRevision_mono (configRevision_le_reloaded (w := w') hstored)
  have hagain : Follows (w'.reloaded device') (w.reloaded device) :=
    ⟨hle, fun _ => (w.snd_reloaded device).trans (w'.snd_reloaded device').symm⟩
  exact ⟨hle, hagain.trans hfollows, fun n hn => (hlanded n hn).trans hle⟩

/-- A prune is noted on the ground. -/
theorem Grounded.prune (h : Grounded w) (x : Option CanonicalConfig × Journal) :
    Grounded { w with pruned := x :: w.pruned } := by
  refine ⟨h.stored, h.known, fun hkept => ?_⟩
  obtain ⟨hnames, r, hresumes⟩ := h.names fun y hy => hkept y (List.mem_cons_of_mem x hy)
  exact ⟨⟨hnames.pairwise, hnames.store⟩, r, hresumes.congr rfl rfl rfl⟩

/-- Core is up with what a restart has found. -/
theorem Grounded.idle (h : Grounded w) :
    Idle (World.install { w with
        pruned := (w.file, w.disk.upgrade) :: w.pruned, disk :=
          w.reloadedJournal device, fault := false, live := [] }
      (w.reloadedStore device)) where
  disk := rfl
  sound := (reloadedJournal_stored h).mono (le_loadedRevision _ _)
  known e he := reloadedJournal_known h e he
  revision _ := rfl
  matched := .inl rfl
  attempted hkept := by
    have hkeeps : w.disk.upgrade.KeepsProof w.file :=
      hkept (w.file, w.disk.upgrade) List.mem_cons_self
    obtain ⟨-, r, hresumes⟩ := h.names fun x hx => hkept x (List.mem_cons_of_mem _ hx)
    exact attempted_reloadedJournal h hresumes (hresumes.reloads hkeeps device).1
  witnessed hkept := by
    have hkeeps : w.disk.upgrade.KeepsProof w.file :=
      hkept (w.file, w.disk.upgrade) List.mem_cons_self
    obtain ⟨-, r, hresumes⟩ := h.names fun x hx => hkept x (List.mem_cons_of_mem _ hx)
    exact ⟨.inl rfl, fun n hn => .inl ((hresumes.reloads hkeeps device).2.2 n hn)⟩
  names hkept := by
    have hkeeps : w.disk.upgrade.KeepsProof w.file :=
      hkept (w.file, w.disk.upgrade) List.mem_cons_self
    obtain ⟨hnames, r, hresumes⟩ := h.names fun x hx => hkept x (List.mem_cons_of_mem _ hx)
    have hnames' : World.Names { w with
        pruned := (w.file, w.disk.upgrade) :: w.pruned, disk := w.reloadedJournal device, fault :=
      false, live := [] } :=
      ⟨hnames.pairwise, hnames.store⟩
    exact hnames'.install (hresumes.reloads hkeeps device).2.1

/-- What the device and the config file went through is the same. -/
structure Rewrites (w w' : World) : Prop where
  file : w'.file = w.file
  effects : w'.effects = w.effects
  landed : w'.landed = w.landed
  pruned : ∀ x ∈ w.pruned, x ∈ w'.pruned

theorem Rewrites.kept (h : Rewrites w w') (hkept : w'.Kept) : w.Kept :=
  fun x hx => hkept x (h.pruned x hx)

theorem safe_prune {Q : Journal → World → Prop} {C : World → Prop}
    (h : Q j.prune { w with pruned := (w.file, j) :: w.pruned }) : (prune j).Safe Q C w :=
  .modify_bind (.pure h)

theorem safe_writeAtomic {Q : WriteResult → World → Prop} {C : World → Prop} (hC : C w)
    (h : ∀ result, Q result (if result.lands then { w with disk := j } else w)) :
    (writeAtomic j).Safe Q C w :=
  .ask_bind hC fun _ result _ => .modify_bind (.pure (h result))

/-- A load keeps the ground, and establishes the invariant. -/
theorem Grounded.safe_loadWithJournal (h : Grounded w) (env : Env) (device : Device) :
    (loadWithJournal env device).Safe (fun ok w' => Grounded w' ∧ Rewrites w w' ∧
      (ok → w'.fault = false ∧ Idle w' ∧ w'.store.journal = w.reloadedJournal device))
      (fun w' => Grounded w' ∧ Rewrites w w') w := by
  have hw : ∀ w', w'.file = w.file → w'.effects = w.effects → w'.landed = w.landed →
      w'.pruned = (w.file, w.disk.upgrade) :: w.pruned → Rewrites w w' :=
    fun w' hfile heffects hlanded hpruned =>
    ⟨hfile, heffects, hlanded, fun x hx => hpruned ▸ List.mem_cons_of_mem _ hx⟩
  refine .get_bind ?_
  split
  next => exact .pure ⟨h, ⟨rfl, rfl, rfl, fun _ => id⟩, by simp⟩
  next =>
    refine .bind
      (safe_prune (.bind (safe_writeAtomic ⟨h.prune _, hw _ rfl rfl rfl rfl⟩ fun result => ?_)))
    by_cases hresult : result = .written
    · subst hresult
      rw [if_neg (not_not.2 rfl)]
      refine .modify_bind
        (.bind (safe_installStore (.pure ⟨h.idle.grounded, hw _ rfl rfl rfl rfl, fun _ => ?_⟩)))
      exact ⟨rfl, h.idle, rfl⟩
    · rw [if_pos hresult]
      refine .pure ⟨?_, ?_, by simp⟩
      · split_ifs
        · exact h.rewritten
        · exact h.prune _
      · split_ifs <;> exact hw _ rfl rfl rfl rfl

end VpnHide.Daemon

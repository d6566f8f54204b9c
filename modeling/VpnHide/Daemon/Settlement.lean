import Mathlib.Data.List.Nodup
import VpnHide.Daemon.Reload

/-!
# Settling an operation

A journal that Core may continue with, given what is on file and what memory publishes
(`Stands`): retention keeps it, and so does taking over what earlier receipts hold. The journal
that settles an operation stands with the config that the operation leaves in memory, so that
Core is idle again when it is written, and on safe ground wherever the writing fails.
-/

namespace VpnHide.Daemon

open Lib Config

variable {w w' : World} {j j' : Journal} {x : ℕ × Option CanonicalConfig}
  {f : Option CanonicalConfig} {d : Departure} {hk : Hook} {o : PlanOutcome} {r : Request}

/-! ## Where Core may be -/

/-- The configs that reached the file have increasing revisions. -/
def World.Ordered (w : World) : Prop := w.Kept → w.landed.Pairwise (· > ·)

/-- The world of a Core that is down. -/
structure Down (w : World) : Prop where
  grounded : Grounded w
  ordered : w.Ordered

/-- The world of a Core that is up and runs nothing, unless its storage has failed. -/
structure Up (w : World) : Prop extends Down w where
  idle : w.fault = false → Idle w

/-- A journal that Core may continue with, when memory publishes `x`. -/
structure Stands (w : World) (x : ℕ × Option CanonicalConfig) (j : Journal) : Prop where
  sound : j.Sound (fun _ => False) x.1
  known : ∀ e ∈ w.effects, j.Known e.op
  revision : w.Kept → x.1 = loadedRevision x.2 j
  matched : w.file = x.2 ∨ j.PersistUncertain
  attempted : w.Kept → j.Attempted x.1
  witnessed : w.Kept → Witnessed w.file x.2 x.1 w.landed j

/-- What Core serves stands where Core is idle. -/
theorem Idle.stands (h : Idle w) : Stands w w.store.snapshot w.store.journal :=
  ⟨h.sound, h.known, h.revision, h.matched, h.attempted, h.witnessed⟩

theorem loadedRevision_congr {j j' : Journal} (h : j'.configRevision = j.configRevision) :
    loadedRevision f j' = loadedRevision f j := by
  cases f <;> simp [loadedRevision, h]

/-- A config on file has a revision. -/
theorem loadedRevision_pos {s : ConfigStore} (h : s.configRevision = loadedRevision s.config j) :
    s.snapshot.2 ≠ none → 0 < s.snapshot.1 := by
  intro hne
  obtain ⟨config, hconfig⟩ := Option.ne_none_iff_exists'.1 hne
  have hconfig' : s.config = some config := hconfig
  change 0 < s.configRevision
  rw [h, hconfig', loadedRevision]
  split_ifs with hpos
  · exact hpos
  · exact Nat.one_pos

/-- With a revision on file, a load takes it. -/
theorem loadedRevision_of_pos (h : f ≠ none → 0 < j.configRevision) :
    loadedRevision f j = j.configRevision := by
  cases f with
  | none => rfl
  | some config => exact if_pos (h (Option.some_ne_none config))

/-- A journal that stands is on disk, and its snapshot follows that of memory. -/
theorem Stands.grounded (h : Stands w x j) (hdisk : w.disk = j) (hnames : w.Kept → w.Names)
    (hfollows : w.Kept → Follows x w.store.snapshot) : Grounded w := by
  subst hdisk
  have hstored : w.disk.Stored := h.sound.stored fun _ _ => False.elim
  refine ⟨hstored, h.known, fun hkept => ⟨hnames hkept, x.1, ?_⟩⟩
  have hresumes : w.Resumes x x.1 := by
    refine resumes_of_witnessed hstored (h.attempted hkept) (fun e he hrun => ?_)
      (h.witnessed hkept) (h.revision hkept).le
    exact absurd hrun (h.sound.whole e he id).settled
  refine ⟨hresumes.attempted, hresumes.running, fun hkeeps device => ?_⟩
  obtain ⟨hle, hagain, hlanded⟩ := hresumes.reloads hkeeps device
  exact ⟨hle, hagain.trans (hfollows hkept), hlanded⟩

/-- Memory takes over a journal that is on disk. -/
theorem Stands.idle {s : ConfigStore} (h : Stands w s.snapshot s.journal)
    (hdisk : w.disk = s.journal) (hnames : w.Kept → w.Names)
    (hfollows : w.Kept → Follows s.snapshot w.store.snapshot) : Idle (w.install s) :=
  ⟨hdisk, h.sound, h.known, h.revision, h.matched, h.attempted, h.witnessed,
    fun hkept => (hnames hkept).install (hfollows hkept)⟩

/-- What stands stands after pruning. -/
theorem Stands.prune (h : Stands w x j) :
    Stands { w with pruned := (w.file, j) :: w.pruned } x j.prune where
  sound := h.sound.prune
  known e he := (h.known e he).prune
  revision hkept := by
    rw [loadedRevision_congr j.keeps_prune.configRevision]
    exact h.revision fun y hy => hkept y (List.mem_cons_of_mem _ hy)
  matched := h.matched.imp_right (·.prune)
  attempted hkept := (h.attempted fun y hy => hkept y (List.mem_cons_of_mem _ hy)).prune
  witnessed hkept := by
    have hold : w.Kept := fun y hy => hkept y (List.mem_cons_of_mem _ hy)
    have hkeeps : j.KeepsProof w.file := hkept (w.file, j) List.mem_cons_self
    exact (h.witnessed hold).prune hkeeps ((le_loadedRevision _ _).trans (h.revision hold).ge)

/-- The order is kept by what only rewrites. -/
theorem World.Ordered.rewrites (h : w.Ordered) (hw : Rewrites w w') : w'.Ordered := fun hkept => by
  rw [hw.landed]
  exact h (hw.kept hkept)

/-- What stands is kept by what only rewrites. -/
theorem Stands.rewrites (h : Stands w x j) (hw : Rewrites w w') : Stands w' x j := by
  refine ⟨h.sound, hw.effects ▸ h.known, fun hk => h.revision (hw.kept hk), hw.file ▸ h.matched,
    fun hk => h.attempted (hw.kept hk), fun hk => ?_⟩
  rw [hw.file, hw.landed]
  exact h.witnessed (hw.kept hk)

/-- The same receipts, with another lifecycle or other leases. -/
structure Journal.SameReceipts (j j' : Journal) : Prop where
  operations : j'.operations = j.operations
  configRevision : j'.configRevision = j.configRevision
  retainSettled : j'.retainSettled = j.retainSettled
  projection : j'.zygiskProjection = j.zygiskProjection
  expiredThrough : j'.expiredThrough = j.expiredThrough
  retiredIds : j'.retiredIds = j.retiredIds
  expiredHolds : j'.expiredHolds = j.expiredHolds
  pendingPersist : j'.pendingPersist = j.pendingPersist

/-- What stands does not depend on anything but the receipts. -/
theorem Stands.retouch (h : Stands w x j) (hj : j.SameReceipts j') : Stands w x j' := by
  have hread : ∀ f, j'.readback f = j.readback f := fun f => by
    simp only [Journal.readback, Journal.proofs, Journal.persistHolders,
      hj.operations, hj.pendingPersist]
  refine ⟨⟨hj.operations ▸ h.sound.nodup, hj.operations ▸ h.sound.whole, hj.operations ▸
      h.sound.admitted, hj.operations ▸ h.sound.confirmed,
        ⟨hj.pendingPersist ▸ h.sound.pending.admitted, ?_⟩,
      hj.retainSettled ▸ h.sound.retain, hj.projection.trans h.sound.projection⟩,
      fun e he => ?_, fun hkept => ?_,
    h.matched.imp_right fun huncertain => ?_, fun hkept e he => ?_, fun hkept => ?_⟩
  · rw [hj.pendingPersist, hj.expiredHolds]
    exact h.sound.pending.held
  · have hids := congrArg (List.map (·.record.op)) hj.operations
    exact (h.known e he).step (.adjust j j' hids hj.expiredThrough hj.retiredIds)
  · exact (h.revision hkept).trans (loadedRevision_congr hj.configRevision).symm
  · rw [Journal.PersistUncertain, hj.expiredHolds, hj.operations]
    exact huncertain
  · exact h.attempted hkept e (hj.operations ▸ he)
  · exact (h.witnessed hkept).of_readback fun p a hp _ _ => (hread _).trans hp

/-! ## Taking over what earlier receipts hold -/

/-- The receipt of another operation, after one that takes over what it holds. -/
structure Yields (c : Operation) (o : PlanOutcome) (e e' : JournalEntry) : Prop where
  record : e'.record = e.record
  admission : e'.admission = e.admission
  proof : e'.proof = e.proof
  held : ∀ p, p ∈ e'.heldPhases → p ∈ e.heldPhases
  kept : ∀ p ∈ e.heldPhases, o.supersedes c.reset e p = false → p ∈ e'.heldPhases

/-- The phases that are superseded are no longer held. -/
theorem mem_heldPhases_supersede (e : JournalEntry) (phases : List ConfigPhase) (p : ConfigPhase) :
    p ∈ { e with supersededPhases := e.supersededPhases ++ phases }.heldPhases ↔
      p ∈ e.heldPhases ∧ p ∉ phases := by
  simp only [JournalEntry.heldPhases]
  split_ifs with hfree
  · simp
  all_goals simp only [List.mem_filter, List.mem_append, decide_eq_true_eq, not_or, and_assoc]

/-- What supersedes a receipt. -/
theorem yields_supersedeEntry (c : Operation) (o : PlanOutcome) (e : JournalEntry) :
    Yields c o e (supersedeEntry c o e) := by
  rw [supersedeEntry]
  split_ifs with hop
  · exact ⟨rfl, rfl, rfl, fun _ => id, fun _ hp _ => hp⟩
  have hheld := mem_heldPhases_supersede e (e.heldPhases.filter (o.supersedes c.reset e))
  generalize hd : ({ e with supersededPhases :=
    e.supersededPhases ++ e.heldPhases.filter (o.supersedes c.reset e) } :
      JournalEntry) = d at hheld ⊢
  have hkept : ∀ p ∈ e.heldPhases, o.supersedes c.reset e p = false → p ∈ d.heldPhases :=
    fun p hp hsuper =>
    (hheld p).2 ⟨hp, fun hmem => by simp [hsuper] at hmem⟩
  have hlike : d.record = e.record ∧ d.admission = e.admission ∧ d.proof = e.proof :=
    hd ▸ ⟨rfl, rfl, rfl⟩
  dsimp only
  split_ifs with hfree
  · -- nothing is held any more, and the receipt is superseded as a whole
    simp only [Bool.and_eq_true, decide_eq_true_eq, List.isEmpty_iff] at hfree
    refine ⟨hlike.1, hlike.2.1, hlike.2.2, fun p hp => by simp [JournalEntry.heldPhases] at hp,
      fun p hp hsuper => ?_⟩
    have hmem := hkept p hp hsuper
    rw [hfree.2] at hmem
    cases hmem
  · exact ⟨hlike.1, hlike.2.1, hlike.2.2, fun p hp => ((hheld p).1 hp).1, hkept⟩

/-- What a weaker search finds first, a stronger one does that accepts it. -/
theorem find?_of_imp {α : Type} {p q : α → Bool} {l : List α} {a : α} (h : l.find? p = some a)
    (himp : ∀ b ∈ l, q b → p b) (ha : q a) : l.find? q = some a := by
  obtain ⟨-, before, after, rfl, hbefore⟩ := List.find?_eq_some_iff_append.1 h
  refine List.find?_eq_some_iff_append.2 ⟨ha, before, after, rfl, fun b hb => ?_⟩
  cases hq : q b with
  | false => rfl
  | true =>
    have hp := himp b (List.mem_append_left _ hb) hq
    have hnot := hbefore b hb
    rw [hp] at hnot
    cases hnot

/-- The receipt that a readback finds. -/
def Journal.persistHolder (f : Option CanonicalConfig) (j : Journal) : Option JournalEntry :=
  j.operations.reverse.find? fun e => decide (ConfigPhase.persist ∈ e.heldPhases) &&
    e.proof.matches f

/-- A readback looks at the receipts first, and then at the pending proof. -/
theorem Journal.readback_eq (f : Option CanonicalConfig) (j : Journal) :
    j.readback f = ((j.persistHolder f).map (·.proof)).or
      (j.pendingPersist.filter (·.matches f)) := by
  have hpending :
      j.pendingPersist.toList.find? (·.matches f) = j.pendingPersist.filter (·.matches f) := by
    cases j.pendingPersist with
    | none => rfl
    | some p => cases h : p.matches f <;> simp [Option.filter, h]
  rw [readback, proofs, List.find?_append, hpending, persistHolders, ← List.filter_reverse,
    List.find?_map, List.find?_filter, persistHolder]
  simp

/-- What may be known of the config file besides its readback. -/
structure Settles (w : World) (x : ℕ × Option CanonicalConfig) : Prop where
  file : w.file = x.2
  landed : w.Kept → ∀ n ∈ w.landed, n ≤ x.1

/-- What is settled is witnessed. -/
theorem Settles.witnessed (h : Settles w x) (hkept : w.Kept) :
    Witnessed w.file x.2 x.1 w.landed j :=
  ⟨.inl h.file, fun n hn => .inl (h.landed hkept n hn)⟩

section Supersede

variable {c : Operation}

/-- A hold of the config goes with a write that is confirmed, or when it was not attempted. -/
theorem supersedes_persist {reset : Bool} {e : JournalEntry} (h : o.supersedes reset e .persist) :
    o.confirmed .persist ∨ ⟨.persist, .notAttempted⟩ ∈ e.record.phases := by
  simp only [PlanOutcome.supersedes, reduceCtorEq, decide_false, Bool.and_false, Bool.false_and,
    Bool.false_or, List.any_eq_true, Bool.and_eq_true, Bool.or_eq_true, decide_eq_true_eq] at h
  obtain ⟨p, hp, hphase, hconf | ⟨-, ⟨q, out⟩, hq, rfl, rfl⟩⟩ := h
  · exact .inl (List.any_eq_true.2 ⟨p, hp, by simp [hphase, hconf]⟩)
  · exact .inr hq

/-- An uncertain write is superseded only by one that is confirmed. -/
theorem JournalEntry.Whole.not_supersedes {e : JournalEntry} (h : e.Whole)
    (hunknown : e.persistUnknown) {reset : Bool} (hconf : o.confirmed .persist = false) :
    o.supersedes reset e .persist = false := by
  by_contra hsuper
  obtain hc | hmem := supersedes_persist (Bool.eq_true_of_not_eq_false hsuper)
  · rw [hconf] at hc
    cases hc
  · have heq := List.inj_on_of_nodup_map h.nodup hmem hunknown rfl
    cases heq

/-- Without a confirmed write the config is not taken over. -/
theorem replaces_persist {reset : Bool} (hconf : o.confirmed .persist = false) :
    o.replaces reset .persist = false := by
  simp [PlanOutcome.replaces, hconf]

/-- The receipts after a settlement that takes over what earlier ones hold. -/
theorem supersede_cases (r : Request) (c : Operation) (o : PlanOutcome) (j : Journal) :
    supersede r c o j = j ∨
    supersede r c o j = { j with
      expiredHolds := j.expiredHolds.filter fun phase => !o.replaces c.reset phase
      pendingPersist :=
        if ConfigPhase.persist ∈ j.expiredHolds.filter (fun phase => !o.replaces c.reset phase) then
        j.pendingPersist else none
      operations := j.operations.map (supersedeEntry c o) } := by
  by_cases htakes : takesOver r
  · exact .inr (by rw [supersede, if_pos htakes])
  · exact .inl (by rw [supersede, if_neg htakes])

/-- Nor is its expired hold. -/
theorem persist_mem_expiredHolds (hconf : o.confirmed .persist = false)
    (h : ConfigPhase.persist ∈ j.expiredHolds) :
    ConfigPhase.persist ∈ j.expiredHolds.filter fun phase => !o.replaces c.reset phase :=
  List.mem_filter.2 ⟨h, by simp [replaces_persist hconf]⟩

/-- What a readback finds of a newer write it still finds, unless the config was written again. -/
theorem readback_supersede {n : ℕ} (hsound : j.Sound (fun _ => False) n)
    (hattempted : j.Attempted n) (hconf : o.confirmed .persist = false) {p : PendingPersist}
    {a : Admission} (hread : j.readback f = some p)
    (ha : p.admission = some a) (hlt : n < a.commitRevision) :
    (supersede r c o j).readback f = some p := by
  obtain heq | heq := supersede_cases r c o j
  · rwa [heq]
  have hyields := yields_supersedeEntry c o
  have hholder : (supersede r c o j).persistHolder f = (j.operations.reverse.find? fun e =>
      decide (ConfigPhase.persist ∈ (supersedeEntry c o e).heldPhases) &&
        e.proof.matches f).map (supersedeEntry c o) := by
    rw [heq, Journal.persistHolder, ← List.map_reverse, List.find?_map]
    simp only [Function.comp_def, (hyields _).proof]
  -- An entry that still holds its write held it before.
  have himp : ∀ e, decide (ConfigPhase.persist ∈ (supersedeEntry c o e).heldPhases) &&
      e.proof.matches f → decide (ConfigPhase.persist ∈ e.heldPhases) && e.proof.matches f := by
    intro e
    simp only [Bool.and_eq_true, decide_eq_true_eq]
    exact And.imp_left ((hyields e).held _)
  rw [Journal.readback_eq] at hread ⊢
  rw [hholder]
  -- The write that is found is held by an entry, or it is the one that is pending.
  cases hfind : j.persistHolder f with
  | some e =>
    rw [hfind, Option.map_some, Option.some_or, Option.some.injEq] at hread
    subst hread
    have hacc := List.find?_some hfind
    have hmem : e ∈ j.operations := List.mem_reverse.1 (List.mem_of_find?_eq_some hfind)
    simp only [Bool.and_eq_true, decide_eq_true_eq] at hacc
    have hunknown : e.persistUnknown := (hattempted e hmem hacc.1).resolve_right fun hle =>
      hlt.not_ge (hle a ha)
    have hheld := (hyields e).kept _ hacc.1 ((hsound.whole e hmem id).not_supersedes hunknown hconf)
    rw [find?_of_imp hfind (fun b _ => himp b) (by simp [hheld, hacc.2])]
    simp [(hyields e).proof]
  | none =>
    have hnone : (j.operations.reverse.find? fun e =>
        decide (ConfigPhase.persist ∈ (supersedeEntry c o e).heldPhases) &&
          e.proof.matches f) = none := by
      rw [List.find?_eq_none]
      exact fun e he hacc => List.find?_eq_none.1 hfind e he (himp e hacc)
    rw [hfind, Option.map_none, Option.none_or] at hread
    have hpending : j.pendingPersist ≠ none := fun hp => by simp [hp] at hread
    rw [hnone, Option.map_none, Option.map_none, Option.none_or, heq]
    simp only [if_pos (persist_mem_expiredHolds hconf (hsound.pending.held hpending)), hread]

/-- An uncertain write stays uncertain. -/
theorem Journal.PersistUncertain.supersede {n : ℕ} (h : j.PersistUncertain)
    (hsound : j.Sound (fun _ => False) n) (hconf : o.confirmed .persist = false) :
    (Daemon.supersede r c o j).PersistUncertain := by
  obtain heq | heq := supersede_cases r c o j
  · rwa [heq]
  have hyields := yields_supersedeEntry c o
  rw [heq]
  refine h.imp (persist_mem_expiredHolds hconf) ?_
  rintro ⟨e, he, hheld, hunknown⟩
  have hsuper : o.supersedes c.reset e .persist = false :=
    (hsound.whole e he id).not_supersedes hunknown hconf
  refine ⟨_, List.mem_map.2 ⟨e, he, rfl⟩, (hyields e).kept _ hheld hsuper, ?_⟩
  rw [JournalEntry.persistUnknown, (hyields e).record]
  exact hunknown

/-- Where the config was written again, it is certain. -/
theorem Stands.supersede (h : Stands w x j) (hconf : o.confirmed .persist → Settles w x) :
    Stands w x (Daemon.supersede r c o j) := by
  -- A command that takes nothing over leaves the journal as it is.
  obtain heq | heq := supersede_cases r c o j
  · rwa [heq]
  -- Otherwise the entries are kept, but yield what the outcome has settled.
  have hyields := yields_supersedeEntry c o
  have hmem : ∀ e' ∈ (Daemon.supersede r c o j).operations, ∃ e ∈ j.operations,
      Yields c o e e' := by
    intro e' he'
    rw [heq] at he'
    obtain ⟨e, he, rfl⟩ := List.mem_map.1 he'
    exact ⟨e, he, hyields e⟩
  -- The operations stay the same ones.
  have hids : (Daemon.supersede r c o j).operations.map (·.record.op) =
      j.operations.map (·.record.op) := by
    rw [heq, List.map_map]
    exact List.map_congr_left fun e _ => congrArg (·.op) (hyields e).record
  refine ⟨⟨hids ▸ h.sound.nodup, fun e' he' _ => ?_, fun e' he' => ?_, fun e' he' _ hc a ha => ?_,
    ?_, ?_, ?_⟩,
    fun e he => (h.known e he).step (.adjust j _ hids ?_ ?_), fun hkept => ?_, ?_,
    fun hkept e' he' hheld => ?_, fun hkept => ?_⟩
  · obtain ⟨e, he, hy⟩ := hmem e' he'
    obtain ⟨hnodup, hsettled, hrunning, hunknown, hpersist⟩ := h.sound.whole e he id
    rw [← hy.record] at hnodup hsettled hrunning hunknown hpersist
    exact ⟨hnodup, hsettled, hrunning, hunknown, hpersist⟩
  · obtain ⟨e, he, hy⟩ := hmem e' he'
    exact hy.admission ▸ h.sound.admitted e he
  · obtain ⟨e, he, hy⟩ := hmem e' he'
    rw [JournalEntry.persistConfirmed, hy.record] at hc
    exact h.sound.confirmed e he id hc a (hy.admission ▸ ha)
  · rw [heq]
    refine ⟨fun p hp => h.sound.pending.admitted p ?_, fun hp => ?_⟩
    · dsimp only at hp
      split_ifs at hp
      exact hp
    · dsimp only at hp ⊢
      split_ifs at hp with hin
      · exact hin
      · exact absurd rfl hp
  · rw [heq]
    exact h.sound.retain
  · rw [heq]
    exact h.sound.projection
  · rw [heq]
  · rw [heq]
  · rw [heq]
    exact (h.revision hkept).trans (loadedRevision_congr rfl)
  · -- If the file was written it matches; else it matches as before.
    cases hc : o.confirmed .persist with
    | true => exact .inl (hconf hc).file
    | false => exact h.matched.imp_right (·.supersede h.sound hc)
  · obtain ⟨e, he, hy⟩ := hmem e' he'
    rw [JournalEntry.persistUnknown, hy.record, hy.admission]
    exact h.attempted hkept e he (hy.held _ hheld)
  · cases hc : o.confirmed .persist with
    | true => exact (hconf hc).witnessed hkept
    | false =>
      exact (h.witnessed hkept).of_readback fun p a hp ha hlt =>
        readback_supersede h.sound (h.attempted hkept) hc hp ha hlt

end Supersede

/-! ## The receipt of a plan that has ended -/

/-- The receipt that settles an operation. -/
structure Ended (c : Operation) (o : PlanOutcome) (e : JournalEntry) : Prop where
  admission : e.admission = some c.admission
  command : e.command = some c.command
  candidate : e.candidate = some c.candidate
  supersededBy : e.supersededBy = none
  supersededPhases : e.supersededPhases = []
  record : e.record = ⟨c.op, o.phases, some o.settled⟩

/-- The receipt that an operation leaves. -/
def Operation.settledEntry (c : Operation) (o : PlanOutcome) (j : Journal) : JournalEntry :=
  c.entry (j.get c.op) (o.settled = .unknown) ((j.get c.op).bind (·.nativeIntent))
    o.phases (some o.settled)

/-- What the receipt of an operation is in the end. -/
theorem Carries.ended {c : Operation} {s : ConfigStore} (h : Carries c.op (Own c) s j)
    (o : PlanOutcome) :
    Ended c o (c.settledEntry o j) := by
  obtain ⟨e, -, hget, -, -, hown⟩ := h.own
  exact ⟨by simp [Operation.settledEntry, Operation.entry, hget, hown.admission],
    by simp [Operation.settledEntry, Operation.entry, hget, hown.command], rfl,
    by simp [Operation.settledEntry, Operation.entry, hget, hown.supersededBy],
    by simp [Operation.settledEntry, Operation.entry, hget, hown.supersededPhases], rfl⟩

/-- The proof of the receipt is about the target. -/
theorem Ended.proof_matches {e : JournalEntry} (h : Ended d.op o e) :
    e.proof.matches d.op.target := by
  rw [JournalEntry.proof_matches h.candidate, h.command, Operation.target]
  simp only [Option.some.injEq, d.reset]

/-- The last receipt is the first that a readback looks at. -/
theorem Carries.persistHolder_insert {op : OperationId} {P : JournalEntry → Prop} {s : ConfigStore}
    (h : Carries op P s j) {entry : JournalEntry} (hop : entry.record.op = op) :
    (j.insert entry).persistHolder f =
      if ConfigPhase.persist ∈ entry.heldPhases ∧ entry.proof.matches f then some entry
        else j.persistHolder f := by
  obtain ⟨entries, e, hops, hop', hrun, -⟩ := h.last
  rw [Journal.persistHolder, Journal.persistHolder,
    Journal.insert_last h.sound.nodup hops (hop'.trans hop.symm), hops, List.reverse_concat,
    List.reverse_concat, List.find?_cons, List.find?_cons, JournalEntry.heldPhases_of_running hrun]
  split_ifs with hfound
  · simp [hfound]
  · have hnot : (decide (ConfigPhase.persist ∈ entry.heldPhases) && entry.proof.matches f) =
        false := by
      simpa using hfound
    simp [hnot]

/-- Each phase has landed once. -/
theorem Landed.nodup (h : Landed d hk o w) : (o.phases.map (·.phase)).Nodup := h.plan ▸ d.nodup

/-- How the write of the config may have ended. -/
theorem Landed.persist (h : Landed d hk o w) {out : PhaseOutcome}
    (hp : ⟨.persist, out⟩ ∈ o.phases) :
    out ≠ .running ∧ out ≠ .notAttempted ∧
      (d.op.changed → Fits d.op d.start.landed w.landed out) := by
  have hsure := h.log.sure _ hp
  exact ⟨hsure.running, (hsure.persist rfl).1, (hsure.persist rfl).2⟩

/-- What holds the config is a write that is uncertain. -/
theorem Landed.held_iff (h : Landed d hk o w) {e : JournalEntry} (he : Ended d.op o e) :
    ConfigPhase.persist ∈ e.heldPhases ↔ ⟨.persist, .unknown⟩ ∈ o.phases := by
  constructor
  · intro hheld
    obtain ⟨-, hsettled, -, -, hpending⟩ := JournalEntry.settled_of_held hheld
    rw [he.record] at hsettled hpending
    obtain ⟨q, hq, hout⟩ := h.log.tallies.unknown.1 (Option.some.inj hsettled)
    obtain ⟨⟨phase, out⟩, hmem, rfl, hunresolved⟩ :=
      hpending ⟨q, hq, by simp [hout, JournalEntry.unresolved]⟩
    obtain ⟨hrun, hatt, -⟩ := h.persist hmem
    cases out with
    | unknown => exact hmem
    | running => exact absurd rfl hrun
    | notAttempted => exact absurd rfl hatt
    | confirmed | failedKnown => cases hunresolved
  · intro hunknown
    have hsettled : o.settled = .unknown := h.log.tallies.unknown.2 ⟨_, hunknown, rfl⟩
    refine JournalEntry.held_of_unresolved (q := ⟨.persist, .unknown⟩) he.supersededBy ?_ ?_ rfl ?_
    · rw [he.record, hsettled]
    · rw [he.record]
      exact hunknown
    · simp [he.supersededPhases]

/-- The receipt is whole in the end. -/
theorem Landed.whole (h : Landed d hk o w) {e : JournalEntry} (he : Ended d.op o e) : e.Whole := by
  have hphases : e.record.phases = o.phases := congrArg (·.phases) he.record
  have hsettled : e.record.settled = some o.settled := congrArg (·.settled) he.record
  refine ⟨hphases ▸ h.nodup, by simp [hsettled], fun p hp => ?_, fun hne p hp hout => ?_,
    .inr (.inr (.inr fun hp => ?_))⟩
  · exact (h.log.sure p (hphases ▸ hp)).running
  · rw [hsettled] at hne
    exact hne (congrArg some (h.log.tallies.unknown.2 ⟨p, hphases ▸ hp, hout⟩))
  · exact (h.persist (hphases ▸ hp)).2.1 rfl

/-- The snapshot that the operation leaves. -/
def Departure.final (d : Departure) (o : PlanOutcome) : ℕ × Option CanonicalConfig :=
  if o.persisted then (d.op.admission.commitRevision, d.op.target) else d.store.snapshot

/-- The snapshot that an outcome commits. -/
theorem snapshot_commitOutcome (d : Departure) (j : Journal) (o : PlanOutcome) :
    (commitOutcome d.op { d.store with journal := j } o).snapshot = d.final o := by
  rw [commitOutcome, Departure.final]
  split_ifs <;> rfl

/-- The config did not reach its file. -/
structure Landed.Missed (d : Departure) (o : PlanOutcome) (w : World) : Prop where
  landed : w.landed = d.start.landed
  file : w.file = d.start.file
  final : d.final o = d.store.snapshot
  store : w.store.snapshot = d.store.snapshot

/-- It did, and this is known or not. -/
structure Landed.Hit (d : Departure) (o : PlanOutcome) (w : World) : Prop where
  landed : w.landed = d.op.admission.commitRevision :: d.start.landed
  file : w.file = d.op.target
  reserved : d.trip.Reserved
  final : (d.final o = (d.op.admission.commitRevision, d.op.target)) ∨
    (⟨.persist, .unknown⟩ ∈ o.phases ∧ d.final o = d.store.snapshot ∧
      w.store.snapshot = d.store.snapshot)

/-- The write of the config has missed or hit. -/
theorem Landed.cases (h : Landed d hk o w) : Missed d o w ∨ Hit d o w := by
  have hpersisted := h.log.tallies.persisted
  obtain ⟨hlanded, hfile⟩ | ⟨hlanded, hfile, hreserved⟩ := h.aloft.file
  · refine .inl ⟨hlanded, hfile, if_neg fun hp => ?_, h.aloft.snapshot hlanded⟩
    obtain ⟨hchanged, hmem⟩ := hpersisted.1 hp
    exact d.trip.landed_ne (((h.persist hmem).2.2 hchanged).symm.trans hlanded)
  · refine .inr ⟨hlanded, hfile, hreserved, ?_⟩
    have hnot : ¬ (d.op.changed → .persist ∉ o.phases.map (·.phase)) := fun hidle =>
      d.trip.landed_ne (hlanded.symm.trans (h.log.idle hidle))
    simp only [Classical.not_imp, not_not] at hnot
    obtain ⟨hchanged, hin⟩ := hnot
    obtain ⟨⟨phase, out⟩, hp, rfl⟩ := List.mem_map.1 hin
    obtain ⟨hrun, hatt, hfits⟩ := h.persist hp
    cases out with
    | confirmed => exact .inl (if_pos (hpersisted.2 ⟨hchanged, hp⟩))
    | failedKnown => exact absurd (hlanded.symm.trans (hfits hchanged)) d.trip.landed_ne
    | running => exact absurd rfl hrun
    | notAttempted => exact absurd rfl hatt
    | unknown =>
      refine .inr ⟨hp, if_neg fun hpers => ?_, h.taken hp⟩
      have heq := List.inj_on_of_nodup_map h.nodup hp (hpersisted.1 hpers).2 rfl
      cases heq

/-- What was kept before is kept in flight. -/
theorem Aloft.kept_start {t : Trip} (h : Aloft t w) (hkept : w.Kept) : t.start.Kept := fun x hx =>
  hkept x (h.pruned x hx)

/-- The final revision is not below the one before. -/
theorem Landed.le_final (h : Landed d hk o w) : d.store.configRevision ≤ (d.final o).1 := by
  obtain hmiss | hhit := h.cases
  · exact (congrArg Prod.fst hmiss.final).ge
  · obtain hfinal | ⟨-, hfinal, -⟩ := hhit.final
    · rw [hfinal]
      exact hhit.reserved.1.le
    · exact (congrArg Prod.fst hfinal).ge

/-- A write of the config that is confirmed, or that was not needed, leaves it certain. -/
theorem Landed.settles (h : Landed d hk o w) (hconf : o.confirmed .persist) :
    Settles w (d.final o) := by
  have hp : ⟨.persist, .confirmed⟩ ∈ o.phases := by
    obtain ⟨⟨phase, out⟩, hmem, hp⟩ := List.any_eq_true.1 hconf
    simp only [Bool.and_eq_true, decide_eq_true_eq] at hp
    obtain ⟨rfl, rfl⟩ := hp
    exact hmem
  obtain hmiss | hhit := h.cases
  · cases hchanged : d.op.changed with
    | true => exact absurd (((h.persist hp).2.2 hchanged).symm.trans hmiss.landed) d.trip.landed_ne
    | false =>
      have hplan : .persist ∈ d.op.plan := h.plan ▸ List.mem_map.2 ⟨_, hp, rfl⟩
      obtain ⟨hfile, hlanded⟩ := d.file hchanged hplan
      rw [hmiss.final]
      exact ⟨hmiss.file.trans hfile, fun hkept => hmiss.landed ▸ hlanded (h.aloft.kept_start hkept)⟩
  · obtain hfinal | ⟨hunknown, -⟩ := hhit.final
    · rw [hfinal]
      refine ⟨hhit.file, fun hkept n hn => ?_⟩
      rw [hhit.landed] at hn
      obtain rfl | hn := List.mem_cons.1 hn
      · exact le_rfl
      · exact (hhit.reserved.2 (h.aloft.kept_start hkept) n hn).le
    · have heq := List.inj_on_of_nodup_map h.nodup hp hunknown rfl
      cases heq

/-- What the settled journal shows of the config file. -/
theorem Landed.witnessed (h : Landed d hk o w) {e : JournalEntry} (he : Ended d.op o e)
    (hkept : w.Kept) :
    Witnessed w.file (d.final o).2 (d.final o).1 w.landed (hk.journal.insert e) := by
  have hop : e.record.op = d.op.op := congrArg (·.op) he.record
  have hholder := @Carries.persistHolder_insert _ w.file _ _ _ h.sails.carries e hop
  have hreadback := Journal.readback_eq w.file (hk.journal.insert e)
  rw [hholder] at hreadback
  -- an uncertain write of the config, which a readback finds
  have hown : ⟨.persist, .unknown⟩ ∈ o.phases → e.proof.matches w.file → d.op.changed →
      Witnessed w.file d.store.config d.store.configRevision w.landed (hk.journal.insert e) := by
    intro hunknown hmatch hchanged
    rw [if_pos ⟨(h.held_iff he).2 hunknown, hmatch⟩] at hreadback
    have hplan : .persist ∈ d.op.plan := h.plan ▸ List.mem_map.2 ⟨_, hunknown, rfl⟩
    obtain ⟨hlt, hle⟩ := d.commit hchanged hplan
    refine ⟨.inr ⟨_, _, hreadback, he.admission, hlt⟩, fun n hn =>
      .inr ⟨_, _, hreadback, he.admission, ?_⟩⟩
    have hstart := hle (h.aloft.kept_start hkept)
    obtain ⟨hlanded, -⟩ | ⟨hlanded, -⟩ := h.aloft.file
    · exact (hstart n (hlanded ▸ hn)).le
    · rw [hlanded] at hn
      obtain rfl | hn := List.mem_cons.1 hn
      · exact le_rfl
      · exact (hstart n hn).le
  obtain hmiss | hhit := h.cases
  · rw [hmiss.final]
    by_cases hheld : ConfigPhase.persist ∈ e.heldPhases ∧ e.proof.matches w.file
    · have hunknown := (h.held_iff he).1 hheld.1
      cases hchanged : d.op.changed with
      | true => exact hown hunknown hheld.2 hchanged
      | false =>
        have hplan : .persist ∈ d.op.plan := h.plan ▸ List.mem_map.2 ⟨_, hunknown, rfl⟩
        obtain ⟨hfile, hlanded⟩ := d.file hchanged hplan
        refine ⟨.inl (hmiss.file.trans hfile), fun n hn => .inl ?_⟩
        exact hlanded (h.aloft.kept_start hkept) n (hmiss.landed ▸ hn)
    · rw [if_neg hheld] at hreadback
      have hold := h.sails.witnessed hkept hmiss.landed
      have hsame : (hk.journal.insert e).readback w.file = hk.journal.readback w.file :=
        hreadback.trans (Journal.readback_eq w.file hk.journal).symm
      rw [hmiss.landed, hmiss.file] at *
      exact hold.of_readback fun p a hp _ _ => hsame.trans hp
  · obtain hfinal | ⟨hunknown, hfinal, -⟩ := hhit.final
    · rw [hfinal]
      refine ⟨.inl hhit.file, fun n hn => .inl ?_⟩
      rw [hhit.landed] at hn
      obtain rfl | hn := List.mem_cons.1 hn
      · exact le_rfl
      · exact (hhit.reserved.2 (h.aloft.kept_start hkept) n hn).le
    · rw [hfinal]
      refine hown hunknown (hhit.file ▸ he.proof_matches) ?_
      cases hchanged : d.op.changed with
      | true => rfl
      | false =>
        exact absurd (hhit.landed.symm.trans (h.log.idle fun hch => by simp [hchanged] at hch))
          d.trip.landed_ne

/-- The journal that settles the operation stands. -/
theorem Landed.stands (h : Landed d hk o w) (hlawful : d.trip.Lawful) {e : JournalEntry}
    (he : Ended d.op o e) (fieldRevisions : StrMap ℕ) : Stands w (d.final o)
      { hk.journal.insert e with configRevision := (d.final o).1, fieldRevisions } := by
  have hop : e.record.op = d.op.op := congrArg (·.op) he.record
  have hphases : e.record.phases = o.phases := congrArg (·.phases) he.record
  -- The entry that ends the operation is inserted into a sound journal.
  have hsound : (hk.journal.insert e).Sound (fun _ => False) (d.final o).1 := by
    refine h.sails.carries.sound.insert h.le_final (fun op hne hfly => hne (hfly.trans hop.symm))
      (by simp [he.admission]) fun _ => ⟨h.whole he, fun hconf a ha => ?_⟩
    obtain rfl := Option.some.inj (he.admission.symm.trans ha)
    have hp : ⟨.persist, .confirmed⟩ ∈ o.phases :=
      hphases ▸ JournalEntry.persistConfirmed_iff.1 hconf
    cases hchanged : d.op.changed with
    | true =>
      have hfinal : d.final o = (d.op.admission.commitRevision, d.op.target) :=
        if_pos (h.log.tallies.persisted.2 ⟨hchanged, hp⟩)
      rw [hfinal]
    | false => exact (d.unchanged hchanged).2.le.trans h.le_final
  refine ⟨⟨hsound.nodup, hsound.whole, hsound.admitted, hsound.confirmed,
      ⟨hsound.pending.admitted, hsound.pending.held⟩, hsound.retain,
      hsound.projection⟩, fun e' he' => ?_,
    fun hkept => ?_, ?_, fun hkept e' he' hheld => ?_, fun hkept => ?_⟩
  · refine .insert ?_
    -- An effect is that of an older operation, which is known, or of this one.
    obtain hold | hnew := h.aloft.effects e' he'
    · exact .inr (h.sails.carries.known _ (hlawful.known _ (hlawful.idle.grounded.known e' hold)))
    · exact .inl (hnew.trans hop.symm)
  · have hpos : (d.final o).2 ≠ none → 0 < (d.final o).1 := by
      -- The operation has not touched the file, or it has written the target, perhaps in doubt.
      obtain hmiss | hhit := h.cases
      · rw [hmiss.final]
        exact loadedRevision_pos (d.revision (h.aloft.kept_start hkept))
      · obtain hfinal | ⟨-, hfinal, -⟩ := hhit.final
        · rw [hfinal]
          exact fun _ => (Nat.zero_le _).trans_lt hhit.reserved.1
        · rw [hfinal]
          exact loadedRevision_pos (d.revision (h.aloft.kept_start hkept))
    exact (@loadedRevision_of_pos
      { hk.journal.insert e with configRevision := (d.final o).1, fieldRevisions }
      (d.final o).2 hpos).symm
  · obtain hmiss | hhit := h.cases
    · rw [hmiss.file, hmiss.final]
      exact h.sails.matched.imp_right (·.insert fun e' he' hop' =>
        h.sails.carries.running he' (hop'.trans hop))
    · obtain hfinal | ⟨hunknown, -⟩ := hhit.final
      · rw [hfinal]
        exact .inl hhit.file
      · refine .inr (.inr ⟨e, hk.journal.entry_mem_insert e, (h.held_iff he).2 hunknown, ?_⟩)
        rw [JournalEntry.persistUnknown, hphases]
        exact hunknown
  · obtain rfl | he' := Journal.mem_insert he'
    · refine .inl ?_
      rw [JournalEntry.persistUnknown, hphases]
      exact (h.held_iff he).1 hheld
    · exact (h.sails.attempted hkept e' he' hheld).imp_right fun hle a ha =>
        (hle a ha).trans h.le_final
  · exact (h.witnessed he hkept).of_readback fun p a hp _ _ => hp

/-! ## Settling -/

/-- The order is kept in flight. -/
theorem Aloft.ordered {t : Trip} (h : Aloft t w) (hstart : t.start.Ordered) : w.Ordered := by
  intro hkept
  have hsorted := hstart (h.kept_start hkept)
  obtain ⟨hlanded, -⟩ | ⟨hlanded, -, hreserved⟩ := h.file
  · rwa [hlanded]
  · rw [hlanded]
    exact List.pairwise_cons.2 ⟨hreserved.2 (h.kept_start hkept), hsorted⟩

/-- In flight Core may crash. -/
theorem Aloft.down {t : Trip} (h : Aloft t w) (hlawful : t.Lawful)
    (hstart : t.start.Ordered) : Down w :=
  ⟨h.grounded hlawful, h.ordered hstart⟩

/-- What is committed follows what was served. -/
theorem Landed.follows (h : Landed d hk o w) : Follows (d.final o) w.store.snapshot := by
  obtain hmiss | hhit := h.cases
  · rw [hmiss.final, hmiss.store]
    exact .refl _
  · obtain hfinal | ⟨-, hfinal, hstore⟩ := hhit.final
    · rw [hfinal]
      obtain hstore | ⟨hstore, -⟩ := h.aloft.store
      · rw [hstore]
        exact .of_lt hhit.reserved.1
      · rw [hstore]
        exact .refl _
    · rw [hfinal, hstore]
      exact .refl _

/-- What is committed: the snapshot from before, or the target. -/
theorem Landed.final_cases (h : Landed d hk o w) : d.final o = w.store.snapshot ∨
    (d.final o = (d.op.admission.commitRevision, d.op.target) ∧
      w.landed = d.op.admission.commitRevision :: d.start.landed) := by
  obtain hmiss | hhit := h.cases
  · exact .inl (hmiss.final.trans hmiss.store.symm)
  · obtain hfinal | ⟨-, hfinal, hstore⟩ := hhit.final
    · exact .inr ⟨hfinal, hhit.landed⟩
    · exact .inl (hfinal.trans hstore.symm)

/-- The journal that is settled, but for its fields. -/
theorem settledJournal_eq (d : Departure) (j : Journal) (o : PlanOutcome) : ∃ fieldRevisions,
    settledJournal d.op (commitOutcome d.op { d.store with journal := j } o) o =
      { j.insert (d.op.settledEntry o j)
        with configRevision := (d.final o).1, fieldRevisions } := by
  rw [commitOutcome, Departure.final]
  split_ifs <;> exact ⟨_, rfl⟩

/-- Storage fails with a store in memory; what stands is on disk. -/
theorem Stands.up_freeze {s : ConfigStore} (h : Stands w x j) (hdisk : w.disk = j)
    (hord : w.Ordered) (hnames : w.Kept → w.Names) (hs : s.snapshot = x)
    (hfollows : w.Kept → Follows x w.store.snapshot) :
    Up (World.install { w with fault := true } s) := by
  have hw : Rewrites w (World.install { w with fault := true } s) := ⟨rfl, rfl, rfl, fun _ => id⟩
  refine ⟨⟨(h.rewrites hw).grounded hdisk (fun hkept => ?_) ?_, hord.rewrites hw⟩,
    fun hfault => by cases hfault⟩
  · have hfrozen : World.Names { w with fault := true } :=
      ⟨(hnames hkept).pairwise, (hnames hkept).store⟩
    exact hfrozen.install (hs ▸ hfollows hkept)
  · intro _
    change Follows x s.snapshot
    rw [hs]
    exact .refl _

theorem safe_freezeStorageFault {s : ConfigStore} {Q : Unit → World → Prop} {C : World → Prop}
    (h : Q () (World.install { w with fault := true } s)) : (freezeStorageFault s).Safe Q C w :=
  .modify_bind (safe_installStore h)

/-- The receipt is durable, and what earlier ones hold is taken over. -/
theorem Stands.safe_takeOver {c : Operation} {s : ConfigStore} (h : Stands w x j)
    (hdisk : w.disk = j) (hord : w.Ordered) (hnames : w.Kept → w.Names) (hs : s.snapshot = x)
    (hfollows : w.Kept → Follows x w.store.snapshot)
    (hconf : o.confirmed .persist → Settles w x) :
    Prog.Safe (do
      let j' ← Daemon.prune (Daemon.supersede r c o j)
      let s := { s with journal := j', fieldRevisions := j'.fieldRevisions }
      if (← writeAtomic j') ≠ .written then do
        freezeStorageFault { s with journal := j }
        pure (Except.ok c.op : Except SubmitError OperationId)
      else do
        installStore s
        pure (.ok c.op)) (fun _ => Up) Down w := by
  refine .bind (safe_prune ?_)
  have hsuper : Stands w x (Daemon.supersede r c o j) := h.supersede hconf
  generalize Daemon.supersede r c o j = j' at hsuper ⊢
  set w₁ : World := { w with pruned := (w.file, j') :: w.pruned }
  have hw₁ : Rewrites w w₁ := ⟨rfl, rfl, rfl, fun _ => List.mem_cons_of_mem _⟩
  have hstands₁ : Stands w₁ x j'.prune := hsuper.prune
  have hord₁ := hord.rewrites hw₁
  have hnames₁ : w₁.Kept → w₁.Names := fun hkept =>
    ⟨(hnames (hw₁.kept hkept)).pairwise, (hnames (hw₁.kept hkept)).store⟩
  have hdown : Down w₁ :=
    ⟨(h.rewrites hw₁).grounded hdisk hnames₁ fun hkept => hfollows (hw₁.kept hkept), hord₁⟩
  refine .bind (safe_writeAtomic hdown fun result => ?_)
  have hw₂ : Rewrites w₁ { w₁ with disk := j'.prune } := ⟨rfl, rfl, rfl, fun _ => id⟩
  have hnames₂ : w₁.Kept → World.Names { w₁ with disk := j'.prune } := fun hkept =>
    ⟨(hnames₁ hkept).pairwise, (hnames₁ hkept).store⟩
  by_cases hresult : result = .written
  · subst hresult
    rw [if_neg (not_not.2 rfl)]
    have hidle : Idle (World.install { w₁ with disk := j'.prune }
        { s with journal := j'.prune, fieldRevisions := j'.prune.fieldRevisions }) :=
      Stands.idle (hs ▸ hstands₁.rewrites hw₂) rfl hnames₂ fun hkept =>
        hs ▸ hfollows (hw₁.kept hkept)
    have hw₃ : Rewrites w₁ (World.install { w₁ with disk := j'.prune }
        { s with journal := j'.prune, fieldRevisions := j'.prune.fieldRevisions }) :=
          ⟨rfl, rfl, rfl, fun _ => id⟩
    exact .bind (safe_installStore (.pure ⟨⟨hidle.grounded, hord₁.rewrites hw₃⟩, fun _ => hidle⟩))
  · rw [if_pos hresult]
    refine .bind (safe_freezeStorageFault (.pure ?_))
    split_ifs
    · exact (hstands₁.rewrites hw₂).up_freeze rfl (hord₁.rewrites hw₂) hnames₂ hs fun hkept =>
        hfollows (hw₁.kept hkept)
    · exact (h.rewrites hw₁).up_freeze hdisk hord₁ hnames₁ hs fun hkept => hfollows (hw₁.kept hkept)

/-- Settling an operation keeps the invariant. -/
theorem Landed.safe_settle (h : Landed d hk o w) (hlawful : d.trip.Lawful)
    (hstart : d.start.Ordered) (r : Request) :
    (settle r d.op { d.store with journal := hk.journal } o).Safe (fun _ => Up) Down w := by
  obtain ⟨fields, hsettled⟩ := settledJournal_eq d hk.journal o
  have hstore := snapshot_commitOutcome d hk.journal o
  rw [settle]
  generalize commitOutcome d.op { d.store with journal := hk.journal } o = s at hsettled hstore ⊢
  rw [hsettled]
  have hstands := h.stands hlawful (h.sails.carries.ended o) fields
  generalize ({ hk.journal.insert (d.op.settledEntry o hk.journal) with
    configRevision := (d.final o).1, fieldRevisions := fields } : Journal) = j at hstands ⊢
  have hord := h.aloft.ordered hstart
  refine .bind (safe_prune ?_)
  -- the first write
  set w₁ : World := { w with pruned := (w.file, j) :: w.pruned }
  have hw₁ : Rewrites w w₁ := ⟨rfl, rfl, rfl, fun _ => List.mem_cons_of_mem _⟩
  have haloft₁ : Aloft d.trip w₁ := h.aloft.prune _
  have hstands₁ : Stands w₁ (d.final o) j.prune := hstands.prune
  refine .bind (safe_writeAtomic (haloft₁.down hlawful hstart) fun result => ?_)
  by_cases hresult : result = .written
  swap
  · rw [if_pos hresult]
    refine .bind (safe_freezeStorageFault (.pure ?_))
    split_ifs
    · have hw₂ : Rewrites w₁ { w₁ with disk := j.prune } := ⟨rfl, rfl, rfl, fun _ => id⟩
      exact (hstands₁.rewrites hw₂).up_freeze rfl ((hord.rewrites hw₁).rewrites hw₂)
        (fun hkept => ⟨(haloft₁.names hkept).pairwise, (haloft₁.names hkept).store⟩) hstore fun _ =>
          h.follows
    · have haloft₂ := haloft₁.freeze.install (s := s) (by
        rw [hstore]
        exact h.final_cases)
      exact ⟨haloft₂.down hlawful hstart, fun hfault => by cases hfault⟩
  · subst hresult
    rw [if_neg (not_not.2 rfl)]
    have hw₂ : Rewrites w₁ { w₁ with disk := j.prune } := ⟨rfl, rfl, rfl, fun _ => id⟩
    refine (hstands₁.rewrites hw₂).safe_takeOver rfl ((hord.rewrites hw₁).rewrites hw₂)
      (fun hkept => ⟨(haloft₁.names hkept).pairwise, (haloft₁.names hkept).store⟩) hstore
      (fun _ => h.follows)
      fun hconf => ?_
    obtain ⟨hfile, hlanded⟩ := h.settles hconf
    exact ⟨hfile, fun hkept => hlanded (hw₁.kept hkept)⟩

end VpnHide.Daemon

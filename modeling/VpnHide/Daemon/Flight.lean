import VpnHide.Daemon.Restart

/-!
# An operation in flight

What holds while an operation runs, at every point where Core may crash (`Aloft`): the journal
on disk is the one from before, and nothing was dispatched, or it has a receipt that shows what
was (`Ready`); the config file is as before, or has the candidate; and what is known of earlier
writes is still there (`Witnessed`). The transitions before a native phase keep all of this
(`Docked`).
-/

namespace VpnHide.Daemon

open Lib Config

/-! ## What is known of uncertain writes -/

/-- Retention keeps what a readback finds, when it is newer than the revision on record. -/
def Journal.KeepsProof (f : Option CanonicalConfig) (j : Journal) : Prop :=
  ∀ p a, j.readback f = some p → p.admission = some a → j.configRevision < a.commitRevision →
    j.prune.readback f = some p

/-- Retention has kept it so far. -/
def World.Kept (w : World) : Prop := ∀ x ∈ w.pruned, x.2.KeepsProof x.1

/-- The write of the config is of unknown end. -/
def JournalEntry.persistUnknown (e : JournalEntry) : Prop := ⟨.persist, .unknown⟩ ∈ e.record.phases

/-- The journal shows what the config file has, where memory has another config or revision. -/
structure Witnessed (f config : Option CanonicalConfig) (r : ℕ) (landed : List ℕ) (j : Journal) :
    Prop where
  config : f = config ∨ ∃ p a, j.readback f = some p ∧ p.admission = some a ∧ r < a.commitRevision
  landed : ∀ n ∈ landed, n ≤ r ∨ ∃ p a, j.readback f = some p ∧ p.admission = some a ∧
    n ≤ a.commitRevision

/-- What holds the config without having tried to write it is not newer than memory. -/
def Journal.Attempted (r : ℕ) (j : Journal) : Prop :=
  ∀ e ∈ j.operations, ConfigPhase.persist ∈ e.heldPhases →
    e.persistUnknown ∨ ∀ a, e.admission = some a → a.commitRevision ≤ r

/-- A write of the config is uncertain. -/
def Journal.PersistUncertain (j : Journal) : Prop :=
  ConfigPhase.persist ∈ j.expiredHolds ∨ ∃ e ∈ j.operations, ConfigPhase.persist ∈ e.heldPhases ∧
    e.persistUnknown

namespace Witnessed

variable {f config : Option CanonicalConfig} {r : ℕ} {landed : List ℕ} {j j' : Journal}

/-- What is witnessed stays so while readbacks find it. -/
theorem of_readback (h : Witnessed f config r landed j)
    (hread : ∀ p a, j.readback f = some p → p.admission = some a → r < a.commitRevision →
      j'.readback f = some p) :
    Witnessed f config r landed j' := by
  refine ⟨h.config.imp_right ?_, fun n hn => ?_⟩
  · rintro ⟨p, a, hp, ha, hlt⟩
    exact ⟨p, a, hread p a hp ha hlt, ha, hlt⟩
  · obtain hle | ⟨p, a, hp, ha, hle⟩ := h.landed n hn
    · exact .inl hle
    · by_cases hlt : r < a.commitRevision
      · exact .inr ⟨p, a, hread p a hp ha hlt, ha, hle⟩
      · exact .inl (hle.trans (Nat.le_of_not_lt hlt))

/-- Expiry keeps the witness, where it keeps the proof. -/
theorem prune (h : Witnessed f config r landed j) (hkeeps : j.KeepsProof f)
    (hrev : j.configRevision ≤ r) :
    Witnessed f config r landed j.prune :=
  h.of_readback fun p a hp ha hlt => hkeeps p a hp ha (hrev.trans_lt hlt)

/-- Receipts that are alike give the same witness. -/
theorem alike (h : Witnessed f config r landed j) (halike : j.Alike j') :
    Witnessed f config r landed j' :=
  h.of_readback fun _ _ hp _ _ => halike.readback.trans hp

/-- Recording an operation that runs. -/
theorem insert (h : Witnessed f config r landed j) {entry : JournalEntry}
    (hentry : entry.record.settled = none)
    (hold : ∀ e ∈ j.operations, e.record.op = entry.record.op → e.record.settled = none) :
    Witnessed f config r landed (j.insert entry) := by
  have hholders : (j.insert entry).persistHolders = j.persistHolders := by
    refine Journal.persistHolders_insert (by simp [JournalEntry.heldPhases_of_running hentry])
      fun e he hop => ?_
    simp [JournalEntry.heldPhases_of_running (hold e he hop)]
  have hread : (j.insert entry).readback f = j.readback f := by
    rw [Journal.readback, Journal.readback, Journal.proofs, Journal.proofs, hholders]
    rfl
  exact h.of_readback fun p a hp _ _ => hread.trans hp

end Witnessed

namespace Journal

variable {j j' : Journal} {entry : JournalEntry} {r : ℕ}

/-- An attempt stays on record. -/
theorem Attempted.prune (h : j.Attempted r) : j.prune.Attempted r :=
  fun e he => h e (mem_of_mem_prune he)

theorem Attempted.alike (h : j.Attempted r) (halike : j.Alike j') : j'.Attempted r := by
  intro e' he' hheld
  obtain ⟨e, he, hlike⟩ := halike.mem he'
  rw [JournalEntry.persistUnknown, hlike.record, hlike.admission]
  exact h e he (hlike.persist.1 hheld)

theorem Attempted.insert (h : j.Attempted r) (hentry : entry.record.settled = none) :
    (j.insert entry).Attempted r := by
  intro e he hheld
  obtain rfl | he := mem_insert he
  · simp [JournalEntry.heldPhases_of_running hentry] at hheld
  · exact h e he hheld

/-- An uncertain write holds the config. -/
theorem PersistUncertain.persistHeld (h : j.PersistUncertain) : j.persistHeld :=
  persistHeld_iff.2 (h.imp_right fun ⟨e, he, hheld, _⟩ => List.mem_flatMap.2 ⟨e, he, hheld⟩)

/-- An uncertain write stays on record. -/
theorem PersistUncertain.prune (h : j.PersistUncertain) : j.prune.PersistUncertain := by
  obtain ⟨dropped, hperm, -, -, heq⟩ := j.prune_eq
  have hholds : ConfigPhase.persist ∈ j.prune.expiredHolds ↔
      ConfigPhase.persist ∈ j.expiredHolds ∨
        ConfigPhase.persist ∈ dropped.flatMap (·.heldPhases) := by
    rw [heq]
    exact mem_expiredHolds_foldl j dropped _
  obtain h | ⟨e, he, hheld, hunknown⟩ := h
  · exact .inl (hholds.2 (.inl h))
  · obtain he | he := List.mem_append.1 (hperm.mem_iff.1 he)
    · exact .inl (hholds.2 (.inr (List.mem_flatMap.2 ⟨e, he, hheld⟩)))
    · exact .inr ⟨e, he, hheld, hunknown⟩

theorem PersistUncertain.alike (h : j.PersistUncertain) (halike : j.Alike j') :
    j'.PersistUncertain := by
  obtain ⟨g, hg, hops⟩ := halike.operations
  refine h.imp (fun hexpired => halike.expiredHolds ▸ hexpired) ?_
  rintro ⟨e, he, hheld, hunknown⟩
  refine ⟨g e, hops ▸ List.mem_map.2 ⟨e, he, rfl⟩, (hg e).persist.2 hheld, ?_⟩
  rw [JournalEntry.persistUnknown, (hg e).record]
  exact hunknown

/-- It stays when the receipt of a running operation is replaced. -/
theorem PersistUncertain.insert (h : j.PersistUncertain)
    (hold : ∀ e ∈ j.operations, e.record.op = entry.record.op → e.record.settled = none) :
    (j.insert entry).PersistUncertain := by
  refine h.imp_right ?_
  rintro ⟨e, he, hheld, hunknown⟩
  refine ⟨e, mem_insert_of_ne he fun hop => ?_, hheld, hunknown⟩
  rw [JournalEntry.heldPhases_of_running (hold e he hop)] at hheld
  cases hheld

end Journal

/-! ## The journal in flight -/

/-- A receipt of an operation that runs. -/
structure Own (c : Operation) (e : JournalEntry) : Prop where
  admission : e.admission = some c.admission
  command : e.command = some c.command
  candidate : e.candidate = some c.candidate
  supersededBy : e.supersededBy = none
  supersededPhases : e.supersededPhases = []
  finalizedUnknown : e.finalizedUnknown = false
  settled : e.record.settled = none

/-- A journal with one operation in flight, whose receipt is the last one and as in `P`. -/
structure Carries (op : OperationId) (P : JournalEntry → Prop) (s : ConfigStore) (j : Journal) :
    Prop where
  sound : j.Sound (· = op) s.configRevision
  last : ∃ entries e, j.operations = entries ++ [e] ∧ e.record.op = op ∧
    e.record.settled = none ∧ P e
  keeps : s.journal.Keeps j
  known : ∀ op, s.journal.Known op → j.Known op

/-- The phases on record. -/
def Journal.phasesOf (j : Journal) (op : OperationId) : List PhaseRecord :=
  ((j.get op).map (·.record.phases)).getD []

namespace Carries

variable {op : OperationId} {P : JournalEntry → Prop} {c : Operation} {s : ConfigStore}
  {j j' : Journal} {entry : JournalEntry}

/-- The receipt in flight. -/
theorem own (h : Carries op P s j) : ∃ e ∈ j.operations, j.get op = some e ∧ e.record.op = op ∧
    e.record.settled = none ∧ P e := by
  obtain ⟨entries, e, hops, hop, hrun, hP⟩ := h.last
  have he : e ∈ j.operations := by simp [hops]
  exact ⟨e, he, hop ▸ Journal.get_eq_some h.sound.nodup he, hop, hrun, hP⟩

/-- The receipt of the operation is running. -/
theorem running (h : Carries op P s j) {e : JournalEntry} (he : e ∈ j.operations)
    (hop : e.record.op = op) :
    e.record.settled = none := by
  obtain ⟨own, -, hget, -, hrun, -⟩ := h.own
  rw [← hop, Journal.get_eq_some h.sound.nodup he, Option.some.injEq] at hget
  rw [hget]
  exact hrun

/-- Expiry drops no running receipt. -/
theorem prune (h : Carries op P s j) : Carries op P s j.prune := by
  obtain ⟨entries, e, hops, hop, hrun, hP⟩ := h.last
  have he : e ∈ j.prune.operations := Journal.mem_prune_of_running (by simp [hops]) hrun
  obtain ⟨kept, hkept⟩ := Journal.prune_last h.sound.nodup hops he
  exact ⟨h.sound.prune, ⟨kept, e, hkept, hop, hrun, hP⟩, h.keeps.trans j.keeps_prune,
    fun op hop => (h.known op hop).prune⟩

theorem alike (h : Carries op P s j) (halike : j.Alike j') : Carries op P s j' := by
  obtain ⟨entries, e, hops, hop, hrun, hP⟩ := h.last
  obtain ⟨g, hg, hops'⟩ := halike.operations
  refine ⟨h.sound.alike halike, ⟨entries.map g, e, ?_, hop, hrun, hP⟩, h.keeps.trans halike.keeps,
    fun op hop => ?_⟩
  · rw [hops', hops, List.map_append, List.map_singleton, (hg e).running hrun]
  · exact (h.known op hop).step (.adjust j j' halike.ids halike.expiredThrough halike.retiredIds)

/-- The receipt of the operation is replaced. -/
theorem insert (h : Carries op P s j) (hop : entry.record.op = op) (hP : P entry)
    (hrun : entry.record.settled = none) (hadmitted : entry.admission ≠ none) :
    Carries op P s (j.insert entry) := by
  obtain ⟨entries, e, hops, hop', -, -⟩ := h.last
  refine ⟨h.sound.insert le_rfl (fun _ _ hfly => hfly) hadmitted fun hfly => absurd hop hfly,
    ⟨entries, entry, ?_,
    hop, hrun, hP⟩, h.keeps.trans ⟨rfl, rfl, rfl, rfl, rfl, rfl⟩, fun op hop =>
      .insert (.inr (h.known op hop))⟩
  exact Journal.insert_last h.sound.nodup hops (hop'.trans hop.symm)

/-- The receipt that a phase records is again one of the operation. -/
theorem own_entry (h : Carries c.op (Own c) s j) (intent : Option NativeIntent)
    (phases : List PhaseRecord) {finalizedUnknown : Bool} (hfinal : finalizedUnknown = false) :
    Own c (c.entry (j.get c.op) finalizedUnknown intent phases none) := by
  obtain ⟨e, -, hget, -, -, hown⟩ := h.own
  exact ⟨by simp [Operation.entry, hget, hown.admission],
    by simp [Operation.entry, hget, hown.command], rfl,
    by simp [Operation.entry, hget, hown.supersededBy],
    by simp [Operation.entry, hget, hown.supersededPhases], hfinal, rfl⟩

/-- No receipt of it was finalized before. -/
theorem finalizedUnknown_get (h : Carries c.op (Own c) s j) :
    ((j.get c.op).map (·.finalizedUnknown)).getD false = false := by
  obtain ⟨e, -, hget, -, -, hown⟩ := h.own
  simp [hget, hown.finalizedUnknown]

/-- The phases that are on record for it. -/
theorem phasesOf_insert (h : Carries op P s j) (hop : entry.record.op = op)
    (hrun : entry.record.settled = none) :
    (j.insert entry).prune.phasesOf op = entry.record.phases := by
  have hmem : entry ∈ (j.insert entry).prune.operations :=
    Journal.mem_prune_of_running (j.entry_mem_insert entry) hrun
  rw [Journal.phasesOf, ← hop,
    Journal.get_eq_some (Journal.nodup_prune (Journal.nodup_insert h.sound.nodup)) hmem]
  rfl

/-- Receipts that are alike have the same phases. -/
theorem phasesOf_alike (h : Carries op P s j) (halike : j.Alike j') :
    j'.phasesOf op = j.phasesOf op := by
  obtain ⟨e, he, hget, hop, hrun, -⟩ := h.own
  have hget' : j'.get op = some e :=
    hop ▸ Journal.get_eq_some (halike.ids ▸ h.sound.nodup) (halike.mem_of_running he hrun)
  rw [Journal.phasesOf, Journal.phasesOf, hget, hget']

end Carries

/-! ## Snapshots -/

/-- A later snapshot and an earlier one: the revision does not decrease, and it names one config. -/
def Follows (later earlier : ℕ × Option CanonicalConfig) : Prop :=
  earlier.1 ≤ later.1 ∧ (earlier.1 = later.1 → earlier.2 = later.2)

theorem Follows.refl (x : ℕ × Option CanonicalConfig) : Follows x x := ⟨le_rfl, fun _ => rfl⟩

theorem Follows.trans {x y z : ℕ × Option CanonicalConfig} (h : Follows x y) (h' : Follows y z) :
    Follows x z := by
  refine ⟨h'.1.trans h.1, fun heq => ?_⟩
  have hzy : z.1 = y.1 := le_antisymm h'.1 (heq ▸ h.1)
  exact (h'.2 hzy).trans (h.2 (hzy.symm.trans heq))

/-- A higher revision follows. -/
theorem Follows.of_lt {x y : ℕ × Option CanonicalConfig} (h : y.1 < x.1) : Follows x y :=
  ⟨h.le, fun heq => absurd heq h.ne⟩

/-- What memory publishes. -/
def ConfigStore.snapshot (s : ConfigStore) : ℕ × Option CanonicalConfig :=
  (s.configRevision, s.config)

/-- The snapshots so far, up to memory. -/
structure World.Names (w : World) : Prop where
  pairwise : w.published.Pairwise Follows
  store : ∀ x ∈ w.published, Follows w.store.snapshot x

/-- Memory takes a store over. -/
def World.install (w : World) (s : ConfigStore) : World :=
  { w with store := s, published := s.snapshot :: w.published }

/-- Taking a store that follows keeps the names. -/
theorem World.Names.install {w : World} (h : w.Names) {s : ConfigStore}
    (hs : Follows s.snapshot w.store.snapshot) :
    (w.install s).Names := by
  have hall : ∀ x ∈ w.published, Follows s.snapshot x := fun x hx => hs.trans (h.store x hx)
  exact ⟨List.pairwise_cons.2 ⟨hall, h.pairwise⟩, List.forall_mem_cons.2 ⟨.refl _, hall⟩⟩

/-! ## The world in flight -/

/-- An operation in flight, with the store it was admitted to and the world it started from. -/
structure Trip where
  op : OperationId
  own : JournalEntry → Prop
  store : ConfigStore
  start : World
  /-- The config after the operation, and its revision. -/
  target : Option CanonicalConfig
  commit : ℕ
  /-- What phases on record say of what reached the config file, and of the effects. -/
  shows : List ℕ → List Effect → List PhaseRecord → Prop
  revision : start.Kept → store.configRevision = loadedRevision store.config store.journal
  shows_confirmed : ∀ landed effects phases, shows landed effects phases →
    ⟨.persist, .confirmed⟩ ∈ phases → landed = commit :: start.landed
  own_confirmed : ∀ e, own e → e.persistConfirmed →
    ∃ a, e.admission = some a ∧ a.commitRevision = commit ∧
      (if e.command = some .fullReset then none else e.candidate) = target
  own_admitted : ∀ e, own e → e.admission ≠ none
  own_afloat : ∀ e landed effects, own e → e.record.settled = none →
    shows landed effects e.record.phases → e.Afloat
  own_landed : ∀ e effects, own e → shows (commit :: start.landed) effects e.record.phases →
    ∃ o, ⟨.persist, o⟩ ∈ e.record.phases ∧
      (o = .confirmed ∨ (JournalEntry.unresolved o ∧ o ≠ .notAttempted ∧ e.proof.matches target)) ∧
      ∃ a, e.admission = some a ∧ a.commitRevision = commit
  own_attempted : ∀ e landed effects, own e → shows landed effects e.record.phases →
    ⟨.persist, .notAttempted⟩ ∈ e.record.phases → ∀ a, e.admission = some a →
    a.commitRevision ≤ store.configRevision
  /-- Transitions before a phase are not the phase itself. -/
  shows_note : ∀ landed effects phases e, shows landed effects phases →
    (∀ op p o, e ≠ .phase op p o) → shows landed (e :: effects) phases

/-- The revision of the operation is new. -/
def Trip.Reserved (t : Trip) : Prop :=
  t.store.configRevision < t.commit ∧ (t.start.Kept → ∀ n ∈ t.start.landed, n < t.commit)

/-- A load never goes back. -/
theorem le_loadedRevision (f : Option CanonicalConfig) (j : Journal) :
    j.configRevision ≤ loadedRevision f j := by
  cases f with
  | none => exact le_rfl
  | some config =>
    rw [loadedRevision]
    split_ifs <;> omega

/-- A journal that may be in memory while the operation runs. -/
structure Sails (t : Trip) (w : World) (j : Journal) : Prop where
  carries : Carries t.op t.own t.store j
  witnessed : w.Kept → w.landed = t.start.landed →
    Witnessed t.start.file t.store.config t.store.configRevision t.start.landed j
  attempted : w.Kept → j.Attempted t.store.configRevision
  matched : t.start.file = t.store.config ∨ j.PersistUncertain
  revoked : j.zygiskRevocation.bind (·.operation) = some t.op → j.revocationUncertain = false →
    t.start.disk.revocationUncertain = false ∨ .revocation t.op (some true) ∈ w.effects

/-- A journal that may be on disk while the operation runs. -/
structure Ready (t : Trip) (w : World) (j : Journal) : Prop extends Sails t w j where
  shown : t.shows w.landed w.effects (j.phasesOf t.op)

/-- The world while an operation runs, wherever it may crash. -/
structure Aloft (t : Trip) (w : World) : Prop where
  disk : (w.disk = t.start.disk ∧ w.landed = t.start.landed ∧ w.store.snapshot = t.store.snapshot ∧
    ∀ e ∈ w.effects, e.op ≠ t.op) ∨ Ready t w w.disk
  file : (w.landed = t.start.landed ∧ w.file = t.start.file) ∨
    (w.landed = t.commit :: t.start.landed ∧ w.file = t.target ∧ t.Reserved)
  store : w.store.snapshot = t.store.snapshot ∨
    (w.store.snapshot = (t.commit, t.target) ∧ w.landed = t.commit :: t.start.landed)
  live : w.live = t.start.live
  effects : ∀ e ∈ w.effects, e ∈ t.start.effects ∨ e.op = t.op
  old : ∀ e ∈ t.start.effects, e ∈ w.effects
  pruned : ∀ x ∈ t.start.pruned, x ∈ w.pruned
  names : w.Kept → w.Names

/-- From one world to another without a phase. -/
structure Quiet (w w' : World) : Prop where
  landed : w'.landed = w.landed
  pruned : ∀ x ∈ w.pruned, x ∈ w'.pruned
  effects : ∃ notes, w'.effects = notes ++ w.effects ∧
    ∀ e ∈ notes, ∀ op p o, e ≠ Effect.phase op p o

namespace Quiet

variable {w w' w'' : World}

theorem refl (w : World) : Quiet w w := ⟨rfl, fun _ => id, [], rfl, by simp⟩

/-- Nothing has happened to the files. -/
theorem of_eq (hlanded : w'.landed = w.landed) (hpruned : ∀ x ∈ w.pruned, x ∈ w'.pruned)
    (heffects : w'.effects = w.effects) : Quiet w w' :=
  ⟨hlanded, hpruned, [], heffects, by simp⟩

/-- Several quiet steps. -/
theorem trans (h : Quiet w w') (h' : Quiet w' w'') : Quiet w w'' := by
  obtain ⟨notes, heq, hnotes⟩ := h.effects
  obtain ⟨notes', heq', hnotes'⟩ := h'.effects
  refine ⟨h'.landed.trans h.landed, fun x hx => h'.pruned x (h.pruned x hx),
    notes' ++ notes, ?_, ?_⟩
  · rw [heq', heq, List.append_assoc]
  · exact fun e he => (List.mem_append.1 he).elim (hnotes' e) (hnotes e)

theorem kept (h : Quiet w w') (hkept : w'.Kept) : w.Kept := fun x hx => hkept x (h.pruned x hx)

theorem mem (h : Quiet w w') {e : Effect} (he : e ∈ w.effects) : e ∈ w'.effects := by
  obtain ⟨notes, heq, -⟩ := h.effects
  rw [heq]
  exact List.mem_append_right _ he

/-- A quiet step dispatches nothing. -/
theorem phase (h : Quiet w w') {op : OperationId} {p : ConfigPhase} {o : Option PhaseOutcome} :
    .phase op p o ∈ w'.effects ↔ .phase op p o ∈ w.effects := by
  obtain ⟨notes, heq, hnotes⟩ := h.effects
  refine ⟨fun he => ?_, h.mem⟩
  rw [heq] at he
  obtain he | he := List.mem_append.1 he
  · exact absurd rfl (hnotes _ he op p o)
  · exact he

end Quiet

section Worlds

variable {t : Trip} {w w' : World} {j j' : Journal}

/-- The commit of an operation has not landed before. -/
theorem Trip.landed_ne (t : Trip) : t.commit :: t.start.landed ≠ t.start.landed :=
  List.cons_ne_self _ _

/-- Before the config reaches its file, memory is as it was. -/
theorem Aloft.snapshot (h : Aloft t w) (hlanded : w.landed = t.start.landed) :
    w.store.snapshot = t.store.snapshot :=
  h.store.resolve_right fun hstore => t.landed_ne (hstore.2.symm.trans hlanded)

/-- Until the commit lands the file is what it was. -/
theorem Aloft.file_eq (h : Aloft t w) (hlanded : w.landed = t.start.landed) :
    w.file = t.start.file := by
  obtain ⟨-, hfile⟩ | ⟨hlanded', -⟩ := h.file
  · exact hfile
  · exact absurd (hlanded'.symm.trans hlanded) t.landed_ne

theorem Sails.quiet (h : Sails t w j) (hquiet : Quiet w w') : Sails t w' j :=
  ⟨h.carries, fun hkept hlanded =>
    h.witnessed (hquiet.kept hkept) (hquiet.landed.symm.trans hlanded),
    fun hkept => h.attempted (hquiet.kept hkept), h.matched, fun hop hsure =>
      (h.revoked hop hsure).imp_right hquiet.mem⟩

theorem Ready.quiet (h : Ready t w j) (hquiet : Quiet w w') : Ready t w' j := by
  refine ⟨h.toSails.quiet hquiet, ?_⟩
  obtain ⟨notes, heq, hnotes⟩ := hquiet.effects
  rw [hquiet.landed, heq]
  clear heq
  induction notes with
  | nil => exact h.shown
  | cons e notes ih =>
    rw [List.forall_mem_cons] at hnotes
    exact t.shows_note _ _ _ e (ih hnotes.2) hnotes.1

theorem Sails.alike (h : Sails t w j) (halike : j.Alike j')
    (hrevoked : j'.zygiskRevocation.bind (·.operation) = some t.op →
      j'.revocationUncertain = false → t.start.disk.revocationUncertain = false ∨
        .revocation t.op (some true) ∈ w.effects) : Sails t w j' :=
  ⟨h.carries.alike halike, fun hkept hfile => (h.witnessed hkept hfile).alike halike,
    fun hkept => (h.attempted hkept).alike halike, h.matched.imp_right (·.alike halike), hrevoked⟩

theorem Ready.alike (h : Ready t w j) (halike : j.Alike j')
    (hrevoked : j'.zygiskRevocation.bind (·.operation) = some t.op →
      j'.revocationUncertain = false → t.start.disk.revocationUncertain = false ∨
        .revocation t.op (some true) ∈ w.effects) : Ready t w j' :=
  ⟨h.toSails.alike halike hrevoked, h.carries.phasesOf_alike halike ▸ h.shown⟩

/-! ## Steps in flight -/

/-- A world in flight, where another journal may have reached the disk. -/
theorem Aloft.write (h : Aloft t w) (hj : Ready t w j) : Aloft t { w with disk := j } :=
  ⟨.inr (hj.quiet (.of_eq rfl (fun _ => id) rfl)), h.file, h.store, h.live, h.effects, h.old,
    h.pruned, fun hkept => ⟨(h.names hkept).pairwise, (h.names hkept).store⟩⟩

/-- Core may take a store in flight. -/
theorem Aloft.install (h : Aloft t w) {s : ConfigStore} (hs : s.snapshot = w.store.snapshot ∨
    (s.snapshot = (t.commit, t.target) ∧ w.landed = t.commit :: t.start.landed)) :
    Aloft t (w.install s) := by
  have hquiet : Quiet w (w.install s) := .of_eq rfl (fun _ => id) rfl
  have hfollows : Follows s.snapshot w.store.snapshot := by
    obtain hs | ⟨hs, hlanded⟩ := hs
    · rw [hs]
      exact .refl _
    · obtain ⟨hlanded', -⟩ | ⟨-, -, hlt⟩ := h.file
      · simp [hlanded] at hlanded'
      · obtain heq | ⟨heq, -⟩ := h.store
        · rw [hs, heq]
          exact .of_lt hlt.1
        · rw [hs, heq]
          exact .refl _
  refine ⟨h.disk.imp ?_ fun hdisk => hdisk.quiet hquiet, h.file, ?_, h.live, h.effects, h.old,
    h.pruned, fun hkept => (h.names hkept).install hfollows⟩
  · rintro ⟨hdisk, hlanded, hstore, hfresh⟩
    refine ⟨hdisk, hlanded, ?_, hfresh⟩
    obtain hs | ⟨-, hlanded'⟩ := hs
    · exact hs.trans hstore
    · simp [hlanded] at hlanded'
  · obtain hs | hs := hs
    · exact h.store.imp hs.trans fun hstore => ⟨hs.trans hstore.1, hstore.2⟩
    · exact .inr hs

/-- A prune is noted in flight. -/
theorem Aloft.prune (h : Aloft t w) (x : Option CanonicalConfig × Journal) :
    Aloft t { w with pruned := x :: w.pruned } := by
  have hquiet : Quiet w { w with pruned := x :: w.pruned } :=
    .of_eq rfl (fun _ => List.mem_cons_of_mem x) rfl
  refine ⟨h.disk.imp_right fun hdisk => hdisk.quiet hquiet, h.file, h.store, h.live, h.effects,
    h.old, fun y hy => List.mem_cons_of_mem x (h.pruned y hy), fun hkept => ?_⟩
  have hnames := h.names (hquiet.kept hkept)
  exact ⟨hnames.pairwise, hnames.store⟩

/-- Storage may fail in flight. -/
theorem Aloft.freeze (h : Aloft t w) : Aloft t { w with fault := true } :=
  ⟨h.disk.imp_right fun hdisk => hdisk.quiet (.of_eq rfl (fun _ => id) rfl), h.file, h.store,
    h.live, h.effects, h.old, h.pruned, fun hkept =>
      ⟨(h.names hkept).pairwise, (h.names hkept).store⟩⟩

/-- Something is done to the device; the disk tells of it. -/
theorem Aloft.note (h : Aloft t w) {e : Effect} (he : e.op = t.op)
    (hdisk : Ready t { w with effects := e :: w.effects } w.disk) :
    Aloft t { w with effects := e :: w.effects } :=
  ⟨.inr hdisk, h.file, h.store, h.live,
    List.forall_mem_cons.2 ⟨.inr he, h.effects⟩,
    fun e' he' => List.mem_cons_of_mem e (h.old e' he'), h.pruned, fun hkept =>
      ⟨(h.names hkept).pairwise, (h.names hkept).store⟩⟩

/-- Retention, as long as it keeps what is known. -/
theorem Sails.prune (h : Sails t w j) (haloft : Aloft t w) :
    Sails t { w with pruned := (w.file, j) :: w.pruned } j.prune := by
  have hquiet : Quiet w { w with pruned := (w.file, j) :: w.pruned } :=
    .of_eq rfl (fun _ => List.mem_cons_of_mem _) rfl
  refine ⟨h.carries.prune, fun hkept hlanded => ?_,
    fun hkept => (h.attempted (hquiet.kept hkept)).prune, h.matched.imp_right (·.prune), ?_⟩
  · have hfile : w.file = t.start.file := haloft.file_eq hlanded
    have hkeeps : j.KeepsProof w.file := hkept (w.file, j) List.mem_cons_self
    have hstart : t.start.Kept := fun x hx => hquiet.kept hkept x (haloft.pruned x hx)
    have hrev : j.configRevision ≤ t.store.configRevision :=
      h.carries.keeps.configRevision.trans_le ((le_loadedRevision _ _).trans (t.revision hstart).ge)
    exact (h.witnessed (hquiet.kept hkept) hlanded).prune (hfile ▸ hkeeps) hrev
  · have hfield : j.prune.zygiskRevocation = j.zygiskRevocation := j.zygiskRevocation_prune
    rw [Journal.revocationUncertain, hfield]
    exact h.revoked

/-- Recording the receipt of the operation. -/
theorem Sails.insert (h : Sails t w j) {entry : JournalEntry} (hop : entry.record.op = t.op)
    (hown : t.own entry) (hrun : entry.record.settled = none) : Sails t w (j.insert entry) :=
  ⟨h.carries.insert hop hown hrun (t.own_admitted entry hown),
    fun hkept hlanded => (h.witnessed hkept hlanded).insert hrun fun _ he hop' =>
      h.carries.running he (hop'.trans hop),
    fun hkept => (h.attempted hkept).insert hrun,
    h.matched.imp_right (·.insert fun _ he hop' => h.carries.running he (hop'.trans hop)),
    h.revoked⟩

end Worlds

end VpnHide.Daemon

import Mathlib.Data.Fintype.Card
import VpnHide.Kpm.Stats
import VpnHide.Lib.Probing

/-!
# Counting hits

Hooks run on any number of threads at once, and each hit is counted in the table of the
KPM (`record_hook_hit` in `kmod/kpm/vpnhide_kpm.c`) without a lock: a uid looks for its
slot along a linear probe sequence, claims a free slot with a compare-and-swap, and then
adds to the counter.

An execution is a program counter with what the code holds in its locals (`Pc`), and
takes one atomic access a step. A run is a schedule: the list of the executions in the
order of their steps. The invariant `Race.Inv` is kept by every step (`Race.Inv.step`),
and `race_safe` reads from it that no counter is split or lost.
-/

namespace VpnHide.Kpm

open Lib Protocol

/-- An execution of `record_hook_hit`: the hook, and the uid of the caller. -/
structure Hit where
  hook : HookId
  uid : UInt32

/-- A slot of the probe sequence of a uid. The hash wraps, the sum does not. -/
def probeSlot (uid : UInt32) (probe : ℕ) : Slot :=
  let first := uid * 2654435761 % 160
  ⟨(first.toNat + probe) % maxTargetUids, Nat.mod_lt _ (by decide)⟩

/-- Where an execution is: before its first step, about to read the owner of a slot, to
    claim it, to read it again, or to add to a counter; or done, with the hit counted,
    without a slot, or with a hook that is not counted. -/
inductive Pc
  | start
  | load (probe : ℕ)
  | cas (probe : ℕ)
  | reload (probe : ℕ)
  | add (slot : Slot)
  | counted (slot : Slot)
  | missed
  | ignored
  deriving DecidableEq

/-- The head of the loop over the probe sequence. -/
def Pc.next (probe : ℕ) : Pc := if probe < maxTargetUids then .load probe else .missed

/-- Claiming a slot. -/
def Stats.claim (t : Stats) (i : Slot) (uid : UInt32) : Stats :=
  { t with uids := Function.update t.uids i uid }

/-- Adding to a counter. -/
def Stats.bump (t : Stats) (i : Slot) (hook : Fin kpmStatsHookCount) : Stats :=
  let row := Function.update (t.counts i) hook (t.counts i hook + 1)
  { t with counts := Function.update t.counts i row }

/-- A step of an execution. -/
def Hit.step (h : Hit) (t : Stats) : Pc → Stats × Pc
  | .start =>
    match kpmStatsHookSlot h.hook with
    | none => (t, .ignored)
    | some _ => if h.uid = 0 then (t, .missed) else (t, .next 0)
  | .load probe =>
    let i := probeSlot h.uid probe
    let owner := t.uids i
    if owner = h.uid then (t, .add i)
    -- A slot of another uid is passed, and a free one claimed in the next step.
    else if owner ≠ 0 then (t, .next (probe + 1))
    else (t, .cas probe)
  | .cas probe =>
    let i := probeSlot h.uid probe
    if t.uids i = 0 then (t.claim i h.uid, .add i) else (t, .reload probe)
  | .reload probe =>
    -- A competing first hit claimed the slot; it may be of the same uid.
    let i := probeSlot h.uid probe
    if t.uids i = h.uid then (t, .add i) else (t, .next (probe + 1))
  | .add i =>
    match kpmStatsHookSlot h.hook with
    | none => (t, .ignored)
    | some hook => (t.bump i hook, .counted i)
  | .counted i => (t, .counted i)
  | .missed => (t, .missed)
  | .ignored => (t, .ignored)

/-- The table and its users. -/
structure Race (ι : Type*) where
  stats : Stats
  pc : ι → Pc

variable {ι : Type*}

/-- An empty table, and nobody has begun. -/
def Race.init : Race ι := ⟨⟨fun _ => 0, fun _ _ => 0⟩, fun _ => .start⟩

section

variable [DecidableEq ι] (hits : ι → Hit)

/-- A step of the execution `e`. -/
def Race.step (s : Race ι) (e : ι) : Race ι :=
  let (t, pc) := (hits e).step s.stats (s.pc e)
  ⟨t, Function.update s.pc e pc⟩

/-- The steps of a schedule. -/
def Race.run (s : Race ι) (schedule : List ι) : Race ι := schedule.foldl (Race.step hits) s

end

/-! ## What a step does -/

variable {h : Hit} {t : Stats} {pc : Pc}

/-- A step leaves the owners as they are, or claims the free slot it is at. -/
theorem Hit.step_uids (h : Hit) (t : Stats) (pc : Pc) :
    (h.step t pc).1.uids = t.uids ∨
      ∃ probe, pc = .cas probe ∧ t.uids (probeSlot h.uid probe) = 0 ∧
        h.step t pc = (t.claim (probeSlot h.uid probe) h.uid, .add (probeSlot h.uid probe)) := by
  cases pc with
  | cas probe =>
    by_cases hfree : t.uids (probeSlot h.uid probe) = 0
    · exact .inr ⟨probe, rfl, hfree, if_pos hfree⟩
    · exact .inl (by simp only [step, if_neg hfree])
  | start =>
    left
    simp only [step]
    split
    · rfl
    · split_ifs <;> rfl
  | load probe =>
    left
    simp only [step]
    split_ifs <;> rfl
  | reload probe =>
    left
    simp only [step]
    split_ifs <;> rfl
  | add i =>
    left
    simp only [step]
    split <;> rfl
  | counted i => exact .inl rfl
  | missed => exact .inl rfl
  | ignored => exact .inl rfl

/-- A step leaves the counters as they are and counts nothing, or counts one hit. -/
theorem Hit.step_counts (h : Hit) (t : Stats) (pc : Pc) :
    ((h.step t pc).1.counts = t.counts ∧ ∀ i, (h.step t pc).2 = .counted i ↔ pc = .counted i) ∨
      ∃ i hook, pc = .add i ∧ kpmStatsHookSlot h.hook = some hook ∧
        h.step t pc = (t.bump i hook, .counted i) := by
  have hnext : ∀ probe i, Pc.next probe ≠ .counted i := by
    intro probe i
    rw [Pc.next]
    split_ifs <;> exact Pc.noConfusion
  cases pc with
  | start =>
    left
    simp only [step]
    split
    · simp
    · split_ifs <;> simp [hnext]
  | load probe =>
    left
    simp only [step]
    split_ifs <;> simp [hnext]
  | cas probe =>
    left
    simp only [step]
    split_ifs <;> simp [Stats.claim]
  | reload probe =>
    left
    simp only [step]
    split_ifs <;> simp [hnext]
  | add i =>
    cases hslot : kpmStatsHookSlot h.hook with
    | none => exact .inl (by simp [step, hslot])
    | some hook => exact .inr ⟨i, hook, rfl, rfl, by simp only [step, hslot]⟩
  | counted i => exact .inl ⟨rfl, fun _ => Iff.rfl⟩
  | missed => exact .inl ⟨rfl, fun _ => Iff.rfl⟩
  | ignored => exact .inl ⟨rfl, fun _ => Iff.rfl⟩

/-! ## The invariant -/

/-- What an execution may rely on. -/
def Pc.Ok (h : Hit) (uids : Slot → UInt32) : Pc → Prop
  | .start => True
  | .load probe => h.uid ≠ 0 ∧ Passed 0 probeSlot uids h.uid probe
  | .cas probe => h.uid ≠ 0 ∧ Passed 0 probeSlot uids h.uid probe
  | .reload probe =>
    h.uid ≠ 0 ∧ Passed 0 probeSlot uids h.uid probe ∧ uids (probeSlot h.uid probe) ≠ 0
  | .add i => h.uid ≠ 0 ∧ uids i = h.uid
  | .counted i => h.uid ≠ 0 ∧ uids i = h.uid
  | .missed => h.uid ≠ 0 → ∀ i, Other 0 uids h.uid i
  | .ignored => True

/-- Each slot is probed at some time. -/
theorem exists_probeSlot_eq (uid : UInt32) (i : Slot) :
    ∃ q < maxTargetUids, probeSlot uid q = i := by
  obtain ⟨i, hi⟩ := i
  have hfirst : (uid * 2654435761 % 160).toNat < 160 := by
    rw [UInt32.toNat_mod]
    exact Nat.mod_lt _ (by decide)
  have hmax : maxTargetUids = 160 := rfl
  simp only [probeSlot, Fin.mk.injEq, hmax] at hi ⊢
  generalize (uid * 2654435761 % 160).toNat = first at hfirst
  rcases Nat.lt_or_ge i first with hlt | hge
  · exact ⟨i + 160 - first, by omega, by omega⟩
  · exact ⟨i - first, by omega, by omega⟩

/-- At the end of the probe sequence all slots have been passed. -/
theorem Pc.Ok.next {uids : Slot → UInt32} {probe : ℕ} (h0 : h.uid ≠ 0)
    (hp : Passed 0 probeSlot uids h.uid probe) : (Pc.next probe).Ok h uids := by
  rw [Pc.next]
  split_ifs with hlt
  · exact ⟨h0, hp⟩
  · intro _
    exact Passed.all (n := probe) hp fun i => by
      obtain ⟨q, hq, hqi⟩ := exists_probeSlot_eq h.uid i
      exact ⟨q, hq.trans_le (not_lt.1 hlt), hqi⟩

/-- What one execution relies on is not spoiled by the claim of another. -/
theorem Pc.Ok.claim {uids : Slot → UInt32} {i : Slot} (uid : UInt32) (hfree : uids i = 0)
    (hok : pc.Ok h uids) : pc.Ok h (Function.update uids i uid) := by
  cases pc with
  | start => trivial
  | load probe => exact ⟨hok.1, hok.2.claim hfree⟩
  | cas probe => exact ⟨hok.1, hok.2.claim hfree⟩
  | reload probe =>
    refine ⟨hok.1, hok.2.1.claim hfree, ?_⟩
    rw [update_of_owned hfree hok.2.2]
    exact hok.2.2
  | add j => exact ⟨hok.1, (update_of_owned hfree (hok.2 ▸ hok.1)).trans hok.2⟩
  | counted j => exact ⟨hok.1, (update_of_owned hfree (hok.2 ▸ hok.1)).trans hok.2⟩
  | missed => exact fun h0 j => (hok h0 j).claim hfree
  | ignored => trivial

/-- A step that claims nothing. -/
theorem Pc.Ok.step (hok : pc.Ok h t.uids) (heq : (h.step t pc).1.uids = t.uids) :
    (h.step t pc).2.Ok h t.uids := by
  cases pc with
  | start =>
    simp only [Hit.step]
    split
    · trivial
    · split_ifs with h0
      · exact fun hne => absurd h0 hne
      · exact Pc.Ok.next h0 (Passed.zero _)
  | load probe =>
    obtain ⟨h0, hp⟩ := hok
    simp only [Hit.step]
    split_ifs with hown hne
    · exact ⟨h0, hown⟩
    · exact Pc.Ok.next h0 (hp.succ ⟨hne, hown⟩)
    · exact ⟨h0, hp⟩
  | cas probe =>
    obtain ⟨h0, hp⟩ := hok
    simp only [Hit.step] at heq ⊢
    split_ifs at heq ⊢ with hfree
    · -- The claim would show in the table.
      have hclaim := congrFun heq (probeSlot h.uid probe)
      simp only [Stats.claim, Function.update_self, hfree] at hclaim
      exact absurd hclaim h0
    · exact ⟨h0, hp, hfree⟩
  | reload probe =>
    obtain ⟨h0, hp, hne⟩ := hok
    simp only [Hit.step]
    split_ifs with hown
    · exact ⟨h0, hown⟩
    · exact Pc.Ok.next h0 (hp.succ ⟨hne, hown⟩)
  | add i =>
    simp only [Hit.step]
    split
    · trivial
    · exact hok
  | counted i => exact hok
  | missed => exact hok
  | ignored => trivial

section

variable [Fintype ι] [DecidableEq ι] {hits : ι → Hit} {s : Race ι}

/-- The executions that have been counted in a cell. -/
def Race.countedIn (hits : ι → Hit) (s : Race ι) (i : Slot) (hook : Fin kpmStatsHookCount) :
    Finset ι :=
  Finset.univ.filter fun e => s.pc e = .counted i ∧ kpmStatsHookSlot (hits e).hook = some hook

/-- The invariant of the race: keys sit in their probe sequences behind others, each
    execution finds what it relies on, and the counters are the hits counted. -/
structure Race.Inv (hits : ι → Hit) (s : Race ι) : Prop where
  placed : Placed 0 probeSlot s.stats.uids
  ok : ∀ e, (s.pc e).Ok (hits e) s.stats.uids
  counts : ∀ i hook, s.stats.counts i hook = (s.countedIn hits i hook).card.toUInt64

omit [DecidableEq ι] in

/-- The invariant holds at the start. -/
theorem Race.Inv.init : Race.Inv hits (Race.init : Race ι) where
  placed := fun i hi => absurd rfl hi
  ok := fun _ => trivial
  counts := by
    intro i hook
    have hempty : (Race.init : Race ι).countedIn hits i hook = ∅ := by
      simp [Race.countedIn, Race.init]
    rw [hempty]
    rfl

/-- The owners after a step. -/
theorem Race.Inv.step_uids (hs : s.Inv hits) (e : ι) :
    Placed 0 probeSlot (s.step hits e).stats.uids ∧
      ∀ e', ((s.step hits e).pc e').Ok (hits e') (s.step hits e).stats.uids := by
  have hoke := hs.ok e
  rcases (hits e).step_uids s.stats (s.pc e) with heq | ⟨probe, hpc, hfree, hstep⟩
  -- Only `e` has moved, or it has claimed a slot that was free to all.
  · have huids : (s.step hits e).stats.uids = s.stats.uids := heq
    rw [huids]
    refine ⟨hs.placed, fun e' => ?_⟩
    by_cases he : e' = e
    · subst he
      simpa only [Race.step, Function.update_self] using hoke.step heq
    · simpa only [Race.step, Function.update_of_ne he] using hs.ok e'
  · rw [hpc] at hoke
    simp only [Race.step, hstep]
    refine ⟨hs.placed.claim hoke.2 hfree, fun e' => ?_⟩
    by_cases he : e' = e
    · subst he
      rw [Function.update_self]
      exact ⟨hoke.1, Function.update_self _ _ _⟩
    · rw [Function.update_of_ne he]
      exact (hs.ok e').claim _ hfree

/-- The counters after a step. -/
theorem Race.Inv.step_counts (hs : s.Inv hits) (e : ι) (i : Slot) (hook : Fin kpmStatsHookCount) :
    (s.step hits e).stats.counts i hook =
      ((s.step hits e).countedIn hits i hook).card.toUInt64 := by
  rcases (hits e).step_counts s.stats (s.pc e) with ⟨heq, hiff⟩ | ⟨j, hook', hpc, hslot, hstep⟩
  -- Nothing is counted, or `e` is, in one cell.
  · have hset : (s.step hits e).countedIn hits i hook = s.countedIn hits i hook := by
      refine Finset.filter_congr fun e' _ => and_congr_left' ?_
      by_cases he : e' = e
      · subst he
        simpa only [Race.step, Function.update_self] using hiff i
      · simp only [Race.step, Function.update_of_ne he]
    rw [hset]
    exact (congrFun (congrFun heq i) hook).trans (hs.counts i hook)
  · by_cases hcell : i = j ∧ hook = hook'
    · obtain ⟨rfl, rfl⟩ := hcell
      have hnot : e ∉ s.countedIn hits i hook := by simp [Race.countedIn, hpc]
      have hset : (s.step hits e).countedIn hits i hook = insert e (s.countedIn hits i hook) := by
        ext e'
        by_cases he : e' = e
        · subst he
          simp [Race.countedIn, Race.step, hstep, hslot]
        · simp [Race.countedIn, Race.step, hstep, he]
      rw [hset, Finset.card_insert_of_notMem hnot]
      simp only [Race.step, hstep, Stats.bump, Function.update_self, hs.counts i hook]
      exact (UInt64.ofNat_add _ 1).symm
    · have hset : (s.step hits e).countedIn hits i hook = s.countedIn hits i hook := by
        refine Finset.filter_congr fun e' _ => ?_
        by_cases he : e' = e
        · subst he
          have hne : ¬(Pc.counted j = .counted i ∧ some hook' = some hook) := by
            rintro ⟨hj, hhook⟩
            exact hcell ⟨(Pc.counted.inj hj).symm, (Option.some.inj hhook).symm⟩
          simp only [Race.step, hstep, Function.update_self, hslot]
          exact iff_of_false hne (by simp [hpc])
        · simp only [Race.step, Function.update_of_ne he]
      have hcount : (s.step hits e).stats.counts i hook = s.stats.counts i hook := by
        simp only [Race.step, hstep, Stats.bump, Function.update_apply]
        split_ifs <;> grind
      rw [hset, hcount, hs.counts i hook]

/-- Every step keeps the invariant. -/
theorem Race.Inv.step (hs : s.Inv hits) (e : ι) : (s.step hits e).Inv hits :=
  ⟨(hs.step_uids e).1, (hs.step_uids e).2, hs.step_counts e⟩

theorem Race.Inv.run (hs : s.Inv hits) (schedule : List ι) : (s.run hits schedule).Inv hits := by
  induction schedule generalizing s with
  | nil => exact hs
  | cons e schedule ih => exact ih (hs.step e)

omit [Fintype ι] in
/-- A step takes no slot away. -/
theorem Race.step_owner (s : Race ι) (e : ι) {i : Slot} (hi : s.stats.uids i ≠ 0) :
    (s.step hits e).stats.uids i = s.stats.uids i := by
  rcases (hits e).step_uids s.stats (s.pc e) with heq | ⟨probe, -, hfree, hstep⟩
  · exact congrFun heq i
  · simp only [Race.step, hstep]
    exact update_of_owned hfree hi

omit [Fintype ι] in
/-- An owner never changes. -/
theorem Race.run_owner (s : Race ι) (schedule : List ι) {i : Slot} (hi : s.stats.uids i ≠ 0) :
    (s.run hits schedule).stats.uids i = s.stats.uids i := by
  induction schedule generalizing s with
  | nil => rfl
  | cons e schedule ih =>
    have hstep : (s.step hits e).stats.uids i = s.stats.uids i := s.step_owner e hi
    exact (ih (s.step hits e) (hstep ▸ hi)).trans hstep

/-- The executions that have counted a hit of a hook by a uid. -/
def Race.completed (hits : ι → Hit) (s : Race ι) (uid : UInt32) (hook : Fin kpmStatsHookCount) :
    Finset ι :=
  Finset.univ.filter fun e =>
    (∃ i, s.pc e = .counted i) ∧ (hits e).uid = uid ∧ kpmStatsHookSlot (hits e).hook = some hook

omit [DecidableEq ι] in
/-- All hits of a uid are counted in the cells of one slot. -/
theorem Race.Inv.countedIn_eq (hs : s.Inv hits) (i : Slot) (hook : Fin kpmStatsHookCount) :
    s.countedIn hits i hook = s.completed hits (s.stats.uids i) hook := by
  refine Finset.filter_congr fun e _ => ?_
  have hok := hs.ok e
  constructor
  · rintro ⟨hpc, hslot⟩
    rw [hpc] at hok
    exact ⟨⟨i, hpc⟩, hok.2.symm, hslot⟩
  · rintro ⟨⟨j, hpc⟩, huid, hslot⟩
    rw [hpc] at hok
    obtain rfl : j = i := hs.placed.unique (hok.2.trans huid) (hok.2 ▸ hok.1)
    exact ⟨hpc, hslot⟩

end

/-- In every state that any schedule of any number of hits leads to, a uid owns at most one
    slot, a lookup has failed only if all slots are owned by others, and a counter is the
    number of hits that have been counted for its uid and its hook; and no slot changes its
    owner later. -/
theorem race_safe [Fintype ι] [DecidableEq ι] (hits : ι → Hit) (schedule : List ι) :
    let s := Race.init.run hits schedule
    (∀ i j, s.stats.uids i = s.stats.uids j → s.stats.uids i ≠ 0 → i = j) ∧
    (∀ i, s.stats.uids i ≠ 0 → ∀ later, (s.run hits later).stats.uids i = s.stats.uids i) ∧
    (∀ e, s.pc e = .missed → (hits e).uid ≠ 0 →
      ∀ i, s.stats.uids i ≠ 0 ∧ s.stats.uids i ≠ (hits e).uid) ∧
    ∀ i hook, s.stats.counts i hook = (s.completed hits (s.stats.uids i) hook).card.toUInt64 := by
  intro s
  have hs : s.Inv hits := Race.Inv.init.run schedule
  refine ⟨fun i j hij hi => hs.placed.unique hij hi, fun i hi later => s.run_owner later hi,
    fun e hpc h0 => ?_, fun i hook => ?_⟩
  · -- A thread that has given up has passed every slot, and each was owned by another.
    have hok := hs.ok e
    rw [hpc] at hok
    exact hok h0
  · rw [hs.counts i hook, hs.countedIn_eq i hook]

end VpnHide.Kpm

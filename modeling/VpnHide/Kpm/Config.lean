import VpnHide.Kmod.Config
import VpnHide.Protocol.Hooks

/-!
# The live config of the KPM

The KPM (`kmod/kpm/vpnhide_kpm.c`) keeps the config in fixed arrays, written in place
by `applyConfig` behind a sequence lock, and read by `hookActive` on every hooked call.
A smaller config leaves the entries of a larger one behind it; what is live is cut
off by `nrTargets`. The gate `activeHookMask` spares the lookup when no uid has the
hook.

Between two calls the arrays *hold* the last accepted snapshot (`Holds`): each call
keeps that (`holds_applyConfig`), hence so does every run (`holds_run`), and a lookup
in arrays that hold a snapshot answers what the snapshot says (`hookActive_eq`). In
terms of the wires alone this is `hookActive_run`.
-/

namespace VpnHide.Kpm

open Lib Protocol

/-! ## The state and its writer -/

/-- The static data of the module, as far as the config is concerned. -/
structure State where
  targetUids : ℕ → UInt32
  targetMasks : ℕ → UInt32
  /-- The array into which a payload is parsed. -/
  configStaging : ℕ → Target
  configStagingWriter : UInt32
  nrTargets : ℤ
  defaultHookmask : UInt32
  activeHookMask : UInt32
  /-- Even when stable, odd when a writer is at work. -/
  cfgSeq : UInt32
  cfgWriter : UInt32
  debugEnabled : Bool

namespace State

variable (s : State)

/-- The disjunction of the masks of the first `count` targets and of the default. -/
def computeActiveHookMask (count : ℕ) : UInt32 :=
  (List.range count).foldl (fun mask i => mask ||| s.targetMasks i) s.defaultHookmask

/-- A writer of the config begins, if there is no other. -/
def cfgTryWriteBegin : Option State :=
  if s.cfgWriter = 0 then some { s with cfgWriter := 1, cfgSeq := s.cfgSeq + 1 } else none

/-- A writer of the config ends. -/
def cfgWriteEnd : State := { s with cfgSeq := s.cfgSeq + 1, cfgWriter := 0 }

/-- The staging buffer is claimed, if nobody has it. -/
def configStagingTryClaim : Option State :=
  if s.configStagingWriter = 0 then some { s with configStagingWriter := 1 } else none

/-- The staging buffer is given back. -/
def configStagingRelease : State := { s with configStagingWriter := 0 }

/-- The hooks that a config may enable here. -/
def ownMask : UInt32 := kernelHookMask ||| kpmHookMask

/-- Copying the first `n` parsed targets into the live arrays. -/
def copyTargets : ℕ → State
  | 0 => s
  | i + 1 =>
    let s := copyTargets i
    { s with
      targetUids := Function.update s.targetUids i (s.configStaging i).uid
      targetMasks := Function.update s.targetMasks i ((s.configStaging i).hookmask &&& ownMask) }

/-- Parsing a wire, and making it the live config: `0`, or `-1` if it is rejected and
    `-2` if another writer is at work. -/
def applyConfig (wire : Bytes) : ℤ × State :=
  match s.configStagingTryClaim with
  | none => (-2, s)
  | some s =>
    let r := Kmod.parseConfig wire s.configStaging maxTargetUids (-1) 0
    let s := { s with configStaging := r.out }
    if r.ret < 0 then (-1, s.configStagingRelease)
    else
      match s.cfgTryWriteBegin with
      | none => (-2, s.configStagingRelease)
      | some s =>
        -- Readers see the old config until here, and retry until the write ends.
        let s := s.copyTargets r.ret.toNat
        let s := { s with nrTargets := r.ret, defaultHookmask := r.defaultMask &&& ownMask }
        let s := { s with activeHookMask := s.computeActiveHookMask r.ret.toNat }
        let s := if 0 ≤ r.debug then { s with debugEnabled := r.debug ≠ 0 } else s
        (0, s.cfgWriteEnd.configStagingRelease)

/-- Applying wires one after another. -/
def run (wires : List Bytes) : State := wires.foldl (fun s wire => (s.applyConfig wire).2) s

end State

/-! ## Lookups -/

/-- The first uid that is an app's. -/
def firstAppUid : UInt32 := 10000

/-- The uids of a user begin at the multiples of this. -/
def perUserRange : UInt32 := 100000

/-- A reader of the config tries so often. -/
def cfgReadAttempts : ℕ := 4

/-- The mask found for a uid by bisection, or the default. -/
def State.lookup (s : State) (uid : UInt32) : UInt32 :=
  match bisect s.targetUids uid 0 (s.nrTargets - 1) with
  | .hit mid => s.targetMasks mid
  | .miss _ => s.defaultHookmask

/-- Reading under the sequence lock, with some attempts left. No writer is at work, so
    that the state does not change between the reads. -/
def State.tryRead (s : State) (uid bit : UInt32) : ℕ → Bool
  | 0 => false
  | attempts + 1 =>
    let s₁ := s.cfgSeq
    -- An odd sequence number: a writer is at work.
    if s₁ &&& 1 ≠ 0 then s.tryRead uid bit attempts
    else
      let result := if s.activeHookMask &&& bit ≠ 0 then s.lookup uid &&& bit ≠ 0 else false
      let s₂ := s.cfgSeq
      if s₁ = s₂ then result else s.tryRead uid bit attempts

/-- Whether a hook is enabled for the calling uid. -/
def State.hookActive (s : State) (uid : UInt32) (hook : HookId) : Bool :=
  let bit := hookBit hook
  -- Below the app range a uid is an identity of the platform, and never a target.
  if uid % perUserRange < firstAppUid then false else s.tryRead uid bit cfgReadAttempts

/-! ## What a lookup should answer -/

/-- The mask a snapshot gives to a uid. -/
def maskOf (cfg : Config) (uid : UInt32) : UInt32 :=
  ((cfg.targets.find? fun t => t.uid = uid).map (·.hookmask)).getD cfg.defaultMask

/-- The mask some records give to a uid: that of its last occurrence, or else the last
    default, or else none. -/
def assignedMask (rs : List Record) (uid : UInt32) : UInt32 :=
  (((assignments rs).reverse.find? fun t => t.uid = uid).map (·.hookmask)).getD
    ((rs.filterMap Record.default?).getLast?.getD 0)

/-- The mask of a uid is what the records assign to it. -/
theorem maskOf_meaning (rs : List Record) (uid : UInt32) :
    maskOf (meaning rs) uid = assignedMask rs uid := by
  rw [maskOf, assignedMask]
  change (((writeTargets [] (assignments rs)).find? fun t => decide (t.uid = uid)).map _).getD _ = _
  rw [writeTargets, find?_foldl_upsert uid]
  simp [meaning]

/-! ## Arrays that hold a snapshot -/

/-- Between two calls: no writer is at work, and the arrays hold the snapshot `cfg`,
    restricted to the hooks of the module. -/
structure Holds (s : State) (cfg : Config) : Prop where
  sorted : SortedBy Target.uid cfg.targets
  released : s.configStagingWriter = 0
  free : s.cfgWriter = 0
  stable : s.cfgSeq &&& 1 = 0
  count : s.nrTargets = cfg.targets.length
  uids : cells s.targetUids cfg.targets.length = cfg.targets.map (·.uid)
  masks : cells s.targetMasks cfg.targets.length = cfg.targets.map (·.hookmask &&& State.ownMask)
  default : s.defaultHookmask = cfg.defaultMask &&& State.ownMask
  active : s.activeHookMask =
    (cfg.targets.map (·.hookmask &&& State.ownMask)).foldl (· ||| ·) s.defaultHookmask

variable {s : State} {cfg : Config} {wire : Bytes}

/-- The cells before `nrTargets` are what is looked up, and no others. -/
theorem Holds.lookup (h : Holds s cfg) (uid : UInt32) :
    s.lookup uid = maskOf cfg uid &&& State.ownMask := by
  have huid : ∀ i (hi : i < cfg.targets.length), s.targetUids i = cfg.targets[i].uid := by
    intro i hi
    have := congrArg (·[i]?) h.uids
    simpa [cells, hi] using this
  have hmask : ∀ i (hi : i < cfg.targets.length),
      s.targetMasks i = cfg.targets[i].hookmask &&& State.ownMask := by
    intro i hi
    have := congrArg (·[i]?) h.masks
    simpa [cells, hi] using this
  -- The bisection needs the live cells only, and these ascend.
  have hsorted : ∀ i j, i < j → j < cfg.targets.length → s.targetUids i < s.targetUids j := by
    intro i j hij hj
    rw [huid i (hij.trans hj), huid j hj]
    exact List.pairwise_iff_getElem.1 h.sorted i j (hij.trans hj) hj hij
  have hspec := bisect_spec hsorted uid
  rw [State.lookup, h.count, maskOf]
  cases hf : bisect s.targetUids uid 0 (cfg.targets.length - 1) with
  | hit i =>
    rw [hf] at hspec
    obtain ⟨hi, heq⟩ := hspec
    rw [find?_eq_some_getElem h.sorted hi ((huid i hi).symm.trans heq)]
    exact hmask i hi
  | miss i =>
    rw [hf] at hspec
    obtain ⟨-, hlt, hgt⟩ := hspec
    have hnone : cfg.targets.find? (fun t => decide (t.uid = uid)) = none := by
      refine List.find?_eq_none.2 fun t ht => ?_
      obtain ⟨j, hj, rfl⟩ := List.mem_iff_getElem.1 ht
      rw [← huid j hj, decide_eq_true_eq]
      rcases Nat.lt_or_ge j i with hji | hij
      · exact (hlt j hji).ne
      · exact (hgt j hij hj).ne'
    rw [hnone]
    exact h.default

/-- The gate is open whenever a lookup would find the bit. -/
theorem Holds.gate (h : Holds s cfg) {uid bit : UInt32} (hb : s.lookup uid &&& bit ≠ 0) :
    s.activeHookMask &&& bit ≠ 0 := by
  rw [h.active]
  refine fun hz => hb ?_
  obtain ⟨hdef, hall⟩ := (foldl_or_and_eq_zero _ _ _).1 hz
  rw [h.lookup, maskOf]
  cases hf : cfg.targets.find? fun t => decide (t.uid = uid) with
  | none => exact h.default ▸ hdef
  | some t => exact hall _ (List.mem_map_of_mem (List.mem_of_find?_eq_some hf))

/-- A lookup answers what the snapshot says. -/
theorem hookActive_eq (h : Holds s cfg) (uid : UInt32) (hook : HookId) :
    s.hookActive uid hook = true ↔ firstAppUid ≤ uid % perUserRange ∧
      maskOf cfg uid &&& State.ownMask &&& hookBit hook ≠ 0 := by
  rw [State.hookActive, cfgReadAttempts, State.tryRead]
  simp only [h.stable, ne_eq, not_true_eq_false, if_false, if_true, ← h.lookup]
  by_cases huid : uid % perUserRange < firstAppUid
  · rw [if_pos huid]
    simpa using fun hle : firstAppUid ≤ uid % perUserRange => absurd huid (not_lt.2 hle)
  · rw [if_neg huid]
    -- A closed gate answers what the lookup would have.
    by_cases hgate : s.activeHookMask &&& hookBit hook = 0
    · have hb : s.lookup uid &&& hookBit hook = 0 := by_contra fun hb => h.gate hb hgate
      simp [hgate, hb]
    · simp [hgate, not_lt.1 huid]

/-! ## What a call does -/

/-- Copying writes the first cells of the live arrays, and nothing else. -/
theorem copyTargets_eq (s : State) (n : ℕ) : ∃ uids masks, s.copyTargets n =
    { s with targetUids := uids, targetMasks := masks } ∧
    cells uids n = (cells s.configStaging n).map (·.uid) ∧
    cells masks n = (cells s.configStaging n).map (·.hookmask &&& State.ownMask) := by
  induction n with
  | zero => exact ⟨_, _, rfl, rfl, rfl⟩
  | succ n ih =>
    obtain ⟨uids, masks, hs, huids, hmasks⟩ := ih
    refine ⟨_, _, by rw [State.copyTargets, hs], ?_, ?_⟩
    · simp [cells_succ, cells_update_of_le, huids]
    · simp [cells_succ, cells_update_of_le, hmasks]

/-- The active mask is that of all cells together. -/
theorem computeActiveHookMask_eq (s : State) (n : ℕ) :
    s.computeActiveHookMask n = (cells s.targetMasks n).foldl (· ||| ·) s.defaultHookmask := by
  rw [State.computeActiveHookMask, cells, List.foldl_map]

/-- A rejected wire leaves the live config and the debug flag as they were. -/
theorem applyConfig_of_none (h : Holds s cfg) (hw : parseConfig wire = none) :
    ∃ staging, s.applyConfig wire = (-1, { s with configStaging := staging }) := by
  have hret := Kmod.parseConfig_of_none hw s.configStaging 0
  refine ⟨(Kmod.parseConfig wire s.configStaging maxTargetUids (-1) 0).out, ?_⟩
  rw [State.applyConfig, State.configStagingTryClaim, if_pos h.released]
  dsimp only
  rw [if_pos (by rw [hret]; decide)]
  simp [State.configStagingRelease, h.released]

/-- An accepted wire becomes the live config. -/
theorem applyConfig_of_some (h : Holds s cfg) {cfg' : Config} (hw : parseConfig wire = some cfg') :
    (s.applyConfig wire).1 = 0 ∧ Holds (s.applyConfig wire).2 cfg' := by
  obtain ⟨out, hr, hcells, hsorted⟩ := Kmod.parseConfig_of_some hw s.configStaging 0
  rw [State.applyConfig, State.configStagingTryClaim, if_pos h.released]
  dsimp only
  rw [hr]
  dsimp only
  rw [if_neg (by omega), State.cfgTryWriteBegin, if_pos h.free, Int.toNat_natCast]
  dsimp only
  obtain ⟨uids, masks, hcopy, huids, hmasks⟩ := copyTargets_eq
    { s with
      configStagingWriter := 1, configStaging := out, cfgWriter := 1, cfgSeq := s.cfgSeq + 1 }
    cfg'.targets.length
  rw [hcopy, computeActiveHookMask_eq]
  rw [hcells] at huids hmasks
  refine ⟨rfl, ?_⟩
  dsimp only
  -- The debug flag is set or not, which does not matter here.
  split_ifs <;> exact
    { sorted := hsorted
      released := rfl
      free := rfl
      stable := (add_one_add_one_and_one _).trans h.stable
      count := rfl
      uids := huids
      masks := hmasks
      default := rfl
      active := by rw [← hmasks]; rfl }

/-! ## Runs -/

/-- The snapshot of the last accepted wire, or else the empty one. -/
def lastAccepted (wires : List Bytes) : Config :=
  (wires.filterMap parseConfig).getLast?.getD ⟨none, 0, []⟩

/-- The module as it is loaded: there are no targets, and the arrays are what they are. -/
structure State.IsInitial (s : State) : Prop where
  configStagingWriter : s.configStagingWriter = 0
  nrTargets : s.nrTargets = 0
  defaultHookmask : s.defaultHookmask = 0
  activeHookMask : s.activeHookMask = 0
  cfgSeq : s.cfgSeq = 0
  cfgWriter : s.cfgWriter = 0

/-- At the start nothing is held. -/
theorem State.IsInitial.holds (h : s.IsInitial) : Holds s ⟨none, 0, []⟩ where
  sorted := .nil
  released := h.configStagingWriter
  free := h.cfgWriter
  stable := by rw [h.cfgSeq]; rfl
  count := h.nrTargets
  uids := rfl
  masks := rfl
  default := h.defaultHookmask
  active := by rw [h.activeHookMask, h.defaultHookmask]; rfl

/-- Holding a snapshot does not depend on what is in the staging array. -/
theorem Holds.staging (h : Holds s cfg) (staging : ℕ → Target) :
    Holds { s with configStaging := staging } cfg := { h with }

/-- One call: the arrays hold the new snapshot if there is one, and the old one if not. -/
theorem holds_applyConfig (h : Holds s cfg) (wire : Bytes) :
    Holds (s.applyConfig wire).2 ((parseConfig wire).getD cfg) := by
  cases hw : parseConfig wire with
  | none =>
    obtain ⟨staging, hs⟩ := applyConfig_of_none h hw
    rw [hs]
    exact h.staging staging
  | some cfg' => exact (applyConfig_of_some h hw).2

/-- One more wire. -/
theorem run_append_singleton (s : State) (wires : List Bytes) (wire : Bytes) :
    s.run (wires ++ [wire]) = ((s.run wires).applyConfig wire).2 := by
  rw [State.run, List.foldl_append]
  rfl

/-- The last wire that is accepted. -/
theorem lastAccepted_append_singleton (wires : List Bytes) (wire : Bytes) :
    lastAccepted (wires ++ [wire]) = (parseConfig wire).getD (lastAccepted wires) := by
  rw [lastAccepted, List.filterMap_append]
  cases hw : parseConfig wire with
  | none => simp only [hw, List.filterMap_cons_none, List.filterMap_nil, List.append_nil]; rfl
  | some cfg => simp [hw]

/-- After any wires, the arrays hold the last accepted one. -/
theorem holds_run (h : s.IsInitial) (wires : List Bytes) :
    Holds (s.run wires) (lastAccepted wires) := by
  induction wires using List.reverseRecOn with
  | nil => exact h.holds
  | append_singleton wires wire ih =>
    rw [run_append_singleton, lastAccepted_append_singleton]
    exact holds_applyConfig ih wire

/-! ## In terms of the wires -/

/-- The wires that are accepted, of those applied one after another. -/
def State.accepted (s : State) : List Bytes → List Bytes
  | [] => []
  | wire :: wires =>
    if (s.applyConfig wire).1 = 0 then wire :: (s.applyConfig wire).2.accepted wires
    else (s.applyConfig wire).2.accepted wires

/-- The records of a wire. -/
def wireRecords (wire : Bytes) : List Record := (parseHeader wire).elim [] fun h => records h.2

/-- The mask that the last of some wires gives to a uid. -/
def liveMask (wires : List Bytes) (uid : UInt32) : UInt32 :=
  wires.getLast?.elim 0 fun wire => assignedMask (wireRecords wire) uid

/-- A call returns `0` exactly on what the crate `protocol` accepts. -/
theorem applyConfig_ret (h : Holds s cfg) (wire : Bytes) :
    (s.applyConfig wire).1 = 0 ↔ (parseConfig wire).isSome := by
  cases hw : parseConfig wire with
  | none =>
    obtain ⟨staging, hs⟩ := applyConfig_of_none h hw
    simp [hs]
  | some cfg' => simp [(applyConfig_of_some h hw).1]

/-- The wires that are accepted are those that can be read. -/
theorem accepted_eq (h : Holds s cfg) (wires : List Bytes) :
    s.accepted wires = wires.filter fun wire => (parseConfig wire).isSome := by
  induction wires generalizing s cfg with
  | nil => rfl
  | cons wire wires ih =>
    rw [State.accepted, ih (holds_applyConfig h wire), List.filter_cons]
    exact if_congr (applyConfig_ret h wire) rfl rfl

/-- The last accepted snapshot is what the records of the last accepted wire mean. -/
theorem maskOf_lastAccepted (h : s.IsInitial) (wires : List Bytes) (uid : UInt32) :
    maskOf (lastAccepted wires) uid = liveMask (s.accepted wires) uid := by
  rw [accepted_eq h.holds]
  induction wires using List.reverseRecOn with
  | nil => rfl
  | append_singleton wires wire ih =>
    rw [lastAccepted_append_singleton, List.filter_append]
    cases hw : parseConfig wire with
    | none => simpa [hw] using ih
    | some cfg =>
      obtain ⟨rest, hh, -, rfl⟩ := parseConfig_eq_some_iff.1 hw
      simp [hw, liveMask, wireRecords, hh, maskOf_meaning]

/-- Entries beyond `nrTargets` are never looked at. -/
theorem Holds.congr (h : Holds s cfg) {uids masks : ℕ → UInt32}
    (hu : ∀ i : ℕ, i < s.nrTargets → uids i = s.targetUids i)
    (hm : ∀ i : ℕ, i < s.nrTargets → masks i = s.targetMasks i) :
    Holds { s with targetUids := uids, targetMasks := masks } cfg :=
  { h with
    uids := by
      rw [← h.uids]
      exact List.map_congr_left fun i hi => hu i (by rw [h.count]; simpa using hi)
    masks := by
      rw [← h.masks]
      exact List.map_congr_left fun i hi => hm i (by rw [h.count]; simpa using hi) }

/-- After any wires, a hook is active for the apps whose mask, in the last accepted
    wire, has it among the hooks of the module. A rejected wire changes no lookup and not
    the debug flag, entries beyond `nrTargets` influence no lookup, and the gate
    suppresses none. -/
theorem hookActive_run (h : s.IsInitial) (wires : List Bytes) :
    (∀ uid hook, (s.run wires).hookActive uid hook = true ↔ firstAppUid ≤ uid % perUserRange ∧
      liveMask (s.accepted wires) uid &&& State.ownMask &&& hookBit hook ≠ 0) ∧
    (∀ wire, ((s.run wires).applyConfig wire).1 ≠ 0 →
      ((s.run wires).applyConfig wire).2.debugEnabled = (s.run wires).debugEnabled ∧
      ∀ uid hook, ((s.run wires).applyConfig wire).2.hookActive uid hook =
        (s.run wires).hookActive uid hook) ∧
    (∀ uids masks : ℕ → UInt32, (∀ i : ℕ, i < (s.run wires).nrTargets →
        uids i = (s.run wires).targetUids i ∧ masks i = (s.run wires).targetMasks i) →
      ∀ uid hook, { s.run wires with targetUids := uids, targetMasks := masks }.hookActive uid
        hook = (s.run wires).hookActive uid hook) ∧
    ∀ uid hook, (s.run wires).lookup uid &&& hookBit hook ≠ 0 →
      (s.run wires).activeHookMask &&& hookBit hook ≠ 0 := by
  have hrun := holds_run h wires
  refine ⟨fun uid hook => ?_, fun wire hret => ?_, fun uids masks hlive uid hook => ?_,
    fun uid hook => hrun.gate⟩
  · -- What a hook asks is a function of what the run last accepted.
    rw [hookActive_eq hrun, maskOf_lastAccepted h]
  · -- A wire that is refused changes nothing but the staging area.
    have hw : parseConfig wire = none := by
      simpa using fun hsome => hret ((applyConfig_ret hrun wire).2 hsome)
    obtain ⟨staging, hs⟩ := applyConfig_of_none hrun hw
    rw [hs]
    refine ⟨rfl, fun uid hook => ?_⟩
    rw [Bool.eq_iff_iff, hookActive_eq hrun, hookActive_eq (hrun.staging staging)]
  · -- Beyond the live entries the tables may hold anything: the search never looks there.
    have hrun' := hrun.congr (fun i hi => (hlive i hi).1) fun i hi => (hlive i hi).2
    rw [Bool.eq_iff_iff, hookActive_eq hrun, hookActive_eq hrun']

/-- A config that inverts the default, and then one with a single target. -/
theorem hookActive_run_two :
    let s : State := ⟨fun _ => 0, fun _ => 0, fun _ => ⟨0, 0⟩, 0, 0, 0, 0, 0, 0, false⟩
    let wires := [ascii "vpnhide 2 config\ndefault 1\ntargets 3 2711 2712\nend 2\n",
      ascii "vpnhide 2 config\ntargets 20 2712\nend 1\n",
      ascii "vpnhide 2 config\ntargets 1 2711\n"]
    s.IsInitial ∧ (s.run wires).hookActive 10002 .devIoctl = true ∧
      (s.run wires).hookActive 10001 .fibRouteSeqShow = false := by
  intro s wires
  have hs : s.IsInitial := ⟨rfl, rfl, rfl, rfl, rfl, rfl⟩
  refine ⟨hs, ((hookActive_run hs wires).1 _ _).2 (by decide +kernel), ?_⟩
  rw [← Bool.not_eq_true, (hookActive_run hs wires).1]
  decide +kernel

end VpnHide.Kpm

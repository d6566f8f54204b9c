import VpnHide.Kpm.Config
import VpnHide.Protocol.RoundTrip

/-!
# Three backends, one control semantics

The loadable module (`kmod/vpnhide_kmod.c`) and the built-in driver
(`builtin/security/vpnhide/core.c`) take their config from `/proc/vpnhide_ctl`
(`ctlWrite`), and the KPM takes it from a supercall (`Kpm.State.applyConfig`). They are
maintained apart: the debug flag is seeded before the parse or merged after it, the gate
is folded while the targets are copied or once they are, and a lookup takes a lock or
retries.

The state of the first two is laid into that of the KPM (`State.kpm`), where a lookup
answers the same (`hookActive_kpm`). A write then does what `applyConfig` does
(`holds_ctlWrite`), so that after any payloads the three hold one snapshot
(`backends_agree`). What the activator writes fits in the one page that
`/proc/vpnhide_ctl` takes (`length_formatConfig_le`).
-/

namespace VpnHide.Control

open Lib Protocol

/-! ## The control file -/

/-- The live config of a backend that has the control file. -/
structure State where
  targetUids : ℕ → UInt32
  targetMasks : ℕ → UInt32
  nrTargets : ℤ
  defaultHookmask : UInt32
  activeHookMask : UInt32
  debugEnabled : Bool

namespace State

/-- Static data is zero when the backend starts. -/
def zero : State := ⟨fun _ => 0, fun _ => 0, 0, 0, 0, false⟩

variable (ownedMask : UInt32) (s : State)

/-- Copying the first parsed targets into the live arrays, with the disjunction of
    their masks. -/
def copyTargets (newt : ℕ → Target) (mask : UInt32) : ℕ → State × UInt32
  | 0 => (s, mask)
  | i + 1 =>
    let (s, mask) := copyTargets newt mask i
    let targetMask := (newt i).hookmask &&& ownedMask
    ({ s with
        targetUids := Function.update s.targetUids i (newt i).uid
        targetMasks := Function.update s.targetMasks i targetMask }, mask ||| targetMask)

/-- The smallest page. -/
def pageSize : ℕ := 4096

/-- `EINVAL`. -/
def einval : ℤ := 22

/-- Writing a payload into the control file, by a backend that owns the hooks
    `ownedMask`: the number of bytes taken, or an error. Nothing else is written at
    the same time, memory is there, and the payload can be read. -/
def ctlWrite (buf : Bytes) : ℤ × State :=
  if pageSize < buf.length then (-einval, s)
  else
    -- The live value is the seed: no `debug` record leaves it unchanged.
    let dbg := if s.debugEnabled then 1 else 0
    let r := Kmod.parseConfig buf (fun _ => ⟨0, 0⟩) maxTargetUids dbg 0
    if r.ret < 0 then (-einval, s)
    else
      let defaultMask := r.defaultMask &&& ownedMask
      let (s, mask) := s.copyTargets ownedMask r.out defaultMask r.ret.toNat
      (buf.length,
        { s with
          nrTargets := r.ret
          defaultHookmask := defaultMask
          activeHookMask := mask
          debugEnabled := r.debug ≠ 0 })

/-- The mask of the hooks that are enabled for the calling uid. -/
def targetMask (uid : UInt32) : UInt32 :=
  if uid % Kpm.perUserRange < Kpm.firstAppUid then 0
  else
    match bisect s.targetUids uid 0 (s.nrTargets - 1) with
    | .hit mid => s.targetMasks mid
    | .miss _ => s.defaultHookmask

/-- Whether a hook is enabled for the calling uid, which holds a RAW lease of the
    diagnostics or not. -/
def hookActive (raw : Bool) (uid : UInt32) (hook : HookId) : Bool :=
  let bit := hookBit hook
  if s.activeHookMask &&& bit = 0 ∨ raw then false else s.targetMask uid &&& bit ≠ 0

end State

end VpnHide.Control

/-! ## The members -/

namespace VpnHide.Kmod

open Control Protocol

/-- `ctl_write` of the loadable module. -/
def ctlWrite : State → Bytes → ℤ × State := State.ctlWrite (kernelHookMask ||| kmodHookMask)

end VpnHide.Kmod

namespace VpnHide.Builtin

open Control Protocol

/-- `VPNHIDE_OWNED_HOOK_MASK`, with the filesystem hooks compiled in or not. -/
def ownedHookMask (fsHiding : Bool) : UInt32 :=
  if fsHiding then kernelHookMask ||| builtinHookMask else kernelHookMask

/-- `ctl_write` of the built-in driver. -/
def ctlWrite (fsHiding : Bool) : State → Bytes → ℤ × State :=
  State.ctlWrite (ownedHookMask fsHiding)

end VpnHide.Builtin

/-! ## The seed of the debug flag -/

namespace VpnHide.Kmod

open Lib Protocol

/-- A reader that started with `d` instead of `-1`. -/
def ParseState.seed (d : ℤ) (s : ParseState) : ParseState :=
  { s with debug := if s.debug = -1 then d else s.debug }

/-- The same, at the end. -/
def ParseResult.seed (d : ℤ) (r : ParseResult) : ParseResult :=
  { r with debug := if r.debug = -1 then d else r.debug }

/-- Mapping the state, whether the reader has given up or not. -/
def mapBoth {σ : Type*} (f : σ → σ) : Except σ σ → Except σ σ
  | .ok s => .ok (f s)
  | .error s => .error (f s)

variable {b : Bytes} {le max : ℕ} {d : ℤ}

/-- The reader of the uids, unfolded once. -/
theorem targetUids_of_some {hm : UInt32} {p ts te : ℕ} (h : nextToken b p le = some (ts, te))
    (s : ParseState) : targetUids b le max hm p s =
      (tokHexBare b ts te 32).elim (.error s) fun uid =>
        (targetSet s.out s.n max uid.toUInt32 hm).elim
          (.error { s with uidsSeen := s.uidsSeen + 1 }) fun r =>
            targetUids b le max hm te
              { s with uidsSeen := s.uidsSeen + 1, out := r.1, n := r.2 } := by
  rw [targetUids]
  split
  · simp_all
  · rename_i hn
    obtain ⟨rfl, rfl⟩ := Prod.mk.inj (Option.some.inj (h.symm.trans hn))
    cases tokHexBare b ts te 32 with
    | none => rfl
    | some uid => dsimp only; split <;> simp_all

/-- Uids are read alike from another start. -/
theorem targetUids_seed (hm : UInt32) (p : ℕ) (s : ParseState) :
    targetUids b le max hm p (s.seed d) = mapBoth (ParseState.seed d)
      (targetUids b le max hm p s) := by
  induction hw : le - p using Nat.strong_induction_on generalizing p s with
  | _ w ih =>
    cases hn : nextToken b p le with
    | none =>
      have hnone : ∀ s, targetUids b le max hm p s = .ok s := by
        intro s
        rw [targetUids]
        split
        · rfl
        · simp_all
      rw [hnone, hnone]
      rfl
    | some t =>
      obtain ⟨ts, te⟩ := t
      rw [targetUids_of_some hn, targetUids_of_some hn]
      cases tokHexBare b ts te 32 with
      | none => rfl
      | some uid =>
        simp only [Option.elim_some]
        change Option.elim (targetSet s.out s.n max uid.toUInt32 hm) _ _ = _
        cases targetSet s.out s.n max uid.toUInt32 hm with
        | none => rfl
        | some r =>
          exact ih _ (hw ▸ nextToken_lt hn) te
            { s with uidsSeen := s.uidsSeen + 1, out := r.1, n := r.2 } rfl

/-- Tokens are read alike from another start. -/
theorem parseTokens_seed (cs : ℕ) (s : ParseState) :
    parseTokens b max cs le (s.seed d) =
      mapBoth (ParseState.seed d) (parseTokens b max cs le s) := by
  simp only [parseTokens]
  split
  · rfl
  -- Of the four records, `debug` sets the flag and the others leave it.
  split_ifs
  · split
    · rfl
    · split_ifs <;> rfl
  · split
    · rfl
    · split <;> rfl
  · split
    · rfl
    · split
      · rfl
      · exact targetUids_seed ..
  · split
    · rfl
    · split <;> rfl
  · rfl

/-- One line of a loop. -/
theorem forLines_of_some {σ : Type*} {body : ℕ → ℕ → σ → Except σ σ} {i : ℕ} {l : Line}
    (h : nextLine b i = some l) (s : σ) : forLines b body i s =
      let c := lineSignificant b l.ls l.le
      if !c.significant || !c.ascii then forLines b body l.next s
      else body c.cs l.le s >>= forLines b body l.next := by
  rw [forLines]
  split
  · simp_all
  · rename_i l' hl
    obtain rfl := Option.some.inj (h.symm.trans hl)
    dsimp only
    split_ifs
    · rfl
    · split <;> simp_all [bind, Except.bind]

/-- A loop whose turns do not depend on the start. -/
theorem forLines_mapBoth {σ : Type*} {f : σ → σ} {body : ℕ → ℕ → σ → Except σ σ}
    (hf : ∀ cs le s, body cs le (f s) = mapBoth f (body cs le s)) (i : ℕ) (s : σ) :
    forLines b body i (f s) = mapBoth f (forLines b body i s) := by
  induction hw : b.length - i using Nat.strong_induction_on generalizing i s with
  | _ w ih =>
    cases hl : nextLine b i with
    | none =>
      have hnone : ∀ s, forLines b body i s = .ok s := by
        intro s
        rw [forLines]
        split
        · rfl
        · simp_all
      rw [hnone, hnone]
      rfl
    | some l =>
      have hnext : ∀ s, forLines b body l.next (f s) = mapBoth f (forLines b body l.next s) :=
        fun s => ih _ (hw ▸ nextLine_lt hl) l.next s rfl
      rw [forLines_of_some hl, forLines_of_some hl]
      dsimp only
      split_ifs
      · exact hnext s
      · rw [hf]
        cases body (lineSignificant b l.ls l.le).cs l.le s with
        | error s => rfl
        | ok s => exact hnext s

/-- Another seed of the flag is read back unless there is a `debug` record. -/
theorem parseConfig_seed (b : Bytes) (out : ℕ → Target) (max : ℕ) (d : ℤ) (defaultMask : UInt32) :
    parseConfig b out max d defaultMask = (parseConfig b out max (-1) defaultMask).seed d := by
  have hseed : (⟨out, 0, d, 0, 0, 0, false⟩ : ParseState) =
      ParseState.seed d ⟨out, 0, -1, 0, 0, 0, false⟩ := rfl
  simp only [parseConfig]
  by_cases hk : (parseHeader b).1 = some .config
  · rw [if_neg (not_not.2 hk), if_neg (not_not.2 hk), hseed,
      forLines_mapBoth fun cs le s => parseTokens_seed cs s]
    cases forLines b (parseTokens b max) (parseHeader b).2 ⟨out, 0, -1, 0, 0, 0, false⟩ with
    | error s => rfl
    | ok s =>
      dsimp only [mapBoth, ParseState.seed]
      by_cases hend : (!s.haveEnd || decide (s.declared ≠ s.uidsSeen)) = true
      · rw [if_pos hend, if_pos hend]
        rfl
      · rw [if_neg hend, if_neg hend]
        rfl
  · rw [if_pos hk, if_pos hk]
    rfl

end VpnHide.Kmod

/-! ## One snapshot -/

namespace VpnHide.Protocol

/-- A config without the hooks that a backend does not own. -/
def Config.ownedBy (ownedMask : UInt32) (cfg : Config) : Config :=
  ⟨cfg.debug, cfg.defaultMask &&& ownedMask, cfg.targets.map fun t =>
    ⟨t.uid, t.hookmask &&& ownedMask⟩⟩

/-- What a uid has of a config that is cut to a mask. -/
theorem maskOf_ownedBy (ownedMask : UInt32) (cfg : Config) (uid : UInt32) :
    Kpm.maskOf (cfg.ownedBy ownedMask) uid = Kpm.maskOf cfg uid &&& ownedMask := by
  have hfind : (cfg.ownedBy ownedMask).targets.find? (fun t => t.uid = uid) =
      (cfg.targets.find? fun t => t.uid = uid).map fun t => ⟨t.uid, t.hookmask &&& ownedMask⟩ :=
    List.find?_map ..
  rw [Kpm.maskOf, Kpm.maskOf, hfind]
  cases cfg.targets.find? fun t => t.uid = uid with
  | none => rfl
  | some t => rfl

end VpnHide.Protocol

namespace VpnHide.Control

open Lib Protocol

namespace State

/-- The live config, in the place of the KPM's. -/
def kpm (s : State) : Kpm.State :=
  ⟨s.targetUids, s.targetMasks, fun _ => ⟨0, 0⟩, 0, s.nrTargets, s.defaultHookmask,
    s.activeHookMask, 0, 0, s.debugEnabled⟩

variable {s : State} {buf : Bytes}

/-- Without a lease, a lookup answers what the KPM would. -/
theorem hookActive_kpm (s : State) (uid : UInt32) (hook : HookId) :
    s.hookActive false uid hook = s.kpm.hookActive uid hook := by
  have hseq : s.kpm.cfgSeq &&& 1 = 0 := by
    change (0 : UInt32) &&& 1 = 0
    decide
  have hactive : s.kpm.activeHookMask = s.activeHookMask := rfl
  rw [hookActive, Kpm.State.hookActive, Kpm.cfgReadAttempts, Kpm.State.tryRead, targetMask]
  simp only [hseq, hactive, ne_eq, not_true_eq_false, if_false, if_true,
    Bool.false_eq_true, or_false]
  by_cases hgate : s.activeHookMask &&& hookBit hook = 0
  · simp [hgate]
  · simp only [hgate, not_false_eq_true, if_true, if_false]
    by_cases huid : uid % Kpm.perUserRange < Kpm.firstAppUid
    · simp [huid]
    · simp only [huid, if_false]
      rfl

/-- Copying writes the first cells of the live arrays, and folds their masks. -/
theorem copyTargets_eq (ownedMask : UInt32) (s : State) (newt : ℕ → Target)
    (mask : UInt32) (n : ℕ) :
    ∃ uids masks, s.copyTargets ownedMask newt mask n =
      ({ s with targetUids := uids, targetMasks := masks }, (cells masks n).foldl (· ||| ·) mask) ∧
    cells uids n = (cells newt n).map (·.uid) ∧
    cells masks n = (cells newt n).map (·.hookmask &&& ownedMask) := by
  induction n with
  | zero => exact ⟨_, _, rfl, rfl, rfl⟩
  | succ n ih =>
    obtain ⟨uids, masks, hs, huids, hmasks⟩ := ih
    refine ⟨Function.update uids n (newt n).uid,
      Function.update masks n ((newt n).hookmask &&& ownedMask), ?_, ?_, ?_⟩
    · rw [copyTargets, hs]
      simp [cells_succ, cells_update_of_le]
    · simp [cells_succ, cells_update_of_le, huids]
    · simp [cells_succ, cells_update_of_le, hmasks]

/-- A rejected payload changes nothing. -/
theorem ctlWrite_of_none (ownedMask : UInt32) (hw : parseConfig buf = none) :
    s.ctlWrite ownedMask buf = (-einval, s) := by
  have hret : (Kmod.parseConfig buf (fun _ => ⟨0, 0⟩) maxTargetUids
      (if s.debugEnabled then 1 else 0) 0).ret = -1 := by
    rw [Kmod.parseConfig_seed]
    exact Kmod.parseConfig_of_none hw _ 0
  rw [ctlWrite]
  dsimp only
  rw [hret]
  split_ifs <;> trivial

/-- What an accepted payload of one page leaves. -/
theorem ctlWrite_eq_of_some (ownedMask : UInt32) (hlen : buf.length ≤ pageSize) {cfg' : Config}
    (hw : parseConfig buf = some cfg') :
    ∃ uids masks, s.ctlWrite ownedMask buf = ((buf.length : ℤ), (
      ⟨uids, masks, cfg'.targets.length, cfg'.defaultMask &&& ownedMask,
        (cells masks cfg'.targets.length).foldl (· ||| ·) (cfg'.defaultMask &&& ownedMask),
        cfg'.debug.getD s.debugEnabled⟩ : State)) ∧
    cells uids cfg'.targets.length = cfg'.targets.map (·.uid) ∧
    cells masks cfg'.targets.length = cfg'.targets.map (·.hookmask &&& ownedMask) ∧
    SortedBy Target.uid cfg'.targets := by
  obtain ⟨out, hr, hcells, hsorted⟩ := Kmod.parseConfig_of_some hw (fun _ => ⟨0, 0⟩) 0
  have hseed := Kmod.parseConfig_seed buf (fun _ => ⟨0, 0⟩) maxTargetUids
    (if s.debugEnabled then 1 else 0) 0
  rw [hr, Kmod.ParseResult.seed] at hseed
  obtain ⟨uids, masks, hcopy, huids, hmasks⟩ := copyTargets_eq ownedMask s out
    (cfg'.defaultMask &&& ownedMask) cfg'.targets.length
  rw [hcells] at huids hmasks
  refine ⟨uids, masks, ?_, huids, hmasks, hsorted⟩
  rw [ctlWrite, if_neg (not_lt.2 hlen)]
  dsimp only
  rw [hseed]
  dsimp only
  rw [if_neg (Int.not_lt.2 (Int.natCast_nonneg _)), Int.toNat_natCast, hcopy]
  dsimp only
  cases cfg'.debug with
  | none => cases s.debugEnabled <;> rfl
  | some d => cases d <;> cases s.debugEnabled <;> rfl

/-- An accepted payload of one page becomes the live config. -/
theorem ctlWrite_of_some (hlen : buf.length ≤ pageSize) {cfg' : Config}
    (hw : parseConfig buf = some cfg') :
    (s.ctlWrite Kpm.State.ownMask buf).1 = buf.length ∧
    (s.ctlWrite Kpm.State.ownMask buf).2.debugEnabled = cfg'.debug.getD s.debugEnabled ∧
    Kpm.Holds (s.ctlWrite Kpm.State.ownMask buf).2.kpm cfg' := by
  obtain ⟨uids, masks, heq, huids, hmasks, hsorted⟩ :=
    ctlWrite_eq_of_some (s := s) Kpm.State.ownMask hlen hw
  rw [heq]
  exact ⟨rfl, rfl,
    { sorted := hsorted
      released := rfl
      free := rfl
      stable := show (0 : UInt32) &&& 1 = 0 by decide
      count := rfl
      uids := huids
      masks := hmasks
      default := rfl
      active := by rw [← hmasks]; rfl }⟩

/-- A backend that owns fewer hooks has the config without the others. -/
theorem ctlWrite_ownedBy {ownedMask : UInt32} (howned : ownedMask &&& Kpm.State.ownMask = ownedMask)
    (hlen : buf.length ≤ pageSize) {cfg' : Config} (hw : parseConfig buf = some cfg') :
    (s.ctlWrite ownedMask buf).1 = buf.length ∧
    (s.ctlWrite ownedMask buf).2.debugEnabled = cfg'.debug.getD s.debugEnabled ∧
    Kpm.Holds (s.ctlWrite ownedMask buf).2.kpm (cfg'.ownedBy ownedMask) := by
  obtain ⟨uids, masks, heq, huids, hmasks, hsorted⟩ :=
    ctlWrite_eq_of_some (s := s) ownedMask hlen hw
  have hmask : ∀ mask : UInt32, mask &&& ownedMask &&& Kpm.State.ownMask = mask &&& ownedMask := by
    intro mask
    rw [UInt32.and_assoc, howned]
  have htwice : (cfg'.ownedBy ownedMask).targets.map (·.hookmask &&& Kpm.State.ownMask) =
      cfg'.targets.map (·.hookmask &&& ownedMask) := by
    simp [Config.ownedBy, hmask]
  have hlength : (cfg'.ownedBy ownedMask).targets.length = cfg'.targets.length := List.length_map ..
  rw [heq]
  refine ⟨rfl, rfl, ?_⟩
  refine
    { sorted := List.pairwise_map.2 hsorted
      released := rfl
      free := rfl
      stable := show (0 : UInt32) &&& 1 = 0 by decide
      count := by rw [hlength]; rfl
      uids := ?_
      masks := ?_
      default := (hmask _).symm
      active := ?_ }
  · rw [hlength, Config.ownedBy, List.map_map]
    exact huids
  · rw [hlength, htwice]
    exact hmasks
  · rw [htwice, ← hmasks]
    rfl

end State

end VpnHide.Control

namespace VpnHide.Kpm

open Lib Protocol

/-- The flag of the KPM after a payload. -/
theorem applyConfig_debug {s : State} {cfg cfg' : Config} {wire : Bytes} (h : Holds s cfg)
    (hw : parseConfig wire = some cfg') :
    (s.applyConfig wire).2.debugEnabled = cfg'.debug.getD s.debugEnabled := by
  obtain ⟨out, hr, -, -⟩ := Kmod.parseConfig_of_some hw s.configStaging 0
  rw [State.applyConfig, State.configStagingTryClaim, if_pos h.released]
  dsimp only
  rw [hr]
  dsimp only
  rw [if_neg (by omega), State.cfgTryWriteBegin, if_pos h.free, Int.toNat_natCast]
  dsimp only
  obtain ⟨uids, masks, hcopy, -, -⟩ := copyTargets_eq
    { s with
      configStagingWriter := 1, configStaging := out, cfgWriter := 1, cfgSeq := s.cfgSeq + 1 }
    cfg'.targets.length
  rw [hcopy]
  cases cfg'.debug with
  | none => rfl
  | some d => cases d <;> rfl

end VpnHide.Kpm

/-! ## What the activator writes -/

namespace VpnHide.Protocol

open Lib

theorem length_hex_le {n k : ℕ} (hk : 0 < k) (hn : n < 16 ^ k) : (hex n).length ≤ k := by
  rw [hex, List.length_map]
  exact length_toDigits_le (by decide) hk hn

/-- There are no more groups than targets. -/
theorem length_dedup_le {α : Type*} [DecidableEq α] (l : List α) : (dedup l).length ≤ l.length := by
  fun_induction dedup l with
  | case1 => rfl
  | case2 => rfl
  | case3 a l ih => exact ih.trans (Nat.le_succ _)
  | case4 a b l h ih => exact Nat.succ_le_succ ih

/-- The mask of a group is one of a target. -/
theorem exists_of_mem_groupMasks {targets : List Target} {mask : UInt32}
    (h : mask ∈ groupMasks targets) : ∃ t ∈ targets, t.hookmask = mask := by
  rw [groupMasks, mem_dedup, List.mem_insertionSort, List.mem_map] at h
  exact h

theorem length_groupMasks_le (targets : List Target) :
    (groupMasks targets).length ≤ targets.length := by
  refine (length_dedup_le _).trans ?_
  rw [List.length_insertionSort, List.length_map]

/-- Pieces of bounded size. -/
theorem length_flatMap_le {α β : Type*} {l : List α} {f : α → List β} {c k : ℕ} {w : α → ℕ}
    (h : ∀ a ∈ l, (f a).length ≤ c + k * w a) :
    (l.flatMap f).length ≤ c * l.length + k * (l.map w).sum := by
  induction l with
  | nil => exact Nat.zero_le _
  | cons a l ih =>
    have ha := h a List.mem_cons_self
    have hl := ih fun b hb => h b (List.mem_cons_of_mem _ hb)
    rw [List.flatMap_cons, List.length_append, List.length_cons, List.map_cons, List.sum_cons,
      Nat.mul_add, Nat.mul_add]
    omega

/-- A group takes sixteen bytes for its head, and nine for each uid. -/
theorem length_formatGroup_le (targets : List Target) {mask : UInt32} (hm : mask.toNat < 16 ^ 7) :
    (formatGroup targets mask).length ≤ 16 + 9 * (groupUids targets mask).length := by
  have hhead : (hex mask.toNat).length ≤ 7 := length_hex_le (by decide) hm
  have huids : ((groupUids targets mask).flatMap fun uid => ascii " " ++ hex uid.toNat).length ≤
      9 * (groupUids targets mask).length + 0 * ((groupUids targets mask).map fun _ => 0).sum := by
    refine length_flatMap_le fun uid _ => ?_
    have huid := length_hex_le (k := 8) (by decide) uid.toNat_lt
    have hsep : (ascii " ").length = 1 := by decide
    rw [List.length_append, hsep]
    omega
  have h₁ : (ascii "targets ").length = 8 := by decide
  have h₂ : (ascii "\n").length = 1 := by decide
  rw [formatGroup, List.length_append, List.length_append, List.length_append, h₁, h₂]
  omega

/-- Some targets with distinct uids, and masks of seven digits. -/
theorem length_formatConfig_le (debug : Bool) {defaultMask : UInt32} {targets : List Target}
    (hdefault : defaultMask.toNat < 16 ^ 7) (hmask : ∀ t ∈ targets, t.hookmask.toNat < 16 ^ 7)
    (hu : (targets.map (·.uid)).Nodup) (hn : targets.length ≤ maxTargetUids) :
    (formatConfig debug defaultMask targets).length ≤ 48 + 25 * maxTargetUids := by
  have hcount : ((groupMasks targets).map fun mask => (groupUids targets mask).length).sum =
      targets.length := by
    rw [← (perm_groups hu).length_eq]
    simp [groups, List.length_flatMap]
  have hgroups : ((groupMasks targets).flatMap (formatGroup targets)).length ≤
      16 * (groupMasks targets).length + 9 * targets.length := by
    rw [← hcount]
    refine length_flatMap_le fun mask h => length_formatGroup_le targets ?_
    obtain ⟨t, ht, rfl⟩ := exists_of_mem_groupMasks h
    exact hmask t ht
  have hmasks := length_groupMasks_le targets
  have hend : (hex targets.length).length ≤ 2 :=
    length_hex_le (by decide) (hn.trans_lt (by decide))
  have hdef : (if defaultMask ≠ 0 then ascii "default " ++ hex defaultMask.toNat ++ ascii "\n"
      else []).length ≤ 16 := by
    have hdigits := length_hex_le (k := 7) (by decide) hdefault
    have h₁ : (ascii "default ").length = 8 := by decide
    have h₂ : (ascii "\n").length = 1 := by decide
    split_ifs
    · rw [List.length_append, List.length_append, h₁, h₂]
      omega
    · exact Nat.zero_le _
  have hhead : (ascii "vpnhide " ++ (Nat.toDigits 10 controlVersion).map Char.toUInt8 ++
      ascii " config\n").length = 17 := by decide
  have hdebug : (if debug then ascii "debug 1\n" else ascii "debug 0\n").length = 8 := by
    cases debug <;> decide
  have h₁ : (ascii "end ").length = 4 := by decide
  have h₂ : (ascii "\n").length = 1 := by decide
  rw [formatConfig, hcount]
  simp only [List.length_append] at hhead ⊢
  rw [h₁, h₂]
  omega

end VpnHide.Protocol

/-! ## The three of them -/

namespace VpnHide.Control

open Lib Protocol

/-- The three backends, of which a device has one. -/
structure Backends where
  kmod : State
  builtin : State
  kpm : Kpm.State

namespace Backends

/-- As they are loaded. -/
def zero : Backends :=
  ⟨.zero, .zero, ⟨fun _ => 0, fun _ => 0, fun _ => ⟨0, 0⟩, 0, 0, 0, 0, 0, 0, false⟩⟩

/-- A payload is delivered to each. The built-in driver is built with its filesystem
    hooks. -/
def deliver (s : Backends) (buf : Bytes) : Backends :=
  ⟨(Kmod.ctlWrite s.kmod buf).2, (Builtin.ctlWrite true s.builtin buf).2, (s.kpm.applyConfig buf).2⟩

/-- What the three have in common after some payloads. -/
structure Agree (s : Backends) (cfg : Config) : Prop where
  kmod : Kpm.Holds s.kmod.kpm cfg
  builtin : Kpm.Holds s.builtin.kpm cfg
  kpm : Kpm.Holds s.kpm cfg
  debugKmod : s.kmod.debugEnabled = s.kpm.debugEnabled
  debugBuiltin : s.builtin.debugEnabled = s.kpm.debugEnabled

/-- Both ends agree at the start. -/
theorem agree_zero : zero.Agree ⟨none, 0, []⟩ where
  kmod := Kpm.State.IsInitial.holds ⟨rfl, rfl, rfl, rfl, rfl, rfl⟩
  builtin := Kpm.State.IsInitial.holds ⟨rfl, rfl, rfl, rfl, rfl, rfl⟩
  kpm := Kpm.State.IsInitial.holds ⟨rfl, rfl, rfl, rfl, rfl, rfl⟩
  debugKmod := rfl
  debugBuiltin := rfl

variable {s : Backends} {cfg : Config} {buf : Bytes}

/-- The write of kmod. -/
theorem kmod_ctlWrite (s : State) : Kmod.ctlWrite s = State.ctlWrite Kpm.State.ownMask s := rfl

/-- The write of the built-in. -/
theorem builtin_ctlWrite (s : State) :
    Builtin.ctlWrite true s = State.ctlWrite Kpm.State.ownMask s := rfl

/-- A payload that is rejected changes nothing, but for what the KPM has parsed of it. -/
theorem Agree.rejected (h : s.Agree cfg) (hw : parseConfig buf = none) :
    Kmod.ctlWrite s.kmod buf = (-State.einval, s.kmod) ∧
    Builtin.ctlWrite true s.builtin buf = (-State.einval, s.builtin) ∧
    ∃ staging, s.kpm.applyConfig buf = (-1, { s.kpm with configStaging := staging }) :=
  ⟨State.ctlWrite_of_none _ hw, State.ctlWrite_of_none _ hw, Kpm.applyConfig_of_none h.kpm hw⟩

/-- One payload. -/
theorem Agree.deliver (h : s.Agree cfg) (hlen : buf.length ≤ State.pageSize) :
    (s.deliver buf).Agree ((parseConfig buf).getD cfg) := by
  cases hw : parseConfig buf with
  | none =>
    obtain ⟨hkmod, hbuiltin, staging, hkpm⟩ := h.rejected hw
    rw [Backends.deliver, hkmod, hbuiltin, hkpm]
    exact ⟨h.kmod, h.builtin, h.kpm.staging staging, h.debugKmod, h.debugBuiltin⟩
  | some cfg' =>
    obtain ⟨-, hkmodDebug, hkmod⟩ := State.ctlWrite_of_some (s := s.kmod) hlen hw
    obtain ⟨-, hbuiltinDebug, hbuiltin⟩ := State.ctlWrite_of_some (s := s.builtin) hlen hw
    have hkpmDebug := Kpm.applyConfig_debug h.kpm hw
    refine ⟨hkmod, hbuiltin, (Kpm.applyConfig_of_some h.kpm hw).2, ?_, ?_⟩
    · exact hkmodDebug.trans ((congrArg _ h.debugKmod).trans hkpmDebug.symm)
    · exact hbuiltinDebug.trans ((congrArg _ h.debugBuiltin).trans hkpmDebug.symm)

/-- After any payloads of at most one page. -/
theorem agree_foldl (payloads : List { buf : Bytes // buf.length ≤ State.pageSize }) :
    ∃ cfg, (payloads.foldl (fun s buf => s.deliver buf) zero).Agree cfg := by
  induction payloads using List.reverseRecOn with
  | nil => exact ⟨_, agree_zero⟩
  | append_singleton payloads buf ih =>
    obtain ⟨cfg, h⟩ := ih
    rw [List.foldl_append]
    exact ⟨_, h.deliver buf.2⟩

/-- The three look a uid up alike. -/
theorem Agree.hookActive (h : s.Agree cfg) (uid : UInt32) (hook : HookId) :
    s.kmod.hookActive false uid hook = s.kpm.hookActive uid hook ∧
    s.builtin.hookActive false uid hook = s.kpm.hookActive uid hook := by
  constructor
  · rw [State.hookActive_kpm, Bool.eq_iff_iff, Kpm.hookActive_eq h.kmod, Kpm.hookActive_eq h.kpm]
  · rw [State.hookActive_kpm, Bool.eq_iff_iff, Kpm.hookActive_eq h.builtin, Kpm.hookActive_eq h.kpm]

/-- The three accept what the crate `protocol` accepts. -/
theorem Agree.accepts (h : s.Agree cfg) (hlen : buf.length ≤ State.pageSize) :
    (0 ≤ (Kmod.ctlWrite s.kmod buf).1 ↔ (parseConfig buf).isSome) ∧
    (0 ≤ (Builtin.ctlWrite true s.builtin buf).1 ↔ (parseConfig buf).isSome) ∧
    ((s.kpm.applyConfig buf).1 = 0 ↔ (parseConfig buf).isSome) := by
  refine ⟨?_, ?_, Kpm.applyConfig_ret h.kpm buf⟩ <;> cases hw : parseConfig buf with
  | none => simp [kmod_ctlWrite, builtin_ctlWrite, State.ctlWrite_of_none _ hw, State.einval]
  | some cfg' =>
    simp [kmod_ctlWrite, builtin_ctlWrite, (State.ctlWrite_of_some hlen hw).1]

/-- A mask of hooks that the kernel backends own has seven digits. -/
theorem toNat_lt_of_and_ownMask {mask : UInt32} (h : mask &&& Kpm.State.ownMask = mask) :
    mask.toNat < 16 ^ 7 := by
  rw [← h, UInt32.toNat_and]
  exact Nat.and_le_right.trans_lt (by decide)

end Backends

/-- After any payloads of at most one page, delivered to the three backends in the same
    order: their debug flags agree; a caller without a lease finds the same hooks active
    in each; the next payload is accepted by all or by none, and if by none then the
    live config and the flag of each stay as they are. And what the activator writes for
    as many targets as there may be, with the hooks of the kernel, is at most a page. -/
theorem backends_agree (payloads : List { buf : Bytes // buf.length ≤ State.pageSize }) :
    let s := payloads.foldl (fun s buf => s.deliver buf) Backends.zero
    (s.kmod.debugEnabled = s.kpm.debugEnabled ∧ s.builtin.debugEnabled = s.kpm.debugEnabled) ∧
    (∀ uid hook, s.kmod.hookActive false uid hook = s.kpm.hookActive uid hook ∧
      s.builtin.hookActive false uid hook = s.kpm.hookActive uid hook) ∧
    (∀ buf : { buf : Bytes // buf.length ≤ State.pageSize },
      (0 ≤ (Kmod.ctlWrite s.kmod buf).1 ↔ (s.kpm.applyConfig buf).1 = 0) ∧
      (0 ≤ (Builtin.ctlWrite true s.builtin buf).1 ↔ (s.kpm.applyConfig buf).1 = 0) ∧
      ((s.kpm.applyConfig buf).1 ≠ 0 → ∃ staging, s.deliver buf =
        ⟨s.kmod, s.builtin, { s.kpm with configStaging := staging }⟩)) ∧
    ∀ (debug : Bool) (defaultMask : UInt32) (targets : List Target),
      targets.length ≤ maxTargetUids → (targets.map (·.uid)).Nodup →
      defaultMask &&& Kpm.State.ownMask = defaultMask →
      (∀ t ∈ targets, t.hookmask &&& Kpm.State.ownMask = t.hookmask) →
      (formatConfig debug defaultMask targets).length ≤ State.pageSize := by
  intro s
  -- There is one config that all three backends have applied after the same payloads.
  obtain ⟨cfg, h⟩ := Backends.agree_foldl payloads
  refine ⟨⟨h.debugKmod, h.debugBuiltin⟩, h.hookActive, fun buf => ?_,
    fun debug defaultMask targets hn hu hdefault hmask => ?_⟩
  · obtain ⟨hkmod, hbuiltin, hkpm⟩ := h.accepts buf.2
    refine ⟨hkmod.trans hkpm.symm, hbuiltin.trans hkpm.symm, fun hret => ?_⟩
    -- What one refuses, all refuse.
    have hw : parseConfig buf.1 = none := by
      simpa using fun hsome => hret (hkpm.2 hsome)
    obtain ⟨h₁, h₂, staging, h₃⟩ := h.rejected hw
    exact ⟨staging, by rw [Backends.deliver, h₁, h₂, h₃]⟩
  · -- The longest wire still fits into a page.
    have hle := length_formatConfig_le debug (Backends.toNat_lt_of_and_ownMask hdefault)
      (fun t ht => Backends.toNat_lt_of_and_ownMask (hmask t ht)) hu hn
    exact hle.trans (by decide)

end VpnHide.Control

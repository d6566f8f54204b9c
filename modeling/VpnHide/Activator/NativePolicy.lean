import VpnHide.Config.Model
import VpnHide.Protocol.Hooks
import VpnHide.Protocol.RoundTrip

/-!
# The native policy

From the native roles of packages and the uids that these have, the targets of a native
backend (`native-policy/src/lib.rs`). A package adds its hooks to each of its uids that is one
of an app; packages may share a uid. The package of VPN Hide itself is targeted in the main
profile only. When there are more targets than a backend has room for, nothing is projected.

A target is there for every uid that some package adds (`mem_nativeTargetSet`), with the hooks
of all packages that do (`testBit_nativeTargetSet`).
-/

namespace VpnHide.NativePolicy

open Lib Config Protocol

/-- The package of VPN Hide itself. -/
def appPackage : Str := "dev.okhsunrog.vpnhide".toList

/-- The uids of a user begin at the multiples of this. -/
def perUserRange : UInt32 := 100000

/-- Below the range of the apps, a uid is one of the platform. -/
def isAppUid (uid : UInt32) : Bool := 10000 ≤ uid % perUserRange

/-- What native hooks an app gets: all, those of a list, or a list for each family. -/
inductive NativeSelection
  | enabled (enabled : Bool)
  | hooks (names : List Str)
  | detailed (enabled : Bool) (kernel zygisk : Option (List Str))
  deriving DecidableEq

/-- The backends, by what hooks they have. -/
inductive NativeHookFamily
  | kmod
  | kpm
  | builtin
  | zygisk
  deriving DecidableEq

/-- A set of hooks, as a mask. -/
abbrev HookSet := UInt32

/-- The hooks that a backend owns. -/
def NativeHookFamily.fullSet : NativeHookFamily → HookSet
  | .kmod => kernelHookMask ||| kmodHookMask
  | .kpm => kernelHookMask ||| kpmHookMask
  | .builtin => kernelHookMask ||| builtinHookMask
  | .zygisk => zygiskHookMask

/-- The backends without a loader of their own, where only the mask turns the hook of the
    filesystem off. -/
def NativeHookFamily.filesystemGatedInMask : NativeHookFamily → Bool
  | .builtin => true
  | .zygisk => true
  | _ => false

/-- The set of the hooks that are named; other names are passed over. -/
def hooksFromNames (names : List Str) : HookSet :=
  (names.filterMap HookId.fromName).foldl (fun hooks hook => hooks ||| hookBit hook) 0

/-- A set of hooks, unless it is empty. -/
def someHooks (hooks : HookSet) : Option HookSet := if hooks = 0 then none else some hooks

/-- `hook_set`: the hooks that a selection means for a family, if it selects any at all. -/
def NativeSelection.hookSet (selection : NativeSelection) (family : NativeHookFamily) :
    Option HookSet :=
  match selection with
  | .enabled false => none
  | .enabled true => some family.fullSet
  | .hooks names =>
    if names = [] then none
    else
      -- a plain list names the hooks of the kernel
      someHooks (if family = .zygisk then family.fullSet
        else hooksFromNames names &&& family.fullSet)
  | .detailed on kernel zygisk =>
    if !on then none
    else
      match if family = .zygisk then zygisk else kernel with
      | none => some family.fullSet
      | some names => someHooks (hooksFromNames names &&& family.fullSet)

/-- The hooks of a selection without those that a gate of the family keeps out. -/
def effectiveHooks (selection : NativeSelection) (family : NativeHookFamily)
    (filesystemEnabled : Bool) :
    Option HookSet := do
  let hooks ← selection.hookSet family
  someHooks (if family.filesystemGatedInMask && !filesystemEnabled then
    hooks &&& ~~~(hookBit .filesystemIfacePaths) else hooks)

/-! ## Targets -/

/-- The targets by uid: their hooks, and the packages that put them there. -/
abbrev TargetSet := Std.ExtTreeMap UInt32 (HookSet × StrSet)

/-- A package adds its hooks to those of its uid. -/
def addTarget (pkg : Str) (hooks : HookSet) (byUid : TargetSet) (uid : UInt32) : TargetSet :=
  let (merged, packages) := (byUid[uid]?).getD (hooks, ∅)
  byUid.insert uid (merged ||| hooks, packages.insert pkg)

/-- The uids that a package adds, of those that it has. -/
def targetUids (pkg : Str) (uids : List UInt32) : List UInt32 :=
  if pkg = appPackage then (uids.find? fun uid => uid < perUserRange && isAppUid uid).toList
  else uids.filter isAppUid

/-- The hooks of all uids, with the packages that want them. -/
def nativeTargetSet (selections : StrMap NativeSelection) (packages : StrMap (List UInt32))
    (family : NativeHookFamily) (filesystemEnabled : Bool) : TargetSet :=
  selections.toList.foldl (fun byUid (pkg, selection) =>
    match effectiveHooks selection family filesystemEnabled with
    | none => byUid
    | some hooks => (targetUids pkg ((packages[pkg]?).getD [])).foldl (addTarget pkg hooks) byUid) ∅

/-- A package with the uids that it takes up. -/
structure CapacityPackage where
  package : Str
  uids : List UInt32
  deriving DecidableEq

/-- The projection has more targets than a backend has room for. -/
structure NativeCapacityExceeded where
  total : ℕ
  capacity : ℕ
  /-- The packages with what each of them adds, those with the most uids first. -/
  packages : List CapacityPackage
  deriving DecidableEq

/-- The uids of each package among the targets. -/
def perPackage (byUid : TargetSet) : StrMap (List UInt32) :=
  byUid.toList.foldl (fun m (uid, _, packages) =>
    packages.toList.foldl (fun m pkg => m.insert pkg ((m[pkg]?).getD [] ++ [uid])) m) ∅

/-- Larger packages come first, and the same sizes in the order of the names. -/
def CapacityPackage.before (a b : CapacityPackage) : Bool :=
  b.uids.length < a.uids.length ||
    b.uids.length = a.uids.length && !b.package.lex a.package fun x y => x.toNat < y.toNat

/-- `project_native`: the wire for the targets, or a report if these are too many. -/
def projectNative (debug : Bool) (selections : StrMap NativeSelection)
    (packages : StrMap (List UInt32)) (family : NativeHookFamily) (filesystemEnabled : Bool) :
    Except NativeCapacityExceeded Bytes :=
  let byUid := nativeTargetSet selections packages family filesystemEnabled
  if maxTargetUids < byUid.size then
    .error {
      total := byUid.size
      capacity := maxTargetUids
      packages := ((perPackage byUid).toList.map fun (package, uids) => ⟨package, uids⟩).mergeSort
        CapacityPackage.before }
  else .ok (formatConfig debug 0 (byUid.toList.map fun (uid, hooks, _) => ⟨uid, hooks⟩))

/-! ## Hooks -/

/-- The bits of a mask. -/
def Bit (mask : HookSet) (i : ℕ) : Prop := mask.toNat.testBit i = true

theorem bit_or {a b : HookSet} {i : ℕ} : Bit (a ||| b) i ↔ Bit a i ∨ Bit b i := by
  rw [Bit, UInt32.toNat_or, Nat.testBit_or, Bool.or_eq_true]
  exact Iff.rfl

theorem bit_and {a b : HookSet} {i : ℕ} : Bit (a &&& b) i ↔ Bit a i ∧ Bit b i := by
  rw [Bit, UInt32.toNat_and, Nat.testBit_and, Bool.and_eq_true]
  exact Iff.rfl

theorem not_bit_zero (i : ℕ) : ¬ Bit 0 i := by simp [Bit]

theorem someHooks_eq_some {a b : HookSet} : someHooks a = some b ↔ a ≠ 0 ∧ a = b := by
  rw [someHooks]
  split_ifs with h
  · simp [h]
  · simp [h]

section EffectiveHooks

variable {selection : NativeSelection} {family : NativeHookFamily} {filesystemEnabled : Bool}
  {hooks : HookSet}

/-- A selection has hooks of the family only. -/
theorem bit_fullSet_of_hookSet (h : selection.hookSet family = some hooks) {i : ℕ}
    (hi : Bit hooks i) :
    Bit family.fullSet i := by
  have hnames {names : List Str}
      (h : someHooks (hooksFromNames names &&& family.fullSet) = some hooks) :
      Bit family.fullSet i := by
    obtain ⟨-, rfl⟩ := someHooks_eq_some.1 h
    exact (bit_and.1 hi).2
  cases selection with
  | enabled on =>
    cases on with
    | false => cases h
    | true =>
      obtain rfl := Option.some.inj h
      exact hi
  | hooks names =>
    rw [NativeSelection.hookSet] at h
    split_ifs at h
    · obtain ⟨-, rfl⟩ := someHooks_eq_some.1 h
      exact hi
    · exact hnames h
  | detailed on kernel zygisk =>
    rw [NativeSelection.hookSet] at h
    by_cases hon : (!on) = true
    · rw [if_pos hon] at h
      cases h
    rw [if_neg hon] at h
    split at h
    · obtain rfl := Option.some.inj h
      exact hi
    · exact hnames h

/-- So have the effective hooks, and that of the filesystem is off where only the mask can
    turn it off. -/
theorem effectiveHooks_spec (h : effectiveHooks selection family filesystemEnabled = some hooks) :
    hooks ≠ 0 ∧ (∀ i, Bit hooks i → Bit family.fullSet i) ∧
      (filesystemEnabled = false → family.filesystemGatedInMask = true →
        ¬ Bit hooks (HookId.id .filesystemIfacePaths)) := by
  obtain ⟨full, hfull, h⟩ := Option.bind_eq_some_iff.1 h
  obtain ⟨hne, rfl⟩ := someHooks_eq_some.1 h
  refine ⟨hne, fun i hi => ?_, fun hoff hgated hi => ?_⟩
  · split_ifs at hi
    · exact bit_fullSet_of_hookSet hfull (bit_and.1 hi).1
    · exact bit_fullSet_of_hookSet hfull hi
  · rw [hoff, hgated, Bool.not_false, Bool.and_self, if_pos rfl] at hi
    exact absurd (bit_and.1 hi).2 (by rw [Bit]; decide)

end EffectiveHooks

/-! ## What the targets are -/

/-- What a package adds: a uid, its hooks and its name. -/
structure Share where
  uid : UInt32
  hooks : HookSet
  package : Str

/-- The shares of all packages, in order. -/
def shares (selections : StrMap NativeSelection) (packages : StrMap (List UInt32))
    (family : NativeHookFamily) (filesystemEnabled : Bool) : List Share :=
  selections.toList.flatMap fun (pkg, selection) =>
    match effectiveHooks selection family filesystemEnabled with
    | none => []
    | some hooks => (targetUids pkg ((packages[pkg]?).getD [])).map fun uid => ⟨uid, hooks, pkg⟩

section Targets

variable {selections : StrMap NativeSelection} {packages : StrMap (List UInt32)}
  {family : NativeHookFamily} {filesystemEnabled : Bool}

/-- The target set is what the shares add up to. -/
theorem nativeTargetSet_eq : nativeTargetSet selections packages family filesystemEnabled =
    (shares selections packages family filesystemEnabled).foldl
      (fun byUid share => addTarget share.package share.hooks byUid share.uid) ∅ := by
  rw [nativeTargetSet, shares]
  generalize (∅ : TargetSet) = byUid
  induction selections.toList generalizing byUid with
  | nil => rfl
  | cons e l ih =>
    obtain ⟨pkg, selection⟩ := e
    rw [List.foldl_cons, List.flatMap_cons, List.foldl_append, ih]
    congr 1
    dsimp only
    cases effectiveHooks selection family filesystemEnabled with
    | none => rfl
    | some hooks =>
      dsimp only
      rw [List.foldl_map]

/-- What is known of a uid: its hooks and its packages. -/
def targetAt (byUid : TargetSet) (uid : UInt32) : HookSet × StrSet := (byUid[uid]?).getD (0, ∅)

/-- What a share changes, at any uid. -/
theorem getElem?_addTarget (pkg : Str) (hooks : HookSet) (byUid : TargetSet) (uid uid' : UInt32) :
    (addTarget pkg hooks byUid uid)[uid']? =
      if uid = uid' then
        some (((byUid[uid]?).getD (hooks, ∅)).1 ||| hooks,
          ((byUid[uid]?).getD (hooks, ∅)).2.insert pkg)
      else byUid[uid']? := by
  simp only [addTarget, Std.ExtTreeMap.getElem?_insert, Std.LawfulEqCmp.compare_eq_iff_eq]

theorem mem_addTarget {pkg : Str} {hooks : HookSet} {byUid : TargetSet} {uid uid' : UInt32} :
    uid' ∈ addTarget pkg hooks byUid uid ↔ uid' ∈ byUid ∨ uid = uid' := by
  simp only [Std.ExtTreeMap.mem_iff_isSome_getElem?, getElem?_addTarget]
  split_ifs with h <;> simp [h]

/-- A share adds its hooks to its uid, and no others. -/
theorem bit_addTarget {pkg : Str} {hooks : HookSet} {byUid : TargetSet}
    {uid uid' : UInt32} {i : ℕ} :
    Bit (targetAt (addTarget pkg hooks byUid uid) uid').1 i ↔
      Bit (targetAt byUid uid').1 i ∨ uid = uid' ∧ Bit hooks i := by
  rw [targetAt, getElem?_addTarget]
  split_ifs with h
  · subst h
    rw [Option.getD_some, bit_or, targetAt]
    cases byUid[uid]? with
    | none => simp [not_bit_zero]
    | some target => simp
  · simp [h, targetAt]

/-- A share adds its package to its uid, and no others. -/
theorem package_addTarget {pkg pkg' : Str} {hooks : HookSet} {byUid : TargetSet}
    {uid uid' : UInt32} :
    pkg' ∈ (targetAt (addTarget pkg hooks byUid uid) uid').2 ↔
      pkg' ∈ (targetAt byUid uid').2 ∨ uid = uid' ∧ pkg = pkg' := by
  rw [targetAt, getElem?_addTarget]
  split_ifs with h
  · subst h
    rw [Option.getD_some, Std.ExtTreeSet.mem_insert, Std.LawfulEqCmp.compare_eq_iff_eq, targetAt]
    cases byUid[uid]? with
    | none => simp
    | some target => simp [or_comm]
  · simp [h, targetAt]

/-- What a list of shares adds to the targets. -/
theorem foldl_addTarget_spec (l : List Share) (byUid : TargetSet) (uid : UInt32) :
    let byUid' :=
  l.foldl (fun byUid share => addTarget share.package share.hooks byUid share.uid) byUid
    (uid ∈ byUid' ↔ uid ∈ byUid ∨ ∃ share ∈ l, share.uid = uid) ∧
    (∀ i, Bit (targetAt byUid' uid).1 i ↔
      Bit (targetAt byUid uid).1 i ∨ ∃ share ∈ l, share.uid = uid ∧ Bit share.hooks i) ∧
    (∀ pkg, pkg ∈ (targetAt byUid' uid).2 ↔
      pkg ∈ (targetAt byUid uid).2 ∨ ∃ share ∈ l, share.uid = uid ∧ share.package = pkg) := by
  induction l generalizing byUid with
  | nil => simp
  | cons share l ih =>
    obtain ⟨hmem, hbit, hpkg⟩ := ih (addTarget share.package share.hooks byUid share.uid)
    simp only [List.foldl_cons, List.exists_mem_cons_iff]
    refine ⟨hmem.trans ?_, fun i => (hbit i).trans ?_, fun pkg => (hpkg pkg).trans ?_⟩
    · rw [mem_addTarget, or_assoc]
    · rw [bit_addTarget, or_assoc]
    · rw [package_addTarget, or_assoc]

/-- The uids of the target set are those of some share. -/
theorem mem_nativeTargetSet {uid : UInt32} :
    uid ∈ nativeTargetSet selections packages family filesystemEnabled ↔
    ∃ share ∈ shares selections packages family filesystemEnabled, share.uid = uid := by
  rw [nativeTargetSet_eq, (foldl_addTarget_spec _ ∅ uid).1]
  simp

/-- The hooks of a uid are those of its shares. -/
theorem bit_nativeTargetSet {uid : UInt32} {i : ℕ} :
    Bit (targetAt (nativeTargetSet selections packages family filesystemEnabled) uid).1 i ↔
      ∃ share ∈ shares selections packages family filesystemEnabled, share.uid = uid ∧
        Bit share.hooks i := by
  rw [nativeTargetSet_eq, (foldl_addTarget_spec _ ∅ uid).2.1]
  simp [targetAt, not_bit_zero]

/-- The packages of a uid are those of its shares. -/
theorem package_nativeTargetSet {uid : UInt32} {pkg : Str} :
    pkg ∈ (targetAt (nativeTargetSet selections packages family filesystemEnabled) uid).2 ↔
      ∃ share ∈ shares selections packages family filesystemEnabled, share.uid = uid ∧
        share.package = pkg := by
  rw [nativeTargetSet_eq, (foldl_addTarget_spec _ ∅ uid).2.2]
  simp [targetAt]

end Targets

/-! ## The report -/

/-- Adding uids to packages, one after the other. -/
def addUids (l : List (UInt32 × Str)) (m : StrMap (List UInt32)) : StrMap (List UInt32) :=
  l.foldl (fun m (uid, pkg) => m.insert pkg ((m[pkg]?).getD [] ++ [uid])) m

theorem mem_addUids {l : List (UInt32 × Str)} {m : StrMap (List UInt32)}
    {uid : UInt32} {pkg : Str} :
    uid ∈ ((addUids l m)[pkg]?).getD [] ↔ uid ∈ (m[pkg]?).getD [] ∨ (uid, pkg) ∈ l := by
  induction l generalizing m with
  | nil => simp [addUids]
  | cons e l ih =>
    obtain ⟨uid', pkg'⟩ := e
    change uid ∈ ((addUids l (m.insert pkg' ((m[pkg']?).getD [] ++ [uid'])))[pkg]?).getD [] ↔ _
    simp only [ih, Std.ExtTreeMap.getElem?_insert, Std.LawfulEqCmp.compare_eq_iff_eq,
      List.mem_cons, Prod.mk.injEq]
    split_ifs with h
    · subst h
      simp [or_assoc]
    · simp [Ne.symm h]

theorem perPackage_eq (byUid : TargetSet) : perPackage byUid =
    addUids (byUid.toList.flatMap fun (uid, _, packages) => packages.toList.map fun pkg =>
      (uid, pkg)) ∅ := by
  rw [perPackage, addUids]
  generalize (∅ : StrMap (List UInt32)) = m
  induction byUid.toList generalizing m with
  | nil => rfl
  | cons e l ih =>
    obtain ⟨uid, hooks, packages⟩ := e
    rw [List.foldl_cons, List.flatMap_cons, List.foldl_append, ih]
    congr 1
    dsimp only
    rw [List.foldl_map]

/-- The report lists the uids of each package. -/
theorem mem_perPackage {byUid : TargetSet} {uid : UInt32} {pkg : Str} :
    uid ∈ ((perPackage byUid)[pkg]?).getD [] ↔ pkg ∈ (targetAt byUid uid).2 := by
  rw [perPackage_eq, mem_addUids]
  simp only [Std.ExtTreeMap.getElem?_empty, Option.getD_none, List.not_mem_nil, false_or,
    List.mem_flatMap, Prod.exists, List.mem_map, Prod.mk.injEq,
    Std.ExtTreeMap.mem_toList_iff_getElem?_eq_some, Std.ExtTreeSet.mem_toList]
  constructor
  · rintro ⟨uid', hooks, packages, hget, pkg', hpkg, rfl, rfl⟩
    rw [targetAt, hget]
    exact hpkg
  · intro h
    rw [targetAt] at h
    cases hget : byUid[uid]? with
    | none => simp [hget] at h
    | some target =>
      rw [hget] at h
      exact ⟨uid, target.1, target.2, hget, pkg, h, rfl, rfl⟩

/-! ## The projection -/

section Projection

variable {debug : Bool} {selections : StrMap NativeSelection} {packages : StrMap (List UInt32)}
  {family : NativeHookFamily} {filesystemEnabled : Bool}

/-- The packages of the report cover the targets. -/
theorem projectNative_error {e : NativeCapacityExceeded}
    (h : projectNative debug selections packages family filesystemEnabled = .error e)
    (uid : UInt32) :
    (∃ p ∈ e.packages, uid ∈ p.uids) ↔
      uid ∈ nativeTargetSet selections packages family filesystemEnabled := by
  rw [projectNative] at h
  split_ifs at h
  obtain rfl := Except.error.inj h
  simp only [List.mem_mergeSort, List.mem_map, Prod.exists,
    Std.ExtTreeMap.mem_toList_iff_getElem?_eq_some]
  rw [mem_nativeTargetSet]
  constructor
  · rintro ⟨p, ⟨pkg, uids, hget, rfl⟩, huid⟩
    have hmem := mem_perPackage.1 (by rw [hget]; exact huid)
    obtain ⟨share, hshare, hu, -⟩ := package_nativeTargetSet.1 hmem
    exact ⟨share, hshare, hu⟩
  · rintro ⟨share, hshare, rfl⟩
    have hmem := mem_perPackage.2 (package_nativeTargetSet.2 ⟨share, hshare, rfl, rfl⟩)
    cases hget :
        (perPackage (nativeTargetSet selections packages family filesystemEnabled))[share.package]?
          with
    | none => simp [hget] at hmem
    | some uids =>
      rw [hget] at hmem
      exact ⟨_, ⟨share.package, uids, hget, rfl⟩, hmem⟩

/-- There is a report just if the uids are too many. -/
theorem projectNative_isError :
    (∃ e, projectNative debug selections packages family filesystemEnabled = .error e) ↔
    maxTargetUids < (nativeTargetSet selections packages family filesystemEnabled).size := by
  rw [projectNative]
  split_ifs with h <;> simp [h]

/-- The targets, ascending. -/
def targets (byUid : TargetSet) : List Target :=
  byUid.toList.map fun (uid, hooks, _) => ⟨uid, hooks⟩

/-- The targets come in the order of their uids. -/
theorem sorted_targets (byUid : TargetSet) : (targets byUid).Pairwise fun a b => a.uid < b.uid := by
  rw [targets, List.pairwise_map]
  exact Std.ExtTreeMap.ordered_keys_toList.imp Std.compare_eq_lt.1

/-- The targets are those of the target set. -/
theorem mem_targets {byUid : TargetSet} {t : Target} :
    t ∈ targets byUid ↔ t.uid ∈ byUid ∧ (targetAt byUid t.uid).1 = t.hookmask := by
  simp only [targets, List.mem_map, Prod.exists, Std.ExtTreeMap.mem_toList_iff_getElem?_eq_some,
    Std.ExtTreeMap.mem_iff_isSome_getElem?, targetAt]
  constructor
  · rintro ⟨uid, hooks, pkgs, hget, rfl⟩
    simp [hget]
  · rintro ⟨hsome, hmask⟩
    obtain ⟨⟨hooks, pkgs⟩, hget⟩ := Option.isSome_iff_exists.1 hsome
    refine ⟨t.uid, hooks, pkgs, hget, ?_⟩
    rw [hget, Option.getD_some] at hmask
    exact congrArg (Target.mk t.uid) hmask

/-- A wire that is written is read back, with all targets. -/
theorem projectNative_ok {w : Bytes}
    (h : projectNative debug selections packages family filesystemEnabled = .ok w) :
    parseConfig w =
      some ⟨some debug, 0,
        targets (nativeTargetSet selections packages family filesystemEnabled)⟩ := by
  rw [projectNative] at h
  split_ifs at h with hsize
  obtain rfl := Except.ok.inj h
  change parseConfig (formatConfig debug 0 (targets _)) = _
  have hsorted := sorted_targets (nativeTargetSet selections packages family filesystemEnabled)
  have hlength : (targets (nativeTargetSet selections packages family filesystemEnabled)).length ≤
      maxTargetUids := by
    rw [targets, List.length_map, Std.ExtTreeMap.length_toList]
    exact not_lt.1 hsize
  have hnodup :
      ((targets (nativeTargetSet selections packages family filesystemEnabled)).map
        (·.uid)).Nodup := by
    rw [List.nodup_iff_pairwise_ne, List.pairwise_map]
    exact hsorted.imp fun hlt => ne_of_lt hlt
  rw [parseConfig_of_formatConfig debug 0 hlength hnodup,
    (hsorted.imp fun hlt => le_of_lt hlt).insertionSort_eq]

end Projection

end VpnHide.NativePolicy

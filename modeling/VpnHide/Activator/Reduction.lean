import VpnHide.Activator.NativePolicy

/-!
# Reductions

A change of the roles of packages that takes away hooks only is admitted even where nothing is
known of the uids (`is_reduction` in `native-policy/src/lib.rs`), and the hooks that have to be
installed are found without them too (`required_hooks`).

Whatever uids the packages have, such a change adds neither a target nor a hook to one, and
what is targeted is installed (`reduction_monotone`).
-/

namespace VpnHide.NativePolicy

open Lib Config Protocol

/-- `required_hooks`: all hooks that some app gets. -/
def requiredHooks (selections : StrMap NativeSelection) (family : NativeHookFamily)
    (filesystemEnabled : Bool) :
    HookSet :=
  let mask := (selections.toList.filterMap fun (_, selection) =>
    effectiveHooks selection family filesystemEnabled).foldl (fun mask hooks => mask ||| hooks) 0
  if filesystemEnabled then mask else mask &&& ~~~(hookBit .filesystemIfacePaths)

/-- `is_reduction`: no app gains a hook from one policy to the next. -/
def isReduction (before : StrMap NativeSelection) (beforeFilesystem : Bool)
    (after : StrMap NativeSelection) (afterFilesystem : Bool) (family : NativeHookFamily) : Bool :=
  after.toList.all fun (package, selection) =>
    let next := (effectiveHooks selection family afterFilesystem).getD 0
    let previous := ((before[package]?).bind fun selection =>
      effectiveHooks selection family beforeFilesystem).getD 0
    next &&& ~~~previous = 0

/-! ## Masks -/

/-- The complement of a set of hooks. -/
theorem bit_not {a : HookSet} {i : ℕ} (hi : i < 32) : Bit (~~~a) i ↔ ¬ Bit a i := by
  rw [Bit, Bit, ← UInt32.toNat_toBitVec, ← UInt32.toNat_toBitVec, UInt32.toBitVec_not,
    ← BitVec.getLsbD, ← BitVec.getLsbD, BitVec.getLsbD_not]
  simp [hi]

theorem lt_of_bit {a : HookSet} {i : ℕ} (h : Bit a i) : i < 32 := by
  by_contra hi
  have hlt : a.toNat < 2 ^ i :=
    lt_of_lt_of_le a.toNat_lt (Nat.pow_le_pow_right (by decide) (not_lt.1 hi))
  rw [Bit, Nat.testBit_lt_two_pow hlt] at h
  cases h

/-- A mask that has no bit beside those of another. -/
theorem bit_of_and_not_eq_zero {a b : HookSet} (h : a &&& ~~~b = 0) {i : ℕ} (hi : Bit a i) :
    Bit b i := by
  by_contra hb
  have hbit : Bit (a &&& ~~~b) i := bit_and.2 ⟨hi, (bit_not (lt_of_bit hi)).2 hb⟩
  rw [h] at hbit
  exact not_bit_zero i hbit

/-- A set that is not empty has a hook in it. -/
theorem exists_bit {a : HookSet} (h : a ≠ 0) : ∃ i, Bit a i := by
  have hne : a.toNat ≠ 0 := fun hzero => h (UInt32.toNat_inj.1 hzero)
  obtain ⟨i, hi⟩ := Nat.exists_testBit_of_ne_zero hne
  exact ⟨i, hi⟩

theorem toNat_hookBit (hook : HookId) : (hookBit hook).toNat = 2 ^ hook.id := by
  cases hook <;> rfl

/-- The one bit of a hook. -/
theorem bit_hookBit {hook : HookId} {i : ℕ} : Bit (hookBit hook) i ↔ hook.id = i := by
  rw [Bit, toNat_hookBit, Nat.testBit_two_pow, decide_eq_true_iff]

theorem bit_hookBit_filesystem {i : ℕ} (h : Bit (hookBit .filesystemIfacePaths) i) :
    i = HookId.id .filesystemIfacePaths := by
  have hall : ∀ i < 32, Bit (hookBit .filesystemIfacePaths) i →
      i = HookId.id .filesystemIfacePaths := by
    unfold Bit
    decide
  exact hall i (lt_of_bit h) h

/-- The union of sets of hooks. -/
theorem bit_foldl_or {l : List HookSet} {mask : HookSet} {i : ℕ} :
    Bit (l.foldl (fun mask hooks => mask ||| hooks) mask) i ↔
      Bit mask i ∨ ∃ hooks ∈ l, Bit hooks i := by
  induction l generalizing mask with
  | nil => simp
  | cons hooks l ih => rw [List.foldl_cons, ih, bit_or, List.exists_mem_cons_iff, or_assoc]

/-! ## Shares -/

section Shares

variable {selections : StrMap NativeSelection} {packages : StrMap (List UInt32)}
  {family : NativeHookFamily} {filesystemEnabled : Bool}

/-- A share is there for each uid that a package with hooks adds. -/
theorem mem_shares {share : Share} : share ∈ shares selections packages family filesystemEnabled ↔
    ∃ selection, selections[share.package]? = some selection ∧
      effectiveHooks selection family filesystemEnabled = some share.hooks ∧
      share.uid ∈ targetUids share.package ((packages[share.package]?).getD []) := by
  simp only [shares, List.mem_flatMap, Prod.exists, Std.ExtTreeMap.mem_toList_iff_getElem?_eq_some]
  constructor
  · rintro ⟨pkg, selection, hget, hmem⟩
    cases heffective : effectiveHooks selection family filesystemEnabled with
    | none => simp [heffective] at hmem
    | some hooks =>
      rw [heffective] at hmem
      obtain ⟨uid, huid, rfl⟩ := List.mem_map.1 hmem
      exact ⟨selection, hget, heffective, huid⟩
  · rintro ⟨selection, hget, heffective, huid⟩
    refine ⟨share.package, selection, hget, ?_⟩
    rw [heffective]
    exact List.mem_map.2 ⟨share.uid, huid, rfl⟩

/-- What is targeted has to be installed, unless it is the hook that is off. -/
theorem bit_requiredHooks {share : Share}
    (h : share ∈ shares selections packages family filesystemEnabled) {i : ℕ}
    (hi : Bit share.hooks i)
    (hon : filesystemEnabled = false → i ≠ HookId.id .filesystemIfacePaths) :
    Bit (requiredHooks selections family filesystemEnabled) i := by
  obtain ⟨selection, hget, heffective, -⟩ := mem_shares.1 h
  have hmask : Bit ((selections.toList.filterMap fun (_, selection) =>
      effectiveHooks selection family filesystemEnabled).foldl (fun mask hooks =>
        mask ||| hooks) 0) i := by
    refine bit_foldl_or.2 (.inr ⟨share.hooks, ?_, hi⟩)
    exact List.mem_filterMap.2
      ⟨(share.package, selection), Std.ExtTreeMap.mem_toList_iff_getElem?_eq_some.2 hget,
        heffective⟩
  rw [requiredHooks]
  cases filesystemEnabled with
  | true => exact hmask
  | false =>
    exact bit_and.2 ⟨hmask, (bit_not (lt_of_bit hi)).2 fun hbit =>
      hon rfl (bit_hookBit_filesystem hbit)⟩

end Shares

/-! ## Main result -/

section Reduction

variable {before after : StrMap NativeSelection} {beforeFilesystem afterFilesystem : Bool}
  {family : NativeHookFamily}

/-- After a reduction, each share was there before, with hooks that include its own. -/
theorem share_before (h : isReduction before beforeFilesystem after afterFilesystem family)
    {packages : StrMap (List UInt32)} {share : Share}
    (hshare : share ∈ shares after packages family afterFilesystem) :
    ∃ share' ∈ shares before packages family beforeFilesystem, share'.uid = share.uid ∧
      ∀ i, Bit share.hooks i → Bit share'.hooks i := by
  obtain ⟨selection, hget, heffective, huid⟩ := mem_shares.1 hshare
  have hmask :=
    List.all_eq_true.1 h (share.package, selection)
      (Std.ExtTreeMap.mem_toList_iff_getElem?_eq_some.2 hget)
  simp only [heffective, Option.getD_some, decide_eq_true_eq] at hmask
  -- the package has hooks, so it had some of them before
  obtain ⟨i, hi⟩ := exists_bit (effectiveHooks_spec heffective).1
  cases hbefore : (before[share.package]?).bind fun selection =>
    effectiveHooks selection family beforeFilesystem with
  | none =>
    rw [hbefore] at hmask
    exact absurd (bit_of_and_not_eq_zero hmask hi) (not_bit_zero i)
  | some hooks =>
    rw [hbefore] at hmask
    obtain ⟨selection', hget', heffective'⟩ := Option.bind_eq_some_iff.1 hbefore
    refine ⟨⟨share.uid, hooks, share.package⟩, ?_, rfl, fun i hi => bit_of_and_not_eq_zero hmask hi⟩
    exact mem_shares.2 ⟨selection', hget', heffective', huid⟩

/-- Fewer keys are no more keys. -/
theorem size_le_of_subset {a b : TargetSet} (h : ∀ uid ∈ a, uid ∈ b) : a.size ≤ b.size := by
  rw [← Std.ExtTreeMap.length_keys, ← Std.ExtTreeMap.length_keys]
  refine (List.subperm_of_subset ?_ fun uid huid => ?_).length_le
  · exact Std.ExtTreeMap.nodup_keys
  · rw [Std.ExtTreeMap.mem_keys] at huid ⊢
    exact h uid huid

variable (before after beforeFilesystem afterFilesystem family)

/-- After a reduction, whatever the uids of packages are, each target was one before, with all
    its hooks; there are no more targets, and what fitted a backend still does. The hooks of
    each target have to be installed, except that of the filesystem where it is off. -/
theorem reduction_monotone (packages : StrMap (List UInt32)) (debug debug' : Bool) :
    (isReduction before beforeFilesystem after afterFilesystem family →
      (∀ uid ∈ nativeTargetSet after packages family afterFilesystem,
        uid ∈ nativeTargetSet before packages family beforeFilesystem ∧
        ∀ i, Bit (targetAt (nativeTargetSet after packages family afterFilesystem) uid).1 i →
          Bit (targetAt (nativeTargetSet before packages family beforeFilesystem) uid).1 i) ∧
      (nativeTargetSet after packages family afterFilesystem).size ≤
        (nativeTargetSet before packages family beforeFilesystem).size ∧
      ((∃ e, projectNative debug' after packages family afterFilesystem = .error e) →
        ∃ e, projectNative debug before packages family beforeFilesystem = .error e)) ∧
    ∀ uid i, Bit (targetAt (nativeTargetSet before packages family beforeFilesystem) uid).1 i →
      Bit (requiredHooks before family beforeFilesystem) i ∨
        beforeFilesystem = false ∧ i = HookId.id .filesystemIfacePaths := by
  refine ⟨fun h => ?_, fun uid i hi => ?_⟩
  · have htargets (uid : UInt32)
        (huid : uid ∈ nativeTargetSet after packages family afterFilesystem) :
        uid ∈ nativeTargetSet before packages family beforeFilesystem := by
      obtain ⟨share, hshare, rfl⟩ := mem_nativeTargetSet.1 huid
      obtain ⟨share', hshare', hsame, -⟩ := share_before h hshare
      exact mem_nativeTargetSet.2 ⟨share', hshare', hsame⟩
    have hsize := size_le_of_subset htargets
    refine ⟨fun uid huid => ⟨htargets uid huid, fun i hi => ?_⟩, hsize, fun herror => ?_⟩
    · obtain ⟨share, hshare, rfl, hbit⟩ := bit_nativeTargetSet.1 hi
      obtain ⟨share', hshare', hsame, hhooks⟩ := share_before h hshare
      exact bit_nativeTargetSet.2 ⟨share', hshare', hsame, hhooks i hbit⟩
    · exact projectNative_isError.2 (lt_of_lt_of_le (projectNative_isError.1 herror) hsize)
  · obtain ⟨share, hshare, rfl, hbit⟩ := bit_nativeTargetSet.1 hi
    by_cases hoff : beforeFilesystem = false ∧ i = HookId.id .filesystemIfacePaths
    · exact .inr hoff
    · exact .inl (bit_requiredHooks hshare hbit fun hfs heq => hoff ⟨hfs, heq⟩)

end Reduction

end VpnHide.NativePolicy

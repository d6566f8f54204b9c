import Mathlib.Data.List.Nodup
import VpnHide.Protocol.Config

/-!
# Snapshots round trip

A written snapshot is a header and a list of records, one for each mask: its
groups (`records_configBody`). They assign their masks to the uids of the targets
written, in another order (`perm_groups`), and the reader sorts them: what is read
is what was written (`parseConfig_formatConfig`).

The text written only depends on the *set* of targets (`formatConfig_perm`), as the
masks, and the uids of a mask, are sorted.
-/

namespace VpnHide.Protocol

open Lib

/-! ## Groups -/

section Dedup

variable {α : Type*} [LinearOrder α] {l : List α}

/-- Nothing is lost but repetitions. -/
theorem mem_dedup {a : α} : a ∈ dedup l ↔ a ∈ l := by
  fun_induction dedup l with
  | case1 => rfl
  | case2 => rfl
  | case3 b l ih => rw [ih, List.mem_cons, List.mem_cons, List.mem_cons, or_self_left]
  | case4 b c l hbc ih => rw [List.mem_cons, ih, List.mem_cons (l := c :: l)]

/-- Without repetitions, a sorted list is strictly sorted. -/
theorem pairwise_lt_dedup (h : l.Pairwise (· ≤ ·)) : (dedup l).Pairwise (· < ·) := by
  fun_induction dedup l with
  | case1 => exact .nil
  | case2 a => exact List.pairwise_singleton _ _
  | case3 b l ih => exact ih (List.pairwise_cons.1 h).2
  | case4 b c l hbc ih =>
    rw [List.pairwise_cons] at h
    refine List.pairwise_cons.2 ⟨fun a ha => ?_, ih h.2⟩
    -- The elements kept after `b` are at least `c`.
    have hbc' : b < c := lt_of_le_of_ne (h.1 c List.mem_cons_self) hbc
    rcases List.mem_cons.1 (mem_dedup.1 ha) with rfl | ha
    · exact hbc'
    · exact hbc'.trans_le ((List.pairwise_cons.1 h.2).1 a ha)

end Dedup

variable {targets : List Target}

/-- The targets of a group are those with its mask. -/
theorem mem_groupUids {mask uid : UInt32} :
    uid ∈ groupUids targets mask ↔ ⟨uid, mask⟩ ∈ targets := by
  rw [groupUids, List.mem_insertionSort, List.mem_map]
  constructor
  · rintro ⟨⟨uid, m⟩, ht, rfl⟩
    obtain ⟨ht, hm⟩ := List.mem_filter.1 ht
    exact of_decide_eq_true hm ▸ ht
  · exact fun ht => ⟨_, List.mem_filter.2 ⟨ht, decide_eq_true rfl⟩, rfl⟩

/-- The targets of a group are distinct. -/
theorem nodup_groupUids (hu : (targets.map (·.uid)).Nodup) (mask : UInt32) :
    (groupUids targets mask).Nodup := by
  rw [groupUids, (List.perm_insertionSort _ _).nodup_iff]
  exact hu.sublist (List.filter_sublist.map _)

/-- The masks of the groups are distinct. -/
theorem nodup_groupMasks (targets : List Target) : (groupMasks targets).Nodup :=
  (pairwise_lt_dedup (List.pairwise_insertionSort _ _)).imp fun h => h.ne

/-- The mask of each target has its group. -/
theorem mem_groupMasks {t : Target} (ht : t ∈ targets) : t.hookmask ∈ groupMasks targets :=
  mem_dedup.2 ((List.mem_insertionSort _).2 (List.mem_map_of_mem ht))

/-- The targets in the order they are written. -/
def groups (targets : List Target) : List Target :=
  (groupMasks targets).flatMap fun mask => (groupUids targets mask).map (⟨·, mask⟩)

/-- The groups together are the targets. -/
theorem mem_groups {t : Target} : t ∈ groups targets ↔ t ∈ targets := by
  rw [groups, List.mem_flatMap]
  constructor
  · rintro ⟨mask, _, h⟩
    obtain ⟨uid, hu, rfl⟩ := List.mem_map.1 h
    exact mem_groupUids.1 hu
  · exact fun ht => ⟨_, mem_groupMasks ht, List.mem_map.2 ⟨t.uid, mem_groupUids.2 ht, rfl⟩⟩

/-- Targets with distinct uids are all written, once. -/
theorem perm_groups (hu : (targets.map (·.uid)).Nodup) : (groups targets).Perm targets := by
  refine (List.perm_ext_iff_of_nodup ?_ hu.of_map).2 fun t => mem_groups
  rw [groups, List.nodup_flatMap]
  refine ⟨fun mask _ => (nodup_groupUids hu mask).map fun _ _ h => (Target.mk.inj h).1, ?_⟩
  -- A target is in the group of its own mask only.
  refine (nodup_groupMasks targets).imp fun {m m'} hne t h h' => ?_
  obtain ⟨_, _, rfl⟩ := List.mem_map.1 h
  obtain ⟨_, _, he⟩ := List.mem_map.1 h'
  exact hne (Target.mk.inj he).2.symm

/-! ## The text -/

/-- The header line. -/
def headerLine : Bytes := words (ascii "vpnhide") [ascii "2", ascii "config"]

/-- The `debug` record. -/
def debugLine (debug : Bool) : Bytes :=
  words (ascii "debug") [if debug then ascii "1" else ascii "0"]

/-- The `default` record, if there is one. -/
def defaultLines (mask : UInt32) : List Bytes :=
  if mask ≠ 0 then [words (ascii "default") [hex mask.toNat]] else []

/-- The `targets` record of a mask. -/
def groupLine (targets : List Target) (mask : UInt32) : Bytes :=
  words (ascii "targets") (hex mask.toNat :: (groupUids targets mask).map fun uid => hex uid.toNat)

/-- The `end` record. -/
def endLine (count : ℕ) : Bytes := words (ascii "end") [hex count]

/-- The lines of a snapshot between its header and its `end`. -/
def bodyLines (debug : Bool) (defaultMask : UInt32) (targets : List Target) : List Bytes :=
  debugLine debug :: defaultLines defaultMask ++ (groupMasks targets).map (groupLine targets)

/-- The text of some lines. -/
def unlines (ls : List Bytes) : Bytes := ls.flatMap (· ++ ['\n'.toUInt8])

theorem unlines_cons (l : Bytes) (ls : List Bytes) :
    unlines (l :: ls) = l ++ '\n'.toUInt8 :: unlines ls := by
  simp [unlines]

theorem unlines_append (ls ms : List Bytes) : unlines (ls ++ ms) = unlines ls ++ unlines ms :=
  List.flatMap_append

/-- A group is printed as one line. -/
theorem formatGroup_eq (targets : List Target) (mask : UInt32) :
    formatGroup targets mask = groupLine targets mask ++ ['\n'.toUInt8] := by
  have h₁ : ascii "targets " = ascii "targets" ++ [' '.toUInt8] := by decide
  have h₂ : ascii " " = [' '.toUInt8] := by decide
  have h₃ : ascii "\n" = ['\n'.toUInt8] := by decide
  rw [formatGroup, groupLine, words, h₁, h₂, h₃]
  simp [List.flatMap_map]

/-- A snapshot is written line by line. -/
theorem formatConfig_eq (debug : Bool) (defaultMask : UInt32) (targets : List Target) :
    formatConfig debug defaultMask targets =
      headerLine ++ '\n'.toUInt8 :: (unlines (bodyLines debug defaultMask targets) ++
        (endLine (groups targets).length ++ ['\n'.toUInt8])) := by
  have h₁ : ascii "vpnhide " ++ (Nat.toDigits 10 controlVersion).map Char.toUInt8 ++
      ascii " config\n" = headerLine ++ ['\n'.toUInt8] := by decide
  have h₂ : (if debug then ascii "debug 1\n" else ascii "debug 0\n") =
      debugLine debug ++ ['\n'.toUInt8] := by cases debug <;> decide
  have h₃ : (if defaultMask ≠ 0 then ascii "default " ++ hex defaultMask.toNat ++ ascii "\n"
      else []) =
      unlines (defaultLines defaultMask) := by
    have h₁ : ascii "default " = ascii "default" ++ [' '.toUInt8] := by decide
    have h₂ : ascii "\n" = ['\n'.toUInt8] := by decide
    rw [defaultLines]
    split_ifs
    · simp [unlines, words, h₁, h₂]
    · rfl
  have h₄ : (groupMasks targets).flatMap (formatGroup targets) =
      unlines ((groupMasks targets).map (groupLine targets)) := by
    rw [unlines, List.flatMap_map]
    exact congrArg (List.flatMap · _) (funext (formatGroup_eq targets))
  have h₅ : ((groupMasks targets).map fun mask => (groupUids targets mask).length).sum =
      (groups targets).length := by
    simp [groups, List.length_flatMap]
  have h₆ : ascii "end " = ascii "end" ++ [' '.toUInt8] := by decide
  have h₇ : ascii "\n" = ['\n'.toUInt8] := by decide
  rw [formatConfig, h₁, h₂, h₃, h₄, h₅, h₆, h₇, bodyLines, List.cons_append, unlines_cons,
    unlines_append, endLine, words]
  simp only [List.append_assoc, List.cons_append, List.nil_append, List.flatMap_cons,
    List.flatMap_nil, List.append_nil]

/-! ## Its records -/

/-- A line of tokens that is not a comment: what records are written on. -/
structure IsRecordLine (l : Bytes) (w : Bytes) (ws : List Bytes) : Prop where
  eq : l = words w ws
  first : IsToken w
  rest : ∀ v ∈ ws, IsToken v
  not_comment : w.head? ≠ some '#'.toUInt8

namespace IsRecordLine

variable {l w : Bytes} {ws : List Bytes}

/-- A record line has no control character. -/
theorem isLineByte (h : IsRecordLine l w ws) : ∀ c ∈ l, IsLineByte c :=
  fun _ hc => isLineByte_of_mem_words h.first h.rest (h.eq ▸ hc)

/-- The words of a record line. -/
theorem tokens (h : IsRecordLine l w ws) : tokens l = w :: ws := by
  rw [h.eq, tokens_words h.first h.rest]

/-- A record line is significant. -/
theorem significant (h : IsRecordLine l w ws) : significant l = some l :=
  h.eq ▸ (significant_words h.first h.rest h.not_comment).1

/-- It is not skipped. -/
theorem not_isIgnorable (h : IsRecordLine l w ws) : isIgnorable l = false :=
  h.eq ▸ (significant_words h.first h.rest h.not_comment).2

/-- It is read by its words. -/
theorem readLine (h : IsRecordLine l w ws) : readLine l = readTokens (w :: ws) := by
  rw [Protocol.readLine, h.significant, Option.elim_some, h.tokens]

end IsRecordLine

theorem isRecordLine_header :
    IsRecordLine headerLine (ascii "vpnhide") [ascii "2", ascii "config"] :=
  ⟨rfl, by decide, by decide, by decide⟩

theorem isRecordLine_debug (debug : Bool) :
    IsRecordLine (debugLine debug) (ascii "debug") [if debug then ascii "1" else ascii "0"] :=
  ⟨rfl, by decide, by cases debug <;> decide, by decide⟩

theorem isRecordLine_default (mask : UInt32) :
    IsRecordLine (words (ascii "default") [hex mask.toNat]) (ascii "default") [hex mask.toNat] :=
  ⟨rfl, by decide, by simpa using isToken_hex _, by decide⟩

theorem isRecordLine_group (targets : List Target) (mask : UInt32) :
    IsRecordLine (groupLine targets mask) (ascii "targets")
      (hex mask.toNat :: (groupUids targets mask).map fun uid => hex uid.toNat) := by
  refine ⟨rfl, by decide, fun v hv => ?_, by decide⟩
  rcases List.mem_cons.1 hv with rfl | hv
  · exact isToken_hex _
  · obtain ⟨uid, _, rfl⟩ := List.mem_map.1 hv
    exact isToken_hex _

theorem isRecordLine_end (count : ℕ) : IsRecordLine (endLine count) (ascii "end") [hex count] :=
  ⟨rfl, by decide, by simpa using isToken_hex _, by decide⟩

/-- Every line of the body is a record line, not an `end`. -/
theorem isRecordLine_of_mem_bodyLines {debug : Bool} {defaultMask : UInt32} {l : Bytes}
    (hl : l ∈ bodyLines debug defaultMask targets) :
    ∃ w ws, IsRecordLine l w ws ∧
      (w = ascii "debug" ∨ w = ascii "default" ∨ w = ascii "targets") := by
  rw [bodyLines, List.mem_append, List.mem_cons] at hl
  rcases hl with (rfl | hl) | hl
  · exact ⟨_, _, isRecordLine_debug debug, .inl rfl⟩
  · rw [defaultLines] at hl
    split_ifs at hl
    · obtain rfl := List.mem_singleton.1 hl
      exact ⟨_, _, isRecordLine_default defaultMask, .inr (.inl rfl)⟩
    · cases hl
  · obtain ⟨mask, _, rfl⟩ := List.mem_map.1 hl
    exact ⟨_, _, isRecordLine_group targets mask, .inr (.inr rfl)⟩

/-- A text of lines is read line by line, up to the rest. -/
theorem lines_unlines_append {ls : List Bytes} (hls : ∀ l ∈ ls, ∀ c ∈ l, IsLineByte c)
    (rest : Bytes) :
    lines (unlines ls ++ rest) = ls ++ lines rest := by
  induction ls with
  | nil => rfl
  | cons l ls ih =>
    rw [unlines_cons, List.append_assoc, List.cons_append, lines_cons (hls l List.mem_cons_self),
      ih fun m hm => hls m (List.mem_cons_of_mem _ hm), List.cons_append]

theorem toUInt32_toNat (x : UInt32) : x.toNat.toUInt32 = x := UInt32.ofNat_toNat

theorem parseHexBare_uint32 (x : UInt32) : parseHexBare (hex x.toNat) 32 = some x.toNat :=
  parseHexBare_hex (Nat.le_of_lt_succ x.toNat_lt)

theorem readLine_debugLine (debug : Bool) : readLine (debugLine debug) = .debug debug := by
  rw [(isRecordLine_debug debug).readLine]
  cases debug <;> decide

theorem readLine_default (mask : UInt32) :
    readLine (words (ascii "default") [hex mask.toNat]) = .default mask := by
  rw [(isRecordLine_default mask).readLine, readTokens, if_neg (by decide), if_pos rfl,
    List.head?_cons, Option.bind_some, parseHexBare_uint32, Option.elim_some, toUInt32_toNat]

theorem readLine_groupLine (targets : List Target) (mask : UInt32) :
    readLine (groupLine targets mask) = .targets mask (groupUids targets mask) := by
  have hm : ((groupUids targets mask).map fun uid => hex uid.toNat).mapM (parseHexBare · 32) =
      some ((groupUids targets mask).map UInt32.toNat) := by
    induction groupUids targets mask with
    | nil => rfl
    | cons uid uids ih => simp [parseHexBare_uint32, ih]
  rw [(isRecordLine_group targets mask).readLine, readTokens, if_neg (by decide),
    if_neg (by decide), if_pos rfl, List.head?_cons, Option.bind_some, parseHexBare_uint32,
    Option.elim_some, List.tail_cons, hm, Option.elim_some, List.map_map, toUInt32_toNat]
  congr 1
  exact List.map_id'' toUInt32_toNat _

theorem readLine_endLine {count : ℕ} (h : count ≤ 0xffffffff) :
    readLine (endLine count) = .count count := by
  rw [(isRecordLine_end count).readLine, readTokens, if_neg (by decide), if_neg (by decide),
    if_neg (by decide), if_pos rfl, List.head?_cons, Option.bind_some,
    parseHexBare_hex (h.trans (le_maxOfBits 32)), Option.elim_some]

/-- The records of the body. -/
def bodyRecords (debug : Bool) (defaultMask : UInt32) (targets : List Target) : List Record :=
  .debug debug :: (if defaultMask ≠ 0 then [.default defaultMask] else []) ++
    (groupMasks targets).map fun mask => .targets mask (groupUids targets mask)

/-- The lines of a printed body are read as its records. -/
theorem map_readLine_bodyLines (debug : Bool) (defaultMask : UInt32) (targets : List Target) :
    (bodyLines debug defaultMask targets).map readLine = bodyRecords debug defaultMask targets := by
  have hd : (defaultLines defaultMask).map readLine =
      if defaultMask ≠ 0 then [.default defaultMask] else [] := by
    rw [defaultLines]
    split_ifs
    · rw [List.map_singleton, readLine_default]
    · rfl
  have hg : ((groupMasks targets).map (groupLine targets)).map readLine =
      (groupMasks targets).map fun mask => .targets mask (groupUids targets mask) := by
    rw [List.map_map]
    exact List.map_congr_left fun mask _ => readLine_groupLine targets mask
  rw [bodyLines, bodyRecords, List.map_append, List.map_cons, hd, hg, readLine_debugLine]

/-- The lines of a printed body have no control character. -/
theorem isLineByte_bodyLines {debug : Bool} {defaultMask : UInt32} :
    ∀ l ∈ bodyLines debug defaultMask targets, ∀ c ∈ l, IsLineByte c := fun _ hl =>
  let ⟨_, _, h, _⟩ := isRecordLine_of_mem_bodyLines hl
  h.isLineByte

/-- The records of a written snapshot. -/
theorem records_configBody (debug : Bool) (defaultMask : UInt32) (rest : Bytes) :
    records (unlines (bodyLines debug defaultMask targets) ++ rest) =
      bodyRecords debug defaultMask targets ++ records rest := by
  rw [records, lines_unlines_append isLineByte_bodyLines, List.map_append, map_readLine_bodyLines,
    records]

/-- The header of a written snapshot. -/
theorem parseHeader_header (rest : Bytes) :
    parseHeader (headerLine ++ '\n'.toUInt8 :: rest) = some (.config, rest) := by
  have h := isRecordLine_header
  have hk : headerKind headerLine = some .config := by
    rw [headerKind, h.tokens]
    decide
  rw [parseHeader, if_neg (by simp), nextLine_append h.isLineByte, h.not_isIgnorable,
    if_neg Bool.false_ne_true, h.significant, Option.bind_eq_bind, Option.bind_some, hk]
  rfl

/-- The records of a printed body assign the targets their masks. -/
theorem assignments_bodyRecords (debug : Bool) (defaultMask : UInt32) (targets : List Target) :
    assignments (bodyRecords debug defaultMask targets) = groups targets := by
  rw [bodyRecords, assignments, groups]
  split_ifs <;> simp [List.flatMap_map, Record.assignments]

/-- Sorting targets with distinct uids sorts them strictly. -/
theorem sortedBy_insertionSort (hu : (targets.map (·.uid)).Nodup) :
    SortedBy Target.uid (targets.insertionSort fun a b => a.uid ≤ b.uid) := by
  have : Std.Total fun a b : Target => a.uid ≤ b.uid := ⟨fun a b => le_total a.uid b.uid⟩
  have : IsTrans Target fun a b => a.uid ≤ b.uid := ⟨fun _ _ _ => le_trans⟩
  have hle := List.pairwise_insertionSort (fun a b : Target => a.uid ≤ b.uid) targets
  have hne : ((targets.insertionSort fun a b => a.uid ≤ b.uid).map (·.uid)).Nodup :=
    ((List.perm_insertionSort _ _).map _).nodup_iff.2 hu
  exact (hle.and (List.pairwise_map.1 hne)).imp fun h => lt_of_le_of_ne h.1 h.2

/-- Picking, among the records of a written snapshot, ones that are not groups. -/
theorem filterMap_configRecords {α : Type*} (f : Record → Option α)
    (hf : ∀ mask uids, f (.targets mask uids) = none) (debug : Bool)
    (defaultMask : UInt32) (n : ℕ) :
    (bodyRecords debug defaultMask targets ++ [Record.count n]).filterMap f =
      (f (.debug debug)).toList ++
        ((if defaultMask ≠ 0 then (f (.default defaultMask)).toList else []) ++
          (f (.count n)).toList) := by
  have hg : ((groupMasks targets).map fun mask =>
      Record.targets mask (groupUids targets mask)).filterMap f = [] := by
    rw [List.filterMap_map]
    exact List.filterMap_eq_nil_iff.2 fun mask _ => hf _ _
  have hs : ∀ r, [r].filterMap f = (f r).toList := fun r => by
    cases h : f r <;> simp [h]
  rw [bodyRecords, ← List.singleton_append, List.filterMap_append, List.filterMap_append,
    List.filterMap_append, hg, hs, hs, List.append_nil, List.append_assoc]
  split_ifs
  · rw [hs]
  · rfl

/-- What the records of a written snapshot mean. -/
theorem meaning_configRecords (debug : Bool) (defaultMask : UInt32)
    (hu : (targets.map (·.uid)).Nodup) (n : ℕ) :
    meaning (bodyRecords debug defaultMask targets ++ [.count n]) =
      ⟨some debug, defaultMask, targets.insertionSort fun a b => a.uid ≤ b.uid⟩ := by
  have ha : assignments (bodyRecords debug defaultMask targets ++ [.count n]) = groups targets := by
    rw [assignments, List.flatMap_append, ← assignments, assignments_bodyRecords]
    exact List.append_nil _
  have ht : writeTargets [] (groups targets) = targets.insertionSort fun a b => a.uid ≤ b.uid :=
    foldl_upsert_eq (((perm_groups hu).map _).nodup_iff.2 hu)
      ((List.perm_insertionSort _ _).trans (perm_groups hu).symm) (sortedBy_insertionSort hu)
  have hf : (bodyRecords debug defaultMask targets ++ [Record.count n]).filterMap Record.flag? =
      [debug] := by
    rw [filterMap_configRecords _ fun _ _ => rfl]
    split_ifs <;> rfl
  have hd : ((bodyRecords debug defaultMask targets ++ [Record.count n]).filterMap
      Record.default?).getLast?.getD 0 = defaultMask := by
    rw [filterMap_configRecords _ fun _ _ => rfl]
    split_ifs with h0
    · rfl
    · exact (not_not.1 h0).symm
  rw [meaning, ha, ht, hf, hd]
  rfl

/-- The records of a written snapshot are accepted, if its targets fit. -/
theorem accepted_configRecords (debug : Bool) (defaultMask : UInt32)
    (hu : (targets.map (·.uid)).Nodup) (hl : targets.length ≤ maxTargetUids) :
    Accepted (bodyRecords debug defaultMask targets ++ [.count (groups targets).length]) := by
  have ha : assignments
      (bodyRecords debug defaultMask targets ++ [.count (groups targets).length]) =
      groups targets := by
    rw [assignments, List.flatMap_append, ← assignments, assignments_bodyRecords]
    exact List.append_nil _
  refine ⟨?_, ?_, ?_⟩
  · rw [bodyRecords]
    split_ifs <;> simp
  · rw [ha, List.filterMap_append]
    simp [Record.count?]
  · have := congrArg (fun c => c.targets.length)
      (meaning_configRecords debug defaultMask hu (groups targets).length)
    simp only [meaning, ha, List.length_insertionSort] at this
    rw [ha, this]
    exact hl

/-- The text written only depends on the set of targets. -/
theorem formatConfig_perm {targets' : List Target} (h : targets'.Perm targets) (debug : Bool)
    (defaultMask : UInt32) :
    formatConfig debug defaultMask targets' = formatConfig debug defaultMask targets := by
  have hsort : ∀ {l l' : List UInt32}, l.Perm l' →
      l.insertionSort (· ≤ ·) = l'.insertionSort (· ≤ ·) := fun {l l'} hp =>
    List.Perm.eq_of_sortedLE List.sortedLE_insertionSort List.sortedLE_insertionSort
      ((List.perm_insertionSort _ l).trans (hp.trans (List.perm_insertionSort _ l').symm))
  have hm : groupMasks targets' = groupMasks targets := by
    rw [groupMasks, hsort (h.map _), groupMasks]
  have hu : groupUids targets' = groupUids targets := funext fun mask => by
    rw [groupUids, hsort ((h.filter _).map _), groupUids]
  have hg : formatGroup targets' = formatGroup targets := funext fun mask => by
    rw [formatGroup, hu, formatGroup]
  rw [formatConfig, hm, hu, hg, formatConfig]

theorem parseConfig_of_formatConfig (debug : Bool) (defaultMask : UInt32)
    (hl : targets.length ≤ maxTargetUids) (hu : (targets.map (·.uid)).Nodup) :
    parseConfig (formatConfig debug defaultMask targets) =
      some ⟨some debug, defaultMask, targets.insertionSort fun a b => a.uid ≤ b.uid⟩ := by
  have hn : (groups targets).length ≤ 0xffffffff :=
    (perm_groups hu).length_eq.trans_le (hl.trans (by decide))
  have hrec : records (endLine (groups targets).length ++ ['\n'.toUInt8]) =
      [.count (groups targets).length] := by
    rw [records, lines_cons (isRecordLine_end _).isLineByte, lines_nil, List.map_singleton,
      readLine_endLine hn]
  rw [formatConfig_eq, parseConfig_eq_some_iff]
  refine ⟨_, parseHeader_header _, ?_, ?_⟩
  · rw [records_configBody, hrec]
    exact accepted_configRecords debug defaultMask hu hl
  · rw [records_configBody, hrec, meaning_configRecords debug defaultMask hu]

/-- A snapshot is read back as it was written, with its targets sorted; and its text
    only depends on the set of targets. -/
theorem parseConfig_formatConfig (debug : Bool) (defaultMask : UInt32) (targets : List Target) :
    (targets.length ≤ maxTargetUids → (targets.map (·.uid)).Nodup →
      parseConfig (formatConfig debug defaultMask targets) =
        some ⟨some debug, defaultMask, targets.insertionSort fun a b => a.uid ≤ b.uid⟩) ∧
      ∀ targets', targets'.Perm targets →
        formatConfig debug defaultMask targets' = formatConfig debug defaultMask targets :=
  ⟨fun hl hu => parseConfig_of_formatConfig debug defaultMask hl hu,
    fun _ h => formatConfig_perm h debug defaultMask⟩

theorem parseConfig_formatConfig_three :
    parseConfig (formatConfig true 0x20003ff
        [⟨10234, 0x8000000⟩, ⟨1010234, 0x3ff⟩, ⟨10001, 0x8000000⟩]) =
      some ⟨some true, 0x20003ff, [⟨10001, 0x8000000⟩, ⟨10234, 0x8000000⟩, ⟨1010234, 0x3ff⟩]⟩ :=
  (parseConfig_formatConfig true 0x20003ff _).1 (by decide) (by decide)

end VpnHide.Protocol

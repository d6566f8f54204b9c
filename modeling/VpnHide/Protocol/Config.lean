import VpnHide.Lib.SortedMap
import VpnHide.Lib.Word
import VpnHide.Protocol.Lexical

/-!
# Config snapshots

The reader and the writer of `config` payloads of the crate `protocol`. After its
header, a snapshot is a list of records, one a line: `debug`, `default`,
`targets <mask> <uid>…` and `end <count>`, the last of which counts the uids. The
reader keeps the targets sorted by uid, the last mask given to a uid winning.

What a snapshot *means* is said by its records alone (`Record`, `readLine`): the
last `debug` and `default`, and the `assignments` of masks to uids in the order of
the payload. The reader computes exactly that (`parseConfig_eq_some_iff`): it
accepts a snapshot when no uid is malformed, the last `end` counts the
assignments, and they are to at most `maxTargetUids` uids.
-/

namespace VpnHide.Protocol

open Lib

/-- The most targets a native backend stores. -/
def maxTargetUids : ℕ := 160

/-- The hooks to act on for a uid. -/
structure Target where
  uid : UInt32
  hookmask : UInt32
  deriving DecidableEq, Inhabited

/-- A parsed `config` snapshot. -/
structure Config where
  /-- The debug flag, if there is a `debug` record. -/
  debug : Option Bool
  /-- The mask of the uids that are not in `targets`. -/
  defaultMask : UInt32
  targets : List Target
  deriving DecidableEq

/-! ## Reading -/

/-- `binary_search_by_key` on a slice sorted by uid: the index of the uid, or else
    that of its insertion. -/
def binarySearchByKey (targets : List Target) (uid : UInt32) : Found :=
  let i := targets.findIdx fun t => uid ≤ t.uid
  if targets[i]?.any fun t => t.uid = uid then .hit i else .miss i

/-- Writing a target, keeping `targets` sorted; `none` if there is no room for it. -/
def setTarget (targets : List Target) (uid hookmask : UInt32) : Option (List Target) :=
  match binarySearchByKey targets uid with
  | .hit i => some (targets.modify i fun t => { t with hookmask })
  | .miss i =>
    if maxTargetUids ≤ targets.length then none
    else some (targets.take i ++ ⟨uid, hookmask⟩ :: targets.drop i)

/-- The state of the reader after some lines. -/
structure ConfigState where
  cfg : Config
  uidsSeen : ℕ
  declared : Option ℕ
  deriving DecidableEq

/-- Reading a uid of a `targets` record. -/
def configUid (mask : UInt32) (s : ConfigState) (tok : Bytes) : Option ConfigState := do
  let uid ← parseHexBare tok 32
  let targets ← setTarget s.cfg.targets uid.toUInt32 mask
  return { s with cfg := { s.cfg with targets }, uidsSeen := s.uidsSeen + 1 }

/-- Reading the tokens of a significant line; `none` rejects the payload. -/
def configTokens (s : ConfigState) : List Bytes → Option ConfigState
  | [] => some s
  | keyword :: it =>
    if keyword = ascii "debug" then
      if it.head? = some (ascii "0") then some { s with cfg := { s.cfg with debug := some false } }
      else if it.head? = some (ascii "1") then
        some { s with cfg := { s.cfg with debug := some true } }
      else some s
    else if keyword = ascii "default" then
      match it.head?.bind (parseHexBare · 32) with
      | none => some s
      | some mask => some { s with cfg := { s.cfg with defaultMask := mask.toUInt32 } }
    else if keyword = ascii "targets" then
      match it.head?.bind (parseHexBare · 32) with
      | none => some s
      -- A malformed uid rejects the payload, a malformed mask only skips the line.
      | some mask => it.tail.foldlM (configUid mask.toUInt32) s
    else if keyword = ascii "end" then
      match it.head?.bind (parseHexBare · 32) with
      | none => some s
      | some v => some { s with declared := some v }
    else some s

/-- Reading a line. -/
def configLine (s : ConfigState) (line : Bytes) : Option ConfigState :=
  match significant line with
  | none => some s
  | some content => configTokens s (tokens content)

/-- The state of the reader after the header. -/
def ConfigState.init : ConfigState := ⟨⟨none, 0, []⟩, 0, none⟩

/-- Reading a `config` snapshot; `none` if it is rejected whole. -/
def parseConfig (buf : Bytes) : Option Config := do
  let (kind, rest) ← parseHeader buf
  guard (kind = .config)
  let s ← (lines rest).foldlM configLine .init
  guard (s.declared = some s.uidsSeen)
  return s.cfg

/-! ## Writing -/

/-- `Vec::dedup`: consecutive repeated elements are removed. -/
def dedup {α : Type*} [DecidableEq α] : List α → List α
  | [] => []
  | [a] => [a]
  | a :: b :: l => if a = b then dedup (b :: l) else a :: dedup (b :: l)

/-- The uids of the targets with the mask `mask`, ascending. -/
def groupUids (targets : List Target) (mask : UInt32) : List UInt32 :=
  ((targets.filter fun t => t.hookmask = mask).map (·.uid)).insertionSort (· ≤ ·)

/-- The masks of the targets, ascending. -/
def groupMasks (targets : List Target) : List UInt32 :=
  dedup ((targets.map (·.hookmask)).insertionSort (· ≤ ·))

/-- The `targets` record of the mask `mask`. -/
def formatGroup (targets : List Target) (mask : UInt32) : Bytes :=
  ascii "targets " ++ hex mask.toNat ++
    (groupUids targets mask).flatMap (fun uid => ascii " " ++ hex uid.toNat) ++ ascii "\n"

/-- Writing a `config` snapshot: the targets grouped by mask, and counted. -/
def formatConfig (debug : Bool) (defaultMask : UInt32) (targets : List Target) : Bytes :=
  let masks := groupMasks targets
  let count := (masks.map fun mask => (groupUids targets mask).length).sum
  ascii "vpnhide " ++ (Nat.toDigits 10 controlVersion).map Char.toUInt8 ++ ascii " config\n" ++
    (if debug then ascii "debug 1\n" else ascii "debug 0\n") ++
    (if defaultMask ≠ 0 then ascii "default " ++ hex defaultMask.toNat ++ ascii "\n" else []) ++
    masks.flatMap (formatGroup targets) ++
    (ascii "end " ++ hex count ++ ascii "\n")

/-! ## The meaning of a snapshot -/

/-- A record of a snapshot. -/
inductive Record
  | debug (flag : Bool)
  | default (mask : UInt32)
  | targets (mask : UInt32) (uids : List UInt32)
  /-- A `targets` record with a malformed uid. -/
  | badTargets
  | count (n : ℕ)
  /-- A line that says nothing: blank, a comment, unknown or malformed. -/
  | skip
  deriving DecidableEq

/-- The record of the tokens of a line. -/
def readTokens : List Bytes → Record
  | [] => .skip
  | keyword :: it =>
    if keyword = ascii "debug" then
      if it.head? = some (ascii "0") then .debug false
      else if it.head? = some (ascii "1") then .debug true
      else .skip
    else if keyword = ascii "default" then
      (it.head?.bind (parseHexBare · 32)).elim .skip fun mask => .default mask.toUInt32
    else if keyword = ascii "targets" then
      (it.head?.bind (parseHexBare · 32)).elim .skip fun mask =>
        (it.tail.mapM (parseHexBare · 32)).elim .badTargets fun uids =>
          .targets mask.toUInt32 (uids.map Nat.toUInt32)
    else if keyword = ascii "end" then
      (it.head?.bind (parseHexBare · 32)).elim .skip .count
    else .skip

/-- The record of a line. -/
def readLine (line : Bytes) : Record := (significant line).elim .skip fun content =>
  readTokens (tokens content)

namespace Record

/-- The targets a record assigns. -/
def assignments : Record → List Target
  | .targets mask uids => uids.map (⟨·, mask⟩)
  | _ => []

/-- The flag of a `debug` line. -/
def flag? : Record → Option Bool
  | .debug flag => some flag
  | _ => none

/-- The mask of a `default` line. -/
def default? : Record → Option UInt32
  | .default mask => some mask
  | _ => none

/-- The number of the last line. -/
def count? : Record → Option ℕ
  | .count n => some n
  | _ => none

end Record

/-- The records of a text. -/
def records (rest : Bytes) : List Record := (lines rest).map readLine

/-- The targets assigned by some records, in their order. -/
def assignments (rs : List Record) : List Target := rs.flatMap Record.assignments

/-- Writing the targets `as` into the sorted table `l`. -/
def writeTargets (l as : List Target) : List Target := as.foldl (fun l t => upsert Target.uid t l) l

/-- What some records mean. -/
def meaning (rs : List Record) : Config where
  debug := (rs.filterMap Record.flag?).getLast?
  defaultMask := (rs.filterMap Record.default?).getLast?.getD 0
  targets := writeTargets [] (assignments rs)

/-- When some records are accepted. -/
structure Accepted (rs : List Record) : Prop where
  wellFormed : .badTargets ∉ rs
  counted : (rs.filterMap Record.count?).getLast? = some (assignments rs).length
  fits : (writeTargets [] (assignments rs)).length ≤ maxTargetUids

/-! ## Reading computes the meaning -/

variable {targets : List Target} {s : ConfigState}

/-- A new uid is inserted at its place, if there is room. -/
theorem setTarget_miss {uid hookmask : UInt32} {i : ℕ} (hlt : ∀ x ∈ targets.take i, x.uid < uid)
    (hgt : ∀ x ∈ targets.drop i, uid < x.uid) :
    (if maxTargetUids ≤ targets.length then none
      else some (targets.take i ++ (⟨uid, hookmask⟩ : Target) :: targets.drop i)) =
      if (upsert Target.uid ⟨uid, hookmask⟩ targets).length ≤ maxTargetUids then
        some (upsert Target.uid ⟨uid, hookmask⟩ targets) else none := by
  have hup : upsert Target.uid ⟨uid, hookmask⟩ targets =
      targets.take i ++ ⟨uid, hookmask⟩ :: targets.drop i := upsert_eq_insert hlt hgt
  have hlen : (targets.take i ++ (⟨uid, hookmask⟩ : Target) :: targets.drop i).length =
      targets.length + 1 := by
    simp only [List.length_append, List.length_cons, List.length_take, List.length_drop]
    omega
  rw [hup, hlen]
  split_ifs <;> first | rfl | omega

/-- Writing a target into a sorted table is an upsert, if it fits. -/
theorem setTarget_eq (hs : SortedBy Target.uid targets) (hl : targets.length ≤ maxTargetUids)
    (uid hookmask : UInt32) : setTarget targets uid hookmask =
      if (upsert Target.uid ⟨uid, hookmask⟩ targets).length ≤ maxTargetUids then
        some (upsert Target.uid ⟨uid, hookmask⟩ targets) else none := by
  have hpre : ∀ x ∈ targets.take (targets.findIdx fun t => uid ≤ t.uid), x.uid < uid := by
    intro x hx
    obtain ⟨j, hj, rfl⟩ := List.mem_iff_getElem.1 hx
    rw [List.length_take] at hj
    rw [List.getElem_take]
    simpa using List.not_of_lt_findIdx (lt_of_lt_of_le hj (min_le_left _ _))
  simp only [setTarget, binarySearchByKey]
  generalize hi : (targets.findIdx fun t => decide (uid ≤ t.uid)) = i at hpre ⊢
  by_cases hlt : i < targets.length
  -- The search stops at the first uid that is not below, which is the uid or after it.
  · have hge : uid ≤ targets[i].uid := by
      subst hi
      simpa using List.findIdx_getElem (w := hlt)
    rw [List.getElem?_eq_getElem hlt, Option.any_some]
    by_cases heq : targets[i].uid = uid
    · have hup : upsert Target.uid ⟨uid, hookmask⟩ targets = targets.set i ⟨uid, hookmask⟩ :=
        upsert_eq_set hs hlt heq
      rw [if_pos (decide_eq_true heq), hup, List.length_set, if_pos hl]
      dsimp only
      rw [List.modify_eq_take_cons_drop hlt, List.set_eq_take_append_cons_drop, if_pos hlt, heq]
    · have hgt : ∀ x ∈ targets.drop i, uid < x.uid := by
        intro x hx
        obtain ⟨j, hj, rfl⟩ := List.mem_iff_getElem.1 hx
        rw [List.getElem_drop]
        rcases Nat.eq_zero_or_pos j with rfl | hj'
        · exact lt_of_le_of_ne hge (Ne.symm heq)
        · exact lt_of_le_of_lt hge
            (List.pairwise_iff_getElem.1 hs i (i + j) hlt _ (Nat.lt_add_of_pos_right hj'))
      rw [if_neg (by simpa using heq)]
      exact setTarget_miss hpre hgt
  · have hd : targets.drop i = [] := List.drop_eq_nil_of_le (not_lt.1 hlt)
    rw [List.getElem?_eq_none (not_lt.1 hlt), Option.any_none, if_neg Bool.false_ne_true]
    exact setTarget_miss hpre (by simp [hd])

/-- Writing a target keeps the table sorted, and within its capacity. -/
theorem sorted_setTarget (hs : SortedBy Target.uid targets) (hl : targets.length ≤ maxTargetUids)
    {uid hookmask : UInt32} {targets' : List Target}
    (h : setTarget targets uid hookmask = some targets') :
    SortedBy Target.uid targets' ∧ targets'.length ≤ maxTargetUids := by
  rw [setTarget_eq hs hl] at h
  split_ifs at h with hfits
  obtain rfl := Option.some.inj h
  exact ⟨sorted_upsert hs, hfits⟩

/-- The invariant of the reader: its table is sorted, and fits. -/
structure ConfigState.Good (s : ConfigState) : Prop where
  sorted : SortedBy Target.uid s.cfg.targets
  fits : s.cfg.targets.length ≤ maxTargetUids

/-- Writing the targets `as`, unless they do not fit. -/
def ConfigState.assign (s : ConfigState) (as : List Target) : Option ConfigState :=
  if (writeTargets s.cfg.targets as).length ≤ maxTargetUids then
    some { s with
      cfg := { s.cfg with targets := writeTargets s.cfg.targets as }
      uidsSeen := s.uidsSeen + as.length }
  else none

/-- The table only grows. -/
theorem length_le_length_writeTargets (l as : List Target) :
    l.length ≤ (writeTargets l as).length := by
  induction as generalizing l with
  | nil => exact le_rfl
  | cons t as ih => exact length_le_length_upsert.trans (ih _)

theorem writeTargets_append (l as bs : List Target) :
    writeTargets l (as ++ bs) = writeTargets (writeTargets l as) bs := List.foldl_append

theorem ConfigState.assign_append (as bs : List Target) :
    s.assign (as ++ bs) = (s.assign as).bind (·.assign bs) := by
  simp only [assign, writeTargets_append]
  by_cases h : (writeTargets s.cfg.targets as).length ≤ maxTargetUids
  · rw [if_pos h, Option.bind_some, List.length_append, Nat.add_assoc]
  · -- What does not fit once never fits again.
    rw [if_neg h, if_neg fun h' => h ((length_le_length_writeTargets _ bs).trans h'),
      Option.bind_none]

theorem ConfigState.Good.of_assign {as : List Target} {s' : ConfigState} (hs : s.Good)
    (h : s.assign as = some s') : s'.Good := by
  rw [assign] at h
  split_ifs at h with hl
  obtain rfl := Option.some.inj h
  exact ⟨sorted_foldl_upsert as hs.sorted, hl⟩

theorem configUid_eq (hs : s.Good) (mask : UInt32) (tok : Bytes) :
    configUid mask s tok = (parseHexBare tok 32).bind fun uid =>
      s.assign [⟨uid.toUInt32, mask⟩] := by
  rw [configUid, Option.bind_eq_bind]
  congr 1
  funext uid
  rw [setTarget_eq hs.sorted hs.fits, ConfigState.assign]
  by_cases h : (upsert Target.uid ⟨uid.toUInt32, mask⟩ s.cfg.targets).length ≤ maxTargetUids
  · simp [writeTargets, h]
  · simp [writeTargets, h]

/-- Reading the uids of a group is assigning its mask to them. -/
theorem foldlM_configUid (hs : s.Good) (mask : UInt32) (toks : List Bytes) :
    toks.foldlM (configUid mask) s = (toks.mapM (parseHexBare · 32)).bind fun uids =>
      s.assign ((uids.map Nat.toUInt32).map (⟨·, mask⟩)) := by
  induction toks generalizing s with
  | nil => simp [ConfigState.assign, writeTargets, hs.fits]
  | cons tok toks ih =>
    rw [List.foldlM_cons, List.mapM_cons, configUid_eq hs]
    cases parseHexBare tok 32 with
    | none => rfl
    | some uid =>
      simp only [Option.bind_some, Option.bind_eq_bind, Option.pure_def]
      cases ha : s.assign [⟨uid.toUInt32, mask⟩] with
      | none =>
        -- A malformed uid further on rejects the payload anyway.
        cases toks.mapM (parseHexBare · 32) with
        | none => rfl
        | some uids =>
          rw [Option.bind_none, Option.bind_some, Option.bind_some, List.map_cons, List.map_cons,
            ← List.singleton_append, ConfigState.assign_append, ha, Option.bind_none]
      | some s' =>
        rw [Option.bind_some, ih (hs.of_assign ha)]
        cases toks.mapM (parseHexBare · 32) with
        | none => rfl
        | some uids =>
          rw [Option.bind_some, Option.bind_some, Option.bind_some, List.map_cons, List.map_cons,
            ← List.singleton_append, ConfigState.assign_append, ha, Option.bind_some]

/-- What a record does to the state of the reader. -/
def ConfigState.apply (s : ConfigState) : Record → Option ConfigState
  | .debug flag => some { s with cfg := { s.cfg with debug := some flag } }
  | .default mask => some { s with cfg := { s.cfg with defaultMask := mask } }
  | .targets mask uids => s.assign (uids.map (⟨·, mask⟩))
  | .badTargets => none
  | .count n => some { s with declared := some n }
  | .skip => some s

theorem configTokens_eq (hs : s.Good) (toks : List Bytes) :
    configTokens s toks = s.apply (readTokens toks) := by
  cases toks with
  | nil => rfl
  | cons keyword it =>
    rw [configTokens, readTokens]
    split_ifs
    · rfl
    · rfl
    · rfl
    · cases it.head?.bind (parseHexBare · 32) <;> rfl
    · cases it.head?.bind (parseHexBare · 32) with
      | none => rfl
      | some mask =>
        simp only [Option.elim_some, foldlM_configUid hs]
        cases it.tail.mapM (parseHexBare · 32) <;> rfl
    · cases it.head?.bind (parseHexBare · 32) <;> rfl
    · rfl

theorem configLine_eq (hs : s.Good) (line : Bytes) :
    configLine s line = s.apply (readLine line) := by
  rw [configLine, readLine]
  cases significant line with
  | none => rfl
  | some content => exact configTokens_eq hs _

theorem ConfigState.Good.of_apply {r : Record} {s' : ConfigState} (hs : s.Good)
    (h : s.apply r = some s') : s'.Good := by
  cases r with
  | targets mask uids => exact hs.of_assign h
  | badTargets => cases h
  | debug flag => obtain rfl := Option.some.inj h; exact ⟨hs.sorted, hs.fits⟩
  | default mask => obtain rfl := Option.some.inj h; exact ⟨hs.sorted, hs.fits⟩
  | count n => obtain rfl := Option.some.inj h; exact ⟨hs.sorted, hs.fits⟩
  | skip => obtain rfl := Option.some.inj h; exact hs

/-- Reading lines is applying their records. -/
theorem foldlM_configLine (hs : s.Good) (ls : List Bytes) :
    ls.foldlM configLine s = (ls.map readLine).foldlM ConfigState.apply s := by
  induction ls generalizing s with
  | nil => rfl
  | cons line ls ih =>
    rw [List.foldlM_cons, List.map_cons, List.foldlM_cons, configLine_eq hs]
    cases h : s.apply (readLine line) with
    | none => rfl
    | some s' => exact ih (hs.of_apply h)

/-- The state after some records, if they are well formed and fit. -/
def ConfigState.after (s : ConfigState) (rs : List Record) : ConfigState where
  cfg :=
    { debug := (rs.filterMap Record.flag?).getLast?.or s.cfg.debug
      defaultMask := (rs.filterMap Record.default?).getLast?.getD s.cfg.defaultMask
      targets := writeTargets s.cfg.targets (assignments rs) }
  uidsSeen := s.uidsSeen + (assignments rs).length
  declared := (rs.filterMap Record.count?).getLast?.or s.declared

/-- The records applied one by one: they are rejected when one is malformed or does
    not fit, and otherwise the last of each kind counts. -/
theorem foldlM_apply (hs : s.Good) (rs : List Record) :
    rs.foldlM ConfigState.apply s =
      if .badTargets ∉ rs ∧ (writeTargets s.cfg.targets (assignments rs)).length ≤
        maxTargetUids then
        some (s.after rs) else none := by
  induction rs generalizing s with
  | nil => simp [ConfigState.after, assignments, writeTargets, hs.fits]
  | cons r rs ih =>
    rw [List.foldlM_cons]
    cases r with
    | badTargets => simp [ConfigState.apply]
    | targets mask uids =>
      have hcons :
          assignments (.targets mask uids :: rs) = uids.map (⟨·, mask⟩) ++ assignments rs := rfl
      rw [hcons, writeTargets_append]
      by_cases hl : (writeTargets s.cfg.targets (uids.map (⟨·, mask⟩))).length ≤ maxTargetUids
      · have ha : s.apply (.targets mask uids) = some _ := if_pos hl
        rw [ha, Option.bind_eq_bind, Option.bind_some, ih (hs.of_apply ha)]
        simp [ConfigState.after, hcons, writeTargets_append, Record.flag?, Record.default?,
          Record.count?, Nat.add_assoc]
      · have ha : s.apply (.targets mask uids) = none := if_neg hl
        -- The table only grows, so that it does not fit at the end either.
        rw [ha, if_neg fun h => hl ((length_le_length_writeTargets _ _).trans h.2)]
        rfl
    | debug flag =>
      rw [show s.apply (.debug flag) = some _ from rfl, Option.bind_eq_bind, Option.bind_some,
        ih (hs.of_apply (r := .debug flag) rfl)]
      simp [ConfigState.after, assignments, Record.assignments, Record.flag?, Record.default?,
        Record.count?, List.getLast?_cons, Option.or_some]
    | default mask =>
      rw [show s.apply (.default mask) = some _ from rfl, Option.bind_eq_bind, Option.bind_some,
        ih (hs.of_apply (r := .default mask) rfl)]
      simp [ConfigState.after, assignments, Record.assignments, Record.flag?, Record.default?,
        Record.count?, List.getLast?_cons]
    | count n =>
      rw [show s.apply (.count n) = some _ from rfl, Option.bind_eq_bind, Option.bind_some,
        ih (hs.of_apply (r := .count n) rfl)]
      simp [ConfigState.after, assignments, Record.assignments, Record.flag?, Record.default?,
        Record.count?, List.getLast?_cons, Option.or_some]
    | skip =>
      rw [show s.apply .skip = some _ from rfl, Option.bind_eq_bind, Option.bind_some,
        ih (hs.of_apply (r := .skip) rfl)]
      simp [ConfigState.after, assignments, Record.assignments, Record.flag?, Record.default?,
        Record.count?]

theorem good_init : ConfigState.init.Good := ⟨.nil, Nat.zero_le _⟩

/-- A snapshot is accepted when its records are, and means what they mean. -/
theorem parseConfig_eq_some_iff {buf : Bytes} {cfg : Config} : parseConfig buf = some cfg ↔
    ∃ rest, parseHeader buf = some (.config, rest) ∧ Accepted (records rest) ∧
      cfg = meaning (records rest) := by
  have hstep : ∀ rest, (lines rest).foldlM configLine .init =
      if .badTargets ∉ records rest ∧
        (writeTargets [] (assignments (records rest))).length ≤ maxTargetUids then
        some (ConfigState.init.after (records rest)) else none := fun rest =>
    (foldlM_configLine good_init _).trans (foldlM_apply good_init _)
  rw [parseConfig]
  cases hh : parseHeader buf with
  | none => simp
  | some kr =>
    obtain ⟨kind, rest⟩ := kr
    by_cases hk : kind = .config
    · subst hk
      simp only [Option.bind_eq_bind, Option.bind_some, guard_true, Option.pure_def, hstep]
      constructor
      · intro h
        split_ifs at h with hok
        · rw [Option.bind_some] at h
          obtain ⟨_, hg, h⟩ := Option.bind_eq_some_iff.1 h
          have hcount := (Option.guard_eq_some' _).1 hg
          exact ⟨rest, rfl,
            ⟨hok.1, by simpa [ConfigState.after, ConfigState.init] using hcount, hok.2⟩,
            by simpa [ConfigState.after, ConfigState.init, meaning] using h.symm⟩
        · cases h
      · rintro ⟨_, hrest, hacc, rfl⟩
        obtain rfl := (Prod.mk.inj (Option.some.inj hrest)).2
        have hcount : (ConfigState.init.after (records rest)).declared =
            some (ConfigState.init.after (records rest)).uidsSeen := by
          simpa [ConfigState.after, ConfigState.init] using hacc.counted
        rw [if_pos ⟨hacc.wellFormed, hacc.fits⟩, Option.bind_some, hcount]
        simp [ConfigState.after, ConfigState.init, meaning]
    · simp [hk]

end VpnHide.Protocol

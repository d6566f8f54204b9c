import Mathlib.Data.List.Forall2
import VpnHide.Kpm.IfconfCount

/-!
# Enumerating the addresses

`filter_ifconf` of `kmod/kpm/vpnhide_kpm.c` runs after `SIOCGIFCONF` and hides the addresses of a
VPN from the caller. If there are entries, they are compacted in the memory of the caller; if it has
only asked for the length, the KPM counts the addresses itself.

Both leave the same length (`Enumeration.lengths_agree`).
-/

namespace VpnHide.Kpm

open Lib Zygisk

/-! ## The filter -/

/-- The value of an `int`. -/
def asInt (v : UInt32) : ℤ := if v.toNat < 2 ^ 31 then v.toNat else v.toNat - 2 ^ 32

/-- The bytes of an `int`. -/
def intBytes (z : ℤ) : Bytes := le32 (UInt32.ofInt z)

/-- A word of the caller. -/
def copyWord (user : Memory UInt8) (src : UInt64) : Option UInt32 :=
  (user.read src 4).map fun l => (fromLeBytes l).toUInt32

/-- An entry of the caller. -/
def entryAt (req : UInt64) (i : ℕ) : UInt64 := req + (i * vpnhideIfreqSz).toUInt64

/-- The loop over the entries, of which `left` are left: how many are kept, unless a copy fails. -/
def compactEntries (req : UInt64) : ℕ → ℕ → ℕ → Memory UInt8 → Option ℕ × Memory UInt8
  | 0, _, dst, user => (some dst, user)
  | left + 1, i, dst, user =>
    match user.read (entryAt req i) vpnhideIfreqSz with
    | none => (none, user)
    | some e =>
      let e := e.set (vpnhideIfnamsiz - 1) 0
      if ifaceIsVpn e then compactEntries req left (i + 1) dst user
      else if dst ≠ i then
        match user.copyTo (entryAt req dst) e with
        | (true, user) => compactEntries req left (i + 1) (dst + 1) user
        | (false, user) => (none, user)
      else compactEntries req left (i + 1) (dst + 1) user

/-- The loop over the entries that have been removed. -/
def clearEntries (req : UInt64) : ℕ → ℕ → Memory UInt8 → Bool × Memory UInt8
  | 0, _, user => (true, user)
  | left + 1, tail, user =>
    match user.copyTo (entryAt req tail) (List.replicate vpnhideIfreqSz 0) with
    | (true, user) => clearEntries req left (tail + 1) user
    | (false, user) => (false, user)

/-- The entries of a caller, and the length it is told. -/
def filterEntries (user : Memory UInt8) (uifc req : UInt64) (n : ℕ) : Bool × Memory UInt8 :=
  match compactEntries req n 0 0 user with
  | (none, user) => (false, user)
  | (some dst, user) =>
    if dst ≠ n then
      match clearEntries req (n - dst) dst user with
      | (false, user) => (false, user)
      | (true, user) => user.copyTo uifc (intBytes (dst * vpnhideIfreqSz))
    else (false, user)

/-- Whether something has been hidden, and the memory of the caller. -/
def filterIfconf (k : Kernel) (user : Memory UInt8) (uifc file : UInt64) : Bool × Memory UInt8 :=
  if uifc = 0 || !k.copyFromUser || !k.copyToUser then (false, user)
  else
    match copyWord user uifc, copyWord user (uifc + 8), copyWord user (uifc + 12) with
    | some len, some reqLo, some reqHi =>
      let req := reqHi.toUInt64 <<< 32 ||| reqLo.toUInt64
      if asInt len ≤ 0 then (false, user)
      else if req = 0 then
        match ifconfProjectLength k file (asInt len) with
        | none => (false, user)
        | some projected => user.copyTo uifc (intBytes projected)
      else filterEntries user uifc req (asInt len / vpnhideIfreqSz).toNat
    | _, _, _ => (false, user)

/-! ## Words -/

theorem length_intBytes (z : ℤ) : (intBytes z).length = 4 := rfl

theorem fromLeBytes_le32 (n : UInt32) : (fromLeBytes (le32 n)).toUInt32 = n := by
  have h := readU32_le32 n []
  rw [List.append_nil, readU32, getRange_eq_some (by simp [le32, le16]), Option.map_some] at h
  exact Option.some.inj h

/-- A number below `2^31` is read back. -/
theorem asInt_ofInt {n : ℕ} (h : n < 2 ^ 31) : asInt (UInt32.ofInt n) = n := by
  have hnat : (UInt32.ofInt (n : ℤ)).toNat = n := by
    change (((n : ℤ) % 2 ^ 32).toNat) % 2 ^ 32 = n
    omega
  rw [asInt, hnat, if_pos h]

/-! ## Compacting -/

section Compact

variable {base : Memory UInt8} {req : UInt64} {orig data kept : Bytes}

/-- An entry as the kernel fills it: the name in it ends. -/
structure Entry where
  bytes : Bytes
  length_eq : bytes.length = vpnhideIfreqSz
  terminated : bytes[vpnhideIfnamsiz - 1]? = some 0

/-- The bytes of some entries. -/
def entriesBytes (entries : List Entry) : Bytes := (entries.map Entry.bytes).flatten

/-- The entries that are not hidden. -/
def shownEntries (entries : List Entry) : List Entry := entries.filter fun e => !ifaceIsVpn e.bytes

/-- The length of the entries. -/
theorem length_entriesBytes (entries : List Entry) :
    (entriesBytes entries).length = entries.length * vpnhideIfreqSz := by
  induction entries with
  | nil => rfl
  | cons e entries ih =>
    rw [entriesBytes, List.map_cons, List.flatten_cons, List.length_append, ← entriesBytes, ih,
      e.length_eq, List.length_cons, Nat.succ_mul, Nat.add_comm]

/-- The name of an entry ends as it does: nothing is cut. -/
theorem Entry.set_last (e : Entry) : e.bytes.set (vpnhideIfnamsiz - 1) 0 = e.bytes := by
  obtain ⟨hlt, h⟩ := List.getElem?_eq_some_iff.1 e.terminated
  rw [← h, List.set_getElem_self]

/-- The entries that are left are filtered, behind those that have been kept. -/
theorem compactEntries_eq (horig : orig.length < 2 ^ 64) (entries : List Entry) {i dst : ℕ}
    (hc : Compaction orig data (i * vpnhideIfreqSz) (dst * vpnhideIfreqSz) kept)
    (hrest : orig.drop (i * vpnhideIfreqSz) = entriesBytes entries) :
    ∃ data', compactEntries req entries.length i dst (base.write req data) =
        (some (dst + (shownEntries entries).length), base.write req data') ∧
      Compaction orig data' orig.length ((dst + (shownEntries entries).length) * vpnhideIfreqSz)
        (kept ++ entriesBytes (shownEntries entries)) := by
  -- By the entries that are left, with what has been kept in front of the cursor.
  induction entries generalizing i dst data kept with
  | nil =>
    have hend : i * vpnhideIfreqSz = orig.length :=
      le_antisymm hc.le_length (List.drop_eq_nil_iff.1 hrest)
    refine ⟨data, rfl, ?_⟩
    rw [← hend]
    simpa [shownEntries, entriesBytes] using hc
  | cons e entries ih =>
    have hsplit : orig.drop (i * vpnhideIfreqSz) = e.bytes ++ entriesBytes entries := hrest
    have hroom : i * vpnhideIfreqSz + vpnhideIfreqSz ≤ orig.length := by
      have hlen := congrArg List.length hsplit
      rw [List.length_drop, List.length_append, e.length_eq] at hlen
      have hpos : 0 < vpnhideIfreqSz := by decide
      omega
    have hdata : data.length < 2 ^ 64 := hc.length_eq.trans_lt horig
    have hentry : (orig.drop (i * vpnhideIfreqSz)).take vpnhideIfreqSz = e.bytes := by
      rw [hsplit, List.take_left' e.length_eq]
    have hread : (base.write req data).read (entryAt req i) vpnhideIfreqSz = some e.bytes := by
      rw [entryAt, Memory.read_write (hroom.trans_eq hc.length_eq.symm) hdata, hc.unread, hentry]
    have hnext : orig.drop ((i + 1) * vpnhideIfreqSz) = entriesBytes entries := by
      rw [Nat.succ_mul, ← List.drop_drop, hsplit, List.drop_left' e.length_eq]
    rw [List.length_cons, compactEntries, hread]
    dsimp only
    rw [e.set_last]
    -- A hidden entry is left behind, and is written over later.
    by_cases hvpn : ifaceIsVpn e.bytes = true
    · have hshown : shownEntries (e :: entries) = shownEntries entries := by
        rw [shownEntries, List.filter_cons_of_neg (by simp [hvpn])]
        rfl
      have hskip := hc.skip hroom
      rw [← Nat.succ_mul] at hskip
      rw [if_pos hvpn, hshown]
      exact ih hskip hnext
    · have hshown : shownEntries (e :: entries) = e :: shownEntries entries := by
        rw [shownEntries, List.filter_cons_of_pos (by simp [hvpn])]
        rfl
      have hkeep := hc.keep hroom
      rw [← Nat.succ_mul, ← Nat.succ_mul, hentry] at hkeep
      obtain ⟨data', hrun, hc'⟩ := ih hkeep hnext
      have hcount :
          dst + (shownEntries (e :: entries)).length = dst + 1 + (shownEntries entries).length := by
        rw [hshown, List.length_cons]
        omega
      have hkept : kept ++ entriesBytes (shownEntries (e :: entries)) =
          kept ++ e.bytes ++ entriesBytes (shownEntries entries) := by
        rw [hshown, List.append_assoc]
        rfl
      refine ⟨data', ?_, by rw [hcount, hkept]; exact hc'⟩
      rw [if_neg hvpn, hcount, ← hrun]
      -- An entry that is already in its place is not copied.
      by_cases hmoved : dst = i
      · rw [if_neg (not_not.2 hmoved), hmoved, moveDown, if_neg (not_not.2 rfl)]
      · have hfit : dst * vpnhideIfreqSz + vpnhideIfreqSz ≤ data.length := by
          have hle := hc.le
          rw [hc.length_eq]
          omega
        have hto : (base.write req data).copyTo (entryAt req dst) e.bytes =
            (true, base.write req
              (moveDown data (i * vpnhideIfreqSz) vpnhideIfreqSz (dst * vpnhideIfreqSz))) := by
          rw [entryAt,
            @Memory.copyTo_of_read _ _ _ _ ((data.drop (dst * vpnhideIfreqSz)).take e.bytes.length)
            (Memory.read_write (by rw [e.length_eq]; exact hfit) hdata),
            Memory.write_write (by rw [e.length_eq]; exact hfit) hdata, moveDown_eq, hc.unread,
            hentry, e.length_eq]
        rw [if_pos hmoved, hto]

/-- The entries behind those that have been kept are cleared. -/
theorem clearEntries_eq (left tail : ℕ) (hlen : data.length = (tail + left) * vpnhideIfreqSz)
    (hdata : data.length < 2 ^ 64) :
    clearEntries req left tail (base.write req data) =
      (true, base.write req (data.take (tail * vpnhideIfreqSz) ++
        List.replicate (left * vpnhideIfreqSz) 0)) := by
  -- By the entries that are left to clear, from the first one on.
  induction left generalizing tail data with
  | zero =>
    rw [clearEntries, List.take_of_length_le (by rw [hlen]; exact le_rfl)]
    simp
  | succ left ih =>
    have hzero : (List.replicate vpnhideIfreqSz (0 : UInt8)).length = vpnhideIfreqSz :=
      List.length_replicate
    have hfit : tail * vpnhideIfreqSz + vpnhideIfreqSz ≤ data.length := by
      rw [hlen, ← Nat.succ_mul]
      exact Nat.mul_le_mul_right _ (by omega)
    have htake : (data.take (tail * vpnhideIfreqSz)).length = tail * vpnhideIfreqSz :=
      List.length_take_of_le (by omega)
    have hto : (base.write req data).copyTo (entryAt req tail) (List.replicate vpnhideIfreqSz 0) =
        (true, base.write req
          (data.take (tail * vpnhideIfreqSz) ++ (List.replicate vpnhideIfreqSz 0 ++
            data.drop (tail * vpnhideIfreqSz + vpnhideIfreqSz)))) := by
      rw [entryAt,
        @Memory.copyTo_of_read _ _ _ _ ((data.drop (tail * vpnhideIfreqSz)).take vpnhideIfreqSz)
        (by rw [hzero]; exact Memory.read_write hfit hdata),
        Memory.write_write (by rw [hzero]; exact hfit) hdata, hzero]
    have hsame : (data.take (tail * vpnhideIfreqSz) ++ (List.replicate vpnhideIfreqSz 0 ++
        data.drop (tail * vpnhideIfreqSz + vpnhideIfreqSz))).length = data.length := by
      rw [List.length_append, List.length_append, htake, hzero, List.length_drop]
      omega
    have hkept : (data.take (tail * vpnhideIfreqSz) ++ (List.replicate vpnhideIfreqSz 0 ++
        data.drop (tail * vpnhideIfreqSz + vpnhideIfreqSz))).take ((tail + 1) * vpnhideIfreqSz) =
        data.take (tail * vpnhideIfreqSz) ++ List.replicate vpnhideIfreqSz 0 := by
      rw [← List.append_assoc]
      exact List.take_left' (by rw [List.length_append, htake, hzero, Nat.succ_mul])
    rw [clearEntries, hto]
    dsimp only
    rw [ih (tail + 1) (by rw [hsame, hlen, Nat.add_assoc, Nat.add_comm 1]) (hsame.trans_lt hdata),
      hkept, List.append_assoc, List.replicate_append_replicate, Nat.succ_mul, Nat.add_comm]

end Compact

/-! ## Queries -/

/-- The length that a caller is told. -/
def ifcLen (user : Memory UInt8) (uifc : UInt64) : Option ℤ := (copyWord user uifc).map asInt

/-- A caller, after the kernel has answered it: the length is that of `n` addresses. -/
structure Caller (n : ℕ) where
  user : Memory UInt8
  uifc : UInt64
  uifc_ne_zero : uifc ≠ 0
  reqLo : UInt32
  reqHi : UInt32
  ifcLen_eq : ifcLen user uifc = some (n * vpnhideIfreqSz : ℕ)
  reqLo_eq : copyWord user (uifc + 8) = some reqLo
  reqHi_eq : copyWord user (uifc + 12) = some reqHi

namespace Caller

variable {n : ℕ} (c : Caller n)

/-- The entries of the caller. -/
def req : UInt64 := c.reqHi.toUInt64 <<< 32 ||| c.reqLo.toUInt64

/-- What a caller finds if `hidden` of its addresses have been hidden. -/
structure Told (hidden : ℕ) (x : Bool × Memory UInt8) : Prop where
  reported : x.1 = decide (0 < hidden)
  ifcLen_eq : ifcLen x.2 c.uifc = some ((n - hidden) * vpnhideIfreqSz : ℕ)

/-- Beside the words of the caller, the filter needs those that copy. -/
theorem filterIfconf_eq {k : Kernel} {file : UInt64} (hn : 0 < n) (hfrom : k.copyFromUser = true)
    (hto : k.copyToUser = true) :
    filterIfconf k c.user c.uifc file =
      if c.req = 0 then
        match ifconfProjectLength k file (n * vpnhideIfreqSz : ℕ) with
        | none => (false, c.user)
        | some projected => c.user.copyTo c.uifc (intBytes projected)
      else filterEntries c.user c.uifc c.req n := by
  obtain ⟨len, hlen, hint⟩ := Option.map_eq_some_iff.1 c.ifcLen_eq
  have hpos : ¬((n * vpnhideIfreqSz : ℕ) : ℤ) ≤ 0 := by
    rw [vpnhideIfreqSz]
    omega
  have hdiv : (((n * vpnhideIfreqSz : ℕ) : ℤ) / vpnhideIfreqSz).toNat = n := by
    rw [vpnhideIfreqSz]
    omega
  unfold filterIfconf
  rw [decide_eq_false c.uifc_ne_zero, hfrom, hto, hlen, c.reqLo_eq, c.reqHi_eq]
  dsimp only
  rw [hint, if_neg hpos, hdiv]
  rfl

/-- A word is written over the length. -/
theorem copyTo_uifc (z : ℤ) :
    c.user.copyTo c.uifc (intBytes z) = (true, c.user.write c.uifc (intBytes z)) := by
  obtain ⟨len, hlen, -⟩ := Option.map_eq_some_iff.1 c.ifcLen_eq
  obtain ⟨l, hl, -⟩ := Option.map_eq_some_iff.1 hlen
  exact Memory.copyTo_of_read hl

/-- The length that is read back. -/
theorem ifcLen_write {user : Memory UInt8} {m : ℕ} (hm : m < 2 ^ 31) :
    ifcLen (user.write c.uifc (intBytes m)) c.uifc = some (m : ℤ) := by
  have hread :=
    Memory.read_write_start (m := user) (a := c.uifc) (length_intBytes m).ge
      (by rw [length_intBytes]; decide)
  rw [List.take_of_length_le (length_intBytes m).le] at hread
  rw [ifcLen, copyWord, hread, Option.map_some, Option.map_some, intBytes,
    fromLeBytes_le32, asInt_ofInt hm]

end Caller

/-- The entries are hidden that the labels are. -/
theorem length_shownEntries_add {labels : List Bytes} {entries : List Entry}
    (h : List.Forall₂ (fun label e => e.bytes.takeWhile (· != 0) = label.takeWhile (· != 0)) labels
      entries) :
    (shownEntries entries).length + hiddenLabels labels = labels.length := by
  induction h with
  | nil => rfl
  | @cons label entry labels entries hname _ ih =>
    have hvpn : ifaceIsVpn entry.bytes = ifaceIsVpn label := by rw [ifaceIsVpn, ifaceIsVpn, hname]
    rw [shownEntries, List.filter_cons, hvpn, hiddenLabels, List.countP_cons, List.length_cons,
      ← ih, hiddenLabels, shownEntries]
    cases ifaceIsVpn label with
    | true =>
      simp only [Bool.not_true, Bool.false_eq_true, if_false, if_true]
      omega
    | false =>
      simp only [Bool.not_false, Bool.false_eq_true, if_false, if_true, List.length_cons]
      omega

/-- A caller that asks for the length only. -/
structure NullQuery (n : ℕ) extends Caller n where
  req_eq_zero : toCaller.req = 0

/-- A caller with an entry for every label. The entries lie apart from the length. -/
structure BufferedQuery (labels : List Bytes) extends Caller labels.length where
  req_ne_zero : toCaller.req ≠ 0
  entries : List Entry
  names : List.Forall₂ (fun label e => e.bytes.takeWhile (· != 0) = label.takeWhile (· != 0))
    labels entries
  stored : user.read toCaller.req (labels.length * vpnhideIfreqSz) = some (entriesBytes entries)
  apart : Memory.Apart uifc 4 toCaller.req (labels.length * vpnhideIfreqSz)

/-- A namespace with addresses, in a kernel in which one candidate walks to all of them: that by
    which its devices are a list. -/
structure Enumeration where
  kernel : Kernel
  file : UInt64
  net : UInt64
  first : VpnhideIfconfOffsets
  others : List VpnhideIfconfOffsets
  ifconfOffsets_eq : kernel.ifconfOffsets = first :: others
  rtnlLock : kernel.ifconfRtnlLock = true
  rtnlUnlock : kernel.ifconfRtnlUnlock = true
  kernelRead : kernel.ifconfKernelRead = true
  copyFromUser : kernel.copyFromUser = true
  copyToUser : kernel.copyToUser = true
  file_isKernel : ptrIsKernel file = true
  socketNet_eq : socketNet kernel first file = some net
  layout : VpnhideIfconfOffsets
  layout_mem : layout ∈ kernel.ifconfOffsets
  devices : List (List Bytes)
  deviceList : DeviceList kernel layout net devices
  ne_nil : devices.flatten ≠ []
  unique : (kernel.ifconfOffsets.filterMap (walked kernel net devices.flatten.length)).length = 1

namespace Enumeration

variable (e : Enumeration)

/-- The addresses of the namespace. -/
def labels : List Bytes := e.devices.flatten

/-- How many labels are hidden. -/
def hidden : ℕ := hiddenLabels e.labels

theorem hidden_le : e.hidden ≤ e.labels.length := List.countP_le_length

theorem length_labels_le : e.labels.length ≤ vpnhideIfconfMaxObjects :=
  (Nat.le_add_left _ _).trans e.deviceList.size

theorem length_labels_pos : 0 < e.labels.length := List.length_pos_of_ne_nil e.ne_nil

/-- What the walk counts is what is hidden. -/
theorem filterMap_walked :
    e.kernel.ifconfOffsets.filterMap (walked e.kernel e.net e.labels.length) = [e.hidden] := by
  obtain ⟨h, hh⟩ := List.length_eq_one_iff.1 e.unique
  have hwalk : walked e.kernel e.net e.labels.length e.layout = some e.hidden := by
    rw [walked, labels, e.deviceList.ifconfWalk_eq]
    rfl
  have hmem := List.mem_filterMap.2 ⟨e.layout, e.layout_mem, hwalk⟩
  rw [labels, hh] at hmem
  rw [labels, hh, List.mem_singleton.1 hmem]

/-- The caller that asks for the length only is told that of the addresses that are shown, and
    nothing else is written. -/
theorem null_told (q : NullQuery e.labels.length) :
    q.Told e.hidden (filterIfconf e.kernel q.user q.uifc e.file) ∧
      ∀ a, 4 ≤ (a - q.uifc).toNat → (filterIfconf e.kernel q.user q.uifc e.file).2 a =
        q.user a := by
  have hle := e.hidden_le
  have hmax := e.length_labels_le
  rw [vpnhideIfconfMaxObjects] at hmax
  have hproject :=
    ifconfProjectLength_eq e.length_labels_pos e.ifconfOffsets_eq e.rtnlLock
      e.rtnlUnlock e.kernelRead
    e.file_isKernel e.socketNet_eq e.filterMap_walked
  rw [Nat.mul_comm] at hproject
  rw [q.filterIfconf_eq e.length_labels_pos e.copyFromUser e.copyToUser,
    if_pos q.req_eq_zero, hproject]
  by_cases hzero : e.hidden = 0
  · rw [if_pos hzero]
    exact ⟨⟨by rw [hzero]; rfl, by rw [hzero, Nat.sub_zero]; exact q.ifcLen_eq⟩, fun a _ => rfl⟩
  · have hlen : ((e.labels.length * vpnhideIfreqSz : ℕ) : ℤ) - (e.hidden : ℤ) * vpnhideIfreqSz =
        ((e.labels.length - e.hidden) * vpnhideIfreqSz : ℕ) := by
      rw [vpnhideIfreqSz]
      omega
    rw [if_neg hzero, hlen]
    dsimp only
    rw [q.copyTo_uifc]
    refine ⟨⟨(decide_eq_true (Nat.pos_of_ne_zero hzero)).symm, q.ifcLen_write ?_⟩, fun a ha =>
      Memory.write_outside ha⟩
    rw [vpnhideIfreqSz]
    omega

/-- What the caller with entries finds: first those that are shown, in order, then nothing but
    zeros; and beside these and the length, nothing has been written. -/
structure Compacted (q : BufferedQuery e.labels) (user : Memory UInt8) : Prop where
  shown : user.read q.req ((e.labels.length - e.hidden) * vpnhideIfreqSz) =
    some (entriesBytes (shownEntries q.entries))
  cleared : user.read (q.req + ((e.labels.length - e.hidden) * vpnhideIfreqSz).toUInt64)
    (e.hidden * vpnhideIfreqSz) =
    some (List.replicate (e.hidden * vpnhideIfreqSz) 0)
  others : ∀ a, e.labels.length * vpnhideIfreqSz ≤ (a - q.req).toNat → 4 ≤ (a - q.uifc).toNat →
    user a = q.user a

/-- The caller with entries is told the same, and finds those that are shown. -/
theorem buffered_told (q : BufferedQuery e.labels) :
    q.Told e.hidden (filterIfconf e.kernel q.user q.uifc e.file) ∧
      e.Compacted q (filterIfconf e.kernel q.user q.uifc e.file).2 := by
  have hentries : q.entries.length = e.labels.length := q.names.length_eq.symm
  have hcounted : (shownEntries q.entries).length + e.hidden = e.labels.length :=
    length_shownEntries_add q.names
  have hle := e.hidden_le
  have hmax := e.length_labels_le
  rw [vpnhideIfconfMaxObjects] at hmax
  have hshown : (shownEntries q.entries).length = e.labels.length - e.hidden := by omega
  have hbytes : (entriesBytes q.entries).length = e.labels.length * vpnhideIfreqSz := by
    rw [length_entriesBytes, hentries]
  have hsmall : e.labels.length * vpnhideIfreqSz < 2 ^ 31 := by
    rw [vpnhideIfreqSz]
    omega
  have hwindow : (entriesBytes q.entries).length < 2 ^ 64 := by omega
  have hstart : Compaction (entriesBytes q.entries) (entriesBytes q.entries) (0 * vpnhideIfreqSz)
      (0 * vpnhideIfreqSz) [] := by
    rw [Nat.zero_mul]
    exact Compaction.start _
  obtain ⟨data, hrun, hc⟩ := @compactEntries_eq q.user q.req _ _ _ hwindow q.entries _ _ hstart
    (by rw [Nat.zero_mul, List.drop_zero])
  rw [Memory.write_of_read q.stored, hentries, Nat.zero_add, hshown] at hrun
  rw [Nat.zero_add, hshown, List.nil_append] at hc
  have hdata : data.length = e.labels.length * vpnhideIfreqSz := hc.length_eq.trans hbytes
  have hsplit : (e.labels.length - e.hidden) * vpnhideIfreqSz + e.hidden * vpnhideIfreqSz =
      e.labels.length * vpnhideIfreqSz := by rw [← Nat.add_mul, Nat.sub_add_cancel hle]
  rw [q.filterIfconf_eq e.length_labels_pos e.copyFromUser e.copyToUser, if_neg q.req_ne_zero,
    filterEntries, hrun]
  dsimp only
  by_cases hzero : e.hidden = 0
  · -- Every entry is where it was.
    rw [hzero, Nat.sub_zero] at hc
    rw [hzero, Nat.sub_zero, if_neg (not_not.2 rfl)]
    refine ⟨⟨rfl, ?_⟩, ?_, ?_, fun a ha _ => Memory.write_outside (hdata.trans_le ha)⟩
    · rw [Nat.sub_zero, ifcLen, copyWord, Memory.read_write_of_apart (by rw [hdata]; exact q.apart)]
      exact q.ifcLen_eq
    · rw [hzero, Nat.sub_zero, ← hc.written]
      exact Memory.read_write_start hdata.ge (by omega)
    · rw [hzero, Nat.zero_mul]
      rfl
  · have hmoved : e.labels.length - e.hidden ≠ e.labels.length := by omega
    have hleft : e.labels.length - (e.labels.length - e.hidden) = e.hidden := by omega
    have hclear := @clearEntries_eq q.user q.req data e.hidden (e.labels.length - e.hidden)
      (by rw [hdata, Nat.sub_add_cancel hle]) (by omega)
    rw [hc.written] at hclear
    have hkept := hc.length_kept
    have hlen : (entriesBytes (shownEntries q.entries) ++ List.replicate (e.hidden * vpnhideIfreqSz)
        0).length =
        e.labels.length * vpnhideIfreqSz := by
      rw [List.length_append, hkept, List.length_replicate, hsplit]
    have hapart : Memory.Apart q.req (e.labels.length * vpnhideIfreqSz) q.uifc 4 :=
      q.apart.symm (by omega)
    rw [if_pos hmoved, hleft, hclear]
    generalize hwritten : entriesBytes (shownEntries q.entries) ++
      List.replicate (e.hidden * vpnhideIfreqSz) 0 = written
      at hlen
    obtain ⟨len, hword, -⟩ := Option.map_eq_some_iff.1 q.ifcLen_eq
    obtain ⟨l, hl, -⟩ := Option.map_eq_some_iff.1 hword
    have hto : (q.user.write q.req written).copyTo q.uifc
        (intBytes ((e.labels.length - e.hidden : ℕ) * vpnhideIfreqSz)) =
        (true, (q.user.write q.req written).write q.uifc
          (intBytes (((e.labels.length - e.hidden) * vpnhideIfreqSz : ℕ) : ℤ))) := by
      rw [← Nat.cast_mul]
      exact Memory.copyTo_of_read
        ((Memory.read_write_of_apart (by rw [hlen]; exact q.apart)).trans hl)
    dsimp only
    rw [hto]
    refine ⟨⟨(decide_eq_true (Nat.pos_of_ne_zero hzero)).symm, q.ifcLen_write (by omega)⟩, ?_, ?_,
      fun a ha hlen' => ?_⟩
    · dsimp only
      rw [Memory.read_write_write_start (by omega) (by omega) (by rw [hlen]; exact hapart),
        ← hwritten, List.take_left' hkept]
    · dsimp only
      rw [Memory.read_write_write (by omega) (by omega) (by rw [hlen]; exact hapart), ← hwritten,
        List.drop_left' hkept, List.take_of_length_le List.length_replicate.le]
    · exact (Memory.write_outside ((length_intBytes _).trans_le hlen')).trans
        (Memory.write_outside (hlen.trans_le ha))

end Enumeration

/-- Where one candidate walks to all addresses of a namespace, the caller that asks for the length
    only, and the caller with entries, are told the length of those that are not hidden; the entries
    of the second are these, in order, and the others are cleared. Whatever the memory of a kernel
    holds, a walk ends, having seen no more than 4096 objects, and the length never grows. -/
theorem ifconf_lengths_agree :
    (∀ (e : Enumeration) (q : NullQuery e.labels.length) (b : BufferedQuery e.labels),
      q.Told e.hidden (filterIfconf e.kernel q.user q.uifc e.file) ∧
      (∀ a, 4 ≤ (a - q.uifc).toNat → (filterIfconf e.kernel q.user q.uifc e.file).2 a = q.user a) ∧
      b.Told e.hidden (filterIfconf e.kernel b.user b.uifc e.file) ∧
      e.Compacted b (filterIfconf e.kernel b.user b.uifc e.file).2) ∧
    (∀ (k : Kernel) (o : VpnhideIfconfOffsets) (net : UInt64) (expected : ℕ),
      (∃ r, ifconfWalk k o net expected = .done r) ∧
      ∀ node s, Reaches (ifconfStep k o (net + o.netDevBaseHead.toUInt64) expected)
        ⟨.device node, 0, 0, 0⟩ s →
        s.objects ≤ vpnhideIfconfMaxObjects) ∧
    ∀ (k : Kernel) (file : UInt64) (original : ℤ),
      ∀ projected ∈ ifconfProjectLength k file original,
      0 ≤ projected ∧ projected ≤ original := by
  refine ⟨fun e q b => ?_, fun k o net expected => ?_, fun k file original projected h =>
    ifconfProjectLength_mem h⟩
  · -- Both queries walk the same devices, whether there is a buffer or not.
    obtain ⟨htold, hothers⟩ := e.null_told q
    exact ⟨htold, hothers, e.buffered_told b⟩
  · -- A walk stops at the bound, if the lists of the kernel never end.
    obtain ⟨r, hr, -⟩ := ifconfWalk_ends k o net expected
    exact ⟨⟨r, hr⟩, fun node s h => objects_le h⟩

/-! An interface with the addresses of `tun0` and `lo`. -/

/-- The bytes of a pointer. -/
def pointerBytes (p : UInt64) : Bytes := le32 p.toUInt32 ++ le32 (p >>> 32).toUInt32

/-- The label of an address. -/
def labelBytes (name : String) : Bytes :=
  ascii name ++ List.replicate (vpnhideIfnamsiz - name.length) 0

/-- A memory with these contents. -/
def memoryOf (ranges : List (UInt64 × Bytes)) : Memory UInt8 :=
  ranges.foldl (fun m r => m.write r.1 r.2) fun _ => none

/-- The offsets of the example. -/
def exampleOffsets : VpnhideIfconfOffsets := ⟨144, 64, 720, 16, 16, 76, 1⟩

/-- A kernel with one device, whose list has three labels. -/
def exampleKernel : Kernel where
  memory := memoryOf
    [(0xffff000000001000 + 144, pointerBytes 0xffff000000002040),
      (0xffff000000001000 + 152, pointerBytes 0xffff000000002040),
      (0xffff000000002000 + 64, pointerBytes 0xffff000000001090),
      (0xffff000000002000 + 720, pointerBytes 0xffff000000003000),
      (0xffff000000003000, pointerBytes 0xffff000000002000),
      (0xffff000000003000 + 16, pointerBytes 0xffff000000004000),
      (0xffff000000004000 + 16, pointerBytes 0xffff000000005000),
      (0xffff000000004000 + 24, pointerBytes 0xffff000000003000),
      (0xffff000000004000 + 76, labelBytes "tun0"), (0xffff000000005000 + 16, pointerBytes 0),
      (0xffff000000005000 + 24, pointerBytes 0xffff000000003000),
      (0xffff000000005000 + 76, labelBytes "lo"),
      (0xffff000000006000 + 24, pointerBytes 0xffff000000007000),
      (0xffff000000007000 + 48, pointerBytes 0xffff000000001000)]
  off := ⟨0, 24, 24, 48⟩
  ifconfOffsets := [exampleOffsets]
  ifconfSockFromFile := some fun _ => (0xffff000000006000, 0)
  ifconfRtnlLock := true
  ifconfRtnlUnlock := true
  ifconfKernelRead := true
  copyFromUser := true
  copyToUser := true

/-- The example, as the kernel enumerates it. -/
def exampleEnumeration : Enumeration where
  kernel := exampleKernel
  file := 0xffff000000008000
  net := 0xffff000000001000
  first := exampleOffsets
  others := []
  ifconfOffsets_eq := rfl
  rtnlLock := rfl
  rtnlUnlock := rfl
  kernelRead := rfl
  copyFromUser := rfl
  copyToUser := rfl
  file_isKernel := by decide +kernel
  socketNet_eq := by decide +kernel
  layout := exampleOffsets
  layout_mem := List.mem_singleton_self _
  devices := [[labelBytes "tun0", labelBytes "lo"]]
  deviceList := by
    refine ⟨⟨0xffff000000002040, by decide +kernel,
      @Devices.cons _ _ _ _ 0xffff000000001090 _ _ (by decide +kernel)
      (by decide +kernel) (by decide +kernel)
      (@InDevice.owned _ _ _ 0xffff000000003000 0xffff000000004000 _
        (by decide +kernel) (by decide +kernel) (by decide +kernel) (by decide +kernel) ?_) ?_⟩,
          by decide⟩
    · exact @AddressChain.cons _ _ _ _ 0xffff000000005000 _ _ (by decide +kernel)
        (by decide +kernel) (by decide +kernel) (by decide +kernel)
        (by decide +kernel) (@AddressChain.cons _ _ _ _ 0 _ _ (by decide +kernel)
          (by decide +kernel) (by decide +kernel) (by decide +kernel)
          (by decide +kernel) .nil)
    · exact .nil
  ne_nil := by decide
  unique := by decide +kernel

example : exampleEnumeration.hidden = 1 := by decide +kernel

/-- An entry that the kernel writes for a label. -/
def exampleEntry (name : String)
    (h : (labelBytes name ++ List.replicate 24 0).length = vpnhideIfreqSz)
    (h' : (labelBytes name ++ List.replicate 24 0)[vpnhideIfnamsiz - 1]? = some 0) : Entry :=
  ⟨labelBytes name ++ List.replicate 24 0, h, h'⟩

/-- A query that asks for the size only. -/
def exampleNullQuery : NullQuery exampleEnumeration.labels.length where
  user := memoryOf [(4096, intBytes 80 ++ List.replicate 12 0)]
  uifc := 4096
  uifc_ne_zero := by decide
  reqLo := 0
  reqHi := 0
  ifcLen_eq := by decide +kernel
  reqLo_eq := by decide +kernel
  reqHi_eq := by decide +kernel
  req_eq_zero := by decide

/-- A query with room for two entries. -/
def exampleBufferedQuery : BufferedQuery exampleEnumeration.labels where
  user := memoryOf [(4096, intBytes 80 ++ List.replicate 4 0 ++ pointerBytes 8192),
    (8192, labelBytes "tun0" ++ List.replicate 24 0 ++ (labelBytes "lo" ++ List.replicate 24 0))]
  uifc := 4096
  uifc_ne_zero := by decide
  reqLo := 8192
  reqHi := 0
  ifcLen_eq := by decide +kernel
  reqLo_eq := by decide +kernel
  reqHi_eq := by decide +kernel
  req_ne_zero := by decide
  entries := [exampleEntry "tun0" (by decide) (by decide),
    exampleEntry "lo" (by decide) (by decide)]
  names := .cons (by decide) (.cons (by decide) .nil)
  stored := by decide +kernel
  apart := by decide +kernel

example : ifcLen (filterIfconf exampleKernel exampleNullQuery.user 4096 exampleEnumeration.file).2
    4096 = some 40 := by
  decide +kernel

example : ifcLen (filterIfconf exampleKernel exampleBufferedQuery.user 4096 0).2 4096 =
    some 40 := by decide +kernel

end VpnHide.Kpm

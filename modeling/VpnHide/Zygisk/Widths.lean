import VpnHide.Lib.Loop
import VpnHide.Zygisk.Netlink

/-!
# Filtering netlink dumps with machine words

The filter of `zygisk/src/filter.rs` once more, with the arithmetic of the two builds that
are shipped: `usize` has 32 bits on `armeabi-v7a` and 64 on `arm64-v8a`, sums and differences
wrap around (the release profile does not check for overflow), and a slice that is out of
range panics. `Zygisk.Netlink` takes the numbers as they are.

The walks over attributes never wrap, since an attribute says its length in 16 bits. The
length of a message has 32 bits: on `armeabi-v7a` the end of the message may wrap around and
so pass the check against the end of the buffer. The filter is then safe unless the message
is one of those that are sliced, or its length wraps around when it is aligned
(`dump_sound_iff`).
-/

namespace VpnHide.Zygisk

open Lib Protocol

/-! ## Machine words -/

/-- The builds of Zygisk. -/
inductive Abi
  | armeabiV7a
  | arm64V8a
  deriving DecidableEq

namespace Abi

/-- The bits of `usize`. -/
def bits : Abi → ℕ
  | armeabiV7a => 32
  | arm64V8a => 64

variable (abi : Abi)

/-- A sum that wraps around. -/
def add (a b : ℕ) : ℕ := (a + b) % 2 ^ abi.bits

/-- A difference that wraps around. -/
def sub (a b : ℕ) : ℕ := (a + 2 ^ abi.bits - b) % 2 ^ abi.bits

/-- `n as isize`: two's complement. -/
def toIsize (n : ℕ) : ℤ := if n < 2 ^ (abi.bits - 1) then n else (n : ℤ) - 2 ^ abi.bits

/-- `nlmsg_align` and `rta_align`; both constants are 4. -/
def align (len : ℕ) : ℕ := abi.sub (abi.add len 4) 1 / 4 * 4

end Abi

/-- A slice of bytes: no object of Rust is larger than `isize::MAX`. -/
structure Slice (abi : Abi) where
  bytes : Bytes
  length_lt : bytes.length < 2 ^ (abi.bits - 1)

/-- `data[a..b]`, and `data.get(a..b)`: nothing where the range is not one of `data`. -/
def slice (data : Bytes) (a b : ℕ) : Option Bytes :=
  if a ≤ b ∧ b ≤ data.length then some ((data.take b).drop a) else none

/-- `data.copy_within(src..stop, dest)`, unless `dest` is `src` and nothing is to be done;
    it panics where one of the ranges is not in `data`. -/
def moveWithin (data : Bytes) (src stop dest : ℕ) : Option Bytes :=
  if dest ≠ src then
    if src ≤ stop ∧ stop ≤ data.length ∧ dest + (stop - src) ≤ data.length then
      some (copyWithin data src stop dest)
    else none
  else some data

namespace Abi

variable (abi : Abi)

/-- Four bytes, the low one first. -/
def readU32 (data : Bytes) (off : ℕ) : Option UInt32 :=
  (slice data off (abi.add off 4)).map fun l => (fromLeBytes l).toUInt32

/-- Two bytes, the low one first. -/
def readU16 (data : Bytes) (off : ℕ) : Option UInt16 :=
  (slice data off (abi.add off 2)).map fun l => (fromLeBytes l).toUInt16

/-! ## The walks over attributes -/

/-- The loop of `route_oif`, at `pos`. -/
def routeOifBody (msg : Bytes) (pos : ℕ) : Flow ℕ (Option UInt32) :=
  if abi.add pos 4 ≤ msg.length then
    match abi.readU16 msg pos, abi.readU16 msg (abi.add pos 2) with
    | some rtaLen, some rtaType =>
      if rtaLen.toNat < 4 ∨ msg.length < abi.add pos rtaLen.toNat then .done none
      else if rtaType = rtaOif ∧ 8 ≤ rtaLen.toNat then .done (abi.readU32 msg (abi.add pos 4))
      else .next (abi.add pos (abi.align rtaLen.toNat))
    | _, _ => .done none
  else .done none

/-- Nothing if the walk panics, or has not ended after as many iterations as there are bytes. -/
def routeOif (msg : Bytes) : Option (Option UInt32) :=
  (iterate (abi.routeOifBody msg) (msg.length + 1) (nlmsgHdrlen + rtmsgHdrlen)).result?

/-- The loop of `rule_hides_vpn`: where it is, and what the attributes have said. -/
def ruleBody (msg : Bytes) : ℕ × Rule → Flow (ℕ × Rule) Rule
  | (pos, s) =>
    if abi.add pos 4 ≤ msg.length then
      match abi.readU16 msg pos, abi.readU16 msg (abi.add pos 2) with
      | some rtaLen, some rtaType =>
        if rtaLen.toNat < 4 ∨ msg.length < abi.add pos rtaLen.toNat then .done s
        else
          match slice msg (abi.add pos 4) (abi.add pos rtaLen.toNat) with
          | none => .panic
          | some payload =>
            .next (abi.add pos (abi.align rtaLen.toNat), s.attribute rtaType payload)
      | _, _ => .done s
    else .done s

/-- `rule_hides_vpn`, where a slice may be out of bounds. -/
def ruleHidesVpn (msg : Bytes) (vpnUid : UInt32) : Option Bool :=
  let table := (msg[nlmsgHdrlen + 4]?).elim 0 UInt8.toUInt32
  let s := (nlmsgHdrlen + rtmsgHdrlen, ⟨table, 0, 0, false, false⟩)
  (iterate (abi.ruleBody msg) (msg.length + 1) s).result?.map fun s =>
    s.namesVpn ||
      (s.hasUidrange && s.uidLo ≤ vpnUid && vpnUid ≤ s.uidHi &&
        !(s.uidLo == 0 && s.uidHi == 0xffffffff) && s.table != rtTableMain &&
          s.table != rtTableLocal && s.table != rtTableDefault && 100 < s.table)

end Abi

/-! ## The filter -/

/-- The buffer, and where it is read and written. -/
structure Cursors where
  data : Bytes
  readPos : ℕ
  writePos : ℕ
  deriving DecidableEq

namespace Abi

section Filter

variable (abi : Abi) (vpnIndices : List UInt32) (vpnUid : UInt32)

/-- Whether the message at the cursor is removed; nothing if that panics. -/
def hide (s : Cursors) (nlmsgLen : ℕ) (nlmsgType : UInt16) : Option Bool :=
  if (nlmsgType = rtmNewlink ∨ nlmsgType = rtmNewaddr) ∧ nlmsgHdrlen + 8 ≤ nlmsgLen then
    let ifIndex := (abi.readU32 s.data (abi.add (abi.add s.readPos nlmsgHdrlen) 4)).getD 0
    some (vpnIndices.contains ifIndex)
  else if nlmsgType = rtmNewroute ∧ nlmsgHdrlen + rtmsgHdrlen ≤ nlmsgLen then do
    let msg ← slice s.data s.readPos (abi.add s.readPos nlmsgLen)
    let oif ← abi.routeOif msg
    some (oif.any vpnIndices.contains)
  else if nlmsgType = rtmNewrule ∧ nlmsgHdrlen + rtmsgHdrlen ≤ nlmsgLen then do
    let msg ← slice s.data s.readPos (abi.add s.readPos nlmsgLen)
    abi.ruleHidesVpn msg vpnUid
  else some false

/-- Going on after a message. -/
def advance (s : Cursors) (alignedLen : ℕ) : Option Bool → Flow Cursors Cursors
  | none => .panic
  | some true => .next { s with readPos := abi.add s.readPos alignedLen }
  | some false =>
    match moveWithin s.data s.readPos (abi.add s.readPos alignedLen) s.writePos with
    | none => .panic
    | some data => .next ⟨data, abi.add s.readPos alignedLen, abi.add s.writePos alignedLen⟩

/-- The loop. -/
def filterBody (len : ℕ) (s : Cursors) : Flow Cursors Cursors :=
  if abi.add s.readPos nlmsgHdrlen ≤ len then
    match abi.readU32 s.data s.readPos with
    | none => .done s
    | some nlmsgLen =>
      if nlmsgLen.toNat < nlmsgHdrlen ∨ len < abi.add s.readPos nlmsgLen.toNat then .done s
      else
        let alignedLen := min (abi.align nlmsgLen.toNat) (abi.sub len s.readPos)
        match abi.readU16 s.data (abi.add s.readPos 4) with
        | none => .done s
        | some nlmsgType =>
          abi.advance s alignedLen (abi.hide vpnIndices vpnUid s nlmsgLen.toNat nlmsgType)
  else .done s

/-- The bytes after the last message. -/
def filterTail (len : ℕ) (s : Cursors) : Flow Cursors (Bytes × ℕ) :=
  if s.readPos < len then
    match moveWithin s.data s.readPos len s.writePos with
    | none => .panic
    | some data => .done (data, abi.add s.writePos (abi.sub len s.readPos))
  else .done (s.data, s.writePos)

/-- At most `fuel` iterations of the filter. -/
def filterNetlinkDump (fuel : ℕ) (data : Bytes) : Flow Cursors (Bytes × ℕ) :=
  if data.length < nlmsgHdrlen then .done (data, data.length)
  else
    match iterate (abi.filterBody vpnIndices vpnUid data.length) fuel ⟨data, 0, 0⟩ with
    | .next s => .next s
    | .done s => abi.filterTail data.length s
    | .panic => .panic

/-- The filter: the buffer, and the length of what is valid in it. There is nothing if it panics,
    or has not ended after as many iterations as there are bytes; then it never ends. -/
def filterDump (data : Bytes) : Option (Bytes × ℕ) :=
  (abi.filterNetlinkDump vpnIndices vpnUid (data.length + 1) data).result?

/-- The filter returns, and on the way every iteration begins with cursors in order and within
    the buffer, does not panic, and reads on. -/
structure Sound (data : Bytes) : Prop where
  returns : ∃ fuel r, abi.filterNetlinkDump vpnIndices vpnUid fuel data = .done r
  iterations : ∀ s, Reaches (abi.filterBody vpnIndices vpnUid data.length) ⟨data, 0, 0⟩ s →
    s.writePos ≤ s.readPos ∧ s.readPos ≤ data.length ∧
      abi.filterBody vpnIndices vpnUid data.length s ≠ .panic ∧
      ∀ s', abi.filterBody vpnIndices vpnUid data.length s = .next s' → s.readPos < s'.readPos

end Filter

/-- The bytes at `pos` begin with a header whose message ends beyond the address space, and
    which is either sliced there or has no aligned length. -/
def Overruns (abi : Abi) (pos : ℕ) (l : Bytes) : Prop :=
  nlmsgHdrlen ≤ l.length ∧ ∃ nlmsgLen nlmsgType, Zygisk.readU32 l 0 = some nlmsgLen ∧
    Zygisk.readU16 l 4 = some nlmsgType ∧ 2 ^ abi.bits ≤ pos + nlmsgLen.toNat ∧
    (nlmsgType = rtmNewroute ∨ nlmsgType = rtmNewrule ∨ 2 ^ abi.bits < nlmsgLen.toNat + 4)

/-! ## Where nothing wraps -/

section Exact

variable (abi : Abi)

theorem two_pow_bits : 2 ^ abi.bits = 2 * 2 ^ (abi.bits - 1) := by
  cases abi <;> rfl

theorem le_two_pow : 2147483648 ≤ 2 ^ (abi.bits - 1) := by
  cases abi <;> decide

variable {abi} {a b : ℕ} {data msg : Bytes}

theorem add_eq (h : a + b < 2 ^ abi.bits) : abi.add a b = a + b := Nat.mod_eq_of_lt h

theorem toIsize_eq (h : a < 2 ^ (abi.bits - 1)) : abi.toIsize a = a := if_pos h

theorem sub_eq (hle : b ≤ a) (h : a < 2 ^ abi.bits) : abi.sub a b = a - b := by
  have hsum : a + 2 ^ abi.bits - b = (a - b) + 2 ^ abi.bits := by omega
  rw [sub, hsum, Nat.add_mod_right, Nat.mod_eq_of_lt (by omega)]

/-- A sum that wraps around is less than its first summand. -/
theorem add_lt (h : 2 ^ abi.bits ≤ a + b) (hb : b < 2 ^ abi.bits) (ha : a < 2 ^ abi.bits) :
    abi.add a b < a := by
  rw [add, Nat.mod_eq_sub_mod h, Nat.mod_eq_of_lt (by omega)]
  omega

theorem align_eq {len : ℕ} (h : len + 4 ≤ 2 ^ abi.bits) : abi.align len = Zygisk.align len := by
  rcases Nat.lt_or_eq_of_le h with hlt | heq
  · rw [align, add_eq hlt, sub_eq (by omega) hlt, Zygisk.align]
    rfl
  · -- The sum is the first to wrap around, and the difference wraps back.
    have hpos : 0 < 2 ^ abi.bits := Nat.two_pow_pos _
    rw [align, add, heq, Nat.mod_self, sub, Nat.zero_add, Nat.mod_eq_of_lt (by omega), Zygisk.align]
    omega

/-- A length close to the largest one is rounded up to nothing. -/
theorem align_eq_zero {len : ℕ} (h : 2 ^ abi.bits < len + 4) (hlen : len < 2 ^ abi.bits) :
    abi.align len = 0 := by
  have hpow := abi.two_pow_bits
  have hle := abi.le_two_pow
  rw [align, add, Nat.mod_eq_sub_mod h.le, Nat.mod_eq_of_lt (by omega),
    sub_eq (by omega) (by omega)]
  omega

theorem slice_eq (data : Bytes) (a n : ℕ) : slice data a (a + n) = getRange data a n := by
  rw [slice, getRange, List.drop_take, Nat.add_sub_cancel_left]
  simp

theorem readU32_eq (h : a + 4 < 2 ^ abi.bits) : abi.readU32 data a = Zygisk.readU32 data a := by
  rw [readU32, add_eq h, slice_eq]
  rfl

theorem readU16_eq (h : a + 2 < 2 ^ abi.bits) : abi.readU16 data a = Zygisk.readU16 data a := by
  rw [readU16, add_eq h, slice_eq]
  rfl

theorem moveWithin_eq {r n w : ℕ} (hle : w ≤ r) (hn : r + n ≤ data.length) :
    moveWithin data r (r + n) w = some (moveDown data r n w) := by
  rw [moveWithin, moveDown]
  split_ifs with hne hrange
  · rfl
  · omega
  · rfl

/-- An iteration of the walk over a route is one of `Zygisk.routeOifAt`. -/
theorem routeOifBody_step (hmsg : msg.length < 2 ^ (abi.bits - 1)) {pos : ℕ}
    (hpos : pos ≤ msg.length + 28) :
    (∃ r, abi.routeOifBody msg pos = .done r ∧ r = routeOifAt msg pos) ∨
      ∃ pos', abi.routeOifBody msg pos = .next pos' ∧ pos' ≤ msg.length + 28 ∧
        msg.length - pos' < msg.length - pos ∧ ∀ r, r = routeOifAt msg pos' →
          r = routeOifAt msg pos := by
  have hpow := abi.two_pow_bits
  have hle := abi.le_two_pow
  rw [routeOifBody, add_eq (show pos + 4 < 2 ^ abi.bits by omega), readU16_eq (by omega),
    add_eq (show pos + 2 < 2 ^ abi.bits by omega), readU16_eq (by omega), readU32_eq (by omega),
    routeOifAt]
  by_cases hroom : pos + 4 ≤ msg.length
  · obtain ⟨rtaLen, hlen⟩ := exists_readU16 (show pos + 2 ≤ msg.length by omega)
    obtain ⟨rtaType, htype⟩ := exists_readU16 (show pos + 2 + 2 ≤ msg.length by omega)
    have hlt : rtaLen.toNat < 65536 := rtaLen.toNat_lt
    rw [if_pos hroom, if_pos hroom, hlen, htype]
    dsimp only [Option.bind_eq_bind, Option.bind_some]
    rw [add_eq (show pos + rtaLen.toNat < 2 ^ abi.bits by omega), align_eq (by omega)]
    by_cases hbad : rtaLen.toNat < 4 ∨ msg.length < pos + rtaLen.toNat
    · rw [if_pos hbad, if_pos hbad]
      exact .inl ⟨none, rfl, rfl⟩
    · rw [if_neg hbad, if_neg hbad]
      by_cases hfound : rtaType = rtaOif ∧ 8 ≤ rtaLen.toNat
      · rw [if_pos hfound, if_pos hfound]
        exact .inl ⟨_, rfl, rfl⟩
      · have halign := le_align rtaLen.toNat
        have halign' : Zygisk.align rtaLen.toNat ≤ rtaLen.toNat + 3 := Nat.div_mul_le_self _ _
        rw [if_neg hfound, if_neg hfound, add_eq (by omega)]
        exact .inr ⟨_, rfl, by omega, by omega, fun r hr => hr⟩
  · rw [if_neg hroom, if_neg hroom]
    exact .inl ⟨none, rfl, rfl⟩

theorem routeOif_eq (hmsg : msg.length < 2 ^ (abi.bits - 1)) :
    abi.routeOif msg = some (Zygisk.routeOif msg) := by
  obtain ⟨r, hr, rfl⟩ := @iterate_done _ _ (abi.routeOifBody msg) (· ≤ msg.length + 28)
    (fun pos r => r = routeOifAt msg pos) (msg.length - ·)
    (fun _ hpos => routeOifBody_step hmsg hpos)
    (msg.length + 1) (nlmsgHdrlen + rtmsgHdrlen) (Nat.le_add_left _ _) (by omega)
  rw [routeOif, hr]
  rfl

/-- An iteration of the walk over a rule is one of `Rule.attributes`. -/
theorem ruleBody_step (hmsg : msg.length < 2 ^ (abi.bits - 1)) {s : ℕ × Rule}
    (hpos : s.1 ≤ msg.length + 28) :
    (∃ r, abi.ruleBody msg s = .done r ∧ r = Rule.attributes msg s.1 s.2) ∨
      ∃ s', abi.ruleBody msg s = .next s' ∧ s'.1 ≤ msg.length + 28 ∧
        msg.length - s'.1 < msg.length - s.1 ∧ ∀ r, r = Rule.attributes msg s'.1 s'.2 →
          r = Rule.attributes msg s.1 s.2 := by
  have hpow := abi.two_pow_bits
  have hle := abi.le_two_pow
  obtain ⟨pos, s⟩ := s
  dsimp only at hpos ⊢
  rw [ruleBody, add_eq (show pos + 4 < 2 ^ abi.bits by omega), readU16_eq (by omega),
    add_eq (show pos + 2 < 2 ^ abi.bits by omega), readU16_eq (by omega), Rule.attributes]
  by_cases hroom : pos + 4 ≤ msg.length
  · obtain ⟨rtaLen, hlen⟩ := exists_readU16 (show pos + 2 ≤ msg.length by omega)
    obtain ⟨rtaType, htype⟩ := exists_readU16 (show pos + 2 + 2 ≤ msg.length by omega)
    have hlt : rtaLen.toNat < 65536 := rtaLen.toNat_lt
    rw [if_pos hroom, if_pos hroom, hlen, htype]
    dsimp only
    rw [add_eq (show pos + rtaLen.toNat < 2 ^ abi.bits by omega), align_eq (by omega)]
    by_cases hbad : rtaLen.toNat < 4 ∨ msg.length < pos + rtaLen.toNat
    · rw [if_pos hbad, if_pos hbad]
      exact .inl ⟨s, rfl, rfl⟩
    · have halign := le_align rtaLen.toNat
      have halign' : Zygisk.align rtaLen.toNat ≤ rtaLen.toNat + 3 := Nat.div_mul_le_self _ _
      rw [if_neg hbad, if_neg hbad, slice, if_pos (by omega), add_eq (by omega)]
      exact .inr ⟨_, rfl, by omega, by omega, fun r hr => hr⟩
  · rw [if_neg hroom, if_neg hroom]
    exact .inl ⟨s, rfl, rfl⟩

theorem ruleHidesVpn_eq (vpnUid : UInt32) (hmsg : msg.length < 2 ^ (abi.bits - 1)) :
    abi.ruleHidesVpn msg vpnUid = some (Zygisk.ruleHidesVpn msg vpnUid) := by
  obtain ⟨r, hr, rfl⟩ := @iterate_done _ _ (abi.ruleBody msg) (·.1 ≤ msg.length + 28)
    (fun s r => r = Rule.attributes msg s.1 s.2) (msg.length - ·.1)
    (fun _ hpos => ruleBody_step hmsg hpos)
    (msg.length + 1) (nlmsgHdrlen + rtmsgHdrlen,
      ⟨(msg[nlmsgHdrlen + 4]?).elim 0 UInt8.toUInt32, 0, 0, false, false⟩)
    (Nat.le_add_left _ _) (by omega)
  rw [ruleHidesVpn, hr]
  rfl

end Exact

/-! ## An iteration of the filter -/

section Iteration

variable {abi : Abi} (vpnIndices : List UInt32) (vpnUid : UInt32) {orig kept : Bytes} {s : Cursors}
  {n : ℕ} {k : UInt32} {t : UInt16}

theorem hide_eq (hlen : s.data.length < 2 ^ (abi.bits - 1)) (hn : s.readPos + n ≤ s.data.length) :
    abi.hide vpnIndices vpnUid s n t =
      some (Zygisk.hide vpnIndices vpnUid s.data s.readPos n t) := by
  have hpow := abi.two_pow_bits
  have hle := abi.le_two_pow
  have hmsg : ((s.data.drop s.readPos).take n).length < 2 ^ (abi.bits - 1) := by
    rw [List.length_take, List.length_drop]
    omega
  have h16 : abi.add s.readPos nlmsgHdrlen = s.readPos + nlmsgHdrlen :=
    add_eq (by rw [nlmsgHdrlen]; omega)
  have h20 : abi.add (s.readPos + nlmsgHdrlen) 4 = s.readPos + nlmsgHdrlen + 4 :=
    add_eq (by rw [nlmsgHdrlen]; omega)
  rw [hide, Zygisk.hide, h16, h20, readU32_eq (by rw [nlmsgHdrlen]; omega), add_eq (by omega),
    slice_eq, getRange_eq_some hn]
  dsimp only [Option.bind_eq_bind, Option.bind_some]
  rw [routeOif_eq hmsg, ruleHidesVpn_eq vpnUid hmsg, Option.bind_some]
  split_ifs <;> rfl

/-- A message that ends beyond the address space: it cannot be sliced, and what is read of
    other messages is no more than its header. -/
theorem hide_of_wraps (hlen : s.data.length < 2 ^ (abi.bits - 1)) (hr : s.readPos ≤ s.data.length)
    (hwraps : 2 ^ abi.bits ≤ s.readPos + k.toNat) (hk : k.toNat < 2 ^ abi.bits) :
    abi.hide vpnIndices vpnUid s k.toNat t = none ↔ t = rtmNewroute ∨ t = rtmNewrule := by
  have hpow := abi.two_pow_bits
  have hle := abi.le_two_pow
  have hback : abi.add s.readPos k.toNat < s.readPos := add_lt hwraps hk (by omega)
  have hslice : slice s.data s.readPos (abi.add s.readPos k.toNat) = none := if_neg (by omega)
  have h28 : nlmsgHdrlen + rtmsgHdrlen ≤ k.toNat := by
    rw [nlmsgHdrlen, rtmsgHdrlen]
    omega
  rw [hide, hslice]
  dsimp only [Option.bind_eq_bind, Option.bind_none]
  split_ifs with hlink hroute hrule
  · have hother : ¬(t = rtmNewroute ∨ t = rtmNewrule) := by
      obtain ⟨rfl | rfl, -⟩ := hlink <;> decide
    simp [hother]
  · simp [hroute.1]
  · simp [hrule.1]
  · have hother : ¬(t = rtmNewroute ∨ t = rtmNewrule) :=
      fun h => h.elim (fun h => hroute ⟨h, h28⟩) fun h => hrule ⟨h, h28⟩
    simp [hother]

variable (hc : Compaction orig s.data s.readPos s.writePos kept)
  (horig : orig.length < 2 ^ (abi.bits - 1))

include hc horig

/-- Going on within the buffer. -/
theorem advance_of_some (hn : s.readPos + n ≤ orig.length) (b : Bool) :
    abi.advance s n (some b) = .next
        (if b then ⟨s.data, s.readPos + n, s.writePos⟩
        else ⟨moveDown s.data s.readPos n s.writePos, s.readPos + n, s.writePos + n⟩) ∧
      ∃ s' kept', abi.advance s n (some b) = .next s' ∧ s'.readPos = s.readPos + n ∧
        Compaction orig s'.data s'.readPos s'.writePos kept' := by
  have hpow := abi.two_pow_bits
  have hle := hc.le
  cases b with
  | true =>
    have hskip : abi.advance s n (some true) = .next ⟨s.data, s.readPos + n, s.writePos⟩ := by
      rw [advance, add_eq (by omega)]
    exact ⟨hskip, _, kept, hskip, rfl, hc.skip hn⟩
  | false =>
    have hkeep : abi.advance s n (some false) =
        .next ⟨moveDown s.data s.readPos n s.writePos, s.readPos + n, s.writePos + n⟩ := by
      rw [advance, add_eq (by omega), moveWithin_eq hle (by rw [hc.length_eq]; omega),
        add_eq (by omega)]
    exact ⟨hkeep, _, _, hkeep, rfl, hc.keep hn⟩

/-- What an iteration does is told by the header at the cursor. -/
theorem filterBody_header (hroom : s.readPos + 16 ≤ orig.length)
    (hk : Zygisk.readU32 (orig.drop s.readPos) 0 = some k)
    (ht : Zygisk.readU16 (orig.drop s.readPos) 4 = some t) :
    abi.filterBody vpnIndices vpnUid orig.length s =
      if k.toNat < nlmsgHdrlen ∨ orig.length < abi.add s.readPos k.toNat then .done s
      else abi.advance s (min (abi.align k.toNat) (orig.length - s.readPos))
        (abi.hide vpnIndices vpnUid s k.toNat t) := by
  have hpow := abi.two_pow_bits
  have hle := abi.le_two_pow
  have hr : s.readPos ≤ s.data.length := hc.le_length.trans_eq hc.length_eq.symm
  rw [← hc.unread, Zygisk.readU32_drop hr, Nat.add_zero] at hk
  rw [← hc.unread, Zygisk.readU16_drop hr] at ht
  have h16 : abi.add s.readPos nlmsgHdrlen ≤ orig.length := by
    rw [add_eq (by rw [nlmsgHdrlen]; omega)]
    exact hroom
  rw [filterBody, if_pos h16, readU32_eq (by omega), hk]
  dsimp only
  rw [add_eq (show s.readPos + 4 < 2 ^ abi.bits by omega), readU16_eq (by omega), ht,
    sub_eq (show s.readPos ≤ orig.length by omega) (by omega)]

theorem filterBody_short (hshort : orig.length < s.readPos + 16) :
    abi.filterBody vpnIndices vpnUid orig.length s = .done s := by
  have hpow := abi.two_pow_bits
  have hle := abi.le_two_pow
  have hr := hc.le_length
  have h16 : ¬abi.add s.readPos nlmsgHdrlen ≤ orig.length := by
    rw [add_eq (by rw [nlmsgHdrlen]; omega), nlmsgHdrlen]
    omega
  rw [filterBody, if_neg h16]

/-- A message is read, and hidden or kept, as in `filterLoop`. -/
theorem filterBody_message (h : nextMessage (orig.drop s.readPos) = some n) :
    ∃ s' kept', abi.filterBody vpnIndices vpnUid orig.length s = .next s' ∧
      s'.readPos = s.readPos + n ∧ Compaction orig s'.data s'.readPos s'.writePos kept' ∧
      filterLoop vpnIndices vpnUid orig.length s.data s.readPos s.writePos =
        filterLoop vpnIndices vpnUid orig.length s'.data s'.readPos s'.writePos := by
  have hpow := abi.two_pow_bits
  obtain ⟨k, hk, hlo, hhi, hn⟩ := nextMessage_eq_some_iff.1 h
  have h16 : 16 ≤ k.toNat := hlo
  have hr := hc.le_length
  obtain ⟨t, ht⟩ := exists_readU16 (show 4 + 2 ≤ (orig.drop s.readPos).length by omega)
  rw [List.length_drop] at hhi hn
  have hroom : s.readPos + k.toNat ≤ s.data.length := by
    rw [hc.length_eq]
    omega
  -- No sum wraps, as the message is within the buffer.
  have halign : abi.align k.toNat = Zygisk.align k.toNat := by
    have := abi.le_two_pow
    exact align_eq (by omega)
  have hin : ¬(k.toNat < nlmsgHdrlen ∨ orig.length < abi.add s.readPos k.toNat) := by
    rw [add_eq (by omega)]
    omega
  have hbody : abi.filterBody vpnIndices vpnUid orig.length s =
      abi.advance s n (some (Zygisk.hide vpnIndices vpnUid s.data s.readPos k.toNat t)) := by
    rw [filterBody_header vpnIndices vpnUid hc horig (by omega) hk ht, if_neg hin, halign, ← hn,
      hide_eq vpnIndices vpnUid (by rw [hc.length_eq]; exact horig) hroom]
  -- The loop without bounds does the same.
  have hloop : filterLoop vpnIndices vpnUid orig.length s.data s.readPos s.writePos =
      if Zygisk.hide vpnIndices vpnUid s.data s.readPos k.toNat t then
        filterLoop vpnIndices vpnUid orig.length s.data (s.readPos + n) s.writePos
      else filterLoop vpnIndices vpnUid orig.length (moveDown s.data s.readPos n s.writePos)
        (s.readPos + n) (s.writePos + n) := by
    have hdata : s.readPos ≤ s.data.length := hr.trans_eq hc.length_eq.symm
    rw [← hc.unread, Zygisk.readU32_drop hdata, Nat.add_zero] at hk
    rw [← hc.unread, Zygisk.readU16_drop hdata] at ht
    rw [filterLoop, if_pos (by rw [nlmsgHdrlen]; omega), hk]
    dsimp only
    rw [if_neg (by omega), ht]
    dsimp only
    rw [← hn]
  obtain ⟨heq, s', kept', hnext, hread, hc'⟩ :=
    advance_of_some hc horig (show s.readPos + n ≤ orig.length by omega)
    (Zygisk.hide vpnIndices vpnUid s.data s.readPos k.toNat t)
  refine ⟨s', kept', hbody.trans hnext, hread, hc', hloop.trans ?_⟩
  rw [hnext] at heq
  rw [Flow.next.inj heq]
  split_ifs <;> rfl

omit hc horig in
theorem toNat_lt_two_pow (abi : Abi) (k : UInt32) : k.toNat < 2 ^ abi.bits := by
  have hpow := abi.two_pow_bits
  have hle := abi.le_two_pow
  have hlt : k.toNat < 4294967296 := k.toNat_lt
  omega

/-- A header that passes the check because its message wraps around. -/
theorem filterBody_of_wraps (hroom : s.readPos + 16 ≤ orig.length)
    (hk : Zygisk.readU32 (orig.drop s.readPos) 0 = some k)
    (ht : Zygisk.readU16 (orig.drop s.readPos) 4 = some t)
    (hwraps : 2 ^ abi.bits ≤ s.readPos + k.toNat) :
    abi.filterBody vpnIndices vpnUid orig.length s =
      abi.advance s (min (abi.align k.toNat) (orig.length - s.readPos))
        (abi.hide vpnIndices vpnUid s k.toNat t) := by
  have hpow := abi.two_pow_bits
  have hle := abi.le_two_pow
  have hback : abi.add s.readPos k.toNat < s.readPos :=
    add_lt hwraps (toNat_lt_two_pow abi k) (by omega)
  rw [filterBody_header vpnIndices vpnUid hc horig hroom hk ht, if_neg (by rw [nlmsgHdrlen]; omega)]

/-- What is no message ends the loop, or is taken for one that extends to the end of the
    buffer. -/
theorem filterBody_tail (h : nextMessage (orig.drop s.readPos) = none)
    (hsafe : ¬abi.Overruns s.readPos (orig.drop s.readPos)) :
    abi.filterBody vpnIndices vpnUid orig.length s = .done s ∨
      ∃ s' kept', abi.filterBody vpnIndices vpnUid orig.length s = .next s' ∧
        s'.readPos = orig.length ∧ s.readPos < s'.readPos ∧
        Compaction orig s'.data s'.readPos s'.writePos kept' := by
  have hpow := abi.two_pow_bits
  have hle := abi.le_two_pow
  have hr := hc.le_length
  by_cases hroom : s.readPos + 16 ≤ orig.length
  · have hlen : 16 ≤ (orig.drop s.readPos).length := by
      rw [List.length_drop]
      omega
    obtain ⟨k, hk⟩ := exists_readU32 (show 0 + 4 ≤ (orig.drop s.readPos).length by omega)
    obtain ⟨t, ht⟩ := exists_readU16 (show 4 + 2 ≤ (orig.drop s.readPos).length by omega)
    by_cases hwraps : 2 ^ abi.bits ≤ s.readPos + k.toNat
    · -- The message is not sliced, and its aligned length is more than the rest.
      have hother : ¬(t = rtmNewroute ∨ t = rtmNewrule ∨ 2 ^ abi.bits < k.toNat + 4) :=
        fun hbad => hsafe ⟨hlen, k, t, hk, ht, hwraps, hbad⟩
      rw [← or_assoc, not_or, not_lt] at hother
      have hhide := (hide_of_wraps vpnIndices vpnUid (by rw [hc.length_eq]; exact horig)
        (hc.le_length.trans_eq hc.length_eq.symm) hwraps (toNat_lt_two_pow abi k)).not.2 hother.1
      obtain ⟨b, hb⟩ := Option.ne_none_iff_exists'.1 hhide
      have hrest : min (abi.align k.toNat) (orig.length - s.readPos) = orig.length - s.readPos := by
        have halign := le_align k.toNat
        rw [align_eq hother.2]
        omega
      obtain ⟨-, s', kept', hnext, hread, hc'⟩ := advance_of_some hc horig
        (show s.readPos + (orig.length - s.readPos) ≤ orig.length by omega) b
      refine .inr ⟨s', kept', ?_, by omega, by omega, hc'⟩
      rw [filterBody_of_wraps vpnIndices vpnUid hc horig hroom hk ht hwraps, hb, hrest, hnext]
    · refine .inl ?_
      rw [filterBody_header vpnIndices vpnUid hc horig hroom hk ht, add_eq (by omega), if_pos]
      by_contra hin
      rw [not_or, not_lt, not_lt] at hin
      have hsome := nextMessage_eq_some_iff.2 ⟨k, hk, hin.1, by rw [List.length_drop]; omega, rfl⟩
      rw [h] at hsome
      exact absurd hsome nofun
  · exact .inl (filterBody_short vpnIndices vpnUid hc horig (by omega))

/-- A header that overruns panics, or is read again and again. -/
theorem filterBody_overruns (h : abi.Overruns s.readPos (orig.drop s.readPos)) :
    abi.filterBody vpnIndices vpnUid orig.length s = .panic ∨
      ∃ s', abi.filterBody vpnIndices vpnUid orig.length s = .next s' ∧ s'.readPos = s.readPos := by
  obtain ⟨hlen, k, t, hk, ht, hwraps, hbad⟩ := h
  have hroom : s.readPos + 16 ≤ orig.length := by
    have h16 : 16 ≤ (orig.drop s.readPos).length := hlen
    rw [List.length_drop] at h16
    omega
  have hhide := hide_of_wraps vpnIndices vpnUid (t := t) (by rw [hc.length_eq]; exact horig)
    (hc.le_length.trans_eq hc.length_eq.symm) hwraps (toNat_lt_two_pow abi k)
  rw [filterBody_of_wraps vpnIndices vpnUid hc horig hroom hk ht hwraps]
  cases hresult : abi.hide vpnIndices vpnUid s k.toNat t with
  | none => exact .inl rfl
  | some b =>
    have hzero : 2 ^ abi.bits < k.toNat + 4 := by
      rw [← or_assoc] at hbad
      refine hbad.resolve_left fun hslice => ?_
      rw [hhide.2 hslice] at hresult
      exact absurd hresult nofun
    obtain ⟨-, s', kept', hnext, hread, -⟩ :=
      advance_of_some hc horig (show s.readPos + 0 ≤ orig.length by omega) b
    refine .inr ⟨s', ?_, hread⟩
    rw [align_eq_zero hzero (toNat_lt_two_pow abi k), Nat.zero_min, hnext]

end Iteration

/-! ## Whole runs -/

section Runs

variable (abi : Abi) (vpnIndices : List UInt32) (vpnUid : UInt32)

/-- The bytes after the last message begin with a header that overruns. -/
def Wraps (data : Bytes) : Prop :=
  abi.Overruns (data.length - (messages data).2.length) (messages data).2

/-- The cursors within a buffer, with no header that overruns ahead of them. -/
def Ahead (orig : Bytes) (s : Cursors) : Prop :=
  (∃ kept, Compaction orig s.data s.readPos s.writePos kept) ∧
    ¬abi.Overruns (orig.length - (messages (orig.drop s.readPos)).2.length)
      (messages (orig.drop s.readPos)).2

variable {abi} {orig : Bytes} {s : Cursors}

theorem not_overruns_nil (pos : ℕ) : ¬abi.Overruns pos [] := fun h => absurd h.1 (by decide)

/-- What an iteration leaves: it ends the loop, or reads on. -/
theorem Ahead.iteration (horig : orig.length < 2 ^ (abi.bits - 1)) (h : abi.Ahead orig s) :
    abi.filterBody vpnIndices vpnUid orig.length s = .done s ∨
      ∃ s', abi.filterBody vpnIndices vpnUid orig.length s = .next s' ∧ abi.Ahead orig s' ∧
        s.readPos < s'.readPos := by
  obtain ⟨⟨kept, hc⟩, hsafe⟩ := h
  have hr := hc.le_length
  cases hnext : nextMessage (orig.drop s.readPos) with
  | some n =>
    obtain ⟨s', kept', hbody, hread, hc', -⟩ := filterBody_message vpnIndices vpnUid hc horig hnext
    have hpos := (isNext_nextMessage _ _ hnext).1
    refine .inr ⟨s', hbody, ⟨⟨kept', hc'⟩, ?_⟩, by omega⟩
    rw [messages, records_of_some isNext_nextMessage hnext, List.drop_drop, ← hread] at hsafe
    exact hsafe
  | none =>
    have hpos : orig.length - (orig.drop s.readPos).length = s.readPos := by
      rw [List.length_drop]
      omega
    rw [messages, records_of_none hnext, hpos] at hsafe
    obtain hdone | ⟨s', kept', hbody, hread, hlt, hc'⟩ :=
      filterBody_tail vpnIndices vpnUid hc horig hnext hsafe
    · exact .inl hdone
    · refine .inr ⟨s', hbody, ⟨⟨kept', hc'⟩, ?_⟩, hlt⟩
      rw [hread, List.drop_length, messages, records_nil isNext_nextMessage]
      exact not_overruns_nil _

/-- The loop reads every message, and comes to what is after the last one. -/
theorem reaches_tail (horig : orig.length < 2 ^ (abi.bits - 1)) (l : Bytes) :
    ∀ {s : Cursors} {kept : Bytes}, Compaction orig s.data s.readPos s.writePos kept →
      orig.drop s.readPos = l →
        ∃ s' kept', Reaches (abi.filterBody vpnIndices vpnUid orig.length) s s' ∧
          Compaction orig s'.data s'.readPos s'.writePos kept' ∧
        orig.drop s'.readPos = (messages l).2 := by
  induction l using records_induction isNext_nextMessage with
  | tail l h =>
    rintro s kept hc rfl
    refine ⟨s, kept, .refl, hc, ?_⟩
    rw [messages, records_of_none h]
  | record l n h ih =>
    rintro s kept hc rfl
    obtain ⟨s', kept', hbody, hread, hc', -⟩ := filterBody_message vpnIndices vpnUid hc horig h
    obtain ⟨u, keptu, hreach, hcu, htail⟩ := ih hc' (by rw [hread, List.drop_drop])
    refine ⟨u, keptu, hreach.head hbody, hcu, ?_⟩
    rw [htail, messages, messages, records_of_some isNext_nextMessage h]

theorem Ahead.filterTail (horig : orig.length < 2 ^ (abi.bits - 1)) (h : abi.Ahead orig s) :
    ∃ x kept, abi.filterTail orig.length s = .done x ∧
      Compaction orig x.1 orig.length x.2 kept := by
  obtain ⟨⟨kept, hc⟩, -⟩ := h
  have hle := hc.le
  have hr := hc.le_length
  rw [Abi.filterTail]
  split_ifs with hrest
  · have hsum : s.readPos + (orig.length - s.readPos) = orig.length := by omega
    have hmove := moveWithin_eq hle (show s.readPos + (orig.length - s.readPos) ≤ s.data.length by
      rw [hsum, hc.length_eq])
    have hkeep := hc.keep (show s.readPos + (orig.length - s.readPos) ≤ orig.length by omega)
    rw [hsum] at hmove hkeep
    rw [hmove]
    have hpow := abi.two_pow_bits
    rw [sub_eq hr (by omega), add_eq (by omega)]
    exact ⟨_, _, rfl, hkeep⟩
  · have hend : s.readPos = orig.length := by omega
    rw [hend] at hc
    exact ⟨_, _, rfl, hc⟩

theorem Ahead.next {s' : Cursors} (horig : orig.length < 2 ^ (abi.bits - 1)) (h : abi.Ahead orig s)
    (hbody : abi.filterBody vpnIndices vpnUid orig.length s = .next s') :
    abi.Ahead orig s' ∧ s.readPos < s'.readPos := by
  obtain hdone | ⟨u, hnext, hu, hlt⟩ := h.iteration vpnIndices vpnUid horig
  · rw [hdone] at hbody
    exact absurd hbody nofun
  · rw [hnext] at hbody
    obtain rfl := Flow.next.inj hbody
    exact ⟨hu, hlt⟩

theorem Ahead.ne_panic (horig : orig.length < 2 ^ (abi.bits - 1)) (h : abi.Ahead orig s) :
    abi.filterBody vpnIndices vpnUid orig.length s ≠ .panic := by
  obtain hdone | ⟨u, hnext, -, -⟩ := h.iteration vpnIndices vpnUid horig
  · rw [hdone]
    exact nofun
  · rw [hnext]
    exact nofun

/-- The loop ends: each iteration lowers what is left to read. -/
theorem Ahead.returns (horig : orig.length < 2 ^ (abi.bits - 1)) (h : abi.Ahead orig ⟨orig, 0, 0⟩) :
    ∃ x kept, abi.filterNetlinkDump vpnIndices vpnUid (orig.length + 1) orig = .done x ∧
      Compaction orig x.1 orig.length x.2 kept := by
  have hstep : ∀ s, abi.Ahead orig s →
      (∃ r, abi.filterBody vpnIndices vpnUid orig.length s = .done r ∧ abi.Ahead orig r) ∨
        ∃ s', abi.filterBody vpnIndices vpnUid orig.length s = .next s' ∧ abi.Ahead orig s' ∧
          orig.length - s'.readPos < orig.length - s.readPos ∧ ∀ r, abi.Ahead orig r →
            abi.Ahead orig r := by
    intro s hs
    obtain hdone | ⟨s', hbody, hs', hlt⟩ := hs.iteration vpnIndices vpnUid horig
    · exact .inl ⟨s, hdone, hs⟩
    · obtain ⟨⟨_, hc'⟩, -⟩ := id hs'
      have hr := hc'.le_length
      exact .inr ⟨s', hbody, hs', by omega, fun r hr => hr⟩
  obtain ⟨s, hrun, hs⟩ := @iterate_done Cursors Cursors _ _ (fun _ r => abi.Ahead orig r)
    (fun s => orig.length - s.readPos) hstep (orig.length + 1) ⟨orig, 0, 0⟩ h (Nat.lt_succ_self _)
  rw [filterNetlinkDump, hrun]
  split_ifs
  · exact ⟨_, _, rfl, .startAt orig le_rfl⟩
  · exact hs.filterTail horig

/-- Where no header overruns, the filter ends with the buffer compacted. -/
theorem filterDump_of_not_wraps (horig : orig.length < 2 ^ (abi.bits - 1)) (h : ¬abi.Wraps orig) :
    ∃ x kept, abi.filterDump vpnIndices vpnUid orig = some x ∧
      Compaction orig x.1 orig.length x.2 kept := by
  have hahead : abi.Ahead orig ⟨orig, 0, 0⟩ := ⟨⟨[], Compaction.start orig⟩, h⟩
  obtain ⟨x, kept, hrun, hc⟩ := hahead.returns vpnIndices vpnUid horig
  refine ⟨x, kept, ?_, hc⟩
  rw [filterDump, hrun]
  rfl

/-- Nothing wraps around in a dump of whole messages: it is filtered as `Zygisk.filterNetlinkDump`
    filters it. -/
theorem filterDump_of_whole (horig : orig.length < 2 ^ (abi.bits - 1))
    (hwhole : (messages orig).2 = []) :
    abi.filterDump vpnIndices vpnUid orig =
      some (Zygisk.filterNetlinkDump vpnIndices vpnUid orig) := by
  let Inv (s : Cursors) : Prop :=
    (∃ kept, Compaction orig s.data s.readPos s.writePos kept) ∧
      (messages (orig.drop s.readPos)).2 = []
  let Post (s r : Cursors) : Prop :=
    filterLoop vpnIndices vpnUid orig.length s.data s.readPos s.writePos =
      (r.data, r.readPos, r.writePos) ∧ r.readPos = orig.length
  have hstep : ∀ s, Inv s →
      (∃ r, abi.filterBody vpnIndices vpnUid orig.length s = .done r ∧ Post s r) ∨
        ∃ s', abi.filterBody vpnIndices vpnUid orig.length s = .next s' ∧ Inv s' ∧
          orig.length - s'.readPos < orig.length - s.readPos ∧ ∀ r, Post s' r → Post s r := by
    rintro s ⟨⟨kept, hc⟩, htail⟩
    have hr := hc.le_length
    cases hnext : nextMessage (orig.drop s.readPos) with
    | some n =>
      obtain ⟨s', kept', hbody, hread, hc', hloop⟩ :=
        filterBody_message vpnIndices vpnUid hc horig hnext
      have hn := isNext_nextMessage _ _ hnext
      rw [List.length_drop] at hn
      rw [messages, records_of_some isNext_nextMessage hnext, List.drop_drop, ← hread] at htail
      exact .inr ⟨s', hbody, ⟨⟨kept', hc'⟩, htail⟩, by omega, fun r hpost =>
        ⟨hloop.trans hpost.1, hpost.2⟩⟩
    | none =>
      -- what is left is no message, so it is nothing
      rw [messages, records_of_none hnext, List.drop_eq_nil_iff] at htail
      refine .inl ⟨s, filterBody_short vpnIndices vpnUid hc horig (by omega), ?_, by omega⟩
      rw [filterLoop, if_neg (by rw [nlmsgHdrlen]; omega)]
  obtain ⟨s, hrun, hloop, hend⟩ :=
    @iterate_done Cursors Cursors _ Inv Post (fun s => orig.length - s.readPos) hstep
    (orig.length + 1) ⟨orig, 0, 0⟩ ⟨⟨[], Compaction.start orig⟩, hwhole⟩ (Nat.lt_succ_self _)
  have htail : ¬s.readPos < orig.length := by omega
  rw [filterDump, filterNetlinkDump, Zygisk.filterNetlinkDump, hrun]
  dsimp only
  rw [hloop, Abi.filterTail]
  dsimp only
  rw [if_neg htail, if_neg htail]
  split_ifs <;> rfl

theorem not_sound_of_wraps (horig : orig.length < 2 ^ (abi.bits - 1)) (h : abi.Wraps orig) :
    ¬abi.Sound vpnIndices vpnUid orig := by
  intro hsound
  obtain ⟨s, kept, hreach, hc, htail⟩ :
      ∃ s kept, Reaches (abi.filterBody vpnIndices vpnUid orig.length) ⟨orig, 0, 0⟩ s ∧
        Compaction orig s.data s.readPos s.writePos kept ∧
        orig.drop s.readPos = (messages orig).2 :=
    reaches_tail vpnIndices vpnUid horig orig (Compaction.start orig) rfl
  have hpos : orig.length - (orig.drop s.readPos).length = s.readPos := by
    have hr := hc.le_length
    rw [List.length_drop]
    omega
  rw [Wraps, ← htail, hpos] at h
  obtain ⟨-, -, hpanic, hnext⟩ := hsound.iterations s hreach
  obtain hbody | ⟨s', hbody, hread⟩ := filterBody_overruns vpnIndices vpnUid hc horig h
  · exact hpanic hbody
  · exact absurd (hnext s' hbody) (by omega)

theorem sound_of_not_wraps (horig : orig.length < 2 ^ (abi.bits - 1)) (h : ¬abi.Wraps orig) :
    abi.Sound vpnIndices vpnUid orig := by
  have hahead : abi.Ahead orig ⟨orig, 0, 0⟩ := ⟨⟨[], Compaction.start orig⟩, h⟩
  obtain ⟨x, kept, hrun, -⟩ := hahead.returns vpnIndices vpnUid horig
  refine ⟨⟨_, x, hrun⟩, fun s hreach => ?_⟩
  have hs : abi.Ahead orig s :=
    hreach.invariant (fun s s' hs hbody => (hs.next vpnIndices vpnUid horig hbody).1) hahead
  obtain ⟨⟨kept, hc⟩, -⟩ := id hs
  exact ⟨hc.le, hc.le_length, hs.ne_panic vpnIndices vpnUid horig,
    fun s' hbody => (hs.next vpnIndices vpnUid horig hbody).2⟩

/-- With 64 bits no end of a message wraps around. -/
theorem not_wraps_arm64V8a (horig : orig.length < 2 ^ (arm64V8a.bits - 1)) :
    ¬arm64V8a.Wraps orig := by
  rintro ⟨-, k, t, -, -, hwraps, -⟩
  have hlen : orig.length < 2 ^ 63 := horig
  have hlt : k.toNat < 4294967296 := k.toNat_lt
  have hbits : arm64V8a.bits = 64 := rfl
  rw [hbits] at hwraps
  omega

/-- The filter is safe unless the bytes after the last message begin with a header that
    overruns. -/
theorem dump_sound_iff (abi : Abi) (vpnIndices : List UInt32) (vpnUid : UInt32) (data : Slice abi) :
    abi.Sound vpnIndices vpnUid data.bytes ↔ ¬abi.Wraps data.bytes :=
  ⟨fun hsound hwraps => not_sound_of_wraps vpnIndices vpnUid data.length_lt hwraps hsound,
    sound_of_not_wraps vpnIndices vpnUid data.length_lt⟩

/-- A message, and a route that says it has `0xfffffff0` bytes. -/
def overrun : Slice .armeabiV7a where
  bytes := [16, 0, 0, 0, 3, 0, 0, 0, 0, 0, 0, 0, 0, 0, 0, 0, 0xf0, 0xff, 0xff, 0xff, 24, 0, 0, 0, 0,
    0, 0, 0, 0, 0, 0, 0]
  length_lt := by decide

/-- The filter panics at the route. -/
theorem not_sound_overrun : ¬armeabiV7a.Sound [] 0 overrun.bytes := by
  intro h
  have hreach : Reaches (armeabiV7a.filterBody [] 0 overrun.bytes.length) ⟨overrun.bytes, 0, 0⟩
      ⟨overrun.bytes, 16, 16⟩ := .next .refl (by decide +kernel)
  exact (h.iterations _ hreach).2.2.1 (by decide +kernel)

end Runs

end Abi

end VpnHide.Zygisk

import VpnHide.Lib.Records
import VpnHide.Zygisk.Interfaces

/-!
# Filtering netlink dumps

`filter_netlink_dump` of `zygisk/src/filter.rs` removes from the buffer of a netlink
reply the messages that are tied to a VPN: links and addresses by the index of their
interface, routes by that of their output interface, and policy rules by the names and
the uids they match. It does so in place, message by message.

What is left are the messages that are not hidden, as they were, and the bytes after the
last message (`filterNetlinkDump_eq`), so that filtering again changes nothing.
-/

namespace VpnHide.Zygisk

open Lib Protocol

/-! ## Reading words

The targets are little-endian. -/

/-- The value of some bytes, the lowest first. -/
def fromLeBytes (l : Bytes) : ℕ := l.foldr (fun b n => b.toNat + 256 * n) 0

/-- Four bytes, the low one first. -/
def readU32 (data : Bytes) (off : ℕ) : Option UInt32 :=
  (getRange data off 4).map fun l => (fromLeBytes l).toUInt32

/-- Two bytes, the low one first. -/
def readU16 (data : Bytes) (off : ℕ) : Option UInt16 :=
  (getRange data off 2).map fun l => (fromLeBytes l).toUInt16

section Read

variable {l : Bytes} {off : ℕ}

theorem readU32_drop {a : ℕ} (ha : a ≤ l.length) :
    readU32 (l.drop a) off = readU32 l (a + off) := by
  rw [readU32, readU32, getRange_drop _ _ _ _ ha]

theorem readU16_drop {a : ℕ} (ha : a ≤ l.length) :
    readU16 (l.drop a) off = readU16 l (a + off) := by
  rw [readU16, readU16, getRange_drop _ _ _ _ ha]

theorem readU32_take {k : ℕ} (h : off + 4 ≤ k) : readU32 (l.take k) off = readU32 l off := by
  rw [readU32, readU32, getRange_take h]

theorem readU16_take {k : ℕ} (h : off + 2 ≤ k) : readU16 (l.take k) off = readU16 l off := by
  rw [readU16, readU16, getRange_take h]

theorem readU32_eq_none (h : l.length < off + 4) : readU32 l off = none := by
  rw [readU32, getRange_eq_none h]
  rfl

theorem exists_readU32 (h : off + 4 ≤ l.length) : ∃ v, readU32 l off = some v := by
  rw [readU32, getRange_eq_some h]
  exact ⟨_, rfl⟩

theorem exists_readU16 (h : off + 2 ≤ l.length) : ∃ v, readU16 l off = some v := by
  rw [readU16, getRange_eq_some h]
  exact ⟨_, rfl⟩

end Read

/-! ## Messages -/

/-- `NLMSG_HDRLEN`. -/
def nlmsgHdrlen : ℕ := 16

/-- The header before the attributes of a route, and of a rule. -/
def rtmsgHdrlen : ℕ := 12

/-- `RTM_NEWLINK`. -/
def rtmNewlink : UInt16 := 16

/-- `RTM_NEWADDR`. -/
def rtmNewaddr : UInt16 := 20

/-- `RTM_NEWROUTE`. -/
def rtmNewroute : UInt16 := 24

/-- `RTM_NEWRULE`. -/
def rtmNewrule : UInt16 := 32

/-- `RTA_OIF`. -/
def rtaOif : UInt16 := 4

/-- `FRA_IIFNAME`. -/
def fraIifname : UInt16 := 3

/-- `FRA_TABLE`. -/
def fraTable : UInt16 := 15

/-- `FRA_OIFNAME`. -/
def fraOifname : UInt16 := 17

/-- `FRA_UID_RANGE`. -/
def fraUidRange : UInt16 := 20

/-- `RT_TABLE_DEFAULT`. -/
def rtTableDefault : UInt32 := 253

/-- `RT_TABLE_MAIN`. -/
def rtTableMain : UInt32 := 254

/-- `RT_TABLE_LOCAL`. -/
def rtTableLocal : UInt32 := 255

/-- `NLMSG_ALIGN` and `RTA_ALIGN`: up to the next multiple of 4. -/
def align (len : ℕ) : ℕ := (len + 3) / 4 * 4

theorem le_align (len : ℕ) : len ≤ align len := by
  rw [align]
  omega

/-- `route_oif` from the attribute at `pos` on. -/
def routeOifAt (msg : Bytes) (pos : ℕ) : Option UInt32 :=
  if pos + 4 ≤ msg.length then do
    let rtaLen ← readU16 msg pos
    let rtaType ← readU16 msg (pos + 2)
    if rtaLen.toNat < 4 ∨ msg.length < pos + rtaLen.toNat then none
    else if rtaType = rtaOif ∧ 8 ≤ rtaLen.toNat then readU32 msg (pos + 4)
    else routeOifAt msg (pos + align rtaLen.toNat)
  else none
termination_by msg.length - pos
decreasing_by
  have := le_align rtaLen.toNat
  omega

/-- The index of the output interface of a route. -/
def routeOif (msg : Bytes) : Option UInt32 := routeOifAt msg (nlmsgHdrlen + rtmsgHdrlen)

/-- What the attributes of a rule have said so far. -/
structure Rule where
  table : UInt32
  uidLo : UInt32
  uidHi : UInt32
  hasUidrange : Bool
  namesVpn : Bool
  deriving DecidableEq

/-- An attribute of a rule. -/
def Rule.attribute (s : Rule) (rtaType : UInt16) (payload : Bytes) : Rule :=
  if (rtaType = fraIifname ∨ rtaType = fraOifname) ∧ payload ≠ [] then
    if isVpnIfaceBytes payload then { s with namesVpn := true } else s
  else if rtaType = fraTable ∧ 4 ≤ payload.length then
    { s with table := (readU32 payload 0).getD s.table }
  else if rtaType = fraUidRange ∧ 8 ≤ payload.length then
    match readU32 payload 0, readU32 payload 4 with
    | some lo, some hi => { s with uidLo := lo, uidHi := hi, hasUidrange := true }
    | _, _ => s
  else s

/-- The attributes from `pos` on. -/
def Rule.attributes (msg : Bytes) (pos : ℕ) (s : Rule) : Rule :=
  if pos + 4 ≤ msg.length then
    match readU16 msg pos, readU16 msg (pos + 2) with
    | some rtaLen, some rtaType =>
      if rtaLen.toNat < 4 ∨ msg.length < pos + rtaLen.toNat then s
      else
        let payload := (msg.take (pos + rtaLen.toNat)).drop (pos + 4)
        Rule.attributes msg (pos + align rtaLen.toNat) (s.attribute rtaType payload)
    | _, _ => s
  else s
termination_by msg.length - pos
decreasing_by
  have := le_align rtaLen.toNat
  omega

/-- A rule names a VPN interface, or steers the uid into a table of its own. -/
def ruleHidesVpn (msg : Bytes) (vpnUid : UInt32) : Bool :=
  let table := (msg[nlmsgHdrlen + 4]?).elim 0 UInt8.toUInt32
  let s := Rule.attributes msg (nlmsgHdrlen + rtmsgHdrlen) ⟨table, 0, 0, false, false⟩
  s.namesVpn ||
    (s.hasUidrange && s.uidLo ≤ vpnUid && vpnUid ≤ s.uidHi &&
      !(s.uidLo == 0 && s.uidHi == 0xffffffff) && s.table != rtTableMain &&
        s.table != rtTableLocal && s.table != rtTableDefault && 100 < s.table)

/-! ## The filter -/

section Filter

variable (vpnIndices : List UInt32) (vpnUid : UInt32)

/-- Whether the message at `readPos` is removed. -/
def hide (data : Bytes) (readPos nlmsgLen : ℕ) (nlmsgType : UInt16) : Bool :=
  let msg := (data.drop readPos).take nlmsgLen
  if (nlmsgType = rtmNewlink ∨ nlmsgType = rtmNewaddr) ∧ nlmsgHdrlen + 8 ≤ nlmsgLen then
    vpnIndices.contains ((readU32 data (readPos + nlmsgHdrlen + 4)).getD 0)
  else if nlmsgType = rtmNewroute ∧ nlmsgHdrlen + rtmsgHdrlen ≤ nlmsgLen then
    (routeOif msg).any vpnIndices.contains
  else if nlmsgType = rtmNewrule ∧ nlmsgHdrlen + rtmsgHdrlen ≤ nlmsgLen then
    ruleHidesVpn msg vpnUid
  else false

/-- The loop: the buffer, and where it reads and writes next. It ends at what is no message. -/
def filterLoop (len : ℕ) (data : Bytes) (readPos writePos : ℕ) : Bytes × ℕ × ℕ :=
  if readPos + nlmsgHdrlen ≤ len then
    match readU32 data readPos with
    | none => (data, readPos, writePos)
    | some nlmsgLen =>
      if nlmsgLen.toNat < nlmsgHdrlen ∨ len < readPos + nlmsgLen.toNat then
        (data, readPos, writePos)
      else
        let alignedLen := min (align nlmsgLen.toNat) (len - readPos)
        match readU16 data (readPos + 4) with
        | none => (data, readPos, writePos)
        | some nlmsgType =>
          if hide vpnIndices vpnUid data readPos nlmsgLen.toNat nlmsgType then
            filterLoop len data (readPos + alignedLen) writePos
          else
            filterLoop len (moveDown data readPos alignedLen writePos) (readPos + alignedLen)
              (writePos + alignedLen)
  else (data, readPos, writePos)
termination_by len - readPos
decreasing_by
  all_goals
    have := le_align nlmsgLen.toNat
    rw [nlmsgHdrlen] at *
    omega

/-- Filtering a dump: the buffer, and the length of what is valid in it. -/
def filterNetlinkDump (data : Bytes) : Bytes × ℕ :=
  if data.length < nlmsgHdrlen then (data, data.length)
  else
    let len := data.length
    let (data, readPos, writePos) := filterLoop vpnIndices vpnUid len data 0 0
    if readPos < len then
      (moveDown data readPos (len - readPos) writePos, writePos + (len - readPos))
    else (data, writePos)

end Filter

/-! ## What a dump is made of -/

/-- The length of the first of some items, each of which says how long it is, padding not
    included; at least `header`. The padding of the last one may be missing. -/
def nextAligned (header : ℕ) (size : Bytes → Option ℕ) (l : Bytes) : Option ℕ :=
  (size l).bind fun n => if n < header ∨ l.length < n then none else some (min (align n) l.length)

/-- The length of the message that a buffer begins with. -/
def nextMessage : Bytes → Option ℕ := nextAligned nlmsgHdrlen fun l =>
  if nlmsgHdrlen ≤ l.length then (readU32 l 0).map UInt32.toNat else none

/-- The length of the attribute that a buffer begins with. -/
def nextAttribute : Bytes → Option ℕ := nextAligned 4 fun l =>
  if 4 ≤ l.length then (readU16 l 0).map UInt16.toNat else none

/-- The messages of a dump, each with its padding, and the bytes after them. -/
def messages (data : Bytes) : List Bytes × Bytes := records nextMessage data

/-- The well-formed attributes of a message. -/
def attributes (msg : Bytes) : List Bytes :=
  (records nextAttribute (msg.drop (nlmsgHdrlen + rtmsgHdrlen))).1

/-- An output interface, with its index. -/
def isOif (attr : Bytes) : Bool :=
  readU16 attr 2 = some rtaOif && (readU16 attr 0).any (8 ≤ ·.toNat)

/-- A message without its padding. -/
def body (m : Bytes) : Bytes := m.take ((readU32 m 0).elim 0 UInt32.toNat)

/-- A message is tied to a VPN. -/
def Hidden (vpnIndices : List UInt32) (vpnUid : UInt32) (m : Bytes) : Prop :=
  (readU16 m 4 = some rtmNewlink ∨ readU16 m 4 = some rtmNewaddr) ∧
      (∃ i ∈ vpnIndices, readU32 (body m) (nlmsgHdrlen + 4) = some i) ∨
    readU16 m 4 = some rtmNewroute ∧
      (∃ i ∈ vpnIndices, ((attributes (body m)).find? isOif).bind (readU32 · 4) = some i) ∨
    readU16 m 4 = some rtmNewrule ∧ ruleHidesVpn (body m) vpnUid = true

instance (vpnIndices : List UInt32) (vpnUid : UInt32) (m : Bytes) :
    Decidable (Hidden vpnIndices vpnUid m) :=
  inferInstanceAs (Decidable (_ ∨ _))

theorem isNext_nextAligned {header : ℕ} (hheader : 0 < header) (size : Bytes → Option ℕ) :
    IsNext (nextAligned header size) := by
  intro l n h
  obtain ⟨k, -, h⟩ := Option.bind_eq_some_iff.1 h
  split_ifs at h with hk
  rw [not_or] at hk
  have := le_align k
  rw [← Option.some.inj h]
  omega

/-- The item is the same whatever follows it, if its size is read from its header. -/
theorem isLocal_nextAligned {header : ℕ} {size : Bytes → Option ℕ}
    (hsize : ∀ l t : Bytes, header ≤ l.length → size (l ++ t) = size l) :
    IsLocal (nextAligned header size) := by
  intro l n h t ht
  obtain ⟨k, hk, h⟩ := Option.bind_eq_some_iff.1 h
  split_ifs at h with hlen
  rw [not_or, not_lt, not_lt] at hlen
  have hle := le_align k
  obtain rfl := Option.some.inj h
  set n := min (align k) l.length with hn
  have htake : (l.take n).length = n := List.length_take_of_le (by omega)
  have hsame : size (l.take n ++ t) = some k := by
    rw [hsize _ _ (by omega), ← hk, ← hsize _ (l.drop n) (by omega), List.take_append_drop]
  rw [nextAligned, hsame, Option.bind_some, List.length_append, htake, if_neg (by omega)]
  congr 1
  rcases le_total (align k) l.length with hfull | hcut
  · omega
  · have hnil : t = [] := ht (by rw [List.drop_eq_nil_iff]; omega)
    rw [hnil, List.length_nil]
    omega

theorem isNext_nextMessage : IsNext nextMessage := isNext_nextAligned (by decide) _

theorem isNext_nextAttribute : IsNext nextAttribute := isNext_nextAligned (by decide) _

theorem isLocal_nextMessage : IsLocal nextMessage := by
  refine isLocal_nextAligned fun l t hl => ?_
  have h4 : 0 + 4 ≤ l.length := le_trans (by decide) hl
  have hread : readU32 (l ++ t) 0 = readU32 l 0 := by
    rw [← readU32_take (k := l.length) h4, List.take_left]
  rw [if_pos hl, if_pos (hl.trans (by simp)), hread]

/-- The walk over the attributes of a route finds the first output interface. -/
theorem routeOifAt_eq (msg l : Bytes) :
    ∀ pos, msg.drop pos = l →
      routeOifAt msg pos = ((records nextAttribute l).1.find? isOif).bind (readU32 · 4) := by
  induction l using records_induction isNext_nextAttribute with
  | tail l h =>
    rintro pos rfl
    rw [records_of_none h, routeOifAt]
    split_ifs with hpos
    · -- The attribute is malformed: the walk ends.
      have hle : pos ≤ msg.length := by omega
      have h4 : 4 ≤ (msg.drop pos).length := by
        rw [List.length_drop]
        omega
      obtain ⟨rtaLen, hlen⟩ := exists_readU16 (show pos + 2 ≤ msg.length by omega)
      obtain ⟨rtaType, htype⟩ := exists_readU16 (show pos + 2 + 2 ≤ msg.length by omega)
      rw [nextAttribute, nextAligned, if_pos h4, readU16_drop hle, Nat.add_zero, hlen,
        Option.map_some, Option.bind_some, List.length_drop] at h
      split_ifs at h with hbad
      rw [hlen, htype, Option.bind_eq_bind, Option.bind_some, Option.bind_some, if_pos (by omega)]
      rfl
    · rfl
  | record l n h ih =>
    rintro pos rfl
    rw [records_of_some isNext_nextAttribute h]
    obtain ⟨k, hk, hn⟩ := Option.bind_eq_some_iff.1 h
    dsimp only at hk
    split_ifs at hk with h4
    split_ifs at hn with hbad
    obtain ⟨rtaLen, hlen, rfl⟩ := Option.map_eq_some_iff.1 hk
    rw [List.length_drop] at h4 hbad hn
    have hle : pos ≤ msg.length := by omega
    rw [readU16_drop hle, Nat.add_zero] at hlen
    obtain ⟨rtaType, htype⟩ := exists_readU16 (show pos + 2 + 2 ≤ msg.length by omega)
    have halign := le_align rtaLen.toNat
    have hattr :
        ∀ off, off + 2 ≤ n → readU16 ((msg.drop pos).take n) off = readU16 msg (pos + off) := by
      intro off hoff
      rw [readU16_take hoff, readU16_drop hle]
    have hn' := Option.some.inj hn
    rw [routeOifAt, if_pos (by omega), hlen, htype, Option.bind_eq_bind, Option.bind_some,
      Option.bind_some, if_neg (by omega), List.find?_cons]
    have hoif : isOif ((msg.drop pos).take n) = decide (rtaType = rtaOif ∧ 8 ≤ rtaLen.toNat) := by
      rw [isOif, hattr 2 (by omega), htype, hattr 0 (by omega), Nat.add_zero, hlen]
      simp
    rw [hoif]
    split_ifs with hfound
    · rw [decide_eq_true hfound]
      dsimp only
      rw [Option.bind_some, readU32_take (by omega), readU32_drop hle]
    · rw [decide_eq_false hfound]
      refine ih _ ?_
      -- The walk may step over the end, where the last attribute is cut.
      rw [List.drop_drop, ← hn']
      rcases le_total (align rtaLen.toNat) (msg.length - pos) with hfull | hcut
      · rw [min_eq_left hfull]
      · rw [List.drop_eq_nil_of_le (by omega), List.drop_eq_nil_of_le (by omega)]

theorem routeOif_eq {msg : Bytes} :
    routeOif msg = ((attributes msg).find? isOif).bind (readU32 · 4) :=
  routeOifAt_eq msg _ _ rfl

/-- A rule without attributes is not hidden. -/
theorem ruleHidesVpn_short {msg : Bytes} (vpnUid : UInt32)
    (h : msg.length < nlmsgHdrlen + rtmsgHdrlen) :
    ruleHidesVpn msg vpnUid = false := by
  have hnone : ∀ s, Rule.attributes msg (nlmsgHdrlen + rtmsgHdrlen) s = s := by
    intro s
    rw [Rule.attributes, if_neg (by omega)]
  rw [ruleHidesVpn, hnone]
  rfl

theorem attributes_short {msg : Bytes} (h : msg.length < nlmsgHdrlen + rtmsgHdrlen) :
    attributes msg = [] := by
  rw [attributes, List.drop_eq_nil_of_le h.le, records_nil isNext_nextAttribute]

/-- A message at the beginning of a buffer says its length, which lies within the buffer. -/
theorem nextMessage_eq_some_iff {l : Bytes} {n : ℕ} :
    nextMessage l = some n ↔ ∃ k : UInt32, readU32 l 0 = some k ∧ nlmsgHdrlen ≤ k.toNat ∧
      k.toNat ≤ l.length ∧ n = min (align k.toNat) l.length := by
  constructor
  · intro h
    obtain ⟨k, hk, h⟩ := Option.bind_eq_some_iff.1 h
    dsimp only at hk
    split_ifs at hk with hlen
    split_ifs at h with hbad
    obtain ⟨v, hv, rfl⟩ := Option.map_eq_some_iff.1 hk
    exact ⟨v, hv, by omega, by omega, (Option.some.inj h).symm⟩
  · rintro ⟨k, hk, h₁, h₂, rfl⟩
    rw [nextMessage, nextAligned, if_pos (h₁.trans h₂), hk, Option.map_some,
      Option.bind_some, if_neg (by omega)]

variable (vpnIndices : List UInt32) (vpnUid : UInt32)

/-- The filter hides the messages tied to a VPN. -/
theorem hide_iff {data : Bytes} {r n : ℕ} {k : UInt32} {t : UInt16} (hr : r ≤ data.length)
    (hk : readU32 data r = some k) (ht : readU16 data (r + 4) = some t)
    (hlo : nlmsgHdrlen ≤ k.toNat)
    (hhi : k.toNat ≤ n) (hn : r + n ≤ data.length) :
    hide vpnIndices vpnUid data r k.toNat t = true ↔
      Hidden vpnIndices vpnUid ((data.drop r).take n) := by
  have h16 : 16 ≤ k.toNat := hlo
  have hlen : readU32 ((data.drop r).take n) 0 = some k := by
    rw [readU32_take (by omega), readU32_drop hr, Nat.add_zero, hk]
  have htype : readU16 ((data.drop r).take n) 4 = some t := by
    rw [readU16_take (by omega), readU16_drop hr, ht]
  -- The message is a part of the record, which ends with the padding.
  have hbody : body ((data.drop r).take n) = (data.drop r).take k.toNat := by
    rw [body, hlen, List.take_take]
    exact congrArg (List.take · _) (min_eq_left hhi)
  have hmsg : ((data.drop r).take k.toNat).length = k.toNat := by
    rw [List.length_take, List.length_drop]
    omega
  rw [Hidden, htype, hbody, hide]
  simp only [Option.some.injEq]
  set msg := (data.drop r).take k.toNat with hset
  -- By the type of the message: an index in the body, routes and rules by their attributes.
  by_cases hlink : t = rtmNewlink ∨ t = rtmNewaddr
  · have hroute : t ≠ rtmNewroute := by rcases hlink with rfl | rfl <;> decide
    have hrule : t ≠ rtmNewrule := by rcases hlink with rfl | rfl <;> decide
    simp only [hlink, hroute, hrule, true_and, false_and, or_false, if_false]
    split_ifs with hsize
    · have hindex : readU32 data (r + nlmsgHdrlen + 4) = readU32 msg (nlmsgHdrlen + 4) := by
        rw [hset, readU32_take (by omega), readU32_drop hr, Nat.add_assoc]
      obtain ⟨i, hi⟩ := exists_readU32 (show nlmsgHdrlen + 4 + 4 ≤ msg.length by omega)
      rw [hindex, hi]
      simp
    · rw [readU32_eq_none (by omega)]
      simp
  · by_cases hroute : t = rtmNewroute
    · have hrule : t ≠ rtmNewrule := by
        rw [hroute]
        decide
      simp only [eq_false hlink, eq_true hroute, eq_false hrule, true_and, false_and,
        or_false, false_or, if_false]
      split_ifs with hsize
      · rw [routeOif_eq]
        generalize ((attributes msg).find? isOif).bind (readU32 · 4) = oif
        cases oif <;> simp
      · rw [attributes_short (by omega)]
        simp
    · by_cases hrule : t = rtmNewrule
      · simp only [eq_false hlink, eq_false hroute, eq_true hrule, true_and,
          false_and, false_or, if_false]
        split_ifs with hsize
        · exact Iff.rfl
        · rw [ruleHidesVpn_short vpnUid (by omega)]
          simp
      · simp only [hlink, hroute, hrule, false_and, or_false, if_false, Bool.false_eq_true]

/-- The loop keeps the messages that are not hidden, and ends where the tail begins. -/
theorem filterLoop_eq (orig l : Bytes) :
    ∀ {data : Bytes} {r w : ℕ} {kept : Bytes}, Compaction orig data r w kept → orig.drop r = l →
      ∃ data' r' w', filterLoop vpnIndices vpnUid orig.length data r w = (data', r', w') ∧
        Compaction orig data' r' w'
          (kept ++ ((messages l).1.filter fun m => !decide (Hidden vpnIndices vpnUid m)).flatten) ∧
        orig.drop r' = (messages l).2 := by
  -- By the messages that are left.
  induction l using records_induction isNext_nextMessage with
  | tail l h =>
    rintro data r w kept hc rfl
    -- The loop ends at the tail: no header is left, or a length that does not fit.
    have hstop : filterLoop vpnIndices vpnUid orig.length data r w = (data, r, w) := by
      rw [filterLoop]
      split_ifs with hroom
      · have hr : r ≤ data.length := hc.le_length.trans_eq hc.length_eq.symm
        have h16 : r + 16 ≤ orig.length := hroom
        obtain ⟨k, hk⟩ := exists_readU32 (show r + 4 ≤ data.length by rw [hc.length_eq]; omega)
        rw [hk]
        dsimp only
        rw [if_pos]
        by_contra hbad
        rw [not_or, not_lt, not_lt] at hbad
        rw [← hc.unread] at h
        have hsome :
            nextMessage (data.drop r) = some (min (align k.toNat) (data.drop r).length) := by
          refine nextMessage_eq_some_iff.2 ⟨k, ?_, hbad.1, ?_, rfl⟩
          · rw [readU32_drop hr, Nat.add_zero, hk]
          · rw [List.length_drop, hc.length_eq]
            omega
        rw [h] at hsome
        exact absurd hsome nofun
      · rfl
    refine ⟨data, r, w, hstop, ?_, ?_⟩
    · rw [messages, records_of_none h, List.filter_nil, List.flatten_nil, List.append_nil]
      exact hc
    · rw [messages, records_of_none h]
  | record l n h ih =>
    rintro data r w kept hc rfl
    have hr : r ≤ data.length := hc.le_length.trans_eq hc.length_eq.symm
    have hle := hc.le_length
    obtain ⟨k, hk, hlo, hhi, hn⟩ := nextMessage_eq_some_iff.1 h
    rw [← hc.unread, readU32_drop hr, Nat.add_zero] at hk
    rw [List.length_drop] at hhi hn
    have h16 : 16 ≤ k.toNat := hlo
    have halign := le_align k.toNat
    have hroom : r + n ≤ orig.length := by omega
    obtain ⟨t, ht⟩ := exists_readU16 (show r + 4 + 2 ≤ data.length by rw [hc.length_eq]; omega)
    have hhide := hide_iff vpnIndices vpnUid hr hk ht hlo (show k.toNat ≤ n by omega)
      (by rw [hc.length_eq]; exact hroom)
    rw [hc.unread] at hhide
    -- A message is skipped or moved to where the writer stands.
    have hstep : filterLoop vpnIndices vpnUid orig.length data r w =
        if hide vpnIndices vpnUid data r k.toNat t then
          filterLoop vpnIndices vpnUid orig.length data (r + n) w
        else filterLoop vpnIndices vpnUid orig.length (moveDown data r n w) (r + n) (w + n) := by
      rw [filterLoop, if_pos (by rw [nlmsgHdrlen]; omega), hk]
      dsimp only
      rw [if_neg (by omega), ht]
      dsimp only
      rw [← hn]
    have hdrop : orig.drop (r + n) = (orig.drop r).drop n := by rw [List.drop_drop]
    rw [hstep, messages, records_of_some isNext_nextMessage h, List.filter_cons]
    dsimp only
    by_cases hhidden : Hidden vpnIndices vpnUid ((orig.drop r).take n)
    · rw [if_pos (hhide.2 hhidden), if_neg (by simp [hhidden])]
      exact ih (hc.skip hroom) hdrop
    · obtain ⟨data', r', w', hloop, hc', htail⟩ := ih (hc.keep hroom) hdrop
      rw [if_neg fun hh => hhidden (hhide.1 hh), if_pos (by simp [hhidden]), List.flatten_cons,
        ← List.append_assoc]
      exact ⟨data', r', w', hloop, hc', htail⟩

/-- What is left of a dump: the messages that are not hidden, and the tail. -/
def remaining (data : Bytes) : Bytes :=
  ((messages data).1.filter fun m => !decide (Hidden vpnIndices vpnUid m)).flatten ++
    (messages data).2

theorem filterNetlinkDump_take (data : Bytes) :
    (filterNetlinkDump vpnIndices vpnUid data).1.length = data.length ∧
      (filterNetlinkDump vpnIndices vpnUid data).2 = (remaining vpnIndices vpnUid data).length ∧
      (filterNetlinkDump vpnIndices vpnUid data).1.take
        (filterNetlinkDump vpnIndices vpnUid data).2 = remaining vpnIndices vpnUid data := by
  rw [filterNetlinkDump]
  split_ifs with hshort
  · have hnone : nextMessage data = none := by
      rw [Option.eq_none_iff_forall_not_mem]
      intro n hn
      obtain ⟨k, -, hlo, hhi, -⟩ := nextMessage_eq_some_iff.1 hn
      omega
    rw [remaining, messages, records_of_none hnone]
    simp
  · obtain ⟨data', r, w, hloop, hc, htail⟩ :=
      filterLoop_eq vpnIndices vpnUid data data (Compaction.start data) rfl
    dsimp only
    rw [hloop]
    dsimp only
    rw [List.nil_append] at hc
    have hle := hc.le_length
    rw [remaining, ← htail]
    split_ifs with hrest
    · -- The tail is kept as a record is.
      have hkeep := hc.keep (show r + (data.length - r) ≤ data.length by omega)
      rw [List.take_of_length_le (by rw [List.length_drop])] at hkeep
      exact ⟨hkeep.length_eq, hkeep.length_kept.symm, hkeep.written⟩
    · rw [List.drop_eq_nil_of_le (not_lt.1 hrest), List.append_nil]
      exact ⟨hc.length_eq, hc.length_kept.symm, hc.written⟩

/-- The messages of what is left are those that are not hidden. -/
theorem messages_remaining (data : Bytes) :
    messages (remaining vpnIndices vpnUid data) =
      ((messages data).1.filter fun m => !decide (Hidden vpnIndices vpnUid m), (messages data).2) :=
  records_filter isNext_nextMessage isLocal_nextMessage _ data

theorem remaining_remaining (data : Bytes) :
    remaining vpnIndices vpnUid (remaining vpnIndices vpnUid data) =
      remaining vpnIndices vpnUid data := by
  rw [remaining, messages_remaining, List.filter_filter]
  simp only [Bool.and_self]
  rfl

/-- A buffer is a sequence of messages and a tail that begins with none. The filter leaves the
    messages that are not hidden, in their order and with their padding, and the tail; and
    nothing of that is removed when it is filtered again. -/
theorem filterNetlinkDump_eq (data : Bytes) :
    (messages data).1.flatten ++ (messages data).2 = data ∧ nextMessage (messages data).2 = none ∧
      (filterNetlinkDump vpnIndices vpnUid data).1.length = data.length ∧
      (filterNetlinkDump vpnIndices vpnUid data).2 ≤ data.length ∧
      (filterNetlinkDump vpnIndices vpnUid data).1.take
        (filterNetlinkDump vpnIndices vpnUid data).2 = ((messages data).1.filter fun m =>
          !decide (Hidden vpnIndices vpnUid m)).flatten ++ (messages data).2 ∧
      filterNetlinkDump vpnIndices vpnUid
          ((filterNetlinkDump vpnIndices vpnUid data).1.take
            (filterNetlinkDump vpnIndices vpnUid data).2) =
        ((filterNetlinkDump vpnIndices vpnUid data).1.take
          (filterNetlinkDump vpnIndices vpnUid data).2,
          (filterNetlinkDump vpnIndices vpnUid data).2) := by
  obtain ⟨hlen, hvalid, htake⟩ := filterNetlinkDump_take vpnIndices vpnUid data
  refine ⟨flatten_records isNext_nextMessage data, next_tail isNext_nextMessage data,
    hlen, ?_, htake, ?_⟩
  · -- What is kept is a prefix of the buffer, and as long as the prefix that is reported.
    have hle := congrArg List.length htake
    rw [List.length_take, ← hvalid, hlen] at hle
    omega
  · -- A second pass finds nothing more to hide.
    rw [htake, hvalid]
    obtain ⟨hlen', hvalid', htake'⟩ :=
      filterNetlinkDump_take vpnIndices vpnUid (remaining vpnIndices vpnUid data)
    rw [remaining_remaining] at hvalid' htake'
    rw [List.take_of_length_le (by rw [hlen', hvalid'])] at htake'
    exact Prod.ext htake' hvalid'

end VpnHide.Zygisk

import VpnHide.Kmod.Interfaces
import VpnHide.Zygisk.Netlink

/-!
# Policy rules

The KPM hides a policy rule while the kernel fills it into a dump (`fib_rule_before` in
`kmod/kpm/vpnhide_kpm.c`), by the fields of the rule; Zygisk hides it in the message that an app
receives (`rule_hides_vpn` in `zygisk/src/filter.rs`), by the attributes there.

A message that the kernel fills has the attributes of its rule in some order, among others
(`Encodes`). The two filters decide alike (`rule_filters_agree`): what Zygisk remembers of the
attributes does not depend on their order.
-/

namespace VpnHide.Kpm

open Lib Zygisk

/-! ## The filter of the KPM -/

/-- The room that the kernel has for the name of an interface. -/
def vpnhideIfnamsiz : ℕ := 16

/-- The name of an interface, as the kernel keeps it: a C string that fits `IFNAMSIZ`. -/
structure IfName where
  bytes : Bytes
  short : bytes.length ≤ 15
  noNul : 0 ∉ bytes

/-- What is hidden about a rule: its interfaces, its table and its uids. -/
structure FibRule where
  iifname : IfName
  oifname : IfName
  table : UInt32
  uidStart : UInt32
  uidEnd : UInt32

/-- A copy of the name is matched. -/
def ifaceIsVpn (name : Bytes) : Bool := Kmod.vpnhideIfaceIsVpn ((name.takeWhile (· != 0)).take 15)

/-- Whether a rule is filtered out for a uid, for which the hook is active or not. -/
def fibRuleBefore (active : Bool) (rule : FibRule) (uid : UInt32) : Bool :=
  let iif := rule.iifname.bytes
  let oif := rule.oifname.bytes
  if !active then false
  else if iif ≠ [] && ifaceIsVpn iif || oif ≠ [] && ifaceIsVpn oif then true
  else
    rule.uidStart ≤ uid && uid ≤ rule.uidEnd && (rule.uidStart != 0 || rule.uidEnd != 0xffffffff) &&
      rule.table != 253 && rule.table != 254 && rule.table != 255 && 100 < rule.table

/-! ## Messages of the kernel -/

/-- Two bytes, the low one first. -/
def le16 (n : ℕ) : Bytes := [n.toUInt8, (n / 256).toUInt8]

/-- Four bytes, the low one first. -/
def le32 (n : UInt32) : Bytes := le16 (n.toNat % 65536) ++ le16 (n.toNat / 65536)

/-- An attribute of a message, with the padding after it. -/
structure Attribute where
  type : UInt16
  payload : Bytes
  padding : Bytes
  fits : payload.length + 4 < 65536
  padded : payload.length + 4 + padding.length = align (payload.length + 4)

/-- The bytes of an attribute. -/
def Attribute.bytes (a : Attribute) : Bytes :=
  le16 (a.payload.length + 4) ++ le16 a.type.toNat ++ a.payload ++ a.padding

/-- The attributes that say what a rule is. -/
def ruleAttributes (rule : FibRule) : List (UInt16 × Bytes) :=
  (if rule.iifname.bytes = [] then [] else [(fraIifname, rule.iifname.bytes ++ [0])]) ++
    (if rule.oifname.bytes = [] then [] else [(fraOifname, rule.oifname.bytes ++ [0])]) ++
    [(fraTable, le32 rule.table)] ++
    if rule.uidStart = 0 ∧ rule.uidEnd = 0xffffffff then []
    else [(fraUidRange, le32 rule.uidStart ++ le32 rule.uidEnd)]

/-- The types of the attributes that the filters look at. -/
def ruleTypes : List UInt16 := [fraIifname, fraOifname, fraTable, fraUidRange]

/-- The attributes are those of a rule and others, in some order. -/
def Encodes (rule : FibRule) (attributes : List Attribute) : Prop :=
  ∃ others : List (UInt16 × Bytes), (∀ a ∈ others, a.1 ∉ ruleTypes) ∧
    (attributes.map fun a => (a.type, a.payload)).Perm (ruleAttributes rule ++ others)

/-- A message of a rule: its headers, and its attributes. -/
def ruleMessage (headers : Bytes) (attributes : List Attribute) : Bytes :=
  headers ++ attributes.flatMap Attribute.bytes

/-! ## Reading -/

/-- Two bytes are read back. -/
theorem readU16_le16 {n : ℕ} (hn : n < 65536) (rest : Bytes) :
    readU16 (le16 n ++ rest) 0 = some n.toUInt16 := by
  rw [readU16, getRange_eq_some (by simp [le16])]
  have hbytes : fromLeBytes [n.toUInt8, (n / 256).toUInt8] = n := by
    simp only [fromLeBytes, List.foldr_cons, List.foldr_nil, Nat.toUInt8_eq, UInt8.toNat_ofNat']
    omega
  change some (fromLeBytes [n.toUInt8, (n / 256).toUInt8]).toUInt16 = _
  rw [hbytes]

/-- Four bytes are read back. -/
theorem readU32_le32 (n : UInt32) (rest : Bytes) : readU32 (le32 n ++ rest) 0 = some n := by
  rw [readU32, getRange_eq_some (by simp [le32, le16])]
  have hlt := n.toNat_lt
  have hbytes : fromLeBytes (le32 n) = n.toNat := by
    simp only [fromLeBytes, le32, le16, List.cons_append, List.nil_append, List.foldr_cons,
      List.foldr_nil, Nat.toUInt8_eq, UInt8.toNat_ofNat']
    omega
  change some (fromLeBytes (le32 n)).toUInt32 = _
  rw [hbytes]
  exact congrArg some UInt32.ofNat_toNat

theorem length_le16 (n : ℕ) : (le16 n).length = 2 := rfl

theorem length_le32 (n : UInt32) : (le32 n).length = 4 := rfl

theorem Attribute.length_bytes (a : Attribute) : a.bytes.length = align (a.payload.length + 4) := by
  rw [← a.padded, Attribute.bytes]
  simp only [List.length_append, length_le16]
  omega

/-- The walk over the attributes applies them in their order. -/
theorem attributes_append (before : Bytes) (attributes : List Attribute) (s : Zygisk.Rule) :
    Rule.attributes (before ++ attributes.flatMap Attribute.bytes) before.length s =
      attributes.foldl (fun s a => s.attribute a.type a.payload) s := by
  -- By the attributes; the walk stands behind those that were applied.
  induction attributes generalizing before s with
  | nil =>
    rw [Rule.attributes, if_neg (by simp)]
    rfl
  | cons a attributes ih =>
    have hlen := a.length_bytes
    have hle := le_align (a.payload.length + 4)
    have hfits := a.fits
    rw [Rule.attributes, if_pos (by simp only [List.length_append, List.flatMap_cons]; omega)]
    have hread : readU16 (before ++ (a :: attributes).flatMap Attribute.bytes) before.length =
        some (a.payload.length + 4).toUInt16 := by
      rw [← Nat.add_zero before.length, ← readU16_drop (by simp), List.drop_left, List.flatMap_cons,
        Attribute.bytes, List.append_assoc, List.append_assoc, List.append_assoc]
      exact readU16_le16 hfits _
    have htype : readU16 (before ++ (a :: attributes).flatMap Attribute.bytes) (before.length + 2) =
        some a.type := by
      have hsplit : before ++ (a :: attributes).flatMap Attribute.bytes =
          (before ++ le16 (a.payload.length + 4)) ++
            (le16 a.type.toNat ++
              (a.payload ++ a.padding ++ attributes.flatMap Attribute.bytes)) := by
        simp only [List.flatMap_cons, Attribute.bytes, List.append_assoc]
      have hpos : before.length + 2 = (before ++ le16 (a.payload.length + 4)).length := by
        rw [List.length_append, length_le16]
      rw [hsplit, hpos, ← Nat.add_zero (before ++ le16 (a.payload.length + 4)).length,
        ← readU16_drop (by simp), List.drop_left, readU16_le16 a.type.toNat_lt]
      exact congrArg some UInt16.ofNat_toNat
    have hnat : (a.payload.length + 4).toUInt16.toNat = a.payload.length + 4 :=
      UInt16.toNat_ofNat_of_lt' hfits
    rw [hread, htype]
    simp only [hnat]
    rw [if_neg (by simp only [List.length_append, List.flatMap_cons]; omega)]
    -- The payload ends where the length says, before the padding.
    have hpayload : ((before ++ (a :: attributes).flatMap Attribute.bytes).take
        (before.length + (a.payload.length + 4))).drop (before.length + 4) = a.payload := by
      have hsplit : before ++ (a :: attributes).flatMap Attribute.bytes =
          (before ++ le16 (a.payload.length + 4) ++ le16 a.type.toNat) ++
            (a.payload ++ (a.padding ++ attributes.flatMap Attribute.bytes)) := by
        simp only [List.flatMap_cons, Attribute.bytes, List.append_assoc]
      rw [List.drop_take, hsplit, List.drop_left' (by simp only [List.length_append, length_le16]),
        List.take_left' (by omega)]
    have hnext : before.length + align (a.payload.length + 4) = (before ++ a.bytes).length := by
      rw [List.length_append, hlen]
    rw [hpayload, hnext, List.foldl_cons, ← ih, List.flatMap_cons, List.append_assoc]

/-! ## What the attributes say -/

/-- The attribute names a VPN interface. -/
def namesVpn (a : UInt16 × Bytes) : Bool :=
  (a.1 = fraIifname ∨ a.1 = fraOifname) && a.2 != [] && isVpnIfaceBytes a.2

/-- The table that an attribute gives. -/
def tableOf (a : UInt16 × Bytes) : Option UInt32 := if a.1 = fraTable then readU32 a.2 0 else none

/-- The uids that an attribute gives. -/
def uidsOf (a : UInt16 × Bytes) : Option (UInt32 × UInt32) :=
  if a.1 = fraUidRange then (readU32 a.2 0).bind fun lo => (readU32 a.2 4).map (lo, ·) else none

/-- What a rule is after some attributes: the last table and the last range count. -/
def ruleAfter (s : Zygisk.Rule) (l : List (UInt16 × Bytes)) : Zygisk.Rule where
  table := (l.filterMap tableOf).getLast?.getD s.table
  uidLo := ((l.filterMap uidsOf).getLast?.map Prod.fst).getD s.uidLo
  uidHi := ((l.filterMap uidsOf).getLast?.map Prod.snd).getD s.uidHi
  hasUidrange := s.hasUidrange || (l.filterMap uidsOf).getLast?.isSome
  namesVpn := s.namesVpn || l.any namesVpn

/-- Reading past the end gives nothing. -/
theorem readU32_eq_none_iff {l : Bytes} {off : ℕ} : readU32 l off = none ↔ l.length < off + 4 := by
  refine ⟨fun h => ?_, readU32_eq_none⟩
  by_contra hlt
  obtain ⟨v, hv⟩ := exists_readU32 (not_lt.1 hlt)
  rw [hv] at h
  cases h

/-- An attribute is judged alone. -/
theorem attribute_eq (s : Zygisk.Rule) (type : UInt16) (payload : Bytes) :
    s.attribute type payload = ruleAfter s [(type, payload)] := by
  obtain ⟨table, uidLo, uidHi, hasUidrange, names⟩ := s
  rw [Rule.attribute]
  -- By the type, as each changes a part of its own.
  by_cases hname : type = fraIifname ∨ type = fraOifname
  · have htable : type ≠ fraTable := by rintro rfl; revert hname; decide
    have huids : type ≠ fraUidRange := by rintro rfl; revert hname; decide
    by_cases hne : payload = []
    · simp [hne, htable, huids, ruleAfter, namesVpn, tableOf, uidsOf]
    · cases hvpn : isVpnIfaceBytes payload with
      | true => simp [hname, hne, htable, huids, hvpn, ruleAfter, namesVpn, tableOf, uidsOf]
      | false => simp [hname, hne, htable, huids, hvpn, ruleAfter, namesVpn, tableOf, uidsOf]
  by_cases htable : type = fraTable
  · have huids : fraTable ≠ fraUidRange := by decide
    subst htable
    cases hread : readU32 payload 0 with
    | none =>
      have hlen := readU32_eq_none_iff.1 hread
      simp [hname, hread, show ¬4 ≤ payload.length by omega, huids, ruleAfter,
        namesVpn, tableOf, uidsOf]
    | some v =>
      have hlen : 4 ≤ payload.length := by
        by_contra hlt
        rw [readU32_eq_none (by omega)] at hread
        cases hread
      simp [hname, hread, hlen, huids, ruleAfter, namesVpn, tableOf, uidsOf]
  by_cases huids : type = fraUidRange
  · subst huids
    cases hread : readU32 payload 4 with
    | none =>
      have hlen := readU32_eq_none_iff.1 hread
      simp [hname, htable, hread, show ¬8 ≤ payload.length by omega, ruleAfter,
        namesVpn, tableOf, uidsOf]
    | some hi =>
      have hlen : 8 ≤ payload.length := by
        by_contra hlt
        rw [readU32_eq_none (by omega)] at hread
        cases hread
      obtain ⟨lo, hlo⟩ : ∃ v, readU32 payload 0 = some v := exists_readU32 (by omega)
      simp [hname, htable, hread, hlo, hlen, ruleAfter, namesVpn, tableOf, uidsOf]
  · simp [hname, htable, huids, ruleAfter, namesVpn, tableOf, uidsOf]

/-- Attributes are judged one after the other. -/
theorem ruleAfter_append (s : Zygisk.Rule) (l l' : List (UInt16 × Bytes)) :
    ruleAfter (ruleAfter s l) l' = ruleAfter s (l ++ l') := by
  simp only [ruleAfter, List.filterMap_append, List.getLast?_append, List.any_append, Bool.or_assoc]
  cases (l'.filterMap tableOf).getLast? <;> cases (l'.filterMap uidsOf).getLast? <;> simp

/-- The walk remembers the last table, the last range, and whether some name was one of a VPN. -/
theorem foldl_attribute (s : Zygisk.Rule) (l : List (UInt16 × Bytes)) :
    l.foldl (fun s a => s.attribute a.1 a.2) s = ruleAfter s l := by
  induction l generalizing s with
  | nil => simp [ruleAfter]
  | cons a l ih => rw [List.foldl_cons, ih, attribute_eq, ruleAfter_append, List.singleton_append]

/-! ## Main result -/

section Agree

variable {rule : FibRule} {attributes : List Attribute} {headers : Bytes}

/-- A name is judged without its zero. -/
theorem isVpnIfaceBytes_append_nul (name : IfName) :
    isVpnIfaceBytes (name.bytes ++ [0]) = ifaceIsVpn name.bytes := by
  have hall : ∀ c ∈ name.bytes, (c != 0) = true := fun c hc => by
    rw [bne_iff_ne]
    rintro rfl
    exact name.noNul hc
  have hname : name.bytes.takeWhile (· != 0) = name.bytes := List.takeWhile_eq_self_iff.2 hall
  rw [isVpnIfaceBytes, ifaceIsVpn, List.takeWhile_append_of_pos hall, hname,
    List.take_of_length_le name.short, Kmod.vpnhideIfaceIsVpn_eq]
  simp

theorem tableOf_of_ne {type : UInt16} (h : type ≠ fraTable) (payload : Bytes) :
    tableOf (type, payload) = none := if_neg h

theorem uidsOf_of_ne {type : UInt16} (h : type ≠ fraUidRange) (payload : Bytes) :
    uidsOf (type, payload) = none :=
  if_neg h

theorem namesVpn_of_ne {type : UInt16} (h : ¬(type = fraIifname ∨ type = fraOifname))
    (payload : Bytes) :
    namesVpn (type, payload) = false := by
  rw [namesVpn, Bool.and_eq_false_iff, Bool.and_eq_false_iff]
  exact .inl (.inl (decide_eq_false h))

/-- Only the attributes of the rule are looked at. -/
theorem filterMap_others {β : Type} {f : UInt16 × Bytes → Option β} {others : List (UInt16 × Bytes)}
    (hf : ∀ a, a.1 ∉ ruleTypes → f a = none) (hothers : ∀ a ∈ others, a.1 ∉ ruleTypes) :
    others.filterMap f = [] :=
  List.filterMap_eq_nil_iff.2 fun a ha => hf a (hothers a ha)

/-- The table of a rule. -/
theorem tableOf_encodes (h : Encodes rule attributes) :
    (attributes.map fun a => (a.type, a.payload)).filterMap tableOf = [rule.table] := by
  obtain ⟨others, hothers, hperm⟩ := h
  have hnone : ∀ a : UInt16 × Bytes, a.1 ∉ ruleTypes → tableOf a = none := by
    intro a ha
    refine tableOf_of_ne (fun heq => ?_) a.2
    rw [heq] at ha
    exact ha (by decide)
  refine List.perm_singleton.1 ((hperm.filterMap tableOf).trans (.of_eq ?_))
  have hread : tableOf (fraTable, le32 rule.table) = some rule.table := by
    rw [tableOf, if_pos rfl, ← List.append_nil (le32 rule.table), readU32_le32]
  have hiif (payload : Bytes) : tableOf (fraIifname, payload) = none :=
    tableOf_of_ne (by decide) payload
  have hoif (payload : Bytes) : tableOf (fraOifname, payload) = none :=
    tableOf_of_ne (by decide) payload
  have huid (payload : Bytes) : tableOf (fraUidRange, payload) = none :=
    tableOf_of_ne (by decide) payload
  rw [List.filterMap_append, filterMap_others hnone hothers, List.append_nil, ruleAttributes]
  split_ifs <;> simp [hread, hiif, hoif, huid]

/-- The uids of a rule. -/
theorem uidsOf_encodes (h : Encodes rule attributes) :
    (attributes.map fun a => (a.type, a.payload)).filterMap uidsOf =
      if rule.uidStart = 0 ∧ rule.uidEnd = 0xffffffff then []
        else [(rule.uidStart, rule.uidEnd)] := by
  obtain ⟨others, hothers, hperm⟩ := h
  -- No other attribute has uids.
  have hnone : ∀ a : UInt16 × Bytes, a.1 ∉ ruleTypes → uidsOf a = none := by
    intro a ha
    refine uidsOf_of_ne (fun heq => ?_) a.2
    rw [heq] at ha
    exact ha (by decide)
  have hread : uidsOf (fraUidRange, le32 rule.uidStart ++ le32 rule.uidEnd) =
      some (rule.uidStart, rule.uidEnd) := by
    have hsecond : readU32 (le32 rule.uidStart ++ le32 rule.uidEnd) 4 = some rule.uidEnd := by
      have hdrop : readU32 ((le32 rule.uidStart ++ le32 rule.uidEnd).drop 4) 0 =
          readU32 (le32 rule.uidStart ++ le32 rule.uidEnd) (4 + 0) :=
        readU32_drop (by simp [length_le32])
      rw [List.drop_left' (length_le32 _), ← List.append_nil (le32 rule.uidEnd), readU32_le32]
        at hdrop
      rw [← List.append_nil (le32 rule.uidEnd)]
      exact hdrop.symm
    rw [uidsOf, if_pos rfl, readU32_le32, Option.bind_some, hsecond]
    rfl
  have hiif (payload : Bytes) : uidsOf (fraIifname, payload) = none :=
    uidsOf_of_ne (by decide) payload
  have hoif (payload : Bytes) : uidsOf (fraOifname, payload) = none :=
    uidsOf_of_ne (by decide) payload
  have htable (payload : Bytes) : uidsOf (fraTable, payload) = none :=
    uidsOf_of_ne (by decide) payload
  -- The range is written once, unless it is that of all uids.
  have heq : (ruleAttributes rule ++ others).filterMap uidsOf =
      if rule.uidStart = 0 ∧ rule.uidEnd = 0xffffffff then []
        else [(rule.uidStart, rule.uidEnd)] := by
    rw [List.filterMap_append, filterMap_others hnone hothers, List.append_nil, ruleAttributes]
    split_ifs <;> simp [hread, hiif, hoif, htable]
  have hperm' := hperm.filterMap uidsOf
  rw [heq] at hperm'
  split_ifs at hperm' ⊢
  · exact List.perm_nil.1 hperm'
  · exact List.perm_singleton.1 hperm'

/-- The interfaces of a rule. -/
theorem any_namesVpn_encodes (h : Encodes rule attributes) :
    (attributes.map fun a => (a.type, a.payload)).any namesVpn =
      (decide (rule.iifname.bytes ≠ []) && ifaceIsVpn rule.iifname.bytes ||
        decide (rule.oifname.bytes ≠ []) && ifaceIsVpn rule.oifname.bytes) := by
  obtain ⟨others, hothers, hperm⟩ := h
  have hnone : others.any namesVpn = false := by
    refine List.any_eq_false.2 fun a ha hnames => hothers a ha ?_
    rw [namesVpn, Bool.and_eq_true, Bool.and_eq_true, decide_eq_true_eq] at hnames
    obtain hiif | hoif := hnames.1.1
    · rw [hiif]
      decide
    · rw [hoif]
      decide
  have hname (type : UInt16) (htype : type = fraIifname ∨ type = fraOifname) (name : IfName) :
      namesVpn (type, name.bytes ++ [0]) = ifaceIsVpn name.bytes := by
    simp [namesVpn, htype, isVpnIfaceBytes_append_nul]
  have htable (payload : Bytes) : namesVpn (fraTable, payload) = false :=
    namesVpn_of_ne (by decide) payload
  have huid (payload : Bytes) : namesVpn (fraUidRange, payload) = false :=
    namesVpn_of_ne (by decide) payload
  rw [hperm.any_eq, List.any_append, hnone, Bool.or_false, ruleAttributes]
  split_ifs with hiif hoif <;> simp [*]

/-- Zygisk and the KPM hide the same rules: whatever the headers of the message are, in whatever
    order its attributes stand, and whatever others there are. -/
theorem rule_filters_agree (hheaders : headers.length = nlmsgHdrlen + rtmsgHdrlen)
    (h : Encodes rule attributes) (uid : UInt32) :
    ruleHidesVpn (ruleMessage headers attributes) uid = fibRuleBefore true rule uid := by
  have hfold (s : Zygisk.Rule) : attributes.foldl (fun s a => s.attribute a.type a.payload) s =
      ruleAfter s (attributes.map fun a => (a.type, a.payload)) := by
    rw [← foldl_attribute, List.foldl_map]
  rw [ruleHidesVpn, ruleMessage, ← hheaders]
  simp only [attributes_append, hfold, ruleAfter, tableOf_encodes h, uidsOf_encodes h,
    any_namesVpn_encodes h]
  rw [fibRuleBefore]
  cases decide (rule.iifname.bytes ≠ []) && ifaceIsVpn rule.iifname.bytes ||
      decide (rule.oifname.bytes ≠ []) && ifaceIsVpn rule.oifname.bytes with
  | true => simp
  | false =>
    by_cases hfull : rule.uidStart = 0 ∧ rule.uidEnd = 0xffffffff
    · -- there is no range, and the KPM does not count it either
      simp [hfull.1, hfull.2]
    · have hrange : (!(rule.uidStart == 0 && rule.uidEnd == 0xffffffff)) =
          (rule.uidStart != 0 || rule.uidEnd != 0xffffffff) := by
        rw [Bool.not_and]
        rfl
      simp only [if_neg hfull, List.getLast?_singleton, Option.isSome_some, Option.map_some,
        Option.getD_some, Bool.false_or, Bool.true_and, hrange, Bool.not_true, Bool.false_eq_true,
        if_false, rtTableMain, rtTableLocal, rtTableDefault]
      -- the standard tables are excluded in another order
      have horder : ∀ x main loc default big : Bool,
          (x && main && loc && default && big) = (x && default && main && loc && big) := by decide
      exact horder _ _ _ _ _

/-- A rule for the uid 10123 and a table of its own, whose attributes stand after one that is not
    looked at. -/
theorem rule_filters_agree_tun :
    let rule : FibRule :=
  ⟨⟨[], by decide, by decide⟩, ⟨[], by decide, by decide⟩, 1040, 10123, 10123⟩
    let attributes : List Attribute :=
      [⟨6, [0], [0, 0, 0], by decide, by decide⟩,
        ⟨fraUidRange, le32 10123 ++ le32 10123, [], by decide, by decide⟩,
        ⟨fraTable, le32 1040, [], by decide, by decide⟩]
    ruleHidesVpn (ruleMessage (List.replicate 28 0) attributes) 10123 =
      fibRuleBefore true rule 10123 ∧ fibRuleBefore true rule 10123 = true := by
  intro rule attributes
  have hencodes : Encodes rule attributes := by
    refine ⟨[(6, [0])], by decide, ?_⟩
    decide
  exact ⟨rule_filters_agree (by decide) hencodes 10123, by decide⟩

end Agree

end VpnHide.Kpm

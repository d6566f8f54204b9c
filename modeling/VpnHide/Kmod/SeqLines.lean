import VpnHide.Kmod.Interfaces
import VpnHide.Zygisk.ProcLines

/-!
# Compacting seq-file buffers

`vpnhide_compact_seq_lines` of `kmod/shared/vpnhide_logic.h` removes, from the part of a seq-file
buffer that a call of `show` wrote, the lines of VPN interfaces. It copies what it keeps down byte
by byte. The name of an interface is the first or the last field of a line, cut to what fits
`IFNAMSIZ`, and matched as a C string.

What is left are the lines that are not matched, after what stood before (`compactSeqLines_eq`).
On buffers whose fields are names, the filters of Zygisk leave the same (`line_filters_agree`).
-/

namespace VpnHide.Kmod

open Lib Zygisk

/-- The room that the kernel has for the name of an interface. -/
def ifnamsiz : ℕ := 16

/-- Where a line has the name of its interface. -/
inductive IfaceField
  | first
  | last
  deriving DecidableEq

/-- The field of a line, cut to the buffer for it. -/
def ifaceField (field : IfaceField) (line : Bytes) : Bytes :=
  match field with
  | .first => (line.takeWhile fun b => b != '\t'.toUInt8 && b != '\n'.toUInt8).take (ifnamsiz - 1)
  | .last =>
    ((line.rdropWhile fun b => b == '\n'.toUInt8 || b == '\r'.toUInt8 || b == ' '.toUInt8 ||
      b == '\t'.toUInt8).rtakeWhile
      fun b => b != ' '.toUInt8 && b != '\t'.toUInt8).take (ifnamsiz - 1)

/-- The name in a buffer, as a C string. -/
def ifname (field : IfaceField) (line : Bytes) : Bytes := (ifaceField field line).takeWhile (· != 0)

/-- A line with the name of a VPN interface. -/
def hideLine (field : IfaceField) (isVpn : Bytes → Bool) (line : Bytes) : Bool :=
  ifname field line != [] && isVpn (ifname field line)

/-- The loop over the lines up to `count`: the buffer, and where it ends. -/
def seqLoop (field : IfaceField) (isVpn : Bytes → Bool) (count : ℕ) (buf : Bytes) (src dst : ℕ) :
    Bytes × ℕ :=
  if src < count then
    let nl := src + ((buf.take count).drop src).findIdx isNewline
    let lineEnd := if nl < count then nl + 1 else count
    let lineLen := lineEnd - src
    if hideLine field isVpn ((buf.take lineEnd).drop src) then
      seqLoop field isVpn count buf lineEnd dst
    else
      let buf := if dst ≠ src then copyForward buf dst src lineLen else buf
      seqLoop field isVpn count buf lineEnd (dst + lineLen)
  else (buf, dst)
termination_by count - src
decreasing_by all_goals (split_ifs <;> omega)

/-- The buffer, and the new length of its contents. -/
def compactSeqLines (buf : Bytes) (start count : ℕ) (field : IfaceField) (isVpn : Bytes → Bool) :
    Bytes × ℕ :=
  if count ≤ start then (buf, count) else seqLoop field isVpn count buf start start

/-! ## What is left -/

/-- The lines that are kept. -/
def keptLines (field : IfaceField) (isVpn : Bytes → Bool) (part : Bytes) : List Bytes :=
  (linesUntil isNewline part).filter fun line => !hideLine field isVpn line

section Compact

variable {field : IfaceField} {isVpn : Bytes → Bool}

/-- The end of the line at a cursor. -/
theorem lineEnd_eq {buf : Bytes} {count r : ℕ} (hcount : count ≤ buf.length) (hr : r < count) :
    (if r + ((buf.take count).drop r).findIdx isNewline < count then
      r + ((buf.take count).drop r).findIdx isNewline + 1 else count) =
      r + min (((buf.take count).drop r).findIdx isNewline + 1)
        ((buf.take count).drop r).length := by
  have hlen : ((buf.take count).drop r).length = count - r := by
    rw [List.length_drop, List.length_take_of_le hcount]
  split_ifs <;> omega

/-- The loop keeps the lines that are not hidden. -/
theorem seqLoop_eq (orig : Bytes) {count : ℕ} (hcount : count ≤ orig.length) (l : Bytes) :
    ∀ {data : Bytes} {r w : ℕ} {kept : Bytes}, Compaction orig data r w kept → r ≤ count →
      (orig.take count).drop r = l → ∃ data' w', seqLoop field isVpn count data r w = (data', w') ∧
        Compaction orig data' count w' (kept ++ (keptLines field isVpn l).flatten) := by
  -- By the lines that are left.
  induction l using nextUntil_induction isNewline with
  | nil =>
    intro data r w kept hc hr hnil
    have hle := List.drop_eq_nil_iff.1 hnil
    rw [List.length_take_of_le hcount] at hle
    have hend : r = count := le_antisymm hr hle
    refine ⟨data, w, ?_, ?_⟩
    · rw [seqLoop, if_neg (by omega)]
    · rw [keptLines, linesUntil_nil, List.filter_nil, List.flatten_nil, List.append_nil, ← hend]
      exact hc
  | line l n hne h ih =>
    rintro data r w kept hc hr rfl
    have hlen : ((orig.take count).drop r).length = count - r := by
      rw [List.length_drop, List.length_take_of_le hcount]
    have hpos := List.length_pos_iff.2 hne
    have hlt : r < count := by omega
    have hroom : r + n ≤ orig.length := by omega
    -- What has not been read yet is as it was.
    have hpart : (data.take count).drop r = (orig.take count).drop r := by
      rw [List.drop_take, List.drop_take, hc.unread]
    -- The end of the line is found at its break, or at the end of the buffer.
    have hend : (if r + ((data.take count).drop r).findIdx isNewline < count then
        r + ((data.take count).drop r).findIdx isNewline + 1 else count) = r + n := by
      rw [lineEnd_eq (by rw [hc.length_eq]; exact hcount) hlt, hpart, h]
    have hline : (data.take (r + n)).drop r = ((orig.take count).drop r).take n := by
      rw [List.drop_take, Nat.add_sub_cancel_left, hc.unread, List.drop_take, List.take_take]
      congr 1
      omega
    have hkept : (orig.drop r).take n = ((orig.take count).drop r).take n := by
      rw [List.drop_take, List.take_take]
      congr 1
      omega
    rw [seqLoop, if_pos hlt]
    simp only [hend, hline, Nat.add_sub_cancel_left]
    rw [keptLines, linesUntil_cons hne, h, List.filter_cons]
    have hdrop : (orig.take count).drop (r + n) = ((orig.take count).drop r).drop n :=
      List.drop_drop.symm
    have hnext : r + n ≤ count := by omega
    cases hhide : hideLine field isVpn (((orig.take count).drop r).take n) with
    | true => exact ih (hc.skip hroom) hnext hdrop
    | false =>
      -- The copy runs forward, over a part that has been read.
      have hcopy : (if w ≠ r then copyForward data w r n else data) = moveDown data r n w := by
        split_ifs with hne'
        · exact copyForward_eq_moveDown hc.le (by rw [hc.length_eq]; exact hroom)
        · rw [moveDown, if_neg hne']
      obtain ⟨data', w', hloop, hc'⟩ := ih (hc.keep hroom) hnext hdrop
      refine ⟨data', w', ?_, ?_⟩
      · rw [hcopy]
        exact hloop
      · rw [Bool.not_false, if_pos rfl, List.flatten_cons, ← List.append_assoc, ← hkept]
        exact hc'

/-- Before the part that was written nothing changes, and of that part the lines that are not
    hidden are left. -/
theorem compactSeqLines_eq (buf : Bytes) {start count : ℕ} (hstart : start ≤ count)
    (hcount : count ≤ buf.length) :
    (compactSeqLines buf start count field isVpn).1.length = buf.length ∧
      start ≤ (compactSeqLines buf start count field isVpn).2 ∧
      (compactSeqLines buf start count field isVpn).2 ≤ count ∧
      (compactSeqLines buf start count field isVpn).1.take
        (compactSeqLines buf start count field isVpn).2 =
          buf.take start ++ (keptLines field isVpn ((buf.take count).drop start)).flatten := by
  rw [compactSeqLines]
  split_ifs with hempty
  · obtain rfl : start = count := le_antisymm hstart hempty
    refine ⟨rfl, le_rfl, le_rfl, ?_⟩
    rw [List.drop_take, Nat.sub_self, List.take_zero, keptLines, linesUntil_nil, List.filter_nil,
      List.flatten_nil, List.append_nil]
  · have hbegin : Compaction buf buf start start (buf.take start) :=
      .startAt buf (hstart.trans hcount)
    obtain ⟨data', w, hloop, hc⟩ := seqLoop_eq buf hcount _ hbegin hstart rfl
    rw [hloop]
    refine ⟨hc.length_eq, ?_, hc.le, hc.written⟩
    have hlen := hc.length_kept
    rw [List.length_append, List.length_take_of_le (hstart.trans hcount)] at hlen
    dsimp only
    omega

end Compact

/-! ## The filters of Zygisk -/

/-- A field that is the name of an interface. -/
structure IsName (field : Bytes) : Prop where
  short : field.length ≤ 15
  noNul : 0 ∉ field
  noCr : '\r'.toUInt8 ∉ field

/-- A name has no zero in it. -/
theorem IsName.takeWhile_eq {field : Bytes} (h : IsName field) :
    field.takeWhile (· != 0) = field := by
  refine List.takeWhile_eq_self_iff.2 fun c hc => ?_
  rw [bne_iff_ne]
  rintro rfl
  exact h.noNul hc

/-- The name is not cut, and matched as it is. -/
theorem hideLine_eq {field : IfaceField} {extract : Bytes → Bytes} {line : Bytes}
    (hfield : ifaceField field line = (extract line).take (ifnamsiz - 1))
    (h : IsName (extract line)) :
    hideLine field vpnhideIfaceIsVpn line = hidesField extract line := by
  have hname : ifname field line = extract line := by
    have hcut : (extract line).take (ifnamsiz - 1) = extract line := List.take_of_length_le h.short
    rw [ifname, hfield, hcut, h.takeWhile_eq]
  rw [hideLine, hname, hidesField, isVpnIfaceBytes, h.takeWhile_eq, vpnhideIfaceIsVpn_eq]

/-- The first field of a line, as long as a name may be. -/
theorem ifaceField_first (line : Bytes) :
    ifaceField .first line = (extractFirstField line).take (ifnamsiz - 1) := by
  have hstop : (fun b : UInt8 => b != '\t'.toUInt8 && b != '\n'.toUInt8) =
      fun b => !(b == '\t'.toUInt8 || b == '\n'.toUInt8) := by
    funext b
    rw [Bool.not_or]
    rfl
  rw [ifaceField, extractFirstField, hstop]

/-- Dropping more at the end also drops what was dropped. -/
theorem rdropWhile_rdropWhile {p q : UInt8 → Bool} (h : ∀ b, p b = true → q b = true) (l : Bytes) :
    (l.rdropWhile p).rdropWhile q = l.rdropWhile q := by
  induction l using List.reverseRecOn with
  | nil => rfl
  | append_singleton l b ih =>
    rw [List.rdropWhile_concat]
    split_ifs with hp
    · rw [ih, List.rdropWhile_concat_pos _ _ _ (h b hp)]
    · rfl

/-- Where the last field has no CR, none is trimmed. -/
theorem ifaceField_last {line : Bytes} (h : IsName (extractLastField line)) :
    ifaceField .last line = (extractLastField line).take (ifnamsiz - 1) := by
  have hstop : (fun b : UInt8 => b != ' '.toUInt8 && b != '\t'.toUInt8) =
      fun b => !(b == ' '.toUInt8 || b == '\t'.toUInt8) := by
    funext b
    rw [Bool.not_or]
    rfl
  rw [extractLastField] at h ⊢
  rw [ifaceField, hstop, ← rdropWhile_rdropWhile (p := fun b => b == '\n'.toUInt8 ||
    b == ' '.toUInt8 || b == '\t'.toUInt8)]
  · congr 2
    generalize htrim :
      line.rdropWhile (fun b => b == '\n'.toUInt8 || b == ' '.toUInt8 || b == '\t'.toUInt8) =
        trimmed at h
    refine List.rdropWhile_eq_self_iff.2 fun hne hlast => ?_
    -- the last byte that is left is neither blank nor, as one of the field, a CR
    have hblank : ¬ (trimmed.getLast hne == '\n'.toUInt8 || trimmed.getLast hne == ' '.toUInt8 ||
        trimmed.getLast hne == '\t'.toUInt8) = true := by
      subst htrim
      exact List.rdropWhile_last_not _ _ hne
    have hcr : trimmed.getLast hne = '\r'.toUInt8 := by
      simp only [Bool.or_eq_true, beq_iff_eq, not_or] at hlast hblank
      rcases hlast with ((hnl | hcr) | hspace) | htab
      · exact absurd hnl hblank.1.1
      · exact hcr
      · exact absurd hspace hblank.1.2
      · exact absurd htab hblank.2
    refine h.noCr ?_
    rw [← List.dropLast_append_getLast hne, hcr, List.rtakeWhile_concat_pos _ _ _ (by decide)]
    exact List.mem_append_right _ (List.mem_singleton_self _)
  · intro b hb
    simp only [Bool.or_eq_true] at hb ⊢
    rcases hb with (hnl | hspace) | htab
    · exact .inl (.inl (.inl hnl))
    · exact .inl (.inr hspace)
    · exact .inr htab

/-- Filters that hide the same lines leave the same. -/
theorem take_eq_of_hideLine {field : IfaceField} {extract : Bytes → Bytes} {buf : Bytes}
    (h : ∀ line ∈ linesUntil isNewline buf, hideLine field vpnhideIfaceIsVpn line =
      hidesField extract line) :
    (compactSeqLines buf 0 buf.length field vpnhideIfaceIsVpn).1.take
        (compactSeqLines buf 0 buf.length field vpnhideIfaceIsVpn).2 =
      (compactLines buf (hidesField extract)).1.take (compactLines buf (hidesField extract)).2 := by
  rw [(compactSeqLines_eq buf (Nat.zero_le _) le_rfl).2.2.2, (compactLines_eq buf _).2,
    List.take_zero, List.nil_append, List.take_length, List.drop_zero, keptLines]
  congr 1
  exact List.filter_congr fun line hline => by rw [h line hline]

/-- The compactor leaves what stands before its part, and of that the lines whose field is empty or
    not matched, in their order. On a whole buffer whose fields are names, the filters of Zygisk
    leave the same: that of routes by first fields, those of IPv6 routes and addresses by last
    fields. -/
theorem line_filters_agree (buf : Bytes) :
    (∀ start count field isVpn, start ≤ count → count ≤ buf.length →
      (compactSeqLines buf start count field isVpn).1.take start = buf.take start ∧
      start ≤ (compactSeqLines buf start count field isVpn).2 ∧
      ((compactSeqLines buf start count field isVpn).1.take
        (compactSeqLines buf start count field isVpn).2).drop start =
        ((linesUntil isNewline ((buf.take count).drop start)).filter fun line =>
          ifname field line = [] || !isVpn (ifname field line)).flatten) ∧
    ((∀ line ∈ linesUntil isNewline buf, IsName (extractFirstField line)) →
      (compactSeqLines buf 0 buf.length .first vpnhideIfaceIsVpn).1.take
          (compactSeqLines buf 0 buf.length .first vpnhideIfaceIsVpn).2 =
        (filterRouteBuf buf).1.take (filterRouteBuf buf).2) ∧
    ((∀ line ∈ linesUntil isNewline buf, IsName (extractLastField line)) →
      (compactSeqLines buf 0 buf.length .last vpnhideIfaceIsVpn).1.take
          (compactSeqLines buf 0 buf.length .last vpnhideIfaceIsVpn).2 =
        (filterIpv6RouteBuf buf).1.take (filterIpv6RouteBuf buf).2 ∧
      filterIfInet6Buf buf = filterIpv6RouteBuf buf) := by
  refine ⟨fun start count field isVpn hstart hcount => ?_, fun h => ?_, fun h => ⟨?_, rfl⟩⟩
  · -- What is before the start stays, and what is after it is filtered line by line.
    obtain ⟨-, hle, -, heq⟩ := @compactSeqLines_eq field isVpn buf start count hstart hcount
    have hlen : (buf.take start).length = start := List.length_take_of_le (hstart.trans hcount)
    refine ⟨?_, hle, ?_⟩
    · have htake := congrArg (List.take start) heq
      rwa [List.take_take, min_eq_left hle, List.take_left' hlen] at htake
    · rw [heq, List.drop_left' hlen, keptLines]
      congr 1
      refine List.filter_congr fun line _ => ?_
      rw [hideLine, Bool.not_and]
      congr 1
      by_cases hnil : ifname field line = []
      · simp [hnil]
      · simp [hnil]
  · -- Both find the same field in a line, and judge a name alike.
    exact take_eq_of_hideLine fun line hline => hideLine_eq (ifaceField_first line) (h line hline)
  · exact take_eq_of_hideLine fun line hline =>
      hideLine_eq (ifaceField_last (h line hline)) (h line hline)

/-- Two routes, the first of them of a VPN. -/
def twoRoutes : Bytes := ascii "tun0\t0A\nwlan0\t0B\n"

/-- One is left by both, also of a part that begins with the other. -/
theorem line_filters_agree_twoRoutes :
    (compactSeqLines twoRoutes 0 twoRoutes.length .first vpnhideIfaceIsVpn).1.take
        (compactSeqLines twoRoutes 0 twoRoutes.length .first vpnhideIfaceIsVpn).2 =
      (filterRouteBuf twoRoutes).1.take (filterRouteBuf twoRoutes).2 ∧
    (filterRouteBuf twoRoutes).1.take (filterRouteBuf twoRoutes).2 = ascii "wlan0\t0B\n" ∧
    ((compactSeqLines twoRoutes 8 16 .first vpnhideIfaceIsVpn).1.take
        (compactSeqLines twoRoutes 8 16 .first vpnhideIfaceIsVpn).2).drop 8 =
          ascii "wlan0\t0B" := by
  have hlines : linesUntil isNewline twoRoutes = [ascii "tun0\t0A\n", ascii "wlan0\t0B\n"] := by
    decide +kernel
  have hpart : linesUntil isNewline ((twoRoutes.take 16).drop 8) = [ascii "wlan0\t0B"] := by
    decide +kernel
  obtain ⟨hcompact, hroutes, -⟩ := line_filters_agree twoRoutes
  have hnames : ∀ line ∈ linesUntil isNewline twoRoutes, IsName (extractFirstField line) := by
    rw [hlines, List.forall_mem_cons, List.forall_mem_singleton]
    exact ⟨⟨by decide, by decide, by decide⟩, ⟨by decide, by decide, by decide⟩⟩
  have hboth := hroutes hnames
  refine ⟨hboth, ?_, ?_⟩
  · rw [← hboth]
    decide +kernel
  · rw [(hcompact 8 16 .first vpnhideIfaceIsVpn (by decide) (by decide)).2.2, hpart]
    decide

end VpnHide.Kmod

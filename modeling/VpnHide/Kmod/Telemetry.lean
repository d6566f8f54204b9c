import VpnHide.Kmod.Serialise
import VpnHide.Protocol.TelemetryRoundTrip

/-!
# Reports of the kernel

`vpnhide_format_status` and `vpnhide_format_stats` of `kmod/shared/vpnhide_logic.h`. They
write what the crate `protocol` writes (`formatStatus_eq_of`, `formatStats_eq_of`), so that
its readers recover a report whichever of the two has written it (`report_agrees`).
-/

namespace VpnHide.Kmod

open Lib Protocol

/-- The inner loop: the cells of `uid`, and the entries after them. -/
def putCells (uid : UInt32) (b : Buf) : List StatEntry → Buf × List StatEntry
  | [] => (b, [])
  | e :: entries =>
    if e.uid = uid then
      let b := (b.putc ' '.toUInt8).putHex e.hookId.toNat
      let b := (b.putc ':'.toUInt8).putHex e.count.toNat
      putCells uid b entries
    else (b, e :: entries)

/-- Cells are taken from the front. -/
theorem length_putCells_le (uid : UInt32) (b : Buf) (entries : List StatEntry) :
    (putCells uid b entries).2.length ≤ entries.length := by
  fun_induction putCells uid b entries with
  | case1 => exact le_rfl
  | case2 b e entries huid b₁ b₂ ih => exact Nat.le_succ_of_le ih
  | case3 => exact le_rfl

theorem length_putCells_lt (b : Buf) (e : StatEntry) (entries : List StatEntry) :
    (putCells e.uid b (e :: entries)).2.length < entries.length + 1 := by
  rw [putCells, if_pos rfl]
  exact Nat.lt_succ_of_le (length_putCells_le _ _ _)

/-- The outer loop: a row for each run of entries with one uid. -/
def putRows (b : Buf) (entries : List StatEntry) : Buf :=
  match entries with
  | [] => b
  | e :: entries =>
    let cells := putCells e.uid (b.putHex e.uid.toNat) (e :: entries)
    putRows (cells.1.putc '\n'.toUInt8) cells.2
termination_by entries.length
decreasing_by exact length_putCells_lt _ _ _

/-- `format_stats`: the reply with all counters. -/
def formatStats (cap : ℕ) (entries : List StatEntry) : Buf :=
  putRows (Buf.putHeader ⟨[], cap, 0⟩ (ascii "stats") telemetryVersion) entries

/-- A record of a status. -/
def putField (b : Buf) (key : Bytes) (value : UInt32) : Buf :=
  ((b.puts key).putHex value.toNat).putc '\n'.toUInt8

/-- `format_status`: the reply with the status. -/
def formatStatus (cap : ℕ) (s : Status) : Buf :=
  let b := Buf.putHeader ⟨[], cap, 0⟩ (ascii "status") telemetryVersion
  let b := putField b (ascii "backend ") s.backend
  let b := putField b (ascii "kver ") s.kver
  let b := putField b (ascii "hooks ") s.hooks
  putField b (ascii "error ") s.error

/-! ## The same bytes -/

variable (cap : ℕ) (l : Bytes)

/-- The inner loop writes the cells of the first run. -/
theorem putCells_of (uid : UInt32) (entries : List StatEntry) :
    putCells uid (Buf.of cap l) entries =
      (Buf.of cap (l ++
        ((sameUid uid entries).1.flatMap fun e => ' '.toUInt8 :: Str.toUtf8 (statCell e))),
        (sameUid uid entries).2) := by
  induction entries generalizing l with
  | nil => simp [putCells, sameUid]
  | cons e entries ih =>
    rw [putCells]
    split_ifs with huid
    · have hcell : Str.toUtf8 (statCell e) =
          Str.toUtf8 (hexText e.hookId.toNat) ++ ':'.toUInt8 ::
            Str.toUtf8 (hexText e.count.toNat) :=
        Str.toUtf8_append _ _
      simp only [Buf.putc_of, Buf.putHex_of, ih, sameUid, huid, beq_self_eq_true,
        List.takeWhile_cons_of_pos, List.dropWhile_cons_of_pos, List.flatMap_cons, hcell,
        toUtf8_hexText, List.append_assoc, List.cons_append]
      rfl
    · simp [sameUid, huid]

/-- All rows are written. -/
theorem putRows_of (entries : List StatEntry) :
    putRows (Buf.of cap l) entries = Buf.of cap (l ++ Str.toUtf8 (statRows entries)) := by
  induction hn : entries.length using Nat.strong_induction_on generalizing entries l with
  | _ n ih =>
    cases entries with
    | nil =>
      rw [putRows, statRows]
      exact congrArg _ (List.append_nil l).symm
    | cons e entries =>
      have hcells : ∀ es : List StatEntry, Str.toUtf8 (es.flatMap fun e => ' ' :: statCell e) =
          es.flatMap fun e => ' '.toUInt8 :: Str.toUtf8 (statCell e) := by
        intro es
        rw [Str.toUtf8, List.flatMap_assoc]
        rfl
      have hnewline : ∀ t : Str, Str.toUtf8 ('\n' :: t) = '\n'.toUInt8 :: Str.toUtf8 t :=
        fun _ => rfl
      have hfirst :
          sameUid e.uid (e :: entries) =
            (e :: (sameUid e.uid entries).1, (sameUid e.uid entries).2) := by
        simp [sameUid]
      have hrest : (sameUid e.uid entries).2.length < n :=
        hn ▸ Nat.lt_succ_of_le (length_sameUid_le e.uid entries)
      rw [putRows, statRows, Buf.putHex_of, putCells_of, hfirst]
      dsimp only
      rw [Buf.putc_of, ih _ hrest _ _ rfl, Str.toUtf8_append, Str.toUtf8_append, hcells,
        hnewline, toUtf8_hexText]
      simp only [List.append_assoc, List.cons_append]
      rfl

/-- The header of a block, as the kernel writes it. -/
theorem putHeader_blockLine {kind : Str} (hkind : Str.IsWord kind) :
    Buf.putHeader ⟨[], cap, 0⟩ (Str.toUtf8 kind) telemetryVersion =
      Buf.of cap (Str.toUtf8 (blockLine kind) ++ ['\n'.toUInt8]) := by
  have hempty : (⟨[], cap, 0⟩ : Buf) = Buf.of cap [] := by
    rw [Buf.of, List.take_nil]
    rfl
  have hline : Str.toUtf8 (blockLine kind) = ascii "vpnhide 1 " ++ Str.toUtf8 kind := by
    rw [(isRecordLine_blockLine hkind).eq, words]
    simp only [List.flatMap_cons, List.flatMap_nil, List.append_nil]
    rfl
  rw [hempty, Buf.putHeader_of, hline]
  rfl

/-- The kernel writes the counters as the crate does. -/
theorem formatStats_eq_of (entries : List StatEntry) :
    formatStats cap entries = Buf.of cap (Str.toUtf8 (Protocol.formatStats entries)) := by
  have hkind : ascii "stats" = Str.toUtf8 statsWord := by decide
  rw [formatStats, hkind, putHeader_blockLine cap (by decide), putRows_of, Protocol.formatStats,
    telemetryHeader_stats, Str.toUtf8_append, List.append_assoc]
  rfl

theorem putField_of {key : Bytes} {f : Str × UInt32}
    (hkey : key = Str.toUtf8 f.1 ++ [' '.toUInt8]) :
    putField (Buf.of cap l) key f.2 =
      Buf.of cap (l ++ (Str.toUtf8 (fieldLine f) ++ ['\n'.toUInt8])) := by
  have hline :
      Str.toUtf8 (fieldLine f) = Str.toUtf8 f.1 ++ ' '.toUInt8 ::
        Str.toUtf8 (hexText f.2.toNat) := by
    rw [fieldLine, toUtf8_words, words]
    simp
  rw [putField, Buf.puts_of, Buf.putHex_of, Buf.putc_of, hkey, hline, toUtf8_hexText]
  simp only [List.append_assoc, List.cons_append, List.nil_append]
  rfl

/-- The kernel writes the status as the crate does. -/
theorem formatStatus_eq_of (s : Status) :
    formatStatus cap s = Buf.of cap (Str.toUtf8 (Protocol.formatStatus s)) := by
  have hkind : ascii "status" = Str.toUtf8 statusWord := by decide
  have hfield :
      ∀ (key : Bytes) (l : Bytes) (f : Str × UInt32), key = Str.toUtf8 f.1 ++ [' '.toUInt8] →
      putField (Buf.of cap l) key f.2 =
        Buf.of cap (l ++ (Str.toUtf8 (fieldLine f) ++ ['\n'.toUInt8])) :=
    fun _ l _ hkey => putField_of cap l hkey
  rw [formatStatus, hkind, putHeader_blockLine cap (by decide),
    hfield (ascii "backend ") _ (['b', 'a', 'c', 'k', 'e', 'n', 'd'], s.backend)
      (by dsimp only; decide),
    hfield (ascii "kver ") _ (['k', 'v', 'e', 'r'], s.kver) (by dsimp only; decide),
    hfield (ascii "hooks ") _ (['h', 'o', 'o', 'k', 's'], s.hooks) (by dsimp only; decide),
    hfield (ascii "error ") _ (['e', 'r', 'r', 'o', 'r'], s.error) (by dsimp only; decide),
    Protocol.formatStatus_eq, toUtf8_unlines, statusLines_eq, statusFields]
  simp [unlines]

/-! ## Reports -/

/-- A report, whoever writes it, is read back by all readers: the status from its block if
    the report is not too long to be cut, the counters also by the strict reader if they are
    nonzero, of distinct cells and not too many. -/
theorem report_agrees (banner : Str) (s : Status) (entries : List StatEntry)
    (hbanner : IsComment banner) :
    (∀ cap, (Str.toUtf8 (Protocol.formatStatus s)).length ≤ cap →
      formatStatus cap s = ⟨Str.toUtf8 (Protocol.formatStatus s), cap,
        (Str.toUtf8 (Protocol.formatStatus s)).length⟩) ∧
    (∀ cap, (Str.toUtf8 (Protocol.formatStats entries)).length ≤ cap →
      formatStats cap entries =
        ⟨Str.toUtf8 (Protocol.formatStats entries), cap,
          (Str.toUtf8 (Protocol.formatStats entries)).length⟩) ∧
    ((Str.toUtf8 (report banner s entries)).length ≤ maxTelemetryBytes →
      ((extractBlock (report banner s entries) .status).bind fun block =>
        parseStatusFields (Str.toUtf8 block)) =
        some ⟨some s.backend, some s.kver, some s.hooks, some s.error⟩) ∧
    ((∀ e ∈ entries, e.count ≠ 0) → (entries.map fun e => (e.uid, e.hookId)).Nodup →
      entries.length ≤ maxStatsCells →
      (Str.toUtf8 (report banner s entries)).length ≤ maxTelemetryBytes →
      parseStats (Str.toUtf8 (report banner s entries)) = some entries ∧
      ((extractBlock (report banner s entries) .stats).bind fun block =>
        displayStats (Str.toUtf8 block)) =
        some entries) := by
  refine ⟨fun cap hcap => ?_, fun cap hcap => ?_, fun hlen => ?_,
    fun hcount hnodup hcells hlen => ⟨?_, ?_⟩⟩
  · rw [formatStatus_eq_of, Buf.of, List.take_of_length_le hcap]
  · rw [formatStats_eq_of, Buf.of, List.take_of_length_le hcap]
  · rw [extractBlock_status hbanner hlen, Option.bind_some, parseStatusFields_joined]
  · exact parseStats_report hbanner hcount hnodup hcells hlen
  · -- The block of the counters is a part of the report, and so short enough to be read.
    have hpart : (Str.toUtf8 (Protocol.formatStats entries)).length ≤ maxTelemetryBytes := by
      refine le_trans ?_ hlen
      have hsuffix : Protocol.formatStats entries <:+ report banner s entries :=
        ⟨banner ++ '\n' :: Protocol.formatStatus s, by simp [report]⟩
      obtain ⟨before, h⟩ := hsuffix
      rw [← h, Str.toUtf8_append, List.length_append]
      exact Nat.le_add_left _ _
    rw [extractBlock_stats hbanner hlen, Option.bind_some, displayStats_formatStats hpart]

/-- The counters of two uids, after a comment. -/
theorem report_agrees_two :
    parseStats (Str.toUtf8
      (report ['#'] ⟨1, 2, 3, 0⟩ [⟨10001, 1, 5⟩, ⟨10001, 2, 1⟩, ⟨10002, 1, 7⟩])) =
      some [⟨10001, 1, 5⟩, ⟨10001, 2, 1⟩, ⟨10002, 1, 7⟩] := by
  have hfirst : (sameUid 10001 [⟨10001, 2, 1⟩, ⟨10002, 1, 7⟩]).2 = [⟨10002, 1, 7⟩] := by decide
  have hlast : (sameUid 10002 []).2 = [] := by decide
  have hlen : (Str.toUtf8
      (report ['#'] ⟨1, 2, 3, 0⟩ [⟨10001, 1, 5⟩, ⟨10001, 2, 1⟩, ⟨10002, 1, 7⟩])).length ≤
      maxTelemetryBytes := by
    rw [report, Protocol.formatStats, statRows, hfirst, statRows, hlast, statRows]
    decide +kernel
  exact ((report_agrees ['#'] ⟨1, 2, 3, 0⟩ [⟨10001, 1, 5⟩, ⟨10001, 2, 1⟩, ⟨10002, 1, 7⟩]
    ⟨by decide, [], [], by decide, by decide⟩).2.2.2 (by decide) (by decide) (by decide) hlen).1

/-- A comment of more than a mebibyte hides the status: no block is cut out of such a report. -/
theorem extractBlock_long_comment :
    IsComment ('#' :: List.replicate 1048576 'a') ∧
      extractBlock (report ('#' :: List.replicate 1048576 'a') ⟨0, 0, 0, 0⟩ []) .status = none := by
  have hnewline : '\n' ∉ '#' :: List.replicate 1048576 'a' := by
    rw [List.mem_cons, List.mem_replicate]
    rintro (h | h)
    · exact absurd h (by decide)
    · exact absurd h.2 (by decide)
  have hlong :
      maxTelemetryBytes <
        (Str.toUtf8 (report ('#' :: List.replicate 1048576 'a') ⟨0, 0, 0, 0⟩ [])).length := by
    have hascii : Str.toUtf8 ('#' :: List.replicate 1048576 'a') =
        ('#' :: List.replicate 1048576 'a').map Char.toUInt8 := by
      refine Str.toUtf8_eq_map fun c hc => ?_
      rcases List.mem_cons.1 hc with rfl | hc
      · decide
      · rw [(List.mem_replicate.1 hc).2]
        decide
    rw [report, Str.toUtf8_append, hascii, List.length_append, List.length_map, List.length_cons,
      List.length_replicate, maxTelemetryBytes]
    omega
  refine ⟨⟨hnewline, [], _, by simp, rfl⟩, ?_⟩
  rw [extractBlock, if_pos hlong]

end VpnHide.Kmod

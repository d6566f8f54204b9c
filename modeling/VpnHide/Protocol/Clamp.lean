import VpnHide.Protocol.TelemetryRoundTrip
import VpnHide.Protocol.Truncation

/-!
# Clamped telemetry

A reply has room for so many bytes. A snapshot that does not fit is cut at the end of a line,
without its newline (`vpnhide_clamp_to_line` of `kmod/shared/vpnhide_logic.h`, `clamp_to_line` of
`crates/protocol/src/lib.rs`): a reader sees from the missing newline that there is more.

What is left is the longest run of complete lines that has room (`clampToLine_spec`). Of some
counters, these are the header and the first rows, each as it was written, whether or not its
newline is there (`initialGroups_of_completeLines`).
-/

namespace VpnHide.Protocol

open Lib

/-! ## The cut -/

/-- The loop over `p`. A byte that is not in the buffer is not read. -/
def lineEnd (buf : Bytes) : ℕ → Option ℕ
  | 0 => some 0
  | p + 1 => do
    let b ← buf[p]?
    if b ≠ '\n'.toUInt8 then lineEnd buf p else some (p + 1)

/-- The length of the snapshot may be more than what has been written of it. -/
def vpnhideClampToLine (buf : Bytes) (fullLen outlen : ℕ) : Option ℕ :=
  if fullLen ≤ outlen then some fullLen
  else do
    let p ← lineEnd buf outlen
    return if p ≠ 0 then p - 1 else 0

/-- `clamp_to_line`: the last line that is whole, or nothing. -/
def clampToLine (buf : Bytes) (outlen : ℕ) : Option ℕ :=
  if buf.length ≤ outlen then some buf.length
  else do
    let p ← lineEnd buf outlen
    return if 0 < p then p - 1 else 0

/-- Complete lines end with a newline. -/
def CompleteLines (run : Bytes) : Prop := run = [] ∨ run.getLast? = some '\n'.toUInt8

/-- The longest run of complete lines at the start of a buffer that has room in `outlen` bytes. -/
structure LongestRun (buf : Bytes) (outlen : ℕ) (run : Bytes) : Prop where
  isPrefix : run <+: buf
  complete : CompleteLines run
  length_le : run.length ≤ outlen
  longest : ∀ other, other <+: buf → CompleteLines other → other.length ≤ outlen → other <+: run

variable {buf run : Bytes} {outlen n : ℕ}

/-- The loop ends at the end of the longest run. -/
theorem lineEnd_spec {p : ℕ} (hp : p ≤ buf.length) :
    ∃ n, lineEnd buf p = some n ∧ n ≤ p ∧ LongestRun buf p (buf.take n) := by
  induction p with
  | zero =>
    refine ⟨0, rfl, le_rfl, List.nil_prefix, .inl List.take_zero, Nat.zero_le _,
      fun other _ _ hlen => ?_⟩
    rw [List.eq_nil_of_length_eq_zero (Nat.le_zero.1 hlen)]
    exact List.nil_prefix
  | succ p ih =>
    have hget : buf[p]? = some buf[p] := List.getElem?_eq_getElem hp
    have hlast : (buf.take (p + 1)).getLast? = some buf[p] := by
      rw [List.take_succ_eq_append_getElem hp, List.getLast?_concat]
    rw [lineEnd, hget, Option.bind_eq_bind, Option.bind_some]
    by_cases hb : buf[p] = '\n'.toUInt8
    · rw [if_neg (not_not.2 hb)]
      refine ⟨p + 1, rfl, le_rfl, List.take_prefix _ _,
        .inr (hlast.trans (congrArg some hb)), ?_, ?_⟩
      · rw [List.length_take]
        exact Nat.min_le_left _ _
      · intro other hother _ hlen
        rw [List.prefix_iff_eq_take.1 hother]
        exact List.take_prefix_take_left hlen
    · rw [if_pos hb]
      obtain ⟨n, hn, hle, hrun⟩ := ih (Nat.le_of_succ_le hp)
      refine ⟨n, hn, Nat.le_succ_of_le hle, hrun.isPrefix, hrun.complete,
        Nat.le_succ_of_le hrun.length_le, ?_⟩
      intro other hother hcomplete hlen
      obtain hlt | heq := Nat.lt_or_eq_of_le hlen
      · exact hrun.longest other hother hcomplete (Nat.le_of_lt_succ hlt)
      -- It would end with the byte that is no newline.
      · rw [List.prefix_iff_eq_take.1 hother, heq] at hcomplete
        obtain hnil | hnewline := hcomplete
        · rw [hnil] at hlast
          cases hlast
        · rw [hlast] at hnewline
          exact absurd (Option.some.inj hnewline) hb

/-- What both return: the length of the buffer, or that of the longest run without its newline. -/
structure Clamped (buf : Bytes) (outlen n : ℕ) : Prop where
  le : n ≤ outlen
  fits : buf.length ≤ outlen → n = buf.length
  cut : outlen < buf.length → ∃ run, LongestRun buf outlen run ∧ n = run.length - 1 ∧
    buf.take n = run.dropLast

theorem clampToLine_spec (buf : Bytes) (outlen : ℕ) :
    ∃ n, vpnhideClampToLine buf buf.length outlen = some n ∧ clampToLine buf outlen = some n ∧
      Clamped buf outlen n := by
  rw [vpnhideClampToLine, clampToLine]
  by_cases hfits : buf.length ≤ outlen
  · rw [if_pos hfits, if_pos hfits]
    exact ⟨_, rfl, rfl, hfits, fun _ => rfl, fun hlt => absurd hfits (Nat.not_le.2 hlt)⟩
  rw [if_neg hfits, if_neg hfits]
  have hlt := Nat.not_le.1 hfits
  obtain ⟨n, hn, hle, hrun⟩ := lineEnd_spec hlt.le
  have hlen : (buf.take n).length = n := by
    rw [List.length_take]
    exact Nat.min_eq_left (hle.trans hlt.le)
  have hcut : buf.take (n - 1) = (buf.take n).dropLast := by
    rw [List.dropLast_eq_take, hlen, List.take_take, Nat.min_eq_left (Nat.sub_le n 1)]
  have hpred : ∀ {c : Prop} [Decidable c], (¬c → n = 0) → (if c then n - 1 else 0) = n - 1 := by
    intro c _ hc
    split_ifs with h
    · rfl
    · rw [hc h]
  rw [hn]
  change ∃ m, some (if n ≠ 0 then n - 1 else 0) = some m ∧
      some (if 0 < n then n - 1 else 0) = some m ∧ _
  rw [hpred fun h => not_not.1 h, hpred fun h => Nat.eq_zero_of_not_pos h]
  exact ⟨n - 1, rfl, rfl, (Nat.sub_le n 1).trans hle, fun h => absurd h hfits, fun _ =>
    ⟨_, hrun, by rw [hlen], hcut⟩⟩

/-! ## Lines that are left -/

/-- A run of complete lines, cut out of some lines, is the first of these. -/
theorem exists_take_of_completeLines {ls : List Bytes} (hls : ∀ l ∈ ls, '\n'.toUInt8 ∉ l)
    (hrun : run <+: unlines ls) (hcomplete : CompleteLines run) :
    ∃ k, run = unlines (ls.take k) := by
  induction ls generalizing run with
  | nil => exact ⟨0, List.prefix_nil.1 hrun⟩
  | cons l ls ih =>
    obtain ⟨hl, hls⟩ := List.forall_mem_cons.1 hls
    have hcut : run <+: l → run = [] := fun hpre => hcomplete.resolve_right fun hlast =>
      hl (hpre.subset (List.mem_of_getLast? hlast))
    rw [unlines_cons] at hrun
    -- Cut in the first line, before its newline, or behind it.
    obtain hpre | ⟨q, rfl, hq⟩ := prefix_append_cases hrun
    · exact ⟨0, hcut hpre⟩
    obtain rfl | ⟨rest, rfl, hrest⟩ := List.prefix_cons_iff.1 hq
    · exact ⟨0, hcut (by rw [List.append_nil])⟩
    obtain ⟨k, rfl⟩ := ih hls hrest <| by
      refine or_iff_not_imp_left.2 fun hne => ?_
      have hlast :=
        hcomplete.resolve_left (List.append_ne_nil_of_right_ne_nil l (List.cons_ne_nil _ rest))
      rwa [List.getLast?_append_of_ne_nil l (List.cons_ne_nil _ rest),
        List.getLast?_cons_of_ne_nil hne] at hlast
    exact ⟨k + 1, (unlines_cons l (ls.take k)).symm⟩

/-- Each uid has one row. -/
def Grouped (entries : List StatEntry) : Prop := ((runs entries).map Prod.fst).Nodup

/-- The counters of the first groups. -/
structure InitialGroups (entries shown : List StatEntry) : Prop where
  groups : ∃ k, shown = ((runs entries).take k).flatMap (·.2)
  isPrefix : shown <+: entries
  uncut : Grouped entries → ∀ rest, entries = shown ++ rest →
    ∀ e ∈ shown, ∀ other ∈ rest, e.uid ≠ other.uid

theorem initialGroups_take (entries : List StatEntry) (k : ℕ) :
    InitialGroups entries (((runs entries).take k).flatMap (·.2)) := by
  have hsplit :
      entries = ((runs entries).take k).flatMap (·.2) ++ ((runs entries).drop k).flatMap (·.2) := by
    rw [← List.flatMap_append, List.take_append_drop, flatMap_runs]
  refine ⟨⟨k, rfl⟩, ⟨_, hsplit.symm⟩, fun hgrouped rest hrest e he other hother => ?_⟩
  rw [← List.append_cancel_left (hsplit.symm.trans hrest)] at hother
  obtain ⟨r, hr, her⟩ := List.mem_flatMap.1 he
  obtain ⟨q, hq, hotherq⟩ := List.mem_flatMap.1 hother
  rw [(mem_runs (List.mem_of_mem_take hr)).2 e her,
    (mem_runs (List.mem_of_mem_drop hq)).2 other hotherq]
  rw [Grouped, ← List.take_append_drop k (runs entries), List.map_append] at hgrouped
  exact (List.nodup_append.1 hgrouped).2.2 r.1 (List.mem_map_of_mem hr) q.1 (List.mem_map_of_mem hq)

/-- The rows of a text that ends with the last of them are read, without its newline as well. -/
theorem displayStats_dropLast {rs : List (UInt32 × List StatEntry)}
    (hrs : ∀ r ∈ rs, ∀ e ∈ r.2, e.uid = r.1)
    (hlen : (unlines ((blockLine statsWord :: rs.map rowLine).map Str.toUtf8)).dropLast.length ≤
      maxTelemetryBytes) :
    displayStats (unlines ((blockLine statsWord :: rs.map rowLine).map Str.toUtf8)).dropLast =
      some (rs.flatMap (·.2)) := by
  have hheader := (isRecordLine_blockLine (by decide : Str.IsWord statsWord))
  rw [List.map_cons, unlines_cons] at hlen ⊢
  obtain rfl | ⟨init, r, rfl⟩ := List.eq_nil_or_concat' rs
  · -- Only the header is left.
    have hline :
        (Str.toUtf8 (blockLine statsWord) ++ '\n'.toUInt8 :: unlines ([].map Str.toUtf8)).dropLast =
        Str.toUtf8 (blockLine statsWord) := List.dropLast_concat
    have hne : Str.toUtf8 (blockLine statsWord) ≠ [] := by decide
    rw [List.map_nil, hline] at hlen ⊢
    exact displayStats_of_lines hrs hlen
      (parseHeader_of_nextLine (by decide) headerKind_statsLine hne
        (nextLine_eq hheader.isLineByte)) lines_nil
  · obtain ⟨w, ws, hrow⟩ := @exists_isRecordLine_of_mem [r] _ (List.mem_singleton_self (rowLine r))
    have hne : Str.toUtf8 (rowLine r) ≠ [] := by
      rw [hrow.eq, words]
      exact List.append_ne_nil_of_left_ne_nil hrow.first.1 _
    have hcut : (Str.toUtf8 (blockLine statsWord) ++
          '\n'.toUInt8 :: unlines (((init ++ [r]).map rowLine).map Str.toUtf8)).dropLast =
        Str.toUtf8 (blockLine statsWord) ++
          '\n'.toUInt8 ::
            (unlines ((init.map rowLine).map Str.toUtf8) ++ Str.toUtf8 (rowLine r)) := by
      have hlast :
          unlines (([r].map rowLine).map Str.toUtf8) = Str.toUtf8 (rowLine r) ++ ['\n'.toUInt8] :=
        List.flatMap_singleton _ _
      rw [List.map_append, List.map_append, unlines_append, hlast, ← List.append_assoc,
        ← List.cons_append, ← List.append_assoc, List.dropLast_concat]
    rw [hcut] at hlen ⊢
    refine displayStats_of_lines hrs hlen (parseHeader_blockLine (by decide) headerKind_statsLine _)
      ?_
    rw [lines_unlines_append isLineByte_of_mem_rows, lines_eq_singleton hrow.isLineByte hne,
      List.map_append, List.map_append]
    rfl

/-- What is shown of a run of complete lines without its last newline are the first groups. -/
theorem initialGroups_of_completeLines {entries shown : List StatEntry}
    (hrun : run <+: Str.toUtf8 (formatStats entries)) (hcomplete : CompleteLines run)
    (hshown : displayStats run.dropLast = some shown) : InitialGroups entries shown := by
  rw [formatStats_eq, statsLines, toUtf8_unlines] at hrun
  have hnewline : ∀ l ∈ (blockLine statsWord :: (runs entries).map rowLine).map Str.toUtf8,
      '\n'.toUInt8 ∉ l := by
    intro l hl hmem
    rw [List.map_cons, List.mem_cons] at hl
    have hbyte : ∀ c ∈ l, IsLineByte c := by
      obtain rfl | hl := hl
      · exact (isRecordLine_blockLine (by decide)).isLineByte
      · exact isLineByte_of_mem_rows l hl
    exact (hbyte _ hmem).ne_newline rfl
  obtain ⟨k, rfl⟩ := exists_take_of_completeLines hnewline hrun hcomplete
  cases k with
  | zero =>
    -- The header is cut.
    have hnone : displayStats (unlines ([] : List Bytes)).dropLast = none := by
      rw [displayStats, if_neg (by decide)]
      change parseHeader [] >>= _ = none
      rw [parseHeader, if_pos rfl]
      rfl
    rw [List.take_zero, hnone] at hshown
    cases hshown
  | succ k =>
    rw [List.map_cons, List.take_succ_cons, ← List.map_take, ← List.map_take, ← List.map_cons]
      at hshown
    have hlen : (unlines ((blockLine statsWord :: ((runs entries).take k).map rowLine).map
        Str.toUtf8)).dropLast.length ≤
        maxTelemetryBytes := by
      by_contra hlong
      rw [displayStats, if_pos (Nat.not_le.1 hlong)] at hshown
      cases hshown
    rw [displayStats_dropLast (fun r hr => (mem_runs (List.mem_of_mem_take hr)).2) hlen] at hshown
    obtain rfl := Option.some.inj hshown
    exact initialGroups_take entries k

/-- A snapshot that is clamped has the same length on both sides; and of the counters in it, none
    is shown, or those of the first groups are. -/
theorem clamped_telemetry :
    (∀ buf outlen, ∃ n, vpnhideClampToLine buf buf.length outlen = some n ∧
      clampToLine buf outlen = some n ∧ Clamped buf outlen n) ∧
    ∀ entries outlen, ∃ n, clampToLine (Str.toUtf8 (formatStats entries)) outlen = some n ∧
      ∀ shown ∈ displayStats ((Str.toUtf8 (formatStats entries)).take n),
        InitialGroups entries shown := by
  refine ⟨clampToLine_spec, fun entries outlen => ?_⟩
  obtain ⟨n, -, hn, hclamped⟩ := clampToLine_spec (Str.toUtf8 (formatStats entries)) outlen
  refine ⟨n, hn, fun shown hshown => ?_⟩
  rw [Option.mem_def] at hshown
  by_cases hfits : (Str.toUtf8 (formatStats entries)).length ≤ outlen
  · -- What fits is shown whole, if it is not too long for the reader,
    rw [hclamped.fits hfits, List.take_length] at hshown
    have hlen : (Str.toUtf8 (formatStats entries)).length ≤ maxTelemetryBytes := by
      by_contra hlong
      rw [displayStats, if_pos (Nat.not_le.1 hlong)] at hshown
      cases hshown
    rw [displayStats_formatStats hlen] at hshown
    obtain rfl := Option.some.inj hshown
    have hall := initialGroups_take entries (runs entries).length
    rwa [List.take_length, flatMap_runs] at hall
  · -- and otherwise the longest run of lines that fits, which is some groups from the first on.
    obtain ⟨run, hrun, -, hcut⟩ := hclamped.cut (Nat.not_le.1 hfits)
    rw [hcut] at hshown
    exact initialGroups_of_completeLines hrun.isPrefix hrun.complete hshown

end VpnHide.Protocol

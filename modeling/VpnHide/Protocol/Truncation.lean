import Mathlib.Data.List.Infix
import VpnHide.Protocol.RoundTrip

/-!
# Truncated snapshots

The `end` record is a fuse: a snapshot without it is rejected, and so is one whose
count is not that of its uids. So is, then, a snapshot cut short:

* cut before its `end` record, none of its lines is one: a line is cut from a line
  of the snapshot, and its first token from the first token of that line
  (`exists_end_of_parseConfig`, `exists_prefix_of_mem_lines`);
* cut in its `end` record, the count is missing or another number
  (`count?_readLine_of_prefix`);
* only the last newline can be missing (`parseConfig_of_prefix`).
-/

namespace VpnHide.Protocol

open Lib

/-- A prefix of two texts one after the other is cut in the first or in the second. -/
theorem prefix_append_cases {α : Type*} {p a b : List α} (h : p <+: a ++ b) :
    p <+: a ∨ ∃ q, p = a ++ q ∧ q <+: b := by
  rcases List.prefix_or_prefix_of_prefix h (List.prefix_append a b) with hp | ⟨q, rfl⟩
  · exact .inl hp
  · exact .inr ⟨q, rfl, (List.prefix_append_right_inj a).1 h⟩

/-! ## The fuse -/

/-- A count is read from a line whose first token is `end`. -/
theorem head?_tokens_of_count {l : Bytes} {n : ℕ} (h : readLine l = .count n) :
    (tokens l).head? = some (ascii "end") := by
  rw [readLine] at h
  cases hs : significant l with
  | none => simp [hs] at h
  | some content =>
    have hc : tokens content = tokens l := by
      rw [significant] at hs
      split_ifs at hs
      cases hd : l.dropWhile isSep with
      | nil => simp [hd] at hs
      | cons c rest =>
        simp only [hd] at hs
        split_ifs at hs
        rw [← Option.some.inj hs, ← hd, tokens, fields_dropWhile, tokens]
    rw [hs, Option.elim_some, hc] at h
    cases ht : tokens l with
    | nil => simp [ht, readTokens] at h
    | cons keyword it =>
      rw [ht, readTokens] at h
      split_ifs at h with _ _ _ _ _ hend
      · cases hm : it.head?.bind (parseHexBare · 32) <;> simp [hm] at h
      · cases hm : it.head?.bind (parseHexBare · 32) with
        | none => simp [hm] at h
        | some mask =>
          cases hu : it.tail.mapM (parseHexBare · 32) <;> simp [hm, hu] at h
      · rw [hend, List.head?_cons]

/-- The lines after the header are lines of the payload. -/
theorem lines_subset_of_parseHeader {buf rest : Bytes} {kind : Kind}
    (h : parseHeader buf = some (kind, rest)) : lines rest ⊆ lines buf := by
  fun_induction parseHeader buf with
  | case1 => cases h
  | case2 buf hne hi ih =>
    rw [lines.eq_def buf, if_neg hne]
    exact List.Subset.trans (ih h) (List.subset_cons_self _ _)
  | case3 buf hne hi =>
    obtain ⟨content, _, h⟩ := Option.bind_eq_some_iff.1 h
    obtain ⟨k, _, h⟩ := Option.bind_eq_some_iff.1 h
    obtain ⟨_, rfl⟩ := Prod.mk.inj (Option.some.inj h)
    rw [lines.eq_def buf, if_neg hne]
    exact List.subset_cons_self _ _

/-- An accepted snapshot has an `end` record. -/
theorem exists_end_of_parseConfig {buf : Bytes} {cfg : Config} (h : parseConfig buf = some cfg) :
    ∃ l ∈ lines buf, (tokens l).head? = some (ascii "end") := by
  obtain ⟨rest, hrest, hacc, _⟩ := parseConfig_eq_some_iff.1 h
  obtain ⟨r, hr, hn⟩ := List.mem_filterMap.1 (List.mem_of_getLast? hacc.counted)
  obtain ⟨l, hl, rfl⟩ := List.mem_map.1 hr
  refine ⟨l, lines_subset_of_parseHeader hrest hl, ?_⟩
  cases hrl : readLine l with
  | count n => exact head?_tokens_of_count hrl
  | _ => simp [hrl, Record.count?] at hn

/-! ## Cutting lines -/

/-- A line of a text cut short is cut from a line of the text. -/
theorem exists_prefix_of_mem_lines {ls : List Bytes} (hls : ∀ l ∈ ls, ∀ c ∈ l, IsLineByte c)
    {p : Bytes} (hp : p <+: unlines ls) {l : Bytes} (hl : l ∈ lines p) : ∃ m ∈ ls, l <+: m := by
  induction ls generalizing p with
  | nil =>
    obtain rfl := List.prefix_nil.1 hp
    simp at hl
  | cons m ls ih =>
    have hm := hls m List.mem_cons_self
    rw [unlines_cons] at hp
    -- Cut in the first line, at its end, or in a later line.
    rcases prefix_append_cases hp with hp | ⟨q, rfl, hq⟩
    · have hpb : ∀ c ∈ p, IsLineByte c := fun c hc => hm c (hp.subset hc)
      rcases List.eq_nil_or_concat' p with rfl | ⟨_, _, hne⟩
      · simp at hl
      · rw [lines_eq_singleton hpb (by simp [hne])] at hl
        exact ⟨m, List.mem_cons_self, List.mem_singleton.1 hl ▸ hp⟩
    · rcases List.prefix_cons_iff.1 hq with rfl | ⟨q, rfl, hq'⟩
      · rw [List.append_nil] at hl
        rcases m.eq_nil_or_concat' with rfl | ⟨_, _, hne⟩
        · simp at hl
        · rw [lines_eq_singleton hm (by simp [hne])] at hl
          exact ⟨m, List.mem_cons_self, List.mem_singleton.1 hl ▸ List.prefix_rfl⟩
      · rw [lines_cons hm, List.mem_cons] at hl
        rcases hl with rfl | hl
        · exact ⟨l, List.mem_cons_self, List.prefix_rfl⟩
        · obtain ⟨m', hm', h⟩ := ih (fun l hl => hls l (List.mem_cons_of_mem _ hl)) hq' hl
          exact ⟨m', List.mem_cons_of_mem _ hm', h⟩

/-- Cut before its `end` record, a snapshot is rejected. -/
theorem parseConfig_eq_none_of_prefix {debug : Bool} {defaultMask : UInt32} {targets : List Target}
    {p : Bytes} (hp : p <+: unlines (headerLine :: bodyLines debug defaultMask targets)) :
    parseConfig p = none := by
  refine Option.eq_none_iff_forall_ne_some.2 fun cfg h => ?_
  obtain ⟨l, hl, hend⟩ := exists_end_of_parseConfig h
  have hls : ∀ m ∈ headerLine :: bodyLines debug defaultMask targets, ∃ w ws, IsRecordLine m w ws ∧
      ¬ascii "end" <+: w := by
    intro m hm
    rcases List.mem_cons.1 hm with rfl | hm
    · exact ⟨_, _, isRecordLine_header, by decide⟩
    · obtain ⟨w, ws, h, rfl | rfl | rfl⟩ := isRecordLine_of_mem_bodyLines hm
      exacts [⟨_, ws, h, by decide⟩, ⟨_, ws, h, by decide⟩, ⟨_, ws, h, by decide⟩]
  obtain ⟨m, hm, hlm⟩ := exists_prefix_of_mem_lines
    (fun m hm => let ⟨_, _, h, _⟩ := hls m hm; h.isLineByte) hp hl
  obtain ⟨w, ws, hw, hnot⟩ := hls m hm
  -- Its first word is cut from one of these, none of which begins with `end`.
  obtain ⟨u, hu, hpre⟩ := head?_fields_of_prefix hlm hend
  rw [← tokens, hw.tokens, List.head?_cons] at hu
  exact hnot (Option.some.inj hu ▸ hpre)

/-- Cut before its end, the `end` record has another count, or none. -/
theorem count?_readLine_of_prefix {n : ℕ} {q : Bytes} (hq : q <+: endLine n) (hne : q ≠ endLine n) :
    (readLine q).count? ≠ some n := by
  have he : endLine n = ascii "end " ++ hex n := by
    rw [endLine, words, show ascii "end " = ascii "end" ++ [' '.toUInt8] by decide]
    simp
  rw [he] at hq hne
  rcases prefix_append_cases hq with hq | ⟨d, rfl, hd⟩
  · have : ∀ q ∈ (ascii "end ").inits, (readLine q).count? = none := by decide
    rw [this q ((List.mem_inits _ _).2 hq)]
    exact Option.some_ne_none n |>.symm
  · obtain ⟨e, hde⟩ := hd
    have he : e ≠ [] := by
      rintro rfl
      exact hne (by rw [← hde, List.append_nil])
    by_cases hd0 : d = []
    · subst hd0
      have : (readLine (ascii "end " ++ [])).count? = none := by decide
      rw [this]
      exact Option.some_ne_none n |>.symm
    · have htok : IsToken d :=
        ⟨hd0, fun c hc => (isToken_hex n).2 c (hde ▸ List.mem_append_left e hc)⟩
      have hline : IsRecordLine (ascii "end " ++ d) (ascii "end") [d] :=
        ⟨by rw [words, show ascii "end " = ascii "end" ++ [' '.toUInt8] by decide]; simp,
          by decide, by simpa using htok, by decide⟩
      rw [hline.readLine, readTokens, if_neg (by decide), if_neg (by decide), if_neg (by decide),
        if_pos rfl, List.head?_cons, Option.bind_some]
      cases hp : parseHexBare d 32 with
      | none => exact Option.some_ne_none n |>.symm
      | some k =>
        rw [parseHexBare, if_neg hd0] at hp
        obtain ⟨ds, hds, hv, _⟩ := foldlM_pushDigit_eq_some (by decide)
          (fun _ _ h => hexDigit_le h 32) (Nat.zero_le _) hp
        -- A numeral that lacks its last digits is another number.
        have hkn := numeral_ne_of_append (by decide) hexDigit_digitChar hde hd0 he hds
        rw [hv] at hkn
        simpa [Record.count?] using hkn

/-- So a snapshot cut in its `end` record is not accepted. -/
theorem not_accepted_of_prefix {debug : Bool} {defaultMask : UInt32} {targets : List Target}
    {q : Bytes} (hq : q <+: endLine (groups targets).length)
    (hne : q ≠ endLine (groups targets).length) :
    ¬Accepted (bodyRecords debug defaultMask targets ++ records q) := by
  intro hacc
  have hqb : ∀ c ∈ q, IsLineByte c := fun c hc => (isRecordLine_end _).isLineByte c (hq.subset hc)
  have hbody : ∀ r ∈ bodyRecords debug defaultMask targets, r.count? = none := by
    intro r hr
    rw [bodyRecords, List.mem_append, List.mem_cons] at hr
    rcases hr with (rfl | hr) | hr
    · rfl
    · split_ifs at hr
      · obtain rfl := List.mem_singleton.1 hr
        rfl
      · cases hr
    · obtain ⟨mask, _, rfl⟩ := List.mem_map.1 hr
      rfl
  obtain ⟨r, hr, hn⟩ := List.mem_filterMap.1 (List.mem_of_getLast? hacc.counted)
  rcases List.mem_append.1 hr with hr | hr
  · rw [hbody r hr] at hn
    cases hn
  -- The record with the count is the only line of `q`, and assigns nothing.
  have hq0 : q ≠ [] := by
    rintro rfl
    simp [records] at hr
  have hrec : records q = [readLine q] := by
    rw [records, lines_eq_singleton hqb hq0, List.map_singleton]
  rw [hrec, List.mem_singleton] at hr
  subst hr
  have ha : assignments (bodyRecords debug defaultMask targets ++ records q) = groups targets := by
    have h0 : (readLine q).assignments = [] := by
      cases hrl : readLine q with
      | targets mask uids => simp [hrl, Record.count?] at hn
      | _ => rfl
    rw [hrec, assignments, List.flatMap_append, ← assignments, assignments_bodyRecords]
    simp [h0]
  rw [ha] at hn
  exact count?_readLine_of_prefix hq hne hn

/-- Every strict prefix of a written snapshot is rejected or read as the whole. -/
theorem parseConfig_of_prefix (debug : Bool) (defaultMask : UInt32) (targets : List Target)
    (p : Bytes) (hp : p <+: formatConfig debug defaultMask targets)
    (hne : p ≠ formatConfig debug defaultMask targets) :
    parseConfig p = none ∨
      parseConfig p = parseConfig (formatConfig debug defaultMask targets) := by
  set body := bodyLines debug defaultMask targets
  set n := (groups targets).length
  have hw : formatConfig debug defaultMask targets =
      unlines (headerLine :: body) ++ (endLine n ++ ['\n'.toUInt8]) := by
    rw [formatConfig_eq, unlines_cons, List.append_assoc, List.cons_append]
  have hrest : ∀ q, unlines (headerLine :: body) ++ q =
      headerLine ++ '\n'.toUInt8 :: (unlines body ++ q) := fun q => by
    rw [unlines_cons, List.append_assoc, List.cons_append]
  have hend := (isRecordLine_end n).isLineByte
  rw [hw] at hp hne ⊢
  rcases prefix_append_cases hp with hp | ⟨q, rfl, hq⟩
  · exact .inl <| parseConfig_eq_none_of_prefix hp
  rcases List.prefix_concat_iff.1 hq with rfl | hq
  · exact absurd rfl hne
  by_cases hqe : q = endLine n
  · -- Only the last newline is missing: the lines are the same.
    right
    subst hqe
    have hlines : lines (unlines body ++ endLine n) =
        lines (unlines body ++ (endLine n ++ ['\n'.toUInt8])) := by
      rw [lines_unlines_append isLineByte_bodyLines, lines_unlines_append isLineByte_bodyLines,
        lines_eq_singleton hend (by simp [endLine, words, ascii]), lines_cons hend, lines_nil]
    rw [hrest, hrest, parseConfig, parseConfig, parseHeader_header, parseHeader_header]
    simp only [Option.bind_eq_bind, Option.bind_some, hlines]
  · -- The count is cut, and misses the number of uids.
    left
    refine Option.eq_none_iff_forall_ne_some.2 fun cfg h => ?_
    rw [hrest] at h
    obtain ⟨rest, hr, hacc, _⟩ := parseConfig_eq_some_iff.1 h
    rw [parseHeader_header] at hr
    obtain ⟨_, rfl⟩ := Prod.mk.inj (Option.some.inj hr)
    exact not_accepted_of_prefix hq hqe (records_configBody debug defaultMask q ▸ hacc)

theorem parseConfig_of_prefix_take :
    parseConfig ((formatConfig false 0 [⟨10001, 3⟩, ⟨10002, 3⟩]).take 40) = none ∨
      parseConfig ((formatConfig false 0 [⟨10001, 3⟩, ⟨10002, 3⟩]).take 40) =
        parseConfig (formatConfig false 0 [⟨10001, 3⟩, ⟨10002, 3⟩]) :=
  parseConfig_of_prefix false 0 _ _ (List.take_prefix _ _) (by decide)

end VpnHide.Protocol

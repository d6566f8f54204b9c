import VpnHide.Activator.StatsPage
import VpnHide.Kpm.Page

/-!
# Pages of the KPM in userspace

What the checks of the activator say to a page of the KPM: well formed rows pass
(`foldlM_checkRow`), and a page of such rows is accepted as it is meant, unless its
next cursor is not past the one asked for (`parseKpmStatsPage_pageText`).
-/

namespace VpnHide.Activator

open Lib Protocol Kpm

/-! ## Words -/

/-- A number is read back. -/
theorem parsePrefixedHexU64_prefixedHex {n : ℕ} (hn : n ≤ 0xffffffffffffffff) :
    parsePrefixedHexU64 (prefixedHex n) = some n := by
  have hstrip : Str.stripPrefix ['0', 'x'] (prefixedHex n) = some (Nat.toDigits 16 n) :=
    Str.stripPrefix_append ['0', 'x'] _
  rw [parsePrefixedHexU64, hstrip, Option.some_or, Option.bind_some,
    if_neg (Str.isWord_toDigits (by decide) le_rfl n).1]
  exact Str.fromStrRadix_toDigits (by decide) le_rfl (by decide) hn

theorem parsePrefixedHexU32_prefixedHex {n : ℕ} (hn : n ≤ 0xffffffff) :
    parsePrefixedHexU32 (prefixedHex n) = some n.toUInt32 := by
  rw [parsePrefixedHexU32, parsePrefixedHexU64_prefixedHex (hn.trans (by decide)), Option.bind_some,
    if_pos hn]

/-- A uid is read back. -/
theorem parsePrefixedHexU32_toNat (u : UInt32) :
    parsePrefixedHexU32 (prefixedHex u.toNat) = some u := by
  rw [parsePrefixedHexU32_prefixedHex (Nat.le_of_lt_succ u.toNat_lt)]
  exact congrArg some (UInt32.ofNat_toNat)

theorem isWord_prefixedHex (n : ℕ) : Str.IsWord (prefixedHex n) :=
  Str.IsWord.append (by decide : Str.IsWord ['0', 'x']) (Str.isWord_toDigits (by decide) le_rfl n)

theorem isWord_cellText (c : HookId × UInt64) : Str.IsWord (cellText c) :=
  (isWord_prefixedHex _).append
    (Str.IsWord.append (by decide : Str.IsWord [':']) (isWord_prefixedHex _))

theorem isWord_cells (r : Row) : ∀ v ∈ r.cells.map cellText, Str.IsWord v := by
  intro v hv
  obtain ⟨c, -, rfl⟩ := List.mem_map.1 hv
  exact isWord_cellText c

theorem isWord_pageWord : Str.IsWord pageWord := by
  unfold pageWord
  decide

theorem isWord_doneWord : Str.IsWord doneWord := by
  unfold doneWord
  decide

theorem isWord_trailerWords (requested : UInt32) (rows : List Row) (next : Option UInt32) :
    ∀ v ∈ trailerWords requested rows next, Str.IsWord v := by
  intro v hv
  simp only [trailerWords, List.mem_cons, List.not_mem_nil, or_false] at hv
  rcases hv with rfl | rfl | rfl
  · exact isWord_prefixedHex _
  · cases next with
    | none => exact isWord_doneWord
    | some cursor => exact isWord_prefixedHex _
  · exact isWord_prefixedHex _

/-! ## Rows -/

theorem colon_notMem_prefixedHex (n : ℕ) : ':' ∉ prefixedHex n := by
  intro h
  have h' : ':' ∈ Nat.toDigits 16 n := by simpa [prefixedHex] using h
  obtain ⟨d, hd, heq⟩ := exists_digitChar_of_mem_toDigits (by decide) h'
  have hne : ∀ d < 16, ':' ≠ Nat.digitChar d := by decide
  exact hne d hd heq

/-- A nonzero counter passes. -/
theorem checkField_cellText {c : HookId × UInt64} (hc : c.2 ≠ 0) :
    checkField (cellText c) = .ok () := by
  have hid : c.1.id ≤ 0xffffffff := by
    cases c.1 <;> decide
  have hcount : c.2.toNat ≠ 0 := fun h => hc (UInt64.toNat_inj.1 h)
  rw [checkField, cellText, Str.splitOnce_append (colon_notMem_prefixedHex _)]
  dsimp only
  rw [parsePrefixedHexU32_prefixedHex hid,
    parsePrefixedHexU64_prefixedHex (Nat.le_of_lt_succ c.2.toNat_lt)]
  exact if_neg hcount

/-- The cells of a row are accepted. -/
theorem forM_checkField {cells : List (HookId × UInt64)} (h : ∀ c ∈ cells, c.2 ≠ 0) :
    forM (cells.map cellText) checkField = Except.ok () := by
  induction cells with
  | nil => rfl
  | cons c cells ih =>
    rw [List.map_cons, List.forM_cons, checkField_cellText (h c List.mem_cons_self)]
    exact ih fun d hd => h d (List.mem_cons_of_mem _ hd)

/-- A well formed row passes. -/
theorem checkRow_text {r : Row} (hcells : r.cells ≠ []) (hnz : ∀ c ∈ r.cells, c.2 ≠ 0)
    {rows : List Str} {previous : UInt32} (hlt : previous < r.uid) :
    checkRow (rows, previous) r.text = .ok (rows ++ [r.text], r.uid) := by
  have hhead : ¬(r.text = [] ∨ r.text.head? = some '#') := by
    rw [Row.text, Str.words, prefixedHex]
    simp
  have hfields : Str.splitWhitespace r.text = prefixedHex r.uid.toNat :: r.cells.map cellText :=
    Str.splitWhitespace_words (isWord_prefixedHex _) (isWord_cells r)
  have hlen : ¬(r.uid ≤ previous ∨
      (prefixedHex r.uid.toNat :: r.cells.map cellText).length < 2) := by
    have := List.length_pos_iff.2 hcells
    simp only [not_or, not_le, not_lt, List.length_cons, List.length_map]
    exact ⟨hlt, by omega⟩
  rw [checkRow, if_neg hhead]
  dsimp only
  rw [hfields, List.head?_cons, Option.bind_some, parsePrefixedHexU32_toNat]
  change (if _ then _ else _) = _
  rw [if_neg hlen, List.drop_one, List.tail_cons, forM_checkField hnz]
  rfl

/-- The last uid of some rows after `previous`. -/
def lastUid (previous : UInt32) (rows : List Row) : UInt32 :=
  (rows.getLast?.map (·.uid)).getD previous

/-- Well formed rows pass. -/
theorem foldlM_checkRow {requested cursor : UInt32} {rows : List Row}
    (h : ValidRows requested rows cursor) :
    (rows.map Row.text).foldlM checkRow ([], requested) =
      Except.ok (rows.map Row.text, lastUid requested rows) := by
  induction rows using List.reverseRecOn with
  | nil => rfl
  | append_singleton rows r ih =>
    have hsorted := List.pairwise_append.1 h.sorted
    have hrows : ValidRows requested rows cursor :=
      { sorted := hsorted.1
        after := fun r' hr' => h.after r' (List.mem_append_left _ hr')
        le := h.le
        nonempty := fun r' hr' => h.nonempty r' (List.mem_append_left _ hr')
        nonzero := fun r' hr' => h.nonzero r' (List.mem_append_left _ hr') }
    have hr : r ∈ rows ++ [r] := by simp
    -- The uid before the last row is that of the row before, or the cursor.
    have hlt : lastUid requested rows < r.uid := by
      rw [lastUid]
      rcases List.eq_nil_or_concat' rows with rfl | ⟨rows', r', rfl⟩
      · exact (h.after r hr).1
      · simpa using hsorted.2.2 r' (by simp) r (by simp)
    rw [List.map_append, List.foldlM_append, ih hrows]
    change List.foldlM checkRow _ [r.text] = _
    rw [List.foldlM_cons, checkRow_text (h.nonempty r hr) (h.nonzero r hr) hlt]
    simp [lastUid, pure, Except.pure, bind, Except.bind]

/-! ## Lines -/

/-- The lines of a page. -/
def pageLines (requested : UInt32) (rows : List Row) (next : Option UInt32) : List Str :=
  headerLine :: rows.map Row.text ++ [Str.words pageWord (trailerWords requested rows next)]

/-- The rows are lines of their own. -/
theorem lines_rowsText (rows : List Row) (rest : Str) :
    Str.lines (rowsText rows ++ rest) = rows.map Row.text ++ Str.lines rest := by
  induction rows with
  | nil => rfl
  | cons r rows ih =>
    have hrow : ∀ c ∈ r.text, 0x20 ≤ c.toNat := fun c hc =>
      (Str.mem_words (isWord_prefixedHex _) (isWord_cells r) hc).1
    rw [rowsText, List.flatMap_cons, List.append_assoc, List.append_assoc, List.singleton_append,
      Str.lines_cons hrow]
    exact congrArg (r.text :: ·) ih

theorem headerLine_eq :
    headerLine = Str.words ['v', 'p', 'n', 'h', 'i', 'd', 'e']
      [['1'], ['s', 't', 'a', 't', 's']] := by
  unfold headerLine
  decide

/-- The lines of a page. -/
theorem lines_pageText (requested : UInt32) (rows : List Row) (next : Option UInt32) :
    Str.lines (pageText requested rows next) = pageLines requested rows next := by
  have htrailer : ∀ c ∈ Str.words pageWord (trailerWords requested rows next), 0x20 ≤ c.toNat :=
    fun c hc =>
    (Str.mem_words isWord_pageWord (isWord_trailerWords requested rows next) hc).1
  have hheader : ∀ c ∈ headerLine, 0x20 ≤ c.toNat := by
    rw [headerLine_eq]
    decide
  have hne : Str.words pageWord (trailerWords requested rows next) ≠ [] := by
    simp [Str.words, isWord_pageWord.1]
  rw [pageText, Str.lines_cons hheader, lines_rowsText, pageLines]
  cases next with
  | none => rw [Option.elim_none, Str.lines_cons htrailer, Str.lines_nil]; rfl
  | some cursor => rw [Option.elim_some, List.append_nil, Str.lines_eq_singleton htrailer hne]; rfl

/-- The first words of the lines before the trailer are not `page`. -/
theorem head_ne_pageWord {rows : List Row} {line : Str}
    (h : line ∈ headerLine :: rows.map Row.text) :
    Str.trim line = line ∧ (Str.splitWhitespace line).head? ≠ some pageWord := by
  rcases List.mem_cons.1 h with rfl | h
  · have hwords : ∀ v ∈ [['1'], ['s', 't', 'a', 't', 's']], Str.IsWord v := by decide
    rw [headerLine_eq]
    refine ⟨Str.trim_words (by decide) hwords, ?_⟩
    rw [Str.splitWhitespace_words (by decide) hwords]
    unfold pageWord
    decide
  · obtain ⟨r, -, rfl⟩ := List.mem_map.1 h
    refine ⟨Str.trim_words (isWord_prefixedHex _) (isWord_cells r), ?_⟩
    rw [Row.text, Str.splitWhitespace_words (isWord_prefixedHex _) (isWord_cells r)]
    unfold pageWord
    simp [prefixedHex]

/-- No line has blanks around it. -/
theorem map_trim_pageLines (requested : UInt32) (rows : List Row) (next : Option UInt32) :
    (pageLines requested rows next).map Str.trim = pageLines requested rows next := by
  refine List.map_congr_left (g := id) (fun line hline => ?_) |>.trans (List.map_id _)
  rcases List.mem_append.1 hline with hline | hline
  · exact (head_ne_pageWord hline).1
  · rw [List.mem_singleton.1 hline]
    exact Str.trim_words isWord_pageWord (isWord_trailerWords requested rows next)

/-- The trailer is the one line that starts with `page`. -/
theorem pagePositions_pageLines (requested : UInt32) (rows : List Row) (next : Option UInt32) :
    ((pageLines requested rows next).zipIdx.filter fun p =>
      (Str.splitWhitespace p.1).head? = some pageWord).map (·.2) = [rows.length + 1] := by
  have htrailer :=
    Str.splitWhitespace_words isWord_pageWord (isWord_trailerWords requested rows next)
  have hnil : ((headerLine :: rows.map Row.text).zipIdx.filter fun p =>
      (Str.splitWhitespace p.1).head? = some pageWord) = [] := by
    refine List.filter_eq_nil_iff.2 fun p hp => ?_
    simpa using (head_ne_pageWord (List.fst_mem_of_mem_zipIdx hp)).2
  rw [pageLines, List.zipIdx_append, List.filter_append, hnil, List.nil_append]
  simp [htrailer]

/-! ## Pages -/

/-- A page is in ASCII. -/
theorem ascii_pageText {requested : UInt32} {rows : List Row} {next : Option UInt32} {c : Char}
    (hc : c ∈ pageText requested rows next) : c.toNat < 128 := by
  have hline : ∀ {w : Str} {ws : List Str}, Str.IsWord w → (∀ v ∈ ws, Str.IsWord v) →
      c ∈ Str.words w ws → c.toNat < 128 := fun hw hws hc =>
    (Str.mem_words hw hws hc).2.trans_lt (by decide)
  have hnl : ∀ {c : Char}, c = '\n' → c.toNat < 128 := by
    rintro c rfl
    decide
  rw [pageText, List.mem_append, List.mem_cons, List.mem_append, List.mem_append] at hc
  rcases hc with hc | hc | hc | hc | hc
  · rw [headerLine_eq] at hc
    exact hline (by decide) (by decide) hc
  · exact hnl hc
  · obtain ⟨r, -, hc⟩ := List.mem_flatMap.1 hc
    rcases List.mem_append.1 hc with hc | hc
    · exact hline (isWord_prefixedHex _) (isWord_cells r) hc
    · exact hnl (List.mem_singleton.1 hc)
  · exact hline isWord_pageWord (isWord_trailerWords requested rows next) hc
  · cases next with
    | none => exact hnl (List.mem_singleton.1 hc)
    | some cursor => cases hc

/-- The text of a page is what its bytes spell. -/
theorem toUtf8_pageText (requested : UInt32) (rows : List Row) (next : Option UInt32) :
    Str.toUtf8 (pageText requested rows next) = bytes (pageText requested rows next) :=
  Str.toUtf8_eq_map fun _ => ascii_pageText

/-- A page begins as a block of counters. -/
theorem peekKind_pageText (requested : UInt32) (rows : List Row) (next : Option UInt32) :
    peekKind (Str.toUtf8 (pageText requested rows next)) = some .stats := by
  rw [toUtf8_pageText, pageText, bytes_append, bytes_headerLine, bytes_cons, peekKind,
    ← Kmod.statsHeader, Kmod.parseHeader_statsHeader]
  rfl

/-- Only the last page ends its last line. -/
theorem endsWith_pageText (requested : UInt32) (rows : List Row) (next : Option UInt32) :
    Str.endsWith (pageText requested rows next) '\n' = next.isNone := by
  have hsplit : pageText requested rows next = (headerLine ++ '\n' :: rowsText rows) ++
      (Str.words pageWord (trailerWords requested rows next) ++ next.elim ['\n'] fun _ => []) := by
    rw [pageText, List.append_assoc, List.cons_append]
  rw [Str.endsWith, hsplit, List.getLast?_append]
  cases next with
  | none => simp
  | some cursor =>
    obtain ⟨c, hc, hc'⟩ := Str.exists_getLast?_words isWord_pageWord
      (isWord_trailerWords requested rows (some cursor))
    have hne : c ≠ '\n' := by
      rintro rfl
      exact absurd hc' (by decide)
    simp [hc, hne]

/-- The last row is not after the cursor. -/
theorem lastUid_le {requested cursor : UInt32} {rows : List Row}
    (h : ValidRows requested rows cursor) :
    lastUid requested rows ≤ cursor := by
  rw [lastUid]
  cases hr : rows.getLast? with
  | none => exact h.le
  | some r => exact (h.after r (List.mem_of_getLast? hr)).2

/-- What is said of the next cursor. -/
theorem parseNext_pageText {requested cursor : UInt32} {rows : List Row}
    (h : ValidRows requested rows cursor) {next : Option UInt32}
    (hnext : next = none ∨ next = some cursor) :
    parseNext (pageText requested rows next) requested (lastUid requested rows)
      (next.elim doneWord fun cursor => prefixedHex cursor.toNat) =
      if next ≠ none ∧ cursor = requested then .error "KPM stats page cursor did not advance"
      else .ok (next.elim .done .cursor) := by
  have hdone : "done".toList = doneWord := by
    unfold doneWord
    rfl
  rw [parseNext, hdone, endsWith_pageText]
  rcases hnext with rfl | rfl
  · simp
  · have hne : prefixedHex cursor.toNat ≠ doneWord := by
      unfold doneWord
      simp [prefixedHex]
    -- The cursor is never behind the rows, so that only standing still is an error.
    have hiff : (cursor ≤ requested ∨ cursor < lastUid requested rows) ↔ cursor = requested :=
      ⟨fun hor => hor.elim (fun hle => le_antisymm hle h.le) fun hlt =>
        absurd (lastUid_le h) hlt.not_ge,
        fun heq => .inl heq.le⟩
    rw [Option.elim_some, if_neg hne, parsePrefixedHexU32_toNat]
    change (if _ then _ else _) = _
    rw [if_congr hiff rfl rfl]
    by_cases heq : cursor = requested <;> simp [heq]

/-- A page of well formed rows is accepted as it is meant, unless its next cursor is the
    one asked for. -/
theorem parseKpmStatsPage_pageText {requested cursor : UInt32} {rows : List Row}
    (h : ValidRows requested rows cursor) (hlen : rows.length ≤ 0xffffffff) {next : Option UInt32}
    (hnext : next = none ∨ next = some cursor) :
    parseKpmStatsPage (pageText requested rows next) requested =
      if next ≠ none ∧ cursor = requested then .error "KPM stats page cursor did not advance"
      else .ok (some ⟨rows.map Row.text, next.elim .done .cursor⟩) := by
  have hword : "page".toList = pageWord := by
    unfold pageWord
    rfl
  have hpos := pagePositions_pageLines requested rows next
  have hlength : (pageLines requested rows next).length = rows.length + 2 := by
    simp [pageLines]
  have hbefore : (headerLine :: rows.map Row.text).length = rows.length + 1 := by simp
  have htrailer : (pageLines requested rows next)[rows.length + 1]! =
      Str.words pageWord (trailerWords requested rows next) := by
    rw [getElem!_pos _ _ (by omega)]
    simp [pageLines]
  have hrows :
      ((pageLines requested rows next).take (rows.length + 1)).drop 1 = rows.map Row.text := by
    rw [pageLines, ← hbefore, List.take_left]
    rfl
  have hcount : rows.length.toUInt32.toNat = rows.length :=
    UInt32.toNat_ofNat_of_lt' (Nat.lt_succ_of_le hlen)
  -- Line by line: the header, the trailer and its numbers, then the rows.
  rw [parseKpmStatsPage, peekKind_pageText, if_neg (by simp), lines_pageText]
  dsimp only
  rw [map_trim_pageLines, hword, hpos]
  dsimp only
  rw [hlength, if_neg (by simp), parseTrailer, htrailer,
    Str.splitWhitespace_words isWord_pageWord (isWord_trailerWords requested rows next),
    trailerWords]
  dsimp only
  rw [parsePrefixedHexU32_toNat, parsePrefixedHexU32_prefixedHex hlen, hrows, foldlM_checkRow h]
  change (if requested ≠ requested then _ else _) = _
  rw [if_neg (not_not.2 rfl)]
  change (if (rows.map Row.text).length ≠ rows.length.toUInt32.toNat then _ else _) = _
  rw [hcount, if_neg (by simp), parseNext_pageText h hnext]
  split_ifs <;> rfl

end VpnHide.Activator

import VpnHide.Protocol.RoundTrip
import VpnHide.Protocol.Telemetry

/-!
# Reports round trip

A report is a comment, a status and the counters, one after another. Each of the readers
finds in it what was written: the counters of a row are the *run* of entries with its uid
(`runs`), and the runs together are the entries (`flatMap_runs`). A row is read back by the
tolerant reader (`displayRow_rowLine`) and by the strict one (`line_rowLine`), and the block
of a kind is cut out at the header of the next (`extractBlock_status`,
`extractBlock_stats`).
-/

namespace VpnHide.Protocol

open Lib

/-! ## Words as tokens -/

/-- The bytes of words are the words of their bytes. -/
theorem toUtf8_words (w : Str) (ws : List Str) :
    Str.toUtf8 (Str.words w ws) = words (Str.toUtf8 w) (ws.map Str.toUtf8) := by
  have hblank : ∀ v : Str, Str.toUtf8 (' ' :: v) = ' '.toUInt8 :: Str.toUtf8 v := fun v => rfl
  rw [Str.words, Str.toUtf8_append, words]
  congr 1
  induction ws with
  | nil => rfl
  | cons v ws ih =>
    rw [List.flatMap_cons, Str.toUtf8_append, ih, hblank, List.map_cons, List.flatMap_cons]

/-- The bytes of a word are a token. -/
theorem isToken_toUtf8 {w : Str} (hw : Str.IsWord w) : IsToken (Str.toUtf8 w) := by
  rw [hw.toUtf8_eq]
  refine ⟨by simpa using hw.1, fun c hc => ?_⟩
  obtain ⟨d, hd, rfl⟩ := List.mem_map.1 hc
  obtain ⟨h₁, h₂⟩ := hw.2 d hd
  have hnat : d.toUInt8.toNat = d.toNat := Str.toNat_toUInt8 (h₂.trans_lt (by decide))
  rw [UInt8.le_iff_toNat_le, UInt8.le_iff_toNat_le, hnat]
  exact ⟨h₁, h₂⟩

/-- A line of words that is no comment is a line of tokens. -/
theorem isRecordLine_words {w : Str} {ws : List Str} (hw : Str.IsWord w)
    (hws : ∀ v ∈ ws, Str.IsWord v) (h : w.head? ≠ some '#') :
    IsRecordLine (Str.toUtf8 (Str.words w ws)) (Str.toUtf8 w) (ws.map Str.toUtf8) where
  eq := toUtf8_words w ws
  first := isToken_toUtf8 hw
  rest := by
    intro v hv
    obtain ⟨u, hu, rfl⟩ := List.mem_map.1 hv
    exact isToken_toUtf8 (hws u hu)
  not_comment := by
    obtain ⟨c, t, rfl⟩ := List.exists_cons_of_ne_nil hw.1
    rw [hw.toUtf8_eq, List.map_cons, List.head?_cons, Ne, Option.some.injEq]
    intro hc
    have hlt := (hw.2 c List.mem_cons_self).2
    exact h (congrArg some (Str.toUInt8_inj (hlt.trans_lt (by decide)) (by decide) hc))

theorem isWord_hexText (n : ℕ) : Str.IsWord (hexText n) :=
  Str.IsWord.append (by decide : Str.IsWord ['0', 'x']) (Str.isWord_toDigits (by decide) le_rfl n)

theorem toUtf8_hexText (n : ℕ) : Str.toUtf8 (hexText n) = '0'.toUInt8 :: 'x'.toUInt8 :: hex n := by
  rw [(isWord_hexText n).toUtf8_eq]
  rfl

/-- A number that was printed is read back. -/
theorem parseHexPrefixed_hexText {n bits : ℕ} (hn : n ≤ maxOfBits bits) :
    parseHexPrefixed (Str.toUtf8 (hexText n)) bits = some n := by
  rw [toUtf8_hexText, parseHexPrefixed, if_pos ⟨rfl, .inl rfl⟩, parseHexBare_hex hn]

theorem parseHexPrefixed_uint32 (n : UInt32) :
    parseHexPrefixed (Str.toUtf8 (hexText n.toNat)) 32 = some n.toNat :=
  parseHexPrefixed_hexText (Nat.le_of_lt_succ n.toNat_lt)

/-! ## The lines of a report -/

/-- The header line of a block. -/
def blockLine (kind : Str) : Str := Str.words ['v', 'p', 'n', 'h', 'i', 'd', 'e'] [['1'], kind]

/-- The kind of a status. -/
def statusWord : Str := ['s', 't', 'a', 't', 'u', 's']

/-- The kind of the counters. -/
def statsWord : Str := ['s', 't', 'a', 't', 's']

/-- The lines of a status. -/
def statusLines (s : Status) : List Str :=
  [blockLine statusWord, Str.words ['b', 'a', 'c', 'k', 'e', 'n', 'd'] [hexText s.backend.toNat],
    Str.words ['k', 'v', 'e', 'r'] [hexText s.kver.toNat],
    Str.words ['h', 'o', 'o', 'k', 's'] [hexText s.hooks.toNat],
    Str.words ['e', 'r', 'r', 'o', 'r'] [hexText s.error.toNat]]

/-- A status is printed line by line. -/
theorem formatStatus_eq (s : Status) : formatStatus s = Str.unlines (statusLines s) := by
  have hheader : telemetryHeader "status".toList = blockLine statusWord := by decide
  have hbackend : "\nbackend ".toList = ['\n', 'b', 'a', 'c', 'k', 'e', 'n', 'd', ' '] := by decide
  have hkver : "\nkver ".toList = ['\n', 'k', 'v', 'e', 'r', ' '] := by decide
  have hhooks : "\nhooks ".toList = ['\n', 'h', 'o', 'o', 'k', 's', ' '] := by decide
  have herror : "\nerror ".toList = ['\n', 'e', 'r', 'r', 'o', 'r', ' '] := by decide
  rw [formatStatus, hheader, hbackend, hkver, hhooks, herror, statusLines]
  generalize blockLine statusWord = header
  simp only [Str.unlines, Str.words, List.flatMap_cons, List.flatMap_nil, List.append_nil,
    List.append_assoc, List.cons_append, List.nil_append]

/-- The entries of a row, and their uid. -/
def runs : List StatEntry → List (UInt32 × List StatEntry)
  | [] => []
  | e :: entries => (e.uid, e :: (sameUid e.uid entries).1) :: runs (sameUid e.uid entries).2
termination_by entries => entries.length
decreasing_by exact Nat.lt_succ_of_le (length_sameUid_le _ _)

/-- The line of a row. -/
def rowLine (r : UInt32 × List StatEntry) : Str := Str.words (hexText r.1.toNat) (r.2.map statCell)

/-- The lines of the counters. -/
def statsLines (entries : List StatEntry) : List Str :=
  blockLine statsWord :: (runs entries).map rowLine

/-- The rows of counts are printed line by line. -/
theorem statRows_eq (entries : List StatEntry) :
    statRows entries = Str.unlines ((runs entries).map rowLine) := by
  fun_induction runs entries with
  | case1 => rw [statRows]; rfl
  | case2 e entries ih =>
    rw [statRows, ih, List.map_cons, Str.unlines_cons, rowLine, Str.words, List.flatMap_map]

/-- The counts are printed line by line. -/
theorem formatStats_eq (entries : List StatEntry) :
    formatStats entries = Str.unlines (statsLines entries) := by
  have hheader : telemetryHeader "stats".toList = blockLine statsWord := by decide
  rw [formatStats, hheader, statRows_eq, statsLines, Str.unlines_cons]

/-- The runs together are the entries. -/
theorem flatMap_runs (entries : List StatEntry) : (runs entries).flatMap (·.2) = entries := by
  fun_induction runs entries with
  | case1 => rfl
  | case2 e entries ih =>
    rw [List.flatMap_cons, ih, List.cons_append]
    exact congrArg (e :: ·) List.takeWhile_append_dropWhile

/-- A run is not empty, and has one uid. -/
theorem mem_runs {entries : List StatEntry} {r : UInt32 × List StatEntry} (hr : r ∈ runs entries) :
    r.2 ≠ [] ∧ ∀ e ∈ r.2, e.uid = r.1 := by
  fun_induction runs entries with
  | case1 => cases hr
  | case2 e entries ih =>
    rcases List.mem_cons.1 hr with rfl | hr
    · refine ⟨List.cons_ne_nil _ _, List.forall_mem_cons.2 ⟨rfl, fun x hx => ?_⟩⟩
      simpa using List.mem_takeWhile_imp hx
    · exact ih hr

theorem isWord_statCell (e : StatEntry) : Str.IsWord (statCell e) :=
  (isWord_hexText _).append (Str.IsWord.append (by decide : Str.IsWord [':']) (isWord_hexText _))

theorem isWord_cells (es : List StatEntry) : ∀ v ∈ es.map statCell, Str.IsWord v := by
  intro v hv
  obtain ⟨e, -, rfl⟩ := List.mem_map.1 hv
  exact isWord_statCell e

theorem isWord_blockWords {kind : Str} (hkind : Str.IsWord kind) :
    ∀ v ∈ [['1'], kind], Str.IsWord v :=
  List.forall_mem_cons.2 ⟨by decide, List.forall_mem_singleton.2 hkind⟩

theorem isRecordLine_blockLine {kind : Str} (hkind : Str.IsWord kind) :
    IsRecordLine (Str.toUtf8 (blockLine kind)) (ascii "vpnhide") [ascii "1", Str.toUtf8 kind] :=
  isRecordLine_words (by decide) (isWord_blockWords hkind) (by decide)

theorem isRecordLine_rowLine (r : UInt32 × List StatEntry) :
    IsRecordLine (Str.toUtf8 (rowLine r)) (Str.toUtf8 (hexText r.1.toNat))
      ((r.2.map statCell).map Str.toUtf8) :=
  isRecordLine_words (isWord_hexText _) (isWord_cells _) (by simp [hexText])

/-! ## Rows -/

/-- What lies between the only two parts of a list. -/
theorem splitOn_append_cons {α : Type*} [DecidableEq α] {a b : List α} {s : α}
    (ha : s ∉ a) (hb : s ∉ b) :
    (a ++ s :: b).splitOn s = [a, b] := by
  have hne : ∀ {l : List α}, s ∉ l → ∀ c ∈ l, (c == s) = false := by
    intro l hl c hc
    rw [beq_eq_false_iff_ne]
    rintro rfl
    exact hl hc
  rw [List.splitOn, List.splitOnP_append_cons_of_forall_mem (hne ha) _ (by simp),
    List.splitOnP_eq_singleton (hne hb)]

theorem colon_notMem_hexText (n : ℕ) : ':' ∉ hexText n := by
  have hne : ∀ d < 16, ':' ≠ Nat.digitChar d := by decide
  intro h
  have h' : ':' ∈ Nat.toDigits 16 n := by simpa [hexText] using h
  obtain ⟨d, hd, heq⟩ := exists_digitChar_of_mem_toDigits (by decide) h'
  exact hne d hd heq

theorem colon_notMem_toUtf8_hexText (n : ℕ) : ':'.toUInt8 ∉ Str.toUtf8 (hexText n) := by
  have hne : ∀ d < 16, (Nat.digitChar d).toUInt8 ≠ ':'.toUInt8 := by decide
  rw [toUtf8_hexText, List.mem_cons, List.mem_cons, hex, List.mem_map]
  rintro (h | h | ⟨c, hc, h⟩)
  · exact absurd h (by decide)
  · exact absurd h (by decide)
  · obtain ⟨d, hd, rfl⟩ := exists_digitChar_of_mem_toDigits (by decide) hc
    exact hne d hd h

/-- A cell that was printed is read back by the activator. -/
theorem displayCell_statCell (e : StatEntry) :
    displayCell e.uid (Str.toUtf8 (statCell e)) = some e := by
  have hcell : Str.toUtf8 (statCell e) =
      Str.toUtf8 (hexText e.hookId.toNat) ++ ':'.toUInt8 :: Str.toUtf8 (hexText e.count.toNat) :=
    Str.toUtf8_append _ _
  have hcount : parseHexPrefixed (Str.toUtf8 (hexText e.count.toNat)) 64 = some e.count.toNat :=
    parseHexPrefixed_hexText (Nat.le_of_lt_succ e.count.toNat_lt)
  rw [displayCell, hcell, splitOn_append_cons (colon_notMem_toUtf8_hexText _)
    (colon_notMem_toUtf8_hexText _)]
  dsimp only
  rw [parseHexPrefixed_uint32, hcount]
  simp

/-- A row is shown as its run. -/
theorem displayRow_rowLine {r : UInt32 × List StatEntry} (h : ∀ e ∈ r.2, e.uid = r.1) :
    displayRow (Str.toUtf8 (rowLine r)) = r.2 := by
  rw [displayRow, (isRecordLine_rowLine r).tokens]
  dsimp only
  rw [parseHexPrefixed_uint32]
  dsimp only
  rw [List.filterMap_map, List.filterMap_map]
  calc _ = r.2.filterMap some := by
        refine List.filterMap_congr fun e he => ?_
        rw [Function.comp_apply, Function.comp_apply, toUInt32_toNat, ← h e he,
          displayCell_statCell]
    _ = r.2 := List.filterMap_some

namespace StatsState

theorem hexU64_hexText {n : ℕ} (hn : n ≤ 0xffffffffffffffff) : hexU64 (hexText n) = some n := by
  have hprefix : Str.stripPrefix ['0', 'x'] (hexText n) = some (Nat.toDigits 16 n) := by
    rw [Str.stripPrefix, if_pos (by simp [hexText])]
    rfl
  rw [hexU64, hprefix]
  exact Str.fromStrRadix_toDigits (by decide) le_rfl (by decide) hn

theorem hexU32_hexText (n : UInt32) : hexU32 (hexText n.toNat) = some n := by
  have hle := Nat.le_of_lt_succ n.toNat_lt
  rw [hexU32, hexU64_hexText (hle.trans (by decide)), Option.bind_some, if_pos hle]
  simp

/-- What a counter is looked up by. -/
def key (e : StatEntry) : UInt32 × UInt32 := (e.uid, e.hookId)

/-- The strict reader after the header and some counters. -/
def after (rows : List StatEntry) : StatsState := ⟨true, rows, (rows.map key).reverse⟩

/-- A cell that was printed is accepted as a new row by the app. -/
theorem word_statCell {rows : List StatEntry} {e : StatEntry} (hcount : e.count ≠ 0)
    (hnew : key e ∉ rows.map key) (hlen : rows.length < maxStatsCells) :
    word e.uid (after rows) (statCell e) = some (after (rows ++ [e])) := by
  have hzero : e.count.toNat ≠ 0 := fun h => hcount (UInt64.toNat_inj.1 h)
  have hok : ¬(e.count.toNat = 0 ∨ (e.uid, e.hookId) ∈ (after rows).seen ∨
      maxStatsCells ≤ (after rows).rows.length) := by
    simp only [not_or, not_le]
    exact ⟨hzero, fun h => hnew (List.mem_reverse.1 h), hlen⟩
  rw [word, statCell, Str.splitOnce_append (colon_notMem_hexText _), Option.bind_eq_bind,
    Option.bind_some]
  dsimp only
  rw [hexU32_hexText, hexU64_hexText (Nat.le_of_lt_succ e.count.toNat_lt), Option.bind_eq_bind,
    Option.bind_some, Option.bind_eq_bind, Option.bind_some, if_neg hok]
  simp [after, key]

/-- So are the cells of a line. -/
theorem foldlM_word {uid : UInt32} {rows es : List StatEntry} (huid : ∀ e ∈ es, e.uid = uid)
    (hcount : ∀ e ∈ es, e.count ≠ 0) (hnodup : ((rows ++ es).map key).Nodup)
    (hlen : (rows ++ es).length ≤ maxStatsCells) :
    (es.map statCell).foldlM (word uid) (after rows) = some (after (rows ++ es)) := by
  induction es generalizing rows with
  | nil => simp
  | cons e es ih =>
    have hsplit : rows ++ e :: es = (rows ++ [e]) ++ es := by simp
    rw [hsplit] at hnodup hlen ⊢
    have hnew : key e ∉ rows.map key := by
      rw [List.map_append, List.nodup_append] at hnodup
      have hrows := hnodup.1
      rw [List.map_append, List.nodup_append] at hrows
      exact fun hmem => hrows.2.2 _ hmem _ (by simp) rfl
    have hroom : rows.length < maxStatsCells := by
      simp only [List.length_append, List.length_singleton] at hlen
      omega
    rw [List.map_cons, List.foldlM_cons, ← huid e List.mem_cons_self,
      word_statCell (hcount e List.mem_cons_self) hnew hroom, Option.bind_eq_bind, Option.bind_some,
      huid e List.mem_cons_self]
    exact ih (fun x hx => huid x (List.mem_cons_of_mem _ hx))
      (fun x hx => hcount x (List.mem_cons_of_mem _ hx))
      hnodup hlen

/-- A row is read as its run. -/
theorem line_rowLine {rows : List StatEntry} {r : UInt32 × List StatEntry} (hne : r.2 ≠ [])
    (huid : ∀ e ∈ r.2, e.uid = r.1) (hcount : ∀ e ∈ r.2, e.count ≠ 0)
    (hnodup : ((rows ++ r.2).map key).Nodup) (hlen : (rows ++ r.2).length ≤ maxStatsCells) :
    (after rows).line (rowLine r) = some (after (rows ++ r.2)) := by
  have hheader : rowLine r ≠ telemetryHeader "stats".toList := by
    have hv : telemetryHeader "stats".toList = blockLine statsWord := by decide
    rw [hv, rowLine, blockLine, Str.words, Str.words, hexText]
    simp
  rw [line, if_neg hheader, if_neg (by simp [after]), rowLine,
    Str.splitAsciiWhitespace_words (isWord_hexText _) (isWord_cells _)]
  dsimp only
  rw [hexU32_hexText, Option.bind_eq_bind, Option.bind_some, foldlM_word huid hcount hnodup hlen,
    Option.bind_eq_bind, Option.bind_some, if_neg (by simpa using hne)]

/-- So are the lines of a block. -/
theorem foldlM_line {rows : List StatEntry} {rs : List (UInt32 × List StatEntry)}
    (hrs : ∀ r ∈ rs, r.2 ≠ [] ∧ ∀ e ∈ r.2, e.uid = r.1) (hcount : ∀ r ∈ rs, ∀ e ∈ r.2, e.count ≠ 0)
    (hnodup : ((rows ++ rs.flatMap (·.2)).map key).Nodup)
    (hlen : (rows ++ rs.flatMap (·.2)).length ≤ maxStatsCells) :
    (rs.map rowLine).foldlM line (after rows) = some (after (rows ++ rs.flatMap (·.2))) := by
  induction rs generalizing rows with
  | nil => simp
  | cons r rs ih =>
    rw [List.flatMap_cons, ← List.append_assoc] at hnodup hlen ⊢
    have hrow : ((rows ++ r.2).map key).Nodup := by
      rw [List.map_append, List.nodup_append] at hnodup
      exact hnodup.1
    have hroom : (rows ++ r.2).length ≤ maxStatsCells := by
      rw [List.length_append] at hlen
      omega
    obtain ⟨hne, huid⟩ := hrs r List.mem_cons_self
    rw [List.map_cons, List.foldlM_cons,
      line_rowLine hne huid (hcount r List.mem_cons_self) hrow hroom, Option.bind_eq_bind,
      Option.bind_some]
    exact ih (fun x hx => hrs x (List.mem_cons_of_mem _ hx))
      (fun x hx => hcount x (List.mem_cons_of_mem _ hx))
      hnodup hlen

end StatsState

/-! ## Blocks -/

/-- A block's first line is a header of its kind. -/
theorem headerKind_blockLine {kind : Str} (hkind : Str.IsWord kind) :
    headerKind (Str.toUtf8 (blockLine kind)) =
      (kindOf (Str.toUtf8 kind)).bind fun k =>
        (guard (1 = currentVersion k) : Option Unit).bind fun _ => some k := by
  rw [headerKind, (isRecordLine_blockLine hkind).tokens]
  rfl

/-- The header of a block is the first line of a text, which may end there. -/
theorem parseHeader_of_nextLine {kind : Str} (hkind : Str.IsWord kind) {k : Kind}
    (hk : headerKind (Str.toUtf8 (blockLine kind)) = some k) {buf rest : Bytes} (hne : buf ≠ [])
    (hnext : nextLine buf = (Str.toUtf8 (blockLine kind), rest)) :
    parseHeader buf = some (k, rest) := by
  have h := isRecordLine_blockLine hkind
  rw [parseHeader, if_neg hne, hnext, h.not_isIgnorable, if_neg Bool.false_ne_true, h.significant,
    Option.bind_eq_bind, Option.bind_some, hk]
  rfl

theorem parseHeader_blockLine {kind : Str} (hkind : Str.IsWord kind) {k : Kind}
    (hk : headerKind (Str.toUtf8 (blockLine kind)) = some k) (rest : Bytes) :
    parseHeader (Str.toUtf8 (blockLine kind) ++ '\n'.toUInt8 :: rest) = some (k, rest) :=
  parseHeader_of_nextLine hkind hk (by simp)
    (nextLine_append (isRecordLine_blockLine hkind).isLineByte rest)

theorem toUtf8_unlines (ls : List Str) :
    Str.toUtf8 (Str.unlines ls) = unlines (ls.map Str.toUtf8) := by
  induction ls with
  | nil => rfl
  | cons l ls ih =>
    have hline :
        Str.toUtf8 ('\n' :: Str.unlines ls) = '\n'.toUInt8 :: Str.toUtf8 (Str.unlines ls) := rfl
    rw [Str.unlines_cons, Str.toUtf8_append, hline, ih, List.map_cons, unlines_cons]

theorem headerKind_statusLine : headerKind (Str.toUtf8 (blockLine statusWord)) = some .status := by
  rw [headerKind_blockLine (by decide)]
  decide

theorem headerKind_statsLine : headerKind (Str.toUtf8 (blockLine statsWord)) = some .stats := by
  rw [headerKind_blockLine (by decide)]
  decide

/-- No printed line is skipped. -/
theorem filterMap_significant {ls : List Str}
    (h : ∀ l ∈ ls, ∃ w ws, IsRecordLine (Str.toUtf8 l) w ws) :
    (ls.map Str.toUtf8).filterMap significant = ls.map Str.toUtf8 := by
  rw [List.filterMap_map]
  calc _ = ls.filterMap (some ∘ Str.toUtf8) := by
        refine List.filterMap_congr fun l hl => ?_
        obtain ⟨w, ws, hl⟩ := h l hl
        exact hl.significant
    _ = ls.map Str.toUtf8 := by rw [List.filterMap_eq_map]

theorem exists_isRecordLine_of_mem {rs : List (UInt32 × List StatEntry)} {l : Str}
    (hl : l ∈ rs.map rowLine) :
    ∃ w ws, IsRecordLine (Str.toUtf8 l) w ws := by
  obtain ⟨r, -, rfl⟩ := List.mem_map.1 hl
  exact ⟨_, _, isRecordLine_rowLine r⟩

theorem isLineByte_of_mem_rows {rs : List (UInt32 × List StatEntry)} :
    ∀ l ∈ (rs.map rowLine).map Str.toUtf8, ∀ c ∈ l, IsLineByte c := by
  intro l hl
  obtain ⟨m, hm, rfl⟩ := List.mem_map.1 hl
  obtain ⟨w, ws, hline⟩ := exists_isRecordLine_of_mem hm
  exact hline.isLineByte

/-- The tolerant reader reads the rows after the header. -/
theorem displayStats_of_lines {rs : List (UInt32 × List StatEntry)}
    (hrs : ∀ r ∈ rs, ∀ e ∈ r.2, e.uid = r.1) {buf rest : Bytes}
    (hlen : buf.length ≤ maxTelemetryBytes) (hheader : parseHeader buf = some (.stats, rest))
    (hrest : lines rest = (rs.map rowLine).map Str.toUtf8) :
    displayStats buf = some (rs.flatMap (·.2)) := by
  have hshown : ((rs.map rowLine).map Str.toUtf8).flatMap displayRow = rs.flatMap (·.2) := by
    rw [List.flatMap_map, List.flatMap_map]
    exact List.flatMap_congr fun r hr => displayRow_rowLine (hrs r hr)
  rw [displayStats, if_neg (not_lt.2 hlen), hheader, Option.bind_eq_bind, Option.bind_some]
  dsimp only
  rw [hrest, filterMap_significant fun l hl => exists_isRecordLine_of_mem hl, hshown]
  rfl

/-- The tolerant reader reads the counters that were written. -/
theorem displayStats_formatStats {entries : List StatEntry}
    (hlen : (Str.toUtf8 (formatStats entries)).length ≤ maxTelemetryBytes) :
    displayStats (Str.toUtf8 (formatStats entries)) = some entries := by
  have hlines : lines (unlines (((runs entries).map rowLine).map Str.toUtf8)) =
      ((runs entries).map rowLine).map Str.toUtf8 := by
    simpa using lines_unlines_append isLineByte_of_mem_rows []
  have hheader : parseHeader (Str.toUtf8 (formatStats entries)) =
      some (.stats, unlines (((runs entries).map rowLine).map Str.toUtf8)) := by
    rw [formatStats_eq, statsLines, toUtf8_unlines, List.map_cons, unlines_cons]
    exact parseHeader_blockLine (by decide) headerKind_statsLine _
  rw [displayStats_of_lines (fun r hr => (mem_runs hr).2) hlen hheader hlines, flatMap_runs]

/-! ## The status -/

/-- A record of a status, and what it says. -/
def statusFields (s : Status) : List (Str × UInt32) :=
  [(['b', 'a', 'c', 'k', 'e', 'n', 'd'], s.backend), (['k', 'v', 'e', 'r'], s.kver),
    (['h', 'o', 'o', 'k', 's'], s.hooks), (['e', 'r', 'r', 'o', 'r'], s.error)]

/-- The line of a field. -/
def fieldLine (f : Str × UInt32) : Str := Str.words f.1 [hexText f.2.toNat]

theorem statusLines_eq (s : Status) :
    statusLines s = blockLine statusWord :: (statusFields s).map fieldLine := rfl

theorem isWord_statusFields {s : Status} {f : Str × UInt32} (hf : f ∈ statusFields s) :
    Str.IsWord f.1 ∧ f.1.head? ≠ some '#' ∧ Str.toUtf8 f.1 ≠ ascii "vpnhide" := by
  simp only [statusFields, List.mem_cons, List.not_mem_nil, or_false] at hf
  rcases hf with rfl | rfl | rfl | rfl <;> (dsimp only; decide)

theorem isRecordLine_fieldLine {s : Status} {f : Str × UInt32} (hf : f ∈ statusFields s) :
    IsRecordLine (Str.toUtf8 (fieldLine f)) (Str.toUtf8 f.1) [Str.toUtf8 (hexText f.2.toNat)] :=
  isRecordLine_words (isWord_statusFields hf).1 (List.forall_mem_singleton.2 (isWord_hexText _))
    (isWord_statusFields hf).2.1

namespace StatusFields

theorem read_fieldLine {s : Status} {f : Str × UInt32} (hf : f ∈ statusFields s)
    (fields : StatusFields) (ls : List Bytes) :
    fields.read (Str.toUtf8 (fieldLine f) :: ls) = (fields.set (Str.toUtf8 f.1) f.2).read ls := by
  rw [read, (isRecordLine_fieldLine hf).tokens]
  dsimp only
  rw [if_neg (isWord_statusFields hf).2.2, List.head?_cons, Option.bind_some,
    parseHexPrefixed_uint32]
  simp

/-- The fields of a status are read back. -/
theorem read_statusFields (s : Status) :
    empty.read (((statusFields s).map fieldLine).map Str.toUtf8) =
      some ⟨some s.backend, some s.kver, some s.hooks, some s.error⟩ := by
  have hread :
      ∀ (fs : List (Str × UInt32)) (fields : StatusFields), (∀ f ∈ fs, f ∈ statusFields s) →
      fields.read ((fs.map fieldLine).map Str.toUtf8) =
        some (fs.foldl (fun g f => g.set (Str.toUtf8 f.1) f.2) fields) := by
    intro fs
    induction fs with
    | nil => exact fun fields _ => rfl
    | cons f fs ih =>
      intro fields hfs
      rw [List.map_cons, List.map_cons, read_fieldLine (hfs f List.mem_cons_self),
        ih _ fun g hg => hfs g (List.mem_cons_of_mem _ hg), List.foldl_cons]
  rw [hread _ _ fun f hf => hf]
  rfl

end StatusFields

/-- The text of some lines, the last of them without its newline. -/
def joined (ls : List Str) : Str := ['\n'].intercalate ls

theorem toUtf8_joined_cons (l m : Str) (ls : List Str) :
    Str.toUtf8 (joined (l :: m :: ls)) = Str.toUtf8 l ++ '\n'.toUInt8 ::
      Str.toUtf8 (joined (m :: ls)) := by
  have h : joined (l :: m :: ls) = l ++ '\n' :: joined (m :: ls) := by
    simp [joined, List.intercalate, List.intersperse]
  rw [h, Str.toUtf8_append]
  rfl

/-- The lines are read, with a newline at the end or without one. -/
theorem lines_joined {ls : List Str} (h : ∀ l ∈ ls, ∃ w ws, IsRecordLine (Str.toUtf8 l) w ws) :
    lines (Str.toUtf8 (joined ls)) = ls.map Str.toUtf8 := by
  induction ls with
  | nil => exact Protocol.lines_nil
  | cons l ls ih =>
    obtain ⟨w, ws, hl⟩ := h l List.mem_cons_self
    cases ls with
    | nil =>
      have hne : Str.toUtf8 l ≠ [] := by
        rw [hl.eq, words]
        simp [hl.first.1]
      have hjoined : joined [l] = l := by simp [joined, List.intercalate]
      rw [hjoined, lines_eq_singleton hl.isLineByte hne]
      rfl
    | cons m ls =>
      rw [toUtf8_joined_cons, lines_cons hl.isLineByte, ih fun k hk =>
        h k (List.mem_cons_of_mem _ hk)]
      rfl

/-- The status is read as it was written, without its last newline. -/
theorem parseStatusFields_joined (s : Status) :
    parseStatusFields (Str.toUtf8 (joined (statusLines s))) =
      some ⟨some s.backend, some s.kver, some s.hooks, some s.error⟩ := by
  have hrecord :
      ∀ l ∈ (statusFields s).map fieldLine, ∃ w ws, IsRecordLine (Str.toUtf8 l) w ws := by
    intro l hl
    obtain ⟨f, hf, rfl⟩ := List.mem_map.1 hl
    exact ⟨_, _, isRecordLine_fieldLine hf⟩
  have hbody := lines_joined hrecord
  have hsplit : Str.toUtf8 (joined (statusLines s)) =
      Str.toUtf8 (blockLine statusWord) ++ '\n'.toUInt8 ::
        Str.toUtf8 (joined ((statusFields s).map fieldLine)) :=
    toUtf8_joined_cons _ _ _
  rw [parseStatusFields, hsplit, parseHeader_blockLine (by decide) headerKind_statusLine,
    Option.bind_eq_bind, Option.bind_some]
  dsimp only
  rw [hbody, filterMap_significant hrecord, StatusFields.read_statusFields]
  rfl

/-! ## Cutting out a block -/

/-- The lines of a text, as a block is cut out of it. -/
def blockLines (raw : Str) : List Str := (raw.splitOn '\n').map stripCarriageReturn

/-- A block goes from its header up to the next header of any kind. -/
theorem extractBlock_eq {raw header : Str} {before body after : List Str} {kind : Kind}
    (hlen : (Str.toUtf8 raw).length ≤ maxTelemetryBytes)
    (hlines : blockLines raw = before ++ header :: (body ++ after))
    (hbefore : ∀ l ∈ before, classify l ≠ some kind) (hheader : classify header = some kind)
    (hbody : ∀ l ∈ body, isBoundary l = false) (hafter : ∀ l ∈ after.head?, isBoundary l = true) :
    extractBlock raw kind = some (joined (header :: body)) := by
  have hstart : (before ++ header :: (body ++ after)).findIdx? (fun l => classify l = some kind) =
      some before.length := by
    have hnone : before.findIdx? (fun l => decide (classify l = some kind)) = none :=
      List.findIdx?_eq_none_iff.2 fun l hl => decide_eq_false (hbefore l hl)
    rw [List.findIdx?_append, hnone, List.findIdx?_cons, if_pos (by simpa using hheader)]
    simp
  have hnone : body.findIdx? isBoundary = none := List.findIdx?_eq_none_iff.2 hbody
  have hdrop : (before ++ header :: (body ++ after)).drop (before.length + 1) = body ++ after := by
    simp
  have hstop :
      ((body ++ after).findIdx? isBoundary).elim (before ++ header :: (body ++ after)).length
      (before.length + 1 + ·) = before.length + 1 + body.length := by
    rw [List.findIdx?_append, hnone]
    cases after with
    | nil =>
      simp only [List.append_nil, List.length_append, List.length_cons, List.findIdx?_nil,
        Option.map_none, Option.or_none, Option.elim_none]
      omega
    | cons l after =>
      rw [List.findIdx?_cons, if_pos (hafter l (by simp))]
      simp
  have htake :
      ((before ++ header :: (body ++ after)).take (before.length + 1 + body.length)).drop
        before.length =
      header :: body := by
    have hsplit : before ++ header :: (body ++ after) = (before ++ header :: body) ++ after := by
      simp
    rw [hsplit, List.take_left' (by simp; omega), List.drop_left]
  rw [extractBlock, if_neg (not_lt.2 hlen)]
  dsimp only
  rw [← blockLines, hlines, hstart, Option.bind_eq_bind, Option.bind_some, hdrop, hstop, htake]
  rfl

/-- A record that is no header neither begins a block nor ends one. -/
theorem classify_isRecordLine {l : Str} {w : Bytes} {ws : List Bytes}
    (h : IsRecordLine (Str.toUtf8 l) w ws) (hw : w ≠ ascii "vpnhide") :
    classify l = none ∧ isBoundary l = false := by
  constructor
  · rw [classify, h.significant, Option.bind_eq_bind, Option.bind_some]
    dsimp only
    rw [h.tokens, List.getElem?_cons_zero, guard, if_neg fun heq => hw (Option.some.inj heq)]
    rfl
  · rw [isBoundary, h.significant]
    simp [h.tokens, hw]

/-- Nor does a comment. -/
theorem classify_comment {blank text : Str} (hblank : ∀ c ∈ blank, c = ' ' ∨ c = '\t') :
    classify (blank ++ '#' :: text) = none ∧ isBoundary (blank ++ '#' :: text) = false := by
  have hnone : significant (Str.toUtf8 (blank ++ '#' :: text)) = none := by
    have hsep : ∀ c ∈ Str.toUtf8 blank, isSep c = true := by
      intro c hc
      obtain ⟨d, hd, hc⟩ := List.mem_flatMap.1 hc
      rcases hblank d hd with rfl | rfl
      · rw [List.mem_singleton.1 hc]
        decide
      · rw [List.mem_singleton.1 hc]
        decide
    have hhash : Str.toUtf8 ('#' :: text) = '#'.toUInt8 :: Str.toUtf8 text := rfl
    have hdrop :
        (Str.toUtf8 (blank ++ '#' :: text)).dropWhile isSep = '#'.toUInt8 :: Str.toUtf8 text := by
      rw [Str.toUtf8_append, List.dropWhile_append_of_pos hsep, hhash, List.dropWhile_cons,
        if_neg (by decide)]
    rw [significant, hdrop]
    dsimp only
    rw [if_pos rfl, ite_self]
  constructor
  · rw [classify, hnone]
    rfl
  · rw [isBoundary, hnone]
    rfl

theorem classify_blockLine {kind : Str} (hkind : Str.IsWord kind) :
    classify (blockLine kind) = kindOf (Str.toUtf8 kind) ∧ isBoundary (blockLine kind) = true := by
  have h := isRecordLine_blockLine hkind
  constructor
  · rw [classify, h.significant, Option.bind_eq_bind, Option.bind_some]
    dsimp only
    rw [h.tokens]
    rfl
  · rw [isBoundary, h.significant]
    simp [h.tokens]

/-! ## Reports -/

/-- A comment line, a status and the counters. -/
def report (banner : Str) (s : Status) (entries : List StatEntry) : Str :=
  banner ++ '\n' :: (formatStatus s ++ formatStats entries)

/-- A comment line. -/
def IsComment (l : Str) : Prop :=
  '\n' ∉ l ∧ ∃ blank text, (∀ c ∈ blank, c = ' ' ∨ c = '\t') ∧ l = blank ++ '#' :: text

section
variable {banner : Str} {s : Status} {entries : List StatEntry}

/-- The report is its banner and the lines of its two blocks. -/
theorem report_eq (banner : Str) (s : Status) (entries : List StatEntry) :
    report banner s entries = Str.unlines (banner :: (statusLines s ++ statsLines entries)) := by
  rw [report, formatStatus_eq, formatStats_eq, Str.unlines_cons, Str.unlines_append]

theorem mem_of_mem_statusLines {l : Str} (hl : l ∈ statusLines s) : ∀ c ∈ l, 0x20 ≤ c.toNat := by
  rw [statusLines_eq] at hl
  rcases List.mem_cons.1 hl with rfl | hl
  · exact fun c hc => (Str.mem_words (by decide) (isWord_blockWords (by decide)) hc).1
  · obtain ⟨f, hf, rfl⟩ := List.mem_map.1 hl
    exact fun c hc =>
      (Str.mem_words (isWord_statusFields hf).1
        (List.forall_mem_singleton.2 (isWord_hexText _)) hc).1

theorem mem_of_mem_statsLines {l : Str} (hl : l ∈ statsLines entries) :
    ∀ c ∈ l, 0x20 ≤ c.toNat := by
  rcases List.mem_cons.1 hl with rfl | hl
  · exact fun c hc => (Str.mem_words (by decide) (isWord_blockWords (by decide)) hc).1
  · obtain ⟨r, -, rfl⟩ := List.mem_map.1 hl
    exact fun c hc => (Str.mem_words (isWord_hexText _) (isWord_cells _) hc).1

theorem printable_lines {l : Str} (hl : l ∈ statusLines s ++ statsLines entries) :
    ∀ c ∈ l, 0x20 ≤ c.toNat :=
  (List.mem_append.1 hl).elim mem_of_mem_statusLines mem_of_mem_statsLines

theorem stripCarriageReturn_eq {l : Str} (h : ∀ c ∈ l, 0x20 ≤ c.toNat) :
    stripCarriageReturn l = l := by
  rw [stripCarriageReturn, if_neg]
  intro hlast
  exact absurd (h _ (List.mem_of_getLast? hlast)) (by decide)

/-- The report is split into the same lines again. -/
theorem blockLines_report (hbanner : '\n' ∉ banner) :
    blockLines (report banner s entries) =
      stripCarriageReturn banner :: (statusLines s ++ statsLines entries ++ [[]]) := by
  have hnl : ∀ l ∈ banner :: (statusLines s ++ statsLines entries), '\n' ∉ l := by
    refine List.forall_mem_cons.2 ⟨hbanner, fun l hl h => ?_⟩
    exact absurd (printable_lines hl _ h) (by decide)
  rw [blockLines, report_eq, Str.splitOn_unlines hnl, List.cons_append,
    List.map_cons, List.map_append]
  congr 2
  calc _ = (statusLines s ++ statsLines entries).map id :=
        List.map_congr_left fun l hl => stripCarriageReturn_eq (printable_lines hl)
    _ = statusLines s ++ statsLines entries := List.map_id _

/-- A comment is still one without its CR. -/
theorem IsComment.classify (h : IsComment banner) :
    Protocol.classify (stripCarriageReturn banner) = none ∧
      isBoundary (stripCarriageReturn banner) = false := by
  obtain ⟨-, blank, text, hblank, rfl⟩ := h
  rw [stripCarriageReturn]
  split_ifs with hcr
  · have hne : text ≠ [] := by
      rintro rfl
      simp at hcr
    have hdrop : (blank ++ '#' :: text).dropLast = blank ++ '#' :: text.dropLast := by
      rw [List.dropLast_append_of_ne_nil (List.cons_ne_nil _ _), List.dropLast_cons_of_ne_nil hne]
    rw [hdrop]
    exact classify_comment hblank
  · exact classify_comment hblank

/-- A line of a status body starts no other block. -/
theorem classify_statusBody {l : Str} (hl : l ∈ (statusFields s).map fieldLine) :
    Protocol.classify l = none ∧ isBoundary l = false := by
  obtain ⟨f, hf, rfl⟩ := List.mem_map.1 hl
  exact classify_isRecordLine (isRecordLine_fieldLine hf) (isWord_statusFields hf).2.2

/-- Nor does a line of a stats body. -/
theorem classify_statsBody {l : Str} (hl : l ∈ (runs entries).map rowLine ++ [[]]) :
    Protocol.classify l = none ∧ isBoundary l = false := by
  rcases List.mem_append.1 hl with hl | hl
  · obtain ⟨r, -, rfl⟩ := List.mem_map.1 hl
    refine classify_isRecordLine (isRecordLine_rowLine r) ?_
    rw [toUtf8_hexText]
    intro h
    exact absurd (List.cons.inj h).1 (by decide)
  · rw [List.mem_singleton.1 hl]
    exact ⟨rfl, rfl⟩

/-- The status is cut out without its last newline. -/
theorem extractBlock_status (hbanner : IsComment banner)
    (hlen : (Str.toUtf8 (report banner s entries)).length ≤ maxTelemetryBytes) :
    extractBlock (report banner s entries) .status = some (joined (statusLines s)) := by
  have hlines : blockLines (report banner s entries) = [stripCarriageReturn banner] ++
      blockLine statusWord :: ((statusFields s).map fieldLine ++ (statsLines entries ++ [[]])) := by
    rw [blockLines_report hbanner.1, statusLines_eq]
    simp
  refine extractBlock_eq hlen hlines ?_ ((classify_blockLine (by decide)).1.trans (by decide)) ?_ ?_
  · refine List.forall_mem_singleton.2 ?_
    rw [hbanner.classify.1]
    exact nofun
  · exact fun l hl => (classify_statusBody hl).2
  · intro l hl
    rw [statsLines, List.cons_append, List.head?_cons, Option.mem_some_iff] at hl
    rw [← hl]
    exact (classify_blockLine (by decide)).2

/-- The counters are the last block, and cut out as they were written. -/
theorem extractBlock_stats (hbanner : IsComment banner)
    (hlen : (Str.toUtf8 (report banner s entries)).length ≤ maxTelemetryBytes) :
    extractBlock (report banner s entries) .stats = some (formatStats entries) := by
  have hlines :
      blockLines (report banner s entries) = (stripCarriageReturn banner :: statusLines s) ++
      blockLine statsWord :: (((runs entries).map rowLine ++ [[]]) ++ []) := by
    rw [blockLines_report hbanner.1, statsLines]
    simp
  have hblock :
      formatStats entries =
        joined (blockLine statsWord :: ((runs entries).map rowLine ++ [[]])) := by
    rw [formatStats_eq, statsLines, joined, ← List.cons_append, Str.intercalate_append_nil]
  rw [hblock]
  refine extractBlock_eq hlen hlines ?_ ((classify_blockLine (by decide)).1.trans (by decide)) ?_ ?_
  · rw [statusLines_eq]
    refine List.forall_mem_cons.2 ⟨?_, List.forall_mem_cons.2 ⟨?_, fun l hl => ?_⟩⟩
    · rw [hbanner.classify.1]
      exact nofun
    · rw [(classify_blockLine (by decide)).1]
      decide
    · rw [(classify_statusBody hl).1]
      exact nofun
  · exact fun l hl => (classify_statsBody hl).2
  · exact nofun

/-- The strict reader passes over all that precedes the counters. -/
theorem foldlM_line_skip {ls : List Str} (h : ∀ l ∈ ls, l ≠ telemetryHeader "stats".toList) :
    ls.foldlM StatsState.line ⟨false, [], []⟩ = some ⟨false, [], []⟩ := by
  induction ls with
  | nil => rfl
  | cons l ls ih =>
    have hl : StatsState.line ⟨false, [], []⟩ l = some ⟨false, [], []⟩ := by
      rw [StatsState.line, if_neg (h l List.mem_cons_self), if_pos (by simp)]
    rw [List.foldlM_cons, hl, Option.bind_eq_bind, Option.bind_some]
    exact ih fun m hm => h m (List.mem_cons_of_mem _ hm)

theorem telemetryHeader_stats : telemetryHeader "stats".toList = blockLine statsWord := by decide

/-- No line before the counters is their header. -/
theorem ne_statsLine (hbanner : IsComment banner) :
    ∀ l ∈ stripCarriageReturn banner :: statusLines s, l ≠ telemetryHeader "stats".toList := by
  have hclassify : classify (blockLine statsWord) = kindOf (Str.toUtf8 statsWord) :=
    (classify_blockLine (by decide)).1
  rw [telemetryHeader_stats, statusLines_eq]
  refine List.forall_mem_cons.2 ⟨?_, List.forall_mem_cons.2 ⟨by decide, fun l hl => ?_⟩⟩
  · intro h
    have := hbanner.classify.1
    rw [h, hclassify] at this
    exact absurd this (by decide)
  · rintro rfl
    have := (classify_statusBody hl).1
    rw [hclassify] at this
    exact absurd this (by decide)

/-- The strict reader reads the counters that were written. -/
theorem parseStats_report (hbanner : IsComment banner) (hcount : ∀ e ∈ entries, e.count ≠ 0)
    (hnodup : (entries.map StatsState.key).Nodup) (hcells : entries.length ≤ maxStatsCells)
    (hlen : (Str.toUtf8 (report banner s entries)).length ≤ maxTelemetryBytes) :
    parseStats (Str.toUtf8 (report banner s entries)) = some entries := by
  have hlast : (Str.toUtf8 (report banner s entries)).getLast? = some '\n'.toUInt8 := by
    have hend : ∃ text, report banner s entries = text ++ ['\n'] := by
      obtain ⟨ls, l, h⟩ :=
        List.eq_nil_or_concat (statsLines entries) |>.resolve_left (List.cons_ne_nil _ _)
      refine ⟨banner ++ '\n' :: (formatStatus s ++ (Str.unlines ls ++ l)), ?_⟩
      rw [report, formatStats_eq, h, List.concat_eq_append, Str.unlines_append, Str.unlines_cons]
      simp [Str.unlines]
    obtain ⟨text, h⟩ := hend
    rw [h, Str.toUtf8_append]
    exact List.getLast?_concat
  have hlines : Str.lines (report banner s entries) =
      (stripCarriageReturn banner :: statusLines s) ++ statsLines entries := by
    rw [report_eq, Str.unlines_cons, Str.lines_cons_of_notMem hbanner.1,
      Str.lines_unlines fun l hl => printable_lines hl]
    rfl
  -- The banner and the status are skipped, and the header starts the counters.
  have hheader : StatsState.line ⟨false, [], []⟩ (blockLine statsWord) = some (.after []) := by
    rw [StatsState.line, if_pos telemetryHeader_stats.symm]
    rfl
  have hruns := flatMap_runs entries
  have hmem : ∀ r ∈ runs entries, ∀ e ∈ r.2, e ∈ entries := by
    intro r hr e he
    rw [← hruns]
    exact List.mem_flatMap.2 ⟨r, hr, he⟩
  have hrows : ((runs entries).map rowLine).foldlM StatsState.line (.after []) =
      some (.after ([] ++ (runs entries).flatMap (·.2))) :=
    StatsState.foldlM_line (fun r hr => mem_runs hr) (fun r hr e he => hcount e (hmem r hr e he))
      (by rwa [hruns]) (by rwa [hruns])
  rw [hruns, List.nil_append] at hrows
  have hall : (Str.lines (report banner s entries)).foldlM StatsState.line ⟨false, [], []⟩ =
      some (.after entries) := by
    rw [hlines, List.foldlM_append, foldlM_line_skip (ne_statsLine hbanner), Option.bind_eq_bind,
      Option.bind_some, statsLines, List.foldlM_cons, hheader, Option.bind_eq_bind,
      Option.bind_some, hrows]
  rw [parseStats, if_neg (by simp [hlen, hlast]), Str.fromUtf8_toUtf8, Option.bind_eq_bind,
    Option.bind_some, hall]
  rfl

end

end VpnHide.Protocol

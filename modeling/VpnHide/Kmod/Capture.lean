import Mathlib.Algebra.Group.Action.Defs
import Mathlib.Algebra.Order.BigOperators.Group.List
import VpnHide.Kmod.Stats
import VpnHide.Protocol.TelemetryRoundTrip

/-!
# Reading the counters under load

A read of `/proc/vpnhide_ctl` goes through records, at positions 0, 1, 2 and so on: the banner,
the status, the header of the counters, and one row of the table each. `ctl_seq_show` shows one
record; it copies the row under the lock of the table, which is not held between records.
`seq_file` may show a record again, if it did not fit, and keeps what was shown last.

So hits come in between. What is captured is consistent nevertheless: each uid once, all that
had a row when the read began, with counts between those at its beginning and at its end; and
the strict reader accepts it, and reads these counts (`capture_consistent`).
-/

namespace VpnHide.Kmod

open Lib Protocol

/-! ## Records -/

/-- The module, or the driver that is built in. -/
inductive Build
  | kmod
  | builtin
  deriving DecidableEq

/-- The line that a read begins with. -/
def readBanner : Str :=
  "# vpnhide v1 — a WRITE replaces ENTIRE state; this read is status+stats".toList

/-- The hooks that the module is built with. -/
def expectedHookMask (filesystemHiding : Bool) : UInt32 :=
  if filesystemHiding then kernelHookMask ||| hookBit .filesystemIfacePaths else kernelHookMask

/-- The status at a showing, from the hooks that are installed. -/
def ctlStatus (build : Build) (kver hooks : UInt32) (filesystemHiding : Bool) : Status :=
  match build with
  | .kmod =>
    let expectedHooks := expectedHookMask filesystemHiding
    ⟨0, kver, hooks, if hooks &&& expectedHooks = expectedHooks then 0 else 4⟩
  | .builtin => ⟨4, kver, hooks, 0⟩

/-- A counter of a row, as it is shown. -/
def countText (row : StatsRow) (slot : Fin kmodStatsHookCount) : Str :=
  if row.counts slot = 0 then []
  else ' ' :: hexText (kmodStatsHookId slot).id ++ ':' :: hexText (row.counts slot).toNat

/-- The line of a row. -/
def rowText (row : StatsRow) : Str :=
  hexText row.uid.toNat ++ (List.finRange kmodStatsHookCount).flatMap (countText row) ++ ['\n']

/-- What is shown at a position. `seq_printf` writes the status as `formatStatus` does. -/
def ctlSeqShow (t : Table) (status : Status) (item : ℕ) : Str :=
  if item = 0 then readBanner ++ ['\n']
  else if item = 1 then formatStatus status
  else if item = 2 then telemetryHeader "stats".toList ++ ['\n']
  else (t.rows[item - 3]?).elim [] rowText

/-! ## Reads -/

/-- What happens: a hit, a showing of the record that the read is at, or its going on. -/
inductive Event
  | hit (hit : Hit)
  | showing (hooks : UInt32) (filesystemHiding : Bool)
  | next

/-- A read: where it is, what was last shown there, and what it has got so far. -/
structure Reading where
  table : Table
  pos : ℕ
  shown : Option Str
  text : Str

/-- The positions at which there may be a record: `ctl_seq_start` ends the read after them. -/
def ctlSeqEnd : ℕ := 3 + maxTargetUids

namespace Reading

variable (build : Build) (kver : UInt32)

/-- A reading that begins. -/
def start (t : Table) : Reading := ⟨t, 0, none, []⟩

/-- One step of a reading: a hit, or a part of the text. -/
def step (r : Reading) : Event → Reading
  | .hit hit => { r with table := r.table.recordHookHit hit }
  | .showing hooks filesystemHiding =>
    if ctlSeqEnd ≤ r.pos then r
    else { r with shown := some (ctlSeqShow r.table
      (ctlStatus build kver hooks filesystemHiding) r.pos) }
  | .next =>
    match r.shown with
    | none => r
    | some text => { r with pos := r.pos + 1, shown := none, text := r.text ++ text }

/-- A read that begins after some hits. -/
def run (hits : List Hit) (events : List Event) : Reading :=
  events.foldl (step build kver) (start (.after hits))

end Reading

/-- The hits among some events. -/
def hitsOf (events : List Event) : List Hit :=
  events.filterMap fun e => match e with
    | .hit hit => some hit
    | _ => none

/-- The counters of a row that are not zero. -/
def cells (row : StatsRow) : List StatEntry :=
  (List.finRange kmodStatsHookCount).filterMap fun slot =>
    if row.counts slot = 0 then none
    else some ⟨row.uid, (kmodStatsHookId slot).id.toUInt32, row.counts slot⟩

/-- The counter of a uid, zero if it has no row. -/
def Table.count (t : Table) (uid : UInt32) (slot : Fin kmodStatsHookCount) : UInt64 :=
  (t.rows.find? (·.uid = uid)).elim 0 (·.counts slot)

/-! ## Rows of text -/

/-- The line of a row, cell by cell. -/
theorem rowText_eq (row : StatsRow) :
    rowText row = hexText row.uid.toNat ++ (cells row).flatMap (fun e => ' ' :: statCell e) ++
      ['\n'] := by
  have hcells : ∀ slots : List (Fin kmodStatsHookCount), slots.flatMap (countText row) =
      (slots.filterMap fun slot => if row.counts slot = 0 then none
        else some (⟨row.uid, (kmodStatsHookId slot).id.toUInt32, row.counts slot⟩ :
          StatEntry)).flatMap
          fun e => ' ' :: statCell e := by
    intro slots
    induction slots with
    | nil => rfl
    | cons slot slots ih =>
      rw [List.flatMap_cons, List.filterMap_cons, countText]
      by_cases hzero : row.counts slot = 0
      · rw [if_pos hzero, if_pos hzero, ih]
        rfl
      · have hid : (kmodStatsHookId slot).id.toUInt32.toNat = (kmodStatsHookId slot).id := by
          generalize kmodStatsHookId slot = hook
          cases hook <;> rfl
        rw [if_neg hzero, if_neg hzero, ih]
        dsimp only
        rw [List.flatMap_cons, statCell, hid]
        rfl
  rw [rowText, hcells, cells]

theorem uid_of_mem_cells {row : StatsRow} {e : StatEntry} (he : e ∈ cells row) :
    e.uid = row.uid := by
  obtain ⟨slot, -, h⟩ := List.mem_filterMap.1 he
  split_ifs at h
  rw [← Option.some.inj h]

/-- A row with a counter has a cell. -/
theorem cells_ne_nil {row : StatsRow} (h : ∃ s, row.counts s ≠ 0) : cells row ≠ [] := by
  obtain ⟨s, hs⟩ := h
  exact List.ne_nil_of_mem (List.mem_filterMap.2 ⟨s, List.mem_finRange s, if_neg hs⟩)

theorem length_cells_le (row : StatsRow) : (cells row).length ≤ kmodStatsHookCount :=
  (List.length_filterMap_le _ _).trans (by simp)

/-- Rows of distinct uids are written one after another. -/
theorem statRows_cells {rows : List StatsRow} (hne : ∀ row ∈ rows, cells row ≠ [])
    (hnodup : (rows.map StatsRow.uid).Nodup) :
    statRows (rows.flatMap cells) = rows.flatMap rowText := by
  induction rows with
  | nil => rw [List.flatMap_nil, statRows, List.flatMap_nil]
  | cons row rows ih =>
    obtain ⟨hrow, hrows⟩ := List.forall_mem_cons.1 hne
    rw [List.map_cons, List.nodup_cons] at hnodup
    obtain ⟨e, es, hcells⟩ := List.exists_cons_of_ne_nil hrow
    have huid : ∀ x ∈ e :: es, x.uid = row.uid := fun x hx => uid_of_mem_cells (hcells ▸ hx)
    obtain ⟨he, hes⟩ := List.forall_mem_cons.1 huid
    -- The entries of the rows after this one have other uids.
    have hother : ∀ x ∈ (rows.flatMap cells).head?, ¬(x.uid == e.uid) = true := by
      intro x hx heq
      obtain ⟨row', hrow', hx'⟩ := List.mem_flatMap.1 (List.mem_of_mem_head? hx)
      rw [beq_iff_eq, uid_of_mem_cells hx', he] at heq
      exact hnodup.1 (heq ▸ List.mem_map_of_mem hrow')
    have hsame : sameUid e.uid (es ++ rows.flatMap cells) = (es, rows.flatMap cells) := by
      have hall : ∀ x ∈ es, (x.uid == e.uid) = true := by
        intro x hx
        rw [beq_iff_eq, hes x hx, he]
      have hrest : (rows.flatMap cells).takeWhile (·.uid == e.uid) = [] ∧
          (rows.flatMap cells).dropWhile (·.uid == e.uid) = rows.flatMap cells := by
        cases hflat : rows.flatMap cells with
        | nil => exact ⟨rfl, rfl⟩
        | cons x xs =>
          have hx := hother x (by rw [hflat]; rfl)
          exact ⟨List.takeWhile_cons_of_neg hx, List.dropWhile_cons_of_neg hx⟩
      rw [sameUid, List.takeWhile_append_of_pos hall, List.dropWhile_append_of_pos hall, hrest.1,
        hrest.2, List.append_nil]
    rw [List.flatMap_cons, List.flatMap_cons, hcells, List.cons_append, statRows, hsame]
    dsimp only
    rw [ih hrows hnodup.2, rowText_eq, hcells, he]
    simp

/-- A number has few digits. -/
theorem length_hexText {n k : ℕ} (hk : 0 < k) (hn : n < 16 ^ k) : (hexText n).length ≤ k + 2 :=
  Nat.add_le_add_right (length_toDigits_le (by decide) hk hn) 2

/-- A row is short. -/
theorem length_rowText (row : StatsRow) : (rowText row).length ≤ 299 := by
  have huid : (hexText row.uid.toNat).length ≤ 10 := length_hexText (by decide) row.uid.toNat_lt
  have hcount : ∀ slot, (countText row slot).length ≤ 24 := by
    intro slot
    have hid : (hexText (kmodStatsHookId slot).id).length ≤ 4 := by
      refine length_hexText (by decide) ?_
      generalize kmodStatsHookId slot = hook
      cases hook <;> decide
    have hvalue : (hexText (row.counts slot).toNat).length ≤ 18 :=
      length_hexText (by decide) (row.counts slot).toNat_lt
    rw [countText]
    split_ifs
    · exact Nat.zero_le _
    · simp only [List.cons_append, List.length_cons, List.length_append]
      omega
  have hsum : ((List.finRange kmodStatsHookCount).flatMap (countText row)).length ≤ 12 * 24 := by
    rw [List.length_flatMap]
    refine (List.sum_le_card_nsmul _ 24 ?_).trans ?_
    · intro n hn
      obtain ⟨slot, -, rfl⟩ := List.mem_map.1 hn
      exact hcount slot
    · rw [List.length_map, List.length_finRange, smul_eq_mul]
  rw [rowText, List.length_append, List.length_append, List.length_singleton]
  omega

/-- A status is short. -/
theorem length_formatStatus (s : Status) : (formatStatus s).length ≤ 100 := by
  have hword : ∀ n : UInt32, (hexText n.toNat).length ≤ 10 :=
    fun n => length_hexText (by decide) n.toNat_lt
  have h₁ := hword s.backend
  have h₂ := hword s.kver
  have h₃ := hword s.hooks
  have h₄ := hword s.error
  have hheader : (telemetryHeader "status".toList).length = 16 := by decide
  have htexts : "\nbackend ".toList.length = 9 ∧ "\nkver ".toList.length = 6 ∧
      "\nhooks ".toList.length = 7 ∧ "\nerror ".toList.length = 7 := by decide
  simp only [formatStatus, List.length_append, List.length_singleton, hheader, htexts]
  omega

/-- Rows are short. -/
theorem length_flatMap_rowText (rows : List StatsRow) :
    (rows.flatMap rowText).length ≤ rows.length * 299 := by
  rw [List.length_flatMap]
  refine (List.sum_le_card_nsmul _ 299 ?_).trans ?_
  · intro n hn
    obtain ⟨row, -, rfl⟩ := List.mem_map.1 hn
    exact length_rowText row
  · rw [List.length_map, smul_eq_mul]

/-! ## What is captured -/

/-- A capture: the banner, a status and rows. -/
def captured (status : Status) (rows : List StatsRow) : Str :=
  readBanner ++ '\n' ::
    (formatStatus status ++ (telemetryHeader "stats".toList ++ '\n' :: rows.flatMap rowText))

/-- Each counter is in one cell. -/
theorem nodup_keys_cells (row : StatsRow) : ((cells row).map StatsState.key).Nodup := by
  have hinj : ∀ slot slot' : Fin kmodStatsHookCount,
      (kmodStatsHookId slot).id.toUInt32 = (kmodStatsHookId slot').id.toUInt32 →
        slot = slot' := by decide
  rw [cells, List.map_filterMap]
  refine List.Nodup.filterMap (fun slot slot' key h h' => ?_) (List.nodup_finRange _)
  obtain ⟨e, he, rfl⟩ := Option.map_eq_some_iff.1 h
  obtain ⟨e', he', heq⟩ := Option.map_eq_some_iff.1 h'
  split_ifs at he he'
  obtain rfl := Option.some.inj he
  obtain rfl := Option.some.inj he'
  exact hinj slot slot' (Prod.ext_iff.1 heq).2.symm

/-- The strict reader reads what is captured of rows that are not empty, of distinct uids and
    not too many. -/
theorem parseStats_captured (status : Status) {rows : List StatsRow}
    (hne : ∀ row ∈ rows, cells row ≠ []) (hnodup : (rows.map StatsRow.uid).Nodup)
    (hlen : rows.length ≤ maxTargetUids) :
    parseStats (Str.toUtf8 (captured status rows)) = some (rows.flatMap cells) := by
  -- What is captured is a report, which is read under its four conditions.
  have hreport : captured status rows = report readBanner status (rows.flatMap cells) := by
    rw [captured, report, formatStats, statRows_cells hne hnodup]
  have hbanner : IsComment readBanner :=
    ⟨by decide, [], readBanner.tail, List.forall_mem_nil _, by decide⟩
  have h160 : rows.length ≤ 160 := hlen
  rw [hreport]
  refine parseStats_report hbanner (fun e he => ?_) ?_ ?_ ?_
  · obtain ⟨row, -, he⟩ := List.mem_flatMap.1 he
    obtain ⟨slot, -, he⟩ := List.mem_filterMap.1 he
    split_ifs at he with hzero
    rw [← Option.some.inj he]
    exact hzero
  · rw [List.map_flatMap, List.nodup_flatMap]
    refine ⟨fun row _ => nodup_keys_cells row, ?_⟩
    refine (List.pairwise_map.1 hnodup).imp fun {row row'} hdiff => ?_
    intro key hkey hkey'
    obtain ⟨e, he, rfl⟩ := List.mem_map.1 hkey
    obtain ⟨e', he', heq⟩ := List.mem_map.1 hkey'
    have huid : e'.uid = e.uid := (Prod.ext_iff.1 heq).1
    exact hdiff ((uid_of_mem_cells he).symm.trans (huid.symm.trans (uid_of_mem_cells he')))
  · have hsum : (rows.flatMap cells).length ≤ rows.length * 12 := by
      rw [List.length_flatMap]
      refine (List.sum_le_card_nsmul _ 12 ?_).trans ?_
      · intro n hn
        obtain ⟨row, -, rfl⟩ := List.mem_map.1 hn
        exact length_cells_le row
      · rw [List.length_map, smul_eq_mul]
    rw [maxStatsCells]
    omega
  · rw [← hreport]
    refine (Str.length_toUtf8_le _).trans ?_
    have hstatus := length_formatStatus status
    have hrows := length_flatMap_rowText rows
    have hhead : readBanner.length = 71 ∧ (telemetryHeader "stats".toList).length = 15 := by decide
    rw [captured, maxTelemetryBytes]
    simp only [List.length_append, List.length_cons, hhead]
    omega

/-! ## Whole reads -/

theorem hitsOf_concat_hit (events : List Event) (hit : Hit) :
    hitsOf (events ++ [.hit hit]) = hitsOf events ++ [hit] :=
  List.filterMap_append

/-- The hits of the first events are the first hits. -/
theorem hitsOf_mono {events events' : List Event} (h : events <+: events') :
    hitsOf events <+: hitsOf events' := by
  obtain ⟨more, rfl⟩ := h
  rw [hitsOf, hitsOf, List.filterMap_append]
  exact List.prefix_append _ _

namespace Reading

variable {build : Build} {kver : UInt32}

/-- One more event. -/
theorem run_concat (hits : List Hit) (events : List Event) (event : Event) :
    run build kver hits (events ++ [event]) = (run build kver hits events).step
      build kver event := by
  rw [run, List.foldl_append]
  rfl

/-- A read changes nothing in the table. -/
theorem table_run (hits : List Hit) (events : List Event) :
    (run build kver hits events).table = .after (hits ++ hitsOf events) := by
  induction events using List.reverseRecOn with
  | nil =>
    rw [hitsOf, List.filterMap_nil, List.append_nil]
    rfl
  | append_singleton events event ih =>
    rw [run_concat]
    cases event with
    | hit hit =>
      rw [hitsOf_concat_hit, ← List.append_assoc, Table.after_concat, ← ih]
      rfl
    | showing hooks filesystemHiding =>
      have hhits : hitsOf (events ++ [.showing hooks filesystemHiding]) = hitsOf events := by
        simp [hitsOf]
      rw [hhits, ← ih, step]
      split_ifs <;> rfl
    | next =>
      have hhits : hitsOf (events ++ [.next]) = hitsOf events := by simp [hitsOf]
      rw [hhits, ← ih, step]
      cases (run build kver hits events).shown <;> rfl

/-- A showing of the record at `pos`, when `seen` of the hits of a read have happened. -/
structure Showing where
  seen : List Hit
  status : Status

/-- What a showing shows. -/
def Showing.text (k : Showing) (hits : List Hit) (pos : ℕ) : Str :=
  ctlSeqShow (.after (hits ++ k.seen)) k.status pos

/-- What a read has got: each record as it was at some time since the read began. -/
structure Got (hits : List Hit) (events : List Event) (r : Reading) (ks : ℕ → Showing) : Prop where
  seen : ∀ p < r.pos, (ks p).seen <+: hitsOf events
  text : r.text = (List.range r.pos).flatMap fun p => (ks p).text hits p
  shown : ∀ text, r.shown = some text → ∃ k : Showing, k.seen <+: hitsOf events ∧
    text = k.text hits r.pos

/-- What a reading has got. -/
theorem got_run (hits : List Hit) (events : List Event) :
    ∃ ks, Got hits events (run build kver hits events) ks := by
  -- By the events: what is shown is kept when the reader asks for the next record.
  induction events using List.reverseRecOn with
  | nil => exact ⟨fun _ => ⟨[], ⟨0, 0, 0, 0⟩⟩, nofun, rfl, nofun⟩
  | append_singleton events event ih =>
    obtain ⟨ks, hgot⟩ := ih
    have hmore : ∀ {l : List Hit}, l <+: hitsOf events → l <+: hitsOf (events ++ [event]) :=
      fun h => h.trans (hitsOf_mono (List.prefix_append _ _))
    have htable := @table_run build kver hits events
    rw [run_concat]
    set r := run build kver hits events with hr
    cases event with
    | hit hit =>
      refine ⟨ks, fun p hp => hmore (hgot.seen p hp), hgot.text, fun text htext => ?_⟩
      obtain ⟨k, hk, hshow⟩ := hgot.shown text htext
      exact ⟨k, hmore hk, hshow⟩
    | showing hooks filesystemHiding =>
      rw [step]
      split_ifs
      · refine ⟨ks, fun p hp => hmore (hgot.seen p hp), hgot.text, fun text htext => ?_⟩
        obtain ⟨k, hk, hshow⟩ := hgot.shown text htext
        exact ⟨k, hmore hk, hshow⟩
      · refine ⟨ks, fun p hp => hmore (hgot.seen p hp), hgot.text, fun text htext => ?_⟩
        refine ⟨⟨hitsOf events, ctlStatus build kver hooks filesystemHiding⟩,
          hmore List.prefix_rfl, ?_⟩
        rw [← Option.some.inj htext, htable]
        rfl
    | next =>
      rw [step]
      cases hshown : r.shown with
      | none =>
        refine ⟨ks, fun p hp => hmore (hgot.seen p hp), hgot.text, fun text htext => ?_⟩
        rw [hshown] at htext
        exact absurd htext nofun
      | some text =>
        obtain ⟨k, hk, rfl⟩ := hgot.shown text hshown
        -- The records before it stay as they were shown.
        have hold : ∀ p < r.pos, Function.update ks r.pos k p = ks p :=
          fun p hp => Function.update_of_ne (Nat.ne_of_lt hp) _ _
        refine ⟨Function.update ks r.pos k, fun p hp => ?_, ?_, nofun⟩
        · rcases Nat.lt_succ_iff_lt_or_eq.1 hp with hlt | heq
          · rw [hold p hlt]
            exact hmore (hgot.seen p hlt)
          · rw [heq, Function.update_self]
            exact hmore hk
        · dsimp only
          rw [List.range_succ, List.flatMap_append, hgot.text, List.flatMap_singleton,
            Function.update_self]
          refine congrArg (· ++ k.text hits r.pos) (List.flatMap_congr fun p hp => ?_)
          rw [hold p (List.mem_range.1 hp)]

/-- The rows that are shown at the positions after the header. -/
def shownRows (hits : List Hit) (ks : ℕ → Showing) : List StatsRow :=
  (List.range maxTargetUids).filterMap fun i => (Table.after (hits ++ (ks (3 + i)).seen)).rows[i]?

/-- A read that has come to its end has got a capture. -/
theorem Got.captured {hits : List Hit} {events : List Event} {r : Reading} {ks : ℕ → Showing}
    (h : Got hits events r ks) (hpos : r.pos = ctlSeqEnd) :
    r.text = captured (ks 1).status (shownRows hits ks) := by
  have hrows : ((List.range maxTargetUids).map (3 + ·)).flatMap (fun p => (ks p).text hits p) =
      (shownRows hits ks).flatMap rowText := by
    rw [shownRows, List.flatMap_map]
    induction List.range maxTargetUids with
    | nil => rfl
    | cons i is ih =>
      have hshow : (ks (3 + i)).text hits (3 + i) =
          ((Table.after (hits ++ (ks (3 + i)).seen)).rows[i]?).elim [] rowText := by
        rw [Showing.text, ctlSeqShow, if_neg (by omega), if_neg (by omega), if_neg (by omega),
          Nat.add_sub_cancel_left]
      rw [List.flatMap_cons, List.filterMap_cons, ih, hshow]
      cases (Table.after (hits ++ (ks (3 + i)).seen)).rows[i]? <;> rfl
  rw [h.text, hpos, ctlSeqEnd, List.range_add, List.flatMap_append, hrows]
  have hhead : (List.range 3).flatMap (fun p => (ks p).text hits p) =
      (readBanner ++ ['\n']) ++
        (formatStatus (ks 1).status ++ (telemetryHeader "stats".toList ++ ['\n'])) := by
    have hrange : List.range 3 = [0, 1, 2] := by decide
    rw [hrange]
    simp only [List.flatMap_cons, List.flatMap_nil, List.append_nil]
    rfl
  rw [hhead, Kmod.captured]
  simp

end Reading

namespace Table

variable {t t' : Table}

/-- Uids that have a row keep it. -/
theorem Grows.uids (h : t.Grows t') : t.rows.map StatsRow.uid <+: t'.rows.map StatsRow.uid := by
  rw [List.prefix_iff_getElem?]
  intro i hi
  rw [List.length_map] at hi
  obtain ⟨row', hrow', huid, -⟩ := h i t.rows[i] (List.getElem?_eq_getElem hi)
  rw [List.getElem?_map, hrow', List.getElem_map, ← huid]
  rfl

/-- A uid has its row at one place. -/
theorem Valid.eq_of_uid (h : t.Valid) {i j : ℕ} {row row' : StatsRow} (hi : t.rows[i]? = some row)
    (hj : t.rows[j]? = some row') (huid : row.uid = row'.uid) : i = j := by
  have hlt : i < (t.rows.map StatsRow.uid).length := by
    rw [List.length_map]
    exact (List.getElem?_eq_some_iff.1 hi).1
  refine (List.getElem?_inj hlt h.nodup).1 ?_
  rw [List.getElem?_map, List.getElem?_map, hi, hj, Option.map_some, Option.map_some, huid]

/-- A counter that is valid. -/
theorem Valid.count_eq (h : t.Valid) {i : ℕ} {row : StatsRow} (hi : t.rows[i]? = some row)
    (slot : Fin kmodStatsHookCount) : t.count row.uid slot = row.counts slot := by
  have hsome : (t.rows.find? (·.uid = row.uid)).isSome := by
    rw [List.find?_isSome]
    exact ⟨row, List.mem_of_getElem? hi, by simp⟩
  obtain ⟨found, hfound⟩ := Option.isSome_iff_exists.1 hsome
  obtain ⟨j, hj⟩ := List.mem_iff_getElem?.1 (List.mem_of_find?_eq_some hfound)
  have huid : found.uid = row.uid := by simpa using List.find?_some hfound
  obtain rfl := h.eq_of_uid hj hi huid
  rw [count, hfound]
  exact congrArg (StatsRow.counts · slot) (Option.some.inj (hj.symm.trans hi))

end Table

namespace Reading

variable {build : Build} {kver : UInt32} {hits : List Hit} {events : List Event} {ks : ℕ → Showing}

/-- A row that is shown is one of the table at that time. -/
theorem mem_shownRows {row : StatsRow} :
    row ∈ shownRows hits ks ↔
      ∃ i < maxTargetUids, (Table.after (hits ++ (ks (3 + i)).seen)).rows[i]? = some row := by
  rw [shownRows, List.mem_filterMap]
  simp only [List.mem_range]

section Shown

variable (hfew : Table.Few (hits ++ hitsOf events))
  (hseen : ∀ p < ctlSeqEnd, (ks p).seen <+: hitsOf events)

include hfew hseen

/-- The times of the showings lie between the beginning of a read and its end. -/
theorem grows_seen {i : ℕ} (hi : i < maxTargetUids) :
    (Table.after hits).Grows (.after (hits ++ (ks (3 + i)).seen)) ∧
      (Table.after (hits ++ (ks (3 + i)).seen)).Grows (.after (hits ++ hitsOf events)) ∧
      Table.Few (hits ++ (ks (3 + i)).seen) := by
  obtain ⟨more, hmore⟩ := hseen (3 + i) (by rw [ctlSeqEnd]; omega)
  rw [← hmore, ← List.append_assoc] at hfew ⊢
  exact ⟨Table.grows_after hfew.of_append, Table.grows_after hfew, hfew.of_append⟩

/-- Each uid is shown once. -/
theorem nodup_shownRows : ((shownRows hits ks).map StatsRow.uid).Nodup := by
  have hvalid := Table.valid_after (hits ++ hitsOf events)
  rw [shownRows, List.map_filterMap, List.Nodup, List.pairwise_filterMap]
  refine List.nodup_range.imp_of_mem fun {i j} hi hj hne uid huid uid' huid' heq => hne ?_
  obtain ⟨row, hrow, rfl⟩ := Option.map_eq_some_iff.1 huid
  obtain ⟨row', hrow', rfl⟩ := Option.map_eq_some_iff.1 huid'
  -- Both rows are still there at the end, with their uids.
  obtain ⟨last, hlast, hu, -⟩ := (grows_seen hfew hseen (List.mem_range.1 hi)).2.1 i row hrow
  obtain ⟨last', hlast', hu', -⟩ := (grows_seen hfew hseen (List.mem_range.1 hj)).2.1 j row' hrow'
  exact hvalid.eq_of_uid hlast hlast' (hu.trans (heq.trans hu'.symm))

/-- Every uid that had a row is captured. -/
theorem mem_uids_shownRows {row : StatsRow} (hrow : row ∈ (Table.after hits).rows) :
    row.uid ∈ (shownRows hits ks).map StatsRow.uid := by
  obtain ⟨i, hi⟩ := List.mem_iff_getElem?.1 hrow
  have hlt : i < maxTargetUids :=
    (List.getElem?_eq_some_iff.1 hi).1.trans_le (Table.valid_after hits).length_le
  obtain ⟨row', hrow', huid, -⟩ := (grows_seen hfew hseen hlt).1 i row hi
  exact List.mem_map.2 ⟨row', mem_shownRows.2 ⟨i, hlt, hrow'⟩, huid⟩

/-- A count is captured as it was at some time of the read. -/
theorem count_shownRows {row : StatsRow} (hrow : row ∈ shownRows hits ks)
    (slot : Fin kmodStatsHookCount) :
    (Table.after hits).count row.uid slot ≤ row.counts slot ∧
      row.counts slot ≤ (Table.after (hits ++ hitsOf events)).count row.uid slot := by
  obtain ⟨i, hi, hrow⟩ := mem_shownRows.1 hrow
  obtain ⟨hbefore, hafter, -⟩ := grows_seen hfew hseen hi
  constructor
  · rw [Table.count]
    cases hfound : (Table.after hits).rows.find? (·.uid = row.uid) with
    | none => exact UInt64.zero_le
    | some first =>
      obtain ⟨j, hj⟩ := List.mem_iff_getElem?.1 (List.mem_of_find?_eq_some hfound)
      have huid : first.uid = row.uid := by simpa using List.find?_some hfound
      obtain ⟨later, hlater, hu, hle⟩ := hbefore j first hj
      obtain rfl := (Table.valid_after _).eq_of_uid hlater hrow (hu.trans huid)
      rw [← Option.some.inj (hlater.symm.trans hrow)]
      exact hle slot
  · obtain ⟨last, hlast, hu, hle⟩ := hafter i row hrow
    rw [← hu, (Table.valid_after _).count_eq hlast]
    exact hle slot

/-- Every row that is shown has a cell. -/
theorem cells_shownRows : ∀ row ∈ shownRows hits ks, cells row ≠ [] := by
  intro row hrow
  obtain ⟨i, hi, hrow⟩ := mem_shownRows.1 hrow
  exact cells_ne_nil (Table.exists_count_ne_zero (grows_seen hfew hseen hi).2.2 i row hrow)

end Shown

end Reading

/-- The table is right at any time, and its rows keep their uids; a read that comes to its end
    has got each uid once, those that had a row when it began among them, with counts between
    those at its beginning and at its end; and the strict reader reads these counts. -/
theorem capture_consistent (build : Build) (kver : UInt32) (hits : List Hit) (events : List Event)
    (hfew : Table.Few (hits ++ hitsOf events)) :
    (∀ es, es <+: events → (Reading.run build kver hits es).table.Valid ∧
        ((Reading.run build kver hits es).table.rows.map StatsRow.uid).Nodup ∧
        (Reading.run build kver hits es).table.rows.map StatsRow.uid <+:
          (Reading.run build kver hits events).table.rows.map StatsRow.uid) ∧
      ((Reading.run build kver hits events).pos = ctlSeqEnd → ∃ status rows,
        (Reading.run build kver hits events).text = captured status rows ∧
        (rows.map StatsRow.uid).Nodup ∧
        (∀ row ∈ (Table.after hits).rows, row.uid ∈ rows.map StatsRow.uid) ∧
        (∀ row ∈ rows, ∀ slot, (Table.after hits).count row.uid slot ≤ row.counts slot ∧
          row.counts slot ≤ (Reading.run build kver hits events).table.count row.uid slot) ∧
        parseStats (Str.toUtf8 (Reading.run build kver hits events).text) =
          some (rows.flatMap cells)) := by
  constructor
  · -- The table after some events has the rows of fewer events before those of more.
    intro es hes
    have hvalid := Table.valid_after (hits ++ hitsOf es)
    rw [Reading.table_run, Reading.table_run]
    refine ⟨hvalid, hvalid.nodup, ?_⟩
    obtain ⟨more, hmore⟩ := hitsOf_mono hes
    rw [← hmore, ← List.append_assoc] at hfew ⊢
    exact (Table.grows_after hfew).uids
  · intro hend
    obtain ⟨ks, hgot⟩ := @Reading.got_run build kver hits events
    -- Each record was shown after some of the hits, and the reading has passed them all.
    have hseen : ∀ p < ctlSeqEnd, (ks p).seen <+: hitsOf events := hend ▸ hgot.seen
    have hnodup := Reading.nodup_shownRows hfew hseen
    have hlen : (Reading.shownRows hits ks).length ≤ maxTargetUids :=
      (List.length_filterMap_le _ _).trans (by rw [List.length_range])
    have htext := hgot.captured hend
    refine ⟨(ks 1).status, Reading.shownRows hits ks, htext, hnodup,
      fun row hrow => Reading.mem_uids_shownRows hfew hseen hrow, fun row hrow slot => ?_, ?_⟩
    · rw [Reading.table_run]
      exact Reading.count_shownRows hfew hseen hrow slot
    · rw [htext]
      -- The rows that were shown are few and distinct, so that the strict reader takes them.
      exact parseStats_captured _ (Reading.cells_shownRows hfew hseen) hnodup hlen

/-- Each record is shown once. -/
def showAll (n : ℕ) : List Event := (List.replicate n [.showing 0 false, .next]).flatten

/-- A reading that has not overflowed shows all. -/
theorem pos_showAll (build : Build) (kver : UInt32) (hits : List Hit) (events : List Event) {n : ℕ}
    (h : (Reading.run build kver hits events).pos + n ≤ ctlSeqEnd) :
    (Reading.run build kver hits (events ++ showAll n)).pos =
      (Reading.run build kver hits events).pos + n := by
  induction n with
  | zero =>
    rw [showAll, List.replicate_zero, List.flatten_nil, List.append_nil]
    rfl
  | succ n ih =>
    have hsplit :
        events ++ showAll (n + 1) = (events ++ showAll n ++ [.showing 0 false]) ++ [.next] := by
      rw [showAll, List.replicate_succ', List.flatten_append, ← showAll]
      simp
    have hpos := ih (by omega)
    rw [hsplit, Reading.run_concat, Reading.run_concat]
    rw [Reading.step, if_neg (by omega), Reading.step]
    dsimp only
    omega

/-- A read during which another uid has its first hit. -/
theorem capture_consistent_two :
    ∃ rows : List StatsRow, parseStats (Str.toUtf8 (Reading.run .kmod 0 [(10001, .devIoctl)]
        (.hit (10002, .sockIoctl) :: showAll ctlSeqEnd)).text) = some (rows.flatMap cells) ∧
      (rows.map StatsRow.uid).Nodup := by
  have hfew : Table.Few
      ([(10001, .devIoctl)] ++ hitsOf (.hit (10002, .sockIoctl) :: showAll ctlSeqEnd)) := by
    have hnone : hitsOf (showAll ctlSeqEnd) = [] := by
      rw [hitsOf, List.filterMap_eq_nil_iff]
      intro e he
      obtain ⟨l, hl, he⟩ := List.mem_flatten.1 he
      rw [List.eq_of_mem_replicate hl] at he
      rcases List.mem_cons.1 he with rfl | he
      · rfl
      · rw [List.mem_singleton.1 he]
    have hhits : hitsOf (.hit (10002, .sockIoctl) :: showAll ctlSeqEnd) = [(10002, .sockIoctl)] :=
      congrArg ((10002, HookId.sockIoctl) :: ·) hnone
    rw [hhits]
    intro hit
    exact List.count_le_length.trans_lt (by decide)
  have hend : (Reading.run .kmod 0 [(10001, .devIoctl)]
      (.hit (10002, .sockIoctl) :: showAll ctlSeqEnd)).pos =
      ctlSeqEnd :=
    (pos_showAll .kmod 0 [(10001, .devIoctl)] [.hit (10002, .sockIoctl)] (by rfl)).trans
    (Nat.zero_add _)
  obtain ⟨status, rows, -, hnodup, -, -, hparse⟩ := (capture_consistent .kmod 0 _ _ hfew).2 hend
  exact ⟨rows, hparse, hnodup⟩

end VpnHide.Kmod

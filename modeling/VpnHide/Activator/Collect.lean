import VpnHide.Activator.StatsPage

/-!
# Collecting stats pages

Whatever the reader replies, the activator asks it for at most `maxKpmStatsPages` pages, with
cursors that increase, and the rows that it collects have increasing uids and no zero counter
(`collect_pages`).

The reader may keep a state (`FnMut` in `kpm.rs`). `collectReads` is the loop of
`collectFrom`, with such a reader and with a record of what was asked (`collectReads_stateless`).
-/

namespace VpnHide.Activator

open Lib Protocol

/-! ## The loop and what it asks -/

/-- A call of the reader. -/
structure PageRead where
  cursor : UInt32
  request : Str
  reply : Except String Str

/-- The loop over the pages, of which some are left to ask for: the calls, and the result. -/
def collectReads {σ : Type*} (read : σ → Str → Except String Str × σ) :
    ℕ → ℕ → UInt32 → Str → σ → List PageRead × Except String Str
  | 0, _, _, _, _ => ([], .error ("KPM stats exceeded " ++ toString maxKpmStatsPages ++ " pages"))
  | left + 1, pageIndex, cursor, aggregate, s =>
    let request := statsRequest pageIndex cursor aggregate
    let (reply, s) := read s request
    let (reads, result) : List PageRead × Except String Str :=
      match reply with
      | .error e => ([], .error e)
      | .ok text =>
        match parseKpmStatsPage text cursor with
        | .error e => ([], .error e)
        | .ok none =>
          ([], if pageIndex ≠ 0 then .error "KPM stopped paginating stats mid-read"
            else normalizeKpmReply request text)
        | .ok (some page) =>
          let aggregate := aggregate ++ page.rows.flatMap (· ++ ['\n'])
          match page.next with
          | .done => ([], .ok aggregate)
          | .cursor next => collectReads read left (pageIndex + 1) next aggregate s
    (⟨cursor, request, reply⟩ :: reads, result)

/-- The text before the rows. -/
def aggregateHeader : Str := statsHeaderText ++ ['\n']

/-- The collection of all pages from the first cursor on, which gives up after `maxKpmStatsPages`
    reads. -/
def collectPages {σ : Type*} (read : σ → Str → Except String Str × σ) (s : σ) :
    List PageRead × Except String Str :=
  collectReads read maxKpmStatsPages 0 0 aggregateHeader s

theorem collectReads_stateless {σ : Type*} (read : Str → Except String Str) (left pageIndex : ℕ)
    (cursor : UInt32) (aggregate : Str) (s : σ) :
    (collectReads (fun s request => (read request, s)) left pageIndex cursor aggregate s).2 =
      collectFrom read left pageIndex cursor aggregate := by
  induction left generalizing pageIndex cursor aggregate with
  | zero => rfl
  | succ left ih =>
    rw [collectReads, collectFrom]
    simp only [bind, Except.bind]
    cases read (statsRequest pageIndex cursor aggregate) with
    | error e => rfl
    | ok text =>
      simp only
      cases parseKpmStatsPage text cursor with
      | error e => rfl
      | ok page =>
        cases page with
        | none => rfl
        | some page =>
          simp only
          cases page.next with
          | done => rfl
          | cursor next => exact ih ..

/-! ## Pages that are accepted -/

/-- A row as it is meant to be: a uid, and counters none of which is zero. -/
structure SparseRow (row : Str) (uid : UInt32) : Prop where
  uid : (Str.splitWhitespace row).head?.bind parsePrefixedHexU32 = some uid
  counted : 2 ≤ (Str.splitWhitespace row).length
  nonzero : ∀ field ∈ (Str.splitWhitespace row).drop 1, ∃ hook count h c, Str.splitOnce ':' field =
    some (hook, count) ∧ parsePrefixedHexU32 hook = some h ∧
      parsePrefixedHexU64 count = some c ∧ c ≠ 0

/-- A cell that is accepted, read. -/
theorem checkField_ok {field : Str} (h : checkField field = .ok ()) :
    ∃ hook count x c, Str.splitOnce ':' field = some (hook, count) ∧
      parsePrefixedHexU32 hook = some x ∧ parsePrefixedHexU64 count = some c ∧ c ≠ 0 := by
  rw [checkField] at h
  split at h
  · cases h
  · next hook count hsplit =>
    obtain ⟨x, hhook, h⟩ := ok_of_bind h
    obtain ⟨c, hcount, h⟩ := ok_of_bind h
    refine ⟨hook, count, x, c, hsplit, okOr_eq_ok hhook, okOr_eq_ok hcount, fun hzero => ?_⟩
    rw [if_pos hzero] at h
    cases h

/-- If all cells are accepted, each one is. -/
theorem forM_checkField_ok {fields : List Str} (h : forM fields checkField = Except.ok ()) :
    ∀ field ∈ fields, checkField field = .ok () := by
  induction fields with
  | nil => exact fun field hfield => absurd hfield List.not_mem_nil
  | cons first fields ih =>
    rw [List.forM_cons] at h
    obtain ⟨⟨⟩, hfirst, hrest⟩ := ok_of_bind h
    intro field hfield
    obtain rfl | hfield := List.mem_cons.1 hfield
    · exact hfirst
    · exact ih hrest field hfield

/-- Rows with their uids, which increase from `previous` on; the last one is `last`. -/
inductive Ascending : UInt32 → List (Str × UInt32) → UInt32 → Prop
  | nil (uid : UInt32) : Ascending uid [] uid
  | cons {previous last uid : UInt32} {row : Str} {rows : List (Str × UInt32)}
      (hrow : SparseRow row uid)
      (hlt : previous < uid) (hrows : Ascending uid rows last) :
        Ascending previous ((row, uid) :: rows) last

namespace Ascending

variable {a b c : UInt32} {rows rows' : List (Str × UInt32)}

/-- Rows that go on where others end. -/
theorem append (h : Ascending a rows b) (h' : Ascending b rows' c) :
    Ascending a (rows ++ rows') c := by
  induction h with
  | nil => exact h'
  | cons hrow hlt _ ih => exact .cons hrow hlt (ih h')

/-- Rows past a cursor are past a smaller one. -/
theorem from_le (h : Ascending b rows c) (hle : a ≤ b) : ∃ d, Ascending a rows d := by
  cases h with
  | nil => exact ⟨a, .nil a⟩
  | cons hrow hlt hrows => exact ⟨c, .cons hrow (UInt32.lt_of_le_of_lt hle hlt) hrows⟩

/-- The uids only grow. -/
theorem le (h : Ascending a rows b) : a ≤ b := by
  induction h with
  | nil => exact UInt32.le_refl _
  | cons _ hlt _ ih => exact UInt32.le_trans (UInt32.le_of_lt hlt) ih

/-- Each row is one that the page may have, and its uid is within the bounds. -/
theorem bounded (h : Ascending a rows b) :
    ∀ row ∈ rows, SparseRow row.1 row.2 ∧ a < row.2 ∧ row.2 ≤ b := by
  induction h with
  | nil => exact fun row hrow => absurd hrow List.not_mem_nil
  | cons hrow hlt hrows ih =>
    intro row hmem
    obtain rfl | hmem := List.mem_cons.1 hmem
    · exact ⟨hrow, hlt, hrows.le⟩
    · obtain ⟨hsparse, hgt, hle⟩ := ih row hmem
      exact ⟨hsparse, UInt32.lt_trans hlt hgt, hle⟩

theorem pairwise (h : Ascending a rows b) : (rows.map Prod.snd).Pairwise (· < ·) := by
  induction h with
  | nil => exact .nil
  | cons _ _ hrows ih =>
    refine List.pairwise_cons.2 ⟨fun uid huid => ?_, ih⟩
    obtain ⟨row, hrow, rfl⟩ := List.mem_map.1 huid
    exact (hrows.bounded row hrow).2.1

end Ascending

/-- A line is skipped, or is a row with a larger uid. -/
theorem checkRow_ok {s s' : List Str × UInt32} {line : Str} (h : checkRow s line = .ok s') :
    ∃ rows, s'.1 = s.1 ++ rows.map Prod.fst ∧ Ascending s.2 rows s'.2 := by
  rw [checkRow] at h
  split_ifs at h
  · obtain rfl := Except.ok.inj h
    exact ⟨[], (List.append_nil _).symm, .nil _⟩
  · obtain ⟨uid, huid, h⟩ := ok_of_bind h
    split_ifs at h with hbad
    rw [not_or, UInt32.not_le, not_lt] at hbad
    obtain ⟨⟨⟩, hfields, h⟩ := ok_of_bind h
    obtain rfl := Except.ok.inj h
    refine ⟨[(line, uid)], rfl,
      .cons ⟨okOr_eq_ok huid, hbad.2, fun field hfield => ?_⟩ hbad.1 (.nil uid)⟩
    exact checkField_ok (forM_checkField_ok hfields field hfield)

/-- The rows that the fold has taken, in ascending order of their uids. -/
theorem foldlM_checkRow_ok {lines : List Str} {s s' : List Str × UInt32}
    (h : lines.foldlM checkRow s = .ok s') :
    ∃ rows, s'.1 = s.1 ++ rows.map Prod.fst ∧ Ascending s.2 rows s'.2 := by
  induction lines generalizing s with
  | nil =>
    obtain rfl := Except.ok.inj h
    exact ⟨[], (List.append_nil _).symm, .nil _⟩
  | cons line lines ih =>
    rw [List.foldlM_cons] at h
    obtain ⟨between, hline, hlines⟩ := ok_of_bind h
    obtain ⟨first, hfirst, hascending⟩ := checkRow_ok hline
    obtain ⟨rest, hrest, hascending'⟩ := ih hlines
    refine ⟨first ++ rest, ?_, hascending.append hascending'⟩
    rw [hrest, hfirst, List.map_append, List.append_assoc]

/-- A next cursor is above the one that was asked for, and not below the last row. -/
theorem parseNext_ok {reply token : Str} {requested previousUid next : UInt32}
    (h : parseNext reply requested previousUid token = .ok (.cursor next)) :
    requested < next ∧ previousUid ≤ next := by
  rw [parseNext] at h
  by_cases hdone : token = "done".toList
  · rw [if_pos hdone] at h
    split_ifs at h
    cases h
  · rw [if_neg hdone] at h
    obtain ⟨next', -, h⟩ := ok_of_bind h
    by_cases hstuck : next' ≤ requested ∨ next' < previousUid
    · rw [if_pos hstuck] at h
      cases h
    · rw [if_neg hstuck] at h
      rw [not_or, UInt32.not_le, UInt32.not_lt] at hstuck
      split_ifs at h
      obtain rfl := StatsPageNext.cursor.inj (Except.ok.inj h)
      exact hstuck

/-- The rows of a page are past the cursor that was asked for, and the next cursor is past both. -/
theorem parseTrailer_ok {reply : Str} {requested : UInt32} {lines : List Str} {position : ℕ}
    {page : StatsPage} (h : parseTrailer reply requested lines position = .ok (some page)) :
    ∃ rows last, page.rows = rows.map Prod.fst ∧ Ascending requested rows last ∧
      ∀ next, page.next = .cursor next → requested < next ∧ last ≤ next := by
  rw [parseTrailer] at h
  split at h
  · obtain ⟨echoed, -, h⟩ := ok_of_bind h
    split_ifs at h
    obtain ⟨declaredRows, -, h⟩ := ok_of_bind h
    obtain ⟨⟨rows, previousUid⟩, hrows, h⟩ := ok_of_bind h
    simp only at h
    split_ifs at h
    obtain ⟨next, hnext, h⟩ := ok_of_bind h
    obtain rfl := Option.some.inj (Except.ok.inj h)
    obtain ⟨rows', heq, hascending⟩ := foldlM_checkRow_ok hrows
    refine ⟨rows', previousUid, heq, hascending, fun c hc => ?_⟩
    obtain rfl : next = .cursor c := hc
    exact parseNext_ok hnext
  · cases h

/-- What a page that is accepted consists of. -/
theorem parseKpmStatsPage_ok {reply : Str} {requested : UInt32} {page : StatsPage}
    (h : parseKpmStatsPage reply requested = .ok (some page)) :
    ∃ rows last, page.rows = rows.map Prod.fst ∧ Ascending requested rows last ∧
      ∀ next, page.next = .cursor next → requested < next ∧ last ≤ next := by
  rw [parseKpmStatsPage] at h
  split_ifs at h
  dsimp only at h
  split at h
  · cases Except.ok.inj h
  · split_ifs at h
    exact parseTrailer_ok h

/-! ## Main result -/

/-- The reply has a trailer, and is accepted. -/
def PageRead.Paged (r : PageRead) (page : StatsPage) : Prop :=
  ∃ reply, r.reply = .ok reply ∧ parseKpmStatsPage reply r.cursor = .ok (some page)

/-- The rows, with their uids, are those of the page that was read, and past its cursor. -/
def PageRead.Carries (r : PageRead) (rows : List (Str × UInt32)) : Prop :=
  (∃ page, r.Paged page ∧ page.rows = rows.map Prod.fst) ∧ ∀ row ∈ rows, r.cursor < row.2

/-- After the first page, a request does not depend on what was collected. -/
theorem statsRequest_succ (i : ℕ) (cursor : UInt32) (a b : Str) :
    statsRequest (i + 1) cursor a = statsRequest (i + 1) cursor b := rfl

section Collect

variable {σ : Type*} (read : σ → Str → Except String Str × σ)

/-- What the loop asks for from a cursor on. -/
theorem collectReads_asks (left pageIndex : ℕ) (cursor : UInt32) (aggregate : Str) (s : σ) :
    let reads := (collectReads read left pageIndex cursor aggregate s).1
    reads.length ≤ left ∧ (reads.map (·.cursor)).Pairwise (· < ·) ∧
      (∀ r ∈ reads, cursor ≤ r.cursor) ∧ ∀ i r, reads[i]? = some r →
        r.request = statsRequest (pageIndex + i) r.cursor aggregate := by
  induction left generalizing pageIndex cursor aggregate s with
  | zero => exact ⟨le_rfl, .nil, fun r hr => absurd hr List.not_mem_nil, fun i r hr => by cases hr⟩
  | succ left ih =>
    -- one read is the last one
    have hone (reply : Except String Str) (r : PageRead)
        (hr : r = ⟨cursor, statsRequest pageIndex cursor aggregate, reply⟩) :
        [r].length ≤ left + 1 ∧ ([r].map (·.cursor)).Pairwise (· < ·) ∧
          (∀ r' ∈ [r], cursor ≤ r'.cursor) ∧ ∀ i r', [r][i]? = some r' →
            r'.request = statsRequest (pageIndex + i) r'.cursor aggregate := by
      subst hr
      refine ⟨Nat.succ_le_succ (Nat.zero_le _), List.pairwise_singleton _ _,
        fun r' hr' => ?_, fun i r' hr' => ?_⟩
      · obtain rfl := List.mem_singleton.1 hr'
        exact UInt32.le_refl _
      · obtain ⟨hi, rfl⟩ := List.getElem?_eq_some_iff.1 hr'
        obtain rfl : i = 0 := by simpa using hi
        rfl
    simp only [collectReads]
    cases hreply : read s (statsRequest pageIndex cursor aggregate) with
    | mk reply s' =>
      cases reply with
      | error e => exact hone _ _ rfl
      | ok text =>
        simp only
        cases hpage : parseKpmStatsPage text cursor with
        | error e => exact hone _ _ rfl
        | ok page =>
          cases page with
          | none => exact hone _ _ rfl
          | some page =>
            simp only
            cases hnext : page.next with
            | done => exact hone _ _ rfl
            | cursor next =>
              obtain ⟨_, _, _, _, hadvance⟩ := parseKpmStatsPage_ok hpage
              have hlt := (hadvance next hnext).1
              obtain ⟨hlength, hsorted, hfrom, hrequest⟩ :=
                ih (pageIndex + 1) next (aggregate ++ page.rows.flatMap (· ++ ['\n'])) s'
              refine ⟨Nat.succ_le_succ hlength, List.pairwise_cons.2 ⟨fun c hc => ?_, hsorted⟩,
                fun r hr => ?_, fun i r hr => ?_⟩
              · obtain ⟨r, hr, rfl⟩ := List.mem_map.1 hc
                exact UInt32.lt_of_lt_of_le hlt (hfrom r hr)
              · obtain rfl | hr := List.mem_cons.1 hr
                · exact UInt32.le_refl _
                · exact UInt32.le_trans (UInt32.le_of_lt hlt) (hfrom r hr)
              · cases i with
                | zero =>
                  obtain rfl := Option.some.inj hr
                  rfl
                | succ i =>
                  have hsame := hrequest i r hr
                  rw [Nat.add_right_comm] at hsame
                  exact hsame.trans (statsRequest_succ ..)

/-- What the loop collects from a cursor on, once there is a page. -/
theorem collectReads_ok {left pageIndex : ℕ} {cursor : UInt32} {aggregate : Str} {s : σ}
    {text : Str} (h : (collectReads read left pageIndex cursor aggregate s).2 = .ok text)
    (hpaged : pageIndex ≠ 0 ∨ ∃ r ∈ (collectReads read left pageIndex cursor aggregate s).1,
      ∃ page, r.Paged page) :
    ∃ pages last, List.Forall₂ PageRead.Carries
      (collectReads read left pageIndex cursor aggregate s).1 pages ∧
      Ascending cursor pages.flatten last ∧
      text = aggregate ++ Str.unlines (pages.flatten.map Prod.fst) := by
  induction left generalizing pageIndex cursor aggregate s with
  | zero => cases h
  | succ left ih =>
    simp only [collectReads] at h hpaged ⊢
    cases hreply : read s (statsRequest pageIndex cursor aggregate) with
    | mk reply s' =>
      rw [hreply] at h hpaged
      cases reply with
      | error e => cases h
      | ok reply =>
        simp only at h hpaged ⊢
        cases hpage : parseKpmStatsPage reply cursor with
        | error e =>
          rw [hpage] at h
          cases h
        | ok page =>
          rw [hpage] at h hpaged
          cases page with
          | none =>
            -- the reply without a trailer is the only one
            simp only at h hpaged
            obtain hindex | ⟨r, hr, page, reply', hreply', hpage'⟩ := hpaged
            · rw [if_pos hindex] at h
              cases h
            · obtain rfl := List.mem_singleton.1 hr
              obtain rfl := Except.ok.inj hreply'
              simp only [hpage] at hpage'
              cases Except.ok.inj hpage'
          | some page =>
            simp only at h ⊢
            obtain ⟨rows, last, hrows, hascending, hadvance⟩ := parseKpmStatsPage_ok hpage
            have hcarries :
                PageRead.Carries ⟨cursor, statsRequest pageIndex cursor aggregate, .ok reply⟩
                  rows :=
              ⟨⟨page, ⟨reply, rfl, hpage⟩, hrows⟩, fun row hrow =>
                (hascending.bounded row hrow).2.1⟩
            cases hnext : page.next with
            | done =>
              rw [hnext] at h
              refine ⟨[rows], last, .cons hcarries .nil, ?_, ?_⟩
              · rwa [List.flatten_singleton]
              · rw [List.flatten_singleton, ← hrows]
                exact (Except.ok.inj h).symm
            | cursor next =>
              rw [hnext] at h
              obtain ⟨pages, _, hpages, hrest, htext⟩ := ih h (.inl (Nat.succ_ne_zero pageIndex))
              obtain ⟨last', hrest⟩ := hrest.from_le (hadvance next hnext).2
              refine ⟨rows :: pages, last', .cons hcarries hpages, ?_, ?_⟩
              · exact hascending.append hrest
              · rw [htext, List.flatten_cons, List.map_append, Str.unlines_append,
                  ← hrows, List.append_assoc]
                rfl

/-- Whatever is replied, at most `maxKpmStatsPages` pages are asked for, by cursors that
    increase. If a page with a trailer was read and the read does not fail, what was collected
    is the header and then the rows of the pages: with uids that increase from the first to the
    last page, each past the cursor of its page, and without a zero counter. -/
theorem collect_pages (s : σ) :
    (collectPages read s).1.length ≤ maxKpmStatsPages ∧
      ((collectPages read s).1.map (·.cursor)).Pairwise (· < ·) ∧
      (∀ i r, (collectPages read s).1[i]? = some r →
        r.request = statsRequest i r.cursor aggregateHeader) ∧
      ∀ text, (collectPages read s).2 = .ok text →
        (∃ r ∈ (collectPages read s).1, ∃ page, r.Paged page) →
          ∃ pages, List.Forall₂ PageRead.Carries (collectPages read s).1 pages ∧
            text = aggregateHeader ++ Str.unlines (pages.flatten.map Prod.fst) ∧
            (pages.flatten.map Prod.snd).Pairwise (· < ·) ∧
            ∀ row ∈ pages.flatten, SparseRow row.1 row.2 := by
  obtain ⟨hlength, hsorted, -, hrequest⟩ :=
    collectReads_asks read maxKpmStatsPages 0 0 aggregateHeader s
  refine ⟨hlength, hsorted, fun i r hr => ?_, fun text htext hpaged => ?_⟩
  · -- The pages are asked for from the first one on.
    rw [hrequest i r hr, Nat.zero_add]
  · -- Once one reply is a page, all of them are, and their rows ascend over all pages.
    obtain ⟨pages, last, hpages, hascending, heq⟩ := collectReads_ok read htext (.inr hpaged)
    exact ⟨pages, hpages, heq, hascending.pairwise, fun row hrow => (hascending.bounded row hrow).1⟩

end Collect

end VpnHide.Activator

import Mathlib.Data.Fintype.Card
import VpnHide.Activator.Pages

/-!
# Reading all pages

The activator collects the counters of the KPM page by page. If the table does not
change meanwhile, nothing is lost: the slots that are left after a cursor, by uid, are
`Pending`, a page takes a part of them from the front (`plan_of_pending`), and the pages
together take them all (`collectFrom_of_pending`). Hence `collectKpmStatsPages_lossless`.
-/

namespace VpnHide.Kpm

open Lib Protocol Kmod Activator

/-- The bytes that are copied to the caller. -/
def reply (b : Buf) : Bytes := b.p.take b.len

/-- The text of the page after a cursor. -/
def pageReply (τ : ℕ → Stats) (cap : ℕ) (after : UInt32) : Option Str :=
  Str.fromUtf8 (reply (formatStatsPage τ cap after))

/-- The answer to a request, on a table that does not change. -/
def answer (t : Stats) (cap : ℕ) (request : Str) : Except String Str := do
  let after ← okOr "KPM ctl0 failed" (parseStatsAfter (Str.toUtf8 request))
  okOr "KPM ctl0 returned no text" (pageReply (fun _ => t) cap after)

/-- The text of a page is that of its plan. -/
theorem pageReply_eq (τ : ℕ → Stats) {cap : ℕ} (requested : UInt32)
    (hmin : statsRowMax + statsTrailerReserve ≤ cap) (hmax : cap ≤ 4096) :
    pageReply τ cap requested =
      some (pageText requested (planned τ cap requested).rows (plannedNext τ cap requested)) := by
  rw [pageReply, formatStatsPage_eq τ requested hmin hmax, reply,
    List.take_of_length_le (length_bytes _).le, ← toUtf8_pageText, Str.fromUtf8_toUtf8]

/-- The rows of a plan fit the page. -/
theorem length_planned_rows_le (τ : ℕ → Stats) {cap : ℕ} (requested : UInt32)
    (hmin : statsRowMax + statsTrailerReserve ≤ cap) (hmax : cap ≤ 4096) :
    (planned τ cap requested).rows.length ≤ 0xffffffff := by
  have hroom := @length_plan_le τ cap 16 requested 0
    ((by decide : 16 + statsTrailerReserve ≤ statsRowMax + statsTrailerReserve).trans hmin)
  have hrows := length_le_length_rowsText (planned τ cap requested).rows
  rw [planned] at hrows ⊢
  omega

/-- What the activator says to a page: whatever happens while it is written, the page is
    accepted if its next cursor is not the one asked for. -/
theorem parse_pageText_planned (τ : ℕ → Stats) {cap : ℕ} (requested : UInt32)
    (hmin : statsRowMax + statsTrailerReserve ≤ cap) (hmax : cap ≤ 4096) :
    parseKpmStatsPage
      (pageText requested (planned τ cap requested).rows (plannedNext τ cap requested)) requested =
      if plannedNext τ cap requested ≠ none ∧ (planned τ cap requested).cursor = requested then
        .error "KPM stats page cursor did not advance"
      else .ok (some ⟨(planned τ cap requested).rows.map Row.text,
        (plannedNext τ cap requested).elim .done .cursor⟩) := by
  refine parseKpmStatsPage_pageText (validRows_plan τ cap 16 requested 0)
    (length_planned_rows_le τ requested hmin hmax) ?_
  rw [plannedNext]
  split_ifs
  · exact .inr rfl
  · exact .inl rfl

/-! ## Pending slots -/

/-- No uid owns two slots. -/
def Stats.Distinct (t : Stats) : Prop := ∀ i j, t.uids i = t.uids j → t.uids i ≠ 0 → i = j

/-- The slots of the uids after `after`, in the order of their uids. -/
structure Pending (t : Stats) (after : UInt32) (l : List Slot) : Prop where
  sorted : l.Pairwise fun i j => t.uids i < t.uids j
  mem : ∀ i, i ∈ l ↔ after < t.uids i

variable {t : Stats} {after : UInt32} {l : List Slot}

/-- The rows that are still to come. -/
theorem exists_pending (ht : t.Distinct) (after : UInt32) : ∃ l, Pending t after l := by
  have hmem : ∀ i, i ∈ slots.filter (fun i => decide (after < t.uids i)) ↔ after < t.uids i := by
    intro i
    simp [mem_slots]
  have hnodup : ((slots.filter fun i => decide (after < t.uids i)).map t.uids).Nodup := by
    refine List.Nodup.map_on (fun i hi j _ hij => ht i j hij ?_) ?_
    · exact fun h0 => absurd ((hmem i).1 hi) (by rw [h0]; exact UInt32.not_lt_zero)
    · unfold slots
      exact (List.nodup_finRange _).filter _
  -- The slots in use, written one by one into a map by uid.
  have hperm := perm_foldl_upsert (l := []) (slots.filter fun i => decide (after < t.uids i))
    (by simpa using hnodup)
  refine ⟨_, sorted_foldl_upsert _ .nil, fun i => (hperm.mem_iff.trans ?_).trans (hmem i)⟩
  rw [List.append_nil]

/-- Without rows to come there is no next uid. -/
theorem Pending.nextStatsUid_nil (h : Pending t after []) : t.nextStatsUid after = none := by
  cases hn : t.nextStatsUid after with
  | none => rfl
  | some p =>
    obtain ⟨uid, slot⟩ := p
    obtain ⟨hslot, hlt, -⟩ := Stats.nextStatsUid_eq_some hn
    exact absurd ((h.mem slot).2 (hslot ▸ hlt)) List.not_mem_nil

/-- The first pending slot is the one the search finds, and the others remain. -/
theorem Pending.nextStatsUid_cons {i : Slot} (h : Pending t after (i :: l)) :
    t.nextStatsUid after = some (t.uids i, i) ∧ Pending t (t.uids i) l := by
  have hi : after < t.uids i := (h.mem i).1 List.mem_cons_self
  obtain ⟨hhead, htail⟩ := List.pairwise_cons.1 h.sorted
  constructor
  · cases hn : t.nextStatsUid after with
    | none => exact absurd hi (not_lt.2 (Stats.nextStatsUid_eq_none hn i))
    | some p =>
      obtain ⟨uid, slot⟩ := p
      obtain ⟨rfl, hlt, hmin⟩ := Stats.nextStatsUid_eq_some hn
      rcases List.mem_cons.1 ((h.mem slot).2 hlt) with rfl | hslot
      · rfl
      · exact absurd (hmin i hi) (not_le.2 (hhead slot hslot))
  · refine ⟨htail, fun j => ⟨hhead j, fun hj => ?_⟩⟩
    rcases List.mem_cons.1 ((h.mem j).2 (hi.trans hj)) with rfl | hj'
    · exact absurd hj (lt_irrefl _)
    · exact hj'

/-- There are at most as many pending slots as slots. -/
theorem Pending.length_le (h : Pending t after l) : l.length ≤ maxTargetUids := by
  have hnodup : l.Nodup := by
    refine h.sorted.imp ?_
    rintro i _ hlt rfl
    exact absurd hlt (lt_irrefl _)
  simpa using List.Nodup.length_le_card hnodup

/-! ## Pages of a table that does not change -/

/-- The rows of some slots: those with a nonzero counter. -/
def rowsOf (t : Stats) (l : List Slot) : List Row :=
  (l.map fun i => t.row (t.uids i) i).filter fun r => !r.cells.isEmpty

/-- The rows of slots, one group after the other. -/
theorem rowsOf_append (t : Stats) (l m : List Slot) :
    rowsOf t (l ++ m) = rowsOf t l ++ rowsOf t m := by
  rw [rowsOf, List.map_append, List.filter_append]
  rfl

/-- A slot without counters has no row. -/
theorem rowsOf_cons_of_nil {i : Slot} (h : (t.row (t.uids i) i).cells = []) (l : List Slot) :
    rowsOf t (i :: l) = rowsOf t l := by
  rw [rowsOf, List.map_cons, List.filter_cons_of_neg (by simp [h])]
  rfl

/-- A slot with a counter has a row. -/
theorem rowsOf_cons_of_ne_nil {i : Slot} (h : (t.row (t.uids i) i).cells ≠ []) (l : List Slot) :
    rowsOf t (i :: l) = t.row (t.uids i) i :: rowsOf t l := by
  rw [rowsOf, List.map_cons, List.filter_cons_of_pos (by simp [h])]
  rfl

/-- A page takes some pending slots from the front. -/
theorem plan_of_pending {cap len : ℕ} {cursor : UInt32} {calls : ℕ} (h : Pending t cursor l) :
    ∃ pre post, l = pre ++ post ∧ (plan (fun _ => t) cap len cursor calls).rows = rowsOf t pre ∧
      Pending t (plan (fun _ => t) cap len cursor calls).cursor post := by
  induction l generalizing len cursor calls with
  | nil =>
    rw [plan_of_none h.nextStatsUid_nil]
    exact ⟨[], [], rfl, rfl, h⟩
  | cons i l ih =>
    obtain ⟨hnext, hrest⟩ := h.nextStatsUid_cons
    rw [plan_of_some hnext]
    dsimp only
    split_ifs with hc hfit
    · obtain ⟨pre, post, rfl, hrows, hpost⟩ := @ih len (t.uids i) (calls + 2) hrest
      exact ⟨i :: pre, post, rfl, hrows.trans (rowsOf_cons_of_nil hc pre).symm, hpost⟩
    · exact ⟨[], i :: l, rfl, rfl, h⟩
    · obtain ⟨pre, post, rfl, hrows, hpost⟩ :=
        @ih (len + ((t.row (t.uids i) i).text.length + 1)) (t.uids i) (calls + 2) hrest
      refine ⟨i :: pre, post, rfl, ?_, hpost⟩
      rw [rowsOf_cons_of_ne_nil hc, ← hrows]

/-- A page takes at least one pending slot, and says whether any is left. -/
theorem planned_of_pending {cap : ℕ} {requested : UInt32} (h : Pending t requested l)
    (hmin : statsRowMax + statsTrailerReserve ≤ cap) :
    ∃ pre post, l = pre ++ post ∧
      (l ≠ [] → pre ≠ [] ∧ requested < (planned (fun _ => t) cap requested).cursor) ∧
      (planned (fun _ => t) cap requested).rows = rowsOf t pre ∧
      Pending t (planned (fun _ => t) cap requested).cursor post ∧
      plannedNext (fun _ => t) cap requested =
        if post = [] then none else some (planned (fun _ => t) cap requested).cursor := by
  obtain ⟨pre, post, rfl, hrows, hpost⟩ := @plan_of_pending t l cap 16 requested 0 h
  refine ⟨pre, post, rfl, fun hne => ?_, hrows, hpost, ?_⟩
  · obtain ⟨i, l, hl⟩ := List.exists_cons_of_ne_nil hne
    rw [hl] at h
    have hle : t.uids i ≤ (plan (fun _ => t) cap 16 requested 0).cursor :=
      le_cursor_plan
        ((by decide : 16 + 299 + statsTrailerReserve ≤ statsRowMax + statsTrailerReserve).trans
          hmin) h.nextStatsUid_cons.1
    refine ⟨?_, ((h.mem i).1 List.mem_cons_self).trans_le hle⟩
    -- If it took none, the cursor would have passed the first.
    rintro rfl
    rw [List.nil_append] at hl
    subst hl
    exact absurd ((hpost.mem i).1 List.mem_cons_self) (not_lt.2 hle)
  · rw [plannedNext]
    cases post with
    | nil =>
      rw [planned, hpost.nextStatsUid_nil]
      rfl
    | cons i post =>
      rw [planned, hpost.nextStatsUid_cons.1]
      rfl

/-- On a table that does not change, every page is accepted as it is meant. -/
theorem parse_of_pending {cap : ℕ} {requested : UInt32} (h : Pending t requested l)
    (hmin : statsRowMax + statsTrailerReserve ≤ cap) (hmax : cap ≤ 4096) :
    parseKpmStatsPage (pageText requested (planned (fun _ => t) cap requested).rows
      (plannedNext (fun _ => t) cap requested)) requested =
      .ok (some ⟨(planned (fun _ => t) cap requested).rows.map Row.text,
        (plannedNext (fun _ => t) cap requested).elim .done .cursor⟩) := by
  obtain ⟨pre, post, rfl, hpre, -, -, hnext⟩ := planned_of_pending h hmin
  rw [parse_pageText_planned (fun _ => t) requested hmin hmax, if_neg]
  rintro ⟨hsome, heq⟩
  have hne : pre ++ post ≠ [] := by
    rintro hnil
    rw [hnext, if_pos (List.append_eq_nil_iff.1 hnil).2] at hsome
    exact hsome rfl
  exact absurd heq (hpre hne).2.ne'

/-! ## The whole read -/

theorem statsHeaderText_eq : statsHeaderText = headerLine := by
  unfold headerLine statsHeaderText
  decide

theorem ascii_headerLine : ∀ c ∈ headerLine, c.toNat < 128 := by
  rw [headerLine_eq]
  decide

/-- The request for the first page asks for everything. -/
theorem parseStatsAfter_first_request : parseStatsAfter
    (Str.toUtf8 (statsRequest 0 0 (statsHeaderText ++ ['\n']))) = some 0 := by
  have htrim : statsRequest 0 0 (statsHeaderText ++ ['\n']) = headerLine := by
    rw [statsRequest, if_pos rfl, statsHeaderText_eq, headerLine_eq]
    decide
  rw [htrim, Str.toUtf8_eq_map ascii_headerLine]
  exact (congrArg parseStatsAfter bytes_headerLine).trans parseStatsAfter_first

/-- The request for another page asks for what follows its cursor. -/
theorem parseStatsAfter_next_request {pageIndex : ℕ} (h : pageIndex ≠ 0)
    (cursor : UInt32) (aggregate : Str) :
    parseStatsAfter (Str.toUtf8 (statsRequest pageIndex cursor aggregate)) = some cursor := by
  have hafter : ∀ c ∈ "\nafter 0x".toList, c.toNat < 128 := by decide
  have hdigits : ∀ c ∈ Nat.toDigits 16 cursor.toNat, c.toNat < 128 := fun c hc =>
    ((Str.isWord_toDigits (by decide) le_rfl _).2 c hc).2.trans_lt (by decide)
  rw [statsRequest, if_neg h, statsHeaderText_eq, Str.toUtf8_eq_map]
  · refine (congrArg parseStatsAfter ?_).trans (parseStatsAfter_next cursor)
    rw [List.map_append, List.map_append, List.map_append]
    exact congrArg (fun s => s ++ _ ++ _ ++ _) bytes_headerLine
  · simp only [List.mem_append, List.mem_singleton]
    rintro c (((hc | hc) | hc) | rfl)
    · exact ascii_headerLine c hc
    · exact hafter c hc
    · exact hdigits c hc
    · decide

/-- The pages after a cursor, one after another. -/
theorem collectFrom_of_pending {cap : ℕ} (hmin : statsRowMax + statsTrailerReserve ≤ cap)
    (hmax : cap ≤ 4096) {left pageIndex : ℕ} {cursor : UInt32} {aggregate : Str}
    (h : Pending t cursor l) (hleft : l.length < left)
    (hfirst : pageIndex = 0 → cursor = 0 ∧ aggregate = statsHeaderText ++ ['\n']) :
    collectFrom (answer t cap) left pageIndex cursor aggregate =
      .ok (aggregate ++ rowsText (rowsOf t l)) := by
  induction hn : l.length using Nat.strong_induction_on generalizing l left pageIndex
    cursor aggregate with
  | _ n ih =>
    -- A page takes at least one pending slot, so that fewer are left than pages allowed.
    obtain ⟨left, rfl⟩ : ∃ k, left = k + 1 := ⟨left - 1, by omega⟩
    obtain ⟨pre, post, rfl, hpre, hrows, hpost, hnext⟩ := planned_of_pending h hmin
    have hrequest :
        parseStatsAfter (Str.toUtf8 (statsRequest pageIndex cursor aggregate)) = some cursor := by
      by_cases h0 : pageIndex = 0
      · obtain ⟨rfl, rfl⟩ := hfirst h0
        rw [h0]
        exact parseStatsAfter_first_request
      · exact parseStatsAfter_next_request h0 cursor aggregate
    have hanswer : answer t cap (statsRequest pageIndex cursor aggregate) =
        .ok (pageText cursor (planned (fun _ => t) cap cursor).rows
          (plannedNext (fun _ => t) cap cursor)) := by
      rw [answer, hrequest]
      change okOr _ (pageReply (fun _ => t) cap cursor) = _
      rw [pageReply_eq _ _ hmin hmax]
      rfl
    have htext : ((rowsOf t pre).map Row.text).flatMap (· ++ ['\n']) = rowsText (rowsOf t pre) :=
      List.flatMap_map _ _ _
    rw [collectFrom]
    dsimp only
    rw [hanswer]
    change (parseKpmStatsPage _ _ >>= _) = _
    rw [parse_of_pending h hmin hmax, hrows, hnext]
    by_cases hp : post = []
    · subst hp
      rw [if_pos rfl, List.append_nil]
      exact congrArg (fun s => Except.ok (aggregate ++ s)) htext
    · have hne : pre ≠ [] := (hpre (by simp [hp])).1
      have hlen : post.length < n := by
        have := List.length_pos_iff.2 hne
        rw [List.length_append] at hn
        omega
      have hleft' : post.length < left := by
        have := List.length_pos_iff.2 hne
        rw [List.length_append] at hleft
        omega
      rw [if_neg hp, rowsOf_append]
      change collectFrom _ _ _ _
          (aggregate ++ ((rowsOf t pre).map Row.text).flatMap (· ++ ['\n'])) = _
      rw [htext, ih post.length hlen hpost hleft' (fun h0 => absurd h0 (Nat.succ_ne_zero _)) rfl,
        List.append_assoc, rowsText, rowsText, rowsText, List.flatMap_append]

/-- The rows that are shown. -/
theorem mem_rowsOf {r : Row} : r ∈ rowsOf t l ↔ ∃ i ∈ l, t.row (t.uids i) i = r ∧ r.cells ≠ [] := by
  rw [rowsOf, List.mem_filter, List.mem_map]
  constructor
  · rintro ⟨⟨i, hi, rfl⟩, hne⟩
    exact ⟨i, hi, rfl, by simpa using hne⟩
  · rintro ⟨i, hi, rfl, hne⟩
    exact ⟨⟨i, hi, rfl⟩, by simpa using hne⟩

/-- They are in the order of their uids. -/
theorem sorted_rowsOf (h : Pending t after l) : (rowsOf t l).Pairwise fun r r' => r.uid < r'.uid :=
  List.Pairwise.filter (R := fun r r' : Row => r.uid < r'.uid) _ (List.pairwise_map.2 h.sorted)

/-- Reading a table that does not change, in pages of any size: each page is accepted, and
    the read ends with one row for each uid that has a nonzero counter, in the order of
    the uids, with its nonzero counters. -/
theorem collectKpmStatsPages_lossless (ht : t.Distinct) {cap : ℕ} (hmin : 576 ≤ cap)
    (hmax : cap ≤ 4096) :
    (∀ requested, ∃ text page, pageReply (fun _ => t) cap requested = some text ∧
      parseKpmStatsPage text requested = .ok (some page)) ∧
    ∃ rows : List Row,
      collectKpmStatsPages (answer t cap) = .ok (headerLine ++ '\n' :: rowsText rows) ∧
      rows.Pairwise (fun r r' => r.uid < r'.uid) ∧
      ∀ r, r ∈ rows ↔ ∃ i, t.uids i ≠ 0 ∧ t.row (t.uids i) i = r ∧ r.cells ≠ [] := by
  constructor
  · -- Each page by itself is accepted,
    intro requested
    obtain ⟨l, hl⟩ := exists_pending ht requested
    exact ⟨_, _, pageReply_eq _ requested hmin hmax, parse_of_pending hl hmin hmax⟩
  · -- and all of them, from the first cursor on, put together the whole table.
    obtain ⟨l, hl⟩ := exists_pending ht 0
    refine ⟨rowsOf t l, ?_, sorted_rowsOf hl, fun r => ?_⟩
    · -- There are fewer rows than pages that may be read, so that the loop ends with a page that
      -- says so.
      have hpages : l.length < maxKpmStatsPages := hl.length_le.trans_lt (by decide)
      rw [collectKpmStatsPages, collectFrom_of_pending hmin hmax hl hpages fun _ => ⟨rfl, rfl⟩,
        statsHeaderText_eq, List.append_assoc]
      rfl
    · rw [mem_rowsOf]
      simp only [hl.mem, UInt32.pos_iff_ne_zero]

/-- Two uids with hits and one without, in the smallest pages. -/
theorem collectKpmStatsPages_lossless_three :
    let t : Stats :=
      { uids := fun i => if i.val = 3 then 10002 else if i.val = 7 then 10001 else if i.val = 9 then
        10003 else 0
        counts := fun i hook => if i.val = 9 then 0 else if hook.val = 2 then 5 else 0 }
    t.Distinct ∧ ∃ rows : List Row,
      collectKpmStatsPages (answer t 576) = .ok (headerLine ++ '\n' :: rowsText rows) ∧
      ⟨10001, [(.rtnlFillIfinfo, 5)]⟩ ∈ rows := by
  intro t
  have ht : t.Distinct := by
    intro i j hij h0
    rw [Fin.ext_iff]
    dsimp only [t] at hij h0
    split_ifs at hij h0 <;> simp_all
  obtain ⟨-, rows, hrows, -, hmem⟩ :=
    @collectKpmStatsPages_lossless t ht 576 (by decide) (by decide)
  exact ⟨ht, rows, hrows, (hmem _).2 ⟨⟨7, by decide⟩, by decide, by decide, by decide⟩⟩

end VpnHide.Kpm

import VpnHide.Kpm.Paging
import VpnHide.Kpm.Slots

/-!
# Reading a page while hits are counted

The page writer decides its trailer with a last probe of the table, made after the probe
that ended its loop. A hit between the two can claim a slot that the loop has not seen.
After a row the cursor has moved, and the page says truly that there is more. But if the
loop found nothing at all, the cursor is still the one asked for, and the activator takes
the page for one that does not advance.

`parse_pageText_race` says that this is the only page the activator rejects.
-/

namespace VpnHide.Kpm

open Lib Protocol Kmod Activator

variable {ι : Type*} [DecidableEq ι]

/-- The race at each call of the page writer: `schedules k` are the steps of the hooks
    between the call before and the call `k`. -/
def raceAt (hits : ι → Hit) (schedules : ℕ → List ι) : ℕ → Race ι
  | 0 => Race.init.run hits (schedules 0)
  | k + 1 => (raceAt hits schedules k).run hits (schedules (k + 1))

/-- The tables that the page writer sees. -/
def tables (hits : ι → Hit) (schedules : ℕ → List ι) (k : ℕ) : Stats :=
  (raceAt hits schedules k).stats

/-- There is no next uid just if all are below. -/
theorem Stats.nextStatsUid_eq_none_iff {t : Stats} {after : UInt32} :
    t.nextStatsUid after = none ↔ ∀ i, t.uids i ≤ after := by
  refine ⟨nextStatsUid_eq_none, fun hle => ?_⟩
  cases hn : t.nextStatsUid after with
  | none => rfl
  | some p =>
    obtain ⟨uid, slot⟩ := p
    obtain ⟨hslot, hlt, -⟩ := nextStatsUid_eq_some hn
    exact absurd (hle slot) (not_le.2 (hslot ▸ hlt))

/-- If the first probe finds nothing, the page has no rows, and its trailer is decided by
    the second probe. -/
theorem planned_of_none {τ : ℕ → Stats} {cap : ℕ} {requested : UInt32}
    (h : (τ 0).nextStatsUid requested = none) :
    planned τ cap requested = ⟨[], requested, 1⟩ ∧
      plannedNext τ cap requested =
        if ((τ 1).nextStatsUid requested).isSome then some requested else none := by
  have hplan : planned τ cap requested = ⟨[], requested, 1⟩ := plan_of_none h
  refine ⟨hplan, ?_⟩
  rw [plannedNext, hplan]

/-- If the first probe finds a uid, the cursor of the page advances. -/
theorem lt_cursor_planned {τ : ℕ → Stats} {cap : ℕ} {requested : UInt32}
    (hmin : statsRowMax + statsTrailerReserve ≤ cap) (h : (τ 0).nextStatsUid requested ≠ none) :
    requested < (planned τ cap requested).cursor := by
  obtain ⟨⟨uid, slot⟩, hsome⟩ := Option.ne_none_iff_exists'.1 h
  have hroom : 16 + 299 + statsTrailerReserve ≤ cap :=
    (by decide : 16 + 299 + statsTrailerReserve ≤ statsRowMax + statsTrailerReserve).trans hmin
  exact (Stats.nextStatsUid_eq_some hsome).2.1.trans_le (le_cursor_plan hroom hsome)

/-- A page stands still when the first probe finds nothing and the second finds more. -/
theorem planned_stuck_iff {τ : ℕ → Stats} {cap : ℕ} {requested : UInt32}
    (hmin : statsRowMax + statsTrailerReserve ≤ cap) :
    plannedNext τ cap requested ≠ none ∧ (planned τ cap requested).cursor = requested ↔
      (τ 0).nextStatsUid requested = none ∧ (τ 1).nextStatsUid requested ≠ none := by
  by_cases h : (τ 0).nextStatsUid requested = none
  · obtain ⟨hplan, hnext⟩ := @planned_of_none τ cap requested h
    rw [hplan, hnext]
    cases (τ 1).nextStatsUid requested <;> simp [h]
  -- The loop has gone on to a uid, and the page advances.
  · refine iff_of_false ?_ fun hstuck => h hstuck.1
    rintro ⟨-, heq⟩
    exact absurd heq (lt_cursor_planned hmin h).ne'

/-- What the activator says to a page that is written while hits are counted. -/
theorem parse_pageText_race (τ : ℕ → Stats) {cap : ℕ} (requested : UInt32)
    (hmin : statsRowMax + statsTrailerReserve ≤ cap) (hmax : cap ≤ 4096) :
    parseKpmStatsPage
      (pageText requested (planned τ cap requested).rows (plannedNext τ cap requested)) requested =
      if (τ 0).nextStatsUid requested = none ∧ (τ 1).nextStatsUid requested ≠ none then
        .error "KPM stats page cursor did not advance"
      else .ok (some ⟨(planned τ cap requested).rows.map Row.text,
        (plannedNext τ cap requested).elim .done .cursor⟩) := by
  rw [parse_pageText_planned τ requested hmin hmax]
  exact if_congr (planned_stuck_iff hmin) rfl rfl

/-- Under any interleaving of hits with the calls of the page writer, a page is accepted if
    and only if a uid after the cursor is there at the first probe, or none is there at the
    second. -/
theorem page_accepted_iff (hits : ι → Hit) (schedules : ℕ → List ι) {cap : ℕ} (requested : UInt32)
    (hmin : 576 ≤ cap) (hmax : cap ≤ 4096) :
    (∃ text page, pageReply (tables hits schedules) cap requested = some text ∧
        parseKpmStatsPage text requested = .ok (some page)) ↔
      (∃ i, requested < (tables hits schedules 0).uids i) ∨
        ∀ i, (tables hits schedules 1).uids i ≤ requested := by
  have hreply := pageReply_eq (tables hits schedules) requested hmin hmax
  have hparse := parse_pageText_race (tables hits schedules) requested hmin hmax
  -- The reader is stuck exactly if no row is left at the first look, and one at the second.
  have hcond : ((tables hits schedules 0).nextStatsUid requested = none ∧
      (tables hits schedules 1).nextStatsUid requested ≠ none) ↔
      ¬((∃ i, requested < (tables hits schedules 0).uids i) ∨
        ∀ i, (tables hits schedules 1).uids i ≤ requested) := by
    rw [not_or, Ne, Stats.nextStatsUid_eq_none_iff, Stats.nextStatsUid_eq_none_iff, not_exists]
    simp only [not_lt]
  constructor
  · rintro ⟨text, page, htext, hok⟩
    obtain rfl := Option.some.inj (hreply.symm.trans htext)
    by_contra hne
    rw [hparse, if_pos (hcond.2 hne)] at hok
    cases hok
  · intro hor
    refine ⟨_, _, hreply, hparse.trans (if_neg fun hstuck => hcond.1 hstuck hor)⟩

/-- A hit of one uid is being counted when the first page is asked for. -/
theorem page_accepted_early :
    ∃ text page, pageReply (tables (fun _ : Unit => ⟨.devIoctl, 10001⟩) fun _ => [(), (), ()]) 576
        0 = some text ∧ parseKpmStatsPage text 0 = .ok (some page) :=
  (page_accepted_iff (fun _ : Unit => ⟨.devIoctl, 10001⟩) (fun _ => [(), (), ()]) 0 le_rfl
    (by decide)).2 (.inl ⟨probeSlot 10001 0, by decide⟩)

/-- The first hit of a device, counted between the two probes: the page is rejected. -/
theorem page_rejected_late :
    ∃ text, pageReply (tables (fun _ : Unit => ⟨.devIoctl, 10001⟩)
        fun k => if k = 1 then [(), (), ()] else []) 576 0 = some text ∧
      parseKpmStatsPage text 0 = .error "KPM stats page cursor did not advance" := by
  have hmin : statsRowMax + statsTrailerReserve ≤ 576 := le_rfl
  refine ⟨_, pageReply_eq _ 0 hmin (by decide), ?_⟩
  rw [parse_pageText_race _ 0 hmin (by decide), if_pos]
  rw [Ne, Stats.nextStatsUid_eq_none_iff, Stats.nextStatsUid_eq_none_iff, not_forall]
  exact ⟨fun _ => le_rfl, probeSlot 10001 0, by decide⟩

end VpnHide.Kpm

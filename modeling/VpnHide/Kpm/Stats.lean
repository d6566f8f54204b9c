import Mathlib.Algebra.Group.Action.Defs
import Mathlib.Algebra.Order.BigOperators.Group.List
import Mathlib.Data.List.FinRange
import VpnHide.Kmod.Cursor
import VpnHide.Kmod.Serialise
import VpnHide.Lib.Str
import VpnHide.Protocol.Config
import VpnHide.Protocol.Hooks

/-!
# Stats pages of the KPM

The KPM (`kmod/kpm/vpnhide_kpm.c`) counts hits in a table of uids, hashed, and hands it
out in pages ordered by uid. A page is written row by row while other threads claim
slots and count hits: the table that each call of the writer sees is given by a stream
`τ`, one table for a call.

The search finds the least uid that is left (`nextStatsUid_eq_some`), and the counters
of a slot are written as the text of a `Row` (`formatStatsRow_eq`).
-/

namespace VpnHide.Kpm

open Lib Protocol Kmod

/-- A slot of the table of counters. -/
abbrev Slot := Fin maxTargetUids

/-- The counters, by slot: the uid that owns it (0 if none does), and its hits. -/
structure Stats where
  uids : Slot → UInt32
  counts : Slot → Fin kpmStatsHookCount → UInt64

/-! ## Writing a page -/

/-- The slots, in their order. It is not to be evaluated by unfolding. -/
@[irreducible] def slots : List Slot := List.finRange maxTargetUids

/-- Every slot of the table is scanned. -/
theorem mem_slots (i : Slot) : i ∈ slots := by
  unfold slots
  exact List.mem_finRange i

/-- One turn of the search for the least uid after `after`. -/
def Stats.betterUid (t : Stats) (after : UInt32) :
    UInt32 × Option Slot → Slot → UInt32 × Option Slot
  | (best, bestSlot), i =>
    let uid := t.uids i
    if after < uid ∧ (bestSlot = none ∨ uid < best) then (uid, some i) else (best, bestSlot)

/-- The least uid after `after`, and its slot. -/
def Stats.nextStatsUid (t : Stats) (after : UInt32) : Option (UInt32 × Slot) :=
  let (best, bestSlot) := slots.foldl (t.betterUid after) (0xffffffff, none)
  bestSlot.map fun slot => (best, slot)

/-- The longest row. -/
def statsRowMax : ℕ := 512

/-- The room that is left for the trailer. -/
def statsTrailerReserve : ℕ := 64

/-- Writing a counter of a slot, unless it is zero. -/
def Stats.putCount (t : Stats) (uidSlot : Slot) : Buf × Bool → Fin kpmStatsHookCount → Buf × Bool
  | (b, haveCount), hook =>
    let count := t.counts uidSlot hook
    if count = 0 then (b, haveCount)
    else
      let b := b.putc ' '.toUInt8
      let b := b.putHex (kpmStatsHookId hook).id
      let b := b.putc ':'.toUInt8
      (b.putHex count.toNat, true)

/-- Writing the nonzero counters of a slot into a buffer of size `cap`: the length of
    the row, 0 if there are none, and the buffer. -/
def Stats.formatStatsRow (t : Stats) (cap : ℕ) (uid : UInt32) (uidSlot : Slot) : ℕ × Bytes :=
  let b : Buf := ⟨[], cap, 0⟩
  let b := b.putHex uid.toNat
  let (b, haveCount) := (List.finRange kpmStatsHookCount).foldl (t.putCount uidSlot) (b, false)
  if !haveCount then (0, b.p)
  else
    let b := b.putc '\n'.toUInt8
    (b.len, b.p)

/-- The page writer at the end of its loop: what is written, the last uid, the number of
    rows, and the number of calls made so far. -/
structure PageState where
  b : Buf
  cursor : UInt32
  rows : UInt32
  calls : ℕ

/-- What the search has found among the slots `l`. -/
def Stats.IsBest (t : Stats) (after : UInt32) (l : List Slot) : UInt32 × Option Slot → Prop
  | (_, none) => ∀ i ∈ l, t.uids i ≤ after
  | (best, some slot) =>
    t.uids slot = best ∧ after < best ∧ ∀ i ∈ l, after < t.uids i → best ≤ t.uids i

/-- What a scan of some slots finds is the best of them. -/
theorem Stats.isBest_foldl (t : Stats) (after : UInt32) (l : List Slot) :
    t.IsBest after l (l.foldl (t.betterUid after) (0xffffffff, none)) := by
  -- By the slots, from the last one.
  induction l using List.reverseRecOn with
  | nil => exact fun i hi => absurd hi (by simp)
  | append_singleton l i ih =>
    rw [List.foldl_append, List.foldl_cons, List.foldl_nil]
    generalize l.foldl (t.betterUid after) (0xffffffff, none) = s at ih
    obtain ⟨best, bestSlot⟩ := s
    rw [betterUid]
    cases bestSlot with
    | none =>
      split_ifs with hc
      · refine ⟨rfl, hc.1, fun j hj hlt => ?_⟩
        rcases List.mem_append.1 hj with hj | hj
        · exact absurd hlt (not_lt.2 (ih j hj))
        · rw [List.mem_singleton.1 hj]
      · intro j hj
        rcases List.mem_append.1 hj with hj | hj
        · exact ih j hj
        · rw [List.mem_singleton.1 hj]
          exact not_lt.1 fun hlt => hc ⟨hlt, .inl rfl⟩
    | some slot =>
      obtain ⟨hslot, hafter, hmin⟩ := ih
      by_cases hc : after < t.uids i ∧ (some slot = none ∨ t.uids i < best)
      · rw [if_pos hc]
        have hlt : t.uids i < best := by simpa using hc.2
        refine ⟨rfl, hc.1, fun j hj hj' => ?_⟩
        rcases List.mem_append.1 hj with hj | hj
        · exact hlt.le.trans (hmin j hj hj')
        · rw [List.mem_singleton.1 hj]
      · rw [if_neg hc]
        refine ⟨hslot, hafter, fun j hj hj' => ?_⟩
        rcases List.mem_append.1 hj with hj | hj
        · exact hmin j hj hj'
        · rw [List.mem_singleton.1 hj] at hj' ⊢
          exact not_lt.1 fun hlt => hc ⟨hj', .inr hlt⟩

/-- The search finds nothing when no uid is after `after`. -/
theorem Stats.nextStatsUid_eq_none {t : Stats} {after : UInt32} (h : t.nextStatsUid after = none) :
    ∀ i, t.uids i ≤ after := by
  have hbest := t.isBest_foldl after slots
  rw [nextStatsUid] at h
  generalize slots.foldl (t.betterUid after) (0xffffffff, none) = s at h hbest
  obtain ⟨best, _ | slot⟩ := s
  · exact fun i => hbest i (mem_slots i)
  · cases h

/-- The search finds the least uid after `after`. -/
theorem Stats.nextStatsUid_eq_some {t : Stats} {after uid : UInt32} {slot : Slot}
    (h : t.nextStatsUid after = some (uid, slot)) :
    t.uids slot = uid ∧ after < uid ∧ ∀ i, after < t.uids i → uid ≤ t.uids i := by
  have hbest := t.isBest_foldl after slots
  rw [nextStatsUid] at h
  generalize slots.foldl (t.betterUid after) (0xffffffff, none) = s at h hbest
  obtain ⟨best, _ | slot'⟩ := s
  · cases h
  · obtain ⟨rfl, rfl⟩ := Prod.mk.inj (Option.some.inj h)
    exact ⟨hbest.1, hbest.2.1, fun i => hbest.2.2 i (mem_slots i)⟩

/-- How many uids are after a cursor. -/
def uidsLeft (cursor : UInt32) : ℕ := UInt32.size - cursor.toNat

/-- Fewer users are left after the cursor has moved on. -/
theorem uidsLeft_lt {cursor uid : UInt32} (h : cursor < uid) : uidsLeft uid < uidsLeft cursor := by
  have hlt := UInt32.lt_iff_toNat_lt.1 h
  have := uid.toNat_lt_size
  rw [uidsLeft, uidsLeft]
  omega

set_option maxRecDepth 1000 in
/-- The loop of the page writer. -/
def pageLoop (τ : ℕ → Stats) (cap : ℕ) (s : PageState) : PageState :=
  match _h : (τ s.calls).nextStatsUid s.cursor with
  | none => { s with calls := s.calls + 1 }
  | some (uid, slot) =>
    let row := (τ (s.calls + 1)).formatStatsRow statsRowMax uid slot
    -- A uid whose counters are all zero is passed over, and a full page ends the loop.
    if row.1 = 0 then pageLoop τ cap { s with cursor := uid, calls := s.calls + 2 }
    else if cap < s.b.len + row.1 + statsTrailerReserve then { s with calls := s.calls + 2 }
    else
      pageLoop τ cap
        { b := (row.2.take row.1).foldl Buf.putc s.b
          cursor := uid
          rows := s.rows + 1
          calls := s.calls + 2 }
termination_by uidsLeft s.cursor
decreasing_by all_goals exact uidsLeft_lt (Stats.nextStatsUid_eq_some ‹_›).2.1

/-- The page loop stops where no further user is found. -/
theorem pageLoop_of_none {τ : ℕ → Stats} {cap : ℕ} {s : PageState}
    (h : (τ s.calls).nextStatsUid s.cursor = none) :
    pageLoop τ cap s = { s with calls := s.calls + 1 } := by
  rw [pageLoop]
  split <;> simp_all

/-- The page loop where a further user is found: one row more, unless it is empty or does not
    fit. -/
theorem pageLoop_of_some {τ : ℕ → Stats} {cap : ℕ} {s : PageState} {uid : UInt32} {slot : Slot}
    (h : (τ s.calls).nextStatsUid s.cursor = some (uid, slot)) :
    pageLoop τ cap s =
      let row := (τ (s.calls + 1)).formatStatsRow statsRowMax uid slot
      if row.1 = 0 then pageLoop τ cap { s with cursor := uid, calls := s.calls + 2 }
      else if cap < s.b.len + row.1 + statsTrailerReserve then { s with calls := s.calls + 2 }
      else
        pageLoop τ cap
          { b := (row.2.take row.1).foldl Buf.putc s.b
            cursor := uid
            rows := s.rows + 1
            calls := s.calls + 2 } := by
  conv_lhs => rw [pageLoop]
  split
  · simp_all
  · rename_i uid' slot' h'
    obtain ⟨rfl, rfl⟩ := Prod.mk.inj (Option.some.inj (h.symm.trans h'))
    rfl

/-- Writing the page after `requested` into a buffer of size `cap`. -/
def formatStatsPage (τ : ℕ → Stats) (cap : ℕ) (requested : UInt32) : Buf :=
  let b : Buf := ⟨[], cap, 0⟩
  if cap < statsRowMax + statsTrailerReserve then b
  else
    let b := b.putHeader (ascii "stats") telemetryVersion
    let s := pageLoop τ cap ⟨b, requested, 0, 0⟩
    let more := ((τ s.calls).nextStatsUid s.cursor).isSome
    let b := s.b.puts (ascii "page ")
    let b := b.putHex requested.toNat
    let b := b.putc ' '.toUInt8
    let b := if more then b.putHex s.cursor.toNat else b.puts (ascii "done")
    let b := b.putc ' '.toUInt8
    let b := b.putHex s.rows.toNat
    -- A page that is not the last lacks its newline, for old activators to refuse it.
    if !more then b.putc '\n'.toUInt8 else b

/-! ## The text of a page -/

-- The literals are kept folded: unfolding one makes the unifier decode it.

/-- The line that a page begins with. -/
@[irreducible] def headerLine : Str := "vpnhide 1 stats".toList

/-- The word of a trailer. -/
@[irreducible] def pageWord : Str := "page".toList

/-- The word of the last trailer. -/
@[irreducible] def doneWord : Str := "done".toList

/-- A row of a page: a uid and its nonzero counters. -/
structure Row where
  uid : UInt32
  cells : List (HookId × UInt64)
  deriving DecidableEq

/-- A number in lowercase hexadecimal, with its prefix. -/
def prefixedHex (n : ℕ) : Str := '0' :: 'x' :: Nat.toDigits 16 n

/-- A counter in a row. -/
def cellText (c : HookId × UInt64) : Str := prefixedHex c.1.id ++ ':' :: prefixedHex c.2.toNat

/-- The text of a row. -/
def Row.text (r : Row) : Str := Str.words (prefixedHex r.uid.toNat) (r.cells.map cellText)

/-- Some rows, one a line. -/
def rowsText (rows : List Row) : Str := rows.flatMap fun r => r.text ++ ['\n']

/-- The words of the trailer after `page`: the cursor asked for, the next one if there
    is one, and the number of rows. -/
def trailerWords (requested : UInt32) (rows : List Row) (next : Option UInt32) : List Str :=
  [prefixedHex requested.toNat, next.elim doneWord fun cursor => prefixedHex cursor.toNat,
    prefixedHex rows.length]

/-- A page, whose last newline is missing if there is a next one. -/
def pageText (requested : UInt32) (rows : List Row) (next : Option UInt32) : Str :=
  headerLine ++ '\n' :: (rowsText rows ++
    (Str.words pageWord (trailerWords requested rows next) ++ next.elim ['\n'] fun _ => []))

/-- The bytes of an ASCII string. -/
def bytes (s : Str) : Bytes := s.map Char.toUInt8

@[simp] theorem bytes_append (s t : Str) : bytes (s ++ t) = bytes s ++ bytes t := List.map_append

@[simp] theorem bytes_cons (c : Char) (s : Str) : bytes (c :: s) = c.toUInt8 :: bytes s := rfl

@[simp] theorem bytes_nil : bytes [] = [] := rfl

@[simp] theorem length_bytes (s : Str) : (bytes s).length = s.length := List.length_map _

theorem bytes_prefixedHex (n : ℕ) : bytes (prefixedHex n) = ascii "0x" ++ hex n := rfl

theorem length_headerLine : headerLine.length = 15 := by
  unfold headerLine
  simp

theorem length_pageWord : pageWord.length = 4 := by
  unfold pageWord
  simp

theorem length_doneWord : doneWord.length = 4 := by
  unfold doneWord
  simp

theorem bytes_headerLine : bytes headerLine = ascii "vpnhide 1 stats" := by
  unfold headerLine
  rfl

theorem bytes_pageWord : bytes pageWord = ascii "page" := by
  unfold pageWord
  rfl

theorem bytes_doneWord : bytes doneWord = ascii "done" := by
  unfold doneWord
  rfl

/-! ## Rows -/

/-- The nonzero counters of a slot, among the hooks `hooks`. -/
def Stats.cellsOf (t : Stats) (slot : Slot) (hooks : List (Fin kpmStatsHookCount)) :
    List (HookId × UInt64) :=
  hooks.filterMap fun hook =>
    if t.counts slot hook = 0 then none else some (kpmStatsHookId hook, t.counts slot hook)

/-- The row of a slot. -/
def Stats.row (t : Stats) (uid : UInt32) (slot : Slot) : Row :=
  ⟨uid, t.cellsOf slot (List.finRange kpmStatsHookCount)⟩

/-- The counts of a line are written from the left. -/
theorem foldl_putCount (t : Stats) (slot : Slot) (hooks : List (Fin kpmStatsHookCount)) (cap : ℕ)
    (l : Bytes) (h : Bool) : hooks.foldl (t.putCount slot) (Buf.of cap l, h) =
      (Buf.of cap (l ++ bytes ((t.cellsOf slot hooks).flatMap fun c => ' ' :: cellText c)),
        h || !(t.cellsOf slot hooks).isEmpty) := by
  induction hooks generalizing l h with
  | nil => simp [Stats.cellsOf]
  | cons hook hooks ih =>
    rw [List.foldl_cons, Stats.putCount, Stats.cellsOf, List.filterMap_cons]
    dsimp only
    by_cases hc : t.counts slot hook = 0
    · rw [if_pos hc, if_pos hc, ih]
      rfl
    · rw [if_neg hc, if_neg hc]
      simp only [Buf.putc_of, Buf.putHex_of, ih, List.flatMap_cons, bytes_append, bytes_cons,
        cellText, bytes_prefixedHex, List.append_assoc, List.cons_append, List.nil_append,
        List.isEmpty_cons, Bool.not_false, Bool.or_true, Bool.true_or]
      rfl

/-- A slot with a nonzero counter is written as its row. -/
theorem formatStatsRow_eq (t : Stats) (cap : ℕ) (uid : UInt32) (slot : Slot) :
    t.formatStatsRow cap uid slot =
      if (t.row uid slot).cells = [] then (0, (bytes (t.row uid slot).text).take cap)
      else ((t.row uid slot).text.length + 1,
        (bytes ((t.row uid slot).text ++ ['\n'])).take cap) := by
  have hempty : (⟨[], cap, 0⟩ : Buf) = Buf.of cap [] := by simp [Buf.of]
  have htext : bytes (t.row uid slot).text = ascii "0x" ++ hex uid.toNat ++
      bytes ((t.row uid slot).cells.flatMap fun c => ' ' :: cellText c) := by
    rw [Row.text, Str.words, bytes_append, bytes_prefixedHex, List.flatMap_map]
    rfl
  rw [Stats.formatStatsRow]
  dsimp only
  rw [hempty, Buf.putHex_of, foldl_putCount, List.nil_append, Bool.false_or]
  change (if !!(t.row uid slot).cells.isEmpty then _ else _) = _
  rw [Bool.not_not]
  by_cases hc : (t.row uid slot).cells = []
  · rw [if_pos (List.isEmpty_iff.2 hc), if_pos hc, htext]
    rfl
  · rw [if_neg (mt List.isEmpty_iff.1 hc), if_neg hc, bytes_append, htext, Buf.putc_of]
    refine Prod.ext ?_ rfl
    have hlen := congrArg List.length htext
    rw [length_bytes] at hlen
    rw [hlen]
    exact List.length_append

/-- A number is printed in its digits and the two characters before them. -/
theorem length_prefixedHex {n k : ℕ} (hk : 0 < k) (hn : n < 16 ^ k) :
    (prefixedHex n).length ≤ k + 2 :=
  Nat.add_le_add_right (length_toDigits_le (by decide) hk hn) 2

/-- A row is short. -/
theorem length_row_text (t : Stats) (uid : UInt32) (slot : Slot) :
    (t.row uid slot).text.length ≤ 298 := by
  have huid : (prefixedHex uid.toNat).length ≤ 10 :=
    length_prefixedHex (by decide) uid.toNat_lt
  have hcell : ∀ c ∈ (t.row uid slot).cells.map cellText, (' ' :: c).length ≤ 24 := by
    intro c hc
    obtain ⟨⟨hook, count⟩, -, rfl⟩ := List.mem_map.1 hc
    have hid : (prefixedHex hook.id).length ≤ 4 := by
      refine length_prefixedHex (by decide) ?_
      cases hook <;> decide
    have hcount : (prefixedHex count.toNat).length ≤ 18 :=
      length_prefixedHex (by decide) count.toNat_lt
    simp only [cellText, List.length_cons, List.length_append]
    omega
  -- There is a cell for each hook at most.
  have hcells : (t.row uid slot).cells.length ≤ 12 :=
    (List.length_filterMap_le _ _).trans (by simp)
  have hsum : (((t.row uid slot).cells.map cellText).flatMap (' ' :: ·)).length ≤ 12 * 24 := by
    rw [List.length_flatMap]
    refine (List.sum_le_card_nsmul _ 24 ?_).trans ?_
    · intro n hn
      obtain ⟨c, hc, rfl⟩ := List.mem_map.1 hn
      exact hcell c hc
    · rw [List.length_map, List.length_map, smul_eq_mul]
      exact Nat.mul_le_mul_right 24 hcells
  rw [Row.text, Str.words, List.length_append]
  exact Nat.add_le_add huid hsum

end VpnHide.Kpm

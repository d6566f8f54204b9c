import Mathlib.Data.List.Basic
import Mathlib.Order.Basic
import Mathlib.Order.Nat

/-!
# Records in a buffer

A buffer is read record by record: `next l` is the length of the record that `l` begins
with, if there is one. The buffer is then the sequence of its `records`, as long as it
goes, and a tail that is no record.

A filter of records works in place: it reads at one cursor and writes at another, which
is never ahead. What has been written are the records kept so far, and what is still to be
read is as it was (`Compaction`).
-/

namespace VpnHide.Lib

variable {α : Type*}

/-! ## Records -/

/-- The records of a buffer, and its tail. -/
def records (next : List α → Option ℕ) (l : List α) : List (List α) × List α :=
  match next l with
  | none => ([], l)
  | some n =>
    if _h : 0 < n ∧ n ≤ l.length then
      (l.take n :: (records next (l.drop n)).1, (records next (l.drop n)).2)
    else ([], l)
termination_by l.length
decreasing_by all_goals (rw [List.length_drop]; omega)

/-- A record is not empty, and lies within the buffer. -/
def IsNext (next : List α → Option ℕ) : Prop := ∀ l n, next l = some n → 0 < n ∧ n ≤ l.length

/-- A record stays one when what follows it changes, unless it is the last one, which may
    be shorter than it says. -/
def IsLocal (next : List α → Option ℕ) : Prop :=
  ∀ l n, next l = some n → ∀ t, (l.drop n = [] → t = []) → next (l.take n ++ t) = some n

variable {next : List α → Option ℕ} {l : List α}

/-- What is no record is the rest. -/
theorem records_of_none (h : next l = none) : records next l = ([], l) := by
  rw [records, h]

/-- The first record, and what comes after it. -/
theorem records_of_some (hnext : IsNext next) {n : ℕ} (h : next l = some n) :
    records next l = (l.take n :: (records next (l.drop n)).1, (records next (l.drop n)).2) := by
  rw [records, h]
  exact dif_pos (hnext l n h)

theorem records_nil (hnext : IsNext next) : records next [] = ([], []) := by
  refine records_of_none (Option.eq_none_iff_forall_not_mem.2 fun n hn => ?_)
  have h := hnext [] n hn
  rw [List.length_nil] at h
  omega

/-- Induction on the records of a buffer. -/
theorem records_induction (hnext : IsNext next) {motive : List α → Prop}
    (tail : ∀ l, next l = none → motive l)
    (record : ∀ l n, next l = some n → motive (l.drop n) → motive l) (l : List α) : motive l := by
  induction hlen : l.length using Nat.strong_induction_on generalizing l with
  | _ k ih =>
    cases h : next l with
    | none => exact tail l h
    | some n =>
      obtain ⟨hpos, hle⟩ := hnext l n h
      exact record l n h (ih _ (by rw [List.length_drop]; omega) _ rfl)

/-- The records and the tail are the buffer. -/
theorem flatten_records (hnext : IsNext next) (l : List α) :
    (records next l).1.flatten ++ (records next l).2 = l := by
  induction l using records_induction hnext with
  | tail l h =>
    rw [records_of_none h]
    rfl
  | record l n h ih =>
    rw [records_of_some hnext h, List.flatten_cons, List.append_assoc, ih, List.take_append_drop]

/-- There is no record at the tail. -/
theorem next_tail (hnext : IsNext next) (l : List α) : next (records next l).2 = none := by
  induction l using records_induction hnext with
  | tail l h => rwa [records_of_none h]
  | record l n h ih => rwa [records_of_some hnext h]

/-- The records that are kept are those of what is left. -/
theorem records_filter (hnext : IsNext next) (hlocal : IsLocal next)
    (p : List α → Bool) (l : List α) :
    records next (((records next l).1.filter p).flatten ++ (records next l).2) =
      ((records next l).1.filter p, (records next l).2) := by
  induction l using records_induction hnext with
  | tail l h =>
    rw [records_of_none h]
    exact records_of_none h
  | record l n h ih =>
    rw [records_of_some hnext h, List.filter_cons]
    dsimp only
    split_ifs with hp
    · -- The record is read again: what follows it is empty if it was.
      have hlast : l.drop n = [] →
          ((records next (l.drop n)).1.filter p).flatten ++ (records next (l.drop n)).2 = [] := by
        intro hdrop
        rw [hdrop, records_nil hnext]
        rfl
      have hlen : (l.take n).length = n := List.length_take_of_le (hnext l n h).2
      rw [List.flatten_cons, List.append_assoc, records_of_some hnext (hlocal l n h _ hlast),
        List.take_left' hlen, List.drop_left' hlen, ih]
    · exact ih

/-! ## Lines -/

/-- The length of the first line, which ends with its terminator, or with the buffer. -/
def nextUntil (q : α → Bool) (l : List α) : Option ℕ :=
  if l = [] then none else some (min (l.findIdx q + 1) l.length)

/-- Lines take up some bytes. -/
theorem isNext_nextUntil (q : α → Bool) : IsNext (nextUntil q) := by
  intro l n h
  rw [nextUntil] at h
  split_ifs at h with hl
  obtain rfl := Option.some.inj h
  have := List.length_pos_iff.2 hl
  omega

/-- Line by line. -/
theorem nextUntil_induction (q : α → Bool) {motive : List α → Prop} (nil : motive [])
    (line : ∀ l n, l ≠ [] → min (l.findIdx q + 1) l.length = n → motive (l.drop n) → motive l)
    (l : List α) :
    motive l := by
  induction l using records_induction (isNext_nextUntil q) with
  | tail l h =>
    by_cases hl : l = []
    · exact hl ▸ nil
    · rw [nextUntil, if_neg hl] at h
      cases h
  | record l n h ih =>
    by_cases hl : l = []
    · exact hl ▸ nil
    · rw [nextUntil, if_neg hl] at h
      exact line l n hl (Option.some.inj h) ih

/-- The lines of a buffer, each with its terminator. -/
def linesUntil (q : α → Bool) (l : List α) : List (List α) := (records (nextUntil q) l).1

theorem linesUntil_nil (q : α → Bool) : linesUntil q ([] : List α) = [] := by
  rw [linesUntil, records_nil (isNext_nextUntil q)]

/-- The first line, and what comes after it. -/
theorem linesUntil_cons {q : α → Bool} {l : List α} (h : l ≠ []) :
    linesUntil q l = l.take (min (l.findIdx q + 1) l.length) ::
      linesUntil q (l.drop (min (l.findIdx q + 1) l.length)) := by
  rw [linesUntil, records_of_some (isNext_nextUntil q) (if_neg h)]
  rfl

/-! ## Ranges -/

/-- `get(off..off + n)`. -/
def getRange (l : List α) (off n : ℕ) : Option (List α) :=
  if off + n ≤ l.length then some ((l.drop off).take n) else none

theorem getRange_drop (l : List α) (a off n : ℕ) (ha : a ≤ l.length) :
    getRange (l.drop a) off n = getRange l (a + off) n := by
  have hle : off + n ≤ (l.drop a).length ↔ a + off + n ≤ l.length := by
    rw [List.length_drop]
    omega
  rw [getRange, getRange, List.drop_drop]
  simp only [hle]

theorem getRange_take {off n k : ℕ} (h : off + n ≤ k) :
    getRange (l.take k) off n = getRange l off n := by
  have hmin : min n (k - off) = n := by omega
  have hle : off + n ≤ (l.take k).length ↔ off + n ≤ l.length := by
    rw [List.length_take]
    omega
  rw [getRange, getRange, List.drop_take, List.take_take, hmin]
  simp only [hle]

theorem getRange_eq_none {off n : ℕ} (h : l.length < off + n) : getRange l off n = none :=
  if_neg (Nat.not_le.2 h)

theorem getRange_eq_some {off n : ℕ} (h : off + n ≤ l.length) :
    getRange l off n = some ((l.drop off).take n) := if_pos h

/-! ## Compaction in place -/

/-- `copy_within(src..stop, dest)`. -/
def copyWithin (data : List α) (src stop dest : ℕ) : List α :=
  data.take dest ++ (data.take stop).drop src ++ data.drop (dest + (stop - src))

/-- Moving the `n` elements at `src` down to `dest`, unless they are there. -/
def moveDown (data : List α) (src n dest : ℕ) : List α :=
  if dest ≠ src then copyWithin data src (src + n) dest else data

variable {data orig kept : List α} {r w n : ℕ}

/-- What a move leaves where. -/
theorem moveDown_eq (data : List α) (r n w : ℕ) :
    moveDown data r n w = data.take w ++ ((data.drop r).take n ++ data.drop (w + n)) := by
  rw [moveDown]
  split_ifs with h
  · rw [copyWithin, List.drop_take, Nat.add_sub_cancel_left, List.append_assoc]
  · have heq : w = r := not_not.1 h
    rw [heq, ← List.drop_drop, List.take_append_drop, List.take_append_drop]

/-- A move does not touch what comes after it. -/
theorem drop_moveDown (hn : r + n ≤ data.length) (hw : w ≤ r) :
    (moveDown data r n w).drop (w + n) = data.drop (w + n) := by
  have htake : (data.take w).length = w := List.length_take_of_le (by omega)
  have hmid : ((data.drop r).take n).length = n := by
    rw [List.length_take, List.length_drop]
    omega
  rw [moveDown_eq, ← List.drop_drop, List.drop_left' htake, List.drop_left' hmid]

/-- A loop that copies the `n` elements at `src` down to `dest`, one after the other. -/
def copyForward (data : List α) (dest src : ℕ) : ℕ → List α
  | 0 => data
  | k + 1 =>
    let data := copyForward data dest src k
    (data[src + k]?).elim data (data.set (dest + k))

/-- Copying forward does not read what it has written, if it copies down. -/
theorem getElem?_copyForward {dest src : ℕ} (hle : dest ≤ src)
    (hn : src + n ≤ data.length) (i : ℕ) :
    (copyForward data dest src n)[i]? =
      if dest ≤ i ∧ i < dest + n then data[src + (i - dest)]? else data[i]? := by
  induction n generalizing i with
  | zero => rw [copyForward, if_neg (by omega)]
  | succ k ih =>
    have hlen : ∀ m, (copyForward data dest src m).length = data.length := by
      intro m
      induction m with
      | zero => rfl
      | succ m ihm =>
        rw [copyForward]
        cases (copyForward data dest src m)[src + m]? with
        | none => exact ihm
        | some a => rwa [Option.elim_some, List.length_set]
    have hread : (copyForward data dest src k)[src + k]? = some data[src + k] := by
      rw [ih (by omega), if_neg (by omega), List.getElem?_eq_getElem]
    rw [copyForward, hread, Option.elim_some, List.getElem?_set, ih (by omega)]
    by_cases hi : dest + k = i
    · subst hi
      have hadd : src + (dest + k - dest) = src + k := by omega
      rw [if_pos rfl, if_pos (by rw [hlen]; omega), if_pos (by omega), hadd,
        List.getElem?_eq_getElem]
    · rw [if_neg hi]
      by_cases hbelow : dest ≤ i ∧ i < dest + k
      · rw [if_pos hbelow, if_pos (by omega)]
      · rw [if_neg hbelow, if_neg (by omega)]

/-- So it moves down what it copies. -/
theorem copyForward_eq_moveDown {dest src : ℕ} (hle : dest ≤ src) (hn : src + n ≤ data.length) :
    copyForward data dest src n = moveDown data src n dest := by
  refine List.ext_getElem? fun i => ?_
  have htake : (data.take dest).length = dest := List.length_take_of_le (by omega)
  have hmid : ((data.drop src).take n).length = n := by
    rw [List.length_take, List.length_drop]
    omega
  rw [getElem?_copyForward hle hn, moveDown_eq]
  by_cases hlow : i < dest
  · rw [if_neg (by omega), List.getElem?_append_left (by omega), List.getElem?_take, if_pos hlow]
  · rw [List.getElem?_append_right (by omega), htake]
    by_cases hhigh : i < dest + n
    · rw [if_pos (by omega), List.getElem?_append_left (by omega), List.getElem?_take,
        if_pos (by omega), List.getElem?_drop]
    · rw [if_neg (by omega), List.getElem?_append_right (by omega), hmid, List.getElem?_drop]
      congr 1
      omega

/-- A buffer that is being compacted: it is read at `r` and written at `w`. -/
structure Compaction (orig data : List α) (r w : ℕ) (kept : List α) : Prop where
  length_eq : data.length = orig.length
  le : w ≤ r
  le_length : r ≤ orig.length
  unread : data.drop r = orig.drop r
  written : data.take w = kept
  unwritten : data.drop w = orig.drop w

namespace Compaction

/-- Nothing has been moved. -/
theorem start (l : List α) : Compaction l l 0 0 [] where
  length_eq := rfl
  le := le_rfl
  le_length := Nat.zero_le _
  unread := rfl
  written := rfl
  unwritten := rfl

/-- What stands before the cursors is left alone. -/
theorem startAt (l : List α) {i : ℕ} (hi : i ≤ l.length) : Compaction l l i i (l.take i) where
  length_eq := rfl
  le := le_rfl
  le_length := hi
  unread := rfl
  written := rfl
  unwritten := rfl

/-- A record is skipped. -/
theorem skip (h : Compaction orig data r w kept) (hn : r + n ≤ orig.length) :
    Compaction orig data (r + n) w kept where
  length_eq := h.length_eq
  le := h.le.trans (Nat.le_add_right _ _)
  le_length := hn
  unread := by rw [← List.drop_drop, h.unread, List.drop_drop]
  written := h.written
  unwritten := h.unwritten

/-- A record is kept. -/
theorem keep (h : Compaction orig data r w kept) (hn : r + n ≤ orig.length) :
    Compaction orig (moveDown data r n w) (r + n) (w + n) (kept ++ (orig.drop r).take n) := by
  have hle := h.le
  have hlen := h.length_eq
  have hunwritten : (moveDown data r n w).drop (w + n) = orig.drop (w + n) := by
    rw [drop_moveDown (by omega) hle, ← List.drop_drop, h.unwritten, List.drop_drop]
  rw [moveDown_eq, h.written, h.unread] at hunwritten ⊢
  have hkept : kept.length = w := by
    rw [← h.written, List.length_take]
    omega
  have htake : ((orig.drop r).take n).length = n := by
    rw [List.length_take, List.length_drop]
    omega
  refine ⟨?_, by omega, hn, ?_, ?_, hunwritten⟩
  · simp only [List.length_append, hkept, htake, List.length_drop]
    omega
  · obtain ⟨k, rfl⟩ := Nat.exists_eq_add_of_le hle
    have hcursor : w + k + n = w + n + k := by omega
    rw [hcursor, ← List.drop_drop, hunwritten, List.drop_drop]
  · rw [← List.append_assoc, List.take_left']
    rw [List.length_append, hkept, htake]

/-- The length of what was kept. -/
theorem length_kept (h : Compaction orig data r w kept) : kept.length = w := by
  have hle := h.le.trans h.le_length
  rw [← h.written, List.length_take, h.length_eq]
  omega

end Compaction

end VpnHide.Lib

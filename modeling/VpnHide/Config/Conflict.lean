import VpnHide.Config.Edit

/-!
# Conflicts of stale edits

An edit may be based on an older revision, as long as no edit committed since wrote a path
that overlaps its own (`core-rpc/src/config_edit.rs`). What was committed is kept as the
last revision of each path only (`noteWrites`), and `conflictField` reads nothing else.

`history` is the map of a log of commits; it has the last writer of each path
(`exists_getElem?_history`). A verdict depends only on the revisions above its base
(`AgreeAbove.conflictField_eq`), so that older ones may be forgotten.
-/

namespace VpnHide.Config

open Lib

/-- The path an edit conflicts at, when its base is older than what is current. -/
def conflictField (base current : ℕ) (edit : ConfigEdit) (fieldRevisions : StrMap ℕ) : Option Str :=
  if current < base then some "config".toList
  else if base = current then none
  else (writeSet edit).find? fun write =>
    fieldRevisions.toList.any fun (written, revision) =>
      base < revision && fieldsOverlap write written

/-- Recording that a path was committed. -/
def noteWrite (revision : ℕ) (fieldRevisions : StrMap ℕ) (write : Str) : StrMap ℕ :=
  fieldRevisions.insert write (match fieldRevisions[write]? with
    | some last => max last revision
    | none => revision)

/-- The revisions of the paths that an edit writes. -/
def noteWrites (fieldRevisions : StrMap ℕ) (writes : List Str) (revision : ℕ) : StrMap ℕ :=
  writes.foldl (noteWrite revision) fieldRevisions

/-- The map of a log of commits, newest first: their revisions, with what they wrote. -/
def history : List (ℕ × List Str) → StrMap ℕ
  | [] => ∅
  | (revision, writes) :: log => noteWrites (history log) writes revision

section NoteWrites

variable {m : StrMap ℕ} {writes : List Str} {revision r : ℕ} {k : Str}

/-- The revision of a path after one write. -/
theorem getElem?_noteWrite (w : Str) :
    (noteWrite revision m w)[k]? = if w = k then some (max ((m[k]?).getD 0) revision)
      else m[k]? := by
  simp only [noteWrite, Std.ExtTreeMap.getElem?_insert, Std.LawfulEqCmp.compare_eq_iff_eq]
  split_ifs with hw
  · subst hw
    cases m[w]? with
    | none => rw [Option.getD_none, Nat.zero_max]
    | some last => rfl
  · rfl

/-- Other paths keep their revision. -/
theorem getElem?_noteWrites_of_not_mem (h : k ∉ writes) :
    (noteWrites m writes revision)[k]? = m[k]? := by
  induction writes generalizing m with
  | nil => rfl
  | cons w writes ih =>
    rw [List.mem_cons, not_or] at h
    change (noteWrites (noteWrite revision m w) writes revision)[k]? = _
    rw [ih h.2, getElem?_noteWrite, if_neg (Ne.symm h.1)]

/-- The paths that are written have the new revision. -/
theorem getElem?_noteWrites_of_mem (h : k ∈ writes) :
    (noteWrites m writes revision)[k]? = some (max ((m[k]?).getD 0) revision) := by
  induction writes generalizing m with
  | nil => cases h
  | cons w writes ih =>
    change (noteWrites (noteWrite revision m w) writes revision)[k]? = _
    by_cases hk : k ∈ writes
    · rw [ih hk, getElem?_noteWrite]
      split_ifs
      · rw [Option.getD_some, max_assoc, max_self]
      · rfl
    · obtain rfl := (List.mem_cons.1 h).resolve_right hk
      rw [getElem?_noteWrites_of_not_mem hk, getElem?_noteWrite, if_pos rfl]

/-- Revisions only grow. -/
theorem exists_getElem?_noteWrites (writes : List Str) (revision : ℕ) (h : m[k]? = some r) :
    ∃ r', (noteWrites m writes revision)[k]? = some r' ∧ r ≤ r' := by
  by_cases hk : k ∈ writes
  · refine ⟨_, getElem?_noteWrites_of_mem hk, ?_⟩
    rw [h, Option.getD_some]
    exact le_max_left r revision
  · exact ⟨r, (getElem?_noteWrites_of_not_mem hk).trans h, le_rfl⟩

/-- A path is at the revision of its last writer, or of a later one. -/
theorem exists_getElem?_history {log : List (ℕ × List Str)} (h : (revision, writes) ∈ log)
    (hk : k ∈ writes) :
    ∃ r, (history log)[k]? = some r ∧ revision ≤ r := by
  induction log with
  | nil => cases h
  | cons commit log ih =>
    obtain h | h := List.mem_cons.1 h
    · subst h
      exact ⟨_, getElem?_noteWrites_of_mem hk, le_max_right _ _⟩
    · obtain ⟨r, hr, hle⟩ := ih h
      obtain ⟨r', hr', hle'⟩ := exists_getElem?_noteWrites commit.2 commit.1 hr
      exact ⟨r', hr', hle.trans hle'⟩

end NoteWrites

/-! ## Verdicts -/

/-- Two maps agree on what was written after `floor`. -/
def AgreeAbove (floor : ℕ) (m m' : StrMap ℕ) : Prop :=
  ∀ (written : Str) (revision : ℕ), floor < revision →
    (m[written]? = some revision ↔ m'[written]? = some revision)

section Verdict

variable {base current floor floor' : ℕ} {edit : ConfigEdit} {m m' m'' : StrMap ℕ}

/-- Agreement above a lower floor is more. -/
theorem AgreeAbove.mono (h : AgreeAbove floor m m') (hle : floor ≤ floor') :
    AgreeAbove floor' m m' :=
  fun written revision hrev => h written revision (hle.trans_lt hrev)

theorem AgreeAbove.trans (h : AgreeAbove floor m m') (h' : AgreeAbove floor m' m'') :
    AgreeAbove floor m m'' :=
  fun written revision hrev => (h written revision hrev).trans (h' written revision hrev)

/-- What is below the floor may be dropped. -/
theorem agreeAbove_filter (floor : ℕ) (m : StrMap ℕ) :
    AgreeAbove floor (m.filter fun _ revision => floor < revision) m := by
  intro written revision hrev
  rw [Std.ExtTreeMap.getElem?_filter', Option.filter_eq_some_iff, decide_eq_true_eq]
  exact and_iff_left hrev

/-- A commit after everything else is noted in both maps alike. -/
theorem AgreeAbove.noteWrites (h : AgreeAbove floor m m') (hfloor : floor ≤ current)
    (hm' : ∀ (k : Str) (r : ℕ), m'[k]? = some r → r ≤ current) {revision : ℕ}
    (hrev : current < revision)
    (writes : List Str) :
    AgreeAbove floor (noteWrites m writes revision) (noteWrites m' writes revision) := by
  have hm : ∀ (k : Str) (r : ℕ), m[k]? = some r → r ≤ current := by
    intro k r hr
    by_cases hlt : floor < r
    · exact hm' k r ((h k r hlt).1 hr)
    · omega
  intro k r hr
  by_cases hk : k ∈ writes
  · have hlast {m : StrMap ℕ} (hm : ∀ (k : Str) (r : ℕ), m[k]? = some r → r ≤ current) :
        max ((m[k]?).getD 0) revision = revision := by
      cases hget : m[k]? with
      | none => exact Nat.zero_max revision
      | some last => exact max_eq_right ((hm k last hget).trans hrev.le)
    rw [getElem?_noteWrites_of_mem hk, getElem?_noteWrites_of_mem hk, hlast hm, hlast hm']
  · rw [getElem?_noteWrites_of_not_mem hk, getElem?_noteWrites_of_not_mem hk]
    exact h k r hr

/-- What a write conflicts with. -/
theorem any_conflict {write : Str} :
    (m.toList.any fun (written, revision) => base < revision && fieldsOverlap write written) =
      true ↔ ∃ written revision, m[written]? = some revision ∧ base < revision ∧
        fieldsOverlap write written = true := by
  simp only [List.any_eq_true, Prod.exists, Std.ExtTreeMap.mem_toList_iff_getElem?_eq_some,
    Bool.and_eq_true, decide_eq_true_eq]

/-- Maps that agree above the base give the same verdict. -/
theorem AgreeAbove.conflictField_eq (h : AgreeAbove base m m') :
    conflictField base current edit m = conflictField base current edit m' := by
  have hany : (fun write => m.toList.any fun (written, revision) => base < revision &&
      fieldsOverlap write written) =
      fun write => m'.toList.any fun (written, revision) =>
        base < revision && fieldsOverlap write written := by
    funext write
    rw [Bool.eq_iff_iff, any_conflict, any_conflict]
    constructor
    · rintro ⟨written, revision, hm, hrev, hoverlap⟩
      exact ⟨written, revision, (h written revision hrev).1 hm, hrev, hoverlap⟩
    · rintro ⟨written, revision, hm, hrev, hoverlap⟩
      exact ⟨written, revision, (h written revision hrev).2 hm, hrev, hoverlap⟩
  simp only [conflictField, hany]

/-- An edit without a conflict is based on the current revision, or nothing it writes
    overlaps what was written since. -/
theorem not_overlap_of_conflictField (h : conflictField base current edit m = none) :
    base = current ∨ base < current ∧ ∀ write ∈ writeSet edit, ∀ written revision,
      m[written]? = some revision → base < revision → fieldsOverlap write written = false := by
  rw [conflictField] at h
  split_ifs at h with hlt heq
  · exact .inl heq
  · refine .inr ⟨by omega, fun write hwrite written revision hm hrev => ?_⟩
    rw [List.find?_eq_none] at h
    by_contra hoverlap
    rw [Bool.not_eq_false] at hoverlap
    exact h write hwrite (any_conflict.2 ⟨written, revision, hm, hrev, hoverlap⟩)

end Verdict

end VpnHide.Config

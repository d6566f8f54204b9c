import Mathlib.Data.List.Basic

/-!
# Streams with a first defect

Whether an element of a stream is a defect depends on the elements before it. A stream is
*clean* if it has no defect; otherwise there is a first one, and only one.
-/

namespace VpnHide.Lib

variable {α : Type*} {bad : List α → α → Prop} {l t : List α} {a : α}

/-- No element is bad after those before it. -/
def Clean (bad : List α → α → Prop) (l : List α) : Prop :=
  ∀ pre a post, l = pre ++ a :: post → ¬bad pre a

theorem clean_nil (bad : List α → α → Prop) : Clean bad [] := by
  intro pre a post h
  simp at h

namespace Clean

/-- The first items of a clean stream are clean. -/
theorem of_append (h : Clean bad (l ++ t)) : Clean bad l := by
  rintro pre a post rfl
  exact h pre a (post ++ t) (by simp)

/-- No item of a clean stream is bad. -/
theorem not_bad (h : Clean bad (l ++ a :: t)) : ¬bad l a := h l a t rfl

/-- One more item. -/
theorem concat (h : Clean bad l) (ha : ¬bad l a) : Clean bad (l ++ [a]) := by
  intro pre b post heq
  obtain rfl | ⟨post, c, rfl⟩ := List.eq_nil_or_concat post
  · obtain ⟨rfl, rfl⟩ := List.concat_inj.1 (by simpa using heq)
    exact ha
  · have hinit : l = pre ++ b :: post := by
      have : l ++ [a] = (pre ++ b :: post) ++ [c] := by simpa using heq
      exact (List.append_inj' this rfl).1
    exact h pre b post hinit

/-- There is at most one first defect. -/
theorem first_unique {pre pre' post post' : List α} {a' : α} (h : Clean bad pre) (ha : bad pre a)
    (h' : Clean bad pre') (ha' : bad pre' a') (heq : pre ++ a :: post = pre' ++ a' :: post') :
    pre = pre' ∧ a = a' := by
  obtain ⟨t, hpre, hpost⟩ | ⟨t, hpre, hpost⟩ := List.append_eq_append_iff.1 heq
  · cases t with
    | nil =>
      simp only [List.append_nil, List.nil_append, List.cons.injEq] at hpre hpost
      exact ⟨hpre.symm, hpost.1⟩
    | cons b t =>
      simp only [List.cons_append, List.cons.injEq] at hpost
      rw [hpre, ← hpost.1] at h'
      exact absurd ha h'.not_bad
  · cases t with
    | nil =>
      simp only [List.append_nil, List.nil_append, List.cons.injEq] at hpre hpost
      exact ⟨hpre, hpost.1.symm⟩
    | cons b t =>
      simp only [List.cons_append, List.cons.injEq] at hpost
      rw [hpre, ← hpost.1] at h
      exact absurd ha' h.not_bad

end Clean

end VpnHide.Lib

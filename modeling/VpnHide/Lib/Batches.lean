import Mathlib.Data.List.Basic

/-!
# Reading in batches

What is read comes in batches, and an empty batch says that there is no more. A reader that stops
there reads everything, unless an empty batch comes before one that is not
(`readUntilEmpty_eq_flatten_iff`).
-/

namespace VpnHide.Lib

variable {α : Type*}

/-- What a reader gets that stops at an empty batch. -/
def readUntilEmpty : List (List α) → List α
  | [] => []
  | b :: bs => if b = [] then [] else b ++ readUntilEmpty bs

theorem readUntilEmpty_cons_of_ne_nil {b : List α} (h : b ≠ []) (bs : List (List α)) :
    readUntilEmpty (b :: bs) = b ++ readUntilEmpty bs := if_neg h

/-- Nothing is lost, if nothing comes after an empty batch. -/
theorem readUntilEmpty_eq_flatten_iff (bs : List (List α)) :
    readUntilEmpty bs = bs.flatten ↔ ∀ pre post, bs = pre ++ [] :: post → ∀ b ∈ post, b = [] := by
  induction bs with
  | nil =>
    refine iff_of_true rfl fun pre post h => ?_
    cases pre <;> cases h
  | cons b bs ih =>
    rw [List.flatten_cons]
    by_cases hb : b = []
    · subst hb
      rw [readUntilEmpty, if_pos rfl, List.nil_append, eq_comm, List.flatten_eq_nil_iff]
      refine ⟨fun h pre post heq c hc => h c ?_, fun h => h [] bs rfl⟩
      cases pre with
      | nil =>
        obtain ⟨-, rfl⟩ := List.cons.inj heq
        exact hc
      | cons d pre =>
        obtain ⟨-, rfl⟩ := List.cons.inj heq
        exact List.mem_append_right _ (List.mem_cons_of_mem _ hc)
    · rw [readUntilEmpty_cons_of_ne_nil hb, List.append_cancel_left_eq, ih]
      refine ⟨fun h pre post heq => ?_, fun h pre post heq => h (b :: pre) post (by rw [heq]; rfl)⟩
      cases pre with
      | nil => exact absurd (List.cons.inj heq).1 hb
      | cons d pre => exact h pre post (List.cons.inj heq).2

end VpnHide.Lib

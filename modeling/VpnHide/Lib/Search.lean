import Mathlib.Order.Basic
import Mathlib.Order.Nat
import Mathlib.Data.List.Basic

/-!
# Binary search

`lowerBound below lo hi` is the first place of `[lo, hi)` that is not below what is searched,
if those below come first (`lowerBound_spec`).
-/

namespace VpnHide.Lib

/-- The loop of a binary search. -/
def lowerBound (below : ℕ → Bool) (lo hi : ℕ) : ℕ :=
  if lo < hi then
    let mid := lo + (hi - lo) / 2
    if below mid then lowerBound below (mid + 1) hi else lowerBound below lo mid
  else lo
termination_by hi - lo

/-- The search finds the first place where the test fails. -/
theorem lowerBound_spec {below : ℕ → Bool} {n : ℕ}
    (hmono : ∀ i j, i ≤ j → j < n → below j = true → below i = true) :
    ∀ lo hi, lo ≤ hi → hi ≤ n → (∀ i < lo, below i = true) →
      (∀ i, hi ≤ i → i < n → below i = false) →
        lowerBound below lo hi ≤ n ∧ (∀ i < lowerBound below lo hi, below i = true) ∧
          ∀ i, lowerBound below lo hi ≤ i → i < n → below i = false := by
  intro lo hi
  fun_induction lowerBound below lo hi with
  | case1 lo hi hlt mid hmid ih =>
    intro hle hn hlow hhigh
    refine ih (by omega) hn (fun i hi => ?_) hhigh
    exact hmono i mid (by omega) (by omega) hmid
  | case2 lo hi hlt mid hmid ih =>
    intro hle hn hlow hhigh
    refine ih (by omega) (by omega) hlow fun i hi hin => ?_
    by_contra hbelow
    exact hmid (hmono mid i hi hin (Bool.not_eq_false _ ▸ hbelow))
  | case3 lo hi hlt =>
    intro hle hn hlow hhigh
    exact ⟨by omega, hlow, fun i hi hin => hhigh i (by omega) hin⟩

end VpnHide.Lib

import Mathlib.Order.Defs.LinearOrder
import Mathlib.Data.Nat.Notation

/-!
# Machine words

Unsigned words are linearly ordered, by their values.
-/

namespace VpnHide.Lib

instance instLinearOrderUInt32 : LinearOrder UInt32 where
  le_refl := UInt32.le_refl
  le_trans _ _ _ := UInt32.le_trans
  lt_iff_le_not_ge a b := by
    rw [UInt32.not_le, UInt32.lt_iff_toNat_lt, UInt32.le_iff_toNat_le]
    omega
  le_antisymm _ _ := UInt32.le_antisymm
  le_total := UInt32.le_total
  toDecidableLE := inferInstance
  toDecidableEq := inferInstance
  toDecidableLT := inferInstance

instance instLinearOrderUInt64 : LinearOrder UInt64 where
  le_refl := UInt64.le_refl
  le_trans _ _ _ := UInt64.le_trans
  lt_iff_le_not_ge a b := by
    rw [UInt64.not_le, UInt64.lt_iff_toNat_lt, UInt64.le_iff_toNat_le]
    omega
  le_antisymm _ _ := UInt64.le_antisymm
  le_total := UInt64.le_total
  toDecidableLE := inferInstance
  toDecidableEq := inferInstance
  toDecidableLT := inferInstance

/-! ## Masks -/

/-- A bit is in a disjunction of masks if it is in one of them. -/
theorem foldl_or_and_eq_zero (l : List UInt32) (m bit : UInt32) :
    l.foldl (· ||| ·) m &&& bit = 0 ↔ m &&& bit = 0 ∧ ∀ x ∈ l, x &&& bit = 0 := by
  have hdistrib : ∀ a b c : UInt32, (a ||| b) &&& c = (a &&& c) ||| (b &&& c) := fun _ _ _ =>
    UInt32.toBitVec_inj.1 BitVec.and_or_distrib_right
  induction l generalizing m with
  | nil => simp
  | cons x l ih =>
    rw [List.foldl_cons]
    refine (ih _).trans ?_
    simp [hdistrib, and_assoc]

/-- Two steps do not change the parity of a counter. -/
theorem add_one_add_one_and_one (x : UInt32) : (x + 1 + 1) &&& 1 = x &&& 1 := by
  rw [← UInt32.toNat_inj]
  simp only [UInt32.toNat_and, UInt32.toNat_add, UInt32.toNat_one, Nat.and_one_is_mod]
  omega

end VpnHide.Lib

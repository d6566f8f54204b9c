import Mathlib.Logic.Function.Basic
import Mathlib.Order.Nat

/-!
# Open addressing

A table of slots, each owned by a key or by none (`nil`), in which a key looks for its
slot along its own *probe sequence* `probe k 0, probe k 1, …`, skipping slots of other
keys. A slot is claimed when it is free, and never given up.

The invariant is about the whole of the sequence: a key sits behind slots of others only
(`Placed`). It is kept when a key that has `Passed` only slots of others claims the free
one it is at (`Placed.claim`), and so no key owns two slots (`Placed.unique`), however
many look for a slot at once.
-/

namespace VpnHide.Lib

variable {σ κ : Type*} {nil : κ} {probe : κ → ℕ → σ} {owner : σ → κ}

/-- The slot `i` is owned by a key other than `k`. -/
def Other (nil : κ) (owner : σ → κ) (k : κ) (i : σ) : Prop := owner i ≠ nil ∧ owner i ≠ k

/-- The first `p` slots of the probe sequence of `k` are owned by others. -/
def Passed (nil : κ) (probe : κ → ℕ → σ) (owner : σ → κ) (k : κ) (p : ℕ) : Prop :=
  ∀ q < p, Other nil owner k (probe k q)

/-- Every key sits in its probe sequence behind slots of others. -/
def Placed (nil : κ) (probe : κ → ℕ → σ) (owner : σ → κ) : Prop :=
  ∀ i, owner i ≠ nil → ∃ p, probe (owner i) p = i ∧ Passed nil probe owner (owner i) p

theorem Passed.zero (k : κ) : Passed nil probe owner k 0 :=
  fun q hq => absurd hq (Nat.not_lt_zero q)

/-- One more probe has passed. -/
theorem Passed.succ {k : κ} {p : ℕ} (h : Passed nil probe owner k p)
    (hp : Other nil owner k (probe k p)) : Passed nil probe owner k (p + 1) := by
  intro q hq
  rcases Nat.lt_succ_iff_lt_or_eq.1 hq with hq | rfl
  · exact h q hq
  · exact hp

/-- A key owns at most one slot. -/
theorem Placed.unique (h : Placed nil probe owner) {i j : σ} (hij : owner i = owner j)
    (hi : owner i ≠ nil) : i = j := by
  obtain ⟨p, hp, hpassed⟩ := h i hi
  obtain ⟨q, hq, hqassed⟩ := h j (hij ▸ hi)
  rw [← hij] at hq hqassed
  -- The one that comes first in the sequence is passed by the other.
  rcases lt_trichotomy p q with hlt | rfl | hlt
  · exact absurd (congrArg owner hp) (hqassed p hlt).2
  · exact hp.symm.trans hq
  · exact absurd ((congrArg owner hq).trans hij.symm) (hpassed q hlt).2

section Claim

variable [DecidableEq σ] {i : σ} {k : κ}

/-- Claiming a free slot changes no slot that is owned. -/
theorem update_of_owned (hfree : owner i = nil) {j : σ} (hj : owner j ≠ nil) :
    Function.update owner i k j = owner j :=
  Function.update_of_ne (by rintro rfl; exact hj hfree) _ _

/-- A claim leaves what is another's. -/
theorem Other.claim (hfree : owner i = nil) {k' : κ} {j : σ} (h : Other nil owner k' j) :
    Other nil (Function.update owner i k) k' j := by
  rw [Other, update_of_owned hfree h.1]
  exact h

/-- A claim leaves what was passed. -/
theorem Passed.claim (hfree : owner i = nil) {k' : κ} {p : ℕ} (h : Passed nil probe owner k' p) :
    Passed nil probe (Function.update owner i k) k' p := fun q hq => (h q hq).claim hfree

/-- Claiming the free slot it is at, a key sits behind slots of others. -/
theorem Placed.claim (h : Placed nil probe owner) {p : ℕ} (hp : Passed nil probe owner k p)
    (hfree : owner (probe k p) = nil) : Placed nil probe (Function.update owner (probe k p) k) := by
  intro j hj
  by_cases hji : j = probe k p
  · subst hji
    rw [Function.update_self]
    exact ⟨p, rfl, hp.claim hfree⟩
  · rw [Function.update_of_ne hji] at hj ⊢
    obtain ⟨q, hq, hpassed⟩ := h j hj
    exact ⟨q, hq, hpassed.claim hfree⟩

end Claim

/-- Having passed a sequence that visits every slot, a key has seen all of them taken. -/
theorem Passed.all {k : κ} {n : ℕ} (h : Passed nil probe owner k n)
    (hcover : ∀ i, ∃ q < n, probe k q = i) (i : σ) : Other nil owner k i := by
  obtain ⟨q, hq, rfl⟩ := hcover i
  exact h q hq

end VpnHide.Lib

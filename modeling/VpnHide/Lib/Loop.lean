import Mathlib.Order.Basic
import Mathlib.Order.Nat

/-!
# Loops

A loop is given by its body: from a state, an iteration goes on with another state, ends the
loop with a result, or panics. Nothing is assumed to end: `iterate` runs a loop for as many
iterations as it is given.

`iterate_done` is the rule for a loop that ends: an invariant under which no iteration
panics, and a rank that every iteration lowers.
-/

namespace VpnHide.Lib

variable {σ ρ : Type*}

/-- What an iteration does. -/
inductive Flow (σ ρ : Type*)
  | next (s : σ)
  | done (r : ρ)
  | panic
  deriving DecidableEq

/-- The result, if there is one. -/
def Flow.result? : Flow σ ρ → Option ρ
  | done r => some r
  | _ => none

/-- At most `n` iterations. -/
def iterate (body : σ → Flow σ ρ) : ℕ → σ → Flow σ ρ
  | 0, s => .next s
  | n + 1, s =>
    match body s with
    | .next s' => iterate body n s'
    | .done r => .done r
    | .panic => .panic

/-- The states in which the iterations of a loop begin. -/
inductive Reaches (body : σ → Flow σ ρ) (s : σ) : σ → Prop
  | refl : Reaches body s s
  | next {t u : σ} : Reaches body s t → body t = .next u → Reaches body s u

variable {body : σ → Flow σ ρ} {inv : σ → Prop} {s s' t : σ}

/-- One more turn. -/
theorem iterate_of_next (h : body s = .next s') (n : ℕ) :
    iterate body (n + 1) s = iterate body n s' := by
  rw [iterate, h]

/-- The last turn. -/
theorem iterate_of_done {r : ρ} (h : body s = .done r) (n : ℕ) :
    iterate body (n + 1) s = .done r := by
  rw [iterate, h]

/-- What every turn keeps holds wherever the loop gets. -/
theorem Reaches.invariant (hstep : ∀ s s', inv s → body s = .next s' → inv s') (hs : inv s)
    (h : Reaches body s t) : inv t := by
  induction h with
  | refl => exact hs
  | next _ hnext ih => exact hstep _ _ ih hnext

theorem Reaches.head (h : body s = .next s') (ht : Reaches body s' t) : Reaches body s t := by
  induction ht with
  | refl => exact .next .refl h
  | next _ hnext ih => exact .next ih hnext

/-- A loop ends when every iteration ends it, or lowers the rank. -/
theorem iterate_done {post : σ → ρ → Prop} {rank : σ → ℕ}
    (hstep : ∀ s, inv s → (∃ r, body s = .done r ∧ post s r) ∨
      ∃ s', body s = .next s' ∧ inv s' ∧ rank s' < rank s ∧ ∀ r, post s' r → post s r) :
    ∀ (n : ℕ) (s : σ), inv s → rank s < n → ∃ r, iterate body n s = .done r ∧ post s r := by
  intro n
  induction n with
  | zero => exact fun s _ h => absurd h (Nat.not_lt_zero _)
  | succ n ih =>
    intro s hs hrank
    obtain ⟨r, hbody, hr⟩ | ⟨s', hbody, hs', hlower, hpost⟩ := hstep s hs
    · exact ⟨r, iterate_of_done hbody n, hr⟩
    · obtain ⟨r, hrun, hr⟩ := ih s' hs' (by omega)
      exact ⟨r, (iterate_of_next hbody n).trans hrun, hpost r hr⟩

/-- A loop ends with a result, after some iterations. -/
def Ends (body : σ → Flow σ ρ) (s : σ) (r : ρ) : Prop := ∃ n, iterate body n s = .done r

/-- A loop that is done ends. -/
theorem Ends.of_done {r : ρ} (h : body s = .done r) : Ends body s r := ⟨1, iterate_of_done h 0⟩

/-- A loop ends after one more turn. -/
theorem Ends.of_next {r : ρ} (h : body s = .next s') (hr : Ends body s' r) : Ends body s r := by
  obtain ⟨n, hn⟩ := hr
  exact ⟨n + 1, (iterate_of_next h n).trans hn⟩

/-- More iterations change nothing. -/
theorem iterate_of_le {r : ρ} {n m : ℕ} (h : iterate body n s = .done r) (hle : n ≤ m) :
    iterate body m s = .done r := by
  induction n generalizing s m with
  | zero => cases h
  | succ n ih =>
    obtain ⟨m, rfl⟩ := Nat.exists_eq_add_of_le' (Nat.lt_of_lt_of_le (Nat.succ_pos n) hle)
    rw [iterate] at h ⊢
    cases hbody : body s with
    | next s' =>
      rw [hbody] at h
      exact ih h (Nat.le_of_succ_le_succ hle)
    | done r' =>
      rw [hbody] at h
      exact h
    | panic =>
      rw [hbody] at h
      cases h

/-- It ends with one result only. -/
theorem Ends.eq {r r' : ρ} {n : ℕ} (h : Ends body s r) (hn : iterate body n s = .done r') :
    r' = r := by
  obtain ⟨m, hm⟩ := h
  have hn' := iterate_of_le hn (Nat.le_max_left n m)
  have hm' := iterate_of_le hm (Nat.le_max_right n m)
  rw [hm'] at hn'
  cases hn'
  rfl

end VpnHide.Lib

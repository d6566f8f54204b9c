import Mathlib.Logic.Basic

/-!
# Programs that call back

A program goes over something and calls back for what it finds. It shares a position with the
callback, which both may read and change, and goes on as the callback tells it. Nothing else is
known of the program, nor of the callback.

`Traversal.without` is the program without some of its calls, as if these had been answered.
-/

namespace VpnHide.Lib

/-- A program that calls back with an `α`, is answered with a `ρ`, and ends with a `β`. -/
inductive Traversal (α ρ π β : Type)
  | done (b : β)
  | call (a : α) (next : ρ → Traversal α ρ π β)
  | setPos (p : π) (next : Traversal α ρ π β)
  | getPos (next : π → Traversal α ρ π β)

/-- A callback with a state of its own, and the position. -/
abbrev Callback (α ρ π σ : Type) := α → σ × π → ρ × σ × π

namespace Traversal

variable {α ρ π β σ : Type}

/-- What a traversal does with a callback, whose state goes along. -/
def run (f : Callback α ρ π σ) : Traversal α ρ π β → σ × π → β × σ × π
  | done b, s => (b, s)
  | call a next, s => run f (next (f a s).1) (f a s).2
  | setPos p next, s => run f next (s.1, p)
  | getPos next, s => run f (next s.2) s

/-- Without the calls in `hide`, as if they had been answered with `skip`. -/
def without (skip : ρ) (hide : α → Bool) : Traversal α ρ π β → Traversal α ρ π β
  | done b => done b
  | call a next =>
    if hide a then without skip hide (next skip) else call a fun r => without skip hide (next r)
  | setPos p next => setPos p (without skip hide next)
  | getPos next => getPos fun p => without skip hide (next p)

/-- Whatever it is answered, the program calls back with nothing else. -/
def Calls (P : α → Prop) : Traversal α ρ π β → Prop
  | done _ => True
  | call a next => P a ∧ ∀ r, Calls P (next r)
  | setPos _ next => Calls P next
  | getPos next => ∀ p, Calls P (next p)

variable {skip : ρ} {hide hide' : α → Bool} {P Q : α → Prop} {t : Traversal α ρ π β}

theorem Calls.mono (h : t.Calls P) (himp : ∀ a, P a → Q a) : t.Calls Q := by
  induction t with
  | done b => trivial
  | call a next ih => exact ⟨himp a h.1, fun r => ih r (h.2 r)⟩
  | setPos p next ih => exact ih h
  | getPos next ih => exact fun p => ih p (h p)

theorem without_congr (h : t.Calls fun a => hide a = hide' a) :
    t.without skip hide = t.without skip hide' := by
  induction t with
  | done b => rfl
  | call a next ih =>
    obtain ⟨ha, hnext⟩ := h
    rw [without, without, ha]
    simp only [ih _ (hnext _)]
  | setPos p next ih => rw [without, without, ih h]
  | getPos next ih =>
    rw [without, without]
    simp only [ih _ (h _)]

theorem without_of_none (h : t.Calls fun a => hide a = false) : t.without skip hide = t := by
  induction t with
  | done b => rfl
  | call a next ih =>
    obtain ⟨ha, hnext⟩ := h
    rw [without, ha, if_neg Bool.false_ne_true]
    simp only [ih _ (hnext _)]
  | setPos p next ih => rw [without, ih h]
  | getPos next ih =>
    rw [without]
    simp only [ih _ (h _)]

end Traversal

end VpnHide.Lib

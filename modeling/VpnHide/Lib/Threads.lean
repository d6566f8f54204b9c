import Mathlib.Logic.Function.Basic

/-!
# Threads over a shared state

Threads, each with a state of its own, that take turns at a shared state in any order, while
the world around them changes it too. An event is a move of a thread, which may be given a
choice, or a change by the world.

`Holds inv loc w` says that `inv` holds of the shared state and `loc` of every thread. It is
kept by a move that keeps `inv`, the `loc` of the thread itself, and that of the others
(`Holds.move`): what a thread may rely on is what the others keep.
-/

namespace VpnHide.Lib

/-- What the threads and the world do. -/
structure System (σ τ κ ε l : Type*) where
  world : ε → σ → σ
  move : τ → κ → σ → l → σ × l

/-- The shared state, and the states of the threads. -/
structure Threads (σ τ l : Type*) where
  shared : σ
  states : τ → l

/-- What may happen: the world changes, or a thread moves. -/
inductive Happening (τ κ ε : Type*)
  | world (e : ε)
  | move (t : τ) (c : κ)

namespace System

variable {σ τ κ ε l : Type*} [DecidableEq τ] (sys : System σ τ κ ε l)

/-- One step. -/
def step (w : Threads σ τ l) : Happening τ κ ε → Threads σ τ l
  | .world e => { w with shared := sys.world e w.shared }
  | .move t c =>
    let (s, p) := sys.move t c w.shared (w.states t)
    ⟨s, Function.update w.states t p⟩

/-- Several steps. -/
def run (w : Threads σ τ l) (es : List (Happening τ κ ε)) : Threads σ τ l := es.foldl sys.step w

/-- Several events after others. -/
theorem run_append (w : Threads σ τ l) (es fs : List (Happening τ κ ε)) :
    sys.run w (es ++ fs) = sys.run (sys.run w es) fs := List.foldl_append

/-- A thread that does not move stays where it is. -/
theorem run_states {t : τ} {es : List (Happening τ κ ε)} (h : ∀ c, .move t c ∉ es)
    (w : Threads σ τ l) : (sys.run w es).states t = w.states t := by
  induction es generalizing w with
  | nil => rfl
  | cons e es ih =>
    rw [run, List.foldl_cons]
    refine (ih (fun c hc => h c (List.mem_cons_of_mem _ hc)) (sys.step w e)).trans ?_
    cases e with
    | world e => rfl
    | move u c =>
      have hne : t ≠ u := fun heq => h c (heq ▸ List.mem_cons_self)
      exact Function.update_of_ne hne ..

/-- What holds of the shared state, and of each thread in it. -/
structure Holds (inv : σ → Prop) (loc : τ → σ → l → Prop) (w : Threads σ τ l) : Prop where
  shared : inv w.shared
  states : ∀ t, loc t w.shared (w.states t)

variable {sys} {inv : σ → Prop} {loc : τ → σ → l → Prop} {w : Threads σ τ l}

omit [DecidableEq τ] in

/-- The world moves. -/
theorem Holds.world (h : Holds inv loc w) {s : σ} (hinv : inv s)
    (hloc : ∀ t p, loc t w.shared p → loc t s p) : Holds inv loc ⟨s, w.states⟩ :=
  ⟨hinv, fun t => hloc t _ (h.states t)⟩

/-- A thread moves. -/
theorem Holds.move (h : Holds inv loc w) {t : τ} {s : σ} {p : l} (hinv : inv s) (hself : loc t s p)
    (hothers : ∀ u p, u ≠ t → loc u w.shared p → loc u s p) :
    Holds inv loc ⟨s, Function.update w.states t p⟩ := by
  refine ⟨hinv, fun u => ?_⟩
  dsimp only
  by_cases hu : u = t
  · subst hu
    rw [Function.update_self]
    exact hself
  · rw [Function.update_of_ne hu]
    exact hothers u _ hu (h.states u)

variable (sys)

/-- Every step of a run is one that `ok` allows where it is taken. -/
def Along (ok : Threads σ τ l → Happening τ κ ε → Prop) :
    Threads σ τ l → List (Happening τ κ ε) → Prop
  | _, [] => True
  | w, e :: es => ok w e ∧ Along ok (sys.step w e) es

variable {sys}

/-- The first events of a run. -/
theorem Along.of_append {ok : Threads σ τ l → Happening τ κ ε → Prop}
    {es fs : List (Happening τ κ ε)} (h : sys.Along ok w (es ++ fs)) :
    sys.Along ok w es ∧ sys.Along ok (sys.run w es) fs := by
  induction es generalizing w with
  | nil => exact ⟨trivial, h⟩
  | cons e es ih =>
    obtain ⟨hes, hfs⟩ := ih h.2
    exact ⟨⟨h.1, hes⟩, hfs⟩

/-- What holds at first and is kept by every allowed step holds along a run of them. -/
theorem Along.induction {motive : Threads σ τ l → Prop}
    {ok : Threads σ τ l → Happening τ κ ε → Prop}
    (hstep : ∀ w e, motive w → ok w e → motive (sys.step w e)) {es : List (Happening τ κ ε)}
    (hes : sys.Along ok w es) (hw : motive w) : motive (sys.run w es) := by
  induction es generalizing w with
  | nil => exact hw
  | cons e es ih => exact ih hes.2 (hstep w e hw hes.1)

/-- What holds at first and is kept by every step holds along every run. -/
theorem run_induction {motive : Threads σ τ l → Prop}
    (hstep : ∀ w e, motive w → motive (sys.step w e)) (es : List (Happening τ κ ε))
    (hw : motive w) : motive (sys.run w es) := by
  induction es generalizing w with
  | nil => exact hw
  | cons e es ih => exact ih (hstep w e hw)

end System

end VpnHide.Lib

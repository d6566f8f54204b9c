import Mathlib.Logic.Basic
import Mathlib.Data.List.Basic

/-!
# Programs that may crash

A program over a state asks its environment for answers, which it finds on a tape: what a
write returned, how an effect ended. Where the tape ends the program crashes, and its state
stays as it is. A program that is right for all tapes is so for all answers and for a crash
at every question.

`Safe m Q C s` says that `m`, run from `s`, ends with a result and a state as in `Q`, or
crashes in a state as in `C`; `Safe.bind` and the rules after it take a program apart.
-/

namespace VpnHide.Lib

variable {ω σ α β : Type}

/-- How a program ends: it is done, with the answers that are left, or it has crashed. -/
inductive Outcome (ω σ α : Type)
  | done (a : α) (tape : List ω) (s : σ)
  | crashed (s : σ)

/-- A program over a tape of answers, which crashes where the tape ends. -/
def Prog (ω σ α : Type) : Type := List ω → σ → Outcome ω σ α

/-- The state at the end of a run. -/
def Outcome.state : Outcome ω σ α → σ
  | done _ _ s => s
  | crashed s => s

/-- The result of a run that does not crash. -/
def Outcome.result? : Outcome ω σ α → Option α
  | done a _ _ => some a
  | crashed _ => none

namespace Prog

/-- One program after the other, which does not run after a crash. -/
def bind (m : Prog ω σ α) (f : α → Prog ω σ β) : Prog ω σ β := fun tape s =>
  match m tape s with
  | .done a tape s => f a tape s
  | .crashed s => .crashed s

instance : Monad (Prog ω σ) where
  pure a := fun tape s => .done a tape s
  bind := bind

/-- The state. -/
def get : Prog ω σ σ := fun tape s => .done s tape s

/-- The state is changed. -/
def modify (f : σ → σ) : Prog ω σ Unit := fun tape s => .done () tape (f s)

/-- The next answer, if it is one to the question that is asked. -/
def ask (read : ω → Option α) : Prog ω σ α := fun tape s =>
  match tape with
  | [] => .crashed s
  | answer :: tape =>
    match read answer with
    | some a => .done a tape s
    | none => .crashed s

/-! ## Safety -/

/-- Whatever the answers, `Q` holds if the program is done, and `C` if it crashes. -/
def Safe (m : Prog ω σ α) (Q : α → σ → Prop) (C : σ → Prop) (s : σ) : Prop :=
  ∀ tape, match m tape s with
    | .done a _ s' => Q a s'
    | .crashed s' => C s'

variable {m : Prog ω σ α} {f : α → Prog ω σ β} {Q Q' : α → σ → Prop} {R : β → σ → Prop}
  {C C' : σ → Prop} {s : σ}

/-- A weaker postcondition and a weaker crash condition. -/
theorem Safe.mono (h : Safe m Q C s) (hQ : ∀ a s', Q a s' → Q' a s') (hC : ∀ s', C s' → C' s') :
    Safe m Q' C' s := by
  intro tape
  have htape := h tape
  revert htape
  cases m tape s with
  | done a tape' s' => exact hQ a s'
  | crashed s' => exact hC s'

/-- The rule of sequencing. -/
theorem Safe.bind (h : Safe m (fun a s' => Safe (f a) R C s') C s) : Safe (m >>= f) R C s := by
  intro tape
  have htape := h tape
  change match Prog.bind m f tape s with
    | .done b _ s' => R b s'
    | .crashed s' => C s'
  rw [Prog.bind]
  revert htape
  cases m tape s with
  | done a tape' s' => exact fun hf => hf tape'
  | crashed s' => exact id

/-- The rule for a program with a specification. -/
theorem Safe.seq (h : Safe m Q C' s) (hC : ∀ s', C' s' → C s')
    (hf : ∀ a s', Q a s' → Safe (f a) R C s') :
    Safe (m >>= f) R C s :=
  .bind (h.mono hf hC)

/-- Returning a value, which cannot crash. -/
theorem Safe.pure {a : α} (h : Q a s) : Safe (pure a : Prog ω σ α) Q C s := fun _ => h

/-- Asking the environment: the program may crash before the answer. -/
theorem Safe.ask {read : ω → Option α} (hC : C s) (h : ∀ answer a, read answer = some a → Q a s) :
    Safe (ask read) Q C s := by
  intro tape
  cases tape with
  | nil => exact hC
  | cons answer tape =>
    cases hread : read answer with
    | none => simpa only [Prog.ask, hread] using hC
    | some a => simpa only [Prog.ask, hread] using h answer a hread

/-- Reading the state, then going on. -/
theorem Safe.get_bind {f : σ → Prog ω σ β} (h : Safe (f s) R C s) : Safe (get >>= f) R C s :=
  .bind fun _ => h

/-- Changing the state, then going on. -/
theorem Safe.modify_bind {g : σ → σ} {f : Unit → Prog ω σ β} (h : Safe (f ()) R C (g s)) :
    Safe (modify g >>= f) R C s :=
  .bind fun _ => h

/-- Changing the state. -/
theorem Safe.modify {g : σ → σ} {Q : Unit → σ → Prop} (h : Q () (g s)) :
    Safe (modify g : Prog ω σ Unit) Q C s :=
  fun _ => h

/-- Asking the environment, then going on. -/
theorem Safe.ask_bind {read : ω → Option α} (hC : C s)
    (h : ∀ answer a, read answer = some a → Safe (f a) R C s) :
    Safe (Prog.ask read >>= f) R C s :=
  .bind (.ask hC h)

/-- What holds in the end holds wherever the program crashes. -/
theorem Safe.state (h : Safe m (fun _ => C) C s) (tape : List ω) : C (m tape s).state := by
  have htape := h tape
  revert htape
  cases m tape s with
  | done a tape' s' => exact id
  | crashed s' => exact id

/-- Two specifications of one program. -/
theorem Safe.and (h : Safe m Q C s) (h' : Safe m Q' C' s) :
    Safe m (fun a s' => Q a s' ∧ Q' a s') (fun s' => C s' ∧ C' s') s := by
  intro tape
  have htape := h tape
  have htape' := h' tape
  revert htape htape'
  cases m tape s with
  | done a tape' s' => exact And.intro
  | crashed s' => exact And.intro

/-- What a safe program does on one tape. -/
theorem Safe.run (h : Safe m Q C s) (tape : List ω) :
    (∃ a tape' s', m tape s = .done a tape' s' ∧ Q a s') ∨ ∃ s', m tape s = .crashed s' ∧ C s' := by
  have htape := h tape
  revert htape
  cases m tape s with
  | done a tape' s' => exact fun h => .inl ⟨a, tape', s', rfl, h⟩
  | crashed s' => exact fun h => .inr ⟨s', rfl, h⟩

end Prog

end VpnHide.Lib

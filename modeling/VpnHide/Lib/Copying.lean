import Mathlib.Data.Int.Notation
import Mathlib.Data.Nat.Notation
import Mathlib.Logic.Basic

/-!
# Programs that copy from a caller

A program copies from memory that its caller may write in the meantime, asks of the world, and sets
a state. Two reads of the memory need not agree. If it copies from bytes that nobody else can write
instead, a run depends on nothing but these bytes and the answers that it is given (`run_congr`).
-/

namespace VpnHide.Lib

/-- A program that asks a `κ`, is answered with an `α`, sets a `σ`, and returns a number. -/
inductive Copying (κ α σ : Type)
  | done (ret : ℤ)
  | copy (n : ℕ) (next : Option (List UInt8) → Copying κ α σ)
  | ask (q : κ) (next : α → Copying κ α σ)
  | put (s : σ) (next : Copying κ α σ)

/-- What each read of the memory of a caller gives; some may fail. -/
abbrev Racing := ℕ → (n : ℕ) → Option { l : List UInt8 // l.length = n }

/-- Where an argument is read from: the caller's memory, or a copy that was made of it. -/
inductive Source
  | caller
  | frozen (bytes : List UInt8)

/-- What a read gives at a time. -/
def Source.read (memory : Racing) (time n : ℕ) : Source → Option (List UInt8)
  | caller => (memory time n).map (·.val)
  | frozen bytes => some (bytes.take n)

theorem Source.length_le_of_read {memory : Racing} {time n : ℕ} {source : Source} {l : List UInt8}
    (h : source.read memory time n = some l) : l.length ≤ n := by
  cases source with
  | caller =>
    obtain ⟨l, -, rfl⟩ := Option.map_eq_some_iff.1 h
    exact Nat.le_of_eq l.property
  | frozen bytes =>
    obtain rfl := Option.some.inj h
    exact List.length_take_le n bytes

namespace Copying

variable {κ α σ : Type}

/-- What a program does with an argument, by the answers of the world. -/
def run (world : κ → α) (memory : Racing) (source : Source) : Copying κ α σ → ℕ → σ → ℤ × σ
  | done ret, _, s => (ret, s)
  | copy n next, time, s => run world memory source (next (source.read memory time n)) (time + 1) s
  | ask q next, time, s => run world memory source (next (world q)) time s
  | put s next, time, _ => run world memory source next time s

/-- Copying from some bytes, the program asks nothing but `asks`, and sets nothing but `sets` and
    what an answer has shown. -/
def Confined (bytes : List UInt8) (asks : κ → Prop) (shows : α → σ → Prop) (sets : σ → Prop) :
    Copying κ α σ → Prop
  | done _ => True
  | copy n next => Confined bytes asks shows sets (next (some (bytes.take n)))
  | ask q next => asks q ∧ ∀ a, Confined bytes asks shows (fun s => sets s ∨ shows a s) (next a)
  | put s next => sets s ∧ Confined bytes asks shows sets next

variable {bytes : List UInt8} {asks : κ → Prop} {shows : α → σ → Prop} {sets : σ → Prop}
  {c : Copying κ α σ} {world world' : κ → α} {memory memory' : Racing}

/-- Neither the memory of the caller matters, nor what is not asked. -/
theorem run_congr (h : c.Confined bytes asks shows sets) (hworld : ∀ q, asks q → world q = world' q)
    (t t' : ℕ) (s : σ) :
    c.run world memory (.frozen bytes) t s = c.run world' memory' (.frozen bytes) t' s := by
  induction c generalizing sets t t' s with
  | done ret => rfl
  | copy n next ih => exact ih _ h _ _ s
  | ask q next ih =>
    obtain ⟨hq, hnext⟩ := h
    rw [run, run, hworld q hq]
    exact ih _ (hnext _) t t' s
  | put s' next ih => exact ih h.2 t t' s'

/-- What the program may set, and what the answers may show, holds of the state after a run. -/
theorem run_sets {R : σ → Prop} (h : c.Confined bytes asks shows sets) (hsets : ∀ s, sets s → R s)
    (hshows : ∀ q, asks q → ∀ s, shows (world q) s → R s) (t : ℕ) {s : σ} (hs : R s) :
    R (c.run world memory (.frozen bytes) t s).2 := by
  induction c generalizing sets t s with
  | done ret => exact hs
  | copy n next ih => exact ih _ h hsets _ hs
  | ask q next ih =>
    obtain ⟨hq, hnext⟩ := h
    refine ih _ (hnext _) ?_ t hs
    rintro s (hs | hs)
    · exact hsets s hs
    · exact hshows q hq s hs
  | put s' next ih => exact ih h.2 hsets t (hsets s' h.1)

end Copying

end VpnHide.Lib

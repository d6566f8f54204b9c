import Mathlib.Data.Multiset.AddSub
import VpnHide.Diag.Scope

/-!
# References to identities

A call takes a reference to the identity of its caller and puts it again, unless it
registers the identity, in which case the scope keeps the reference. It is put when the
scope is cleared, after the gate is open again.

`references_balanced`: after every call of a run the scope holds one reference to its
identity, nobody holds any other, and none has been put that was not held.
-/

namespace VpnHide.Diag

variable {I : Type*} [DecidableEq I]

/-- The references that are held after some have been taken and put, unless one is put
    that is not held. -/
def settle (held : Multiset I) : List (Ref I) → Option (Multiset I)
  | [] => some held
  | .get i :: refs => settle (i ::ₘ held) refs
  | .put i :: refs => if i ∈ held then settle (held.erase i) refs else none

theorem settle_append (held : Multiset I) (refs refs' : List (Ref I)) :
    settle held (refs ++ refs') = (settle held refs).bind fun held => settle held refs' := by
  induction refs generalizing held with
  | nil => rfl
  | cons r refs ih =>
    cases r with
    | get i => exact ih _
    | put i =>
      simp only [List.cons_append, settle]
      split_ifs
      · exact ih _
      · rfl

omit [DecidableEq I] in
/-- The reference that a scope with this identity holds. -/
def ownRef : Option I → Multiset I
  | none => 0
  | some i => {i}

/-- The references taken and put before the event `n` of a run. -/
def refsAt (maxLease : UInt64) (e : ℕ → Event I) : ℕ → List (Ref I)
  | 0 => []
  | n + 1 => refsAt maxLease e n ++ ((e n).exec (scopeAt maxLease e n)).refs

theorem settle_putRef (identity : Option I) :
    settle (ownRef identity) (putRef identity) = some 0 := by
  cases identity with
  | none => rfl
  | some i =>
    rw [ownRef, putRef, settle, if_pos (Multiset.mem_singleton_self i), settle,
      Multiset.erase_singleton]

/-- A call settles the reference of the scope. -/
theorem Scope.Sound.settle_refs {maxLease : UInt64} {s : Scope I} {ops : Option (Ops I)} {op : Op}
    {out : Out I Reply} (hs : s.Sound maxLease) (h : Effect s ops op out) :
    settle (ownRef s.identity) out.refs = some (ownRef out.scope.identity) := by
  cases h with
  | stay hrefs =>
    rcases hrefs with rfl | ⟨i, rfl⟩
    · rfl
    · -- A reference taken for the time of the call.
      rw [settle, settle, if_pos (Multiset.mem_cons_self i _), settle, Multiset.erase_cons_head]
  | arm h => exact settle_putRef s.identity
  | register h =>
    -- The scope had none, and keeps the one that is taken.
    rw [hs.identity.2 (.inr h.phase)]
    rfl
  | activate h => rfl
  | revoke h => exact settle_putRef s.identity
  | expire hphase hclock => exact settle_putRef s.identity

/-- After every call of a run the references held are the one of the scope to its identity,
    if it has one, and none has been put that was not held. A call that finds the gate held
    changes nothing, and returns as busy what passes the checks before the gate. -/
theorem references_balanced (maxLease : UInt64) (e : ℕ → Event I) :
    (∀ n, settle 0 (refsAt maxLease e n) = some (ownRef (scopeAt maxLease e n).identity)) ∧
    ∀ (s : Scope I) (op : Op) (ops : Option (Ops I)), s.gate ≠ 0 →
      (op.exec s ops).scope = s ∧ (op.exec s ops).refs = [] ∧
        (ops ≠ none → op.Tries s → (op.exec s ops).value = op.busy) := by
  constructor
  · -- By induction on the events: each settles the reference that the scope before it holds.
    intro n
    induction n with
    | zero => rfl
    | succ n ih =>
      have hs := sound_scopeAt maxLease e n
      rw [refsAt, settle_append, ih, Option.bind_some]
      exact hs.settle_refs ((e n).exec_effect hs.gate)
  · -- A call that finds the gate held leaves everything as it is.
    intro s op ops hg
    obtain ⟨reply, hexec, -, hbusy⟩ := Op.exec_held hg op ops
    rw [hexec]
    exact ⟨rfl, rfl, hbusy⟩

/-- Two threads: the one that was armed registers, the other fails, and the gate is held
    when root activates. -/
theorem references_balanced_two :
    let root : Ops Bool := ⟨none, fun _ => 0, 0, 100⟩
    let thread : Bool → Ops Bool := fun i => ⟨some i, fun _ => 42, 10001, 200⟩
    let e : ℕ → Event Bool
      | 0 => ⟨.arm 42 10001 7 1000, some root, false⟩
      | 1 => ⟨.register 7, some (thread true), false⟩
      | 2 => ⟨.register 7, some (thread false), false⟩
      | _ => ⟨.activate 7, some root, true⟩
    settle 0 (refsAt 5000 e 3) = some {true} ∧
      (Op.exec { scopeAt 5000 e 3 with gate := 1 } (some root) (.activate 7)).value =
        .result .busy := by
  intro root thread e
  have hidentity : (scopeAt 5000 e 3).identity = some true := by decide
  have hall := references_balanced 5000 e
  refine ⟨(hall.1 3).trans (congrArg (some ∘ ownRef) hidentity), ?_⟩
  exact (hall.2 _ (.activate 7) (some root) (by decide)).2.2 (Option.some_ne_none _) trivial

end VpnHide.Diag

import Mathlib.Data.List.Induction
import Mathlib.Logic.Function.Basic

/-!
# Transcripts of framed runs

A transcript is a sequence of marks: a run is opened under a key, and closed with a result. A
mark may be illegible, and a run may be opened again. The result of a key is that of its last run,
if the next mark closes it under the same key (`result_iff`); a later run that is not closed leaves
no result (`result_iff_closed`).

Whatever follows a run that is closed keeps its result, unless the key is opened again
(`result_append`).
-/

namespace VpnHide.Lib

variable {κ σ : Type*}

/-- A mark in a text that is framed: something begins, or ends with a result. -/
inductive FrameMark (κ σ : Type*)
  | opened (key : Option κ)
  | closed (result : Option (κ × σ))

/-- The run that is open after a mark. -/
def FrameMark.openKey : FrameMark κ σ → Option κ
  | .opened key => key
  | .closed _ => none

/-- What is known after some marks: the run that is open, and the results. -/
structure Transcript (κ σ : Type*) where
  current : Option κ
  result : κ → Option σ

namespace Transcript

/-- Nothing has been read. -/
def empty : Transcript κ σ := ⟨none, fun _ => none⟩

variable [DecidableEq κ]

/-- Opening a run forgets the result of its key; only the open run is closed. -/
def mark (t : Transcript κ σ) : FrameMark κ σ → Transcript κ σ
  | .opened key => ⟨key, fun k => if key = some k then none else t.result k⟩
  | .closed none => ⟨none, t.result⟩
  | .closed (some (k, v)) =>
    ⟨none, if t.current = some k then Function.update t.result k (some v) else t.result⟩

/-- What all marks say. -/
def ofMarks (marks : List (FrameMark κ σ)) : Transcript κ σ := marks.foldl mark empty

variable {marks : List (FrameMark κ σ)} {m : FrameMark κ σ} {k : κ} {v : σ}

/-- One more mark. -/
theorem ofMarks_concat : ofMarks (marks ++ [m]) = (ofMarks marks).mark m := by
  rw [ofMarks, List.foldl_append]
  rfl

/-- A run is open if the last mark opens it. -/
theorem current_ofMarks (marks : List (FrameMark κ σ)) :
    (ofMarks marks).current = marks.getLast?.bind FrameMark.openKey := by
  induction marks using List.reverseRecOn with
  | nil => rfl
  | append_singleton marks m _ =>
    rw [ofMarks_concat, List.getLast?_concat, Option.bind_some]
    cases m with
    | opened key => rfl
    | closed result => cases result <;> rfl

/-- What is open is what the last mark opened. -/
theorem current_eq_some :
    (ofMarks marks).current = some k ↔ marks.getLast? = some (.opened (some k)) := by
  rw [current_ofMarks, Option.bind_eq_some_iff]
  constructor
  · rintro ⟨m, hm, hopen⟩
    cases m with
    | opened key =>
      obtain rfl : key = some k := hopen
      exact hm
    | closed result => cases hopen
  · exact fun h => ⟨_, h, rfl⟩

/-- The last run of the key is closed by the next mark. -/
def Ends (marks : List (FrameMark κ σ)) (k : κ) (v : σ) : Prop :=
  ∃ before after, marks = before ++ .opened (some k) :: .closed (some (k, v)) :: after ∧
    .opened (some k) ∉ after

omit [DecidableEq κ] in

/-- How something ends, after one more mark. -/
theorem ends_concat :
    Ends (marks ++ [m]) k v ↔
      (Ends marks k v ∧ m ≠ .opened (some k)) ∨
        (marks.getLast? = some (.opened (some k)) ∧ m = .closed (some (k, v))) := by
  constructor
  · rintro ⟨before, after, heq, hafter⟩
    -- the mark added is the one that closes the run, or it comes after
    obtain rfl | ⟨after, x, rfl⟩ := after.eq_nil_or_concat
    · have hsplit : marks ++ [m] = (before ++ [.opened (some k)]) ++ [.closed (some (k, v))] := by
        rw [heq, List.append_assoc]
        rfl
      obtain ⟨hmarks, hm⟩ := List.append_inj' hsplit rfl
      refine .inr ⟨?_, List.singleton_inj.1 hm⟩
      rw [hmarks, List.getLast?_concat]
    · rw [List.concat_eq_append] at hafter heq
      rw [← List.cons_append, ← List.cons_append, ← List.append_assoc] at heq
      obtain ⟨hmarks, hm⟩ := List.append_inj' heq rfl
      rw [List.mem_append, not_or, List.mem_singleton] at hafter
      refine .inl ⟨⟨before, after, hmarks, hafter.1⟩, fun hopened => hafter.2 ?_⟩
      rw [← hopened]
      exact List.singleton_inj.1 hm
  · rintro (⟨⟨before, after, rfl, hafter⟩, hm⟩ | ⟨hlast, rfl⟩)
    · refine ⟨before, after ++ [m], by simp, ?_⟩
      rw [List.mem_append, not_or, List.mem_singleton]
      exact ⟨hafter, Ne.symm hm⟩
    · obtain ⟨before, rfl⟩ := List.getLast?_eq_some_iff.1 hlast
      exact ⟨before, [], by simp, List.not_mem_nil⟩

omit [DecidableEq κ] in
/-- While a run is open, its key has no result. -/
theorem not_ends_of_getLast? (hlast : marks.getLast? = some (.opened (some k))) :
    ¬Ends marks k v := by
  obtain ⟨before, rfl⟩ := List.getLast?_eq_some_iff.1 hlast
  rw [ends_concat]
  rintro (⟨-, hne⟩ | ⟨-, heq⟩)
  · exact hne rfl
  · cases heq

/-- The result of a key is that of its last run. -/
theorem result_iff : (ofMarks marks).result k = some v ↔ Ends marks k v := by
  induction marks using List.reverseRecOn with
  | nil =>
    constructor
    · intro h
      cases h
    · rintro ⟨before, after, heq, -⟩
      simp at heq
  | append_singleton marks m ih =>
    rw [ofMarks_concat, ends_concat]
    cases m with
    | opened key =>
      by_cases hkey : key = some k
      · simp [mark, hkey]
      · simp [mark, hkey, ih]
    | closed result =>
      obtain _ | ⟨k', v'⟩ := result
      · simp [mark, ih]
      · by_cases hcurrent : (ofMarks marks).current = some k'
        · by_cases hk : k = k'
          · subst hk
            -- the run that was open is closed by this mark
            have hlast := current_eq_some.1 hcurrent
            simp [mark, hcurrent, hlast, not_ends_of_getLast? hlast]
          · simp [mark, hcurrent, Function.update_of_ne hk, ih, Ne.symm hk]
        · have hlast : k' = k → marks.getLast? ≠ some (.opened (some k)) := by
            rintro rfl hlast
            exact hcurrent (current_eq_some.2 hlast)
          simp only [mark, if_neg hcurrent, ih, ne_eq, reduceCtorEq, not_false_eq_true, and_true,
            FrameMark.closed.injEq, Option.some.injEq, Prod.mk.injEq]
          exact ⟨.inl, fun h => h.resolve_right fun hclosed => hlast hclosed.2.1 hclosed.1⟩

/-- Some run of the key has a result, and every later one is closed in the same way. -/
theorem result_iff_closed :
    (ofMarks marks).result k = some v ↔
      ∃ before after, marks = before ++ .opened (some k) :: .closed (some (k, v)) :: after ∧
        ∀ b c, after = b ++ .opened (some k) :: c → ∃ d, c = .closed (some (k, v)) :: d := by
  rw [result_iff]
  constructor
  · rintro ⟨before, after, heq, hafter⟩
    refine ⟨before, after, heq, ?_⟩
    rintro b c rfl
    exact absurd (List.mem_append_right b List.mem_cons_self) hafter
  · rintro ⟨before, after, heq, hlater⟩
    -- the last of these runs: by induction on what follows
    induction hlength : after.length using Nat.strongRecOn generalizing before after with
    | ind n ih =>
      by_cases hopened : .opened (some k) ∈ after
      · obtain ⟨b, c, rfl⟩ := List.append_of_mem hopened
        obtain ⟨d, rfl⟩ := hlater b c rfl
        refine ih d.length ?_ (before ++ .opened (some k) :: .closed (some (k, v)) :: b) d ?_ ?_ rfl
        · rw [← hlength]
          simp only [List.length_append, List.length_cons]
          omega
        · simpa using heq
        · rintro b' c' rfl
          exact hlater (b ++ .opened (some k) :: .closed (some (k, v)) :: b') c' (by simp)
      · exact ⟨before, after, heq, hopened⟩

/-- Marks that open no run of the key keep its result, once its run is closed. -/
theorem result_append {before after : List (FrameMark κ σ)}
    (hlast : before.getLast? = some (.opened (some k))) (hafter : .opened (some k) ∉ after) :
    (ofMarks (before ++ .closed (some (k, v)) :: after)).result k = some v := by
  obtain ⟨init, rfl⟩ := List.getLast?_eq_some_iff.1 hlast
  exact result_iff.2 ⟨init, after, by simp, hafter⟩

end Transcript

end VpnHide.Lib

import Mathlib.Data.List.Nodup

/-!
# Histories of a machine that reboots

A machine runs in one session after another, each under an identity of its own, and an
identity that was left does not come back. `History.replay` plays such a history;
`History.induct` proves what holds at its end from what each operation keeps during its
session.
-/

namespace VpnHide.Lib

/-- What was done in each session, in order. -/
structure History (B α : Type) where
  sessions : List (B × List α)
  fresh : (sessions.map Prod.fst).Nodup

namespace History

variable {B α σ : Type}

/-- The boots of a history. -/
def boots (h : History B α) : List B := h.sessions.map Prod.fst

/-- Sessions are replayed one after the other. -/
def replaySessions (step : B → σ → α → σ) (s : σ) (sessions : List (B × List α)) : σ :=
  sessions.foldl (fun s session => session.2.foldl (step session.1) s) s

/-- A history is replayed. -/
def replay (step : B → σ → α → σ) (s : σ) (h : History B α) : σ := replaySessions step s h.sessions

variable {step : B → σ → α → σ} {P : List B → σ → Prop} {Q : List B → B → σ → Prop}

/-- An invariant of the operations is one of a session. -/
theorem foldl_induct {R : σ → Prop} {f : σ → α → σ} (hstep : ∀ s a, R s → R (f s a)) {s : σ}
    (hs : R s) (ops : List α) : R (ops.foldl f s) := by
  induction ops generalizing s with
  | nil => exact hs
  | cons a ops ih => exact ih (hstep s a hs)

/-- What holds between sessions and within them. -/
theorem replaySessions_induct (hboot : ∀ past b s, b ∉ past → P past s → Q past b s)
    (hstep : ∀ past b s a, Q past b s → Q past b (step b s a))
    (hleave : ∀ past b s, Q past b s → P (b :: past) s) {past : List B} {s : σ} (hs : P past s)
    (sessions : List (B × List α)) (hnodup : (sessions.map Prod.fst).Nodup)
    (hpast : ∀ b ∈ sessions.map Prod.fst, b ∉ past) :
    P ((sessions.map Prod.fst).reverse ++ past) (replaySessions step s sessions) := by
  induction sessions generalizing past s with
  | nil => exact hs
  | cons session sessions ih =>
    obtain ⟨b, ops⟩ := session
    obtain ⟨hb, hnodup⟩ := List.nodup_cons.1 hnodup
    have hsession : Q past b (ops.foldl (step b) s) :=
      foldl_induct (hstep past b) (hboot past b s (hpast b List.mem_cons_self) hs) ops
    rw [List.map_cons, List.reverse_cons, List.append_assoc, List.singleton_append]
    refine ih (hleave past b _ hsession) hnodup fun c hc hmem => ?_
    obtain rfl | hmem := List.mem_cons.1 hmem
    · exact hb hc
    · exact hpast c (List.mem_cons_of_mem b hc) hmem

/-- The rule of histories: `P past` holds between sessions, where `past` are the identities
    that are gone, and `Q past b` during the session of `b`. -/
theorem induct (hboot : ∀ past b s, b ∉ past → P past s → Q past b s)
    (hstep : ∀ past b s a, Q past b s → Q past b (step b s a))
    (hleave : ∀ past b s, Q past b s → P (b :: past) s) {past : List B} {s : σ} (hs : P past s)
    (h : History B α) (hpast : ∀ b ∈ h.boots, b ∉ past) :
    P (h.boots.reverse ++ past) (h.replay step s) :=
  replaySessions_induct hboot hstep hleave hs h.sessions h.fresh hpast

end History

/-- Two moments of a history: the first after `ops` in the session of `boot`, the second after
    `more` in the same session and then the sessions `after`. -/
structure Moments (B α : Type) where
  before : List (B × List α)
  boot : B
  ops : List α
  more : List α
  after : List (B × List α)
  fresh : (before.map Prod.fst ++ boot :: after.map Prod.fst).Nodup

namespace Moments

open History

variable {B α σ : Type}

/-- The state at the first moment. -/
def first (step : B → σ → α → σ) (s : σ) (m : Moments B α) : σ :=
  m.ops.foldl (step m.boot) (replaySessions step s m.before)

/-- The state at the second moment. -/
def second (step : B → σ → α → σ) (s : σ) (m : Moments B α) : σ :=
  replaySessions step (m.more.foldl (step m.boot) (m.first step s)) m.after

/-- The identities that are gone at the first moment. -/
def past (m : Moments B α) : List B := (m.before.map Prod.fst).reverse

variable {step : B → σ → α → σ} {P : List B → σ → Prop} {Q : List B → B → σ → Prop}
  {s : σ} {m : Moments B α}

/-- The boot of the moments has not come before. -/
theorem boot_notMem_past : m.boot ∉ m.past := by
  intro hmem
  rw [past, List.mem_reverse] at hmem
  exact (List.nodup_append.1 m.fresh).2.2 _ hmem _ List.mem_cons_self rfl

/-- What holds at the first moment. -/
theorem first_induct (hboot : ∀ past b s, b ∉ past → P past s → Q past b s)
    (hstep : ∀ past b s a, Q past b s → Q past b (step b s a))
    (hleave : ∀ past b s, Q past b s → P (b :: past) s) (hs : P [] s) :
    Q m.past m.boot (m.first step s) := by
  have hbefore :=
    replaySessions_induct hboot hstep hleave hs m.before (List.nodup_append.1 m.fresh).1
    fun b _ hb => absurd hb List.not_mem_nil
  rw [List.append_nil] at hbefore
  exact foldl_induct (hstep m.past m.boot) (hboot _ _ _ m.boot_notMem_past hbefore) m.ops

/-- What holds at the second moment, from what holds at the first. -/
theorem second_induct (hboot : ∀ past b s, b ∉ past → P past s → Q past b s)
    (hstep : ∀ past b s a, Q past b s → Q past b (step b s a))
    (hleave : ∀ past b s, Q past b s → P (b :: past) s) (hs : Q m.past m.boot (m.first step s)) :
    P ((m.after.map Prod.fst).reverse ++ m.boot :: m.past) (m.second step s) := by
  obtain ⟨hbefore, hrest, hdisj⟩ := List.nodup_append.1 m.fresh
  obtain ⟨hafter, hnodup⟩ := List.nodup_cons.1 hrest
  have hmore := foldl_induct (hstep m.past m.boot) hs m.more
  refine replaySessions_induct hboot hstep hleave (hleave _ _ _ hmore) m.after
    hnodup fun b hb hmem => ?_
  obtain rfl | hmem := List.mem_cons.1 hmem
  · exact hafter hb
  · rw [past, List.mem_reverse] at hmem
    exact hdisj b hmem b (List.mem_cons_of_mem _ hb) rfl

end Moments

end VpnHide.Lib

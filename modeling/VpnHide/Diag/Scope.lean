import Mathlib.Data.Option.Basic
import Mathlib.Order.Nat
import VpnHide.Lib.Word

/-!
# The diagnostic scope

A thread of the diagnostics may see the network without protection for a short time
(`kmod/shared/vpnhide_diag_scope.h`). Root arms a thread by its number, the thread
registers itself, and root activates the thread that has registered. The grant ends when
root revokes it, or at its deadline.

The scope is guarded by a gate that nobody waits for: a call that finds it held has no
effect. The calls of the scope are functions from the scope, and from what the callbacks
answer, to the scope they leave, the references they take and put, and their reply.

`Op.exec_effect` says once what a call can do. `Scope.Sound` is the invariant of the
scope, and it holds along every run (`sound_scopeAt`).
-/

namespace VpnHide.Diag

/-- How a call ends. -/
inductive Result
  | ok
  | busy
  | invalid
  | stale
  | unavailable
  deriving DecidableEq

/-- How far a lease has got. -/
inductive Phase
  | released
  | armed
  | registered
  | active
  deriving DecidableEq

variable {I : Type*}

/-- What the callbacks answer when a caller makes a call. -/
structure Ops (I : Type*) where
  currentIdentity : Option I
  number : I → UInt32
  uid : UInt32
  now : UInt64

/-- The scope of a diagnostic run: a lease for one thread. -/
structure Scope (I : Type*) where
  gate : UInt32
  identity : Option I
  tid : UInt32
  uid : UInt32
  phase : Phase
  nonce : UInt64
  deadline : UInt64
  duration : UInt64
  maxLease : UInt64

/-- What a read of the scope shows. -/
structure Snapshot where
  phase : Phase
  tid : UInt32
  uid : UInt32
  nonce : UInt64
  remaining : UInt64

/-- What a call does with a reference to an identity. -/
inductive Ref (I : Type*)
  | get (identity : I)
  | put (identity : I)

/-- The outcome of a call: the scope, the references it has taken and put, in their order,
    and what it returns. -/
structure Out (I α : Type*) where
  scope : Scope I
  refs : List (Ref I)
  value : α

/-! ## The calls -/

/-- The gate is taken, if nobody has it. -/
def Scope.tryLock (s : Scope I) : Option (Scope I) :=
  if s.gate = 0 then some { s with gate := 1 } else none

/-- The gate is given back. -/
def Scope.unlock (s : Scope I) : Scope I := { s with gate := 0 }

/-- Releasing the scope; its nonce stays. The identity is returned, to be put. -/
def Scope.clear (s : Scope I) : Option I × Scope I :=
  (s.identity,
    { s with
      identity := none, tid := 0, uid := 0, deadline := 0, duration := 0, phase := .released })

/-- Putting a reference, if there is one. -/
def putRef : Option I → List (Ref I)
  | none => []
  | some i => [.put i]

/-- Whether the caller may see the network. The callbacks may be missing (`none`). -/
def Scope.current [DecidableEq I] (s : Scope I) (ops : Option (Ops I)) : Out I Bool :=
  match ops with
  | none => ⟨s, [], false⟩
  | some ops =>
    -- The fast path reads the identity without the gate.
    if s.identity = none then ⟨s, [], false⟩
    else match s.tryLock with
      | none => ⟨s, [], false⟩
      | some s =>
        if s.phase = .active ∧ ops.now < s.deadline ∧ ops.uid = s.uid then
          match ops.currentIdentity with
          | none => ⟨s.unlock, [], false⟩
          | some i => ⟨s.unlock, [.get i, .put i], some i = s.identity⟩
        else ⟨s.unlock, [], false⟩

/-- A lease is armed for a thread. -/
def Scope.arm (s : Scope I) (ops : Option (Ops I)) (tid uid : UInt32) (nonce duration : UInt64) :
    Out I Result :=
  match ops with
  | none => ⟨s, [], .unavailable⟩
  | some ops =>
    if s.maxLease = 0 then ⟨s, [], .unavailable⟩
    else if tid = 0 ∨ uid = 0 ∨ nonce = 0 ∨ duration = 0 ∨ s.maxLease < duration then
      ⟨s, [], .invalid⟩
    else match s.tryLock with
      | none => ⟨s, [], .busy⟩
      | some s =>
        let now := ops.now
        -- The deadline must not wrap.
        if 0xffffffffffffffff - now < s.maxLease then ⟨s.unlock, [], .invalid⟩
        else if nonce = s.nonce then
          -- Nothing is renewed by a replay.
          if s.phase = .released ∨ s.deadline ≤ now ∨ s.tid ≠ tid ∨ s.uid ≠ uid ∨
            s.duration ≠ duration then
            ⟨s.unlock, [], .stale⟩
          else ⟨s.unlock, [], .ok⟩
        else if s.phase ≠ .released ∧ now < s.deadline then ⟨s.unlock, [], .busy⟩
        else
          let (old, s) := s.clear
          let s := { s with
            tid, uid, nonce, duration, deadline := now + s.maxLease, phase := .armed }
          ⟨s.unlock, putRef old, .ok⟩

/-- The thread of a lease says that it is there. -/
def Scope.register [DecidableEq I] (s : Scope I) (ops : Option (Ops I)) (nonce : UInt64) :
    Out I Result :=
  match ops with
  | none => ⟨s, [], .unavailable⟩
  | some ops =>
    match s.tryLock with
    | none => ⟨s, [], .busy⟩
    | some s =>
      if nonce = 0 ∨ nonce ≠ s.nonce ∨ s.phase = .released ∨ s.deadline ≤ ops.now then
        ⟨s.unlock, [], .stale⟩
      else if ops.uid ≠ s.uid then ⟨s.unlock, [], .invalid⟩
      else match ops.currentIdentity with
        | none => ⟨s.unlock, [], .unavailable⟩
        | some i =>
          -- A number may be reused, an identity is not.
          if ops.number i ≠ s.tid then ⟨s.unlock, [.get i, .put i], .invalid⟩
          else if s.identity ≠ none ∧ s.identity ≠ some i then ⟨s.unlock, [.get i, .put i], .stale⟩
          else if s.phase = .armed then
            ⟨{ s with identity := some i, phase := .registered }.unlock, [.get i], .ok⟩
          else ⟨s.unlock, [.get i, .put i], .ok⟩

/-- The lease of a registered thread begins. -/
def Scope.activate (s : Scope I) (ops : Option (Ops I)) (nonce : UInt64) : Out I Result :=
  match ops with
  | none => ⟨s, [], .unavailable⟩
  | some ops =>
    match s.tryLock with
    | none => ⟨s, [], .busy⟩
    | some s =>
      let now := ops.now
      if nonce = 0 ∨ nonce ≠ s.nonce ∨ s.identity = none ∨ s.deadline ≤ now then
        ⟨s.unlock, [], .stale⟩
      else if s.phase = .registered then
        if 0xffffffffffffffff - now < s.duration then ⟨s.unlock, [], .invalid⟩
        else ⟨{ s with deadline := now + s.duration, phase := .active }.unlock, [], .ok⟩
      else if s.phase ≠ .active then ⟨s.unlock, [], .stale⟩
      else ⟨s.unlock, [], .ok⟩

/-- A lease is given up. -/
def Scope.revoke (s : Scope I) (ops : Option (Ops I)) (nonce : UInt64) : Out I Result :=
  match ops with
  | none => ⟨s, [], .unavailable⟩
  | some _ =>
    if nonce = 0 then ⟨s, [], .invalid⟩
    else match s.tryLock with
      | none => ⟨s, [], .busy⟩
      | some s =>
        if nonce ≠ s.nonce then ⟨s.unlock, [], .stale⟩
        else
          let (old, s) := s.clear
          ⟨s.unlock, putRef old, .ok⟩

/-- Reading the scope, which also reclaims one that has expired. -/
def Scope.snapshot (s : Scope I) (ops : Option (Ops I)) : Out I (Except Result Snapshot) :=
  match ops with
  | none => ⟨s, [], .error .unavailable⟩
  | some ops =>
    match s.tryLock with
    | none => ⟨s, [], .error .busy⟩
    | some s =>
      let now := ops.now
      let (old, s) := if s.phase ≠ .released ∧ s.deadline ≤ now then s.clear else (none, s)
      ⟨s.unlock, putRef old, .ok
        { phase := s.phase, tid := s.tid, uid := s.uid, nonce := s.nonce
          remaining := if s.phase ≠ .released then s.deadline - now else 0 }⟩

/-! ## Runs -/

/-- A call of the scope. -/
inductive Op
  | arm (tid uid : UInt32) (nonce duration : UInt64)
  | register (nonce : UInt64)
  | activate (nonce : UInt64)
  | revoke (nonce : UInt64)
  | snapshot
  | current

/-- The answer to a call. -/
inductive Reply
  | result (r : Result)
  | snapshot (r : Except Result Snapshot)
  | allowed (b : Bool)

/-- What a call answers, changed. -/
def Out.map {α β : Type*} (f : α → β) (o : Out I α) : Out I β := ⟨o.scope, o.refs, f o.value⟩

/-- What an operation does. -/
def Op.exec [DecidableEq I] (s : Scope I) (ops : Option (Ops I)) : Op → Out I Reply
  | .arm tid uid nonce duration => (s.arm ops tid uid nonce duration).map .result
  | .register nonce => (s.register ops nonce).map .result
  | .activate nonce => (s.activate ops nonce).map .result
  | .revoke nonce => (s.revoke ops nonce).map .result
  | .snapshot => (s.snapshot ops).map .snapshot
  | .current => (s.current ops).map .allowed

/-- A call by some caller. It may find the gate held by another that is interrupted. -/
structure Event (I : Type*) where
  op : Op
  ops : Option (Ops I)
  contended : Bool

/-- An event, which finds the gate taken where it is contended. -/
def Event.exec [DecidableEq I] (s : Scope I) (e : Event I) : Out I Reply :=
  let out := e.op.exec (if e.contended then { s with gate := 1 } else s) e.ops
  { out with scope := out.scope.unlock }

/-- A scope of zeros, but for its longest lease. -/
def Scope.init (maxLease : UInt64) : Scope I := ⟨0, none, 0, 0, .released, 0, 0, 0, maxLease⟩

/-- The scope before the event `n` of a run. -/
def scopeAt [DecidableEq I] (maxLease : UInt64) (e : ℕ → Event I) : ℕ → Scope I
  | 0 => .init maxLease
  | n + 1 => ((e n).exec (scopeAt maxLease e n)).scope

/-! ## What a call can do -/

/-- Root may arm a thread. -/
structure CanArm (s : Scope I) (o : Ops I) (tid uid : UInt32) (nonce duration : UInt64) : Prop where
  tid_ne : tid ≠ 0
  uid_ne : uid ≠ 0
  nonce_ne : nonce ≠ 0
  duration_ne : duration ≠ 0
  duration_le : duration ≤ s.maxLease
  clock : s.maxLease ≤ 0xffffffffffffffff - o.now
  new : nonce ≠ s.nonce
  free : s.phase = .released ∨ s.deadline ≤ o.now

/-- The scope when a thread is armed. -/
def Scope.armed (s : Scope I) (now : UInt64) (tid uid : UInt32) (nonce duration : UInt64) :
    Scope I :=
  { s with identity := none, tid, uid, nonce, duration, deadline := now +
    s.maxLease, phase := .armed }

/-- The identity `i` may register. -/
structure CanRegister (s : Scope I) (o : Ops I) (nonce : UInt64) (i : I) : Prop where
  nonce : nonce = s.nonce
  phase : s.phase = .armed
  clock : o.now < s.deadline
  uid : o.uid = s.uid
  identity : o.currentIdentity = some i
  number : o.number i = s.tid

/-- Root may activate what has registered. -/
structure CanActivate (s : Scope I) (o : Ops I) (nonce : UInt64) : Prop where
  nonce : nonce = s.nonce
  phase : s.phase = .registered
  clock : o.now < s.deadline
  duration : s.duration ≤ 0xffffffffffffffff - o.now

/-- A call whose success changes nothing. -/
def Op.Replay (s : Scope I) : Op → Prop
  | .arm _ _ nonce _ => nonce = s.nonce
  | .register _ => s.phase ≠ .armed
  | .activate _ => s.phase = .active
  | .revoke _ => False
  | .snapshot => True
  | .current => True

/-- The answer is not an error. -/
def Reply.Ok : Reply → Prop
  | .result r => r = .ok
  | .snapshot _ => True
  | .allowed _ => True

/-- What a call can do. -/
inductive Effect (s : Scope I) : Option (Ops I) → Op → Out I Reply → Prop
  | stay {ops op refs reply} (hrefs : refs = [] ∨ ∃ i, refs = [.get i, .put i])
      (hok : reply.Ok → op.Replay s) : Effect s ops op ⟨s, refs, reply⟩
  | arm {o tid uid nonce duration} (h : CanArm s o tid uid nonce duration) :
      Effect s (some o) (.arm tid uid nonce duration)
        ⟨s.armed o.now tid uid nonce duration, putRef s.identity, .result .ok⟩
  | register {o nonce i} (h : CanRegister s o nonce i) :
      Effect s (some o) (.register nonce)
        ⟨{ s with identity := some i, phase := .registered }, [.get i], .result .ok⟩
  | activate {o nonce} (h : CanActivate s o nonce) :
      Effect s (some o) (.activate nonce)
        ⟨{ s with deadline := o.now + s.duration, phase := .active }, [], .result .ok⟩
  | revoke {o} (h : s.nonce ≠ 0) :
      Effect s (some o) (.revoke s.nonce) ⟨s.clear.2, putRef s.identity, .result .ok⟩
  | expire {o snapshot} (hphase : s.phase ≠ .released) (hclock : s.deadline ≤ o.now) :
      Effect s (some o) .snapshot ⟨s.clear.2, putRef s.identity, .snapshot snapshot⟩

variable {s : Scope I} {ops : Option (Ops I)} {o : Ops I}

/-- Nothing is done, and the call fails. -/
theorem Effect.fail {op : Op} {r : Result} (hr : r ≠ .ok) : Effect s ops op ⟨s, [], .result r⟩ :=
  .stay (.inl rfl) fun h => absurd h hr

theorem Effect.dropped {op : Op} {r : Result} (i : I) (hr : r = .ok → op.Replay s) :
    Effect s ops op ⟨s, [.get i, .put i], .result r⟩ :=
  .stay (.inr ⟨i, rfl⟩) hr

section

variable (hg : s.gate = 0)
include hg

theorem tryLock_eq : s.tryLock = some { s with gate := 1 } := if_pos hg

theorem unlock_eq (g : UInt32) : ({ s with gate := g } : Scope I).unlock = s := by
  obtain ⟨gate, identity, tid, uid, phase, nonce, deadline, duration, maxLease⟩ := s
  cases hg
  rfl

/-- What `arm` does. -/
theorem arm_effect (tid uid : UInt32) (nonce duration : UInt64) :
    Effect s ops (.arm tid uid nonce duration)
      ((s.arm ops tid uid nonce duration).map .result) := by
  cases ops with
  | none => exact .fail Result.noConfusion
  | some o =>
    simp only [Scope.arm, tryLock_eq hg, unlock_eq hg]
    split_ifs with hmax hargs hclock hsame hstale hbusy
    -- In the order of the checks; what is left are the replay and the new grant.
    · exact .fail Result.noConfusion
    · exact .fail Result.noConfusion
    · exact .fail Result.noConfusion
    · exact .fail Result.noConfusion
    · exact .stay (.inl rfl) fun _ => hsame
    · exact .fail Result.noConfusion
    · simp only [not_or, not_lt] at hargs
      obtain ⟨htid, huid, hnonce, hdur, hle⟩ := hargs
      have hfree : s.phase = .released ∨ s.deadline ≤ o.now := by
        by_cases hphase : s.phase = .released
        · exact .inl hphase
        · exact .inr (not_lt.1 fun hlt => hbusy ⟨hphase, hlt⟩)
      have heq := unlock_eq (s := s.armed o.now tid uid nonce duration) hg 1
      exact heq ▸ .arm ⟨htid, huid, hnonce, hdur, hle, not_lt.1 hclock, hsame, hfree⟩

/-- What `register` does. -/
theorem register_effect [DecidableEq I] (nonce : UInt64) :
    Effect s ops (.register nonce) ((s.register ops nonce).map .result) := by
  cases ops with
  | none => exact .fail Result.noConfusion
  | some o =>
    simp only [Scope.register, tryLock_eq hg, unlock_eq hg]
    split
    · exact .fail Result.noConfusion
    rename_i hstale
    simp only [not_or, not_not, not_le] at hstale
    obtain ⟨-, hnonce, -, hclock⟩ := hstale
    split
    · exact .fail Result.noConfusion
    rename_i huid
    split
    · exact .fail Result.noConfusion
    · rename_i i hi
      split_ifs with hnum hother harmed
      · exact .dropped i Result.noConfusion
      · exact .dropped i Result.noConfusion
      · have heq := unlock_eq (s := { s with identity := some i, phase := .registered }) hg 1
        exact heq ▸ .register ⟨hnonce, harmed, hclock, not_not.1 huid, hi, not_not.1 hnum⟩
      · exact .dropped i fun _ => harmed

/-- What `activate` does. -/
theorem activate_effect (nonce : UInt64) :
    Effect s ops (.activate nonce) ((s.activate ops nonce).map .result) := by
  cases ops with
  | none => exact .fail Result.noConfusion
  | some o =>
    simp only [Scope.activate, tryLock_eq hg, unlock_eq hg]
    split_ifs with hstale hreg hclock hactive
    · exact .fail Result.noConfusion
    · exact .fail Result.noConfusion
    · simp only [not_or, not_not, not_le] at hstale
      have heq := unlock_eq (s := { s with deadline := o.now + s.duration, phase := .active }) hg 1
      exact heq ▸ .activate ⟨hstale.2.1, hreg, hstale.2.2.2, not_lt.1 hclock⟩
    · exact .fail Result.noConfusion
    · exact .stay (.inl rfl) fun _ => not_not.1 hactive

/-- What `revoke` does. -/
theorem revoke_effect (nonce : UInt64) :
    Effect s ops (.revoke nonce) ((s.revoke ops nonce).map .result) := by
  cases ops with
  | none => exact .fail Result.noConfusion
  | some o =>
    simp only [Scope.revoke, tryLock_eq hg, unlock_eq hg]
    split_ifs with hzero hstale
    · exact .fail Result.noConfusion
    · exact .fail Result.noConfusion
    · obtain rfl := not_not.1 hstale
      have heq := unlock_eq (s := s.clear.2) hg 1
      exact heq ▸ .revoke hzero

/-- What `snapshot` does. -/
theorem snapshot_effect : Effect s ops .snapshot ((s.snapshot ops).map .snapshot) := by
  cases ops with
  | none => exact .stay (.inl rfl) fun _ => trivial
  | some o =>
    simp only [Scope.snapshot, tryLock_eq hg]
    by_cases hexp : s.phase ≠ .released ∧ s.deadline ≤ o.now
    · rw [if_pos hexp]
      have heq := unlock_eq (s := s.clear.2) hg 1
      exact heq ▸ .expire hexp.1 hexp.2
    · rw [if_neg hexp]
      dsimp only
      rw [unlock_eq hg]
      exact .stay (.inl rfl) fun _ => trivial

/-- What `current` does. -/
theorem current_effect [DecidableEq I] : Effect s ops .current ((s.current ops).map .allowed) := by
  cases ops with
  | none => exact .stay (.inl rfl) fun _ => trivial
  | some o =>
    simp only [Scope.current, tryLock_eq hg, unlock_eq hg]
    split_ifs with hnone hactive
    · exact .stay (.inl rfl) fun _ => trivial
    · split
      · exact .stay (.inl rfl) fun _ => trivial
      · exact .stay (.inr ⟨_, rfl⟩) fun _ => trivial
    · exact .stay (.inl rfl) fun _ => trivial

/-- What a call can do, when the gate is free. -/
theorem Op.exec_effect [DecidableEq I] (op : Op) : Effect s ops op (op.exec s ops) := by
  cases op with
  | arm tid uid nonce duration => exact arm_effect hg tid uid nonce duration
  | register nonce => exact register_effect hg nonce
  | activate nonce => exact activate_effect hg nonce
  | revoke nonce => exact revoke_effect hg nonce
  | snapshot => exact snapshot_effect hg
  | current => exact current_effect hg

end

/-- No operation leaves the gate otherwise than it was. -/
theorem Effect.gate_eq {op : Op} {out : Out I Reply} (h : Effect s ops op out) :
    out.scope.gate = s.gate := by
  cases h <;> rfl

/-! ## A held gate -/

/-- The checks that come before the gate. -/
def Op.Tries (s : Scope I) : Op → Prop
  | .arm tid uid nonce duration =>
    s.maxLease ≠ 0 ∧ tid ≠ 0 ∧ uid ≠ 0 ∧ nonce ≠ 0 ∧ duration ≠ 0 ∧ duration ≤ s.maxLease
  | .register _ => True
  | .activate _ => True
  | .revoke nonce => nonce ≠ 0
  | .snapshot => True
  | .current => s.identity ≠ none

/-- What is returned to a caller who finds the gate held. -/
def Op.busy : Op → Reply
  | .snapshot => .snapshot (.error .busy)
  | .current => .allowed false
  | _ => .result .busy

/-- A call that finds the gate held does nothing. It fails as busy, unless it has failed
    before it tried the gate. -/
theorem Op.exec_held [DecidableEq I] (hg : s.gate ≠ 0) (op : Op) (ops : Option (Ops I)) :
    ∃ reply, op.exec s ops = ⟨s, [], reply⟩ ∧ (reply.Ok → op.Replay s) ∧
      (ops ≠ none → op.Tries s → reply = op.busy) := by
  have hlock : s.tryLock = none := if_neg hg
  have hbusy : Result.busy ≠ .ok := Result.noConfusion
  have hinvalid : Result.invalid ≠ .ok := Result.noConfusion
  have hunavailable : Result.unavailable ≠ .ok := Result.noConfusion
  -- Without the operations of the kernel a call fails before it tries the gate.
  cases ops with
  | none =>
    cases op with
    | snapshot => exact ⟨_, rfl, fun _ => trivial, fun h => absurd rfl h⟩
    | current => exact ⟨_, rfl, fun _ => trivial, fun h => absurd rfl h⟩
    | _ => exact ⟨_, rfl, fun h => absurd h hunavailable, fun h => absurd rfl h⟩
  | some o =>
    -- With them, by the call: what it checks before the gate, and the gate at last.
    cases op with
    | arm tid uid nonce duration =>
      simp only [exec, Scope.arm, hlock]
      split_ifs with hmax hargs
      · exact ⟨_, rfl, fun h => absurd h hunavailable, fun _ ht => absurd hmax ht.1⟩
      · refine ⟨_, rfl, fun h => absurd h hinvalid, fun _ ht => absurd hargs ?_⟩
        simp only [not_or, not_lt]
        exact ht.2
      · exact ⟨_, rfl, fun h => absurd h hbusy, fun _ _ => rfl⟩
    | register nonce =>
      simp only [exec, Scope.register, hlock]
      exact ⟨_, rfl, fun h => absurd h hbusy, fun _ _ => rfl⟩
    | activate nonce =>
      simp only [exec, Scope.activate, hlock]
      exact ⟨_, rfl, fun h => absurd h hbusy, fun _ _ => rfl⟩
    | revoke nonce =>
      simp only [exec, Scope.revoke, hlock]
      split_ifs with hzero
      · exact ⟨_, rfl, fun h => absurd h hinvalid, fun _ ht => absurd hzero ht⟩
      · exact ⟨_, rfl, fun h => absurd h hbusy, fun _ _ => rfl⟩
    | snapshot =>
      simp only [exec, Scope.snapshot, hlock]
      exact ⟨_, rfl, fun _ => trivial, fun _ _ => rfl⟩
    | current =>
      simp only [exec, Scope.current, hlock]
      split_ifs with hnone
      · exact ⟨_, rfl, fun _ => trivial, fun _ _ => rfl⟩
      · exact ⟨_, rfl, fun _ => trivial, fun _ _ => rfl⟩

/-- What an event can do. -/
theorem Event.exec_effect [DecidableEq I] (hg : s.gate = 0) (e : Event I) :
    Effect s e.ops e.op (e.exec s) := by
  obtain ⟨op, ops, contended⟩ := e
  cases contended with
  | true =>
    obtain ⟨reply, hexec, hok, -⟩ :=
      Op.exec_held (s := { s with gate := 1 }) (by decide : (1 : UInt32) ≠ 0) op ops
    have hstay : Event.exec s ⟨op, ops, true⟩ = ⟨s, [], reply⟩ := by
      rw [Event.exec]
      dsimp only
      rw [if_pos rfl, hexec, unlock_eq hg]
    rw [hstay]
    refine .stay (.inl rfl) fun h => ?_
    -- The gate is of no account in what a replay is.
    cases op <;> exact hok h
  | false =>
    have heffect : Effect s ops op (op.exec s ops) := Op.exec_effect hg op
    have hunlock : (op.exec s ops).scope.unlock = (op.exec s ops).scope :=
      unlock_eq (heffect.gate_eq.trans hg) _
    rw [Event.exec]
    dsimp only
    rw [if_neg Bool.false_ne_true, hunlock]
    exact heffect

/-! ## The invariant -/

/-- The invariant of the scope. -/
structure Scope.Sound (maxLease : UInt64) (s : Scope I) : Prop where
  gate : s.gate = 0
  lease : s.maxLease = maxLease
  identity : s.identity = none ↔ s.phase = .released ∨ s.phase = .armed
  released : s.phase = .released → s.tid = 0 ∧ s.uid = 0
  live : s.phase ≠ .released →
    s.tid ≠ 0 ∧ s.uid ≠ 0 ∧ s.nonce ≠ 0 ∧ s.duration ≠ 0 ∧ s.duration ≤ maxLease

/-- The scope is sound at the start. -/
theorem Scope.sound_init (maxLease : UInt64) : (init maxLease : Scope I).Sound maxLease where
  gate := rfl
  lease := rfl
  identity := ⟨fun _ => .inl rfl, fun _ => rfl⟩
  released _ := ⟨rfl, rfl⟩
  live h := absurd rfl h

/-- Clearing keeps it sound. -/
theorem Scope.Sound.clear {maxLease : UInt64} (hs : s.Sound maxLease) :
    s.clear.2.Sound maxLease where
  gate := hs.gate
  lease := hs.lease
  identity := ⟨fun _ => .inl rfl, fun _ => rfl⟩
  released _ := ⟨rfl, rfl⟩
  live h := absurd rfl h

/-- A call keeps the invariant. -/
theorem Scope.Sound.effect {maxLease : UInt64} {op : Op} {out : Out I Reply} (hs : s.Sound maxLease)
    (h : Effect s ops op out) : out.scope.Sound maxLease := by
  cases h with
  | stay => exact hs
  | arm h =>
    exact {
      gate := hs.gate
      lease := hs.lease
      identity := ⟨fun _ => .inr rfl, fun _ => rfl⟩
      released := Phase.noConfusion
      live := fun _ => ⟨h.tid_ne, h.uid_ne, h.nonce_ne, h.duration_ne, hs.lease ▸ h.duration_le⟩ }
  | register h =>
    have hphase : s.phase ≠ .released := by rw [h.phase]; exact Phase.noConfusion
    exact {
      gate := hs.gate
      lease := hs.lease
      identity := iff_of_false (Option.some_ne_none _) (by simp)
      released := Phase.noConfusion
      live := fun _ => hs.live hphase }
  | activate h =>
    have hphase : s.phase ≠ .released := by rw [h.phase]; exact Phase.noConfusion
    have hidentity : s.identity ≠ none := by
      rw [Ne, hs.identity, h.phase]
      decide
    exact {
      gate := hs.gate
      lease := hs.lease
      identity := iff_of_false hidentity (by simp)
      released := Phase.noConfusion
      live := fun _ => hs.live hphase }
  | revoke => exact hs.clear
  | expire => exact hs.clear

/-- The invariant holds along every run. -/
theorem sound_scopeAt [DecidableEq I] (maxLease : UInt64) (e : ℕ → Event I) (n : ℕ) :
    (scopeAt maxLease e n).Sound maxLease := by
  induction n with
  | zero => exact Scope.sound_init maxLease
  | succ n ih => exact ih.effect ((e n).exec_effect ih.gate)

end VpnHide.Diag

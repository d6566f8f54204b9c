import VpnHide.Diag.Wire

/-!
# Leases

Whoever calls, and in whatever order: the scope lets a thread see the network only if root
has armed it, it has registered itself, and root has activated it, for no longer than root
has said. The scope says in which of these phases it is, and `History` says what has
happened in a run for it to be in that phase; it is kept by every call
(`history_leaseAt`). Clocks may jump.
-/

namespace VpnHide.Diag

variable {I : Type*}

/-! ## Runs of requests -/

/-- What a caller from outside can ask for. -/
inductive Request
  | execute (command : Command)
  | register (nonce : UInt64)
  | registerName (name : Fin 16 → UInt8)
  | snapshot
  | current

/-- The call of the scope that a command amounts to. -/
def Command.op (command : Command) : Op :=
  match command.kind with
  | .arm => .arm command.tid command.uid command.nonce (command.durationMs.toUInt64 * 1000000)
  | .activate => .activate command.nonce
  | .revoke => .revoke command.nonce

/-- The call of the scope that a request amounts to, if it is let through. -/
def Request.op (ops : Option (Ops I)) : Request → Option Op
  | .execute command => if ops.map Ops.uid = some 0 then some command.op else none
  | .register nonce => some (.register nonce)
  | .registerName name => (registrationToken name).map .register
  | .snapshot => some .snapshot
  | .current => some .current

/-- The nonce a request registers with. -/
def Request.registers : Request → Option UInt64
  | .register nonce => some nonce
  | .registerName name => registrationToken name
  | _ => none

theorem Request.op_eq_register {ops : Option (Ops I)} {r : Request} {nonce : UInt64} :
    r.op ops = some (.register nonce) ↔ r.registers = some nonce := by
  cases r with
  | execute command =>
    obtain ⟨kind, tid, uid, durationMs, nonce⟩ := command
    cases kind <;> simp [op, registers, Command.op]
  | register n => simp [op, registers]
  | registerName name => simp [op, registers]
  | snapshot => simp [op, registers]
  | current => simp [op, registers]

/-- What is neither a registration nor a reading comes from a command of root. -/
theorem Request.exists_command {ops : Option (Ops I)} {r : Request} {op : Op}
    (h : r.op ops = some op) (hregister : ∀ nonce, op ≠ .register nonce)
    (hsnapshot : op ≠ .snapshot) (hcurrent : op ≠ .current) :
    ∃ o command, ops = some o ∧ o.uid = 0 ∧ r = .execute command ∧ command.op = op := by
  cases r with
  | execute command =>
    rw [Request.op] at h
    split_ifs at h with hroot
    obtain ⟨o, rfl, huid⟩ := Option.map_eq_some_iff.1 hroot
    exact ⟨o, command, rfl, huid, rfl, Option.some.inj h⟩
  | register nonce => exact absurd (Option.some.inj h).symm (hregister nonce)
  | registerName name =>
    obtain ⟨token, -, htoken⟩ := Option.map_eq_some_iff.1 h
    exact absurd htoken.symm (hregister token)
  | snapshot => exact absurd (Option.some.inj h).symm hsnapshot
  | current => exact absurd (Option.some.inj h).symm hcurrent

variable [DecidableEq I]

/-- What a request does. -/
def Request.serve (s : Scope I) (ops : Option (Ops I)) : Request → Out I Reply
  | .execute command => (s.execute ops command).map .result
  | .register nonce => (s.register ops nonce).map .result
  | .registerName name => (s.registerName ops name).map .result
  | .snapshot => (s.snapshot ops).map .snapshot
  | .current => (s.current ops).map .allowed

/-- A request by some caller, who may find the gate held. -/
structure Call (I : Type*) where
  request : Request
  ops : Option (Ops I)
  contended : Bool

/-- A call, which finds the gate taken where it is contended. -/
def Call.exec (s : Scope I) (c : Call I) : Out I Reply :=
  let out := c.request.serve (if c.contended then { s with gate := 1 } else s) c.ops
  { out with scope := out.scope.unlock }

/-- The scope before the call `n` of a run. -/
def leaseAt (maxLease : UInt64) (c : ℕ → Call I) : ℕ → Scope I
  | 0 => .init maxLease
  | n + 1 => ((c n).exec (leaseAt maxLease c n)).scope

/-- What the call `n` of a run returns. -/
def replyAt (maxLease : UInt64) (c : ℕ → Call I) (n : ℕ) : Reply :=
  ((c n).exec (leaseAt maxLease c n)).value

/-- A request is an operation, or leaves the scope alone. -/
theorem Request.serve_eq (s : Scope I) (ops : Option (Ops I)) (r : Request) :
    (∃ op, r.op ops = some op ∧ r.serve s ops = op.exec s ops) ∨
      (r.op ops = none ∧ ∃ result, result ≠ .ok ∧ r.serve s ops = ⟨s, [], .result result⟩) := by
  cases r with
  | execute command =>
    cases ops with
    | none => exact .inr ⟨rfl, _, Result.noConfusion, rfl⟩
    | some o =>
      by_cases huid : o.uid = 0
      · left
        obtain ⟨kind, tid, uid, durationMs, nonce⟩ := command
        simp only [op, serve, Scope.execute, Option.map_some, huid, ne_eq,
          not_true_eq_false, if_true, if_false]
        refine ⟨_, rfl, ?_⟩
        cases kind <;> rfl
      · right
        simp only [op, serve, Scope.execute, Option.map_some, Option.some.injEq, huid, ne_eq,
          not_false_eq_true, if_true, if_false]
        exact ⟨trivial, _, Result.noConfusion, rfl⟩
  | register nonce => exact .inl ⟨_, rfl, rfl⟩
  | registerName name =>
    simp only [op, serve, Scope.registerName]
    cases registrationToken name with
    | none => exact .inr ⟨rfl, _, Result.noConfusion, rfl⟩
    | some token => exact .inl ⟨_, rfl, rfl⟩
  | snapshot => exact .inl ⟨_, rfl, rfl⟩
  | current => exact .inl ⟨_, rfl, rfl⟩

/-- A request is an event of the scope, or refused. -/
theorem Call.exec_eq {s : Scope I} (hg : s.gate = 0) (c : Call I) :
    (∃ op, c.request.op c.ops = some op ∧ c.exec s = Event.exec s ⟨op, c.ops, c.contended⟩) ∨
      (c.request.op c.ops = none ∧ ∃ result, result ≠ .ok ∧
        c.exec s = ⟨s, [], .result result⟩) := by
  have hunlock : (if c.contended = true then { s with gate := 1 } else s).unlock = s := by
    split_ifs
    · exact unlock_eq hg 1
    · exact unlock_eq hg s.gate
  rcases c.request.serve_eq (if c.contended then { s with gate := 1 } else s) c.ops with
    ⟨op, hop, hserve⟩ | ⟨hop, result, hresult, hserve⟩
  · refine .inl ⟨op, hop, ?_⟩
    rw [Call.exec, Event.exec, hserve]
  · refine .inr ⟨hop, result, hresult, ?_⟩
    rw [Call.exec, hserve]
    dsimp only
    rw [hunlock]

/-- What a call can do. -/
theorem Call.exec_effect {s : Scope I} (hg : s.gate = 0) (c : Call I) :
    (∃ op, c.request.op c.ops = some op ∧ Effect s c.ops op (c.exec s)) ∨
      (c.request.op c.ops = none ∧ ∃ result, result ≠ .ok ∧
        c.exec s = ⟨s, [], .result result⟩) := by
  rcases c.exec_eq hg with ⟨op, hop, hexec⟩ | hnone
  · refine .inl ⟨op, hop, ?_⟩
    rw [hexec]
    exact Event.exec_effect hg ⟨op, c.ops, c.contended⟩
  · exact .inr hnone

/-- The scope is sound at every time. -/
theorem sound_leaseAt (maxLease : UInt64) (c : ℕ → Call I) (n : ℕ) :
    (leaseAt maxLease c n).Sound maxLease := by
  induction n with
  | zero => exact Scope.sound_init maxLease
  | succ n ih =>
    rw [leaseAt]
    rcases (c n).exec_effect ih.gate with ⟨op, -, heffect⟩ | ⟨-, result, -, hexec⟩
    · exact ih.effect heffect
    · rw [hexec]
      exact ih

/-- What the call `n` of a run can do. -/
theorem leaseAt_step (maxLease : UInt64) (c : ℕ → Call I) (n : ℕ) :
    ∃ ops out, (c n).ops = ops ∧ leaseAt maxLease c (n + 1) = out.scope ∧
      replyAt maxLease c n = out.value ∧
      ((∃ op, (c n).request.op ops = some op ∧ Effect (leaseAt maxLease c n) ops op out) ∨
        ((c n).request.op ops = none ∧ ∃ result, result ≠ .ok ∧
          out = ⟨leaseAt maxLease c n, [], .result result⟩)) :=
  ⟨_, _, rfl, rfl, rfl, (c n).exec_effect (sound_leaseAt maxLease c n).gate⟩

/-! ## What has happened -/

section

variable (maxLease : UInt64) (c : ℕ → Call I)

/-- At the call `n`, and at the time `now`, root gives a command with success. -/
def RootDoes (n : ℕ) (now : UInt64) (command : Command) : Prop :=
  ∃ o, (c n).ops = some o ∧ o.uid = 0 ∧ o.now = now ∧ (c n).request = .execute command ∧
    replyAt maxLease c n = .result .ok

/-- At the call `n` root arms a thread, with a nonce that is new. -/
def ArmsAt (n : ℕ) (tid uid : UInt32) (nonce : UInt64) (durationMs : UInt32) : Prop :=
  (∃ now, RootDoes maxLease c n now ⟨.arm, tid, uid, durationMs, nonce⟩) ∧
    nonce ≠ (leaseAt maxLease c n).nonce

/-- At the call `n` an identity with this uid and number registers with success. -/
def RegistersAt (n : ℕ) (nonce : UInt64) (i : I) (uid tid : UInt32) : Prop :=
  ∃ o, (c n).ops = some o ∧ o.currentIdentity = some i ∧ o.uid = uid ∧ o.number i = tid ∧
    (c n).request.registers = some nonce ∧ replyAt maxLease c n = .result .ok

/-- At the call `n`, and at the time `now`, root activates what has registered. -/
def ActivatesAt (n : ℕ) (nonce now : UInt64) : Prop :=
  ∃ command, command.kind = .activate ∧ command.nonce = nonce ∧ RootDoes maxLease c n now command

/-- At the call `n` root revokes the grant. -/
def RevokesAt (n : ℕ) (nonce : UInt64) : Prop :=
  ∃ command now, command.kind = .revoke ∧ command.nonce = nonce ∧ RootDoes maxLease c n now command

/-- Nothing of a kind happens between the calls `a` and `n`. -/
def Quiet (P : ℕ → Prop) (a n : ℕ) : Prop := ∀ k, a < k → k < n → ¬P k

/-- At the call `n` a thread is armed anew. -/
def Arms (n : ℕ) : Prop := ∃ tid uid nonce durationMs, ArmsAt maxLease c n tid uid nonce durationMs

/-- At the call `n` an identity registers with success. -/
def Registers (n : ℕ) : Prop := ∃ nonce i uid tid, RegistersAt maxLease c n nonce i uid tid

/-- At the call `n` root activates the grant. -/
def Activates (nonce : UInt64) (n : ℕ) : Prop := ∃ now, ActivatesAt maxLease c n nonce now

/-- The call `a` has armed the thread of the scope `s`, before the call `n`. -/
structure ArmedBy (n : ℕ) (s : Scope I) (a : ℕ) (durationMs : UInt32) : Prop where
  lt : a < n
  arms : ArmsAt maxLease c a s.tid s.uid s.nonce durationMs
  duration : s.duration = durationMs.toUInt64 * 1000000
  last : Quiet (Arms maxLease c) a n
  kept : Quiet (RevokesAt maxLease c · s.nonce) a n

/-- The call `r` has registered the identity `i` of the scope `s`, the first to do so. -/
structure RegisteredBy (n : ℕ) (s : Scope I) (a r : ℕ) (i : I) : Prop where
  after : a < r
  lt : r < n
  identity : s.identity = some i
  registers : RegistersAt maxLease c r s.nonce i s.uid s.tid
  first : Quiet (Registers maxLease c) a r

/-- The call `t` has activated the scope `s`, the first to do so. -/
structure ActivatedBy (n : ℕ) (s : Scope I) (a r t : ℕ) (now : UInt64) : Prop where
  after : r < t
  lt : t < n
  activates : ActivatesAt maxLease c t s.nonce now
  deadline : s.deadline.toNat = now.toNat + s.duration.toNat
  first : Quiet (Activates maxLease c s.nonce) a t

/-- What has happened before the call `n`, for the scope to be `s`. -/
def History (n : ℕ) (s : Scope I) : Prop :=
  match s.phase with
  | .released => True
  | .armed => ∃ a durationMs, ArmedBy maxLease c n s a durationMs ∧
      Quiet (Registers maxLease c) a n ∧ Quiet (Activates maxLease c s.nonce) a n
  | .registered => ∃ a durationMs r i, ArmedBy maxLease c n s a durationMs ∧
      RegisteredBy maxLease c n s a r i ∧ Quiet (Activates maxLease c s.nonce) a n
  | .active => ∃ a durationMs r i t now, ArmedBy maxLease c n s a durationMs ∧
      RegisteredBy maxLease c n s a r i ∧ ActivatedBy maxLease c n s a r t now

end

/-- What was quiet stays so for one more step. -/
theorem Quiet.succ {P : ℕ → Prop} {a n : ℕ} (h : Quiet P a n) (hn : ¬P n) : Quiet P a (n + 1) := by
  intro k hak hkn
  rcases Nat.lt_succ_iff_lt_or_eq.1 hkn with hkn | rfl
  · exact h k hak hkn
  · exact hn

theorem Quiet.self {P : ℕ → Prop} (n : ℕ) : Quiet P n (n + 1) :=
  fun _ hak hkn => absurd (Nat.lt_succ_iff.1 hkn) (Nat.not_le.2 hak)

variable {maxLease : UInt64} {c : ℕ → Call I} {n : ℕ}

/-! ## What a call can be -/

/-- What root does is an operation. -/
theorem RootDoes.op_eq {now : UInt64} {command : Command} (h : RootDoes maxLease c n now command) :
    (c n).request.op (c n).ops = some command.op ∧ replyAt maxLease c n = .result .ok := by
  obtain ⟨o, hops, huid, -, hrequest, hreply⟩ := h
  refine ⟨?_, hreply⟩
  rw [hrequest, hops, Request.op, Option.map_some, if_pos (congrArg some huid)]

theorem ArmsAt.op_eq {tid uid : UInt32} {nonce : UInt64} {durationMs : UInt32}
    (h : ArmsAt maxLease c n tid uid nonce durationMs) :
    (c n).request.op (c n).ops = some (.arm tid uid nonce (durationMs.toUInt64 * 1000000)) := by
  obtain ⟨⟨now, h⟩, -⟩ := h
  exact h.op_eq.1

theorem RevokesAt.op_eq {nonce : UInt64} (h : RevokesAt maxLease c n nonce) :
    (c n).request.op (c n).ops = some (.revoke nonce) := by
  obtain ⟨⟨kind, tid, uid, durationMs, nonce⟩, now, rfl, rfl, h⟩ := h
  exact h.op_eq.1

theorem ActivatesAt.op_eq {nonce now : UInt64} (h : ActivatesAt maxLease c n nonce now) :
    (c n).request.op (c n).ops = some (.activate nonce) := by
  obtain ⟨⟨kind, tid, uid, durationMs, nonce⟩, rfl, rfl, h⟩ := h
  exact h.op_eq.1

theorem RegistersAt.op_eq {nonce : UInt64} {i : I} {uid tid : UInt32}
    (h : RegistersAt maxLease c n nonce i uid tid) :
    (c n).request.op (c n).ops = some (.register nonce) := by
  obtain ⟨o, -, -, -, -, hregisters, -⟩ := h
  exact Request.op_eq_register.2 hregisters

/-! ## The history is kept -/

variable {s : Scope I}

/-- An armed lease stays armed. -/
theorem ArmedBy.succ {a : ℕ} {durationMs : UInt32} (h : ArmedBy maxLease c n s a durationMs)
    (harm : ¬Arms maxLease c n) (hrevoke : ¬RevokesAt maxLease c n s.nonce) :
    ArmedBy maxLease c (n + 1) s a durationMs :=
  { h with lt := h.lt.trans n.lt_succ_self, last := h.last.succ harm, kept := h.kept.succ hrevoke }

/-- A registered lease stays registered. -/
theorem RegisteredBy.succ {a r : ℕ} {i : I} (h : RegisteredBy maxLease c n s a r i) :
    RegisteredBy maxLease c (n + 1) s a r i :=
  { h with lt := h.lt.trans n.lt_succ_self }

/-- An active lease stays active. -/
theorem ActivatedBy.succ {a r t : ℕ} {now : UInt64} (h : ActivatedBy maxLease c n s a r t now) :
    ActivatedBy maxLease c (n + 1) s a r t now :=
  { h with lt := h.lt.trans n.lt_succ_self }

/-- A call that changes nothing adds nothing. -/
theorem History.stay (h : History maxLease c n s) (harm : ¬Arms maxLease c n)
    (hrevoke : ¬RevokesAt maxLease c n s.nonce)
    (hregister : s.phase = .armed → ¬Registers maxLease c n)
    (hactivate : s.phase ≠ .active → ¬Activates maxLease c s.nonce n) :
    History maxLease c (n + 1) s := by
  unfold History at h ⊢
  cases hphase : s.phase with
  | released => trivial
  | armed =>
    rw [hphase] at h
    obtain ⟨a, durationMs, harmed, hnone, hquiet⟩ := h
    have hact := hactivate (by rw [hphase]; exact Phase.noConfusion)
    exact ⟨a, durationMs, harmed.succ harm hrevoke, hnone.succ (hregister hphase), hquiet.succ hact⟩
  | registered =>
    rw [hphase] at h
    obtain ⟨a, durationMs, r, i, harmed, hreg, hquiet⟩ := h
    have hact := hactivate (by rw [hphase]; exact Phase.noConfusion)
    exact ⟨a, durationMs, r, i, harmed.succ harm hrevoke, hreg.succ, hquiet.succ hact⟩
  | active =>
    rw [hphase] at h
    obtain ⟨a, durationMs, r, i, t, now, harmed, hreg, hact⟩ := h
    exact ⟨a, durationMs, r, i, t, now, harmed.succ harm hrevoke, hreg.succ, hact.succ⟩

/-- An `arm` that has an effect is root's. -/
theorem exists_armsAt {o : Ops I} {tid uid : UInt32} {nonce duration : UInt64}
    (hop : (c n).request.op (c n).ops = some (.arm tid uid nonce duration))
    (hreply : replyAt maxLease c n = .result .ok)
    (h : CanArm (leaseAt maxLease c n) o tid uid nonce duration) :
    ∃ durationMs, duration = durationMs.toUInt64 * 1000000 ∧
      ArmsAt maxLease c n tid uid nonce durationMs := by
  obtain ⟨o', ⟨kind, tid', uid', durationMs, nonce'⟩, hops, huid, hrequest, hcommand⟩ :=
    Request.exists_command hop (fun _ => Op.noConfusion) Op.noConfusion Op.noConfusion
  cases kind with
  | arm =>
    cases hcommand
    exact ⟨durationMs, rfl, ⟨o'.now, o', hops, huid, rfl, hrequest, hreply⟩, h.new⟩
  | activate => cases hcommand
  | revoke => cases hcommand

/-- Root arms a thread: the history begins. -/
theorem History.arm {o : Ops I} {tid uid : UInt32} {nonce duration : UInt64}
    (hop : (c n).request.op (c n).ops = some (.arm tid uid nonce duration))
    (hreply : replyAt maxLease c n = .result .ok)
    (h : CanArm (leaseAt maxLease c n) o tid uid nonce duration) :
    History maxLease c (n + 1) ((leaseAt maxLease c n).armed o.now tid uid nonce duration) := by
  obtain ⟨durationMs, rfl, harms⟩ := exists_armsAt hop hreply h
  exact ⟨n, durationMs, ⟨n.lt_succ_self, harms, rfl, .self n, .self n⟩, .self n, .self n⟩

/-- The first identity registers. -/
theorem History.register {o : Ops I} {nonce : UInt64} {i : I} (h : History maxLease c n s)
    (hops : (c n).ops = some o) (hop : (c n).request.op (c n).ops = some (.register nonce))
    (hreply : replyAt maxLease c n = .result .ok) (hcan : CanRegister s o nonce i) :
    History maxLease c (n + 1) { s with identity := some i, phase := .registered } := by
  rw [History, hcan.phase] at h
  obtain ⟨a, durationMs, harmed, hnone, hquiet⟩ := h
  have harm : ¬Arms maxLease c n := by
    rintro ⟨_, _, _, _, harms⟩
    cases hop.symm.trans harms.op_eq
  have hrevoke : ¬RevokesAt maxLease c n s.nonce := fun h => by cases hop.symm.trans h.op_eq
  have hactivate : ¬Activates maxLease c s.nonce n := by
    rintro ⟨_, hact⟩
    cases hop.symm.trans hact.op_eq
  have hregisters : RegistersAt maxLease c n s.nonce i s.uid s.tid :=
    ⟨o, hops, hcan.identity, hcan.uid, hcan.number, hcan.nonce ▸
      Request.op_eq_register.1 hop, hreply⟩
  have harmed' := harmed.succ harm hrevoke
  exact ⟨a, durationMs, n, i,
    ⟨harmed'.lt, harmed'.arms, harmed'.duration, harmed'.last, harmed'.kept⟩,
    ⟨harmed.lt, n.lt_succ_self, rfl, hregisters, hnone⟩, hquiet.succ hactivate⟩

/-- Root activates what has registered. -/
theorem History.activate {o : Ops I} {nonce : UInt64} (h : History maxLease c n s)
    (hops : (c n).ops = some o) (hop : (c n).request.op (c n).ops = some (.activate nonce))
    (hreply : replyAt maxLease c n = .result .ok) (hcan : CanActivate s o nonce) :
    History maxLease c (n + 1) { s with deadline := o.now + s.duration, phase := .active } := by
  rw [History, hcan.phase] at h
  obtain ⟨a, durationMs, r, i, harmed, hreg, hquiet⟩ := h
  have harm : ¬Arms maxLease c n := by
    rintro ⟨_, _, _, _, harms⟩
    cases hop.symm.trans harms.op_eq
  have hrevoke : ¬RevokesAt maxLease c n s.nonce := fun h => by cases hop.symm.trans h.op_eq
  obtain ⟨o', ⟨kind, tid, uid, durationMs', nonce'⟩, hops', huid, hrequest, hcommand⟩ :=
    Request.exists_command hop (fun _ => Op.noConfusion) Op.noConfusion Op.noConfusion
  obtain rfl : o = o' := Option.some.inj (hops.symm.trans hops')
  have hactivates : ActivatesAt maxLease c n s.nonce o.now := by
    cases kind with
    | arm => cases hcommand
    | activate =>
      cases hcommand
      exact ⟨_, rfl, hcan.nonce, o, hops, huid, rfl, hrequest, hreply⟩
    | revoke => cases hcommand
  -- The clock has been checked, so that the deadline does not wrap.
  have hsum : (o.now + s.duration).toNat = o.now.toNat + s.duration.toNat := by
    have hle := UInt64.le_iff_toNat_le.1 hcan.duration
    have hlt := o.now.toNat_lt
    rw [UInt64.toNat_sub_of_le _ _ (UInt64.le_iff_toNat_le.2 (by simp; omega))] at hle
    rw [UInt64.toNat_add, Nat.mod_eq_of_lt]
    simp at hle
    omega
  have harmed' := harmed.succ harm hrevoke
  exact ⟨a, durationMs, r, i, n, o.now,
    ⟨harmed'.lt, harmed'.arms, harmed'.duration, harmed'.last, harmed'.kept⟩,
    ⟨hreg.after, hreg.succ.lt, hreg.identity, hreg.registers, hreg.first⟩,
    ⟨hreg.lt, n.lt_succ_self, hactivates, hsum, hquiet⟩⟩

/-- Every run has its history. -/
theorem history_leaseAt (maxLease : UInt64) (c : ℕ → Call I) (n : ℕ) :
    History maxLease c n (leaseAt maxLease c n) := by
  induction n with
  | zero => trivial
  | succ n ih =>
    obtain ⟨ops, out, rfl, hscope, hreply, ⟨op, hop, heffect⟩ | ⟨hop, result, -, rfl⟩⟩ :=
      leaseAt_step maxLease c n
    · rw [hscope]
      generalize hops : (c n).ops = ops at heffect
      cases heffect with
      | stay _ hok =>
        -- A success of this call is a replay.
        have hreplay : ∀ {op'}, (c n).request.op (c n).ops = some op' →
            replyAt maxLease c n = .result .ok → op'.Replay (leaseAt maxLease c n) := by
          intro op' hop' hres
          obtain rfl : op = op' := Option.some.inj (hop.symm.trans hop')
          dsimp only at hreply
          rw [← hreply, hres] at hok
          exact hok rfl
        refine ih.stay ?_ ?_ ?_ ?_
        · rintro ⟨tid, uid, nonce, durationMs, harms⟩
          obtain ⟨⟨now, hroot⟩, hnew⟩ := id harms
          exact hnew (hreplay harms.op_eq hroot.op_eq.2)
        · rintro hrevoke
          obtain ⟨_, _, -, -, hroot⟩ := id hrevoke
          exact hreplay hrevoke.op_eq hroot.op_eq.2
        · rintro hphase ⟨nonce, i, uid, tid, hregisters⟩
          obtain ⟨_, -, -, -, -, -, hres⟩ := id hregisters
          exact hreplay hregisters.op_eq hres hphase
        · rintro hphase ⟨now, hactivates⟩
          obtain ⟨_, -, -, hroot⟩ := id hactivates
          exact hphase (hreplay hactivates.op_eq hroot.op_eq.2)
      | arm h => exact History.arm hop hreply h
      | register h => exact ih.register hops hop hreply h
      | activate h => exact ih.activate hops hop hreply h
      | revoke => trivial
      | expire => trivial
    · rw [hscope]
      refine ih.stay ?_ ?_ ?_ ?_
      · rintro ⟨tid, uid, nonce, durationMs, harms⟩
        cases hop.symm.trans harms.op_eq
      · exact fun h => by cases hop.symm.trans h.op_eq
      · rintro - ⟨nonce, i, uid, tid, hregisters⟩
        cases hop.symm.trans hregisters.op_eq
      · rintro - ⟨now, hactivates⟩
        cases hop.symm.trans hactivates.op_eq

/-! ## Who may see the network -/

/-- The scope lets through the identity it holds, while it is active. -/
theorem Scope.current_eq_true {ops : Option (Ops I)} (h : (s.current ops).value = true) :
    ∃ o i, ops = some o ∧ s.phase = .active ∧ o.now < s.deadline ∧ o.uid = s.uid ∧
      o.currentIdentity = some i ∧ s.identity = some i := by
  cases ops with
  | none => cases h
  | some o =>
    rw [Scope.current] at h
    split_ifs at h
    rw [Scope.tryLock] at h
    split_ifs at h with hgate
    · dsimp only at h
      split_ifs at h with hactive
      · split at h
        · cases h
        · rename_i i hi
          exact ⟨o, i, rfl, hactive.1, hactive.2.1, hactive.2.2, hi, (of_decide_eq_true h).symm⟩

/-- When the current thread is allowed. -/
theorem current_of_reply (hcurrent : (c n).request = .current)
    (hallowed : replyAt maxLease c n = .allowed true) :
    ∃ o i, (c n).ops = some o ∧ (leaseAt maxLease c n).phase = .active ∧
      o.now < (leaseAt maxLease c n).deadline ∧ o.uid = (leaseAt maxLease c n).uid ∧
      o.currentIdentity = some i ∧ (leaseAt maxLease c n).identity = some i := by
  rw [replyAt, Call.exec, hcurrent] at hallowed
  dsimp only [Request.serve, Out.map] at hallowed
  obtain ⟨o, i, hops, hphase, hnow, huid, hi, hidentity⟩ :=
    Scope.current_eq_true (Reply.allowed.inj hallowed)
  split_ifs at hphase hnow huid hidentity
  · exact ⟨o, i, hops, hphase, hnow, huid, hi, hidentity⟩
  · exact ⟨o, i, hops, hphase, hnow, huid, hi, hidentity⟩

/-! ## Replays -/

/-- A step towards a grant. -/
inductive Grant
  | arm (nonce : UInt64)
  | register (nonce : UInt64)
  | activate (nonce : UInt64)

/-- The lease that an operation may grant. -/
def Op.grant : Op → Option Grant
  | .arm _ _ nonce _ => some (.arm nonce)
  | .register nonce => some (.register nonce)
  | .activate nonce => some (.activate nonce)
  | _ => none

/-- The step towards a grant that a request asks for. -/
def Request.grant : Request → Option Grant
  | .execute command =>
    match command.kind with
    | .arm => some (.arm command.nonce)
    | .activate => some (.activate command.nonce)
    | .revoke => none
  | .register nonce => some (.register nonce)
  | .registerName name => (registrationToken name).map .register
  | .snapshot => none
  | .current => none

omit [DecidableEq I] in
theorem Request.grant_op {ops : Option (Ops I)} {r : Request} {op : Op} (hop : r.op ops = some op) :
    op.grant = r.grant := by
  cases r with
  | execute command =>
    obtain ⟨kind, tid, uid, durationMs, nonce⟩ := command
    rw [Request.op] at hop
    split_ifs at hop
    obtain rfl := Option.some.inj hop
    cases kind <;> rfl
  | register nonce =>
    cases hop
    rfl
  | registerName name =>
    obtain ⟨token, htoken, rfl⟩ := Option.map_eq_some_iff.1 hop
    rw [Request.grant, htoken]
    rfl
  | snapshot =>
    cases hop
    rfl
  | current =>
    cases hop
    rfl

/-- The step has been made: to make it once more changes nothing. -/
def Scope.Past (s : Scope I) : Grant → Prop
  | .arm nonce => s.nonce = nonce
  | .register _ => s.phase ≠ .armed
  | .activate _ => s.phase ≠ .armed ∧ s.phase ≠ .registered

/-- A successful step is past. -/
theorem past_of_ok {g : Grant} (hg : (c n).request.grant = some g)
    (hreply : replyAt maxLease c n = .result .ok) : (leaseAt maxLease c (n + 1)).Past g := by
  obtain ⟨ops, out, -, hscope, hvalue, ⟨op, hop, heffect⟩ | ⟨-, result, hne, rfl⟩⟩ :=
    leaseAt_step maxLease c n
  · rw [hscope]
    rw [← Request.grant_op hop] at hg
    -- By the effect of the call on the scope; a call that stays was made before.
    cases heffect with
    | stay _ hok =>
      dsimp only at hvalue
      rw [← hvalue, hreply] at hok
      have hreplay := hok rfl
      cases op with
      | arm tid uid nonce duration =>
        cases hg
        exact Eq.symm hreplay
      | register nonce =>
        cases hg
        exact hreplay
      | activate nonce =>
        cases hg
        rw [Op.Replay] at hreplay
        rw [Scope.Past, hreplay]
        exact ⟨Phase.noConfusion, Phase.noConfusion⟩
      | revoke nonce => cases hg
      | snapshot => cases hg
      | current => cases hg
    | arm h =>
      cases hg
      rfl
    | register h =>
      cases hg
      exact Phase.noConfusion
    | activate h =>
      cases hg
      exact ⟨Phase.noConfusion, Phase.noConfusion⟩
    | revoke h => cases hg
    | expire hphase hclock => cases hg
  · exact absurd (Reply.result.inj (hvalue.symm.trans hreply)) hne

/-- What is past stays past, until a thread is armed anew. -/
theorem Scope.Past.succ {g : Grant} (h : (leaseAt maxLease c n).Past g)
    (harm : ¬Arms maxLease c n) :
    (leaseAt maxLease c (n + 1)).Past g := by
  obtain ⟨ops, out, hops, hscope, hreply, ⟨op, hop, heffect⟩ | ⟨-, result, -, rfl⟩⟩ :=
    leaseAt_step maxLease c n
  · rw [hscope]
    cases heffect with
    | stay => exact h
    | arm hcan =>
      obtain ⟨durationMs, -, harms⟩ := exists_armsAt (hops ▸ hop) hreply hcan
      exact absurd ⟨_, _, _, _, harms⟩ harm
    | register hcan =>
      cases g with
      | arm nonce => exact h
      | register nonce => exact Phase.noConfusion
      | activate nonce => exact absurd hcan.phase h.1
    | activate hcan =>
      cases g with
      | arm nonce => exact h
      | register nonce => exact Phase.noConfusion
      | activate nonce => exact ⟨Phase.noConfusion, Phase.noConfusion⟩
    | revoke hne =>
      cases g with
      | arm nonce => exact h
      | register nonce => exact Phase.noConfusion
      | activate nonce => exact ⟨Phase.noConfusion, Phase.noConfusion⟩
    | expire hphase hclock =>
      cases g with
      | arm nonce => exact h
      | register nonce => exact Phase.noConfusion
      | activate nonce => exact ⟨Phase.noConfusion, Phase.noConfusion⟩
  · rw [hscope]
    exact h

/-- To make a step once more changes nothing. -/
theorem Scope.Past.leaseAt_succ {g : Grant} (h : (leaseAt maxLease c n).Past g)
    (hg : (c n).request.grant = some g) : leaseAt maxLease c (n + 1) = leaseAt maxLease c n := by
  obtain ⟨ops, out, -, hscope, -, ⟨op, hop, heffect⟩ | ⟨-, result, -, rfl⟩⟩ :=
    leaseAt_step maxLease c n
  · rw [hscope]
    rw [← Request.grant_op hop] at hg
    cases heffect with
    | stay => rfl
    | arm hcan =>
      cases hg
      exact absurd h.symm hcan.new
    | register hcan =>
      cases hg
      exact absurd hcan.phase h
    | activate hcan =>
      cases hg
      exact absurd hcan.phase h.2
    | revoke hne => cases hg
    | expire hphase hclock => cases hg
  · exact hscope

/-- A replay changes nothing, as long as no thread is armed anew. -/
theorem leaseAt_of_replay {g : Grant} {k : ℕ} (hk : (c k).request.grant = some g)
    (hreply : replyAt maxLease c k = .result .ok) (hkn : k < n)
    (hquiet : Quiet (Arms maxLease c) k n)
    (hn : (c n).request.grant = some g) : leaseAt maxLease c (n + 1) = leaseAt maxLease c n := by
  -- The step is past from its success on, up to the replay.
  have hpast : ∀ m, k < m → m ≤ n → (leaseAt maxLease c m).Past g := by
    intro m hkm
    induction m, hkm using Nat.le_induction with
    | base => exact fun _ => past_of_ok hk hreply
    | succ m hkm ih => exact fun hmn => (ih (Nat.le_of_succ_le hmn)).succ (hquiet m hkm hmn)
  exact (hpast n hkn le_rfl).leaseAt_succ hn

/-- What a caller who is not root can do, other than to register. -/
theorem leaseAt_of_unprivileged {o : Ops I} (hops : (c n).ops = some o) (huid : o.uid ≠ 0)
    (hregister : (c n).request.registers = none) :
    leaseAt maxLease c (n + 1) = leaseAt maxLease c n ∨
      ((c n).request = .snapshot ∧ (leaseAt maxLease c n).phase ≠ .released ∧
        (leaseAt maxLease c n).deadline ≤ o.now ∧
        leaseAt maxLease c (n + 1) = (leaseAt maxLease c n).clear.2) := by
  obtain ⟨ops, out, rfl, hscope, -, ⟨op, hop, heffect⟩ | ⟨-, result, -, rfl⟩⟩ :=
    leaseAt_step maxLease c n
  · rw [hscope]
    rw [hops] at hop heffect
    -- What is left are the two calls that read the scope.
    have hreads : ((c n).request = .snapshot ∧ op = .snapshot) ∨ op = .current := by
      cases hr : (c n).request with
      | execute command =>
        rw [hr, Request.op, if_neg (by simpa using huid)] at hop
        cases hop
      | register nonce =>
        rw [hr] at hregister
        cases hregister
      | registerName name =>
        rw [hr] at hregister hop
        rw [Request.op, show registrationToken name = none from hregister] at hop
        cases hop
      | snapshot =>
        rw [hr] at hop
        exact .inl ⟨rfl, (Option.some.inj hop).symm⟩
      | current =>
        rw [hr] at hop
        exact .inr (Option.some.inj hop).symm
    rcases hreads with ⟨hsnapshot, rfl⟩ | rfl
    · cases heffect with
      | stay => exact .inl rfl
      | expire hphase hclock => exact .inr ⟨hsnapshot, hphase, hclock, rfl⟩
    · cases heffect with
      | stay => exact .inl rfl
  · exact .inl hscope

/-- The thread with the identity `i` and the uid of `o` may see the network at the call `n`:
    root has armed it, it was the first to register, and root has activated it, for no longer
    than was said when it was armed, and has not revoked it since. -/
def Granted (maxLease : UInt64) (c : ℕ → Call I) (n : ℕ) (o : Ops I) (i : I) : Prop :=
  ∃ (a r t : ℕ) (tid : UInt32) (nonce now : UInt64) (durationMs : UInt32),
    a < r ∧ r < t ∧ t < n ∧
    ArmsAt maxLease c a tid o.uid nonce durationMs ∧ Quiet (Arms maxLease c) a n ∧
    RegistersAt maxLease c r nonce i o.uid tid ∧ Quiet (Registers maxLease c) a r ∧
    ActivatesAt maxLease c t nonce now ∧ Quiet (Activates maxLease c nonce) a t ∧
    Quiet (RevokesAt maxLease c · nonce) a n ∧
    o.now.toNat < now.toNat + durationMs.toNat * 1000000 ∧
    durationMs.toNat * 1000000 ≤ maxLease.toNat

/-- In every run of requests by any callers:
    * a caller is let through only if it has been granted;
    * no replay changes the scope;
    * nor does a caller who is not root, but to register, or to release an expired scope
      by reading it. -/
theorem lease_safe (maxLease : UInt64) (c : ℕ → Call I) (n : ℕ) :
    ((c n).request = .current → replyAt maxLease c n = .allowed true →
      ∃ o i, (c n).ops = some o ∧ o.currentIdentity = some i ∧ Granted maxLease c n o i) ∧
    (∀ k g, (c k).request.grant = some g → replyAt maxLease c k = .result .ok → k < n →
      Quiet (Arms maxLease c) k n → (c n).request.grant = some g →
      leaseAt maxLease c (n + 1) = leaseAt maxLease c n) ∧
    ∀ o, (c n).ops = some o → o.uid ≠ 0 → (c n).request.registers = none →
      leaseAt maxLease c (n + 1) = leaseAt maxLease c n ∨
        ((c n).request = .snapshot ∧ (leaseAt maxLease c n).phase ≠ .released ∧
          (leaseAt maxLease c n).deadline ≤ o.now ∧
          leaseAt maxLease c (n + 1) = (leaseAt maxLease c n).clear.2) := by
  refine ⟨fun hcurrent hallowed => ?_, fun k g => leaseAt_of_replay, fun o =>
    leaseAt_of_unprivileged⟩
  obtain ⟨o, i, hops, hphase, hnow, huid, hi, hidentity⟩ := current_of_reply hcurrent hallowed
  have hhistory := history_leaseAt maxLease c n
  rw [History, hphase] at hhistory
  obtain ⟨a, durationMs, r, i', t, now, harmed, hreg, hact⟩ := hhistory
  obtain rfl : i' = i := Option.some.inj (hreg.identity.symm.trans hidentity)
  -- The duration in milliseconds does not wrap as one in nanoseconds.
  have hduration : (leaseAt maxLease c n).duration.toNat = durationMs.toNat * 1000000 := by
    have hlt := durationMs.toNat_lt
    rw [harmed.duration, UInt64.toNat_mul, UInt32.toNat_toUInt64]
    exact Nat.mod_eq_of_lt (by simp; omega)
  have hle := ((sound_leaseAt maxLease c n).live (by rw [hphase]; exact Phase.noConfusion)).2.2.2.2
  refine ⟨o, i', hops, hi, a, r, t, _, _, now, durationMs, hreg.after, hact.after, hact.lt,
    huid ▸ harmed.arms, harmed.last, huid ▸ hreg.registers, hreg.first, hact.activates, hact.first,
    harmed.kept, ?_, ?_⟩
  · rw [← hduration, ← hact.deadline]
    exact UInt64.lt_iff_toNat_lt.1 hnow
  · rw [← hduration]
    exact UInt64.le_iff_toNat_le.1 hle

/-- A thread is armed, registers, is activated and let through; it registers once more, and
    reads the scope. -/
theorem lease_safe_thread :
    let root : UInt64 → Option (Ops Bool) := fun now => some ⟨none, fun _ => 0, 0, now⟩
    let thread : UInt64 → Ops Bool := fun now => ⟨some true, fun _ => 42, 10001, now⟩
    let c : ℕ → Call Bool
      | 0 => ⟨.execute ⟨.arm, 42, 10001, 1000, 7⟩, root 100, false⟩
      | 1 => ⟨.register 7, some (thread 200), false⟩
      | 2 => ⟨.execute ⟨.activate, 0, 0, 0, 7⟩, root 300, false⟩
      | 3 => ⟨.current, some (thread 400), false⟩
      | 4 => ⟨.register 7, some (thread 500), false⟩
      | _ => ⟨.snapshot, some (thread 600), false⟩
    Granted 5000000000 c 3 (thread 400) true ∧
      leaseAt 5000000000 c 5 = leaseAt 5000000000 c 4 ∧
      leaseAt 5000000000 c 6 = leaseAt 5000000000 c 5 := by
  intro root thread c
  have hcurrent : replyAt 5000000000 c 3 = .allowed true := by rfl
  have hregister : replyAt 5000000000 c 1 = .result .ok := by rfl
  have hquiet : Quiet (Arms 5000000000 c) 1 4 := by
    rintro k h1 h4 ⟨_, _, _, _, ⟨_, _, -, -, -, hrequest, -⟩, -⟩
    obtain rfl | rfl : k = 2 ∨ k = 3 := by omega
    · cases hrequest
    · cases hrequest
  have hlive : ¬(leaseAt 5000000000 c 5).deadline ≤ 600 := by decide
  refine ⟨?_, (lease_safe 5000000000 c 4).2.1 1 (.register 7) rfl hregister (by decide) hquiet rfl,
    ?_⟩
  · obtain ⟨o, i, ho, hi, hgranted⟩ := (lease_safe 5000000000 c 3).1 rfl hcurrent
    cases ho
    cases hi
    exact hgranted
  · rcases (lease_safe 5000000000 c 5).2.2 (thread 600) rfl (by decide) rfl with hstay |
      ⟨-, -, hclock, -⟩
    · exact hstay
    · exact absurd hclock hlive

/-- A caller who is not root changes the scope by reading it after the deadline. -/
theorem leaseAt_changed_by_snapshot :
    let c : ℕ → Call Bool
      | 0 => ⟨.execute ⟨.arm, 42, 10001, 1000, 7⟩, some ⟨none, fun _ => 0, 0, 100⟩, false⟩
      | _ => ⟨.snapshot, some ⟨some false, fun _ => 43, 10002, 5000000100⟩, false⟩
    (c 1).ops.map Ops.uid = some 10002 ∧ (c 1).request.registers = none ∧
      (leaseAt 5000000000 c 1).phase = .armed ∧ (leaseAt 5000000000 c 2).phase = .released := by
  intro c
  exact ⟨rfl, rfl, by decide, by decide⟩

end VpnHide.Diag

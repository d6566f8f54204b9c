import Mathlib.Logic.Relation
import VpnHide.Lib.Sessions
import VpnHide.Native.Journal

/-!
# The budget of loader experiments

`Journal.beginPreflight` and `Journal.completePreflight` keep the receipts of the loader
experiments, and `World.runPreflightWith` runs one: the receipt is written before the effect
runs, and again after it (`core-daemon/src/journal/preflight.rs`). Each write may fail before
or after the file is renamed, and the process may restart from what is on disk.

Two journals matter, the one in memory and the one on disk. `Ledgers` has their ledgers and
the effects that were dispatched, with a step for each thing that can happen to them
(`Ledgers.Step`); `World.step_simulates` says that the code does nothing else. The results are
proved of the steps: `preflight_budget` is about two moments of any history.
-/

namespace VpnHide.Native

open Lib Daemon

/-! ## The operations -/

/-- The ledger that a receipt is added to. A new boot has a new one. -/
def ledgerFor (plan : PreflightPlan) (sha256 : Str) :
    Option PreflightLedger → Except String PreflightLedger
  | none => .ok ⟨plan, []⟩
  | some ledger =>
    if ledger.uncertain then .error "unresolved preflight requires explicit reboot reconciliation"
    else if ledger.plan.bootId ≠ plan.bootId then .ok ⟨plan, []⟩
    else if ledger.plan ≠ plan then .error "preflight plan already frozen for this boot"
    else if ledger.attempts.any (fun a => a.sha256 = sha256 || a.state.blocked) then
      .error "preflight budget consumed or loader blocked"
    else .ok ledger

namespace Journal

/-- Something else that is held, or was done in this boot, is in the way. -/
def preflightBlocked (j : Journal) (boot : Str) : Bool :=
  j.heldResources.any (fun p => p = .persist || p = .native || p = .secret) ||
    j.zygiskExposedIn boot || j.nativeLoadBudget.any fun b =>
      b.bootId = boot && !b.attempted.isEmpty

/-- A ledger that is new has room, so that an error leaves the journal as it was. -/
def beginPreflight (j : Journal) (plan : PreflightPlan) (sha256 : Str) : Except String Journal := do
  if !plan.valid || !plan.hashes.contains sha256 then throw "invalid preflight payload identity"
  if j.preflightBlocked plan.bootId then
    throw "native ownership/effect uncertainty blocks preflight"
  let ledger ← ledgerFor plan sha256 j.kmodPreflights
  if plan.candidates.length ≤ ledger.attempts.length then throw "preflight budget exhausted"
  return { j with kmodPreflights := some { ledger with attempts := ledger.attempts ++
    [⟨sha256, .running⟩] } }

/-- A result that is not valid is rolled back. -/
def completePreflight (j : Journal) (sha256 : Str) (state : PreflightState) :
    Except String Journal :=
  if state = .running then .error "preflight completion is still running"
  else
    match j.kmodPreflights with
    | none => .error "no preflight intent"
    | some ledger =>
      match ledger.attempts.find? (·.sha256 = sha256) with
      | none => .error "unknown preflight payload"
      | some attempt =>
        if attempt.state ≠ .running then .error "preflight receipt is immutable"
        else
          let completed :=
            { ledger with attempts := PreflightLedger.setState sha256 state ledger.attempts }
          if !completed.valid then .error "invalid preflight result"
          else .ok { j with kmodPreflights := some completed }

end Journal

/-! ## The world -/

/-- How writing the journal ended. -/
inductive WriteResult
  | ok
  | failed (renamed : Bool) (error : String)
  deriving DecidableEq

/-- An effect that ran, with the ledger that was on disk then. -/
structure Dispatch where
  bootId : Str
  sha256 : Str
  disk : Option PreflightLedger

/-- The journal in memory and the one on disk, and the effects that ran. -/
structure World where
  mem : Journal
  file : Journal
  /-- The receipts that `mem` has finished are on disk. -/
  synced : Bool
  log : List Dispatch

/-- What may be done with the journal. -/
inductive Op
  | beginPreflight (plan : PreflightPlan) (sha256 : Str)
  | completePreflight (sha256 : Str) (state : PreflightState)
  /-- The writes end as `intent` and `completion` say, the effect with `state`. -/
  | runPreflightWith (plan : PreflightPlan) (sha256 : Str) (intent completion : WriteResult)
      (state : PreflightState)
  | fenceUnresolved
  | writeAtomic (result : WriteResult)
  /-- The journal is read from disk. -/
  | restart
  /-- Whatever else becomes of the journal in memory. -/
  | elsewhere (j : Journal)

namespace World

/-- The journal is written; a write may fail before or after it has landed. -/
def writeAtomic (w : World) (j : Journal) : WriteResult → World
  | .failed false _ => w
  | _ => { w with file := j, synced := true }

/-- `run_preflight_with`: a try is on record before it is made, and again after it. -/
def runPreflightWith (w : World) (plan : PreflightPlan) (sha256 : Str)
    (intent completion : WriteResult) (effect : PreflightState) :
    World × Except String PreflightState :=
  match w.mem.beginPreflight plan sha256 with
  | .error e => (w, .error e)
  | .ok running =>
    let w := w.writeAtomic running intent
    match intent with
    | .failed _ error =>
      ({ w with mem := running.fenceUnresolved },
        .error ("preflight intent storage uncertain; no syscall dispatched: " ++ error))
    | .ok =>
      let w := { w with mem := running, log := w.log ++
        [⟨plan.bootId, sha256, w.file.kmodPreflights⟩] }
      match running.completePreflight sha256 effect with
      | .error e => (w, .error e)
      | .ok completed =>
        let w := w.writeAtomic completed completion
        match completion with
        | .failed _ error =>
          ({ w with mem := running.fenceUnresolved },
            .error ("preflight completion storage uncertain: " ++ error))
        | .ok => ({ w with mem := completed }, .ok effect)

section Step

variable (encodes : Str → ℕ → Str → Bool) (others : Journal → Bool)

/-- An operation in a boot, for which plans are made. A receipt that was finished by
    `completePreflight` alone is lost where the process dies before the journal is written:
    a restart is one from a disk that has it. -/
def step (boot : Str) (w : World) : Op → World
  | .beginPreflight plan sha256 =>
    match w.mem.beginPreflight { plan with bootId := boot } sha256 with
    | .ok j => { w with mem := j }
    | .error _ => w
  | .completePreflight sha256 state =>
    match w.mem.completePreflight sha256 state with
    | .ok j => { w with mem := j, synced := false }
    | .error _ => w
  | .runPreflightWith plan sha256 intent completion state =>
    (w.runPreflightWith { plan with bootId := boot } sha256 intent completion state).1
  | .fenceUnresolved => { w with mem := w.mem.fenceUnresolved }
  | .writeAtomic result => w.writeAtomic w.mem result
  | .restart =>
    if w.synced then
      match w.file.read encodes others with
      | some j => { w with mem := j }
      | none => w
    else w
  | .elsewhere j => { w with mem := { j with kmodPreflights := w.mem.kmodPreflights } }

end Step

/-- A start without a ledger. -/
def start (mem file : Journal) : World :=
  ⟨{ mem with kmodPreflights := none }, { file with kmodPreflights := none }, true, []⟩

end World

/-! ## The ledgers -/

/-- A receipt is added, in state `running`. -/
inductive Begins (boot sha256 : Str) : Option PreflightLedger → PreflightLedger → Prop
  | install (o : Option PreflightLedger) (plan : PreflightPlan) (hplan : plan.valid)
      (hboot : plan.bootId = boot)
      (hsha : sha256 ∈ plan.hashes) (hother : ∀ l, o = some l →
        l.uncertain = false ∧ l.plan.bootId ≠ boot) :
      Begins boot sha256 o ⟨plan, [⟨sha256, .running⟩]⟩
  | push (l : PreflightLedger) (hboot : l.plan.bootId = boot) (hsha : sha256 ∈ l.plan.hashes)
      (hgoes : ∀ a ∈ l.attempts, (a.state.unresolved = false ∧ a.state.blocked = false) ∧
        a.sha256 ≠ sha256)
      (hroom : l.attempts.length < l.plan.candidates.length) :
      Begins boot sha256 (some l) { l with attempts := l.attempts ++ [⟨sha256, .running⟩] }

/-- A receipt in state `running` is completed, and the ledger stays valid. -/
inductive Completes : Option PreflightLedger → PreflightLedger → Prop
  | mk (l : PreflightLedger) (sha256 : Str) (state : PreflightState)
      (hrunning : ∀ a, l.attempts.find? (·.sha256 = sha256) = some a → a.state = .running)
      (hvalid : PreflightLedger.valid
        { l with attempts := PreflightLedger.setState sha256 state l.attempts }) :
      Completes (some l) { l with attempts := PreflightLedger.setState sha256 state l.attempts }

/-- The ledgers in memory and on disk. -/
structure Ledgers where
  mem : Option PreflightLedger
  file : Option PreflightLedger
  synced : Bool
  log : List Dispatch

namespace Ledgers

/-- What can happen in a boot. An effect runs only in `launch`, with its receipt on disk. -/
inductive Step (boot : Str) (s : Ledgers) : Ledgers → Prop
  | begin (sha256 : Str) (l : PreflightLedger) (h : Begins boot sha256 s.mem l) :
      Step boot s { s with mem := some l }
  | fence (l : PreflightLedger) (h : s.mem = some l) :
      Step boot s { s with mem := some l.fenceUnresolved }
  | complete (l : PreflightLedger) (h : Completes s.mem l) :
      Step boot s { s with mem := some l, synced := false }
  | save : Step boot s { s with file := s.mem, synced := true }
  | saveCompleted (l : PreflightLedger) (h : Completes s.mem l) :
      Step boot s { s with file := some l, synced := true }
  | load (h : s.synced) : Step boot s { s with mem := s.file }
  | launch (sha256 : Str) (l : PreflightLedger) (h : Begins boot sha256 s.mem l) :
      Step boot s ⟨some l, some l, true, s.log ++ [⟨boot, sha256, some l⟩]⟩

end Ledgers

/-- Where the ledger is, in memory and on disk, and what has been tried. -/
def World.ledgers (w : World) : Ledgers :=
  ⟨w.mem.kmodPreflights, w.file.kmodPreflights, w.synced, w.log⟩

/-! ### The code does nothing else -/

/-- The ledger that an intent starts from: the one of its own plan, or a new one. -/
theorem ledgerFor_eq_ok {plan : PreflightPlan} {sha256 : Str} {o : Option PreflightLedger}
    {l : PreflightLedger} (h : ledgerFor plan sha256 o = .ok l) :
    (l = ⟨plan, []⟩ ∧ ∀ l', o = some l' → l'.uncertain = false ∧ l'.plan.bootId ≠ plan.bootId) ∨
      o = some l ∧ l.plan = plan ∧
        ∀ a ∈ l.attempts, (a.state.unresolved = false ∧ a.state.blocked = false) ∧
        a.sha256 ≠ sha256 := by
  cases o with
  | none =>
    cases h
    exact .inl ⟨rfl, fun l' hl' => by cases hl'⟩
  | some ledger =>
    rw [ledgerFor] at h
    split_ifs at h with huncertain hboot hplan hspent
    · cases h
      refine .inl ⟨rfl, fun l' hl' => ?_⟩
      cases hl'
      exact ⟨by simpa using huncertain, hboot⟩
    · cases h
      refine .inr ⟨rfl, not_not.1 hplan, fun a ha => ?_⟩
      have hresolved : a.state.unresolved = false := by
        simp only [PreflightLedger.uncertain, List.any_eq_true, not_exists, not_and,
          Bool.not_eq_true] at huncertain
        exact huncertain a ha
      simp only [List.any_eq_true, Bool.or_eq_true, decide_eq_true_eq, not_exists, not_and, not_or,
        Bool.not_eq_true] at hspent
      exact ⟨⟨hresolved, (hspent a ha).2⟩, (hspent a ha).1⟩

namespace Journal

variable {j j' : Journal} {plan : PreflightPlan} {sha256 : Str} {state : PreflightState}

/-- An intent that is accepted writes exactly one new ledger. -/
theorem beginPreflight_eq_ok (h : j.beginPreflight plan sha256 = .ok j') :
    ∃ l, Begins plan.bootId sha256 j.kmodPreflights l ∧
      j' = { j with kmodPreflights := some l } := by
  simp only [beginPreflight] at h
  split at h
  · cases h
  next hidentity =>
  simp only [Bool.or_eq_true, Bool.not_eq_true', not_or, Bool.not_eq_false, List.contains_eq_mem,
    decide_eq_true_eq] at hidentity
  obtain ⟨hplan, hsha⟩ := hidentity
  split at h
  · cases h
  cases hledger : ledgerFor plan sha256 j.kmodPreflights with
  | error e => rw [hledger] at h; cases h
  | ok ledger =>
    rw [hledger] at h
    simp only [bind, Except.bind, pure, Except.pure] at h
    split_ifs at h with hroom
    cases h
    refine ⟨_, ?_, rfl⟩
    obtain ⟨rfl, hother⟩ | ⟨hsome, rfl, hgoes⟩ := ledgerFor_eq_ok hledger
    · exact .install _ plan hplan rfl hsha hother
    · rw [hsome]
      exact .push ledger rfl hsha hgoes (Nat.lt_of_not_le hroom)

/-- A completion that is accepted settles the attempt it belongs to. -/
theorem completePreflight_eq_ok (h : j.completePreflight sha256 state = .ok j') :
    ∃ l, Completes j.kmodPreflights l ∧ j' = { j with kmodPreflights := some l } := by
  rw [completePreflight] at h
  split_ifs at h
  cases hledger : j.kmodPreflights with
  | none => rw [hledger] at h; cases h
  | some ledger =>
    simp only [hledger] at h
    cases hfind : ledger.attempts.find? (·.sha256 = sha256) with
    | none => rw [hfind] at h; cases h
    | some attempt =>
      simp only [hfind] at h
      split_ifs at h with hrunning hvalid
      cases h
      refine ⟨_, .mk ledger sha256 state (fun a ha => ?_) (by simpa using hvalid), rfl⟩
      rw [hfind] at ha
      cases ha
      exact not_not.1 hrunning

/-- Reading the journal back leaves the preflight ledger as it is. -/
theorem read_kmodPreflights {encodes : Str → ℕ → Str → Bool} {others : Journal → Bool}
    (h : j.read encodes others = some j') : j'.kmodPreflights = j.kmodPreflights := by
  rw [read] at h
  split_ifs at h
  cases h
  rfl

end Journal

namespace World

variable {encodes : Str → ℕ → Str → Bool} {others : Journal → Bool}

open Relation (ReflTransGen)

/-- Fencing what was read is at most one step of the two ledgers. -/
theorem fence_simulates (boot : Str) (s : Ledgers) :
    ReflTransGen (Ledgers.Step boot) s { s with mem := s.mem.map (·.fenceUnresolved) } := by
  obtain ⟨mem, file, synced, log⟩ := s
  cases mem with
  | none => exact .refl
  | some l => exact .single (.fence l rfl)

/-- A preflight as the code runs it, whatever its two writes do, is a run of the two ledgers. -/
theorem run_simulates (w : World) (plan : PreflightPlan) (sha256 : Str)
    (intent completion : WriteResult) (state : PreflightState) :
    ReflTransGen (Ledgers.Step plan.bootId) w.ledgers
      (w.runPreflightWith plan sha256 intent completion state).1.ledgers := by
  rw [runPreflightWith]
  cases hbegin : w.mem.beginPreflight plan sha256 with
  | error => exact .refl
  | ok running =>
    obtain ⟨l, hl, rfl⟩ := Journal.beginPreflight_eq_ok hbegin
    cases intent with
    | failed renamed error =>
      -- The receipt may be on disk; in memory it is fenced, and no effect runs.
      refine .trans (.single (.begin sha256 l hl)) ?_
      cases renamed with
      | false => exact fence_simulates plan.bootId _
      | true => exact .head .save (fence_simulates plan.bootId _)
    | ok =>
      refine .trans (.single (.launch sha256 l hl)) ?_
      cases hcomplete :
          Journal.completePreflight { w.mem with kmodPreflights := some l } sha256 state with
      | error =>
        simp only [hcomplete]
        exact .refl
      | ok completed =>
        obtain ⟨l', hl', rfl⟩ := Journal.completePreflight_eq_ok hcomplete
        simp only [hcomplete]
        cases completion with
        | ok => exact .head (.saveCompleted l' hl') (.single (.load rfl))
        | failed renamed error =>
          cases renamed with
          | false => exact fence_simulates plan.bootId _
          | true => exact .head (.saveCompleted l' hl') (fence_simulates plan.bootId _)

/-- What an operation does to the ledgers is made of their steps. -/
theorem step_simulates (boot : Str) (w : World) (op : Op) :
    ReflTransGen (Ledgers.Step boot) w.ledgers (w.step encodes others boot op).ledgers := by
  -- By the operation; one that is refused leaves the ledgers as they are.
  cases op with
  | beginPreflight plan sha256 =>
    simp only [step]
    cases hbegin : w.mem.beginPreflight { plan with bootId := boot } sha256 with
    | error => exact .refl
    | ok j =>
      obtain ⟨l, hl, rfl⟩ := Journal.beginPreflight_eq_ok hbegin
      exact .single (.begin sha256 l hl)
  | completePreflight sha256 state =>
    simp only [step]
    cases hcomplete : w.mem.completePreflight sha256 state with
    | error => exact .refl
    | ok j =>
      obtain ⟨l, hl, rfl⟩ := Journal.completePreflight_eq_ok hcomplete
      exact .single (.complete l hl)
  | runPreflightWith plan sha256 intent completion state =>
    exact run_simulates w { plan with bootId := boot } sha256 intent completion state
  | fenceUnresolved => exact fence_simulates boot w.ledgers
  | writeAtomic result =>
    cases result with
    | ok => exact .single .save
    | failed renamed error =>
      cases renamed with
      | false => exact .refl
      | true => exact .single .save
  | restart =>
    simp only [step]
    split_ifs with hsynced
    · cases hread : w.file.read encodes others with
      | none => exact .refl
      | some j =>
        have hload :
            ({ w with mem := j } : World).ledgers = { w.ledgers with mem := w.ledgers.file } := by
          simp only [ledgers, Journal.read_kmodPreflights hread]
        simp only [hload]
        exact .single (.load hsynced)
    · exact .refl
  | elsewhere j => exact .refl

end World

/-! ## What the steps keep -/

namespace Ledgers

/-- There is a receipt for the payload in the ledger of the boot. -/
def AttemptedIn (boot sha256 : Str) (o : Option PreflightLedger) : Prop :=
  ∃ l, o = some l ∧ l.plan.bootId = boot ∧ l.Attempted sha256

/-- The ledger is that of the boot, and has the receipt, which is finished. -/
def FinishedIn (boot sha256 : Str) (c : PreflightCompletion) (o : Option PreflightLedger) : Prop :=
  ∃ l, o = some l ∧ l.plan.bootId = boot ∧ ⟨sha256, .finished c⟩ ∈ l.attempts

/-- As long as the ledger is that of the boot, it has the receipt. -/
def KeptIn (boot sha256 : Str) (c : PreflightCompletion) (o : Option PreflightLedger) : Prop :=
  ∀ l, o = some l → l.plan.bootId = boot → ⟨sha256, .finished c⟩ ∈ l.attempts

/-- The ledger is valid, if there is one. -/
def ValidIn (o : Option PreflightLedger) : Prop := ∀ l, o = some l → l.valid

/-- What is finished is kept. -/
theorem FinishedIn.kept {boot sha256 : Str} {c : PreflightCompletion} {o : Option PreflightLedger}
    (h : FinishedIn boot sha256 c o) : KeptIn boot sha256 c o := by
  obtain ⟨l, rfl, -, hmem⟩ := h
  intro l' hl' _
  cases hl'
  exact hmem

/-- A property that whatever is done to a ledger in the boot keeps. -/
structure Closed (boot : Str) (R : Option PreflightLedger → Prop) : Prop where
  begin {o : Option PreflightLedger} {sha256 : Str} {l : PreflightLedger} : Begins boot sha256 o l →
    R o → R (some l)
  fence {l : PreflightLedger} : R (some l) → R (some l.fenceUnresolved)
  complete {o : Option PreflightLedger} {l : PreflightLedger} : Completes o l → R o → R (some l)

variable {boot : Str} {s s' : Ledgers} {R : Option PreflightLedger → Prop}

/-- What every change of a ledger keeps, a step keeps of both copies. -/
theorem Closed.both (hR : Closed boot R) (h : Step boot s s') (hs : R s.mem ∧ R s.file) :
    R s'.mem ∧ R s'.file := by
  obtain ⟨hmem, hfile⟩ := hs
  cases h with
  | begin sha256 l h => exact ⟨hR.begin h hmem, hfile⟩
  | fence l h => exact ⟨hR.fence (h ▸ hmem), hfile⟩
  | complete l h => exact ⟨hR.complete h hmem, hfile⟩
  | save => exact ⟨hmem, hmem⟩
  | saveCompleted l h => exact ⟨hmem, hR.complete h hmem⟩
  | load => exact ⟨hfile, hfile⟩
  | launch sha256 l h => exact ⟨hR.begin h hmem, hR.begin h hmem⟩

/-- Where the property came to hold in memory alone, it is on disk before a restart. -/
theorem Closed.synced (hR : Closed boot R) (h : Step boot s s')
    (hs : R s.mem ∧ (s.synced → R s.file)) :
    R s'.mem ∧ (s'.synced → R s'.file) := by
  obtain ⟨hmem, hfile⟩ := hs
  cases h with
  | begin sha256 l h => exact ⟨hR.begin h hmem, hfile⟩
  | fence l h => exact ⟨hR.fence (h ▸ hmem), hfile⟩
  | complete l h => exact ⟨hR.complete h hmem, fun hfalse => by cases hfalse⟩
  | save => exact ⟨hmem, fun _ => hmem⟩
  | saveCompleted l h => exact ⟨hmem, fun _ => hR.complete h hmem⟩
  | load hsynced => exact ⟨hfile hsynced, fun _ => hfile hsynced⟩
  | launch sha256 l h => exact ⟨hR.begin h hmem, fun _ => hR.begin h hmem⟩

/-- A valid ledger stays valid. -/
theorem closed_valid : Closed boot ValidIn where
  begin h ho := by
    intro l' hl'
    cases hl'
    cases h with
    | install o plan hplan hboot hsha hother =>
      refine PreflightLedger.valid_iff.2 ⟨hplan, ?_, ?_⟩
      · exact List.length_pos_iff.2 (PreflightPlan.candidates_ne_nil hplan)
      · exact PreflightLedger.validAttempts_cons.2 ⟨hsha, List.not_mem_nil, rfl, rfl⟩
    | push l hboot hsha hgoes hroom =>
      obtain ⟨hplan, -, hattempts⟩ := PreflightLedger.valid_iff.1 (ho l rfl)
      refine PreflightLedger.valid_iff.2 ⟨hplan, ?_, ?_⟩
      · rw [List.length_append, List.length_singleton]
        exact hroom
      · exact PreflightLedger.validAttempts_concat hattempts (fun a ha => (hgoes a ha).1) hsha
          List.not_mem_nil (fun a ha => (hgoes a ha).2) rfl
  fence hl := by
    intro l' hl'
    cases hl'
    exact PreflightLedger.valid_fenceUnresolved (hl _ rfl)
  complete h _ := by
    intro l' hl'
    cases hl'
    cases h with
    | mk l sha256 state hrunning hvalid => exact hvalid

/-- A ledger names the plan of this boot or of one before. -/
theorem closed_boots (past : List Str) :
    Closed boot fun o => ∀ l, o = some l → l.plan.bootId = boot ∨ l.plan.bootId ∈ past where
  begin h ho := by
    intro l' hl'
    cases hl'
    cases h with
    | install o plan hplan hboot hsha hother => exact .inl hboot
    | push l hboot hsha hgoes hroom => exact .inl hboot
  fence {l} hl := by
    intro l' hl'
    cases hl'
    exact hl l rfl
  complete h ho := by
    intro l' hl'
    cases hl'
    cases h with
    | mk l sha256 state hrunning hvalid => exact ho l rfl

/-- An attempt that was made stays recorded. -/
theorem closed_attempted (sha256 : Str) : Closed boot (AttemptedIn boot sha256) where
  begin h ho := by
    obtain ⟨l, rfl, hboot, a, ha, hsha⟩ := ho
    cases h with
    | install o plan hplan hboot' hsha' hother => exact absurd hboot (hother l rfl).2
    | push l hboot' hsha' hgoes hroom => exact ⟨_, rfl, hboot, a, List.mem_append_left _ ha, hsha⟩
  fence hl := by
    obtain ⟨l, hl, hboot, a, ha, hsha⟩ := hl
    cases hl
    exact ⟨_, rfl, hboot, _, List.mem_map_of_mem ha, hsha⟩
  complete h ho := by
    obtain ⟨l, rfl, hboot, a, ha, hsha⟩ := ho
    cases h with
    | mk l sha256' state hrunning hvalid =>
      have hmem : sha256 ∈ (PreflightLedger.setState sha256' state l.attempts).map (·.sha256) := by
        rw [PreflightLedger.map_sha256_setState]
        exact List.mem_map.2 ⟨a, ha, hsha⟩
      obtain ⟨b, hb, hsha'⟩ := List.mem_map.1 hmem
      exact ⟨_, rfl, hboot, b, hb, hsha'⟩

section Finished

variable {l l' : PreflightLedger} {sha256 : Str} {c : PreflightCompletion}

/-- Fencing leaves a finished attempt as it is. -/
theorem mem_fence (h : (⟨sha256, .finished c⟩ : PreflightAttempt) ∈ l.attempts) :
    ⟨sha256, .finished c⟩ ∈ l.fenceUnresolved.attempts :=
  List.mem_map.2 ⟨_, h, rfl⟩

/-- A receipt that is completed was running, so those that are finished stay. -/
theorem mem_complete (h : Completes (some l) l')
    (hmem : (⟨sha256, .finished c⟩ : PreflightAttempt) ∈ l.attempts) :
    ⟨sha256, .finished c⟩ ∈ l'.attempts := by
  cases h with
  | mk l sha256' state hrunning hvalid =>
    refine PreflightLedger.mem_setState (fun a ha heq => ?_) hmem
    have hstate : a.state = .running := hrunning a ha
    rw [heq] at hstate
    cases hstate

/-- A completion keeps the plan. -/
theorem plan_complete (h : Completes (some l) l') : l'.plan = l.plan := by
  cases h with
  | mk l sha256' state hrunning hvalid => rfl

/-- A finished attempt stays finished with the same outcome. -/
theorem closed_finished : Closed boot (FinishedIn boot sha256 c) where
  begin h ho := by
    obtain ⟨l, rfl, hboot, hmem⟩ := ho
    cases h with
    | install o plan hplan hboot' hsha' hother => exact absurd hboot (hother l rfl).2
    | push l hboot' hsha' hgoes hroom => exact ⟨_, rfl, hboot, List.mem_append_left _ hmem⟩
  fence hl := by
    obtain ⟨l, hl, hboot, hmem⟩ := hl
    cases hl
    exact ⟨_, rfl, hboot, mem_fence hmem⟩
  complete h ho := by
    obtain ⟨l, rfl, hboot, hmem⟩ := ho
    exact ⟨_, rfl, by rw [plan_complete h, hboot], mem_complete h hmem⟩

/-- In another boot the ledger may be replaced, but by one of that boot. -/
theorem closed_kept {boot' : Str} (hne : boot ≠ boot') : Closed boot (KeptIn boot' sha256 c) where
  begin h ho := by
    intro l' hl' hboot'
    cases hl'
    cases h with
    | install o plan hplan hboot hsha hother => exact absurd (hboot.symm.trans hboot') hne
    | push l hboot hsha hgoes hroom => exact absurd (hboot.symm.trans hboot') hne
  fence {l} hl := by
    intro l' hl' hboot'
    cases hl'
    exact mem_fence (hl l rfl hboot')
  complete {o l} h ho := by
    intro l' hl' hboot'
    cases hl'
    cases o with
    | none => cases h
    | some l₀ => exact mem_complete h (ho l₀ rfl (by rw [← plan_complete h, hboot']))

/-- Fencing and adding a receipt finish none. -/
theorem finishedIn_of_fence {boot' : Str} (h : FinishedIn boot' sha256 c (some l.fenceUnresolved)) :
    FinishedIn boot' sha256 c (some l) := by
  obtain ⟨_, hl, hboot, hmem⟩ := h
  cases hl
  obtain ⟨a, ha, heq⟩ := List.mem_map.1 hmem
  obtain ⟨sha, state⟩ := a
  cases state with
  | running => cases heq
  | finished c' =>
    cases heq
    exact ⟨l, rfl, hboot, ha⟩
  | unknown => cases heq

/-- What is finished after an intent was finished before it. -/
theorem finishedIn_of_begins {boot' sha256' : Str} {o : Option PreflightLedger}
    (hbegin : Begins boot sha256' o l) (h : FinishedIn boot' sha256 c (some l)) :
    FinishedIn boot' sha256 c o := by
  obtain ⟨_, hl, hboot, hmem⟩ := h
  cases hl
  cases hbegin with
  | install o plan hplan hboot' hsha hother => cases List.mem_singleton.1 hmem
  | push l hboot' hsha hgoes hroom =>
    obtain hmem | hmem := List.mem_append.1 hmem
    · exact ⟨l, rfl, hboot, hmem⟩
    · cases List.mem_singleton.1 hmem

end Finished

/-! ### The invariant -/

/-- `past` are the boots that are gone, `current` is the one that runs, if any. -/
structure Good (past : List Str) (current : Option Str) (s : Ledgers) : Prop where
  valid : ValidIn s.mem ∧ ValidIn s.file
  boots_mem : ∀ l, s.mem = some l → some l.plan.bootId = current ∨ l.plan.bootId ∈ past
  boots_file : ∀ l, s.file = some l → some l.plan.bootId = current ∨ l.plan.bootId ∈ past
  shown : s.synced → ∀ boot sha256 c, FinishedIn boot sha256 c s.mem →
    FinishedIn boot sha256 c s.file
  known : ∀ d ∈ s.log, d.bootId ∈ past ∨ some d.bootId = current ∧
    AttemptedIn d.bootId d.sha256 s.mem ∧ AttemptedIn d.bootId d.sha256 s.file
  once : (s.log.map fun d => (d.bootId, d.sha256)).Nodup
  durable : ∀ d ∈ s.log, ∃ l, d.disk = some l ∧ l.plan.bootId = d.bootId ∧
    ⟨d.sha256, .running⟩ ∈ l.attempts

/-- An intent leaves its payload recorded as running. -/
theorem attemptedIn_of_begins {sha256 : Str} {o : Option PreflightLedger} {l : PreflightLedger}
    (h : Begins boot sha256 o l) : l.plan.bootId = boot ∧ ⟨sha256, .running⟩ ∈ l.attempts := by
  cases h with
  | install o plan hplan hboot hsha hother => exact ⟨hboot, List.mem_cons_self⟩
  | push l hboot hsha hgoes hroom => exact ⟨hboot, List.mem_append_right _ List.mem_cons_self⟩

/-- A payload that has a receipt in this boot is not begun again. -/
theorem not_attemptedIn_of_begins {sha256 : Str} {o : Option PreflightLedger} {l : PreflightLedger}
    (h : Begins boot sha256 o l) : ¬AttemptedIn boot sha256 o := by
  rintro ⟨l', rfl, hboot, a, ha, hsha⟩
  cases h with
  | install o plan hplan hboot' hsha' hother => exact (hother l' rfl).2 hboot
  | push l hboot' hsha' hgoes hroom => exact (hgoes a ha).2 hsha

/-- A step dispatches at most once, and then memory and file hold the intent. -/
theorem log_step (h : Step boot s s') :
    s'.log = s.log ∨ ∃ sha256 l, Begins boot sha256 s.mem l ∧ s'.mem = some l ∧ s'.file = some l ∧
      s'.log = s.log ++ [⟨boot, sha256, some l⟩] := by
  cases h with
  | launch sha256 l h => exact .inr ⟨sha256, l, h, rfl, rfl, rfl⟩
  | begin => exact .inl rfl
  | fence => exact .inl rfl
  | complete => exact .inl rfl
  | save => exact .inl rfl
  | saveCompleted => exact .inl rfl
  | load => exact .inl rfl

namespace Good

variable {past : List Str}

/-- What is shown while memory and file agree is finished in the file. -/
theorem shown_step (hs : Good past (some boot) s) (h : Step boot s s') (hsynced : s'.synced)
    (boot' sha256 : Str) (c : PreflightCompletion) (hmem : FinishedIn boot' sha256 c s'.mem) :
    FinishedIn boot' sha256 c s'.file := by
  cases h with
  | begin sha256' l h => exact hs.shown hsynced boot' sha256 c (finishedIn_of_begins h hmem)
  | fence l h => exact hs.shown hsynced boot' sha256 c (h ▸ finishedIn_of_fence hmem)
  | complete => cases hsynced
  | save => exact hmem
  | saveCompleted l h =>
    obtain ⟨l₀, heq, hboot, hmem⟩ := hmem
    rw [heq] at h
    exact ⟨l, rfl, by rw [plan_complete h, hboot], mem_complete h hmem⟩
  | load => exact hmem
  | launch => exact hmem

/-- Every dispatch is of a boot before, or of this one and on record in both copies. -/
theorem known_step (hs : Good past (some boot) s) (h : Step boot s s')
    (d : Dispatch) (hd : d ∈ s'.log) :
    d.bootId ∈ past ∨ some d.bootId = some boot ∧
      AttemptedIn d.bootId d.sha256 s'.mem ∧ AttemptedIn d.bootId d.sha256 s'.file := by
  have hold (hd : d ∈ s.log) : d.bootId ∈ past ∨ some d.bootId = some boot ∧
      AttemptedIn d.bootId d.sha256 s'.mem ∧ AttemptedIn d.bootId d.sha256 s'.file := by
    obtain hpast | ⟨hboot, hboth⟩ := hs.known d hd
    · exact .inl hpast
    · cases hboot
      exact .inr ⟨rfl, (closed_attempted d.sha256).both h hboth⟩
  obtain hlog | ⟨sha256, l, hbegin, hmem, hfile, hlog⟩ := log_step h
  · exact hold (hlog ▸ hd)
  · rw [hlog, List.mem_append, List.mem_singleton] at hd
    obtain hd | rfl := hd
    · exact hold hd
    · obtain ⟨hboot, ha⟩ := attemptedIn_of_begins hbegin
      exact .inr ⟨rfl, ⟨l, hmem, hboot, _, ha, rfl⟩, l, hfile, hboot, _, ha, rfl⟩

/-- No payload is dispatched twice in one boot. -/
theorem once_step (hboot : boot ∉ past) (hs : Good past (some boot) s) (h : Step boot s s') :
    (s'.log.map fun d => (d.bootId, d.sha256)).Nodup := by
  obtain hlog | ⟨sha256, l, hbegin, -, -, hlog⟩ := log_step h
  · rw [hlog]
    exact hs.once
  · rw [hlog, List.map_append, List.map_singleton, List.nodup_append]
    refine ⟨hs.once, List.nodup_singleton _, ?_⟩
    rintro _ hmem _ hnew rfl
    rw [List.mem_singleton] at hnew
    obtain ⟨d, hd, heq⟩ := List.mem_map.1 hmem
    rw [hnew, Prod.mk.injEq] at heq
    obtain ⟨rfl, rfl⟩ := heq
    obtain hpast | ⟨-, hmem, -⟩ := hs.known d hd
    · exact hboot hpast
    · exact not_attemptedIn_of_begins hbegin hmem

/-- Every dispatch had its intent on disk. -/
theorem durable_step (hs : Good past (some boot) s) (h : Step boot s s')
    (d : Dispatch) (hd : d ∈ s'.log) :
    ∃ l, d.disk = some l ∧ l.plan.bootId = d.bootId ∧ ⟨d.sha256, .running⟩ ∈ l.attempts := by
  obtain hlog | ⟨sha256, l, hbegin, -, -, hlog⟩ := log_step h
  · exact hs.durable d (hlog ▸ hd)
  · rw [hlog, List.mem_append, List.mem_singleton] at hd
    obtain hd | rfl := hd
    · exact hs.durable d hd
    · exact ⟨l, rfl, attemptedIn_of_begins hbegin⟩

/-- A step keeps all of it. -/
theorem step (hboot : boot ∉ past) (hs : Good past (some boot) s) (h : Step boot s s') :
    Good past (some boot) s' := by
  have hboots := (closed_boots past).both h
    ⟨fun l hl => (hs.boots_mem l hl).imp_left Option.some.inj, fun l hl =>
      (hs.boots_file l hl).imp_left Option.some.inj⟩
  exact {
    valid := closed_valid.both h hs.valid
    boots_mem := fun l hl => (hboots.1 l hl).imp_left (congrArg some)
    boots_file := fun l hl => (hboots.2 l hl).imp_left (congrArg some)
    shown := hs.shown_step h
    known := hs.known_step h
    once := once_step hboot hs h
    durable := hs.durable_step h }

/-- A boot begins. -/
theorem enter (hs : Good past none s) (boot : Str) : Good past (some boot) s where
  valid := hs.valid
  boots_mem l hl := .inr ((hs.boots_mem l hl).resolve_left (by simp))
  boots_file l hl := .inr ((hs.boots_file l hl).resolve_left (by simp))
  shown := hs.shown
  known d hd := .inl ((hs.known d hd).resolve_right (by simp))
  once := hs.once
  durable := hs.durable

/-- A boot is left. -/
theorem leave (hs : Good past (some boot) s) : Good (boot :: past) none s where
  valid := hs.valid
  boots_mem l hl := by
    obtain hboot | hpast := hs.boots_mem l hl
    · exact .inr (Option.some.inj hboot ▸ List.mem_cons_self)
    · exact .inr (List.mem_cons_of_mem _ hpast)
  boots_file l hl := by
    obtain hboot | hpast := hs.boots_file l hl
    · exact .inr (Option.some.inj hboot ▸ List.mem_cons_self)
    · exact .inr (List.mem_cons_of_mem _ hpast)
  shown := hs.shown
  known d hd := by
    obtain hpast | ⟨hboot, -⟩ := hs.known d hd
    · exact .inl (List.mem_cons_of_mem _ hpast)
    · exact .inl (Option.some.inj hboot ▸ List.mem_cons_self)
  once := hs.once
  durable := hs.durable

end Good

end Ledgers

/-! ## Histories -/

namespace Ledgers

variable {boot boot' sha256 : Str} {c : PreflightCompletion} {s s' : Ledgers}

/-- In its boot a finished receipt is there, later it is as long as its ledger is. -/
def HeldIn (boot' sha256 : Str) (c : PreflightCompletion) (boot : Str)
    (o : Option PreflightLedger) : Prop :=
  if boot = boot' then FinishedIn boot' sha256 c o else KeptIn boot' sha256 c o

/-- Every change of a ledger keeps what is held. -/
theorem closed_held : Closed boot (HeldIn boot' sha256 c boot) := by
  by_cases hboot : boot = boot'
  · have heq : HeldIn boot' sha256 c boot = FinishedIn boot' sha256 c :=
      funext fun o => if_pos hboot
    rw [heq, ← hboot]
    exact closed_finished
  · have heq : HeldIn boot' sha256 c boot = KeptIn boot' sha256 c := funext fun o => if_neg hboot
    rw [heq]
    exact closed_kept hboot

/-- What is held is kept. -/
theorem kept_of_held {o : Option PreflightLedger} (h : HeldIn boot' sha256 c boot o) :
    KeptIn boot' sha256 c o := by
  rw [HeldIn] at h
  split_ifs at h
  · exact h.kept
  · exact h

/-- Once the loader blocks, nothing is begun in that boot. -/
theorem not_begins_of_blocked {sha256' : Str} {errno : ℤ} {o : Option PreflightLedger}
    {l : PreflightLedger} (h : FinishedIn boot sha256 (.loaderBlocked errno) o) :
    ¬Begins boot sha256' o l := by
  obtain ⟨l', rfl, hboot, hmem⟩ := h
  intro hbegin
  cases hbegin with
  | install o plan hplan hboot' hsha' hother => exact (hother l' rfl).2 hboot
  | push l hboot' hsha' hgoes hroom => cases (hgoes _ hmem).1.2

/-- A receipt stays, and if it says that the loader blocks, no effect runs in its boot any
    more; `log` is what ran before. -/
structure Lasting (boot' sha256 : Str) (c : PreflightCompletion) (log : List Dispatch)
    (boot : Str) (s : Ledgers) :
    Prop where
  held : HeldIn boot' sha256 c boot s.mem ∧ (s.synced → HeldIn boot' sha256 c boot s.file)
  quiet : ∃ more, s.log = log ++ more ∧ ∀ errno, c = .loaderBlocked errno →
    ∀ d ∈ more, d.bootId ≠ boot'

/-- A step keeps what lasts. -/
theorem Lasting.step {log : List Dispatch} (hs : Lasting boot' sha256 c log boot s)
    (h : Step boot s s') :
    Lasting boot' sha256 c log boot s' := by
  refine ⟨closed_held.synced h hs.held, ?_⟩
  obtain ⟨more, hmore, hquiet⟩ := hs.quiet
  obtain hlog | ⟨sha, l, hbegin, -, -, hlog⟩ := log_step h
  · exact ⟨more, by rw [hlog, hmore], hquiet⟩
  · refine ⟨more ++ [⟨boot, sha, some l⟩], by rw [hlog, hmore, List.append_assoc], ?_⟩
    rintro errno rfl d hd
    obtain hd | hd := List.mem_append.1 hd
    · exact hquiet errno rfl d hd
    · rw [List.mem_singleton.1 hd]
      rintro rfl
      have hheld := hs.held.1
      rw [HeldIn, if_pos rfl] at hheld
      exact not_begins_of_blocked hheld hbegin

/-- What lasts in one boot lasts in every other boot that follows. -/
theorem Lasting.other {log : List Dispatch} (hs : Lasting boot' sha256 c log boot s) {boot'' : Str}
    (hne : boot'' ≠ boot') : Lasting boot' sha256 c log boot'' s where
  held := by
    simp only [HeldIn, if_neg hne]
    exact ⟨kept_of_held hs.held.1, fun hsynced => kept_of_held (hs.held.2 hsynced)⟩
  quiet := hs.quiet

end Ledgers

namespace World

variable {encodes : Str → ℕ → Str → Bool} {others : Journal → Bool}

/-- What the steps of the ledgers keep, the operations keep. -/
theorem step_keeps {R : Ledgers → Prop} {boot : Str}
    (hR : ∀ s s', Ledgers.Step boot s s' → R s → R s') (w : World) (op : Op) (hw : R w.ledgers) :
    R (w.step encodes others boot op).ledgers := by
  have hsteps :
      Relation.ReflTransGen (Ledgers.Step boot) w.ledgers (w.step encodes others boot op).ledgers :=
    step_simulates boot w op
  generalize (w.step encodes others boot op).ledgers = s' at hsteps ⊢
  induction hsteps with
  | refl => exact hw
  | tail _ hstep ih => exact hR _ _ hstep ih

/-- A history is good after its first moment. -/
theorem good_first (mem file : Journal) (m : Moments Str Op) :
    Ledgers.Good m.past (some m.boot) (m.first (step encodes others) (start mem file)).ledgers := by
  have hstart : Ledgers.Good [] none (start mem file).ledgers := {
    valid := ⟨fun l hl => (by cases hl), fun l hl => (by cases hl)⟩
    boots_mem := fun l hl => by cases hl
    boots_file := fun l hl => by cases hl
    shown := fun _ _ _ _ ⟨l, hl, _⟩ => by cases hl
    known := fun d hd => absurd hd List.not_mem_nil
    once := List.nodup_nil
    durable := fun d hd => absurd hd List.not_mem_nil }
  have hstep (past : List Str) (boot : Str) (w : World) (op : Op)
      (hw : boot ∉ past ∧ Ledgers.Good past (some boot) w.ledgers) :
      boot ∉ past ∧ Ledgers.Good past (some boot) (w.step encodes others boot op).ledgers :=
    ⟨hw.1, step_keeps (fun s s' h hs => hs.step hw.1 h) w op hw.2⟩
  have hfirst := m.first_induct
    (P := fun past (w : World) => Ledgers.Good past none w.ledgers)
    (Q := fun past boot (w : World) => boot ∉ past ∧ Ledgers.Good past (some boot) w.ledgers)
    (fun past boot w hboot hw => ⟨hboot, hw.enter boot⟩) hstep
    (fun past boot w hw => hw.2.leave) hstart
  exact hfirst.2

/-- A receipt that is finished at the first moment lasts to the second. -/
theorem lasting_second (mem file : Journal) (m : Moments Str Op) {boot sha256 : Str}
    {c : PreflightCompletion}
    (h : Ledgers.FinishedIn boot sha256 c
      (m.first (step encodes others) (start mem file)).mem.kmodPreflights) :
    ∃ b, Ledgers.Lasting boot sha256 c (m.first (step encodes others) (start mem file)).log b
      (m.second (step encodes others) (start mem file)).ledgers := by
  have hgood :
      Ledgers.Good m.past (some m.boot) (m.first (step encodes others) (start mem file)).ledgers :=
    good_first mem file m
  set w := m.first (step encodes others) (start mem file) with hw
  have hboot : boot = m.boot ∨ boot ∈ m.past := by
    obtain ⟨l, hl, rfl, -⟩ := h
    exact (hgood.boots_mem l hl).imp_left Option.some.inj
  have hlasting : Ledgers.Lasting boot sha256 c w.log m.boot w.ledgers := by
    refine ⟨?_, [], (List.append_nil _).symm, fun _ _ d hd => absurd hd List.not_mem_nil⟩
    rw [Ledgers.HeldIn, Ledgers.HeldIn]
    split_ifs
    · exact ⟨h, fun hsynced => hgood.shown hsynced _ _ _ h⟩
    · exact ⟨h.kept, fun hsynced => (hgood.shown hsynced _ _ _ h).kept⟩
  have hstep (past : List Str) (b : Str) (v : World) (op : Op)
      (hv : (boot = b ∨ boot ∈ past) ∧ Ledgers.Lasting boot sha256 c w.log b v.ledgers) :
      (boot = b ∨ boot ∈ past) ∧
        Ledgers.Lasting boot sha256 c w.log b (v.step encodes others b op).ledgers :=
    ⟨hv.1, step_keeps (fun s s' h hs => hs.step h) v op hv.2⟩
  have hsecond := m.second_induct (s := start mem file)
    (P := fun past v => boot ∈ past ∧ ∃ b, Ledgers.Lasting boot sha256 c w.log b v.ledgers)
    (Q := fun past b v => (boot = b ∨ boot ∈ past) ∧
      Ledgers.Lasting boot sha256 c w.log b v.ledgers)
    (fun past b v hb hv => by
      obtain ⟨hpast, b', hv⟩ := hv
      exact ⟨.inr hpast, hv.other fun heq => hb (heq ▸ hpast)⟩)
    hstep
    (fun past b v hv => by
      obtain ⟨rfl | hpast, hv⟩ := hv
      · exact ⟨List.mem_cons_self, boot, hv⟩
      · exact ⟨List.mem_cons_of_mem _ hpast, b, hv⟩)
    ⟨hboot, hlasting⟩
  exact hsecond.2

/-- No effect runs while one is unresolved, in whatever boot. -/
theorem log_step_of_uncertain (w : World) (h : w.mem.preflightUncertain) (boot : Str) (op : Op) :
    (w.step encodes others boot op).log = w.log := by
  -- An attempt cannot begin while another one is unresolved.
  have hbegin (plan : PreflightPlan) (sha256 : Str) (j : Journal) :
      w.mem.beginPreflight plan sha256 ≠ .ok j := by
    intro hok
    obtain ⟨l, hl, -⟩ := Journal.beginPreflight_eq_ok hok
    rw [Journal.preflightUncertain] at h
    generalize w.mem.kmodPreflights = o at h hl
    cases hl with
    | install o plan hplan hboot hsha hother =>
      obtain ⟨l', rfl, huncertain⟩ := Option.any_eq_true _ _ |>.1 h
      exact absurd huncertain (by simp [(hother l' rfl).1])
    | push l hboot hsha hgoes hroom =>
      obtain ⟨a, ha, hunresolved⟩ := List.any_eq_true.1 h
      exact absurd hunresolved (by simp [(hgoes a ha).1.1])
  cases op with
  | beginPreflight plan sha256 =>
    simp only [step]
    split <;> rfl
  | completePreflight sha256 state =>
    simp only [step]
    split <;> rfl
  | runPreflightWith plan sha256 intent completion state =>
    simp only [step, runPreflightWith]
    cases hrun : w.mem.beginPreflight { plan with bootId := boot } sha256 with
    | error => rfl
    | ok j => exact absurd hrun (hbegin _ _ j)
  | fenceUnresolved => rfl
  | writeAtomic result =>
    simp only [step]
    unfold writeAtomic
    split <;> rfl
  | restart =>
    simp only [step]
    split_ifs
    · split <;> rfl
    · rfl
  | elsewhere j => rfl

end World

/-! ## Main result -/

namespace Journal

/-- A module is loaded in a boot with a ledger only if it is the one whose experiment was
    clean, and all candidates have been tried. -/
theorem load_of_checkNativeAttempt {j : Journal} {intent : TransitionIntent} {explicit : Bool}
    {l : PreflightLedger} (hvalid : l.valid) (hl : j.kmodPreflights = some l)
    (hboot : l.plan.bootId = intent.bootId)
    (hkmod : intent.action = .load .kmod) (h : j.checkNativeAttempt intent explicit = .ok ()) :
    ∃ payload, intent.payload = some payload ∧
      (l.attempts.filter (·.state = .finished .cleanSentinel)).map (·.sha256) = [payload.sha256] ∧
      ∀ p ∈ l.plan.candidates, ∃ c, ⟨p.sha256, .finished c⟩ ∈ l.attempts := by
  obtain ⟨-, hforbids, -⟩ := checkNativeSafety_eq_ok (checkNativeAttempt_eq_ok h).1
  have hpermits := hforbids hkmod
  simp only [preflightForbids, hl, Option.any_some, hboot, decide_true, Bool.true_and,
    Bool.not_eq_false', Option.any_eq_true, decide_eq_true_eq] at hpermits
  obtain ⟨payload, hpayload, hevidence⟩ := hpermits
  obtain ⟨hresolved, hlen, hclean⟩ := PreflightLedger.of_evidence_eq_oneSentinel hevidence
  refine ⟨payload, hpayload, hclean, fun p hp => ?_⟩
  obtain ⟨a, ha, hsha⟩ := PreflightLedger.covers hvalid hlen p hp
  have hstate : a.state.unresolved = false := by
    simp only [PreflightLedger.uncertain, List.any_eq_false, Bool.not_eq_true] at hresolved
    exact hresolved a ha
  obtain ⟨sha, state⟩ := a
  cases state with
  | running => cases hstate
  | finished c => exact ⟨c, hsha ▸ ha⟩
  | unknown => cases hstate

end Journal

section Budget

open World Ledgers

/-- The budget of the loader experiments, at a moment `w` of any history and at a later one.
    The ledgers are valid. An effect runs at most once for a payload in a boot, with its
    receipt on disk. At most one receipt is unresolved, and while one is, no effect runs in any
    boot. A receipt that is finished is not altered, and if the loader blocks, no effect runs
    in that boot any more. In a boot with a ledger a module is loaded only if it is the single
    clean one among receipts for all candidates. -/
theorem preflight_budget (encodes : Str → ℕ → Str → Bool) (others : Journal → Bool)
    (mem file : Journal) (m : Moments Str Op) :
    let w := m.first (step encodes others) (start mem file)
    let later := m.second (step encodes others) (start mem file)
    (ValidIn w.mem.kmodPreflights ∧ ValidIn w.file.kmodPreflights) ∧
      (w.log.map fun d => (d.bootId, d.sha256)).Nodup ∧
      (∀ d ∈ w.log, ∃ l, d.disk = some l ∧ l.plan.bootId = d.bootId ∧
        ⟨d.sha256, .running⟩ ∈ l.attempts) ∧
      (∀ l, w.mem.kmodPreflights = some l → (l.attempts.filter (·.state.unresolved)).length ≤ 1) ∧
      (w.mem.preflightUncertain → ∀ boot op, (w.step encodes others boot op).log = w.log) ∧
      (∀ boot sha256 c, FinishedIn boot sha256 c w.mem.kmodPreflights →
        KeptIn boot sha256 c later.mem.kmodPreflights) ∧
      (∀ boot sha256 errno, FinishedIn boot sha256 (.loaderBlocked errno) w.mem.kmodPreflights →
        ∃ more, later.log = w.log ++ more ∧ ∀ d ∈ more, d.bootId ≠ boot) ∧
      ∀ intent explicit l, w.mem.checkNativeAttempt intent explicit = .ok () →
        intent.action = .load .kmod → w.mem.kmodPreflights = some l →
        l.plan.bootId = intent.bootId →
        ∃ payload, intent.payload = some payload ∧
          (l.attempts.filter (·.state = .finished .cleanSentinel)).map (·.sha256) =
            [payload.sha256] ∧
          ∀ p ∈ l.plan.candidates, ∃ c, ⟨p.sha256, .finished c⟩ ∈ l.attempts := by
  intro w later
  -- What the steps of the two ledgers keep gives the first half.
  have hgood : Good m.past (some m.boot) w.ledgers := good_first mem file m
  refine ⟨hgood.valid, hgood.once, hgood.durable, ?_, ?_, ?_, ?_, ?_⟩
  · intro l hl
    obtain ⟨-, -, hattempts⟩ := PreflightLedger.valid_iff.1 (hgood.valid.1 l hl)
    exact PreflightLedger.length_filter_unresolved_le hattempts
  · exact fun h boot op => log_step_of_uncertain w h boot op
  · intro boot sha256 c h
    -- What is finished at the first moment lasts in whichever boot the second one is.
    obtain ⟨b, hlasting⟩ := lasting_second mem file m h
    exact kept_of_held hlasting.held.1
  · intro boot sha256 errno h
    obtain ⟨b, hlasting⟩ := lasting_second mem file m h
    obtain ⟨more, hmore, hquiet⟩ := hlasting.quiet
    exact ⟨more, hmore, hquiet errno rfl⟩
  · -- A load of the kmod asks the ledger of its boot.
    intro intent explicit l h hkmod hl hboot
    exact Journal.load_of_checkNativeAttempt (hgood.valid.1 l hl) hl hboot hkmod h

/-- A candidate for kernels 5.15, whose digest is one digit. -/
def kmodCandidate (kmi : Str) (digit : Char) : Payload :=
  ⟨.kmod kmi, ['1'], List.replicate 40 'a', List.replicate 64 digit, 1, 2, some 1, none⟩

/-- A plan of two modules. -/
def twoCandidates : PreflightPlan :=
  ⟨[], List.replicate 64 '0', ⟨5, 15⟩,
    [kmodCandidate "android13-5.15".toList '1', kmodCandidate "android14-5.15".toList '2']⟩

/-- An experiment with one of them, whose writes succeed. -/
def experiment (digit : Char) (c : PreflightCompletion) : Op :=
  .runPreflightWith twoCandidates (List.replicate 64 digit) .ok .ok (.finished c)

/-- Both are tried in a first boot, of which one is clean; in a second one the loader blocks. -/
def cleanThenBlocked : Moments Str Op where
  before := []
  boot := ['a']
  ops := [experiment '1' .cleanSentinel, experiment '2' (.candidateRejected 8)]
  more := [experiment '1' (.loaderBlocked 1)]
  after := [(['b'], [experiment '1' (.loaderBlocked 1)])]
  fresh := by decide

/-- From the second boot on. -/
def blockedThenRetried : Moments Str Op where
  before := [(['a'], [experiment '1' .cleanSentinel])]
  boot := ['b']
  ops := [experiment '1' (.loaderBlocked 1)]
  more := [experiment '2' .cleanSentinel]
  after := []
  fresh := by decide

theorem preflight_budget_twoCandidates :
    let clean :=
  cleanThenBlocked.first (step (fun _ _ _ => false) fun _ => true) (start .empty .empty)
    let blocked :=
      blockedThenRetried.first (step (fun _ _ _ => false) fun _ => true) (start .empty .empty)
    clean.log.length = 2 ∧
      KeptIn ['a'] (List.replicate 64 '1') .cleanSentinel
        (cleanThenBlocked.second (step (fun _ _ _ => false) fun _ => true)
          (start .empty .empty)).mem.kmodPreflights ∧
      (∃ l, clean.mem.kmodPreflights = some l ∧
        (l.attempts.filter (·.state = .finished .cleanSentinel)).map (·.sha256) =
          [List.replicate 64 '1']) ∧
      ∃ more, (blockedThenRetried.second (step (fun _ _ _ => false) fun _ => true)
        (start .empty .empty)).log =
        blocked.log ++ more ∧ ∀ d ∈ more, d.bootId ≠ ['b'] := by
  intro clean blocked
  -- The first candidate ends clean, and the second one is rejected.
  have hledger : clean.mem.kmodPreflights = some ⟨{ twoCandidates with bootId := ['a'] },
      [⟨List.replicate 64 '1', .finished .cleanSentinel⟩,
        ⟨List.replicate 64 '2', .finished (.candidateRejected 8)⟩]⟩ := by
    decide +kernel
  have hblocked : blocked.mem.kmodPreflights =
      some ⟨{ twoCandidates with bootId := ['b'] },
        [⟨List.replicate 64 '1', .finished (.loaderBlocked 1)⟩]⟩ := by
    decide +kernel
  have hattempt : clean.mem.checkNativeAttempt
      ⟨none, ['a'], .load .kmod, some ⟨[], List.replicate 64 '1', 1, none⟩, none, none⟩ false =
        .ok () := by
    decide +kernel
  obtain ⟨-, -, -, -, -, hkept, -, hload⟩ :=
    preflight_budget (fun _ _ _ => false) (fun _ => true) .empty .empty cleanThenBlocked
  obtain ⟨-, -, -, -, -, -, hquiet, -⟩ :=
    preflight_budget (fun _ _ _ => false) (fun _ => true) .empty .empty blockedThenRetried
  refine ⟨by decide +kernel, hkept ['a'] _ .cleanSentinel ⟨_, hledger, rfl, List.mem_cons_self⟩, ?_,
    hquiet ['b'] (List.replicate 64 '1') 1 ⟨_, hblocked, rfl, List.mem_cons_self⟩⟩
  obtain ⟨payload, hpayload, hclean, -⟩ := hload _ _ _ hattempt rfl hledger rfl
  obtain rfl := Option.some.inj hpayload
  exact ⟨_, hledger, hclean⟩

end Budget

end VpnHide.Native

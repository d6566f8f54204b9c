import Mathlib.Data.Countable.Basic
import Mathlib.Logic.Equiv.List
import Mathlib.Tactic.DeriveCountable
import VpnHide.Lib.Crash
import VpnHide.Provisioning.Plan

/-!
# Writing the boot partition

The state machine of `provisioning/src/write.rs` over the answers of its IO. A receipt in
state `writing` is durable before the partition is written; only one in state `confirmed`
permits another plan, with a later operation. The call may crash at every step, and a receipt
may become durable although writing it fails.

`boot_write_fenced` is about all histories of calls: whatever the IO answers, the partition is
written only behind such a fence, by each plan at most once, and by no plan after a write that
was not confirmed.
-/

namespace VpnHide.Provisioning

open Lib Protocol Config

/-- The user's consent to a plan, for a time. -/
structure BootConsent where
  planSha256 : Str
  bootId : Str
  expiresMonotonicMs : ℕ

/-- How far a write has got. -/
inductive WriteState
  | prepared
  | writing
  | confirmed
  | unknown
  deriving DecidableEq

/-- What is on record of a write. -/
structure WriteReceipt where
  operation : ℕ
  planSha256 : Str
  state : WriteState
  backupSha256 : Str
  deriving DecidableEq

/-- A call of `execute`. -/
structure Call where
  plan : BootPlan
  consent : BootConsent
  nowMs : ℕ
  patched : Bytes

/-! ## The device -/

/-- How writing a receipt ended. -/
inductive SyncResult
  | synced
  | failed (durable : Bool)

/-- The answers of `BootIo`. -/
inductive Answer
  | loaded (ok : Bool)
  | observed (facts : Except ProvisionError BootFacts)
  | original (bytes : Except ProvisionError Bytes)
  | backedUp (sha256 : Except ProvisionError Str)
  | receipt (result : SyncResult)
  | written (ok : Bool)
  | readback (bytes : Except ProvisionError Bytes)

/-- What happens to the device, and what it is found to be. -/
inductive Event
  | call (call : Call)
  | observed (facts : BootFacts)
  | original (bytes : Bytes)
  | backedUp (operation : ℕ) (original : Bytes) (sha256 : Str)
  /-- A receipt becomes durable. -/
  | durable (receipt : WriteReceipt)
  /-- `write_once`, by a plan. -/
  | write (plan : BootPlan) (patched : Bytes)

/-- The last receipt that became durable, and the history, newest first. -/
structure Device where
  receipt : Option WriteReceipt
  log : List Event

/-- The code, as a program that asks its environment. -/
abbrev BootIo := Prog Answer Device

/-- What happens is noted. -/
def note (e : Event) : BootIo Unit := .modify fun d => { d with log := e :: d.log }

/-- The partition is looked at. -/
def observe : BootIo (Except ProvisionError BootFacts) := do
  let answer ← .ask fun | .observed facts => some facts | _ => none
  match answer with
  | .error error => pure (.error error)
  | .ok facts =>
    note (.observed facts)
    pure (.ok facts)

/-- The image is read. -/
def readOriginal : BootIo (Except ProvisionError Bytes) := do
  let answer ← .ask fun | .original bytes => some bytes | _ => none
  match answer with
  | .error error => pure (.error error)
  | .ok bytes =>
    note (.original bytes)
    pure (.ok bytes)

/-- The image is kept aside. -/
def backupAndSync (operation : ℕ) (original : Bytes) : BootIo (Except ProvisionError Str) := do
  let answer ← .ask fun | .backedUp sha256 => some sha256 | _ => none
  match answer with
  | .error error => pure (.error error)
  | .ok sha256 =>
    note (.backedUp operation original sha256)
    pure (.ok sha256)

/-- The last receipt that is durable, or an error. -/
def loadReceipt : BootIo (Except ProvisionError (Option WriteReceipt)) := do
  let ok ← .ask fun | .loaded ok => some ok | _ => none
  let d ← .get
  pure (if ok then .ok d.receipt else .error .journalUnavailable)

/-- The receipt is on disk, whatever its writer is told. -/
def SyncResult.lands : SyncResult → Bool
  | synced => true
  | failed durable => durable

/-- A receipt is written. -/
def syncReceipt (receipt : WriteReceipt) : BootIo (Except ProvisionError Unit) := do
  let result ← .ask fun | .receipt result => some result | _ => none
  .modify fun d => if result.lands then ⟨some receipt, .durable receipt :: d.log⟩ else d
  match result with
  | .synced => pure (.ok ())
  | .failed _ => pure (.error .journalUnavailable)

/-- Once this is called, the partition may be written, whatever it returns. -/
def writeOnce (plan : BootPlan) (patched : Bytes) : BootIo (Except ProvisionError Unit) := do
  note (.write plan patched)
  let ok ← .ask fun | .written ok => some ok | _ => none
  pure (if ok then .ok () else .error .writeUnknown)

/-- What is on the partition is read back. -/
def flushAndReadback : BootIo (Except ProvisionError Bytes) :=
  .ask fun | .readback bytes => some bytes | _ => none

/-! ## The state machine -/

section Execute

-- The hash, and the encoding of plans as JSON.
variable (hash : Bytes → Str) (encode : BootPlan → Bytes)

/-- The digest of a plan. -/
def BootPlan.sha256 (p : BootPlan) : Str := hash (encode p)

/-- The checks before any IO. -/
def checkCall (c : Call) : Except ProvisionError Unit := do
  c.plan.validate
  if c.consent.planSha256 ≠ c.plan.sha256 hash encode || c.consent.bootId ≠ c.plan.facts.bootId then
    throw .consentMissing
  if c.consent.expiresMonotonicMs ≤ c.nowMs then throw .consentExpired
  if hash c.patched ≠ c.plan.patchedSha256 || c.patched.length ≠ c.plan.patchedBytes then
    throw .planChanged

/-- What the last receipt answers, unless the plan may go on. -/
def resume (plan : BootPlan) : Option WriteReceipt → Option (Except ProvisionError WriteReceipt)
  | none => none
  | some previous =>
    if previous.planSha256 = plan.sha256 hash encode && previous.state = .confirmed then
      some (.ok previous)
    else if plan.operation ≤ previous.operation || previous.state ≠ .confirmed then
      some (.error .heldUnknown)
    else none

/-- The image on the partition, which must be the one of the plan. -/
def readSource (plan : BootPlan) : BootIo (Except ProvisionError Bytes) := do
  match ← observe with
  | .error error => pure (.error error)
  | .ok facts =>
    if facts ≠ plan.facts then pure (.error .slotChanged)
    else do
      match ← readOriginal with
      | .error error => pure (.error error)
      | .ok original =>
        if original.length ≠ plan.originalBytes || hash original ≠ plan.originalSha256 then
          pure (.error .sourceChanged)
        else pure (.ok original)

/-- The image is kept aside, as the plan has it. -/
def backup (plan : BootPlan) (original : Bytes) : BootIo (Except ProvisionError Str) := do
  match ← backupAndSync plan.operation original with
  | .error error => pure (.error error)
  | .ok backupSha256 =>
    if backupSha256 ≠ plan.originalSha256 then pure (.error .backupUnconfirmed)
      else pure (.ok backupSha256)

/-- Nothing has changed since. -/
def recheck (plan : BootPlan) (original : Bytes) : BootIo (Except ProvisionError Unit) := do
  match ← observe with
  | .error error => pure (.error error)
  | .ok facts =>
    if facts ≠ plan.facts then pure (.error .sourceChanged)
    else do
      match ← readOriginal with
      | .error error => pure (.error error)
      | .ok bytes => if bytes ≠ original then pure (.error .sourceChanged) else pure (.ok ())

/-- Writing the partition, and reading it back. -/
def writeAndReadback (plan : BootPlan) (patched : Bytes) :
    BootIo (Except ProvisionError Bytes) := do
  match ← writeOnce plan patched with
  | .error error => pure (.error error)
  | .ok () => flushAndReadback

/-- The receipt of what was read back. -/
def confirm (plan : BootPlan) (receipt : WriteReceipt) (result : Except ProvisionError Bytes) :
    BootIo (Except ProvisionError WriteReceipt) := do
  match result with
  | .ok readback =>
    if readback.length = plan.patchedBytes && hash readback = plan.patchedSha256 then do
      match ← syncReceipt { receipt with state := .confirmed } with
      | .error _ => pure (.error .writeUnknown)
      | .ok () => pure (.ok { receipt with state := .confirmed })
    else do
      let _ ← syncReceipt { receipt with state := .unknown }
      pure (.error .readbackMismatch)
  | .error _ =>
    let _ ← syncReceipt { receipt with state := .unknown }
    pure (.error .writeUnknown)

/-- `execute`, from the first observation on. -/
def dispatch (plan : BootPlan) (patched : Bytes) : BootIo (Except ProvisionError WriteReceipt) := do
  match ← readSource hash plan with
  | .error error => pure (.error error)
  | .ok original =>
    match ← backup plan original with
    | .error error => pure (.error error)
    | .ok backupSha256 =>
      match ← recheck plan original with
      | .error error => pure (.error error)
      | .ok () =>
        let receipt : WriteReceipt :=
          ⟨plan.operation, plan.sha256 hash encode, .writing, backupSha256⟩
        -- the intent is durable before the partition is written
        match ← syncReceipt receipt with
        | .error error => pure (.error error)
        | .ok () =>
          match ← recheck plan original with
          | .error error => pure (.error error)
          | .ok () =>
            let result ← writeAndReadback plan patched
            confirm hash plan receipt result

/-- `execute`: a call, which writes at most once. -/
def execute (c : Call) : BootIo (Except ProvisionError WriteReceipt) := do
  note (.call c)
  match checkCall hash encode c with
  | .error error => pure (.error error)
  | .ok () =>
    match ← loadReceipt with
    | .error error => pure (.error error)
    | .ok previous =>
      match resume hash encode c.plan previous with
      | some answer => pure answer
      | none => dispatch hash encode c.plan c.patched

/-- The device after a history of calls, each with the answers of its IO; a call whose answers
    end has crashed. -/
def history (calls : List (Call × List Answer)) : Device :=
  calls.foldl (fun d (c, tape) => (execute hash encode c tape d).state) ⟨none, []⟩

end Execute

/-! ## Fences -/

/-- The plans that were written, newest first. -/
def dispatches (log : List Event) : List BootPlan :=
  log.filterMap fun | .write plan _ => some plan | _ => none

/-- The last receipt that is on disk. -/
def lastDurable (log : List Event) : Option WriteReceipt :=
  log.findSome? fun | .durable receipt => some receipt | _ => none

/-- What is before a write: nothing but the fence of its own call, after calls that left no write
    open. -/
structure Fenced (hash : Bytes → Str) (encode : BootPlan → Bytes) (earlier : List Event)
    (plan : BootPlan) (patched : Bytes) (consent : BootConsent) (nowMs : ℕ) (original : Bytes)
    (before : List Event) : Prop where
  log : earlier = [.original original, .observed plan.facts,
    .durable ⟨plan.operation, plan.sha256 hash encode, .writing, plan.originalSha256⟩,
    .original original, .observed plan.facts, .backedUp plan.operation original plan.originalSha256,
    .original original, .observed plan.facts, .call ⟨plan, consent, nowMs, patched⟩] ++ before
  patched : patched.length = plan.patchedBytes ∧ hash patched = plan.patchedSha256
  original : original.length = plan.originalBytes ∧ hash original = plan.originalSha256
  consent : consent.planSha256 = plan.sha256 hash encode ∧ consent.bootId = plan.facts.bootId ∧
    nowMs < consent.expiresMonotonicMs
  closed : ∀ receipt, lastDurable before = some receipt → receipt.state = .confirmed
  operations : ∀ other ∈ dispatches before, other.operation < plan.operation

section Fences

variable {hash : Bytes → Str} {encode : BootPlan → Bytes} {d : Device}
  {e : Event} {C : Device → Prop}

/-- The device between two steps of its IO. -/
structure Good (hash : Bytes → Str) (encode : BootPlan → Bytes) (d : Device) : Prop where
  receipt : d.receipt = lastDurable d.log
  writes : ∀ later plan patched earlier, d.log = later ++ .write plan patched :: earlier →
    ∃ consent nowMs original before, Fenced hash encode earlier plan patched consent
      nowMs original before
  operations : ∀ plan ∈ dispatches d.log, ∃ receipt, d.receipt = some receipt ∧
    plan.operation ≤ receipt.operation

/-- A write that is in a longer log is the new event, or was there before. -/
theorem writes_cons {log : List Event} {P : BootPlan → Bytes → List Event → Prop}
    (h : ∀ later plan patched earlier, log = later ++ .write plan patched :: earlier →
      P plan patched earlier)
    (he : ∀ plan patched, e = .write plan patched → P plan patched log) :
    ∀ later plan patched earlier, e :: log = later ++ .write plan patched :: earlier →
      P plan patched earlier := by
  intro later plan patched earlier heq
  cases later with
  | nil =>
    obtain ⟨rfl, rfl⟩ := List.cons.inj heq
    exact he plan patched rfl
  | cons e' later =>
    exact h later plan patched earlier (List.cons.inj heq).2

/-- An event that neither writes nor makes a receipt durable leaves the device good. -/
theorem Good.note (h : Good hash encode d) (hwrite : ∀ plan patched, e ≠ .write plan patched)
    (hdurable : ∀ receipt, e ≠ .durable receipt) :
    Good hash encode { d with log := e :: d.log } := by
  have hdispatches : dispatches (e :: d.log) = dispatches d.log := by
    cases e with
    | write plan patched => exact absurd rfl (hwrite plan patched)
    | _ => rfl
  refine ⟨?_, writes_cons h.writes fun plan patched heq => absurd heq (hwrite plan patched), ?_⟩
  · cases e with
    | durable receipt => exact absurd rfl (hdurable receipt)
    | _ => exact h.receipt
  · rw [hdispatches]
    exact h.operations

/-- A receipt becomes durable, of an operation that is not before the last one. -/
theorem Good.sync (h : Good hash encode d) {receipt : WriteReceipt}
    (hop : ∀ plan ∈ dispatches d.log, plan.operation ≤ receipt.operation) :
    Good hash encode ⟨some receipt, .durable receipt :: d.log⟩ :=
  ⟨rfl, writes_cons h.writes (by simp), fun plan hplan => ⟨receipt, rfl, hop plan hplan⟩⟩

/-- The partition is written behind its fence. -/
theorem Good.write (h : Good hash encode d) {plan : BootPlan} {patched : Bytes}
    {consent : BootConsent} {nowMs : ℕ} {original : Bytes} {before : List Event}
    (hfence : Fenced hash encode d.log plan patched consent nowMs original before)
    (hop : ∃ receipt, d.receipt = some receipt ∧ plan.operation ≤ receipt.operation) :
    Good hash encode { d with log := .write plan patched :: d.log } := by
  refine ⟨h.receipt, writes_cons h.writes fun plan' patched' heq => ?_,
    List.forall_mem_cons.2 ⟨hop, h.operations⟩⟩
  obtain ⟨rfl, rfl⟩ := Event.write.inj heq
  exact ⟨consent, nowMs, original, before, hfence⟩

/-! ## Steps of a call -/

/-- Observing the device notes what it saw. -/
theorem Good.safe_observe (h : Good hash encode d) :
    observe.Safe (fun r d' => Good hash encode d' ∧
      ∀ facts, r = .ok facts → d' = { d with log := .observed facts :: d.log }) (Good
        hash encode) d := by
  refine .ask_bind h fun answer r _ => ?_
  cases r with
  | error error => exact .pure ⟨h, by simp⟩
  | ok facts => exact .modify_bind (.pure ⟨h.note (by simp) (by simp), by simp⟩)

/-- Reading the original notes the bytes. -/
theorem Good.safe_readOriginal (h : Good hash encode d) :
    readOriginal.Safe (fun r d' => Good hash encode d' ∧
      ∀ bytes, r = .ok bytes → d' = { d with log := .original bytes :: d.log }) (Good
        hash encode) d := by
  refine .ask_bind h fun answer r _ => ?_
  cases r with
  | error error => exact .pure ⟨h, by simp⟩
  | ok bytes => exact .modify_bind (.pure ⟨h.note (by simp) (by simp), by simp⟩)

/-- A backup notes the operation, the bytes and their hash. -/
theorem Good.safe_backupAndSync (h : Good hash encode d) (operation : ℕ) (original : Bytes) :
    (backupAndSync operation original).Safe (fun r d' => Good hash encode d' ∧
      ∀ sha256, r = .ok sha256 →
        d' = { d with log := .backedUp operation original sha256 :: d.log })
      (Good hash encode) d := by
  refine .ask_bind h fun answer r _ => ?_
  cases r with
  | error error => exact .pure ⟨h, by simp⟩
  | ok bytes => exact .modify_bind (.pure ⟨h.note (by simp) (by simp), by simp⟩)

/-- Syncing a receipt makes it durable, or fails with or without having done so. -/
theorem Good.safe_syncReceipt (h : Good hash encode d) {receipt : WriteReceipt}
    (hop : ∀ plan ∈ dispatches d.log, plan.operation ≤ receipt.operation) :
    (syncReceipt receipt).Safe (fun r d' => Good hash encode d' ∧
      (r = .ok () → d' = ⟨some receipt, .durable receipt :: d.log⟩)) (Good hash encode) d := by
  refine .ask_bind h fun answer result _ => .modify_bind ?_
  cases result with
  | synced => exact .pure ⟨h.sync hop, fun _ => rfl⟩
  | failed durable =>
    refine .pure ⟨?_, by simp⟩
    cases durable with
    | true => exact h.sync hop
    | false => exact h

/-- The source that is accepted is the original of the plan, on the device of the plan. -/
theorem Good.safe_readSource (h : Good hash encode d) (plan : BootPlan) :
    (readSource hash plan).Safe (fun r d' => Good hash encode d' ∧ ∀ original, r = .ok original →
      (original.length = plan.originalBytes ∧ hash original = plan.originalSha256) ∧
        d' = { d with log := .original original :: .observed plan.facts :: d.log }) (Good
          hash encode) d := by
  refine .seq h.safe_observe (fun _ => id) ?_
  rintro r d₁ ⟨h₁, hobserved⟩
  cases r with
  | error error => exact .pure ⟨h₁, by simp⟩
  | ok facts =>
    dsimp only
    split_ifs with hfacts
    · exact .pure ⟨h₁, by simp⟩
    · rw [not_not] at hfacts
      refine .seq h₁.safe_readOriginal (fun _ => id) ?_
      rintro r d₂ ⟨h₂, hread⟩
      cases r with
      | error error => exact .pure ⟨h₂, by simp⟩
      | ok original =>
        dsimp only
        split_ifs with hsource
        · exact .pure ⟨h₂, by simp⟩
        · refine .pure ⟨h₂, fun original' heq => ?_⟩
          obtain rfl := Except.ok.inj heq
          rw [Bool.or_eq_true, decide_eq_true_eq, decide_eq_true_eq, not_or, not_not, not_not]
            at hsource
          refine ⟨hsource, ?_⟩
          rw [hread original rfl, hobserved facts rfl, hfacts]

/-- The backup that is accepted has the hash of the plan. -/
theorem Good.safe_backup (h : Good hash encode d) (plan : BootPlan) (original : Bytes) :
    (backup plan original).Safe (fun r d' => Good hash encode d' ∧ ∀ sha256, r = .ok sha256 →
      sha256 = plan.originalSha256 ∧
        d' = { d with log := .backedUp plan.operation original plan.originalSha256 :: d.log }) (Good
          hash encode) d := by
  refine .seq (h.safe_backupAndSync plan.operation original) (fun _ => id) ?_
  rintro r d₁ ⟨h₁, hbackup⟩
  cases r with
  | error error => exact .pure ⟨h₁, by simp⟩
  | ok sha256 =>
    dsimp only
    split_ifs with hsha
    · exact .pure ⟨h₁, by simp⟩
    · refine .pure ⟨h₁, fun sha256' heq => ?_⟩
      obtain rfl := Except.ok.inj heq
      rw [not_not] at hsha
      exact ⟨hsha, hsha ▸ hbackup sha256 rfl⟩

/-- What is checked again right before the write is the same original on the same device. -/
theorem Good.safe_recheck (h : Good hash encode d) (plan : BootPlan) (original : Bytes) :
    (recheck plan original).Safe (fun r d' => Good hash encode d' ∧
      (r = .ok () → d' = { d with log := .original original :: .observed plan.facts :: d.log }))
    (Good hash encode) d := by
  refine .seq h.safe_observe (fun _ => id) ?_
  rintro r d₁ ⟨h₁, hobserved⟩
  cases r with
  | error error => exact .pure ⟨h₁, by simp⟩
  | ok facts =>
    dsimp only
    split_ifs with hfacts
    · exact .pure ⟨h₁, by simp⟩
    · rw [not_not] at hfacts
      refine .seq h₁.safe_readOriginal (fun _ => id) ?_
      rintro r d₂ ⟨h₂, hread⟩
      cases r with
      | error error => exact .pure ⟨h₂, by simp⟩
      | ok bytes =>
        dsimp only
        split_ifs with hbytes
        · exact .pure ⟨h₂, by simp⟩
        · rw [not_not] at hbytes
          refine .pure ⟨h₂, fun _ => ?_⟩
          rw [hread bytes rfl, hobserved facts rfl, hfacts, hbytes]

/-- The only thing a write and its readback note is the write. -/
theorem safe_writeAndReadback {plan : BootPlan} {patched : Bytes}
    (hwrite : Good hash encode { d with log := .write plan patched :: d.log }) :
    (writeAndReadback plan patched).Safe
      (fun _ d' => d' = { d with log := .write plan patched :: d.log }) (Good hash encode) d := by
  refine .bind (.modify_bind (.ask_bind hwrite fun answer ok _ => .pure ?_))
  cases ok with
  | false => exact .pure rfl
  | true => exact .ask hwrite fun _ _ _ => rfl

/-- Confirming a write keeps the device good, whatever was read back. -/
theorem Good.safe_confirm (h : Good hash encode d) (plan : BootPlan) {receipt : WriteReceipt}
    (hop : ∀ plan ∈ dispatches d.log, plan.operation ≤ receipt.operation)
    (result : Except ProvisionError Bytes) :
    (confirm hash plan receipt result).Safe (fun _ d' => Good hash encode d')
    (Good hash encode) d := by
  have hunknown (error : ProvisionError) : (do
      let _ ← syncReceipt { receipt with state := .unknown }
      pure (.error error) : BootIo (Except ProvisionError WriteReceipt)).Safe (fun _ d' =>
        Good hash encode d')
      (Good hash encode) d := by
    refine .seq (h.safe_syncReceipt hop) (fun _ => id) ?_
    rintro r d₁ ⟨h₁, -⟩
    exact .pure h₁
  cases result with
  | error error => exact hunknown .writeUnknown
  | ok readback =>
    rw [confirm]
    split_ifs
    · refine .seq (h.safe_syncReceipt hop) (fun _ => id) ?_
      rintro r d₁ ⟨h₁, -⟩
      cases r with
      | error error => exact .pure h₁
      | ok => exact .pure h₁
    · exact hunknown .readbackMismatch

/-- A call that has passed its checks, with the log it was made on. -/
structure Opened (hash : Bytes → Str) (encode : BootPlan → Bytes) (c : Call) (before : List Event) :
    Prop where
  patched : c.patched.length = c.plan.patchedBytes ∧ hash c.patched = c.plan.patchedSha256
  consent : c.consent.planSha256 = c.plan.sha256 hash encode ∧
    c.consent.bootId = c.plan.facts.bootId ∧ c.nowMs < c.consent.expiresMonotonicMs
  closed : ∀ receipt, lastDurable before = some receipt → receipt.state = .confirmed
  operations : ∀ other ∈ dispatches before, other.operation < c.plan.operation

/-- A dispatch keeps the device good at each crash point. -/
theorem Good.safe_dispatch (h : Good hash encode d) {c : Call} {before : List Event}
    (hlog : d.log = .call c :: before) (hopen : Opened hash encode c before) :
    (dispatch hash encode c.plan c.patched).Safe (fun _ d' => Good hash encode d')
    (Good hash encode) d := by
  obtain ⟨receipt, log⟩ := d
  obtain rfl : log = .call c :: before := hlog
  refine .seq (h.safe_readSource c.plan) (fun _ => id) ?_
  rintro r d₁ ⟨h₁, hsource⟩
  cases r with
  | error error => exact .pure h₁
  | ok original =>
    obtain ⟨horiginal, rfl⟩ := hsource original rfl
    refine .seq (h₁.safe_backup c.plan original) (fun _ => id) ?_
    rintro r d₂ ⟨h₂, hbackup⟩
    cases r with
    | error error => exact .pure h₂
    | ok backupSha256 =>
      obtain ⟨rfl, rfl⟩ := hbackup backupSha256 rfl
      refine .seq (h₂.safe_recheck c.plan original) (fun _ => id) ?_
      rintro r d₃ ⟨h₃, hrecheck⟩
      cases r with
      | error error => exact .pure h₃
      | ok =>
        obtain rfl := hrecheck rfl
        -- no plan that was written is later
        have hop : ∀ plan ∈ dispatches before, plan.operation ≤ c.plan.operation :=
          fun plan hplan =>
          (hopen.operations plan hplan).le
        refine .seq (h₃.safe_syncReceipt hop) (fun _ => id) ?_
        rintro r d₄ ⟨h₄, hsync⟩
        cases r with
        | error error => exact .pure h₄
        | ok =>
          obtain rfl := hsync rfl
          refine .seq (h₄.safe_recheck c.plan original) (fun _ => id) ?_
          rintro r d₅ ⟨h₅, hrecheck⟩
          cases r with
          | error error => exact .pure h₅
          | ok =>
            obtain rfl := hrecheck rfl
            have hfence : Fenced hash encode _ c.plan c.patched c.consent c.nowMs original before :=
              ⟨rfl, hopen.patched, horiginal, hopen.consent, hopen.closed, hopen.operations⟩
            have hwrite := h₅.write hfence ⟨_, rfl, le_rfl⟩
            refine .seq (safe_writeAndReadback hwrite) (fun _ => id) ?_
            rintro r d₆ rfl
            have hop' : ∀ plan ∈ c.plan :: dispatches before, plan.operation ≤ c.plan.operation :=
              List.forall_mem_cons.2 ⟨le_rfl, hop⟩
            refine hwrite.safe_confirm c.plan ?_ r
            exact hop'

/-- What was checked of a call that is accepted. -/
theorem checkCall_eq_ok {c : Call} (h : checkCall hash encode c = .ok ()) :
    (c.patched.length = c.plan.patchedBytes ∧ hash c.patched = c.plan.patchedSha256) ∧
      c.consent.planSha256 = c.plan.sha256 hash encode ∧ c.consent.bootId = c.plan.facts.bootId ∧
      c.nowMs < c.consent.expiresMonotonicMs := by
  rw [checkCall] at h
  cases hvalid : c.plan.validate with
  | error error => simp [hvalid, bind, Except.bind] at h
  | ok =>
    simp only [hvalid, bind, Except.bind, pure, Except.pure] at h
    split_ifs at h with hconsent hexpired hpatched
    simp only [Bool.or_eq_true, decide_eq_true_eq, not_or, not_not] at hconsent hpatched
    exact ⟨⟨hpatched.2, hpatched.1⟩, hconsent.1, hconsent.2, Nat.lt_of_not_le hexpired⟩

/-- A plan goes on to the write only over a confirmed receipt of an earlier operation. -/
theorem resume_eq_none {plan : BootPlan} {previous : Option WriteReceipt}
    (h : resume hash encode plan previous = none) :
    ∀ receipt, previous = some receipt →
      receipt.state = .confirmed ∧ receipt.operation < plan.operation := by
  rintro receipt rfl
  rw [resume] at h
  split_ifs at h with hsame hheld
  simp only [Bool.or_eq_true, decide_eq_true_eq, not_or, not_not] at hheld
  exact ⟨hheld.2, Nat.lt_of_not_le hheld.1⟩

/-- A call keeps the device good at each crash point. -/
theorem Good.safe_execute (h : Good hash encode d) (c : Call) :
    (execute hash encode c).Safe (fun _ d' => Good hash encode d') (Good hash encode) d := by
  have hcall : Good hash encode { d with log := .call c :: d.log } := h.note (by simp) (by simp)
  refine .modify_bind ?_
  cases hcheck : checkCall hash encode c with
  | error error => exact .pure hcall
  | ok =>
    refine .bind (.ask_bind hcall fun answer ok _ => .get_bind (.pure ?_))
    cases ok with
    | false => exact .pure hcall
    | true =>
      dsimp only
      split
      next => exact .pure hcall
      next previous hprevious =>
        cases hresume : resume hash encode c.plan previous with
        | some answer => exact .pure hcall
        | none =>
          obtain ⟨hpatched, hconsent⟩ := checkCall_eq_ok hcheck
          have hclosed := resume_eq_none hresume
          have hlast : previous = lastDurable d.log :=
            (Except.ok.inj hprevious).symm.trans h.receipt
          refine hcall.safe_dispatch rfl ⟨hpatched, hconsent, fun receipt hreceipt => ?_,
            fun other hother => ?_⟩
          · exact (hclosed receipt (hlast.trans hreceipt)).1
          · obtain ⟨receipt, hreceipt, hle⟩ := h.operations other hother
            exact hle.trans_lt (hclosed receipt (hlast.trans (h.receipt.symm.trans hreceipt))).2

/-- The device is good after every history. -/
theorem good_history (hash : Bytes → Str) (encode : BootPlan → Bytes)
    (calls : List (Call × List Answer)) :
    Good hash encode (history hash encode calls) := by
  have hstart : Good hash encode ⟨none, []⟩ := ⟨rfl, by simp, by simp [dispatches]⟩
  rw [history]
  generalize (⟨none, []⟩ : Device) = d at hstart ⊢
  induction calls generalizing d with
  | nil => exact hstart
  | cons call calls ih =>
    obtain ⟨c, tape⟩ := call
    have hstate : Good hash encode (execute hash encode c tape d).state := by
      obtain ⟨r, tape', d', heq, hgood⟩ | ⟨d', heq, hgood⟩ := (hstart.safe_execute c).run tape
      · rw [heq]
        exact hgood
      · rw [heq]
        exact hgood
    exact ih _ hstate

/-! ## What histories show -/

/-- What a call notes before it writes is no write of its own. -/
theorem Fenced.dispatches_eq {earlier before : List Event} {plan : BootPlan}
    {patched original : Bytes} {consent : BootConsent} {nowMs : ℕ}
    (h : Fenced hash encode earlier plan patched consent nowMs original before) :
    dispatches earlier = dispatches before := by
  rw [h.log]
  rfl

/-- The operations of writes increase. -/
theorem Good.pairwise (h : Good hash encode d) :
    (dispatches d.log).Pairwise fun later earlier => earlier.operation < later.operation := by
  have hwrites := h.writes
  generalize d.log = log at hwrites
  induction log with
  | nil => exact List.Pairwise.nil
  | cons e log ih =>
    have hlog := ih fun later plan patched earlier heq =>
      hwrites (e :: later) plan patched earlier (by rw [heq]; rfl)
    cases e with
    | write plan patched =>
      obtain ⟨consent, nowMs, original, before, hfence⟩ := hwrites [] plan patched log rfl
      refine List.pairwise_cons.2 ⟨fun other hother => hfence.operations other ?_, hlog⟩
      exact hfence.dispatches_eq ▸ hother
    | _ => exact hlog

/-- What is before an earlier call is before the call of the write. -/
theorem Fenced.suffix {earlier before : List Event} {plan : BootPlan} {patched original : Bytes}
    {consent : BootConsent} {nowMs : ℕ}
    (h : Fenced hash encode earlier plan patched consent nowMs original before)
    {later rest : List Event} {c : Call} (hearlier : earlier = later ++ .call c :: rest) :
    ∃ between, before = between ++ rest ∧ ∀ e ∈ between, e ∈ later ++ [.call c] := by
  have hlog := h.log
  rw [hearlier] at hlog
  obtain ⟨tail, hfence, htail⟩ | ⟨between, hlater, hbefore⟩ := List.append_eq_append_iff.1 hlog
  · cases tail with
    | nil => exact ⟨[.call c], htail.symm, by simp⟩
    | cons e tail =>
      obtain ⟨rfl, rfl⟩ := List.cons.inj htail
      -- the only call of the fence is its first event
      obtain rfl | ⟨tail, last, rfl⟩ := List.eq_nil_or_concat tail
      · exact ⟨[], rfl, by simp⟩
      · rw [List.concat_eq_append, ← List.cons_append, ← List.append_assoc] at hfence
        have hdrop := congrArg List.dropLast hfence
        rw [List.dropLast_concat] at hdrop
        have hmem : .call c ∈ later ++ .call c :: tail := by simp
        rw [← hdrop] at hmem
        simp at hmem
  · refine ⟨between ++ [.call c], by simp [hbefore], fun e he => ?_⟩
    rw [hlater]
    simp only [List.mem_append, List.mem_singleton] at he ⊢
    tauto

/-- The last durable receipt of a log in which one is found. -/
theorem lastDurable_append (newer older : List Event) (receipt : WriteReceipt) :
    ∃ last, lastDurable (newer ++ .durable receipt :: older) = some last ∧
      (last = receipt ∨ .durable last ∈ newer) := by
  rw [lastDurable, List.findSome?_append]
  cases hnewer : newer.findSome? fun | .durable receipt => some receipt | _ => none with
  | none => exact ⟨receipt, rfl, .inl rfl⟩
  | some last =>
    refine ⟨last, rfl, .inr ?_⟩
    obtain ⟨e, he, hlast⟩ := List.exists_of_findSome?_eq_some hnewer
    split at hlast
    next receipt' =>
      obtain rfl := Option.some.inj hlast
      exact he
    next => cases hlast

/-- Once a receipt says writing, no later call writes until one says confirmed. -/
theorem Good.held (h : Good hash encode d) {newer older : List Event} {receipt : WriteReceipt}
    (hlog : d.log = newer ++ .durable receipt :: older) (hwriting : receipt.state = .writing)
    (hopen : ∀ receipt', .durable receipt' ∈ newer → receipt'.state ≠ .confirmed)
    {later rest : List Event} {c : Call} (hnewer : newer = later ++ .call c :: rest)
    (plan : BootPlan) (patched : Bytes) :
    .write plan patched ∉ later := by
  intro hmem
  obtain ⟨after, since, rfl⟩ := List.append_of_mem hmem
  obtain ⟨consent, nowMs, original, before, hfence⟩ := h.writes after plan patched
    (since ++ .call c :: (rest ++ .durable receipt :: older)) (by simp [hlog, hnewer])
  obtain ⟨between, hbefore, hbetween⟩ := hfence.suffix rfl
  rw [← List.append_assoc] at hbefore
  obtain ⟨last, hlast, hlast'⟩ := lastDurable_append (between ++ rest) older receipt
  have hconfirmed := hfence.closed last (hbefore ▸ hlast)
  obtain rfl | hin := hlast'
  · rw [hwriting] at hconfirmed
    cases hconfirmed
  · refine hopen last ?_ hconfirmed
    rw [hnewer]
    obtain hin | hin := List.mem_append.1 hin
    · have hin' := hbetween _ hin
      simp only [List.mem_append, List.mem_cons] at hin' ⊢
      tauto
    · simp [hin]

end Fences

/-- Over any history of calls: the partition is written only behind the fence of its own call,
    where, as far as hashes and encodings are injective, consent and receipt are for this plan and
    no other; the operations of writes increase, so that no plan is written twice; and while the
    receipt of a write is not replaced by a confirmation, no later call writes. -/
theorem boot_write_fenced (hash : Bytes → Str) (encode : BootPlan → Bytes)
    (calls : List (Call × List Answer)) :
    (∀ later plan patched earlier, (history hash encode calls).log = later ++ .write plan patched ::
      earlier → ∃ consent nowMs original before, Fenced hash encode earlier plan patched consent
        nowMs original before ∧
        (hash.Injective → encode.Injective →
          ∀ other : BootPlan, other.sha256 hash encode = consent.planSha256 → other = plan)) ∧
    ((dispatches (history hash encode calls).log).Pairwise fun later earlier =>
      earlier.operation < later.operation) ∧
    (dispatches (history hash encode calls).log).Nodup ∧
    ∀ newer receipt older, (history hash encode calls).log = newer ++ .durable receipt :: older →
      receipt.state = .writing →
      (∀ receipt', .durable receipt' ∈ newer → receipt'.state ≠ .confirmed) →
      ∀ later c rest, newer = later ++ .call c :: rest →
      ∀ plan patched, .write plan patched ∉ later := by
  have hgood := good_history hash encode calls
  refine ⟨fun later plan patched earlier hlog => ?_, hgood.pairwise, ?_, ?_⟩
  · obtain ⟨consent, nowMs, original, before, hfence⟩ :=
      hgood.writes later plan patched earlier hlog
    -- The consent names a digest, and only this plan has it.
    refine ⟨consent, nowMs, original, before, hfence, fun hhash hencode other hother => ?_⟩
    exact hencode (hhash (hother.trans hfence.consent.1))
  · -- Operations increase, so that none is written twice.
    refine hgood.pairwise.imp fun hlt heq => ?_
    rw [heq] at hlt
    exact lt_irrefl _ hlt
  · exact fun newer receipt older hlog hwriting hopen later c rest hnewer =>
      hgood.held hlog hwriting hopen hnewer

section Interrupted

/-! ### A call that is interrupted -/

instance instCountableChar : Countable Char :=
  Function.Injective.countable fun _ _ => Char.toNat_inj.1

instance : Countable (StrMap Str) :=
  Function.Injective.countable fun _ _ => Std.ExtTreeMap.toList_inj.1

deriving instance Countable for RuntimeFamily, KernelPatchObservation, RuntimeEvidence,
  ToolIdentity, AllDisabledQualification, ToolTuple, KernelEvidence, Slot, BootFacts, BootPlan

/-- An encoding that tells plans apart. -/
theorem exists_encode : ∃ encode : BootPlan → Bytes, encode.Injective := by
  obtain ⟨f, hf⟩ := exists_injective_nat BootPlan
  exact ⟨fun p => List.replicate (f p) 0, fun p p' heq =>
    hf (by simpa using congrArg List.length heq)⟩

/-- The bytes as a text. -/
def asText : Bytes → Str := List.map fun b => Char.ofNat b.toNat

theorem asText_injective : asText.Injective := by
  have htoNat : ∀ b : UInt8, (Char.ofNat b.toNat).toNat = b.toNat := by
    intro b
    rw [Char.ofNat, dif_pos (.inl (b.toNat_lt.trans (by decide)))]
    rfl
  refine List.map_injective_iff.2 fun b b' heq => UInt8.toNat_inj.1 ?_
  rw [← htoNat b, ← htoNat b']
  exact congrArg Char.toNat heq

/-- A partition that may be written. -/
def factsA : BootFacts :=
  ⟨['a'], .a, .a, (1, 2), ['u'], 64, some true, some true, some true, some true,
    List.replicate 64 '0'⟩

/-- A tool of one byte. -/
def oneTool : ToolIdentity := ⟨List.replicate 64 '0', 1, List.replicate 40 'a'⟩

/-- A plan for an image of 64 bytes. -/
def onePlan : BootPlan where
  operation := 1
  facts := factsA
  tools := ⟨oneTool, oneTool, oneTool, oneTool, none⟩
  runtime := ⟨['a'], .magisk, List.replicate 64 '0', .absent (List.replicate 64 '0')⟩
  originalSha256 := List.replicate 64 'a'
  originalBytes := 64
  patchedSha256 := List.replicate 64 'b'
  patchedBytes := 64
  kernel :=
    ⟨List.replicate 64 '0', 64, List.replicate 64 '0',
      ((∅ : StrMap Str).insert "CONFIG_KALLSYMS".toList ['y']).insert
        "CONFIG_KALLSYMS_ALL".toList ['y']⟩

/-- A call with it, and with consent. -/
def oneCall (encode : BootPlan → Bytes) : Call :=
  ⟨onePlan, ⟨onePlan.sha256 asText encode, ['a'], 1⟩, 0, List.replicate 64 'b'.toUInt8⟩

/-- The IO of a call that crashes once the partition is written. -/
def untilWritten : List Answer :=
  let observed : List Answer :=
    [.observed (.ok factsA), .original (.ok (List.replicate 64 'a'.toUInt8))]
  [.loaded true] ++ observed ++ [.backedUp (.ok (List.replicate 64 'a'))] ++ observed ++
    [.receipt .synced] ++ observed ++ [.written true]

theorem checkCall_oneCall (encode : BootPlan → Bytes) :
    checkCall asText encode (oneCall encode) = .ok () := by
  have hvalidate : (oneCall encode).plan.validate = .ok () :=
    show onePlan.validate = .ok () by decide +kernel
  have hconsent :
      (decide ((oneCall encode).consent.planSha256 ≠ (oneCall encode).plan.sha256 asText encode) ||
      decide ((oneCall encode).consent.bootId ≠ (oneCall encode).plan.facts.bootId)) = false := by
    simp [oneCall, onePlan, factsA]
  have hpatched : (decide (asText (oneCall encode).patched ≠ (oneCall encode).plan.patchedSha256) ||
      decide ((oneCall encode).patched.length ≠ (oneCall encode).plan.patchedBytes)) = false := by
    have hhash : asText (List.replicate 64 'b'.toUInt8) = onePlan.patchedSha256 := by decide +kernel
    rw [Bool.or_eq_false_iff, decide_eq_false_iff_not, decide_eq_false_iff_not, not_not, not_not]
    exact ⟨hhash, rfl⟩
  rw [checkCall, hvalidate, hconsent, hpatched]
  rfl

/-- What has happened then, newest first. -/
def writtenLog (encode : BootPlan → Bytes) : List Event :=
  let checked : List Event := [.original (List.replicate 64 'a'.toUInt8), .observed factsA]
  [.write onePlan (List.replicate 64 'b'.toUInt8)] ++ checked ++
    [.durable ⟨1, onePlan.sha256 asText encode, .writing, List.replicate 64 'a'⟩] ++ checked ++
    [.backedUp 1 (List.replicate 64 'a'.toUInt8) (List.replicate 64 'a')] ++ checked ++
    [.call (oneCall encode)]

theorem execute_oneCall (encode : BootPlan → Bytes) :
    (execute asText encode (oneCall encode) untilWritten ⟨none, []⟩).state =
      ⟨some ⟨1, onePlan.sha256 asText encode, .writing, List.replicate 64 'a'⟩,
        writtenLog encode⟩ := by
  rw [execute, checkCall_oneCall]
  rfl

/-- Nothing happens in another call. -/
theorem execute_again (encode : BootPlan → Bytes) (log : List Event) :
    (execute asText encode (oneCall encode) untilWritten
      ⟨some ⟨1, onePlan.sha256 asText encode, .writing, List.replicate 64 'a'⟩, log⟩).state =
      ⟨some ⟨1, onePlan.sha256 asText encode, .writing, List.replicate 64 'a'⟩,
        .call (oneCall encode) :: log⟩ := by
  have hresume : resume asText encode (oneCall encode).plan
      (some ⟨1, onePlan.sha256 asText encode, .writing, List.replicate 64 'a'⟩) =
        some (.error .heldUnknown) := by
    simp [resume, oneCall, onePlan]
  have hloaded : execute asText encode (oneCall encode) untilWritten
      ⟨some ⟨1, onePlan.sha256 asText encode, .writing, List.replicate 64 'a'⟩, log⟩ =
      (match resume asText encode (oneCall encode).plan
          (some ⟨1, onePlan.sha256 asText encode, .writing, List.replicate 64 'a'⟩) with
        | some answer => pure answer
        | none => dispatch asText encode (oneCall encode).plan (oneCall encode).patched :
          BootIo (Except ProvisionError WriteReceipt)) untilWritten.tail
        ⟨some ⟨1, onePlan.sha256 asText encode, .writing, List.replicate 64 'a'⟩,
          .call (oneCall encode) :: log⟩ := by
    rw [execute, checkCall_oneCall]
    rfl
  rw [hloaded, hresume]
  rfl

/-- A write that is not confirmed stays the only one, however often it is tried again. -/
theorem boot_write_fenced_interrupted : ∃ encode : BootPlan → Bytes, encode.Injective ∧
    let call := (oneCall encode, untilWritten)
    let log := (history asText encode [call, call, call]).log
    log = [.call (oneCall encode), .call (oneCall encode)] ++ writtenLog encode ∧
      (dispatches log).Nodup ∧
      (∃ consent nowMs original before, Fenced asText encode (writtenLog encode).tail onePlan
        (List.replicate 64 'b'.toUInt8) consent nowMs original before ∧
        ∀ other : BootPlan, other.sha256 asText encode = consent.planSha256 → other = onePlan) ∧
      ∀ plan patched, .write plan patched ∉ [Event.call (oneCall encode)] := by
  obtain ⟨encode, hencode⟩ := exists_encode
  have hlog : history asText encode
      [(oneCall encode, untilWritten), (oneCall encode, untilWritten),
        (oneCall encode, untilWritten)] =
      ⟨some ⟨1, onePlan.sha256 asText encode, .writing, List.replicate 64 'a'⟩,
        [.call (oneCall encode), .call (oneCall encode)] ++ writtenLog encode⟩ := by
    simp only [history, List.foldl_cons, List.foldl_nil, execute_oneCall, execute_again]
    rfl
  obtain ⟨hwrites, -, hnodup, hheld⟩ := boot_write_fenced asText encode
    [(oneCall encode, untilWritten), (oneCall encode, untilWritten), (oneCall encode, untilWritten)]
  rw [hlog] at hwrites hnodup hheld
  obtain ⟨consent, nowMs, original, before, hfence, hplan⟩ :=
    hwrites [.call (oneCall encode), .call (oneCall encode)] onePlan _ (writtenLog encode).tail rfl
  refine ⟨encode, hencode, congrArg Device.log hlog, ?_,
    ⟨consent, nowMs, original, before, hfence, hplan asText_injective hencode⟩, ?_⟩
  · rw [hlog]
    exact hnodup
  · exact hheld
      [.call (oneCall encode), .call (oneCall encode),
        .write onePlan (List.replicate 64 'b'.toUInt8), .original (List.replicate 64 'a'.toUInt8),
        .observed factsA]
      ⟨1, onePlan.sha256 asText encode, .writing, List.replicate 64 'a'⟩ _ rfl rfl
      (by simp) [.call (oneCall encode)] _ _ rfl

end Interrupted

end VpnHide.Provisioning

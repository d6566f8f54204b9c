import Mathlib.Data.List.Perm.Subperm
import VpnHide.Lib.Str

/-!
# The ledger of loader experiments

Before a kernel module is loaded for good, each candidate payload of a boot may be tried once
(`core-daemon/src/journal/preflight.rs`). The ledger of a boot has the plan, which is frozen,
and a receipt for each attempt. Only the last receipt can be unresolved, or report that the
loader refuses modules altogether; so what `PreflightLedger.valid` accepts has at most one
unresolved receipt, and one that has as many receipts as candidates covers all of them
(`PreflightLedger.covers`).
-/

namespace VpnHide.Native

open Lib

/-! ## Strings that identify -/

/-- The length in bytes, as `len()` gives it. -/
def byteLen (s : Str) : ℕ := s.toUtf8.length

/-- A digest: 64 hexadecimal digits, in lower case. -/
def validSha256 (value : Str) : Bool :=
  byteLen value = 64 && value.all fun c => c.isDigit || ('a' ≤ c && c ≤ 'f')

/-- A boot id that can be on record. -/
def validBoot (boot : Str) : Bool := !boot.isEmpty && byteLen boot ≤ 128

/-! ## Plans -/

/-- The kernel interfaces that there are modules for. -/
def kmis : List Str :=
  ["android12-5.10".toList, "android13-5.10".toList, "android13-5.15".toList,
    "android14-5.15".toList, "android14-6.1".toList, "android15-6.6".toList,
    "android16-6.12".toList]

/-- The largest payload. -/
def maxPayloadBytes : ℕ := 128 * 1024 * 1024

/-- The series of a kernel. -/
structure LinuxSeries where
  major : ℕ
  minor : ℕ
  deriving DecidableEq

/-- The series of a kernel release. -/
def series (release : Str) : Option LinuxSeries :=
  if 256 < byteLen release || release.any (fun c => c.toNat < 0x20 || c.toNat = 0x7f) then none
  else
    let version := release.takeWhile (· ≠ '-')
    let parts := version.splitOn '.'
    if parts.length < 2 || 3 < parts.length ||
        parts.any (fun p => p.isEmpty || 5 < byteLen p || !p.all Char.isDigit) then none
    else
      match parts with
      | major :: minor :: _ => do
        some ⟨← Str.fromStrRadix 10 (2 ^ 32 - 1) major, ← Str.fromStrRadix 10 (2 ^ 32 - 1) minor⟩
      | _ => none

/-- What a payload is. -/
inductive PayloadKind
  | kmod (kmi : Str)
  | kpm
  | zygisk (arm64 : Bool)
  deriving DecidableEq

/-- A payload of the catalog. -/
structure Payload where
  implementation : PayloadKind
  version : Str
  sourceCommit : Str
  sha256 : Str
  bytes : ℕ
  controlVersion : ℕ
  preflightProtocol : Option ℕ
  initContract : Option ℕ
  deriving DecidableEq

/-- Control characters, as `char::is_control` has them. -/
def isControl (c : Char) : Bool := c.toNat < 0x20 || (0x7f ≤ c.toNat && c.toNat < 0xa0)

/-- What a preflight is going to try. -/
structure PreflightPlan where
  bootId : Str
  manifestSha256 : Str
  series : LinuxSeries
  candidates : List Payload
  deriving DecidableEq

namespace PreflightPlan

/-- A candidate for kernels of this series, by itself. -/
def validCandidate (linux : LinuxSeries) (p : Payload) (kmi : Str) : Bool :=
  kmis.contains kmi && (Str.splitOnce '-' kmi).any (fun (_, s) => Native.series s = some linux) &&
    p.preflightProtocol = some 1 && p.controlVersion = 2 && 0 < p.bytes &&
      p.bytes ≤ maxPayloadBytes &&
    validSha256 p.sha256 && byteLen p.sourceCommit = 40 &&
    p.sourceCommit.all (fun c => c.isDigit || ('a' ≤ c && c ≤ 'f') || ('A' ≤ c && c ≤ 'F')) &&
    !p.version.isEmpty && byteLen p.version ≤ 128 && !p.version.any isControl

/-- The candidates, none with an interface or a digest that was seen before. -/
def validCandidates (linux : LinuxSeries) (identities hashes : List Str) : List Payload → Bool
  | [] => true
  | p :: rest =>
    match p.implementation with
    | .kmod kmi =>
      validCandidate linux p kmi && !identities.contains kmi && !hashes.contains p.sha256 &&
        validCandidates linux (kmi :: identities) (p.sha256 :: hashes) rest
    | _ => false

/-- The plan is one that a preflight may have. -/
def valid (plan : PreflightPlan) : Bool :=
  validBoot plan.bootId && validSha256 plan.manifestSha256 && !plan.candidates.isEmpty &&
    plan.candidates.length ≤ kmis.length && validCandidates plan.series [] [] plan.candidates

/-- The digests of the candidates. -/
def hashes (plan : PreflightPlan) : List Str := plan.candidates.map (·.sha256)

variable {plan : PreflightPlan}

/-- A valid plan has a candidate. -/
theorem candidates_ne_nil (h : plan.valid) : plan.candidates ≠ [] := by
  intro hnil
  simp [valid, hnil] at h

end PreflightPlan

/-! ## Receipts -/

/-- How the try of a module ends. -/
inductive PreflightCompletion
  | cleanSentinel
  | candidateRejected (errno : ℤ)
  | loaderBlocked (errno : ℤ)
  deriving DecidableEq

/-- How far a try has got. -/
inductive PreflightState
  | running
  | finished (completion : PreflightCompletion)
  | unknown (errno : Option ℤ)
  deriving DecidableEq

/-- The try of a module. -/
structure PreflightAttempt where
  sha256 : Str
  state : PreflightState
  deriving DecidableEq

/-- The plan of a preflight, and what has been tried. -/
structure PreflightLedger where
  plan : PreflightPlan
  attempts : List PreflightAttempt
  deriving DecidableEq

/-- What a preflight shows. -/
inductive LoaderEvidence
  | pending
  | uncertain
  | blocked
  | noSentinel
  | oneSentinel (sha256 : Str)
  | multipleSentinels (sha256 : List Str)
  deriving DecidableEq

namespace PreflightState

/-- It is not known how the attempt ended. -/
def unresolved : PreflightState → Bool
  | running => true
  | unknown _ => true
  | finished _ => false

/-- The loader is blocked. -/
def blocked : PreflightState → Bool
  | finished (.loaderBlocked _) => true
  | _ => false

/-- The states that a receipt may have, the last one or another. -/
def valid (last : Bool) : PreflightState → Bool
  | finished (.candidateRejected errno) => errno = 8
  | finished (.loaderBlocked errno) => last && [1, 13, 38, 126, 129].contains errno
  | unknown (some errno) => last && 0 < errno && errno ≤ 4095
  | running => last
  | unknown none => last
  | finished .cleanSentinel => true

/-- After a restart nothing is under way. -/
def fence : PreflightState → PreflightState
  | running => unknown none
  | state => state

variable {state : PreflightState} {last : Bool}

/-- A state that is valid before the last attempt is neither unresolved nor blocked. -/
theorem not_unresolved_of_valid (h : state.valid false) :
    state.unresolved = false ∧ state.blocked = false := by
  cases state with
  | running => cases h
  | finished c => cases c <;> simp_all [valid, unresolved, blocked]
  | unknown errno => cases errno <;> simp [valid] at h

/-- A state that would do for the last receipt does for any, if it lets one go on. -/
theorem valid_of_not_last (h : state.valid last) (hresolved : state.unresolved = false)
    (hblocked : state.blocked = false) : state.valid false := by
  cases state with
  | running => cases hresolved
  | finished c =>
    cases c with
    | loaderBlocked => cases hblocked
    | cleanSentinel => rfl
    | candidateRejected => exact h
  | unknown => cases hresolved

/-- Fencing keeps a state valid. -/
theorem valid_fence (h : state.valid last) : state.fence.valid last := by
  cases state with
  | running => exact h
  | finished => exact h
  | unknown => exact h

end PreflightState

/-! ## The ledger -/

namespace PreflightLedger

/-- A try is of unknown end. -/
def uncertain (l : PreflightLedger) : Bool := l.attempts.any (·.state.unresolved)

/-- `evidence`: what a preflight shows. -/
def evidence (l : PreflightLedger) : LoaderEvidence :=
  if l.uncertain then .uncertain
  else if l.attempts.any (·.state.blocked) then .blocked
  else if l.attempts.length ≠ l.plan.candidates.length then .pending
  else
    match (l.attempts.filter (·.state = .finished .cleanSentinel)).map (·.sha256) with
    | [] => .noSentinel
    | [sha256] => .oneSentinel sha256
    | successes => .multipleSentinels successes

/-- The receipts, none for a payload that was seen before. -/
def validAttempts (hashes seen : List Str) : List PreflightAttempt → Bool
  | [] => true
  | a :: rest =>
    hashes.contains a.sha256 && !seen.contains a.sha256 && a.state.valid rest.isEmpty &&
      validAttempts hashes (a.sha256 :: seen) rest

/-- The tries are those of the plan, in its order. -/
def valid (l : PreflightLedger) : Bool :=
  l.plan.valid && l.attempts.length ≤ l.plan.candidates.length &&
    validAttempts l.plan.hashes [] l.attempts

/-- No try is under way any more. -/
def fenceUnresolved (l : PreflightLedger) : PreflightLedger :=
  { l with attempts := l.attempts.map fun a => { a with state := a.state.fence } }

/-- The first receipt for a payload gets a state. -/
def setState (sha256 : Str) (state : PreflightState) : List PreflightAttempt → List PreflightAttempt
  | [] => []
  | a :: rest =>
    if a.sha256 = sha256 then { a with state } :: rest else a :: setState sha256 state rest

/-- There is a receipt for the payload, whatever its state. -/
def Attempted (l : PreflightLedger) (sha256 : Str) : Prop := ∃ a ∈ l.attempts, a.sha256 = sha256

/-! ### What a valid ledger is -/

section Valid

variable {hashes seen : List Str} {attempts : List PreflightAttempt} {a : PreflightAttempt}

/-- The attempts are valid if the first one is, under a hash that is new, and the others are. -/
theorem validAttempts_cons :
    validAttempts hashes seen (a :: attempts) ↔
      a.sha256 ∈ hashes ∧ a.sha256 ∉ seen ∧ a.state.valid attempts.isEmpty ∧
        validAttempts hashes (a.sha256 :: seen) attempts := by
  simp [validAttempts, and_assoc]

/-- A receipt is added where those before it let one go on. -/
theorem validAttempts_concat (h : validAttempts hashes seen attempts)
    (hgoes : ∀ a ∈ attempts, a.state.unresolved = false ∧ a.state.blocked = false)
    (ha : a.sha256 ∈ hashes)
    (hseen : a.sha256 ∉ seen) (hfresh : ∀ b ∈ attempts, b.sha256 ≠ a.sha256)
    (hstate : a.state.valid true) :
    validAttempts hashes seen (attempts ++ [a]) := by
  induction attempts generalizing seen with
  | nil => exact validAttempts_cons.2 ⟨ha, hseen, hstate, rfl⟩
  | cons b attempts ih =>
    obtain ⟨hb, hbseen, hbstate, hrest⟩ := validAttempts_cons.1 h
    obtain ⟨hresolved, hblocked⟩ := hgoes b List.mem_cons_self
    rw [List.cons_append]
    refine validAttempts_cons.2 ⟨hb, hbseen, ?_, ?_⟩
    · have hlast : (attempts ++ [a]).isEmpty = false := by simp
      rw [hlast]
      exact PreflightState.valid_of_not_last hbstate hresolved hblocked
    · refine ih hrest (fun c hc => hgoes c (List.mem_cons_of_mem b hc)) ?_
        fun c hc => hfresh c (List.mem_cons_of_mem b hc)
      rw [List.mem_cons, not_or]
      exact ⟨(hfresh b List.mem_cons_self).symm, hseen⟩

/-- Fencing keeps the attempts valid. -/
theorem validAttempts_fence (h : validAttempts hashes seen attempts) :
    validAttempts hashes seen (attempts.map fun a => { a with state := a.state.fence }) := by
  induction attempts generalizing seen with
  | nil => rfl
  | cons a attempts ih =>
    obtain ⟨ha, hseen, hstate, hrest⟩ := validAttempts_cons.1 h
    refine validAttempts_cons.2 ⟨ha, hseen, ?_, ih hrest⟩
    rw [List.isEmpty_map]
    exact PreflightState.valid_fence hstate

/-- Valid attempts name distinct candidates of the plan. -/
theorem validAttempts_nodup (h : validAttempts hashes seen attempts) :
    (attempts.map (·.sha256)).Nodup ∧ (∀ a ∈ attempts, a.sha256 ∉ seen) ∧
      ∀ a ∈ attempts, a.sha256 ∈ hashes := by
  induction attempts generalizing seen with
  | nil => simp
  | cons a attempts ih =>
    obtain ⟨ha, hseen, -, hrest⟩ := validAttempts_cons.1 h
    obtain ⟨hnodup, hold, hmem⟩ := ih hrest
    refine ⟨List.nodup_cons.2 ⟨fun hcon => ?_, hnodup⟩, fun b hb => ?_,
      List.forall_mem_cons.2 ⟨ha, hmem⟩⟩
    · obtain ⟨b, hb, heq⟩ := List.mem_map.1 hcon
      exact hold b hb (heq ▸ List.mem_cons_self)
    · obtain rfl | hb := List.mem_cons.1 hb
      · exact hseen
      · exact fun hmem => hold b hb (List.mem_cons_of_mem _ hmem)

/-- Only the last receipt can be unresolved. -/
theorem length_filter_unresolved_le (h : validAttempts hashes seen attempts) :
    (attempts.filter (·.state.unresolved)).length ≤ 1 := by
  induction attempts generalizing seen with
  | nil => exact Nat.zero_le 1
  | cons a attempts ih =>
    obtain ⟨-, -, hstate, hrest⟩ := validAttempts_cons.1 h
    cases attempts with
    | nil => exact List.length_filter_le _ _
    | cons b attempts =>
      have ha : a.state.unresolved = false := (PreflightState.not_unresolved_of_valid hstate).1
      rw [List.filter_cons_of_neg (by simp [ha])]
      exact ih hrest

end Valid

variable {l : PreflightLedger}

/-- What a valid ledger is. -/
theorem valid_iff :
    l.valid ↔ l.plan.valid ∧ l.attempts.length ≤ l.plan.candidates.length ∧
      validAttempts l.plan.hashes [] l.attempts := by
  simp [valid, and_assoc]

/-- Fencing keeps a ledger valid. -/
theorem valid_fenceUnresolved (h : l.valid) : l.fenceUnresolved.valid := by
  obtain ⟨hplan, hlen, hattempts⟩ := valid_iff.1 h
  refine valid_iff.2 ⟨hplan, ?_, validAttempts_fence hattempts⟩
  rw [fenceUnresolved, List.length_map]
  exact hlen

/-- A ledger with as many receipts as candidates has one for each of them. -/
theorem covers (h : l.valid) (hlen : l.attempts.length = l.plan.candidates.length) :
    ∀ p ∈ l.plan.candidates, l.Attempted p.sha256 := by
  obtain ⟨hplan, -, hattempts⟩ := valid_iff.1 h
  obtain ⟨hnodup, -, hmem⟩ := validAttempts_nodup hattempts
  have hsub : l.attempts.map (·.sha256) ⊆ l.plan.hashes := fun s hs => by
    obtain ⟨a, ha, rfl⟩ := List.mem_map.1 hs
    exact hmem a ha
  have hperm : (l.attempts.map (·.sha256)).Perm l.plan.hashes := by
    refine (List.subperm_of_subset hnodup hsub).perm_of_length_le ?_
    rw [PreflightPlan.hashes, List.length_map, List.length_map, hlen]
  intro p hp
  obtain ⟨a, ha, heq⟩ := List.mem_map.1 (hperm.mem_iff.2 (List.mem_map_of_mem hp))
  exact ⟨a, ha, heq⟩

/-- What evidence of one sentinel says. -/
theorem of_evidence_eq_oneSentinel {sha256 : Str} (h : l.evidence = .oneSentinel sha256) :
    l.uncertain = false ∧ l.attempts.length = l.plan.candidates.length ∧
      (l.attempts.filter (·.state = .finished .cleanSentinel)).map (·.sha256) = [sha256] := by
  unfold evidence at h
  split at h
  · cases h
  next huncertain =>
  split at h
  · cases h
  split at h
  · cases h
  next hlen =>
  refine ⟨by simpa using huncertain, not_not.1 hlen, ?_⟩
  split at h
  · cases h
  next heq =>
    cases h
    exact heq
  · cases h

/-! ### What the operations keep -/

section SetState

variable {sha256 : Str} {state : PreflightState} {attempts : List PreflightAttempt}

/-- Settling an attempt changes no hash. -/
theorem map_sha256_setState :
    (setState sha256 state attempts).map (·.sha256) = attempts.map (·.sha256) := by
  induction attempts with
  | nil => rfl
  | cons a attempts ih =>
    rw [setState]
    split_ifs with ha
    · rfl
    · rw [List.map_cons, List.map_cons, ih]

/-- Where the receipt that gets a state is not finished, those that are stay. -/
theorem mem_setState {b : PreflightAttempt}
    (hfind : ∀ a, attempts.find? (·.sha256 = sha256) = some a → a ≠ b) (hb : b ∈ attempts) :
    b ∈ setState sha256 state attempts := by
  induction attempts with
  | nil => exact absurd hb List.not_mem_nil
  | cons a attempts ih =>
    rw [setState]
    split_ifs with ha
    · obtain rfl | hb := List.mem_cons.1 hb
      · exact absurd rfl (hfind b (List.find?_cons_of_pos (by simpa using ha)))
      · exact List.mem_cons_of_mem _ hb
    · obtain rfl | hb := List.mem_cons.1 hb
      · exact List.mem_cons_self
      · refine List.mem_cons_of_mem _ (ih (fun c hc => hfind c ?_) hb)
        rw [List.find?_cons_of_neg (by simpa using ha)]
        exact hc

end SetState

end PreflightLedger

end VpnHide.Native

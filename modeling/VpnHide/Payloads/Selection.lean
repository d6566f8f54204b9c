import VpnHide.Daemon.Journal
import VpnHide.Payloads.Kmi

/-!
# Selecting a backend

`assess_choice` of `core-daemon/src/payloads/selection.rs` decides which native backend is to be
activated, from the catalog, what the device offers, what the policy of each backend requires, and
what each backend supports.

A backend is selected only if nothing is resident, it was asked for, one requirement and one
support entry are there for it, and the second covers the first; a kernel module only for the
one KMI that nothing contradicts (`Input.selected_of_select`). The order in which the evidence
comes does not matter (`Input.sameVerdict_of_permuted`).
-/

namespace VpnHide.Payloads

open Lib Native Artifact Daemon

/-- Whether a backend could run. -/
inductive Runtime
  | ready
  | absent
  | authenticationRequired
  | unsupported
  | unknown
  deriving DecidableEq

/-- Whom the hooks belong to now. -/
inductive Ownership
  | clear
  | resident (backend : NativeBackend)
  | foreign
  | unknown
  deriving DecidableEq

/-- What is known of the device. -/
structure Capabilities where
  arm64 : Bool
  kernelRelease : Str
  kernelMachine : Str
  moduleEvidence : Observation
  builtin : Runtime
  moduleLoading : Runtime
  kpm : Runtime
  zygisk : Runtime
  needsArm32Zygisk : Bool
  ownership : Ownership

/-- What is asked of a backend. -/
structure Policy where
  resolved : Bool
  targets : UInt32
  wireBytes : UInt32
  defaultMask : UInt32
  requiredHooks : UInt32
  deriving DecidableEq

/-- What a backend can do. -/
structure Support where
  hooks : UInt32
  targetCapacity : UInt32
  wireCapacity : UInt32
  defaultMask : Bool
  deriving DecidableEq

/-- Why a backend is not eligible. -/
inductive Rejection
  | missingPayload
  | wrongArchitecture
  | unknownKmi
  | noMatchingKmi
  | ambiguousKmi
  | conflictingKmiEvidence
  | runtimeAbsent
  | authenticationRequired
  | unsupportedRuntime
  | runtimeUnknown
  | policyUnresolved
  | coverageUnknown
  | requiredHooksMissing
  | targetCapacity
  | wireCapacity
  | defaultMaskUnsupported
  deriving DecidableEq

/-- A backend with its payloads, and whether it is eligible. -/
structure Candidate where
  backend : NativeBackend
  payloadIndices : List ℕ
  eligibility : Except Rejection Unit

/-- What is decided. -/
inductive Decision
  | select (backend : NativeBackend)
  | reconcileResident (backend : NativeBackend)
  | blockedOwnership
  | noEligibleCandidate
  deriving DecidableEq

/-- All backends, and what is decided. -/
structure Assessment where
  kmi : KmiResolution
  candidates : List Candidate
  decision : Decision

/-! ## Eligibility -/

/-- Why a backend could not run, if so. -/
def runtimeReady : Runtime → Except Rejection Unit
  | .ready => .ok ()
  | .absent => .error .runtimeAbsent
  | .authenticationRequired => .error .authenticationRequired
  | .unsupported => .error .unsupportedRuntime
  | .unknown => .error .runtimeUnknown

/-- A payload is for a backend. -/
def payloadMatches (device : Capabilities) (kmi : KmiResolution) (backend : NativeBackend)
    (p : Payload) (index : ℕ) : Bool :=
  match p.implementation, backend with
  | .kmod _, .kmod => kmi.candidates.any (·.payloadIndex = index)
  | .kpm, .kpm => true
  | .zygisk arm64, .zygisk =>
    arm64 == device.arm64 || (device.arm64 && device.needsArm32Zygisk && !arm64)
  | _, _ => false

/-- The payloads of a backend, and whether it can be loaded. -/
def available (m : Manifest) (device : Capabilities) (kmi : KmiResolution)
    (backend : NativeBackend) :
    List ℕ × Except Rejection Unit :=
  let indices := m.payloads.zipIdx.filterMap fun (payload, index) =>
    if payloadMatches device kmi backend payload index then some index else none
  let kernel := backend == .kmod || backend == .kpm
  let result :=
    if backend = .builtin then .ok ()
    else if kernel && !device.arm64 then .error .wrongArchitecture
    else if kernel && device.kernelMachine.isEmpty then .error .runtimeUnknown
    else if kernel && device.kernelMachine != "aarch64".toList then .error .wrongArchitecture
    else if backend == .kmod && kmi.series.isNone then .error .unknownKmi
    else if backend == .kmod && indices.isEmpty then .error .noMatchingKmi
    else if backend == .kmod &&
        (kmi.conflictingHints ||
          (kmi.releaseHint.isSome && !kmi.candidates.any (·.matchesReleaseHint))) then
      .error .conflictingKmiEvidence
    else if backend == .kmod && indices.length != 1 then .error .ambiguousKmi
    else if backend == .zygisk && indices.length !=
      (if device.arm64 && device.needsArm32Zygisk then 2 else 1) then
      .error .missingPayload
    else if indices.isEmpty then .error .missingPayload
    else .ok ()
  (indices, result)

/-- The runtime of a backend. -/
def runtimeOf (device : Capabilities) : NativeBackend → Runtime
  | .builtin => device.builtin
  | .kmod => device.moduleLoading
  | .kpm => device.kpm
  | .zygisk => device.zygisk

/-- What a policy requires is supported. -/
def covered (backend : NativeBackend) (policy : Policy) (evidence : Support) :
    Except Rejection Unit :=
  if policy.defaultMask != 0 && (!evidence.defaultMask || backend == .zygisk) then
    .error .defaultMaskUnsupported
  else if evidence.targetCapacity < policy.targets then .error .targetCapacity
  else if evidence.wireCapacity < policy.wireBytes then .error .wireCapacity
  else if policy.requiredHooks &&& ~~~evidence.hooks != 0 then .error .requiredHooksMissing
  else .ok ()

/-- The entries of a backend. -/
def entriesOf {α : Type} (backend : NativeBackend) (entries : List (NativeBackend × α)) : List α :=
  (entries.filter (·.1 = backend)).map Prod.snd

/-- The first entry, if there is no second one. -/
def onlyOne {α : Type} : List α → Option α
  | [a] => some a
  | _ => none

/-- The policy of a backend, against what it supports. -/
def projected (requirements : List (NativeBackend × Policy))
    (support : List (NativeBackend × Support)) (backend : NativeBackend) : Except Rejection Unit :=
  match onlyOne (entriesOf backend requirements) with
  | none => .error .policyUnresolved
  | some policy =>
    if !policy.resolved then .error .policyUnresolved
    else
      match onlyOne (entriesOf backend support) with
      | none => .error .coverageUnknown
      | some evidence => covered backend policy evidence

/-- `candidate`: a backend with its payloads. -/
def candidate (m : Manifest) (device : Capabilities) (kmi : KmiResolution)
    (requirements : List (NativeBackend × Policy)) (support : List (NativeBackend × Support))
    (backend : NativeBackend) : Candidate :=
  let (indices, availability) := available m device kmi backend
  -- What is resident in the kernel is not loaded again.
  let resident := decide (device.ownership = .resident backend) && backend != .zygisk
  let availability := if resident then .ok () else availability
  let runtime := if resident then .ready else runtimeOf device backend
  { backend := backend
    payloadIndices := indices
    eligibility := do
      availability
      runtimeReady runtime
      projected requirements support backend }

/-! ## Choice -/

/-- The backends in the order in which they are considered. -/
def backends : List NativeBackend := [.builtin, .kmod, .kpm, .zygisk]

/-- The backend is asked for. -/
def requested : BackendChoice → NativeBackend → Bool
  | .auto, b => b == .builtin || b == .kmod
  | .fixed backend, b => b == backend

/-- What is decided about the candidates. -/
def decisionOf (ownership : Ownership) (choice : BackendChoice) (candidates : List Candidate) :
    Decision :=
  match ownership with
  | .resident backend => .reconcileResident backend
  | .unknown => .blockedOwnership
  | .foreign => .blockedOwnership
  | .clear =>
    match candidates.find? fun c => requested choice c.backend && c.eligibility.isOk with
    | some c => .select c.backend
    | none => .noEligibleCandidate

/-- All that a selection depends on. -/
structure Input where
  manifest : Manifest
  device : Capabilities
  requirements : List (NativeBackend × Policy)
  support : List (NativeBackend × Support)
  choice : BackendChoice

/-- `assess_choice`: the candidates of a device, and what is decided. -/
def assessChoice (i : Input) : Except String Assessment := do
  i.manifest.validate
  let kmi ← resolveWithModules i.manifest i.device.kernelRelease i.device.moduleEvidence
  let candidates := backends.map (candidate i.manifest i.device kmi i.requirements i.support)
  .ok {
    kmi := kmi, candidates := candidates,
    decision := decisionOf i.device.ownership i.choice candidates }

/-! ## What is selected -/

/-- A resolved policy, and a backend that supports what it requires. -/
structure Covers (backend : NativeBackend) (policy : Policy) (evidence : Support) : Prop where
  resolved : policy.resolved = true
  hooks : policy.requiredHooks &&& ~~~evidence.hooks = 0
  targets : policy.targets ≤ evidence.targetCapacity
  wireBytes : policy.wireBytes ≤ evidence.wireCapacity
  defaultMask : policy.defaultMask ≠ 0 → evidence.defaultMask = true ∧ backend ≠ .zygisk

theorem onlyOne_eq_some {α : Type} {l : List α} {a : α} (h : onlyOne l = some a) : l = [a] := by
  match l, h with
  | [b], h => rw [Option.some.inj h]

theorem onlyOne_perm {α : Type} {l l' : List α} (h : l.Perm l') : onlyOne l = onlyOne l' := by
  match l with
  | [] => rw [h.symm.eq_nil]
  | [a] => rw [List.singleton_perm.1 h]
  | a :: b :: t =>
    match l', h.length_eq with
    | a' :: b' :: t', _ => rfl

theorem onlyOne_entriesOf_perm {α : Type} (b : NativeBackend) {l l' : List (NativeBackend × α)}
    (h : l.Perm l') :
    onlyOne (entriesOf b l) = onlyOne (entriesOf b l') := onlyOne_perm ((h.filter _).map Prod.snd)

theorem covers_of_projected {requirements : List (NativeBackend × Policy)}
    {support : List (NativeBackend × Support)} {b : NativeBackend}
    (h : projected requirements support b = .ok ()) :
    ∃ policy evidence, entriesOf b requirements = [policy] ∧ entriesOf b support = [evidence] ∧
      Covers b policy evidence := by
  rw [projected] at h
  cases hpolicy : onlyOne (entriesOf b requirements) with
  | none =>
    rw [hpolicy] at h
    cases h
  | some policy =>
    rw [hpolicy] at h
    dsimp only at h
    split_ifs at h with hresolved
    cases hevidence : onlyOne (entriesOf b support) with
    | none =>
      rw [hevidence] at h
      cases h
    | some evidence =>
      rw [hevidence] at h
      dsimp only [covered] at h
      split_ifs at h with hmask htargets hwire hhooks
      refine ⟨policy, evidence, onlyOne_eq_some hpolicy, onlyOne_eq_some hevidence,
        by simpa using hresolved,
        by simpa using hhooks, UInt32.not_lt.1 htargets, UInt32.not_lt.1 hwire, fun hne => ?_⟩
      simpa [hne] using hmask

section Available

variable {m : Manifest} {device : Capabilities} {observed : Observation}
  {r : KmiResolution} {b : NativeBackend}

/-- A payload is for a backend at an index. -/
theorem mem_available {i : ℕ} :
    i ∈ (available m device r b).1 ↔
      ∃ p, m.payloads[i]? = some p ∧ payloadMatches device r b p i = true := by
  rw [available, List.mem_filterMap]
  constructor
  · rintro ⟨⟨p, j⟩, hmem, hsome⟩
    dsimp only at hsome
    split_ifs at hsome with hmatches
    obtain rfl := Option.some.inj hsome
    exact ⟨p, List.mem_zipIdx_iff_getElem?.1 hmem, hmatches⟩
  · rintro ⟨p, hp, hmatches⟩
    exact ⟨(p, i), List.mem_zipIdx_iff_getElem?.2 hp, if_pos hmatches⟩

theorem nodup_available : (available m device r b).1.Nodup := by
  have h := pairwise_filterMap_zipIdx (fun p i => if payloadMatches device r b p i then
    some i else none) id
    (fun p i j hj => by
      split_ifs at hj
      · exact (Option.some.inj hj).symm
      · cases hj) m.payloads 0
  rw [List.map_id] at h
  exact h.1.imp fun hlt => Nat.ne_of_lt hlt

/-- The payloads for a kernel module are the candidates. -/
theorem length_available_kmod {release : Str} (h : Resolved m release observed r) :
    (available m device r .kmod).1.length = r.candidates.length := by
  have hmem : ∀ i, i ∈ (available m device r .kmod).1 ↔
      i ∈ r.candidates.map KmiCandidate.payloadIndex := by
    intro i
    rw [mem_available]
    constructor
    · rintro ⟨p, -, hmatches⟩
      have hany : (r.candidates.any fun c => c.payloadIndex = i) = true := by
        unfold payloadMatches at hmatches
        cases hkind : p.implementation with
        | kmod kmi => rwa [hkind] at hmatches
        | kpm =>
          rw [hkind] at hmatches
          cases hmatches
        | zygisk arm64 =>
          rw [hkind] at hmatches
          cases hmatches
      obtain ⟨c, hc, hi⟩ := List.any_eq_true.1 hany
      exact List.mem_map.2 ⟨c, hc, of_decide_eq_true hi⟩
    · intro hi
      obtain ⟨p, kmi, hp, hkmi, -⟩ := (h.candidates.mem_iff i).1 hi
      refine ⟨p, hp, ?_⟩
      obtain ⟨c, hc, rfl⟩ := List.mem_map.1 hi
      rw [candidateKmi] at hkmi
      split at hkmi
      · next hkind =>
        unfold payloadMatches
        rw [hkind]
        exact List.any_eq_true.2 ⟨c, hc, decide_eq_true rfl⟩
      · cases hkmi
  rw [← List.length_map KmiCandidate.payloadIndex]
  exact (List.perm_ext_iff_of_nodup nodup_available h.candidates.nodup |>.2 hmem).length_eq

/-- A kernel module is available only for one candidate, that nothing contradicts. -/
theorem available_kmod {release : Str} (h : Resolved m release observed r)
    (hok : (available m device r .kmod).2 = .ok ()) :
    ∃ c, r.candidates = [c] ∧ r.conflictingHints = false ∧
      ∀ hint ∈ r.releaseHint, c.kmi = hint := by
  have hlen := @length_available_kmod _ device _ _ _ h
  unfold available at hok hlen
  dsimp only at hok hlen
  have hzygisk : (NativeBackend.kmod == .zygisk) = false := rfl
  simp only [beq_self_eq_true, Bool.true_or, Bool.true_and, reduceCtorEq, if_false, hzygisk,
    Bool.false_and, Bool.false_eq_true] at hok
  split_ifs at hok with harch hmachine haarch hseries hempty hconflict hone
  rw [hlen, bne_iff_ne, not_not] at hone
  obtain ⟨c, hc⟩ := List.length_eq_one_iff.1 hone
  rw [Bool.or_eq_true, not_or, Bool.not_eq_true] at hconflict
  refine ⟨c, hc, hconflict.1, fun hint hhint => ?_⟩
  have hmatches := h.candidates.matches_eq c (by rw [hc]; exact List.mem_singleton_self c)
  have hrelease : r.releaseHint = some hint := hhint
  rw [hrelease, hc] at hconflict
  rw [← h.releaseHint, hrelease] at hmatches
  by_contra hne
  have hfalse : c.matchesReleaseHint = false := by
    rw [hmatches, decide_eq_false]
    exact fun heq => hne (Option.some.inj heq).symm
  exact hconflict.2 (by simp [hfalse])

end Available

namespace Input

variable (i j : Input)

/-- What the release says, and the modules. -/
def releaseHint : Option Str := (releaseHints i.device.kernelRelease).2.1

/-- The interface that the loaded modules agree on. -/
def moduleHint : Option Str :=
  (moduleHints i.device.kernelRelease (!i.device.moduleEvidence.incomplete)
    i.device.moduleEvidence.modules).1

/-- The hints are at odds. -/
def conflicting : Bool :=
  (releaseHints i.device.kernelRelease).2.2 ||
    (moduleHints i.device.kernelRelease (!i.device.moduleEvidence.incomplete)
      i.device.moduleEvidence.modules).2

/-- The KMIs of the catalog that are of the series of the kernel. -/
def seriesKmis : List Str :=
  agreedKmis (releaseHints i.device.kernelRelease).1 none i.manifest.payloads

/-- Those of them that the modules agree on, if they do. -/
def moduleKmis : List Str :=
  agreedKmis (releaseHints i.device.kernelRelease).1 i.moduleHint i.manifest.payloads

/-- What a backend is selected for; a kernel module, if there is one among `kmis`. -/
structure Selected (kmis : List Str) (b : NativeBackend) : Prop where
  clear : i.device.ownership = .clear
  choice : i.choice = .fixed b ∨ i.choice = .auto ∧ (b = .builtin ∨ b = .kmod)
  covered : ∃ policy evidence, entriesOf b i.requirements = [policy] ∧
    entriesOf b i.support = [evidence] ∧ Covers b policy evidence
  kmod : b = .kmod → ∃ kmi, kmis = [kmi] ∧ i.conflicting = false ∧
    (∀ hint ∈ i.releaseHint, kmi = hint) ∧ ∀ hint ∈ i.moduleHint, kmi = hint

/-- A backend is selected only if this holds. -/
def Sound (kmis : Input → List Str) : Prop :=
  ∀ a b, assessChoice i = .ok a → a.decision = .select b → i.Selected (kmis i) b

variable {i j}

theorem assessChoice_eq_ok {a : Assessment} (h : assessChoice i = .ok a) :
    Resolved i.manifest i.device.kernelRelease i.device.moduleEvidence a.kmi ∧
      a.candidates = backends.map (candidate i.manifest i.device a.kmi i.requirements i.support) ∧
      a.decision = decisionOf i.device.ownership i.choice a.candidates := by
  rw [assessChoice] at h
  cases hvalid : i.manifest.validate with
  | error e =>
    rw [hvalid] at h
    cases h
  | ok u =>
    rw [hvalid] at h
    dsimp only [bind, Except.bind] at h
    cases hkmi : resolveWithModules i.manifest i.device.kernelRelease i.device.moduleEvidence with
    | error e =>
      rw [hkmi] at h
      cases h
    | ok kmi =>
      rw [hkmi] at h
      obtain rfl := Except.ok.inj h
      exact ⟨resolveWithModules_spec hkmi, rfl, rfl⟩

/-- It is assessed what has an accepted catalog. -/
theorem assessChoice_ok_iff : (∃ a, assessChoice i = .ok a) ↔ i.manifest.Valid := by
  constructor
  · rintro ⟨a, h⟩
    exact (assessChoice_eq_ok h).1.valid
  · intro hvalid
    obtain ⟨kmi, hkmi⟩ :=
      (@resolveWithModules_eq_ok i.manifest i.device.kernelRelease i.device.moduleEvidence).2 hvalid
    rw [assessChoice, Manifest.validate_eq_ok_iff.2 hvalid]
    dsimp only [bind, Except.bind]
    rw [hkmi]
    exact ⟨_, rfl⟩

/-- What is eligible when nothing is resident. -/
theorem eligible {kmi : KmiResolution} {b : NativeBackend} (hclear : i.device.ownership = .clear)
    (h : (candidate i.manifest i.device kmi i.requirements i.support b).eligibility.isOk = true) :
    (available i.manifest i.device kmi b).2 = .ok () ∧
      projected i.requirements i.support b = .ok () := by
  have hresident : (decide (i.device.ownership = .resident b) && b != .zygisk) = false := by
    rw [hclear]
    rfl
  unfold candidate at h
  dsimp only at h
  rw [hresident] at h
  simp only [Bool.false_eq_true, if_false, bind, Except.bind] at h
  cases havailable : (available i.manifest i.device kmi b).2 with
  | error e =>
    rw [havailable] at h
    cases h
  | ok u =>
    rw [havailable] at h
    dsimp only at h
    cases hruntime : runtimeReady (runtimeOf i.device b) with
    | error e =>
      rw [hruntime] at h
      cases h
    | ok v =>
      rw [hruntime] at h
      dsimp only at h
      cases hprojected : projected i.requirements i.support b with
      | error e =>
        rw [hprojected] at h
        cases h
      | ok w => exact ⟨rfl, rfl⟩

/-- A backend is selected only if nothing is resident, it was asked for, and what it is required to
    do is supported; a kernel module only for one KMI. -/
theorem selected_of_select : i.Sound moduleKmis := by
  intro a b h hselect
  obtain ⟨hresolved, hcandidates, hdecision⟩ := assessChoice_eq_ok h
  rw [hselect, hcandidates] at hdecision
  unfold decisionOf at hdecision
  -- A device that is not clear gets no backend.
  cases hclear : i.device.ownership with
  | resident b' =>
    rw [hclear] at hdecision
    cases hdecision
  | foreign =>
    rw [hclear] at hdecision
    cases hdecision
  | unknown =>
    rw [hclear] at hdecision
    cases hdecision
  | clear =>
    rw [hclear, List.find?_map] at hdecision
    dsimp only at hdecision
    -- The backend is the first one that was asked for and is eligible.
    cases hfind : backends.find? ((fun c => requested i.choice c.backend && c.eligibility.isOk) ∘
        candidate i.manifest i.device a.kmi i.requirements i.support) with
    | none =>
      rw [hfind] at hdecision
      cases hdecision
    | some b' =>
      rw [hfind] at hdecision
      obtain rfl : b = b' := Decision.select.inj hdecision
      have hfound := List.find?_some hfind
      rw [Function.comp_apply, Bool.and_eq_true] at hfound
      obtain ⟨havailable, hprojected⟩ := eligible hclear hfound.2
      refine ⟨hclear, ?_, covers_of_projected hprojected, ?_⟩
      · have hrequested : requested i.choice b = true := hfound.1
        cases hchoice : i.choice with
        | auto =>
          rw [hchoice, requested, Bool.or_eq_true, beq_iff_eq, beq_iff_eq] at hrequested
          exact .inr ⟨rfl, hrequested⟩
        | fixed b' =>
          rw [hchoice, requested, beq_iff_eq] at hrequested
          rw [hrequested]
          exact .inl rfl
      · rintro rfl
        obtain ⟨c, hc, hconflict, hrelease⟩ := available_kmod hresolved havailable
        have hkmis := hresolved.candidates.kmis
        rw [hc] at hkmis
        have hone : i.moduleKmis = [c.kmi] := List.perm_singleton.1 hkmis.symm
        refine ⟨c.kmi, hone, hresolved.conflictingHints.symm.trans hconflict,
          fun hint hhint => hrelease hint (hresolved.releaseHint.trans hhint), fun hint hhint => ?_⟩
        have hmem : c.kmi ∈ i.moduleKmis := by
          rw [hone]
          exact List.mem_singleton_self _
        have hagreed := (List.mem_filter.1 hmem).2
        rw [show i.moduleHint = some hint from hhint] at hagreed
        exact (of_decide_eq_true hagreed).symm

/-! ## Order -/

/-- The same evidence in another order. -/
structure Permuted (i j : Input) : Prop where
  schema : i.manifest.schema = j.manifest.schema
  bundleCommit : i.manifest.bundleCommit = j.manifest.bundleCommit
  payloads : i.manifest.payloads.Perm j.manifest.payloads
  device : ∃ modules, i.device.moduleEvidence.modules.Perm modules ∧
    j.device = { i.device with moduleEvidence := { i.device.moduleEvidence with modules := modules }
      }
  requirements : i.requirements.Perm j.requirements
  support : i.support.Perm j.support
  choice : i.choice = j.choice

/-- Both are refused, or decided in the same way for the same reasons. -/
inductive SameVerdict : Except String Assessment → Except String Assessment → Prop
  | refused (e e' : String) : SameVerdict (.error e) (.error e')
  | assessed {a a' : Assessment} (decision : a.decision = a'.decision)
      (kmis : (a.kmi.candidates.map KmiCandidate.kmi).Perm (a'.kmi.candidates.map KmiCandidate.kmi))
      (conflictingHints : a.kmi.conflictingHints = a'.kmi.conflictingHints) :
        SameVerdict (.ok a) (.ok a')

/-- How many payloads are for a backend, other than a kernel module. -/
theorem length_available {m : Manifest} {device : Capabilities} {kmi : KmiResolution}
    {b : NativeBackend} (hb : b ≠ .kmod) :
    (available m device kmi b).1.length = m.payloads.countP fun p =>
      payloadMatches device kmi b p 0 := by
  have hindex : ∀ p k, payloadMatches device kmi b p k = payloadMatches device kmi b p 0 := by
    intro p k
    unfold payloadMatches
    cases p.implementation <;> cases b <;> first | rfl | exact absurd rfl hb
  have hcount : ∀ (ps : List Payload) n, ((ps.zipIdx n).filterMap fun x =>
      if payloadMatches device kmi b x.1 x.2 then some x.2 else none).length =
        ps.countP fun p => payloadMatches device kmi b p 0 := by
    intro ps
    induction ps with
    | nil => exact fun _ => rfl
    | cons p ps ih =>
      intro n
      rw [List.zipIdx_cons, List.filterMap_cons, List.countP_cons]
      dsimp only
      rw [hindex p n]
      by_cases hp : payloadMatches device kmi b p 0 = true
      · rw [if_pos hp, if_pos hp]
        dsimp only
        rw [List.length_cons, ih]
      · rw [if_neg hp, if_neg hp]
        exact ih (n + 1)
  exact hcount m.payloads 0

section Permuted

variable {r r' : KmiResolution}

theorem Permuted.releaseHints_eq (h : i.Permuted j) :
    releaseHints j.device.kernelRelease = releaseHints i.device.kernelRelease ∧
      moduleHints j.device.kernelRelease (!j.device.moduleEvidence.incomplete)
        j.device.moduleEvidence.modules =
        moduleHints i.device.kernelRelease (!i.device.moduleEvidence.incomplete)
          i.device.moduleEvidence.modules := by
  obtain ⟨modules, hmodules, hdevice⟩ := h.device
  rw [hdevice]
  exact ⟨rfl, (moduleHints_perm _ _ hmodules).symm⟩

/-- The candidates have the same KMIs. -/
theorem Permuted.kmis (h : i.Permuted j)
    (hr : Resolved i.manifest i.device.kernelRelease i.device.moduleEvidence r)
    (hr' : Resolved j.manifest j.device.kernelRelease j.device.moduleEvidence r') :
    (r.candidates.map KmiCandidate.kmi).Perm (r'.candidates.map KmiCandidate.kmi) := by
  obtain ⟨hrelease, hmodules⟩ := h.releaseHints_eq
  have hkmis' := hr'.candidates.kmis
  rw [hrelease, hmodules] at hkmis'
  exact hr.candidates.kmis.trans (((h.payloads.filterMap _).filter _).trans hkmis'.symm)

theorem Permuted.any_matches (h : i.Permuted j)
    (hr : Resolved i.manifest i.device.kernelRelease i.device.moduleEvidence r)
    (hr' : Resolved j.manifest j.device.kernelRelease j.device.moduleEvidence r') :
    r.candidates.any (·.matchesReleaseHint) = r'.candidates.any (·.matchesReleaseHint) := by
  have hany : ∀ {release : Option Str} {cs : List KmiCandidate},
      (∀ c ∈ cs, c.matchesReleaseHint = decide (release = some c.kmi)) →
        cs.any (·.matchesReleaseHint) = (cs.map KmiCandidate.kmi).any fun kmi =>
          release = some kmi := by
    intro release cs hcs
    rw [List.any_map, Bool.eq_iff_iff, List.any_eq_true, List.any_eq_true]
    refine exists_congr fun c => and_congr_right fun hc => ?_
    rw [hcs c hc]
    rfl
  have hmatches' := hr'.candidates.matches_eq
  rw [h.releaseHints_eq.1] at hmatches'
  rw [hany hr.candidates.matches_eq, hany hmatches']
  exact (h.kmis hr hr').any_eq

/-- A backend is available, or not for the same reason. -/
theorem Permuted.available_eq (h : i.Permuted j)
    (hr : Resolved i.manifest i.device.kernelRelease i.device.moduleEvidence r)
    (hr' : Resolved j.manifest j.device.kernelRelease j.device.moduleEvidence r')
    (b : NativeBackend) :
    (available j.manifest j.device r' b).2 = (available i.manifest i.device r b).2 := by
  obtain ⟨hrelease, hmodules⟩ := h.releaseHints_eq
  have hseries : r'.series = r.series := by rw [hr.series, hr'.series, hrelease]
  have hhint : r'.releaseHint = r.releaseHint := by rw [hr.releaseHint, hr'.releaseHint, hrelease]
  have hconflict : r'.conflictingHints = r.conflictingHints := by
    rw [hr.conflictingHints, hr'.conflictingHints, hrelease, hmodules]
  have hlength :
      (available j.manifest j.device r' b).1.length =
        (available i.manifest i.device r b).1.length := by
    by_cases hb : b = .kmod
    · rw [hb, length_available_kmod hr, length_available_kmod hr',
        ← List.length_map KmiCandidate.kmi, ← List.length_map KmiCandidate.kmi,
        (h.kmis hr hr').length_eq]
    · obtain ⟨modules, -, hdevice⟩ := h.device
      rw [length_available hb, length_available hb, ← h.payloads.countP_eq, hdevice]
      refine List.countP_congr fun p _ => ?_
      unfold payloadMatches
      cases p.implementation <;> cases b <;> first | exact Iff.rfl | exact absurd rfl hb
  have hempty :
      (available j.manifest j.device r' b).1.isEmpty =
        (available i.manifest i.device r b).1.isEmpty := by
    rw [Bool.eq_iff_iff, List.isEmpty_iff_length_eq_zero, List.isEmpty_iff_length_eq_zero, hlength]
  obtain ⟨modules, -, hdevice⟩ := h.device
  unfold available at hlength hempty ⊢
  dsimp only at hlength hempty ⊢
  rw [hlength, hempty, hseries, hhint, hconflict, h.any_matches hr hr', hdevice]

/-- A backend is eligible, or not for the same reason. -/
theorem Permuted.eligibility_eq (h : i.Permuted j)
    (hr : Resolved i.manifest i.device.kernelRelease i.device.moduleEvidence r)
    (hr' : Resolved j.manifest j.device.kernelRelease j.device.moduleEvidence r')
    (b : NativeBackend) :
    (candidate j.manifest j.device r' j.requirements j.support b).eligibility =
      (candidate i.manifest i.device r i.requirements i.support b).eligibility := by
  have hentries : projected j.requirements j.support b = projected i.requirements i.support b := by
    unfold projected
    rw [onlyOne_entriesOf_perm b h.requirements, onlyOne_entriesOf_perm b h.support]
  unfold candidate
  dsimp only
  rw [h.available_eq hr hr', hentries]
  obtain ⟨modules, -, hdevice⟩ := h.device
  rw [hdevice]
  cases b <;> rfl

end Permuted

/-- The evidence is the same in any order. -/
theorem sameVerdict_of_permuted (h : i.Permuted j) :
    SameVerdict (assessChoice i) (assessChoice j) := by
  -- Whether there is a verdict at all does not depend on the order.
  have hvalid : i.manifest.Valid ↔ j.manifest.Valid :=
    ⟨fun hv => hv.perm h.schema h.bundleCommit h.payloads,
      fun hv => hv.perm h.schema.symm h.bundleCommit.symm h.payloads.symm⟩
  rw [← assessChoice_ok_iff, ← assessChoice_ok_iff] at hvalid
  cases hi : assessChoice i with
  | error e =>
    cases hj : assessChoice j with
    | error e' => exact .refused e e'
    | ok a' =>
      obtain ⟨a, ha⟩ := hvalid.2 ⟨a', hj⟩
      rw [hi] at ha
      cases ha
  | ok a =>
    obtain ⟨a', hj⟩ := hvalid.1 ⟨a, hi⟩
    obtain ⟨hr, hcandidates, hdecision⟩ := assessChoice_eq_ok hi
    obtain ⟨hr', hcandidates', hdecision'⟩ := assessChoice_eq_ok hj
    obtain ⟨hrelease, hmodules⟩ := h.releaseHints_eq
    have hownership : j.device.ownership = i.device.ownership := by
      obtain ⟨modules, -, hdevice⟩ := h.device
      rw [hdevice]
    rw [hj]
    refine .assessed ?_ (h.kmis hr hr') ?_
    · rw [hdecision, hdecision', hcandidates, hcandidates', hownership, ← h.choice]
      unfold decisionOf
      rw [List.find?_map, List.find?_map]
      -- The backends are tried in their own order, whatever that of the evidence is.
      have hfind : backends.find? ((fun c => requested i.choice c.backend && c.eligibility.isOk) ∘
            candidate j.manifest j.device a'.kmi j.requirements j.support) =
          backends.find? ((fun c => requested i.choice c.backend && c.eligibility.isOk) ∘
            candidate i.manifest i.device a.kmi i.requirements i.support) := by
        congr 1
        funext b
        rw [Function.comp_apply, Function.comp_apply, h.eligibility_eq hr hr']
        rfl
      rw [hfind]
      cases i.device.ownership with
      | clear =>
        dsimp only
        cases backends.find? _ <;> rfl
      | resident b => rfl
      | foreign => rfl
      | unknown => rfl
    · rw [hr.conflictingHints, hr'.conflictingHints, hrelease, hmodules]

/-- Another module is observed. -/
def observe (i : Input) (m : BoundModule) : Input :=
  { i with device :=
    { i.device with moduleEvidence :=
      { i.device.moduleEvidence with modules := m :: i.device.moduleEvidence.modules } } }

/-- Observing another module does not clear a conflict. -/
theorem conflictingHints_observe (m : BoundModule) {a a' : Assessment} (h : assessChoice i = .ok a)
    (h' : assessChoice (i.observe m) = .ok a') (hconflict : a.kmi.conflictingHints = true) :
    a'.kmi.conflictingHints = true := by
  rw [(assessChoice_eq_ok h).1.conflictingHints, Bool.or_eq_true] at hconflict
  rw [(assessChoice_eq_ok h').1.conflictingHints, Bool.or_eq_true]
  exact hconflict.imp_right fun hmodules => moduleHints_cons _ _ m hmodules

/-- The same evidence in another order, and another module. -/
def OrderIndependent (i : Input) : Prop :=
  ∀ j, i.Permuted j → SameVerdict (assessChoice i) (assessChoice j)

/-- What has been at odds stays so, whatever else is observed. -/
def ConflictsStay (i : Input) : Prop :=
  ∀ m a a', assessChoice i = .ok a → assessChoice (i.observe m) = .ok a' →
    a.kmi.conflictingHints = true → a'.kmi.conflictingHints = true

/-- A kernel module is selected for the one KMI of the series of the kernel that the modules agree
    on, and that nothing contradicts; and no order of the evidence, and no more of it, changes
    that. -/
theorem selection_sound (i : Input) : i.Sound moduleKmis ∧ i.OrderIndependent ∧ i.ConflictsStay :=
  ⟨selected_of_select, fun _ h => sameVerdict_of_permuted h,
    fun m _ _ h h' hconflict => conflictingHints_observe m h h' hconflict⟩

end Input

/-- A payload of a catalog, with some digest. -/
def somePayload (implementation : PayloadKind) : Payload where
  implementation := implementation
  version := "1".toList
  sourceCommit := List.replicate 40 '0'
  sha256 := List.replicate 64 '0'
  bytes := 1
  controlVersion := controlVersion
  preflightProtocol := none
  initContract := none

/-- A kernel of the series 5.15, two modules for `android13-5.15`, and a catalog with that KMI and
    `android14-5.15`. -/
def quorum : Input where
  manifest :=
    { schema := manifestVersion
      bundleCommit := List.replicate 40 '0'
      payloads := [somePayload (.kmod "android13-5.15".toList),
        somePayload (.kmod "android14-5.15".toList)] }
  device :=
    { arm64 := true
      kernelRelease := "5.15.123-custom".toList
      kernelMachine := "aarch64".toList
      moduleEvidence :=
        { modules := [⟨"ksu_next".toList, "a".toList, "5.15.123-android13 SMP".toList⟩,
            ⟨"wifi".toList, "b".toList, "5.15.123-android13 SMP".toList⟩]
          incomplete := false }
      builtin := .absent
      moduleLoading := .ready
      kpm := .absent
      zygisk := .absent
      needsArm32Zygisk := false
      ownership := .clear }
  requirements := [(.kmod, ⟨true, 1, 1, 0, 1⟩)]
  support := [(.kmod, ⟨1, 1, 1, false⟩)]
  choice := .auto

/-- The modules settle which of the two it is. -/
theorem not_sound_seriesKmis : ¬quorum.Sound Input.seriesKmis := by
  intro h
  have hselect : (assessChoice quorum).toOption.map Assessment.decision = some (.select .kmod) := by
    decide +kernel
  cases ha : assessChoice quorum with
  | error e =>
    rw [ha] at hselect
    cases hselect
  | ok a =>
    rw [ha] at hselect
    obtain ⟨kmi, hkmis, -⟩ := (h a .kmod ha (Option.some.inj hselect)).kmod rfl
    have htwo : quorum.seriesKmis.length = 2 := by decide +kernel
    rw [hkmis] at htwo
    cases htwo

end VpnHide.Payloads

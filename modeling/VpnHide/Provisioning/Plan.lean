import VpnHide.Protocol.Lexical
import VpnHide.Config.Model

/-!
# Boot plans

What a write to the boot partition rests on (`provisioning/src/lib.rs` and the plans of
`provisioning/src/write.rs`): facts about the boot, evidence about the kernel and its
runtime, and the tools that patch it. `assess` says whether these permit an offline patch,
and a plan is valid when they do and its images fit the partition.
-/

namespace VpnHide.Provisioning

open Lib Protocol Config

/-- Why nothing is written. -/
inductive ProvisionError
  | kernelImageInvalid
  | kernelConfigUnknown
  | kallsymsMissing
  | allModeUnknown
  | engineEvidenceMissing
  | toolTupleInvalid
  | runtimeUnknown
  | runtimeConflict
  | bootFactsUnknown
  | slotChanged
  | otaInProgress
  | avbUnconfirmed
  | backupUnconfirmed
  | planChanged
  | consentMissing
  | consentExpired
  | sourceChanged
  | writeUnknown
  | readbackMismatch
  | journalUnavailable
  | heldUnknown
  deriving DecidableEq

/-- A hexadecimal digit. -/
def isHexDigit (c : Char) : Bool :=
  ('0' ≤ c && c ≤ '9') || ('a' ≤ c && c ≤ 'f') || ('A' ≤ c && c ≤ 'F')

/-- An upper-case letter. -/
def isUppercase (c : Char) : Bool := 'A' ≤ c && c ≤ 'Z'

/-- The text of a SHA-256 digest. -/
def digest (value : Str) : Bool :=
  value.length = 64 && value.all fun c => isHexDigit c && !isUppercase c

/-! ## Evidence -/

/-- The managers of root. -/
inductive RuntimeFamily
  | aPatch
  | fPatch
  | sukiSu
  | reSukiSu
  | kernelSu
  | magisk
  deriving DecidableEq

/-- What is known of KernelPatch. -/
inductive KernelPatchObservation
  | unknown
  /-- A probe that was completed did not find it. -/
  | absent (probeSha256 : Str)
  | present (handshakeSha256 : Str) (version kpmProtocol : ℕ)
  deriving DecidableEq

/-- What is known of the running system. -/
structure RuntimeEvidence where
  bootId : Str
  family : RuntimeFamily
  managerHandshakeSha256 : Str
  kernelpatch : KernelPatchObservation
  deriving DecidableEq

/-- A KPM can be loaded as things are. -/
def RuntimeEvidence.existingKpm (r : RuntimeEvidence) : Bool :=
  !r.bootId.isEmpty && digest r.managerHandshakeSha256 &&
    match r.kernelpatch with
    | .present handshakeSha256 version kpmProtocol =>
      0x0a05 ≤ version && version ≤ 0x00ffffff && kpmProtocol = 1 && digest handshakeSha256
    | _ => false

/-- A tool, as a file with its digest. -/
structure ToolIdentity where
  sha256 : Str
  bytes : ℕ
  sourceCommit : Str
  deriving DecidableEq

/-- The identity is one of a tool. -/
def ToolIdentity.valid (t : ToolIdentity) : Bool :=
  digest t.sha256 && 0 < t.bytes && t.bytes ≤ 64 * 1024 * 1024 && t.sourceCommit.length = 40 &&
    t.sourceCommit.all isHexDigit

/-- The proof that the engine was tried with everything off. -/
structure AllDisabledQualification where
  engineSha256 : Str
  evidenceSha256 : Str
  deriving DecidableEq

/-- The tools that patch a boot image. -/
structure ToolTuple where
  engine : ToolIdentity
  kptools : ToolIdentity
  kpatch : ToolIdentity
  magiskboot : ToolIdentity
  allDisabledQualification : Option AllDisabledQualification
  deriving DecidableEq

/-- The tools are known, and of one source. -/
def ToolTuple.valid (t : ToolTuple) : Bool :=
  [t.engine, t.kptools, t.kpatch, t.magiskboot].all (·.valid) &&
    t.engine.sourceCommit = t.kptools.sourceCommit && t.engine.sourceCommit = t.kpatch.sourceCommit

/-- What was found in a kernel image, with the values of its config. -/
structure KernelEvidence where
  imageSha256 : Str
  imageBytes : ℕ
  configSha256 : Str
  values : StrMap Str

/-- Whether an option of the kernel is on, if that is known. -/
def KernelEvidence.enabled (k : KernelEvidence) (name : Str) : Option Bool :=
  match k.values[name]? with
  | some ['y'] => some true
  | some ['n'] => some false
  | _ => none

/-- What is to be done. -/
inductive ProvisionDecision
  | existingRuntime
  | offlinePatchEligible
  | blocked (error : ProvisionError)
  deriving DecidableEq

/-- What the kernel and the tools permit, once no other runtime is in the way. -/
def assessKernel (kernel : KernelEvidence) (tools : ToolTuple) : ProvisionDecision :=
  if kernel.enabled "CONFIG_KPM".toList = some true then .blocked .runtimeConflict
  else if !tools.valid then .blocked .toolTupleInvalid
  else if kernel.enabled "CONFIG_KALLSYMS".toList ≠ some true then .blocked .kallsymsMissing
  else match kernel.enabled "CONFIG_KALLSYMS_ALL".toList with
    | none => .blocked .allModeUnknown
    | some true => .offlinePatchEligible
    | some false =>
      if tools.allDisabledQualification.any fun q => q.engineSha256 = tools.engine.sha256 &&
        digest q.evidenceSha256
      then .offlinePatchEligible
      else .blocked .engineEvidenceMissing

/-- `assess`: what is to be done on a device. -/
def assess (runtime : Option RuntimeEvidence) (kernel : KernelEvidence) (tools : ToolTuple) :
    ProvisionDecision :=
  match runtime with
  | none => .blocked .runtimeUnknown
  | some runtime =>
    if runtime.existingKpm then .existingRuntime
    else if runtime.bootId.isEmpty || !digest runtime.managerHandshakeSha256 then
      .blocked .runtimeUnknown
    else match runtime.kernelpatch with
      | .unknown => .blocked .runtimeUnknown
      | .present _ _ _ => .blocked .runtimeConflict
      | .absent probeSha256 =>
        if !digest probeSha256 then .blocked .runtimeUnknown else assessKernel kernel tools

/-! ## Plans -/

/-- The slots of a boot partition. -/
inductive Slot
  | single
  | a
  | b
  deriving DecidableEq

/-- What is known of the boot partition. -/
structure BootFacts where
  bootId : Str
  activeSlot : Slot
  targetSlot : Slot
  partitionDevice : ℕ × ℕ
  partitionUuid : Str
  partitionBytes : ℕ
  otaIdle : Option Bool
  snapshotMergeIdle : Option Bool
  bootloaderUnlocked : Option Bool
  avbUnlocked : Option Bool
  stateSha256 : Str
  deriving DecidableEq

/-- The partition may be written now. -/
def BootFacts.ready (f : BootFacts) : Except ProvisionError Unit := do
  if f.bootId.isEmpty || f.partitionUuid.isEmpty || f.partitionBytes = 0 ||
    !digest f.stateSha256 then
    throw .bootFactsUnknown
  if f.activeSlot ≠ f.targetSlot then throw .slotChanged
  if f.otaIdle ≠ some true || f.snapshotMergeIdle ≠ some true then throw .otaInProgress
  if f.bootloaderUnlocked ≠ some true || f.avbUnlocked ≠ some true then throw .avbUnconfirmed

/-- What is going to be written where. -/
structure BootPlan where
  operation : ℕ
  facts : BootFacts
  tools : ToolTuple
  runtime : RuntimeEvidence
  originalSha256 : Str
  originalBytes : ℕ
  patchedSha256 : Str
  patchedBytes : ℕ
  kernel : KernelEvidence

/-- The largest partition. -/
def maxPartitionBytes : ℕ := 512 * 1024 * 1024

namespace BootPlan

/-- Making a plan from the images. -/
def prepare (sha256 : Bytes → Str) (operation : ℕ) (facts : BootFacts) (runtime : RuntimeEvidence)
    (tools : ToolTuple) (kernel : KernelEvidence) (original patched : Bytes) :
    Except ProvisionError BootPlan := do
  facts.ready
  if operation = 0 || facts.bootId ≠ runtime.bootId || original.isEmpty || patched.isEmpty ||
      original.length ≠ facts.partitionBytes || maxPartitionBytes < facts.partitionBytes ||
      facts.partitionBytes < patched.length then
    throw .planChanged
  if assess (some runtime) kernel tools ≠ .offlinePatchEligible then throw .engineEvidenceMissing
  pure {
    operation, facts, tools, runtime, kernel
    originalSha256 := sha256 original
    originalBytes := original.length
    patchedSha256 := sha256 patched
    patchedBytes := patched.length }

/-- `validate`: the parts of a plan fit together. -/
def validate (p : BootPlan) : Except ProvisionError Unit := do
  p.facts.ready
  if p.operation = 0 || p.runtime.bootId ≠ p.facts.bootId ||
      p.originalBytes ≠ p.facts.partitionBytes || p.originalBytes = 0 ||
        maxPartitionBytes < p.originalBytes || p.patchedBytes = 0 ||
      p.originalBytes < p.patchedBytes || !digest p.originalSha256 || !digest p.patchedSha256 ||
      !digest p.kernel.imageSha256 || !digest p.kernel.configSha256 || p.kernel.imageBytes < 64 ||
      assess (some p.runtime) p.kernel p.tools ≠ .offlinePatchEligible then
    throw .planChanged

end BootPlan

end VpnHide.Provisioning

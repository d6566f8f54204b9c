import VpnHide.Artifact.Archive
import VpnHide.Artifact.Properties

/-!
# Packages

What a publisher signs, and what a device installs, is a package
(`artifact-model/src/core_layout.rs`, and `inspect_package` and `verify_package` of
`artifact-model/src/archive.rs`): an archive of a known layout, with a catalog of its payloads.

All that an inspection checks is said once (`inspectPackage_eq_ok_iff`), and what is verified is
exact (`exact_of_verifyPackage`): what is recorded of each file is what the archive has.
-/

namespace VpnHide.Artifact

open Lib Native

/-- The libraries that read archives and metadata, and the one that hashes: the text of a digest is
    64 hexadecimal digits. -/
structure Env where
  width : Width
  sha256 : Bytes → Str
  hex_sha256 : ∀ data, hex (sha256 data) 64 = true
  zip : Zip
  readManifest : Bytes → Option Manifest
  readProvenance : Bytes → Option Provenance
  readBundle : Bytes → Option BundleProvenance

/-- An error of the manifest. -/
def lift {α : Type} (x : Except String α) : Except Fault α := x.mapError .invalid

/-! ## The layout -/

/-- What an archive is for, which decides on the files it may have. -/
inductive CoreLayout
  | producer
  | bundle (manifest : Manifest)
  | installed (manifest : Manifest)

/-- What every layout has. -/
def commonFiles : List Str :=
  ["module.prop", "service.sh", "sepolicy.rule", "customize.sh",
    "META-INF/com/google/android/update-binary",
    "META-INF/com/google/android/updater-script"].map String.toList

/-- The daemons. -/
def daemonFiles : List Str := ["bin/arm64/vpnhide-core", "bin/arm/vpnhide-core"].map String.toList

/-- What a layout has that has a catalog. -/
def catalogFiles (manifest : Manifest) : Except Fault (List Str) := do
  lift manifest.requireComplete
  let paths ← manifest.payloads.mapM fun p => lift (relativePath p.implementation)
  .ok (commonFiles ++ ["bundle-provenance.json", "payloads/manifest.json"].map
    String.toList ++ paths)

/-- The files that a layout may have. -/
def allowedFiles : CoreLayout → Except Fault (List Str)
  | .producer => .ok (commonFiles ++ "build-provenance.json".toList :: daemonFiles)
  | .bundle manifest => do
    let files ← catalogFiles manifest
    .ok (files ++ daemonFiles)
  | .installed manifest => do
    let files ← catalogFiles manifest
    .ok (files ++ ["vpnhide-core", "update"].map String.toList)

/-- `require_files`: there are just the files of the layout. -/
def requireFiles (layout : CoreLayout) (files : List Str) : Except Fault Unit := do
  let allowed ← allowedFiles layout
  match files.find? fun f => !allowed.contains f with
  | some file => .error (.invalid ("unexpected Core member: " ++ String.ofList file))
  | none => .ok ()

/-! ## Inspection -/

/-- `metadata`, of a type that is read with `read`. -/
def metadata {α : Type} (read : Bytes → Option α) (files : Files) (name : String) :
    Except Fault α := do
  let data ← okOr (.invalid ("missing " ++ name)) (mapGet files name.toList)
  if maxManifestBytes < data.length then .error (.invalid "metadata exceeds budget")
  else okOr (.invalid "malformed metadata") (read data)

/-- A commit in full. -/
def exactCommit (value : Str) : Bool := hex value 40

/-- `check_architecture`: the ELF header is one of the machine. -/
def checkArchitecture (data : Bytes) (machine : ℕ) : Except Fault Unit :=
  let cls : ℕ := if machine = 183 then 2 else 1
  if data.length < 20 ∨ data.take 6 ≠ [0x7f, 0x45, 0x4c, 0x46, cls.toUInt8, 1] ∨
      (data.take 20).drop 18 ≠ [(machine % 256).toUInt8, (machine / 256).toUInt8] then
    .error (.invalid "wrong ELF architecture")
  else .ok ()

/-- The producers whose artifacts are packaged. -/
def components : List Str :=
  ["core", "kpm", "zygisk"].map String.toList ++ kmis.map ("kmod:".toList ++ ·)

/-- A version that is empty, too long or not printable. -/
def invalidVersion (version : Str) : Bool :=
  version.isEmpty || 128 < byteLen version || version.any isControl

/-- An input is of the commit, clean, and of the component it is named for. -/
def checkInput (commit : Str) (input : Str × Provenance) : Except Fault Unit :=
  if input.2.schema ≠ 1 ∨ input.2.dirty ∨ input.2.sourceCommit ≠ commit ∨
      input.2.component ≠ input.1 ∨ invalidVersion input.2.version then
        .error (.invalid "dirty or mixed package input")
  else .ok ()

/-- What a kernel module is found to be has to be what is recorded. -/
def checkCapabilities (env : Env) (p : Payload) (data : Bytes) : Except Fault Unit :=
  match p.implementation with
  | .kmod _ => do
    let caps ← inspectGki env.sha256 env.width data
    if p.preflightProtocol ≠ some 1 ∨ p.initContract ≠ some 1 ∨
        caps.preflightProtocol ≠ p.preflightProtocol ∨ caps.initContract ≠ p.initContract then
          .error (.invalid "payload capability differs from final ELF")
    else .ok ()
  | _ => .ok ()

/-- A payload is in the files as the manifest says, and of the commit. -/
def checkPayload (env : Env) (commit : Str) (files : Files) (p : Payload) :
    Except Fault Unit := do
  let name ← lift (relativePath p.implementation)
  let data ← okOr (.invalid "missing payload member") (mapGet files name)
  let identity := FileIdentity.of env.sha256 data
  if p.sourceCommit ≠ commit ∨ identity.bytes ≠ p.bytes ∨ identity.sha256 ≠ p.sha256 then
    .error (.invalid "payload provenance or bytes differ")
  else checkCapabilities env p data

/-- A daemon is there, for its machine. -/
def checkDaemon (files : Files) (name : String) (machine : ℕ) (missing : String) :
    Except Fault Unit := do
  let data ← okOr (.invalid missing) (mapGet files name.toList)
  checkArchitecture data machine

/-- The text of `module.prop`. -/
def readProperties (files : Files) : Except Fault Str := do
  let data ← okOr (.invalid "missing module identity") (mapGet files "module.prop".toList)
  okOr .conversion (Str.fromUtf8 data)

/-- The identity of a file that is there. -/
def identityOf (env : Env) (files : Files) (name : String) (limit : ℕ) :
    Except Fault FileIdentity := do
  let data ← okOr (.invalid ("missing " ++ name)) (mapGet files name.toList)
  if data = [] ∨ limit < data.length then .error (.invalid "runtime member exceeds limit")
    else .ok (FileIdentity.of env.sha256 data)

/-- The identities of the files that run on the device. -/
def runtimeIdentity (env : Env) (files : Files) : Except Fault RuntimeIdentity := do
  let daemonArm64 ← identityOf env files "bin/arm64/vpnhide-core" maxPayloadBytes
  let daemonArm ← identityOf env files "bin/arm/vpnhide-core" maxPayloadBytes
  let payloadManifest ← identityOf env files "payloads/manifest.json" maxManifestBytes
  let service ← identityOf env files "service.sh" maxManifestBytes
  let sepolicy ← identityOf env files "sepolicy.rule" maxManifestBytes
  let moduleProp ← identityOf env files "module.prop" maxManifestBytes
  .ok ⟨daemonArm64, daemonArm, payloadManifest, service, sepolicy, moduleProp⟩

/-- The versions of the interface and of the journal are those of the build contract. -/
def descriptorOf (env : Env) (package : Bytes) (commit : Str) (sequence : ℕ)
    (runtime : RuntimeIdentity) : Descriptor where
  schema := 2
  moduleId := coreModuleId
  sourceCommit := commit
  buildSequence := sequence
  packageSha256 := env.sha256 package
  packageBytes := package.length
  rpc := 33
  journalMin := 1
  journalMax := 19
  kernelControl := controlVersion
  runtime := runtime

section Inspect

variable (env : Env)

/-- `inspect_package`: the descriptor of a package that is as it should be. -/
def inspectPackage (package : Bytes) (commit : Str) (sequence : ℕ) : Except Fault Descriptor := do
  if !exactCommit commit ∨ sequence = 0 then .error (.invalid "invalid source or build sequence")
  else
    let files ← decodeArchive env.zip package 128 maxBundleBytes
    let manifest ← metadata env.readManifest files "payloads/manifest.json"
    lift manifest.requireComplete
    requireFiles (.bundle manifest) (files.map Prod.fst)
    let provenance ← metadata env.readBundle files "bundle-provenance.json"
    let keys := provenance.inputs.map Prod.fst
    if provenance.schema ≠ 1 ∨ provenance.sourceCommit ≠ commit ∨ manifest.bundleCommit ≠ commit ∨
        ¬(keys ⊆ components ∧ components ⊆ keys) then
          .error (.invalid "not a complete same-commit unified Core bundle")
    else
      provenance.inputs.forM (checkInput commit)
      manifest.payloads.forM (checkPayload env commit files)
      checkDaemon files "bin/arm64/vpnhide-core" 183 "missing arm64 daemon"
      checkDaemon files "bin/arm/vpnhide-core" 40 "missing arm daemon"
      let properties ← readProperties files
      checkIdentity properties
      let runtime ← runtimeIdentity env files
      let result := descriptorOf env package commit sequence runtime
      result.validate
      .ok result

/-- `verify_package`: a package is the one of a signed descriptor. -/
def verifyPackage (package : Bytes) (signed : Descriptor) : Except Fault Unit := do
  signed.validate
  let actual ← inspectPackage env package signed.sourceCommit signed.buildSequence
  if { actual with
      rpc := signed.rpc, journalMin := signed.journalMin,
      journalMax := signed.journalMax } ≠ signed then
    .error (.invalid "authenticated descriptor differs from actual package")
  else .ok ()

end Inspect

/-! ## What is checked -/

variable {env : Env} {package : Bytes} {commit : Str} {sequence : ℕ}
  {d : Descriptor} {files : Files}

theorem lift_eq_ok_iff {α : Type} {x : Except String α} {a : α} : lift x = .ok a ↔ x = .ok a := by
  cases x with
  | error e => exact iff_of_false nofun nofun
  | ok b =>
    change Except.ok b = Except.ok a ↔ _
    rw [Except.ok.injEq, Except.ok.injEq]

theorem forM_eq_ok_iff {α : Type} {f : α → Except Fault Unit} {l : List α} :
    l.forM f = .ok () ↔ ∀ a ∈ l, f a = .ok () := ⟨fun h _ => forM_ok h, forM_eq_ok⟩

/-- What it takes for metadata to be read. -/
theorem metadata_eq_ok_iff {α : Type} {read : Bytes → Option α} {name : String} {a : α} :
    metadata read files name = .ok a ↔
      ∃ data, mapGet files name.toList = some data ∧ data.length ≤ maxManifestBytes ∧
        read data = some a := by
  simp only [metadata, bind_eq_ok_iff, okOr_eq_ok_iff, ite_error_eq_ok_iff, not_lt]

/-- What it takes for the files to be those of a layout. -/
theorem requireFiles_eq_ok_iff {layout : CoreLayout} {names : List Str} :
    requireFiles layout names = .ok () ↔ ∃ allowed, allowedFiles layout = .ok allowed ∧
      ∀ n ∈ names, n ∈ allowed := by
  rw [requireFiles, bind_eq_ok_iff]
  refine exists_congr fun allowed => and_congr_right fun _ => ?_
  cases hfind : names.find? fun f => !allowed.contains f with
  | none =>
    refine iff_of_true rfl fun n hn => ?_
    have hnone := List.find?_eq_none.1 hfind n hn
    simpa using hnone
  | some file =>
    refine iff_of_false nofun fun hall => ?_
    have hbad := List.find?_some hfind
    simp [hall file (List.mem_of_find?_eq_some hfind)] at hbad

/-- A file that the descriptor identifies. -/
theorem identityOf_eq_ok_iff {name : String} {limit : ℕ} {i : FileIdentity} :
    identityOf env files name limit = .ok i ↔
      ∃ data, mapGet files name.toList = some data ∧ data ≠ [] ∧ data.length ≤ limit ∧
        FileIdentity.of env.sha256 data = i := by
  simp only [identityOf, bind_eq_ok_iff, okOr_eq_ok_iff, ite_error_eq_ok_iff, not_or, not_lt,
    and_assoc, Except.ok.injEq]

/-- The files that a descriptor identifies, with their limits. -/
def runtimeMembers : List (String × ℕ × (RuntimeIdentity → FileIdentity)) :=
  [("bin/arm64/vpnhide-core", maxPayloadBytes, RuntimeIdentity.daemonArm64),
    ("bin/arm/vpnhide-core", maxPayloadBytes, RuntimeIdentity.daemonArm),
    ("payloads/manifest.json", maxManifestBytes, RuntimeIdentity.payloadManifest),
    ("service.sh", maxManifestBytes, RuntimeIdentity.service),
    ("sepolicy.rule", maxManifestBytes, RuntimeIdentity.sepolicy),
    ("module.prop", maxManifestBytes, RuntimeIdentity.moduleProp)]

/-- What it takes for the identities to be found. -/
theorem runtimeIdentity_eq_ok_iff {r : RuntimeIdentity} :
    runtimeIdentity env files = .ok r ↔
      ∀ m ∈ runtimeMembers, identityOf env files m.1 m.2.1 = .ok (m.2.2 r) := by
  simp only [runtimeIdentity, bind_eq_ok_iff, Except.ok.injEq, runtimeMembers, List.forall_mem_cons,
    List.not_mem_nil, false_imp_iff, implies_true, and_true]
  constructor
  · rintro ⟨a, ha, b, hb, c, hc, e, he, f, hf, g, hg, rfl⟩
    exact ⟨ha, hb, hc, he, hf, hg⟩
  · rintro ⟨ha, hb, hc, he, hf, hg⟩
    exact ⟨_, ha, _, hb, _, hc, _, he, _, hf, _, hg, rfl⟩

/-- All that an inspection checks of a package with these files. -/
structure Inspected (env : Env) (package : Bytes) (commit : Str) (sequence : ℕ) (files : Files)
    (manifest : Manifest) (provenance : BundleProvenance) (runtime : RuntimeIdentity) : Prop where
  exact : exactCommit commit = true
  nonzero : sequence ≠ 0
  decoded : decodeArchive env.zip package 128 maxBundleBytes = .ok files
  catalog : metadata env.readManifest files "payloads/manifest.json" = .ok manifest
  complete : manifest.requireComplete = .ok ()
  layout : requireFiles (.bundle manifest) (files.map Prod.fst) = .ok ()
  record : metadata env.readBundle files "bundle-provenance.json" = .ok provenance
  schema : provenance.schema = 1
  sourceCommit : provenance.sourceCommit = commit
  bundleCommit : manifest.bundleCommit = commit
  keys : provenance.inputs.map Prod.fst ⊆ components ∧ components ⊆ provenance.inputs.map Prod.fst
  inputs : ∀ i ∈ provenance.inputs, checkInput commit i = .ok ()
  payloads : ∀ p ∈ manifest.payloads, checkPayload env commit files p = .ok ()
  daemonArm64 : checkDaemon files "bin/arm64/vpnhide-core" 183 "missing arm64 daemon" = .ok ()
  daemonArm : checkDaemon files "bin/arm/vpnhide-core" 40 "missing arm daemon" = .ok ()
  identity : ∃ properties, readProperties files = .ok properties ∧ checkIdentity properties = .ok ()
  identified : runtimeIdentity env files = .ok runtime
  valid : (descriptorOf env package commit sequence runtime).validate = .ok ()

/-- When a package is accepted, and with what descriptor. -/
theorem inspectPackage_eq_ok_iff :
    inspectPackage env package commit sequence = .ok d ↔ ∃ files manifest provenance runtime,
      Inspected env package commit sequence files manifest provenance runtime ∧
        d = descriptorOf env package commit sequence runtime := by
  simp only [inspectPackage, ite_error_eq_ok_iff, bind_eq_ok_iff, lift_eq_ok_iff, Except.ok.injEq,
    not_or, ne_eq, not_not, Bool.not_eq_true', Bool.not_eq_false]
  constructor
  · rintro ⟨⟨hcommit, hsequence⟩, files, hfiles, manifest, hmanifest, _, hcomplete, _, hlayout,
      provenance, hprovenance, ⟨hschema, hsource, hbundle, hkeys⟩, _, hinputs, _, hpayloads, _,
      harm64, _, harm, properties, hproperties, _, hidentity, runtime, hruntime, _, hvalid, rfl⟩
    exact ⟨files, manifest, provenance, runtime,
      ⟨hcommit, hsequence, hfiles, hmanifest, hcomplete, hlayout, hprovenance,
      hschema, hsource, hbundle, hkeys, forM_eq_ok_iff.1 hinputs, forM_eq_ok_iff.1 hpayloads,
      harm64, harm, ⟨properties, hproperties, hidentity⟩, hruntime, hvalid⟩, rfl⟩
  · rintro ⟨files, manifest, provenance, runtime, h, rfl⟩
    obtain ⟨properties, hproperties, hidentity⟩ := h.identity
    exact ⟨⟨h.exact, h.nonzero⟩, files, h.decoded, manifest, h.catalog, (), h.complete, (),
      h.layout, provenance, h.record, ⟨h.schema, h.sourceCommit, h.bundleCommit, h.keys⟩, (),
      forM_eq_ok_iff.2 h.inputs, (), forM_eq_ok_iff.2 h.payloads, (), h.daemonArm64, (),
      h.daemonArm, properties, hproperties, (), hidentity, runtime, h.identified, (), h.valid, rfl⟩

/-- When a package is the one of a signed descriptor. -/
theorem verifyPackage_eq_ok_iff :
    verifyPackage env package d = .ok () ↔ d.validate = .ok () ∧ ∃ actual,
      inspectPackage env package d.sourceCommit d.buildSequence = .ok actual ∧
        { actual with rpc := d.rpc, journalMin := d.journalMin, journalMax := d.journalMax } =
          d := by
  simp only [verifyPackage, bind_eq_ok_iff, ite_error_eq_ok_iff, ne_eq, not_not, and_true]
  exact ⟨fun ⟨_, h⟩ => h, fun h => ⟨(), h⟩⟩

/-- What an inspection says of a package can be verified. -/
theorem verifyPackage_of_inspectPackage (h : inspectPackage env package commit sequence = .ok d) :
    verifyPackage env package d = .ok () := by
  obtain ⟨files, manifest, provenance, runtime, hinspected, rfl⟩ := inspectPackage_eq_ok_iff.1 h
  exact verifyPackage_eq_ok_iff.2 ⟨hinspected.valid, _, h, rfl⟩

/-- A descriptor of the files is well formed. -/
theorem validate_descriptorOf {runtime : RuntimeIdentity} (hcommit : exactCommit commit = true)
    (hsequence : sequence ≠ 0) (hne : package ≠ []) (hle : package.length ≤ maxBundleBytes)
    (hruntime : runtimeIdentity env files = .ok runtime) :
    (descriptorOf env package commit sequence runtime).validate = .ok () := by
  have hmember : ∀ m ∈ runtimeMembers, (m.2.2 runtime).valid m.2.1 = true := by
    intro m hm
    obtain ⟨data, -, hdata, hlimit, hidentity⟩ :=
      identityOf_eq_ok_iff.1 (runtimeIdentity_eq_ok_iff.1 hruntime m hm)
    rw [← hidentity, FileIdentity.valid, FileIdentity.of, env.hex_sha256,
      decide_eq_true (List.length_pos_iff.2 hdata), decide_eq_true hlimit]
    rfl
  simp only [runtimeMembers, List.forall_mem_cons, List.not_mem_nil, false_imp_iff, implies_true,
    and_true] at hmember
  obtain ⟨harm64, harm, hmanifest, hservice, hsepolicy, hmodule⟩ := hmember
  have hvalid : runtime.valid = true := by
    rw [RuntimeIdentity.valid, Bool.and_eq_true, Bool.and_eq_true, Bool.and_eq_true,
      Bool.and_eq_true, Bool.and_eq_true]
    exact ⟨⟨⟨⟨⟨harm64, harm⟩, hmanifest⟩, hservice⟩, hsepolicy⟩, hmodule⟩
  have hlength : package.length ≠ 0 := fun h => hne (List.eq_nil_of_length_eq_zero h)
  have hhash := env.hex_sha256 package
  rw [exactCommit] at hcommit
  rw [Descriptor.validate, if_neg]
  simp only [descriptorOf, hcommit, hhash, hvalid, controlVersion]
  simpa [hsequence, hlength, maxPackageBytes, maxBundleBytes] using hle

/-! ## What is verified -/

/-- The files of a package are exactly what its catalog and the descriptor record. -/
structure Exact (env : Env) (package : Bytes) (d : Descriptor) (files : Files)
    (manifest : Manifest) : Prop where
  entries : ∃ archive, env.zip.read package = some archive ∧
    (archive.2.map Entry.file).Perm (files.map some)
  catalog : ∃ data, mapGet files "payloads/manifest.json".toList = some data ∧
    env.readManifest data = some manifest
  identities : (manifest.payloads.map Payload.implementation).Perm Manifest.identities
  payloads : ∀ p ∈ manifest.payloads, ∃ path data, relativePath p.implementation = .ok path ∧
    mapGet files path = some data ∧ data.length = p.bytes ∧ env.sha256 data = p.sha256
  runtime : ∀ m ∈ runtimeMembers, ∃ data, mapGet files m.1.toList = some data ∧
    data.length = (m.2.2 d.runtime).bytes ∧ env.sha256 data = (m.2.2 d.runtime).sha256
  layout : ∃ allowed, allowedFiles (.bundle manifest) = .ok allowed ∧ ∀ f ∈ files, f.1 ∈ allowed

/-- What is verified is exactly the package that was signed. -/
theorem exact_of_verifyPackage (h : verifyPackage env package d = .ok ()) :
    ∃ files manifest, Exact env package d files manifest := by
  obtain ⟨-, actual, hactual, hsame⟩ := verifyPackage_eq_ok_iff.1 h
  obtain ⟨files, manifest, provenance, runtime, hinspected, rfl⟩ :=
    inspectPackage_eq_ok_iff.1 hactual
  obtain rfl : runtime = d.runtime := congrArg Descriptor.runtime hsame
  obtain ⟨hvalid, hlen⟩ := Manifest.requireComplete_eq_ok_iff.1 hinspected.complete
  obtain ⟨catalog, hcatalog, -, hread⟩ := metadata_eq_ok_iff.1 hinspected.catalog
  obtain ⟨allowed, hallowed, hnames⟩ := requireFiles_eq_ok_iff.1 hinspected.layout
  refine ⟨files, manifest, perm_of_decodeArchive hinspected.decoded, ⟨catalog, hcatalog, hread⟩,
    Manifest.perm_identities hvalid hlen, fun p hp => ?_, fun m hm => ?_, allowed,
    hallowed, fun f hf => ?_⟩
  · have hpayload := hinspected.payloads p hp
    simp only [checkPayload, bind_eq_ok_iff, lift_eq_ok_iff, okOr_eq_ok_iff, ite_error_eq_ok_iff,
      not_or, ne_eq, not_not]
      at hpayload
    obtain ⟨path, hpath, data, hdata, ⟨-, hbytes, hsha⟩, -⟩ := hpayload
    exact ⟨path, data, hpath, hdata, hbytes, hsha⟩
  · obtain ⟨data, hdata, -, -, hidentity⟩ :=
      identityOf_eq_ok_iff.1 (runtimeIdentity_eq_ok_iff.1 hinspected.identified m hm)
    exact ⟨data, hdata, congrArg FileIdentity.bytes hidentity,
      congrArg FileIdentity.sha256 hidentity⟩
  · exact hnames f.1 (List.mem_map_of_mem hf)

end VpnHide.Artifact

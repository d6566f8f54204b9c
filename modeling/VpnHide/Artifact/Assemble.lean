import VpnHide.Artifact.Package

/-!
# Assembly

A bundle is assembled from the archives of ten producers (`assemble` of
`artifact-model/src/archive.rs`): the files of the core, the payloads of the others, a catalog of
these and a record of where all has come from. It is written as an archive.

`gather_eq_ok_iff` says once what an assembly that succeeds has found and made, and
`mapGet_bundleFiles` what each file of the bundle is.
-/

namespace VpnHide.Artifact

open Lib Native

/-- The file of an input that says where it comes from. -/
def provenanceFile : Str := "build-provenance.json".toList

/-- The files of a producer. -/
structure InputArtifact where
  provenance : Provenance
  files : Files

/-- What a bundle is made of: the artifacts, and the properties of the core among them. -/
structure Parts where
  artifacts : List (Str × InputArtifact)
  core : InputArtifact
  properties : Str
  files : Files
  manifest : Manifest

/-- What a producer has left: regular files, by their names. -/
abbrev Inputs := Str → Option Bytes

/-- An input that is no longer than it may be. -/
def readRegular (inputs : Inputs) (name : Str) (limit : ℕ) : Except Fault Bytes := do
  let data ← okOr (.invalid "not a bounded regular file") (inputs name)
  if limit < data.length then .error (.invalid "not a bounded regular file") else .ok data

/-- The record covers exactly the files. -/
def Provenance.validate (p : Provenance) (env : Env) (component commit : Str) (files : Files) :
    Except Fault Unit :=
  if p.schema ≠ 1 ∨ p.dirty ∨ p.sourceCommit ≠ commit ∨ !exactCommit commit ∨
      p.component ≠ component ∨ invalidVersion p.version ∨ p.files.length + 1 ≠ files.length then
    .error (.invalid "artifact provenance mismatch or dirty build")
  else files.forM fun f =>
    if f.1 ≠ provenanceFile ∧ mapGet p.files f.1 ≠ some (FileIdentity.of env.sha256 f.2) then
      .error (.invalid "artifact provenance does not cover exact bytes")
    else .ok ()

/-- A file of an input for an architecture. -/
def InputArtifact.member (a : InputArtifact) (name : String) (machine : ℕ) :
    Except Fault Bytes := do
  let data ← okOr (.invalid ("missing " ++ name)) (mapGet a.files name.toList)
  checkArchitecture data machine
  .ok data

/-- The producers, and the archives that they have left. -/
def specs : List (Str × Str) :=
  [("core".toList, "vpnhide-core-base.zip".toList)] ++
    kmis.map (fun kmi => ("kmod:".toList ++ kmi, "vpnhide-kmod-".toList ++ kmi ++ ".zip".toList)) ++
    [("kpm".toList, "vpnhide-kpm.zip".toList), ("zygisk".toList, "vpnhide-zygisk.zip".toList)]

/-- Which producer has a payload, its name there, and the machine that it is for. -/
def payloadSource : PayloadKind → Str × String × ℕ
  | .kmod kmi => ("kmod:".toList ++ kmi, "vpnhide_kmod.ko", 183)
  | .kpm => ("kpm".toList, "vpnhide.kpm", 183)
  | .zygisk true => ("zygisk".toList, "zygisk/arm64-v8a.so", 183)
  | .zygisk false => ("zygisk".toList, "zygisk/armeabi-v7a.so", 40)

/-- The capabilities of a payload. Those of a kernel module have to be there. -/
def payloadCapabilities (env : Env) (i : PayloadKind) (data : Bytes) :
    Except Fault (Option ℕ × Option ℕ) :=
  match i with
  | .kmod _ => do
    let caps ← inspectGki env.sha256 env.width data
    if caps.preflightProtocol ≠ some 1 ∨ caps.initContract ≠ some 1 then
      .error (.invalid "kmod lacks verified preflight and closed init contract")
    else .ok (caps.preflightProtocol, caps.initContract)
  | _ => .ok (none, none)

/-- The record of a bundle. -/
def bundleProvenance (commit : Str) (artifacts : List (Str × InputArtifact)) :
    BundleProvenance where
  schema := 1
  sourceCommit := commit
  inputs := artifacts.map fun a => (a.1, a.2.provenance)

section Assemble

variable (env : Env) (inputs : Inputs) (commit : Str)

/-- `open_with_budget`: an input is unpacked within what is left of the budget. -/
def openWithBudget (name component : Str) (remaining : ℕ) : Except Fault InputArtifact := do
  let data ← readRegular inputs name maxBundleBytes
  let files ← decodeArchive env.zip data 64 remaining
  let provenance ← metadata env.readProvenance files "build-provenance.json"
  provenance.validate env component commit files
  .ok ⟨provenance, files⟩

/-- An iteration of the loop over the producers. -/
def collect (retainedLimit : ℕ) (state : List (Str × InputArtifact) × ℕ) (spec : Str × Str) :
    Except Fault (List (Str × InputArtifact) × ℕ) := do
  -- What is retained is within the limit.
  let artifact ← openWithBudget env inputs commit spec.2 spec.1 (retainedLimit - state.2)
  .ok (mapInsert state.1 spec.1 artifact, state.2 + totalBytes artifact.files)

/-- A payload and its file. -/
def payloadOf (artifacts : List (Str × InputArtifact)) (i : PayloadKind) :
    Except Fault ((Str × Bytes) × Payload) := do
  let artifact ← okOr .panic (mapGet artifacts (payloadSource i).1)
  let data ← artifact.member (payloadSource i).2.1 (payloadSource i).2.2
  let caps ← payloadCapabilities env i data
  let proof := FileIdentity.of env.sha256 data
  let path ← lift (relativePath i)
  .ok ((path, data), {
    implementation := i
    version := artifact.provenance.version
    sourceCommit := commit
    sha256 := proof.sha256
    bytes := proof.bytes
    controlVersion := 2
    preflightProtocol := caps.1
    initContract := caps.2 })

/-- An iteration of the loop over the payloads. -/
def addPayload (artifacts : List (Str × InputArtifact)) (state : Files × List Payload)
    (i : PayloadKind) :
    Except Fault (Files × List Payload) := do
  let out ← payloadOf env commit artifacts i
  .ok (mapInsert state.1 out.1.1 out.1.2, state.2 ++ [out.2])

/-- All of `assemble_with_budget` but the writing. -/
def gather (retainedLimit : ℕ) : Except Fault Parts := do
  if !exactCommit commit then .error (.invalid "expected exact source commit")
  else
    let collected ← specs.foldlM (collect env inputs commit retainedLimit) ([], 0)
    let core ← okOr .panic (mapGet collected.1 "core".toList)
    requireFiles .producer (core.files.map Prod.fst)
    let _ ← core.member "bin/arm64/vpnhide-core" 183
    let _ ← core.member "bin/arm/vpnhide-core" 40
    let base := core.files.filter (·.1 ≠ provenanceFile)
    let properties ← readProperties base
    checkProperties properties
    let base := mapInsert base "module.prop".toList (activated properties).toUtf8
    let state ← Manifest.identities.foldlM (addPayload env commit collected.1) (base, [])
    let manifest : Manifest := ⟨manifestVersion, commit, state.2⟩
    lift manifest.requireComplete
    let files := mapInsert state.1 "payloads/manifest.json".toList (manifestText manifest)
    let files :=
      mapInsert files "bundle-provenance.json".toList
        (bundleText (bundleProvenance commit collected.1))
    requireFiles (.bundle manifest) (files.map Prod.fst)
    .ok ⟨collected.1, core, properties, files, manifest⟩

/-- `assemble_with_budget`: the package of all inputs, within a budget. -/
def assembleWithBudget (retainedLimit : ℕ) : Except Fault Bytes := do
  let parts ← gather env inputs commit retainedLimit
  writeArchive env.zip parts.files

/-- `assemble`: the package of all inputs. -/
def assemble : Except Fault Bytes := assembleWithBudget env inputs commit maxBundleBytes

end Assemble

/-! ## What has been gathered -/

/-- The files of the core that are kept. -/
def baseFiles (core : InputArtifact) : Files := core.files.filter (·.1 ≠ provenanceFile)

/-- The files of a bundle: those of the core, the payloads, the catalog and the record. -/
def bundleFiles (core : InputArtifact) (properties : Str) (payloads : Files)
    (catalog record : Bytes) : Files :=
  mapInsert (mapInsert
    (mapInsertAll (mapInsert (baseFiles core) "module.prop".toList (activated properties).toUtf8)
      payloads)
    "payloads/manifest.json".toList catalog) "bundle-provenance.json".toList record

variable {env : Env} {inputs : Inputs} {commit : Str} {retainedLimit : ℕ} {parts : Parts}

/-- The loop over the payloads. -/
theorem foldlM_addPayload_eq_ok_iff {artifacts : List (Str × InputArtifact)} {is : List PayloadKind}
    {state state' : Files × List Payload} :
    is.foldlM (addPayload env commit artifacts) state = .ok state' ↔
      ∃ outs, List.Forall₂ (fun i out => payloadOf env commit artifacts i = .ok out) is outs ∧
        state' = (mapInsertAll state.1 (outs.map Prod.fst), state.2 ++ outs.map Prod.snd) := by
  induction is generalizing state with
  | nil =>
    rw [List.foldlM_nil]
    constructor
    · intro h
      obtain rfl := Except.ok.inj h
      exact ⟨[], .nil, by rw [List.map_nil, List.map_nil, List.append_nil]; rfl⟩
    · rintro ⟨outs, houts, rfl⟩
      cases houts
      rw [List.map_nil, List.map_nil, List.append_nil]
      rfl
  | cons i is ih =>
    rw [List.foldlM_cons, bind_eq_ok_iff]
    constructor
    · rintro ⟨next, hnext, hrest⟩
      obtain ⟨out, hout, hinsert⟩ := ok_of_bind hnext
      obtain rfl := Except.ok.inj hinsert
      obtain ⟨outs, houts, rfl⟩ := ih.1 hrest
      refine ⟨out :: outs, .cons hout houts, ?_⟩
      rw [List.map_cons, List.map_cons, List.append_cons state.2 out.2 (outs.map Prod.snd)]
      rfl
    · rintro ⟨outs, houts, rfl⟩
      cases houts with
      | @cons _ out _ outs hout houts =>
        refine ⟨_, bind_eq_ok_iff.2 ⟨out, hout, rfl⟩, ih.2 ⟨outs, houts, ?_⟩⟩
        rw [List.map_cons, List.map_cons, List.append_cons state.2 out.2 (outs.map Prod.snd)]
        rfl

/-- What an assembly that succeeds has found and made, step by step. -/
structure Gathered (env : Env) (inputs : Inputs) (commit : Str) (retainedLimit : ℕ)
    (parts : Parts) : Prop where
  exact : exactCommit commit = true
  collected : ∃ retained, specs.foldlM (collect env inputs commit retainedLimit) ([], 0) =
    .ok (parts.artifacts, retained)
  hasCore : mapGet parts.artifacts "core".toList = some parts.core
  layout : requireFiles .producer (parts.core.files.map Prod.fst) = .ok ()
  daemonArm64 : ∃ data, parts.core.member "bin/arm64/vpnhide-core" 183 = .ok data
  daemonArm : ∃ data, parts.core.member "bin/arm/vpnhide-core" 40 = .ok data
  read : readProperties (baseFiles parts.core) = .ok parts.properties
  checked : checkProperties parts.properties = .ok ()
  added : ∃ outs, List.Forall₂ (fun i out => payloadOf env commit parts.artifacts i = .ok out)
    Manifest.identities outs ∧
    parts.manifest = ⟨manifestVersion, commit, outs.map Prod.snd⟩ ∧
    parts.files = bundleFiles parts.core parts.properties (outs.map Prod.fst)
      (manifestText parts.manifest)
      (bundleText (bundleProvenance commit parts.artifacts))
  complete : parts.manifest.requireComplete = .ok ()
  bundled : requireFiles (.bundle parts.manifest) (parts.files.map Prod.fst) = .ok ()

/-- What it takes for the parts to be gathered. -/
theorem gather_eq_ok_iff :
    gather env inputs commit retainedLimit = .ok parts ↔
      Gathered env inputs commit retainedLimit parts := by
  simp only [gather, ite_error_eq_ok_iff, bind_eq_ok_iff, lift_eq_ok_iff, okOr_eq_ok_iff,
    Except.ok.injEq, Bool.not_eq_true', Bool.not_eq_false]
  constructor
  · rintro ⟨hexact, ⟨artifacts, retained⟩, hcollected, core, hcore, _, hlayout, arm64, harm64, arm,
      harm, properties, hread, _, hchecked, _, hadded, _, hcomplete, _, hbundled, rfl⟩
    obtain ⟨outs, houts, rfl⟩ := foldlM_addPayload_eq_ok_iff.1 hadded
    exact ⟨hexact, ⟨retained, hcollected⟩, hcore, hlayout, ⟨arm64, harm64⟩, ⟨arm, harm⟩, hread,
      hchecked, ⟨outs, houts, rfl, rfl⟩, hcomplete, hbundled⟩
  · rintro ⟨hexact, ⟨retained, hcollected⟩, hcore, hlayout, ⟨arm64, harm64⟩, ⟨arm, harm⟩, hread,
      hchecked, ⟨outs, houts, hmanifest, hfiles⟩, hcomplete, hbundled⟩
    obtain ⟨artifacts, core, properties, files, manifest⟩ := parts
    dsimp only at hmanifest hfiles
    subst hmanifest hfiles
    exact ⟨hexact, (artifacts, retained), hcollected, core, hcore, (), hlayout, arm64, harm64, arm,
      harm, properties, hread, (), hchecked, _, foldlM_addPayload_eq_ok_iff.2 ⟨outs, houts, rfl⟩,
      (), hcomplete, (), hbundled, rfl⟩

/-! ## The producers -/

/-- What it takes for an input to be opened. -/
theorem openWithBudget_eq_ok_iff {name component : Str} {remaining : ℕ} {a : InputArtifact} :
    openWithBudget env inputs commit name component remaining = .ok a ↔ ∃ data,
      inputs name = some data ∧ data.length ≤ maxBundleBytes ∧
        decodeArchive env.zip data 64 remaining = .ok a.files ∧
        metadata env.readProvenance a.files "build-provenance.json" = .ok a.provenance ∧
        a.provenance.validate env component commit a.files = .ok () := by
  simp only [openWithBudget, readRegular, ite_error_eq_ok_iff, bind_eq_ok_iff, okOr_eq_ok_iff,
    Except.ok.injEq, not_lt]
  constructor
  · rintro ⟨data, ⟨_, hdata, hle, rfl⟩, files, hfiles, provenance, hprovenance, _, hvalid, rfl⟩
    exact ⟨_, hdata, hle, hfiles, hprovenance, hvalid⟩
  · rintro ⟨data, hdata, hle, hfiles, hprovenance, hvalid⟩
    exact ⟨data, ⟨data, hdata, hle, rfl⟩, a.files, hfiles, a.provenance,
      hprovenance, (), hvalid, rfl⟩

/-- An artifact that has been opened, for a producer. -/
def Opened (env : Env) (inputs : Inputs) (commit : Str) (limit : ℕ) (spec : Str × Str)
    (out : Str × InputArtifact) : Prop :=
  out.1 = spec.1 ∧ ∃ remaining ≤ limit, openWithBudget env inputs commit spec.2 spec.1
    remaining = .ok out.2

/-- The loop over the producers. -/
theorem opened_of_collect {specs : List (Str × Str)} {state state' : List (Str × InputArtifact) × ℕ}
    (h : specs.foldlM (collect env inputs commit retainedLimit) state = .ok state') :
    ∃ outs, List.Forall₂ (Opened env inputs commit retainedLimit) specs outs ∧
      state'.1 = mapInsertAll state.1 outs := by
  induction specs generalizing state with
  | nil =>
    obtain rfl := Except.ok.inj h
    exact ⟨[], .nil, rfl⟩
  | cons spec specs ih =>
    rw [List.foldlM_cons] at h
    obtain ⟨next, hnext, hrest⟩ := ok_of_bind h
    obtain ⟨a, ha, hinsert⟩ := ok_of_bind hnext
    obtain rfl := Except.ok.inj hinsert
    obtain ⟨outs, houts, hall⟩ := ih hrest
    exact ⟨(spec.1, a) :: outs, .cons ⟨rfl, _, Nat.sub_le _ _, ha⟩ houts, hall⟩

/-- Artifacts that can be opened within the limit are collected. -/
theorem collect_of_opened {artifact : Str → InputArtifact} {specs : List (Str × Str)}
    {state : List (Str × InputArtifact) × ℕ}
    (hopen : ∀ spec ∈ specs, ∀ remaining, totalBytes (artifact spec.1).files ≤ remaining →
      openWithBudget env inputs commit spec.2 spec.1 remaining = .ok (artifact spec.1))
    (hlimit : state.2 + (specs.map fun spec => totalBytes (artifact spec.1).files).sum ≤
      retainedLimit) :
    ∃ retained, specs.foldlM (collect env inputs commit retainedLimit) state =
      .ok (mapInsertAll state.1 (specs.map fun spec => (spec.1, artifact spec.1)), retained) := by
  induction specs generalizing state with
  | nil => exact ⟨state.2, rfl⟩
  | cons spec specs ih =>
    rw [List.map_cons, List.sum_cons] at hlimit
    obtain ⟨hspec, hspecs⟩ := List.forall_mem_cons.1 hopen
    have hcollect : collect env inputs commit retainedLimit state spec =
        .ok (mapInsert state.1 spec.1 (artifact spec.1),
          state.2 + totalBytes (artifact spec.1).files) := by
      rw [collect, hspec _ (by omega)]
      rfl
    rw [List.foldlM_cons, hcollect]
    exact ih hspecs (by dsimp only; omega)

/-! ## The files of a bundle -/

/-- Where a bundle has its payloads. -/
def payloadPaths : List Str := Manifest.identities.filterMap fun i => (relativePath i).toOption

/-- Each payload has a path of its own. -/
theorem nodup_payloadPaths : payloadPaths.Nodup := by decide

/-- What it takes for a payload to be put together. -/
theorem payloadOf_eq_ok_iff {artifacts : List (Str × InputArtifact)} {i : PayloadKind}
    {out : (Str × Bytes) × Payload} :
    payloadOf env commit artifacts i = .ok out ↔ ∃ artifact data caps path,
      mapGet artifacts (payloadSource i).1 = some artifact ∧
        artifact.member (payloadSource i).2.1 (payloadSource i).2.2 = .ok data ∧
        payloadCapabilities env i data = .ok caps ∧ relativePath i = .ok path ∧
        out = ((path, data), ⟨i, artifact.provenance.version, commit, env.sha256 data,
          data.length, 2, caps.1, caps.2⟩) := by
  simp only [payloadOf, bind_eq_ok_iff, okOr_eq_ok_iff, lift_eq_ok_iff, Except.ok.injEq]
  constructor
  · rintro ⟨artifact, hartifact, data, hdata, caps, hcaps, path, hpath, rfl⟩
    exact ⟨artifact, data, caps, path, hartifact, hdata, hcaps, hpath, rfl⟩
  · rintro ⟨artifact, data, caps, path, hartifact, hdata, hcaps, hpath, rfl⟩
    exact ⟨artifact, hartifact, data, hdata, caps, hcaps, path, hpath, rfl⟩

/-- A file for each payload. -/
theorem map_fst_payloads {artifacts : List (Str × InputArtifact)}
    {outs : List ((Str × Bytes) × Payload)}
    (h : List.Forall₂ (fun i out => payloadOf env commit artifacts i = .ok out)
      Manifest.identities outs) :
    (outs.map Prod.fst).map Prod.fst = payloadPaths := by
  have hmap : ∀ {is : List PayloadKind} {outs : List ((Str × Bytes) × Payload)},
      List.Forall₂ (fun i out => payloadOf env commit artifacts i = .ok out) is outs →
        (outs.map Prod.fst).map Prod.fst = is.filterMap fun i => (relativePath i).toOption := by
    intro is outs h
    induction h with
    | nil => rfl
    | cons hout _ ih =>
      obtain ⟨artifact, data, caps, path, -, -, -, hpath, rfl⟩ := payloadOf_eq_ok_iff.1 hout
      rw [List.map_cons, List.map_cons, ih, List.filterMap_cons, hpath]
      rfl
  exact hmap h

section BundleFiles

variable {core : InputArtifact} {properties name : Str} {payloads : Files} {catalog record : Bytes}

/-- Where each file of the package comes from. -/
theorem mapGet_bundleFiles : mapGet (bundleFiles core properties payloads catalog record) name =
    if "bundle-provenance.json".toList = name then some record
    else if "payloads/manifest.json".toList = name then some catalog
    else mapGet (mapInsertAll
      (mapInsert (baseFiles core) "module.prop".toList (activated properties).toUtf8) payloads)
      name := by
  rw [bundleFiles, mapGet_mapInsert, mapGet_mapInsert]

/-- A payload is in the bundle, as it is. -/
theorem mapGet_bundleFiles_payload (h : payloads.map Prod.fst = payloadPaths) {data : Bytes}
    (hmem : (name, data) ∈ payloads) :
    mapGet (bundleFiles core properties payloads catalog record) name = some data := by
  have hpath : name ∈ payloadPaths := h ▸ List.mem_map_of_mem hmem
  have hother : ∀ n ∈ payloadPaths, "bundle-provenance.json".toList ≠ n ∧
      "payloads/manifest.json".toList ≠ n := by decide
  rw [mapGet_bundleFiles, if_neg (hother name hpath).1, if_neg (hother name hpath).2,
    mapGet_mapInsertAll_of_mem (h ▸ nodup_payloadPaths) hmem]

/-- The properties are those that were given. -/
theorem mapGet_bundleFiles_properties (h : payloads.map Prod.fst = payloadPaths) :
    mapGet (bundleFiles core properties payloads catalog record) "module.prop".toList =
      some (activated properties).toUtf8 := by
  have hother : "module.prop".toList ∉ payloadPaths := by decide
  rw [mapGet_bundleFiles, if_neg (by decide), if_neg (by decide),
    mapGet_mapInsertAll_of_notMem (h ▸ hother), mapGet_mapInsert, if_pos rfl]

/-- A file of the core that is not written anew. -/
structure Kept (name : Str) : Prop where
  record : "bundle-provenance.json".toList ≠ name
  catalog : "payloads/manifest.json".toList ≠ name
  payload : name ∉ payloadPaths
  properties : "module.prop".toList ≠ name
  provenance : name ≠ provenanceFile

/-- The files of the core that a descriptor identifies. -/
def coreMembers : List Str :=
  ["bin/arm64/vpnhide-core", "bin/arm/vpnhide-core", "service.sh", "sepolicy.rule"].map
    String.toList

theorem kept_of_mem {name : Str} (h : name ∈ coreMembers) : Kept name := by
  have hall : ∀ name ∈ coreMembers, "bundle-provenance.json".toList ≠ name ∧
      "payloads/manifest.json".toList ≠ name ∧ name ∉ payloadPaths ∧ "module.prop".toList ≠ name ∧
      name ≠ provenanceFile := by decide
  obtain ⟨hrecord, hcatalog, hpayload, hproperties, hprovenance⟩ := hall name h
  exact ⟨hrecord, hcatalog, hpayload, hproperties, hprovenance⟩

/-- The files of Core that are kept. -/
theorem mapGet_bundleFiles_kept (h : payloads.map Prod.fst = payloadPaths) (hname : Kept name) :
    mapGet (bundleFiles core properties payloads catalog record) name = mapGet core.files name := by
  rw [mapGet_bundleFiles, if_neg hname.record, if_neg hname.catalog,
    mapGet_mapInsertAll_of_notMem (h ▸ hname.payload), mapGet_mapInsert, if_neg hname.properties,
    baseFiles]
  exact mapGet_filter (fun n => n ≠ provenanceFile) (decide_eq_true hname.provenance)

/-- What holds of each file. -/
theorem forall_mem_bundleFiles {P : Str × Bytes → Prop} (hbase : ∀ f ∈ baseFiles core, P f)
    (hproperties : P ("module.prop".toList, (activated properties).toUtf8))
    (hpayloads : ∀ f ∈ payloads, P f)
    (hcatalog : P ("payloads/manifest.json".toList, catalog))
    (hrecord : P ("bundle-provenance.json".toList, record)) :
    ∀ f ∈ bundleFiles core properties payloads catalog record, P f := by
  intro f hf
  obtain rfl | hf := mem_upsert hf
  · exact hrecord
  obtain rfl | hf := mem_upsert hf
  · exact hcatalog
  obtain hf | hf := mem_mapInsertAll hf
  · exact hpayloads f hf
  obtain rfl | hf := mem_upsert hf
  · exact hproperties
  · exact hbase f hf

/-- The files of the package are in order. -/
theorem sorted_bundleFiles (hcore : SortedBy Prod.fst core.files) :
    SortedBy Prod.fst (bundleFiles core properties payloads catalog record) :=
  sorted_mapInsert (sorted_mapInsert (sorted_mapInsertAll (sorted_mapInsert (hcore.filter _))))

end BundleFiles

/-- What has been gathered of a payload is what an inspection finds. -/
theorem checkPayload_of_payloadOf {artifacts : List (Str × InputArtifact)} {i : PayloadKind}
    {out : (Str × Bytes) × Payload} {files : Files} (h : payloadOf env commit artifacts i = .ok out)
    (hfile : mapGet files out.1.1 = some out.1.2) :
    checkPayload env commit files out.2 = .ok () := by
  obtain ⟨artifact, data, caps, path, -, -, hcaps, hpath, rfl⟩ := payloadOf_eq_ok_iff.1 h
  simp only [checkPayload, bind_eq_ok_iff, lift_eq_ok_iff, okOr_eq_ok_iff, ite_error_eq_ok_iff]
  refine ⟨path, hpath, data, hfile, by simp [FileIdentity.of], ?_⟩
  cases i with
  | kmod kmi =>
    obtain ⟨k, hk, hchecked⟩ := bind_eq_ok_iff.1 hcaps
    obtain ⟨hgood, hsame⟩ := ite_error_eq_ok_iff.1 hchecked
    obtain rfl := Except.ok.inj hsame
    rw [not_or, not_not, not_not] at hgood
    refine bind_eq_ok_iff.2 ⟨k, hk, ite_error_eq_ok_iff.2 ⟨?_, rfl⟩⟩
    simp [hgood]
  | kpm => rfl
  | zygisk arm64 => rfl

end VpnHide.Artifact

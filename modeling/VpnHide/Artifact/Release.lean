import VpnHide.Artifact.Assemble
import VpnHide.Artifact.Container

/-!
# Releases

A bundle that has been assembled is inspected by its publisher, and verified by each device
(`artifact-model/src/archive.rs`). The rules for a bundle are stated on both sides, and an
inspection has some that an assembly has not (`Fit`): scripts that are there, one identity, and
metadata within its limit. So a bundle is accepted if and only if its inputs are fit, and what
is verified is exact (`accepted_iff_fit_and_exact`).
-/

namespace VpnHide.Artifact

open Lib Native

/-! ## What an inspection wants of the inputs -/

section Fit

variable (env : Env) (inputs : Inputs)

/-- The files of an input. -/
def inputFiles (name : Str) : Files :=
  ((inputs name).bind fun data => (decodeArchive env.zip data 64 maxBundleBytes).toOption).getD []

/-- The files of the Core input. -/
def coreFiles : Files := inputFiles env inputs "vpnhide-core-base.zip".toList

/-- How much the provenance of an input takes in the record of a bundle. -/
def provenanceBytes (name : Str) : ℕ :=
  match metadata env.readProvenance (inputFiles env inputs name) "build-provenance.json" with
  | .ok p => byteLen (provenanceText p)
  | .error _ => 0

/-- What the record of a bundle takes beyond the provenances of the inputs. -/
def recordOverhead : ℕ := 266

/-- A file that is not empty, and within the limit for metadata. -/
def Identifiable (files : Files) (name : String) : Prop :=
  ∃ data, mapGet files name.toList = some data ∧ data ≠ [] ∧ data.length ≤ maxManifestBytes

/-- What an inspection wants, and an assembly does not. -/
structure Fit : Prop where
  service : Identifiable (coreFiles env inputs) "service.sh"
  sepolicy : Identifiable (coreFiles env inputs) "sepolicy.rule"
  properties : ∃ text, readProperties (coreFiles env inputs) = .ok text ∧
    (Str.lines text).countP isIdentity = 1 ∧
    byteLen (text.rdropWhile (· == '\n')) + 18 ≤ maxManifestBytes
  record : recordOverhead + (specs.map fun spec => provenanceBytes env inputs spec.2).sum ≤
    maxManifestBytes

end Fit

/-- The libraries give back what they have written for a bundle. -/
structure Env.Faithful (env : Env) (commit : Str) (parts : Parts) : Prop where
  zip : env.zip.Faithful (parts.files.map memberOf)
  manifest : env.readManifest (manifestText parts.manifest) = some parts.manifest
  bundle : env.readBundle (bundleText (bundleProvenance commit parts.artifacts)) =
    some (bundleProvenance commit parts.artifacts)

/-- A bundle that has been assembled. -/
structure Release where
  env : Env
  inputs : Inputs
  commit : Str
  package : Bytes
  assembled : assemble env inputs commit = .ok package
  faithful : ∀ parts, gather env inputs commit maxBundleBytes = .ok parts →
    env.Faithful commit parts

/-- The bundle can be published, under any number, and installed. -/
def Release.Accepted (r : Release) : Prop :=
  ∀ sequence, 0 < sequence → sequence < 2 ^ 64 →
    ∃ d, inspectPackage r.env r.package r.commit sequence = .ok d ∧
      verifyPackage r.env r.package d = .ok ()

/-! ## The inputs of a bundle -/

variable {env : Env} {inputs : Inputs} {commit : Str} {limit : ℕ} {parts : Parts}
  {package : Bytes} {sequence : ℕ}

/-- The inputs are opened in their order. -/
theorem keys_of_opened {specs : List (Str × Str)} {outs : List (Str × InputArtifact)}
    (h : List.Forall₂ (Opened env inputs commit limit) specs outs) :
    outs.map Prod.fst = specs.map Prod.fst := by
  induction h with
  | nil => rfl
  | cons hout _ ih => rw [List.map_cons, List.map_cons, ih, hout.1]

/-- The artifacts of a bundle are those that have been opened, in the order of their names. -/
theorem Gathered.opened (h : Gathered env inputs commit limit parts) :
    ∃ outs, List.Forall₂ (Opened env inputs commit limit) specs outs ∧
      parts.artifacts.Perm outs := by
  obtain ⟨retained, hretained⟩ := h.collected
  obtain ⟨outs, houts, hall⟩ := opened_of_collect hretained
  have hnodup : ((outs ++ []).map Prod.fst).Nodup := by
    rw [List.append_nil, keys_of_opened houts]
    decide
  have hperm := perm_mapInsertAll hnodup
  rw [List.append_nil] at hperm
  exact ⟨outs, houts, (List.Perm.of_eq hall).trans hperm⟩

theorem exists_of_mem_right {α β : Type} {R : α → β → Prop} {l : List α} {l' : List β} {b : β}
    (h : List.Forall₂ R l l') (hb : b ∈ l') : ∃ a ∈ l, R a b := by
  induction h with
  | nil => cases hb
  | @cons a _ _ _ hR _ ih =>
    obtain rfl | hb := List.mem_cons.1 hb
    · exact ⟨a, List.mem_cons_self, hR⟩
    · obtain ⟨a, ha, hR⟩ := ih hb
      exact ⟨a, List.mem_cons_of_mem _ ha, hR⟩

/-- An artifact has been opened for one of the producers. -/
theorem Gathered.opened_of_mem (h : Gathered env inputs commit limit parts)
    {out : Str × InputArtifact} (hout : out ∈ parts.artifacts) :
    ∃ spec ∈ specs, Opened env inputs commit limit spec out := by
  obtain ⟨outs, houts, hperm⟩ := h.opened
  exact exists_of_mem_right houts (hperm.mem_iff.1 hout)

/-- The files of an input that is opened. -/
theorem Opened.inputFiles_eq {spec : Str × Str} {out : Str × InputArtifact}
    (h : Opened env inputs commit maxBundleBytes spec out) :
    inputFiles env inputs spec.2 = out.2.files := by
  obtain ⟨-, remaining, hle, hopen⟩ := h
  obtain ⟨data, hdata, -, hfiles, -⟩ := openWithBudget_eq_ok_iff.1 hopen
  rw [inputFiles, hdata, Option.bind_some, decodeArchive_mono hle hfiles]
  rfl

/-- The files of Core that are gathered. -/
theorem Gathered.core_files (h : Gathered env inputs commit maxBundleBytes parts) :
    parts.core.files = coreFiles env inputs := by
  obtain ⟨spec, hspec, hopened⟩ := h.opened_of_mem (mem_of_mapGet h.hasCore)
  have hname :
      ∀ spec ∈ specs, "core".toList = spec.1 → spec.2 = "vpnhide-core-base.zip".toList := by decide
  rw [coreFiles, ← hname spec hspec hopened.1, hopened.inputFiles_eq]

/-- What is recorded of an input. -/
theorem Gathered.checkInput (h : Gathered env inputs commit limit parts) {input : Str × Provenance}
    (hinput : input ∈ (bundleProvenance commit parts.artifacts).inputs) :
    checkInput commit input = .ok () := by
  obtain ⟨out, hout, rfl⟩ := List.mem_map.1 hinput
  obtain ⟨spec, -, hcomponent, remaining, -, hopen⟩ := h.opened_of_mem hout
  obtain ⟨-, -, -, -, -, hvalid⟩ := openWithBudget_eq_ok_iff.1 hopen
  have hgood := (ite_error_eq_ok_iff.1 hvalid).1
  simp only [not_or, not_not] at hgood
  rw [Artifact.checkInput, ite_error_eq_ok_iff, hcomponent]
  simp only [not_or, not_not, and_true]
  exact ⟨hgood.1, hgood.2.1, hgood.2.2.1, hgood.2.2.2.2.1, hgood.2.2.2.2.2.1⟩

/-- The provenance has just the components. -/
theorem Gathered.keys (h : Gathered env inputs commit limit parts) :
    (bundleProvenance commit parts.artifacts).inputs.map Prod.fst ⊆ components ∧
      components ⊆ (bundleProvenance commit parts.artifacts).inputs.map Prod.fst := by
  obtain ⟨outs, houts, hperm⟩ := h.opened
  have hkeys :
      ((bundleProvenance commit parts.artifacts).inputs.map Prod.fst).Perm
      (specs.map Prod.fst) := by
    rw [← keys_of_opened houts, bundleProvenance, List.map_map]
    exact hperm.map Prod.fst
  have hsame : specs.map Prod.fst ⊆ components ∧ components ⊆ specs.map Prod.fst := by decide
  exact ⟨fun c hc => hsame.1 (hkeys.mem_iff.1 hc), fun c hc => hkeys.mem_iff.2 (hsame.2 hc)⟩

/-- The record of a bundle takes what the provenances of its inputs take, and a bit more. -/
theorem Gathered.length_record (h : Gathered env inputs commit maxBundleBytes parts) :
    (bundleText (bundleProvenance commit parts.artifacts)).length =
      recordOverhead + (specs.map fun spec => provenanceBytes env inputs spec.2).sum := by
  obtain ⟨outs, houts, hperm⟩ := h.opened
  -- The provenances are written as they were read, in the order of the inputs.
  have htexts : ∀ {specs : List (Str × Str)} {outs : List (Str × InputArtifact)},
      List.Forall₂ (Opened env inputs commit maxBundleBytes) specs outs →
        (outs.map fun o => byteLen (provenanceText o.2.provenance)) =
          specs.map fun spec => provenanceBytes env inputs spec.2 := by
    intro specs outs houts
    induction houts with
    | nil => rfl
    | cons hopened _ ih =>
      obtain ⟨-, _, -, hopen⟩ := id hopened
      obtain ⟨-, -, -, -, hread, -⟩ := openWithBudget_eq_ok_iff.1 hopen
      rw [List.map_cons, List.map_cons, ih, provenanceBytes, hopened.inputFiles_eq, hread]
  -- The names of the components are always the same ones.
  have hkeys : (outs.map fun o => byteLen (jsonString o.1) + 2).sum = 184 := by
    have hmap : (outs.map fun o => byteLen (jsonString o.1) + 2) =
        (outs.map Prod.fst).map fun key => byteLen (jsonString key) + 2 := by
      rw [List.map_map]
      rfl
    rw [hmap, keys_of_opened houts]
    decide
  have hsum : (parts.artifacts.map fun o =>
    byteLen (jsonString o.1) + byteLen (provenanceText o.2.provenance) + 2).sum =
      184 + (specs.map fun spec => provenanceBytes env inputs spec.2).sum := by
    rw [(hperm.map _).sum_nat, ← htexts houts, ← hkeys, ← List.sum_map_add]
    refine congrArg List.sum (List.map_congr_left fun o _ => ?_)
    omega
  have hne : parts.artifacts ≠ [] := fun hnil => by
    have hcore := mem_of_mapGet h.hasCore
    rw [hnil] at hcore
    cases hcore
  have hcommit : byteLen (jsonString commit) = 42 := byteLen_jsonString_of_hex h.exact
  have hnames : byteLen (jsonString "schema".toList) = 8 ∧
      byteLen (jsonString "source_commit".toList) = 15 ∧ byteLen (jsonString "inputs".toList) = 8 ∧
      byteLen (jsonNat 1) = 1 := by decide
  rw [bundleText, ← byteLen, byteLen_jsonObject (List.cons_ne_nil _ _)]
  simp only [bundleProvenance, List.map_map, List.map_cons, List.map_nil, List.sum_cons,
    List.sum_nil, hnames, hcommit]
  rw [byteLen_jsonObject (mt List.map_eq_nil_iff.1 hne), List.map_map, recordOverhead]
  have hsame :
      (parts.artifacts.map ((fun f : Str × Str => byteLen (jsonString f.1) + byteLen f.2 + 2) ∘
        (fun i : Str × Provenance => (i.1, provenanceText i.2)) ∘
          fun a : Str × InputArtifact => (a.1, a.2.provenance))).sum =
      184 + (specs.map fun spec => provenanceBytes env inputs spec.2).sum := hsum
  rw [hsame]
  omega

/-! ## The files of a bundle -/

/-- The files of the package are in order. -/
theorem Gathered.sorted (h : Gathered env inputs commit limit parts) :
    SortedBy Prod.fst parts.files := by
  obtain ⟨spec, -, -, remaining, -, hopen⟩ := h.opened_of_mem (mem_of_mapGet h.hasCore)
  obtain ⟨data, -, -, hfiles, -⟩ := openWithBudget_eq_ok_iff.1 hopen
  obtain ⟨outs, -, -, hbundle⟩ := h.added
  rw [hbundle]
  exact sorted_bundleFiles (sorted_decodeArchive hfiles)

/-- A file that is not written anew is that of the core. -/
theorem Gathered.mapGet_kept (h : Gathered env inputs commit maxBundleBytes parts) {name : Str}
    (hname : Kept name) :
    mapGet parts.files name = mapGet (coreFiles env inputs) name := by
  obtain ⟨outs, houts, -, hbundle⟩ := h.added
  rw [hbundle, mapGet_bundleFiles_kept (map_fst_payloads houts) hname, h.core_files]

theorem Gathered.identifiable_kept (h : Gathered env inputs commit maxBundleBytes parts)
    {name : String} (hname : Kept name.toList) :
    Identifiable parts.files name ↔ Identifiable (coreFiles env inputs) name := by
  rw [Identifiable, h.mapGet_kept hname, Identifiable]

/-- The properties that the package has. -/
theorem Gathered.mapGet_properties (h : Gathered env inputs commit limit parts) :
    mapGet parts.files "module.prop".toList = some (activated parts.properties).toUtf8 := by
  obtain ⟨outs, houts, -, hbundle⟩ := h.added
  rw [hbundle, mapGet_bundleFiles_properties (map_fst_payloads houts)]

/-- The manifest that the package has. -/
theorem Gathered.mapGet_catalog (h : Gathered env inputs commit limit parts) :
    mapGet parts.files "payloads/manifest.json".toList = some (manifestText parts.manifest) := by
  obtain ⟨outs, houts, -, hbundle⟩ := h.added
  rw [hbundle, mapGet_bundleFiles, if_neg (by decide), if_pos rfl]

/-- The record that the package has. -/
theorem Gathered.mapGet_record (h : Gathered env inputs commit limit parts) :
    mapGet parts.files "bundle-provenance.json".toList =
      some (bundleText (bundleProvenance commit parts.artifacts)) := by
  obtain ⟨outs, houts, -, hbundle⟩ := h.added
  rw [hbundle, mapGet_bundleFiles, if_pos rfl]

/-- The properties of the core, and those of the bundle. -/
theorem Gathered.readProperties_core (h : Gathered env inputs commit maxBundleBytes parts) :
    readProperties (coreFiles env inputs) = .ok parts.properties := by
  have hread := h.read
  rwa [readProperties, baseFiles, mapGet_filter (fun n => n ≠ provenanceFile) (by decide),
    h.core_files] at hread

/-- The properties are read back. -/
theorem Gathered.readProperties_bundle (h : Gathered env inputs commit limit parts) :
    readProperties parts.files = .ok (activated parts.properties) := by
  rw [readProperties, h.mapGet_properties]
  change okOr _ (Str.fromUtf8 (Str.toUtf8 _)) = _
  rw [Str.fromUtf8_toUtf8]
  rfl

/-- The properties of a bundle identify the core if those of the core have one identity. -/
theorem Gathered.checkIdentity (h : Gathered env inputs commit limit parts) :
    checkIdentity (activated parts.properties) = .ok () ↔
      (Str.lines parts.properties).countP isIdentity = 1 := by
  have hchecked := (ite_error_eq_ok_iff.1 h.checked).1
  rw [not_or, not_not] at hchecked
  exact checkIdentity_activated hchecked.1

theorem byteLen_activated (properties : Str) :
    (activated properties).toUtf8.length = byteLen (properties.rdropWhile (· == '\n')) + 18 := by
  have hline : byteLen "\nvpnhideControl=2\n".toList = 18 := by decide
  rw [activated, ← byteLen, byteLen_append, hline]

/-- A daemon is that of the core, and is of its architecture. -/
theorem Gathered.checkDaemon (h : Gathered env inputs commit maxBundleBytes parts)
    {name missing : String} {machine : ℕ} (hname : Kept name.toList)
    (hdaemon : ∃ data, parts.core.member name machine = .ok data) :
    checkDaemon parts.files name machine missing = .ok () ∧
      ∃ data, mapGet parts.files name.toList = some data ∧ data ≠ [] := by
  obtain ⟨_, hmember⟩ := hdaemon
  simp only [InputArtifact.member, bind_eq_ok_iff, okOr_eq_ok_iff] at hmember
  obtain ⟨data, hdata, _, harchitecture, -⟩ := hmember
  rw [h.core_files, ← h.mapGet_kept hname] at hdata
  refine ⟨bind_eq_ok_iff.2 ⟨data, okOr_eq_ok_iff.2 hdata, harchitecture⟩, data, hdata, ?_⟩
  rintro rfl
  cases harchitecture

/-! ## Acceptance -/

/-- What was written is decoded to the files. -/
theorem Gathered.decoded (h : Gathered env inputs commit limit parts)
    (hfaithful : env.Faithful commit parts)
    (hwritten : writeArchive env.zip parts.files = .ok package) :
    decodeArchive env.zip package 128 maxBundleBytes = .ok parts.files := by
  obtain ⟨htotal, hcount, -⟩ := writeArchive_eq_ok_iff.1 hwritten
  exact decodeArchive_of_written h.sorted hfaithful.zip hwritten hcount htotal (by decide)

/-- What is inspected has been fit. -/
theorem fit_of_inspected (h : Gathered env inputs commit maxBundleBytes parts)
    (hfaithful : env.Faithful commit parts)
    (hwritten : writeArchive env.zip parts.files = .ok package) {files : Files}
    {manifest : Manifest}
    {provenance : BundleProvenance} {runtime : RuntimeIdentity}
    (hinspected : Inspected env package commit sequence files manifest provenance runtime) :
    Fit env inputs := by
  obtain rfl : parts.files = files :=
    Except.ok.inj ((h.decoded hfaithful hwritten).symm.trans hinspected.decoded)
  have hidentified : ∀ m ∈ runtimeMembers, ∃ data,
      mapGet parts.files m.1.toList = some data ∧ data ≠ [] ∧ data.length ≤ m.2.1 := fun m hm =>
    let ⟨data, hdata, hne, hle, _⟩ :=
      identityOf_eq_ok_iff.1 (runtimeIdentity_eq_ok_iff.1 hinspected.identified m hm)
    ⟨data, hdata, hne, hle⟩
  simp only [runtimeMembers, List.forall_mem_cons] at hidentified
  obtain ⟨-, -, -, hservice, hsepolicy, ⟨data, hdata, -, hle⟩, -⟩ := hidentified
  obtain ⟨properties, hproperties, hidentity⟩ := hinspected.identity
  obtain rfl := Except.ok.inj (h.readProperties_bundle.symm.trans hproperties)
  obtain ⟨record, hrecord, hlimit, -⟩ := metadata_eq_ok_iff.1 hinspected.record
  refine ⟨(h.identifiable_kept (kept_of_mem (by decide))).1 hservice,
    (h.identifiable_kept (kept_of_mem (by decide))).1 hsepolicy,
    ⟨parts.properties, h.readProperties_core, h.checkIdentity.1 hidentity, ?_⟩, ?_⟩
  · obtain rfl := Option.some.inj (h.mapGet_properties.symm.trans hdata)
    rwa [byteLen_activated] at hle
  · obtain rfl := Option.some.inj (h.mapGet_record.symm.trans hrecord)
    rwa [h.length_record] at hlimit

/-- What is fit can be inspected. -/
theorem inspected_of_fit (h : Gathered env inputs commit maxBundleBytes parts)
    (hfaithful : env.Faithful commit parts)
    (hwritten : writeArchive env.zip parts.files = .ok package) (hfit : Fit env inputs)
    (hsequence : sequence ≠ 0) :
    ∃ runtime, Inspected env package commit sequence parts.files parts.manifest
      (bundleProvenance commit parts.artifacts) runtime := by
  obtain ⟨hvalid, -⟩ := Manifest.requireComplete_eq_ok_iff.1 h.complete
  obtain ⟨-, -, hwritable, hpackage, hle⟩ := writeArchive_eq_ok_iff.1 hwritten
  obtain ⟨outs, houts, hmanifest, hbundle⟩ := h.added
  obtain ⟨harm64, arm64, hget64, hne64⟩ := h.checkDaemon (kept_of_mem (by decide)) h.daemonArm64
  obtain ⟨harm, arm, hget, hne⟩ := h.checkDaemon (kept_of_mem (by decide)) h.daemonArm
  obtain ⟨service, hservice, hservicene, hservicele⟩ :=
    (h.identifiable_kept (kept_of_mem (by decide))).2 hfit.service
  obtain ⟨sepolicy, hsepolicy, hsepolicyne, hsepolicyle⟩ :=
    (h.identifiable_kept (kept_of_mem (by decide))).2 hfit.sepolicy
  obtain ⟨properties, hproperties, hone, hlength⟩ := hfit.properties
  obtain rfl := Except.ok.inj (h.readProperties_core.symm.trans hproperties)
  -- What is written into the archive is within the limit of a member.
  have hmember : ∀ {name data}, mapGet parts.files name = some data →
      data.length ≤ maxPayloadBytes := fun hdata =>
    (hwritable _ (mem_of_mapGet hdata)).length_le
  let runtime : RuntimeIdentity :=
    ⟨.of env.sha256 arm64, .of env.sha256 arm, .of env.sha256 (manifestText parts.manifest),
      .of env.sha256 service, .of env.sha256 sepolicy,
      .of env.sha256 (activated parts.properties).toUtf8⟩
  -- The six files that identify the runtime are all there, and none is empty or too long.
  have hruntime : runtimeIdentity env parts.files = .ok runtime := by
    rw [runtimeIdentity_eq_ok_iff]
    simp only [runtimeMembers, List.forall_mem_cons, List.not_mem_nil, false_imp_iff,
      implies_true, and_true]
    refine ⟨identityOf_eq_ok_iff.2 ⟨arm64, hget64, hne64, hmember hget64, rfl⟩,
      identityOf_eq_ok_iff.2 ⟨arm, hget, hne, hmember hget, rfl⟩,
      identityOf_eq_ok_iff.2 ⟨_, h.mapGet_catalog, ?_, length_manifestText_le hvalid, rfl⟩,
      identityOf_eq_ok_iff.2 ⟨service, hservice, hservicene, hservicele, rfl⟩,
      identityOf_eq_ok_iff.2 ⟨sepolicy, hsepolicy, hsepolicyne, hsepolicyle, rfl⟩,
      identityOf_eq_ok_iff.2 ⟨_, h.mapGet_properties, ?_, ?_, rfl⟩⟩
    · exact List.cons_ne_nil _ _
    · refine List.ne_nil_of_length_pos ?_
      rw [byteLen_activated]
      omega
    · rwa [byteLen_activated]
  refine ⟨runtime, h.exact, hsequence, h.decoded hfaithful hwritten,
    metadata_eq_ok_iff.2 ⟨_, h.mapGet_catalog, length_manifestText_le hvalid, hfaithful.manifest⟩,
    h.complete, h.bundled,
    metadata_eq_ok_iff.2 ⟨_, h.mapGet_record, h.length_record.trans_le hfit.record,
      hfaithful.bundle⟩, rfl, rfl, ?_, h.keys, fun _ => h.checkInput, ?_, harm64, harm,
    ⟨_, h.readProperties_bundle, h.checkIdentity.2 hone⟩, hruntime, ?_⟩
  · rw [hmanifest]
  · intro p hp
    rw [hmanifest] at hp
    obtain ⟨out, hout, rfl⟩ := List.mem_map.1 hp
    obtain ⟨i, -, hi⟩ := exists_of_mem_right houts hout
    refine checkPayload_of_payloadOf hi ?_
    rw [hbundle]
    exact mapGet_bundleFiles_payload (map_fst_payloads houts) (List.mem_map_of_mem hout)
  · refine validate_descriptorOf h.exact hsequence ?_ hle hruntime
    rw [hpackage]
    exact hfaithful.zip.nonempty

/-- A bundle that has been assembled is accepted if and only if its inputs are fit. What is verified
    has exactly the files that are recorded. -/
theorem accepted_iff_fit_and_exact (r : Release) : (r.Accepted ↔ Fit r.env r.inputs) ∧
    ∀ (env : Env) (package : Bytes) (d : Descriptor), verifyPackage env package d = .ok () →
      ∃ files manifest, Exact env package d files manifest := by
  refine ⟨?_, fun env package d => exact_of_verifyPackage⟩
  obtain ⟨parts, hparts, hwritten⟩ := bind_eq_ok_iff.1 r.assembled
  have h := gather_eq_ok_iff.1 hparts
  have hfaithful := r.faithful parts hparts
  constructor
  · -- The sequence is any: what is accepted under one is accepted under all.
    intro haccepted
    obtain ⟨d, hd, -⟩ := haccepted 1 Nat.one_pos (by decide)
    obtain ⟨files, manifest, provenance, runtime, hinspected, -⟩ := inspectPackage_eq_ok_iff.1 hd
    exact fit_of_inspected h hfaithful hwritten hinspected
  · intro hfit sequence hpos _
    obtain ⟨runtime, hinspected⟩ := inspected_of_fit h hfaithful hwritten hfit (Nat.ne_of_gt hpos)
    have hd := inspectPackage_eq_ok_iff.2 ⟨_, _, _, _, hinspected, rfl⟩
    exact ⟨_, hd, verifyPackage_of_inspectPackage hd⟩

/-! ## Bundles with and without scripts -/

/-- The first bytes of a program for a machine. -/
def programHeader (machine : ℕ) : Bytes :=
  [0x7f, 0x45, 0x4c, 0x46, if machine = 183 then 2 else 1, 1] ++ List.replicate 12 0 ++
    toLe 2 machine

/-- The properties of the example. -/
def exampleProperties : Str := "id=vpnhide_core\n".toList

/-- The files of a producer. The core has its scripts, or it has not. -/
def producerFiles (scripts : Bool) (component : Str) : Files :=
  if component = "core".toList then
    [("bin/arm/vpnhide-core".toList, programHeader 40),
      ("bin/arm64/vpnhide-core".toList, programHeader 183),
      ("module.prop".toList, exampleProperties.toUtf8)] ++
      if scripts then [("sepolicy.rule".toList, [0]), ("service.sh".toList, [0])] else []
  else if component = "kpm".toList then [("vpnhide.kpm".toList, programHeader 183)]
  else if component = "zygisk".toList then
    [("zygisk/arm64-v8a.so".toList, programHeader 183),
      ("zygisk/armeabi-v7a.so".toList, programHeader 40)]
  else [("vpnhide_kmod.ko".toList, exampleModule)]

/-- The commit of the example. -/
def exampleCommit : Str := List.replicate 40 'a'

/-- The version of the example. -/
def exampleVersion : Str := "1".toList

/-- What a producer records of its files. -/
def exampleProvenance (scripts : Bool) (component : Str) : Provenance :=
  ⟨1, exampleCommit, false, component, exampleVersion,
    (producerFiles scripts component).map fun f => (f.1, .of Sha256.hexDigest f.2)⟩

/-- The provenance of an input, as its file has it. -/
def provenanceData (scripts : Bool) (component : Str) : Bytes :=
  (provenanceText (exampleProvenance scripts component)).toUtf8

/-- An input of the example, unpacked. -/
def exampleArtifact (scripts : Bool) (component : Str) : InputArtifact where
  provenance := exampleProvenance scripts component
  files := mapInsert (producerFiles scripts component) provenanceFile
    (provenanceData scripts component)

/-- The inputs of the example. -/
def exampleInputs (scripts : Bool) : Inputs := fun name =>
  (specs.find? fun spec => spec.2 = name).map fun spec =>
    container.write ((exampleArtifact scripts spec.1).files.map memberOf)

/-- The inputs of the example by component. -/
@[irreducible]
def exampleArtifacts (scripts : Bool) : List (Str × InputArtifact) :=
  mapInsertAll [] (specs.map fun spec => (spec.1, exampleArtifact scripts spec.1))

/-- A payload and its file. -/
def exampleOut (i : PayloadKind) : (Str × Bytes) × Payload :=
  let file := match i with
    | .kmod _ => exampleModule
    | .zygisk false => programHeader 40
    | _ => programHeader 183
  let capability := match i with
    | .kmod _ => some 1
    | _ => none
  (((relativePath i).toOption.getD [], file),
    ⟨i, exampleVersion, exampleCommit, Sha256.hexDigest file, file.length, 2, capability,
      capability⟩)

/-- The payloads of the example with the files they are in. -/
def exampleOuts : List ((Str × Bytes) × Payload) := Manifest.identities.map exampleOut

/-- The manifest of the example. -/
def exampleManifest : Manifest := ⟨manifestVersion, exampleCommit, exampleOuts.map Prod.snd⟩

/-- What has been written can be read. -/
def readText {α : Type} (text : α → Bytes) (written : List α) (data : Bytes) : Option α :=
  written.find? fun a => text a = data

/-- A digest is 64 hexadecimal digits. -/
theorem hex_hexDigest (data : Bytes) : hex (Sha256.hexDigest data) 64 = true := by
  have hascii : ∀ c ∈ Sha256.hexDigest data, c.toNat < 128 := fun c hc => by
    have hall : ∀ c ∈ Sha256.hexDigits, c.toNat < 128 := by decide
    exact hall c (Sha256.mem_hexDigits_of_mem_hexDigest hc)
  rw [hex, Str.toUtf8_eq_map hascii, List.length_map, Sha256.length_hexDigest, List.all_map,
    decide_eq_true rfl, Bool.true_and, List.all_eq_true]
  intro c hc
  have hall : ∀ c ∈ Sha256.hexDigits,
      ((48 ≤ c.toUInt8 && c.toUInt8 ≤ 57) || (97 ≤ c.toUInt8 && c.toUInt8 ≤ 102)) = true := by
    decide
  exact hall c (Sha256.mem_hexDigits_of_mem_hexDigest hc)

/-- The environment of the example: a framing container, and readers that know these texts only. -/
def exampleEnv (scripts : Bool) : Env where
  width := .w64
  sha256 := Sha256.hexDigest
  hex_sha256 := hex_hexDigest
  zip := container
  readManifest := readText manifestText [exampleManifest]
  readProvenance :=
    readText (fun p => (provenanceText p).toUtf8)
      (specs.map fun spec => exampleProvenance scripts spec.1)
  readBundle := readText bundleText [bundleProvenance exampleCommit (exampleArtifacts scripts)]

/-- What is gathered for the package. -/
def exampleParts (scripts : Bool) : Parts where
  artifacts := exampleArtifacts scripts
  core := exampleArtifact scripts "core".toList
  properties := exampleProperties
  manifest := exampleManifest
  files := bundleFiles (exampleArtifact scripts "core".toList) exampleProperties
    (exampleOuts.map Prod.fst)
    (manifestText exampleManifest)
    (bundleText (bundleProvenance exampleCommit (exampleArtifacts scripts)))

variable {scripts : Bool}

/-- The module fits the limits of a payload. -/
theorem exampleModule_spec : 0 < exampleModule.length ∧ exampleModule.length ≤ maxManifestBytes ∧
    checkArchitecture exampleModule 183 = .ok () := by
  decide +kernel

/-- What holds of the files of each producer. -/
theorem producerFiles_induction {P : Files → Prop} (component : Str)
    (hcore : P (producerFiles scripts "core".toList))
    (hkpm : P (producerFiles scripts "kpm".toList))
    (hzygisk : P (producerFiles scripts "zygisk".toList))
    (hkmod : P [("vpnhide_kmod.ko".toList, exampleModule)]) :
    P (producerFiles scripts component) := by
  by_cases hc : component = "core".toList
  · exact hc ▸ hcore
  by_cases hk : component = "kpm".toList
  · exact hk ▸ hkpm
  by_cases hz : component = "zygisk".toList
  · exact hz ▸ hzygisk
  rwa [producerFiles, if_neg hc, if_neg hk, if_neg hz]

theorem sorted_producerFiles (component : Str) :
    SortedBy Prod.fst (producerFiles scripts component) := by
  refine producerFiles_induction component ?_ ?_ ?_ (List.pairwise_singleton _ _) <;>
    cases scripts <;> decide

theorem length_producerFiles (component : Str) :
    0 < (producerFiles scripts component).length ∧
      (producerFiles scripts component).length ≤ 5 := by
  refine @producerFiles_induction scripts (fun files => 0 < files.length ∧ files.length ≤ 5)
    component ?_ ?_ ?_ ?_ <;>
    cases scripts <;> decide

theorem provenanceFile_new (component : Str) :
    ∀ f ∈ producerFiles scripts component, f.1 ≠ provenanceFile := by
  refine @producerFiles_induction scripts (fun files => ∀ f ∈ files, f.1 ≠ provenanceFile)
    component ?_ ?_ ?_ ?_ <;>
    cases scripts <;> decide

/-- All files of the producers are small. -/
theorem small_producerFiles (component : Str) : ∀ f ∈ producerFiles scripts component, Small f := by
  refine @producerFiles_induction scripts (fun files => ∀ f ∈ files, Small f) component ?_ ?_ ?_
    (List.forall_mem_singleton.2 ⟨by decide, by decide, exampleModule_spec.2.1⟩) <;>
      cases scripts <;> decide

/-- An input has its files and its provenance. -/
theorem perm_exampleFiles (component : Str) : (exampleArtifact scripts component).files.Perm
    ((provenanceFile, provenanceData scripts component) :: producerFiles scripts component) :=
  perm_upsert (provenanceFile_new component)

theorem length_exampleFiles (component : Str) :
    (exampleArtifact scripts component).files.length ≤ 6 := by
  have hlength := (@perm_exampleFiles scripts component).length_eq
  have hle := (@length_producerFiles scripts component).2
  rw [List.length_cons] at hlength
  omega

theorem byteLen_identityText_le {f : Str × Bytes} (hf : Small f) :
    byteLen (identityText (.of Sha256.hexDigest f.2)) ≤ 95 := by
  have hbytes : byteLen (jsonNat f.2.length) ≤ 9 :=
    byteLen_jsonNat_le (by decide) (hf.length_le.trans_lt (by decide))
  have hsha := byteLen_jsonString_of_hex (hex_hexDigest f.2)
  have hnames : byteLen (jsonString "bytes".toList) = 7 ∧
      byteLen (jsonString "sha256".toList) = 8 := by decide
  rw [identityText, byteLen_jsonObject (List.cons_ne_nil _ _)]
  simp only [FileIdentity.of, List.map_cons, List.map_nil, List.sum_cons,
    List.sum_nil, hnames, hsha]
  omega

/-- The provenance is short. -/
theorem length_provenanceData_le {component : Str} (hcomponent : component ∈ specs.map Prod.fst) :
    (provenanceData scripts component).length ≤ 2 ^ 12 := by
  have hshort : ∀ component ∈ specs.map Prod.fst, byteLen (jsonString component) ≤ 30 := by decide
  have hshort := hshort component hcomponent
  obtain ⟨hpos, hcount⟩ := @length_producerFiles scripts component
  have hne : (producerFiles scripts component).map
      (fun f => (f.1, identityText (.of Sha256.hexDigest f.2))) ≠ [] :=
    mt List.map_eq_nil_iff.1 (List.ne_nil_of_length_pos hpos)
  -- There are five files at most, each with a name of at most a hundred bytes.
  have hfiles :
      byteLen (jsonObject ((producerFiles scripts component).map fun f =>
        (f.1, identityText (.of Sha256.hexDigest f.2)))) ≤
      1 + 5 * 699 := by
    rw [byteLen_jsonObject hne, List.map_map]
    refine Nat.add_le_add_left ((List.sum_le_card_nsmul _ 699 fun n hn => ?_).trans ?_) 1
    · obtain ⟨f, hf, rfl⟩ := List.mem_map.1 hn
      have hsmall := small_producerFiles component f hf
      have hname := byteLen_jsonString_le f.1
      have hle := hsmall.name_le
      have hidentity := byteLen_identityText_le hsmall
      dsimp only [Function.comp]
      omega
    · rw [List.length_map, smul_eq_mul]
      exact Nat.mul_le_mul_right _ hcount
  have hnames : byteLen (jsonString "schema".toList) = 8 ∧
      byteLen (jsonString "source_commit".toList) = 15 ∧ byteLen (jsonString "dirty".toList) = 7 ∧
      byteLen (jsonString "component".toList) = 11 ∧
      byteLen (jsonString "version".toList) = 9 ∧ byteLen (jsonString "files".toList) = 7 := by
    decide
  have hvalues : byteLen (jsonNat 1) = 1 ∧ byteLen (jsonString exampleCommit) = 42 ∧
      byteLen (jsonBool false) = 5 ∧ byteLen (jsonString exampleVersion) = 3 := by decide
  rw [provenanceData, ← byteLen, provenanceText, byteLen_jsonObject (List.cons_ne_nil _ _)]
  simp only [exampleProvenance, List.map_map, List.map_cons, List.map_nil, List.sum_cons,
    List.sum_nil, hnames, hvalues]
  change 1 + (_ + (_ + (_ + (_ + (_ + (7 +
    byteLen (jsonObject ((producerFiles scripts component).map fun f =>
      (f.1, identityText (.of Sha256.hexDigest f.2)))) + 2 + 0)))))) ≤ 2 ^ 12
  omega

/-- The files of an input are small. -/
theorem small_exampleFiles {component : Str} (hcomponent : component ∈ specs.map Prod.fst) :
    ∀ f ∈ (exampleArtifact scripts component).files, Small f := by
  have hname : safeName provenanceFile = true ∧ byteLen provenanceFile ≤ 100 := by decide
  intro f hf
  obtain rfl | hf := mem_upsert hf
  · exact ⟨hname.1, hname.2, (length_provenanceData_le hcomponent).trans (by decide)⟩
  · exact small_producerFiles component f hf

/-- A text that has been written is read as what it has been written for. -/
theorem readText_of_mem {α : Type} {text : α → Bytes} {written : List α} {a : α} (ha : a ∈ written)
    (hinj : ∀ b ∈ written, text b = text a → b = a) : readText text written (text a) = some a := by
  obtain ⟨b, hb⟩ := Option.isSome_iff_exists.1 
    ((List.find?_isSome (p := fun b => text b = text a)).2 ⟨a, ha, decide_eq_true rfl⟩)
  have hsame : text b = text a := by simpa using List.find?_some hb
  rw [readText, hb, hinj b (List.mem_of_find?_eq_some hb) hsame]

/-- The texts of two producers differ. -/
theorem provenanceData_injOn {component component' : Str}
    (hcomponent : component ∈ specs.map Prod.fst) (hcomponent' : component' ∈ specs.map Prod.fst)
    (h : provenanceData scripts component = provenanceData scripts component') :
    component = component' := by
  have hplain : ∀ component ∈ specs.map Prod.fst, component.flatMap jsonEscape = component ∧
      '"' ∉ component := by decide
  obtain ⟨rest, hrest⟩ := provenanceText_eq (exampleProvenance scripts component)
  obtain ⟨rest', hrest'⟩ := provenanceText_eq (exampleProvenance scripts component')
  have htext := Str.toUtf8_injective h
  rw [hrest, hrest'] at htext
  have hsame :
      component.flatMap jsonEscape ++ '"' :: rest = component'.flatMap jsonEscape ++ '"' :: rest' :=
    List.append_cancel_left htext
  have hcut : ∀ {s rest : Str}, '"' ∉ s → (s ++ '"' :: rest).takeWhile (· ≠ '"') = s := by
    intro s rest hs
    have hplain : ∀ c ∈ s, decide (c ≠ '"') = true :=
      fun c hc => decide_eq_true (ne_of_mem_of_not_mem hc hs)
    rw [List.takeWhile_append_of_pos hplain, List.takeWhile_cons]
    exact List.append_nil s
  rw [(hplain _ hcomponent).1, (hplain _ hcomponent').1] at hsame
  rw [← hcut (hplain _ hcomponent).2, hsame, hcut (hplain _ hcomponent').2]

/-- The provenance of an input is accepted. -/
theorem validate_exampleProvenance (component : Str) :
    (exampleProvenance scripts component).validate (exampleEnv scripts) component exampleCommit
      (exampleArtifact scripts component).files = .ok () := by
  have hlength := (@perm_exampleFiles scripts component).length_eq
  have hsorted : SortedBy Prod.fst (exampleProvenance scripts component).files :=
    List.pairwise_map.2 (sorted_producerFiles component)
  have hversion : exactCommit exampleCommit = true ∧ invalidVersion exampleVersion = false := by
    decide
  refine ite_error_eq_ok_iff.2 ⟨?_, forM_eq_ok_iff.2 fun f hf =>
    ite_error_eq_ok_iff.2 ⟨fun ⟨hother, hmissing⟩ => ?_, rfl⟩⟩
  · rw [List.length_cons] at hlength
    simp [exampleProvenance, hversion, hlength]
  · obtain rfl | hf := mem_upsert hf
    · exact hother rfl
    · exact hmissing (mapGet_of_mem hsorted (List.mem_map_of_mem hf))

/-- The files of an input are written. -/
theorem write_exampleFiles {component : Str} (hcomponent : component ∈ specs.map Prod.fst) :
    writeArchive container (exampleArtifact scripts component).files =
      .ok (container.write ((exampleArtifact scripts component).files.map memberOf)) :=
  writeArchive_container ((length_exampleFiles component).trans (by decide))
    (small_exampleFiles hcomponent)

/-- Each input can be opened. -/
theorem open_exampleArtifact {spec : Str × Str} (hspec : spec ∈ specs) {remaining : ℕ}
    (h : totalBytes (exampleArtifact scripts spec.1).files ≤ remaining) :
    openWithBudget (exampleEnv scripts) (exampleInputs scripts) exampleCommit
      spec.2 spec.1 remaining =
      .ok (exampleArtifact scripts spec.1) := by
  have hcomponent : spec.1 ∈ specs.map Prod.fst := List.mem_map_of_mem hspec
  have hwritten := @write_exampleFiles scripts _ hcomponent
  obtain ⟨htotal, -, -, -, hle⟩ := writeArchive_eq_ok_iff.1 hwritten
  have hfind : ∀ spec ∈ specs, specs.find? (fun s => s.2 = spec.2) = some spec := by decide
  have hread :
      readText (fun p => (provenanceText p).toUtf8)
        (specs.map fun spec => exampleProvenance scripts spec.1)
      (provenanceData scripts spec.1) = some (exampleProvenance scripts spec.1) := by
    refine readText_of_mem (List.mem_map_of_mem hspec) fun p hp htext => ?_
    obtain ⟨spec', hspec', rfl⟩ := List.mem_map.1 hp
    rw [provenanceData_injOn (List.mem_map_of_mem hspec') hcomponent htext]
  refine openWithBudget_eq_ok_iff.2 ⟨_, ?_, hle, ?_, ?_, validate_exampleProvenance spec.1⟩
  · rw [exampleInputs, hfind spec hspec]
    rfl
  · refine decodeArchive_mono h
      (decodeArchive_of_written ?_ (faithful_container _) hwritten ?_ le_rfl ?_)
    · exact sorted_mapInsert (sorted_producerFiles spec.1)
    · exact (length_exampleFiles spec.1).trans (by decide)
    · exact htotal.trans_lt (by decide)
  · refine metadata_eq_ok_iff.2 ⟨_, mapGet_mapInsert.trans (if_pos rfl), ?_, hread⟩
    exact (length_provenanceData_le hcomponent).trans (by decide)

/-- The artifacts are collected. -/
theorem collect_exampleArtifacts : ∃ retained,
    specs.foldlM (collect (exampleEnv scripts) (exampleInputs scripts) exampleCommit maxBundleBytes)
      ([], 0) = .ok (exampleArtifacts scripts, retained) := by
  rw [exampleArtifacts]
  refine collect_of_opened (fun spec hspec remaining h => open_exampleArtifact hspec h) ?_
  have htotal : (specs.map fun spec => totalBytes (exampleArtifact scripts spec.1).files).sum ≤
      10 * (6 * maxManifestBytes) := by
    refine (List.sum_le_card_nsmul _ (6 * maxManifestBytes) fun n hn => ?_).trans ?_
    · obtain ⟨spec, hspec, rfl⟩ := List.mem_map.1 hn
      refine (List.sum_le_card_nsmul _ maxManifestBytes fun n hn => ?_).trans ?_
      · obtain ⟨f, hf, rfl⟩ := List.mem_map.1 hn
        exact (small_exampleFiles (List.mem_map_of_mem hspec) f hf).length_le
      · rw [List.length_map, smul_eq_mul]
        exact Nat.mul_le_mul_right _ (length_exampleFiles spec.1)
    · rw [List.length_map, smul_eq_mul]
      exact Nat.mul_le_mul_right _ (by decide)
  exact (Nat.zero_add _).trans_le (htotal.trans (by decide))

/-- The input of a component. -/
theorem mapGet_exampleArtifacts {component : Str} (hcomponent : component ∈ specs.map Prod.fst) :
    mapGet (exampleArtifacts scripts) component = some (exampleArtifact scripts component) := by
  have hnodup : (specs.map Prod.fst).Nodup := by decide
  obtain ⟨spec, hspec, rfl⟩ := List.mem_map.1 hcomponent
  rw [exampleArtifacts]
  refine mapGet_mapInsertAll_of_mem ?_ (List.mem_map_of_mem hspec)
  rwa [List.map_map]

/-- The file of a payload, among those of its producer. -/
theorem member_exampleArtifact {i : PayloadKind} (hi : i ∈ Manifest.identities) :
    (exampleArtifact scripts (payloadSource i).1).member (payloadSource i).2.1
      (payloadSource i).2.2 = .ok (exampleOut i).1.2 := by
  have hmodule := exampleModule_spec.2.2
  have hprogram : checkArchitecture (programHeader 183) 183 = .ok () ∧
      checkArchitecture (programHeader 40) 40 = .ok () := by
    decide
  simp only [InputArtifact.member, bind_eq_ok_iff, okOr_eq_ok_iff]
  rw [Manifest.identities, List.mem_append, List.mem_map] at hi
  obtain ⟨kmi, -, rfl⟩ | hi := hi
  · have hproducer :
        producerFiles scripts ("kmod:".toList ++ kmi) =
          [("vpnhide_kmod.ko".toList, exampleModule)] := by
      rw [producerFiles, if_neg (by simp), if_neg (by simp), if_neg (by simp)]
    refine ⟨exampleModule, ?_, (), hmodule, rfl⟩
    change mapGet (mapInsert (producerFiles scripts ("kmod:".toList ++ kmi)) provenanceFile
      (provenanceData scripts ("kmod:".toList ++ kmi))) "vpnhide_kmod.ko".toList =
        some exampleModule
    rw [mapGet_mapInsert, if_neg (by decide), hproducer]
    rfl
  · have hother : ∀ i ∈ [PayloadKind.kpm, .zygisk true, .zygisk false],
        provenanceFile ≠ (payloadSource i).2.1.toList ∧
          mapGet (producerFiles scripts (payloadSource i).1) (payloadSource i).2.1.toList =
            some (exampleOut i).1.2 ∧
          checkArchitecture (exampleOut i).1.2 (payloadSource i).2.2 = .ok () := by
      cases scripts <;> decide
    obtain ⟨hname, hfile, harchitecture⟩ := hother i hi
    refine ⟨(exampleOut i).1.2, ?_, (), harchitecture, rfl⟩
    rw [exampleArtifact, mapGet_mapInsert, if_neg hname, hfile]

/-- Each payload is put together. -/
theorem payloadOf_exampleOut {i : PayloadKind} (hi : i ∈ Manifest.identities) :
    payloadOf (exampleEnv scripts) exampleCommit (exampleArtifacts scripts) i =
      .ok (exampleOut i) := by
  have hproducer : ∀ i ∈ Manifest.identities, (payloadSource i).1 ∈ specs.map Prod.fst := by decide
  have hpath : ∀ i ∈ Manifest.identities, relativePath i = .ok (exampleOut i).1.1 := by decide
  have hcapabilities : ∃ caps,
      payloadCapabilities (exampleEnv scripts) i (exampleOut i).1.2 = .ok caps ∧
      (exampleOut i).2.preflightProtocol = caps.1 ∧ (exampleOut i).2.initContract = caps.2 := by
    cases i with
    | kmod kmi =>
      obtain ⟨inspected, hinspected, hpreflight, hcontract⟩ := inspectGki_exampleModule
      refine ⟨(inspected.preflightProtocol, inspected.initContract),
        bind_eq_ok_iff.2 ⟨inspected, hinspected,
        ite_error_eq_ok_iff.2 ⟨?_, rfl⟩⟩, hpreflight.symm, hcontract.symm⟩
      rw [hpreflight, hcontract]
      simp
    | kpm => exact ⟨(none, none), rfl, rfl, rfl⟩
    | zygisk arm64 => exact ⟨(none, none), rfl, rfl, rfl⟩
  obtain ⟨caps, hcaps, hpreflight, hcontract⟩ := hcapabilities
  refine payloadOf_eq_ok_iff.2 ⟨exampleArtifact scripts (payloadSource i).1, (exampleOut i).1.2,
    caps, (exampleOut i).1.1, mapGet_exampleArtifacts (hproducer i hi), member_exampleArtifact hi,
    hcaps, hpath i hi, ?_⟩
  rw [← hpreflight, ← hcontract]
  rfl

theorem length_examplePayload {i : PayloadKind} :
    0 < (exampleOut i).1.2.length ∧ (exampleOut i).1.2.length ≤ maxManifestBytes := by
  have hprogram : ∀ machine ∈ [40, 183],
      0 < (programHeader machine).length ∧ (programHeader machine).length ≤ maxManifestBytes := by
    decide
  cases i with
  | kmod kmi => exact ⟨exampleModule_spec.1, exampleModule_spec.2.1⟩
  | kpm => exact hprogram 183 (by decide)
  | zygisk arm64 => cases arm64 <;> exact hprogram _ (by decide)

theorem mem_payloads_exampleManifest {p : Payload} (hp : p ∈ exampleManifest.payloads) :
    ∃ i ∈ Manifest.identities, (exampleOut i).2 = p := by
  obtain ⟨out, hout, rfl⟩ := List.mem_map.1 hp
  obtain ⟨i, hi, rfl⟩ := List.mem_map.1 hout
  exact ⟨i, hi, rfl⟩

/-- The manifest is accepted, and complete. -/
theorem requireComplete_exampleManifest : exampleManifest.requireComplete = .ok () := by
  have hnamed : ∀ i ∈ Manifest.identities, ∃ path ∈ payloadPaths, relativePath i = .ok path := by
    decide
  -- No two payloads have one path.
  have hpaths : (exampleManifest.payloads.map pathOf).Nodup := by
    have hnodup : (Manifest.identities.map fun i => (relativePath i).toOption).Nodup := by decide
    rwa [exampleManifest, exampleOuts, List.map_map, List.map_map]
  refine Manifest.requireComplete_eq_ok_iff.2
    ⟨⟨rfl, by decide, List.cons_ne_nil _ _, by decide, ⟨?_, hpaths, ?_⟩, ?_⟩, by decide⟩
  · intro p hp
    obtain ⟨i, hi, rfl⟩ := mem_payloads_exampleManifest hp
    obtain ⟨path, -, hpath⟩ := hnamed i hi
    exact ⟨path, hpath⟩
  · intro p hp
    obtain ⟨i, hi, rfl⟩ := mem_payloads_exampleManifest hp
    have hsha := hex_hexDigest (exampleOut i).1.2
    have hlength := @length_examplePayload i
    have hle : (exampleOut i).1.2.length ≤ maxPayloadBytes := hlength.2.trans (by decide)
    have hversion : exampleVersion.isEmpty = false ∧ decide (128 < byteLen exampleVersion) = false ∧
        exampleVersion.any isControl = false ∧ hex exampleCommit 40 = true := by decide
    have hcapability : unsupportedCapability (exampleOut i).2 (exampleOut i).2.initContract =
        false ∧ unsupportedCapability (exampleOut i).2 (exampleOut i).2.preflightProtocol =
        false := by
      cases i <;> exact ⟨rfl, rfl⟩
    have hbytes : (exampleOut i).2.bytes = (exampleOut i).1.2.length := rfl
    have hother : (exampleOut i).2.version = exampleVersion ∧
        (exampleOut i).2.sourceCommit = exampleCommit ∧
        (exampleOut i).2.sha256 = Sha256.hexDigest (exampleOut i).1.2 ∧
        (exampleOut i).2.controlVersion = controlVersion :=
      ⟨rfl, rfl, rfl, rfl⟩
    simp [invalidMetadata, hother, hversion, hcapability, hsha, hbytes, hlength.1.ne', hle]
  · refine (List.sum_le_card_nsmul _ maxManifestBytes fun n hn => ?_).trans ?_
    · obtain ⟨p, hp, rfl⟩ := List.mem_map.1 hn
      obtain ⟨i, -, rfl⟩ := mem_payloads_exampleManifest hp
      exact length_examplePayload.2
    · rw [List.length_map]
      decide

/-- All payloads are put together. -/
theorem forall₂_exampleOut :
    List.Forall₂ (fun i out =>
      payloadOf (exampleEnv scripts) exampleCommit (exampleArtifacts scripts) i = .ok out)
      Manifest.identities exampleOuts :=
  List.forall₂_map_right_iff.2 (List.forall₂_same.2 fun _ hi => payloadOf_exampleOut hi)

/-- The files that the catalog allows. -/
def exampleAllowed : List Str :=
  commonFiles ++ ["bundle-provenance.json", "payloads/manifest.json"].map String.toList ++
    payloadPaths ++ daemonFiles

theorem map_fst_exampleOuts : (exampleOuts.map Prod.fst).map Prod.fst = payloadPaths :=
  map_fst_payloads (@forall₂_exampleOut false)

theorem mem_exampleAllowed : ∀ f ∈ (exampleParts scripts).files, f.1 ∈ exampleAllowed := by
  have hcore : ∀ f ∈ producerFiles scripts "core".toList, f.1 ∈ exampleAllowed := by
    cases scripts <;> decide
  have hother :
      "module.prop".toList ∈ exampleAllowed ∧ "payloads/manifest.json".toList ∈ exampleAllowed ∧
      "bundle-provenance.json".toList ∈ exampleAllowed ∧
      ∀ path ∈ payloadPaths, path ∈ exampleAllowed := by decide
  dsimp only [exampleParts]
  refine forall_mem_bundleFiles (fun f hf => ?_) hother.1 (fun f hf => ?_) hother.2.1 hother.2.2.1
  · obtain ⟨hf, hname⟩ := List.mem_filter.1 hf
    obtain rfl | hf := mem_upsert hf
    · exact absurd rfl (of_decide_eq_true hname)
    · exact hcore f hf
  · refine hother.2.2.2 f.1 ?_
    rw [← map_fst_exampleOuts]
    exact List.mem_map_of_mem hf

/-- The package has just the files it may have. -/
theorem bundled_exampleParts :
    requireFiles (.bundle exampleManifest) ((exampleParts scripts).files.map Prod.fst) =
      .ok () := by
  have hpaths : (exampleManifest.payloads.mapM fun p => lift (relativePath p.implementation)) =
      .ok payloadPaths := by
    have hmap : (Manifest.identities.mapM fun i => lift (relativePath i)) = .ok payloadPaths := by
      decide
    rw [exampleManifest, exampleOuts, List.mapM_map, List.mapM_map]
    exact hmap
  have hallowed : allowedFiles (.bundle exampleManifest) = .ok exampleAllowed := by
    rw [allowedFiles, catalogFiles, requireComplete_exampleManifest, hpaths]
    rfl
  refine requireFiles_eq_ok_iff.2 ⟨exampleAllowed, hallowed, fun name hname => ?_⟩
  obtain ⟨f, hf, rfl⟩ := List.mem_map.1 hname
  exact mem_exampleAllowed f hf

/-- The parts are gathered. -/
theorem gathered_exampleParts :
    Gathered (exampleEnv scripts) (exampleInputs scripts) exampleCommit maxBundleBytes
      (exampleParts scripts) where
  exact := by decide
  collected := @collect_exampleArtifacts scripts
  hasCore := @mapGet_exampleArtifacts scripts "core".toList (by decide)
  layout := by
    have hcore : ∀ f ∈ producerFiles scripts "core".toList,
        f.1 ∈ commonFiles ++ "build-provenance.json".toList :: daemonFiles := by
      cases scripts <;> decide
    have hrecord :
        provenanceFile ∈ commonFiles ++ "build-provenance.json".toList :: daemonFiles := by decide
    refine requireFiles_eq_ok_iff.2 ⟨_, rfl, fun name hname => ?_⟩
    obtain ⟨f, hf, rfl⟩ := List.mem_map.1 hname
    obtain rfl | hf := mem_upsert hf
    · exact hrecord
    · exact hcore f hf
  daemonArm64 := by
    have hfile : mapGet (producerFiles scripts "core".toList) "bin/arm64/vpnhide-core".toList =
        some (programHeader 183) ∧ checkArchitecture (programHeader 183) 183 = .ok () := by
      cases scripts <;> decide
    refine ⟨programHeader 183,
      bind_eq_ok_iff.2 ⟨_, okOr_eq_ok_iff.2 ?_, bind_eq_ok_iff.2 ⟨(), hfile.2, rfl⟩⟩⟩
    exact mapGet_mapInsert.trans ((if_neg (by decide)).trans hfile.1)
  daemonArm := by
    have hfile : mapGet (producerFiles scripts "core".toList) "bin/arm/vpnhide-core".toList =
        some (programHeader 40) ∧ checkArchitecture (programHeader 40) 40 = .ok () := by
      cases scripts <;> decide
    refine ⟨programHeader 40,
      bind_eq_ok_iff.2 ⟨_, okOr_eq_ok_iff.2 ?_, bind_eq_ok_iff.2 ⟨(), hfile.2, rfl⟩⟩⟩
    exact mapGet_mapInsert.trans ((if_neg (by decide)).trans hfile.1)
  read := by
    have hfile : mapGet (producerFiles scripts "core".toList) "module.prop".toList =
        some exampleProperties.toUtf8 := by
      cases scripts <;> decide
    have hbase : mapGet (baseFiles (exampleArtifact scripts "core".toList)) "module.prop".toList =
        some exampleProperties.toUtf8 := by
      rw [baseFiles, mapGet_filter (fun n => n ≠ provenanceFile) (by decide)]
      exact mapGet_mapInsert.trans ((if_neg (by decide)).trans hfile)
    refine bind_eq_ok_iff.2 ⟨_, okOr_eq_ok_iff.2 hbase, okOr_eq_ok_iff.2 (Str.fromUtf8_toUtf8 _)⟩
  checked := by
    have hlines : "id=vpnhide_core".toList ∈ Str.lines exampleProperties ∧
        ¬(Str.lines exampleProperties).any isActivation = true := by decide
    exact ite_error_eq_ok_iff.2 ⟨fun h => h.elim (fun hmissing => hmissing hlines.1) hlines.2, rfl⟩
  added := by
    refine ⟨exampleOuts, @forall₂_exampleOut scripts, ?_, ?_⟩
    · rfl
    · dsimp only [exampleParts]
  complete := requireComplete_exampleManifest
  bundled := @bundled_exampleParts scripts

theorem provenanceBytes_le {spec : Str × Str} (hspec : spec ∈ specs) :
    provenanceBytes (exampleEnv scripts) (exampleInputs scripts) spec.2 ≤ 2 ^ 12 := by
  have hcomponent : spec.1 ∈ specs.map Prod.fst := List.mem_map_of_mem hspec
  obtain ⟨htotal, -⟩ := writeArchive_eq_ok_iff.1 (@write_exampleFiles scripts _ hcomponent)
  have hopen := @open_exampleArtifact scripts _ hspec _ htotal
  have hopened :
      Opened (exampleEnv scripts) (exampleInputs scripts) exampleCommit maxBundleBytes spec
      (spec.1, exampleArtifact scripts spec.1) := ⟨rfl, _, le_rfl, hopen⟩
  obtain ⟨-, -, -, -, hread, -⟩ := openWithBudget_eq_ok_iff.1 hopen
  rw [provenanceBytes, hopened.inputFiles_eq, hread]
  exact length_provenanceData_le hcomponent

/-- The record is within its limit. -/
theorem record_le : recordOverhead + (specs.map fun spec =>
    provenanceBytes (exampleEnv scripts) (exampleInputs scripts) spec.2).sum ≤
      maxManifestBytes := by
  have hsum : (specs.map fun spec =>
    provenanceBytes (exampleEnv scripts) (exampleInputs scripts) spec.2).sum ≤
      10 * 2 ^ 12 := by
    refine (List.sum_le_card_nsmul _ (2 ^ 12) fun n hn => ?_).trans ?_
    · obtain ⟨spec, hspec, rfl⟩ := List.mem_map.1 hn
      exact provenanceBytes_le hspec
    · rw [List.length_map, smul_eq_mul]
      exact Nat.mul_le_mul_right _ (by decide)
  exact (Nat.add_le_add_left hsum _).trans (by decide)

/-- The files of the package are small. -/
theorem small_exampleParts : ∀ f ∈ (exampleParts scripts).files, Small f := by
  have hnames : ∀ name ∈ exampleAllowed, safeName name = true ∧ byteLen name ≤ 100 := by decide
  have hlength : ∀ f ∈ (exampleParts scripts).files, f.2.length ≤ maxManifestBytes := by
    obtain ⟨hvalid, -⟩ := Manifest.requireComplete_eq_ok_iff.1 requireComplete_exampleManifest
    have hproperties : (activated exampleProperties).toUtf8.length ≤ maxManifestBytes := by decide
    have hrecord := (@gathered_exampleParts scripts).length_record.trans_le record_le
    dsimp only [exampleParts] at hrecord ⊢
    refine forall_mem_bundleFiles (fun f hf => ?_) hproperties (fun f hf => ?_)
      (length_manifestText_le hvalid) hrecord
    · exact (@small_exampleFiles scripts "core".toList (by decide) f
        (List.mem_of_mem_filter hf)).length_le
    · obtain ⟨out, hout, rfl⟩ := List.mem_map.1 hf
      obtain ⟨i, -, rfl⟩ := List.mem_map.1 hout
      exact length_examplePayload.2
  intro f hf
  obtain ⟨hsafe, hname⟩ := hnames f.1 (mem_exampleAllowed f hf)
  exact ⟨hsafe, hname, hlength f hf⟩

/-- The package is written. -/
theorem write_exampleParts : writeArchive container (exampleParts scripts).files =
    .ok (container.write ((exampleParts scripts).files.map memberOf)) := by
  have hnodup : ((exampleParts scripts).files.map Prod.fst).Nodup :=
    List.pairwise_map.2 (gathered_exampleParts.sorted.imp ne_of_lt)
  have hsubset : (exampleParts scripts).files.map Prod.fst ⊆ exampleAllowed := fun name hname => by
    obtain ⟨f, hf, rfl⟩ := List.mem_map.1 hname
    exact mem_exampleAllowed f hf
  have hcount := (List.subperm_of_subset hnodup hsubset).length_le
  have hallowed : exampleAllowed.length ≤ 64 := by decide
  rw [List.length_map] at hcount
  exact writeArchive_container (hcount.trans hallowed) small_exampleParts

theorem readText_singleton {α : Type} (text : α → Bytes) (a : α) :
    readText text [a] (text a) = some a :=
  readText_of_mem (List.mem_singleton_self a) fun _ hb _ => List.mem_singleton.1 hb

/-- The environment is faithful to what it is given. -/
theorem faithful_exampleParts :
    (exampleEnv scripts).Faithful exampleCommit (exampleParts scripts) where
  zip := faithful_container ((exampleParts scripts).files.map memberOf)
  manifest := by
    dsimp only [exampleEnv, exampleParts]
    exact readText_singleton manifestText exampleManifest
  bundle := by
    dsimp only [exampleEnv, exampleParts]
    exact readText_singleton bundleText (bundleProvenance exampleCommit (exampleArtifacts scripts))

/-- A bundle, of a core that has its scripts or has not. -/
def exampleRelease (scripts : Bool) : Release where
  env := exampleEnv scripts
  inputs := exampleInputs scripts
  commit := exampleCommit
  package := container.write ((exampleParts scripts).files.map memberOf)
  assembled := bind_eq_ok_iff.2 ⟨_, gather_eq_ok_iff.2 gathered_exampleParts, write_exampleParts⟩
  faithful := by
    intro parts hparts
    rw [← Except.ok.inj ((gather_eq_ok_iff.2 gathered_exampleParts).symm.trans hparts)]
    exact faithful_exampleParts

/-- With its scripts, the inputs are fit. -/
theorem fit_exampleInputs : Fit (exampleEnv true) (exampleInputs true) where
  service := by
    rw [← gathered_exampleParts.core_files]
    exact ⟨[0], mapGet_mapInsert.trans ((if_neg (by decide)).trans (by decide)),
      List.cons_ne_nil _ _, by decide⟩
  sepolicy := by
    rw [← gathered_exampleParts.core_files]
    exact ⟨[0], mapGet_mapInsert.trans ((if_neg (by decide)).trans (by decide)),
      List.cons_ne_nil _ _, by decide⟩
  properties := ⟨exampleProperties, gathered_exampleParts.readProperties_core, by decide, by decide⟩
  record := record_le

/-- The release of the example is accepted. -/
theorem accepted_exampleRelease : (exampleRelease true).Accepted :=
  (accepted_iff_fit_and_exact (exampleRelease true)).1.2 fit_exampleInputs

/-- Without its scripts, a core is assembled, and accepted by nobody. -/
theorem not_accepted_exampleRelease : ¬(exampleRelease false).Accepted := by
  intro haccepted
  obtain ⟨d, hd, -⟩ := haccepted 1 Nat.one_pos (by decide)
  obtain ⟨files, manifest, provenance, runtime, hinspected, -⟩ := inspectPackage_eq_ok_iff.1 hd
  have hfit :=
    fit_of_inspected gathered_exampleParts faithful_exampleParts write_exampleParts hinspected
  obtain ⟨data, hdata, -⟩ := hfit.service
  rw [← gathered_exampleParts.core_files] at hdata
  have hnone : mapGet (exampleParts false).core.files "service.sh".toList = none :=
    mapGet_mapInsert.trans ((if_neg (by decide)).trans (by decide))
  rw [hnone] at hdata
  cases hdata

end VpnHide.Artifact

import Mathlib.Algebra.Group.Action.Defs
import Mathlib.Algebra.Order.BigOperators.Group.List
import VpnHide.Artifact.Gki
import VpnHide.Artifact.Manifest

/-!
# The metadata of a package

What a package says about itself (`artifact-model/src/archive.rs`, `artifact-model/src/package.rs`):
where its files come from, and the descriptor that its publisher signs. The catalog and the
provenance are written as JSON. The text of a catalog that is accepted is small
(`length_manifestText_le`), that of a provenance need not be.
-/

namespace VpnHide.Artifact

open Lib Native

/-- A file, by its length and its digest. -/
structure FileIdentity where
  bytes : ℕ
  sha256 : Str
  deriving DecidableEq

namespace FileIdentity

/-- The identity of a content. -/
def of (sha256 : Bytes → Str) (data : Bytes) : FileIdentity := ⟨data.length, sha256 data⟩

/-- An identity of a file that is neither empty nor too large. -/
def valid (i : FileIdentity) (limit : ℕ) : Bool := 0 < i.bytes && i.bytes ≤ limit && hex i.sha256 64

end FileIdentity

/-- Where the files of a producer come from. -/
structure Provenance where
  schema : ℕ
  sourceCommit : Str
  dirty : Bool
  component : Str
  version : Str
  files : List (Str × FileIdentity)
  deriving DecidableEq

/-- Where the inputs of a bundle come from. -/
structure BundleProvenance where
  schema : ℕ
  sourceCommit : Str
  inputs : List (Str × Provenance)
  deriving DecidableEq

/-- The identities of the files that run on the device. -/
structure RuntimeIdentity where
  daemonArm64 : FileIdentity
  daemonArm : FileIdentity
  payloadManifest : FileIdentity
  service : FileIdentity
  sepolicy : FileIdentity
  moduleProp : FileIdentity
  deriving DecidableEq

/-- What is signed for a package. -/
structure Descriptor where
  schema : ℕ
  moduleId : Str
  sourceCommit : Str
  buildSequence : ℕ
  packageSha256 : Str
  packageBytes : ℕ
  rpc : ℕ
  journalMin : ℕ
  journalMax : ℕ
  kernelControl : ℕ
  runtime : RuntimeIdentity
  deriving DecidableEq

/-- The id of the module. -/
def coreModuleId : Str := "vpnhide_core".toList

/-- `package::MAX_PACKAGE_BYTES`. -/
def maxPackageBytes : ℕ := 256 * 1024 * 1024

/-- All files are identified, none larger than it may be. -/
def RuntimeIdentity.valid (r : RuntimeIdentity) : Bool :=
  r.daemonArm64.valid (128 * 1024 * 1024) && r.daemonArm.valid (128 * 1024 * 1024) &&
    r.payloadManifest.valid (64 * 1024) && r.service.valid (64 * 1024) &&
      r.sepolicy.valid (64 * 1024) &&
    r.moduleProp.valid (64 * 1024)

/-- `Descriptor::validate`: what every descriptor has to be. -/
def Descriptor.validate (d : Descriptor) : Except Fault Unit :=
  if d.schema ≠ 2 ∨ d.moduleId ≠ coreModuleId ∨ !hex d.sourceCommit 40 ∨ !hex d.packageSha256 64 ∨
      d.buildSequence = 0 ∨ d.packageBytes = 0 ∨ maxPackageBytes < d.packageBytes ∨ d.rpc = 0 ∨
      d.journalMin = 0 ∨ d.journalMax < d.journalMin ∨
      d.kernelControl ≠ 2 ∨ !d.runtime.valid then .error (.invalid "Malformed")
  else .ok ()

/-! ## Texts -/

/-- What a character is written as, within a string. -/
def jsonEscape (c : Char) : Str :=
  if c = '"' then ['\\', '"']
  else if c = '\\' then ['\\', '\\']
  else if c = '\x08' then ['\\', 'b']
  else if c = '\x0c' then ['\\', 'f']
  else if c = '\n' then ['\\', 'n']
  else if c = '\r' then ['\\', 'r']
  else if c = '\t' then ['\\', 't']
  else if c.toNat < 0x20 then ['\\', 'u', '0', '0'] ++ Str.padded 16 2 c.toNat
  else [c]

/-- A string in JSON. -/
def jsonString (s : Str) : Str := '"' :: s.flatMap jsonEscape ++ ['"']

/-- A number in JSON. -/
def jsonNat (n : ℕ) : Str := Nat.toDigits 10 n

/-- A boolean in JSON. -/
def jsonBool (b : Bool) : Str := if b then "true".toList else "false".toList

/-- The texts of the fields, by their names. -/
def jsonObject (fields : List (Str × Str)) : Str :=
  '\x7b' :: [','].intercalate (fields.map fun f => jsonString f.1 ++ ':' :: f.2) ++ ['\x7d']

/-- An array in JSON. -/
def jsonArray (items : List Str) : Str := '[' :: [','].intercalate items ++ [']']

/-- The kind of a payload in JSON. -/
def kindText : PayloadKind → Str
  | .kmod kmi =>
    jsonObject [("kind".toList, jsonString "kmod".toList), ("kmi".toList, jsonString kmi)]
  | .kpm => jsonObject [("kind".toList, jsonString "kpm".toList)]
  | .zygisk arm64 => jsonObject [("kind".toList, jsonString "zygisk".toList),
      ("abi".toList, jsonString (if arm64 then "arm64".toList else "arm32".toList))]

/-- A field that is left out if it is not set. -/
def optionalText (name : String) (value : Option ℕ) : List (Str × Str) :=
  value.toList.map fun n => (name.toList, jsonNat n)

/-- A payload in JSON. -/
def payloadText (p : Payload) : Str :=
  jsonObject ([("implementation".toList, kindText p.implementation),
    ("version".toList, jsonString p.version), ("source_commit".toList, jsonString p.sourceCommit),
    ("sha256".toList, jsonString p.sha256), ("bytes".toList, jsonNat p.bytes),
    ("control_version".toList, jsonNat p.controlVersion)] ++
    optionalText "preflight_protocol" p.preflightProtocol ++
    optionalText "init_contract" p.initContract)

/-- `serde_json::to_vec` of a catalog. -/
def manifestText (m : Manifest) : Bytes :=
  Str.toUtf8 (jsonObject [("schema".toList, jsonNat m.schema),
    ("bundle_commit".toList, jsonString m.bundleCommit),
    ("payloads".toList, jsonArray (m.payloads.map payloadText))])

/-- The identity of a file in JSON. -/
def identityText (i : FileIdentity) : Str :=
  jsonObject [("bytes".toList, jsonNat i.bytes), ("sha256".toList, jsonString i.sha256)]

/-- Where an input comes from, in JSON. -/
def provenanceText (p : Provenance) : Str :=
  jsonObject [("schema".toList, jsonNat p.schema),
    ("source_commit".toList, jsonString p.sourceCommit), ("dirty".toList, jsonBool p.dirty),
    ("component".toList, jsonString p.component), ("version".toList, jsonString p.version),
    ("files".toList, jsonObject (p.files.map fun f => (f.1, identityText f.2)))]

/-- `serde_json::to_vec` of the provenance of a bundle. -/
def bundleText (b : BundleProvenance) : Bytes :=
  Str.toUtf8 (jsonObject [("schema".toList, jsonNat b.schema),
    ("source_commit".toList, jsonString b.sourceCommit),
    ("inputs".toList, jsonObject (b.inputs.map fun i => (i.1, provenanceText i.2)))])

/-! ## The length of a text -/

theorem byteLen_append (s t : Str) : byteLen (s ++ t) = byteLen s + byteLen t := by
  rw [byteLen, Str.toUtf8_append, List.length_append, byteLen, byteLen]

theorem byteLen_cons (c : Char) (s : Str) : byteLen (c :: s) = byteLen [c] + byteLen s :=
  byteLen_append [c] s

/-- A character of a string takes six times its bytes at most. -/
theorem byteLen_jsonEscape_le (c : Char) : byteLen (jsonEscape c) ≤ 6 * byteLen [c] := by
  have hpos : 1 ≤ byteLen [c] := by
    rw [byteLen, Str.toUtf8, List.flatMap_singleton, String.length_utf8EncodeChar]
    exact c.utf8Size_pos
  have hpair : ∀ d : Char, byteLen [d] = 1 → byteLen ['\\', d] ≤ 6 * byteLen [c] := fun d hd => by
    rw [byteLen_cons, hd, show byteLen ['\\'] = 1 by decide]
    omega
  rw [jsonEscape]
  split_ifs with _ _ _ _ _ _ _ hcontrol
  · exact hpair '"' (by decide)
  · exact hpair '\\' (by decide)
  · exact hpair 'b' (by decide)
  · exact hpair 'f' (by decide)
  · exact hpair 'n' (by decide)
  · exact hpair 'r' (by decide)
  · exact hpair 't' (by decide)
  · have hhex : ∀ n < 0x20, byteLen (['\\', 'u', '0', '0'] ++ Str.padded 16 2 n) ≤ 6 := by decide
    exact (hhex _ hcontrol).trans (by omega)
  · omega

/-- Escaping makes a string at most six times as long. -/
theorem byteLen_jsonString_le (s : Str) : byteLen (jsonString s) ≤ 6 * byteLen s + 2 := by
  have hbody : byteLen (s.flatMap jsonEscape) ≤ 6 * byteLen s := by
    induction s with
    | nil => exact le_rfl
    | cons c s ih =>
      have hc := byteLen_jsonEscape_le c
      rw [List.flatMap_cons, byteLen_append, byteLen_cons c s]
      omega
  have hquote : byteLen ['"'] = 1 := by decide
  rw [jsonString, byteLen_append, byteLen_cons, hquote]
  omega

/-- The digits of a number. -/
theorem byteLen_jsonNat_le {n k : ℕ} (hk : 0 < k) (hn : n < 10 ^ k) : byteLen (jsonNat n) ≤ k := by
  rw [byteLen, jsonNat, (Str.isWord_toDigits (by decide) (by decide) n).toUtf8_eq, List.length_map]
  exact length_toDigits_le (by decide) hk hn

/-- Texts that are separated by commas. -/
theorem byteLen_intercalate {items : List Str} (h : items ≠ []) :
    byteLen ([','].intercalate items) + 1 = (items.map fun t => byteLen t + 1).sum := by
  induction items with
  | nil => exact absurd rfl h
  | cons t items ih =>
    cases items with
    | nil =>
      rw [List.intercalate_singleton]
      simp
    | cons u items =>
      have hcomma : byteLen [','] = 1 := by decide
      have hrest := ih (List.cons_ne_nil u items)
      rw [List.intercalate_cons_cons, byteLen_append, byteLen_append, hcomma, List.map_cons,
        List.sum_cons, ← hrest]
      omega

/-- The length of an object, field by field. -/
theorem byteLen_jsonObject {fields : List (Str × Str)} (h : fields ≠ []) :
    byteLen (jsonObject fields) =
      1 + (fields.map fun f => byteLen (jsonString f.1) + byteLen f.2 + 2).sum := by
  have hopen : byteLen ['\x7b'] = 1 := by decide
  have hclose : byteLen ['\x7d'] = 1 := by decide
  have hcolon : byteLen [':'] = 1 := by decide
  have hbody :=
    @byteLen_intercalate (fields.map fun f => jsonString f.1 ++ ':' :: f.2)
      (mt List.map_eq_nil_iff.1 h)
  have hsum : (fields.map ((fun t => byteLen t + 1) ∘ fun f => jsonString f.1 ++ ':' :: f.2)) =
      fields.map fun f => byteLen (jsonString f.1) + byteLen f.2 + 2 := by
    refine List.map_congr_left fun f _ => ?_
    rw [Function.comp, byteLen_append, byteLen_cons ':' f.2, hcolon]
    omega
  rw [List.map_map, hsum] at hbody
  rw [jsonObject, byteLen_append, byteLen_cons, hopen, hclose]
  omega

/-- The length of an array, item by item. -/
theorem byteLen_jsonArray {items : List Str} (h : items ≠ []) :
    byteLen (jsonArray items) = 1 + (items.map fun t => byteLen t + 1).sum := by
  have hopen : byteLen ['['] = 1 := by decide
  have hclose : byteLen [']'] = 1 := by decide
  have hbody := byteLen_intercalate h
  rw [jsonArray, byteLen_append, byteLen_cons, hopen, hclose]
  omega

/-- What is known of a payload that is accepted. -/
structure Wellformed (p : Payload) : Prop where
  version : byteLen p.version ≤ 128
  sourceCommit : byteLen p.sourceCommit = 40
  sha256 : byteLen p.sha256 = 64
  controlVersion : p.controlVersion = 2
  bytes : 0 < p.bytes ∧ p.bytes ≤ maxPayloadBytes
  preflightProtocol : ∀ v ∈ p.preflightProtocol, v = 1
  initContract : ∀ v ∈ p.initContract, v = 1

/-- A text of hexadecimal digits is as long as it says. -/
theorem byteLen_of_hex {value : Str} {len : ℕ} (h : hex value len = true) :
    byteLen value = len := by
  rw [hex, Bool.and_eq_true, decide_eq_true_iff] at h
  exact h.1

/-- Metadata that is accepted is well formed. -/
theorem wellformed_of_metadata {p : Payload} (h : invalidMetadata p = false) : Wellformed p := by
  have hcapability : ∀ {v : Option ℕ}, unsupportedCapability p v = false → ∀ n ∈ v, n = 1 := by
    intro v hv n hn
    rw [Option.mem_def] at hn
    rw [unsupportedCapability, hn, Option.any_some, Bool.or_eq_false_iff, bne_eq_false_iff_eq] at hv
    exact hv.1
  simp only [invalidMetadata, Bool.or_eq_false_iff, decide_eq_false_iff_not, not_lt,
    Bool.not_eq_false', bne_eq_false_iff_eq] at h
  obtain ⟨⟨⟨⟨⟨⟨⟨⟨⟨-, hversion⟩, -⟩, hcommit⟩, hsha⟩, hcontrol⟩, hzero⟩, hbytes⟩, hinit⟩,
      hpreflight⟩ := h
  exact ⟨hversion, byteLen_of_hex hcommit, byteLen_of_hex hsha, hcontrol,
    ⟨Nat.pos_of_ne_zero hzero, hbytes⟩, hcapability hpreflight, hcapability hinit⟩

theorem sum_optionalText_le (name : String) {value : Option ℕ}
    (hname : byteLen (jsonString name.toList) ≤ 20) (h : ∀ v ∈ value, v = 1) :
    ((optionalText name value).map fun f => byteLen (jsonString f.1) + byteLen f.2 + 2).sum ≤
      23 := by
  cases value with
  | none => exact Nat.zero_le _
  | some v =>
    obtain rfl := h v rfl
    have hone : byteLen (jsonNat 1) = 1 := by decide
    simp only [optionalText, Option.toList_some, List.map_cons, List.map_nil,
      List.sum_cons, List.sum_nil, hone]
    omega

/-- The text of a payload has at most 2000 bytes. -/
theorem byteLen_payloadText_le {p : Payload}
    (hnamed : ∃ path, relativePath p.implementation = .ok path) (h : Wellformed p) :
    byteLen (payloadText p) ≤ 2000 := by
  have hkind : byteLen (kindText p.implementation) ≤ 64 := by
    obtain ⟨path, hpath⟩ := hnamed
    cases hi : p.implementation with
    | kmod kmi =>
      rw [hi, relativePath] at hpath
      split_ifs at hpath with hmem
      have hall : ∀ kmi ∈ kmis, byteLen (kindText (.kmod kmi)) ≤ 64 := by decide
      exact hall kmi (List.contains_iff_mem.1 hmem)
    | kpm => decide
    | zygisk arm64 => cases arm64 <;> decide
  have hversion := byteLen_jsonString_le p.version
  have hcommit := byteLen_jsonString_le p.sourceCommit
  have hsha := byteLen_jsonString_le p.sha256
  rw [h.sourceCommit] at hcommit
  rw [h.sha256] at hsha
  have hlong := h.version
  have hbytes : byteLen (jsonNat p.bytes) ≤ 9 :=
    byteLen_jsonNat_le (by decide) (h.bytes.2.trans_lt (by decide))
  have hcontrol : byteLen (jsonNat p.controlVersion) = 1 := by rw [h.controlVersion]; decide
  have hpreflight := sum_optionalText_le "preflight_protocol" (by decide) h.preflightProtocol
  have hinit := sum_optionalText_le "init_contract" (by decide) h.initContract
  have hnames : byteLen (jsonString "implementation".toList) = 16 ∧
      byteLen (jsonString "version".toList) = 9 ∧ byteLen (jsonString "source_commit".toList) = 15 ∧
      byteLen (jsonString "sha256".toList) = 8 ∧
      byteLen (jsonString "bytes".toList) = 7 ∧
      byteLen (jsonString "control_version".toList) = 17 := by decide
  rw [payloadText, byteLen_jsonObject (by simp)]
  simp only [List.map_append, List.sum_append, List.map_cons, List.map_nil, List.sum_cons,
    List.sum_nil, hnames]
  omega

/-- The text of a catalog that is accepted is within the limit for metadata. -/
theorem length_manifestText_le {m : Manifest} (h : m.Valid) :
    (manifestText m).length ≤ maxManifestBytes := by
  have hitems : ((m.payloads.map payloadText).map fun t => byteLen t + 1).sum ≤ 10 * 2001 := by
    rw [List.map_map]
    refine (List.sum_le_card_nsmul _ 2001 fun n hn => ?_).trans ?_
    · obtain ⟨p, hp, rfl⟩ := List.mem_map.1 hn
      exact Nat.succ_le_succ (byteLen_payloadText_le (h.described.named p hp)
        (wellformed_of_metadata (h.described.metadata p hp)))
    · rw [List.length_map, smul_eq_mul]
      exact Nat.mul_le_mul_right _ (h.length_le.trans (by decide))
  have hschema : byteLen (jsonNat m.schema) = 1 := by rw [h.schema]; decide
  have hcommit := byteLen_jsonString_le m.bundleCommit
  rw [byteLen_of_hex h.commit] at hcommit
  have hnames : byteLen (jsonString "schema".toList) = 8 ∧
      byteLen (jsonString "bundle_commit".toList) = 15 ∧
      byteLen (jsonString "payloads".toList) = 10 := by decide
  rw [manifestText, ← byteLen, byteLen_jsonObject (List.cons_ne_nil _ _)]
  simp only [List.map_cons, List.map_nil, List.sum_cons, List.sum_nil, hnames, hschema,
    maxManifestBytes, byteLen_jsonArray (mt List.map_eq_nil_iff.1 h.nonempty)]
  omega

/-! ## The length of the record -/

/-- Digits are written as they are. -/
theorem byteLen_jsonString_of_hex {value : Str} {len : ℕ} (h : hex value len = true) :
    byteLen (jsonString value) = len + 2 := by
  rw [hex, Bool.and_eq_true, decide_eq_true_iff, List.all_eq_true] at h
  have hplain : ∀ c ∈ value, jsonEscape c = [c] := by
    intro c hc
    have hdigit :
        c.toNat < 128 → (48 ≤ c.toNat ∧ c.toNat ≤ 57) ∨ (97 ≤ c.toNat ∧ c.toNat ≤ 102) := by
      intro hascii
      have hbyte : c.toUInt8 ∈ Str.toUtf8 value := by
        have hone : c.utf8Size = 1 :=
          Char.utf8Size_eq_one_iff.2 (UInt32.le_iff_toNat_le.2 (Nat.le_of_lt_succ hascii))
        refine List.mem_flatMap.2 ⟨c, hc, ?_⟩
        rw [String.utf8EncodeChar_eq_singleton hone]
        exact List.mem_singleton_self _
      have hnat : c.toUInt8.toNat = c.toNat := Str.toNat_toUInt8 (hascii.trans (by decide))
      have hall := h.2 _ hbyte
      simp only [Bool.or_eq_true, Bool.and_eq_true, decide_eq_true_eq, UInt8.le_iff_toNat_le, hnat]
        at hall
      exact hall
    have hother : ∀ d : Char, d.toNat < 48 ∨ d.toNat = 92 → c ≠ d := by
      rintro d hd rfl
      have := hdigit (by omega)
      omega
    rw [jsonEscape, if_neg (hother _ (by decide)), if_neg (hother _ (by decide)),
      if_neg (hother _ (by decide)), if_neg (hother _ (by decide)), if_neg (hother _ (by decide)),
      if_neg (hother _ (by decide)), if_neg (hother _ (by decide)), if_neg fun hcontrol =>
        hother c (.inl (by omega)) rfl]
  have hbody : value.flatMap jsonEscape = value := by
    rw [List.flatMap_congr hplain, List.flatMap_singleton']
  have hquote : byteLen ['"'] = 1 := by decide
  rw [jsonString, hbody, byteLen_append, byteLen_cons, hquote, byteLen, h.1]
  omega

/-! ## The text of a provenance -/

/-- The component comes after what is the same for all producers. -/
theorem provenanceText_eq (p : Provenance) : ∃ rest, provenanceText p =
    '\x7b' :: ([','].intercalate [jsonString "schema".toList ++ ':' :: jsonNat p.schema,
      jsonString "source_commit".toList ++ ':' :: jsonString p.sourceCommit,
      jsonString "dirty".toList ++ ':' :: jsonBool p.dirty,
      jsonString "component".toList ++ [':', '"']]) ++
      (p.component.flatMap jsonEscape ++ '"' :: rest) := by
  have hcomponent : jsonString p.component = '"' :: (p.component.flatMap jsonEscape ++ ['"']) := rfl
  refine ⟨',' :: (jsonString "version".toList ++ ':' :: (jsonString p.version ++ ',' ::
    (jsonString "files".toList ++ ':' ::
      (jsonObject (p.files.map fun f => (f.1, identityText f.2)) ++ ['\x7d'])))), ?_⟩
  rw [provenanceText, jsonObject]
  simp only [List.map_cons, List.map_nil, hcomponent, List.intercalate_cons_cons,
    List.intercalate_singleton, List.append_assoc, List.cons_append, List.nil_append]

end VpnHide.Artifact

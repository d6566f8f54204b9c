import Mathlib.Data.List.Nodup
import VpnHide.Native.Ledger

/-!
# The manifest of a bundle

A bundle has a catalog of its payloads (`artifact-model/src/manifest.rs`). What `validate` accepts
names no payload twice (`Manifest.validate_eq_ok_iff`), and as only ten can be named, a catalog of
ten is complete (`Manifest.perm_identities`).
-/

namespace VpnHide.Artifact

open Lib Native

/-- The version of manifests. -/
def manifestVersion : ℕ := 1

/-- The longest manifest. -/
def maxManifestBytes : ℕ := 64 * 1024

/-- The largest bundle. -/
def maxBundleBytes : ℕ := 256 * 1024 * 1024

/-- `vpnhide_protocol::CONTROL_VERSION`. -/
def controlVersion : ℕ := 2

/-- The name of the Zygisk library for an architecture. -/
def zygiskLibraryName (arm64 : Bool) : Str :=
  if arm64 then "arm64-v8a.so".toList else "armeabi-v7a.so".toList

/-- Where a bundle has a payload. -/
def relativePath : PayloadKind → Except String Str
  | .kmod kmi =>
    if kmis.contains kmi then .ok ("payloads/kmod/".toList ++ kmi ++ "/vpnhide_kmod.ko".toList)
    else .error "unsupported bundle KMI"
  | .kpm => .ok "payloads/kpm/arm64/vpnhide.kpm".toList
  | .zygisk arm64 => .ok ("payloads/zygisk/".toList ++ zygiskLibraryName arm64)

/-- A number of `len` hexadecimal digits, in lower case. -/
def hex (value : Str) (len : ℕ) : Bool :=
  value.toUtf8.length = len && value.toUtf8.all fun c => (48 ≤ c && c ≤ 57) || (97 ≤ c && c ≤ 102)

/-- Only a kernel module has the capability, and there is one version of it. -/
def unsupportedCapability (p : Payload) (version : Option ℕ) : Bool :=
  version.any fun v => v != 1 || !(match p.implementation with | .kmod _ => true | _ => false)

/-- What is wrong about a payload. -/
def invalidMetadata (p : Payload) : Bool :=
  p.version.isEmpty || 128 < byteLen p.version || p.version.any isControl ||
    !hex p.sourceCommit 40 || !hex p.sha256 64 || p.controlVersion != controlVersion ||
      p.bytes = 0 || maxPayloadBytes < p.bytes ||
    unsupportedCapability p p.initContract || unsupportedCapability p p.preflightProtocol

/-- The manifest of a bundle: its commit and its payloads. -/
structure Manifest where
  schema : ℕ
  bundleCommit : Str
  payloads : List Payload
  deriving DecidableEq

/-- The loop over the payloads: the paths and the sizes so far. -/
def validatePayloads (paths : List Str) (total : ℕ) : List Payload → Except String ℕ
  | [] => .ok total
  | p :: ps => do
    let path ← relativePath p.implementation
    if paths.contains path then .error "duplicate payload identity"
    else if invalidMetadata p then .error "invalid payload metadata or control contract"
    else
      -- The total is a `u64`.
      if 2 ^ 64 ≤ total + p.bytes then .error "size overflow"
      else validatePayloads (path :: paths) (total + p.bytes) ps

namespace Manifest

variable (m : Manifest)

/-- `validate`: what every manifest has to be. -/
def validate : Except String Unit :=
  if m.schema != manifestVersion || !hex m.bundleCommit 40 then
    .error "invalid bundle schema or source identity"
  else if m.payloads.isEmpty || kmis.length + 3 < m.payloads.length then
    .error "invalid payload count"
  else do
    let total ← validatePayloads [] 0 m.payloads
    if maxBundleBytes < total then .error "bundle exceeds budget" else .ok ()

/-- `require_complete`: it has all payloads. -/
def requireComplete : Except String Unit := do
  m.validate
  if m.payloads.length != kmis.length + 3 then .error "incomplete unified bundle" else .ok ()

end Manifest

/-! ## What is accepted -/

/-- The path of a payload, if it has one. -/
def pathOf (p : Payload) : Option Str := (relativePath p.implementation).toOption

/-- The payloads of a catalog: each can be named, none twice, and each is described. -/
structure Described (ps : List Payload) : Prop where
  named : ∀ p ∈ ps, ∃ path, relativePath p.implementation = .ok path
  nodup : (ps.map pathOf).Nodup
  metadata : ∀ p ∈ ps, invalidMetadata p = false

/-- A catalog that is accepted. -/
structure Manifest.Valid (m : Manifest) : Prop where
  schema : m.schema = manifestVersion
  commit : hex m.bundleCommit 40 = true
  nonempty : m.payloads ≠ []
  length_le : m.payloads.length ≤ kmis.length + 3
  described : Described m.payloads
  budget : (m.payloads.map Payload.bytes).sum ≤ maxBundleBytes

/-- The path of a payload that has one. -/
theorem pathOf_eq {p : Payload} {path : Str} (h : relativePath p.implementation = .ok path) :
    pathOf p = some path := by
  rw [pathOf, h]
  rfl

/-- The loop accepts what is described, has a path that has not been seen, and does not overflow. -/
theorem validatePayloads_eq_ok_iff (ps : List Payload) {paths : List Str} {total n : ℕ} :
    validatePayloads paths total ps = .ok n ↔
      Described ps ∧ (∀ p ∈ ps, ∀ path ∈ paths, pathOf p ≠ some path) ∧
        n = total + (ps.map Payload.bytes).sum ∧ (ps = [] ∨ n < 2 ^ 64) := by
  -- The loop carries the paths it has seen and the bytes it has counted.
  induction ps generalizing paths total with
  | nil =>
    rw [validatePayloads, Except.ok.injEq]
    constructor
    · rintro rfl
      exact ⟨⟨nofun, List.nodup_nil, nofun⟩, nofun, rfl, .inl rfl⟩
    · rintro ⟨-, -, rfl, -⟩
      rfl
  | cons p ps ih =>
    rw [validatePayloads]
    cases hpath : relativePath p.implementation with
    | error e =>
      refine iff_of_false (fun h => by cases h) fun ⟨hdescribed, _⟩ => ?_
      obtain ⟨path, h⟩ := hdescribed.named p List.mem_cons_self
      rw [hpath] at h
      cases h
    | ok path =>
      have hpathOf := pathOf_eq hpath
      change (if paths.contains path then _ else _) = _ ↔ _
      -- The path comes first, then the metadata, and last the sum.
      by_cases hseen : paths.contains path = true
      · rw [if_pos hseen]
        refine iff_of_false nofun fun ⟨_, hnew, _⟩ => ?_
        exact hnew p List.mem_cons_self path (List.contains_iff_mem.1 hseen) hpathOf
      · rw [if_neg hseen]
        by_cases hmetadata : invalidMetadata p = true
        · rw [if_pos hmetadata]
          refine iff_of_false nofun fun ⟨hdescribed, _⟩ => ?_
          rw [hdescribed.metadata p List.mem_cons_self] at hmetadata
          cases hmetadata
        · have hsum : total + ((p :: ps).map Payload.bytes).sum =
              total + p.bytes + (ps.map Payload.bytes).sum := by
            rw [List.map_cons, List.sum_cons, Nat.add_assoc]
          rw [if_neg hmetadata, hsum]
          by_cases hoverflow : 2 ^ 64 ≤ total + p.bytes
          · rw [if_pos hoverflow]
            refine iff_of_false nofun fun ⟨_, _, hn, hlt⟩ => ?_
            have hlt := hlt.resolve_left (List.cons_ne_nil p ps)
            omega
          · rw [if_neg hoverflow, ih]
            constructor
            · rintro ⟨hdescribed, hnew, hn, hlt⟩
              refine ⟨⟨?_, ?_, ?_⟩, ?_, hn, .inr ?_⟩
              · exact List.forall_mem_cons.2 ⟨⟨path, hpath⟩, hdescribed.named⟩
              · rw [List.map_cons, List.nodup_cons]
                refine ⟨fun hmem => ?_, hdescribed.nodup⟩
                obtain ⟨q, hq, hsame⟩ := List.mem_map.1 hmem
                exact hnew q hq path List.mem_cons_self (hsame.trans hpathOf)
              · exact List.forall_mem_cons.2 ⟨Bool.eq_false_of_not_eq_true hmetadata,
                  hdescribed.metadata⟩
              · refine List.forall_mem_cons.2 ⟨fun path' hpath' hsame => ?_,
                  fun q hq path' hpath' =>
                  hnew q hq path' (List.mem_cons_of_mem path hpath')⟩
                rw [hpathOf] at hsame
                obtain rfl := Option.some.inj hsame
                exact hseen (List.contains_iff_mem.2 hpath')
              · obtain rfl | hlt := hlt
                · rw [hn, List.map_nil, List.sum_nil]
                  omega
                · exact hlt
            · rintro ⟨hdescribed, hnew, hn, hlt⟩
              have hnodup := hdescribed.nodup
              rw [List.map_cons, List.nodup_cons] at hnodup
              refine ⟨⟨fun q hq => hdescribed.named q (List.mem_cons_of_mem p hq), hnodup.2,
                fun q hq => hdescribed.metadata q (List.mem_cons_of_mem p hq)⟩,
                fun q hq => ?_, hn, ?_⟩
              · refine List.forall_mem_cons.2 ⟨fun hsame => hnodup.1 ?_,
                  hnew q (List.mem_cons_of_mem p hq)⟩
                exact List.mem_map.2 ⟨q, hq, hsame.trans hpathOf.symm⟩
              · exact .inr (hlt.resolve_left (List.cons_ne_nil p ps))

namespace Manifest

variable {m m' : Manifest}

/-- A manifest is accepted if and only if it is valid. -/
theorem validate_eq_ok_iff : m.validate = .ok () ↔ m.Valid := by
  have hbudget : maxBundleBytes < 2 ^ 64 := by decide
  rw [validate]
  -- The schema comes first, then the number of payloads, the payloads themselves, and their sum.
  by_cases hschema : (m.schema != manifestVersion || !hex m.bundleCommit 40) = true
  · rw [if_pos hschema]
    refine iff_of_false nofun fun h => ?_
    rw [h.schema, h.commit] at hschema
    cases hschema
  · rw [if_neg hschema]
    simp only [Bool.or_eq_true, bne_iff_ne, ne_eq, Bool.not_eq_true', not_or, not_not,
      Bool.not_eq_false] at hschema
    by_cases hcount : (m.payloads.isEmpty || decide (kmis.length + 3 < m.payloads.length)) = true
    · rw [if_pos hcount]
      refine iff_of_false nofun fun h => ?_
      rw [Bool.or_eq_true, List.isEmpty_iff, decide_eq_true_eq] at hcount
      exact hcount.elim h.nonempty (Nat.not_lt.2 h.length_le)
    · rw [if_neg hcount]
      rw [Bool.or_eq_true, List.isEmpty_iff, decide_eq_true_eq, not_or, not_lt] at hcount
      cases hpayloads : validatePayloads [] 0 m.payloads with
      | error e =>
        refine iff_of_false nofun fun h => ?_
        have hok := (@validatePayloads_eq_ok_iff m.payloads [] 0 _).2
          ⟨h.described, fun _ _ => nofun, rfl, .inr (by have := h.budget; omega)⟩
        rw [hpayloads] at hok
        cases hok
      | ok total =>
        obtain ⟨hdescribed, -, htotal, -⟩ := (validatePayloads_eq_ok_iff m.payloads).1 hpayloads
        rw [Nat.zero_add] at htotal
        change (if maxBundleBytes < total then _ else _) = _ ↔ _
        by_cases hover : maxBundleBytes < total
        · rw [if_pos hover]
          refine iff_of_false nofun fun h => ?_
          exact absurd h.budget (by rw [← htotal]; exact Nat.not_le.2 hover)
        · rw [if_neg hover]
          exact iff_of_true rfl ⟨hschema.1, hschema.2, hcount.1, hcount.2, hdescribed,
            by rw [← htotal]; exact not_lt.1 hover⟩

/-- The order of the payloads does not matter. -/
theorem Valid.perm (h : m.Valid) (hschema : m.schema = m'.schema)
    (hcommit : m.bundleCommit = m'.bundleCommit) (hpayloads : m.payloads.Perm m'.payloads) :
    m'.Valid where
  schema := hschema.symm.trans h.schema
  commit := hcommit ▸ h.commit
  nonempty := fun hnil => h.nonempty (by rw [hnil] at hpayloads; exact hpayloads.eq_nil)
  length_le := hpayloads.length_eq ▸ h.length_le
  described :=
    { named := fun p hp => h.described.named p (hpayloads.mem_iff.2 hp)
      nodup := (hpayloads.map pathOf).nodup_iff.1 h.described.nodup
      metadata := fun p hp => h.described.metadata p (hpayloads.mem_iff.2 hp) }
  budget := (List.Perm.sum_nat (hpayloads.map Payload.bytes)).symm.trans_le h.budget

/-- All that a bundle can have. -/
def identities : List PayloadKind := kmis.map .kmod ++ [.kpm, .zygisk true, .zygisk false]

/-- And complete, if it has a payload for each kernel interface and three more. -/
theorem requireComplete_eq_ok_iff :
    m.requireComplete = .ok () ↔ m.Valid ∧ m.payloads.length = kmis.length + 3 := by
  rw [requireComplete, ← validate_eq_ok_iff]
  cases hvalid : m.validate with
  | error e => exact iff_of_false nofun fun h => by cases h.1
  | ok u =>
    change (if m.payloads.length != kmis.length + 3 then _ else _) = _ ↔ _
    by_cases hlen : m.payloads.length = kmis.length + 3
    · rw [hlen]
      exact iff_of_true rfl ⟨rfl, rfl⟩
    · rw [if_pos (bne_iff_ne.2 hlen)]
      exact iff_of_false nofun fun h => hlen h.2

/-- A complete catalog has every payload once. -/
theorem perm_identities (h : m.Valid) (hlen : m.payloads.length = kmis.length + 3) :
    (m.payloads.map Payload.implementation).Perm identities := by
  have hnodup : (m.payloads.map Payload.implementation).Nodup := by
    have hpaths := h.described.nodup
    have hcomp : m.payloads.map pathOf = (m.payloads.map Payload.implementation).map fun i =>
      (relativePath i).toOption := by
      rw [List.map_map]
      rfl
    rw [hcomp] at hpaths
    exact List.Nodup.of_map _ hpaths
  have hmem : m.payloads.map Payload.implementation ⊆ identities := by
    intro i hi
    obtain ⟨p, hp, rfl⟩ := List.mem_map.1 hi
    obtain ⟨path, hpath⟩ := h.described.named p hp
    rw [identities, List.mem_append, List.mem_map]
    cases hkind : p.implementation with
    | kmod kmi =>
      rw [hkind, relativePath] at hpath
      split_ifs at hpath with hkmi
      exact .inl ⟨kmi, List.contains_iff_mem.1 hkmi, rfl⟩
    | kpm => exact .inr (by decide)
    | zygisk arm64 => cases arm64 <;> exact .inr (by decide)
  refine (List.subperm_of_subset hnodup hmem).perm_of_length_le ?_
  rw [List.length_map, hlen]
  decide

end Manifest

end VpnHide.Artifact

import VpnHide.Artifact.InitContract
import VpnHide.Lib.Sha256

/-!
# Modules of a GKI

What is known of a kernel module before it is distributed (`inspect` and `inspect_gki` of
`artifact-model/src/elf.rs`): its capabilities, and the symbols that it imports, each of which has
to have a version.
-/

namespace VpnHide.Artifact

open Lib

/-- What an inspection finds in a module. -/
structure KmodInspection where
  sha256 : Str
  bytes : ℕ
  preflightProtocol : Option ℕ
  initContract : Option ℕ
  constructors : Bool
  imports : List Bytes
  versions : List (Bytes × Str)
  extendedVersions : Bool

/-- The bytes of a section that may be missing. -/
def contentNamed (ss : List Section) (name : String) : Except Fault Bytes :=
  match sectionNamed ss name with
  | none => .ok []
  | some s =>
    if s.kind ≠ 8 then .ok s.content else .error (.invalid "metadata cannot use SHT_NOBITS")

section Inspect

variable (sha256 : Bytes → Str) (width : Width)

/-- An iteration of the loop over the symbols: those that are global or weak, and not defined
    here. -/
def importSymbol (strings : Section) (imports : List Bytes) (symbol : Bytes) :
    Except Fault (List Bytes) := do
  let name ← number width symbol 0 4
  if (← number width symbol 6 2) ≠ 0 ∨ name = 0 then .ok imports
  else if (← number width symbol 4 1) / 16 ∉ [1, 2] then .ok imports
  else
    let value ← string width strings.content name
    .ok (upsert (List.map UInt8.toNat) value imports)

/-- The symbols that a module imports. -/
def importsOf (ss : List Section) (symbols : Bytes) : Except Fault (List Bytes) := do
  if symbols = [] then .ok []
  else
    let header ← okOr .panic (sectionNamed ss ".symtab")
    if header.kind ≠ 2 then .error (.invalid "invalid symbol table")
    else if (← number width header.header 56 8) ≠ 24 ∨ symbols.length % 24 ≠ 0 ∨
      262144 < symbols.length / 24 then
      .error (.invalid "invalid symbol table")
    else
      let strings ← headerIndex ss (← number width header.header 40 4)
      if strings.kind ≠ 3 ∨ 16 * 1024 * 1024 < strings.size then
        .error (.invalid "invalid symbol strings")
      else (chunksExact 24 symbols).foldlM (importSymbol width strings) []

/-- An iteration of the loop over the versions. -/
def versionRow (versions : List (Bytes × Str)) (row : Bytes) :
    Except Fault (List (Bytes × Str)) := do
  let crc ← number width row 0 8
  let name ← string width (row.drop 8) 0
  if name = [] ∨ 2 ^ 32 - 1 < crc ∨ versions.any (·.1 = name) then
    .error (.invalid "invalid or duplicate modversion")
  else .ok (upsert (fun v => v.1.map UInt8.toNat) (name, Str.padded 16 8 crc) versions)

/-- `inspect`: all that is asked of a module that may be loaded. -/
def inspect (data : Bytes) : Except Fault KmodInspection := do
  let ss ← sections width data
  let capability ← capabilitiesIn width ss
  let symbols ← contentNamed ss ".symtab"
  let imports ← importsOf width ss symbols
  let raw ← contentNamed ss "__versions"
  if raw.length % 64 ≠ 0 then .error (.invalid "unsupported modversion record size")
  else
    let versions ← (chunksExact 64 raw).foldlM (versionRow width) []
    let extendedNames ← contentNamed ss "__version_ext_names"
    let extendedCrcs ← if extendedNames = [] then contentNamed ss "__version_ext_crcs" else .ok []
    .ok {
      sha256 := sha256 data
      bytes := data.length
      preflightProtocol := capability.preflightProtocol
      initContract := capability.initContract
      constructors := ss.any isConstructor
      imports := imports
      versions := versions
      extendedVersions := extendedNames ≠ [] || extendedCrcs ≠ [] }

/-- `inspect_gki`: also that each import has a version of its own. -/
def inspectGki (data : Bytes) : Except Fault KmodInspection := do
  let inspected ← inspect sha256 width data
  let versioned := inspected.versions.map Prod.fst
  if inspected.extendedVersions then
    .error (.invalid "unsupported extended GKI modversion contract")
  else if !versioned.contains (ascii "module_layout") ||
    inspected.imports.any (!versioned.contains ·) then
    .error (.invalid "GKI payload lacks complete loader symbol CRCs")
  else .ok inspected

end Inspect

/-- The `len` bytes of a number. -/
def toLe (len n : ℕ) : Bytes := (List.range len).map fun i => (n / 256 ^ i % 256).toUInt8

/-- A relocatable object with sections: their names, kinds, flags, links, infos, entry sizes and
    bytes. -/
def relocatable (sections : List (String × ℕ × ℕ × ℕ × ℕ × ℕ × Bytes)) : Bytes :=
  let names := 0 :: (".shstrtab" :: sections.map Prod.fst).flatMap fun name => ascii name ++ [0]
  let header (name kind flags start size link info entry : ℕ) : Bytes :=
    toLe 4 name ++ toLe 4 kind ++ toLe 8 flags ++ toLe 8 0 ++ toLe 8 start ++ toLe 8 size ++
      toLe 4 link ++ toLe 4 info ++ toLe 8 1 ++ toLe 8 entry
  let table :=
    sections.foldl (fun (headers, name, start) (text, kind, flags, link, info, entry, content) =>
      (headers ++ header name kind flags start content.length link info entry,
        name + text.length + 1, start + content.length))
    (List.replicate 64 0 ++ header 1 3 0 64 names.length 0 0 0, 11, 64 + names.length)
  elfMagic ++ List.replicate 9 0 ++ toLe 2 1 ++ toLe 2 183 ++ toLe 4 1 ++ List.replicate 16 0 ++
    toLe 8 table.2.2 ++ List.replicate 10 0 ++ toLe 2 64 ++ toLe 2 (sections.length + 2) ++
    toLe 2 1 ++ names ++
    sections.flatMap (fun s => s.2.2.2.2.2.2) ++ table.1

/-- A module with the two parameters of the contract. -/
def exampleModule : Bytes :=
  let symbol (name info index value size : ℕ) : Bytes :=
    toLe 4 name ++ toLe 1 info ++ [0] ++ toLe 2 index ++ toLe 8 value ++ toLe 8 size
  let record (i name setter start : ℕ) : Bytes :=
    [(0, 4, name), (8, 3, 0), (16, setter, 0), (32, 5, start)].flatMap fun (word, symbol, addend) =>
      toLe 8 (40 * i + word) ++ toLe 8 (symbol * 2 ^ 32 + 257) ++ toLe 8 addend
  relocatable [
    (".modinfo", 1, 0, 0, 0, 0, ascii "vpnhide_preflight=1\x00vpnhide_init_contract=1\x00" ++
      ascii "parmtype=preflight_only:bool\x00parmtype=filesystem_hiding:bool\x00parmtype=probe_mask:uint\x00"),
    ("__param", 1, 0, 0, 0, 0, List.replicate 120 0),
    (".symtab", 2, 0, 5, 0, 24, symbol 0 0 0 0 0 ++ symbol 1 16 0 0 0 ++ symbol 16 16 0 0 0 ++
      symbol 31 17 9 0 64 ++ symbol 0 3 7 0 0 ++ symbol 0 3 8 0 0 ++ symbol 45 1 8 0 1 ++
      symbol 60 1 8 1 1 ++ symbol 78 1 8 4 4),
    (".strtab", 3, 0, 0, 0, 0, ascii "\x00param_ops_bool\x00param_ops_uint\x00__this_module\x00" ++
      ascii "preflight_only\x00filesystem_hiding\x00probe_mask\x00"),
    (".rela__param", 4, 0, 4, 3, 24, record 0 0 1 0 ++ record 1 15 1 1 ++ record 2 33 2 4),
    (".rodata", 1, 2, 0, 0, 0, ascii "preflight_only\x00filesystem_hiding\x00probe_mask\x00"),
    (".data", 1, 3, 0, 0, 0, List.replicate 8 0),
    (".gnu.linkonce.this_module", 1, 3, 0, 0, 0, List.replicate 64 0),
    ("__versions", 1, 0, 0, 0, 0,
      ["module_layout", "param_ops_bool", "param_ops_uint"].flatMap fun name =>
      toLe 8 0xc0de ++ ascii name ++ List.replicate (56 - name.length) 0)]

/-- The module has both capabilities, and is complete. -/
theorem inspectGki_exampleModule : ∃ inspected,
    inspectGki Sha256.hexDigest .w64 exampleModule = .ok inspected ∧
    inspected.preflightProtocol = some 1 ∧ inspected.initContract = some 1 := by
  have hcapabilities :
      (inspectGki Sha256.hexDigest .w64 exampleModule).map
        (fun k => (k.preflightProtocol, k.initContract)) = .ok (some 1, some 1) := by
    decide +kernel
  cases h : inspectGki Sha256.hexDigest .w64 exampleModule with
  | error e =>
    rw [h] at hcapabilities
    cases hcapabilities
  | ok inspected =>
    rw [h] at hcapabilities
    have hpair := Except.ok.inj hcapabilities
    exact ⟨inspected, rfl, congrArg Prod.fst hpair, congrArg Prod.snd hpair⟩

end VpnHide.Artifact

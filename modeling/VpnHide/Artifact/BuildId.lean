import VpnHide.Artifact.Ranges

/-!
# The build ID of a module

`gnu_build_id` of `artifact-model/src/elf.rs` walks over the notes of a section: a header of
twelve bytes, a name and a descriptor, each padded to a multiple of four bytes. It wants one
note of the GNU build ID, and all of the notes complete.

A note is a structure (`Note`), and what is accepted are the encodings of lists of notes
(`gnuBuildId_eq_ok_iff`).
-/

namespace VpnHide.Artifact

open Lib

/-! ## The walk -/

section Walk

variable (width : Width) (note : Bytes)

/-- `a.checked_add(b)` on `usize`. -/
def addNote (a b : ℕ) : Except Fault ℕ :=
  okOr (.invalid "note range overflow") (checkedAdd width.bits a b)

/-- Up to a multiple of four. -/
def align (n : ℕ) : Except Fault ℕ := do
  let n ← addNote width n 3
  .ok (n / 4 * 4)

/-- The note at an offset: where the next one is, and what has been found. -/
def noteStep (offset : ℕ) (found : Option Bytes) : Except Fault (ℕ × Option Bytes) := do
  let names ← toUsize width (← number width note offset 4)
  let desc ← toUsize width (← number width note (← add64 offset 4) 4)
  let kind ← number width note (← add64 offset 8) 4
  let start ← addNote width offset 12
  let descriptor ← addNote width start (← align width names)
  let stop ← addNote width descriptor (← align width desc)
  if note.length < stop then .error (.invalid "truncated module build-ID note")
  else do
    let name ← bytes width note start names
    let value ← bytes width note descriptor desc
    if name = ascii "GNU\x00" ∧ kind = 3 then
      if ¬(4 ≤ desc ∧ desc ≤ 64) ∨ found.isSome then
        .error (.invalid "invalid or duplicate GNU build ID")
      else .ok (stop, some value)
    else .ok (stop, found)

end Walk

variable {width : Width} {note : Bytes} {offset : ℕ} {found : Option Bytes}

/-- What is padded to a multiple of four bytes. -/
def padded (n : ℕ) : ℕ := (n + 3) / 4 * 4

theorem le_padded (n : ℕ) : n ≤ padded n := by
  rw [padded]
  omega

/-- A sum that fits. -/
theorem addNote_eq_ok {a b c : ℕ} :
    addNote width a b = .ok c ↔ a + b < 2 ^ width.bits ∧ c = a + b := by
  rw [← checkedAdd_eq_some, addNote]
  cases checkedAdd width.bits a b with
  | none => simp [okOr]
  | some d => simp [okOr]

/-- An alignment that fits. -/
theorem align_eq_ok {n m : ℕ} : align width n = .ok m ↔ n + 3 < 2 ^ width.bits ∧ m = padded n := by
  constructor
  · intro h
    obtain ⟨k, hk, h⟩ := ok_of_bind h
    obtain ⟨hfit, rfl⟩ := addNote_eq_ok.1 hk
    exact ⟨hfit, (Except.ok.inj h).symm⟩
  · rintro ⟨hfit, rfl⟩
    rw [align, addNote_eq_ok.2 ⟨hfit, rfl⟩]
    rfl

/-- What a step has read. -/
structure Read (width : Width) (note : Bytes) (offset names desc kind : ℕ) : Prop where
  fits : offset + 12 + padded names + padded desc < 2 ^ width.bits
  complete : offset + 12 + padded names + padded desc ≤ note.length
  names_eq : names = fromLe ((note.drop offset).take 4)
  desc_eq : desc = fromLe ((note.drop (offset + 4)).take 4)
  kind_eq : kind = fromLe ((note.drop (offset + 8)).take 4)

/-- What is found in a note, given what has been found before it. -/
def admitted (found : Option Bytes) (name value : Bytes) (kind : ℕ) : Except Fault (Option Bytes) :=
  if name = ascii "GNU\x00" ∧ kind = 3 then
    if ¬(4 ≤ value.length ∧ value.length ≤ 64) ∨ found.isSome then
      .error (.invalid "invalid or duplicate GNU build ID")
    else .ok (some value)
  else .ok found

/-- A step that goes on has read a complete note. -/
theorem exists_read_of_noteStep {s : ℕ × Option Bytes}
    (h : noteStep width note offset found = .ok s) :
    ∃ names desc kind, Read width note offset names desc kind := by
  obtain ⟨names, hnames, h⟩ := ok_of_bind h
  obtain ⟨names', hnames', h⟩ := ok_of_bind h
  obtain ⟨at4, hat4, h⟩ := ok_of_bind h
  obtain ⟨desc, hdesc, h⟩ := ok_of_bind h
  obtain ⟨desc', hdesc', h⟩ := ok_of_bind h
  obtain ⟨at8, hat8, h⟩ := ok_of_bind h
  obtain ⟨kind, hkind, h⟩ := ok_of_bind h
  obtain ⟨start, hstart, h⟩ := ok_of_bind h
  obtain ⟨alignedNames, halignedNames, h⟩ := ok_of_bind h
  obtain ⟨descriptor, hdescriptor, h⟩ := ok_of_bind h
  obtain ⟨alignedDesc, halignedDesc, h⟩ := ok_of_bind h
  obtain ⟨stop, hstop, h⟩ := ok_of_bind h
  obtain ⟨-, rfl⟩ := toUsize_eq_ok.1 hnames'
  obtain ⟨-, rfl⟩ := toUsize_eq_ok.1 hdesc'
  obtain ⟨-, rfl⟩ := checkedAdd_eq_some.1 (okOr_eq_ok hat4)
  obtain ⟨-, rfl⟩ := checkedAdd_eq_some.1 (okOr_eq_ok hat8)
  obtain ⟨-, rfl⟩ := addNote_eq_ok.1 hstart
  obtain ⟨-, rfl⟩ := align_eq_ok.1 halignedNames
  obtain ⟨-, rfl⟩ := addNote_eq_ok.1 hdescriptor
  obtain ⟨-, rfl⟩ := align_eq_ok.1 halignedDesc
  obtain ⟨hfits, rfl⟩ := addNote_eq_ok.1 hstop
  have hcomplete : offset + 12 + padded names' + padded desc' ≤ note.length := by
    by_contra hlt
    rw [if_pos (not_le.1 hlt)] at h
    cases h
  exact ⟨_, _, _, hfits, hcomplete, ((number_eq_ok (by decide)).1 hnames).2.2,
    ((number_eq_ok (by decide)).1 hdesc).2.2, ((number_eq_ok (by decide)).1 hkind).2.2⟩

/-- A step at a complete note. -/
theorem noteStep_eq {names desc kind : ℕ} (h : Read width note offset names desc kind) :
    noteStep width note offset found =
      (admitted found ((note.drop (offset + 12)).take names)
        ((note.drop (offset + 12 + padded names)).take desc) kind).map
        fun found => (offset + 12 + padded names + padded desc, found) := by
  have hpow : 2 ^ width.bits ≤ 2 ^ 64 := Nat.pow_le_pow_right (by decide) width.bits_le
  obtain ⟨hfits, hcomplete, hnames, hdesc, hkind⟩ := h
  have hle := le_padded names
  have hle' := le_padded desc
  have hnumber :
      ∀ k ≤ 8, number width note (offset + k) 4 = .ok (fromLe ((note.drop (offset + k)).take 4)) :=
    fun k hk => (number_eq_ok (by decide)).2 ⟨by omega, by omega, rfl⟩
  have halign : ∀ n, padded n ≤ padded names + padded desc → align width n = .ok (padded n) :=
    fun n hn =>
    align_eq_ok.2 ⟨by have := le_padded n; omega, rfl⟩
  have hadd : ∀ a b, a + b ≤ offset + 12 + padded names + padded desc →
      addNote width a b = .ok (a + b) :=
    fun a b hab => addNote_eq_ok.2 ⟨by omega, rfl⟩
  have hvalue : ∀ a n, a + n ≤ offset + 12 + padded names + padded desc →
      bytes width note a n = .ok ((note.drop a).take n) :=
    fun a n hn => bytes_eq_ok.2 ⟨by omega, by omega, rfl⟩
  have hlen : ((note.drop (offset + 12 + padded names)).take desc).length = desc :=
    List.length_take_of_le (by rw [List.length_drop]; omega)
  have h0 := hnumber 0 (by decide)
  rw [Nat.add_zero, ← hnames] at h0
  simp only [noteStep, h0, add64_eq_ok (show offset + 4 < 2 ^ 64 by omega), hnumber 4 (by decide),
    ← hdesc, add64_eq_ok (show offset + 8 < 2 ^ 64 by omega), hnumber 8 (by decide), ← hkind,
    toUsize_eq_ok.2 ⟨show names < 2 ^ width.bits by omega, rfl⟩,
    toUsize_eq_ok.2 ⟨show desc < 2 ^ width.bits by omega, rfl⟩, hadd offset 12 (by omega),
    halign names (by omega), hadd (offset + 12) (padded names) (by omega), halign desc (by omega),
    hadd (offset + 12 + padded names) (padded desc) (by omega), bind, Except.bind,
    if_neg (not_lt.2 hcomplete), hvalue (offset + 12) names (by omega),
    hvalue (offset + 12 + padded names) desc (by omega), admitted, hlen]
  split_ifs <;> rfl

/-- A step goes on by the header at least, and not past the end. -/
theorem noteStep_advances {offset' : ℕ} {found' : Option Bytes}
    (h : noteStep width note offset found = .ok (offset', found')) :
    offset + 12 ≤ offset' ∧ offset' ≤ note.length := by
  obtain ⟨names, desc, kind, hread⟩ := exists_read_of_noteStep h
  rw [noteStep_eq hread] at h
  have hcomplete := hread.complete
  cases hadmitted : admitted found ((note.drop (offset + 12)).take names)
      ((note.drop (offset + 12 + padded names)).take desc) kind with
  | error e =>
    rw [hadmitted] at h
    cases h
  | ok f =>
    rw [hadmitted] at h
    obtain ⟨rfl, -⟩ := Prod.ext_iff.1 (Except.ok.inj h)
    dsimp only
    omega

/-- The notes from an offset on. -/
def noteLoop (width : Width) (note : Bytes) (offset : ℕ) (found : Option Bytes) :
    Except Fault (Option Bytes) :=
  if offset < note.length then
    match _h : noteStep width note offset found with
    | .error e => .error e
    | .ok (offset', found') => noteLoop width note offset' found'
  else .ok found
termination_by note.length - offset
decreasing_by
  have := noteStep_advances _h
  omega

/-- `gnu_build_id`: the id of a note section that has exactly one. -/
def gnuBuildId (width : Width) (note : Bytes) : Except Fault Bytes := do
  if 4096 < note.length then .error (.invalid "module build-ID note too large")
  else
    let found ← noteLoop width note 0 none
    okOr (.invalid "missing GNU build ID") found

/-! ## The grammar -/

/-- A complete note: three words, a name and a descriptor. What the padding is made of does not
    matter. -/
structure Note where
  nameSize : Bytes
  descSize : Bytes
  kind : Bytes
  name : Bytes
  namePadding : Bytes
  desc : Bytes
  descPadding : Bytes
  length_nameSize : nameSize.length = 4
  length_descSize : descSize.length = 4
  length_kind : kind.length = 4
  length_name : name.length = fromLe nameSize
  length_desc : desc.length = fromLe descSize
  length_namePadding : name.length + namePadding.length = padded name.length
  length_descPadding : desc.length + descPadding.length = padded desc.length

namespace Note

variable (n : Note)

/-- The bytes of a note. -/
def encode : Bytes :=
  n.nameSize ++ n.descSize ++ n.kind ++ n.name ++ n.namePadding ++ n.desc ++ n.descPadding

/-- Its name is `GNU` and its type that of a build ID. -/
def IsBuildId : Prop := n.name = ascii "GNU\x00" ∧ fromLe n.kind = 3

instance : Decidable n.IsBuildId := inferInstanceAs (Decidable (_ ∧ _))

/-- The length of a note. -/
theorem length_encode : n.encode.length = 12 + padded n.name.length + padded n.desc.length := by
  simp only [encode, List.length_append, n.length_nameSize, n.length_descSize, n.length_kind]
  have := n.length_namePadding
  have := n.length_descPadding
  omega

end Note

/-- A part of what follows an offset, by where it stands. -/
theorem take_drop_of_append {p m rest : Bytes} {a : ℕ} (h : note.drop offset = p ++ m ++ rest)
    (ha : p.length = a) :
    (note.drop (offset + a)).take m.length = m := by
  rw [← List.drop_drop, h, ← ha, List.append_assoc, List.drop_left, List.take_left]

variable {n : Note} {rest : Bytes}

/-- The parts of a note, by where they stand. -/
theorem Note.parts (h : note.drop offset = n.encode ++ rest) :
    n.nameSize = (note.drop offset).take 4 ∧ n.descSize = (note.drop (offset + 4)).take 4 ∧
      n.kind = (note.drop (offset + 8)).take 4 ∧
      n.name = (note.drop (offset + 12)).take n.name.length ∧
      n.desc = (note.drop (offset + 12 + padded n.name.length)).take n.desc.length := by
  have hat : ∀ (p m rest' : Bytes) (a : ℕ), n.encode ++ rest = p ++ m ++ rest' → p.length = a →
      m = (note.drop (offset + a)).take m.length :=
    fun _ _ _ _ hm ha => (take_drop_of_append (h.trans hm) ha).symm
  have hpadding := n.length_namePadding
  have h0 := hat [] n.nameSize (n.descSize ++ n.kind ++ n.name ++ n.namePadding ++ n.desc ++
    n.descPadding ++ rest) 0
    (by simp only [Note.encode, List.append_assoc, List.nil_append]) rfl
  have h4 := hat n.nameSize n.descSize
    (n.kind ++ n.name ++ n.namePadding ++ n.desc ++ n.descPadding ++ rest) 4
    (by simp only [Note.encode, List.append_assoc]) n.length_nameSize
  have h8 := hat (n.nameSize ++ n.descSize) n.kind
    (n.name ++ n.namePadding ++ n.desc ++ n.descPadding ++ rest) 8
    (by simp only [Note.encode, List.append_assoc]) (by simp [n.length_nameSize, n.length_descSize])
  have h12 := hat (n.nameSize ++ n.descSize ++ n.kind) n.name
    (n.namePadding ++ n.desc ++ n.descPadding ++ rest) 12
    (by simp only [Note.encode, List.append_assoc])
    (by simp [n.length_nameSize, n.length_descSize, n.length_kind])
  have hdesc :=
    hat (n.nameSize ++ n.descSize ++ n.kind ++ n.name ++ n.namePadding) n.desc
      (n.descPadding ++ rest)
    (12 + padded n.name.length) (by simp only [Note.encode, List.append_assoc])
    (by simp [n.length_nameSize, n.length_descSize, n.length_kind]; omega)
  rw [n.length_nameSize] at h0
  rw [n.length_descSize] at h4
  rw [n.length_kind] at h8
  rw [← Nat.add_assoc] at hdesc
  exact ⟨h0, h4, h8, h12, hdesc⟩

/-- What a step reads of a note. -/
theorem Note.read (hsmall : note.length ≤ 4096) (hoffset : offset ≤ note.length)
    (h : note.drop offset = n.encode ++ rest) :
    Read width note offset n.name.length n.desc.length (fromLe n.kind) := by
  have hlen := congrArg List.length h
  rw [List.length_drop, List.length_append, n.length_encode] at hlen
  have hpow : 2 ^ 32 ≤ 2 ^ width.bits := by cases width <;> decide
  obtain ⟨hnames, hdesc, hkind, -, -⟩ := Note.parts h
  refine ⟨by omega, by omega, ?_, ?_, ?_⟩
  · rw [n.length_name, hnames]
  · rw [n.length_desc, hdesc]
  · rw [hkind]

/-- A step at a note admits it, and goes on after it. -/
theorem noteStep_of_note (hsmall : note.length ≤ 4096) (hoffset : offset ≤ note.length)
    (h : note.drop offset = n.encode ++ rest) :
    noteStep width note offset found =
      (admitted found n.name n.desc (fromLe n.kind)).map fun found =>
        (offset + n.encode.length, found) := by
  obtain ⟨-, -, -, hname, hdesc⟩ := Note.parts h
  rw [noteStep_eq (Note.read hsmall hoffset h), ← hname, ← hdesc, n.length_encode, Nat.add_assoc,
    Nat.add_assoc, Nat.add_assoc]

/-- A step that goes on has read a note. -/
theorem Read.exists_note {names desc kind : ℕ} (h : Read width note offset names desc kind) :
    ∃ (n : Note) (rest : Bytes), note.drop offset = n.encode ++ rest := by
  obtain ⟨-, hcomplete, hnames, hdesc, -⟩ := h
  have hle := le_padded names
  have hle' := le_padded desc
  have hpart : ∀ a len, a + len ≤ 12 + padded names + padded desc →
      ((note.drop (offset + a)).take len).length = len :=
    fun a len hlen => List.length_take_of_le (by rw [List.length_drop]; omega)
  -- The parts that were read lie one behind another.
  have hjoin : ∀ a len, (note.drop (offset + a)).take len ++ note.drop (offset + (a + len)) =
      note.drop (offset + a) := by
    intro a len
    rw [← Nat.add_assoc, ← List.drop_drop (i := len), List.take_append_drop]
  have hname := hpart 12 names (by omega)
  have hvalue := hpart (12 + padded names) desc (by omega)
  refine ⟨{ nameSize := (note.drop offset).take 4
            descSize := (note.drop (offset + 4)).take 4
            kind := (note.drop (offset + 8)).take 4
            name := (note.drop (offset + 12)).take names
            namePadding := (note.drop (offset + (12 + names))).take (padded names - names)
            desc := (note.drop (offset + (12 + padded names))).take desc
            descPadding :=
              (note.drop (offset + (12 + padded names + desc))).take (padded desc - desc)
            length_nameSize := hpart 0 4 (by omega)
            length_descSize := hpart 4 4 (by omega)
            length_kind := hpart 8 4 (by omega)
            length_name := hname.trans hnames
            length_desc := hvalue.trans hdesc
            length_namePadding := by rw [hname, hpart _ _ (by omega)]; omega
            length_descPadding := by rw [hvalue, hpart _ _ (by omega)]; omega },
          note.drop (offset + (12 + padded names + padded desc)), ?_⟩
  simp only [Note.encode, List.append_assoc]
  have hjoin0 := hjoin 0 4
  have hjoin12 := hjoin (12 + names) (padded names - names)
  have hjoin' := hjoin (12 + padded names + desc) (padded desc - desc)
  rw [show 12 + names + (padded names - names) = 12 + padded names by omega] at hjoin12
  rw [show 12 + padded names + desc + (padded desc - desc) = 12 + padded names + padded desc by
    omega] at hjoin'
  rw [hjoin', hjoin, hjoin12, hjoin, hjoin 8 4, hjoin 4 4]
  exact hjoin0.symm

/-! ## What is found -/

/-- The descriptors that may be a build ID, after what has been found already. -/
def candidates (found : Option Bytes) (notes : List Note) : List Bytes :=
  found.toList ++ (notes.filter fun n => n.IsBuildId).map Note.desc

/-- No build ID is too short or too long. -/
def Sized (notes : List Note) : Prop :=
  ∀ n ∈ notes, n.IsBuildId → 4 ≤ n.desc.length ∧ n.desc.length ≤ 64

/-- A note with an id is among the candidates. -/
theorem candidates_cons_of_pos (h : n.IsBuildId) (notes : List Note) :
    candidates found (n :: notes) = found.toList ++ n.desc :: candidates none notes := by
  rw [candidates, List.filter_cons, if_pos (decide_eq_true h), List.map_cons]
  rfl

/-- Other notes are passed over. -/
theorem candidates_cons_of_neg (h : ¬n.IsBuildId) (notes : List Note) :
    candidates found (n :: notes) = candidates found notes := by
  rw [candidates, List.filter_cons, if_neg (by simpa using h), candidates]

/-- What becomes of a note with an id. -/
theorem admitted_of_isBuildId (h : n.IsBuildId) :
    admitted found n.name n.desc (fromLe n.kind) =
      if ¬(4 ≤ n.desc.length ∧ n.desc.length ≤ 64) ∨ found.isSome then
        .error (.invalid "invalid or duplicate GNU build ID")
      else .ok (some n.desc) :=
  if_pos h

/-- What becomes of another note. -/
theorem admitted_of_not_isBuildId (h : ¬n.IsBuildId) :
    admitted found n.name n.desc (fromLe n.kind) = .ok found := if_neg h

/-- What a note adds, if it is admitted. -/
theorem candidates_of_admitted {found' : Option Bytes}
    (h : admitted found n.name n.desc (fromLe n.kind) = .ok found') (notes : List Note) :
    candidates found (n :: notes) = candidates found' notes ∧
      (Sized (n :: notes) ↔ Sized notes) := by
  have htail : Sized (n :: notes) → Sized notes :=
    fun hall m hm => hall m (List.mem_cons_of_mem n hm)
  by_cases hid : n.IsBuildId
  · rw [admitted_of_isBuildId hid] at h
    split_ifs at h with hbad
    rw [not_or, not_not, Option.not_isSome_iff_eq_none] at hbad
    obtain ⟨hsize, rfl⟩ := hbad
    obtain rfl := Except.ok.inj h
    exact ⟨candidates_cons_of_pos hid notes, htail, fun hall =>
      List.forall_mem_cons.2 ⟨fun _ => hsize, hall⟩⟩
  · rw [admitted_of_not_isBuildId hid] at h
    obtain rfl := Except.ok.inj h
    exact ⟨candidates_cons_of_neg hid notes, htail,
      fun hall => List.forall_mem_cons.2 ⟨fun h => absurd h hid, hall⟩⟩

/-- A note that is not admitted is a build ID of a wrong size, or a second one. -/
theorem not_sized_of_admitted {e : Fault}
    (h : admitted found n.name n.desc (fromLe n.kind) = .error e) {notes : List Note} {id : Bytes}
    (hone : candidates found (n :: notes) = [id]) : ¬Sized (n :: notes) := by
  intro hsized
  by_cases hid : n.IsBuildId
  · rw [candidates_cons_of_pos hid] at hone
    rw [admitted_of_isBuildId hid, if_neg] at h
    · cases h
    · refine not_or.2 ⟨not_not.2 (hsized n List.mem_cons_self hid), ?_⟩
      cases found with
      | none => exact nofun
      | some v => simp at hone
  · rw [admitted_of_not_isBuildId hid] at h
    cases h

/-- Notes that are left begin with one. -/
theorem exists_head (hlt : offset < note.length) {notes : List Note}
    (h : note.drop offset = (notes.map Note.encode).flatten) :
    ∃ n ns, notes = n :: ns ∧ note.drop offset = n.encode ++ (ns.map Note.encode).flatten := by
  cases notes with
  | nil => exact absurd (List.drop_eq_nil_iff.1 h) (not_le.2 hlt)
  | cons n ns => exact ⟨n, ns, rfl, h⟩

/-- After a step that goes on: what was read is the first note, whatever the notes are. -/
theorem noteStep_eq_ok (hsmall : note.length ≤ 4096) (hoffset : offset ≤ note.length) {offset' : ℕ}
    {found' : Option Bytes} (hstep : noteStep width note offset found = .ok (offset', found'))
    (h : note.drop offset = n.encode ++ rest) :
    rest = note.drop offset' ∧ admitted found n.name n.desc (fromLe n.kind) = .ok found' := by
  rw [noteStep_of_note hsmall hoffset h] at hstep
  cases hadmitted : admitted found n.name n.desc (fromLe n.kind) with
  | error e =>
    rw [hadmitted] at hstep
    cases hstep
  | ok f =>
    rw [hadmitted] at hstep
    obtain ⟨rfl, rfl⟩ := Prod.ext_iff.1 (Except.ok.inj hstep)
    dsimp only
    rw [← List.drop_drop, h, List.drop_left]
    exact ⟨rfl, rfl⟩

/-- The loop finds the one build ID among the notes that follow. -/
theorem noteLoop_eq_ok_iff (hsmall : note.length ≤ 4096) (id : Bytes)
    (hoffset : offset ≤ note.length) :
    noteLoop width note offset found = .ok (some id) ↔
      ∃ notes : List Note, note.drop offset = (notes.map Note.encode).flatten ∧
        candidates found notes = [id] ∧ Sized notes := by
  -- By the recursion of the loop, which reads one note and goes on behind it.
  fun_induction noteLoop width note offset found with
  | case1 offset found hlt e hstep =>
    refine iff_of_false nofun ?_
    rintro ⟨notes, hnotes, hone, hsized⟩
    obtain ⟨n, ns, rfl, hn⟩ := exists_head hlt hnotes
    rw [noteStep_of_note hsmall hoffset hn] at hstep
    -- The step fails as the note is not admitted, and then no notes that follow give one ID.
    cases hadmitted : admitted found n.name n.desc (fromLe n.kind) with
    | error e' => exact not_sized_of_admitted hadmitted hone hsized
    | ok f =>
      rw [hadmitted] at hstep
      cases hstep
  | case2 offset found hlt offset' found' hstep ih =>
    -- A note that was read is put in front of those that follow.
    rw [ih (noteStep_advances hstep).2]
    constructor
    · rintro ⟨notes, hnotes, hone, hsized⟩
      obtain ⟨names, desc, kind, hread⟩ := exists_read_of_noteStep hstep
      obtain ⟨n, rest, hn⟩ := hread.exists_note
      obtain ⟨rfl, hadmitted⟩ := noteStep_eq_ok hsmall hoffset hstep hn
      obtain ⟨hcons, hsize⟩ := candidates_of_admitted hadmitted notes
      exact ⟨n :: notes, by rw [hn, hnotes]; rfl, hcons.trans hone, hsize.2 hsized⟩
    · rintro ⟨notes, hnotes, hone, hsized⟩
      obtain ⟨n, ns, rfl, hn⟩ := exists_head hlt hnotes
      obtain ⟨hrest, hadmitted⟩ := noteStep_eq_ok hsmall hoffset hstep hn
      obtain ⟨hcons, hsize⟩ := candidates_of_admitted hadmitted ns
      exact ⟨ns, hrest.symm, hcons.symm.trans hone, hsize.1 hsized⟩
  | case3 offset found hge =>
    rw [List.drop_eq_nil_of_le (not_lt.1 hge)]
    constructor
    · intro h
      obtain rfl := Except.ok.inj h
      exact ⟨[], rfl, rfl, nofun⟩
    · rintro ⟨notes, hnotes, hone, -⟩
      cases notes with
      | nil =>
        rw [candidates, List.filter_nil, List.map_nil, List.append_nil] at hone
        cases found with
        | none => cases hone
        | some v =>
          obtain rfl : v = id := List.singleton_inj.1 hone
          rfl
      | cons n ns =>
        have hlen := congrArg List.length hnotes
        rw [List.map_cons, List.flatten_cons, List.length_append, n.length_encode, List.length_nil]
          at hlen
        omega

/-! ## No panic -/

theorem calm_addNote {a b : ℕ} : Calm (addNote width a b) := calm_okOr

theorem calm_align {a : ℕ} : Calm (align width a) := calm_addNote.bind fun _ _ => calm_ok _

/-- Within a small file, no offset overflows. -/
theorem calm_noteStep (hsmall : note.length ≤ 4096) (hoffset : offset ≤ note.length) :
    Calm (noteStep width note offset found) := by
  have hadd : ∀ k ≤ 8, Calm (add64 offset k) := by
    intro k hk
    rw [add64_eq_ok (by omega)]
    exact calm_ok _
  refine (calm_number (by decide)).bind fun _ _ => (calm_toUsize _).bind fun _ _ =>
    (hadd 4 (by decide)).bind fun _ _ =>
    (calm_number (by decide)).bind fun _ _ => (calm_toUsize _).bind fun _ _ =>
      (hadd 8 (by decide)).bind fun _ _ =>
    (calm_number (by decide)).bind fun _ _ => calm_addNote.bind fun _ _ =>
      calm_align.bind fun _ _ =>
    calm_addNote.bind fun _ _ => calm_align.bind fun _ _ => calm_addNote.bind fun stop _ => ?_
  by_cases hcomplete : note.length < stop
  · rw [if_pos hcomplete]
    exact calm_invalid _
  · rw [if_neg hcomplete]
    refine calm_bytes.bind fun _ _ => calm_bytes.bind fun _ _ => ?_
    split_ifs
    · exact calm_invalid _
    · exact calm_ok _
    · exact calm_ok _

/-- The loop does not panic. -/
theorem calm_noteLoop (hsmall : note.length ≤ 4096) (hoffset : offset ≤ note.length) :
    Calm (noteLoop width note offset found) := by
  fun_induction noteLoop width note offset found with
  | case1 offset found hlt e hstep =>
    have hcalm : Calm (noteStep width note offset found) := calm_noteStep hsmall hoffset
    rw [hstep] at hcalm
    exact fun h => hcalm (congrArg Except.error (Except.error.inj h))
  | case2 offset found hlt offset' found' hstep ih => exact ih (noteStep_advances hstep).2
  | case3 offset found hge => exact calm_ok _

/-- The search does not panic. -/
theorem calm_gnuBuildId : Calm (gnuBuildId width note) := by
  rw [gnuBuildId]
  split_ifs with hlarge
  · exact calm_invalid _
  · exact (calm_noteLoop (not_lt.1 hlarge) (Nat.zero_le _)).bind fun _ _ => calm_okOr

/-! ## The result -/

/-- When an id is found. -/
theorem gnuBuildId_eq_ok {id : Bytes} :
    gnuBuildId width note = .ok id ↔
      note.length ≤ 4096 ∧ noteLoop width note 0 none = .ok (some id) := by
  rw [gnuBuildId]
  split_ifs with hlarge
  · exact iff_of_false nofun fun h => absurd h.1 (not_le.2 hlarge)
  · rw [and_iff_right (not_lt.1 hlarge)]
    cases noteLoop width note 0 none with
    | error e => exact iff_of_false nofun nofun
    | ok found =>
      cases found with
      | none => exact iff_of_false nofun nofun
      | some v =>
        exact ⟨fun h => congrArg (Except.ok ∘ some) (Except.ok.inj h), fun h => congrArg Except.ok
          (Option.some.inj (Except.ok.inj h))⟩

/-- An identifier is found in at most 4096 bytes, if they are complete notes one after the
    other, and it is the descriptor, of 4 to 64 bytes, of the only one that is a GNU build ID. The
    search panics nowhere: every range that is read lies within the bytes, and every note takes it
    further by twelve bytes at least, but not past their end. -/
theorem gnuBuildId_sound (width : Width) (note : Bytes) :
    (∀ id, gnuBuildId width note = .ok id ↔ note.length ≤ 4096 ∧
      ∃ notes : List Note, note = (notes.map Note.encode).flatten ∧
        ∃ n, (notes.filter fun n => n.IsBuildId) = [n] ∧ 4 ≤ n.desc.length ∧ n.desc.length ≤ 64 ∧
        n.desc = id) ∧
    gnuBuildId width note ≠ .error .panic ∧
    (∀ offset len value, bytes width note offset len = .ok value →
      offset + len ≤ note.length ∧ value = (note.drop offset).take len) ∧
    ∀ offset found offset' found', noteStep width note offset found = .ok (offset', found') →
      offset + 12 ≤ offset' ∧ offset' ≤ note.length := by
  refine ⟨fun id => ?_, calm_gnuBuildId, fun offset len value h => (bytes_eq_ok.1 h).2,
    fun offset found offset' found' h => noteStep_advances h⟩
  rw [gnuBuildId_eq_ok]
  refine and_congr_right fun hsmall => ?_
  -- The loop is the list of the notes, read from its first byte on.
  rw [noteLoop_eq_ok_iff hsmall id (Nat.zero_le _), List.drop_zero]
  refine exists_congr fun notes => and_congr_right fun _ => ?_
  have hmem : ∀ n, n ∈ notes.filter (fun n => n.IsBuildId) ↔ n ∈ notes ∧ n.IsBuildId := fun n => by
    rw [List.mem_filter, decide_eq_true_iff]
  constructor
  · -- The descriptors of the build IDs are one, so that there is one build ID.
    rintro ⟨hone, hsized⟩
    obtain ⟨n, hn, rfl⟩ := List.map_eq_singleton_iff.1 hone
    obtain ⟨hmem, hid⟩ := (hmem n).1 (hn ▸ List.mem_singleton_self n)
    exact ⟨n, hn, (hsized n hmem hid).1, (hsized n hmem hid).2, rfl⟩
  · rintro ⟨n, hn, hlo, hhi, rfl⟩
    refine ⟨by rw [candidates, hn]; rfl, fun m hm hid => ?_⟩
    obtain rfl : m = n := List.mem_singleton.1 (hn ▸ (hmem m).2 ⟨hm, hid⟩)
    exact ⟨hlo, hhi⟩

example : gnuBuildId .w32 [4, 0, 0, 0, 5, 0, 0, 0, 3, 0, 0, 0, 71, 78, 85, 0, 1,
    2, 3, 4, 5, 0, 0, 0] =
    .ok [1, 2, 3, 4, 5] := by decide +kernel

end VpnHide.Artifact

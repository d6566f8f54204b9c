import VpnHide.Artifact.Parameters

/-!
# The relocations of the parameters

The first loop of `standard_parameters`: what it has found out is what the relocations say
(`Scanned`), which each iteration preserves (`Scanned.relocate`). As the offsets of twelve
relocations are different words of a table of twelve, every word is set, and by one of them
(`Scanned.perm`).
-/

namespace VpnHide.Artifact

open Lib

variable {width : Width} {ss : List Section} {t : Tables}

/-! ## What a relocation says -/

/-- A relocation of type 257 (`R_AARCH64_ABS64`) that sets a word of the table, and its symbol. -/
structure Sets (t : Tables) (r : Relocation) (y : Symbol) : Prop where
  mem : r ∈ t.relocationTable
  offset_lt : r.offset < 120
  word : r.offset % 40 ∈ wordOffsets
  type_eq : r.type = 257
  symbol_eq : t.symbolTable[r.symbol]? = some y

/-- The word has a setter of the kernel: a global symbol that the module does not define. -/
structure IsCallback (t : Tables) (r : Relocation) (y : Symbol) (name : Bytes) : Prop where
  index_eq : y.index = 0
  bind_eq : y.info / 16 = 1
  addend_eq : r.addend = 0
  name_eq : stringAt t.strings.content y.name = some name

/-- The word has the module. -/
structure IsOwner (t : Tables) (r : Relocation) (y : Symbol) : Prop where
  addend_eq : r.addend = 0
  name_eq : stringAt t.strings.content y.name = some (ascii "__this_module")

/-- The word has a name, which is in the file. -/
structure IsName (ss : List Section) (r : Relocation) (y : Symbol) (name : Bytes) : Prop where
  mem : name ∈ parameterNames
  stored : ∃ s ∈ ss, s.index = y.index ∧ stringAt s.content (y.value + r.addend) = some name

/-- The word has an address in `.data` or `.bss`. -/
structure IsArgument (ss : List Section) (r : Relocation) (y : Symbol) (index start : ℕ) :
    Prop where
  index_eq : y.index = index
  start_eq : y.value + r.addend = start
  storage : ∃ s ∈ ss, s.index = index ∧ (s.name = ascii ".data" ∨ s.name = ascii ".bss")

/-- A row has what a relocation says. -/
structure Filled (ss : List Section) (t : Tables) (r : Relocation) (y : Symbol) (row : Row) :
    Prop where
  name : r.offset % 40 = 0 → ∃ name, row.name = some name ∧ IsName ss r y name
  owner : r.offset % 40 = 8 → IsOwner t r y
  ops : r.offset % 40 = 16 → ∃ name, row.ops = some name ∧ IsCallback t r y name
  argument : r.offset % 40 = 32 → ∃ index start, row.argument = some (index, start) ∧
    IsArgument ss r y index start

/-- A relocation fills one word of a row. -/
structure Fills (ss : List Section) (t : Tables) (r : Relocation) (y : Symbol) (row row' : Row) :
    Prop where
  filled : Filled ss t r y row'
  name_eq : r.offset % 40 ≠ 0 → row'.name = row.name
  ops_eq : r.offset % 40 ≠ 16 → row'.ops = row.ops
  argument_eq : r.offset % 40 ≠ 32 → row'.argument = row.argument

/-! ## What an iteration finds out -/

/-- What a callback is. -/
theorem isCallback_eq_ok {symbol name : Bytes} {index addend : ℕ}
    (h : isCallback width symbol name index addend = .ok true) :
    index = 0 ∧ field symbol 4 1 / 16 = 1 ∧ addend = 0 := by
  rw [isCallback] at h
  split_ifs at h with hindex
  · cases h
  obtain ⟨info, hinfo, h⟩ := ok_of_bind h
  split_ifs at h with hbind
  · cases h
  have haddend := of_decide_eq_true (Except.ok.inj h)
  rw [number_eq_field (by decide) hinfo] at hbind
  exact ⟨not_not.1 hindex, not_not.1 hbind, haddend.1⟩

/-- What an owner is. -/
theorem isOwner_eq_ok {symbol name : Bytes} {index addend : ℕ}
    (h : isOwner width ss symbol name index addend = .ok true) :
    name = ascii "__this_module" ∧ addend = 0 := by
  rw [isOwner] at h
  by_cases hname : name ≠ ascii "__this_module" ∨ addend ≠ 0
  · rw [if_pos hname] at h
    cases h
  · rw [not_or, not_not, not_not] at hname
    exact hname

/-- Where a pointer leads. -/
theorem pointee_eq_ok {symbol : Bytes} {index addend start : ℕ} {target : Section}
    (h : pointee width ss symbol index addend = .ok (target, start)) :
    target ∈ ss ∧ target.index = index ∧ start = field symbol 8 8 + addend := by
  obtain ⟨s, hs, h⟩ := ok_of_bind h
  obtain ⟨value, hvalue, h⟩ := ok_of_bind h
  obtain ⟨sum, hsum, h⟩ := ok_of_bind h
  split_ifs at h with hin
  obtain ⟨flags, -, h⟩ := ok_of_bind h
  split_ifs at h
  obtain ⟨rfl, rfl⟩ := Prod.ext_iff.1 (Except.ok.inj h)
  obtain ⟨hmem, hindex⟩ := headerIndex_eq_ok hs
  rw [(checkedAdd_eq_some.1 (okOr_eq_ok hsum)).2, number_eq_field (by decide) hvalue]
  exact ⟨hmem, hindex, rfl⟩

/-- Which sections storage lies in. -/
theorem isStorage_eq_ok {target : Section} {index : ℕ}
    (h : isStorage width ss target index = .ok true) :
    ∃ s ∈ ss, s.index = index ∧ (s.name = ascii ".data" ∨ s.name = ascii ".bss") := by
  rw [isStorage] at h
  split_ifs at h
  swap
  · cases h
  obtain ⟨flags, -, h⟩ := ok_of_bind h
  split_ifs at h
  · cases h
  obtain ⟨s, hs, hindex⟩ := List.any_eq_true.1 (Except.ok.inj h)
  obtain hs | hs := List.mem_append.1 hs
  · obtain ⟨hmem, hname⟩ := sectionNamed_eq_some (Option.mem_toList.1 hs)
    exact ⟨s, hmem, of_decide_eq_true hindex, .inl hname⟩
  · obtain ⟨hmem, hname⟩ := sectionNamed_eq_some (Option.mem_toList.1 hs)
    exact ⟨s, hmem, of_decide_eq_true hindex, .inr hname⟩

/-- What an iteration does to the variables: a row is filled, and a name is noted. -/
structure Step (ss : List Section) (t : Tables) (r : Relocation) (y : Symbol) (scan scan' : Scan)
    (row : Row) : Prop where
  offsets_eq : scan'.offsets = scan.offsets
  rows_eq : scan'.rows = Function.update scan.rows (r.offset / 40) (some row)
  fills : Fills ss t r y ((scan.rows (r.offset / 40)).getD .empty) row
  names_eq : (r.offset % 40 ≠ 0 ∧ scan'.names = scan.names) ∨
    ∃ name ∉ scan.names, row.name = some name ∧ scan'.names = name :: scan.names

/-- What a relocation of a word adds to the scan. -/
theorem relocateWord_step {symbol entry name : Bytes} {scan scan' : Scan}
    (hword : (relocationOf entry).offset % 40 ∈ wordOffsets)
    (hname : stringAt t.strings.content (symbolOf symbol).name = some name)
    (h : relocateWord width ss symbol name (relocationOf entry).offset (symbolOf symbol).index
      (relocationOf entry).addend scan = .ok scan') :
    ∃ row, Step ss t (relocationOf entry) (symbolOf symbol) scan scan' row := by
  generalize relocationOf entry = r at *
  unfold relocateWord at h
  dsimp only at h
  -- The four words of a parameter are told apart by their offset: the callbacks first,
  by_cases h16 : r.offset % 40 = 16
  · rw [if_pos h16] at h
    obtain ⟨good, hgood, h⟩ := ok_of_bind h
    split_ifs at h with htrue
    obtain rfl := Except.ok.inj h
    obtain ⟨hindex, hbind, haddend⟩ := isCallback_eq_ok (hgood.trans (congrArg _ htrue))
    refine ⟨_, rfl, rfl, ⟨⟨fun h0 => ?_, fun h8 => ?_, fun _ => ?_, fun h32 => ?_⟩, fun _ => rfl,
      ?_, fun _ => rfl⟩, .inl ?_⟩
    · omega
    · omega
    · exact ⟨name, rfl, hindex, hbind, haddend, hname⟩
    · omega
    · exact fun h => absurd h16 h
    · exact ⟨by omega, rfl⟩
  rw [if_neg h16] at h
  -- then the owner,
  by_cases h8 : r.offset % 40 = 8
  · rw [if_pos h8] at h
    obtain ⟨good, hgood, h⟩ := ok_of_bind h
    split_ifs at h with htrue
    obtain rfl := Except.ok.inj h
    obtain ⟨rfl, haddend⟩ := isOwner_eq_ok (hgood.trans (congrArg _ htrue))
    refine ⟨_, rfl, rfl, ⟨⟨fun h0 => ?_, fun _ => ⟨haddend, hname⟩, fun h16 => ?_, fun h32 => ?_⟩,
      fun _ => rfl, fun _ => rfl, fun _ => rfl⟩, .inl ⟨?_, rfl⟩⟩ <;> omega
  rw [if_neg h8] at h
  obtain ⟨⟨target, start⟩, hpointee, h⟩ := ok_of_bind h
  obtain ⟨hmem, hindex, rfl⟩ := pointee_eq_ok hpointee
  dsimp only at h
  -- then the name; the last one is the storage.
  by_cases h0 : r.offset % 40 = 0
  · rw [if_pos h0] at h
    obtain ⟨value, hvalue, h⟩ := ok_of_bind h
    split_ifs at h with hbad
    obtain rfl := Except.ok.inj h
    rw [not_or, not_not] at hbad
    refine ⟨_, rfl, rfl, ⟨⟨fun _ => ?_, fun h => ?_, fun h => ?_, fun h => ?_⟩, ?_, fun _ => rfl,
      fun _ => rfl⟩, .inr ?_⟩
    · exact ⟨value, rfl, hbad.1, target, hmem, hindex, stringAt_of_string hvalue⟩
    · exact absurd h h8
    · exact absurd h h16
    · omega
    · exact fun h => absurd h0 h
    · exact ⟨value, hbad.2, rfl, rfl⟩
  · rw [if_neg h0] at h
    obtain ⟨good, hgood, h⟩ := ok_of_bind h
    split_ifs at h with htrue
    obtain rfl := Except.ok.inj h
    have hstorage := isStorage_eq_ok (hgood.trans (congrArg _ htrue))
    refine ⟨_, rfl, rfl,
      ⟨⟨fun h => absurd h h0, fun h => absurd h h8, fun h => absurd h h16, fun _ => ?_⟩,
      fun _ => rfl, fun _ => rfl, fun h => ?_⟩, .inl ⟨h0, rfl⟩⟩
    · exact ⟨_, _, rfl, rfl, rfl, hstorage⟩
    · simp only [wordOffsets, List.mem_cons, List.not_mem_nil, or_false] at hword
      omega

/-- What a relocation adds to the scan. -/
theorem relocate_step {entry : Bytes} {scan scan' : Scan} (hsize : t.params.size = 120)
    (hmem : relocationOf entry ∈ t.relocationTable)
    (h : relocate width ss t scan entry = .ok scan') :
    ∃ y row, Sets t (relocationOf entry) y ∧ (relocationOf entry).offset ∉ scan.offsets ∧
      Step ss t (relocationOf entry) y { scan with offsets := (relocationOf entry).offset ::
        scan.offsets } scan' row := by
  obtain ⟨offset, hoffset, h⟩ := ok_of_bind h
  obtain ⟨info, hinfo, h⟩ := ok_of_bind h
  obtain ⟨addend, haddend, h⟩ := ok_of_bind h
  obtain rfl := number_eq_field (by decide) hoffset
  obtain rfl := number_eq_field (by decide) hinfo
  obtain rfl := number_eq_field (by decide) haddend
  split_ifs at h with hbad
  obtain ⟨before, -, h⟩ := ok_of_bind h
  split_ifs at h
  obtain ⟨start, hstart, h⟩ := ok_of_bind h
  obtain ⟨symbol, hsymbol, h⟩ := ok_of_bind h
  obtain ⟨nameAt, hnameAt, h⟩ := ok_of_bind h
  obtain ⟨name, hname, h⟩ := ok_of_bind h
  obtain ⟨index, hindex, h⟩ := ok_of_bind h
  obtain rfl := number_eq_field (by decide) hnameAt
  obtain rfl := number_eq_field (by decide) hindex
  rw [not_or, not_or, not_or, not_le, hsize, not_not, not_not] at hbad
  obtain ⟨hlt, hword, hnew, htype⟩ := hbad
  have hsymbolTable : t.symbolTable[field entry 8 8 / 2 ^ 32]? = some (symbolOf symbol) := by
    obtain ⟨-, rfl⟩ := checkedMul_eq_some.1 (okOr_eq_ok hstart)
    obtain ⟨-, hin, rfl⟩ := bytes_eq_ok.1 hsymbol
    rw [Nat.mul_comm] at hin ⊢
    rw [Tables.symbolTable, List.getElem?_map, getElem?_chunksExact (by decide) hin,
      Option.map_some]
  obtain ⟨row, hrow⟩ := relocateWord_step hword (stringAt_of_string hname) h
  exact ⟨symbolOf symbol, row, ⟨hmem, hlt, hword, htype, hsymbolTable⟩, hnew, hrow⟩

/-! ## What the loop finds out -/

/-- The variables after the iterations for some relocations. -/
structure Scanned (ss : List Section) (t : Tables) (rs : List Relocation) (scan : Scan) : Prop where
  offsets_eq : scan.offsets = (rs.map Relocation.offset).reverse
  nodup : (rs.map Relocation.offset).Nodup
  recorded : ∀ r ∈ rs, ∃ y row, Sets t r y ∧ scan.rows (r.offset / 40) = some row ∧
    Filled ss t r y row
  names : ∀ k row name, scan.rows k = some row → row.name = some name → name ∈ scan.names
  name_inj : ∀ k k' row row' name, scan.rows k = some row → scan.rows k' = some row' →
    row.name = some name → row'.name = some name → k = k'

/-- What a row has is kept when another word is filled. -/
theorem Filled.fills {r r' : Relocation} {y y' : Symbol} {row row' : Row} (h : Filled ss t r y row)
    (hfills : Fills ss t r' y' row row') (hne : r.offset % 40 ≠ r'.offset % 40) :
    Filled ss t r y row' where
  name h0 := by
    rw [hfills.name_eq (h0 ▸ hne.symm)]
    exact h.name h0
  owner := h.owner
  ops h16 := by
    rw [hfills.ops_eq (h16 ▸ hne.symm)]
    exact h.ops h16
  argument h32 := by
    rw [hfills.argument_eq (h32 ▸ hne.symm)]
    exact h.argument h32

/-- An iteration goes on with one more relocation. -/
theorem Scanned.step {rs : List Relocation} {r : Relocation} {y : Symbol} {scan scan' : Scan}
    {row : Row} (h : Scanned ss t rs scan) (hsets : Sets t r y) (hnew : r.offset ∉ scan.offsets)
    (hstep : Step ss t r y { scan with offsets := r.offset :: scan.offsets } scan' row) :
    Scanned ss t (rs ++ [r]) scan' := by
  have hrows := hstep.rows_eq
  have hfills := hstep.fills
  dsimp only at hrows hfills
  have hat : scan'.rows (r.offset / 40) = some row := by rw [hrows, Function.update_self]
  have hother : ∀ k, k ≠ r.offset / 40 → scan'.rows k = scan.rows k := fun k hk => by
    rw [hrows, Function.update_of_ne hk]
  have hkept : ∀ name, row.name = some name → r.offset % 40 ≠ 0 →
      ∃ old, scan.rows (r.offset / 40) = some old ∧ old.name = some name := by
    intro name hname h0
    rw [hfills.name_eq h0] at hname
    cases hold : scan.rows (r.offset / 40) with
    | none =>
      rw [hold] at hname
      cases hname
    | some old =>
      rw [hold] at hname
      exact ⟨old, rfl, hname⟩
  refine ⟨?_, ?_, ?_, ?_, ?_⟩
  · rw [hstep.offsets_eq, h.offsets_eq, List.map_append, List.reverse_append]
    rfl
  · rw [List.map_append, List.map_singleton, List.nodup_append]
    refine ⟨h.nodup, List.nodup_singleton _, fun o ho o' ho' heq => ?_⟩
    rw [List.mem_singleton] at ho'
    rw [h.offsets_eq, List.mem_reverse] at hnew
    exact hnew (ho' ▸ heq ▸ ho)
  · intro r' hr'
    obtain hr' | hr' := List.mem_append.1 hr'
    · obtain ⟨y', old, hsets', hold, hfilled⟩ := h.recorded r' hr'
      by_cases hk : r'.offset / 40 = r.offset / 40
      · rw [← hk, hold, Option.getD_some] at hfills
        have hne : r'.offset % 40 ≠ r.offset % 40 := by
          intro hmod
          have heq : r'.offset = r.offset := by omega
          rw [h.offsets_eq, List.mem_reverse, ← heq] at hnew
          exact hnew (List.mem_map_of_mem hr')
        exact ⟨y', row, hsets', hk ▸ hat, hfilled.fills hfills hne⟩
      · exact ⟨y', old, hsets', (hother _ hk).trans hold, hfilled⟩
    · obtain rfl := List.mem_singleton.1 hr'
      exact ⟨y, row, hsets, hat, hfills.filled⟩
  · intro k row' name hrow' hname
    have hnamed : name ∈ scan.names → name ∈ scan'.names := by
      obtain ⟨-, hnames⟩ | ⟨new, -, -, hnames⟩ := hstep.names_eq
      · exact fun hmem => hnames ▸ hmem
      · exact fun hmem => hnames ▸ List.mem_cons_of_mem new hmem
    by_cases hk : k = r.offset / 40
    · rw [hk, hat] at hrow'
      obtain rfl := Option.some.inj hrow'
      obtain ⟨h0, -⟩ | ⟨new, -, hrow, hnames⟩ := hstep.names_eq
      · obtain ⟨old, hold, hname⟩ := hkept name hname h0
        exact hnamed (h.names _ old name hold hname)
      · rw [hnames, Option.some.inj (hname.symm.trans hrow)]
        exact List.mem_cons_self
    · rw [hother k hk] at hrow'
      exact hnamed (h.names k row' name hrow' hname)
  · -- A new name is not one of those before.
    have hold : ∀ k row' name, k ≠ r.offset / 40 → scan'.rows k = some row' →
        row'.name = some name → row.name ≠ some name := by
      intro k row' name hk hrow' hname hsame
      rw [hother k hk] at hrow'
      obtain ⟨h0, -⟩ | ⟨new, hnot, hrow, -⟩ := hstep.names_eq
      · obtain ⟨old, hold, hname'⟩ := hkept name hsame h0
        exact hk (h.name_inj _ _ row' old name hrow' hold hname hname')
      · rw [Option.some.inj (hrow.symm.trans hsame)] at hnot
        exact hnot (h.names k row' name hrow' hname)
    intro k k' row₁ row₂ name h₁ h₂ hname₁ hname₂
    by_cases hk : k = r.offset / 40 <;> by_cases hk' : k' = r.offset / 40
    · exact hk.trans hk'.symm
    · rw [hk, hat] at h₁
      obtain rfl := Option.some.inj h₁
      exact absurd hname₁ (hold k' row₂ name hk' h₂ hname₂)
    · rw [hk', hat] at h₂
      obtain rfl := Option.some.inj h₂
      exact absurd hname₂ (hold k row₁ name hk h₁ hname₁)
    · rw [hother k hk] at h₁
      rw [hother k' hk'] at h₂
      exact h.name_inj k k' row₁ row₂ name h₁ h₂ hname₁ hname₂

/-- What all relocations add to the scan. -/
theorem Scanned.foldlM {rs : List Relocation} {scan scan' : Scan} (hsize : t.params.size = 120)
    (entries : List Bytes) (hmem : ∀ entry ∈ entries, relocationOf entry ∈ t.relocationTable)
    (h : Scanned ss t rs scan)
    (hrun : entries.foldlM (relocate width ss t) scan = .ok scan') :
    Scanned ss t (rs ++ entries.map relocationOf) scan' := by
  induction entries generalizing rs scan with
  | nil =>
    obtain rfl := Except.ok.inj hrun
    rwa [List.map_nil, List.append_nil]
  | cons entry entries ih =>
    rw [List.foldlM_cons] at hrun
    obtain ⟨next, hnext, hrun⟩ := ok_of_bind hrun
    obtain ⟨y, row, hsets, hnew, hstep⟩ := relocate_step hsize (hmem entry List.mem_cons_self) hnext
    rw [List.map_cons, List.append_cons]
    exact ih (fun e he => hmem e (List.mem_cons_of_mem entry he)) (h.step hsets hnew hstep) hrun

/-! ## The words of the table -/

/-- The words of three records. -/
def tableOffsets : List ℕ := [0, 8, 16, 32, 40, 48, 56, 72, 80, 88, 96, 112]

/-- The offsets that a parameter has words at. -/
theorem mem_tableOffsets : ∀ o < 120, o % 40 ∈ wordOffsets → o ∈ tableOffsets := by decide

/-- Twelve relocations set each of the twelve words once. -/
theorem Scanned.perm {rs : List Relocation} {scan : Scan} (h : Scanned ss t rs scan)
    (hlen : rs.length = 12) :
    (rs.map Relocation.offset).Perm tableOffsets := by
  refine (List.subperm_of_subset h.nodup fun o ho => ?_).perm_of_length_le ?_
  · obtain ⟨r, hr, rfl⟩ := List.mem_map.1 ho
    obtain ⟨y, row, hsets, -⟩ := h.recorded r hr
    exact mem_tableOffsets _ hsets.offset_lt hsets.word
  · rw [List.length_map, hlen]
    rfl

/-- A record has a row, and each of its words a relocation that has filled it. -/
theorem Scanned.record {rs : List Relocation} {scan : Scan} (h : Scanned ss t rs scan)
    (hlen : rs.length = 12) {k : ℕ} (hk : k < 3) :
    ∃ row, scan.rows k = some row ∧ ∀ w ∈ wordOffsets, ∃ r y, Sets t r y ∧ r.offset = 40 * k + w ∧
      Filled ss t r y row := by
  have hword : ∀ w ∈ wordOffsets, ∃ r y row, Sets t r y ∧ r.offset = 40 * k + w ∧
      scan.rows k = some row ∧ Filled ss t r y row := by
    intro w hw
    have hmem : 40 * k + w ∈ tableOffsets := by
      have hall : ∀ k < 3, ∀ w ∈ wordOffsets, 40 * k + w ∈ tableOffsets := by decide
      exact hall k hk w hw
    obtain ⟨r, hr, hoffset⟩ := List.mem_map.1 ((h.perm hlen).mem_iff.2 hmem)
    obtain ⟨y, row, hsets, hrow, hfilled⟩ := h.recorded r hr
    have hdiv : r.offset / 40 = k := by
      have hlt : ∀ w ∈ wordOffsets, w < 40 := by decide
      have := hlt w hw
      omega
    exact ⟨r, y, row, hsets, hoffset, hdiv ▸ hrow, hfilled⟩
  obtain ⟨-, -, row, -, -, hrow, -⟩ := hword 0 (by decide)
  refine ⟨row, hrow, fun w hw => ?_⟩
  obtain ⟨r, y, row', hsets, hoffset, hrow', hfilled⟩ := hword w hw
  obtain rfl := Option.some.inj (hrow.symm.trans hrow')
  exact ⟨r, y, hsets, hoffset, hfilled⟩

end VpnHide.Artifact

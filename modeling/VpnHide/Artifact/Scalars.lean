import VpnHide.Artifact.Relocations

/-!
# The scalars of the parameters

The second loop of `standard_parameters`: each row is of a scalar of the module (`IsScalar`),
apart from those of the rows before it (`foldlM_checkRow`).
-/

namespace VpnHide.Artifact

open Lib

variable {width : Width} {ss : List Section} {t : Tables}

/-! ## Scalars -/

/-- A parameter: the name of the scalar that it sets, and where that is. -/
structure Parameter where
  name : Bytes
  storage : Section
  start : ℕ

namespace Parameter

/-- The size of a parameter, by its name. -/
def size (p : Parameter) : ℕ := scalarSize p.name

/-- The range of its section that the parameter takes up. -/
def scalar (p : Parameter) : Scalar := ⟨p.storage.index, p.start, p.size⟩

end Parameter

theorem scalarSize_pos (name : Bytes) : 0 < scalarSize name := by
  rw [scalarSize]
  split_ifs <;> decide

/-- Two scalars have no byte in common. -/
def Scalar.Apart (s o : Scalar) : Prop :=
  s.index = o.index → s.start + s.size ≤ o.start ∨ o.start + o.size ≤ s.start

/-- The size of an entry of a relocation section. -/
def Section.stride (s : Section) : ℕ := if s.kind = 4 then 24 else 16

/-- No relocation writes into a scalar, as far as sixteen bytes reach. -/
def Untouched (ss : List Section) (s : Scalar) : Prop :=
  ∀ source ∈ ss, source.kind = 4 ∨ source.kind = 9 → source.info = s.index →
    source.stride ∣ source.content.length ∧ ∀ entry ∈ chunksExact source.stride source.content,
      field entry 0 8 + 16 ≤ s.start ∨ s.start + s.size ≤ field entry 0 8

/-- The scalar of a parameter is the only symbol of its name, a local object (1) of the right size,
    and lies within its section. -/
structure IsScalar (ss : List Section) (t : Tables) (p : Parameter) : Prop where
  mem : p.storage ∈ ss
  own : ∃ y, (t.symbolTable.filter fun y => stringAt t.strings.content y.name = some p.name) = [y] ∧
    y.info = 1 ∧ y.index = p.storage.index ∧ y.value = p.start ∧ y.size = p.size
  aligned : p.size ∣ p.start
  inside : p.start + p.size ≤ p.storage.size
  untouched : Untouched ss p.scalar

/-! ## What is checked -/

/-- A sum that is not refused. -/
theorem add64_ok {a b c : ℕ} (h : add64 a b = .ok c) : a + b < 2 ^ 64 ∧ c = a + b :=
  checkedAdd_eq_some.1 (okOr_eq_ok h)

/-- The symbols that are found under a name. -/
theorem foldlM_matchSymbol {name : Bytes} (entries : List Bytes) {found l : List (ℕ × ℕ × ℕ × ℕ)}
    (h : entries.foldlM (matchSymbol width t name) found = .ok l) :
    l = found ++
      (((entries.map symbolOf).filter fun y =>
        stringAt t.strings.content y.name = some name).map fun y =>
          (y.info, y.index, y.value, y.size)) := by
  induction entries generalizing found with
  | nil =>
    obtain rfl := Except.ok.inj h
    exact (List.append_nil found).symm
  | cons entry entries ih =>
    rw [List.foldlM_cons] at h
    obtain ⟨next, hnext, h⟩ := ok_of_bind h
    obtain ⟨nameAt, hnameAt, hload⟩ := ok_of_bind hnext
    obtain ⟨value, hvalue, hmatch⟩ := ok_of_bind hload
    have hstring : stringAt t.strings.content (symbolOf entry).name = some value := by
      rw [number_eq_field (by decide) hnameAt] at hvalue
      exact stringAt_of_string hvalue
    rw [ih h, List.map_cons, List.filter_cons]
    by_cases hname : value = name
    · rw [if_pos hname] at hmatch
      obtain ⟨info, hinfo, hmatch⟩ := ok_of_bind hmatch
      obtain ⟨index, hindex, hmatch⟩ := ok_of_bind hmatch
      obtain ⟨start, hstart, hmatch⟩ := ok_of_bind hmatch
      obtain ⟨size, hsize, hmatch⟩ := ok_of_bind hmatch
      rw [← Except.ok.inj hmatch, number_eq_field (by decide) hinfo,
        number_eq_field (by decide) hindex, number_eq_field (by decide) hstart,
        number_eq_field (by decide) hsize,
        if_pos (decide_eq_true (hstring.trans (congrArg some hname))),
        List.map_cons, List.append_assoc]
      rfl
    · rw [if_neg hname] at hmatch
      rw [← Except.ok.inj hmatch, if_neg]
      rw [hstring, decide_eq_true_iff, Option.some.injEq]
      exact hname

/-- Scalars that are accepted are apart. -/
theorem overlapping_eq_ok {s : Scalar} {os : List Scalar} (h : overlapping s os = .ok false) :
    ∀ o ∈ os, o.Apart s := by
  induction os with
  | nil => exact List.forall_mem_nil _
  | cons o os ih =>
    rw [overlapping] at h
    split_ifs at h with hindex
    · exact List.forall_mem_cons.2 ⟨fun heq => absurd heq hindex, ih h⟩
    obtain ⟨stop, hstop, h⟩ := ok_of_bind h
    obtain ⟨-, rfl⟩ := add64_ok hstop
    split_ifs at h with hbefore
    · exact List.forall_mem_cons.2 ⟨fun _ => .inl hbefore, ih h⟩
    obtain ⟨stop, hstop, h⟩ := ok_of_bind h
    obtain ⟨-, rfl⟩ := add64_ok hstop
    split_ifs at h with hafter
    · exact List.forall_mem_cons.2 ⟨fun _ => .inr hafter, ih h⟩
    · cases h

/-- A relocation that is accepted is outside of the scalar. -/
theorem checkEntry_eq_ok {s : Scalar} {entry : Bytes} (hsize : 0 < s.size)
    (h : checkEntry width s entry = .ok ()) :
    field entry 0 8 + 16 ≤ s.start ∨ s.start + s.size ≤ field entry 0 8 := by
  obtain ⟨offset, hoffset, h⟩ := ok_of_bind h
  obtain ⟨stop, hstop, h⟩ := ok_of_bind h
  obtain rfl := number_eq_field (by decide) hoffset
  obtain ⟨hlt, rfl⟩ := add64_ok hstop
  split_ifs at h with hover
  by_contra hnot
  rw [not_or, not_le, not_le] at hnot
  exact hover ⟨hnot.2, lt_min hnot.1 (by omega)⟩

/-- No relocation touches a scalar that is accepted. -/
theorem untouched_of_checkRelocations (hss : Formed ss) {s : Scalar} (hsize : 0 < s.size)
    (h : ss.forM (checkRelocations width s) = .ok ()) :
    Untouched ss s := by
  intro source hsource hkind hinfo
  have hcheck := forM_ok h hsource
  rw [checkRelocations, if_neg (not_not.2 hkind)] at hcheck
  obtain ⟨info, hnumber, hcheck⟩ := ok_of_bind hcheck
  obtain rfl := number_eq_field (by decide) hnumber
  rw [if_neg (not_not.2 (show field source.header 44 4 = s.index from hinfo))] at hcheck
  dsimp only at hcheck
  obtain ⟨entrySize, -, hcheck⟩ := ok_of_bind hcheck
  rw [← Section.stride] at hcheck
  split_ifs at hcheck with hbad
  rw [not_or, not_not, not_not] at hbad
  have hlen : source.content.length = source.size :=
    (hss.formed source hsource).length_content (by omega)
  refine ⟨hlen ▸ Nat.dvd_of_mod_eq_zero hbad.2, fun entry hentry => ?_⟩
  exact checkEntry_eq_ok hsize (forM_ok hcheck hentry)

/-- What a row says about a parameter. -/
structure Describes (row : Row) (p : Parameter) : Prop where
  name_eq : row.name = some p.name
  ops_eq : row.ops = some (setter p.size)
  argument_eq : row.argument = some (p.storage.index, p.start)

/-- A row that is accepted is of a scalar, which is added. -/
theorem checkRow_eq_ok (hss : Formed ss) {scalars scalars' : List Scalar} {row : Row}
    (h : checkRow width ss t scalars row = .ok scalars') :
    ∃ p, scalars' = scalars ++ [p.scalar] ∧ Describes row p ∧ IsScalar ss t p ∧
      ∀ o ∈ scalars, o.Apart p.scalar := by
  obtain ⟨name, hname, h⟩ := ok_of_bind h
  dsimp only at h
  split_ifs at h with hops
  obtain ⟨argument, hargument, h⟩ := ok_of_bind h
  obtain ⟨target, htarget, h⟩ := ok_of_bind h
  obtain ⟨hmem, hindex⟩ := headerIndex_eq_ok htarget
  split_ifs at h with hbad
  obtain ⟨found, hfound, h⟩ := ok_of_bind h
  split_ifs at h with hother
  obtain ⟨meets, hmeets, h⟩ := ok_of_bind h
  split_ifs at h with htrue
  obtain ⟨_, huntouched, h⟩ := ok_of_bind h
  obtain rfl := Except.ok.inj h
  rw [not_or, not_not] at hbad
  -- The value is inside its section, without a wrap of the sum.
  have hinside : argument.2 + scalarSize name ≤ target.size := by
    have hall := hbad.2
    cases hsum : checkedAdd 64 argument.2 (scalarSize name) with
    | none =>
      rw [hsum] at hall
      exact absurd rfl hall
    | some stop =>
      rw [hsum, Option.all_some, decide_eq_true_iff, not_lt, (checkedAdd_eq_some.1 hsum).2] at hall
      exact hall
  rw [not_not, foldlM_matchSymbol _ hfound, List.nil_append] at hother
  obtain ⟨y, hy, hrest⟩ := List.map_eq_singleton_iff.1 hother
  simp only [Prod.mk.injEq] at hrest
  refine ⟨⟨name, target, argument.2⟩, ?_, ⟨okOr_eq_ok hname, not_not.1 hops, ?_⟩,
    ⟨hmem, ⟨y, hy, hrest.1, ?_, hrest.2.2⟩,
    Nat.dvd_of_mod_eq_zero hbad.1, hinside, ?_⟩, ?_⟩
  · rw [← hindex]
    rfl
  · rw [okOr_eq_ok hargument, hindex]
  · rw [hrest.2.1, hindex]
  · rw [Parameter.scalar, hindex]
    exact untouched_of_checkRelocations hss (scalarSize_pos name) huntouched
  · rw [Parameter.scalar, hindex]
    exact overlapping_eq_ok (hmeets.trans (congrArg _ (Bool.eq_false_of_not_eq_true htrue)))

/-- The rows are of scalars that are apart from each other. -/
theorem foldlM_checkRow (hss : Formed ss) (rows : List Row) {scalars scalars' : List Scalar}
    (h : rows.foldlM (checkRow width ss t) scalars = .ok scalars') :
    ∃ ps : List Parameter, List.Forall₂ Describes rows ps ∧ (∀ p ∈ ps, IsScalar ss t p) ∧
      (∀ p ∈ ps, ∀ o ∈ scalars, o.Apart p.scalar) ∧ ps.Pairwise fun p q =>
        p.scalar.Apart q.scalar := by
  induction rows generalizing scalars with
  | nil => exact ⟨[], .nil, List.forall_mem_nil _, List.forall_mem_nil _, .nil⟩
  | cons row rows ih =>
    rw [List.foldlM_cons] at h
    obtain ⟨next, hnext, h⟩ := ok_of_bind h
    obtain ⟨p, rfl, hdescribes, hscalar, hapart⟩ := checkRow_eq_ok hss hnext
    obtain ⟨ps, hps, hscalars, haparts, hpairwise⟩ := ih h
    refine ⟨p :: ps, .cons hdescribes hps, List.forall_mem_cons.2 ⟨hscalar, hscalars⟩,
      List.forall_mem_cons.2 ⟨hapart, ?_⟩, ?_⟩
    · exact fun q hq o ho => haparts q hq o (List.mem_append_left _ ho)
    · exact List.pairwise_cons.2
        ⟨fun q hq => haparts q hq _ (List.mem_append_right _ (List.mem_singleton_self _)),
          hpairwise⟩

end VpnHide.Artifact

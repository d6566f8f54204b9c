import VpnHide.Artifact.Ranges
import VpnHide.Protocol.Telemetry

/-!
# The properties of a module

`module.prop` is a text of lines. An assembly looks for the identity of the core among them
(`assemble` of `artifact-model/src/archive.rs`), and adds a line at the end; an inspection wants no
other line of an identity (`inspect_package`). So a text that is assembled is accepted if it has one
such line (`checkIdentity_activated`).
-/

namespace VpnHide.Artifact

open Lib
open Protocol (stripCarriageReturn)

/-- A line that says which module it is. -/
def isIdentity (line : Str) : Bool := "id=".toList.isPrefixOf line

/-- The properties name the module, once. -/
def checkIdentity (properties : Str) : Except Fault Unit :=
  if (Str.lines properties).filter isIdentity ≠ ["id=vpnhide_core".toList] then
    .error (.invalid "wrong or ambiguous module identity")
  else .ok ()

/-- The line that says whether the module is active. -/
def isActivation (line : Str) : Bool :=
  "vpnhideControl=".toList.isPrefixOf (Str.trim line) ||
    "vpnhideActivation=".toList.isPrefixOf (Str.trim line)

/-- The properties name the module and turn nothing on. -/
def checkProperties (properties : Str) : Except Fault Unit :=
  if "id=vpnhide_core".toList ∉ Str.lines properties ∨ (Str.lines properties).any isActivation then
    .error (.invalid "unexpected Core identity or ambiguous activation metadata")
  else .ok ()

/-- `trim_end_matches`, and the line that activates the module. -/
def activated (properties : Str) : Str :=
  properties.rdropWhile (· == '\n') ++ "\nvpnhideControl=2\n".toList

/-! ## Lines -/

variable {properties : Str}

theorem isIdentity_stripCarriageReturn (l : Str) :
    isIdentity (stripCarriageReturn l) = isIdentity l := by
  rw [stripCarriageReturn]
  split_ifs with h
  · obtain ⟨init, rfl⟩ := List.getLast?_eq_some_iff.1 h
    rw [List.dropLast_concat]
    obtain _ | ⟨a, _ | ⟨b, _ | ⟨c, init⟩⟩⟩ := init
    · rfl
    · simp [isIdentity, List.isPrefixOf]
    · simp [isIdentity, List.isPrefixOf]
    · simp [isIdentity, List.isPrefixOf]
  · rfl

/-- The lines of a text, and those of what follows it. -/
theorem lines_unlines_append {ls : List Str} (hls : ∀ l ∈ ls, '\n' ∉ l) (rest : Str) :
    Str.lines (Str.unlines ls ++ rest) = ls.map stripCarriageReturn ++ Str.lines rest := by
  induction ls with
  | nil => rfl
  | cons l ls ih =>
    obtain ⟨hl, hls⟩ := List.forall_mem_cons.1 hls
    rw [Str.unlines_cons, List.append_assoc, List.cons_append, Str.lines_cons_of_notMem hl, ih hls,
      List.map_cons, List.cons_append]
    rfl

/-- The last line has no newline. -/
theorem filter_lines_of_notMem {last : Str} (h : '\n' ∉ last) :
    (Str.lines last).filter isIdentity = [last].filter isIdentity := by
  by_cases hnil : last = []
  · rw [hnil]
    rfl
  · have hnone : ∀ c ∈ last, (c == '\n') = false :=
      fun c hc => beq_false_of_ne fun hnewline => h (hnewline ▸ hc)
    have hstrip : Str.stripNewline last = last := if_neg fun hlast => h (List.mem_of_getLast? hlast)
    rw [Str.lines, splitInclusive_of_forall hnone hnil, List.map_singleton, hstrip]

theorem filter_lines_replicate (n : ℕ) :
    (Str.lines (List.replicate n '\n')).filter isIdentity = [] := by
  induction n with
  | zero => rfl
  | succ n ih =>
    have hline := @Str.lines_cons_of_notMem [] List.not_mem_nil (List.replicate n '\n')
    rw [List.nil_append] at hline
    rw [List.replicate_succ, hline, List.filter_cons]
    exact ih

/-- The identities before and after: the newlines at the end are cut off, so that the last line
    may keep its CR or lose it. -/
theorem filter_lines_activated (properties : Str) :
    ∃ before last l, (l = last ∨ l = stripCarriageReturn last) ∧
    (Str.lines properties).filter isIdentity = before ++ [l].filter isIdentity ∧
    (Str.lines (activated properties)).filter isIdentity =
      before ++ [stripCarriageReturn last].filter isIdentity := by
  obtain ⟨ls, last, hsplit, hls, hlast⟩ := Str.exists_unlines (properties.rdropWhile (· == '\n'))
  have hall : ∀ l ∈ ls ++ [last], '\n' ∉ l :=
    List.forall_mem_append.2 ⟨hls, List.forall_mem_singleton.2 hlast⟩
  have hmore :
      ∀ rest, Str.unlines ls ++ last ++ '\n' :: rest = Str.unlines (ls ++ [last]) ++ rest :=
    fun rest => by
    rw [Str.unlines_append, Str.unlines_cons, List.append_assoc,
      List.append_assoc, List.append_assoc]
    rfl
  have hactivated : (Str.lines (activated properties)).filter isIdentity =
      (ls.map stripCarriageReturn).filter isIdentity ++
        [stripCarriageReturn last].filter isIdentity := by
    have hend : (Str.lines "vpnhideControl=2\n".toList).filter isIdentity = [] := by decide
    rw [activated, hsplit, show "\nvpnhideControl=2\n".toList = '\n' :: "vpnhideControl=2\n".toList
      from rfl, hmore,
      lines_unlines_append hall, List.filter_append, hend, List.append_nil,
      List.map_append, List.filter_append]
    rfl
  -- The newlines at the end are a run of them, perhaps an empty one.
  obtain ⟨n, hn⟩ :
      ∃ n, properties = properties.rdropWhile (· == '\n') ++ List.replicate n '\n' := by
    refine ⟨(properties.rtakeWhile (· == '\n')).length, ?_⟩
    have hnewlines :
        properties.rtakeWhile (· == '\n') =
          List.replicate (properties.rtakeWhile (· == '\n')).length '\n' :=
      List.eq_replicate_of_mem fun c hc => by simpa using List.mem_rtakeWhile_imp hc
    rw [← hnewlines, List.rdropWhile_append_rtakeWhile]
  rw [hsplit] at hn
  -- Without any, the last line ends with the text and is read as it stands.
  cases n with
  | zero =>
    refine ⟨_, last, last, .inl rfl, ?_, hactivated⟩
    rw [hn, List.replicate_zero, List.append_nil, lines_unlines_append hls, List.filter_append,
      filter_lines_of_notMem hlast]
  | succ n =>
    refine ⟨_, last, _, .inr rfl, ?_, hactivated⟩
    rw [hn, List.replicate_succ, hmore, lines_unlines_append hall, List.filter_append,
      filter_lines_replicate, List.append_nil, List.map_append, List.filter_append]
    rfl

/-- The line that activates the module says nothing of its identity. -/
theorem checkIdentity_activated (h : "id=vpnhide_core".toList ∈ Str.lines properties) :
    checkIdentity (activated properties) = .ok () ↔
      (Str.lines properties).countP isIdentity = 1 := by
  obtain ⟨before, last, l, hl, hbefore, hafter⟩ := filter_lines_activated properties
  have hsame : isIdentity (stripCarriageReturn last) = isIdentity l := by
    obtain rfl | rfl := hl
    · exact isIdentity_stripCarriageReturn l
    · rfl
  have hlength : ((Str.lines (activated properties)).filter isIdentity).length =
      (Str.lines properties).countP isIdentity := by
    rw [List.countP_eq_length_filter, hbefore, hafter, List.length_append, List.length_append,
      ← List.countP_eq_length_filter, ← List.countP_eq_length_filter, List.countP_singleton,
      List.countP_singleton, hsame]
  -- The one line is that of the core, which has no CR to lose.
  have hcore : "id=vpnhide_core".toList ∈ (Str.lines (activated properties)).filter isIdentity := by
    have hmem : "id=vpnhide_core".toList ∈ (Str.lines properties).filter isIdentity :=
      List.mem_filter.2 ⟨h, by decide⟩
    rw [hbefore, List.mem_append] at hmem
    rw [hafter, List.mem_append]
    refine hmem.imp_right fun hmem => ?_
    obtain ⟨hmem, hid⟩ := List.mem_filter.1 hmem
    have hkept : stripCarriageReturn last = "id=vpnhide_core".toList := by
      obtain rfl | rfl := hl
      · rw [← List.mem_singleton.1 hmem]
        decide
      · exact (List.mem_singleton.1 hmem).symm
    rw [hkept]
    exact List.mem_filter.2 ⟨List.mem_cons_self, hid⟩
  rw [checkIdentity, ite_error_eq_ok_iff, and_iff_left rfl, ne_eq, not_not, ← hlength]
  constructor
  · intro hfilter
    rw [hfilter]
    rfl
  · intro hone
    obtain ⟨l, hl⟩ := List.length_eq_one_iff.1 hone
    rw [hl, List.mem_singleton] at hcore
    rw [hl, hcore]

end VpnHide.Artifact

import Mathlib.Data.List.Infix
import VpnHide.Lib.Split

/-!
# Paths

A path is a list in which a separator stands between its *components*. Separators may be
repeated; a path that is `joined` from components has one before each of them, and is read
back (`components_joined`).

*Lexically*, one component stands for no step, and one for a step back, which leads nowhere
from the root. What is left of these is the normal form of a path (`normalForm`), which is
its own (`normalForm_normalForm`).
-/

namespace VpnHide.Lib

variable {α : Type*}

/-- The path with the given components. -/
def joined (sep : α) (cs : List (List α)) : List α := cs.flatMap (sep :: ·)

theorem joined_append (sep : α) (cs ds : List (List α)) :
    joined sep (cs ++ ds) = joined sep cs ++ joined sep ds :=
  List.flatMap_append

theorem joined_singleton (sep : α) (c : List α) : joined sep [c] = sep :: c :=
  List.flatMap_singleton _ _

variable [DecidableEq α]

/-- The components of a path. -/
def components (sep : α) (p : List α) : List (List α) := fields (· == sep) p

/-- What can stand between two separators. -/
def IsComponent (sep : α) (c : List α) : Prop := c ≠ [] ∧ sep ∉ c

instance (sep : α) (c : List α) : Decidable (IsComponent sep c) :=
  inferInstanceAs (Decidable (_ ∧ _))

/-- A component after the others: the empty step, a step back or a step on. -/
def lexStep (dot : α) (stack : List (List α)) (c : List α) : List (List α) :=
  if c = [dot] then stack else if c = [dot, dot] then stack.dropLast else stack ++ [c]

/-- The components that are open after all of the given ones. -/
def lexical (dot : α) (cs : List (List α)) : List (List α) := cs.foldl (lexStep dot) []

/-- A step on. -/
def IsPlain (dot : α) (c : List α) : Prop := c ≠ [dot] ∧ c ≠ [dot, dot]

instance (dot : α) (c : List α) : Decidable (IsPlain dot c) := inferInstanceAs (Decidable (_ ∧ _))

/-- The path to what components lead to: at the root, the separator alone. -/
def rendered (sep : α) (cs : List (List α)) : List α := if cs = [] then [sep] else joined sep cs

/-- The normal form of a path. -/
def normalForm (sep dot : α) (p : List α) : List α := rendered sep (lexical dot (components sep p))

variable {sep dot : α} {p c : List α} {cs : List (List α)}

/-! ## Components -/

theorem components_cons (p : List α) : components sep (sep :: p) = components sep p :=
  fields_cons_of_pos (q := (· == sep)) (beq_self_eq_true sep) p

/-- The components of a path that is put together. -/
theorem components_append_cons (p q : List α) :
    components sep (p ++ sep :: q) = components sep p ++ components sep q :=
  fields_append_cons_of_pos (q := (· == sep)) (beq_self_eq_true sep) p q

/-- Leading separators do not matter. -/
theorem components_replicate_append (n : ℕ) (p : List α) :
    components sep (List.replicate n sep ++ p) = components sep p := by
  induction n with
  | zero => rfl
  | succ n ih => rw [List.replicate_succ, List.cons_append, components_cons, ih]

theorem IsComponent.forall_mem (h : IsComponent sep c) : ∀ a ∈ c, (a == sep) = false :=
  fun _ ha => beq_false_of_ne fun hsep => h.2 (hsep ▸ ha)

/-- The components of a path that is joined. -/
theorem components_joined (h : ∀ c ∈ cs, IsComponent sep c) :
    components sep (joined sep cs) = cs := by
  cases cs with
  | nil => rfl
  | cons c cs =>
    have hc := h c List.mem_cons_self
    rw [joined, List.flatMap_cons, List.cons_append, components_cons]
    exact fields_words (q := (· == sep)) (beq_self_eq_true sep) hc.forall_mem hc.1
      fun v hv => ⟨(h v (List.mem_cons_of_mem c hv)).1,
        (h v (List.mem_cons_of_mem c hv)).forall_mem⟩

/-- What follows the first component is shorter. -/
theorem length_rest_lt (h : p.dropWhile (· == sep) ≠ []) :
    ((p.dropWhile (· == sep)).dropWhile fun a => !(a == sep)).length < p.length := by
  obtain ⟨a, q, hq⟩ := List.exists_cons_of_ne_nil h
  have ha : (a == sep) = false := by
    have := List.head?_dropWhile_not (· == sep) p
    rw [hq] at this
    simpa using this
  have hle := (List.dropWhile_suffix (p := (· == sep)) (l := p)).length_le
  have hle' := (List.dropWhile_suffix (p := fun a => !(a == sep)) (l := q)).length_le
  rw [hq, List.dropWhile_cons, if_pos (by simp [ha])]
  rw [hq, List.length_cons] at hle
  omega

variable (sep) in
/-- The components from a place on: none, or the first one and the others. -/
theorem components_induction {motive : List α → Prop}
    (none : ∀ p : List α, p.dropWhile (· == sep) = [] → motive p)
    (some : ∀ p : List α, p.dropWhile (· == sep) ≠ [] →
      motive ((p.dropWhile (· == sep)).dropWhile (fun a => !(a == sep))) → motive p)
    (p : List α) : motive p := by
  induction h : p.length using Nat.strong_induction_on generalizing p with
  | _ n ih =>
    subst h
    by_cases hp : p.dropWhile (· == sep) = []
    · exact none p hp
    · exact some p hp (ih _ (length_rest_lt hp) _ rfl)

/-- What a component is. -/
theorem isComponent_of_mem (h : c ∈ components sep p) : IsComponent sep c := by
  induction p using components_induction sep with
  | none p hp =>
    rw [components, fields_eq_nil hp] at h
    cases h
  | some p hp ih =>
    rw [components, fields_eq_cons hp] at h
    obtain rfl | h := List.mem_cons.1 h
    · refine ⟨fun hnil => ?_, fun hmem => ?_⟩
      · obtain ⟨a, q, hq⟩ := List.exists_cons_of_ne_nil hp
        have ha := List.head?_dropWhile_not (· == sep) p
        rw [hq] at ha hnil
        rw [List.takeWhile_cons, if_pos (by simpa using ha)] at hnil
        cases hnil
      · simpa using List.mem_takeWhile_imp hmem
    · exact ih h

/-- The first component of a path, and where the others are. -/
theorem components_of_ne_nil (h : p.dropWhile (· == sep) ≠ []) :
    components sep p = (p.dropWhile (· == sep)).takeWhile (fun a => !(a == sep)) ::
      components sep ((p.dropWhile (· == sep)).dropWhile fun a => !(a == sep)) :=
  fields_eq_cons h

/-- Joining the components of a path does not make it longer, but for a first separator. -/
theorem length_joined_components_le (sep : α) (p : List α) :
    (joined sep (components sep p)).length ≤ p.length + 1 ∧
      (p = [] ∨ p.head? = some sep → (joined sep (components sep p)).length ≤ p.length) := by
  induction p using components_induction sep with
  | none p hp =>
    rw [components, fields_eq_nil hp]
    exact ⟨Nat.zero_le _, fun _ => Nat.zero_le _⟩
  | some p hp ih =>
    rw [components_of_ne_nil hp]
    set m := p.dropWhile (· == sep) with hm
    -- Behind the first component there is a separator or nothing.
    have hrest : m.dropWhile (fun a => !(a == sep)) = [] ∨
        (m.dropWhile fun a => !(a == sep)).head? = some sep := by
      cases hd : m.dropWhile fun a => !(a == sep) with
      | nil => exact .inl rfl
      | cons a q =>
        have := List.head?_dropWhile_not (fun a => !(a == sep)) m
        rw [hd] at this
        exact .inr (by simpa using this)
    have hlen :=
      congrArg List.length (List.takeWhile_append_dropWhile (p := fun a => !(a == sep)) (l := m))
    have hle := (List.dropWhile_suffix (p := (· == sep)) (l := p)).length_le
    have hstart : p = [] ∨ p.head? = some sep → m.length + 1 ≤ p.length := by
      rintro (rfl | hhead)
      · exact absurd rfl hp
      · obtain ⟨q, rfl⟩ : ∃ q, p = sep :: q := by
          cases p with
          | nil => cases hhead
          | cons a q => exact ⟨q, by rw [Option.some.inj hhead]⟩
        have hskip : m = q.dropWhile (· == sep) := by
          rw [hm, List.dropWhile_cons, if_pos (beq_self_eq_true sep)]
        rw [hskip, List.length_cons]
        exact Nat.succ_le_succ (List.dropWhile_suffix (p := (· == sep)) (l := q)).length_le
    have htail := ih.2 hrest
    rw [← hm] at hle
    rw [List.length_append] at hlen
    rw [joined, List.flatMap_cons, List.cons_append, List.length_cons, List.length_append, ← joined]
    refine ⟨by omega, fun h => ?_⟩
    have := hstart h
    omega

/-! ## Normal forms -/

/-- A plain component goes onto the stack. -/
theorem lexStep_of_isPlain (h : IsPlain dot c) (stack : List (List α)) :
    lexStep dot stack c = stack ++ [c] := by
  rw [lexStep, if_neg h.1, if_neg h.2]

theorem lexical_concat (dot : α) (cs : List (List α)) (c : List α) :
    lexical dot (cs ++ [c]) = lexStep dot (lexical dot cs) c := by
  rw [lexical, List.foldl_append]
  rfl

/-- Steps on are all kept. -/
theorem lexical_of_isPlain (h : ∀ c ∈ cs, IsPlain dot c) : lexical dot cs = cs := by
  induction cs using List.reverseRecOn with
  | nil => rfl
  | append_singleton cs c ih =>
    rw [lexical_concat, ih fun d hd => h d (List.mem_append_left _ hd),
      lexStep_of_isPlain (h c (List.mem_append_right _ (List.mem_singleton_self c)))]

/-- What is open is a step on of the path. -/
theorem mem_of_mem_lexical (h : c ∈ lexical dot cs) : c ∈ cs ∧ IsPlain dot c := by
  induction cs using List.reverseRecOn with
  | nil => cases h
  | append_singleton cs d ih =>
    have hold : c ∈ lexical dot cs → c ∈ cs ++ [d] ∧ IsPlain dot c :=
      fun hc => ⟨List.mem_append_left _ (ih hc).1, (ih hc).2⟩
    rw [lexical_concat, lexStep] at h
    split_ifs at h with hdot hback
    · exact hold h
    · exact hold (List.mem_of_mem_dropLast h)
    · obtain h | h := List.mem_append.1 h
      · exact hold h
      · obtain rfl := List.mem_singleton.1 h
        exact ⟨List.mem_append_right _ h, hdot, hback⟩

/-- The normal form has no more components. -/
theorem length_lexical_le (dot : α) (cs : List (List α)) : (lexical dot cs).length ≤ cs.length := by
  induction cs using List.reverseRecOn with
  | nil => exact le_rfl
  | append_singleton cs c ih =>
    rw [lexical_concat, lexStep, List.length_append, List.length_singleton]
    split_ifs
    · omega
    · rw [List.length_dropLast]
      omega
    · rw [List.length_append, List.length_singleton]
      omega

/-- What is open is no longer than the path. -/
theorem length_joined_lexical_le (sep dot : α) (cs : List (List α)) :
    (joined sep (lexical dot cs)).length ≤ (joined sep cs).length := by
  induction cs using List.reverseRecOn with
  | nil => exact le_rfl
  | append_singleton cs c ih =>
    have hback :
        (joined sep (lexical dot cs).dropLast).length ≤ (joined sep (lexical dot cs)).length :=
      (List.IsPrefix.flatMap (List.dropLast_prefix _) _).length_le
    rw [lexical_concat, joined_append, List.length_append, lexStep]
    split_ifs
    · omega
    · omega
    · rw [joined_append, List.length_append]
      omega

/-- The components of a path without steps back. -/
theorem components_rendered (h : ∀ c ∈ cs, IsComponent sep c) :
    components sep (rendered sep cs) = cs := by
  rw [rendered]
  split_ifs with hcs
  · rw [hcs, components_cons]
    rfl
  · exact components_joined h

/-- The components of a normal form are what is open after the path. -/
theorem components_normalForm (sep dot : α) (p : List α) :
    components sep (normalForm sep dot p) = lexical dot (components sep p) :=
  components_rendered fun _ hc => isComponent_of_mem (mem_of_mem_lexical hc).1

/-- A normal form is its own. -/
theorem normalForm_normalForm (sep dot : α) (p : List α) :
    normalForm sep dot (normalForm sep dot p) = normalForm sep dot p := by
  rw [normalForm, components_normalForm, lexical_of_isPlain fun _ hc => (mem_of_mem_lexical hc).2]
  rfl

/-- A path of steps on is its own normal form. -/
theorem normalForm_joined (hne : cs ≠ []) (h : ∀ c ∈ cs, IsComponent sep c ∧ IsPlain dot c) :
    normalForm sep dot (joined sep cs) = joined sep cs := by
  rw [normalForm, components_joined fun c hc => (h c hc).1,
    lexical_of_isPlain fun c hc => (h c hc).2, rendered, if_neg hne]

end VpnHide.Lib

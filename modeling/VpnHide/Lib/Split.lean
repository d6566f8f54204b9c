import Mathlib.Data.List.Basic
import Mathlib.Data.List.TakeWhile

/-!
# Words and lines

* `fields q l`: the *words* of `l`, its maximal runs of elements that are not
  separators (`q`). Reading them one by one (`fields_eq_nil`, `fields_eq_cons`)
  is skipping separators, then taking a word; a line written word by word is read
  back (`fields_words`).
* `splitInclusive q l`: the *lines* of `l`, each with its terminator, which the
  last line may lack. A text written line by line is read back
  (`splitInclusive_append`).
-/

namespace VpnHide.Lib

variable {α : Type*} (q : α → Bool)

-- What holds of the elements of a list is decided along the list. The instances for all
-- characters and for finite types would come first otherwise.
instance (priority := 2000) decidableForallMem (p : α → Prop) [DecidablePred p] (l : List α) :
    Decidable (∀ a ∈ l, p a) := List.decidableBAll p l

/-! ## Words -/

/-- The words of `l`: its pieces between separators, less the empty ones. -/
def fields (l : List α) : List (List α) := (l.splitOnP q).filter fun w => !w.isEmpty

@[simp] theorem fields_nil : fields q [] = [] := rfl

variable {q}

/-- A separator is skipped. -/
theorem fields_cons_of_pos {a : α} (ha : q a = true) (l : List α) :
    fields q (a :: l) = fields q l := by
  simp [fields, List.splitOnP_cons_eq_if_modifyHead, ha]

/-- A word ends at the separator after it. -/
theorem fields_append_cons {w : List α} (hw : ∀ a ∈ w, q a = false) (hne : w ≠ []) {s : α}
    (hs : q s = true) (l : List α) : fields q (w ++ s :: l) = w :: fields q l := by
  rw [fields, List.splitOnP_append_cons_of_forall_mem hw s hs, List.filter_cons,
    if_pos (by simp [hne])]
  rfl

/-- The last word ends with the line. -/
theorem fields_of_forall {w : List α} (hw : ∀ a ∈ w, q a = false) (hne : w ≠ []) :
    fields q w = [w] := by
  simp [fields, List.splitOnP_eq_singleton hw, hne]

theorem fields_dropWhile (l : List α) : fields q (l.dropWhile q) = fields q l := by
  induction l with
  | nil => rfl
  | cons a l ih =>
    rw [List.dropWhile_cons]
    split
    · rw [ih, fields_cons_of_pos ‹_›]
    · rfl

/-- No word is left when only separators are. -/
theorem fields_eq_nil {l : List α} (h : l.dropWhile q = []) : fields q l = [] := by
  rw [← fields_dropWhile, h, fields_nil]

/-- The next word: past the separators, up to the next one. -/
theorem fields_eq_cons {l : List α} (h : l.dropWhile q ≠ []) :
    fields q l = (l.dropWhile q).takeWhile (fun a => !q a) ::
      fields q ((l.dropWhile q).dropWhile fun a => !q a) := by
  rw [← fields_dropWhile]
  generalize hm : l.dropWhile q = m at h
  have hhead : ∀ a ∈ m.head?, q a = false := by
    intro a ha
    have := List.head?_dropWhile_not q l
    simp_all
  have hw : ∀ a ∈ m.takeWhile (fun a => !q a), q a = false := fun a ha => by
    simpa using List.mem_takeWhile_imp ha
  have hne : m.takeWhile (fun a => !q a) ≠ [] := by
    rcases m with _ | ⟨a, m⟩
    · exact absurd rfl h
    · simp [hhead a (by simp)]
  conv_lhs => rw [← List.takeWhile_append_dropWhile (p := fun a => !q a) (l := m)]
  rcases hd : m.dropWhile (fun a => !q a) with _ | ⟨s, rest⟩
  · rw [List.append_nil, fields_of_forall hw hne, fields_nil]
  · have hs : q s = true := by
      have := List.head?_dropWhile_not (fun a => !q a) m
      simpa [hd] using this
    rw [fields_append_cons hw hne hs, fields_cons_of_pos hs]

/-- A word that starts a line is its first field. -/
theorem fields_words {s : α} (hs : q s = true) {w : List α} (hw : ∀ a ∈ w, q a = false)
    (hne : w ≠ []) {ws : List (List α)} (hws : ∀ v ∈ ws, v ≠ [] ∧ ∀ a ∈ v, q a = false) :
    fields q (w ++ ws.flatMap (s :: ·)) = w :: ws := by
  induction ws generalizing w with
  | nil => rw [List.flatMap_nil, List.append_nil, fields_of_forall hw hne]
  | cons v ws ih =>
    have hv := hws v List.mem_cons_self
    rw [List.flatMap_cons, List.cons_append, fields_append_cons hw hne hs,
      ih hv.2 hv.1 fun u hu => hws u (List.mem_cons_of_mem _ hu)]

/-- The first word of a prefix of a line is cut from its first word. -/
theorem head?_fields_of_prefix {l m : List α} (h : l <+: m) {t : List α}
    (ht : (fields q l).head? = some t) : ∃ u, (fields q m).head? = some u ∧ t <+: u := by
  obtain ⟨r, rfl⟩ := h
  by_cases hl : l.dropWhile q = []
  · rw [fields_eq_nil hl] at ht
    cases ht
  · rw [fields_eq_cons hl, List.head?_cons, Option.some.injEq] at ht
    have hd : (l ++ r).dropWhile q = l.dropWhile q ++ r := by
      rw [List.dropWhile_append, if_neg (by simpa using hl)]
    refine ⟨_, by rw [fields_eq_cons (by simp [hd, hl]), List.head?_cons], ?_⟩
    rw [hd, ← ht, List.takeWhile_append]
    split_ifs with hlen
    · rw [(List.takeWhile_prefix _).eq_of_length hlen]
      exact List.prefix_append _ _
    · exact List.prefix_rfl

/-- A cut leaves whole parts, and the beginning of one. -/
theorem splitOnP_of_prefix {l m : List α} (h : l <+: m) :
    ∃ kept cut part rest, l.splitOnP q = kept ++ [cut] ∧ m.splitOnP q = kept ++ part :: rest ∧
      cut <+: part := by
  induction l generalizing m with
  | nil =>
    obtain ⟨part, rest, hm⟩ := List.exists_cons_of_ne_nil (List.splitOnP_ne_nil q m)
    exact ⟨[], [], part, rest, rfl, hm, List.nil_prefix⟩
  | cons a l ih =>
    obtain ⟨t, rfl⟩ := h
    obtain ⟨kept, cut, part, rest, hl, hm, hcut⟩ := ih (List.prefix_append l t)
    rw [List.cons_append, List.splitOnP_cons_eq_if_modifyHead,
      List.splitOnP_cons_eq_if_modifyHead, hl, hm]
    split_ifs
    · exact ⟨[] :: kept, cut, part, rest, rfl, rfl, hcut⟩
    · cases kept with
      | nil => exact ⟨[], a :: cut, a :: part, rest, rfl, rfl, (List.prefix_cons_inj a).2 hcut⟩
      | cons k ks => exact ⟨(a :: k) :: ks, cut, part, rest, rfl, rfl, hcut⟩

/-- The words before a separator, and those after it. -/
theorem fields_append_cons_of_pos {a : α} (ha : q a = true) (l m : List α) :
    fields q (l ++ a :: m) = fields q l ++ fields q m := by
  rw [fields, List.splitOnP_append_cons l m ha, List.filter_append]
  rfl

/-- A separator at the end is skipped. -/
theorem fields_concat_of_pos {a : α} (ha : q a = true) (l : List α) :
    fields q (l ++ [a]) = fields q l := by
  rw [fields_append_cons_of_pos ha, fields_nil, List.append_nil]

/-- An element that is no separator is one of a word. -/
theorem exists_mem_fields {a : α} {l : List α} (ha : a ∈ l) (hq : q a = false) :
    ∃ w ∈ fields q l, a ∈ w := by
  have hpart : ∃ w ∈ l.splitOnP q, a ∈ w := by
    induction l with
    | nil => exact absurd ha List.not_mem_nil
    | cons b l ih =>
      rw [List.splitOnP_cons_eq_if_modifyHead]
      obtain ⟨v, vs, hsplit⟩ := List.exists_cons_of_ne_nil (List.splitOnP_ne_nil q l)
      rcases List.mem_cons.1 ha with rfl | hl
      · rw [if_neg (by simp [hq]), hsplit]
        exact ⟨a :: v, List.mem_cons_self, List.mem_cons_self⟩
      · obtain ⟨w, hw, haw⟩ := ih hl
        split_ifs
        · exact ⟨w, List.mem_cons_of_mem _ hw, haw⟩
        · rw [hsplit] at hw ⊢
          rcases List.mem_cons.1 hw with rfl | hw
          · exact ⟨b :: w, List.mem_cons_self, List.mem_cons_of_mem _ haw⟩
          · exact ⟨w, List.mem_cons_of_mem _ hw, haw⟩
  obtain ⟨w, hw, haw⟩ := hpart
  exact ⟨w, List.mem_filter.2 ⟨hw, by simp [List.ne_nil_of_mem haw]⟩, haw⟩

/-- The elements of a word are those of the line. -/
theorem mem_of_mem_fields {a : α} {l w : List α} (hw : w ∈ fields q l) (ha : a ∈ w) : a ∈ l := by
  have hpart : ∀ w ∈ l.splitOnP q, ∀ a ∈ w, a ∈ l := by
    clear hw ha
    induction l with
    | nil =>
      rintro w hw a ha
      rw [List.mem_singleton.1 hw] at ha
      exact ha
    | cons b l ih =>
      intro w hw a ha
      rw [List.splitOnP_cons_eq_if_modifyHead] at hw
      obtain ⟨v, vs, hsplit⟩ := List.exists_cons_of_ne_nil (List.splitOnP_ne_nil q l)
      rw [hsplit] at hw ih
      split_ifs at hw
      · rcases List.mem_cons.1 hw with rfl | hw
        · exact absurd ha List.not_mem_nil
        · exact List.mem_cons_of_mem _ (ih w hw a ha)
      · rcases List.mem_cons.1 hw with rfl | hw
        · rcases List.mem_cons.1 ha with rfl | ha
          · exact List.mem_cons_self
          · exact List.mem_cons_of_mem _ (ih v List.mem_cons_self a ha)
        · exact List.mem_cons_of_mem _ (ih w (List.mem_cons_of_mem _ hw) a ha)
  exact hpart w (List.mem_of_mem_filter hw) a ha

/-- The words do not depend on how the elements are written. -/
theorem fields_map {β : Type*} {f : β → α} {p : β → Bool} {l : List β}
    (h : ∀ b ∈ l, q (f b) = p b) :
    fields q (l.map f) = (fields p l).map (List.map f) := by
  have hsplit : (l.map f).splitOnP q = (l.splitOnP p).map (List.map f) := by
    induction l with
    | nil => rfl
    | cons b l ih =>
      rw [List.map_cons, List.splitOnP_cons_eq_if_modifyHead, List.splitOnP_cons_eq_if_modifyHead,
        ih fun c hc => h c (List.mem_cons_of_mem _ hc), h b List.mem_cons_self]
      split_ifs
      · rfl
      · cases l.splitOnP p <;> rfl
  rw [fields, fields, hsplit, List.filter_map]
  congr 2
  funext w
  simp

/-! ## Lines -/

variable (q)

/-- The lines of `l`, each with its terminator, which the last one may lack. -/
def splitInclusive : List α → List (List α)
  | [] => []
  | a :: l =>
    if q a then [a] :: splitInclusive l
    else match splitInclusive l with
      | [] => [[a]]
      | w :: ws => (a :: w) :: ws

variable {q}

/-- A line ends at its terminator. -/
theorem splitInclusive_append {w : List α} (hw : ∀ a ∈ w, q a = false) {s : α} (hs : q s = true)
    (l : List α) : splitInclusive q (w ++ s :: l) = (w ++ [s]) :: splitInclusive q l := by
  induction w with
  | nil => rw [List.nil_append, splitInclusive, if_pos hs]; rfl
  | cons a w ih =>
    rw [List.cons_append, splitInclusive, if_neg (by simp [hw a]),
      ih fun b hb => hw b (List.mem_cons_of_mem _ hb)]
    rfl

/-- The last line may lack its terminator. -/
theorem splitInclusive_of_forall {w : List α} (hw : ∀ a ∈ w, q a = false) (hne : w ≠ []) :
    splitInclusive q w = [w] := by
  induction w with
  | nil => exact absurd rfl hne
  | cons a w ih =>
    rw [splitInclusive, if_neg (by simp [hw a])]
    rcases w with _ | ⟨b, w⟩
    · rfl
    · rw [ih (fun c hc => hw c (List.mem_cons_of_mem _ hc)) (List.cons_ne_nil _ _)]

end VpnHide.Lib

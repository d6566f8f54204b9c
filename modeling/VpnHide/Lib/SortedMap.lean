import Mathlib.Data.List.Sort
import Mathlib.Data.List.Perm.Basic
import Mathlib.Order.Lattice

/-!
# Sorted maps

Finite maps kept as lists of entries, strictly sorted by `key`. Writing an entry
replaces the one with its key, or inserts it (`upsert`): the list stays sorted
(`sorted_upsert`), and looking a key up finds what was written there last
(`find?_upsert`, `find?_foldl_upsert`). Writing entries with distinct keys sorts
them (`foldl_upsert_eq`).

In memory, such a list fills the first cells of an array `a : ℕ → ε`
(`cells a n`), and a key is found by *bisection* (`bisect`): the loop
`while (lo <= hi)` over signed bounds either hits the key or ends at the place of
its insertion (`bisect_spec`), where the cells from there on are moved up
(`shiftUp`, `cells_shiftUp`).
-/

namespace VpnHide.Lib

variable {ε κ : Type*} [LinearOrder κ] (key : ε → κ)

/-! ## Writing entries -/

/-- Writing the entry `e`: over the entry with its key, or at its place. -/
def upsert (e : ε) : List ε → List ε
  | [] => [e]
  | x :: l =>
    if key e < key x then e :: x :: l else if key x < key e then x :: upsert e l else e :: l

/-- Strictly sorted by key. -/
abbrev SortedBy (l : List ε) : Prop := l.Pairwise fun x y => key x < key y

variable {key} {e : ε} {l : List ε}

/-- An entry was put, or was there before. -/
theorem mem_upsert {x : ε} (h : x ∈ upsert key e l) : x = e ∨ x ∈ l := by
  induction l with
  | nil => simpa [upsert] using h
  | cons y l ih =>
    rw [upsert] at h
    split_ifs at h
    · simpa using h
    · rcases List.mem_cons.1 h with rfl | h
      · simp
      · exact (ih h).imp_right (List.mem_cons_of_mem _)
    · exact (List.mem_cons.1 h).imp_right (List.mem_cons_of_mem _)

/-- Putting an entry keeps the order. -/
theorem sorted_upsert (h : SortedBy key l) : SortedBy key (upsert key e l) := by
  induction l with
  | nil => simp [upsert, SortedBy]
  | cons y l ih =>
    rw [SortedBy, List.pairwise_cons] at h
    rw [upsert]
    split_ifs with h₁ h₂
    -- The entry goes before `y`, further on, or in its place.
    · exact List.pairwise_cons.2 ⟨fun x hx => (List.mem_cons.1 hx).elim (fun hx => hx ▸ h₁)
        fun hx => h₁.trans (h.1 x hx), List.pairwise_cons.2 h⟩
    · exact List.pairwise_cons.2
        ⟨fun x hx => (mem_upsert hx).elim (fun hx => hx ▸ h₂) (h.1 x), ih h.2⟩
    · have he : key e = key y := le_antisymm (not_lt.1 h₂) (not_lt.1 h₁)
      exact List.pairwise_cons.2 ⟨fun x hx => he ▸ h.1 x hx, h.2⟩

/-- Among the entries before its place, one is written past. -/
theorem upsert_append (pre : List ε) (post : List ε) (h : ∀ x ∈ pre, key x < key e) :
    upsert key e (pre ++ post) = pre ++ upsert key e post := by
  induction pre with
  | nil => rfl
  | cons x pre ih =>
    have hx := h x List.mem_cons_self
    rw [List.cons_append, upsert, if_neg (not_lt.2 hx.le), if_pos hx,
      ih fun y hy => h y (List.mem_cons_of_mem _ hy), List.cons_append]

/-- A new entry is inserted. -/
theorem upsert_of_forall_lt (h : ∀ x ∈ l, key e < key x) : upsert key e l = e :: l := by
  cases l with
  | nil => rfl
  | cons x l => rw [upsert, if_pos (h x List.mem_cons_self)]

/-- An entry with the same key is replaced. -/
theorem upsert_cons_of_eq {x : ε} (h : key x = key e) : upsert key e (x :: l) = e :: l := by
  rw [upsert, if_neg (by simp [h]), if_neg (by simp [h])]

/-- Writing at a hit replaces the entry there. -/
theorem upsert_eq_set (h : SortedBy key l) {i : ℕ} (hi : i < l.length) (he : key l[i] = key e) :
    upsert key e l = l.set i e := by
  have hpre : ∀ x ∈ l.take i, key x < key e := by
    intro x hx
    obtain ⟨j, hj, rfl⟩ := List.mem_iff_getElem.1 hx
    rw [List.length_take] at hj
    rw [List.getElem_take, ← he]
    exact List.pairwise_iff_getElem.1 h j i (by omega) hi (by omega)
  conv_lhs => rw [← List.take_append_drop i l, List.drop_eq_getElem_cons hi]
  rw [upsert_append _ _ hpre, upsert_cons_of_eq he, List.set_eq_take_append_cons_drop, if_pos hi]

/-- Writing at a miss inserts the entry there. -/
theorem upsert_eq_insert {i : ℕ} (hlt : ∀ x ∈ l.take i, key x < key e)
    (hgt : ∀ x ∈ l.drop i, key e < key x) : upsert key e l = l.take i ++ e :: l.drop i := by
  conv_lhs => rw [← List.take_append_drop i l]
  rw [upsert_append _ _ hlt, upsert_of_forall_lt hgt]

/-- Writing an entry with a new key adds it. -/
theorem perm_upsert (h : ∀ x ∈ l, key x ≠ key e) : (upsert key e l).Perm (e :: l) := by
  induction l with
  | nil => exact .refl _
  | cons x l ih =>
    rw [upsert]
    split_ifs with h₁ h₂
    · exact .refl _
    · exact ((ih fun y hy => h y (List.mem_cons_of_mem _ hy)).cons x).trans (.swap e x l)
    · exact absurd (le_antisymm (not_lt.1 h₁) (not_lt.1 h₂)) (h x List.mem_cons_self)

theorem length_le_length_upsert : l.length ≤ (upsert key e l).length := by
  induction l with
  | nil => simp
  | cons x l ih =>
    rw [upsert]
    split_ifs <;> simp only [List.length_cons] <;> omega

/-- The entry of a key is the last one written. -/
theorem find?_upsert (k : κ) :
    (upsert key e l).find? (fun x => key x = k) =
      if key e = k then some e else l.find? fun x => key x = k := by
  induction l with
  | nil => by_cases he : key e = k <;> simp [upsert, he]
  | cons x l ih =>
    rw [upsert]
    by_cases h₁ : key e < key x
    · rw [if_pos h₁]
      by_cases he : key e = k <;> simp [he]
    · rw [if_neg h₁]
      by_cases h₂ : key x < key e
      · rw [if_pos h₂, List.find?_cons, ih]
        by_cases hx : key x = k
        · simp [hx, (hx ▸ h₂).ne']
        · simp [hx]
      · have hxe : key x = key e := le_antisymm (not_lt.1 h₁) (not_lt.1 h₂)
        rw [if_neg h₂]
        by_cases he : key e = k <;> simp [hxe, he]

/-- Putting entries keeps the order. -/
theorem sorted_foldl_upsert (es : List ε) (h : SortedBy key l) :
    SortedBy key (es.foldl (fun l e => upsert key e l) l) := by
  induction es generalizing l with
  | nil => exact h
  | cons e es ih => exact ih (sorted_upsert h)

/-- After writing `es`, the entry of a key is the last one of `es` with it. -/
theorem find?_foldl_upsert (k : κ) (es : List ε) :
    (es.foldl (fun l e => upsert key e l) l).find? (fun x => key x = k) =
      (es.reverse.find? fun x => key x = k).or (l.find? fun x => key x = k) := by
  induction es generalizing l with
  | nil => simp
  | cons e es ih =>
    rw [List.foldl_cons, ih, find?_upsert k, List.reverse_cons, List.find?_append]
    cases es.reverse.find? fun x => key x = k with
    | some x => rfl
    | none => by_cases he : key e = k <;> simp [he]

/-- Writing entries with new, distinct keys adds them. -/
theorem perm_foldl_upsert (es : List ε) (h : ((es ++ l).map key).Nodup) :
    (es.foldl (fun l e => upsert key e l) l).Perm (es ++ l) := by
  induction es generalizing l with
  | nil => exact .refl _
  | cons e es ih =>
    rw [List.cons_append, List.map_cons, List.nodup_cons] at h
    have hp : (upsert key e l).Perm (e :: l) := perm_upsert fun x hx he => h.1
      (he ▸ List.mem_map_of_mem (List.mem_append_right _ hx))
    have hp' : (es ++ upsert key e l).Perm (e :: (es ++ l)) :=
      (hp.append_left es).trans List.perm_middle
    refine (ih ?_).trans hp'
    rw [(hp'.map key).nodup_iff, List.map_cons]
    exact List.nodup_cons.2 h

/-- Two lists sorted by key with the same entries are the same list. -/
theorem eq_of_perm_of_sortedBy {m : List ε} (hp : l.Perm m) (hl : SortedBy key l)
    (hm : SortedBy key m) : l = m :=
  hp.eq_of_pairwise (fun _ _ _ _ h₁ h₂ => absurd h₁ h₂.not_gt) hl hm

/-- Writing entries with distinct keys into the empty map sorts them. -/
theorem foldl_upsert_eq {es : List ε} (h : (es.map key).Nodup) {m : List ε} (hp : m.Perm es)
    (hm : SortedBy key m) : es.foldl (fun l e => upsert key e l) [] = m := by
  have hp' : (es.foldl (fun l e => upsert key e l) []).Perm (es ++ []) :=
    perm_foldl_upsert es (by simpa using h)
  rw [List.append_nil] at hp'
  exact eq_of_perm_of_sortedBy (hp'.trans hp.symm) (sorted_foldl_upsert es .nil) hm

/-- A key found at some index is the only one. -/
theorem find?_eq_some_getElem {k : κ} (h : SortedBy key l) {i : ℕ} (hi : i < l.length)
    (hk : key l[i] = k) : l.find? (fun x => key x = k) = some l[i] := by
  refine List.find?_eq_some_iff_getElem.2 ⟨by simpa using hk, i, hi, rfl, fun j hj => ?_⟩
  have hlt := List.pairwise_iff_getElem.1 h j i (hj.trans hi) hi hj
  simpa using (hk ▸ hlt).ne

/-! ## Bisection -/

/-- The outcome of a search: the index of the key, or of its insertion. -/
inductive Found where
  | hit (i : ℕ)
  | miss (i : ℕ)
  deriving DecidableEq

/-- `while (lo <= hi)` over signed bounds, halving them around `k`. -/
def bisect (a : ℕ → κ) (k : κ) (lo hi : ℤ) : Found :=
  if lo ≤ hi then
    let mid := lo + (hi - lo) / 2
    if a mid.toNat = k then .hit mid.toNat
    else if a mid.toNat < k then bisect a k (mid + 1) hi
    else bisect a k lo (mid - 1)
  else .miss lo.toNat
termination_by (hi + 1 - lo).toNat
decreasing_by all_goals omega

/-- What a search in the first `n` cells of `a` must answer. -/
def Found.Spec (a : ℕ → κ) (n : ℕ) (k : κ) : Found → Prop
  | .hit i => i < n ∧ a i = k
  | .miss i => i ≤ n ∧ (∀ j < i, a j < k) ∧ ∀ j, i ≤ j → j < n → k < a j

/-- Bisection narrows around the key: everything before `lo` is below it, and
    everything after `hi` above. -/
theorem bisect_spec_of_bounds {a : ℕ → κ} {n : ℕ} (ha : ∀ i j, i < j → j < n → a i < a j) (k : κ)
    {lo hi : ℤ} (h₀ : 0 ≤ lo) (h₁ : hi < n) (h₂ : lo ≤ hi + 1)
    (hlo : ∀ j : ℕ, (j : ℤ) < lo → a j < k) (hhi : ∀ j : ℕ, hi < j → j < n → k < a j) :
    (bisect a k lo hi).Spec a n k := by
  induction hm : (hi + 1 - lo).toNat using Nat.strong_induction_on generalizing lo hi with
  | _ m ih =>
    unfold bisect
    dsimp only
    split_ifs with hle heq hlt
    -- The key is in the middle, above it or below it; or the bounds have crossed, at its place.
    · exact ⟨by omega, heq⟩
    · refine ih _ ?_ (by omega) h₁ (by omega) (fun j hj => ?_) hhi rfl
      · omega
      · rcases Nat.lt_or_ge j (lo + (hi - lo) / 2).toNat with hj' | hj'
        · exact (ha _ _ hj' (by omega)).trans hlt
        · rwa [show j = (lo + (hi - lo) / 2).toNat by omega]
    · have hgt : k < a (lo + (hi - lo) / 2).toNat := lt_of_le_of_ne (not_lt.1 hlt) (Ne.symm heq)
      refine ih _ ?_ h₀ (by omega) (by omega) hlo (fun j hj hjn => ?_) rfl
      · omega
      · rcases Nat.lt_or_ge (lo + (hi - lo) / 2).toNat j with hj' | hj'
        · exact hgt.trans (ha _ _ hj' hjn)
        · rwa [show j = (lo + (hi - lo) / 2).toNat by omega]
    · exact ⟨by omega, fun j hj => hlo j (by omega), fun j hj hjn => hhi j (by omega) hjn⟩

/-- A search in the first `n` cells, strictly sorted, hits the key or ends at its place. -/
theorem bisect_spec {a : ℕ → κ} {n : ℕ} (ha : ∀ i j, i < j → j < n → a i < a j) (k : κ) :
    (bisect a k 0 ((n : ℤ) - 1)).Spec a n k :=
  bisect_spec_of_bounds ha k le_rfl (by omega) (by omega) (fun j hj => by omega)
    fun j hj hjn => by omega

/-! ## Cells -/

/-- The list filling the first `n` cells of the array `a`. -/
def cells (a : ℕ → ε) (n : ℕ) : List ε := (List.range n).map a

@[simp] theorem length_cells (a : ℕ → ε) (n : ℕ) : (cells a n).length = n := by simp [cells]

theorem cells_succ (a : ℕ → ε) (n : ℕ) : cells a (n + 1) = cells a n ++ [a n] := by
  simp [cells, List.range_succ]

/-- The cells of a sorted list. -/
theorem sortedBy_cells {a : ℕ → ε} {n : ℕ} (h : SortedBy key (cells a n)) :
    ∀ i j, i < j → j < n → key (a i) < key (a j) := fun i j hij hj => by
  simpa [cells] using List.pairwise_iff_getElem.1 h i j (by simp; omega) (by simp [hj]) hij

/-- Writing over a cell. -/
theorem cells_update {a : ℕ → ε} {n i : ℕ} (e : ε) :
    cells (Function.update a i e) n = (cells a n).set i e := by
  refine List.ext_getElem (by simp) fun j hj _ => ?_
  rw [List.getElem_set]
  by_cases hij : i = j
  · subst hij
    simp [cells]
  · simp [cells, hij, Function.update_of_ne (Ne.symm hij)]

/-- Writing past the cells in use. -/
theorem cells_update_of_le {a : ℕ → ε} {n i : ℕ} (h : n ≤ i) (e : ε) :
    cells (Function.update a i e) n = cells a n := by
  rw [cells_update, List.set_eq_of_length_le (by simpa using h)]

/-- `for (k = n; k > pos; k--) a[k] = a[k - 1]`. -/
def shiftUp (pos : ℕ) : ℕ → (ℕ → ε) → ℕ → ε
  | 0, a => a
  | k + 1, a => if pos < k + 1 then shiftUp pos k (Function.update a (k + 1) (a k)) else a

/-- Each cell of `(pos, n]` takes the value of the one before. -/
theorem shiftUp_apply (pos n : ℕ) (a : ℕ → ε) (i : ℕ) :
    shiftUp pos n a i = if pos < i ∧ i ≤ n then a (i - 1) else a i := by
  induction n generalizing a with
  | zero => rw [shiftUp, if_neg (by omega)]
  | succ k ih =>
    rw [shiftUp]
    by_cases hk : pos < k + 1
    -- The topmost cell is written first, from one that is not written yet.
    · rw [if_pos hk, ih]
      by_cases hi : i = k + 1
      · subst hi
        rw [if_neg (by omega), if_pos (by omega), Function.update_self, Nat.add_sub_cancel]
      · by_cases hle : pos < i ∧ i ≤ k
        · rw [if_pos hle, if_pos (by omega), Function.update_of_ne (by omega)]
        · rw [if_neg hle, if_neg (by omega), Function.update_of_ne hi]
    · rw [if_neg hk, if_neg (by omega)]

/-- Moving the cells up from `pos`, and writing there, is an insertion. -/
theorem cells_shiftUp {a : ℕ → ε} {n pos : ℕ} (hpos : pos ≤ n) (e : ε) :
    cells (Function.update (shiftUp pos n a) pos e) (n + 1) =
      (cells a n).take pos ++ e :: (cells a n).drop pos := by
  refine List.ext_getElem (by simp; omega) fun j hj _ => ?_
  rw [length_cells] at hj
  simp only [cells, List.getElem_map, List.getElem_range]
  -- Below `pos` nothing moves, and above it each cell is one further up.
  rcases lt_trichotomy j pos with h | rfl | h
  · rw [Function.update_of_ne (by omega), shiftUp_apply, if_neg (by omega),
      List.getElem_append_left (by simp; omega)]
    simp
  · rw [Function.update_self, List.getElem_append_right (by simp)]
    simp [min_eq_left hpos]
  · obtain ⟨i, rfl⟩ : ∃ i, j = pos + 1 + i := ⟨j - (pos + 1), by omega⟩
    rw [Function.update_of_ne (by omega), shiftUp_apply, if_pos (by omega),
      List.getElem_append_right (by simp; omega)]
    simp only [List.length_take, List.length_map, List.length_range, min_eq_left hpos,
      show pos + 1 + i - pos = i + 1 by omega, List.getElem_cons_succ, List.getElem_drop,
      List.getElem_map, List.getElem_range]
    congr 1
    omega

end VpnHide.Lib

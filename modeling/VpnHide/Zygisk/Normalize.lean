import VpnHide.Lib.Loop
import VpnHide.Lib.Scan
import VpnHide.Zygisk.Paths

/-!
# Normalising a path

`normalize_absolute` of `zygisk/src/filesystem.rs` writes the normal form of a path into an
array, component by component. Where each open component starts is kept in a second array of
fixed size, as a stack, so that a step back can cut the result there.

The walk stands in a place of the path, and what it has written is the normal form of the path up
to there (`Walk.Open`). A path that is short and not too deep is normalised without an access out
of range (`normalizeAbsolute_eq`).
-/

namespace VpnHide.Zygisk

open Lib

/-- A dot. -/
def dot : UInt8 := '.'.toUInt8

/-- The longest path that is copied from an app. -/
def maxCallerPath : ℕ := 1024

/-- The longest path that is put together. -/
def maxResolvedPath : ℕ := 2048

/-! ## The walk -/

/-- Writing into an array; out of range is no writing. -/
def store {α : Type} (l : List α) (i : ℕ) (v : α) : Option (List α) :=
  if i < l.length then some (l.set i v) else none

/-- The result, up to `len`; where the components start, up to `depth`; and the place in the
    path. -/
structure Walk where
  bytes : Bytes
  len : ℕ
  starts : List ℕ
  depth : ℕ
  cursor : ℕ

namespace Walk

/-- The result. -/
def asBytes (w : Walk) : Bytes := w.bytes.take w.len

/-- The component itself is written, if there is room. -/
def write (w : Walk) (component : Bytes) (cursor : ℕ) : Flow Walk (Option Bytes) :=
  if w.bytes.length < w.len then .panic
  else if w.bytes.length - w.len < component.length then .done none
  else .next { w with
    bytes := w.bytes.take w.len ++ component ++ w.bytes.drop (w.len + component.length)
    len := w.len + component.length
    cursor }

/-- A component is opened, with a slash before it unless the result is the root. -/
def push (w : Walk) (component : Bytes) (cursor : ℕ) : Flow Walk (Option Bytes) :=
  if w.depth = w.starts.length then .done none
  else
    match store w.starts w.depth w.len with
    | none => .panic
    | some starts =>
      let w := { w with starts, depth := w.depth + 1 }
      if w.len ≠ 1 then
        if w.len = w.bytes.length then .done none
        else
          match store w.bytes w.len slash with
          | none => .panic
          | some bytes => { w with bytes, len := w.len + 1 }.write component cursor
      else w.write component cursor

/-- The last component is closed. At the root there is none. -/
def pop (w : Walk) (cursor : ℕ) : Flow Walk (Option Bytes) :=
  if w.depth ≠ 0 then
    match w.starts[w.depth - 1]? with
    | none => .panic
    | some len => .next { w with depth := w.depth - 1, len, cursor }
  else .next { w with cursor }

end Walk

/-- One turn of the walk over the segments. -/
def normalizeBody (input : Bytes) (w : Walk) : Flow Walk (Option Bytes) :=
  if w.cursor < input.length then
    let start := scanWhile (· == slash) input w.cursor input.length
    if start = input.length then .done (some w.asBytes)
    else
      let cursor := scanWhile (fun b => !(b == slash)) input start input.length
      let component := slice input start cursor
      if component = ascii "." then .next { w with cursor }
      else if component = ascii ".." then w.pop cursor
      else w.push component cursor
  else .done (some w.asBytes)

/-- Every iteration takes the cursor further, so that there are no more than bytes. -/
def normalizeAbsolute (input : Bytes) : Flow Walk (Option Bytes) :=
  if input.head? ≠ some slash then .done none
  else iterate (normalizeBody input) (input.length + 1)
    ⟨(List.replicate maxResolvedPath 0).set 0 slash, 1, List.replicate 96 0, 0, 1⟩

/-! ## What has been written -/

/-- The normal form after some components. -/
def written (pre : List Bytes) : Bytes := rendered slash (lexical dot pre)

/-- A walk after some components of a path. -/
structure Walk.Open (input : Bytes) (pre : List Bytes) (w : Walk) : Prop where
  split : components slash input = pre ++ components slash (input.drop w.cursor)
  cursor_le : w.cursor ≤ input.length
  length_bytes : w.bytes.length = maxResolvedPath
  length_starts : w.starts.length = 96
  depth_eq : w.depth = (lexical dot pre).length
  asBytes_eq : w.asBytes = written pre
  len_eq : w.len = (written pre).length
  starts_eq : ∀ i < w.depth, w.starts[i]? = some (rendered slash ((lexical dot pre).take i)).length

/-- A path that the walk has room for. -/
structure Fits (input : Bytes) : Prop where
  absolute : input.head? = some slash
  short : input.length < maxCallerPath
  shallow : ∀ pre, pre <+: components slash input → (lexical dot pre).length ≤ 96

/-! ## Rendering -/

section Rendered

variable {stack : List Bytes} {c : Bytes}

theorem rendered_concat (stack : List Bytes) (c : Bytes) :
    rendered slash (stack ++ [c]) = rendered slash stack ++ (if stack = [] then c
      else slash :: c) := by
  rw [rendered, if_neg (List.append_ne_nil_of_right_ne_nil stack (List.cons_ne_nil c [])),
    joined_append, joined_singleton, rendered]
  split_ifs with h
  · rw [h]
    rfl
  · rfl

theorem rendered_dropLast_isPrefix (stack : List Bytes) :
    rendered slash stack.dropLast <+: rendered slash stack := by
  cases stack using List.reverseRecOn with
  | nil => exact List.prefix_rfl
  | append_singleton stack c =>
    rw [List.dropLast_concat, rendered_concat]
    exact List.prefix_append _ _

/-- The root is the only result of one byte. -/
theorem length_rendered_eq_one_iff (h : ∀ c ∈ stack, IsComponent slash c) :
    (rendered slash stack).length = 1 ↔ stack = [] := by
  cases stack with
  | nil => exact iff_of_true rfl rfl
  | cons c stack =>
    refine iff_of_false (fun hone => ?_) (List.cons_ne_nil c stack)
    have hc := List.length_pos_iff.2 (h c List.mem_cons_self).1
    rw [rendered, if_neg (List.cons_ne_nil c stack), joined, List.flatMap_cons, List.cons_append,
      List.length_cons, List.length_append] at hone
    omega

end Rendered

variable {input : Bytes} {pre : List Bytes} {w : Walk}

/-- What is written is no longer than the path. -/
theorem Fits.length_written_le (h : Fits input) (hpre : pre <+: components slash input) :
    (written pre).length ≤ input.length := by
  have hpos : input ≠ [] := fun hnil => by
    have := h.absolute
    rw [hnil] at this
    cases this
  rw [written, rendered]
  split_ifs
  · exact List.length_pos_iff.2 hpos
  · have hjoined : (joined slash pre).length ≤ (joined slash (components slash input)).length :=
      (List.IsPrefix.flatMap hpre _).length_le
    exact (length_joined_lexical_le slash dot pre).trans
      (hjoined.trans ((length_joined_components_le slash input).2 (.inr h.absolute)))

theorem drop_scanWhile (q : UInt8 → Bool) {p : ℕ} (hp : p ≤ input.length) :
    input.drop (scanWhile q input p input.length) = (input.drop p).dropWhile q := by
  rw [← slice_length_right, slice_scanWhile_stop hp le_rfl, slice_length_right]

namespace Walk

/-- The components are those before the cursor and those after it. -/
theorem Open.pre_prefix (h : w.Open input pre) : pre <+: components slash input := ⟨_, h.split.symm⟩

theorem Open.isComponent (h : w.Open input pre) {c : Bytes} (hc : c ∈ lexical dot pre) :
    IsComponent slash c :=
  isComponent_of_mem (h.pre_prefix.subset (mem_of_mem_lexical hc).1)

/-- The component that the cursor stands before. -/
structure Next (input : Bytes) (w : Walk) (c : Bytes) (stop : ℕ) : Prop where
  split : components slash (input.drop w.cursor) = c :: components slash (input.drop stop)
  stop_le : stop ≤ input.length

variable {c : Bytes} {stop : ℕ}

theorem Open.split_concat (h : w.Open input pre) (hnext : Next input w c stop) :
    components slash input = (pre ++ [c]) ++ components slash (input.drop stop) := by
  rw [h.split, hnext.split, List.append_assoc, List.singleton_append]

/-- A component that opens nothing. -/
theorem Open.stay (h : w.Open input pre) (hnext : Next input w c stop)
    (hsame : lexical dot (pre ++ [c]) = lexical dot pre) :
    ({ w with cursor := stop } : Walk).Open input (pre ++ [c]) where
  split := h.split_concat hnext
  cursor_le := hnext.stop_le
  length_bytes := h.length_bytes
  length_starts := h.length_starts
  depth_eq := hsame ▸ h.depth_eq
  asBytes_eq := by rw [written, hsame]; exact h.asBytes_eq
  len_eq := by rw [written, hsame]; exact h.len_eq
  starts_eq := hsame ▸ h.starts_eq

/-- A step back. -/
theorem Open.pop (h : w.Open input pre) (hnext : Next input w c stop) (hc : c = [dot, dot]) :
    ∃ w', w.pop stop = .next w' ∧ w'.cursor = stop ∧ w'.Open input (pre ++ [c]) := by
  have hback : lexical dot (pre ++ [c]) = (lexical dot pre).dropLast := by
    rw [lexical_concat, hc, lexStep, if_neg (by decide), if_pos rfl]
  rw [Walk.pop]
  split_ifs with hdepth
  · have hlast : (lexical dot pre).dropLast = (lexical dot pre).take (w.depth - 1) := by
      rw [List.dropLast_eq_take, h.depth_eq]
    have hle := (rendered_dropLast_isPrefix (lexical dot pre)).length_le
    rw [h.starts_eq (w.depth - 1) (by omega), ← hlast, ← hback]
    refine ⟨_, rfl, rfl, h.split_concat hnext, hnext.stop_le, h.length_bytes, h.length_starts, ?_,
      ?_, rfl, ?_⟩
    · rw [hback, List.length_dropLast, h.depth_eq]
    · -- What is cut off was written after the rest.
      have hcut := List.prefix_iff_eq_take.1 (rendered_dropLast_isPrefix (lexical dot pre))
      have hasBytes := h.asBytes_eq
      rw [Walk.asBytes, written] at hasBytes
      rw [written, Walk.asBytes, hback]
      rw [← hasBytes, List.take_take, min_eq_left (hle.trans_eq h.len_eq.symm)] at hcut
      exact hcut.symm
    · intro i hi
      dsimp only at hi
      rw [h.starts_eq i (by omega), hback, hlast, List.take_take, min_eq_left (by omega)]
  · refine ⟨_, rfl, rfl, h.stay hnext ?_⟩
    have hnil : lexical dot pre = [] := List.eq_nil_of_length_eq_zero (by rw [← h.depth_eq]; omega)
    rw [hback, hnil]
    rfl

theorem store_of_lt {α : Type} {l : List α} {i : ℕ} (h : i < l.length) (v : α) :
    store l i v = some (l.set i v) := if_pos h

/-- There is room for a component that makes the result no longer than the array. -/
theorem write_eq (w : Walk) (component : Bytes) (cursor : ℕ)
    (h : w.len + component.length ≤ w.bytes.length) :
    ∃ w', w.write component cursor = .next w' ∧ w'.cursor = cursor ∧ w'.starts = w.starts ∧
      w'.depth = w.depth ∧ w'.bytes.length = w.bytes.length ∧ w'.len = w.len + component.length ∧
      w'.asBytes = w.asBytes ++ component := by
  have hlen : (w.bytes.take w.len ++ component).length = w.len + component.length := by
    rw [List.length_append, List.length_take_of_le (by omega)]
  rw [Walk.write, if_neg (by omega), if_neg (by omega)]
  refine ⟨_, rfl, rfl, rfl, rfl, ?_, rfl, ?_⟩
  · dsimp only
    rw [List.length_append, hlen, List.length_drop]
    omega
  · rw [Walk.asBytes, Walk.asBytes]
    dsimp only
    rw [← hlen, List.take_left]

/-- The walk after a step on. -/
theorem Open.opened (h : w.Open input pre) (hnext : Next input w c stop)
    (hopen : lexical dot (pre ++ [c]) = lexical dot pre ++ [c]) (hdepth : w.depth < 96) {w' : Walk}
    (hcursor : w'.cursor = stop) (hstarts : w'.starts = w.starts.set w.depth w.len)
    (hdepth' : w'.depth = w.depth + 1)
    (hbytes : w'.bytes.length = w.bytes.length) (hlen : w'.len = (written (pre ++ [c])).length)
    (hasBytes : w'.asBytes = written (pre ++ [c])) : w'.Open input (pre ++ [c]) where
  split := hcursor ▸ h.split_concat hnext
  cursor_le := hcursor ▸ hnext.stop_le
  length_bytes := hbytes.trans h.length_bytes
  length_starts := by rw [hstarts, List.length_set, h.length_starts]
  depth_eq := by rw [hdepth', hopen, List.length_append, h.depth_eq, List.length_singleton]
  asBytes_eq := hasBytes
  len_eq := hlen
  starts_eq := by
    intro i hi
    rw [hdepth'] at hi
    have hle : i ≤ (lexical dot pre).length := by rw [← h.depth_eq]; omega
    rw [hstarts, List.getElem?_set, hopen, List.take_append_of_le_length hle]
    split_ifs with heq hroom
    · rw [h.len_eq, written, ← heq, h.depth_eq, List.take_length]
    · rw [h.length_starts] at hroom
      omega
    · exact h.starts_eq i (by omega)

/-- A step on. -/
theorem Open.push (hfits : Fits input) (h : w.Open input pre) (hnext : Next input w c stop)
    (hc : IsPlain dot c) :
    ∃ w', w.push c stop = .next w' ∧ w'.cursor = stop ∧ w'.Open input (pre ++ [c]) := by
  have hopen : lexical dot (pre ++ [c]) = lexical dot pre ++ [c] := by
    rw [lexical_concat, lexStep_of_isPlain hc]
  have hpre : pre ++ [c] <+: components slash input := ⟨_, (h.split_concat hnext).symm⟩
  -- There is room for another start, and for the bytes,
  have hdepth : w.depth < 96 := by
    have hdeep := hfits.shallow _ hpre
    rw [hopen, List.length_append, ← h.depth_eq, List.length_singleton] at hdeep
    omega
  have hwritten : written (pre ++ [c]) = w.asBytes ++ if lexical dot pre = [] then c
      else slash :: c := by
    rw [written, hopen, rendered_concat, h.asBytes_eq, written]
  -- as the path so far is within the limits.
  have hlong := (hfits.length_written_le hpre).trans_lt hfits.short
  have hlen : w.asBytes.length = w.len := by rw [h.asBytes_eq, h.len_eq]
  have hroom : w.bytes.length = 2048 := h.length_bytes
  rw [hwritten, List.length_append, hlen, maxCallerPath] at hlong
  have hroot : w.len ≠ 1 ↔ lexical dot pre ≠ [] := by
    rw [h.len_eq, written, Ne, length_rendered_eq_one_iff fun _ hc => h.isComponent hc]
  rw [Walk.push, if_neg (by rw [h.length_starts]; omega),
    store_of_lt (by rw [h.length_starts]; exact hdepth)]
  dsimp only
  -- At the root the separator is there already; elsewhere it is written first.
  by_cases hnil : lexical dot pre = []
  · rw [if_pos hnil] at hwritten hlong
    obtain ⟨w', hw', hcursor, hstarts, hdepth', hbytes, hlen', hasBytes⟩ :=
      write_eq { w with starts := w.starts.set w.depth w.len, depth := w.depth + 1 } c stop
        (by dsimp only; omega)
    rw [if_neg (fun h => hroot.1 h hnil), hw']
    refine ⟨w', rfl, hcursor, h.opened hnext hopen hdepth hcursor hstarts hdepth' hbytes ?_
      (hasBytes.trans hwritten.symm)⟩
    rw [hlen', hwritten, List.length_append, hlen]
  · rw [if_neg hnil, List.length_cons] at hlong
    rw [if_neg hnil] at hwritten
    obtain ⟨w', hw', hcursor, hstarts, hdepth', hbytes, hlen', hasBytes⟩ :=
      write_eq { bytes := w.bytes.set w.len slash, len := w.len + 1,
                 starts := w.starts.set w.depth w.len, depth :=
                   w.depth + 1, cursor := w.cursor } c stop
        (by dsimp only; rw [List.length_set]; omega)
    have hset : (w.bytes.set w.len slash).take (w.len + 1) = w.asBytes ++ [slash] := by
      rw [Walk.asBytes, List.set_eq_take_append_cons_drop, if_pos (by omega), List.take_append,
        List.take_take, List.length_take_of_le (by omega), Nat.add_sub_cancel_left,
        min_eq_right (Nat.le_succ _)]
      rfl
    have hresult : w'.asBytes = written (pre ++ [c]) := by
      rw [hasBytes, hwritten]
      change (w.bytes.set w.len slash).take (w.len + 1) ++ c = _
      rw [hset, List.append_assoc, List.singleton_append]
    rw [if_pos (hroot.2 hnil), if_neg (by omega), store_of_lt (by omega)]
    dsimp only
    rw [hw']
    refine ⟨w', rfl, hcursor, h.opened hnext hopen hdepth hcursor hstarts hdepth' ?_ ?_ hresult⟩
    · rw [hbytes, List.length_set]
    · rw [hlen', hwritten, List.length_append, List.length_cons, hlen]
      dsimp only
      omega

end Walk

/-! ## A whole walk -/

/-- An iteration ends the walk, or takes it past a component. -/
theorem normalizeBody_step (hfits : Fits input) (h : w.Open input pre) :
    normalizeBody input w = .done (some (normalForm slash dot input)) ∨
      ∃ w' c, normalizeBody input w = .next w' ∧ w'.Open input (pre ++ [c]) ∧
        w.cursor < w'.cursor := by
  -- If no component is left, what was written is the normal form.
  have hend : components slash (input.drop w.cursor) = [] →
      w.asBytes = normalForm slash dot input := by
    intro hnil
    rw [h.asBytes_eq, written, normalForm, h.split, hnil, List.append_nil]
  rw [normalizeBody]
  split_ifs with hcursor
  · have hstart := le_scanWhile (· == slash) input w.cursor input.length
    have hstart' := scanWhile_le (q := (· == slash)) h.cursor_le le_rfl
    have hdrop := drop_scanWhile (· == slash) h.cursor_le
    dsimp only
    -- Separators are skipped, then a component is read.
    set start := scanWhile (· == slash) input w.cursor input.length
    by_cases hlast : start = input.length
    · rw [if_pos hlast]
      rw [hlast, List.drop_length] at hdrop
      exact .inl (by rw [hend (fields_eq_nil hdrop.symm)])
    · rw [if_neg hlast]
      have hlt : start < input.length := lt_of_le_of_ne hstart' hlast
      have hne : (input.drop w.cursor).dropWhile (· == slash) ≠ [] := fun hnil => by
        rw [hnil, List.drop_eq_nil_iff] at hdrop
        omega
      have hstop := drop_scanWhile (fun b => !(b == slash)) hstart'
      have hslice := slice_scanWhile (q := fun b => !(b == slash)) hstart' le_rfl
      have hstop_le := scanWhile_le (q := fun b => !(b == slash)) hstart' le_rfl
      rw [slice_length_right] at hslice
      set stop := scanWhile (fun b => !(b == slash)) input start input.length
      have hnext : w.Next input (slice input start stop) stop := by
        refine ⟨?_, hstop_le⟩
        rw [components_of_ne_nil hne, ← hdrop, ← hstop, hslice]
      have hadvance : w.cursor < stop := by
        have hrest := length_rest_lt hne
        rw [← hdrop, ← hstop, List.length_drop, List.length_drop] at hrest
        omega
      set c := slice input start stop
      -- A dot changes nothing, two dots go back, and any other component is written.
      by_cases hdot : c = ascii "."
      · refine .inr ⟨_, c, if_pos hdot, h.stay hnext ?_, hadvance⟩
        rw [lexical_concat, lexStep, if_pos (show c = [dot] from hdot)]
      · by_cases hback : c = ascii ".."
        · obtain ⟨w', hpop, hcursor', hopen⟩ := h.pop hnext hback
          rw [if_neg hdot, if_pos hback]
          exact .inr ⟨w', c, hpop, hopen, hcursor' ▸ hadvance⟩
        · obtain ⟨w', hpush, hcursor', hopen⟩ := h.push hfits hnext ⟨hdot, hback⟩
          rw [if_neg hdot, if_neg hback]
          exact .inr ⟨w', c, hpush, hopen, hcursor' ▸ hadvance⟩
  · exact .inl (by rw [hend (by rw [List.drop_eq_nil_of_le (not_lt.1 hcursor)]; rfl)])

/-- A path that fits is normalised. -/
theorem normalizeAbsolute_eq (h : Fits input) :
    normalizeAbsolute input = .done (some (normalForm slash dot input)) := by
  obtain ⟨rest, hrest⟩ : ∃ rest, input = slash :: rest := by
    have habsolute := h.absolute
    cases hinput : input with
    | nil =>
      rw [hinput] at habsolute
      cases habsolute
    | cons b rest =>
      rw [hinput] at habsolute
      exact ⟨rest, by rw [Option.some.inj habsolute]⟩
  -- The walk starts at the root,
  have hroot :
      Walk.Open input [] ⟨(List.replicate maxResolvedPath 0).set 0 slash, 1, List.replicate 96 0,
        0, 1⟩ := by
    refine ⟨?_, ?_, ?_, ?_, rfl, rfl, rfl, ?_⟩
    · rw [hrest, components_cons]
      rfl
    · rw [hrest, List.length_cons]
      exact Nat.le_add_left 1 _
    · rw [List.length_set, List.length_replicate]
    · exact List.length_replicate
    · exact fun i hi => absurd hi (Nat.not_lt_zero i)
  -- and each step takes it on, or ends it.
  have hstep : ∀ w : Walk, (∃ pre, w.Open input pre) →
      (∃ r, normalizeBody input w = .done r ∧ r = some (normalForm slash dot input)) ∨
      ∃ w', normalizeBody input w = .next w' ∧ (∃ pre, w'.Open input pre) ∧
        input.length - w'.cursor < input.length - w.cursor ∧
        ∀ r, r = some (normalForm slash dot input) → r = some (normalForm slash dot input) := by
    rintro w ⟨pre, hopen⟩
    obtain hbody | ⟨w', c, hbody, hopen', hadvance⟩ := normalizeBody_step h hopen
    · exact .inl ⟨_, hbody, rfl⟩
    · have hle := hopen'.cursor_le
      exact .inr ⟨w', hbody, ⟨_, hopen'⟩, by omega, fun _ hr => hr⟩
  obtain ⟨r, hdone, rfl⟩ := @iterate_done Walk (Option Bytes) (normalizeBody input) _
    (fun _ r => r = some (normalForm slash dot input)) (fun w => input.length - w.cursor) hstep
    (input.length + 1) _
    ⟨[], hroot⟩ (Nat.lt_succ_of_le (Nat.sub_le _ _))
  rw [normalizeAbsolute, if_neg (not_not.2 h.absolute), hdone]

end VpnHide.Zygisk

import Mathlib.Data.List.Basic
import Mathlib.Data.List.TakeDrop
import Mathlib.Data.List.TakeWhile

/-!
# Index loops over a buffer

Code that walks a buffer by index carves it into *slices* `b[s..e)`. The
loops such code is made of are

* `scanWhile`: `while (p < stop && q(b[p])) p++`, which stops at the end of the
  longest prefix of the slice satisfying `q` (`slice_scanWhile`,
  `slice_scanWhile_stop`);
* `scanFrom`: `while (q(*p)) p++`, which has no end to stop at, and may leave the buffer; it
  does not if there is an element that does not satisfy `q` (`scanFrom_eq`);
* `forRange`: `for (p = s; p < e; p++)` with a body that updates a state and may
  bail out, which is a monadic fold over the slice (`forRange_eq_foldlM`), or
  a fold if it never does (`foldRange_eq_foldl`).

So a program written with offsets is compared with one written on lists of
elements, slice by slice.
-/

namespace VpnHide.Lib

variable {α σ : Type*}

/-- The slice `b[s..e)` of a buffer. -/
def slice (b : List α) (s e : ℕ) : List α := (b.drop s).take (e - s)

@[simp] theorem slice_self (b : List α) (s : ℕ) : slice b s s = [] := by simp [slice]

theorem slice_of_ge (b : List α) {s e : ℕ} (h : e ≤ s) : slice b s e = [] := by
  simp [slice, Nat.sub_eq_zero_of_le h]

theorem slice_length_right (b : List α) (s : ℕ) : slice b s b.length = b.drop s :=
  List.take_of_length_le (by simp)

theorem length_slice {b : List α} {s e : ℕ} (he : e ≤ b.length) : (slice b s e).length = e - s := by
  simp only [slice, List.length_take, List.length_drop]
  omega

/-- A nonempty slice starts with the element at its start. -/
theorem slice_cons [Inhabited α] {b : List α} {s e : ℕ} (hse : s < e) (he : e ≤ b.length) :
    slice b s e = b[s]! :: slice b (s + 1) e := by
  have hs : s < b.length := by omega
  obtain ⟨k, rfl⟩ : ∃ k, e = s + 1 + k := ⟨e - (s + 1), by omega⟩
  rw [slice, List.drop_eq_getElem_cons hs, slice, getElem!_pos b s hs,
    show s + 1 + k - s = k + 1 by omega, show s + 1 + k - (s + 1) = k by omega, List.take_succ_cons]

/-- Slices compose. -/
theorem slice_append {b : List α} {s m e : ℕ} (hsm : s ≤ m) (hme : m ≤ e) (he : e ≤ b.length) :
    slice b s m ++ slice b m e = slice b s e := by
  obtain ⟨k, rfl⟩ : ∃ k, m = s + k := ⟨m - s, by omega⟩
  obtain ⟨l, rfl⟩ : ∃ l, e = s + k + l := ⟨e - (s + k), by omega⟩
  rw [slice, slice, slice, show s + k - s = k by omega, show s + k + l - (s + k) = l by omega,
    show s + k + l - s = k + l by omega, ← List.drop_drop, List.take_add]

/-- The last element of a nonempty slice is the one before its end. -/
theorem getLast?_slice [Inhabited α] {b : List α} {s e : ℕ} (hse : s < e) (he : e ≤ b.length) :
    (slice b s e).getLast? = some b[e - 1]! := by
  rw [← slice_append (m := e - 1) (by omega) (by omega) he, slice_cons (by omega) he,
    slice_of_ge b (by omega : e ≤ e - 1 + 1)]
  simp

/-- Dropping the last element of a slice moves its end back. -/
theorem dropLast_slice {b : List α} {s e : ℕ} (he : e ≤ b.length) :
    (slice b s e).dropLast = slice b s (e - 1) := by
  rw [List.dropLast_eq_take, length_slice he, slice, slice, List.take_take]
  congr 1
  omega

variable [Inhabited α]

/-! ## Scanning -/

/-- `while (p < stop && q(b[p])) p++`, returning `p`. -/
def scanWhile (q : α → Bool) (b : List α) (p stop : ℕ) : ℕ := go (stop - p) p
where
  /-- The loop with `n` elements left before `stop`. -/
  go : ℕ → ℕ → ℕ
    | 0, p => p
    | n + 1, p => if q b[p]! then go n (p + 1) else p

variable {q : α → Bool} {b : List α} {p stop : ℕ}

/-- A scan stops where the items end. -/
theorem scanWhile_eq (hs : stop ≤ b.length) :
    scanWhile q b p stop = p + ((slice b p stop).takeWhile q).length := by
  rw [scanWhile]
  -- The induction is on the elements that are left, for every `p`.
  generalize hn : stop - p = n
  induction n generalizing p with
  | zero =>
    rw [scanWhile.go, slice_of_ge b (by omega), List.takeWhile_nil, List.length_nil, Nat.add_zero]
  | succ n ih =>
    rw [scanWhile.go, slice_cons (by omega) hs, List.takeWhile_cons]
    split
    · rw [ih (by omega), List.length_cons]
      omega
    · rfl

theorem le_scanWhile (q : α → Bool) (b : List α) (p stop : ℕ) : p ≤ scanWhile q b p stop := by
  rw [scanWhile]
  generalize stop - p = n
  induction n generalizing p with
  | zero => exact le_rfl
  | succ n ih =>
    rw [scanWhile.go]
    split
    · exact (Nat.le_succ p).trans (ih (p + 1))
    · exact le_rfl

/-- A scan stops before the end only at an element that does not satisfy `q`. -/
theorem not_of_scanWhile_lt (h : scanWhile q b p stop < stop) :
    q b[scanWhile q b p stop]! = false := by
  rw [scanWhile] at h ⊢
  generalize hn : stop - p = n at h ⊢
  induction n generalizing p with
  | zero =>
    rw [scanWhile.go] at h
    omega
  | succ n ih =>
    rw [scanWhile.go] at h ⊢
    split at h
    · rw [if_pos ‹_›]
      exact ih (by omega) h
    · rw [if_neg ‹_›]
      exact eq_false_of_ne_true ‹_›

/-- A scan goes past an element that satisfies `q`. -/
theorem lt_scanWhile (hp : p < stop) (hq : q b[p]! = true) : p < scanWhile q b p stop := by
  obtain ⟨n, hn⟩ : ∃ n, stop - p = n + 1 := ⟨stop - p - 1, by omega⟩
  have h := le_scanWhile q b (p + 1) stop
  rw [scanWhile, show stop - (p + 1) = n by omega] at h
  rw [scanWhile, hn, scanWhile.go, if_pos hq]
  omega

/-- A scan stops within its bounds. -/
theorem scanWhile_le (hp : p ≤ stop) (hs : stop ≤ b.length) : scanWhile q b p stop ≤ stop := by
  have h := (List.takeWhile_prefix q (l := slice b p stop)).length_le
  rw [length_slice hs] at h
  rw [scanWhile_eq hs]
  omega

/-- What a scan passes over is the longest prefix satisfying `q`. -/
theorem slice_scanWhile (hp : p ≤ stop) (hs : stop ≤ b.length) :
    slice b p (scanWhile q b p stop) = (slice b p stop).takeWhile q := by
  have happ := slice_append (le_scanWhile q b p stop) (scanWhile_le (q := q) hp hs) hs
  have hlen := length_slice (s := p) ((scanWhile_le (q := q) hp hs).trans hs)
  rw [scanWhile_eq hs, Nat.add_sub_cancel_left, ← scanWhile_eq hs] at hlen
  exact List.append_inj_left (happ.trans (List.takeWhile_append_dropWhile (p := q)).symm) hlen

/-- What a scan leaves is the rest. -/
theorem slice_scanWhile_stop (hp : p ≤ stop) (hs : stop ≤ b.length) :
    slice b (scanWhile q b p stop) stop = (slice b p stop).dropWhile q := by
  have happ := slice_append (le_scanWhile q b p stop) (scanWhile_le (q := q) hp hs) hs
  rw [slice_scanWhile hp hs] at happ
  exact List.append_cancel_left (happ.trans (List.takeWhile_append_dropWhile (p := q)).symm)

/-- `while (q(*p)) p++`, returning `p`, unless it leaves the buffer. -/
def scanFrom (q : α → Bool) (b : List α) (p : ℕ) : Option ℕ :=
  if h : p < b.length then if q b[p] then scanFrom q b (p + 1) else some p else none
termination_by b.length - p

omit [Inhabited α] in

/-- The item at a place. -/
theorem getElem?_of_drop {a : α} {post : List α} (h : b.drop p = a :: post) : b[p]? = some a := by
  rw [← List.head?_drop, h, List.head?_cons]

omit [Inhabited α] in

/-- What comes after a place. -/
theorem drop_of_drop {pre post : List α} (h : b.drop p = pre ++ post) :
    b.drop (p + pre.length) = post := by
  rw [← List.drop_drop, h, List.drop_left]

omit [Inhabited α] in
/-- The scan stops at the first element that does not satisfy `q`. -/
theorem scanFrom_eq {pre post : List α} {a : α} (h : b.drop p = pre ++ a :: post)
    (hpre : ∀ x ∈ pre, q x = true) (ha : q a = false) : scanFrom q b p = some (p + pre.length) := by
  induction pre generalizing p with
  | nil =>
    obtain ⟨hp, hget⟩ := List.getElem?_eq_some_iff.1 (getElem?_of_drop h)
    rw [scanFrom, dif_pos hp, hget, if_neg (ne_true_of_eq_false ha)]
    rfl
  | cons x pre ih =>
    obtain ⟨hx, hpre⟩ := List.forall_mem_cons.1 hpre
    obtain ⟨hp, hget⟩ := List.getElem?_eq_some_iff.1 (getElem?_of_drop h)
    have hrest : b.drop (p + 1) = pre ++ a :: post := by
      rw [← List.drop_drop, h]
      rfl
    rw [scanFrom, dif_pos hp, hget, if_pos hx, ih hrest hpre, List.length_cons,
      Nat.add_assoc, Nat.add_comm 1]

/-! ## Folding -/

/-- `for (p = s; p < e; p++)` over the elements `b[p]`, updating a state; a body
    that returns `none` leaves the loop. -/
def forRange (step : σ → α → Option σ) (b : List α) (s e : ℕ) (x : σ) : Option σ := go (e - s) s x
where
  /-- The loop with `n` elements left before `e`. -/
  go : ℕ → ℕ → σ → Option σ
    | 0, _, x => some x
    | n + 1, p, x => (step x b[p]!).bind (go n (p + 1))

/-- A loop over a range is a fold over a slice. -/
theorem forRange_eq_foldlM (step : σ → α → Option σ) {s e : ℕ} (he : e ≤ b.length) (x : σ) :
    forRange step b s e x = (slice b s e).foldlM step x := by
  rw [forRange]
  generalize hn : e - s = n
  induction n generalizing s x with
  | zero => rw [forRange.go, slice_of_ge b (by omega), List.foldlM_nil]; rfl
  | succ n ih =>
    rw [forRange.go, slice_cons (by omega) he, List.foldlM_cons]
    exact congrArg _ (funext fun y => ih y (by omega))

/-- `for (p = s; p < e; p++)` over the elements `b[p]`, with a body that always goes on. -/
def foldRange (step : σ → α → σ) (b : List α) (s e : ℕ) (x : σ) : σ := go (e - s) s x
where
  /-- The loop with `n` elements left before `e`. -/
  go : ℕ → ℕ → σ → σ
    | 0, _, x => x
    | n + 1, p, x => go n (p + 1) (step x b[p]!)

/-- So is one that cannot fail. -/
theorem foldRange_eq_foldl (step : σ → α → σ) {s e : ℕ} (he : e ≤ b.length) (x : σ) :
    foldRange step b s e x = (slice b s e).foldl step x := by
  rw [foldRange]
  generalize hn : e - s = n
  induction n generalizing s x with
  | zero => rw [foldRange.go, slice_of_ge b (by omega), List.foldl_nil]
  | succ n ih => rw [foldRange.go, slice_cons (by omega) he, List.foldl_cons, ih _ (by omega)]

end VpnHide.Lib

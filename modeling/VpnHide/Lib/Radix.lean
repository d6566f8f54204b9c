import Mathlib.Data.List.Basic
import Mathlib.Data.List.Induction
import Mathlib.Tactic.Linarith
import Mathlib.Tactic.Ring

/-!
# Positional numerals

Numerals in a base, over any alphabet with a partial map `digit` from glyphs to
digits. A reader accumulates `v ↦ v * base + d` from left to right and refuses a
value over its limit *before* computing it (`pushDigit`): it reads a string of
digits as its value if that is within the limit, and nothing else
(`foldlM_pushDigit`).

The numerals written are those of `Nat.toDigits`, without leading zeros:

* they are what the loop that divides by the base writes, backwards
  (`reverse_digitLoop`);
* they are read back as the number (`foldlM_toDigits`), also with zeros in front
  (`mapM_zeros_append_toDigits`);
* cutting one short changes its value (`numeral_ne_of_append`);
* a string of digits is the numeral of its value after some zeros
  (`exists_zeros_append_toDigits`).
-/

namespace VpnHide.Lib

variable {α : Type*} {base max v : ℕ} {digit : α → Option ℕ}

/-- The value of the digits `ds` read after the value `v`. -/
def numeral (base v : ℕ) (ds : List ℕ) : ℕ := ds.foldl (fun v d => v * base + d) v

@[simp] theorem numeral_nil : numeral base v [] = v := rfl

@[simp] theorem numeral_cons (d : ℕ) (ds : List ℕ) :
    numeral base v (d :: ds) = numeral base (v * base + d) ds := rfl

/-- The digits of a number, one group after the other. -/
theorem numeral_append (ds es : List ℕ) :
    numeral base v (ds ++ es) = numeral base (numeral base v ds) es := List.foldl_append

/-- A numeral is at least its leading part, shifted. -/
theorem mul_pow_le_numeral (ds : List ℕ) : v * base ^ ds.length ≤ numeral base v ds := by
  induction ds generalizing v with
  | nil => simp
  | cons d ds ih =>
    calc v * base ^ (ds.length + 1) = v * base * base ^ ds.length := by ring
      _ ≤ (v * base + d) * base ^ ds.length := Nat.mul_le_mul_right _ (Nat.le_add_right _ _)
      _ ≤ numeral base (v * base + d) ds := ih

theorem le_numeral (hb : 0 < base) (ds : List ℕ) : v ≤ numeral base v ds :=
  (Nat.le_mul_of_pos_right v (Nat.pow_pos hb)).trans (mul_pow_le_numeral ds)

/-! ## Reading -/

/-- Reading the glyph `c` after the value `v`, within the limit `max`:
    `if (v > (max - d) / base) return 0; v = v * base + d`. -/
def pushDigit (base max : ℕ) (digit : α → Option ℕ) (v : ℕ) (c : α) : Option ℕ :=
  (digit c).bind fun d => if (max - d) / base < v then none else some (v * base + d)

/-- The overflow test of `pushDigit` is exact. -/
theorem div_lt_iff_lt_mul_add {d : ℕ} (hb : 0 < base) (hd : d ≤ max) :
    (max - d) / base < v ↔ max < v * base + d := by
  rw [Nat.div_lt_iff_lt_mul hb]
  omega

/-- A string of glyphs is read as its value, if that is within the limit. -/
theorem foldlM_pushDigit (hb : 0 < base) (hd : ∀ c d, digit c = some d → d ≤ max) (hv : v ≤ max)
    (l : List α) : l.foldlM (pushDigit base max digit) v =
      (l.mapM digit).bind fun ds => if numeral base v ds ≤ max then some (numeral base v ds)
        else none := by
  induction l generalizing v with
  | nil => simp [hv]
  | cons c l ih =>
    rw [List.foldlM_cons, List.mapM_cons, pushDigit]
    cases hc : digit c with
    | none => rfl
    | some d =>
      by_cases hlt : max < v * base + d
      · -- The value is over the limit here, and stays over it.
        have h : ∀ ds, ¬numeral base (v * base + d) ds ≤ max := fun ds hle =>
          absurd ((le_numeral hb ds).trans hle) (by omega)
        rw [Option.bind_some, if_pos ((div_lt_iff_lt_mul_add hb (hd c d hc)).2 hlt)]
        cases l.mapM digit with
        | none => rfl
        | some ds => exact (if_neg (h ds)).symm
      · simp only [Option.bind_some, (div_lt_iff_lt_mul_add hb (hd c d hc)).not.2 hlt, if_false,
          Option.bind_eq_bind, ih (Nat.le_of_not_lt hlt)]
        cases l.mapM digit <;> rfl

/-- What the fold over digits gives. -/
theorem foldlM_pushDigit_eq_some {l : List α} {n : ℕ} (hb : 0 < base)
    (hd : ∀ c d, digit c = some d → d ≤ max) (hv : v ≤ max)
    (h : l.foldlM (pushDigit base max digit) v = some n) :
    ∃ ds, l.mapM digit = some ds ∧ numeral base v ds = n ∧ n ≤ max := by
  rw [foldlM_pushDigit hb hd hv] at h
  obtain ⟨ds, hds, h⟩ := Option.bind_eq_some_iff.1 h
  split at h
  · exact ⟨ds, hds, Option.some.inj h, Option.some.inj h ▸ ‹_›⟩
  · cases h

/-! ## Writing -/

variable {f : Char → α}

/-- A number is written with the digits of its base. -/
theorem exists_digitChar_of_mem_toDigits (hb : 1 < base) {n : ℕ} {c : Char}
    (hc : c ∈ Nat.toDigits base n) : ∃ d < base, c = d.digitChar := by
  induction n using Nat.strong_induction_on with
  | _ n ih =>
    rw [Nat.toDigits_eq_if hb] at hc
    split_ifs at hc with hn
    · exact ⟨n, hn, List.mem_singleton.1 hc⟩
    · rcases List.mem_append.1 hc with hc | hc
      · exact ih (n / base) (Nat.div_lt_self (by omega) hb) hc
      · exact ⟨n % base, Nat.mod_lt n (by omega), List.mem_singleton.1 hc⟩

/-- `while (v) { tmp[n++] = glyph[v % base]; v /= base; }`, returning `tmp[0..n)`. -/
def digitLoop (base : ℕ) (glyph : ℕ → α) (v : ℕ) : List α :=
  if 0 < v ∧ 1 < base then glyph (v % base) :: digitLoop base glyph (v / base) else []
termination_by v
decreasing_by exact Nat.div_lt_self (by omega) (by omega)

/-- The loop writes a numeral from its last digit on. -/
theorem reverse_digitLoop (hb : 1 < base) {glyph : ℕ → α} (hg : ∀ d < base, glyph d = f d.digitChar)
    (hv : 0 < v) : (digitLoop base glyph v).reverse = (Nat.toDigits base v).map f := by
  induction v using Nat.strong_induction_on with
  | _ v ih =>
    rw [digitLoop, if_pos ⟨hv, hb⟩, List.reverse_cons, Nat.toDigits_eq_if hb]
    split_ifs with hlt
    · rw [Nat.div_eq_of_lt hlt, Nat.mod_eq_of_lt hlt, digitLoop, if_neg (by omega), hg v hlt]
      rfl
    · rw [ih (v / base) (Nat.div_lt_self hv hb) (Nat.div_pos (Nat.le_of_not_lt hlt) (by omega)),
        hg _ (Nat.mod_lt v (by omega)), List.map_append]
      rfl

/-- A number below `base ^ k` has at most `k` digits. -/
theorem length_toDigits_le (hb : 1 < base) {n k : ℕ} (hk : 0 < k) (hn : n < base ^ k) :
    (Nat.toDigits base n).length ≤ k := by
  induction k generalizing n with
  | zero => omega
  | succ k ih =>
    rw [Nat.toDigits_eq_if hb]
    split_ifs with hlt
    · simp
    · have hk' : 0 < k := by
        rcases Nat.eq_zero_or_pos k with rfl | hk'
        · simp at hn
          omega
        · exact hk'
      have hdiv : n / base < base ^ k := by
        rw [Nat.div_lt_iff_lt_mul (by omega), ← pow_succ]
        exact hn
      simpa using ih hk' hdiv

/-- The digits of a written number. -/
theorem mapM_toDigits (hb : 1 < base) (hf : ∀ d < base, digit (f d.digitChar) = some d) (n : ℕ) :
    ∃ ds, ((Nat.toDigits base n).map f).mapM digit = some ds ∧ numeral base 0 ds = n := by
  induction n using Nat.strong_induction_on with
  | _ n ih =>
    rw [Nat.toDigits_eq_if hb]
    split_ifs with hn
    · exact ⟨[n], by simp [hf n hn], by simp⟩
    · obtain ⟨ds, hds, hv⟩ := ih (n / base) (Nat.div_lt_self (by omega) hb)
      refine ⟨ds ++ [n % base], ?_, ?_⟩
      · simp [List.mapM_append, hds, hf _ (Nat.mod_lt n (by omega : 0 < base))]
      · rw [numeral_append, hv, numeral_cons, numeral_nil, Nat.div_add_mod']

/-- Zeros in front change nothing. -/
theorem mapM_zeros_append_toDigits (hb : 1 < base) (hf : ∀ d < base, digit (f d.digitChar) = some d)
    (k n : ℕ) : ∃ ds, (List.replicate k (f '0') ++ (Nat.toDigits base n).map f).mapM digit =
      some ds ∧ numeral base 0 ds = n := by
  induction k with
  | zero => exact mapM_toDigits hb hf n
  | succ k ih =>
    obtain ⟨ds, hds, hv⟩ := ih
    have h0 : digit (f '0') = some 0 := hf 0 (by omega)
    refine ⟨0 :: ds, ?_, by simpa using hv⟩
    rw [List.replicate_succ, List.cons_append, List.mapM_cons, h0, hds]
    rfl

/-- A written number is read back. -/
theorem foldlM_toDigits (hb : 1 < base) (hd : ∀ c d, digit c = some d → d ≤ max)
    (hf : ∀ d < base, digit (f d.digitChar) = some d) {n : ℕ} (hn : n ≤ max) :
    ((Nat.toDigits base n).map f).foldlM (pushDigit base max digit) 0 = some n := by
  obtain ⟨ds, hds, hv⟩ := mapM_toDigits (f := f) hb hf n
  rw [foldlM_pushDigit (by omega) hd (Nat.zero_le _), hds, Option.bind_some, hv, if_pos hn]

/-- A written number cut short, but not to nothing, has another value. -/
theorem numeral_ne_of_append (hb : 1 < base) (hf : ∀ d < base, digit (f d.digitChar) = some d)
    {n : ℕ} {l m : List α} (h : l ++ m = (Nat.toDigits base n).map f) (hl : l ≠ []) (hm : m ≠ [])
    {ds : List ℕ} (hds : l.mapM digit = some ds) : numeral base 0 ds ≠ n := by
  intro hn
  obtain ⟨es, hes, hv⟩ := mapM_toDigits (f := f) hb hf n
  rw [← h, List.mapM_append, hds] at hes
  obtain ⟨ms, hms, rfl⟩ : ∃ ms, m.mapM digit = some ms ∧ ds ++ ms = es := by
    simpa [Option.bind_eq_some_iff] using hes
  rw [numeral_append, hn] at hv
  -- The rest multiplies the value by `base` at least once, so the value is zero.
  have hlen : 0 < ms.length := by
    rcases ms with _ | ⟨d, ms⟩
    · rcases m with _ | ⟨c, m⟩
      · exact absurd rfl hm
      · simp [List.mapM_cons, Option.bind_eq_some_iff] at hms
    · simp
  have hle : n * base ^ ms.length ≤ numeral base n ms := mul_pow_le_numeral ms
  have hpow : base ≤ base ^ ms.length := Nat.le_self_pow (by omega) base
  have hn0 : n = 0 := by
    by_contra h0
    have := Nat.mul_le_mul_left n hpow
    have : n * 2 ≤ n * base := Nat.mul_le_mul_left n hb
    omega
  have hlen := congrArg List.length h
  rw [hn0, Nat.toDigits_zero, List.length_append] at hlen
  have := List.length_pos_iff.2 hl
  have := List.length_pos_iff.2 hm
  simp only [List.map_cons, List.map_nil, List.length_cons, List.length_nil] at hlen
  omega

/-- A string of digits is the numeral of its value, after some zeros. -/
theorem exists_zeros_append_toDigits (hb : 1 < base)
    (hg : ∀ c d, digit c = some d → d < base ∧ c = f d.digitChar) {l : List α} (hl : l ≠ [])
    {ds : List ℕ} (hds : l.mapM digit = some ds) :
    ∃ k, l = List.replicate k (f '0') ++ (Nat.toDigits base (numeral base 0 ds)).map f := by
  induction l using List.reverseRecOn generalizing ds with
  | nil => exact absurd rfl hl
  | append_singleton l c ih =>
    obtain ⟨es, hes, d, hd, rfl⟩ : ∃ es, l.mapM digit = some es ∧ ∃ d, digit c = some d ∧
        es ++ [d] = ds := by
      simpa [List.mapM_append, List.mapM_cons, Option.bind_eq_some_iff] using hds
    obtain ⟨hdlt, rfl⟩ := hg c d hd
    rw [numeral_append, numeral_cons, numeral_nil]
    rcases List.eq_nil_or_concat' l with rfl | ⟨l', c', hl'⟩
    · obtain rfl : [] = es := by simpa using hes
      exact ⟨0, by simp [Nat.toDigits_of_lt_base hdlt]⟩
    · obtain ⟨k, hk⟩ := ih (by simp [hl']) hes
      rcases Nat.eq_zero_or_pos (numeral base 0 es) with h0 | hpos
      · refine ⟨k + 1, ?_⟩
        rw [hk, h0, Nat.zero_mul, Nat.zero_add, Nat.toDigits_zero, Nat.toDigits_of_lt_base hdlt,
          List.replicate_succ']
        rfl
      · refine ⟨k, ?_⟩
        rw [Nat.mul_comm, ← Nat.toDigits_append_toDigits hb hpos hdlt, List.map_append,
          ← List.append_assoc, ← hk, Nat.toDigits_of_lt_base hdlt]
        rfl

end VpnHide.Lib

import Mathlib.Algebra.Order.Ring.Nat
import Mathlib.Data.List.Basic
import Mathlib.Order.Nat

/-!
# Memory

A memory has cells at the addresses of 64 bits, and some of them cannot be accessed. What is written
at an address lies over the memory like a window: reading within the window reads what has been
written (`read_write`), and writing within it changes the window (`write_write`).
-/

namespace VpnHide.Lib

variable {α : Type*}

/-- What the cells hold that can be accessed. -/
def Memory (α : Type*) : Type _ := UInt64 → Option α

namespace Memory

/-- The `n` cells from an address on. -/
def read (m : Memory α) (a : UInt64) : ℕ → Option (List α)
  | 0 => some []
  | n + 1 => do
    let x ← m a
    let l ← read m (a + 1) n
    some (x :: l)

/-- How many of the `n` cells from an address on can be accessed, before the first that cannot. -/
def accessible (m : Memory α) (a : UInt64) : ℕ → ℕ
  | 0 => 0
  | n + 1 => if (m a).isSome then accessible m (a + 1) n + 1 else 0

/-- The cells from an address on, replaced. -/
def write (m : Memory α) (a : UInt64) (l : List α) : Memory α := fun x => l[(x - a).toNat]?.or (m x)

/-- Copying to an address, up to the first cell that cannot be accessed; and whether all has been
    copied. -/
def copyTo (m : Memory α) (a : UInt64) (l : List α) : Bool × Memory α :=
  (accessible m a l.length = l.length, m.write a (l.take (accessible m a l.length)))

variable {m : Memory α} {a b : UInt64} {l l' : List α} {n off : ℕ}

theorem toNat_offset {i : ℕ} (hi : i < 2 ^ 64) : (a + i.toUInt64 - a).toNat = i := by
  rw [UInt64.add_comm, UInt64.add_sub_cancel]
  exact Nat.mod_eq_of_lt hi

theorem add_sub_offset (a x : UInt64) : a + (x - a).toNat.toUInt64 = x := by
  have h : (x - a).toNat.toUInt64 = x - a := UInt64.ofNat_toNat
  rw [h, UInt64.add_comm, UInt64.sub_add_cancel]

theorem offset_succ (a : UInt64) (i : ℕ) : a + 1 + i.toUInt64 = a + (i + 1).toUInt64 := by
  have h : (i + 1).toUInt64 = 1 + i.toUInt64 := by
    rw [Nat.add_comm]
    exact UInt64.ofNat_add 1 i
  rw [h, UInt64.add_assoc]

/-- What a read gives. -/
theorem read_eq_some_iff :
    m.read a n = some l ↔ l.length = n ∧ ∀ i < n, m (a + i.toUInt64) = l[i]? := by
  induction n generalizing a l with
  | zero =>
    rw [read, Option.some_inj, eq_comm, List.length_eq_zero_iff]
    exact (and_iff_left fun i hi => absurd hi (Nat.not_lt_zero i)).symm
  | succ n ih =>
    have hzero : a + (0 : ℕ).toUInt64 = a := UInt64.add_zero a
    constructor
    · intro h
      obtain ⟨x, hx, h⟩ := Option.bind_eq_some_iff.1 h
      obtain ⟨xs, hxs, h⟩ := Option.bind_eq_some_iff.1 h
      obtain rfl := Option.some.inj h
      obtain ⟨hlen, hcells⟩ := ih.1 hxs
      refine ⟨by rw [List.length_cons, hlen], fun i hi => ?_⟩
      cases i with
      | zero => rw [hzero, hx, List.getElem?_cons_zero]
      | succ i => rw [← offset_succ, hcells i (Nat.lt_of_succ_lt_succ hi), List.getElem?_cons_succ]
    · rintro ⟨hlen, hcells⟩
      cases l with
      | nil => cases hlen
      | cons x xs =>
        have hhead := hcells 0 (Nat.succ_pos n)
        rw [hzero, List.getElem?_cons_zero] at hhead
        have htail : m.read (a + 1) n = some xs := by
          refine ih.2 ⟨Nat.succ.inj hlen, fun i hi => ?_⟩
          rw [offset_succ, hcells (i + 1) (Nat.succ_lt_succ hi), List.getElem?_cons_succ]
        rw [read, hhead, Option.bind_eq_bind, Option.bind_some, htail]
        rfl

theorem accessible_of_read (h : m.read a n = some l) : m.accessible a n = n := by
  induction n generalizing a l with
  | zero => rfl
  | succ n ih =>
    obtain ⟨x, hx, h⟩ := Option.bind_eq_some_iff.1 h
    obtain ⟨xs, hxs, -⟩ := Option.bind_eq_some_iff.1 h
    rw [accessible, hx, ih hxs]
    rfl

/-- All is copied to cells that can be accessed. -/
theorem copyTo_of_read (h : m.read a l.length = some l') : m.copyTo a l = (true, m.write a l) := by
  rw [copyTo, accessible_of_read h, List.take_length, decide_eq_true rfl]

/-- What was written is there. -/
theorem write_offset {i : ℕ} (hi : i < l.length) (hl : l.length < 2 ^ 64) :
    m.write a l (a + i.toUInt64) = l[i]? := by
  rw [write, toNat_offset (hi.trans hl), List.getElem?_eq_getElem hi]
  rfl

/-- What was not written to is as it was. -/
theorem write_outside {x : UInt64} (h : l.length ≤ (x - a).toNat) : m.write a l x = m x := by
  rw [write, List.getElem?_eq_none h]
  rfl

/-- Reading within the window. -/
theorem read_write (hoff : off + n ≤ l.length) (hl : l.length < 2 ^ 64) :
    (m.write a l).read (a + off.toUInt64) n = some ((l.drop off).take n) := by
  refine read_eq_some_iff.2 ⟨?_, fun i hi => ?_⟩
  · rw [List.length_take, List.length_drop]
    omega
  · have hadd : a + off.toUInt64 + i.toUInt64 = a + (off + i).toUInt64 := by
      rw [UInt64.add_assoc]
      exact congrArg (a + ·) (UInt64.ofNat_add off i).symm
    rw [hadd, write_offset (by omega) hl, List.getElem?_take_of_lt hi, List.getElem?_drop]

/-- Reading from the beginning of the window. -/
theorem read_write_start (hn : n ≤ l.length) (hl : l.length < 2 ^ 64) :
    (m.write a l).read a n = some (l.take n) := by
  have h := @read_write _ m a l n 0 ((Nat.zero_add n).trans_le hn) hl
  rwa [show a + (0 : ℕ).toUInt64 = a from UInt64.add_zero a, List.drop_zero] at h

/-- Writing within the window. -/
theorem write_write (hoff : off + l'.length ≤ l.length) (hl : l.length < 2 ^ 64) :
    (m.write a l).write (a + off.toUInt64) l' =
      m.write a (l.take off ++ (l' ++ l.drop (off + l'.length))) := by
  funext x
  have hx := add_sub_offset a x
  have hlt : (x - a).toNat < 2 ^ 64 := (x - a).toNat_lt
  generalize (x - a).toNat = j at hx hlt
  subst hx
  have htake : (l.take off).length = off := List.length_take_of_le (by omega)
  rw [write, write, write, toNat_offset hlt]
  rcases lt_or_ge j off with hj | hj
  · -- Before what is written: the offset from there wraps, beyond its end.
    have hfar : (a + j.toUInt64 - (a + off.toUInt64)).toNat = 2 ^ 64 - off + j := by
      have hoff' : off.toUInt64.toNat = off := Nat.mod_eq_of_lt (by omega)
      have hj' : j.toUInt64.toNat = j := Nat.mod_eq_of_lt hlt
      have ha := a.toNat_lt
      rw [UInt64.toNat_sub, UInt64.toNat_add, UInt64.toNat_add, hoff', hj']
      omega
    rw [hfar, List.getElem?_eq_none (by omega), List.getElem?_append_left (by omega),
      List.getElem?_take_of_lt hj]
    rfl
  · have hnear : (a + j.toUInt64 - (a + off.toUInt64)).toNat = j - off := by
      have hadd : a + j.toUInt64 = a + off.toUInt64 + (j - off).toUInt64 := by
        rw [UInt64.add_assoc]
        refine congrArg (a + ·) ((congrArg Nat.toUInt64 ?_).trans (UInt64.ofNat_add off (j - off)))
        omega
      rw [hadd, toNat_offset (by omega)]
    rw [hnear, List.getElem?_append_right (by omega), htake]
    rcases lt_or_ge (j - off) l'.length with hin | hout
    · rw [List.getElem?_append_left hin, List.getElem?_eq_getElem hin]
      rfl
    · rw [List.getElem?_eq_none hout, List.getElem?_append_right hout, List.getElem?_drop]
      have hindex : off + l'.length + (j - off - l'.length) = j := by omega
      rw [hindex]
      rfl

/-- Writing what is there. -/
theorem write_of_read (h : m.read a n = some l) : m.write a l = m := by
  funext x
  rcases lt_or_ge (x - a).toNat l.length with hin | hout
  · obtain ⟨hlen, hcells⟩ := read_eq_some_iff.1 h
    have hcell := hcells _ (hin.trans_eq hlen)
    rw [add_sub_offset] at hcell
    rw [write, hcell, List.getElem?_eq_getElem hin]
    rfl
  · exact write_outside hout

/-- The `n` cells from `a` on lie outside of the `k` cells from `b` on. -/
def Apart (a : UInt64) (n : ℕ) (b : UInt64) (k : ℕ) : Prop :=
  ∀ i < n, k ≤ (a + i.toUInt64 - b).toNat

instance (a : UInt64) (n : ℕ) (b : UInt64) (k : ℕ) : Decidable (Apart a n b k) :=
  inferInstanceAs (Decidable (∀ i < n, k ≤ (a + i.toUInt64 - b).toNat))

/-- Being apart goes both ways. -/
theorem Apart.symm {k : ℕ} (h : Apart a n b k) (hk : k < 2 ^ 64) : Apart b k a n := by
  intro j hj
  by_contra hlt
  have hle := h _ (not_le.1 hlt)
  rw [add_sub_offset, toNat_offset (hj.trans hk)] at hle
  omega

/-- Reading apart from the window. -/
theorem read_write_of_apart (h : Apart a n b l.length) : (m.write b l).read a n = m.read a n := by
  have hcell : ∀ i < n, m.write b l (a + i.toUInt64) = m (a + i.toUInt64) :=
    fun i hi => write_outside (h i hi)
  refine Option.ext fun l' => ?_
  rw [read_eq_some_iff, read_eq_some_iff]
  refine and_congr_right fun _ => forall₂_congr fun i hi => ?_
  rw [hcell i hi]

/-- Reading within a window, when another has been written apart from it. -/
theorem read_write_write (hoff : off + n ≤ l.length) (hl : l.length < 2 ^ 64)
    (h : Apart a l.length b l'.length) :
    ((m.write a l).write b l').read (a + off.toUInt64) n = some ((l.drop off).take n) := by
  rw [← read_write (m := m) hoff hl]
  refine read_write_of_apart fun i hi => ?_
  have hadd : a + off.toUInt64 + i.toUInt64 = a + (off + i).toUInt64 := by
    rw [UInt64.add_assoc]
    exact congrArg (a + ·) (UInt64.ofNat_add off i).symm
  rw [hadd]
  exact h _ (by omega)

/-- What was written first is still there. -/
theorem read_write_write_start (hn : n ≤ l.length) (hl : l.length < 2 ^ 64)
    (h : Apart a l.length b l'.length) :
    ((m.write a l).write b l').read a n = some (l.take n) := by
  have hread := @read_write_write _ m a b l l' n 0 ((Nat.zero_add n).trans_le hn) hl h
  rwa [show a + (0 : ℕ).toUInt64 = a from UInt64.add_zero a, List.drop_zero] at hread

end Memory

end VpnHide.Lib

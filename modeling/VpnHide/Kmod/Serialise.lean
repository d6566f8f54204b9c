import VpnHide.Kmod.Lexical

/-!
# Writing replies in the kernel

The bounded output cursor of `kmod/shared/vpnhide_logic.h`. It counts every byte that
is put, and stores those within its capacity: after the bytes `l` it is `Buf.of cap l`,
whatever their number, and every function that puts something is an append
(`putHex_of`, `putHeader_of`).
-/

namespace VpnHide.Kmod

open Lib Protocol

/-- The output cursor: the bytes stored, the capacity, and the number of bytes put. -/
structure Buf where
  p : Bytes
  cap : ℕ
  len : ℕ
  deriving DecidableEq

namespace Buf

/-- A character is appended, and counted even where there is no room. -/
def putc (b : Buf) (c : UInt8) : Buf :=
  { b with p := if b.len < b.cap then b.p ++ [c] else b.p, len := b.len + 1 }

/-- A text is appended. -/
def puts (b : Buf) (s : Bytes) : Buf := s.foldl putc b

/-- Putting a number in decimal. -/
def putDec (b : Buf) (v : ℕ) : Buf :=
  if v = 0 then b.putc '0'.toUInt8
  else (digitLoop 10 (fun d => '0'.toUInt8 + d.toUInt8) v).reverse.foldl putc b

/-- Putting a number in lowercase hexadecimal, with its prefix. -/
def putHex (b : Buf) (v : ℕ) : Buf :=
  let b := b.puts (ascii "0x")
  if v = 0 then b.putc '0'.toUInt8
  else (digitLoop 16 (fun d => (ascii "0123456789abcdef")[d]!) v).reverse.foldl putc b

/-- The line that a reply begins with. -/
def putHeader (b : Buf) (kind : Bytes) (version : ℕ) : Buf :=
  ((((b.puts (ascii "vpnhide ")).putDec version).putc ' '.toUInt8).puts kind).putc '\n'.toUInt8

/-- The cursor after the bytes `l` have been put. -/
def of (cap : ℕ) (l : Bytes) : Buf := ⟨l.take cap, cap, l.length⟩

variable (cap : ℕ) (l : Bytes)

@[simp] theorem of_len : (of cap l).len = l.length := rfl

@[simp] theorem putc_of (c : UInt8) : (of cap l).putc c = of cap (l ++ [c]) := by
  rw [putc, of]
  dsimp only
  split_ifs with h
  · rw [of, List.take_of_length_le h.le,
      List.take_of_length_le (by simpa using Nat.succ_le_of_lt h)]
    simp
  · rw [of, List.take_append_of_le_length (not_lt.1 h)]
    simp

/-- Writing a string to a buffer whose text is known. -/
@[simp] theorem puts_of (s : Bytes) : (of cap l).puts s = of cap (l ++ s) := by
  rw [puts]
  induction s generalizing l with
  | nil => simp
  | cons c s ih => rw [List.foldl_cons, putc_of, ih, List.append_assoc, List.singleton_append]

/-- Writing a decimal number. -/
@[simp] theorem putDec_of (v : ℕ) :
    (of cap l).putDec v = of cap (l ++ (Nat.toDigits 10 v).map Char.toUInt8) := by
  rw [putDec]
  split_ifs with hv
  · subst hv
    rw [putc_of]
    rfl
  · rw [reverse_digitLoop (f := Char.toUInt8) (by decide) (by decide) (Nat.pos_of_ne_zero hv)]
    exact puts_of cap l _

/-- Writing a hexadecimal number. -/
@[simp] theorem putHex_of (v : ℕ) : (of cap l).putHex v = of cap (l ++ ascii "0x" ++ hex v) := by
  rw [putHex, puts_of]
  split_ifs with hv
  · subst hv
    rw [putc_of]
    rfl
  · rw [reverse_digitLoop (f := Char.toUInt8) (by decide) (by decide) (Nat.pos_of_ne_zero hv)]
    exact puts_of cap _ _

/-- Writing the header of a block. -/
@[simp] theorem putHeader_of (kind : Bytes) (version : ℕ) : (of cap l).putHeader kind version =
    of cap (l ++ (ascii "vpnhide " ++ (Nat.toDigits 10 version).map Char.toUInt8 ++ ascii " " ++
      kind ++ ascii "\n")) := by
  simp only [putHeader, puts_of, putDec_of, putc_of, List.append_assoc]
  rfl

end Buf

end VpnHide.Kmod

import Mathlib.Data.Nat.Digits.Lemmas
import VpnHide.Lib.Records
import VpnHide.Lib.Str
import VpnHide.Protocol.Lexical

/-!
# Reading a range of a file

`bytes`, `number` and `string` of `artifact-model/src/elf.rs`: every access to a file, or to
a section of it, goes through one of them. A range is checked against the end of the file
before it is read. Offsets and lengths are `u64`, indices are `usize`, of 32 bits or of 64.

What a read gives is said once (`bytes_eq_ok`, `number_eq_ok`); and whatever is asked for,
a read never panics (`calm_bytes`, `calm_number`).
-/

namespace VpnHide.Artifact

open Lib

/-- The width of `usize`. -/
inductive Width
  | w32
  | w64
  deriving DecidableEq

/-- The bits of `usize`. -/
def Width.bits : Width → ℕ
  | w32 => 32
  | w64 => 64

/-- What ends a check early. -/
inductive Fault
  | invalid (message : String)
  /-- An error of a conversion in the standard library, passed on. -/
  | conversion
  /-- An arithmetic overflow, or an index out of range. -/
  | panic
  deriving DecidableEq

/-- `a.checked_add(b)` on words of `bits` bits. -/
def checkedAdd (bits a b : ℕ) : Option ℕ := if a + b < 2 ^ bits then some (a + b) else none

/-- `a.checked_mul(b)`. -/
def checkedMul (bits a b : ℕ) : Option ℕ := if a * b < 2 ^ bits then some (a * b) else none

/-- `a + b` on `u64`: an overflow is not caught. -/
def add64 (a b : ℕ) : Except Fault ℕ := okOr .panic (checkedAdd 64 a b)

/-- `a * b` on `u64`. -/
def mul64 (a b : ℕ) : Except Fault ℕ := okOr .panic (checkedMul 64 a b)

section Read

variable (width : Width)

/-- `usize::try_from`. -/
def toUsize (n : ℕ) : Except Fault ℕ := if n < 2 ^ width.bits then .ok n else .error .conversion

/-- The bytes of a range, if it is within the data. -/
def bytes (data : Bytes) (offset len : ℕ) : Except Fault Bytes := do
  let stop ← okOr (.invalid "ELF range overflow") (checkedAdd 64 offset len)
  let start ← toUsize width offset
  let stop ← toUsize width stop
  okOr (.invalid "ELF range outside file") (getRange data start (stop - start))

/-- `u64::from_le_bytes`, of bytes that are padded with zeros. -/
def fromLe (value : Bytes) : ℕ := Nat.ofDigits 256 (value.map UInt8.toNat)

/-- The number in a range, of at most eight bytes. -/
def number (data : Bytes) (offset len : ℕ) : Except Fault ℕ := do
  let value ← bytes width data offset len
  if value.length ≤ 8 then .ok (fromLe value) else .error .panic

/-- A C string. What is ASCII is UTF-8. -/
def string (data : Bytes) (offset : ℕ) : Except Fault Bytes := do
  let start ← toUsize width offset
  if data.length < start then .error (.invalid "ELF string offset")
  else
    let data := (data.drop start).take 257
    if 0 ∈ data then
      let value := data.takeWhile (· != 0)
      if value.all (· < 128) then .ok value
      else if (Str.fromUtf8 value).isSome then .error (.invalid "non-ASCII ELF metadata")
      else .error .conversion
    else .error (.invalid "unterminated ELF string")

end Read

/-! ## What a read gives -/

variable {width : Width} {data : Bytes} {offset len : ℕ}

theorem Width.bits_le (width : Width) : width.bits ≤ 64 := by
  cases width <;> decide

/-- What fits `usize`. -/
theorem toUsize_eq_ok {n m : ℕ} : toUsize width n = .ok m ↔ n < 2 ^ width.bits ∧ m = n := by
  rw [toUsize]
  split_ifs with h <;> simp [h, eq_comm]

/-- When a sum is not refused. -/
theorem checkedAdd_eq_some {bits a b c : ℕ} :
    checkedAdd bits a b = some c ↔ a + b < 2 ^ bits ∧ c = a + b := by
  rw [checkedAdd]
  split_ifs with h <;> simp [h, eq_comm]

/-- When a product is not refused. -/
theorem checkedMul_eq_some {bits a b c : ℕ} :
    checkedMul bits a b = some c ↔ a * b < 2 ^ bits ∧ c = a * b := by
  rw [checkedMul]
  split_ifs with h <;> simp [h, eq_comm]

/-- A read gives the bytes of the range, which lies within the file. -/
theorem bytes_eq_ok {value : Bytes} :
    bytes width data offset len = .ok value ↔
      offset + len < 2 ^ width.bits ∧ offset + len ≤ data.length ∧
        value = (data.drop offset).take len := by
  have hpow : 2 ^ width.bits ≤ 2 ^ 64 := Nat.pow_le_pow_right (by decide) width.bits_le
  by_cases hfit : offset + len < 2 ^ width.bits
  · have hadd : checkedAdd 64 offset len = some (offset + len) :=
      checkedAdd_eq_some.2 ⟨by omega, rfl⟩
    have hstart : toUsize width offset = .ok offset := toUsize_eq_ok.2 ⟨by omega, rfl⟩
    have hstop : toUsize width (offset + len) = .ok (offset + len) := toUsize_eq_ok.2 ⟨hfit, rfl⟩
    have hread :
        bytes width data offset len = okOr (.invalid "ELF range outside file")
          (getRange data offset len) := by
      simp only [bytes, hadd, okOr, hstart, hstop, bind, Except.bind, Nat.add_sub_cancel_left]
    rw [hread, getRange]
    split_ifs with hin <;> simp [okOr, hfit, hin, eq_comm]
  · refine iff_of_false (fun h => ?_) fun h => hfit h.1
    obtain ⟨stop, hstop, h⟩ := ok_of_bind h
    obtain ⟨-, rfl⟩ := checkedAdd_eq_some.1 (okOr_eq_ok hstop)
    obtain ⟨start, -, h⟩ := ok_of_bind h
    obtain ⟨stop, hstop, -⟩ := ok_of_bind h
    exact hfit (toUsize_eq_ok.1 hstop).1

/-- When a number is read, and which. -/
theorem number_eq_ok (hlen : len ≤ 8) {n : ℕ} :
    number width data offset len = .ok n ↔
      offset + len < 2 ^ width.bits ∧ offset + len ≤ data.length ∧
        n = fromLe ((data.drop offset).take len) := by
  constructor
  · intro h
    obtain ⟨value, hvalue, h⟩ := ok_of_bind h
    obtain ⟨hfit, hin, rfl⟩ := bytes_eq_ok.1 hvalue
    split_ifs at h
    exact ⟨hfit, hin, (Except.ok.inj h).symm⟩
  · rintro ⟨hfit, hin, rfl⟩
    have hshort : ((data.drop offset).take len).length ≤ 8 := (List.length_take_le _ _).trans hlen
    rw [number, bytes_eq_ok.2 ⟨hfit, hin, rfl⟩]
    exact if_pos hshort

/-! ### No panics -/

/-- What does not panic. -/
def Calm {α : Type} (x : Except Fault α) : Prop := x ≠ .error .panic

section Calm

variable {α β : Type} {x : Except Fault α}

theorem calm_ok (a : α) : Calm (.ok a : Except Fault α) := nofun

theorem calm_invalid (message : String) : Calm (.error (.invalid message) : Except Fault α) := nofun

theorem calm_conversion : Calm (.error .conversion : Except Fault α) := nofun

/-- What runs one after the other without a panic does not panic. -/
theorem Calm.bind {f : α → Except Fault β} (hx : Calm x) (hf : ∀ a, x = .ok a → Calm (f a)) :
    Calm (x >>= f) := by
  cases x with
  | error e => exact fun h => hx (congrArg Except.error (Except.error.inj h))
  | ok a => exact hf a rfl

theorem calm_okOr {o : Option α} {message : String} : Calm (okOr (.invalid message) o) := by
  cases o with
  | none => exact calm_invalid message
  | some a => exact calm_ok a

end Calm

theorem calm_toUsize (n : ℕ) : Calm (toUsize width n) := by
  rw [toUsize]
  split_ifs
  · exact calm_ok n
  · exact calm_conversion

/-- Bytes are read without a panic. -/
theorem calm_bytes : Calm (bytes width data offset len) :=
  calm_okOr.bind fun _ _ => (calm_toUsize _).bind fun _ _ =>
    (calm_toUsize _).bind fun _ _ => calm_okOr

/-- A number of more than eight bytes would not fit. -/
theorem calm_number (hlen : len ≤ 8) : Calm (number width data offset len) := by
  refine calm_bytes.bind fun value hvalue => ?_
  obtain ⟨-, -, rfl⟩ := bytes_eq_ok.1 hvalue
  rw [if_pos ((List.length_take_le _ _).trans hlen)]
  exact calm_ok _

theorem add64_eq_ok {a b : ℕ} (h : a + b < 2 ^ 64) : add64 a b = .ok (a + b) := by
  rw [add64, checkedAdd, if_pos h, okOr]

/-- A number is below what its bytes can hold. -/
theorem fromLe_lt (value : Bytes) : fromLe value < 256 ^ value.length := by
  have h := Nat.ofDigits_lt_base_pow_length (b := 256) (by decide) (l := value.map UInt8.toNat)
    fun d hd => by
    obtain ⟨b, -, rfl⟩ := List.mem_map.1 hd
    exact b.toNat_lt
  rwa [List.length_map] at h

/-- The same of a number that is read. -/
theorem number_lt (hlen : len ≤ 8) {n : ℕ} (h : number width data offset len = .ok n) :
    n < 256 ^ len := by
  obtain ⟨-, hin, rfl⟩ := (number_eq_ok hlen).1 h
  have hlt := fromLe_lt ((data.drop offset).take len)
  rwa [List.length_take_of_le (by rw [List.length_drop]; omega)] at hlt

end VpnHide.Artifact

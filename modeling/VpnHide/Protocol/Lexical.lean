import VpnHide.Lib.Radix
import VpnHide.Lib.Split

/-!
# The lexical core of the wire format

The Rust crate `protocol` (`crates/protocol/src/lib.rs`): a payload is a list of
bytes, cut into lines (a trailing CR is dropped), and a line into tokens between
blanks. A line is *significant* when it carries a token and is neither a comment
nor, anywhere, non-ASCII. The first line that is not ignorable must be the header
`vpnhide <version> <kind>`, whose version is fixed by its kind.

* `lines_cons`, `tokens_cons`: how a text written line by line, token by token, is
  read back;
* `parseHexBare_hex`: so are the numbers of the wire.
-/

namespace VpnHide

open Lib

/-- A byte string. -/
abbrev Bytes := List UInt8

/-- The bytes of an ASCII literal. -/
def ascii (s : String) : Bytes := s.toList.map Char.toUInt8

/-- A number in lowercase hexadecimal, `{:x}`. -/
def hex (n : ℕ) : Bytes := (Nat.toDigits 16 n).map Char.toUInt8

namespace Protocol

/-! ## Versions and kinds -/

/-- The version of the control protocol, the `config` payload. -/
def controlVersion : ℕ := 2

/-- The version of the telemetry protocol, the `stats` and `status` payloads. -/
def telemetryVersion : ℕ := 1

/-- The kinds of payloads. -/
inductive Kind
  | config
  | stats
  | status
  deriving DecidableEq

/-- The version read for a kind. -/
def currentVersion : Kind → ℕ
  | .config => controlVersion
  | .stats | .status => telemetryVersion

/-! ## Lines and tokens -/

/-- The blanks between tokens. -/
def isSep (b : UInt8) : Bool := b == ' '.toUInt8 || b == '\t'.toUInt8

/-- A printable character. -/
def isAsciiPrintable (b : UInt8) : Bool := 0x20 ≤ b && b ≤ 0x7e

/-- A line without its trailing CR. -/
def stripCr (line : Bytes) : Bytes :=
  if line.getLast? = some '\r'.toUInt8 then line.dropLast else line

/-- The line that `buf` starts with, and what follows its newline. -/
def nextLine (buf : Bytes) : Bytes × Bytes :=
  let line := buf.takeWhile (· != '\n'.toUInt8)
  (stripCr line, buf.drop (line.length + 1))

/-- A line that was taken leaves less. -/
theorem length_nextLine_lt {buf : Bytes} (h : buf ≠ []) : (nextLine buf).2.length < buf.length := by
  have := List.length_pos_iff.2 h
  simp only [nextLine, List.length_drop]
  omega

/-- The lines of `buf`. -/
def lines (buf : Bytes) : List Bytes :=
  if buf = [] then [] else (nextLine buf).1 :: lines (nextLine buf).2
termination_by buf.length
decreasing_by exact length_nextLine_lt ‹_›

/-- A significant line, from its first token on. -/
def significant (line : Bytes) : Option Bytes :=
  if line.any fun b => !isAsciiPrintable b && b != '\t'.toUInt8 then none
  else match line.dropWhile isSep with
    | [] => none
    | c :: rest => if c = '#'.toUInt8 then none else some (c :: rest)

/-- A line that may precede the header: blank, or a comment. -/
def isIgnorable (line : Bytes) : Bool :=
  match line.dropWhile isSep with
  | [] => true
  | c :: _ => c == '#'.toUInt8

/-- The tokens of a line. -/
def tokens (line : Bytes) : List Bytes := fields isSep line

/-! ## Numbers -/

/-- The value of a hexadecimal digit, of either case. -/
def hexDigit (c : UInt8) : Option ℕ :=
  if '0'.toUInt8 ≤ c ∧ c ≤ '9'.toUInt8 then some (c - '0'.toUInt8).toNat
  else if 'a'.toUInt8 ≤ c ∧ c ≤ 'f'.toUInt8 then some (c - 'a'.toUInt8 + 10).toNat
  else if 'A'.toUInt8 ≤ c ∧ c ≤ 'F'.toUInt8 then some (c - 'A'.toUInt8 + 10).toNat
  else none

/-- The largest value of a field of `bits` bits: there are two widths. -/
def maxOfBits (bits : ℕ) : ℕ := if 64 ≤ bits then 0xffffffffffffffff else 0xffffffff

/-- A bare hexadecimal number, within `bits` bits. -/
def parseHexBare (tok : Bytes) (bits : ℕ) : Option ℕ :=
  if tok = [] then none else tok.foldlM (pushDigit 16 (maxOfBits bits) hexDigit) 0

/-- `n` as a `u32`, unless it overflows. -/
def checkedU32 (n : ℕ) : Option ℕ := if n ≤ 0xffffffff then some n else none

/-- The value of a decimal digit. -/
def decDigit (c : UInt8) : Option ℕ :=
  if '0'.toUInt8 ≤ c ∧ c ≤ '9'.toUInt8 then some (c - '0'.toUInt8).toNat else none

/-- A decimal number within `u32`, such as the version of the header. -/
def parseDecimal (tok : Bytes) : Option ℕ :=
  if tok = [] then none
  else tok.foldlM (fun v c => do
    let d ← decDigit c
    let m ← checkedU32 (v * 10)
    checkedU32 (m + d)) 0

/-! ## The header -/

/-- The kind named by a token of the header. -/
def kindOf (tok : Bytes) : Option Kind :=
  if tok = ascii "config" then some .config
  else if tok = ascii "stats" then some .stats
  else if tok = ascii "status" then some .status
  else none

/-- The kind of a payload, from the content of its header line. -/
def headerKind (content : Bytes) : Option Kind := do
  let it := tokens content
  guard (it[0]? = some (ascii "vpnhide"))
  let ver ← it[1]? >>= parseDecimal
  let kind ← it[2]? >>= kindOf
  guard (ver = currentVersion kind)
  return kind

/-- The kind of a payload, and what follows its header. -/
def parseHeader (buf : Bytes) : Option (Kind × Bytes) :=
  if buf = [] then none
  else if isIgnorable (nextLine buf).1 then parseHeader (nextLine buf).2
  else do
    let content ← significant (nextLine buf).1
    let kind ← headerKind content
    return (kind, (nextLine buf).2)
termination_by buf.length
decreasing_by exact length_nextLine_lt ‹_›

/-- The kind of a payload. -/
def peekKind (buf : Bytes) : Option Kind := (parseHeader buf).map (·.1)

/-! ## Writing lines -/

/-- A token: it is not empty, and made of graphic ASCII bytes. -/
def IsToken (w : Bytes) : Prop := w ≠ [] ∧ ∀ c ∈ w, 0x21 ≤ c ∧ c ≤ 0x7e

instance (w : Bytes) : Decidable (IsToken w) := inferInstanceAs (Decidable (_ ∧ _))

/-- The line of the tokens `w :: ws`, one blank apart. -/
def words (w : Bytes) (ws : List Bytes) : Bytes := w ++ ws.flatMap (' '.toUInt8 :: ·)

/-- A byte of a line of tokens. -/
def IsLineByte (c : UInt8) : Prop := 0x20 ≤ c ∧ c ≤ 0x7e

section LineBytes

variable {c : UInt8}

theorem IsLineByte.isAsciiPrintable (h : IsLineByte c) : isAsciiPrintable c = true := by
  simp [Protocol.isAsciiPrintable, h.1, h.2]

theorem IsLineByte.ne_newline (h : IsLineByte c) : c ≠ '\n'.toUInt8 := by
  rintro rfl
  exact absurd h.1 (by decide)

theorem IsLineByte.ne_cr (h : IsLineByte c) : c ≠ '\r'.toUInt8 := by
  rintro rfl
  exact absurd h.1 (by decide)

/-- What is above the blank separates nothing. -/
theorem isSep_eq_false (h : 0x21 ≤ c) : isSep c = false := by
  rw [isSep, Bool.or_eq_false_iff]
  refine ⟨beq_eq_false_iff_ne.2 ?_, beq_eq_false_iff_ne.2 ?_⟩ <;>
    (rintro rfl; exact absurd h (by decide))

end LineBytes

theorem IsToken.isLineByte {w : Bytes} (hw : IsToken w) {c : UInt8} (hc : c ∈ w) : IsLineByte c :=
  ⟨UInt8.le_trans (by decide : 0x20 ≤ 0x21) (hw.2 c hc).1, (hw.2 c hc).2⟩

theorem IsToken.isSep {w : Bytes} (hw : IsToken w) : ∀ c ∈ w, isSep c = false :=
  fun c hc => isSep_eq_false (hw.2 c hc).1

theorem IsToken.append_left {v w : Bytes} (hw : IsToken w) (hv : IsToken v) : IsToken (v ++ w) :=
  ⟨by simp [hv.1], fun c hc => (List.mem_append.1 hc).elim (hv.2 c) (hw.2 c)⟩

variable {w : Bytes} {ws : List Bytes}

/-- Every byte of some words is one that a line may have. -/
theorem isLineByte_of_mem_words (hw : IsToken w) (hws : ∀ v ∈ ws, IsToken v) {c : UInt8}
    (hc : c ∈ words w ws) : IsLineByte c := by
  rcases List.mem_append.1 hc with hc | hc
  · exact hw.isLineByte hc
  · obtain ⟨v, hv, hc⟩ := List.mem_flatMap.1 hc
    rcases List.mem_cons.1 hc with rfl | hc
    · exact ⟨by decide, by decide⟩
    · exact (hws v hv).isLineByte hc

/-- A line of tokens is read token by token. -/
theorem tokens_words (hw : IsToken w) (hws : ∀ v ∈ ws, IsToken v) : tokens (words w ws) = w :: ws :=
  fields_words rfl hw.isSep hw.1 fun v hv => ⟨(hws v hv).1, (hws v hv).isSep⟩

/-- Nothing is dropped before a word. -/
theorem dropWhile_isSep_of_head {l : Bytes} (h : ∀ c ∈ l.head?, 0x21 ≤ c) :
    l.dropWhile isSep = l := by
  cases l with
  | nil => rfl
  | cons c l => rw [List.dropWhile_cons, if_neg (by simp [isSep_eq_false (h c rfl)])]

/-- A line that starts with a graphic byte other than `#`, and has only bytes of
    lines, is significant. -/
theorem significant_of_head {l : Bytes} (hl : ∀ c ∈ l, IsLineByte c)
    {c : UInt8} (hc : l.head? = some c) (h₁ : 0x21 ≤ c) (h₂ : c ≠ '#'.toUInt8) :
    significant l = some l ∧ isIgnorable l = false := by
  obtain ⟨l, rfl⟩ : ∃ t, l = c :: t := List.head?_eq_some_iff.1 hc
  have hany : ((c :: l).any fun b => !isAsciiPrintable b && b != '\t'.toUInt8) = false := by
    rw [List.any_eq_false]
    intro b hb
    simp [(hl b hb).isAsciiPrintable]
  have hd : (c :: l).dropWhile isSep = c :: l := dropWhile_isSep_of_head (by simpa using h₁)
  exact ⟨by simp [significant, hany, hd, h₂], by simp [isIgnorable, hd, h₂]⟩

/-- Words that do not start a comment are significant. -/
theorem significant_words (hw : IsToken w) (hws : ∀ v ∈ ws, IsToken v)
    (h : w.head? ≠ some '#'.toUInt8) :
    significant (words w ws) = some (words w ws) ∧ isIgnorable (words w ws) = false := by
  obtain ⟨c, t, rfl⟩ := List.exists_cons_of_ne_nil hw.1
  exact significant_of_head (fun _ => isLineByte_of_mem_words hw hws) rfl
    (hw.2 c List.mem_cons_self).1 (by simpa using h)

/-! ## Writing texts -/

/-- A printed line has no carriage return to strip. -/
theorem stripCr_eq {l : Bytes} (hl : ∀ c ∈ l, IsLineByte c) : stripCr l = l := by
  rw [stripCr, if_neg]
  intro h
  exact (hl _ (List.mem_of_getLast? h)).ne_cr rfl

/-- The first line of a text ends at its newline. -/
theorem nextLine_append {l : Bytes} (hl : ∀ c ∈ l, IsLineByte c) (rest : Bytes) :
    nextLine (l ++ '\n'.toUInt8 :: rest) = (l, rest) := by
  have ht : (l ++ '\n'.toUInt8 :: rest).takeWhile (· != '\n'.toUInt8) = l := by
    rw [List.takeWhile_append_of_pos fun c hc => by simpa using (hl c hc).ne_newline]
    simp
  simp only [nextLine, ht, stripCr_eq hl]
  rw [← List.drop_drop, List.drop_left]
  rfl

/-- The last line of a text may lack its newline. -/
theorem nextLine_eq {l : Bytes} (hl : ∀ c ∈ l, IsLineByte c) : nextLine l = (l, []) := by
  have ht : l.takeWhile (· != '\n'.toUInt8) = l :=
    List.takeWhile_eq_self_iff.2 fun c hc => by simpa using (hl c hc).ne_newline
  simp [nextLine, ht, stripCr_eq hl]

@[simp] theorem lines_nil : lines [] = [] := by simp [lines]

/-- The first of several lines. -/
theorem lines_cons {l : Bytes} (hl : ∀ c ∈ l, IsLineByte c) (rest : Bytes) :
    lines (l ++ '\n'.toUInt8 :: rest) = l :: lines rest := by
  rw [lines, if_neg (by simp), nextLine_append hl]

/-- The last line, without its end. -/
theorem lines_eq_singleton {l : Bytes} (hl : ∀ c ∈ l, IsLineByte c) (hne : l ≠ []) :
    lines l = [l] := by
  rw [lines, if_neg hne, nextLine_eq hl, lines_nil]

/-! ## Writing numbers -/

theorem le_maxOfBits (bits : ℕ) : 0xffffffff ≤ maxOfBits bits := by
  rw [maxOfBits]
  split_ifs <;> decide

/-- A hexadecimal digit is in range. -/
theorem hexDigit_le {c : UInt8} {d : ℕ} (h : hexDigit c = some d) (bits : ℕ) :
    d ≤ maxOfBits bits := by
  refine le_trans ?_ (le_maxOfBits bits)
  rw [hexDigit] at h
  split_ifs at h <;> obtain rfl :=
    Option.some.inj h <;> exact (UInt8.toNat_lt _).le.trans (by decide)

/-- A digit that was printed is read back. -/
theorem hexDigit_digitChar : ∀ d < 16, hexDigit (Nat.digitChar d).toUInt8 = some d := by decide

/-- A number within its width is read back. -/
theorem parseHexBare_hex {n bits : ℕ} (hn : n ≤ maxOfBits bits) :
    parseHexBare (hex n) bits = some n := by
  rw [parseHexBare, if_neg (by simp [hex])]
  exact foldlM_toDigits (f := Char.toUInt8) (by decide) (fun _ _ h => hexDigit_le h bits)
    hexDigit_digitChar hn

theorem decDigit_le {c : UInt8} {d : ℕ} (h : decDigit c = some d) : d ≤ 0xff := by
  rw [decDigit] at h
  split_ifs at h
  obtain rfl := Option.some.inj h
  exact Nat.le_of_lt_succ (UInt8.toNat_lt _)

/-- The checked operations refuse a decimal over `u32`. -/
theorem parseDecimal_eq (tok : Bytes) : parseDecimal tok =
    if tok = [] then none else tok.foldlM (pushDigit 10 0xffffffff decDigit) 0 := by
  rw [parseDecimal]
  congr 2
  funext v c
  rw [pushDigit, Option.bind_eq_bind]
  cases h : decDigit c with
  | none => rfl
  | some d =>
    have hd := decDigit_le h
    have htest : (0xffffffff - d) / 10 < v ↔ 0xffffffff < v * 10 + d :=
      div_lt_iff_lt_mul_add (by decide) (hd.trans (by decide))
    simp only [Option.bind_some, checkedU32, htest]
    split_ifs <;> simp <;> omega

/-- A printed number is a token. -/
theorem isToken_hex (n : ℕ) : IsToken (hex n) := by
  refine ⟨by simp [hex], fun c hc => ?_⟩
  obtain ⟨g, hg, rfl⟩ := List.mem_map.1 hc
  obtain ⟨d, hd, rfl⟩ := exists_digitChar_of_mem_toDigits (by decide) hg
  have : ∀ d < 16, 0x21 ≤ (Nat.digitChar d).toUInt8 ∧ (Nat.digitChar d).toUInt8 ≤ 0x7e := by decide
  exact this d hd

end Protocol

end VpnHide

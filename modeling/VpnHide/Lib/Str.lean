import Mathlib.Data.List.DropRight
import VpnHide.Lib.Radix
import VpnHide.Lib.Split

/-!
# Strings

The string functions of Rust's standard library, on lists of characters: UTF-8,
`lines`, `trim`, `split_whitespace`, `split_once`, `strip_prefix` and
`from_str_radix`.

A text made of *words* (runs of graphic ASCII), one blank apart and one line after
another, is read back: `lines_cons`, `trim_words`, `splitWhitespace_words`,
`fromStrRadix_toDigits`.
-/

namespace VpnHide.Lib

/-- A string. -/
abbrev Str := List Char

/-- `Option::ok_or`. -/
def okOr {ε α : Type*} (e : ε) : Option α → Except ε α
  | none => .error e
  | some a => .ok a

theorem okOr_eq_ok {ε α : Type*} {e : ε} {x : Option α} {a : α} (h : okOr e x = .ok a) :
    x = some a := by
  cases x with
  | none => cases h
  | some b => exact congrArg some (Except.ok.inj h)

/-- If both succeed, the first one did. -/
theorem ok_of_bind {ε α β : Type} {x : Except ε α} {f : α → Except ε β} {b : β}
    (h : x >>= f = .ok b) :
    ∃ a, x = .ok a ∧ f a = .ok b := by
  cases x with
  | error e => cases h
  | ok a => exact ⟨a, rfl, h⟩

/-- When both succeed. -/
theorem bind_eq_ok_iff {ε α β : Type} {x : Except ε α} {f : α → Except ε β} {b : β} :
    x >>= f = .ok b ↔ ∃ a, x = .ok a ∧ f a = .ok b :=
  ⟨ok_of_bind, fun ⟨a, hx, hf⟩ => by rw [hx]; exact hf⟩

/-- A check that ends early. -/
theorem ite_error_eq_ok_iff {ε α : Type} {c : Prop} [Decidable c] {e : ε} {x : Except ε α} {a : α} :
    (if c then .error e else x) = .ok a ↔ ¬c ∧ x = .ok a := by
  split_ifs with h
  · exact iff_of_false nofun fun hx => hx.1 h
  · exact (and_iff_right h).symm

theorem okOr_eq_ok_iff {ε α : Type} {e : ε} {x : Option α} {a : α} :
    okOr e x = .ok a ↔ x = some a :=
  ⟨okOr_eq_ok, fun h => by rw [h]; rfl⟩

/-- A loop whose turns succeed. -/
theorem forM_eq_ok {ε α : Type} {f : α → Except ε Unit} {l : List α} (h : ∀ a ∈ l, f a = .ok ()) :
    l.forM f = .ok () := by
  induction l with
  | nil => rfl
  | cons a l ih =>
    change (f a >>= fun _ => l.forM f) = _
    rw [h a List.mem_cons_self]
    exact ih fun b hb => h b (List.mem_cons_of_mem a hb)

/-- The turns of a loop that succeeded. -/
theorem forM_ok {ε α : Type} {f : α → Except ε Unit} {l : List α} (h : l.forM f = .ok ())
    {a : α} (ha : a ∈ l) :
    f a = .ok () := by
  induction l with
  | nil => cases ha
  | cons b l ih =>
    obtain ⟨_, hb, hl⟩ := ok_of_bind h
    obtain rfl | ha := List.mem_cons.1 ha
    · exact hb
    · exact ih hl ha

namespace Str

/-! ## UTF-8 -/

/-- `as_bytes`. -/
def toUtf8 (s : Str) : List UInt8 := s.flatMap String.utf8EncodeChar

/-- `from_utf8`. -/
def fromUtf8 (b : List UInt8) : Option Str := b.toByteArray.utf8Decode?.map Array.toList

/-- A text is read back from its bytes. -/
theorem fromUtf8_toUtf8 (s : Str) : fromUtf8 (toUtf8 s) = some s := by
  have h : (toUtf8 s).toByteArray = s.utf8Encode := rfl
  rw [fromUtf8, h, List.utf8Decode?_utf8Encode]
  simp

theorem toUtf8_injective : Function.Injective toUtf8 := by
  intro s t h
  have hs := fromUtf8_toUtf8 s
  rw [h, fromUtf8_toUtf8] at hs
  exact (Option.some.inj hs).symm

/-- Bytes that are decoded are those of the string. -/
theorem toUtf8_of_fromUtf8 {b : List UInt8} {s : Str} (h : fromUtf8 b = some s) : toUtf8 s = b := by
  obtain ⟨cs, hcs, rfl⟩ := Option.map_eq_some_iff.1 h
  have hsome : (b.toByteArray.utf8Decode?).isSome := by rw [hcs]; rfl
  have henc : ((b.toByteArray.utf8Decode?).get hsome).toList.utf8Encode = b.toByteArray :=
    ByteArray.utf8Encode_get_utf8Decode?
  have hget : (b.toByteArray.utf8Decode?).get hsome = cs := by simp [hcs]
  rw [hget] at henc
  have hdata : (toUtf8 cs.toList).toByteArray = b.toByteArray := henc
  exact List.toByteArray_inj.1 hdata

/-- An ASCII string is encoded character by character. -/
theorem toUtf8_eq_map {s : Str} (hs : ∀ c ∈ s, c.toNat < 128) : toUtf8 s = s.map Char.toUInt8 := by
  induction s with
  | nil => rfl
  | cons c s ih =>
    have hc : c.utf8Size = 1 := Char.utf8Size_eq_one_iff.2
      (UInt32.le_iff_toNat_le.2 (Nat.le_of_lt_succ (hs c List.mem_cons_self)))
    rw [toUtf8, List.flatMap_cons, String.utf8EncodeChar_eq_singleton hc]
    exact congrArg (c.toUInt8 :: ·) (ih fun d hd => hs d (List.mem_cons_of_mem _ hd))

theorem toUtf8_append (s t : Str) : toUtf8 (s ++ t) = toUtf8 s ++ toUtf8 t := List.flatMap_append

/-- A character takes four bytes at most. -/
theorem length_toUtf8_le (s : Str) : (toUtf8 s).length ≤ 4 * s.length := by
  induction s with
  | nil => exact le_rfl
  | cons c s ih =>
    have hsize : (String.utf8EncodeChar c).length ≤ 4 := by
      rw [String.length_utf8EncodeChar]
      exact Char.utf8Size_le_four c
    rw [toUtf8, List.flatMap_cons, List.length_append, List.length_cons]
    rw [toUtf8] at ih
    omega

/-- The byte of a character that fits in one. -/
theorem toNat_toUInt8 {c : Char} (hc : c.toNat < 256) : c.toUInt8.toNat = c.toNat := by
  rw [Char.toUInt8, UInt32.toNat_toUInt8]
  exact Nat.mod_eq_of_lt hc

theorem toUInt8_inj {c d : Char} (hc : c.toNat < 256) (hd : d.toNat < 256)
    (h : c.toUInt8 = d.toUInt8) :
    c = d := by
  refine Char.ext (UInt32.toNat_inj.1 ?_)
  exact (toNat_toUInt8 hc).symm.trans ((congrArg UInt8.toNat h).trans (toNat_toUInt8 hd))

/-- The last byte of a character is ASCII only if the character is. -/
theorem getLast?_utf8EncodeChar {c d : Char} (hc : c.toNat < 128)
    (h : (String.utf8EncodeChar d).getLast? = some c.toUInt8) : d = c := by
  have hbyte : c.toUInt8.toNat = c.toNat := toNat_toUInt8 (hc.trans (by decide))
  -- The bytes that continue a character have their highest bit set.
  have hhigh : ∀ x : BitVec 8, 128 ≤ (x &&& 0x3f#8 ||| 0x80#8).toNat := by decide
  have hcontinues : ∀ b : UInt8, some (b &&& 0x3f ||| 0x80) ≠ some c.toUInt8 := by
    intro b heq
    have hle : 128 ≤ (b &&& 0x3f ||| 0x80).toNat := hhigh b.toBitVec
    rw [Option.some.inj heq, hbyte] at hle
    omega
  rcases Char.utf8Size_eq d with hsize | hsize | hsize | hsize
  · rw [String.utf8EncodeChar_eq_singleton hsize, List.getLast?_singleton, Option.some.injEq] at h
    have hd : d.toNat < 128 :=
      Nat.lt_succ_of_le (UInt32.le_iff_toNat_le.1 (Char.utf8Size_eq_one_iff.1 hsize))
    exact toUInt8_inj (hd.trans (by decide)) (hc.trans (by decide)) h
  · rw [String.utf8EncodeChar_eq_cons_cons hsize] at h
    exact absurd h (hcontinues _)
  · rw [String.utf8EncodeChar_eq_cons_cons_cons hsize] at h
    exact absurd h (hcontinues _)
  · rw [String.utf8EncodeChar_eq_cons_cons_cons_cons hsize] at h
    exact absurd h (hcontinues _)

/-- The last character of a text, by its last byte. -/
theorem getLast?_of_getLast?_toUtf8 {s : Str} {c : Char} (hc : c.toNat < 128)
    (h : (toUtf8 s).getLast? = some c.toUInt8) : s.getLast? = some c := by
  rcases List.eq_nil_or_concat s with rfl | ⟨t, d, rfl⟩
  · exact absurd h nofun
  · have hlast : toUtf8 [d] = String.utf8EncodeChar d := List.append_nil _
    rw [List.concat_eq_append, toUtf8_append, hlast,
      List.getLast?_append_of_ne_nil _ String.utf8EncodeChar_ne_nil] at h
    rw [List.concat_eq_append, List.getLast?_concat, getLast?_utf8EncodeChar hc h]

/-! ## Splitting -/

/-- `char::is_whitespace`. -/
def isWhitespace (c : Char) : Bool :=
  (0x09 ≤ c.toNat && c.toNat ≤ 0x0d) || c.toNat == 0x20 || c.toNat == 0x85 || c.toNat == 0xa0 ||
    c.toNat == 0x1680 || (0x2000 ≤ c.toNat && c.toNat ≤ 0x200a) || c.toNat == 0x2028 ||
    c.toNat == 0x2029 || c.toNat == 0x202f || c.toNat == 0x205f || c.toNat == 0x3000

/-- A line without its terminator, LF or CRLF. -/
def stripNewline (line : Str) : Str :=
  if line.getLast? = some '\n' then
    if line.dropLast.getLast? = some '\r' then line.dropLast.dropLast else line.dropLast
  else line

/-- `str::lines`. -/
def lines (s : Str) : List Str := (splitInclusive (· == '\n') s).map stripNewline

/-- `str::trim_start`. -/
def trimStart (s : Str) : Str := s.dropWhile isWhitespace

/-- `str::trim_end`. -/
def trimEnd (s : Str) : Str := s.rdropWhile isWhitespace

/-- `str::trim`. -/
def trim (s : Str) : Str := trimEnd (trimStart s)

/-- `str::split_whitespace`. -/
def splitWhitespace (s : Str) : List Str := fields isWhitespace s

/-- `u8::is_ascii_whitespace`. -/
def isAsciiWhitespace (c : Char) : Bool :=
  c == ' ' || c == '\t' || c == '\n' || c == '\x0c' || c == '\r'

/-- `str::split_ascii_whitespace`. -/
def splitAsciiWhitespace (s : Str) : List Str := fields isAsciiWhitespace s

/-- The parts before and after the first `c`. -/
def splitOnce (c : Char) (s : Str) : Option (Str × Str) :=
  if c ∈ s then some (s.takeWhile (· != c), (s.dropWhile (· != c)).tail) else none

/-- `splitn`: at most `n` parts, of which the last one is not split. -/
def splitn : ℕ → Char → Str → List Str
  | 0, _, _ => []
  | 1, _, s => [s]
  | n + 2, c, s =>
    match splitOnce c s with
    | none => [s]
    | some (first, rest) => first :: splitn (n + 1) c rest

/-- `str::strip_prefix`. -/
def stripPrefix (p s : Str) : Option Str := if p <+: s then some (s.drop p.length) else none

/-- `str::ends_with`, for a character. -/
def endsWith (s : Str) (c : Char) : Bool := s.getLast? == some c

/-! ## Numbers -/

/-- `char::to_digit`. -/
def toDigit (radix : ℕ) (c : Char) : Option ℕ :=
  (if '0' ≤ c ∧ c ≤ '9' then some (c.toNat - '0'.toNat)
    else if 'a' ≤ c ∧ c ≤ 'z' then some (c.toNat - 'a'.toNat + 10)
    else if 'A' ≤ c ∧ c ≤ 'Z' then some (c.toNat - 'A'.toNat + 10)
    else none).filter (· < radix)

/-- `from_str_radix` of an unsigned type whose largest value is `max`. -/
def fromStrRadix (radix max : ℕ) (s : Str) : Option ℕ :=
  match s with
  | [] => none
  | ['+'] => none
  | ['-'] => none
  | '+' :: digits => digits.foldlM (pushDigit radix max (toDigit radix)) 0
  | s => s.foldlM (pushDigit radix max (toDigit radix)) 0

/-- `{:0width$x}` and the like: a number in some base, filled up with zeros. -/
def padded (base width n : ℕ) : Str :=
  List.replicate (width - (Nat.toDigits base n).length) '0' ++ Nat.toDigits base n

/-! ## Words -/

/-- A word: it is not empty, and made of graphic ASCII characters. -/
def IsWord (w : Str) : Prop := w ≠ [] ∧ ∀ c ∈ w, 0x21 ≤ c.toNat ∧ c.toNat ≤ 0x7e

instance (w : Str) : Decidable (IsWord w) := inferInstanceAs (Decidable (_ ∧ _))

/-- The line of the words `w :: ws`, one blank apart. -/
def words (w : Str) (ws : List Str) : Str := w ++ ws.flatMap (' ' :: ·)

variable {v w : Str} {ws : List Str}

theorem IsWord.append (hv : IsWord v) (hw : IsWord w) : IsWord (v ++ w) :=
  ⟨by simp [hv.1], fun c hc => (List.mem_append.1 hc).elim (hv.2 c) (hw.2 c)⟩

theorem isWhitespace_eq_false {c : Char} (h : 0x21 ≤ c.toNat ∧ c.toNat ≤ 0x7e) :
    isWhitespace c = false := by
  simp only [isWhitespace, Bool.or_eq_false_iff, Bool.and_eq_false_iff, decide_eq_false_iff_not,
    beq_eq_false_iff_ne]
  omega

theorem IsWord.isWhitespace (hw : IsWord w) : ∀ c ∈ w, isWhitespace c = false :=
  fun c hc => isWhitespace_eq_false (hw.2 c hc)

/-- The characters of a line. -/
theorem mem_words (hw : IsWord w) (hws : ∀ v ∈ ws, IsWord v) {c : Char} (hc : c ∈ words w ws) :
    0x20 ≤ c.toNat ∧ c.toNat ≤ 0x7e := by
  have hword : ∀ {v : Str}, IsWord v → c ∈ v → 0x20 ≤ c.toNat ∧ c.toNat ≤ 0x7e := fun hv hc =>
    ⟨(by decide : 0x20 ≤ 0x21).trans (hv.2 c hc).1, (hv.2 c hc).2⟩
  rcases List.mem_append.1 hc with hc | hc
  · exact hword hw hc
  · obtain ⟨v, hv, hc⟩ := List.mem_flatMap.1 hc
    rcases List.mem_cons.1 hc with rfl | hc
    · exact ⟨by decide, by decide⟩
    · exact hword (hws v hv) hc

/-- Words are split where they were joined. -/
theorem splitWhitespace_words (hw : IsWord w) (hws : ∀ v ∈ ws, IsWord v) :
    splitWhitespace (words w ws) = w :: ws :=
  fields_words (by decide) hw.isWhitespace hw.1 fun v hv => ⟨(hws v hv).1, (hws v hv).isWhitespace⟩

/-- The same of ASCII blanks. -/
theorem splitAsciiWhitespace_words (hw : IsWord w) (hws : ∀ v ∈ ws, IsWord v) :
    splitAsciiWhitespace (words w ws) = w :: ws := by
  have hword : ∀ {v : Str}, IsWord v → ∀ c ∈ v, isAsciiWhitespace c = false := by
    intro v hv c hc
    have := (hv.2 c hc).1
    simp only [isAsciiWhitespace, Bool.or_eq_false_iff, beq_eq_false_iff_ne]
    refine ⟨⟨⟨⟨?_, ?_⟩, ?_⟩, ?_⟩, ?_⟩ <;> (rintro rfl; exact absurd this (by decide))
  exact fields_words (by decide) (hword hw) hw.1 fun v hv => ⟨(hws v hv).1, hword (hws v hv)⟩

/-- A line of words ends with the last character of its last word. -/
theorem exists_getLast?_words (hw : IsWord w) (hws : ∀ v ∈ ws, IsWord v) :
    ∃ c, (words w ws).getLast? = some c ∧ Str.isWhitespace c = false := by
  have hlast : ∀ {v : Str}, IsWord v → ∃ c, v.getLast? = some c ∧ Str.isWhitespace c = false := by
    intro v hv
    exact ⟨v.getLast hv.1, List.getLast?_eq_some_getLast hv.1,
      hv.isWhitespace _ (List.getLast_mem hv.1)⟩
  induction ws using List.reverseRecOn with
  | nil =>
    rw [words, List.flatMap_nil, List.append_nil]
    exact hlast hw
  | append_singleton ws v _ =>
    obtain ⟨c, hc, hc'⟩ := hlast (hws v (by simp))
    refine ⟨c, ?_, hc'⟩
    rw [words, List.flatMap_append, List.flatMap_singleton, ← List.append_assoc,
      List.getLast?_append, List.getLast?_cons, hc]
    rfl

theorem trim_trim (s : Str) : trim (trim s) = trim s := by
  have hstart : trimStart (trim s) = trim s := by
    rw [trimStart, List.dropWhile_eq_self_iff]
    intro hlen
    -- the first character is that of the text without its leading blanks
    have hpre : trim s <+: trimStart s := List.rdropWhile_prefix isWhitespace (trimStart s)
    rw [hpre.getElem hlen]
    exact List.dropWhile_get_zero_not isWhitespace s (hlen.trans_le hpre.length_le)
  rw [trim, hstart]
  exact List.rdropWhile_idempotent isWhitespace (trimStart s)

/-- A text with a character that is not blank is not blank. -/
theorem trim_ne_nil {s : Str} {c : Char} (hc : c ∈ s) (h : isWhitespace c = false) :
    trim s ≠ [] := by
  intro hnil
  have hend : ∀ d ∈ trimStart s, isWhitespace d = true := List.rdropWhile_eq_nil_iff.1 hnil
  have hmem : c ∈ trimStart s := by
    by_contra hnot
    rw [← List.takeWhile_append_dropWhile (p := isWhitespace) (l := s), List.mem_append] at hc
    have hblank := List.mem_takeWhile_imp (hc.resolve_right hnot)
    rw [h] at hblank
    cases hblank
  rw [hend c hmem] at h
  cases h

/-- Nothing is trimmed from a line of words. -/
theorem trim_words (hw : IsWord w) (hws : ∀ v ∈ ws, IsWord v) : trim (words w ws) = words w ws := by
  obtain ⟨c, hc, hc'⟩ := exists_getLast?_words hw hws
  have hstart : trimStart (words w ws) = words w ws := by
    obtain ⟨d, t, rfl⟩ := List.exists_cons_of_ne_nil hw.1
    rw [trimStart, words, List.cons_append, List.dropWhile_cons,
      if_neg (by simp [hw.isWhitespace d List.mem_cons_self])]
  rw [trim, hstart, trimEnd, List.rdropWhile_eq_self_iff]
  intro hl
  rw [List.getLast?_eq_some_getLast hl, Option.some.injEq] at hc
  simp [hc, hc']

/-! ## Texts -/

/-- The first line of a text. -/
theorem lines_cons {l : Str} (hl : ∀ c ∈ l, 0x20 ≤ c.toNat) (rest : Str) :
    lines (l ++ '\n' :: rest) = l :: lines rest := by
  have hnl : ∀ c ∈ l, (c == '\n') = false := by
    intro c hc
    rw [beq_eq_false_iff_ne]
    rintro rfl
    exact absurd (hl _ hc) (by decide)
  have hcr : l.getLast? ≠ some '\r' := by
    intro h
    exact absurd (hl _ (List.mem_of_getLast? h)) (by decide)
  rw [lines, splitInclusive_append hnl (by decide), List.map_cons, stripNewline]
  simp [hcr, lines]

theorem lines_eq_singleton {l : Str} (hl : ∀ c ∈ l, 0x20 ≤ c.toNat) (hne : l ≠ []) :
    lines l = [l] := by
  have hnl : ∀ c ∈ l, (c == '\n') = false := by
    intro c hc
    rw [beq_eq_false_iff_ne]
    rintro rfl
    exact absurd (hl _ hc) (by decide)
  have hlast : l.getLast? ≠ some '\n' := by
    intro h
    exact absurd (hl _ (List.mem_of_getLast? h)) (by decide)
  rw [lines, splitInclusive_of_forall hnl hne, List.map_singleton, stripNewline, if_neg hlast]

@[simp] theorem lines_nil : lines [] = [] := rfl

/-- The text of some lines. -/
def unlines (ls : List Str) : Str := ls.flatMap (· ++ ['\n'])

theorem unlines_cons (l : Str) (ls : List Str) : unlines (l :: ls) = l ++ '\n' :: unlines ls := by
  rw [unlines, List.flatMap_cons, List.append_assoc, List.singleton_append]
  rfl

theorem unlines_append (ls ms : List Str) : unlines (ls ++ ms) = unlines ls ++ unlines ms :=
  List.flatMap_append

/-- Lines are read back. -/
theorem lines_unlines {ls : List Str} (h : ∀ l ∈ ls, ∀ c ∈ l, 0x20 ≤ c.toNat) :
    lines (unlines ls) = ls := by
  induction ls with
  | nil => rfl
  | cons l ls ih =>
    rw [unlines_cons, lines_cons (h l List.mem_cons_self), ih fun m hm =>
      h m (List.mem_cons_of_mem _ hm)]

/-- A text is made of lines, and of what follows the last of them. -/
theorem exists_unlines (s : Str) :
    ∃ ls rest, s = unlines ls ++ rest ∧ (∀ l ∈ ls, '\n' ∉ l) ∧ '\n' ∉ rest := by
  induction s with
  | nil => exact ⟨[], [], rfl, nofun, nofun⟩
  | cons c s ih =>
    obtain ⟨ls, rest, rfl, hls, hrest⟩ := ih
    by_cases hc : c = '\n'
    · subst hc
      exact ⟨[] :: ls, rest, by rw [unlines_cons]; rfl, List.forall_mem_cons.2 ⟨nofun, hls⟩, hrest⟩
    · cases ls with
      | nil =>
        exact ⟨[], c :: rest, rfl, nofun, List.not_mem_cons_of_ne_of_not_mem (Ne.symm hc) hrest⟩
      | cons l ls =>
        obtain ⟨hl, hls⟩ := List.forall_mem_cons.1 hls
        refine ⟨(c :: l) :: ls, rest, by rw [unlines_cons, unlines_cons]; rfl, ?_, hrest⟩
        exact List.forall_mem_cons.2 ⟨List.not_mem_cons_of_ne_of_not_mem (Ne.symm hc) hl, hls⟩

/-- A text that ends in a line break consists of lines. -/
theorem exists_eq_unlines {s : Str} (h : s.getLast? = some '\n') :
    ∃ ls, s = unlines ls ∧ ∀ l ∈ ls, '\n' ∉ l := by
  obtain ⟨ls, rest, rfl, hls, hrest⟩ := exists_unlines s
  have hnil : rest = [] := by
    by_contra hne
    rw [List.getLast?_append_of_ne_nil _ hne] at h
    exact hrest (List.mem_of_getLast? h)
  exact ⟨ls, by rw [hnil, List.append_nil], hls⟩

/-- The first line of a text, whatever its characters: a CR is dropped with its newline. -/
theorem lines_cons_of_notMem {l : Str} (hl : '\n' ∉ l) (rest : Str) :
    lines (l ++ '\n' :: rest) = (if l.getLast? = some '\r' then l.dropLast else l) ::
      lines rest := by
  have hnl : ∀ c ∈ l, (c == '\n') = false := by
    intro c hc
    rw [beq_eq_false_iff_ne]
    rintro rfl
    exact hl hc
  rw [lines, splitInclusive_append hnl (by decide), List.map_cons, stripNewline]
  simp [lines]

/-- `split('\n')` also gives what follows the last newline. -/
theorem splitOn_unlines {ls : List Str} (h : ∀ l ∈ ls, '\n' ∉ l) :
    (unlines ls).splitOn '\n' = ls ++ [[]] := by
  induction ls with
  | nil => rfl
  | cons l ls ih =>
    have hl : ∀ c ∈ l, (c == '\n') = false := by
      intro c hc
      rw [beq_eq_false_iff_ne]
      rintro rfl
      exact h l List.mem_cons_self hc
    rw [unlines_cons, List.splitOn, List.splitOnP_append_cons_of_forall_mem hl _ (by decide),
      ← List.splitOn, ih fun m hm => h m (List.mem_cons_of_mem _ hm), List.cons_append]

/-- `join("\n")` of lines and of nothing after them is their text. -/
theorem intercalate_append_nil (ls : List Str) : ['\n'].intercalate (ls ++ [[]]) = unlines ls := by
  induction ls with
  | nil => rfl
  | cons l ls ih =>
    rw [unlines_cons, ← ih, List.cons_append]
    cases ls with
    | nil => simp [List.intercalate]
    | cons m ls => simp [List.intercalate, List.intersperse]

/-- A text is split at the first place. -/
theorem splitOnce_append {c : Char} {s t : Str} (hs : c ∉ s) :
    splitOnce c (s ++ c :: t) = some (s, t) := by
  have hall : ∀ d ∈ s, (d != c) = true := by
    intro d hd
    rw [bne_iff_ne]
    rintro rfl
    exact hs hd
  rw [splitOnce, if_pos (by simp), List.takeWhile_append_of_pos hall,
    List.dropWhile_append_of_pos hall]
  simp

/-- Where a text was split. -/
theorem splitOnce_eq_some {c : Char} {s a b : Str} (h : splitOnce c s = some (a, b)) :
    s = a ++ c :: b ∧ c ∉ a := by
  rw [splitOnce] at h
  split_ifs at h with hc
  obtain ⟨rfl, rfl⟩ := Prod.mk.inj (Option.some.inj h)
  refine ⟨?_, fun hmem => by simpa using List.mem_takeWhile_imp hmem⟩
  obtain ⟨d, t, hd⟩ := List.exists_cons_of_ne_nil fun hnil : s.dropWhile (· != c) = [] => by
    have hall := List.dropWhile_eq_nil_iff.1 hnil c hc
    simp at hall
  have hhead : d = c := by
    have hnot := List.head_dropWhile_not (· != c) (l := s) (by rw [hd]; exact List.cons_ne_nil _ _)
    simpa [hd] using hnot
  conv_lhs => rw [← List.takeWhile_append_dropWhile (p := (· != c)) (l := s), hd, hhead]
  rw [hd, List.tail_cons]

theorem splitn_append (n : ℕ) {c : Char} {s t : Str} (hs : c ∉ s) :
    splitn (n + 2) c (s ++ c :: t) = s :: splitn (n + 1) c t := by
  rw [splitn, splitOnce_append hs]

/-- If there is a second part, the first one ends at a separator. -/
theorem splitn_eq_cons_cons {n : ℕ} {c : Char} {s a b : Str} {rest : List Str}
    (h : splitn (n + 2) c s = a :: b :: rest) :
    ∃ t, s = a ++ c :: t ∧ c ∉ a ∧ splitn (n + 1) c t = b :: rest := by
  rw [splitn] at h
  cases hsplit : splitOnce c s with
  | none =>
    rw [hsplit] at h
    cases (List.cons.inj h).2
  | some parts =>
    obtain ⟨first, t⟩ := parts
    rw [hsplit] at h
    obtain ⟨rfl, hrest⟩ : first = a ∧ splitn (n + 1) c t = b :: rest := List.cons.inj h
    exact ⟨t, (splitOnce_eq_some hsplit).1, (splitOnce_eq_some hsplit).2, hrest⟩

theorem stripPrefix_append (p s : Str) : stripPrefix p (p ++ s) = some s := by
  rw [stripPrefix, if_pos (List.prefix_append p s), List.drop_left]

theorem stripPrefix_eq_some {p s t : Str} (h : stripPrefix p s = some t) : s = p ++ t := by
  rw [stripPrefix] at h
  split_ifs at h with hp
  obtain rfl := Option.some.inj h
  obtain ⟨t, rfl⟩ := hp
  rw [List.drop_left]

/-! ## Numerals -/

theorem toDigit_lt {radix : ℕ} {c : Char} {d : ℕ} (h : toDigit radix c = some d) : d < radix := by
  simpa using (Option.filter_eq_some_iff.1 h).2

/-- A number that is read fits. -/
theorem fromStrRadix_le {radix max n : ℕ} (hr : 0 < radix) (hmax : radix ≤ max + 1) {s : Str}
    (h : fromStrRadix radix max s = some n) : n ≤ max := by
  have hfold {digits : Str} (h : digits.foldlM (pushDigit radix max (toDigit radix)) 0 = some n) :
      n ≤ max := by
    obtain ⟨ds, -, -, hle⟩ := foldlM_pushDigit_eq_some hr
      (fun _ _ hd => Nat.le_of_lt_succ ((toDigit_lt hd).trans_le hmax)) (Nat.zero_le max) h
    exact hle
  unfold fromStrRadix at h
  split at h
  · cases h
  · cases h
  · cases h
  · exact hfold h
  · exact hfold h

theorem isWord_toDigits {base : ℕ} (hb : 1 < base) (hb' : base ≤ 16) (n : ℕ) :
    IsWord (Nat.toDigits base n) := by
  refine ⟨by simp, fun c hc => ?_⟩
  obtain ⟨d, hd, rfl⟩ := exists_digitChar_of_mem_toDigits hb hc
  have : ∀ d < 16, 0x21 ≤ (Nat.digitChar d).toNat ∧ (Nat.digitChar d).toNat ≤ 0x7e := by decide
  exact this d (hd.trans_le hb')

theorem isWord_padded {base : ℕ} (hb : 1 < base) (hb' : base ≤ 16) (width n : ℕ) :
    IsWord (padded base width n) := by
  have hdigits := isWord_toDigits hb hb' n
  refine ⟨by simp [padded], fun c hc => ?_⟩
  rcases List.mem_append.1 hc with hc | hc
  · rw [List.eq_of_mem_replicate hc]
    decide
  · exact hdigits.2 c hc

theorem IsWord.toUtf8_eq (hw : IsWord w) : toUtf8 w = w.map Char.toUInt8 :=
  toUtf8_eq_map fun c hc => (hw.2 c hc).2.trans_lt (by decide)

/-- A numeral is read back, also with zeros in front. -/
theorem fromStrRadix_zeros_append {radix max n : ℕ} (hr : 1 < radix) (hr' : radix ≤ 16)
    (hmax : radix ≤ max + 1) (hn : n ≤ max) (k : ℕ) :
    fromStrRadix radix max (List.replicate k '0' ++ Nat.toDigits radix n) = some n := by
  have hdigit : ∀ d < 16, ∀ r ≤ 16, d < r → toDigit r d.digitChar = some d := by decide
  have hread :
      (List.replicate k '0' ++ Nat.toDigits radix n).foldlM
      (pushDigit radix max (toDigit radix)) 0 =
      some n := by
    obtain ⟨ds, hds, hv⟩ := mapM_zeros_append_toDigits (f := id) hr
      (fun d hd => hdigit d (hd.trans_le hr') radix hr' hd) k n
    rw [List.map_id] at hds
    rw [foldlM_pushDigit (by omega) (fun _ _ h => Nat.le_of_lt_succ ((toDigit_lt h).trans_le hmax))
      (Nat.zero_le _)]
    exact (congrArg (Option.bind · _) hds).trans (by rw [Option.bind_some, hv, if_pos hn])
  have hsign : ∀ c ∈ List.replicate k '0' ++ Nat.toDigits radix n, c ≠ '+' ∧ c ≠ '-' := by
    have hplus : ∀ d < 16, Nat.digitChar d ≠ '+' ∧ Nat.digitChar d ≠ '-' := by decide
    intro c hc
    rcases List.mem_append.1 hc with hc | hc
    · rw [List.eq_of_mem_replicate hc]
      decide
    · obtain ⟨d, hd, rfl⟩ := exists_digitChar_of_mem_toDigits hr hc
      exact hplus d (hd.trans_le hr')
  obtain ⟨c, l, hcl⟩ := List.exists_cons_of_ne_nil
    (List.append_ne_nil_of_right_ne_nil (List.replicate k '0') (isWord_toDigits hr hr' n).1)
  rw [hcl] at hread hsign ⊢
  obtain ⟨hp, hm⟩ := hsign c List.mem_cons_self
  unfold fromStrRadix
  split <;> simp_all

/-- A number is read back. -/
theorem fromStrRadix_toDigits {radix max n : ℕ} (hr : 1 < radix) (hr' : radix ≤ 16)
    (hmax : radix ≤ max + 1) (hn : n ≤ max) :
    fromStrRadix radix max (Nat.toDigits radix n) = some n :=
  fromStrRadix_zeros_append hr hr' hmax hn 0

end Str

end VpnHide.Lib

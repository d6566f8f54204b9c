import VpnHide.Lib.Scan
import VpnHide.Protocol.Lexical

/-!
# The kernel's lexical core

The freestanding C of `kmod/shared/vpnhide_logic.h`, shared by the kernel backends.
It walks one buffer by offsets: a line is `[ls, le)`, a token `[ts, te)`. A buffer
`b` stands for the pointer and its length; reads past the end never happen.

Each function computes on offsets what its counterpart of the crate `protocol`
computes on slices (`nextLine_spec`, `lineSignificant_spec`, `nextToken_spec`,
`tokHexBare_eq`), and so the two read the same headers (`parseHeader_eq`), and go
through the lines after them side by side (`forLines_rel`).
-/

namespace VpnHide.Kmod

open Lib Protocol

/-! ## Lines and tokens -/

/-- A blank or a tab. -/
def isSep (c : UInt8) : Bool := c == ' '.toUInt8 || c == '\t'.toUInt8

/-- A printable character. -/
def isAscii (c : UInt8) : Bool := 0x20 ≤ c && c ≤ 0x7e

/-- A line `[ls, le)`, and the offset of the following one. -/
structure Line where
  ls : ℕ
  le : ℕ
  next : ℕ
  deriving DecidableEq

/-- The line at offset `i`, its trailing CR stripped; `none` at the end of the buffer. -/
def nextLine (b : Bytes) (i : ℕ) : Option Line :=
  if b.length ≤ i then none
  else
    let e := scanWhile (· != '\n'.toUInt8) b i b.length
    some
      { ls := i
        le := if i < e ∧ b[e - 1]! = '\r'.toUInt8 then e - 1 else e
        next := if e < b.length then e + 1 else b.length }

/-- What is said of a line: whether it carries a token and is not a comment, where
    its first token starts, and whether it is ASCII. -/
structure LineClass where
  significant : Bool
  cs : ℕ
  ascii : Bool

/-- Classifying the line `[ls, le)`. -/
def lineSignificant (b : Bytes) (ls le : ℕ) : LineClass :=
  let ascii := foldRange (fun ascii c => if !isAscii c && c != '\t'.toUInt8 then false else ascii)
    b ls le true
  let p := scanWhile isSep b ls le
  { significant := if le ≤ p then false else if b[p]! = '#'.toUInt8 then false else true
    cs := p
    ascii }

/-- The next token of `[i, stop)`. -/
def nextToken (b : Bytes) (i stop : ℕ) : Option (ℕ × ℕ) :=
  let p := scanWhile isSep b i stop
  if stop ≤ p then none else some (p, scanWhile (fun c => !isSep c) b p stop)

/-- Whether the token `[ts, te)` is the literal `lit`. -/
def tokEq (b : Bytes) (ts te : ℕ) : Bytes → Bool
  | [] => ts == te
  | c :: lit => if ts < te ∧ b[ts]! = c then tokEq b (ts + 1) te lit else false

/-! ## Numbers -/

/-- The value of a decimal digit. -/
def decValue (c : UInt8) : Option ℕ :=
  if c < '0'.toUInt8 ∨ '9'.toUInt8 < c then none else some (c.toNat - '0'.toNat)

/-- A decimal token, within `unsigned long`. -/
def tokDecimal (b : Bytes) (ts te : ℕ) : Option ℕ :=
  if te ≤ ts then none else forRange (pushDigit 10 0xffffffffffffffff decValue) b ts te 0

/-- The value of a hexadecimal digit. -/
def hexValue (c : UInt8) : Option ℕ :=
  if '0'.toUInt8 ≤ c ∧ c ≤ '9'.toUInt8 then some (c.toNat - '0'.toNat)
  else if 'a'.toUInt8 ≤ c ∧ c ≤ 'f'.toUInt8 then some (c.toNat - 'a'.toNat + 10)
  else if 'A'.toUInt8 ≤ c ∧ c ≤ 'F'.toUInt8 then some (c.toNat - 'A'.toNat + 10)
  else none

/-- A bare hexadecimal token, within `bits` bits. -/
def tokHexBare (b : Bytes) (ts te bits : ℕ) : Option ℕ :=
  let max := if 64 ≤ bits then 0xffffffffffffffff else 0xffffffff
  if te ≤ ts then none else forRange (pushDigit 16 max hexValue) b ts te 0

/-! ## The header -/

/-- The kind of a payload, from the tokens of its header `[cs, le)`. -/
def headerKind (b : Bytes) (cs le : ℕ) : Option Kind := do
  let (ts, te) ← nextToken b cs le
  guard (tokEq b ts te (ascii "vpnhide"))
  let (ts, te) ← nextToken b te le
  let ver ← tokDecimal b ts te
  let (ts, te) ← nextToken b te le
  if tokEq b ts te (ascii "config") then if ver ≠ controlVersion then none else some .config
  else if tokEq b ts te (ascii "stats") then if ver ≠ telemetryVersion then none else some .stats
  else if tokEq b ts te (ascii "status") then if ver ≠ telemetryVersion then none else some .status
  else none

/-- A line takes up some bytes. -/
theorem nextLine_lt {b : Bytes} {i : ℕ} {l : Line} (h : nextLine b i = some l) :
    b.length - l.next < b.length - i := by
  rw [nextLine] at h
  split_ifs at h with hi
  obtain rfl := Option.some.inj h
  have := le_scanWhile (· != '\n'.toUInt8) b i b.length
  dsimp only
  split_ifs <;> omega

/-- The kind of a payload from the lines at `i` on, and the offset of its first record. -/
def parseHeaderFrom (b : Bytes) (i : ℕ) : Option Kind × ℕ :=
  match _h : nextLine b i with
  | none => (none, i)
  | some l =>
    let c := lineSignificant b l.ls l.le
    if !c.significant then parseHeaderFrom b l.next
    -- The first significant line is the header, and must be ASCII.
    else if !c.ascii then (none, l.next)
    else (headerKind b c.cs l.le, l.next)
termination_by b.length - i
decreasing_by exact nextLine_lt ‹_›

/-- The kind of a payload, and the offset of its first record. -/
def parseHeader (b : Bytes) : Option Kind × ℕ := parseHeaderFrom b 0

/-- The loop over the significant lines from `i` on: blank lines, comments and lines
    that are not ASCII are skipped, and the body may `return` from the loop. -/
def forLines {ε σ : Type*} (b : Bytes) (body : ℕ → ℕ → σ → Except ε σ) (i : ℕ) (s : σ) :
    Except ε σ :=
  match _h : nextLine b i with
  | none => .ok s
  | some l =>
    let c := lineSignificant b l.ls l.le
    if !c.significant || !c.ascii then forLines b body l.next s
    else
      match body c.cs l.le s with
      | .error e => .error e
      | .ok s => forLines b body l.next s
termination_by b.length - i
decreasing_by all_goals exact nextLine_lt ‹_›

/-! ## Offsets and slices -/

variable {b : Bytes} {i ls le p ts te : ℕ}

theorem isSep_eq : isSep = Protocol.isSep := rfl

/-- The line at an offset is the first line from there. -/
theorem nextLine_spec (hi : i < b.length) : ∃ l, nextLine b i = some l ∧ l.ls ≤ l.le ∧
    l.le ≤ b.length ∧ l.next ≤ b.length ∧ slice b l.ls l.le = (Protocol.nextLine (b.drop i)).1 ∧
    b.drop l.next = (Protocol.nextLine (b.drop i)).2 := by
  have hle := le_scanWhile (· != '\n'.toUInt8) b i b.length
  have hge := scanWhile_le (q := (· != '\n'.toUInt8)) hi.le le_rfl
  have hline := slice_scanWhile (q := (· != '\n'.toUInt8)) hi.le le_rfl
  have hpos := scanWhile_eq (q := (· != '\n'.toUInt8)) (p := i) (le_refl b.length)
  rw [slice_length_right] at hline hpos
  rw [nextLine, if_neg (by omega)]
  refine ⟨_, rfl, ?_, ?_, ?_, ?_, ?_⟩ <;> dsimp only
  · split_ifs <;> omega
  · split_ifs <;> omega
  · split_ifs <;> omega
  · rw [Protocol.nextLine, stripCr, ← hline]
    generalize scanWhile (· != '\n'.toUInt8) b i b.length = e at hle hge
    -- An empty line has no CR to strip.
    rcases Nat.eq_or_lt_of_le hle with rfl | hlt
    · simp
    · rw [getLast?_slice hlt hge, dropLast_slice hge]
      simp only [hlt, true_and, Option.some.injEq]
      split_ifs <;> rfl
  · change _ = (b.drop i).drop (((b.drop i).takeWhile (· != '\n'.toUInt8)).length + 1)
    rw [List.drop_drop]
    split_ifs with he
    · rw [hpos, Nat.add_assoc]
    · rw [List.drop_eq_nil_of_le le_rfl, List.drop_eq_nil_of_le (by omega)]

/-- Classifying a line. -/
theorem lineSignificant_spec (hl : ls ≤ le) (he : le ≤ b.length) :
    (lineSignificant b ls le).significant = !isIgnorable (slice b ls le) ∧
    ls ≤ (lineSignificant b ls le).cs ∧ (lineSignificant b ls le).cs ≤ le ∧
    significant (slice b ls le) =
      if (lineSignificant b ls le).significant ∧ (lineSignificant b ls le).ascii then
        some (slice b (lineSignificant b ls le).cs le) else none := by
  have hcs := le_scanWhile isSep b ls le
  have hce := scanWhile_le (q := isSep) hl he
  have hdrop := slice_scanWhile_stop (q := isSep) hl he
  have hascii : (lineSignificant b ls le).ascii =
      !(slice b ls le).any fun c => !isAsciiPrintable c && c != '\t'.toUInt8 := by
    rw [lineSignificant]
    dsimp only
    rw [foldRange_eq_foldl _ he]
    -- The flag is lowered by a non-ASCII byte, and never raised again.
    have hfold : ∀ (l : Bytes) (a : Bool), l.foldl (fun a c =>
        if !isAscii c && c != '\t'.toUInt8 then false else a) a =
          (a && !l.any fun c => !isAsciiPrintable c && c != '\t'.toUInt8) := by
      intro l
      induction l with
      | nil => simp
      | cons c l ih =>
        intro a
        rw [List.foldl_cons, ih, List.any_cons, show isAscii c = isAsciiPrintable c from rfl]
        cases !isAsciiPrintable c && c != '\t'.toUInt8 <;> simp
    rw [hfold, Bool.true_and]
  have hsig : (lineSignificant b ls le).significant = !isIgnorable (slice b ls le) := by
    rw [isIgnorable, ← isSep_eq, ← hdrop, lineSignificant]
    dsimp only
    generalize scanWhile isSep b ls le = c at hcs hce
    split_ifs with h₁ h₂
    · rw [slice_of_ge b h₁]
      rfl
    · rw [slice_cons (by omega) he, h₂]
      rfl
    · rw [slice_cons (by omega) he]
      dsimp only
      rw [beq_eq_false_iff_ne.2 h₂]
      rfl
  refine ⟨hsig, hcs, hce, ?_⟩
  rw [hascii, hsig, significant, isIgnorable, ← isSep_eq, ← hdrop]
  change _ = if _ then some (slice b (scanWhile isSep b ls le) le) else none
  cases slice b (scanWhile isSep b ls le) le with
  | nil => simp
  | cons c l =>
    by_cases hc : c = '#'.toUInt8
    · simp [hc]
    · cases (slice b ls le).any fun c => !isAsciiPrintable c && c != '\t'.toUInt8 <;> simp [hc]

/-- A token is not empty. -/
theorem nextToken_bounds (h : nextToken b p le = some (ts, te)) : p ≤ ts ∧ ts < te := by
  rw [nextToken] at h
  split_ifs at h with hp
  obtain ⟨rfl, rfl⟩ := Prod.mk.inj (Option.some.inj h)
  have hlt := not_le.1 hp
  exact ⟨le_scanWhile _ _ _ _, lt_scanWhile hlt (by rw [not_of_scanWhile_lt hlt]; rfl)⟩

/-- Reading tokens one by one. -/
theorem nextToken_spec (hp : p ≤ le) (he : le ≤ b.length) :
    match nextToken b p le with
    | none => tokens (slice b p le) = []
    | some (ts, te) =>
      te ≤ le ∧ tokens (slice b p le) = slice b ts te :: tokens (slice b te le) := by
  have hce := scanWhile_le (q := isSep) hp he
  have hdrop := slice_scanWhile_stop (q := isSep) hp he
  rw [nextToken]
  by_cases hle : le ≤ scanWhile isSep b p le
  · rw [if_pos hle]
    exact fields_eq_nil (hdrop.symm.trans (slice_of_ge b hle))
  · rw [if_neg hle]
    refine ⟨scanWhile_le hce he, ?_⟩
    have hne : (slice b p le).dropWhile Protocol.isSep ≠ [] := by
      rw [← isSep_eq, ← hdrop, slice_cons (not_le.1 hle) he]
      exact List.cons_ne_nil _ _
    rw [tokens, fields_eq_cons hne, slice_scanWhile hce he, tokens,
      slice_scanWhile_stop hce he, hdrop]
    rfl

/-- A token is compared byte by byte. -/
theorem tokEq_eq (lit : Bytes) (ht : ts ≤ te) (he : te ≤ b.length) :
    tokEq b ts te lit = decide (slice b ts te = lit) := by
  induction lit generalizing ts with
  | nil =>
    rcases Nat.eq_or_lt_of_le ht with rfl | hlt
    · simp [tokEq]
    · simp [tokEq, slice_cons hlt he, hlt.ne]
  | cons c lit ih =>
    rw [tokEq]
    rcases Nat.eq_or_lt_of_le ht with rfl | hlt
    · simp
    · rw [slice_cons hlt he]
      by_cases hc : b[ts]! = c
      · rw [if_pos ⟨hlt, hc⟩, ih (by omega), hc]
        simp
      · rw [if_neg fun h => hc h.2, decide_eq_false fun h => hc (List.cons.inj h).1]

theorem hexValue_eq (c : UInt8) : hexValue c = hexDigit c := by
  rw [hexValue, hexDigit]
  split_ifs with h₁ h₂ h₃
  · rw [UInt8.toNat_sub_of_le _ _ h₁.1]
    rfl
  · rw [UInt8.toNat_add, UInt8.toNat_sub_of_le _ _ h₂.1]
    have := UInt8.le_iff_toNat_le.1 h₂.2
    change some (c.toNat - 97 + 10) = some ((c.toNat - 97 + 10) % 2 ^ 8)
    change c.toNat ≤ 102 at this
    rw [Nat.mod_eq_of_lt (by omega)]
  · rw [UInt8.toNat_add, UInt8.toNat_sub_of_le _ _ h₃.1]
    have := UInt8.le_iff_toNat_le.1 h₃.2
    change some (c.toNat - 65 + 10) = some ((c.toNat - 65 + 10) % 2 ^ 8)
    change c.toNat ≤ 70 at this
    rw [Nat.mod_eq_of_lt (by omega)]
  · rfl

theorem slice_eq_nil_iff (he : te ≤ b.length) : slice b ts te = [] ↔ te ≤ ts := by
  rw [← List.length_eq_zero_iff, length_slice he]
  omega

/-- A hexadecimal token is read as its slice. -/
theorem tokHexBare_eq (bits : ℕ) (he : te ≤ b.length) :
    tokHexBare b ts te bits = parseHexBare (slice b ts te) bits := by
  rw [tokHexBare, parseHexBare, forRange_eq_foldlM _ he, funext hexValue_eq, ← maxOfBits]
  simp only [slice_eq_nil_iff he]

theorem decValue_eq (c : UInt8) : decValue c = decDigit c := by
  rw [decValue, decDigit]
  by_cases h : '0'.toUInt8 ≤ c ∧ c ≤ '9'.toUInt8
  · rw [if_pos h, if_neg (by simpa using h), UInt8.toNat_sub_of_le _ _ h.1]
    rfl
  · rw [if_neg h, if_pos]
    rw [not_and_or, UInt8.not_le, UInt8.not_le] at h
    exact h

/-! ## The same headers -/

/-- The versions that matter are read alike, whatever the width. -/
theorem tokDecimal_eq_some_iff (he : te ≤ b.length) {v : ℕ} (hv : v ≤ 0xffffffff) :
    tokDecimal b ts te = some v ↔ parseDecimal (slice b ts te) = some v := by
  rw [tokDecimal, parseDecimal_eq, forRange_eq_foldlM _ he, funext decValue_eq]
  simp only [slice_eq_nil_iff he]
  split_ifs
  · rfl
  · rw [foldlM_pushDigit (by decide) (fun _ _ h => (decDigit_le h).trans (by decide)) (by decide),
      foldlM_pushDigit (by decide) (fun _ _ h => (decDigit_le h).trans (by decide)) (by decide)]
    -- The widths differ in the overflows only, which are past every version.
    cases (slice b ts te).mapM decDigit with
    | none => rfl
    | some ds =>
      simp only [Option.bind_some]
      split_ifs <;> simp <;> omega

/-- The kind and its version, from the last two tokens of the header. -/
theorem kindOfTokens_eq {ts' te' : ℕ} (he : te ≤ b.length) (ht' : ts' ≤ te')
    (he' : te' ≤ b.length) :
    ((tokDecimal b ts te).bind fun ver =>
      if tokEq b ts' te' (ascii "config") then
        if ver ≠ controlVersion then none else some Kind.config
      else if tokEq b ts' te' (ascii "stats") then
        if ver ≠ telemetryVersion then none else some Kind.stats
      else if tokEq b ts' te' (ascii "status") then
        if ver ≠ telemetryVersion then none else some Kind.status
      else none) =
    (parseDecimal (slice b ts te)).bind fun ver => (kindOf (slice b ts' te')).bind fun kind =>
      (guard (ver = currentVersion kind) : Option Unit).bind fun _ => some kind := by
  -- With the kind known, both ask for one version.
  have hver : ∀ kind : Kind, ((tokDecimal b ts te).bind fun ver =>
      if ver ≠ currentVersion kind then none else some kind) =
      (parseDecimal (slice b ts te)).bind fun ver =>
        (guard (ver = currentVersion kind) : Option Unit).bind fun _ => some kind := by
    intro kind
    have hiff := @tokDecimal_eq_some_iff b ts te he _
      (show currentVersion kind ≤ 0xffffffff by cases kind <;> decide)
    ext k
    simp only [Option.bind_eq_some_iff, Option.guard_eq_some', ne_eq, ite_not,
      Option.ite_none_right_eq_some, Option.some.injEq, exists_const]
    constructor
    · rintro ⟨_, h, rfl, rfl⟩
      exact ⟨_, hiff.1 h, rfl, rfl⟩
    · rintro ⟨_, h, rfl, rfl⟩
      exact ⟨_, hiff.2 h, rfl, rfl⟩
  simp only [tokEq_eq _ ht' he', decide_eq_true_eq, kindOf]
  split_ifs
  · exact hver .config
  · exact hver .stats
  · exact hver .status
  · simp

/-- Both readers take the same headers. -/
theorem headerKind_eq (hl : ls ≤ le) (he : le ≤ b.length) :
    headerKind b ls le = Protocol.headerKind (slice b ls le) := by
  have h₁ := nextToken_spec hl he
  rw [headerKind, Protocol.headerKind]
  -- By the three words of the header, one after another.
  cases ht₁ : nextToken b ls le with
  | none =>
    rw [ht₁] at h₁
    simp [h₁]
  | some t₁ =>
    obtain ⟨ts₁, te₁⟩ := t₁
    rw [ht₁] at h₁
    have hb₁ := nextToken_bounds ht₁
    have h₂ := nextToken_spec h₁.1 he
    rw [h₁.2]
    cases ht₂ : nextToken b te₁ le with
    | none =>
      rw [ht₂] at h₂
      simp [h₂, ht₂]
    | some t₂ =>
      obtain ⟨ts₂, te₂⟩ := t₂
      rw [ht₂] at h₂
      have hb₂ := nextToken_bounds ht₂
      have h₃ := nextToken_spec h₂.1 he
      rw [h₂.2]
      cases ht₃ : nextToken b te₂ le with
      | none =>
        rw [ht₃] at h₃
        simp [h₃, ht₂, ht₃]
      | some t₃ =>
        obtain ⟨ts₃, te₃⟩ := t₃
        rw [ht₃] at h₃
        have hb₃ := nextToken_bounds ht₃
        rw [h₃.2]
        have hkind := @kindOfTokens_eq b ts₂ te₂ ts₃ te₃ (h₂.1.trans he) hb₃.2.le (h₃.1.trans he)
        simp only [Option.bind_eq_bind, Option.bind_some, ht₂, ht₃, List.getElem?_cons_zero,
          List.getElem?_cons_succ, tokEq_eq _ hb₁.2.le (h₁.1.trans he), decide_eq_true_eq,
          Option.some.injEq, Option.pure_def, hkind]

/-- The two read the same headers, and go on from the same place. -/
theorem parseHeaderFrom_eq (b : Bytes) (i : ℕ) (hi : i ≤ b.length) :
    (parseHeaderFrom b i).2 ≤ b.length ∧ Protocol.parseHeader (b.drop i) =
      (parseHeaderFrom b i).1.map fun kind => (kind, b.drop (parseHeaderFrom b i).2) := by
  induction hm : b.length - i using Nat.strong_induction_on generalizing i with
  | _ m ih =>
    rw [parseHeaderFrom, Protocol.parseHeader]
    rcases Nat.eq_or_lt_of_le hi with rfl | hlt
    · have hn : nextLine b b.length = none := by rw [nextLine, if_pos le_rfl]
      split
      · simp
      · simp_all
    · obtain ⟨l, hl, hls, hle, hnext, hline, hrest⟩ := nextLine_spec hlt
      obtain ⟨hsig, hcs, hce, hcontent⟩ := lineSignificant_spec hls hle
      have hlt' := nextLine_lt hl
      rw [if_neg (by simpa using hlt), ← hline, ← hrest]
      split
      · simp_all
      · rename_i l' hl'
        obtain rfl : l = l' := Option.some.inj (hl.symm.trans hl')
        dsimp only
        rw [hsig, Bool.not_not]
        by_cases hig : isIgnorable (slice b l.ls l.le) = true
        -- A line that says nothing is passed over by both.
        · rw [if_pos hig, if_pos hig]
          exact ih _ (hm ▸ hlt') _ hnext rfl
        · rw [if_neg hig, if_neg hig, hcontent, hsig]
          by_cases ha : (lineSignificant b l.ls l.le).ascii = true
          · simp [hig, ha, hnext, headerKind_eq hce hle, Option.map_eq_bind]
          · simp [ha, hnext]

/-- Both readers take the same first lines. -/
theorem parseHeader_eq (b : Bytes) : (parseHeader b).2 ≤ b.length ∧
    Protocol.parseHeader b = (parseHeader b).1.map fun kind =>
      (kind, b.drop (parseHeader b).2) := by
  simpa [parseHeader] using parseHeaderFrom_eq b 0 (Nat.zero_le _)

/-! ## Side by side -/

section Rel

variable {ε σ τ : Type*} {R : σ → τ → Prop}

/-- Both give up, or both go on in related states. -/
def RelOut (R : σ → τ → Prop) : Except ε σ → Option τ → Prop
  | .error _, none => True
  | .ok s, some t => R s t
  | _, _ => False

theorem RelOut.eq_none {e : ε} {o : Option τ} (h : RelOut R (.error e) o) : o = none := by
  cases o with
  | none => rfl
  | some t => exact h.elim

theorem RelOut.exists_eq_some {s : σ} {o : Option τ} (h : RelOut (ε := ε) R (.ok s) o) :
    ∃ t, o = some t ∧ R s t := by
  cases o with
  | none => exact h.elim
  | some t => exact ⟨t, rfl, h⟩

/-- If one line keeps two readers in related states, so do all. -/
theorem forLines_rel {f : ℕ → ℕ → σ → Except ε σ} {g : Bytes → τ → Option τ}
    (hf : ∀ {cs le s t}, cs ≤ le → le ≤ b.length → R s t →
      RelOut R (f cs le s) (g (slice b cs le) t))
    {s : σ} {t : τ} (hi : i ≤ b.length) (h : R s t) :
    RelOut R (forLines b f i s) ((lines (b.drop i)).foldlM
      (fun t line => (significant line).elim (some t) (g · t)) t) := by
  induction hm : b.length - i using Nat.strong_induction_on generalizing i s t with
  | _ m ih =>
    rw [forLines]
    rcases Nat.eq_or_lt_of_le hi with rfl | hlt
    · have hn : nextLine b b.length = none := by rw [nextLine, if_pos le_rfl]
      rw [lines]
      split
      · rw [if_pos (List.drop_length)]
        exact h
      · simp_all
    · obtain ⟨l, hl, hls, hle, hnext, hline, hrest⟩ := nextLine_spec hlt
      obtain ⟨-, hcs, hce, hcontent⟩ := lineSignificant_spec hls hle
      have hstep : ∀ {s t}, R s t → RelOut R (forLines b f l.next s)
          ((lines (b.drop l.next)).foldlM
            (fun t line => (significant line).elim (some t) (g · t)) t) :=
        fun h => ih _ (hm ▸ nextLine_lt hl) hnext h rfl
      rw [lines, if_neg (by simpa using hlt), ← hline, ← hrest, List.foldlM_cons, hcontent]
      split
      · simp_all
      · rename_i l' hl'
        obtain rfl : l = l' := Option.some.inj (hl.symm.trans hl')
        dsimp only
        by_cases hc : (lineSignificant b l.ls l.le).significant = true ∧
            (lineSignificant b l.ls l.le).ascii = true
        -- The bodies are compared on a significant line; the others are skipped.
        · have hb := hf hce hle h
          rw [if_pos hc, if_neg (by simp [hc]), Option.elim_some]
          cases hr : f (lineSignificant b l.ls l.le).cs l.le s with
          | error e =>
            rw [hr] at hb
            rw [hb.eq_none]
            trivial
          | ok s' =>
            rw [hr] at hb
            obtain ⟨t', ht', hrel⟩ := hb.exists_eq_some
            rw [ht']
            exact hstep hrel
        · rw [if_neg hc, if_pos (by simpa [or_iff_not_imp_left] using hc)]
          exact hstep h

end Rel

end VpnHide.Kmod

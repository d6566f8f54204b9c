import VpnHide.Kmod.Lexical

/-!
# The cursor of a stats request

`vpnhide_parse_stats_after` of `kmod/shared/vpnhide_logic.h`: a `stats` request may
carry one record `after 0x<uid>`, which asks for the rows after that uid. The record is
strict, and may not be repeated.

The two requests that userspace sends are read as they are meant
(`parseStatsAfter_first`, `parseStatsAfter_next`).
-/

namespace VpnHide.Kmod

open Lib Protocol

/-- A hexadecimal token with its prefix, within `bits` bits. -/
def tokHex (b : Bytes) (ts te bits : ℕ) : Option ℕ :=
  let max := if 64 ≤ bits then 0xffffffffffffffff else 0xffffffff
  if te - ts < 3 then none
  else if b[ts]! ≠ '0'.toUInt8 then none
  else if b[ts + 1]! ≠ 'x'.toUInt8 ∧ b[ts + 1]! ≠ 'X'.toUInt8 then none
  else forRange (pushDigit 16 max hexValue) b (ts + 2) te 0

/-- The cursor read so far. -/
structure AfterState where
  after : UInt32
  seen : Bool
  deriving DecidableEq

/-- Reading the tokens `[cs, le)` of a significant line; an error is `return 0`. -/
def afterTokens (b : Bytes) (cs le : ℕ) (s : AfterState) : Except Unit AfterState :=
  match nextToken b cs le with
  | none => .ok s
  | some (ts, te) =>
    if !tokEq b ts te (ascii "after") then .ok s
    else if s.seen then .error ()
    else
      match nextToken b te le with
      | none => .error ()
      | some (ts, te) =>
        match tokHex b ts te 32 with
        | none => .error ()
        | some value =>
          if (nextToken b te le).isSome then .error () else .ok ⟨value.toUInt32, true⟩

/-- The cursor of a `stats` request, or `none` if the request is refused. -/
def parseStatsAfter (b : Bytes) : Option UInt32 :=
  let (k, i) := parseHeader b
  if k ≠ some .stats then none
  else
    match forLines b (afterTokens b) i ⟨0, false⟩ with
    | .error _ => none
    | .ok s => some s.after

/-! ## The same on lists of tokens -/

/-- A hexadecimal number with its prefix. -/
def hexPrefixed (tok : Bytes) (bits : ℕ) : Option ℕ :=
  match tok with
  | c₀ :: c₁ :: d :: digits =>
    if c₀ ≠ '0'.toUInt8 then none
    else if c₁ ≠ 'x'.toUInt8 ∧ c₁ ≠ 'X'.toUInt8 then none
    else parseHexBare (d :: digits) bits
  | _ => none

/-- The argument of an `after` record. -/
def afterArgument : List Bytes → Option AfterState
  | [tok] => (hexPrefixed tok 32).map fun value => ⟨value.toUInt32, true⟩
  | _ => none

/-- What a line does to the cursor, from its tokens. -/
def afterRecord (toks : List Bytes) (s : AfterState) : Option AfterState :=
  match toks with
  | [] => some s
  | keyword :: args =>
    if keyword ≠ ascii "after" then some s else if s.seen then none else afterArgument args

variable {b : Bytes} {ts te cs le : ℕ}

/-- Both readers take the same numbers. -/
theorem tokHex_eq (bits : ℕ) (he : te ≤ b.length) :
    tokHex b ts te bits = hexPrefixed (slice b ts te) bits := by
  rw [tokHex]
  have hlen := length_slice (s := ts) he
  by_cases hlt : te - ts < 3
  -- Too short for the prefix and a digit.
  · rw [if_pos hlt]
    rcases hs : slice b ts te with _ | ⟨c₀, _ | ⟨c₁, _ | ⟨d, digits⟩⟩⟩
    · rfl
    · rfl
    · rfl
    · rw [hs] at hlen
      simp only [List.length_cons] at hlen
      omega
  · rw [if_neg hlt, slice_cons (by omega) he, slice_cons (by omega) he, slice_cons (by omega) he,
      hexPrefixed, ← slice_cons (by omega) he, parseHexBare, forRange_eq_foldlM _ he,
      funext hexValue_eq, ← maxOfBits, if_neg ((slice_eq_nil_iff he).not.2 (by omega))]

/-- Both readers take the same cursors. -/
theorem afterTokens_rel {s : AfterState} (hp : cs ≤ le) (he : le ≤ b.length) :
    RelOut Eq (afterTokens b cs le s) (afterRecord (tokens (slice b cs le)) s) := by
  have htok := nextToken_spec hp he
  rw [afterTokens]
  cases ht : nextToken b cs le with
  | none =>
    rw [ht] at htok
    rw [htok]
    rfl
  | some t =>
    obtain ⟨ts, te⟩ := t
    rw [ht] at htok
    obtain ⟨hte, htoks⟩ := htok
    have harg := nextToken_spec hte he
    rw [htoks, afterRecord]
    dsimp only
    rw [tokEq_eq _ (nextToken_bounds ht).2.le (hte.trans he)]
    by_cases hk : slice b ts te = ascii "after"
    · simp only [hk, decide_true, Bool.not_true, Bool.false_eq_true, if_false,
        ne_eq, not_true_eq_false]
      by_cases hseen : s.seen
      · rw [if_pos hseen, if_pos hseen]
        trivial
      · rw [if_neg hseen, if_neg hseen]
        cases ha : nextToken b te le with
        | none =>
          rw [ha] at harg
          rw [harg]
          trivial
        | some t' =>
          obtain ⟨ts', te'⟩ := t'
          rw [ha] at harg
          obtain ⟨hte', harg⟩ := harg
          have hrest := nextToken_spec hte' he
          rw [harg]
          dsimp only
          rw [tokHex_eq _ (hte'.trans he)]
          -- A second argument is an error.
          cases hr : nextToken b te' le with
          | none =>
            rw [hr] at hrest
            rw [hrest, afterArgument]
            cases hexPrefixed (slice b ts' te') 32 with
            | none => trivial
            | some value => rfl
          | some t'' =>
            rw [hr] at hrest
            rw [hrest.2]
            cases hexPrefixed (slice b ts' te') 32 <;> trivial
    · rw [if_pos (by simpa using hk), if_pos hk]
      rfl

/-- The lines of a request, one after another. -/
theorem parseStatsAfter_eq {rest : Bytes} (h : Protocol.parseHeader b = some (.stats, rest)) :
    parseStatsAfter b = ((lines rest).foldlM (fun s line => (significant line).elim (some s)
      fun content => afterRecord (tokens content) s) ⟨0, false⟩).map (·.after) := by
  obtain ⟨hnext, hheader⟩ := parseHeader_eq b
  rw [parseStatsAfter]
  generalize parseHeader b = hd at hnext hheader ⊢
  obtain ⟨k, i⟩ := hd
  rw [hheader] at h
  cases k with
  | none => cases h
  | some kind =>
    obtain ⟨rfl, rfl⟩ := Prod.mk.inj (Option.some.inj h)
    have hlines := forLines_rel (R := Eq) (f := afterTokens b)
      (g := fun content s => afterRecord (tokens content) s)
      (fun hcs hle hst => hst ▸ afterTokens_rel hcs hle) hnext (Eq.refl (⟨0, false⟩ : AfterState))
    dsimp only at hlines ⊢
    rw [if_neg (by simp)]
    split
    · rename_i hr
      rw [hr] at hlines
      rw [hlines.eq_none]
      rfl
    · rename_i s hr
      rw [hr] at hlines
      obtain ⟨s', hs', rfl⟩ := hlines.exists_eq_some
      rw [hs']
      rfl

/-! ## The requests -/

/-- The header of a `stats` payload. -/
def statsHeader : Bytes := ascii "vpnhide 1 stats"

theorem isLineByte_statsHeader : ∀ c ∈ statsHeader, IsLineByte c := by
  have : ∀ c ∈ statsHeader, 0x20 ≤ c ∧ c ≤ 0x7e := by decide
  exact this

/-- The header alone asks for the first page. -/
theorem parseStatsAfter_first : parseStatsAfter statsHeader = some 0 := by decide +kernel

/-- A payload that starts with the header is a `stats` payload. -/
theorem parseHeader_statsHeader (rest : Bytes) :
    Protocol.parseHeader (statsHeader ++ '\n'.toUInt8 :: rest) = some (.stats, rest) := by
  have hsig : significant statsHeader = some statsHeader := by decide
  have hig : isIgnorable statsHeader = false := by decide
  have hkind : Protocol.headerKind statsHeader = some .stats := by decide
  rw [Protocol.parseHeader, if_neg (by simp), nextLine_append isLineByte_statsHeader]
  simp [hsig, hig, hkind]

/-- A number is read back. -/
theorem hexPrefixed_hex {n : ℕ} (hn : n ≤ 0xffffffff) :
    hexPrefixed (ascii "0x" ++ hex n) 32 = some n := by
  have hne := (isToken_hex n).1
  rcases hh : hex n with _ | ⟨d, digits⟩
  · exact absurd hh hne
  · have := @parseHexBare_hex n 32 hn
    rw [hh] at this
    exact this

/-- The next request asks for what follows its cursor. -/
theorem parseStatsAfter_next (cursor : UInt32) : parseStatsAfter
    (statsHeader ++ ascii "\nafter 0x" ++ hex cursor.toNat ++ ascii "\n") = some cursor := by
  have hafter : IsToken (ascii "after") := by decide
  have harg : ∀ v ∈ [ascii "0x" ++ hex cursor.toNat], IsToken v := by
    intro v hv
    rw [List.mem_singleton.1 hv]
    exact (isToken_hex _).append_left (by decide)
  have hline : statsHeader ++ ascii "\nafter 0x" ++ hex cursor.toNat ++ ascii "\n" =
      statsHeader ++ '\n'.toUInt8 ::
        (words (ascii "after") [ascii "0x" ++ hex cursor.toNat] ++ '\n'.toUInt8 :: []) := by
    simp [words, ascii]
  have hsig := (significant_words hafter harg (by decide)).1
  rw [hline, parseStatsAfter_eq (parseHeader_statsHeader _),
    lines_cons (fun _ => isLineByte_of_mem_words hafter harg), lines_nil, List.foldlM_cons, hsig,
    Option.elim_some, tokens_words hafter harg]
  have hrec : afterRecord [ascii "after", ascii "0x" ++ hex cursor.toNat] ⟨0, false⟩ =
      some ⟨cursor, true⟩ := by
    have hlt := Nat.le_of_lt_succ cursor.toNat_lt
    simp [afterRecord, afterArgument, hexPrefixed_hex hlt]
  rw [hrec]
  rfl

end VpnHide.Kmod

import VpnHide.Diag.Wire
import VpnHide.Protocol.DiagnosticRaw

/-!
# Commands, written and read

What the crate writes is what the kernel reads. The recogniser of the kernel is given by
what it accepts, part by part (`word_eq_some_iff`, `decimal_eq_some_iff`,
`token_eq_some_iff`), and so a command is accepted if and only if it is one that the crate
can write, up to zeros in front of decimal numbers (`parseCommand_eq_some_iff`).
-/

namespace VpnHide.Diag

open Lib Protocol

/-! ## The parts of a command -/

theorem word_eq_some_iff {w input rest : Bytes} : word w input = some rest ↔ input = w ++ rest := by
  induction w generalizing input with
  | nil => exact Option.some_inj
  | cons c w ih =>
    cases input with
    | nil => simp [word]
    | cons d input =>
      rw [word, List.cons_append, List.cons.injEq]
      split_ifs with hne
      · simp [hne]
      · rw [ih, not_not.1 hne]
        simp

/-- A byte that is a decimal digit. -/
def isDecimal (c : UInt8) : Bool := (decDigit c).isSome

/-- A number in decimal. -/
def decBytes (n : ℕ) : Bytes := (Nat.toDigits 10 n).map Char.toUInt8

/-- The loop over decimal digits, as a fold. -/
theorem decimalLoop_eq (v : ℕ) (input : Bytes) : decimalLoop v input =
    ((input.takeWhile isDecimal).foldlM (pushDigit 10 0xffffffff decDigit) v).map
      fun result => (result, input.dropWhile isDecimal) := by
  induction input generalizing v with
  | nil => rfl
  | cons c cs ih =>
    rw [decimalLoop]
    -- The loop ends at the first byte that is no digit, with the value so far.
    cases hc : decDigit c with
    | none =>
      have hdec : isDecimal c = false := by rw [isDecimal, hc]; rfl
      rw [List.takeWhile_cons_of_neg (by simp [hdec]), List.dropWhile_cons_of_neg (by simp [hdec])]
      rfl
    | some d =>
      have hdec : isDecimal c = true := by rw [isDecimal, hc]; rfl
      rw [List.takeWhile_cons_of_pos hdec, List.dropWhile_cons_of_pos hdec, List.foldlM_cons,
        pushDigit, hc, Option.bind_some]
      dsimp only
      split_ifs
      · rfl
      · exact ih _

/-- A fact of bytes, byte by byte. -/
theorem forall_uint8 {P : UInt8 → Prop} (h : ∀ n : Fin 256, P (UInt8.ofNat n))
    (c : UInt8) : P c := by
  simpa using h ⟨c.toNat, c.toNat_lt⟩

/-- A decimal digit, and its character. -/
theorem decDigit_eq_some {c : UInt8} {d : ℕ} (h : decDigit c = some d) :
    d < 10 ∧ c = (Nat.digitChar d).toUInt8 := by
  have hall : ∀ n : Fin 256, ∀ d ∈ decDigit (UInt8.ofNat n),
      d < 10 ∧ UInt8.ofNat n = (Nat.digitChar d).toUInt8 := by decide +kernel
  exact forall_uint8 (P := fun c => ∀ d ∈ decDigit c, d < 10 ∧ c = (Nat.digitChar d).toUInt8)
    hall c d h

/-- A digit of a token, and its character. -/
theorem tokenDigit_eq_some {c : UInt8} {d : ℕ} (h : tokenDigit c = some d) :
    d < 16 ∧ c = (Nat.digitChar d).toUInt8 := by
  have hall : ∀ n : Fin 256, ∀ d ∈ tokenDigit (UInt8.ofNat n),
      d < 16 ∧ UInt8.ofNat n = (Nat.digitChar d).toUInt8 := by decide +kernel
  exact forall_uint8 (P := fun c => ∀ d ∈ tokenDigit c, d < 16 ∧ c = (Nat.digitChar d).toUInt8)
    hall c d h

theorem decDigit_digitChar : ∀ d < 10, decDigit (Nat.digitChar d).toUInt8 = some d := by decide

theorem tokenDigit_digitChar : ∀ d < 16, tokenDigit (Nat.digitChar d).toUInt8 = some d := by decide

/-- A decimal number, by the digits at the front. -/
theorem decimal_eq (input : Bytes) : decimal input =
    if input.takeWhile isDecimal = [] then none
    else ((input.takeWhile isDecimal).foldlM (pushDigit 10 0xffffffff decDigit) 0).map
      fun result => (result.toUInt32, input.dropWhile isDecimal) := by
  cases input with
  | nil => rfl
  | cons c cs =>
    rw [decimal]
    cases hc : decDigit c with
    | none =>
      have hdec : isDecimal c = false := by rw [isDecimal, hc]; rfl
      rw [if_pos Option.isNone_none, List.takeWhile_cons_of_neg (by simp [hdec]), if_pos rfl]
    | some d =>
      have hdec : isDecimal c = true := by rw [isDecimal, hc]; rfl
      rw [if_neg (by simp), decimalLoop_eq, Option.map_map, if_neg (by simp [hdec])]
      rfl

/-- The rest does not go on with a digit. -/
def NoDigit (rest : Bytes) : Prop := ∀ c ∈ rest.head?, isDecimal c = false

theorem isDecimal_of_mem_zeros_append {k n : ℕ} {c : UInt8}
    (hc : c ∈ List.replicate k '0'.toUInt8 ++ decBytes n) : isDecimal c = true := by
  have hdigit : ∀ d < 10, isDecimal (Nat.digitChar d).toUInt8 = true := by decide
  rcases List.mem_append.1 hc with hc | hc
  · rw [List.eq_of_mem_replicate hc]
    decide
  · obtain ⟨g, hg, rfl⟩ := List.mem_map.1 hc
    obtain ⟨d, hd, rfl⟩ := exists_digitChar_of_mem_toDigits (by decide) hg
    exact hdigit d hd

/-- Digits end where none follows. -/
theorem takeWhile_of_noDigit {l rest : Bytes} (hl : ∀ c ∈ l, isDecimal c = true)
    (hrest : NoDigit rest) :
    (l ++ rest).takeWhile isDecimal = l ∧ (l ++ rest).dropWhile isDecimal = rest := by
  rw [List.takeWhile_append_of_pos hl, List.dropWhile_append_of_pos hl]
  cases rest with
  | nil => simp
  | cons c cs =>
    have hc : isDecimal c = false := hrest c rfl
    rw [List.takeWhile_cons_of_neg (by simp [hc]), List.dropWhile_cons_of_neg (by simp [hc])]
    simp

/-- The decimals that are accepted: a number, with any zeros in front. -/
theorem decimal_eq_some_iff {input rest : Bytes} {n : UInt32} :
    decimal input = some (n, rest) ↔
      NoDigit rest ∧ ∃ k, input = List.replicate k '0'.toUInt8 ++ decBytes n.toNat ++ rest := by
  have hle : ∀ c d, decDigit c = some d → d ≤ 0xffffffff := fun c d h =>
    (decDigit_eq_some h).1.le.trans (by decide)
  rw [decimal_eq]
  constructor
  · intro h
    split_ifs at h with hne
    obtain ⟨v, hv, hpair⟩ := Option.map_eq_some_iff.1 h
    obtain ⟨rfl, rfl⟩ := Prod.mk.inj hpair
    obtain ⟨ds, hds, rfl, hmax⟩ := foldlM_pushDigit_eq_some (by decide) hle (by decide) hv
    have hn : (numeral 10 0 ds).toUInt32.toNat = numeral 10 0 ds :=
      UInt32.toNat_ofNat_of_lt' (Nat.lt_succ_of_le hmax)
    -- Digits with a value are the digits of that value, with zeros in front.
    obtain ⟨k, hk⟩ := exists_zeros_append_toDigits (f := Char.toUInt8) (by decide)
      (fun c d => decDigit_eq_some) hne hds
    refine ⟨?_, k, ?_⟩
    · intro c hc
      have := List.head?_dropWhile_not isDecimal input
      rw [Option.mem_def.1 hc] at this
      simpa using this
    · rw [hn, decBytes]
      calc input = input.takeWhile isDecimal ++ input.dropWhile isDecimal :=
        List.takeWhile_append_dropWhile.symm
        _ = _ := by rw [← hk]
  · rintro ⟨hrest, k, rfl⟩
    obtain ⟨htake, hdrop⟩ :=
      takeWhile_of_noDigit (fun c => isDecimal_of_mem_zeros_append (k := k) (n := n.toNat)) hrest
    obtain ⟨ds, hds, hv⟩ :=
      mapM_zeros_append_toDigits (f := Char.toUInt8) (by decide) decDigit_digitChar k n.toNat
    have hmax : n.toNat ≤ 0xffffffff := Nat.le_of_lt_succ n.toNat_lt
    rw [htake, hdrop, if_neg (by simp [decBytes]), foldlM_pushDigit (by decide) hle (by decide)]
    rw [decBytes, hds, Option.bind_some, hv, if_pos hmax, Option.map_some]
    simp

/-- A hexadecimal digit is shifted in. -/
theorem toNat_shiftLeft_or {r : UInt64} {d : ℕ} (hr : r.toNat < 16 ^ 15) (hd : d < 16) :
    (r <<< 4 ||| d.toUInt64).toNat = r.toNat * 16 + d := by
  have hshift : (r <<< 4).toNat = r.toNat <<< 4 := by
    rw [UInt64.toNat_shiftLeft, show (4 : UInt64).toNat % 64 = 4 from rfl]
    refine Nat.mod_eq_of_lt ?_
    rw [Nat.shiftLeft_eq]
    omega
  have hdigit : d.toUInt64.toNat = d := UInt64.toNat_ofNat_of_lt' (hd.trans (by decide))
  rw [UInt64.toNat_or, hshift, hdigit, ← Nat.shiftLeft_add_eq_or_of_lt hd, Nat.shiftLeft_eq]

/-- The loop reads as many digits as it is told to. -/
theorem tokenLoop_eq_some {r res : UInt64} {n : ℕ} {input rest : Bytes}
    (h : tokenLoop r n input = some (res, rest)) :
    ∃ l ds, l.length = n ∧ l.mapM tokenDigit = some ds ∧ input = l ++ rest := by
  induction n generalizing r input with
  | zero =>
    rw [tokenLoop] at h
    exact ⟨[], [], rfl, rfl, congrArg Prod.snd (Option.some.inj h)⟩
  | succ n ih =>
    cases input with
    | nil => cases h
    | cons c cs =>
      rw [tokenLoop] at h
      cases hc : tokenDigit c with
      | none =>
        rw [hc] at h
        cases h
      | some d =>
        rw [hc] at h
        obtain ⟨l, ds, hl, hds, rfl⟩ := ih h
        refine ⟨c :: l, d :: ds, congrArg (· + 1) hl, ?_, rfl⟩
        rw [List.mapM_cons, hc, hds]
        rfl

/-- The value of the digits that the loop reads. -/
theorem tokenLoop_append {r : UInt64} {m : ℕ} {l : Bytes} {ds : List ℕ} (hr : r.toNat < 16 ^ m)
    (hm : m + l.length ≤ 16) (hds : l.mapM tokenDigit = some ds) (rest : Bytes) :
    ∃ res, tokenLoop r l.length (l ++ rest) = some (res, rest) ∧
      res.toNat = numeral 16 r.toNat ds := by
  induction l generalizing r m ds with
  | nil =>
    obtain rfl : [] = ds := by simpa using hds
    exact ⟨r, rfl, rfl⟩
  | cons c l ih =>
    obtain ⟨d, hd, es, hes, rfl⟩ : ∃ d, tokenDigit c = some d ∧ ∃ es, l.mapM tokenDigit = some es ∧
        d :: es = ds := by
      simpa [List.mapM_cons, Option.bind_eq_some_iff] using hds
    rw [List.length_cons] at hm
    have hd16 := (tokenDigit_eq_some hd).1
    have hpow : (16 : ℕ) ^ m ≤ 16 ^ 15 := Nat.pow_le_pow_right (by decide) (by omega)
    have hstep := toNat_shiftLeft_or (hr.trans_le hpow) hd16
    have hr' : (r <<< 4 ||| d.toUInt64).toNat < 16 ^ (m + 1) := by
      rw [hstep, pow_succ]
      omega
    obtain ⟨res, hres, hv⟩ := ih hr' (by omega) hes
    refine ⟨res, ?_, by rw [hv, hstep, numeral_cons]⟩
    rw [List.length_cons, List.cons_append, tokenLoop, hd]
    exact hres

/-- A nonce in 16 hexadecimal digits. -/
def hexBytes (n : UInt64) : Bytes := (DiagnosticRaw.hex016 n).map Char.toUInt8

/-- A nonce, as its digits. -/
theorem hexBytes_eq (n : UInt64) : hexBytes n =
    List.replicate (16 - (Nat.toDigits 16 n.toNat).length) '0'.toUInt8 ++
      (Nat.toDigits 16 n.toNat).map Char.toUInt8 := by
  rw [hexBytes, DiagnosticRaw.hex016, Str.padded, List.map_append, List.map_replicate]

theorem length_hexBytes (n : UInt64) : (hexBytes n).length = 16 := by
  have hlen := @length_toDigits_le 16 (by decide) n.toNat 16 (by decide) n.toNat_lt
  rw [hexBytes_eq, List.length_append, List.length_replicate, List.length_map]
  omega

/-- The tokens that are accepted: the nonces that are not zero, in 16 digits. -/
theorem token_eq_some_iff {input rest : Bytes} {n : UInt64} :
    token input = some (n, rest) ↔ n ≠ 0 ∧ input = hexBytes n ++ rest := by
  constructor
  · intro h
    rw [token] at h
    -- The loop reads 16 digits, and their value is the nonce.
    cases hloop : tokenLoop 0 16 input with
    | none =>
      rw [hloop] at h
      cases h
    | some p =>
      obtain ⟨res, rest'⟩ := p
      rw [hloop] at h
      dsimp only at h
      split_ifs at h with hne
      obtain ⟨rfl, rfl⟩ := Prod.mk.inj (Option.some.inj h)
      refine ⟨hne, ?_⟩
      obtain ⟨l, ds, hl, hds, rfl⟩ := tokenLoop_eq_some hloop
      obtain ⟨res', hres', hv⟩ :=
        tokenLoop_append (r := 0) (m := 0) (by decide) (by omega) hds rest'
      rw [hl] at hres'
      obtain rfl : res' = res := congrArg Prod.fst (Option.some.inj (hres'.symm.trans hloop))
      obtain ⟨k, hk⟩ := exists_zeros_append_toDigits (f := Char.toUInt8) (by decide)
        (fun c d => tokenDigit_eq_some) (by rintro rfl; cases hl) hds
      have hv' : numeral 16 0 ds = res'.toNat := hv.symm
      have hlen := congrArg List.length hk
      rw [hv', List.length_append, List.length_replicate, List.length_map, hl] at hlen
      rw [hexBytes_eq, hk, hv', show k = 16 - (Nat.toDigits 16 res'.toNat).length by omega]
  · rintro ⟨hne, rfl⟩
    obtain ⟨ds, hds, hv⟩ :=
      mapM_zeros_append_toDigits (f := Char.toUInt8) (by decide) tokenDigit_digitChar
      (16 - (Nat.toDigits 16 n.toNat).length) n.toNat
    rw [← hexBytes_eq] at hds
    obtain ⟨res, hres, hres'⟩ := tokenLoop_append (r := 0) (m := 0) (by decide)
      (by rw [length_hexBytes]) hds rest
    rw [length_hexBytes] at hres
    obtain rfl : res = n := UInt64.toNat_inj.1 (hres'.trans hv)
    rw [token, hres]
    exact if_neg hne

/-! ## Whole commands -/

/-- The values that a command may carry. -/
def ValidArm (tid uid durationMs : UInt32) : Prop :=
  ¬(tid = 0 ∨ 0x7fffffff < tid ∨ uid = 0 ∨ durationMs = 0 ∨ maxMs < durationMs)

/-- A decimal number with zeros in front. -/
def decField (k : ℕ) (n : UInt32) : Bytes := List.replicate k '0'.toUInt8 ++ decBytes n.toNat

theorem noDigit_nil : NoDigit [] := fun _ hc => by cases hc

theorem noDigit_blank (rest : Bytes) : NoDigit (ascii " " ++ rest) := by
  intro c hc
  obtain rfl : ' '.toUInt8 = c := Option.some.inj hc
  decide

/-- What `arm` is read from. -/
theorem parseArm_eq_some_iff {input rest : Bytes} {command : Command} :
    parseArm input = some (command, rest) ↔
      ∃ tid uid nonce durationMs z₁ z₂ z₃, command = ⟨.arm, tid, uid, durationMs, nonce⟩ ∧
        ValidArm tid uid durationMs ∧ nonce ≠ 0 ∧ NoDigit rest ∧
        input = decField z₁ tid ++ (ascii " " ++ (decField z₂ uid ++
          (ascii " " ++ (hexBytes nonce ++
            (ascii " " ++ (decField z₃ durationMs ++ rest)))))) := by
  simp only [parseArm, Option.bind_eq_bind, Option.bind_eq_some_iff, Prod.exists,
    decimal_eq_some_iff, word_eq_some_iff, token_eq_some_iff, Option.ite_none_left_eq_some,
    Option.some.injEq, Prod.mk.injEq]
  constructor
  · rintro ⟨tid, i₁, ⟨-, z₁, rfl⟩, i₂, rfl, uid, i₃, ⟨-, z₂, rfl⟩, i₄, rfl, nonce, i₅,
      ⟨hnonce, rfl⟩, i₆, rfl, durationMs, i₇, ⟨hrest, z₃, rfl⟩, hv, rfl, rfl⟩
    exact ⟨tid, uid, nonce, durationMs, z₁, z₂, z₃, rfl, hv, hnonce, hrest, rfl⟩
  · rintro ⟨tid, uid, nonce, durationMs, z₁, z₂, z₃, rfl, hv, hnonce, hrest, rfl⟩
    refine ⟨tid, _, ⟨noDigit_blank _, z₁, rfl⟩, _, rfl, uid, _, ⟨noDigit_blank _, z₂, rfl⟩, _, rfl,
      nonce, _, ⟨hnonce, rfl⟩, _, rfl, durationMs, _, ⟨hrest, z₃, rfl⟩, hv, rfl, rfl⟩

/-- What the other commands are read from. -/
theorem parseKind_eq_some_iff {input rest : Bytes} {kind : CommandKind} :
    parseKind input = some (kind, rest) ↔
      (kind = .activate ∧ input = ascii "activate " ++ rest) ∨
        (kind = .revoke ∧ input = ascii "revoke " ++ rest) := by
  rw [parseKind]
  cases hactivate : word (ascii "activate ") input with
  | some i =>
    obtain rfl := word_eq_some_iff.1 hactivate
    -- No line begins with both words.
    have hdiff : ∀ rest, ascii "activate " ++ i ≠ ascii "revoke " ++ rest := fun rest h =>
      absurd (List.cons.inj h).1 (by decide)
    constructor
    · intro h
      obtain ⟨rfl, rfl⟩ := Prod.mk.inj (Option.some.inj h)
      exact .inl ⟨rfl, rfl⟩
    · rintro (⟨rfl, h⟩ | ⟨-, h⟩)
      · rw [List.append_cancel_left h]
      · exact absurd h (hdiff rest)
  | none =>
    have hnone : ∀ rest, input ≠ ascii "activate " ++ rest := fun rest h => by
      rw [word_eq_some_iff.2 h] at hactivate
      cases hactivate
    dsimp only
    rw [Option.map_eq_some_iff]
    constructor
    · rintro ⟨i, hi, h⟩
      obtain ⟨rfl, rfl⟩ := Prod.mk.inj h
      exact .inr ⟨rfl, word_eq_some_iff.1 hi⟩
    · rintro (⟨-, h⟩ | ⟨rfl, h⟩)
      · exact absurd h (hnone rest)
      · exact ⟨rest, word_eq_some_iff.2 h, rfl⟩

/-- The command that the kernel reads. -/
def kernelCommand : DiagnosticRaw.Command → Command
  | .arm tid uid nonce durationMs => ⟨.arm, tid, uid, durationMs, nonce⟩
  | .activate nonce => ⟨.activate, 0, 0, 0, nonce⟩
  | .revoke nonce => ⟨.revoke, 0, 0, 0, nonce⟩

/-- A command that can be written. -/
def Valid : DiagnosticRaw.Command → Prop
  | .arm tid uid nonce durationMs => ValidArm tid uid durationMs ∧ nonce ≠ 0
  | .activate nonce => nonce ≠ 0
  | .revoke nonce => nonce ≠ 0

/-- A command after its prefix, with zeros in front of its decimal numbers. -/
def bodyBytes (z₁ z₂ z₃ : ℕ) : DiagnosticRaw.Command → Bytes
  | .arm tid uid nonce durationMs =>
    ascii "arm " ++ (decField z₁ tid ++ (ascii " " ++ (decField z₂ uid ++
      (ascii " " ++ (hexBytes nonce ++ (ascii " " ++ decField z₃ durationMs))))))
  | .activate nonce => ascii "activate " ++ hexBytes nonce
  | .revoke nonce => ascii "revoke " ++ hexBytes nonce

/-- `arm` is read first. -/
theorem parseBody_of_word {input i : Bytes} (h : input = ascii "arm " ++ i) :
    parseBody input = parseArm i := by
  rw [parseBody, word_eq_some_iff.2 h]

theorem parseBody_of_kind {input i rest : Bytes} {kind : CommandKind} {nonce : UInt64}
    (hkind : parseKind input = some (kind, i)) (htoken : token i = some (nonce, rest)) :
    parseBody input = some (⟨kind, 0, 0, 0, nonce⟩, rest) := by
  have harm : word (ascii "arm ") input = none := by
    cases hword : word (ascii "arm ") input with
    | none => rfl
    | some j =>
      -- The second letters differ, or the first ones do.
      have hj := word_eq_some_iff.1 hword
      rcases parseKind_eq_some_iff.1 hkind with ⟨-, h⟩ | ⟨-, h⟩
      · exact absurd (List.cons.inj (List.cons.inj (hj.symm.trans h)).2).1 (by decide)
      · exact absurd (List.cons.inj (hj.symm.trans h)).1 (by decide)
  rw [parseBody, harm]
  dsimp only
  rw [hkind]
  change (token i >>= _) = _
  rw [htoken]
  rfl

/-- The commands that are accepted, after their prefix. -/
theorem parseBody_eq_some_iff {input : Bytes} {command : Command} :
    parseBody input = some (command, []) ↔
      ∃ c z₁ z₂ z₃, kernelCommand c = command ∧ Valid c ∧ input = bodyBytes z₁ z₂ z₃ c := by
  constructor
  · intro h
    -- By the word the command begins with.
    cases hword : word (ascii "arm ") input with
    | some i =>
      have hi := word_eq_some_iff.1 hword
      rw [parseBody_of_word hi] at h
      obtain ⟨tid, uid, nonce, durationMs, z₁, z₂, z₃, rfl, hvalid, hnonce, -, rfl⟩ :=
        parseArm_eq_some_iff.1 h
      refine ⟨.arm tid uid nonce durationMs, z₁, z₂, z₃, rfl, ⟨hvalid, hnonce⟩, hi.trans ?_⟩
      rw [List.append_nil]
      rfl
    | none =>
      rw [parseBody, hword] at h
      obtain ⟨⟨kind, i⟩, hkind, h⟩ := Option.bind_eq_some_iff.1 h
      obtain ⟨⟨nonce, rest⟩, htoken, h⟩ := Option.bind_eq_some_iff.1 h
      obtain ⟨rfl, rfl⟩ := Prod.mk.inj (Option.some.inj h)
      obtain ⟨hnonce, rfl⟩ := token_eq_some_iff.1 htoken
      rw [List.append_nil] at hkind
      rcases parseKind_eq_some_iff.1 hkind with ⟨rfl, rfl⟩ | ⟨rfl, rfl⟩
      · exact ⟨.activate nonce, 0, 0, 0, rfl, hnonce, rfl⟩
      · exact ⟨.revoke nonce, 0, 0, 0, rfl, hnonce, rfl⟩
  · rintro ⟨c, z₁, z₂, z₃, rfl, hvalid, rfl⟩
    have htoken : ∀ {nonce : UInt64}, nonce ≠ 0 → token (hexBytes nonce) = some (nonce, []) :=
      fun hne =>
      token_eq_some_iff.2 ⟨hne, (List.append_nil _).symm⟩
    cases c with
    | arm tid uid nonce durationMs =>
      rw [@parseBody_of_word (bodyBytes z₁ z₂ z₃ (.arm tid uid nonce durationMs)) _ rfl,
        parseArm_eq_some_iff]
      refine ⟨tid, uid, nonce, durationMs, z₁, z₂, z₃, rfl, hvalid.1, hvalid.2, noDigit_nil, ?_⟩
      rw [List.append_nil]
    | activate nonce =>
      exact parseBody_of_kind (parseKind_eq_some_iff.2 (.inl ⟨rfl, rfl⟩)) (htoken hvalid)
    | revoke nonce =>
      exact parseBody_of_kind (parseKind_eq_some_iff.2 (.inr ⟨rfl, rfl⟩)) (htoken hvalid)

/-- The commands that are accepted. -/
theorem parseCommand_eq_some_iff {input : Bytes} {command : Command} :
    parseCommand input = some command ↔
      input.length ≤ commandBytes ∧ ∃ c z₁ z₂ z₃, kernelCommand c = command ∧ Valid c ∧
        input = ascii "v1 " ++ bodyBytes z₁ z₂ z₃ c ++ ['\n'.toUInt8] := by
  rw [parseCommand]
  constructor
  · intro h
    split_ifs at h with hbad
    simp only [not_or, not_not, not_lt] at hbad
    obtain ⟨hne, hlen, hlast⟩ := hbad
    obtain ⟨i, hi, h⟩ := Option.bind_eq_some_iff.1 h
    obtain ⟨⟨command', rest⟩, hbody, h⟩ := Option.bind_eq_some_iff.1 h
    dsimp only at h
    split_ifs at h with hrest
    obtain rfl := Option.some.inj h
    obtain rfl := not_not.1 hrest
    obtain ⟨c, z₁, z₂, z₃, hc, hvalid, rfl⟩ := parseBody_eq_some_iff.1 hbody
    refine ⟨hlen, c, z₁, z₂, z₃, hc, hvalid, ?_⟩
    -- The newline that was cut off is put back.
    rw [← word_eq_some_iff.1 hi]
    exact (List.dropLast_append_getLast? _ hlast).symm
  · rintro ⟨hlen, c, z₁, z₂, z₃, hc, hvalid, rfl⟩
    have hgood : ¬(ascii "v1 " ++ bodyBytes z₁ z₂ z₃ c ++ ['\n'.toUInt8] = [] ∨
        commandBytes < (ascii "v1 " ++ bodyBytes z₁ z₂ z₃ c ++ ['\n'.toUInt8]).length ∨
        (ascii "v1 " ++ bodyBytes z₁ z₂ z₃ c ++ ['\n'.toUInt8]).getLast? ≠ some '\n'.toUInt8) := by
      rw [not_or, not_or, not_lt, List.getLast?_concat]
      exact ⟨by simp, hlen, fun h => h rfl⟩
    rw [if_neg hgood, List.dropLast_concat, word_eq_some_iff.2 rfl]
    change (parseBody _ >>= _) = _
    rw [parseBody_eq_some_iff.2 ⟨c, z₁, z₂, z₃, hc, hvalid, rfl⟩]
    rfl

/-! ## What is written -/

/-- The text of a command, with zeros in front of its decimal numbers. -/
def commandText (z₁ z₂ z₃ : ℕ) : DiagnosticRaw.Command → Str
  | .arm tid uid nonce durationMs =>
    "v1 ".toList ++ ("arm ".toList ++
      (List.replicate z₁ '0' ++ DiagnosticRaw.dec tid.toNat ++ (" ".toList ++
        (List.replicate z₂ '0' ++ DiagnosticRaw.dec uid.toNat ++ (" ".toList ++
          (DiagnosticRaw.hex016 nonce ++ (" ".toList ++
            (List.replicate z₃ '0' ++ DiagnosticRaw.dec durationMs.toNat)))))))) ++ ['\n']
  | .activate nonce => "v1 ".toList ++ ("activate ".toList ++ DiagnosticRaw.hex016 nonce) ++ ['\n']
  | .revoke nonce => "v1 ".toList ++ ("revoke ".toList ++ DiagnosticRaw.hex016 nonce) ++ ['\n']

theorem toUtf8_dec (n : ℕ) : Str.toUtf8 (DiagnosticRaw.dec n) = decBytes n :=
  (Str.isWord_toDigits (by decide) (by decide) n).toUtf8_eq

theorem toUtf8_hex016 (n : UInt64) : Str.toUtf8 (DiagnosticRaw.hex016 n) = hexBytes n :=
  (Str.isWord_padded (by decide) (by decide) 16 n.toNat).toUtf8_eq

theorem toUtf8_replicate (k : ℕ) :
    Str.toUtf8 (List.replicate k '0') = List.replicate k '0'.toUInt8 := by
  rw [Str.toUtf8_eq_map fun c hc => ?_, List.map_replicate]
  rw [List.eq_of_mem_replicate hc]
  decide

/-- The text of a command, as bytes. -/
theorem toUtf8_commandText (z₁ z₂ z₃ : ℕ) (c : DiagnosticRaw.Command) :
    Str.toUtf8 (commandText z₁ z₂ z₃ c) = ascii "v1 " ++ bodyBytes z₁ z₂ z₃ c ++
      ['\n'.toUInt8] := by
  have hprefix : Str.toUtf8 "v1 ".toList = ascii "v1 " := Str.toUtf8_eq_map (by decide)
  have harm : Str.toUtf8 "arm ".toList = ascii "arm " := Str.toUtf8_eq_map (by decide)
  have hactivate : Str.toUtf8 "activate ".toList = ascii "activate " :=
    Str.toUtf8_eq_map (by decide)
  have hrevoke : Str.toUtf8 "revoke ".toList = ascii "revoke " := Str.toUtf8_eq_map (by decide)
  have hblank : Str.toUtf8 " ".toList = ascii " " := Str.toUtf8_eq_map (by decide)
  have hnewline : Str.toUtf8 ['\n'] = ['\n'.toUInt8] := Str.toUtf8_eq_map (by decide)
  cases c with
  | arm tid uid nonce durationMs =>
    simp only [commandText, bodyBytes, decField, Str.toUtf8_append, toUtf8_dec, toUtf8_hex016,
      toUtf8_replicate, hprefix, harm, hblank, hnewline]
  | activate nonce =>
    simp only [commandText, bodyBytes, Str.toUtf8_append, toUtf8_hex016, hprefix,
      hactivate, hnewline]
  | revoke nonce =>
    simp only [commandText, bodyBytes, Str.toUtf8_append, toUtf8_hex016, hprefix, hrevoke, hnewline]

theorem length_decBytes_le (n : UInt32) : (decBytes n.toNat).length ≤ 10 := by
  have hlen :=
    @length_toDigits_le 10 (by decide) n.toNat 10 (by decide) (n.toNat_lt.trans (by decide))
  rwa [decBytes, List.length_map]

/-- What is written is short enough. -/
theorem length_commandText_le (c : DiagnosticRaw.Command) :
    (Str.toUtf8 (commandText 0 0 0 c)).length ≤ 128 := by
  have hprefix : (ascii "v1 ").length = 3 := rfl
  have harm : (ascii "arm ").length = 4 := rfl
  have hactivate : (ascii "activate ").length = 9 := rfl
  have hrevoke : (ascii "revoke ").length = 7 := rfl
  have hblank : (ascii " ").length = 1 := rfl
  rw [toUtf8_commandText]
  cases c with
  | arm tid uid nonce durationMs =>
    have htid := length_decBytes_le tid
    have huid := length_decBytes_le uid
    have hms := length_decBytes_le durationMs
    simp only [bodyBytes, decField, List.replicate_zero, List.nil_append, List.length_append,
      length_hexBytes, List.length_singleton, hprefix, harm, hblank]
    omega
  | activate nonce =>
    simp only [bodyBytes, List.length_append, length_hexBytes, List.length_singleton, hprefix,
      hactivate]
    decide
  | revoke nonce =>
    simp only [bodyBytes, List.length_append, length_hexBytes, List.length_singleton,
      hprefix, hrevoke]
    decide

/-- A command is encoded by its text. -/
theorem encode_of_parts {c : DiagnosticRaw.Command} {nonce : UInt64} {s : Str}
    (h : c.parts = .ok (nonce, commandText 0 0 0 c)) :
    c.encode = .ok s ↔ nonce ≠ 0 ∧ s = commandText 0 0 0 c := by
  have hlen : ¬DiagnosticRaw.maxCommandBytes < (Str.toUtf8 (commandText 0 0 0 c)).length :=
    not_lt.2 (length_commandText_le c)
  rw [DiagnosticRaw.Command.encode, h]
  change (if nonce = 0 then _ else _) = _ ↔ _
  rw [if_neg hlen]
  by_cases hzero : nonce = 0
  · rw [if_pos hzero]
    exact iff_of_false (fun h => by cases h) fun h => h.1 hzero
  · rw [if_neg hzero, Except.ok.injEq, eq_comm]
    exact ⟨fun h => ⟨hzero, h⟩, And.right⟩

/-- The crate writes every valid command, and no other. -/
theorem encode_eq_ok_iff {c : DiagnosticRaw.Command} {s : Str} :
    c.encode = .ok s ↔ Valid c ∧ s = commandText 0 0 0 c := by
  have hblank : " ".toList = [' '] := rfl
  cases c with
  | arm tid uid nonce durationMs =>
    have hprefix : 'v' :: DiagnosticRaw.dec DiagnosticRaw.version ++ " arm ".toList =
        "v1 ".toList ++ "arm ".toList := by decide
    have hmax : DiagnosticRaw.maxLeaseMs = maxMs := rfl
    by_cases hvalid : ValidArm tid uid durationMs
    · rw [Valid, and_iff_right hvalid]
      refine encode_of_parts ?_
      rw [DiagnosticRaw.Command.parts, hprefix, hmax, if_neg hvalid, commandText, hblank]
      simp only [List.replicate_zero, List.nil_append, List.append_assoc, List.cons_append]
    · refine iff_of_false (fun h => ?_) fun h => hvalid h.1.1
      rw [DiagnosticRaw.Command.encode, DiagnosticRaw.Command.parts, hmax,
        if_pos (not_not.1 hvalid)] at h
      cases h
  | activate nonce =>
    have hprefix : 'v' :: DiagnosticRaw.dec DiagnosticRaw.version ++ " activate ".toList =
        "v1 ".toList ++ "activate ".toList := by decide
    refine encode_of_parts ?_
    rw [DiagnosticRaw.Command.parts, hprefix, commandText]
    simp only [List.append_assoc]
  | revoke nonce =>
    have hprefix : 'v' :: DiagnosticRaw.dec DiagnosticRaw.version ++ " revoke ".toList =
        "v1 ".toList ++ "revoke ".toList := by decide
    refine encode_of_parts ?_
    rw [DiagnosticRaw.Command.parts, hprefix, commandText]
    simp only [List.append_assoc]

/-- What the crate writes, the kernel reads. -/
theorem parseCommand_encode {c : DiagnosticRaw.Command} {s : Str} (h : c.encode = .ok s) :
    parseCommand (Str.toUtf8 s) = some (kernelCommand c) := by
  obtain ⟨hvalid, rfl⟩ := encode_eq_ok_iff.1 h
  exact parseCommand_eq_some_iff.2
    ⟨length_commandText_le c, c, 0, 0, 0, rfl, hvalid, toUtf8_commandText 0 0 0 c⟩

/-- What the kernel reads, the crate can write, up to zeros in front of decimal numbers. -/
theorem exists_encode {input : Bytes} {command : Command} (h : parseCommand input = some command) :
    ∃ c z₁ z₂ z₃, kernelCommand c = command ∧ c.encode = .ok (commandText 0 0 0 c) ∧
      input = Str.toUtf8 (commandText z₁ z₂ z₃ c) := by
  obtain ⟨-, c, z₁, z₂, z₃, hc, hvalid, rfl⟩ := parseCommand_eq_some_iff.1 h
  exact ⟨c, z₁, z₂, z₃, hc, encode_eq_ok_iff.2 ⟨hvalid, rfl⟩, (toUtf8_commandText z₁ z₂ z₃ c).symm⟩

end VpnHide.Diag

import VpnHide.Protocol.TelemetryRoundTrip

/-!
# The strict reader and the tolerant one

What qualifies a capture is read by `parseStats`, what is shown by `displayStats`, from the
block that `extractBlock` cuts out. The first was written to accept less than the second.
They use different primitives, though: the strict reader takes a number with a sign, and
parts words at any ASCII whitespace, where the tolerant one knows neither; and it starts from
a line that is the header to the letter, where the block begins at the first line that reads
as one.

`Shows` says that what is shown of some counters is all of them or fewer, and when. It is
proved for a number, a counter, a row and a list of rows (`shows_rows`); where no earlier
line reads as a header, that decides whether the readers agree.
-/

namespace VpnHide.Protocol

open Lib

/-! ## Numbers -/

/-- A number as the strict reader takes it: it may have a sign, and then it is not shown. -/
structure IsNumber (s : Str) (n : ℕ) : Prop where
  isWord : Str.IsWord s
  head : s.head? = some '0'
  colon : ':' ∉ s
  shown : '+' ∉ s → ∀ bits, n ≤ maxOfBits bits → parseHexPrefixed (Str.toUtf8 s) bits = some n
  dropped : '+' ∈ s → ∀ bits, parseHexPrefixed (Str.toUtf8 s) bits = none

/-- A digit is one for both readers, and neither a colon nor a sign. -/
theorem hexDigit_of_toDigit {c : Char} {d : ℕ} (h : Str.toDigit 16 c = some d) :
    hexDigit c.toUInt8 = some d ∧ (0x21 ≤ c.toNat ∧ c.toNat ≤ 0x7e) ∧ c ≠ ':' ∧ c ≠ '+' := by
  have hall : ∀ n < 128, (Str.toDigit 16 (Char.ofNat n)).all fun d =>
      hexDigit (Char.ofNat n).toUInt8 = some d ∧
        (0x21 ≤ (Char.ofNat n).toNat ∧ (Char.ofNat n).toNat ≤ 0x7e) ∧ Char.ofNat n ≠ ':' ∧
        Char.ofNat n ≠ '+' := by decide
  have hlt : c.toNat < 128 := by
    by_contra hge
    have hnone : ∀ {b : Char}, b.toNat < 128 → ¬c ≤ b := by
      intro b hb hle
      have hle' : c.toNat ≤ b.toNat := hle
      omega
    rw [Str.toDigit, if_neg fun hc => hnone (by decide) hc.2, if_neg fun hc =>
      hnone (by decide) hc.2,
      if_neg fun hc => hnone (by decide) hc.2] at h
    exact absurd h nofun
  have hc := hall c.toNat hlt
  rw [Char.ofNat_toNat, h, Option.all_some, decide_eq_true_iff] at hc
  exact hc

/-- Digits are read alike. -/
theorem mapM_hexDigit {s : Str} {ds : List ℕ} (h : s.mapM (Str.toDigit 16) = some ds) :
    (s.map Char.toUInt8).mapM hexDigit = some ds := by
  induction s generalizing ds with
  | nil => exact h
  | cons c s ih =>
    rw [List.mapM_cons] at h
    obtain ⟨d, hd, h⟩ := Option.bind_eq_some_iff.1 h
    obtain ⟨ds', hds, h⟩ := Option.bind_eq_some_iff.1 h
    rw [List.map_cons, List.mapM_cons, (hexDigit_of_toDigit hd).1, ih hds]
    exact h

theorem toDigit_of_mem {s : Str} {ds : List ℕ} (h : s.mapM (Str.toDigit 16) = some ds) :
    ∀ c ∈ s, ∃ d, Str.toDigit 16 c = some d := by
  induction s generalizing ds with
  | nil => exact nofun
  | cons c s ih =>
    rw [List.mapM_cons] at h
    obtain ⟨d, hd, h⟩ := Option.bind_eq_some_iff.1 h
    obtain ⟨ds', hds, -⟩ := Option.bind_eq_some_iff.1 h
    exact List.forall_mem_cons.2 ⟨⟨d, hd⟩, ih hds⟩

/-- A number is its digits, after the prefix and perhaps a sign. -/
theorem hexU64_eq_some {s : Str} {n : ℕ} (h : StatsState.hexU64 s = some n) :
    ∃ sign digits ds, s = '0' :: 'x' :: (sign ++ digits) ∧ (sign = [] ∨ sign = ['+']) ∧
      digits ≠ [] ∧ digits.mapM (Str.toDigit 16) = some ds ∧ numeral 16 0 ds = n := by
  obtain ⟨t, hprefix, hradix⟩ := Option.bind_eq_some_iff.1 h
  obtain rfl := Str.stripPrefix_eq_some hprefix
  have hmax : ∀ (c : Char) (d : ℕ), Str.toDigit 16 c = some d → d ≤ 0xffffffffffffffff :=
    fun c d hd => (Str.toDigit_lt hd).le.trans (by decide)
  have hread :
      ∀ {digits : Str}, digits.foldlM (pushDigit 16 0xffffffffffffffff (Str.toDigit 16))
        0 = some n →
      ∃ ds, digits.mapM (Str.toDigit 16) = some ds ∧ numeral 16 0 ds = n := by
    intro digits hdigits
    obtain ⟨ds, hds, hn, -⟩ := foldlM_pushDigit_eq_some (by decide) hmax (Nat.zero_le _) hdigits
    exact ⟨ds, hds, hn⟩
  rw [Str.fromStrRadix.eq_def] at hradix
  split at hradix
  · exact absurd hradix nofun
  · exact absurd hradix nofun
  · exact absurd hradix nofun
  · rename_i digits hne
    obtain ⟨ds, hds, hn⟩ := hread hradix
    exact ⟨['+'], digits, ds, rfl, .inr rfl, fun hnil => hne (by rw [hnil]), hds, hn⟩
  · rename_i hne _ _ _
    obtain ⟨ds, hds, hn⟩ := hread hradix
    exact ⟨[], t, ds, rfl, .inl rfl, hne, hds, hn⟩

theorem isNumber_of_hexU64 {s : Str} {n : ℕ} (h : StatsState.hexU64 s = some n) : IsNumber s n := by
  obtain ⟨sign, digits, ds, rfl, hsign, hne, hds, rfl⟩ := hexU64_eq_some h
  -- A digit is neither a separator nor a sign.
  have hdigit : ∀ c ∈ digits, (0x21 ≤ c.toNat ∧ c.toNat ≤ 0x7e) ∧ c ≠ ':' ∧ c ≠ '+' := by
    intro c hc
    obtain ⟨d, hd⟩ := toDigit_of_mem hds c hc
    exact (hexDigit_of_toDigit hd).2
  have hword : Str.IsWord ('0' :: 'x' :: (sign ++ digits)) := by
    refine ⟨nofun,
      List.forall_mem_cons.2 ⟨by decide, List.forall_mem_cons.2 ⟨by decide, fun c hc => ?_⟩⟩⟩
    rcases List.mem_append.1 hc with hc | hc
    · rcases hsign with rfl | rfl
      · exact absurd hc nofun
      · rw [List.mem_singleton.1 hc]
        decide
    · exact (hdigit c hc).1
  have hbytes : Str.toUtf8 ('0' :: 'x' :: (sign ++ digits)) =
      '0'.toUInt8 :: 'x'.toUInt8 :: (sign ++ digits).map Char.toUInt8 := hword.toUtf8_eq
  constructor
  · exact hword
  · rfl
  · have hcolon : ':' ∉ digits := fun hmem => (hdigit ':' hmem).2.1 rfl
    rcases hsign with rfl | rfl <;> simp [hcolon]
  · intro hplus bits hn
    obtain rfl : sign = [] := hsign.resolve_right fun h => hplus (by simp [h])
    rw [hbytes, parseHexPrefixed, if_pos ⟨rfl, .inl rfl⟩, List.nil_append, parseHexBare,
      if_neg (by simpa using hne), foldlM_pushDigit (by decide) (fun _ _ h => hexDigit_le h bits)
        (Nat.zero_le _), mapM_hexDigit hds,
      Option.bind_some, if_pos hn]
  · intro hplus bits
    obtain rfl : sign = ['+'] := by
      refine hsign.resolve_left ?_
      rintro rfl
      have hmem : '+' ∈ digits := by simpa using hplus
      exact (hdigit '+' hmem).2.2 rfl
    rw [hbytes, parseHexPrefixed, if_pos ⟨rfl, .inl rfl⟩, parseHexBare, if_neg (by simp)]
    rfl

/-- A `u32`. -/
theorem isNumber_of_hexU32 {s : Str} {n : UInt32} (h : StatsState.hexU32 s = some n) :
    IsNumber s n.toNat ∧ ('+' ∉ s → parseHexPrefixed (Str.toUtf8 s) 32 = some n.toNat) := by
  obtain ⟨k, hk, h⟩ := Option.bind_eq_some_iff.1 h
  split_ifs at h with hle
  obtain rfl := Option.some.inj h
  have hnat : k.toUInt32.toNat = k := Nat.mod_eq_of_lt (Nat.lt_succ_of_le hle)
  rw [hnat]
  have hnumber := isNumber_of_hexU64 hk
  exact ⟨hnumber, fun hplus => hnumber.shown hplus 32 hle⟩

/-! ## What is shown -/

/-- What is shown of `all`: all of it if `plain`, and less otherwise. -/
structure Shows {α : Type*} (plain : Prop) (shown all : List α) : Prop where
  eq : plain → shown = all
  lt : ¬plain → shown.length < all.length

namespace Shows

variable {α : Type*} {p q : Prop} {a b c d : List α}

theorem nil (hp : p) : Shows p ([] : List α) [] := ⟨fun _ => rfl, fun h => absurd hp h⟩

theorem length_le (h : Shows p a b) : a.length ≤ b.length := by
  by_cases hp : p
  · rw [h.eq hp]
  · exact (h.lt hp).le

theorem append (h : Shows p a b) (h' : Shows q c d) : Shows (p ∧ q) (a ++ c) (b ++ d) := by
  refine ⟨fun hpq => by rw [h.eq hpq.1, h'.eq hpq.2], fun hpq => ?_⟩
  have hle := h.length_le
  have hle' := h'.length_le
  rw [List.length_append, List.length_append]
  by_cases hp : p
  · have hlt := h'.lt fun hq => hpq ⟨hp, hq⟩
    omega
  · have hlt := h.lt hp
    omega

theorem congr (h : Shows p a b) (hpq : p ↔ q) : Shows q a b :=
  ⟨fun hq => h.eq (hpq.2 hq), fun hq => h.lt fun hp => hq (hpq.1 hp)⟩

theorem eq_iff (h : Shows p a b) : a = b ↔ p := by
  refine ⟨fun heq => ?_, h.eq⟩
  by_contra hp
  have hlt := h.lt hp
  rw [heq] at hlt
  exact absurd hlt (Nat.lt_irrefl _)

end Shows

/-! ## Counters -/

/-- A counter as the strict reader takes it. -/
structure IsCell (uid : UInt32) (word : Str) (e : StatEntry) : Prop where
  isWord : Str.IsWord word
  shown : '+' ∉ word → displayCell uid (Str.toUtf8 word) = some e
  dropped : '+' ∈ word → displayCell uid (Str.toUtf8 word) = none

theorem colon_notMem_toUtf8 {s : Str} (hs : Str.IsWord s) (h : ':' ∉ s) :
    ':'.toUInt8 ∉ Str.toUtf8 s := by
  rw [hs.toUtf8_eq, List.mem_map]
  rintro ⟨c, hc, heq⟩
  have hlt := (hs.2 c hc).2
  have hcolon : c = ':' := Str.toUInt8_inj (hlt.trans_lt (by decide)) (by decide) heq
  exact h (hcolon ▸ hc)

namespace StatsState

/-- What the strict reader takes for a counter. -/
theorem word_eq_some {uid : UInt32} {s s' : StatsState} {w : Str} (h : word uid s w = some s') :
    ∃ e, IsCell uid w e ∧ s' = { s with rows := s.rows ++ [e], seen := s'.seen } := by
  obtain ⟨⟨hook, count⟩, hsplit, h⟩ := Option.bind_eq_some_iff.1 h
  obtain ⟨hookId, hhook, h⟩ := Option.bind_eq_some_iff.1 h
  obtain ⟨n, hcount, h⟩ := Option.bind_eq_some_iff.1 h
  split_ifs at h
  obtain rfl := Option.some.inj h
  obtain ⟨rfl, -⟩ := Str.splitOnce_eq_some hsplit
  obtain ⟨hnumber, hshown⟩ := isNumber_of_hexU32 hhook
  have hnumber' := isNumber_of_hexU64 hcount
  obtain ⟨digits, -, hradix⟩ := Option.bind_eq_some_iff.1 hcount
  have hmax : n ≤ maxOfBits 64 := Str.fromStrRadix_le (by decide) (by decide) hradix
  -- The first colon is the only one, as a number holds none.
  have hbytes : (Str.toUtf8 (hook ++ ':' :: count)).splitOn ':'.toUInt8 =
      [Str.toUtf8 hook, Str.toUtf8 count] := by
    rw [Str.toUtf8_append]
    exact splitOn_append_cons (colon_notMem_toUtf8 hnumber.isWord hnumber.colon)
      (colon_notMem_toUtf8 hnumber'.isWord hnumber'.colon)
  refine ⟨⟨uid, hookId, n.toUInt64⟩, ⟨?_, ?_, ?_⟩, rfl⟩
  · exact hnumber.isWord.append (Str.IsWord.append (by decide : Str.IsWord [':']) hnumber'.isWord)
  · intro hplus
    have hhookPlus : '+' ∉ hook := fun hmem => hplus (List.mem_append_left _ hmem)
    have hcountPlus : '+' ∉ count :=
      fun hmem => hplus (List.mem_append_right _ (List.mem_cons_of_mem _ hmem))
    rw [displayCell, hbytes]
    dsimp only
    rw [hshown hhookPlus, hnumber'.shown hcountPlus 64 hmax]
    simp
  · intro hplus
    rw [displayCell, hbytes]
    dsimp only
    rcases List.mem_append.1 hplus with hmem | hmem
    · rw [hnumber.dropped hmem]
      rfl
    · have hmem' : '+' ∈ count := (List.mem_cons.1 hmem).resolve_left (by decide)
      rw [hnumber'.dropped hmem']
      cases parseHexPrefixed (Str.toUtf8 hook) 32 <;> rfl

/-- The counters of a row. -/
theorem foldlM_word_eq_some {uid : UInt32} {ws : List Str} {s s' : StatsState}
    (h : ws.foldlM (word uid) s = some s') :
    ∃ es, (∀ w ∈ ws, Str.IsWord w) ∧ es.length = ws.length ∧
      Shows (∀ w ∈ ws, '+' ∉ w) ((ws.map Str.toUtf8).filterMap (displayCell uid)) es ∧
      s' = { s with rows := s.rows ++ es, seen := s'.seen } := by
  induction ws generalizing s with
  | nil =>
    obtain rfl := Option.some.inj h
    exact ⟨[], nofun, rfl, .nil nofun, by rw [List.append_nil]⟩
  | cons w ws ih =>
    rw [List.foldlM_cons] at h
    obtain ⟨t, ht, h⟩ := Option.bind_eq_some_iff.1 h
    obtain ⟨e, hcell, hword⟩ := word_eq_some ht
    obtain ⟨es, hwords, hlen, hshows, hs'⟩ := ih h
    have hfirst : Shows ('+' ∉ w) ((displayCell uid (Str.toUtf8 w)).toList) [e] := by
      refine ⟨fun hplus => by rw [hcell.shown hplus]; rfl, fun hplus => ?_⟩
      rw [hcell.dropped (not_not.1 hplus)]
      exact Nat.one_pos
    refine ⟨e :: es, List.forall_mem_cons.2 ⟨hcell.isWord, hwords⟩, ?_, ?_, ?_⟩
    · rw [List.length_cons, hlen, List.length_cons]
    · have hplain : (∀ v ∈ w :: ws, '+' ∉ v) ↔ '+' ∉ w ∧ ∀ v ∈ ws, '+' ∉ v := List.forall_mem_cons
      have happ := (hfirst.append hshows).congr hplain.symm
      rw [List.map_cons, List.filterMap_cons]
      cases hshown : displayCell uid (Str.toUtf8 w) <;> rw [hshown] at happ <;> exact happ
    · rw [hs', hword]
      simp

end StatsState

/-! ## Rows -/

/-- A line that has a form feed, a CR or a sign is not plain. The CR that ends a line does not
    count. -/
def Plain (l : Str) : Prop := ∀ c ∈ stripCarriageReturn l, c ≠ '+' ∧ c ≠ '\x0c' ∧ c ≠ '\r'

instance (l : Str) : Decidable (Plain l) := inferInstanceAs (Decidable (∀ c ∈ _, _))

/-- The counters shown of a line. -/
def shownRow (l : Bytes) : List StatEntry := (significant l).elim [] displayRow

section Words

variable {m w : Str} {ws : List Str} (hfields : Str.splitAsciiWhitespace m = w :: ws)
  (hwords : ∀ v ∈ w :: ws, Str.IsWord v)

include hfields

/-- What a line of words is made of. -/
theorem mem_line {c : Char} (hc : c ∈ m) :
    Str.isAsciiWhitespace c = true ∨ ∃ v ∈ w :: ws, c ∈ v := by
  by_cases hspace : Str.isAsciiWhitespace c = true
  · exact .inl hspace
  · obtain ⟨v, hv, hcv⟩ := exists_mem_fields hc (Bool.not_eq_true _ ▸ hspace)
    rw [← Str.splitAsciiWhitespace, hfields] at hv
    exact .inr ⟨v, hv, hcv⟩

include hwords

theorem toUtf8_line : Str.toUtf8 m = m.map Char.toUInt8 := by
  refine Str.toUtf8_eq_map fun c hc => ?_
  rcases mem_line hfields hc with hspace | ⟨v, hv, hcv⟩
  · simp only [Str.isAsciiWhitespace, Bool.or_eq_true, beq_iff_eq] at hspace
    rcases hspace with (((rfl | rfl) | rfl) | rfl) | rfl <;> decide
  · exact ((hwords v hv).2 c hcv).2.trans_lt (by decide)

/-- Form feeds and CRs are not for the tolerant reader. -/
theorem significant_eq_none (h : '\x0c' ∈ m ∨ '\r' ∈ m) : significant (Str.toUtf8 m) = none := by
  rw [significant, if_pos]
  rw [toUtf8_line hfields hwords, List.any_map, List.any_eq_true]
  rcases h with h | h
  · exact ⟨_, h, by decide⟩
  · exact ⟨_, h, by decide⟩

/-- Without them the words are the tokens. -/
theorem tokens_line (hhead : w.head? = some '0') (h : ∀ c ∈ m, c ≠ '\n' ∧ c ≠ '\x0c' ∧ c ≠ '\r') :
    ∃ content, significant (Str.toUtf8 m) = some content ∧
      tokens content = (w :: ws).map Str.toUtf8 := by
  have hbytes := toUtf8_line hfields hwords
  have hblank : ∀ c ∈ m, isSep c.toUInt8 = Str.isAsciiWhitespace c ∧
      (isAsciiPrintable c.toUInt8 = true ∨ c.toUInt8 = '\t'.toUInt8) := by
    intro c hc
    obtain ⟨h₁, h₂, h₃⟩ := h c hc
    rcases mem_line hfields hc with hspace | ⟨v, hv, hcv⟩
    · simp only [Str.isAsciiWhitespace, Bool.or_eq_true, beq_iff_eq] at hspace
      rcases hspace with (((rfl | rfl) | rfl) | rfl) | rfl
      · decide
      · decide
      · exact absurd rfl h₁
      · exact absurd rfl h₂
      · exact absurd rfl h₃
    · obtain ⟨hlo, hhi⟩ := (hwords v hv).2 c hcv
      have hnat : c.toUInt8.toNat = c.toNat := Str.toNat_toUInt8 (hhi.trans_lt (by decide))
      have hgraphic : 0x21 ≤ c.toUInt8 ∧ c.toUInt8 ≤ 0x7e := by
        rw [UInt8.le_iff_toNat_le, UInt8.le_iff_toNat_le, hnat]
        exact ⟨hlo, hhi⟩
      have hspace : Str.isAsciiWhitespace c = false := by
        by_contra hspace
        rw [Bool.not_eq_false, Str.isAsciiWhitespace] at hspace
        simp only [Bool.or_eq_true, beq_iff_eq] at hspace
        rcases hspace with (((rfl | rfl) | rfl) | rfl) | rfl <;> exact absurd hlo (by decide)
      refine ⟨by rw [isSep_eq_false hgraphic.1, hspace], .inl ?_⟩
      exact IsLineByte.isAsciiPrintable ⟨UInt8.le_trans (by decide) hgraphic.1, hgraphic.2⟩
  have htokens : fields isSep (Str.toUtf8 m) = (w :: ws).map Str.toUtf8 := by
    rw [hbytes, fields_map fun c hc => (hblank c hc).1, ← Str.splitAsciiWhitespace, hfields]
    exact List.map_congr_left fun v hv => ((hwords v hv).toUtf8_eq).symm
  have hany : ((Str.toUtf8 m).any fun b => !isAsciiPrintable b && b != '\t'.toUInt8) = false := by
    rw [hbytes, List.any_map, List.any_eq_false]
    intro c hc
    rcases (hblank c hc).2 with hprint | htab
    · simp [hprint]
    · simp [htab]
  have hne : (Str.toUtf8 m).dropWhile isSep ≠ [] := by
    intro hnil
    rw [fields_eq_nil hnil] at htokens
    cases htokens
  obtain ⟨b, rest, hcons⟩ := List.exists_cons_of_ne_nil hne
  -- The first byte is that of the first word.
  have hzero : b = '0'.toUInt8 := by
    obtain ⟨t, rfl⟩ := List.head?_eq_some_iff.1 hhead
    rw [fields_eq_cons hne, hcons, List.map_cons, List.cons.injEq,
      (hwords _ List.mem_cons_self).toUtf8_eq, List.takeWhile_cons] at htokens
    have hfirst := htokens.1
    split_ifs at hfirst
    · exact (List.cons.inj hfirst).1
    · cases hfirst
  refine ⟨b :: rest, ?_, ?_⟩
  · rw [significant, hany, if_neg Bool.false_ne_true, hcons]
    dsimp only
    rw [if_neg (by rw [hzero]; decide)]
  · rw [tokens, ← hcons, fields_dropWhile, htokens]

end Words

theorem eq_concat_of_getLast? {l : Str} (h : l.getLast? = some '\r') :
    l = l.dropLast ++ ['\r'] := by
  obtain ⟨t, rfl⟩ := List.getLast?_eq_some_iff.1 h
  rw [List.dropLast_concat]

theorem splitAsciiWhitespace_stripCarriageReturn (l : Str) :
    Str.splitAsciiWhitespace (stripCarriageReturn l) = Str.splitAsciiWhitespace l := by
  rw [stripCarriageReturn]
  split_ifs with h
  · conv_rhs => rw [eq_concat_of_getLast? h]
    exact (fields_concat_of_pos (by decide) _).symm
  · rfl

theorem mem_of_mem_stripCarriageReturn {l : Str} {c : Char} (hc : c ∈ stripCarriageReturn l) :
    c ∈ l := by
  rw [stripCarriageReturn] at hc
  split_ifs at hc
  · exact List.dropLast_subset _ hc
  · exact hc

/-- A row as the strict reader takes it. -/
structure IsRow (l : Str) (es : List StatEntry) : Prop where
  ascii : ∀ c ∈ l, c.toNat < 128
  isBoundary : isBoundary l = false
  shows : Shows (Plain l) (shownRow (Str.toUtf8 (stripCarriageReturn l))) es

/-- A sign in a line of words is one in a word. -/
theorem plus_mem_iff {m w : Str} {ws : List Str} (hfields : Str.splitAsciiWhitespace m = w :: ws) :
    '+' ∈ m ↔ ∃ v ∈ w :: ws, '+' ∈ v := by
  constructor
  · exact fun h => (mem_line hfields h).resolve_left (by decide)
  · rintro ⟨v, hv, hplus⟩
    rw [← hfields] at hv
    exact mem_of_mem_fields hv hplus

/-- A row of a uid and its counters, as it is shown. -/
theorem isRow_of_words {l w : Str} {ws : List Str} {uid : UInt32} {es : List StatEntry}
    (hl : '\n' ∉ l) (hfields : Str.splitAsciiWhitespace l = w :: ws)
    (huid : StatsState.hexU32 w = some uid)
    (hws : ∀ v ∈ ws, Str.IsWord v) (hne : es ≠ [])
    (hshows : Shows (∀ v ∈ ws, '+' ∉ v) ((ws.map Str.toUtf8).filterMap (displayCell uid)) es) :
    IsRow l es := by
  obtain ⟨hnumber, hshown⟩ := isNumber_of_hexU32 huid
  have hwords : ∀ v ∈ w :: ws, Str.IsWord v := List.forall_mem_cons.2 ⟨hnumber.isWord, hws⟩
  have hempty : ([] : List StatEntry).length < es.length := List.length_pos_iff.2 hne
  constructor
  · intro c hc
    rcases mem_line hfields hc with hspace | ⟨v, hv, hcv⟩
    · simp only [Str.isAsciiWhitespace, Bool.or_eq_true, beq_iff_eq] at hspace
      rcases hspace with (((rfl | rfl) | rfl) | rfl) | rfl <;> decide
    · exact ((hwords v hv).2 c hcv).2.trans_lt (by decide)
  · -- The first word is a number.
    rw [isBoundary]
    by_cases hodd : '\x0c' ∈ l ∨ '\r' ∈ l
    · rw [significant_eq_none hfields hwords hodd]
      rfl
    · rw [not_or] at hodd
      obtain ⟨content, hcontent, htokens⟩ := tokens_line hfields hwords hnumber.head fun c hc =>
        ⟨fun h => hl (h ▸ hc), fun h => hodd.1 (h ▸ hc), fun h => hodd.2 (h ▸ hc)⟩
      obtain ⟨t, rfl⟩ := List.head?_eq_some_iff.1 hnumber.head
      rw [hcontent, Option.any_some, htokens, List.map_cons, List.head?_cons,
        hnumber.isWord.toUtf8_eq, decide_eq_false_iff_not, Option.some.injEq]
      intro heq
      exact absurd (List.cons.inj heq).1 (by decide)
  · set m := stripCarriageReturn l with hm
    have hm' : Str.splitAsciiWhitespace m = w :: ws := by
      rw [hm, splitAsciiWhitespace_stripCarriageReturn, hfields]
    by_cases hodd : '\x0c' ∈ m ∨ '\r' ∈ m
    · have hplain : ¬Plain l := by
        intro h
        rcases hodd with hmem | hmem
        · exact (h _ hmem).2.1 rfl
        · exact (h _ hmem).2.2 rfl
      refine ⟨fun h => absurd h hplain, fun _ => ?_⟩
      rw [shownRow, significant_eq_none hm' hwords hodd]
      exact hempty
    · rw [not_or] at hodd
      obtain ⟨content, hcontent, htokens⟩ := tokens_line hm' hwords hnumber.head fun c hc =>
        ⟨fun h => hl (mem_of_mem_stripCarriageReturn (h ▸ hc)), fun h => hodd.1 (h ▸ hc),
          fun h => hodd.2 (h ▸ hc)⟩
      have hplain : Plain l ↔ '+' ∉ w ∧ ∀ v ∈ ws, '+' ∉ v := by
        have hplus : Plain l ↔ '+' ∉ m := by
          refine ⟨fun h hmem => (h _ hmem).1 rfl, fun h c hc => ⟨?_, ?_, ?_⟩⟩
          · exact fun heq => h (heq ▸ hc)
          · exact fun heq => hodd.1 (heq ▸ hc)
          · exact fun heq => hodd.2 (heq ▸ hc)
        rw [hplus, plus_mem_iff hm']
        simp
      rw [shownRow, hcontent, Option.elim_some, displayRow, htokens, List.map_cons]
      dsimp only
      by_cases hplus : '+' ∈ w
      · rw [hnumber.dropped hplus]
        exact ⟨fun h => absurd hplus (hplain.1 h).1, fun _ => hempty⟩
      · rw [hshown hplus]
        dsimp only
        rw [toUInt32_toNat]
        exact hshows.congr (by rw [hplain]; simp [hplus])

namespace StatsState

variable {s s' : StatsState}

/-- What the strict reader takes for a row. -/
theorem line_eq_some {l : Str} (hfound : s.found = true) (hl : '\n' ∉ l) (h : line s l = some s') :
    ∃ es, IsRow l es ∧ s' = { s with rows := s.rows ++ es, seen := s'.seen } := by
  rw [line, hfound] at h
  by_cases hheader : l = telemetryHeader "stats".toList
  · rw [if_pos hheader, if_pos rfl] at h
    cases h
  · rw [if_neg hheader, if_neg (by decide)] at h
    split at h
    · cases h
    · rename_i w ws hfields
      obtain ⟨uid, huid, h⟩ := Option.bind_eq_some_iff.1 h
      obtain ⟨t, ht, h⟩ := Option.bind_eq_some_iff.1 h
      split_ifs at h with hnil
      obtain rfl := Option.some.inj h
      obtain ⟨es, hws, hlen, hshows, ht⟩ := foldlM_word_eq_some ht
      have hne : es ≠ [] := by
        rw [← List.length_pos_iff, hlen]
        exact List.length_pos_iff.2 hnil
      exact ⟨es, isRow_of_words hl hfields huid hws hne hshows, ht⟩

/-- What is shown of the rows after the header. -/
theorem foldlM_line_eq_some {ls : List Str} (hfound : s.found = true) (hls : ∀ l ∈ ls, '\n' ∉ l)
    (h : ls.foldlM line s = some s') :
    ∃ es, (∀ l ∈ ls, (∀ c ∈ l, c.toNat < 128) ∧ isBoundary l = false) ∧
      Shows (∀ l ∈ ls, Plain l) (ls.flatMap fun l => shownRow (Str.toUtf8 (stripCarriageReturn l)))
        es ∧
      s'.rows = s.rows ++ es := by
  induction ls generalizing s with
  | nil =>
    obtain rfl := Option.some.inj h
    exact ⟨[], nofun, .nil nofun, (List.append_nil _).symm⟩
  | cons l ls ih =>
    obtain ⟨hl, hls⟩ := List.forall_mem_cons.1 hls
    rw [List.foldlM_cons] at h
    obtain ⟨t, ht, h⟩ := Option.bind_eq_some_iff.1 h
    obtain ⟨es, hrow, ht⟩ := line_eq_some hfound hl ht
    obtain ⟨fs, hlines, hshows, hrows⟩ := ih (by rw [ht]; exact hfound) hls h
    refine ⟨es ++ fs, List.forall_mem_cons.2 ⟨⟨hrow.ascii, hrow.isBoundary⟩, hlines⟩, ?_, ?_⟩
    · rw [List.flatMap_cons]
      exact (hrow.shows.append hshows).congr List.forall_mem_cons.symm
    · rw [hrows, ht, List.append_assoc]

end StatsState

/-! ## Texts -/

/-- The lines before the header that the strict reader starts from. -/
def beforeHeader (text : Str) : List Str :=
  (Str.lines text).takeWhile (· ≠ telemetryHeader "stats".toList)

/-- The lines after it. -/
def rowLines (text : Str) : List Str :=
  ((Str.lines text).dropWhile (· ≠ telemetryHeader "stats".toList)).tail

/-- No line before that header begins a block of counters. -/
def FirstHeader (text : Str) : Prop := ∀ l ∈ beforeHeader text, classify l ≠ some .stats

/-- The rows of a text are plain. -/
def PlainRows (text : Str) : Prop := ∀ l ∈ rowLines text, Plain l

instance (text : Str) : Decidable (FirstHeader text) := inferInstanceAs (Decidable (∀ l ∈ _, _))

instance (text : Str) : Decidable (PlainRows text) := inferInstanceAs (Decidable (∀ l ∈ _, _))

/-- The counters are shown as they are. -/
def Shown (text : Str) (rows : List StatEntry) : Prop :=
  ∃ block, extractBlock text .stats = some block ∧ displayStats (Str.toUtf8 block) = some rows

theorem lines_unlines_eq {raw : List Str} (h : ∀ l ∈ raw, '\n' ∉ l) :
    Str.lines (Str.unlines raw) = raw.map stripCarriageReturn := by
  induction raw with
  | nil => rfl
  | cons l raw ih =>
    obtain ⟨hl, hraw⟩ := List.forall_mem_cons.1 h
    rw [Str.unlines_cons, Str.lines_cons_of_notMem hl, ih hraw]
    rfl

/-- The strict reader has found its header once the lines are read. -/
theorem StatsState.foldlM_line_found {ls : List Str} {s : StatsState}
    (h : ls.foldlM StatsState.line ⟨false, [], []⟩ = some s) (hfound : s.found = true) :
    ls = ls.takeWhile (· ≠ telemetryHeader "stats".toList) ++
        telemetryHeader "stats".toList :: (ls.dropWhile (· ≠ telemetryHeader "stats".toList)).tail ∧
      ((ls.dropWhile (· ≠ telemetryHeader "stats".toList)).tail).foldlM StatsState.line
        ⟨true, [], []⟩ = some s := by
  induction ls with
  | nil =>
    rw [← Option.some.inj h] at hfound
    exact absurd hfound nofun
  | cons l ls ih =>
    rw [List.foldlM_cons, StatsState.line] at h
    by_cases hl : l = telemetryHeader "stats".toList
    · rw [if_pos hl, if_neg (by decide)] at h
      have hheader : ¬decide (l ≠ telemetryHeader "stats".toList) = true :=
        fun hne => of_decide_eq_true hne hl
      rw [List.takeWhile_cons, List.dropWhile_cons, if_neg hheader, if_neg hheader, hl]
      exact ⟨rfl, h⟩
    · rw [if_neg hl, if_pos (by decide)] at h
      obtain ⟨heq, hrows⟩ := ih h
      have hbefore : decide (l ≠ telemetryHeader "stats".toList) = true := decide_eq_true hl
      rw [List.takeWhile_cons, List.dropWhile_cons, if_pos hbefore, if_pos hbefore,
        List.cons_append, ← heq]
      exact ⟨rfl, hrows⟩

/-- A text that the strict reader accepts. -/
structure Qualified (text : Str) (rows : List StatEntry) : Prop where
  length_le : (Str.toUtf8 text).length ≤ maxTelemetryBytes
  lines_eq : Str.lines text = beforeHeader text ++ telemetryHeader "stats".toList :: rowLines text
  blockLines_eq : blockLines text = Str.lines text ++ [[]]
  notMem : ∀ l ∈ Str.lines text, '\n' ∉ l
  /-- The CRs before the newlines are not in the lines. -/
  unlines_le : ∀ ls, ls <:+ Str.lines text →
    (Str.toUtf8 (Str.unlines ls)).length ≤ (Str.toUtf8 text).length
  rows : ∃ s : StatsState, (rowLines text).foldlM StatsState.line ⟨true, [], []⟩ = some s ∧
    s.rows = rows

theorem length_toUtf8_unlines_le (raw : List Str) :
    (Str.toUtf8 (Str.unlines (raw.map stripCarriageReturn))).length ≤
      (Str.toUtf8 (Str.unlines raw)).length := by
  induction raw with
  | nil => exact le_rfl
  | cons l raw ih =>
    have hstrip : (Str.toUtf8 (stripCarriageReturn l)).length ≤ (Str.toUtf8 l).length := by
      rw [stripCarriageReturn]
      split_ifs with h
      · conv_rhs => rw [eq_concat_of_getLast? h, Str.toUtf8_append, List.length_append]
        exact Nat.le_add_right _ _
      · exact le_rfl
    have hline : ∀ l : Str, (Str.toUtf8 ('\n' :: l)).length = (Str.toUtf8 l).length + 1 :=
      fun l => rfl
    rw [List.map_cons, Str.unlines_cons, Str.unlines_cons, Str.toUtf8_append, Str.toUtf8_append,
      List.length_append, List.length_append, hline, hline]
    omega

theorem qualified_of_parseStats {bytes : Bytes} {rows : List StatEntry}
    (h : parseStats bytes = some rows) :
    ∃ text, Str.fromUtf8 bytes = some text ∧ Qualified text rows := by
  rw [parseStats] at h
  split_ifs at h with hbad
  rw [not_or, not_lt, not_not] at hbad
  obtain ⟨text, htext, h⟩ := Option.bind_eq_some_iff.1 h
  obtain ⟨s, hs, h⟩ := Option.bind_eq_some_iff.1 h
  split_ifs at h with hfound
  obtain rfl := Option.some.inj h
  obtain rfl := Str.toUtf8_of_fromUtf8 htext
  obtain ⟨raw, rfl, hraw⟩ :=
    Str.exists_eq_unlines (Str.getLast?_of_getLast?_toUtf8 (by decide) hbad.2)
  have hlines := lines_unlines_eq hraw
  obtain ⟨hsplit, hrows⟩ := StatsState.foldlM_line_found hs hfound
  refine ⟨_, htext, hbad.1, hsplit, ?_, ?_, ?_, s, hrows, rfl⟩
  · rw [blockLines, Str.splitOn_unlines hraw, List.map_append, hlines]
    rfl
  · rw [hlines]
    intro l hl hmem
    obtain ⟨m, hm, rfl⟩ := List.mem_map.1 hl
    exact hraw m hm (mem_of_mem_stripCarriageReturn hmem)
  · rintro ls ⟨before, hbefore⟩
    have hle := length_toUtf8_unlines_le raw
    rw [← hlines, ← hbefore, Str.unlines_append, Str.toUtf8_append, List.length_append] at hle
    omega

theorem classify_header : classify (telemetryHeader "stats".toList) = some .stats := by
  rw [telemetryHeader_stats, (classify_blockLine (by decide)).1]
  decide

theorem isBoundary_header : isBoundary (telemetryHeader "stats".toList) = true := by
  rw [telemetryHeader_stats, (classify_blockLine (by decide)).2]

/-- The lines of a text, whatever its characters. -/
theorem lines_cons_of_notMem {l : Bytes} (hl : '\n'.toUInt8 ∉ l) (rest : Bytes) :
    lines (l ++ '\n'.toUInt8 :: rest) = stripCr l :: lines rest := by
  have htake : (l ++ '\n'.toUInt8 :: rest).takeWhile (· != '\n'.toUInt8) = l := by
    have hne : ∀ c ∈ l, (c != '\n'.toUInt8) = true := by
      intro c hc
      rw [bne_iff_ne]
      rintro rfl
      exact hl hc
    rw [List.takeWhile_append_of_pos hne]
    simp
  have hdrop : (l ++ '\n'.toUInt8 :: rest).drop (l.length + 1) = rest := by
    rw [← List.drop_drop, List.drop_left]
    rfl
  rw [lines, if_neg (by simp), nextLine, htake, hdrop]

/-- The lines of an ASCII text. -/
theorem lines_toUtf8_unlines {ls : List Str} (hascii : ∀ l ∈ ls, ∀ c ∈ l, c.toNat < 128)
    (hls : ∀ l ∈ ls, '\n' ∉ l) :
    lines (Str.toUtf8 (Str.unlines ls)) = ls.map fun l => Str.toUtf8 (stripCarriageReturn l) := by
  induction ls with
  | nil => exact lines_nil
  | cons l ls ih =>
    obtain ⟨hl, hls⟩ := List.forall_mem_cons.1 hls
    obtain ⟨hlascii, hascii⟩ := List.forall_mem_cons.1 hascii
    have hinj : ∀ c ∈ l, ∀ d : Char, d.toNat < 128 → c.toUInt8 = d.toUInt8 → c = d := by
      intro c hc d hd heq
      exact Str.toUInt8_inj ((hlascii c hc).trans (by decide)) (hd.trans (by decide)) heq
    have hutf : Str.toUtf8 l = l.map Char.toUInt8 := Str.toUtf8_eq_map hlascii
    have hnewline : '\n'.toUInt8 ∉ Str.toUtf8 l := by
      rw [hutf, List.mem_map]
      rintro ⟨c, hc, heq⟩
      exact hl (hinj c hc '\n' (by decide) heq ▸ hc)
    have hstrip : stripCr (Str.toUtf8 l) = Str.toUtf8 (stripCarriageReturn l) := by
      rw [stripCr, stripCarriageReturn]
      by_cases hcr : l.getLast? = some '\r'
      · have hsplit : Str.toUtf8 l = Str.toUtf8 l.dropLast ++ ['\r'.toUInt8] := by
          conv_lhs => rw [eq_concat_of_getLast? hcr, Str.toUtf8_append]
          rfl
        rw [if_pos hcr, hsplit, List.getLast?_concat, if_pos rfl, List.dropLast_concat]
      · rw [if_neg hcr, if_neg]
        intro h
        exact hcr (Str.getLast?_of_getLast?_toUtf8 (by decide) h)
    have happend : Str.toUtf8 (Str.unlines (l :: ls)) =
        Str.toUtf8 l ++ '\n'.toUInt8 :: Str.toUtf8 (Str.unlines ls) := by
      rw [Str.unlines_cons, Str.toUtf8_append]
      rfl
    rw [happend, lines_cons_of_notMem hnewline, ih hascii hls, hstrip, List.map_cons]

theorem flatMap_significant (ls : List Bytes) :
    (ls.filterMap significant).flatMap displayRow = ls.flatMap shownRow := by
  induction ls with
  | nil => rfl
  | cons l ls ih =>
    rw [List.flatMap_cons, ← ih, List.filterMap_cons, shownRow]
    cases significant l <;> rfl

namespace Qualified

variable {text : Str} {rows : List StatEntry}

/-- The block from the header on is shown in full if its rows are plain, and not otherwise. -/
theorem shown_iff (h : Qualified text rows) (hfirst : FirstHeader text) :
    Shown text rows ↔ PlainRows text := by
  have hmem : ∀ l ∈ rowLines text, '\n' ∉ l := by
    intro l hl
    refine h.notMem l ?_
    rw [h.lines_eq]
    exact List.mem_append_right _ (List.mem_cons_of_mem _ hl)
  obtain ⟨s, hs, hrows⟩ := h.rows
  obtain ⟨es, hlines, hshows, hes⟩ := StatsState.foldlM_line_eq_some rfl hmem hs
  rw [List.nil_append, hrows] at hes
  obtain rfl := hes
  -- The block is the header and all the lines behind it, the empty one after the last break
  -- included.
  have hblock : extractBlock text .stats =
      some (Str.unlines (telemetryHeader "stats".toList :: rowLines text)) := by
    have hempty : isBoundary [] = false := by decide
    have hsplit : blockLines text =
        beforeHeader text ++ telemetryHeader "stats".toList :: (rowLines text ++ [[]] ++ []) := by
      rw [h.blockLines_eq, h.lines_eq]
      simp
    have hbody : ∀ l ∈ rowLines text ++ [[]], isBoundary l = false := by
      intro l hl
      rcases List.mem_append.1 hl with hl | hl
      · exact (hlines l hl).2
      · rw [List.mem_singleton.1 hl]
        exact hempty
    rw [extractBlock_eq h.length_le hsplit hfirst classify_header hbody nofun, joined,
      ← List.cons_append, Str.intercalate_append_nil]
  have hsize : (Str.toUtf8 (Str.unlines (telemetryHeader "stats".toList :: rowLines text))).length ≤
      maxTelemetryBytes :=
    (h.unlines_le _ ⟨beforeHeader text, h.lines_eq.symm⟩).trans h.length_le
  -- The lenient reader shows the entries of these rows.
  have hdisplay :
      displayStats (Str.toUtf8 (Str.unlines (telemetryHeader "stats".toList :: rowLines text))) =
      some ((rowLines text).flatMap fun l => shownRow (Str.toUtf8 (stripCarriageReturn l))) := by
    have hcons : Str.toUtf8 (Str.unlines (telemetryHeader "stats".toList :: rowLines text)) =
        Str.toUtf8 (blockLine statsWord) ++ '\n'.toUInt8 ::
          Str.toUtf8 (Str.unlines (rowLines text)) := by
      rw [Str.unlines_cons, Str.toUtf8_append, telemetryHeader_stats]
      rfl
    rw [displayStats, if_neg (not_lt.2 hsize), hcons,
      parseHeader_blockLine (by decide) headerKind_statsLine, Option.bind_eq_bind, Option.bind_some]
    dsimp only
    rw [lines_toUtf8_unlines (fun l hl => (hlines l hl).1) hmem, flatMap_significant,
      List.flatMap_map]
    rfl
  rw [Shown, hblock]
  constructor
  · rintro ⟨block, hsome, hshown⟩
    obtain rfl := Option.some.inj hsome
    rw [hdisplay] at hshown
    exact hshows.eq_iff.1 (Option.some.inj hshown)
  · intro hplain
    exact ⟨_, rfl, by rw [hdisplay, hshows.eq hplain]⟩

/-- Where an earlier line begins a block of counters, the block that is shown lies before the
    header that the strict reader starts from. -/
theorem extractBlock_before (h : Qualified text rows) (hearlier : ¬FirstHeader text) :
    ∃ pre block post, beforeHeader text = pre ++ block ++ post ∧
      extractBlock text .stats = some (joined block) := by
  have hany : ∃ l ∈ beforeHeader text, classify l = some .stats := by
    by_contra hnone
    exact hearlier fun l hl hclass => hnone ⟨l, hl, hclass⟩
  obtain ⟨pre, header, rest, hsplit, hpre, hheader⟩ :
      ∃ pre header rest, beforeHeader text = pre ++ header :: rest ∧
        (∀ l ∈ pre, classify l ≠ some .stats) ∧ classify header = some .stats := by
    refine ⟨(beforeHeader text).takeWhile (classify · ≠ some .stats), ?_⟩
    cases hdrop : (beforeHeader text).dropWhile (classify · ≠ some .stats) with
    | nil =>
      obtain ⟨l, hl, hclass⟩ := hany
      have hall := List.dropWhile_eq_nil_iff.1 hdrop l hl
      exact absurd hclass (by simpa using hall)
    | cons header rest =>
      refine ⟨header, rest, ?_, fun l hl => by simpa using List.mem_takeWhile_imp hl, ?_⟩
      · rw [← hdrop, List.takeWhile_append_dropWhile]
      · have hhead :=
          List.head?_dropWhile_not (fun l => decide (classify l ≠ some .stats)) (beforeHeader text)
        rw [hdrop] at hhead
        simpa using hhead
  -- The block ends at the next boundary, which is the header at the latest.
  set body := rest.takeWhile (fun l => !isBoundary l) with hbody
  set post := rest.dropWhile (fun l => !isBoundary l) with hpost
  have hrest : rest = body ++ post := (List.takeWhile_append_dropWhile).symm
  refine ⟨pre, header :: body, post, by rw [hsplit, hrest]; simp, ?_⟩
  have hlines : blockLines text =
      pre ++ header ::
        (body ++ (post ++ telemetryHeader "stats".toList :: (rowLines text ++ [[]]))) := by
    rw [h.blockLines_eq, h.lines_eq, hsplit, hrest]
    simp
  refine extractBlock_eq h.length_le hlines hpre hheader
    (fun l hl => by simpa using List.mem_takeWhile_imp hl) ?_
  intro l hl
  cases hcase : post with
  | nil =>
    rw [hcase] at hl
    obtain rfl := Option.some.inj hl
    exact isBoundary_header
  | cons b post' =>
    have hhead := List.head?_dropWhile_not (fun l => !isBoundary l) rest
    rw [← hpost, hcase] at hhead
    rw [hcase] at hl
    obtain rfl := Option.some.inj hl
    simpa using hhead

end Qualified

/-- What the strict reader accepts is shown as it is if its header is the first one of a block
    of counters and its rows are plain. Under the first condition the second one is exact; without
    it what is shown is a block that ends before what was read. -/
theorem strict_shown_iff (bytes : Bytes) (rows : List StatEntry)
    (h : parseStats bytes = some rows) :
    ∃ text, Str.fromUtf8 bytes = some text ∧
      (FirstHeader text → (Shown text rows ↔ PlainRows text)) ∧
      (¬FirstHeader text → ∃ pre block post, beforeHeader text = pre ++ block ++ post ∧
        extractBlock text .stats = some (joined block)) := by
  obtain ⟨text, htext, hq⟩ := qualified_of_parseStats h
  exact ⟨text, htext, hq.shown_iff, hq.extractBlock_before⟩

/-- A counter with a sign. -/
def signedText : Str := "vpnhide 1 stats\n0x1 0x2:0x+3\n".toList

theorem parseStats_signedText : parseStats (Str.toUtf8 signedText) = some [⟨1, 2, 3⟩] := by
  rw [parseStats, if_neg (by decide), Str.fromUtf8_toUtf8]
  decide

/-- It is accepted, and not shown. -/
theorem not_shown_signedText : ¬∀ bytes rows, parseStats bytes = some rows →
    ∃ text, Str.fromUtf8 bytes = some text ∧ Shown text rows := by
  intro hall
  obtain ⟨text, htext, hshown⟩ := hall _ _ parseStats_signedText
  rw [Str.fromUtf8_toUtf8] at htext
  obtain rfl := Option.some.inj htext
  obtain ⟨text, htext, hq⟩ := qualified_of_parseStats parseStats_signedText
  rw [Str.fromUtf8_toUtf8] at htext
  obtain rfl := Option.some.inj htext
  exact absurd ((hq.shown_iff (by decide)).1 hshown) (by decide)

/-- The same without the sign. -/
def unsignedText : Str := "vpnhide 1 stats\n0x1 0x2:0x3\n".toList

theorem shown_unsignedText : Shown unsignedText [⟨1, 2, 3⟩] := by
  have hparse : parseStats (Str.toUtf8 unsignedText) = some [⟨1, 2, 3⟩] := by
    rw [parseStats, if_neg (by decide), Str.fromUtf8_toUtf8]
    decide
  obtain ⟨text, htext, hfirst, -⟩ := strict_shown_iff _ _ hparse
  rw [Str.fromUtf8_toUtf8] at htext
  obtain rfl := Option.some.inj htext
  exact (hfirst (by decide)).2 (by decide)

end VpnHide.Protocol

import Mathlib.Algebra.Order.Floor.Div
import VpnHide.Diag.Commands

/-!
# Readback

Root reads the scope as a frame of text (`vpnhide_diag_raw_show` in
`kmod/shared/vpnhide_diag_proc.h`), which the crate parses strictly. What it refuses as
impossible never happens: a scope that is live has a thread, a uid and a nonce, and the
time that remains is at most a lease (`scopeAt_live`).
-/

namespace VpnHide.Diag

open Lib Protocol

variable {I : Type*}

/-! ## Showing the scope -/

/-- The name of a phase in a snapshot. -/
def phaseName : Phase → String
  | .released => "released"
  | .armed => "armed"
  | .registered => "registered"
  | .active => "active"

/-- The errors of the kernel. -/
inductive Errno
  | eacces
  | ebusy
  | einval
  | estale
  | eopnotsupp

/-- The error for a result that is not `ok`. -/
def errno : Result → Option Errno
  | .ok => none
  | .busy => some .ebusy
  | .invalid => some .einval
  | .stale => some .estale
  | .unavailable => some .eopnotsupp

/-- The frame that is printed. -/
def frame (backend : UInt32) (snapshot : Snapshot) (remainingMs : UInt64) : Bytes :=
  ascii "vpnhide diagnostic-raw 1\n" ++
    (ascii "backend " ++ decBytes backend.toNat ++ ascii "\n") ++
    (ascii "max_ms " ++ decBytes maxMs.toNat ++ ascii "\n") ++
    (ascii "phase " ++ ascii (phaseName snapshot.phase) ++ ascii "\n") ++
    (ascii "tid " ++ decBytes snapshot.tid.toNat ++ ascii "\n") ++
    (ascii "uid " ++ decBytes snapshot.uid.toNat ++ ascii "\n") ++
    (ascii "nonce " ++ hexBytes snapshot.nonce ++ ascii "\n") ++
    (ascii "remaining_ms " ++ decBytes remainingMs.toNat ++ ascii "\n")

/-- Showing the scope to a caller. -/
def rawShow (s : Scope I) (o : Ops I) (backend : UInt32) : Out I (Except Errno Bytes) :=
  if o.uid ≠ 0 then ⟨s, [], .error .eacces⟩
  else
    let out := s.snapshot (some o)
    match out.value with
    | .error result => ⟨out.scope, out.refs, .error ((errno result).getD .einval)⟩
    | .ok snapshot =>
      -- Rounded up: a lease that is live must not claim that it has expired.
      let remainingMs := (snapshot.remaining + 999999) / 1000000
      ⟨out.scope, out.refs, .ok (frame backend snapshot remainingMs)⟩

/-! ## Parsing a frame -/

/-- The name of a phase in a frame. -/
def phaseText : DiagnosticRaw.Phase → Str
  | .released => "released".toList
  | .armed => "armed".toList
  | .registered => "registered".toList
  | .active => "active".toList

/-- The fields of a frame, with their values. -/
def frameFields (s : DiagnosticRaw.Snapshot) : List (Str × Str) :=
  [("backend".toList, DiagnosticRaw.dec s.backend.toNat),
    ("max_ms".toList, DiagnosticRaw.dec s.maxMs.toNat),
    ("phase".toList, phaseText s.phase),
    ("tid".toList, DiagnosticRaw.dec s.tid.toNat),
    ("uid".toList, DiagnosticRaw.dec s.uid.toNat),
    ("nonce".toList, DiagnosticRaw.hex016 s.nonce),
    ("remaining_ms".toList, DiagnosticRaw.dec s.remainingMs.toNat)]

/-- The text of some fields, a line each. -/
def fieldsText (fields : List (Str × Str)) : Str :=
  fields.flatMap fun p => Str.words p.1 [p.2] ++ ['\n']

/-- The text of a frame. -/
def frameText (s : DiagnosticRaw.Snapshot) : Str :=
  DiagnosticRaw.header ++ '\n' :: fieldsText (frameFields s)

/-- A decimal number that was printed is read back. -/
theorem decimal_dec (n : UInt32) : DiagnosticRaw.decimal (DiagnosticRaw.dec n.toNat) = some n := by
  have hdigits : ∀ b ∈ decBytes n.toNat, ('0'.toUInt8 ≤ b && b ≤ '9'.toUInt8) = true := by
    have hall : ∀ d < 10,
        ('0'.toUInt8 ≤ (Nat.digitChar d).toUInt8 && (Nat.digitChar d).toUInt8 ≤ '9'.toUInt8) =
        true := by decide
    intro b hb
    obtain ⟨c, hc, rfl⟩ := List.mem_map.1 hb
    obtain ⟨d, hd, rfl⟩ := exists_digitChar_of_mem_toDigits (by decide) hc
    exact hall d hd
  rw [DiagnosticRaw.decimal, toUtf8_dec,
    if_pos ⟨by simp [DiagnosticRaw.dec], List.all_eq_true.2 hdigits⟩, DiagnosticRaw.dec,
    Str.fromStrRadix_toDigits (by decide) (by decide) (by decide)
      (Nat.le_of_lt_succ n.toNat_lt)]
  simp

/-- So is a nonce. -/
theorem nonce_hex016 (n : UInt64) : DiagnosticRaw.nonce (DiagnosticRaw.hex016 n) = some n := by
  have hdigits : ∀ b ∈ hexBytes n, DiagnosticRaw.isLowerHexdigit b = true := by
    have hall : ∀ d < 16, DiagnosticRaw.isLowerHexdigit (Nat.digitChar d).toUInt8 = true := by
      decide
    intro b hb
    rw [hexBytes_eq] at hb
    rcases List.mem_append.1 hb with hb | hb
    · rw [List.eq_of_mem_replicate hb]
      decide
    · obtain ⟨c, hc, rfl⟩ := List.mem_map.1 hb
      obtain ⟨d, hd, rfl⟩ := exists_digitChar_of_mem_toDigits (by decide) hc
      exact hall d hd
  rw [DiagnosticRaw.nonce, toUtf8_hex016, if_pos ⟨length_hexBytes n, List.all_eq_true.2 hdigits⟩,
    DiagnosticRaw.hex016, Str.padded,
    Str.fromStrRadix_zeros_append (by decide) (by decide) (by decide)
      (Nat.le_of_lt_succ n.toNat_lt)]
  simp

/-- So is a phase. -/
theorem phase_phaseText (p : DiagnosticRaw.Phase) : DiagnosticRaw.phase (phaseText p) = some p := by
  cases p <;> decide

theorem isWord_dec (n : ℕ) : Str.IsWord (DiagnosticRaw.dec n) :=
  Str.isWord_toDigits (by decide) (by decide) n

theorem isWord_frameFields (s : DiagnosticRaw.Snapshot) :
    ∀ p ∈ frameFields s, Str.IsWord p.1 ∧ Str.IsWord p.2 := by
  have hphase : ∀ p, Str.IsWord (phaseText p) := by
    intro p
    cases p <;> decide
  have hnonce : Str.IsWord (DiagnosticRaw.hex016 s.nonce) :=
    Str.isWord_padded (by decide) (by decide) _ _
  have hkeys : ∀ k ∈ ["backend".toList, "max_ms".toList, "phase".toList, "tid".toList, "uid".toList,
      "nonce".toList, "remaining_ms".toList], Str.IsWord k := by decide
  intro p hp
  have hp' : p.1 ∈ (frameFields s).map Prod.fst := List.mem_map_of_mem hp
  refine ⟨hkeys _ hp', ?_⟩
  simp only [frameFields, List.mem_cons, List.not_mem_nil, or_false] at hp
  rcases hp with rfl | rfl | rfl | rfl | rfl | rfl | rfl
  · exact isWord_dec _
  · exact isWord_dec _
  · exact hphase _
  · exact isWord_dec _
  · exact isWord_dec _
  · exact hnonce
  · exact isWord_dec _

theorem mem_header {c : Char} (hc : c ∈ DiagnosticRaw.header) :
    0x20 ≤ c.toNat ∧ c.toNat ≤ 0x7e := by
  revert c
  decide

/-- The characters of a frame. -/
theorem mem_frameText {s : DiagnosticRaw.Snapshot} {c : Char} (hc : c ∈ frameText s) :
    c = '\n' ∨ 0x20 ≤ c.toNat ∧ c.toNat ≤ 0x7e := by
  rw [frameText, List.mem_append, List.mem_cons] at hc
  rcases hc with hc | hc | hc
  · exact .inr (mem_header hc)
  · exact .inl hc
  · obtain ⟨p, hp, hc⟩ := List.mem_flatMap.1 hc
    obtain ⟨hkey, hvalue⟩ := isWord_frameFields s p hp
    rcases List.mem_append.1 hc with hc | hc
    · exact .inr (Str.mem_words hkey (fun v hv => List.mem_singleton.1 hv ▸ hvalue) hc)
    · exact .inl (List.mem_singleton.1 hc)

/-- The lines of some fields. -/
theorem lines_fieldsText {fields : List (Str × Str)}
    (h : ∀ p ∈ fields, Str.IsWord p.1 ∧ Str.IsWord p.2) :
    Str.lines (fieldsText fields) = fields.map fun p => Str.words p.1 [p.2] := by
  induction fields with
  | nil => rfl
  | cons p fields ih =>
    obtain ⟨hkey, hvalue⟩ := h p List.mem_cons_self
    have hline : ∀ c ∈ Str.words p.1 [p.2], 0x20 ≤ c.toNat := fun c hc =>
      (Str.mem_words hkey (fun v hv => List.mem_singleton.1 hv ▸ hvalue) hc).1
    rw [fieldsText, List.flatMap_cons, List.append_assoc, List.singleton_append,
      Str.lines_cons hline]
    exact congrArg (_ :: ·) (ih fun q hq => h q (List.mem_cons_of_mem _ hq))

/-- A line of two words is a field. -/
theorem line_words {f : DiagnosticRaw.Fields} {key value : Str} (hkey : Str.IsWord key) :
    f.line (Str.words key [value]) = f.set key value := by
  have hblank : ' ' ∉ key := fun h => absurd (hkey.2 _ h).1 (by decide)
  rw [DiagnosticRaw.Fields.line, Str.words, List.flatMap_singleton, Str.splitOnce_append hblank]
  rfl

/-- The lines of a frame set its fields one after another. -/
theorem foldlM_line {fields : List (Str × Str)} (h : ∀ p ∈ fields, Str.IsWord p.1)
    (f : DiagnosticRaw.Fields) :
    (fields.map fun p => Str.words p.1 [p.2]).foldlM DiagnosticRaw.Fields.line f =
      fields.foldlM (fun f p => f.set p.1 p.2) f := by
  induction fields generalizing f with
  | nil => rfl
  | cons p fields ih =>
    rw [List.map_cons, List.foldlM_cons, List.foldlM_cons, line_words (h p List.mem_cons_self)]
    exact congrArg _ (funext fun f => ih (fun q hq => h q (List.mem_cons_of_mem _ hq)) f)

/-- A key that is not the one looked for. -/
theorem not_key {k k' : Str} {p : Prop} (h : k ≠ k') : ¬(k = k' ∧ p) := fun hk => h hk.1

section

open DiagnosticRaw

variable {f : Fields} {value : Str} {n : UInt32}

theorem set_backend (hf : f.backend = none) (hv : DiagnosticRaw.decimal value = some n) :
    f.set "backend".toList value = .ok { f with backend := some n } := by
  rw [Fields.set, if_pos ⟨rfl, hf⟩, hv]
  rfl

theorem set_maxMs (hf : f.maxMs = none) (hv : DiagnosticRaw.decimal value = some n) :
    f.set "max_ms".toList value = .ok { f with maxMs := some n } := by
  rw [Fields.set, if_neg (not_key (by decide)), if_pos ⟨rfl, hf⟩, hv]
  rfl

theorem set_phase {p : DiagnosticRaw.Phase} (hf : f.phase = none) (hv : phase value = some p) :
    f.set "phase".toList value = .ok { f with phase := some p } := by
  rw [Fields.set, if_neg (not_key (by decide)), if_neg (not_key (by decide)), if_pos ⟨rfl, hf⟩, hv]
  rfl

theorem set_tid (hf : f.tid = none) (hv : DiagnosticRaw.decimal value = some n) :
    f.set "tid".toList value = .ok { f with tid := some n } := by
  rw [Fields.set, if_neg (not_key (by decide)), if_neg (not_key (by decide)),
    if_neg (not_key (by decide)), if_pos ⟨rfl, hf⟩, hv]
  rfl

theorem set_uid (hf : f.uid = none) (hv : DiagnosticRaw.decimal value = some n) :
    f.set "uid".toList value = .ok { f with uid := some n } := by
  rw [Fields.set, if_neg (not_key (by decide)), if_neg (not_key (by decide)),
    if_neg (not_key (by decide)), if_neg (not_key (by decide)), if_pos ⟨rfl, hf⟩, hv]
  rfl

theorem set_nonce {n : UInt64} (hf : f.token = none) (hv : nonce value = some n) :
    f.set "nonce".toList value = .ok { f with token := some n } := by
  rw [Fields.set, if_neg (not_key (by decide)), if_neg (not_key (by decide)),
    if_neg (not_key (by decide)), if_neg (not_key (by decide)), if_neg (not_key (by decide)),
    if_pos ⟨rfl, hf⟩, hv]
  rfl

theorem set_remaining (hf : f.remaining = none) (hv : DiagnosticRaw.decimal value = some n) :
    f.set "remaining_ms".toList value = .ok { f with remaining := some n } := by
  rw [Fields.set, if_neg (not_key (by decide)), if_neg (not_key (by decide)),
    if_neg (not_key (by decide)), if_neg (not_key (by decide)), if_neg (not_key (by decide)),
    if_neg (not_key (by decide)), if_pos ⟨rfl, hf⟩, hv]
  rfl

/-- The fields of a frame are read one after another. -/
theorem foldlM_frameFields (s : DiagnosticRaw.Snapshot) :
    (frameFields s).foldlM (fun f p => f.set p.1 p.2) Fields.empty =
      .ok ⟨some s.backend, some s.maxMs, some s.phase, some s.tid, some s.uid, some s.nonce,
        some s.remainingMs⟩ := by
  have hok : ∀ {α β : Type} {x : Except DiagnosticRaw.Error α} {a : α} {g : α →
      Except DiagnosticRaw.Error β}
      {r : Except DiagnosticRaw.Error β}, x = .ok a → g a = r → (x >>= g) = r := by
    rintro α β x a g r rfl rfl
    rfl
  refine hok (set_backend rfl (decimal_dec _)) ?_
  refine hok (set_maxMs rfl (decimal_dec _)) ?_
  refine hok (set_phase rfl (phase_phaseText _)) ?_
  refine hok (set_tid rfl (decimal_dec _)) ?_
  refine hok (set_uid rfl (decimal_dec _)) ?_
  refine hok (set_nonce rfl (nonce_hex016 _)) ?_
  exact hok (set_remaining rfl (decimal_dec _)) rfl

end

theorem getLast?_fieldsText {fields : List (Str × Str)} (hne : fields ≠ []) :
    (fieldsText fields).getLast? = some '\n' := by
  induction fields with
  | nil => exact absurd rfl hne
  | cons p fields ih =>
    rw [fieldsText, List.flatMap_cons, List.getLast?_append]
    cases fields with
    | nil => simp
    | cons q fields =>
      rw [show ((q :: fields).flatMap fun p => Str.words p.1 [p.2] ++ ['\n']).getLast? =
        some '\n' from ih (List.cons_ne_nil _ _)]
      rfl

/-- A bound on the text of fields. -/
theorem length_fieldsText_le {fields : List (Str × Str)}
    (h : ∀ p ∈ fields, p.1.length ≤ 12 ∧ p.2.length ≤ 16) :
    (fieldsText fields).length ≤ 30 * fields.length := by
  induction fields with
  | nil => exact le_rfl
  | cons p fields ih =>
    have hp := h p List.mem_cons_self
    have hlen := ih fun q hq => h q (List.mem_cons_of_mem _ hq)
    have hline : (Str.words p.1 [p.2] ++ ['\n']).length = p.1.length + p.2.length + 2 := by
      simp only [Str.words, List.flatMap_singleton, List.length_append,
        List.length_cons, List.length_nil]
      omega
    have hcons :
        (fieldsText (p :: fields)).length =
          (p.1.length + p.2.length + 2) + (fieldsText fields).length := by
      rw [← hline]
      exact List.length_append
    rw [hcons, List.length_cons]
    omega

theorem length_dec_le (n : UInt32) : (DiagnosticRaw.dec n.toNat).length ≤ 16 := by
  have hlen := length_decBytes_le n
  rw [decBytes, List.length_map] at hlen
  exact hlen.trans (by decide)

/-- A frame fits the buffer. -/
theorem length_frameText_le (s : DiagnosticRaw.Snapshot) : (frameText s).length ≤ 1024 := by
  have hphase : ∀ p, (phaseText p).length ≤ 16 := by
    intro p
    cases p <;> decide
  have hnonce : (DiagnosticRaw.hex016 s.nonce).length ≤ 16 := by
    have hlen := length_hexBytes s.nonce
    rw [hexBytes, List.length_map] at hlen
    exact hlen.le
  have hkeys : ∀ k ∈ ["backend".toList, "max_ms".toList, "phase".toList, "tid".toList, "uid".toList,
      "nonce".toList, "remaining_ms".toList], k.length ≤ 12 := by decide
  have hfields : (fieldsText (frameFields s)).length ≤ 30 * 7 := by
    refine length_fieldsText_le fun p hp => ?_
    have hp' : p.1 ∈ (frameFields s).map Prod.fst := List.mem_map_of_mem hp
    refine ⟨hkeys _ hp', ?_⟩
    simp only [frameFields, List.mem_cons, List.not_mem_nil, or_false] at hp
    rcases hp with rfl | rfl | rfl | rfl | rfl | rfl | rfl
    · exact length_dec_le _
    · exact length_dec_le _
    · exact hphase _
    · exact length_dec_le _
    · exact length_dec_le _
    · exact hnonce
    · exact length_dec_le _
  have hheader : DiagnosticRaw.header.length = 24 := by decide
  rw [frameText, List.length_append, List.length_cons, hheader]
  omega

/-- The text of a possible state is parsed as that state. -/
theorem parse_frameText {s : DiagnosticRaw.Snapshot} (h : s.check = .ok s) :
    DiagnosticRaw.Snapshot.parse (Str.toUtf8 (frameText s)) = .ok s := by
  have hascii : ∀ c ∈ frameText s, c.toNat < 128 := by
    intro c hc
    rcases mem_frameText hc with rfl | hc
    · decide
    · omega
  have hlen : ¬DiagnosticRaw.maxReplyBytes < (Str.toUtf8 (frameText s)).length := by
    rw [Str.toUtf8_eq_map hascii, List.length_map]
    exact not_lt.2 (length_frameText_le s)
  have hlast : Str.endsWith (frameText s) '\n' = true := by
    rw [Str.endsWith, frameText, List.getLast?_append, List.getLast?_cons,
      getLast?_fieldsText (show frameFields s ≠ [] from List.cons_ne_nil _ _)]
    rfl
  have hcr : '\r' ∉ frameText s := by
    intro hc
    rcases mem_frameText hc with hc | hc
    · exact absurd hc (by decide)
    · exact absurd hc.1 (by decide)
  have hlines : Str.lines (frameText s) =
      DiagnosticRaw.header :: (frameFields s).map fun p => Str.words p.1 [p.2] := by
    rw [frameText, Str.lines_cons fun c hc => (mem_header hc).1,
      lines_fieldsText (isWord_frameFields s)]
  -- The checks of the parser, in their order.
  rw [DiagnosticRaw.Snapshot.parse, if_neg hlen, Str.fromUtf8_toUtf8]
  change (if _ then _ else _) = _
  rw [if_neg (by simp [hlast, hcr]), hlines]
  dsimp only
  rw [if_neg (not_not.2 rfl), foldlM_line fun p hp => (isWord_frameFields s p hp).1,
    foldlM_frameFields]
  exact h

/-! ## The frame of the kernel -/

/-- The phase, in the crate. -/
def cratePhase : Phase → DiagnosticRaw.Phase
  | .released => .released
  | .armed => .armed
  | .registered => .registered
  | .active => .active

/-- What the crate is to make of a snapshot. -/
def readback (backend : UInt32) (snapshot : Snapshot) (remainingMs : UInt32) :
    DiagnosticRaw.Snapshot where
  backend := backend
  maxMs := maxMs
  phase := cratePhase snapshot.phase
  tid := snapshot.tid
  uid := snapshot.uid
  nonce := snapshot.nonce
  remainingMs := remainingMs

/-- A line of the frame. -/
theorem toUtf8_line {key : Str} {text : String} (hascii : ∀ c ∈ key, c.toNat < 128)
    (hkey : ascii text = key.map Char.toUInt8 ++ ascii " ") (value : Str) :
    Str.toUtf8 (Str.words key [value] ++ ['\n']) =
      ascii text ++ Str.toUtf8 value ++ ascii "\n" := by
  have hblank : Str.toUtf8 [' '] = ascii " " := Str.toUtf8_eq_map (by decide)
  have hnewline : Str.toUtf8 ['\n'] = ascii "\n" := Str.toUtf8_eq_map (by decide)
  rw [Str.words, List.flatMap_singleton, Str.toUtf8_append, Str.toUtf8_append,
    ← List.singleton_append, Str.toUtf8_append, hblank, hnewline, hkey, Str.toUtf8_eq_map hascii]
  simp only [List.append_assoc]

/-- The frame is the text of the snapshot. -/
theorem frame_eq (backend : UInt32) (snapshot : Snapshot) {remainingMs : UInt64} {r : UInt32}
    (hr : r.toNat = remainingMs.toNat) :
    frame backend snapshot remainingMs = Str.toUtf8 (frameText (readback backend snapshot r)) := by
  have hheader :
      Str.toUtf8 (DiagnosticRaw.header ++ ['\n']) = ascii "vpnhide diagnostic-raw 1\n" := by
    rw [Str.toUtf8_eq_map (by decide)]
    decide
  have hphase :
      Str.toUtf8 (phaseText (cratePhase snapshot.phase)) = ascii (phaseName snapshot.phase) := by
    cases snapshot.phase <;> exact Str.toUtf8_eq_map (by decide)
  have htext : frameText (readback backend snapshot r) = (DiagnosticRaw.header ++ ['\n']) ++
      fieldsText (frameFields (readback backend snapshot r)) := by
    rw [frameText, List.append_assoc, List.singleton_append]
  have hbackend := @toUtf8_line "backend".toList "backend " (by decide) (by decide)
  have hmaxMs := @toUtf8_line "max_ms".toList "max_ms " (by decide) (by decide)
  have hphaseLine := @toUtf8_line "phase".toList "phase " (by decide) (by decide)
  have htid := @toUtf8_line "tid".toList "tid " (by decide) (by decide)
  have huid := @toUtf8_line "uid".toList "uid " (by decide) (by decide)
  have hnonce := @toUtf8_line "nonce".toList "nonce " (by decide) (by decide)
  have hremaining := @toUtf8_line "remaining_ms".toList "remaining_ms " (by decide) (by decide)
  rw [htext, Str.toUtf8_append, hheader, fieldsText, frameFields]
  simp only [List.flatMap_cons, List.flatMap_nil, List.append_nil]
  rw [Str.toUtf8_append, hbackend, Str.toUtf8_append, hmaxMs, Str.toUtf8_append, hphaseLine,
    Str.toUtf8_append, htid, Str.toUtf8_append, huid, Str.toUtf8_append, hnonce, hremaining]
  simp only [readback, toUtf8_dec, toUtf8_hex016, hphase, hr, frame, List.append_assoc]

/-! ## What is shown -/

/-- A live scope has a thread that has a number, and ends a lease after some earlier call. -/
theorem scopeAt_live [DecidableEq I] {maxLease : UInt64} {e : ℕ → Event I}
    (htid : ∀ k tid uid nonce duration, (e k).op = .arm tid uid nonce duration → tid ≤ 0x7fffffff)
    (n : ℕ) (hlive : (scopeAt maxLease e n).phase ≠ .released) :
    (scopeAt maxLease e n).tid ≤ 0x7fffffff ∧ ∃ k < n, ∃ o, (e k).ops = some o ∧
      (scopeAt maxLease e n).deadline.toNat ≤ o.now.toNat + maxLease.toNat := by
  induction n with
  | zero => exact absurd rfl hlive
  | succ n ih =>
    have hs := sound_scopeAt maxLease e n
    have heffect := (e n).exec_effect hs.gate
    have hadd : ∀ a b : UInt64, (a + b).toNat ≤ a.toNat + b.toNat := fun a b => by
      rw [UInt64.toNat_add]
      exact Nat.mod_le _ _
    have hkeep : (scopeAt maxLease e n).phase ≠ .released →
        (scopeAt maxLease e n).tid ≤ 0x7fffffff ∧ ∃ k < n + 1, ∃ o, (e k).ops = some o ∧
          (scopeAt maxLease e n).deadline.toNat ≤ o.now.toNat + maxLease.toNat := by
      intro h
      obtain ⟨htid, k, hk, hdeadline⟩ := ih h
      exact ⟨htid, k, hk.trans n.lt_succ_self, hdeadline⟩
    rw [scopeAt] at hlive ⊢
    generalize hop : (e n).op = op at heffect
    generalize hops : (e n).ops = ops at heffect
    generalize (e n).exec (scopeAt maxLease e n) = out at heffect hlive ⊢
    cases heffect with
    | stay => exact hkeep hlive
    -- A deadline is set when a thread is armed, and when it is activated.
    | @arm o tid uid nonce duration h =>
      refine ⟨htid n tid uid nonce duration hop, n, n.lt_succ_self, o, hops, ?_⟩
      exact (hadd _ _).trans (by rw [hs.lease])
    | register h => exact hkeep (by rw [h.phase]; exact Phase.noConfusion)
    | @activate o nonce h =>
      have hphase : (scopeAt maxLease e n).phase ≠ .released := by
        rw [h.phase]; exact Phase.noConfusion
      have hduration := UInt64.le_iff_toNat_le.1 (hs.live hphase).2.2.2.2
      exact ⟨(hkeep hphase).1, n, n.lt_succ_self, o, hops,
        (hadd _ _).trans (Nat.add_le_add_left hduration _)⟩
    | revoke => exact absurd rfl hlive
    | expire => exact absurd rfl hlive

/-- A snapshot that can be. -/
def Snapshot.Possible (s : Snapshot) : Prop :=
  (s.phase = .released ∧ s.tid = 0 ∧ s.uid = 0 ∧ s.remaining = 0) ∨
    (s.phase ≠ .released ∧ s.tid ≠ 0 ∧ s.tid ≤ 0x7fffffff ∧ s.uid ≠ 0 ∧ s.nonce ≠ 0 ∧
      0 < s.remaining.toNat ∧ s.remaining.toNat ≤ 5000000000)

/-- What a snapshot of a sound scope says. -/
theorem snapshot_possible {s : Scope I} {o : Ops I} (hs : s.Sound 5000000000)
    (hlive : s.phase ≠ .released →
      s.tid ≤ 0x7fffffff ∧ s.deadline.toNat ≤ o.now.toNat + 5000000000) :
    ∃ snapshot, (s.snapshot (some o)).value = .ok snapshot ∧ snapshot.Possible := by
  rw [Scope.snapshot, tryLock_eq hs.gate]
  refine ⟨_, rfl, ?_⟩
  -- An expired scope is released before it is shown.
  by_cases hexpired : s.phase ≠ .released ∧ s.deadline ≤ o.now
  · left
    simp only [if_pos hexpired]
    exact ⟨rfl, rfl, rfl, if_neg (not_not.2 rfl)⟩
  · simp only [if_neg hexpired]
    by_cases hphase : s.phase = .released
    · obtain ⟨htid, huid⟩ := hs.released hphase
      exact .inl ⟨hphase, htid, huid, if_neg (not_not.2 hphase)⟩
    · obtain ⟨htid, huid, hnonce, -, -⟩ := hs.live hphase
      obtain ⟨hmax, hdeadline⟩ := hlive hphase
      have hlt : o.now < s.deadline := not_le.1 fun hle => hexpired ⟨hphase, hle⟩
      have hsub : (s.deadline - o.now).toNat = s.deadline.toNat - o.now.toNat :=
        UInt64.toNat_sub_of_le _ _ hlt.le
      have hlt' := UInt64.lt_iff_toNat_lt.1 hlt
      refine .inr ⟨hphase, htid, hmax, huid, hnonce, ?_, ?_⟩
      · rw [if_pos hphase, hsub]
        omega
      · rw [if_pos hphase, hsub]
        omega

/-- The milliseconds that are shown. -/
theorem toNat_remainingMs {remaining : UInt64} (h : remaining.toNat ≤ 5000000000) :
    ((remaining + 999999) / 1000000).toNat = remaining.toNat ⌈/⌉ (1000000 : ℕ) ∧
      remaining.toNat ⌈/⌉ (1000000 : ℕ) ≤ 5000 := by
  have hadd : (remaining + 999999).toNat = remaining.toNat + 999999 := by
    rw [UInt64.toNat_add]
    exact Nat.mod_eq_of_lt (by simp; omega)
  have hms : (1000000 : UInt64).toNat = 1000000 := rfl
  rw [UInt64.toNat_div, hadd, hms, Nat.ceilDiv_eq_add_pred_div, Nat.add_sub_assoc (by decide)]
  constructor
  · norm_num
  · omega

/-- A possible snapshot passes the checks of the crate. -/
theorem check_readback {backend r : UInt32} {snapshot : Snapshot} (h : snapshot.Possible)
    (hr : r.toNat = snapshot.remaining.toNat ⌈/⌉ (1000000 : ℕ)) (hmax : r.toNat ≤ 5000) :
    (readback backend snapshot r).check = .ok (readback backend snapshot r) := by
  have hzero : ¬(readback backend snapshot r).maxMs = 0 := (by decide : maxMs ≠ 0)
  have hbound : ¬(DiagnosticRaw.maxLeaseMs < maxMs ∨ maxMs < r ∨ 0x7fffffff < snapshot.tid) := by
    refine not_or.2 ⟨by decide, not_or.2 ⟨not_lt.2 (UInt32.le_iff_toNat_le.2 hmax), not_lt.2 ?_⟩⟩
    rcases h with ⟨-, htid, -, -⟩ | ⟨-, -, htid, -⟩
    · rw [htid]
      decide
    · exact htid
  rw [Nat.ceilDiv_eq_add_pred_div] at hr
  rw [DiagnosticRaw.Snapshot.check, if_neg hzero]
  refine (if_neg hbound).trans (if_neg ?_)
  rcases h with ⟨hphase, htid, huid, hrem⟩ | ⟨hphase, htid, -, huid, hnonce, hrem, -⟩
  · have hr0 : r = 0 := UInt32.toNat_inj.1 (by rw [hr, hrem]; rfl)
    simp [readback, cratePhase, hphase, htid, huid, hr0]
  · have hr0 : r ≠ 0 := by
      rintro rfl
      rw [UInt32.toNat_zero] at hr
      omega
    cases hp : snapshot.phase with
    | released => exact absurd hp hphase
    | armed => simp [readback, cratePhase, hp, htid, huid, hnonce, hr0]
    | registered => simp [readback, cratePhase, hp, htid, huid, hnonce, hr0]
    | active => simp [readback, cratePhase, hp, htid, huid, hnonce, hr0]

/-- What is shown of a possible snapshot is parsed as it is meant. -/
theorem parse_rawShow {s : Scope I} {o : Ops I} {snapshot : Snapshot} (backend : UInt32)
    (hroot : o.uid = 0) (hsnapshot : (s.snapshot (some o)).value = .ok snapshot)
    (hpossible : snapshot.Possible) :
    ∃ frame r, (rawShow s o backend).value = .ok frame ∧
      DiagnosticRaw.Snapshot.parse frame = .ok (readback backend snapshot r) ∧
      r.toNat = snapshot.remaining.toNat ⌈/⌉ (1000000 : ℕ) ∧ r.toNat ≤ 5000 := by
  have hmax : snapshot.remaining.toNat ≤ 5000000000 := by
    rcases hpossible with ⟨-, -, -, hrem⟩ | ⟨-, -, -, -, -, -, hrem⟩
    · rw [hrem]
      decide
    · exact hrem
  obtain ⟨hms, hle⟩ := toNat_remainingMs hmax
  have hr : (snapshot.remaining.toNat ⌈/⌉ 1000000).toUInt32.toNat =
      snapshot.remaining.toNat ⌈/⌉ 1000000 :=
    UInt32.toNat_ofNat_of_lt' (hle.trans_lt (by decide))
  have hshow : (rawShow s o backend).value =
      .ok (frame backend snapshot ((snapshot.remaining + 999999) / 1000000)) := by
    rw [rawShow, if_neg (not_not.2 hroot)]
    dsimp only
    rw [hsnapshot]
  refine ⟨_, (snapshot.remaining.toNat ⌈/⌉ (1000000 : ℕ)).toUInt32, hshow, ?_, hr, hr.le.trans hle⟩
  rw [frame_eq backend snapshot (hr.trans hms.symm)]
  exact parse_frameText (check_readback hpossible hr (hr.le.trans hle))

/-- The kernel and the crate agree on the wire:
    * what the crate writes is read by the kernel as the same command;
    * what the kernel reads is a command that the crate writes so, but for zeros in front
      of decimal numbers;
    * what the kernel shows to root of a scope after any run is parsed by the crate, with
      the time that remains rounded up to milliseconds, which is not zero while the scope
      is live, and at most a lease. -/
theorem wire_agrees [DecidableEq I] :
    (∀ (c : DiagnosticRaw.Command) s, c.encode = .ok s →
      parseCommand (Str.toUtf8 s) = some (kernelCommand c)) ∧
    (∀ input command, parseCommand input = some command →
      ∃ c z₁ z₂ z₃, kernelCommand c = command ∧ c.encode = .ok (commandText 0 0 0 c) ∧
        input = Str.toUtf8 (commandText z₁ z₂ z₃ c)) ∧
    ∀ (e : ℕ → Event I) (n : ℕ) (o : Ops I) (backend : UInt32),
      (∀ k tid uid nonce duration, (e k).op = .arm tid uid nonce duration → tid ≤ 0x7fffffff) →
      (∀ k < n, ∀ o', (e k).ops = some o' → o'.now ≤ o.now) → o.uid = 0 →
      ∃ snapshot frame parsed,
        ((scopeAt 5000000000 e n).snapshot (some o)).value = .ok snapshot ∧
        (rawShow (scopeAt 5000000000 e n) o backend).value = .ok frame ∧
        DiagnosticRaw.Snapshot.parse frame = .ok parsed ∧
        parsed.backend = backend ∧ parsed.phase = cratePhase snapshot.phase ∧
        parsed.tid = snapshot.tid ∧
        parsed.uid = snapshot.uid ∧ parsed.nonce = snapshot.nonce ∧
        parsed.remainingMs.toNat = snapshot.remaining.toNat ⌈/⌉ (1000000 : ℕ) ∧
        (snapshot.phase ≠ .released → 0 < parsed.remainingMs) ∧
        parsed.remainingMs ≤ parsed.maxMs := by
  refine ⟨fun c s => parseCommand_encode, fun input command => exists_encode, ?_⟩
  intro e n o backend htid hclock hroot
  -- The clock does not go back, so that a lease that is alive ends within its longest time from
  -- now.
  have hlive : (scopeAt 5000000000 e n).phase ≠ .released →
      (scopeAt 5000000000 e n).tid ≤ 0x7fffffff ∧
        (scopeAt 5000000000 e n).deadline.toNat ≤ o.now.toNat + 5000000000 := by
    intro hphase
    obtain ⟨hmax, k, hk, o', ho', hdeadline⟩ := scopeAt_live htid n hphase
    have hnow := UInt64.le_iff_toNat_le.1 (hclock k hk o' ho')
    exact ⟨hmax, hdeadline.trans (Nat.add_le_add_right hnow _)⟩
  obtain ⟨snapshot, hsnapshot, hpossible⟩ := snapshot_possible (sound_scopeAt 5000000000 e n) hlive
  obtain ⟨frame, r, hshow, hparse, hr, hle⟩ := parse_rawShow backend hroot hsnapshot hpossible
  refine ⟨snapshot, frame, _, hsnapshot, hshow, hparse, rfl, rfl, rfl, rfl, rfl, hr,
    fun hphase => ?_, UInt32.le_iff_toNat_le.2 hle⟩
  -- While a lease is alive there is a nanosecond left of it, and the frame rounds up.
  rcases hpossible with ⟨hreleased, -⟩ | ⟨-, -, -, -, -, hrem, -⟩
  · exact absurd hreleased hphase
  · rw [Nat.ceilDiv_eq_add_pred_div] at hr
    exact UInt32.lt_iff_toNat_lt.2 (by rw [UInt32.toNat_zero]; show 0 < r.toNat; omega)

/-- A command each way, and the frame of an active scope. -/
theorem wire_agrees_active :
    let e : ℕ → Event Bool
      | 0 => ⟨.arm 42 10001 7 1000000000, some ⟨none, fun _ => 0, 0, 100⟩, false⟩
      | 1 => ⟨.register 7, some ⟨some true, fun _ => 42, 10001, 200⟩, false⟩
      | _ => ⟨.activate 7, some ⟨none, fun _ => 0, 0, 300⟩, false⟩
    let o : Ops Bool := ⟨none, fun _ => 0, 0, 400⟩
    parseCommand (Str.toUtf8 (commandText 0 0 0 (.revoke 7))) = some ⟨.revoke, 0, 0, 0, 7⟩ ∧
      (∃ c z₁ z₂ z₃, kernelCommand c = ⟨.revoke, 0, 0, 0, 7⟩ ∧
        c.encode = .ok (commandText 0 0 0 c) ∧ ascii "v1 revoke 0000000000000007\n" = Str.toUtf8
          (commandText z₁ z₂ z₃ c)) ∧
      ∃ frame parsed, (rawShow (scopeAt 5000000000 e 3) o 1).value = .ok frame ∧
        DiagnosticRaw.Snapshot.parse frame = .ok parsed ∧ parsed.phase = .active := by
  intro e o
  have hall := wire_agrees (I := Bool)
  have hencode : (DiagnosticRaw.Command.revoke 7).encode = .ok (commandText 0 0 0 (.revoke 7)) :=
    encode_eq_ok_iff.2 ⟨(by decide : (7 : UInt64) ≠ 0), rfl⟩
  have hread :
      parseCommand (ascii "v1 revoke 0000000000000007\n") = some ⟨.revoke, 0, 0, 0, 7⟩ := by decide
  have hphase : ((scopeAt 5000000000 e 3).snapshot (some o)).value.toOption.map Snapshot.phase =
      some .active := by
    decide
  have htid : ∀ k tid uid nonce duration, (e k).op = .arm tid uid nonce duration →
      tid ≤ 0x7fffffff := by
    rintro (_ | _ | k) tid uid nonce duration hop
    · cases hop
      decide
    · cases hop
    · cases hop
  have hclock : ∀ k < 3, ∀ o', (e k).ops = some o' → o'.now ≤ o.now := by
    rintro (_ | _ | k) - o' ho'
    · cases ho'
      decide
    · cases ho'
      decide
    · cases ho'
      decide
  refine ⟨hall.1 _ _ hencode, hall.2.1 _ _ hread, ?_⟩
  obtain ⟨snapshot, frame, parsed, hsnapshot, hshow, hparse, -, hphase', -⟩ :=
    hall.2.2 e 3 o 1 htid hclock rfl
  refine ⟨frame, parsed, hshow, hparse, ?_⟩
  rw [hsnapshot] at hphase
  rw [hphase', Option.some.inj hphase]
  rfl

end VpnHide.Diag

import VpnHide.Lib.Str
import VpnHide.Protocol.Config

/-!
# The authorization of Zygisk

The envelope that Core publishes for the processes that Zygisk launches
(`crates/protocol/src/zygisk_activation.rs`): a header, the boot and the generation that it is
for, and the `config` snapshot itself, which is everything after the third newline.

An envelope is accepted exactly if it is one that is written, in the boot it was written for
(`decode_eq_some_iff`).
-/

namespace VpnHide.Protocol

open Lib

namespace Activation

/-- The longest activation that is read. -/
def maxBytes : ℕ := 64 * 1024

/-- The first line of an activation. -/
def header : Str := "vpnhide zygisk-activation 1".toList

/-- What Zygisk may do, in which boot, and which writing of it this is. -/
structure Authorization where
  bootId : Str
  generation : UInt64
  wire : Str
  deriving DecidableEq

/-- A boot id, by its bytes: 36 of them, lowercase hexadecimal digits and four dashes. -/
def validBoot (value : Str) : Bool :=
  (Str.toUtf8 value).length = 36 && (Str.toUtf8 value).zipIdx.all fun (c, i) =>
    if i = 8 ∨ i = 13 ∨ i = 18 ∨ i = 23 then c == '-'.toUInt8
    else '0'.toUInt8 ≤ c && c ≤ '9'.toUInt8 || 'a'.toUInt8 ≤ c && c ≤ 'f'.toUInt8

namespace Authorization

/-- The text of an envelope, whether it is valid or not. -/
def text (a : Authorization) : Str :=
  header ++ '\n' :: ("boot ".toList ++ a.bootId ++ '\n' ::
    ("generation ".toList ++ Nat.toDigits 10 a.generation.toNat ++ '\n' :: a.wire))

/-- `encode`: the text of an activation that can be read again. -/
def encode (a : Authorization) : Option Str :=
  if !validBoot a.bootId || a.generation = 0 || (parseConfig (Str.toUtf8 a.wire)).isNone then none
  else if (Str.toUtf8 a.text).length ≤ maxBytes then some a.text
  else none

/-- `decode`: an activation of the boot, if the bytes are the text of one. -/
def decode (bytes : Bytes) (currentBoot : Str) : Option Authorization :=
  if maxBytes < bytes.length || !validBoot currentBoot then none
  else do
    let text ← Str.fromUtf8 bytes
    let lines := Str.splitn 4 '\n' text
    guard (lines[0]? = some header)
    let boot ← lines[1]?.bind (Str.stripPrefix "boot ".toList)
    guard (boot = currentBoot)
    let rawGeneration ← lines[2]?.bind (Str.stripPrefix "generation ".toList)
    let generation ← Str.fromStrRadix 10 0xffffffffffffffff rawGeneration
    guard (generation ≠ 0 ∧ Nat.toDigits 10 generation = rawGeneration)
    let wire ← lines[3]?
    let _ ← parseConfig (Str.toUtf8 wire)
    return ⟨boot, generation.toUInt64, wire⟩

/-- The policy of an envelope, unless it is not supported whole. -/
def policy (a : Authorization) (allowedHooks : UInt32) : Option Config := do
  let config ← parseConfig (Str.toUtf8 a.wire)
  if config.defaultMask ≠ 0 ∨ config.targets.any (fun t => t.hookmask &&& ~~~allowedHooks ≠ 0) then
    none
  else some config

/-! ## Lines -/

theorem newline_notMem_header : '\n' ∉ header := by
  unfold header
  decide

/-- A valid boot id is on one line. -/
theorem newline_notMem_boot {boot : Str} (h : validBoot boot) : '\n' ∉ "boot ".toList ++ boot := by
  have hboot : '\n' ∉ boot := by
    intro hmem
    have hbyte : '\n'.toUInt8 ∈ Str.toUtf8 boot := List.mem_flatMap.2 ⟨'\n', hmem, by decide⟩
    obtain ⟨i, hi, hget⟩ := List.mem_iff_getElem.1 hbyte
    have hall := (Bool.and_eq_true_iff.1 h).2
    have hcheck := List.all_eq_true.1 hall ('\n'.toUInt8, i) (List.mem_zipIdx_iff_getElem?.2 (by
      rw [List.getElem?_eq_getElem hi, hget]))
    simp only at hcheck
    split_ifs at hcheck
    · exact absurd hcheck (by decide)
    · exact absurd hcheck (by decide)
  have hprefix : '\n' ∉ "boot ".toList := by decide
  exact fun hmem => (List.mem_append.1 hmem).elim hprefix hboot

theorem newline_notMem_generation (n : ℕ) : '\n' ∉ "generation ".toList ++ Nat.toDigits 10 n := by
  have hprefix : '\n' ∉ "generation ".toList := by decide
  intro hmem
  obtain hmem | hmem := List.mem_append.1 hmem
  · exact hprefix hmem
  · exact absurd ((Str.isWord_toDigits (by decide) (by decide) n).2 _ hmem).1 (by decide)

/-- The parts of an envelope. -/
theorem splitn_text {a : Authorization} (h : validBoot a.bootId) :
    Str.splitn 4 '\n' a.text = [header, "boot ".toList ++ a.bootId,
      "generation ".toList ++ Nat.toDigits 10 a.generation.toNat, a.wire] := by
  rw [text, Str.splitn_append 2 newline_notMem_header, Str.splitn_append 1 (newline_notMem_boot h),
    Str.splitn_append 0 (newline_notMem_generation _), Str.splitn]

theorem bootId_eq_of_text {a b : Authorization} (ha : validBoot a.bootId) (hb : validBoot b.bootId)
    (h : a.text = b.text) : a.bootId = b.bootId := by
  have hparts := splitn_text ha
  rw [h, splitn_text hb] at hparts
  exact (List.append_cancel_left (List.cons.inj (List.cons.inj hparts).2).1).symm

/-- Four parts are cut at three newlines. -/
theorem of_splitn {text a b c d : Str} {rest : List Str}
    (h : Str.splitn 4 '\n' text = a :: b :: c :: d :: rest) :
    text = a ++ '\n' :: (b ++ '\n' :: (c ++ '\n' :: d)) := by
  obtain ⟨t, rfl, -, h⟩ := Str.splitn_eq_cons_cons h
  obtain ⟨t, rfl, -, h⟩ := Str.splitn_eq_cons_cons h
  obtain ⟨t, rfl, -, h⟩ := Str.splitn_eq_cons_cons h
  obtain rfl : t = d := (List.cons.inj h).1
  rfl

theorem exists_of_getElem?_three {lines : List Str} {d : Str} (h : lines[3]? = some d) :
    ∃ a b c rest, lines = a :: b :: c :: d :: rest := by
  match lines, h with
  | a :: b :: c :: _ :: rest, h => exact ⟨a, b, c, rest, by rw [Option.some.inj h]⟩

/-! ## Main result -/

theorem encode_eq_some_iff {a : Authorization} {s : Str} : a.encode = some s ↔
    validBoot a.bootId ∧ a.generation ≠ 0 ∧
      (∃ config, parseConfig (Str.toUtf8 a.wire) = some config) ∧
      (Str.toUtf8 a.text).length ≤ maxBytes ∧ s = a.text := by
  rw [encode]
  split_ifs with hbad hlen
  · simp only [false_iff, not_and]
    intro hboot hgen ⟨config, hconfig⟩
    simp [hboot, hgen, hconfig] at hbad
  · simp only [Bool.or_eq_true, Bool.not_eq_true', decide_eq_true_eq, Option.isNone_iff_eq_none,
      not_or, Bool.not_eq_false, ← Option.ne_none_iff_exists', Option.some.injEq] at hbad ⊢
    exact ⟨fun h => ⟨hbad.1.1, hbad.1.2, hbad.2, hlen, h.symm⟩, fun h => h.2.2.2.2.symm⟩
  · simp [hlen]

/-- What is accepted in a boot is what is written for it. -/
theorem decode_eq_some_iff {bytes : Bytes} {boot : Str} {a : Authorization} :
    decode bytes boot = some a ↔ a.bootId = boot ∧ ∃ s, a.encode = some s ∧
      Str.toUtf8 s = bytes := by
  constructor
  · intro h
    rw [decode] at h
    split_ifs at h with hbad
    simp only [Bool.or_eq_true, decide_eq_true_eq, Bool.not_eq_true', not_or, not_lt,
      Bool.not_eq_false] at hbad
    obtain ⟨text, htext, h⟩ := Option.bind_eq_some_iff.1 h
    obtain ⟨_, hheader, h⟩ := Option.bind_eq_some_iff.1 h
    obtain ⟨boot', hboot, h⟩ := Option.bind_eq_some_iff.1 h
    obtain ⟨_, hcurrent, h⟩ := Option.bind_eq_some_iff.1 h
    obtain ⟨raw, hraw, h⟩ := Option.bind_eq_some_iff.1 h
    obtain ⟨generation, hgeneration, h⟩ := Option.bind_eq_some_iff.1 h
    obtain ⟨_, hnumeral, h⟩ := Option.bind_eq_some_iff.1 h
    obtain ⟨wire, hwire, h⟩ := Option.bind_eq_some_iff.1 h
    obtain ⟨config, hconfig, h⟩ := Option.bind_eq_some_iff.1 h
    obtain rfl := Option.some.inj h
    obtain rfl := (Option.guard_eq_some' _).1 hcurrent
    obtain ⟨hne, rfl⟩ := (Option.guard_eq_some' _).1 hnumeral
    obtain ⟨l₀, l₁, l₂, rest, hlines⟩ := exists_of_getElem?_three hwire
    rw [hlines] at hheader hboot hraw
    obtain rfl := Option.some.inj ((Option.guard_eq_some' _).1 hheader)
    have hl₁ : l₁ = "boot ".toList ++ boot' := Str.stripPrefix_eq_some hboot
    have hl₂ : l₂ = "generation ".toList ++ Nat.toDigits 10 generation :=
      Str.stripPrefix_eq_some hraw
    -- the generation fits its type
    have hmax : generation ≤ 0xffffffffffffffff :=
      Str.fromStrRadix_le (by decide) (by decide) hgeneration
    have hnat : generation.toUInt64.toNat = generation :=
      UInt64.toNat_ofNat_of_lt' (Nat.lt_succ_of_le hmax)
    have heq : text = (⟨boot', generation.toUInt64, wire⟩ : Authorization).text := by
      rw [of_splitn hlines, Authorization.text, hl₁, hl₂, hnat]
    have hbytes : Str.toUtf8 (⟨boot', generation.toUInt64, wire⟩ : Authorization).text = bytes := by
      rw [← heq]
      exact Str.toUtf8_of_fromUtf8 htext
    refine ⟨rfl, _, encode_eq_some_iff.2 ⟨hbad.2, fun hzero => hne ?_, ⟨config, hconfig⟩, ?_, rfl⟩,
      hbytes⟩
    · have hzero' : generation.toUInt64 = 0 := hzero
      rw [← hnat, hzero']
      rfl
    · rw [hbytes]
      exact hbad.1
  · rintro ⟨rfl, s, hs, rfl⟩
    obtain ⟨hboot, hgen, ⟨config, hconfig⟩, hlen, rfl⟩ := encode_eq_some_iff.1 hs
    have hne : a.generation.toNat ≠ 0 := fun hzero => hgen (UInt64.toNat_inj.1 hzero)
    have hread : Str.fromStrRadix 10 0xffffffffffffffff (Nat.toDigits 10 a.generation.toNat) =
        some a.generation.toNat :=
      Str.fromStrRadix_toDigits (by decide) (by decide) (by decide)
        (Nat.le_of_lt_succ a.generation.toNat_lt)
    have hback : a.generation.toNat.toUInt64 = a.generation := UInt64.ofNat_toNat
    rw [decode, if_neg (by simp [hlen, hboot])]
    refine Option.bind_eq_some_iff.2 ⟨a.text, Str.fromUtf8_toUtf8 _, ?_⟩
    simp only [splitn_text hboot]
    refine Option.bind_eq_some_iff.2 ⟨(), (Option.guard_eq_some' _).2 rfl, ?_⟩
    refine Option.bind_eq_some_iff.2 ⟨a.bootId, Str.stripPrefix_append _ _, ?_⟩
    refine Option.bind_eq_some_iff.2 ⟨(), (Option.guard_eq_some' _).2 rfl, ?_⟩
    refine Option.bind_eq_some_iff.2 ⟨_, Str.stripPrefix_append _ _, ?_⟩
    refine Option.bind_eq_some_iff.2 ⟨_, hread, ?_⟩
    refine Option.bind_eq_some_iff.2 ⟨(), (Option.guard_eq_some' _).2 ⟨hne, rfl⟩, ?_⟩
    refine Option.bind_eq_some_iff.2 ⟨a.wire, rfl, ?_⟩
    refine Option.bind_eq_some_iff.2 ⟨config, hconfig, ?_⟩
    rw [hback]
    rfl

/-- Envelopes that are written are read in their boot and in no other, and fit their bound;
    what is read is exactly what was written; and the policy of an envelope has no default and
    no hook that is not allowed. -/
theorem authorization_codec :
    (∀ a s, encode a = some s → decode (Str.toUtf8 s) a.bootId = some a ∧
      (∀ boot, boot ≠ a.bootId → decode (Str.toUtf8 s) boot = none) ∧
      (Str.toUtf8 s).length ≤ maxBytes) ∧
    (∀ bytes boot a, decode bytes boot = some a →
      a.bootId = boot ∧ ∃ s, encode a = some s ∧ Str.toUtf8 s = bytes) ∧
    ∀ a allowedHooks config, policy a allowedHooks = some config →
      config.defaultMask = 0 ∧ ∀ t ∈ config.targets, t.hookmask &&& ~~~allowedHooks = 0 := by
  refine ⟨fun a s hs => ⟨decode_eq_some_iff.2 ⟨rfl, s, hs, rfl⟩, fun boot hne => ?_, ?_⟩,
    fun bytes boot a h => decode_eq_some_iff.1 h, fun a allowedHooks config h => ?_⟩
  · -- another boot would have to be that of the envelope that is read
    by_contra hsome
    obtain ⟨a', ha'⟩ := Option.ne_none_iff_exists'.1 hsome
    obtain ⟨rfl, s', hs', hbytes⟩ := decode_eq_some_iff.1 ha'
    obtain ⟨hboot, -, -, -, rfl⟩ := encode_eq_some_iff.1 hs
    obtain ⟨hboot', -, -, -, rfl⟩ := encode_eq_some_iff.1 hs'
    exact hne (bootId_eq_of_text hboot' hboot (Str.toUtf8_injective hbytes))
  · obtain ⟨-, -, -, hlen, rfl⟩ := encode_eq_some_iff.1 hs
    exact hlen
  · obtain ⟨config', -, h⟩ := Option.bind_eq_some_iff.1 h
    split_ifs at h with hbad
    obtain rfl := Option.some.inj h
    rw [not_or, not_not, Bool.not_eq_true, List.any_eq_false] at hbad
    exact ⟨hbad.1, fun t ht => by simpa using hbad.2 t ht⟩

end Authorization

end Activation

end VpnHide.Protocol

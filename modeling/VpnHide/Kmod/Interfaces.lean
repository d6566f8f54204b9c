import VpnHide.Zygisk.Interfaces

/-!
# Names of VPN interfaces in the kernel

The rules for names as they are generated for the kernel (`kmod/generated/iface_lists.h`). A
name is a C string, here without its NUL. The rules are those of Zygisk
(`vpnhideIfaceIsVpn_eq`).
-/

namespace VpnHide.Kmod

open Lib Zygisk

/-- `vpnhide__lc`. -/
def lc (c : UInt8) : UInt8 :=
  if 'A'.toUInt8 ≤ c ∧ c ≤ 'Z'.toUInt8 then c - 'A'.toUInt8 + 'a'.toUInt8 else c

/-- A name begins with a text, in any case of letters. -/
def vpnhideIfaceStartsWithCi : Bytes → Bytes → Bool
  | _, [] => true
  | [], _ :: _ => false
  | c :: name, p :: pre => if lc c ≠ lc p then false else vpnhideIfaceStartsWithCi name pre

/-- A name begins with a text, and goes on with digits only. -/
def vpnhideIfaceStartsWithThenDigitsCi (name pre : Bytes) : Bool :=
  if !vpnhideIfaceStartsWithCi name pre then false
  else if name.drop pre.length = [] then false
  else (name.drop pre.length).all fun c => !(c < '0'.toUInt8 || '9'.toUInt8 < c)

/-- A name is a text, in any case of letters. -/
def vpnhideIfaceEqualsCi : Bytes → Bytes → Bool
  | name, [] => name = []
  | [], _ :: _ => false
  | c :: name, p :: other => if lc c ≠ lc p then false else vpnhideIfaceEqualsCi name other

/-- How the comparison with a needle ends. -/
inductive Window
  | found
  | mismatch
  /-- The name ends before the needle does. -/
  | ended
  deriving DecidableEq

/-- How a needle compares with what a name begins with. -/
def window : Bytes → Bytes → Window
  | _, [] => .found
  | [], _ :: _ => .ended
  | c :: name, p :: needle => if lc c ≠ lc p then .mismatch else window name needle

/-- The needle is looked for from each place on. -/
def containsFrom (needle : Bytes) : Bytes → Bool
  | [] => false
  | c :: name =>
    match window (c :: name) needle with
    | .found => true
    | .ended => false
    | .mismatch => containsFrom needle name

/-- A name contains a text, in any case of letters. -/
def vpnhideIfaceContainsCi (name needle : Bytes) : Bool :=
  if needle = [] then true else containsFrom needle name

/-- `vpnhide_iface_is_vpn`: a name is one of a VPN interface. -/
def vpnhideIfaceIsVpn (name : Bytes) : Bool :=
  if name = [] then false
  else if [ascii "tunl0", ascii "gre0", ascii "gretap0"].any (vpnhideIfaceEqualsCi name) then false
  else
    [ascii "tun", ascii "tap", ascii "wg", ascii "ppp", ascii "ipsec", ascii "xfrm", ascii "utun",
      ascii "l2tp", ascii "gre", ascii "tailscale", ascii "zt",
      ascii "he-ipv6"].any (vpnhideIfaceStartsWithCi name) ||
    vpnhideIfaceContainsCi name (ascii "vpn") ||
      vpnhideIfaceStartsWithThenDigitsCi name (ascii "if")

/-! ## The rules are the same -/

theorem lc_eq : ∀ c, lc c = toAsciiLowercase c := by
  intro c
  rw [lc, toAsciiLowercase]
  split_ifs
  · have hconst : 'a'.toUInt8 = 'A'.toUInt8 + 32 := by decide
    rw [hconst, ← UInt8.add_assoc, UInt8.sub_add_cancel]
  · rfl

/-- A text that is in lower case already. -/
def Lowercase (p : Bytes) : Prop := ∀ c ∈ p, toAsciiLowercase c = c

instance (p : Bytes) : Decidable (Lowercase p) := inferInstanceAs (Decidable (∀ c ∈ p, _))

section Same

variable {name p : Bytes}

/-- Both sides agree on beginnings. -/
theorem startsWithCi_eq (hp : Lowercase p) :
    vpnhideIfaceStartsWithCi name p = startsWithCi name p := by
  induction p generalizing name with
  | nil => simp [vpnhideIfaceStartsWithCi, startsWithCi]
  | cons c p ih =>
    cases name with
    | nil => rfl
    | cons d name =>
      have hc : lc c = c := (lc_eq c).trans (hp c List.mem_cons_self)
      rw [vpnhideIfaceStartsWithCi, ih fun x hx => hp x (List.mem_cons_of_mem _ hx), hc, lc_eq]
      simp only [startsWithCi, List.length_cons, Nat.add_le_add_iff_right,
        List.zip_cons_cons, List.all_cons]
      by_cases heq : toAsciiLowercase d = c
      · simp [heq]
      · simp [heq]

/-- Both sides agree on equality. -/
theorem equalsCi_eq (hp : Lowercase p) : vpnhideIfaceEqualsCi name p = equalsCi name p := by
  induction p generalizing name with
  | nil => cases name <;> simp [vpnhideIfaceEqualsCi, equalsCi]
  | cons c p ih =>
    cases name with
    | nil => rfl
    | cons d name =>
      have hc : lc c = c := (lc_eq c).trans (hp c List.mem_cons_self)
      rw [vpnhideIfaceEqualsCi, ih fun x hx => hp x (List.mem_cons_of_mem _ hx), hc, lc_eq]
      simp only [equalsCi, List.length_cons, List.zip_cons_cons, List.all_cons]
      by_cases heq : toAsciiLowercase d = c
      · simp [heq]
      · simp [heq]

/-- Both sides agree on numbered names. -/
theorem startsWithThenDigitsCi_eq (hp : Lowercase p) :
    vpnhideIfaceStartsWithThenDigitsCi name p = startsWithThenDigitsCi name p := by
  have hdigit : (fun c : UInt8 => !(decide (c < '0'.toUInt8) || decide ('9'.toUInt8 < c))) =
      isAsciiDigit := by
    funext c
    rw [isAsciiDigit, Bool.not_or, ← decide_not, ← decide_not]
    simp only [UInt8.not_lt]
  rw [vpnhideIfaceStartsWithThenDigitsCi, startsWithThenDigitsCi, startsWithCi_eq hp, hdigit]
  cases startsWithCi name p with
  | false => rfl
  | true =>
    by_cases hnil : name.drop p.length = []
    · simp [hnil]
    · simp [hnil]

/-- Whether the needle stands at the beginning. -/
def hasPrefixCi (name needle : Bytes) : Bool :=
  needle.length ≤ name.length && ((name.take needle.length).zip needle).all fun q =>
    toAsciiLowercase q.1 == toAsciiLowercase q.2

/-- When the needle is found at the front. -/
theorem window_found_iff {needle : Bytes} :
    window name needle = .found ↔ hasPrefixCi name needle = true := by
  induction needle generalizing name with
  | nil => simp [window, hasPrefixCi]
  | cons p needle ih =>
    cases name with
    | nil => simp [window, hasPrefixCi]
    | cons c name =>
      rw [window, lc_eq, lc_eq]
      by_cases heq : toAsciiLowercase c = toAsciiLowercase p
      · simp [heq, ih, hasPrefixCi]
      · simp [heq, hasPrefixCi]

/-- Where the name ends too soon, it is shorter. -/
theorem length_of_window_ended {needle : Bytes} (h : window name needle = .ended) :
    name.length < needle.length := by
  induction needle generalizing name with
  | nil => cases name <;> cases h
  | cons p needle ih =>
    cases name with
    | nil => exact Nat.succ_pos _
    | cons c name =>
      rw [window] at h
      split_ifs at h
      exact Nat.succ_lt_succ (ih h)

/-- The needle stands somewhere. -/
theorem containsFrom_iff {needle : Bytes} (hne : needle ≠ []) :
    containsFrom needle name = true ↔ ∃ k, hasPrefixCi (name.drop k) needle = true := by
  have hshort {l : Bytes} (h : l.length < needle.length) : hasPrefixCi l needle = false := by
    rw [hasPrefixCi, decide_eq_false (not_le.2 h), Bool.false_and]
  have hpos := List.length_pos_iff.2 hne
  induction name with
  | nil =>
    simp only [containsFrom, List.drop_nil, Bool.false_eq_true, false_iff,
      not_exists, Bool.not_eq_true]
    exact fun _ => hshort hpos
  | cons c name ih =>
    have hsplit : (∃ k, hasPrefixCi ((c :: name).drop k) needle = true) ↔
        hasPrefixCi (c :: name) needle = true ∨ ∃ k, hasPrefixCi (name.drop k) needle = true := by
      constructor
      · rintro ⟨k, hk⟩
        cases k with
        | zero => exact .inl hk
        | succ k => exact .inr ⟨k, hk⟩
      · rintro (h | ⟨k, hk⟩)
        · exact ⟨0, h⟩
        · exact ⟨k + 1, hk⟩
    rw [containsFrom, hsplit, ← window_found_iff]
    cases hw : window (c :: name) needle with
    | found => simp
    | mismatch => simpa using ih
    | ended =>
      -- what is left of the name is too short further on, too
      have hlen := length_of_window_ended hw
      have hrest : ¬ ∃ k, hasPrefixCi (name.drop k) needle = true := by
        rintro ⟨k, hk⟩
        rw [hshort (by rw [List.length_drop]; rw [List.length_cons] at hlen; omega)] at hk
        cases hk
      simp [hrest]

/-- Both sides agree on parts. -/
theorem containsCi_eq (needle : Bytes) :
    vpnhideIfaceContainsCi name needle = containsCi name needle := by
  rw [vpnhideIfaceContainsCi, containsCi]
  split_ifs with hnil hlen
  · rfl
  · rw [Bool.eq_false_iff, ne_eq, containsFrom_iff hnil]
    rintro ⟨k, hk⟩
    rw [hasPrefixCi, Bool.and_eq_true, decide_eq_true_eq, List.length_drop] at hk
    omega
  · rw [Bool.eq_iff_iff, containsFrom_iff hnil, List.any_eq_true]
    constructor
    · rintro ⟨k, hk⟩
      rw [hasPrefixCi, Bool.and_eq_true, decide_eq_true_eq, List.length_drop] at hk
      have hpos := List.length_pos_iff.2 hnil
      exact ⟨k, List.mem_range.2 (by omega), hk.2⟩
    · rintro ⟨k, hk, hall⟩
      rw [List.mem_range] at hk
      refine ⟨k, ?_⟩
      rw [hasPrefixCi, Bool.and_eq_true, decide_eq_true_eq, List.length_drop]
      exact ⟨by omega, hall⟩

theorem any_eq_of_mem {rules : List Bytes} {f g : Bytes → Bool} (h : ∀ p ∈ rules, f p = g p) :
    rules.any f = rules.any g := by
  induction rules with
  | nil => rfl
  | cons p rules ih =>
    rw [List.any_cons, List.any_cons, h p List.mem_cons_self, ih fun q hq =>
      h q (List.mem_cons_of_mem _ hq)]

/-- The kernel and Zygisk match the same names. -/
theorem vpnhideIfaceIsVpn_eq (name : Bytes) : vpnhideIfaceIsVpn name = matchesVpn name := by
  have hnot : ∀ p ∈ notVpn, vpnhideIfaceEqualsCi name p = equalsCi name p := fun p hp =>
    equalsCi_eq ((by decide : ∀ p ∈ notVpn, Lowercase p) p hp)
  have hpre : ∀ p ∈ vpnPrefixes, vpnhideIfaceStartsWithCi name p = startsWithCi name p :=
    fun p hp =>
    startsWithCi_eq ((by decide : ∀ p ∈ vpnPrefixes, Lowercase p) p hp)
  have hif : Lowercase (ascii "if") := by decide
  rw [vpnhideIfaceIsVpn, matchesVpn, containsCi_eq, startsWithThenDigitsCi_eq hif]
  change (if name = [] then false else if notVpn.any (vpnhideIfaceEqualsCi name) = true then false
    else vpnPrefixes.any (vpnhideIfaceStartsWithCi name) || _ || _) = _
  rw [any_eq_of_mem hnot, any_eq_of_mem hpre]

end Same

end VpnHide.Kmod

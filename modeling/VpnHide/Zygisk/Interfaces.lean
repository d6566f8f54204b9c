import VpnHide.Protocol.Lexical

/-!
# Names of VPN interfaces

The rules that `data/interfaces.toml` gives for the name of an interface, as they are
generated into `zygisk/src/generated/iface_lists.rs`.
-/

namespace VpnHide.Zygisk

open Lib Protocol

/-- `u8::to_ascii_lowercase`. -/
def toAsciiLowercase (b : UInt8) : UInt8 := if 'A'.toUInt8 ≤ b ∧ b ≤ 'Z'.toUInt8 then b + 32 else b

/-- A decimal digit. -/
def isAsciiDigit (b : UInt8) : Bool := '0'.toUInt8 ≤ b && b ≤ '9'.toUInt8

/-- A name begins with a text, in any case of letters. -/
def startsWithCi (name pre : Bytes) : Bool :=
  pre.length ≤ name.length && (name.zip pre).all fun p => toAsciiLowercase p.1 == p.2

/-- A name begins with a text, and goes on with digits only. -/
def startsWithThenDigitsCi (name pre : Bytes) : Bool :=
  startsWithCi name pre && name.drop pre.length != [] && (name.drop pre.length).all isAsciiDigit

/-- A name is a text, in any case of letters. -/
def equalsCi (name other : Bytes) : Bool :=
  name.length == other.length && (name.zip other).all fun p => toAsciiLowercase p.1 == p.2

/-- A name contains a text, in any case of letters. -/
def containsCi (haystack needle : Bytes) : Bool :=
  if needle = [] then true
  else if haystack.length < needle.length then false
  else (List.range (haystack.length - needle.length + 1)).any fun start =>
    (((haystack.drop start).take needle.length).zip needle).all fun p =>
      toAsciiLowercase p.1 == toAsciiLowercase p.2

/-- Fallback devices, which match a rule but are no VPN. -/
def notVpn : List Bytes := [ascii "tunl0", ascii "gre0", ascii "gretap0"]

/-- What the names of VPN interfaces begin with. -/
def vpnPrefixes : List Bytes :=
  [ascii "tun", ascii "tap", ascii "wg", ascii "ppp", ascii "ipsec", ascii "xfrm", ascii "utun",
    ascii "l2tp", ascii "gre", ascii "tailscale", ascii "zt", ascii "he-ipv6"]

/-- `matches_vpn`: a name is one of a VPN interface. -/
def matchesVpn (name : Bytes) : Bool :=
  if name = [] then false
  else if notVpn.any (equalsCi name) then false
  else vpnPrefixes.any (startsWithCi name) || containsCi name (ascii "vpn") ||
    startsWithThenDigitsCi name (ascii "if")

/-- A name in a buffer of fixed size ends at its first NUL. -/
def isVpnIfaceBytes (name : Bytes) : Bool := matchesVpn (name.takeWhile (· != 0))

end VpnHide.Zygisk

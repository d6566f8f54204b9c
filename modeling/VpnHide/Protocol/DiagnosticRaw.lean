import VpnHide.Lib.Str
import VpnHide.Protocol.Lexical

/-!
# The wire of the diagnostics, in userspace

The private wire of the diagnostics as the Rust crate has it
(`crates/protocol/src/diagnostic_raw.rs`): commands are written, and the readback of the
kernel is parsed, strictly.
-/

namespace VpnHide.Protocol.DiagnosticRaw

open Lib

/-- The version of the protocol. -/
def version : ℕ := 1

/-- The longest lease. -/
def maxLeaseMs : UInt32 := 5000

/-- The longest command. -/
def maxCommandBytes : ℕ := 128

/-- The longest reply. -/
def maxReplyBytes : ℕ := 1024

/-- Why a text is not read. -/
inductive Error
  | malformed
  | unsupported
  | tooLarge
  deriving DecidableEq

/-! ## Commands -/

/-- A command to the kernel. -/
inductive Command
  | arm (tid uid : UInt32) (nonce : UInt64) (durationMs : UInt32)
  | activate (nonce : UInt64)
  | revoke (nonce : UInt64)
  deriving DecidableEq

/-- A number, `{}`. -/
def dec (n : ℕ) : Str := Nat.toDigits 10 n

/-- A nonce, `{:016x}`. -/
def hex016 (n : UInt64) : Str := Str.padded 16 16 n.toNat

/-- The token of a command, and its line. -/
def Command.parts : Command → Except Error (UInt64 × Str)
  | .arm tid uid nonce durationMs =>
    if tid = 0 ∨ 0x7fffffff < tid ∨ uid = 0 ∨ durationMs = 0 ∨ maxLeaseMs < durationMs then
      .error .malformed
    else .ok (nonce, 'v' :: dec version ++ " arm ".toList ++ dec tid.toNat ++ ' ' ::
      dec uid.toNat ++ ' ' :: hex016 nonce ++ ' ' :: dec durationMs.toNat ++ ['\n'])
  | .activate nonce =>
    .ok (nonce, 'v' :: dec version ++ " activate ".toList ++ hex016 nonce ++ ['\n'])
  | .revoke nonce => .ok (nonce, 'v' :: dec version ++ " revoke ".toList ++ hex016 nonce ++ ['\n'])

/-- `Command::encode`: the line of a command whose values may be sent. -/
def Command.encode (c : Command) : Except Error Str := do
  let (token, line) ← c.parts
  if token = 0 then .error .malformed
  else if maxCommandBytes < (Str.toUtf8 line).length then .error .tooLarge
  else .ok line

/-! ## Readback -/

/-- How far a lease has got. -/
inductive Phase
  | released
  | armed
  | registered
  | active
  deriving DecidableEq

/-- What the kernel tells of the lease. -/
structure Snapshot where
  backend : UInt32
  maxMs : UInt32
  phase : Phase
  tid : UInt32
  uid : UInt32
  nonce : UInt64
  remainingMs : UInt32
  deriving DecidableEq

/-- A decimal number. -/
def decimal (s : Str) : Option UInt32 :=
  if s ≠ [] ∧ (Str.toUtf8 s).all (fun b => '0'.toUInt8 ≤ b && b ≤ '9'.toUInt8) then
    (Str.fromStrRadix 10 0xffffffff s).map Nat.toUInt32
  else none

/-- A hexadecimal digit that is not in uppercase. -/
def isLowerHexdigit (b : UInt8) : Bool :=
  ('0'.toUInt8 ≤ b && b ≤ '9'.toUInt8) || ('a'.toUInt8 ≤ b && b ≤ 'f'.toUInt8)

/-- A nonce: 16 hexadecimal digits, in lower case. -/
def nonce (s : Str) : Option UInt64 :=
  if (Str.toUtf8 s).length = 16 ∧ (Str.toUtf8 s).all isLowerHexdigit then
    (Str.fromStrRadix 16 0xffffffffffffffff s).map Nat.toUInt64
  else none

/-- The phase of a name. -/
def phase (s : Str) : Option Phase :=
  if s = "released".toList then some .released
  else if s = "armed".toList then some .armed
  else if s = "registered".toList then some .registered
  else if s = "active".toList then some .active
  else none

/-- The fields read so far. -/
structure Fields where
  backend : Option UInt32
  maxMs : Option UInt32
  phase : Option Phase
  tid : Option UInt32
  uid : Option UInt32
  token : Option UInt64
  remaining : Option UInt32

/-- No field has been read. -/
def Fields.empty : Fields := ⟨none, none, none, none, none, none, none⟩

/-- Reading a field, which must not have been read before. -/
def Fields.set (f : Fields) (key value : Str) : Except Error Fields :=
  if key = "backend".toList ∧ f.backend = none then
    (okOr .malformed (decimal value)).map fun n => { f with backend := some n }
  else if key = "max_ms".toList ∧ f.maxMs = none then
    (okOr .malformed (decimal value)).map fun n => { f with maxMs := some n }
  else if key = "phase".toList ∧ f.phase = none then
    (okOr .malformed (DiagnosticRaw.phase value)).map fun p => { f with phase := some p }
  else if key = "tid".toList ∧ f.tid = none then
    (okOr .malformed (decimal value)).map fun n => { f with tid := some n }
  else if key = "uid".toList ∧ f.uid = none then
    (okOr .malformed (decimal value)).map fun n => { f with uid := some n }
  else if key = "nonce".toList ∧ f.token = none then
    (okOr .malformed (DiagnosticRaw.nonce value)).map fun n => { f with token := some n }
  else if key = "remaining_ms".toList ∧ f.remaining = none then
    (okOr .malformed (decimal value)).map fun n => { f with remaining := some n }
  else .error .malformed

/-- A line is read; each field may come once. -/
def Fields.line (f : Fields) (line : Str) : Except Error Fields := do
  let (key, value) ← okOr .malformed (Str.splitOnce ' ' line)
  f.set key value

/-- All fields must have been read. -/
def Fields.snapshot (f : Fields) : Except Error Snapshot := do
  let backend ← okOr .malformed f.backend
  let maxMs ← okOr .malformed f.maxMs
  let phase ← okOr .malformed f.phase
  let tid ← okOr .malformed f.tid
  let uid ← okOr .malformed f.uid
  let nonce ← okOr .malformed f.token
  let remainingMs ← okOr .malformed f.remaining
  .ok ⟨backend, maxMs, phase, tid, uid, nonce, remainingMs⟩

/-- States that cannot be are refused. -/
def Snapshot.check (s : Snapshot) : Except Error Snapshot :=
  if s.maxMs = 0 then .error .unsupported
  else if maxLeaseMs < s.maxMs ∨ s.maxMs < s.remainingMs ∨ 0x7fffffff < s.tid then .error .malformed
  else if match s.phase with
      | .released => s.tid != 0 || s.uid != 0 || s.remainingMs != 0
      | _ => s.tid == 0 || s.uid == 0 || s.nonce == 0 || s.remainingMs == 0 then .error .malformed
  else .ok s

/-- The first line of a reply. -/
def header : Str := "vpnhide diagnostic-raw ".toList ++ dec version

/-- `Snapshot::parse`: a reply that has all fields. -/
def Snapshot.parse (bytes : Bytes) : Except Error Snapshot := do
  if maxReplyBytes < bytes.length then .error .tooLarge
  else do
    let text ← okOr .malformed (Str.fromUtf8 bytes)
    if !Str.endsWith text '\n' ∨ '\r' ∈ text then .error .malformed
    else match Str.lines text with
      | [] => .error .unsupported
      | line :: lines =>
        if line ≠ header then .error .unsupported
        else do
          let fields ← lines.foldlM Fields.line .empty
          let s ← fields.snapshot
          s.check

end VpnHide.Protocol.DiagnosticRaw

import VpnHide.Diag.Scope
import VpnHide.Protocol.Lexical

/-!
# The wire of the diagnostics, in the kernel

The kernel's side of the private wire of the diagnostics
(`kmod/shared/vpnhide_diag_wire.h`): a command is one line of text, read by a
hand-written recogniser, and carried out for root only. A thread registers itself with
the name of a network interface, of which only the kernel sees that it is none.
-/

namespace VpnHide.Diag

open Lib Protocol

/-! ## Commands -/

/-- The kinds of commands. -/
inductive CommandKind
  | arm
  | activate
  | revoke
  deriving DecidableEq

/-- A command of the daemon. -/
structure Command where
  kind : CommandKind
  tid : UInt32
  uid : UInt32
  durationMs : UInt32
  nonce : UInt64
  deriving DecidableEq

/-- `VPNHIDE_DIAG_RAW_MAX_MS`. -/
def maxMs : UInt32 := 5000

/-- `VPNHIDE_DIAG_RAW_COMMAND_BYTES`. -/
def commandBytes : ℕ := 128

/-- What follows a word. -/
def word : Bytes → Bytes → Option Bytes
  | [], input => some input
  | _ :: _, [] => none
  | w :: ws, c :: cs => if c ≠ w then none else word ws cs

/-- The digits of a decimal number, after the value `result`. -/
def decimalLoop (result : ℕ) : Bytes → Option (ℕ × Bytes)
  | [] => some (result, [])
  | c :: cs =>
    match decDigit c with
    | none => some (result, c :: cs)
    | some digit =>
      if (0xffffffff - digit) / 10 < result then none else decimalLoop (result * 10 + digit) cs

/-- A decimal number within `unsigned int`, and what follows it. -/
def decimal : Bytes → Option (UInt32 × Bytes)
  | [] => none
  | c :: cs =>
    if (decDigit c).isNone then none
    else (decimalLoop 0 (c :: cs)).map fun (result, rest) => (result.toUInt32, rest)

/-- The value of a hexadecimal digit, in lowercase. -/
def tokenDigit (c : UInt8) : Option ℕ :=
  if '0'.toUInt8 ≤ c ∧ c ≤ '9'.toUInt8 then some (c - '0'.toUInt8).toNat
  else if 'a'.toUInt8 ≤ c ∧ c ≤ 'f'.toUInt8 then some (c - 'a'.toUInt8 + 10).toNat
  else none

/-- The next `n` digits of a token, after the value `result`. -/
def tokenLoop (result : UInt64) : ℕ → Bytes → Option (UInt64 × Bytes)
  | 0, input => some (result, input)
  | _ + 1, [] => none
  | n + 1, c :: cs =>
    match tokenDigit c with
    | none => none
    | some digit => tokenLoop (result <<< 4 ||| digit.toUInt64) n cs

/-- A token, 16 hexadecimal digits that are not all zero, and what follows it. -/
def token (input : Bytes) : Option (UInt64 × Bytes) :=
  match tokenLoop 0 16 input with
  | none => none
  | some (result, rest) => if result = 0 then none else some (result, rest)

/-- The rest of an `arm` command. -/
def parseArm (input : Bytes) : Option (Command × Bytes) := do
  let (tid, input) ← decimal input
  let input ← word (ascii " ") input
  let (uid, input) ← decimal input
  let input ← word (ascii " ") input
  let (nonce, input) ← token input
  let input ← word (ascii " ") input
  let (durationMs, input) ← decimal input
  if tid = 0 ∨ 0x7fffffff < tid ∨ uid = 0 ∨ durationMs = 0 ∨ maxMs < durationMs then none
  else some (⟨.arm, tid, uid, durationMs, nonce⟩, input)

/-- The kind of a command that is no `arm`. -/
def parseKind (input : Bytes) : Option (CommandKind × Bytes) :=
  match word (ascii "activate ") input with
  | some input => some (.activate, input)
  | none => (word (ascii "revoke ") input).map fun input => (.revoke, input)

/-- A command after its prefix. -/
def parseBody (input : Bytes) : Option (Command × Bytes) :=
  match word (ascii "arm ") input with
  | some input => parseArm input
  | none => do
    let (kind, input) ← parseKind input
    let (nonce, input) ← token input
    some (⟨kind, 0, 0, 0, nonce⟩, input)

/-- `vpnhide_diag_parse_command`: a line with a known word and its numbers. -/
def parseCommand (input : Bytes) : Option Command :=
  if input = [] ∨ commandBytes < input.length ∨ input.getLast? ≠ some '\n'.toUInt8 then none
  else do
    let input ← word (ascii "v1 ") input.dropLast
    let (command, input) ← parseBody input
    if input ≠ [] then none else some command

/-! ## Carrying them out -/

variable {I : Type*}

/-- Only root arms, activates and revokes. -/
def Scope.execute (s : Scope I) (ops : Option (Ops I)) (command : Command) : Out I Result :=
  match ops with
  | none => ⟨s, [], .unavailable⟩
  | some o =>
    if o.uid ≠ 0 then ⟨s, [], .invalid⟩
    else match command.kind with
      | .arm =>
        s.arm ops command.tid command.uid command.nonce (command.durationMs.toUInt64 * 1000000)
      | .activate => s.activate ops command.nonce
      | .revoke => s.revoke ops command.nonce

/-- `VPNHIDE_DIAG_RAW_REGISTRATION_MARKER`. -/
def registrationMarker : Bytes := ascii "VHRAW1!"

/-- The token in a name, if it is one for registration. -/
def registrationToken (name : Fin 16 → UInt8) : Option UInt64 :=
  if name 15 ≠ 0 then none
  else if ∃ i : Fin 7, name ⟨8 + i, by omega⟩ ≠ registrationMarker[i.val]! then none
  else some ((List.finRange 8).foldl
    (fun token i => token ||| (name (i.castLE (by decide))).toUInt64 <<< (i.val * 8).toUInt64) 0)

/-- The registration by the name of a socket, which holds the token. -/
def Scope.registerName [DecidableEq I] (s : Scope I) (ops : Option (Ops I))
    (name : Fin 16 → UInt8) : Out I Result :=
  match registrationToken name with
  | none => ⟨s, [], .invalid⟩
  | some token => s.register ops token

end VpnHide.Diag

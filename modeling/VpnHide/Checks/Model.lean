import Mathlib.Data.Int.Notation
import Mathlib.Data.Nat.Notation
import VpnHide.Protocol.Lexical

/-!
# What a probe observes

The contracts of `diagnostic-model/src/lib.rs` that all diagnostic evidence shares: an
observation is a value or the error of the probe, it is made by one of two independent
readers, and what a check lacks is one of a few failures of its controls.
-/

namespace VpnHide.Checks

/-- Why a probe has no value. -/
inductive ProbeError
  | errno (code : ℤ)
  | timeout
  | malformed
  | tooLarge
  | unsupported
  deriving DecidableEq

/-- What was read, or why it could not be. -/
inductive Sample (α : Type*)
  | value (a : α)
  | error (e : ProbeError)
  deriving DecidableEq

/-- `Sample::value`. -/
def Sample.get? {α : Type*} : Sample α → Option α
  | .value a => some a
  | .error _ => none

/-- The library call, and the system call behind it. -/
inductive NativeReadActor
  | libc
  | syscall
  deriving DecidableEq

/-- Both kinds of calls, in the order of the source. -/
def NativeReadActor.all : List NativeReadActor := [libc, syscall]

/-- Why the controls of a fixture do not hold. -/
inductive ControlFailure
  | invalidSpec
  | missingNegativeControl
  | missingPositiveControl
  | fixtureChanged
  | ordinaryObjectsChanged
  | probeUnavailable
  | cleanupUnconfirmed
  deriving DecidableEq

end VpnHide.Checks

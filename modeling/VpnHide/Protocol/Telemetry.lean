import VpnHide.Lib.Str
import VpnHide.Protocol.Lexical

/-!
# Telemetry

What a backend reports: its `status`, and its `stats`, the counters of its hooks by uid.
The crate `protocol` writes both (`crates/protocol/src/lib.rs`), and reads them in four
ways: one reader cuts a block out of a concatenation (`extractBlock`), one reads the fields
of a status (`parseStatusFields`), and the counters are read strictly, to qualify a
capture (`parseStats`), or tolerantly, to be shown (`displayStats` of
`crates/protocol/src/telemetry.rs`).
-/

namespace VpnHide.Protocol

open Lib

/-- The installed backend: its id, the version of the kernel, its hooks and its worst error. -/
structure Status where
  backend : UInt32
  kver : UInt32
  hooks : UInt32
  error : UInt32
  deriving DecidableEq

/-- A counter, of a hook for a uid. -/
structure StatEntry where
  uid : UInt32
  hookId : UInt32
  count : UInt64
  deriving DecidableEq

/-- The longest reply that is read. -/
def maxTelemetryBytes : ℕ := 1024 * 1024

/-- No more counters are read than these. -/
def maxStatsCells : ℕ := 16384

/-! ## Writing -/

/-- `0x{:x}`. -/
def hexText (n : ℕ) : Str := '0' :: 'x' :: Nat.toDigits 16 n

/-- The header of a telemetry block. -/
def telemetryHeader (kind : Str) : Str :=
  "vpnhide ".toList ++ Nat.toDigits 10 telemetryVersion ++ ' ' :: kind

/-- `format_status`: the block of a status. -/
def formatStatus (s : Status) : Str :=
  telemetryHeader "status".toList ++ "\nbackend ".toList ++ hexText s.backend.toNat ++
    "\nkver ".toList ++ hexText s.kver.toNat ++ "\nhooks ".toList ++ hexText s.hooks.toNat ++
    "\nerror ".toList ++ hexText s.error.toNat ++ ['\n']

/-- A counter in its row. -/
def statCell (e : StatEntry) : Str := hexText e.hookId.toNat ++ ':' :: hexText e.count.toNat

/-- The entries after the first that share its row, and the rest. -/
def sameUid (uid : UInt32) (entries : List StatEntry) : List StatEntry × List StatEntry :=
  (entries.takeWhile (·.uid == uid), entries.dropWhile (·.uid == uid))

theorem length_sameUid_le (uid : UInt32) (entries : List StatEntry) :
    (sameUid uid entries).2.length ≤ entries.length := List.length_dropWhile_le _ _

/-- The rows of some counters: consecutive ones of the same uid share a row. -/
def statRows : List StatEntry → Str
  | [] => []
  | e :: entries =>
    hexText e.uid.toNat ++
      (e :: (sameUid e.uid entries).1).flatMap (fun e => ' ' :: statCell e) ++
      '\n' :: statRows (sameUid e.uid entries).2
termination_by entries => entries.length
decreasing_by exact Nat.lt_succ_of_le (length_sameUid_le _ _)

/-- `format_stats`: the block of the counters. -/
def formatStats (entries : List StatEntry) : Str :=
  telemetryHeader "stats".toList ++ '\n' :: statRows entries

/-! ## Reading a status -/

/-- The fields of a status, each of which may be missing. -/
structure StatusFields where
  backend : Option UInt32
  kver : Option UInt32
  hooks : Option UInt32
  error : Option UInt32
  deriving DecidableEq

/-- A prefixed hexadecimal number, within `bits` bits. -/
def parseHexPrefixed (tok : Bytes) (bits : ℕ) : Option ℕ :=
  match tok with
  | c :: x :: digits =>
    if c = '0'.toUInt8 ∧ (x = 'x'.toUInt8 ∨ x = 'X'.toUInt8) then parseHexBare digits bits else none
  | _ => none

namespace StatusFields

/-- No field has been read. -/
def empty : StatusFields := ⟨none, none, none, none⟩

/-- A record of a status. -/
def set (f : StatusFields) (key : Bytes) (value : UInt32) : StatusFields :=
  if key = ascii "backend" then { f with backend := some value }
  else if key = ascii "kver" then { f with kver := some value }
  else if key = ascii "hooks" then { f with hooks := some value }
  else if key = ascii "error" then { f with error := some value }
  else f

/-- The status, if all fields are there. -/
def complete (f : StatusFields) : Option Status := do
  let backend ← f.backend
  let kver ← f.kver
  let hooks ← f.hooks
  let error ← f.error
  return ⟨backend, kver, hooks, error⟩

/-- The significant lines after the header, up to the next block. -/
def read (f : StatusFields) : List Bytes → Option StatusFields
  | [] => some f
  | line :: lines =>
    match tokens line with
    | [] => none
    | key :: words =>
      if key = ascii "vpnhide" then some f
      else match words.head?.bind (parseHexPrefixed · 32) with
        | none => f.read lines
        | some value =>
          if words.tail ≠ [] then f.read lines else (f.set key value.toUInt32).read lines

end StatusFields

/-- The fields of a status block. -/
def parseStatusFields (buf : Bytes) : Option StatusFields := do
  let (kind, rest) ← parseHeader buf
  guard (kind = .status)
  StatusFields.empty.read ((lines rest).filterMap significant)

/-! ## Cutting out a block -/

/-- `str::strip_suffix('\r')`, or else the line. -/
def stripCarriageReturn (line : Str) : Str :=
  if line.getLast? = some '\r' then line.dropLast else line

/-- The kind of the block that a line begins, of any version. -/
def classify (line : Str) : Option Kind := do
  let content ← significant (Str.toUtf8 line)
  let words := tokens content
  guard (words[0]? = some (ascii "vpnhide"))
  let _ ← words[1]? >>= parseDecimal
  words[2]? >>= kindOf

/-- A line that ends the block before it. -/
def isBoundary (line : Str) : Bool :=
  (significant (Str.toUtf8 line)).any fun content => (tokens content).head? = some (ascii "vpnhide")

/-- `extract_block`: the first block of a kind in a reply. -/
def extractBlock (raw : Str) (kind : Kind) : Option Str :=
  if maxTelemetryBytes < (Str.toUtf8 raw).length then none
  else do
    let lines := (raw.splitOn '\n').map stripCarriageReturn
    let start ← lines.findIdx? fun line => classify line = some kind
    let stop := ((lines.drop (start + 1)).findIdx? isBoundary).elim lines.length (start + 1 + ·)
    return ['\n'].intercalate ((lines.take stop).drop start)

/-! ## Reading counters -/

/-- A counter as it is shown, unless it is malformed. -/
def displayCell (uid : UInt32) (word : Bytes) : Option StatEntry :=
  match word.splitOn ':'.toUInt8 with
  | [hook, count] => do
    let hookId ← parseHexPrefixed hook 32
    let count ← parseHexPrefixed count 64
    return ⟨uid, hookId.toUInt32, count.toUInt64⟩
  | _ => none

/-- The counters of a row. -/
def displayRow (line : Bytes) : List StatEntry :=
  match tokens line with
  | [] => []
  | w :: words => match parseHexPrefixed w 32 with
    | none => []
    | some uid => words.filterMap (displayCell uid.toUInt32)

/-- The tolerant reader: what is malformed is skipped. -/
def displayStats (bytes : Bytes) : Option (List StatEntry) :=
  if maxTelemetryBytes < bytes.length then none
  else do
    let (kind, rest) ← parseHeader bytes
    guard (kind = .stats)
    return ((lines rest).filterMap significant).flatMap displayRow

/-- The strict reader after some lines. -/
structure StatsState where
  found : Bool
  rows : List StatEntry
  seen : List (UInt32 × UInt32)

namespace StatsState

/-- `u64::from_str_radix` of what follows the prefix. -/
def hexU64 (s : Str) : Option ℕ := do
  let digits ← Str.stripPrefix ['0', 'x'] s
  Str.fromStrRadix 16 0xffffffffffffffff digits

/-- A hexadecimal number that fits 32 bits. -/
def hexU32 (s : Str) : Option UInt32 :=
  (hexU64 s).bind fun n => if n ≤ 0xffffffff then some n.toUInt32 else none

/-- Reading a counter of a row. -/
def word (uid : UInt32) (s : StatsState) (word : Str) : Option StatsState := do
  let (hook, count) ← Str.splitOnce ':' word
  let hookId ← hexU32 hook
  let count ← hexU64 count
  if count = 0 ∨ (uid, hookId) ∈ s.seen ∨ maxStatsCells ≤ s.rows.length then none
  else some { s with
    rows := s.rows ++ [⟨uid, hookId, count.toUInt64⟩], seen := (uid, hookId) :: s.seen }

/-- Reading a line. Rows need a counter at least. -/
def line (s : StatsState) (line : Str) : Option StatsState :=
  if line = telemetryHeader "stats".toList then
    if s.found then none else some { s with found := true }
  else if !s.found then some s
  else match Str.splitAsciiWhitespace line with
    | [] => none
    | w :: words => do
      let uid ← hexU32 w
      let s ← words.foldlM (word uid) s
      if words = [] then none else some s

end StatsState

/-- The strict reader: what is malformed, cut off or repeated is rejected. -/
def parseStats (bytes : Bytes) : Option (List StatEntry) :=
  if maxTelemetryBytes < bytes.length ∨ bytes.getLast? ≠ some '\n'.toUInt8 then none
  else do
    let text ← Str.fromUtf8 bytes
    let s ← (Str.lines text).foldlM StatsState.line ⟨false, [], []⟩
    if s.found then some s.rows else none

end VpnHide.Protocol

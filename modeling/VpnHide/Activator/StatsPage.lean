import VpnHide.Lib.Str
import VpnHide.Protocol.Lexical

/-!
# Reading stats pages in userspace

The activator (`crates/activator/src/kpm.rs`) asks the KPM for its counters page by
page, checks each page strictly, and collects the rows. The reader it asks is a
parameter: it takes the text of a request, and returns that of a reply.
-/

namespace VpnHide.Activator

open Lib Protocol

/-! ## Pages -/

/-- The cursor to ask for next. -/
inductive StatsPageNext
  | cursor (c : UInt32)
  | done
  deriving DecidableEq

/-- A page that was accepted. -/
structure StatsPage where
  rows : List Str
  next : StatsPageNext
  deriving DecidableEq

/-- A token of hexadecimal digits after `0x`, if its value fits 64 bits. -/
def parsePrefixedHexU64 (token : Str) : Option ℕ :=
  ((Str.stripPrefix ['0', 'x'] token).or (Str.stripPrefix ['0', 'X'] token)).bind fun digits =>
    if digits = [] then none else Str.fromStrRadix 16 0xffffffffffffffff digits

/-- Such a token whose value fits 32 bits. -/
def parsePrefixedHexU32 (token : Str) : Option UInt32 :=
  (parsePrefixedHexU64 token).bind fun value => if value ≤ 0xffffffff then
    some value.toUInt32 else none

/-- Checking a counter of a row, `<hook>:<count>`. -/
def checkField (field : Str) : Except String Unit :=
  match Str.splitOnce ':' field with
  | none => .error "invalid hook counter in KPM stats page"
  | some (hook, count) => do
    let _ ← okOr "invalid hook id in KPM stats page" (parsePrefixedHexU32 hook)
    let count ← okOr "invalid count in KPM stats page" (parsePrefixedHexU64 count)
    if count = 0 then .error "zero count in sparse KPM stats page" else .ok ()

/-- Checking a row: the rows so far and the last uid. -/
def checkRow (s : List Str × UInt32) (line : Str) : Except String (List Str × UInt32) :=
  if line = [] ∨ line.head? = some '#' then .ok s
  else do
    let fields := Str.splitWhitespace line
    let uid ← okOr "invalid UID in KPM stats page" (fields.head?.bind parsePrefixedHexU32)
    if uid ≤ s.2 ∨ fields.length < 2 then
      .error "KPM stats page UIDs are not strictly increasing"
    else do
      forM (fields.drop 1) checkField
      .ok (s.1 ++ [line], uid)

/-- The cursor after a page whose last uid is `previousUid`. -/
def parseNext (reply : Str) (requested previousUid : UInt32) (token : Str) :
    Except String StatsPageNext :=
  if token = "done".toList then
    if !Str.endsWith reply '\n' then .error "final KPM stats page is missing its newline"
      else .ok .done
  else do
    let next ← okOr "invalid next stats cursor" (parsePrefixedHexU32 token)
    if next ≤ requested ∨ next < previousUid then .error "KPM stats page cursor did not advance"
    else if Str.endsWith reply '\n' then
      .error "non-final KPM stats page unexpectedly ends with a newline"
    else .ok (.cursor next)

/-- A number in lowercase hexadecimal, in a message. -/
def hexString (n : ℕ) : String := String.ofList (Nat.toDigits 16 n)

/-- Checking a page whose lines are `lines`, and whose trailer is at `position`. -/
def parseTrailer (reply : Str) (requested : UInt32) (lines : List Str) (position : ℕ) :
    Except String (Option StatsPage) :=
  match Str.splitWhitespace lines[position]! with
  | [_, echoed, next, count] => do
    let echoed ← okOr "invalid echoed stats cursor" (parsePrefixedHexU32 echoed)
    if echoed ≠ requested then
      .error ("KPM stats page echoed cursor 0x" ++ hexString echoed.toNat ++ ", expected 0x" ++
        hexString requested.toNat)
    else do
      let declaredRows ← okOr "invalid stats page row count" (parsePrefixedHexU32 count)
      let (rows, previousUid) ← ((lines.take position).drop 1).foldlM checkRow ([], requested)
      if rows.length ≠ declaredRows.toNat then
        .error ("KPM stats page declared " ++ toString declaredRows.toNat ++ " rows but carried " ++
          toString rows.length)
      else do
        let next ← parseNext reply requested previousUid next
        .ok (some ⟨rows, next⟩)
  | _ => .error "malformed KPM stats page trailer"

/-- Checking the page asked for with the cursor `requested`; `none` is a reply without
    trailer, from a backend that does not paginate. -/
def parseKpmStatsPage (reply : Str) (requested : UInt32) : Except String (Option StatsPage) :=
  if peekKind (Str.toUtf8 reply) ≠ some .stats then .error "invalid KPM stats reply header"
  else
    let lines := (Str.lines reply).map Str.trim
    let pagePositions := (lines.zipIdx.filter fun p =>
      (Str.splitWhitespace p.1).head? = some "page".toList).map (·.2)
    match pagePositions with
    | [] => .ok none
    | position :: positions =>
      if positions ≠ [] ∨ position + 1 ≠ lines.length then
        .error "KPM stats reply has a misplaced or repeated page trailer"
      else parseTrailer reply requested lines position

/-! ## The whole read -/

/-- No more pages than these are read. -/
def maxKpmStatsPages : ℕ := 512

/-- The line that the KPM ends a reply with that does not fit. -/
def kpmTruncationMarker : Str := "# vpnhide truncated".toList

/-- `{:?}` of a kind. -/
def debugKind : Kind → String
  | .config => "Config"
  | .stats => "Stats"
  | .status => "Status"

/-- A reply without pages: a missing newline at its end is made explicit. -/
def normalizeKpmReply (wire reply : Str) : Except String Str :=
  if reply = [] then .error "KPM ctl0 returned an empty reply"
  else do
    let expected ← okOr "invalid KPM ctl0 request header" (peekKind (Str.toUtf8 wire))
    let actual ← okOr "invalid KPM ctl0 reply header" (peekKind (Str.toUtf8 reply))
    if actual ≠ expected ∨ ¬(actual = .status ∨ actual = .stats) then
      .error ("unexpected KPM ctl0 reply kind " ++ debugKind actual ++
        " for " ++ debugKind expected)
    else if !Str.endsWith reply '\n' then .ok (reply ++ '\n' :: kpmTruncationMarker ++ ['\n'])
    else .ok reply

/-- The header of requests and of the collected rows, without its newline. -/
def statsHeaderText : Str :=
  "vpnhide ".toList ++ Nat.toDigits 10 telemetryVersion ++ " stats".toList

/-- The request for a page. -/
def statsRequest (pageIndex : ℕ) (cursor : UInt32) (aggregate : Str) : Str :=
  if pageIndex = 0 then Str.trimEnd aggregate
  else statsHeaderText ++ "\nafter 0x".toList ++ Nat.toDigits 16 cursor.toNat ++ ['\n']

/-- The loop over the pages, of which some are left to ask for. -/
def collectFrom (read : Str → Except String Str) : ℕ → ℕ → UInt32 → Str → Except String Str
  | 0, _, _, _ => .error ("KPM stats exceeded " ++ toString maxKpmStatsPages ++ " pages")
  | left + 1, pageIndex, cursor, aggregate => do
    let request := statsRequest pageIndex cursor aggregate
    let reply ← read request
    match ← parseKpmStatsPage reply cursor with
    | none =>
      if pageIndex ≠ 0 then .error "KPM stopped paginating stats mid-read"
      else normalizeKpmReply request reply
    | some page =>
      let aggregate := aggregate ++ page.rows.flatMap (· ++ ['\n'])
      match page.next with
      | .done => .ok aggregate
      | .cursor next => collectFrom read left (pageIndex + 1) next aggregate

/-- Asking for the pages one after another, and collecting their rows. -/
def collectKpmStatsPages (read : Str → Except String Str) : Except String Str :=
  collectFrom read maxKpmStatsPages 0 0 (statsHeaderText ++ ['\n'])

end VpnHide.Activator

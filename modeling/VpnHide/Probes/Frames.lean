import VpnHide.Lib.Str

/-!
# Probe frames

What a probe of the daemon finds out is written as named sections, one after another
(`Out::section` in `core-daemon/src/device_probes/mod.rs`), and read back by the app
(`parse` in `core-rpc/src/probe_frames.rs`). There are frames of two kinds: those of
the root snapshot, which are read only if they are complete, and those of the debug
snapshot, of which the last may be cut off.

A section is some lines (`frameLines`), and the reader goes over the lines of one
section as over a bracket: it opens the section, collects the body, and closes it
(`run_frameLines`). Hence the round trip. A text that is cut off has the lines of some
sections, and then some of the lines of the next one, the last of them perhaps in part
(`exists_lines_of_cut`), and only the whole end line closes a section
(`run_cut`).
-/

namespace VpnHide.Probes

open Lib

/-! ## Bounds and markers -/

/-- The longest output that is looked at. -/
def maxOutputBytes : ℕ := 32 * 1024 * 1024

/-- No more sections are read than these. -/
def maxSections : ℕ := 4096

/-- The longest name of a section. -/
def maxNameBytes : ℕ := 128

/-- The word before a section of the root shell. -/
def rootBegin : Str := "__VPNHIDE_ROOT_SECTION_BEGIN__:".toList

/-- The word after a section of the root shell. -/
def rootEnd : Str := "__VPNHIDE_ROOT_SECTION_END__:".toList

/-- The word of a timing. -/
def rootTiming : Str := "__VPNHIDE_ROOT_TIMING__:".toList

/-- The word before a section of the debug log. -/
def debugBegin : Str := "__VPNHIDE_DEBUG_SECTION_BEGIN__:".toList

/-- The word after a section of the debug log. -/
def debugEnd : Str := "__VPNHIDE_DEBUG_SECTION_END__:".toList

/-- The kinds of outputs. -/
inductive FrameKind
  | root
  | debug
  deriving DecidableEq

/-- The word before a section. -/
def FrameKind.begin : FrameKind → Str
  | .root => rootBegin
  | .debug => debugBegin

/-- The word after a section. -/
def FrameKind.«end» : FrameKind → Str
  | .root => rootEnd
  | .debug => debugEnd

/-- `str::len`, in bytes. -/
def byteLen (s : Str) : ℕ := (Str.toUtf8 s).length

/-! ## The writer -/

/-- Appending a text, and the newline that it lacks. -/
def pushLines (buf text : Str) : Str :=
  if text = [] then buf
  else if Str.endsWith text '\n' then buf ++ text
  else buf ++ text ++ ['\n']

/-- The output of a probe, with the time at which it has to be done. -/
structure Out where
  buf : Str
  begin : Str
  «end» : Str
  deadline : ℕ
  truncated : Bool

namespace Out

/-- The output before anything is written. -/
def new (begin «end» : Str) (deadline : ℕ) : Out := ⟨[], begin, «end», deadline, false⟩

/-- The output at a time; after the deadline it is cut off. -/
def expired (o : Out) (now : ℕ) : Out :=
  if o.deadline ≤ now then { o with truncated := true } else o

/-- A named section, written at the time `now` unless it is too late. -/
def «section» (o : Out) (now : ℕ) (name body : Str) : Out :=
  let o := o.expired now
  if o.truncated then o
  else
    let buf := o.buf ++ o.begin ++ name ++ ['\n']
    let buf := pushLines buf body
    { o with buf := buf ++ o.end ++ name ++ ['\n'] }

end Out

/-! ## The reader -/

/-- Why an output is not read to its end. -/
inductive FrameError
  | inputTooLarge
  | tooManySections
  | tooManyTimings
  | nameTooLong
  deriving DecidableEq

/-- A section. -/
structure Section where
  name : Str
  body : Str
  deriving DecidableEq

/-- How long a section has taken. -/
structure Timing where
  name : Str
  durationMs : ℤ
  deriving DecidableEq

/-- What was read of an output. -/
structure ParsedSections where
  complete : List Section
  incomplete : Option Section
  timings : List Timing
  error : Option FrameError
  deriving DecidableEq

/-- The white space of `Char.isWhitespace` in Kotlin. -/
def legacySpace (c : Char) : Bool :=
  ('\t' ≤ c && c ≤ '\r') || ('\x1c' ≤ c && c ≤ ' ') || c == '\u00a0' || c == '\u1680' ||
    ('\u2000' ≤ c && c ≤ '\u200a') || c == '\u2028' || c == '\u2029' || c == '\u202f' ||
    c == '\u205f' || c == '\u3000'

/-- `trimEnd` of Kotlin. -/
def trimEndLegacy (s : Str) : Str := s.rdropWhile legacySpace

/-- `trim` of Kotlin. -/
def trimLegacy (s : Str) : Str := trimEndLegacy (s.dropWhile legacySpace)

/-- `str::parse::<i64>`. -/
def parseI64 : Str → Option ℤ
  | '-' :: ds =>
    if ds.head? = some '+' then none else (Str.fromStrRadix 10 (2 ^ 63) ds).map fun n => -(n : ℤ)
  | ds => (Str.fromStrRadix 10 (2 ^ 63 - 1) ds).map (↑)

/-- Where a text first occurs in another. -/
def find (pat : Str) : Str → Option ℕ
  | [] => if pat = [] then some 0 else none
  | c :: s => if pat <+: c :: s then some 0 else (find pat s).map (· + 1)

/-- The lines of Kotlin's `lineSequence`: they end at LF, CRLF or CR. -/
def lineSequence (raw : Str) : List Str :=
  (raw.splitOn '\n').flatMap (fun s =>
    (if Str.endsWith s '\r' then s.dropLast else s).splitOn '\r') ++
  (if Str.endsWith raw '\r' then [[]] else [])

/-- The locals of the reader. -/
structure State where
  out : ParsedSections
  current : Option Str
  body : Str
  indexes : List (Str × ℕ)

namespace State

variable (s : State)

/-- Nothing has been read. -/
def init : State := ⟨⟨[], none, [], none⟩, none, [], []⟩

/-- The reading ends with an error. -/
def fail (e : FrameError) : State := { s with out := { s.out with error := some e } }

/-- A piece of the body, and a newline before it unless it is the first. -/
def push (text : Str) : State :=
  { s with body := (if s.body = [] then [] else s.body ++ ['\n']) ++ text }

/-- A timing; it may `break` off. -/
def timing (metric : Str) : Except State State :=
  match Str.splitOnce '=' metric with
  | none => .ok s
  | some (name, value) =>
    let name := trimLegacy name
    if name = [] then .ok s
    else
      match parseI64 (trimLegacy value) with
      | none => .ok s
      | some value =>
        if maxNameBytes < byteLen name then .error (s.fail .nameTooLong)
        else if maxSections ≤ s.out.timings.length then .error (s.fail .tooManyTimings)
        else .ok { s with out := { s.out with timings := s.out.timings ++ [⟨name, value⟩] } }

/-- The start of a section. -/
def start (name : Str) : Except State State :=
  if maxNameBytes < byteLen name then .error (s.fail .nameTooLong)
  else .ok { s with current := some name, body := [] }

/-- The body of a section that is closed. -/
def finish (kind : FrameKind) (body : Str) : Str :=
  match kind with
  | .root => body
  | .debug => trimEndLegacy body

/-- The end of the section `name`. -/
def close (kind : FrameKind) (name : Str) : Except State State :=
  if s.current = some name then
    match s.indexes.lookup name with
    | some index =>
      let complete := s.out.complete.modify index fun sec =>
        { sec with body := finish kind s.body }
      .ok { s with out := { s.out with complete }, current := none, body := [] }
    | none =>
      if maxSections ≤ s.out.complete.length then .error (s.fail .tooManySections)
      else
        let complete := s.out.complete ++ [⟨name, finish kind s.body⟩]
        .ok ⟨{ s.out with complete }, none, [], (name, s.out.complete.length) :: s.indexes⟩
  else if kind = .root then .ok { s with current := none, body := [] }
  else .ok s

/-- One line of a frame, which is not a timing. -/
def frame (kind : FrameKind) (line : Str) : Except State State :=
  match Str.stripPrefix kind.begin line with
  | some name => s.start name
  | none =>
    match find kind.end line with
    | some offset =>
      -- What precedes the marker on its line is still of the body.
      let s := if 0 < offset ∧ s.current.isSome then s.push (line.take offset) else s
      s.close kind (line.drop (offset + kind.end.length))
    | none => if s.current.isSome then .ok (s.push line) else .ok s

/-- A line of the output. -/
def line (kind : FrameKind) (line : Str) : Except State State :=
  if kind = .root then
    match Str.stripPrefix rootTiming line with
    | some metric => s.timing metric
    | none => s.frame kind line
  else s.frame kind line

/-- The loop over the lines. -/
def run (kind : FrameKind) : List Str → State → State
  | [], s => s
  | l :: ls, s =>
    match s.line kind l with
    | .ok s => run kind ls s
    | .error s => s

end State

/-- Reading some sections. -/
def parse (kind : FrameKind) (raw : Str) : ParsedSections :=
  if maxOutputBytes < byteLen raw then ⟨[], none, [], some .inputTooLarge⟩
  else
    let s := State.run kind (lineSequence raw) .init
    if kind = .debug then
      { s.out with incomplete := s.current.map fun name => ⟨name, trimEndLegacy s.body⟩ }
    else s.out

/-! ## Lines -/

/-- A text as it is to be read back: without the newline at its end. -/
def content (body : Str) : Str := if Str.endsWith body '\n' then body.dropLast else body

/-- The lines that a body is written on. -/
def bodyLines (body : Str) : List Str := if body = [] then [] else (content body).splitOn '\n'

/-- The lines of a section. -/
def frameLines (kind : FrameKind) (name body : Str) : List Str :=
  (kind.begin ++ name) :: (bodyLines body ++ [kind.end ++ name])

/-- A text is one line, or a line and what comes after it. -/
theorem lines_induction {P : Str → Prop} (last : ∀ l, '\n' ∉ l → P l)
    (cons : ∀ l t, '\n' ∉ l → P t → P (l ++ '\n' :: t)) (s : Str) : P s := by
  induction hn : s.length using Nat.strong_induction_on generalizing s with
  | _ n ih =>
    by_cases hs : '\n' ∈ s
    · obtain ⟨l, t, rfl, hl⟩ := List.eq_append_cons_of_mem hs
      refine cons l t hl (ih _ ?_ t rfl)
      rw [← hn, List.length_append, List.length_cons]
      omega
    · exact last s hs

theorem notMem_of_mem_splitOn (s : Str) : ∀ l ∈ s.splitOn '\n', '\n' ∉ l := by
  induction s using lines_induction with
  | last l hl =>
    rw [List.splitOn_eq_singleton hl]
    simpa using hl
  | cons l t hl ih =>
    rw [List.splitOn_append_cons_self_of_not_mem hl]
    simpa using ⟨hl, ih⟩

theorem unlines_splitOn (s : Str) : Str.unlines (s.splitOn '\n') = s ++ ['\n'] := by
  induction s using lines_induction with
  | last l hl =>
    rw [List.splitOn_eq_singleton hl]
    simp [Str.unlines]
  | cons l t hl ih =>
    rw [List.splitOn_append_cons_self_of_not_mem hl, Str.unlines_cons, ih]
    simp

theorem splitOn_unlines_append {ls : List Str} (h : ∀ l ∈ ls, '\n' ∉ l) (t : Str) :
    (Str.unlines ls ++ t).splitOn '\n' = ls ++ t.splitOn '\n' := by
  induction ls with
  | nil => rfl
  | cons l ls ih =>
    rw [Str.unlines_cons, List.append_assoc, List.cons_append,
      List.splitOn_append_cons_self_of_not_mem (h l List.mem_cons_self),
      ih fun m hm => h m (List.mem_cons_of_mem _ hm), List.cons_append]

/-- A text that is cut off: some whole lines, and some of the next one. -/
theorem exists_lines_of_cut {ls : List Str} {p : Str} (hp : p <+: Str.unlines ls)
    (hne : p ≠ Str.unlines ls) :
    ∃ before l after q, ls = before ++ l :: after ∧ q <+: l ∧ p = Str.unlines before ++ q := by
  induction ls generalizing p with
  | nil => exact absurd (List.prefix_nil.1 hp) hne
  | cons l ls ih =>
    rw [Str.unlines_cons] at hp hne
    rcases List.prefix_or_prefix_of_prefix hp (List.prefix_append l _) with hpl | ⟨t, rfl⟩
    · exact ⟨[], l, ls, p, rfl, hpl, rfl⟩
    · -- The line is there, with its newline or without.
      rw [List.prefix_append_right_inj] at hp
      cases t with
      | nil => exact ⟨[], l, ls, l, rfl, List.prefix_rfl, by simp [Str.unlines]⟩
      | cons c t =>
        obtain ⟨rfl, ht⟩ := List.cons_prefix_cons.1 hp
        obtain ⟨before, m, after, q, rfl, hq, rfl⟩ := ih ht fun h => hne (by rw [h])
        exact ⟨l :: before, m, after, q, rfl, hq, by rw [Str.unlines_cons]; simp⟩

theorem pushLines_eq (buf body : Str) :
    pushLines buf body = buf ++ Str.unlines (bodyLines body) := by
  rw [pushLines, bodyLines]
  split_ifs with hbody hend
  · simp [Str.unlines]
  · rw [unlines_splitOn, content, if_pos hend]
    rw [Str.endsWith, beq_iff_eq] at hend
    rw [List.dropLast_append_getLast? '\n' hend]
  · rw [unlines_splitOn, content, if_neg hend, List.append_assoc]

/-- A section is written line by line. -/
theorem section_buf {o : Out} {now : ℕ} (h : now < o.deadline) (ht : o.truncated = false)
    {kind : FrameKind} (hb : o.begin = kind.begin) (he : o.end = kind.end) (name body : Str) :
    o.section now name body =
      { o with buf := o.buf ++ Str.unlines (frameLines kind name body) } := by
  rw [Out.section, Out.expired, if_neg (not_le.2 h)]
  simp only [ht, Bool.false_eq_true, if_false]
  rw [pushLines_eq, frameLines, Str.unlines_cons, Str.unlines_append, hb, he]
  simp [Str.unlines]

/-! ## Markers -/

theorem find_eq_none {pat s : Str} (h : ¬pat <:+: s) : find pat s = none := by
  induction s with
  | nil =>
    rw [find, if_neg]
    rintro rfl
    exact h (List.infix_refl _)
  | cons c s ih =>
    rw [find, if_neg fun hp => h hp.isInfix,
      ih fun hi => h (hi.trans (List.suffix_cons c s).isInfix), Option.map_none]

theorem find_append (pat s : Str) : find pat (pat ++ s) = some 0 := by
  have hp : pat <+: pat ++ s := List.prefix_append pat s
  cases hs : pat ++ s with
  | nil =>
    rw [hs] at hp
    rw [find, if_pos (List.prefix_nil.1 hp)]
  | cons c t =>
    rw [hs] at hp
    rw [find, if_pos hp]

theorem stripPrefix_eq_none {pat s : Str} (h : ¬pat <+: s) :
    Str.stripPrefix pat s = none := if_neg h

/-- Two texts of which neither is the start of the other. -/
theorem not_prefix_append {p q : Str} (h : ¬p <+: q ∧ ¬q <+: p) (s : Str) : ¬p <+: q ++ s := by
  intro hp
  exact (List.prefix_or_prefix_of_prefix hp (List.prefix_append q s)).elim h.1 h.2

namespace State

variable {kind : FrameKind} {s : State} {name : Str}

/-- A line that starts with a marker is not a timing. -/
theorem line_eq_frame {l : Str} (h : ¬rootTiming <+: l) : s.line kind l = s.frame kind l := by
  rw [line, stripPrefix_eq_none h]
  split_ifs <;> rfl

/-- Opening a section. -/
theorem line_begin (hname : byteLen name ≤ maxNameBytes) :
    s.line kind (kind.begin ++ name) = .ok { s with current := some name, body := [] } := by
  have htiming : ¬rootTiming <+: kind.begin ∧ ¬kind.begin <+: rootTiming := by
    cases kind <;> decide +kernel
  rw [line_eq_frame (not_prefix_append htiming name), frame, Str.stripPrefix_append]
  dsimp only
  rw [start, if_neg (not_lt.2 hname)]

/-- A line of the body. -/
theorem line_body {l : Str} (hb : ¬kind.begin <+: l) (ht : ¬rootTiming <+: l)
    (he : ¬kind.end <:+: l) (hs : s.current = some name) : s.line kind l = .ok (s.push l) := by
  rw [line_eq_frame ht, frame, stripPrefix_eq_none hb, find_eq_none he]
  simp [hs]

/-- The end line of a section is read as such, whether the section is open or not. -/
theorem line_end : s.line kind (kind.end ++ name) = s.close kind name := by
  have htiming : ¬rootTiming <+: kind.end ∧ ¬kind.end <+: rootTiming := by
    cases kind <;> decide +kernel
  have hbegin : ¬kind.begin <+: kind.end ∧ ¬kind.end <+: kind.begin := by
    cases kind <;> decide +kernel
  rw [line_eq_frame (not_prefix_append htiming name), frame,
    stripPrefix_eq_none (not_prefix_append hbegin name), find_append]
  simp

/-- Between two sections, of which some have been read. -/
structure Closed (s : State) (done : List Section) : Prop where
  out : s.out = ⟨done, none, [], none⟩
  current : s.current = none
  indexes : ∀ name, name ∉ done.map (·.name) → s.indexes.lookup name = none

theorem closed_init : init.Closed [] := ⟨rfl, rfl, fun _ _ => rfl⟩

/-- Pieces of a body, put together. -/
def collect (body : Str) (ls : List Str) : Str :=
  ls.foldl (fun body l => (if body = [] then [] else body ++ ['\n']) ++ l) body

theorem run_body {ls : List Str}
    (hls : ∀ l ∈ ls, ¬kind.begin <+: l ∧ ¬rootTiming <+: l ∧ ¬kind.end <:+: l)
    (hs : s.current = some name) (rest : List Str) :
    run kind (ls ++ rest) s = run kind rest { s with body := collect s.body ls } := by
  induction ls generalizing s with
  | nil => rfl
  | cons l ls ih =>
    obtain ⟨hb, ht, he⟩ := hls l List.mem_cons_self
    rw [List.cons_append, run, line_body hb ht he hs]
    exact ih (s := s.push l) (fun m hm => hls m (List.mem_cons_of_mem _ hm)) hs

/-- The lines of a section: it is opened, collected and closed. -/
theorem Closed.run_frameLines {done : List Section} {body : Str} (h : s.Closed done)
    (hname : name ∉ done.map (·.name)) (hshort : byteLen name ≤ maxNameBytes)
    (hcount : done.length < maxSections)
    (hbody : ∀ l ∈ bodyLines body, ¬kind.begin <+: l ∧ ¬rootTiming <+: l ∧ ¬kind.end <:+: l) :
    ∃ s' : State, s'.Closed (done ++ [⟨name, finish kind (collect [] (bodyLines body))⟩]) ∧
      ∀ rest, run kind (frameLines kind name body ++ rest) s = run kind rest s' := by
  let body' := finish kind (collect [] (bodyLines body))
  let s' : State :=
    ⟨⟨done ++ [⟨name, body'⟩], none, [], none⟩, none, [], (name, done.length) :: s.indexes⟩
  have hclose : ({ s with current := some name, body := collect [] (bodyLines body) } : State).close
      kind name = .ok s' := by
    rw [close, if_pos rfl]
    dsimp only
    rw [h.indexes name hname, h.out]
    dsimp only
    rw [if_neg (not_le.2 hcount)]
  refine ⟨s', ⟨rfl, rfl, fun name' hname' => ?_⟩, fun rest => ?_⟩
  · rw [List.map_append, List.mem_append, not_or] at hname'
    have hne : (name' == name) = false := by simpa using hname'.2
    rw [List.lookup_cons, hne]
    exact h.indexes name' hname'.1
  · rw [frameLines, List.cons_append, run, line_begin hshort]
    dsimp only
    rw [List.append_assoc, run_body hbody rfl, List.singleton_append, run, line_end, hclose]

end State

/-! ## Bodies -/

theorem collect_of_ne_nil {body : Str} (h : body ≠ []) (ls : List Str) :
    State.collect body ls = body ++ ls.flatMap ('\n' :: ·) := by
  induction ls generalizing body with
  | nil => simp [State.collect]
  | cons l ls ih =>
    have hcons : State.collect body (l :: ls) = State.collect (body ++ ['\n'] ++ l) ls := by
      simp [State.collect, h]
    rw [hcons, ih (by simp), List.flatMap_cons]
    simp

theorem flatMap_splitOn (s : Str) : (s.splitOn '\n').flatMap ('\n' :: ·) = '\n' :: s := by
  induction s using lines_induction with
  | last l hl =>
    rw [List.splitOn_eq_singleton hl]
    simp
  | cons l t hl ih =>
    rw [List.splitOn_append_cons_self_of_not_mem hl, List.flatMap_cons, ih]
    simp

/-- The reader loses the newlines before a body. -/
theorem collect_splitOn (s : Str) :
    State.collect [] (s.splitOn '\n') = s.dropWhile (· == '\n') := by
  induction s using lines_induction with
  | last l hl =>
    rw [List.splitOn_eq_singleton hl]
    cases l with
    | nil => rfl
    | cons c l =>
      have hc : (c == '\n') = false := by
        rw [beq_eq_false_iff_ne]
        rintro rfl
        exact hl List.mem_cons_self
      simp [State.collect, hc]
  | cons l t hl ih =>
    rw [List.splitOn_append_cons_self_of_not_mem hl]
    change State.collect l (t.splitOn '\n') = _
    cases l with
    | nil => simpa using ih
    | cons c l =>
      have hc : (c == '\n') = false := by
        rw [beq_eq_false_iff_ne]
        rintro rfl
        exact hl List.mem_cons_self
      rw [collect_of_ne_nil (List.cons_ne_nil c l), flatMap_splitOn]
      simp [hc]

theorem collect_bodyLines (body : Str) :
    State.collect [] (bodyLines body) = (content body).dropWhile (· == '\n') := by
  rw [bodyLines]
  split_ifs with h
  · subst h
    rfl
  · exact collect_splitOn _

/-- What is to be read back of a body: all but its last newline, or but the white space
    at its end. -/
def kept : FrameKind → Str → Str
  | .root, body => content body
  | .debug, body => trimEndLegacy body

/-- The last newline is white space. -/
theorem finish_content (kind : FrameKind) (body : Str) :
    State.finish kind (content body) = kept kind body := by
  cases kind with
  | root => rfl
  | debug =>
    change trimEndLegacy (content body) = trimEndLegacy body
    rw [content]
    split_ifs with hend
    · rw [Str.endsWith, beq_iff_eq] at hend
      conv_rhs => rw [← List.dropLast_append_getLast? '\n' hend]
      exact (List.rdropWhile_concat_pos _ _ _ (by decide)).symm
    · rfl

/-- A body is read back if it does not start with a newline. -/
theorem finish_collect {kind : FrameKind} {body : Str} (h : (kept kind body).head? ≠ some '\n') :
    State.finish kind (State.collect [] (bodyLines body)) = kept kind body := by
  rw [collect_bodyLines, ← finish_content]
  rw [← finish_content] at h
  generalize content body = s at h ⊢
  cases s with
  | nil => rfl
  | cons c s =>
    by_cases hc : c = '\n'
    · subst hc
      cases kind with
      | root => exact absurd rfl h
      | debug =>
        -- All of the body is white space, or else its first newline is kept.
        have hnil : trimEndLegacy ('\n' :: s) = [] := by
          have hp : trimEndLegacy ('\n' :: s) <+: '\n' :: s := List.rdropWhile_prefix _ _
          rcases List.prefix_cons_iff.1 hp with hnil | ⟨t, ht, -⟩
          · exact hnil
          · rw [State.finish, ht] at h
            exact absurd rfl h
        have hall := List.rdropWhile_eq_nil_iff.1 hnil
        rw [State.finish, State.finish, hnil]
        exact List.rdropWhile_eq_nil_iff.2 fun d hd =>
          hall d ((List.dropWhile_suffix _).subset hd)
    · rw [List.dropWhile_cons_of_neg (by simpa using hc)]

/-! ## Sections -/

/-- A section that is read back, of names and bodies. -/
def sectionOf (kind : FrameKind) (p : Str × Str) : Section := ⟨p.1, kept kind p.2⟩

/-- The text of some sections. -/
def text (kind : FrameKind) (sections : List (Str × Str)) : Str :=
  Str.unlines (sections.flatMap fun p => frameLines kind p.1 p.2)

theorem text_cons (kind : FrameKind) (p : Str × Str) (sections : List (Str × Str)) :
    text kind (p :: sections) = Str.unlines (frameLines kind p.1 p.2) ++ text kind sections := by
  rw [text, List.flatMap_cons, Str.unlines_append, text]

/-- A section that can be read back. -/
structure Legible (kind : FrameKind) (p : Str × Str) : Prop where
  newline : '\n' ∉ p.1
  short : byteLen p.1 ≤ maxNameBytes
  body : ∀ l ∈ bodyLines p.2, ¬kind.begin <+: l ∧ ¬rootTiming <+: l ∧ ¬kind.end <:+: l
  start : (kept kind p.2).head? ≠ some '\n'

variable {kind : FrameKind} {s : State} {p : Str × Str} {done : List Section}
  {sections : List (Str × Str)}

theorem Legible.newline_frameLines (h : Legible kind p) :
    ∀ l ∈ frameLines kind p.1 p.2, '\n' ∉ l := by
  have hbegin : '\n' ∉ kind.begin := by cases kind <;> decide +kernel
  have hend : '\n' ∉ kind.end := by cases kind <;> decide +kernel
  intro l hl
  rw [frameLines, List.mem_cons, List.mem_append, List.mem_singleton] at hl
  rcases hl with rfl | hl | rfl
  · simpa using ⟨hbegin, h.newline⟩
  · rw [bodyLines] at hl
    split_ifs at hl
    · exact absurd hl List.not_mem_nil
    · exact notMem_of_mem_splitOn _ l hl
  · simpa using ⟨hend, h.newline⟩

theorem Legible.run (h : Legible kind p) (hs : s.Closed done) (hname : p.1 ∉ done.map (·.name))
    (hcount : done.length < maxSections) : ∃ s' : State, s'.Closed (done ++ [sectionOf kind p]) ∧
      ∀ rest, State.run kind (frameLines kind p.1 p.2 ++ rest) s = State.run kind rest s' := by
  have := hs.run_frameLines hname h.short hcount h.body
  rwa [finish_collect h.start] at this

/-- Some sections, after those that have been read. -/
theorem run_sections (h : ∀ p ∈ sections, Legible kind p) (hs : s.Closed done)
    (hnames : (done.map (·.name) ++ sections.map Prod.fst).Nodup)
    (hcount : done.length + sections.length ≤ maxSections) :
    ∃ s' : State, s'.Closed (done ++ sections.map (sectionOf kind)) ∧
      State.run kind ((text kind sections).splitOn '\n') s = State.run kind [[]] s' := by
  induction sections generalizing s done with
  | nil => exact ⟨s, by simpa using hs, rfl⟩
  | cons p sections ih =>
    have hp := h p List.mem_cons_self
    rw [List.map_cons, List.nodup_append] at hnames
    rw [List.length_cons] at hcount
    obtain ⟨s₁, hs₁, hrun₁⟩ := hp.run hs
      (fun hmem => hnames.2.2 _ hmem _ List.mem_cons_self rfl) (by omega)
    have hnames₁ : ((done ++ [sectionOf kind p]).map (·.name) ++ sections.map Prod.fst).Nodup := by
      rw [List.map_append, List.append_assoc, List.nodup_append]
      exact hnames
    obtain ⟨s₂, hs₂, hrun₂⟩ := ih (fun q hq => h q (List.mem_cons_of_mem _ hq)) hs₁ hnames₁
      (by rw [List.length_append, List.length_singleton]; omega)
    refine ⟨s₂, by simpa using hs₂, ?_⟩
    rw [text_cons, splitOn_unlines_append hp.newline_frameLines, hrun₁, hrun₂]

/-- The empty line after the last section changes nothing. -/
theorem State.Closed.run_nil (hs : s.Closed done) : State.run kind [[]] s = s := by
  have hb : ¬kind.begin <+: [] := by cases kind <;> decide +kernel
  have he : ¬kind.end <:+: [] := by cases kind <;> decide +kernel
  have hline : s.line kind [] = .ok s := by
    rw [State.line_eq_frame (by decide), State.frame, stripPrefix_eq_none hb, find_eq_none he]
    simp [hs.current]
  rw [State.run, hline]
  rfl

/-! ## A text that is cut off -/

namespace State

/-- The state after a line, whether the loop goes on or not. -/
def after : Except State State → State
  | .ok s => s
  | .error s => s

theorem run_singleton (l : Str) : run kind [l] s = after (s.line kind l) := by
  rw [run]
  cases s.line kind l <;> rfl

theorem complete_timing (metric : Str) :
    (after (s.timing metric)).out.complete = s.out.complete := by
  rw [timing]
  cases Str.splitOnce '=' metric with
  | none => rfl
  | some r =>
    dsimp only
    cases parseI64 (trimLegacy r.2) with
    | none => split_ifs <;> rfl
    | some value => split_ifs <;> rfl

theorem complete_start (name : Str) : (after (s.start name)).out.complete = s.out.complete := by
  rw [start]
  split_ifs <;> rfl

theorem complete_close {name : Str} (h : s.current ≠ some name) :
    (after (s.close kind name)).out.complete = s.out.complete := by
  rw [close, if_neg h]
  split_ifs <;> rfl

/-- Only an end line with the name of the open section completes one. -/
theorem complete_line {q : Str} (h : ∀ offset, find kind.end q = some offset →
      s.current ≠ some (q.drop (offset + kind.end.length))) :
    (after (s.line kind q)).out.complete = s.out.complete := by
  have hframe : (after (s.frame kind q)).out.complete = s.out.complete := by
    rw [frame]
    cases Str.stripPrefix kind.begin q with
    | some name => exact complete_start name
    | none =>
      cases hf : find kind.end q with
      | none =>
        dsimp only
        split_ifs <;> rfl
      | some offset =>
        -- What precedes the marker is pushed or not; the name does not match.
        dsimp only
        split_ifs
        · exact complete_close (s := s.push (q.take offset)) (h offset hf)
        · exact complete_close (h offset hf)
  rw [line]
  split_ifs
  · cases Str.stripPrefix rootTiming q with
    | none => exact hframe
    | some metric => exact complete_timing metric
  · exact hframe

end State

/-- A part of an end line does not close the section. -/
theorem find_end_of_cut {name q : Str} (hq : q <+: kind.end ++ name) (hne : q ≠ kind.end ++ name)
    (offset : ℕ) (hf : find kind.end q = some offset) :
    q.drop (offset + kind.end.length) ≠ name := by
  rcases List.prefix_or_prefix_of_prefix hq (List.prefix_append kind.end name) with hlt | ⟨t, rfl⟩
  · -- There is no room for the marker, unless it is all there is.
    by_cases heq : q = kind.end
    · subst heq
      rw [List.drop_eq_nil_of_le (Nat.le_add_left _ _)]
      rintro rfl
      exact hne (List.append_nil _).symm
    · have hnot : ¬kind.end <:+: q := fun hi => heq (hlt.eq_of_length_le hi.length_le)
      rw [find_eq_none hnot] at hf
      cases hf
  · rw [find_append] at hf
    cases hf
    rw [Nat.zero_add, List.drop_left]
    exact fun h => hne (by rw [h])

/-- A place in a list that has an element at its end. -/
theorem append_singleton_cases {α : Type*} {xs before after : List α} {y l : α}
    (h : xs ++ [y] = before ++ l :: after) :
    (before = xs ∧ l = y ∧ after = []) ∨ ∃ t, xs = before ++ l :: t ∧ after = t ++ [y] := by
  rcases List.eq_nil_or_concat after with rfl | ⟨t, z, rfl⟩
  · obtain ⟨rfl, hl⟩ := List.append_inj' h rfl
    exact .inl ⟨rfl, (List.cons.inj hl).1.symm, rfl⟩
  · have h' : xs ++ [y] = (before ++ l :: t) ++ [z] := by simpa using h
    obtain ⟨rfl, hz⟩ := List.append_inj' h' rfl
    exact .inr ⟨t, rfl, by rw [(List.cons.inj hz).1]; simp⟩

/-- A section that is cut off before its last newline is complete if that is all it
    lacks, and is not there else. -/
theorem Legible.run_cut (h : Legible kind p) (hs : s.Closed done) (hname : p.1 ∉ done.map (·.name))
    (hcount : done.length < maxSections) {cut : Str}
    (hcut : cut <+: Str.unlines (frameLines kind p.1 p.2))
    (hne : cut ≠ Str.unlines (frameLines kind p.1 p.2)) :
    (State.run kind (cut.splitOn '\n') s).out.complete = done ++
      if cut ++ ['\n'] = Str.unlines (frameLines kind p.1 p.2) then [sectionOf kind p] else [] := by
  obtain ⟨before, l, after, q, hlines, hq, rfl⟩ := exists_lines_of_cut hcut hne
  have hnl := h.newline_frameLines
  rw [hlines] at hnl
  have hql : '\n' ∉ q := fun hmem => hnl l (by simp) (hq.subset hmem)
  have hdone : s.out.complete = done := by rw [hs.out]
  rw [splitOn_unlines_append fun m hm => hnl m (List.mem_append_left _ hm),
    List.splitOn_eq_singleton hql]
  -- All of the section is there but the newline exactly if this is all of its last line.
  have hwhole : Str.unlines before ++ q ++ ['\n'] = Str.unlines (frameLines kind p.1 p.2) ↔
      q = l ∧ after = [] := by
    rw [hlines, Str.unlines_append, Str.unlines_cons, List.append_assoc, List.append_cancel_left_eq]
    constructor
    · intro heq
      have hlen := congrArg List.length heq
      have hle := hq.length_le
      simp only [List.length_append, List.length_cons, List.length_nil] at hlen
      have hafter : Str.unlines after = [] := List.length_eq_zero_iff.1 (by omega)
      refine ⟨hq.eq_of_length_le (by omega), ?_⟩
      cases after with
      | nil => rfl
      | cons m after =>
        rw [Str.unlines_cons] at hafter
        simp at hafter
    · rintro ⟨rfl, rfl⟩
      rfl
  cases before with
  | nil =>
    -- In the begin line: no section is open.
    have hafter : after ≠ [] := by
      rintro rfl
      simpa [frameLines] using congrArg List.length hlines
    rw [if_neg fun hw => hafter (hwhole.1 hw).2, List.nil_append, State.run_singleton,
      State.complete_line fun offset _ => by simp [hs.current], hdone, List.append_nil]
  | cons b before =>
    have hcons := hlines
    rw [frameLines, List.cons_append] at hcons
    obtain ⟨rfl, htail⟩ := List.cons.inj hcons
    -- The section is open, and has some of its lines.
    have hopen : (∀ m ∈ before, m ∈ bodyLines p.2) →
        State.run kind ((kind.begin ++ p.1) :: before ++ [q]) s =
          State.after ((⟨s.out, some p.1, State.collect [] before, s.indexes⟩ : State).line
            kind q) := by
      intro hbefore
      rw [List.cons_append, State.run, State.line_begin h.short]
      dsimp only
      rw [State.run_body (fun m hm => h.body m (hbefore m hm)) rfl, State.run_singleton]
    rcases append_singleton_cases htail with ⟨rfl, rfl, rfl⟩ | ⟨t, hbody, rfl⟩
    · by_cases hall : q = kind.end ++ p.1
      · obtain ⟨s', hs', hrun⟩ := h.run hs hname hcount
        rw [if_pos (hwhole.2 ⟨hall, rfl⟩), hall]
        have := hrun []
        rw [List.append_nil, frameLines] at this
        rw [List.cons_append, this, State.run, hs'.out]
      · rw [if_neg fun hw => hall (hwhole.1 hw).1, hopen fun m hm => hm,
          State.complete_line fun offset hf heq =>
            find_end_of_cut hq hall offset hf (Option.some.inj heq).symm, List.append_nil]
        exact hdone
    · have hl : l ∈ bodyLines p.2 := hbody ▸ by simp
      have hnot : ¬kind.end <:+: q := fun hi => (h.body l hl).2.2 (hi.trans hq.isInfix)
      rw [if_neg fun hw => by simpa using (hwhole.1 hw).2,
        hopen fun m hm => hbody ▸ List.mem_append_left _ hm,
        State.complete_line fun offset hf => absurd hf (by simp [find_eq_none hnot]),
        List.append_nil]
      exact hdone

/-- Some sections, of which the text is cut off. -/
theorem run_sections_cut (h : ∀ p ∈ sections, Legible kind p) (hs : s.Closed done)
    (hnames : (done.map (·.name) ++ sections.map Prod.fst).Nodup)
    (hcount : done.length + sections.length ≤ maxSections) {cut : Str}
    (hcut : cut <+: text kind sections) (hne : cut ≠ text kind sections) :
    ∃ k < sections.length, text kind (sections.take k) <+: cut ∧
      ¬text kind (sections.take (k + 1)) <+: cut ∧
      (State.run kind (cut.splitOn '\n') s).out.complete =
        done ++ (sections.map (sectionOf kind)).take
          (if cut ++ ['\n'] = text kind (sections.take (k + 1)) then k + 1 else k) := by
  induction sections generalizing s done cut with
  | nil => exact absurd (List.prefix_nil.1 hcut) hne
  | cons p sections ih =>
    have hp := h p List.mem_cons_self
    rw [List.map_cons, List.nodup_append] at hnames
    rw [List.length_cons] at hcount
    have hname : p.1 ∉ done.map (·.name) := fun hmem => hnames.2.2 _ hmem _ List.mem_cons_self rfl
    rw [text_cons] at hcut hne
    by_cases hfirst : Str.unlines (frameLines kind p.1 p.2) <+: cut
    · -- The first section is whole.
      obtain ⟨cut, rfl⟩ := hfirst
      obtain ⟨s₁, hs₁, hrun₁⟩ := hp.run hs hname (by omega)
      have hnames₁ :
          ((done ++ [sectionOf kind p]).map (·.name) ++ sections.map Prod.fst).Nodup := by
        rw [List.map_append, List.append_assoc, List.nodup_append]
        exact hnames
      obtain ⟨k, hk, hle, hgt, hcomplete⟩ := ih (fun q hq => h q (List.mem_cons_of_mem _ hq)) hs₁
        hnames₁ (by rw [List.length_append, List.length_singleton]; omega)
        ((List.prefix_append_right_inj _).1 hcut) fun heq => hne (by rw [heq])
      refine ⟨k + 1, Nat.succ_lt_succ hk, ?_, ?_, ?_⟩
      · rw [List.take_succ_cons, text_cons, List.prefix_append_right_inj]
        exact hle
      · rw [List.take_succ_cons, text_cons, List.prefix_append_right_inj]
        exact hgt
      · have hiff : Str.unlines (frameLines kind p.1 p.2) ++ cut ++ ['\n'] =
            text kind ((p :: sections).take (k + 1 + 1)) ↔
            cut ++ ['\n'] = text kind (sections.take (k + 1)) := by
          rw [List.take_succ_cons, text_cons, List.append_assoc, List.append_cancel_left_eq]
        rw [splitOn_unlines_append hp.newline_frameLines, hrun₁, hcomplete]
        simp only [hiff]
        split_ifs <;> simp
    · -- The first section is not.
      have hpart := List.prefix_or_prefix_of_prefix hcut (List.prefix_append _ _)
      have hcut' := hpart.resolve_right hfirst
      have hrun := hp.run_cut hs hname (by omega) hcut' fun heq => hfirst (heq ▸ List.prefix_rfl)
      refine ⟨0, Nat.succ_pos _, ?_, ?_, ?_⟩
      · exact List.nil_prefix
      · rw [List.take_succ_cons, List.take_zero, text_cons]
        simpa [text, Str.unlines] using hfirst
      · rw [hrun, List.take_succ_cons, List.take_zero, text_cons]
        have htext : text kind [] = [] := rfl
        rw [htext, List.append_nil]
        split_ifs <;> simp

/-! ## Texts -/

/-- Without a CR, the lines are what stands between the newlines. -/
theorem lineSequence_eq {raw : Str} (h : '\r' ∉ raw) : lineSequence raw = raw.splitOn '\n' := by
  have hend : ∀ l : Str, '\r' ∉ l → Str.endsWith l '\r' = false := by
    intro l hl
    rw [Str.endsWith, beq_eq_false_iff_ne]
    exact fun he => hl (List.mem_of_getLast? he)
  have hpiece : ∀ l ∈ raw.splitOn '\n', '\r' ∉ l := by
    intro l hl hmem
    have : '\r' ∈ Str.unlines (raw.splitOn '\n') :=
      List.mem_flatMap.2 ⟨l, hl, List.mem_append_left _ hmem⟩
    rw [unlines_splitOn, List.mem_append] at this
    exact this.elim h (by decide)
  rw [lineSequence, hend raw h]
  simp only [Bool.false_eq_true, if_false, List.append_nil]
  generalize raw.splitOn '\n' = ls at hpiece
  induction ls with
  | nil => rfl
  | cons l ls ih =>
    have hl := hpiece l List.mem_cons_self
    rw [List.flatMap_cons, ih fun m hm => hpiece m (List.mem_cons_of_mem _ hm), hend l hl]
    simp [List.splitOn_eq_singleton hl]

theorem byteLen_append (s t : Str) : byteLen (s ++ t) = byteLen s + byteLen t := by
  rw [byteLen, Str.toUtf8_append, List.length_append, byteLen, byteLen]

theorem byteLen_le_of_cut {p t : Str} (h : p <+: t) : byteLen p ≤ byteLen t := by
  obtain ⟨s, rfl⟩ := h
  rw [byteLen_append]
  exact Nat.le_add_right _ _

/-- Sections as they are written: at most as many as are read, with names that differ
    and bodies without markers or CR. -/
structure Framed (kind : FrameKind) (sections : List (Str × Str)) : Prop where
  count : sections.length ≤ maxSections
  distinct : (sections.map Prod.fst).Nodup
  newline : ∀ p ∈ sections, '\n' ∉ p.1
  short : ∀ p ∈ sections, byteLen p.1 ≤ maxNameBytes
  noBegin : ∀ p ∈ sections, ∀ l ∈ p.2.splitOn '\n', ¬kind.begin <+: l
  noTiming : ∀ p ∈ sections, ∀ l ∈ p.2.splitOn '\n', ¬rootTiming <+: l
  noEnd : ∀ p ∈ sections, ∀ l ∈ p.2.splitOn '\n', ¬kind.end <:+: l
  noCr : ∀ p ∈ sections, '\r' ∉ p.2

theorem mem_splitOn_of_mem_bodyLines {body l : Str} (h : l ∈ bodyLines body) :
    l ∈ body.splitOn '\n' := by
  rw [bodyLines, content] at h
  split_ifs at h with hbody hend
  · exact absurd h List.not_mem_nil
  · rw [Str.endsWith, beq_iff_eq] at hend
    rw [← List.dropLast_append_getLast? '\n' hend, List.splitOn_append_cons_self]
    exact List.mem_append_left _ h
  · exact h

theorem Framed.legible (h : Framed kind sections)
    (hstart : ∀ p ∈ sections, (kept kind p.2).head? ≠ some '\n') (hp : p ∈ sections) :
    Legible kind p where
  newline := h.newline p hp
  short := h.short p hp
  body l hl :=
    have hl := mem_splitOn_of_mem_bodyLines hl
    ⟨h.noBegin p hp l hl, h.noTiming p hp l hl, h.noEnd p hp l hl⟩
  start := hstart p hp

theorem Framed.notMem_text (h : Framed kind sections) (hcr : ∀ p ∈ sections, '\r' ∉ p.1) :
    '\r' ∉ text kind sections := by
  have hbegin : '\r' ∉ kind.begin := by cases kind <;> decide +kernel
  have hend : '\r' ∉ kind.end := by cases kind <;> decide +kernel
  rw [text, Str.unlines, List.mem_flatMap]
  rintro ⟨l, hl, hmem⟩
  obtain ⟨p, hp, hl⟩ := List.mem_flatMap.1 hl
  replace hmem : '\r' ∈ l := (List.mem_append.1 hmem).elim id fun h => absurd h (by decide)
  rw [frameLines, List.mem_cons, List.mem_append, List.mem_singleton] at hl
  rcases hl with rfl | hl | rfl
  · exact (List.mem_append.1 hmem).elim hbegin (hcr p hp)
  · have : '\r' ∈ Str.unlines (p.2.splitOn '\n') :=
      List.mem_flatMap.2 ⟨l, mem_splitOn_of_mem_bodyLines hl, List.mem_append_left _ hmem⟩
    rw [unlines_splitOn, List.mem_append] at this
    exact this.elim (h.noCr p hp) (by decide)
  · exact (List.mem_append.1 hmem).elim hend (hcr p hp)

/-- Sections written one after another, each at its time. -/
def write (kind : FrameKind) (deadline : ℕ) (calls : List (ℕ × Str × Str)) : Out :=
  calls.foldl (fun o c => o.section c.1 c.2.1 c.2.2) (Out.new kind.begin kind.end deadline)

theorem write_eq {deadline : ℕ} {calls : List (ℕ × Str × Str)} (h : ∀ c ∈ calls, c.1 < deadline) :
    write kind deadline calls =
      ⟨text kind (calls.map Prod.snd), kind.begin, kind.end, deadline, false⟩ := by
  induction calls using List.reverseRecOn with
  | nil => rfl
  | append_singleton calls c ih =>
    have hc := h c (List.mem_append_right _ List.mem_cons_self)
    have hlast : write kind deadline (calls ++ [c]) =
        (write kind deadline calls).section c.1 c.2.1 c.2.2 := by
      rw [write, List.foldl_append]
      rfl
    have hkind (buf : Str) :
        (⟨buf, kind.begin, kind.end, deadline, false⟩ : Out).begin = kind.begin := rfl
    rw [hlast, ih fun d hd => h d (List.mem_append_left _ hd), section_buf hc rfl (hkind _) rfl]
    simp [text, Str.unlines_append]

/-- Sections that are written before the deadline are read back: in the same order, each
    with its body without the last newline, or without the white space at its end. And
    of the root snapshot, a text that is cut off has the sections that are whole, and the
    next one if it lacks nothing but the last newline of its text.

    The text is one that is read at all, the names have no CR, and what is kept of a body
    does not start with a newline. -/
theorem parse_write {deadline : ℕ} {calls : List (ℕ × Str × Str)}
    (htime : ∀ c ∈ calls, c.1 < deadline) (hframed : Framed kind (calls.map Prod.snd))
    (hcr : ∀ c ∈ calls, '\r' ∉ c.2.1) (hstart : ∀ c ∈ calls, (kept kind c.2.2).head? ≠ some '\n')
    (hfits : byteLen (write kind deadline calls).buf ≤ maxOutputBytes) :
    parse kind (write kind deadline calls).buf =
      ⟨calls.map fun c => sectionOf kind c.2, none, [], none⟩ ∧
    (kind = .root → ∀ cut, cut <+: (write kind deadline calls).buf →
      cut ≠ (write kind deadline calls).buf → ∃ k < calls.length,
        (write kind deadline (calls.take k)).buf <+: cut ∧
        ¬(write kind deadline (calls.take (k + 1))).buf <+: cut ∧
        (parse kind cut).complete = (calls.map fun c => sectionOf kind c.2).take
          (if cut ++ ['\n'] = (write kind deadline (calls.take (k + 1))).buf then
            k + 1 else k)) := by
  have hbuf : (write kind deadline calls).buf = text kind (calls.map Prod.snd) := by
    rw [write_eq htime]
  have htake : ∀ k, (write kind deadline (calls.take k)).buf =
      text kind ((calls.map Prod.snd).take k) := by
    intro k
    rw [write_eq fun c hc => htime c (List.mem_of_mem_take hc), List.map_take]
  have hmap : calls.map (fun c => sectionOf kind c.2) =
      (calls.map Prod.snd).map (sectionOf kind) := by
    rw [List.map_map]
    rfl
  have hcr' : '\r' ∉ text kind (calls.map Prod.snd) := by
    refine hframed.notMem_text fun p hp => ?_
    obtain ⟨c, hc, rfl⟩ := List.mem_map.1 hp
    exact hcr c hc
  -- A section is legible if it is framed and its text does not begin with a newline.
  have hlegible : ∀ p ∈ calls.map Prod.snd, Legible kind p := by
    refine fun p hp => hframed.legible (fun q hq => ?_) hp
    obtain ⟨c, hc, rfl⟩ := List.mem_map.1 hq
    exact hstart c hc
  have hcount : ([] : List Section).length + (calls.map Prod.snd).length ≤ maxSections := by
    rw [List.length_nil, Nat.zero_add]
    exact hframed.count
  rw [hbuf] at hfits ⊢
  rw [hmap]
  refine ⟨?_, ?_⟩
  · -- The whole text is read section by section, from a closed state to a closed state.
    obtain ⟨s', hs', hrun⟩ := run_sections hlegible State.closed_init hframed.distinct hcount
    rw [parse, if_neg (not_lt.2 hfits), lineSequence_eq hcr', hrun, hs'.run_nil]
    simp [hs'.out, hs'.current]
  · -- A cut falls into some section, and those before it are read as before.
    rintro rfl cut hcut hne
    obtain ⟨k, hk, hle, hgt, hcomplete⟩ :=
      run_sections_cut hlegible State.closed_init hframed.distinct hcount hcut hne
    refine ⟨k, by simpa using hk, htake k ▸ hle, htake (k + 1) ▸ hgt, ?_⟩
    rw [parse, if_neg (not_lt.2 ((byteLen_le_of_cut hcut).trans hfits)),
      lineSequence_eq fun hmem => hcr' (hcut.subset hmem), htake]
    simpa using hcomplete

/-- Two sections of the root snapshot, the second of which is empty. -/
theorem parse_write_two :
    let calls : List (ℕ × Str × Str) :=
      [(1, "config".toList, "first\n\nlast  \n".toList), (2, "empty".toList, [])]
    parse .root (write .root 3 calls).buf = ⟨[⟨"config".toList, "first\n\nlast  ".toList⟩,
      ⟨"empty".toList, []⟩], none, [], none⟩ := by
  intro calls
  have hframed : Framed .root (calls.map Prod.snd) :=
    { count := by decide
      distinct := by decide
      newline := by decide
      short := by decide +kernel
      noBegin := by decide +kernel
      noTiming := by decide +kernel
      noEnd := by decide +kernel
      noCr := by decide }
  exact (parse_write (by decide) hframed (by decide) (by decide) (by decide +kernel)).1

/-- A body that fills the output leaves no room for its markers. -/
theorem parse_oversized {deadline now : ℕ} (hnow : now < deadline) (name : Str) {body : Str}
    (hbody : maxOutputBytes ≤ byteLen body) :
    (parse kind (write kind deadline [(now, name, body)]).buf).error = some .inputTooLarge := by
  have hpush : body <+: Str.unlines (bodyLines body) := by
    rw [← List.nil_append (Str.unlines _), ← pushLines_eq, pushLines]
    split_ifs with hnil
    · exact hnil ▸ List.nil_prefix
    · exact List.prefix_rfl
    · exact List.prefix_append _ _
  have hbegin : 0 < byteLen kind.begin := by cases kind <;> decide +kernel
  have hlarge : maxOutputBytes < byteLen (text kind [(name, body)]) := by
    rw [text, List.flatMap_singleton, frameLines, Str.unlines_cons, Str.unlines_append,
      byteLen_append, byteLen_append, ← List.singleton_append, byteLen_append, byteLen_append]
    have := byteLen_le_of_cut hpush
    dsimp only
    omega
  rw [write_eq (by simpa using hnow)]
  change (parse kind (text kind [(name, body)])).error = _
  rw [parse, if_pos hlarge]

theorem framed_replicate (n : ℕ) : Framed .root [("a".toList, List.replicate n 'x')] := by
  have hline : ∀ l ∈ (List.replicate n 'x').splitOn '\n', ∀ c ∈ l, c = 'x' := by
    have hnl : '\n' ∉ List.replicate n 'x' := fun h =>
      absurd (List.eq_of_mem_replicate h) (by decide)
    rw [List.splitOn_eq_singleton hnl]
    intro l hl c hc
    exact List.eq_of_mem_replicate (List.mem_singleton.1 hl ▸ hc)
  have hmark : ∀ m : Str, '_' ∈ m → ∀ l ∈ (List.replicate n 'x').splitOn '\n', ¬m <:+: l := by
    intro m hm l hl hi
    exact absurd (hline l hl _ (hi.subset hm)) (by decide)
  refine ⟨by simp [maxSections], by simp, by simp, ?_, ?_, ?_, ?_, by simp⟩
  · intro p hp
    rw [List.mem_singleton] at hp
    subst hp
    change byteLen "a".toList ≤ maxNameBytes
    decide +kernel
  · simpa using fun l hl hp => hmark rootBegin (by decide) l hl hp.isInfix
  · simpa using fun l hl hp => hmark rootTiming (by decide) l hl hp.isInfix
  · intro p hp
    rw [List.mem_singleton] at hp
    subst hp
    exact hmark rootEnd (by decide)

/-- What is not read back: a text that is too large, a name that has a CR, and the newline
    before a body. -/
theorem parse_write_fails :
    (Framed .root [("a".toList, List.replicate maxOutputBytes 'x')] ∧
      (parse .root (write .root 1 [(0, "a".toList, List.replicate maxOutputBytes 'x')]).buf).error =
        some .inputTooLarge) ∧
    (Framed .root [("a\rb".toList, [])] ∧
      (parse .root (write .root 1 [(0, "a\rb".toList, [])]).buf).complete =
        [⟨"a".toList, "b".toList⟩]) ∧
    Framed .root [("a".toList, "\nb".toList)] ∧ kept .root "\nb".toList = "\nb".toList ∧
      (parse .root (write .root 1 [(0, "a".toList, "\nb".toList)]).buf).complete =
        [⟨"a".toList, "b".toList⟩] := by
  have hlen : byteLen (List.replicate maxOutputBytes 'x') = maxOutputBytes := by
    rw [byteLen, Str.toUtf8_eq_map fun c hc => List.eq_of_mem_replicate hc ▸ by decide,
      List.length_map, List.length_replicate]
  refine ⟨⟨framed_replicate _, parse_oversized (by decide) _ hlen.ge⟩, ⟨?_, by decide +kernel⟩, ?_,
    by decide +kernel, by decide +kernel⟩
  · exact ⟨by decide, by decide, by decide, by decide +kernel, by decide +kernel, by decide +kernel,
      by decide +kernel, by decide⟩
  · exact ⟨by decide, by decide, by decide, by decide +kernel, by decide +kernel, by decide +kernel,
      by decide +kernel, by decide⟩

end VpnHide.Probes

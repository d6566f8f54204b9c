import VpnHide.Checks.NetlinkWire
import VpnHide.Checks.Routes
import VpnHide.Zygisk.Dump

/-!
# The route probe, behind the hook

A probe dumps the routes over netlink (`dump` and `receive` of `checks/src/netlink_read.rs`), and
makes a row of the body of each frame (`netlink_row` of `checks/src/route.rs`). In an app whose
`recvmsg` is hooked, the datagrams have been filtered before.

A dump that is read without the hook is read with it, and its rows are those whose route does
not leave by a VPN interface (`route_dump_hidden`); only where all messages of a datagram are
hidden the dump breaks off, with no other rows.
-/

namespace VpnHide.Checks

open Lib Protocol
open Zygisk (readU16 readU32 align)

/-! ## Attributes -/

/-- An attribute of a message. -/
structure Attribute where
  kind : UInt16
  value : Bytes
  deriving DecidableEq

/-- `attributes`, from the one at `pos` on. -/
def attributesAt (bytes : Bytes) (pos : ℕ) : Except ProbeError (List Attribute) :=
  if pos < bytes.length then do
    let length ← u16At bytes pos
    if length.toNat < 4 || length.toNat > bytes.length - pos then .error .malformed
    else if align length.toNat > bytes.length - pos then .error .malformed
    else do
      let kind ← u16At bytes (pos + 2)
      let rest ← attributesAt bytes (pos + align length.toNat)
      .ok (⟨kind, (bytes.take (pos + length.toNat)).drop (pos + 4)⟩ :: rest)
  else .ok []
termination_by bytes.length - pos
decreasing_by
  have := Zygisk.le_align length.toNat
  simp only [Bool.or_eq_true, decide_eq_true_eq, not_or] at *
  omega

/-- `attributes`: those of the bytes after the header. -/
def attributes (bytes : Bytes) : Except ProbeError (List Attribute) := attributesAt bytes 0

/-! ## Rows -/

/-- What the attributes of a route have said so far. -/
structure RouteFields where
  destination : Option Bytes
  source : Option Bytes
  output : Option UInt32
  table : Option UInt32
  metric : Option UInt32
  gateway : Option Bytes

/-- A field may be given once. -/
def replaced {α : Type} (field : Option α) (value : α) : Except ProbeError (Option α) :=
  if field.isSome then .error .malformed else .ok (some value)

/-- What an attribute adds to the route; addresses have to be of the right length. -/
def RouteFields.attribute (length : ℕ) (f : RouteFields) (a : Attribute) :
    Except ProbeError RouteFields :=
  if a.kind = 1 ∨ a.kind = 2 ∨ a.kind = 5 then
    if a.value.length ≠ length then .error .malformed
    else if a.kind = 1 then (replaced f.destination a.value).map fun v =>
      { f with destination := v }
    else if a.kind = 2 then (replaced f.source a.value).map fun v => { f with source := v }
    else (replaced f.gateway a.value).map fun v => { f with gateway := v }
  else if a.kind = 4 ∨ a.kind = 6 ∨ a.kind = 15 then
    if a.value.length ≠ 4 then .error .malformed
    else do
      let value ← u32At a.value 0
      if a.kind = 4 then (replaced f.output value).map fun v => { f with output := v }
      else if a.kind = 6 then (replaced f.metric value).map fun v => { f with metric := v }
      else (replaced f.table value).map fun v => { f with table := v }
  else .ok f

/-- `AF_INET`. -/
def afInet : UInt8 := 2

/-- `AF_INET6`. -/
def afInet6 : UInt8 := 10

/-- A default route needs no destination. -/
def RouteFields.destinationOf (body : Bytes) (length : ℕ) (f : RouteFields) :
    Except ProbeError Bytes :=
  match f.destination with
  | some v => .ok v
  | none => if body.getD 1 0 = 0 then .ok (List.replicate length 0) else .error .malformed

/-- The row of a body, from its attributes. -/
def rowOf (body : Bytes) (length : ℕ) (f : RouteFields) : Except ProbeError ObservedRoute := do
  let destination ← f.destinationOf body length
  let flags ← u32At body 8
  .ok {
    destination
    prefixLen := body.getD 1 0
    source := f.source
    sourcePrefixLen := body.getD 2 0
    outputIndex := f.output
    outputName := none
    table := some (f.table.getD (body.getD 4 0).toUInt32)
    protocol := some (body.getD 5 0)
    scope := some (body.getD 6 0)
    kind := some (body.getD 7 0)
    metric := f.metric.getD 0
    gateway := f.gateway
    flags }

/-- `netlink_row`: the route that a message is of. -/
def netlinkRow (body : Bytes) (surface : RouteSurface) : Except ProbeError ObservedRoute :=
  if !surface.netlink || body.length < 12 then .error .malformed
  else
    let length := surface.addressBytes
    let family := if length = 4 then afInet else afInet6
    if body.getD 0 0 ≠ family || (body.getD 1 0).toNat > length * 8 ||
      (body.getD 2 0).toNat > length * 8 then
      .error .malformed
    else do
      let row ← rowOf body length
        (← (← attributes (body.drop 12)).foldlM (RouteFields.attribute length)
          ⟨none, none, none, none, none, none⟩)
      if !row.valid surface then .error .malformed else .ok row

/-- `push`: a row is added, if it is valid and there is room. -/
def push (rows : List ObservedRoute) (row : ObservedRoute) (surface : RouteSurface) :
    Except ProbeError (List ObservedRoute) :=
  if !row.valid surface then .error .malformed
  else if maxRoutes ≤ rows.length then .error .tooLarge
  else .ok (rows ++ [row])

/-- The closure of `RouteDump::consume`. -/
def pushBody (surface : RouteSurface) (rows : List ObservedRoute) (body : Bytes) :
    Except ProbeError (List ObservedRoute) := do
  push rows (← netlinkRow body surface) surface

/-- The rows after some bodies; one that is refused leaves them as they are. -/
def rowsOf (surface : RouteSurface) (received : List Bytes) : List ObservedRoute :=
  received.foldl (fun rows body =>
    match pushBody surface rows body with
    | .ok rows => rows
    | .error _ => rows) []

/-- What the closure answers to the last body, after those before it. -/
def routeCallback (surface : RouteSurface) : Callback := fun received =>
  match received.getLast? with
  | none => .ok ()
  | some body => (pushBody surface (rowsOf surface received.dropLast) body).map fun _ => ()

/-! ## Receiving -/

/-- What the kernel has for a call of `recvmsg`. -/
inductive Reception
  | failed (e : ProbeError)
  /-- A datagram, and whether the kernel itself sent it. -/
  | datagram (kernel : Bool) (bytes : Bytes)

/-- The size of the buffer that is received into. -/
def receiveBuffer : ℕ := 64 * 1024

/-- What a `recvmsg` makes of a buffer with the bytes that were received; nothing if it does not
    return. -/
abbrev Recvmsg := Bytes → ℕ → Option (Bytes × ℤ)

/-- The system call alone. -/
def plainRecvmsg : Recvmsg := fun buf n => some (buf, n)

/-- `hooked_recvmsg`, with one buffer. -/
def hookedRecvmsg (abi : Zygisk.Abi) (rx : Zygisk.Receiver) (scratch : Bool) :
    Recvmsg := fun buf n =>
  (Zygisk.hookedRecvmsg abi rx scratch [.memory buf] n).map fun x => (Zygisk.contents x.1, x.2)

/-- `receive`: a datagram, as far as the buffer goes. -/
def receive (recv : Recvmsg) : Reception → Option (Except ProbeError Bytes)
  | .failed e => some (.error e)
  | .datagram kernel bytes =>
    let copied := bytes.take receiveBuffer
    (recv (copied ++ (List.replicate receiveBuffer 0).drop copied.length) copied.length).map
      fun (buf, size) =>
      if size = 0 || size > receiveBuffer || !kernel || receiveBuffer < bytes.length then
        .error .malformed
      else .ok (buf.take size.toNat)

/-- No more datagrams are received than these. -/
def maxBatches : ℕ := 128

/-- No more bytes are received than these. -/
def maxDump : ℕ := 1024 * 1024

/-- The loop of `dump`, with the batches that may still come, and how many bytes there were; nothing
    if a call does not return. -/
def dumpLoop {σ : Type} (recv : Recvmsg) (consume : σ → Bytes → Except ProbeError Bool × σ) :
    ℕ → ℕ → σ → List Reception → Option (Option ProbeError × σ)
  | 0, _, s, _ => some (some .tooLarge, s)
  | _ + 1, _, s, [] => some (some .timeout, s)
  | n + 1, total, s, r :: rest =>
    match receive recv r with
    | none => none
    | some (.error e) => some (some e, s)
    | some (.ok bytes) =>
      if total + bytes.length > maxDump then some (some .tooLarge, s)
      else
        match consume s bytes with
        | (.error e, s) => some (some e, s)
        | (.ok true, s) => some (none, s)
        | (.ok false, s) => dumpLoop recv consume n (total + bytes.length) s rest

/-- A dump with what its callback has received. -/
def consumeWith (data : Callback) (s : Dump × List Bytes) (bytes : Bytes) :
    Except ProbeError Bool × Dump × List Bytes :=
  s.1.consume data bytes s.2

/-- What a probe observes of the routes on a netlink surface. -/
def observeNetlink (recv : Recvmsg) (surface : RouteSurface) (receptions : List Reception) :
    Option (List ObservedRoute × Option ProbeError) :=
  (dumpLoop recv (consumeWith (routeCallback surface)) maxBatches 0
    (Dump.new 1 24, []) receptions).map
    fun (error, _, received) => (rowsOf surface received, error)

/-! ## Frames, filtered -/

/-- A frame is a message for the hook as well. -/
theorem nextMessage_of_nextFrame {l : Bytes} {n : ℕ} (h : nextFrame l = some n) :
    Zygisk.nextMessage l = some n := by
  obtain ⟨k, hk, h⟩ := Option.bind_eq_some_iff.1 h
  split_ifs at h with hlen
  obtain rfl := Option.some.inj h
  have hle := Zygisk.le_align k.toNat
  exact Zygisk.nextMessage_eq_some_iff.2 ⟨k, hk, hlen.1, hle.trans hlen.2,
    (min_eq_left hlen.2).symm⟩

/-- Frames to the last byte are the messages that the hook sees. -/
theorem messages_of_whole {l : Bytes} (h : (records nextFrame l).2 = []) :
    Zygisk.messages l = records nextFrame l := by
  induction l using records_induction isNext_nextFrame with
  | tail l hnone =>
    rw [records_of_none hnone] at h
    obtain rfl : l = [] := h
    rw [Zygisk.messages, records_nil Zygisk.isNext_nextMessage, records_nil isNext_nextFrame]
  | record l n hsome ih =>
    rw [records_of_some isNext_nextFrame hsome] at h
    have ih := ih h
    rw [Zygisk.messages] at ih
    rw [Zygisk.messages, records_of_some Zygisk.isNext_nextMessage (nextMessage_of_nextFrame hsome),
      records_of_some isNext_nextFrame hsome, ih]

/-- A frame does not depend on what comes after it. -/
theorem isLocal_nextFrame : IsLocal nextFrame := by
  intro l n h t _
  obtain ⟨k, hk, h⟩ := Option.bind_eq_some_iff.1 h
  split_ifs at h with hlen
  obtain rfl := Option.some.inj h
  have hle := Zygisk.le_align k.toNat
  have htake : (l.take (align k.toNat)).length = align k.toNat := List.length_take_of_le hlen.2
  have hread : readU32 (l.take (align k.toNat) ++ t) 0 = some k := by
    rw [← hk, ← Zygisk.readU32_take (show 0 + 4 ≤ align k.toNat by omega), List.take_left' htake,
      Zygisk.readU32_take (by omega)]
  rw [nextFrame, hread, Option.bind_some, if_pos]
  rw [List.length_append, htake]
  omega

/-- A frame has a header. -/
theorem header_le_of_mem {l m : Bytes} (hm : m ∈ (records nextFrame l).1) : 16 ≤ m.length := by
  induction l using records_induction isNext_nextFrame with
  | tail l hnone =>
    rw [records_of_none hnone] at hm
    cases hm
  | record l n hsome ih =>
    rw [records_of_some isNext_nextFrame hsome] at hm
    obtain rfl | hm := List.mem_cons.1 hm
    · obtain ⟨k, -, hn⟩ := Option.bind_eq_some_iff.1 hsome
      split_ifs at hn with hlen
      obtain rfl := Option.some.inj hn
      rw [List.length_take_of_le hlen.2]
      exact hlen.1.trans (Zygisk.le_align _)
    · exact ih hm

/-- The type of a message. -/
theorem readU16_kind {l m : Bytes} (hm : m ∈ (records nextFrame l).1) :
    readU16 m 4 = some (Message.ofBytes m).kind := by
  obtain ⟨kind, hkind⟩ :=
    Zygisk.exists_readU16 (show 4 + 2 ≤ m.length by have := header_le_of_mem hm; omega)
  rw [Message.ofBytes, hkind]
  rfl

section Filtered

variable (vpnIndices : List UInt32) (vpnUid : UInt32) (kind : UInt16) (hideBody : Bytes → Bool)

/-- The hook hides the messages of a kind by their body. -/
structure Hides : Prop where
  filtered : kind ∈ Zygisk.filteredTypes
  none_hidden : vpnIndices = [] → ∀ b, hideBody b = false
  hidden_iff : ∀ m, readU16 m 4 = some kind →
    (Zygisk.Hidden vpnIndices vpnUid m ↔ hideBody (Message.ofBytes m).body = true)

/-- A callback has accepted all that it was given. -/
def Accepted (data : Callback) (l : List Bytes) : Prop := ∀ p, p <+: l → p ≠ [] → data p = .ok ()

/-- It accepts them without those that are hidden. -/
def Closed (data : Callback) : Prop :=
  ∀ l, Accepted data l → Accepted data (l.filter fun b => !hideBody b)

/-- A frame that the hook passes on. -/
def shownMessage (m : Message) : Bool := !(m.kind = kind && hideBody m.body)

/-- What has been read with the hook, where some pieces have been read without it. -/
structure Behind (sequence : UInt32) (data : Callback) (before before' : List Piece) : Prop where
  clean : Clean (Defect sequence kind data) before'
  ended_eq : ended before' = ended before
  accepted : Accepted data (bodies kind before)
  bodies_eq : bodies kind before' = (bodies kind before).filter fun b => !hideBody b

/-- One more body is accepted. -/
theorem accepted_concat {data : Callback} {l : List Bytes} {b : Bytes} (hl : Accepted data l)
    (hb : data (l ++ [b]) = .ok ()) : Accepted data (l ++ [b]) := by
  intro p hp hne
  obtain rfl | hp := List.prefix_concat_iff.1 hp
  · exact hb
  · exact hl p hp hne

variable {vpnIndices vpnUid kind hideBody} {sequence : UInt32} {data : Callback}
  {before before' : List Piece}

/-- What is hidden is data. -/
theorem Hides.kind_ne (h : Hides vpnIndices vpnUid kind hideBody) : kind ≠ 2 ∧ kind ≠ 3 := by
  have hfiltered := h.filtered
  constructor <;> rintro rfl <;> revert hfiltered <;> decide

/-- A frame without defect is `DONE` with nothing after it, or one of the data. -/
theorem fine_frame {m : Message} {last : Bool}
    (h : ¬Defect sequence kind data before (.frame m last)) :
    ended before = false ∧ m.sequence = sequence ∧ m.flags &&& 0x10 = 0 ∧
      (m.kind = 3 ∧ last = true ∧ doneStatus m.body = true ∨
        m.kind ≠ 3 ∧ m.kind = kind ∧ data (bodies kind before ++ [m.body]) = .ok ()) := by
  unfold Defect at h
  push Not at h
  obtain ⟨hopen, hsequence, hflags, hdone, herror, hunknown, hcallback⟩ := h
  refine ⟨by simpa using hopen, hsequence, hflags, ?_⟩
  by_cases hkind : m.kind = 3
  · obtain ⟨hlast, hstatus⟩ := hdone hkind
    exact .inl ⟨hkind, by simpa using hlast, by simpa using hstatus⟩
  · have hdata : m.kind = kind := hunknown herror hkind
    cases hanswer : data (bodies kind before ++ [m.body]) with
    | error e => exact absurd hanswer (hcallback hdata e)
    | ok _ => exact .inr ⟨hkind, hdata, rfl⟩

/-- The frames of a batch without defect, with and without the hook. -/
theorem Behind.ofFrames (hkind : kind ≠ 2 ∧ kind ≠ 3) (hclosed : Closed hideBody data)
    {ms : List Message}
    (hclean : Clean (Defect sequence kind data) (before ++ Piece.ofFrames ms []))
    (h : Behind kind hideBody sequence data before before') :
    Behind kind hideBody sequence data (before ++ Piece.ofFrames ms [])
      (before' ++ Piece.ofFrames (ms.filter (shownMessage kind hideBody)) []) := by
  induction ms generalizing before before' with
  | nil => simpa [Piece.ofFrames] using h
  | cons m ms ih =>
    set last := decide (ms = [] ∧ ([] : Bytes) = [])
    have hcons :
        before ++ Piece.ofFrames (m :: ms) [] =
          before ++ [.frame m last] ++ Piece.ofFrames ms [] := by
      simp [Piece.ofFrames, last]
    rw [hcons] at hclean ⊢
    rw [List.append_assoc, List.singleton_append] at hclean
    obtain ⟨hopen, hsequence, hflags, hfine⟩ := fine_frame hclean.not_bad
    rw [← List.singleton_append, ← List.append_assoc] at hclean
    obtain ⟨hdone, hlast, hstatus⟩ | ⟨hne, hdata, hok⟩ := hfine
    · -- `DONE` is passed on, and is the last one still
      have hms : ms = [] := (of_decide_eq_true hlast).1
      have hshown : shownMessage kind hideBody m = true := by
        simp [shownMessage, hdone, hkind.2.symm]
      have hnone : bodies kind [.frame m true] = [] := by simp [bodies, hdone, hkind.2.symm]
      subst hms
      rw [List.filter_cons_of_pos hshown]
      have hfine : ¬Defect sequence kind data before' (.frame m true) := by
        simp [Defect, h.ended_eq, hopen, hsequence, hflags, hdone, hstatus, hkind.2.symm]
      have hnil : Piece.ofFrames [] [] = [] := rfl
      have hpieces : Piece.ofFrames [m] [] = [.frame m true] := by simp [Piece.ofFrames]
      rw [hlast, List.filter_nil, hpieces, hnil, List.append_nil]
      refine ⟨h.clean.concat hfine, ?_, ?_, ?_⟩
      · rw [ended_append, ended_append, h.ended_eq]
      · rw [bodies_append, hnone, List.append_nil]
        exact h.accepted
      · rw [bodies_append, bodies_append, hnone, List.append_nil, List.append_nil, h.bodies_eq]
    · have hbodies : ∀ last, bodies kind [.frame m last] = [m.body] :=
        fun last => by simp [bodies, hdata]
      have hended : ∀ last, ended [.frame m last] = false :=
        fun last => by simp [ended, Piece.isDone, hne]
      have haccepted : Accepted data (bodies kind (before ++ [.frame m last])) := by
        rw [bodies_append, hbodies]
        exact accepted_concat h.accepted hok
      by_cases hhide : hideBody m.body = true
      · -- the frame is not passed on
        rw [List.filter_cons_of_neg (by simp [shownMessage, hdata, hhide])]
        refine ih hclean ⟨h.clean, ?_, haccepted, ?_⟩
        · rw [ended_append, hended, Bool.or_false, h.ended_eq]
        · rw [h.bodies_eq, bodies_append, hbodies, List.filter_append]
          simp [hhide]
      · rw [List.filter_cons_of_pos (by simp [shownMessage, hhide])]
        set last' := decide (ms.filter (shownMessage kind hideBody) = [] ∧ ([] : Bytes) = [])
        have hcons' : before' ++ Piece.ofFrames (m :: ms.filter (shownMessage kind hideBody)) [] =
            before' ++ [.frame m last'] ++
              Piece.ofFrames (ms.filter (shownMessage kind hideBody)) [] := by
          simp [Piece.ofFrames, last']
        have hkept : bodies kind (before' ++ [.frame m last']) =
            (bodies kind (before ++ [.frame m last])).filter fun b => !hideBody b := by
          rw [bodies_append, bodies_append, hbodies, hbodies, List.filter_append, h.bodies_eq]
          simp [hhide]
        have hok' : data (bodies kind before' ++ [m.body]) = .ok () := by
          rw [← hbodies last', ← bodies_append, hkept]
          refine hclosed _ haccepted _ List.prefix_rfl ?_
          rw [← hkept, bodies_append, hbodies]
          simp
        have hfine : ¬Defect sequence kind data before' (.frame m last') := by
          simp [Defect, h.ended_eq, hopen, hsequence, hflags, hdata, hok', hkind.1, hkind.2]
        rw [hcons']
        refine ih hclean ⟨h.clean.concat hfine, ?_, haccepted, hkept⟩
        rw [ended_append, ended_append, hended, hended, h.ended_eq]

/-! ## Batches, filtered -/

/-- The frames of a batch. -/
def framesOf (l : Bytes) : List Message := (records nextFrame l).1.map .ofBytes

/-- A rest that is no frame is a broken piece. -/
theorem broken_mem_ofFrames {ms : List Message} {rest : Bytes} (h : rest ≠ []) :
    Piece.broken ∈ Piece.ofFrames ms rest := by
  induction ms with
  | nil => simp [Piece.ofFrames, h]
  | cons m ms ih => exact List.mem_cons_of_mem _ ih

/-- A batch without defect is not empty, not too long, and made of frames. -/
theorem batch_of_clean {batch : Bytes}
    (hclean : Clean (Defect sequence kind data) (before ++ pieces batch)) :
    batch ≠ [] ∧ batch.length ≤ 1024 * 1024 ∧ (records nextFrame batch).2 = [] ∧
      pieces batch = Piece.ofFrames (framesOf batch) [] := by
  have hbroken : Piece.broken ∉ pieces batch := by
    intro hmem
    obtain ⟨l, t, heq⟩ := List.append_of_mem hmem
    rw [heq, ← List.append_assoc] at hclean
    exact hclean.not_bad trivial
  have hsize : ¬(batch.isEmpty || batch.length > 1024 * 1024) = true := by
    intro hsize
    rw [pieces, if_pos hsize] at hbroken
    exact hbroken List.mem_cons_self
  have hpieces : pieces batch = piecesOf batch := if_neg hsize
  simp only [Bool.or_eq_true, List.isEmpty_iff, decide_eq_true_eq, not_or, not_lt] at hsize
  have hwhole : (records nextFrame batch).2 = [] := by
    by_contra hrest
    exact hbroken (hpieces ▸ broken_mem_ofFrames hrest)
  refine ⟨hsize.1, hsize.2, hwhole, ?_⟩
  rw [hpieces, piecesOf, hwhole]
  rfl

/-- The frames of a batch without defect: each is one of the data, or the `DONE` at the end. -/
theorem kind_of_clean {ms : List Message}
    (hclean : Clean (Defect sequence kind data) (before ++ Piece.ofFrames ms [])) :
    ∀ m ∈ ms, m.kind = 3 ∨ m.kind = kind := by
  induction ms generalizing before with
  | nil => exact List.forall_mem_nil _
  | cons m ms ih =>
    rw [Piece.ofFrames] at hclean
    intro m' hm'
    obtain rfl | hm' := List.mem_cons.1 hm'
    · obtain ⟨-, -, -, h | h⟩ := fine_frame hclean.not_bad
      · exact .inl h.1
      · exact .inr h.2.1
    · rw [← List.singleton_append, ← List.append_assoc] at hclean
      exact ih hclean m' hm'

/-- Where the first frame is not filtered, it is the only one. -/
theorem frames_of_done {m : Message} {ms : List Message}
    (hclean : Clean (Defect sequence kind data) (before ++ Piece.ofFrames (m :: ms) []))
    (hm : m.kind ≠ kind) : ms = [] := by
  rw [Piece.ofFrames] at hclean
  obtain ⟨-, -, -, h | h⟩ := fine_frame hclean.not_bad
  · exact (of_decide_eq_true h.2.1).1
  · exact absurd h.2.1 hm

/-- A message that is shown. -/
theorem shown_iff (h : Hides vpnIndices vpnUid kind hideBody) {l m : Bytes}
    (hm : m ∈ (records nextFrame l).1)
    (hkind : (Message.ofBytes m).kind = 3 ∨ (Message.ofBytes m).kind = kind) :
    Zygisk.shown vpnIndices vpnUid m = shownMessage kind hideBody (.ofBytes m) := by
  have hread := readU16_kind hm
  obtain hdone | hdata := hkind
  · have hend : Zygisk.isDone m = true := by
      rw [hdone] at hread
      exact decide_eq_true hread
    have hne : (3 : UInt16) ≠ kind := h.kind_ne.2.symm
    simp [Zygisk.shown, shownMessage, hdone, hne,
      Zygisk.not_hidden_of_isDone vpnIndices vpnUid hend]
  · rw [hdata] at hread
    have hiff := h.hidden_iff m hread
    by_cases hhide : hideBody (Message.ofBytes m).body = true
    · simp [Zygisk.shown, shownMessage, hdata, hhide, hiff]
    · simp [Zygisk.shown, shownMessage, hhide, hiff]

/-- A batch that begins with a frame of the data is filtered. -/
theorem gate_of_first (h : Hides vpnIndices vpnUid kind hideBody) {batch m : Bytes}
    {ms : List Bytes} (hfirst : (records nextFrame batch).1 = m :: ms)
    (hm : (Message.ofBytes m).kind = kind) : Zygisk.Gate batch := by
  have hmem : m ∈ (records nextFrame batch).1 := by
    rw [hfirst]
    exact List.mem_cons_self
  have hread := readU16_kind hmem
  have hlength := header_le_of_mem hmem
  cases hnext : nextFrame batch with
  | none =>
    rw [records_of_none hnext] at hfirst
    cases hfirst
  | some n =>
    rw [records_of_some isNext_nextFrame hnext] at hfirst
    obtain ⟨rfl, -⟩ := List.cons.inj hfirst
    rw [List.length_take] at hlength
    rw [Zygisk.readU16_take (by omega), hm] at hread
    exact ⟨kind, h.filtered, hread⟩

/-- In a batch without defect that is not filtered, nothing is hidden. -/
theorem not_hidden_of_unfiltered (h : Hides vpnIndices vpnUid kind hideBody) {batch : Bytes}
    (hclean : Clean (Defect sequence kind data) (before ++ pieces batch))
    (hoff : ¬(vpnIndices ≠ [] ∧ Zygisk.Gate batch)) :
    ∀ m ∈ (records nextFrame batch).1, ¬Zygisk.Hidden vpnIndices vpnUid m := by
  obtain ⟨-, -, -, hpieces⟩ := batch_of_clean hclean
  rw [hpieces] at hclean
  intro m hm hhidden
  have hread := readU16_kind hm
  obtain hdone | hdata := kind_of_clean hclean _ (List.mem_map_of_mem hm)
  · rw [hdone] at hread
    exact Zygisk.not_hidden_of_isDone vpnIndices vpnUid (decide_eq_true hread) hhidden
  · rw [hdata] at hread
    have hhide := (h.hidden_iff m hread).1 hhidden
    have hindices : vpnIndices ≠ [] := by
      intro hnil
      rw [h.none_hidden hnil] at hhide
      cases hhide
    cases hframes : (records nextFrame batch).1 with
    | nil =>
      rw [hframes] at hm
      cases hm
    | cons first rest =>
      by_cases hfirst : (Message.ofBytes first).kind = kind
      · exact hoff ⟨hindices, gate_of_first h hframes hfirst⟩
      · -- `DONE`, and nothing else
        rw [framesOf, hframes, List.map_cons] at hclean
        have hrest : rest = [] := List.map_eq_nil_iff.1 (frames_of_done hclean hfirst)
        rw [hframes, hrest, List.mem_singleton] at hm
        exact hfirst (hm ▸ hdata)

/-- What is passed on of a batch without defect: the frames that are shown. -/
theorem pieces_passed (h : Hides vpnIndices vpnUid kind hideBody) {batch : Bytes}
    (hclean : Clean (Defect sequence kind data) (before ++ pieces batch))
    (hpassed : Zygisk.passed vpnIndices vpnUid batch ≠ []) :
    pieces (Zygisk.passed vpnIndices vpnUid batch) =
      Piece.ofFrames ((framesOf batch).filter (shownMessage kind hideBody)) [] := by
  have hunfiltered := not_hidden_of_unfiltered h hclean
  obtain ⟨hne, hsize, hwhole, hpieces⟩ := batch_of_clean hclean
  rw [hpieces] at hclean
  have hkinds := kind_of_clean hclean
  have hshown : ∀ m ∈ (records nextFrame batch).1,
      Zygisk.shown vpnIndices vpnUid m = shownMessage kind hideBody (.ofBytes m) :=
    fun m hm => shown_iff h hm (hkinds _ (List.mem_map_of_mem hm))
  have hfilter : (framesOf batch).filter (shownMessage kind hideBody) =
      ((records nextFrame batch).1.filter (Zygisk.shown vpnIndices vpnUid)).map .ofBytes := by
    rw [framesOf, List.filter_map]
    congr 1
    exact List.filter_congr fun m hm => (hshown m hm).symm
  have hlength := Zygisk.length_passed_le vpnIndices vpnUid batch
  have hread : ¬((Zygisk.passed vpnIndices vpnUid batch).isEmpty ||
      (Zygisk.passed vpnIndices vpnUid batch).length > 1024 * 1024) = true := by
    simp only [Bool.or_eq_true, List.isEmpty_iff, decide_eq_true_eq, not_or, not_lt]
    exact ⟨hpassed, hlength.trans hsize⟩
  have hrecords : records nextFrame (Zygisk.passed vpnIndices vpnUid batch) =
      ((records nextFrame batch).1.filter (Zygisk.shown vpnIndices vpnUid), []) := by
    rw [Zygisk.passed]
    split_ifs with hfiltered
    · have hmessages := messages_of_whole hwhole
      rw [Zygisk.remaining, hmessages, records_filter isNext_nextFrame isLocal_nextFrame, hwhole]
      rfl
    · -- nothing is removed, and nothing is hidden
      refine Prod.ext (List.filter_eq_self.2 fun m hm => ?_).symm hwhole
      simpa [Zygisk.shown] using hunfiltered hfiltered m hm
  rw [pieces, if_neg hread, piecesOf, hrecords, hfilter]

/-- A batch that is read without the hook is read with it, unless nothing of it is passed on. -/
theorem Behind.batch (h : Hides vpnIndices vpnUid kind hideBody) (hclosed : Closed hideBody data)
    {batch : Bytes} (hclean : Clean (Defect sequence kind data) (before ++ pieces batch))
    (hbehind : Behind kind hideBody sequence data before before')
    (hpassed : Zygisk.passed vpnIndices vpnUid batch ≠ []) :
    Behind kind hideBody sequence data (before ++ pieces batch)
      (before' ++ pieces (Zygisk.passed vpnIndices vpnUid batch)) := by
  rw [pieces_passed h hclean hpassed]
  obtain ⟨-, -, -, hpieces⟩ := batch_of_clean hclean
  rw [hpieces] at hclean ⊢
  exact hbehind.ofFrames h.kind_ne hclosed hclean

/-- A batch without defect is read. -/
theorem consume_clean (hkind : kind ≠ 2 ∧ kind ≠ 3) (hopen : ended before = false) {batch : Bytes}
    (hclean : Clean (Defect sequence kind data) (before ++ pieces batch)) :
    consumeWith data (⟨sequence, kind, false, false⟩, bodies kind before) batch =
      (.ok (ended (pieces batch)), ⟨sequence, kind, ended (pieces batch), false⟩,
        bodies kind (before ++ pieces batch)) := by
  obtain ⟨-, hresult⟩ | ⟨p₁, p, p₂, e, d', heq, -, hdefect, -, -⟩ :=
    Dump.consume_spec hkind.1 hkind.2 hclean.of_append hopen batch
  · exact hresult
  · rw [heq, ← List.append_assoc] at hclean
    exact absurd hdefect hclean.not_bad

/-- What is read without an error has no defect. -/
theorem clean_of_consume (hkind : kind ≠ 2 ∧ kind ≠ 3)
    (hbefore : Clean (Defect sequence kind data) before) (hopen : ended before = false)
    {batch : Bytes} {answer : Bool} {s : Dump × List Bytes}
    (h : consumeWith data (⟨sequence, kind, false, false⟩, bodies kind before) batch =
      (.ok answer, s)) :
    Clean (Defect sequence kind data) (before ++ pieces batch) := by
  obtain ⟨hclean, -⟩ | ⟨p₁, p, p₂, e, d', -, -, -, -, hresult⟩ :=
    Dump.consume_spec hkind.1 hkind.2 hbefore hopen batch
  · exact hclean
  · rw [consumeWith, hresult] at h
    cases h

/-! ## The loop -/

/-- What `recvmsg` leaves of a datagram without the hook. -/
theorem receive_plain {r : Reception} {bytes : Bytes}
    (h : receive plainRecvmsg r = some (.ok bytes)) :
    r = .datagram true bytes ∧ bytes ≠ [] ∧ bytes.length ≤ receiveBuffer := by
  cases r with
  | failed e => cases h
  | datagram kernel d =>
    by_cases hfits : d.length ≤ receiveBuffer
    · have htake : d.take receiveBuffer = d := List.take_of_length_le hfits
      simp [receive, plainRecvmsg, htake] at h
      split_ifs at h with hbad
      obtain rfl := Except.ok.inj h
      simp only [not_or, Bool.not_eq_false] at hbad
      exact ⟨by rw [hbad.1.2], hbad.1.1.1, hfits⟩
    · simp [receive, plainRecvmsg, Nat.lt_of_not_le hfits] at h

/-- And with it. -/
theorem receive_hooked (abi : Zygisk.Abi) (scratch : Bool) {d : Bytes} (hne : d ≠ [])
    (hfits : d.length ≤ receiveBuffer) (hmessages : (Zygisk.messages d).2 = []) :
    receive (hookedRecvmsg abi (.reader vpnIndices vpnUid) scratch) (.datagram true d) =
      some (if Zygisk.passed vpnIndices vpnUid d = [] then .error .malformed
        else .ok (Zygisk.passed vpnIndices vpnUid d)) := by
  have htake : d.take receiveBuffer = d := List.take_of_length_le hfits
  have hpos : 0 < d.length := List.length_pos_iff.2 hne
  have hroom : receiveBuffer < 2 ^ (abi.bits - 1) := lt_of_lt_of_le (by decide) abi.le_two_pow
  set buf := List.replicate receiveBuffer (0 : UInt8) with hbuf
  have hlen : buf.length = receiveBuffer := List.length_replicate
  have hwhole : (d ++ buf.drop d.length).length = receiveBuffer := by
    rw [List.length_append, List.length_drop]
    omega
  have hmin : min (d.length : ℤ) receiveBuffer = d.length := by omega
  have hcall :
      hookedRecvmsg abi (.reader vpnIndices vpnUid) scratch (d ++ buf.drop d.length) d.length =
      some (Zygisk.passed vpnIndices vpnUid d ++
        (d ++ buf.drop d.length).drop (Zygisk.passed vpnIndices vpnUid d).length,
          ((Zygisk.passed vpnIndices vpnUid d).length : ℤ)) := by
    rw [hookedRecvmsg, Zygisk.hookedRecvmsg, if_neg (by omega), hwhole, Zygisk.Abi.toIsize_eq hroom,
      hmin, Zygisk.hookedFlat_whole vpnIndices vpnUid (hfits.trans_lt hroom) hmessages]
    simp only [Zygisk.contents, List.map_cons, List.map_nil, Zygisk.Iovec.bytes, List.flatten_cons,
      List.flatten_nil, List.append_nil, Option.map_some]
  have hle := (Zygisk.length_passed_le vpnIndices vpnUid d).trans hfits
  rw [receive, htake, hcall, Option.map_some]
  dsimp only
  rw [Int.toNat_natCast, List.take_left]
  have hsize :
      (((Zygisk.passed vpnIndices vpnUid d).length : ℤ) = 0 ||
        ((Zygisk.passed vpnIndices vpnUid d).length : ℤ) > receiveBuffer || !true ||
        receiveBuffer < d.length) = true ↔
        Zygisk.passed vpnIndices vpnUid d = [] := by
    simp only [Bool.or_eq_true, decide_eq_true_eq, Bool.not_true, Bool.false_eq_true, or_false,
      Int.natCast_eq_zero, List.length_eq_zero_iff]
    constructor
    · rintro ((h | h) | h)
      · exact h
      · omega
      · omega
    · exact fun h => .inl (.inl h)
  simp only [hsize]

/-- One more datagram. -/
theorem dumpLoop_step {recv : Recvmsg} {n total : ℕ} {r : Reception} {rest : List Reception}
    {bytes : Bytes} {answer : Bool} {s s' : Dump × List Bytes}
    (hreceive : receive recv r = some (.ok bytes))
    (hsize : total + bytes.length ≤ maxDump)
    (hconsume : consumeWith data s bytes = (.ok answer, s')) :
    dumpLoop recv (consumeWith data) (n + 1) total s (r :: rest) =
      if answer then some (none, s')
        else dumpLoop recv (consumeWith data) n (total + bytes.length) s' rest := by
  rw [dumpLoop, hreceive]
  dsimp only
  rw [if_neg (Nat.not_lt.2 hsize), hconsume]
  cases answer <;> rfl

section Hooked

variable (h : Hides vpnIndices vpnUid kind hideBody) (hclosed : Closed hideBody data)
  (abi : Zygisk.Abi) (scratch : Bool) {n total : ℕ} {bytes : Bytes} {rest : List Reception}

/-- A dump breaks off at a datagram of which nothing is passed on. -/
theorem dumpLoop_hidden {s : Dump × List Bytes} (hne : bytes ≠ [])
    (hfits : bytes.length ≤ receiveBuffer) (hwhole : (records nextFrame bytes).2 = [])
    (hpassed : Zygisk.passed vpnIndices vpnUid bytes = []) :
    Zygisk.OnlyHidden vpnIndices vpnUid bytes ∧
      dumpLoop (hookedRecvmsg abi (.reader vpnIndices vpnUid) scratch) (consumeWith data) (n + 1)
        total s (.datagram true bytes :: rest) = some (some .malformed, s) := by
  have hmessages : (Zygisk.messages bytes).2 = [] := by rw [messages_of_whole hwhole, hwhole]
  refine ⟨((Zygisk.passed_eq_nil_iff vpnIndices vpnUid hne hmessages).1 hpassed).2, ?_⟩
  rw [dumpLoop, receive_hooked abi scratch hne hfits hmessages, if_pos hpassed]

include h hclosed

/-- A datagram of which something is passed on: what is shown of it is read. -/
theorem dumpLoop_passed (hopen : ended before = false) (hne : bytes ≠ [])
    (hfits : bytes.length ≤ receiveBuffer)
    (hclean : Clean (Defect sequence kind data) (before ++ pieces bytes))
    (hbehind : Behind kind hideBody sequence data before before')
    (hsize : total + bytes.length ≤ maxDump)
    (hpassed : Zygisk.passed vpnIndices vpnUid bytes ≠ []) :
    dumpLoop (hookedRecvmsg abi (.reader vpnIndices vpnUid) scratch) (consumeWith data) (n + 1)
        total (⟨sequence, kind, false, false⟩, bodies kind before') (.datagram true bytes :: rest) =
      if ended (pieces bytes) then
        some (none, ⟨sequence, kind, true, false⟩,
          (bodies kind (before ++ pieces bytes)).filter fun b => !hideBody b)
      else
        dumpLoop (hookedRecvmsg abi (.reader vpnIndices vpnUid) scratch) (consumeWith data) n
          (total + (Zygisk.passed vpnIndices vpnUid bytes).length)
          (⟨sequence, kind, false, false⟩,
            bodies kind (before' ++ pieces (Zygisk.passed vpnIndices vpnUid bytes))) rest := by
  have hbehind' := hbehind.batch h hclosed hclean hpassed
  have hsame : ended (pieces (Zygisk.passed vpnIndices vpnUid bytes)) = ended (pieces bytes) := by
    have heq := hbehind'.ended_eq
    rw [ended_append, ended_append, hbehind.ended_eq, hopen] at heq
    simpa using heq
  have hle := Zygisk.length_passed_le vpnIndices vpnUid bytes
  have hread := consume_clean h.kind_ne (hbehind.ended_eq.trans hopen) hbehind'.clean
  obtain ⟨-, -, hwhole, -⟩ := batch_of_clean hclean
  have hmessages : (Zygisk.messages bytes).2 = [] := by rw [messages_of_whole hwhole, hwhole]
  have hreceive := @receive_hooked vpnIndices vpnUid abi scratch bytes hne hfits hmessages
  rw [if_neg hpassed] at hreceive
  rw [dumpLoop_step hreceive (by omega) hread, hsame, ← hbehind'.bodies_eq]
  cases ended (pieces bytes) <;> rfl

end Hooked

/-- A dump that is read without the hook is read with it, but for the bodies that are hidden, or
    breaks off at a datagram whose messages are all hidden. -/
theorem dumpLoop_hooked (h : Hides vpnIndices vpnUid kind hideBody) (hclosed : Closed hideBody data)
    (abi : Zygisk.Abi) (scratch : Bool) {n total total' : ℕ} {receptions : List Reception}
    {s : Dump × List Bytes}
    (hclean : Clean (Defect sequence kind data) before) (hopen : ended before = false)
    (hbehind : Behind kind hideBody sequence data before before') (htotal : total' ≤ total)
    (hplain : dumpLoop plainRecvmsg (consumeWith data) n total (⟨sequence, kind, false, false⟩,
      bodies kind before)
      receptions = some (none, s)) :
    bodies kind before <+: s.2 ∧ Accepted data s.2 ∧
      ((∃ d, dumpLoop (hookedRecvmsg abi (.reader vpnIndices vpnUid) scratch) (consumeWith data) n
          total' (⟨sequence, kind, false, false⟩, bodies kind before') receptions =
            some (none, d, s.2.filter fun b => !hideBody b)) ∨
        ∃ d bytes received, .datagram true bytes ∈ receptions ∧
          Zygisk.OnlyHidden vpnIndices vpnUid bytes ∧
          received <+: s.2.filter (fun b => !hideBody b) ∧
          dumpLoop (hookedRecvmsg abi (.reader vpnIndices vpnUid) scratch) (consumeWith data) n
            total' (⟨sequence, kind, false, false⟩, bodies kind before') receptions =
              some (some .malformed, d, received)) := by
  induction n generalizing total total' before before' receptions with
  | zero => cases hplain
  | succ n ih =>
    cases receptions with
    | nil => cases hplain
    | cons r rest =>
      rw [dumpLoop] at hplain
      cases hreceive : receive plainRecvmsg r with
      | none =>
        rw [hreceive] at hplain
        cases hplain
      | some answer =>
        rw [hreceive] at hplain
        cases answer with
        | error e => cases hplain
        | ok bytes =>
          obtain ⟨rfl, hne, hfits⟩ := receive_plain hreceive
          dsimp only at hplain
          split_ifs at hplain with hlarge
          · cases hplain
          cases hconsume :
              consumeWith data (⟨sequence, kind, false, false⟩, bodies kind before) bytes with
          | mk answer s' =>
            rw [hconsume] at hplain
            cases answer with
            | error e => cases hplain
            | ok answer =>
              have hclean' := clean_of_consume h.kind_ne hclean hopen hconsume
              have hread := consume_clean h.kind_ne hopen hclean'
              obtain ⟨-, -, hwhole, hpieces⟩ := batch_of_clean hclean'
              rw [hread] at hconsume
              cases hconsume
              have haccepts : bodies kind before <+: bodies kind (before ++ pieces bytes) := by
                rw [bodies_append]
                exact List.prefix_append _ _
              -- what a reader without the hook goes on with
              have hframes : Behind kind hideBody sequence data (before ++ pieces bytes)
                  (before' ++ Piece.ofFrames ((framesOf bytes).filter (shownMessage kind hideBody))
                    []) := by
                rw [hpieces] at hclean' ⊢
                exact hbehind.ofFrames h.kind_ne hclosed hclean'
              have hle := Zygisk.length_passed_le vpnIndices vpnUid bytes
              have hcut := @dumpLoop_hidden vpnIndices vpnUid data abi scratch n total' bytes rest
                (⟨sequence, kind, false, false⟩, bodies kind before') hne hfits hwhole
              have hgo := @dumpLoop_passed vpnIndices vpnUid kind hideBody sequence data before
                before' h hclosed abi
                scratch n total' bytes rest hopen hne hfits hclean' hbehind (by omega)
              cases hended : ended (pieces bytes) with
              | true =>
                rw [hended] at hplain hgo
                obtain rfl := (Prod.mk.inj (Option.some.inj hplain)).2
                refine ⟨haccepts, hframes.accepted, ?_⟩
                by_cases hpassed : Zygisk.passed vpnIndices vpnUid bytes = []
                · obtain ⟨honly, hloop⟩ := hcut hpassed
                  refine .inr ⟨_, bytes, _, List.mem_cons_self, honly, ?_, hloop⟩
                  rw [hbehind.bodies_eq]
                  exact haccepts.filter _
                · exact .inl ⟨_, hgo hpassed⟩
              | false =>
                rw [hended] at hplain hgo
                have hopen' : ended (before ++ pieces bytes) = false := by
                  rw [ended_append, hopen, hended]; rfl
                obtain ⟨haccepts', haccepted, hrest⟩ := ih hclean' hopen' hframes
                  (show total' + (Zygisk.passed vpnIndices vpnUid bytes).length ≤
                    total + bytes.length by omega) hplain
                refine ⟨haccepts.trans haccepts', haccepted, ?_⟩
                by_cases hpassed : Zygisk.passed vpnIndices vpnUid bytes = []
                · obtain ⟨honly, hloop⟩ := hcut hpassed
                  refine .inr ⟨_, bytes, _, List.mem_cons_self, honly, ?_, hloop⟩
                  rw [hbehind.bodies_eq]
                  exact (haccepts.trans haccepts').filter _
                · rw [hgo hpassed, pieces_passed h hclean' hpassed]
                  obtain hloop | ⟨d, b, received, hmem, honly, hreceived, hloop⟩ := hrest
                  · exact .inl hloop
                  · exact .inr ⟨d, b, received, List.mem_cons_of_mem _ hmem,
                      honly, hreceived, hloop⟩

end Filtered

/-! ## The output interface of a row -/

/-- The index in the first attribute that names an output interface. -/
def outputOf (attrs : List Attribute) : Option UInt32 :=
  (attrs.find? fun a => a.kind = 4 && 4 ≤ a.value.length).bind fun a => readU32 a.value 0

/-- The first of some attributes, and those after it. -/
theorem attributesAt_cons {bytes : Bytes} {pos : ℕ} {attrs : List Attribute}
    (hpos : pos < bytes.length) (h : attributesAt bytes pos = .ok attrs) :
    ∃ k kind rest, readU16 bytes pos = some k ∧ readU16 bytes (pos + 2) = some kind ∧ 4 ≤ k.toNat ∧
      align k.toNat ≤ bytes.length - pos ∧ attributesAt bytes (pos + align k.toNat) = .ok rest ∧
      attrs = ⟨kind, (bytes.take (pos + k.toNat)).drop (pos + 4)⟩ :: rest := by
  rw [attributesAt, if_pos hpos] at h
  cases hlen : readU16 bytes pos with
  | none =>
    rw [u16At, hlen] at h
    cases h
  | some k =>
    rw [u16At, hlen] at h
    simp only [okOr, bind, Except.bind] at h
    split at h
    · cases h
    rename_i hbad
    split at h
    · cases h
    rename_i hcut
    simp only [Bool.or_eq_true, decide_eq_true_eq, not_or, not_lt] at hbad
    cases hkind : readU16 bytes (pos + 2) with
    | none =>
      rw [u16At, hkind] at h
      cases h
    | some kind =>
      rw [u16At, hkind] at h
      simp only [okOr] at h
      cases hrest : attributesAt bytes (pos + align k.toNat) with
      | error e =>
        rw [hrest] at h
        cases h
      | ok rest =>
        rw [hrest] at h
        exact ⟨k, kind, rest, rfl, rfl, hbad.1, by omega, hrest, (Except.ok.inj h).symm⟩

/-- The hook finds it as well. -/
theorem outputOf_attributes (bytes l : Bytes) :
    ∀ pos attrs, bytes.drop pos = l → attributesAt bytes pos = .ok attrs →
      ((records Zygisk.nextAttribute l).1.find? Zygisk.isOif).bind (readU32 · 4) =
        outputOf attrs := by
  -- An attribute that the reader takes is one that the hook steps over.
  have hnext : ∀ {pos : ℕ} {k : UInt16}, pos < bytes.length → readU16 bytes pos = some k →
      4 ≤ k.toNat → align k.toNat ≤ bytes.length - pos →
      Zygisk.nextAttribute (bytes.drop pos) = some (align k.toNat) := by
    intro pos k hpos hk hlo hhi
    have hle := Zygisk.le_align k.toNat
    rw [Zygisk.nextAttribute, Zygisk.nextAligned, List.length_drop, if_pos (by omega),
      Zygisk.readU16_drop hpos.le, Nat.add_zero, hk, Option.map_some, Option.bind_some,
      if_neg (by omega), min_eq_left hhi]
  -- By the attributes that follow.
  induction l using records_induction Zygisk.isNext_nextAttribute with
  | tail l hnone =>
    rintro pos attrs rfl hattrs
    by_cases hpos : pos < bytes.length
    · obtain ⟨k, kind, rest, hk, -, hlo, hhi, -, -⟩ := attributesAt_cons hpos hattrs
      rw [hnext hpos hk hlo hhi] at hnone
      cases hnone
    · rw [attributesAt, if_neg hpos] at hattrs
      obtain rfl := Except.ok.inj hattrs
      rw [records_of_none hnone]
      rfl
  | record l n hsome ih =>
    rintro pos attrs rfl hattrs
    have hn := Zygisk.isNext_nextAttribute _ _ hsome
    rw [List.length_drop] at hn
    have hpos : pos < bytes.length := by omega
    obtain ⟨k, kind, rest, hk, hkind, hlo, hhi, hrest, rfl⟩ := attributesAt_cons hpos hattrs
    rw [hnext hpos hk hlo hhi] at hsome
    obtain rfl := Option.some.inj hsome
    have hle := Zygisk.le_align k.toNat
    have hih := ih (pos + align k.toNat) rest (by rw [List.drop_drop]) hrest
    have hattr : ∀ off, off + 2 ≤ align k.toNat →
        readU16 ((bytes.drop pos).take (align k.toNat)) off = readU16 bytes (pos + off) := by
      intro off hoff
      rw [Zygisk.readU16_take hoff, Zygisk.readU16_drop hpos.le]
    set value := (bytes.take (pos + k.toNat)).drop (pos + 4) with hvalue
    have hlength : value.length = k.toNat - 4 := by
      rw [hvalue, List.length_drop, List.length_take]
      omega
    -- Both find the interface in the first attribute of that type which has four bytes.
    have hoif : Zygisk.isOif ((bytes.drop pos).take (align k.toNat)) =
        (kind = 4 && 4 ≤ value.length : Bool) := by
      rw [Zygisk.isOif, hattr 2 (by omega), hattr 0 (by omega), Nat.add_zero pos, hk,
        hkind, hlength]
      have hfour : 8 ≤ k.toNat ↔ 4 ≤ k.toNat - 4 := by omega
      simp [Zygisk.rtaOif, hfour]
    rw [records_of_some Zygisk.isNext_nextAttribute (hnext hpos hk hlo hhi), List.find?_cons,
      outputOf, List.find?_cons, hoif]
    cases hfound : (kind = 4 && 4 ≤ value.length : Bool) with
    | false => exact hih
    | true =>
      have hfour : 4 ≤ value.length := by simpa using (Bool.and_eq_true_iff.1 hfound).2
      dsimp only
      rw [Option.bind_some, Option.bind_some, Zygisk.readU32_take (by omega),
        Zygisk.readU32_drop hpos.le, hvalue, Zygisk.readU32_drop (by rw [List.length_take]; omega),
        Zygisk.readU32_take (by omega)]

/-! ## Rows, filtered -/

section Rows

variable {surface : RouteSurface} {rows rows' : List ObservedRoute} {row : ObservedRoute}
  {l t : List Bytes} {b : Bytes}

/-- A field is set once. -/
theorem map_replaced {α : Type} {field : Option α} {value : α} {g : Option α → RouteFields}
    {f : RouteFields} (h : (replaced field value).map g = .ok f) :
    field = none ∧ f = g (some value) := by
  cases field with
  | none => exact ⟨rfl, (Except.ok.inj h).symm⟩
  | some v => cases h

/-- An attribute sets the output interface once, or leaves it. -/
theorem output_attribute {length : ℕ} {f f' : RouteFields} {a : Attribute}
    (h : f.attribute length a = .ok f') :
    (a.kind = 4 → a.value.length = 4 ∧ f.output = none ∧ f'.output = readU32 a.value 0) ∧
      (a.kind ≠ 4 → f'.output = f.output) := by
  unfold RouteFields.attribute at h
  -- An attribute of an address sets another field.
  by_cases haddress : a.kind = 1 ∨ a.kind = 2 ∨ a.kind = 5
  · have hne : a.kind ≠ 4 := by
      intro heq
      rw [heq] at haddress
      revert haddress
      decide
    rw [if_pos haddress] at h
    refine ⟨fun heq => absurd heq hne, fun _ => ?_⟩
    split at h
    · cases h
    · split at h
      · rw [(map_replaced h).2]
      · split at h
        · rw [(map_replaced h).2]
        · rw [(map_replaced h).2]
  · rw [if_neg haddress] at h
    split at h
    · split at h
      · cases h
      · rename_i hlength
        obtain ⟨v, hv⟩ := Zygisk.exists_readU32 (show 0 + 4 ≤ a.value.length by omega)
        simp only [u32At, hv, okOr, bind, Except.bind] at h
        split at h
        · rename_i hkind
          obtain ⟨hnone, rfl⟩ := map_replaced h
          exact ⟨fun _ => ⟨not_not.1 hlength, hnone, hv.symm⟩, fun hne => absurd hkind hne⟩
        · rename_i hne
          refine ⟨fun heq => absurd heq hne, fun _ => ?_⟩
          split at h
          · rw [(map_replaced h).2]
          · rw [(map_replaced h).2]
    · rename_i hvalue
      obtain rfl := Except.ok.inj h
      exact ⟨fun heq => absurd (Or.inl heq) hvalue, fun _ => rfl⟩

/-- The attributes give the output interface once. -/
theorem output_foldlM {length : ℕ} {attrs : List Attribute} {f f' : RouteFields}
    (h : attrs.foldlM (RouteFields.attribute length) f = .ok f') :
    f'.output = (f.output).or (outputOf attrs) := by
  induction attrs generalizing f with
  | nil =>
    obtain rfl := Except.ok.inj h
    simp [outputOf]
  | cons a attrs ih =>
    rw [List.foldlM_cons] at h
    cases hstep : f.attribute length a with
    | error e =>
      rw [hstep] at h
      cases h
    | ok g =>
      rw [hstep] at h
      obtain ⟨hset, hkeep⟩ := output_attribute hstep
      rw [ih h, outputOf, outputOf, List.find?_cons]
      by_cases hkind : a.kind = 4
      · obtain ⟨hlength, hnone, hsome⟩ := hset hkind
        obtain ⟨v, hv⟩ := Zygisk.exists_readU32 (show 0 + 4 ≤ a.value.length by omega)
        simp [hkind, hlength, hnone, hsome, hv]
      · simp [hkind, hkeep hkind]

/-- The output interface of a row. -/
theorem outputIndex_rowOf {length : ℕ} {f : RouteFields} (h : rowOf b length f = .ok row) :
    row.outputIndex = f.output := by
  unfold rowOf at h
  obtain ⟨destination, -, h⟩ := bind_eq_ok_iff.1 h
  obtain ⟨flags, -, h⟩ := bind_eq_ok_iff.1 h
  rw [← Except.ok.inj h]

/-- The row of a body leaves by the interface that the hook finds. -/
theorem outputIndex_netlinkRow (h : netlinkRow b surface = .ok row) :
    row.outputIndex = ((records Zygisk.nextAttribute (b.drop 12)).1.find? Zygisk.isOif).bind
      (readU32 · 4) := by
  have hread : ∃ attrs fields row', attributes (b.drop 12) = .ok attrs ∧
      attrs.foldlM (RouteFields.attribute surface.addressBytes) ⟨none, none, none, none, none,
        none⟩ = .ok fields ∧
      rowOf b surface.addressBytes fields = .ok row' ∧ row' = row := by
    unfold netlinkRow at h
    split at h
    · cases h
    · extract_lets length family at h
      split at h
      · cases h
      · obtain ⟨attrs, hattrs, h⟩ := bind_eq_ok_iff.1 h
        obtain ⟨fields, hfields, h⟩ := bind_eq_ok_iff.1 h
        obtain ⟨row', hrow, h⟩ := bind_eq_ok_iff.1 h
        refine ⟨attrs, fields, row', hattrs, hfields, hrow, ?_⟩
        split at h
        · cases h
        · exact Except.ok.inj h
  obtain ⟨attrs, fields, row', hattrs, hfields, hrow, rfl⟩ := hread
  rw [outputIndex_rowOf hrow, output_foldlM hfields, Option.none_or]
  exact (outputOf_attributes (b.drop 12) (b.drop 12) 0 attrs rfl hattrs).symm

/-- When a body is pushed. -/
theorem pushBody_eq_ok_iff :
    pushBody surface rows b = .ok rows' ↔
      ∃ row, netlinkRow b surface = .ok row ∧ row.valid surface = true ∧ rows.length < maxRoutes ∧
        rows' = rows ++ [row] := by
  rw [pushBody]
  cases netlinkRow b surface with
  | error e => simp [bind, Except.bind]
  | ok row =>
    simp only [bind, Except.bind, push, Except.ok.injEq, exists_eq_left', Bool.not_eq_true']
    split_ifs with hvalid hfull
    · simp [hvalid]
    · simp [Nat.not_lt.2 hfull]
    · simp [Bool.eq_true_of_not_eq_false hvalid, Nat.lt_of_not_le hfull, eq_comm]

/-- One more row. -/
theorem rowsOf_concat (l : List Bytes) (b : Bytes) :
    rowsOf surface (l ++ [b]) = match pushBody surface (rowsOf surface l) b with
      | .ok rows => rows
      | .error _ => rowsOf surface l := by
  rw [rowsOf, List.foldl_append]
  rfl

/-- The rows of the first bodies are the first rows. -/
theorem rowsOf_prefix (h : l <+: t) : rowsOf surface l <+: rowsOf surface t := by
  obtain ⟨r, rfl⟩ := h
  induction r using List.reverseRecOn with
  | nil => exact (congrArg (rowsOf surface) (List.append_nil l)).symm ▸ List.prefix_rfl
  | append_singleton r b ih =>
    rw [← List.append_assoc, rowsOf_concat]
    cases hpush : pushBody surface (rowsOf surface (l ++ r)) b with
    | error e => exact ih
    | ok rows =>
      obtain ⟨row, -, -, -, rfl⟩ := pushBody_eq_ok_iff.1 hpush
      exact ih.trans (List.prefix_append _ _)

/-- When one more body is accepted. -/
theorem routeCallback_concat (l : List Bytes) (b : Bytes) :
    routeCallback surface (l ++ [b]) = .ok () ↔
      ∃ rows, pushBody surface (rowsOf surface l) b = .ok rows := by
  rw [routeCallback, List.getLast?_concat, List.dropLast_concat]
  dsimp only
  cases pushBody surface (rowsOf surface l) b <;> simp [Except.map]

theorem accepted_concat_iff {data : Callback} :
    Accepted data (l ++ [b]) ↔ Accepted data l ∧ data (l ++ [b]) = .ok () :=
  ⟨fun h => ⟨fun p hp hne => h p (hp.trans (List.prefix_append _ _)) hne,
    h _ List.prefix_rfl (by simp)⟩,
    fun h => accepted_concat h.1 h.2⟩

variable (vpnIndices : List UInt32)

/-- A row whose route leaves by no VPN interface. -/
def staysOff (row : ObservedRoute) : Bool := !row.outputIndex.any vpnIndices.contains

/-- A body that the hook hides. -/
def hidesBody (b : Bytes) : Bool :=
  (((records Zygisk.nextAttribute (b.drop 12)).1.find? Zygisk.isOif).bind (readU32 · 4)).any
    vpnIndices.contains

/-- Bodies that are accepted are accepted without those that are hidden, and the rows are
    filtered. -/
theorem accepted_filter (h : Accepted (routeCallback surface) l) :
    Accepted (routeCallback surface) (l.filter fun b => !hidesBody vpnIndices b) ∧
      rowsOf surface (l.filter fun b => !hidesBody vpnIndices b) = (rowsOf surface l).filter
        (staysOff vpnIndices) := by
  induction l using List.reverseRecOn with
  | nil => exact ⟨h, rfl⟩
  | append_singleton l b ih =>
    obtain ⟨hl, hb⟩ := accepted_concat_iff.1 h
    obtain ⟨haccepted, hrows⟩ := ih hl
    obtain ⟨rows, hpush⟩ := (routeCallback_concat l b).1 hb
    obtain ⟨row, hrow, hvalid, hroom, rfl⟩ := pushBody_eq_ok_iff.1 hpush
    have hsame : hidesBody vpnIndices b = !staysOff vpnIndices row := by
      rw [hidesBody, staysOff, outputIndex_netlinkRow hrow, Bool.not_not]
    rw [rowsOf_concat, hpush, List.filter_append, List.filter_append]
    by_cases hstays : staysOff vpnIndices row = true
    · have hpush' :
          pushBody surface (rowsOf surface (l.filter fun b => !hidesBody vpnIndices b)) b =
          .ok ((rowsOf surface l).filter (staysOff vpnIndices) ++ [row]) := by
        rw [hrows]
        exact pushBody_eq_ok_iff.2
          ⟨row, hrow, hvalid, (List.length_filter_le _ _).trans_lt hroom, rfl⟩
      have hb' : [b].filter (fun b => !hidesBody vpnIndices b) = [b] := by simp [hsame, hstays]
      have hr' : [row].filter (staysOff vpnIndices) = [row] := by simp [hstays]
      rw [hb', hr', rowsOf_concat, hpush']
      exact ⟨accepted_concat haccepted ((routeCallback_concat _ b).2 ⟨_, hpush'⟩), rfl⟩
    · have hb' : [b].filter (fun b => !hidesBody vpnIndices b) = [] := by simp [hsame, hstays]
      have hr' : [row].filter (staysOff vpnIndices) = [] := by simp [hstays]
      rw [hb', hr', List.append_nil, List.append_nil]
      exact ⟨haccepted, hrows⟩

/-- The routes that are hidden are messages of the kernel's route dump. -/
theorem hides_routes (vpnUid : UInt32) : Hides vpnIndices vpnUid 24 (hidesBody vpnIndices) where
  filtered := by decide
  none_hidden := by
    rintro rfl b
    rw [hidesBody]
    cases ((records Zygisk.nextAttribute (b.drop 12)).1.find? Zygisk.isOif).bind (readU32 · 4) <;>
        simp
  hidden_iff m hm := by
    have hbody : (Zygisk.body m).drop (Zygisk.nlmsgHdrlen + Zygisk.rtmsgHdrlen) =
        (Message.ofBytes m).body.drop 12 := by
      rw [Zygisk.body, Message.ofBytes, List.drop_drop]
      cases readU32 m 0 <;> rfl
    rw [Zygisk.Hidden, hm, Zygisk.attributes, hbody, hidesBody]
    cases ((records Zygisk.nextAttribute ((Message.ofBytes m).body.drop 12)).1.find?
        Zygisk.isOif).bind (readU32 · 4) with
    | none => simp [Zygisk.rtmNewlink, Zygisk.rtmNewaddr, Zygisk.rtmNewrule]
    | some i => simp [Zygisk.rtmNewlink, Zygisk.rtmNewaddr, Zygisk.rtmNewrule, Zygisk.rtmNewroute]

end Rows

variable (vpnIndices : List UInt32) (vpnUid : UInt32)

/-- What the probe has read. -/
theorem observeNetlink_eq {recv : Recvmsg} {surface : RouteSurface} {receptions : List Reception}
    {error : Option ProbeError} {d : Dump} {received : List Bytes}
    (h : dumpLoop recv (consumeWith (routeCallback surface)) maxBatches 0
      (⟨1, 24, false, false⟩, []) receptions =
      some (error, d, received)) :
    observeNetlink recv surface receptions = some (rowsOf surface received, error) := by
  rw [observeNetlink, Dump.new, h, Option.map_some]

/-- A dump of the routes that is read without the hook is read with it, and its rows are those
    whose route leaves by no VPN interface, unless all messages of a datagram are hidden: then
    the dump breaks off, and there are no other rows. -/
theorem route_dump_hidden (abi : Zygisk.Abi) (scratch : Bool) {surface : RouteSurface}
    {receptions : List Reception} {rows : List ObservedRoute}
    (h : observeNetlink plainRecvmsg surface receptions = some (rows, none)) :
    observeNetlink (hookedRecvmsg abi (.reader vpnIndices vpnUid) scratch) surface receptions =
        some (rows.filter (staysOff vpnIndices), none) ∨
      ∃ d rows', .datagram true d ∈ receptions ∧ Zygisk.OnlyHidden vpnIndices vpnUid d ∧
        rows' <+: rows.filter (staysOff vpnIndices) ∧
        observeNetlink (hookedRecvmsg abi (.reader vpnIndices vpnUid) scratch) surface receptions =
          some (rows', some .malformed) := by
  rw [observeNetlink] at h
  cases hplain :
      dumpLoop plainRecvmsg (consumeWith (routeCallback surface)) maxBatches 0
        (Dump.new 1 24, []) receptions with
  | none =>
    rw [hplain] at h
    cases h
  | some result =>
    obtain ⟨error, s⟩ := result
    rw [hplain, Option.map_some] at h
    obtain ⟨rfl, rfl⟩ := Prod.mk.inj (Option.some.inj h)
    have hclosed : Closed (hidesBody vpnIndices) (routeCallback surface) :=
      fun l hl => (accepted_filter vpnIndices hl).1
    -- The hooked reader starts behind the plain one, and stays so over the receptions.
    have hbehind : Behind 24 (hidesBody vpnIndices) 1 (routeCallback surface) [] [] :=
      ⟨clean_nil _, rfl, fun p hp hne => absurd (List.prefix_nil.1 hp) hne, rfl⟩
    obtain ⟨-, haccepted, hrest⟩ :=
      dumpLoop_hooked (hides_routes vpnIndices vpnUid) hclosed abi scratch
      (clean_nil _) rfl hbehind le_rfl hplain
    have hrows := (accepted_filter vpnIndices haccepted).2
    -- It ends with the filtered rows, unless a datagram was emptied before the end.
    obtain ⟨d, hloop⟩ | ⟨d, bytes, received, hmem, honly, hreceived, hloop⟩ := hrest
    · rw [observeNetlink_eq hloop, hrows]
      exact .inl rfl
    · refine .inr ⟨bytes, rowsOf surface received, hmem, honly, ?_, observeNetlink_eq hloop⟩
      rw [← hrows]
      exact rowsOf_prefix hreceived

/-- A default route that leaves by an interface. -/
def defaultRoute (index : UInt8) : Bytes :=
  [36, 0, 0, 0, 24, 0, 2, 0, 1, 0, 0, 0, 0, 0, 0, 0] ++ [2, 0, 0, 0, 254, 3, 0, 1, 0, 0, 0, 0] ++
    [8, 0, 4, 0, index, 0, 0, 0]

/-- The default route through an interface. -/
def defaultRow (index : UInt32) : ObservedRoute where
  destination := [0, 0, 0, 0]
  prefixLen := 0
  source := none
  sourcePrefixLen := 0
  outputIndex := some index
  outputName := none
  table := some 254
  protocol := some 3
  scope := some 0
  kind := some 1
  metric := 0
  gateway := none
  flags := 0

/-- Of two default routes, that by the interface 7 is not seen. -/
theorem route_dump_hidden_twoDefaults :
    observeNetlink (hookedRecvmsg .armeabiV7a (.reader [7] 0) true) .netlinkIpv4
      [.datagram true (defaultRoute 7 ++ defaultRoute 2), .datagram true doneFrame] =
        some ([defaultRow 2], none) := by
  have hplain : observeNetlink plainRecvmsg .netlinkIpv4
      [.datagram true (defaultRoute 7 ++ defaultRoute 2), .datagram true doneFrame] =
        some ([defaultRow 7, defaultRow 2], none) := by decide +kernel
  obtain h | ⟨d, rows', hmem, honly, -⟩ := route_dump_hidden [7] 0 .armeabiV7a true hplain
  · exact h
  · have hroutes : ¬∀ m ∈ (Zygisk.messages (defaultRoute 7 ++ defaultRoute 2)).1,
        Zygisk.Hidden [7] 0 m := by decide +kernel
    have hdone : ¬∀ m ∈ (Zygisk.messages doneFrame).1, Zygisk.Hidden [7] 0 m := by decide +kernel
    simp only [List.mem_cons, Reception.datagram.injEq, true_and, List.not_mem_nil, or_false]
      at hmem
    obtain rfl | rfl := hmem
    · exact absurd honly hroutes
    · exact absurd honly hdone

end VpnHide.Checks

import VpnHide.Checks.Model
import VpnHide.Lib.Str
import VpnHide.Lib.Stream
import VpnHide.Zygisk.Netlink

/-!
# Reading a netlink dump

`Dump::consume` of `checks/src/netlink_wire.rs` reads a dump batch by batch: a batch is cut
into frames, each by the length in its header, and the bodies of the data frames go to a
callback. The dump is over with a `DONE` frame; anything unexpected ends it with an error, but
what has been delivered before stays so.

A batch is a list of *pieces* (`pieces`): its frames, and at the end the bytes that are no
frame, if there are any. A dump is the stream of the pieces of its batches, and some of these
are defects (`Defect`). `consume` delivers the stream up to its first defect
(`consume_verdict`), however it is cut into batches.
-/

namespace VpnHide.Checks

open Lib Protocol
open Zygisk (readU16 readU32 align)

/-! ## Frames -/

/-- Two bytes, which have to be there. -/
def u16At (bytes : Bytes) (i : ℕ) : Except ProbeError UInt16 := okOr .malformed (readU16 bytes i)

/-- Four bytes, which have to be there. -/
def u32At (bytes : Bytes) (i : ℕ) : Except ProbeError UInt32 := okOr .malformed (readU32 bytes i)

/-- A message without its header. -/
structure Message where
  kind : UInt16
  flags : UInt16
  sequence : UInt32
  body : Bytes
  deriving DecidableEq

/-- The reader of frames, where it is and whether it has failed. -/
structure Frames where
  bytes : Bytes
  pos : ℕ
  failed : Bool

namespace Frames

/-- The reader at the start of a batch, which is neither empty nor oversized. -/
def new (bytes : Bytes) : Except ProbeError Frames :=
  if bytes.isEmpty || bytes.length > 1024 * 1024 then .error .malformed else .ok ⟨bytes, 0, false⟩

/-- The frame at the cursor, and its length with the padding. -/
def read (f : Frames) : Except ProbeError (Message × ℕ) := do
  let length := (← u32At f.bytes f.pos).toNat
  if length < 16 || length > f.bytes.length - f.pos then .error .malformed
  else if align length > f.bytes.length - f.pos then .error .malformed
  else do
    let kind ← u16At f.bytes (f.pos + 4)
    let flags ← u16At f.bytes (f.pos + 6)
    let sequence ← u32At f.bytes (f.pos + 8)
    .ok (⟨kind, flags, sequence, (f.bytes.take (f.pos + length)).drop (f.pos + 16)⟩, align length)

/-- One frame at a time, so that a valid prefix stands when a later frame is corrupt. -/
def next (f : Frames) : Option (Except ProbeError Message) × Frames :=
  if f.failed || f.pos = f.bytes.length then (none, f)
  else
    match f.read with
    | .ok (message, aligned) => (some (.ok message), { f with pos := f.pos + aligned })
    | .error e => (some (.error e), { f with failed := true })

end Frames

/-! ## What a batch is made of -/

/-- The length of the frame that some bytes begin with, padding included. -/
def nextFrame (l : Bytes) : Option ℕ :=
  (readU32 l 0).bind fun n => if 16 ≤ n.toNat ∧ align n.toNat ≤ l.length then
    some (align n.toNat) else none

/-- A frame, from its bytes. -/
def Message.ofBytes (l : Bytes) : Message where
  kind := (readU16 l 4).getD 0
  flags := (readU16 l 6).getD 0
  sequence := (readU32 l 8).getD 0
  body := (l.take ((readU32 l 0).getD 0).toNat).drop 16

/-- What the reader gives next, or that the rest is broken. -/
inductive Piece
  | frame (message : Message) (last : Bool)
  | broken
  deriving DecidableEq

/-- Frames and the bytes after them. -/
def Piece.ofFrames : List Message → Bytes → List Piece
  | [], rest => if rest = [] then [] else [.broken]
  | m :: ms, rest => .frame m (decide (ms = [] ∧ rest = [])) :: ofFrames ms rest

/-- The pieces of some bytes of a batch. -/
def piecesOf (l : Bytes) : List Piece :=
  Piece.ofFrames ((records nextFrame l).1.map .ofBytes) (records nextFrame l).2

/-- The pieces of a batch. One that is empty or too long is not read at all. -/
def pieces (batch : Bytes) : List Piece :=
  if batch.isEmpty || batch.length > 1024 * 1024 then [.broken] else piecesOf batch

/-- A frame takes up some bytes, and no more than there are. -/
theorem isNext_nextFrame : IsNext nextFrame := by
  intro l n h
  obtain ⟨k, -, h⟩ := Option.bind_eq_some_iff.1 h
  split_ifs at h with hk
  obtain rfl := Option.some.inj h
  have := Zygisk.le_align k.toNat
  omega

/-- Without bytes there are no pieces. -/
theorem piecesOf_nil : piecesOf [] = [] := by
  rw [piecesOf, records_nil isNext_nextFrame]
  rfl

/-- A rest that is no frame is broken. -/
theorem piecesOf_broken {l : Bytes} (hl : l ≠ []) (h : nextFrame l = none) :
    piecesOf l = [.broken] := by
  rw [piecesOf, records_of_none h]
  simp [Piece.ofFrames, hl]

/-- A frame is the last one if nothing is left after it. -/
theorem piecesOf_frame {l : Bytes} {n : ℕ} (h : nextFrame l = some n) :
    piecesOf l = .frame (.ofBytes (l.take n)) (decide (l.drop n = [])) :: piecesOf (l.drop n) := by
  have hend : (records nextFrame (l.drop n)).1 = [] ∧ (records nextFrame (l.drop n)).2 = [] ↔
      l.drop n = [] := by
    constructor
    · rintro ⟨h₁, h₂⟩
      rw [← flatten_records isNext_nextFrame (l.drop n), h₁, h₂]
      rfl
    · intro hnil
      rw [hnil, records_nil isNext_nextFrame]
      exact ⟨rfl, rfl⟩
  rw [piecesOf, records_of_some isNext_nextFrame h]
  simp only [List.map_cons, Piece.ofFrames, List.map_eq_nil_iff, hend]
  rfl

/-- A batch has some piece. -/
theorem pieces_ne_nil (batch : Bytes) : pieces batch ≠ [] := by
  unfold pieces
  split
  · simp
  · rename_i h
    have hne : batch ≠ [] := by
      rintro rfl
      simp at h
    cases hnext : nextFrame batch with
    | none =>
      rw [piecesOf_broken hne hnext]
      simp
    | some n =>
      rw [piecesOf_frame hnext]
      simp

/-! ## The cursor -/

section Cursor

variable {f : Frames}

/-- The reader at the end. -/
theorem next_end (h : f.bytes.drop f.pos = []) (hpos : f.pos ≤ f.bytes.length) :
    f.next = (none, f) := by
  have hend : f.pos = f.bytes.length := by
    have := List.drop_eq_nil_iff.1 h
    omega
  rw [Frames.next, if_pos]
  simp [hend]

/-- The cursor reads what the rest of the batch begins with. -/
theorem read_eq (hpos : f.pos ≤ f.bytes.length) :
    f.read = match nextFrame (f.bytes.drop f.pos) with
      | some n => .ok (.ofBytes ((f.bytes.drop f.pos).take n), n)
      | none => .error .malformed := by
  have hlen : (f.bytes.drop f.pos).length = f.bytes.length - f.pos := List.length_drop
  -- Reading at the cursor is reading the rest from its start.
  have hshift : ∀ i, readU32 f.bytes (f.pos + i) = readU32 (f.bytes.drop f.pos) i := fun i =>
    (Zygisk.readU32_drop hpos).symm
  have hshift16 : ∀ i, readU16 f.bytes (f.pos + i) = readU16 (f.bytes.drop f.pos) i := fun i =>
    (Zygisk.readU16_drop hpos).symm
  have hbody :
      ∀ n, (f.bytes.take (f.pos + n)).drop (f.pos + 16) =
        ((f.bytes.drop f.pos).take n).drop 16 := by
    intro n
    rw [List.drop_take, List.drop_take, List.drop_drop]
    congr 1
    omega
  have hzero := hshift 0
  rw [Nat.add_zero] at hzero
  unfold Frames.read u16At u32At
  rw [hshift16, hshift16, hshift, hzero, ← hlen]
  generalize f.bytes.drop f.pos = l at hbody ⊢
  -- The header has to fit first, then the aligned length.
  cases hread : readU32 l 0 with
  | none =>
    have hnext : nextFrame l = none := by simp [nextFrame, hread]
    rw [hnext]
    rfl
  | some k =>
    have hle := Zygisk.le_align k.toNat
    dsimp only [okOr, bind, Except.bind]
    by_cases hk : 16 ≤ k.toNat ∧ align k.toNat ≤ l.length
    · obtain ⟨kind, hkind⟩ := Zygisk.exists_readU16 (show 4 + 2 ≤ l.length by omega)
      obtain ⟨flags, hflags⟩ := Zygisk.exists_readU16 (show 6 + 2 ≤ l.length by omega)
      obtain ⟨sequence, hsequence⟩ := Zygisk.exists_readU32 (show 8 + 4 ≤ l.length by omega)
      have hnext : nextFrame l = some (align k.toNat) := by simp [nextFrame, hread, hk]
      have hmessage :
          Message.ofBytes (l.take (align k.toNat)) =
            ⟨kind, flags, sequence, (l.take k.toNat).drop 16⟩ := by
        unfold Message.ofBytes
        rw [Zygisk.readU16_take (by omega), Zygisk.readU16_take (by omega),
          Zygisk.readU32_take (by omega), Zygisk.readU32_take (by omega), hkind, hflags, hsequence,
          hread, List.take_take]
        simp only [Option.getD_some, Nat.min_eq_left hle]
      have hlength : ¬(k.toNat < 16 || k.toNat > l.length) = true := by
        simp only [Bool.or_eq_true, decide_eq_true_eq]
        omega
      rw [hnext, if_neg hlength, if_neg (by omega), hkind, hflags, hsequence, hbody]
      exact congrArg (fun m => Except.ok (m, align k.toNat)) hmessage.symm
    · have hnext : nextFrame l = none := by simp [nextFrame, hread, hk]
      rw [hnext]
      split_ifs with hlength haligned
      · rfl
      · rfl
      · simp only [Bool.or_eq_true, decide_eq_true_eq] at hlength
        omega

/-- The reader at a frame. -/
theorem next_frame {n : ℕ} (hfailed : f.failed = false) (hpos : f.pos ≤ f.bytes.length)
    (h : nextFrame (f.bytes.drop f.pos) = some n) :
    f.next = (some (.ok (.ofBytes ((f.bytes.drop f.pos).take n))),
      { f with pos := f.pos + n }) := by
  have hne : f.pos ≠ f.bytes.length := by
    have := isNext_nextFrame _ _ h
    rw [List.length_drop] at this
    omega
  rw [Frames.next, if_neg (by simp [hfailed, hne]), read_eq hpos, h]

/-- The reader at a rest that is no frame. -/
theorem next_broken (hfailed : f.failed = false) (hpos : f.pos ≤ f.bytes.length)
    (hrest : f.bytes.drop f.pos ≠ []) (h : nextFrame (f.bytes.drop f.pos) = none) :
    f.next = (some (.error .malformed), { f with failed := true }) := by
  have hne : f.pos ≠ f.bytes.length := by
    intro heq
    rw [heq, List.drop_length] at hrest
    exact hrest rfl
  rw [Frames.next, if_neg (by simp [hfailed, hne]), read_eq hpos, h]

/-- The cursor moves on, within the batch. -/
theorem next_advances {f' : Frames} {m : Message} (h : f.next = (some (.ok m), f')) :
    f'.bytes = f.bytes ∧ f.pos < f'.pos ∧ f'.pos ≤ f.bytes.length := by
  unfold Frames.next at h
  split at h
  · cases h
  · rename_i hrun
    by_cases hpos : f.pos ≤ f.bytes.length
    · rw [read_eq hpos] at h
      cases hnext : nextFrame (f.bytes.drop f.pos) with
      | none => simp [hnext] at h
      | some n =>
        have hn := isNext_nextFrame _ _ hnext
        rw [List.length_drop] at hn
        simp only [hnext, Prod.mk.injEq] at h
        obtain ⟨-, rfl⟩ := h
        exact ⟨rfl, by dsimp only; omega, by dsimp only; omega⟩
    · -- beyond the end there is no length to read
      have hread : f.read = .error .malformed := by
        unfold Frames.read u32At
        rw [Zygisk.readU32_eq_none (by omega)]
        rfl
      rw [hread] at h
      cases h

end Cursor

/-! ## The reader -/

/-- The reader of a dump. -/
structure Dump where
  sequence : UInt32
  dataKind : UInt16
  done : Bool
  failed : Bool
  deriving DecidableEq

/-- The callback: its answer to a body, which is the last of those it has received. -/
abbrev Callback := List Bytes → Except ProbeError Unit

/-- The error that an error frame carries. -/
def frameError (body : Bytes) : ProbeError :=
  match readU32 body 0 with
  | none => .malformed
  | some v =>
    let code := v.toBitVec.toInt
    if code ≠ -2 ^ 31 ∧ 0 < -code then .errno (-code) else .malformed

/-- The status of a `DONE` frame, if there is one, is zero. -/
def doneStatus (body : Bytes) : Bool :=
  (body.length = 0 || body.length = 4) && !(body.length = 4 && readU32 body 0 ≠ some 0)

namespace Dump

/-- The reader before the first batch. -/
def new (sequence : UInt32) (dataKind : UInt16) : Dump := ⟨sequence, dataKind, false, false⟩

/-- The loop of `consume_inner`; `received` are the bodies that the callback has been given. -/
def consumeFrames (data : Callback) (d : Dump) (f : Frames) (received : List Bytes) :
    Except ProbeError Bool × Dump × List Bytes :=
  match _h : f.next with
  | (none, _) => (.ok d.done, d, received)
  | (some (.error e), _) => (.error e, d, received)
  | (some (.ok frame), f') =>
    if frame.sequence ≠ d.sequence || frame.flags &&& 0x10 ≠ 0 then (.error .malformed, d, received)
    else if frame.kind = 3 then
      if f'.pos ≠ f.bytes.length || !doneStatus frame.body then (.error .malformed, d, received)
      else consumeFrames data { d with done := true } f' received
    else if frame.kind = 2 then (.error (frameError frame.body), d, received)
    else if frame.kind = d.dataKind then
      match data (received ++ [frame.body]) with
      | .error e => (.error e, d, received ++ [frame.body])
      | .ok _ => consumeFrames data d f' (received ++ [frame.body])
    else (.error .malformed, d, received)
termination_by f.bytes.length - f.pos
decreasing_by
  all_goals
    obtain ⟨hbytes, hlt, hle⟩ := next_advances _h
    rw [hbytes]
    omega

/-- `consume` without its guard: a batch is cut into frames, which are taken one after the other. -/
def consumeInner (data : Callback) (d : Dump) (bytes : Bytes) (received : List Bytes) :
    Except ProbeError Bool × Dump × List Bytes :=
  match Frames.new bytes with
  | .error e => (.error e, d, received)
  | .ok f => consumeFrames data d f received

/-- `consume`: nothing is read after the end, or after an error. -/
def consume (data : Callback) (d : Dump) (bytes : Bytes) (received : List Bytes) :
    Except ProbeError Bool × Dump × List Bytes :=
  if d.done || d.failed then (.error .malformed, d, received)
  else
    match consumeInner data d bytes received with
    | (.error e, d, received) => (.error e, { d with failed := true }, received)
    | (.ok done, d, received) => (.ok done, d, received)

/-- A batch after another: each answer, with the bodies that have been received by then. -/
def run (data : Callback) (d : Dump) (received : List Bytes) :
    List Bytes → List (Except ProbeError Bool × List Bytes)
  | [] => []
  | batch :: rest =>
    let (answer, d, received) := d.consume data batch received
    (answer, received) :: run data d received rest

end Dump

/-! ## Defects -/

section Defects

variable (sequence : UInt32) (dataKind : UInt16) (data : Callback)

/-- The bodies of the data frames. -/
def bodies (l : List Piece) : List Bytes :=
  l.filterMap fun
    | .frame m _ => if m.kind = dataKind then some m.body else none
    | .broken => none

/-- A frame that ends the dump. -/
def Piece.isDone : Piece → Bool
  | .frame m _ => m.kind = 3
  | .broken => false

/-- There is a `DONE` frame. -/
def ended (l : List Piece) : Bool := l.any Piece.isDone

/-- A piece that ends the dump with an error, after some pieces without defect. -/
def Defect (before : List Piece) : Piece → Prop
  | .broken => True
  | .frame m last =>
    ended before ∨ m.sequence ≠ sequence ∨ m.flags &&& 0x10 ≠ 0 ∨
      m.kind = 3 ∧ (last = false ∨ doneStatus m.body = false) ∨ m.kind = 2 ∨
      (m.kind ≠ 2 ∧ m.kind ≠ 3 ∧ m.kind ≠ dataKind) ∨
      m.kind = dataKind ∧ ∃ e, data (bodies dataKind before ++ [m.body]) = .error e

/-- The body of a frame at which nothing is wrong but the callback's answer. -/
def refused (before : List Piece) : Piece → List Bytes
  | .broken => []
  | .frame m _ =>
    if ended before = false ∧ m.sequence = sequence ∧ m.flags &&& 0x10 = 0 ∧ m.kind = dataKind then
      [m.body] else []

/-- The bodies of two groups of pieces. -/
theorem bodies_append (l t : List Piece) :
    bodies dataKind (l ++ t) = bodies dataKind l ++ bodies dataKind t :=
  List.filterMap_append

theorem ended_append (l t : List Piece) : ended (l ++ t) = (ended l || ended t) := List.any_append

end Defects

/-! ## One batch -/

namespace Dump

variable {sequence : UInt32} {dataKind : UInt16} {data : Callback} {d : Dump} {f f' : Frames}
  {received : List Bytes}

/-- Without further frames the batch is over. -/
theorem consumeFrames_end (h : f.next = (none, f')) :
    consumeFrames data d f received = (.ok d.done, d, received) := by
  unfold consumeFrames
  split <;> rename_i heq <;> rw [h] at heq <;> cases heq

/-- A rest that is broken is an error. -/
theorem consumeFrames_broken {e : ProbeError} (h : f.next = (some (.error e), f')) :
    consumeFrames data d f received = (.error e, d, received) := by
  unfold consumeFrames
  split <;> rename_i heq <;> rw [h] at heq <;> cases heq
  rfl

/-- What becomes of a frame. -/
theorem consumeFrames_frame {m : Message} (h : f.next = (some (.ok m), f')) :
    consumeFrames data d f received =
      if m.sequence ≠ d.sequence || m.flags &&& 0x10 ≠ 0 then (.error .malformed, d, received)
      else if m.kind = 3 then
        if f'.pos ≠ f.bytes.length || !doneStatus m.body then (.error .malformed, d, received)
        else consumeFrames data { d with done := true } f' received
      else if m.kind = 2 then (.error (frameError m.body), d, received)
      else if m.kind = d.dataKind then
        match data (received ++ [m.body]) with
        | .error e => (.error e, d, received ++ [m.body])
        | .ok _ => consumeFrames data d f' (received ++ [m.body])
      else (.error .malformed, d, received) := by
  rw [consumeFrames]
  split <;> rename_i heq <;> rw [h] at heq <;> cases heq
  rfl

section Batch

variable (hkind₂ : dataKind ≠ 2) (hkind₃ : dataKind ≠ 3)

include hkind₂ hkind₃

/-- What is read of a defect: its body, if only the callback objects to it. -/
theorem consumeFrames_defect {m : Message} {last : Bool} {before : List Piece}
    (hopen : ended before = false) (h : f.next = (some (.ok m), f'))
    (hlast : last = decide (f'.pos = f.bytes.length))
    (hbad : Defect sequence dataKind data before (.frame m last)) :
    ∃ e d', consumeFrames data ⟨sequence, dataKind, false, false⟩ f (bodies dataKind before) =
      (.error e, d',
        bodies dataKind before ++ refused sequence dataKind before (.frame m last)) := by
  rw [consumeFrames_frame h]
  by_cases hheader : m.sequence ≠ sequence ∨ m.flags &&& 0x10 ≠ 0
  · have hrefused : refused sequence dataKind before (.frame m last) = [] := if_neg (by tauto)
    rw [if_pos (by simpa using hheader), hrefused, List.append_nil]
    exact ⟨_, _, rfl⟩
  · rw [if_neg (by simpa using hheader)]
    push Not at hheader
    simp only [Defect, hopen, hheader, ne_eq, not_true_eq_false, Bool.false_eq_true, false_or]
      at hbad
    by_cases hdone : m.kind = 3
    · have hrefused : refused sequence dataKind before (.frame m last) = [] :=
        if_neg (by rw [hdone]; tauto)
      have hstatus : last = false ∨ doneStatus m.body = false := by
        simpa [hdone, hkind₃.symm] using hbad
      rw [if_pos hdone, if_pos, hrefused, List.append_nil]
      · exact ⟨_, _, rfl⟩
      · rw [hlast] at hstatus
        simpa using hstatus
    · rw [if_neg hdone]
      by_cases herror : m.kind = 2
      · have hrefused : refused sequence dataKind before (.frame m last) = [] :=
          if_neg (by rw [herror]; tauto)
        rw [if_pos herror, hrefused, List.append_nil]
        exact ⟨_, _, rfl⟩
      · rw [if_neg herror]
        by_cases hdata : m.kind = dataKind
        · have hrefused : refused sequence dataKind before (.frame m last) = [m.body] :=
            if_pos ⟨hopen, hheader.1, hheader.2, hdata⟩
          obtain ⟨e, he⟩ : ∃ e, data (bodies dataKind before ++ [m.body]) = .error e := by
            simpa [hdone, herror, hdata, hkind₂, hkind₃] using hbad
          rw [if_pos hdata, he, hrefused]
          exact ⟨_, _, rfl⟩
        · have hrefused : refused sequence dataKind before (.frame m last) = [] := if_neg (by tauto)
          rw [if_neg hdata, hrefused, List.append_nil]
          exact ⟨_, _, rfl⟩

omit hkind₂ hkind₃ in
/-- A frame without defect: `DONE`, with which the batch is read, or a body for the callback. -/
theorem consumeFrames_fine {m : Message} {last : Bool} {before : List Piece}
    (h : f.next = (some (.ok m), f')) (hlast : last = decide (f'.pos = f.bytes.length))
    (hfine : ¬Defect sequence dataKind data before (.frame m last)) :
    m.kind = 3 ∧ last = true ∧
        consumeFrames data ⟨sequence, dataKind, false, false⟩ f (bodies dataKind before) =
          consumeFrames data ⟨sequence, dataKind, true, false⟩ f' (bodies dataKind before) ∨
      m.kind = dataKind ∧
        consumeFrames data ⟨sequence, dataKind, false, false⟩ f (bodies dataKind before) =
          consumeFrames data ⟨sequence, dataKind, false, false⟩ f'
            (bodies dataKind before ++ [m.body]) := by
  unfold Defect at hfine
  push Not at hfine
  obtain ⟨-, hsequence, hflags, hdone, herror, hunknown, hcallback⟩ := hfine
  rw [consumeFrames_frame h, if_neg (by simp [hsequence, hflags])]
  by_cases hkind : m.kind = 3
  · obtain ⟨hl, hstatus⟩ := hdone hkind
    have hend : f'.pos = f.bytes.length := by
      rw [hlast] at hl
      simpa using hl
    rw [if_pos hkind, if_neg (by simpa [hend] using hstatus)]
    exact .inl ⟨hkind, by simpa using hl, rfl⟩
  · have hdata : m.kind = dataKind := hunknown herror hkind
    rw [if_neg hkind, if_neg herror, if_pos hdata]
    cases hanswer : data (bodies dataKind before ++ [m.body]) with
    | error e => exact absurd hanswer (hcallback hdata e)
    | ok _ => exact .inr ⟨hdata, rfl⟩

/-- The rest of a batch is read up to its first defect. -/
theorem consumeFrames_spec {before : List Piece} (hfailed : f.failed = false)
    (hpos : f.pos ≤ f.bytes.length) (hclean : Clean (Defect sequence dataKind data) before)
    (hopen : ended before = false) {rest : Bytes}
    (hrest : f.bytes.drop f.pos = rest) :
    Clean (Defect sequence dataKind data) (before ++ piecesOf rest) ∧
        consumeFrames data ⟨sequence, dataKind, false, false⟩ f (bodies dataKind before) =
          (.ok (ended (piecesOf rest)), ⟨sequence, dataKind, ended (piecesOf rest), false⟩,
            bodies dataKind (before ++ piecesOf rest)) ∨
      ∃ p₁ p p₂ e d', piecesOf rest = p₁ ++ p :: p₂ ∧
        Clean (Defect sequence dataKind data) (before ++ p₁) ∧
        Defect sequence dataKind data (before ++ p₁) p ∧
        consumeFrames data ⟨sequence, dataKind, false, false⟩ f (bodies dataKind before) =
          (.error e, d', bodies dataKind (before ++ p₁) ++
            refused sequence dataKind (before ++ p₁) p) := by
  induction rest using records_induction isNext_nextFrame generalizing f before with
  | tail rest hnone =>
    by_cases hnil : rest = []
    · subst hnil
      rw [piecesOf_nil, List.append_nil, consumeFrames_end (next_end hrest hpos)]
      exact .inl ⟨hclean, rfl⟩
    · subst hrest
      rw [piecesOf_broken hnil hnone, consumeFrames_broken (next_broken hfailed hpos hnil hnone)]
      refine .inr ⟨[], .broken, [], .malformed, ⟨sequence, dataKind, false, false⟩,
        rfl, ?_, trivial, ?_⟩
      · rwa [List.append_nil]
      · rw [List.append_nil, refused, List.append_nil]
  | record rest n hsome ih =>
    subst hrest
    have hnext := next_frame hfailed hpos hsome
    have hn := isNext_nextFrame _ _ hsome
    rw [List.length_drop] at hn
    -- what is left after this frame
    have hdrop : f.bytes.drop (f.pos + n) = (f.bytes.drop f.pos).drop n := by rw [List.drop_drop]
    have hlast :
        decide ((f.bytes.drop f.pos).drop n = []) = decide (f.pos + n = f.bytes.length) := by
      rw [← hdrop]
      refine decide_eq_decide.2 (List.drop_eq_nil_iff.trans ?_)
      omega
    rw [piecesOf_frame hsome]
    set m := Message.ofBytes ((f.bytes.drop f.pos).take n)
    set last := decide ((f.bytes.drop f.pos).drop n = [])
    by_cases hbad : Defect sequence dataKind data before (.frame m last)
    · obtain ⟨e, d', hresult⟩ := consumeFrames_defect hkind₂ hkind₃ hopen hnext hlast hbad
      refine .inr ⟨[], .frame m last, _, e, d', rfl, ?_, ?_, ?_⟩
      · rwa [List.append_nil]
      · rwa [List.append_nil]
      · rwa [List.append_nil]
    · have hclean' := hclean.concat hbad
      obtain ⟨hkind, hl', hstep⟩ | ⟨hkind, hstep⟩ := consumeFrames_fine hnext hlast hbad
      · -- `DONE` is the last piece of its batch
        have hnil : (f.bytes.drop f.pos).drop n = [] := of_decide_eq_true hl'
        have hf' : f.bytes.drop (f.pos + n) = [] := hdrop.trans hnil
        rw [hstep, consumeFrames_end (next_end hf' (by dsimp only; omega)), hnil, piecesOf_nil]
        refine .inl ⟨hclean', ?_⟩
        have hended : ended [.frame m last] = true := by simp [ended, Piece.isDone, hkind]
        have hbodies : bodies dataKind [.frame m last] = [] := by simp [bodies, hkind, hkind₃.symm]
        rw [hended, bodies_append, hbodies, List.append_nil]
      · have hended : ended [.frame m last] = false := by simp [ended, Piece.isDone, hkind, hkind₃]
        have hopen' : ended (before ++ [.frame m last]) = false := by
          rw [ended_append, hopen, hended]; rfl
        have hbodies :
            bodies dataKind (before ++ [.frame m last]) = bodies dataKind before ++ [m.body] := by
          simp [bodies, hkind]
        have hcons : ∀ t, before ++ .frame m last :: t = before ++ [.frame m last] ++ t := by simp
        have hended' : ∀ t, ended (.frame m last :: t) = ended t := by
          intro t
          rw [← List.singleton_append, ended_append, hended, Bool.false_or]
        rw [hstep, ← hbodies, hcons, hended']
        obtain hok | ⟨p₁, p, p₂, e, d', heq, hclean₁, hdefect, hresult⟩ :=
          ih (f := { f with pos := f.pos + n }) hfailed (by dsimp only; omega) hclean' hopen' hdrop
        · exact .inl hok
        · refine .inr ⟨.frame m last :: p₁, p, p₂, e, d', ?_, ?_, ?_, ?_⟩
          · rw [heq, List.cons_append]
          · rwa [hcons]
          · rwa [hcons]
          · rwa [hcons p₁]

/-- A batch is read up to its first defect, and the dump is closed by a defect or by `DONE`. -/
theorem consume_spec {before : List Piece} (hclean : Clean (Defect sequence dataKind data) before)
    (hopen : ended before = false) (batch : Bytes) :
    Clean (Defect sequence dataKind data) (before ++ pieces batch) ∧
        consume data ⟨sequence, dataKind, false, false⟩ batch (bodies dataKind before) =
          (.ok (ended (pieces batch)), ⟨sequence, dataKind, ended (pieces batch), false⟩,
            bodies dataKind (before ++ pieces batch)) ∨
      ∃ p₁ p p₂ e d', pieces batch = p₁ ++ p :: p₂ ∧
        Clean (Defect sequence dataKind data) (before ++ p₁) ∧
        Defect sequence dataKind data (before ++ p₁) p ∧ d'.failed = true ∧
        consume data ⟨sequence, dataKind, false, false⟩ batch (bodies dataKind before) =
          (.error e, d', bodies dataKind (before ++ p₁) ++
            refused sequence dataKind (before ++ p₁) p) := by
  unfold consume consumeInner
  simp only [Bool.or_self, Bool.false_eq_true, if_false]
  by_cases hsize : (batch.isEmpty || batch.length > 1024 * 1024) = true
  · rw [Frames.new, pieces, if_pos hsize, if_pos hsize]
    refine .inr ⟨[], .broken, [], .malformed, ⟨sequence, dataKind, false, true⟩, rfl,
      ?_, trivial, rfl, ?_⟩
    · rwa [List.append_nil]
    · rw [List.append_nil, refused, List.append_nil]
  · rw [Frames.new, pieces, if_neg hsize, if_neg hsize]
    dsimp only
    obtain ⟨hok, hresult⟩ | ⟨p₁, p, p₂, e, d', heq, hclean₁, hdefect, hresult⟩ :=
      consumeFrames_spec hkind₂ hkind₃ (f := ⟨batch, 0, false⟩) rfl (Nat.zero_le _) hclean hopen rfl
    · rw [List.drop_zero] at hok hresult
      rw [hresult]
      exact .inl ⟨hok, rfl⟩
    · rw [List.drop_zero] at heq
      rw [hresult]
      exact .inr ⟨p₁, p, p₂, e, { d' with failed := true }, heq, hclean₁, hdefect, rfl, rfl⟩

end Batch

/-- After the end every call is refused. -/
theorem run_closed (hclosed : d.done = true ∨ d.failed = true) (batches : List Bytes) :
    ∀ r ∈ run data d received batches, r = (.error .malformed, received) := by
  have hconsume : ∀ batch, consume data d batch received = (.error .malformed, d, received) := by
    intro batch
    rw [consume, if_pos (by simpa using hclosed)]
  induction batches with
  | nil => simp [run]
  | cons batch rest ih =>
    intro r hr
    rw [run, hconsume] at hr
    obtain rfl | hr := List.mem_cons.1 hr
    · rfl
    · exact ih r hr

end Dump

/-! ## The whole dump -/

/-- The pieces of some batches. -/
def stream (batches : List Bytes) : List Piece := batches.flatMap pieces

/-- The answer to a batch, with what has been delivered by then, when the pieces up to its end
    are `all` and its own are `own`. -/
inductive Verdict (sequence : UInt32) (dataKind : UInt16) (data : Callback) (all own : List Piece) :
    Except ProbeError Bool × List Bytes → Prop
  | going : Clean (Defect sequence dataKind data) all → ended all = false →
    Verdict sequence dataKind data all own (.ok false, bodies dataKind all)
  | done : Clean (Defect sequence dataKind data) all → ended own = true →
    Verdict sequence dataKind data all own (.ok true, bodies dataKind all)
  | failed {p₁ p₂ : List Piece} {p : Piece} {e : ProbeError} : all = p₁ ++ p :: p₂ →
    Clean (Defect sequence dataKind data) p₁ → Defect sequence dataKind data p₁ p →
    Verdict sequence dataKind data all own
      (.error e, bodies dataKind p₁ ++ refused sequence dataKind p₁ p)

section Run

variable {sequence : UInt32} {dataKind : UInt16} {data : Callback}

/-- After the end of a dump, the next piece is a defect. -/
theorem defect_of_ended (sequence : UInt32) (dataKind : UInt16) (data : Callback)
    {before : List Piece} (h : ended before = true) (p : Piece) :
    Defect sequence dataKind data before p ∧ refused sequence dataKind before p = [] := by
  cases p with
  | broken => exact ⟨trivial, rfl⟩
  | frame m last => exact ⟨.inl h, if_neg fun h' => by simp [h] at h'⟩

/-- What every call of a run answers. -/
theorem run_verdict (hkind₂ : dataKind ≠ 2) (hkind₃ : dataKind ≠ 3) (batches : List Bytes)
    {before : List Piece} (hclean : Clean (Defect sequence dataKind data) before)
    (hopen : ended before = false) {n : ℕ} {batch : Bytes}
    {r : Except ProbeError Bool × List Bytes} (hbatch : batches[n]? = some batch)
    (hr : (Dump.run data ⟨sequence, dataKind, false, false⟩ (bodies dataKind before) batches)[n]? =
      some r) :
    Verdict sequence dataKind data (before ++ stream (batches.take (n + 1))) (pieces batch) r := by
  induction batches generalizing before n with
  | nil => simp at hbatch
  | cons first rest ih =>
    have htake : stream ((first :: rest).take (n + 1)) = pieces first ++ stream (rest.take n) := by
      simp [stream]
    rw [htake]
    rw [Dump.run] at hr
    obtain ⟨hok, hresult⟩ | ⟨p₁, p, p₂, e, d', heq, hclean₁, hdefect, hfailed, hresult⟩ :=
      Dump.consume_spec hkind₂ hkind₃ hclean hopen first
    · rw [hresult] at hr
      cases n with
      | zero =>
        obtain rfl : first = batch := by simpa using hbatch
        obtain rfl := Option.some.inj (by simpa using hr)
        simp only [List.take_zero, stream, List.flatMap_nil, List.append_nil]
        cases hended : ended (pieces first) with
        | true => exact .done hok hended
        | false => exact .going hok (by rw [ended_append, hopen, hended]; rfl)
      | succ n =>
        simp only [List.getElem?_cons_succ] at hbatch hr
        cases hended : ended (pieces first) with
        | true =>
          -- the dump is over, and the first piece of the next batch is a defect
          rw [hended] at hr
          obtain rfl := Dump.run_closed (.inl rfl) rest r (List.mem_of_getElem? hr)
          obtain ⟨next, rest, rfl⟩ :=
            List.exists_cons_of_ne_nil (List.ne_nil_of_mem (List.mem_of_getElem? hbatch))
          obtain ⟨q, qs, hq⟩ := List.exists_cons_of_ne_nil (pieces_ne_nil next)
          have hall : before ++ (pieces first ++ stream ((next :: rest).take (n + 1))) =
              (before ++ pieces first) ++ q :: (qs ++ stream (rest.take n)) := by
            simp [stream, hq]
          have hend : ended (before ++ pieces first) = true := by
            rw [ended_append, hended, Bool.or_true]
          obtain ⟨hdefect, hrefused⟩ := defect_of_ended sequence dataKind data hend q
          have hverdict :
              Verdict sequence dataKind data
                ((before ++ pieces first) ++ q :: (qs ++ stream (rest.take n)))
              (pieces batch) (.error .malformed, bodies dataKind (before ++ pieces first) ++
                refused sequence dataKind _ q) :=
            .failed rfl hok hdefect
          rw [hrefused, List.append_nil] at hverdict
          rwa [hall]
        | false =>
          rw [hended] at hr
          have hopen' : ended (before ++ pieces first) = false := by
            rw [ended_append, hopen, hended]; rfl
          rw [← List.append_assoc]
          exact ih hok hopen' hbatch hr
    · rw [hresult] at hr
      have hall : before ++ (pieces first ++ stream (rest.take n)) = (before ++ p₁) ++ p ::
          (p₂ ++ stream (rest.take n)) := by
        simp [heq]
      rw [hall]
      cases n with
      | zero =>
        obtain rfl := Option.some.inj (by simpa using hr)
        exact .failed rfl hclean₁ hdefect
      | succ n =>
        obtain rfl :=
          Dump.run_closed (.inr hfailed) rest r (List.mem_of_getElem? (by simpa using hr))
        exact .failed rfl hclean₁ hdefect

theorem length_run (data : Callback) (d : Dump) (received : List Bytes) (batches : List Bytes) :
    (Dump.run data d received batches).length = batches.length := by
  induction batches generalizing d received with
  | nil => rfl
  | cons batch rest ih =>
    rw [Dump.run]
    simp [ih]

namespace Verdict

variable {all own own' more : List Piece} {p : Piece} {r r' : Except ProbeError Bool × List Bytes}

/-- Nothing is delivered from the first defect on, but the body that the callback refuses. -/
theorem received (h : Verdict sequence dataKind data all own r) {before rest : List Piece}
    (hall : all = before ++ rest) (hclean : Clean (Defect sequence dataKind data) before) :
    (rest = [] → r.2 = bodies dataKind before) ∧
      ∀ p after, rest = p :: after → Defect sequence dataKind data before p →
        r.2 = bodies dataKind before ++ refused sequence dataKind before p := by
  refine ⟨?_, ?_⟩
  · rintro rfl
    rw [List.append_nil] at hall
    subst hall
    cases h with
    | going => rfl
    | done => rfl
    | failed heq _ hdefect =>
      rw [heq] at hclean
      exact absurd hdefect hclean.not_bad
  · rintro p after rfl hdefect
    cases h with
    | going hok =>
      rw [hall] at hok
      exact absurd hdefect hok.not_bad
    | done hok =>
      rw [hall] at hok
      exact absurd hdefect hok.not_bad
    | failed heq hclean' hdefect' =>
      obtain ⟨rfl, rfl⟩ := hclean'.first_unique hdefect' hclean hdefect (heq.symm.trans hall)
      rfl

/-- When the dump is done. -/
theorem done_iff (h : Verdict sequence dataKind data all own r) (hown : ∃ l, all = l ++ own) :
    r.1 = .ok true ↔ Clean (Defect sequence dataKind data) all ∧ ended own = true := by
  obtain ⟨l, hown⟩ := hown
  cases h with
  | going _ hopen =>
    rw [hown, ended_append, Bool.or_eq_false_iff] at hopen
    simp [hopen.2]
  | done hok hended => simp [hok, hended]
  | failed heq _ hdefect =>
    refine iff_of_false (by simp) ?_
    rintro ⟨hok, -⟩
    rw [heq] at hok
    exact hok.not_bad hdefect

/-- When the dump goes on. -/
theorem going_iff (h : Verdict sequence dataKind data all own r) (hown : ∃ l, all = l ++ own) :
    r.1 = .ok false ↔ Clean (Defect sequence dataKind data) all ∧ ended all = false := by
  obtain ⟨l, hown⟩ := hown
  cases h with
  | going hok hopen => simp [hok, hopen]
  | done _ hended =>
    rw [hown, ended_append, hended]
    simp
  | failed heq _ hdefect =>
    refine iff_of_false (by simp) ?_
    rintro ⟨hok, -⟩
    rw [heq] at hok
    exact hok.not_bad hdefect

/-- A dump that is over stays so. -/
theorem later (h : Verdict sequence dataKind data all own r) (hown : ∃ l, all = l ++ own)
    (hclosed : r.1 ≠ .ok false) (h' : Verdict sequence dataKind data (all ++ p :: more) own' r') :
    (∃ e, r'.1 = .error e) ∧ r'.2 = r.2 := by
  -- where the first defect of the longer stream is
  obtain ⟨before, q, rest, hall, hclean, hdefect, hreceived⟩ : ∃ before q rest, all ++ p :: more =
      before ++ q :: rest ∧ Clean (Defect sequence dataKind data) before ∧
        Defect sequence dataKind data before q ∧
      r.2 = bodies dataKind before ++ refused sequence dataKind before q := by
    cases h with
    | going => exact absurd rfl hclosed
    | done hok hended =>
      obtain ⟨l, hown⟩ := hown
      have hend : ended all = true := by rw [hown, ended_append, hended, Bool.or_true]
      obtain ⟨hdefect, hrefused⟩ := defect_of_ended sequence dataKind data hend p
      exact ⟨all, p, more, rfl, hok, hdefect, by rw [hrefused, List.append_nil]⟩
    | @failed p₁ p₂ q e heq hclean hdefect =>
      exact ⟨p₁, q, p₂ ++ p :: more, by simp [heq], hclean, hdefect, rfl⟩
  refine ⟨?_, hreceived ▸ (h'.received hall hclean).2 q rest rfl hdefect⟩
  cases h' with
  | going hok =>
    rw [hall] at hok
    exact absurd hdefect hok.not_bad
  | done hok =>
    rw [hall] at hok
    exact absurd hdefect hok.not_bad
  | failed => exact ⟨_, rfl⟩

end Verdict

/-- One more batch. -/
theorem stream_take_succ {batches : List Bytes} {n : ℕ} {batch : Bytes}
    (h : batches[n]? = some batch) :
    stream (batches.take (n + 1)) = stream (batches.take n) ++ pieces batch := by
  rw [List.take_add_one, h]
  simp [stream]

/-- More batches are more pieces. -/
theorem exists_stream_take {batches : List Bytes} {n m : ℕ} (hnm : n < m)
    (hm : m < batches.length) :
    ∃ p more, stream (batches.take (m + 1)) = stream (batches.take (n + 1)) ++ p :: more := by
  have hn : n + 1 < batches.length := by omega
  obtain ⟨p, more, hp⟩ := List.exists_cons_of_ne_nil (pieces_ne_nil batches[n + 1])
  have hsplit :
      batches.take (m + 1) = batches.take (n + 1) ++ (batches.drop (n + 1)).take (m - n) := by
    rw [← List.take_add]
    congr 1
    omega
  obtain ⟨k, hk⟩ : ∃ k, m - n = k + 1 := ⟨m - n - 1, by omega⟩
  refine ⟨p, more ++ stream ((batches.drop (n + 1 + 1)).take k), ?_⟩
  rw [hsplit, hk, List.drop_eq_getElem_cons hn, List.take_succ_cons]
  simp [stream, hp]

/-- A dump is delivered up to its first defect, with the body that the callback refuses if this
    is the defect. The answer is positive for the batch that ends with `DONE` if there is no
    defect up to its end, and for none after it. -/
theorem dump_run (sequence : UInt32) (dataKind : UInt16) (hkind₂ : dataKind ≠ 2)
    (hkind₃ : dataKind ≠ 3) (data : Callback) (batches : List Bytes) :
    let answers := Dump.run data (.new sequence dataKind) [] batches
    answers.length = batches.length ∧
      ∀ (n : ℕ) (batch : Bytes) (r : Except ProbeError Bool × List Bytes),
        batches[n]? = some batch → answers[n]? = some r →
        let all := stream (batches.take (n + 1))
        (∀ before rest, all = before ++ rest → Clean (Defect sequence dataKind data) before →
            (rest = [] → r.2 = bodies dataKind before) ∧
            ∀ p after, rest = p :: after → Defect sequence dataKind data before p →
              r.2 = bodies dataKind before ++ refused sequence dataKind before p) ∧
          (r.1 = .ok true ↔ Clean (Defect sequence dataKind data) all ∧
            ended (pieces batch) = true) ∧
          (r.1 = .ok false ↔ Clean (Defect sequence dataKind data) all ∧ ended all = false) ∧
          (r.1 ≠ .ok false → ∀ (m : ℕ) (r' : Except ProbeError Bool × List Bytes),
            n < m → answers[m]? = some r' → (∃ e, r'.1 = .error e) ∧ r'.2 = r.2) := by
  intro answers
  have hlength : answers.length = batches.length := length_run data _ [] batches
  -- A call is judged by all that has come before it, since the state carries no more than that.
  have hverdict : ∀ {n batch r}, batches[n]? = some batch → answers[n]? = some r →
      Verdict sequence dataKind data (stream (batches.take (n + 1))) (pieces batch) r := by
    intro n batch r hbatch hr
    exact run_verdict hkind₂ hkind₃ batches (clean_nil _) rfl hbatch hr
  refine ⟨hlength, ?_⟩
  intro n batch r hbatch hr all
  have h := hverdict hbatch hr
  have hown : ∃ l, all = l ++ pieces batch := ⟨_, stream_take_succ hbatch⟩
  refine ⟨fun before rest hall hclean => h.received hall hclean, h.done_iff hown,
    h.going_iff hown, ?_⟩
  intro hclosed m r' hnm hr'
  have hm : m < batches.length := by
    rw [← hlength]
    exact (List.getElem?_eq_some_iff.1 hr').1
  -- Once a dump has closed, each later call is refused and adds nothing.
  obtain ⟨p, more, hmore⟩ := exists_stream_take hnm hm
  have h' := hverdict (List.getElem?_eq_getElem hm) hr'
  rw [hmore] at h'
  exact h.later hown hclosed h'

/-- A batch of one frame. -/
theorem pieces_single {batch : Bytes}
    (hsize : ¬(batch.isEmpty || batch.length > 1024 * 1024) = true)
    (h : nextFrame batch = some batch.length) : pieces batch = [.frame (.ofBytes batch) true] := by
  rw [pieces, if_neg hsize, piecesOf_frame h, List.drop_length, piecesOf_nil, List.take_length]
  rfl

/-- `DONE` without a status. -/
def doneFrame : Bytes := [16, 0, 0, 0, 3, 0, 2, 0, 1, 0, 0, 0, 0, 0, 0, 0]

theorem pieces_doneFrame : pieces doneFrame = [.frame ⟨3, 2, 1, []⟩ true] :=
  pieces_single (by decide) rfl

/-- A frame of data, with a number. -/
def dataFrame (value : UInt8) : Bytes :=
  [20, 0, 0, 0, 16, 0, 2, 0, 1, 0, 0, 0, 0, 0, 0, 0, value, 0, 0, 0]

theorem pieces_dataFrame : pieces (dataFrame 7) = [.frame ⟨16, 2, 1, [7, 0, 0, 0]⟩ true] :=
  pieces_single (by decide) rfl

theorem pieces_dataFrame_doneFrame : pieces (dataFrame 9 ++ doneFrame) =
    [.frame ⟨16, 2, 1, [9, 0, 0, 0]⟩ false, .frame ⟨3, 2, 1, []⟩ true] := by
  have hdone := pieces_doneFrame
  have hfirst : nextFrame (dataFrame 9 ++ doneFrame) = some 20 := rfl
  rw [pieces, if_neg (by decide)] at hdone
  rw [pieces, if_neg (by decide), piecesOf_frame hfirst]
  exact congrArg (_ :: ·) hdone

/-- Data in two batches, the second of which ends the dump. -/
theorem dump_run_twoFrames :
    (16 : UInt16) ≠ 2 ∧ (16 : UInt16) ≠ 3 ∧
      ∃ r, (Dump.run (fun _ => .ok ()) (.new 1 16) [] [dataFrame 7, dataFrame 9 ++ doneFrame])[1]? =
        some r ∧ r.1 = .ok true ∧ r.2 = [[7, 0, 0, 0], [9, 0, 0, 0]] := by
  obtain ⟨hlength, hall⟩ :=
    dump_run 1 16 (by decide) (by decide) (fun _ => .ok ()) [dataFrame 7, dataFrame 9 ++ doneFrame]
  have hsome :
      (Dump.run (fun _ => .ok ()) (.new 1 16) [] [dataFrame 7, dataFrame 9 ++ doneFrame])[1]? =
        some _ :=
    List.getElem?_eq_getElem (by rw [hlength]; decide)
  obtain ⟨hreceived, hdone, -⟩ := hall 1 (dataFrame 9 ++ doneFrame) _ rfl hsome
  have hstream : stream ([dataFrame 7, dataFrame 9 ++ doneFrame].take (1 + 1)) =
      [.frame ⟨16, 2, 1, [7, 0, 0, 0]⟩ true] ++ [.frame ⟨16, 2, 1, [9, 0, 0, 0]⟩ false] ++
        [.frame ⟨3, 2, 1, []⟩ true] := by
    simp [stream, pieces_dataFrame, pieces_dataFrame_doneFrame]
  have hflags : (2 : UInt16) &&& 16 = 0 := rfl
  have hclean :
      Clean (Defect 1 16 fun _ => .ok ())
        (stream ([dataFrame 7, dataFrame 9 ++ doneFrame].take (1 + 1))) := by
    rw [hstream]
    refine (((clean_nil _).concat ?_).concat ?_).concat ?_
    · simp [Defect, ended, hflags]
    · simp [Defect, ended, Piece.isDone, hflags]
    · simp [Defect, ended, Piece.isDone, doneStatus, hflags]
  have hbodies := (hreceived _ [] (List.append_nil _).symm hclean).1 rfl
  refine ⟨by decide, by decide, _, hsome, hdone.2 ⟨hclean, ?_⟩, hbodies.trans ?_⟩
  · rw [pieces_dataFrame_doneFrame]
    rfl
  · rw [hstream]
    rfl

/-- `DONE` with a status of zero and four more bytes. -/
def longDoneFrame : Bytes := [24, 0, 0, 0, 3, 0, 2, 0, 1, 0, 0, 0, 0, 0, 0, 0] ++ List.replicate 8 0

/-- A zero status is not enough: `DONE` must have no body, or a status and nothing else. -/
theorem longDoneFrame_malformed :
    pieces longDoneFrame = [.frame ⟨3, 2, 1, List.replicate 8 0⟩ true] ∧
      readU32 (List.replicate 8 0) 0 = some 0 ∧
      Dump.run (fun _ => .ok ()) (.new 1 16) [] [longDoneFrame] = [(.error .malformed, [])] := by
  refine ⟨pieces_single (by decide) rfl, rfl, ?_⟩
  have hnext : (⟨longDoneFrame, 0, false⟩ : Frames).next =
      (some (.ok ⟨3, 2, 1, List.replicate 8 0⟩), ⟨longDoneFrame, 24, false⟩) := rfl
  rw [Dump.run, Dump.consume, Dump.consumeInner, Frames.new]
  simp only [Dump.new, Bool.or_self, Bool.false_eq_true, if_false]
  rw [if_neg (by decide)]
  dsimp only
  rw [Dump.consumeFrames_frame hnext]
  rfl

end Run

end VpnHide.Checks

import VpnHide.Zygisk.Receive

/-!
# Reading a netlink dump

A reader of a dump calls `recv` until it has seen `NLMSG_DONE`, or until it gets no bytes.
`hooked_recv` of `zygisk/src/hooks.rs` returns the length of what is left of a datagram: 0 if all of
its messages are hidden, and then the reader takes the dump for finished. Otherwise nothing is lost
(`Dump.dump_complete_iff`).
-/

namespace VpnHide.Zygisk

open Lib

/-- `NLMSG_DONE`. -/
def nlmsgDone : UInt16 := 3

/-- A message says that the dump is done. -/
def isDone (m : Bytes) : Bool := readU16 m 4 = some nlmsgDone

/-- A dump, and the buffer that a reader has for it, no larger than `isize::MAX`: datagrams of whole
    messages, of which the last says that it is done, and no other. -/
structure Dump (abi : Abi) where
  buffer : Bytes
  buffer_lt : buffer.length < 2 ^ (abi.bits - 1)
  datagrams : List Bytes
  fits : ∀ d ∈ datagrams, d.length ≤ buffer.length
  ne_nil : ∀ d ∈ datagrams, d ≠ []
  whole : ∀ d ∈ datagrams, (messages d).2 = []
  data : List Bytes
  last : Bytes
  flatMap_messages : (datagrams.flatMap fun d => (messages d).1) = data ++ [last]
  data_isDone : ∀ m ∈ data, isDone m = false
  last_isDone : isDone last = true

/-- The messages that a reader gets: the kernel writes each datagram over the buffer. A call that
    does not return gives nothing. -/
def readDump (abi : Abi) (rx : Receiver) (buf : Bytes) : List Bytes → List Bytes
  | [] => []
  | d :: ds =>
    match hookedRecv abi rx (d ++ buf.drop d.length) buf.length d.length with
    | none => []
    | some (buf, ret) =>
      if ret ≤ 0 then []
      else
        let got := (messages (buf.take ret.toNat)).1
        if got.any isDone then got else got ++ readDump abi rx buf ds

section Step

variable {abi : Abi} (vpnIndices : List UInt32) (vpnUid : UInt32)

/-- A thread that reads a netlink socket, outside of `getifaddrs`. -/
def Receiver.reader : Receiver := ⟨true, false, vpnIndices, vpnUid⟩

/-- A message that is not hidden. -/
def shown (m : Bytes) : Bool := !decide (Hidden vpnIndices vpnUid m)

/-- All messages of a datagram are hidden. -/
def OnlyHidden (d : Bytes) : Prop := ∀ m ∈ (messages d).1, Hidden vpnIndices vpnUid m

/-- What is passed on of a datagram. -/
def passed (d : Bytes) : Bytes :=
  if vpnIndices ≠ [] ∧ Gate d then remaining vpnIndices vpnUid d else d

theorem length_passed_le (d : Bytes) : (passed vpnIndices vpnUid d).length ≤ d.length := by
  rw [passed]
  split_ifs
  · exact length_remaining_le vpnIndices vpnUid d
  · exact le_rfl

/-- What is passed on of a datagram of whole messages, in place. -/
theorem hookedFlat_whole {d rest : Bytes} (hd : d.length < 2 ^ (abi.bits - 1))
    (hwhole : (messages d).2 = []) :
    hookedFlat abi (.reader vpnIndices vpnUid) (d ++ rest) d.length d.length =
      some (passed vpnIndices vpnUid d ++ (d ++ rest).drop (passed vpnIndices vpnUid d).length,
        ((passed vpnIndices vpnUid d).length : ℤ)) := by
  have hsame : (d ++ rest, (d.length : ℤ)) = (d ++ (d ++ rest).drop d.length, (d.length : ℤ)) := by
    rw [List.drop_left]
  rw [hookedFlat, passed]
  cases vpnIndices with
  | nil =>
    have hoff : maybeFilterNetlinkBuf abi (.reader [] vpnUid) (d ++ rest) d.length =
        some (d ++ rest, (d.length : ℤ)) := by
      rw [maybeFilterNetlinkBuf]
      simp only [Receiver.reader, if_true, ite_self]
    rw [hoff, if_neg fun h => h.1 rfl]
    simp
  | cons i is =>
    have hleaves : Leaves abi (i :: is) vpnUid d (remaining (i :: is) vpnUid d) :=
      leaves_of_whole (i :: is) vpnUid hd hwhole
    have hfilter :=
      @maybeFilterNetlinkBuf_eq abi vpnUid i is (d ++ rest) (remaining (i :: is) vpnUid d) d.length
      (by simp) (by rwa [List.take_left])
    rw [List.take_left] at hfilter
    have hreader : Receiver.reader (i :: is) vpnUid = .outside i is vpnUid := rfl
    rw [hreader, hfilter, Option.map_some]
    by_cases hgate : Gate d
    · simp only [hgate, if_true, ne_eq, reduceCtorEq, not_false_eq_true, and_self, sub_sub_cancel]
    · simp only [hgate, and_false, if_false, sub_self, sub_zero]
      exact congrArg some hsame

/-- A call of `recv`, with a buffer that the datagram fits. -/
theorem hookedRecv_datagram {d buf : Bytes} (h : d.length ≤ buf.length)
    (hbuf : buf.length < 2 ^ (abi.bits - 1)) (hwhole : (messages d).2 = []) :
    hookedRecv abi (.reader vpnIndices vpnUid) (d ++ buf.drop d.length) buf.length d.length =
      some (passed vpnIndices vpnUid d ++
        (d ++ buf.drop d.length).drop (passed vpnIndices vpnUid d).length,
          ((passed vpnIndices vpnUid d).length : ℤ)) := by
  have hmin : min (d.length : ℤ) buf.length = d.length := by omega
  rw [hookedRecv, Abi.toIsize_eq hbuf, hmin,
    hookedFlat_whole vpnIndices vpnUid (h.trans_lt hbuf) hwhole]

theorem not_hidden_of_isDone {m : Bytes} (h : isDone m = true) : ¬Hidden vpnIndices vpnUid m := by
  have htype : readU16 m 4 = some nlmsgDone := of_decide_eq_true h
  rw [Hidden, htype]
  rintro (⟨h | h, -⟩ | ⟨h, -⟩ | ⟨h, -⟩) <;> cases h

/-- The messages that are passed on are those that are not hidden, or all of them. -/
theorem messages_passed (d : Bytes) :
    (messages (passed vpnIndices vpnUid d)).1 = (messages d).1.filter (shown vpnIndices vpnUid) ∨
      (messages (passed vpnIndices vpnUid d)).1 = (messages d).1 := by
  rw [passed]
  split_ifs
  · rw [messages_remaining]
    exact .inl rfl
  · exact .inr rfl

/-- What is passed on shows the same. -/
theorem shown_messages_passed (d : Bytes) :
    (messages (passed vpnIndices vpnUid d)).1.filter (shown vpnIndices vpnUid) =
      (messages d).1.filter (shown vpnIndices vpnUid) := by
  rcases messages_passed vpnIndices vpnUid d with h | h
  · rw [h, List.filter_filter]
    simp only [Bool.and_self]
  · rw [h]

/-- What is passed on is the end if the datagram is. -/
theorem any_isDone_passed (d : Bytes) :
    (messages (passed vpnIndices vpnUid d)).1.any isDone = (messages d).1.any isDone := by
  rcases messages_passed vpnIndices vpnUid d with h | h
  · rw [h, List.any_filter]
    congr 1
    funext m
    by_cases hm : isDone m = true
    · simp [shown, hm, not_hidden_of_isDone vpnIndices vpnUid hm]
    · simp [hm]
  · rw [h]

/-- The type of a datagram whose first message is hidden is filtered. -/
theorem gate_of_hidden {d m : Bytes} {ms : List Bytes} (hm : (messages d).1 = m :: ms)
    (h : Hidden vpnIndices vpnUid m) : Gate d := by
  have htype : readU16 m 4 = readU16 d 4 := by
    cases hnext : nextMessage d with
    | none =>
      rw [messages, records_of_none hnext] at hm
      cases hm
    | some n =>
      rw [messages, records_of_some isNext_nextMessage hnext] at hm
      obtain ⟨rfl, -⟩ := List.cons.inj hm
      obtain ⟨k, -, hlo, hhi, hn⟩ := nextMessage_eq_some_iff.1 hnext
      have halign := le_align k.toNat
      rw [nlmsgHdrlen] at hlo
      exact readU16_take (by omega)
  rw [Hidden, htype] at h
  rcases h with ⟨h | h, -⟩ | ⟨h, -⟩ | ⟨h, -⟩ <;> exact ⟨_, by decide, h⟩

theorem messages_ne_nil {d : Bytes} (hne : d ≠ []) (hwhole : (messages d).2 = []) :
    (messages d).1 ≠ [] := by
  intro h
  have hflat := flatten_records isNext_nextMessage d
  rw [← messages, h, hwhole] at hflat
  exact hne hflat.symm

/-- Nothing is passed on of a datagram if all of its messages are hidden, and only then. -/
theorem passed_eq_nil_iff {d : Bytes} (hne : d ≠ []) (hwhole : (messages d).2 = []) :
    passed vpnIndices vpnUid d = [] ↔ vpnIndices ≠ [] ∧ OnlyHidden vpnIndices vpnUid d := by
  constructor
  · intro h
    have hfiltered : vpnIndices ≠ [] ∧ Gate d := by
      by_contra hoff
      rw [passed, if_neg hoff] at h
      exact hne h
    refine ⟨hfiltered.1, fun m hm => ?_⟩
    by_contra hshown
    have hmem : m ∈ (messages (passed vpnIndices vpnUid d)).1.filter (shown vpnIndices vpnUid) := by
      rw [shown_messages_passed]
      exact List.mem_filter.2 ⟨hm, by simp [shown, hshown]⟩
    rw [h, messages, records_nil isNext_nextMessage] at hmem
    cases hmem
  · rintro ⟨hindices, hhidden⟩
    obtain ⟨m, ms, hm⟩ := List.exists_cons_of_ne_nil (messages_ne_nil hne hwhole)
    have hgate : Gate d :=
      gate_of_hidden vpnIndices vpnUid hm (hhidden m (by rw [hm]; exact List.mem_cons_self))
    have hnone : (messages d).1.filter (fun m => !decide (Hidden vpnIndices vpnUid m)) = [] :=
      List.filter_eq_nil_iff.2 fun m hm => by simp [hhidden m hm]
    rw [passed, if_pos ⟨hindices, hgate⟩, remaining, hnone, hwhole]
    rfl

/-- One call: the buffer keeps its length, and the reader stops at once if nothing is passed on. -/
theorem readDump_cons {d buf : Bytes} (h : d.length ≤ buf.length)
    (hbuf : buf.length < 2 ^ (abi.bits - 1)) (hwhole : (messages d).2 = []) (ds : List Bytes) :
    ∃ buf' : Bytes, buf'.length = buf.length ∧
      readDump abi (.reader vpnIndices vpnUid) buf (d :: ds) =
        if passed vpnIndices vpnUid d = [] then []
        else if (messages d).1.any isDone then (messages (passed vpnIndices vpnUid d)).1
        else (messages (passed vpnIndices vpnUid d)).1 ++ readDump abi (.reader vpnIndices vpnUid)
          buf' ds := by
  have hle := length_passed_le vpnIndices vpnUid d
  refine ⟨passed vpnIndices vpnUid d ++ (d ++ buf.drop d.length).drop
    (passed vpnIndices vpnUid d).length, ?_, ?_⟩
  · simp only [List.length_append, List.length_drop]
    omega
  · rw [readDump, hookedRecv_datagram vpnIndices vpnUid h hbuf hwhole]
    simp only [Int.toNat_natCast, List.take_left, any_isDone_passed]
    have hempty : ((passed vpnIndices vpnUid d).length : ℤ) ≤ 0 ↔
        passed vpnIndices vpnUid d = [] := by
      rw [← List.length_eq_zero_iff]
      omega
    simp only [hempty]

end Step

/-! ## Whole dumps -/

/-- The messages of some datagrams, in order. -/
def allMessages (ds : List Bytes) : List Bytes := ds.flatMap fun d => (messages d).1

section Run

variable {abi : Abi} (vpnIndices : List UInt32) (vpnUid : UInt32) {ds : List Bytes} {buf : Bytes}
  (hbuf : buf.length < 2 ^ (abi.bits - 1)) (hfits : ∀ d ∈ ds, d.length ≤ buf.length)
  (hwhole : ∀ d ∈ ds, (messages d).2 = [])

include hbuf hfits hwhole

/-- If something of every datagram is passed on, a reader gets all that is not hidden. -/
theorem readDump_shown (hdone : ∀ m ∈ (allMessages ds).dropLast, isDone m = false)
    (hpassed : ∀ d ∈ ds, passed vpnIndices vpnUid d ≠ []) :
    (readDump abi (.reader vpnIndices vpnUid) buf ds).filter (shown vpnIndices vpnUid) =
      (allMessages ds).filter (shown vpnIndices vpnUid) := by
  induction ds generalizing buf with
  | nil => rfl
  | cons d ds ih =>
    have hall : allMessages (d :: ds) = (messages d).1 ++ allMessages ds := rfl
    obtain ⟨buf', hlen, hread⟩ := readDump_cons vpnIndices vpnUid (hfits d List.mem_cons_self) hbuf
      (hwhole d List.mem_cons_self) ds
    rw [hread, if_neg (hpassed d List.mem_cons_self), hall, List.filter_append]
    rw [hall] at hdone
    by_cases hend : (messages d).1.any isDone = true
    · -- Only the last message says so: no other datagram has any.
      have hnil : allMessages ds = [] := by
        by_contra hne
        obtain ⟨m, hm, hmdone⟩ := List.any_eq_true.1 hend
        rw [List.dropLast_append_of_ne_nil hne] at hdone
        rw [hdone m (List.mem_append_left _ hm)] at hmdone
        cases hmdone
      rw [if_pos hend, shown_messages_passed, hnil]
      exact (List.append_nil _).symm
    · have hlater : ∀ m ∈ (allMessages ds).dropLast, isDone m = false := by
        intro m hm
        by_cases hnil : allMessages ds = []
        · rw [hnil] at hm
          cases hm
        · rw [List.dropLast_append_of_ne_nil hnil] at hdone
          exact hdone m (List.mem_append_right _ hm)
      rw [if_neg hend, List.filter_append, shown_messages_passed]
      congr 1
      exact ih (hlen.trans_lt hbuf)
        (fun e he => (hfits e (List.mem_cons_of_mem d he)).trans_eq hlen.symm)
        (fun e he => hwhole e (List.mem_cons_of_mem d he)) hlater fun e he =>
          hpassed e (List.mem_cons_of_mem d he)

/-- If nothing of a datagram is passed on, a reader does not see the end. -/
theorem readDump_cut (hne : ∀ d ∈ ds, (messages d).1 ≠ [])
    (hdone : ∀ m ∈ (allMessages ds).dropLast, isDone m = false)
    (hcut : ∃ d ∈ ds, passed vpnIndices vpnUid d = []) :
    ∀ m ∈ readDump abi (.reader vpnIndices vpnUid) buf ds, isDone m = false := by
  induction ds generalizing buf with
  | nil =>
    obtain ⟨d, hd, -⟩ := hcut
    cases hd
  | cons d ds ih =>
    have hall : allMessages (d :: ds) = (messages d).1 ++ allMessages ds := rfl
    obtain ⟨buf', hlen, hread⟩ := readDump_cons vpnIndices vpnUid (hfits d List.mem_cons_self) hbuf
      (hwhole d List.mem_cons_self) ds
    rw [hread]
    by_cases hempty : passed vpnIndices vpnUid d = []
    · rw [if_pos hempty]
      exact List.forall_mem_nil _
    · obtain ⟨e, he, hcut⟩ := hcut
      have he' : e ∈ ds := (List.mem_cons.1 he).resolve_left (by rintro rfl; exact hempty hcut)
      have hlater : allMessages ds ≠ [] := by
        obtain ⟨m, ms, hm⟩ := List.exists_cons_of_ne_nil (hne e he)
        exact List.ne_nil_of_mem (List.mem_flatMap.2 ⟨e, he', by rw [hm]; exact List.mem_cons_self⟩)
      rw [hall, List.dropLast_append_of_ne_nil hlater] at hdone
      have hbefore : (messages d).1.any isDone = false :=
        List.any_eq_false.2 fun m hm => by simp [hdone m (List.mem_append_left _ hm)]
      have hgot : (messages (passed vpnIndices vpnUid d)).1.any isDone = false :=
        (any_isDone_passed vpnIndices vpnUid d).trans hbefore
      rw [if_neg hempty, hbefore, if_neg Bool.false_ne_true]
      intro m hm
      rcases List.mem_append.1 hm with hm | hm
      · simpa using List.any_eq_false.1 hgot m hm
      · exact ih (hlen.trans_lt hbuf)
          (fun c hc => (hfits c (List.mem_cons_of_mem d hc)).trans_eq hlen.symm)
          (fun c hc => hwhole c (List.mem_cons_of_mem d hc)) (fun c hc =>
            hne c (List.mem_cons_of_mem d hc)) (fun m hm => hdone m (List.mem_append_right _ hm))
          ⟨e, he', hcut⟩ m hm

end Run

namespace Dump

variable {abi : Abi} (dump : Dump abi) (vpnIndices : List UInt32) (vpnUid : UInt32)

/-- A reader gets every message that is not hidden, in order, and the end. -/
def Complete : Prop :=
  let got := readDump abi (.reader vpnIndices vpnUid) dump.buffer dump.datagrams
  got.filter (shown vpnIndices vpnUid) =
    (dump.data ++ [dump.last]).filter (shown vpnIndices vpnUid) ∧ dump.last ∈ got

/-- No call of `recv` gets bytes and returns none. -/
def NeverEmpty : Prop :=
  ∀ d ∈ dump.datagrams, ∀ buf : Bytes, buf.length = dump.buffer.length →
    ∃ x, hookedRecv abi (.reader vpnIndices vpnUid) (d ++ buf.drop d.length) buf.length d.length =
      some x ∧ 0 < x.2

theorem neverEmpty_iff_passed :
    dump.NeverEmpty vpnIndices vpnUid ↔ ∀ d ∈ dump.datagrams, passed vpnIndices vpnUid d ≠ [] := by
  have hpos : ∀ d, (0 : ℤ) < (passed vpnIndices vpnUid d).length ↔
      passed vpnIndices vpnUid d ≠ [] := by
    intro d
    rw [Nat.cast_pos, List.length_pos_iff]
  have hcall : ∀ d ∈ dump.datagrams, ∀ buf : Bytes, buf.length = dump.buffer.length →
      hookedRecv abi (.reader vpnIndices vpnUid) (d ++ buf.drop d.length) buf.length d.length =
        some (passed vpnIndices vpnUid d ++
          (d ++ buf.drop d.length).drop (passed vpnIndices vpnUid d).length,
            ((passed vpnIndices vpnUid d).length : ℤ)) := fun d hd buf hbuf =>
    hookedRecv_datagram vpnIndices vpnUid ((dump.fits d hd).trans_eq hbuf.symm)
      (hbuf.trans_lt dump.buffer_lt)
      (dump.whole d hd)
  constructor
  · intro h d hd
    obtain ⟨x, hx, hlt⟩ := h d hd dump.buffer rfl
    rw [hcall d hd dump.buffer rfl] at hx
    rw [← Option.some.inj hx] at hlt
    exact (hpos d).1 hlt
  · intro h d hd buf hbuf
    exact ⟨_, hcall d hd buf hbuf, (hpos d).2 (h d hd)⟩

theorem complete_iff_passed :
    dump.Complete vpnIndices vpnUid ↔ ∀ d ∈ dump.datagrams, passed vpnIndices vpnUid d ≠ [] := by
  have hall : allMessages dump.datagrams = dump.data ++ [dump.last] := dump.flatMap_messages
  have hdone : ∀ m ∈ (allMessages dump.datagrams).dropLast, isDone m = false := by
    rw [hall, List.dropLast_concat]
    exact dump.data_isDone
  constructor
  · rintro ⟨-, hlast⟩ d hd hempty
    have hnone := readDump_cut vpnIndices vpnUid dump.buffer_lt dump.fits dump.whole
      (fun e he => messages_ne_nil (dump.ne_nil e he) (dump.whole e he)) hdone
      ⟨d, hd, hempty⟩ _ hlast
    rw [dump.last_isDone] at hnone
    cases hnone
  · intro hpassed
    have hshown :=
      readDump_shown vpnIndices vpnUid dump.buffer_lt dump.fits dump.whole hdone hpassed
    rw [hall] at hshown
    refine ⟨hshown, ?_⟩
    have hlast : dump.last ∈ (dump.data ++ [dump.last]).filter (shown vpnIndices vpnUid) :=
      List.mem_filter.2 ⟨List.mem_append_right _ List.mem_cons_self,
        by simp [shown, not_hidden_of_isDone vpnIndices vpnUid dump.last_isDone]⟩
    rw [← hshown] at hlast
    exact (List.mem_filter.1 hlast).1

/-- Some interface is hidden, and all messages of a datagram are. -/
def HasOnlyHidden : Prop := vpnIndices ≠ [] ∧ ∃ d ∈ dump.datagrams, OnlyHidden vpnIndices vpnUid d

/-- A dump is read to its end, and no call returns 0, unless all messages of a datagram are
    hidden. -/
theorem dump_complete_iff :
    (dump.Complete vpnIndices vpnUid ↔ ¬dump.HasOnlyHidden vpnIndices vpnUid) ∧
      (dump.NeverEmpty vpnIndices vpnUid ↔ ¬dump.HasOnlyHidden vpnIndices vpnUid) := by
  -- A datagram that is emptied looks like the end of the dump.
  have hpassed : (∀ d ∈ dump.datagrams, passed vpnIndices vpnUid d ≠ []) ↔
      ¬dump.HasOnlyHidden vpnIndices vpnUid := by
    constructor
    · rintro h ⟨hindices, d, hd, hhidden⟩
      exact h d hd ((passed_eq_nil_iff vpnIndices vpnUid (dump.ne_nil d hd) (dump.whole d hd)).2
        ⟨hindices, hhidden⟩)
    · intro h d hd hempty
      obtain ⟨hindices, hhidden⟩ :=
        (passed_eq_nil_iff vpnIndices vpnUid (dump.ne_nil d hd) (dump.whole d hd)).1 hempty
      exact h ⟨hindices, d, hd, hhidden⟩
  rw [complete_iff_passed, neverEmpty_iff_passed, hpassed]
  exact ⟨Iff.rfl, Iff.rfl⟩

end Dump

/-- The link of the interface 7 in a datagram of its own, and the end of the dump. -/
def linkThenDone : Dump .arm64V8a where
  buffer := List.replicate 32 0
  buffer_lt := by decide
  datagrams := [noopThenLink.drop 16, [16, 0, 0, 0, 3, 0, 0, 0, 0, 0, 0, 0, 0, 0, 0, 0]]
  fits := by decide
  ne_nil := by decide
  whole := by decide +kernel
  data := [noopThenLink.drop 16]
  last := [16, 0, 0, 0, 3, 0, 0, 0, 0, 0, 0, 0, 0, 0, 0, 0]
  flatMap_messages := by decide +kernel
  data_isDone := by decide
  last_isDone := by decide

/-- The reader gets 0, and nothing of the dump. -/
theorem not_complete_linkThenDone :
    ¬linkThenDone.Complete [7] 0 ∧ ¬linkThenDone.NeverEmpty [7] 0 := by
  have hread : readDump .arm64V8a (.reader [7] 0) linkThenDone.buffer linkThenDone.datagrams =
      [] := by decide +kernel
  constructor
  · rintro ⟨-, hlast⟩
    rw [hread] at hlast
    cases hlast
  · intro h
    obtain ⟨x, hx, hlt⟩ := h (noopThenLink.drop 16) (by decide +kernel) linkThenDone.buffer rfl
    have hempty :
        (hookedRecv .arm64V8a (.reader [7] 0) (noopThenLink.drop 16 ++ linkThenDone.buffer.drop 24)
        linkThenDone.buffer.length 24).map Prod.snd = some 0 := by decide +kernel
    have hzero := congrArg (Option.map Prod.snd) hx
    rw [Option.map_some] at hzero
    exact absurd hlt (by rw [Option.some.inj (hzero.symm.trans hempty)]; decide)

end VpnHide.Zygisk

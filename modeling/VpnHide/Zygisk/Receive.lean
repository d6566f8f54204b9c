import VpnHide.Zygisk.Widths

/-!
# Receiving netlink messages

The hooks of `recv`, `recvfrom`, `__recvfrom_chk` and `recvmsg` in `zygisk/src/hooks.rs` filter
what the kernel has written into the buffers of the caller. A single buffer is filtered in place,
and only if its first message has a type that is filtered at all; several buffers are gathered,
filtered as one and scattered again, whatever comes first.

Either way the buffers hold what is left and behind it what they held before, and the result is
shortened by what was removed (`Reception.flat`, `Reception.scattered`). So the hooks leave the same
for a datagram with a type that is filtered in front (`Reception.receptions_agree`), on both builds,
unless the filter does not return (`Zygisk.Widths`).
-/

namespace VpnHide.Zygisk

open Lib

/-! ## The hooks -/

/-- The descriptor and the thread of a call, and what the interfaces are. -/
structure Receiver where
  netlink : Bool
  inGetifaddrs : Bool
  vpnIndices : List UInt32
  vpnUid : UInt32

section Hooks

variable (abi : Abi) (rx : Receiver)

/-- The types of the messages that are filtered. -/
def filteredTypes : List UInt16 := [rtmNewaddr, rtmNewlink, rtmNewroute, rtmNewrule]

/-- A buffer of which the first `ret` bytes have been received: what it holds then, and the result;
    nothing if the filter does not return. -/
def maybeFilterNetlinkBuf (buf : Bytes) (ret : ℤ) : Option (Bytes × ℤ) :=
  if ret < 16 then some (buf, ret)
  else if !rx.netlink then some (buf, ret)
  else if rx.inGetifaddrs then some (buf, ret)
  else
    let data := buf.take ret.toNat
    if !(readU16 data 4).any filteredTypes.contains then some (buf, ret)
    else if rx.vpnIndices = [] then some (buf, ret)
    else (abi.filterDump rx.vpnIndices rx.vpnUid data).map fun x =>
      (x.1 ++ buf.drop ret.toNat, (x.2 : ℤ))

/-- A flat buffer, of which at most `inBuf` bytes have been written. -/
def hookedFlat (buf : Bytes) (ret inBuf : ℤ) : Option (Bytes × ℤ) :=
  (maybeFilterNetlinkBuf abi rx buf inBuf).map fun x => (x.1, ret - (inBuf - x.2))

/-- `hooked_recv`. -/
def hookedRecv (buf : Bytes) (len : ℕ) (ret : ℤ) : Option (Bytes × ℤ) :=
  hookedFlat abi rx buf ret (min ret (abi.toIsize len))

/-- `hooked_recvfrom`. -/
def hookedRecvfrom (buf : Bytes) (len : ℕ) (ret : ℤ) : Option (Bytes × ℤ) :=
  hookedFlat abi rx buf ret (min ret (abi.toIsize len))

/-- `hooked_recvfrom_chk`, which knows how large the buffer is. -/
def hookedRecvfromChk (buf : Bytes) (len bufSize : ℕ) (ret : ℤ) : Option (Bytes × ℤ) :=
  hookedFlat abi rx buf ret (min ret (abi.toIsize (min len bufSize)))

/-- One of several buffers: none, or some bytes of memory. -/
inductive Iovec
  | null (len : ℕ)
  | memory (bytes : Bytes)

/-- The length that an entry says it has. -/
def Iovec.len : Iovec → ℕ
  | null len => len
  | memory bytes => bytes.length

/-- What several buffers hold, in order. -/
def Iovec.bytes : Iovec → Bytes
  | null _ => []
  | memory bytes => bytes

/-- The bytes that have been written into several buffers, of at most `maxUsize` altogether. -/
def iovecPayloadLen (maxUsize : ℕ) (iov : List Iovec) (returned : ℕ) : Option ℕ :=
  (go 0 iov).map (min returned)
where
  /-- The loop, with the capacity so far. -/
  go (capacity : ℕ) : List Iovec → Option ℕ
    | [] => some capacity
    | .null len :: iov => if 0 < len then none else go (min (capacity + len) maxUsize) iov
    | .memory bytes :: iov => go (min (capacity + bytes.length) maxUsize) iov

/-- The first `remaining` bytes of several buffers. -/
def gather (remaining : ℕ) : List Iovec → Option Bytes
  | [] => if remaining ≠ 0 then none else some []
  | entry :: iov =>
    if remaining = 0 then some []
    else if min remaining entry.len = 0 then gather remaining iov
    else
      match entry with
      | .null _ => none
      | .memory bytes =>
        (gather (remaining - min remaining bytes.length) iov).map (bytes.take remaining ++ ·)

/-- Some bytes over several buffers, and how many of them were written. -/
def scatter (src : Bytes) : List Iovec → List Iovec × ℕ
  | [] => ([], 0)
  | entry :: iov =>
    match entry with
    | .null len => ((scatter src iov).1.cons (.null len), (scatter src iov).2)
    | .memory bytes =>
      let take := min src.length bytes.length
      let rest := scatter (src.drop take) iov
      (.memory (src.take take ++ bytes.drop take) :: rest.1, take + rest.2)

/-- Several buffers with their first `payloadLen` bytes filtered, if these can be gathered; nothing
    if the filter does not return. -/
def rewriteIovecPayload (iov : List Iovec) (payloadLen : ℕ) (filter : Bytes → Option (Bytes × ℕ)) :
    Option (Option (List Iovec × ℕ)) :=
  match gather payloadLen iov with
  | none => some none
  | some scratch =>
    (filter scratch).map fun x =>
      let filtered := min x.2 payloadLen
      let (iov, copied) := scatter (x.1.take filtered) iov
      if copied = filtered then some (iov, filtered) else none

/-- The scratch buffer of the thread may be in use, or too small to be extended. -/
def receiveSeveral (scratch : Bool) (iov : List Iovec) (ret : ℤ) : Option (List Iovec × ℤ) :=
  if !rx.netlink || rx.inGetifaddrs then some (iov, ret)
  else
    match iovecPayloadLen (2 ^ abi.bits - 1) iov ret.toNat with
    | none => some (iov, ret)
    | some inIovecs =>
      if inIovecs < 16 then some (iov, ret)
      else if rx.vpnIndices = [] then some (iov, ret)
      else if !scratch then some (iov, ret)
      else
        (rewriteIovecPayload iov inIovecs (abi.filterDump rx.vpnIndices rx.vpnUid)).map fun
          | none => (iov, ret)
          | some (iov, filtered) => (iov, ret - (inIovecs - filtered : ℕ))

/-- `hooked_recvmsg`: one buffer is filtered in place, several through the scratch buffer. -/
def hookedRecvmsg (scratch : Bool) (iov : List Iovec) (ret : ℤ) : Option (List Iovec × ℤ) :=
  if ret ≤ 0 then some (iov, ret)
  else
    match iov with
    | [] => some ([], ret)
    | [entry] =>
      match entry with
      | .null len => some ([.null len], ret)
      | .memory bytes =>
        (hookedFlat abi rx bytes ret (min ret (abi.toIsize bytes.length))).map fun x =>
          ([.memory x.1], x.2)
    | iov => receiveSeveral abi rx scratch iov ret

end Hooks

/-! ## What the filter leaves -/

variable {abi : Abi} (vpnIndices : List UInt32) (vpnUid : UInt32)

/-- The filter leaves some bytes: they are in front, and behind them the buffer is as it was. -/
structure Leaves (abi : Abi) (vpnIndices : List UInt32) (vpnUid : UInt32) (data left : Bytes) :
    Prop where
  returns : abi.filterDump vpnIndices vpnUid data =
    some (left ++ data.drop left.length, left.length)
  le : left.length ≤ data.length

theorem Leaves.of_compaction {data kept : Bytes} {x : Bytes × ℕ}
    (hx : abi.filterDump vpnIndices vpnUid data = some x)
    (hc : Compaction data x.1 data.length x.2 kept) : Leaves abi vpnIndices vpnUid data kept := by
  obtain ⟨buf, n⟩ := x
  have hn : kept.length = n := hc.length_kept
  have hbuf : buf = kept ++ data.drop n := by
    rw [← hc.written, ← hc.unwritten, List.take_append_drop]
  refine ⟨?_, hn.trans_le hc.le⟩
  rw [hx, hn, hbuf]

/-- The filter leaves something, unless a header overruns. -/
theorem exists_leaves {data : Bytes} (hdata : data.length < 2 ^ (abi.bits - 1))
    (hsafe : ¬abi.Wraps data) :
    ∃ left, Leaves abi vpnIndices vpnUid data left := by
  obtain ⟨x, kept, hx, hc⟩ := Abi.filterDump_of_not_wraps vpnIndices vpnUid hdata hsafe
  exact ⟨kept, .of_compaction vpnIndices vpnUid hx hc⟩

theorem Leaves.unique {data left left' : Bytes} (h : Leaves abi vpnIndices vpnUid data left)
    (h' : Leaves abi vpnIndices vpnUid data left') : left = left' := by
  have heq := Prod.mk.inj (Option.some.inj (h.returns.symm.trans h'.returns))
  exact (List.append_inj heq.1 heq.2).1

/-- Of whole messages, those that are not hidden are left. -/
theorem leaves_of_whole {data : Bytes} (hdata : data.length < 2 ^ (abi.bits - 1))
    (hwhole : (messages data).2 = []) :
    Leaves abi vpnIndices vpnUid data (remaining vpnIndices vpnUid data) := by
  have hwraps : ¬abi.Wraps data := by
    rw [Abi.Wraps, hwhole]
    exact Abi.not_overruns_nil _
  obtain ⟨left, hleft⟩ := exists_leaves vpnIndices vpnUid hdata hwraps
  obtain ⟨-, hvalid, htake⟩ := filterNetlinkDump_take vpnIndices vpnUid data
  have hreturns := hleft.returns
  rw [Abi.filterDump_of_whole vpnIndices vpnUid hdata hwhole] at hreturns
  rw [← htake, Option.some.inj hreturns, List.take_left]
  exact hleft

/-! ## One buffer -/

/-- The first message has a type that is filtered. -/
def Gate (data : Bytes) : Prop := ∃ t ∈ filteredTypes, readU16 data 4 = some t

instance (data : Bytes) : Decidable (Gate data) :=
  inferInstanceAs (Decidable (∃ t ∈ filteredTypes, _))

/-- A thread that receives from a netlink socket, outside of `getifaddrs`, and the interfaces that
    are hidden: at least one. -/
def Receiver.outside (i : UInt32) (is : List UInt32) (vpnUid : UInt32) : Receiver :=
  ⟨true, false, i :: is, vpnUid⟩

theorem gate_iff (data : Bytes) :
    (readU16 data 4).any filteredTypes.contains = true ↔ Gate data := by
  rw [Gate]
  cases readU16 data 4 with
  | none => simp
  | some t => simp

/-- Nothing is removed from what is too short for a message. -/
theorem leaves_short {data : Bytes} (h : data.length < 16) :
    Leaves abi vpnIndices vpnUid data data := by
  refine ⟨?_, le_rfl⟩
  rw [Abi.filterDump, Abi.filterNetlinkDump, if_pos (show data.length < nlmsgHdrlen from h),
    List.drop_length, List.append_nil]
  rfl

theorem length_remaining_le (data : Bytes) :
    (remaining vpnIndices vpnUid data).length ≤ data.length := by
  obtain ⟨hlen, hvalid, htake⟩ := filterNetlinkDump_take vpnIndices vpnUid data
  rw [← htake, ← hlen]
  exact List.length_take_le' _ _

section Flat

variable {vpnUid : UInt32} {i : UInt32} {is : List UInt32} {buf left : Bytes} {n : ℕ}

/-- A buffer whose first message has another type is left alone. -/
theorem maybeFilterNetlinkBuf_of_not_gate (hgate : ¬Gate (buf.take n)) :
    maybeFilterNetlinkBuf abi (.outside i is vpnUid) buf n = some (buf, (n : ℤ)) := by
  rw [maybeFilterNetlinkBuf]
  by_cases hshort : n < 16
  · rw [if_pos (by omega)]
  · rw [if_neg (by omega), Int.toNat_natCast]
    dsimp only [Receiver.outside]
    rw [Bool.eq_false_iff.2 (mt (gate_iff _).1 hgate)]
    rfl

/-- A buffer of which the first `n` bytes have been received. -/
theorem maybeFilterNetlinkBuf_eq (hn : n ≤ buf.length)
    (hleaves : Leaves abi (i :: is) vpnUid (buf.take n) left) :
    maybeFilterNetlinkBuf abi (.outside i is vpnUid) buf n =
      some (if Gate (buf.take n) then (left ++ buf.drop left.length, (left.length : ℤ))
        else (buf, (n : ℤ))) := by
  have hlen : (buf.take n).length = n := List.length_take_of_le hn
  by_cases hgate : Gate (buf.take n)
  · rw [if_pos hgate, maybeFilterNetlinkBuf]
    by_cases hshort : n < 16
    · obtain rfl := hleaves.unique _ _ (leaves_short (i :: is) vpnUid (by omega))
      rw [if_pos (by omega), hlen, List.take_append_drop]
    · have hle := hleaves.le
      rw [hlen] at hle
      rw [if_neg (by omega), Int.toNat_natCast]
      dsimp only [Receiver.outside]
      rw [(gate_iff _).2 hgate, hleaves.returns]
      have hrest : (buf.take n).drop left.length ++ buf.drop n = buf.drop left.length := by
        obtain ⟨k, rfl⟩ := Nat.exists_eq_add_of_le hle
        rw [List.drop_take, Nat.add_sub_cancel_left, ← List.drop_drop, List.take_append_drop]
      simp only [Bool.not_true, Bool.false_eq_true, if_false, reduceCtorEq, Option.map_some,
        List.append_assoc, hrest]
  · rw [if_neg hgate]
    exact maybeFilterNetlinkBuf_of_not_gate hgate

end Flat

/-! ## Several buffers -/

/-- What several buffers hold. -/
def contents (iov : List Iovec) : Bytes := (iov.map Iovec.bytes).flatten

/-- Only an empty buffer may be no memory. -/
def ValidIov (iov : List Iovec) : Prop := ∀ entry ∈ iov, entry.len = entry.bytes.length

section Iov

variable {iov : List Iovec}

theorem contents_cons (entry : Iovec) (iov : List Iovec) :
    contents (entry :: iov) = entry.bytes ++ contents iov := rfl

theorem gather_eq (hvalid : ValidIov iov) :
    ∀ n, n ≤ (contents iov).length → gather n iov = some ((contents iov).take n) := by
  induction iov with
  | nil =>
    intro n hn
    obtain rfl : n = 0 := Nat.le_zero.1 hn
    rfl
  | cons entry iov ih =>
    intro n hn
    have ih' := ih fun e he => hvalid e (List.mem_cons_of_mem entry he)
    have hlen := hvalid entry List.mem_cons_self
    rw [contents_cons, List.length_append] at hn
    unfold gather
    split_ifs with hzero hempty
    · rw [hzero, List.take_zero]
    · have hnil : entry.bytes = [] := List.length_eq_zero_iff.1 (by omega)
      rw [ih' n (by rw [hnil, List.length_nil] at hn; omega), contents_cons, hnil, List.nil_append]
    · cases entry with
      | null len =>
        rw [Iovec.bytes, List.length_nil] at hlen
        omega
      | memory bytes =>
        have htotal : n ≤ bytes.length + (contents iov).length := hn
        dsimp only
        rw [ih' _ (by omega), Option.map_some, contents_cons, Iovec.bytes, List.take_append]
        congr 3
        omega

theorem scatter_eq (iov : List Iovec) :
    ∀ src : Bytes, src.length ≤ (contents iov).length →
      contents (scatter src iov).1 = src ++ (contents iov).drop src.length ∧
        (scatter src iov).2 = src.length := by
  induction iov with
  | nil =>
    intro src hsrc
    obtain rfl : src = [] := List.length_eq_zero_iff.1 (Nat.le_zero.1 hsrc)
    exact ⟨rfl, rfl⟩
  | cons entry iov ih =>
    intro src hsrc
    rw [contents_cons, List.length_append] at hsrc
    cases entry with
    | null len =>
      obtain ⟨hcontents, hcount⟩ := ih src (by rw [Iovec.bytes, List.length_nil] at hsrc; omega)
      exact ⟨hcontents, hcount⟩
    | memory bytes =>
      rw [Iovec.bytes] at hsrc
      obtain ⟨hcontents, hcount⟩ :=
        ih (src.drop (min src.length bytes.length)) (by rw [List.length_drop]; omega)
      rw [scatter]
      dsimp only
      rw [contents_cons, hcontents, hcount, contents_cons, Iovec.bytes,
        Iovec.bytes, List.length_drop]
      refine ⟨?_, by omega⟩
      rcases le_total src.length bytes.length with hle | hle
      · rw [min_eq_left hle, List.take_length, List.drop_length, List.drop_append_of_le_length hle,
          Nat.sub_self, List.drop_zero, List.nil_append, List.append_assoc]
      · rw [min_eq_right hle, List.drop_length, List.append_nil, ← List.append_assoc,
          List.take_append_drop, List.drop_append, List.drop_eq_nil_of_le hle, List.nil_append]

theorem iovecPayloadLen_eq {maxUsize returned : ℕ} (hvalid : ValidIov iov)
    (hreturned : returned ≤ maxUsize) :
    iovecPayloadLen maxUsize iov returned = some (min returned (contents iov).length) := by
  have hgo : ∀ capacity ≤ maxUsize,
      iovecPayloadLen.go maxUsize capacity iov =
        some (min (capacity + (contents iov).length) maxUsize) := by
    induction iov with
    | nil =>
      intro capacity hcapacity
      exact congrArg some (min_eq_left hcapacity).symm
    | cons entry iov ih =>
      intro capacity hcapacity
      have ih' := ih fun e he => hvalid e (List.mem_cons_of_mem entry he)
      have hlen := hvalid entry List.mem_cons_self
      rw [contents_cons, List.length_append]
      cases entry with
      | null len =>
        obtain rfl : len = 0 := hlen
        rw [iovecPayloadLen.go, if_neg (Nat.lt_irrefl 0), ih' _ (min_le_right _ _),
          Iovec.bytes, List.length_nil]
        congr 1
        omega
      | memory bytes =>
        rw [iovecPayloadLen.go, ih' _ (min_le_right _ _), Iovec.bytes]
        congr 1
        omega
  rw [iovecPayloadLen, hgo 0 (Nat.zero_le _), Option.map_some]
  congr 1
  omega

/-- The first `n` bytes of several buffers are filtered in place. -/
theorem rewriteIovecPayload_eq (hvalid : ValidIov iov) {n : ℕ} (hn : n ≤ (contents iov).length)
    {left : Bytes} (hleaves : Leaves abi vpnIndices vpnUid ((contents iov).take n) left) :
    ∃ iov', rewriteIovecPayload iov n (abi.filterDump vpnIndices vpnUid) =
      some (some (iov', left.length)) ∧
        contents iov' = left ++ (contents iov).drop left.length := by
  have hle := hleaves.le
  rw [List.length_take_of_le hn] at hle
  obtain ⟨hcontents, hcount⟩ := scatter_eq iov left (hle.trans hn)
  rw [rewriteIovecPayload, gather_eq hvalid n hn]
  dsimp only
  rw [hleaves.returns, Option.map_some]
  dsimp only
  rw [min_eq_left hle, List.take_left, hcount, if_pos rfl]
  exact ⟨_, rfl, hcontents⟩

end Iov

/-! ## A datagram -/

/-- A datagram, the buffer of the caller before, and whether the whole length is asked for
    (`MSG_TRUNC`). Neither is larger than `isize::MAX`. -/
structure Reception (abi : Abi) where
  datagram : Bytes
  buffer : Bytes
  trunc : Bool
  length_lt : datagram.length < 2 ^ (abi.bits - 1)
  buffer_lt : buffer.length < 2 ^ (abi.bits - 1)

namespace Reception

variable {abi : Abi} (r : Reception abi)

/-- The bytes that fit the buffer. -/
def received : Bytes := r.datagram.take r.buffer.length

/-- The buffer when the kernel has written into it. -/
def delivered : Bytes := r.received ++ r.buffer.drop r.received.length

/-- What the kernel returns. -/
def ret : ℤ := if r.trunc then r.datagram.length else r.received.length

/-- The buffer and the result when what is received has been replaced by what is left of it. -/
def replaced (left : Bytes) : Bytes × ℤ :=
  (left ++ r.delivered.drop left.length, r.ret - (r.received.length - left.length))

/-- What the caller sees of a buffer, by the result. -/
def seen (x : Bytes × ℤ) : Bytes := x.1.take x.2.toNat

/-- The same buffer in several parts. -/
structure Split where
  iov : List Iovec
  valid : ValidIov iov
  contents_eq : contents iov = r.delivered

/-- The buffers and the result of `recvmsg`, in order. -/
def ofRecvmsg (x : List Iovec × ℤ) : Bytes × ℤ := (contents x.1, x.2)

/-- What the calls with one buffer leave. -/
structure Flat (rx : Receiver) (x : Bytes × ℤ) : Prop where
  recv : hookedRecv abi rx r.delivered r.buffer.length r.ret = some x
  recvfrom : hookedRecvfrom abi rx r.delivered r.buffer.length r.ret = some x
  recvfromChk : ∀ bufSize, r.buffer.length ≤ bufSize →
    hookedRecvfromChk abi rx r.delivered r.buffer.length bufSize r.ret = some x
  recvmsg : ∀ scratch, (hookedRecvmsg abi rx scratch [.memory r.delivered] r.ret).map ofRecvmsg =
    some x

/-- What `recvmsg` with several buffers leaves. -/
def Scattered (rx : Receiver) (x : Bytes × ℤ) : Prop :=
  ∀ s : r.Split, s.iov.length ≠ 1 → (hookedRecvmsg abi rx true s.iov r.ret).map ofRecvmsg = some x

theorem length_received : r.received.length = min r.datagram.length r.buffer.length := by
  rw [received, List.length_take, min_comm]

theorem length_delivered : r.delivered.length = r.buffer.length := by
  rw [delivered, List.length_append, List.length_drop, length_received]
  omega

theorem take_delivered : r.delivered.take r.received.length = r.received := by
  rw [delivered, List.take_left]

theorem min_ret : min r.ret r.buffer.length = r.received.length := by
  rw [ret, length_received]
  split_ifs
  · push_cast
    rfl
  · omega

theorem ret_nonneg : 0 ≤ r.ret := by
  rw [ret]
  split_ifs <;> omega

theorem replaced_received : r.replaced r.received = (r.delivered, r.ret) := by
  have hsplit := List.take_append_drop r.received.length r.delivered
  rw [take_delivered] at hsplit
  rw [replaced, sub_self, sub_zero, hsplit]

theorem length_received_le : r.received.length ≤ r.delivered.length := by
  rw [length_delivered, length_received]
  exact min_le_right _ _

theorem received_lt : r.received.length < 2 ^ (abi.bits - 1) := by
  have hlt := r.buffer_lt
  rw [length_received]
  omega

section Filtered

variable {r} {i : UInt32} {is : List UInt32} {vpnUid : UInt32} {left : Bytes}

/-- In place. -/
theorem hookedFlat_eq (hleaves : Leaves abi (i :: is) vpnUid r.received left) :
    hookedFlat abi (.outside i is vpnUid) r.delivered r.ret r.received.length =
      some (if Gate r.received then r.replaced left else (r.delivered, r.ret)) := by
  have hfilter :=
    @maybeFilterNetlinkBuf_eq abi vpnUid i is r.delivered left r.received.length
      r.length_received_le (by rwa [take_delivered])
  rw [take_delivered] at hfilter
  rw [hookedFlat, hfilter, Option.map_some]
  split_ifs
  · rfl
  · simp

theorem hookedFlat_of_not_gate (hgate : ¬Gate r.received) :
    hookedFlat abi (.outside i is vpnUid) r.delivered r.ret r.received.length =
      some (r.delivered, r.ret) := by
  have hsame := @maybeFilterNetlinkBuf_of_not_gate abi vpnUid i is r.delivered r.received.length
    (by rwa [take_delivered])
  rw [hookedFlat, hsame]
  simp

end Filtered

/-- Nothing is received if the result says so. -/
theorem received_eq_nil (h : r.ret ≤ 0) : r.received = [] := by
  have hnonneg := r.ret_nonneg
  have hmin := r.min_ret
  refine List.length_eq_zero_iff.1 ?_
  omega

/-- The calls with one buffer do the same to it. -/
theorem flat {rx : Receiver} {x : Bytes × ℤ}
    (hflat : hookedFlat abi rx r.delivered r.ret r.received.length = some x)
    (hnone : r.ret ≤ 0 → x = (r.delivered, r.ret)) : r.Flat rx x := by
  have hone : ∀ bytes, contents [.memory bytes] = bytes := fun bytes => List.append_nil bytes
  have hsize := Abi.toIsize_eq r.buffer_lt
  refine ⟨?_, ?_, fun bufSize hle => ?_, fun scratch => ?_⟩
  · rw [hookedRecv, hsize, min_ret, hflat]
  · rw [hookedRecvfrom, hsize, min_ret, hflat]
  · rw [hookedRecvfromChk, min_eq_left hle, hsize, min_ret, hflat]
  · by_cases hret : r.ret ≤ 0
    · rw [hookedRecvmsg, if_pos hret, Option.map_some, ofRecvmsg, hone, hnone hret]
    · have hrun : hookedRecvmsg abi rx scratch [.memory r.delivered] r.ret =
          (hookedFlat abi rx r.delivered r.ret (min r.ret (abi.toIsize r.delivered.length))).map
            fun x => ([.memory x.1], x.2) := if_neg hret
      rw [hrun, length_delivered, hsize, min_ret, hflat, Option.map_some,
        Option.map_some, ofRecvmsg, hone]

/-- What several buffers have received. -/
theorem iovecPayloadLen_ret {iov : List Iovec} (hvalid : ValidIov iov)
    (hcontents : contents iov = r.delivered) :
    iovecPayloadLen (2 ^ abi.bits - 1) iov r.ret.toNat = some r.received.length := by
  have hlt := r.length_lt
  have hpow := abi.two_pow_bits
  have hmin := r.min_ret
  have hle : r.ret ≤ r.datagram.length := by
    rw [ret, length_received]
    split_ifs <;> omega
  rw [iovecPayloadLen_eq hvalid (by omega), hcontents, length_delivered]
  congr 1
  have hnonneg := r.ret_nonneg
  omega

/-- `recvmsg` with several buffers filters whatever comes first. -/
theorem scattered {i : UInt32} {is : List UInt32} {vpnUid : UInt32} {left : Bytes}
    (hleaves : Leaves abi (i :: is) vpnUid r.received left) :
    r.Scattered (.outside i is vpnUid) (r.replaced left) := by
  rintro ⟨iov, hvalid, hcontents⟩ hseveral
  -- What is too short to be filtered is left as it is.
  have hshort :
      r.received.length < 16 → some (ofRecvmsg (iov, r.ret)) = some (r.replaced left) := by
    intro h
    rw [hleaves.unique _ _ (leaves_short (i :: is) vpnUid h), replaced_received,
      ofRecvmsg, hcontents]
  dsimp only at hseveral ⊢
  -- With one buffer the path is the flat one.
  match iov, hseveral with
  | [], _ =>
    have hnil : r.received = [] := by
      rw [← take_delivered, ← hcontents]
      exact List.take_nil
    rw [hookedRecvmsg, ite_self]
    exact hshort (by rw [hnil]; decide)
  | [entry], hseveral => exact absurd rfl hseveral
  | e₁ :: e₂ :: rest, _ =>
    -- Nothing is filtered if nothing was received.
    by_cases hret : r.ret ≤ 0
    · have hrun : hookedRecvmsg abi (.outside i is vpnUid) true (e₁ :: e₂ :: rest) r.ret =
          some (e₁ :: e₂ :: rest, r.ret) := if_pos hret
      rw [hrun]
      exact hshort (by rw [r.received_eq_nil hret]; decide)
    · have hrun : hookedRecvmsg abi (.outside i is vpnUid) true (e₁ :: e₂ :: rest) r.ret =
          receiveSeveral abi (.outside i is vpnUid) true (e₁ :: e₂ :: rest) r.ret := if_neg hret
      have hpayload := r.iovecPayloadLen_ret hvalid hcontents
      have htake : (contents (e₁ :: e₂ :: rest)).take r.received.length = r.received := by
        rw [hcontents, take_delivered]
      obtain ⟨iov', hrewrite, hcontents'⟩ := rewriteIovecPayload_eq (i :: is) vpnUid hvalid
        (r.length_received_le.trans_eq (congrArg List.length hcontents.symm)) (htake.symm ▸ hleaves)
      rw [hcontents] at hcontents'
      rw [hrun]
      dsimp only [receiveSeveral, Receiver.outside]
      rw [hpayload]
      dsimp only
      rw [hrewrite]
      by_cases hlen : r.received.length < 16
      · simp only [hlen, if_true, Bool.not_true, Bool.or_self, Bool.false_eq_true, if_false]
        exact hshort hlen
      · simp only [hlen, Bool.not_true, Bool.or_self, Bool.false_eq_true, if_false,
          reduceCtorEq, Option.map_some]
        rw [ofRecvmsg, replaced, hcontents', Nat.cast_sub hleaves.le]

/-- What the filter leaves of the bytes that are received; nothing if it does not return. -/
def filtered (i : UInt32) (is : List UInt32) (vpnUid : UInt32) : Option Bytes :=
  (abi.filterDump (i :: is) vpnUid r.received).map fun x => x.1.take x.2

theorem filtered_of_leaves {i : UInt32} {is : List UInt32} {vpnUid : UInt32} {left : Bytes}
    (hleaves : Leaves abi (i :: is) vpnUid r.received left) :
    r.filtered i is vpnUid = some left := by
  rw [filtered, hleaves.returns, Option.map_some, List.take_left]

/-- The calls leave the same, however the datagram is received: the caller sees what the filter
    leaves, behind what is received nothing is touched, and the result is shortened by what is
    removed. -/
def Uniform (i : UInt32) (is : List UInt32) (vpnUid : UInt32) : Prop :=
  ∃ x left, r.filtered i is vpnUid = some left ∧ r.Flat (.outside i is vpnUid) x ∧
    r.Scattered (.outside i is vpnUid) x ∧ seen x = left ∧
    x.1.drop r.received.length = r.delivered.drop r.received.length ∧
    x.2 = r.ret - (r.received.length - left.length)

/-- A datagram that is received in several buffers is filtered, and so is one that is received in
    one if its first message has a type that is filtered, or if nothing is removed; otherwise it is
    left alone there. The bytes behind what is received are left, and the result is shortened by
    what is removed: the caller sees what the filter leaves, if the datagram has not been truncated.
    With 32 bits the filter does not return from a header that overruns. -/
theorem receptions_agree (i : UInt32) (is : List UInt32) (vpnUid : UInt32)
    (hsafe : abi = .arm64V8a ∨ ¬abi.Wraps r.received) :
    ∃ left, r.filtered i is vpnUid = some left ∧
      r.Scattered (.outside i is vpnUid) (r.replaced left) ∧
      (Gate r.received ∨ left = r.received → r.Flat (.outside i is vpnUid) (r.replaced left)) ∧
      (¬Gate r.received → r.Flat (.outside i is vpnUid) (r.delivered, r.ret)) ∧
      (r.replaced left).1.drop r.received.length = r.delivered.drop r.received.length ∧
      (r.replaced left).2 = r.ret - (r.received.length - left.length) ∧
      (r.ret = r.received.length → seen (r.replaced left) = left) := by
  -- On 64 bits no length wraps around.
  have hwraps : ¬abi.Wraps r.received := by
    rcases hsafe with rfl | h
    · exact Abi.not_wraps_arm64V8a r.received_lt
    · exact h
  -- The filter returns then, and what it leaves is the same on every path.
  obtain ⟨left, hleaves⟩ := exists_leaves (i :: is) vpnUid r.received_lt hwraps
  have hle := hleaves.le
  have hflat := hookedFlat_eq hleaves
  have hnone : r.ret ≤ 0 → ¬Gate r.received := fun h => by
    rw [r.received_eq_nil h]
    decide
  have hunfiltered : ¬Gate r.received → r.Flat (.outside i is vpnUid) (r.delivered, r.ret) :=
    fun h => r.flat (hookedFlat_of_not_gate h) fun _ => rfl
  refine ⟨left, r.filtered_of_leaves hleaves, r.scattered hleaves, fun h => ?_, hunfiltered,
    ?_, rfl, fun h => ?_⟩
  · -- The flat paths filter only behind the gate, and the others whatever comes first.
    by_cases hgate : Gate r.received
    · rw [if_pos hgate] at hflat
      exact r.flat hflat fun hret => absurd hgate (hnone hret)
    · rw [h.resolve_left hgate, replaced_received]
      exact hunfiltered hgate
  · obtain ⟨k, hk⟩ := Nat.exists_eq_add_of_le hle
    rw [replaced, hk, ← List.drop_drop, List.drop_left, List.drop_drop]
  · have hlen : (r.ret - (r.received.length - left.length)).toNat = left.length := by omega
    rw [seen, replaced, hlen, List.take_left]

end Reception

/-- A message that ends nothing and hides nothing, and the link of the interface 7. -/
def noopThenLink : Bytes :=
  [16, 0, 0, 0, 1, 0, 0, 0, 0, 0, 0, 0, 0, 0, 0, 0] ++
    [24, 0, 0, 0, 16, 0, 0, 0, 0, 0, 0, 0, 0, 0, 0, 0, 0, 0, 0, 0, 7, 0, 0, 0]

/-- The links of the interfaces 7 and 2, with 32 bits. -/
def twoLinks : Reception .armeabiV7a :=
  ⟨noopThenLink.drop 16 ++
    [24, 0, 0, 0, 16, 0, 0, 0, 0, 0, 0, 0, 0, 0, 0, 0, 0, 0, 0, 0, 2, 0, 0, 0], List.replicate 64 0,
      false, by decide, by decide⟩

/-- Whoever receives them sees the second one. -/
theorem receptions_agree_twoLinks : ∃ x : Bytes × ℤ, twoLinks.Flat (.outside 7 [] 0) x ∧
    twoLinks.Scattered (.outside 7 [] 0) x ∧ Reception.seen x = twoLinks.datagram.drop 24 := by
  have hwhole : ¬Abi.armeabiV7a.Wraps twoLinks.received := by
    rw [Abi.Wraps, show (messages twoLinks.received).2 = [] by decide +kernel]
    exact Abi.not_overruns_nil _
  have hleft : twoLinks.filtered 7 [] 0 = some (twoLinks.datagram.drop 24) := by decide +kernel
  obtain ⟨left, hfiltered, hscattered, hflat, -, -, -, hseen⟩ :=
    twoLinks.receptions_agree 7 [] 0 (.inr hwhole)
  obtain rfl := Option.some.inj (hleft.symm.trans hfiltered)
  exact ⟨_, hflat (.inl (by decide +kernel)), hscattered, hseen (by decide +kernel)⟩

/-- It is received as it is. -/
def noopReception : Reception .arm64V8a :=
  ⟨noopThenLink, List.replicate 64 0, false, by decide, by decide⟩

/-- The link alone, and one that does not fit the buffer. -/
def truncatedReception : Reception .arm64V8a :=
  ⟨noopThenLink.drop 16 ++ noopThenLink.drop 16, List.replicate 24 0, true, by decide, by decide⟩

/-- One buffer is not filtered where the first message has another type; and the caller sees what
    has been removed where the datagram is truncated. -/
theorem not_uniform : ¬noopReception.Uniform 7 [] 0 ∧ ¬truncatedReception.Uniform 7 [] 0 := by
  constructor
  · rintro ⟨x, left, hleft, hflat, -, -, -, hret⟩
    have hrecv :
        (hookedRecv .arm64V8a (.outside 7 [] 0) noopReception.delivered noopReception.buffer.length
        noopReception.ret).map Prod.snd = some 40 := by decide +kernel
    have hshort : (noopReception.filtered 7 [] 0).map (fun left => noopReception.ret -
        (noopReception.received.length - left.length)) = some 16 := by decide +kernel
    rw [hleft, Option.map_some, ← hret] at hshort
    rw [hflat.recv, Option.map_some, Option.some.inj hshort] at hrecv
    cases hrecv
  · rintro ⟨x, left, hleft, hflat, -, hseen, -, -⟩
    have hrecv : (hookedRecv .arm64V8a (.outside 7 [] 0) truncatedReception.delivered
        truncatedReception.buffer.length truncatedReception.ret).map Reception.seen ≠ some [] := by
      decide +kernel
    have hfiltered : truncatedReception.filtered 7 [] 0 = some [] := by decide +kernel
    rw [hfiltered] at hleft
    rw [hflat.recv, Option.map_some, hseen, ← Option.some.inj hleft] at hrecv
    exact hrecv rfl

end VpnHide.Zygisk

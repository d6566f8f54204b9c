import VpnHide.Lib.Batches
import VpnHide.Zygisk.Widths

/-!
# Listing a directory

`hooked_getdents64` of `zygisk/src/filesystem.rs` removes the entries of VPN interfaces from what
the kernel has written into the buffer of the caller: a batch of records, each of which says how
long it is. Positions within a buffer do not overflow, since a record is at most 65535 bytes long;
every access is checked here all the same (`compactDents64_eq`).

The compacted length is what the call returns, and a result of 0 is the end of the directory. So a
listing is complete unless a batch in which all entries are hidden comes before one with another
entry (`listing_complete_iff`).
-/

namespace VpnHide.Zygisk

open Lib

/-! ## The filter -/

/-- Where a record has its length. -/
def dents64ReclenOff : ℕ := 16

/-- Where a record has its name. -/
def dents64NameOff : ℕ := 19

/-- The name of a record is one of a VPN interface. -/
def dent64NameIsVpn (rec : Bytes) : Bool :=
  if rec.length < dents64NameOff then false
  else
    let name := (rec.drop dents64NameOff).takeWhile (· != 0)
    name ≠ [] && isVpnIfaceBytes name

/-- The length that a record says, if its header is there. -/
def reclenAt (data : Bytes) (pos : ℕ) : Option ℕ :=
  match data[pos + dents64ReclenOff]?, data[pos + dents64ReclenOff + 1]? with
  | some lo, some hi => some (fromLeBytes [lo, hi])
  | _, _ => none

/-- The loop. -/
def compactBody (len : ℕ) (s : Cursors) : Flow Cursors Cursors :=
  if s.readPos + dents64NameOff ≤ len then
    match reclenAt s.data s.readPos with
    | none => .panic
    | some reclen =>
      if reclen < dents64NameOff ∨ len < s.readPos + reclen then .done s
      else
        match slice s.data s.readPos (s.readPos + reclen) with
        | none => .panic
        | some rec =>
          if !dent64NameIsVpn rec then
            match moveWithin s.data s.readPos (s.readPos + reclen) s.writePos with
            | none => .panic
            | some data => .next ⟨data, s.readPos + reclen, s.writePos + reclen⟩
          else .next { s with readPos := s.readPos + reclen }
  else .done s

/-- The bytes after the last record. -/
def compactTail (len : ℕ) (s : Cursors) : Flow Cursors (Bytes × ℕ) :=
  if s.readPos < len then
    match moveWithin s.data s.readPos len s.writePos with
    | none => .panic
    | some data => .done (data, s.writePos + (len - s.readPos))
  else .done (s.data, s.writePos)

/-- The buffer, and the length of what is valid in it. -/
def compactDents64 (buf : Bytes) : Flow Cursors (Bytes × ℕ) :=
  match iterate (compactBody buf.length) (buf.length + 1) ⟨buf, 0, 0⟩ with
  | .next s => .next s
  | .done s => compactTail buf.length s
  | .panic => .panic

/-- What a call returns and leaves in the buffer of the caller, from what the kernel has returned
    and written, for a directory that lists interfaces or another one. -/
def hookedGetdents64 (listing : Bool) (n : ℤ) (dirp : Bytes) : Flow Cursors (ℤ × Bytes) :=
  if n ≤ 0 ∨ !listing then .done (n, dirp)
  else
    match compactDents64 (dirp.take n.toNat) with
    | .next s => .next s
    | .done (buf, len) => .done (len, buf ++ dirp.drop n.toNat)
    | .panic => .panic

/-! ## Records -/

/-- The length of the record that a buffer begins with. -/
def nextDirent (l : Bytes) : Option ℕ :=
  if dents64NameOff ≤ l.length then
    (reclenAt l 0).bind fun reclen => if reclen < dents64NameOff ∨ l.length < reclen then
      none else some reclen
  else none

/-- The records of a buffer, and the bytes after them. -/
def dirents (buf : Bytes) : List Bytes × Bytes := records nextDirent buf

/-- What is left of a buffer: the records that do not name a VPN interface, and the tail. -/
def visible (buf : Bytes) : Bytes :=
  ((dirents buf).1.filter fun r => !dent64NameIsVpn r).flatten ++ (dirents buf).2

theorem isNext_nextDirent : IsNext nextDirent := by
  intro l n h
  rw [nextDirent] at h
  split_ifs at h with hlen
  obtain ⟨k, -, h⟩ := Option.bind_eq_some_iff.1 h
  split_ifs at h with hbad
  rw [dents64NameOff] at *
  rw [← Option.some.inj h]
  omega

theorem reclenAt_append {l : Bytes} (hl : dents64NameOff ≤ l.length) (t : Bytes) :
    reclenAt (l ++ t) 0 = reclenAt l 0 := by
  rw [dents64NameOff] at hl
  rw [reclenAt, reclenAt, dents64ReclenOff, List.getElem?_append_left (by omega),
    List.getElem?_append_left (by omega)]

theorem reclenAt_drop (l : Bytes) (a : ℕ) : reclenAt (l.drop a) 0 = reclenAt l a := by
  rw [reclenAt, reclenAt, List.getElem?_drop, List.getElem?_drop, dents64ReclenOff,
    Nat.zero_add, Nat.add_assoc]

theorem exists_reclenAt {l : Bytes} {a : ℕ} (h : a + dents64NameOff ≤ l.length) :
    ∃ reclen, reclenAt l a = some reclen := by
  rw [dents64NameOff] at h
  rw [reclenAt, dents64ReclenOff, List.getElem?_eq_getElem (by omega),
    List.getElem?_eq_getElem (by omega)]
  exact ⟨_, rfl⟩

theorem nextDirent_eq_some_iff {l : Bytes} {n : ℕ} :
    nextDirent l = some n ↔ reclenAt l 0 = some n ∧ dents64NameOff ≤ n ∧ n ≤ l.length := by
  rw [nextDirent]
  split_ifs with hlen
  · rw [Option.bind_eq_some_iff]
    constructor
    · rintro ⟨k, hk, h⟩
      split_ifs at h with hbad
      obtain rfl := Option.some.inj h
      exact ⟨hk, by omega, by omega⟩
    · rintro ⟨hk, hlo, hhi⟩
      exact ⟨n, hk, if_neg (by omega)⟩
  · exact iff_of_false nofun fun h => hlen (h.2.1.trans h.2.2)

/-- A record is the same whatever follows it. -/
theorem nextDirent_append {l : Bytes} {n : ℕ} (h : nextDirent l = some n) (t : Bytes) :
    nextDirent (l.take n ++ t) = some n := by
  obtain ⟨hk, hlo, hhi⟩ := nextDirent_eq_some_iff.1 h
  have hlen : (l.take n).length = n := List.length_take_of_le hhi
  have hsame : reclenAt (l.take n ++ t) 0 = some n := by
    rw [reclenAt_append (by omega), ← reclenAt_append (by omega) (l.drop n),
      List.take_append_drop, hk]
  rw [nextDirent_eq_some_iff, List.length_append, hlen]
  exact ⟨hsame, hlo, Nat.le_add_right _ _⟩

theorem isLocal_nextDirent : IsLocal nextDirent := fun _ _ h t _ => nextDirent_append h t

/-! ## The loop -/

section Loop

variable {orig kept : Bytes} {s : Cursors}

/-- No record is left. -/
theorem compactBody_tail (hc : Compaction orig s.data s.readPos s.writePos kept)
    (h : nextDirent (orig.drop s.readPos) = none) : compactBody orig.length s = .done s := by
  rw [compactBody]
  split_ifs with hroom
  · obtain ⟨reclen, hreclen⟩ := exists_reclenAt (show s.readPos + dents64NameOff ≤ s.data.length by
      rw [hc.length_eq]
      exact hroom)
    have hlen : dents64NameOff ≤ (orig.drop s.readPos).length := by
      rw [List.length_drop]
      omega
    rw [← reclenAt_drop, hc.unread] at hreclen
    rw [nextDirent, if_pos hlen, hreclen, Option.bind_some, List.length_drop] at h
    split_ifs at h with hbad
    rw [← reclenAt_drop, hc.unread, hreclen]
    exact if_pos (by omega)
  · rfl

/-- A record is kept or not. -/
theorem compactBody_record (hc : Compaction orig s.data s.readPos s.writePos kept) {n : ℕ}
    (h : nextDirent (orig.drop s.readPos) = some n) :
    compactBody orig.length s =
      if dent64NameIsVpn ((orig.drop s.readPos).take n) then
        .next { s with readPos := s.readPos + n }
      else .next ⟨moveDown s.data s.readPos n s.writePos, s.readPos + n, s.writePos + n⟩ := by
  obtain ⟨hreclen, hlo, hhi⟩ := nextDirent_eq_some_iff.1 h
  have hr := hc.le_length
  rw [List.length_drop] at hhi
  have hroom : s.readPos + n ≤ s.data.length := by
    rw [hc.length_eq]
    omega
  have hslice : slice s.data s.readPos (s.readPos + n) = some ((orig.drop s.readPos).take n) := by
    rw [Abi.slice_eq, getRange_eq_some hroom, hc.unread]
  rw [compactBody, if_pos (by omega), ← reclenAt_drop, hc.unread, hreclen]
  dsimp only
  rw [if_neg (by omega), hslice]
  dsimp only
  rw [Abi.moveWithin_eq hc.le hroom]
  cases dent64NameIsVpn ((orig.drop s.readPos).take n) <;> rfl

end Loop

/-- The loop compacts the records that are left, and stops at the tail. -/
theorem compactBody_iterate (orig l : Bytes) :
    ∀ (fuel : ℕ) (s : Cursors) (kept : Bytes), Compaction orig s.data s.readPos s.writePos kept →
      orig.drop s.readPos = l → l.length < fuel →
      ∃ s', iterate (compactBody orig.length) fuel s = .done s' ∧
        Compaction orig s'.data s'.readPos s'.writePos
          (kept ++ ((dirents l).1.filter fun r => !dent64NameIsVpn r).flatten) ∧
        orig.drop s'.readPos = (dirents l).2 := by
  induction l using records_induction isNext_nextDirent with
  | tail l h =>
    rintro fuel s kept hc rfl hfuel
    obtain ⟨fuel, rfl⟩ := Nat.exists_eq_add_one_of_ne_zero (Nat.ne_of_gt (Nat.zero_lt_of_lt hfuel))
    refine ⟨s, iterate_of_done (compactBody_tail hc h) fuel, ?_, ?_⟩
    · rw [dirents, records_of_none h, List.filter_nil, List.flatten_nil, List.append_nil]
      exact hc
    · rw [dirents, records_of_none h]
  | record l n h ih =>
    rintro fuel s kept hc rfl hfuel
    obtain ⟨fuel, rfl⟩ := Nat.exists_eq_add_one_of_ne_zero (Nat.ne_of_gt (Nat.zero_lt_of_lt hfuel))
    have hbody := compactBody_record hc h
    obtain ⟨hpos, hle⟩ := isNext_nextDirent _ _ h
    have hr := hc.le_length
    rw [List.length_drop] at hle
    have hroom : s.readPos + n ≤ orig.length := by omega
    have hdrop : orig.drop (s.readPos + n) = (orig.drop s.readPos).drop n := by rw [List.drop_drop]
    have hfuel' : ((orig.drop s.readPos).drop n).length < fuel := by
      rw [List.length_drop] at hfuel
      rw [List.length_drop, List.length_drop]
      omega
    rw [dirents, records_of_some isNext_nextDirent h, List.filter_cons]
    dsimp only
    by_cases hvpn : dent64NameIsVpn ((orig.drop s.readPos).take n) = true
    · rw [if_pos hvpn] at hbody
      rw [if_neg (by simp [hvpn]), iterate_of_next hbody]
      exact ih fuel { s with readPos := s.readPos + n } kept (hc.skip hroom) hdrop hfuel'
    · rw [if_neg hvpn] at hbody
      rw [if_pos (by simp [hvpn]), iterate_of_next hbody, List.flatten_cons, ← List.append_assoc]
      exact ih fuel _ _ (hc.keep hroom) hdrop hfuel'

/-- The filter returns what is left, and does not panic on the way. -/
theorem compactDents64_eq (buf : Bytes) :
    ∃ data, compactDents64 buf = .done (data, (visible buf).length) ∧ data.length = buf.length ∧
      data.take (visible buf).length = visible buf := by
  obtain ⟨s, hrun, hc, htail⟩ :=
    compactBody_iterate buf buf (buf.length + 1) ⟨buf, 0, 0⟩ [] (Compaction.start buf) rfl
      (Nat.lt_succ_self _)
  rw [List.nil_append] at hc
  have hr := hc.le_length
  rw [compactDents64, hrun]
  dsimp only
  rw [compactTail, visible, ← htail]
  split_ifs with hrest
  · -- The tail is kept as a record is.
    have hstop : buf.length = s.readPos + (buf.length - s.readPos) := by omega
    have hkeep := hc.keep hstop.ge
    have hmove :=
      @Abi.moveWithin_eq s.data _ (buf.length - s.readPos) _ hc.le
        (hstop.ge.trans_eq hc.length_eq.symm)
    rw [← hstop] at hmove
    rw [List.take_of_length_le (by rw [List.length_drop])] at hkeep
    rw [hmove, hkeep.length_kept]
    exact ⟨_, rfl, hkeep.length_eq, hkeep.written⟩
  · rw [List.drop_eq_nil_of_le (not_lt.1 hrest), List.append_nil, hc.length_kept]
    exact ⟨_, rfl, hc.length_eq, hc.written⟩

/-- The records of what is left are those that are visible. -/
theorem dirents_visible (buf : Bytes) :
    dirents (visible buf) = ((dirents buf).1.filter fun r => !dent64NameIsVpn r, (dirents buf).2) :=
  records_filter isNext_nextDirent isLocal_nextDirent _ buf

theorem visible_visible (buf : Bytes) : visible (visible buf) = visible buf := by
  rw [visible, dirents_visible, List.filter_filter]
  simp only [Bool.and_self]
  rfl

/-- A buffer is compacted: what is returned is at most its length, the bytes after the last record
    are at the end, and nothing is removed when it is done again. -/
structure Compacts (buf : Bytes) : Prop where
  returns : ∃ data n, compactDents64 buf = .done (data, n) ∧ n ≤ buf.length ∧
    data.take n = ((dirents buf).1.filter fun r => !dent64NameIsVpn r).flatten ++ (dirents buf).2 ∧
    compactDents64 (data.take n) = .done (data.take n, n)

theorem compacts (buf : Bytes) : Compacts buf := by
  obtain ⟨data, hrun, hlen, htake⟩ := compactDents64_eq buf
  refine ⟨data, _, hrun, ?_, htake, ?_⟩
  · have hle := congrArg List.length htake
    rw [List.length_take, hlen] at hle
    omega
  · rw [htake]
    obtain ⟨data', hrun', hlen', htake'⟩ := compactDents64_eq (visible buf)
    rw [visible_visible] at hrun' htake'
    rw [List.take_of_length_le hlen'.le] at htake'
    rw [hrun', htake']

/-! ## A whole directory -/

/-- A record of the kernel. -/
structure Dirent where
  bytes : Bytes
  whole : nextDirent bytes = some bytes.length

/-- What a call gives: some whole records, and the rest of the buffer of the caller. -/
structure Batch where
  records : List Dirent
  ne_nil : records ≠ []
  rest : Bytes

/-- The bytes of a batch. -/
def Batch.bytes (b : Batch) : Bytes := (b.records.map Dirent.bytes).flatten

/-- A caller that reads until it gets 0, which is what comes after the last batch. -/
def readDirectory : List Batch → Option Bytes
  | [] => some []
  | b :: bs => do
    let (n, buf) ← (hookedGetdents64 true b.bytes.length (b.bytes ++ b.rest)).result?
    if n ≤ 0 then some []
    else do
      let later ← readDirectory bs
      some (buf.take n.toNat ++ later)

/-- The caller gets the records that do not name a VPN interface, and no others. -/
def ListsAll (bs : List Batch) : Prop :=
  readDirectory bs =
    some (((bs.flatMap Batch.records).filter fun r => !dent64NameIsVpn r.bytes).map
      Dirent.bytes).flatten

/-- All the entries of a batch are hidden. -/
def Batch.Hidden (b : Batch) : Prop := ∀ r ∈ b.records, dent64NameIsVpn r.bytes = true

theorem Dirent.length_pos (r : Dirent) : 0 < r.bytes.length := (isNext_nextDirent _ _ r.whole).1

/-- The records of a batch are read back. -/
theorem dirents_flatten (rs : List Dirent) :
    dirents (rs.map Dirent.bytes).flatten = (rs.map Dirent.bytes, []) := by
  induction rs with
  | nil => exact records_nil isNext_nextDirent
  | cons r rs ih =>
    have hnext := nextDirent_append r.whole (rs.map Dirent.bytes).flatten
    rw [List.take_length] at hnext
    rw [List.map_cons, List.flatten_cons, dirents, records_of_some isNext_nextDirent hnext,
      List.take_left, List.drop_left, ← dirents, ih]

theorem visible_bytes (b : Batch) :
    visible b.bytes =
      ((b.records.filter fun r => !dent64NameIsVpn r.bytes).map Dirent.bytes).flatten := by
  rw [visible, Batch.bytes, dirents_flatten, List.append_nil, List.filter_map]
  rfl

theorem visible_bytes_eq_nil_iff (b : Batch) : visible b.bytes = [] ↔ b.Hidden := by
  rw [visible_bytes, List.flatten_eq_nil_iff]
  constructor
  · intro h r hr
    by_contra hvisible
    have hmem : r ∈ b.records.filter fun r => !dent64NameIsVpn r.bytes :=
      List.mem_filter.2 ⟨hr, by simp [hvisible]⟩
    exact r.length_pos.ne' (List.length_eq_zero_iff.2 (h _ (List.mem_map_of_mem hmem)))
  · intro h l hl
    obtain ⟨r, hr, -⟩ := List.mem_map.1 hl
    obtain ⟨hmem, hvisible⟩ := List.mem_filter.1 hr
    rw [h r hmem] at hvisible
    cases hvisible

/-- What a call leaves of a batch. -/
theorem hookedGetdents64_batch (b : Batch) :
    ∃ buf, hookedGetdents64 true b.bytes.length (b.bytes ++ b.rest) =
      .done ((visible b.bytes).length, buf) ∧
        buf.take (visible b.bytes).length = visible b.bytes := by
  obtain ⟨data, hrun, hlen, htake⟩ := compactDents64_eq b.bytes
  obtain ⟨r, rs, hrs⟩ := List.exists_cons_of_ne_nil b.ne_nil
  have hpos : ¬((b.bytes.length : ℤ) ≤ 0 ∨ (!true) = true) := by
    have hr := r.length_pos
    rw [Batch.bytes, hrs, List.map_cons, List.flatten_cons, List.length_append]
    simp only [Bool.not_true, Bool.false_eq_true, or_false, Nat.cast_add]
    omega
  have hfit : (visible b.bytes).length ≤ data.length := by
    have hle := congrArg List.length htake
    rw [List.length_take] at hle
    omega
  rw [hookedGetdents64, if_neg hpos, Int.toNat_natCast, List.take_left, List.drop_left, hrun]
  exact ⟨_, rfl, by rw [List.take_append_of_le_length hfit, htake]⟩

theorem readDirectory_eq (bs : List Batch) :
    readDirectory bs = some (readUntilEmpty (bs.map fun b => visible b.bytes)) := by
  induction bs with
  | nil => rfl
  | cons b bs ih =>
    obtain ⟨buf, hrun, htake⟩ := hookedGetdents64_batch b
    rw [readDirectory, hrun, ih, List.map_cons, readUntilEmpty]
    simp only [Flow.result?, Option.bind_eq_bind, Option.bind_some, Int.toNat_natCast, htake]
    have hempty : ((visible b.bytes).length : ℤ) ≤ 0 ↔ visible b.bytes = [] := by
      rw [← List.length_eq_zero_iff]
      omega
    split_ifs with h₁ h₂ h₂
    · rfl
    · exact absurd (hempty.1 h₁) h₂
    · exact absurd (hempty.2 h₂) h₁
    · rfl

/-- A caller that reads a directory to its end gets the visible records, in order and byte for byte,
    if after a batch of which all entries are hidden no visible entry comes; and only then. -/
theorem listing_complete_iff (bs : List Batch) :
    (ListsAll bs ∧ ∀ buf, Compacts buf) ↔
      ∀ pre b post, bs = pre ++ b :: post → b.Hidden → ∀ c ∈ post, c.Hidden := by
  -- What should be listed is what each batch has left, batch by batch;
  have hall : ((bs.flatMap Batch.records).filter fun r => !dent64NameIsVpn r.bytes).map
      Dirent.bytes = bs.flatMap fun b =>
        (b.records.filter fun r => !dent64NameIsVpn r.bytes).map Dirent.bytes := by
    rw [List.filter_flatMap, List.map_flatMap]
  have hflatten :
      (bs.flatMap fun b => (b.records.filter fun r => !dent64NameIsVpn r.bytes).map
        Dirent.bytes).flatten =
      (bs.map fun b => visible b.bytes).flatten := by
    simp only [List.flatMap_def, List.flatten_flatten, List.map_map, visible_bytes]
    rfl
  rw [and_iff_left compacts, ListsAll, readDirectory_eq, Option.some_inj, hall, hflatten,
    readUntilEmpty_eq_flatten_iff]
  -- the reader has all of it unless it stops at a batch that has nothing left before one that has.
  constructor
  · rintro h pre b post rfl hb c hc
    rw [← visible_bytes_eq_nil_iff] at hb ⊢
    refine h (pre.map fun b => visible b.bytes) (post.map fun b => visible b.bytes) ?_ _
      (List.mem_map_of_mem hc)
    rw [List.map_append, List.map_cons, hb]
  · intro h pre post heq l hl
    obtain ⟨pre, rest, rfl, rfl, hrest⟩ := List.map_eq_append_iff.1 heq
    obtain ⟨b, post, rfl, hb, rfl⟩ := List.map_eq_cons_iff.1 hrest
    obtain ⟨c, hc, rfl⟩ := List.mem_map.1 hl
    exact (visible_bytes_eq_nil_iff c).2 (h pre b post rfl ((visible_bytes_eq_nil_iff b).1 hb) c hc)

/-- `tun0` in a batch of its own, before `lo`. -/
def tun0BeforeLo : List Batch :=
  [{ records := [⟨List.replicate 16 0 ++ [24, 0, 0] ++ ascii "tun0" ++ [0], by decide⟩],
      ne_nil := by decide, rest := [] },
    { records := [⟨List.replicate 16 0 ++ [24, 0, 0] ++ ascii "lo" ++ [0, 0, 0], by decide⟩],
      ne_nil := by decide, rest := [] }]

/-- The caller sees an empty directory. -/
theorem not_listsAll_tun0BeforeLo : ¬ListsAll tun0BeforeLo := by
  have hread : readDirectory tun0BeforeLo = some [] := by decide +kernel
  rw [ListsAll, hread]
  decide +kernel

end VpnHide.Zygisk

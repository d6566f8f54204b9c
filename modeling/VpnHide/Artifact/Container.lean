import VpnHide.Artifact.Archive

/-!
# A container

The archives of a library are not looked into (`Zip`). A simple one puts a length before each
string of bytes, and gives back whatever it has written (`faithful_container`).
-/

namespace VpnHide.Artifact

open Lib Native

/-- A string of bytes, with its length before it. -/
def frame (data : Bytes) : Bytes := List.replicate data.length 1 ++ 0 :: data

/-- The first string of bytes, and the rest. -/
def unframe (data : Bytes) : Option (Bytes × Bytes) :=
  let len := (data.takeWhile (· = 1)).length
  let rest := data.drop (len + 1)
  if rest.length < len then none else some (rest.take len, rest.drop len)

/-- The type of the file is not written. -/
def frameMember (m : Member) : Bytes :=
  frame m.name.toUtf8 ++ frame (List.replicate m.mode 0) ++ frame m.content

/-- The entries of a framed archive, if these are as many. -/
def unframeEntries : ℕ → Bytes → Option (List (Option Entry))
  | 0, _ => some []
  | n + 1, data => do
    let name ← unframe data
    let mode ← unframe name.2
    let content ← unframe mode.2
    let entries ← unframeEntries n content.2
    some (some ⟨name.1, false, some (0o100000 + mode.1.length), false, content.1.length,
      some content.1⟩ :: entries)

/-- A container that frames what it holds; it reads back what it writes. -/
def container : Zip where
  read data := do
    let count ← unframe data
    let entries ← unframeEntries count.1.length count.2
    some (count.1.length, entries)
  write members := frame (List.replicate members.length 0) ++ members.flatMap frameMember

variable {files : Files}

/-- A frame is taken off again. -/
theorem unframe_frame (data rest : Bytes) : unframe (frame data ++ rest) = some (data, rest) := by
  have hlen : (frame data ++ rest).takeWhile (· = 1) = List.replicate data.length 1 := by
    have hones : ∀ b ∈ List.replicate data.length (1 : UInt8), decide (b = 1) = true := fun b hb =>
      decide_eq_true (List.eq_of_mem_replicate hb)
    rw [frame, List.append_assoc, List.takeWhile_append_of_pos hones, List.cons_append,
      List.takeWhile_cons]
    exact List.append_nil _
  have hdrop : (frame data ++ rest).drop (data.length + 1) = data ++ rest := by
    have hsplit : frame data ++ rest = (List.replicate data.length 1 ++ [0]) ++ (data ++ rest) := by
      rw [frame, List.append_assoc, List.append_assoc]
      rfl
    rw [hsplit]
    exact List.drop_left' (by simp)
  rw [unframe, hlen, List.length_replicate, hdrop, if_neg (by simp), List.take_left, List.drop_left]

/-- The entries of all members are read back. -/
theorem unframeEntries_flatMap (members : List Member) :
    unframeEntries members.length (members.flatMap frameMember) =
      some (members.map fun m => some m.entry) := by
  induction members with
  | nil => rfl
  | cons m members ih =>
    rw [List.flatMap_cons, frameMember, List.append_assoc, List.append_assoc, List.length_cons,
      unframeEntries, unframe_frame]
    change (unframe _ >>= _) = _
    rw [unframe_frame]
    change (unframe _ >>= _) = _
    rw [unframe_frame]
    change (unframeEntries members.length _ >>= _) = _
    rw [ih, List.length_replicate]
    rfl

/-- The container reads back what it writes. -/
theorem faithful_container (members : List Member) : container.Faithful members where
  nonempty := by simp [container, frame]
  read_write := by
    change (unframe _ >>= _) = _
    rw [container, unframe_frame]
    change (unframeEntries (List.replicate members.length 0).length _ >>= _) = _
    rw [List.length_replicate, unframeEntries_flatMap]
    rfl

/-! ## Small archives -/

/-- A file with a short name and few bytes. -/
structure Small (f : Str × Bytes) : Prop where
  safe : safeName f.1 = true
  name_le : byteLen f.1 ≤ 100
  length_le : f.2.length ≤ maxManifestBytes

instance : DecidablePred Small := fun f =>
  decidable_of_iff (safeName f.1 = true ∧ byteLen f.1 ≤ 100 ∧ f.2.length ≤ maxManifestBytes)
    ⟨fun h => ⟨h.1, h.2.1, h.2.2⟩, fun h => ⟨h.safe, h.name_le, h.length_le⟩⟩

theorem length_frame (data : Bytes) : (frame data).length = 2 * data.length + 1 := by
  rw [frame, List.length_append, List.length_replicate, List.length_cons]
  omega

theorem length_frameMember_le {f : Str × Bytes} (hf : Small f) :
    (frameMember (memberOf f)).length ≤ 2 ^ 18 := by
  have hname : f.1.toUtf8.length ≤ 100 := hf.name_le
  have hcontent : f.2.length ≤ 64 * 1024 := hf.length_le
  have hmode : (memberOf f).mode ≤ 493 := by
    rw [memberOf]
    dsimp only
    split_ifs <;> decide
  rw [frameMember, List.length_append, List.length_append, length_frame, length_frame, length_frame,
    List.length_replicate]
  change 2 * f.1.toUtf8.length + 1 + (2 * (memberOf f).mode + 1) + (2 * f.2.length + 1) ≤ 2 ^ 18
  omega

/-- Few small files can be written. -/
theorem writeArchive_container (hcount : files.length ≤ 64) (hfiles : ∀ f ∈ files, Small f) :
    writeArchive container files = .ok (container.write (files.map memberOf)) := by
  have htotal : totalBytes files ≤ 64 * maxManifestBytes := by
    refine (List.sum_le_card_nsmul _ maxManifestBytes fun n hn => ?_).trans ?_
    · obtain ⟨f, hf, rfl⟩ := List.mem_map.1 hn
      exact (hfiles f hf).length_le
    · rw [List.length_map, smul_eq_mul]
      exact Nat.mul_le_mul_right _ hcount
  have hlength : (container.write (files.map memberOf)).length ≤ 2 * 64 + 1 + 64 * 2 ^ 18 := by
    have hmembers : (files.map fun f => (frameMember (memberOf f)).length).sum ≤ 64 * 2 ^ 18 := by
      refine (List.sum_le_card_nsmul _ (2 ^ 18) fun n hn => ?_).trans ?_
      · obtain ⟨f, hf, rfl⟩ := List.mem_map.1 hn
        exact length_frameMember_le (hfiles f hf)
      · rw [List.length_map, smul_eq_mul]
        exact Nat.mul_le_mul_right _ hcount
    rw [container, List.length_append, length_frame, List.length_replicate, List.length_map,
      List.length_flatMap, List.map_map]
    exact Nat.add_le_add (by omega) hmembers
  refine writeArchive_eq_ok_iff.2 ⟨htotal.trans (by decide), hcount.trans (by decide),
    fun f hf => ?_, rfl, hlength.trans (by decide)⟩
  exact ⟨(hfiles f hf).safe, (hfiles f hf).length_le.trans (by decide)⟩

end VpnHide.Artifact

import VpnHide.Kpm.Paths
import VpnHide.Lib.Loop
import VpnHide.Lib.Scan

/-!
# The walk over a path in memory

`sysfs_iface_path` of `kmod/kpm/vpnhide_kpm.c`, with its pointers. They are indices into the memory
of the string, which ends behind the NUL: what lies there is not read. A length is a word of 32
bits.

Where the walk begins an iteration, what has not been read is a suffix of the path, and the segment
before is where it has been (`Standing`). So an iteration does what one over the suffixes does
(`walkBody_eq`), which is a search among the segments (`sysfsWalk_components`).
-/

namespace VpnHide.Kpm

open Lib Zygisk

/-! ## The code -/

/-- The loop of `segment_equals`, from an index on. -/
def segmentEqualsFrom (mem : Bytes) (segment len i : ℕ) : Bytes → Option Bool
  | [] => some (i = len)
  | l :: literal =>
    if len ≤ i then some false
    else do
      let c ← mem[segment + i]?
      if c ≠ l then some false else segmentEqualsFrom mem segment len (i + 1) literal

section Walk

variable (isVpn : Bytes → Bool) (mem : Bytes)

/-- The loop of `vpn_segment`, with what has been copied. -/
def copySegment (segment : ℕ) (iface : Bytes) : Option Bool := do
  let c ← mem[segment + iface.length]?
  if c = 0 ∨ c = slash then some (iface ≠ [] && isVpn iface)
  else if _h : vpnhideIfnamsiz ≤ iface.length + 1 then some false
  else copySegment segment (iface ++ [c])
termination_by vpnhideIfnamsiz - iface.length
decreasing_by rw [List.length_append, List.length_singleton]; omega

/-- The pointers of the walk. The segment before has a length. -/
structure Place where
  previous : Option (ℕ × ℕ)
  segment : ℕ

/-- The test of the segment before, and then of this one. -/
def isHit (previous : Option (ℕ × ℕ)) (segment : ℕ) : Option Bool :=
  match previous with
  | none => some false
  | some (start, len) => do
    let follows ← segmentEqualsFrom mem start len 0 (ascii "net")
    if follows then copySegment isVpn mem segment [] else some false

/-- An iteration. A read outside of the memory gives nothing. -/
def walkStep (place : Place) : Option (Flow Place Bool) := do
  let c ← mem[place.segment]?
  if c = 0 then some (.done false)
  else
    let segment ← scanFrom (· == slash) mem place.segment
    let c ← mem[segment]?
    if c = 0 then some (.done false)
    else
      let stop ← scanFrom (fun c => c != 0 && c != slash) mem segment
      let hit ← isHit isVpn mem place.previous segment
      if hit then some (.done true)
        else some (.next ⟨some (segment, (stop - segment) % 2 ^ 32), stop⟩)

/-- One turn of the walk. -/
def walkBody (place : Place) : Flow Place Bool := (walkStep isVpn mem place).getD .panic

/-- No memory is given for a null pointer. -/
def sysfsIfacePathIn (mem : Option Bytes) : Option Bool :=
  match mem with
  | none => some false
  | some mem => do
    let c ← mem[0]?
    -- Each iteration but the last goes on by a segment.
    if c ≠ slash then some false else (iterate (walkBody isVpn mem) mem.length ⟨none, 0⟩).result?

end Walk

/-! ## Segments -/

variable {isVpn : Bytes → Bool} {mem s tail : Bytes} {p : ℕ}

/-- A segment is compared where it lies. -/
theorem segmentEqualsFrom_eq {pre rest : Bytes} (literal : Bytes)
    (h : mem.drop p = pre ++ s ++ rest) :
    segmentEqualsFrom mem p (pre ++ s).length pre.length literal =
      some (segmentEquals s literal) := by
  induction literal generalizing pre s with
  | nil => cases s <;> simp [segmentEqualsFrom, segmentEquals]
  | cons l literal ih =>
    rw [segmentEqualsFrom]
    cases s with
    | nil => simp [segmentEquals]
    | cons c s =>
      have hget : mem[p + pre.length]? = some c := by
        rw [List.append_assoc] at h
        exact getElem?_of_drop (drop_of_drop h)
      have hcons : pre ++ c :: s = pre ++ [c] ++ s := List.append_cons pre c s
      have hlen : pre.length + 1 = (pre ++ [c]).length := by simp
      have hnext := @ih s (pre ++ [c]) (by rw [h, hcons])
      rw [if_neg (by simp), hget, Option.bind_eq_bind, Option.bind_some, segmentEquals, hcons, hlen]
      split_ifs
      · rfl
      · exact hnext

/-- A segment is copied where it lies. -/
theorem copySegment_eq (hnul : 0 ∉ tail) {iface : Bytes}
    (h : mem.drop (p + iface.length) = tail ++ [0]) :
    copySegment isVpn mem p iface = some (vpnSegmentFrom isVpn iface tail) := by
  induction tail generalizing iface with
  | nil =>
    rw [copySegment, getElem?_of_drop h, Option.bind_eq_bind, Option.bind_some, if_pos (.inl rfl)]
    rfl
  | cons c tail ih =>
    obtain ⟨hc, htail⟩ := not_or.1 (List.mem_cons.not.1 hnul)
    rw [copySegment, getElem?_of_drop h, Option.bind_eq_bind, Option.bind_some, vpnSegmentFrom]
    by_cases hslash : c = slash
    · rw [if_pos (.inr hslash), if_pos hslash]
    rw [if_neg (not_or.2 ⟨Ne.symm hc, hslash⟩), if_neg hslash]
    by_cases hfull : vpnhideIfnamsiz ≤ iface.length + 1
    · rw [dif_pos hfull, if_pos hfull]
    · rw [dif_neg hfull, if_neg hfull]
      refine ih htail ?_
      rw [List.length_append, List.length_singleton, ← Nat.add_assoc, ← List.drop_drop, h]
      rfl

/-- Where the segment before has been, if there is one. -/
inductive Points (mem : Bytes) : Option (ℕ × ℕ) → Option Bytes → Prop
  | none : Points mem none none
  | some {start : ℕ} {s rest : Bytes} : mem.drop start = s ++ rest →
      Points mem (some (start, s.length)) (some s)

/-- A hit is where a segment after `net` is short and hidden. -/
theorem isHit_eq {previous : Option (ℕ × ℕ)} {before : Option Bytes}
    (hprevious : Points mem previous before) (hnul : 0 ∉ tail) (h : mem.drop p = tail ++ [0]) :
    isHit isVpn mem previous p =
      some (before.any (segmentEquals · (ascii "net")) && vpnSegment isVpn tail) := by
  cases hprevious with
  | none => rfl
  | some hstart =>
    have hfollows := @segmentEqualsFrom_eq mem _ _ [] _ (ascii "net") hstart
    have hcopy := @copySegment_eq isVpn mem tail p hnul [] h
    rw [List.nil_append, List.length_nil] at hfollows
    rw [isHit, hfollows, Option.bind_eq_bind, Option.bind_some, hcopy, Option.any_some, vpnSegment]
    split_ifs with hequal
    · rw [hequal, Bool.true_and]
    · rw [Bool.eq_false_of_not_eq_true hequal, Bool.false_and]

/-! ## Iterations -/

/-- Where an iteration begins: the rest of the path lies there, and the segment before has been
    passed. -/
structure Standing (mem : Bytes) (place : Place) (before : Option Bytes) (tail : Bytes) : Prop where
  previous : Points mem place.previous before
  rest : mem.drop place.segment = tail ++ [0]
  noNul : 0 ∉ tail

variable {place : Place} {before : Option Bytes}

/-- The path ends, maybe after some slashes. -/
theorem walkBody_of_end (h : Standing mem place before tail)
    (hend : tail.dropWhile (· == slash) = []) :
    walkBody isVpn mem place = .done false := by
  have hslashes : ∀ c ∈ tail, (c == slash) = true := List.dropWhile_eq_nil_iff.1 hend
  have hscan := scanFrom_eq h.rest hslashes (by decide)
  have hnul : mem[place.segment + tail.length]? = some 0 := getElem?_of_drop (drop_of_drop h.rest)
  obtain ⟨c, post, hfirst⟩ : ∃ c post, tail ++ [0] = c :: post :=
    List.exists_cons_of_ne_nil (List.append_ne_nil_of_right_ne_nil tail (List.cons_ne_nil 0 []))
  rw [walkBody, walkStep, getElem?_of_drop (h.rest.trans hfirst), Option.bind_eq_bind,
    Option.bind_some]
  split_ifs with hc
  · rfl
  · rw [hscan, Option.bind_eq_bind, Option.bind_some, hnul]
    rfl

/-- A segment is passed, and what comes after it is left. -/
theorem walkBody_of_segment (h : Standing mem place before tail)
    (hend : tail.dropWhile (· == slash) ≠ [])
    (hshort : (headSegment (tail.dropWhile (· == slash))).length < 2 ^ 32) :
    ∃ next, Standing mem next (some (headSegment (tail.dropWhile (· == slash))))
        ((tail.dropWhile (· == slash)).dropWhile (· != slash)) ∧
      walkBody isVpn mem place =
        if before.any (segmentEquals · (ascii "net")) &&
          vpnSegment isVpn (tail.dropWhile (· == slash)) then .done true
        else .next next := by
  set rest := tail.dropWhile (· == slash) with hrest
  set slashes := tail.takeWhile (· == slash) with hslashes
  have htail : tail = slashes ++ rest := List.takeWhile_append_dropWhile.symm
  have hsplit : rest = headSegment rest ++ rest.dropWhile (· != slash) :=
    List.takeWhile_append_dropWhile.symm
  have hnulrest : 0 ∉ rest := fun hmem => h.noNul (htail ▸ List.mem_append_right slashes hmem)
  obtain ⟨c, post, hc⟩ := List.exists_cons_of_ne_nil hend
  have hcslash : (c == slash) = false := by
    have hhead := List.head?_dropWhile_not (· == slash) tail
    rw [← hrest, hc] at hhead
    simpa using hhead
  -- The first byte is a slash or that of the segment.
  have hfirst : ∃ b, mem[place.segment]? = some b ∧ b ≠ 0 := by
    obtain ⟨b, l, hb⟩ : ∃ b l, tail = b :: l :=
      List.exists_cons_of_ne_nil
        (by rw [htail, hc]; exact List.append_ne_nil_of_right_ne_nil _ (List.cons_ne_nil c post))
    refine ⟨b, getElem?_of_drop (by rw [h.rest, hb]; rfl), fun hzero => h.noNul ?_⟩
    rw [hb, hzero]
    exact List.mem_cons_self
  have hskipped : mem.drop place.segment = slashes ++ c :: (post ++ [0]) := by
    rw [h.rest, htail, hc, List.append_assoc]
    rfl
  have hsegment : mem.drop (place.segment + slashes.length) = rest ++ [0] := by
    rw [drop_of_drop hskipped, hc]
    rfl
  have hscan :=
    @scanFrom_eq _ (· == slash) _ _ _ _ _ hskipped
      (fun _ hx => @List.mem_takeWhile_imp _ (· == slash) _ _ hx) hcslash
  have hc0 : c ≠ 0 := fun hzero => hnulrest (by rw [hc, hzero]; exact List.mem_cons_self)
  have hget : mem[place.segment + slashes.length]? = some c :=
    getElem?_of_drop (drop_of_drop hskipped)
  -- The segment ends at a slash or at the NUL.
  obtain ⟨b, l, hb, hstop⟩ : ∃ b l, rest.dropWhile (· != slash) ++ [0] = b :: l ∧
      (b != 0 && b != slash) = false := by
    cases hd : rest.dropWhile (· != slash) with
    | nil => exact ⟨0, [], rfl, rfl⟩
    | cons b l =>
      have hhead := List.head?_dropWhile_not (· != slash) rest
      rw [hd] at hhead
      have hb : b = slash := by simpa using hhead
      exact ⟨b, l ++ [0], rfl, by rw [hb]; rfl⟩
  have hstopped : mem.drop (place.segment + slashes.length) = headSegment rest ++ b :: l := by
    rw [hsegment, ← hb, ← List.append_assoc, ← hsplit]
  have hscan' := @scanFrom_eq _ (fun c => c != 0 && c != slash) mem _ _ _ _ hstopped (fun x hx => by
    have hx0 : x ≠ 0 := fun hzero => hnulrest (hzero ▸ (List.takeWhile_prefix _).subset hx)
    rw [bne_iff_ne.2 hx0, List.mem_takeWhile_imp hx]
    rfl) hstop
  have hhit := @isHit_eq isVpn mem rest _ _ _ h.previous hnulrest hsegment
  obtain ⟨first, hfirst, hfirst0⟩ := hfirst
  refine ⟨⟨some (place.segment + slashes.length, (headSegment rest).length),
    place.segment + slashes.length + (headSegment rest).length⟩, ⟨.some hstopped, ?_, ?_⟩, ?_⟩
  · rw [drop_of_drop hstopped, hb]
  · exact fun hmem => hnulrest ((List.dropWhile_suffix _).subset hmem)
  · rw [walkBody, walkStep]
    simp only [hfirst, hscan, hget, hscan', hhit, Option.bind_eq_bind, Option.bind_some,
      if_neg hfirst0, if_neg hc0, Nat.add_sub_cancel_left, Nat.mod_eq_of_lt hshort]
    split_ifs <;> rfl

/-- The lengths of the segments are words. A path of the kernel has 512 bytes at most. -/
def Short (path : Bytes) : Prop := ∀ s ∈ components slash path, s.length < 2 ^ 32

instance (path : Bytes) : Decidable (Short path) := inferInstanceAs (Decidable (∀ s ∈ _, _))

/-- The walk in memory ends with what the walk over the suffixes of the path decides. -/
theorem iterate_walkBody (n : ℕ) (h : Standing mem place before tail) (hshort : Short tail)
    (hn : tail.length < n) :
    iterate (walkBody isVpn mem) n place = .done (sysfsWalk isVpn before tail) := by
  induction n generalizing place before tail with
  | zero => exact absurd hn (Nat.not_lt_zero _)
  | succ n ih =>
    have hwalk : sysfsWalk isVpn before tail = if tail.dropWhile (· == slash) = [] then false
        else if before.any (segmentEquals · (ascii "net")) &&
          vpnSegment isVpn (tail.dropWhile (· == slash)) then true
        else sysfsWalk isVpn (some (headSegment (tail.dropWhile (· == slash))))
          ((tail.dropWhile (· == slash)).dropWhile (· != slash)) := by
      rw [sysfsWalk]
      by_cases hnil : tail = []
      · rw [if_pos hnil, hnil]
        rfl
      · rw [if_neg hnil]
    rw [hwalk]
    by_cases hend : tail.dropWhile (· == slash) = []
    · rw [if_pos hend]
      exact iterate_of_done (walkBody_of_end h hend) n
    have hcomponents := components_of_ne_nil hend
    rw [Short, hcomponents, List.forall_mem_cons] at hshort
    obtain ⟨next, hnext, hbody⟩ := @walkBody_of_segment isVpn _ _ _ _ h hend hshort.1
    rw [if_neg hend]
    split_ifs at hbody ⊢ with hhit
    · exact iterate_of_done hbody n
    · rw [iterate_of_next hbody]
      exact ih hnext hshort.2 (Nat.lt_of_lt_of_le (length_rest_lt hend) (Nat.le_of_lt_succ hn))

variable {path : Bytes}

/-- The walk in memory ends behind no NUL, and decides what the one over the path does. -/
theorem sysfsIfacePathIn_eq (hnul : 0 ∉ path) (hshort : Short path) :
    sysfsIfacePathIn isVpn (some (path ++ [0])) = some (sysfsIfacePath isVpn path) := by
  have hrun :=
    @iterate_walkBody isVpn (path ++ [0]) path ⟨none, 0⟩ none (path ++ [0]).length
      ⟨.none, rfl, hnul⟩ hshort (by simp)
  rw [sysfsIfacePathIn, sysfsIfacePath, hrun]
  cases path with
  | nil => rfl
  | cons c path =>
    change (if c ≠ slash then some false else _) = _
    rw [List.head?_cons, apply_ite some]
    refine if_congr ?_ rfl rfl
    rw [ne_eq, ne_eq, Option.some_inj]

/-- The walk, by the components of the path. -/
theorem sysfsIfacePath_iff_components :
    sysfsIfacePath isVpn path = true ↔ path.head? = some slash ∧ FollowsNet (isShortVpn isVpn)
      (components slash path) := by
  have hiff := @followsNet_iff (isShortVpn isVpn) (components slash path) none
  rw [or_iff_right fun h => nomatch h.1] at hiff
  rw [sysfsIfacePath, sysfsWalk_components, ← hiff]
  split_ifs with hhead
  · exact iff_of_false not_false fun h => hhead h.1
  · rw [and_iff_right (not_not.1 hhead)]

/-- The function ends within the string, and finds the name of a VPN interface that follows a
    segment `net`. The number of slashes between two segments, or at the end, does not matter. -/
theorem sysfs_iface_path_iff (path : Bytes) (hnul : 0 ∉ path) (hshort : Short path) :
    ∃ hit, sysfsIfacePathIn ifaceIsVpn (some (path ++ [0])) = some hit ∧
      (hit = true ↔ path.head? = some slash ∧ ∃ before u after, components slash path = before ++
        net :: u :: after ∧ 1 ≤ u.length ∧ u.length ≤ 15 ∧ ifaceIsVpn u = true) ∧
      (∀ a b k, path = a ++ slash :: b →
        sysfsIfacePathIn ifaceIsVpn (some (a ++ List.replicate (k + 1) slash ++ b ++ [0])) =
          some hit) ∧
      ∀ k, sysfsIfacePathIn ifaceIsVpn (some (path ++ List.replicate k slash ++ [0])) =
        some hit := by
  -- The answer depends on the components, and on the first slash if there are any.
  have hsame : ∀ other : Bytes, 0 ∉ other → components slash other = components slash path →
      (components slash path ≠ [] → (other.head? = some slash ↔ path.head? = some slash)) →
      sysfsIfacePathIn ifaceIsVpn (some (other ++ [0])) =
        some (sysfsIfacePath ifaceIsVpn path) := by
    intro other hother hcomponents hhead
    rw [sysfsIfacePathIn_eq hother (by rwa [Short, hcomponents]), Option.some_inj, Bool.eq_iff_iff,
      sysfsIfacePath_iff_components, sysfsIfacePath_iff_components, hcomponents]
    refine and_congr_left fun hfollows => hhead fun hnil => ?_
    obtain ⟨before, u, after, heq, -⟩ := hfollows
    rw [hnil] at heq
    exact List.append_ne_nil_of_right_ne_nil before (List.cons_ne_nil _ _) heq.symm
  have hslashes : ∀ k, 0 ∉ List.replicate k slash := fun k hmem => by
    have hzero := List.eq_of_mem_replicate hmem
    exact absurd hzero (by decide)
  refine ⟨_, sysfsIfacePathIn_eq hnul hshort, ?_, fun a b k hpath => ?_, fun k => ?_⟩
  · rw [sysfsIfacePath_iff_components]
    refine and_congr_right fun _ => exists_congr fun before => exists_congr fun u =>
      exists_congr fun after =>
      and_congr_right fun heq => ?_
    have hne := (isComponent_of_mem
      (heq ▸ List.mem_append_right before (List.mem_cons_of_mem _ List.mem_cons_self))).1
    rw [isShortVpn, Bool.and_eq_true, decide_eq_true_iff]
    exact (and_iff_right (List.length_pos_iff.2 hne)).symm
  · subst hpath
    refine hsame _ ?_ ?_ fun _ => ?_
    · simp only [List.mem_append, List.mem_cons, not_or] at hnul ⊢
      exact ⟨⟨hnul.1, hslashes _⟩, hnul.2.2⟩
    · -- More slashes are no more components.
      rw [List.append_assoc, List.replicate_succ, List.cons_append, components_append_cons,
        components_append_cons, components_replicate_append]
    · cases a <;> rfl
  · refine hsame _ ?_ ?_ fun hne => ?_
    · rw [List.mem_append, not_or]
      exact ⟨hnul, hslashes k⟩
    · cases k with
      | zero => rw [List.replicate_zero, List.append_nil]
      | succ k =>
        have hnil := @components_replicate_append _ _ slash k []
        rw [List.append_nil] at hnil
        rw [List.replicate_succ, components_append_cons, hnil]
        exact List.append_nil _
    · cases path with
      | nil => exact absurd rfl hne
      | cons c path => rfl

/-- `/class//net/tun0/` -/
theorem sysfs_iface_path_tun0 :
    ∃ hit, sysfsIfacePathIn ifaceIsVpn (some (ascii "/class//net/tun0/" ++ [0])) = some hit ∧
      (hit = true ↔ (ascii "/class//net/tun0/").head? = some slash ∧
        ∃ before u after, components slash (ascii "/class//net/tun0/") = before ++ net :: u ::
          after ∧ 1 ≤ u.length ∧ u.length ≤ 15 ∧ ifaceIsVpn u = true) ∧
      (∀ a b k, ascii "/class//net/tun0/" = a ++ slash :: b →
        sysfsIfacePathIn ifaceIsVpn (some (a ++ List.replicate (k + 1) slash ++ b ++ [0])) =
          some hit) ∧
      ∀ k, sysfsIfacePathIn ifaceIsVpn
        (some (ascii "/class//net/tun0/" ++ List.replicate k slash ++ [0])) = some hit :=
  sysfs_iface_path_iff (ascii "/class//net/tun0/") (by decide) (by decide)

end VpnHide.Kpm

import VpnHide.Kpm.Rules
import VpnHide.Zygisk.Paths

/-!
# Resolved paths in the kernel

The KPM classifies the path of a dentry within its mount (`sysfs_iface_path`,
`proc_iface_path` and the listings of `kmod/kpm/vpnhide_kpm.c`), Zygisk the path that an app
has asked for. Strings are C strings, here without their NUL.

The walk of the KPM remembers the segment before (`sysfsIfacePath_joined`), where the search of
Zygisk skips one after a hit. They agree on the paths where this does not matter
(`agrees_iff`).
-/

namespace VpnHide.Kpm

open Lib Zygisk

/-! ## C strings -/

/-- `string_equals`, byte by byte. -/
def stringEquals : Bytes → Bytes → Bool
  | l :: left, r :: right => if l ≠ r then false else stringEquals left right
  | left, right => left.isEmpty && right.isEmpty

/-- What follows a prefix. -/
def stringAfterPrefix : Bytes → Bytes → Option Bytes
  | value, [] => some value
  | [], _ :: _ => none
  | v :: value, p :: pre => if v ≠ p then none else stringAfterPrefix value pre

/-- A segment, given by its bytes, and a literal. -/
def segmentEquals : Bytes → Bytes → Bool
  | s :: segment, l :: literal => if s ≠ l then false else segmentEquals segment literal
  | segment, literal => segment.isEmpty && literal.isEmpty

section Walk

variable (isVpn : Bytes → Bool)

/-- The copy of a segment, which may be too long for a name. -/
def vpnSegmentFrom (iface : Bytes) : Bytes → Bool
  | [] => iface ≠ [] && isVpn iface
  | c :: segment =>
    if c = slash then iface ≠ [] && isVpn iface
    else if vpnhideIfnamsiz ≤ iface.length + 1 then false
    else vpnSegmentFrom (iface ++ [c]) segment

/-- A segment is the name of a VPN interface. -/
def vpnSegment (segment : Bytes) : Bool := vpnSegmentFrom isVpn [] segment

/-- The walk over the segments, with the segment before. -/
def sysfsWalk (previous : Option Bytes) (segment : Bytes) : Bool :=
  if segment = [] then false
  else
    let segment := segment.dropWhile (· == slash)
    if segment = [] then false
    else if previous.any (segmentEquals · (ascii "net")) && vpnSegment isVpn segment then true
    else sysfsWalk (some (headSegment segment)) (segment.dropWhile (· != slash))
termination_by segment.length
decreasing_by exact length_rest_lt ‹_›

/-- `sysfs_iface_path`: a segment after `net` is the name of a VPN interface. -/
def sysfsIfacePath (path : Bytes) : Bool :=
  if path.head? ≠ some slash then false else sysfsWalk isVpn none path

/-- The directories in which interfaces have entries. -/
def procIfacePrefixes : List Bytes :=
  [ascii "/sys/net/ipv4/conf/", ascii "/sys/net/ipv4/neigh/", ascii "/sys/net/ipv6/conf/",
    ascii "/sys/net/ipv6/neigh/"]

/-- `proc_iface_path`: the path of an interface that is hidden. -/
def procIfacePath (path : Bytes) : Bool :=
  procIfacePrefixes.any fun pre => (stringAfterPrefix path pre).any (vpnSegment isVpn)

end Walk

/-- `proc_iface_listing`: a directory with entries of interfaces. -/
def procIfaceListing (path : Bytes) : Bool :=
  stringEquals path (ascii "/sys/net/ipv4/conf") ||
    stringEquals path (ascii "/sys/net/ipv4/neigh") ||
      stringEquals path (ascii "/sys/net/ipv6/conf") ||
        stringEquals path (ascii "/sys/net/ipv6/neigh")

/-- What follows the last slash that something follows. -/
def lastSegment (last : Bytes) : Bytes → Bytes
  | [] => last
  | c :: cursor => lastSegment (if c = slash ∧ cursor ≠ [] then cursor else last) cursor

/-- `sysfs_iface_listing`: the last segment is `net`. -/
def sysfsIfaceListing (path : Bytes) : Bool :=
  if path.head? ≠ some slash then false else stringEquals (lastSegment path path) (ascii "net")

/-! ## What they decide -/

theorem segmentEquals_eq : ∀ s l : Bytes, segmentEquals s l = decide (s = l)
  | [], [] => rfl
  | [], _ :: _ => rfl
  | _ :: _, [] => rfl
  | c :: s, d :: l => by
    rw [segmentEquals, segmentEquals_eq s l]
    by_cases h : c = d <;> simp [h]

theorem stringEquals_eq : ∀ s l : Bytes, stringEquals s l = decide (s = l)
  | [], [] => rfl
  | [], _ :: _ => rfl
  | _ :: _, [] => rfl
  | c :: s, d :: l => by
    rw [stringEquals, stringEquals_eq s l]
    by_cases h : c = d <;> simp [h]

/-- What follows a prefix. -/
theorem stringAfterPrefix_eq : ∀ value pre : Bytes,
    stringAfterPrefix value pre = if pre <+: value then some (value.drop pre.length) else none
  | value, [] => by simp [stringAfterPrefix]
  | [], _ :: _ => by simp [stringAfterPrefix]
  | v :: value, p :: pre => by
    rw [stringAfterPrefix, stringAfterPrefix_eq value pre]
    by_cases h : p = v
    · simp [h, List.cons_prefix_cons]
    · simp [h, Ne.symm h, List.cons_prefix_cons]

variable {isVpn : Bytes → Bool}

/-- A segment that does not fit a name is no name. -/
theorem vpnSegmentFrom_eq (tail : Bytes) :
    ∀ iface : Bytes, iface.length ≤ 15 →
      vpnSegmentFrom isVpn iface tail =
        (iface ++ headSegment tail ≠ [] && (iface ++ headSegment tail).length ≤ 15 &&
          isVpn (iface ++ headSegment tail)) := by
  induction tail with
  | nil =>
    intro iface hlen
    rw [vpnSegmentFrom, headSegment, List.takeWhile_nil, List.append_nil, decide_eq_true hlen,
      Bool.and_true]
  | cons c tail ih =>
    intro iface hlen
    rw [vpnSegmentFrom]
    by_cases hc : c = slash
    · have hnil : headSegment (c :: tail) = [] := by
        rw [headSegment, List.takeWhile_cons, if_neg (by simp [hc])]
      rw [if_pos hc, hnil, List.append_nil, decide_eq_true hlen, Bool.and_true]
    · have hcons : headSegment (c :: tail) = c :: headSegment tail := by
        rw [headSegment, List.takeWhile_cons, if_pos (by simp [hc])]
        rfl
      have hassoc : iface ++ headSegment (c :: tail) = iface ++ [c] ++ headSegment tail := by
        rw [hcons, List.append_assoc, List.singleton_append]
      rw [if_neg hc, hassoc]
      split_ifs with hfull
      · have hlong : ¬(iface ++ [c] ++ headSegment tail).length ≤ 15 := by
          rw [List.length_append, List.length_append, List.length_singleton]
          rw [vpnhideIfnamsiz] at hfull
          omega
        rw [decide_eq_false hlong, Bool.and_false, Bool.false_and]
      · refine ih _ ?_
        rw [List.length_append, List.length_singleton]
        rw [vpnhideIfnamsiz] at hfull
        omega

/-- A name of 15 bytes at most. -/
def isShortVpn (isVpn : Bytes → Bool) (s : Bytes) : Bool := s.length ≤ 15 && isVpn s

/-- A segment is tested as Zygisk does, but for its length. -/
theorem vpnSegment_eq (tail : Bytes) :
    vpnSegment isVpn tail = Zygisk.namesVpn (isShortVpn isVpn) tail := by
  rw [vpnSegment, vpnSegmentFrom_eq tail [] (Nat.zero_le 15), List.nil_append, Bool.and_assoc]
  rfl

/-- A short segment is judged as in Zygisk. -/
theorem vpnSegment_of_short {tail : Bytes} (h : (headSegment tail).length ≤ 15) :
    vpnSegment isVpn tail = Zygisk.namesVpn isVpn tail := by
  rw [vpnSegment_eq, Zygisk.namesVpn, isShortVpn, decide_eq_true h, Bool.true_and]
  rfl

/-! ## Normal paths -/

/-- A lexically normal path, below a mount point. -/
structure NormalPath where
  segments : List Bytes
  normal : ∀ s ∈ segments, IsComponent slash s ∧ s.length ≤ 15 ∧ 0 ∉ s ∧ IsPlain '.'.toUInt8 s

/-- The bytes of a path. -/
def NormalPath.bytes (p : NormalPath) : Bytes := joined slash p.segments

/-- The name of a VPN interface follows a segment `net`. -/
def FollowsNet (isVpn : Bytes → Bool) (segs : List Bytes) : Prop :=
  ∃ pre u post, segs = pre ++ net :: u :: post ∧ isVpn u = true

/-- An odd run has an interface after `net`. -/
theorem FollowsNet.of_followsOddRun {segs : List Bytes} (h : FollowsOddRun isVpn segs) :
    FollowsNet isVpn segs := by
  obtain ⟨pre, m, u, post, rfl, -, hu⟩ := h
  refine ⟨pre ++ List.replicate (2 * m) net, u, post, ?_, hu⟩
  rw [List.replicate_succ', List.append_assoc, List.append_assoc, List.append_assoc]
  rfl

/-- The segments that the walk tests. -/
def followsNet (isVpn : Bytes → Bool) : Option Bytes → List Bytes → Bool
  | _, [] => false
  | previous, s :: segs => (previous.any (· = net) && isVpn s) || followsNet isVpn (some s) segs

/-- What follows `net`, one segment after the other. -/
theorem FollowsNet.cons_iff {s : Bytes} {segs : List Bytes} :
    FollowsNet isVpn (s :: segs) ↔ (s = net ∧ ∃ u ∈ segs.head?, isVpn u = true) ∨
      FollowsNet isVpn segs := by
  constructor
  · rintro ⟨pre, u, post, h, hu⟩
    cases pre with
    | nil =>
      obtain ⟨rfl, rfl⟩ := List.cons.inj h
      exact .inl ⟨rfl, u, rfl, hu⟩
    | cons t pre =>
      obtain ⟨-, rfl⟩ := List.cons.inj h
      exact .inr ⟨pre, u, post, rfl, hu⟩
  · rintro (⟨rfl, u, hhead, hu⟩ | ⟨pre, u, post, rfl, hu⟩)
    · obtain ⟨post, rfl⟩ := List.head?_eq_some_iff.1 hhead
      exact ⟨[], u, post, rfl, hu⟩
    · exact ⟨s :: pre, u, post, rfl, hu⟩

/-- The search for what follows `net`. -/
theorem followsNet_iff (segs : List Bytes) :
    ∀ previous, followsNet isVpn previous segs = true ↔
      (previous = some net ∧ ∃ u ∈ segs.head?, isVpn u = true) ∨ FollowsNet isVpn segs := by
  induction segs with
  | nil =>
    intro previous
    refine iff_of_false Bool.false_ne_true ?_
    rintro (⟨-, u, hu, -⟩ | ⟨pre, u, post, h, -⟩)
    · cases hu
    · cases pre <;> cases h
  | cons s segs ih =>
    intro previous
    have hprevious : previous.any (· = net) = true ↔ previous = some net := by
      cases previous <;> simp
    rw [followsNet, Bool.or_eq_true, Bool.and_eq_true, hprevious, ih, FollowsNet.cons_iff,
      Option.some_inj]
    simp

variable {segs : List Bytes}

/-- The search asks for the segments only. -/
theorem followsNet_congr {p q : Bytes → Bool} (h : ∀ s ∈ segs, p s = q s) :
    ∀ previous, followsNet p previous segs = followsNet q previous segs := by
  induction segs with
  | nil => exact fun _ => rfl
  | cons s segs ih =>
    intro previous
    rw [followsNet, followsNet, h s List.mem_cons_self, ih fun u hu =>
      h u (List.mem_cons_of_mem s hu)]

/-- The walk over the segments of a path. -/
theorem sysfsWalk_components (path : Bytes) :
    ∀ previous, sysfsWalk isVpn previous path = followsNet (isShortVpn isVpn) previous
      (components slash path) := by
  induction path using components_induction slash with
  | none p hp =>
    intro previous
    rw [sysfsWalk, components, fields_eq_nil hp, hp]
    split_ifs <;> rfl
  | some p hp ih =>
    intro previous
    have hne : p ≠ [] := fun hnil => hp (by rw [hnil]; rfl)
    have hequals : (fun s => segmentEquals s (ascii "net")) = fun s => decide (s = net) :=
      funext fun s => segmentEquals_eq s _
    have hcomponents := components_of_ne_nil hp
    have hsegment := (isComponent_of_mem (hcomponents ▸ List.mem_cons_self)).1
    have hvpn : vpnSegment isVpn (p.dropWhile (· == slash)) =
        isShortVpn isVpn (headSegment (p.dropWhile (· == slash))) := by
      rw [vpnSegment_eq, Zygisk.namesVpn]
      exact (congrArg (· && _) (decide_eq_true hsegment)).trans (Bool.true_and _)
    rw [sysfsWalk, if_neg hne, hcomponents, followsNet]
    dsimp only
    rw [if_neg hp, hequals, hvpn, ← ih]
    change (if previous.any (· = net) && isShortVpn isVpn (headSegment (p.dropWhile (· == slash)))
        then true else _) =
      ((previous.any (· = net) && isShortVpn isVpn (headSegment (p.dropWhile (· == slash)))) || _)
    cases (previous.any (· = net) && isShortVpn isVpn (headSegment (p.dropWhile (· == slash)))) <;>
        rfl

/-- The walk over a path of short segments. -/
theorem sysfsWalk_joined (h : ∀ s ∈ segs, IsComponent slash s ∧ s.length ≤ 15)
    (previous : Option Bytes) :
    sysfsWalk isVpn previous (joined slash segs) = followsNet isVpn previous segs := by
  rw [sysfsWalk_components, components_joined fun s hs => (h s hs).1]
  refine followsNet_congr (fun s hs => ?_) previous
  rw [isShortVpn, decide_eq_true (h s hs).2, Bool.true_and]

theorem head?_joined (segs : List Bytes) : (joined slash segs).head? = segs.head?.map fun _ =>
    slash := by
  cases segs <;> rfl

/-- A normal path is hidden just if an interface follows `net`. -/
theorem sysfsIfacePath_iff (p : NormalPath) :
    sysfsIfacePath isVpn p.bytes = true ↔ FollowsNet isVpn p.segments := by
  have hwalk :=
    @sysfsWalk_joined isVpn _ (fun s hs => ⟨(p.normal s hs).1, (p.normal s hs).2.1⟩) none
  rw [sysfsIfacePath, NormalPath.bytes, hwalk, head?_joined]
  have hiff := @followsNet_iff isVpn p.segments none
  rw [or_iff_right fun h => nomatch h.1] at hiff
  rw [← hiff]
  cases p.segments <;> simp [followsNet]

theorem lastSegment_skip {s : Bytes} (hs : slash ∉ s) (last rest : Bytes) :
    lastSegment last (s ++ rest) = lastSegment last rest := by
  induction s with
  | nil => rfl
  | cons c s ih =>
    have hc : c ≠ slash := fun h => hs (h ▸ List.mem_cons_self)
    rw [List.cons_append, lastSegment, if_neg fun h => hc h.1, ih fun h =>
      hs (List.mem_cons_of_mem c h)]

/-- The last segment of a path. -/
theorem lastSegment_joined (h : ∀ s ∈ segs, IsComponent slash s) :
    ∀ last, lastSegment last (joined slash segs) = segs.getLast?.getD last := by
  induction segs with
  | nil => exact fun _ => rfl
  | cons s segs ih =>
    intro last
    obtain ⟨hne, hslash⟩ := h s List.mem_cons_self
    have hjoined : joined slash (s :: segs) = slash :: (s ++ joined slash segs) := rfl
    rw [hjoined, lastSegment, if_pos ⟨rfl, List.append_ne_nil_of_left_ne_nil hne _⟩,
      lastSegment_skip hslash, ih fun u hu => h u (List.mem_cons_of_mem s hu)]
    cases segs with
    | nil => rw [joined, List.flatMap_nil, List.append_nil]; rfl
    | cons u segs => simp [List.getLast?_cons]

/-- A normal path is a listing just if it ends in `net`. -/
theorem sysfsIfaceListing_iff (p : NormalPath) :
    sysfsIfaceListing p.bytes = true ↔ p.segments.getLast? = some net := by
  rw [sysfsIfaceListing, NormalPath.bytes, lastSegment_joined fun s hs => (p.normal s hs).1,
    head?_joined, stringEquals_eq]
  cases hlast : p.segments.getLast? with
  | none =>
    rw [List.getLast?_eq_none_iff.1 hlast]
    simp
  | some t =>
    have hne : p.segments ≠ [] := fun h => by
      rw [h] at hlast
      cases hlast
    obtain ⟨s, segs, hs⟩ := List.exists_cons_of_ne_nil hne
    rw [hs, List.head?_cons, Option.map_some, if_neg (fun h => h rfl), Option.getD_some,
      decide_eq_true_iff, Option.some_inj]
    rfl

/-- What a slash is followed by is one of the segments. -/
theorem headSegment_mem (h : ∀ s ∈ segs, IsComponent slash s) :
    ∀ a tail, joined slash segs = a ++ slash :: tail → headSegment tail ∈ segs := by
  induction segs with
  | nil =>
    intro a tail heq
    cases a <;> cases heq
  | cons s segs ih =>
    intro a tail heq
    have hslash := (h s List.mem_cons_self).2
    have ih' := ih fun u hu => h u (List.mem_cons_of_mem s hu)
    rw [show joined slash (s :: segs) = slash :: (s ++ joined slash segs) from rfl] at heq
    cases a with
    | nil =>
      rw [← (List.cons.inj heq).2, headSegment_append hslash]
      exact List.mem_cons_self
    | cons c a =>
      obtain ⟨as, -, hrest⟩ | ⟨bs, hs, hrest⟩ := List.append_eq_append_iff.1 (List.cons.inj heq).2
      · exact List.mem_cons_of_mem s (ih' as tail hrest)
      · cases bs with
        | nil => exact List.mem_cons_of_mem s (ih' [] tail hrest.symm)
        | cons b bs =>
          obtain ⟨rfl, -⟩ := List.cons.inj hrest
          exact absurd (hs ▸ List.mem_append_right a List.mem_cons_self) hslash

/-- Both sides agree on hidden paths in procfs. -/
theorem procHidden_proc (p : NormalPath) :
    procHidden isVpn (ascii "/proc" ++ p.bytes) = procIfacePath isVpn p.bytes := by
  have hprefixes : procPrefixes = procIfacePrefixes.map (ascii "/proc" ++ ·) := by decide
  have hslash : ∀ pre ∈ procIfacePrefixes, pre.dropLast ++ [slash] = pre := by decide
  rw [procHidden, procIfacePath, hprefixes, List.any_map, Bool.eq_iff_iff,
    List.any_eq_true, List.any_eq_true]
  refine exists_congr fun pre => and_congr_right fun hpre => ?_
  rw [Function.comp_apply, List.length_append, ← List.drop_drop, List.drop_left,
    stringAfterPrefix_eq]
  simp only [List.prefix_append_right_inj]
  by_cases hp : pre <+: p.bytes
  · obtain ⟨tail, htail⟩ := hp
    have hmem := headSegment_mem (fun s hs => (p.normal s hs).1) pre.dropLast tail (by
      rw [← hslash pre hpre, List.append_assoc, List.singleton_append] at htail
      exact htail.symm)
    rw [if_pos ⟨tail, htail⟩, decide_eq_true ⟨tail, htail⟩, Bool.true_and, Option.any_some, ← htail,
      List.drop_left, vpnSegment_of_short (p.normal _ hmem).2.1]
  · rw [if_neg hp, decide_eq_false hp]
    rfl

/-- Both sides agree on listings in procfs. -/
theorem procListing_proc (p : Bytes) : procListing (ascii "/proc" ++ p) = procIfaceListing p := by
  have hlistings : procListings =
      [ascii "/sys/net/ipv4/conf", ascii "/sys/net/ipv4/neigh", ascii "/sys/net/ipv6/conf",
        ascii "/sys/net/ipv6/neigh"].map (ascii "/proc" ++ ·) := by decide
  rw [Bool.eq_iff_iff, procListing, List.contains_iff_mem, hlistings,
    List.mem_map_of_injective (List.append_right_injective _)]
  simp only [procIfaceListing, stringEquals_eq, List.mem_cons, List.not_mem_nil, or_false,
    Bool.or_eq_true, decide_eq_true_iff, or_assoc]

/-! ## The classifications agree -/

/-- A path that lists interfaces names none. -/
theorem procHidden_of_procListing {path : Bytes} (h : procListing path = true) :
    procHidden isVpn path = false := by
  have hnone : ∀ path ∈ procListings, ∀ pre ∈ procPrefixes, ¬pre <+: path := by decide
  rw [procHidden, List.any_eq_false]
  intro pre hpre
  rw [decide_eq_false (hnone path (List.contains_iff_mem.1 h) pre hpre), Bool.false_and]
  exact Bool.false_ne_true

/-- Zygisk classifies a path below `/sys` and below `/proc` as the KPM does. -/
structure Agrees (isVpn : Bytes → Bool) (p : NormalPath) : Prop where
  sysHidden : classifyPath isVpn (ascii "/sys" ++ p.bytes) = .hiddenInterface ↔
    sysfsIfacePath isVpn p.bytes = true
  sysListing : classifyPath isVpn (ascii "/sys" ++ p.bytes) = .interfaceListing ↔
    sysfsIfacePath isVpn p.bytes = false ∧ sysfsIfaceListing p.bytes = true
  procHidden : classifyPath isVpn (ascii "/proc" ++ p.bytes) = .hiddenInterface ↔
    procIfacePath isVpn p.bytes = true
  procListing : classifyPath isVpn (ascii "/proc" ++ p.bytes) = .interfaceListing ↔
    procIfaceListing p.bytes = true

/-- The classifications agree on a path, unless the names of VPN interfaces follow only runs of an
    even number of segments `net` in it. -/
theorem agrees_iff (isVpn : Bytes → Bool) (p : NormalPath) :
    Agrees isVpn p ↔ (FollowsNet isVpn p.segments → FollowsOddRun isVpn p.segments) := by
  have hsys := @classifyPath_sys isVpn _ fun s hs => (p.normal s hs).1
  rw [← NormalPath.bytes] at hsys
  have hproc := @classifyPath_proc isVpn p.bytes
  rw [procHidden_proc, procListing_proc] at hproc
  -- In sysfs a path is hidden if some run of odd length before it is,
  have hhidden : classifyPath isVpn (ascii "/sys" ++ p.bytes) = .hiddenInterface ↔
      FollowsOddRun isVpn p.segments := by
    rw [hsys, ← testedNet_iff]
    split_ifs <;> simp_all
  constructor
  · rintro ⟨hagree, -, -, -⟩ hfollows
    exact hhidden.1 (hagree.2 ((sysfsIfacePath_iff p).2 hfollows))
  · intro h
    -- and the other classifier asks for a segment right after `net`.
    have hagree : sysfsIfacePath isVpn p.bytes = testedNet isVpn p.segments := by
      rw [Bool.eq_iff_iff, sysfsIfacePath_iff, testedNet_iff]
      exact ⟨h, .of_followsOddRun⟩
    refine ⟨?_, ?_, ?_, ?_⟩
    · rw [hhidden, hagree, testedNet_iff]
    · rw [hsys, hagree, sysfsIfaceListing_iff]
      split_ifs <;> simp_all
    · rw [hproc]
      split_ifs <;> simp_all
    · rw [hproc]
      -- A directory that lists interfaces lies in none of them.
      have hlisting : procIfaceListing p.bytes = true → procIfacePath isVpn p.bytes = false :=
        fun hl => by
        rw [← procHidden_proc]
        exact procHidden_of_procListing ((procListing_proc _).trans hl)
      split_ifs <;> simp_all

/-- `/net/net/tun0`. -/
def netNetTun0 : NormalPath := ⟨[net, net, ascii "tun0"], by decide⟩

/-- The KPM hides the path below `/sys`, Zygisk does not. -/
theorem not_agrees_netNetTun0 : ¬Agrees isVpnIfaceBytes netNetTun0 := by
  intro h
  have hkpm : sysfsIfacePath isVpnIfaceBytes netNetTun0.bytes = true := by decide +kernel
  have hzygisk : classifyPath isVpnIfaceBytes (ascii "/sys" ++ netNetTun0.bytes) = .other := by
    decide +kernel
  have hhidden := h.sysHidden.2 hkpm
  rw [hzygisk] at hhidden
  cases hhidden

end VpnHide.Kpm

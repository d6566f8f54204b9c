import VpnHide.Lib.Path
import VpnHide.Zygisk.Interfaces

/-!
# Paths that name an interface

`classify_path` of `zygisk/src/filesystem.rs`: an absolute path may lead to what the system
says about an interface, or to a directory that lists interfaces. Below `/sys` the name of an
interface is the segment after one that is `net`. The search for `/net/` goes on behind what it
has found, so that two segments `net` in a row are not both found (`sysHidden_joined`).
-/

namespace VpnHide.Zygisk

open Lib

/-- What a path is. -/
inductive PathKind
  | other
  | interfaceListing
  | hiddenInterface
  deriving DecidableEq

/-- A slash. -/
def slash : UInt8 := '/'.toUInt8

/-- What comes before the first slash. -/
def headSegment (tail : Bytes) : Bytes := tail.takeWhile (· != slash)

/-- Where a text is found first. -/
def position (needle : Bytes) : Bytes → Option ℕ
  | [] => none
  | b :: l => if needle <+: b :: l then some 0 else (position needle l).map (· + 1)

/-- The directories with entries of interfaces. -/
def procListings : List Bytes :=
  [ascii "/proc/sys/net/ipv4/conf", ascii "/proc/sys/net/ipv4/neigh",
    ascii "/proc/sys/net/ipv6/conf", ascii "/proc/sys/net/ipv6/neigh"]

/-- A directory with entries of interfaces. -/
def procListing (path : Bytes) : Bool := procListings.contains path

/-- The same, with a slash. -/
def procPrefixes : List Bytes :=
  [ascii "/proc/sys/net/ipv4/conf/", ascii "/proc/sys/net/ipv4/neigh/",
    ascii "/proc/sys/net/ipv6/conf/", ascii "/proc/sys/net/ipv6/neigh/"]

section Classify

variable (isVpn : Bytes → Bool)

/-- A segment that names a VPN interface. -/
def namesVpn (tail : Bytes) : Bool := headSegment tail ≠ [] && isVpn (headSegment tail)

/-- The path of an interface that is hidden. -/
def procHidden (path : Bytes) : Bool :=
  procPrefixes.any fun pre => pre <+: path && namesVpn isVpn (path.drop pre.length)

/-- The loop over the places of `/net/`. -/
def sysHidden (path : Bytes) (cursor : ℕ) : Bool :=
  match position (ascii "/net/") (path.drop cursor) with
  | none => false
  | some position =>
    let relative := cursor + position + 5
    if namesVpn isVpn (path.drop relative) then true
    else if path.length ≤ relative then false
    else sysHidden path relative
termination_by path.length - cursor

/-- `classify_path`: what an absolute path is. -/
def classifyPath (path : Bytes) : PathKind :=
  if procHidden isVpn path then .hiddenInterface
  else if procListing path then .interfaceListing
  else if !(ascii "/sys/" <+: path) then .other
  else if sysHidden isVpn path 0 then .hiddenInterface
  else if path = ascii "/sys/net" ∨ ascii "/net" <:+ path then .interfaceListing
  else .other

end Classify

/-! ## Segments -/

/-- The segment before the name of an interface. -/
def net : Bytes := ascii "net"

/-- The segments that are tested by the loop: a `net` that follows one whose successor has been
    tested is not found. -/
def testedNet (isVpn : Bytes → Bool) : List Bytes → Bool
  | t :: u :: rest =>
    if t = net then isVpn u || testedNet isVpn rest else testedNet isVpn (u :: rest)
  | _ => false

variable {isVpn : Bytes → Bool} {s : Bytes} {segs : List Bytes}

theorem forall_bne_slash (hs : slash ∉ s) : ∀ b ∈ s, (b != slash) = true := fun b hb => by
  rw [bne_iff_ne]
  rintro rfl
  exact hs hb

theorem headSegment_append_cons (hs : slash ∉ s) (rest : Bytes) :
    headSegment (s ++ slash :: rest) = s := by
  rw [headSegment, List.takeWhile_append_of_pos (forall_bne_slash hs), List.takeWhile_cons,
    if_neg (by simp), List.append_nil]

theorem headSegment_append (hs : slash ∉ s) (segs : List Bytes) :
    headSegment (s ++ joined slash segs) = s := by
  cases segs with
  | nil =>
    rw [joined, List.flatMap_nil, List.append_nil, headSegment,
      List.takeWhile_eq_self_iff.2 (forall_bne_slash hs)]
  | cons t segs => exact headSegment_append_cons hs _

theorem namesVpn_append (hs : IsComponent slash s) (segs : List Bytes) :
    namesVpn isVpn (s ++ joined slash segs) = isVpn s := by
  rw [namesVpn, headSegment_append hs.2, decide_eq_true hs.1, Bool.true_and]

/-- A slash, the segment `net` and another slash. -/
theorem net_prefix_iff {t : Bytes} (ht : slash ∉ t) (segs : List Bytes) :
    ascii "/net/" <+: slash :: (t ++ joined slash segs) ↔ t = net ∧ segs ≠ [] := by
  rw [show ascii "/net/" = slash :: (net ++ [slash]) from rfl, List.prefix_cons_inj]
  constructor
  · rintro ⟨r, hr⟩
    rw [List.append_assoc, List.singleton_append] at hr
    have hnet : t = net := by
      rw [← headSegment_append ht segs, ← hr, headSegment_append_cons (by decide)]
    refine ⟨hnet, ?_⟩
    rintro rfl
    rw [hnet] at hr
    cases List.append_cancel_left hr
  · rintro ⟨rfl, hsegs⟩
    obtain ⟨u, rest, rfl⟩ := List.exists_cons_of_ne_nil hsegs
    exact ⟨u ++ joined slash rest, by simp [joined]⟩

/-- No text that begins with a slash is found within a segment. -/
theorem position_skip (hs : slash ∉ s) (needle rest : Bytes) :
    position (slash :: needle) (s ++ rest) = (position (slash :: needle) rest).map
      (· + s.length) := by
  induction s with
  | nil => simp
  | cons b s ih =>
    have hb : ¬slash :: needle <+: b :: (s ++ rest) := fun h => hs (by
      rw [(List.cons_prefix_cons.1 h).1]
      exact List.mem_cons_self)
    rw [List.cons_append, position, if_neg hb, ih fun h => hs (List.mem_cons_of_mem b h),
      Option.map_map]
    rfl

/-- The first `/net/` after a segment. -/
theorem position_cons {t : Bytes} (hs : slash ∉ s) (ht : slash ∉ t) (segs : List Bytes) :
    position (ascii "/net/") (s ++ joined slash (t :: segs)) =
      if t = net ∧ segs ≠ [] then some s.length
      else (position (ascii "/net/") (t ++ joined slash segs)).map (· + (s.length + 1)) := by
  have hskip : position (ascii "/net/") (s ++ joined slash (t :: segs)) =
      (position (ascii "/net/") (slash :: (t ++ joined slash segs))).map (· + s.length) :=
    position_skip hs _ _
  rw [hskip, position, if_congr (net_prefix_iff ht segs) rfl rfl]
  split_ifs
  · simp
  · rw [Option.map_map]
    refine Option.map_congr fun k _ => ?_
    simp only [Function.comp_apply]
    omega

theorem position_single (hs : slash ∉ s) :
    position (ascii "/net/") (s ++ joined slash []) = none := by
  have hskip :
      position (ascii "/net/") (s ++ []) = (position (ascii "/net/") []).map (· + s.length) :=
    position_skip hs _ _
  exact hskip

/-- The loop depends on the cursor only by what it finds. -/
theorem sysHidden_congr {path : Bytes} {cursor k : ℕ}
    (h : position (ascii "/net/") (path.drop cursor) =
      (position (ascii "/net/") (path.drop (cursor + k))).map (· + k)) :
    sysHidden isVpn path cursor = sysHidden isVpn path (cursor + k) := by
  rw [sysHidden, h]
  conv_rhs => rw [sysHidden]
  cases position (ascii "/net/") (path.drop (cursor + k)) with
  | none => rfl
  | some n =>
    dsimp only [Option.map_some]
    rw [show cursor + (n + k) + 5 = cursor + k + n + 5 by omega]

/-- The loop from a segment on. -/
theorem sysHidden_append (path : Bytes) {segs : List Bytes} (h : ∀ t ∈ segs, IsComponent slash t) :
    ∀ {s : Bytes} {cursor : ℕ}, slash ∉ s → path.drop cursor = s ++ joined slash segs →
      sysHidden isVpn path cursor = testedNet isVpn segs := by
  -- Behind a segment comes the next one.
  have hnext : ∀ {s t : Bytes} {segs : List Bytes} {cursor : ℕ}, path.drop cursor =
      s ++ joined slash (t :: segs) →
        path.drop (cursor + (s.length + 1)) = t ++ joined slash segs := by
    intro s t segs cursor hdrop
    rw [← List.drop_drop, hdrop, ← List.drop_drop, List.drop_left, joined, List.flatMap_cons]
    rfl
  -- By the segments: a `net` with a name behind it is tested, and the search goes on behind both.
  fun_induction testedNet isVpn segs with
  | case1 u rest ih =>
    intro s cursor hs hdrop
    have hu := h u (List.mem_cons_of_mem net List.mem_cons_self)
    have hnet : slash ∉ net := by decide
    have hdrop' : path.drop (cursor + s.length + 5) = u ++ joined slash rest := by
      have := hnext (hnext hdrop)
      rwa [show cursor + (s.length + 1) + (net.length + 1) = cursor + s.length + 5 by rw [net]; rfl]
        at this
    have hroom : ¬path.length ≤ cursor + s.length + 5 := fun hle => by
      rw [List.drop_eq_nil_of_le hle] at hdrop'
      exact hu.1 (List.append_eq_nil_iff.1 hdrop'.symm).1
    rw [sysHidden, hdrop, position_cons hs hnet, if_pos ⟨rfl, List.cons_ne_nil u rest⟩]
    dsimp only
    rw [hdrop', namesVpn_append hu, if_neg hroom,
      ih (fun v hv => h v (List.mem_cons_of_mem net (List.mem_cons_of_mem u hv))) hu.2 hdrop']
    cases isVpn u <;> rfl
  | case2 t u rest ht ih =>
    intro s cursor hs hdrop
    have hdrop' := hnext hdrop
    rw [sysHidden_congr (k := s.length + 1)]
    · exact ih (fun v hv => h v (List.mem_cons_of_mem t hv)) (h t List.mem_cons_self).2 hdrop'
    · rw [hdrop, hdrop', position_cons hs (h t List.mem_cons_self).2, if_neg fun hnet => ht hnet.1]
  | case3 segs hsegs =>
    intro s cursor hs hdrop
    -- Without such a segment nothing is found.
    have hnone : position (ascii "/net/") (path.drop cursor) = none := by
      rw [hdrop]
      cases segs with
      | nil => exact position_single hs
      | cons t rest =>
        cases rest with
        | nil =>
          have ht := (h t List.mem_cons_self).2
          rw [position_cons hs ht, if_neg fun hnet => hnet.2 rfl, position_single ht]
          rfl
        | cons u rest => exact absurd rfl (hsegs t u rest)
    rw [sysHidden, hnone]

/-- The name of a VPN interface follows a run of `net` of odd length, which is not part of a
    longer one. -/
def FollowsOddRun (isVpn : Bytes → Bool) (segs : List Bytes) : Prop :=
  ∃ pre m u post, segs = pre ++ List.replicate (2 * m + 1) net ++ u :: post ∧
    pre.getLast? ≠ some net ∧ isVpn u = true

theorem FollowsOddRun.cons {t : Bytes} (ht : t ≠ net) (h : FollowsOddRun isVpn segs) :
    FollowsOddRun isVpn (t :: segs) := by
  obtain ⟨pre, m, u, post, rfl, hpre, hu⟩ := h
  refine ⟨t :: pre, m, u, post, rfl, ?_, hu⟩
  cases pre with
  | nil => simpa using ht
  | cons v pre => simpa using hpre

theorem followsOddRun_cons_iff {t : Bytes} (ht : t ≠ net) :
    FollowsOddRun isVpn (t :: segs) ↔ FollowsOddRun isVpn segs := by
  refine ⟨?_, .cons ht⟩
  rintro ⟨pre, m, u, post, h, hpre, hu⟩
  cases pre with
  | nil =>
    rw [List.nil_append, List.replicate_succ, List.cons_append] at h
    exact absurd (List.cons.inj h).1 ht
  | cons v pre =>
    obtain ⟨rfl, rfl⟩ := List.cons.inj h
    refine ⟨pre, m, u, post, rfl, ?_, hu⟩
    cases pre with
    | nil => exact nofun
    | cons w pre => simpa using hpre

/-- Two segments further in a run, its length has the same parity. -/
theorem followsOddRun_net_iff {u : Bytes} :
    FollowsOddRun isVpn (net :: u :: segs) ↔ isVpn u = true ∨ FollowsOddRun isVpn segs := by
  constructor
  · rintro ⟨pre, m, v, post, h, hpre, hv⟩
    -- The run starts here, or further on.
    cases pre with
    | nil =>
      cases m with
      | zero =>
        obtain ⟨-, h⟩ := List.cons.inj h
        obtain ⟨rfl, -⟩ := List.cons.inj h
        exact .inl hv
      | succ m =>
        rw [show 2 * (m + 1) + 1 = 2 * m + 1 + 1 + 1 by omega, List.replicate_succ,
          List.replicate_succ] at h
        obtain ⟨-, rfl⟩ := List.cons.inj (List.cons.inj h).2
        exact .inr ⟨[], m, v, post, rfl, nofun, hv⟩
    | cons w pre =>
      obtain ⟨rfl, hrest⟩ := List.cons.inj h
      cases pre with
      | nil => exact absurd rfl hpre
      | cons x pre =>
        obtain ⟨rfl, rfl⟩ := List.cons.inj hrest
        refine .inr ⟨pre, m, v, post, rfl, ?_, hv⟩
        cases pre with
        | nil => exact nofun
        | cons y pre => simpa using hpre
  · rintro (hu | h)
    · exact ⟨[], 0, u, segs, rfl, nofun, hu⟩
    · by_cases hnet : u = net
      · obtain ⟨pre, m, v, post, rfl, hpre, hv⟩ := h
        cases pre with
        | nil =>
          refine ⟨[], m + 1, v, post, ?_, nofun, hv⟩
          rw [hnet, show 2 * (m + 1) + 1 = 2 * m + 1 + 1 + 1 by omega, List.replicate_succ,
            List.replicate_succ]
          rfl
        | cons w pre => exact ⟨net :: u :: w :: pre, m, v, post, rfl, by simpa using hpre, hv⟩
      · obtain ⟨pre, m, v, post, rfl, hpre, hv⟩ := h
        refine ⟨net :: u :: pre, m, v, post, rfl, ?_, hv⟩
        cases pre with
        | nil => simpa using hnet
        | cons w pre => simpa using hpre

/-- What the loop finds. -/
theorem testedNet_iff : testedNet isVpn segs = true ↔ FollowsOddRun isVpn segs := by
  fun_induction testedNet isVpn segs with
  | case1 u rest ih => rw [Bool.or_eq_true, ih, followsOddRun_net_iff]
  | case2 t u rest ht ih => rw [ih, followsOddRun_cons_iff ht]
  | case3 segs hsegs =>
    refine iff_of_false Bool.false_ne_true ?_
    rintro ⟨pre, m, u, post, rfl, -, -⟩
    cases pre with
    | nil =>
      cases m with
      | zero => exact hsegs _ _ _ rfl
      | succ m => exact hsegs _ _ _ rfl
    | cons v pre =>
      cases pre with
      | nil => exact hsegs _ _ _ rfl
      | cons w pre => exact hsegs _ _ _ rfl

/-! ## Mount points -/

/-- A path that differs from another in its second byte does not begin with it. -/
theorem not_prefix_of_getElem? {pre path : Bytes} {b c : UInt8} (hpre : pre[1]? = some b)
    (hpath : path[1]? = some c) (hne : b ≠ c) : ¬pre <+: path := by
  rintro ⟨r, rfl⟩
  have hlt : 1 < pre.length := (List.getElem?_eq_some_iff.1 hpre).1
  rw [List.getElem?_append_left hlt, hpre] at hpath
  exact hne (Option.some.inj hpath)

theorem procHidden_sys (p : Bytes) : procHidden isVpn (ascii "/sys" ++ p) = false := by
  rw [procHidden, List.any_eq_false]
  intro pre hpre
  have hsecond : ∀ pre ∈ procPrefixes, pre[1]? = some 'p'.toUInt8 := by decide
  rw [decide_eq_false
    (not_prefix_of_getElem? (hsecond pre hpre) (c := 's'.toUInt8) rfl (by decide)), Bool.false_and]
  exact Bool.false_ne_true

theorem procListing_sys (p : Bytes) : procListing (ascii "/sys" ++ p) = false := by
  rw [procListing, Bool.eq_false_iff]
  intro h
  have hsecond : ∀ path ∈ procListings, path[1]? = some 'p'.toUInt8 := by decide
  have hp := hsecond _ (List.contains_iff_mem.1 h)
  rw [show (ascii "/sys" ++ p)[1]? = some 's'.toUInt8 from rfl] at hp
  exact absurd hp (by decide)

theorem slash_notMem_net : slash ∉ net := by decide

/-- A last segment that is `net`. -/
theorem net_suffix_iff {t : Bytes} (ht : slash ∉ t) (l : Bytes) :
    ascii "/net" <:+ l ++ slash :: t ↔ t = net := by
  rw [show ascii "/net" = slash :: net from rfl]
  constructor
  · intro h
    obtain h | h := List.suffix_or_suffix_of_suffix h (List.suffix_append l (slash :: t))
    · obtain h | h := List.suffix_cons_iff.1 h
      · exact (List.cons.inj h).2.symm
      · exact absurd (h.subset List.mem_cons_self) ht
    · obtain h | h := List.suffix_cons_iff.1 h
      · exact (List.cons.inj h).2
      · exact absurd (h.subset List.mem_cons_self) slash_notMem_net
  · rintro rfl
    exact List.suffix_append l _

/-- What is below `/sys`, by its segments. -/
theorem classifyPath_sys (h : ∀ t ∈ segs, IsComponent slash t) :
    classifyPath isVpn (ascii "/sys" ++ joined slash segs) =
      if testedNet isVpn segs then .hiddenInterface
      else if segs.getLast? = some net then .interfaceListing else .other := by
  rw [classifyPath, procHidden_sys, procListing_sys, if_neg Bool.false_ne_true,
    if_neg Bool.false_ne_true]
  cases segs using List.reverseRecOn with
  | nil => rfl
  | append_singleton segs t =>
    have ht := h t (List.mem_append_right _ (List.mem_singleton_self t))
    have hmount : ascii "/sys/" <+: ascii "/sys" ++ joined slash (segs ++ [t]) := by
      cases segs with
      | nil => exact ⟨t, by rw [List.nil_append, joined_singleton]; rfl⟩
      | cons u segs => exact ⟨u ++ joined slash (segs ++ [t]), rfl⟩
    have hloop : sysHidden isVpn (ascii "/sys" ++ joined slash (segs ++ [t])) 0 =
        testedNet isVpn (segs ++ [t]) := by
      have hall : ∀ u ∈ ascii "sys" :: (segs ++ [t]), IsComponent slash u :=
        List.forall_mem_cons.2 ⟨by decide, h⟩
      rw [sysHidden_append (s := []) _ hall List.not_mem_nil rfl]
      cases segs with
      | nil => rfl
      | cons u segs => exact if_neg (by decide)
    have hlast :
        ascii "/sys" ++ joined slash (segs ++ [t]) =
          (ascii "/sys" ++ joined slash segs) ++ slash :: t := by
      rw [joined_append, joined_singleton, List.append_assoc]
    have hroot : ascii "/sys/net" = ascii "/sys" ++ slash :: net := rfl
    rw [decide_eq_true hmount, Bool.not_true, if_neg Bool.false_ne_true, hloop]
    congr 1
    refine if_congr ?_ rfl rfl
    rw [List.getLast?_concat, Option.some_inj, hlast, net_suffix_iff ht.2,
      or_iff_right_iff_imp, hroot]
    intro heq
    rw [← net_suffix_iff ht.2, heq]
    exact List.suffix_append (ascii "/sys") _

/-- What is below `/proc`. -/
theorem classifyPath_proc (p : Bytes) :
    classifyPath isVpn (ascii "/proc" ++ p) =
      if procHidden isVpn (ascii "/proc" ++ p) then .hiddenInterface
      else if procListing (ascii "/proc" ++ p) then .interfaceListing else .other := by
  have hsys : ¬ascii "/sys/" <+: ascii "/proc" ++ p :=
    not_prefix_of_getElem? (b := 's'.toUInt8) (c := 'p'.toUInt8) rfl rfl (by decide)
  rw [classifyPath, decide_eq_false hsys, Bool.not_false, if_pos rfl]

end VpnHide.Zygisk

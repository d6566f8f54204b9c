import VpnHide.Lib.Callbacks
import VpnHide.Kpm.Config
import VpnHide.Kpm.PathWalk

/-!
# Directories

The KPM hides interfaces from the file system twice (`kmod/kpm/vpnhide_kpm.c`): a lookup that has
found the path of a VPN interface fails as if there were none, and a directory of interfaces is
read through a context of the KPM, whose callback keeps such names from the caller. The kernel and
its file systems are not known: they are programs that call back (`Traversal`).

* `iterateDir_eq`: the caller is called back as by the same program without those names;
* `directory_agrees_with_lookup`: in no directory does the caller see a name that it cannot look
  up, and it sees all others.
-/

namespace VpnHide.Kpm

open Lib Zygisk Protocol

/-! ## Resolved paths -/

/-- `-ENOENT`. -/
def vpnhideEnoent : ℤ := -2

/-- The buffer that a path is written into. -/
def vpnhideResolvedPathMax : ℕ := 512

/-- The magic number of procfs. -/
def vpnhideProcSuperMagic : ℕ := 0x9fa0

/-- The magic number of sysfs. -/
def vpnhideSysfsMagic : ℕ := 0x62656572

/-- A path as `dentry_path_raw` gives it, from the root of its file system. -/
structure DentryPath where
  segments : List Bytes
  components : ∀ s ∈ segments, IsComponent slash s

namespace DentryPath

/-- What `dentry_path_raw` writes. -/
def bytes (p : DentryPath) : Bytes := rendered slash p.segments

/-- The path of an entry of a directory. -/
def child (p : DentryPath) (name : Bytes) (h : IsComponent slash name) : DentryPath where
  segments := p.segments ++ [name]
  components s hs := by
    rw [List.mem_append, List.mem_singleton] at hs
    obtain hs | rfl := hs
    · exact p.components s hs
    · exact h

end DentryPath

/-- The path has to fit a buffer, with its NUL. -/
def resolvedDentryPath (p : DentryPath) : Option Bytes :=
  if p.bytes.length < vpnhideResolvedPathMax then some p.bytes else none

/-- The first word of what `vfs_statfs` gives, if it does not fail. -/
def pathFilesystemMagic (statfs : Option ℕ) : ℕ := statfs.getD 0

/-- `hidden_iface_path`: the path of an interface that is hidden, on the right file system. -/
def hiddenIfacePath (statfs : Option ℕ) (p : DentryPath) : Bool :=
  match resolvedDentryPath p with
  | none => false
  | some resolved =>
    if sysfsIfacePath ifaceIsVpn resolved then pathFilesystemMagic statfs = vpnhideSysfsMagic
    else if procIfacePath ifaceIsVpn resolved then pathFilesystemMagic statfs =
      vpnhideProcSuperMagic
    else false

/-- `iface_listing_path`: a directory with entries of interfaces, on the right file system. -/
def ifaceListingPath (statfs : Option ℕ) (p : DentryPath) : Bool :=
  match resolvedDentryPath p with
  | none => false
  | some resolved =>
    if sysfsIfaceListing resolved then pathFilesystemMagic statfs = vpnhideSysfsMagic
    else if procIfaceListing resolved then pathFilesystemMagic statfs = vpnhideProcSuperMagic
    else false

/-- The filesystem hook is on for a uid. -/
def filesystemFilterActive (requested : Bool) (s : State) (uid : UInt32) : Bool :=
  requested && s.hookActive uid .filesystemIfacePaths

/-! ## Lookups

What the hooks leave of a lookup: what it returns, and whether its reference was given back. -/

/-- `filename_lookup_after`: a hidden path is not there, and is given back. -/
def filenameLookupAfter (active : Bool) (statfs : Option ℕ) (p : DentryPath) (ret : ℤ) : ℤ × Bool :=
  if ret ≠ 0 || !active || !hiddenIfacePath statfs p then (ret, false) else (vpnhideEnoent, true)

/-- An open file, or an error. -/
def doFilpOpenAfter (active : Bool) (statfs : Option ℕ) (file : Except ℤ DentryPath) :
    Except ℤ DentryPath × Bool :=
  match file with
  | .error e => (.error e, false)
  | .ok p =>
    if !active || !hiddenIfacePath statfs p then (.ok p, false) else (.error vpnhideEnoent, true)

/-- `vfs_getattr_after`: a hidden path is not there. -/
def vfsGetattrAfter (active : Bool) (statfs : Option ℕ) (p : DentryPath) (ret : ℤ) : ℤ :=
  if ret ≠ 0 || !active || !hiddenIfacePath statfs p then ret else vpnhideEnoent

/-- A lookup that has found something, an open and a `stat` fail for the same paths. -/
theorem denied_alike (active : Bool) (statfs : Option ℕ) (p : DentryPath) :
    ((filenameLookupAfter active statfs p 0).1 = vpnhideEnoent ↔
      (active && hiddenIfacePath statfs p) = true) ∧
      ((doFilpOpenAfter active statfs (.ok p)).1 = .error vpnhideEnoent ↔
        (active && hiddenIfacePath statfs p) = true) ∧
      (vfsGetattrAfter active statfs p 0 = vpnhideEnoent ↔
        (active && hiddenIfacePath statfs p) = true) := by
  rw [filenameLookupAfter, doFilpOpenAfter, vfsGetattrAfter]
  cases active <;> cases hiddenIfacePath statfs p <;> simp [vpnhideEnoent]

/-! ## Reading a directory -/

/-- What a directory is read as. -/
structure DirEntry where
  name : Bytes
  offset : ℤ
  ino : UInt64
  dType : UInt32

/-- `filter_dirent_name`: the entry of a VPN interface. -/
def filterDirentName (name : Bytes) : Bool :=
  if name.length = 0 ∨ vpnhideIfnamsiz ≤ name.length then false else ifaceIsVpn name

/-- `vpnhide_readdir_context`, but for its position. -/
structure ReaddirContext (σ : Type) where
  /-- The context of the caller, with its position. -/
  originalContext : σ × ℤ

section Readdir

variable {ρ σ β : Type} (skip : ρ) (actor : Callback DirEntry ρ ℤ σ)

/-- The callback of the KPM; `skip` tells the kernel to go on. -/
def vpnhideFilldir : Callback DirEntry ρ ℤ (ReaddirContext σ) := fun e s =>
  if filterDirentName e.name then (skip, s)
  else
    -- the caller finds the position of the context in its own
    let answer := actor e (s.1.originalContext.1, s.2)
    (answer.1, ⟨answer.2⟩, answer.2.2)

/-- What `iterate_dir` returns, and the context of the caller afterwards. -/
def iterateDir (filtered : Bool) (dir : Traversal DirEntry ρ ℤ β) (context : σ × ℤ) : β × σ × ℤ :=
  if filtered then
    let r := dir.run (vpnhideFilldir skip actor) (⟨context⟩, context.2)
    (r.1, r.2.1.originalContext.1, r.2.2)
  else dir.run actor context

end Readdir

/-- Before Linux 6.1, zero tells the kernel to go on. -/
def vpnhideFilldirInt {σ : Type} (actor : Callback DirEntry ℤ ℤ σ) :
    Callback DirEntry ℤ ℤ (ReaddirContext σ) :=
  vpnhideFilldir 0 actor

/-- The callback of kernels whose callbacks answer by a boolean. -/
def vpnhideFilldirBool {σ : Type} (actor : Callback DirEntry Bool ℤ σ) :
    Callback DirEntry Bool ℤ (ReaddirContext σ) :=
  vpnhideFilldir true actor

section Simulation

variable {ρ σ β : Type} {skip : ρ} {actor : Callback DirEntry ρ ℤ σ}

/-- The position of the context takes the place of that of the caller, which is behind until the
    next call. -/
theorem run_vpnhideFilldir (dir : Traversal DirEntry ρ ℤ β) (context : ReaddirContext σ) (pos : ℤ) :
    ∃ context' : ReaddirContext σ, dir.run (vpnhideFilldir skip actor) (context, pos) =
      (((dir.without skip (filterDirentName ·.name)).run actor (context.originalContext.1, pos)).1,
        context', ((dir.without skip (filterDirentName ·.name)).run actor
          (context.originalContext.1, pos)).2.2) ∧
      context'.originalContext.1 =
        ((dir.without skip (filterDirentName ·.name)).run actor (context.originalContext.1,
          pos)).2.1 := by
  induction dir generalizing context pos with
  | done b => exact ⟨context, rfl, rfl⟩
  | call e next ih =>
    rw [Traversal.run, Traversal.without, vpnhideFilldir]
    dsimp only
    split_ifs with hvpn
    · exact ih skip context pos
    · exact ih (actor e (context.originalContext.1, pos)).1
        ⟨(actor e (context.originalContext.1, pos)).2⟩
        (actor e (context.originalContext.1, pos)).2.2
  | setPos p next ih => exact ih context p
  | getPos next ih => exact ih pos context pos

/-- The caller is called back as by the program without the names of VPN interfaces. -/
theorem iterateDir_eq (dir : Traversal DirEntry ρ ℤ β) (context : σ × ℤ) :
    iterateDir skip actor true dir context = (dir.without skip (filterDirentName ·.name)).run actor
      context := by
  obtain ⟨context', hrun, hcontext⟩ := @run_vpnhideFilldir _ _ _ skip actor dir ⟨context⟩ context.2
  rw [iterateDir, if_pos rfl]
  dsimp only
  rw [hrun]
  dsimp only
  rw [hcontext]

end Simulation

/-! ## What is listed and what is found -/

section Paths

variable {isVpn : Bytes → Bool} {segs : List Bytes} {name : Bytes}

/-- One more segment. -/
theorem FollowsNet.concat_iff : FollowsNet isVpn (segs ++ [name]) ↔
    FollowsNet isVpn segs ∨ (segs.getLast? = some net ∧ isVpn name = true) := by
  constructor
  · rintro ⟨pre, u, post, heq, hu⟩
    obtain rfl | ⟨post, last, rfl⟩ := post.eq_nil_or_concat'
    · obtain ⟨rfl, hlast⟩ := List.append_inj' (heq.trans (List.append_cons pre net [u])) rfl
      obtain rfl := List.singleton_inj.1 hlast
      exact .inr ⟨List.getLast?_concat, hu⟩
    · obtain ⟨rfl, -⟩ :=
        List.append_inj' (heq.trans (List.append_assoc pre (net :: u :: post) [last]).symm) rfl
      exact .inl ⟨pre, u, post, rfl, hu⟩
  · rintro (⟨pre, u, post, rfl, hu⟩ | ⟨hlast, hu⟩)
    · exact ⟨pre, u, post ++ [name], List.append_assoc _ _ _, hu⟩
    · obtain ⟨pre, rfl⟩ := List.getLast?_eq_some_iff.1 hlast
      exact ⟨pre, name, [], (List.append_cons pre net [name]).symm, hu⟩

theorem head?_rendered (segs : List Bytes) : (rendered slash segs).head? = some slash := by
  rw [rendered]
  split_ifs with h
  · rfl
  · obtain ⟨s, segs, rfl⟩ := List.exists_cons_of_ne_nil h
    rfl

variable (p : DentryPath) (hname : IsComponent slash name)

theorem DentryPath.components_bytes : Lib.components slash p.bytes = p.segments :=
  components_rendered p.components

/-- A path is hidden in sysfs. -/
theorem DentryPath.sysfsIfacePath_iff :
    sysfsIfacePath isVpn p.bytes = true ↔ FollowsNet (isShortVpn isVpn) p.segments := by
  rw [sysfsIfacePath_iff_components, p.components_bytes, DentryPath.bytes,
    head?_rendered, and_iff_right rfl]

/-- A path is a listing in sysfs. -/
theorem DentryPath.sysfsIfaceListing_iff :
    sysfsIfaceListing p.bytes = true ↔ p.segments.getLast? = some net := by
  rw [sysfsIfaceListing, DentryPath.bytes, head?_rendered, stringEquals_eq,
    if_neg (fun h => h rfl), rendered]
  split_ifs with h
  · rw [h]
    decide
  · rw [lastSegment_joined p.components]
    obtain ⟨pre, last, hlast⟩ := (List.eq_nil_or_concat' p.segments).resolve_left h
    rw [hlast, List.getLast?_concat, Option.getD_some, decide_eq_true_iff, Option.some_inj]
    rfl

/-- The directories of interfaces below `/proc/sys`. -/
def procIfaceDirs : List (List Bytes) :=
  [[ascii "sys", net, ascii "ipv4", ascii "conf"], [ascii "sys", net, ascii "ipv4", ascii "neigh"],
    [ascii "sys", net, ascii "ipv6", ascii "conf"], [ascii "sys", net, ascii "ipv6", ascii "neigh"]]

theorem joined_procIfaceDirs : procIfacePrefixes = procIfaceDirs.map fun dir =>
    joined slash dir ++ [slash] := by decide

theorem component_procIfaceDirs : ∀ dir ∈ procIfaceDirs, ∀ s ∈ dir, IsComponent slash s := by decide

/-- A path is a listing in procfs. -/
theorem DentryPath.procIfaceListing_iff :
    procIfaceListing p.bytes = true ↔ p.segments ∈ procIfaceDirs := by
  have hlistings : ∀ dir ∈ procIfaceDirs, (p.bytes = joined slash dir ↔ p.segments = dir) := by
    intro dir hdir
    constructor
    · intro heq
      rw [← p.components_bytes, heq, components_joined (component_procIfaceDirs dir hdir)]
    · rintro rfl
      refine if_neg fun hnil => ?_
      rw [hnil] at hdir
      exact absurd hdir (by decide)
  have hdirs :
      (procIfaceListing p.bytes = true) = ∃ dir ∈ procIfaceDirs, p.bytes = joined slash dir := by
    simp only [procIfaceListing, stringEquals_eq, procIfaceDirs, List.mem_cons, List.not_mem_nil,
      or_false, exists_eq_or_imp, exists_eq_left, Bool.or_eq_true, decide_eq_true_iff, or_assoc]
    rfl
  rw [hdirs]
  constructor
  · rintro ⟨dir, hdir, heq⟩
    exact (hlistings dir hdir).1 heq ▸ hdir
  · exact fun hdir => ⟨_, hdir, (hlistings _ hdir).2 rfl⟩

/-- A path is hidden in procfs. -/
theorem DentryPath.procIfacePath_iff : procIfacePath isVpn p.bytes = true ↔
    ∃ dir ∈ procIfaceDirs, ∃ u post, p.segments = dir ++ u :: post ∧ isShortVpn isVpn u = true := by
  rw [procIfacePath, joined_procIfaceDirs, List.any_map, List.any_eq_true]
  refine exists_congr fun dir => and_congr_right fun hdir => ?_
  rw [Function.comp_apply, stringAfterPrefix_eq]
  constructor
  · intro h
    split_ifs at h with hpre
    · obtain ⟨tail, htail⟩ := hpre
      rw [← htail, List.drop_left, Option.any_some, vpnSegment_eq, Zygisk.namesVpn,
        Bool.and_eq_true, decide_eq_true_iff] at h
      obtain ⟨hne, hvpn⟩ := h
      -- The rest begins with no separator, as components are not empty.
      have hdrop : tail.dropWhile (· == slash) = tail := by
        cases tail with
        | nil => rfl
        | cons c tail =>
          have hc : c ≠ slash := by
            rintro rfl
            exact hne rfl
          rw [List.dropWhile_cons, if_neg (by simpa using hc)]
      have hnil : tail ≠ [] := by
        rintro rfl
        exact hne rfl
      have hcomponents := @components_of_ne_nil _ _ slash tail (hdrop.symm ▸ hnil)
      rw [hdrop] at hcomponents
      have hsegs := p.components_bytes
      rw [← htail, List.append_assoc, List.singleton_append, components_append_cons,
        components_joined (component_procIfaceDirs dir hdir), hcomponents] at hsegs
      exact ⟨headSegment tail, _, hsegs.symm, hvpn⟩
    · cases h
  · rintro ⟨u, post, hsegs, hvpn⟩
    have hcomponent := p.components u (by rw [hsegs]; simp)
    have hbytes : p.bytes = joined slash dir ++ [slash] ++ (u ++ joined slash post) := by
      rw [DentryPath.bytes, rendered, if_neg (by rw [hsegs]; simp), hsegs,
        joined_append, List.append_assoc]
      rfl
    rw [hbytes, if_pos (List.prefix_append _ _), List.drop_left, Option.any_some, vpnSegment_eq,
      namesVpn_append hcomponent]
    exact hvpn

/-- An entry is hidden in procfs. -/
theorem DentryPath.procIfacePath_child : procIfacePath isVpn (p.child name hname).bytes = true ↔
    procIfacePath isVpn p.bytes = true ∨
      (procIfaceListing p.bytes = true ∧ isShortVpn isVpn name = true) := by
  rw [procIfacePath_iff, procIfacePath_iff, procIfaceListing_iff]
  constructor
  · rintro ⟨dir, hdir, u, post, heq, hu⟩
    have hsegs : p.segments ++ [name] = dir ++ u :: post := heq
    obtain rfl | ⟨post, last, rfl⟩ := post.eq_nil_or_concat'
    · obtain ⟨hp, hlast⟩ := List.append_inj' hsegs rfl
      exact .inr ⟨hp ▸ hdir, List.singleton_inj.1 hlast ▸ hu⟩
    · obtain ⟨hp, -⟩ :=
        List.append_inj' (hsegs.trans (List.append_assoc dir (u :: post) [last]).symm) rfl
      exact .inl ⟨dir, hdir, u, post, hp, hu⟩
  · rintro (⟨dir, hdir, u, post, hp, hu⟩ | ⟨hdir, hu⟩)
    · exact ⟨dir, hdir, u, post ++ [name],
        (congrArg (· ++ [name]) hp).trans (List.append_assoc _ _ _), hu⟩
    · exact ⟨p.segments, hdir, name, [], rfl, hu⟩

/-- An entry is hidden in sysfs. -/
theorem DentryPath.sysfsIfacePath_child : sysfsIfacePath isVpn (p.child name hname).bytes = true ↔
    sysfsIfacePath isVpn p.bytes = true ∨
      (sysfsIfaceListing p.bytes = true ∧ isShortVpn isVpn name = true) := by
  rw [sysfsIfacePath_iff, sysfsIfacePath_iff, DentryPath.sysfsIfaceListing_iff]
  exact FollowsNet.concat_iff

/-- The name of an entry is one of a VPN interface. -/
theorem filterDirentName_eq (hname : IsComponent slash name) :
    filterDirentName name = isShortVpn ifaceIsVpn name := by
  have hpos : name.length ≠ 0 := fun h => hname.1 (List.length_eq_zero_iff.1 h)
  rw [filterDirentName, isShortVpn, vpnhideIfnamsiz]
  split_ifs with h
  · rw [decide_eq_false (by omega), Bool.false_and]
  · rw [decide_eq_true (by omega), Bool.true_and]

/-- A directory of interfaces below `/proc/sys` is none of sysfs, nor are its entries. -/
theorem DentryPath.not_sysfs_of_procIfaceListing (h : procIfaceListing p.bytes = true) :
    sysfsIfaceListing p.bytes = false ∧ sysfsIfacePath ifaceIsVpn p.bytes = false := by
  rw [procIfaceListing_iff] at h
  have hlast : ∀ dir ∈ procIfaceDirs, dir.getLast? ≠ some net := by decide
  have hfollows : ∀ dir ∈ procIfaceDirs, followsNet (isShortVpn ifaceIsVpn) none dir = false := by
    decide +kernel
  constructor
  · rw [Bool.eq_false_iff, ne_eq, DentryPath.sysfsIfaceListing_iff]
    exact hlast _ h
  · rw [Bool.eq_false_iff, ne_eq, sysfsIfacePath_iff]
    intro hnet
    have hwalk := (@followsNet_iff (isShortVpn ifaceIsVpn) p.segments none).2 (.inr hnet)
    rw [hfollows _ h] at hwalk
    cases hwalk

end Paths

section Agreement

variable {p : DentryPath} {statfs : Option ℕ} {name : Bytes}

/-- The length of the path of an entry. -/
theorem length_child (p : DentryPath) (hname : IsComponent slash name) :
    (p.child name hname).bytes.length ≤ p.bytes.length + 1 + name.length := by
  rw [DentryPath.bytes, DentryPath.bytes, DentryPath.child, rendered, if_neg (by simp),
    joined_append, joined_singleton, List.length_append, List.length_cons, rendered]
  split_ifs with h
  · rw [h]
    simp only [Lib.joined, List.flatMap_nil, List.length_nil, List.length_singleton]
    omega
  · omega

/-- An entry of a directory that is not hidden is hidden if the directory lists interfaces, and the
    name is that of a VPN interface. -/
theorem hiddenIfacePath_child (hname : IsComponent slash name)
    (hfits : p.bytes.length + 16 < vpnhideResolvedPathMax) (hp : hiddenIfacePath statfs p = false) :
    hiddenIfacePath statfs (p.child name hname) =
      (ifaceListingPath statfs p && filterDirentName name) := by
  have hresolved : resolvedDentryPath p = some p.bytes := if_pos (by omega)
  have hsys : sysfsIfacePath ifaceIsVpn (p.child name hname).bytes =
      (sysfsIfacePath ifaceIsVpn p.bytes ||
        (sysfsIfaceListing p.bytes && isShortVpn ifaceIsVpn name)) := by
    rw [Bool.eq_iff_iff, Bool.or_eq_true, Bool.and_eq_true, p.sysfsIfacePath_child hname]
  have hproc : procIfacePath ifaceIsVpn (p.child name hname).bytes =
      (procIfacePath ifaceIsVpn p.bytes ||
        (procIfaceListing p.bytes && isShortVpn ifaceIsVpn name)) := by
    rw [Bool.eq_iff_iff, Bool.or_eq_true, Bool.and_eq_true, p.procIfacePath_child hname]
  have hdir := p.not_sysfs_of_procIfaceListing
  rw [filterDirentName_eq hname, ifaceListingPath, hresolved]
  rw [hiddenIfacePath, hresolved] at hp
  rw [hiddenIfacePath, resolvedDentryPath]
  split_ifs with hchild
  · dsimp only at hp ⊢
    rw [hsys, hproc]
    have hmagic : vpnhideSysfsMagic ≠ vpnhideProcSuperMagic := by decide
    generalize pathFilesystemMagic statfs = magic at hp ⊢
    generalize sysfsIfacePath ifaceIsVpn p.bytes = sys, procIfacePath ifaceIsVpn p.bytes = proc,
      sysfsIfaceListing p.bytes = sysListing, procIfaceListing p.bytes = procListing,
      isShortVpn ifaceIsVpn name = vpn at hp hdir ⊢
    by_cases hm : magic = vpnhideSysfsMagic
    · subst hm
      cases sys <;> cases proc <;> cases sysListing <;> cases procListing <;> cases vpn <;> simp_all
    · cases sys <;> cases proc <;> cases sysListing <;> cases procListing <;> cases vpn <;> simp_all
  · -- the name is too long for an interface
    have hlen := length_child p hname
    have hshort : isShortVpn ifaceIsVpn name = false := by
      rw [isShortVpn, decide_eq_false (by omega), Bool.false_and]
    rw [hshort, Bool.and_false]

variable {ρ σ β : Type}

/-- No directory lists what cannot be found, and what can be found is listed: the caller is called
    back for the entries whose lookup succeeds, and for no others. -/
theorem directory_agrees_with_lookup (skip : ρ) (actor : Callback DirEntry ρ ℤ σ)
    (dir : Traversal DirEntry ρ ℤ β) (context : σ × ℤ) (active : Bool)
    (hnames : dir.Calls fun e => IsComponent slash e.name)
    (hfits : p.bytes.length + 16 < vpnhideResolvedPathMax) (hp : hiddenIfacePath statfs p = false) :
    iterateDir skip actor (active && ifaceListingPath statfs p) dir context =
      (dir.without skip fun e => if h : IsComponent slash e.name then
        (filenameLookupAfter active statfs (p.child e.name h) 0).1 = vpnhideEnoent
          else false).run actor context := by
  -- Entry by entry, what the filter drops is what a lookup would not find.
  have hcalls : dir.Calls fun e => ((if h : IsComponent slash e.name then
      (filenameLookupAfter active statfs (p.child e.name h) 0).1 = vpnhideEnoent
        else false : Bool)) =
        (active && (ifaceListingPath statfs p && filterDirentName e.name)) := by
    refine hnames.mono fun e hname => ?_
    have hdenied := (denied_alike active statfs (p.child e.name hname)).1
    rw [hiddenIfacePath_child hname hfits hp] at hdenied
    rw [dif_pos hname, Bool.eq_iff_iff, decide_eq_true_iff, hdenied]
  rw [Traversal.without_congr hcalls]
  -- Where nothing is filtered, nothing is dropped.
  cases hfiltered : active && ifaceListingPath statfs p with
  | true =>
    rw [Bool.and_eq_true] at hfiltered
    rw [iterateDir_eq]
    simp only [hfiltered, Bool.true_and]
  | false =>
    rw [Traversal.without_of_none
      (hcalls.mono fun e _ => by rw [← Bool.and_assoc, hfiltered, Bool.false_and])]
    rfl

end Agreement

/-- A file system that gives its entries until the caller has enough. -/
def walkEntries : List DirEntry → Traversal DirEntry Bool ℤ Unit
  | [] => .done ()
  | e :: entries =>
    .call e fun more => if more then .setPos (e.offset + 1) (walkEntries entries) else .done ()

/-- A caller that has room for two names. -/
def twoNames : Callback DirEntry Bool ℤ (List Bytes) := fun e s =>
  if s.1.length < 2 then (true, s.1 ++ [e.name], s.2) else (false, s)

/-- `/sys/class/net` -/
def classNet : DentryPath := ⟨[ascii "class", net], by decide⟩

/-- A directory of five interfaces, two of them of a VPN. -/
def netDevices : List DirEntry :=
  [⟨ascii "tun0", 2, 11, 4⟩, ⟨ascii "lo", 3, 12, 4⟩, ⟨ascii "wg0", 4, 13, 4⟩,
    ⟨ascii "wlan0", 5, 14, 4⟩, ⟨ascii "rmnet0", 6, 15, 4⟩]

/-- What is called back for are the entries. -/
theorem calls_walkEntries {entries : List DirEntry} (h : ∀ e ∈ entries, IsComponent slash e.name) :
    (walkEntries entries).Calls fun e => IsComponent slash e.name := by
  induction entries with
  | nil => trivial
  | cons e entries ih =>
    rw [List.forall_mem_cons] at h
    refine ⟨h.1, fun more => ?_⟩
    cases more with
    | true => exact ih h.2
    | false => trivial

/-- It is told of the loopback and of Wi-Fi, and of no tunnel. -/
theorem directory_agrees_with_lookup_classNet :
    (iterateDir true twoNames (ifaceListingPath (some vpnhideSysfsMagic) classNet)
      (walkEntries netDevices) ([], 0)).2 =
      ([ascii "lo", ascii "wlan0"], 6) := by
  have hrun := @directory_agrees_with_lookup classNet (some vpnhideSysfsMagic) _ _ _ true twoNames
    (walkEntries netDevices) ([], 0) true (calls_walkEntries (by decide))
    (by decide) (by decide +kernel)
  rw [Bool.true_and] at hrun
  rw [hrun]
  decide +kernel

end VpnHide.Kpm

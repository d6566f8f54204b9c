import VpnHide.Zygisk.Normalize

/-!
# Opening a path

`hooked_openat` of `zygisk/src/hooks.rs` asks two questions of a path: whether it leads to a
VPN interface, which is asked of its normal form (`hidden_path`), and whether it is one of the
tables below `/proc/net` (`match_abs_proc_net`), which is asked of the path as it is. A path of a
table is in normal form (`normalForm_eq_of_match`), so that the second question is answered
otherwise for another spelling of it (`spellingIndependent_iff`).
-/

namespace VpnHide.Zygisk

open Lib

/-! ## The decisions -/

/-- What `process_vm_readv` reads: a path that is too long is not used. -/
def readCallerPath (path : Bytes) : Option Bytes :=
  if path.length < maxCallerPath then some path else none

/-- A path and what its directory is resolved to. -/
def resolvePathAt (base : Option Bytes) (path : Bytes) (allowEmpty : Bool) :
    Flow Walk (Option Bytes) :=
  if path.head? = some slash then normalizeAbsolute path
  else if path.isEmpty && !allowEmpty then .done none
  else
    match base with
    | none => .done none
    | some base =>
      if base.length = 0 ∨ maxResolvedPath ≤ base.length ∨ base.head? ≠ some slash then .done none
      else if !path.isEmpty then
        if maxResolvedPath < base.length + 1 + path.length then .done none
        else normalizeAbsolute (base ++ slash :: path)
      else normalizeAbsolute base

/-- `classify_c_path_at`: what a path is, seen from a directory. -/
def classifyCPathAt (isVpn : Bytes → Bool) (base : Option Bytes) (path : Bytes)
    (allowEmpty : Bool) :
    Flow Walk PathKind :=
  match readCallerPath path with
  | none => .done .other
  | some path =>
    match resolvePathAt base path allowEmpty with
    | .done none => .done .other
    | .done (some path) => .done (classifyPath isVpn path)
    | .next w => .next w
    | .panic => .panic

/-- The files that are filtered. -/
inductive ProcNetFile
  | route
  | ipv6Route
  | ifInet6
  | tcp
  | tcp6
  | udp
  | udp6
  | dev
  deriving DecidableEq

/-- The names of the files. -/
def procNetFiles : List (Bytes × ProcNetFile) :=
  [(ascii "route", .route), (ascii "ipv6_route", .ipv6Route), (ascii "if_inet6", .ifInet6),
    (ascii "tcp", .tcp), (ascii "tcp6", .tcp6), (ascii "udp", .udp), (ascii "udp6", .udp6),
    (ascii "dev", .dev)]

/-- `strip_prefix`. -/
def stripPrefix (pre path : Bytes) : Option Bytes :=
  if pre <+: path then some (path.drop pre.length) else none

/-- The text before the first slash, and what follows it. -/
def splitSegment (rest : Bytes) : Option (Bytes × Bytes) :=
  (rest.findIdx? (· == slash)).map fun i => (rest.take i, rest.drop (i + 1))

/-- A number. -/
def isPid (segment : Bytes) : Bool := !segment.isEmpty && segment.all isAsciiDigit

/-- What follows the segment `net` of an owner, after `/proc/`. -/
def stripOwnerNet (rest : Bytes) : Option Bytes :=
  (stripPrefix (ascii "net/") rest).or <|
    (stripPrefix (ascii "self/net/") rest).or <|
      (stripPrefix (ascii "thread-self/net/") rest).or <| do
        let (pid, after) ← splitSegment rest
        if !isPid pid then none
        else
          (stripPrefix (ascii "net/") after).or <| do
            let after ← stripPrefix (ascii "task/") after
            let (tid, after) ← splitSegment after
            if !isPid tid then none else stripPrefix (ascii "net/") after

/-- The file of a name. -/
def procNetFile (basename : Bytes) : Option ProcNetFile :=
  (procNetFiles.find? (·.1 == basename)).map (·.2)

/-- `match_abs_proc_net`: the file of an absolute path. -/
def matchAbsProcNet (path : Bytes) : Option ProcNetFile := do
  let rest ← stripPrefix (ascii "/proc/") path
  let basename ← stripOwnerNet rest
  procNetFile basename

/-- The directory that a descriptor stands for, as the link says. -/
def isDirfdProcNet (target : Option Bytes) : Bool :=
  match target with
  | none => false
  | some target =>
    match stripPrefix (ascii "/proc/") (target.take 128) with
    | none => false
    | some rest => rest.length < 160 && (stripOwnerNet (rest ++ [slash])).any (·.isEmpty)

/-- `match_rel_proc_net`: the file of a name in the directory `net`. -/
def matchRelProcNet (target : Option Bytes) (basename : Bytes) : Option ProcNetFile := do
  let kind ← procNetFile basename
  if isDirfdProcNet target then some kind else none

/-- The directory of a call: whether its descriptor is one, what it is resolved to, and what its
    link says. -/
structure Directory where
  isFd : Bool
  base : Option Bytes
  target : Option Bytes

/-- What an app gets to open. -/
inductive Opened
  | notFound
  | filtered (kind : ProcNetFile)
  | real
  deriving DecidableEq

/-- The hooks that are active. -/
structure Active where
  filesystem : Bool
  procNet : Bool

/-- The tables that are replaced. -/
def openProcNet (active : Active) (dir : Directory) (path : Bytes) : Opened :=
  if active.procNet then
    match readCallerPath path with
    | none => .real
    | some path =>
      let matched :=
        if path.head? = some slash then matchAbsProcNet path
        else if dir.isFd then matchRelProcNet dir.target path
        else none
      matched.elim .real .filtered
  else .real

/-- `hooked_openat`: what an app gets to open by a path. -/
def hookedOpenat (isVpn : Bytes → Bool) (active : Active) (dir : Directory) (path : Bytes) :
    Flow Walk Opened :=
  if active.filesystem then
    match classifyCPathAt isVpn dir.base path false with
    | .done kind =>
      .done (if kind = .hiddenInterface then .notFound else openProcNet active dir path)
    | .next w => .next w
    | .panic => .panic
  else .done (openProcNet active dir path)

/-! ## Tables below `/proc/net` -/

/-- The segments of an owner: none, a name for the caller, or a process or one of its tasks. -/
inductive Owner : List Bytes → Prop
  | none : Owner []
  | self : Owner [ascii "self"]
  | threadSelf : Owner [ascii "thread-self"]
  | process {pid : Bytes} : isPid pid = true → Owner [pid]
  | task {pid tid : Bytes} : isPid pid = true → isPid tid = true → Owner [pid, ascii "task", tid]

/-- The segments of the path of a table. -/
def ProcNetPath (segs : List Bytes) (kind : ProcNetFile) : Prop :=
  ∃ owner file, Owner owner ∧ (file, kind) ∈ procNetFiles ∧
    segs = ascii "proc" :: (owner ++ [net, file])

theorem stripPrefix_eq_some {pre path rest : Bytes} :
    stripPrefix pre path = some rest ↔ path = pre ++ rest := by
  rw [stripPrefix]
  constructor
  · intro h
    split_ifs at h with hpre
    obtain ⟨r, rfl⟩ := hpre
    rw [List.drop_left] at h
    rw [Option.some.inj h]
  · rintro rfl
    rw [if_pos (List.prefix_append pre rest), List.drop_left]

/-- A text that begins with another byte does not begin with the prefix. -/
theorem stripPrefix_eq_none {p c : UInt8} {pre rest : Bytes} (h : p ≠ c) :
    stripPrefix (p :: pre) (c :: rest) = none :=
  if_neg fun hpre => h (List.cons_prefix_cons.1 hpre).1

theorem splitSegment_append {s : Bytes} (hs : slash ∉ s) (rest : Bytes) :
    splitSegment (s ++ slash :: rest) = some (s, rest) := by
  have hnone : s.findIdx? (· == slash) = none :=
    List.findIdx?_eq_none_iff.2 fun b hb => beq_false_of_ne fun h => hs (h ▸ hb)
  rw [splitSegment, List.findIdx?_append, hnone, List.findIdx?_cons,
    if_pos (beq_self_eq_true slash)]
  simp

theorem splitSegment_eq_some {rest s t : Bytes} (h : splitSegment rest = some (s, t)) :
    rest = s ++ slash :: t ∧ slash ∉ s := by
  by_cases hmem : slash ∈ rest
  · obtain ⟨s', t', rfl, hs'⟩ := List.eq_append_cons_of_mem hmem
    rw [splitSegment_append hs'] at h
    obtain ⟨rfl, rfl⟩ := Prod.ext_iff.1 (Option.some.inj h)
    exact ⟨rfl, hs'⟩
  · have hnone : rest.findIdx? (· == slash) = none :=
      List.findIdx?_eq_none_iff.2 fun b hb => beq_false_of_ne fun hslash => hmem (hslash ▸ hb)
    rw [splitSegment, hnone] at h
    cases h

theorem isPid_iff {s : Bytes} : isPid s = true ↔ s ≠ [] ∧ ∀ b ∈ s, isAsciiDigit b = true := by
  cases s <;> simp [isPid]

theorem isComponent_of_isPid {s : Bytes} (h : isPid s = true) :
    IsComponent slash s ∧ IsPlain dot s := by
  obtain ⟨hne, hdigits⟩ := isPid_iff.1 h
  have hnot : ∀ b, isAsciiDigit b = false → b ∉ s := fun b hb hmem => by
    rw [hdigits b hmem] at hb
    cases hb
  have hdot := hnot dot (by decide)
  refine ⟨⟨hne, hnot slash (by decide)⟩, ?_, ?_⟩
  · rintro rfl
    exact hdot List.mem_cons_self
  · rintro rfl
    exact hdot List.mem_cons_self

theorem Owner.isComponent {owner : List Bytes} (h : Owner owner) :
    ∀ s ∈ owner, IsComponent slash s ∧ IsPlain dot s := by
  cases h with
  | none => exact nofun
  | self => decide
  | threadSelf => decide
  | process hpid => exact List.forall_mem_singleton.2 (isComponent_of_isPid hpid)
  | task hpid htid =>
    refine List.forall_mem_cons.2 ⟨isComponent_of_isPid hpid,
      List.forall_mem_cons.2 ⟨by decide, ?_⟩⟩
    exact List.forall_mem_singleton.2 (isComponent_of_isPid htid)

theorem ProcNetPath.isComponent {segs : List Bytes} {kind : ProcNetFile}
    (h : ProcNetPath segs kind) :
    ∀ s ∈ segs, IsComponent slash s ∧ IsPlain dot s := by
  obtain ⟨owner, file, howner, hfile, rfl⟩ := h
  have hfiles : ∀ e ∈ procNetFiles, IsComponent slash e.1 ∧ IsPlain dot e.1 := by decide
  refine List.forall_mem_cons.2 ⟨by decide, List.forall_mem_append.2 ⟨howner.isComponent, ?_⟩⟩
  exact List.forall_mem_cons.2 ⟨by decide, List.forall_mem_singleton.2 (hfiles _ hfile)⟩

/-- The name of a process is none of the other ways to begin. -/
theorem stripOwnerNet_of_isPid {pid : Bytes} (h : isPid pid = true) (after : Bytes) :
    stripOwnerNet (pid ++ slash :: after) =
      (stripPrefix (ascii "net/") after).or (do
        let after ← stripPrefix (ascii "task/") after
        let (tid, after) ← splitSegment after
        if !isPid tid then none else stripPrefix (ascii "net/") after) := by
  obtain ⟨hne, hdigits⟩ := isPid_iff.1 h
  obtain ⟨d, ds, rfl⟩ := List.exists_cons_of_ne_nil hne
  have hd := hdigits d List.mem_cons_self
  have hbegins : ∀ b, isAsciiDigit b = false → b ≠ d := by
    rintro b hb rfl
    rw [hd] at hb
    cases hb
  have hnet : stripPrefix (ascii "net/") (d :: ds ++ slash :: after) = none :=
    stripPrefix_eq_none (hbegins 'n'.toUInt8 (by decide))
  have hself : stripPrefix (ascii "self/net/") (d :: ds ++ slash :: after) = none :=
    stripPrefix_eq_none (hbegins 's'.toUInt8 (by decide))
  have hthread : stripPrefix (ascii "thread-self/net/") (d :: ds ++ slash :: after) = none :=
    stripPrefix_eq_none (hbegins 't'.toUInt8 (by decide))
  rw [stripOwnerNet, hnet, hself, hthread, splitSegment_append (isComponent_of_isPid h).1.2]
  simp only [Option.none_or, Option.bind_eq_bind, Option.bind_some, h]
  rfl

/-- What follows `/proc/` for an owner. -/
theorem stripOwnerNet_eq_some {rest file : Bytes} :
    stripOwnerNet rest = some file ↔
      ∃ owner, Owner owner ∧ slash :: rest = joined slash owner ++ slash ::
        (net ++ slash :: file) := by
  have hnet : ascii "net/" = net ++ [slash] := rfl
  constructor
  · intro h
    rw [stripOwnerNet, Option.or_eq_some_iff, Option.or_eq_some_iff, Option.or_eq_some_iff] at h
    -- The four prefixes are tried one after another.
    obtain h | ⟨-, h | ⟨-, h | ⟨-, h⟩⟩⟩ := h
    · rw [stripPrefix_eq_some.1 h]
      exact ⟨[], .none, rfl⟩
    · rw [stripPrefix_eq_some.1 h]
      exact ⟨_, .self, rfl⟩
    · rw [stripPrefix_eq_some.1 h]
      exact ⟨_, .threadSelf, rfl⟩
    · obtain ⟨⟨pid, after⟩, hsplit, howner⟩ := Option.bind_eq_some_iff.1 h
      obtain ⟨rfl, -⟩ := splitSegment_eq_some hsplit
      dsimp only at howner
      split_ifs at howner with hpid
      rw [Bool.not_eq_true', Bool.not_eq_false] at hpid
      obtain hprocess | ⟨-, htask⟩ := Option.or_eq_some_iff.1 howner
      · rw [stripPrefix_eq_some.1 hprocess]
        exact ⟨_, .process hpid, by simp [joined, hnet]⟩
      · obtain ⟨after', hafter, htask⟩ := Option.bind_eq_some_iff.1 htask
        obtain ⟨⟨tid, last⟩, hsplit', hlast⟩ := Option.bind_eq_some_iff.1 htask
        obtain ⟨rfl, -⟩ := splitSegment_eq_some hsplit'
        dsimp only at hlast
        split_ifs at hlast with htid
        rw [Bool.not_eq_true', Bool.not_eq_false] at htid
        rw [stripPrefix_eq_some.1 hafter, stripPrefix_eq_some.1 hlast]
        refine ⟨_, .task hpid htid, ?_⟩
        rw [show ascii "task/" = ascii "task" ++ [slash] from rfl, hnet]
        simp [joined]
  · have hstrip : stripPrefix (ascii "net/") (net ++ slash :: file) = some file :=
      stripPrefix_eq_some.2 rfl
    rintro ⟨owner, howner, h⟩
    -- For each owner the prefixes that are tried before its own do not match.
    cases howner with
    | none =>
      obtain rfl := (List.cons.inj h).2
      rw [stripOwnerNet, hstrip, Option.some_or]
    | self =>
      have hrest : rest = ascii "self/net/" ++ file := (List.cons.inj h).2
      have hnone : stripPrefix (ascii "net/") (ascii "self/net/" ++ file) = none :=
        stripPrefix_eq_none (by decide)
      rw [hrest, stripOwnerNet, hnone, Option.none_or, stripPrefix_eq_some.2 rfl, Option.some_or]
    | threadSelf =>
      have hrest : rest = ascii "thread-self/net/" ++ file := (List.cons.inj h).2
      have hnone : stripPrefix (ascii "net/") (ascii "thread-self/net/" ++ file) = none :=
        stripPrefix_eq_none (by decide)
      have hself : stripPrefix (ascii "self/net/") (ascii "thread-self/net/" ++ file) = none :=
        stripPrefix_eq_none (by decide)
      rw [hrest, stripOwnerNet, hnone, hself, Option.none_or, Option.none_or,
        stripPrefix_eq_some.2 rfl, Option.some_or]
    | @process pid hpid =>
      have hrest : rest = pid ++ slash :: (net ++ slash :: file) := by simpa [joined] using h
      rw [hrest, stripOwnerNet_of_isPid hpid, hstrip, Option.some_or]
    | @task pid tid hpid htid =>
      have hrest :
          rest = pid ++ slash :: (ascii "task/" ++ (tid ++ slash :: (net ++ slash :: file))) := by
        rw [show ascii "task/" = ascii "task" ++ [slash] from rfl]
        simpa [joined] using h
      have hnone :
          stripPrefix (ascii "net/") (ascii "task/" ++ (tid ++ slash :: (net ++ slash :: file))) =
            none :=
        stripPrefix_eq_none (by decide)
      rw [hrest, stripOwnerNet_of_isPid hpid, hnone, stripPrefix_eq_some.2 rfl]
      simp only [Option.none_or, Option.bind_eq_bind, Option.bind_some,
        splitSegment_append (isComponent_of_isPid htid).1.2, htid, hstrip]
      rfl

theorem procNetFile_eq_some {file : Bytes} {kind : ProcNetFile} :
    procNetFile file = some kind ↔ (file, kind) ∈ procNetFiles := by
  constructor
  · intro h
    obtain ⟨e, hfind, rfl⟩ := Option.map_eq_some_iff.1 h
    have hname : e.1 = file := by simpa using List.find?_some hfind
    rw [← hname]
    exact List.mem_of_find?_eq_some hfind
  · have hall : ∀ e ∈ procNetFiles, procNetFile e.1 = some e.2 := by decide
    exact fun h => hall _ h

/-- The paths of tables that are matched. -/
theorem matchAbsProcNet_eq_some {path : Bytes} {kind : ProcNetFile} :
    matchAbsProcNet path = some kind ↔
      ∃ segs, ProcNetPath segs kind ∧ path = joined slash segs := by
  have hproc : ascii "/proc/" = slash :: ascii "proc" ++ [slash] := rfl
  have hjoined : ∀ owner file, joined slash (ascii "proc" :: (owner ++ [net, file])) =
      slash :: ascii "proc" ++ (joined slash owner ++ slash :: (net ++ slash :: file)) := by
    intro owner file
    rw [joined, List.flatMap_cons, ← joined, joined_append]
    simp [joined]
  constructor
  · intro h
    obtain ⟨rest, hrest, h⟩ := Option.bind_eq_some_iff.1 h
    obtain ⟨file, hfile, hkind⟩ := Option.bind_eq_some_iff.1 h
    obtain ⟨owner, howner, hstrip⟩ := stripOwnerNet_eq_some.1 hfile
    refine ⟨_, ⟨owner, file, howner, procNetFile_eq_some.1 hkind, rfl⟩, ?_⟩
    rw [hjoined, ← hstrip, stripPrefix_eq_some.1 hrest, hproc, List.append_assoc,
      List.singleton_append]
  · rintro ⟨segs, ⟨owner, file, howner, hfile, rfl⟩, rfl⟩
    obtain ⟨rest, hrest⟩ :
        ∃ rest, slash :: rest = joined slash owner ++ slash :: (net ++ slash :: file) := by
      cases owner with
      | nil => exact ⟨_, rfl⟩
      | cons s owner => exact ⟨_, rfl⟩
    have hstrip :
        stripPrefix (ascii "/proc/") (joined slash (ascii "proc" :: (owner ++ [net, file]))) =
          some rest := by
      rw [stripPrefix_eq_some, hjoined, ← hrest, hproc, List.append_assoc, List.singleton_append]
    rw [matchAbsProcNet, hstrip, Option.bind_eq_bind, Option.bind_some]
    exact Option.bind_eq_some_iff.2 ⟨file, stripOwnerNet_eq_some.2 ⟨owner, howner, hrest⟩,
      procNetFile_eq_some.2 hfile⟩

/-- A path that is matched is in normal form. -/
theorem normalForm_eq_of_match {path : Bytes} {kind : ProcNetFile}
    (h : matchAbsProcNet path = some kind) :
    normalForm slash dot path = path := by
  obtain ⟨segs, hsegs, rfl⟩ := matchAbsProcNet_eq_some.1 h
  refine normalForm_joined ?_ hsegs.isComponent
  obtain ⟨owner, file, -, -, rfl⟩ := hsegs
  exact List.cons_ne_nil _ _

/-- The normal form of a path is matched by where the path leads. -/
theorem matchAbsProcNet_normalForm {path : Bytes} {kind : ProcNetFile} :
    matchAbsProcNet (normalForm slash dot path) = some kind ↔
      ProcNetPath (lexical dot (components slash path)) kind := by
  rw [matchAbsProcNet_eq_some]
  constructor
  · rintro ⟨segs, hsegs, heq⟩
    rwa [← components_normalForm, heq, components_joined fun s hs => (hsegs.isComponent s hs).1]
  · intro h
    refine ⟨_, h, if_neg ?_⟩
    obtain ⟨owner, file, -, -, heq⟩ := h
    rw [heq]
    exact List.cons_ne_nil _ _

/-! ## Spelling -/

/-- The normal form of a path that fits. -/
theorem Fits.normalForm {path : Bytes} (h : Fits path) : Fits (normalForm slash dot path) where
  absolute := by
    rw [Lib.normalForm, rendered]
    cases lexical dot (components slash path) <;> rfl
  short := (h.length_written_le List.prefix_rfl).trans_lt h.short
  shallow pre hpre := by
    rw [components_normalForm] at hpre
    rw [lexical_of_isPlain fun s hs => (mem_of_mem_lexical (hpre.subset hs)).2]
    exact hpre.length_le.trans (h.shallow _ List.prefix_rfl)

/-- A path is normalised, and once is enough; and the two questions that are asked when it is
    opened are answered as for its normal form. -/
structure SpellingIndependent (isVpn : Bytes → Bool) (path : Bytes) : Prop where
  normalized : normalizeAbsolute path = .done (some (normalForm slash dot path))
  idempotent : normalizeAbsolute (normalForm slash dot path) =
    .done (some (normalForm slash dot path))
  hidden : ∀ base allowEmpty,
    classifyCPathAt isVpn base path allowEmpty = classifyCPathAt isVpn base
      (normalForm slash dot path) allowEmpty
  intercepted : matchAbsProcNet path = matchAbsProcNet (normalForm slash dot path)

theorem resolvePathAt_of_absolute {path : Bytes} (h : path.head? = some slash) (base : Option Bytes)
    (allowEmpty : Bool) :
    resolvePathAt base path allowEmpty = normalizeAbsolute path := by
  unfold resolvePathAt
  exact if_pos h

/-- An absolute path that fits is classified by its normal form. -/
theorem classifyCPathAt_eq {path : Bytes} (h : Fits path) (isVpn : Bytes → Bool)
    (base : Option Bytes) (allowEmpty : Bool) :
    classifyCPathAt isVpn base path allowEmpty =
      .done (classifyPath isVpn (normalForm slash dot path)) := by
  rw [classifyCPathAt, readCallerPath, if_pos h.short]
  dsimp only
  rw [resolvePathAt_of_absolute h.absolute, normalizeAbsolute_eq h]

/-- An absolute path that is not an intercepted one, or is its own normal form, cannot dodge the
    hook by how it is spelled; the others do. -/
theorem spellingIndependent_iff (isVpn : Bytes → Bool) (path : {path : Bytes // Fits path}) :
    SpellingIndependent isVpn path ↔
      normalForm slash dot path = path.1 ∨
        ¬∃ kind, ProcNetPath (lexical dot (components slash path)) kind := by
  have hself := normalForm_normalForm slash dot path.1
  have hmatch : matchAbsProcNet path = matchAbsProcNet (normalForm slash dot path) ↔
      normalForm slash dot path = path.1 ∨
        ¬∃ kind, ProcNetPath (lexical dot (components slash path)) kind := by
    constructor
    · -- What is matched is spelled in its normal form,
      intro heq
      by_contra hne
      rw [not_or, not_not] at hne
      obtain ⟨hne, kind, hkind⟩ := hne
      rw [← matchAbsProcNet_normalForm, ← heq] at hkind
      exact hne (normalForm_eq_of_match hkind)
    · -- and a path whose normal form is no file of this kind is matched in no spelling.
      rintro (hnormal | hno)
      · rw [hnormal]
      · have hnone : matchAbsProcNet (normalForm slash dot path) = none :=
          Option.eq_none_iff_forall_ne_some.2 fun kind hkind =>
            hno ⟨kind, matchAbsProcNet_normalForm.1 hkind⟩
        rw [hnone, Option.eq_none_iff_forall_ne_some]
        intro kind hkind
        rw [normalForm_eq_of_match hkind] at hnone
        rw [hnone] at hkind
        cases hkind
  rw [← hmatch]
  -- All else is normalised before it is looked at.
  refine ⟨SpellingIndependent.intercepted, fun h =>
    ⟨normalizeAbsolute_eq path.2, ?_, fun base allowEmpty => ?_, h⟩⟩
  · rw [normalizeAbsolute_eq path.2.normalForm, hself]
  · rw [classifyCPathAt_eq path.2, classifyCPathAt_eq path.2.normalForm, hself]

/-- `/proc//net/tcp`. -/
def procNetTcp : {path : Bytes // Fits path} where
  val := ascii "/proc//net/tcp"
  property := by
    refine ⟨rfl, by decide, fun pre hpre =>
      (length_lexical_le dot pre).trans (hpre.length_le.trans ?_)⟩
    decide +kernel

/-- The second slash hides the table from the hook. -/
theorem not_spellingIndependent_procNetTcp : ¬SpellingIndependent isVpnIfaceBytes procNetTcp := by
  intro h
  have hraw : matchAbsProcNet procNetTcp.1 = none := by decide +kernel
  have hnormal : matchAbsProcNet (normalForm slash dot procNetTcp.1) = some .tcp := by
    decide +kernel
  have heq := h.intercepted
  rw [hraw, hnormal] at heq
  cases heq

/-- What is opened does not depend on the spelling either, if the answers do not. -/
theorem SpellingIndependent.hookedOpenat_eq {isVpn : Bytes → Bool} {path : Bytes}
    (h : SpellingIndependent isVpn path) (hfits : Fits path) (active : Active) (dir : Directory) :
    hookedOpenat isVpn active dir path = hookedOpenat isVpn active dir
      (normalForm slash dot path) := by
  have hopen :
      openProcNet active dir path = openProcNet active dir (normalForm slash dot path) := by
    unfold openProcNet
    rw [readCallerPath, readCallerPath, if_pos hfits.short, if_pos hfits.normalForm.short]
    dsimp only
    rw [if_pos hfits.absolute, if_pos hfits.normalForm.absolute, h.intercepted]
  unfold hookedOpenat
  rw [hopen, h.hidden]

end VpnHide.Zygisk

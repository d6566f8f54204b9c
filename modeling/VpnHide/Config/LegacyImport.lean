import VpnHide.Config.Edit

/-!
# The import of the 0.x lists

Before there was a canonical config, each component kept a list of its own. The crate
`migration-policy` reads these lists (`parse`) into the roles of a candidate, and puts
the roles into a config (`apply`), beside what is there or in its place. When the roles
are covered by what has been stored (`coveredBy`), the lists may be deleted.

What `apply` makes of a package depends on that package alone (`getElem?_apply`), and the
lines of a source only add to what is known (`Reading.step_comm`,
`Reading.known_step_idem`), so that their order does not matter.
-/

namespace VpnHide.Config.Legacy

open Lib

/-! ## Sources -/

/-- The files of the old modules. -/
inductive SourceRole
  | kmod
  | kpm
  | zygisk
  | java
  | ports
  | hidden
  | observerUids
  deriving DecidableEq

/-- All roles, in their order. -/
def SourceRole.all : List SourceRole :=
  [.kmod, .kpm, .zygisk, .java, .ports, .hidden, .observerUids]

/-- The roles of a package in the lists. -/
structure LegacyRoles where
  java : Bool
  native : Bool
  appHiding : Bool
  ports : Bool
  hidden : Bool
  deriving DecidableEq

/-- No role at all. -/
def LegacyRoles.default : LegacyRoles := ⟨false, false, false, false, false⟩

/-- What the old files say, and what is left to interpret. -/
structure LegacyCandidate where
  roles : StrMap LegacyRoles
  unresolvedObserverUids : List UInt32
  invalidLines : UInt32
  complete : Bool
  deriving DecidableEq

namespace LegacyCandidate

variable (c : LegacyCandidate)

/-- All sources are there, and each line is understood. -/
def fullyInterpreted : Bool :=
  c.complete && c.invalidLines == 0 && c.unresolvedObserverUids.isEmpty

/-- Whether an app has the roles of the lists. -/
def covers (role : LegacyRoles) (a : AppConfig) : Bool :=
  (!role.java || a.java) && (!role.native || a.native.enabled) &&
    (!role.appHiding || a.appHiding) && (!role.ports || a.ports) && (!role.hidden || a.hidden)

/-- Whether a config has all roles of the lists, of which nothing is left to interpret. -/
def coveredBy (config : CanonicalConfig) : Bool :=
  c.fullyInterpreted && c.roles.toList.all fun (pkg, role) =>
    (config.apps[pkg]?).any fun a => covers role a

end LegacyCandidate

/-- What becomes of the choices that are there: they stay, or are replaced. -/
inductive ImportMode
  | merge
  | replace
  deriving DecidableEq

/-- `valid_package`: it has a letter first, and parts with a dot between. -/
def validPackage (pkg : Str) : Bool :=
  pkg.head?.any Char.isAlpha && pkg.contains '.' &&
    (pkg.splitOn '.').all fun part => !part.isEmpty && part.all fun b => b.isAlphanum || b == '_'

/-- The lines of a source that are neither blank nor comments. -/
def legacyLines (raw : Str) : List Str :=
  ((Str.lines raw).map Str.trim).filter fun line => !line.isEmpty && line.head? != some '#'

/-- The uids of a user begin at the multiples of this. -/
def userRange : UInt32 := 100000

/-- What has been read of the sources. -/
structure Reading where
  roles : StrMap LegacyRoles
  observerUids : Std.ExtTreeSet UInt32
  invalidLines : UInt32

namespace Reading

variable (s : Reading)

/-- `saturating_add(1)`. -/
def invalid : Reading :=
  { s with invalidLines := if s.invalidLines = 0xffffffff then s.invalidLines
    else s.invalidLines + 1 }

/-- A role, for a package that may be new. -/
def add (pkg : Str) (role : LegacyRoles → LegacyRoles) : Reading :=
  { s with roles := s.roles.insert pkg (role ((s.roles[pkg]?).getD .default)) }

/-- The role that a list gives to its packages. -/
def grant : SourceRole → LegacyRoles → LegacyRoles
  | .kmod, roles | .kpm, roles | .zygisk, roles => { roles with native := true }
  | .java, roles => { roles with java := true }
  | .ports, roles => { roles with ports := true }
  | .hidden, roles => { roles with hidden := true }
  | .observerUids, roles => roles

/-- One line of a source. -/
def readLine (role : SourceRole) (line : Str) : Reading :=
  if role = .observerUids then
    match Str.fromStrRadix 10 0xffffffff line with
    | some uid =>
      if uid ≠ 0xffffffff then { s with observerUids := s.observerUids.insert uid.toUInt32 }
      else s.invalid
    | none => s.invalid
  else if !validPackage line then s.invalid
  else s.add line (grant role)

end Reading

/-- The packages with a uid, or else those with it in another profile. -/
def matchingPackages (packages : StrMap (List UInt32)) (uid : UInt32) : List Str :=
  let exact := (packages.toList.filter fun (_, uids) => uids.contains uid).map Prod.fst
  if exact.isEmpty then
    (packages.toList.filter fun (_, uids) =>
      uids.any fun known => known % userRange == uid % userRange).map Prod.fst
  else exact

/-- The packages that belong to a uid hide apps. -/
def resolveUid (packages : StrMap (List UInt32)) (s : StrMap LegacyRoles × List UInt32)
    (uid : UInt32) :
    StrMap LegacyRoles × List UInt32 :=
  let matched := matchingPackages packages uid
  (matched.foldl (fun roles pkg =>
      roles.insert pkg { (roles[pkg]?).getD .default with appHiding := true }) s.1,
    if matched.isEmpty then s.2 ++ [uid] else s.2)

/-- Reading the sources that are there. -/
def readSources (sources : SourceRole → Option Str) : Reading :=
  SourceRole.all.foldl (fun s role =>
    ((sources role).elim [] legacyLines).foldl (fun s line => s.readLine role line) s) ⟨∅, ∅, 0⟩

/-- `parse`: the roles that all the sources give, with what could not be interpreted. -/
def parse (sources : SourceRole → Option Str) (packages : StrMap (List UInt32))
    (inventoryComplete : Bool) : LegacyCandidate :=
  let s := readSources sources
  let complete := SourceRole.all.all fun role => (sources role).isSome
  let (roles, unresolved) := s.observerUids.toList.foldl (resolveUid packages) (s.roles, [])
  { roles
    unresolvedObserverUids := unresolved
    invalidLines := s.invalidLines
    complete := if !s.observerUids.isEmpty && !inventoryComplete then false else complete }

/-! ## The import -/

/-- An app with the hidden mark, and nothing else. -/
def hiddenOnly : AppConfig := { AppConfig.default with hidden := true }

/-- What VPN Hide itself is given. -/
def selfTarget (app : AppConfig) : AppConfig :=
  { app with
    java := true
    javaHooks := none
    native := ⟨true, none, none⟩
    hidden := true
    ports := false
    portPolicy := none }

/-- VPN Hide itself is among the apps. -/
def withSelfTarget (config : CanonicalConfig) (selfPackage : Str) : CanonicalConfig :=
  { config with apps := config.apps.insert selfPackage (selfTarget (appOf config.apps selfPackage))
    }

/-- The roles of the lists, added to those of an app. -/
def addRoles (a : AppConfig) (roles : LegacyRoles) : AppConfig :=
  { java := a.java || roles.java
    javaHooks := if !a.java then none else a.javaHooks
    native := if !a.native.enabled && roles.native then ⟨true, none, none⟩ else a.native
    appHiding := a.appHiding || roles.appHiding
    ports := a.ports || roles.ports
    portPolicy := if !a.ports then none else a.portPolicy
    hidden := a.hidden || roles.hidden }

/-- The apps from which an import starts. -/
def importBase (base : CanonicalConfig) : ImportMode → StrMap AppConfig
  | .merge => base.apps
  | .replace =>
    (base.apps.filter fun pkg a => a.hidden && base.settings.autoHiddenPackages.contains pkg).map
      fun _ _ => hiddenOnly

/-- `apply`: the config with the roles that were interpreted. -/
def apply (base : CanonicalConfig) (candidate : LegacyCandidate) (mode : ImportMode)
    (selfPackage : Str) : CanonicalConfig :=
  let apps := candidate.roles.toList.foldl (fun apps (pkg, roles) =>
    apps.insert pkg (addRoles (appOf apps pkg) roles)) (importBase base mode)
  withSelfTarget { base with apps } selfPackage

/-! ## What becomes of a package -/

section Fold

variable {V W : Type} (f : Option W → V → W)

/-- Entries with distinct keys, each written once. -/
theorem getElem?_foldl_insert {l : List (Str × V)} (hl : (l.map Prod.fst).Nodup)
    (m : StrMap W) (pkg : Str) :
    (l.foldl (fun m e => m.insert e.1 (f m[e.1]? e.2)) m)[pkg]? =
      (l.lookup pkg).elim m[pkg]? fun v => some (f m[pkg]? v) := by
  induction l generalizing m with
  | nil => rfl
  | cons e l ih =>
    rw [List.map_cons, List.nodup_cons] at hl
    rw [List.foldl_cons, ih hl.2, List.lookup_cons]
    by_cases heq : pkg = e.1
    · subst heq
      have hnone : l.lookup e.1 = none :=
        List.lookup_eq_none_iff.2 fun e' he' => by
          rw [bne_iff_ne]
          exact fun h => hl.1 (h ▸ List.mem_map_of_mem he')
      rw [hnone, beq_self_eq_true]
      exact Std.ExtTreeMap.getElem?_insert_self
    · have hne : (pkg == e.1) = false := by simpa using heq
      rw [hne, getElem?_insert_of_ne (Ne.symm heq)]

end Fold

theorem nodup_keys {V : Type} (m : StrMap V) : (m.toList.map Prod.fst).Nodup := by
  rw [List.nodup_iff_pairwise_ne, List.pairwise_map]
  exact Std.ExtTreeMap.distinct_keys_toList.imp fun hne heq =>
    hne (Std.LawfulEqCmp.compare_eq_iff_eq.2 heq)

theorem lookup_toList {V : Type} (m : StrMap V) (pkg : Str) : m.toList.lookup pkg = m[pkg]? := by
  have hkeys := nodup_keys m
  cases hget : m[pkg]? with
  | none =>
    refine List.lookup_eq_none_iff.2 fun e he => ?_
    rw [bne_iff_ne]
    rintro rfl
    rw [Std.ExtTreeMap.mem_toList_iff_getElem?_eq_some.1 he] at hget
    cases hget
  | some v =>
    have hmem := Std.ExtTreeMap.mem_toList_iff_getElem?_eq_some.2 hget
    generalize m.toList = l at hkeys hmem
    induction l with
    | nil => cases hmem
    | cons e l ih =>
      rw [List.map_cons, List.nodup_cons] at hkeys
      rw [List.lookup_cons]
      rcases List.mem_cons.1 hmem with rfl | hmem
      · rw [beq_self_eq_true]
      · have hne : (pkg == e.1) = false := by
          rw [beq_eq_false_iff_ne]
          rintro rfl
          exact hkeys.1 (List.mem_map.2 ⟨_, hmem, rfl⟩)
        rw [hne]
        exact ih hkeys.2 hmem

/-! ## One app -/

/-- An app before the import, which may be hidden automatically. -/
def startFrom (mode : ImportMode) (auto : Bool) (app : Option AppConfig) : Option AppConfig :=
  match mode with
  | .merge => app
  | .replace => app.bind fun a => if a.hidden && auto then some hiddenOnly else none

/-- An app after the import, with its roles in the lists if it is there. -/
def importOne (mode : ImportMode) (auto : Bool) (isSelf : Bool) (roles : Option LegacyRoles)
    (app : Option AppConfig) : Option AppConfig :=
  let app := startFrom mode auto app
  let app := roles.elim app fun roles => some (addRoles (app.getD .default) roles)
  if isSelf then some (selfTarget (app.getD .default)) else app

variable {mode : ImportMode} {auto isSelf : Bool} {a : AppConfig} {app : Option AppConfig}

/-- Adding roles twice is adding them once. -/
theorem addRoles_addRoles (a : AppConfig) (roles : LegacyRoles) :
    addRoles (addRoles a roles) roles = addRoles a roles := by
  obtain ⟨java, hooks, ⟨enabled, kernel, zygisk⟩, appHiding, ports, policy, hidden⟩ := a
  obtain ⟨java', native', appHiding', ports', hidden'⟩ := roles
  cases java <;> cases java' <;> cases enabled <;> cases native' <;> cases ports <;>
    cases ports' <;> simp [addRoles]

/-- All but one role of the app itself are forced. -/
theorem selfTarget_eq {a b : AppConfig} (h : a.appHiding = b.appHiding) :
    selfTarget a = selfTarget b := by
  rw [selfTarget, h, selfTarget]

/-- Adding roles keeps an app clean. -/
theorem clean_addRoles (h : a.Clean) (roles : LegacyRoles) : (addRoles a roles).Clean where
  java hj := by
    have hj : (a.java || roles.java) = false := hj
    rw [Bool.or_eq_false_iff] at hj
    simp [addRoles, hj.1]
  native hn := by
    rw [addRoles] at hn ⊢
    dsimp only at hn ⊢
    split_ifs with hif
    · simp [hif] at hn
    · rw [if_neg hif] at hn
      exact h.native hn
  ports hp := by
    have hp : (a.ports || roles.ports) = false := hp
    rw [Bool.or_eq_false_iff] at hp
    simp [addRoles, hp.1]

/-- What VPN Hide itself is given is clean. -/
theorem clean_selfTarget (a : AppConfig) : (selfTarget a).Clean where
  java h := by cases h
  native h := by cases h
  ports _ := rfl

/-- The roles that were added are there. -/
theorem covers_addRoles (a : AppConfig) (roles : LegacyRoles) :
    LegacyCandidate.covers roles (addRoles a roles) = true := by
  obtain ⟨java, hooks, ⟨enabled, kernel, zygisk⟩, appHiding, ports, policy, hidden⟩ := a
  obtain ⟨java', native', appHiding', ports', hidden'⟩ := roles
  cases enabled <;> cases native' <;> cases java' <;> cases appHiding' <;> cases ports' <;>
    cases hidden' <;> simp [addRoles, LegacyCandidate.covers]

/-- Of its own roles, the app drops that of the ports. -/
theorem covers_selfTarget (a : AppConfig) (roles : LegacyRoles) :
    LegacyCandidate.covers roles (selfTarget (addRoles a roles)) = !roles.ports := by
  obtain ⟨java', native', appHiding', ports', hidden'⟩ := roles
  cases appHiding' <;> cases ports' <;> simp [addRoles, selfTarget, LegacyCandidate.covers]

/-- What a replacement starts from. -/
theorem startFrom_cases (auto : Bool) (app : Option AppConfig) :
    startFrom .replace auto app = none ∨ startFrom .replace auto app = some hiddenOnly ∧
      auto = true := by
  rw [startFrom]
  cases app with
  | none => exact .inl rfl
  | some a =>
    rw [Option.bind_some]
    split_ifs with h
    · exact .inr ⟨rfl, (Bool.and_eq_true_iff.1 h).2⟩
    · exact .inl rfl

/-- A replacement starts without the observer role. -/
theorem appHiding_startFrom (auto : Bool) (app : Option AppConfig) :
    ((startFrom .replace auto app).getD .default).appHiding = false := by
  rcases startFrom_cases auto app with h | ⟨h, -⟩ <;> rw [h] <;> rfl

/-- An app that is imported again. -/
theorem importOne_importOne (mode : ImportMode) (auto isSelf : Bool) (roles : Option LegacyRoles)
    (app : Option AppConfig) :
    importOne mode auto isSelf roles (importOne mode auto isSelf roles app) =
      importOne mode auto isSelf roles app := by
  cases mode with
  | merge =>
    cases isSelf with
    | false =>
      cases roles with
      | none => rfl
      | some roles => exact congrArg some (addRoles_addRoles _ roles)
    | true =>
      cases roles with
      | none => rfl
      | some roles =>
        refine congrArg some (selfTarget_eq ?_)
        change ((((app.getD .default).appHiding || roles.appHiding) || roles.appHiding) : Bool) = _
        rw [Bool.or_assoc, Bool.or_self]
        rfl
  | replace =>
    cases isSelf with
    | false =>
      cases roles with
      | none =>
        change startFrom .replace auto (startFrom .replace auto app) = startFrom .replace auto app
        rcases startFrom_cases auto app with h | ⟨h, rfl⟩ <;> rw [h] <;> rfl
      | some roles =>
        change some (addRoles ((startFrom .replace auto (some (addRoles
          ((startFrom .replace auto app).getD .default) roles))).getD .default) roles) =
            some (addRoles ((startFrom .replace auto app).getD .default) roles)
        -- What is retained only now has the hidden mark from the lists, and gets it again.
        rcases startFrom_cases auto app with h | ⟨h, rfl⟩
        · rw [h]
          cases hhidden : roles.hidden <;> cases auto <;>
            simp [startFrom, addRoles, hhidden, AppConfig.default, hiddenOnly]
        · rw [h]
          rfl
    | true =>
      have hstart := (appHiding_startFrom auto (importOne .replace auto true roles app)).trans
        (appHiding_startFrom auto app).symm
      refine congrArg some (selfTarget_eq ?_)
      cases roles with
      | none => exact hstart
      | some roles => exact congrArg (· || roles.appHiding) hstart

/-- Importing an app keeps it clean. -/
theorem clean_importOne (h : ∀ a, app = some a → a.Clean) (roles : Option LegacyRoles)
    (h' : importOne mode auto isSelf roles app = some a) : a.Clean := by
  have hstart : ∀ a, startFrom mode auto app = some a → a.Clean := by
    cases mode with
    | merge => exact h
    | replace =>
      intro a ha
      rcases startFrom_cases auto app with hs | ⟨hs, -⟩
      · rw [hs] at ha
        cases ha
      · rw [hs] at ha
        cases ha
        exact ⟨fun _ => rfl, fun _ => ⟨rfl, rfl⟩, fun _ => rfl⟩
  have hget : ((startFrom mode auto app).getD .default).Clean := by
    cases hs : startFrom mode auto app with
    | none => exact AppConfig.clean_default
    | some a => exact hstart a hs
  rw [importOne] at h'
  split_ifs at h'
  · cases h'
    exact clean_selfTarget _
  · cases roles with
    | none => exact hstart a h'
    | some roles =>
      cases h'
      exact clean_addRoles hget roles

/-! ## All of them -/

variable (base : CanonicalConfig) (c : LegacyCandidate) (mode : ImportMode) (self : Str)

/-- What an import starts from. -/
theorem getElem?_importBase (pkg : Str) : (importBase base mode)[pkg]? =
    startFrom mode (base.settings.autoHiddenPackages.contains pkg) base.apps[pkg]? := by
  cases mode with
  | merge => rfl
  | replace =>
    rw [importBase, Std.ExtTreeMap.getElem?_map, Std.ExtTreeMap.getElem?_filter', startFrom]
    cases base.apps[pkg]? with
    | none => rfl
    | some a =>
      rw [Option.filter_some, Option.bind_some]
      split_ifs <;> rfl

/-- What becomes of a package depends on what is known of it, and on nothing else. -/
theorem getElem?_apply (pkg : Str) : (apply base c mode self).apps[pkg]? =
    importOne mode (base.settings.autoHiddenPackages.contains pkg) (pkg = self) c.roles[pkg]?
      base.apps[pkg]? := by
  have hfold :
      ∀ pkg : Str,
        (c.roles.toList.foldl (fun apps e => apps.insert e.1 (addRoles (appOf apps e.1) e.2))
          (importBase base mode))[pkg]? =
        (c.roles[pkg]?).elim (importBase base mode)[pkg]? fun roles =>
          some (addRoles (((importBase base mode)[pkg]?).getD .default) roles) := by
    intro pkg
    rw [← lookup_toList c.roles]
    exact getElem?_foldl_insert (fun a roles => addRoles (a.getD .default) roles)
      (nodup_keys _) _ pkg
  rw [apply, withSelfTarget, importOne, ← getElem?_importBase]
  dsimp only
  rw [Std.ExtTreeMap.getElem?_insert, appOf, hfold, hfold]
  by_cases heq : pkg = self
  · subst heq
    simp
  · rw [if_neg (by simpa using fun h => heq h.symm), if_neg (by simpa using heq)]

/-- The roles are covered, but for the ports of the app itself. -/
theorem coveredBy_apply (h : c.fullyInterpreted = true) :
    c.coveredBy (apply base c mode self) = true ↔
      ∀ roles, c.roles[self]? = some roles → roles.ports = false := by
  have hone : ∀ (pkg : Str) (roles : LegacyRoles), c.roles[pkg]? = some roles →
      ((apply base c mode self).apps[pkg]?).any (LegacyCandidate.covers roles) =
        if pkg = self then !roles.ports else true := by
    intro pkg roles hroles
    rw [getElem?_apply, hroles, importOne]
    by_cases heq : pkg = self
    · rw [if_pos (by simpa using heq), if_pos heq]
      exact covers_selfTarget _ _
    · rw [if_neg (by simpa using heq), if_neg heq]
      exact covers_addRoles _ _
  rw [LegacyCandidate.coveredBy, h, Bool.true_and, List.all_eq_true]
  constructor
  · intro hall roles hroles
    have hself : ((apply base c mode self).apps[self]?).any (LegacyCandidate.covers roles) = true :=
      hall (self, roles) (Std.ExtTreeMap.mem_toList_iff_getElem?_eq_some.2 hroles)
    rw [hone self roles hroles] at hself
    simpa using hself
  · rintro hports ⟨pkg, roles⟩ hmem
    have hroles := Std.ExtTreeMap.mem_toList_iff_getElem?_eq_some.1 hmem
    change ((apply base c mode self).apps[pkg]?).any (LegacyCandidate.covers roles) = true
    rw [hone pkg roles hroles]
    split_ifs with heq
    · subst heq
      simpa using hports roles hroles
    · rfl

/-- Importing the same lists again changes nothing. -/
theorem apply_apply : apply (apply base c mode self) c mode self = apply base c mode self := by
  have happs :
      (apply (apply base c mode self) c mode self).apps = (apply base c mode self).apps := by
    refine Std.ExtTreeMap.ext_getElem? fun pkg => ?_
    rw [getElem?_apply (apply base c mode self), getElem?_apply base]
    exact importOne_importOne ..
  have heq : apply (apply base c mode self) c mode self =
      { apply base c mode self with apps := (apply (apply base c mode self) c mode self).apps } :=
    rfl
  rw [heq, happs]

/-! ## The order of the lines -/

section Fold

variable {α σ : Type*} {f : σ → α → σ}

/-- An item that is absorbed once is absorbed. -/
theorem foldl_absorb (comm : ∀ s a b, f (f s a) b = f (f s b) a) (idem : ∀ s a, f (f s a) a = f s a)
    {l : List α} {a : α} (ha : a ∈ l) (s : σ) : l.foldl f (f s a) = l.foldl f s := by
  induction l generalizing s with
  | nil => cases ha
  | cons b l ih =>
    rw [List.foldl_cons, List.foldl_cons]
    rcases List.mem_cons.1 ha with rfl | ha
    · rw [idem]
    · rw [comm, ih ha]

/-- If steps commute and a step made twice is made once, it matters only which are made. -/
theorem foldl_eq_of_mem_iff (comm : ∀ s a b, f (f s a) b = f (f s b) a)
    (idem : ∀ s a, f (f s a) a = f s a) {l l' : List α} (h : ∀ a, a ∈ l ↔ a ∈ l') (s : σ) :
    l.foldl f s = l'.foldl f s := by
  have habsorb : ∀ (m l : List α) (s : σ), (∀ a ∈ m, a ∈ l) → (m ++ l).foldl f s = l.foldl f s := by
    intro m l s hm
    induction m generalizing s with
    | nil => rfl
    | cons a m ih =>
      rw [List.cons_append, List.foldl_cons, ih _ fun b hb => hm b (List.mem_cons_of_mem _ hb),
        foldl_absorb comm idem (hm a List.mem_cons_self)]
  calc l.foldl f s = (l' ++ l).foldl f s := (habsorb l' l s fun a ha => (h a).2 ha).symm
    _ = (l ++ l').foldl f s :=
      List.perm_append_comm.foldl_eq' (fun a _ b _ s => comm s a b) s
    _ = l'.foldl f s := habsorb l l' s fun a ha => (h a).1 ha

end Fold

/-- What a line is. -/
inductive Line
  | uid (uid : UInt32)
  | package (pkg : Str)
  | invalid

/-- What a line of a source is. -/
def classify (role : SourceRole) (line : Str) : Line :=
  if role = .observerUids then
    match Str.fromStrRadix 10 0xffffffff line with
    | some uid => if uid ≠ 0xffffffff then .uid uid.toUInt32 else .invalid
    | none => .invalid
  else if !validPackage line then .invalid
  else .package line

namespace Reading

/-- What a line adds to what was read. -/
def step (role : SourceRole) (s : Reading) : Line → Reading
  | .uid uid => { s with observerUids := s.observerUids.insert uid }
  | .package pkg => s.add pkg (grant role)
  | .invalid => s.invalid

/-- A line is read by its kind. -/
theorem readLine_eq (s : Reading) (role : SourceRole) (line : Str) :
    s.readLine role line = s.step role (classify role line) := by
  rw [readLine, classify]
  split_ifs
  · cases Str.fromStrRadix 10 0xffffffff line with
    | none => rfl
    | some uid =>
      dsimp only
      split_ifs <;> rfl
  · rfl
  · rfl

/-- Two packages of a source can be read in any order. -/
theorem add_comm (s : Reading) (pkg pkg' : Str) (role : SourceRole) :
    (s.add pkg (grant role)).add pkg' (grant role) =
      (s.add pkg' (grant role)).add pkg (grant role) := by
  by_cases heq : pkg = pkg'
  · rw [heq]
  · have hne : pkg' ≠ pkg := fun h => heq h.symm
    rw [add, add, add, add]
    congr 1
    refine Std.ExtTreeMap.ext_getElem? fun k => ?_
    simp only [Std.ExtTreeMap.getElem?_insert, Std.LawfulEqCmp.compare_eq_iff_eq]
    by_cases hk : pkg = k
    · subst hk
      simp [hne]
    · by_cases hk' : pkg' = k
      · subst hk'
        simp [heq]
      · simp [hk, hk']

/-- A package that is read twice is read once. -/
theorem add_idem (s : Reading) (pkg : Str) (role : SourceRole) :
    (s.add pkg (grant role)).add pkg (grant role) = s.add pkg (grant role) := by
  have hgrant : ∀ roles, grant role (grant role roles) = grant role roles := by
    intro roles
    cases role <;> rfl
  rw [add, add]
  congr 1
  refine Std.ExtTreeMap.ext_getElem? fun k => ?_
  simp only [Std.ExtTreeMap.getElem?_insert, Std.LawfulEqCmp.compare_eq_iff_eq]
  split_ifs <;> simp [hgrant]

/-- Two lines of a source can be read in any order. -/
theorem step_comm (role : SourceRole) (s : Reading) (x y : Line) :
    (s.step role x).step role y = (s.step role y).step role x := by
  cases x with
  | uid u =>
    cases y with
    | uid v =>
      rw [step, step, step, step]
      congr 1
      refine Std.ExtTreeSet.ext_mem fun k => ?_
      simp only [Std.ExtTreeSet.mem_insert]
      tauto
    | package pkg => rfl
    | invalid => rfl
  | package pkg =>
    cases y with
    | uid v => rfl
    | package pkg' => exact add_comm s pkg pkg' role
    | invalid => rfl
  | invalid => cases y <;> rfl

/-- What is known, but for how many lines are invalid. -/
def known (s : Reading) : Reading := { s with invalidLines := if s.invalidLines = 0 then 0 else 1 }

/-- A line that is not understood is counted. -/
theorem invalid_ne_zero (s : Reading) : s.invalid.invalidLines ≠ 0 := by
  rw [invalid]
  dsimp only
  split_ifs with h
  · rw [h]
    decide
  · intro hz
    have hlt := s.invalidLines.toNat_lt
    have hmax : s.invalidLines.toNat ≠ 0xffffffff := fun heq => h (UInt32.toNat_inj.1 heq)
    have hnat := congrArg UInt32.toNat hz
    simp at hnat
    omega

/-- With lines that are not understood, only that there are some is known. -/
theorem known_of_ne_zero {s : Reading} (h : s.invalidLines ≠ 0) :
    s.known = ⟨s.roles, s.observerUids, 1⟩ := by
  rw [known, if_neg h]

/-- A step does not look at how many lines are invalid. -/
theorem known_step (role : SourceRole) (s : Reading) (x : Line) :
    (s.known.step role x).known = (s.step role x).known := by
  cases x with
  | uid u => by_cases h : s.invalidLines = 0 <;> simp [known, step, h]
  | package pkg => by_cases h : s.invalidLines = 0 <;> simp [known, step, add, h]
  | invalid =>
    change s.known.invalid.known = s.invalid.known
    rw [known_of_ne_zero s.known.invalid_ne_zero, known_of_ne_zero s.invalid_ne_zero]
    rfl

/-- A line that is read twice tells no more. -/
theorem known_step_idem (role : SourceRole) (s : Reading) (x : Line) :
    ((s.step role x).step role x).known = (s.step role x).known := by
  cases x with
  | uid u =>
    refine congrArg known ?_
    rw [step, step]
    congr 1
    refine Std.ExtTreeSet.ext_mem fun k => ?_
    simp only [Std.ExtTreeSet.mem_insert]
    tauto
  | package pkg => exact congrArg known (add_idem s pkg role)
  | invalid =>
    change s.invalid.invalid.known = s.invalid.known
    rw [known_of_ne_zero s.invalid.invalid_ne_zero, known_of_ne_zero s.invalid_ne_zero]
    rfl

/-- What is known after several lines. -/
theorem known_foldl (role : SourceRole) (xs : List Line) (s : Reading) :
    (xs.foldl (step role) s).known = xs.foldl (fun s x => (s.step role x).known) s.known := by
  induction xs generalizing s with
  | nil => rfl
  | cons x xs ih => rw [List.foldl_cons, List.foldl_cons, ih, known_step]

/-- Lines that are repeated or in another order tell the same. -/
theorem known_foldl_eq (role : SourceRole) {xs ys : List Line} (h : ∀ x, x ∈ xs ↔ x ∈ ys)
    {s t : Reading} (hst : s.known = t.known) :
    (xs.foldl (step role) s).known = (ys.foldl (step role) t).known := by
  rw [known_foldl, known_foldl, hst]
  refine foldl_eq_of_mem_iff (fun s x y => ?_) (fun s x => ?_) h _
  · rw [known_step, known_step, step_comm]
  · rw [known_step, known_step_idem]

end Reading

/-- The sources are read one after the other, line by line. -/
theorem readSources_eq (sources : SourceRole → Option Str) :
    readSources sources = SourceRole.all.foldl (fun s role =>
      (((sources role).elim [] legacyLines).map (classify role)).foldl (Reading.step role) s)
      ⟨∅, ∅, 0⟩ := by
  rw [readSources]
  congr 1
  funext s role
  rw [List.foldl_map]
  congr 1
  funext s line
  exact Reading.readLine_eq s role line

/-- The same sources, with their lines in another order. -/
def Reordered (sources sources' : SourceRole → Option Str) : Prop :=
  ∀ role, Option.Rel (fun raw raw' => (Str.lines raw).Perm (Str.lines raw'))
    (sources role) (sources' role)

/-- The same sources, with their lines in another order and as often as may be. -/
def Repeated (sources sources' : SourceRole → Option Str) : Prop :=
  ∀ role, Option.Rel (fun raw raw' => ∀ l, l ∈ Str.lines raw ↔ l ∈ Str.lines raw') (sources role)
    (sources' role)

variable {sources sources' : SourceRole → Option Str}

theorem isSome_eq_of_rel {α : Type*} {r : α → α → Prop} {o o' : Option α} (h : Option.Rel r o o') :
    o.isSome = o'.isSome := by
  cases h <;> rfl

/-- The order of the lines does not matter. -/
theorem readSources_of_reordered (h : Reordered sources sources') :
    readSources sources = readSources sources' := by
  have hlines : ∀ role, (((sources role).elim [] legacyLines).map (classify role)).Perm
      (((sources' role).elim [] legacyLines).map (classify role)) := by
    intro role
    have hrole := h role
    generalize sources role = raw, sources' role = raw' at hrole
    cases hrole with
    | none => exact List.Perm.refl _
    | some hperm => exact ((hperm.map _).filter _).map _
  rw [readSources_eq, readSources_eq]
  congr 1
  funext s role
  exact (hlines role).foldl_eq' (fun x _ y _ s => Reading.step_comm role s x y) s

/-- That a line is repeated does not matter for what is known. -/
theorem known_readSources_of_repeated (h : Repeated sources sources') :
    (readSources sources).known = (readSources sources').known := by
  have hlines : ∀ role x, x ∈ ((sources role).elim [] legacyLines).map (classify role) ↔
      x ∈ ((sources' role).elim [] legacyLines).map (classify role) := by
    intro role x
    have hrole := h role
    generalize sources role = raw, sources' role = raw' at hrole
    cases hrole with
    | none => exact Iff.rfl
    | some hsame => simp only [Option.elim_some, legacyLines, List.mem_map, List.mem_filter, hsame]
  rw [readSources_eq, readSources_eq]
  have hroles : ∀ (roles : List SourceRole) (s t : Reading), s.known = t.known →
      (roles.foldl (fun s role =>
        (((sources role).elim [] legacyLines).map (classify role)).foldl (Reading.step role) s)
          s).known =
      (roles.foldl (fun s role =>
        (((sources' role).elim [] legacyLines).map (classify role)).foldl (Reading.step role) s)
          t).known := by
    intro roles
    induction roles with
    | nil => exact fun s t hst => hst
    | cons role roles ih =>
      exact fun s t hst => ih _ _ (Reading.known_foldl_eq role (hlines role) hst)
  exact hroles SourceRole.all _ _ rfl

/-- What is made of the sources depends on what is known, and on which of them there are. -/
theorem parse_of_repeated (h : Repeated sources sources') (packages : StrMap (List UInt32))
    (complete : Bool) :
    (parse sources' packages complete).roles = (parse sources packages complete).roles ∧
    (parse sources' packages complete).unresolvedObserverUids =
      (parse sources packages complete).unresolvedObserverUids ∧
    (parse sources' packages complete).complete = (parse sources packages complete).complete ∧
    ((parse sources' packages complete).invalidLines = 0 ↔
      (parse sources packages complete).invalidLines = 0) := by
  have hknown := known_readSources_of_repeated h
  have hroles : (readSources sources).roles = (readSources sources').roles :=
    show (readSources sources).known.roles = (readSources sources').known.roles from
      congrArg Reading.roles hknown
  have huids : (readSources sources).observerUids = (readSources sources').observerUids :=
    show (readSources sources).known.observerUids = (readSources sources').known.observerUids from
      congrArg Reading.observerUids hknown
  have hinvalid :
      (readSources sources).invalidLines = 0 ↔ (readSources sources').invalidLines = 0 := by
    have := congrArg Reading.invalidLines hknown
    rw [Reading.known, Reading.known] at this
    dsimp only at this
    split_ifs at this <;> simp_all
  have hall : (SourceRole.all.all fun role => (sources role).isSome) =
      SourceRole.all.all fun role => (sources' role).isSome := by
    congr 1
    funext role
    exact isSome_eq_of_rel (h role)
  rw [parse, parse, hroles, huids, hall]
  exact ⟨rfl, rfl, rfl, hinvalid.symm⟩

/-- The order of the lines does not matter for the candidate. -/
theorem parse_of_reordered (h : Reordered sources sources') (packages : StrMap (List UInt32))
    (complete : Bool) : parse sources' packages complete = parse sources packages complete := by
  have hall : (SourceRole.all.all fun role => (sources role).isSome) =
      SourceRole.all.all fun role => (sources' role).isSome := by
    congr 1
    funext role
    exact isSome_eq_of_rel (h role)
  rw [parse, parse, readSources_of_reordered h, hall]

/-- Importing the lists: their roles are covered, unless the app itself is to hide its ports;
    doing it again changes nothing; no override outlives its role; beside what is there,
    what is enabled for another app stays; in its place, of the other apps only the hidden marks
    stay that were set automatically. The order of the lines does not matter, and to repeat
    some matters only for the count of those that are invalid. -/
theorem import_legacy (base : CanonicalConfig) (sources : SourceRole → Option Str)
    (packages : StrMap (List UInt32)) (complete : Bool) (self : Str) :
    let c := parse sources packages complete
    (∀ mode, c.fullyInterpreted = true → (c.coveredBy (apply base c mode self) = true ↔
      ∀ roles, c.roles[self]? = some roles → roles.ports = false)) ∧
    (∀ mode, apply (apply base c mode self) c mode self = apply base c mode self) ∧
    (∀ mode, (∀ (pkg : Str) a, base.apps[pkg]? = some a → a.Clean) →
      ∀ (pkg : Str) a, (apply base c mode self).apps[pkg]? = some a → a.Clean) ∧
    (∀ (pkg : Str) a, pkg ≠ self → base.apps[pkg]? = some a →
      ∃ a', (apply base c .merge self).apps[pkg]? = some a' ∧
        (a.java = true → a'.java = true ∧ a'.javaHooks = a.javaHooks) ∧
        (a.native.enabled = true → a'.native = a.native) ∧
        (a.appHiding = true → a'.appHiding = true) ∧
        (a.ports = true → a'.ports = true ∧ a'.portPolicy = a.portPolicy) ∧
        (a.hidden = true → a'.hidden = true)) ∧
    (∀ pkg : Str, pkg ≠ self → c.roles[pkg]? = none →
      (apply base c .replace self).apps[pkg]? =
        if (base.apps[pkg]?).any (·.hidden) && base.settings.autoHiddenPackages.contains pkg then
          some hiddenOnly else none) ∧
    (∀ sources', Reordered sources sources' → parse sources' packages complete = c) ∧
    (∀ sources', Repeated sources sources' →
      (parse sources' packages complete).roles = c.roles ∧
      (parse sources' packages complete).unresolvedObserverUids = c.unresolvedObserverUids ∧
      (parse sources' packages complete).complete = c.complete ∧
      ((parse sources' packages complete).invalidLines = 0 ↔ c.invalidLines = 0)) := by
  intro c
  refine ⟨fun mode h => coveredBy_apply base c mode self h,
    fun mode => apply_apply base c mode self, fun mode h pkg a ha => ?_, fun pkg a hpkg ha => ?_,
    fun pkg hpkg hroles => ?_, fun sources' h => parse_of_reordered h packages complete,
    fun sources' h => parse_of_repeated h packages complete⟩
  · -- Clean entries stay clean, since importing only adds roles.
    rw [getElem?_apply] at ha
    exact clean_importOne (h pkg) _ ha
  · rw [getElem?_apply, importOne, if_neg (by simpa using hpkg), ha]
    -- A package without roles is left alone; with roles, each is added to what is there.
    cases c.roles[pkg]? with
    | none => exact ⟨a, rfl, fun h => ⟨h, rfl⟩, fun _ => rfl, id, fun h => ⟨h, rfl⟩, id⟩
    | some roles =>
      refine ⟨addRoles a roles, rfl, fun h => ?_, fun h => ?_, fun h => ?_,
        fun h => ?_, fun h => ?_⟩ <;>
        simp [addRoles, h]
  · rw [getElem?_apply, importOne, if_neg (by simpa using hpkg), hroles,
      Option.elim_none, startFrom]
    cases base.apps[pkg]? <;> rfl

/-- The package of VPN Hide itself. -/
def appPackage : Str := "dev.okhsunrog.vpnhide".toList

/-- The lists, all of them there and empty but for one. -/
def onlySource (role : SourceRole) (raw : Str) (r : SourceRole) : Option Str :=
  some (if r = role then raw else [])

/-- The app itself in the list of the ports is interpreted, and not covered; and a line that
    is invalid counts as often as it is there. -/
theorem import_legacy_fails :
    ((parse (onlySource .ports appPackage) ∅ true).fullyInterpreted = true ∧
      ∀ mode, (parse (onlySource .ports appPackage) ∅ true).coveredBy (apply CanonicalConfig.default
        (parse (onlySource .ports appPackage) ∅ true) mode appPackage) = false) ∧
    Repeated (onlySource .kmod "x".toList) (onlySource .kmod "x\nx".toList) ∧
      (parse (onlySource .kmod "x".toList) ∅ true).invalidLines = 1 ∧
      (parse (onlySource .kmod "x\nx".toList) ∅ true).invalidLines = 2 := by
  refine ⟨⟨by decide +kernel, fun mode => by cases mode <;> decide +kernel⟩, fun role => ?_,
    by decide +kernel, by decide +kernel⟩
  refine .some fun l => ?_
  have h₁ : Str.lines "x".toList = ["x".toList] := by decide
  have h₂ : Str.lines "x\nx".toList = ["x".toList, "x".toList] := by decide
  split_ifs
  · rw [h₁, h₂]
    simp
  · rfl

end VpnHide.Config.Legacy

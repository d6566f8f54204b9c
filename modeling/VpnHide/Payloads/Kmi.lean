import Mathlib.Data.Char
import Mathlib.Data.Finset.Sort
import Mathlib.Data.List.Lex
import Mathlib.Data.List.Sort
import VpnHide.Artifact.Manifest

/-!
# The interface of a kernel

A kernel module is built for one kernel module interface (KMI), and which of them a kernel has is
only hinted at: by its release, and by the modules that it has loaded
(`core-daemon/src/payloads/kmi.rs`). The modules settle it if enough of them agree; a hint that
contradicts another is a conflict.

The modules are evidence in any order (`moduleHints_perm`), and more of them never clear a
conflict (`moduleHints_cons`).
-/

namespace VpnHide.Payloads

open Lib Native Artifact

/-- A module that may fit the kernel. -/
structure KmiCandidate where
  payloadIndex : ℕ
  kmi : Str
  matchesReleaseHint : Bool
  deriving DecidableEq

/-- What is known of the interface of the kernel. -/
structure KmiResolution where
  series : Option LinuxSeries
  releaseHint : Option Str
  conflictingHints : Bool
  moduleHint : Option Str
  candidates : List KmiCandidate
  deriving DecidableEq

/-- A module that is loaded, by what its file says. -/
structure BoundModule where
  name : Str
  sha256 : Str
  vermagic : Str
  deriving DecidableEq

/-- The modules that are loaded, if all could be looked at. -/
structure Observation where
  modules : List BoundModule
  incomplete : Bool
  deriving DecidableEq

/-- `androidN`. -/
def isAndroid (part : Str) : Bool :=
  (Str.stripPrefix "android".toList part).any fun n => !n.isEmpty && n.all Char.isDigit

/-- What a release says: the series, the KMI, and whether it says several. -/
def releaseHints (release : Str) : Option LinuxSeries × Option Str × Bool :=
  let series := series release
  let hints := ((release.splitOn '-').drop 1).filter isAndroid
  let releaseHint :=
    match series, hints with
    | some s, [hint] =>
      some (hint ++ '-' :: (Nat.toDigits 10 s.major ++ '.' :: Nat.toDigits 10 s.minor))
    | _, _ => none
  (series, releaseHint, 1 < hints.length)

/-- The KMI of a payload, if it is one of the series. -/
def candidateKmi (series : Option LinuxSeries) (p : Payload) : Option Str :=
  match p.implementation with
  | .kmod kmi =>
    match Str.splitOnce '-' kmi with
    | none => none
    | some (_, version) =>
      if series.isSome && Native.series version = series then some kmi else none
  | _ => none

/-- `resolve`: the modules that fit a release. -/
def resolve (m : Manifest) (release : Str) : Except String KmiResolution := do
  m.validate
  let (series, releaseHint, conflictingHints) := releaseHints release
  let candidates := m.payloads.zipIdx.filterMap fun (payload, payloadIndex) =>
    (candidateKmi series payload).map fun kmi =>
      { payloadIndex := payloadIndex, kmi := kmi, matchesReleaseHint := releaseHint =
        some kmi : KmiCandidate }
  .ok {
    series := series
    releaseHint := releaseHint
    conflictingHints := conflictingHints
    moduleHint := none
    candidates := candidates.insertionSort fun a b => a.kmi ≤ b.kmi }

/-- What the modules have said so far. -/
structure Hints where
  hints : Finset Str
  names : Finset Str
  hashes : Finset Str
  conflicting : Bool
  deriving DecidableEq

/-- An iteration of the loop over the modules. -/
def Hints.add (series : Option LinuxSeries) (s : Hints) (m : BoundModule) : Hints :=
  match (Str.splitWhitespace m.vermagic).head? with
  | none => s
  | some release =>
    let (moduleSeries, hint, moduleConflict) := releaseHints release
    if moduleSeries ≠ series || moduleConflict then { s with conflicting := true }
    else
      match hint with
      | none => s
      | some hint =>
        { s with
          hints := insert hint s.hints
          names := insert (m.name.map fun c => if c = '-' then '_' else c) s.names
          hashes := insert m.sha256 s.hashes }

/-- The KMI that the modules agree on, and whether there is a conflict. -/
def moduleHints (release : Str) (complete : Bool) (modules : List BoundModule) :
    Option Str × Bool :=
  let (series, unameHint, conflicting) := releaseHints release
  let s := modules.foldl (Hints.add series) ⟨∅, ∅, ∅, conflicting⟩
  let conflicting :=
    s.conflicting || 1 < s.hints.card || decide (∃ hint ∈ s.hints, unameHint.any (· ≠ hint))
  let hint := if !conflicting && complete && 2 ≤ s.names.card && 2 ≤ s.hashes.card then
    s.hints.sort.head? else none
  (hint, conflicting)

/-- `resolve_with_modules`: also by what the loaded modules say. -/
def resolveWithModules (m : Manifest) (release : Str) (observed : Observation) :
    Except String KmiResolution := do
  let result ← resolve m release
  let (hint, conflicting) := moduleHints release (!observed.incomplete) observed.modules
  let result := { result with conflictingHints := result.conflictingHints || conflicting }
  match hint with
  | none => .ok result
  | some hint =>
    .ok { result with candidates := result.candidates.filter (·.kmi = hint), moduleHint := some hint
      }

/-! ## Evidence -/

section Evidence

variable (series : Option LinuxSeries)

/-- A module says nothing, or a contradiction, or a hint. -/
theorem Hints.add_cases (m : BoundModule) :
    (∀ s : Hints, s.add series m = s) ∨
      (∀ s : Hints, s.add series m = { s with conflicting := true }) ∨
        ∃ hint name hash, ∀ s : Hints, s.add series m =
          { s with
            hints := insert hint s.hints, names := insert name s.names,
            hashes := insert hash s.hashes } := by
  unfold Hints.add
  cases (Str.splitWhitespace m.vermagic).head? with
  | none => exact .inl fun _ => rfl
  | some release =>
    dsimp only
    by_cases hconflict : (releaseHints release).1 ≠ series || (releaseHints release).2.2
    · exact .inr (.inl fun _ => if_pos hconflict)
    · simp only [hconflict]
      cases (releaseHints release).2.1 with
      | none => exact .inl fun _ => rfl
      | some hint => exact .inr (.inr ⟨hint, _, _, fun _ => rfl⟩)

theorem Hints.add_comm (s : Hints) (x y : BoundModule) :
    (s.add series x).add series y = (s.add series y).add series x := by
  obtain hx | hx | ⟨hint, name, hash, hx⟩ := Hints.add_cases series x
  · rw [hx, hx]
  · obtain hy | hy | ⟨hint', name', hash', hy⟩ := Hints.add_cases series y
    · rw [hy, hy]
    · rw [hx, hy, hx, hy]
    · rw [hx, hy, hx, hy]
  · obtain hy | hy | ⟨hint', name', hash', hy⟩ := Hints.add_cases series y
    · rw [hy, hy]
    · rw [hx, hy, hx, hy]
    · rw [hx, hy, hx, hy]
      simp only [Finset.insert_comm hint', Finset.insert_comm name', Finset.insert_comm hash']

/-- The modules may be observed in any order. -/
theorem foldl_add_perm {ms ms' : List BoundModule} (h : ms.Perm ms') (s : Hints) :
    ms.foldl (Hints.add series) s = ms'.foldl (Hints.add series) s :=
  h.foldl_eq' (fun x _ y _ z => Hints.add_comm series z x y) s

/-- What contradicts, when all have been observed. -/
def Hints.conflicts (unameHint : Option Str) (s : Hints) : Bool :=
  s.conflicting || 1 < s.hints.card || decide (∃ hint ∈ s.hints, unameHint.any (· ≠ hint))

/-- More evidence keeps a conflict. -/
theorem Hints.conflicts_add {unameHint : Option Str} {s : Hints} (m : BoundModule)
    (h : s.conflicts unameHint = true) : (s.add series m).conflicts unameHint = true := by
  obtain hm | hm | ⟨hint, name, hash, hm⟩ := Hints.add_cases series m
  · rwa [hm]
  · rw [hm]
    rfl
  · rw [hm]
    rw [conflicts, Bool.or_eq_true, Bool.or_eq_true, decide_eq_true_eq, decide_eq_true_eq] at h ⊢
    obtain (h | h) | ⟨other, hmem, h⟩ := h
    · exact .inl (.inl h)
    · exact .inl (.inr (h.trans_le (Finset.card_le_card (Finset.subset_insert hint s.hints))))
    · exact .inr ⟨other, Finset.mem_insert_of_mem hmem, h⟩

end Evidence

/-- All that some modules say. -/
def observed (release : Str) (ms : List BoundModule) : Hints :=
  ms.foldl (Hints.add (releaseHints release).1) ⟨∅, ∅, ∅, (releaseHints release).2.2⟩

/-- What is made of it. -/
def Hints.verdict (unameHint : Option Str) (complete : Bool) (s : Hints) : Option Str × Bool :=
  (if !s.conflicts unameHint && complete && 2 ≤ s.names.card && 2 ≤ s.hashes.card then
    s.hints.sort.head? else none, s.conflicts unameHint)

theorem moduleHints_eq (release : Str) (complete : Bool) (ms : List BoundModule) :
    moduleHints release complete ms = (observed release ms).verdict (releaseHints release).2.1
      complete := rfl

/-- The modules may be observed in any order. -/
theorem moduleHints_perm (release : Str) (complete : Bool) {ms ms' : List BoundModule}
    (h : ms.Perm ms') :
    moduleHints release complete ms = moduleHints release complete ms' := by
  rw [moduleHints_eq, moduleHints_eq, observed, foldl_add_perm _ h]
  rfl

/-- Observing another module does not clear a conflict. -/
theorem moduleHints_cons (release : Str) (complete : Bool) {ms : List BoundModule} (m : BoundModule)
    (h : (moduleHints release complete ms).2 = true) :
    (moduleHints release complete (m :: ms)).2 = true := by
  have hlast : (m :: ms).Perm (ms ++ [m]) := (List.perm_append_singleton m ms).symm
  rw [moduleHints_perm release complete hlast, moduleHints_eq, observed, List.foldl_append]
  exact Hints.conflicts_add _ m h

/-! ## Candidates -/

section Index

variable {α β : Type*} (f : α → ℕ → Option β) (key : β → ℕ)

/-- What is found in a list at increasing indices. -/
theorem pairwise_filterMap_zipIdx (hkey : ∀ a i, ∀ b ∈ f a i, key b = i) (l : List α) (n : ℕ) :
    (((l.zipIdx n).filterMap fun x => f x.1 x.2).map key).Pairwise (· < ·) ∧
      ∀ i ∈ ((l.zipIdx n).filterMap fun x => f x.1 x.2).map key, n ≤ i := by
  induction l generalizing n with
  | nil => exact ⟨List.Pairwise.nil, nofun⟩
  | cons a l ih =>
    obtain ⟨hpairwise, hle⟩ := ih (n + 1)
    rw [List.zipIdx_cons, List.filterMap_cons]
    dsimp only
    cases hf : f a n with
    | none => exact ⟨hpairwise, fun i hi => (Nat.le_succ n).trans (hle i hi)⟩
    | some b =>
      have hb : key b = n := hkey a n b hf
      dsimp only
      rw [List.map_cons, List.pairwise_cons, hb]
      exact ⟨⟨fun i hi => hle i hi, hpairwise⟩,
        List.forall_mem_cons.2 ⟨le_rfl, fun i hi => (Nat.le_succ n).trans (hle i hi)⟩⟩

end Index

/-- The KMIs of the catalog that are of the series, and that the modules agree on. -/
def agreedKmis (series : Option LinuxSeries) (hint : Option Str) (ps : List Payload) : List Str :=
  (ps.filterMap (candidateKmi series)).filter fun kmi => hint.all (· = kmi)

/-- The candidates are the payloads of the series that the modules agree on, each at its index. -/
structure Candidates (series : Option LinuxSeries) (releaseHint hint : Option Str)
    (ps : List Payload) (cs : List KmiCandidate) : Prop where
  nodup : (cs.map KmiCandidate.payloadIndex).Nodup
  mem_iff : ∀ i, i ∈ cs.map KmiCandidate.payloadIndex ↔
    ∃ p kmi, ps[i]? = some p ∧ candidateKmi series p = some kmi ∧ hint.all (· = kmi) = true
  kmis : (cs.map KmiCandidate.kmi).Perm (agreedKmis series hint ps)
  matches_eq : ∀ c ∈ cs, c.matchesReleaseHint = decide (releaseHint = some c.kmi)

/-- What is resolved for a catalog that is accepted. -/
structure Resolved (m : Manifest) (release : Str) (observed : Observation) (r : KmiResolution) :
    Prop where
  valid : m.Valid
  series : r.series = (releaseHints release).1
  releaseHint : r.releaseHint = (releaseHints release).2.1
  moduleHint : r.moduleHint = (moduleHints release (!observed.incomplete) observed.modules).1
  conflictingHints : r.conflictingHints =
    ((releaseHints release).2.2 || (moduleHints release (!observed.incomplete) observed.modules).2)
  candidates : Candidates (releaseHints release).1 (releaseHints release).2.1
    (moduleHints release (!observed.incomplete) observed.modules).1 m.payloads r.candidates

/-- The candidates of the series, before the modules are asked. -/
def seriesCandidates (series : Option LinuxSeries) (releaseHint : Option Str) (ps : List Payload) :
    List KmiCandidate :=
  ps.zipIdx.filterMap fun x => (candidateKmi series x.1).map fun kmi =>
    ⟨x.2, kmi, releaseHint = some kmi⟩

theorem mem_seriesCandidates {series : Option LinuxSeries} {releaseHint : Option Str}
    {ps : List Payload} {c : KmiCandidate} :
    c ∈ seriesCandidates series releaseHint ps ↔ ∃ p, ps[c.payloadIndex]? = some p ∧
      candidateKmi series p = some c.kmi ∧
      c.matchesReleaseHint = decide (releaseHint = some c.kmi) := by
  rw [seriesCandidates, List.mem_filterMap]
  constructor
  · rintro ⟨⟨p, i⟩, hmem, hc⟩
    obtain ⟨kmi, hkmi, rfl⟩ := Option.map_eq_some_iff.1 hc
    exact ⟨p, List.mem_zipIdx_iff_getElem?.1 hmem, hkmi, rfl⟩
  · rintro ⟨p, hp, hkmi, hmatches⟩
    refine ⟨(p, c.payloadIndex), List.mem_zipIdx_iff_getElem?.2 hp, ?_⟩
    rw [hkmi, Option.map_some, ← hmatches]

theorem map_kmi_seriesCandidates (series : Option LinuxSeries) (releaseHint : Option Str)
    (ps : List Payload) :
    (seriesCandidates series releaseHint ps).map KmiCandidate.kmi =
      ps.filterMap (candidateKmi series) := by
  have hindexed : ∀ n, (((ps.zipIdx n).filterMap fun x => (candidateKmi series x.1).map fun kmi =>
      (⟨x.2, kmi, releaseHint = some kmi⟩ : KmiCandidate)).map KmiCandidate.kmi) =
        ps.filterMap (candidateKmi series) := by
    induction ps with
    | nil => exact fun _ => rfl
    | cons p ps ih =>
      intro n
      rw [List.zipIdx_cons, List.filterMap_cons, List.filterMap_cons]
      dsimp only
      cases candidateKmi series p with
      | none => exact ih (n + 1)
      | some kmi =>
        rw [Option.map_some]
        dsimp only
        rw [List.map_cons, ih (n + 1)]
  exact hindexed 0

/-- The modules rule out all candidates but one KMI. -/
theorem candidates_filter (series : Option LinuxSeries) (releaseHint hint : Option Str)
    (ps : List Payload) {cs : List KmiCandidate}
    (hcs : cs.Perm (seriesCandidates series releaseHint ps)) :
    Candidates series releaseHint hint ps (cs.filter fun c => hint.all (· = c.kmi)) := by
  have hsorted := pairwise_filterMap_zipIdx (fun p i => (candidateKmi series p).map fun kmi =>
    (⟨i, kmi, releaseHint = some kmi⟩ : KmiCandidate)) KmiCandidate.payloadIndex (fun p i c hc => by
      obtain ⟨kmi, -, rfl⟩ := Option.map_eq_some_iff.1 hc
      rfl) ps 0
  have hnodup : (cs.map KmiCandidate.payloadIndex).Nodup :=
    (hcs.map KmiCandidate.payloadIndex).nodup_iff.2 (hsorted.1.imp fun h => Nat.ne_of_lt h)
  refine ⟨hnodup.sublist (List.filter_sublist.map _), fun i => ?_, ?_, fun c hc => ?_⟩
  · rw [List.mem_map]
    constructor
    · rintro ⟨c, hc, rfl⟩
      obtain ⟨hmem, hhint⟩ := List.mem_filter.1 hc
      obtain ⟨p, hp, hkmi, -⟩ := mem_seriesCandidates.1 (hcs.mem_iff.1 hmem)
      exact ⟨p, c.kmi, hp, hkmi, hhint⟩
    · rintro ⟨p, kmi, hp, hkmi, hhint⟩
      refine ⟨⟨i, kmi, releaseHint = some kmi⟩, List.mem_filter.2 ⟨hcs.mem_iff.2 ?_, hhint⟩, rfl⟩
      exact mem_seriesCandidates.2 ⟨p, hp, hkmi, rfl⟩
  · have hmap : (cs.filter fun c => hint.all (· = c.kmi)).map KmiCandidate.kmi =
        (cs.map KmiCandidate.kmi).filter fun kmi => hint.all (· = kmi) := by
      rw [List.filter_map]
      rfl
    rw [hmap, agreedKmis, ← map_kmi_seriesCandidates series releaseHint]
    exact (hcs.map _).filter _
  · obtain ⟨-, -, -, hmatches⟩ := mem_seriesCandidates.1 (hcs.mem_iff.1 (List.mem_filter.1 hc).1)
    exact hmatches

/-- A catalog is resolved if it is accepted. -/
theorem resolveWithModules_eq_ok {m : Manifest} {release : Str} {observed : Observation} :
    (∃ r, resolveWithModules m release observed = .ok r) ↔ m.Valid := by
  rw [← Manifest.validate_eq_ok_iff, resolveWithModules, resolve]
  cases hvalid : m.validate with
  | error e => exact iff_of_false (fun ⟨_, h⟩ => by cases h) nofun
  | ok u =>
    refine iff_of_true ?_ rfl
    dsimp only [bind, Except.bind]
    cases (moduleHints release (!observed.incomplete) observed.modules).1 <;> exact ⟨_, rfl⟩

theorem resolveWithModules_spec {m : Manifest} {release : Str} {observed : Observation}
    {r : KmiResolution} (h : resolveWithModules m release observed = .ok r) :
    Resolved m release observed r := by
  have hvalid := resolveWithModules_eq_ok.1 ⟨r, h⟩
  have hperm := List.perm_insertionSort (fun a b : KmiCandidate => a.kmi ≤ b.kmi)
    (seriesCandidates (releaseHints release).1 (releaseHints release).2.1 m.payloads)
  have hcandidates := candidates_filter (releaseHints release).1 (releaseHints release).2.1
    (moduleHints release (!observed.incomplete) observed.modules).1 m.payloads hperm
  rw [resolveWithModules, resolve, Manifest.validate_eq_ok_iff.2 hvalid] at h
  dsimp only [bind, Except.bind] at h
  cases hhint : (moduleHints release (!observed.incomplete) observed.modules).1 with
  | none =>
    rw [hhint] at h hcandidates
    obtain rfl := Except.ok.inj h
    have hall : ∀ cs : List KmiCandidate, (cs.filter fun c => (none : Option Str).all (· = c.kmi)) =
        cs :=
      fun cs => List.filter_eq_self.2 fun _ _ => rfl
    rw [hall] at hcandidates
    exact ⟨hvalid, rfl, rfl, hhint.symm, rfl, by rw [hhint]; exact hcandidates⟩
  | some hint =>
    rw [hhint] at h hcandidates
    obtain rfl := Except.ok.inj h
    have hsame : ∀ cs : List KmiCandidate, (cs.filter fun c => (some hint).all (· = c.kmi)) =
        cs.filter fun c => c.kmi = hint := by
      intro cs
      refine List.filter_congr fun c _ => ?_
      simp only [Option.all_some, eq_comm]
    rw [hsame] at hcandidates
    exact ⟨hvalid, rfl, rfl, hhint.symm, rfl, by rw [hhint]; exact hcandidates⟩

end VpnHide.Payloads

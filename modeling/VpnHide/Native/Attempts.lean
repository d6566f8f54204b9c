import VpnHide.Lib.Sessions
import VpnHide.Native.Journal

/-!
# Attempts to start a kernel backend

Before each attempt the journal is asked (`Journal.checkNativeAttempt`), and what it answers
rests on three bounded records: the budget of loads in a boot, the payloads that were loaded
and not confirmed, and the boots in which Zygisk may have been exposed. Attempts, completions,
exposures, pruning and reading the journal back update them in different places.

`native_starts` says what the records are for, of every history of boots: each start in its
log was allowed by what is in the log before it. A backend is loaded at most once in a boot;
a payload that was loaded last and not confirmed is not loaded again automatically; and in a
boot with an exposure no kernel backend is started. For the last one, exposures of this boot
must not be dropped from the bounded list of boots: what is behind one of them in the list
comes from evidence that is retained, which is less than the list can hold (`Recent`).
-/

namespace VpnHide.Native

open Lib Daemon

/-! ## The log -/

/-- What is told of the attempts. -/
inductive Event
  | started (boot : Str) (intent : TransitionIntent) (explicit : Bool)
  /-- The attempt with this intent was completed, with the backend that was selected. -/
  | completed (intent : TransitionIntent) (selection : Option NativeBackend)
  /-- The journal shows an exposure in the boot. -/
  | exposed (boot : Str)

/-- The attempt to load a payload that was the last one for a backend. -/
structure LastLoad where
  sha256 : Str
  /-- Its completion selected the backend. -/
  selected : Bool
  /-- The completion of a later attempt did, which had the backend loaded without a payload. -/
  reselected : Bool
  deriving DecidableEq

/-- The payload that was last loaded for a backend, after an event. -/
def Event.updateLast (backend : NativeBackend) (last : Option LastLoad) : Event → Option LastLoad
  | .started _ intent _ =>
    match intent.loads with
    | some (b, payload) => if b = backend then some ⟨payload.sha256, false, false⟩ else last
    | none => last
  | .completed intent selection =>
    if intent.action = .load backend ∧ selection = some backend then
      last.map fun l =>
        if intent.payload.isSome then { l with selected := true } else { l with reselected := true }
    else last
  | .exposed _ => last

/-- The last attempt to load a payload for the backend. -/
def lastLoad (backend : NativeBackend) (log : List Event) : Option LastLoad :=
  log.foldl (Event.updateLast backend) none

/-! ## The operations -/

/-- A journal with what has happened. -/
structure Record where
  journal : Journal
  log : List Event

/-- What is done with the journal. -/
inductive Operation
  /-- The journal is asked, and the attempt is started if it does not object. -/
  | attempt (intent : TransitionIntent) (explicit : Bool) (repairOp : Option OperationId)
  | complete (result : NativeStartupResult)
  | noteExposure
  | prune
  /-- The journal is written and read back. -/
  | reload

namespace Record

/-- An exposure that the journal shows is logged. -/
def observe (boot : Str) (r : Record) : Record :=
  if r.journal.zygiskExposedIn boot then { r with log := r.log ++ [.exposed boot] } else r

section Step

variable (encodes : Str → ℕ → Str → Bool) (others : Journal → Bool)

/-- An attempt is made, if the journal lets it. -/
def attempt (boot : Str) (r : Record) (intent : TransitionIntent) (explicit : Bool)
    (repairOp : Option OperationId) :
    Record :=
  match r.journal.checkNativeAttempt intent explicit with
  | .error _ => r
  | .ok _ =>
    ⟨r.journal.replaceNativeStartup ⟨boot, some intent, repairOp, none⟩,
      r.log ++ [.started boot intent explicit]⟩

/-- An attempt is completed. -/
def complete (r : Record) (result : NativeStartupResult) : Record :=
  ⟨r.journal.completeNativeStartup result,
    r.log ++ ((r.journal.nativeStartup.bind (·.intent)).map (.completed · result.selection)).toList⟩

/-- An operation in a boot, which is that of the attempts made in it. -/
def step (boot : Str) (r : Record) : Operation → Record
  | .attempt intent explicit repairOp =>
    observe boot (r.attempt boot { intent with bootId := boot } explicit repairOp)
  | .complete result => observe boot (r.complete result)
  | .noteExposure => observe boot { r with journal := r.journal.noteZygiskExposure boot }
  | .prune => observe boot { r with journal := r.journal.prune }
  | .reload => observe boot { r with journal := (r.journal.read encodes others).getD r.journal }

end Step

end Record

/-! ## What the log allows -/

/-- A start that the log before it allows. -/
def Allowed (log : List Event) : Event → Prop
  | .started boot intent explicit =>
    (∀ backend payload, intent.loads = some (backend, payload) →
      (∀ intent' explicit' payload', .started boot intent' explicit' ∈ log →
        intent'.loads ≠ some (backend, payload')) ∧
      (explicit = false → ∀ last, lastLoad backend log = some last → last.sha256 = payload.sha256 →
        last.selected ∨ last.reselected)) ∧
      (intent.activatesKernel → .exposed boot ∉ log)
  | _ => True

/-- Each event is one that is allowed after those before it. -/
def AllAllowed (log : List Event) : Prop :=
  ∀ before event after, log = before ++ event :: after → Allowed before event

theorem allAllowed_nil : AllAllowed [] := by
  intro before event after h
  simp at h

theorem AllAllowed.concat {log : List Event} (h : AllAllowed log) {event : Event}
    (hevent : Allowed log event) :
    AllAllowed (log ++ [event]) := by
  intro before event' after heq
  obtain rfl | ⟨after', last, rfl⟩ := List.eq_nil_or_concat' after
  · obtain ⟨rfl, hlast⟩ := List.append_inj' heq rfl
    cases hlast
    exact hevent
  · rw [← List.cons_append, ← List.append_assoc] at heq
    exact h before event' after' (List.append_inj' heq rfl).1

/-- The last module that a backend loaded, after one more event. -/
theorem lastLoad_concat (backend : NativeBackend) (log : List Event) (event : Event) :
    lastLoad backend (log ++ [event]) = event.updateLast backend (lastLoad backend log) := by
  rw [lastLoad, List.foldl_append]
  rfl

/-! ## Budget and quarantine -/

namespace Journal

variable {encodes : Str → ℕ → Str → Bool} {others : Journal → Bool}

theorem spend_self (budget : Option NativeLoadBudget) (boot : Str) (backend : NativeBackend) :
    (spend budget boot backend).bootId = boot ∧
      backend ∈ (spend budget boot backend).attempted := by
  refine ⟨rfl, ?_⟩
  simp only [spend]
  split_ifs with h
  · simpa using h
  · exact List.mem_append_right _ List.mem_cons_self

/-- Whoever has spent the budget of this boot is still listed after another backend has. -/
theorem mem_spend {b : NativeLoadBudget} {boot : Str} {backend backend' : NativeBackend}
    (hboot : b.bootId = boot) (hmem : backend' ∈ b.attempted) :
    backend' ∈ (spend (some b) boot backend).attempted := by
  simp only [spend, hboot, if_true]
  split_ifs
  · exact hmem
  · exact List.mem_append_left _ hmem

/-- A backend has spent its load of this boot if the budget says so of this boot. -/
theorem budgetSpent_iff {j : Journal} {boot : Str} {backend : NativeBackend} :
    j.budgetSpent boot backend ↔ ∃ b, j.nativeLoadBudget = some b ∧ b.bootId = boot ∧
      backend ∈ b.attempted := by
  simp [budgetSpent, Option.any_eq_true]

/-- A module is quarantined if the journal's list names it for its backend. -/
theorem quarantined_iff {j : Journal} {backend : NativeBackend} {sha256 : Str} :
    j.quarantined backend sha256 ↔ ⟨backend, sha256⟩ ∈ j.nativeQuarantine := by
  rw [quarantined, List.any_eq_true]
  constructor
  · rintro ⟨q, hq, heq⟩
    simp only [Bool.and_eq_true, decide_eq_true_eq] at heq
    obtain ⟨rfl, rfl⟩ := heq
    exact hq
  · exact fun h => ⟨_, h, by simp⟩

/-! ### Starting an attempt -/

section Replace

variable (j : Journal) (boot : Str) (intent : TransitionIntent) (repairOp : Option OperationId)

/-- Recording the evidence of an attempt leaves the budget and the quarantine alone. -/
theorem recordEvidenceOf_loads (attempt : NativeStartup) :
    (j.recordEvidenceOf attempt).nativeLoadBudget = j.nativeLoadBudget ∧
      (j.recordEvidenceOf attempt).nativeQuarantine = j.nativeQuarantine := by
  rw [recordEvidenceOf]
  split
  next e _ =>
    rw [recordSelectionEvidence]
    by_cases hvalid : e.valid
    · rw [if_pos hvalid]
      exact ⟨rfl, rfl⟩
    · rw [if_neg hvalid]
      exact ⟨rfl, rfl⟩
  · exact ⟨rfl, rfl⟩

/-- Noting an exposure leaves both alone. -/
theorem noteExposureOf_loads (attempt : NativeStartup) :
    (j.noteExposureOf attempt).nativeLoadBudget = j.nativeLoadBudget ∧
      (j.noteExposureOf attempt).nativeQuarantine = j.nativeQuarantine := by
  rw [noteExposureOf]
  split_ifs
  · exact ⟨rfl, rfl⟩
  · exact ⟨rfl, rfl⟩

/-- The records of loads after the start of one. -/
theorem replaceNativeStartup_of_loads {backend : NativeBackend} {payload : PayloadIdentity}
    (h : intent.loads = some (backend, payload)) :
    let j' := j.replaceNativeStartup ⟨boot, some intent, repairOp, none⟩
    j'.nativeLoadBudget = some (spend j.nativeLoadBudget intent.bootId backend) ∧
      j'.nativeQuarantine = j.nativeQuarantine.filter (·.backend ≠ backend) ++
        [⟨backend, payload.sha256⟩] := by
  simp only [replaceNativeStartup, supersede, chargeLoadOf, h, chargeLoad, noteExposureOf_loads,
    recordEvidenceOf_loads, and_self]

/-- An attempt that loads nothing leaves the budget and the quarantine as they are. -/
theorem replaceNativeStartup_of_not_loads (h : intent.loads = none) :
    let j' := j.replaceNativeStartup ⟨boot, some intent, repairOp, none⟩
    j'.nativeLoadBudget = j.nativeLoadBudget ∧ j'.nativeQuarantine = j.nativeQuarantine := by
  simp only [replaceNativeStartup, supersede, chargeLoadOf, h, noteExposureOf_loads,
    recordEvidenceOf_loads, and_self]

end Replace

/-- A quarantined module stays so unless a load by its backend selected that backend. -/
theorem completeNativeStartup_quarantine {j : Journal} {result : NativeStartupResult}
    {backend : NativeBackend} {sha256 : Str} (h : j.quarantined backend sha256)
    (hother : ∀ intent, j.nativeStartup.bind (·.intent) = some intent →
      ¬(intent.action = .load backend ∧ result.selection = some backend)) :
    (j.completeNativeStartup result).quarantined backend sha256 := by
  rw [quarantined_iff] at h ⊢
  rw [completeNativeStartup]
  cases hstartup : j.nativeStartup with
  | none => exact h
  | some attempt =>
    simp only
    cases hintent : attempt.intent with
    | none => exact h
    | some intent =>
      have hne := hother intent (by rw [hstartup, Option.bind_some, hintent])
      simp only [Option.map_some]
      split
      next backend' hload =>
        split_ifs with hselected
        · refine List.mem_filter.2 ⟨h, ?_⟩
          have hbackend : backend ≠ backend' := by
            rintro rfl
            exact hne ⟨Option.some.inj hload, hselected⟩
          simpa using hbackend
        · exact h
      · exact h

/-- A completion spends no budget. -/
theorem completeNativeStartup_budget (j : Journal) (result : NativeStartupResult) :
    (j.completeNativeStartup result).nativeLoadBudget = j.nativeLoadBudget := by
  rw [completeNativeStartup]
  cases j.nativeStartup <;> rfl

/-- Reading the journal back leaves the records of loads alone. -/
theorem reload_loads (j : Journal) :
    ((j.read encodes others).getD j).nativeLoadBudget = j.nativeLoadBudget ∧
      ((j.read encodes others).getD j).nativeQuarantine = j.nativeQuarantine := by
  rw [read]
  split_ifs
  · exact ⟨rfl, rfl⟩
  · exact ⟨rfl, rfl⟩

end Journal

/-! ## Exposure -/

/-- What stands behind an element in a list is among `sources`. -/
def Recent (sources : List Str) (boot : Str) (boots : List Str) : Prop :=
  boot ∈ boots → ∃ front back, boots = front ++ boot :: back ∧ back.Nodup ∧ ∀ b ∈ back, b ∈ sources

namespace Recent

open Journal

variable {sources boots : List Str} {boot b : Str}

/-- One more boot keeps the list recent, if it is the boot itself or one of the sources. -/
theorem withBoot (h : Recent sources boot boots) (hb : b = boot ∨ b ∈ sources) :
    Recent sources boot (withBoot boots b) := by
  rw [Journal.withBoot]
  split_ifs with hmem
  · exact h
  · rw [List.contains_iff_mem] at hmem
    intro hboot
    by_cases hold : boot ∈ boots
    · obtain ⟨front, back, rfl, hnodup, hback⟩ := h hold
      have hne : b ≠ boot := fun heq => hmem (heq ▸ hold)
      refine ⟨front, back ++ [b], by simp, ?_, ?_⟩
      · refine hnodup.append (List.nodup_singleton b) fun c hc hcb => ?_
        rw [List.mem_singleton.1 hcb] at hc
        exact hmem (List.mem_append_right _ (List.mem_cons_of_mem _ hc))
      · intro c hc
        obtain hc | hc := List.mem_append.1 hc
        · exact hback c hc
        · exact List.mem_singleton.1 hc ▸ hb.resolve_left hne
    · obtain hboot | hboot := List.mem_append.1 hboot
      · exact absurd hboot hold
      · rw [← List.mem_singleton.1 hboot]
        exact ⟨boots, [], rfl, List.nodup_nil, fun c hc => absurd hc List.not_mem_nil⟩

/-- Several boots keep it recent. -/
theorem foldl (h : Recent sources boot boots) {added : List Str}
    (hadded : ∀ b ∈ added, b = boot ∨ b ∈ sources) :
    Recent sources boot (added.foldl Journal.withBoot boots) := by
  induction added generalizing boots with
  | nil => exact h
  | cons b added ih =>
    exact ih (h.withBoot (hadded b List.mem_cons_self)) fun c hc =>
      hadded c (List.mem_cons_of_mem b hc)

/-- A list that is longer than the sources can tell keeps what is recent. -/
theorem drainTo (h : Recent sources boot boots) {bound : ℕ} (hbound : sources.length < bound)
    (hmem : boot ∈ boots) :
    ∃ front back, Journal.drainTo bound boots = front ++ boot :: back ∧ back.Nodup ∧
      ∀ b ∈ back, b ∈ sources := by
  obtain ⟨front, back, rfl, hnodup, hback⟩ := h hmem
  have hlen : back.length ≤ sources.length := (List.subperm_of_subset hnodup hback).length_le
  have hdrop : (front ++ boot :: back).length - bound ≤ front.length := by
    rw [List.length_append, List.length_cons]
    omega
  refine ⟨front.drop ((front ++ boot :: back).length - bound), back, ?_, hnodup, hback⟩
  rw [Journal.drainTo, List.drop_append_of_le_length hdrop]

end Recent

namespace Journal

variable (encodes : Str → ℕ → Str → Bool) (others : Journal → Bool)

/-- What is left of a list after it was drained to its bound was in it. -/
theorem mem_of_mem_drainTo {α : Type} {bound : ℕ} {l : List α} {a : α}
    (h : a ∈ drainTo bound l) : a ∈ l :=
  List.mem_of_mem_drop h

/-- A drained list is within its bound. -/
theorem length_drainTo_le {α : Type} {bound : ℕ} {l : List α} :
    (drainTo bound l).length ≤ bound := by
  rw [drainTo, List.length_drop]
  omega

/-- The newest entry is not drained. -/
theorem getLast?_drainTo {α : Type} {bound : ℕ} (hbound : 0 < bound) (l : List α) :
    (drainTo bound l).getLast? = l.getLast? := by
  cases l with
  | nil => rw [drainTo, List.drop_nil]
  | cons a l =>
    rw [drainTo, List.getLast?_drop, if_neg]
    rw [List.length_cons]
    omega

theorem mem_foldl_withBoot {added boots : List Str} {b : Str} :
    b ∈ added.foldl withBoot boots ↔ b ∈ boots ∨ b ∈ added := by
  induction added generalizing boots with
  | nil => simp
  | cons c added ih =>
    have hc : b ∈ withBoot boots c ↔ b ∈ boots ∨ b = c := by
      rw [withBoot]
      split_ifs with hmem
      · rw [List.contains_iff_mem] at hmem
        exact ⟨.inl, fun h => h.elim id fun h => h ▸ hmem⟩
      · rw [List.mem_append, List.mem_singleton]
    rw [List.foldl_cons, ih, hc, List.mem_cons, or_assoc]

/-- The last boot of the list is the last one from before, or one that was added. -/
theorem getLast?_foldl_withBoot {added boots : List Str} {b : Str}
    (h : (added.foldl withBoot boots).getLast? = some b) : boots.getLast? = some b ∨ b ∈ added := by
  induction added generalizing boots with
  | nil => exact .inl h
  | cons c added ih =>
    obtain hlast | hmem := ih h
    · rw [withBoot] at hlast
      split_ifs at hlast
      · exact .inl hlast
      · rw [List.getLast?_concat] at hlast
        cases hlast
        exact .inr List.mem_cons_self
    · exact .inr (List.mem_cons_of_mem c hmem)

/-- The boots that an exposure can be told of from what is retained. -/
def evidenceBoots (j : Journal) : List Str :=
  j.zygiskExposureBoot.toList ++ j.zygiskExposureBoots.getLast?.toList ++
    j.nativeAttempts.map (·.attempt.bootId) ++ (j.nativeStartup.map (·.bootId)).toList ++
    (j.zygiskAuthority.bind (·.bootId)).toList ++ j.bootstrapExposure.toList

/-- There is evidence of at most 21 boots: of the attempts and of five single records. -/
theorem length_evidenceBoots_le {j : Journal} (h : j.nativeAttempts.length ≤ maxNativeAttempts) :
    j.evidenceBoots.length ≤ 21 := by
  have hopt {α : Type} (o : Option α) : o.toList.length ≤ 1 := by cases o <;> simp
  simp only [evidenceBoots, List.length_append, List.length_map]
  have h1 := hopt j.zygiskExposureBoot
  have h2 := hopt j.zygiskExposureBoots.getLast?
  have h3 := hopt (j.nativeStartup.map (·.bootId))
  have h4 := hopt (j.zygiskAuthority.bind (·.bootId))
  have h5 := hopt j.bootstrapExposure
  rw [maxNativeAttempts] at h
  omega

/-- The boots that a reload discovers are those of the evidence. -/
theorem discovered_subset {j : Journal}
    (hauthority : j.authorityOnRecord encodes = j.zygiskAuthority) {b : Str}
    (h : b ∈ j.discovered encodes) : b ∈ j.evidenceBoots := by
  rw [discovered, hauthority] at h
  simp only [evidenceBoots, List.mem_append, List.mem_map, Option.mem_toList] at h ⊢
  obtain ((h | h) | h) | h := h
  · exact .inl (.inl (.inl (.inl (.inl h))))
  · simp only [attemptExposures, List.mem_map, List.mem_filter, List.mem_append, Option.mem_toList]
      at h
    obtain ⟨a, ⟨⟨item, hitem, rfl⟩ | ha, -⟩, rfl⟩ := h
    · exact .inl (.inl (.inl (.inr ⟨item, hitem, rfl⟩)))
    · exact .inl (.inl (.inr (by rw [ha]; rfl)))
  · exact .inl (.inr h)
  · exact .inr h

end Journal

/-! ### During a boot -/

/-- Nothing that could drop an exposure in `boot` is around: `sources` are few, and stand for
    all evidence of other boots. -/
structure Watch (encodes : Str → ℕ → Str → Bool) (past sources : List Str) (boot : Str)
    (j : Journal) : Prop where
  recent : Recent sources boot j.zygiskExposureBoots
  evidence : ∀ b ∈ j.evidenceBoots, b = boot ∨ b ∈ sources
  listed : ∀ b ∈ j.zygiskExposureBoots, b = boot ∨ b ∈ past
  authority : j.authorityOnRecord encodes = j.zygiskAuthority
  attempts : j.nativeAttempts.length ≤ maxNativeAttempts

/-- What exposure can be told from. -/
def Journal.trail (encodes : Str → ℕ → Str → Bool) (j : Journal) :=
  (j.zygiskExposureBoot, j.zygiskExposureBoots, j.nativeAttempts, j.nativeStartup.map (·.bootId),
    j.zygiskAuthority, j.authorityOnRecord encodes, j.bootstrapExposure)

namespace Watch

variable {encodes : Str → ℕ → Str → Bool} {others : Journal → Bool} {past sources : List Str}
  {boot : Str} {j j' : Journal}

/-- The watch reads no more of a journal than its trail. -/
theorem congr (h : Watch encodes past sources boot j)
    (htrail : j'.trail encodes = j.trail encodes) :
    Watch encodes past sources boot j' := by
  simp only [Journal.trail, Prod.mk.injEq] at htrail
  obtain ⟨hboot, hboots, hattempts, hstartup, hauthority, hrecord, hbootstrap⟩ := htrail
  have hevidence : j'.evidenceBoots = j.evidenceBoots := by
    simp only [Journal.evidenceBoots, hboot, hboots, hattempts, hstartup, hauthority, hbootstrap]
  exact {
    recent := hboots ▸ h.recent
    evidence := hevidence ▸ h.evidence
    listed := hboots ▸ h.listed
    authority := by rw [hrecord, hauthority, h.authority]
    attempts := hattempts ▸ h.attempts }

/-- The list of boots gets some that are known. -/
theorem relist (h : Watch encodes past sources boot j) {boots : List Str} {exposure : Option Str}
    (hrecent : Recent sources boot boots)
    (hlast : ∀ b, boots.getLast? = some b → b = boot ∨ b ∈ sources)
    (hlisted : ∀ b ∈ boots, b = boot ∨ b ∈ past)
    (hexposure : ∀ b, exposure = some b → b = boot ∨ b ∈ sources) :
    Watch encodes past sources boot
      { j with zygiskExposureBoot := exposure, zygiskExposureBoots := boots } where
  recent := hrecent
  evidence b hb := by
    have hold := h.evidence b
    simp only [Journal.evidenceBoots, Journal.bootstrapExposure, List.mem_append, Option.mem_toList]
      at hb hold
    obtain ((((hb | hb) | hb) | hb) | hb) | hb := hb
    · exact hexposure b hb
    · exact hlast b hb
    · exact hold (.inl (.inl (.inl (.inr hb))))
    · exact hold (.inl (.inl (.inr hb)))
    · exact hold (.inl (.inr hb))
    · exact hold (.inr hb)
  listed := hlisted
  authority := h.authority
  attempts := h.attempts

/-- The last boot on the list is this boot or one of the sources. -/
theorem last (h : Watch encodes past sources boot j) {b : Str}
    (hb : j.zygiskExposureBoots.getLast? = some b) :
    b = boot ∨ b ∈ sources := by
  refine h.evidence b ?_
  simp only [Journal.evidenceBoots, List.mem_append, Option.mem_toList]
  exact .inl (.inl (.inl (.inl (.inr hb))))

/-- The latest exposure is of this boot or of one of the sources. -/
theorem exposure (h : Watch encodes past sources boot j) {b : Str}
    (hb : j.zygiskExposureBoot = some b) :
    b = boot ∨ b ∈ sources := by
  refine h.evidence b ?_
  simp only [Journal.evidenceBoots, List.mem_append, Option.mem_toList]
  exact .inl (.inl (.inl (.inl (.inl hb))))

/-- Adding the discovered boots and cutting the list to its bound keeps the watch. -/
theorem recent_drain (h : Watch encodes past sources boot j) (hsources : sources.length ≤ 21)
    {added : List Str} (hadded : ∀ b ∈ added, b = boot ∨ b ∈ sources) :
    Recent sources boot
      (Journal.drainTo maxZygiskExposureBoots
        (added.foldl Journal.withBoot j.zygiskExposureBoots)) := by
  intro hmem
  refine (h.recent.foldl hadded).drainTo ?_ (Journal.mem_of_mem_drainTo hmem)
  rw [maxZygiskExposureBoots]
  omega

/-- An exposure is noted. -/
theorem note (h : Watch encodes past sources boot j) (hsources : sources.length ≤ 21) :
    Watch encodes past sources boot (j.noteZygiskExposure boot) := by
  rw [Journal.noteZygiskExposure]
  split_ifs with hmem
  · exact h.relist h.recent (fun b hb => h.last hb) h.listed fun b hb =>
      .inl (Option.some.inj hb).symm
  · have hfold :
        j.zygiskExposureBoots ++ [boot] = [boot].foldl Journal.withBoot j.zygiskExposureBoots := by
      rw [List.foldl_cons, List.foldl_nil, Journal.withBoot, if_neg hmem]
    refine h.relist ?_ (fun b hb => ?_) (fun b hb => ?_) fun b hb => .inl (Option.some.inj hb).symm
    · rw [hfold]
      exact h.recent_drain hsources fun b hb => .inl (List.mem_singleton.1 hb)
    · rw [Journal.getLast?_drainTo (by decide), List.getLast?_concat] at hb
      exact .inl (Option.some.inj hb).symm
    · obtain hb | hb := List.mem_append.1 (Journal.mem_of_mem_drainTo hb)
      · exact h.listed b hb
      · exact .inl (List.mem_singleton.1 hb)

/-- Superseding an attempt of this boot keeps the watch. -/
theorem supersede (h : Watch encodes past sources boot j) {attempt : NativeStartup}
    (hboot : attempt.bootId = boot) :
    Watch encodes past sources boot (j.supersede attempt) where
  recent := h.recent
  evidence b hb := by
    have hold := h.evidence b
    simp only [Journal.evidenceBoots, Journal.bootstrapExposure, Journal.supersede, List.mem_append,
      Option.mem_toList, List.mem_map, Option.map_some, Option.some.injEq] at hb hold
    obtain ((((hb | hb) | hb) | hb) | hb) | hb := hb
    · exact hold (.inl (.inl (.inl (.inl (.inl hb)))))
    · exact hold (.inl (.inl (.inl (.inl (.inr hb)))))
    · -- The attempt before this one is in the history now.
      obtain ⟨item, hitem, rfl⟩ := hb
      cases hstartup : j.nativeStartup with
      | none =>
        simp only [hstartup] at hitem
        exact hold (.inl (.inl (.inl (.inr ⟨item, hitem, rfl⟩))))
      | some previous =>
        simp only [hstartup] at hitem
        obtain hitem | hitem := List.mem_append.1 (Journal.mem_of_mem_drainTo hitem)
        · exact hold (.inl (.inl (.inl (.inr ⟨item, hitem, rfl⟩))))
        · rw [List.mem_singleton.1 hitem] at hold ⊢
          exact hold (.inl (.inl (.inr (by rw [hstartup]; rfl))))
    · exact .inl (hb.symm.trans hboot)
    · exact hold (.inl (.inr hb))
    · exact hold (.inr hb)
  listed := h.listed
  authority := h.authority
  attempts := by
    simp only [Journal.supersede]
    cases j.nativeStartup with
    | none => exact h.attempts
    | some previous => exact Journal.length_drainTo_le

/-- Recording the evidence of an attempt keeps the watch. -/
theorem recordEvidenceOf (h : Watch encodes past sources boot j) (attempt : NativeStartup) :
    Watch encodes past sources boot (j.recordEvidenceOf attempt) := by
  refine h.congr ?_
  rw [Journal.recordEvidenceOf]
  split
  next e _ =>
    rw [Journal.recordSelectionEvidence]
    by_cases hvalid : e.valid
    · rw [if_pos hvalid]
      rfl
    · rw [if_neg hvalid]
  · rfl

/-- Noting the exposure of an attempt of this boot keeps the watch. -/
theorem noteExposureOf (h : Watch encodes past sources boot j) (hsources : sources.length ≤ 21)
    {attempt : NativeStartup} (hboot : attempt.bootId = boot) :
    Watch encodes past sources boot (j.noteExposureOf attempt) := by
  rw [Journal.noteExposureOf]
  split_ifs
  · exact hboot ▸ h.note hsources
  · exact h

/-- Charging a load to the budget keeps the watch. -/
theorem chargeLoadOf (h : Watch encodes past sources boot j) (attempt : NativeStartup) :
    Watch encodes past sources boot (j.chargeLoadOf attempt) := by
  refine h.congr ?_
  rw [Journal.chargeLoadOf]
  split
  · rfl
  · split <;> rfl

/-- A new attempt of this boot keeps the watch. -/
theorem replace (h : Watch encodes past sources boot j) (hsources : sources.length ≤ 21)
    {attempt : NativeStartup} (hboot : attempt.bootId = boot) :
    Watch encodes past sources boot (j.replaceNativeStartup attempt) :=
  (((h.recordEvidenceOf attempt).noteExposureOf hsources hboot).chargeLoadOf attempt).supersede
    hboot

/-- A completion keeps the watch. -/
theorem complete (h : Watch encodes past sources boot j) (result : NativeStartupResult) :
    Watch encodes past sources boot (j.completeNativeStartup result) := by
  refine h.congr ?_
  rw [Journal.completeNativeStartup]
  cases hstartup : j.nativeStartup with
  | none => rfl
  | some attempt =>
    simp only [Journal.trail, hstartup]
    rfl

end Watch

/-! ### Retention -/

/-- Expiring journal entries leaves the bootstrap record as it is. -/
theorem zygiskBootstrap_foldl_expire (j : Daemon.Journal) (dropped : List JournalEntry) :
    (dropped.foldl Daemon.Journal.expire j).zygiskBootstrap = j.zygiskBootstrap := by
  induction dropped generalizing j with
  | nil => rfl
  | cons e dropped ih => exact ih (j.expire e)

/-- Pruning drops receipts only. -/
theorem prune_keeps (j : Daemon.Journal) :
    j.prune.operations.Sublist j.operations ∧ j.prune.zygiskBootstrap = j.zygiskBootstrap := by
  obtain ⟨dropped, -, hsub, -, heq⟩ := j.prune_eq
  refine ⟨hsub, ?_⟩
  rw [heq]
  exact zygiskBootstrap_foldl_expire j dropped

namespace Watch

variable {encodes : Str → ℕ → Str → Bool} {others : Journal → Bool} {past sources : List Str}
  {boot : Str} {j : Journal}

/-- A grant that is on record is not looked for in the receipts; where there is none, fewer
    receipts have none either. -/
theorem rebase (h : Watch encodes past sources boot j) {base : Daemon.Journal}
    (hops : base.operations.Sublist j.base.operations)
    (hbootstrap : base.zygiskBootstrap = j.base.zygiskBootstrap) :
    Watch encodes past sources boot { j with base := base } := by
  refine h.congr ?_
  have hrecord : ({ j with base := base } : Journal).authorityOnRecord encodes =
      j.authorityOnRecord encodes := by
    rw [h.authority]
    have hnone := h.authority
    simp only [Journal.authorityOnRecord] at hnone ⊢
    cases hauthority : j.zygiskAuthority with
    | some a => rfl
    | none =>
      rw [hauthority, Option.none_or, List.find?_eq_none] at hnone
      rw [Option.none_or, List.find?_eq_none]
      intro a ha
      rw [List.mem_reverse] at ha
      refine hnone a (List.mem_reverse.2 ?_)
      exact ((hops.filter _).filterMap _).subset ha
  have hexposure : ({ j with base := base } : Journal).bootstrapExposure = j.bootstrapExposure := by
    simp only [Journal.bootstrapExposure, hbootstrap]
  simp only [Journal.trail, hrecord, hexposure]

/-- Pruning keeps the watch. -/
theorem prune (h : Watch encodes past sources boot j) : Watch encodes past sources boot j.prune :=
  h.rebase (prune_keeps j.view).1 (prune_keeps j.view).2

/-- Rebuilding the exposure keeps the watch. -/
theorem rebuildExposure (h : Watch encodes past sources boot j) (hsources : sources.length ≤ 21)
    (hpast : ∀ b ∈ sources, b ∈ past) :
    Watch encodes past sources boot (j.rebuildExposure encodes) := by
  have hadded : ∀ b ∈ j.discovered encodes, b = boot ∨ b ∈ sources :=
    fun b hb => h.evidence b (Journal.discovered_subset encodes h.authority hb)
  have hlast (b : Str)
      (hb : ((j.discovered encodes).foldl Journal.withBoot j.zygiskExposureBoots).getLast? =
        some b) :
      b = boot ∨ b ∈ sources := by
    obtain hb | hb := Journal.getLast?_foldl_withBoot hb
    · exact h.last hb
    · exact hadded b hb
  have hexposed (b : Str) (hb : j.zygiskExposureBoot.or
      ((j.discovered encodes).foldl Journal.withBoot j.zygiskExposureBoots).getLast? = some b) :
      b = boot ∨ b ∈ sources := by
    cases hexposure : j.zygiskExposureBoot with
    | none =>
      rw [hexposure, Option.none_or] at hb
      exact hlast b hb
    | some c =>
      rw [hexposure, Option.some_or] at hb
      exact h.exposure (hexposure.trans hb)
  have hrelist := h.relist (h.recent_drain hsources hadded)
    (fun b hb => by
      rw [Journal.getLast?_drainTo (by decide)] at hb
      exact hlast b hb)
    (fun b hb => by
      obtain hb | hb := Journal.mem_foldl_withBoot.1 (Journal.mem_of_mem_drainTo hb)
      · exact h.listed b hb
      · exact (hadded b hb).imp_right (hpast b))
    hexposed
  refine hrelist.congr ?_
  simp only [Journal.rebuildExposure, Journal.trail, h.authority]

/-- A reload keeps the watch. -/
theorem reload (h : Watch encodes past sources boot j) (hsources : sources.length ≤ 21)
    (hpast : ∀ b ∈ sources, b ∈ past) :
    Watch encodes past sources boot ((j.read encodes others).getD j) := by
  rw [Journal.read]
  split_ifs
  · have hkeeps := prune_keeps
    exact (h.rebuildExposure hsources hpast).rebase (hkeeps _).1 (hkeeps _).2
  · exact h

end Watch

/-! ### An exposure stays -/

namespace Journal

variable {encodes : Str → ℕ → Str → Bool} {others : Journal → Bool} {past sources : List Str}
  {boot : Str} {j j' : Journal}

theorem zygiskExposedIn_iff :
    j.zygiskExposedIn boot ↔ j.zygiskExposureBoot = some boot ∨ boot ∈ j.zygiskExposureBoots := by
  simp [zygiskExposedIn]

/-- A boot that was exposed stays so when its next attempt is recorded. -/
theorem exposed_replace {attempt : NativeStartup} (hboot : attempt.bootId = boot)
    (h : j.zygiskExposedIn boot) :
    (j.replaceNativeStartup attempt).zygiskExposedIn boot := by
  have hrecord : (j.recordEvidenceOf attempt).zygiskExposedIn boot := by
    rw [recordEvidenceOf]
    split
    next e _ =>
      rw [recordSelectionEvidence]
      by_cases hvalid : e.valid
      · rw [if_pos hvalid]
        exact h
      · rw [if_neg hvalid]
        exact h
    · exact h
  have hnote : ((j.recordEvidenceOf attempt).noteExposureOf attempt).zygiskExposedIn boot := by
    rw [noteExposureOf]
    split_ifs
    · exact zygiskExposedIn_iff.2 (.inl (congrArg some hboot))
    · exact hrecord
  change (((j.recordEvidenceOf attempt).noteExposureOf attempt).chargeLoadOf
      attempt).zygiskExposedIn boot
  rw [chargeLoadOf]
  split
  · exact hnote
  · split
    · exact hnote
    · exact hnote

/-- A boot that was exposed stays so when an attempt completes. -/
theorem exposed_complete (result : NativeStartupResult) (h : j.zygiskExposedIn boot) :
    (j.completeNativeStartup result).zygiskExposedIn boot := by
  rw [completeNativeStartup]
  split
  · exact h
  · exact h

/-- A boot that was exposed stays so when the journal is read back. -/
theorem exposed_reload (hwatch : Watch encodes past sources boot j) (hsources : sources.length ≤ 21)
    (h : j.zygiskExposedIn boot) : ((j.read encodes others).getD j).zygiskExposedIn boot := by
  rw [read]
  split_ifs
  · change (j.rebuildExposure encodes).zygiskExposedIn boot
    rw [zygiskExposedIn_iff] at h ⊢
    obtain h | h := h
    · exact .inl (by rw [rebuildExposure, h, Option.some_or])
    · -- The list is bounded, but there is little that could push the boot out of it.
      have hadded : ∀ b ∈ j.discovered encodes, b = boot ∨ b ∈ sources :=
        fun b hb => hwatch.evidence b (discovered_subset encodes hwatch.authority hb)
      have hbound : sources.length < maxZygiskExposureBoots := by
        rw [maxZygiskExposureBoots]
        omega
      obtain ⟨front, back, heq, -⟩ :=
        (hwatch.recent.foldl hadded).drainTo hbound (mem_foldl_withBoot.2 (.inl h))
      refine .inr ?_
      change boot ∈ drainTo maxZygiskExposureBoots _
      rw [heq]
      exact List.mem_append_right _ List.mem_cons_self
  · exact h

end Journal

/-! ## Histories -/

/-- A payload that was loaded last, and not confirmed, is in quarantine. -/
def Standing (r : Record) : Prop :=
  ∀ backend last, lastLoad backend r.log = some last → last.selected = false →
    last.reselected = false → r.journal.quarantined backend last.sha256

/-- What holds during a boot; `past` are the boots that are gone. -/
structure During (encodes : Str → ℕ → Str → Bool) (past : List Str) (boot : Str) (r : Record) :
    Prop where
  allowed : AllAllowed r.log
  loads : ∀ boot' intent explicit backend payload, .started boot' intent explicit ∈ r.log →
    intent.loads = some (backend, payload) →
    boot' ∈ past ∨ boot' = boot ∧ r.journal.budgetSpent boot backend
  standing : Standing r
  shown : ∀ boot', .exposed boot' ∈ r.log →
    boot' ∈ past ∨ boot' = boot ∧ r.journal.zygiskExposedIn boot
  watch : ∃ sources : List Str, sources.length ≤ 21 ∧ (∀ b ∈ sources, b ∈ past) ∧
    Watch encodes past sources boot r.journal

namespace During

variable {encodes : Str → ℕ → Str → Bool} {others : Journal → Bool} {past : List Str}
  {boot : Str} {r : Record}

/-- Observing the boot keeps what holds during it. -/
theorem observe (h : During encodes past boot r) : During encodes past boot (r.observe boot) := by
  rw [Record.observe]
  split_ifs with hexposed
  · refine ⟨h.allowed.concat trivial, fun boot' intent explicit backend payload hmem => ?_, ?_,
      fun boot' hmem => ?_, h.watch⟩
    · obtain hmem | hmem := List.mem_append.1 hmem
      · exact h.loads boot' intent explicit backend payload hmem
      · cases List.mem_singleton.1 hmem
    · intro backend last hlast
      rw [lastLoad_concat] at hlast
      exact h.standing backend last hlast
    · obtain hmem | hmem := List.mem_append.1 hmem
      · exact h.shown boot' hmem
      · cases List.mem_singleton.1 hmem
        exact .inr ⟨rfl, hexposed⟩
  · exact h

/-- The log is as before, and so are the records of loads. -/
theorem same_log (h : During encodes past boot r) {j : Journal}
    (hbudget : j.nativeLoadBudget = r.journal.nativeLoadBudget)
    (hquarantine : j.nativeQuarantine = r.journal.nativeQuarantine)
    (hexposed : r.journal.zygiskExposedIn boot → j.zygiskExposedIn boot)
    (hwatch : ∀ sources : List Str, sources.length ≤ 21 → (∀ b ∈ sources, b ∈ past) →
      Watch encodes past sources boot r.journal → Watch encodes past sources boot j) :
    During encodes past boot { r with journal := j } := by
  obtain ⟨sources, hlen, hpast, hw⟩ := h.watch
  refine ⟨h.allowed, fun boot' intent explicit backend payload hmem hloads => ?_,
    fun backend last hlast hs hr => ?_, fun boot' hmem => ?_, sources, hlen, hpast,
    hwatch sources hlen hpast hw⟩
  · rw [Journal.budgetSpent, hbudget]
    exact h.loads boot' intent explicit backend payload hmem hloads
  · rw [Journal.quarantined, hquarantine]
    exact h.standing backend last hlast hs hr
  · exact (h.shown boot' hmem).imp_right fun ⟨heq, hold⟩ => ⟨heq, hexposed hold⟩

/-- The journal objects to what the log does not allow. -/
theorem allowed_of_check (h : During encodes past boot r) (hboot : boot ∉ past)
    {intent : TransitionIntent} {explicit : Bool} (hintent : intent.bootId = boot)
    (hcheck : r.journal.checkNativeAttempt intent explicit = .ok ()) :
    Allowed r.log (.started boot intent explicit) := by
  obtain ⟨hsafety, hload⟩ := Journal.checkNativeAttempt_eq_ok hcheck
  obtain ⟨-, -, hkernel⟩ := Journal.checkNativeSafety_eq_ok hsafety
  refine ⟨fun backend payload hloads => ?_, fun hactivates hmem => ?_⟩
  · obtain ⟨hbudget, hquarantine⟩ := hload backend payload hloads
    rw [hintent] at hbudget
    refine ⟨fun intent' explicit' payload' hmem hloads' => ?_, fun hexplicit last hlast hsha => ?_⟩
    · obtain hpast | ⟨-, hspent⟩ := h.loads boot intent' explicit' backend payload' hmem hloads'
      · exact hboot hpast
      · rw [hbudget] at hspent
        cases hspent
    · by_contra hnone
      simp only [not_or, Bool.not_eq_true] at hnone
      have hstanding := h.standing backend last hlast hnone.1 hnone.2
      rw [hsha, hquarantine hexplicit] at hstanding
      cases hstanding
  · obtain hpast | ⟨-, hexposed⟩ := h.shown boot hmem
    · exact hboot hpast
    · rw [← hintent, (hkernel hactivates).1] at hexposed
      cases hexposed

/-- After an attempt, too, each load was in a past boot, or in this boot with the budget of its
    backend spent. -/
theorem budget_attempt (h : During encodes past boot r) {intent : TransitionIntent}
    {explicit : Bool} (hintent : intent.bootId = boot) (repairOp : Option OperationId) (boot' : Str)
    (intent' : TransitionIntent)
    (explicit' : Bool) (backend : NativeBackend) (payload : PayloadIdentity)
    (hmem : .started boot' intent' explicit' ∈ r.log ++ [.started boot intent explicit])
    (hloads : intent'.loads = some (backend, payload)) :
    boot' ∈ past ∨ boot' = boot ∧
      (r.journal.replaceNativeStartup ⟨boot, some intent, repairOp, none⟩).budgetSpent boot
        backend := by
  obtain hmem | hmem := List.mem_append.1 hmem
  · refine (h.loads boot' intent' explicit' backend payload hmem hloads).imp_right
      fun ⟨heq, hspent⟩ => ⟨heq, ?_⟩
    rw [Journal.budgetSpent_iff] at hspent ⊢
    obtain ⟨b, hb, hbboot, hbackend⟩ := hspent
    cases hload : intent.loads with
    | none =>
      rw [(Journal.replaceNativeStartup_of_not_loads r.journal boot intent repairOp hload).1]
      exact ⟨b, hb, hbboot, hbackend⟩
    | some load =>
      rw [(Journal.replaceNativeStartup_of_loads r.journal boot intent repairOp hload).1,
        hb, hintent]
      exact ⟨_, rfl, rfl, Journal.mem_spend hbboot hbackend⟩
  · cases List.mem_singleton.1 hmem
    refine .inr ⟨rfl, Journal.budgetSpent_iff.2 ?_⟩
    rw [(Journal.replaceNativeStartup_of_loads r.journal boot intent repairOp hloads).1, hintent]
    exact ⟨_, rfl, Journal.spend_self _ _ _⟩

/-- After an attempt, too, the last load of a backend stands as it should in budget and
    quarantine. -/
theorem standing_attempt (h : During encodes past boot r) (intent : TransitionIntent)
    (explicit : Bool) (repairOp : Option OperationId) :
    Standing ⟨r.journal.replaceNativeStartup ⟨boot, some intent, repairOp, none⟩,
      r.log ++ [.started boot intent explicit]⟩ := by
  intro backend last hlast hselected hreselected
  rw [lastLoad_concat] at hlast
  rw [Journal.quarantined_iff]
  cases hload : intent.loads with
  | none =>
    simp only [Event.updateLast, hload] at hlast
    have hold := Journal.quarantined_iff.1 (h.standing backend last hlast hselected hreselected)
    exact (Journal.replaceNativeStartup_of_not_loads r.journal boot intent repairOp hload).2 ▸ hold
  | some load =>
    obtain ⟨backend', payload⟩ := load
    simp only [Event.updateLast, hload] at hlast
    rw [(Journal.replaceNativeStartup_of_loads r.journal boot intent repairOp hload).2]
    split_ifs at hlast with hbackend
    · cases hlast
      subst hbackend
      exact List.mem_append_right _ List.mem_cons_self
    · have hold := Journal.quarantined_iff.1 (h.standing backend last hlast hselected hreselected)
      refine List.mem_append_left _ (List.mem_filter.2 ⟨hold, ?_⟩)
      simpa using Ne.symm hbackend

/-- An attempt keeps what holds during the boot. -/
theorem attempt (h : During encodes past boot r) (hboot : boot ∉ past) {intent : TransitionIntent}
    (hintent : intent.bootId = boot) (explicit : Bool) (repairOp : Option OperationId) :
    During encodes past boot (r.attempt boot intent explicit repairOp) := by
  rw [Record.attempt]
  cases hcheck : r.journal.checkNativeAttempt intent explicit with
  | error => exact h
  | ok =>
    obtain ⟨sources, hlen, hpast, hwatch⟩ := h.watch
    refine ⟨h.allowed.concat (h.allowed_of_check hboot hintent hcheck),
      h.budget_attempt hintent repairOp, h.standing_attempt intent explicit repairOp,
      fun boot' hmem => ?_, sources, hlen, hpast, hwatch.replace hlen rfl⟩
    obtain hmem | hmem := List.mem_append.1 hmem
    · exact (h.shown boot' hmem).imp_right fun ⟨heq, hold⟩ =>
        ⟨heq, Journal.exposed_replace rfl hold⟩
    · cases List.mem_singleton.1 hmem

/-- The quarantine is lifted only where the log says that the backend was selected. -/
theorem standing_complete (h : During encodes past boot r) (result : NativeStartupResult) :
    Standing (r.complete result) := by
  intro backend last hlast hselected hreselected
  rw [Record.complete] at hlast ⊢
  cases hintent : r.journal.nativeStartup.bind (·.intent) with
  | none =>
    rw [hintent, Option.map_none, Option.toList_none, List.append_nil] at hlast
    refine Journal.completeNativeStartup_quarantine
      (h.standing backend last hlast hselected hreselected) fun i hi => ?_
    rw [hintent] at hi
    cases hi
  | some intent =>
    rw [hintent, Option.map_some, Option.toList_some, lastLoad_concat] at hlast
    by_cases hconfirms : intent.action = .load backend ∧ result.selection = some backend
    · -- Then the last load is marked, one way or the other.
      simp only [Event.updateLast, if_pos hconfirms] at hlast
      obtain ⟨l, -, rfl⟩ := Option.map_eq_some_iff.1 hlast
      split_ifs at hselected hreselected
    · simp only [Event.updateLast, if_neg hconfirms] at hlast
      refine Journal.completeNativeStartup_quarantine
        (h.standing backend last hlast hselected hreselected) fun i hi => ?_
      rw [hintent] at hi
      cases hi
      exact hconfirms

/-- A completion keeps what holds during the boot. -/
theorem complete (h : During encodes past boot r) (result : NativeStartupResult) :
    During encodes past boot (r.complete result) := by
  obtain ⟨sources, hlen, hpast, hwatch⟩ := h.watch
  have hlog : ∀ e ∈ ((r.journal.nativeStartup.bind (·.intent)).map
      (Event.completed · result.selection)).toList,
      ∃ intent, e = .completed intent result.selection := by
    intro e he
    obtain ⟨intent, -, rfl⟩ := Option.map_eq_some_iff.1 (Option.mem_toList.1 he)
    exact ⟨intent, rfl⟩
  refine ⟨?_, fun boot' intent explicit backend payload hmem hloads => ?_,
    h.standing_complete result, fun boot' hmem => ?_, sources, hlen, hpast, hwatch.complete result⟩
  · rw [Record.complete]
    cases r.journal.nativeStartup.bind (·.intent) with
    | none => exact (List.append_nil r.log).symm ▸ h.allowed
    | some intent => exact h.allowed.concat trivial
  · obtain hmem | hmem := List.mem_append.1 hmem
    · have hspent := Journal.completeNativeStartup_budget r.journal result
      rw [Record.complete, Journal.budgetSpent, hspent]
      exact h.loads boot' intent explicit backend payload hmem hloads
    · obtain ⟨_, heq⟩ := hlog _ hmem
      cases heq
  · obtain hmem | hmem := List.mem_append.1 hmem
    · exact (h.shown boot' hmem).imp_right fun ⟨heq, hold⟩ =>
        ⟨heq, Journal.exposed_complete result hold⟩
    · obtain ⟨_, heq⟩ := hlog _ hmem
      cases heq

/-- What holds during a boot is kept by all operations. -/
theorem step (h : During encodes past boot r) (hboot : boot ∉ past) (op : Operation) :
    During encodes past boot (r.step encodes others boot op) := by
  cases op with
  | attempt intent explicit repairOp => exact (h.attempt hboot rfl explicit repairOp).observe
  | complete result => exact (h.complete result).observe
  | noteExposure =>
    exact (h.same_log (j := r.journal.noteZygiskExposure boot) rfl rfl
      (fun _ => Journal.zygiskExposedIn_iff.2 (.inl rfl)) fun _ hlen _ hwatch =>
        hwatch.note hlen).observe
  | prune =>
    exact (h.same_log (j := r.journal.prune) rfl rfl id fun _ _ _ hwatch => hwatch.prune).observe
  | reload =>
    obtain ⟨sources, hlen, -, hwatch⟩ := h.watch
    exact (h.same_log (Journal.reload_loads _).1 (Journal.reload_loads _).2
      (fun hold => Journal.exposed_reload hwatch hlen hold) fun _ hlen hpast hwatch =>
        hwatch.reload hlen hpast).observe

end During

/-! ### Between boots -/

/-- A journal in which nothing names the boots to come, as it was read from disk. -/
structure Journal.Ready (encodes : Str → ℕ → Str → Bool) (past : List Str) (j : Journal) :
    Prop where
  evidence : ∀ b ∈ j.evidenceBoots, b ∈ past
  listed : ∀ b ∈ j.zygiskExposureBoots, b ∈ past
  authority : j.authorityOnRecord encodes = j.zygiskAuthority
  attempts : j.nativeAttempts.length ≤ maxNativeAttempts

/-- What holds of a record between boots. -/
structure Between (encodes : Str → ℕ → Str → Bool) (past : List Str) (r : Record) : Prop where
  allowed : AllAllowed r.log
  loads : ∀ boot intent explicit, .started boot intent explicit ∈ r.log → intent.loads.isSome →
    boot ∈ past
  standing : Standing r
  shown : ∀ boot, .exposed boot ∈ r.log → boot ∈ past
  ready : r.journal.Ready encodes past

namespace Between

variable {encodes : Str → ℕ → Str → Bool} {past : List Str} {r : Record} {boot : Str}

/-- A new boot can begin between two boots. -/
theorem enter (h : Between encodes past r) (hboot : boot ∉ past) : During encodes past boot r where
  allowed := h.allowed
  loads boot' intent explicit backend payload hmem hloads :=
    .inl (h.loads boot' intent explicit hmem (by rw [hloads]; rfl))
  standing := h.standing
  shown boot' hmem := .inl (h.shown boot' hmem)
  watch := ⟨r.journal.evidenceBoots, Journal.length_evidenceBoots_le h.ready.attempts,
    h.ready.evidence, {
    recent := fun hmem => absurd (h.ready.listed boot hmem) hboot
    evidence := fun b hb => .inr hb
    listed := fun b hb => .inr (h.ready.listed b hb)
    authority := h.ready.authority
    attempts := h.ready.attempts }⟩

/-- A boot that ends leaves what holds between two boots. -/
theorem leave (h : During encodes past boot r) : Between encodes (boot :: past) r := by
  obtain ⟨sources, -, hpast, hwatch⟩ := h.watch
  refine ⟨h.allowed, fun boot' intent explicit hmem hloads => ?_, h.standing, fun boot' hmem => ?_,
    ?_, ?_, hwatch.authority, hwatch.attempts⟩
  · obtain ⟨⟨backend, payload⟩, hload⟩ := Option.isSome_iff_exists.1 hloads
    obtain hp | ⟨rfl, -⟩ := h.loads boot' intent explicit backend payload hmem hload
    · exact List.mem_cons_of_mem _ hp
    · exact List.mem_cons_self
  · obtain hp | ⟨rfl, -⟩ := h.shown boot' hmem
    · exact List.mem_cons_of_mem _ hp
    · exact List.mem_cons_self
  · intro b hb
    obtain rfl | hb := hwatch.evidence b hb
    · exact List.mem_cons_self
    · exact List.mem_cons_of_mem _ (hpast b hb)
  · intro b hb
    obtain rfl | hb := hwatch.listed b hb
    · exact List.mem_cons_self
    · exact List.mem_cons_of_mem _ hb

end Between

/-! ## Main result -/

section Starts

variable (encodes : Str → ℕ → Str → Bool) (others : Journal → Bool)

/-- The budget, the quarantine and the exclusion of Zygisk, over every history of boots that
    starts with a journal as it was read, none of whose records names one of the boots: every
    start was allowed by what was logged before it. -/
theorem native_starts (journal : Journal) (h : History Str Operation) {past : List Str}
    (hready : journal.Ready encodes past) (hfresh : ∀ b ∈ h.boots, b ∉ past) :
    AllAllowed (h.replay (Record.step encodes others) ⟨journal, []⟩).log := by
  -- Between boots the record is ready for any boot that is not past; during one, nothing is loaded
  -- twice.
  have hstart : Between encodes past ⟨journal, []⟩ := {
    allowed := allAllowed_nil
    loads := fun _ _ _ hmem => absurd hmem List.not_mem_nil
    standing := fun _ _ hlast => by cases hlast
    shown := fun _ hmem => absurd hmem List.not_mem_nil
    ready := hready }
  have hstep (past : List Str) (boot : Str) (r : Record) (op : Operation)
      (hr : boot ∉ past ∧ During encodes past boot r) :
      boot ∉ past ∧ During encodes past boot (r.step encodes others boot op) :=
    ⟨hr.1, hr.2.step hr.1 op⟩
  -- The history alternates between the two.
  have hend := h.induct (P := Between encodes)
    (Q := fun past boot r => boot ∉ past ∧ During encodes past boot r)
    (fun past boot r hboot hr => ⟨hboot, hr.enter hboot⟩) hstep
    (fun past boot r hr => Between.leave hr.2) hstart hfresh
  exact hend.allowed

/-- An attempt to load the kernel module, with a payload or without. -/
def loadKmod (boot : Str) (payload : Option PayloadIdentity) : TransitionIntent :=
  ⟨none, boot, .load .kmod, payload, none, none⟩

/-- A payload is loaded in a first boot and fails; in a second one the module is selected
    although it was missing; in a third one the payload is loaded again. -/
def reselectedHistory : History Str Operation where
  sessions :=
    [(['a'], [.attempt (loadKmod [] (some ⟨[], ['1'], 1, none⟩)) false none,
        .complete ⟨⟨['a'], .loadFailed .kmod none, false⟩, none, none⟩]),
      (['b'], [.attempt (loadKmod [] none) false none,
        .complete ⟨⟨['b'], .other, false⟩, some .kmod, none⟩]),
      (['c'], [.attempt (loadKmod [] (some ⟨[], ['1'], 1, none⟩)) false none])]
  fresh := by decide

theorem empty_ready : Journal.empty.Ready (fun _ _ _ => false) [] where
  evidence b hb :=
    absurd hb (by simp [Journal.evidenceBoots, Journal.empty, Journal.bootstrapExposure,
      Daemon.Journal.empty])
  listed b hb := absurd hb List.not_mem_nil
  authority := rfl
  attempts := Nat.zero_le _

theorem native_starts_reselected :
    (reselectedHistory.replay (Record.step (fun _ _ _ => false) fun _ => true) ⟨.empty,
      []⟩).log.length = 5 ∧
      AllAllowed (reselectedHistory.replay (Record.step (fun _ _ _ => false) fun _ => true)
        ⟨.empty, []⟩).log :=
  ⟨by decide +kernel, native_starts _ _ .empty reselectedHistory empty_ready fun _ _ =>
    List.not_mem_nil⟩

/-- The completion that lifts the quarantine need not be that of the attempt that was last. -/
theorem native_starts_unselected :
    ¬∀ before boot intent explicit after,
      (reselectedHistory.replay (Record.step (fun _ _ _ => false) fun _ => true) ⟨.empty, []⟩).log =
          before ++ .started boot intent explicit :: after →
        ∀ backend payload, intent.loads = some (backend, payload) → explicit = false →
          ∀ last, lastLoad backend before = some last → last.sha256 = payload.sha256 →
          last.selected := by
  intro h
  have hlast := h
    [.started ['a'] (loadKmod ['a'] (some ⟨[], ['1'], 1, none⟩)) false,
      .completed (loadKmod ['a'] (some ⟨[], ['1'], 1, none⟩)) none,
      .started ['b'] (loadKmod ['b'] none) false, .completed (loadKmod ['b'] none) (some .kmod)]
    ['c'] (loadKmod ['c'] (some ⟨[], ['1'], 1, none⟩)) false [] rfl .kmod
    ⟨[], ['1'], 1, none⟩ rfl rfl
    ⟨['1'], false, true⟩ rfl rfl
  cases hlast

end Starts

end VpnHide.Native

import VpnHide.App.Coordinator

/-!
# Intents are not lost

An intent that is queued stays in the queue or active until its completion is delivered, once;
one at a time is executed, the end of its execution is noticed, and while an operation is held
only what recovery allows becomes active (`Coordinator.Sound`).

The readback of the operation that is held clears the active slot too. Where it finds a receipt
while another intent, one that recovery allows, is active, that intent is lost: the end of its
execution is discarded and its waiter hangs. `intents_sound_iff` says that this is the only way.
-/

namespace VpnHide.App

open Daemon

variable {P : Type}

/-! ## What a log shows -/

/-- The intents that have been accepted, in their order. -/
def acceptedIds (log : List Event) : List ℕ :=
  log.filterMap fun | .accepted id => some id | _ => none

/-- The intents that have been refused. -/
def refusedIds (log : List Event) : List ℕ :=
  log.filterMap fun | .refused id _ => some id | _ => none

/-- The intents that have been completed, in their order. -/
def completedIds (log : List Event) : List ℕ :=
  log.filterMap fun | .completed id _ => some id | _ => none

/-- The intents that have been submitted. -/
def submittedIds (log : List Event) : List ℕ :=
  log.filterMap fun | .submitted id => some id | _ => none

/-- The intents between their preparation and the end of their execution. -/
def executing (tasks : List (Task P)) : List ℕ :=
  tasks.filterMap fun | .execute request => some request.id | _ => none

namespace Coordinator

variable (c : Coordinator P)

/-- The queue and the active slot. -/
def waitingIds : List ℕ := c.queue.map (·.id) ++ (c.active.map (·.id)).toList

/-- What the log says of every intent. -/
structure Sound : Prop where
  /-- What was accepted is in the queue, active or completed, and in one of them only. -/
  placed : (c.waitingIds ++ completedIds c.log).Perm (acceptedIds c.log) ∧ (acceptedIds c.log).Nodup
  /-- A completion is delivered once. -/
  delivered : (completedIds c.log ++ refusedIds c.log).Nodup
  /-- Core is asked once for each, counting what is being executed. -/
  submitted : (submittedIds c.log ++ executing c.tasks).Nodup
  one : (executing c.tasks).length ≤ 1
  noticed : ∀ id, .discarded id ∉ c.log
  recovery : ∀ id allowed, .started id true allowed ∈ c.log → allowed = true

/-- The step is the end of a readback, and it resolves the operation that is held. -/
def resolves : Step P → Bool
  | .readback i reply _ =>
    match c.tasks[i]? with
    | some (.readback (some (request, some op))) =>
      c.held.any (fun held => held.1.id = request.id) &&
        (readbackOutcome op reply).failure ≠ some .applicationUnknown
    | _ => false
  | _ => false

/-- While a readback resolves what is held, no other intent is active. -/
def Keeps (step : Step P) : Prop := c.resolves step → c.active = none

/-! ## The books -/

/-- The intents that have a task, before or while they are executed. -/
def pending (tasks : List (Task P)) : List ℕ :=
  tasks.filterMap
    fun | .prepare request => some request.id | .execute request => some request.id | _ => none

/-- The part of the invariant that is about the books: every intent is in one place. -/
structure Books : Prop where
  placed : (c.waitingIds ++ completedIds c.log).Perm (acceptedIds c.log)
  fresh : (acceptedIds c.log ++ refusedIds c.log).Nodup
  bound : ∀ id ∈ acceptedIds c.log ++ refusedIds c.log, id < c.next
  once : (submittedIds c.log).Nodup
  noticed : ∀ id, .discarded id ∉ c.log
  recovery : ∀ id allowed, .started id true allowed ∈ c.log → allowed = true

/-- Between messages, the active intent has a task, and what was submitted is completed. -/
structure Good : Prop extends c.Books where
  tasks : pending c.tasks = (c.active.map (·.id)).toList
  submitted : ∀ id ∈ submittedIds c.log, id ∈ completedIds c.log

variable {c} {c' : Coordinator P}

/-- What is executing is waiting. -/
theorem executing_sublist (tasks : List (Task P)) : (executing tasks).Sublist (pending tasks) := by
  induction tasks with
  | nil => exact .slnil
  | cons task tasks ih =>
    cases task with
    | execute request => exact ih.cons_cons _
    | prepare request => exact ih.cons _
    | _ => exact ih

/-- What is completed was accepted. -/
theorem Books.completed_accepted (h : c.Books) {id : ℕ} (hid : id ∈ completedIds c.log) :
    id ∈ acceptedIds c.log :=
  h.placed.subset (List.mem_append_right _ hid)

/-- No intent waits twice, or waits and is completed. -/
theorem Books.waiting_nodup (h : c.Books) : (c.waitingIds ++ completedIds c.log).Nodup :=
  h.placed.nodup_iff.2 (List.nodup_append.1 h.fresh).1

/-- What is active is not completed. -/
theorem Books.active_notMem (h : c.Books) {id : ℕ} (hactive : c.active.map (·.id) = some id) :
    id ∉ completedIds c.log := by
  intro hid
  refine (List.nodup_append.1 h.waiting_nodup).2.2 id ?_ id hid rfl
  rw [waitingIds, hactive]
  simp

/-- The invariant gives what is wanted. -/
theorem Good.sound (h : c.Good) : c.Sound where
  placed := ⟨h.placed, (List.nodup_append.1 h.fresh).1⟩
  delivered := by
    obtain ⟨-, hrefused, hdisjoint⟩ := List.nodup_append.1 h.fresh
    refine List.nodup_append.2 ⟨(List.nodup_append.1 h.waiting_nodup).2.1,
      hrefused, fun id hid => ?_⟩
    exact hdisjoint id (h.completed_accepted hid)
  submitted := by
    have htasks := h.tasks ▸ executing_sublist c.tasks
    refine List.nodup_append.2 ⟨h.once, ?_, fun id hid id' hid' heq => ?_⟩
    · refine List.Nodup.sublist htasks ?_
      cases c.active <;> simp
    · subst heq
      have hactive : c.active.map (·.id) = some id := by simpa using htasks.subset hid'
      exact h.active_notMem hactive (h.submitted id hid)
  one := by
    have htasks := (h.tasks ▸ executing_sublist c.tasks).length_le
    refine htasks.trans ?_
    cases c.active <;> simp
  noticed := h.noticed
  recovery := h.recovery

/-- The invariant holds at the start. -/
theorem start_good : (start : Coordinator P).Good where
  placed := .nil
  fresh := .nil
  bound _ hid := absurd hid List.not_mem_nil
  once := .nil
  noticed _ := List.not_mem_nil
  recovery _ _ hstarted := absurd hstarted List.not_mem_nil
  tasks := rfl
  submitted _ hid := absurd hid List.not_mem_nil

/-! ## Quiet changes -/

/-- What does not concern the intents. -/
structure Quiet (c c' : Coordinator P) : Prop where
  queue : c'.queue = c.queue
  active : c'.active.map (·.id) = c.active.map (·.id)
  tasks : pending c'.tasks = pending c.tasks
  log : c'.log = c.log
  next : c'.next = c.next

namespace Quiet

variable {c'' : Coordinator P}

/-- Nothing has happened. -/
theorem refl (c : Coordinator P) : Quiet c c := ⟨rfl, rfl, rfl, rfl, rfl⟩

/-- Several things that leave the intents alone. -/
theorem trans (h : Quiet c c') (h' : Quiet c' c'') : Quiet c c'' :=
  ⟨h'.queue.trans h.queue, h'.active.trans h.active, h'.tasks.trans h.tasks, h'.log.trans h.log,
    h'.next.trans h.next⟩

/-- What waits stays as it is. -/
theorem waitingIds (h : Quiet c c') : c'.waitingIds = c.waitingIds := by
  rw [Coordinator.waitingIds, h.queue, h.active, Coordinator.waitingIds]

/-- The books stay as they are. -/
theorem books (h : Quiet c c') (hc : c.Books) : c'.Books where
  placed := by
    rw [h.waitingIds, h.log]
    exact hc.placed
  fresh := h.log ▸ hc.fresh
  bound := by
    rw [h.log, h.next]
    exact hc.bound
  once := h.log ▸ hc.once
  noticed := h.log ▸ hc.noticed
  recovery := h.log ▸ hc.recovery

/-- The invariant is kept by what leaves the intents alone. -/
theorem good (h : Quiet c c') (hc : c.Good) : c'.Good where
  toBooks := h.books hc.toBooks
  tasks := by
    rw [h.tasks, h.active]
    exact hc.tasks
  submitted := h.log ▸ hc.submitted

theorem publish (c : Coordinator P) : Quiet c c.publish := ⟨rfl, rfl, rfl, rfl, rfl⟩

theorem launch_recheck (c : Coordinator P) (pending : Option (ConfigIntentRequest P × Option ℕ)) :
    Quiet c (c.launch (.recheck pending)) :=
  ⟨rfl, rfl, by simp [launch, Coordinator.pending], rfl, rfl⟩

/-- Reading again leaves the intents alone. -/
theorem retryReadback (c : Coordinator P) : Quiet c c.retryReadback := by
  rw [Coordinator.retryReadback]
  split_ifs
  · exact .refl c
  · have hset : Quiet c { c with rechecking := true } := ⟨rfl, rfl, rfl, rfl, rfl⟩
    exact hset.trans (.launch_recheck _ _)

/-- So does a look at a held operation. -/
theorem observeHeldOperation (c : Coordinator P) (update : CoreSessionUpdate) :
    Quiet c (c.observeHeldOperation update) := by
  rw [Coordinator.observeHeldOperation]
  split
  · split_ifs
    · exact .retryReadback c
    · exact .refl c
  · exact .refl c

end Quiet

/-! ## Moves -/

/-- The books after some events. -/
theorem Books.append (h : c.Books) (events : List Event) (hlog : c'.log = c.log ++ events)
    (hplaced : (c'.waitingIds ++ (completedIds c.log ++ completedIds events)).Perm
      (acceptedIds c.log ++ acceptedIds events))
    (hfresh : ((acceptedIds c.log ++ refusedIds c.log) ++
      (acceptedIds events ++ refusedIds events)).Nodup)
    (hnext : c.next ≤ c'.next)
    (hbound : ∀ id ∈ acceptedIds events ++ refusedIds events, id < c'.next)
    (honce : (submittedIds c.log ++ submittedIds events).Nodup)
    (hnoticed : ∀ id, .discarded id ∉ events)
    (hrecovery : ∀ id allowed, .started id true allowed ∈ events → allowed = true) : c'.Books := by
  have hids : ((acceptedIds c.log ++ acceptedIds events) ++
      (refusedIds c.log ++ refusedIds events)).Perm
      ((acceptedIds c.log ++ refusedIds c.log) ++ (acceptedIds events ++ refusedIds events)) := by
    rw [List.append_assoc, List.append_assoc, ← List.append_assoc (acceptedIds events),
      ← List.append_assoc (refusedIds c.log)]
    exact (List.perm_append_comm.append_right _).append_left _
  rw [acceptedIds, refusedIds] at hids
  constructor
  · rw [hlog, completedIds, acceptedIds, List.filterMap_append, List.filterMap_append]
    exact hplaced
  · rw [hlog, acceptedIds, refusedIds, List.filterMap_append, List.filterMap_append]
    exact hids.nodup_iff.2 hfresh
  · rw [hlog, acceptedIds, refusedIds, List.filterMap_append, List.filterMap_append]
    intro id hid
    obtain hid | hid := List.mem_append.1 (hids.subset hid)
    · exact (h.bound id hid).trans_le hnext
    · exact hbound id hid
  · rw [hlog, submittedIds, List.filterMap_append]
    exact honce
  · intro id hid
    rw [hlog] at hid
    obtain hid | hid := List.mem_append.1 hid
    · exact h.noticed id hid
    · exact hnoticed id hid
  · intro id allowed hstarted
    rw [hlog] at hstarted
    obtain hstarted | hstarted := List.mem_append.1 hstarted
    · exact h.recovery id allowed hstarted
    · exact hrecovery id allowed hstarted

/-- What was submitted and completed stays so. -/
theorem submitted_append (c : Coordinator P) (events : List Event) (hlog : c'.log = c.log ++ events)
    (h : ∀ id ∈ submittedIds c.log ++ submittedIds events, id ∈ completedIds c.log ++
      completedIds events) :
    ∀ id ∈ submittedIds c'.log, id ∈ completedIds c'.log := by
  rw [hlog, submittedIds, completedIds, List.filterMap_append, List.filterMap_append]
  exact h

/-- What starting the next intent does. -/
theorem startNext_cases (c : Coordinator P) :
    c.startNext = c ∨ ∃ request queue allowed, c.queue = request :: queue ∧ c.active = none ∧
      (c.held.isSome = true → allowed = true) ∧ c.startNext.queue = queue ∧
      c.startNext.active = some request ∧
      pending c.startNext.tasks = pending c.tasks ++ [request.id] ∧
      c.startNext.log = c.log ++ [.started request.id c.held.isSome allowed] ∧
      c.startNext.next = c.next := by
  rw [startNext]
  split
  next => exact .inl rfl
  next request queue hqueue =>
    split_ifs with hactive hheld
    · exact .inl rfl
    · exact .inl rfl
    · exact .inl rfl
    · refine .inr ⟨request, queue, recoveryAllowed c.access request.mutation, hqueue, ?_,
        fun hsome => ?_, rfl, rfl, ?_, rfl, rfl⟩
      · simp only [Bool.or_eq_true, not_or] at hactive
        simpa using hactive.1
      · simpa [hsome] using hheld
      · simp [launch, publish, note, pending]

/-- While an intent is active, no other one starts. -/
theorem startNext_of_active (h : c.active.isSome) : c.startNext = c := by
  obtain heq | ⟨_, _, _, _, hactive, -⟩ := c.startNext_cases
  · exact heq
  · rw [hactive] at h
    cases h

/-- The invariant is kept when the next intent starts. -/
theorem Good.startNext (h : c.Good) : c.startNext.Good := by
  obtain heq | ⟨request, queue, allowed, hqueue, hactive, hallowed, hq, ha, htasks, hlog, hnext⟩ :=
    c.startNext_cases
  · rw [heq]
    exact h
  · have hwaiting : c.startNext.waitingIds.Perm c.waitingIds := by
      rw [waitingIds, waitingIds, hq, ha, hqueue, hactive]
      simp
    refine ⟨h.toBooks.append _ hlog ?_ ?_ hnext.ge ?_ ?_ ?_ ?_, ?_, submitted_append c _ hlog ?_⟩
    · simpa [completedIds, acceptedIds] using (hwaiting.append_right _).trans h.placed
    · simpa [acceptedIds, refusedIds] using h.fresh
    · simp [acceptedIds, refusedIds]
    · simpa [submittedIds] using h.once
    · simp
    · intro id allowed' hstarted
      simp only [List.mem_singleton, Event.started.injEq] at hstarted
      obtain ⟨-, hheld, rfl⟩ := hstarted
      exact hallowed hheld.symm
    · rw [htasks, h.tasks, hactive, ha]
      rfl
    · simpa [submittedIds, completedIds] using h.submitted

theorem quiet_observed (c : Coordinator P) (update : CoreSessionUpdate) :
    Quiet c (({ c with publication := update } : Coordinator P).publish.observeHeldOperation
      update) := by
  have hset : Quiet c { c with publication := update } := ⟨rfl, rfl, rfl, rfl, rfl⟩
  exact (hset.trans (.publish _)).trans (.observeHeldOperation _ _)

/-- The invariant is kept by a publication. -/
theorem Good.acceptPublication (h : c.Good) (update : CoreSessionUpdate) :
    (c.acceptPublication update).Good :=
  ((quiet_observed c update).good h).startNext

/-- The invariant is kept by a reply. -/
theorem Good.updateFromReply (h : c.Good) (update : CoreSessionUpdate) :
    (c.updateFromReply update).Good := by
  rw [Coordinator.updateFromReply]
  split_ifs
  · exact h.acceptPublication update
  · exact h

/-- While an intent is active, a publication starts nothing. -/
theorem quiet_updateFromReply (h : (c.active.map (·.id)).isSome) (update : CoreSessionUpdate) :
    Quiet c (c.updateFromReply update) := by
  rw [Coordinator.updateFromReply]
  split_ifs
  · have hquiet := quiet_observed c update
    rw [Coordinator.acceptPublication, startNext_of_active]
    · exact hquiet
    · rw [← hquiet.active] at h
      simpa using h
  · exact .refl c

/-- The invariant is kept at the end of `initialize`. -/
theorem Good.initialized (h : c.Good) (update : CoreSessionUpdate) :
    (c.initialized update).Good := by
  have hset : Quiet c { c with initializing := false } := ⟨rfl, rfl, rfl, rfl, rfl⟩
  exact ((Quiet.publish _).good ((hset.good h).updateFromReply update)).startNext

/-- The invariant is kept when Core is initialised. -/
theorem Good.initializeCore (h : c.Good) (prepareCore : Bool) (update : CoreSessionUpdate) :
    (c.initializeCore prepareCore update).Good := by
  rw [Coordinator.initializeCore]
  split_ifs
  · exact h
  · have hset : Quiet c
        ((({ c with attached := true, initializing := true } : Coordinator P).publish).launch
          .initializeRead) :=
      ⟨rfl, rfl, by simp [launch, publish, pending], rfl, rfl⟩
    exact hset.good h
  · exact h.initialized update

/-- The invariant is kept by a submission. -/
theorem Good.submit (h : c.Good) (mutation : CanonicalMutation P) : (c.submit mutation).Good := by
  have hnew : ((acceptedIds c.log ++ refusedIds c.log) ++ [c.next]).Nodup := by
    refine List.nodup_append.2 ⟨h.fresh, by simp, fun id hid id' hid' => ?_⟩
    rw [List.mem_singleton.1 hid']
    exact (h.bound id hid).ne
  have hnext : ∀ id ∈ [c.next], id < c.next + 1 := by simp
  rw [Coordinator.submit]
  split
  next reason _ =>
    refine ⟨h.toBooks.append [.refused c.next reason] rfl ?_ hnew (Nat.le_succ _) hnext ?_ ?_ ?_,
      h.tasks, submitted_append c [.refused c.next reason] rfl ?_⟩
    · simpa [completedIds, acceptedIds, note, publish, waitingIds] using h.placed
    · simpa [submittedIds] using h.once
    · simp
    · simp
    · simpa [submittedIds, completedIds] using h.submitted
  next =>
    refine Good.startNext ((Quiet.publish _).good ?_)
    refine ⟨h.toBooks.append [.accepted c.next] rfl ?_ hnew (Nat.le_succ _) hnext ?_ ?_ ?_, h.tasks,
      submitted_append c [.accepted c.next] rfl ?_⟩
    · have hplaced :
          ((c.waitingIds ++ completedIds c.log) ++ [c.next]).Perm (acceptedIds c.log ++ [c.next]) :=
        h.placed.append_right _
      refine List.Perm.trans ?_ hplaced
      simp only [note, publish, waitingIds, completedIds, List.map_append, List.map_cons,
        List.map_nil, List.filterMap_cons, List.filterMap_nil, List.append_nil, List.append_assoc]
      refine List.Perm.append_left _ ?_
      rw [← List.append_assoc _ _ [c.next]]
      exact List.perm_append_comm
    · simpa [submittedIds] using h.once
    · simp
    · simp
    · simpa [submittedIds, completedIds] using h.submitted

/-! ## The end of an intent -/

/-- What is left of a coordinator when an intent has ended, before the next one is started. -/
structure Cleared (c : Coordinator P) (events : List Event) (c' : Coordinator P) : Prop where
  active : c'.active = none
  tasks : pending c'.tasks = pending c.tasks
  log : c'.log = c.log ++ events
  next : c'.next = c.next

theorem Cleared.quiet {events : List Event} {c'' : Coordinator P} (h : Cleared c events c')
    (hquiet : Quiet c' c'') :
    Cleared c events c'' := by
  refine ⟨?_, hquiet.tasks.trans h.tasks, hquiet.log.trans h.log, hquiet.next.trans h.next⟩
  have hactive := hquiet.active
  rw [h.active] at hactive
  simpa using hactive

theorem quiet_observeUncertain (c : Coordinator P) (outcome : ConfigIntentOutcome) :
    Quiet c (c.publish.observeUncertain outcome) := by
  refine (Quiet.publish c).trans ?_
  rw [observeUncertain]
  split_ifs
  · exact .observeHeldOperation _ _
  · exact .refl _

/-- The end of an execution. Either the queue stays, or all of it is completed. -/
theorem settle_finished (c : Coordinator P) (request : ConfigIntentRequest P)
    (outcome : ConfigIntentOutcome) :
    ∃ c' paused result, c.settle request outcome false = c'.startNext ∧
      Cleared c (.completed request.id result :: paused) c' ∧
      ((c'.queue = c.queue ∧ paused = []) ∨ (c'.queue = [] ∧ paused = c.queue.map fun request =>
        .completed request.id ⟨request.id, [], some .mutationPaused, [], false⟩)) := by
  let request' := { request with conflicts := request.conflicts ++ c.conflicts request }
  let result := c.result request' outcome
  let c₁ := c.ended request' outcome (.completed request.id result)
  have hquiet := quiet_observeUncertain c₁.pauseIfHeld outcome
  refine ⟨c₁.pauseIfHeld.publish.observeUncertain outcome, ?_⟩
  by_cases hheld : c₁.held.isSome
  · have hpause : c₁.pauseIfHeld = c₁.pauseQueuedIntents := if_pos hheld
    rw [hpause] at hquiet ⊢
    have hcleared : Cleared c (.completed request.id result :: c.queue.map fun request =>
        .completed request.id ⟨request.id, [], some .mutationPaused, [], false⟩)
          c₁.pauseQueuedIntents :=
      ⟨rfl, rfl, by simp [pauseQueuedIntents, c₁, ended, note], rfl⟩
    exact ⟨_, result, congrArg (fun c => (c.publish.observeUncertain outcome).startNext) hpause,
      hcleared.quiet hquiet, .inr ⟨hquiet.queue, rfl⟩⟩
  · have hpause : c₁.pauseIfHeld = c₁ := if_neg hheld
    rw [hpause] at hquiet ⊢
    have hcleared : Cleared c [.completed request.id result] c₁ := ⟨rfl, rfl, rfl, rfl⟩
    exact ⟨[], result, congrArg (fun c => (c.publish.observeUncertain outcome).startNext) hpause,
      hcleared.quiet hquiet, .inl ⟨hquiet.queue, rfl⟩⟩

/-- The end of a readback that finds a receipt. Whatever was active is not any more. -/
theorem settle_recovered {outcome : ConfigIntentOutcome} (hheld : c.held = none)
    (hknown : outcome.failure ≠ some .applicationUnknown) (request : ConfigIntentRequest P) :
    ∃ c' result, c.settle request outcome true = c'.startNext ∧ Cleared c [.recovered result] c' ∧
      c'.queue = c.queue := by
  let request' := { request with conflicts := request.conflicts ++ c.conflicts request }
  let result := c.result request' outcome
  let c₁ := c.ended request' outcome (.recovered result)
  have hafter : c₁.held = none := by
    change c.heldAfter request' outcome = none
    rw [heldAfter, if_neg hknown, hheld, ite_self]
  have hpause : c₁.pauseIfHeld = c₁ := if_neg (by simp [hafter])
  have hquiet := quiet_observeUncertain c₁ outcome
  have hcleared : Cleared c [.recovered result] c₁ := ⟨rfl, rfl, rfl, rfl⟩
  exact ⟨c₁.publish.observeUncertain outcome, result,
    congrArg (fun c => (c.publish.observeUncertain outcome).startNext) hpause,
    hcleared.quiet hquiet, hquiet.queue⟩

/-- What is paused is completed. -/
theorem completedIds_paused (queue : List (ConfigIntentRequest P)) :
    completedIds (queue.map fun request =>
      .completed request.id ⟨request.id, [], some .mutationPaused, [], false⟩) =
      queue.map (·.id) := by
  rw [completedIds, List.filterMap_map]
  exact List.filterMap_eq_map'.symm ▸ rfl

/-- Paused intents are completed, and nothing else happens to them. -/
theorem pausedIds (queue : List (ConfigIntentRequest P)) :
    let paused := queue.map fun request =>
      Event.completed request.id ⟨request.id, [], some .mutationPaused, [], false⟩
    acceptedIds paused = [] ∧ refusedIds paused = [] ∧ submittedIds paused = [] ∧
      (∀ id, .discarded id ∉ paused) ∧ ∀ id allowed, .started id true allowed ∉ paused := by
  simp [acceptedIds, refusedIds, submittedIds]

/-- The active intent ends, and its task has gone. -/
theorem Books.settle (h : c.Books) {request : ConfigIntentRequest P}
    (hactive : c.active.map (·.id) = some request.id) (htasks : pending c.tasks = [])
    (hsubmitted : ∀ id ∈ submittedIds c.log, id ∈ completedIds c.log ∨ id = request.id)
    (outcome : ConfigIntentOutcome) : (c.settle request outcome false).Good := by
  obtain ⟨c', paused, result, hsettle, hcleared, hqueue⟩ := c.settle_finished request outcome
  have hempty : acceptedIds paused = [] ∧ refusedIds paused = [] ∧ submittedIds paused = [] ∧
      (∀ id, .discarded id ∉ paused) ∧ ∀ id allowed, .started id true allowed ∉ paused := by
    obtain ⟨-, rfl⟩ | ⟨-, rfl⟩ := hqueue
    · simp [acceptedIds, refusedIds, submittedIds]
    · exact pausedIds c.queue
  obtain ⟨haccepted, hrefused, hsubmit, hdiscarded, hstarted⟩ := hempty
  -- the queue that is left and what was paused of it
  have hleft : (c'.queue.map (·.id) ++ completedIds paused) = c.queue.map (·.id) := by
    obtain ⟨hqueue, rfl⟩ | ⟨hqueue, rfl⟩ := hqueue
    · rw [hqueue]
      simp [completedIds]
    · rw [hqueue, completedIds_paused]
      rfl
  rw [hsettle]
  refine Good.startNext ⟨h.append _ hcleared.log ?_ ?_ hcleared.next.ge ?_ ?_ ?_ ?_, ?_,
    submitted_append c _ hcleared.log ?_⟩
  · have hcompleted : completedIds (.completed request.id result :: paused) = request.id ::
        completedIds paused := rfl
    have hacc : acceptedIds (.completed request.id result :: paused) = [] := haccepted
    have hplaced := h.placed
    rw [waitingIds, hactive, ← hleft] at hplaced
    rw [waitingIds, hcleared.active, hcompleted, hacc, List.append_nil]
    refine List.Perm.trans ?_ hplaced
    simp only [Option.map_none, Option.toList_none, Option.toList_some,
      List.append_nil, List.append_assoc]
    exact (List.perm_append_comm.trans List.perm_middle.symm).append_left _
  · change ((acceptedIds c.log ++ refusedIds c.log) ++
        (acceptedIds paused ++ refusedIds paused)).Nodup
    rw [haccepted, hrefused]
    simpa using h.fresh
  · change ∀ id ∈ acceptedIds paused ++ refusedIds paused, id < c'.next
    rw [haccepted, hrefused]
    simp
  · change (submittedIds c.log ++ submittedIds paused).Nodup
    rw [hsubmit]
    simpa using h.once
  · intro id hid
    obtain hid | hid := List.mem_cons.1 hid
    · cases hid
    · exact hdiscarded id hid
  · intro id allowed hid
    obtain hid | hid := List.mem_cons.1 hid
    · cases hid
    · exact absurd hid (hstarted id allowed)
  · rw [hcleared.tasks, htasks, hcleared.active]
    rfl
  · change ∀ id ∈ submittedIds c.log ++ submittedIds paused, id ∈ completedIds c.log ++
        request.id :: completedIds paused
    rw [hsubmit, List.append_nil]
    intro id hid
    obtain hid | rfl := hsubmitted id hid
    · exact List.mem_append_left _ hid
    · exact List.mem_append_right _ List.mem_cons_self

/-- A readback resolves what is held while nothing is active. -/
theorem Good.settle_recovered (h : c.Good) (hactive : c.active = none) (hheld : c.held = none)
    {outcome : ConfigIntentOutcome} (hknown : outcome.failure ≠ some .applicationUnknown)
    (request : ConfigIntentRequest P) : (c.settle request outcome true).Good := by
  obtain ⟨c', result, hsettle, hcleared, hqueue⟩ :=
    Coordinator.settle_recovered hheld hknown request
  rw [hsettle]
  refine Good.startNext ⟨h.toBooks.append _ hcleared.log ?_ ?_ hcleared.next.ge ?_ ?_ ?_ ?_, ?_,
    submitted_append c _ hcleared.log ?_⟩
  · have hwaiting : c'.waitingIds = c.waitingIds := by
      rw [waitingIds, hqueue, hcleared.active, waitingIds, hactive]
    rw [hwaiting]
    simpa [completedIds, acceptedIds] using h.placed
  · simpa [acceptedIds, refusedIds] using h.fresh
  · simp [acceptedIds, refusedIds]
  · simpa [submittedIds] using h.once
  · simp
  · simp
  · rw [hcleared.tasks, h.tasks, hactive, hcleared.active]
  · simpa [submittedIds, completedIds] using h.submitted

/-- Otherwise what is active is nowhere any more. -/
theorem not_sound_settle_recovered (h : c.Books) (hactive : c.active ≠ none) (hheld : c.held = none)
    {outcome : ConfigIntentOutcome} (hknown : outcome.failure ≠ some .applicationUnknown)
    (request : ConfigIntentRequest P) : ¬ (c.settle request outcome true).Sound := by
  obtain ⟨c', result, hsettle, hcleared, hqueue⟩ :=
    Coordinator.settle_recovered hheld hknown request
  rw [hsettle]
  intro hsound
  have hlength := hsound.placed.1.length_eq
  have hbefore := h.placed.length_eq
  obtain ⟨active, hsome⟩ := Option.ne_none_iff_exists'.1 hactive
  have hwaiting : c'.startNext.waitingIds.length = c.queue.length ∧
      completedIds c'.startNext.log = completedIds c.log ∧
      acceptedIds c'.startNext.log = acceptedIds c.log := by
    obtain heq | ⟨next, queue, allowed, hq, -, -, hq', ha, -, hlog, -⟩ := c'.startNext_cases
    · rw [heq, waitingIds, hqueue, hcleared.active, hcleared.log]
      simp [completedIds, acceptedIds]
    · rw [hqueue] at hq
      rw [waitingIds, hq', ha, hlog, hcleared.log, hq]
      simp [completedIds, acceptedIds]
  rw [List.length_append, hwaiting.1, hwaiting.2.1, hwaiting.2.2] at hlength
  rw [List.length_append, waitingIds, hsome] at hbefore
  simp at hbefore
  omega

/-! ## Steps -/

/-- One task among those that wait. -/
theorem pending_split {i : ℕ} {task : Task P} (htask : c.tasks[i]? = some task) :
    pending c.tasks = pending (c.tasks.take i) ++
        (pending [task] ++ pending (c.tasks.drop (i + 1))) ∧
      pending (c.endTask i).tasks =
        pending (c.tasks.take i) ++ pending (c.tasks.drop (i + 1)) := by
  obtain ⟨hlt, hget⟩ := List.getElem?_eq_some_iff.1 htask
  constructor
  · rw [← hget]
    simp only [pending, ← List.filterMap_append]
    rw [List.singleton_append, List.getElem_cons_drop, List.take_append_drop]
  · rw [endTask, List.eraseIdx_eq_take_drop_succ, pending, List.filterMap_append]
    rfl

/-- The task of an intent is the only one, and its intent is active. -/
theorem Good.task (h : c.Good) {i : ℕ} {task : Task P} {id : ℕ} (htask : c.tasks[i]? = some task)
    (hid : pending [task] = [id]) :
    c.active.map (·.id) = some id ∧ pending (c.endTask i).tasks = [] := by
  obtain ⟨hsplit, herase⟩ := pending_split htask
  have htasks := h.tasks
  rw [hsplit, hid] at htasks
  cases hactive : c.active.map (·.id) with
  | none => simp [hactive] at htasks
  | some id' =>
    rw [hactive] at htasks
    have hlength := congrArg List.length htasks
    simp only [List.length_append, List.length_singleton, Option.toList_some] at hlength
    have hbefore : pending (c.tasks.take i) = [] := List.length_eq_zero_iff.1 (by omega)
    have hafter : pending (c.tasks.drop (i + 1)) = [] := List.length_eq_zero_iff.1 (by omega)
    rw [hbefore, hafter] at htasks herase
    simp only [List.nil_append, List.append_nil, Option.toList_some, List.cons.injEq, and_true]
      at htasks
    exact ⟨by rw [htasks], herase⟩

/-- The end of another task. -/
theorem quiet_endTask {i : ℕ} {task : Task P} (htask : c.tasks[i]? = some task)
    (hpending : pending [task] = []) :
    Quiet c (c.endTask i) := by
  obtain ⟨hsplit, herase⟩ := pending_split htask
  refine ⟨rfl, rfl, ?_, rfl, rfl⟩
  rw [herase, hsplit, hpending, List.nil_append]

variable {prepareIntent : RootCanonicalRead → CanonicalMutation P →
  Except TransitionFailure (List ConfigField)}

/-- An intent that is prepared is executed, or has ended. -/
theorem Books.prepareActive (h : c.Books) {request : ConfigIntentRequest P}
    (hactive : c.active.map (·.id) = some request.id) (htasks : pending c.tasks = [])
    (hsubmitted : ∀ id ∈ submittedIds c.log, id ∈ completedIds c.log) (observed : Bool) :
    (c.prepareActive prepareIntent request observed).Good := by
  have hsettled (outcome : ConfigIntentOutcome) : (c.settle request outcome false).Good :=
    h.settle hactive htasks (fun id hid => .inl (hsubmitted id hid)) outcome
  rw [Coordinator.prepareActive]
  split
  next => exact hsettled _
  next state _ =>
    split
    next reason _ => exact hsettled _
    next writes _ =>
      let request₁ := { request with writes }
      let request₂ := { request₁ with conflicts := c.conflicts request₁ }
      have hquiet : Quiet c { c with active := some request₂ } := ⟨rfl, hactive.symm, rfl, rfl, rfl⟩
      simp only
      split_ifs
      · exact (hquiet.books h).settle rfl htasks (fun id hid => .inl (hsubmitted id hid)) _
      · have hbooks := hquiet.books h
        refine ⟨⟨hbooks.placed, hbooks.fresh, hbooks.bound, hbooks.once, hbooks.noticed,
          hbooks.recovery⟩, ?_, hsubmitted⟩
        have hlaunch :
            pending (c.tasks ++ [.execute request₂]) = pending c.tasks ++ [request.id] := by
          simp [pending, request₂, request₁]
        exact hlaunch.trans (by rw [htasks]; rfl)

/-- The invariant is kept when a preparation comes back. -/
theorem Good.prepared (h : c.Good) {i : ℕ} {request : ConfigIntentRequest P}
    (htask : c.tasks[i]? = some (.prepare request)) (observed : Bool) (update : CoreSessionUpdate) :
    ((c.endTask i).prepared prepareIntent request.id observed update).Good := by
  obtain ⟨hactive, htasks⟩ := h.task htask rfl
  have hbooks : (c.endTask i).Books := ⟨h.placed, h.fresh, h.bound, h.once, h.noticed, h.recovery⟩
  rw [Coordinator.prepared]
  split
  next hnone =>
    change c.active = none at hnone
    simp [hnone] at hactive
  next active hsome =>
    change c.active = some active at hsome
    have hid : active.id = request.id := by simpa [hsome] using hactive
    rw [if_pos hid]
    have hactive' : (c.endTask i).active.map (·.id) = some active.id :=
      congrArg (Option.map (·.id)) hsome
    have hquiet := quiet_updateFromReply (Option.isSome_iff_exists.2 ⟨_, hactive'⟩) update
    refine (hquiet.books hbooks).prepareActive (hquiet.active.trans hactive')
      (hquiet.tasks.trans htasks) ?_ observed
    rw [hquiet.log]
    exact h.submitted

/-- The invariant is kept when an execution comes back. -/
theorem Good.executed (h : c.Good) {i : ℕ} {request : ConfigIntentRequest P}
    (htask : c.tasks[i]? = some (.execute request)) (execution : Execution) :
    (((c.endTask i).note (submissions request.id execution)).finished request.id
      (executeIntent execution)).Good := by
  obtain ⟨hactive, htasks⟩ := h.task htask rfl
  -- The request that runs has not been submitted before.
  have hnew : request.id ∉ submittedIds c.log :=
    fun hid => h.active_notMem hactive (h.submitted _ hid)
  have hevents : acceptedIds (submissions request.id execution) = [] ∧
      refusedIds (submissions request.id execution) = [] ∧
      completedIds (submissions request.id execution) = [] ∧
      (∀ id ∈ submittedIds (submissions request.id execution), id = request.id) ∧
      (submittedIds (submissions request.id execution)).Nodup ∧
      (∀ id, .discarded id ∉ submissions request.id execution) ∧
      ∀ id allowed, .started id true allowed ∉ submissions request.id execution := by
    cases execution <;> simp [submissions, acceptedIds, refusedIds, completedIds, submittedIds]
  obtain ⟨haccepted, hrefused, hcompleted, hsubmitted, hnodup, hdiscarded, hstarted⟩ := hevents
  -- The events of the execution keep the books balanced.
  have hbooks : ((c.endTask i).note (submissions request.id execution)).Books := by
    refine h.toBooks.append _ rfl ?_ ?_ le_rfl ?_ ?_ hdiscarded fun id allowed hid =>
      absurd hid (hstarted id allowed)
    · rw [haccepted, hcompleted, List.append_nil, List.append_nil]
      exact h.placed
    · rw [haccepted, hrefused, List.append_nil, List.append_nil]
      exact h.fresh
    · rw [haccepted, hrefused]
      simp
    · refine List.nodup_append.2 ⟨h.once, hnodup, fun id hid id' hid' heq => hnew ?_⟩
      rw [← hsubmitted id' hid', ← heq]
      exact hid
  rw [finished]
  -- The active request is the one whose execution has come back, as no other task runs.
  split
  next active hsome =>
    change c.active = some active at hsome
    have hid : active.id = request.id := by simpa [hsome] using hactive
    rw [if_pos hid]
    refine hbooks.settle (congrArg (Option.map (·.id)) hsome) htasks (fun id hid' => ?_) _
    simp only [note, endTask, submittedIds, completedIds, List.filterMap_append, List.mem_append]
      at hid' ⊢
    obtain hid' | hid' := hid'
    · exact .inl (.inl (h.submitted id hid'))
    · exact .inr ((hsubmitted id hid').trans hid.symm)
  next hnone =>
    change c.active = none at hnone
    simp [hnone] at hactive

/-- A draft leaves the intents alone. -/
theorem quiet_draft (c : Coordinator P) (id : ℕ) (fields : List ConfigField) :
    Quiet c (c.draft id fields) := by
  refine ⟨rfl, ?_, rfl, rfl, rfl⟩
  rw [draft, Option.map_map]
  rfl

/-- A readback that does not resolve what is held. -/
theorem recovered_quiet {id : ℕ} {outcome : ConfigIntentOutcome}
    (h : c.held.all fun held => held.1.id ≠ id || outcome.failure = some .applicationUnknown) :
    Quiet c (c.recovered id outcome) := by
  rw [recovered]
  split
  next => exact .refl c
  next request op hheld =>
    simp only [hheld, Option.all_some, Bool.or_eq_true, decide_eq_true_eq] at h
    split_ifs with hid hunknown
    · exact .refl c
    · exact ⟨rfl, rfl, rfl, rfl, rfl⟩
    · exact absurd (h.resolve_left hid) hunknown

/-- A readback that does. -/
theorem recovered_settle {id : ℕ} {outcome : ConfigIntentOutcome}
    {held : ConfigIntentRequest P × Option ℕ} (hheld : c.held = some held) (hid : held.1.id = id)
    (hknown : outcome.failure ≠ some .applicationUnknown) :
    c.recovered id outcome = ({ c with rechecking := false, held := none } : Coordinator P).settle
      held.1 outcome true := by
  rw [recovered, hheld]
  simp only [hid, ne_eq, not_true_eq_false, if_false, hknown]

/-- A step keeps the books, exactly if it is one that is allowed. -/
theorem Good.step (h : c.Good) (step : Step P) :
    (c.Keeps step → (c.step prepareIntent step).Good) ∧
      (¬ c.Keeps step → ¬ (c.step prepareIntent step).Sound) := by
  -- most steps are always allowed
  have hallowed : c.resolves step = false → (c.step prepareIntent step).Good →
      (c.Keeps step → (c.step prepareIntent step).Good) ∧
        (¬ c.Keeps step → ¬ (c.step prepareIntent step).Sound) := by
    intro hresolves hgood
    refine ⟨fun _ => hgood, fun hnot => absurd (fun htrue => ?_) hnot⟩
    rw [hresolves] at htrue
    cases htrue
  cases step with
  | initializeCore prepareCore update => exact hallowed rfl (h.initializeCore prepareCore update)
  | publication update => exact hallowed rfl (h.acceptPublication update)
  | submit mutation => exact hallowed rfl (h.submit mutation)
  | draft id fields => exact hallowed rfl ((quiet_draft c id fields).good h)
  | retry => exact hallowed rfl ((Quiet.retryReadback c).good h)
  | initialized i update =>
    refine hallowed rfl ?_
    rw [Coordinator.step]
    split
    next htask => exact ((quiet_endTask htask rfl).good h).initialized update
    next => exact h
  | prepared i observed update =>
    refine hallowed rfl ?_
    rw [Coordinator.step]
    split
    next request htask => exact h.prepared htask observed update
    next => exact h
  | executed i execution =>
    refine hallowed rfl ?_
    rw [Coordinator.step]
    split
    next request htask => exact h.executed htask execution
    next => exact h
  | rechecked i update =>
    refine hallowed rfl ?_
    rw [Coordinator.step]
    split
    next pending htask =>
      have hlaunch : Quiet (c.endTask i) ((c.endTask i).launch (.readback pending)) :=
        ⟨rfl, rfl, by simp [launch, Coordinator.pending], rfl, rfl⟩
      exact (((quiet_endTask htask rfl).trans hlaunch).good h).initialized update
    next => exact h
  | readback i reply update =>
    rw [Coordinator.step]
    split
    next pending htask =>
      have hended := (quiet_endTask htask rfl).good h
      obtain _ | ⟨request, _ | op⟩ := pending
      · refine ⟨fun _ => hended.acceptPublication update, fun hnot => absurd (fun htrue => ?_) hnot⟩
        simp [resolves, htask] at htrue
      · refine ⟨fun _ => (recovered_quiet ?_).good hended, fun hnot =>
          absurd (fun htrue => ?_) hnot⟩
        · cases (c.endTask i).held <;> simp
        · simp [resolves, htask] at htrue
      · by_cases hresolves : c.resolves (.readback i reply update)
        · have hresolves' := hresolves
          simp only [resolves, htask, Bool.and_eq_true, decide_eq_true_eq, Option.any_eq_true]
            at hresolves'
          obtain ⟨⟨held, hheld, hid⟩, hknown⟩ := hresolves'
          have hrecovered := recovered_settle (c := c.endTask i) hheld hid hknown
          have hquiet :
              Quiet (c.endTask i) { c.endTask i with rechecking := false, held := none } :=
            ⟨rfl, rfl, rfl, rfl, rfl⟩
          simp only [finishReadback, hrecovered]
          refine ⟨fun hkeeps => ?_, fun hnot => ?_⟩
          · exact (hquiet.good hended).settle_recovered (hkeeps hresolves) rfl hknown held.1
          · refine not_sound_settle_recovered (hquiet.good hended).toBooks
              (fun hnone => hnot fun _ => hnone) rfl hknown held.1
        · have hquiet :
              Quiet (c.endTask i)
                ((c.endTask i).recovered request.id (readbackOutcome op reply)) := by
            refine recovered_quiet ?_
            simp only [resolves, htask, Bool.and_eq_true, not_and, decide_eq_true_eq, not_not]
              at hresolves
            change (c.held.all _) = true
            cases hheld : c.held with
            | none => rfl
            | some held =>
              simp only [hheld, Option.any_some, decide_eq_true_eq] at hresolves
              simp only [Option.all_some, Bool.or_eq_true, decide_eq_true_eq]
              by_cases hid : held.1.id = request.id
              · exact .inr (hresolves hid)
              · exact .inl hid
          exact ⟨fun _ => hquiet.good hended, fun hnot =>
            absurd (fun htrue => absurd htrue hresolves) hnot⟩
    next hother =>
      refine ⟨fun _ => h, fun hnot => absurd (fun htrue => ?_) hnot⟩
      simp only [resolves] at htrue
      split at htrue
      next request op htask => exact absurd htask (hother _)
      next => cases htrue

/-! ## Runs -/

/-- From books that are in order, everything is sound after each step exactly if each step is
    one that is allowed. -/
theorem Good.run (h : c.Good) (steps : List (Step P)) :
    (∀ before after, steps = before ++ after → (c.run prepareIntent before).Sound) ↔
      ∀ before step after, steps = before ++ step :: after →
        (c.run prepareIntent before).Keeps step := by
  induction steps generalizing c with
  | nil =>
    refine ⟨fun _ before step after hsteps => ?_, fun _ before after hsteps => ?_⟩
    · exact absurd hsteps.symm (List.append_ne_nil_of_right_ne_nil before (List.cons_ne_nil _ _))
    · obtain ⟨rfl, -⟩ := List.append_eq_nil_iff.1 hsteps.symm
      exact h.sound
  | cons first steps ih =>
    have hkept : c.Keeps first → (c.step prepareIntent first).Good := (h.step first).1
    have hlost : ¬ c.Keeps first → ¬ (c.step prepareIntent first).Sound := (h.step first).2
    constructor
    · intro hsound before step after hsteps
      -- the first step is allowed, since everything is sound after it
      have hkeeps : c.Keeps first := by
        by_contra hnot
        exact hlost hnot (hsound [first] steps rfl)
      cases before with
      | nil =>
        obtain ⟨rfl, rfl⟩ := List.cons.inj hsteps
        exact hkeeps
      | cons other before =>
        obtain ⟨rfl, rfl⟩ := List.cons.inj hsteps
        refine (ih (hkept hkeeps)).1 (fun before' after' hsteps' => ?_) before step after rfl
        exact hsound (first :: before') after' (congrArg (first :: ·) hsteps')
    · intro hkeeps before after hsteps
      cases before with
      | nil => exact h.sound
      | cons other before =>
        obtain ⟨rfl, rfl⟩ := List.cons.inj hsteps
        refine (ih (hkept (hkeeps [] first _ rfl))).2 (fun before' step' after' hsteps' => ?_)
          before after rfl
        exact hkeeps (first :: before') step' after' (congrArg (first :: ·) hsteps')

/-- Whatever Core answers, and in whichever order messages come, no intent is lost, completed
    twice or submitted twice, exactly if no readback that resolves the held operation ends while
    another intent is active. -/
theorem intents_sound_iff
    (prepareIntent : RootCanonicalRead → CanonicalMutation P →
      Except TransitionFailure (List ConfigField))
    (steps : List (Step P)) :
    (∀ before after, steps = before ++ after →
      ((start : Coordinator P).run prepareIntent before).Sound) ↔
      ∀ before step after, steps = before ++ step :: after →
        ((start : Coordinator P).run prepareIntent before).Keeps step :=
  start_good.run steps

/-! ### A repair that is lost -/

/-- An edit, or a repair that recovery allows. -/
def plainMutation (repair : Bool) : CanonicalMutation Unit where
  change := ()
  editless := repair
  source := .ui
  coupledEffects := []
  bootstrap := false
  removesCanonical := false
  protectAllDrafts := false
  forceActivation := repair
  protectsDrafts := false
  writes := []

/-- Core has a config, allows each recovery, and its operation `1` is in flight or not. -/
def plainUpdate (inFlight : Bool) : CoreSessionUpdate where
  state := some ⟨.available .default, if inFlight then [1] else [], 0,
    some ⟨none, none, none, none, none⟩, false⟩
  current := true

/-- The outcome of an edit is not known, and a repair is executed while the edit is read back.
    Once the edit has a receipt, the repair is not waited for any more. -/
def lostRepair : List (Step Unit) :=
  [.initializeCore true (plainUpdate true), .initialized 0 (plainUpdate true),
    .submit (plainMutation false), .prepared 0 true (plainUpdate true),
    .executed 0 (.submitted 1 .uncertain []), .submit (plainMutation true),
    .prepared 0 true (plainUpdate true), .publication (plainUpdate false),
    .rechecked 1 (plainUpdate false),
    .readback 1 (.observed (some ⟨[], some .confirmed⟩)) (plainUpdate false),
    .executed 0 (.submitted 2 (.accepted (some ⟨[], some .confirmed⟩)) [])]

theorem intents_lost :
    let c := (start : Coordinator Unit).run (fun _ _ => .ok []) lostRepair
    acceptedIds c.log = [0, 1] ∧ c.waitingIds = [] ∧ completedIds c.log = [0] ∧
      submittedIds c.log = [0, 1] ∧ .discarded 1 ∈ c.log ∧ ¬ c.Sound := by
  intro c
  have hdiscarded : .discarded 1 ∈ c.log := by
    refine List.mem_of_getElem? (i := c.log.length - 1) ?_
    rfl
  exact ⟨rfl, rfl, rfl, rfl, hdiscarded, fun hsound => hsound.noticed 1 hdiscarded⟩

end Coordinator

end VpnHide.App

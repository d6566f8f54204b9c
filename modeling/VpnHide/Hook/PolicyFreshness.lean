import VpnHide.Hook.PolicyRuns

/-!
# When the policy cache has caught up with the files

From the last change of the files on, if every file access succeeds and no `invalidate` falls
into a load, a load that begins after the change reads the new files at its first attempt or
finds that the cache has them (`Pc.Sees`). What may still be wrong comes from the loads that
were in progress at the change: each may write the old config, fresh for a second from its own
end, and each may leave a fallback. So it takes a second from the end of the last of them
(`Pc.Late`, `Shared.Late`).
-/

namespace VpnHide.Hook.PolicyCache

open Lib

variable {F C : Type} [DecidableEq F] (src : Sources F C)

/-- Two equal fingerprints mean that the files did not change between them. -/
def Sources.Faithful {F C : Type} (src : Sources F C) : Prop :=
  ∀ a b c, a ≤ b → b ≤ c → src.fingerprint a = src.fingerprint c → src.config b = src.config a

/-- The steps of a time in which the files do not change, every access to them succeeds, and no
    `invalidate` falls into a load. -/
def Calm (w : World F C) : Event → Prop
  | .world (.tick _) => True
  | .world .change => False
  | .world .invalidate => ∀ t, w.states t = .idle
  | .move _ ok => ok = true

/-- What a load that began after the change to version `v` has seen, in generation `gen`. -/
def Pc.Sees {F C : Type} (src : Sources F C) (v gen : ℕ) : Pc F C → Prop
  | .attempt _ n => n = 0
  | .stat _ _ g => g = gen
  | .compare _ _ g before | .read _ _ g before _ => g = gen ∧ before.value = src.fingerprint v
  | .confirm _ _ g previous => g = gen ∧ previous.config = src.config v
  | .renew _ previous | .rewrite _ previous _ => previous.config = src.config v
  | .restat _ _ g before _ result =>
    g = gen ∧ before.value = src.fingerprint v ∧ ∃ r ∈ result, r.value = src.config v
  | .verify _ _ g before _ result after =>
    g = gen ∧ before.value = src.fingerprint v ∧ (∃ r ∈ result, r.value = src.config v) ∧
      ∃ a ∈ after, a.value = src.fingerprint v
  | .publish _ _ _ _ result _ | .store _ _ _ _ result _ _ => ∃ r ∈ result, r.value = src.config v
  | .settle _ config => config = src.config v
  | .giveUp _ | .coolClock _ _ | .cooldown _ _ _ => False
  | _ => True

section

variable {src} {t : ℕ} {s : Shared F C} {p : Pc F C}

/-- A thread does not touch the files. -/
theorem move_files (ok : Bool) : (s.move src t ok p).1.version = s.version ∧
    (s.move src t ok p).1.generation = s.generation := by
  cases p with
  | store l g before previous result after u => cases result <;> exact ⟨rfl, rfl⟩
  | verify l n g before previous result after =>
    cases after with
    | none => exact ⟨rfl, rfl⟩
    | some a => rw [Shared.move]; split_ifs <;> exact ⟨rfl, rfl⟩
  | returning l k v => cases k <;> exact ⟨rfl, rfl⟩
  | fallback | cached | fresh | acquire | attempt | stat | compare | confirm =>
    rw [Shared.move]
    repeat' split
    all_goals exact ⟨rfl, rfl⟩
  | _ => exact ⟨rfl, rfl⟩

/-- A move stays in the call it is of, and a new call is one more. -/
theorem move_load (ok : Bool) {l : Load} (hl : l ∈ (s.move src t ok p).2.load?) :
    p = .idle ∨ l ∈ p.load? := by
  cases p with
  | idle => exact .inl rfl
  | store l g before previous result after u => cases result <;> exact .inr hl
  | verify l n g before previous result after =>
    cases after with
    | none => exact .inr hl
    | some a => rw [Shared.move] at hl; split_ifs at hl <;> exact .inr hl
  | returning l k v => cases hl
  | fallback l k | cached l k | fresh l k =>
    rw [Shared.move] at hl
    repeat' split at hl
    all_goals cases k <;> exact .inr hl
  | acquire | attempt | stat | compare | confirm =>
    rw [Shared.move] at hl
    repeat' split at hl
    all_goals exact .inr hl
  | _ => exact .inr hl

omit [DecidableEq F] in
/-- An entry that was not marked for another read and has the fingerprint of the files has their
    config. -/
theorem Shared.Inv.config_of_fingerprint (hinv : s.Inv src) (hsrc : src.Faithful) {c : Cache F C}
    (hc : s.cache = some c) (hr : c.retryRead = false)
    (hf : c.fingerprint = src.fingerprint s.version) :
    c.config = src.config s.version := by
  obtain ⟨e, he, hconfig, -, hread⟩ := (hinv.cache c hc).config
  obtain ⟨q, hq, hqf, -⟩ := hread hr
  have hlast : q ∈ s.published.getLast? := he.eq ▸ hq
  obtain ⟨hsound, hv⟩ := hinv.sound q (List.mem_of_getLast? hlast)
  have hfp : src.fingerprint q.before.version = src.fingerprint s.version := by
    rw [← hsound.before, hqf, hf]
  have hle : q.config.version ≤ s.version := hsound.ended.trans hv
  rw [← hconfig, Option.mem_def.1 hq]
  calc q.config.value = src.config q.config.version := hsound.config
    _ = src.config q.before.version := hsrc _ _ _ hsound.began hle hfp
    _ = src.config s.version := (hsrc _ _ _ (hsound.began.trans hle) le_rfl hfp).symm

/-- A load that began after the change stays on the way to the new config. -/
theorem sees_move (hinv : s.Inv src) (hsrc : src.Faithful) (h : p.Sees src s.version s.generation) :
    (s.move src t true p).2.Sees src s.version s.generation := by
  -- A miss takes nothing along that might be old.
  have hmissed (l : Load) (k : Bool) :
      (Pc.missed l k : Pc F C).Sees src s.version s.generation := by
    cases k <;> trivial
  cases p with
  | idle | clock => trivial
  | fallback l k now =>
    rw [Shared.move]
    repeat' split
    all_goals trivial
  | cached l k now =>
    rw [Shared.move]
    split
    · trivial
    · exact hmissed l k
  | fresh l k now c =>
    rw [Shared.move]
    split
    · trivial
    · exact hmissed l k
  | acquire l =>
    rw [Shared.move]
    split <;> trivial
  | attempt l n =>
    rw [Shared.move, show n = 0 from h]
    exact rfl
  | stat l n g => exact ⟨h, rfl⟩
  | compare l n g before =>
    rw [Shared.move]
    -- A config with the fingerprint that was read now is the new one.
    split
    · rename_i previous hc
      split_ifs with heq
      · exact ⟨h.1, hinv.config_of_fingerprint hsrc hc heq.2.2 (heq.2.1.trans h.2)⟩
      · exact h
    · exact h
  | confirm l n g previous =>
    rw [Shared.move, if_pos h.1.symm]
    exact h.2
  | renew l previous => exact h
  | rewrite l previous u => trivial
  | read l n g before previous => exact ⟨h.1, h.2, _, rfl, rfl⟩
  | restat l n g before previous result => exact ⟨h.1, h.2.1, h.2.2, _, rfl, rfl⟩
  | verify l n g before previous result after =>
    obtain ⟨hg, hb, hr, a, ha, hav⟩ := h
    rw [Option.mem_def.1 ha, Shared.move, if_pos ⟨hb.trans hav.symm, hg.symm⟩]
    -- The stamps before and after the read agree, so that what was read is new.
    exact hr
  | publish => exact h
  | store l g before previous result after u =>
    obtain ⟨r, hr, hv⟩ := h
    rw [Option.mem_def.1 hr]
    exact hv
  | settle => trivial
  | giveUp | coolClock | cooldown => exact h.elim
  | returning => trivial

end

/-- After time `u` an entry with another config than that of the files counts for a second at
    most. -/
def Cache.Late {F C : Type} (src : Sources F C) (v u : ℕ) (c : Cache F C) : Prop :=
  c.nextStatCheckUptimeMs ≤ u + STAT_CHECK_INTERVAL_MS ∨ c.config = src.config v

/-- Whatever the cache still takes for fresh after a time is of a version, or read again soon. -/
structure Shared.Late {F C : Type} (src : Sources F C) (v u : ℕ) (s : Shared F C) : Prop where
  fallback : ∀ r ∈ s.retryFallback, r.retryAtUptimeMs ≤ u + STAT_CHECK_INTERVAL_MS
  cache : ∀ c ∈ s.cache, c.Late src v u

/-- A thread that returns after a time has the config of a version. -/
def Pc.Late {F C : Type} (src : Sources F C) (v u : ℕ) : Pc F C → Prop
  | .fresh _ _ _ c => c.Late src v u
  | .returning l _ config => u + STAT_CHECK_INTERVAL_MS < l.uptime → config = src.config v
  | _ => True

section

variable {src} {t v u : ℕ} {s : Shared F C} {p : Pc F C}

omit [DecidableEq F] in
/-- At any time the entries and fallbacks there are count for a second at most. -/
theorem Shared.Inv.late (hinv : s.Inv src) : s.Late src v s.uptime :=
  ⟨fun r hr => (hinv.fallback r hr).soon, fun c hc => .inl (hinv.cache c hc).soon⟩

omit [DecidableEq F] in

/-- What a thread holds is late. -/
theorem Loc.late (hp : Loc src t s p) : p.Late src v s.uptime := by
  cases p with
  | fresh l k now c => exact .inl hp.knows.2.2.soon
  | returning l k config =>
    intro hlt
    have := (hp.began l rfl).uptime
    omega
  | _ => trivial

/-- When every load began after the change, each writes the new config. -/
theorem late_move (hp : Loc src t s p) (hsees : p.Sees src v s.generation) (hs : s.Late src v u)
    (h : p.Late src v u) :
    (s.move src t true p).1.Late src v u ∧ (s.move src t true p).2.Late src v u := by
  have hmissed (l : Load) (k : Bool) : (Pc.missed l k : Pc F C).Late src v u := by
    cases k <;> trivial
  cases p with
  | idle => exact ⟨⟨hs.fallback, hs.cache⟩, trivial⟩
  | fallback l k now =>
    rw [Shared.move]
    split
    · rename_i r hr
      split_ifs with hlt
      · -- A fallback has run out before a load that is late.
        refine ⟨hs, fun hlate => ?_⟩
        have hnow : l.uptime ≤ now := hp.knows.1
        have hretry := hs.fallback r hr
        omega
      · exact ⟨hs, trivial⟩
    · exact ⟨hs, trivial⟩
  | cached l k now =>
    rw [Shared.move]
    split
    · rename_i c hc
      exact ⟨hs, hs.cache c hc⟩
    · exact ⟨hs, hmissed l k⟩
  | fresh l k now c =>
    rw [Shared.move]
    split_ifs with hfresh
    · -- A config that need not be compared yet is a new one.
      refine ⟨hs, fun hlate => ?_⟩
      rcases h with hnext | hconfig
      · have hnow : l.uptime ≤ now := hp.knows.1
        omega
      · exact hconfig
    · exact ⟨hs, hmissed l k⟩
  | acquire l =>
    rw [Shared.move]
    split_ifs
    · exact ⟨⟨hs.fallback, hs.cache⟩, trivial⟩
    · exact ⟨hs, trivial⟩
  | rewrite l previous w =>
    -- What is written is what the load has seen.
    refine ⟨⟨hs.fallback, fun c hc => ?_⟩, fun _ => hsees⟩
    obtain rfl := Option.mem_some.1 hc
    exact .inr hsees
  | store l g before previous result after w =>
    obtain ⟨r, hr, hv⟩ := hsees
    rw [Option.mem_def.1 hr]
    refine ⟨⟨hs.fallback, fun c hc => ?_⟩, trivial⟩
    obtain rfl := Option.mem_some.1 hc
    exact .inr hv
  | settle l config =>
    refine ⟨⟨fun r hr => ?_, hs.cache⟩, fun _ => hsees⟩
    cases hr
  | giveUp | coolClock | cooldown => exact hsees.elim
  | verify l n g before previous result after =>
    cases after with
    | none => exact ⟨hs, trivial⟩
    | some a => rw [Shared.move]; split_ifs <;> exact ⟨hs, trivial⟩
  | returning l k config => cases k <;> exact ⟨⟨hs.fallback, hs.cache⟩, trivial⟩
  | attempt | stat | compare | confirm =>
    rw [Shared.move]
    repeat' split
    all_goals exact ⟨hs, trivial⟩
  | _ => exact ⟨hs, trivial⟩

end

/-- The loads with a number from `n` on began after the change to version `v`. -/
structure Steady (v n : ℕ) (w : World F C) : Prop where
  holds : System.Holds (Shared.Inv src) (Loc src) w
  seen : System.Holds (fun s => s.version = v)
    (fun _ s p => ∀ l ∈ p.load?, n ≤ l.id → p.Sees src v s.generation) w

/-- Only loads that began after the change are left, since time `u`. -/
structure Settled (v u : ℕ) (w : World F C) : Prop where
  holds : System.Holds (Shared.Inv src) (Loc src) w
  seen : System.Holds (fun s => s.version = v ∧ s.Late src v u)
    (fun _ s p => p.Sees src v s.generation ∧ p.Late src v u) w

section

variable {src} {v n u : ℕ} {w : World F C}

/-- What is steady stays so. -/
theorem Steady.step (hsrc : src.Faithful) (w : World F C) (e : Event) (h : Steady src v n w)
    (he : Calm w e) : Steady src v n ((system src).step w e) := by
  refine ⟨holds_step src w e h.holds, ?_⟩
  rcases e with e | ⟨t, ok⟩
  · cases e with
    | tick d => exact h.seen.world h.seen.shared fun _ _ hp => hp
    | change => exact he.elim
    | invalidate =>
      refine ⟨h.seen.shared, fun t l hl => ?_⟩
      rw [show ((system src).step w (.world .invalidate)).states t = .idle from he t] at hl
      cases hl
  · obtain rfl : ok = true := he
    obtain ⟨hver, hgen⟩ := @move_files _ _ _ src t w.shared (w.states t) true
    obtain rfl := h.seen.shared
    rw [step_move]
    refine h.seen.move hver (fun l hl hn => ?_) fun r p _ hp => ?_
    · -- The thread itself: its call is the one it was in, unless it has just begun one.
      rw [hgen]
      refine sees_move h.holds.shared hsrc ?_
      rcases move_load true hl with hidle | hload
      · rw [hidle]
        trivial
      · exact h.seen.states t l hload hn
    · rw [hgen]
      exact hp

/-- What is settled stays so. -/
theorem Settled.step (hsrc : src.Faithful) (w : World F C) (e : Event) (h : Settled src v u w)
    (he : Calm w e) : Settled src v u ((system src).step w e) := by
  refine ⟨holds_step src w e h.holds, ?_⟩
  obtain ⟨rfl, hlate⟩ := h.seen.shared
  rcases e with e | ⟨t, ok⟩
  · cases e with
    | tick d => exact h.seen.world ⟨rfl, hlate.fallback, hlate.cache⟩ fun _ _ hp => hp
    | change => exact he.elim
    | invalidate =>
      refine ⟨⟨rfl, hlate.fallback, hlate.cache⟩, fun t => ?_⟩
      rw [show ((system src).step w (.world .invalidate)).states t = .idle from he t]
      exact ⟨trivial, trivial⟩
  · obtain rfl : ok = true := he
    obtain ⟨hver, hgen⟩ := @move_files _ _ _ src t w.shared (w.states t) true
    obtain ⟨hsees, hlate'⟩ := h.seen.states t
    obtain ⟨hs, hp⟩ := late_move (h.holds.states t) hsees hlate hlate'
    rw [step_move]
    refine h.seen.move ⟨hver, hs⟩ ⟨?_, hp⟩ fun r p _ hp => ?_
    · rw [hgen]
      exact sees_move h.holds.shared hsrc hsees
    · rw [hgen]
      exact hp

omit [DecidableEq F] in
/-- Once every load in progress at the change has ended, the time from which a second counts
    has come. -/
theorem Steady.settled (h : Steady src v n w) (hnew : ∀ t, ∀ l ∈ (w.states t).load?, n ≤ l.id) :
    Settled src v w.shared.uptime w := by
  refine ⟨h.holds, ⟨h.seen.shared, h.holds.shared.late⟩, fun t => ⟨?_, (h.holds.states t).late⟩⟩
  cases hl : (w.states t).load? with
  | some l => exact h.seen.states t l hl (hnew t l hl)
  | none =>
    have hidle : w.states t = .idle := by
      cases hp : w.states t with
      | idle => rfl
      | _ => rw [hp] at hl; cases hl
    rw [hidle]
    trivial

/-- Right after the change there is no load yet that began after it. -/
theorem steady_change (h : System.Holds (Shared.Inv src) (Loc src) w) :
    Steady src (w.shared.version + 1) w.shared.loads ((system src).step w (.world .change)) := by
  refine ⟨holds_step src w _ h, rfl, fun t l hl hn => ?_⟩
  have := ((h.states t).began l hl).id
  omega

end

/-- A run in which the files change for the last time after `es`: every load then in progress
    ends in `es'`, and thread `t` is about to return `config` from load `l` after `es''`. -/
structure Caught (es es' es'' : List Event) (t : ℕ) (l : Load) (config : C) : Prop where
  calm : (system src).Along Calm (after src (es ++ [.world .change])) (es' ++ es'')
  ended : ∀ t, ∀ l' ∈ ((after src (es ++ [.world .change] ++ es')).states t).load?,
    (after src es).shared.loads ≤ l'.id
  returns : ∃ k, (after src (es ++ [.world .change] ++ es' ++ es'')).states t =
    .returning l k config

variable {src} in
/-- What a load catches is settled. -/
theorem Caught.settled {es es' es'' : List Event} {t : ℕ} {l : Load} {config : C}
    (h : Caught src es es' es'' t l config) (hsrc : src.Faithful) :
    Settled src (after src (es ++ [.world .change])).shared.version
      (after src (es ++ [.world .change] ++ es')).shared.uptime
      (after src (es ++ [.world .change] ++ es' ++ es'')) := by
  obtain ⟨hfirst, hthen⟩ := h.calm.of_append
  rw [← after_append] at hthen
  have hsteady : Steady src (after src (es ++ [.world .change])).shared.version
      (after src es).shared.loads (after src (es ++ [.world .change] ++ es')) := by
    rw [after_append src _ es']
    refine System.Along.induction (Steady.step hsrc) hfirst ?_
    rw [after_append]
    exact steady_change (holds_run src es)
  rw [after_append src _ es'']
  exact System.Along.induction (Settled.step hsrc) hthen (hsteady.settled h.ended)

/-- What `load` returns, in every interleaving of loads, `invalidate`s and file changes.

    Every publication was read between two equal fingerprints, and whatever fails after it, the
    cache has its config until the next one. A load returns the policy of some moment of the
    load, empty if nothing had been published yet; its read began after every `invalidate` that
    was over before the load, unless a read failed less than a second before the load or later.
    When the files have changed for the last time, nothing fails and no `invalidate` falls into a
    load, then a load that begins more than a second after the change and after the end of every
    load in progress at the change returns the config of the files. -/
theorem load_current (src : Sources F C) (es : List Event) :
    (∀ e ∈ (after src es).shared.published, e.Sound src) ∧
    Shared.configOr src (after src es).shared.cache =
      policy src (after src es).shared.published.getLast? ∧
    (∀ t l k config, (after src es).states t = .returning l k config →
      (after src es).shared.Answer src l config) ∧
    (src.Faithful → ∀ es' es'' t l config, Caught src es es' es'' t l config →
      (after src (es ++ [.world .change] ++ es')).shared.uptime + STAT_CHECK_INTERVAL_MS <
        l.uptime →
      config = src.config (after src (es ++ [.world .change])).shared.version) := by
  have hholds := holds_run src es
  refine ⟨fun e he => (hholds.shared.sound e he).1, hholds.shared.configOr_cache, ?_, ?_⟩
  · -- What a load is about to return is the answer to what it has seen.
    intro t l k config hp
    have hloc := hholds.states t
    rw [hp] at hloc
    exact hloc.knows
  · -- A load that was caught late enough has looked at the sources after the change.
    intro hsrc es' es'' t l config hcaught hlate
    obtain ⟨k, hp⟩ := hcaught.returns
    have hseen := ((hcaught.settled hsrc).seen.states t).2
    rw [hp] at hseen
    exact hseen hlate

section

/-- Steps in which the files do not change, nothing fails and nothing is invalidated. -/
def quiet : Event → Bool
  | .world (.tick _) | .move _ true => true
  | _ => false

/-- A run of quiet events is calm. -/
theorem along_calm {es : List Event} (h : ∀ e ∈ es, quiet e = true) (w : World F C) :
    (system src).Along Calm w es := by
  induction es generalizing w with
  | nil => trivial
  | cons e es ih =>
    refine ⟨?_, ih (fun e he => h e (List.mem_cons_of_mem _ he)) _⟩
    have he := h e List.mem_cons_self
    rcases e with (d | - | -) | ⟨t, ok⟩
    · trivial
    · cases he
    · cases he
    · cases ok
      · cases he
      · rfl

/-- When only thread 0 has moved and it is idle again, every load has ended. -/
theorem ended_of_idle {es : List Event} {n : ℕ} (h : ∀ t c, .move t c ∈ es → t = 0)
    (h0 : (after src es).states 0 = .idle) (t : ℕ) :
    ∀ l ∈ ((after src es).states t).load?, n ≤ l.id := by
  have hidle : (after src es).states t = .idle := by
    by_cases ht : t = 0
    · rw [ht, h0]
    · exact System.run_states _ (fun c hc => ht (h t c hc)) _
  rw [hidle]
  intro l hl
  cases hl

/-- `n` moves of thread `t`. -/
def moves (t n : ℕ) : List Event := List.replicate n (.move t true)

/-- Files that are new in every version. -/
def versions : Sources ℕ ℕ := ⟨id, (· + 1), 0⟩

/-- Files that come back, with their fingerprint, in every second version. -/
def alternating : Sources ℕ ℕ := ⟨(· % 2), (· % 2 + 1), 0⟩

/-- A load that has read the files when they change, and publishes 900 ms later. -/
theorem load_current_versions : Caught versions (moves 0 14) (.world (.tick 900) :: moves 0 4)
    (.world (.tick 1001) :: moves 1 19) 1 ⟨1, 0, 1901, 1⟩ 2 ∧
    2 = versions.config (after versions (moves 0 14 ++ [.world .change])).shared.version := by
  have hcaught : Caught versions (moves 0 14) (.world (.tick 900) :: moves 0 4)
      (.world (.tick 1001) :: moves 1 19) 1 ⟨1, 0, 1901, 1⟩ 2 := by
    refine ⟨along_calm _ (by decide) _, ended_of_idle _ ?_ rfl, true, rfl⟩
    simp [moves]
  have hsrc : versions.Faithful := by
    intro a b c hab hbc hac
    have hac : a = c := hac
    rw [show b = a by omega]
  refine ⟨hcaught, (load_current versions (moves 0 14)).2.2.2 hsrc _ _ _ _ _ hcaught ?_⟩
  decide

/-- A second from the change is not enough, as a load in progress at the change may publish what
    it has read, for another second; and no time is enough when the files come back to a
    fingerprint while they are read. -/
theorem not_current_after_second :
    (∃ es es' es'' t l config, Caught versions es es' es'' t l config ∧
      (after versions (es ++ [.world .change])).shared.uptime + STAT_CHECK_INTERVAL_MS < l.uptime ∧
      (after versions (es ++ [.world .change] ++ es')).shared.loads ≤ l.id ∧
      config ≠ versions.config (after versions (es ++ [.world .change])).shared.version) ∧
    (∀ a b, alternating.fingerprint a = alternating.fingerprint b →
      alternating.config a = alternating.config b) ∧
    ∃ es es' es'' t l config, Caught alternating es es' es'' t l config ∧
      (after alternating (es ++ [.world .change] ++ es')).shared.uptime + STAT_CHECK_INTERVAL_MS <
        l.uptime ∧
      config ≠ alternating.config (after alternating (es ++ [.world .change])).shared.version := by
  refine ⟨⟨moves 0 14, .world (.tick 900) :: moves 0 4, .world (.tick 101) :: moves 1 5, 1,
    ⟨1, 0, 1001, 1⟩, 1, ⟨along_calm _ (by decide) _, ended_of_idle _ ?_ rfl, false, rfl⟩,
    by decide, by decide, by decide⟩, fun a b h => congrArg (· + 1) h,
    moves 0 11 ++ .world .change :: moves 0 1, moves 0 6, .world (.tick 1001) :: moves 1 16, 1,
    ⟨1, 0, 1001, 1⟩, 2, ⟨along_calm _ (by decide) _, ended_of_idle _ ?_ rfl, true, rfl⟩,
    by decide, by decide⟩
  · simp [moves]
  · simp [moves]

end

end VpnHide.Hook.PolicyCache

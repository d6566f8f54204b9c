import Mathlib.Data.List.Basic
import Mathlib.Order.Nat
import VpnHide.Hook.PolicyCache

/-!
# What every run of the policy cache keeps

`Shared.Inv` is the invariant of what the threads share: the config in the cache is the one last
published, whatever failed in between, and a cooldown fallback has that config for as long as it
counts. `Loc` is what a thread knows where it is. Under the lock it is what the thread has seen
since it took the lock, and holds because nobody else writes (`Loc.same`); outside the lock it
is about the past only, and holds whatever is published (`Loc.later`).

A load that is about to return a config has an `Answer`: a policy of some moment of the load.
-/

namespace VpnHide.Hook.PolicyCache

open Lib

variable {F C : Type} [DecidableEq F] (src : Sources F C)

namespace Publication

omit [DecidableEq F] in
/-- What a publication is: its config was read from the files as they were between two equal
    fingerprints of them. -/
structure Sound (e : Publication F C) : Prop where
  before : e.before.value = src.fingerprint e.before.version
  config : e.config.value = src.config e.config.version
  after : e.after.value = src.fingerprint e.after.version
  began : e.before.version ≤ e.config.version
  ended : e.config.version ≤ e.after.version
  equal : e.before.value = e.after.value

end Publication

/-- The policy a cache stands for: that of its last publication, if there is one. -/
def policy (e : Option (Publication F C)) : C := (e.map (·.config.value)).getD src.empty

namespace Shared

omit [DecidableEq F]

/-- The policies there have been, from the empty one on. -/
def history (s : Shared F C) : List (Option (Publication F C)) := none :: s.published.map some

/-- `e` was the policy at some time after the first `n` publications. -/
def Since (s : Shared F C) (n : ℕ) (e : Option (Publication F C)) : Prop :=
  ∃ j, n ≤ j ∧ s.history[j]? = some e

/-- The read of `e` began in generation `g` or later. -/
def ReadIn (g : ℕ) (e : Option (Publication F C)) : Prop := ∃ p ∈ e, g ≤ p.config.generation

/-- A cache entry that a load may use if it began after the first `n` publications. The entry of
    a failed read has the generation of that read and the config of an older one; it is not
    used for longer than a second. -/
structure Usable (s : Shared F C) (n : ℕ) (c : Cache F C) : Prop where
  soon : c.nextStatCheckUptimeMs ≤ s.uptime + STAT_CHECK_INTERVAL_MS
  config : ∃ e, s.Since n e ∧ policy src e = c.config ∧
    (ReadIn c.generation e ∨ ∃ f ∈ s.failures, c.nextStatCheckUptimeMs ≤
      f + STAT_CHECK_INTERVAL_MS) ∧
    (c.retryRead = false →
      ∃ p ∈ e, p.before.value = c.fingerprint ∧ c.generation ≤ p.config.generation)

/-- A cooldown fallback: a failure put it there, and as long as it counts it has the policy. -/
structure Cooling (s : Shared F C) (r : RetryFallback C) : Prop where
  soon : r.retryAtUptimeMs ≤ s.uptime + STAT_CHECK_INTERVAL_MS
  failed : ∃ f ∈ s.failures, r.retryAtUptimeMs ≤ f + STAT_CHECK_INTERVAL_MS
  config : s.uptime < r.retryAtUptimeMs → r.config = policy src s.published.getLast?

/-- The invariant of the shared state. -/
structure Inv (s : Shared F C) : Prop where
  none : s.cache = none → s.published = []
  cache : ∀ c ∈ s.cache, s.Usable src s.published.length c
  fallback : ∀ r ∈ s.retryFallback, s.Cooling src r
  sound : ∀ e ∈ s.published, e.Sound src ∧ e.after.version ≤ s.version

/-- The fallback, if there is one, no longer counts. -/
def Expired (s : Shared F C) : Prop := ∀ r ∈ s.retryFallback, r.retryAtUptimeMs ≤ s.uptime

/-- A load that has begun. -/
structure Began (s : Shared F C) (l : Load) : Prop where
  id : l.id < s.loads
  generation : l.generation ≤ s.generation
  uptime : l.uptime ≤ s.uptime
  published : l.published ≤ s.published.length

/-- What load `l` may return: a config that was the policy at some moment of the load. Its read
    is not older than the last `invalidate` before the load, unless a read failed less than a
    second before the load, or later. -/
def Answer (s : Shared F C) (l : Load) (v : C) : Prop :=
  ∃ e, s.Since l.published e ∧ policy src e = v ∧
    (ReadIn l.generation e ∨ ∃ f ∈ s.failures, l.uptime < f + STAT_CHECK_INTERVAL_MS)

/-- A turn of the `repeat`, with what it has seen so far. -/
structure Reading (s : Shared F C) (l : Load) (g : ℕ) (before : Seen F)
    (previous : Option (Cache F C)) (result : Option (Seen C)) (after : Option (Seen F)) :
    Prop where
  expired : s.Expired
  since : l.generation ≤ g
  reached : g ≤ s.generation
  stat : before.value = src.fingerprint before.version ∧ before.version ≤ s.version
  held : previous = s.cache
  read : ∀ r ∈ result, r.value = src.config r.version ∧ before.version ≤ r.version ∧
    r.version ≤ s.version ∧ g ≤ r.generation
  restat : ∀ a ∈ after, a.value = src.fingerprint a.version ∧ a.version ≤ s.version ∧
    ∀ r ∈ result, r.version ≤ a.version

/-- An entry found unchanged on disk, in the generation it has. -/
structure Renewing (s : Shared F C) (l : Load) (previous : Cache F C) : Prop where
  expired : s.Expired
  since : l.generation ≤ previous.generation
  cache : s.cache = some previous
  settled : previous.retryRead = false

end Shared

namespace Pc

omit [DecidableEq F]

/-- What a thread knows at each `Pc`. -/
def Knows (s : Shared F C) : Pc F C → Prop
  | .idle | .clock _ _ | .acquire _ => True
  | .fallback l _ now => l.uptime ≤ now ∧ now ≤ s.uptime ∧ ∀ r ∈ s.retryFallback,
      now < r.retryAtUptimeMs → ∃ e, s.Since l.published e ∧ policy src e = r.config
  | .cached l k now => l.uptime ≤ now ∧ (k = true → s.Expired)
  | .fresh l k now c => l.uptime ≤ now ∧ (k = true → s.Expired) ∧ s.Usable src l.published c
  | .attempt _ _ | .giveUp _ => s.Expired
  | .stat l _ g => s.Expired ∧ l.generation ≤ g ∧ g ≤ s.generation
  | .compare l _ g before => s.Reading src l g before s.cache none none
  | .confirm l _ g previous => s.Renewing l previous ∧ previous.generation = g
  | .renew l previous => s.Renewing l previous
  | .rewrite l previous u => s.Renewing l previous ∧ u ≤ s.uptime
  | .read l _ g before previous => s.Reading src l g before previous none none
  | .restat l _ g before previous result => s.Reading src l g before previous result none
  | .verify l _ g before previous result after => s.Reading src l g before previous result after
  | .publish l g before previous result after =>
    s.Reading src l g before previous result (some after) ∧ before.value = after.value
  | .store l g before previous result after u =>
    s.Reading src l g before previous result (some after) ∧ before.value = after.value ∧
      u ≤ s.uptime
  | .settle l config => s.Expired ∧ ∃ e ∈ s.published.getLast?, e.config.value = config ∧
      l.generation ≤ e.config.generation
  | .coolClock _ config => s.Expired ∧ config = policy src s.published.getLast?
  | .cooldown _ config u => s.Expired ∧ config = policy src s.published.getLast? ∧ u ≤ s.uptime
  | .returning l _ v => s.Answer src l v

end Pc

/-- What holds of thread `t` at `p`. -/
structure Loc (t : ℕ) (s : Shared F C) (p : Pc F C) : Prop where
  began : ∀ l ∈ p.load?, s.Began l
  lock : p.locked = true → s.lock = some t
  knows : p.Knows src s

namespace Shared

omit [DecidableEq F]

/-- `s'` is a later state than `s`: what was published stays so, and a fallback that is new has
    the policy of its time. -/
structure Later (s s' : Shared F C) : Prop where
  generation : s.generation ≤ s'.generation
  uptime : s.uptime ≤ s'.uptime
  version : s.version ≤ s'.version
  loads : s.loads ≤ s'.loads
  published : s.published <+: s'.published
  failures : s.failures ⊆ s'.failures
  fallback : ∀ r ∈ s'.retryFallback, r ∈ s.retryFallback ∨
    r.config = policy src s'.published.getLast?

/-- Nothing is written under the lock from `s` to `s'`. -/
structure Same (s s' : Shared F C) : Prop where
  generation : s.generation ≤ s'.generation
  uptime : s.uptime ≤ s'.uptime
  version : s.version ≤ s'.version
  loads : s.loads ≤ s'.loads
  cache : s'.cache = s.cache
  retryFallback : s'.retryFallback = s.retryFallback
  published : s'.published = s.published
  failures : s'.failures = s.failures

variable {src} {s s' : Shared F C} {l : Load}

theorem Same.refl (s : Shared F C) : s.Same s :=
  ⟨le_rfl, le_rfl, le_rfl, le_rfl, rfl, rfl, rfl, rfl⟩

/-- The same state is a later one. -/
theorem Same.later (h : s.Same s') : s.Later src s' where
  generation := h.generation
  uptime := h.uptime
  version := h.version
  loads := h.loads
  published := h.published ▸ List.prefix_rfl
  failures := h.failures ▸ fun _ => id
  fallback _ hr := .inl (h.retryFallback ▸ hr)

theorem Later.refl (s : Shared F C) : s.Later src s := (Same.refl s).later

theorem history_getLast? (s : Shared F C) : s.history.getLast? = some s.published.getLast? := by
  rw [history, List.getLast?_cons, List.getLast?_map]
  cases s.published.getLast? <;> rfl

theorem history_length (s : Shared F C) : s.history.length = s.published.length + 1 := by
  rw [history, List.length_cons, List.length_map]

theorem history_published (s : Shared F C) :
    s.history[s.published.length]? = some s.published.getLast? := by
  rw [← history_getLast?, List.getLast?_eq_getElem?, history_length, Nat.add_sub_cancel]

/-- The last publication since a load began. -/
theorem since_getLast? (hl : s.Began l) : s.Since l.published s.published.getLast? :=
  ⟨_, hl.published, s.history_published⟩

/-- Since the last publication there is only one policy. -/
theorem Since.eq {e : Option (Publication F C)} (h : s.Since s.published.length e) :
    e = s.published.getLast? := by
  obtain ⟨j, hj, he⟩ := h
  have hlt : j < s.history.length := (List.getElem?_eq_some_iff.1 he).1
  rw [history_length] at hlt
  obtain rfl : j = s.published.length := by omega
  rw [history_published] at he
  exact (Option.some.inj he).symm

/-- What was published since a later time was so since an earlier one. -/
theorem Since.weaken {m n : ℕ} {e : Option (Publication F C)} (h : s.Since n e) (hm : m ≤ n) :
    s.Since m e := by
  obtain ⟨j, hj, he⟩ := h
  exact ⟨j, hm.trans hj, he⟩

/-- It stays published. -/
theorem Since.later {n : ℕ} {e : Option (Publication F C)} (h : s.Since n e)
    (hs : s.Later src s') : s'.Since n e := by
  obtain ⟨j, hj, he⟩ := h
  have hpre : s.history <+: s'.history := List.prefix_cons_inj _ |>.2 (hs.published.map some)
  obtain ⟨hlt, rfl⟩ := List.getElem?_eq_some_iff.1 he
  exact ⟨j, hj, List.prefix_iff_getElem?.1 hpre j hlt⟩

/-- A load that began has begun. -/
theorem Began.later (h : s.Began l) (hs : s.Later src s') : s'.Began l where
  id := h.id.trans_le hs.loads
  generation := h.generation.trans hs.generation
  uptime := h.uptime.trans hs.uptime
  published := h.published.trans hs.published.length_le

/-- What was read after a later time was so after an earlier one. -/
theorem Usable.weaken {m n : ℕ} {c : Cache F C} (h : s.Usable src n c) (hm : m ≤ n) :
    s.Usable src m c := by
  obtain ⟨e, he, hc⟩ := h.config
  exact ⟨h.soon, e, he.weaken hm, hc⟩

/-- A usable entry stays usable. -/
theorem Usable.later {n : ℕ} {c : Cache F C} (h : s.Usable src n c) (hs : s.Later src s') :
    s'.Usable src n c := by
  obtain ⟨e, he, hc, hread, hsettled⟩ := h.config
  refine ⟨h.soon.trans (Nat.add_le_add_right hs.uptime _), e, he.later hs, hc, ?_, hsettled⟩
  exact hread.imp id fun ⟨f, hf, hn⟩ => ⟨f, hs.failures hf, hn⟩

/-- An answer stays one. -/
theorem Answer.later {v : C} (h : s.Answer src l v) (hs : s.Later src s') : s'.Answer src l v := by
  obtain ⟨e, he, hv, hread⟩ := h
  exact ⟨e, he.later hs, hv, hread.imp id fun ⟨f, hf, hn⟩ => ⟨f, hs.failures hf, hn⟩⟩

theorem Expired.same (h : s.Expired) (hs : s.Same s') : s'.Expired := by
  intro r hr
  rw [hs.retryFallback] at hr
  exact (h r hr).trans hs.uptime

theorem Renewing.same {previous : Cache F C} (h : s.Renewing l previous) (hs : s.Same s') :
    s'.Renewing l previous :=
  ⟨h.expired.same hs, h.since, hs.cache.trans h.cache, h.settled⟩

theorem Reading.same {g : ℕ} {before : Seen F} {previous : Option (Cache F C)}
    {result : Option (Seen C)} {after : Option (Seen F)}
    (h : s.Reading src l g before previous result after) (hs : s.Same s') :
    s'.Reading src l g before previous result after where
  expired := h.expired.same hs
  since := h.since
  reached := h.reached.trans hs.generation
  stat := ⟨h.stat.1, h.stat.2.trans hs.version⟩
  held := h.held.trans hs.cache.symm
  read r hr := by
    obtain ⟨hv, hb, hs', hg⟩ := h.read r hr
    exact ⟨hv, hb, hs'.trans hs.version, hg⟩
  restat a ha := by
    obtain ⟨hv, hs', hr⟩ := h.restat a ha
    exact ⟨hv, hs'.trans hs.version, hr⟩

/-- With nothing written, time alone keeps the invariant. -/
theorem Inv.same (h : s.Inv src) (hs : s.Same s') : s'.Inv src where
  none hc := by rw [hs.published]; exact h.none (hs.cache.symm.trans hc)
  cache c hc := by
    rw [hs.published]
    exact (h.cache c (hs.cache ▸ hc)).later hs.later
  fallback r hr := by
    obtain ⟨hsoon, hfailed, hconfig⟩ := h.fallback r (hs.retryFallback ▸ hr)
    refine ⟨hsoon.trans (Nat.add_le_add_right hs.uptime _), hs.failures ▸ hfailed, fun hlt => ?_⟩
    rw [hs.published]
    exact hconfig (hs.uptime.trans_lt hlt)
  sound e he := by
    obtain ⟨hsound, hv⟩ := h.sound e (hs.published ▸ he)
    exact ⟨hsound, hv.trans hs.version⟩

/-- The config in the cache, or the empty one without a cache, is that of the last publication. -/
theorem Inv.configOr_cache (h : s.Inv src) :
    configOr src s.cache = policy src s.published.getLast? := by
  cases hc : s.cache with
  | none => rw [h.none hc]; rfl
  | some c =>
    obtain ⟨e, he, hp, -⟩ := (h.cache c hc).config
    rw [← he.eq, hp]
    rfl

end Shared

variable {src} in
omit [DecidableEq F] in
/-- What a thread knows outside the lock stays true whatever is published. -/
theorem Loc.later {t : ℕ} {s s' : Shared F C} {p : Pc F C} (h : Loc src t s p)
    (hp : p.locked = false) (hs : s.Later src s') : Loc src t s' p := by
  refine ⟨fun l hl => (h.began l hl).later hs, fun hk => absurd hk (by rw [hp]; decide), ?_⟩
  have hk := h.knows
  cases p with
  | idle | clock | acquire => trivial
  | fallback l k now =>
    obtain ⟨hl, hn, hr⟩ := hk
    refine ⟨hl, hn.trans hs.uptime, fun r hr' hlt => ?_⟩
    rcases hs.fallback r hr' with hold | hnew
    · obtain ⟨e, he, hc⟩ := hr r hold hlt
      exact ⟨e, he.later hs, hc⟩
    · exact ⟨_, Shared.since_getLast? ((h.began l rfl).later hs), hnew.symm⟩
  | cached l k now =>
    exact ⟨hk.1, fun hk' => absurd hk' (by rw [show k = false from hp]; decide)⟩
  | fresh l k now c =>
    exact ⟨hk.1, fun hk' => absurd hk' (by rw [show k = false from hp]; decide), hk.2.2.later hs⟩
  | returning l k v => exact Shared.Answer.later hk hs
  | _ => exact absurd hp (by simp [Pc.locked])

variable {src} in
omit [DecidableEq F] in
/-- What a thread knows under the lock stays true while nothing is written under it. -/
theorem Loc.same {t : ℕ} {s s' : Shared F C} {p : Pc F C} (h : Loc src t s p)
    (hs : s.Same s') (hlock : s'.lock = s.lock) : Loc src t s' p := by
  have hlater : s.Later src s' := hs.later
  refine ⟨fun l hl => (h.began l hl).later hlater, fun hk => hlock.trans (h.lock hk), ?_⟩
  have hk := h.knows
  cases p with
  | idle | clock | acquire => trivial
  | fallback l k now =>
    obtain ⟨hl, hn, hr⟩ := hk
    refine ⟨hl, hn.trans hs.uptime, fun r hr' hlt => ?_⟩
    obtain ⟨e, he, hc⟩ := hr r (hs.retryFallback ▸ hr') hlt
    exact ⟨e, he.later hlater, hc⟩
  | cached l k now => exact ⟨hk.1, fun hk' => (hk.2 hk').same hs⟩
  | fresh l k now c => exact ⟨hk.1, fun hk' => (hk.2.1 hk').same hs, hk.2.2.later hlater⟩
  | attempt | giveUp => exact Shared.Expired.same hk hs
  | stat l n g => exact ⟨hk.1.same hs, hk.2.1, hk.2.2.trans hs.generation⟩
  | compare l n g before =>
    have := Shared.Reading.same hk hs
    rw [← hs.cache] at this
    exact this
  | confirm l n g previous => exact ⟨hk.1.same hs, hk.2⟩
  | renew l previous => exact Shared.Renewing.same hk hs
  | rewrite l previous u => exact ⟨hk.1.same hs, hk.2.trans hs.uptime⟩
  | read | restat | verify => exact Shared.Reading.same hk hs
  | publish => exact ⟨hk.1.same hs, hk.2⟩
  | store => exact ⟨hk.1.same hs, hk.2.1, hk.2.2.trans hs.uptime⟩
  | settle l config => exact ⟨hk.1.same hs, hs.published ▸ hk.2⟩
  | coolClock l config => exact ⟨hk.1.same hs, hs.published ▸ hk.2⟩
  | cooldown l config u => exact ⟨hk.1.same hs, hs.published ▸ hk.2.1, hk.2.2.trans hs.uptime⟩
  | returning l k v => exact Shared.Answer.later hk hlater

/-- What a move of thread `t` from `s` has to keep. -/
structure Kept (t : ℕ) (s : Shared F C) (r : Shared F C × Pc F C) : Prop where
  inv : r.1.Inv src
  loc : Loc src t r.1 r.2
  later : s.Later src r.1

section

variable {src} {t : ℕ} {s : Shared F C} {l : Load}

omit [DecidableEq F]

/-- A step that looks and goes on. -/
theorem Kept.look {p : Pc F C} (hinv : s.Inv src) (hloc : Loc src t s p) : Kept src t s (s, p) :=
  ⟨hinv, hloc, .refl s⟩

/-- A move that writes nothing under the lock. -/
theorem Kept.same {s' : Shared F C} {p : Pc F C} (hinv : s.Inv src) (hs : s.Same s')
    (hloc : Loc src t s' p) : Kept src t s (s', p) :=
  ⟨hinv.same hs, hloc, hs.later⟩

/-- A load that misses. -/
theorem loc_missed {k : Bool} (hl : s.Began l) (hk : k = true → s.lock = some t)
    (he : k = true → s.Expired) : Loc src t s (.missed l k) := by
  cases k with
  | false => exact ⟨fun m hm => Option.mem_some.1 hm ▸ hl, nofun, trivial⟩
  | true => exact ⟨fun m hm => Option.mem_some.1 hm ▸ hl, hk, he rfl⟩

/-- The move to a place under the lock, with the state as it is. -/
theorem Kept.under {p : Pc F C} (hinv : s.Inv src) (hl : s.Began l) (hlock : s.lock = some t)
    (hp : p.load? = some l) (hknows : p.Knows src s) : Kept src t s (s, p) :=
  .look hinv ⟨fun m hm => by rw [hp] at hm; exact Option.mem_some.1 hm ▸ hl, fun _ => hlock, hknows⟩

/-- A load begins. -/
theorem kept_begin (hinv : s.Inv src) : Kept src t s s.begin := by
  refine .same hinv ⟨le_rfl, le_rfl, le_rfl, Nat.le_succ _, rfl, rfl, rfl, rfl⟩ ⟨?_, nofun, trivial⟩
  intro l hl
  obtain rfl := Option.mem_some.1 hl
  exact ⟨Nat.lt_succ_self _, le_rfl, le_rfl, le_rfl⟩

/-- The clock is read. -/
theorem kept_clock {k : Bool} (hinv : s.Inv src) (hp : Loc src t s (.clock l k)) :
    Kept src t s (s, .fallback l k s.uptime) := by
  refine .look hinv ⟨hp.began, hp.lock, (hp.began l rfl).uptime, le_rfl, fun r hr hlt => ?_⟩
  exact ⟨_, Shared.since_getLast? (hp.began l rfl), ((hinv.fallback r hr).config hlt).symm⟩

/-- The fallback is still good. -/
theorem kept_fallback {k : Bool} {now : ℕ} (hinv : s.Inv src) (hp : Loc src t s (.fallback l k now))
    {r : RetryFallback C} (hr : r ∈ s.retryFallback) (hlt : now < r.retryAtUptimeMs) :
    Kept src t s (s, .returning l k r.config) := by
  obtain ⟨hl, -, hknows⟩ := hp.knows
  obtain ⟨e, he, hc⟩ := hknows r hr hlt
  obtain ⟨f, hf, hn⟩ := (hinv.fallback r hr).failed
  exact .look hinv ⟨hp.began, hp.lock, e, he, hc, .inr ⟨f, hf, by omega⟩⟩

/-- The entry is still fresh. -/
theorem kept_fresh {k : Bool} {now : ℕ} {c : Cache F C} (hinv : s.Inv src)
    (hp : Loc src t s (.fresh l k now c)) (hg : c.generation = s.generation)
    (hlt : now < c.nextStatCheckUptimeMs) : Kept src t s (s, .returning l k c.config) := by
  obtain ⟨hl, -, huse⟩ := hp.knows
  obtain ⟨e, he, hc, hread, -⟩ := huse.config
  refine .look hinv ⟨hp.began, hp.lock, e, he, hc, ?_⟩
  rcases hread with ⟨q, hq, hgen⟩ | ⟨f, hf, hn⟩
  · exact .inl ⟨q, hq, ((hp.began l rfl).generation.trans hg.ge).trans hgen⟩
  · exact .inr ⟨f, hf, by omega⟩

/-- A fallback stands as long as no time passes and nothing is published. -/
theorem Shared.Cooling.later {s' : Shared F C} {r : RetryFallback C} (h : s.Cooling src r)
    (hs : s.Later src s') (huptime : s'.uptime = s.uptime)
    (hpublished : s'.published = s.published) :
    s'.Cooling src r := by
  obtain ⟨f, hf, hn⟩ := h.failed
  refine ⟨huptime ▸ h.soon, ⟨f, hs.failures hf, hn⟩, ?_⟩
  rw [huptime, hpublished]
  exact h.config

/-- An entry that was found unchanged is renewed: its read is of its own generation. -/
theorem kept_rewrite {previous : Cache F C} {u : ℕ} (hinv : s.Inv src)
    (hp : Loc src t s (.rewrite l previous u)) : Kept src t s
      ({ s with cache := some { previous with nextStatCheckUptimeMs := u + STAT_CHECK_INTERVAL_MS }
        },
        .returning l true previous.config) := by
  obtain ⟨⟨hexp, hgen, hcache, hsettled⟩, hu⟩ := hp.knows
  obtain ⟨e, he, hc, -, hread⟩ := (hinv.cache previous hcache).config
  obtain ⟨q, hq, hfp, hqg⟩ := hread hsettled
  have hlater : s.Later src { s with
      cache := some { previous with nextStatCheckUptimeMs := u + STAT_CHECK_INTERVAL_MS } } :=
    ⟨le_rfl, le_rfl, le_rfl, le_rfl, List.prefix_rfl, fun _ => id, fun _ => .inl⟩
  refine ⟨⟨nofun, ?_, fun r hr => (hinv.fallback r hr).later hlater rfl rfl, hinv.sound⟩,
    ⟨fun m hm => (hp.began m hm).later hlater, hp.lock, ?_⟩, hlater⟩
  · intro c hc'
    obtain rfl := Option.mem_some.1 hc'
    exact ⟨Nat.add_le_add_right hu _, e, he, hc, .inl ⟨q, hq, hqg⟩, fun _ => ⟨q, hq, hfp, hqg⟩⟩
  · exact ⟨e, he.weaken (hp.began l rfl).published, hc, .inl ⟨q, hq, hgen.trans hqg⟩⟩

/-- A read that succeeded is published. The fallback has expired, so none that counts has
    another config. -/
theorem kept_store_some {g u : ℕ} {before after : Seen F} {previous : Option (Cache F C)}
    {r : Seen C} (hinv : s.Inv src)
    (hp : Loc src t s (.store l g before previous (some r) after u)) :
    Kept src t s (s.store src l g before previous (some r) after u) := by
  obtain ⟨hread, heq, hu⟩ := hp.knows
  obtain ⟨hrv, hbr, -, hgr⟩ := hread.read r rfl
  obtain ⟨hav, has, hra⟩ := hread.restat after rfl
  have hlast : (s.published ++ [(⟨before, r, after⟩ : Publication F C)]).getLast? =
      some ⟨before, r, after⟩ := List.getLast?_concat
  have hlater : s.Later src (s.store src l g before previous (some r) after u).1 :=
    ⟨le_rfl, le_rfl, le_rfl, le_rfl, List.prefix_append _ _, fun _ => id, fun _ => .inl⟩
  refine ⟨⟨nofun, ?_, ?_, ?_⟩,
    ⟨fun m hm => (hp.began m hm).later hlater, fun _ => hp.lock rfl, hread.expired, ?_⟩, hlater⟩
  · intro c hc
    obtain rfl := Option.mem_some.1 hc
    refine ⟨Nat.add_le_add_right hu _, some ⟨before, r, after⟩, ⟨_, le_rfl, ?_⟩, rfl,
      .inl ⟨_, rfl, hgr⟩, fun _ => ⟨_, rfl, rfl, hgr⟩⟩
    rw [Shared.history_published, ← hlast]
    rfl
  · intro f hf
    obtain ⟨hsoon, hfailed, -⟩ := hinv.fallback f hf
    exact ⟨hsoon, hfailed, fun hlt => absurd (hread.expired f hf) (Nat.not_le_of_lt hlt)⟩
  · intro e he
    rcases List.mem_append.1 he with he | he
    · exact hinv.sound e he
    · obtain rfl := List.mem_singleton.1 he
      exact ⟨⟨hread.stat.1, hrv, hav, hbr, hra r rfl, heq⟩, has⟩
  · exact ⟨_, hlast, rfl, hread.since.trans hgr⟩

/-- A read that failed leaves the config as it is. -/
theorem kept_store_none {g u : ℕ} {before after : Seen F} {previous : Option (Cache F C)}
    (hinv : s.Inv src) (hp : Loc src t s (.store l g before previous none after u)) :
    Kept src t s (s.store src l g before previous none after u) := by
  obtain ⟨hread, -, hu⟩ := hp.knows
  have hconfig : Shared.configOr src previous = policy src s.published.getLast? := by
    rw [hread.held, hinv.configOr_cache]
  have hlater : s.Later src (s.store src l g before previous none after u).1 :=
    ⟨le_rfl, le_rfl, le_rfl, le_rfl, List.prefix_rfl, List.subset_append_left _ _, fun _ => .inl⟩
  refine ⟨⟨nofun, ?_, fun f hf => (hinv.fallback f hf).later hlater rfl rfl, hinv.sound⟩,
    ⟨fun m hm => (hp.began m hm).later hlater, fun _ => hp.lock rfl, hread.expired, hconfig⟩,
    hlater⟩
  intro c hc
  obtain rfl := Option.mem_some.1 hc
  refine ⟨Nat.add_le_add_right hu _, _, ⟨_, le_rfl, Shared.history_published _⟩, hconfig.symm,
    .inr ⟨s.uptime, ?_, Nat.add_le_add_right hu _⟩, nofun⟩
  exact List.mem_append_right _ (List.mem_singleton_self _)

/-- A load settles. -/
theorem kept_settle {config : C} (hinv : s.Inv src) (hp : Loc src t s (.settle l config)) :
    Kept src t s ({ s with retryFallback := none }, .returning l true config) := by
  obtain ⟨-, e, he, hc, hgen⟩ := hp.knows
  have hlater : s.Later src { s with retryFallback := none } :=
    ⟨le_rfl, le_rfl, le_rfl, le_rfl, List.prefix_rfl, fun _ => id, nofun⟩
  refine ⟨⟨hinv.none, fun c hc => (hinv.cache c hc).later hlater, nofun, hinv.sound⟩,
    ⟨fun m hm => (hp.began m hm).later hlater, hp.lock, ?_⟩, hlater⟩
  refine ⟨_, Shared.since_getLast? ((hp.began l rfl).later hlater), ?_, .inl ⟨e, he, hgen⟩⟩
  rw [policy, Option.mem_def.1 he]
  exact hc

/-- A load gives up. -/
theorem kept_giveUp (hinv : s.Inv src) (hp : Loc src t s (.giveUp l)) : Kept src t s
    ({ s with cache := s.cache.map fun c => { c with retryRead := true } },
      .coolClock l (Shared.configOr src s.cache)) := by
  have hlater : s.Later src { s with cache := s.cache.map fun c => { c with retryRead := true } } :=
    ⟨le_rfl, le_rfl, le_rfl, le_rfl, List.prefix_rfl, fun _ => id, fun _ => .inl⟩
  refine ⟨⟨fun hc => hinv.none (Option.map_eq_none_iff.1 hc), ?_,
      fun r hr => (hinv.fallback r hr).later hlater rfl rfl, hinv.sound⟩,
    ⟨fun m hm => (hp.began m hm).later hlater, hp.lock, hp.knows, hinv.configOr_cache⟩, hlater⟩
  intro c hc
  obtain ⟨d, hd, rfl⟩ := Option.map_eq_some_iff.1 hc
  obtain ⟨e, he, hconfig, hread, -⟩ := (hinv.cache d hd).config
  exact ⟨(hinv.cache d hd).soon, e, he, hconfig, hread, nofun⟩

/-- A load waits with the next read. -/
theorem kept_cooldown {config : C} {u : ℕ} (hinv : s.Inv src)
    (hp : Loc src t s (.cooldown l config u)) :
    Kept src t s ({ s with
        retryFallback := some ⟨config, u + STAT_CHECK_INTERVAL_MS⟩
        failures := s.failures ++ [s.uptime] },
      .returning l true config) := by
  obtain ⟨-, hc, hu⟩ := hp.knows
  have hmem : s.uptime ∈ s.failures ++ [s.uptime] :=
    List.mem_append_right _ (List.mem_singleton_self _)
  have hlater : s.Later src { s with
      retryFallback := some ⟨config, u + STAT_CHECK_INTERVAL_MS⟩
      failures := s.failures ++ [s.uptime] } := by
    refine ⟨le_rfl, le_rfl, le_rfl, le_rfl, List.prefix_rfl, List.subset_append_left _ _, ?_⟩
    intro r hr
    obtain rfl := Option.mem_some.1 hr
    exact .inr hc
  refine ⟨⟨hinv.none, fun c hc => (hinv.cache c hc).later hlater, ?_, hinv.sound⟩,
    ⟨fun m hm => (hp.began m hm).later hlater, hp.lock, ?_⟩, hlater⟩
  · intro r hr
    obtain rfl := Option.mem_some.1 hr
    exact ⟨Nat.add_le_add_right hu _, ⟨_, hmem, Nat.add_le_add_right hu _⟩, fun _ => hc⟩
  · refine ⟨_, Shared.since_getLast? ((hp.began l rfl).later hlater), hc.symm, .inr ⟨_, hmem, ?_⟩⟩
    exact Nat.lt_of_le_of_lt (hp.began l rfl).uptime (Nat.lt_add_of_pos_right (by decide))

end

section

variable {src} {t : ℕ} {s : Shared F C}

/-- Every move keeps the invariant and what its own thread knows. -/
theorem kept_move (ok : Bool) {p : Pc F C} (hinv : s.Inv src) (hp : Loc src t s p) :
    Kept src t s (s.move src t ok p) := by
  have hk := hp.knows
  -- By the place at which the thread is. Where it only goes on, the shared state stays the same.
  cases p with
  | idle => exact kept_begin hinv
  | clock l k => exact kept_clock hinv hp
  | fallback l k now =>
    have hcached (h : s.Expired) : Kept src t s (s, .cached l k now) :=
      .look hinv ⟨hp.began, hp.lock, hk.1, fun _ => h⟩
    rw [Shared.move]
    cases hr : s.retryFallback with
    | none => exact hcached fun r hr' => by rw [hr] at hr'; cases hr'
    | some r =>
      dsimp only
      by_cases hlt : now < r.retryAtUptimeMs
      · rw [if_pos hlt]
        exact kept_fallback hinv hp hr hlt
      · rw [if_neg hlt]
        refine hcached fun r' hr' => ?_
        obtain rfl : r = r' := Option.some.inj (hr.symm.trans hr')
        exact (Nat.le_of_not_lt hlt).trans hk.2.1
  | cached l k now =>
    rw [Shared.move]
    cases hc : s.cache with
    | none => exact .look hinv (loc_missed (hp.began l rfl) hp.lock hk.2)
    | some c =>
      refine .look hinv ⟨hp.began, hp.lock, hk.1, hk.2, ?_⟩
      exact (hinv.cache c hc).weaken (hp.began l rfl).published
  | fresh l k now c =>
    rw [Shared.move]
    by_cases h : c.generation = s.generation ∧ now < c.nextStatCheckUptimeMs
    · rw [if_pos h]
      exact kept_fresh hinv hp h.1 h.2
    · rw [if_neg h]
      exact .look hinv (loc_missed (hp.began l rfl) hp.lock hk.2.1)
  | acquire l =>
    rw [Shared.move]
    by_cases h : s.lock = none
    · rw [if_pos h]
      have hs : s.Same { s with lock := some t } :=
        ⟨le_rfl, le_rfl, le_rfl, le_rfl, rfl, rfl, rfl, rfl⟩
      have hlater : s.Later src { s with lock := some t } := hs.later
      exact .same hinv hs ⟨fun m hm => (hp.began m hm).later hlater, fun _ => rfl, trivial⟩
    · rw [if_neg h]
      exact .look hinv hp
  | attempt l n =>
    rw [Shared.move]
    split_ifs
    · exact .under hinv (hp.began l rfl) (hp.lock rfl) rfl
        ⟨hk, (hp.began l rfl).generation, le_rfl⟩
    · exact .under hinv (hp.began l rfl) (hp.lock rfl) rfl hk
  | stat l n g =>
    rw [Shared.move, Shared.fingerprint]
    cases ok with
    | false => exact .under hinv (hp.began l rfl) (hp.lock rfl) rfl hk.1
    | true =>
      exact .under hinv (hp.began l rfl) (hp.lock rfl) rfl
        ⟨hk.1, hk.2.1, hk.2.2, ⟨rfl, le_rfl⟩, rfl, nofun, nofun⟩
  | compare l n g before =>
    have hread : Kept src t s (s, .read l n g before s.cache) :=
      .under hinv (hp.began l rfl) (hp.lock rfl) rfl hk
    rw [Shared.move]
    cases hc : s.cache with
    | none => rwa [hc] at hread
    | some previous =>
      rw [hc] at hread
      dsimp only
      split_ifs with h
      · exact .under hinv (hp.began l rfl) (hp.lock rfl) rfl
          ⟨⟨hk.expired, hk.since.trans h.1.ge, hc, h.2.2⟩, h.1⟩
      · exact hread
  | confirm l n g previous =>
    rw [Shared.move]
    split_ifs
    · exact .under hinv (hp.began l rfl) (hp.lock rfl) rfl hk.1
    · exact .under hinv (hp.began l rfl) (hp.lock rfl) rfl hk.1.expired
  | renew l previous => exact .under hinv (hp.began l rfl) (hp.lock rfl) rfl ⟨hk, le_rfl⟩
  | rewrite l previous u => exact kept_rewrite hinv hp
  | read l n g before previous =>
    refine .under hinv (hp.began l rfl) (hp.lock rfl) rfl { hk with read := ?_, restat := nofun }
    intro r hr
    cases ok with
    | false => cases hr
    | true =>
      obtain rfl := Option.mem_some.1 hr
      exact ⟨rfl, hk.stat.2, le_rfl, hk.reached⟩
  | restat l n g before previous result =>
    refine .under hinv (hp.began l rfl) (hp.lock rfl) rfl { hk with restat := ?_ }
    intro a ha
    cases ok with
    | false => cases ha
    | true =>
      obtain rfl := Option.mem_some.1 ha
      exact ⟨rfl, le_rfl, fun r hr => (hk.read r hr).2.2.1⟩
  | verify l n g before previous result after =>
    have hretry : Kept src t s (s, .attempt l (n + 1)) :=
      .under hinv (hp.began l rfl) (hp.lock rfl) rfl hk.expired
    cases after with
    | none => exact hretry
    | some a =>
      rw [Shared.move]
      split_ifs with h
      · exact .under hinv (hp.began l rfl) (hp.lock rfl) rfl ⟨hk, h.1⟩
      · exact hretry
  | publish => exact .under hinv (hp.began _ rfl) (hp.lock rfl) rfl ⟨hk.1, hk.2, le_rfl⟩
  | store l g before previous result after u =>
    cases result with
    | none => exact kept_store_none hinv hp
    | some r => exact kept_store_some hinv hp
  | settle l config => exact kept_settle hinv hp
  | giveUp l => exact kept_giveUp hinv hp
  | coolClock l config =>
    exact .under hinv (hp.began l rfl) (hp.lock rfl) rfl ⟨hk.1, hk.2, le_rfl⟩
  | cooldown l config u => exact kept_cooldown hinv hp
  | returning l k v =>
    refine .same hinv ?_ ⟨nofun, nofun, trivial⟩
    cases k <;> exact ⟨le_rfl, le_rfl, le_rfl, le_rfl, rfl, rfl, rfl, rfl⟩

/-- While another thread holds the lock, a move outside it writes nothing under it. -/
theorem move_same (ok : Bool) {p : Pc F C} (hp : p.locked = false) (hlock : s.lock ≠ none) :
    s.Same (s.move src t ok p).1 ∧ (s.move src t ok p).1.lock = s.lock := by
  cases p with
  | idle => exact ⟨⟨le_rfl, le_rfl, le_rfl, Nat.le_succ _, rfl, rfl, rfl, rfl⟩, rfl⟩
  | clock l k => exact ⟨.refl s, rfl⟩
  | fallback l k now =>
    rw [Shared.move]
    split
    · split_ifs <;> exact ⟨.refl s, rfl⟩
    · exact ⟨.refl s, rfl⟩
  | cached l k now =>
    rw [Shared.move]
    split <;> exact ⟨.refl s, rfl⟩
  | fresh l k now c =>
    rw [Shared.move]
    split_ifs <;> exact ⟨.refl s, rfl⟩
  | acquire l =>
    rw [Shared.move, if_neg hlock]
    exact ⟨.refl s, rfl⟩
  | returning l k v =>
    obtain rfl : k = false := hp
    exact ⟨.refl s, rfl⟩
  | _ => exact absurd hp (by simp [Pc.locked])

/-- What another thread knows is kept by a move of `t`: one of the two does not hold the lock. -/
theorem Loc.move {u : ℕ} (ok : Bool) {p q : Pc F C} (hu : u ≠ t) (hinv : s.Inv src)
    (hp : Loc src t s p) (hq : Loc src u s q) : Loc src u (s.move src t ok p).1 q := by
  cases hk : q.locked with
  | false => exact hq.later hk (kept_move ok hinv hp).later
  | true =>
    have hlock : s.lock = some u := hq.lock hk
    have hunlocked : p.locked = false := by
      cases hpk : p.locked with
      | false => rfl
      | true => exact absurd (Option.some.inj ((hp.lock hpk).symm.trans hlock)).symm hu
    obtain ⟨hsame, hkeep⟩ := @move_same _ _ _ src t s ok p hunlocked (by rw [hlock]; nofun)
    exact hq.same hsame hkeep

omit [DecidableEq F] in

/-- The world does not touch the cache. -/
theorem world_same (s : Shared F C) (e : Change) :
    s.Same (s.world e) ∧ (s.world e).lock = s.lock := by
  cases e with
  | tick d => exact ⟨⟨le_rfl, Nat.le_add_right _ _, le_rfl, le_rfl, rfl, rfl, rfl, rfl⟩, rfl⟩
  | change => exact ⟨⟨le_rfl, le_rfl, Nat.le_succ _, le_rfl, rfl, rfl, rfl, rfl⟩, rfl⟩
  | invalidate => exact ⟨⟨Nat.le_succ _, le_rfl, le_rfl, le_rfl, rfl, rfl, rfl, rfl⟩, rfl⟩

end

theorem step_move (w : World F C) (t : ℕ) (ok : Bool) : (system src).step w (.move t ok) =
    ⟨(w.shared.move src t ok (w.states t)).1,
      Function.update w.states t (w.shared.move src t ok (w.states t)).2⟩ := rfl

/-- Every step keeps the invariant. -/
theorem holds_step (w : World F C) (e : Event) (h : System.Holds (Shared.Inv src) (Loc src) w) :
    System.Holds (Shared.Inv src) (Loc src) ((system src).step w e) := by
  cases e with
  | world e =>
    obtain ⟨hsame, hlock⟩ := world_same w.shared e
    exact h.world (h.shared.same hsame) fun t p hp => hp.same hsame hlock
  | move t ok =>
    have hkept := kept_move ok h.shared (h.states t)
    rw [step_move]
    exact h.move hkept.inv hkept.loc fun u p hu hp =>
      (h.states t).move ok hu h.shared hp

omit [DecidableEq F] in

/-- The invariant holds at the start. -/
theorem holds_init : System.Holds (Shared.Inv src) (Loc src) World.init where
  shared := ⟨fun _ => rfl, nofun, nofun, nofun⟩
  states _ := ⟨nofun, nofun, trivial⟩

/-- The invariant of every run. -/
theorem holds_run (es : List Event) :
    System.Holds (Shared.Inv src) (Loc src) (after src es) :=
  System.run_induction (holds_step src) es (holds_init src)

end VpnHide.Hook.PolicyCache

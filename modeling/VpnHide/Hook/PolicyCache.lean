import Mathlib.Data.Nat.Notation
import VpnHide.Lib.Threads

/-!
# The policy cache of `system_server`

`SystemServerPolicyCache`: many binder threads call `load`, a file watcher calls `invalidate`,
and the files change under both. A load first looks at the cooldown fallback and at the cache
without the lock (`cachedConfig`), and only when neither may be used does it take the lock, look
again, and read the files between two fingerprints (`loadLocked`).

A thread is at a `Pc`, one for each access to what is shared: the clock, the generation, the
volatile fields, the lock and the files. `move` is the access, so that whatever the other
threads do may fall between any two of them.

The files are a history of versions. What a run leaves behind for the statements is kept beside
the fields of the class: the publications (reads that gave a config between two equal
fingerprints), the times at which a load gave up on a read, and the number of loads begun.
-/

namespace VpnHide.Hook.PolicyCache

open Lib

/-- The files are looked at again after this time. -/
def STAT_CHECK_INTERVAL_MS : ℕ := 1000

/-- A read that is not stable is tried again at most so often. -/
def MAX_READ_ATTEMPTS : ℕ := 2

/-- The files, version by version: what a fingerprint of them is and what a read of them gives,
    and the config of a cache that has read nothing (`SystemServerConfig()`). -/
structure Sources (F C : Type) where
  fingerprint : ℕ → F
  config : ℕ → C
  empty : C

/-- What was seen of the files, of which version, and in which generation. -/
structure Seen (α : Type) where
  value : α
  version : ℕ
  generation : ℕ
  deriving DecidableEq

/-- The entry of the cache. -/
structure Cache (F C : Type) where
  generation : ℕ
  fingerprint : F
  config : C
  nextStatCheckUptimeMs : ℕ
  retryRead : Bool
  deriving DecidableEq

/-- What is returned while a failed read is not tried again. -/
structure RetryFallback (C : Type) where
  config : C
  retryAtUptimeMs : ℕ
  deriving DecidableEq

/-- A config that `readConfig` returned as `Loaded`, between two fingerprints. -/
structure Publication (F C : Type) where
  before : Seen F
  config : Seen C
  after : Seen F
  deriving DecidableEq

/-- What the threads share. The lock names the thread that holds it. -/
structure Shared (F C : Type) where
  generation : ℕ
  cache : Option (Cache F C)
  retryFallback : Option (RetryFallback C)
  lock : Option ℕ
  uptime : ℕ
  version : ℕ
  published : List (Publication F C)
  failures : List ℕ
  loads : ℕ
  deriving DecidableEq

/-- A call of `load`: its number, and the generation, the uptime and the number of publications
    when it began. -/
structure Load where
  id : ℕ
  generation : ℕ
  uptime : ℕ
  published : ℕ
  deriving DecidableEq

/-- Where a thread is in `load`. The first four are `cachedConfig`, without the lock and then
    with it; `attempt` is the head of the `repeat` and has the number of turns taken. -/
inductive Pc (F C : Type)
  | idle
  | clock (l : Load) (locked : Bool)
  | fallback (l : Load) (locked : Bool) (now : ℕ)
  | cached (l : Load) (locked : Bool) (now : ℕ)
  | fresh (l : Load) (locked : Bool) (now : ℕ) (c : Cache F C)
  | acquire (l : Load)
  | attempt (l : Load) (n : ℕ)
  | stat (l : Load) (n g : ℕ)
  | compare (l : Load) (n g : ℕ) (before : Seen F)
  | confirm (l : Load) (n g : ℕ) (previous : Cache F C)
  | renew (l : Load) (previous : Cache F C)
  | rewrite (l : Load) (previous : Cache F C) (u : ℕ)
  | read (l : Load) (n g : ℕ) (before : Seen F) (previous : Option (Cache F C))
  | restat (l : Load) (n g : ℕ) (before : Seen F) (previous : Option (Cache F C))
      (result : Option (Seen C))
  | verify (l : Load) (n g : ℕ) (before : Seen F) (previous : Option (Cache F C))
      (result : Option (Seen C)) (after : Option (Seen F))
  | publish (l : Load) (g : ℕ) (before : Seen F) (previous : Option (Cache F C))
      (result : Option (Seen C)) (after : Seen F)
  | store (l : Load) (g : ℕ) (before : Seen F) (previous : Option (Cache F C))
      (result : Option (Seen C)) (after : Seen F) (u : ℕ)
  | settle (l : Load) (config : C)
  | giveUp (l : Load)
  | coolClock (l : Load) (config : C)
  | cooldown (l : Load) (config : C) (u : ℕ)
  | returning (l : Load) (locked : Bool) (config : C)
  deriving DecidableEq

/-- What happens beside the loads: time passes, the files change, `invalidate` is called. -/
inductive Change
  | tick (d : ℕ)
  | change
  | invalidate
  deriving DecidableEq

namespace Pc

variable {F C : Type}

/-- The call a thread is in. -/
def load? : Pc F C → Option Load
  | .idle => none
  | .clock l _ | .fallback l _ _ | .cached l _ _ | .fresh l _ _ _ | .acquire l | .attempt l _
  | .stat l _ _ | .compare l _ _ _ | .confirm l _ _ _ | .renew l _ | .rewrite l _ _
  | .read l _ _ _ _ | .restat l _ _ _ _ _ | .verify l _ _ _ _ _ _ | .publish l _ _ _ _ _
  | .store l _ _ _ _ _ _ | .settle l _ | .giveUp l | .coolClock l _ | .cooldown l _ _
  | .returning l _ _ => some l

/-- Whether the thread is inside `synchronized(lock)`. -/
def locked : Pc F C → Bool
  | .idle | .acquire _ => false
  | .clock _ k | .fallback _ k _ | .cached _ k _ | .fresh _ k _ _ | .returning _ k _ => k
  | _ => true

/-- Where a thread goes when `cachedConfig` has nothing for it. -/
def missed (l : Load) (locked : Bool) : Pc F C := if locked then .attempt l 0 else .acquire l

end Pc

namespace Shared

variable {F C : Type}

/-- `fingerprint()`; it fails when the environment says so. -/
def fingerprint (src : Sources F C) (s : Shared F C) (ok : Bool) : Option (Seen F) :=
  if ok then some ⟨src.fingerprint s.version, s.version, s.generation⟩ else none

/-- `readConfig()`, with `Failed` as `none`. -/
def readConfig (src : Sources F C) (s : Shared F C) (ok : Bool) : Option (Seen C) :=
  if ok then some ⟨src.config s.version, s.version, s.generation⟩ else none

/-- `previous?.config ?: SystemServerConfig()` -/
def configOr (src : Sources F C) (previous : Option (Cache F C)) : C :=
  (previous.map (·.config)).getD src.empty

/-- A new call of `load`. -/
def begin (s : Shared F C) : Shared F C × Pc F C :=
  ({ s with loads := s.loads + 1 },
    .clock ⟨s.loads, s.generation, s.uptime, s.published.length⟩ false)

/-- The publication of a read that was between two equal fingerprints, in one generation:
    `cache = Cache(…)`. -/
def store (src : Sources F C) (s : Shared F C) (l : Load) (g : ℕ) (before : Seen F)
    (previous : Option (Cache F C)) (result : Option (Seen C)) (after : Seen F) (u : ℕ) :
    Shared F C × Pc F C :=
  match result with
  | some r =>
    ({ s with
        cache := some ⟨g, before.value, r.value, u + STAT_CHECK_INTERVAL_MS, false⟩
        published := s.published ++ [⟨before, r, after⟩] },
      .settle l r.value)
  | none =>
    ({ s with
        cache := some ⟨g, before.value, configOr src previous, u + STAT_CHECK_INTERVAL_MS, true⟩
        failures := s.failures ++ [s.uptime] },
      .coolClock l (configOr src previous))

variable [DecidableEq F]

/-- One access of thread `t` to what is shared, and where it is then. -/
def move (src : Sources F C) (t : ℕ) (ok : Bool) (s : Shared F C) : Pc F C → Shared F C × Pc F C
  | .idle => s.begin
  | .clock l k => (s, .fallback l k s.uptime)
  | .fallback l k now =>
    match s.retryFallback with
    | some r =>
      if now < r.retryAtUptimeMs then (s, .returning l k r.config) else (s, .cached l k now)
    | none => (s, .cached l k now)
  | .cached l k now =>
    match s.cache with
    | some c => (s, .fresh l k now c)
    | none => (s, .missed l k)
  | .fresh l k now c =>
    if c.generation = s.generation ∧ now < c.nextStatCheckUptimeMs then (s, .returning l k c.config)
    else (s, .missed l k)
  | .acquire l =>
    if s.lock = none then ({ s with lock := some t }, .clock l true) else (s, .acquire l)
  | .attempt l n => if n < MAX_READ_ATTEMPTS then (s, .stat l n s.generation) else (s, .giveUp l)
  | .stat l n g =>
    match s.fingerprint src ok with
    | some before => (s, .compare l n g before)
    | none => (s, .attempt l (n + 1))
  | .compare l n g before =>
    match s.cache with
    | some previous =>
      if previous.generation = g ∧ previous.fingerprint = before.value ∧
        previous.retryRead = false then
        (s, .confirm l n g previous)
      else (s, .read l n g before (some previous))
    | none => (s, .read l n g before none)
  | .confirm l n g previous =>
    if s.generation = g then (s, .renew l previous) else (s, .attempt l (n + 1))
  | .renew l previous => (s, .rewrite l previous s.uptime)
  | .rewrite l previous u =>
    ({ s with cache := some { previous with nextStatCheckUptimeMs := u + STAT_CHECK_INTERVAL_MS } },
      .returning l true previous.config)
  | .read l n g before previous => (s, .restat l n g before previous (s.readConfig src ok))
  | .restat l n g before previous result =>
    (s, .verify l n g before previous result (s.fingerprint src ok))
  | .verify l n g before previous result after =>
    match after with
    | some a =>
      if before.value = a.value ∧ s.generation = g then (s, .publish l g before previous result a)
      else (s, .attempt l (n + 1))
    | none => (s, .attempt l (n + 1))
  | .publish l g before previous result after =>
    (s, .store l g before previous result after s.uptime)
  | .store l g before previous result after u => s.store src l g before previous result after u
  | .settle l config => ({ s with retryFallback := none }, .returning l true config)
  | .giveUp l =>
    ({ s with cache := s.cache.map fun c => { c with retryRead := true } },
      .coolClock l (configOr src s.cache))
  | .coolClock l config => (s, .cooldown l config s.uptime)
  | .cooldown l config u =>
    ({ s with
        retryFallback := some ⟨config, u + STAT_CHECK_INTERVAL_MS⟩
        failures := s.failures ++ [s.uptime] },
      .returning l true config)
  | .returning _ k _ => (if k then { s with lock := none } else s, .idle)

/-- What others do meanwhile. -/
def world (s : Shared F C) : Change → Shared F C
  | .tick d => { s with uptime := s.uptime + d }
  | .change => { s with version := s.version + 1 }
  | .invalidate => { s with generation := s.generation + 1 }

end Shared

variable {F C : Type} [DecidableEq F] (src : Sources F C)

/-- The cache and the threads that call it; the choice of a move is whether the file access it
    makes, if any, succeeds. -/
def system : System (Shared F C) ℕ Bool Change (Pc F C) where
  world e s := s.world e
  move t ok s p := s.move src t ok p

/-- The cache with its threads. -/
abbrev World (F C : Type) := Threads (Shared F C) ℕ (Pc F C)

/-- What may happen. -/
abbrev Event := Happening ℕ Bool Change

/-- The cache before any load. -/
def World.init : World F C :=
  ⟨⟨0, none, none, none, 0, 0, [], [], 0⟩, fun _ => .idle⟩

/-- The world after a run. -/
def after (es : List Event) : World F C := (system src).run World.init es

/-- Several events after others. -/
theorem after_append (es fs : List Event) :
    after src (es ++ fs) = (system src).run (after src es) fs :=
  System.run_append ..

end VpnHide.Hook.PolicyCache

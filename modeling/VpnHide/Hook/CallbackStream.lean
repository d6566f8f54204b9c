import Mathlib.Data.List.Basic
import VpnHide.Hook.CallbackRouter

/-!
# The stream of callbacks an app sees

What an app makes of the calls that come through the router is a `View`: the network announced
to it, and the payload it last got of each kind. The router keeps two records of the same thing,
the network it holds and the history of its filter, in two classes and at different moments of a
call. `Agrees` says that they are the view; every call the router lets through then fits it, and
the outcome of every event keeps the agreement (`sound_dispatch`).
-/

namespace VpnHide.Hook.CallbackRouter

variable {Caps Props : Type}

/-- What an app makes of the calls it gets. -/
structure View (Caps Props : Type) where
  announced : Option ℕ
  last : PayloadKind → Option (Value Caps Props)

namespace View

/-- The app has seen nothing. -/
def init : View Caps Props := ⟨none, fun _ => none⟩

/-- What an app knows after a callback. -/
def see (v : View Caps Props) (c : Callback Caps Props) : View Caps Props :=
  match c.bundle.network with
  | none => v
  | some n =>
    match c.type with
    | .available => ⟨some n, c.payload⟩
    | .lost => .init
    | .changed k => { v with last := Function.update v.last k ((c.payload k).or (v.last k)) }
    | _ => v

/-- A call that names no VPN, announces a network only if it is not announced, and is about no
    other network than the one announced. -/
def Fits (isVpn : ℕ → Bool) (v : View Caps Props) (c : Callback Caps Props) : Prop :=
  ∀ n ∈ c.bundle.network, isVpn n = false ∧
    (c.type = .available → v.announced ≠ some n) ∧ (c.type ≠ .available → v.announced = some n)

/-- Every call fits what the app makes of those before it. -/
def WellFormed (isVpn : ℕ → Bool) : View Caps Props → List (Callback Caps Props) → Prop
  | _, [] => True
  | v, c :: cs => v.Fits isVpn c ∧ (v.see c).WellFormed isVpn cs

/-- Streams that are well formed, one after the other. -/
theorem WellFormed.append {isVpn : ℕ → Bool} {cs ds : List (Callback Caps Props)} :
    ∀ {v : View Caps Props}, v.WellFormed isVpn cs → (cs.foldl see v).WellFormed isVpn ds →
      v.WellFormed isVpn (cs ++ ds) := by
  induction cs with
  | nil => exact fun _ hds => hds
  | cons c cs ih => exact fun hcs hds => ⟨hcs.1, ih hcs.2 hds⟩

end View

/-- The router agrees with the app on the network that is announced, and the filter on the
    payloads the app last got for it. -/
structure Agrees (isVpn : ℕ → Bool) (s : Registration Caps Props) (v : View Caps Props) : Prop where
  held : s.held = v.announced
  history : ∀ n ∈ s.held, ∃ h ∈ s.history, h.network = some n ∧ h.values = v.last
  forgotten : s.held = none → s.history = none
  physical : ∀ n ∈ s.held, isVpn n = false

/-- An outcome that fits the view `v` and leaves the router and the app in agreement. -/
structure Sound (isVpn : ℕ → Bool) (v : View Caps Props)
    (r : Registration Caps Props × List (Callback Caps Props)) : Prop where
  fits : v.WellFormed isVpn r.2
  agrees : Agrees isVpn r.1 (r.2.foldl View.see v)

section

variable {c : Callback Caps Props}

/-- A payload is of its kind. -/
theorem kind_of_payload {k : PayloadKind} {x : Value Caps Props} (h : c.payload k = some x) :
    x.kind = k := by
  cases k with
  | capabilities => obtain ⟨_, _, rfl⟩ := Option.map_eq_some_iff.1 h; rfl
  | properties => obtain ⟨_, _, rfl⟩ := Option.map_eq_some_iff.1 h; rfl
  | blocked => obtain rfl := Option.some.inj h; rfl

/-- The payloads of a callback. -/
theorem mem_payloads {x : Value Caps Props} : x ∈ c.payloads ↔ c.payload x.kind = some x := by
  rw [Callback.payloads, List.mem_filterMap]
  constructor
  · rintro ⟨k, -, hk⟩
    rw [kind_of_payload hk]
    exact hk
  · intro h
    refine ⟨x.kind, ?_, h⟩
    cases x.kind <;> decide

/-- A call has at most one payload of a kind. -/
theorem payloads_filter (c : Callback Caps Props) (k : PayloadKind) :
    c.payloads.filter (·.kind = k) = (c.payload k).toList := by
  obtain ⟨type, ⟨network, capabilities, properties⟩, arg⟩ := c
  cases capabilities <;> cases properties <;> cases k <;> rfl

/-- A callback has each payload once. -/
theorem nodup_payloads (c : Callback Caps Props) : (c.payloads.map Value.kind).Nodup := by
  obtain ⟨type, ⟨network, capabilities, properties⟩, arg⟩ := c
  cases capabilities <;> cases properties <;>
    simp [Callback.payloads, Callback.payload, Value.kind, List.filterMap_cons]

theorem find?_payloads (c : Callback Caps Props) (k : PayloadKind) :
    c.payloads.find? (·.kind = k) = c.payload k := by
  rw [← List.head?_filter, payloads_filter, Option.head?_toList]

end

section

variable [DecidableEq Caps] [DecidableEq Props] {isVpn : ℕ → Bool} {s : Registration Caps Props}
  {v : View Caps Props} {c : Callback Caps Props} {n : ℕ}

namespace CallbackPayloadHistory

theorem values_changed (h : CallbackPayloadHistory Caps Props) (x : Value Caps Props) :
    (h.changed x).1.values = Function.update h.values x.kind (some x) := rfl

/-- Changes do not touch the network. -/
theorem network_changes (xs : List (Value Caps Props)) : ∀ h : CallbackPayloadHistory Caps Props,
    (h.changes xs).1.network = h.network := by
  induction xs with
  | nil => exact fun _ => rfl
  | cons x xs ih => exact fun h => ih (h.changed x).1

/-- Of payloads of different kinds, those pass that the history does not have. -/
theorem changes_eq_filter {xs : List (Value Caps Props)} (hxs : (xs.map Value.kind).Nodup) :
    ∀ h : CallbackPayloadHistory Caps Props,
      (h.changes xs).2 = xs.filter fun x => h.values x.kind ≠ some x := by
  induction xs with
  | nil => exact fun _ => rfl
  | cons x xs ih =>
    intro h
    rw [List.map_cons, List.nodup_cons] at hxs
    have hrest : ((h.changed x).1.changes xs).2 = xs.filter fun y => h.values y.kind ≠ some y := by
      rw [ih hxs.2]
      refine List.filter_congr fun y hy => ?_
      have hne : y.kind ≠ x.kind := fun heq => hxs.1 (heq ▸ List.mem_map_of_mem hy)
      rw [values_changed, Function.update_of_ne hne]
    rw [List.filter_cons, ← hrest]
    rfl

/-- The history has the payloads of its last call, and what it had of the other kinds. -/
theorem values_changes {xs : List (Value Caps Props)} (hxs : (xs.map Value.kind).Nodup)
    (k : PayloadKind) : ∀ h : CallbackPayloadHistory Caps Props,
      (h.changes xs).1.values k = (xs.find? (·.kind = k)).or (h.values k) := by
  induction xs with
  | nil => exact fun _ => rfl
  | cons x xs ih =>
    intro h
    rw [List.map_cons, List.nodup_cons] at hxs
    refine (ih hxs.2 (h.changed x).1).trans ?_
    by_cases hk : x.kind = k
    · have hnone : xs.find? (·.kind = k) = none := by
        rw [List.find?_eq_none]
        intro y hy
        have hne : y.kind ≠ k := fun heq => hxs.1 (hk.trans heq.symm ▸ List.mem_map_of_mem hy)
        simpa using hne
      rw [hnone, List.find?_cons_of_pos (by simpa using hk), values_changed, ← hk,
        Function.update_self]
      rfl
    · rw [List.find?_cons_of_neg (by simpa using hk), values_changed,
        Function.update_of_ne (Ne.symm hk)]

end CallbackPayloadHistory

namespace View

omit [DecidableEq Caps] [DecidableEq Props] in

/-- What an app sees of a change. -/
theorem see_changed (hn : c.bundle.network = some n) (v : View Caps Props) (k : PayloadKind) :
    v.see { c with type := .changed k } =
      { v with last := Function.update v.last k ((c.payload k).or (v.last k)) } := by
  rw [see]
  dsimp only
  rw [hn]
  rfl

/-- An app that gets the payloads that pass has what the history has. -/
theorem see_changes (hn : c.bundle.network = some n) {xs : List (Value Caps Props)}
    (hxs : ∀ x ∈ xs, c.payload x.kind = some x) :
    ∀ (h : CallbackPayloadHistory Caps Props) (v : View Caps Props), v.last = h.values →
      ((h.changes xs).2.map fun x => { c with type := .changed x.kind }).foldl see v =
        ⟨v.announced, (h.changes xs).1.values⟩ := by
  induction xs with
  | nil =>
    rintro h ⟨announced, last⟩ rfl
    rfl
  | cons x xs ih =>
    intro h v hv
    have hx := hxs x List.mem_cons_self
    have hrest := ih (fun y hy => hxs y (List.mem_cons_of_mem _ hy)) (h.changed x).1
    by_cases hnew : h.values x.kind = some x
    · -- The payload is not new: the app does not get it, and the history has it already.
      have hpass : (h.changes (x :: xs)).2 = ((h.changed x).1.changes xs).2 :=
        if_neg (by simp [hnew])
      rw [hpass]
      refine hrest v ?_
      rw [CallbackPayloadHistory.values_changed, ← hnew, Function.update_eq_self, hv]
    · have hpass : (h.changes (x :: xs)).2 = x :: ((h.changed x).1.changes xs).2 :=
        if_pos (by simp [hnew])
      rw [hpass, List.map_cons, List.foldl_cons, see_changed hn]
      refine hrest _ ?_
      rw [CallbackPayloadHistory.values_changed, hx, hv]
      rfl

omit [DecidableEq Caps] [DecidableEq Props] in

/-- Changes of a physical network are well formed. -/
theorem wellFormed_changed (hn : c.bundle.network = some n) (hvpn : isVpn n = false)
    (xs : List (Value Caps Props)) : ∀ v : View Caps Props, v.announced = some n →
      v.WellFormed isVpn (xs.map fun x => { c with type := .changed x.kind }) := by
  induction xs with
  | nil => exact fun _ _ => trivial
  | cons x xs ih =>
    intro v hv
    refine ⟨fun m hm => ?_, ih _ ?_⟩
    · obtain rfl : n = m := Option.some.inj (hn.symm.trans hm)
      exact ⟨hvpn, nofun, fun _ => hv⟩
    · rw [see_changed hn]
      exact hv

end View

/-- The payload of `c` of kind `k` is the one the app last got. -/
def View.Repeats (v : View Caps Props) (c : Callback Caps Props) (k : PayloadKind) : Prop :=
  ∃ x, c.payload k = some x ∧ v.last k = some x

/-- An `AVAILABLE` for the network that is announced passes as the payloads that are new. -/
theorem filter_announced (hs : Agrees isVpn s v) (hn : c.bundle.network = some n)
    (htype : c.type = .available) (hheld : s.held = some n) :
    ∃ h : CallbackPayloadHistory Caps Props, h.network = some n ∧ h.values = v.last ∧
      filter s.history c = (some (h.changes c.payloads).1,
        (h.changes c.payloads).2.map fun x => { c with type := .changed x.kind }) := by
  obtain ⟨h, hh, hnet, hvals⟩ := hs.history n hheld
  refine ⟨h, hnet, hvals, ?_⟩
  rw [filter, hn, htype, Option.mem_def.1 hh]
  simp only [Option.getD_some, CallbackPayloadHistory.available, hnet, if_true]
  rfl

/-- An `AVAILABLE` for another network passes, and starts the history anew. -/
theorem filter_other (hs : Agrees isVpn s v) (hn : c.bundle.network = some n)
    (htype : c.type = .available) (hheld : s.held ≠ some n) :
    filter s.history c =
      (some (CallbackPayloadHistory.changes ⟨some n, fun _ => none⟩ c.payloads).1, [c]) := by
  have hnet : (s.history.getD .empty).network ≠ some n := by
    cases h : s.held with
    | none =>
      rw [hs.forgotten h]
      nofun
    | some m =>
      obtain ⟨h', hh', hm, -⟩ := hs.history m h
      rw [Option.mem_def.1 hh', Option.getD_some, hm, ← h]
      exact hheld
  rw [filter, hn, htype]
  simp only [CallbackPayloadHistory.available, hnet, if_false]
  rfl

/-- A physical network becomes available. -/
theorem sound_available (hs : Agrees isVpn s v) (hn : c.bundle.network = some n)
    (htype : c.type = .available) (hvpn : isVpn n = false) :
    Sound isVpn v (⟨some n, (filter s.history c).1⟩, (filter s.history c).2) := by
  by_cases hheld : s.held = some n
  · obtain ⟨h, hnet, hvals, heq⟩ := filter_announced hs hn htype hheld
    have hannounced : v.announced = some n := hs.held.symm.trans hheld
    rw [heq]
    refine ⟨View.wellFormed_changed hn hvpn _ v hannounced, ?_⟩
    rw [View.see_changes hn (fun x hx => mem_payloads.1 hx) h v hvals.symm]
    refine ⟨hannounced.symm, fun m hm => ?_, nofun, fun m hm => Option.mem_some.1 hm ▸ hvpn⟩
    obtain rfl := Option.mem_some.1 hm
    exact ⟨_, rfl, (CallbackPayloadHistory.network_changes _ h).trans hnet, rfl⟩
  · rw [filter_other hs hn htype hheld]
    have hsee : v.see c = ⟨some n, c.payload⟩ := by rw [View.see, hn, htype]
    refine ⟨⟨fun m hm => ?_, trivial⟩, ?_⟩
    · obtain rfl : n = m := Option.some.inj (hn.symm.trans hm)
      exact ⟨hvpn, fun _ heq => hheld (hs.held.trans heq), fun h => absurd htype h⟩
    · rw [List.foldl_cons, List.foldl_nil, hsee]
      refine ⟨rfl, fun m hm => ?_, nofun, fun m hm => Option.mem_some.1 hm ▸ hvpn⟩
      obtain rfl := Option.mem_some.1 hm
      refine ⟨_, rfl, CallbackPayloadHistory.network_changes _ _, funext fun k => ?_⟩
      rw [CallbackPayloadHistory.values_changes (nodup_payloads c), find?_payloads, Option.or_none]

/-- A change for the network that is announced passes unless the app has its payload. -/
theorem filter_changed {k : PayloadKind} (hs : Agrees isVpn s v) (hn : c.bundle.network = some n)
    (htype : c.type = .changed k) (hheld : s.held = some n) :
    ∃ h : CallbackPayloadHistory Caps Props, h.network = some n ∧ h.values = (v.see c).last ∧
      ((v.Repeats c k ∧ filter s.history c = (some h, [])) ∨
        (¬v.Repeats c k ∧ filter s.history c = (some h, [c]))) := by
  obtain ⟨h, hh, hnet, hvals⟩ := hs.history n hheld
  have hsee : (v.see c).last = Function.update v.last k ((c.payload k).or (v.last k)) := by
    rw [View.see, hn, htype]
  refine ⟨(h.changes (c.payload k).toList).1, ?_, ?_, ?_⟩
  · rw [CallbackPayloadHistory.network_changes, hnet]
  · rw [hsee, ← hvals]
    cases hp : c.payload k with
    | none => rw [Option.none_or, Function.update_eq_self]; rfl
    | some x =>
      obtain rfl := kind_of_payload hp
      rfl
  · have heq : filter s.history c = (some (h.changes (c.payload k).toList).1,
        if k ∈ c.payloads.map Value.kind ∧ k ∉ (h.changes (c.payload k).toList).2.map Value.kind
        then [] else [c]) := by
      rw [filter, hn, htype, Option.mem_def.1 hh]
      simp only [Option.getD_some, CallbackPayloadHistory.available, hnet, if_true,
        payloads_filter]
    rw [heq]
    -- A change without a payload is no repetition.
    cases hp : c.payload k with
    | none =>
      refine .inr ⟨fun ⟨x, hx, _⟩ => by simp [hp] at hx, ?_⟩
      rw [if_neg]
      rintro ⟨hk, -⟩
      obtain ⟨x, hx, rfl⟩ := List.mem_map.1 hk
      rw [mem_payloads.1 hx] at hp
      cases hp
    | some x =>
      obtain rfl := kind_of_payload hp
      have hmem : x.kind ∈ c.payloads.map Value.kind := List.mem_map_of_mem (mem_payloads.2 hp)
      -- With one, the history knows whether the app has it.
      by_cases hlast : v.last x.kind = some x
      · refine .inl ⟨⟨x, hp, hlast⟩, ?_⟩
        simp [CallbackPayloadHistory.changes, CallbackPayloadHistory.changed, hvals, hlast, hmem]
      · refine .inr ⟨fun ⟨y, hy, hy'⟩ => hlast (hy'.trans (hy.symm.trans hp)), ?_⟩
        simp [CallbackPayloadHistory.changes, CallbackPayloadHistory.changed, hvals, hlast]

omit [DecidableEq Caps] [DecidableEq Props] in
/-- A call about the announced network that does not announce it fits. -/
theorem View.fits_of_announced (hs : Agrees isVpn s v) (hn : c.bundle.network = some n)
    (htype : c.type ≠ .available) (hheld : s.held = some n) : v.Fits isVpn c := by
  intro m hm
  obtain rfl : n = m := Option.some.inj (hn.symm.trans hm)
  exact ⟨hs.physical n hheld, fun h => absurd h htype, fun _ => hs.held.symm.trans hheld⟩

omit [DecidableEq Caps] [DecidableEq Props] in
/-- Nothing passes and nothing is kept. -/
theorem Agrees.sound (hs : Agrees isVpn s v) : Sound isVpn v (s, []) := ⟨trivial, hs⟩

omit [DecidableEq Caps] [DecidableEq Props] in
/-- A `LOST` of the announced network: the router forgets what the app has lost. -/
theorem sound_lost (hs : Agrees isVpn s v) (hn : c.bundle.network = some n)
    (htype : c.type = .lost) (hheld : s.held = some n) : Sound isVpn v (⟨none, none⟩, [c]) := by
  refine ⟨⟨View.fits_of_announced hs hn (by rw [htype]; decide) hheld, trivial⟩, ?_⟩
  have hsee : v.see c = .init := by rw [View.see, hn, htype]
  rw [List.foldl_cons, List.foldl_nil, hsee]
  exact ⟨rfl, nofun, fun _ => rfl, nofun⟩

/-- The network that is held changes. -/
theorem sound_changed {k : PayloadKind} (hs : Agrees isVpn s v) (hn : c.bundle.network = some n)
    (htype : c.type = .changed k) (hheld : s.held = some n) :
    Sound isVpn v (⟨some n, (filter s.history c).1⟩, (filter s.history c).2) := by
  obtain ⟨h, hnet, hvals, ⟨hrepeats, heq⟩ | ⟨-, heq⟩⟩ := filter_changed hs hn htype hheld
  · obtain ⟨x, hp, hlast⟩ := hrepeats
    rw [heq]
    refine ⟨trivial, hheld ▸ hs.held, fun m hm => ⟨h, rfl, ?_, ?_⟩, nofun, hheld ▸ hs.physical⟩
    · exact hnet.trans hm
    · have hsee : (v.see c).last = Function.update v.last k ((c.payload k).or (v.last k)) := by
        rw [View.see, hn, htype]
      rw [hvals, hsee, hp, Option.some_or, ← hlast, Function.update_eq_self]
      rfl
  · rw [heq]
    refine ⟨⟨View.fits_of_announced hs hn (by rw [htype]; nofun) hheld, trivial⟩, ?_,
      fun m hm => ⟨h, rfl, ?_, hvals⟩, nofun, hheld ▸ hs.physical⟩
    · have hsee : (v.see c).announced = v.announced := by rw [View.see, hn, htype]
      rw [List.foldl_cons, List.foldl_nil, hsee, ← hs.held, hheld]
    · exact hnet.trans hm

/-- Any call about the announced network but `LOST`, when it reaches the filter. -/
theorem sound_filter (hs : Agrees isVpn s v) (hn : c.bundle.network = some n)
    (htype : c.type ≠ .lost) (hheld : s.held = some n) :
    Sound isVpn v (⟨some n, (filter s.history c).1⟩, (filter s.history c).2) := by
  have hpass (hother : filter s.history c = (s.history, [c])) (hsee : v.see c = v)
      (ha : c.type ≠ .available) :
      Sound isVpn v (⟨some n, (filter s.history c).1⟩, (filter s.history c).2) := by
    rw [hother]
    refine ⟨⟨View.fits_of_announced hs hn ha hheld, trivial⟩, ?_⟩
    rw [List.foldl_cons, List.foldl_nil, hsee, ← hheld]
    exact hs
  cases htype' : c.type with
  | available => exact sound_available hs hn htype' (hs.physical n hheld)
  | changed k => exact sound_changed hs hn htype' hheld
  | lost => exact absurd htype' htype
  | losing =>
    exact hpass (by rw [filter, hn, htype']) (by rw [View.see, hn, htype']) (by rw [htype']; nofun)
  | other =>
    exact hpass (by rw [filter, hn, htype']) (by rw [View.see, hn, htype']) (by rw [htype']; nofun)

omit [DecidableEq Caps] [DecidableEq Props] in
/-- A transition that keeps the network held keeps the registration, when nothing is filtered. -/
theorem Agrees.remember_self (hs : Agrees isVpn s v) {next : CallbackTransition}
    (hnext : next.held = s.held) : remember s.history next = s := by
  obtain ⟨held, history⟩ := s
  rw [remember, hnext]
  cases held with
  | none => rw [if_pos rfl, ← hs.forgotten rfl]
  | some m => rw [if_neg (by nofun)]

/-- A callback of a physical network. -/
theorem sound_physical (hs : Agrees isVpn s v) (hn : c.bundle.network = some n)
    (hvpn : isVpn n = false) :
    Sound isVpn v
      (remember (filterPhysical s.history (transitionPhysicalCallback s.held n (eventKind c.type))
        c).1
          (transitionPhysicalCallback s.held n (eventKind c.type)),
        (filterPhysical s.history (transitionPhysicalCallback s.held n (eventKind c.type))
          c).2) := by
  -- A network that comes is announced anew,
  by_cases ha : c.type = .available
  · have hnext : (transitionPhysicalCallback s.held n (eventKind c.type)).held = some n := by
      rw [ha]
      rfl
    have hfilter (next : CallbackTransition) :
        filterPhysical s.history next c = filter s.history c :=
      if_neg fun h => h.2 ha
    rw [hfilter, remember, hnext, if_neg (by nofun)]
    exact sound_available hs hn ha hvpn
  have hkind : eventKind c.type ≠ .available := by
    cases h : c.type with
    | available => exact absurd h ha
    | _ => nofun
  -- and what happens to it later counts while it is the one that is held.
  by_cases hheld : s.held = some n
  · by_cases hl : c.type = .lost
    · have hnext :
          transitionPhysicalCallback s.held n (eventKind c.type) = ⟨none, .forward, some n⟩ := by
        rw [transitionPhysicalCallback, if_neg hkind, if_neg (not_not_intro hheld), hl]
        rfl
      have hfilter : filter s.history c = (s.history, [c]) := by rw [filter, hn, hl]
      rw [hnext, filterPhysical, if_neg (by simp), hfilter]
      exact sound_lost hs hn hl hheld
    · have hlost : eventKind c.type ≠ .lost := by
        cases h : c.type with
        | lost => exact absurd h hl
        | _ => nofun
      have hnext : transitionPhysicalCallback s.held n (eventKind c.type) =
          { held := s.held, delivery := .forward } := by
        rw [transitionPhysicalCallback, if_neg hkind, if_neg (not_not_intro hheld), if_neg hlost]
      rw [hnext, filterPhysical, if_neg (by simp), hheld]
      exact sound_filter hs hn hl hheld
  · have hnext : transitionPhysicalCallback s.held n (eventKind c.type) =
        { held := s.held, delivery := .suppress } := by
      rw [transitionPhysicalCallback, if_neg hkind, if_pos hheld]
    rw [hnext, filterPhysical, if_pos ⟨rfl, ha⟩, hs.remember_self rfl]
    exact hs.sound

omit [DecidableEq Caps] [DecidableEq Props] in
/-- What a VPN event comes to, by the cover of the app. -/
theorem next_cases (s : Registration Caps Props) (e : Incoming Caps Props) :
    (∃ m, e.cover = none ∧ s.held = some m ∧ s.next e = ⟨none, .lost, some m⟩) ∨
    ((s.next e).held = s.held ∧ (s.next e).delivery = .suppress) ∨
    (∃ n, e.cover = some n ∧ s.held ≠ some n ∧
      s.next e = { held := some n, delivery := .available }) ∨
    (∃ n, e.cover = some n ∧ s.held = some n ∧ e.callback.type ≠ .lost ∧
      (s.next e).held = some n ∧ (s.next e).delivery = .forward) := by
  cases hc : e.cover with
  | none =>
    cases hh : s.held with
    | none => exact .inr (.inl (by simp [Registration.next, transitionCallback, hc, hh]))
    | some m => exact .inl ⟨m, rfl, rfl, by simp [Registration.next, transitionCallback, hc, hh]⟩
  | some n =>
    by_cases hh : s.held = some n
    · cases ht : e.callback.type with
      | lost | losing =>
        exact .inr (.inl (by simp [Registration.next, transitionCallback, eventKind, hc, hh, ht]))
      | available | changed | other =>
        exact .inr (.inr (.inr ⟨n, rfl, hh, nofun,
          by simp [Registration.next, transitionCallback, eventKind, hc, hh, ht]⟩))
    · refine .inr (.inr (.inl ⟨n, rfl, hh, ?_⟩))
      simp [Registration.next, transitionCallback, hc, Ne.symm hh]

/-- A callback of a VPN. -/
theorem sound_vpn {e : Incoming Caps Props} (hs : Agrees isVpn s v)
    (hcover : ∀ n ∈ e.cover, isVpn n = false) :
    match deliver s.history (s.next e) e with
    | none => True
    | some (history, calls) => Sound isVpn v (remember history (s.next e), calls) := by
  rcases next_cases s e with ⟨m, -, hheld, hnext⟩ | ⟨hheld, hnext⟩ | ⟨n, hc, -, hnext⟩ |
    ⟨n, hc, hheld, htype, hnext, hdelivery⟩
  · rw [hnext]
    exact sound_lost hs rfl rfl hheld
  · rw [deliver, hnext]
    dsimp only
    rw [hs.remember_self hheld]
    exact hs.sound
  · rw [hnext, deliver]
    cases e.agent with
    | none => trivial
    | some a => exact sound_available hs hc rfl (hcover n hc)
  · rw [deliver, hdelivery]
    cases e.agent with
    | none => trivial
    | some a =>
      dsimp only [Option.map_some]
      rw [remember, hnext, if_neg (by nofun)]
      exact sound_filter hs hc htype hheld

/-- Every event leaves the router and the app in agreement. -/
theorem sound_dispatch {e : Incoming Caps Props} (hs : Agrees isVpn s v)
    (hcover : ∀ n ∈ e.cover, isVpn n = false) : Sound isVpn v (dispatch isVpn false s e) := by
  rw [dispatch]
  cases hn : e.callback.bundle.network with
  | none =>
    refine ⟨⟨fun n h => ?_, trivial⟩, ?_⟩
    · rw [hn] at h
      cases h
    · have hsee : v.see e.callback = v := by rw [View.see, hn]
      rw [List.foldl_cons, List.foldl_nil, hsee]
      exact hs
  | some n =>
    dsimp only
    rw [if_neg (by decide)]
    cases hvpn : isVpn n with
    | false => exact sound_physical hs hn hvpn
    | true =>
      rw [if_pos rfl]
      have hsound := sound_vpn hs hcover
      cases hd : deliver s.history (s.next e) e with
      | none => exact hs.sound
      | some r =>
        rw [hd] at hsound
        exact hsound

/-- So does every sequence of events. -/
theorem sound_run {es : List (Incoming Caps Props)}
    (hcover : ∀ e ∈ es, ∀ n ∈ e.cover, isVpn n = false) :
    ∀ {s : Registration Caps Props} {v : View Caps Props}, Agrees isVpn s v →
      Sound isVpn v (run isVpn false s es) := by
  induction es with
  | nil => exact fun hs => hs.sound
  | cons e es ih =>
    intro s v hs
    have hfirst := sound_dispatch hs (hcover e List.mem_cons_self)
    have hrest := ih (fun e he => hcover e (List.mem_cons_of_mem _ he)) hfirst.agrees
    refine ⟨hfirst.fits.append hrest.fits, ?_⟩
    rw [run]
    dsimp only
    rw [List.foldl_append]
    exact hrest.agrees

/-- What passes of a call about the announced network: of a change, the call itself unless the
    app has its payload; of another `AVAILABLE`, a change for each payload the app does not have. -/
def View.Passes (v : View Caps Props) (c : Callback Caps Props)
    (calls : List (Callback Caps Props)) :
    Prop :=
  match c.type with
  | .available => calls = (c.payloads.filter fun x => v.last x.kind ≠ some x).map
      fun x => { c with type := .changed x.kind }
  | .changed k => v.Repeats c k ∧ calls = [] ∨ ¬v.Repeats c k ∧ calls = [c]
  | _ => True

/-- What the filter lets pass is what the app does not know. -/
theorem passes_filter (hs : Agrees isVpn s v) (hn : c.bundle.network = some n)
    (hheld : s.held = some n) : v.Passes c (filter s.history c).2 := by
  rw [View.Passes]
  cases htype : c.type with
  | available =>
    obtain ⟨h, -, hvals, heq⟩ := filter_announced hs hn htype hheld
    rw [heq]
    dsimp only
    rw [CallbackPayloadHistory.changes_eq_filter (nodup_payloads c), hvals]
  | changed k =>
    obtain ⟨h, -, -, hpass⟩ := filter_changed hs hn htype hheld
    exact hpass.imp (fun ⟨hr, heq⟩ => ⟨hr, by rw [heq]⟩) fun ⟨hr, heq⟩ => ⟨hr, by rw [heq]⟩
  | _ => trivial

/-- The calls of an event of the announced network itself. -/
theorem passes_physical {e : Incoming Caps Props} (hs : Agrees isVpn s v)
    (hn : e.callback.bundle.network = some n) (hheld : s.held = some n) :
    v.Passes e.callback (dispatch isVpn false s e).2 := by
  have hpass := passes_filter hs hn hheld
  have hvpn := hs.physical n hheld
  cases htype : e.callback.type with
  | losing | lost | other => rw [View.Passes, htype]; trivial
  | available =>
    have hcalls : (dispatch isVpn false s e).2 = (filter s.history e.callback).2 := by
      simp [dispatch, hn, hvpn, filterPhysical, htype]
    rwa [hcalls]
  | changed k =>
    have hcalls : (dispatch isVpn false s e).2 = (filter s.history e.callback).2 := by
      simp [dispatch, hn, hvpn, filterPhysical, htype, transitionPhysicalCallback, eventKind, hheld]
    rwa [hcalls]

/-- The calls of a VPN event when the announced network is the cover. -/
theorem passes_vpn {e : Incoming Caps Props} {m : ℕ} {a : Option Caps × Option Props}
    (hs : Agrees isVpn s v) (hm : e.callback.bundle.network = some m) (hvpn : isVpn m = true)
    (hcover : e.cover = some n) (ha : e.agent = some a) (hheld : s.held = some n) :
    v.Passes (e.rebuilt e.callback.type a) (dispatch isVpn false s e).2 := by
  have hpass : v.Passes (e.rebuilt e.callback.type a)
      (filter s.history (e.rebuilt e.callback.type a)).2 := passes_filter hs hcover hheld
  cases htype : e.callback.type with
  | losing | lost | other => trivial
  | available | changed =>
    have hcalls : (dispatch isVpn false s e).2 =
        (filter s.history (e.rebuilt e.callback.type a)).2 := by
      simp [dispatch, hm, hvpn, deliver, Registration.next, transitionCallback, eventKind, htype,
        hcover, hheld, ha]
    rw [hcalls, ← htype]
    exact hpass

omit [DecidableEq Caps] [DecidableEq Props] in

/-- At the start nothing is known, and nothing was seen. -/
theorem agrees_init : Agrees isVpn (⟨none, none⟩ : Registration Caps Props) .init :=
  ⟨rfl, nofun, fun _ => rfl, nofun⟩

/-- What an app sees of its registration, whatever the events and the covers: no call names a
    VPN, a network is announced only when it is not, every other call is about the one announced,
    and after a `LOST` there is none. The router holds the network announced, which is also that
    of the payload history. Of the calls about the announced network that reach the filter, from
    the network itself or rebuilt for it as the cover, just those payloads are suppressed that
    equal the last one the app got. -/
theorem callback_stream (isVpn : ℕ → Bool) (es : List (Incoming Caps Props))
    (hcover : ∀ e ∈ es, ∀ n ∈ e.cover, isVpn n = false) :
    View.WellFormed isVpn .init (run isVpn false ⟨none, none⟩ es).2 ∧
    ((run isVpn false ⟨none, none⟩ es).2.foldl View.see .init).announced =
      (run isVpn false ⟨none, none⟩ es).1.held ∧
    ∀ n, (run isVpn false ⟨none, none⟩ es).1.held = some n →
      (∃ h ∈ (run isVpn false ⟨none, none⟩ es).1.history, h.network = some n) ∧
      ∀ e : Incoming Caps Props,
        (e.callback.bundle.network = some n →
          ((run isVpn false ⟨none, none⟩ es).2.foldl View.see .init).Passes e.callback
            (dispatch isVpn false (run isVpn false ⟨none, none⟩ es).1 e).2) ∧
        ∀ m a, e.callback.bundle.network = some m → isVpn m = true → e.cover = some n →
          e.agent = some a →
          ((run isVpn false ⟨none, none⟩ es).2.foldl View.see .init).Passes
            (e.rebuilt e.callback.type a)
            (dispatch isVpn false (run isVpn false ⟨none, none⟩ es).1 e).2 := by
  -- By induction over the events, what has been passed on is a stream that fits what is held.
  obtain ⟨hfits, hs⟩ := sound_run hcover agrees_init
  refine ⟨hfits, hs.held.symm, fun n hheld => ⟨?_, fun e => ⟨fun hn => ?_, ?_⟩⟩⟩
  · obtain ⟨h, hh, hnet, -⟩ := hs.history n hheld
    exact ⟨h, hh, hnet⟩
  · exact passes_physical hs hn hheld
  · intro m a hm hvpn hc ha
    -- A callback of a VPN stands for one of the network that it covers.
    exact passes_vpn hs hm hvpn hc ha hheld

/-- A VPN comes up over another network than the one announced, repeats the capabilities of its
    cover, and goes down when there is none. -/
def vpnOverCover : List (Incoming ℕ ℕ) :=
  [⟨⟨.available, ⟨some 100, some 1, some 1⟩, 0⟩, none, none⟩,
    ⟨⟨.available, ⟨some 200, some 9, some 9⟩, 0⟩, some 101, some (some 2, some 2)⟩,
    ⟨⟨.changed .capabilities, ⟨some 200, some 8, none⟩, 0⟩, some 101, some (some 2, none)⟩,
    ⟨⟨.lost, ⟨some 200, none, none⟩, 0⟩, none, none⟩]

/-- A VPN comes over a network that it covers. -/
theorem callback_stream_vpnOverCover :
    (run (· == 200) false ⟨none, none⟩ vpnOverCover).2 =
      [⟨.available, ⟨some 100, some 1, some 1⟩, 0⟩, ⟨.available, ⟨some 101, some 2, some 2⟩, 0⟩,
        ⟨.lost, ⟨some 101, none, none⟩, 0⟩] ∧
    View.WellFormed (· == 200) .init (run (· == 200) false ⟨none, none⟩ vpnOverCover).2 :=
  ⟨by decide, (callback_stream (· == 200) vpnOverCover (by decide)).1⟩

end

end VpnHide.Hook.CallbackRouter

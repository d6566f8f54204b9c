import Mathlib.Data.Int.Notation
import Mathlib.Data.Nat.Notation
import Mathlib.Logic.Function.Basic

/-!
# The router of network callbacks

`NetworkCallbackRouter` on a framework with the Bundle dispatcher. `ConnectivityService` calls
the Bundle overload for every event of a registration; the router lets the call through, drops
it, or makes calls of its own. For a registration it keeps the network it holds, and its
`CallbackPayloadFilter` keeps the payloads delivered for that network.

An event of a physical network goes to the filter as it is. An event of a VPN is about the cover
of the app instead: the service is asked to build the event again for the agent of the cover,
which reaches the filter in a call inside this one (`deliver`).
-/

namespace VpnHide.Hook.CallbackRouter

/-- What a payload is about: the events `CAP_CHANGED`, `IP_CHANGED` and `BLK_CHANGED`. -/
inductive PayloadKind
  | capabilities
  | properties
  | blocked
  deriving DecidableEq

/-- The types of callbacks of `ConnectivityService`. -/
inductive CallbackType
  | available
  | losing
  | lost
  | changed (k : PayloadKind)
  | other (type : ℕ)
  deriving DecidableEq

/-- The types that are told apart. -/
inductive CallbackEventKind
  | available
  | changed
  | losing
  | lost
  deriving DecidableEq

/-- What is done with a callback. -/
inductive CallbackDelivery
  | suppress
  | forward
  | available
  | lost
  deriving DecidableEq

/-- What a callback comes to: the network that is held after it, and what is done. -/
structure CallbackTransition where
  held : Option ℕ
  delivery : CallbackDelivery
  network : Option ℕ := held
  deriving DecidableEq

/-- A registration has one visible best network. Losing the VPN is not losing its cover. -/
def transitionCallback (held visible : Option ℕ) (event : CallbackEventKind) : CallbackTransition :=
  if visible = none ∧ held ≠ none then ⟨none, .lost, held⟩
  else if visible = none then { held := none, delivery := .suppress }
  else if visible ≠ held then { held := visible, delivery := .available }
  else if event = .lost ∨ event = .losing ∨ event = .available then
    { held := held, delivery := .suppress }
  else { held := held, delivery := .forward }

/-- Physical delivery follows the same visible registration history as rewritten VPN events. -/
def transitionPhysicalCallback (held : Option ℕ) (source : ℕ) (event : CallbackEventKind) :
    CallbackTransition :=
  if event = .available then
    { held := some source, delivery := if held = some source then .suppress else .forward }
  else if held ≠ some source then { held := held, delivery := .suppress }
  else if event = .lost then ⟨none, .forward, some source⟩
  else { held := held, delivery := .forward }

/-- The kind of a type; all others are changes. -/
def eventKind : CallbackType → CallbackEventKind
  | .available => .available
  | .lost => .lost
  | .losing => .losing
  | _ => .changed

section

variable {Caps Props : Type}

/-- What a change is about. -/
inductive Value (Caps Props : Type)
  | capabilities (c : Caps)
  | properties (p : Props)
  | blocked (reason : ℤ)
  deriving DecidableEq

/-- The payload that a value belongs to. -/
def Value.kind : Value Caps Props → PayloadKind
  | .capabilities _ => .capabilities
  | .properties _ => .properties
  | .blocked _ => .blocked

/-- What a callback carries. -/
structure Bundle (Caps Props : Type) where
  network : Option ℕ
  capabilities : Option Caps
  properties : Option Props
  deriving DecidableEq

/-- A call of the Bundle overload. -/
structure Callback (Caps Props : Type) where
  type : CallbackType
  bundle : Bundle Caps Props
  arg : ℤ
  deriving DecidableEq

/-- The payload of a call, of one kind. -/
def Callback.payload (c : Callback Caps Props) : PayloadKind → Option (Value Caps Props)
  | .capabilities => c.bundle.capabilities.map .capabilities
  | .properties => c.bundle.properties.map .properties
  | .blocked => some (.blocked c.arg)

/-- The payloads of a call, of all kinds. -/
def Callback.payloads (c : Callback Caps Props) : List (Value Caps Props) :=
  [PayloadKind.capabilities, .properties, .blocked].filterMap c.payload

/-- The last values for the network that is held. -/
structure CallbackPayloadHistory (Caps Props : Type) where
  network : Option ℕ
  values : PayloadKind → Option (Value Caps Props)

namespace CallbackPayloadHistory

/-- Nothing has been received. -/
def empty : CallbackPayloadHistory Caps Props := ⟨none, fun _ => none⟩

/-- The history for a network: a replacement starts anew. -/
def available (h : CallbackPayloadHistory Caps Props) (source : ℕ) :
    CallbackPayloadHistory Caps Props × Bool :=
  if h.network = some source then (h, false) else (⟨some source, fun _ => none⟩, true)

variable [DecidableEq Caps] [DecidableEq Props]

/-- A value is put down; and whether it is another one than before. -/
def changed (h : CallbackPayloadHistory Caps Props) (v : Value Caps Props) :
    CallbackPayloadHistory Caps Props × Bool :=
  ({ h with values := Function.update h.values v.kind (some v) }, h.values v.kind ≠ some v)

/-- `relevant.filter { (kind, value) -> history.changed(kind, value) }` -/
def changes (h : CallbackPayloadHistory Caps Props) :
    List (Value Caps Props) → CallbackPayloadHistory Caps Props × List (Value Caps Props)
  | [] => (h, [])
  | v :: vs =>
    let (h', new) := h.changed v
    let (h'', rest) := h'.changes vs
    (h'', if new then v :: rest else rest)

end CallbackPayloadHistory

/-- What the router and its filter keep for a registration. -/
structure Registration (Caps Props : Type) where
  held : Option ℕ
  history : Option (CallbackPayloadHistory Caps Props)

/-- A call that `ConnectivityService` makes, with what it answers the router meanwhile: the cover
    of the app, and what it builds for the agent of the cover, if it finds the agent. -/
structure Incoming (Caps Props : Type) where
  callback : Callback Caps Props
  cover : Option ℕ
  agent : Option (Option Caps × Option Props)

variable [DecidableEq Caps] [DecidableEq Props]

/-- `CallbackPayloadFilter.filter`: the calls that reach the app for one that reaches the
    filter. -/
def filter (history : Option (CallbackPayloadHistory Caps Props)) (c : Callback Caps Props) :
    Option (CallbackPayloadHistory Caps Props) × List (Callback Caps Props) :=
  match c.bundle.network with
  | none => (history, [c])
  | some network =>
    match c.type with
    | .available =>
      let (h, initial) := (history.getD .empty).available network
      let (h, changed) := h.changes c.payloads
      -- The payloads of a network that is announced already are preserved, without announcing it
      -- for a second time.
      (some h, if initial then [c] else changed.map fun v => { c with type := .changed v.kind })
    | .changed k =>
      let (h, _) := (history.getD .empty).available network
      let (h, changed) := h.changes (c.payloads.filter (·.kind = k))
      (some h, if k ∈ c.payloads.map Value.kind ∧ k ∉ changed.map Value.kind then [] else [c])
    | _ => (history, [c])

/-- A callback of a physical network is forwarded, or held back where it would say nothing new. -/
def filterPhysical (history : Option (CallbackPayloadHistory Caps Props))
    (next : CallbackTransition) (c : Callback Caps Props) :
    Option (CallbackPayloadHistory Caps Props) × List (Callback Caps Props) :=
  if next.delivery = .suppress ∧ c.type ≠ .available then (history, []) else filter history c

/-- The event of type `type` that the service builds for the cover. -/
def Incoming.rebuilt (e : Incoming Caps Props) (type : CallbackType)
    (agent : Option Caps × Option Props) : Callback Caps Props :=
  ⟨type, ⟨e.cover, agent.1, agent.2⟩,
    if type = .changed .blocked ∨ type = .available then 0 else e.callback.arg⟩

/-- Delivery for the cover; `none` when its agent is not found. -/
def deliver (history : Option (CallbackPayloadHistory Caps Props)) (next : CallbackTransition)
    (e : Incoming Caps Props) :
    Option (Option (CallbackPayloadHistory Caps Props) × List (Callback Caps Props)) :=
  match next.delivery with
  | .suppress => some (history, [])
  | .lost => some (history, [⟨.lost, ⟨next.network, none, none⟩, 0⟩])
  | .available => e.agent.map fun a => filter history (e.rebuilt .available a)
  | .forward => e.agent.map fun a => filter history (e.rebuilt e.callback.type a)

/-- What is kept of a registration. -/
def remember (history : Option (CallbackPayloadHistory Caps Props)) (next : CallbackTransition) :
    Registration Caps Props :=
  ⟨next.held, if next.held = none then none else history⟩

/-- `transitionCallback`, but a duplicate `AVAILABLE` is filtered, not dropped: it may carry new
    properties. -/
def Registration.next (s : Registration Caps Props) (e : Incoming Caps Props) :
    CallbackTransition :=
  let transition := transitionCallback s.held e.cover (eventKind e.callback.type)
  if e.cover ≠ none ∧ e.callback.type = .available ∧ transition.delivery = .suppress then
    { transition with delivery := .forward }
  else transition

/-- `NetworkCallbackRouter.dispatch`: the calls that reach the app. -/
def dispatch (isVpn : ℕ → Bool) (listen : Bool) (s : Registration Caps Props)
    (e : Incoming Caps Props) : Registration Caps Props × List (Callback Caps Props) :=
  match e.callback.bundle.network with
  | none => (s, [e.callback])
  | some source =>
    if listen then (s, if isVpn source then [] else [e.callback])
    else if isVpn source then
      match deliver s.history (s.next e) e with
      | none => (s, [])
      | some (history, calls) => (remember history (s.next e), calls)
    else
      let next := transitionPhysicalCallback s.held source (eventKind e.callback.type)
      let (history, calls) := filterPhysical s.history next e.callback
      (remember history next, calls)

/-- The registration after a sequence of events, and all that reached the app. -/
def run (isVpn : ℕ → Bool) (listen : Bool) :
    Registration Caps Props → List (Incoming Caps Props) →
      Registration Caps Props × List (Callback Caps Props)
  | s, [] => (s, [])
  | s, e :: es =>
    let (s', calls) := dispatch isVpn listen s e
    let (s'', calls') := run isVpn listen s' es
    (s'', calls ++ calls')

end

end VpnHide.Hook.CallbackRouter

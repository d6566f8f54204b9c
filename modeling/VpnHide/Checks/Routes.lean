import VpnHide.Checks.Measurement

/-!
# Route evidence

`diagnostic-model/src/route.rs`: what a process saw of the routing tables, on four surfaces
and through two readers each, and what five measurements of it say about a pair of routes that
Core has put there: one over a VPN interface, which has to be hidden, and an ordinary one,
which has to be seen.

For each check the controls decide whether anything can be said: the routes were absent
before, and present to root. Then a row that exposes the VPN route is a leak (`leaksAt`), and
without a leak the check is proven if everything else is as it should be (`provesAt`). The
evaluation is these two, check by check.
-/

namespace VpnHide.Checks

open Lib

/-! ## Observations -/

/-- No more routes are taken than these. -/
def maxRoutes : ℕ := 2048

/-- No more routes of a fixture are kept than these. -/
def maxScopedRoutes : ℕ := 16

/-- Where routes can be read. -/
inductive RouteSurface
  | netlinkIpv4
  | netlinkIpv6
  | procIpv4
  | procIpv6
  deriving DecidableEq

namespace RouteSurface

/-- All of them, in the order of the source. -/
def all : List RouteSurface := [netlinkIpv4, netlinkIpv6, procIpv4, procIpv6]

/-- The length of an address. -/
def addressBytes : RouteSurface → ℕ
  | netlinkIpv4 | procIpv4 => 4
  | netlinkIpv6 | procIpv6 => 16

/-- It is read by netlink, not from a file. -/
def netlink : RouteSurface → Bool
  | netlinkIpv4 | netlinkIpv6 => true
  | procIpv4 | procIpv6 => false

end RouteSurface

/-- Where routes are read, and by what calls. -/
structure RouteCheck where
  actor : NativeReadActor
  surface : RouteSurface
  deriving DecidableEq

/-- All checks of routes. -/
def RouteCheck.required : List RouteCheck :=
  NativeReadActor.all.flatMap fun actor => RouteSurface.all.map fun surface => ⟨actor, surface⟩

/-- Every check of routes is required. -/
theorem RouteCheck.mem_required (c : RouteCheck) : c ∈ required := by
  obtain ⟨actor, surface⟩ := c
  cases actor <;> cases surface <;> decide

theorem RouteCheck.nodup_required : required.Nodup := by decide

/-- A route that was read. -/
structure ObservedRoute where
  destination : List UInt8
  prefixLen : UInt8
  source : Option (List UInt8)
  sourcePrefixLen : UInt8
  outputIndex : Option UInt32
  outputName : Option Str
  table : Option UInt32
  protocol : Option UInt8
  scope : Option UInt8
  kind : Option UInt8
  metric : UInt32
  gateway : Option (List UInt8)
  flags : UInt32
  deriving DecidableEq

/-- The lengths fit the surface, and the route leaves somewhere. -/
def ObservedRoute.valid (r : ObservedRoute) (surface : RouteSurface) : Bool :=
  let length := surface.addressBytes
  r.destination.length = length && r.prefixLen.toNat ≤ length * 8 &&
    r.source.all (·.length = length) && r.sourcePrefixLen.toNat ≤ length * 8 &&
      (r.sourcePrefixLen = 0 || r.source.isSome) &&
    r.gateway.all (·.length = length) && r.outputIndex.all interfaceIndex &&
    r.outputName.all fun s => interfaceName s && !s.any Str.isAsciiWhitespace

/-- The routes that were read for a check, up to an error if there was one. -/
structure RouteObservation where
  check : RouteCheck
  routes : List ObservedRoute
  error : Option ProbeError
  deriving DecidableEq

/-- All routes that were read at one time. -/
structure RouteMeasurement where
  observations : List RouteObservation
  deriving DecidableEq

/-- One observation for a check at most, with valid rows, and not too many of them. -/
def RouteMeasurement.bounded (m : RouteMeasurement) : Bool :=
  m.observations.length ≤ RouteCheck.required.length && (m.observations.map (·.check)).Nodup &&
    m.observations.all fun v => v.routes.length ≤ maxRoutes &&
      v.routes.all (·.valid v.check.surface)

/-! ## The fixture -/

/-- An interface, by name and index. -/
structure InterfaceId where
  name : Str
  index : UInt32
  deriving DecidableEq

/-- `fixture_addresses`: a benchmark address and a private one, from the session. -/
def fixtureAddresses (session : UInt64) : List UInt8 × List UInt8 :=
  let byte (i : ℕ) : UInt8 := (session.toNat / 256 ^ (7 - i) % 256).toUInt8
  ([198, 18 ||| (byte 5 &&& 1), byte 6, byte 7],
    [0xfd, 0x76, 0x70, 0x6e, 0x68, 0x69, 0x64, 0x65, byte 2, byte 3, byte 4, byte 5,
      byte 6, byte 7, 0, 1])

/-- A VPN interface and an ordinary one, with routes of their own that the session gives. -/
structure RouteFixtureSpec where
  session : UInt64
  vpn : InterfaceId
  ordinary : InterfaceId
  deriving DecidableEq

namespace RouteFixtureSpec

variable (spec : RouteFixtureSpec)

/-- The number that the addresses of a role are made from. -/
def roleSession (ordinary : Bool) : UInt64 := spec.session ^^^ if ordinary then 0x8000 else 0x4000

/-- A name of three letters and twelve digits. -/
def roleName (letters : String) (ordinary : Bool) : Str :=
  letters.toList ++ Str.padded 16 12 (spec.roleSession ordinary &&& 0xffffffffffff).toNat

/-- `valid`: the fixture can be told from everything else on the device. -/
def valid : Bool :=
  spec.session ≠ 0 && spec.roleSession false ≠ 0 && spec.roleSession true ≠ 0 &&
    0 < spec.vpn.index && 0 < spec.ordinary.index && spec.vpn.index ≤ 2147483647 &&
      spec.ordinary.index ≤ 2147483647 &&
    spec.vpn.index ≠ spec.ordinary.index && spec.vpn.name = spec.roleName "tun" false &&
    spec.ordinary.name = spec.roleName "vhr" true

/-- The destination of the route of a role. -/
def destination (ordinary : Bool) (surface : RouteSurface) : List UInt8 :=
  let (v4, v6) := fixtureAddresses (spec.roleSession ordinary)
  if surface.addressBytes = 4 then v4 else v6

/-- The metric of the route of a role. -/
def metric (ordinary : Bool) : UInt32 := if ordinary then 54322 else 54321

/-- The interface of a role. -/
def interface (ordinary : Bool) : InterfaceId := if ordinary then spec.ordinary else spec.vpn

/-- A row with any of the three identities of a route. -/
def exposes (row : ObservedRoute) (ordinary : Bool) (surface : RouteSurface) : Bool :=
  row.destination = spec.destination ordinary surface ||
    row.outputIndex = some (spec.interface ordinary).index ||
      row.outputName = some (spec.interface ordinary).name

/-- A row that is the route. -/
def positive (row : ObservedRoute) (ordinary : Bool) (surface : RouteSurface) : Bool :=
  row.destination = spec.destination ordinary surface && row.sourcePrefixLen = 0 &&
    row.prefixLen.toNat = surface.addressBytes * 8 && row.metric = metric ordinary &&
    if surface.netlink then
      row.outputIndex = some (spec.interface ordinary).index && row.table = some 254 &&
        row.protocol = some 242 && row.kind = some 1
    else row.outputName = some (spec.interface ordinary).name

/-- A row of either route. -/
def touches (surface : RouteSurface) (row : ObservedRoute) : Bool :=
  spec.exposes row false surface || spec.exposes row true surface

/-- Neither route was seen, and nothing went wrong. -/
def absent (surface : RouteSurface) (v : RouteObservation) : Bool :=
  v.error.isNone && !v.routes.any (spec.touches surface)

/-- Both routes were seen, and nothing went wrong. -/
def present (surface : RouteSurface) (v : RouteObservation) : Bool :=
  v.error.isNone && [false, true].all fun ordinary => v.routes.any fun r =>
    spec.positive r ordinary surface

end RouteFixtureSpec

/-- What is left of a measurement for transport: the rows of the two routes, the first ones, and
    an error if there are more. -/
def RouteMeasurement.scoped (m : RouteMeasurement) (spec : RouteFixtureSpec) : RouteMeasurement :=
  if !spec.valid || !m.bounded then
    ⟨RouteCheck.required.map fun check => ⟨check, [], some .malformed⟩⟩
  else
    ⟨m.observations.map fun v =>
      let rows := v.routes.filter (spec.touches v.check.surface)
      { check := v.check
        routes := rows.take maxScopedRoutes
        error := v.error.or (if (rows.drop maxScopedRoutes).isEmpty then none
          else some .tooLarge) }⟩

/-! ## The evaluation -/

/-- What the fixture showed. -/
structure ScopedRouteResult where
  proven : List RouteCheck
  leaked : List RouteCheck
  controls : List ControlFailure
  deriving DecidableEq

namespace ScopedRouteResult

/-- Nothing has been shown yet. -/
def empty : ScopedRouteResult := ⟨[], [], []⟩

/-- A problem of the controls is noted, once. -/
def problem (r : ScopedRouteResult) (p : ControlFailure) : ScopedRouteResult :=
  if p ∈ r.controls then r else { r with controls := r.controls ++ [p] }

/-- Some problems, if there is a reason for them. -/
def problemIf (r : ScopedRouteResult) (b : Bool) (p : ControlFailure) : ScopedRouteResult :=
  if b then r.problem p else r

end ScopedRouteResult

/-- `observation`: that of a check, if the measurement is bounded. -/
def observation (m : Option RouteMeasurement) (check : RouteCheck) : Option RouteObservation :=
  (m.filter (·.bounded)).bind fun m => m.observations.find? (·.check = check)

/-- What is measured before the routes are there, by root while they are, by the worker, by root
    again, and after they are gone. -/
structure Measurements where
  negative : Option RouteMeasurement
  start : Option RouteMeasurement
  worker : Option RouteMeasurement
  «end» : Option RouteMeasurement
  cleanup : Option RouteMeasurement

section Evaluate

variable (spec : RouteFixtureSpec)

/-- No observation, or one with an error. -/
def unavailable (v : Option RouteObservation) : Bool := v.all (·.error.isSome)

/-- A check after the controls. -/
def evaluateWorker (worker : Option RouteObservation) (fin cleanup : Option RouteObservation)
    (interfacesClean : Bool) (result : ScopedRouteResult) (check : RouteCheck) :
    ScopedRouteResult :=
  let leaked := worker.any fun v => v.routes.any fun r => spec.exposes r false check.surface
  let result := if leaked then { result with leaked := result.leaked ++ [check] } else result
  let workerAvailable := worker.any (·.error.isNone)
  let result := result.problemIf (!workerAvailable) .probeUnavailable
  let ordinaryOk := worker.any fun v => v.routes.any fun r => spec.positive r true check.surface
  let result := result.problemIf (!ordinaryOk) .ordinaryObjectsChanged
  let endOk := fin.any (spec.present check.surface)
  let result :=
    if endOk then result
      else (result.problem .fixtureChanged).problemIf (unavailable fin) .probeUnavailable
  let cleaned := interfacesClean && cleanup.any (spec.absent check.surface)
  let result :=
    if cleaned then result
    else (result.problem .cleanupUnconfirmed).problemIf (unavailable cleanup) .probeUnavailable
  if !leaked && workerAvailable && ordinaryOk && endOk && cleaned then
    { result with proven := result.proven ++ [check] }
  else result

/-- One check of the fixture. -/
def evaluateCheck (m : Measurements) (interfacesClean : Bool) (result : ScopedRouteResult)
    (check : RouteCheck) :
    ScopedRouteResult :=
  let negative := observation m.negative check
  let start := observation m.start check
  if negative.all fun v => !spec.absent check.surface v then
    (result.problem .missingNegativeControl).problemIf (unavailable negative) .probeUnavailable
  else if start.all fun v => !spec.present check.surface v then
    (result.problem .missingPositiveControl).problemIf (unavailable start) .probeUnavailable
  else
    evaluateWorker spec (observation m.worker check) (observation m.end check)
      (observation m.cleanup check)
      interfacesClean result check

/-- `evaluate_route_fixture`: all checks, if the fixture is valid. -/
def evaluateRouteFixture (m : Measurements) (interfacesClean : Bool) : ScopedRouteResult :=
  if !spec.valid then ScopedRouteResult.empty.problem .invalidSpec
  else RouteCheck.required.foldl (evaluateCheck spec m interfacesClean) .empty

/-- The checks on which the worker itself saw both routes while it was allowed to. -/
def qualified (raw : Option RouteMeasurement) : List RouteCheck :=
  RouteCheck.required.filter fun check => (observation raw check).any (spec.present check.surface)

/-- `evaluate_paired_route_fixture`: also with a raw measurement, which has to see the fixture. -/
def evaluatePairedRouteFixture (m : Measurements) (raw : Option RouteMeasurement)
    (interfacesClean : Bool) :
    ScopedRouteResult :=
  let result := evaluateRouteFixture spec m interfacesClean
  let result := { result with proven := result.proven.filter (· ∈ qualified spec raw) }
  result.problemIf ((qualified spec raw).length ≠ RouteCheck.required.length)
    .missingPositiveControl

end Evaluate

end VpnHide.Checks

import Mathlib.Data.List.Nodup
import VpnHide.Checks.Model
import VpnHide.Lib.Str

/-!
# What a worker reports

The measurements of `diagnostic-model`: what a process saw of the interfaces and their
addresses, of the files that show them, and of binding a socket to one. A report is only used
if it is *bounded*: no list in it is too long, no entry stands twice, and every name, index and
address is one that the kernel can give.
-/

namespace VpnHide.Checks

open Lib

/-! ## Names and indices -/

/-- `char::is_ascii_control`. -/
def isAsciiControl (c : Char) : Bool := c.toNat < 32 || c.toNat = 127

/-- At most fifteen bytes, without control characters. -/
def plainName (n : Str) : Bool :=
  (Str.toUtf8 n).length ≤ 15 && n.all (fun c => c.toNat < 128) && !n.any isAsciiControl

/-- The name of an interface, which is not empty. -/
def interfaceName (n : Str) : Bool := !n.isEmpty && plainName n

/-- The index of an interface, which is positive as a signed number. -/
def interfaceIndex (i : UInt32) : Bool := 0 < i && i ≤ 2147483647

/-- No more interfaces are taken than these. -/
def maxInterfaces : ℕ := 256

/-- No more addresses are taken than these. -/
def maxAddresses : ℕ := 1024

/-! ## Interfaces and addresses -/

/-- What `getifaddrs` tells about an interface, beside its addresses. -/
structure IfaddrMetadata where
  families : List UInt16
  flags : List UInt32
  hasNullAddress : Bool
  deriving DecidableEq

/-- An interface that was seen, under its name. -/
structure ObservedInterface where
  name : Str
  index : Option UInt32
  ifaddrs : Option IfaddrMetadata
  deriving DecidableEq

/-- No name and no index stands twice. -/
def coherent (entries : List ObservedInterface) : Bool :=
  (entries.map (·.name)).Nodup && (entries.filterMap (·.index)).Nodup

/-- The name and the index may be those of an interface, and the lists are short. -/
def ObservedInterface.valid (e : ObservedInterface) : Bool :=
  interfaceName e.name && e.index.all interfaceIndex &&
    e.ifaddrs.all fun m => m.families.length ≤ 32 && m.flags.length ≤ 8

/-- An address that was seen, with the interface if it was told. -/
structure ObservedAddress where
  name : Option Str
  index : Option UInt32
  address : List UInt8
  prefixLen : Option UInt8
  deriving DecidableEq

/-- It has the length of an address, and the prefix fits. -/
def ObservedAddress.valid (a : ObservedAddress) : Bool :=
  (a.address.length = 4 || a.address.length = 16) &&
    a.prefixLen.all (fun p => p.toNat ≤ a.address.length * 8) && a.name.all interfaceName &&
      a.index.all interfaceIndex

/-- They are few, valid and different. -/
def validEntries (entries : List ObservedAddress) : Bool :=
  entries.length ≤ maxAddresses && entries.all (·.valid) && entries.Nodup

/-- The requests by which `ioctl` gives an address of an interface. -/
inductive AddressIoctl
  | address
  | netmask
  | broadcast
  | destination
  deriving DecidableEq

/-- All requests, in the order of the source. -/
def AddressIoctl.all : List AddressIoctl := [address, netmask, broadcast, destination]

/-- What a request gives for the interface of the fixture, and for an ordinary one. -/
structure AddressIoctlObservation where
  kind : AddressIoctl
  fixture : Sample (List UInt8)
  ordinary : Sample (List UInt8)
  deriving DecidableEq

/-- What `SIOCGIFCONF` gives, and what it says of its size before and after. -/
structure IfconfObservation where
  entries : List ObservedAddress
  recordBytes : UInt32
  usedBytes : UInt32
  sizeBefore : UInt32
  sizeAfter : UInt32
  deriving DecidableEq

/-- The sizes fit together, and the entries are valid. -/
def IfconfObservation.bounded (o : IfconfObservation) : Bool :=
  (o.recordBytes = 32 || o.recordBytes = 40) &&
    o.usedBytes.toNat = o.entries.length * o.recordBytes.toNat &&
      o.sizeBefore.toNat ≤ maxAddresses * o.recordBytes.toNat &&
    o.sizeAfter.toNat ≤ maxAddresses * o.recordBytes.toNat && validEntries o.entries

/-- The addresses that are read by one kind of calls. -/
structure AddressActorMeasurement where
  actor : NativeReadActor
  ioctls : List AddressIoctlObservation
  ifconf : Sample IfconfObservation
  netlink : Sample (List ObservedAddress)
  deriving DecidableEq

/-- Each request is there at most once, and everything in it is as large as it may be. -/
def AddressActorMeasurement.bounded (m : AddressActorMeasurement) : Bool :=
  m.ioctls.length ≤ AddressIoctl.all.length && (m.ioctls.map (·.kind)).Nodup &&
    m.ioctls.all (fun v => [v.fixture, v.ordinary].all fun s => s.get?.all (·.length = 4)) &&
    m.ifconf.get?.all (·.bounded) && m.netlink.get?.all validEntries

/-- All addresses that were read. -/
structure AddressMeasurement where
  actors : List AddressActorMeasurement
  ifaddrs : Sample (List ObservedAddress)
  deriving DecidableEq

/-- Each kind of calls is there at most once, and what it read is bounded. -/
def AddressMeasurement.bounded (m : AddressMeasurement) : Bool :=
  m.actors.length ≤ NativeReadActor.all.length && (m.actors.map (·.actor)).Nodup &&
    m.actors.all (·.bounded) && m.ifaddrs.get?.all validEntries

/-! ## Files -/

/-- The files of interfaces that are read by one kind of calls. -/
structure ProcInterfaceActorMeasurement where
  actor : NativeReadActor
  devices : Sample (List Str)
  ipv6 : Sample (List ObservedAddress)
  deriving DecidableEq

/-- What was read is bounded. -/
def ProcInterfaceActorMeasurement.bounded (m : ProcInterfaceActorMeasurement) : Bool :=
  m.devices.get?.all (fun v => v.length ≤ maxInterfaces && v.Nodup && v.all interfaceName) &&
    m.ipv6.get?.all fun v => v.length ≤ maxAddresses && v.Nodup && v.all fun a =>
      a.valid && a.address.length = 16

/-- All files of interfaces that were read. -/
structure ProcInterfaceMeasurement where
  actors : List ProcInterfaceActorMeasurement
  deriving DecidableEq

/-- Each kind of calls is there at most once, and what it read is bounded. -/
def ProcInterfaceMeasurement.bounded (m : ProcInterfaceMeasurement) : Bool :=
  m.actors.length ≤ NativeReadActor.all.length && (m.actors.map (·.actor)).Nodup &&
    m.actors.all (·.bounded)

/-- The directories in which interfaces have entries. -/
inductive SysInterfaceSurface
  | sysClassNet
  | procIpv4Conf
  | procIpv6Conf
  deriving DecidableEq

/-- All directories, in the order of the source. -/
def SysInterfaceSurface.all : List SysInterfaceSurface := [sysClassNet, procIpv4Conf, procIpv6Conf]

/-- A directory, and by what calls it is listed. -/
structure SysInterfaceCheck where
  actor : NativeReadActor
  surface : SysInterfaceSurface
  deriving DecidableEq

/-- All directories by both kinds of calls. -/
def SysInterfaceCheck.required : List SysInterfaceCheck :=
  NativeReadActor.all.flatMap fun actor => SysInterfaceSurface.all.map fun surface =>
    ⟨actor, surface⟩

/-- The names that a directory has. -/
structure SysInterfaceObservation where
  check : SysInterfaceCheck
  names : Sample (List Str)
  deriving DecidableEq

/-- All directories that were listed. -/
structure SysInterfaceMeasurement where
  entries : List SysInterfaceObservation
  deriving DecidableEq

/-- A directory also lists itself and its parent. -/
def SysInterfaceMeasurement.bounded (m : SysInterfaceMeasurement) : Bool :=
  m.entries.length ≤ SysInterfaceCheck.required.length && (m.entries.map (·.check)).Nodup &&
    m.entries.all fun e => e.names.get?.all fun names =>
      names.length ≤ maxInterfaces + 2 && names.Nodup && names.all fun n =>
        interfaceName n && !n.contains '/'

/-- The calls that tell whether a file is there. -/
inductive FilesystemVector
  | stat
  | access
  | openDirectory
  deriving DecidableEq

/-- All of them, in the order of the source. -/
def FilesystemVector.all : List FilesystemVector := [stat, access, openDirectory]

/-- A call on an entry of a directory, and how it is made. -/
structure FilesystemCheck where
  actor : NativeReadActor
  surface : SysInterfaceSurface
  vector : FilesystemVector
  deriving DecidableEq

/-- All calls in all directories. -/
def FilesystemCheck.required : List FilesystemCheck :=
  NativeReadActor.all.flatMap fun actor => SysInterfaceSurface.all.flatMap fun surface =>
    FilesystemVector.all.map fun vector => ⟨actor, surface, vector⟩

/-- Whether the entry of the fixture is there, and that of an ordinary interface. -/
structure FilesystemObservation where
  check : FilesystemCheck
  fixture : Sample Bool
  ordinary : Sample Bool
  deriving DecidableEq

/-- All calls that were made. -/
structure FilesystemMeasurement where
  entries : List FilesystemObservation
  deriving DecidableEq

/-- Each check is there at most once. -/
def FilesystemMeasurement.bounded (m : FilesystemMeasurement) : Bool :=
  m.entries.length ≤ FilesystemCheck.required.length && (m.entries.map (·.check)).Nodup

/-! ## Binding -/

/-- What comes of binding a socket: the device before, the answer, and the device after it. -/
structure BindAttempt where
  initial : Sample Str
  set : Sample UInt32
  finalDevice : Sample Str
  deriving DecidableEq

/-- The names of devices are bounded. -/
def BindAttempt.bounded (a : BindAttempt) : Bool := [a.initial, a.finalDevice].all fun v =>
    v.get?.all plainName

/-- The attempts to bind to the interface of the fixture and to an ordinary one. -/
structure BindMeasurement where
  libcFixture : BindAttempt
  libcOrdinary : BindAttempt
  syscallFixture : BindAttempt
  syscallOrdinary : BindAttempt
  deriving DecidableEq

/-- All attempts are bounded. -/
def BindMeasurement.bounded (m : BindMeasurement) : Bool :=
  [m.libcFixture, m.libcOrdinary, m.syscallFixture, m.syscallOrdinary].all (·.bounded)

/-! ## A whole report -/

/-- Everything that was measured of the interfaces. -/
structure NativeMeasurement where
  filesystem : Option FilesystemMeasurement
  sysInterfaces : Option SysInterfaceMeasurement
  procInterfaces : Option ProcInterfaceMeasurement
  addresses : Option AddressMeasurement
  binding : Option BindMeasurement
  flags : Sample UInt32
  mtu : Sample UInt32
  ifaddrs : Sample (List ObservedInterface)
  links : Sample (List ObservedInterface)
  ordinaryFlags : Sample UInt32
  ordinaryMtu : Sample UInt32
  deriving DecidableEq

namespace NativeMeasurement

/-- The measurement where none could be made. -/
def unavailable (error : ProbeError) : NativeMeasurement where
  filesystem := none
  sysInterfaces := none
  procInterfaces := none
  addresses := none
  binding := none
  flags := .error error
  mtu := .error error
  ifaddrs := .error error
  links := .error error
  ordinaryFlags := .error error
  ordinaryMtu := .error error

/-- `bounded`: all parts are bounded. -/
def bounded (m : NativeMeasurement) : Bool :=
  m.filesystem.all (·.bounded) && m.sysInterfaces.all (·.bounded) &&
    m.procInterfaces.all (·.bounded) && m.addresses.all (·.bounded) && m.binding.all (·.bounded) &&
    [m.ifaddrs, m.links].all fun sample => sample.get?.all fun entries =>
      entries.length ≤ maxInterfaces && coherent entries && entries.all (·.valid)

end NativeMeasurement

end VpnHide.Checks

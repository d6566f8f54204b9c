import VpnHide.Lib.Str
import VpnHide.Lib.Word

/-!
# Hooks

The generated tables of `kmod/generated/hook_ids.h`: one id space for the hooks of
all backends, the masks of the hooks that each one owns, and the dense slots in which
the KPM counts the hits of its own.

A hook has a slot exactly if it has an id there (`kpmStatsHookSlot_eq_some_iff`).
-/

namespace VpnHide.Protocol

open Lib

/-- The hooks, in the order of their ids. -/
inductive HookId
  | fibRouteSeqShow
  | ipv6RouteSeqShow
  | rtnlFillIfinfo
  | inetFillIfaddr
  | inet6FillIfaddr
  | devIoctl
  | sockIoctl
  | fibDumpInfo
  | rt6FillNode
  | fibNlFillRule
  | lsposedLinkProperties
  | lsposedNetworkCapabilities
  | lsposedNetworkInfo
  | lsposedNetwork
  | lsposedConnectivityResult
  | lsposedConnectivityCallback
  | lsposedConnectivityNetwork
  | lsposedPackageVisibility
  | zygiskIoctl
  | zygiskGetifaddrs
  | zygiskOpenat
  | zygiskRecvmsg
  | zygiskRecv
  | zygiskRecvfrom
  | zygiskRecvfromChk
  | socketBindInterface
  | zygiskSetsockopt
  | filesystemIfacePaths
  deriving DecidableEq

/-- The id of a hook. -/
def HookId.id (hook : HookId) : ℕ := hook.ctorIdx

/-- The bit of a hook in the masks. -/
def hookBit (hook : HookId) : UInt32 := 1 <<< hook.id.toUInt32

/-- All hooks, in the order of their numbers. -/
def HookId.all : List HookId :=
  [.fibRouteSeqShow, .ipv6RouteSeqShow, .rtnlFillIfinfo, .inetFillIfaddr, .inet6FillIfaddr,
   .devIoctl, .sockIoctl, .fibDumpInfo, .rt6FillNode, .fibNlFillRule, .lsposedLinkProperties,
   .lsposedNetworkCapabilities, .lsposedNetworkInfo, .lsposedNetwork, .lsposedConnectivityResult,
   .lsposedConnectivityCallback, .lsposedConnectivityNetwork, .lsposedPackageVisibility,
   .zygiskIoctl, .zygiskGetifaddrs, .zygiskOpenat, .zygiskRecvmsg, .zygiskRecv, .zygiskRecvfrom,
   .zygiskRecvfromChk, .socketBindInterface, .zygiskSetsockopt, .filesystemIfacePaths]

/-- The name of a hook in the config. -/
def HookId.name : HookId → Str
  | .fibRouteSeqShow => "fib_route_seq_show".toList
  | .ipv6RouteSeqShow => "ipv6_route_seq_show".toList
  | .rtnlFillIfinfo => "rtnl_fill_ifinfo".toList
  | .inetFillIfaddr => "inet_fill_ifaddr".toList
  | .inet6FillIfaddr => "inet6_fill_ifaddr".toList
  | .devIoctl => "dev_ioctl".toList
  | .sockIoctl => "sock_ioctl".toList
  | .fibDumpInfo => "fib_dump_info".toList
  | .rt6FillNode => "rt6_fill_node".toList
  | .fibNlFillRule => "fib_nl_fill_rule".toList
  | .lsposedLinkProperties => "lsposed_link_properties".toList
  | .lsposedNetworkCapabilities => "lsposed_network_capabilities".toList
  | .lsposedNetworkInfo => "lsposed_network_info".toList
  | .lsposedNetwork => "lsposed_network".toList
  | .lsposedConnectivityResult => "lsposed_connectivity_result".toList
  | .lsposedConnectivityCallback => "lsposed_connectivity_callback".toList
  | .lsposedConnectivityNetwork => "lsposed_connectivity_network".toList
  | .lsposedPackageVisibility => "lsposed_package_visibility".toList
  | .zygiskIoctl => "zygisk_ioctl".toList
  | .zygiskGetifaddrs => "zygisk_getifaddrs".toList
  | .zygiskOpenat => "zygisk_openat".toList
  | .zygiskRecvmsg => "zygisk_recvmsg".toList
  | .zygiskRecv => "zygisk_recv".toList
  | .zygiskRecvfrom => "zygisk_recvfrom".toList
  | .zygiskRecvfromChk => "zygisk_recvfrom_chk".toList
  | .socketBindInterface => "socket_bind_interface".toList
  | .zygiskSetsockopt => "zygisk_setsockopt".toList
  | .filesystemIfacePaths => "filesystem_iface_paths".toList

/-- The hook with a name. -/
def HookId.fromName (name : Str) : Option HookId := all.find? fun hook => hook.name = name

/-- The hooks that all kernel backends have. -/
def kernelHookMask : UInt32 := 0x20003ff

/-- What kmod may have beside them. -/
def kmodHookMask : UInt32 := 0x8000000

/-- What the KPM may have beside them. -/
def kpmHookMask : UInt32 := 0x8000000

/-- What the built-in may have beside them. -/
def builtinHookMask : UInt32 := 0x8000000

/-- The hooks of Zygisk. -/
def zygiskHookMask : UInt32 := 0xdfc0000

/-! ## The counters of the KPM -/

/-- The hooks of the kernel that are counted. -/
abbrev kpmStatsHookCount : ℕ := 12

/-- The slot of a hook that the KPM counts. -/
def kpmStatsHookSlot : HookId → Option (Fin kpmStatsHookCount)
  | .fibRouteSeqShow => some 0
  | .ipv6RouteSeqShow => some 1
  | .rtnlFillIfinfo => some 2
  | .inetFillIfaddr => some 3
  | .inet6FillIfaddr => some 4
  | .devIoctl => some 5
  | .sockIoctl => some 6
  | .fibDumpInfo => some 7
  | .rt6FillNode => some 8
  | .fibNlFillRule => some 9
  | .socketBindInterface => some 10
  | .filesystemIfacePaths => some 11
  | _ => none

/-- The hook counted in a slot. -/
def kpmStatsHookId (slot : Fin kpmStatsHookCount) : HookId :=
  match slot with
  | 0 => .fibRouteSeqShow
  | 1 => .ipv6RouteSeqShow
  | 2 => .rtnlFillIfinfo
  | 3 => .inetFillIfaddr
  | 4 => .inet6FillIfaddr
  | 5 => .devIoctl
  | 6 => .sockIoctl
  | 7 => .fibDumpInfo
  | 8 => .rt6FillNode
  | 9 => .fibNlFillRule
  | 10 => .socketBindInterface
  | 11 => .filesystemIfacePaths

theorem kpmStatsHookSlot_eq_some_iff {hook : HookId} {slot : Fin kpmStatsHookCount} :
    kpmStatsHookSlot hook = some slot ↔ kpmStatsHookId slot = hook := by
  revert slot
  cases hook <;> decide

end VpnHide.Protocol

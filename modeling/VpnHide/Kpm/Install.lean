import VpnHide.Activator.Reduction
import VpnHide.Kpm.Config
import VpnHide.Kpm.Paths

/-!
# Loading and unloading

When the KPM is loaded it wraps functions of the kernel, and when it is unloaded it unwraps them
(`vpnhide_kpm_init` and what follows in `kmod/kpm/vpnhide_kpm.c`). Any function may be missing, or
not be wrapped. Some hooks are groups, of which all functions are wrapped or none.

In every run of loads, commands and unloads (`kpm_lifecycle`), what is wrapped is what the table of
registrations says, and nothing stays wrapped behind an unload; and the status tells which hooks
are complete.
-/

namespace VpnHide.Kpm

open Lib Protocol NativePolicy

/-! ## The kernel -/

/-- The callbacks of the hooks. -/
inductive HookFn
  | fibRouteBefore
  | fibRouteAfter
  | ipv6RouteAfter
  | devIoctlAfter
  | sockIoctlBefore
  | sockIoctlAfter
  | rtnlFillBefore
  | rtnlFillAfter
  | inetFillBefore
  | inetFillAfter
  | inet6FillBefore
  | inet6FillAfter
  | fibDumpBefore
  | fibDumpAfter
  | rt6FillBefore
  | rt6FillAfter
  | fibRuleBefore
  | fibRuleAfter
  | socketBindSockBefore
  | socketBindSkBefore
  | socketBindIndexBefore
  | socketBindIndexAfter
  | filenameLookupAfter
  | doFilpOpenAfter
  | vfsGetattrAfter
  | iterateDirBefore
  | iterateDirAfter
  deriving DecidableEq

/-- `vpnhide_hook_registration` -/
structure Registration where
  function : ℕ
  before : Option HookFn
  after : Option HookFn
  deriving DecidableEq

/-- The offsets that say whether a layout is defined, and how many arguments there are. -/
structure Offsets where
  seqfileCount : ℕ
  skbLen : ℕ
  inIfaddrIfaDev : ℕ
  inet6IfaddrIdev : ℕ
  addrFillArgno : ℕ
  fibDumpFiArg : ℕ
  fib6InfoFib6Nh : ℕ
  rt6ViaDst : ℕ
  fibRuleTable : ℕ
  sockNet : ℕ
  socketSk : ℕ

/-- What is called on every symbol: its name, whether it is of a module, its address. -/
structure Symbol where
  name : Bytes
  ofModule : Bool
  address : ℕ

/-- A running kernel. -/
structure RunningKernel where
  kver : ℕ
  /-- The offsets for its version, if it is supported. -/
  off : Option Offsets
  vfsOff : Bool
  kallsymsLookupName : Bytes → Option ℕ
  /-- `kallsyms_on_each_symbol`, if there is it. -/
  symbols : Option (List Symbol)
  /-- `SYS_ID_AA64MMFR1_EL1`, sanitised. -/
  mmfr1 : ℕ
  /-- Whether `hook_wrap` succeeds, when other registrations are wrapped already. -/
  hookWrap : List Registration → ℕ → Registration → Bool

/-- `KERNEL_VERSION`. -/
def vpnhideKver (a b c : ℕ) : ℕ := a <<< 16 + b <<< 8 + c

/-! ## Symbols -/

/-- A decimal digit. -/
def isDigit (c : UInt8) : Bool := '0'.toUInt8 ≤ c && c ≤ '9'.toUInt8

/-- A hexadecimal digit. -/
def vpnhideIsHexDigit (c : UInt8) : Bool :=
  isDigit c || ('a'.toUInt8 ≤ c && c ≤ 'f'.toUInt8) || ('A'.toUInt8 ≤ c && c ≤ 'F'.toUInt8)

/-- A run of digits, up to the end. -/
def isRun (isDigit : UInt8 → Bool) (rest : Bytes) : Bool := rest ≠ [] && rest.all isDigit

/-- The rest of a symbol says that it is a clone of a function. -/
def vpnhideSymbolSuffixIsClone (suffix : Bytes) : Bool :=
  match stringAfterPrefix suffix (ascii ".isra.") <|> stringAfterPrefix suffix (ascii ".constprop.")
      <|> stringAfterPrefix suffix (ascii ".llvm.") with
  | some rest => isRun isDigit rest
  | none => (stringAfterPrefix suffix (ascii "$")).any (isRun vpnhideIsHexDigit)

namespace RunningKernel

variable (k : RunningKernel)

/-- A function by its name, or a clone that a compiler has renamed. -/
def lookupFn (name : Bytes) : Option ℕ :=
  match k.kallsymsLookupName name with
  | some fn => some fn
  | none => k.symbols.bind fun symbols => (symbols.find? fun s =>
      !s.ofModule && (stringAfterPrefix s.name name).any vpnhideSymbolSuffixIsClone).bind fun s =>
        if s.address = 0 then none else some s.address

/-- User memory can be copied with the plain functions. -/
def rawUsercopyIsSafe : Bool :=
  if k.kver < vpnhideKver 5 0 0 then true
  else if (k.kallsymsLookupName (ascii "read_sanitised_ftr_reg")).isNone then false
  else (k.mmfr1 >>> 20) &&& 0xf ≠ 0

/-- `resolve_symbols`: what the module cannot do without is there. -/
def resolveSymbols : Bool :=
  let copyFromUser := k.kallsymsLookupName (ascii "_copy_from_user")
  let copyToUser := k.kallsymsLookupName (ascii "_copy_to_user")
  if (copyFromUser.isNone || copyToUser.isNone) && !k.rawUsercopyIsSafe then false
  else if (copyFromUser <|> k.kallsymsLookupName (ascii "__arch_copy_from_user")).isNone ||
      (copyToUser <|> k.kallsymsLookupName (ascii "__arch_copy_to_user")).isNone then false
  else (k.kallsymsLookupName (ascii "skb_trim") <|> k.kallsymsLookupName
    (ascii "__skb_trim")).isSome

/-- `resolve_filesystem_symbols`: what the filesystem hooks need is there. -/
def resolveFilesystemSymbols : Bool :=
  (k.kallsymsLookupName (ascii "dentry_path_raw")).isSome &&
    (k.kallsymsLookupName (ascii "vfs_statfs")).isSome &&
      (k.kallsymsLookupName (ascii "path_put")).isSome &&
        (k.kallsymsLookupName (ascii "fput")).isSome

/-- From 6.1 on the function of socket options gets the `struct sock`. -/
def sockoptTakesSk : Bool := vpnhideKver 6 1 0 ≤ k.kver

/-- Before 5.9 the functions that bind by an index are hooked. -/
def socketBindUsesIndexHook : Bool := k.kver < vpnhideKver 5 9 0

/-- From 5.3 on a hook of binding has to be there. -/
def socketBindHookRequired : Bool := vpnhideKver 5 3 0 ≤ k.kver

end RunningKernel

/-! ## The module -/

/-- The table of registrations has this length. -/
def vpnhideMaxHookRegistrations : ℕ := 24

/-- The array `hook_registrations`, as far as it is in use. -/
abbrev Registrations := { l : List Registration // l.length ≤ vpnhideMaxHookRegistrations }

/-- Unless it is full. -/
def Registrations.push? (l : Registrations) (r : Registration) : Option Registrations :=
  if h : l.val.length < vpnhideMaxHookRegistrations then
    some ⟨l.val ++ [r], by rw [List.length_append]; exact h⟩ else none

/-- The last registration is taken out. -/
def Registrations.pop (l : Registrations) : Registrations :=
  ⟨l.val.dropLast, l.val.length_dropLast ▸ (Nat.sub_le _ 1).trans l.property⟩

/-- Everything is in place. -/
def vpnhideErrOk : UInt32 := 0

/-- Some hook that is expected is missing. -/
def vpnhideErrPartialHooks : UInt32 := 4

/-- The static data of the module, and what is wrapped in the kernel, the newest first. -/
structure Module where
  config : State
  installedHooks : UInt32
  lastError : UInt32
  registrations : Registrations
  filesystemHidingRequested : Bool
  wrapped : List Registration

/-- The arguments of `install_hook`. -/
structure Hook where
  name : Bytes
  argno : ℕ
  before : Option HookFn
  after : Option HookFn
  id : HookId
  deriving DecidableEq

/-- `install_hook`: the function is wrapped, and put into the table. -/
def installHook (k : RunningKernel) (h : Hook) (m : Module) : Bool × Module :=
  match k.lookupFn h.name with
  | none => (false, m)
  | some fn =>
    let r : Registration := ⟨fn, h.before, h.after⟩
    match m.registrations.push? r with
    | none => (false, m)
    | some registrations =>
      if k.hookWrap m.wrapped h.argno r then
        (true, { m with
          registrations, installedHooks :=
            m.installedHooks ||| hookBit h.id, wrapped := r :: m.wrapped })
      else (false, m)

/-- `hook_unwrap` of the last registration. -/
def unwrapLast (m : Module) : Module :=
  match m.registrations.val.getLast? with
  | none => m
  | some r => { m with registrations := m.registrations.pop, wrapped := m.wrapped.erase r }

/-- `rollback_hook_registrations`: the last ones are taken back, down to a number. -/
def rollbackHookRegistrations (keep : ℕ) (m : Module) : Module :=
  unwrapLast^[m.registrations.val.length - keep] m

/-- The status bit of a hook is cleared. -/
def clearHook (id : HookId) (m : Module) : Module :=
  { m with installedHooks := m.installedHooks &&& ~~~hookBit id }

/-- Wrapping all functions of a group, as far as `wanted` tells, until one fails. -/
def installAll (k : RunningKernel) (wanted : Hook → Bool) : List Hook → Module → Bool × Module
  | [], m => (true, m)
  | h :: hooks, m =>
    if !wanted h then installAll k wanted hooks m
    else
      let installed := installHook k h m
      if installed.1 then installAll k wanted hooks installed.2 else (false, installed.2)

/-- A group that failed is unwrapped. -/
def abandon (id : HookId) (start : ℕ) (m : Module) : Module :=
  clearHook id (rollbackHookRegistrations start m)

/-! ## The hooks -/

/-- The functions that bind by an index. -/
def socketBindIndexHooks : List Hook :=
  [⟨ascii "sock_bindtoindex", 3, some .socketBindIndexBefore, some .socketBindIndexAfter,
    .socketBindInterface⟩,
    ⟨ascii "sock_bindtoindex_locked", 2, some .socketBindIndexBefore, some .socketBindIndexAfter,
      .socketBindInterface⟩,
    ⟨ascii "sock_setbindtodevice_locked", 2, some .socketBindIndexBefore,
      some .socketBindIndexAfter, .socketBindInterface⟩]

/-- `install_socket_bind_index_hooks`: all that there are, or none. -/
def installSocketBindIndexHooks (k : RunningKernel) (m : Module) : Bool × Module :=
  let start := m.registrations.val.length
  let installed := installAll k (fun h => (k.lookupFn h.name).isSome) socketBindIndexHooks m
  if installed.1 then (installed.2.registrations.val.length ≠ start, installed.2)
  else (false, abandon .socketBindInterface start installed.2)

/-- The functions of the file system. -/
def filesystemHooks (k : RunningKernel) : List Hook :=
  [⟨ascii "filename_lookup", 5, none, some .filenameLookupAfter, .filesystemIfacePaths⟩,
    ⟨ascii "do_filp_open", 3, none, some .doFilpOpenAfter, .filesystemIfacePaths⟩,
    ⟨ascii "vfs_getattr", if k.kver < vpnhideKver 4 11 0 then 2 else 4, none, some .vfsGetattrAfter,
      .filesystemIfacePaths⟩,
    ⟨ascii "iterate_dir", 2, some .iterateDirBefore, some .iterateDirAfter, .filesystemIfacePaths⟩]

/-- `install_filesystem_hooks`: all four, or none. -/
def installFilesystemHooks (k : RunningKernel) (m : Module) : Bool × Module :=
  let start := m.registrations.val.length
  if !k.resolveFilesystemSymbols then (false, m)
  else
    let installed := installAll k (fun _ => true) (filesystemHooks k) m
    if installed.1 then (true, installed.2)
      else (false, abandon .filesystemIfacePaths start installed.2)

/-- The hook of socket options. -/
def sockSetsockoptHook : Hook :=
  ⟨ascii "sock_setsockopt", 6, some .socketBindSockBefore, none, .socketBindInterface⟩

/-- The hook of socket options in later kernels. -/
def skSetsockoptHook : Hook :=
  ⟨ascii "sk_setsockopt", 6, some .socketBindSkBefore, none, .socketBindInterface⟩

/-- The hooks of one function each, in the order in which they are installed, each with the offsets
    that it needs. Two of them are one hook for the status: `devinet_ioctl` answers what `dev_ioctl`
    does not. -/
def gatedHooks (off : Offsets) : List (Bool × Hook) :=
  [(off.seqfileCount ≠ 0,
    ⟨ascii "fib_route_seq_show", 2, some .fibRouteBefore, some .fibRouteAfter, .fibRouteSeqShow⟩),
    (off.seqfileCount ≠ 0,
      ⟨ascii "ipv6_route_seq_show", 2, some .fibRouteBefore, some .ipv6RouteAfter,
        .ipv6RouteSeqShow⟩),
    (true, ⟨ascii "dev_ioctl", 5, none, some .devIoctlAfter, .devIoctl⟩),
    (true, ⟨ascii "devinet_ioctl", 3, none, some .devIoctlAfter, .devIoctl⟩),
    (true, ⟨ascii "sock_ioctl", 3, some .sockIoctlBefore, some .sockIoctlAfter, .sockIoctl⟩),
    (off.skbLen ≠ 0,
      ⟨ascii "rtnl_fill_ifinfo", 12, some .rtnlFillBefore, some .rtnlFillAfter, .rtnlFillIfinfo⟩),
    (off.inIfaddrIfaDev ≠ 0,
      ⟨ascii "inet_fill_ifaddr", off.addrFillArgno, some .inetFillBefore, some .inetFillAfter,
        .inetFillIfaddr⟩),
    (off.inet6IfaddrIdev ≠ 0,
      ⟨ascii "inet6_fill_ifaddr", off.addrFillArgno, some .inet6FillBefore, some .inet6FillAfter,
        .inet6FillIfaddr⟩),
    (off.fibDumpFiArg ≠ 0,
      ⟨ascii "fib_dump_info", 11, some .fibDumpBefore, some .fibDumpAfter, .fibDumpInfo⟩),
    (off.fib6InfoFib6Nh ≠ 0 || off.rt6ViaDst ≠ 0,
      ⟨ascii "rt6_fill_node", 11, some .rt6FillBefore, some .rt6FillAfter, .rt6FillNode⟩),
    (off.fibRuleTable ≠ 0,
      ⟨ascii "fib_nl_fill_rule", 7, some .fibRuleBefore, some .fibRuleAfter, .fibNlFillRule⟩)]

/-- The hooks that need nothing but their function. -/
def plainHooks (off : Offsets) : List Hook := ((gatedHooks off).filter (·.1)).map (·.2)

/-- These hooks are installed one by one. -/
def installPlainHooks (k : RunningKernel) (off : Offsets) (m : Module) : Module :=
  (plainHooks off).foldl (fun m h => (installHook k h m).2) m

/-- From Linux 6.1 both may be called. -/
def installSetsockoptHooks (k : RunningKernel) (m : Module) : Bool × Module :=
  let sock := installHook k sockSetsockoptHook m
  if k.sockoptTakesSk then
    let sk := installHook k skSetsockoptHook sock.2
    (sk.1 && sock.1, sk.2)
  else sock

/-- The functions that bind a socket to an interface. -/
def installSocketBindHooks (k : RunningKernel) (off : Offsets) (m : Module) : Module :=
  if (k.lookupFn (ascii "netdev_get_name")).isSome && off.sockNet ≠ 0 && off.socketSk ≠ 0 &&
    k.socketBindHookRequired then
    let installed := if k.socketBindUsesIndexHook then installSocketBindIndexHooks k m
      else installSetsockoptHooks k m
    if installed.1 then installed.2 else clearHook .socketBindInterface installed.2
  else m

/-- The hooks of this kernel. -/
def expectedHooks (k : RunningKernel) (m : Module) : UInt32 :=
  let expected := kernelHookMask
  let expected :=
    if !k.socketBindHookRequired then expected &&& ~~~hookBit .socketBindInterface else expected
  if m.filesystemHidingRequested then expected ||| kpmHookMask else expected

/-- Installing the hooks, after the arguments have been read. -/
def installHooks (k : RunningKernel) (off : Offsets) (m : Module) : Module :=
  let m := installSocketBindHooks k off (installPlainHooks k off m)
  let m := if m.filesystemHidingRequested then (installFilesystemHooks k m).2 else m
  { m with lastError := if m.installedHooks = expectedHooks k m then vpnhideErrOk
    else vpnhideErrPartialHooks }

/-! ## Loading and unloading -/

/-- The data that loading resets. -/
def reset (m : Module) : Module where
  config := { m.config with
    cfgSeq := 0, cfgWriter := 0, configStagingWriter := 0, nrTargets := 0, defaultHookmask := 0
    activeHookMask := 0, debugEnabled := false }
  installedHooks := 0
  lastError := vpnhideErrOk
  registrations := ⟨[], Nat.zero_le _⟩
  filesystemHidingRequested := false
  wrapped := m.wrapped

/-- The arguments switch the file system hooks, or are a first config. -/
def readArgs (args : Bytes) (m : Module) : ℤ × Module :=
  if args = [] then (0, m)
  else if stringEquals args (ascii "filesystem_hiding=1") then
    (0, { m with filesystemHidingRequested := true })
  else if stringEquals args (ascii "filesystem_hiding=0") then (0, m)
  else
    let applied := m.config.applyConfig args
    if applied.1 ≠ 0 then (-1, { m with config := applied.2 })
    else
      (0, { m with config := applied.2, filesystemHidingRequested := applied.2.activeHookMask &&&
        kpmHookMask ≠ 0 })

/-- `vpnhide_kpm_init`: a load of the module. -/
def vpnhideKpmInit (k : RunningKernel) (args : Bytes) (m : Module) : ℤ × Module :=
  let m := reset m
  match k.off with
  | none => (-1, m)
  | some off =>
    if !k.vfsOff || !k.resolveSymbols then (-1, m)
    else
      let read := readArgs args m
      if read.1 ≠ 0 then (-1, read.2) else (0, installHooks k off read.2)

/-- A config by `ctl0`; the other commands only read. -/
def vpnhideKpmCtl0 (args : Bytes) (m : Module) : Module :=
  if peekKind args = some .config then { m with config := (m.config.applyConfig args).2 } else m

/-- `vpnhide_kpm_exit`: an unload. -/
def vpnhideKpmExit (m : Module) : Module :=
  { rollbackHookRegistrations 0 m with installedHooks := 0 }

/-- What KernelPatch does with the module. -/
inductive Event
  | load (k : RunningKernel) (args : Bytes)
  | ctl0 (args : Bytes)
  | unload

/-- The kernel in which the module is loaded, if it is. -/
structure Loaded where
  kernel : Option RunningKernel
  module : Module

/-- A module that refuses to be loaded is not. -/
def step (l : Loaded) : Event → Loaded
  | .load k args =>
    match l.kernel with
    | some _ => l
    | none =>
      let loaded := vpnhideKpmInit k args l.module
      ⟨if loaded.1 = 0 then some k else none, loaded.2⟩
  | .ctl0 args => if l.kernel.isSome then { l with module := vpnhideKpmCtl0 args l.module } else l
  | .unload => if l.kernel.isSome then ⟨none, vpnhideKpmExit l.module⟩ else l

/-! ## What is wrapped -/

/-- What a hook is registered as. -/
def RunningKernel.registration (k : RunningKernel) (h : Hook) : Option Registration :=
  (k.lookupFn h.name).map fun fn => ⟨fn, h.before, h.after⟩

/-- Whether a hook is one of the registrations. -/
def RunningKernel.Wraps (k : RunningKernel) (registrations : List Registration) (h : Hook) : Prop :=
  ∃ r ∈ registrations, k.registration h = some r

/-- Whether sockets cannot be bound behind the hook, when `wraps` tells what is wrapped. -/
def RunningKernel.SocketBindServed (k : RunningKernel) (wraps : Hook → Prop) : Prop :=
  if k.socketBindUsesIndexHook then
    (∃ h ∈ socketBindIndexHooks, wraps h) ∧ ∀ h ∈ socketBindIndexHooks, (k.lookupFn h.name).isSome →
      wraps h
  else wraps sockSetsockoptHook ∧ (k.sockoptTakesSk → wraps skSetsockoptHook)

/-- Whether the registrations are what a hook needs on this kernel. -/
def RunningKernel.Served (k : RunningKernel) (off : Offsets) (registrations : List Registration)
    (id : HookId) : Prop :=
  match id with
  | .socketBindInterface => k.SocketBindServed (k.Wraps registrations)
  | .filesystemIfacePaths => ∀ h ∈ filesystemHooks k, k.Wraps registrations h
  | id => ∃ h ∈ plainHooks off, h.id = id ∧ k.Wraps registrations h

/-- A loaded module, in a kernel where other registrations were wrapped before. -/
structure Settled (k : RunningKernel) (off : Offsets) (others : List Registration) (m : Module) :
    Prop where
  wrapped : m.wrapped = m.registrations.val.reverse ++ others
  room : m.registrations.val.length ≤ 18
  served : ∀ id : HookId, Bit m.installedHooks id.id ↔ k.Served off m.registrations.val id
  /-- The hooks of the file system are wrapped together or not at all. -/
  together : (∀ h ∈ filesystemHooks k, k.Wraps m.registrations.val h) ∨
    ∀ h ∈ filesystemHooks k, ¬k.Wraps m.registrations.val h
  status : m.lastError = vpnhideErrOk ↔
    ∀ id : HookId, Bit (expectedHooks k m) id.id → k.Served off m.registrations.val id

/-- The hooks that are wrapped, in their order, and those that the status shows. -/
structure Holding (k : RunningKernel) (others : List Registration) (requested : Bool)
    (hooks lit : List Hook) (m : Module) : Prop where
  registered : m.registrations.val.map some = hooks.map k.registration
  wrapped : m.wrapped = m.registrations.val.reverse ++ others
  bits : ∀ i, Bit m.installedHooks i ↔ ∃ h ∈ lit, h.id.id = i
  requested : m.filesystemHidingRequested = requested

section Unwrapping

variable {others : List Registration} {m : Module}

/-- What unwrapping leaves, and what it does not touch. -/
structure Unwrapped (others : List Registration) (m : Module) (kept : List Registration)
    (m' : Module) : Prop where
  registrations : m'.registrations.val = kept
  wrapped : m'.wrapped = kept.reverse ++ others
  installedHooks : m'.installedHooks = m.installedHooks
  requested : m'.filesystemHidingRequested = m.filesystemHidingRequested

/-- The last registration is unwrapped. -/
theorem unwrapped_unwrapLast (hm : m.wrapped = m.registrations.val.reverse ++ others) :
    Unwrapped others m m.registrations.val.dropLast (unwrapLast m) := by
  obtain hnil | ⟨init, r, hr⟩ := m.registrations.val.eq_nil_or_concat'
  · have hlast : unwrapLast m = m := by rw [unwrapLast, hnil, List.getLast?_nil]
    rw [hlast, hnil]
    exact ⟨hnil, by rw [hm, hnil]; rfl, rfl, rfl⟩
  · rw [unwrapLast, hr, List.getLast?_concat, List.dropLast_concat]
    refine ⟨?_, ?_, rfl, rfl⟩
    · exact (congrArg List.dropLast hr).trans List.dropLast_concat
    · change m.wrapped.erase r = _
      rw [hm, hr, List.reverse_append, List.reverse_singleton, List.append_assoc,
        List.singleton_append, List.erase_cons_head]

/-- Several registrations are unwrapped. -/
theorem unwrapped_iterate (hm : m.wrapped = m.registrations.val.reverse ++ others) : ∀ n,
    Unwrapped others m (m.registrations.val.take (m.registrations.val.length - n))
      (unwrapLast^[n] m)
  | 0 => by
    rw [Nat.sub_zero, List.take_length]
    exact ⟨rfl, hm, rfl, rfl⟩
  | n + 1 => by
    have hn := unwrapped_iterate hm n
    have hwrapped :
        (unwrapLast^[n] m).wrapped = (unwrapLast^[n] m).registrations.val.reverse ++ others :=
      hn.wrapped.trans (congrArg (·.reverse ++ others) hn.registrations.symm)
    have hlast := unwrapped_unwrapLast hwrapped
    have hkept : (unwrapLast^[n] m).registrations.val.dropLast =
        m.registrations.val.take (m.registrations.val.length - (n + 1)) := by
      rw [hn.registrations, List.dropLast_eq_take, List.take_take, List.length_take]
      congr 1
      omega
    rw [Function.iterate_succ_apply']
    exact ⟨hlast.registrations.trans hkept, hkept ▸ hlast.wrapped,
      hlast.installedHooks.trans hn.installedHooks, hlast.requested.trans hn.requested⟩

/-- A rollback unwraps down to a number. -/
theorem unwrapped_rollback (hm : m.wrapped = m.registrations.val.reverse ++ others) {keep : ℕ}
    (hkeep : keep ≤ m.registrations.val.length) :
    Unwrapped others m (m.registrations.val.take keep) (rollbackHookRegistrations keep m) := by
  have hn := unwrapped_iterate hm (m.registrations.val.length - keep)
  rwa [Nat.sub_sub_self hkeep] at hn

end Unwrapping

section Holding

variable {k : RunningKernel} {others : List Registration} {requested : Bool}
  {hooks lit new : List Hook} {m : Module}

/-- Hooks have different numbers. -/
theorem id_injective : Function.Injective HookId.id := by
  intro a b h
  cases a <;> cases b <;> first | rfl | cases h

/-- There is a registration for each hook. -/
theorem Holding.length (hm : Holding k others requested hooks lit m) :
    m.registrations.val.length = hooks.length := by
  have := congrArg List.length hm.registered
  rwa [List.length_map, List.length_map] at this

/-- One more, or nothing is changed. -/
theorem Holding.installHook (hm : Holding k others requested hooks lit m) (h : Hook) :
    ((installHook k h m).1 = true ∧
        Holding k others requested (hooks ++ [h]) (lit ++ [h]) (installHook k h m).2) ∨
      installHook k h m = (false, m) := by
  rw [Kpm.installHook]
  cases hfn : k.lookupFn h.name with
  | none => exact .inr rfl
  | some fn =>
    dsimp only
    cases hpush : m.registrations.push? ⟨fn, h.before, h.after⟩ with
    | none => exact .inr rfl
    | some registrations =>
      have hval : registrations.val = m.registrations.val ++ [⟨fn, h.before, h.after⟩] := by
        rw [Registrations.push?] at hpush
        split_ifs at hpush
        exact congrArg Subtype.val (Option.some.inj hpush).symm
      dsimp only
      split_ifs with hwrap
      · refine .inl ⟨rfl, ?_, ?_, fun i => ?_, hm.requested⟩
        · change registrations.val.map some = _
          rw [hval, List.map_append, hm.registered, List.map_append, List.map_singleton,
            List.map_singleton, RunningKernel.registration, hfn, Option.map_some]
        · change _ :: m.wrapped = registrations.val.reverse ++ others
          rw [hval, List.reverse_append, hm.wrapped]
          rfl
        · change Bit (m.installedHooks ||| hookBit h.id) i ↔ _
          rw [bit_or, hm.bits, bit_hookBit]
          simp [or_and_right, exists_or]
      · exact .inr rfl

/-- The mask shows a hook no more. -/
theorem Holding.clear (hm : Holding k others requested hooks lit m) (id : HookId) :
    Holding k others requested hooks (lit.filter (·.id ≠ id)) (clearHook id m) := by
  refine ⟨hm.registered, hm.wrapped, fun i => ?_, hm.requested⟩
  change Bit (m.installedHooks &&& ~~~hookBit id) i ↔ _
  have hclear :
      Bit (m.installedHooks &&& ~~~hookBit id) i ↔ Bit m.installedHooks i ∧ id.id ≠ i := by
    rw [bit_and]
    refine and_congr_right fun hi => ?_
    rw [bit_not (lt_of_bit hi), bit_hookBit]
  rw [hclear, hm.bits]
  constructor
  · rintro ⟨⟨h, hh, rfl⟩, hne⟩
    exact ⟨h, List.mem_filter.2 ⟨hh, decide_eq_true fun heq => hne (congrArg HookId.id heq).symm⟩,
      rfl⟩
  · rintro ⟨h, hh, rfl⟩
    obtain ⟨hh, hne⟩ := List.mem_filter.1 hh
    exact ⟨⟨h, hh, rfl⟩, fun heq => of_decide_eq_true hne (id_injective heq.symm)⟩

/-- A rollback leaves the hooks from before. -/
theorem Holding.rollback (hm : Holding k others requested (hooks ++ new) lit m) :
    Holding k others requested hooks lit (rollbackHookRegistrations hooks.length m) := by
  have hlen := hm.length
  rw [List.length_append] at hlen
  have hm' := unwrapped_rollback hm.wrapped (hlen ▸ Nat.le_add_right hooks.length new.length)
  refine ⟨?_, ?_, fun i => ?_, hm'.requested.trans hm.requested⟩
  · rw [hm'.registrations, List.map_take, hm.registered, ← List.map_take, List.take_left]
  · rw [hm'.wrapped, hm'.registrations]
  · rw [hm'.installedHooks, hm.bits]

/-- A group of which all hooks that are wanted are wrapped, or that is given up. -/
theorem Holding.installAll (wanted : Hook → Bool) (l : List Hook)
    (hm : Holding k others requested hooks lit m) :
    ((installAll k wanted l m).1 = true ∧
        Holding k others requested (hooks ++ l.filter wanted) (lit ++ l.filter wanted)
          (installAll k wanted l m).2) ∨
      ((installAll k wanted l m).1 = false ∧ ∃ new ⊆ l,
        Holding k others requested (hooks ++ new) (lit ++ new) (installAll k wanted l m).2) := by
  induction l generalizing hooks lit m with
  | nil =>
    rw [List.filter_nil, List.append_nil, List.append_nil]
    exact .inl ⟨rfl, hm⟩
  | cons h l ih =>
    cases hwanted : wanted h with
    | false =>
      have hskip : Kpm.installAll k wanted (h :: l) m = Kpm.installAll k wanted l m := by
        simp [Kpm.installAll, hwanted]
      rw [hskip, List.filter_cons_of_neg (by simp [hwanted])]
      obtain hl | ⟨hok, new, hsub, hl⟩ := ih hm
      · exact .inl hl
      · exact .inr ⟨hok, new, List.subset_cons_of_subset h hsub, hl⟩
    | true =>
      obtain ⟨hok, hh⟩ | hh := hm.installHook h
      · have hnext :
            Kpm.installAll k wanted (h :: l) m = Kpm.installAll k wanted l
              (Kpm.installHook k h m).2 := by
          simp [Kpm.installAll, hwanted, hok]
        rw [hnext, List.filter_cons_of_pos hwanted, List.append_cons, List.append_cons lit]
        obtain hl | ⟨hok, new, hsub, hl⟩ := ih hh
        · exact .inl hl
        · refine .inr ⟨hok, h :: new, List.cons_subset_cons h hsub, ?_⟩
          rwa [List.append_cons, List.append_cons lit]
      · have hfailed : Kpm.installAll k wanted (h :: l) m = (false, m) := by
          simp [Kpm.installAll, hwanted, hh]
        rw [hfailed]
        refine .inr ⟨rfl, [], List.nil_subset _, ?_⟩
        rwa [List.append_nil, List.append_nil]

/-- The mask shows no hook of a group that failed. -/
theorem Holding.clear_append {id : HookId} (hm : Holding k others requested hooks (lit ++ new) m)
    (hlit : ∀ h ∈ lit, h.id ≠ id) (hnew : ∀ h ∈ new, h.id = id) :
    Holding k others requested hooks lit (clearHook id m) := by
  have hfilter : (lit ++ new).filter (·.id ≠ id) = lit := by
    rw [List.filter_append, List.filter_eq_self.2 fun h hh => decide_eq_true (hlit h hh),
      List.filter_eq_nil_iff.2 fun h hh => by simp [hnew h hh], List.append_nil]
  exact hfilter ▸ hm.clear id

/-- Hooks that are taken back are not lit. -/
theorem Holding.abandon {id : HookId}
    (hm : Holding k others requested (hooks ++ new) (lit ++ new) m) (hlit : ∀ h ∈ lit, h.id ≠ id)
    (hnew : ∀ h ∈ new, h.id = id) :
    Holding k others requested hooks lit (abandon id hooks.length m) :=
  hm.rollback.clear_append hlit hnew

/-- Hooks that are installed one by one. -/
theorem Holding.foldl (l : List Hook) (hm : Holding k others requested hooks lit m) :
    ∃ new, new.Sublist l ∧
      Holding k others requested (hooks ++ new) (lit ++ new)
        (l.foldl (fun m h => (Kpm.installHook k h m).2) m) := by
  induction l generalizing hooks lit m with
  | nil =>
    refine ⟨[], .slnil, ?_⟩
    rwa [List.append_nil, List.append_nil]
  | cons h l ih =>
    rw [List.foldl_cons]
    obtain ⟨-, hh⟩ | hh := hm.installHook h
    · obtain ⟨new, hsub, hl⟩ := ih hh
      refine ⟨h :: new, hsub.cons_cons h, ?_⟩
      rwa [List.append_cons, List.append_cons lit]
    · obtain ⟨new, hsub, hl⟩ := ih hm
      rw [hh]
      exact ⟨new, hsub.cons h, hl⟩

/-- The helpers are all wrapped that there are, or none. -/
theorem Holding.socketBindIndex (hm : Holding k others requested hooks lit m)
    (hlit : ∀ h ∈ lit, h.id ≠ .socketBindInterface) : ∃ bind,
      (bind = [] ∨ bind = socketBindIndexHooks.filter fun h => (k.lookupFn h.name).isSome) ∧
      ((installSocketBindIndexHooks k m).1 = true ↔ bind ≠ []) ∧
      Holding k others requested (hooks ++ bind) (lit ++ bind)
        (installSocketBindIndexHooks k m).2 := by
  rw [installSocketBindIndexHooks]
  obtain ⟨hok, hall⟩ | ⟨hok, new, hsub, hnew⟩ :=
    hm.installAll (fun h => (k.lookupFn h.name).isSome) socketBindIndexHooks
  · rw [if_pos hok]
    refine ⟨_, .inr rfl, ?_, hall⟩
    rw [hall.length, hm.length, List.length_append, decide_eq_true_iff, ne_eq, Nat.add_eq_left,
      List.length_eq_zero_iff]
  · rw [hok, if_neg Bool.false_ne_true, hm.length]
    refine ⟨[], .inl rfl, by simp, ?_⟩
    rw [List.append_nil, List.append_nil]
    have hid : ∀ h ∈ socketBindIndexHooks, h.id = .socketBindInterface := by decide
    exact hnew.abandon hlit fun h hh => hid h (hsub hh)

/-- The file system hooks are all wrapped, or none. -/
theorem Holding.filesystem (hm : Holding k others requested hooks lit m)
    (hlit : ∀ h ∈ lit, h.id ≠ .filesystemIfacePaths) : ∃ fs, (fs = [] ∨ fs = filesystemHooks k) ∧
      Holding k others requested (hooks ++ fs) (lit ++ fs) (installFilesystemHooks k m).2 := by
  rw [installFilesystemHooks]
  have hnone : Holding k others requested (hooks ++ []) (lit ++ []) m := by
    rwa [List.append_nil, List.append_nil]
  dsimp only
  split_ifs with hsymbols hok
  · exact ⟨[], .inl rfl, hnone⟩
  · obtain ⟨-, hall⟩ | ⟨hfailed, -⟩ := hm.installAll (fun _ => true) (filesystemHooks k)
    · rw [List.filter_true] at hall
      exact ⟨_, .inr rfl, hall⟩
    · rw [hfailed] at hok
      cases hok
  · obtain ⟨hall, -⟩ | ⟨-, new, hsub, hnew⟩ := hm.installAll (fun _ => true) (filesystemHooks k)
    · exact absurd hall hok
    · refine ⟨[], .inl rfl, ?_⟩
      rw [List.append_nil, List.append_nil, hm.length]
      have hid : ∀ h ∈ filesystemHooks k, h.id = .filesystemIfacePaths := by simp [filesystemHooks]
      exact hnew.abandon hlit fun h hh => hid h (hsub hh)

/-- Each is wrapped or is not. -/
theorem Holding.setsockopt (hm : Holding k others requested hooks lit m) :
    ∃ bind, bind.Sublist [sockSetsockoptHook, skSetsockoptHook] ∧
      ((installSetsockoptHooks k m).1 = true ↔
        sockSetsockoptHook ∈ bind ∧ (k.sockoptTakesSk = true → skSetsockoptHook ∈ bind)) ∧
      Holding k others requested (hooks ++ bind) (lit ++ bind) (installSetsockoptHooks k m).2 := by
  have hne : skSetsockoptHook ≠ sockSetsockoptHook := by decide
  rw [installSetsockoptHooks]
  obtain ⟨hsockOk, hsock⟩ | hsock := hm.installHook sockSetsockoptHook
  · cases htakes : k.sockoptTakesSk with
    | false => exact ⟨[sockSetsockoptHook], by simp, by simp [hsockOk], hsock⟩
    | true =>
      obtain ⟨hskOk, hsk⟩ | hsk := hsock.installHook skSetsockoptHook
      · refine ⟨[sockSetsockoptHook, skSetsockoptHook], .refl _, by simp [hsockOk, hskOk], ?_⟩
        rw [List.append_cons, List.append_cons lit]
        exact hsk
      · refine ⟨[sockSetsockoptHook], by simp, by simp [hsk, hne], ?_⟩
        dsimp only [if_true]
        rw [hsk]
        exact hsock
  · rw [hsock]
    have hnone : Holding k others requested (hooks ++ []) (lit ++ []) m := by
      rwa [List.append_nil, List.append_nil]
    cases htakes : k.sockoptTakesSk with
    | false => exact ⟨[], List.nil_sublist _, by simp, hnone⟩
    | true =>
      obtain ⟨hskOk, hsk⟩ | hsk := hm.installHook skSetsockoptHook
      · exact ⟨[skSetsockoptHook], by simp, by simp [hne.symm], hsk⟩
      · refine ⟨[], List.nil_sublist _, by simp, ?_⟩
        dsimp only [if_true]
        rw [hsk]
        exact hnone

/-- What is wrapped of the hooks that bind a socket, and what of it the status shows. -/
structure Bound (k : RunningKernel) (bind shown : List Hook) : Prop where
  required : bind ≠ [] → k.socketBindHookRequired = true
  shown_eq : shown = [] ∨ shown = bind
  served : shown ≠ [] ↔ k.SocketBindServed (· ∈ bind)
  index : k.socketBindUsesIndexHook = true →
    bind = [] ∨ bind = socketBindIndexHooks.filter fun h => (k.lookupFn h.name).isSome
  sock : k.socketBindUsesIndexHook = false → bind.Sublist [sockSetsockoptHook, skSetsockoptHook]

/-- Nothing is wrapped. -/
theorem Bound.nil (k : RunningKernel) : Bound k [] [] where
  required h := absurd rfl h
  shown_eq := .inl rfl
  served := by
    rw [RunningKernel.SocketBindServed]
    split_ifs <;> simp
  index _ := .inl rfl
  sock _ := List.nil_sublist _

/-- Binding is served where the kernel binds by an index. -/
theorem Bound.of_index (hrequired : k.socketBindHookRequired = true)
    (hindex : k.socketBindUsesIndexHook = true) {bind : List Hook}
    (hbind : bind = [] ∨ bind = socketBindIndexHooks.filter fun h => (k.lookupFn h.name).isSome) :
    Bound k bind bind where
  required _ := hrequired
  shown_eq := .inr rfl
  served := by
    rw [RunningKernel.SocketBindServed, if_pos hindex, ne_eq, List.eq_nil_iff_forall_not_mem,
      not_forall_not]
    obtain rfl | rfl := hbind
    · simp
    · constructor
      · rintro ⟨h, hh⟩
        exact ⟨⟨h, List.mem_of_mem_filter hh, hh⟩, fun h hmem hfn => List.mem_filter.2 ⟨hmem, hfn⟩⟩
      · rintro ⟨⟨h, -, hh⟩, -⟩
        exact ⟨h, hh⟩
  index _ := hbind
  sock hsock := by
    rw [hindex] at hsock
    cases hsock

/-- Binding is served by the functions of socket options. -/
theorem Bound.of_setsockopt (hrequired : k.socketBindHookRequired = true)
    (hindex : k.socketBindUsesIndexHook = false) {bind shown : List Hook}
    (hsub : bind.Sublist [sockSetsockoptHook, skSetsockoptHook])
    (hshown : shown = [] ∨ shown = bind)
    (hserved : shown ≠ [] ↔ sockSetsockoptHook ∈ bind ∧
      (k.sockoptTakesSk = true → skSetsockoptHook ∈ bind)) :
    Bound k bind shown where
  required _ := hrequired
  shown_eq := hshown
  served := by
    rw [RunningKernel.SocketBindServed, if_neg (Bool.eq_false_iff.1 hindex)]
    exact hserved
  index h := by
    rw [hindex] at h
    cases h
  sock _ := hsub

/-- The hooks of binding. -/
theorem Bound.id_eq {bind shown : List Hook} (hb : Bound k bind shown) :
    ∀ h ∈ bind, h.id = .socketBindInterface := by
  intro h hh
  cases hindex : k.socketBindUsesIndexHook with
  | true =>
    obtain rfl | rfl := hb.index hindex
    · cases hh
    · have hid : ∀ h ∈ socketBindIndexHooks, h.id = .socketBindInterface := by decide
      exact hid h (List.mem_of_mem_filter hh)
  | false =>
    have hid : ∀ h ∈ [sockSetsockoptHook, skSetsockoptHook], h.id = .socketBindInterface := by
      decide
    exact hid h ((hb.sock hindex).subset hh)

/-- There are at most three of them. -/
theorem Bound.length_le {bind shown : List Hook} (hb : Bound k bind shown) : bind.length ≤ 3 := by
  cases hindex : k.socketBindUsesIndexHook with
  | true =>
    obtain rfl | rfl := hb.index hindex
    · exact Nat.zero_le 3
    · exact List.length_filter_le _ _
  | false => exact (hb.sock hindex).length_le.trans (by decide)

/-- The hooks of binding are installed. -/
theorem Holding.socketBind {off : Offsets} (hm : Holding k others requested hooks hooks m)
    (hlit : ∀ h ∈ hooks, h.id ≠ .socketBindInterface) : ∃ bind shown, Bound k bind shown ∧
      Holding k others requested (hooks ++ bind) (hooks ++ shown)
        (installSocketBindHooks k off m) := by
  rw [installSocketBindHooks]
  dsimp only
  split_ifs with hgate hindex hok hok
  · obtain ⟨bind, hbind, -, hall⟩ := hm.socketBindIndex hlit
    exact ⟨bind, bind, .of_index (by simp_all) hindex hbind, hall⟩
  · obtain ⟨bind, hbind, hbindOk, hall⟩ := hm.socketBindIndex hlit
    have hclear := hall.clear_append hlit (Bound.of_index (by simp_all) hindex hbind).id_eq
    obtain rfl : bind = [] := not_not.1 fun hne => hok (hbindOk.2 hne)
    rw [List.append_nil] at hclear
    exact ⟨[], [], .nil k, by rwa [List.append_nil]⟩
  · obtain ⟨bind, hsub, hbindOk, hall⟩ := hm.setsockopt
    have hserved := hbindOk.1 hok
    refine ⟨bind, bind, .of_setsockopt (by simp_all) (Bool.eq_false_iff.2 hindex) hsub
      (.inr rfl) ?_, hall⟩
    exact iff_of_true (List.ne_nil_of_mem hserved.1) hserved
  · obtain ⟨bind, hsub, hbindOk, hall⟩ := hm.setsockopt
    have hbound : Bound k bind [] :=
      .of_setsockopt (by simp_all) (Bool.eq_false_iff.2 hindex) hsub (.inl rfl)
      (iff_of_false (fun h => h rfl) (mt hbindOk.2 hok))
    refine ⟨bind, [], hbound, ?_⟩
    rw [List.append_nil]
    exact hall.clear_append hlit hbound.id_eq
  · refine ⟨[], [], .nil k, ?_⟩
    rwa [List.append_nil]

/-- A hook that is held is wrapped. -/
theorem Holding.wraps_of_mem (hm : Holding k others requested hooks lit m)
    {h : Hook} (hh : h ∈ hooks) :
    k.Wraps m.registrations.val h := by
  have hmem : k.registration h ∈ m.registrations.val.map some :=
    hm.registered ▸ List.mem_map_of_mem hh
  obtain ⟨r, hr, heq⟩ := List.mem_map.1 hmem
  exact ⟨r, hr, heq.symm⟩

/-- What is wrapped has the callbacks of a hook that was wrapped. -/
theorem Holding.exists_of_wraps (hm : Holding k others requested hooks lit m) {h : Hook}
    (hh : k.Wraps m.registrations.val h) :
    ∃ h' ∈ hooks, h'.before = h.before ∧ h'.after = h.after := by
  obtain ⟨r, hr, hreg⟩ := hh
  have hmem : some r ∈ hooks.map k.registration := hm.registered ▸ List.mem_map_of_mem hr
  obtain ⟨h', hh', hreg'⟩ := List.mem_map.1 hmem
  obtain ⟨fn, -, rfl⟩ := Option.map_eq_some_iff.1 hreg
  obtain ⟨fn', -, heq⟩ := Option.map_eq_some_iff.1 hreg'
  exact ⟨h', hh', congrArg Registration.before heq, congrArg Registration.after heq⟩

end Holding

/-! ## Whose callbacks they are -/

/-- The status bit that a function serves. -/
def HookFn.id : HookFn → HookId
  | .fibRouteBefore | .fibRouteAfter => .fibRouteSeqShow
  | .ipv6RouteAfter => .ipv6RouteSeqShow
  | .devIoctlAfter => .devIoctl
  | .sockIoctlBefore | .sockIoctlAfter => .sockIoctl
  | .rtnlFillBefore | .rtnlFillAfter => .rtnlFillIfinfo
  | .inetFillBefore | .inetFillAfter => .inetFillIfaddr
  | .inet6FillBefore | .inet6FillAfter => .inet6FillIfaddr
  | .fibDumpBefore | .fibDumpAfter => .fibDumpInfo
  | .rt6FillBefore | .rt6FillAfter => .rt6FillNode
  | .fibRuleBefore | .fibRuleAfter => .fibNlFillRule
  | .socketBindSockBefore | .socketBindSkBefore | .socketBindIndexBefore | .socketBindIndexAfter =>
    .socketBindInterface
  | .filenameLookupAfter | .doFilpOpenAfter | .vfsGetattrAfter | .iterateDirBefore
  | .iterateDirAfter =>
    .filesystemIfacePaths

/-- The last of the callbacks tells which hook it is; two hooks share a first one. -/
def Hook.Known (h : Hook) : Prop := (h.after <|> h.before).map HookFn.id = some h.id

/-- Known hooks with the same functions have the same number. -/
theorem Hook.Known.id_eq {h h' : Hook} (hk : h.Known) (hk' : h'.Known)
    (hbefore : h.before = h'.before) (hafter : h.after = h'.after) : h.id = h'.id := by
  rw [Hook.Known, hbefore, hafter, hk'] at hk
  exact (Option.some.inj hk).symm

/-- A hook of one function. -/
structure Hook.Plain (h : Hook) : Prop where
  known : h.Known
  expected : Bit kernelHookMask h.id.id
  not_bind : h.id ≠ .socketBindInterface
  not_filesystem : h.id ≠ .filesystemIfacePaths

/-- What the plain hooks are. -/
theorem plain_plainHooks (off : Offsets) : ∀ h ∈ plainHooks off, h.Plain := by
  have hall : ∀ g ∈ gatedHooks off, g.2.Plain := by
    simp only [gatedHooks, List.forall_mem_cons]
    refine ⟨?_, ?_, ?_, ?_, ?_, ?_, ?_, ?_, ?_, ?_, ?_, List.forall_mem_nil _⟩ <;>
      exact ⟨rfl, by dsimp only [Bit]; decide, nofun, nofun⟩
  intro h hh
  obtain ⟨g, hg, rfl⟩ := List.mem_map.1 hh
  exact hall g (List.mem_of_mem_filter hg)

/-- There are at most eleven of them. -/
theorem length_plainHooks (off : Offsets) : (plainHooks off).length ≤ 11 := by
  rw [plainHooks, List.length_map]
  exact List.length_filter_le _ _

/-- The hooks that bind by an index are known. -/
theorem known_socketBindIndexHooks : ∀ h ∈ socketBindIndexHooks, h.Known := by
  unfold Hook.Known
  decide

/-- The hooks of the file system are known. -/
theorem known_filesystemHooks (k : RunningKernel) :
    ∀ h ∈ filesystemHooks k, h.Known ∧ h.id = .filesystemIfacePaths := by
  rw [filesystemHooks, List.forall_mem_cons, List.forall_mem_cons, List.forall_mem_cons,
    List.forall_mem_singleton]
  exact ⟨⟨rfl, rfl⟩, ⟨rfl, rfl⟩, ⟨rfl, rfl⟩, rfl, rfl⟩

/-! ## What is expected -/

/-- The hooks that are expected. -/
theorem bit_expectedHooks {k : RunningKernel} {m : Module} {i : ℕ} : Bit (expectedHooks k m) i ↔
    (Bit kernelHookMask i ∧
      (k.socketBindHookRequired = false → i ≠ HookId.id .socketBindInterface)) ∨
      (m.filesystemHidingRequested = true ∧ Bit kpmHookMask i) := by
  have hclear : Bit (kernelHookMask &&& ~~~hookBit .socketBindInterface) i ↔
      Bit kernelHookMask i ∧ i ≠ HookId.id .socketBindInterface := by
    rw [bit_and]
    refine and_congr_right fun hi => ?_
    rw [bit_not (lt_of_bit hi), bit_hookBit]
    exact ne_comm
  rw [expectedHooks]
  cases k.socketBindHookRequired <;> cases m.filesystemHidingRequested <;> simp [hclear, bit_or]

/-- Every bit that may be expected is of a hook. -/
theorem exists_id_of_bit {i : ℕ} (hi : Bit (kernelHookMask ||| kpmHookMask) i) :
    ∃ id : HookId, id.id = i := by
  have hall : ∀ i < 32, Bit (kernelHookMask ||| kpmHookMask) i → ∃ id ∈ HookId.all, id.id = i := by
    unfold Bit
    decide
  obtain ⟨id, -, hid⟩ := hall i (lt_of_bit hi) hi
  exact ⟨id, hid⟩

/-- Sets with the same bits are equal. -/
theorem eq_of_bits {a b : HookSet} (h : ∀ i, Bit a i ↔ Bit b i) : a = b := by
  rw [← UInt32.toNat_inj]
  exact Nat.eq_of_testBit_eq fun i => Bool.eq_iff_iff.2 (h i)

/-! ## Every run -/

section Settle

variable {k : RunningKernel} {off : Offsets} {others : List Registration} {requested : Bool}
  {plain bind shown fs : List Hook} {m : Module}

/-- What is wrapped after loading. -/
structure Filled (k : RunningKernel) (off : Offsets) (others : List Registration) (requested : Bool)
    (plain bind shown fs : List Hook) (m : Module) : Prop where
  sublist : plain.Sublist (plainHooks off)
  bound : Bound k bind shown
  group : fs = [] ∨ fs = filesystemHooks k ∧ requested = true
  holding : Holding k others requested (plain ++ bind ++ fs) (plain ++ shown ++ fs) m

namespace Filled

variable (hf : Filled k off others requested plain bind shown fs m)

include hf

theorem plain_hooks : ∀ h ∈ plain, h.Plain :=
  fun h hh => plain_plainHooks off h (hf.sublist.subset hh)

theorem filesystem_hooks : ∀ h ∈ fs, h.Known ∧ h.id = .filesystemIfacePaths := by
  intro h hh
  obtain rfl | ⟨rfl, -⟩ := hf.group
  · cases hh
  · exact known_filesystemHooks k h hh

theorem bind_hooks : ∀ h ∈ bind, h.Known ∧ h.id = .socketBindInterface := by
  intro h hh
  refine ⟨?_, hf.bound.id_eq h hh⟩
  cases hindex : k.socketBindUsesIndexHook with
  | true =>
    obtain rfl | rfl := hf.bound.index hindex
    · cases hh
    · exact known_socketBindIndexHooks h (List.mem_of_mem_filter hh)
  | false =>
    have hknown : ∀ h ∈ [sockSetsockoptHook, skSetsockoptHook], h.Known := by
      unfold Hook.Known
      decide
    exact hknown h ((hf.bound.sock hindex).subset hh)

theorem shown_subset : shown ⊆ bind := by
  obtain h | h := hf.bound.shown_eq
  · rw [h]
    exact List.nil_subset _
  · exact h ▸ List.Subset.refl _

/-- A known hook that is wrapped is one of those that were. -/
theorem exists_of_wraps {h : Hook} (hh : k.Wraps m.registrations.val h) (hknown : h.Known) :
    ∃ h' ∈ plain ++ bind ++ fs, h'.id = h.id ∧ h'.before = h.before := by
  obtain ⟨h', hmem, hbefore, hafter⟩ := hf.holding.exists_of_wraps hh
  refine ⟨h', hmem, ?_, hbefore⟩
  obtain hp | hb | hfs : h' ∈ plain ∨ h' ∈ bind ∨ h' ∈ fs := by simpa using hmem
  · exact (hf.plain_hooks h' hp).known.id_eq hknown hbefore hafter
  · exact (hf.bind_hooks h' hb).1.id_eq hknown hbefore hafter
  · exact (hf.filesystem_hooks h' hfs).1.id_eq hknown hbefore hafter

/-- A hook of binding is among those of binding. -/
theorem mem_bind {h : Hook} {l : List Hook} (hh : h ∈ plain ++ l ++ fs)
    (hid : h.id = .socketBindInterface) :
    h ∈ l := by
  obtain hp | hb | hfs : h ∈ plain ∨ h ∈ l ∨ h ∈ fs := by simpa using hh
  · exact absurd hid (hf.plain_hooks h hp).not_bind
  · exact hb
  · rw [(hf.filesystem_hooks h hfs).2] at hid
    cases hid

/-- A hook of the file system is among those of the file system. -/
theorem mem_filesystem {h : Hook} (hh : h ∈ plain ++ bind ++ fs)
    (hid : h.id = .filesystemIfacePaths) : h ∈ fs := by
  obtain hp | hb | hfs : h ∈ plain ∨ h ∈ bind ∨ h ∈ fs := by simpa using hh
  · exact absurd hid (hf.plain_hooks h hp).not_filesystem
  · rw [(hf.bind_hooks h hb).2] at hid
    cases hid
  · exact hfs

/-- Any other hook is a plain one. -/
theorem mem_plain {h : Hook} (hh : h ∈ plain ++ bind ++ fs) (hbind : h.id ≠ .socketBindInterface)
    (hfilesystem : h.id ≠ .filesystemIfacePaths) : h ∈ plain := by
  obtain hp | hb | hfs : h ∈ plain ∨ h ∈ bind ∨ h ∈ fs := by simpa using hh
  · exact hp
  · exact absurd (hf.bind_hooks h hb).2 hbind
  · exact absurd (hf.filesystem_hooks h hfs).2 hfilesystem

/-- The functions that bind a socket are wrapped by their own hooks. -/
theorem socketBindServed_iff : k.SocketBindServed (k.Wraps m.registrations.val) ↔
    k.SocketBindServed (· ∈ bind) := by
  have hmem {h : Hook} (hh : h ∈ bind) : k.Wraps m.registrations.val h :=
    hf.holding.wraps_of_mem (by simp [hh])
  rw [RunningKernel.SocketBindServed, RunningKernel.SocketBindServed]
  -- By how the kernel binds a socket: by index, or by name alone.
  cases hindex : k.socketBindUsesIndexHook with
  | true =>
    have hwraps : ∀ h ∈ socketBindIndexHooks, k.Wraps m.registrations.val h → h ∈ bind := by
      intro h hh hw
      have hid : ∀ h ∈ socketBindIndexHooks, h.id = .socketBindInterface := by decide
      obtain ⟨h', hh', hid', -⟩ := hf.exists_of_wraps hw (known_socketBindIndexHooks h hh)
      have hbind := hf.mem_bind hh' (hid'.trans (hid h hh))
      obtain rfl | rfl := hf.bound.index hindex
      · cases hbind
      · obtain ⟨r, -, hreg⟩ := hw
        obtain ⟨fn, hfn, -⟩ := Option.map_eq_some_iff.1 hreg
        exact List.mem_filter.2 ⟨hh, by rw [hfn]; rfl⟩
    rw [if_pos rfl, if_pos rfl]
    refine and_congr ?_ ?_
    · exact exists_congr fun h => and_congr_right fun hh => ⟨hwraps h hh, hmem⟩
    · exact forall_congr' fun h => forall_congr' fun hh => imp_congr_right fun _ =>
        ⟨hwraps h hh, hmem⟩
  | false =>
    have hwraps : ∀ h ∈ [sockSetsockoptHook, skSetsockoptHook], k.Wraps m.registrations.val h →
        h ∈ bind := by
      intro h hh hw
      have hown : ∀ h ∈ [sockSetsockoptHook, skSetsockoptHook], (h.after <|> h.before).map
          HookFn.id = some h.id ∧
          h.id = .socketBindInterface ∧ ∀ h' ∈ [sockSetsockoptHook, skSetsockoptHook], h'.before =
            h.before → h' = h := by
        decide
      obtain ⟨hknown, hid, huniq⟩ := hown h hh
      obtain ⟨h', hh', hid', hbefore⟩ := hf.exists_of_wraps hw hknown
      have hbind := hf.mem_bind hh' (hid'.trans hid)
      exact huniq h' ((hf.bound.sock hindex).subset hbind) hbefore ▸ hbind
    rw [if_neg Bool.false_ne_true, if_neg Bool.false_ne_true]
    exact and_congr ⟨hwraps _ (by simp), hmem⟩ (imp_congr_right fun _ => ⟨hwraps _ (by simp), hmem⟩)

/-- The hooks of the file system are wrapped together. -/
theorem filesystem_wraps {h : Hook} (hh : h ∈ filesystemHooks k) : k.Wraps m.registrations.val h ↔
    fs = filesystemHooks k := by
  constructor
  · intro hw
    obtain ⟨hknown, hid⟩ := known_filesystemHooks k h hh
    obtain ⟨h', hh', hid', -⟩ := hf.exists_of_wraps hw hknown
    have hfs := hf.mem_filesystem hh' (hid'.trans hid)
    obtain rfl | ⟨heq, -⟩ := hf.group
    · cases hfs
    · exact heq
  · rintro rfl
    exact hf.holding.wraps_of_mem (by simp [hh])

/-- The mask shows what is served. -/
theorem served (id : HookId) :
    Bit m.installedHooks id.id ↔ k.Served off m.registrations.val id := by
  have hbits : Bit m.installedHooks id.id ↔ ∃ h ∈ plain ++ shown ++ fs, h.id = id := by
    rw [hf.holding.bits]
    exact exists_congr fun h => and_congr_right fun _ => id_injective.eq_iff
  rw [hbits]
  have hsub : ∀ h ∈ plain ++ shown ++ fs, h ∈ plain ++ bind ++ fs := by
    intro h hh
    obtain hp | hb | hfs : h ∈ plain ∨ h ∈ shown ∨ h ∈ fs := by simpa using hh
    · simp [hp]
    · simp [hf.shown_subset hb]
    · simp [hfs]
  -- Two hooks are not served by one wrap alone: the bind hook has several to choose from,
  by_cases hbind : id = .socketBindInterface
  · subst hbind
    rw [RunningKernel.Served, hf.socketBindServed_iff, ← hf.bound.served, ne_eq,
      List.eq_nil_iff_forall_not_mem, not_forall_not]
    constructor
    · rintro ⟨h, hh, hid⟩
      exact ⟨h, hf.mem_bind hh hid⟩
    · rintro ⟨h, hh⟩
      exact ⟨h, by simp [hh], (hf.bind_hooks h (hf.shown_subset hh)).2⟩
  -- and the filesystem hook needs all of its own.
  by_cases hfilesystem : id = .filesystemIfacePaths
  · subst hfilesystem
    rw [RunningKernel.Served]
    constructor
    · rintro ⟨h, hh, hid⟩ h' hh'
      have hfs := hf.mem_filesystem (hsub h hh) hid
      obtain rfl | ⟨heq, -⟩ := hf.group
      · cases hfs
      · exact (hf.filesystem_wraps hh').2 heq
    · intro hall
      obtain ⟨h, hh⟩ : ∃ h, h ∈ filesystemHooks k := ⟨_, List.mem_cons_self⟩
      have heq := (hf.filesystem_wraps hh).1 (hall h hh)
      exact ⟨h, by simp [heq, hh], (known_filesystemHooks k h hh).2⟩
  · have hserved : k.Served off m.registrations.val id ↔
        ∃ h ∈ plainHooks off, h.id = id ∧ k.Wraps m.registrations.val h := by
      cases id <;> first | rfl | contradiction
    rw [hserved]
    constructor
    · rintro ⟨h, hh, rfl⟩
      have hp := hf.mem_plain (hsub h hh) hbind hfilesystem
      exact ⟨h, hf.sublist.subset hp, rfl, hf.holding.wraps_of_mem (hsub h hh)⟩
    · rintro ⟨h, hh, rfl, hw⟩
      obtain ⟨h', hh', hid, -⟩ := hf.exists_of_wraps hw (plain_plainHooks off h hh).known
      have hp := hf.mem_plain hh' (hid ▸ hbind) (hid ▸ hfilesystem)
      exact ⟨h', by simp [hp], hid⟩

/-- Every bit of the status is of a hook that is expected on this kernel. -/
theorem expected {i : ℕ} (hi : Bit m.installedHooks i) : Bit (expectedHooks k m) i := by
  obtain ⟨h, hh, rfl⟩ := (hf.holding.bits i).1 hi
  rw [bit_expectedHooks, hf.holding.requested]
  obtain hp | hb | hfs : h ∈ plain ∨ h ∈ shown ∨ h ∈ fs := by simpa using hh
  · have hplain := hf.plain_hooks h hp
    exact .inl ⟨hplain.expected, fun _ heq => hplain.not_bind (id_injective heq)⟩
  · have hid := (hf.bind_hooks h (hf.shown_subset hb)).2
    have hrequired := hf.bound.required (List.ne_nil_of_mem (hf.shown_subset hb))
    rw [hrequired, hid]
    exact .inl ⟨by unfold Bit; decide, nofun⟩
  · obtain hnil | ⟨-, hrequested⟩ := hf.group
    · rw [hnil] at hfs
      cases hfs
    · rw [(hf.filesystem_hooks h hfs).2]
      exact .inr ⟨hrequested, by unfold Bit; decide⟩

/-- There are at most 18 registrations. -/
theorem length_le : m.registrations.val.length ≤ 18 := by
  have hplain := hf.sublist.length_le.trans (length_plainHooks off)
  have hbind := hf.bound.length_le
  have hfs : fs.length ≤ 4 := by
    obtain rfl | ⟨rfl, -⟩ := hf.group
    · exact Nat.zero_le 4
    · exact Nat.le_refl 4
  rw [hf.holding.length, List.length_append, List.length_append]
  omega

/-- The hooks of the file system are wrapped together or not at all. -/
theorem together : (∀ h ∈ filesystemHooks k, k.Wraps m.registrations.val h) ∨
    ∀ h ∈ filesystemHooks k, ¬k.Wraps m.registrations.val h := by
  by_cases hfs : fs = filesystemHooks k
  · exact .inl fun h hh => (hf.filesystem_wraps hh).2 hfs
  · exact .inr fun h hh hw => hfs ((hf.filesystem_wraps hh).1 hw)

/-- No other bits are expected than those of hooks. -/
theorem status : m.installedHooks = expectedHooks k m ↔
    ∀ id : HookId, Bit (expectedHooks k m) id.id → k.Served off m.registrations.val id := by
  constructor
  · intro heq id hid
    rw [← heq] at hid
    exact (hf.served id).1 hid
  · intro hall
    refine eq_of_bits fun i => ⟨hf.expected, fun hi => ?_⟩
    have hany : Bit (kernelHookMask ||| kpmHookMask) i := by
      rw [bit_or]
      exact (bit_expectedHooks.1 hi).imp And.left And.right
    obtain ⟨id, rfl⟩ := exists_id_of_bit hany
    exact (hf.served id).2 (hall id hi)

/-- After a load everything is settled. -/
theorem settled : Settled k off others { m with
    lastError :=
      if m.installedHooks = expectedHooks k m then vpnhideErrOk else vpnhideErrPartialHooks } where
  wrapped := hf.holding.wrapped
  room := hf.length_le
  served := hf.served
  together := hf.together
  status := by
    refine Iff.trans ?_ hf.status
    dsimp only
    split_ifs with h
    · exact iff_of_true rfl h
    · exact iff_of_false (by decide) h

end Filled

/-- Installing all hooks settles everything. -/
theorem settled_installHooks (k : RunningKernel) (off : Offsets) (hregs : m.registrations.val = [])
    (hhooks : m.installedHooks = 0) : Settled k off m.wrapped (installHooks k off m) := by
  have hstart : Holding k m.wrapped m.filesystemHidingRequested [] [] m :=
    ⟨by rw [hregs]; rfl, by rw [hregs]; rfl, fun i => by simp [hhooks, not_bit_zero], rfl⟩
  obtain ⟨plain, hsub, hplain⟩ := hstart.foldl (plainHooks off)
  rw [List.nil_append] at hplain
  have hid := fun h hh => plain_plainHooks off h (hsub.subset hh)
  obtain ⟨bind, shown, hbound, hbind⟩ :=
    @Holding.socketBind _ _ _ _ _ off hplain fun h hh => (hid h hh).not_bind
  change Holding _ _ _ _ _ (installSocketBindHooks k off (installPlainHooks k off m)) at hbind
  have hnone : Filled k off m.wrapped m.filesystemHidingRequested plain bind shown [] _ :=
    ⟨hsub, hbound, .inl rfl, by rw [List.append_nil, List.append_nil]; exact hbind⟩
  have hlit : ∀ h ∈ plain ++ shown, h.id ≠ .filesystemIfacePaths := by
    intro h hh
    obtain hp | hb := List.mem_append.1 hh
    · exact (hid h hp).not_filesystem
    · rw [hbound.id_eq h (hnone.shown_subset hb)]
      nofun
  have hfilled : ∃ fs, Filled k off m.wrapped m.filesystemHidingRequested plain bind shown fs
      (if (installSocketBindHooks k off (installPlainHooks k off m)).filesystemHidingRequested then
        (installFilesystemHooks k (installSocketBindHooks k off (installPlainHooks k off m))).2
      else installSocketBindHooks k off (installPlainHooks k off m)) := by
    rw [hbind.requested]
    split_ifs with hrequested
    · obtain ⟨fs, hfs, hall⟩ := hbind.filesystem hlit
      exact ⟨fs, hsub, hbound, hfs.imp_right fun h => ⟨h, hrequested⟩, hall⟩
    · exact ⟨[], hnone⟩
  obtain ⟨fs, hfs⟩ := hfilled
  exact hfs.settled

end Settle

/-- Between two events: unloaded, nothing of the module is left in the kernel. -/
structure Sound (others : List Registration) (l : Loaded) : Prop where
  unloaded : l.kernel = none → l.module.wrapped = others
  loaded : ∀ k, l.kernel = some k → ∃ off, k.off = some off ∧ Settled k off others l.module

section Runs

variable {others : List Registration} {l : Loaded}

/-- Reading the arguments touches no registration. -/
theorem readArgs_spec (args : Bytes) (m : Module) :
    (readArgs args m).2.registrations = m.registrations ∧
    (readArgs args m).2.installedHooks = m.installedHooks ∧
    (readArgs args m).2.wrapped = m.wrapped := by
  rw [readArgs]
  dsimp only
  split_ifs <;> exact ⟨rfl, rfl, rfl⟩

/-- What a load does. -/
theorem vpnhideKpmInit_spec (k : RunningKernel) (args : Bytes) (m : Module) :
    ((vpnhideKpmInit k args m).1 ≠ 0 ∧ (vpnhideKpmInit k args m).2.wrapped = m.wrapped) ∨
      ((vpnhideKpmInit k args m).1 = 0 ∧ ∃ off, k.off = some off ∧
        Settled k off m.wrapped (vpnhideKpmInit k args m).2) := by
  obtain ⟨hregs, hhooks, hwrapped⟩ := readArgs_spec args (reset m)
  rw [vpnhideKpmInit]
  cases hoff : k.off with
  | none => exact .inl ⟨by simp, rfl⟩
  | some off =>
    dsimp only
    split_ifs with hsymbols hread
    · exact .inl ⟨by simp, rfl⟩
    · exact .inl ⟨by simp, hwrapped⟩
    · refine .inr ⟨rfl, off, rfl, ?_⟩
      have hsettled := settled_installHooks k off (congrArg Subtype.val hregs) hhooks
      rwa [hwrapped] at hsettled

/-- Every event keeps the invariant. -/
theorem Sound.step (hl : Sound others l) (e : Event) : Sound others (step l e) := by
  -- Without a module only a load does anything.
  cases hkernel : l.kernel with
  | none =>
    have hothers := hl.unloaded hkernel
    cases e with
    | load k args =>
      rw [Kpm.step, hkernel]
      dsimp only
      obtain ⟨hret, hwrapped⟩ | ⟨hret, off, hoff, hsettled⟩ := vpnhideKpmInit_spec k args l.module
      · rw [if_neg hret]
        exact ⟨fun _ => hwrapped.trans hothers, nofun⟩
      · rw [if_pos hret, ← hothers]
        refine ⟨nofun, fun k' hk' => ?_⟩
        obtain rfl := Option.some.inj hk'
        exact ⟨off, hoff, hsettled⟩
    | ctl0 args => rwa [Kpm.step, hkernel]
    | unload => rwa [Kpm.step, hkernel]
  | some k =>
    obtain ⟨off, hoff, hsettled⟩ := hl.loaded k hkernel
    cases e with
    | load k' args => rwa [Kpm.step, hkernel]
    | ctl0 args =>
      have hctl0 : Settled k off others (vpnhideKpmCtl0 args l.module) := by
        rw [vpnhideKpmCtl0]
        split_ifs
        · exact ⟨hsettled.wrapped, hsettled.room, hsettled.served,
            hsettled.together, hsettled.status⟩
        · exact hsettled
      have hstep : Kpm.step l (.ctl0 args) = ⟨some k, vpnhideKpmCtl0 args l.module⟩ := by
        simp [Kpm.step, hkernel]
      rw [hstep]
      refine ⟨nofun, fun k' hk' => ?_⟩
      obtain rfl := Option.some.inj hk'
      exact ⟨off, hoff, hctl0⟩
    | unload =>
      have hgone := unwrapped_rollback hsettled.wrapped (Nat.zero_le _)
      rw [Kpm.step, hkernel]
      exact ⟨fun _ => hgone.wrapped, nofun⟩

end Runs

/-- In every run of loads, commands and unloads: unloaded, the module has left nothing in the
    kernel; loaded, exactly its registrations are wrapped, the table of which never fills up, and
    the status shows a hook if and only if it is served. -/
theorem kpm_lifecycle (m : Module) (events : List Event) :
    Sound m.wrapped (events.foldl step ⟨none, m⟩) := by
  -- By induction on the events, for any other registrations and any module that has been loaded.
  suffices h : ∀ (others : List Registration) (l : Loaded), Sound others l →
    Sound others (events.foldl step l) from h m.wrapped ⟨none, m⟩ ⟨fun _ => rfl, nofun⟩
  induction events with
  | nil => exact fun others l hl => hl
  | cons e events ih => exact fun others l hl => ih others _ (hl.step e)

end VpnHide.Kpm

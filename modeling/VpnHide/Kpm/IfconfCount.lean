import VpnHide.Kpm.Rules
import VpnHide.Lib.Loop
import VpnHide.Lib.Memory

/-!
# Counting the addresses

A caller that asks `SIOCGIFCONF` for the length only gets the one for all addresses. To know how
many of them belong to a VPN, the KPM walks the lists of the kernel itself
(`kmod/kpm/ifconf_count.h`): the devices of the namespace of the socket, and the addresses of each.
It does not know the layout, but has candidates, and what it reads may be anything.

Whatever the memory holds, the walk ends (`ifconfWalk_ends`), after no more than 4096 objects
(`objects_le`). Where a candidate is the layout of a list, the walk counts its addresses
(`DeviceList.ifconfWalk_eq`).
-/

namespace VpnHide.Kpm

open Lib Zygisk

/-- A layout of the structures that are walked. -/
structure VpnhideIfconfOffsets where
  netDevBaseHead : UInt32
  netdevDevList : UInt32
  netdevIpPtr : UInt32
  inDeviceIfaList : UInt32
  inIfaddrNext : UInt32
  inIfaddrLabel : UInt32
  sockFromFileArgs : UInt32

/-- What is the same in all candidates. -/
structure VpnhideOffsets where
  inDeviceDev : UInt32
  inIfaddrIfaDev : UInt32
  socketSk : UInt32
  sockNet : UInt32

/-- The memory of the kernel, the candidates that have been selected for its version, and the
    functions that have been found in it. `sock_from_file` returns a socket, and stores an error
    if it is given a place for one. -/
structure Kernel where
  memory : Memory UInt8
  off : VpnhideOffsets
  ifconfOffsets : List VpnhideIfconfOffsets
  ifconfSockFromFile : Option (UInt64 → UInt64 × ℤ)
  ifconfRtnlLock : Bool
  ifconfRtnlUnlock : Bool
  ifconfKernelRead : Bool
  copyFromUser : Bool
  copyToUser : Bool

/-- `PTR_IS_KERNEL`: the upper bits of a pointer. -/
def ptrIsKernel (p : UInt64) : Bool := p >>> 48 == 0xffff

/-- No more objects are looked at than these. -/
def vpnhideIfconfMaxObjects : ℕ := 4096

/-- `sizeof(struct ifreq)`. -/
def vpnhideIfreqSz : ℕ := 40

/-! ## The walk -/

/-- Where a walk is: at a device, or at an address of one. -/
inductive Cursor
  | device (node : UInt64)
  | address (next inDev ifa : UInt64)
  deriving DecidableEq

/-- Where the walk is, and what it has counted. -/
structure Walk where
  cursor : Cursor
  objects : ℕ
  count : ℕ
  hidden : ℕ
  deriving DecidableEq

section Walk

variable (k : Kernel) (o : VpnhideIfconfOffsets)

/-- A pointer in kernel memory. -/
def ifconfReadPtr (src : UInt64) : Option UInt64 :=
  if ptrIsKernel src then (k.memory.read src 8).map fun l => (fromLeBytes l).toUInt64 else none

/-- What is read of a device: where the walk goes on. -/
def visitDevice (node : UInt64) : Option Cursor :=
  let dev := node - o.netdevDevList.toUInt64
  do
    let next ← ifconfReadPtr k node
    let prev ← ifconfReadPtr k (next + 8)
    if prev ≠ node then none
    else do
      let inDev ← ifconfReadPtr k (dev + o.netdevIpPtr.toUInt64)
      if inDev = 0 then some (.device next)
      else do
        let devCheck ← ifconfReadPtr k (inDev + k.off.inDeviceDev.toUInt64)
        if devCheck ≠ dev then none
        else do
          let ifa ← ifconfReadPtr k (inDev + o.inDeviceIfaList.toUInt64)
          some (.address next inDev ifa)

/-- What is read of an address: the next one, and its label. -/
def visitAddress (inDev ifa : UInt64) : Option (UInt64 × Bytes) := do
  let owner ← ifconfReadPtr k (ifa + k.off.inIfaddrIfaDev.toUInt64)
  if owner ≠ inDev then none
  else do
    let label ← k.memory.read (ifa + o.inIfaddrLabel.toUInt64) vpnhideIfnamsiz
    let ifa ← ifconfReadPtr k (ifa + o.inIfaddrNext.toUInt64)
    some (ifa, label)

/-- An iteration of the loops. The result is how many names are hidden, if all has been counted. -/
def ifconfStep (head : UInt64) (expected : ℕ) (s : Walk) : Flow Walk (Option ℕ) :=
  match s.cursor with
  | .device node =>
    if node = head then .done (if s.count = expected then some s.hidden else none)
    else if !ptrIsKernel node then .done none
    else if vpnhideIfconfMaxObjects < s.objects + 1 then .done none
    else
      match visitDevice k o node with
      | none => .done none
      | some cursor => .next { s with cursor := cursor, objects := s.objects + 1 }
  | .address next inDev ifa =>
    if ifa = 0 then .next { s with cursor := .device next }
    else if vpnhideIfconfMaxObjects < s.objects + 1 then .done none
    else
      match visitAddress k o inDev ifa with
      | none => .done none
      | some (ifa, label) =>
        if 0 ∉ label then .done none
        else if expected < s.count + 1 then .done none
        else
          .next {
            cursor := .address next inDev ifa
            objects := s.objects + 1
            count := s.count + 1
            hidden := if ifaceIsVpn label then s.hidden + 1 else s.hidden }

/-- Iterations that are enough for every walk: a device has one more than addresses. -/
def ifconfIterations : ℕ := 2 * vpnhideIfconfMaxObjects + 1

/-- The walk over all devices of a network and their addresses. -/
def ifconfWalk (net : UInt64) (expected : ℕ) : Flow Walk (Option ℕ) :=
  let head := net + o.netDevBaseHead.toUInt64
  match ifconfReadPtr k head with
  | none => .done none
  | some node => iterate (ifconfStep k o head expected) ifconfIterations ⟨.device node, 0, 0, 0⟩

end Walk

/-! ## The length -/

section Project

variable (k : Kernel)

/-- The namespace of the socket of a file, by the number of arguments that the function takes. -/
def socketNet (o : VpnhideIfconfOffsets) (file : UInt64) : Option UInt64 := do
  let sockFromFile ← k.ifconfSockFromFile
  let (socket, error) ←
    if o.sockFromFileArgs = 1 then some ((sockFromFile file).1, 0)
    else if o.sockFromFileArgs = 2 then some (sockFromFile file)
    else none
  if error ≠ 0 || !ptrIsKernel socket then none
  else do
    let sk ← ifconfReadPtr k (socket + k.off.socketSk.toUInt64)
    if !ptrIsKernel sk then none
    else do
      let net ← ifconfReadPtr k (sk + k.off.sockNet.toUInt64)
      if !ptrIsKernel net then none else some net

/-- A candidate is tried: how many have matched, and what the last one of them has counted. -/
def tryOffsets (net : UInt64) (expected : ℕ) (s : ℕ × ℕ) (o : VpnhideIfconfOffsets) : ℕ × ℕ :=
  match ifconfWalk k o net expected with
  | .done (some hidden) => (s.1 + 1, hidden)
  | _ => s

/-- `ifconf_project_length`: the length without what is hidden. -/
def ifconfProjectLength (file : UInt64) (original : ℤ) : Option ℤ :=
  match k.ifconfOffsets with
  | [] => none
  | o :: _ =>
    if !k.ifconfRtnlLock || !k.ifconfRtnlUnlock || !k.ifconfKernelRead || original ≤ 0 ||
        original % vpnhideIfreqSz ≠ 0 || !ptrIsKernel file then none
    else do
      let net ← socketNet k o file
      let (matched, hidden) :=
        k.ifconfOffsets.foldl (tryOffsets k net (original / vpnhideIfreqSz).toNat) (0, 0)
      if matched ≠ 1 || hidden = 0 then none else some (original - hidden * vpnhideIfreqSz)

end Project

/-! ## Every walk ends -/

section Ends

variable {k : Kernel} {o : VpnhideIfconfOffsets} {head : UInt64} {expected : ℕ} {s s' : Walk}

/-- The state of every walk: it has seen no more than 4096 objects, among them the addresses it
    counts, and among these the hidden ones. -/
structure Bounded (expected : ℕ) (s : Walk) : Prop where
  objects : s.objects ≤ vpnhideIfconfMaxObjects
  count : s.count ≤ s.objects
  expected : s.count ≤ expected
  hidden : s.hidden ≤ s.count

/-- How far a walk can still go. -/
def Walk.rank (s : Walk) : ℕ :=
  2 * (vpnhideIfconfMaxObjects - s.objects) + match s.cursor
    with | .device _ => 0 | .address .. => 1

/-- The walk starts within its bounds. -/
theorem bounded_start (node : UInt64) : Bounded expected ⟨.device node, 0, 0, 0⟩ :=
  ⟨Nat.zero_le _, le_rfl, Nat.zero_le _, le_rfl⟩

/-- An iteration ends the walk, with no more than what is expected, or takes it on. -/
theorem ifconfStep_spec (hs : Bounded expected s) :
    (∃ r, ifconfStep k o head expected s = .done r ∧ ∀ h ∈ r, h ≤ expected) ∨
      ∃ s', ifconfStep k o head expected s = .next s' ∧ Bounded expected s' ∧ s'.rank < s.rank := by
  obtain ⟨hobjects, hcount, hexpected, hhidden⟩ := hs
  have hnone : ∀ h ∈ (none : Option ℕ), h ≤ expected := nofun
  obtain ⟨cursor, objects, count, hidden⟩ := s
  dsimp only at hobjects hcount hexpected hhidden
  unfold ifconfStep Walk.rank
  -- By the cursor, at a device or at an address of one; the rank falls as the objects are counted.
  cases cursor with
  | device node =>
    dsimp only
    split_ifs with hhead hfull hkernel hmax
    · exact .inl ⟨_, rfl, fun h hh => by cases hh; exact hhidden.trans hexpected⟩
    · exact .inl ⟨_, rfl, hnone⟩
    · exact .inl ⟨_, rfl, hnone⟩
    · exact .inl ⟨_, rfl, hnone⟩
    · cases visitDevice k o node with
      | none => exact .inl ⟨_, rfl, hnone⟩
      | some cursor =>
        have hroom : objects + 1 ≤ vpnhideIfconfMaxObjects := not_lt.1 hmax
        refine .inr ⟨_, rfl, ⟨hroom, hcount.trans (Nat.le_succ _), hexpected, hhidden⟩, ?_⟩
        cases cursor <;> dsimp only <;> omega
  | address next inDev ifa =>
    dsimp only
    by_cases hifa : ifa = 0
    · rw [if_pos hifa]
      exact .inr ⟨_, rfl, ⟨hobjects, hcount, hexpected, hhidden⟩, Nat.lt_succ_self _⟩
    · rw [if_neg hifa]
      by_cases hmax : vpnhideIfconfMaxObjects < objects + 1
      · rw [if_pos hmax]
        exact .inl ⟨_, rfl, hnone⟩
      · rw [if_neg hmax]
        rcases visitAddress k o inDev ifa with - | ⟨ifa, label⟩
        · exact .inl ⟨_, rfl, hnone⟩
        · dsimp only
          by_cases hterminated : 0 ∉ label
          · rw [if_pos hterminated]
            exact .inl ⟨_, rfl, hnone⟩
          · rw [if_neg hterminated]
            by_cases hmore : expected < count + 1
            · rw [if_pos hmore]
              exact .inl ⟨_, rfl, hnone⟩
            · rw [if_neg hmore]
              -- A label is counted once, hidden or not.
              have hcounted : (if ifaceIsVpn label then hidden + 1 else hidden) ≤ count + 1 := by
                split_ifs <;> omega
              exact .inr ⟨_, rfl,
                ⟨not_lt.1 hmax, Nat.succ_le_succ hcount, not_lt.1 hmore, hcounted⟩,
                by dsimp only; omega⟩

/-- A walk sees no more than 4096 objects. -/
theorem objects_le {node : UInt64}
    (h : Reaches (ifconfStep k o head expected) ⟨.device node, 0, 0, 0⟩ s) :
    s.objects ≤ vpnhideIfconfMaxObjects := by
  refine (@Reaches.invariant _ _ _ (Bounded expected) _ _ (fun s s' hs hnext => ?_)
    (bounded_start node) h).objects
  obtain ⟨r, hdone, -⟩ | ⟨t, hstep, ht, -⟩ := @ifconfStep_spec k o head _ _ hs
  · rw [hdone] at hnext
    cases hnext
  · rw [hstep] at hnext
    cases hnext
    exact ht

/-- Whatever the memory holds, the walk ends, and counts no more than what is expected. -/
theorem ifconfWalk_ends (k : Kernel) (o : VpnhideIfconfOffsets) (net : UInt64) (expected : ℕ) :
    ∃ r, ifconfWalk k o net expected = .done r ∧ ∀ h ∈ r, h ≤ expected := by
  unfold ifconfWalk
  dsimp only
  cases ifconfReadPtr k (net + o.netDevBaseHead.toUInt64) with
  | none => exact ⟨none, rfl, nofun⟩
  | some node =>
    dsimp only
    refine @iterate_done _ _ _ (Bounded expected) (fun _ r => ∀ h ∈ r, h ≤ expected)
      Walk.rank (fun s hs => ?_)
      ifconfIterations _ (bounded_start node) (Nat.lt_succ_self _)
    obtain h | ⟨s', hnext, hs', hlower⟩ :=
      @ifconfStep_spec k o (net + o.netDevBaseHead.toUInt64) _ _ hs
    · exact .inl h
    · exact .inr ⟨s', hnext, hs', hlower, fun r hr => hr⟩

end Ends

/-! ## Lists -/

section Lists

variable (k : Kernel) (o : VpnhideIfconfOffsets)

/-- A pointer of the kernel, and what is stored there. -/
abbrev Stores (src value : UInt64) : Prop := ifconfReadPtr k src = some value

/-- The addresses from `ifa` on, by their labels: all of them belong to `inDev`. -/
inductive AddressChain (inDev : UInt64) : UInt64 → List Bytes → Prop
  | nil : AddressChain inDev 0 []
  | cons {ifa next : UInt64} {label : Bytes} {labels : List Bytes} :
    ifa ≠ 0 →
    Stores k (ifa + k.off.inIfaddrIfaDev.toUInt64) inDev →
    k.memory.read (ifa + o.inIfaddrLabel.toUInt64) vpnhideIfnamsiz = some label →
    0 ∈ label →
    Stores k (ifa + o.inIfaddrNext.toUInt64) next →
    AddressChain inDev next labels →
    AddressChain inDev ifa (label :: labels)

/-- The addresses of a device: it may have no `in_device`. -/
inductive InDevice (dev : UInt64) : List Bytes → Prop
  | bare : Stores k (dev + o.netdevIpPtr.toUInt64) 0 → InDevice dev []
  | owned {inDev ifa : UInt64} {labels : List Bytes} :
    Stores k (dev + o.netdevIpPtr.toUInt64) inDev →
    inDev ≠ 0 →
    Stores k (inDev + k.off.inDeviceDev.toUInt64) dev →
    Stores k (inDev + o.inDeviceIfaList.toUInt64) ifa →
    AddressChain k o inDev ifa labels →
    InDevice dev labels

/-- The devices from `node` on, each with its addresses: a list that ends at its head, and of which
    every entry is what the next one points back to. -/
inductive Devices (head : UInt64) : UInt64 → List (List Bytes) → Prop
  | nil : Devices head head []
  | cons {node next : UInt64} {labels : List Bytes} {devices : List (List Bytes)} :
    node ≠ head →
    Stores k node next →
    Stores k (next + 8) node →
    InDevice k o (node - o.netdevDevList.toUInt64) labels →
    Devices head next devices →
    Devices head node (labels :: devices)

/-- The devices of a namespace: no more, with their addresses, than are walked. -/
structure DeviceList (net : UInt64) (devices : List (List Bytes)) : Prop where
  stored : ∃ node, Stores k (net + o.netDevBaseHead.toUInt64) node ∧
    Devices k o (net + o.netDevBaseHead.toUInt64) node devices
  size : devices.length + devices.flatten.length ≤ vpnhideIfconfMaxObjects

variable {k o} {head : UInt64} {expected : ℕ} {r : Option ℕ}

/-- What is stored is at a pointer into the kernel. -/
theorem Stores.ptrIsKernel {src value : UInt64} (h : Stores k src value) :
    ptrIsKernel src = true := by
  by_contra hkernel
  rw [Stores, ifconfReadPtr, if_neg hkernel] at h
  cases h

/-- How many of some labels are hidden. -/
def hiddenLabels (labels : List Bytes) : ℕ := labels.countP ifaceIsVpn

/-- The walk over the addresses of a device counts them, and goes on with the next device. -/
theorem AddressChain.ends {inDev ifa : UInt64} {labels : List Bytes}
    (h : AddressChain k o inDev ifa labels) :
    ∀ {next : UInt64} {objects count hidden : ℕ}, objects + labels.length ≤
      vpnhideIfconfMaxObjects → count + labels.length ≤ expected →
      Ends (ifconfStep k o head expected)
        ⟨.device next, objects + labels.length, count + labels.length, hidden + hiddenLabels labels⟩
          r →
      Ends (ifconfStep k o head expected) ⟨.address next inDev ifa, objects, count, hidden⟩ r := by
  induction h with
  | nil => exact fun _ _ hr => .of_next rfl hr
  | @cons ifa following label labels hne howner hlabel hnul hfollowing hrest ih =>
    intro next objects count hidden hobjects hcount hr
    rw [List.length_cons] at hobjects hcount
    have hvisit : visitAddress k o inDev ifa = some (following, label) := by
      simp only [visitAddress, howner, hlabel, hfollowing, Option.bind_eq_bind, Option.bind_some,
        ne_eq, not_true_eq_false, if_false]
    have hstep : ifconfStep k o head expected ⟨.address next inDev ifa, objects, count, hidden⟩ =
        .next ⟨.address next inDev following, objects + 1, count + 1,
          if ifaceIsVpn label then hidden + 1 else hidden⟩ := by
      unfold ifconfStep
      dsimp only
      rw [if_neg hne, if_neg (by omega), hvisit]
      dsimp only
      rw [if_neg (not_not.2 hnul), if_neg (by omega)]
    have hhidden : (if ifaceIsVpn label then hidden + 1 else hidden) + hiddenLabels labels =
        hidden + hiddenLabels (label :: labels) := by
      rw [hiddenLabels, hiddenLabels, List.countP_cons]
      split_ifs <;> omega
    refine .of_next hstep (ih (by omega) (by omega) ?_)
    rw [hhidden, Nat.add_right_comm, Nat.add_right_comm count]
    exact hr

/-- The walk over a device, and its addresses. -/
theorem InDevice.ends {node next : UInt64} {labels : List Bytes} {objects count hidden : ℕ}
    (h : InDevice k o (node - o.netdevDevList.toUInt64) labels) (hhead : node ≠ head)
    (hnext : Stores k node next)
    (hprev : Stores k (next + 8) node)
    (hobjects : objects + 1 + labels.length ≤ vpnhideIfconfMaxObjects)
    (hcount : count + labels.length ≤ expected)
    (hr : Ends (ifconfStep k o head expected)
      ⟨.device next, objects + 1 + labels.length, count + labels.length,
        hidden + hiddenLabels labels⟩ r) :
    Ends (ifconfStep k o head expected) ⟨.device node, objects, count, hidden⟩ r := by
  have hstep : ∀ cursor, visitDevice k o node = some cursor →
      ifconfStep k o head expected ⟨.device node, objects, count, hidden⟩ =
        .next ⟨cursor, objects + 1, count, hidden⟩ := by
    intro cursor hvisit
    unfold ifconfStep
    dsimp only
    rw [if_neg hhead, hnext.ptrIsKernel, if_neg (by decide), if_neg (by omega), hvisit]
  cases h with
  | bare hip =>
    refine .of_next (hstep (.device next) ?_) hr
    simp only [visitDevice, hnext, hprev, hip, Option.bind_eq_bind, Option.bind_some, ne_eq,
      not_true_eq_false, if_false, if_true]
  | owned hip hne hdev hlist hchain =>
    refine .of_next (hstep (.address next _ _) ?_) (hchain.ends hobjects hcount hr)
    simp only [visitDevice, hnext, hprev, hip, hne, hdev, hlist, Option.bind_eq_bind,
      Option.bind_some, ne_eq, not_true_eq_false, if_false]

/-- The walk over all devices. -/
theorem Devices.ends {node : UInt64} {devices : List (List Bytes)}
    (h : Devices k o head node devices) :
    ∀ {objects count hidden : ℕ}, objects + (devices.length + devices.flatten.length) ≤
      vpnhideIfconfMaxObjects → count + devices.flatten.length = expected →
      Ends (ifconfStep k o head expected) ⟨.device node, objects, count, hidden⟩
        (some (hidden + hiddenLabels devices.flatten)) := by
  induction h with
  | nil =>
    intro objects count hidden _ hcount
    refine .of_done ?_
    unfold ifconfStep
    dsimp only
    rw [if_pos rfl, if_pos (show count = expected from hcount)]
    rfl
  | @cons node next labels devices hhead hnext hprev haddresses hrest ih =>
    intro objects count hidden hobjects hcount
    rw [List.flatten_cons, List.length_append] at hcount
    rw [List.flatten_cons, List.length_append, List.length_cons] at hobjects
    have hhidden : hidden + hiddenLabels (labels :: devices).flatten =
        hidden + hiddenLabels labels + hiddenLabels devices.flatten := by
      rw [List.flatten_cons, hiddenLabels, List.countP_append, Nat.add_assoc]
      rfl
    rw [hhidden]
    exact haddresses.ends hhead hnext hprev (by omega) (by omega) (ih (by omega) (by omega))

/-- The walk over a list counts the labels that are hidden. -/
theorem DeviceList.ifconfWalk_eq {net : UInt64} {devices : List (List Bytes)}
    (h : DeviceList k o net devices) :
    ifconfWalk k o net devices.flatten.length = .done (some (hiddenLabels devices.flatten)) := by
  obtain ⟨⟨node, hnode, hdevices⟩, hsize⟩ := h
  have hends :=
    @Devices.ends k o _ devices.flatten.length _ _ hdevices 0 0 0 (by omega) (Nat.zero_add _)
  obtain ⟨r, hr, -⟩ := ifconfWalk_ends k o net devices.flatten.length
  have hrun : ifconfWalk k o net devices.flatten.length =
      iterate (ifconfStep k o (net + o.netDevBaseHead.toUInt64) devices.flatten.length)
        ifconfIterations ⟨.device node, 0, 0, 0⟩ := by
    unfold ifconfWalk
    dsimp only
    rw [hnode]
  rw [Nat.zero_add] at hends
  rw [hr, hends.eq (hrun.symm.trans hr)]

end Lists

/-! ## The projected length -/

section Projected

variable {k : Kernel} {net : UInt64} {expected : ℕ}

/-- What the walk of a candidate counts, if it matches. -/
def walked (k : Kernel) (net : UInt64) (expected : ℕ) (o : VpnhideIfconfOffsets) : Option ℕ :=
  (ifconfWalk k o net expected).result?.join

/-- Offsets are tried by a walk. -/
theorem tryOffsets_eq (s : ℕ × ℕ) (o : VpnhideIfconfOffsets) :
    tryOffsets k net expected s o = (walked k net expected o).elim s fun hidden =>
      (s.1 + 1, hidden) := by
  rw [tryOffsets, walked]
  rcases ifconfWalk k o net expected with s' | (- | hidden) | - <;> rfl

/-- All candidates are tried: how many match, and what the last one of them counts. -/
theorem foldl_tryOffsets (os : List VpnhideIfconfOffsets) (s : ℕ × ℕ) :
    os.foldl (tryOffsets k net expected) s =
      (s.1 + (os.filterMap (walked k net expected)).length,
        ((os.filterMap (walked k net expected)).getLast?).getD s.2) := by
  induction os generalizing s with
  | nil => rfl
  | cons o os ih =>
    rw [List.foldl_cons, ih, tryOffsets_eq, List.filterMap_cons]
    cases walked k net expected o with
    | none => rfl
    | some hidden =>
      rw [Option.elim_some, List.length_cons, List.getLast?_cons]
      refine Prod.ext ?_ rfl
      dsimp only
      omega

/-- A walk hides no more than there are. -/
theorem walked_le {o : VpnhideIfconfOffsets} {h : ℕ} (hwalk : walked k net expected o = some h) :
    h ≤ expected := by
  obtain ⟨r, hr, hle⟩ := ifconfWalk_ends k o net expected
  rw [walked, hr] at hwalk
  exact hle h hwalk

/-- If one candidate matches, the length is shortened by what it counts. -/
theorem ifconfProjectLength_eq {file : UInt64} {n h : ℕ} (hn : 0 < n) {o : VpnhideIfconfOffsets}
    {os : List VpnhideIfconfOffsets} (hos : k.ifconfOffsets = o :: os)
    (hlock : k.ifconfRtnlLock = true)
    (hunlock : k.ifconfRtnlUnlock = true) (hread : k.ifconfKernelRead = true)
    (hfile : ptrIsKernel file = true)
    (hnet : socketNet k o file = some net)
    (hwalked : k.ifconfOffsets.filterMap (walked k net n) = [h]) :
    ifconfProjectLength k file (vpnhideIfreqSz * n : ℕ) =
      if h = 0 then none else some ((vpnhideIfreqSz * n : ℕ) - (h : ℤ) * vpnhideIfreqSz) := by
  have hguard : (!k.ifconfRtnlLock || !k.ifconfRtnlUnlock || !k.ifconfKernelRead ||
      decide (((vpnhideIfreqSz * n : ℕ) : ℤ) ≤ 0) ||
        decide (((vpnhideIfreqSz * n : ℕ) : ℤ) % vpnhideIfreqSz ≠ 0) ||
      !ptrIsKernel file) = false := by
    have hpos : ¬((vpnhideIfreqSz * n : ℕ) : ℤ) ≤ 0 := by
      rw [vpnhideIfreqSz]
      omega
    have hmod : ¬((vpnhideIfreqSz * n : ℕ) : ℤ) % vpnhideIfreqSz ≠ 0 := by
      rw [vpnhideIfreqSz]
      omega
    rw [hlock, hunlock, hread, hfile, decide_eq_false hpos, decide_eq_false hmod]
    rfl
  have hexpected : (((vpnhideIfreqSz * n : ℕ) : ℤ) / vpnhideIfreqSz).toNat = n := by
    rw [vpnhideIfreqSz]
    omega
  unfold ifconfProjectLength
  rw [hos]
  dsimp only
  rw [hguard, if_neg Bool.false_ne_true, hnet, ← hos, hexpected, Option.bind_eq_bind,
    Option.bind_some, foldl_tryOffsets, hwalked]
  by_cases hzero : h = 0
  · rw [if_pos hzero]
    simp [hzero]
  · rw [if_neg hzero]
    simp [hzero]

/-- A projected length lies within the original one. -/
theorem ifconfProjectLength_mem {file : UInt64} {original projected : ℤ}
    (h : ifconfProjectLength k file original = some projected) :
    0 ≤ projected ∧ projected ≤ original := by
  unfold ifconfProjectLength at h
  cases hos : k.ifconfOffsets with
  | nil =>
    rw [hos] at h
    cases h
  | cons o os =>
    rw [hos] at h
    dsimp only at h
    split_ifs at h with hguard
    simp only [Bool.or_eq_true, decide_eq_true_eq, not_or] at hguard
    obtain ⟨net, -, h⟩ := Option.bind_eq_some_iff.1 h
    rw [← hos, foldl_tryOffsets] at h
    dsimp only at h
    split_ifs at h with hmatched
    obtain rfl := Option.some.inj h
    have hle : ((k.ifconfOffsets.filterMap
        (walked k net (original / vpnhideIfreqSz).toNat)).getLast?).getD 0 ≤
        (original / vpnhideIfreqSz).toNat := by
      cases hlast :
          (k.ifconfOffsets.filterMap (walked k net (original / vpnhideIfreqSz).toNat)).getLast? with
      | none => exact Nat.zero_le _
      | some h =>
        obtain ⟨o, -, ho⟩ := List.mem_filterMap.1 (List.mem_of_getLast? hlast)
        exact walked_le ho
    obtain ⟨⟨⟨-, hpos⟩, -⟩, -⟩ := hguard
    rw [vpnhideIfreqSz] at hle ⊢
    omega

end Projected

end VpnHide.Kpm

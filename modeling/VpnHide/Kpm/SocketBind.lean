import VpnHide.Kpm.Install
import VpnHide.Kpm.Rules
import VpnHide.Lib.Copying

/-!
# Binding sockets

An app could bind a socket to a VPN interface, by its name or by its index, and see from the answer
that there is one. The option is in the memory of the app, which may change it while the kernel
looks at it. Hence both the module (`prepare_socket_bind` in `kmod/vpnhide_kmod.c`) and the KPM
(`socket_bind_before_common` in `kmod/kpm/vpnhide_kpm.c`) copy the option once, decide on the copy,
and give the copy to the kernel. What the kernel does then is a program that nothing is known of but
what Linux documents (`Native`).

* `bind_shown`: with the module, the answer and the socket are the same as if there were no VPN
  interfaces, whatever the memory does, unless one of them has an alternative name;
* `socketBind_eq`: the KPM does the same, if its copy succeeds.
-/

namespace VpnHide

open Lib Zygisk

/-! ## The network -/

namespace Kpm

/-- An interface. Since Linux 5.5 it may have other names beside its own. -/
structure NetDevice where
  name : IfName
  altnames : List Bytes
  ifindex : ℤ

/-- It has the name of a VPN interface. -/
def NetDevice.isVpn (d : NetDevice) : Bool := Kmod.vpnhideIfaceIsVpn d.name.bytes

/-- It is looked up by this name. -/
def NetDevice.Named (d : NetDevice) (name : Bytes) : Prop := d.name.bytes = name ∨ name ∈ d.altnames

instance (d : NetDevice) (name : Bytes) : Decidable (d.Named name) :=
  inferInstanceAs (Decidable (_ ∨ _))

/-- The interfaces of a network namespace. -/
structure Net where
  devices : List NetDevice
  indexes : (devices.map (·.ifindex)).Nodup
  positive : ∀ d ∈ devices, 0 < d.ifindex

/-- How an interface is looked up. -/
inductive Lookup
  | byName (name : Bytes)
  | byIndex (ifindex : ℤ)

namespace Net

/-- The kernel's lookup. -/
def find (net : Net) : Lookup → Option NetDevice
  | .byName name => net.devices.find? (·.Named name)
  | .byIndex ifindex => net.devices.find? (·.ifindex = ifindex)

/-- Without the VPN interfaces. -/
def shown (net : Net) : Net where
  devices := net.devices.filter (!·.isVpn)
  indexes := (List.filter_sublist.map _).nodup net.indexes
  positive d hd := net.positive d (List.mem_of_mem_filter hd)

/-- No VPN interface has another name. -/
def Unaliased (net : Net) : Prop := ∀ d ∈ net.devices, d.isVpn = true → d.altnames = []

end Net

/-- A C string. -/
def cString (bytes : Bytes) : Bytes := bytes.takeWhile (· != 0)

/-- An `int`. -/
def intOf (bytes : Bytes) : ℤ := (fromLeBytes bytes).toUInt32.toBitVec.toInt

/-- `SO_BINDTODEVICE`. -/
def soBindtodevice : UInt32 := 25

/-- `SO_BINDTOIFINDEX`. -/
def soBindtoifindex : UInt32 := 62

/-- The option after it has been copied, with zeros behind. -/
def snapshotOf (copied : Bytes) : Bytes :=
  (copied ++ List.replicate vpnhideIfnamsiz 0).take vpnhideIfnamsiz

/-- What the first read gives of a name; an empty one is not read. -/
def nameCopy (memory : Racing) (optval : Source) (optlen : UInt32) : Option Bytes :=
  let n := min optlen.toNat (vpnhideIfnamsiz - 1)
  if n = 0 then some [] else optval.read memory 0 n

/-- What the first read gives of an option that is read. -/
def optionCopy (memory : Racing) (optname : UInt32) (optval : Source) (optlen : UInt32) :
    Option Bytes :=
  if optname = soBindtodevice then nameCopy memory optval optlen else optval.read memory 0 4

/-- `sock_setsockopt` or `sk_setsockopt`, by the option and its length; it sets the index of the
    interface that a socket is bound to. -/
abbrev Setsockopt := UInt32 → UInt32 → Copying Lookup (Option NetDevice) ℤ

/-- What Linux documents: lengths that are too short, or negative, are refused at once; an interface
    is looked up by the name that was copied, or by the index; and the socket is bound to what was
    found, to the index, or to none. -/
structure Native (original : Setsockopt) : Prop where
  nameRefused : ∀ optlen : UInt32, 2 ^ 31 ≤ optlen.toNat →
    ∃ ret, original soBindtodevice optlen = .done ret
  name : ∀ (optlen : UInt32) (bytes : Bytes), optlen.toNat < 2 ^ 31 →
    (original soBindtodevice optlen).Confined bytes
    (· = .byName (cString (bytes.take (min optlen.toNat (vpnhideIfnamsiz - 1)))))
    (fun d ifindex => d.map (·.ifindex) = some ifindex) (· = 0)
  indexRefused : ∀ optlen : UInt32, optlen.toNat < 4 →
    ∃ ret, original soBindtoifindex optlen = .done ret
  index : ∀ (optlen : UInt32) (bytes : Bytes), 4 ≤ optlen.toNat →
    (original soBindtoifindex optlen).Confined bytes (· = .byIndex (intOf (bytes.take 4)))
    (fun d ifindex => d.map (·.ifindex) = some ifindex) (fun ifindex => ifindex = 0 ∨
      ifindex = intOf (bytes.take 4))

end Kpm

/-! ## The module -/

namespace Kmod

open Kpm

/-- `socket_bind_action` -/
inductive SocketBindAction
  | passthrough
  | frozen
  | deny
  | fault

section

variable (resolved hasSk : Bool) (net : Net)

/-- Whether an index is of a VPN interface; it may be unknown. -/
def classifyBindIfindex (ifindex : ℤ) : ℤ :=
  if !hasSk || ifindex ≤ 0 then if ifindex = 0 then 0 else -1
  else if !resolved then -1
  else
    match net.find (.byIndex ifindex) with
    | none => -1
    | some dev => if vpnhideIfaceIsVpn dev.name.bytes then 1 else 0

/-- What to do, and the copy. -/
def prepareSocketBind (active : Bool) (memory : Racing) (optname : UInt32)
    (optval : Source) (optlen : UInt32) :
    SocketBindAction × Bytes :=
  if !active then (.passthrough, [])
  else if optname ≠ soBindtodevice ∧ optname ≠ soBindtoifindex then (.passthrough, [])
  else if optname = soBindtodevice then
    if 2 ^ 31 ≤ optlen.toNat then (.passthrough, [])
    else
      match nameCopy memory optval optlen with
      | none => (.fault, [])
      | some copied =>
        let name := cString (snapshotOf copied)
        if name ≠ [] && vpnhideIfaceIsVpn name then (.deny, snapshotOf copied)
          else (.frozen, snapshotOf copied)
  else if optlen.toNat < 4 then (.passthrough, [])
  else
    match optval.read memory 0 4 with
    | none => (.fault, [])
    | some copied =>
      if 0 < intOf copied && classifyBindIfindex resolved hasSk net (intOf copied) ≠ 0 then
        (.deny, snapshotOf copied)
      else (.frozen, snapshotOf copied)

/-- What the app is answered, and what the socket is bound to. -/
def vpnhideSockSetsockopt (original : Setsockopt) (active : Bool) (memory : Racing)
    (optname : UInt32) (optval : Source) (optlen : UInt32) (bound : ℤ) : ℤ × ℤ :=
  match prepareSocketBind resolved hasSk net active memory optname optval optlen with
  | (.deny, _) => (-19, bound)
  | (.fault, _) => (-14, bound)
  | (.frozen, snapshot) => (original optname optlen).run net.find memory (.frozen snapshot) 1 bound
  | (.passthrough, _) => (original optname optlen).run net.find memory optval 0 bound

end

end Kmod

/-! ## The KPM -/

namespace Kpm

section

variable (resolved hasSk : Bool) (net : Net)

/-- `socket_bind_ifindex_hidden`: an index that is not one of an interface that is shown. -/
def socketBindIfindexHidden (ifindex : ℤ) : Bool :=
  if ifindex ≤ 0 then false
  else if !hasSk || !resolved then true
  else
    match net.find (.byIndex ifindex) with
    | none => true
    | some dev => ifaceIsVpn dev.name.bytes

/-- Where the kernel copies the option from, after the reads that there were; unless the app is
    denied. -/
def socketBindBeforeCommon (kver : ℕ) (active : Bool) (memory : Racing) (optname : UInt32)
    (optval : Source) (optlen : UInt32) : Option (Source × ℕ) :=
  if !active then some (optval, 0)
  else if optname ≠ soBindtodevice ∧ optname ≠ soBindtoifindex then some (optval, 0)
  else if kver < vpnhideKver 5 9 0 then some (optval, 0)
  else if optname = soBindtodevice then
    if 2 ^ 31 ≤ optlen.toNat then some (optval, 0)
    else
      match nameCopy memory optval optlen with
      -- the kernel reads again
      | none => some (optval, 1)
      | some copied =>
        let snapshot := snapshotOf copied
        if cString snapshot ≠ [] && ifaceIsVpn snapshot then none else some (.frozen snapshot, 1)
  else if optlen.toNat < 4 then some (optval, 0)
  else
    match optval.read memory 0 4 with
    | none => some (optval, 1)
    | some copied =>
      if socketBindIfindexHidden resolved hasSk net (intOf copied) then none
        else some (.frozen (snapshotOf copied), 1)

/-- What comes of a call with the KPM. -/
def socketBind (kver : ℕ) (original : Setsockopt) (active : Bool) (memory : Racing)
    (optname : UInt32) (optval : Source) (optlen : UInt32) (bound : ℤ) : ℤ × ℤ :=
  match socketBindBeforeCommon resolved hasSk net kver active memory optname optval optlen with
  | none => (-19, bound)
  | some (source, time) => (original optname optlen).run net.find memory source time bound

end

end Kpm

/-! ## Copies -/

namespace Kpm

/-- The zeros after a copy do not change the string it holds. -/
theorem cString_append_zeros (l : Bytes) (n : ℕ) :
    cString (l ++ List.replicate n 0) = cString l := by
  rw [cString, cString, List.takeWhile_append, List.takeWhile_replicate]
  split_ifs with hall hzero
  · cases hzero
  · rw [List.append_nil, (List.takeWhile_prefix _).eq_of_length hall]
  · rfl

/-- The zeros after a copy do not change the number it holds. -/
theorem fromLeBytes_append_zeros (l : Bytes) (n : ℕ) :
    fromLeBytes (l ++ List.replicate n 0) = fromLeBytes l := by
  have hzeros : fromLeBytes (List.replicate n 0) = 0 := by
    induction n with
    | zero => rfl
    | succ n ih =>
      rw [List.replicate_succ, fromLeBytes, List.foldr_cons, ← fromLeBytes, ih]
      rfl
  rw [fromLeBytes, List.foldr_append, ← fromLeBytes, hzeros]
  rfl

/-- What the kernel copies of a copy is the copy, with zeros behind. -/
theorem take_snapshotOf {copied : Bytes} {n : ℕ} (hcopied : copied.length ≤ n)
    (hn : n ≤ vpnhideIfnamsiz) :
    (snapshotOf copied).take n = copied ++ List.replicate (n - copied.length) 0 := by
  rw [vpnhideIfnamsiz] at hn
  rw [snapshotOf, vpnhideIfnamsiz, List.take_take, Nat.min_eq_left hn, List.take_append,
    List.take_of_length_le hcopied, List.take_replicate, Nat.min_eq_left (by omega)]

/-- The snapshot of a copy holds the string that was copied. -/
theorem cString_snapshotOf {copied : Bytes} (hcopied : copied.length ≤ vpnhideIfnamsiz) :
    cString (snapshotOf copied) = cString copied := by
  have htake := take_snapshotOf hcopied le_rfl
  rw [snapshotOf, List.take_take, Nat.min_self, ← snapshotOf] at htake
  rw [htake, cString_append_zeros]

/-! ## Interfaces that are not shown -/

section Shown

variable {net : Net}

/-- Without the hidden interfaces, a name that is not hidden is looked up as before. -/
theorem Net.find_byName_shown (hnet : net.Unaliased) {name : Bytes}
    (h : Kmod.vpnhideIfaceIsVpn name = false) :
    net.shown.find (.byName name) = net.find (.byName name) := by
  have hnamed : ∀ d ∈ net.devices, d.Named name → d.isVpn = false := by
    rintro d hd (rfl | halt)
    · exact h
    · by_contra hvpn
      rw [hnet d hd (Bool.not_eq_false _ ▸ hvpn)] at halt
      cases halt
  rw [find, find, shown, List.find?_filter]
  generalize net.devices = devices at hnamed
  induction devices with
  | nil => rfl
  | cons d devices ih =>
    have ih' := ih fun d' hd' => hnamed d' (List.mem_cons_of_mem d hd')
    rw [List.find?_cons, List.find?_cons, ih']
    by_cases hname : d.Named name
    · simp [hname, hnamed d List.mem_cons_self hname]
    · simp [hname]

/-- An index is of one interface only. -/
theorem Net.find_byIndex_eq_some {ifindex : ℤ} {d : NetDevice} :
    net.find (.byIndex ifindex) = some d ↔ d ∈ net.devices ∧ d.ifindex = ifindex := by
  constructor
  · intro h
    rw [find] at h
    have hindex := List.find?_some h
    exact ⟨List.mem_of_find?_eq_some h, of_decide_eq_true hindex⟩
  · rintro ⟨hd, rfl⟩
    rw [find]
    cases hfind : net.devices.find? (·.ifindex = d.ifindex) with
    | none => exact absurd (decide_eq_true rfl) (List.find?_eq_none.1 hfind d hd)
    | some d' =>
      have hindex := List.find?_some hfind
      rw [List.inj_on_of_nodup_map net.indexes (List.mem_of_find?_eq_some hfind) hd
        (of_decide_eq_true hindex)]

/-- Without the hidden interfaces, an index is looked up as before unless it is hidden. -/
theorem Net.find_byIndex_shown (net : Net) (ifindex : ℤ) :
    net.shown.find (.byIndex ifindex) = (net.find (.byIndex ifindex)).filter (!·.isVpn) := by
  refine Option.ext fun d => ?_
  rw [find_byIndex_eq_some, Option.filter_eq_some_iff, find_byIndex_eq_some, shown,
    List.mem_filter]
  tauto

end Shown

/-! ## What an app finds out -/

/-- An index of a VPN interface. -/
def Net.Hides (net : Net) (ifindex : ℤ) : Prop :=
  ∃ d ∈ net.devices, d.isVpn = true ∧ d.ifindex = ifindex

/-- What is answered and set is the same as if there were no VPN interfaces, and none of these is
    set. -/
structure Conceals (net : Net) (bound : ℤ) (bind : Net → ℤ × ℤ) : Prop where
  shown : bind net = bind net.shown
  unbound : (bind net).2 = bound ∨ ¬net.Hides (bind net).2

section Hidden

variable {net : Net} {ifindex : ℤ}

/-- An answer that never looks at the network conceals. -/
theorem Conceals.const (r : ℤ) (bound : ℤ) : Conceals net bound fun _ => (r, bound) :=
  ⟨rfl, .inl rfl⟩

theorem Net.not_hides_of_nonpos (h : ifindex ≤ 0) : ¬net.Hides ifindex := by
  rintro ⟨d, hd, -, rfl⟩
  exact absurd (net.positive d hd) (not_lt.2 h)

/-- What is still listed without the hidden interfaces is not hidden. -/
theorem Net.not_hides_of_shown {d : NetDevice} (h : d ∈ net.shown.devices) :
    ¬net.Hides d.ifindex := by
  rintro ⟨d', hd', hvpn, hindex⟩
  obtain ⟨hd, hnot⟩ := List.mem_filter.1 h
  obtain rfl := List.inj_on_of_nodup_map net.indexes hd' hd hindex
  rw [hvpn] at hnot
  cases hnot

theorem Net.mem_of_find {q : Lookup} {d : NetDevice} (h : net.find q = some d) :
    d ∈ net.devices := by
  cases q with
  | byName name => exact List.mem_of_find?_eq_some h
  | byIndex ifindex => exact List.mem_of_find?_eq_some h

/-- A program that asks for an interface that is shown, or is not there. -/
theorem run_frozen_shown {c : Copying Lookup (Option NetDevice) ℤ} {bytes : Bytes} {q : Lookup}
    {sets : ℤ → Prop}
    (hc : c.Confined bytes (· = q) (fun d ifindex => d.map (·.ifindex) = some ifindex) sets)
    (hq : net.shown.find q = net.find q) (hsets : ∀ ifindex, sets ifindex → ¬net.Hides ifindex)
    (memory : Racing)
    (t : ℕ) (bound : ℤ) :
    Conceals net bound fun net => c.run net.find memory (.frozen bytes) t bound := by
  refine ⟨Copying.run_congr hc ?_ t t bound, ?_⟩
  · rintro q rfl
    exact hq.symm
  · refine Copying.run_sets (R := fun i => i = bound ∨ ¬net.Hides i) hc
      (fun i hi => .inr (hsets i hi)) ?_ t (.inl rfl)
    rintro q rfl i hi
    obtain ⟨d, hd, rfl⟩ := Option.map_eq_some_iff.1 hi
    rw [← hq] at hd
    exact .inr (Net.not_hides_of_shown (Net.mem_of_find hd))

end Hidden

end Kpm

namespace Kmod

open Kpm

section Module

variable {resolved hasSk : Bool} {net : Net} {ifindex : ℤ}

/-- A positive index is let through if its interface is shown. -/
theorem classifyBindIfindex_eq_zero_iff (hpos : 0 < ifindex) :
    classifyBindIfindex resolved hasSk net ifindex = 0 ↔
    hasSk = true ∧ resolved = true ∧ (net.shown.find (.byIndex ifindex)).isSome = true := by
  rw [classifyBindIfindex, Net.find_byIndex_shown]
  cases hasSk with
  | false => simp [hpos.ne']
  | true =>
    cases resolved with
    | false => simp [not_le.2 hpos]
    | true =>
      cases hfind : net.find (.byIndex ifindex) with
      | none => simp [not_le.2 hpos]
      | some d =>
        cases hvpn : vpnhideIfaceIsVpn d.name.bytes <;> simp [not_le.2 hpos, NetDevice.isVpn, hvpn]

variable {original : Setsockopt} {memory : Racing} {optval : Source} {optlen : UInt32}

/-- A copy of a name that is not denied is that of an interface that is shown, or of none. -/
theorem name_shown (hnative : Native original) (hnet : net.Unaliased) (hlen : optlen.toNat < 2 ^ 31)
    {copied : Bytes} (hcopied : copied.length ≤ min optlen.toNat (vpnhideIfnamsiz - 1))
    (hname : vpnhideIfaceIsVpn (cString copied) = false) (t : ℕ) (bound : ℤ) :
    Conceals net bound fun net =>
      (original soBindtodevice optlen).run net.find memory (.frozen (snapshotOf copied)) t
        bound := by
  have hc := hnative.name optlen (snapshotOf copied) hlen
  rw [take_snapshotOf hcopied ((Nat.min_le_right _ _).trans (Nat.sub_le _ _)), cString_append_zeros]
    at hc
  refine run_frozen_shown hc (Net.find_byName_shown hnet hname) ?_ memory t bound
  rintro _ rfl
  exact Net.not_hides_of_nonpos le_rfl

/-- So is a copy of an index. -/
theorem index_shown (hnative : Native original) (hlen : 4 ≤ optlen.toNat) {copied : Bytes}
    (hcopied : copied.length ≤ 4)
    (hindex : 0 < intOf copied → (net.shown.find (.byIndex (intOf copied))).isSome = true)
    (t : ℕ) (bound : ℤ) :
    Conceals net bound fun net =>
      (original soBindtoifindex optlen).run net.find memory (.frozen (snapshotOf copied)) t
        bound := by
  have hc := hnative.index optlen (snapshotOf copied) hlen
  have hint : intOf ((snapshotOf copied).take 4) = intOf copied := by
    rw [take_snapshotOf hcopied (by decide), intOf, fromLeBytes_append_zeros, ← intOf]
  rw [hint] at hc
  have hhides : ¬net.Hides (intOf copied) := by
    rcases le_or_gt (intOf copied) 0 with hneg | hpos
    · exact Net.not_hides_of_nonpos hneg
    · obtain ⟨d, hd⟩ := Option.isSome_iff_exists.1 (hindex hpos)
      obtain ⟨hmem, hd⟩ := Net.find_byIndex_eq_some.1 hd
      exact hd ▸ Net.not_hides_of_shown hmem
  refine run_frozen_shown hc ?_ ?_ memory t bound
  · rw [Net.find_byIndex_shown]
    cases hfind : net.find (.byIndex (intOf copied)) with
    | none => rfl
    | some d =>
      obtain ⟨hmem, hd⟩ := Net.find_byIndex_eq_some.1 hfind
      have hvpn : d.isVpn = false := Bool.eq_false_iff.2 fun h => hhides ⟨d, hmem, h, hd⟩
      rw [Option.filter_some, hvpn]
      rfl
  · rintro _ (rfl | rfl)
    · exact Net.not_hides_of_nonpos le_rfl
    · exact hhides

/-- The copy of a name is no longer than the caller says and no longer than the buffer. -/
theorem length_nameCopy {copied : Bytes} (h : nameCopy memory optval optlen = some copied) :
    copied.length ≤ min optlen.toNat (vpnhideIfnamsiz - 1) := by
  rw [nameCopy] at h
  split_ifs at h
  · obtain rfl := Option.some.inj h
    exact Nat.zero_le _
  · exact Source.length_le_of_read h

theorem length_nameCopy_le {copied : Bytes} (h : nameCopy memory optval optlen = some copied) :
    copied.length ≤ vpnhideIfnamsiz :=
  (length_nameCopy h).trans ((Nat.min_le_right _ _).trans (Nat.sub_le _ _))

/-- Whether an index is let through. -/
def Passes (resolved hasSk : Bool) (net : Net) (ifindex : ℤ) : Bool :=
  ifindex ≤ 0 || hasSk && resolved && (net.shown.find (.byIndex ifindex)).isSome

/-- Whether the target is checked at all does not depend on the hidden interfaces. -/
theorem passes_shown :
    Passes resolved hasSk net.shown ifindex = Passes resolved hasSk net ifindex := by
  rw [Passes, Passes, Net.find_byIndex_shown, Net.find_byIndex_shown, Option.filter_filter]
  simp only [Bool.and_self]

/-- The kmod's hook on a name: no such device if the name is that of a hidden interface. -/
theorem vpnhideSockSetsockopt_name (bound : ℤ) :
    vpnhideSockSetsockopt resolved hasSk net original true memory soBindtodevice
      optval optlen bound =
      if 2 ^ 31 ≤ optlen.toNat then
        (original soBindtodevice optlen).run net.find memory optval 0 bound
      else
        match nameCopy memory optval optlen with
        | none => (-14, bound)
        | some copied =>
          if vpnhideIfaceIsVpn (cString copied) then (-19, bound)
          else (original soBindtodevice optlen).run net.find memory (.frozen (snapshotOf copied)) 1
            bound := by
  rw [vpnhideSockSetsockopt, prepareSocketBind, if_neg (by decide), if_neg (by decide), if_pos rfl]
  split_ifs with hlen
  · rfl
  · cases hcopy : nameCopy memory optval optlen with
    | none => rfl
    | some copied =>
      dsimp only
      rw [cString_snapshotOf (length_nameCopy_le hcopy)]
      by_cases hvpn : vpnhideIfaceIsVpn (cString copied) = true
      · have hne : cString copied ≠ [] := by
          intro hnil
          rw [hnil] at hvpn
          cases hvpn
        simp [hvpn, hne]
      · simp [hvpn]

/-- The kmod's hook on an index: no such device if the index is that of a hidden interface. -/
theorem vpnhideSockSetsockopt_index (bound : ℤ) :
    vpnhideSockSetsockopt resolved hasSk net original true memory soBindtoifindex
      optval optlen bound =
      if optlen.toNat < 4 then (original soBindtoifindex optlen).run net.find memory optval 0 bound
      else
        match optval.read memory 0 4 with
        | none => (-14, bound)
        | some copied =>
          if Passes resolved hasSk net (intOf copied) then
            (original soBindtoifindex optlen).run net.find memory
            (.frozen (snapshotOf copied)) 1 bound
          else (-19, bound) := by
  rw [vpnhideSockSetsockopt, prepareSocketBind, if_neg (by decide),
    if_neg (by decide), if_neg (by decide)]
  split_ifs with hlen
  · rfl
  · cases hcopy : optval.read memory 0 4 with
    | none => rfl
    | some copied =>
      have hdeny :
          (decide (0 < intOf copied) &&
            decide (classifyBindIfindex resolved hasSk net (intOf copied) ≠ 0)) =
          !Passes resolved hasSk net (intOf copied) := by
        rw [Passes]
        rcases le_or_gt (intOf copied) 0 with hneg | hpos
        · simp [hneg, not_lt.2 hneg]
        · rw [Bool.eq_iff_iff]
          simp [hpos, not_le.2 hpos, classifyBindIfindex_eq_zero_iff hpos, or_assoc]
      dsimp only
      rw [hdeny]
      cases Passes resolved hasSk net (intOf copied) <;> rfl

/-- An app cannot bind a socket to a VPN interface, nor tell it from one that is not there. -/
theorem bind_shown (hnative : Native original) (hnet : net.Unaliased) {optname : UInt32}
    (hopt : optname = soBindtodevice ∨ optname = soBindtoifindex) (bound : ℤ) :
    Conceals net bound fun net =>
      vpnhideSockSetsockopt resolved hasSk net original true memory optname
        optval optlen bound := by
  obtain rfl | rfl := hopt
  · simp only [vpnhideSockSetsockopt_name]
    split_ifs with hlen
    · obtain ⟨ret, hret⟩ := hnative.nameRefused optlen hlen
      rw [hret]
      exact .const ret bound
    · -- The call fails as the copy does, whatever the networks are.
      cases hcopy : nameCopy memory optval optlen with
      | none => exact .const (-14) bound
      | some copied =>
        dsimp only
        split_ifs with hvpn
        · exact .const (-19) bound
        · exact name_shown hnative hnet (not_le.1 hlen) (length_nameCopy hcopy)
            (Bool.eq_false_iff.2 hvpn) 1 bound
  · simp only [vpnhideSockSetsockopt_index]
    split_ifs with hlen
    · obtain ⟨ret, hret⟩ := hnative.indexRefused optlen hlen
      rw [hret]
      exact .const ret bound
    · cases hcopy : optval.read memory 0 4 with
      | none => exact .const (-14) bound
      | some copied =>
        by_cases hpasses : Passes resolved hasSk net (intOf copied) = true
        · have hshown :
              0 < intOf copied → (net.shown.find (.byIndex (intOf copied))).isSome = true := by
            intro hpos
            rw [Passes, decide_eq_false (not_le.2 hpos), Bool.false_or, Bool.and_eq_true] at hpasses
            exact hpasses.2
          have hindex :=
            @index_shown net _ memory _ hnative (not_lt.1 hlen) _ (Source.length_le_of_read hcopy)
              hshown 1 bound
          exact ⟨by simpa [passes_shown, hpasses] using hindex.shown, by simpa [hpasses]
            using hindex.unbound⟩
        · exact ⟨by simp [passes_shown, hpasses], by simp [hpasses]⟩

end Module

end Kmod

namespace Kpm

section Agreement

variable {resolved hasSk active : Bool} {net : Net} {original : Setsockopt} {memory : Racing}
  {optname : UInt32} {optval : Source} {optlen : UInt32} {kver : ℕ}

/-- The two backends' tests of a name agree. -/
theorem ifaceIsVpn_eq (name : IfName) :
    ifaceIsVpn name.bytes = Kmod.vpnhideIfaceIsVpn name.bytes := by
  have hall : ∀ c ∈ name.bytes, (c != 0) = true := by
    intro c hc
    exact bne_iff_ne.2 fun h => name.noNul (h ▸ hc)
  rw [ifaceIsVpn, List.takeWhile_eq_self_iff.2 hall, List.take_of_length_le name.short]

/-- The two tests of a name agree also on the snapshot of a copy. -/
theorem ifaceIsVpn_snapshotOf {copied : Bytes} (hcopied : copied.length ≤ vpnhideIfnamsiz - 1) :
    ifaceIsVpn (snapshotOf copied) = Kmod.vpnhideIfaceIsVpn (cString copied) := by
  have hlen : (cString copied).length ≤ 15 := (List.takeWhile_prefix _).length_le.trans hcopied
  rw [ifaceIsVpn, ← cString, cString_snapshotOf (hcopied.trans (by decide)),
    List.take_of_length_le hlen]

/-- The KPM's test of an index is the kmod's. -/
theorem socketBindIfindexHidden_eq (ifindex : ℤ) :
    socketBindIfindexHidden resolved hasSk net ifindex =
      !Kmod.Passes resolved hasSk net ifindex := by
  rw [socketBindIfindexHidden, Kmod.Passes, Net.find_byIndex_shown]
  rcases le_or_gt ifindex 0 with hneg | hpos
  · simp [hneg]
  · rw [if_neg (not_le.2 hpos), decide_eq_false (not_le.2 hpos)]
    cases hasSk <;> cases resolved <;> try rfl
    cases hfind : net.find (.byIndex ifindex) with
    | none => rfl
    | some d =>
      rw [Option.filter_some, NetDevice.isVpn]
      dsimp only
      rw [ifaceIsVpn_eq]
      cases Kmod.vpnhideIfaceIsVpn d.name.bytes <;> rfl

/-- The KPM's hook on a name is the kmod's. -/
theorem socketBind_name (hkver : vpnhideKver 5 9 0 ≤ kver) (bound : ℤ) :
    socketBind resolved hasSk net kver original true memory soBindtodevice optval optlen bound =
      if 2 ^ 31 ≤ optlen.toNat then
        (original soBindtodevice optlen).run net.find memory optval 0 bound
      else
        match nameCopy memory optval optlen with
        | none => (original soBindtodevice optlen).run net.find memory optval 1 bound
        | some copied =>
          if Kmod.vpnhideIfaceIsVpn (cString copied) then (-19, bound)
          else (original soBindtodevice optlen).run net.find memory (.frozen (snapshotOf copied)) 1
            bound := by
  rw [socketBind, socketBindBeforeCommon, if_neg (by decide), if_neg (by decide),
    if_neg (not_lt.2 hkver), if_pos rfl]
  split_ifs with hlen
  · rfl
  · cases hcopy : nameCopy memory optval optlen with
    | none => rfl
    | some copied =>
      dsimp only
      rw [cString_snapshotOf (Kmod.length_nameCopy_le hcopy),
        ifaceIsVpn_snapshotOf ((Kmod.length_nameCopy hcopy).trans (Nat.min_le_right _ _))]
      by_cases hvpn : Kmod.vpnhideIfaceIsVpn (cString copied) = true
      · have hne : cString copied ≠ [] := by
          intro hnil
          rw [hnil] at hvpn
          cases hvpn
        simp [hvpn, hne]
      · simp [hvpn]

/-- The KPM's hook on an index is the kmod's. -/
theorem socketBind_index (hkver : vpnhideKver 5 9 0 ≤ kver) (bound : ℤ) :
    socketBind resolved hasSk net kver original true memory soBindtoifindex optval optlen bound =
      if optlen.toNat < 4 then (original soBindtoifindex optlen).run net.find memory optval 0 bound
      else
        match optval.read memory 0 4 with
        | none => (original soBindtoifindex optlen).run net.find memory optval 1 bound
        | some copied =>
          if Kmod.Passes resolved hasSk net (intOf copied) then
            (original soBindtoifindex optlen).run net.find memory
            (.frozen (snapshotOf copied)) 1 bound
          else (-19, bound) := by
  rw [socketBind, socketBindBeforeCommon, if_neg (by decide), if_neg (by decide),
    if_neg (not_lt.2 hkver), if_neg (by decide)]
  split_ifs with hlen
  · rfl
  · cases hcopy : optval.read memory 0 4 with
    | none => rfl
    | some copied =>
      dsimp only
      rw [socketBindIfindexHidden_eq]
      cases Kmod.Passes resolved hasSk net (intOf copied) <;> rfl

/-- The KPM answers as the module, if it can copy the option. -/
theorem socketBind_eq (hkver : vpnhideKver 5 9 0 ≤ kver)
    (hcopy : (optionCopy memory optname optval optlen).isSome = true)
    (hopt : optname = soBindtodevice ∨ optname = soBindtoifindex) (bound : ℤ) :
    socketBind resolved hasSk net kver original true memory optname optval optlen bound =
      Kmod.vpnhideSockSetsockopt resolved hasSk net original true memory optname
        optval optlen bound := by
  obtain ⟨copied, hcopy⟩ := Option.isSome_iff_exists.1 hcopy
  obtain rfl | rfl := hopt
  · rw [optionCopy, if_pos rfl] at hcopy
    rw [socketBind_name hkver, Kmod.vpnhideSockSetsockopt_name, hcopy]
  · rw [optionCopy, if_neg (by decide)] at hcopy
    rw [socketBind_index hkver, Kmod.vpnhideSockSetsockopt_index, hcopy]

end Agreement

/-! ## Main result -/

/-- Whatever the memory of an app does, with the module it cannot bind a socket to a VPN interface,
    nor tell one from one that is not there, if these have no alternative names; nor can it with the
    KPM, which answers as the module, if the KPM can copy the option. -/
theorem socket_bind_hidden {original : Setsockopt} (hnative : Native original)
    (resolved hasSk : Bool) {net : Net} (hnet : net.Unaliased) (memory : Racing) {optname : UInt32}
    (hopt : optname = soBindtodevice ∨ optname = soBindtoifindex) (optval : Source)
    (optlen : UInt32) (bound : ℤ)
    {kver : ℕ} (hkver : vpnhideKver 5 9 0 ≤ kver) :
    let bind := fun net =>
      Kmod.vpnhideSockSetsockopt resolved hasSk net original true memory optname optval optlen bound
    Conceals net bound bind ∧ ((optionCopy memory optname optval optlen).isSome = true →
      socketBind resolved hasSk net kver original true memory optname optval optlen bound =
        bind net) :=
  ⟨Kmod.bind_shown hnative hnet hopt bound, fun hcopy => socketBind_eq hkver hcopy hopt bound⟩

/-- What Linux does with the two options. -/
def linuxSetsockopt : Setsockopt := fun optname optlen =>
  if optname = soBindtodevice then
    if 2 ^ 31 ≤ optlen.toNat then .done (-22)
    else .copy (min optlen.toNat (vpnhideIfnamsiz - 1)) fun
      | none => .done (-14)
      | some devname =>
        if cString devname = [] then .put 0 (.done 0)
        else .ask (.byName (cString devname)) fun
          | none => .done (-19)
          | some dev => .put dev.ifindex (.done 0)
  else if optlen.toNat < 4 then .done (-22)
  else .copy 4 fun
    | none => .done (-14)
    | some val => if intOf val < 0 then .done (-22) else .put (intOf val) (.done 0)

/-- The system call of Linux is one of those that the statement is about. -/
theorem native_linuxSetsockopt : Native linuxSetsockopt where
  nameRefused optlen h := ⟨-22, by rw [linuxSetsockopt, if_pos rfl, if_pos h]⟩
  name optlen bytes h := by
    rw [linuxSetsockopt, if_pos rfl, if_neg (not_le.2 h), Copying.Confined]
    dsimp only
    split_ifs
    · exact ⟨rfl, trivial⟩
    · refine ⟨rfl, fun d => ?_⟩
      cases d with
      | none => trivial
      | some dev => exact ⟨.inr rfl, trivial⟩
  indexRefused optlen h := ⟨-22, by rw [linuxSetsockopt, if_neg (by decide), if_pos h]⟩
  index optlen bytes h := by
    rw [linuxSetsockopt, if_neg (by decide), if_neg (not_lt.2 h), Copying.Confined]
    dsimp only
    split_ifs
    · trivial
    · exact ⟨.inr rfl, trivial⟩

/-- A network with a VPN interface, and other names that it may have. -/
def tun0Net (altnames : List Bytes) : Net where
  devices := [⟨⟨ascii "wlan0", by decide, by decide⟩, [ascii "wifi"], 3⟩,
    ⟨⟨ascii "tun0", by decide, by decide⟩, altnames, 5⟩]
  indexes := show [(3 : ℤ), 5].Nodup by decide
  positive := by
    intro d hd
    obtain rfl | rfl := List.mem_pair.1 hd
    · exact show (0 : ℤ) < 3 by decide
    · exact show (0 : ℤ) < 5 by decide

theorem tun0Net_unaliased : (tun0Net []).Unaliased := by
  intro d hd hvpn
  obtain rfl | rfl := List.mem_pair.1 hd
  · exact absurd hvpn (by decide +kernel)
  · rfl

/-- A memory that holds one name when it is first read, and another one later. -/
def racingNames (first later : Bytes) : Racing := fun time n =>
  some ⟨((if time = 0 then first else later) ++ List.replicate n 0).take n, by simp⟩

/-- The name is exchanged after the copy. -/
theorem socket_bind_hidden_exchanged :
    Kmod.vpnhideSockSetsockopt true true (tun0Net []) linuxSetsockopt true
      (racingNames (ascii "wlan0") (ascii "tun0"))
        soBindtodevice .caller 5 0 =
      Kmod.vpnhideSockSetsockopt true true (tun0Net []).shown linuxSetsockopt true
        (racingNames (ascii "wlan0") (ascii "tun0")) soBindtodevice .caller 5 0 ∧
    socketBind true true (tun0Net []) (vpnhideKver 5 10 0) linuxSetsockopt true
        (racingNames (ascii "wlan0") (ascii "tun0")) soBindtodevice .caller 5 0 = (0, 3) := by
  have h := @socket_bind_hidden _ native_linuxSetsockopt true true _ tun0Net_unaliased
    (racingNames (ascii "wlan0") (ascii "tun0")) _ (.inl rfl) .caller 5 0 (vpnhideKver 5 10 0)
    (by decide)
  refine ⟨h.1.shown, ?_⟩
  rw [h.2 rfl]
  decide +kernel

/-- By an alternative name the VPN interface is bound. -/
example : Kmod.vpnhideSockSetsockopt true true (tun0Net [ascii "wire"]) linuxSetsockopt true
    (racingNames (ascii "wire") (ascii "wire")) soBindtodevice .caller 4 0 = (0, 5) := by
  decide +kernel

/-- When its copy fails, the KPM leaves the option to the kernel, which reads again: an app that
    takes the page away, and gives it back in between, binds the socket. The module refuses it. -/
example :
    let memory : Racing :=
  fun time n => if time = 0 then none else racingNames (ascii "tun0") (ascii "tun0") time n
    socketBind true true (tun0Net []) (vpnhideKver 5 10 0) linuxSetsockopt true memory
      soBindtodevice .caller 5 0 = (0, 5) ∧
      Kmod.vpnhideSockSetsockopt true true (tun0Net []) linuxSetsockopt true memory soBindtodevice
        .caller 5 0 = (-14, 0) := by
  decide +kernel

end Kpm

end VpnHide

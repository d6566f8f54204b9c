import Mathlib.Data.List.Perm.Basic
import VpnHide.Activator.Model
import VpnHide.Lib.PacketFilter

/-!
# The ports of an app

Which loopback ports an app may not reach. The policies of the packages that share a uid are
merged (`PortUidPolicy`, `project_ports_with_resolver` of `activator/src/model.rs`) and written
as the rules of a chain, once for either version of the protocol (`activator/src/ports.rs`).

Merging is a union with a largest element, all ports, so that the order of the packages is
irrelevant (`portTargets_perm`). What is written is read back as one rule for each transport of
each port range (`restoredRules_buildPortsRuleset`).
-/

namespace VpnHide.Activator

open Lib Str PacketFilter Config NativePolicy

/-! ## Rules -/

/-- A rule of one port is written without its end. -/
def PortRule.normalized (rule : PortRule) : PortRule :=
  if rule.endPort = rule.start then { rule with stop := none } else rule

/-- The derived order: by the fields, one after another. -/
instance : Ord PortRule where
  compare := compareLex (compareOn (·.start))
    (compareLex (compareOn (·.stop)) (compareOn fun rule =>
    match rule.protocol with
    | .both => (0 : ℕ)
    | .tcp => 1
    | .udp => 2))

instance : Std.TransOrd PortRule := inferInstanceAs (Std.TransCmp (compareLex _ (compareLex _ _)))

instance : Std.LawfulEqOrd PortRule where
  eq_of_compare {a b} h := by
    obtain ⟨start, stop, protocol⟩ := a
    obtain ⟨start', stop', protocol'⟩ := b
    change compareLex _ (compareLex _ _) _ _ = _ at h
    simp only [compareLex, compareOn, Ordering.then_eq_eq, Std.LawfulEqCmp.compare_eq_iff_eq] at h
    obtain ⟨rfl, rfl, hrank⟩ := h
    cases protocol <;> cases protocol' <;> first | rfl | cases hrank

/-! ## Merging -/

/-- What is blocked for a uid: all ports, or those of the rules. -/
structure PortUidPolicy where
  allPorts : Bool
  rules : Std.ExtTreeSet PortRule

/-- Nothing is blocked. -/
def PortUidPolicy.default : PortUidPolicy := ⟨false, ∅⟩

/-- An app adds its policy to that of its uid; with all ports blocked, rules do not matter any
    more. -/
def PortUidPolicy.mergeApp (policy : PortUidPolicy) (app : AppConfig) : PortUidPolicy :=
  if policy.allPorts then policy
  else
    match app.portPolicy with
    -- without a policy, all ports: whatever is merged later adds nothing
    | none => { allPorts := true, rules := ∅ }
    | some portPolicy =>
      { policy with rules := policy.rules.insertMany (portPolicy.rules.map PortRule.normalized) }

/-- The policies by uid. -/
abbrev PortTargets := Std.ExtTreeMap UInt32 PortUidPolicy

/-- The uids of a package, if it is installed. -/
def uidsFor (packages : StrMap (List UInt32)) (pkg : Str) : List UInt32 := (packages[pkg]?).getD []

/-- An app is merged into the policy of one of its uids. -/
def PortTargets.merge (targets : PortTargets) (uid : UInt32) (app : AppConfig) : PortTargets :=
  targets.insert uid (((targets[uid]?).getD PortUidPolicy.default).mergeApp app)

/-- The targets of packages, merged in the order of a list. -/
def portTargets (apps : List (Str × AppConfig)) (packages : StrMap (List UInt32)) : PortTargets :=
  apps.foldl (fun targets (pkg, app) =>
    if !app.ports then targets
    else (uidsFor packages pkg).foldl (fun targets uid => if isAppUid uid then targets.merge uid app
      else targets)
      targets) ∅

/-! ## Texts -/

/-- The ports of a rule in the syntax of iptables. -/
def portMatch (rule : PortRule) : Str :=
  if rule.start = rule.endPort then Nat.toDigits 10 rule.start.toNat
  else Nat.toDigits 10 rule.start.toNat ++ ":".toList ++ Nat.toDigits 10 rule.endPort.toNat

/-- The two lines that block all ports of a uid. -/
def appendFullPortsRules (out chain loopback udpReject : Str) (uid : UInt32) : Str :=
  out ++ ("-A ".toList ++ chain ++ " -m owner --uid-owner ".toList ++ Nat.toDigits 10 uid.toNat ++
    " -d ".toList ++ loopback ++ " -p tcp -j REJECT --reject-with tcp-reset\n".toList) ++
  ("-A ".toList ++ chain ++ " -m owner --uid-owner ".toList ++ Nat.toDigits 10 uid.toNat ++
    " -d ".toList ++ loopback ++ " -p udp -j REJECT --reject-with ".toList ++
    udpReject ++ "\n".toList)

/-- The line of a rule for one protocol. -/
def appendProtocolPortRule (out chain loopback proto reject : Str) (uid : UInt32)
    (rule : PortRule) : Str :=
  out ++ ("-A ".toList ++ chain ++ " -m owner --uid-owner ".toList ++ Nat.toDigits 10 uid.toNat ++
    " -d ".toList ++ loopback ++ " -p ".toList ++ proto ++ " --dport ".toList ++ portMatch rule ++
    " -j REJECT --reject-with ".toList ++
    reject ++ "\n".toList)

/-- The lines of a rule, one for each of its protocols. -/
def appendPortRule (out chain loopback udpReject : Str) (uid : UInt32) (rule : PortRule) : Str :=
  match rule.protocol with
  | .both =>
    appendProtocolPortRule
      (appendProtocolPortRule out chain loopback "tcp".toList "tcp-reset".toList uid rule)
      chain loopback "udp".toList udpReject uid rule
  | .tcp => appendProtocolPortRule out chain loopback "tcp".toList "tcp-reset".toList uid rule
  | .udp => appendProtocolPortRule out chain loopback "udp".toList udpReject uid rule

/-- `build_ports_ruleset`: the input of `iptables-restore` for a chain. -/
def buildPortsRuleset (chain loopback udpReject : Str) (targets : PortTargets) : Str :=
  let out := "*filter\n".toList ++ (":".toList ++ chain ++ " - [0:0]\n".toList)
  let out := targets.toList.foldl (fun out (uid, policy) =>
    if policy.allPorts then appendFullPortsRules out chain loopback udpReject uid
    else policy.rules.toList.foldl
      (fun out rule => appendPortRule out chain loopback udpReject uid rule) out) out
  out ++ ("-A ".toList ++ chain ++ " -j RETURN\n".toList) ++ "COMMIT\n".toList

/-- The rulesets for IPv4 and IPv6, which have the same targets. -/
structure PortsRuleset where
  ipv4 : Str
  ipv6 : Str
  targetCount : ℕ

/-- The chain for IPv4. -/
def portsChain4 : Str := "vpnhide_out".toList

/-- The chain for IPv6. -/
def portsChain6 : Str := "vpnhide_out6".toList

/-- The whole block of loopback addresses: a daemon that listens everywhere does so on each. -/
def loopback4 : Str := "127.0.0.0/8".toList

/-- The loopback address of IPv6. -/
def loopback6 : Str := "::1".toList

/-- Both rulesets of the same targets. -/
def portsRuleset (targets : PortTargets) : PortsRuleset where
  ipv4 := buildPortsRuleset portsChain4 loopback4 "icmp-port-unreachable".toList targets
  ipv6 := buildPortsRuleset portsChain6 loopback6 "icmp6-port-unreachable".toList targets
  targetCount := targets.size

/-- `project_ports_with_resolver`: the rulesets of a config. -/
def projectPortsWithResolver (cfg : CanonicalConfig) (packages : StrMap (List UInt32)) :
    PortsRuleset :=
  portsRuleset (portTargets cfg.apps.toList packages)

/-! ## Merged policies -/

/-- The rule is about a transport and a port. -/
def PortRule.Blocks (rule : PortRule) (transport : Transport) (port : UInt16) : Prop :=
  (match rule.protocol with
    | .both => True
    | .tcp => transport = .tcp
    | .udp => transport = .udp) ∧
    rule.start ≤ port ∧ port ≤ rule.endPort

/-- Without a policy all ports are blocked. -/
def AppConfig.BlocksPort (app : AppConfig) (transport : Transport) (port : UInt16) : Prop :=
  app.portPolicy = none ∨ ∃ policy, app.portPolicy = some policy ∧
    ∃ rule ∈ policy.rules, rule.Blocks transport port

/-- What the policy of a uid keeps from being reached. -/
def PortUidPolicy.Blocks (policy : PortUidPolicy) (transport : Transport) (port : UInt16) : Prop :=
  policy.allPorts = true ∨ ∃ rule ∈ policy.rules, rule.Blocks transport port

section Merge

variable {transport : Transport} {port : UInt16} {policy : PortUidPolicy} {app app' : AppConfig}
  {rule : PortRule}

theorem endPort_normalized (rule : PortRule) : rule.normalized.endPort = rule.endPort := by
  rw [PortRule.normalized]
  split_ifs with hsingle
  · exact hsingle.symm
  · rfl

theorem start_normalized (rule : PortRule) : rule.normalized.start = rule.start := by
  rw [PortRule.normalized]
  split_ifs <;> rfl

theorem protocol_normalized (rule : PortRule) : rule.normalized.protocol = rule.protocol := by
  rw [PortRule.normalized]
  split_ifs <;> rfl

/-- Writing a rule shorter does not change what it blocks. -/
theorem blocks_normalized : rule.normalized.Blocks transport port ↔ rule.Blocks transport port := by
  rw [PortRule.Blocks, PortRule.Blocks, endPort_normalized, start_normalized, protocol_normalized]

/-- A rule of a merged policy is one of before, or one of the app's. -/
theorem mem_rules_mergeApp (hrule : rule ∈ (policy.mergeApp app).rules) :
    rule ∈ policy.rules ∨
      ∃ portPolicy, app.portPolicy = some portPolicy ∧
        ∃ r ∈ portPolicy.rules, r.normalized = rule := by
  rw [PortUidPolicy.mergeApp] at hrule
  split_ifs at hrule
  · exact .inl hrule
  · cases happ : app.portPolicy with
    | none =>
      rw [happ] at hrule
      exact absurd hrule Std.ExtTreeSet.not_mem_empty
    | some portPolicy =>
      rw [happ] at hrule
      obtain hold | hnew := Std.ExtTreeSet.mem_insertMany_list.1 hrule
      · exact .inl hold
      · obtain ⟨r, hr, hnormal⟩ := List.mem_map.1 (List.contains_iff_mem.1 hnew)
        exact .inr ⟨portPolicy, rfl, r, hr, hnormal⟩

/-- Merging adds what the app blocks. -/
theorem blocks_mergeApp :
    (policy.mergeApp app).Blocks transport port ↔
      policy.Blocks transport port ∨ app.BlocksPort transport port := by
  rw [PortUidPolicy.mergeApp]
  split_ifs with hall
  · exact ⟨.inl, fun _ => .inl hall⟩
  · cases happ : app.portPolicy with
    | none => exact ⟨fun _ => .inr (.inl happ), fun _ => .inl rfl⟩
    | some portPolicy =>
      simp only [PortUidPolicy.Blocks, AppConfig.BlocksPort, happ, hall,
        Std.ExtTreeSet.mem_insertMany_list, List.contains_iff_mem, List.mem_map, Option.some.injEq,
        exists_eq_left', Bool.false_eq_true, reduceCtorEq, false_or]
      constructor
      · rintro ⟨rule, hold | ⟨r, hr, rfl⟩, hblocks⟩
        · exact .inl ⟨rule, hold, hblocks⟩
        · exact .inr ⟨r, hr, blocks_normalized.1 hblocks⟩
      · rintro (⟨rule, hold, hblocks⟩ | ⟨r, hr, hblocks⟩)
        · exact ⟨rule, .inl hold, hblocks⟩
        · exact ⟨r.normalized, .inr ⟨r, hr, rfl⟩, blocks_normalized.2 hblocks⟩

/-- Two apps may be merged in either order. -/
theorem mergeApp_comm (policy : PortUidPolicy) (app app' : AppConfig) :
    (policy.mergeApp app).mergeApp app' = (policy.mergeApp app').mergeApp app := by
  obtain ⟨allPorts, rules⟩ := policy
  cases allPorts with
  | true => rfl
  | false =>
    simp only [PortUidPolicy.mergeApp]
    cases app.portPolicy with
    | none =>
      cases app'.portPolicy with
      | none => rfl
      | some portPolicy' => rfl
    | some portPolicy =>
      cases app'.portPolicy with
      | none => rfl
      | some portPolicy' =>
        -- only here both sides add rules, to the same set
        simp only [Bool.false_eq_true, if_false, PortUidPolicy.mk.injEq, true_and]
        refine Std.ExtTreeSet.ext_mem fun rule => ?_
        simp only [Std.ExtTreeSet.mem_insertMany_list]
        tauto

end Merge

/-! ## Targets -/

/-- What the packages merge, one after another: the uids of apps that have a policy. -/
def portShares (apps : List (Str × AppConfig)) (packages : StrMap (List UInt32)) :
    List (UInt32 × AppConfig) :=
  apps.flatMap fun (pkg, app) =>
    if app.ports then ((uidsFor packages pkg).filter isAppUid).map fun uid => (uid, app) else []

/-- Merging an app into the policy of a uid, which may have none yet. -/
def mergeOption (policy : Option PortUidPolicy) (app : AppConfig) : Option PortUidPolicy :=
  some ((policy.getD .default).mergeApp app)

/-- The apps that are merged for a uid. -/
def sharesOf (uid : UInt32) (shares : List (UInt32 × AppConfig)) : List AppConfig :=
  (shares.filter (·.1 = uid)).map (·.2)

section Targets

variable {apps apps' : List (Str × AppConfig)} {packages : StrMap (List UInt32)} {uid : UInt32}
  {app : AppConfig} {transport : Transport} {port : UInt16}

/-- The policies are what the shares add up to. -/
theorem portTargets_eq (apps : List (Str × AppConfig)) (packages : StrMap (List UInt32)) :
    portTargets apps packages =
      (portShares apps packages).foldl (fun targets share => targets.merge share.1 share.2) ∅ := by
  rw [portTargets, portShares, List.foldl_flatMap]
  congr 1
  funext targets e
  obtain ⟨pkg, app⟩ := e
  cases hports : app.ports with
  | false => simp [hports]
  | true => simp [hports, List.foldl_map, List.foldl_filter]

/-- The shares are the apps with ports for the uids of their packages. -/
theorem mem_portShares :
    (uid, app) ∈ portShares apps packages ↔
      ∃ pkg, (pkg, app) ∈ apps ∧ app.ports = true ∧ uid ∈ uidsFor packages pkg ∧
        isAppUid uid = true := by
  simp only [portShares, List.mem_flatMap, Prod.exists]
  constructor
  · rintro ⟨pkg, app', hmem, hshare⟩
    split_ifs at hshare with hports
    · simp only [List.mem_map, List.mem_filter, Prod.mk.injEq] at hshare
      obtain ⟨uid', ⟨huid, happ⟩, rfl, rfl⟩ := hshare
      exact ⟨pkg, hmem, hports, huid, happ⟩
    · exact absurd hshare List.not_mem_nil
  · rintro ⟨pkg, hmem, hports, huid, happ⟩
    refine ⟨pkg, app, hmem, ?_⟩
    rw [if_pos hports]
    exact List.mem_map_of_mem (List.mem_filter.2 ⟨huid, happ⟩)

/-- The policy of a uid is that of the apps merged for it. -/
theorem getElem?_foldl_merge (shares : List (UInt32 × AppConfig)) (targets : PortTargets)
    (uid : UInt32) :
    (shares.foldl (fun targets share => targets.merge share.1 share.2) targets)[uid]? =
      (sharesOf uid shares).foldl mergeOption (targets[uid]?) := by
  induction shares generalizing targets with
  | nil => rfl
  | cons share shares ih =>
    rw [List.foldl_cons, ih, sharesOf, sharesOf, List.filter_cons]
    by_cases huid : share.1 = uid
    · rw [if_pos (decide_eq_true huid), List.map_cons, List.foldl_cons, PortTargets.merge, huid,
        Std.ExtTreeMap.getElem?_insert_self, mergeOption]
    · rw [if_neg (by simpa using huid), PortTargets.merge, getElem?_insert_of_ne huid]

/-- The policy of a uid is that of its shares. -/
theorem getElem?_portTargets (apps : List (Str × AppConfig)) (packages : StrMap (List UInt32))
    (uid : UInt32) :
    (portTargets apps packages)[uid]? = (sharesOf uid (portShares apps packages)).foldl
      mergeOption none := by
  rw [portTargets_eq, getElem?_foldl_merge]
  simp

/-- The order of the packages is irrelevant. -/
theorem portTargets_perm (h : apps.Perm apps') :
    portTargets apps packages = portTargets apps' packages := by
  refine Std.ExtTreeMap.ext_getElem? fun uid => ?_
  rw [getElem?_portTargets, getElem?_portTargets]
  have hshares :
      (sharesOf uid (portShares apps packages)).Perm (sharesOf uid (portShares apps' packages)) :=
    ((h.flatMap_right _).filter _).map _
  -- at each uid two apps may be exchanged
  refine hshares.foldl_eq' (fun app _ app' _ policy => ?_) none
  exact congrArg some (mergeApp_comm (policy.getD .default) app app')

/-- A uid blocks what one of its apps blocks. -/
theorem blocks_foldl_mergeOption (shares : List AppConfig) (policy : Option PortUidPolicy) :
    (∃ p, shares.foldl mergeOption policy = some p ∧ p.Blocks transport port) ↔
      (∃ p, policy = some p ∧ p.Blocks transport port) ∨
        ∃ app ∈ shares, app.BlocksPort transport port := by
  induction shares generalizing policy with
  | nil => simp
  | cons app shares ih =>
    have hdefault : ¬PortUidPolicy.default.Blocks transport port := by
      simp [PortUidPolicy.Blocks, PortUidPolicy.default]
    have hpolicy : (policy.getD .default).Blocks transport port ↔
        ∃ p, policy = some p ∧ p.Blocks transport port := by
      cases policy with
      | none => simp [hdefault]
      | some p => simp
    rw [List.foldl_cons, ih, mergeOption]
    simp only [Option.some.injEq, exists_eq_left', blocks_mergeApp, hpolicy,
      List.exists_mem_cons_iff, or_assoc]

/-- A rule of the policy of a uid is one that some app has. -/
theorem rule_of_foldl_mergeOption {shares : List AppConfig} {policy : Option PortUidPolicy}
    {p : PortUidPolicy} {rule : PortRule} (hp : shares.foldl mergeOption policy = some p)
    (hrule : rule ∈ p.rules) :
    (∃ p', policy = some p' ∧ rule ∈ p'.rules) ∨ ∃ app ∈ shares, ∃ portPolicy, app.portPolicy =
      some portPolicy ∧ ∃ r ∈ portPolicy.rules, r.normalized = rule := by
  induction shares generalizing policy with
  | nil => exact .inl ⟨p, hp, hrule⟩
  | cons app shares ih =>
    obtain ⟨p', hp', hold⟩ | ⟨app', happ', hnew⟩ := ih hp
    · obtain rfl := Option.some.inj hp'
      obtain hrule' | hnew := mem_rules_mergeApp hold
      · cases policy with
        | none => exact absurd hrule' Std.ExtTreeSet.not_mem_empty
        | some p' => exact .inl ⟨p', rfl, hrule'⟩
      · exact .inr ⟨app, List.mem_cons_self, hnew⟩
    · exact .inr ⟨app', List.mem_cons_of_mem app happ', hnew⟩

end Targets

/-! ## Reading a ruleset back -/

/-- A rule of the chain: a uid and a transport, and the ports if there is a policy. -/
structure ChainRule where
  uid : UInt32
  transport : Transport
  rule : Option PortRule

/-- The name of a protocol in a line. -/
def transportName : Transport → Str
  | .tcp => "tcp".toList
  | .udp => "udp".toList

/-- How a blocked packet is answered. -/
def answerTo (udpReject : Str) : Transport → Str
  | .tcp => "tcp-reset".toList
  | .udp => udpReject

/-- The protocols of a rule. -/
def transportsOf : PortProtocol → List Transport
  | .both => [.tcp, .udp]
  | .tcp => [.tcp]
  | .udp => [.udp]

/-- The lines of a rule in the chain. -/
def ruleChain (uid : UInt32) (rule : PortRule) : List ChainRule :=
  (transportsOf rule.protocol).map fun transport => ⟨uid, transport, some rule⟩

/-- The lines of a uid in the chain. -/
def policyChain (target : UInt32 × PortUidPolicy) : List ChainRule :=
  if target.2.allPorts then [⟨target.1, .tcp, none⟩, ⟨target.1, .udp, none⟩]
  else target.2.rules.toList.flatMap (ruleChain target.1)

namespace ChainRule

variable (loopback udpReject : Str) (r : ChainRule)

/-- The words of a line after the chain. -/
def options : List Str :=
  ["-m".toList, "owner".toList, "--uid-owner".toList, Nat.toDigits 10 r.uid.toNat, "-d".toList,
    loopback, "-p".toList, transportName r.transport] ++
      r.rule.elim [] (["--dport".toList, portMatch ·]) ++
    ["-j".toList, "REJECT".toList, "--reject-with".toList, answerTo udpReject r.transport]

/-- The line that a rule of the chain is written as. -/
def line (chain : Str) : Str := words "-A".toList (chain :: r.options loopback udpReject)

/-- What iptables understands by the line. -/
def toFilterRule : FilterRule where
  owner := some r.uid.toNat
  destination := some loopback
  transport := some r.transport
  ports := r.rule.map fun rule => (rule.start.toNat, rule.endPort.toNat)
  target := some (.reject (some (answerTo udpReject r.transport)))

end ChainRule

section Text

variable {chain loopback udpReject : Str}

theorem tcp_text (chain digits loopback : Str) :
    "-A ".toList ++ chain ++ " -m owner --uid-owner ".toList ++ digits ++ " -d ".toList ++
        loopback ++ " -p tcp -j REJECT --reject-with tcp-reset\n".toList =
      unlines [words "-A".toList [chain, "-m".toList, "owner".toList, "--uid-owner".toList, digits,
        "-d".toList, loopback, "-p".toList, "tcp".toList, "-j".toList, "REJECT".toList,
        "--reject-with".toList, "tcp-reset".toList]] := by
  simp [unlines, words]

theorem udp_text (chain digits loopback reject : Str) :
    "-A ".toList ++ chain ++ " -m owner --uid-owner ".toList ++ digits ++ " -d ".toList ++
        loopback ++ " -p udp -j REJECT --reject-with ".toList ++ reject ++ "\n".toList =
      unlines [words "-A".toList [chain, "-m".toList, "owner".toList, "--uid-owner".toList, digits,
        "-d".toList, loopback, "-p".toList, "udp".toList, "-j".toList, "REJECT".toList,
        "--reject-with".toList, reject]] := by
  simp [unlines, words]

theorem port_text (chain digits loopback proto ports reject : Str) :
    "-A ".toList ++ chain ++ " -m owner --uid-owner ".toList ++ digits ++ " -d ".toList ++
        loopback ++ " -p ".toList ++ proto ++ " --dport ".toList ++ ports ++
        " -j REJECT --reject-with ".toList ++ reject ++ "\n".toList =
      unlines [words "-A".toList [chain, "-m".toList, "owner".toList, "--uid-owner".toList, digits,
        "-d".toList, loopback, "-p".toList, proto, "--dport".toList, ports, "-j".toList,
        "REJECT".toList, "--reject-with".toList, reject]] := by
  simp [unlines, words]

/-- The lines that block all ports of a uid. -/
theorem appendFullPortsRules_eq (out chain loopback udpReject : Str) (uid : UInt32) :
    appendFullPortsRules out chain loopback udpReject uid =
      out ++ unlines ([⟨uid, .tcp, none⟩, ⟨uid, .udp, none⟩].map fun r : ChainRule =>
        r.line loopback udpReject chain) := by
  rw [appendFullPortsRules, tcp_text, udp_text, List.append_assoc, ← unlines_append]
  rfl

/-- The line of a rule for one protocol. -/
theorem appendProtocolPortRule_eq (out chain loopback udpReject : Str) (uid : UInt32)
    (transport : Transport) (rule : PortRule) :
    appendProtocolPortRule out chain loopback (transportName transport)
      (answerTo udpReject transport) uid rule =
      out ++ unlines [(⟨uid, transport, some rule⟩ : ChainRule).line loopback udpReject chain] := by
  rw [appendProtocolPortRule, port_text]
  rfl

/-- The lines of a rule. -/
theorem appendPortRule_eq (out chain loopback udpReject : Str) (uid : UInt32) (rule : PortRule) :
    appendPortRule out chain loopback udpReject uid rule =
      out ++ unlines ((ruleChain uid rule).map fun r => r.line loopback udpReject chain) := by
  have htcp : ∀ out, appendProtocolPortRule out chain loopback "tcp".toList "tcp-reset".toList uid
      rule = out ++ unlines [(⟨uid, .tcp, some rule⟩ : ChainRule).line loopback udpReject chain] :=
    fun out =>
    appendProtocolPortRule_eq out chain loopback udpReject uid .tcp rule
  have hudp : ∀ out, appendProtocolPortRule out chain loopback "udp".toList udpReject uid rule =
      out ++ unlines [(⟨uid, .udp, some rule⟩ : ChainRule).line loopback udpReject chain] :=
    fun out =>
    appendProtocolPortRule_eq out chain loopback udpReject uid .udp rule
  rw [appendPortRule, ruleChain]
  cases rule.protocol with
  | both =>
    dsimp only
    rw [htcp, hudp, List.append_assoc, ← unlines_append]
    rfl
  | tcp => exact htcp out
  | udp => exact hudp out

theorem foldl_append_unlines {α : Type} {f : Str → α → Str} {g : α → List Str}
    (h : ∀ out a, f out a = out ++ unlines (g a)) (l : List α) (out : Str) :
    l.foldl f out = out ++ unlines (l.flatMap g) := by
  induction l generalizing out with
  | nil => exact (List.append_nil out).symm
  | cons a l ih =>
    rw [List.foldl_cons, ih, h, List.append_assoc, ← unlines_append, List.flatMap_cons]

/-- The ruleset, line by line. -/
theorem buildPortsRuleset_eq (chain loopback udpReject : Str) (targets : PortTargets) :
    buildPortsRuleset chain loopback udpReject targets =
      unlines ("*filter".toList :: (":".toList ++ chain ++ " - [0:0]".toList) ::
        (((targets.toList.flatMap policyChain).map fun r => r.line loopback udpReject chain) ++
          [words "-A".toList [chain, "-j".toList, "RETURN".toList]] ++ ["COMMIT".toList])) := by
  have htarget : ∀ out (target : UInt32 × PortUidPolicy),
      (if target.2.allPorts then appendFullPortsRules out chain loopback udpReject target.1
        else target.2.rules.toList.foldl
          (fun out rule => appendPortRule out chain loopback udpReject target.1 rule) out) =
        out ++ unlines ((policyChain target).map fun r => r.line loopback udpReject chain) := by
    intro out target
    rw [policyChain]
    split_ifs
    · exact appendFullPortsRules_eq out chain loopback udpReject target.1
    · rw [List.map_flatMap]
      exact foldl_append_unlines
        (fun out rule => appendPortRule_eq out chain loopback udpReject target.1 rule) _ out
  rw [buildPortsRuleset, List.map_flatMap]
  dsimp only
  rw [foldl_append_unlines htarget]
  simp only [unlines_cons, unlines_append]
  simp [unlines, words]

/-- The ports of a rule are read back by iptables. -/
theorem portRange_portMatch {rule : PortRule} (h : rule.start ≤ rule.endPort) :
    portRange (portMatch rule) = some (rule.start.toNat, rule.endPort.toNat) := by
  rw [portMatch]
  split_ifs with hsingle
  · rw [← hsingle]
    exact portRange_single rule.start
  · rw [List.append_assoc]
    exact portRange_range h

theorem isWord_portMatch (rule : PortRule) : IsWord (portMatch rule) := by
  have hdigits : ∀ n, IsWord (Nat.toDigits 10 n) := isWord_toDigits (by decide) (by decide)
  rw [portMatch]
  split_ifs
  · exact hdigits _
  · exact ((hdigits _).append (by decide)).append (hdigits _)

theorem isWord_options (hloopback : IsWord loopback) (hreject : IsWord udpReject) (r : ChainRule) :
    ∀ w ∈ r.options loopback udpReject, IsWord w := by
  have htransport : IsWord (transportName r.transport) := by
    cases r.transport <;> decide
  have hanswer : IsWord (answerTo udpReject r.transport) := by
    cases r.transport with
    | tcp => exact (by decide : IsWord "tcp-reset".toList)
    | udp => exact hreject
  have hports : ∀ w ∈ r.rule.elim [] (["--dport".toList, portMatch ·]), IsWord w := by
    cases r.rule with
    | none => exact fun w hw => absurd hw List.not_mem_nil
    | some rule =>
      intro w hw
      simp only [Option.elim_some, List.mem_cons, List.not_mem_nil, or_false] at hw
      obtain rfl | rfl := hw
      · decide
      · exact isWord_portMatch rule
  intro w hw
  rw [ChainRule.options, List.mem_append, List.mem_append] at hw
  obtain (hw | hw) | hw := hw
  · simp only [List.mem_cons, List.not_mem_nil, or_false] at hw
    obtain rfl | rfl | rfl | rfl | rfl | rfl | rfl | rfl := hw
    · decide
    · decide
    · decide
    · exact isWord_toDigits (by decide) (by decide) _
    · decide
    · exact hloopback
    · decide
    · exact htransport
  · exact hports w hw
  · simp only [List.mem_cons, List.not_mem_nil, or_false] at hw
    obtain rfl | rfl | rfl | rfl := hw
    · decide
    · decide
    · decide
    · exact hanswer

/-- iptables reads the options of a line as they are meant. -/
theorem withOptions_options (loopback udpReject : Str) {r : ChainRule}
    (hrange : ∀ rule, r.rule = some rule → rule.start ≤ rule.endPort) :
    FilterRule.any.withOptions (r.options loopback udpReject) =
      some (r.toFilterRule loopback udpReject) := by
  obtain ⟨uid, transport, rule⟩ := r
  have htransport : transportOf (transportName transport) = some transport := by
    cases transport <;> rfl
  have htarget : targetOf "REJECT".toList = some (.reject none) := rfl
  cases rule with
  | none =>
    simp only [ChainRule.options, Option.elim_none, List.append_nil, List.cons_append,
      List.nil_append, FilterRule.withOptions, withOption_module, withOption_owner,
      withOption_destination,
      withOption_transport _ htransport, withOption_target _ htarget,
      withOption_answer, Option.bind_some]
    rfl
  | some rule =>
    simp only [ChainRule.options, Option.elim_some, List.cons_append, List.nil_append,
      FilterRule.withOptions, withOption_module, withOption_owner, withOption_destination,
      withOption_transport _ htransport, withOption_ports _ (portRange_portMatch (hrange rule rfl)),
      withOption_target _ htarget, withOption_answer, Option.bind_some]
    rfl

/-- The rules are read back, one for each line. -/
theorem restoredRules_buildPortsRuleset (hchain : IsWord chain) (hloopback : IsWord loopback)
    (hreject : IsWord udpReject) {targets : PortTargets}
    (hranges : ∀ r ∈ targets.toList.flatMap policyChain, ∀ rule, r.rule = some rule →
      rule.start ≤ rule.endPort) :
    restoredRules chain (buildPortsRuleset chain loopback udpReject targets) =
      some ((targets.toList.flatMap policyChain).map (·.toFilterRule loopback udpReject) ++
        [{ FilterRule.any with target := some .back }]) := by
  have hreturn : ∀ w ∈ ["-j".toList, "RETURN".toList], IsWord w := by decide
  -- Every line is made of words, so that none holds a break.
  have hprintable :
      ∀ l ∈ (targets.toList.flatMap policyChain).map (fun r => r.line loopback udpReject chain) ++
      [words "-A".toList [chain, "-j".toList, "RETURN".toList]], ∀ c ∈ l, 0x20 ≤ c.toNat := by
    have hwords : ∀ options : List Str, (∀ w ∈ options, IsWord w) →
        ∀ c ∈ words "-A".toList (chain :: options), 0x20 ≤ c.toNat := by
      intro options hoptions c hc
      refine (mem_words (by decide) (fun w hw => ?_) hc).1
      obtain rfl | hw := List.mem_cons.1 hw
      · exact hchain
      · exact hoptions w hw
    intro l hl
    obtain hl | hl := List.mem_append.1 hl
    · obtain ⟨r, -, rfl⟩ := List.mem_map.1 hl
      exact hwords _ (isWord_options hloopback hreject r)
    · obtain rfl := List.mem_singleton.1 hl
      exact hwords _ hreturn
  have hlines :
      ((targets.toList.flatMap policyChain).map (fun r => r.line loopback udpReject chain)).mapM
      (parseRule chain) =
        some ((targets.toList.flatMap policyChain).map (·.toFilterRule loopback udpReject)) := by
    rw [List.mapM_map]
    refine mapM_eq_some_map fun r hr => ?_
    rw [Function.comp_apply, ChainRule.line,
      parseRule_words hchain (isWord_options hloopback hreject r)]
    exact withOptions_options loopback udpReject (hranges r hr)
  -- The last rule returns from the chain.
  have hlast : [words "-A".toList [chain, "-j".toList, "RETURN".toList]].mapM (parseRule chain) =
      some [{ FilterRule.any with target := some .back }] := by
    rw [List.mapM_cons, parseRule_words hchain hreturn]
    rfl
  rw [buildPortsRuleset_eq, restoredRules_unlines hprintable hchain,
    List.mapM_append, hlines, hlast]
  rfl

end Text

/-! ## What is rejected -/

section Verdict

variable {loopback udpReject : Str} {packet : Packet} {targets : PortTargets}

/-- The lines of a uid: those of all ports, or those of its rules. -/
theorem mem_policyChain {target : UInt32 × PortUidPolicy} {r : ChainRule} :
    r ∈ policyChain target ↔ r.uid = target.1 ∧ if target.2.allPorts then r.rule = none
      else ∃ rule ∈ target.2.rules, r.rule = some rule ∧
        r.transport ∈ transportsOf rule.protocol := by
  obtain ⟨uid, transport, rule⟩ := r
  obtain ⟨uid', policy⟩ := target
  rw [policyChain]
  split_ifs with hall
  · cases transport <;> simp
  · simp only [List.mem_flatMap, Std.ExtTreeSet.mem_toList, ruleChain,
      List.mem_map, ChainRule.mk.injEq]
    constructor
    · rintro ⟨rule', hrule, transport', htransport, rfl, rfl, rfl⟩
      exact ⟨rfl, rule', hrule, rfl, htransport⟩
    · rintro ⟨rfl, rule', hrule, rfl, htransport⟩
      exact ⟨rule', hrule, transport, htransport, rfl, rfl, rfl⟩

theorem mem_transportsOf {protocol : PortProtocol} {transport : Transport} :
    transport ∈ transportsOf protocol ↔
      match protocol with
      | .both => True
      | .tcp => transport = .tcp
      | .udp => transport = .udp := by
  cases protocol with
  | both => cases transport <;> simp [transportsOf]
  | tcp => simp [transportsOf]
  | udp => simp [transportsOf]

/-- A line covers a packet if it is of the uid and meets the ports. -/
theorem covers_toFilterRule {r : ChainRule} (hloopback : packet.destination loopback = true) :
    (r.toFilterRule loopback udpReject).covers packet = true ↔
      r.uid = packet.uid ∧ r.transport = packet.transport ∧
        ∀ rule, r.rule = some rule → rule.start ≤ packet.port ∧ packet.port ≤ rule.endPort := by
  obtain ⟨uid, transport, rule⟩ := r
  have huid : uid.toNat = packet.uid.toNat ↔ uid = packet.uid := UInt32.toNat_inj
  cases rule with
  | none => simp [ChainRule.toFilterRule, FilterRule.covers, hloopback, huid]
  | some rule =>
    simp [ChainRule.toFilterRule, FilterRule.covers, hloopback, huid, UInt16.le_iff_toNat_le,
      and_assoc]

/-- A rule of the chain covers a packet if the policy of its uid blocks the port. -/
theorem covers_chain (udpReject : Str) (hloopback : packet.destination loopback = true) :
    (∃ r ∈ (targets.toList.flatMap policyChain).map (·.toFilterRule loopback udpReject),
      r.covers packet = true) ↔
      ∃ policy, targets[packet.uid]? = some policy ∧
        policy.Blocks packet.transport packet.port := by
  simp only [List.mem_map, List.mem_flatMap, exists_exists_and_eq_and,
    covers_toFilterRule hloopback, Prod.exists, Std.ExtTreeMap.mem_toList_iff_getElem?_eq_some,
    mem_policyChain]
  constructor
  · rintro ⟨r, ⟨uid, policy, hpolicy, huid, hrule⟩, hpacket, htransport, hport⟩
    -- a rule of another uid does not cover the packet
    obtain rfl : uid = packet.uid := huid.symm.trans hpacket
    refine ⟨policy, hpolicy, ?_⟩
    split_ifs at hrule with hall
    · exact .inl hall
    · obtain ⟨rule, hmem, hsome, hprotocol⟩ := hrule
      rw [htransport] at hprotocol
      exact .inr ⟨rule, hmem, mem_transportsOf.1 hprotocol, hport rule hsome⟩
  · rintro ⟨policy, hpolicy, hblocks⟩
    by_cases hall : policy.allPorts = true
    · refine ⟨⟨packet.uid, packet.transport, none⟩, ⟨packet.uid, policy, hpolicy, rfl, ?_⟩,
        rfl, rfl, ?_⟩
      · rw [if_pos hall]
      · exact fun rule hrule => by cases hrule
    · obtain ⟨rule, hmem, hprotocol, hport⟩ := hblocks.resolve_left hall
      refine ⟨⟨packet.uid, packet.transport, some rule⟩, ⟨packet.uid, policy, hpolicy, rfl, ?_⟩,
        rfl, rfl, ?_⟩
      · rw [if_neg hall]
        exact ⟨rule, hmem, rfl, mem_transportsOf.2 hprotocol⟩
      · intro rule' hrule'
        obtain rfl := Option.some.inj hrule'
        exact hport

end Verdict

/-- The uid is one of an app, and one of its packages blocks the port: it has the role, and either
    no policy or a rule about the port. -/
def Rejected (cfg : CanonicalConfig) (packages : StrMap (List UInt32)) (packet : Packet) : Prop :=
  isAppUid packet.uid = true ∧ ∃ (pkg : Str) (app : AppConfig), cfg.apps[pkg]? = some app ∧
    app.ports = true ∧ packet.uid ∈ uidsFor packages pkg ∧
    app.BlocksPort packet.transport packet.port

section Project

variable {cfg : CanonicalConfig} {packages : StrMap (List UInt32)} {packet : Packet}

/-- A packet is rejected if the policy of its uid blocks it. -/
theorem rejected_iff :
    Rejected cfg packages packet ↔
      ∃ policy, (portTargets cfg.apps.toList packages)[packet.uid]? = some policy ∧
        policy.Blocks packet.transport packet.port := by
  rw [getElem?_portTargets, blocks_foldl_mergeOption]
  simp only [reduceCtorEq, false_and, exists_false, false_or, sharesOf, List.mem_map,
    List.mem_filter, decide_eq_true_eq, Prod.exists]
  constructor
  · rintro ⟨huid, pkg, app, happ, hports, howned, hblocks⟩
    have hshare :=
      mem_portShares.2 ⟨pkg, Std.ExtTreeMap.mem_toList_iff_getElem?_eq_some.2 happ,
        hports, howned, huid⟩
    exact ⟨app, ⟨packet.uid, app, ⟨hshare, rfl⟩, rfl⟩, hblocks⟩
  · rintro ⟨app, ⟨uid, app', ⟨hshare, rfl⟩, rfl⟩, hblocks⟩
    obtain ⟨pkg, hmem, hports, howned, huid⟩ := mem_portShares.1 hshare
    exact ⟨huid, pkg, app', Std.ExtTreeMap.mem_toList_iff_getElem?_eq_some.1 hmem,
      hports, howned, hblocks⟩

theorem validatePortPolicies_of_parse {text : JsonText} {json : Str}
    (hparse : parseCanonical text json = .ok cfg) :
    validatePortPolicies cfg = .ok () := by
  obtain ⟨root, -, hparse⟩ := ok_of_bind hparse
  obtain ⟨read, -, hparse⟩ := ok_of_bind hparse
  dsimp only at hparse
  by_cases hversion : schemaVersion < read.version
  · rw [if_pos hversion] at hparse
    cases hparse
  rw [if_neg hversion] at hparse
  obtain ⟨_, hvalid, hread⟩ := ok_of_bind hparse
  obtain rfl := Except.ok.inj hread
  exact hvalid

/-- In a config that is read, every range of ports has its ends in order. -/
theorem start_le_endPort (hvalid : validatePortPolicies cfg = .ok ()) {pkg : Str} {app : AppConfig}
    (happ : cfg.apps[pkg]? = some app) {policy : PortPolicy}
    (hpolicy : app.portPolicy = some policy)
    {rule : PortRule} (hrule : rule ∈ policy.rules) : rule.start ≤ rule.endPort := by
  have happ' := forM_ok hvalid (Std.ExtTreeMap.mem_toList_iff_getElem?_eq_some.2 happ)
  dsimp only at happ'
  rw [hpolicy] at happ'
  dsimp only at happ'
  rw [if_neg (List.ne_nil_of_mem hrule)] at happ'
  have hcheck := forM_ok happ' hrule
  rw [checkRule] at hcheck
  by_contra hlt
  by_cases hzero : rule.start = 0 ∨ rule.endPort = 0
  · rw [if_pos hzero] at hcheck
    cases hcheck
  · rw [if_neg hzero, if_pos (UInt16.not_le.1 hlt)] at hcheck
    cases hcheck

/-- The ranges in the chain are in order. -/
theorem start_le_endPort_chain (hvalid : validatePortPolicies cfg = .ok ()) {r : ChainRule}
    (hr : r ∈ (portTargets cfg.apps.toList packages).toList.flatMap policyChain) {rule : PortRule}
    (hrule : r.rule = some rule) : rule.start ≤ rule.endPort := by
  obtain ⟨⟨uid, policy⟩, htarget, hr⟩ := List.mem_flatMap.1 hr
  have hpolicy := Std.ExtTreeMap.mem_toList_iff_getElem?_eq_some.1 htarget
  rw [getElem?_portTargets] at hpolicy
  obtain ⟨-, hr⟩ := mem_policyChain.1 hr
  split_ifs at hr
  · rw [hr] at hrule
    cases hrule
  · obtain ⟨rule', hmem, hsome, -⟩ := hr
    obtain rfl := Option.some.inj (hsome.symm.trans hrule)
    obtain ⟨p, hp, -⟩ | ⟨app, happ, portPolicy, hportPolicy, r', hr', rfl⟩ :=
      rule_of_foldl_mergeOption hpolicy hmem
    · cases hp
    · obtain ⟨share, hshare, rfl⟩ := List.mem_map.1 happ
      obtain ⟨pkg, happ, -⟩ := mem_portShares.1 (List.mem_filter.1 hshare).1
      rw [start_normalized, endPort_normalized]
      exact start_le_endPort hvalid (Std.ExtTreeMap.mem_toList_iff_getElem?_eq_some.1 happ)
        hportPolicy hr'

/-- A chain that is filled for a network rejects what the config says, and returns otherwise. -/
def Judges (cfg : CanonicalConfig) (packages : StrMap (List UInt32)) (loopback : Str)
    (rules : List FilterRule) : Prop :=
  ∀ packet : Packet, packet.destination loopback = true →
    ((∃ answer, verdict rules packet = some (.reject answer)) ↔ Rejected cfg packages packet) ∧
      (verdict rules packet = some .back ↔ ¬Rejected cfg packages packet)

/-- iptables judges packets by the chain as the policies say. -/
theorem judges_buildPortsRuleset {chain loopback udpReject : Str} (hchain : IsWord chain)
    (hloopback : IsWord loopback) (hreject : IsWord udpReject)
    (hvalid : validatePortPolicies cfg = .ok ()) (packages : StrMap (List UInt32)) :
    ∃ rules, restoredRules chain
        (buildPortsRuleset chain loopback udpReject (portTargets cfg.apps.toList packages)) =
          some rules ∧
      Judges cfg packages loopback rules := by
  refine ⟨_, restoredRules_buildPortsRuleset hchain hloopback hreject fun r hr rule hrule =>
    start_le_endPort_chain hvalid hr hrule, fun packet hpacket => ?_⟩
  have hrejects : ∀ r ∈ ((portTargets cfg.apps.toList packages).toList.flatMap policyChain).map
      (·.toFilterRule loopback udpReject), ∃ answer, r.target = some (.reject answer) := by
    intro r hr
    obtain ⟨r', -, rfl⟩ := List.mem_map.1 hr
    exact ⟨_, rfl⟩
  obtain ⟨hreject, hback⟩ := verdict_rejects hrejects
  refine ⟨hreject.trans ((covers_chain udpReject hpacket).trans rejected_iff.symm), hback.trans ?_⟩
  rw [rejected_iff, ← covers_chain udpReject hpacket]
  simp only [not_exists, not_and, Bool.not_eq_true]

end Project

/-- The rulesets mean what the config says: read back as chains, they reject a packet to a loopback
    address if one of the packages of its uid blocks the port, and return otherwise. They do not
    depend on the order in which packages are merged. -/
theorem projectPorts_exact (text : JsonText) (json : Str) (cfg : CanonicalConfig)
    (hparse : parseCanonical text json = .ok cfg) (packages : StrMap (List UInt32)) :
    (∃ rules, restoredRules portsChain4 (projectPortsWithResolver cfg packages).ipv4 = some rules ∧
      Judges cfg packages loopback4 rules) ∧
    (∃ rules, restoredRules portsChain6 (projectPortsWithResolver cfg packages).ipv6 = some rules ∧
      Judges cfg packages loopback6 rules) ∧
    ∀ apps : List (Str × AppConfig), apps.Perm cfg.apps.toList →
      portsRuleset (portTargets apps packages) = projectPortsWithResolver cfg packages := by
  have hvalid := validatePortPolicies_of_parse hparse
  refine ⟨?_, ?_, fun apps happs => ?_⟩
  · exact judges_buildPortsRuleset (by decide) (by decide) (by decide) hvalid packages
  · exact judges_buildPortsRuleset (by decide) (by decide) (by decide) hvalid packages
  · rw [projectPortsWithResolver, portTargets_perm happs]

/-- A config with a policy for one package. -/
def portsJson : Str :=
  "\x7b\"apps\":\x7b\"a\":\x7b\"ports\":true,\"portPolicy\":\x7b\"rules\":[\x7b\"start\":80\x7d]\x7d\x7d\x7d\x7d".toList

/-- The config with one app whose port 80 is blocked, as a value. -/
def portsRoot : Json :=
  .object [("apps".toList, .object [("a".toList, .object [("ports".toList, .bool true),
    ("portPolicy".toList,
      .object [("rules".toList, .array [.object [("start".toList, .number (.posInt 80))]])])])])]

/-- JSON for which just this text is known. -/
def portsText : JsonText where
  toString _ := portsJson
  fromStr json := if json = portsJson then .ok portsRoot else .error "expected value".toList

/-- The app of that config. -/
def portsApp : AppConfig where
  java := false
  native := .enabled false
  appHiding := false
  ports := true
  portPolicy := some ⟨none, none, [⟨80, none, .both⟩]⟩

/-- The config, read. -/
def portsConfig : CanonicalConfig where
  version := 1
  debug := false
  apps := .ofList [("a".toList, portsApp)]
  settings := ⟨false, ∅⟩

/-- The uid of the app. -/
def portsPackages : StrMap (List UInt32) := (∅ : StrMap (List UInt32)).insert "a".toList [10123]

theorem projectPorts_exact_one :
    parseCanonical portsText portsJson = .ok portsConfig ∧
      ∃ rules, restoredRules portsChain4 (projectPortsWithResolver portsConfig portsPackages).ipv4 =
        some rules ∧ Judges portsConfig portsPackages loopback4 rules := by
  have hvalid : validatePortPolicies portsConfig = .ok () := by decide +kernel
  have hparse : parseCanonical portsText portsJson = .ok portsConfig := by
    have hroot : portsText.fromStr portsJson = .ok portsRoot := by
      dsimp only [portsText]
      rw [if_pos rfl]
    have hread : readConfig portsRoot = some portsConfig := rfl
    rw [parseCanonical, hroot]
    dsimp only [Except.mapError, bind, Except.bind]
    rw [hread]
    dsimp only [Option.elim_some]
    rw [if_neg (by decide)]
    dsimp only [pure, Except.pure]
    rw [hvalid]
  exact ⟨hparse, (projectPorts_exact portsText portsJson portsConfig hparse portsPackages).1⟩

end VpnHide.Activator

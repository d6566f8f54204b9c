import VpnHide.Lib.Str

/-!
# Packet filters

Chains of filter rules, in the format of `iptables-restore`: what a text leaves in a chain
(`restoredRules`), and what the chain does with a packet. The first rule that covers a packet
decides (`verdict`).

Options come in pairs of a flag and its value. Of destinations only the name of a network is
known; which networks a packet's destination lies in is part of the packet.
-/

namespace VpnHide.Lib.PacketFilter

open Str

/-- The protocols with ports. -/
inductive Transport
  | tcp
  | udp
  deriving DecidableEq

/-- What happens to a packet, and the answer that a rejected one gets. -/
inductive Target
  | reject (answer : Option Str)
  | back
  deriving DecidableEq

/-- A rule, where what is missing is not restricted. -/
structure FilterRule where
  owner : Option ℕ
  destination : Option Str
  transport : Option Transport
  /-- The first and the last port. -/
  ports : Option (ℕ × ℕ)
  target : Option Target
  deriving DecidableEq

/-- A packet on its way out. -/
structure Packet where
  uid : UInt32
  /-- Whether the destination lies in a network. -/
  destination : Str → Bool
  transport : Transport
  port : UInt16

namespace FilterRule

/-- The rule without conditions. -/
def any : FilterRule := ⟨none, none, none, none, none⟩

/-- A packet meets the conditions of a rule. -/
def covers (rule : FilterRule) (packet : Packet) : Bool :=
  rule.owner.all (· = packet.uid.toNat) && rule.destination.all packet.destination &&
    rule.transport.all (· = packet.transport) &&
    rule.ports.all fun (first, last) => first ≤ packet.port.toNat && packet.port.toNat ≤ last

end FilterRule

/-- The first rule that covers the packet decides. -/
def verdict (rules : List FilterRule) (packet : Packet) : Option Target :=
  (rules.find? (·.covers packet)).bind (·.target)

/-! ## Texts -/

/-- The protocol of a name. -/
def transportOf (name : Str) : Option Transport :=
  if name = "tcp".toList then some .tcp else if name = "udp".toList then some .udp else none

/-- A port. -/
def portOf (text : Str) : Option ℕ := fromStrRadix 10 65535 text

/-- A port, or the first and the last of a range. -/
def portRange (text : Str) : Option (ℕ × ℕ) :=
  match splitOnce ':' text with
  | none => (portOf text).map fun port => (port, port)
  | some (first, last) => do
    let first ← portOf first
    let last ← portOf last
    if first ≤ last then some (first, last) else none

/-- The target of a name. -/
def targetOf (name : Str) : Option Target :=
  if name = "REJECT".toList then some (.reject none) else if name = "RETURN".toList then
    some .back else none

/-- A flag with its value. -/
def FilterRule.withOption (rule : FilterRule) (flag value : Str) : Option FilterRule :=
  if flag = "-m".toList then if value = "owner".toList then some rule else none
  else if flag = "--uid-owner".toList then
    (fromStrRadix 10 (2 ^ 32 - 1) value).map fun uid => { rule with owner := some uid }
  else if flag = "-d".toList then some { rule with destination := some value }
  else if flag = "-p".toList then (transportOf value).map fun transport =>
    { rule with transport := some transport }
  else if flag = "--dport".toList then (portRange value).map fun ports =>
    { rule with ports := some ports }
  else if flag = "-j".toList then (targetOf value).map fun target =>
    { rule with target := some target }
  else if flag = "--reject-with".toList then
    -- an option of the target, which has to be there before it
    if rule.target = some (.reject none) then
      some { rule with target := some (.reject (some value)) } else none
  else none

/-- A rule with options, each of them a flag and a value. -/
def FilterRule.withOptions : FilterRule → List Str → Option FilterRule
  | rule, [] => some rule
  | rule, flag :: value :: rest => (rule.withOption flag value).bind (·.withOptions rest)
  | _, [_] => none

/-- The rule that a line appends to a chain. -/
def parseRule (chain line : Str) : Option FilterRule :=
  match splitWhitespace line with
  | command :: name :: options =>
    if command = "-A".toList ∧ name = chain then FilterRule.any.withOptions options else none
  | _ => none

/-- The rules of a chain that a text declares and fills. -/
def restoredRules (chain text : Str) : Option (List FilterRule) :=
  match lines text with
  | table :: declaration :: rest =>
    if table = "*filter".toList ∧ declaration = ":".toList ++ chain ++ " - [0:0]".toList ∧
        rest.getLast? = some "COMMIT".toList then
      rest.dropLast.mapM (parseRule chain)
    else none
  | _ => none

/-! ## Reading what was written -/

section Texts

variable {chain : Str}

/-- A line of words is parsed word by word. -/
theorem parseRule_words (hchain : IsWord chain) {options : List Str}
    (hoptions : ∀ w ∈ options, IsWord w) :
    parseRule chain (words "-A".toList (chain :: options)) =
      FilterRule.any.withOptions options := by
  have hwords : ∀ w ∈ chain :: options, IsWord w := by
    intro w hw
    obtain rfl | hw := List.mem_cons.1 hw
    · exact hchain
    · exact hoptions w hw
  rw [parseRule, splitWhitespace_words (by decide) hwords]
  exact if_pos ⟨rfl, rfl⟩

/-! The value of each flag. -/

section Options

variable (rule : FilterRule)

theorem withOption_module : rule.withOption "-m".toList "owner".toList = some rule := rfl

/-- A condition on the owner. -/
theorem withOption_owner (uid : UInt32) :
    rule.withOption "--uid-owner".toList (Nat.toDigits 10 uid.toNat) =
      some { rule with owner := some uid.toNat } := by
  have huid : fromStrRadix 10 (2 ^ 32 - 1) (Nat.toDigits 10 uid.toNat) = some uid.toNat :=
    fromStrRadix_toDigits (by decide) (by decide) (by decide) (Nat.le_sub_one_of_lt uid.toNat_lt)
  rw [FilterRule.withOption, if_neg (by decide), if_pos rfl, huid, Option.map_some]

/-- A condition on the destination. -/
theorem withOption_destination (network : Str) :
    rule.withOption "-d".toList network = some { rule with destination := some network } := by
  rw [FilterRule.withOption, if_neg (by decide), if_neg (by decide), if_pos rfl]

/-- A condition on the protocol. -/
theorem withOption_transport {name : Str} {transport : Transport}
    (h : transportOf name = some transport) :
    rule.withOption "-p".toList name = some { rule with transport := some transport } := by
  rw [FilterRule.withOption, if_neg (by decide), if_neg (by decide), if_neg (by decide), if_pos rfl,
    h, Option.map_some]

/-- A condition on the ports. -/
theorem withOption_ports {text : Str} {ports : ℕ × ℕ} (h : portRange text = some ports) :
    rule.withOption "--dport".toList text = some { rule with ports := some ports } := by
  rw [FilterRule.withOption, if_neg (by decide), if_neg (by decide), if_neg (by decide),
    if_neg (by decide), if_pos rfl, h, Option.map_some]

/-- The target of a rule. -/
theorem withOption_target {name : Str} {target : Target} (h : targetOf name = some target) :
    rule.withOption "-j".toList name = some { rule with target := some target } := by
  rw [FilterRule.withOption, if_neg (by decide), if_neg (by decide), if_neg (by decide),
    if_neg (by decide), if_neg (by decide), if_pos rfl, h, Option.map_some]

/-- The answer of a rule. -/
theorem withOption_answer {rule : FilterRule} (h : rule.target = some (.reject none))
    (answer : Str) :
    rule.withOption "--reject-with".toList answer =
      some { rule with target := some (.reject (some answer)) } := by
  rw [FilterRule.withOption, if_neg (by decide), if_neg (by decide), if_neg (by decide),
    if_neg (by decide), if_neg (by decide), if_neg (by decide), if_pos rfl, if_pos h]

end Options

theorem notMem_toDigits (n : ℕ) : ':' ∉ Nat.toDigits 10 n := by
  intro hmem
  obtain ⟨d, hd, hdigit⟩ := exists_digitChar_of_mem_toDigits (by decide) hmem
  exact (by decide : ∀ d < 10, ':' ≠ Nat.digitChar d) d hd hdigit

/-- A port is read back. -/
theorem portOf_toDigits (port : UInt16) : portOf (Nat.toDigits 10 port.toNat) = some port.toNat :=
  fromStrRadix_toDigits (by decide) (by decide) (by decide) (Nat.le_of_lt_succ port.toNat_lt)

/-- A single port is read back. -/
theorem portRange_single (port : UInt16) :
    portRange (Nat.toDigits 10 port.toNat) = some (port.toNat, port.toNat) := by
  have hnone : splitOnce ':' (Nat.toDigits 10 port.toNat) = none :=
    if_neg (notMem_toDigits port.toNat)
  rw [portRange, hnone, portOf_toDigits]
  rfl

/-- A range of ports is read back. -/
theorem portRange_range {first last : UInt16} (h : first ≤ last) :
    portRange (Nat.toDigits 10 first.toNat ++ ':' :: Nat.toDigits 10 last.toNat) =
      some (first.toNat, last.toNat) := by
  rw [portRange, splitOnce_append (notMem_toDigits first.toNat)]
  dsimp only
  rw [portOf_toDigits, portOf_toDigits]
  exact if_pos h

/-- The rules of a text, line by line. -/
theorem restoredRules_unlines {ruleLines : List Str}
    (hlines : ∀ l ∈ ruleLines, ∀ c ∈ l, 0x20 ≤ c.toNat) (hchain : IsWord chain) :
    restoredRules chain (unlines ("*filter".toList :: (":".toList ++ chain ++ " - [0:0]".toList) ::
      (ruleLines ++ ["COMMIT".toList]))) = ruleLines.mapM (parseRule chain) := by
  have hdeclaration : ∀ c ∈ ":".toList ++ chain ++ " - [0:0]".toList, 0x20 ≤ c.toNat := by
    intro c hc
    obtain hc | hc := List.mem_append.1 hc
    · obtain hc | hc := List.mem_append.1 hc
      · exact (by decide : ∀ c ∈ ":".toList, 0x20 ≤ c.toNat) c hc
      · exact (Nat.le_succ 0x20).trans (hchain.2 c hc).1
    · exact (by decide : ∀ c ∈ " - [0:0]".toList, 0x20 ≤ c.toNat) c hc
  have hprintable : ∀ l ∈ "*filter".toList :: (":".toList ++ chain ++ " - [0:0]".toList) ::
      (ruleLines ++ ["COMMIT".toList]), ∀ c ∈ l, 0x20 ≤ c.toNat := by
    intro l hl
    simp only [List.mem_cons, List.mem_append, List.not_mem_nil, or_false] at hl
    obtain rfl | rfl | hl | rfl := hl
    · decide
    · exact hdeclaration
    · exact hlines l hl
    · decide
  rw [restoredRules, lines_unlines hprintable]
  simp

end Texts

/-! ## Verdicts -/

section Verdicts

variable {rules : List FilterRule} {packet : Packet}

/-- In a chain that rejects and then returns, a packet is rejected if some rule covers it. -/
theorem verdict_rejects (hrules : ∀ r ∈ rules, ∃ answer, r.target = some (.reject answer)) :
    let chain := rules ++ [{ FilterRule.any with target := some .back }]
    ((∃ answer, verdict chain packet = some (.reject answer)) ↔
      ∃ r ∈ rules, r.covers packet = true) ∧
      (verdict chain packet = some .back ↔ ∀ r ∈ rules, r.covers packet = false) := by
  intro chain
  -- the last rule covers every packet that reaches it
  cases hfind : rules.find? (·.covers packet) with
  | none =>
    have hnone : ∀ r ∈ rules, r.covers packet = false :=
      fun r hr => by simpa using List.find?_eq_none.1 hfind r hr
    have hverdict : verdict chain packet = some .back := by
      rw [verdict, List.find?_append, hfind]
      rfl
    rw [hverdict]
    refine ⟨⟨?_, ?_⟩, ⟨fun _ => hnone, fun _ => rfl⟩⟩
    · rintro ⟨answer, h⟩
      cases h
    · rintro ⟨r, hr, hcovers⟩
      rw [hnone r hr] at hcovers
      cases hcovers
  | some r =>
    have hr := List.mem_of_find?_eq_some hfind
    have hcovers := List.find?_some hfind
    obtain ⟨answer, htarget⟩ := hrules r hr
    have hverdict : verdict chain packet = some (.reject answer) := by
      rw [verdict, List.find?_append, hfind]
      exact htarget
    rw [hverdict]
    refine ⟨⟨fun _ => ⟨r, hr, hcovers⟩, fun _ => ⟨answer, rfl⟩⟩, ⟨fun h => ?_, fun h => ?_⟩⟩
    · cases h
    · rw [h r hr] at hcovers
      cases hcovers

end Verdicts

end VpnHide.Lib.PacketFilter

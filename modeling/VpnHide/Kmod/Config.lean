import VpnHide.Kmod.Lexical
import VpnHide.Protocol.Config

/-!
# Config snapshots in the kernel

`vpnhide_parse_config` of `kmod/shared/vpnhide_logic.h` reads a `config` payload
into an array of its caller. The array is a function `ℕ → Target`, of which the
first `n` cells are in use; it is written in place, so that a payload rejected
halfway leaves its targets behind.

The kernel reads what the crate `protocol` reads (`parseConfig_agrees`): one step of
either loop keeps the two states in relation (`Sim`), so that both go through a
payload side by side, and give up at the same point.
-/

namespace VpnHide.Kmod

open Lib Protocol

/-! ## The reader -/

/-- Writing a target, keeping `out[0..n)` sorted; `none` if there is no room for it. -/
def targetSet (out : ℕ → Target) (n max : ℕ) (uid hookmask : UInt32) : Option ((ℕ → Target) × ℕ) :=
  match bisect (fun i => (out i).uid) uid 0 (n - 1) with
  | .hit mid => some (Function.update out mid { out mid with hookmask }, n)
  | .miss pos =>
    if max ≤ n then none
    else some (Function.update (shiftUp pos n out) pos ⟨uid, hookmask⟩, n + 1)

/-- The caller's memory and the locals of the reader. -/
structure ParseState where
  out : ℕ → Target
  n : ℕ
  debug : ℤ
  defaultMask : UInt32
  uidsSeen : ℕ
  declared : ℕ
  haveEnd : Bool

theorem nextToken_lt {b : Bytes} {p le ts te : ℕ} (h : nextToken b p le = some (ts, te)) :
    le - te < le - p := by
  have hb := nextToken_bounds h
  rw [nextToken] at h
  split_ifs at h with hp
  obtain ⟨rfl, -⟩ := Prod.mk.inj (Option.some.inj h)
  omega

/-- Reading the uids of a `targets` record from `p` on; an error is `return -1`. -/
def targetUids (b : Bytes) (le max : ℕ) (hm : UInt32) (p : ℕ) (s : ParseState) :
    Except ParseState ParseState :=
  match _h : nextToken b p le with
  | none => .ok s
  | some (ts, te) =>
    match tokHexBare b ts te 32 with
    -- A malformed uid is not skipped: it would desync the count.
    | none => .error s
    | some uid =>
      let s := { s with uidsSeen := s.uidsSeen + 1 }
      match targetSet s.out s.n max uid.toUInt32 hm with
      | none => .error s
      | some (out, n) => targetUids b le max hm te { s with out, n }
termination_by le - p
decreasing_by exact nextToken_lt ‹_›

/-- Reading the tokens `[cs, le)` of a significant line. -/
def parseTokens (b : Bytes) (max cs le : ℕ) (s : ParseState) : Except ParseState ParseState :=
  match nextToken b cs le with
  | none => .ok s
  | some (ts, te) =>
    if tokEq b ts te (ascii "debug") then
      match nextToken b te le with
      | none => .ok s
      | some (ts, te) =>
        if tokEq b ts te (ascii "0") then .ok { s with debug := 0 }
        else if tokEq b ts te (ascii "1") then .ok { s with debug := 1 }
        else .ok s
    else if tokEq b ts te (ascii "default") then
      match nextToken b te le with
      | none => .ok s
      | some (ts, te) =>
        match tokHexBare b ts te 32 with
        | none => .ok s
        | some dm => .ok { s with defaultMask := dm.toUInt32 }
    else if tokEq b ts te (ascii "targets") then
      match nextToken b te le with
      | none => .ok s
      | some (ts, te) =>
        match tokHexBare b ts te 32 with
        -- A malformed group head skips the line.
        | none => .ok s
        | some hm => targetUids b le max hm.toUInt32 te s
    else if tokEq b ts te (ascii "end") then
      match nextToken b te le with
      | none => .ok s
      | some (ts, te) =>
        match tokHexBare b ts te 32 with
        | none => .ok s
        | some declared => .ok { s with declared, haveEnd := true }
    else .ok s

/-- What the reader returns, and what it leaves in the caller's memory. -/
structure ParseResult where
  ret : ℤ
  out : ℕ → Target
  debug : ℤ
  defaultMask : UInt32

/-- Reading a `config` payload into `out`, of capacity `max`: the number of targets,
    or `-1` if the payload is rejected whole. `debug` is left as it was if there is no
    `debug` record. -/
def parseConfig (b : Bytes) (out : ℕ → Target) (max : ℕ) (debug : ℤ) (defaultMask : UInt32) :
    ParseResult :=
  let (k, i) := parseHeader b
  if k ≠ some .config then ⟨-1, out, debug, defaultMask⟩
  else
    match forLines b (parseTokens b max) i ⟨out, 0, debug, 0, 0, 0, false⟩ with
    | .error s => ⟨-1, s.out, s.debug, s.defaultMask⟩
    | .ok s =>
      if !s.haveEnd || s.declared ≠ s.uidsSeen then ⟨-1, s.out, s.debug, s.defaultMask⟩
      else ⟨s.n, s.out, s.debug, s.defaultMask⟩

/-! ## One table -/

variable {b : Bytes} {out : ℕ → Target} {n max : ℕ}

/-- Writing a target into a sorted table is an upsert, if it fits. -/
theorem targetSet_spec (hs : SortedBy Target.uid (cells out n)) (hn : n ≤ max)
    (uid hookmask : UInt32) :
    (targetSet out n max uid hookmask).map (fun r => cells r.1 r.2) =
      if (upsert Target.uid ⟨uid, hookmask⟩ (cells out n)).length ≤ max then
        some (upsert Target.uid ⟨uid, hookmask⟩ (cells out n)) else none := by
  have hspec := bisect_spec (a := fun i => (out i).uid) (sortedBy_cells hs) uid
  rw [targetSet]
  cases hf : bisect (fun i => (out i).uid) uid 0 (n - 1) with
  | hit mid =>
    rw [hf] at hspec
    obtain ⟨hmid, huid⟩ := hspec
    have hup : upsert Target.uid ⟨uid, hookmask⟩ (cells out n) =
        (cells out n).set mid ⟨uid, hookmask⟩ :=
      upsert_eq_set hs (by simpa using hmid) (by simpa [cells] using huid)
    rw [hup, List.length_set, length_cells, if_pos hn]
    dsimp only
    rw [Option.map_some, cells_update, ← huid]
  | miss pos =>
    rw [hf] at hspec
    obtain ⟨hpos, hlt, hgt⟩ := hspec
    have hup : upsert Target.uid ⟨uid, hookmask⟩ (cells out n) =
        (cells out n).take pos ++ ⟨uid, hookmask⟩ :: (cells out n).drop pos := by
      refine upsert_eq_insert (fun x hx => ?_) fun x hx => ?_
      · obtain ⟨j, hj, rfl⟩ := List.mem_iff_getElem.1 hx
        rw [List.length_take, length_cells] at hj
        simpa [cells] using hlt j (by omega)
      · obtain ⟨j, hj, rfl⟩ := List.mem_iff_getElem.1 hx
        rw [List.length_drop, length_cells] at hj
        simpa [cells] using hgt (pos + j) (by omega) (by omega)
    -- The new entry takes one cell, so that a full table has no room for it.
    have hlen := congrArg List.length (cells_shiftUp (a := out) hpos ⟨uid, hookmask⟩)
    rw [length_cells] at hlen
    rw [hup, ← hlen]
    dsimp only
    split_ifs
    · omega
    · rfl
    · rw [Option.map_some, cells_shiftUp hpos]
    · omega

/-! ## Two readers, side by side -/

/-- The kernel's spelling of the debug flag. -/
def debugCode : Option Bool → ℤ
  | none => -1
  | some false => 0
  | some true => 1

/-- The state of the kernel's reader stands for that of the crate's. -/
structure Sim (c : ParseState) (s : ConfigState) : Prop where
  good : s.Good
  targets : cells c.out c.n = s.cfg.targets
  debug : c.debug = debugCode s.cfg.debug
  defaultMask : c.defaultMask = s.cfg.defaultMask
  uidsSeen : c.uidsSeen = s.uidsSeen
  declared : (if c.haveEnd then some c.declared else none) = s.declared

variable {c : ParseState} {s : ConfigState}

/-- Both write a target, or neither has room for it. -/
theorem Sim.targetSet (h : Sim c s) (uid mask : UInt32) :
    (Kmod.targetSet c.out c.n maxTargetUids uid mask).map (fun r => cells r.1 r.2) =
      setTarget s.cfg.targets uid mask := by
  have hs : SortedBy Target.uid (cells c.out c.n) := h.targets ▸ h.good.sorted
  have hn : c.n ≤ maxTargetUids := by simpa [← h.targets] using h.good.fits
  rw [targetSet_spec hs hn, h.targets, setTarget_eq h.good.sorted h.good.fits]

/-- Both readers take the same uids. -/
theorem targetUids_sim {le p : ℕ} (hp : p ≤ le) (he : le ≤ b.length) (hm : UInt32) (h : Sim c s) :
    RelOut Sim (targetUids b le maxTargetUids hm p c)
      ((tokens (slice b p le)).foldlM (configUid hm) s) := by
  induction hw : le - p using Nat.strong_induction_on generalizing p c s with
  | _ w ih =>
    have htok := nextToken_spec hp he
    rw [targetUids]
    split
    · rename_i hnone
      rw [hnone] at htok
      rw [htok]
      exact h
    · rename_i ts te hsome
      rw [hsome] at htok
      obtain ⟨hte, htoks⟩ := htok
      rw [htoks, List.foldlM_cons, configUid, tokHexBare_eq _ (hte.trans he)]
      cases parseHexBare (slice b ts te) 32 with
      | none => trivial
      | some uid =>
        have hset := h.targetSet uid.toUInt32 hm
        dsimp only
        -- Both tables are full, or both take the uid.
        cases hc : Kmod.targetSet c.out c.n maxTargetUids uid.toUInt32 hm with
        | none =>
          rw [hc, Option.map_none] at hset
          simp only [Option.bind_eq_bind, Option.bind_some, ← hset, Option.bind_none]
          trivial
        | some r =>
          rw [hc, Option.map_some] at hset
          simp only [Option.bind_eq_bind, Option.bind_some, ← hset, Option.pure_def]
          have hgood := sorted_setTarget h.good.sorted h.good.fits hset.symm
          exact ih _ (hw ▸ nextToken_lt hsome) hte ⟨⟨hgood.1, hgood.2⟩, rfl, h.debug, h.defaultMask,
            congrArg (· + 1) h.uidsSeen, h.declared⟩ rfl

/-- The argument of a record, as a bare hexadecimal token. -/
theorem hexArgument_eq {le p : ℕ} (hp : p ≤ le) (he : le ≤ b.length) :
    (tokens (slice b p le)).head?.bind (parseHexBare · 32) =
      (nextToken b p le).bind fun t => tokHexBare b t.1 t.2 32 := by
  have htok := nextToken_spec hp he
  cases ht : nextToken b p le with
  | none =>
    rw [ht] at htok
    rw [htok]
    rfl
  | some t =>
    rw [ht] at htok
    rw [htok.2, Option.bind_some, tokHexBare_eq _ (htok.1.trans he)]
    rfl

/-- Both readers take the same tokens. -/
theorem parseTokens_sim {cs le : ℕ} (hp : cs ≤ le) (he : le ≤ b.length) (h : Sim c s) :
    RelOut Sim (parseTokens b maxTargetUids cs le c) (configTokens s (tokens (slice b cs le))) := by
  have htok := nextToken_spec hp he
  rw [parseTokens]
  cases ht : nextToken b cs le with
  | none =>
    rw [ht] at htok
    rw [htok]
    exact h
  | some t =>
    obtain ⟨ts, te⟩ := t
    rw [ht] at htok
    obtain ⟨hte, htoks⟩ := htok
    have harg := nextToken_spec hte he
    have hhex := hexArgument_eq hte he
    rw [htoks, configTokens]
    simp only [tokEq_eq _ (nextToken_bounds ht).2.le (hte.trans he), decide_eq_true_eq]
    rw [hhex]
    cases ha : nextToken b te le with
    | none =>
      rw [ha] at harg
      rw [harg]
      split_ifs <;> first | exact h | simp_all
    | some t' =>
      obtain ⟨ts', te'⟩ := t'
      rw [ha] at harg
      obtain ⟨hte', harg⟩ := harg
      rw [harg, Option.bind_some]
      simp only [tokEq_eq _ (nextToken_bounds ha).2.le (hte'.trans he), decide_eq_true_eq,
        List.head?_cons, Option.some.injEq, List.tail_cons]
      split_ifs
      -- `debug` with its two flags or none, `default`, `targets`, `end`, and what is unknown.
      · exact { h with good := ⟨h.good.sorted, h.good.fits⟩, debug := rfl }
      · exact { h with good := ⟨h.good.sorted, h.good.fits⟩, debug := rfl }
      · exact h
      · cases tokHexBare b ts' te' 32 with
        | none => exact h
        | some dm => exact { h with good := ⟨h.good.sorted, h.good.fits⟩, defaultMask := rfl }
      · cases tokHexBare b ts' te' 32 with
        | none => exact h
        | some hm => exact targetUids_sim hte' he _ h
      · cases tokHexBare b ts' te' 32 with
        | none => exact h
        | some declared => exact { h with good := ⟨h.good.sorted, h.good.fits⟩, declared := rfl }
      · exact h

/-- The end of the payload: both ask for a last `end` that counts the uids. -/
theorem parseConfig_cases (b : Bytes) (out : ℕ → Target) (defaultMask : UInt32) :
    (Protocol.parseConfig b = none ∧ (parseConfig b out maxTargetUids (-1) defaultMask).ret = -1) ∨
    ∃ c s, Sim c s ∧ Protocol.parseConfig b = some s.cfg ∧
      parseConfig b out maxTargetUids (-1) defaultMask = ⟨c.n, c.out, c.debug, c.defaultMask⟩ := by
  obtain ⟨hnext, hheader⟩ := parseHeader_eq b
  rw [Protocol.parseConfig, hheader, parseConfig]
  generalize parseHeader b = h at hnext ⊢
  obtain ⟨k, i⟩ := h
  dsimp only
  by_cases hk : k = some .config
  · subst hk
    have hsim : Sim ⟨out, 0, -1, 0, 0, 0, false⟩ .init := ⟨good_init, rfl, rfl, rfl, rfl, rfl⟩
    have hline : configLine = fun s line =>
        (significant line).elim (some s) fun content => configTokens s (tokens content) := by
      funext s line
      rw [configLine]
      cases significant line <;> rfl
    have hlines : RelOut Sim _ ((lines (b.drop i)).foldlM configLine .init) :=
      hline ▸ forLines_rel (R := Sim) (f := parseTokens b maxTargetUids)
        (g := fun content s => configTokens s (tokens content)) parseTokens_sim hnext hsim
    rw [Option.map_some]
    simp only [Option.bind_eq_bind, Option.bind_some, guard_true, Option.pure_def, ne_eq,
      not_true_eq_false, if_false]
    cases hr : forLines b (parseTokens b maxTargetUids) i ⟨out, 0, -1, 0, 0, 0, false⟩ with
    | error c =>
      rw [hr] at hlines
      rw [hlines.eq_none]
      exact .inl ⟨rfl, rfl⟩
    | ok c =>
      rw [hr] at hlines
      obtain ⟨s, hs, hsim'⟩ := hlines.exists_eq_some
      -- The flag and the count of the kernel are one option in the crate.
      have hend : s.declared = some s.uidsSeen ↔
          ¬(!c.haveEnd || decide ¬c.declared = c.uidsSeen) = true := by
        rw [← hsim'.declared, ← hsim'.uidsSeen]
        cases c.haveEnd <;> simp
      rw [hs]
      by_cases hd : s.declared = some s.uidsSeen
      · refine .inr ⟨c, s, hsim', by simp [hd], ?_⟩
        dsimp only
        rw [if_neg (hend.1 hd)]
      · refine .inl ⟨by simp [hd], ?_⟩
        dsimp only
        rw [if_pos (by_contra fun h => hd (hend.2 h))]
  · refine .inl ⟨?_, by rw [if_pos hk]⟩
    cases k with
    | none => rfl
    | some kind => simp [show kind ≠ .config from fun h => hk (h ▸ rfl)]

/-- What the crate rejects, the kernel rejects. -/
theorem parseConfig_of_none (h : Protocol.parseConfig b = none) (out : ℕ → Target)
    (defaultMask : UInt32) : (parseConfig b out maxTargetUids (-1) defaultMask).ret = -1 := by
  rcases parseConfig_cases b out defaultMask with ⟨-, hr⟩ | ⟨c, s, -, hs, -⟩
  · exact hr
  · rw [h] at hs
    cases hs

/-- What the crate accepts, the kernel reads alike. -/
theorem parseConfig_of_some {cfg : Config} (h : Protocol.parseConfig b = some cfg)
    (out : ℕ → Target) (defaultMask : UInt32) : ∃ out',
      parseConfig b out maxTargetUids (-1) defaultMask =
        ⟨cfg.targets.length, out', debugCode cfg.debug, cfg.defaultMask⟩ ∧
      cells out' cfg.targets.length = cfg.targets ∧ SortedBy Target.uid cfg.targets := by
  rcases parseConfig_cases b out defaultMask with ⟨hnone, -⟩ | ⟨c, s, hsim, hs, hr⟩
  · rw [h] at hnone
    cases hnone
  · obtain rfl := Option.some.inj (h.symm.trans hs)
    have hn : c.n = s.cfg.targets.length := by rw [← hsim.targets, length_cells]
    exact ⟨c.out, by rw [hr, hn, hsim.debug, hsim.defaultMask], hn ▸ hsim.targets, hsim.good.sorted⟩

/-- On every payload, both reject it whole, or both read the same snapshot: the same
    targets in the same order, the same default mask and the same debug flag. -/
theorem parseConfig_agrees (b : Bytes) (out : ℕ → Target) (defaultMask : UInt32) :
    match Protocol.parseConfig b with
    | none => (parseConfig b out maxTargetUids (-1) defaultMask).ret = -1
    | some cfg =>
      let r := parseConfig b out maxTargetUids (-1) defaultMask
      r.ret = cfg.targets.length ∧ cells r.out r.ret.toNat = cfg.targets ∧
        r.defaultMask = cfg.defaultMask ∧ r.debug = debugCode cfg.debug := by
  cases h : Protocol.parseConfig b with
  | none => exact parseConfig_of_none h out defaultMask
  | some cfg =>
    obtain ⟨out', hr, hcells, -⟩ := parseConfig_of_some h out defaultMask
    dsimp only
    rw [hr]
    exact ⟨rfl, hcells, rfl, rfl⟩

end VpnHide.Kmod

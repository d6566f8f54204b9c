import Mathlib.Data.List.GetD
import Mathlib.Data.List.Nodup
import Mathlib.Data.List.Range
import Mathlib.Logic.Function.Basic
import VpnHide.Lib.Search
import VpnHide.Protocol.Config
import VpnHide.Protocol.Hooks

/-!
# Counters of the kernel module

`find_or_add_stats_row` and `record_hook_hit` of `kmod/vpnhide_kmod.c`, which
`builtin/security/vpnhide/core.c` repeats: a row of counters for each uid, in the order in
which the uids came, and an index into the rows that is sorted by uid, searched by halving.
Both happen under a lock, so that a hit is one step.

The index is a permutation of the rows at all times, strictly sorted (`valid_after`), and a hit
adds a row or counts in one, and leaves the others as they are (`recordHookHit_cases`).
Unless a counter overflows, the rows only grow (`grows_after`).
-/

namespace VpnHide.Kmod

open Lib Protocol

/-! ## The table -/

/-- The hooks that the `.ko` counts are those of the KPM, in the same slots. -/
abbrev kmodStatsHookCount : ℕ := kpmStatsHookCount

/-- The column of a hook. -/
def kmodStatsHookSlot : HookId → Option (Fin kmodStatsHookCount) := kpmStatsHookSlot

/-- The hook of a column. -/
def kmodStatsHookId : Fin kmodStatsHookCount → HookId := kpmStatsHookId

/-- A row: a uid with its counters. -/
structure StatsRow where
  uid : UInt32
  counts : Fin kmodStatsHookCount → UInt64

/-- The rows in use, and the index of as many. -/
structure Table where
  rows : List StatsRow
  order : List ℕ

/-- A hit: whose, and of which hook. -/
abbrev Hit := UInt32 × HookId

namespace Table

/-- Nothing has been counted. -/
def empty : Table := ⟨[], []⟩

/-- `stats_rows[i].uid`. -/
def uid (t : Table) (i : ℕ) : UInt32 := (t.rows[i]?).elim 0 StatsRow.uid

/-- `stats_rows[stats_uid_order[k]].uid`. -/
def uidAt (t : Table) (k : ℕ) : UInt32 := t.uid (t.order.getD k 0)

/-- The row of a uid, and the table with it; nothing if the table is full. -/
def findOrAddStatsRow (t : Table) (uid : UInt32) : Option (ℕ × Table) :=
  let lo := lowerBound (fun k => t.uidAt k < uid) 0 t.rows.length
  if lo < t.rows.length ∧ t.uidAt lo = uid then some (t.order.getD lo 0, t)
  else if maxTargetUids ≤ t.rows.length then none
  else
    let rowIndex := t.rows.length
    some (rowIndex, ⟨t.rows ++ [⟨uid, fun _ => 0⟩], t.order.take lo ++ rowIndex :: t.order.drop lo⟩)

/-- `row->counts[hook_slot]++`. -/
def bump (slot : Fin kmodStatsHookCount) (row : StatsRow) : StatsRow :=
  { row with counts := Function.update row.counts slot (row.counts slot + 1) }

theorem counts_bump_self (slot : Fin kmodStatsHookCount) (row : StatsRow) :
    (bump slot row).counts slot = row.counts slot + 1 := Function.update_self ..

theorem counts_bump_of_ne {slot s : Fin kmodStatsHookCount} (h : s ≠ slot) (row : StatsRow) :
    (bump slot row).counts s = row.counts s := Function.update_of_ne h ..

/-- `record_hook_hit`: a hit is counted, if its hook has a column and its uid a row. -/
def recordHookHit (t : Table) (hit : Hit) : Table :=
  match kmodStatsHookSlot hit.2 with
  | none => t
  | some hookSlot =>
    match t.findOrAddStatsRow hit.1 with
    | none => t
    | some (i, t) => { t with rows := t.rows.modify i (bump hookSlot) }

/-- The table after some hits. -/
def after (hits : List Hit) : Table := hits.foldl recordHookHit empty

/-! ## The index -/

/-- The index names each row once, by increasing uid. -/
structure Valid (t : Table) : Prop where
  perm : t.order.Perm (List.range t.rows.length)
  sorted : (t.order.map t.uid).Pairwise (· < ·)
  length_le : t.rows.length ≤ maxTargetUids

variable {t t' : Table} {uid : UInt32}

/-- The uids in the order of the rows. -/
theorem map_uid_eq (t : Table) :
    t.rows.map StatsRow.uid = (List.range t.rows.length).map t.uid := by
  refine List.ext_getElem (by simp) fun i h₁ h₂ => ?_
  rw [List.length_map] at h₁
  simp [Table.uid, h₁]

namespace Valid

variable (h : t.Valid)

include h

theorem length_order : t.order.length = t.rows.length := by
  rw [h.perm.length_eq, List.length_range]

/-- No uid has two rows. -/
theorem nodup : (t.rows.map StatsRow.uid).Nodup := by
  rw [map_uid_eq]
  refine (h.perm.map t.uid).nodup_iff.1 (h.sorted.imp fun hlt heq => ?_)
  rw [heq] at hlt
  exact absurd hlt (lt_irrefl _)

theorem getD_lt {k : ℕ} (hk : k < t.rows.length) : t.order.getD k 0 < t.rows.length := by
  have hlen := h.length_order
  rw [List.getD_eq_getElem _ _ (by omega)]
  exact List.mem_range.1 (h.perm.subset (List.getElem_mem _))

/-- The order is one of the uids. -/
theorem uidAt_lt {i j : ℕ} (hij : i < j) (hj : j < t.rows.length) : t.uidAt i < t.uidAt j := by
  have hlen := h.length_order
  have hsorted := List.pairwise_iff_getElem.1 h.sorted i j (by rw [List.length_map]; omega)
    (by rw [List.length_map]; omega) hij
  rw [List.getElem_map, List.getElem_map] at hsorted
  rw [uidAt, uidAt, List.getD_eq_getElem _ _ (by omega), List.getD_eq_getElem _ _ (by omega)]
  exact hsorted

/-- A uid that has a row is found in the index. -/
theorem exists_uidAt (hmem : uid ∈ t.rows.map StatsRow.uid) :
    ∃ k < t.rows.length, t.uidAt k = uid := by
  rw [map_uid_eq] at hmem
  have hindex := (h.perm.map t.uid).mem_iff.2 hmem
  obtain ⟨k, hk, heq⟩ := List.getElem_of_mem hindex
  rw [List.length_map] at hk
  rw [List.getElem_map] at heq
  refine ⟨k, h.length_order ▸ hk, ?_⟩
  rw [uidAt, List.getD_eq_getElem _ _ hk, heq]

/-- Where the search ends: the uids before are less, and those from there on are not. -/
theorem search (uid : UInt32) :
    lowerBound (fun k => t.uidAt k < uid) 0 t.rows.length ≤ t.rows.length ∧
      (∀ i < lowerBound (fun k => t.uidAt k < uid) 0 t.rows.length, t.uidAt i < uid) ∧
      ∀ i, lowerBound (fun k => t.uidAt k < uid) 0 t.rows.length ≤ i → i < t.rows.length →
        uid ≤ t.uidAt i := by
  have hmono : ∀ i j, i ≤ j → j < t.rows.length → decide (t.uidAt j < uid) = true →
      decide (t.uidAt i < uid) = true := by
    intro i j hij hj hlt
    rw [decide_eq_true_iff] at hlt ⊢
    rcases Nat.lt_or_eq_of_le hij with hlt' | rfl
    · exact (h.uidAt_lt hlt' hj).trans hlt
    · exact hlt
  obtain ⟨hle, hbelow, habove⟩ := lowerBound_spec hmono 0 t.rows.length (Nat.zero_le _) le_rfl nofun
    fun i hi hin => absurd hin (Nat.not_lt.2 hi)
  refine ⟨hle, fun i hi => decide_eq_true_iff.1 (hbelow i hi), fun i hi hin => ?_⟩
  exact not_lt.1 (decide_eq_false_iff_not.1 (habove i hi hin))

end Valid

/-- The table after a hit that is counted: in a row that is there, or in a new one. -/
inductive Counted (t : Table) (uid : UInt32) (slot : Fin kmodStatsHookCount) : Table → Prop
  | found {i : ℕ} {row : StatsRow} (hrow : t.rows[i]? = some row) (huid : row.uid = uid) :
      Counted t uid slot { t with rows := t.rows.modify i (bump slot) }
  | added {order : List ℕ} (hnew : uid ∉ t.rows.map StatsRow.uid) :
      Counted t uid slot ⟨t.rows ++ [bump slot ⟨uid, fun _ => 0⟩], order⟩

/-- A bump changes no uid. -/
theorem uid_modify (t : Table) (slot : Fin kmodStatsHookCount) (i j : ℕ) :
    Table.uid { t with rows := t.rows.modify i (bump slot) } j = t.uid j := by
  rw [Table.uid, Table.uid, List.getElem?_modify]
  cases t.rows[j]? with
  | none => rfl
  | some row =>
    rw [Option.map_eq_map, Option.map_some]
    split_ifs
    · rfl
    · rfl

theorem modify_concat (rows : List StatsRow) (row : StatsRow) (f : StatsRow → StatsRow) :
    (rows ++ [row]).modify rows.length f = rows ++ [f row] := by
  induction rows with
  | nil => rfl
  | cons r rows ih => exact congrArg (r :: ·) ih

/-- A new row changes no uid. -/
theorem uid_append {row : StatsRow} {order : List ℕ} {j : ℕ} (hj : j < t.rows.length) :
    Table.uid ⟨t.rows ++ [row], order⟩ j = t.uid j := by
  rw [Table.uid, Table.uid, List.getElem?_append_left hj]

theorem uid_append_self (rows : List StatsRow) (row : StatsRow) (order : List ℕ) :
    Table.uid ⟨rows ++ [row], order⟩ rows.length = row.uid := by
  rw [Table.uid, List.getElem?_concat_length]
  rfl

/-- Counting in a row leaves the index as it is. -/
theorem Valid.modify (h : t.Valid) (slot : Fin kmodStatsHookCount) (i : ℕ) :
    Valid { t with rows := t.rows.modify i (bump slot) } where
  perm := by
    dsimp only
    rw [List.length_modify]
    exact h.perm
  sorted := by
    have huid : Table.uid { t with rows := t.rows.modify i (bump slot) } = t.uid :=
      funext fun j => uid_modify t slot i j
    rw [huid]
    exact h.sorted
  length_le := by
    dsimp only
    rw [List.length_modify]
    exact h.length_le

/-- A new row is inserted where the search ends. -/
theorem Valid.insert (h : t.Valid) {row : StatsRow} {lo : ℕ} (hroom : t.rows.length < maxTargetUids)
    (hlow : ∀ i < lo, i < t.rows.length → t.uidAt i < row.uid)
    (hhigh : ∀ i, lo ≤ i → i < t.rows.length → row.uid < t.uidAt i) :
    Valid ⟨t.rows ++ [row], t.order.take lo ++ t.rows.length :: t.order.drop lo⟩ where
  perm := by
    -- The new row is the last one, wherever its index goes in the order.
    have hfront :
        (t.order.take lo ++ t.rows.length :: t.order.drop lo).Perm (t.rows.length :: t.order) := by
      refine List.perm_middle.trans ?_
      rw [List.take_append_drop]
    rw [List.length_append, List.length_singleton, List.range_succ]
    exact hfront.trans ((h.perm.cons _).trans (List.perm_append_singleton _ _).symm)
  sorted := by
    have hlen := h.length_order
    -- The user of an old row does not change.
    have hold : ∀ l : List ℕ, (∀ a ∈ l, a ∈ t.order) →
        l.map (Table.uid ⟨t.rows ++ [row], t.order.take lo ++ t.rows.length :: t.order.drop lo⟩) =
          l.map t.uid := by
      intro l hl
      refine List.map_congr_left fun a ha => uid_append ?_
      exact List.mem_range.1 (h.perm.subset (hl a ha))
    have hat : ∀ k (hk : k < t.order.length), t.uid t.order[k] = t.uidAt k := by
      intro k hk
      rw [uidAt, List.getD_eq_getElem _ _ hk]
    rw [List.map_append, List.map_cons, hold _ fun a ha => List.mem_of_mem_take ha,
      hold _ fun a ha => List.mem_of_mem_drop ha, uid_append_self]
    have hsorted := h.sorted
    rw [← List.take_append_drop lo t.order, List.map_append, List.pairwise_append] at hsorted
    have htake : ∀ u ∈ (t.order.take lo).map t.uid, u < row.uid := by
      intro u hu
      obtain ⟨a, ha, rfl⟩ := List.mem_map.1 hu
      obtain ⟨k, hk, rfl⟩ := List.getElem_of_mem ha
      rw [List.length_take] at hk
      rw [List.getElem_take, hat k (by omega)]
      exact hlow k (by omega) (by omega)
    have hdrop : ∀ u ∈ (t.order.drop lo).map t.uid, row.uid < u := by
      intro u hu
      obtain ⟨a, ha, rfl⟩ := List.mem_map.1 hu
      obtain ⟨k, hk, rfl⟩ := List.getElem_of_mem ha
      rw [List.length_drop] at hk
      rw [List.getElem_drop, hat (lo + k) (by omega)]
      exact hhigh (lo + k) (by omega) (by omega)
    refine List.pairwise_append.2 ⟨hsorted.1, List.pairwise_cons.2 ⟨hdrop, hsorted.2.1⟩,
      fun u hu v hv => ?_⟩
    rcases List.mem_cons.1 hv with rfl | hv
    · exact htake u hu
    · exact (htake u hu).trans (hdrop v hv)
  length_le := by
    rw [List.length_append, List.length_singleton]
    omega

/-- What a hit does: nothing, if its hook is not counted or there is no row left for its
    uid; otherwise it counts. -/
theorem recordHookHit_cases (h : t.Valid) (hit : Hit) :
    t.recordHookHit hit = t ∨
      ∃ slot, kmodStatsHookSlot hit.2 = some slot ∧ t.Counted hit.1 slot (t.recordHookHit hit) ∧
        (t.recordHookHit hit).Valid := by
  obtain ⟨uid, hook⟩ := hit
  rw [recordHookHit]
  dsimp only
  cases hslot : kmodStatsHookSlot hook with
  | none => exact .inl rfl
  | some slot =>
    dsimp only
    obtain ⟨hle, hbelow, habove⟩ := h.search uid
    rw [findOrAddStatsRow]
    set lo := lowerBound (fun k => t.uidAt k < uid) 0 t.rows.length with hlo
    by_cases hfound : lo < t.rows.length ∧ t.uidAt lo = uid
    · rw [if_pos hfound]
      dsimp only
      have hi := h.getD_lt hfound.1
      obtain ⟨row, hrow⟩ : ∃ row, t.rows[t.order.getD lo 0]? = some row :=
        ⟨_, List.getElem?_eq_getElem hi⟩
      refine .inr ⟨slot, rfl, .found hrow ?_, h.modify slot _⟩
      have huid := hfound.2
      rw [uidAt, Table.uid, hrow] at huid
      exact huid
    · rw [if_neg hfound]
      by_cases hfull : maxTargetUids ≤ t.rows.length
      · rw [if_pos hfull]
        exact .inl rfl
      · rw [if_neg hfull]
        dsimp only
        -- The uid at `lo`, if there is one, is another, so those after it are greater.
        have hhigh : ∀ i, lo ≤ i → i < t.rows.length → uid < t.uidAt i := by
          intro i hi hin
          refine lt_of_le_of_ne (habove i hi hin) fun heq => ?_
          rcases Nat.lt_or_eq_of_le hi with hlt | rfl
          · have hlo' := habove lo le_rfl (by omega)
            have hup := h.uidAt_lt hlt hin
            rw [← heq] at hup
            exact absurd hlo' (not_le.2 hup)
          · exact hfound ⟨hin, heq.symm⟩
        rw [modify_concat]
        refine .inr ⟨slot, rfl, .added fun hmem => ?_,
          h.insert (Nat.lt_of_not_le hfull) (fun i hi _ => hbelow i hi) hhigh⟩
        obtain ⟨k, hk, huid⟩ := h.exists_uidAt hmem
        rcases Nat.lt_or_ge k lo with hlt | hge
        · exact absurd huid (hbelow k hlt).ne
        · exact absurd huid (hhigh k hge hk).ne'

/-! ## Any number of hits -/

/-- Hits after others. -/
theorem after_append (hits more : List Hit) :
    after (hits ++ more) = more.foldl recordHookHit (after hits) :=
  List.foldl_append

theorem after_concat (hits : List Hit) (hit : Hit) :
    after (hits ++ [hit]) = (after hits).recordHookHit hit :=
  after_append hits [hit]

theorem valid_empty : empty.Valid := ⟨.nil, .nil, Nat.zero_le _⟩

/-- The index is right after any hits. -/
theorem valid_after (hits : List Hit) : (after hits).Valid := by
  induction hits using List.reverseRecOn with
  | nil => exact valid_empty
  | append_singleton hits hit ih =>
    rw [after_concat]
    obtain heq | ⟨slot, -, -, hvalid⟩ := recordHookHit_cases ih hit
    · rw [heq]
      exact ih
    · exact hvalid

/-- Each row is as it was, or was counted in, or is new. -/
theorem Counted.back {slot : Fin kmodStatsHookCount} (h : t.Counted uid slot t') {i : ℕ}
    {row' : StatsRow} (hi : t'.rows[i]? = some row') :
    t.rows[i]? = some row' ∨ (∃ row, t.rows[i]? = some row ∧ row.uid = uid ∧ row' = bump slot row) ∨
      row' = bump slot ⟨uid, fun _ => 0⟩ := by
  cases h with
  | @found j row hrow huid =>
    dsimp only at hi
    rw [List.getElem?_modify, Option.map_eq_map, Option.map_eq_some_iff] at hi
    obtain ⟨old, hold, heq⟩ := hi
    split_ifs at heq with hij
    · subst hij
      obtain rfl := Option.some.inj (hold.symm.trans hrow)
      exact .inr (.inl ⟨old, hold, huid, heq.symm⟩)
    · rw [← heq]
      exact .inl hold
  | added hnew =>
    dsimp only at hi
    rw [List.getElem?_append] at hi
    split_ifs at hi with hlt
    · exact .inl hi
    · have hmem := List.mem_of_getElem? hi
      exact .inr (.inr (List.mem_singleton.1 hmem))

/-- Every row stays where it is. -/
theorem Counted.forth {slot : Fin kmodStatsHookCount} (h : t.Counted uid slot t') {i : ℕ}
    {row : StatsRow} (hi : t.rows[i]? = some row) :
    t'.rows[i]? = some row ∨ row.uid = uid ∧ t'.rows[i]? = some (bump slot row) := by
  cases h with
  | @found j old hrow huid =>
    dsimp only
    rw [List.getElem?_modify, hi, Option.map_eq_map, Option.map_some]
    split_ifs with hij
    · subst hij
      obtain rfl := Option.some.inj (hi.symm.trans hrow)
      exact .inr ⟨huid, rfl⟩
    · exact .inl rfl
  | added hnew =>
    have hlt : i < t.rows.length := (List.getElem?_eq_some_iff.1 hi).1
    refine .inl ?_
    dsimp only
    rw [List.getElem?_append_left hlt, hi]

/-- No counter is hit too often for its 64 bits. -/
def Few (hits : List Hit) : Prop := ∀ hit, hits.count hit < 2 ^ 64

theorem Few.of_append {hits more : List Hit} (h : Few (hits ++ more)) : Few hits := by
  intro hit
  have hcount := h hit
  rw [List.count_append] at hcount
  omega

/-- A counter is at most the number of its hits. -/
theorem count_le_after (hits : List Hit) :
    ∀ (i : ℕ) (row : StatsRow), (after hits).rows[i]? = some row → ∀ s,
      (row.counts s).toNat ≤ hits.count (row.uid, kmodStatsHookId s) := by
  induction hits using List.reverseRecOn with
  | nil => exact fun i row hrow => absurd hrow (by simp [after, empty])
  | append_singleton hits hit ih =>
    intro i row' hrow' s
    rw [after_concat] at hrow'
    rw [List.count_append]
    obtain heq | ⟨slot, hslot, hcounted, -⟩ := recordHookHit_cases (valid_after hits) hit
    · rw [heq] at hrow'
      exact (ih i row' hrow' s).trans (Nat.le_add_right _ _)
    · have hhook : kmodStatsHookId slot = hit.2 := kpmStatsHookSlot_eq_some_iff.1 hslot
      have hone : ∀ row : StatsRow, row.uid = hit.1 →
          (row.counts s).toNat ≤ hits.count (row.uid, kmodStatsHookId s) →
          ((bump slot row).counts s).toNat ≤
            hits.count (row.uid, kmodStatsHookId s) + [hit].count (row.uid, kmodStatsHookId s) := by
        intro row huid hle
        by_cases hs : s = slot
        · have hcell : (row.uid, kmodStatsHookId s) = hit := by rw [hs, hhook, huid]
          have hadd : (row.counts slot + 1).toNat ≤ (row.counts slot).toNat + 1 := by
            rw [UInt64.toNat_add]
            exact Nat.mod_le _ _
          rw [hcell, hs] at hle
          rw [hcell, hs, counts_bump_self, List.count_singleton_self]
          omega
        · rw [counts_bump_of_ne hs]
          exact hle.trans (Nat.le_add_right _ _)
      obtain hold | ⟨row, hrow, huid, rfl⟩ | rfl := hcounted.back hrow'
      · exact (ih i row' hold s).trans (Nat.le_add_right _ _)
      · exact hone row huid (ih i row hrow s)
      · exact hone ⟨hit.1, fun _ => 0⟩ rfl (Nat.zero_le _)

/-- The rows stay, with their uids, and their counters do not go down. -/
def Grows (t t' : Table) : Prop :=
  ∀ (i : ℕ) (row : StatsRow), t.rows[i]? = some row →
    ∃ row', t'.rows[i]? = some row' ∧ row'.uid = row.uid ∧ ∀ s, row.counts s ≤ row'.counts s

/-- A table grows into itself. -/
theorem Grows.refl (t : Table) : t.Grows t := fun _ row hrow => ⟨row, hrow, rfl, fun _ => le_rfl⟩

theorem Grows.trans {t'' : Table} (h : t.Grows t') (h' : t'.Grows t'') : t.Grows t'' := by
  intro i row hrow
  obtain ⟨row', hrow', huid, hle⟩ := h i row hrow
  obtain ⟨row'', hrow'', huid', hle'⟩ := h' i row' hrow'
  exact ⟨row'', hrow'', huid'.trans huid, fun s => (hle s).trans (hle' s)⟩

/-- A counter that has room goes up by one. -/
theorem lt_bump {slot : Fin kmodStatsHookCount} {row : StatsRow}
    (h : (row.counts slot).toNat + 1 < 2 ^ 64) :
    row.counts slot < (bump slot row).counts slot := by
  rw [counts_bump_self, UInt64.lt_iff_toNat_lt, UInt64.toNat_add]
  have hone : (1 : UInt64).toNat = 1 := rfl
  rw [hone, Nat.mod_eq_of_lt h]
  exact Nat.lt_succ_self _

/-- A hit before which no counter is full. -/
theorem room_of_few {hits : List Hit} {hit : Hit} {slot : Fin kmodStatsHookCount}
    (h : Few (hits ++ [hit])) (hslot : kmodStatsHookSlot hit.2 = some slot) {i : ℕ} {row : StatsRow}
    (hrow : (after hits).rows[i]? = some row)
    (huid : row.uid = hit.1) : (row.counts slot).toNat + 1 < 2 ^ 64 := by
  have hle := count_le_after hits i row hrow slot
  have hhook : kmodStatsHookId slot = hit.2 := kpmStatsHookSlot_eq_some_iff.1 hslot
  have hcell : (row.uid, kmodStatsHookId slot) = hit := by rw [hhook, huid]
  have hcount := h hit
  rw [List.count_append, List.count_singleton_self] at hcount
  rw [hcell] at hle
  omega

/-- A hit lets the table grow. -/
theorem grows_after_concat {hits : List Hit} {hit : Hit} (h : Few (hits ++ [hit])) :
    (after hits).Grows (after (hits ++ [hit])) := by
  rw [after_concat]
  intro i row hrow
  obtain heq | ⟨slot, hslot, hcounted, -⟩ := recordHookHit_cases (valid_after hits) hit
  · rw [heq]
    exact Grows.refl _ i row hrow
  · obtain hsame | ⟨huid, hbump⟩ := hcounted.forth hrow
    · exact ⟨row, hsame, rfl, fun _ => le_rfl⟩
    · refine ⟨_, hbump, rfl, fun s => ?_⟩
      by_cases hs : s = slot
      · rw [hs]
        exact (lt_bump (room_of_few h hslot hrow huid)).le
      · rw [counts_bump_of_ne hs]

/-- Hits let the table grow. -/
theorem grows_after {hits more : List Hit} (h : Few (hits ++ more)) :
    (after hits).Grows (after (hits ++ more)) := by
  induction more using List.reverseRecOn with
  | nil =>
    rw [List.append_nil]
    exact Grows.refl _
  | append_singleton more hit ih =>
    rw [← List.append_assoc] at h ⊢
    exact (ih h.of_append).trans (grows_after_concat h)

/-- A row has a counter that is not zero: it was added for a hit. -/
theorem exists_count_ne_zero {hits : List Hit} (h : Few hits) :
    ∀ (i : ℕ) (row : StatsRow), (after hits).rows[i]? = some row → ∃ s, row.counts s ≠ 0 := by
  induction hits using List.reverseRecOn with
  | nil => exact fun i row hrow => absurd hrow (by simp [after, empty])
  | append_singleton hits hit ih =>
    intro i row' hrow'
    rw [after_concat] at hrow'
    obtain heq | ⟨slot, hslot, hcounted, -⟩ := recordHookHit_cases (valid_after hits) hit
    · rw [heq] at hrow'
      exact ih h.of_append i row' hrow'
    · have hpos : ∀ row : StatsRow, (row.counts slot).toNat + 1 < 2 ^ 64 →
          (bump slot row).counts slot ≠ 0 := by
        intro row hroom hzero
        have hlt := lt_bump hroom
        rw [hzero] at hlt
        exact absurd hlt (UInt64.not_lt_zero)
      obtain hold | ⟨row, hrow, huid, rfl⟩ | rfl := hcounted.back hrow'
      · exact ih h.of_append i row' hold
      · exact ⟨slot, hpos row (room_of_few h hslot hrow huid)⟩
      · exact ⟨slot, hpos ⟨hit.1, fun _ => 0⟩ (show (0 : UInt64).toNat + 1 < 2 ^ 64 by decide)⟩

end Table

end VpnHide.Kmod

import VpnHide.Kpm.Stats

/-!
# Pages as lists of rows

The loop of the page writer, with rows in the place of bytes, is the `plan` of a page.
The writer writes the text of its plan, which always fits (`formatStatsPage_eq`), and
whatever the other threads do meanwhile, a plan is well formed (`validRows_plan`): its
uids increase, from the cursor asked for to the next one, and no counter is zero. Its
cursor goes at least to the first uid found (`le_cursor_plan`).
-/

namespace VpnHide.Kpm

open Lib Protocol Kmod

/-! ## Plans -/

/-- The rows of a page, the last uid, and the number of calls made for them. -/
structure Plan where
  rows : List Row
  cursor : UInt32
  calls : ℕ

set_option maxRecDepth 1000 in
/-- The loop of the page writer, on rows: `len` bytes are written already. -/
def plan (τ : ℕ → Stats) (cap len : ℕ) (cursor : UInt32) (calls : ℕ) : Plan :=
  match _h : (τ calls).nextStatsUid cursor with
  | none => ⟨[], cursor, calls + 1⟩
  | some (uid, slot) =>
    let row := (τ (calls + 1)).row uid slot
    if row.cells = [] then plan τ cap len uid (calls + 2)
    else if cap < len + (row.text.length + 1) + statsTrailerReserve then ⟨[], cursor, calls + 2⟩
    else
      let p := plan τ cap (len + (row.text.length + 1)) uid (calls + 2)
      ⟨row :: p.rows, p.cursor, p.calls⟩
termination_by uidsLeft cursor
decreasing_by all_goals exact uidsLeft_lt (Stats.nextStatsUid_eq_some ‹_›).2.1

/-- Without further rows the plan is over. -/
theorem plan_of_none {τ : ℕ → Stats} {cap len : ℕ} {cursor : UInt32} {calls : ℕ}
    (h : (τ calls).nextStatsUid cursor = none) :
    plan τ cap len cursor calls = ⟨[], cursor, calls + 1⟩ := by
  rw [plan]
  split <;> simp_all

/-- A further row is planned, if it fits. -/
theorem plan_of_some {τ : ℕ → Stats} {cap len : ℕ} {cursor : UInt32} {calls : ℕ} {uid : UInt32}
    {slot : Slot} (h : (τ calls).nextStatsUid cursor = some (uid, slot)) :
    plan τ cap len cursor calls =
      let row := (τ (calls + 1)).row uid slot
      if row.cells = [] then plan τ cap len uid (calls + 2)
      else if cap < len + (row.text.length + 1) + statsTrailerReserve then ⟨[], cursor, calls + 2⟩
      else
        let p := plan τ cap (len + (row.text.length + 1)) uid (calls + 2)
        ⟨row :: p.rows, p.cursor, p.calls⟩ := by
  conv_lhs => rw [plan]
  split
  · simp_all
  · rename_i uid' slot' h'
    obtain ⟨rfl, rfl⟩ := Prod.mk.inj (Option.some.inj (h.symm.trans h'))
    rfl

/-- The loop writes the rows of its plan. -/
theorem pageLoop_eq (τ : ℕ → Stats) (cap : ℕ) (l : Bytes) (cursor n : UInt32) (calls : ℕ) :
    pageLoop τ cap ⟨Buf.of cap l, cursor, n, calls⟩ =
      ⟨Buf.of cap (l ++ bytes (rowsText (plan τ cap l.length cursor calls).rows)),
        (plan τ cap l.length cursor calls).cursor,
        n + (plan τ cap l.length cursor calls).rows.length.toUInt32,
        (plan τ cap l.length cursor calls).calls⟩ := by
  induction hm : uidsLeft cursor using Nat.strong_induction_on generalizing l cursor n calls with
  | _ m ih =>
    cases hnext : (τ calls).nextStatsUid cursor with
    | none =>
      rw [pageLoop_of_none hnext, plan_of_none hnext]
      simp [rowsText]
    | some p =>
      obtain ⟨uid, slot⟩ := p
      have hlt := uidsLeft_lt (Stats.nextStatsUid_eq_some hnext).2.1
      rw [pageLoop_of_some hnext, plan_of_some hnext, formatStatsRow_eq]
      by_cases hc : ((τ (calls + 1)).row uid slot).cells = []
      · rw [if_pos hc, if_pos rfl, if_pos hc]
        exact ih _ (hm ▸ hlt) l uid n (calls + 2) rfl
      · rw [if_neg hc, if_neg (by simp), if_neg hc]
        -- The row fits its own buffer, so that it is copied whole.
        have hrow : (bytes (((τ (calls + 1)).row uid slot).text ++ ['\n'])).length =
            ((τ (calls + 1)).row uid slot).text.length + 1 := by simp
        have hmax : ((τ (calls + 1)).row uid slot).text.length + 1 ≤ statsRowMax :=
          (Nat.add_le_add_right (length_row_text _ _ _) 1).trans (by decide)
        dsimp only
        rw [Buf.of_len, List.take_of_length_le (hrow.trans_le hmax), List.take_of_length_le hrow.le]
        split_ifs with hfit
        · simp [rowsText]
        · have hputs := Buf.puts_of cap l (bytes (((τ (calls + 1)).row uid slot).text ++ ['\n']))
          rw [Buf.puts] at hputs
          rw [hputs, ih _ (hm ▸ hlt) _ uid (n + 1) (calls + 2) rfl]
          rw [List.length_append, hrow]
          have hcount : ∀ k : ℕ, n + 1 + k.toUInt32 = n + (k + 1).toUInt32 := by
            intro k
            rw [UInt32.add_assoc, UInt32.add_comm 1]
            exact congrArg (n + ·) (UInt32.ofNat_add k 1).symm
          simp only [rowsText, List.flatMap_cons, List.length_cons, bytes_append,
            List.append_assoc, hcount]

/-- The plan of a page, after the 16 bytes of its header. -/
def planned (τ : ℕ → Stats) (cap : ℕ) (requested : UInt32) : Plan := plan τ cap 16 requested 0

/-- The cursor after a planned page, if a last probe of the table says there is more. -/
def plannedNext (τ : ℕ → Stats) (cap : ℕ) (requested : UInt32) : Option UInt32 :=
  let p := planned τ cap requested
  if ((τ p.calls).nextStatsUid p.cursor).isSome then some p.cursor else none

/-- The rows of a plan leave room for the trailer. -/
theorem length_plan_le (τ : ℕ → Stats) {cap len : ℕ} (cursor : UInt32) (calls : ℕ)
    (hlen : len + statsTrailerReserve ≤ cap) :
    len + (rowsText (plan τ cap len cursor calls).rows).length + statsTrailerReserve ≤ cap := by
  induction hm : uidsLeft cursor using Nat.strong_induction_on generalizing len cursor calls with
  | _ m ih =>
    cases hnext : (τ calls).nextStatsUid cursor with
    | none =>
      rw [plan_of_none hnext]
      simpa [rowsText] using hlen
    | some p =>
      obtain ⟨uid, slot⟩ := p
      have hlt := uidsLeft_lt (Stats.nextStatsUid_eq_some hnext).2.1
      rw [plan_of_some hnext]
      dsimp only
      split_ifs with hc hfit
      · exact ih _ (hm ▸ hlt) uid _ hlen rfl
      · simpa [rowsText] using hlen
      · have := ih _ (hm ▸ hlt) uid (calls + 2) (not_lt.1 hfit) rfl
        simp only [rowsText, List.flatMap_cons, List.length_append, List.length_cons,
          List.length_nil] at this ⊢
        omega

/-- A row takes at least one byte. -/
theorem length_le_length_rowsText (rows : List Row) : rows.length ≤ (rowsText rows).length := by
  induction rows with
  | nil => exact le_rfl
  | cons r rows ih =>
    simp only [rowsText, List.flatMap_cons, List.length_append, List.length_cons] at ih ⊢
    omega

/-- The trailer fits the room reserved for it. -/
theorem length_trailer_le (requested : UInt32) {rows : List Row} (hrows : rows.length < 16 ^ 8)
    (next : Option UInt32) :
    (Str.words pageWord (trailerWords requested rows next) ++ next.elim ['\n'] fun _ => []).length ≤
      statsTrailerReserve := by
  have hreq : (prefixedHex requested.toNat).length ≤ 10 :=
    length_prefixedHex (by decide) requested.toNat_lt
  have hcount : (prefixedHex rows.length).length ≤ 10 := length_prefixedHex (by decide) hrows
  cases next with
  | none =>
    simp only [Str.words, trailerWords, List.flatMap_cons, List.flatMap_nil, List.length_append,
      List.length_cons, List.length_nil, Option.elim_none, length_pageWord, length_doneWord]
    change _ ≤ 64
    omega
  | some cursor =>
    have hcursor : (prefixedHex cursor.toNat).length ≤ 10 :=
      length_prefixedHex (by decide) cursor.toNat_lt
    simp only [Str.words, trailerWords, List.flatMap_cons, List.flatMap_nil, List.length_append,
      List.length_cons, List.length_nil, Option.elim_some, length_pageWord]
    change _ ≤ 64
    omega

/-- The length of a page. -/
theorem length_pageText (requested : UInt32) (rows : List Row) (next : Option UInt32) :
    (pageText requested rows next).length = 16 + (rowsText rows).length +
      (Str.words pageWord (trailerWords requested rows next) ++
        next.elim ['\n'] fun _ => []).length := by
  rw [pageText, List.length_append, List.length_cons, List.length_append, length_headerLine]
  omega

/-- A page is the text of its plan, and fits its buffer. -/
theorem formatStatsPage_eq (τ : ℕ → Stats) {cap : ℕ} (requested : UInt32)
    (hmin : statsRowMax + statsTrailerReserve ≤ cap) (hmax : cap ≤ 4096) :
    formatStatsPage τ cap requested =
      ⟨bytes (pageText requested (planned τ cap requested).rows (plannedNext τ cap requested)), cap,
        (pageText requested (planned τ cap requested).rows
          (plannedNext τ cap requested)).length⟩ := by
  have hempty : (⟨[], cap, 0⟩ : Buf) = Buf.of cap [] := by simp [Buf.of]
  have hheader : ascii "vpnhide " ++ (Nat.toDigits 10 telemetryVersion).map Char.toUInt8 ++
      ascii " " ++ ascii "stats" ++ ascii "\n" = bytes headerLine ++ ['\n'.toUInt8] := by
    rw [bytes_headerLine]
    decide
  have hroom : 16 + (rowsText (planned τ cap requested).rows).length + statsTrailerReserve ≤ cap :=
    length_plan_le τ requested 0
      ((by decide : 16 + statsTrailerReserve ≤ statsRowMax + statsTrailerReserve).trans hmin)
  -- There are fewer rows than bytes, so that their number does not wrap.
  have hrows : (planned τ cap requested).rows.length ≤ 4096 :=
    (length_le_length_rowsText _).trans ((by omega : _ ≤ cap).trans hmax)
  have hcount : (0 + (planned τ cap requested).rows.length.toUInt32).toNat =
      (planned τ cap requested).rows.length := by
    rw [UInt32.zero_add]
    exact UInt32.toNat_ofNat_of_lt' (hrows.trans_lt (by decide))
  have htrailer :=
    length_trailer_le requested (hrows.trans_lt (by decide)) (plannedNext τ cap requested)
  have hfits :
      (pageText requested (planned τ cap requested).rows (plannedNext τ cap requested)).length ≤
      cap := by
    rw [length_pageText]
    exact (Nat.add_le_add_left htrailer _).trans hroom
  have hof : ∀ s : Str, s.length ≤ cap → Buf.of cap (bytes s) = ⟨bytes s, cap, s.length⟩ := by
    intro s hs
    rw [Buf.of, List.take_of_length_le (by simpa using hs), length_bytes]
  rw [← hof _ hfits, formatStatsPage]
  dsimp only
  have hlen : (bytes headerLine ++ ['\n'.toUInt8]).length = 16 := by
    simp [length_headerLine]
  rw [if_neg (not_lt.2 hmin), hempty, Buf.putHeader_of, List.nil_append, hheader, pageLoop_eq, hlen,
    ← planned]
  clear hfits htrailer hroom
  rw [plannedNext]
  dsimp only
  generalize planned τ cap requested = P at hcount
  have hpage : ascii "page " = bytes pageWord ++ [' '.toUInt8] := by
    rw [bytes_pageWord]
    decide
  by_cases hmore : ((τ P.calls).nextStatsUid P.cursor).isSome = true
  · simp only [hmore, if_true, Bool.not_true, Bool.false_eq_true, if_false, Buf.puts_of,
      Buf.putHex_of, Buf.putc_of, hcount, pageText, trailerWords, Str.words, Option.elim_some,
      List.flatMap_cons, List.flatMap_nil, bytes_append, bytes_cons, bytes_prefixedHex, hpage,
      List.append_assoc, List.cons_append, List.nil_append, List.append_nil]
  · simp only [hmore, if_false, Bool.not_false, if_true, Buf.puts_of, Buf.putHex_of, Buf.putc_of,
      hcount, pageText, trailerWords, Str.words, Option.elim_none, List.flatMap_cons,
      List.flatMap_nil, bytes_append, bytes_cons, bytes_nil, bytes_prefixedHex, hpage,
      bytes_doneWord, List.append_assoc, List.cons_append, List.nil_append, Bool.false_eq_true]

/-! ## What every plan is like -/

/-- Rows after the cursor `requested`, up to `cursor`, as a reader wants them. -/
structure ValidRows (requested : UInt32) (rows : List Row) (cursor : UInt32) : Prop where
  sorted : rows.Pairwise fun r r' => r.uid < r'.uid
  after : ∀ r ∈ rows, requested < r.uid ∧ r.uid ≤ cursor
  le : requested ≤ cursor
  nonempty : ∀ r ∈ rows, r.cells ≠ []
  nonzero : ∀ r ∈ rows, ∀ c ∈ r.cells, c.2 ≠ 0

/-- No cell of a row is zero. -/
theorem Stats.nonzero_row {t : Stats} {uid : UInt32} {slot : Slot} :
    ∀ c ∈ (t.row uid slot).cells, c.2 ≠ 0 := by
  intro c hc
  obtain ⟨hook, -, hc⟩ := List.mem_filterMap.1 hc
  split_ifs at hc with h0
  obtain rfl := Option.some.inj hc
  exact h0

/-- The rows of a plan are ascending. -/
theorem validRows_plan (τ : ℕ → Stats) (cap len : ℕ) (cursor : UInt32) (calls : ℕ) :
    ValidRows cursor (plan τ cap len cursor calls).rows (plan τ cap len cursor calls).cursor := by
  induction hm : uidsLeft cursor using Nat.strong_induction_on generalizing len cursor calls with
  | _ m ih =>
    have hnil : ValidRows cursor [] cursor := ⟨.nil, by simp, le_rfl, by simp, by simp⟩
    cases hnext : (τ calls).nextStatsUid cursor with
    | none =>
      rw [plan_of_none hnext]
      exact hnil
    | some p =>
      obtain ⟨uid, slot⟩ := p
      obtain ⟨-, hlt, -⟩ := Stats.nextStatsUid_eq_some hnext
      rw [plan_of_some hnext]
      dsimp only
      -- The uid is passed over, the page is full, or it has one more row.
      split_ifs with hc hfit
      · have h := ih _ (hm ▸ uidsLeft_lt hlt) len uid (calls + 2) rfl
        exact { h with
          after := fun r hr => ⟨hlt.trans (h.after r hr).1, (h.after r hr).2⟩
          le := hlt.le.trans h.le }
      · exact hnil
      · have h := ih _ (hm ▸ uidsLeft_lt hlt)
          (len + (((τ (calls + 1)).row uid slot).text.length + 1)) uid
          (calls + 2) rfl
        exact
          { sorted := List.pairwise_cons.2 ⟨fun r hr => (h.after r hr).1, h.sorted⟩
            after := List.forall_mem_cons.2 ⟨⟨hlt, h.le⟩,
              fun r hr => ⟨hlt.trans (h.after r hr).1, (h.after r hr).2⟩⟩
            le := hlt.le.trans h.le
            nonempty := List.forall_mem_cons.2 ⟨hc, h.nonempty⟩
            nonzero := List.forall_mem_cons.2 ⟨Stats.nonzero_row, h.nonzero⟩ }

/-- A page with room for one row goes at least to the first uid found. -/
theorem le_cursor_plan {τ : ℕ → Stats} {cap len : ℕ} {cursor : UInt32} {calls : ℕ}
    (hroom : len + 299 + statsTrailerReserve ≤ cap) {uid : UInt32} {slot : Slot}
    (hnext : (τ calls).nextStatsUid cursor = some (uid, slot)) :
    uid ≤ (plan τ cap len cursor calls).cursor := by
  have hrow := length_row_text (τ (calls + 1)) uid slot
  rw [plan_of_some hnext]
  dsimp only
  -- The first row always fits.
  split_ifs with hc hfit
  · exact (validRows_plan τ cap _ uid _).le
  · omega
  · exact (validRows_plan τ cap _ uid _).le

end VpnHide.Kpm

import Mathlib.Data.List.DropRight
import VpnHide.Lib.Records
import VpnHide.Zygisk.Interfaces

/-!
# Filtering lines of `/proc/net`

The line filters of `zygisk/src/filter.rs`: a buffer is cut into lines, and those whose field for
the interface names a VPN are removed in place. What is left are the other lines, as they were
(`compactLines_eq`).
-/

namespace VpnHide.Zygisk

open Lib

/-- The end of a line. -/
def isNewline (b : UInt8) : Bool := b == '\n'.toUInt8

/-- The loop over the lines: the buffer, and the length of what is valid in it. -/
def compactLoop (hide : Bytes → Bool) (len : ℕ) (data : Bytes) (readPos writePos : ℕ) : Bytes × ℕ :=
  if readPos < len then
    let lineEnd := ((data.drop readPos).findIdx? isNewline).elim len fun position =>
      readPos + position + 1
    if hide ((data.take lineEnd).drop readPos) then compactLoop hide len data lineEnd writePos
    else
      let lineLen := lineEnd - readPos
      compactLoop hide len (moveDown data readPos lineLen writePos) lineEnd (writePos + lineLen)
  else (data, writePos)
termination_by len - readPos
decreasing_by
  all_goals
    cases hfind : (data.drop readPos).findIdx? isNewline <;>
        simp only [Option.elim_none, Option.elim_some] <;> omega

/-- `compact_lines`: the lines that are hidden are taken out. -/
def compactLines (data : Bytes) (hide : Bytes → Bool) : Bytes × ℕ :=
  compactLoop hide data.length data 0 0

/-- The first field of a line of `/proc/net/route`. -/
def extractFirstField (line : Bytes) : Bytes :=
  line.takeWhile fun b => !(b == '\t'.toUInt8 || b == '\n'.toUInt8)

/-- The last field of a line, without what stands after it. -/
def extractLastField (line : Bytes) : Bytes :=
  (line.rdropWhile fun b => b == '\n'.toUInt8 || b == ' '.toUInt8 || b == '\t'.toUInt8).rtakeWhile
    fun b =>
    !(b == ' '.toUInt8 || b == '\t'.toUInt8)

/-- A line is hidden by a field of it. -/
def hidesField (extract : Bytes → Bytes) (line : Bytes) : Bool :=
  let ifname := extract line
  ifname != [] && isVpnIfaceBytes ifname

/-- `filter_route_buf`: the name is in the first field. -/
def filterRouteBuf (data : Bytes) : Bytes × ℕ := compactLines data (hidesField extractFirstField)

/-- `filter_by_last_field`: the name is in the last field. -/
def filterByLastField (data : Bytes) : Bytes × ℕ := compactLines data (hidesField extractLastField)

/-- `filter_ipv6_route_buf`. -/
def filterIpv6RouteBuf (data : Bytes) : Bytes × ℕ := filterByLastField data

/-- `filter_if_inet6_buf`. -/
def filterIfInet6Buf (data : Bytes) : Bytes × ℕ := filterByLastField data

/-! ## What is left -/

/-- The end of the line at a cursor. -/
theorem lineEnd_eq {data : Bytes} {r : ℕ} (hr : r < data.length) :
    ((data.drop r).findIdx? isNewline).elim data.length (fun position => r + position + 1) =
      r + min ((data.drop r).findIdx isNewline + 1) (data.drop r).length := by
  have hlen : (data.drop r).length = data.length - r := List.length_drop
  cases hfind : (data.drop r).findIdx? isNewline with
  | none =>
    have hidx : (data.drop r).findIdx isNewline = (data.drop r).length :=
      List.findIdx_eq_length.2 (List.findIdx?_eq_none_iff.1 hfind)
    rw [Option.elim_none]
    omega
  | some position =>
    obtain ⟨hlt, hidx⟩ := List.findIdx?_eq_some_iff_findIdx_eq.1 hfind
    rw [Option.elim_some]
    omega

/-- The loop keeps the lines that are not hidden. -/
theorem compactLoop_eq (hide : Bytes → Bool) (orig l : Bytes) :
    ∀ {data : Bytes} {r w : ℕ} {kept : Bytes}, Compaction orig data r w kept → orig.drop r = l →
      ∃ data' w', compactLoop hide orig.length data r w = (data', w') ∧
        Compaction orig data' orig.length w'
          (kept ++ ((linesUntil isNewline l).filter fun line => !hide line).flatten) := by
  induction l using nextUntil_induction isNewline with
  | nil =>
    intro data r w kept hc hnil
    have hle := List.drop_eq_nil_iff.1 hnil
    have hend : r = orig.length := le_antisymm hc.le_length hle
    refine ⟨data, w, ?_, ?_⟩
    · rw [compactLoop, if_neg (by omega)]
    · rw [linesUntil_nil, List.filter_nil, List.flatten_nil, List.append_nil, ← hend]
      exact hc
  | line l n hne h ih =>
    rintro data r w kept hc rfl
    have hlen : (orig.drop r).length = orig.length - r := List.length_drop
    have hpos := List.length_pos_iff.2 hne
    have hr : r < orig.length := by omega
    have hroom : r + n ≤ orig.length := by omega
    have hend : ((data.drop r).findIdx? isNewline).elim orig.length
        (fun position => r + position + 1) = r + n := by
      rw [← hc.length_eq, lineEnd_eq (by rw [hc.length_eq]; exact hr), hc.unread, h]
    have hline : (data.take (r + n)).drop r = (orig.drop r).take n := by
      rw [List.drop_take, Nat.add_sub_cancel_left, hc.unread]
    rw [compactLoop, if_pos hr]
    simp only [hend, hline, Nat.add_sub_cancel_left]
    rw [linesUntil_cons hne, h, List.filter_cons]
    have hdrop : orig.drop (r + n) = (orig.drop r).drop n := List.drop_drop.symm
    cases hhide : hide ((orig.drop r).take n) with
    | true => exact ih (hc.skip hroom) hdrop
    | false =>
      obtain ⟨data', w', hloop, hc'⟩ := ih (hc.keep hroom) hdrop
      refine ⟨data', w', hloop, ?_⟩
      rw [Bool.not_false, if_pos rfl, List.flatten_cons, ← List.append_assoc]
      exact hc'

theorem compactLines_eq (data : Bytes) (hide : Bytes → Bool) :
    (compactLines data hide).1.length = data.length ∧
      (compactLines data hide).1.take (compactLines data hide).2 =
        ((linesUntil isNewline data).filter fun line => !hide line).flatten := by
  obtain ⟨data', w, hloop, hc⟩ := compactLoop_eq hide data data (Compaction.start data) rfl
  rw [compactLines, hloop]
  exact ⟨hc.length_eq, hc.written⟩

end VpnHide.Zygisk

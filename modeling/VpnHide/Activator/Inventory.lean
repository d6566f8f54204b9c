import Mathlib.Data.List.Destutter
import VpnHide.Activator.NativePolicy
import VpnHide.Lib.Transcript

/-!
# The inventory of packages

What the package manager reports (`native-policy/src/package_inventory.rs`): the packages of every
user with their uids, in a frame of two marker lines for each user. A scan may be repeated, may
fail, and may be cut off anywhere.

The markers are a transcript of runs (`Lib.Transcript`): a user is complete if its last frame ends
with its own success (`statuses_scan`). A cut may make a marker of another one: what is left of the
line that opens the frame of user `12` opens one of user `1`.
-/

namespace VpnHide.NativePolicy

open Lib Str Config

/-- The line that ends the list of users, with the status of the command. -/
def pmUsersStatus : Str := "__VPNHIDE_PM_USERS_STATUS__:".toList

/-- The line before the packages of a user. -/
def pmUserBegin : Str := "__VPNHIDE_PM_USER_BEGIN__:".toList

/-- The line after the packages of a user, with the status of the command. -/
def pmUserEnd : Str := "__VPNHIDE_PM_USER_END__:".toList

/-- The most text that is looked at. -/
def maxObservationBytes : ℕ := 32 * 1024 * 1024

/-- The uids of a user begin at the multiples of this. -/
def uidsPerUser : UInt32 := 100000

/-- The largest id, as a signed integer. -/
def maxId : UInt32 := 2147483647

/-- `str::parse::<u32>`. -/
def parseU32 (s : Str) : Option UInt32 := (fromStrRadix 10 (2 ^ 32 - 1) s).map Nat.toUInt32

/-- `str::parse::<i32>`. -/
def parseI32 : Str → Option ℤ
  | '-' :: ds =>
    if ds.head? = some '+' then none else (fromStrRadix 10 (2 ^ 31) ds).map fun n => -(n : ℤ)
  | ds => (fromStrRadix 10 (2 ^ 31 - 1) ds).map (↑)

/-- The parts before and after the last occurrence of a text. -/
def rsplitOnce (pat s : Str) : Option (Str × Str) :=
  ((List.range (s.length + 1)).reverse.find? fun i => pat.isPrefixOf (s.drop i)).map fun i =>
    (s.take i, s.drop (i + pat.length))

/-! ## Rows -/

/-- A line of the package list, read. -/
structure PackageRow where
  packageName : Str
  apkPath : Option Str
  /-- In order, and each once. -/
  uids : List UInt32
  deriving DecidableEq

/-- The path and the name of a package, of which the path may be missing. -/
def packagePath (package : Str) : Option Str × Str :=
  match rsplitOnce "=".toList package with
  | none => (none, package)
  | some (path, name) => ((some (trim path)).filter (· ≠ []), trim name)

/-- The uids of a row, those that are no ids left out. -/
def rowUids (uids : Str) : Std.ExtTreeSet UInt32 :=
  .ofList ((uids.splitOn ',').filterMap fun v => (parseU32 (trim v)).filter (· ≤ maxId))

/-- `parse_package_row`: `package:`, the path if it is listed, the name and the uids. -/
def parsePackageRow (line : Str) : Option PackageRow := do
  let body ← stripPrefix "package:".toList (trim line)
  -- the path may hold anything, so that the uids are found from the end
  let (package, uids) ← rsplitOnce " uid:".toList body
  let (path, name) := packagePath (trim package)
  if name = [] then none
  else
    let uids := rowUids uids
    if uids.isEmpty then none
      else some { packageName := name, apkPath := path, uids := uids.toList }

/-! ## The scan -/

/-- Why there is no inventory at all. -/
inductive InventoryError
  | inputTooLarge
  deriving DecidableEq

/-- The check of the size of an input. -/
def bounded (raw : Str) : Except InventoryError Unit :=
  if maxObservationBytes < (toUtf8 raw).length then .error .inputTooLarge else .ok ()

/-- The uids of a package by user. -/
abbrev UidMap := Std.ExtTreeMap UInt32 (List UInt32)

/-- What the inventory knows of a package. -/
structure PackageEntry where
  apkPath : Option Str
  uidsByUser : UidMap

/-- A package of which nothing is known yet. -/
def PackageEntry.default : PackageEntry := ⟨none, ∅⟩

/-- All packages, the users that could not be listed, and whether the list of users is whole. -/
structure PackageInventory where
  packages : StrMap PackageEntry
  failedUserIds : List UInt32
  userListComplete : Bool

/-- The locals of the loop. -/
structure Scan where
  packages : StrMap PackageEntry
  statuses : Std.ExtTreeMap UInt32 ℤ
  currentUser : Option UInt32

/-- Where the scan begins: outside the part of any user. -/
def Scan.start : Scan := ⟨∅, ∅, none⟩

/-- The lines of a text, ended by either of the two characters. -/
def linesOf (raw : Str) : List Str := raw.splitOnP fun c => c = '\n' || c = '\r'

/-- The user of a begin line. -/
def beginUser (raw : Str) : Option UInt32 := (parseU32 (trim raw)).filter (· ≤ maxId)

/-- The user and the status of an end line. -/
def endStatus (raw : Str) : Option (UInt32 × ℤ) := do
  let (id, status) ← splitOnce ':' raw
  return (← parseU32 id, ← parseI32 status)

/-- A uid is filed under the user being listed, or under the one that its number is in. -/
def pushUid (currentUser : Option UInt32) (byUser : UidMap) (uid : UInt32) : UidMap :=
  let user := currentUser.getD (uid / uidsPerUser)
  byUser.insert user ((byUser[user]?).getD [] ++ [uid])

/-- What a row adds to its package; the first path that is listed stays. -/
def PackageEntry.addRow (entry : PackageEntry) (currentUser : Option UInt32) (row : PackageRow) :
    PackageEntry where
  apkPath := if entry.apkPath.isNone then row.apkPath else entry.apkPath
  uidsByUser := row.uids.foldl (pushUid currentUser) entry.uidsByUser

/-- One line of the scan. -/
def Scan.step (scan : Scan) (line : Str) : Scan :=
  match stripPrefix pmUserBegin line with
  | some raw =>
    let user := beginUser raw
    -- a later scan of the user must not inherit an earlier success
    { scan with currentUser := user, statuses := user.elim scan.statuses scan.statuses.erase }
  | none =>
    match stripPrefix pmUserEnd line with
    | some raw =>
      let statuses :=
        match endStatus raw with
        | some (id, status) =>
          if scan.currentUser = some id then scan.statuses.insert id status else scan.statuses
        | none => scan.statuses
      { scan with currentUser := none, statuses := statuses }
    | none =>
      match parsePackageRow line with
      | some row =>
        let entry := (scan.packages[row.packageName]?).getD PackageEntry.default
        -- rows count even if the frame fails, or outside of any
        { scan with
          packages := scan.packages.insert row.packageName (entry.addRow scan.currentUser row) }
      | none => scan

/-- The scan of all lines. -/
def scanLines (lines : List Str) : Scan := lines.foldl Scan.step Scan.start

/-- `sort_unstable` and `dedup`. -/
def sortedUids (uids : List UInt32) : List UInt32 := (uids.mergeSort (· ≤ ·)).destutter (· ≠ ·)

/-- The uids of each user in order, and each once. -/
def PackageEntry.sorted (entry : PackageEntry) : PackageEntry :=
  { entry with uidsByUser := entry.uidsByUser.map fun _ uids => sortedUids uids }

/-- Whether the list of users ends with a good status and has all the expected users in it. -/
def userListComplete (usersRaw : Str) (expectedUsers : List UInt32) : Bool :=
  expectedUsers ≠ [] && (linesOf usersRaw).any fun line =>
    (((stripPrefix pmUsersStatus line).bind (rsplitOnce ":".toList)).bind fun v =>
      parseI32 (trim v.2)) = some 0

/-- What is made of a scan. -/
def inventoryOf (scan : Scan) (usersRaw : Str) (expectedUsers : List UInt32) : PackageInventory :=
  let failed : Std.ExtTreeSet UInt32 :=
    .ofList (expectedUsers.filter fun id => scan.statuses[id]? ≠ some 0)
  { packages := scan.packages.map fun _ entry => entry.sorted
    failedUserIds := failed.toList
    userListComplete := userListComplete usersRaw expectedUsers }

/-- `parse_inventory`: both texts are scanned, if they are not too large. -/
def parseInventory (packagesRaw usersRaw : Str) (expectedUsers : List UInt32) :
    Except InventoryError PackageInventory := do
  bounded packagesRaw
  bounded usersRaw
  return inventoryOf (scanLines (linesOf packagesRaw)) usersRaw expectedUsers

/-! ## Markers -/

/-- What a marker line says, if it is one. -/
def markOf (line : Str) : Option (FrameMark UInt32 ℤ) :=
  match stripPrefix pmUserBegin line with
  | some raw => some (.opened (beginUser raw))
  | none => (stripPrefix pmUserEnd line).map fun raw => .closed (endStatus raw)

/-- The marks among the lines. -/
def marksOf (lines : List Str) : List (FrameMark UInt32 ℤ) := lines.filterMap markOf

/-- The user of the frame that is open after some lines. -/
def openUser (lines : List Str) : Option UInt32 := (marksOf lines).getLast?.bind FrameMark.openKey

/-- The scan has followed the markers. -/
structure Scan.Follows (scan : Scan) (t : Transcript UInt32 ℤ) : Prop where
  currentUser : scan.currentUser = t.current
  statuses : ∀ id, scan.statuses[id]? = t.result id

section Markers

variable {scan : Scan} {t : Transcript UInt32 ℤ} {line : Str} {lines : List Str} {user : UInt32}

/-- One line keeps the scan and the transcript together. -/
theorem Scan.Follows.step (h : scan.Follows t) (line : Str) :
    (scan.step line).Follows (match markOf line with
      | some m => t.mark m
      | none => t) := by
  rw [Scan.step, markOf]
  cases hbegin : stripPrefix pmUserBegin line with
  | some raw =>
    dsimp only
    refine ⟨rfl, fun id => ?_⟩
    cases beginUser raw with
    | none => exact h.statuses id
    | some user =>
      dsimp only [Option.elim_some, Transcript.mark]
      rw [Std.ExtTreeMap.getElem?_erase, h.statuses]
      simp
  | none =>
    cases hend : stripPrefix pmUserEnd line with
    | some raw =>
      dsimp only [Option.map_some]
      cases hstatus : endStatus raw with
      | none => exact ⟨rfl, h.statuses⟩
      | some entry =>
        obtain ⟨id', status⟩ := entry
        refine ⟨rfl, fun id => ?_⟩
        dsimp only [Transcript.mark]
        rw [h.currentUser]
        split_ifs with hcurrent
        · by_cases hid : id = id'
          · rw [hid, Std.ExtTreeMap.getElem?_insert_self, Function.update_self]
          · rw [getElem?_insert_of_ne (Ne.symm hid), Function.update_of_ne hid, h.statuses]
        · exact h.statuses id
    | none =>
      dsimp only [Option.map_none]
      cases parsePackageRow line with
      | none => exact h
      | some row => exact ⟨h.currentUser, h.statuses⟩

theorem marksOf_append (lines lines' : List Str) :
    marksOf (lines ++ lines') = marksOf lines ++ marksOf lines' :=
  List.filterMap_append

theorem scanLines_concat (lines : List Str) (line : Str) :
    scanLines (lines ++ [line]) = (scanLines lines).step line := by
  rw [scanLines, List.foldl_append]
  rfl

/-- The scan follows the transcript of its marks. -/
theorem follows_scanLines (lines : List Str) :
    (scanLines lines).Follows (.ofMarks (marksOf lines)) := by
  induction lines using List.reverseRecOn with
  | nil =>
    exact ⟨rfl, fun id => by
      simp [scanLines, Scan.start, Transcript.ofMarks, marksOf, Transcript.empty]⟩
  | append_singleton lines line ih =>
    have hstep := ih.step line
    rw [scanLines_concat, marksOf_append]
    cases hmark : markOf line with
    | none =>
      have hmarks : marksOf [line] = [] := by simp [marksOf, hmark]
      rw [hmark] at hstep
      rw [hmarks, List.append_nil]
      exact hstep
    | some m =>
      have hmarks : marksOf [line] = [m] := by simp [marksOf, hmark]
      rw [hmark] at hstep
      rw [hmarks, Transcript.ofMarks_concat]
      exact hstep

/-- The user whose packages are being listed. -/
theorem currentUser_scanLines (lines : List Str) :
    (scanLines lines).currentUser = openUser lines := by
  rw [(follows_scanLines lines).currentUser, Transcript.current_ofMarks, openUser]

/-- The status of a user is the one of its last frame. -/
theorem statuses_scanLines (lines : List Str) (user : UInt32) :
    (scanLines lines).statuses[user]? = (Transcript.ofMarks (marksOf lines)).result user :=
  (follows_scanLines lines).statuses user

end Markers

/-! ## Uids -/

/-- The uids of a package under a user. -/
def uidsAt (packages : StrMap PackageEntry) (name : Str) (user : UInt32) : List UInt32 :=
  ((packages[name]?).bind fun entry => entry.uidsByUser[user]?).getD []

/-- The line is a row of the package with the uid, which belongs to the user. -/
def RowAt (before : List Str) (line name : Str) (user uid : UInt32) : Prop :=
  ∃ row, parsePackageRow line = some row ∧ row.packageName = name ∧ uid ∈ row.uids ∧
    user = (openUser before).getD (uid / uidsPerUser)

section Uids

variable {scan : Scan} {name line : Str} {lines : List Str} {user uid : UInt32}
  {currentUser : Option UInt32}

/-- A marker is no row: it begins with another letter. -/
theorem stripPrefix_of_row {row : PackageRow} (h : parsePackageRow line = some row) :
    stripPrefix pmUserBegin line = none ∧ stripPrefix pmUserEnd line = none := by
  have hmarker : ∀ m : Str, stripPrefix ('_' :: m) line = none := by
    intro m
    rw [Option.eq_none_iff_forall_ne_some]
    intro raw hline
    have hline := stripPrefix_eq_some hline
    have htrim : trim line <+: line := by
      rw [trim, trimStart, hline, List.cons_append, List.dropWhile_cons_of_neg (by decide)]
      exact List.rdropWhile_prefix _ _
    rw [parsePackageRow] at h
    obtain ⟨body, hbody, -⟩ := Option.bind_eq_some_iff.1 h
    have hpackage := stripPrefix_eq_some hbody
    obtain ⟨rest, hrest⟩ := htrim
    rw [hpackage, hline] at hrest
    -- the first letters differ
    cases hrest
  exact ⟨hmarker _, hmarker _⟩

/-- A uid is filed under its user. -/
theorem mem_pushUid {byUser : UidMap} {x : UInt32} :
    x ∈ ((pushUid currentUser byUser uid)[user]?).getD [] ↔
      x ∈ (byUser[user]?).getD [] ∨ (x = uid ∧ user = currentUser.getD (uid / uidsPerUser)) := by
  rw [pushUid]
  by_cases huser : user = currentUser.getD (uid / uidsPerUser)
  · rw [← huser]
    simp
  · rw [getElem?_insert_of_ne (Ne.symm huser)]
    simp [huser]

/-- All uids of a row are filed. -/
theorem mem_foldl_pushUid {byUser : UidMap} (uids : List UInt32) :
    uid ∈ ((uids.foldl (pushUid currentUser) byUser)[user]?).getD [] ↔
      uid ∈ (byUser[user]?).getD [] ∨
        (uid ∈ uids ∧ user = currentUser.getD (uid / uidsPerUser)) := by
  induction uids generalizing byUser with
  | nil => simp
  | cons x uids ih =>
    rw [List.foldl_cons, ih, mem_pushUid, List.mem_cons, or_assoc]
    constructor
    · rintro (h | ⟨rfl, h⟩ | ⟨h, h'⟩)
      · exact .inl h
      · exact .inr ⟨.inl rfl, h⟩
      · exact .inr ⟨.inr h, h'⟩
    · rintro (h | ⟨rfl | h, h'⟩)
      · exact .inl h
      · exact .inr (.inl ⟨rfl, h'⟩)
      · exact .inr (.inr ⟨h, h'⟩)

/-- A line adds the uids of its row. -/
theorem mem_uidsAt_step :
    uid ∈ uidsAt (scan.step line).packages name user ↔
      uid ∈ uidsAt scan.packages name user ∨
        ∃ row, parsePackageRow line = some row ∧ row.packageName = name ∧ uid ∈ row.uids ∧
          user = scan.currentUser.getD (uid / uidsPerUser) := by
  cases hrow : parsePackageRow line with
  | none =>
    have hpackages : (scan.step line).packages = scan.packages := by
      rw [Scan.step, hrow]
      cases stripPrefix pmUserBegin line with
      | some raw => rfl
      | none => cases stripPrefix pmUserEnd line <;> rfl
    rw [hpackages]
    simp
  | some row =>
    obtain ⟨hbegin, hend⟩ := stripPrefix_of_row hrow
    have hpackages : (scan.step line).packages = scan.packages.insert row.packageName
        (((scan.packages[row.packageName]?).getD .default).addRow scan.currentUser row) := by
      rw [Scan.step, hbegin, hend, hrow]
    rw [hpackages, uidsAt]
    by_cases hname : row.packageName = name
    · subst hname
      rw [Std.ExtTreeMap.getElem?_insert_self, Option.bind_some, PackageEntry.addRow,
        mem_foldl_pushUid, uidsAt]
      cases scan.packages[row.packageName]? with
      | none => simp [PackageEntry.default]
      | some entry => simp
    · rw [getElem?_insert_of_ne hname, ← uidsAt]
      simp [hname]

/-- The uids of a package under a user are those of its rows. -/
theorem mem_uidsAt_scanLines (lines : List Str) :
    uid ∈ uidsAt (scanLines lines).packages name user ↔
      ∃ before line after, lines = before ++ line :: after ∧ RowAt before line name user uid := by
  induction lines using List.reverseRecOn with
  | nil => simp [scanLines, Scan.start, uidsAt]
  | append_singleton lines line ih =>
    rw [scanLines_concat, mem_uidsAt_step, ih, currentUser_scanLines]
    constructor
    · rintro (⟨before, l, after, rfl, hrow⟩ | hrow)
      · exact ⟨before, l, after ++ [line], by simp, hrow⟩
      · exact ⟨lines, line, [], rfl, hrow⟩
    · rintro ⟨before, l, after, heq, hrow⟩
      obtain rfl | ⟨after, x, rfl⟩ := after.eq_nil_or_concat
      · obtain ⟨rfl, hl⟩ := List.append_inj' heq rfl
        obtain rfl := List.singleton_inj.1 hl
        exact .inr hrow
      · rw [List.concat_eq_append, ← List.cons_append, ← List.append_assoc] at heq
        exact .inl ⟨before, l, after, (List.append_inj' heq rfl).1, hrow⟩

theorem mem_destutter_ne {α : Type} [DecidableEq α] {x : α} (l : List α) :
    x ∈ l.destutter (· ≠ ·) ↔ x ∈ l := by
  have hcons : ∀ (l : List α) (a : α), x ∈ l.destutter' (· ≠ ·) a ↔ x = a ∨ x ∈ l := by
    intro l
    induction l with
    | nil => simp
    | cons b l ih =>
      intro a
      by_cases hab : a ≠ b
      · rw [List.destutter'_cons_pos _ hab, List.mem_cons, ih, List.mem_cons]
      · obtain rfl := not_not.1 hab
        rw [List.destutter'_cons_neg _ hab, ih, List.mem_cons]
        tauto
  cases l with
  | nil => simp
  | cons a l => rw [List.destutter_cons', hcons, List.mem_cons]

/-- Sorting loses no uid. -/
theorem mem_sortedUids {uids : List UInt32} : uid ∈ sortedUids uids ↔ uid ∈ uids := by
  rw [sortedUids, mem_destutter_ne, List.mem_mergeSort]

/-- What is in order without repetition has each uid once. -/
theorem nodup_of_sorted {uids : List UInt32} (hle : uids.Pairwise (· ≤ ·))
    (hne : uids.IsChain (· ≠ ·)) :
    uids.Nodup := by
  induction uids with
  | nil => exact List.nodup_nil
  | cons a uids ih =>
    rw [List.pairwise_cons] at hle
    refine List.nodup_cons.2 ⟨fun hmem => ?_, ih hle.2 hne.tail⟩
    cases uids with
    | nil => exact List.not_mem_nil hmem
    | cons b uids =>
      have hab : a ≠ b := hne.rel
      obtain rfl | hmem := List.mem_cons.1 hmem
      · exact hab rfl
      · have hba : b ≤ a := (List.pairwise_cons.1 hle.2).1 a hmem
        exact hab (UInt32.le_antisymm (hle.1 b List.mem_cons_self) hba)

/-- Sorted and without repetitions, a uid is listed once. -/
theorem nodup_sortedUids (uids : List UInt32) : (sortedUids uids).Nodup := by
  have hsorted : (uids.mergeSort (· ≤ ·)).Pairwise fun a b => decide (a ≤ b) = true := by
    refine List.pairwise_mergeSort (fun a b c hab hbc => ?_) (fun a b => ?_) uids
    · rw [decide_eq_true_eq] at hab hbc ⊢
      exact UInt32.le_trans hab hbc
    · simpa using UInt32.le_total a b
  refine nodup_of_sorted ?_ (List.isChain_destutter _ _)
  exact (hsorted.sublist (List.destutter_sublist _ _)).imp of_decide_eq_true

/-- Sorting the entries sorts the uids of each user. -/
theorem uidsAt_sorted (packages : StrMap PackageEntry) (name : Str) (user : UInt32) :
    uidsAt (packages.map fun _ entry => entry.sorted) name user =
      sortedUids (uidsAt packages name user) := by
  have hnil : sortedUids [] = [] := by simp [sortedUids]
  rw [uidsAt, uidsAt, Std.ExtTreeMap.getElem?_map]
  cases packages[name]? with
  | none => exact hnil.symm
  | some entry =>
    simp only [Option.map_some, Option.bind_some, PackageEntry.sorted, Std.ExtTreeMap.getElem?_map]
    cases entry.uidsByUser[user]? with
    | none => exact hnil.symm
    | some uids => rfl

end Uids

/-! ## Completeness -/

/-- The last scan of the user has succeeded: among the markers, some line ends a frame of the user
    with success right after it was opened, and no later frame of the user lacks this. -/
def Complete (lines : List Str) (user : UInt32) : Prop :=
  ∃ before after, marksOf lines = before ++ .opened (some user) :: .closed (some (user, 0)) ::
    after ∧ ∀ b c, after = b ++ .opened (some user) :: c → ∃ d, c = .closed (some (user, 0)) :: d

/-- The line ends the frame that is open, which is one of the user, with success. -/
def Succeeds (before : List Str) (line : Str) (user : UInt32) : Prop :=
  openUser before = some user ∧ markOf line = some (.closed (some (user, 0)))

/-- A successful end is cut off, which is later than all that are left. -/
def CutEnd (left lines : List Str) (user : UInt32) : Prop :=
  ∃ before line after, lines = before ++ line :: after ∧ Succeeds before line user ∧
    ¬before ++ [line] <+: left ∧ ∀ before' line', Succeeds before' line' user →
      before' ++ [line'] <+: lines → before' ++ [line'] <+: left → before' ++ [line'] <+: before

/-- What is left of the last line opens a frame of the user. -/
def CutBegin (left lines : List Str) (user : UInt32) : Prop :=
  ∃ kept cut line rest, left = kept ++ [cut] ∧ lines = kept ++ line :: rest ∧ cut <+: line ∧
    cut ≠ line ∧ markOf cut = some (.opened (some user))

section Completeness

variable {raw left : Str} {lines : List Str} {user : UInt32} {expectedUsers : List UInt32}

/-- A user is complete just if its part ended well. -/
theorem complete_iff : (scanLines lines).statuses[user]? = some 0 ↔ Complete lines user := by
  rw [statuses_scanLines, Transcript.result_iff_closed]
  exact Iff.rfl

/-- While a user is open, its begin line is the last mark. -/
theorem getLast?_of_openUser (h : openUser lines = some user) :
    (marksOf lines).getLast? = some (.opened (some user)) := by
  rw [openUser, ← Transcript.current_ofMarks] at h
  exact Transcript.current_eq_some.1 h

/-- The last successful end of a user that is complete. -/
theorem exists_succeeds (h : (scanLines lines).statuses[user]? = some 0) :
    ∃ before line after, lines = before ++ line :: after ∧ Succeeds before line user ∧
      .opened (some user) ∉ marksOf after := by
  rw [statuses_scanLines, Transcript.result_iff] at h
  obtain ⟨before, after, hmarks, hafter⟩ := h
  rw [List.append_cons] at hmarks
  obtain ⟨first, last, rfl, hfirst, hlast⟩ := List.filterMap_eq_append_iff.1 hmarks
  -- between the two markers there may be rows
  obtain ⟨skipped, line, rest, rfl, hskipped, hline, hrest⟩ := List.filterMap_eq_cons_iff.1 hlast
  refine ⟨first ++ skipped, line, rest, by simp, ⟨?_, hline⟩, ?_⟩
  · have hmarks : marksOf (first ++ skipped) = before ++ [.opened (some user)] := by
      rw [marksOf_append, marksOf, marksOf, hfirst, List.filterMap_eq_nil_iff.2 hskipped,
        List.append_nil]
    rw [openUser, hmarks, List.getLast?_concat]
    rfl
  · rw [marksOf, hrest]
    exact hafter

/-- After a successful end, the user stays complete until it is opened again. -/
theorem statuses_of_succeeds {before after : List Str} {line : Str} (h : Succeeds before line user)
    (hafter : .opened (some user) ∉ marksOf after) :
    (scanLines (before ++ line :: after)).statuses[user]? = some 0 := by
  have hline : marksOf (line :: after) = .closed (some (user, 0)) :: marksOf after := by
    rw [marksOf, List.filterMap_cons_some h.2]
    rfl
  rw [statuses_scanLines, marksOf_append, hline]
  exact Transcript.result_append (getLast?_of_openUser h.1) hafter

/-- A cut makes a complete user fail only if it cuts off its last end, or leaves a marker that
    opens a frame of the user. -/
theorem cut_of_failed (hleft : left <+: raw)
    (hraw : (scanLines (linesOf raw)).statuses[user]? = some 0)
    (hfailed : (scanLines (linesOf left)).statuses[user]? ≠ some 0) :
    CutEnd (linesOf left) (linesOf raw) user ∨ CutBegin (linesOf left) (linesOf raw) user := by
  obtain ⟨before, line, after, hlines, hsucceeds, hafter⟩ := exists_succeeds hraw
  by_cases hwhole : before ++ [line] <+: linesOf left
  · obtain ⟨kept, cut, part, rest, hkept, hpart, hcut⟩ :
        ∃ kept cut part rest, linesOf left = kept ++ [cut] ∧ linesOf raw = kept ++ part :: rest ∧
          cut <+: part :=
      splitOnP_of_prefix hleft
    rw [hkept] at hfailed hwhole
    obtain heq | ⟨between, hbetween⟩ := List.prefix_concat_iff.1 hwhole
    · rw [← heq] at hfailed
      exact absurd (statuses_of_succeeds hsucceeds List.not_mem_nil) hfailed
    · -- the end is left, so that only the line that is cut can have opened a frame
      have hafter' : after = between ++ part :: rest := by
        rw [hpart, ← hbetween, List.append_assoc, List.append_assoc] at hlines
        exact (List.cons.inj (List.append_cancel_left hlines)).2.symm
      have hnone :
          .opened (some user) ∉ marksOf between ∧ .opened (some user) ∉ marksOf (part :: rest) := by
        rw [hafter', marksOf_append, List.mem_append, not_or] at hafter
        exact hafter
      have hmark : markOf cut = some (.opened (some user)) := by
        by_contra hmark
        have hsplit : kept ++ [cut] = before ++ line :: (between ++ [cut]) := by
          rw [← hbetween]
          simp
        refine hfailed ?_
        rw [hsplit]
        refine statuses_of_succeeds hsucceeds ?_
        rw [marksOf_append, List.mem_append, not_or]
        refine ⟨hnone.1, fun hmem => hmark ?_⟩
        obtain ⟨l, hl, hopened⟩ := List.mem_filterMap.1 hmem
        obtain rfl := List.mem_singleton.1 hl
        exact hopened
      refine .inr ⟨kept, cut, part, rest, hkept, hpart, hcut, ?_, hmark⟩
      rintro rfl
      exact hnone.2 (List.mem_filterMap.2 ⟨cut, List.mem_cons_self, hmark⟩)
  · refine .inl ⟨before, line, after, hlines, hsucceeds, hwhole,
      fun before' line' _ hprefix hleft' => ?_⟩
    have hline : before ++ [line] <+: linesOf raw := ⟨after, by rw [hlines, List.append_assoc]; rfl⟩
    obtain hle | hle := List.prefix_or_prefix_of_prefix hprefix hline
    · obtain heq | hbefore := List.prefix_concat_iff.1 hle
      · rw [heq] at hleft'
        exact absurd hleft' hwhole
      · exact hbefore
    · exact absurd (hle.trans hleft') hwhole

theorem bounded_eq_ok (h : (toUtf8 raw).length ≤ maxObservationBytes) : bounded raw = .ok () :=
  if_neg (Nat.not_lt.2 h)

theorem length_toUtf8_cut (hleft : left <+: raw) : (toUtf8 left).length ≤ (toUtf8 raw).length := by
  obtain ⟨rest, rfl⟩ := hleft
  rw [toUtf8_append, List.length_append]
  exact Nat.le_add_right _ _

theorem parseInventory_eq_ok {usersRaw : Str} (hraw : (toUtf8 raw).length ≤ maxObservationBytes)
    (husers : (toUtf8 usersRaw).length ≤ maxObservationBytes) (expectedUsers : List UInt32) :
    parseInventory raw usersRaw expectedUsers =
      .ok (inventoryOf (scanLines (linesOf raw)) usersRaw expectedUsers) := by
  rw [parseInventory, bounded_eq_ok hraw, bounded_eq_ok husers]
  rfl

/-- A user fails unless its part ended well. -/
theorem mem_failedUserIds {scan : Scan} {usersRaw : Str} :
    user ∈ (inventoryOf scan usersRaw expectedUsers).failedUserIds ↔
      user ∈ expectedUsers ∧ scan.statuses[user]? ≠ some 0 := by
  rw [inventoryOf, Std.ExtTreeSet.mem_toList, Std.ExtTreeSet.mem_ofList, List.contains_iff_mem,
    List.mem_filter, decide_eq_true_eq]

end Completeness

/-- The inventory of a text within the bound. A user is complete if its last frame ends with its own
    success. Every uid of a row is listed once, under the user whose frame is open or else the one
    it belongs to, and nothing else is. If the text is cut, a complete user fails only if a
    successful end is cut off that is later than those left, or if what is left of the line that
    is cut opens a frame of the user. -/
theorem parseInventory_exact (packagesRaw usersRaw : Str) (expectedUsers : List UInt32)
    (hpackages : (toUtf8 packagesRaw).length ≤ maxObservationBytes)
    (husers : (toUtf8 usersRaw).length ≤ maxObservationBytes) :
    ∃ inventory, parseInventory packagesRaw usersRaw expectedUsers = .ok inventory ∧
      (∀ user ∈ expectedUsers, user ∉ inventory.failedUserIds ↔
        Complete (linesOf packagesRaw) user) ∧
      (∀ name user, (uidsAt inventory.packages name user).Nodup ∧
        ∀ uid, uid ∈ uidsAt inventory.packages name user ↔
          ∃ before line after, linesOf packagesRaw = before ++ line :: after ∧
            RowAt before line name user uid) ∧
      ∀ left, left <+: packagesRaw → ∃ rest, parseInventory left usersRaw expectedUsers = .ok rest ∧
        ∀ user ∈ rest.failedUserIds, user ∉ inventory.failedUserIds →
          CutEnd (linesOf left) (linesOf packagesRaw) user ∨
            CutBegin (linesOf left) (linesOf packagesRaw) user := by
  -- A user that has not failed has ended with status 0.
  have hcomplete : ∀ user ∈ expectedUsers,
      user ∉ (inventoryOf (scanLines (linesOf packagesRaw)) usersRaw expectedUsers).failedUserIds →
        (scanLines (linesOf packagesRaw)).statuses[user]? = some 0 := by
    intro user huser hnot
    by_contra hstatus
    exact hnot (mem_failedUserIds.2 ⟨huser, hstatus⟩)
  refine ⟨_, parseInventory_eq_ok hpackages husers expectedUsers, fun user huser => ?_,
    fun name user => ?_, fun left hleft => ?_⟩
  · -- The status of a user says whether its frame is complete.
    rw [← complete_iff]
    exact ⟨hcomplete user huser, fun hstatus hmem => (mem_failedUserIds.1 hmem).2 hstatus⟩
  · rw [inventoryOf, uidsAt_sorted]
    refine ⟨nodup_sortedUids _, fun uid => ?_⟩
    rw [mem_sortedUids, mem_uidsAt_scanLines]
  · refine ⟨_, parseInventory_eq_ok ((length_toUtf8_cut hleft).trans hpackages)
      husers expectedUsers,
      fun user hmem hnot => ?_⟩
    -- A user that fails only after the cut has lost its end, or its begin was cut inside the
    -- number.
    obtain ⟨huser, hstatus⟩ := mem_failedUserIds.1 hmem
    exact cut_of_failed hleft (hcomplete user huser hnot) hstatus

/-- User `1` is scanned, and the scan of user `12` has begun. -/
def twoFrames : Str :=
  pmUserBegin ++ "1\n".toList ++ pmUserEnd ++ "1:0\n".toList ++ pmUserBegin ++ "12".toList

theorem parseInventory_exact_twoFrames :
    (toUtf8 twoFrames).length ≤ maxObservationBytes ∧ (toUtf8 []).length ≤ maxObservationBytes ∧
      ∃ inventory, parseInventory twoFrames [] [1] = .ok inventory ∧
        (1 ∉ inventory.failedUserIds ↔ Complete (linesOf twoFrames) 1) := by
  have hpackages : (toUtf8 twoFrames).length ≤ maxObservationBytes := by decide +kernel
  have husers : (toUtf8 []).length ≤ maxObservationBytes := by decide +kernel
  obtain ⟨inventory, hinventory, hcomplete, -⟩ :=
    parseInventory_exact twoFrames [] [1] hpackages husers
  exact ⟨hpackages, husers, inventory, hinventory, hcomplete 1 List.mem_cons_self⟩

/-- If the last letter is cut off, the frame of user `12` becomes one of user `1`, whose own frame
    is left and was never repeated. -/
theorem cut_begin_fails_other_user :
    (parseInventory twoFrames [] [1]).map (·.failedUserIds) = .ok
      [] ∧ twoFrames.dropLast <+: twoFrames ∧ (parseInventory twoFrames.dropLast [] [1]).map
        (·.failedUserIds) = .ok [1] ∧
      linesOf twoFrames =
        [pmUserBegin ++ ['1'], pmUserEnd ++ "1:0".toList, pmUserBegin ++ "12".toList] ∧
      linesOf twoFrames.dropLast =
        [pmUserBegin ++ ['1'], pmUserEnd ++ "1:0".toList, pmUserBegin ++ "1".toList] ∧
      ¬CutEnd (linesOf twoFrames.dropLast) (linesOf twoFrames) 1 := by
  have hlines :
      linesOf twoFrames =
        [pmUserBegin ++ ['1'], pmUserEnd ++ "1:0".toList, pmUserBegin ++ "12".toList] := by
    decide +kernel
  have hleft : linesOf twoFrames.dropLast =
      [pmUserBegin ++ ['1'], pmUserEnd ++ "1:0".toList, pmUserBegin ++ "1".toList] := by
    decide +kernel
  refine ⟨by decide +kernel, List.dropLast_prefix _, by decide +kernel, hlines, hleft, ?_⟩
  have hbegin : ∀ raw, markOf (pmUserBegin ++ raw) = some (.opened (beginUser raw)) := by
    intro raw
    rw [markOf, stripPrefix_append]
  rw [hlines, hleft]
  rintro ⟨before, line, after, heq, ⟨-, hline⟩, hcut, -⟩
  obtain _ | ⟨first, _ | ⟨second, _ | ⟨third, before⟩⟩⟩ := before
  · obtain rfl := (List.cons.inj heq).1
    rw [hbegin] at hline
    cases hline
  · simp only [List.cons_append, List.nil_append, List.cons.injEq] at heq
    rw [← heq.1, ← heq.2.1] at hcut
    exact hcut (List.prefix_append _ _)
  · simp only [List.cons_append, List.nil_append, List.cons.injEq] at heq
    rw [← heq.2.2.1, hbegin] at hline
    cases hline
  · simp at heq

end VpnHide.NativePolicy

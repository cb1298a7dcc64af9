import DashTwrp.VerifyTree.FstabGate
import Mathlib.Data.List.Nodup
import Mathlib.Data.List.Perm.Subperm

namespace DashTwrp.VerifyTree

open DashTwrp.Python DashTwrp.Unix

/-! The fstab checks as rules about the rows, without the order in which they are tested
and the exceptions that end them. -/

/-- The first column passes a test. -/
def firstPasses (test : List Char → Bool) (row : Row) : Bool := row[0]?.any test

/-- The rows whose second column is a mount point. -/
def mountedAt (point : String) (rows : List Row) : List Row :=
  rows.filter (·[1]? = some point.toList)

/-- The row of a logical partition. -/
def logicalRow (name : String) (point : List Char) (filesystem : String) : Row :=
  [name.toList, point, filesystem.toList, "ro".toList, "wait,slotselect,logical".toList]

/-- One row is mounted there, with a device, a file system and some flags. -/
def MountRule (point device filesystem : String) (required : List String) (rows : List Row) : Prop :=
  ∃ row, mountedAt point rows = [row] ∧ row[0]? = some device.toList ∧
    row[2]? = some filesystem.toList ∧ ∀ flag ∈ required, flag.toList ∈ fiveColumnFlags row

/-- The last components of the devices under `by-name`. -/
def NamedPartition (rows : List Row) (partition : List Char) : Prop :=
  ∃ row ∈ rows, ∃ device, row[0]? = some device ∧ "/dev/block/by-name/".toList <+: device ∧
    afterLast '/' device = partition

/-- A name of a row of five columns that has the logical flag. -/
def LogicalName (rows : List Row) (name : List Char) : Prop :=
  ∃ row ∈ rows, row[0]? = some name ∧ "logical".toList ∈ fiveColumnFlags row

/-- The rules that the checks enforce. -/
structure FstabRules (fstab stock : List Char) (rows : List Row) : Prop where
  columns : ∀ row ∈ rows, row ≠ []
  logical : ∀ name ∈ logicalNames, ∃ point other,
    (rows.filter (firstPasses (· == name.toList))).Perm
      [logicalRow name point "erofs", logicalRow name other "ext4"]
  metadata : MountRule "/metadata" "/dev/block/by-name/metadata" "f2fs" [] rows
  userdata : MountRule "/data" "/dev/block/by-name/userdata" "f2fs"
    ["fileencryption=aes-256-xts:aes-256-cts:v2+inlinecrypt_optimized",
      "keydirectory=/metadata/vold/metadata_encryption", "storage", "settingsstorage",
      "userdataencryptbackup"] rows
  cache : MountRule "/cache" "/dev/block/by-name/rescue" "ext4"
    ["wait", "check", "formattable", "wipeduringfactoryreset=0", "display=Cache (Rescue)"] rows
  external : ∃ row flags, rows.filter (firstPasses ("/devices/".toList.isPrefixOf ·)) = [row] ∧
    row[0]? = some "/devices/platform/soc/16701000.usb0/16700000.xhci*".toList ∧
    row[4]? = some flags ∧ "storagename=USB-OTG".toList ∈ commaList flags
  byName : ∀ partition, NamedPartition rows partition ↔ partition ∈ allowedByName.map String.toList
  slotselect : ∀ name ∈ ["vbmeta", "vbmeta_system", "vbmeta_vendor"], ∃ row,
    rows.filter (fun row => row.length = 5 && row[1]? = some ("/" ++ name).toList) = [row] ∧
      row[0]? = some ("/dev/block/by-name/" ++ name).toList ∧ row[4]? = some "slotselect".toList
  logicalSet : ∀ name, LogicalName rows name ↔ LogicalName (stockRows stock) name
  forbidden : ∀ token ∈ forbiddenTokens, ¬ token.toList <:+: fstab

/-! ### The parts of the checks -/

theorem runTests_passed_iff {tests : List (String × Except FstabError Bool)} :
    (∃ checks, runTests tests = .ok checks ∧ allPassed checks = true) ↔
      ∀ test ∈ tests, test.2 = .ok true := by
  constructor
  · intro ran
    obtain ⟨checks, made, passed⟩ := ran
    exact runTests_passed made passed
  · intro right
    induction tests with
    | nil => exact ⟨[], rfl, rfl⟩
    | cons test rest ih =>
        obtain ⟨name, result⟩ := test
        obtain ⟨checks, made, passed⟩ := ih fun other member => right other (List.mem_cons_of_mem _ member)
        have first : result = .ok true := right (name, result) List.mem_cons_self
        refine ⟨{ name, passed := true } :: checks, ?_, by simp [passed]⟩
        rw [first, runTests]
        change (runTests rest >>= _) = _
        rw [made]
        rfl

theorem rowsWhere_eq_ok_iff {test : List Char → Bool} {rows matching : List Row} :
    rowsWhere test rows = .ok matching ↔
      (∀ row ∈ rows, row ≠ []) ∧ matching = rows.filter (firstPasses test) := by
  induction rows generalizing matching with
  | nil => simp [rowsWhere, eq_comm]
  | cons row rest ih =>
      rw [rowsWhere]
      cases row with
      | nil =>
          refine iff_of_false (fun made => ?_) (by simp)
          cases made
      | cons first columns =>
          change (rowsWhere test rest >>= _) = _ ↔ _
          cases made : rowsWhere test rest with
          | error error =>
              refine iff_of_false (fun made => by cases made) fun both => ?_
              have later : rowsWhere test rest = .ok (rest.filter (firstPasses test)) :=
                ih.mpr ⟨fun row member => both.1 row (List.mem_cons_of_mem _ member), rfl⟩
              rw [made] at later
              cases later
          | ok found =>
              obtain ⟨filled, rfl⟩ := ih.mp made
              have head : firstPasses test (first :: columns) = test first := rfl
              rw [List.filter_cons, head, List.forall_mem_cons]
              change Except.ok (if test first then _ else _) = _ ↔ _
              rw [Except.ok.injEq, eq_comm]
              exact ⟨fun same => ⟨⟨by simp, filled⟩, same⟩, And.right⟩

theorem sameElements_iff {first second : List (List Char)} :
    sameElements first second = true ↔ ∀ text, text ∈ first ↔ text ∈ second := by
  simp only [sameElements, Bool.and_eq_true, List.all_eq_true, List.contains_iff_mem]
  exact ⟨fun both text => ⟨both.1 text, both.2 text⟩,
    fun same => ⟨fun text => (same text).mp, fun text => (same text).mpr⟩⟩

theorem logicalRowOk_iff {row : Row} : logicalRowOk row = .ok true ↔
    row[3]? = some "ro".toList ∧ row[4]? = some "wait,slotselect,logical".toList := by
  simp only [logicalRowOk, except_bind_eq_ok_iff, column_eq_ok]
  constructor
  · intro found
    obtain ⟨options, third, rest⟩ := found
    split at rest
    · rename_i readOnly
      obtain ⟨flags, fourth, same⟩ := except_bind_eq_ok rest
      rw [column_eq_ok] at fourth
      exact ⟨readOnly ▸ third, (of_decide_eq_true (Except.ok.inj same)) ▸ fourth⟩
    · cases rest
  · intro both
    refine ⟨_, both.1, ?_⟩
    rw [if_pos rfl, except_bind_eq_ok_iff]
    exact ⟨_, column_eq_ok.mpr both.2, congrArg Except.ok (decide_eq_true rfl)⟩

/-! ### The checks -/

section

variable {rows matching : List Row}

theorem firstPasses_iff {test : List Char → Bool} {row : Row} :
    firstPasses test row = true ↔ ∃ first, row[0]? = some first ∧ test first = true := by
  rw [firstPasses, Option.any_eq_true]

theorem logicalRow_eq {name kind : String} {row : Row} (long : row.length = 5)
    (named : row[0]? = some name.toList) (isKind : row[2]? = some kind.toList)
    (isOk : logicalRowOk row = .ok true) : ∃ point, row = logicalRow name point kind := by
  obtain ⟨readOnly, flags⟩ := logicalRowOk_iff.mp isOk
  rcases row with _ | ⟨first, _ | ⟨point, _ | ⟨third, _ | ⟨options, _ | ⟨last, more⟩⟩⟩⟩⟩
  case cons.cons.cons.cons.cons =>
    have none : more = [] := List.length_eq_zero_iff.mp (by simpa using long)
    simp only [List.getElem?_cons_zero, List.getElem?_cons_succ, Option.some.injEq] at named isKind readOnly flags
    exact ⟨point, by rw [logicalRow, named, isKind, readOnly, flags, none]⟩
  all_goals
    simp at long

/-- Two rows of a name that are right are one for each file system. -/
theorem logicalRows_iff {name : String} (named : ∀ row ∈ matching, row[0]? = some name.toList) :
    (matching.length = 2 ∧
      (∀ text, text ∈ (matching.filter (·.length = 5)).filterMap (·[2]?) ↔
        text ∈ ["erofs".toList, "ext4".toList]) ∧
      ∀ row ∈ matching, logicalRowOk row = .ok true) ↔
    ∃ point other, matching.Perm [logicalRow name point "erofs", logicalRow name other "ext4"] := by
  have kinds (text : List Char) : text ∈ (matching.filter (·.length = 5)).filterMap (·[2]?) ↔
      ∃ row ∈ matching, row.length = 5 ∧ row[2]? = some text := by
    simp only [List.mem_filterMap, List.mem_filter, decide_eq_true_eq, and_assoc]
  simp only [kinds]
  constructor
  · intro right
    obtain ⟨two, same, isOk⟩ := right
    obtain ⟨row, member, long, kind⟩ := (same "erofs".toList).mpr (by simp)
    obtain ⟨point, rfl⟩ := logicalRow_eq long (named row member) kind (isOk row member)
    obtain ⟨row, otherMember, long, kind⟩ := (same "ext4".toList).mpr (by simp)
    obtain ⟨other, rfl⟩ := logicalRow_eq long (named row otherMember) kind (isOk row otherMember)
    have differ : logicalRow name point "erofs" ≠ logicalRow name other "ext4" := by
      intro equal
      have kinds := congrArg (·[2]?) equal
      exact absurd (Option.some.inj kinds) (by decide)
    have both : [logicalRow name point "erofs", logicalRow name other "ext4"] ⊆ matching := by
      intro row listed
      rcases List.mem_pair.mp listed with rfl | rfl
      · exact member
      · exact otherMember
    have distinct : [logicalRow name point "erofs", logicalRow name other "ext4"].Nodup := by
      rw [List.nodup_cons]
      exact ⟨fun listed => differ (List.mem_singleton.mp listed), List.nodup_singleton _⟩
    exact ⟨point, other,
      ((List.subperm_of_subset distinct both).perm_of_length_le two.le).symm⟩
  · intro found
    obtain ⟨point, other, same⟩ := found
    refine ⟨same.length_eq, fun text => ?_, fun row member => ?_⟩
    · simp only [same.mem_iff, List.mem_pair]
      constructor
      · intro listed
        obtain ⟨row, isRow, _, kind⟩ := listed
        rcases isRow with rfl | rfl
        · exact .inl (Option.some.inj kind).symm
        · exact .inr (Option.some.inj kind).symm
      · intro isKind
        rcases isKind with rfl | rfl
        · exact ⟨_, .inl rfl, rfl, rfl⟩
        · exact ⟨_, .inr rfl, rfl, rfl⟩
    · rcases List.mem_pair.mp (same.mem_iff.mp member) with rfl | rfl
      · exact logicalRowOk_iff.mpr ⟨rfl, rfl⟩
      · exact logicalRowOk_iff.mpr ⟨rfl, rfl⟩

theorem allM_of_ok (isOk : ∀ row ∈ matching, logicalRowOk row = .ok true) :
    matching.allM logicalRowOk = .ok true := by
  induction matching with
  | nil => rfl
  | cons row rest ih =>
      rw [List.allM, isOk row List.mem_cons_self]
      exact ih fun other member => isOk other (List.mem_cons_of_mem _ member)

theorem logicalCheck_iff {name : String} : logicalCheck rows name = .ok true ↔
    (∀ row ∈ rows, row ≠ []) ∧ ∃ point other,
      (rows.filter (firstPasses (· == name.toList))).Perm
        [logicalRow name point "erofs", logicalRow name other "ext4"] := by
  have named : ∀ row ∈ rows.filter (firstPasses (· == name.toList)), row[0]? = some name.toList := by
    intro row member
    obtain ⟨first, isFirst, same⟩ := firstPasses_iff.mp (List.mem_filter.mp member).2
    rw [isFirst, eq_of_beq same]
  rw [← logicalRows_iff named]
  simp only [logicalCheck, except_bind_eq_ok_iff, rowsWhere_eq_ok_iff]
  constructor
  · intro found
    obtain ⟨matching, ⟨columns, rfl⟩, flagsOk, all, conclusion⟩ := found
    have both := Except.ok.inj conclusion
    simp only [Bool.and_eq_true, decide_eq_true_eq] at both
    obtain ⟨⟨two, kinds⟩, rfl⟩ := both
    exact ⟨columns, two, sameElements_iff.mp kinds, allM_logicalRowOk all⟩
  · intro right
    obtain ⟨columns, two, kinds, isOk⟩ := right
    refine ⟨_, ⟨columns, rfl⟩, true, allM_of_ok isOk, ?_⟩
    rw [decide_eq_true two, sameElements_iff.mpr kinds]
    rfl

/-- A test of the first column in front of another test. -/
theorem sourceTest_iff {row : Row} {device : List Char} {next : Except FstabError Bool} :
    (column row 0 >>= fun source => if source = device then next else pure false) = .ok true ↔
      row[0]? = some device ∧ next = .ok true := by
  simp only [except_bind_eq_ok_iff, column_eq_ok]
  constructor
  · intro found
    obtain ⟨source, first, rest⟩ := found
    split at rest
    · rename_i same
      exact ⟨same ▸ first, rest⟩
    · cases rest
  · intro both
    exact ⟨device, both.1, by rw [if_pos rfl, both.2]⟩

theorem mountCheck_iff {point device filesystem : String} {required : List String} :
    mountCheck point device filesystem required rows = .ok true ↔
      MountRule point device filesystem required rows := by
  have found : rows.filter (·[1]? = some point.toList) = mountedAt point rows := rfl
  unfold mountCheck MountRule
  rw [found]
  rcases mountedAt point rows with _ | ⟨row, _ | ⟨other, rest⟩⟩
  · exact iff_of_false (fun passed => by cases passed) (by simp)
  · refine sourceTest_iff.trans ?_
    simp only [List.cons.injEq, and_true, exists_eq_left', except_bind_eq_ok_iff, column_eq_ok]
    refine and_congr_right fun _ => ?_
    constructor
    · intro passed
      obtain ⟨kind, second, conclusion⟩ := passed
      have both := Except.ok.inj conclusion
      simp only [Bool.and_eq_true, decide_eq_true_eq, List.all_eq_true, List.contains_iff_mem] at both
      exact ⟨both.1 ▸ second, both.2⟩
    · intro right
      refine ⟨_, right.1, congrArg Except.ok ?_⟩
      simpa only [Bool.and_eq_true, decide_eq_true_eq, List.all_eq_true, List.contains_iff_mem,
        true_and] using right.2
  · exact iff_of_false (fun passed => by cases passed) (by simp)

theorem externalCheck_iff : externalCheck rows = .ok true ↔ (∀ row ∈ rows, row ≠ []) ∧
    ∃ row flags, rows.filter (firstPasses ("/devices/".toList.isPrefixOf ·)) = [row] ∧
      row[0]? = some "/devices/platform/soc/16701000.usb0/16700000.xhci*".toList ∧
      row[4]? = some flags ∧ "storagename=USB-OTG".toList ∈ commaList flags := by
  rw [externalCheck, except_bind_eq_ok_iff]
  simp only [rowsWhere_eq_ok_iff, and_assoc, exists_and_left, exists_eq_left]
  refine and_congr_right fun _ => ?_
  rcases rows.filter (firstPasses ("/devices/".toList.isPrefixOf ·)) with _ | ⟨row, _ | ⟨other, rest⟩⟩
  · exact iff_of_false (fun passed => by cases passed) (by simp)
  · refine sourceTest_iff.trans ?_
    simp only [List.cons.injEq, and_true, exists_eq_left', except_bind_eq_ok_iff, column_eq_ok]
    refine and_congr_right fun _ => exists_congr fun flags => and_congr_right fun _ => ?_
    rw [← List.contains_iff_mem]
    exact ⟨Except.ok.inj, congrArg Except.ok⟩
  · exact iff_of_false (fun passed => by cases passed) (by simp)

theorem slotselectCheck_iff {name : String} : slotselectCheck rows name = .ok true ↔
    ∃ row, rows.filter (fun row => row.length = 5 && row[1]? = some ("/" ++ name).toList) = [row] ∧
      row[0]? = some ("/dev/block/by-name/" ++ name).toList ∧ row[4]? = some "slotselect".toList := by
  rw [slotselectCheck]
  generalize List.filter _ rows = matching
  rcases matching with _ | ⟨row, _ | ⟨other, rest⟩⟩
  · exact iff_of_false (fun passed => by cases passed) (by simp)
  · refine sourceTest_iff.trans ?_
    simp only [List.cons.injEq, and_true, exists_eq_left', except_bind_eq_ok_iff, column_eq_ok]
    refine and_congr_right fun _ => ?_
    constructor
    · intro passed
      obtain ⟨flags, found, same⟩ := passed
      exact (of_decide_eq_true (Except.ok.inj same)) ▸ found
    · exact fun found => ⟨_, found, congrArg Except.ok (decide_eq_true rfl)⟩
  · exact iff_of_false (fun passed => by cases passed) (by simp)

theorem mem_namedPartitions {partition : List Char} :
    partition ∈ (rows.filter (firstPasses ("/dev/block/by-name/".toList.isPrefixOf ·))).map
        (fun row => afterLast '/' (row[0]?.getD [])) ↔ NamedPartition rows partition := by
  simp only [List.mem_map, List.mem_filter, firstPasses_iff, List.isPrefixOf_iff_prefix, and_assoc,
    NamedPartition]
  refine exists_congr fun row => and_congr_right fun _ => ?_
  constructor
  · intro found
    obtain ⟨⟨device, first, under⟩, last⟩ := found
    rw [first] at last
    exact ⟨device, first, under, last⟩
  · intro found
    obtain ⟨device, first, under, last⟩ := found
    exact ⟨⟨device, first, under⟩, by rw [first]; exact last⟩

theorem byNameCheck_iff : byNameCheck rows = .ok true ↔ (∀ row ∈ rows, row ≠ []) ∧
    ∀ partition, NamedPartition rows partition ↔ partition ∈ allowedByName.map String.toList := by
  rw [byNameCheck, except_bind_eq_ok_iff]
  simp only [rowsWhere_eq_ok_iff, and_assoc, exists_and_left, exists_eq_left]
  refine and_congr_right fun _ => ?_
  simp only [← mem_namedPartitions, ← sameElements_iff]
  exact ⟨Except.ok.inj, congrArg Except.ok⟩

theorem mem_logicalSet {name : List Char} : name ∈ logicalSet rows ↔ LogicalName rows name := by
  simp only [logicalSet, List.mem_filterMap, List.mem_filter, List.contains_iff_mem, LogicalName,
    and_assoc]
  exact exists_congr fun row => and_congr_right fun _ => and_comm

theorem logicalSetCheck_iff {stock : List Char} : logicalSetCheck stock rows = .ok true ↔
    ∀ name, LogicalName rows name ↔ LogicalName (stockRows stock) name := by
  simp only [← mem_logicalSet, ← sameElements_iff]
  exact ⟨Except.ok.inj, congrArg Except.ok⟩

theorem forbiddenCheck_iff {fstab : List Char} {token : String} :
    forbiddenCheck fstab token = .ok true ↔ ¬ token.toList <:+: fstab :=
  ⟨fun passed => of_decide_eq_true (Except.ok.inj passed), fun absent =>
    congrArg Except.ok (decide_eq_true absent)⟩

/-- The checks accept what follows the rules, and an exception keeps nothing else out. -/
theorem fstabAccepted_iff {fstab stock : List Char} : fstabAccepted fstab stock = true ↔
    ∃ rows, fstabRows fstab = .ok rows ∧ FstabRules fstab stock rows := by
  have accepted : fstabAccepted fstab stock = true ↔ ∃ rows, fstabRows fstab = .ok rows ∧
      ∀ test ∈ fstabTests fstab stock rows, test.2 = .ok true := by
    refine ⟨fstabAccepted_tests, fun found => ?_⟩
    obtain ⟨rows, read, right⟩ := found
    obtain ⟨checks, ran, passed⟩ := runTests_passed_iff.mpr right
    have made : fstabChecks fstab stock = .ok checks := by
      rw [fstabChecks, read]
      exact ran
    rw [fstabAccepted, made]
    exact passed
  rw [accepted]
  refine exists_congr fun rows => and_congr_right fun _ => ?_
  simp only [fstabTests, List.forall_mem_append, List.forall_mem_map, List.forall_mem_cons,
    List.not_mem_nil, false_implies, implies_true, and_true, logicalCheck_iff, metadataCheck,
    userdataCheck, cacheCheck, mountCheck_iff, externalCheck_iff, byNameCheck_iff,
    slotselectCheck_iff, logicalSetCheck_iff, forbiddenCheck_iff]
  constructor
  · intro right
    obtain ⟨⟨⟨⟨logical, metadata, userdata, cache, ⟨columns, external⟩, _, byName⟩, slots⟩,
      logicalSet⟩, forbidden⟩ := right
    exact { columns, metadata, userdata, cache, external, byName, logicalSet, forbidden
            logical := fun name listed => (logical name listed).2
            slotselect := by simpa only [List.forall_mem_cons, List.not_mem_nil, false_implies,
              implies_true, and_true] using slots }
  · intro rules
    have slots := rules.slotselect
    simp only [List.forall_mem_cons, List.not_mem_nil, false_implies, implies_true,
      and_true] at slots
    exact ⟨⟨⟨⟨fun name listed => ⟨rules.columns, rules.logical name listed⟩, rules.metadata,
      rules.userdata, rules.cache, ⟨rules.columns, rules.external⟩, rules.columns, rules.byName⟩,
      slots⟩, rules.logicalSet⟩, rules.forbidden⟩

end

end DashTwrp.VerifyTree

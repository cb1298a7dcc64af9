import DashTwrp.VerifyTree.FstabTexts
import DashTwrp.Unix.Programs

namespace DashTwrp.VerifyTree

open DashTwrp.Python DashTwrp.Unix

/-! What the fstab checks keep out, and what they let through.

A row that mounts a file system names the device, the mount point, the type,
the options and the flags, in this order. -/

/-- A line of the file that holds a row, with its tokens. -/
structure IsRowOf (fstab line : List Char) (row : Row) : Prop where
  inText : line ∈ textLines fstab
  holdsRow : isRow line = true
  tokens : shlexSplit line = .ok row

def rowFlags (row : Row) : List (List Char) := (row[4]?.map commaList).getD []

def rowOptions (row : Row) : List (List Char) := (row[3]?.map commaList).getD []

/-- `avb`, `avb=…` or `avb_keys=…` -/
def AvbFlag (flag : List Char) : Prop :=
  flag = "avb".toList ∨ "avb=".toList <+: flag ∨ "avb_keys=".toList <+: flag

/-- No AVB flag, no overlay, and logical partitions only read-only. -/
structure FstabSafe (fstab : List Char) : Prop where
  noAvb : ∀ line row, IsRowOf fstab line row → ∀ flag ∈ rowFlags row, ¬ AvbFlag flag
  noOverlay : ∀ line row, IsRowOf fstab line row → row[2]? ≠ some "overlay".toList
  readOnly : ∀ line row, IsRowOf fstab line row → "logical".toList ∈ rowFlags row →
    "ro".toList ∈ rowOptions row

/-- The rows that no check looks at are harmless. -/
structure FstabCovered (fstab : List Char) : Prop where
  avbFirst : ∀ line row, IsRowOf fstab line row → ∀ flag ∈ rowFlags row, AvbFlag flag →
    (rowFlags row).head? = some flag ∧ PlainLine line
  overlayInside : ∀ line row, IsRowOf fstab line row → row[2]? = some "overlay".toList →
    3 < row.length ∧ PlainLine line
  longReadOnly : ∀ line row, IsRowOf fstab line row → 5 < row.length →
    "logical".toList ∈ rowFlags row → "ro".toList ∈ rowOptions row

/-! ### What a passed check says -/

theorem runTests_passed {tests : List (String × Except FstabError Bool)} {checks : List Check}
    (ran : runTests tests = .ok checks) (passed : allPassed checks = true) :
    ∀ test ∈ tests, test.2 = .ok true := by
  induction tests generalizing checks with
  | nil => simp
  | cons test rest ih =>
      obtain ⟨name, result⟩ := test
      cases result with
      | error error => cases ran
      | ok value =>
          cases later : runTests rest with
          | error error =>
              simp only [runTests, later] at ran
              cases ran
          | ok found =>
              simp only [runTests, later] at ran
              cases ran
              obtain ⟨first, others⟩ := (allPassed_cons _ _).mp passed
              intro test member
              cases member with
              | head => exact congrArg Except.ok first
              | tail _ inRest => exact ih later others test inRest

theorem fstabAccepted_tests {fstab stock : List Char} (accepted : fstabAccepted fstab stock = true) :
    ∃ rows, fstabRows fstab = .ok rows ∧ ∀ test ∈ fstabTests fstab stock rows, test.2 = .ok true := by
  unfold fstabAccepted fstabChecks at accepted
  cases read : fstabRows fstab with
  | error error => simp [read, bind, Except.bind] at accepted
  | ok rows =>
      refine ⟨rows, rfl, ?_⟩
      cases ran : runTests (fstabTests fstab stock rows) with
      | error error => simp [read, ran, bind, Except.bind] at accepted
      | ok checks =>
          simp only [read, ran, bind, Except.bind] at accepted
          exact runTests_passed ran accepted

theorem mem_rowsOf {lines : List (List Char)} {rows : List Row} (read : rowsOf lines = .ok rows)
    {line : List Char} {row : Row} (member : line ∈ lines) (holdsRow : isRow line = true)
    (tokens : shlexSplit line = .ok row) : row ∈ rows := by
  induction lines generalizing rows with
  | nil => cases member
  | cons first rest ih =>
      rw [rowsOf] at read
      by_cases firstRow : isRow first = true
      · rw [if_pos firstRow] at read
        obtain ⟨firstTokens, split, read⟩ := except_bind_eq_ok read
        obtain ⟨later, others, read⟩ := except_bind_eq_ok read
        cases read
        cases member with
        | head =>
            rw [tokens] at split
            cases split
            exact List.mem_cons_self
        | tail _ inRest => exact List.mem_cons_of_mem _ (ih others inRest)
      · rw [if_neg firstRow] at read
        cases member with
        | head => exact absurd holdsRow firstRow
        | tail _ inRest => exact ih read inRest

theorem column_eq_ok {row : Row} {index : Nat} {text : List Char} :
    column row index = .ok text ↔ row[index]? = some text := by
  cases found : row[index]? <;> simp [column, found]

theorem mem_rowsWhere {test : List Char → Bool} {rows matching : List Row}
    (found : rowsWhere test rows = .ok matching) {row : Row} {first : List Char}
    (member : row ∈ rows) (firstColumn : row[0]? = some first) (passes : test first = true) :
    row ∈ matching := by
  induction rows generalizing matching with
  | nil => cases member
  | cons head rest ih =>
      obtain ⟨text, front, found⟩ := except_bind_eq_ok found
      obtain ⟨later, others, found⟩ := except_bind_eq_ok found
      cases found
      cases member with
      | head =>
          rw [column_eq_ok, firstColumn] at front
          cases front
          simp [passes]
      | tail _ inRest =>
          have kept := ih others inRest
          split
          · exact List.mem_cons_of_mem _ kept
          · exact kept

theorem allM_logicalRowOk {rows : List Row} (passed : rows.allM logicalRowOk = .ok true) :
    ∀ row ∈ rows, logicalRowOk row = .ok true := by
  induction rows with
  | nil => simp
  | cons row rest ih =>
      rw [List.allM] at passed
      cases first : logicalRowOk row with
      | error error =>
          rw [first] at passed
          cases passed
      | ok value =>
          rw [first] at passed
          cases value with
          | false => cases passed
          | true =>
              intro other member
              cases member with
              | head => exact first
              | tail _ inRest => exact ih passed other inRest

theorem logicalRowOk_readOnly {row : Row} (passed : logicalRowOk row = .ok true) :
    row[3]? = some "ro".toList := by
  obtain ⟨options, found, rest⟩ := except_bind_eq_ok passed
  by_cases readOnly : options = "ro".toList
  · rw [column_eq_ok.mp found, readOnly]
  · rw [if_neg readOnly] at rest
    cases rest

/-- A row with a logical partition's name that passes the check of that name. -/
theorem logicalCheck_readOnly {rows : List Row} {name : String}
    (passed : logicalCheck rows name = .ok true) {row : Row} (member : row ∈ rows)
    (named : row[0]? = some name.toList) : row[3]? = some "ro".toList := by
  obtain ⟨matching, found, rest⟩ := except_bind_eq_ok passed
  obtain ⟨flagsOk, all, conclusion⟩ := except_bind_eq_ok rest
  have both := Except.ok.inj conclusion
  have isOk : flagsOk = true := (Bool.and_eq_true_iff.mp both).2
  rw [isOk] at all
  exact logicalRowOk_readOnly
    (allM_logicalRowOk all row (mem_rowsWhere found member named (by simp)))

/-! ### Tokens and the text they come from -/

theorem commaList_head {text flag : List Char} (first : (commaList text).head? = some flag) :
    flag <+: text := by
  induction text generalizing flag with
  | nil =>
      cases first
      exact List.prefix_refl _
  | cons character rest ih =>
      rw [commaList, List.splitOn_eq_splitOnP, List.splitOnP_cons_eq_if_modifyHead] at first
      split at first
      · cases first
        exact List.nil_prefix
      · cases pieces : rest.splitOnP (· == ',') with
        | nil => exact absurd pieces (List.splitOnP_ne_nil _ _)
        | cons piece pieces' =>
            rw [pieces] at first
            cases first
            refine (List.prefix_cons_inj character).mpr (ih ?_)
            rw [commaList, List.splitOn_eq_splitOnP, pieces]
            rfl

theorem AvbFlag.starts {flag : List Char} (avb : AvbFlag flag) : "avb".toList <+: flag := by
  rcases avb with rfl | assigned | keys
  · exact List.prefix_refl _
  · exact List.IsPrefix.trans (by decide) assigned
  · exact List.IsPrefix.trans (by decide) keys

section

variable {fstab line : List Char} {row : Row}

/-- On a plain line a token behind the first is found behind a blank. -/
theorem IsRowOf.blank_before (reads : IsRowOf fstab line row) (plain : PlainLine line)
    {index : Nat} {token : List Char} (found : row[index + 1]? = some token) :
    ' ' :: token <:+: fstab := by
  have tokens := reads.tokens
  rw [shlexSplit_plain plain] at tokens
  cases tokens
  refine ((columns_cut line).blank_before_tail token ?_).trans (textLines_part reads.inText)
  apply List.mem_of_getElem? (i := index)
  rw [List.getElem?_tail]
  exact found

/-- On a plain line a token in front of the last is found in front of a blank. -/
theorem IsRowOf.blank_behind (reads : IsRowOf fstab line row) (plain : PlainLine line)
    {index : Nat} {token : List Char} (found : row[index]? = some token)
    (inner : index + 1 < row.length) : token ++ [' '] <:+: fstab := by
  have tokens := reads.tokens
  rw [shlexSplit_plain plain] at tokens
  cases tokens
  refine ((columns_cut line).blank_behind token ?_).trans (textLines_part reads.inText)
  apply List.mem_of_getElem? (i := index)
  rw [List.getElem?_dropLast, if_pos (by omega)]
  exact found

end

/-! ### The gate -/

section

variable {fstab : List Char} {rows : List Row}
  (passed : ∀ test ∈ fstabTests fstab stockRecoveryFstab rows, test.2 = .ok true)
include passed

theorem forbidden_absent (token : String) (forbidden : token ∈ forbiddenTokens) :
    ¬ token.toList <:+: fstab := by
  have checked := passed ("fstab:forbidden:" ++ token, forbiddenCheck fstab token) (by
    apply List.mem_append_right
    exact List.mem_map_of_mem forbidden)
  exact of_decide_eq_true (Except.ok.inj checked)

theorem logical_readOnly {row : Row} (member : row ∈ rows) (five : row.length = 5)
    (logical : "logical".toList ∈ rowFlags row) : row[3]? = some "ro".toList := by
  cases named : row[0]? with
  | none =>
      rw [List.getElem?_eq_none_iff] at named
      omega
  | some first =>
      have flagged : "logical".toList ∈ fiveColumnFlags row := by
        cases last : row[4]? with
        | none => simp [rowFlags, last] at logical
        | some text =>
            rw [rowFlags, last] at logical
            rw [fiveColumnFlags, if_pos five, last]
            exact logical
      have inSet : first ∈ logicalSet rows := by
        rw [logicalSet, List.mem_filterMap]
        exact ⟨row, List.mem_filter.mpr ⟨member, by simpa using flagged⟩, named⟩
      have sameSet := passed ("fstab:logical-set-matches-stock", logicalSetCheck stockRecoveryFstab rows)
        (by simp [fstabTests])
      have both := Except.ok.inj sameSet
      rw [sameElements, Bool.and_eq_true, List.all_eq_true, List.all_eq_true] at both
      have inStock := both.1 first inSet
      rw [List.contains_iff_mem, stockRecoveryFstab_logical] at inStock
      have isName : ∃ name ∈ logicalNames, name.toList = first := by
        obtain ⟨name, inList, rfl⟩ := List.mem_map.mp inStock
        exact ⟨name, (show ∀ name ∈ _, name ∈ logicalNames from by decide) name inList, rfl⟩
      obtain ⟨name, isLogical, rfl⟩ := isName
      have check := passed ("fstab:logical:" ++ name, logicalCheck rows name) (by
        simp only [fstabTests, List.append_assoc]
        exact List.mem_append_left _ (List.mem_map_of_mem isLogical))
      exact logicalCheck_readOnly check member named

end

/-- An accepted fstab is safe exactly when the rows no check looks at are
harmless: AVB flags that do not stand behind a blank, overlay types that no blank
follows, and logical rows of more than five columns. -/
theorem fstab_safe_iff (fstab : List Char)
    (accepted : fstabAccepted fstab stockRecoveryFstab = true) :
    FstabSafe fstab ↔ FstabCovered fstab := by
  obtain ⟨rows, read, passed⟩ := fstabAccepted_tests accepted
  constructor
  · intro safe
    exact {
      avbFirst := fun line row reads flag member avb =>
        absurd avb (safe.noAvb line row reads flag member)
      overlayInside := fun line row reads overlay => absurd overlay (safe.noOverlay line row reads)
      longReadOnly := fun line row reads _ => safe.readOnly line row reads }
  · intro covered
    refine ⟨?_, ?_, ?_⟩
    · intro line row reads flag member avb
      obtain ⟨first, plain⟩ := covered.avbFirst line row reads flag member avb
      cases column : row[4]? with
      | none => simp [rowFlags, column] at member
      | some text =>
          rw [rowFlags, column] at first
          have starts : "avb".toList <+: text := avb.starts.trans (commaList_head first)
          apply forbidden_absent passed " avb" (by decide)
          exact List.IsInfix.trans ((List.prefix_cons_inj ' ').mpr starts).isInfix
            (reads.blank_before plain column)
    · intro line row reads overlay
      obtain ⟨inner, plain⟩ := covered.overlayInside line row reads overlay
      apply forbidden_absent passed "overlay " (by decide)
      exact reads.blank_behind plain overlay inner
    · intro line row reads logical
      by_cases long : 5 < row.length
      · exact covered.longReadOnly line row reads long logical
      · have five : row.length = 5 := by
          cases column : row[4]? with
          | none => simp [rowFlags, column] at logical
          | some text =>
              have enough := (List.getElem?_eq_some_iff.mp column).1
              omega
        have member := mem_rowsOf read reads.inText reads.holdsRow reads.tokens
        rw [rowOptions, logical_readOnly passed member five logical]
        decide

set_option maxRecDepth 20000 in
theorem recoveryFstab_accepted : fstabAccepted recoveryFstab stockRecoveryFstab = true := by
  unfold recoveryFstab
  apply of_literal_lines (P := fun lines =>
    fstabAccepted (unlines lines) stockRecoveryFstab = true)
  case same =>
    unfold recoveryFstabLines
    repeat
      apply literal_cons
      case first => rfl
    exact List.map_nil.symm
  case holds =>
    rw [fstabAccepted, fstabChecks, fstabRows, textLines_unlines (by decide +kernel)]
    simp only [fstabTests, logicalSetCheck, stockRecoveryFstab_logical]
    decide +kernel

theorem fstab_safe_iff_recoveryFstab : FstabSafe recoveryFstab ↔ FstabCovered recoveryFstab :=
  fstab_safe_iff recoveryFstab recoveryFstab_accepted

set_option maxRecDepth 20000 in
theorem looseFstab_accepted : textLines looseFstab = looseFstabLines.map String.toList ∧
    fstabAccepted looseFstab stockRecoveryFstab = true := by
  unfold looseFstab
  apply of_literal_lines (P := fun lines =>
    textLines (unlines lines) = lines ∧ fstabAccepted (unlines lines) stockRecoveryFstab = true)
  case same =>
    unfold looseFstabLines recoveryFstabLines
    simp only [List.cons_append, List.nil_append]
    repeat
      apply literal_cons
      case first => rfl
    exact List.map_nil.symm
  case holds =>
    refine and_iff_left_of_imp (fun cut => ?_) |>.mpr (textLines_unlines (by decide +kernel))
    rw [fstabAccepted, fstabChecks, fstabRows, cut]
    simp only [fstabTests, logicalSetCheck, stockRecoveryFstab_logical]
    decide +kernel

theorem isRowOf_looseFstab (line : String) (row : List String) (member : line ∈ looseFstabLines)
    (holdsRow : isRow line.toList = true)
    (tokens : shlexSplit line.toList = .ok (row.map String.toList)) :
    IsRowOf looseFstab line.toList (row.map String.toList) where
  inText := by
    rw [looseFstab_accepted.1]
    exact List.mem_map_of_mem member
  holdsRow := holdsRow
  tokens := tokens

/-- The checks accept an AVB flag, an overlay and a writable logical partition. -/
theorem fstabAccepted_looseFstab : fstabAccepted looseFstab stockRecoveryFstab = true ∧
    (∃ line row, IsRowOf looseFstab line row ∧ ∃ flag ∈ rowFlags row, AvbFlag flag) ∧
    (∃ line row, IsRowOf looseFstab line row ∧ row[2]? = some "overlay".toList) ∧
    ∃ line row, IsRowOf looseFstab line row ∧ "logical".toList ∈ rowFlags row ∧
      "ro".toList ∉ rowOptions row := by
  have avb := isRowOf_looseFstab "/dev/block/by-name/misc /misc emmc defaults defaults,avb"
    ["/dev/block/by-name/misc", "/misc", "emmc", "defaults", "defaults,avb"]
    (by simp [looseFstabLines]) (by decide +kernel) (by decide +kernel)
  have overlay := isRowOf_looseFstab "none /product/app overlay" ["none", "/product/app", "overlay"]
    (by simp [looseFstabLines]) (by decide +kernel) (by decide +kernel)
  have writable := isRowOf_looseFstab "my_product /my_product ext4 rw wait,logical nofail"
    ["my_product", "/my_product", "ext4", "rw", "wait,logical", "nofail"]
    (by simp [looseFstabLines]) (by decide +kernel) (by decide +kernel)
  exact ⟨looseFstab_accepted.2, ⟨_, _, avb, "avb".toList, by decide +kernel, .inl rfl⟩,
    ⟨_, _, overlay, by decide +kernel⟩, _, _, writable, by decide +kernel, by decide +kernel⟩

end DashTwrp.VerifyTree

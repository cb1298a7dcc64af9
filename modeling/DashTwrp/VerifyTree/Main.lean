import DashTwrp.VerifyTree.FstabRules
import DashTwrp.VerifyTree.PrebuiltLines
import DashTwrp.VerifyTree.TouchInit

namespace DashTwrp.VerifyTree

open DashTwrp.Python DashTwrp.Unix

/-! The tree verifier as a whole: the checks of a working copy and the exit status.

`loads` is a parameter: the artifacts of a JSON text, if reading them raises nothing. -/

/-- An entry of `manifest["artifacts"]`. -/
structure Artifact where
  destination : List Char
  size : Int
  sha256 : List Char
deriving DecidableEq, Repr

/-- `PurePosixPath(text)` -/
def purePath (text : List Char) : PurePath :=
  { relativePath text with absolute := ['/'].isPrefixOf text }

/-- A check that a text contains some tokens and none of some others. -/
def tokenCheck (name : String) (required forbidden : List String) (text : List Char) : Check where
  name := name
  passed := (∀ token ∈ required, token.toList <:+: text) ∧ ∀ token ∈ forbidden, ¬ token.toList <:+: text

/-- The checks of an artifact, of which the last two need the file. -/
def artifactChecks (hexdigest : Bytes → List Char) (tree : WorkingTree) (artifact : Artifact) :
    List Check :=
  let destination := String.ofList artifact.destination
  match tree.files.stat true tree.root (purePath artifact.destination) with
  | .ok (.file data) =>
      [{ name := "exists:" ++ destination, passed := true },
        { name := "size:" ++ destination, passed := (data.length : Int) = artifact.size },
        { name := "sha256:" ++ destination, passed := hexdigest data = artifact.sha256 }]
  | _ => [{ name := "exists:" ++ destination, passed := false }]

def extractCheck : List Char → Check :=
  tokenCheck "extract:stock-fstab-is-evidence-only"
    ["\"$DEVICE_ROOT/evidence/stock-recovery.fstab\""] ["\"$DEVICE_ROOT/recovery.fstab\""]

/-- `required` -/
def boardRequired : List String :=
  ["BOARD_BOOT_HEADER_VERSION := 4", "BOARD_KERNEL_PAGESIZE := 4096",
    "BOARD_KERNEL_BASE := 0x00000000", "BOARD_KERNEL_CMDLINE := bootopt=64S3,32N2,64N2",
    "BOARD_MOVE_RECOVERY_RESOURCES_TO_VENDOR_BOOT := true",
    "BOARD_INCLUDE_RECOVERY_RAMDISK_IN_VENDOR_BOOT := true",
    "BOARD_VENDOR_BOOTIMAGE_PARTITION_SIZE := 67108864", "BOARD_RAMDISK_USE_LZ4 := true",
    "TW_INCLUDE_CRYPTO := true", "TW_NO_REBOOT_FASTBOOT := true",
    "RECOVERY_SDCARD_ON_DATA := true", "TW_INTERNAL_STORAGE_MOUNT_POINT := \"/data/media/0\"",
    "ALLOW_MISSING_DEPENDENCIES := true"]

/-- `forbidden` -/
def boardForbidden : List String :=
  ["BOARD_RECOVERYIMAGE_PARTITION_SIZE :=", "BOARD_USES_RECOVERY_AS_BOOT := true",
    "BOARD_SUPER_PARTITION_SIZE :=", "TW_EXCLUDE_MTP := true", "TW_EXTRA_LANGUAGES := true",
    "DASH_TWRP16_BOOTSTRAP_NO_CRYPTO"]

/-- The checks of `BoardConfig.mk`. -/
def boardChecks (board : List Char) : List Check :=
  boardRequired.map (fun token => {
    name := "board-required:" ++ token
    passed := ∃ line ∈ textLines board, strip line = token.toList }) ++
  boardForbidden.map fun token => tokenCheck ("board-forbidden:" ++ token) [] [token] board

def configfsCheck : List Char → Check :=
  tokenCheck "usb:configfs" ["setprop sys.usb.configfs 1"] []

def controllerCheck : List Char → Check := tokenCheck "usb:controller" ["16701000.usb0"] []

def storageCheck : List Char → Check :=
  tokenCheck "storage:direct-path" ["export EXTERNAL_STORAGE /data/media/0", "rmdir /sdcard"] []

def themeNames : List Name := ["portrait.xml", "landscape.xml", "watch.xml"]

def themeFolder : List Name := ["bootable", "recovery", "gui", "theme", "common"]

def themeForbidden : List String :=
  ["default=\"/sdcard\"", "tw_zip_location=/sdcard", "tw_filecheck=/sdcard"]

def themeCheck (themeName : Name) : List Char → Check :=
  tokenCheck ("theme:" ++ themeName ++ ":direct-storage-defaults") [] themeForbidden

def importedCheck : List Char → Check :=
  tokenCheck "project-init:imported" ["import /init.recovery.project.rc"] []

def builtCheck : List Char → Check :=
  tokenCheck "project-init:built" ["LOCAL_MODULE := init.recovery.project.rc",
    "LOCAL_SRC_FILES := rootdir/init.recovery.project.rc"] []

def packagedCheck : List Char → Check :=
  tokenCheck "project-init:packaged" ["init.recovery.project.rc"] []

namespace WorkingTree

variable (tree : WorkingTree)

/-- `read_text(encoding="utf-8")` -/
def readText (start : Location) (names : List Name) : Option (List Char) :=
  match tree.files.stat true start (.ofNames names) with
  | .ok (.file raw) => decodeText raw
  | _ => none

/-- `ROOT.parents[2]` -/
def sourceRoot : Option Location := if tree.root.length < 3 then none else some (tree.root.drop 3)

end WorkingTree

section

variable (loads : List Char → Option (List Artifact)) (hexdigest : Bytes → List Char)
  (tree : WorkingTree)

/-- `checks`, unless an exception ends the program. -/
def treeChecks : Option (List Check) := do
  let artifacts ← loads (← tree.readText tree.root ["evidence", "artifacts.json"])
  let prebuiltHashes ← tree.readText tree.root ["evidence", "a15-prebuilts.sha256"]
  let extractScript ← tree.readText tree.root ["extract-files.sh"]
  let board ← tree.readText tree.root ["BoardConfig.mk"]
  let fstab ← tree.readText tree.root ["recovery.fstab"]
  let stockFstab ← tree.readText tree.root ["evidence", "stock-recovery.fstab"]
  let ofFstab ← (fstabChecks fstab stockFstab).toOption
  let usbRc ← tree.readText tree.root ["rootdir", "init.recovery.mt6991.rc"]
  let projectRc ← tree.readText tree.root ["rootdir", "init.recovery.project.rc"]
  let sourceRoot ← tree.sourceRoot
  let ofThemes ← themeNames.mapM fun themeName =>
    (tree.readText sourceRoot (themeFolder ++ [themeName])).map (themeCheck themeName)
  let androidMk ← tree.readText tree.root ["Android.mk"]
  let deviceMk ← tree.readText tree.root ["device.mk"]
  pure (artifacts.flatMap (artifactChecks hexdigest tree) ++
    prebuiltChecks hexdigest tree prebuiltHashes ++ [extractCheck extractScript] ++
    boardChecks board ++ ofFstab ++
    [configfsCheck usbRc, controllerCheck usbRc, storageCheck projectRc] ++ ofThemes ++
    [importedCheck usbRc] ++ projectChecks projectRc ++
    [builtCheck androidMk, packagedCheck deviceMk])

/-- The exit status, which is 1 behind an exception. -/
def main : Nat :=
  match treeChecks loads hexdigest tree with
  | some checks => exitCode checks
  | none => 1

end

/-! ### What the verifier accepts -/

/-- The tokens that a text has to contain and those that it must not. -/
def HasTokens (required forbidden : List String) (text : List Char) : Prop :=
  (∀ token ∈ required, token.toList <:+: text) ∧ ∀ token ∈ forbidden, ¬ token.toList <:+: text

/-- Each setting stands alone on a line. -/
def BoardRules (board : List Char) : Prop :=
  (∀ token ∈ boardRequired, ∃ line ∈ textLines board, strip line = token.toList) ∧
    ∀ token ∈ boardForbidden, ¬ token.toList <:+: board

/-- What `init.recovery.project.rc` contains, and that it mentions the common module in
front of the panel's. -/
structure ProjectRules (projectRc : List Char) : Prop where
  tokens : ∀ token ∈ projectRequired, token <:+: projectRc
  retryable : ¬ oneshotText <:+: projectRc
  waits : "on boot\n    wait /dev/xiaomi-touch 10".toList <:+: projectRc
  ordered : ∃ position, commonTouchText <+: projectRc.drop position ∧
    NoneBefore panelTouchText projectRc position

/-- A file of the device tree is a text with a property. -/
def WorkingTree.HasText (tree : WorkingTree) (names : List Name) (Right : List Char → Prop) : Prop :=
  ∃ text, tree.readText tree.root names = some text ∧ Right text

/-- The destination is a file of that size with that digest. -/
def WorkingTree.HoldsArtifact (tree : WorkingTree) (hexdigest : Bytes → List Char)
    (artifact : Artifact) : Prop :=
  ∃ data, tree.files.stat true tree.root (purePath artifact.destination) = .ok (.file data) ∧
    (data.length : Int) = artifact.size ∧ hexdigest data = artifact.sha256

/-- A working copy as the verifier wants it. -/
structure Valid (loads : List Char → Option (List Artifact)) (hexdigest : Bytes → List Char)
    (tree : WorkingTree) : Prop where
  artifacts : tree.HasText ["evidence", "artifacts.json"] fun manifest =>
    ∃ artifacts, loads manifest = some artifacts ∧
      ∀ artifact ∈ artifacts, tree.HoldsArtifact hexdigest artifact
  prebuilts : tree.HasText ["evidence", "a15-prebuilts.sha256"] fun prebuiltHashes =>
    LastEnforced hexdigest tree (textLines prebuiltHashes)
  extraction : tree.HasText ["extract-files.sh"]
    (HasTokens ["\"$DEVICE_ROOT/evidence/stock-recovery.fstab\""] ["\"$DEVICE_ROOT/recovery.fstab\""])
  board : tree.HasText ["BoardConfig.mk"] BoardRules
  fstab : tree.HasText ["recovery.fstab"] fun fstab =>
    tree.HasText ["evidence", "stock-recovery.fstab"] fun stock =>
      ∃ rows, fstabRows fstab = .ok rows ∧ FstabRules fstab stock rows
  usb : tree.HasText ["rootdir", "init.recovery.mt6991.rc"]
    (HasTokens ["setprop sys.usb.configfs 1", "16701000.usb0", "import /init.recovery.project.rc"] [])
  project : tree.HasText ["rootdir", "init.recovery.project.rc"] fun projectRc =>
    ProjectRules projectRc ∧
      HasTokens ["export EXTERNAL_STORAGE /data/media/0", "rmdir /sdcard"] [] projectRc
  themes : ∃ sourceRoot, tree.sourceRoot = some sourceRoot ∧ ∀ themeName ∈ themeNames, ∃ text,
    tree.readText sourceRoot (themeFolder ++ [themeName]) = some text ∧
      HasTokens [] themeForbidden text
  built : tree.HasText ["Android.mk"] (HasTokens ["LOCAL_MODULE := init.recovery.project.rc",
    "LOCAL_SRC_FILES := rootdir/init.recovery.project.rc"] [])
  packaged : tree.HasText ["device.mk"] (HasTokens ["init.recovery.project.rc"] [])

/-! ### The verdict -/

theorem tokenCheck_passed_iff {name : String} {required forbidden : List String} {text : List Char} :
    (tokenCheck name required forbidden text).passed = true ↔ HasTokens required forbidden text :=
  decide_eq_true_iff

section

variable {loads : List Char → Option (List Artifact)} {hexdigest : Bytes → List Char}
  {tree : WorkingTree}

theorem artifactChecks_passed_iff {artifact : Artifact} :
    allPassed (artifactChecks hexdigest tree artifact) = true ↔
      tree.HoldsArtifact hexdigest artifact := by
  unfold artifactChecks WorkingTree.HoldsArtifact
  split
  · rename_i data found
    simp only [found, allPassed_cons, allPassed_nil, decide_eq_true_eq, Except.ok.injEq,
      Node.file.injEq, exists_eq_left', and_true, true_and]
  · rename_i other
    simp only [allPassed_cons, Bool.false_eq_true, false_and, false_iff]
    intro holds
    obtain ⟨data, found, _⟩ := holds
    exact other data found

theorem allPassed_flatMap {α : Type} {items : List α} {checksOf : α → List Check} :
    allPassed (items.flatMap checksOf) = true ↔
      ∀ item ∈ items, allPassed (checksOf item) = true := by
  simp only [allPassed_iff, List.mem_flatMap]
  exact ⟨fun all item member check inItem => all check ⟨item, member, inItem⟩, fun all check found => by
    obtain ⟨item, member, inItem⟩ := found
    exact all item member check inItem⟩

theorem boardChecks_passed_iff {board : List Char} :
    allPassed (boardChecks board) = true ↔ BoardRules board := by
  rw [boardChecks, allPassed_append]
  simp only [allPassed_iff, List.forall_mem_map, decide_eq_true_eq, tokenCheck_passed_iff, HasTokens,
    List.forall_mem_cons, List.not_mem_nil, false_implies, implies_true, true_and, and_true, BoardRules]

theorem hasTokens_cons {token next : String} {required forbidden : List String} {text : List Char} :
    HasTokens (token :: next :: required) forbidden text ↔
      HasTokens [token] forbidden text ∧ HasTokens (next :: required) forbidden text := by
  simp only [HasTokens, List.forall_mem_cons, List.not_mem_nil, false_implies, implies_true, and_true]
  exact ⟨fun all => ⟨⟨all.1.1, all.2⟩, all.1.2, all.2⟩, fun both => ⟨⟨both.1.1, both.2.1⟩, both.2.2⟩⟩

/-- The first mentions of the two modules are in order. -/
theorem touchOrder_iff {projectRc : List Char} (mentioned : panelTouchText <:+: projectRc) :
    (0 ≤ findIndex projectRc commonTouchText ∧
      findIndex projectRc commonTouchText < findIndex projectRc panelTouchText) ↔
    ∃ position, commonTouchText <+: projectRc.drop position ∧
      NoneBefore panelTouchText projectRc position := by
  obtain ⟨panel, foundPanel⟩ := exists_find mentioned
  obtain ⟨panelOccurs, nonePanel⟩ := find_eq_some foundPanel
  unfold findIndex
  rw [foundPanel]
  constructor
  · intro order
    cases foundCommon : find commonTouchText projectRc with
    | none => simp [foundCommon] at order
    | some common =>
        simp only [foundCommon] at order
        obtain ⟨occurs, _⟩ := find_eq_some foundCommon
        exact ⟨common, occurs, fun start before => nonePanel start (by omega)⟩
  · intro order
    obtain ⟨position, occurs, none⟩ := order
    obtain ⟨common, foundCommon⟩ := exists_find (occurs.isInfix.trans (List.drop_suffix _ _).isInfix)
    obtain ⟨commonOccurs, noneCommon⟩ := find_eq_some foundCommon
    have first : common ≤ position := not_lt.mp fun behind => noneCommon position behind occurs
    have later : position ≤ panel := not_lt.mp fun before => none panel before panelOccurs
    -- The two texts differ, so they do not occur at one place.
    have apart : common ≠ panel := by
      rintro rfl
      rcases List.prefix_or_prefix_of_prefix commonOccurs panelOccurs with within | within
      · exact absurd within (by decide)
      · exact absurd within (by decide)
    rw [foundCommon]
    simp only
    omega

theorem projectChecks_passed_iff {projectRc : List Char} :
    allPassed (projectChecks projectRc) = true ↔ ProjectRules projectRc := by
  have tokens : allPassed (projectRequired.map fun token => {
      name := "project-init:required:" ++ String.ofList token
      passed := token <:+: projectRc }) = true ↔ ∀ token ∈ projectRequired, token <:+: projectRc := by
    simp only [allPassed_iff, List.forall_mem_map, decide_eq_true_eq]
  rw [projectChecks, allPassed_append, tokens]
  simp only [allPassed_cons, allPassed_nil, decide_eq_true_eq, and_true]
  constructor
  · intro passed
    obtain ⟨tokens, ⟨retryable, waits⟩, order⟩ := passed
    exact { tokens, retryable, waits, ordered := (touchOrder_iff (tokens _ (by decide))).mp order }
  · intro rules
    exact ⟨rules.tokens, ⟨rules.retryable, rules.waits⟩,
      (touchOrder_iff (rules.tokens _ (by decide))).mpr rules.ordered⟩

theorem allPassed_mapM {loaded : Name → Option Check} {names : List Name} :
    (∃ checks, names.mapM loaded = some checks ∧ allPassed checks = true) ↔
      ∀ name ∈ names, ∃ check, loaded name = some check ∧ check.passed = true := by
  induction names with
  | nil => simp
  | cons name rest ih =>
      rw [List.forall_mem_cons, ← ih]
      simp only [List.mapM_cons, Option.bind_eq_bind, Option.pure_def, Option.bind_eq_some_iff,
        Option.some.injEq]
      constructor
      · intro found
        obtain ⟨checks, ⟨check, here, later, made, rfl⟩, passed⟩ := found
        rw [allPassed_cons] at passed
        exact ⟨⟨check, here, passed.1⟩, later, made, passed.2⟩
      · intro both
        obtain ⟨⟨check, here, right⟩, later, made, passed⟩ := both
        exact ⟨_, ⟨check, here, later, made, rfl⟩, (allPassed_cons _ _).mpr ⟨right, passed⟩⟩

theorem themeChecks_passed_iff {sourceRoot : Location} :
    (∃ checks, (themeNames.mapM fun themeName =>
      (tree.readText sourceRoot (themeFolder ++ [themeName])).map (themeCheck themeName)) =
        some checks ∧ allPassed checks = true) ↔
    ∀ themeName ∈ themeNames, ∃ text,
      tree.readText sourceRoot (themeFolder ++ [themeName]) = some text ∧
        HasTokens [] themeForbidden text := by
  rw [allPassed_mapM]
  refine forall₂_congr fun themeName _ => ?_
  simp only [Option.map_eq_some_iff]
  constructor
  · intro found
    obtain ⟨check, ⟨text, read, rfl⟩, passed⟩ := found
    exact ⟨text, read, tokenCheck_passed_iff.mp passed⟩
  · intro found
    obtain ⟨text, read, lacks⟩ := found
    exact ⟨_, ⟨text, read, rfl⟩, tokenCheck_passed_iff.mpr lacks⟩

theorem fstabChecks_passed_iff {fstab stock : List Char} :
    (∃ checks, (fstabChecks fstab stock).toOption = some checks ∧ allPassed checks = true) ↔
      ∃ rows, fstabRows fstab = .ok rows ∧ FstabRules fstab stock rows := by
  rw [← fstabAccepted_iff, fstabAccepted]
  cases fstabChecks fstab stock with
  | error error => simp [Except.toOption]
  | ok checks => simp [Except.toOption]

/-- What the checks ask of the texts, with those of the fstab and the themes left as they are. -/
theorem sections_passed_iff {artifacts : List Artifact}
    {prebuiltHashes extractScript board usbRc projectRc androidMk deviceMk : List Char}
    {ofFstab ofThemes : List Check} :
    allPassed (artifacts.flatMap (artifactChecks hexdigest tree) ++
        prebuiltChecks hexdigest tree prebuiltHashes ++ [extractCheck extractScript] ++
        boardChecks board ++ ofFstab ++
        [configfsCheck usbRc, controllerCheck usbRc, storageCheck projectRc] ++ ofThemes ++
        [importedCheck usbRc] ++ projectChecks projectRc ++
        [builtCheck androidMk, packagedCheck deviceMk]) = true ↔
      (∀ artifact ∈ artifacts, tree.HoldsArtifact hexdigest artifact) ∧
      LastEnforced hexdigest tree (textLines prebuiltHashes) ∧
      HasTokens ["\"$DEVICE_ROOT/evidence/stock-recovery.fstab\""] ["\"$DEVICE_ROOT/recovery.fstab\""]
        extractScript ∧
      BoardRules board ∧ allPassed ofFstab = true ∧
      HasTokens ["setprop sys.usb.configfs 1", "16701000.usb0", "import /init.recovery.project.rc"] []
        usbRc ∧
      allPassed ofThemes = true ∧
      (ProjectRules projectRc ∧
        HasTokens ["export EXTERNAL_STORAGE /data/media/0", "rmdir /sdcard"] [] projectRc) ∧
      HasTokens ["LOCAL_MODULE := init.recovery.project.rc",
        "LOCAL_SRC_FILES := rootdir/init.recovery.project.rc"] [] androidMk ∧
      HasTokens ["init.recovery.project.rc"] [] deviceMk := by
  simp only [allPassed_append, allPassed_cons, allPassed_nil, and_true, allPassed_flatMap,
    artifactChecks_passed_iff, prebuiltChecks_passed_iff, boardChecks_passed_iff,
    projectChecks_passed_iff, extractCheck, configfsCheck, controllerCheck, storageCheck,
    importedCheck, builtCheck, packagedCheck, tokenCheck_passed_iff]
  constructor
  · intro passed
    obtain ⟨⟨⟨⟨⟨⟨⟨⟨⟨held, prebuilts⟩, extraction⟩, board⟩, fstab⟩, configfs, controller, storage⟩,
      themes⟩, imported⟩, project⟩, built, packaged⟩ := passed
    exact ⟨held, prebuilts, extraction, board, fstab,
      hasTokens_cons.mpr ⟨configfs, hasTokens_cons.mpr ⟨controller, imported⟩⟩, themes,
      ⟨project, storage⟩, built, packaged⟩
  · intro rules
    obtain ⟨held, prebuilts, extraction, board, fstab, usb, themes, ⟨project, storage⟩, built,
      packaged⟩ := rules
    obtain ⟨configfs, inUsb⟩ := hasTokens_cons.mp usb
    obtain ⟨controller, imported⟩ := hasTokens_cons.mp inUsb
    exact ⟨⟨⟨⟨⟨⟨⟨⟨⟨held, prebuilts⟩, extraction⟩, board⟩, fstab⟩, configfs, controller, storage⟩,
      themes⟩, imported⟩, project⟩, built, packaged⟩

theorem main_eq_zero_iff : main loads hexdigest tree = 0 ↔
    ∃ checks, treeChecks loads hexdigest tree = some checks ∧ allPassed checks = true := by
  unfold main exitCode
  cases treeChecks loads hexdigest tree with
  | none => simp
  | some checks => simp

/-- What is read is what the rules ask for. -/
theorem valid_of_passed {checks : List Check} (made : treeChecks loads hexdigest tree = some checks)
    (passed : allPassed checks = true) : Valid loads hexdigest tree := by
  obtain ⟨manifest, readManifest, made⟩ := Option.bind_eq_some_iff.mp made
  obtain ⟨artifacts, loaded, made⟩ := Option.bind_eq_some_iff.mp made
  obtain ⟨prebuiltHashes, readHashes, made⟩ := Option.bind_eq_some_iff.mp made
  obtain ⟨extractScript, readScript, made⟩ := Option.bind_eq_some_iff.mp made
  obtain ⟨board, readBoard, made⟩ := Option.bind_eq_some_iff.mp made
  obtain ⟨fstab, readFstab, made⟩ := Option.bind_eq_some_iff.mp made
  obtain ⟨stock, readStock, made⟩ := Option.bind_eq_some_iff.mp made
  obtain ⟨ofFstab, ranFstab, made⟩ := Option.bind_eq_some_iff.mp made
  obtain ⟨usbRc, readUsb, made⟩ := Option.bind_eq_some_iff.mp made
  obtain ⟨projectRc, readProject, made⟩ := Option.bind_eq_some_iff.mp made
  obtain ⟨sourceRoot, nested, made⟩ := Option.bind_eq_some_iff.mp made
  obtain ⟨ofThemes, ranThemes, made⟩ := Option.bind_eq_some_iff.mp made
  obtain ⟨androidMk, readAndroid, made⟩ := Option.bind_eq_some_iff.mp made
  obtain ⟨deviceMk, readDevice, made⟩ := Option.bind_eq_some_iff.mp made
  rw [← Option.some.inj made, sections_passed_iff] at passed
  obtain ⟨held, prebuilts, extraction, boardRules, passedFstab, usb, passedThemes, project, built,
    packaged⟩ := passed
  exact {
    artifacts := ⟨manifest, readManifest, artifacts, loaded, held⟩
    prebuilts := ⟨prebuiltHashes, readHashes, prebuilts⟩
    extraction := ⟨extractScript, readScript, extraction⟩
    board := ⟨board, readBoard, boardRules⟩
    fstab := ⟨fstab, readFstab, stock, readStock, fstabChecks_passed_iff.mp ⟨_, ranFstab, passedFstab⟩⟩
    usb := ⟨usbRc, readUsb, usb⟩
    project := ⟨projectRc, readProject, project⟩
    themes := ⟨sourceRoot, nested, themeChecks_passed_iff.mp ⟨_, ranThemes, passedThemes⟩⟩
    built := ⟨androidMk, readAndroid, built⟩
    packaged := ⟨deviceMk, readDevice, packaged⟩ }

theorem passed_of_valid (valid : Valid loads hexdigest tree) :
    ∃ checks, treeChecks loads hexdigest tree = some checks ∧ allPassed checks = true := by
  obtain ⟨manifest, readManifest, artifacts, loaded, held⟩ := valid.artifacts
  obtain ⟨prebuiltHashes, readHashes, prebuilts⟩ := valid.prebuilts
  obtain ⟨extractScript, readScript, extraction⟩ := valid.extraction
  obtain ⟨board, readBoard, boardRules⟩ := valid.board
  obtain ⟨fstab, readFstab, stock, readStock, fstabRules⟩ := valid.fstab
  obtain ⟨usbRc, readUsb, usb⟩ := valid.usb
  obtain ⟨projectRc, readProject, project⟩ := valid.project
  obtain ⟨androidMk, readAndroid, built⟩ := valid.built
  obtain ⟨deviceMk, readDevice, packaged⟩ := valid.packaged
  obtain ⟨ofFstab, ranFstab, passedFstab⟩ := fstabChecks_passed_iff.mpr fstabRules
  obtain ⟨sourceRoot, nested, themes⟩ := valid.themes
  obtain ⟨ofThemes, ranThemes, passedThemes⟩ := themeChecks_passed_iff.mpr themes
  have made : treeChecks loads hexdigest tree = some (artifacts.flatMap (artifactChecks hexdigest tree) ++
      prebuiltChecks hexdigest tree prebuiltHashes ++ [extractCheck extractScript] ++
      boardChecks board ++ ofFstab ++
      [configfsCheck usbRc, controllerCheck usbRc, storageCheck projectRc] ++ ofThemes ++
      [importedCheck usbRc] ++ projectChecks projectRc ++
      [builtCheck androidMk, packagedCheck deviceMk]) := by
    simp only [treeChecks, readManifest, loaded, readHashes, readScript, readBoard, readFstab,
      readStock, ranFstab, readUsb, readProject, nested, ranThemes, readAndroid, readDevice,
      Option.bind_eq_bind, Option.bind_some, Option.pure_def]
  exact ⟨_, made, sections_passed_iff.mpr ⟨held, prebuilts, extraction, boardRules, passedFstab, usb,
    passedThemes, project, built, packaged⟩⟩

/-- The exit status is 0 exactly for a valid working copy. -/
theorem main_zero_iff : main loads hexdigest tree = 0 ↔ Valid loads hexdigest tree := by
  rw [main_eq_zero_iff]
  refine ⟨fun found => ?_, passed_of_valid⟩
  obtain ⟨checks, made, passed⟩ := found
  exact valid_of_passed made passed

end

end DashTwrp.VerifyTree

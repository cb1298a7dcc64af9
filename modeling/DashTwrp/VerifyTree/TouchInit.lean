import DashTwrp.InitRc.Layout
import DashTwrp.Python.Replace
import DashTwrp.VerifyTree.Verdict

namespace DashTwrp.VerifyTree

open DashTwrp.Python DashTwrp.InitRc

/-! The checks of `init.recovery.project.rc`. -/

def bridgeText : List Char := "service dash-touch-bridge /system/bin/touch_report_debug".toList

def commonTouchText : List Char := "insmod /lib/modules/xiaomi_touch_dash.ko".toList

def panelTouchText : List Char := "insmod /lib/modules/nt38771_touch_dash.ko".toList

def startText : List Char := "start dash-touch-bridge".toList

def oneshotText : List Char := "    oneshot\n".toList

/-- `project_required` -/
def projectRequired : List (List Char) :=
  ["setprop sys.usb.config adb".toList, bridgeText,
    "setenv LD_LIBRARY_PATH /odm/lib64:/system/lib64".toList, commonTouchText, panelTouchText,
    "wait /dev/xiaomi-touch 10".toList, startText]

/-- `text.find(token)` -/
def findIndex (text token : List Char) : Int :=
  match find token text with
  | some position => position
  | none => -1

def projectChecks (projectRc : List Char) : List Check :=
  let commonTouch := findIndex projectRc commonTouchText
  let panelTouch := findIndex projectRc panelTouchText
  projectRequired.map (fun token => {
    name := "project-init:required:" ++ String.ofList token
    passed := token <:+: projectRc }) ++
  [{ name := "project-init:bridge-is-retryable"
     passed := ¬ oneshotText <:+: projectRc ∧
       "on boot\n    wait /dev/xiaomi-touch 10".toList <:+: projectRc },
   { name := "project-init:touch-module-order"
     passed := 0 ≤ commonTouch ∧ commonTouch < panelTouch }]

/-! ### What init makes of the file -/

def bridgeName : Word := "dash-touch-bridge".toList

def commonModule : List Char := "xiaomi_touch_dash.ko".toList

def panelModule : List Char := "nt38771_touch_dash.ko".toList

/-- The file name of the module that a command loads: `insmod [-f] path [options]`. -/
def insmodFile : List Word → Option (List Char)
  | command :: arguments =>
      if command = "insmod".toList then
        (arguments.find? (· ≠ "-f".toList)).map (afterLast '/')
      else none
  | [] => none

/-- A command that loads a module, on a line behind `above`. -/
def Loads (module : List Char) (above : List (List Char)) (line : List Char) : Prop :=
  InAction above ∧ insmodFile (activeWords line) = some module

instance (module line : List Char) (above : List (List Char)) :
    Decidable (Loads module above line) :=
  inferInstanceAs (Decidable (InAction above ∧ insmodFile (activeWords line) = some module))

/-- The service is declared and restartable, it is started by a command, and the common
module is loaded before the panel's. -/
structure TouchReady (projectRc : List Char) : Prop where
  declared : ∃ block ∈ blocks projectRc, block.serviceName = some bridgeName
  retryable : ∀ block ∈ blocks projectRc, block.serviceName = some bridgeName →
    ∀ option ∈ block.options, option.head? ≠ some "oneshot".toList
  started : ∃ block ∈ blocks projectRc, IsAction block.header ∧
    ["start".toList, bridgeName] ∈ block.options
  ordered : ∃ front line back, lines projectRc = front ++ line :: back ∧
    Loads commonModule front line ∧ ∀ before earlier after, front = before ++ earlier :: after →
      ¬ Loads panelModule before earlier

/-- A text stands alone on a line. -/
def StandsAlone (token line : List Char) : Prop :=
  ∃ front behind, Blank front ∧ Blank behind ∧ line = front ++ token ++ behind

/-- The test for the service finds its text at a place that is no header: a comment
sign or other words stand in front of it. -/
def MisreadHeader (front : List Char) : Prop := ¬ Blank front

/-- The test for the start finds its text at a place that is no command: something stands
beside it on the line, or the line is in no `on` section. -/
inductive MisreadStart (above : List (List Char)) (front behind : List Char) : Prop where
  | before (other : ¬ Blank front)
  | behind (other : ¬ Blank behind)
  | outside (noAction : ¬ InAction above)

/-- What the checks cannot tell from the file's text.  Of the places where a test finds
the service's or the start's text one is not misread, or the words stand on a line in a
spelling that the test does not look for.  A oneshot option is spelled the way the check
looks for it.  An insmod of the panel's module in front of the common one's is
spelled the way the check looks for it, and no other line in front of it mentions
the common one. -/
structure TouchCovered (projectRc : List Char) : Prop where
  declared : (∃ above front behind, Mentions bridgeText projectRc above front behind ∧
      ¬ MisreadHeader front) ∨
    ∃ line ∈ lines projectRc, ¬ Begins bridgeText line ∧ ∃ back,
      Spells line "service".toList bridgeName back ∧ EndsWord back
  retryable : ∀ front line back, lines projectRc = front ++ line :: back →
    InService bridgeName front → (activeWords line).head? = some "oneshot".toList →
      "    oneshot".toList <:+ line ∧ back ≠ []
  started : (∃ above front behind, Mentions startText projectRc above front behind ∧
      ¬ MisreadStart above front behind) ∨
    ∃ above line below, lines projectRc = above ++ line :: below ∧ InAction above ∧
      ¬ StandsAlone startText line ∧ ∃ back, Spells line "start".toList bridgeName back ∧ Blank back
  ordered : ∃ front line back, lines projectRc = front ++ line :: back ∧
    Loads commonModule front line ∧ ∀ before earlier after, front = before ++ earlier :: after →
      Loads panelModule before earlier → Begins panelTouchText earlier ∧
        ∀ other ∈ before, ¬ commonTouchText <:+: other

variable {projectRc : List Char}

theorem bridgeName_solid : Solid bridgeName := solid_of_all (by decide) (by decide)

/-- A service is declared by a line that spells its header. -/
theorem declared_spelled : (∃ block ∈ blocks projectRc, block.serviceName = some bridgeName) ↔
    ∃ line ∈ lines projectRc, ∃ back,
      Spells line "service".toList bridgeName back ∧ EndsWord back := by
  have keyword : Solid "service".toList := solid_of_all (by decide) (by decide)
  have isHeader : ∀ line, (∃ words, activeWords line = "service".toList :: bridgeName :: words) ↔
      ∃ back, Spells line "service".toList bridgeName back ∧ EndsWord back := by
    intro line
    have notComment : "service".toList.head? ≠ some '#' := by decide
    simp only [activeWords_eq_cons_iff notComment, fields_eq_two_iff keyword bridgeName_solid]
    constructor
    · intro found
      obtain ⟨words, back, spelled, ends, -⟩ := found
      exact ⟨back, spelled, ends⟩
    · intro spelled
      obtain ⟨back, spelled, ends⟩ := spelled
      exact ⟨_, back, spelled, ends, rfl⟩
  have blockHeaders : (blocks projectRc).map Block.header = [] :: headers (lines projectRc) :=
    headers_blocksFrom [] [] (lines projectRc)
  simp only [← isHeader]
  constructor
  · intro found
    obtain ⟨block, member, service⟩ := found
    have header := List.mem_map_of_mem (f := Block.header) member
    rw [blockHeaders] at header
    unfold Block.serviceName at service
    split at service
    · rename_i keyword name words shape
      split at service
      · rename_i isService
        cases service
        rw [shape, isService] at header
        cases header with
        | tail _ inFile =>
            obtain ⟨inLines, -⟩ := List.mem_filter.mp inFile
            obtain ⟨line, member, active⟩ := List.mem_map.mp inLines
            exact ⟨line, member, words, active⟩
      · cases service
    · cases service
  · intro found
    obtain ⟨line, member, words, active⟩ := found
    have header : activeWords line ∈ headers (lines projectRc) :=
      List.mem_filter.mpr ⟨List.mem_map_of_mem member, by rw [active]; rfl⟩
    have inBlocks := List.mem_cons_of_mem ([] : List Word) header
    rw [← blockHeaders] at inBlocks
    obtain ⟨block, blockMember, same⟩ := List.mem_map.mp inBlocks
    exact ⟨block, blockMember, by rw [Block.serviceName, same, active]; rfl⟩

/-- The tested text begins a line at a place that is no comment. -/
theorem begins_bridge {front behind : List Char} (sound : ¬ MisreadHeader front) :
    ∃ back, Spells (front ++ bridgeText ++ behind) "service".toList bridgeName back ∧ EndsWord back := by
  have text : bridgeText =
      "service".toList ++ [' '] ++ bridgeName ++ " /system/bin/touch_report_debug".toList := by
    decide
  refine ⟨" /system/bin/touch_report_debug".toList ++ behind,
    ⟨front, [' '], not_not.mp sound, by simp [Blank, isBlank], by simp, ?_⟩, ?_⟩
  · rw [text]
    simp only [List.append_assoc]
  · intro character first
    cases first
    rfl

/-- A service is declared at a place that its test reads right, or by a line that the
test does not look for. -/
theorem declared_iff : (∃ block ∈ blocks projectRc, block.serviceName = some bridgeName) ↔
    (∃ above front behind, Mentions bridgeText projectRc above front behind ∧
      ¬ MisreadHeader front) ∨
    ∃ line ∈ lines projectRc, ¬ Begins bridgeText line ∧ ∃ back,
      Spells line "service".toList bridgeName back ∧ EndsWord back := by
  rw [declared_spelled]
  constructor
  · intro found
    obtain ⟨line, member, spelled⟩ := found
    by_cases begins : Begins bridgeText line
    · obtain ⟨front, behind, blank, rfl⟩ := begins
      obtain ⟨above, below, cut⟩ := List.append_of_mem member
      exact .inl ⟨above, front, behind, ⟨below, cut⟩, not_not.mpr blank⟩
    · exact .inr ⟨line, member, begins, spelled⟩
  · intro covered
    rcases covered with ⟨above, front, behind, ⟨below, cut⟩, sound⟩ | ⟨line, member, -, spelled⟩
    · have member : front ++ bridgeText ++ behind ∈ lines projectRc := cut ▸ by simp
      exact ⟨_, member, begins_bridge sound⟩
    · exact ⟨line, member, spelled⟩

theorem not_misreadStart_iff {above : List (List Char)} {front behind : List Char} :
    ¬ MisreadStart above front behind ↔ Blank front ∧ Blank behind ∧ InAction above := by
  constructor
  · intro sound
    exact ⟨by_contra fun other => sound (.before other),
      by_contra fun other => sound (.behind other), by_contra fun other => sound (.outside other)⟩
  · intro readRight misread
    cases misread with
    | before other => exact other readRight.1
    | behind other => exact other readRight.2.1
    | outside noAction => exact noAction readRight.2.2

/-- The service is started at a place that its test reads right, or by a command in a
spelling that the test does not look for. -/
theorem started_iff : (∃ block ∈ blocks projectRc, IsAction block.header ∧
      ["start".toList, bridgeName] ∈ block.options) ↔
    (∃ above front behind, Mentions startText projectRc above front behind ∧
      ¬ MisreadStart above front behind) ∨
    ∃ above line below, lines projectRc = above ++ line :: below ∧ InAction above ∧
      ¬ StandsAlone startText line ∧ ∃ back,
        Spells line "start".toList bridgeName back ∧ Blank back := by
  have keyword : Solid "start".toList := solid_of_all (by decide) (by decide)
  have spelling (line : List Char) : activeWords line = ["start".toList, bridgeName] ↔ ∃ back,
      Spells line "start".toList bridgeName back ∧ Blank back :=
    activeWords_eq_pair_iff keyword bridgeName_solid (by decide)
  have text : startText = "start".toList ++ [' '] ++ bridgeName := by decide
  rw [sectionOption_iff IsAction (by simp [IsAction]) (by rfl) (by simp) projectRc]
  constructor
  · intro found
    obtain ⟨above, line, below, cut, active, inAction⟩ := found
    have spelling := (spelling line).mp active
    by_cases alone : StandsAlone startText line
    · obtain ⟨front, behind, frontBlank, behindBlank, rfl⟩ := alone
      exact .inl ⟨above, front, behind, ⟨below, cut⟩,
        not_misreadStart_iff.mpr ⟨frontBlank, behindBlank, inAction⟩⟩
    · exact .inr ⟨above, line, below, cut, inAction, alone, spelling⟩
  · intro covered
    rcases covered with ⟨above, front, behind, ⟨below, cut⟩, sound⟩ |
      ⟨above, line, below, cut, inAction, -, spelled⟩
    · obtain ⟨frontBlank, behindBlank, inAction⟩ := not_misreadStart_iff.mp sound
      refine ⟨above, _, below, cut, (spelling _).mpr ⟨behind, ?_, behindBlank⟩, inAction⟩
      refine ⟨front, [' '], frontBlank, by simp [Blank, isBlank], by simp, ?_⟩
      rw [text]
      simp only [List.append_assoc]
    · exact ⟨above, line, below, cut, (spelling line).mpr spelled, inAction⟩

/-- A oneshot option is found by its head. -/
theorem oneshot_iff : (∃ block ∈ blocks projectRc, block.serviceName = some bridgeName ∧
      ∃ option ∈ block.options, option.head? = some "oneshot".toList) ↔
    ∃ front line back, lines projectRc = front ++ line :: back ∧ InService bridgeName front ∧
      (activeWords line).head? = some "oneshot".toList := by
  have notHeader (rest : List Word) : startsSection ("oneshot".toList :: rest) = false := rfl
  have options (rest : List Word) :=
    serviceOption_iff (notHeader rest) (List.cons_ne_nil _ _) projectRc bridgeName
  constructor
  · intro found
    obtain ⟨block, member, service, option, listed, head⟩ := found
    obtain ⟨rest, rfl⟩ := List.head?_eq_some_iff.mp head
    obtain ⟨front, line, back, cut, active, inService⟩ :=
      (options rest).mp ⟨block, member, service, listed⟩
    exact ⟨front, line, back, cut, inService, by rw [active]; rfl⟩
  · intro found
    obtain ⟨front, line, back, cut, inService, head⟩ := found
    obtain ⟨rest, active⟩ := List.head?_eq_some_iff.mp head
    obtain ⟨block, member, service, listed⟩ :=
      (options rest).mpr ⟨front, line, back, cut, active, inService⟩
    exact ⟨block, member, service, _, listed, rfl⟩

/-- The check sees four blanks, the word and the end of the line. -/
theorem oneshot_seen {line : List Char} (seen : "    oneshot".toList <:+ line)
    (front more : List Char) : oneshotText <:+: front ++ line ++ '\n' :: more := by
  obtain ⟨indent, rfl⟩ := seen
  have whole : oneshotText = "    oneshot".toList ++ ['\n'] := by decide
  rw [whole]
  exact ⟨front ++ indent, more, by simp only [List.append_assoc, List.singleton_append]⟩

section

variable (passed : allPassed (projectChecks projectRc) = true)
include passed

theorem oneshot_absent : ¬ oneshotText <:+: projectRc := by
  simp only [projectChecks, allPassed_append, allPassed_cons, decide_eq_true_eq] at passed
  exact passed.2.1.1

/-- The first mentions of the two modules. -/
theorem touch_module_order : ∃ common panel, find commonTouchText projectRc = some common ∧
    find panelTouchText projectRc = some panel ∧ common < panel := by
  simp only [projectChecks, allPassed_append, allPassed_cons, decide_eq_true_eq] at passed
  obtain ⟨nonneg, order⟩ := passed.2.2.1
  unfold findIndex at nonneg order
  cases common : find commonTouchText projectRc with
  | none => simp [common] at nonneg
  | some position =>
      cases panel : find panelTouchText projectRc with
      | none =>
          simp only [common, panel] at order
          omega
      | some later =>
          simp only [common, panel] at order
          exact ⟨position, later, rfl, rfl, by omega⟩

/-- In front of an insmod of the panel's module, spelled as the check looks for
it, some line mentions the common one. -/
theorem common_mentioned {before after : List (List Char)} {earlier : List Char}
    (cut : lines projectRc = before ++ earlier :: after) (begins : Begins panelTouchText earlier) :
    ∃ other ∈ before, commonTouchText <:+: other := by
  obtain ⟨common, panel, commonFound, panelFound, order⟩ := touch_module_order passed
  obtain ⟨front, back, blank, rfl⟩ := begins
  obtain ⟨rest, text, -⟩ := line_position cut
  have panelFirst : panel ≤ (unlines before ++ front).length := by
    by_contra behind
    refine (find_eq_some panelFound).2 _ (Nat.not_le.mp behind) ?_
    have spelled : projectRc = unlines before ++ front ++ (panelTouchText ++ (back ++ rest)) := by
      rw [text]
      simp
    rw [spelled, List.drop_left]
    exact List.prefix_append _ _
  have occurs := (find_eq_some commonFound).1
  rw [text] at occurs
  rw [List.length_append] at panelFirst
  by_cases inFront : common < (unlines before).length
  · rw [List.append_assoc] at occurs
    exact occurrence_in_line (by decide) inFront occurs
  · -- The common module's text would begin with one of the line's blanks.
    exfalso
    obtain ⟨skip, rfl⟩ := Nat.exists_eq_add_of_le (Nat.not_lt.mp inFront)
    have inside : skip < front.length := by omega
    rw [List.append_assoc, List.drop_length_add_append] at occurs
    obtain ⟨tail, split⟩ := occurs
    have first : front[skip]? = some 'i' := by
      have heads := congrArg List.head? split
      rw [List.head?_drop, List.append_assoc, List.append_assoc, List.getElem?_append_left inside]
        at heads
      exact heads.symm
    exact absurd (blank 'i' (List.mem_of_getElem? first)) (by decide)

end

/-- `init.recovery.project.rc` -/
def recoveryProjectRcLines : List String := [
  "# Start stock recovery adbd independently of the TWRP UI process.",
  "on post-fs",
  "    # The generic recovery init creates an empty /sdcard mount point on init.",
  "    # Dash uses /data/media/0 directly, so remove that compatibility directory",
  "    # after init has run and publish the real storage path to recovery services.",
  "    export EXTERNAL_STORAGE /data/media/0",
  "    rmdir /sdcard",
  "    setprop sys.usb.config adb",
  "",
  "# Run Xiaomi's stock host-touch report loop without the Android Binder HAL.",
  "service dash-touch-bridge /system/bin/touch_report_debug",
  "    class core",
  "    user root",
  "    group root input",
  "    seclabel u:r:recovery:s0",
  "    disabled",
  "    # This is a long-running daemon. If it exits during early touch setup,",
  "    # let init retry it (default 5s period) instead of leaving the screen",
  "    # permanently inert.",
  "    setenv LD_LIBRARY_PATH /odm/lib64:/system/lib64",
  "",
  "# Load kernel modules — touchscreen first, then USB storage for OTG.",
  "on init",
  "    insmod /lib/modules/xiaomi_touch_dash.ko",
  "    insmod /lib/modules/nt38771_touch_dash.ko",
  "    # USB mass-storage for OTG support (built-in or module)",
  "    insmod /lib/modules/usb-storage.ko",
  "    insmod /lib/modules/uas.ko",
  "    # Load mediatek cpufreq driver and set schedutil governor (thermal-safe)",
  "    insmod /lib/modules/mediatek-cpufreq-hw.ko",
  "    write /sys/devices/system/cpu/cpu0/cpufreq/scaling_governor schedutil",
  "    write /sys/devices/system/cpu/cpu1/cpufreq/scaling_governor schedutil",
  "    write /sys/devices/system/cpu/cpu2/cpufreq/scaling_governor schedutil",
  "    write /sys/devices/system/cpu/cpu3/cpufreq/scaling_governor schedutil",
  "    write /sys/devices/system/cpu/cpu4/cpufreq/scaling_governor schedutil",
  "    write /sys/devices/system/cpu/cpu5/cpufreq/scaling_governor schedutil",
  "    write /sys/devices/system/cpu/cpu6/cpufreq/scaling_governor schedutil",
  "    write /sys/devices/system/cpu/cpu7/cpufreq/scaling_governor schedutil",
  "",
  "# Module probing and ueventd publish the character node asynchronously, so",
  "# wait for the node before starting the host-touch loop. A wait timeout only",
  "# fails this one command: the start still runs and init's service retry above",
  "# keeps recovering until the node appears.",
  "on boot",
  "    wait /dev/xiaomi-touch 10",
  "    chown root input /dev/xiaomi-touch",
  "    chmod 0660 /dev/xiaomi-touch",
  "    # Set sysfs permissions for haptic feedback (vibration)",
  "    # TWRP writes to timed_output or LED-class vibrator nodes on touch events.",
  "    chown root root /sys/class/timed_output/vibrator/enable",
  "    chmod 0666 /sys/class/timed_output/vibrator/enable",
  "    chown root root /sys/class/leds/vibrator/duration",
  "    chmod 0666 /sys/class/leds/vibrator/duration",
  "    chown root root /sys/class/leds/vibrator/activate",
  "    chmod 0666 /sys/class/leds/vibrator/activate",
  "    start dash-touch-bridge"]

def recoveryProjectRc : List Char := unlines (recoveryProjectRcLines.map String.toList)

set_option maxRecDepth 20000 in
theorem recoveryProjectRc_passed : allPassed (projectChecks recoveryProjectRc) = true := by
  unfold recoveryProjectRc
  apply of_literal_lines (P := fun lines => allPassed (projectChecks (unlines lines)) = true)
  case same =>
    unfold recoveryProjectRcLines
    repeat
      apply literal_cons
      case first => rfl
    exact List.map_nil.symm
  case holds => decide +kernel

/-- A file with the start and the order in a comment only, and the oneshot option
behind a tab. -/
def looseProjectRcLines : List String := [
  "# start dash-touch-bridge after insmod /lib/modules/xiaomi_touch_dash.ko",
  "on init",
  "    setprop sys.usb.config adb",
  "    insmod /lib/modules/nt38771_touch_dash.ko",
  "    insmod /lib/modules/xiaomi_touch_dash.ko",
  "service dash-touch-bridge /system/bin/touch_report_debug",
  "    setenv LD_LIBRARY_PATH /odm/lib64:/system/lib64",
  "\toneshot",
  "on boot",
  "    wait /dev/xiaomi-touch 10"]

def looseProjectRc : List Char := unlines (looseProjectRcLines.map String.toList)

end DashTwrp.VerifyTree

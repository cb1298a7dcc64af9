import Mathlib.Data.List.Infix
import DashTwrp.InitRc.Layout
import DashTwrp.PrepareFragments.F0
import DashTwrp.Unix.Programs
import DashTwrp.Unix.Trees

namespace DashTwrp.VerifyFragments

open DashTwrp.Python DashTwrp.Unix DashTwrp.InitRc
open DashTwrp.PrepareFragments (recoveryNames resNames initRcNames twrp16Names twrp16LibNames)

/-! The checks of an extracted F0 tree.

The tree is a directory of a file system, so an absolute link in it leads out of
it.  What the checks print is left out. -/

inductive VerifyError where
  | isADirectory
  | unicodeDecodeError
deriving DecidableEq, Repr

/-- The libraries that `checks` asks for. -/
def checkedLibs : List Name :=
  ["libbase.so", "libc++.so", "liblog.so", "libcutils.so", "libutils.so", "libfs_mgr.so",
    "liblp.so", "libbootloader_message.so", "libprotobuf-cpp-lite.so"]

def twrp16Path : PurePath := .ofNames twrp16Names

def libPath (lib : Name) : PurePath := .ofNames (twrp16LibNames lib)

def initRcPath : PurePath := .ofNames initRcNames

def recoveryPath : PurePath := .ofNames recoveryNames

def resPath : PurePath := .ofNames resNames

/-- `checks`: the paths and whether they should exist. -/
def f0Checks : List (PurePath × Bool) :=
  (twrp16Path, true) :: checkedLibs.map (fun lib => (libPath lib, true)) ++
    [(initRcPath, true), (recoveryPath, false), (resPath, false)]

def libraryPathText : List Char := "LD_LIBRARY_PATH".toList

def twrp16Text : List Char := "/system/lib64/twrp16".toList

section

variable (fs : FileSystem Bytes) (root : Location)

/-- `open(path).read()` of a path that exists -/
def readText (path : PurePath) : Except VerifyError (List Char) :=
  readTextFile (fun _ => .isADirectory) .unicodeDecodeError fs root path

/-- What `verify_f0` returns for the tree that was extracted to `root`. -/
def verifyF0Tree : Except VerifyError Bool := do
  let allOk := f0Checks.all fun (path, shouldExist) => fs.pathExists root path == shouldExist
  if fs.pathExists root initRcPath then
    let content ← readText fs root initRcPath
    if libraryPathText <:+: content ∧ twrp16Text <:+: content then pure allOk else pure false
  else pure allOk

/-- The words of an option line that sets the library path. -/
def setenvOption (value : Word) : List Word := ["setenv".toList, libraryPathText, value]

/-- What the compatibility layer needs of an F0 tree. -/
structure F0Sound : Prop where
  noRecovery : fs.lexists root recoveryPath = false
  noRes : fs.lexists root resPath = false
  libraries : ∀ lib ∈ checkedLibs, fs.lexists root (libPath lib) = true
  setenv : ∃ content, readText fs root initRcPath = .ok content ∧
    ∃ block ∈ blocks content, block.serviceName = some "recovery".toList ∧
      ∃ value, setenvOption value ∈ block.options ∧ twrp16Text <:+: value

/-- A comment begins in front of the place. -/
def Commented (front : List Char) : Prop :=
  ∃ blanks rest, Blank blanks ∧ front = blanks ++ '#' :: rest

/-- Just the keyword stands in front of the place. -/
def BehindSetenv (front : List Char) : Prop :=
  ∃ blanks gap, Blank blanks ∧ Blank gap ∧ gap ≠ [] ∧ front = blanks ++ "setenv".toList ++ gap

/-- One word stands behind the place, and the second test finds its text in it. -/
def BeforeValue (behind : List Char) : Prop :=
  ∃ gap value blanks, Blank gap ∧ gap ≠ [] ∧ Solid value ∧ Blank blanks ∧
    twrp16Text <:+: value ∧ behind = gap ++ value ++ blanks

/-- What the two tests mistake for the setenv line when they find the variable's
name between `front` and `behind`. -/
inductive Misread (above : List (List Char)) (front behind : List Char) : Prop where
  | comment (commented : Commented front)
  | command (other : ¬ BehindSetenv front)
  | value (elsewhere : ¬ BeforeValue behind)
  | service (other : ¬ InService "recovery".toList above)

/-- The removed paths are no links, and of the places where the first test finds the
variable's name one is not misread. -/
structure F0Covered : Prop where
  recoveryNoLink : ∀ target, fs.stat false root recoveryPath ≠ .ok (.link target)
  resNoLink : ∀ target, fs.stat false root resPath ≠ .ok (.link target)
  found : ∀ content, readText fs root initRcPath = .ok content → ∃ above front behind,
    Mentions libraryPathText content above front behind ∧ ¬ Misread above front behind

end

variable {fs : FileSystem Bytes} {root : Location}

theorem verifyF0Tree_checks (accepted : verifyF0Tree fs root = .ok true) :
    ∀ check ∈ f0Checks, fs.pathExists root check.1 = check.2 := by
  have all : (f0Checks.all fun (path, shouldExist) =>
      fs.pathExists root path == shouldExist) = true := by
    unfold verifyF0Tree at accepted
    by_cases present : fs.pathExists root initRcPath = true
    · rw [if_pos present] at accepted
      obtain ⟨content, _, rest⟩ := except_bind_eq_ok accepted
      split at rest
      · exact Except.ok.inj rest
      · cases rest
    · rw [if_neg present] at accepted
      exact Except.ok.inj accepted
  intro check member
  exact eq_of_beq (List.all_eq_true.mp all check member)

/-- The script that the tests have read, with the places that they have found. -/
theorem verifyF0Tree_content (accepted : verifyF0Tree fs root = .ok true) :
    ∃ content, readText fs root initRcPath = .ok content ∧
      libraryPathText <:+: content ∧ twrp16Text <:+: content := by
  have present : fs.pathExists root initRcPath = true :=
    verifyF0Tree_checks accepted (initRcPath, true) (by simp [f0Checks])
  rw [verifyF0Tree, if_pos present] at accepted
  obtain ⟨content, read, rest⟩ := except_bind_eq_ok accepted
  split at rest
  · rename_i texts
    exact ⟨content, read, texts⟩
  · cases rest

theorem setenvOption_option (value : Word) :
    startsSection (setenvOption value) = false ∧ setenvOption value ≠ [] :=
  ⟨by rfl, by simp [setenvOption]⟩

theorem not_misread_iff {above : List (List Char)} {front behind : List Char} :
    ¬ Misread above front behind ↔
      BehindSetenv front ∧ BeforeValue behind ∧ InService "recovery".toList above := by
  constructor
  · intro sound
    exact ⟨by_contra fun other => sound (.command other),
      by_contra fun elsewhere => sound (.value elsewhere),
      by_contra fun other => sound (.service other)⟩
  · intro readRight misread
    obtain ⟨setenv, value, service⟩ := readRight
    cases misread with
    | comment commented =>
        obtain ⟨blanks, gap, blank, _, _, rfl⟩ := setenv
        obtain ⟨others, rest, othersBlank, same⟩ := commented
        -- The first character behind the blanks would be both `s` and `#`.
        have firstOf {before after : List Char} {character : Char} (allBlank : Blank before)
            (solid : isBlank character = false) :
            (before ++ character :: after).dropWhile isBlank = character :: after := by
          rw [List.dropWhile_append_of_pos allBlank, List.dropWhile_cons_of_neg (by simp [solid])]
        have keyword : blanks ++ "setenv".toList ++ gap = blanks ++ 's' :: ("etenv".toList ++ gap) := by
          simp
        rw [keyword] at same
        have firsts := congrArg (List.dropWhile isBlank) same
        rw [firstOf blank (by decide), firstOf othersBlank (by decide)] at firsts
        exact absurd (List.cons.inj firsts).1 (by decide)
    | command other => exact other setenv
    | value elsewhere => exact elsewhere value
    | service other => exact other service

/-- A line sets the library path when a mention of the variable on it is read as that. -/
theorem setenv_iff (line : List Char) :
    (∃ value, activeWords line = setenvOption value ∧ twrp16Text <:+: value) ↔
      ∃ front behind, line = front ++ libraryPathText ++ behind ∧ BehindSetenv front ∧
        BeforeValue behind := by
  have keyword : Solid "setenv".toList := solid_of_all (by decide) (by decide)
  have variableName : Solid libraryPathText := solid_of_all (by decide) (by decide)
  have notComment : "setenv".toList.head? ≠ some '#' := by decide
  have words (value : Word) : activeWords line = setenvOption value ↔
      ∃ back, Spells line "setenv".toList libraryPathText back ∧ EndsWord back ∧
        fields back = [value] := by
    rw [setenvOption, activeWords_eq_cons_iff notComment, fields_eq_two_iff keyword variableName]
  constructor
  · intro found
    obtain ⟨value, active, inValue⟩ := found
    obtain ⟨back, ⟨blanks, gap, blank, gapBlank, nonempty, rfl⟩, ends, last⟩ := (words value).mp active
    obtain ⟨between, rest, rfl, betweenBlank, solid, _, none⟩ := fields_eq_cons_iff.mp last
    refine ⟨_, _, rfl, ⟨blanks, gap, blank, gapBlank, nonempty, rfl⟩,
      between, value, rest, betweenBlank, ?_, solid, fields_eq_nil_iff.mp none, inValue, rfl⟩
    rintro rfl
    cases spelled : value with
    | nil => exact solid.nonempty spelled
    | cons character value =>
        have inWord := solid.noBlank character (by simp [spelled])
        rw [ends character (by simp [spelled])] at inWord
        cases inWord
  · intro found
    obtain ⟨front, behind, rfl, ⟨blanks, gap, blank, gapBlank, nonempty, rfl⟩,
      between, value, rest, betweenBlank, someBetween, solid, restBlank, inValue, rfl⟩ := found
    refine ⟨value, (words value).mpr ⟨_, ⟨blanks, gap, blank, gapBlank, nonempty, rfl⟩, ?_, ?_⟩,
      inValue⟩
    · intro character first
      obtain ⟨head, tail, rfl⟩ := List.exists_cons_of_ne_nil someBetween
      rw [List.cons_append, List.cons_append, List.head?_cons] at first
      cases first
      exact betweenBlank _ List.mem_cons_self
    · exact fields_eq_cons_iff.mpr ⟨between, rest, rfl, betweenBlank, solid,
        endsWord_of_blank restBlank, fields_eq_nil_iff.mpr restBlank⟩

/-- An extracted tree with all libraries, an `init.rc` and possibly `res`. -/
def f0Entries (script : String) (res : Option (Node Bytes)) : List (Location × Node Bytes) :=
  checkedLibs.map (fun lib => ([lib, "twrp16", "lib64", "system"], .file [])) ++
    [(["system"], .directory), (["lib64", "system"], .directory),
      (["twrp16", "lib64", "system"], .directory), (["etc", "system"], .directory),
      (["init", "etc", "system"], .directory), (["hw", "init", "etc", "system"], .directory),
      (["init.rc", "hw", "init", "etc", "system"], .file (encodeUtf8 script))] ++
    res.toList.map fun node => (["res"], node)

def activeScript : String :=
  "service recovery /system/bin/recovery\n" ++
    "    setenv LD_LIBRARY_PATH /system/lib64/twrp16:/system/lib64\n"

def commentedScript : String :=
  "service recovery /system/bin/recovery\n" ++
    "    # setenv LD_LIBRARY_PATH /system/lib64/twrp16:/system/lib64\n"

def activeTree : FileSystem Bytes := .ofEntries (f0Entries activeScript none) (by decide +kernel)

/-- `res` is a link to nothing, and the setenv line is a comment. -/
def commentedTree : FileSystem Bytes :=
  .ofEntries (f0Entries commentedScript (some (.link { absolute := true, steps := [.name "gone"] })))
    (by decide +kernel)

end DashTwrp.VerifyFragments

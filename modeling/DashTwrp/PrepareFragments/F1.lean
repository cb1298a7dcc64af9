import DashTwrp.Python.Copies
import DashTwrp.Python.Removals

namespace DashTwrp.PrepareFragments

open DashTwrp.Python DashTwrp.Unix

/-! The F1 step of the fragment tool, on the validated tree that was extracted in
`tmpdir`, the staging tree and the device tree. -/

/-- `DT_OVERLAY_RCS` -/
def dtOverlayRcs : List Name := ["init.recovery.mt6991.rc", "init.recovery.project.rc"]

/-- `STAGING_OVERLAY_FILES` -/
def stagingOverlayFiles : List (List Name) :=
  [["system", "bin", "recovery"], ["system", "etc", "recovery.fstab"],
    ["twres", "languages", "en.xml"]]

/-- `val_f1d` -/
def valF1Names : List Name := ["_val_f1"]

/-- `f1d` -/
def newF1Names : List Name := ["_new_f1"]

def valF1d (tmpdir : Location) : Location := place tmpdir valF1Names

def f1d (tmpdir : Location) : Location := place tmpdir newF1Names

/-- `dt_path`, where the tool looks for a script of the device tree. -/
def dtRcNames (rc : Name) : List Name := ["recovery", "root", rc]

/-- Where the device tree has it, and `Android.mk` takes it from. -/
def rootdirNames (rc : Name) : List Name := ["rootdir", rc]

variable {φ : Type}

/-- One file of the staging tree. -/
def overlayStagingFile (staging f1d : Location) (fs : FileSystem φ) (rel : List Name) :
    Except OsError (FileSystem φ) :=
  if fs.pathExists staging (.ofNames rel) then
    makedirs true fs f1d (.ofNames rel.dropLast) >>= fun made =>
      copy2 false made staging (.ofNames rel) f1d (.ofNames rel)
  else .ok fs

/-- One script of the device tree. -/
def overlayRc (dtroot f1d : Location) (fs : FileSystem φ) (rc : Name) :
    Except OsError (FileSystem φ) :=
  if fs.pathExists dtroot (.ofNames (dtRcNames rc)) then
    copy2 true fs dtroot (.ofNames (dtRcNames rc)) f1d (.ofNames [rc])
  else .ok fs

/-- `if args.staging:` -/
def overlayStaging (staging : Option Location) (f1d : Location) (fs : FileSystem φ) :
    Except OsError (FileSystem φ) :=
  match staging with
  | some tree => stagingOverlayFiles.foldlM (overlayStagingFile tree f1d) fs
  | none => .ok fs

/-- The tree that is packed as F1. -/
def f1Transform (fs : FileSystem φ) (tmpdir : Location) (staging : Option Location)
    (dtroot : Location) : Except OsError (FileSystem φ) := do
  let fs ← removeTree fs tmpdir (.ofNames newF1Names)
  let fs ← copytree fs tmpdir (.ofNames valF1Names) tmpdir (.ofNames newF1Names)
  let fs ← overlayStaging staging (f1d tmpdir) fs
  dtOverlayRcs.foldlM (overlayRc dtroot (f1d tmpdir)) fs

end DashTwrp.PrepareFragments

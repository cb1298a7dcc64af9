import DashTwrp.InitRc.Setenv
import DashTwrp.Python.Shutil

namespace DashTwrp.PrepareFragments

open DashTwrp.Python DashTwrp.Unix DashTwrp.InitRc

/-! The F0 step of the fragment tool, on the trees that were extracted to `f0d`
and `ci_f1d`. -/

inductive PrepareError where
  | osError (error : OsError)
  | unicodeDecodeError
deriving DecidableEq, Repr

/-- `TWRP16_LIBS` -/
def twrp16Libs : List Name :=
  ["libbase.so", "libbootloader_message.so", "libc++.so", "libcutils.so", "libfs_mgr.so",
    "liblog.so", "liblp.so", "libprotobuf-cpp-lite.so", "libutils.so"]

def recoveryNames : List Name := ["system", "bin", "recovery"]

def resNames : List Name := ["res"]

/-- `td` -/
def twrp16Names : List Name := ["system", "lib64", "twrp16"]

def twrp16LibNames (lib : Name) : List Name := twrp16Names ++ [lib]

def ciLibNames (lib : Name) : List Name := ["system", "lib64", lib]

/-- `irc` -/
def initRcNames : List Name := ["system", "etc", "init", "hw", "init.rc"]

variable {φ : Type}

/-- `if os.path.exists(p): (shutil.rmtree if os.path.isdir(p) else os.remove)(p)` -/
def removePath (fs : FileSystem φ) (start : Location) (path : PurePath) :
    Except OsError (FileSystem φ) :=
  if fs.pathExists start path then
    if fs.isDir start path then rmtree fs start path else osRemove fs start path
  else .ok fs

/-- `if os.path.exists(s): shutil.copy2(s, f'{td}/{lib}', follow_symlinks=False)` -/
def copyLib (fs : FileSystem φ) (ciF1d f0d : Location) (lib : Name) :
    Except OsError (FileSystem φ) :=
  if fs.pathExists ciF1d (.ofNames (ciLibNames lib)) then
    copy2 false fs ciF1d (.ofNames (ciLibNames lib)) f0d (.ofNames (twrp16LibNames lib))
  else .ok fs

def copyLibs (fs : FileSystem φ) (ciF1d f0d : Location) :
    List Name → Except OsError (FileSystem φ)
  | [] => .ok fs
  | lib :: rest => copyLib fs ciF1d f0d lib >>= fun copied => copyLibs copied ciF1d f0d rest

/-- `open(path).read()` -/
def readText (fs : FileSystem Bytes) (start : Location) (path : PurePath) :
    Except PrepareError (List Char) :=
  readTextFile .osError .unicodeDecodeError fs start path

/-- The edit of `init.rc` when it exists. -/
def editScript (fs : FileSystem Bytes) (f0d : Location) :
    Except PrepareError (FileSystem Bytes) :=
  if fs.pathExists f0d (.ofNames initRcNames) then
    readText fs f0d (.ofNames initRcNames) >>= fun c =>
      (writeFile fs f0d (.ofNames initRcNames) (encodeUtf8 (String.ofList (editText c)))).mapError
        .osError
  else .ok fs

/-- What the F0 step makes of the stock tree, given the CI tree. -/
def f0Transform (fs : FileSystem Bytes) (f0d ciF1d : Location) :
    Except PrepareError (FileSystem Bytes) := do
  let fs ← (removePath fs f0d (.ofNames recoveryNames)).mapError .osError
  let fs ← (removePath fs f0d (.ofNames resNames)).mapError .osError
  let fs ← (makedirs true fs f0d (.ofNames twrp16Names)).mapError .osError
  let fs ← (copyLibs fs ciF1d f0d twrp16Libs).mapError .osError
  editScript fs f0d

end DashTwrp.PrepareFragments

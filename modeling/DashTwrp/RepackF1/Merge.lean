import DashTwrp.Python.Copies
import DashTwrp.Python.Removals

namespace DashTwrp.RepackF1

open DashTwrp.Python DashTwrp.Unix

/-! The merge of the F1 trees in the repack tool, on the trees that were extracted
under `/tmp`.

The order in which directories are read is that of a listing, and the order of
the set `tp_bins` is a parameter. -/

/-- `system/bin` -/
def binNames : List Name := ["system", "bin"]

/-- `system/lib64` -/
def lib64Names : List Name := ["system", "lib64"]

/-- The directories that are taken from the CI tree. -/
def subs : List (List Name) := [binNames, lib64Names]

/-- The core components. -/
def coreNames : List Name := ["init", "linker64", "adbd", "fastbootd", "toybox"]

def coreFile (f : Name) : List Name := binNames ++ [f]

def ciDir (tmp : Location) : Location := "ci_dir" :: tmp

def tpDir (tmp : Location) : Location := "tp_dir" :: tmp

def f1Dir (tmp : Location) : Location := "f1_dir" :: tmp

/-- `rel.startswith('system/bin/')` -/
def UnderBin (rel : List Name) : Prop := binNames <+: rel ∧ rel ≠ binNames

instance (rel : List Name) : Decidable (UnderBin rel) :=
  inferInstanceAs (Decidable (binNames <+: rel ∧ rel ≠ binNames))

variable {φ : Type}

/-- What `os.walk(top)` lists as files, by the names from `top` on: whatever is not
a directory, also through links.

The loops over a walk remove at most files that it has listed already, so the
files are those of the tree at its start. -/
def walkFiles (listing : List Location) (fs : FileSystem φ) (start : Location) (top : PurePath) :
    List (List Name) :=
  match fs.locate true start top with
  | .error _ => []
  | .ok base =>
      ((descendants listing base).map List.reverse).filter fun names =>
        !fs.isDir base (.ofNames names)

/-- `tp_bins` -/
def tpBins (listing : List Location) (fs : FileSystem φ) (tmp : Location) : List (List Name) :=
  ((walkFiles listing fs (tpDir tmp) (.ofNames ["system"])).map (List.cons "system")).filter
    fun rel => UnderBin rel

def removeSub (tmp : Location) (fs : FileSystem φ) (sub : List Name) :
    Except OsError (FileSystem φ) :=
  removeTree fs (f1Dir tmp) (.ofNames sub)

def copySub (tmp : Location) (fs : FileSystem φ) (sub : List Name) :
    Except OsError (FileSystem φ) :=
  if fs.pathExists (ciDir tmp) (.ofNames sub) then
    copytree fs (ciDir tmp) (.ofNames sub) (f1Dir tmp) (.ofNames sub)
  else .ok fs

def removeCore (tmp : Location) (fs : FileSystem φ) (f : Name) : Except OsError (FileSystem φ) :=
  if fs.pathExists (f1Dir tmp) (.ofNames (coreFile f)) then
    osRemove fs (f1Dir tmp) (.ofNames (coreFile f))
  else .ok fs

/-- The template's tree with the two directories of the CI tree, without the core
components. -/
def mergedTree (fs : FileSystem φ) (tmp : Location) : Except OsError (FileSystem φ) := do
  let fs ← removeTree fs tmp (.ofNames ["f1_dir"])
  let fs ← copytree fs tmp (.ofNames ["tp_dir"]) tmp (.ofNames ["f1_dir"])
  let fs ← subs.foldlM (removeSub tmp) fs
  let fs ← subs.foldlM (copySub tmp) fs
  coreNames.foldlM (removeCore tmp) fs

/-- One file of the walk that removes what the template does not have. -/
def pruneFile (bins : List (List Name)) (tmp : Location) (fs : FileSystem φ) (rel : List Name) :
    Except OsError (FileSystem φ) :=
  if UnderBin rel ∧ rel ∉ bins then osRemove fs (f1Dir tmp) (.ofNames rel) else .ok fs

def prunedTree (listing : List Location) (bins : List (List Name)) (tmp : Location)
    (fs : FileSystem φ) : Except OsError (FileSystem φ) :=
  (walkFiles listing fs (f1Dir tmp) (.ofNames [])).foldlM (pruneFile bins tmp) fs

/-- One file of the template that is put back when the merged tree has it not. -/
def restoreFile (ciNames : List (List Name)) (tmp : Location) (fs : FileSystem φ)
    (rel : List Name) : Except OsError (FileSystem φ) :=
  if rel ∈ ciNames then .ok fs
  else if fs.lexists (tpDir tmp) (.ofNames rel) then
    makedirs true fs (f1Dir tmp) (.ofNames rel.dropLast) >>= fun made =>
      match made.stat false (tpDir tmp) (.ofNames rel) with
      | .ok (.link target) => Prod.fst <$> made.makeNode (.link target) (f1Dir tmp) (.ofNames rel)
      | _ => copy2 false made (tpDir tmp) (.ofNames rel) (f1Dir tmp) (.ofNames rel)
  else .ok fs

abbrev tpNode (fs : FileSystem φ) (tmp : Location) (names : List Name) : Option (Node φ) :=
  fs.node (place (tpDir tmp) names)

/-- The node that the last loop puts at a path. -/
def restoredNode (before : FileSystem φ) (tmp : Location) (ciNames : List (List Name))
    (rel : List Name) : Option (Node φ) :=
  if rel ∈ ciNames then none else tpNode before tmp rel

/-- The merge, with a listing for each of the three walks and an order of `tp_bins`. -/
def mergeF1 (tpListing mergedListing prunedListing : List Location) (order : List (List Name))
    (fs : FileSystem φ) (tmp : Location) : Except OsError (FileSystem φ) := do
  let merged ← mergedTree fs tmp
  let pruned ← prunedTree mergedListing (tpBins tpListing fs tmp) tmp merged
  order.foldlM
    (restoreFile (walkFiles prunedListing pruned (f1Dir tmp) (.ofNames [])) tmp) pruned

end DashTwrp.RepackF1

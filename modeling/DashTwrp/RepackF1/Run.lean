import DashTwrp.RepackF1.Merge
import DashTwrp.VendorBoot.Repack

namespace DashTwrp.RepackF1

open DashTwrp.Python DashTwrp.Unix DashTwrp.VendorBoot

/-! The repack tool from its two images to the new one. -/

/-- `/tmp` -/
def tmp : Location := ["tmp"]

def packedName : Name := "f1_new.lz4"

inductive RunError where
  | os (error : OsError)
  | timeoutExpired
  | read (error : ReadError)
  | repack (error : RepackError)

/-- The other programs.  A call may also raise, when the program is missing or takes
too long. -/
structure Tools where
  /-- `lz4 -d`: its output where its exit status is zero. -/
  decode : Bytes → Except RunError (Option Bytes)
  /-- `cpio -idm`: the tree it makes in an empty directory, whatever its exit status. -/
  extract : Bytes → Except RunError (FileSystem Bytes)
  /-- `find . -print0` -/
  find : FileSystem Bytes → Except RunError Bytes
  /-- `cpio -o -H newc --null` -/
  archive : FileSystem Bytes → Bytes → Except RunError Bytes
  /-- `lz4 -l -9 --force`: what it has put into its output file, if anything. -/
  pack : Bytes → Except RunError (Option Bytes)

/-- The order in which the directories of the three walks are read, and that of the
set of the template's binaries. -/
structure Readings where
  template : List Location
  merged : List Location
  pruned : List Location
  bins : List (List Name)

/-- The tree below a directory. -/
def subtreeAt {φ : Type} (fs : FileSystem φ) (location : Location) :
    Except OsError (FileSystem φ) :=
  match inside : fs.node location with
  | some .directory => .ok {
      node := fun inner => fs.node (inner ++ location)
      root := inside
      parents := fun name inner present => fs.parents name (inner ++ location) present }
  | some _ => .error .notDirectory
  | none => .error .noEntry

/-- `open(path, 'rb').read()` -/
def readFile {φ : Type} (fs : FileSystem φ) (start : Location) (path : PurePath) :
    Except OsError φ :=
  match fs.stat true start path with
  | .error error => .error error
  | .ok (.file data) => .ok data
  | .ok _ => .error .isDirectory

/-- The archive's tree in the new and empty directory `/tmp/dest`. -/
def extractInto (fs tree : FileSystem Bytes) (dest : Name) : Except OsError (FileSystem Bytes) :=
  match inside : fs.node tmp with
  | some .directory => .ok (fs.graft tree [] dest tmp inside)
  | _ => .error .notDirectory

/-- What lz4 does to its output file. -/
def lz4Writes (fs : FileSystem Bytes) : Option Bytes → FileSystem Bytes
  | none => fs
  | some bytes =>
      match writeFile fs tmp (.ofNames [packedName]) bytes with
      | .ok after => after
      | .error _ => fs

section

variable (tools : Tools)

def uz (fs : FileSystem Bytes) (data : Bytes) (dest : Name) : Except RunError (FileSystem Bytes) := do
  let fs ← (removeTree fs tmp (.ofNames [dest])).mapError .os
  let fs ← (makedirs false fs tmp (.ofNames [dest])).mapError .os
  let decoded ← tools.decode data
  match decoded with
  | none => pure fs
  | some cpio => do
      let tree ← tools.extract cpio
      (extractInto fs tree dest).mapError .os

/-- The archive of the new tree. -/
def archiveF1 (fs : FileSystem Bytes) : Except RunError Bytes := do
  let tree ← (subtreeAt fs (f1Dir tmp)).mapError .os
  let names ← tools.find tree
  tools.archive tree names

def pk (fs : FileSystem Bytes) : Except RunError Bytes := do
  let cpio ← archiveF1 tools fs
  let packed ← tools.pack cpio
  (readFile (lz4Writes fs packed) tmp (.ofNames [packedName])).mapError .os

/-- `img['frags'][1]['payload']` -/
def secondPayload (img : Image) : Except RunError Bytes :=
  match img.frags with
  | _ :: f1 :: _ => .ok f1.payload
  | _ => .error (.repack .indexError)

/-- The template, its F1 and the F1 of the CI image. -/
def inputs (template ci : Bytes) : Except RunError (Image × Bytes × Bytes) := do
  let tpl ← (rd template).mapError .read
  let ci ← (rd ci).mapError .read
  let tplF1 ← secondPayload tpl
  let ciF1 ← secondPayload ci
  pure (tpl, tplF1, ciF1)

variable (readings : Readings)

/-- The new tree from the two F1. -/
def mergeTrees (tplF1 ciF1 : Bytes) (fs : FileSystem Bytes) : Except RunError (FileSystem Bytes) := do
  let fs ← uz tools fs ciF1 "ci_dir"
  let fs ← uz tools fs tplF1 "tp_dir"
  (mergeF1 readings.template readings.merged readings.pruned readings.bins fs tmp).mapError .os

/-- `main` up to the packing of the new F1. -/
def mergeImages (template ci : Bytes) (fs : FileSystem Bytes) :
    Except RunError (Image × FileSystem Bytes) := do
  let (tpl, tplF1, ciF1) ← inputs template ci
  let fs ← mergeTrees tools readings tplF1 ciF1 fs
  pure (tpl, fs)

/-- `main`: the image it writes. -/
def main (template ci : Bytes) (fs : FileSystem Bytes) : Except RunError Bytes := do
  let (tpl, fs) ← mergeImages tools readings template ci fs
  let f1New ← pk tools fs
  (repack tpl f1New).mapError .repack

/-- The tree that is extracted from an F1, which is empty where lz4 fails. -/
def unpacked (data : Bytes) : Except RunError (FileSystem Bytes) := do
  let decoded ← tools.decode data
  match decoded with
  | none => pure .empty
  | some cpio => tools.extract cpio

end

section

variable {tools : Tools} {fs : FileSystem Bytes} {data : Bytes} {dest : Name}

/-- A tree lies at a name under `/tmp`, and the rest is as before. -/
structure Planted (dest : Name) (before tree after : FileSystem Bytes) : Prop where
  inside : ∀ inner, after.node (inner ++ dest :: tmp) = tree.node inner
  outside : ∀ place, ¬ dest :: tmp <:+ place → after.node place = before.node place

/-- `uz` leaves the tree of the archive, whatever was there before. -/
theorem uz_planted (inside : fs.node tmp = some .directory)
    (left : fs.node (dest :: tmp) = none ∨ fs.node (dest :: tmp) = some .directory) :
    Matches (Planted dest fs) (unpacked tools data) (uz tools fs data dest) := by
  obtain ⟨cleared, removed, without⟩ := removeTree_entry inside left
  have clearedTmp : cleared.node tmp = some .directory := by
    rw [without, if_neg (not_suffix_tail tmp), inside]
  obtain ⟨made, makes, changed⟩ := makedirs_entry clearedTmp
    (by rw [without, if_pos (List.suffix_refl _)])
  have madeTmp : made.node tmp = some .directory := by
    rw [changed, Function.update_of_ne (List.cons_ne_self dest tmp).symm, clearedTmp]
  have outside (place : Location) (off : ¬ dest :: tmp <:+ place) :
      made.node place = fs.node place := by
    rw [changed, Function.update_of_ne, without, if_neg off]
    exact fun here => off (here ▸ List.suffix_refl _)
  unfold uz unpacked
  rw [removed]
  simp only [Except.mapError]
  change Matches _ _ ((makedirs false cleared tmp (.ofNames [dest])).mapError RunError.os >>= _)
  rw [makes]
  change Matches _ _ (tools.decode data >>= _)
  cases tools.decode data with
  | error error => rfl
  | ok decoded =>
      cases decoded with
      | none =>
          refine ⟨fun inner => ?_, outside⟩
          rw [changed]
          by_cases top : inner = []
          · rw [top, List.nil_append, Function.update_self]
            rfl
          · rw [Function.update_of_ne (by simpa using top), without, if_pos (List.suffix_append _ _)]
            exact (if_neg top).symm
      | some cpio =>
          change Matches _ (tools.extract cpio) (tools.extract cpio >>= _)
          cases tools.extract cpio with
          | error error => rfl
          | ok tree =>
              change Matches _ (.ok tree) ((extractInto made tree dest).mapError RunError.os)
              unfold extractInto
              split
              · rename_i there
                refine ⟨fun inner => ?_, fun place off => ?_⟩
                · change FileSystem.graftNode tree [] (dest :: tmp) made (inner ++ dest :: tmp) = _
                  rw [FileSystem.graftNode, within_append]
                  simp only [List.append_nil]
                · change FileSystem.graftNode tree [] (dest :: tmp) made place = _
                  rw [FileSystem.graftNode, within, if_neg off]
                  exact outside place off
              · rename_i other
                exact absurd madeTmp (other)

theorem subtreeAt_congr {φ : Type} {one other : FileSystem φ} {location : Location}
    (same : ∀ inner, one.node (inner ++ location) = other.node (inner ++ location)) :
    subtreeAt one location = subtreeAt other location := by
  have top := same []
  rw [List.nil_append] at top
  unfold subtreeAt
  split
  · rename_i inside
    rw [top] at inside
    split
    · exact congrArg Except.ok (FileSystem.ext (funext same))
    · rename_i leaf found
      rw [inside] at found
      exact (leaf (Option.some.inj found).symm).elim
    · rename_i absent
      rw [inside] at absent
      cases absent
  · rename_i node leaf found
    rw [top] at found
    split
    · rename_i inside
      rw [inside] at found
      exact (leaf (Option.some.inj found).symm).elim
    · rfl
    · rename_i absent
      rw [absent] at found
      cases found
  · rename_i absent
    rw [top] at absent
    split
    · rename_i inside
      rw [inside] at absent
      cases absent
    · rename_i found
      rw [absent] at found
      cases found
    · rfl

/-- What is read as the packed F1: what lz4 has written, or what was there before. -/
def packedBytes (before : Option (Node Bytes)) : Option Bytes → Except RunError Bytes
  | some bytes => .ok bytes
  | none =>
      match before with
      | some (.file bytes) => .ok bytes
      | _ => .error (.os .noEntry)

theorem readFile_entry {φ : Type} {fs : FileSystem φ} {dir : Location} {name : Name} {data : φ}
    (inside : fs.node dir = some .directory) (found : fs.node (name :: dir) = some (.file data)) :
    readFile fs dir (.ofNames [name]) = .ok data := by
  have located : fs.locate true dir (.ofNames [name]) = .ok (name :: dir) :=
    locate_entry inside (by rw [found]; simp) true
  rw [readFile, FileSystem.stat, located]
  simp only [found]

/-- A failure of lz4 goes unnoticed where an earlier run has left a file. -/
theorem pk_eq (inside : fs.node tmp = some .directory)
    (left : fs.node (packedName :: tmp) = none ∨
      ∃ bytes, fs.node (packedName :: tmp) = some (.file bytes)) :
    pk tools fs = (do
      let cpio ← archiveF1 tools fs
      let packed ← tools.pack cpio
      packedBytes (fs.node (packedName :: tmp)) packed) := by
  have written (bytes : Bytes) : readFile (lz4Writes fs (some bytes)) tmp (.ofNames [packedName]) =
      .ok bytes := by
    obtain ⟨after, writes, changed⟩ := writeFile_entry inside left bytes
    rw [lz4Writes, writes]
    refine readFile_entry ?_ (by rw [changed, Function.update_self])
    rw [changed, Function.update_of_ne (by decide), inside]
  have kept : (readFile fs tmp (.ofNames [packedName])).mapError RunError.os =
      packedBytes (fs.node (packedName :: tmp)) none := by
    rcases left with absent | file
    · rw [readFile, FileSystem.stat, locate_entry inside (by rw [absent]; simp)]
      simp only [absent]
      rfl
    · obtain ⟨bytes, found⟩ := file
      rw [readFile_entry inside found, found]
      rfl
  unfold pk
  refine bind_congr fun cpio => bind_congr fun packed => ?_
  cases packed with
  | none => exact kept
  | some bytes =>
      rw [written]
      rfl

end

end DashTwrp.RepackF1

import DashTwrp.Python.Paths
import DashTwrp.Python.Worked
import DashTwrp.VendorBoot.RepackImage

namespace DashTwrp.VendorBoot

open DashTwrp.Python DashTwrp.Unix

/-! The end of the repack tool: the image is built, written, measured, and the
working files are removed. -/

/-- `/tmp/name` -/
def tmpPath (name : Name) : PurePath := ⟨true, [.name "tmp", .name name]⟩

def workDirs : List Name := ["ci_dir", "tp_dir", "f1_dir"]

def workFile : Name := "f1_new.lz4"

abbrev RepackTool := Program RepackError

section

variable (env : Environment)

def removeWorkDirs : List Name → RepackTool Unit
  | [] => pure ()
  | d :: rest => do
      removeWhenThere env rmtree_removes (tmpPath d)
      removeWorkDirs rest

def cleanup : RepackTool Unit := do
  removeWorkDirs env workDirs
  removeWhenThere env osRemove_removes (tmpPath workFile)

/-- An error of the construction, which has not touched the disk. -/
def built : Except RepackError Bytes → RepackTool Bytes
  | .error error => throw (.tool error)
  | .ok img => pure img

/-- `assert os.path.getsize(args.output) == PART_SZ` -/
def assertSize (size : Nat) : RepackTool Unit :=
  if size = partSize then pure () else throw (.tool .assertionError)

variable (megabytes : Nat → String)

/-- The line `main` prints last; `megabytes` spells a size in MiB with two digits. -/
def sizesLine (f0 f1New : Bytes) : String :=
  "64 MB (F0:" ++ megabytes f0.length ++ "+F1:" ++ megabytes f1New.length ++ ")"

def packedLine (f1New : Bytes) : String := "F1: " ++ megabytes f1New.length ++ " MB LZ4"

def totalLine (f0 f1New : Bytes) : String :=
  "合计: " ++ megabytes (f0.length + f1New.length) ++ " MB"

def buildLine : String := "\n构建 vendor_boot ..."

/-- `main` once the output file is open. -/
def publishImage (f0 f1New img : Bytes) (output : PurePath) (stream : Inode) : RepackTool Unit := do
  writeTo env stream img
  let size ← getSize env output
  assertSize size
  print env ("输出: " ++ pathText output)
  print env (sizesLine megabytes f0 f1New)
  cleanup env

/-- `tpl['frags'][0]['payload']`, where `main` has read `tpl['frags'][1]` as well. -/
def firstFragment (tpl : Image) : RepackTool Bytes :=
  match tpl.frags with
  | f0 :: _ :: _ => pure f0.payload
  | _ => throw (.tool .indexError)

/-- `main` from the packed F1 to the finished image, which is not yet written. -/
def prepareImage (tpl : Image) (f1New : Bytes) : RepackTool (Bytes × Bytes) := do
  print env (packedLine megabytes f1New)
  let f0 ← firstFragment tpl
  print env (totalLine megabytes f0 f1New)
  print env buildLine
  let img ← built (buildImage tpl f0 f1New)
  pure (f0, img)

/-- `main` from the packed F1 on. -/
def writeImage (tpl : Image) (f1New : Bytes) (output : PurePath) : RepackTool Unit := do
  let (f0, img) ← prepareImage env megabytes tpl f1New
  let stream ← openWrite env output
  publishImage env megabytes f0 f1New img output stream

/-- `main`, where `merge` is its part up to the packed F1, which reads the images and works
on the trees under `/tmp`. -/
def mainFrom (merge : RepackTool (Image × Bytes)) (output : PurePath) : RepackTool Unit := do
  let (tpl, f1New) ← merge
  writeImage env megabytes tpl f1New output

/-- However the merge ends, the output's path leads where it did, to the file as it was. -/
def LeavesOutput (merge : RepackTool (Image × Bytes)) (output : PurePath) (start : World) : Prop :=
  ∀ location, start.disk.tree.locate true env.cwd output = .ok location →
    (finalState merge start).disk.tree.locate true env.cwd output = .ok location ∧
      (finalState merge start).disk.fileAt location = start.disk.fileAt location

/-- What the write has put into the file. -/
def leftBytes (img : Bytes) (opened : World) : Bytes :=
  match env.fault opened.clock with
  | some fault => img.take fault.written
  | none => img

/-- No working file lies at or above the output. -/
def OutputApart (tree : FileSystem Inode) (location : Location) : Prop :=
  ∀ name ∈ workFile :: workDirs, ∀ removed,
    tree.locate false env.cwd (tmpPath name) = .ok removed → ¬ removed <:+ location

variable {env megabytes} {f0 f1New img : Bytes} {output : PurePath} {stream : Inode}
  {location : Location}

theorem removeWorkDirs_stays {tree : FileSystem Inode} {bytes : Bytes} {names : List Name}
    (apart : ∀ name ∈ names, ∀ removed,
      tree.locate false env.cwd (tmpPath name) = .ok removed → ¬ removed <:+ location) :
    Maintains (fun world => FileStays tree location bytes world.disk) (removeWorkDirs env names)
      fun _ => True := by
  induction names with
  | nil => exact maintains_pure trivial
  | cons d rest ih =>
      rw [removeWorkDirs]
      refine maintains_bind (removeWhenThere_stays env _ _ (apart d List.mem_cons_self)) fun _ _ => ?_
      exact ih fun name member => apart name (List.mem_cons_of_mem _ member)

theorem assertSize_maintains {invariant : World → Prop} (size : Nat) :
    Maintains invariant (assertSize size) fun _ => True := by
  unfold assertSize
  split
  · exact maintains_pure trivial
  · exact maintains_throw _

/-- However the rest of `main` ends, the output holds what was written to it. -/
theorem publishImage_leaves {opened : World}
    (node : opened.disk.tree.node location = some (.file stream))
    (empty : opened.disk.contents stream = [])
    (apart : OutputApart env opened.disk.tree location) :
    (finalState (publishImage env megabytes f0 f1New img output stream) opened).disk.fileAt location =
      some (leftBytes env img opened) := by
  have written (bytes : Bytes) :
      (opened.disk.append stream bytes).fileAt location = some bytes :=
    Disk.fileAt_eq_some_iff.mpr ⟨stream, node, by rw [Disk.append_contents, empty, List.nil_append]⟩
  unfold publishImage leftBytes
  rw [finalState_bind]
  unfold writeTo
  cases env.fault opened.clock with
  | some fault => exact written _
  | none =>
      have rest : Maintains (fun world => FileStays opened.disk.tree location img world.disk)
          (do
            let size ← getSize env output
            assertSize size
            print env ("输出: " ++ pathText output)
            print env (sizesLine megabytes f0 f1New)
            cleanup env) fun _ => True := by
        unfold cleanup
        refine maintains_bind (getSize_stays env _) fun size _ => ?_
        refine maintains_bind (assertSize_maintains _) fun _ _ => ?_
        refine maintains_bind (print_maintains env _) fun _ _ => ?_
        refine maintains_bind (print_maintains env _) fun _ _ => ?_
        refine maintains_bind (removeWorkDirs_stays fun name member =>
          apart name (List.mem_cons_of_mem _ member)) fun _ _ => ?_
        exact removeWhenThere_stays env _ _ (apart _ List.mem_cons_self)
      refine (rest.finalState ?_).file
      exact ⟨.refl _, written img⟩

/-- What `main` has done when the working files are about to be removed. -/
def publishedWorld (megabytes : Nat → String) (f0 f1New img : Bytes) (output : PurePath)
    (stream : Inode) (opened : World) : World :=
  { opened with
    clock := opened.clock + 4
    disk := opened.disk.append stream img
    printed := opened.printed ++ ["输出: " ++ pathText output, sizesLine megabytes f0 f1New] }

/-- The length of a bytearray of `length` bytes behind the assignment of `size` bytes
to a slice. -/
def assignedSize (length start stop size : Nat) : Nat :=
  min start length + size + (length - max start stop)

/-- The length of the new image, as its writes in turn stretch or shrink the
bytearray, for fragments of the given sizes and a DTB found at `dStart`. -/
def imageSize (tpl : Image) (f0Size f1Size dStart : Nat) : Nat :=
  let ro := align tpl.hs pageSize
  let rsz := f0Size + f1Size
  let tblo := newTblo tpl rsz
  let page := assignedSize partSize 0 pageSize (min pageSize tpl.p0.length)
  let front := assignedSize page 24 28 4
  let fragments := assignedSize (assignedSize front ro (ro + f0Size) f0Size) (ro + f0Size)
    (ro + rsz) f1Size
  let dtb := assignedSize fragments (newDtbo tpl rsz) (newDtbo tpl rsz + tpl.ds)
    (min (dStart + tpl.ds) tpl.raw.length - dStart)
  let first := assignedSize dtb tblo (tblo + tpl.es) (max tpl.es 44)
  assignedSize first (tblo + tpl.es) (tblo + tpl.es + tpl.es) (max tpl.es 44)

theorem length_tableImage_eq (tpl : Image) (f0 f1New : Bytes) (dStart : Nat) :
    (tableImage tpl f0 f1New dStart).length =
      imageSize tpl f0.length f1New.length dStart := by
  have page : (pageImage tpl).length = _ :=
    length_assign (List.replicate partSize 0) 0 pageSize (slice tpl.p0 0 pageSize)
  have front : (sizedImage tpl f0 f1New).length = _ :=
    length_assign (pageImage tpl) 24 28 (le32 (f0.length + f1New.length))
  have f0End : (f0Image tpl f0 f1New).length = _ :=
    length_assign (sizedImage tpl f0 f1New) (align tpl.hs pageSize)
      (align tpl.hs pageSize + f0.length) f0
  have fragments : (fragmentImage tpl f0 f1New).length = _ :=
    length_assign (f0Image tpl f0 f1New) (align tpl.hs pageSize + f0.length)
      (align tpl.hs pageSize + (f0.length + f1New.length)) f1New
  have dtb : (dtbImage tpl f0 f1New dStart).length = _ :=
    length_assign (fragmentImage tpl f0 f1New) (newDtbo tpl (f0.length + f1New.length))
      (newDtbo tpl (f0.length + f1New.length) + tpl.ds) (dtbCopy tpl dStart)
  have entry : (firstEntryImage tpl f0 f1New dStart).length = _ :=
    length_assign (dtbImage tpl f0 f1New dStart) (newTblo tpl (f0.length + f1New.length))
      (newTblo tpl (f0.length + f1New.length) + tpl.es) (entryBytes tpl.es f0.length 0 1)
  have table : (tableImage tpl f0 f1New dStart).length = _ :=
    length_assign (firstEntryImage tpl f0 f1New dStart)
      (newTblo tpl (f0.length + f1New.length) + tpl.es)
      (newTblo tpl (f0.length + f1New.length) + tpl.es + tpl.es)
      (entryBytes tpl.es f1New.length f0.length 2)
  have firstPage : (slice tpl.p0 0 pageSize).length = min pageSize tpl.p0.length :=
    length_slice tpl.p0 0 pageSize
  rw [table, entry, dtb, fragments, f0End, front, page, firstPage, List.length_replicate,
    length_le32, length_dtbCopy, length_entryBytes, length_entryBytes]
  rfl

/-- The writes end at the size of the partition, nothing fails, and the working files
can be removed. -/
structure Finishes (env : Environment) (megabytes : Nat → String) (tpl : Image)
    (f0 f1New img : Bytes) (output : PurePath) (stream : Inode) (opened : World) : Prop where
  size : ∀ dStart, findDtb tpl = some dStart →
    imageSize tpl f0.length f1New.length dStart = partSize
  quiet : Undisturbed env opened.clock 4
  cleaned : ∃ cleaned, cleanup env
    (publishedWorld megabytes f0 f1New img output stream opened) = .ok () cleaned

theorem assertSize_eq_ok_iff {size : Nat} {before after : World} {result : Unit} :
    assertSize size before = .ok result after ↔ size = partSize ∧ after = before := by
  unfold assertSize
  split
  · rename_i sized
    exact pure_eq_ok_iff.trans (by simp [sized])
  · rename_i other
    exact iff_of_false (fun returned => nomatch returned) fun found => other found.1

theorem publishImage_returns_iff {opened : World}
    (reads : (opened.disk.append stream img).readBytes env.cwd output = .ok img) :
    (∃ result after, publishImage env megabytes f0 f1New img output stream opened =
      .ok result after) ↔
      img.length = partSize ∧ Undisturbed env opened.clock 4 ∧ ∃ cleaned, cleanup env
        (publishedWorld megabytes f0 f1New img output stream opened) = .ok () cleaned := by
  unfold publishImage
  simp only [bind_eq_ok_iff, writeTo_eq_ok_iff, getSize_eq_ok_iff, assertSize_eq_ok_iff,
    print_eq_ok_iff]
  simp only [exists_and_left, and_assoc, exists_eq_left, exists_const, reads, Except.ok.injEq,
    exists_eq_left', List.append_assoc, List.cons_append, List.nil_append]
  refine ⟨fun found => ?_, fun finishes => ?_⟩
  · obtain ⟨first, second, size, third, fourth, _, cleaned, cleans⟩ := found
    refine ⟨size, ?_, cleaned, cleans⟩
    simp only [undisturbed_succ, undisturbed_zero, and_true]
    exact ⟨first, second, third, fourth⟩
  · obtain ⟨size, quiet, cleaned, cleans⟩ := finishes
    simp only [undisturbed_succ, undisturbed_zero, and_true] at quiet
    obtain ⟨first, second, third, fourth⟩ := quiet
    exact ⟨first, second, size, third, fourth, (), cleaned, cleans⟩

/-- What `main` has done when the output is about to be opened. -/
def announcedWorld (megabytes : Nat → String) (f0 f1New : Bytes) (before : World) : World :=
  { before with
    clock := before.clock + 3
    printed := before.printed ++
      [packedLine megabytes f1New, totalLine megabytes f0 f1New, buildLine] }

/-- `main` comes to write an image to the output. -/
structure Opens (env : Environment) (megabytes : Nat → String) (tpl : Image) (f1New : Bytes)
    (output : PurePath) (before : World) (f0 img : Bytes) (stream : Inode) (opened : World)
    (location : Location) : Prop where
  first : ∃ first second rest, tpl.frags = first :: second :: rest ∧ first.payload = f0
  image : buildImage tpl f0 f1New = .ok img
  quiet : Undisturbed env before.clock 3
  opened : (openWrite env output : RepackTool Inode)
    (announcedWorld megabytes f0 f1New before) = .ok stream opened
  located : before.disk.tree.locate true env.cwd output = .ok location

/-- A failed run leaves the file at the output's place as it was. -/
def KeepsOutput (env : Environment) (megabytes : Nat → String) (tpl : Image) (f1New : Bytes)
    (output : PurePath) (before : World) : Prop :=
  ∀ error after, writeImage env megabytes tpl f1New output before = .error error after →
    ∀ location, before.disk.tree.locate true env.cwd output = .ok location →
      after.disk.fileAt location = before.disk.fileAt location

variable {tpl : Image} {before opened : World}

theorem Opens.there
    (opens : Opens env megabytes tpl f1New output before f0 img stream opened location) :
    opened.disk.tree.node location = some (.file stream) ∧ opened.disk.contents stream = [] ∧
      (opened.disk.append stream img).readBytes env.cwd output = .ok img := by
  obtain ⟨-, disk, made, rfl⟩ := (onDisk_eq_ok_iff env).mp opens.opened
  obtain ⟨place, located, after, node, empty⟩ := Disk.openWrite_eq_ok made
  have same : location = place := Except.ok.inj (opens.located.symm.trans located)
  subst same
  refine ⟨node, empty, ?_⟩
  have stat : (disk.append stream img).tree.stat true env.cwd output = .ok (.file stream) :=
    FileSystem.stat_eq_ok_iff.mpr ⟨location, after, node⟩
  rw [Disk.readBytes, stat]
  simp only [Disk.append_contents, empty, List.nil_append]

/-- The size that the assertion reads follows from the sizes of the sections. -/
theorem Opens.length_img
    (opens : Opens env megabytes tpl f1New output before f0 img stream opened location) :
    img.length = partSize ↔ ∀ dStart, findDtb tpl = some dStart →
      imageSize tpl f0.length f1New.length dStart = partSize := by
  obtain ⟨-, -, dStart, found, rfl⟩ := buildImage_eq_ok_iff.mp opens.image
  rw [length_tableImage_eq]
  refine ⟨fun size other same => ?_, fun size => size dStart found⟩
  rw [found] at same
  cases same
  exact size

theorem Opens.returns_iff
    (opens : Opens env megabytes tpl f1New output before f0 img stream opened location) :
    (∃ result after, publishImage env megabytes f0 f1New img output stream opened =
      .ok result after) ↔ Finishes env megabytes tpl f0 f1New img output stream opened := by
  rw [publishImage_returns_iff opens.there.2.2, opens.length_img]
  exact ⟨fun found => ⟨found.1, found.2.1, found.2.2⟩,
    fun finishes => ⟨finishes.size, finishes.quiet, finishes.cleaned⟩⟩

theorem built_eq_ok_iff {result : Except RepackError Bytes} {after : World} :
    built result before = .ok img after ↔ result = .ok img ∧ after = before := by
  cases result with
  | error error => exact iff_of_false (fun returned => nomatch returned) fun found => nomatch found.1
  | ok bytes => exact pure_eq_ok_iff.trans (by simp [eq_comm])

theorem firstFragment_eq_ok_iff {after : World} :
    firstFragment tpl before = .ok f0 after ↔
      (∃ first second rest, tpl.frags = first :: second :: rest ∧ first.payload = f0) ∧
        after = before := by
  unfold firstFragment
  cases frags : tpl.frags with
  | nil => exact iff_of_false (fun returned => nomatch returned) (by simp)
  | cons first others =>
      cases others with
      | nil => exact iff_of_false (fun returned => nomatch returned) (by simp)
      | cons second rest => exact pure_eq_ok_iff.trans (by simp [eq_comm])

theorem prepareImage_eq_ok_iff {after : World} :
    prepareImage env megabytes tpl f1New before = .ok (f0, img) after ↔
      (∃ first second rest, tpl.frags = first :: second :: rest ∧ first.payload = f0) ∧
        buildImage tpl f0 f1New = .ok img ∧ Undisturbed env before.clock 3 ∧
        after = announcedWorld megabytes f0 f1New before := by
  unfold prepareImage
  simp only [bind_eq_ok_iff, print_eq_ok_iff, firstFragment_eq_ok_iff, built_eq_ok_iff,
    pure_eq_ok_iff, Prod.mk.injEq, undisturbed_succ, undisturbed_zero, and_true]
  refine ⟨fun found => ?_, fun found => ?_⟩
  · obtain ⟨_, _, ⟨first, rfl⟩, _, _, ⟨fragments, rfl⟩, _, _, ⟨second, rfl⟩, _, _, ⟨third, rfl⟩,
      _, _, ⟨image, rfl⟩, ⟨rfl, rfl⟩, rfl⟩ := found
    refine ⟨fragments, image, ⟨first, second, third⟩, ?_⟩
    simp [announcedWorld]
  · obtain ⟨fragments, image, ⟨first, second, third⟩, rfl⟩ := found
    refine ⟨(), _, ⟨first, rfl⟩, f0, _, ⟨fragments, rfl⟩, (), _, ⟨second, rfl⟩, (), _,
      ⟨third, rfl⟩, img, _, ⟨image, rfl⟩, ⟨rfl, rfl⟩, ?_⟩
    simp [announcedWorld]

theorem firstFragment_maintains {invariant : World → Prop} :
    Maintains invariant (firstFragment tpl) fun _ => True := by
  unfold firstFragment
  split
  · exact maintains_pure trivial
  · exact maintains_throw _

theorem built_maintains {invariant : World → Prop} (result : Except RepackError Bytes) :
    Maintains invariant (built result) fun _ => True := by
  cases result with
  | error error => exact maintains_throw _
  | ok img => exact maintains_pure trivial

/-- Up to the finished image the disk is as it was. -/
theorem prepareImage_maintains {invariant : Disk → Prop} :
    Maintains (fun world => invariant world.disk) (prepareImage env megabytes tpl f1New)
      fun _ => True := by
  unfold prepareImage
  refine maintains_bind (print_maintains env _) fun _ _ => ?_
  refine maintains_bind firstFragment_maintains fun f0 _ => ?_
  refine maintains_bind (print_maintains env _) fun _ _ => ?_
  refine maintains_bind (print_maintains env _) fun _ _ => ?_
  exact maintains_bind (built_maintains _) fun img _ => maintains_pure trivial

theorem Opens.run
    (opens : Opens env megabytes tpl f1New output before f0 img stream opened location) :
    writeImage env megabytes tpl f1New output before =
      publishImage env megabytes f0 f1New img output stream opened := by
  have prepared : prepareImage env megabytes tpl f1New before =
      .ok (f0, img) (announcedWorld megabytes f0 f1New before) :=
    prepareImage_eq_ok_iff.mpr ⟨opens.first, opens.image, opens.quiet, rfl⟩
  unfold writeImage
  rw [bind_of_eq_ok prepared]
  exact bind_of_eq_ok opens.opened

/-- A run that does not open its output leaves the disk alone. -/
theorem writeImage_opens (located : before.disk.tree.locate true env.cwd output = .ok location) :
    (∃ error after, writeImage env megabytes tpl f1New output before = .error error after ∧
      after.disk = before.disk) ∨
    ∃ f0 img stream opened,
      Opens env megabytes tpl f1New output before f0 img stream opened location := by
  unfold writeImage
  cases preparing : prepareImage env megabytes tpl f1New before with
  | error error after =>
      have same : before.disk = (finalState (prepareImage env megabytes tpl f1New) before).disk :=
        Maintains.finalState prepareImage_maintains rfl
      rw [finalState, preparing] at same
      exact .inl ⟨error, after, bind_eq_error_iff.mpr (.inl preparing), same.symm⟩
  | ok prepared announced =>
      obtain ⟨fragments, image, quiet, rfl⟩ := prepareImage_eq_ok_iff.mp preparing
      rw [bind_of_eq_ok preparing]
      cases opening : (openWrite env output : RepackTool Inode)
          (announcedWorld megabytes prepared.1 f1New before) with
      | error error after =>
          have unchanged : after.disk = (announcedWorld megabytes prepared.1 f1New before).disk :=
            onDisk_eq_error env opening
          exact .inl ⟨error, after, bind_eq_error_iff.mpr (.inl opening), unchanged⟩
      | ok stream opened =>
          exact .inr ⟨prepared.1, prepared.2, stream, opened,
            ⟨fragments, image, quiet, opening, located⟩⟩

/-- What a failed run has come to. -/
theorem writeImage_fails {error : Exception RepackError} {after : World}
    (failed : writeImage env megabytes tpl f1New output before = .error error after)
    (located : before.disk.tree.locate true env.cwd output = .ok location) :
    after.disk = before.disk ∨ ∃ f0 img stream opened,
      Opens env megabytes tpl f1New output before f0 img stream opened location ∧
        publishImage env megabytes f0 f1New img output stream opened = .error error after := by
  rcases writeImage_opens located with early | late
  · obtain ⟨_, _, same, unchanged⟩ := early
    rw [failed] at same
    cases same
    exact .inl unchanged
  · obtain ⟨f0, img, stream, opened, opens⟩ := late
    exact .inr ⟨f0, img, stream, opened, opens, by rw [← opens.run, failed]⟩

/-- Behind an opened output a failed run has left what was written to it. -/
theorem Opens.leaves
    (opens : Opens env megabytes tpl f1New output before f0 img stream opened location)
    (apart : OutputApart env opened.disk.tree location) {error : Exception RepackError}
    {after : World}
    (failed : publishImage env megabytes f0 f1New img output stream opened = .error error after) :
    after.disk.fileAt location = some (leftBytes env img opened) := by
  obtain ⟨node, empty, -⟩ := opens.there
  have left : (finalState (publishImage env megabytes f0 f1New img output stream)
      opened).disk.fileAt location = _ := publishImage_leaves node empty apart
  rwa [finalState, failed] at left

theorem Opens.not_failed
    (opens : Opens env megabytes tpl f1New output before f0 img stream opened location)
    (finishes : Finishes env megabytes tpl f0 f1New img output stream opened)
    {error : Exception RepackError} {after : World} :
    publishImage env megabytes f0 f1New img output stream opened ≠ .error error after := by
  intro failed
  obtain ⟨result, last, returned⟩ := opens.returns_iff.mpr finishes
  rw [failed] at returned
  cases returned

/-- On a template with entries of 108 bytes and a whole first page the size is right
exactly when the sections end inside the partition and the DTB is whole. -/
theorem imageSize_eq_iff {raw : Bytes} {dStart : Nat} {first second : Fragment}
    {rest : List Fragment} (read : rd raw = .ok tpl) (frags : tpl.frags = first :: second :: rest)
    (page : tpl.p0.length = pageSize) (sized : tpl.es = 108) (found : findDtb tpl = some dStart) :
    imageSize tpl first.payload.length f1New.length dStart = partSize ↔
      newTblo tpl (first.payload.length + f1New.length) + 2 * 108 ≤ partSize ∧
        dStart + tpl.ds ≤ tpl.raw.length := by
  rw [← length_tableImage_eq]
  exact length_tableImage_eq_iff read frags page sized found

/-- The output of a failed run is what it was, exactly when behind its opening
every step succeeds or the file held what is written to it; that all succeeds is
enough where a working file lies at or above the output, too. -/
theorem writeImage_keeps_output_iff (env : Environment) (megabytes : Nat → String) (tpl : Image)
    (f1New : Bytes) (output : PurePath) (before : World) :
    ((∀ f0 img stream opened location,
        Opens env megabytes tpl f1New output before f0 img stream opened location →
        Finishes env megabytes tpl f0 f1New img output stream opened) →
      KeepsOutput env megabytes tpl f1New output before) ∧
    ((∀ f0 img stream opened location,
        Opens env megabytes tpl f1New output before f0 img stream opened location →
        OutputApart env opened.disk.tree location) →
      (KeepsOutput env megabytes tpl f1New output before ↔
        ∀ f0 img stream opened location,
          Opens env megabytes tpl f1New output before f0 img stream opened location →
            Finishes env megabytes tpl f0 f1New img output stream opened ∨
              before.disk.fileAt location = some (leftBytes env img opened))) := by
  refine ⟨fun finishes => ?_, fun apart => ⟨fun keeps => ?_, fun sound => ?_⟩⟩
  · intro error after failed location located
    rcases writeImage_fails failed located with unchanged | late
    · rw [unchanged]
    · obtain ⟨f0, img, stream, opened, opens, failed⟩ := late
      exact absurd failed (opens.not_failed (finishes _ _ _ _ _ opens))
  · intro f0 img stream opened location opens
    cases ran : publishImage env megabytes f0 f1New img output stream opened with
    | ok result after =>
        exact .inl (opens.returns_iff.mp ⟨result, after, ran⟩)
    | error error after =>
        right
        rw [← keeps error after (by rw [opens.run, ran]) location opens.located]
        exact opens.leaves (apart _ _ _ _ _ opens) ran
  · intro error after failed location located
    rcases writeImage_fails failed located with unchanged | late
    · rw [unchanged]
    · obtain ⟨f0, img, stream, opened, opens, failed⟩ := late
      rcases sound _ _ _ _ _ opens with finishes | held
      · exact absurd failed (opens.not_failed finishes)
      · rw [held]
        exact opens.leaves (apart _ _ _ _ _ opens) failed

/-- A failed run of `main` leaves the file at the output's place as it was. -/
def MainKeepsOutput (env : Environment) (megabytes : Nat → String)
    (merge : RepackTool (Image × Bytes)) (output : PurePath) (start : World) : Prop :=
  ∀ error after, mainFrom env megabytes merge output start = .error error after →
    ∀ location, start.disk.tree.locate true env.cwd output = .ok location →
      after.disk.fileAt location = start.disk.fileAt location

section

variable {merge : RepackTool (Image × Bytes)} {start : World}

/-- A merge whose operations are made at places that the output's path leads past. -/
theorem leavesOutput_of_work {places : List Location}
    (works : WorkRun env.cwd places start.disk (finalState merge start).disk)
    (apart : ∀ location, start.disk.tree.locate true env.cwd output = .ok location →
      LeadsPast env.cwd places output start.disk location) :
    LeavesOutput env merge output start :=
  fun location located => works.keptElsewhere.leadsPast (apart location located)

/-- Behind a merge that leaves the output alone only the rest of `main` counts. -/
theorem mainKeepsOutput_iff (leaves : LeavesOutput env merge output start)
    (merged : merge start = .ok (tpl, f1New) before)
    (somewhere : ∃ location, start.disk.tree.locate true env.cwd output = .ok location) :
    MainKeepsOutput env megabytes merge output start ↔
      KeepsOutput env megabytes tpl f1New output before := by
  obtain ⟨location, located⟩ := somewhere
  have final : finalState merge start = before := by rw [finalState, merged]
  obtain ⟨beforeLocated, same⟩ := leaves location located
  rw [final] at beforeLocated same
  have run : mainFrom env megabytes merge output start =
      writeImage env megabytes tpl f1New output before := by
    unfold mainFrom
    rw [bind_of_eq_ok merged]
  constructor
  · intro keeps error after failed place placeLocated
    rw [beforeLocated] at placeLocated
    cases placeLocated
    have ended := run.trans failed
    rw [keeps error after ended location located, same]
  · intro keeps error after failed place placeLocated
    rw [located] at placeLocated
    cases placeLocated
    have ended := run.symm.trans failed
    rw [keeps error after ended location beforeLocated, same]

end

end

/-- A root without entries, and a host on which nothing fails. -/
def bareWorld : World where
  disk := {
    tree := FileSystem.empty
    contents := fun _ => []
    next := 0
    used := by
      intro location inode found
      simp only [FileSystem.empty] at found
      split at found <;> cases found }
  clock := 0
  calls := []
  printed := []

def quietHost : Environment where
  cwd := []
  process := fun _ _ => .error .noEntry
  fault := fun _ => none
  links := 0

def outPath : PurePath := ⟨true, [.name "out.img"]⟩

/-- A merge that makes the directory of the new F1 and packs what is given. -/
def packedMerge (f1New : Bytes) : RepackTool (Image × Bytes) := do
  makeDirectory quietHost ⟨true, [.name "tmp"]⟩
  makeDirectory quietHost (tmpPath "f1_dir")
  pure (oneEntryLayout.image, f1New)

/-- The bare host with the two directories. -/
def mergedWorld : World := finalState (packedMerge []) bareWorld

theorem packedMerge_returns (f1New : Bytes) :
    packedMerge f1New bareWorld = .ok (oneEntryLayout.image, f1New) mergedWorld := rfl

/-- Where the two directories are made. -/
def mergePlaces : List Location := [["tmp"], ["f1_dir", "tmp"]]

theorem packedMerge_works (f1New : Bytes) :
    WorkRun [] mergePlaces bareWorld.disk (finalState (packedMerge f1New) bareWorld).disk := by
  have first : bareWorld.disk.tree.locate false [] ⟨true, [.name "tmp"]⟩ = .ok ["tmp"] := rfl
  refine .step (workStep_makeDirectory first rfl) (by decide) ?_
  refine .step (workStep_makeDirectory (show FileSystem.locate _ false [] (tmpPath "f1_dir") =
    .ok ["f1_dir", "tmp"] from rfl) rfl) (by decide) ?_
  exact .done _

/-- The path of the output leads past the two directories. -/
theorem outPath_leadsPast : LeadsPast [] mergePlaces outPath bareWorld.disk ["out.img"] where
  outside := by decide
  located := by
    refine ⟨bareWorld.disk.tree, ⟨fun inner worked => ?_, fun _ _ => rfl⟩, rfl⟩
    obtain ⟨root, member, below⟩ := worked
    have inside : inner ≠ [] := by
      rintro rfl
      rw [List.suffix_nil.mp below] at member
      revert member
      decide
    exact if_neg inside
  file := fun _ found => nomatch found

theorem mainFrom_packedMerge (f1New : Bytes) :
    mainFrom quietHost (fun _ => "") (packedMerge f1New) outPath bareWorld =
      writeImage quietHost (fun _ => "") oneEntryLayout.image f1New outPath mergedWorld :=
  bind_of_eq_ok (packedMerge_returns f1New)

end DashTwrp.VendorBoot

import DashTwrp.Python.Text
import DashTwrp.Unix.Unlinked
import DashTwrp.Unix.Programs

namespace DashTwrp.Python

open DashTwrp.Unix

/-! File operations of `os` and `shutil` on a tree.

A path comes with the directory in which its first component is looked up.
Modes and times are not part of a node, so `copy2` is `copyfile` here. -/

variable {φ : Type}

/-- `os.remove(path)` -/
def osRemove (fs : FileSystem φ) (start : Location) (path : PurePath) :
    Except OsError (FileSystem φ) :=
  match fs.locate false start path with
  | .error error => .error error
  | .ok location =>
      match fs.node location with
      | none => .error .noEntry
      | some .directory => .error .isDirectory
      | some _ =>
          if inner : location ≠ [] then .ok (fs.removeBelow location inner) else .error .isDirectory

/-- `shutil.rmtree(path)`, which refuses a link. -/
def rmtree (fs : FileSystem φ) (start : Location) (path : PurePath) :
    Except OsError (FileSystem φ) :=
  match fs.locate false start path with
  | .error error => .error error
  | .ok location =>
      match fs.node location with
      | none => .error .noEntry
      | some .directory =>
          if inner : location ≠ [] then .ok (fs.removeBelow location inner) else .error (.other 16)
      | some _ => .error .notDirectory

/-- `os.mkdir(path)`, after which `os.makedirs` looks whether the directory is there. -/
def mkdir (existOk : Bool) (fs : FileSystem φ) (start : Location) (path : PurePath) :
    Except OsError (FileSystem φ) :=
  match fs.makeNode .directory start path with
  | .ok (after, _) => .ok after
  | .error error => if existOk ∧ fs.isDir start path then .ok fs else .error error

/-- `except FileExistsError: pass` -/
def ignoreFileExists (fs : FileSystem φ) :
    Except OsError (FileSystem φ) → Except OsError (FileSystem φ)
  | .error .fileExists => .ok fs
  | result => result

/-- `os.makedirs`, by the components of the path, the last one first. -/
def makedirsFrom (existOk : Bool) (fs : FileSystem φ) (start : Location) (absolute : Bool) :
    List Step → Except OsError (FileSystem φ)
  | [] => .error .noEntry
  | last :: outer =>
      let above :=
        if outer = [] ∨ fs.pathExists start { absolute, steps := outer.reverse } then .ok fs
        else ignoreFileExists fs (makedirsFrom existOk fs start absolute outer)
      above >>= fun made => mkdir existOk made start { absolute, steps := (last :: outer).reverse }

def makedirs (existOk : Bool) (fs : FileSystem φ) (start : Location) (path : PurePath) :
    Except OsError (FileSystem φ) :=
  makedirsFrom existOk fs start path.absolute path.steps.reverse

/-- `open(path, "wb").write(data)` -/
def writeFile (fs : FileSystem φ) (start : Location) (path : PurePath) (data : φ) :
    Except OsError (FileSystem φ) :=
  match fs.locate true start path with
  | .error error => .error error
  | .ok location =>
      match found : fs.node location with
      | some (.file old) => .ok (fs.setFile location data ⟨old, found⟩)
      | some .directory => .error .isDirectory
      | some (.link _) => .error .loop
      | none => fs.createAt (.file data) location

/-- `os.path.samefile(first, second)`, and `False` when one does not exist. -/
def sameFile (fs : FileSystem φ) (firstStart : Location) (first : PurePath)
    (secondStart : Location) (second : PurePath) : Bool :=
  match fs.locate true firstStart first, fs.locate true secondStart second with
  | .ok one, .ok other => one = other ∧ (fs.node one).isSome
  | _, _ => false

/-- `shutil.copyfile(source, target, follow_symlinks=follow)` -/
def copyFile (follow : Bool) (fs : FileSystem φ) (sourceStart : Location) (source : PurePath)
    (targetStart : Location) (target : PurePath) : Except OsError (FileSystem φ) :=
  if sameFile fs sourceStart source targetStart target then .error (.other 0)
  else
    match follow, fs.stat false sourceStart source with
    | false, .ok (.link linked) => Prod.fst <$> fs.makeNode (.link linked) targetStart target
    | _, _ =>
        match fs.stat true sourceStart source with
        | .error error => .error error
        | .ok (.file data) => writeFile fs targetStart target data
        | .ok _ => .error .isDirectory

/-- `shutil.copy2(source, target, follow_symlinks=follow)` -/
def copy2 (follow : Bool) (fs : FileSystem φ) (sourceStart : Location) (source : PurePath)
    (targetStart : Location) (target : PurePath) : Except OsError (FileSystem φ) :=
  if fs.isDir targetStart target then
    copyFile follow fs sourceStart source targetStart
      { target with steps := target.steps ++ source.steps.getLast?.toList }
  else copyFile follow fs sourceStart source targetStart target

/-- `shutil.copytree(source, target, symlinks=True)`, for a target that is not
inside the source. -/
def copytree (fs : FileSystem φ) (sourceStart : Location) (source : PurePath)
    (targetStart : Location) (target : PurePath) : Except OsError (FileSystem φ) :=
  match fs.locate true sourceStart source with
  | .error error => .error error
  | .ok from_ => do
      match fs.node from_ with
      | some .directory =>
          let made ← makedirs false fs targetStart target
          match made.locate true targetStart target with
          | .ok (name :: parent) =>
              match inside : made.node parent with
              | some .directory => pure (made.graft fs from_ name parent inside)
              | _ => .error .notDirectory
          | _ => .error .fileExists
      | some _ => .error .notDirectory
      | none => .error .noEntry

/-- `open(path).read()`, with the caller's errors. -/
def readTextFile {ε : Type} (osError : OsError → ε) (decodeError : ε) (fs : FileSystem Bytes)
    (start : Location) (path : PurePath) : Except ε (List Char) :=
  match fs.stat true start path with
  | .error error => .error (osError error)
  | .ok (.file raw) =>
      match decodeText raw with
      | some text => .ok text
      | none => .error decodeError
  | .ok _ => .error (osError .isDirectory)

/-! ### Along paths without links -/

/-- A subtree is gone, and the rest is as before. -/
def Without (location : Location) (before after : FileSystem φ) : Prop :=
  ∀ other, after.node other = if location <:+ other then none else before.node other

theorem without_removeBelow (fs : FileSystem φ) {location : Location} (inner : location ≠ []) :
    Without location fs (fs.removeBelow location inner) := fun _ => rfl

theorem Without.noNewLinks {location : Location} {before after : FileSystem φ}
    (without : Without location before after) : NoNewLinks before after := by
  intro other target found
  rw [without other] at found
  split at found
  · cases found
  · exact found

/-- Removing what is not there changes nothing. -/
theorem without_of_absent {location : Location} {fs : FileSystem φ}
    (absent : fs.node location = none) : Without location fs fs := by
  intro other
  split
  · rename_i below
    obtain ⟨inner, rfl⟩ := below
    by_cases here : inner = []
    · rw [here]
      exact absent
    · exact fs.none_below inner here (by rw [absent]; simp)
  · rfl

/-- A node is put at a location, and the rest is as before. -/
theorem noNewLinks_update {before after : FileSystem φ} {location : Location} {node : Node φ}
    (same : after.node = Function.update before.node location (some node))
    (plain : ∀ target, node ≠ .link target) : NoNewLinks before after := by
  intro other target found
  rw [same] at found
  by_cases here : other = location
  · rw [here, Function.update_self, Option.some.injEq] at found
    exact absurd found (plain target)
  · rwa [Function.update_of_ne here] at found

section

variable {fs : FileSystem φ} {start : Location} {names : List Name}

theorem osRemove_file (unlinked : Unlinked fs start names) {data : φ}
    (found : fs.node (place start names) = some (.file data)) :
    ∃ after, osRemove fs start (.ofNames names) = .ok after ∧
      Without (place start names) fs after := by
  have inner : place start names ≠ [] := by
    intro top
    rw [top, fs.root] at found
    cases found
  refine ⟨_, ?_, without_removeBelow fs inner⟩
  rw [osRemove, unlinked.locate_present (by rw [found]; simp)]
  simp only [found, dif_pos inner]

theorem rmtree_directory (unlinked : Unlinked fs start names) (nonempty : names ≠ [])
    (found : fs.node (place start names) = some .directory) :
    ∃ after, rmtree fs start (.ofNames names) = .ok after ∧
      Without (place start names) fs after := by
  have inner : place start names ≠ [] := by simp [place, nonempty]
  refine ⟨_, ?_, without_removeBelow fs inner⟩
  rw [rmtree, unlinked.locate_present (by rw [found]; simp)]
  simp only [found, dif_pos inner]

/-- The directories on a path exist, and the rest is as before. -/
structure WithDirectories (start : Location) (names : List Name) (before after : FileSystem φ) :
    Prop where
  directory : ∀ front, front ≠ [] → front <+: names →
    after.node (place start front) = some .directory
  same : ∀ other, (∀ front, front ≠ [] → front <+: names → other ≠ place start front) →
    after.node other = before.node other

theorem WithDirectories.noNewLinks {before after : FileSystem φ}
    (made : WithDirectories start names before after) : NoNewLinks before after := by
  intro other target found
  by_cases onPath : ∃ front, front ≠ [] ∧ front <+: names ∧ other = place start front
  · obtain ⟨front, nonempty, inside, rfl⟩ := onPath
    rw [made.directory front nonempty inside] at found
    cases found
  · rw [← made.same other fun front nonempty inside same =>
      onPath ⟨front, nonempty, inside, same⟩]
    exact found

/-- Above a directory all are directories. -/
theorem directories_above (found : fs.node (place start names) = some .directory)
    {front : List Name} (inside : front <+: names) :
    fs.node (place start front) = some .directory := by
  obtain ⟨back, rfl⟩ := inside
  by_cases last : back = []
  · rw [last, List.append_nil] at found
    exact found
  · rw [place_append, place] at found
    exact fs.directory_above back.reverse (by simpa using last) (by rw [found]; simp)

/-- Nothing changes where the directories exist. -/
theorem withDirectories_self (found : fs.node (place start names) = some .directory) :
    WithDirectories start names fs fs where
  directory := fun _ _ inside => directories_above found inside
  same := fun _ _ => rfl

theorem makeNode_unlinked {node : Node φ} {after : FileSystem φ} {location : Location}
    (unlinked : Unlinked fs start names)
    (made : fs.makeNode node start (.ofNames names) = .ok (after, location)) :
    fs.node (place start names) = none ∧
      after.node = Function.update fs.node (place start names) (some node) := by
  obtain ⟨located, created⟩ := FileSystem.makeNode_eq_ok made
  rw [unlinked.locate_ends located] at created
  exact FileSystem.createAt_eq_ok created

/-- The directory is new in the one above it, or it is there already. -/
theorem mkdir_ok {existOk : Bool} {after : FileSystem φ} {front : List Name} {last : Name}
    (unlinked : Unlinked fs start (front ++ [last]))
    (made : mkdir existOk fs start (.ofNames (front ++ [last])) = .ok after) :
    fs.node (place start front) = some .directory ∧
      after.node = Function.update fs.node (last :: place start front) (some .directory) := by
  unfold mkdir at made
  split at made
  · rename_i result location created
    cases made
    obtain ⟨free, same⟩ := makeNode_unlinked unlinked created
    rw [place_concat] at same
    refine ⟨?_, same⟩
    have parent := after.parents last (place start front) (by rw [same, Function.update_self]; simp)
    rwa [same, Function.update_of_ne (List.cons_ne_self last _).symm] at parent
  · split at made
    · rename_i there
      cases made
      have found := unlinked.isDir_iff.mp there.2
      rw [place_concat] at found
      refine ⟨fs.parents last _ (by rw [found]; simp), ?_⟩
      rw [← found, Function.update_eq_self]
    · cases made

theorem ofNames_reverse (reversed : List Name) :
    PurePath.ofNames reversed.reverse =
      { absolute := false, steps := (reversed.map .name).reverse } := by
  simp [PurePath.ofNames]

theorem makedirsFrom_ok {existOk : Bool} {after : FileSystem φ} (reversed : List Name)
    (unlinked : Unlinked fs start reversed.reverse)
    (made : makedirsFrom existOk fs start false (reversed.map .name) = .ok after) :
    WithDirectories start reversed.reverse fs after := by
  induction reversed generalizing after with
  | nil => cases made
  | cons last outer ih =>
      have headUnlinked : Unlinked fs start outer.reverse :=
        unlinked.prefix_of ⟨[last], by simp⟩
      rw [List.map_cons, makedirsFrom] at made
      obtain ⟨between, above, made⟩ := except_bind_eq_ok made
      rw [← List.map_cons, ← ofNames_reverse, List.reverse_cons] at made
      rw [← ofNames_reverse] at above
      have betweenNew : NoNewLinks fs between ∧
          (between.node (place start outer.reverse) = some .directory →
            WithDirectories start outer.reverse fs between) := by
        split at above
        · cases above
          exact ⟨.refl fs, withDirectories_self⟩
        · cases outerMade : makedirsFrom existOk fs start false (outer.map .name) with
          | ok found =>
              rw [outerMade] at above
              cases above
              exact ⟨(ih headUnlinked outerMade).noNewLinks, fun _ => ih headUnlinked outerMade⟩
          | error error =>
              rw [outerMade] at above
              cases error with
              | fileExists =>
                  cases above
                  exact ⟨.refl fs, withDirectories_self⟩
              | _ => cases above
      obtain ⟨parent, same⟩ := mkdir_ok
        (by rw [← List.reverse_cons]; exact unlinked.of_noNewLinks betweenNew.1) made
      have outerDirectories := betweenNew.2 parent
      rw [List.reverse_cons]
      constructor
      · intro front nonempty inside
        rw [same]
        cases List.prefix_concat_iff.mp inside with
        | inl whole => rw [whole, place_concat, Function.update_self]
        | inr shorter =>
            have elsewhere : place start front ≠ last :: place start outer.reverse := by
              rw [← place_concat]
              intro equal
              have longer := shorter.length_le
              rw [place_inj.mp equal, List.length_append, List.length_singleton] at longer
              omega
            rw [Function.update_of_ne elsewhere]
            exact outerDirectories.directory front nonempty shorter
      · intro other off
        rw [same, Function.update_of_ne]
        · exact outerDirectories.same other fun front nonempty inside =>
            off front nonempty (inside.trans (List.prefix_append _ _))
        · rw [← place_concat]
          exact off _ (by simp) (List.prefix_refl _)

/-- `os.makedirs` leaves the directories of the path and nothing else. -/
theorem makedirs_ok {existOk : Bool} {after : FileSystem φ} (unlinked : Unlinked fs start names)
    (made : makedirs existOk fs start (.ofNames names) = .ok after) :
    WithDirectories start names fs after := by
  rw [makedirs, PurePath.ofNames, ← List.map_reverse] at made
  have reversed := makedirsFrom_ok names.reverse (by rwa [List.reverse_reverse]) made
  rwa [List.reverse_reverse] at reversed

/-- A directory that is there is not made again. -/
theorem makedirs_existing (unlinked : Unlinked fs start names) (nonempty : names ≠ [])
    (found : fs.node (place start names) = some .directory) :
    makedirs true fs start (.ofNames names) = .ok fs := by
  cases reversed : names.reverse with
  | nil => exact absurd (List.reverse_eq_nil_iff.mp reversed) nonempty
  | cons last outer =>
      have split : names = outer.reverse ++ [last] := by
        rw [← List.reverse_cons, ← reversed, List.reverse_reverse]
      have head : fs.pathExists start (.ofNames outer.reverse) = true := by
        have inside : outer.reverse <+: names := ⟨[last], split.symm⟩
        apply (unlinked.prefix_of inside).exists_iff.mpr
        rw [directories_above found inside]
        simp
      have isThere : fs.isDir start (.ofNames names) = true := unlinked.isDir_iff.mpr found
      have taken : fs.createAt .directory (place start names) = .error .fileExists := by
        rw [split, place_concat] at found ⊢
        exact FileSystem.createAt_taken (by rw [found]; simp)
      have again : mkdir true fs start (.ofNames names) = .ok fs := by
        rw [mkdir, FileSystem.makeNode, unlinked.locate_present (by rw [found]; simp)]
        simp only [taken, isThere, and_self, if_true]
      rw [makedirs, PurePath.ofNames, ← List.map_reverse, reversed, List.map_cons, makedirsFrom,
        ← List.map_cons, ← ofNames_reverse, ← ofNames_reverse, if_pos (.inr head),
        List.reverse_cons, ← split]
      exact again

theorem writeFile_ok {after : FileSystem φ} {data : φ} (unlinked : Unlinked fs start names)
    (wrote : writeFile fs start (.ofNames names) data = .ok after) :
    fs.node (place start names) ≠ some .directory ∧
      after.node = Function.update fs.node (place start names) (some (.file data)) := by
  unfold writeFile at wrote
  split at wrote
  · contradiction
  · rename_i location located
    rw [unlinked.locate_ends located] at wrote
    split at wrote
    · rename_i old found
      cases wrote
      exact ⟨by rw [found]; simp, rfl⟩
    · contradiction
    · contradiction
    · rename_i free
      exact ⟨by rw [free]; simp, (FileSystem.createAt_eq_ok wrote).2⟩

/-- Writing what a file holds changes nothing. -/
theorem writeFile_same {data : φ} (unlinked : Unlinked fs start names)
    (found : fs.node (place start names) = some (.file data)) :
    writeFile fs start (.ofNames names) data = .ok fs := by
  unfold writeFile
  rw [unlinked.locate_present (by rw [found]; simp)]
  dsimp only
  split
  · rename_i old file
    congr 1
    apply FileSystem.ext
    rw [FileSystem.setFile]
    exact (congrArg (Function.update fs.node _) found.symm).trans (Function.update_eq_self _ _)
  · rename_i directory
    rw [found] at directory
    cases directory
  · rename_i linked
    rw [found] at linked
    cases linked
  · rename_i free
    rw [found] at free
    cases free

/-- A copy of a file along paths without links. -/
theorem copyFile_ok {follow : Bool} {after : FileSystem φ} {sourceStart : Location}
    {source : List Name} (sourceUnlinked : Unlinked fs sourceStart source)
    (unlinked : Unlinked fs start names)
    (copied : copyFile follow fs sourceStart (.ofNames source) start (.ofNames names) =
      .ok after) :
    ∃ data, fs.node (place sourceStart source) = some (.file data) ∧
      fs.node (place start names) ≠ some .directory ∧
        after.node = Function.update fs.node (place start names) (some (.file data)) := by
  unfold copyFile at copied
  split at copied
  · contradiction
  · split at copied
    · rename_i linked seen
      exact absurd ((sourceUnlinked.stat_iff false).mp seen)
        (sourceUnlinked source (List.prefix_refl _) linked)
    · split at copied
      · contradiction
      · rename_i data seen
        exact ⟨data, (sourceUnlinked.stat_iff true).mp seen, writeFile_ok unlinked copied⟩
      · contradiction

/-- A copy that was made is not changed by another one. -/
theorem copyFile_again {follow : Bool} {sourceStart : Location} {source : List Name} {data : φ}
    (sourceUnlinked : Unlinked fs sourceStart source) (unlinked : Unlinked fs start names)
    (apart : place sourceStart source ≠ place start names)
    (sourceFile : fs.node (place sourceStart source) = some (.file data))
    (found : fs.node (place start names) = some (.file data)) :
    copyFile follow fs sourceStart (.ofNames source) start (.ofNames names) = .ok fs := by
  have different : sameFile fs sourceStart (.ofNames source) start (.ofNames names) = false := by
    rw [sameFile, sourceUnlinked.locate_present (by rw [sourceFile]; simp),
      unlinked.locate_present (by rw [found]; simp)]
    simp [apart]
  have seen := (sourceUnlinked.stat_iff false).mpr sourceFile
  have opened := (sourceUnlinked.stat_iff true).mpr sourceFile
  rw [copyFile, different, if_neg (by simp), opened]
  · exact writeFile_same unlinked found
  · intro linked _ isLink
    rw [seen] at isLink
    cases isLink

end

end DashTwrp.Python

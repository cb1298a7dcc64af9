import DashTwrp.Python.Shutil
import DashTwrp.Unix.Puts

namespace DashTwrp.Python

open DashTwrp.Unix

/-! What copies of files and trees leave behind. -/

variable {φ : Type}

/-! ### Directories and links last -/

section

variable {fs after : FileSystem φ} {start : Location} {path : PurePath}

theorem makeNode_lasting {node : Node φ} {location : Location}
    (made : fs.makeNode node start path = .ok (after, location)) : Lasting fs after := by
  obtain ⟨free, same⟩ := FileSystem.createAt_eq_ok (FileSystem.makeNode_eq_ok made).2
  exact lasting_update same (.inl free)

theorem mkdir_lasting {existOk : Bool} (made : mkdir existOk fs start path = .ok after) :
    Lasting fs after := by
  unfold mkdir at made
  split at made
  · rename_i created
    cases made
    exact makeNode_lasting created
  · split at made
    · cases made
      exact .refl fs
    · contradiction

theorem makedirsFrom_lasting {existOk absolute : Bool} (reversed : List Step)
    (made : makedirsFrom existOk fs start absolute reversed = .ok after) : Lasting fs after := by
  induction reversed generalizing after with
  | nil => cases made
  | cons last outer ih =>
      rw [makedirsFrom] at made
      obtain ⟨between, above, made⟩ := except_bind_eq_ok made
      refine Lasting.trans ?_ (mkdir_lasting made)
      split at above
      · cases above
        exact .refl fs
      · cases outerMade : makedirsFrom existOk fs start absolute outer with
        | ok found =>
            rw [outerMade] at above
            cases above
            exact ih outerMade
        | error error =>
            rw [outerMade] at above
            cases error with
            | fileExists =>
                cases above
                exact .refl fs
            | _ => cases above

theorem makedirs_lasting {existOk : Bool} (made : makedirs existOk fs start path = .ok after) :
    Lasting fs after :=
  makedirsFrom_lasting _ made

theorem writeFile_lasting {data : φ} (wrote : writeFile fs start path data = .ok after) :
    Lasting fs after := by
  unfold writeFile at wrote
  split at wrote
  · contradiction
  · split at wrote
    · rename_i old found
      cases wrote
      exact lasting_update rfl (.inr ⟨old, found⟩)
    · contradiction
    · contradiction
    · rename_i free
      exact lasting_update (FileSystem.createAt_eq_ok wrote).2 (.inl free)

theorem copyFile_lasting {follow : Bool} {sourceStart : Location} {source : PurePath}
    (copied : copyFile follow fs sourceStart source start path = .ok after) :
    Lasting fs after := by
  unfold copyFile at copied
  split at copied
  · contradiction
  · split at copied
    · rename_i linked _
      cases made : fs.makeNode (.link linked) start path with
      | error error =>
          rw [made] at copied
          cases copied
      | ok result =>
          rw [made] at copied
          cases copied
          exact makeNode_lasting made
    · split at copied
      · contradiction
      · exact writeFile_lasting copied
      · contradiction

theorem copy2_lasting {follow : Bool} {sourceStart : Location} {source : PurePath}
    (copied : copy2 follow fs sourceStart source start path = .ok after) : Lasting fs after := by
  unfold copy2 at copied
  split at copied
  · exact copyFile_lasting copied
  · exact copyFile_lasting copied

end

/-! ### Copies of a file -/

section

variable {fs after : FileSystem φ} {start sourceStart : Location} {source : PurePath}
  {names : List Name}

/-- What a path leads to when the last component is not a link. -/
theorem stat_follow {node : Node φ} (seen : fs.stat false sourceStart source = .ok node)
    (plain : ∀ target, node ≠ .link target) : fs.stat true sourceStart source = .ok node := by
  obtain ⟨location, located, found⟩ := FileSystem.stat_eq_ok_iff.mp seen
  have notLink : ∀ target, fs.node location ≠ some (.link target) := by
    intro target link
    rw [found] at link
    exact plain target (Option.some.inj link)
  exact FileSystem.stat_eq_ok_iff.mpr ⟨location, FileSystem.locate_follow located notLink, found⟩

/-- With `follow_symlinks=False` the copy is what `lstat` sees of the source. -/
theorem copyFile_node {node : Node φ} (unlinked : Unlinked fs start names)
    (seen : fs.stat false sourceStart source = .ok node)
    (copied : copyFile false fs sourceStart source start (.ofNames names) = .ok after) :
    after.node = Function.update fs.node (place start names) (some node) := by
  unfold copyFile at copied
  split at copied
  · contradiction
  · cases node with
    | link target =>
        rw [seen] at copied
        cases made : fs.makeNode (.link target) start (.ofNames names) with
        | error error =>
            simp [made] at copied
        | ok result =>
            simp only [made] at copied
            cases copied
            exact (makeNode_unlinked unlinked made).2
    | directory =>
        rw [seen, stat_follow seen (by simp)] at copied
        cases copied
    | file data =>
        rw [seen, stat_follow seen (by simp)] at copied
        exact (writeFile_ok unlinked copied).2

/-- Otherwise it is what the source leads to. -/
theorem copyFile_data {data : φ} (unlinked : Unlinked fs start names)
    (seen : fs.stat true sourceStart source = .ok (.file data))
    (copied : copyFile true fs sourceStart source start (.ofNames names) = .ok after) :
    after.node = Function.update fs.node (place start names) (some (.file data)) := by
  unfold copyFile at copied
  split at copied
  · contradiction
  · rw [seen] at copied
    exact (writeFile_ok unlinked copied).2

/-- What is copied through links is a file. -/
theorem copyFile_source {node : Node φ} {target : PurePath}
    (seen : fs.stat true sourceStart source = .ok node)
    (copied : copyFile true fs sourceStart source start target = .ok after) :
    ∃ data, node = .file data := by
  unfold copyFile at copied
  split at copied
  · contradiction
  · rw [seen] at copied
    cases node with
    | file data => exact ⟨data, rfl⟩
    | directory => cases copied
    | link linked => cases copied

theorem copy2_of_not_isDir {follow : Bool} {target : PurePath}
    (notDirectory : fs.isDir start target = false) :
    copy2 follow fs sourceStart source start target =
      copyFile follow fs sourceStart source start target := by
  rw [copy2, notDirectory, if_neg (by simp)]

theorem isDir_eq_false (unlinked : Unlinked fs start names)
    (notDirectory : fs.node (place start names) ≠ some .directory) :
    fs.isDir start (.ofNames names) = false := by
  rw [Bool.eq_false_iff]
  exact fun isDir => notDirectory (unlinked.isDir_iff.mp isDir)

theorem nodePut_update {node : Node φ}
    (same : after.node = Function.update fs.node (place start names) (some node)) :
    NodePut start names node fs after where
  there := by rw [same, Function.update_self]
  same := by
    intro other off
    rw [same, Function.update_of_ne (off names (List.prefix_refl _))]

/-- The directories above a node are made, and then the node. -/
theorem nodePut_withDirectories {between : FileSystem φ} {front : List Name} {last : Name}
    {node : Node φ} (directories : WithDirectories start front fs between)
    (put : NodePut start (front ++ [last]) node between after) :
    NodePut start (front ++ [last]) node fs after where
  there := put.there
  same := by
    intro other off
    rw [put.same other off]
    exact directories.same other fun above _ inside =>
      off above (inside.trans (List.prefix_append _ _))

theorem WithDirectories.agreeOutside {between : FileSystem φ}
    (made : WithDirectories start names fs between) : AgreeOutside start fs between :=
  fun _ off => made.same _ fun _ _ _ equal => off (equal ▸ suffix_place start _)

/-- What the tree has at a path is still there when directories are made above it. -/
theorem node_withDirectories {between : FileSystem φ} {front : List Name} {last : Name}
    (directories : WithDirectories start front fs between) :
    between.node (place start (front ++ [last])) = fs.node (place start (front ++ [last])) := by
  apply directories.same
  intro above _ inside equal
  have longer := inside.length_le
  rw [← place_inj.mp equal, List.length_append, List.length_singleton] at longer
  omega

end

/-! ### Copies of a tree -/

/-- A copy of a subtree, and the rest is as before but for the way there. -/
structure TreeCopied (source start : Location) (target : List Name)
    (before after : FileSystem φ) : Prop where
  directory : before.node source = some .directory
  inside : ∀ names, after.node (place start (target ++ names)) = before.node (place source names)
  same : ∀ other, (∀ front, front <+: target → other ≠ place start front) →
    ¬ place start target <:+ other → after.node other = before.node other

theorem TreeCopied.above {source start : Location} {target front : List Name}
    {before after : FileSystem φ} (copied : TreeCopied source start target before after)
    (inside : front <+: target) : after.node (place start front) = some .directory := by
  have whole := copied.inside []
  rw [List.append_nil, place_nil, copied.directory] at whole
  exact directories_above whole inside

theorem copytree_ok {fs after : FileSystem φ} {sourceStart start : Location}
    {source target : List Name} (sourceUnlinked : Unlinked fs sourceStart source)
    (unlinked : Unlinked fs start target)
    (copied : copytree fs sourceStart (.ofNames source) start (.ofNames target) = .ok after) :
    TreeCopied (place sourceStart source) start target fs after := by
  unfold copytree at copied
  split at copied
  · contradiction
  · rename_i from_ located
    rw [sourceUnlinked.locate_ends located] at copied
    split at copied
    · rename_i directory
      obtain ⟨made, directories, copied⟩ := except_bind_eq_ok copied
      have withDirectories := makedirs_ok unlinked directories
      split at copied
      · rename_i name parent reached
        have ends := (unlinked.of_noNewLinks withDirectories.noNewLinks).locate_ends reached
        split at copied
        · rename_i inside
          cases copied
          constructor
          · exact directory
          · intro names
            have inner : within (name :: parent) (place start (target ++ names)) =
                some names.reverse := by
              rw [ends, place_append, place]
              exact within_append _ _
            change FileSystem.graftNode fs _ _ made _ = _
            rw [FileSystem.graftNode, inner]
            rfl
          · intro other off below
            have outer : within (name :: parent) other = none := by
              rw [ends, within, if_neg below]
            change FileSystem.graftNode fs _ _ made _ = _
            rw [FileSystem.graftNode, outer]
            exact withDirectories.same other fun front _ onWay => off front onWay
        · contradiction
      · contradiction
    · contradiction
    · contradiction

end DashTwrp.Python

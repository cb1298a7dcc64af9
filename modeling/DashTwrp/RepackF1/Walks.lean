import DashTwrp.RepackF1.Passes

namespace DashTwrp.RepackF1

open DashTwrp.Python DashTwrp.Unix

/-! The files that the walks list, and the two loops over them. -/

variable {φ : Type}

/-- A file or a link. -/
def IsLeaf (node : Option (Node φ)) : Prop := node ≠ none ∧ node ≠ some .directory

/-- A link that leads to no directory. -/
def LinkOff (fs : FileSystem φ) (base : Location) (names : List Name) : Prop :=
  ∀ target, fs.node (place base names) = some (.link target) → fs.isDir base (.ofNames names) = false

theorem isDir_of_directory {fs : FileSystem φ} {base : Location} {names : List Name}
    (found : fs.node (place base names) = some .directory) :
    fs.isDir base (.ofNames names) = true :=
  (unlinked_of_node found (by simp)).isDir_iff.mpr found

theorem isDir_leaf {fs : FileSystem φ} {base : Location} {names : List Name}
    (linkOff : LinkOff fs base names) (leaf : IsLeaf (fs.node (place base names))) :
    fs.isDir base (.ofNames names) = false := by
  obtain ⟨present, noDirectory⟩ := leaf
  obtain ⟨node, found⟩ := Option.ne_none_iff_exists'.mp present
  cases node with
  | directory => exact absurd found noDirectory
  | link target => exact linkOff target found
  | file data => exact isDir_eq_false (unlinked_of_node found (by simp)) noDirectory

/-- The walk lists the files and the links. -/
theorem mem_walkFiles {listing : List Location} {fs : FileSystem φ} {start base : Location}
    {top : PurePath} (lists : Lists listing fs) (located : fs.locate true start top = .ok base)
    {names : List Name} (linkOff : LinkOff fs base names) :
    names ∈ walkFiles listing fs start top ↔
      names ≠ [] ∧ IsLeaf (fs.node (place base names)) := by
  have listed : names ∈ (descendants listing base).map List.reverse ↔
      names ≠ [] ∧ fs.node (place base names) ≠ none := by
    rw [List.mem_map]
    constructor
    · intro found
      obtain ⟨inner, member, rfl⟩ := found
      obtain ⟨nonempty, inListing⟩ := mem_descendants.mp member
      refine ⟨by simpa using nonempty, ?_⟩
      rw [place, List.reverse_reverse]
      exact (lists _).mp inListing
    · intro found
      refine ⟨names.reverse, mem_descendants.mpr ⟨by simpa using found.1, ?_⟩, by simp⟩
      exact (lists _).mpr found.2
  rw [walkFiles, located]
  simp only [List.mem_filter, listed, Bool.not_eq_true']
  constructor
  · intro found
    refine ⟨found.1.1, found.1.2, fun directory => ?_⟩
    rw [isDir_of_directory directory] at found
    exact absurd found.2 (by simp)
  · intro found
    exact ⟨⟨found.1, found.2.1⟩, isDir_leaf linkOff found.2⟩

theorem underBin_cons {rel : List Name} (under : UnderBin rel) :
    ∃ rest, rest ≠ [] ∧ rel = "system" :: rest := by
  obtain ⟨back, rfl⟩ := under.1
  exact ⟨"bin" :: back, by simp, rfl⟩

theorem mem_tpBins {listing : List Location} {fs : FileSystem φ} {tmp : Location}
    (input : MergeInput fs tmp) (lists : Lists listing fs) {rel : List Name} :
    rel ∈ tpBins listing fs tmp ↔ UnderBin rel ∧ IsLeaf (tpNode fs tmp rel) := by
  have systemUnlinked : Unlinked fs (tpDir tmp) ["system"] :=
    (input.templateSubs binNames (by decide)).prefix_of ⟨["bin"], rfl⟩
  have located : fs.locate true (tpDir tmp) (.ofNames ["system"]) = .ok ("system" :: tpDir tmp) := by
    apply systemUnlinked.locate_below
    intro front last split
    have empty : front = [] := by
      cases front with
      | nil => rfl
      | cons name more => simp at split
    rw [empty]
    exact input.template
  have same (names : List Name) : tpNode fs tmp ("system" :: names) =
      fs.node (place ("system" :: tpDir tmp) names) := by
    rw [tpNode, place_cons]
  have linkOff {names : List Name} (under : UnderBin ("system" :: names)) :
      LinkOff fs ("system" :: tpDir tmp) names := by
    intro target found
    have inside : fs.node ("system" :: tpDir tmp) = some .directory := by
      have notEmpty : names ≠ [] := by
        intro empty
        subst empty
        exact absurd under.1 (by decide)
      exact fs.directory_above names.reverse (by simpa using notEmpty) (by
        rw [place] at found
        rw [found]
        simp)
    have off := input.templateLinks _ target under (by rw [same, found])
    unfold FileSystem.isDir FileSystem.stat at off ⊢
    rwa [locate_directory inside] at off
  simp only [tpBins, List.mem_filter, List.mem_map, decide_eq_true_eq]
  constructor
  · intro found
    obtain ⟨⟨names, member, rfl⟩, under⟩ := found
    rw [same]
    exact ⟨under, ((mem_walkFiles lists located (linkOff under)).mp member).2⟩
  · intro found
    obtain ⟨under, leaf⟩ := found
    obtain ⟨rest, nonempty, rfl⟩ := underBin_cons under
    rw [same] at leaf
    exact ⟨⟨rest, (mem_walkFiles lists located (linkOff under)).mpr ⟨nonempty, leaf⟩, rfl⟩, under⟩

/-! ### The loop that prunes -/

/-- The loop removes this file. -/
def Prunable (bins : List (List Name)) (tmp : Location) (merged : FileSystem φ)
    (rel : List Name) : Prop :=
  UnderBin rel ∧ rel ∉ bins ∧ IsLeaf (f1Node merged tmp rel)

/-- The merged tree without what the template does not have under `system/bin`. -/
structure Pruned (bins : List (List Name)) (tmp : Location) (merged after : FileSystem φ) :
    Prop where
  outside : AgreeOutside (f1Dir tmp) merged after
  gone : ∀ rel, Prunable bins tmp merged rel → f1Node after tmp rel = none
  same : ∀ rel, ¬ Prunable bins tmp merged rel → f1Node after tmp rel = f1Node merged tmp rel
  smaller : after.Extends merged

theorem underBin_ne_nil {rel : List Name} (under : UnderBin rel) : rel ≠ [] := by
  obtain ⟨rest, _, rfl⟩ := underBin_cons under
  simp

theorem nothing_below_leaf {fs : FileSystem φ} {base : Location} {rel names : List Name}
    (leaf : IsLeaf (fs.node (place base rel))) (below : rel <+: names) (proper : names ≠ rel) :
    fs.node (place base names) = none := by
  obtain ⟨back, rfl⟩ := below
  rw [place_append, place]
  exact fs.none_below back.reverse (by simpa using proper) leaf.2

theorem prunedTree_ok {listing : List Location} {bins : List (List Name)} {tmp : Location}
    {merged after : FileSystem φ} (lists : Lists listing merged)
    (linkOff : ∀ rel, UnderBin rel → LinkOff merged (f1Dir tmp) rel)
    (made : prunedTree listing bins tmp merged = .ok after) : Pruned bins tmp merged after := by
  have located : merged.locate true (f1Dir tmp) (.ofNames []) = .ok (f1Dir tmp) := rfl
  have isFile {rel : List Name} (under : UnderBin rel) :
      rel ∈ walkFiles listing merged (f1Dir tmp) (.ofNames []) ↔ IsLeaf (f1Node merged tmp rel) := by
    rw [mem_walkFiles lists located (linkOff rel under)]
    exact and_iff_right (underBin_ne_nil under)
  have dropped : Dropped (fun other => ∃ rel ∈ walkFiles listing merged (f1Dir tmp) (.ofNames []),
      (UnderBin rel ∧ rel ∉ bins) ∧ place (f1Dir tmp) rel <:+ other) merged after := by
    refine dropped_of_foldlM (fun current next rel member kept step => ?_) made
    unfold pruneFile at step
    split at step
    · rename_i removing
      refine ⟨fun _ => ?_, fun no => absurd removing no⟩
      have leaf := (isFile removing.1).mp member
      have split := List.dropLast_append_getLast (underBin_ne_nil removing.1)
      rw [← split] at step ⊢
      exact osRemove_ok ((unlinked_above (by rw [split]; exact leaf.1)).of_noNewLinks kept) step
    · rename_i keeping
      exact ⟨fun removing => absurd removing keeping, fun _ => (Except.ok.inj step).symm⟩
  constructor
  · intro other off
    apply dropped.same
    intro gone
    obtain ⟨rel, _, _, below⟩ := gone
    exact off ((suffix_place _ _).trans below)
  · intro rel prunable
    exact dropped.absent _
      ⟨rel, (isFile prunable.1).mpr prunable.2.2, ⟨prunable.1, prunable.2.1⟩, List.suffix_refl _⟩
  · intro rel keeping
    by_cases gone : ∃ file ∈ walkFiles listing merged (f1Dir tmp) (.ofNames []),
        (UnderBin file ∧ file ∉ bins) ∧ place (f1Dir tmp) file <:+ place (f1Dir tmp) rel
    · have absent : f1Node after tmp rel = none := dropped.absent _ gone
      obtain ⟨file, member, removing, below⟩ := gone
      have leaf := (isFile removing.1).mp member
      rw [absent, f1Node, nothing_below_leaf leaf (place_suffix_place.mp below)]
      rintro rfl
      exact keeping ⟨removing.1, removing.2, leaf⟩
    · exact dropped.same _ gone
  · intro location node found
    by_cases gone : ∃ file ∈ walkFiles listing merged (f1Dir tmp) (.ofNames []),
        (UnderBin file ∧ file ∉ bins) ∧ place (f1Dir tmp) file <:+ location
    · rw [dropped.absent _ gone] at found
      cases found
    · rwa [dropped.same _ gone] at found

/-- A link that leads to no directory does not in a smaller tree. -/
theorem LinkOff.of_extends {smaller larger : FileSystem φ} {base : Location} {names : List Name}
    (linkOff : LinkOff larger base names) (extend : smaller.Extends larger) :
    LinkOff smaller base names := by
  intro target found
  have off := linkOff target (extend _ _ found)
  rw [Bool.eq_false_iff] at off ⊢
  intro isDir
  apply off
  unfold FileSystem.isDir at isDir ⊢
  split at isDir
  · rename_i seen
    obtain ⟨location, located, directory⟩ := FileSystem.stat_eq_ok_iff.mp seen
    have reached : larger.stat true base (.ofNames names) = .ok .directory :=
      FileSystem.stat_eq_ok_iff.mpr ⟨location, FileSystem.locate_extends extend
        (fun absent => by rw [directory] at absent; cases absent) located,
          extend _ _ directory⟩
    rw [reached]
  · cases isDir

/-! ### The loop that restores -/

theorem restoreFile_put {ciNames : List (List Name)} {tmp : Location}
    {before current next : FileSystem φ} {front : List Name} {last : Name} {node : Node φ}
    (found : tpNode before tmp (front ++ [last]) = some node)
    (missing : front ++ [last] ∉ ciNames)
    (outside : AgreeOutside (f1Dir tmp) before current)
    (ready : Ready (f1Dir tmp) (front ++ [last]) current)
    (step : restoreFile ciNames tmp current (front ++ [last]) = .ok next) :
    NodePut (f1Dir tmp) (front ++ [last]) node current next := by
  have seen {fs : FileSystem φ} (same : AgreeOutside (f1Dir tmp) before fs) :
      fs.stat false (tpDir tmp) (.ofNames (front ++ [last])) = .ok node := by
    apply stat_entry
    rw [same _ (tp_outside tmp _)]
    exact found
  have there : current.lexists (tpDir tmp) (.ofNames (front ++ [last])) = true := by
    rw [FileSystem.lexists, seen outside]
    rfl
  rw [restoreFile, if_neg missing, if_pos there, List.dropLast_concat] at step
  obtain ⟨between, directories, step⟩ := except_bind_eq_ok step
  have withDirectories := makedirs_ok
    (ready.unlinked.prefix_of (List.prefix_append front [last])) directories
  have unlinked := ready.unlinked.of_noNewLinks withDirectories.noNewLinks
  have notDirectory : between.node (place (f1Dir tmp) (front ++ [last])) ≠ some .directory := by
    rw [node_withDirectories withDirectories]
    exact ready.noDirectory
  have seenBetween := seen (outside.trans withDirectories.agreeOutside)
  apply nodePut_withDirectories withDirectories
  apply nodePut_update
  rw [seenBetween, copy2_of_not_isDir (isDir_eq_false unlinked notDirectory)] at step
  cases node with
  | link target =>
      cases made : between.makeNode (.link target) (f1Dir tmp) (.ofNames (front ++ [last])) with
      | error error =>
          simp [made] at step
      | ok result =>
          simp only [made] at step
          cases step
          exact (makeNode_unlinked unlinked made).2
  | directory => exact copyFile_node unlinked seenBetween step
  | file data => exact copyFile_node unlinked seenBetween step

end DashTwrp.RepackF1

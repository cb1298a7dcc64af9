import DashTwrp.PrepareFragments.F1
import DashTwrp.Python.Slices

namespace DashTwrp.PrepareFragments

open DashTwrp.Python DashTwrp.Unix

/-! When the tree that is packed as F1 is the validated tree with the files of the
staging tree and the scripts of the device tree over it. -/

variable {φ : Type}

/-- The three layers, the scripts over the staging files over the validated tree. -/
structure F1Overlay (tmpdir : Location) (staging : Option Location) (dtroot : Location)
    (before after : FileSystem φ) : Prop where
  rc : ∀ rc ∈ dtOverlayRcs, ∃ data,
    before.stat true dtroot (.ofNames (rootdirNames rc)) = .ok (.file data) ∧
      after.node (place (f1d tmpdir) [rc]) = some (.file data)
  staged : ∀ tree ∈ staging, ∀ rel ∈ stagingOverlayFiles,
    before.pathExists tree (.ofNames rel) = true → ∃ data,
      before.stat true tree (.ofNames rel) = .ok (.file data) ∧
        after.node (place (f1d tmpdir) rel) = some (.file data)
  validated : ∀ names, (∀ rc ∈ dtOverlayRcs, names ≠ [rc]) →
    (∀ tree ∈ staging, ∀ rel ∈ stagingOverlayFiles,
      before.pathExists tree (.ofNames rel) = true → ¬ names <+: rel) →
    after.node (place (f1d tmpdir) names) = before.node (place (valF1d tmpdir) names)

/-- The sources and the validated tree fit: each staging file is no link and can
be put over the validated tree, and each script of the device tree can, where the
tool finds a copy with its content; where it finds none, the validated tree has
the device tree's script already. -/
structure F1Fits (tmpdir : Location) (staging : Option Location) (dtroot : Location)
    (before : FileSystem φ) : Prop where
  staged : ∀ tree ∈ staging, ∀ rel ∈ stagingOverlayFiles,
    before.pathExists tree (.ofNames rel) = true →
      (∃ data, before.stat false tree (.ofNames rel) = .ok (.file data)) ∧
        Ready (valF1d tmpdir) rel before
  found : ∀ rc ∈ dtOverlayRcs, before.pathExists dtroot (.ofNames (dtRcNames rc)) = true →
    (∃ data, before.stat true dtroot (.ofNames (dtRcNames rc)) = .ok (.file data) ∧
      before.stat true dtroot (.ofNames (rootdirNames rc)) = .ok (.file data)) ∧
        Ready (valF1d tmpdir) [rc] before
  notFound : ∀ rc ∈ dtOverlayRcs, before.pathExists dtroot (.ofNames (dtRcNames rc)) = false →
    ∃ data, before.stat true dtroot (.ofNames (rootdirNames rc)) = .ok (.file data) ∧
      before.node (place (valF1d tmpdir) [rc]) = some (.file data)

/-- The temporary directory is a new one: it has the validated tree and not yet
the new one, and no path of the sources leads into the new one. -/
structure F1Workspace (tmpdir : Location) (staging : Option Location) (dtroot : Location)
    (before : FileSystem φ) : Prop where
  directory : before.node tmpdir = some .directory
  validated : before.node (valF1d tmpdir) = some .directory
  fresh : before.node (f1d tmpdir) = none
  stagingSettled : ∀ tree ∈ staging, ∀ rel ∈ stagingOverlayFiles,
    Settled before (f1d tmpdir) tree (.ofNames rel)
  rcSettled : ∀ rc ∈ dtOverlayRcs, Settled before (f1d tmpdir) dtroot (.ofNames (dtRcNames rc))

/-! ### The passes -/

theorem overlayStagingFile_lasting {staging f1d : Location} {fs after : FileSystem φ}
    {rel : List Name} (made : overlayStagingFile staging f1d fs rel = .ok after) :
    Lasting fs after := by
  unfold overlayStagingFile at made
  split at made
  · obtain ⟨between, directories, copied⟩ := except_bind_eq_ok made
    exact (makedirs_lasting directories).trans (copy2_lasting copied)
  · cases made
    exact .refl fs

theorem overlayRc_lasting {dtroot f1d : Location} {fs after : FileSystem φ} {rc : Name}
    (made : overlayRc dtroot f1d fs rc = .ok after) : Lasting fs after := by
  unfold overlayRc at made
  split at made
  · exact copy2_lasting made
  · cases made
    exact .refl fs

theorem overlayStaging_lasting {staging : Option Location} {f1d : Location}
    {fs after : FileSystem φ} (made : overlayStaging staging f1d fs = .ok after) :
    Lasting fs after := by
  cases staging with
  | none =>
      cases made
      exact .refl fs
  | some tree => exact lasting_of_foldlM (fun _ _ _ => overlayStagingFile_lasting) made

/-- The node that the staging pass puts at a path. -/
def stagedNode (fs : FileSystem φ) (tree : Location) (rel : List Name) : Option (Node φ) :=
  if fs.pathExists tree (.ofNames rel) then (fs.stat false tree (.ofNames rel)).toOption else none

/-- The node that the last pass puts at the path of a script. -/
def rcNode (fs : FileSystem φ) (dtroot : Location) (rc : Name) : Option (Node φ) :=
  (fs.stat true dtroot (.ofNames (dtRcNames rc))).toOption

theorem stagedNode_eq_some_iff {fs : FileSystem φ} {tree : Location} {rel : List Name}
    {node : Node φ} : stagedNode fs tree rel = some node ↔
      fs.pathExists tree (.ofNames rel) = true ∧ fs.stat false tree (.ofNames rel) = .ok node := by
  unfold stagedNode
  split
  · rename_i present
    cases fs.stat false tree (.ofNames rel) <;> simp [present, Except.toOption]
  · rename_i absent
    simp [absent]

/-- What exists has a node of its own. -/
theorem stagedNode_of_exists {fs : FileSystem φ} {tree : Location} {rel : List Name}
    (present : fs.pathExists tree (.ofNames rel) = true) :
    ∃ node, stagedNode fs tree rel = some node := by
  obtain ⟨target, reached⟩ := exists_iff_stat.mp present
  have entry := FileSystem.lexists_of_stat reached
  unfold FileSystem.lexists at entry
  cases seen : fs.stat false tree (.ofNames rel) with
  | ok node => exact ⟨node, stagedNode_eq_some_iff.mpr ⟨present, seen⟩⟩
  | error error =>
      rw [seen] at entry
      cases entry

theorem overlayStagingFile_put {tree f1d : Location} {before current next : FileSystem φ}
    {front : List Name} {last : Name}
    (settled : Settled before f1d tree (.ofNames (front ++ [last])))
    (outside : AgreeOutside f1d before current)
    (ready : stagedNode before tree (front ++ [last]) ≠ none → Ready f1d (front ++ [last]) current)
    (made : overlayStagingFile tree f1d current (front ++ [last]) = .ok next) :
    (∀ node, stagedNode before tree (front ++ [last]) = some node →
      NodePut f1d (front ++ [last]) node current next) ∧
        (stagedNode before tree (front ++ [last]) = none → next = current) := by
  unfold overlayStagingFile at made
  split at made
  · rename_i present
    have presentBefore := (settled.exists_iff outside).mp present
    constructor
    · intro node found
      have fits := ready (by rw [found]; simp)
      obtain ⟨between, directories, copied⟩ := except_bind_eq_ok made
      rw [List.dropLast_concat] at directories
      have withDirectories := makedirs_ok
        (fits.unlinked.prefix_of (List.prefix_append front [last])) directories
      have unlinked := fits.unlinked.of_noNewLinks withDirectories.noNewLinks
      rw [copy2_of_not_isDir (isDir_eq_false unlinked (by
        rw [node_withDirectories withDirectories]
        exact fits.noDirectory))] at copied
      have seen := (settled between (outside.trans withDirectories.agreeOutside) false node).mpr
        (stagedNode_eq_some_iff.mp found).2
      exact nodePut_withDirectories withDirectories
        (nodePut_update (copyFile_node unlinked seen copied))
    · intro none
      obtain ⟨node, found⟩ := stagedNode_of_exists presentBefore
      rw [none] at found
      cases found
  · rename_i absent
    cases made
    refine ⟨fun node found => ?_, fun _ => rfl⟩
    exact absurd ((settled.exists_iff outside).mpr (stagedNode_eq_some_iff.mp found).1) absent

theorem overlayRc_put {dtroot f1d : Location} {before current next : FileSystem φ} {rc : Name}
    (settled : Settled before f1d dtroot (.ofNames (dtRcNames rc)))
    (outside : AgreeOutside f1d before current)
    (ready : rcNode before dtroot rc ≠ none → Ready f1d [rc] current)
    (made : overlayRc dtroot f1d current rc = .ok next) :
    (∀ node, rcNode before dtroot rc = some node → NodePut f1d [rc] node current next) ∧
      (rcNode before dtroot rc = none → next = current) := by
  unfold overlayRc at made
  cases seen : before.stat true dtroot (.ofNames (dtRcNames rc)) with
  | error error =>
      have absent : ¬ current.pathExists dtroot (.ofNames (dtRcNames rc)) = true := by
        rw [settled.exists_iff outside, exists_iff_stat, seen]
        simp
      rw [if_neg absent] at made
      cases made
      simp [rcNode, seen, Except.toOption]
  | ok node =>
      have present : current.pathExists dtroot (.ofNames (dtRcNames rc)) = true := by
        rw [settled.exists_iff outside, exists_iff_stat, seen]
        simp
      have isNode : rcNode before dtroot rc = some node := by
        rw [rcNode, seen]
        rfl
      have fits := ready (by rw [isNode]; simp)
      have source := (settled current outside true node).mpr seen
      rw [if_pos present, copy2_of_not_isDir (isDir_eq_false fits.unlinked fits.noDirectory)]
        at made
      obtain ⟨data, rfl⟩ := copyFile_source source made
      rw [isNode]
      refine ⟨fun other same => ?_, by simp⟩
      cases same
      exact nodePut_update (copyFile_data fits.unlinked source made)

/-! ### The run -/

/-- The new tree is a copy of the validated tree. -/
structure F1Copied (tmpdir : Location) (before copied : FileSystem φ) : Prop where
  inside : ∀ names, copied.node (place (f1d tmpdir) names) = before.node (place (valF1d tmpdir) names)
  outside : AgreeOutside (f1d tmpdir) before copied

theorem F1Copied.ready_iff {tmpdir : Location} {before copied : FileSystem φ}
    (same : F1Copied tmpdir before copied) (names : List Name) :
    Ready (f1d tmpdir) names copied ↔ Ready (valF1d tmpdir) names before := by
  constructor
  · intro ready
    refine ⟨fun front inside => ?_, ?_⟩
    · rw [← same.inside]
      exact ready.unlinked front inside
    · rw [← same.inside]
      exact ready.noDirectory
  · intro ready
    refine ⟨fun front inside => ?_, ?_⟩
    · rw [same.inside]
      exact ready.unlinked front inside
    · rw [same.inside]
      exact ready.noDirectory

theorem f1Transform_eq_ok {before after : FileSystem φ} {tmpdir dtroot : Location}
    {staging : Option Location} (workspace : F1Workspace tmpdir staging dtroot before)
    (made : f1Transform before tmpdir staging dtroot = .ok after) :
    ∃ copied staged, F1Copied tmpdir before copied ∧
      overlayStaging staging (f1d tmpdir) copied = .ok staged ∧
      dtOverlayRcs.foldlM (overlayRc dtroot (f1d tmpdir)) staged = .ok after := by
  obtain ⟨cleared, removed, made⟩ := except_bind_eq_ok made
  obtain ⟨copied, tree, made⟩ := except_bind_eq_ok made
  obtain ⟨staged, stagedOk, rcsOk⟩ := except_bind_eq_ok made
  have noLink : ∀ target, before.node ("_new_f1" :: tmpdir) ≠ some (.link target) := by
    intro target found
    have fresh : before.node ("_new_f1" :: tmpdir) = none := workspace.fresh
    rw [found] at fresh
    cases fresh
  obtain ⟨inside, outside⟩ :=
    copied_afresh workspace.directory workspace.validated noLink (by decide) removed tree
  exact ⟨copied, staged, ⟨inside, outside⟩, stagedOk, rcsOk⟩

/-- The nodes put by both passes. -/
def stagedNodes (fs : FileSystem φ) : Option Location → List (List Name × Node φ)
  | some tree => nodesOf id (stagedNode fs tree) stagingOverlayFiles
  | none => []

def rcNodes (fs : FileSystem φ) (dtroot : Location) : List (List Name × Node φ) :=
  nodesOf (fun rc => [rc]) (rcNode fs dtroot) dtOverlayRcs

theorem overlayPaths_separate :
    (stagingOverlayFiles ++ dtOverlayRcs.map fun rc => [rc]).Pairwise Separate := by
  decide

theorem stagedNodes_sublist (fs : FileSystem φ) (staging : Option Location) :
    ((stagedNodes fs staging).map Prod.fst).Sublist stagingOverlayFiles := by
  cases staging with
  | none => exact List.nil_sublist _
  | some tree => exact List.map_id stagingOverlayFiles ▸ nodesOf_sublist id _ _

theorem f1Nodes_separate (fs : FileSystem φ) (staging : Option Location) (dtroot : Location) :
    ((stagedNodes fs staging ++ rcNodes fs dtroot).map Prod.fst).Pairwise Separate := by
  rw [List.map_append]
  exact overlayPaths_separate.sublist
    ((stagedNodes_sublist fs staging).append (nodesOf_sublist _ _ _))

/-- When nothing is in the way, the passes put their nodes over the copy. -/
theorem f1Puts {before after copied staged : FileSystem φ} {tmpdir dtroot : Location}
    {staging : Option Location} (workspace : F1Workspace tmpdir staging dtroot before)
    (same : F1Copied tmpdir before copied)
    (stagedOk : overlayStaging staging (f1d tmpdir) copied = .ok staged)
    (made : dtOverlayRcs.foldlM (overlayRc dtroot (f1d tmpdir)) staged = .ok after)
    (stagingReady : ∀ tree ∈ staging, ∀ rel ∈ stagingOverlayFiles,
      before.pathExists tree (.ofNames rel) = true → Ready (valF1d tmpdir) rel before)
    (rcReady : ∀ rc ∈ dtOverlayRcs, rcNode before dtroot rc ≠ none →
      Ready (valF1d tmpdir) [rc] before) :
    Puts (f1d tmpdir) (stagedNodes before staging ++ rcNodes before dtroot) copied after := by
  have stagedPuts : Puts (f1d tmpdir) (stagedNodes before staging) copied staged := by
    cases staging with
    | none =>
        cases stagedOk
        exact .none _
    | some tree =>
        apply puts_of_foldlM (by decide) ?_ same.outside ?_ stagedOk
        · intro current next rel member outside ready step
          have split : rel = rel.dropLast ++ [rel.getLast (by
              intro empty
              subst empty
              revert member
              decide)] := (List.dropLast_append_getLast _).symm
          rw [id, split] at ready
          rw [split] at step ⊢
          exact overlayStagingFile_put
            (split ▸ workspace.stagingSettled tree rfl rel member) outside ready step
        · intro rel member present
          obtain ⟨node, found⟩ := Option.ne_none_iff_exists'.mp present
          exact (same.ready_iff rel).mpr
            (stagingReady tree rfl rel member (stagedNode_eq_some_iff.mp found).1)
  have outside : AgreeOutside (f1d tmpdir) before staged :=
    same.outside.trans fun _ off => stagedPuts.outside off
  refine stagedPuts.append (puts_of_foldlM (by decide) ?_ outside ?_ made)
  · intro current next rc member outside ready step
    exact overlayRc_put (workspace.rcSettled rc member) outside ready step
  · intro rc member present
    apply stagedPuts.ready
    · intro entry inStaging
      have listed := (stagedNodes_sublist before staging).subset (List.mem_map_of_mem inStaging)
      exact (List.pairwise_append.mp overlayPaths_separate).2.2 _ listed _
        (List.mem_map_of_mem member)
    · exact (same.ready_iff [rc]).mpr (rcReady rc member present)

theorem rcNode_eq_some_iff {fs : FileSystem φ} {dtroot : Location} {rc : Name} {node : Node φ} :
    rcNode fs dtroot rc = some node ↔ fs.stat true dtroot (.ofNames (dtRcNames rc)) = .ok node := by
  unfold rcNode
  cases fs.stat true dtroot (.ofNames (dtRcNames rc)) <;> simp [Except.toOption]

theorem mem_stagedNodes {fs : FileSystem φ} {staging : Option Location}
    {entry : List Name × Node φ} : entry ∈ stagedNodes fs staging ↔
      ∃ tree ∈ staging, entry.1 ∈ stagingOverlayFiles ∧ stagedNode fs tree entry.1 = some entry.2 := by
  cases staging with
  | none => simp [stagedNodes]
  | some tree =>
      rw [stagedNodes, mem_nodesOf]
      constructor
      · intro found
        obtain ⟨rel, member, given, path⟩ := found
        obtain rfl : rel = entry.1 := path
        exact ⟨tree, rfl, member, given⟩
      · intro found
        obtain ⟨other, isTree, member, given⟩ := found
        cases isTree
        exact ⟨entry.1, member, given, rfl⟩

theorem rc_listed {fs : FileSystem φ} (staging : Option Location) {dtroot : Location} {rc : Name}
    (member : rc ∈ dtOverlayRcs) {node : Node φ}
    (seen : fs.stat true dtroot (.ofNames (dtRcNames rc)) = .ok node) :
    ([rc], node) ∈ stagedNodes fs staging ++ rcNodes fs dtroot :=
  List.mem_append_right _ (mem_nodesOf.mpr ⟨rc, member, rcNode_eq_some_iff.mpr seen, rfl⟩)

/-- Where the tool does not find a script nothing is put. -/
theorem rc_unlisted {fs : FileSystem φ} (staging : Option Location) {dtroot : Location}
    {rc : Name} (member : rc ∈ dtOverlayRcs)
    (absent : fs.pathExists dtroot (.ofNames (dtRcNames rc)) = false) :
    ∀ entry ∈ stagedNodes fs staging ++ rcNodes fs dtroot, ¬ [rc] <+: entry.1 := by
  intro entry listed onWay
  cases List.mem_append.mp listed with
  | inl inStaging =>
      have path := (stagedNodes_sublist fs staging).subset (List.mem_map_of_mem inStaging)
      have apart := (List.pairwise_append.mp overlayPaths_separate).2.2 _ path [rc]
        (List.mem_map_of_mem member)
      exact apart.2 onWay
  | inr inRcs =>
      obtain ⟨other, _, given, path⟩ := mem_nodesOf.mp inRcs
      rw [← path, List.singleton_prefix_cons_iff] at onWay
      subst onWay
      have present := exists_iff_stat.mpr ⟨_, rcNode_eq_some_iff.mp given⟩
      rw [absent] at present
      cases present

/-- The packed tree is the overlay exactly when its sources fit. -/
theorem f1Transform_overlay_iff {before after : FileSystem φ} {tmpdir dtroot : Location}
    {staging : Option Location} (workspace : F1Workspace tmpdir staging dtroot before)
    (made : f1Transform before tmpdir staging dtroot = .ok after) :
    F1Overlay tmpdir staging dtroot before after ↔ F1Fits tmpdir staging dtroot before := by
  obtain ⟨copied, staged, same, stagedOk, rcsOk⟩ := f1Transform_eq_ok workspace made
  have lasting : Lasting copied after :=
    (overlayStaging_lasting stagedOk).trans
      (lasting_of_foldlM (fun _ _ _ => overlayRc_lasting) rcsOk)
  have separate := f1Nodes_separate before staging dtroot
  constructor
  · intro overlay
    have fileReady {names : List Name} {data : φ}
        (file : after.node (place (f1d tmpdir) names) = some (.file data)) :
        Ready (valF1d tmpdir) names before :=
      (same.ready_iff names).mp (ready_of_file lasting file)
    have puts := f1Puts workspace same stagedOk rcsOk
      (fun tree isTree rel member present =>
        have found := overlay.staged tree isTree rel member present
        fileReady found.choose_spec.2)
      (fun rc member _ => fileReady (overlay.rc rc member).choose_spec.2)
    constructor
    · intro tree isTree rel member present
      obtain ⟨data, _, file⟩ := overlay.staged tree isTree rel member present
      obtain ⟨node, found⟩ := stagedNode_of_exists present
      have listed : (rel, node) ∈ stagedNodes before staging ++ rcNodes before dtroot :=
        List.mem_append_left _ (mem_stagedNodes.mpr ⟨tree, isTree, member, found⟩)
      have there := puts.there separate listed
      rw [file] at there
      cases there
      exact ⟨⟨data, (stagedNode_eq_some_iff.mp found).2⟩, fileReady file⟩
    · intro rc member present
      obtain ⟨data, script, file⟩ := overlay.rc rc member
      obtain ⟨node, seen⟩ := exists_iff_stat.mp present
      have there := puts.there separate (rc_listed staging member seen)
      rw [file] at there
      cases there
      exact ⟨⟨data, seen, script⟩, fileReady file⟩
    · intro rc member absent
      obtain ⟨data, script, file⟩ := overlay.rc rc member
      refine ⟨data, script, ?_⟩
      rw [← same.inside, ← file, puts.same_names (rc_unlisted staging member absent)]
  · intro fits
    have puts := f1Puts workspace same stagedOk rcsOk
      (fun tree isTree rel member present => (fits.staged tree isTree rel member present).2)
      (fun rc member present => (fits.found rc member (by
        obtain ⟨node, given⟩ := Option.ne_none_iff_exists'.mp present
        exact exists_iff_stat.mpr ⟨node, rcNode_eq_some_iff.mp given⟩)).2)
    constructor
    · intro rc member
      cases present : before.pathExists dtroot (.ofNames (dtRcNames rc)) with
      | true =>
          obtain ⟨⟨data, seen, script⟩, _⟩ := fits.found rc member present
          exact ⟨data, script, puts.there separate (rc_listed staging member seen)⟩
      | false =>
          obtain ⟨data, script, file⟩ := fits.notFound rc member present
          refine ⟨data, script, ?_⟩
          rw [puts.same_names (rc_unlisted staging member present), same.inside, file]
    · intro tree isTree rel member present
      obtain ⟨⟨data, seen⟩, _⟩ := fits.staged tree isTree rel member present
      have listed : (rel, .file data) ∈ stagedNodes before staging ++ rcNodes before dtroot :=
        List.mem_append_left _ (mem_stagedNodes.mpr
          ⟨tree, isTree, member, stagedNode_eq_some_iff.mpr ⟨present, seen⟩⟩)
      exact ⟨data, stat_follow seen (by simp), puts.there separate listed⟩
    · intro names notRc notStaged
      by_cases top : names = []
      · have root : copied.node (f1d tmpdir) = some .directory := by
          have inside := same.inside []
          rw [place_nil, place_nil, workspace.validated] at inside
          exact inside
        rw [top, place_nil, place_nil, lasting _ _ root (by simp), workspace.validated]
      · rw [puts.same_names, same.inside]
        intro entry listed onWay
        cases List.mem_append.mp listed with
        | inl inStaging =>
            obtain ⟨tree, isTree, member, given⟩ := mem_stagedNodes.mp inStaging
            exact notStaged tree isTree entry.1 member (stagedNode_eq_some_iff.mp given).1 onWay
        | inr inRcs =>
            obtain ⟨rc, member, _, path⟩ := mem_nodesOf.mp inRcs
            rw [← path] at onWay
            cases List.prefix_concat_iff.mp (show names <+: [] ++ [rc] from onWay) with
            | inl whole => exact notRc rc member whole
            | inr shorter => exact top (List.prefix_nil.mp shorter)

/-! ### A validated tree with old scripts -/

/-- A validated tree with the scripts `old`, a staging tree with a recovery program
and a device tree with the scripts `new` under `rootdir`. -/
def scriptEntries (old new : Bytes) : List (Location × Node Bytes) :=
  [(["tmp"], .directory), (valF1d ["tmp"], .directory), (["staging"], .directory),
    (["dash"], .directory), (["rootdir", "dash"], .directory)] ++
    [["system"], ["system", "bin"]].map (fun names => (place ["staging"] names, .directory)) ++
    [(place ["staging"] ["system", "bin", "recovery"], .file [0x7f])] ++
    dtOverlayRcs.map (fun rc => (place (valF1d ["tmp"]) [rc], .file old)) ++
    dtOverlayRcs.map (fun rc => (place ["dash"] (rootdirNames rc), .file new))

def staleScripts : FileSystem Bytes := .ofEntries (scriptEntries [1] [2]) (by decide +kernel)

theorem staleScripts_unlinked (start : Location) (names : List Name) :
    Unlinked staleScripts start names :=
  unlinked_ofEntries _ (by decide +kernel) start names

theorem staleScripts_workspace : F1Workspace ["tmp"] (some ["staging"]) ["dash"] staleScripts where
  directory := by decide +kernel
  validated := by decide +kernel
  fresh := by decide +kernel
  stagingSettled := by
    intro tree isTree rel member
    cases isTree
    refine .of_unlinked (staleScripts_unlinked _ _) ?_
    revert member
    revert rel
    decide +kernel
  rcSettled := by
    intro rc member
    refine .of_unlinked (staleScripts_unlinked _ _) ?_
    revert member
    revert rc
    decide +kernel

theorem f1Transform_overlay_iff_staleScripts : ∃ after,
    f1Transform staleScripts ["tmp"] (some ["staging"]) ["dash"] = .ok after ∧
      (F1Overlay ["tmp"] (some ["staging"]) ["dash"] staleScripts after ↔
        F1Fits ["tmp"] (some ["staging"]) ["dash"] staleScripts) := by
  obtain ⟨after, made, _⟩ := ok_of_read
    (show (f1Transform staleScripts ["tmp"] (some ["staging"]) ["dash"]).toOption.map
      (fun _ => ()) = some () by decide +kernel)
  exact ⟨after, made, f1Transform_overlay_iff staleScripts_workspace made⟩

/-- The device tree has its scripts where this repository has them, and the packed
tree has the old ones. -/
theorem f1Transform_staleScripts :
    (∀ rc ∈ dtOverlayRcs,
      staleScripts.stat true ["dash"] (.ofNames (rootdirNames rc)) = .ok (.file [2])) ∧
    ∃ after, f1Transform staleScripts ["tmp"] (some ["staging"]) ["dash"] = .ok after ∧
      (∀ rc ∈ dtOverlayRcs, after.node (place (f1d ["tmp"]) [rc]) = some (.file [1])) ∧
      ¬ F1Overlay ["tmp"] (some ["staging"]) ["dash"] staleScripts after := by
  have scripts : ∀ rc ∈ dtOverlayRcs,
      staleScripts.stat true ["dash"] (.ofNames (rootdirNames rc)) = .ok (.file [2]) := by
    decide +kernel
  obtain ⟨after, made, nodes⟩ := ok_of_read
    (show (f1Transform staleScripts ["tmp"] (some ["staging"]) ["dash"]).toOption.map
      (fun after => dtOverlayRcs.map fun rc => after.node (place (f1d ["tmp"]) [rc])) =
        some (dtOverlayRcs.map fun _ => some (.file [1])) by decide +kernel)
  have packed := List.map_inj_left.mp nodes
  refine ⟨scripts, after, made, packed, fun overlay => ?_⟩
  have member : "init.recovery.mt6991.rc" ∈ dtOverlayRcs := by decide
  obtain ⟨data, script, file⟩ := overlay.rc _ member
  rw [scripts _ member] at script
  rw [packed _ member] at file
  cases script
  cases file

end DashTwrp.PrepareFragments

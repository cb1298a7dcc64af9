import DashTwrp.Python.Paired
import DashTwrp.Python.GuardedRemovals
import DashTwrp.RepackF1.Run

namespace DashTwrp.RepackF1

open DashTwrp.Python DashTwrp.Unix

/-! The merge on two trees that differ in what an earlier run has left under
`f1_dir` and in `f1_new.lz4`. -/

/-- What is hidden while the new tree is made: the CI tree is only copied from. -/
def covered : List Name := ["ci_dir", packedName]

variable {φ : Type}

theorem walkFiles_paired {dir start : Location} {names : List Name}
    {first second one other : FileSystem φ} (paired : Paired dir names first second one other)
    {listing : List Location} {top : PurePath} (clear : ¬ Hidden dir names start)
    (blind : Blind names top.steps)
    (listed : ∀ base, one.locate true start top = .ok base →
      ∀ inner ∈ descendants listing base, ∀ name ∈ names, name ∉ inner) :
    walkFiles listing one start top = walkFiles listing other start top := by
  obtain ⟨same, ends⟩ := paired.locate_clear true clear blind
  unfold walkFiles
  rw [← same]
  cases located : one.locate true start top with
  | error error => rfl
  | ok base =>
      refine List.filter_congr fun inner member => ?_
      obtain ⟨reversed, found, rfl⟩ := List.mem_map.mp member
      have seen : Blind names (PurePath.ofNames reversed.reverse).steps :=
        blind_ofNames.mpr fun name covers inside =>
          listed base located reversed found name covers (List.mem_reverse.mp inside)
      rw [paired.isDir (ends base located) seen]

section

variable {first second one other : FileSystem φ}

theorem f1Dir_clear : ¬ Hidden tmp covered (f1Dir tmp) := not_hidden_entry (by decide)

theorem tpDir_clear : ¬ Hidden tmp covered (tpDir tmp) := not_hidden_entry (by decide)

theorem tmp_clear {names : List Name} : ¬ Hidden tmp names tmp :=
  not_hidden_above (List.suffix_refl tmp)

theorem blind_sub {sub : List Name} (member : sub ∈ subs) :
    Blind covered (PurePath.ofNames sub).steps := by
  rw [blind_ofNames]
  revert member
  revert sub
  decide

theorem blind_core {f : Name} (member : f ∈ coreNames) :
    Blind covered (PurePath.ofNames (coreFile f)).steps := by
  rw [blind_ofNames]
  revert member
  revert f
  decide

/-- No directory of those names is around `/tmp`. -/
theorem sub_apart {sub : List Name} (member : sub ∈ subs) {fs : FileSystem φ} {location : Location}
    (located : fs.locate false (f1Dir tmp) (.ofNames sub) = .ok location) :
    ¬ location <:+ tmp := by
  have ends : location.head? = some "bin" ∨ location.head? = some "lib64" := by
    simp only [subs, List.mem_cons, List.not_mem_nil, or_false] at member
    cases member with
    | inl bin =>
        rw [bin] at located
        have last : location.head? = some "bin" :=
          locate_last (show fs.locate false (f1Dir tmp) (.ofNames (["system"] ++ ["bin"])) = _ from located)
        exact .inl last
    | inr lib64 =>
        rw [lib64] at located
        have last : location.head? = some "lib64" :=
          locate_last (show fs.locate false (f1Dir tmp) (.ofNames (["system"] ++ ["lib64"])) = _ from located)
        exact .inr last
  intro around
  have places : location = ["tmp"] ∨ location = [] := by
    rcases List.suffix_cons_iff.mp around with whole | outer
    · exact .inl whole
    · exact .inr (List.suffix_nil.mp outer)
  rcases places with rfl | rfl <;> simp at ends

theorem removeSub_paired (paired : Paired tmp covered first second one other) {sub : List Name}
    (member : sub ∈ subs) :
    PairedResults tmp covered first second (removeSub tmp one sub) (removeSub tmp other sub) :=
  removeTree_paired paired f1Dir_clear (blind_sub member) fun _ located => sub_apart member located

theorem removeCore_paired (paired : Paired tmp covered first second one other) {f : Name}
    (member : f ∈ coreNames) :
    PairedResults tmp covered first second (removeCore tmp one f) (removeCore tmp other f) := by
  unfold removeCore
  rw [← paired.pathExists f1Dir_clear (blind_core member)]
  split
  · exact osRemove_paired paired f1Dir_clear (blind_core member)
  · exact paired

/-- The CI tree is the same in both, has its two directories itself, and its links
lead to none of the working paths. -/
structure SameCi (first second : FileSystem φ) : Prop where
  same : ∀ inner, first.node (inner ++ ciDir tmp) = second.node (inner ++ ciDir tmp)
  links : ∀ inner target, first.node (inner ++ ciDir tmp) = some (.link target) →
    Blind covered target.steps
  subs : ∀ sub ∈ subs, Unlinked first (ciDir tmp) sub

theorem ci_hidden (inner : List Name) : Hidden tmp covered (inner ++ ciDir tmp) :=
  ⟨"ci_dir", by decide, List.suffix_append _ _⟩

theorem copySub_paired (paired : Paired tmp covered first second one other)
    (ci : SameCi first second) {sub : List Name} (member : sub ∈ subs) :
    PairedResults tmp covered first second (copySub tmp one sub) (copySub tmp other sub) := by
  have keptOne (inner : List Name) : one.node (inner ++ ciDir tmp) = first.node (inner ++ ciDir tmp) :=
    (paired.kept _ (ci_hidden inner)).1
  have keptOther (inner : List Name) :
      other.node (inner ++ ciDir tmp) = first.node (inner ++ ciDir tmp) := by
    rw [(paired.kept _ (ci_hidden inner)).2, ci.same]
  have unlinked : Unlinked one (ciDir tmp) sub := by
    intro front inside target found
    rw [place, keptOne] at found
    exact ci.subs sub member front inside target found
  have unlinkedOther : Unlinked other (ciDir tmp) sub := by
    intro front inside target found
    rw [place, keptOther] at found
    exact ci.subs sub member front inside target found
  have there : one.node (place (ciDir tmp) sub) = other.node (place (ciDir tmp) sub) := by
    rw [place, keptOne, keptOther]
  have exists_same : one.pathExists (ciDir tmp) (.ofNames sub) =
      other.pathExists (ciDir tmp) (.ofNames sub) := by
    rw [Bool.eq_iff_iff, unlinked.exists_iff, unlinkedOther.exists_iff, there]
  unfold copySub
  rw [← exists_same]
  split
  · rename_i present
    have found := unlinked.exists_iff.mp present
    have located {follow : Bool} : one.locate follow (ciDir tmp) (.ofNames sub) = _ :=
      unlinked.locate_present found
    rw [there] at found
    refine copytree_paired paired ?_ (fun origin origins inner => ?_) f1Dir_clear (blind_sub member)
    · rw [located, unlinkedOther.locate_present found]
    · rw [located] at origins
      cases origins
      rw [place, ← List.append_assoc, keptOne, keptOther]
      exact ⟨rfl, ci.links (inner ++ sub.reverse)⟩
  · exact paired

/-- The trees when the walk over the template's tree begins. -/
structure Extracted (one other : FileSystem φ) : Prop where
  paired : Paired tmp ("f1_dir" :: covered) one other one other
  ci : SameCi one other
  template : one.node (tpDir tmp) = some .directory
  left : one.node (f1Dir tmp) = none ∨ one.node (f1Dir tmp) = some .directory
  leftOther : other.node (f1Dir tmp) = none ∨ other.node (f1Dir tmp) = some .directory

/-- The new tree begins without what an earlier run has left. -/
theorem Extracted.cleared (extracted : Extracted one other) :
    ∃ cleared clearedOther, removeTree one tmp (.ofNames ["f1_dir"]) = .ok cleared ∧
      removeTree other tmp (.ofNames ["f1_dir"]) = .ok clearedOther ∧
      cleared.node (tpDir tmp) = some .directory ∧
      Paired tmp covered one other cleared clearedOther := by
  have directoryOther : other.node tmp = some .directory := by
    rw [← extracted.paired.same tmp tmp_clear]
    exact extracted.paired.directory
  obtain ⟨cleared, removed, without⟩ :=
    removeTree_entry extracted.paired.directory extracted.left
  obtain ⟨clearedOther, removedOther, withoutOther⟩ :=
    removeTree_entry directoryOther extracted.leftOther
  have unseen : Paired tmp ("f1_dir" :: covered) cleared clearedOther cleared clearedOther :=
    extracted.paired.unseen List.mem_cons_self (fun place off => by rw [without, if_neg off])
      fun place off => by rw [withoutOther, if_neg off]
  have revealed : Paired tmp covered cleared clearedOther cleared clearedOther :=
    unseen.reveal (fun place below => by rw [without, withoutOther, if_pos below, if_pos below])
      fun place target below found => by
        rw [without, if_pos below] at found
        cases found
  have template : cleared.node (tpDir tmp) = some .directory := by
    rw [without, if_neg (by decide)]
    exact extracted.template
  refine ⟨cleared, clearedOther, removed, removedOther, template, revealed.same, revealed.links,
    revealed.directory, fun place hidden => ?_⟩
  have off : ¬ "f1_dir" :: tmp <:+ place :=
    fun below => not_hidden_below f1Dir_clear (not_suffix_tail tmp) below hidden
  rw [without, withoutOther, if_neg off, if_neg off]
  exact ⟨rfl, rfl⟩

theorem mergedTree_paired (extracted : Extracted one other) :
    PairedResults tmp covered one other (mergedTree one tmp) (mergedTree other tmp) := by
  obtain ⟨cleared, clearedOther, removed, removedOther, template, paired⟩ := extracted.cleared
  unfold mergedTree
  rw [removed, removedOther]
  have copied : PairedResults tmp covered one other
      (copytree cleared tmp (.ofNames ["tp_dir"]) tmp (.ofNames ["f1_dir"]))
      (copytree clearedOther tmp (.ofNames ["tp_dir"]) tmp (.ofNames ["f1_dir"])) := by
    have blind : Blind covered (PurePath.ofNames ["tp_dir"]).steps := blind_ofNames.mpr (by decide)
    refine copytree_paired paired (paired.locate true tmp_clear blind) (fun origin origins inner => ?_)
      tmp_clear (blind_ofNames.mpr (by decide))
    rw [locate_entry paired.directory (by rw [show cleared.node ("tp_dir" :: tmp) = _ from template]; simp)]
      at origins
    cases origins
    have visible : ¬ Hidden tmp covered (inner ++ "tp_dir" :: tmp) :=
      not_hidden_below tpDir_clear (not_suffix_tail tmp) (List.suffix_append _ _)
    exact ⟨paired.same _ visible, fun target => paired.links _ target visible⟩
  have removes : ∀ sub ∈ subs, ∀ one' other', Paired tmp covered one other one' other' →
      PairedResults tmp covered one other (removeSub tmp one' sub) (removeSub tmp other' sub) :=
    fun sub member _ _ pair => removeSub_paired pair member
  have copies : ∀ sub ∈ subs, ∀ one' other', Paired tmp covered one other one' other' →
      PairedResults tmp covered one other (copySub tmp one' sub) (copySub tmp other' sub) :=
    fun sub member _ _ pair => copySub_paired pair extracted.ci member
  have cores : ∀ f ∈ coreNames, ∀ one' other', Paired tmp covered one other one' other' →
      PairedResults tmp covered one other (removeCore tmp one' f) (removeCore tmp other' f) :=
    fun f member _ _ pair => removeCore_paired pair member
  refine copied.bind fun fs fsOther _ pair => ?_
  refine (matches_foldlM removes pair).bind fun fs fsOther _ pair => ?_
  refine (matches_foldlM copies pair).bind fun fs fsOther _ pair => ?_
  exact matches_foldlM cores pair

/-- Paths of which no component is the name of a working path. -/
def Ordinary (rel : List Name) : Prop := ∀ name ∈ "f1_dir" :: covered, name ∉ rel

theorem Ordinary.blind {rel : List Name} (ordinary : Ordinary rel) :
    Blind covered (PurePath.ofNames rel).steps :=
  blind_ofNames.mpr fun name member => ordinary name (List.mem_cons_of_mem _ member)

theorem Ordinary.dropLast {rel : List Name} (ordinary : Ordinary rel) : Ordinary rel.dropLast :=
  fun name member inside => ordinary name member (List.dropLast_subset rel inside)

/-- A listing has, below a directory, ordinary paths only. -/
def OrdinaryBelow (top : Location) (listing : List Location) : Prop :=
  ∀ inner, inner ++ top ∈ listing → Ordinary inner

theorem walkF1_paired (paired : Paired tmp covered first second one other)
    {listing : List Location} (ordinary : OrdinaryBelow (f1Dir tmp) listing) :
    walkFiles listing one (f1Dir tmp) (.ofNames []) =
      walkFiles listing other (f1Dir tmp) (.ofNames []) := by
  refine walkFiles_paired paired f1Dir_clear (blind_ofNames.mpr (by simp)) ?_
  intro base located inner found name member
  cases located
  exact ordinary inner (mem_descendants.mp found).2 name (List.mem_cons_of_mem _ member)

theorem walkF1_ordinary {fs : FileSystem φ} {listing : List Location}
    (ordinary : OrdinaryBelow (f1Dir tmp) listing) {rel : List Name}
    (found : rel ∈ walkFiles listing fs (f1Dir tmp) (.ofNames [])) : Ordinary rel := by
  have listed := (List.mem_filter.mp found).1
  obtain ⟨inner, member, rfl⟩ := List.mem_map.mp listed
  intro name covers inside
  exact ordinary inner (mem_descendants.mp member).2 name covers (List.mem_reverse.mp inside)

theorem prunedTree_paired (paired : Paired tmp covered first second one other)
    {listing : List Location} (ordinary : OrdinaryBelow (f1Dir tmp) listing)
    (bins : List (List Name)) :
    PairedResults tmp covered first second (prunedTree listing bins tmp one)
      (prunedTree listing bins tmp other) := by
  unfold prunedTree
  rw [← walkF1_paired paired ordinary]
  refine matches_foldlM (fun rel member one' other' pair => ?_) paired
  unfold pruneFile
  split
  · exact osRemove_paired pair f1Dir_clear (walkF1_ordinary ordinary member).blind
  · exact pair

theorem restoreFile_paired (paired : Paired tmp covered first second one other)
    (ciNames : List (List Name)) {rel : List Name} (ordinary : Ordinary rel) :
    PairedResults tmp covered first second (restoreFile ciNames tmp one rel)
      (restoreFile ciNames tmp other rel) := by
  unfold restoreFile
  rw [← paired.lexists tpDir_clear ordinary.blind]
  split
  · exact paired
  · split
    · refine (makedirs_paired paired f1Dir_clear ordinary.dropLast.blind true).bind
        fun made madeOther _ pair => ?_
      have copied := copy2_paired pair tpDir_clear ordinary.blind f1Dir_clear ordinary.blind false
      rw [← pair.stat false tpDir_clear ordinary.blind]
      cases found : made.stat false (tpDir tmp) (.ofNames rel) with
      | error error => exact copied
      | ok node =>
          cases node with
          | link target =>
              have linkBlind : ∀ other, Node.link target = (.link other : Node φ) →
                  Blind covered other.steps := fun _ isLink => Node.link.inj isLink ▸
                    pair.link_blind tpDir_clear ordinary.blind found
              have linked := makeNode_paired pair f1Dir_clear ordinary.blind linkBlind
              simp only [map_eq_pure_bind]
              exact linked.bind fun _ _ _ pair => pair
          | directory => exact copied
          | file data => exact copied
    · exact paired

/-- The merge ends in the same error, or in trees that differ in what is hidden only. -/
theorem mergeF1_paired (extracted : Extracted one other)
    (unlinked : Unlinked one (tpDir tmp) ["system"])
    {tpListing mergedListing prunedListing : List Location} {order : List (List Name)}
    (tpOrdinary : OrdinaryBelow (tpDir tmp) tpListing)
    (mergedOrdinary : OrdinaryBelow (f1Dir tmp) mergedListing)
    (prunedOrdinary : OrdinaryBelow (f1Dir tmp) prunedListing)
    (orderOrdinary : ∀ rel ∈ order, Ordinary rel) :
    PairedResults tmp covered one other
      (mergeF1 tpListing mergedListing prunedListing order one tmp)
      (mergeF1 tpListing mergedListing prunedListing order other tmp) := by
  have walked : walkFiles tpListing one (tpDir tmp) (.ofNames ["system"]) =
      walkFiles tpListing other (tpDir tmp) (.ofNames ["system"]) := by
    refine walkFiles_paired extracted.paired (not_hidden_entry (by decide))
      (blind_ofNames.mpr (by decide)) fun base located inner found name member inside => ?_
    cases unlinked.locate_ends located
    have listed := (mem_descendants.mp found).2
    rw [show inner ++ place (tpDir tmp) ["system"] = (inner ++ ["system"]) ++ tpDir tmp by
      simp [place]] at listed
    exact tpOrdinary _ listed name member (List.mem_append_left _ inside)
  have bins : tpBins tpListing one tmp = tpBins tpListing other tmp := by
    rw [tpBins, tpBins, walked]
  unfold mergeF1
  rw [← bins]
  refine (mergedTree_paired extracted).bind fun merged mergedOther _ pair => ?_
  refine (prunedTree_paired pair mergedOrdinary _).bind fun pruned prunedOther _ pair => ?_
  rw [← walkF1_paired pair prunedOrdinary]
  refine matches_foldlM (fun rel member one' other' pair => ?_) pair
  exact restoreFile_paired pair _ (orderOrdinary rel member)

end

end DashTwrp.RepackF1

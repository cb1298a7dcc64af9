import DashTwrp.RepackF1.Merge

namespace DashTwrp.RepackF1

open DashTwrp.Python DashTwrp.Unix

/-! What each pass of the merge leaves, by paths relative to the three trees. -/

variable {φ : Type}

abbrev ciNode (fs : FileSystem φ) (tmp : Location) (names : List Name) : Option (Node φ) :=
  fs.node (place (ciDir tmp) names)

abbrev f1Node (fs : FileSystem φ) (tmp : Location) (names : List Name) : Option (Node φ) :=
  fs.node (place (f1Dir tmp) names)

/-- The trees that are merged: no link leads to their two directories, the core
components of the CI tree are files, the template's links under `system/bin` lead
to no directory, and what is not a directory there is none in the CI tree. -/
structure MergeInput (fs : FileSystem φ) (tmp : Location) : Prop where
  directory : fs.node tmp = some .directory
  template : fs.node (tpDir tmp) = some .directory
  noLink : ∀ target, fs.node (f1Dir tmp) ≠ some (.link target)
  templateSubs : ∀ sub ∈ subs, Unlinked fs (tpDir tmp) sub
  ciSubs : ∀ sub ∈ subs, Unlinked fs (ciDir tmp) sub
  core : ∀ f ∈ coreNames, ciNode fs tmp (coreFile f) = none ∨
    ∃ data, ciNode fs tmp (coreFile f) = some (.file data)
  templateLinks : ∀ rel target, UnderBin rel → tpNode fs tmp rel = some (.link target) →
    fs.isDir (tpDir tmp) (.ofNames rel) = false
  noClash : ∀ rel node, UnderBin rel → tpNode fs tmp rel = some node → node ≠ .directory →
    ciNode fs tmp rel ≠ some .directory

theorem ci_outside (tmp : Location) (names : List Name) :
    ¬ f1Dir tmp <:+ place (ciDir tmp) names :=
  sibling_outside (by decide) names

theorem tp_outside (tmp : Location) (names : List Name) :
    ¬ f1Dir tmp <:+ place (tpDir tmp) names :=
  sibling_outside (by decide) names

/-! ### The two directories -/

/-- A directory of the CI tree stands in the new tree. -/
structure SubCopied (tmp : Location) (sub : List Name) (before after : FileSystem φ) : Prop where
  outside : AgreeOutside (f1Dir tmp) before after
  inside : ∀ names, sub <+: names → f1Node after tmp names = ciNode before tmp names
  above : ∀ front, front <+: sub → front ≠ sub → ciNode before tmp sub ≠ none →
    f1Node after tmp front = some .directory
  absent : ciNode before tmp sub = none → after = before
  directory : ciNode before tmp sub ≠ none → ciNode before tmp sub = some .directory
  same : ∀ names, ¬ names <+: sub → ¬ sub <+: names →
    f1Node after tmp names = f1Node before tmp names

theorem copySub_ok {fs after : FileSystem φ} {tmp : Location} {sub : List Name}
    (source : Unlinked fs (ciDir tmp) sub) (target : Unlinked fs (f1Dir tmp) sub)
    (free : f1Node fs tmp sub = none) (copied : copySub tmp fs sub = .ok after) :
    SubCopied tmp sub fs after := by
  unfold copySub at copied
  split at copied
  · rename_i present
    have there := source.exists_iff.mp present
    have copy := copytree_ok source target copied
    constructor
    · intro other off
      apply copy.same
      · intro front _ equal
        exact off (equal ▸ suffix_place _ _)
      · exact fun below => off ((suffix_place _ _).trans below)
    · intro names inside
      obtain ⟨back, rfl⟩ := inside
      rw [ciNode, place_append]
      exact copy.inside back
    · exact fun front inside _ _ => copy.above inside
    · exact fun absent => absurd absent there
    · exact fun _ => copy.directory
    · intro names notAbove notBelow
      apply copy.same
      · intro front inside equal
        exact notAbove (place_inj.mp equal ▸ inside)
      · rwa [place_suffix_place]
  · rename_i absent
    have gone : ciNode fs tmp sub = none :=
      not_not.mp fun present => absent (source.exists_iff.mpr present)
    cases copied
    refine ⟨fun _ _ => rfl, ?_, fun _ _ _ present => absurd gone present, fun _ => rfl,
      fun present => absurd gone present, fun _ _ _ => rfl⟩
    intro names inside
    have nothing {base : Location} (top : fs.node (place base sub) = none) :
        fs.node (place base names) = none := by
      obtain ⟨back, rfl⟩ := inside
      by_cases whole : back = []
      · rw [whole, List.append_nil, top]
      · rw [place_append, place]
        exact fs.none_below back.reverse (by simpa using whole) (by rw [top]; simp)
    rw [f1Node, nothing free, ciNode, nothing gone]

/-- The new tree without its two directories. -/
structure Emptied (tmp : Location) (before after : FileSystem φ) : Prop where
  outside : AgreeOutside (f1Dir tmp) before after
  gone : ∀ sub ∈ subs, ∀ names, sub <+: names → f1Node after tmp names = none
  same : ∀ names, (∀ sub ∈ subs, ¬ sub <+: names) → f1Node after tmp names = tpNode before tmp names

theorem removeSubs_ok {fs copied after : FileSystem φ} {tmp : Location} (input : MergeInput fs tmp)
    (inside : ∀ names, f1Node copied tmp names = tpNode fs tmp names)
    (outside : AgreeOutside (f1Dir tmp) fs copied)
    (removed : subs.foldlM (removeSub tmp) copied = .ok after) : Emptied tmp fs after := by
  have dropped : Dropped (fun other => ∃ sub ∈ subs, True ∧ place (f1Dir tmp) sub <:+ other)
      copied after := by
    refine dropped_of_foldlM (fun current next sub member kept step => ?_) removed
    have unlinked : Unlinked copied (f1Dir tmp) sub := by
      intro front within target
      change f1Node copied tmp front ≠ _
      rw [inside]
      exact input.templateSubs sub member front within target
    exact ⟨fun _ => (removeTree_ok (unlinked.of_noNewLinks kept) step).1,
      fun no => absurd trivial no⟩
  constructor
  · intro other off
    rw [dropped.same, outside other off]
    intro gone
    obtain ⟨sub, _, _, below⟩ := gone
    exact off ((suffix_place _ _).trans below)
  · intro sub member names below
    exact dropped.absent _ ⟨sub, member, trivial, place_suffix_place.mpr below⟩
  · intro names off
    rw [← inside, f1Node, dropped.same]
    intro gone
    obtain ⟨sub, member, _, below⟩ := gone
    exact off sub member (place_suffix_place.mp below)

theorem prefix_pair {first second : Name} {front : List Name} :
    front <+: [first, second] ↔ front = [] ∨ front = [first] ∨ front = [first, second] := by
  constructor
  · intro inside
    cases List.prefix_concat_iff.mp (show front <+: [first] ++ [second] from inside) with
    | inl whole => exact .inr (.inr whole)
    | inr shorter =>
        cases List.prefix_concat_iff.mp (show front <+: [] ++ [first] from shorter) with
        | inl single => exact .inr (.inl single)
        | inr empty => exact .inl (List.prefix_nil.mp empty)
  · rintro (rfl | rfl | rfl)
    · exact List.nil_prefix
    · exact ⟨[second], rfl⟩
    · exact List.prefix_refl _

/-- The directories of the new tree above its two. -/
structure TopFolders (tmp : Location) (fs : FileSystem φ) : Prop where
  top : f1Node fs tmp [] = some .directory
  system : ∀ target, f1Node fs tmp ["system"] ≠ some (.link target)

theorem sub_front {sub front : List Name} (member : sub ∈ subs) :
    front <+: sub ↔ front = [] ∨ front = ["system"] ∨ front = sub := by
  simp only [subs, List.mem_cons, List.not_mem_nil, or_false] at member
  cases member with
  | inl bin => exact bin ▸ prefix_pair
  | inr lib64 => exact lib64 ▸ prefix_pair

theorem TopFolders.unlinked {tmp : Location} {fs : FileSystem φ} (folders : TopFolders tmp fs)
    {sub : List Name} (member : sub ∈ subs)
    (plain : ∀ target, f1Node fs tmp sub ≠ some (.link target)) :
    Unlinked fs (f1Dir tmp) sub := by
  intro front inside target
  rcases (sub_front member).mp inside with rfl | rfl | rfl
  · change f1Node fs tmp [] ≠ _
    rw [folders.top]
    simp
  · exact folders.system target
  · exact plain target

theorem not_sub_top {sub : List Name} (member : sub ∈ subs) : [] ≠ sub ∧ ["system"] ≠ sub := by
  revert member
  revert sub
  decide

theorem TopFolders.of_subCopied {tmp : Location} {sub : List Name} {before after : FileSystem φ}
    (folders : TopFolders tmp before) (member : sub ∈ subs)
    (copied : SubCopied tmp sub before after) : TopFolders tmp after := by
  by_cases present : ciNode before tmp sub = none
  · rw [copied.absent present]
    exact folders
  · constructor
    · exact copied.above [] List.nil_prefix (not_sub_top member).1 present
    · intro target
      rw [copied.above ["system"] ((sub_front member).mpr (.inr (.inl rfl)))
        (not_sub_top member).2 present]
      simp

theorem Emptied.folders {tmp : Location} {before after : FileSystem φ}
    (emptied : Emptied tmp before after) (input : MergeInput before tmp) : TopFolders tmp after where
  top := by
    rw [emptied.same [] (by decide)]
    exact input.template
  system := by
    intro target
    rw [emptied.same ["system"] (by decide)]
    exact input.templateSubs binNames (by decide) ["system"] (by decide) target

/-- The new tree with the two directories of the CI tree. -/
structure Filled (tmp : Location) (before after : FileSystem φ) : Prop where
  outside : AgreeOutside (f1Dir tmp) before after
  folders : TopFolders tmp after
  directory : ∀ sub ∈ subs, ciNode before tmp sub ≠ none → ciNode before tmp sub = some .directory
  sub : ∀ sub ∈ subs, ∀ names, sub <+: names → f1Node after tmp names = ciNode before tmp names
  system : (∃ sub ∈ subs, ciNode before tmp sub ≠ none) →
    f1Node after tmp ["system"] = some .directory
  noSub : (∀ sub ∈ subs, ciNode before tmp sub = none) →
    f1Node after tmp ["system"] = tpNode before tmp ["system"]
  other : ∀ names, names ≠ ["system"] → (∀ sub ∈ subs, ¬ sub <+: names) →
    f1Node after tmp names = tpNode before tmp names

theorem ci_same {tmp : Location} {before after : FileSystem φ}
    (outside : AgreeOutside (f1Dir tmp) before after) (names : List Name) :
    ciNode after tmp names = ciNode before tmp names :=
  outside _ (ci_outside tmp names)

theorem lib64_apart_bin : Separate binNames lib64Names := by decide

theorem copySubs_ok {before emptied after : FileSystem φ} {tmp : Location}
    (input : MergeInput before tmp) (empty : Emptied tmp before emptied)
    (copied : subs.foldlM (copySub tmp) emptied = .ok after) : Filled tmp before after := by
  rw [subs, List.foldlM_cons] at copied
  obtain ⟨between, first, copied⟩ := except_bind_eq_ok copied
  rw [List.foldlM_cons] at copied
  obtain ⟨final, second, done⟩ := except_bind_eq_ok copied
  cases done
  have ciUnlinked {fs : FileSystem φ} (outside : AgreeOutside (f1Dir tmp) before fs)
      {sub : List Name} (member : sub ∈ subs) : Unlinked fs (ciDir tmp) sub :=
    (input.ciSubs sub member).of_agreeOutside outside (ci_outside tmp sub)
  have folders := empty.folders input
  have inBin : binNames ∈ subs := by decide
  have inLib64 : lib64Names ∈ subs := by decide
  have binFree : f1Node emptied tmp binNames = none :=
    empty.gone binNames inBin _ (List.prefix_refl _)
  have bin := copySub_ok (ciUnlinked empty.outside inBin)
    (folders.unlinked inBin fun target => by rw [binFree]; simp) binFree first
  have betweenFolders := folders.of_subCopied inBin bin
  have betweenOutside := empty.outside.trans bin.outside
  have lib64Free : f1Node between tmp lib64Names = none := by
    rw [bin.same lib64Names lib64_apart_bin.2 lib64_apart_bin.1]
    exact empty.gone lib64Names inLib64 _ (List.prefix_refl _)
  have lib64 := copySub_ok (ciUnlinked betweenOutside inLib64)
    (betweenFolders.unlinked inLib64 fun target => by rw [lib64Free]; simp) lib64Free second
  have ciBetween (names : List Name) : ciNode between tmp names = ciNode before tmp names :=
    ci_same betweenOutside names
  have ciEmptied (names : List Name) : ciNode emptied tmp names = ciNode before tmp names :=
    ci_same empty.outside names
  have finalFolders := betweenFolders.of_subCopied inLib64 lib64
  have binDirectory := bin.directory
  have lib64Directory := lib64.directory
  rw [ciEmptied] at binDirectory
  rw [ciBetween] at lib64Directory
  constructor
  · exact betweenOutside.trans lib64.outside
  · exact finalFolders
  · simp only [subs, List.forall_mem_cons, List.not_mem_nil, false_implies, implies_true, and_true]
    exact ⟨binDirectory, lib64Directory⟩
  · intro sub member names below
    simp only [subs, List.mem_cons, List.not_mem_nil, or_false] at member
    cases member with
    | inl isBin =>
        subst isBin
        have notAbove : ¬ names <+: lib64Names := fun above =>
          lib64_apart_bin.1 (below.trans above)
        rw [lib64.same names notAbove (lib64_apart_bin.not_below below), bin.inside names below,
          ciEmptied]
    | inr isLib64 =>
        subst isLib64
        rw [lib64.inside names below, ciBetween]
  · intro present
    by_cases inLib : ciNode before tmp lib64Names = none
    · rw [lib64.absent (by rw [ciBetween]; exact inLib)]
      apply bin.above ["system"] ⟨["bin"], rfl⟩ (by decide)
      rw [ciEmptied]
      intro noBin
      obtain ⟨sub, member, there⟩ := present
      simp only [subs, List.mem_cons, List.not_mem_nil, or_false] at member
      cases member with
      | inl isBin => exact there (isBin ▸ noBin)
      | inr isLib64 => exact there (isLib64 ▸ inLib)
    · apply lib64.above ["system"] ⟨["lib64"], rfl⟩ (by decide)
      rw [ciBetween]
      exact inLib
  · intro none
    rw [lib64.absent (by rw [ciBetween]; exact none _ inLib64),
      bin.absent (by rw [ciEmptied]; exact none _ inBin), empty.same ["system"] (by decide)]
  · intro names notSystem off
    by_cases top : names = []
    · rw [top, finalFolders.top]
      exact input.template.symm
    · have notAbove (sub : List Name) (member : sub ∈ subs) : ¬ names <+: sub := by
        intro above
        rcases (sub_front member).mp above with empty | system | whole
        · exact top empty
        · exact notSystem system
        · exact off sub member (whole ▸ List.prefix_refl _)
      rw [lib64.same names (notAbove _ inLib64) (off _ inLib64),
        bin.same names (notAbove _ inBin) (off _ inBin), empty.same names off]

/-! ### The core components -/

/-- The path is that of a core component, or below it. -/
def InCore (names : List Name) : Prop := ∃ f ∈ coreNames, coreFile f <+: names

instance (names : List Name) : Decidable (InCore names) :=
  inferInstanceAs (Decidable (∃ f ∈ coreNames, coreFile f <+: names))

theorem InCore.below_bin {names : List Name} (core : InCore names) : binNames <+: names := by
  obtain ⟨f, _, below⟩ := core
  exact (List.prefix_append binNames [f]).trans below

/-- The merged tree in front of the walk that prunes it. -/
structure Merged (tmp : Location) (before after : FileSystem φ) : Prop where
  outside : AgreeOutside (f1Dir tmp) before after
  directory : ∀ sub ∈ subs, ciNode before tmp sub ≠ none → ciNode before tmp sub = some .directory
  core : ∀ names, InCore names → f1Node after tmp names = none
  sub : ∀ sub ∈ subs, ∀ names, sub <+: names → ¬ InCore names →
    f1Node after tmp names = ciNode before tmp names
  system : (∃ sub ∈ subs, ciNode before tmp sub ≠ none) →
    f1Node after tmp ["system"] = some .directory
  noSub : (∀ sub ∈ subs, ciNode before tmp sub = none) →
    f1Node after tmp ["system"] = tpNode before tmp ["system"]
  other : ∀ names, names ≠ ["system"] → (∀ sub ∈ subs, ¬ sub <+: names) →
    f1Node after tmp names = tpNode before tmp names

theorem Filled.core_unlinked {before fs : FileSystem φ} {tmp : Location}
    (filled : Filled tmp before fs) (input : MergeInput before tmp) {f : Name}
    (member : f ∈ coreNames) : Unlinked fs (f1Dir tmp) (coreFile f) := by
  have inBin : binNames ∈ subs := by decide
  apply unlinked_concat
  · apply filled.folders.unlinked inBin
    intro target
    rw [filled.sub binNames inBin binNames (List.prefix_refl _)]
    exact input.ciSubs binNames inBin binNames (List.prefix_refl _) target
  · intro target
    change f1Node fs tmp (coreFile f) ≠ _
    rw [filled.sub binNames inBin (coreFile f) (List.prefix_append _ _)]
    cases input.core f member with
    | inl absent =>
        rw [absent]
        simp
    | inr file =>
        obtain ⟨data, found⟩ := file
        rw [found]
        simp

theorem removeCores_ok {before fs after : FileSystem φ} {tmp : Location}
    (input : MergeInput before tmp) (filled : Filled tmp before fs)
    (removed : coreNames.foldlM (removeCore tmp) fs = .ok after) : Merged tmp before after := by
  have dropped : Dropped
      (fun other => ∃ f ∈ coreNames, True ∧ place (f1Dir tmp) (coreFile f) <:+ other) fs after := by
    refine dropped_of_foldlM (fun current next f member kept step => ?_) removed
    refine ⟨fun _ => ?_, fun no => absurd trivial no⟩
    have unlinked := (filled.core_unlinked input member).of_noNewLinks kept
    unfold removeCore at step
    split at step
    · exact osRemove_ok (unlinked.prefix_of (List.prefix_append _ _)) step
    · rename_i absent
      cases step
      exact without_of_absent (not_not.mp fun present => absent (unlinked.exists_iff.mpr present))
  have kept {names : List Name} (notCore : ¬ InCore names) :
      f1Node after tmp names = f1Node fs tmp names := by
    apply dropped.same
    intro gone
    obtain ⟨f, member, _, below⟩ := gone
    exact notCore ⟨f, member, place_suffix_place.mp below⟩
  have outsideBin {names : List Name} (off : ¬ binNames <+: names) :
      f1Node after tmp names = f1Node fs tmp names :=
    kept fun core => off core.below_bin
  constructor
  · intro other off
    rw [dropped.same, filled.outside other off]
    intro gone
    obtain ⟨f, _, _, below⟩ := gone
    exact off ((suffix_place _ _).trans below)
  · exact filled.directory
  · intro names core
    obtain ⟨f, member, below⟩ := core
    exact dropped.absent _ ⟨f, member, trivial, place_suffix_place.mpr below⟩
  · intro sub member names below notCore
    rw [kept notCore, filled.sub sub member names below]
  · intro present
    rw [outsideBin (by decide), filled.system present]
  · intro none
    rw [outsideBin (by decide), filled.noSub none]
  · intro names notSystem off
    rw [outsideBin (off binNames (by decide)), filled.other names notSystem off]

theorem mergedTree_ok {before merged : FileSystem φ} {tmp : Location}
    (input : MergeInput before tmp) (made : mergedTree before tmp = .ok merged) :
    Merged tmp before merged := by
  obtain ⟨cleared, removed, made⟩ := except_bind_eq_ok made
  obtain ⟨copied, tree, made⟩ := except_bind_eq_ok made
  obtain ⟨emptied, subsRemoved, made⟩ := except_bind_eq_ok made
  obtain ⟨filled, subsCopied, coresRemoved⟩ := except_bind_eq_ok made
  obtain ⟨inside, outside⟩ :=
    copied_afresh input.directory input.template input.noLink (by decide) removed tree
  exact removeCores_ok input
    (copySubs_ok input (removeSubs_ok input inside outside subsRemoved) subsCopied) coresRemoved

end DashTwrp.RepackF1

import DashTwrp.RepackF1.Walks
import DashTwrp.Python.Slices

namespace DashTwrp.RepackF1

open DashTwrp.Python DashTwrp.Unix

/-! The tree that the merge leaves, in whatever order the directories and the set of
the template's files are read. -/

variable {φ : Type}

/-- `rel` is the path of a core component. -/
def IsCore (rel : List Name) : Prop := ∃ f ∈ coreNames, rel = coreFile f

/-- A path under `system/bin` at which the template's node is put back. -/
def Restored (fs : FileSystem φ) (tmp : Location) (rel : List Name) : Prop :=
  UnderBin rel ∧ IsLeaf (tpNode fs tmp rel) ∧ (IsCore rel ∨ ciNode fs tmp rel = none)

/-- The merged tree. -/
structure MergeResult (tmp : Location) (before after : FileSystem φ) : Prop where
  outside : AgreeOutside (f1Dir tmp) before after
  bin : ∀ rel, UnderBin rel →
    (IsLeaf (f1Node after tmp rel) ↔ IsLeaf (tpNode before tmp rel))
  fromCi : ∀ rel, UnderBin rel → IsLeaf (tpNode before tmp rel) → ciNode before tmp rel ≠ none →
    ¬ IsCore rel → f1Node after tmp rel = ciNode before tmp rel
  fromTemplate : ∀ rel, Restored before tmp rel → f1Node after tmp rel = tpNode before tmp rel
  binDirectory : ∀ names, binNames <+: names →
    (f1Node after tmp names = some .directory ↔
      ciNode before tmp names = some .directory ∨
        ∃ rel, Restored before tmp rel ∧ names <+: rel ∧ names ≠ rel)
  lib64 : ∀ names, lib64Names <+: names → f1Node after tmp names = ciNode before tmp names
  system : (∃ sub ∈ subs, ciNode before tmp sub ≠ none) →
    f1Node after tmp ["system"] = some .directory
  noSub : (∀ sub ∈ subs, ciNode before tmp sub = none) →
    f1Node after tmp ["system"] = tpNode before tmp ["system"]
  other : ∀ names, names ≠ ["system"] → (∀ sub ∈ subs, ¬ sub <+: names) →
    f1Node after tmp names = tpNode before tmp names

/-- The walks list the trees that they go through, `order` goes once through
`tp_bins`, and the links of the merged tree under `system/bin` lead to no directory. -/
structure MergeWalks (tpListing mergedListing prunedListing : List Location)
    (order : List (List Name)) (before : FileSystem φ) (tmp : Location) : Prop where
  template : Lists tpListing before
  merged : ∀ merged, mergedTree before tmp = .ok merged → Lists mergedListing merged
  pruned : ∀ merged pruned, mergedTree before tmp = .ok merged →
    prunedTree mergedListing (tpBins tpListing before tmp) tmp merged = .ok pruned →
      Lists prunedListing pruned
  once : order.Nodup
  order : ∀ rel, rel ∈ order ↔ rel ∈ tpBins tpListing before tmp
  links : ∀ merged, mergedTree before tmp = .ok merged → ∀ rel, UnderBin rel →
    LinkOff merged (f1Dir tmp) rel

/-- Below a core component of the CI tree nothing lies. -/
theorem inCore_iff {before : FileSystem φ} {tmp : Location} (input : MergeInput before tmp)
    {rel : List Name} (present : ciNode before tmp rel ≠ none) : InCore rel ↔ IsCore rel := by
  constructor
  · intro core
    obtain ⟨f, member, below⟩ := core
    refine ⟨f, member, ?_⟩
    by_contra proper
    apply present
    cases input.core f member with
    | inl absent =>
        obtain ⟨back, rfl⟩ := below
        rw [ciNode, place_append, place]
        exact before.none_below back.reverse (by simpa using proper) (by
          change ciNode before tmp (coreFile f) ≠ _
          rw [absent]
          simp)
    | inr file =>
        obtain ⟨data, found⟩ := file
        have leaf : IsLeaf (ciNode before tmp (coreFile f)) := by
          rw [found]
          exact ⟨by simp, by simp⟩
        exact nothing_below_leaf leaf below proper
  · intro core
    obtain ⟨f, member, rfl⟩ := core
    exact ⟨f, member, List.prefix_refl _⟩

section

variable {tpListing mergedListing prunedListing : List Location} {order : List (List Name)}
  {before merged pruned : FileSystem φ} {tmp : Location}

/-- What the pruned tree has under `system/bin`. -/
structure PrunedBin (before pruned : FileSystem φ) (tmp : Location) : Prop where
  leaf : ∀ rel, UnderBin rel → (IsLeaf (f1Node pruned tmp rel) ↔
    IsLeaf (tpNode before tmp rel) ∧ ¬ IsCore rel ∧ ciNode before tmp rel ≠ none)
  same : ∀ rel, UnderBin rel → IsLeaf (f1Node pruned tmp rel) →
    f1Node pruned tmp rel = ciNode before tmp rel
  directory : ∀ names, binNames <+: names →
    (f1Node pruned tmp names = some .directory ↔ ciNode before tmp names = some .directory)

theorem prunedBin_ok (input : MergeInput before tmp)
    (tree : Merged tmp before merged) (lists : Lists tpListing before)
    (prune : Pruned (tpBins tpListing before tmp) tmp merged pruned) :
    PrunedBin before pruned tmp := by
  have inBin : binNames ∈ subs := by decide
  have mergedNode {rel : List Name} (below : binNames <+: rel) :
      f1Node merged tmp rel = none ∨ f1Node merged tmp rel = ciNode before tmp rel := by
    by_cases core : InCore rel
    · exact .inl (tree.core rel core)
    · exact .inr (tree.sub binNames inBin rel below core)
  constructor
  · intro rel under
    constructor
    · intro leaf
      have kept : ¬ Prunable (tpBins tpListing before tmp) tmp merged rel := by
        intro prunable
        exact leaf.1 (prune.gone rel prunable)
      rw [prune.same rel kept] at leaf
      have inBins : rel ∈ tpBins tpListing before tmp := by
        by_contra missing
        exact kept ⟨under, missing, leaf⟩
      have notCore : ¬ InCore rel := fun core => leaf.1 (tree.core rel core)
      have present : ciNode before tmp rel ≠ none := by
        rw [← tree.sub binNames inBin rel under.1 notCore]
        exact leaf.1
      exact ⟨((mem_tpBins input lists).mp inBins).2,
        fun core => notCore ((inCore_iff input present).mpr core), present⟩
    · intro given
      obtain ⟨leaf, notCore, present⟩ := given
      have kept : ¬ Prunable (tpBins tpListing before tmp) tmp merged rel :=
        fun prunable => prunable.2.1 ((mem_tpBins input lists).mpr ⟨under, leaf⟩)
      rw [prune.same rel kept, tree.sub binNames inBin rel under.1
        (fun core => notCore ((inCore_iff input present).mp core))]
      refine ⟨present, fun directory => ?_⟩
      obtain ⟨node, found⟩ := Option.ne_none_iff_exists'.mp leaf.1
      exact input.noClash rel node under found
        (fun same => leaf.2 (by rw [found, same])) directory
  · intro rel under leaf
    have kept : ¬ Prunable (tpBins tpListing before tmp) tmp merged rel :=
      fun prunable => leaf.1 (prune.gone rel prunable)
    rw [prune.same rel kept] at leaf ⊢
    exact (mergedNode under.1).resolve_left leaf.1
  · intro names below
    constructor
    · intro directory
      have kept : ¬ Prunable (tpBins tpListing before tmp) tmp merged names := by
        intro prunable
        rw [prune.gone names prunable] at directory
        cases directory
      rw [prune.same names kept] at directory
      cases mergedNode below with
      | inl absent =>
          rw [absent] at directory
          cases directory
      | inr same => rw [← same, directory]
    · intro directory
      have notCore : ¬ InCore names := by
        intro core
        obtain ⟨f, member, rfl⟩ := (inCore_iff input (by rw [directory]; simp)).mp core
        cases input.core f member with
        | inl absent =>
            rw [absent] at directory
            cases directory
        | inr file =>
            obtain ⟨data, found⟩ := file
            rw [found] at directory
            cases directory
      have isDirectory : f1Node merged tmp names = some .directory := by
        rw [tree.sub binNames inBin names below notCore, directory]
      rw [prune.same names fun prunable => prunable.2.2.2 isDirectory, isDirectory]

/-- Above a node of the template are directories. -/
theorem template_above {rel front : List Name} (present : tpNode before tmp rel ≠ none)
    (inside : front <+: rel) (proper : front ≠ rel) :
    tpNode before tmp front = some .directory := by
  obtain ⟨back, rfl⟩ := inside
  rw [tpNode, place_append, place] at present
  exact before.directory_above back.reverse (by simpa using proper) present

theorem separate_leaves {first second : List Name} (firstLeaf : IsLeaf (tpNode before tmp first))
    (secondLeaf : IsLeaf (tpNode before tmp second)) (different : first ≠ second) :
    Separate first second :=
  ⟨fun below => firstLeaf.2 (template_above secondLeaf.1 below different),
    fun below => secondLeaf.2 (template_above firstLeaf.1 below different.symm)⟩

/-- A part of the path of a file under `system/bin` is under it or above it. -/
theorem front_of_underBin {rel front : List Name} (under : UnderBin rel) (inside : front <+: rel) :
    UnderBin front ∨ front = [] ∨ front = ["system"] ∨ front = binNames := by
  by_cases whole : front = binNames
  · exact .inr (.inr (.inr whole))
  · cases List.prefix_or_prefix_of_prefix inside under.1 with
    | inl above => exact .inr ((sub_front (by decide)).mp above)
    | inr below => exact .inl ⟨below, whole⟩

theorem restored_ready (input : MergeInput before tmp) (tree : Merged tmp before merged)
    (lists : Lists tpListing before)
    (prune : Pruned (tpBins tpListing before tmp) tmp merged pruned) {rel : List Name}
    (restored : Restored before tmp rel) : Ready (f1Dir tmp) rel pruned := by
  have bin := prunedBin_ok input tree lists prune
  obtain ⟨under, leaf, missing⟩ := restored
  have notLeaf : ¬ IsLeaf (f1Node pruned tmp rel) := by
    intro isLeaf
    obtain ⟨_, notCore, present⟩ := (bin.leaf rel under).mp isLeaf
    exact missing.elim notCore present
  have kept {names : List Name} (off : ¬ UnderBin names) :
      f1Node pruned tmp names = f1Node merged tmp names :=
    prune.same names fun prunable => off prunable.1
  constructor
  · intro front inside target found
    have isLink : IsLeaf (f1Node pruned tmp front) := by
      rw [f1Node, found]
      exact ⟨by simp, by simp⟩
    rcases front_of_underBin under inside with frontUnder | rfl | rfl | rfl
    · by_cases whole : front = rel
      · exact notLeaf (whole ▸ isLink)
      · exact ((bin.leaf front frontUnder).mp isLink).1.2 (template_above leaf.1 inside whole)
    · rw [kept (by decide), tree.other [] (by decide) (by decide)] at isLink
      exact isLink.2 input.template
    · rw [kept (by decide)] at isLink
      by_cases present : ∃ sub ∈ subs, ciNode before tmp sub ≠ none
      · exact isLink.2 (tree.system present)
      · rw [tree.noSub fun sub member => not_not.mp fun there => present ⟨sub, member, there⟩]
          at isLink
        exact isLink.2 (template_above leaf.1 inside (by rintro rfl; exact absurd under.1 (by decide)))
    · have notCore : ¬ InCore binNames := by decide
      rw [kept (by decide), tree.sub binNames (by decide) _ (List.prefix_refl _) notCore] at isLink
      exact isLink.2 (tree.directory binNames (by decide) isLink.1)
  · intro directory
    obtain ⟨node, found⟩ := Option.ne_none_iff_exists'.mp leaf.1
    exact input.noClash rel node under found (fun same => leaf.2 (by rw [found, same]))
      ((bin.directory rel under.1).mp directory)

/-- The last loop put back what was missing, and nothing else. -/
structure PutBack (before pruned after : FileSystem φ) (tmp : Location) : Prop where
  there : ∀ rel, Restored before tmp rel → f1Node after tmp rel = tpNode before tmp rel
  above : ∀ front, (∃ rel, Restored before tmp rel ∧ front <+: rel ∧ front ≠ rel) →
    f1Node after tmp front = some .directory
  same : ∀ names, (∀ rel, Restored before tmp rel → ¬ names <+: rel) →
    f1Node after tmp names = f1Node pruned tmp names
  outside : AgreeOutside (f1Dir tmp) pruned after

theorem putBack_ok {after : FileSystem φ} (input : MergeInput before tmp)
    (tree : Merged tmp before merged) (templateLists : Lists tpListing before)
    (prune : Pruned (tpBins tpListing before tmp) tmp merged pruned)
    (links : ∀ rel, UnderBin rel → LinkOff merged (f1Dir tmp) rel)
    (prunedLists : Lists prunedListing pruned) (once : order.Nodup)
    (inOrder : ∀ rel, rel ∈ order ↔ rel ∈ tpBins tpListing before tmp)
    (made : order.foldlM
      (restoreFile (walkFiles prunedListing pruned (f1Dir tmp) (.ofNames [])) tmp) pruned =
        .ok after) : PutBack before pruned after tmp := by
  have bin := prunedBin_ok input tree templateLists prune
  have located : pruned.locate true (f1Dir tmp) (.ofNames []) = .ok (f1Dir tmp) := rfl
  generalize ciNamesEq : walkFiles prunedListing pruned (f1Dir tmp) (.ofNames []) = ciNames at made
  have inTemplate {rel : List Name} : rel ∈ order ↔ UnderBin rel ∧ IsLeaf (tpNode before tmp rel) := by
    rw [inOrder, mem_tpBins input templateLists]
  have isMissing {rel : List Name} (member : rel ∈ order) :
      rel ∉ ciNames ↔ Restored before tmp rel := by
    obtain ⟨under, leaf⟩ := inTemplate.mp member
    rw [← ciNamesEq, mem_walkFiles prunedLists located ((links rel under).of_extends prune.smaller),
      and_iff_right (underBin_ne_nil under)]
    change ¬ IsLeaf (f1Node pruned tmp rel) ↔ _
    rw [bin.leaf rel under]
    constructor
    · intro missing
      refine ⟨under, leaf, ?_⟩
      by_contra neither
      exact missing ⟨leaf, fun core => neither (.inl core), fun absent => neither (.inr absent)⟩
    · intro restored given
      exact restored.2.2.elim given.2.1 given.2.2
  have separate : (order.map id).Pairwise Separate := by
    rw [List.map_id]
    refine List.Pairwise.imp_of_mem (fun firstIn secondIn different => ?_) once
    exact separate_leaves (inTemplate.mp firstIn).2 (inTemplate.mp secondIn).2 different
  have puts : Puts (f1Dir tmp) (nodesOf id (restoredNode before tmp ciNames) order) pruned after := by
    refine puts_of_foldlM separate ?_ (fun _ _ => rfl) ?_ made
    · intro current next rel member outside ready step
      by_cases listed : rel ∈ ciNames
      · rw [restoreFile, if_pos listed] at step
        cases step
        simp [restoredNode, listed]
      · obtain ⟨under, leaf⟩ := inTemplate.mp member
        have isNode : restoredNode before tmp ciNames rel = tpNode before tmp rel := if_neg listed
        rw [isNode] at ready ⊢
        refine ⟨fun node found => ?_, fun absent => absurd absent leaf.1⟩
        have split := List.dropLast_append_getLast (underBin_ne_nil under)
        have templateOutside : AgreeOutside (f1Dir tmp) before current :=
          (tree.outside.trans prune.outside).trans outside
        have readyRel := ready (by rw [found]; simp)
        rw [id, ← split] at readyRel ⊢
        rw [← split] at step found listed
        exact restoreFile_put found listed templateOutside readyRel step
    · intro rel member present
      have listed : rel ∉ ciNames := fun listed => present (if_pos listed)
      exact restored_ready input tree templateLists prune ((isMissing member).mp listed)
  have entries {rel : List Name} {node : Node φ} :
      (rel, node) ∈ nodesOf id (restoredNode before tmp ciNames) order ↔
        Restored before tmp rel ∧ tpNode before tmp rel = some node := by
    rw [mem_nodesOf]
    constructor
    · intro found
      obtain ⟨item, member, given, path⟩ := found
      obtain rfl : item = rel := path
      have listed : item ∉ ciNames := by
        intro listed
        rw [restoredNode, if_pos listed] at given
        cases given
      rw [restoredNode, if_neg listed] at given
      exact ⟨(isMissing member).mp listed, given⟩
    · intro found
      have member : rel ∈ order := inTemplate.mpr ⟨found.1.1, found.1.2.1⟩
      refine ⟨rel, member, ?_, rfl⟩
      rw [restoredNode, if_neg ((isMissing member).mpr found.1)]
      exact found.2
  have separateNodes := separate.sublist (nodesOf_sublist id (restoredNode before tmp ciNames) order)
  have thereAfter : ∀ rel, Restored before tmp rel →
      f1Node after tmp rel = tpNode before tmp rel := by
    intro rel restored
    obtain ⟨node, found⟩ := Option.ne_none_iff_exists'.mp restored.2.1.1
    rw [found]
    exact puts.there separateNodes (entries.mpr ⟨restored, found⟩)
  constructor
  · exact thereAfter
  · intro front given
    obtain ⟨rel, restored, inside, proper⟩ := given
    have present : f1Node after tmp rel ≠ none := by
      rw [thereAfter rel restored]
      exact restored.2.1.1
    obtain ⟨back, rfl⟩ := inside
    rw [f1Node, place_append, place] at present
    exact after.directory_above back.reverse (by simpa using proper) present
  · intro names off
    apply puts.same_names
    intro entry member inside
    exact off entry.1 (entries.mp member).1 inside
  · intro other off
    exact puts.outside off

/-- A path under `system/bin` is put back, lies above one that is, or neither. -/
theorem restored_cases (before : FileSystem φ) (tmp : Location) (names : List Name) :
    Restored before tmp names ∨
      (∃ rel, Restored before tmp rel ∧ names <+: rel ∧ names ≠ rel) ∨
        ∀ rel, Restored before tmp rel → ¬ names <+: rel := by
  by_cases here : Restored before tmp names
  · exact .inl here
  · by_cases above : ∃ rel, Restored before tmp rel ∧ names <+: rel
    · obtain ⟨rel, restored, inside⟩ := above
      exact .inr (.inl ⟨rel, restored, inside, fun equal => here (equal ▸ restored)⟩)
    · exact .inr (.inr fun rel restored inside => above ⟨rel, restored, inside⟩)

theorem mergeResult_ok {after : FileSystem φ} (input : MergeInput before tmp)
    (tree : Merged tmp before merged) (lists : Lists tpListing before)
    (prune : Pruned (tpBins tpListing before tmp) tmp merged pruned)
    (back : PutBack before pruned after tmp) : MergeResult tmp before after := by
  have bin := prunedBin_ok input tree lists prune
  have inBin : binNames ∈ subs := by decide
  have kept {names : List Name} (off : ¬ UnderBin names) :
      f1Node pruned tmp names = f1Node merged tmp names :=
    prune.same names fun prunable => off prunable.1
  have aboveLeaf {names : List Name}
      (above : ∃ rel, Restored before tmp rel ∧ names <+: rel ∧ names ≠ rel) :
      tpNode before tmp names = some .directory := by
    obtain ⟨rel, restored, inside, proper⟩ := above
    exact template_above restored.2.1.1 inside proper
  constructor
  · exact (tree.outside.trans prune.outside).trans back.outside
  · intro rel under
    rcases restored_cases before tmp rel with restored | above | off
    · rw [back.there rel restored]
    · rw [back.above rel above, aboveLeaf above]
    · rw [back.same rel off, bin.leaf rel under]
      refine ⟨fun given => given.1, fun leaf => ?_⟩
      have notRestored : ¬ Restored before tmp rel := fun restored =>
        off rel restored (List.prefix_refl _)
      exact ⟨leaf, fun core => notRestored ⟨under, leaf, .inl core⟩,
        fun absent => notRestored ⟨under, leaf, .inr absent⟩⟩
  · intro rel under leaf present notCore
    rcases restored_cases before tmp rel with restored | above | off
    · exact absurd restored.2.2 (not_or.mpr ⟨notCore, present⟩)
    · exact absurd (aboveLeaf above) leaf.2
    · rw [back.same rel off]
      exact bin.same rel under ((bin.leaf rel under).mpr ⟨leaf, notCore, present⟩)
  · exact back.there
  · intro names below
    rcases restored_cases before tmp names with restored | above | off
    · have under := restored.1
      have leaf := restored.2.1
      rw [back.there names restored]
      refine ⟨fun directory => absurd directory leaf.2, fun given => ?_⟩
      cases given with
      | inl directory =>
          obtain ⟨node, found⟩ := Option.ne_none_iff_exists'.mp leaf.1
          exact absurd directory (input.noClash names node under found
            fun same => leaf.2 (by rw [found, same]))
      | inr above => exact aboveLeaf above
    · exact ⟨fun _ => .inr above, fun _ => back.above names above⟩
    · rw [back.same names off, bin.directory names below]
      refine ⟨.inl, fun given => given.resolve_right fun above => ?_⟩
      obtain ⟨rel, restored, inside, _⟩ := above
      exact off rel restored inside
  · intro names below
    have notBin : ¬ binNames <+: names := lib64_apart_bin.symm.not_below below
    rw [back.same names fun rel restored inside =>
        lib64_apart_bin.not_below restored.1.1 (below.trans inside),
      kept (fun under => notBin under.1), tree.sub lib64Names (by decide) names below
        (fun core => notBin core.below_bin)]
  · intro present
    by_cases above : ∃ rel, Restored before tmp rel ∧ ["system"] <+: rel ∧ ["system"] ≠ rel
    · exact back.above ["system"] above
    · rw [back.same ["system"], kept (by decide), tree.system present]
      intro rel restored inside
      refine above ⟨rel, restored, inside, ?_⟩
      rintro rfl
      exact absurd restored.1 (by decide)
  · intro noSub
    by_cases above : ∃ rel, Restored before tmp rel ∧ ["system"] <+: rel ∧ ["system"] ≠ rel
    · rw [back.above ["system"] above, aboveLeaf above]
    · rw [back.same ["system"], kept (by decide), tree.noSub noSub]
      intro rel restored inside
      refine above ⟨rel, restored, inside, ?_⟩
      rintro rfl
      exact absurd restored.1 (by decide)
  · intro names notSystem off
    have notUnder : ¬ UnderBin names := fun under => off binNames inBin under.1
    rcases restored_cases before tmp names with restored | above | offRestored
    · exact absurd restored.1 notUnder
    · rw [back.above names above, aboveLeaf above]
    · rw [back.same names offRestored, kept notUnder, tree.other names notSystem off]

/-- The merge, when it completes, leaves the described tree. -/
theorem mergeF1_result {after : FileSystem φ} (input : MergeInput before tmp)
    (walks : MergeWalks tpListing mergedListing prunedListing order before tmp)
    (made : mergeF1 tpListing mergedListing prunedListing order before tmp = .ok after) :
    MergeResult tmp before after := by
  obtain ⟨merged, mergedOk, made⟩ := except_bind_eq_ok made
  obtain ⟨pruned, prunedOk, restoredOk⟩ := except_bind_eq_ok made
  have tree := mergedTree_ok input mergedOk
  have links := walks.links merged mergedOk
  have prune := prunedTree_ok (walks.merged merged mergedOk) links prunedOk
  exact mergeResult_ok input tree walks.template prune
    (putBack_ok input tree walks.template prune links (walks.pruned merged pruned mergedOk prunedOk)
      walks.once walks.order restoredOk)

end

/-! ### Listings -/

/-- Where a node of the merged tree can be, given a listing of the trees before. -/
def mergedPlaces (listing : List Location) (tmp : Location) : List Location :=
  listing ++ (listing.filterMap (within (tpDir tmp))).map (· ++ f1Dir tmp) ++
    (listing.filterMap (within (ciDir tmp))).map (· ++ f1Dir tmp)

theorem mem_mergedPlaces {fs : FileSystem φ} {listing : List Location} {tmp : Location}
    (lists : Lists listing fs) {names : List Name}
    (present : tpNode fs tmp names ≠ none ∨ ciNode fs tmp names ≠ none) :
    place (f1Dir tmp) names ∈ mergedPlaces listing tmp := by
  have copied {base : Location} (there : fs.node (place base names) ≠ none) :
      place (f1Dir tmp) names ∈ (listing.filterMap (within base)).map (· ++ f1Dir tmp) := by
    rw [List.mem_map]
    refine ⟨names.reverse, ?_, rfl⟩
    rw [List.mem_filterMap]
    exact ⟨place base names, (lists _).mpr there, within_append names.reverse base⟩
  cases present with
  | inl template => exact List.mem_append_left _ (List.mem_append_right _ (copied template))
  | inr ci => exact List.mem_append_right _ (copied ci)

theorem merged_listed {before merged : FileSystem φ} {listing : List Location} {tmp : Location}
    (lists : Lists listing before) (tree : Merged tmp before merged) {location : Location}
    (present : merged.node location ≠ none) : location ∈ mergedPlaces listing tmp := by
  by_cases inside : f1Dir tmp <:+ location
  · obtain ⟨inner, rfl⟩ := inside
    have same : inner ++ f1Dir tmp = place (f1Dir tmp) inner.reverse := by simp [place]
    rw [same] at present ⊢
    generalize inner.reverse = names at present ⊢
    apply mem_mergedPlaces lists
    by_cases system : names = ["system"]
    · subst system
      by_cases there : ∃ sub ∈ subs, ciNode before tmp sub ≠ none
      · right
        obtain ⟨sub, member, found⟩ := there
        rw [ciNode, directories_above (tree.directory sub member found)
          ((sub_front member).mpr (.inr (.inl rfl)))]
        simp
      · left
        rwa [← tree.noSub fun sub member => not_not.mp fun found => there ⟨sub, member, found⟩]
    · by_cases below : ∃ sub ∈ subs, sub <+: names
      · right
        obtain ⟨sub, member, isBelow⟩ := below
        rwa [← tree.sub sub member names isBelow fun core => present (tree.core names core)]
      · left
        rwa [← tree.other names system fun sub member isBelow => below ⟨sub, member, isBelow⟩]
  · rw [tree.outside location inside] at present
    exact List.mem_append_left _ (List.mem_append_left _ ((lists location).mpr present))

/-- The nodes of a tree among some locations. -/
def presentIn (places : List Location) (fs : FileSystem φ) : List Location :=
  places.filter fun location => (fs.node location).isSome

theorem lists_presentIn {places : List Location} {fs : FileSystem φ}
    (all : ∀ location, fs.node location ≠ none → location ∈ places) :
    Lists (presentIn places fs) fs := by
  intro location
  rw [presentIn, List.mem_filter, Option.isSome_iff_ne_none]
  exact ⟨fun found => found.2, fun present => ⟨all location present, present⟩⟩

/-! ### A nested directory of the CI tree -/

/-- A template with a recovery program and a library, and a CI tree with one
program in a directory of its own. -/
def nestedEntries : List (Location × Node Bytes) :=
  [(["tmp"], .directory), (tpDir ["tmp"], .directory), (ciDir ["tmp"], .directory)] ++
    [["system"], binNames, lib64Names].map (fun names => (place (tpDir ["tmp"]) names, .directory)) ++
    [["system"], binNames, binNames ++ ["extra"]].map
      (fun names => (place (ciDir ["tmp"]) names, .directory)) ++
    [(place (tpDir ["tmp"]) (binNames ++ ["recovery"]), .file [1]),
      (place (tpDir ["tmp"]) (lib64Names ++ ["old.so"]), .file [2]),
      (place (ciDir ["tmp"]) (binNames ++ ["extra", "tool"]), .file [3])]

def nestedTree : FileSystem Bytes := .ofEntries nestedEntries (by decide +kernel)

def nestedListing : List Location := [] :: nestedEntries.map Prod.fst

def nestedMerged : List Location :=
  match mergedTree nestedTree ["tmp"] with
  | .ok merged => presentIn (mergedPlaces nestedListing ["tmp"]) merged
  | .error _ => []

def nestedPruned : List Location :=
  match mergedTree nestedTree ["tmp"] with
  | .ok merged =>
      match prunedTree nestedMerged (tpBins nestedListing nestedTree ["tmp"]) ["tmp"] merged with
      | .ok pruned => presentIn (mergedPlaces nestedListing ["tmp"]) pruned
      | .error _ => []
  | .error _ => []

def nestedOrder : List (List Name) := [binNames ++ ["recovery"]]

theorem nestedTree_unlinked (start : Location) (names : List Name) :
    Unlinked nestedTree start names :=
  unlinked_ofEntries _ (by decide +kernel) start names

theorem nestedTree_input : MergeInput nestedTree ["tmp"] where
  directory := by decide +kernel
  template := by decide +kernel
  noLink := nestedTree_unlinked _ [] [] List.nil_prefix
  templateSubs := fun _ _ => nestedTree_unlinked _ _
  ciSubs := fun _ _ => nestedTree_unlinked _ _
  core := by
    intro f member
    left
    revert member
    revert f
    decide +kernel
  templateLinks := fun rel target _ found =>
    absurd found (nestedTree_unlinked _ rel rel (List.prefix_refl _) target)
  noClash := by
    have apart : ∀ location ∈ nestedListing, ∀ inner ∈ within (tpDir ["tmp"]) location,
        nestedTree.node location ≠ some .directory →
          nestedTree.node (inner ++ ciDir ["tmp"]) ≠ some .directory := by
      decide +kernel
    intro rel node _ found notDirectory
    have listed : place (tpDir ["tmp"]) rel ∈ nestedListing :=
      (lists_ofEntries _ _).mpr (by change tpNode nestedTree ["tmp"] rel ≠ none; rw [found]; simp)
    apply apart _ listed rel.reverse (within_append rel.reverse _)
    change tpNode nestedTree ["tmp"] rel ≠ _
    rw [found]
    simpa using notDirectory

theorem nestedTree_lists : Lists nestedListing nestedTree := lists_ofEntries _

theorem nestedTree_links {merged : FileSystem Bytes} (tree : Merged ["tmp"] nestedTree merged)
    (rel : List Name) (under : UnderBin rel) : LinkOff merged (f1Dir ["tmp"]) rel := by
  intro target found
  have notCore : ¬ InCore rel := by
    intro core
    change f1Node merged ["tmp"] rel = _ at found
    rw [tree.core rel core] at found
    cases found
  have ci := tree.sub binNames (by decide) rel under.1 notCore
  exact absurd (ci.symm.trans found) (nestedTree_unlinked _ rel rel (List.prefix_refl _) target)

theorem nestedTree_walks :
    MergeWalks nestedListing nestedMerged nestedPruned nestedOrder nestedTree ["tmp"] where
  template := nestedTree_lists
  merged := by
    intro merged made
    rw [nestedMerged, made]
    exact lists_presentIn fun _ => merged_listed nestedTree_lists (mergedTree_ok nestedTree_input made)
  pruned := by
    intro merged pruned made prune
    have tree := mergedTree_ok nestedTree_input made
    have lists : Lists nestedMerged merged := by
      rw [nestedMerged, made]
      exact lists_presentIn fun _ => merged_listed nestedTree_lists tree
    have smaller := (prunedTree_ok lists (nestedTree_links tree) prune).smaller
    rw [nestedPruned, made]
    simp only [prune]
    apply lists_presentIn
    intro location present
    apply merged_listed nestedTree_lists tree
    obtain ⟨node, found⟩ := Option.ne_none_iff_exists'.mp present
    rw [smaller location node found]
    simp
  once := by decide
  order := by
    intro rel
    have same : tpBins nestedListing nestedTree ["tmp"] = nestedOrder := by decide +kernel
    rw [same]
  links := fun _ made => nestedTree_links (mergedTree_ok nestedTree_input made)

theorem mergeF1_result_nestedTree : ∃ after,
    mergeF1 nestedListing nestedMerged nestedPruned nestedOrder nestedTree ["tmp"] = .ok after ∧
      MergeResult ["tmp"] nestedTree after := by
  obtain ⟨after, made, _⟩ := ok_of_read
    (show (mergeF1 nestedListing nestedMerged nestedPruned nestedOrder nestedTree
      ["tmp"]).toOption.map (fun _ => ()) = some () by decide +kernel)
  exact ⟨after, made, mergeF1_result nestedTree_input nestedTree_walks made⟩

/-- The CI tree's directory stays under `system/bin` without its program, and the
template's `system/lib64` goes when the CI tree has none. -/
theorem mergeF1_nestedTree : MergeInput nestedTree ["tmp"] ∧
    MergeWalks nestedListing nestedMerged nestedPruned nestedOrder nestedTree ["tmp"] ∧
    ∃ after,
      mergeF1 nestedListing nestedMerged nestedPruned nestedOrder nestedTree ["tmp"] = .ok after ∧
      tpNode nestedTree ["tmp"] (binNames ++ ["extra"]) = none ∧
      f1Node after ["tmp"] (binNames ++ ["extra"]) = some .directory ∧
      tpNode nestedTree ["tmp"] lib64Names = some .directory ∧
      f1Node after ["tmp"] lib64Names = none := by
  refine ⟨nestedTree_input, nestedTree_walks, ?_⟩
  obtain ⟨after, made, nodes⟩ := ok_of_read
    (show (mergeF1 nestedListing nestedMerged nestedPruned nestedOrder nestedTree
      ["tmp"]).toOption.map (fun after =>
        (f1Node after ["tmp"] (binNames ++ ["extra"]), f1Node after ["tmp"] lib64Names)) =
          some (some .directory, none) by decide +kernel)
  obtain ⟨extra, lib64⟩ := Prod.mk.inj nodes
  exact ⟨after, made, by decide +kernel, extra, by decide +kernel, lib64⟩

end DashTwrp.RepackF1

import DashTwrp.RepackF1.Result

namespace DashTwrp.RepackF1

open DashTwrp.Python DashTwrp.Unix

/-! The merge as a relation between three trees, each given by what lies at its paths.

The two merged trees determine the new one, and the new one is what its own merge
with the CI tree gives. -/

variable {φ : Type}

/-- What lies at the paths of a tree. -/
abbrev Nodes (φ : Type) : Type := List Name → Option (Node φ)

/-- The nodes of a tree, by the names from its root on. -/
def nodesAt (tree : FileSystem φ) : Nodes φ := fun rel => tree.node (place [] rel)

theorem nodesAt_injective {one other : FileSystem φ} (same : nodesAt one = nodesAt other) :
    one = other := by
  refine FileSystem.ext (funext fun location => ?_)
  have here := congrFun same location.reverse
  simpa [nodesAt, place] using here

/-- Above what a tree has are directories. -/
theorem nodesAt_above {tree : FileSystem φ} {front names : List Name}
    (present : nodesAt tree names ≠ none) (inside : front <+: names) (proper : front ≠ names) :
    nodesAt tree front = some .directory := by
  obtain ⟨back, rfl⟩ := inside
  rw [nodesAt, place_append, place] at present
  exact tree.directory_above back.reverse (by simpa using proper) present

/-- A path under `system/bin` at which the template's node is put back. -/
def PutsBack (template ci : Nodes φ) (rel : List Name) : Prop :=
  UnderBin rel ∧ IsLeaf (template rel) ∧ (IsCore rel ∨ ci rel = none)

/-- `new` is the merge of a template's tree and a CI tree. -/
structure MergedNodes (template ci new : Nodes φ) : Prop where
  bin : ∀ rel, UnderBin rel → (IsLeaf (new rel) ↔ IsLeaf (template rel))
  fromCi : ∀ rel, UnderBin rel → IsLeaf (template rel) → ci rel ≠ none → ¬ IsCore rel →
    new rel = ci rel
  fromTemplate : ∀ rel, PutsBack template ci rel → new rel = template rel
  binDirectory : ∀ names, binNames <+: names →
    (new names = some .directory ↔ ci names = some .directory ∨
      ∃ rel, PutsBack template ci rel ∧ names <+: rel ∧ names ≠ rel)
  binRoot : ¬ IsLeaf (new binNames)
  lib64 : ∀ names, lib64Names <+: names → new names = ci names
  system : (∃ sub ∈ subs, ci sub ≠ none) → new ["system"] = some .directory
  noSub : (∀ sub ∈ subs, ci sub = none) → new ["system"] = template ["system"]
  other : ∀ names, names ≠ ["system"] → (∀ sub ∈ subs, ¬ sub <+: names) →
    new names = template names

theorem eq_of_not_leaf {one other : Option (Node φ)} (notLeaf : ¬ IsLeaf one)
    (otherNotLeaf : ¬ IsLeaf other)
    (directory : one = some .directory ↔ other = some .directory) : one = other := by
  by_cases isDirectory : one = some .directory
  · rw [isDirectory, directory.mp isDirectory]
  · have absent : one = none := by
      by_contra present
      exact notLeaf ⟨present, isDirectory⟩
    have otherAbsent : other = none := by
      by_contra present
      exact otherNotLeaf ⟨present, fun found => isDirectory (directory.mpr found)⟩
    rw [absent, otherAbsent]

namespace MergedNodes

variable {template ci new newer : Nodes φ}

/-- Two trees have one merge. -/
theorem unique (merged : MergedNodes template ci new) (again : MergedNodes template ci newer) :
    new = newer := by
  funext rel
  have directory {names : List Name} (below : binNames <+: names) :
      new names = some .directory ↔ newer names = some .directory := by
    rw [merged.binDirectory names below, again.binDirectory names below]
  by_cases below : ∃ sub ∈ subs, sub <+: rel
  · obtain ⟨sub, member, isBelow⟩ := below
    simp only [subs, List.mem_cons, List.not_mem_nil, or_false] at member
    cases member with
    | inr lib64 =>
        subst lib64
        rw [merged.lib64 rel isBelow, again.lib64 rel isBelow]
    | inl bin =>
        subst bin
        by_cases root : rel = binNames
        · subst root
          exact eq_of_not_leaf merged.binRoot again.binRoot (directory isBelow)
        · have under : UnderBin rel := ⟨isBelow, root⟩
          by_cases leaf : IsLeaf (template rel)
          · by_cases kept : ci rel ≠ none ∧ ¬ IsCore rel
            · rw [merged.fromCi rel under leaf kept.1 kept.2,
                again.fromCi rel under leaf kept.1 kept.2]
            · have back : PutsBack template ci rel := by
                refine ⟨under, leaf, ?_⟩
                by_contra neither
                exact kept ⟨fun absent => neither (.inr absent), fun core => neither (.inl core)⟩
              rw [merged.fromTemplate rel back, again.fromTemplate rel back]
          · exact eq_of_not_leaf (fun isLeaf => leaf ((merged.bin rel under).mp isLeaf))
              (fun isLeaf => leaf ((again.bin rel under).mp isLeaf)) (directory isBelow)
  · have off (sub : List Name) (member : sub ∈ subs) : ¬ sub <+: rel :=
      fun isBelow => below ⟨sub, member, isBelow⟩
    by_cases system : rel = ["system"]
    · subst system
      by_cases present : ∃ sub ∈ subs, ci sub ≠ none
      · rw [merged.system present, again.system present]
      · have noSub (sub : List Name) (member : sub ∈ subs) : ci sub = none :=
          not_not.mp fun there => present ⟨sub, member, there⟩
        rw [merged.noSub noSub, again.noSub noSub]
    · rw [merged.other rel system off, again.other rel system off]

theorem putsBack_iff (merged : MergedNodes template ci new) (rel : List Name) :
    PutsBack new ci rel ↔ PutsBack template ci rel :=
  and_congr_right fun under => and_congr_left fun _ => merged.bin rel under

/-- A merged tree is its own merge with the CI tree. -/
theorem fixpoint (merged : MergedNodes template ci new) : MergedNodes new ci new where
  bin _ _ := Iff.rfl
  fromCi rel under leaf := merged.fromCi rel under ((merged.bin rel under).mp leaf)
  fromTemplate _ _ := rfl
  binDirectory names below := by
    simp only [merged.putsBack_iff]
    exact merged.binDirectory names below
  binRoot := merged.binRoot
  lib64 := merged.lib64
  system := merged.system
  noSub _ := rfl
  other _ _ _ := rfl

/-- Merging the new tree with the CI tree once more changes nothing. -/
theorem again (merged : MergedNodes template ci new) (second : MergedNodes new ci newer) :
    newer = new :=
  second.unique merged.fixpoint

/-- A tree's merge with itself is the tree. -/
theorem same (tree : FileSystem φ) (root : ¬ IsLeaf (nodesAt tree binNames)) :
    MergedNodes (nodesAt tree) (nodesAt tree) (nodesAt tree) where
  bin _ _ := Iff.rfl
  fromCi _ _ _ _ _ := rfl
  fromTemplate _ _ := rfl
  binDirectory names _ := by
    refine ⟨.inl, fun given => given.elim id fun above => ?_⟩
    obtain ⟨rel, back, inside, proper⟩ := above
    exact nodesAt_above back.2.1.1 inside proper
  binRoot := root
  lib64 _ _ := rfl
  system present := by
    obtain ⟨sub, member, found⟩ := present
    refine nodesAt_above found ((sub_front member).mpr (.inr (.inl rfl))) ?_
    rintro rfl
    exact absurd member (by decide)
  noSub _ := rfl
  other _ _ _ := rfl

end MergedNodes

section

variable {tpListing mergedListing prunedListing : List Location} {order : List (List Name)}
  {before after : FileSystem φ} {tmp : Location}

/-- The merge that the tool makes on disk is the merge of the trees. -/
theorem mergeF1_nodes (input : MergeInput before tmp)
    (walks : MergeWalks tpListing mergedListing prunedListing order before tmp)
    (made : mergeF1 tpListing mergedListing prunedListing order before tmp = .ok after) :
    AgreeOutside (f1Dir tmp) before after ∧
      MergedNodes (tpNode before tmp) (ciNode before tmp) (f1Node after tmp) := by
  obtain ⟨merged, mergedOk, made⟩ := except_bind_eq_ok made
  obtain ⟨pruned, prunedOk, restoredOk⟩ := except_bind_eq_ok made
  have tree := mergedTree_ok input mergedOk
  have links := walks.links merged mergedOk
  have prune := prunedTree_ok (walks.merged merged mergedOk) links prunedOk
  have back := putBack_ok input tree walks.template prune links
    (walks.pruned merged pruned mergedOk prunedOk) walks.once walks.order restoredOk
  have result := mergeResult_ok input tree walks.template prune back
  have root : ¬ IsLeaf (f1Node after tmp binNames) := by
    intro leaf
    rcases restored_cases before tmp binNames with restored | above | off
    · exact restored.1.2 rfl
    · exact leaf.2 (back.above binNames above)
    · rw [back.same binNames off, prune.same binNames fun prunable => prunable.1.2 rfl,
        tree.sub binNames (by decide) binNames (List.prefix_refl _) (by decide)] at leaf
      exact leaf.2 (tree.directory binNames (by decide) leaf.1)
  exact ⟨result.outside, result.bin, result.fromCi, result.fromTemplate, result.binDirectory,
    root, result.lib64, result.system, result.noSub, result.other⟩

end

end DashTwrp.RepackF1

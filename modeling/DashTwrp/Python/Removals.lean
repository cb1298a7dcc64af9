import DashTwrp.Python.Copies

namespace DashTwrp.Python

open DashTwrp.Unix

/-! What removals leave, one after the other, and a tree that takes the place of
another. -/

variable {φ : Type}

/-- `if os.path.exists(path): shutil.rmtree(path)` -/
def removeTree (fs : FileSystem φ) (start : Location) (path : PurePath) :
    Except OsError (FileSystem φ) :=
  if fs.pathExists start path then rmtree fs start path else .ok fs

section

variable {fs after : FileSystem φ} {start : Location} {names front : List Name} {last : Name}

theorem removeTree_ok (unlinked : Unlinked fs start names)
    (removed : removeTree fs start (.ofNames names) = .ok after) :
    Without (place start names) fs after ∧
      (fs.node (place start names) = none ∨ fs.node (place start names) = some .directory) := by
  unfold removeTree at removed
  split at removed
  · unfold rmtree at removed
    split at removed
    · contradiction
    · rename_i location located
      rw [unlinked.locate_ends located] at removed
      split at removed
      · contradiction
      · rename_i directory
        split at removed
        · rename_i inner
          cases removed
          exact ⟨without_removeBelow fs inner, .inr directory⟩
        · contradiction
      · contradiction
  · rename_i absent
    have gone : fs.node (place start names) = none :=
      not_not.mp fun present => absent (unlinked.exists_iff.mpr present)
    cases removed
    exact ⟨without_of_absent gone, .inl gone⟩

theorem osRemove_ok (unlinked : Unlinked fs start front)
    (removed : osRemove fs start (.ofNames (front ++ [last])) = .ok after) :
    Without (place start (front ++ [last])) fs after := by
  unfold osRemove at removed
  split at removed
  · contradiction
  · rename_i location located
    rw [locate_ends_entry unlinked located] at removed
    split at removed
    · contradiction
    · contradiction
    · split at removed
      · rename_i inner
        cases removed
        exact without_removeBelow fs inner
      · contradiction

end

/-- The nodes at some locations are gone, and the others are as before. -/
structure Dropped (gone : Location → Prop) (before after : FileSystem φ) : Prop where
  absent : ∀ other, gone other → after.node other = none
  same : ∀ other, ¬ gone other → after.node other = before.node other

theorem Dropped.noNewLinks {gone : Location → Prop} {before after : FileSystem φ}
    (dropped : Dropped gone before after) : NoNewLinks before after := by
  intro other target found
  by_cases lost : gone other
  · rw [dropped.absent other lost] at found
    cases found
  · rwa [dropped.same other lost] at found

theorem Without.dropped {location : Location} {before after : FileSystem φ}
    (without : Without location before after) : Dropped (location <:+ ·) before after where
  absent := fun other below => by rw [without other, if_pos below]
  same := fun other off => by rw [without other, if_neg off]

/-- A pass that removes the subtrees of some of the items. -/
theorem dropped_of_foldlM {ι ε : Type} {step : FileSystem φ → ι → Except ε (FileSystem φ)}
    {target : ι → Location} {drop : ι → Prop} {items : List ι} {fs after : FileSystem φ}
    (one : ∀ current next, ∀ item ∈ items, NoNewLinks fs current → step current item = .ok next →
      (drop item → Without (target item) current next) ∧ (¬ drop item → next = current))
    (run : items.foldlM step fs = .ok after) :
    Dropped (fun other => ∃ item ∈ items, drop item ∧ target item <:+ other) fs after := by
  induction items generalizing fs with
  | nil =>
      cases run
      exact ⟨fun _ gone => by simp at gone, fun _ _ => rfl⟩
  | cons item rest ih =>
      rw [List.foldlM_cons] at run
      obtain ⟨next, made, restRun⟩ := except_bind_eq_ok run
      obtain ⟨removed, unchanged⟩ := one fs next item List.mem_cons_self (.refl fs) made
      have first : Dropped (fun other => drop item ∧ target item <:+ other) fs next := by
        by_cases dropping : drop item
        · have without := (removed dropping).dropped
          exact ⟨fun other gone => without.absent other gone.2,
            fun other kept => without.same other fun below => kept ⟨dropping, below⟩⟩
        · rw [unchanged dropping]
          exact ⟨fun _ gone => absurd gone.1 dropping, fun _ _ => rfl⟩
      have later := ih (fun current final other member kept =>
        one current final other (List.mem_cons_of_mem _ member)
          (first.noNewLinks.trans kept)) restRun
      constructor
      · intro other gone
        by_cases again : ∃ item ∈ rest, drop item ∧ target item <:+ other
        · exact later.absent other again
        · rw [later.same other again]
          obtain ⟨lost, member, dropping, below⟩ := gone
          cases member with
          | head => exact first.absent other ⟨dropping, below⟩
          | tail _ inRest => exact absurd ⟨lost, inRest, dropping, below⟩ again
      · intro other kept
        rw [later.same, first.same]
        · exact fun gone => kept ⟨item, List.mem_cons_self, gone⟩
        · intro gone
          obtain ⟨lost, member, given⟩ := gone
          exact kept ⟨lost, List.mem_cons_of_mem _ member, given⟩

/-! ### A tree copied afresh -/

theorem unlinked_single {fs : FileSystem φ} {start : Location} {name : Name}
    (directory : fs.node start = some .directory)
    (noLink : ∀ target, fs.node (name :: start) ≠ some (.link target)) :
    Unlinked fs start [name] := by
  have top : Unlinked fs start [] := by
    intro front inside target found
    rw [List.prefix_nil.mp inside, place_nil, directory] at found
    cases found
  exact unlinked_concat top noLink

/-- Nothing lies in two directories that stand side by side. -/
theorem sibling_outside {start : Location} {old new : Name} (different : old ≠ new)
    (names : List Name) : ¬ (new :: start) <:+ place (old :: start) names := by
  intro below
  have equal : new :: start = old :: start := by
    cases List.suffix_or_suffix_of_suffix below (suffix_place (old :: start) names) with
    | inl into => exact into.eq_of_length rfl
    | inr into => exact (into.eq_of_length rfl).symm
  exact different (List.cons.inj equal).1.symm

/-- What is removed and copied afresh from a sibling is the same as the sibling. -/
theorem copied_afresh {fs cleared after : FileSystem φ} {start : Location} {old new : Name}
    (directory : fs.node start = some .directory)
    (source : fs.node (old :: start) = some .directory)
    (noLink : ∀ target, fs.node (new :: start) ≠ some (.link target)) (different : old ≠ new)
    (removed : removeTree fs start (.ofNames [new]) = .ok cleared)
    (copied : copytree cleared start (.ofNames [old]) start (.ofNames [new]) = .ok after) :
    (∀ names, after.node (place (new :: start) names) = fs.node (place (old :: start) names)) ∧
      AgreeOutside (new :: start) fs after := by
  have newUnlinked := unlinked_single directory noLink
  have oldUnlinked : Unlinked fs start [old] :=
    unlinked_single directory fun target found => by rw [source] at found; cases found
  have without : Dropped ((new :: start) <:+ ·) fs cleared :=
    (removeTree_ok newUnlinked removed).1.dropped
  have copy := copytree_ok (oldUnlinked.of_noNewLinks without.noNewLinks)
    (newUnlinked.of_noNewLinks without.noNewLinks) copied
  constructor
  · intro names
    rw [← place_cons start new]
    have inside := copy.inside names
    rw [List.singleton_append] at inside
    rw [inside, place_cons, place_nil, without.same _ (sibling_outside different names)]
  · intro other off
    by_cases top : other = start
    · rw [top, directory]
      exact copy.above List.nil_prefix
    · rw [copy.same other, without.same other off]
      · intro front inside equal
        cases List.prefix_concat_iff.mp (show front <+: [] ++ [new] from inside) with
        | inl whole => exact off (equal ▸ whole ▸ List.suffix_refl _)
        | inr shorter =>
            rw [List.prefix_nil.mp shorter] at equal
            exact top equal
      · exact off

/-! ### An entry of a directory -/

section

variable {fs : FileSystem φ} {dir : Location} {name : Name}

theorem locate_entry (inside : fs.node dir = some .directory)
    (plain : ∀ target, fs.node (name :: dir) ≠ some (.link target)) (follow : Bool) :
    fs.locate follow dir (.ofNames [name]) = .ok (name :: dir) := by
  have unlinked : Unlinked fs dir [name] := by
    intro front within target found
    rcases List.prefix_cons_iff.mp within with rfl | ⟨rest, rfl, last⟩
    · rw [place_nil, inside] at found
      cases found
    · rw [List.prefix_nil.mp last] at found
      exact plain target found
  refine unlinked.locate_below fun front last split => ?_
  cases front with
  | nil => exact inside
  | cons first rest => simp at split

/-- What an earlier run has left as a directory is removed with all that is in it. -/
theorem removeTree_entry (inside : fs.node dir = some .directory)
    (left : fs.node (name :: dir) = none ∨ fs.node (name :: dir) = some .directory) :
    ∃ after, removeTree fs dir (.ofNames [name]) = .ok after ∧ Without (name :: dir) fs after := by
  have plain (target : PurePath) : fs.node (name :: dir) ≠ some (.link target) := by
    rcases left with absent | directory
    · rw [absent]
      simp
    · rw [directory]
      simp
  have located (follow : Bool) : fs.locate follow dir (.ofNames [name]) = .ok (name :: dir) :=
    locate_entry inside plain follow
  unfold removeTree
  rcases left with absent | directory
  · have missing : fs.pathExists dir (.ofNames [name]) = false := by
      rw [FileSystem.pathExists, FileSystem.stat, located]
      simp only [absent]
      rfl
    exact ⟨fs, by rw [missing]; rfl, without_of_absent absent⟩
  · have present : fs.pathExists dir (.ofNames [name]) = true := by
      rw [FileSystem.pathExists, FileSystem.stat, located]
      simp only [directory]
      rfl
    refine ⟨fs.removeBelow (name :: dir) (by simp), ?_, without_removeBelow fs (by simp)⟩
    rw [if_pos present, rmtree, located]
    simp [directory]

theorem makedirs_entry (inside : fs.node dir = some .directory)
    (free : fs.node (name :: dir) = none) :
    ∃ made, makedirs false fs dir (.ofNames [name]) = .ok made ∧
      made.node = Function.update fs.node (name :: dir) (some .directory) := by
  have located : fs.locate false dir (.ofNames [name]) = .ok (name :: dir) :=
    locate_entry inside (by rw [free]; simp) false
  refine ⟨fs.create name dir .directory inside free, ?_, rfl⟩
  change (Except.ok fs >>= fun made => mkdir false made dir (.ofNames [name])) = _
  change mkdir false fs dir (.ofNames [name]) = _
  rw [mkdir, FileSystem.makeNode, located]
  simp only [FileSystem.createAt_free inside free]

/-- A file is written where one was, or where nothing was. -/
theorem writeFile_entry (inside : fs.node dir = some .directory)
    (left : fs.node (name :: dir) = none ∨ ∃ old, fs.node (name :: dir) = some (.file old))
    (data : φ) :
    ∃ after, writeFile fs dir (.ofNames [name]) data = .ok after ∧
      after.node = Function.update fs.node (name :: dir) (some (.file data)) := by
  unfold writeFile
  rcases left with absent | file
  · rw [locate_entry inside (by rw [absent]; simp)]
    refine ⟨fs.create name dir (.file data) inside absent, ?_, rfl⟩
    simp only
    split
    · rename_i found
      rw [absent] at found
      cases found
    · rename_i found
      rw [absent] at found
      cases found
    · rename_i found
      rw [absent] at found
      cases found
    · exact FileSystem.createAt_free inside absent
  · obtain ⟨old, found⟩ := file
    rw [locate_entry inside (by rw [found]; simp)]
    simp only
    split
    · exact ⟨_, rfl, rfl⟩
    all_goals simp_all

end

end DashTwrp.Python

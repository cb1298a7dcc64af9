import DashTwrp.Python.Outputs

namespace DashTwrp.Python

open DashTwrp.Unix

/-! What a program leaves alone that works at some places of the disk only. -/

/-- At or below one of the places. -/
def Worked (places : List Location) (location : Location) : Prop :=
  ∃ place ∈ places, place <:+ location

instance (places : List Location) (location : Location) : Decidable (Worked places location) :=
  inferInstanceAs (Decidable (∃ place ∈ places, place <:+ location))

/-- The operations that change the names and the files of a disk, with the place where
the operation's path leads.  A file may be written in part. -/
inductive WorkStep (cwd : Location) (places : List Location) (before : Disk) :
    Location → Disk → Prop where
  | remove
      {removal : FileSystem Inode → Location → PurePath → Except OsError (FileSystem Inode)}
      {path : PurePath} {place : Location} {after : Disk} (removes : Removes removal)
      (located : before.tree.locate false cwd path = .ok place)
      (removed : before.removeWith removes cwd path = .ok ((), after)) :
      WorkStep cwd places before place after
  | makeNode {path : PurePath} {place : Location} {after : Disk} {node : Node Inode}
      (fresh : ∀ inode, node ≠ .file inode)
      (made : before.tree.makeNode node cwd path = .ok (after.tree, place))
      (contents : after.contents = before.contents) (next : after.next = before.next) :
      WorkStep cwd places before place after
  | hardLink {path : PurePath} {source place : Location} {after : Disk} {inode : Inode}
      (inside : Worked places source) (file : before.tree.node source = some (.file inode))
      (made : before.tree.makeNode (.file inode) cwd path = .ok (after.tree, place))
      (contents : after.contents = before.contents) (next : after.next = before.next) :
      WorkStep cwd places before place after
  | write {path : PurePath} {place : Location} {opened : Disk} {inode : Inode} (data : Bytes)
      (located : before.tree.locate true cwd path = .ok place)
      (opens : before.openWrite cwd path = .ok (inode, opened)) :
      WorkStep cwd places before place (opened.append inode data)

/-- Operations one after another, each at one of the places. -/
inductive WorkRun (cwd : Location) (places : List Location) : Disk → Disk → Prop where
  | done (disk : Disk) : WorkRun cwd places disk disk
  | step {before middle after : Disk} {place : Location}
      (made : WorkStep cwd places before place middle) (inside : place ∈ places)
      (rest : WorkRun cwd places middle after) : WorkRun cwd places before after

section

variable {cwd place : Location} {places : List Location} {before after : Disk}

/-- A file without a name at the places or below them. -/
def Nameless (places : List Location) (disk : Disk) (inode : Inode) : Prop :=
  ∀ inner, Worked places inner → disk.tree.node inner ≠ some (.file inode)

/-- Elsewhere every name is as it was, and so is what a file holds that has only such names. -/
structure KeptElsewhere (places : List Location) (before after : Disk) : Prop where
  nodes : ∀ other, ¬ Worked places other → after.tree.node other = before.tree.node other
  next : before.next ≤ after.next
  contents : ∀ inode < before.next, Nameless places before inode →
    after.contents inode = before.contents inode ∧ Nameless places after inode

theorem Worked.below {other : Location} (inside : Worked places place)
    (below : place <:+ other) : Worked places other := by
  obtain ⟨root, member, above⟩ := inside
  exact ⟨root, member, above.trans below⟩

theorem KeptElsewhere.refl (disk : Disk) : KeptElsewhere places disk disk :=
  ⟨fun _ _ => rfl, Nat.le_refl _, fun _ _ nameless => ⟨rfl, nameless⟩⟩

theorem KeptElsewhere.trans {first second third : Disk} (front : KeptElsewhere places first second)
    (back : KeptElsewhere places second third) : KeptElsewhere places first third where
  nodes := fun other outside => (back.nodes other outside).trans (front.nodes other outside)
  next := Nat.le_trans front.next back.next
  contents := by
    intro inode old nameless
    obtain ⟨same, still⟩ := front.contents inode old nameless
    obtain ⟨again, last⟩ := back.contents inode (Nat.lt_of_lt_of_le old front.next) still
    exact ⟨again.trans same, last⟩

/-- A node that is put at a place, and is none of the files elsewhere. -/
theorem keptElsewhere_makeNode {path : PurePath} {node : Node Inode} (inside : Worked places place)
    (made : before.tree.makeNode node cwd path = .ok (after.tree, place))
    (contents : after.contents = before.contents) (next : after.next = before.next)
    (known : ∀ inode, node = .file inode → ¬ Nameless places before inode) :
    KeptElsewhere places before after := by
  obtain ⟨-, created⟩ := FileSystem.makeNode_eq_ok made
  obtain ⟨-, nodes⟩ := FileSystem.createAt_eq_ok created
  refine ⟨fun other outside => ?_, next.ge, fun inode _ nameless => ⟨by rw [contents], ?_⟩⟩
  · have elsewhere : other ≠ place := fun same => outside (same ▸ inside)
    rw [nodes, Function.update_of_ne elsewhere]
  · intro inner within found
    rw [nodes] at found
    by_cases here : inner = place
    · subst here
      rw [Function.update_self, Option.some.injEq] at found
      exact known inode found nameless
    · rw [Function.update_of_ne here] at found
      exact nameless inner within found

theorem keptElsewhere_write {opened : Disk} {path : PurePath} {inode : Inode} (data : Bytes)
    (inside : Worked places place) (located : before.tree.locate true cwd path = .ok place)
    (opens : before.openWrite cwd path = .ok (inode, opened)) :
    KeptElsewhere places before (opened.append inode data) := by
  unfold Disk.openWrite at opens
  rw [located] at opens
  simp only at opens
  split at opens
  · rename_i old found
    cases opens
    refine ⟨fun _ _ => rfl, Nat.le_refl _, fun other _ nameless => ⟨?_, nameless⟩⟩
    have apart : other ≠ inode := fun same => nameless place inside (same ▸ found)
    simp [Disk.append, Function.update_of_ne apart]
  · contradiction
  · contradiction
  · split at opens
    · contradiction
    · rename_i tree created
      cases opens
      obtain ⟨-, nodes⟩ := FileSystem.createAt_eq_ok created
      refine ⟨fun other outside => ?_, Nat.le_succ _, fun other old nameless => ⟨?_, ?_⟩⟩
      · have elsewhere : other ≠ place := fun same => outside (same ▸ inside)
        simp [Disk.append, nodes, Function.update_of_ne elsewhere]
      · simp [Disk.append, Function.update_of_ne (Nat.ne_of_lt old)]
      · intro inner within found
        have present : tree.node inner = some (.file other) := found
        rw [nodes] at present
        by_cases here : inner = place
        · subst here
          rw [Function.update_self, Option.some.injEq, Node.file.injEq] at present
          exact Nat.ne_of_lt old present.symm
        · rw [Function.update_of_ne here] at present
          exact nameless inner within present

theorem workStep_makeDirectory {path : PurePath}
    (located : before.tree.locate false cwd path = .ok place)
    (made : before.makeDirectory cwd path = .ok ((), after)) :
    WorkStep cwd places before place after := by
  unfold Disk.makeDirectory at made
  split at made
  · contradiction
  · rename_i tree other found
    cases made
    obtain ⟨otherLocated, -⟩ := FileSystem.makeNode_eq_ok found
    rw [located] at otherLocated
    cases otherLocated
    exact .makeNode (by simp) found rfl rfl

theorem WorkStep.keptElsewhere (made : WorkStep cwd places before place after)
    (inside : Worked places place) : KeptElsewhere places before after := by
  cases made with
  | remove removes located removed =>
      unfold Disk.removeWith at removed
      split at removed
      · contradiction
      · rename_i tree gone
        cases removed
        obtain ⟨other, otherLocated, without⟩ := removes _ _ _ _ gone
        rw [located] at otherLocated
        cases otherLocated
        refine ⟨fun name outside => ?_, Nat.le_refl _, fun inode _ nameless => ⟨rfl, ?_⟩⟩
        · exact (without name).trans (if_neg fun below => outside (inside.below below))
        · intro inner within found
          exact nameless inner within (without.extends inner _ found)
  | makeNode fresh made contents next =>
      refine keptElsewhere_makeNode inside made contents next fun inode same => ?_
      exact absurd same (fresh inode)
  | hardLink within file made contents next =>
      refine keptElsewhere_makeNode inside made contents next fun inode same nameless => ?_
      cases same
      exact nameless _ within file
  | write data located opens => exact keptElsewhere_write data inside located opens

theorem WorkRun.keptElsewhere (ran : WorkRun cwd places before after) :
    KeptElsewhere places before after := by
  induction ran with
  | done disk => exact .refl disk
  | step made inside _ ih => exact (made.keptElsewhere ⟨_, inside, List.suffix_rfl⟩).trans ih

/-- The rest of a tree, where nothing lies at the places or below them. -/
structure Elsewhere (places : List Location) (tree rest : FileSystem Inode) : Prop where
  clear : ∀ inner, Worked places inner → rest.node inner = none
  same : ∀ other, ¬ Worked places other → rest.node other = tree.node other

/-- A path leads past the places to its end, and the file there has no other name below
them. -/
structure LeadsPast (cwd : Location) (places : List Location) (path : PurePath) (disk : Disk)
    (location : Location) : Prop where
  outside : ¬ Worked places location
  located : ∃ rest, Elsewhere places disk.tree rest ∧ rest.locate true cwd path = .ok location
  file : ∀ inode, disk.tree.node location = some (.file inode) → Nameless places disk inode

theorem Elsewhere.extends {rest : FileSystem Inode}
    (without : Elsewhere places before.tree rest) (kept : KeptElsewhere places before after) :
    rest.Extends after.tree := by
  intro other node present
  have outside : ¬ Worked places other := by
    intro inside
    rw [without.clear other inside] at present
    cases present
  rw [kept.nodes other outside, ← without.same other outside]
  exact present

/-- Work at the places leaves such a path leading where it did, to the file as it was. -/
theorem KeptElsewhere.leadsPast {path : PurePath} {location : Location}
    (kept : KeptElsewhere places before after)
    (apart : LeadsPast cwd places path before location) :
    after.tree.locate true cwd path = .ok location ∧
      after.fileAt location = before.fileAt location := by
  obtain ⟨rest, without, there⟩ := apart.located
  have node := kept.nodes location apart.outside
  constructor
  · refine FileSystem.locate_extends (without.extends kept) (fun free _ target => ?_) there
    rw [node, ← without.same location apart.outside, free]
    simp
  · unfold Disk.fileAt
    rw [node]
    cases found : before.tree.node location with
    | none => rfl
    | some entry =>
        cases entry with
        | directory => rfl
        | link target => rfl
        | file inode =>
            have old := before.used _ _ found
            obtain ⟨same, -⟩ := kept.contents inode old (apart.file inode found)
            simp only [same]

end

end DashTwrp.Python

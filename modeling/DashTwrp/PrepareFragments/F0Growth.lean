import DashTwrp.PrepareFragments.F0
import DashTwrp.Python.GuardedRemovals
import DashTwrp.Unix.Growth

namespace DashTwrp.PrepareFragments

open DashTwrp.Python DashTwrp.Unix DashTwrp.Unix.FileSystem

/-! What the F0 step adds to the stock tree behind its removals. -/

variable {φ : Type}

/-- A new directory on the way to the libraries. -/
def NewDirectory (names : List Name) (location : Location) (node : Node φ) : Prop :=
  node = .directory ∧ ∃ name ∈ names, location.head? = some name

theorem mkdir_grown {existOk : Bool} {fs after : FileSystem φ} {start : Location}
    {front : List Name} {last : Name}
    (made : mkdir existOk fs start (.ofNames (front ++ [last])) = .ok after) :
    Grown (NewDirectory (front ++ [last])) fs after := by
  unfold mkdir at made
  split at made
  · rename_i result location created
    cases made
    obtain ⟨located, created⟩ := makeNode_eq_ok created
    refine (grown_createAt created).weaken fun other node new => ?_
    obtain ⟨rfl, rfl⟩ := new
    exact ⟨rfl, last, by simp, locate_last located⟩
  · split at made
    · cases made
      exact .refl _
    · cases made

theorem newDirectory_settled (names : List Name) (location : Location) (old new : φ)
    (isNew : NewDirectory names location (.file old)) :
    NewDirectory names location (.file new) := nomatch isNew.1

theorem makedirsFrom_grown {existOk : Bool} {fs after : FileSystem φ} {start : Location}
    (reversed : List Name)
    (made : makedirsFrom existOk fs start false (reversed.map .name) = .ok after) :
    Grown (NewDirectory reversed.reverse) fs after := by
  induction reversed generalizing after with
  | nil => cases made
  | cons last outer ih =>
      have wider (location : Location) (node : Node φ) (new : NewDirectory outer.reverse location node) :
          NewDirectory (outer.reverse ++ [last]) location node := by
        obtain ⟨directory, name, member, named⟩ := new
        exact ⟨directory, name, List.mem_append_left _ member, named⟩
      rw [List.map_cons, makedirsFrom] at made
      obtain ⟨between, above, made⟩ := except_bind_eq_ok made
      rw [← List.map_cons, ← ofNames_reverse, List.reverse_cons] at made
      have first : Grown (NewDirectory (outer.reverse ++ [last])) fs between := by
        split at above
        · cases above
          exact .refl _
        · cases outerMade : makedirsFrom existOk fs start false (outer.map .name) with
          | ok found =>
              rw [outerMade] at above
              cases above
              exact (ih outerMade).weaken wider
          | error error =>
              rw [outerMade] at above
              cases error with
              | fileExists =>
                  cases above
                  exact .refl _
              | _ => cases above
      rw [List.reverse_cons]
      exact first.trans (mkdir_grown made) (newDirectory_settled _)

theorem makedirs_grown {existOk : Bool} {fs after : FileSystem φ} {start : Location}
    {names : List Name} (made : makedirs existOk fs start (.ofNames names) = .ok after) :
    Grown (NewDirectory names) fs after := by
  rw [makedirs, PurePath.ofNames, ← List.map_reverse] at made
  have grown := makedirsFrom_grown names.reverse made
  rwa [List.reverse_reverse] at grown

/-! ### The copies -/

/-- Where `copy2` puts a library: the target, or inside it where that is a directory. -/
def copyTarget (fs : FileSystem φ) (f0d : Location) (lib : Name) : PurePath :=
  if fs.isDir f0d (.ofNames (twrp16LibNames lib)) then .ofNames (twrp16LibNames lib ++ [lib])
  else .ofNames (twrp16LibNames lib)

/-- A library that is a regular file is copied to a place, which its target may lead to
through links. -/
def Lands (fs : FileSystem φ) (ciF1d f0d : Location) (lib : Name) (location : Location) : Prop :=
  (∃ data, fs.stat false ciF1d (.ofNames (ciLibNames lib)) = .ok (.file data)) ∧
    fs.locate true f0d (copyTarget fs f0d lib) = .ok location

/-- What a copy adds: a link under the library's name, or a file where it lands. -/
def NewCopy (fs : FileSystem φ) (ciF1d f0d : Location) (lib : Name) (location : Location)
    (node : Node φ) : Prop :=
  (∃ target, node = .link target ∧ location.head? = some lib) ∨
    ∃ data, node = .file data ∧ Lands fs ciF1d f0d lib location

section

variable {fs after : FileSystem φ} {ciF1d f0d : Location} {lib : Name}

theorem writeFile_eq_ok {start : Location} {path : PurePath} {data : φ}
    (wrote : writeFile fs start path data = .ok after) : ∃ location,
      fs.locate true start path = .ok location ∧ after.node location = some (.file data) ∧
        Grown (fun other node => other = location ∧ node = .file data) fs after := by
  unfold writeFile at wrote
  split at wrote
  · cases wrote
  · rename_i location located
    refine ⟨location, located, ?_⟩
    split at wrote
    · rename_i old found
      cases wrote
      exact ⟨Function.update_self _ _ _, grown_setFile fs ⟨old, found⟩⟩
    · cases wrote
    · cases wrote
    · refine ⟨?_, grown_createAt wrote⟩
      rw [(createAt_eq_ok wrote).2, Function.update_self]

theorem copyLib_copies (present : fs.pathExists ciF1d (.ofNames (ciLibNames lib)) = true) :
    copyLib fs ciF1d f0d lib =
      copyFile false fs ciF1d (.ofNames (ciLibNames lib)) f0d (copyTarget fs f0d lib) := by
  have inside : { (PurePath.ofNames (twrp16LibNames lib)) with
      steps := (PurePath.ofNames (twrp16LibNames lib)).steps ++
        (PurePath.ofNames (ciLibNames lib)).steps.getLast?.toList } =
      PurePath.ofNames (twrp16LibNames lib ++ [lib]) := by
    simp [PurePath.ofNames, twrp16LibNames, twrp16Names, ciLibNames]
  rw [copyLib, if_pos present, copy2, inside, copyTarget]
  split <;> rfl

/-- A path whose entry is no link is looked up as its target is. -/
theorem stat_regular {start : Location} {path : PurePath} {data : φ}
    (plain : ∀ target, fs.stat false start path ≠ .ok (.link target))
    (opened : fs.stat true start path = .ok (.file data)) :
    fs.stat false start path = .ok (.file data) := by
  have there := lexists_of_stat opened
  unfold FileSystem.lexists at there
  cases found : fs.stat false start path with
  | error error =>
      rw [found] at there
      cases there
  | ok node =>
      obtain ⟨location, located, entry⟩ := stat_eq_ok_iff.mp found
      have followed : fs.stat true start path = .ok node := by
        refine stat_eq_ok_iff.mpr ⟨location, locate_follow located fun target same => ?_, entry⟩
        exact plain target (stat_eq_ok_iff.mpr ⟨location, located, same⟩)
      rw [opened] at followed
      exact followed.symm

/-- What one copy does. -/
theorem copyLib_grown (copied : copyLib fs ciF1d f0d lib = .ok after) :
    Grown (NewCopy fs ciF1d f0d lib) fs after := by
  by_cases present : fs.pathExists ciF1d (.ofNames (ciLibNames lib)) = true
  · rw [copyLib_copies present] at copied
    unfold copyFile at copied
    split at copied
    · cases copied
    · split at copied
      · rename_i linked _ found
        cases made : fs.makeNode (.link linked) f0d (copyTarget fs f0d lib) with
        | error error =>
            rw [made] at copied
            cases copied
        | ok result =>
            rw [made] at copied
            cases copied
            have made : fs.makeNode (.link linked) f0d (copyTarget fs f0d lib) =
                .ok (result.1, result.2) := made
            obtain ⟨located, created⟩ := makeNode_eq_ok made
            refine (grown_createAt created).weaken fun other node new => ?_
            obtain ⟨rfl, rfl⟩ := new
            refine .inl ⟨linked, rfl, ?_⟩
            unfold copyTarget at located
            split at located
            · exact locate_last located
            · exact locate_last located
      · rename_i notLink
        split at copied
        · cases copied
        · rename_i data opened
          obtain ⟨location, located, -, grown⟩ := writeFile_eq_ok copied
          refine grown.weaken fun other node new => ?_
          obtain ⟨rfl, rfl⟩ := new
          refine .inr ⟨data, rfl, ⟨data, stat_regular (fun target found => ?_) opened⟩, located⟩
          exact notLink target rfl found
        · cases copied
  · rw [copyLib, if_neg present] at copied
    cases copied
    exact .refl _

/-- Where a copy lands there is a file afterwards. -/
theorem copyLib_lands {location : Location} (copied : copyLib fs ciF1d f0d lib = .ok after)
    (lands : Lands fs ciF1d f0d lib location) : after.node location ≠ none := by
  obtain ⟨⟨data, found⟩, located⟩ := lands
  have opened : fs.stat true ciF1d (.ofNames (ciLibNames lib)) = .ok (.file data) := by
    obtain ⟨source, sourceLocated, entry⟩ := stat_eq_ok_iff.mp found
    exact stat_eq_ok_iff.mpr
      ⟨source, locate_follow sourceLocated (by rw [entry]; simp), entry⟩
  have present : fs.pathExists ciF1d (.ofNames (ciLibNames lib)) = true := by
    rw [pathExists, opened]
    rfl
  rw [copyLib_copies present] at copied
  unfold copyFile at copied
  rw [found, opened] at copied
  split at copied
  · cases copied
  · obtain ⟨other, otherLocated, written, -⟩ := writeFile_eq_ok copied
    rw [located] at otherLocated
    cases otherLocated
    rw [written]
    simp

/-- A property of each library and the tree that its copy begins with. -/
def EachCopy (ciF1d f0d : Location) (libs : List Name) (fs : FileSystem φ)
    (property : FileSystem φ → Name → Prop) : Prop :=
  ∀ front lib back reached, libs = front ++ lib :: back →
    copyLibs fs ciF1d f0d front = .ok reached → property reached lib

theorem eachCopy_cons {libs : List Name} {property : FileSystem φ → Name → Prop}
    (copied : copyLib fs ciF1d f0d lib = .ok after) :
    EachCopy ciF1d f0d (lib :: libs) fs property ↔
      property fs lib ∧ EachCopy ciF1d f0d libs after property := by
  constructor
  · intro each
    refine ⟨each [] lib libs fs rfl rfl, fun front other back reached split reach => ?_⟩
    refine each (lib :: front) other back reached (by rw [split]; rfl) ?_
    rw [copyLibs, copied]
    exact reach
  · intro both front other back reached split reach
    cases front with
    | nil =>
        cases split
        cases reach
        exact both.1
    | cons head front =>
        cases split
        rw [copyLibs, copied] at reach
        exact both.2 front other back reached rfl reach

/-- A free place that bears no library's name stays free when no copy lands there. -/
theorem copyLibs_free_iff {libs : List Name} {location : Location}
    (copied : copyLibs fs ciF1d f0d libs = .ok after)
    (named : ∀ lib ∈ libs, location.head? ≠ some lib) (free : fs.node location = none) :
    after.node location = none ↔
      EachCopy ciF1d f0d libs fs fun reached lib => ¬ Lands reached ciF1d f0d lib location := by
  induction libs generalizing fs with
  | nil =>
      cases copied
      refine iff_of_true free fun front lib back reached split => ?_
      simp at split
  | cons lib rest ih =>
      rw [copyLibs] at copied
      obtain ⟨between, first, copied⟩ := except_bind_eq_ok copied
      rw [eachCopy_cons first]
      by_cases lands : Lands fs ciF1d f0d lib location
      · refine iff_of_false (fun absent => ?_) fun both => both.1 lands
        have restGrown : ∀ libs fs, copyLibs fs ciF1d f0d libs = .ok after →
            fs.node location ≠ none → after.node location ≠ none := by
          intro libs
          induction libs with
          | nil =>
              intro fs copied present
              cases copied
              exact present
          | cons lib rest ih =>
              intro fs copied present
              rw [copyLibs] at copied
              obtain ⟨next, head, copied⟩ := except_bind_eq_ok copied
              exact ih next copied ((copyLib_grown head).present present)
        exact restGrown rest between copied (copyLib_lands first lands) absent
      · have stays : between.node location = none := by
          by_contra present
          obtain ⟨node, found⟩ := Option.ne_none_iff_exists'.mp present
          rcases (copyLib_grown first).fresh location node free found with link | file
          · obtain ⟨_, _, name⟩ := link
            exact named lib List.mem_cons_self name
          · obtain ⟨_, _, there⟩ := file
            exact lands there
        rw [ih copied (fun other member => named other (List.mem_cons_of_mem _ member)) stays]
        exact (and_iff_right lands).symm

/-- What all copies add. -/
def NewLibrary (libs : List Name) (location : Location) (node : Node φ) : Prop :=
  (∃ target, node = .link target ∧ ∃ lib ∈ libs, location.head? = some lib) ∨
    ∃ data, node = .file data

theorem copyLibs_grown {libs : List Name} (copied : copyLibs fs ciF1d f0d libs = .ok after) :
    Grown (NewLibrary libs) fs after := by
  induction libs generalizing fs with
  | nil =>
      cases copied
      exact .refl _
  | cons lib rest ih =>
      rw [copyLibs] at copied
      obtain ⟨between, first, copied⟩ := except_bind_eq_ok copied
      have here : Grown (NewLibrary (lib :: rest)) fs between := by
        refine (copyLib_grown first).weaken fun location node new => ?_
        rcases new with link | file
        · obtain ⟨target, rfl, name⟩ := link
          exact .inl ⟨target, rfl, lib, List.mem_cons_self, name⟩
        · obtain ⟨data, rfl, _⟩ := file
          exact .inr ⟨data, rfl⟩
      refine here.trans ((ih copied).weaken fun location node new => ?_)
        fun _ _ new _ => .inr ⟨new, rfl⟩
      rcases new with link | file
      · obtain ⟨target, rfl, other, member, name⟩ := link
        exact .inl ⟨target, rfl, other, List.mem_cons_of_mem _ member, name⟩
      · exact .inr file

end

/-- The edit of the script adds nothing. -/
theorem editScript_grown {fresh : Location → Node Bytes → Prop} {fs after : FileSystem Bytes}
    {f0d : Location} (edited : editScript fs f0d = .ok after) : Grown fresh fs after := by
  unfold editScript at edited
  split at edited
  · obtain ⟨c, read, edited⟩ := except_bind_eq_ok edited
    obtain ⟨location, located, entry⟩ : ∃ location,
        fs.locate true f0d (.ofNames initRcNames) = .ok location ∧
          ∃ raw, fs.node location = some (.file raw) := by
      unfold readText readTextFile at read
      split at read
      · cases read
      · rename_i raw opened
        obtain ⟨location, located, found⟩ := stat_eq_ok_iff.mp opened
        exact ⟨location, located, raw, found⟩
      · cases read
    obtain ⟨raw, found⟩ := entry
    obtain ⟨other, otherLocated, -, grown⟩ := writeFile_eq_ok (mapError_eq_ok.mp edited)
    rw [located] at otherLocated
    cases otherLocated
    refine ⟨grown.kept, fun place node absent present => ?_⟩
    obtain ⟨rfl, -⟩ := grown.fresh place node absent present
    rw [found] at absent
    cases absent
  · cases edited
    exact .refl _

end DashTwrp.PrepareFragments

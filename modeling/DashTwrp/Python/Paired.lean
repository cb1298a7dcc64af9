import DashTwrp.Unix.Hidden
import DashTwrp.Python.Copies
import DashTwrp.Python.Removals

namespace DashTwrp.Python

open DashTwrp.Unix

/-! The file operations on two paired trees: both fail in the same way, or the trees
they leave are paired again. -/

variable {φ : Type} {dir start : Location} {names : List Name}
  {first second one other : FileSystem φ} {path : PurePath}

/-- Results that are paired trees, or the same error. -/
abbrev PairedResults (dir : Location) (names : List Name) (first second : FileSystem φ) :
    Except OsError (FileSystem φ) → Except OsError (FileSystem φ) → Prop :=
  Matches (Paired dir names first second)

theorem createAt_paired (paired : Paired dir names first second one other) {location : Location}
    (clear : ¬ Hidden dir names location) {node : Node φ}
    (blind : ∀ target, node = .link target → Blind names target.steps) :
    PairedResults dir names first second (one.createAt node location)
      (other.createAt node location) := by
  cases location with
  | nil => rfl
  | cons name parent =>
      have above := paired.same parent fun hidden => clear (hidden.below (List.suffix_cons name parent))
      have free := paired.same (name :: parent) clear
      cases created : one.createAt node (name :: parent) with
      | error error =>
          rw [FileSystem.createAt_error_congr above free created]
          rfl
      | ok after =>
          cases createdOther : other.createAt node (name :: parent) with
          | error error =>
              rw [FileSystem.createAt_error_congr above.symm free.symm createdOther] at created
              cases created
          | ok afterOther =>
              obtain ⟨absent, changed⟩ := FileSystem.createAt_eq_ok created
              refine paired.update clear ?_ blind changed (FileSystem.createAt_eq_ok createdOther).2
              intro here
              rw [here, paired.directory] at absent
              cases absent

theorem makeNode_paired (paired : Paired dir names first second one other)
    (clear : ¬ Hidden dir names start) (blind : Blind names path.steps) {node : Node φ}
    (linkBlind : ∀ target, node = .link target → Blind names target.steps) :
    Matches (fun made madeOther => Paired dir names first second made.1 madeOther.1)
      (one.makeNode node start path) (other.makeNode node start path) := by
  obtain ⟨same, ends⟩ := paired.locate_clear false clear blind
  unfold FileSystem.makeNode
  rw [← same]
  cases located : one.locate false start path with
  | error error => rfl
  | ok location =>
      have created := createAt_paired paired (ends location located) linkBlind
      simp only
      cases made : one.createAt node location with
      | error error =>
          cases madeOther : other.createAt node location with
          | error errorOther =>
              rw [made, madeOther] at created
              exact created
          | ok afterOther =>
              rw [made, madeOther] at created
              exact created.elim
      | ok after =>
          cases madeOther : other.createAt node location with
          | error errorOther =>
              rw [made, madeOther] at created
              exact created.elim
          | ok afterOther =>
              rw [made, madeOther] at created
              exact created

theorem mkdir_paired (paired : Paired dir names first second one other)
    (clear : ¬ Hidden dir names start) (blind : Blind names path.steps) (existOk : Bool) :
    PairedResults dir names first second (mkdir existOk one start path)
      (mkdir existOk other start path) := by
  have made : Matches (fun made madeOther => Paired dir names first second made.1 madeOther.1)
      (one.makeNode .directory start path) (other.makeNode .directory start path) :=
    makeNode_paired paired clear blind fun target isLink => by cases isLink
  unfold mkdir
  rw [← paired.isDir clear blind]
  cases result : one.makeNode .directory start path with
  | error error =>
      cases resultOther : other.makeNode .directory start path with
      | error errorOther =>
          rw [result, resultOther] at made
          cases made
          simp only
          split
          · exact paired
          · rfl
      | ok afterOther =>
          rw [result, resultOther] at made
          exact made.elim
  | ok after =>
      cases resultOther : other.makeNode .directory start path with
      | error errorOther =>
          rw [result, resultOther] at made
          exact made.elim
      | ok afterOther =>
          rw [result, resultOther] at made
          exact made

theorem ignoreFileExists_paired (paired : Paired dir names first second one other)
    {result resultOther : Except OsError (FileSystem φ)}
    (ends : PairedResults dir names first second result resultOther) :
    PairedResults dir names first second (ignoreFileExists one result)
      (ignoreFileExists other resultOther) := by
  cases result with
  | ok after =>
      cases resultOther with
      | ok afterOther => exact ends
      | error errorOther => exact ends.elim
  | error error =>
      cases resultOther with
      | ok afterOther => exact ends.elim
      | error errorOther =>
          cases ends
          cases error with
          | fileExists => exact paired
          | _ => rfl

theorem makedirsFrom_paired (paired : Paired dir names first second one other)
    (clear : ¬ Hidden dir names start) (existOk absolute : Bool) {reversed : List Step}
    (blind : Blind names reversed) :
    PairedResults dir names first second (makedirsFrom existOk one start absolute reversed)
      (makedirsFrom existOk other start absolute reversed) := by
  have back {steps : List Step} (blind : Blind names steps) : Blind names steps.reverse :=
    fun name member found => blind name member (List.mem_reverse.mp found)
  induction reversed with
  | nil => rfl
  | cons last outer ih =>
      rw [makedirsFrom, makedirsFrom]
      refine Matches.bind ?_ fun made madeOther _ pair => mkdir_paired pair clear (back blind) existOk
      have outerBlind := blind_tail blind
      have exists_same : one.pathExists start ⟨absolute, outer.reverse⟩ =
          other.pathExists start ⟨absolute, outer.reverse⟩ := paired.pathExists clear (back outerBlind)
      rw [← exists_same]
      split
      · exact paired
      · exact ignoreFileExists_paired paired (ih outerBlind)

theorem makedirs_paired (paired : Paired dir names first second one other)
    (clear : ¬ Hidden dir names start) (blind : Blind names path.steps) (existOk : Bool) :
    PairedResults dir names first second (makedirs existOk one start path)
      (makedirs existOk other start path) :=
  makedirsFrom_paired paired clear existOk path.absolute
    fun name member found => blind name member (List.mem_reverse.mp found)

theorem osRemove_paired (paired : Paired dir names first second one other)
    (clear : ¬ Hidden dir names start) (blind : Blind names path.steps) :
    PairedResults dir names first second (osRemove one start path) (osRemove other start path) := by
  obtain ⟨same, ends⟩ := paired.locate_clear false clear blind
  unfold osRemove
  rw [← same]
  cases located : one.locate false start path with
  | error error => rfl
  | ok location =>
      have visible := ends location located
      simp only [← paired.same location visible]
      cases found : one.node location with
      | none => rfl
      | some node =>
          have apart (leaf : node ≠ .directory) : ¬ location <:+ dir := by
            intro above
            obtain ⟨inner, whole⟩ := above
            have inside := paired.directory
            rw [← whole] at inside
            by_cases here : inner = []
            · rw [here, List.nil_append, found] at inside
              exact leaf (Option.some.inj inside)
            · have parent := one.directory_above inner here (by rw [inside]; simp)
              rw [found] at parent
              exact leaf (Option.some.inj parent)
          cases node with
          | directory => rfl
          | file data =>
              simp only
              split
              · exact paired.removeBelow visible (apart (by simp)) _
              · rfl
          | link target =>
              simp only
              split
              · exact paired.removeBelow visible (apart (by simp)) _
              · rfl

theorem rmtree_paired (paired : Paired dir names first second one other)
    (clear : ¬ Hidden dir names start) (blind : Blind names path.steps)
    (apart : ∀ location, one.locate false start path = .ok location → ¬ location <:+ dir) :
    PairedResults dir names first second (rmtree one start path) (rmtree other start path) := by
  obtain ⟨same, ends⟩ := paired.locate_clear false clear blind
  unfold rmtree
  rw [← same]
  cases located : one.locate false start path with
  | error error => rfl
  | ok location =>
      have visible := ends location located
      simp only [← paired.same location visible]
      cases found : one.node location with
      | none => rfl
      | some node =>
          cases node with
          | directory =>
              simp only
              split
              · exact paired.removeBelow visible (apart location located) _
              · rfl
          | file data => rfl
          | link target => rfl

theorem removeTree_paired (paired : Paired dir names first second one other)
    (clear : ¬ Hidden dir names start) (blind : Blind names path.steps)
    (apart : ∀ location, one.locate false start path = .ok location → ¬ location <:+ dir) :
    PairedResults dir names first second (removeTree one start path)
      (removeTree other start path) := by
  unfold removeTree
  rw [← paired.pathExists clear blind]
  split
  · exact rmtree_paired paired clear blind apart
  · exact paired

theorem writeFile_paired (paired : Paired dir names first second one other)
    (clear : ¬ Hidden dir names start) (blind : Blind names path.steps) (data : φ) :
    PairedResults dir names first second (writeFile one start path data)
      (writeFile other start path data) := by
  obtain ⟨same, ends⟩ := paired.locate_clear true clear blind
  unfold writeFile
  rw [← same]
  cases located : one.locate true start path with
  | error error => rfl
  | ok location =>
      have visible := ends location located
      have node := paired.same location visible
      simp only
      split
      · rename_i old found
        split
        · refine paired.update visible ?_ (fun target isLink => by cases isLink) rfl rfl
          intro here
          rw [here, paired.directory] at found
          cases found
        all_goals simp_all
      · split <;> simp_all [Matches]
      · split <;> simp_all [Matches]
      · rename_i free
        split
        · simp_all
        · simp_all
        · simp_all
        · exact createAt_paired paired visible fun target isLink => by cases isLink

section

variable {sourceStart targetStart : Location} {source target : PurePath}

theorem sameFile_paired (paired : Paired dir names first second one other)
    (clearSource : ¬ Hidden dir names sourceStart) (blindSource : Blind names source.steps)
    (clear : ¬ Hidden dir names targetStart) (blind : Blind names target.steps) :
    sameFile one sourceStart source targetStart target =
      sameFile other sourceStart source targetStart target := by
  obtain ⟨sameSource, ends⟩ := paired.locate_clear true clearSource blindSource
  unfold sameFile
  rw [← sameSource, ← paired.locate true clear blind]
  cases located : one.locate true sourceStart source with
  | error error => rfl
  | ok location =>
      have there := paired.same location (ends location located)
      cases one.locate true targetStart target with
      | error error => rfl
      | ok reached =>
          simp only
          rw [there]

theorem copyFile_paired (paired : Paired dir names first second one other)
    (clearSource : ¬ Hidden dir names sourceStart) (blindSource : Blind names source.steps)
    (clear : ¬ Hidden dir names targetStart) (blind : Blind names target.steps) (follow : Bool) :
    PairedResults dir names first second (copyFile follow one sourceStart source targetStart target)
      (copyFile follow other sourceStart source targetStart target) := by
  unfold copyFile
  rw [← sameFile_paired paired clearSource blindSource clear blind,
    ← paired.stat false clearSource blindSource, ← paired.stat true clearSource blindSource]
  split
  · rfl
  · split
    · rename_i linked found
      have linkBlind : ∀ other, Node.link linked = (.link other : Node φ) →
          Blind names other.steps := fun _ isLink => Node.link.inj isLink ▸
            paired.link_blind clearSource blindSource found
      have made := makeNode_paired paired clear blind linkBlind
      simp only [map_eq_pure_bind]
      exact made.bind fun _ _ _ pair => pair
    · split
      · rfl
      · exact writeFile_paired paired clear blind _
      · rfl

theorem copy2_paired (paired : Paired dir names first second one other)
    (clearSource : ¬ Hidden dir names sourceStart) (blindSource : Blind names source.steps)
    (clear : ¬ Hidden dir names targetStart) (blind : Blind names target.steps) (follow : Bool) :
    PairedResults dir names first second (copy2 follow one sourceStart source targetStart target)
      (copy2 follow other sourceStart source targetStart target) := by
  have inner : Blind names (target.steps ++ source.steps.getLast?.toList) := by
    refine blind_append.mpr ⟨blind, fun name member last => ?_⟩
    exact blindSource name member (List.mem_of_getLast? (Option.mem_toList.mp last))
  unfold copy2
  rw [← paired.isDir clear blind]
  split
  · exact copyFile_paired paired clearSource blindSource clear inner follow
  · exact copyFile_paired paired clearSource blindSource clear blind follow

/-- A directory that had to be new is not around one that is there. -/
theorem makedirs_fresh {fs made : FileSystem φ} (inside : fs.node dir = some .directory)
    (new : makedirs false fs start path = .ok made) :
    ∃ location, made.locate true start path = .ok location ∧ ¬ location <:+ dir := by
  unfold makedirs at new
  cases reversed : path.steps.reverse with
  | nil =>
      rw [reversed] at new
      cases new
  | cons last outer =>
      rw [reversed, makedirsFrom] at new
      obtain ⟨between, above, new⟩ := except_bind_eq_ok new
      have kept : Lasting fs between := by
        split at above
        · cases above
          exact .refl _
        · cases outerMade : makedirsFrom false fs start path.absolute outer with
          | ok found =>
              rw [outerMade] at above
              cases above
              exact makedirsFrom_lasting outer outerMade
          | error error =>
              rw [outerMade] at above
              cases error with
              | fileExists =>
                  cases above
                  exact .refl _
              | _ => cases above
      have whole : (⟨path.absolute, (last :: outer).reverse⟩ : PurePath) = path := by
        rw [← reversed, List.reverse_reverse]
      rw [whole, mkdir] at new
      split at new
      · rename_i after location entry
        cases new
        obtain ⟨located, created⟩ := FileSystem.makeNode_eq_ok entry
        obtain ⟨free, changed⟩ := FileSystem.createAt_eq_ok created
        have there : made.node location = some .directory := by rw [changed, Function.update_self]
        refine ⟨location, FileSystem.locate_follow (FileSystem.locate_extends
          (FileSystem.createAt_extends created) (fun _ follows => by cases follows) located)
            (by rw [there]; simp), ?_⟩
        intro around
        obtain ⟨inner, whole⟩ := around
        have present := kept _ _ inside (by simp)
        rw [← whole] at present
        have occupied : between.node location ≠ none := by
          by_cases here : inner = []
          · rw [here, List.nil_append] at present
            rw [present]
            simp
          · rw [between.directory_above inner here (by rw [present]; simp)]
            simp
        exact occupied free
      · simp at new

/-- A tree is copied from where both trees are alike. -/
theorem copytree_paired (paired : Paired dir names first second one other)
    (sources : one.locate true sourceStart source = other.locate true sourceStart source)
    (copies : ∀ origin, one.locate true sourceStart source = .ok origin → ∀ inner,
      one.node (inner ++ origin) = other.node (inner ++ origin) ∧
        ∀ target, one.node (inner ++ origin) = some (.link target) → Blind names target.steps)
    (clear : ¬ Hidden dir names targetStart) (blind : Blind names target.steps) :
    PairedResults dir names first second (copytree one sourceStart source targetStart target)
      (copytree other sourceStart source targetStart target) := by
  unfold copytree
  rw [← sources]
  cases located : one.locate true sourceStart source with
  | error error => rfl
  | ok origin =>
      have alike := copies origin located
      simp only [← show one.node origin = other.node origin from (alike []).1]
      cases one.node origin with
      | none => rfl
      | some node =>
          cases node with
          | file data => rfl
          | link target => rfl
          | directory =>
              refine (makedirs_paired paired clear blind false).bind fun made madeOther new pair => ?_
              obtain ⟨same, ends⟩ := pair.locate_clear true clear blind
              obtain ⟨there, reached, apart⟩ := makedirs_fresh paired.directory new
              have visible := ends there reached
              rw [← same, reached]
              cases there with
              | nil => rfl
              | cons name parent =>
                  have above := pair.same parent
                    fun hidden => visible (hidden.below (List.suffix_cons name parent))
                  simp only
                  split
                  · rename_i inside
                    split
                    · exact pair.graft visible apart (fun inner => (alike inner).1)
                        (fun inner => (alike inner).2) _ _
                    · rename_i outside
                      rw [above] at inside
                      exact (outside inside).elim
                  · rename_i outside
                    split
                    · rename_i inside
                      rw [← above] at inside
                      exact (outside inside).elim
                    · rfl

end

end DashTwrp.Python

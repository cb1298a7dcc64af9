import DashTwrp.PrepareFragments.F0Growth
import DashTwrp.RepackF1.Merge

namespace DashTwrp.RepackF1

open DashTwrp.Python DashTwrp.Unix DashTwrp.Unix.FileSystem DashTwrp.PrepareFragments

/-! What the removal steps of the two tools leave. -/

variable {φ : Type}

/-- The loop that removes the recovery binary and `res` from the stock tree. -/
def removeStock (fs : FileSystem φ) (f0d : Location) : Except OsError (FileSystem φ) :=
  removePath fs f0d (.ofNames recoveryNames) >>= fun fs => removePath fs f0d (.ofNames resNames)

/-- `shutil.rmtree if os.path.isdir(p) else os.remove` -/
def removeEither (fs : FileSystem φ) (start : Location) (path : PurePath) :
    Except OsError (FileSystem φ) :=
  if fs.isDir start path then rmtree fs start path else osRemove fs start path

theorem removeEither_removes : Removes (φ := φ) removeEither := by
  intro fs start path after removed
  unfold removeEither at removed
  split at removed
  · exact rmtree_removes fs start path after removed
  · exact osRemove_removes fs start path after removed

theorem removePath_eq (fs : FileSystem φ) (start : Location) (path : PurePath) :
    removePath fs start path = removeExisting removeEither fs start path := rfl

theorem removeCore_eq (tmp : Location) (fs : FileSystem φ) (f : Name) :
    removeCore tmp fs f = removeExisting osRemove fs (f1Dir tmp) (.ofNames (coreFile f)) := rfl

/-- The entry of the recovery binary lies in the directory that is removed as `res`. -/
def InRes (fs : FileSystem φ) (f0d : Location) : Prop :=
  fs.pathExists f0d (.ofNames resNames) = true ∧
    ∀ entry res, fs.locate false f0d (.ofNames recoveryNames) = .ok entry →
      fs.locate false f0d (.ofNames resNames) = .ok res → res <:+ entry

/-- The stock tree is rid of both paths exactly when neither is a dangling link
as its turn comes, but for a link that lies in `res`. -/
theorem removeStock_gone_iff {fs first after : FileSystem φ} {f0d : Location}
    (removedFirst : removePath fs f0d (.ofNames recoveryNames) = .ok first)
    (removedSecond : removePath first f0d (.ofNames resNames) = .ok after) :
    Gone fs after f0d (.ofNames recoveryNames) ∧ Gone first after f0d (.ofNames resNames) ↔
      (Dangling fs f0d (.ofNames recoveryNames) → InRes fs f0d) ∧
        ¬ Dangling first f0d (.ofNames resNames) := by
  rw [removePath_eq] at removedFirst removedSecond
  have smaller := removeExisting_extends removeEither_removes removedSecond
  have resGone : Gone first after f0d (.ofNames resNames) ↔
      ¬ Dangling first f0d (.ofNames resNames) := by
    refine ⟨fun gone dangling => ?_, fun sound =>
      removeExisting_gone removeEither_removes removedSecond sound (.refl after)⟩
    rw [removeExisting_dangling dangling] at removedSecond
    cases removedSecond
    exact gone.not_dangling dangling
  rw [resGone, and_congr_left_iff]
  intro resSound
  by_cases dangling : Dangling fs f0d (.ofNames recoveryNames)
  · rw [removeExisting_dangling dangling] at removedFirst
    cases removedFirst
    simp only [dangling, forall_const]
    unfold removeExisting at removedSecond
    split at removedSecond
    · rename_i present
      obtain ⟨res, resLocated, without⟩ := removeEither_removes _ _ _ _ removedSecond
      refine ⟨fun gone => ⟨present, fun entry other located otherLocated => ?_⟩, fun inRes => ?_⟩
      · rw [resLocated] at otherLocated
        cases otherLocated
        by_contra outside
        have there := gone.entry entry located
        rw [without, if_neg outside] at there
        obtain ⟨same, sameLocated, present⟩ := dangling.entry
        rw [located] at sameLocated
        cases sameLocated
        exact present there
      · refine .of_entry smaller fun entry located => ?_
        rw [without, if_pos (inRes.2 entry res located resLocated)]
    · rename_i absent
      cases removedSecond
      refine iff_of_false (fun gone => ?_) fun inRes => absent inRes.1
      exact gone.not_dangling dangling
  · simp only [dangling, false_implies, iff_true]
    exact removeExisting_gone removeEither_removes removedFirst dangling smaller

/-! ### The rest of the F0 step -/

/-- The tree that the copies of the libraries begin with. -/
def emptied (fs : FileSystem φ) (f0d : Location) : Except OsError (FileSystem φ) :=
  removeStock fs f0d >>= fun fs => makedirs true fs f0d (.ofNames twrp16Names)

/-- Neither of the two entries is left of the stock tree. -/
structure StockGone (stock after : FileSystem φ) (f0d : Location) : Prop where
  recovery : Gone stock after f0d (.ofNames recoveryNames)
  res : ∀ first, removePath stock f0d (.ofNames recoveryNames) = .ok first →
    Gone first after f0d (.ofNames resNames)

/-- The place of an entry that is to be removed. -/
def Removed (stock : FileSystem φ) (f0d location : Location) : Prop :=
  stock.locate false f0d (.ofNames recoveryNames) = .ok location ∨ location = "res" :: f0d

/-- Neither path is a dangling link as its turn comes, but for a link that lies in `res`,
and no library is copied through a link to the place of a removed entry. -/
structure StockSound (stock : FileSystem φ) (f0d ciF1d : Location) : Prop where
  recovery : Dangling stock f0d (.ofNames recoveryNames) → InRes stock f0d
  res : ∀ first, removePath stock f0d (.ofNames recoveryNames) = .ok first →
    ¬ Dangling first f0d (.ofNames resNames)
  copies : ∀ made, emptied stock f0d = .ok made →
    EachCopy ciF1d f0d twrp16Libs made fun reached lib =>
      ∀ location, Removed stock f0d location → ¬ Lands reached ciF1d f0d lib location

/-- The way to the recovery binary ends at a link that leads nowhere. -/
def DeadEnd (stock : FileSystem φ) (f0d : Location) : Prop :=
  Dangling stock f0d (.ofNames ["system"]) ∨ Dangling stock f0d (.ofNames ["system", "bin"])

/-- What is new behind the removals. -/
def NewEntry (location : Location) (node : Node φ) : Prop :=
  NewDirectory twrp16Names location node ∨ NewLibrary twrp16Libs location node

section

variable {stock first cleared made copied after : FileSystem Bytes} {f0d ciF1d location : Location}

theorem f0Transform_eq_ok (run : f0Transform stock f0d ciF1d = .ok after) :
    ∃ first cleared made copied, removePath stock f0d (.ofNames recoveryNames) = .ok first ∧
      removePath first f0d (.ofNames resNames) = .ok cleared ∧
      makedirs true cleared f0d (.ofNames twrp16Names) = .ok made ∧
      copyLibs made ciF1d f0d twrp16Libs = .ok copied ∧ editScript copied f0d = .ok after := by
  unfold f0Transform at run
  obtain ⟨first, recoveryRemoved, run⟩ := except_bind_eq_ok run
  obtain ⟨cleared, resRemoved, run⟩ := except_bind_eq_ok run
  obtain ⟨made, makes, run⟩ := except_bind_eq_ok run
  obtain ⟨copied, copies, edits⟩ := except_bind_eq_ok run
  exact ⟨first, cleared, made, copied, mapError_eq_ok.mp recoveryRemoved,
    mapError_eq_ok.mp resRemoved, mapError_eq_ok.mp makes, mapError_eq_ok.mp copies, edits⟩

theorem f0Transform_grown (makes : makedirs true cleared f0d (.ofNames twrp16Names) = .ok made)
    (copies : copyLibs made ciF1d f0d twrp16Libs = .ok copied)
    (edits : editScript copied f0d = .ok after) : Grown NewEntry cleared after := by
  have settled (location : Location) (old new : Bytes) (_ : NewEntry location (.file old)) :
      NewEntry location (.file new) := .inr (.inr ⟨new, rfl⟩)
  have directories : Grown NewEntry cleared made :=
    (makedirs_grown makes).weaken fun _ _ new => .inl new
  have libraries : Grown NewEntry made copied :=
    (copyLibs_grown copies).weaken fun _ _ new => .inr new
  exact (directories.trans libraries settled).trans (editScript_grown edits) settled

/-- A free place under another name stays free when no copy lands there. -/
theorem f0Transform_free_iff (makes : makedirs true cleared f0d (.ofNames twrp16Names) = .ok made)
    (copies : copyLibs made ciF1d f0d twrp16Libs = .ok copied)
    (edits : editScript copied f0d = .ok after) (free : cleared.node location = none)
    (named : ∀ name ∈ twrp16Names ++ twrp16Libs, location.head? ≠ some name) :
    after.node location = none ↔ EachCopy ciF1d f0d twrp16Libs made fun reached lib =>
      ¬ Lands reached ciF1d f0d lib location := by
  have madeFree : made.node location = none := by
    by_contra present
    obtain ⟨node, found⟩ := Option.ne_none_iff_exists'.mp present
    obtain ⟨-, name, member, same⟩ := (makedirs_grown makes).fresh location node free found
    exact named name (List.mem_append_left _ member) same
  rw [← copyLibs_free_iff copies
    (fun lib member => named lib (List.mem_append_right _ member)) madeFree]
  have edited : Grown (fun _ _ => False) copied after := editScript_grown edits
  refine ⟨fun absent => ?_, fun absent => ?_⟩
  · by_contra present
    exact edited.present present absent
  · by_contra present
    obtain ⟨node, found⟩ := Option.ne_none_iff_exists'.mp present
    exact edited.fresh location node absent found

theorem Removed.last (removed : Removed stock f0d location) :
    location.head? = some "recovery" ∨ location.head? = some "res" := by
  rcases removed with located | rfl
  · have ends : stock.locate false f0d (.ofNames (["system", "bin"] ++ ["recovery"])) =
        .ok location := located
    exact .inl (locate_last ends)
  · exact .inr rfl

theorem Removed.named (removed : Removed stock f0d location) :
    ∀ name ∈ twrp16Names ++ twrp16Libs, location.head? ≠ some name := by
  have other : ∀ name ∈ twrp16Names ++ twrp16Libs, name ≠ "recovery" ∧ name ≠ "res" := by decide
  intro name member same
  rcases removed.last with last | last <;> rw [last, Option.some.injEq] at same
  · exact (other name member).1 same.symm
  · exact (other name member).2 same.symm

theorem removePath_lost {path : PurePath} (removed : removePath stock f0d path = .ok after)
    (present : stock.node location ≠ none) (lost : after.node location = none) :
    ∃ entry, stock.locate false f0d path = .ok entry ∧ entry <:+ location := by
  rw [removePath_eq, removeExisting] at removed
  split at removed
  · obtain ⟨entry, located, without⟩ := removeEither_removes _ _ _ _ removed
    refine ⟨entry, located, ?_⟩
    by_contra outside
    rw [without, if_neg outside] at lost
    exact present lost
  · cases removed
    exact absurd lost present

theorem none_of_suffix {fs : FileSystem φ} {entry location : Location} (below : entry <:+ location)
    (absent : fs.node entry = none) : fs.node location = none := by
  obtain ⟨inner, rfl⟩ := below
  by_cases here : inner = []
  · rw [here]
    exact absent
  · exact fs.none_below inner here (by rw [absent]; simp)

/-- The stock tree loses entries in its removals, and what is gone stays so. -/
theorem f0Transform_thinned (recoveryRemoved : removePath stock f0d (.ofNames recoveryNames) = .ok first)
    (resRemoved : removePath first f0d (.ofNames resNames) = .ok cleared)
    (later : Grown NewEntry cleared after)
    (gone : ∀ entry, Removed stock f0d entry → after.node entry = none) :
    Thinned stock.kinds after.kinds := by
  intro location node found
  by_cases kept : cleared.node location = none
  · left
    have present : stock.node location ≠ none := fun absent => by
      rw [kinds_eq_none.mpr absent] at found
      cases found
    rw [kinds_eq_none]
    by_cases firstLost : first.node location = none
    · obtain ⟨entry, located, below⟩ := removePath_lost recoveryRemoved present firstLost
      exact none_of_suffix below (gone entry (.inl located))
    · obtain ⟨entry, located, below⟩ := removePath_lost resRemoved firstLost kept
      rw [show resNames = ["res"] from rfl, locate_name] at located
      cases located
      exact none_of_suffix below (gone _ (.inr rfl))
  · right
    obtain ⟨old, there⟩ := Option.ne_none_iff_exists'.mp kept
    have inFirst := removeExisting_extends removeEither_removes resRemoved _ _ there
    have inStock := removeExisting_extends removeEither_removes recoveryRemoved _ _ inFirst
    refine later.kept location node ?_
    change (cleared.node location).map Node.kind = some node
    rw [there, ← inStock]
    exact found

/-- A directory of the tree is never new where the stock tree has nothing named `bin`. -/
theorem bin_leaf {directory : Location} (later : Grown NewEntry cleared after)
    (absent : cleared.node ("bin" :: directory) = none) :
    after.node ("bin" :: directory) ≠ some .directory ∧
      ∀ target, after.node ("bin" :: directory) ≠ some (.link target) := by
  have other : ∀ name ∈ twrp16Names ++ twrp16Libs, name ≠ "bin" := by decide
  constructor
  · intro found
    rcases later.fresh _ _ absent found with new | new
    · obtain ⟨-, name, member, same⟩ := new
      exact other name (List.mem_append_left _ member) (Option.some.inj same).symm
    · rcases new with link | file
      · obtain ⟨_, same, _⟩ := link
        cases same
      · obtain ⟨_, same⟩ := file
        cases same
  · intro target found
    rcases later.fresh _ _ absent found with new | new
    · cases new.1
    · rcases new with link | file
      · obtain ⟨_, _, name, member, same⟩ := link
        exact other name (List.mem_append_right _ member) (Option.some.inj same).symm
      · obtain ⟨_, same⟩ := file
        cases same

/-- The path of the recovery binary leads to no entry that it did not lead to before. -/
theorem recovery_reached (thinned : Thinned stock.kinds after.kinds)
    (later : Grown NewEntry cleared after) (smaller : cleared.Extends stock)
    (sound : ¬ DeadEnd stock f0d)
    (located : after.locate false f0d (.ofNames recoveryNames) = .ok location)
    (present : after.node location ≠ none) :
    stock.locate false f0d (.ofNames recoveryNames) = .ok location := by
  have absentThere {place : Location} (absent : stock.node place = none) :
      cleared.node place = none := by
    by_contra there
    obtain ⟨node, found⟩ := Option.ne_none_iff_exists'.mp there
    rw [smaller _ _ found] at absent
    cases absent
  obtain ⟨bin, binLocated, binDirectory, rfl⟩ :=
    locate_of_concat ["system", "bin"] present located
  have binThere : after.lexists f0d (.ofNames ["system", "bin"]) = true :=
    lexists_of_stat (stat_eq_ok_iff.mpr ⟨bin, binLocated, binDirectory⟩)
  obtain ⟨entry, entryLocated, entryThere⟩ := lexists_of_extends (.refl after) binThere
  obtain ⟨system, systemLocated, systemDirectory, rfl⟩ :=
    locate_of_concat ["system"] entryThere entryLocated
  -- A file or nothing named `bin` would be new, and the path does not go on there.
  have notNew (absent : stock.node ("bin" :: system) = none) : False := by
    obtain ⟨notDirectory, notLink⟩ := bin_leaf later (absentThere absent)
    have same := locate_follow entryLocated notLink
    rw [binLocated] at same
    cases same
    exact notDirectory binDirectory
  by_cases systemExists : stock.pathExists f0d (.ofNames ["system"]) = true
  · obtain ⟨stockSystem, stockLocated, stockThere⟩ :
        ∃ place, stock.locate true f0d (.ofNames ["system"]) = .ok place ∧
          stock.node place ≠ none := by
      unfold pathExists at systemExists
      cases found : stock.stat true f0d (.ofNames ["system"]) with
      | error error =>
          rw [found] at systemExists
          cases systemExists
      | ok node =>
          obtain ⟨place, placeLocated, there⟩ := stat_eq_ok_iff.mp found
          exact ⟨place, placeLocated, by rw [there]; simp⟩
    obtain ⟨rfl, sameKind⟩ := locate_same thinned stockLocated stockThere systemLocated
      (by rw [systemDirectory]; simp)
    rw [kinds_eq_directory.mpr systemDirectory] at sameKind
    have stockEntry : stock.locate false f0d (.ofNames ["system", "bin"]) = .ok ("bin" :: system) :=
      locate_concat ["system"] (kinds_eq_directory.mp sameKind.symm) stockLocated
    by_cases binExists : stock.pathExists f0d (.ofNames ["system", "bin"]) = true
    · unfold pathExists at binExists
      cases found : stock.stat true f0d (.ofNames ["system", "bin"]) with
      | error error =>
          rw [found] at binExists
          cases binExists
      | ok node =>
          obtain ⟨place, placeLocated, there⟩ := stat_eq_ok_iff.mp found
          obtain ⟨rfl, binKind⟩ := locate_same thinned placeLocated (by rw [there]; simp) binLocated
            (by rw [binDirectory]; simp)
          rw [kinds_eq_directory.mpr binDirectory] at binKind
          exact locate_concat ["system", "bin"] (kinds_eq_directory.mp binKind.symm)
            placeLocated
    · have absent : stock.lexists f0d (.ofNames ["system", "bin"]) = false := by
        by_contra there
        exact sound (.inr ⟨by simpa using there, by simpa using binExists⟩)
      exact (notNew (lexists_eq_false_iff.mp absent _ stockEntry)).elim
  · have absent : stock.lexists f0d (.ofNames ["system"]) = false := by
      by_contra there
      exact sound (.inl ⟨by simpa using there, by simpa using systemExists⟩)
    have none := lexists_eq_false_iff.mp absent _ (locate_name stock f0d "system")
    have plain (target : PurePath) : after.node ("system" :: f0d) ≠ some (.link target) := by
      intro found
      have other : ∀ name ∈ twrp16Libs, name ≠ "system" := by decide
      rcases later.fresh _ _ (absentThere none) found with new | new
      · cases new.1
      · rcases new with link | file
        · obtain ⟨_, _, name, member, same⟩ := link
          exact other name member (Option.some.inj same).symm
        · obtain ⟨_, same⟩ := file
          cases same
    have same := locate_follow (locate_name after f0d "system") plain
    rw [systemLocated] at same
    cases same
    exact (notNew (stock.none_below ["bin"] (by simp) (by rw [none]; simp))).elim

/-- After the F0 step neither entry is left, if neither is a dangling link as its turn comes
and no library is copied to its place; it is necessary, and enough unless the way to the
recovery binary is itself a dangling link. -/
theorem f0Transform_gone (run : f0Transform stock f0d ciF1d = .ok after) :
    (StockGone stock after f0d → StockSound stock f0d ciF1d) ∧
      (¬ DeadEnd stock f0d → StockSound stock f0d ciF1d → StockGone stock after f0d) := by
  obtain ⟨first, cleared, made, copied, recoveryRemoved, resRemoved, makes, copies, edits⟩ :=
    f0Transform_eq_ok run
  have later := f0Transform_grown makes copies edits
  have emptiedTree : emptied stock f0d = .ok made := by
    rw [emptied, removeStock, recoveryRemoved]
    change (removePath first f0d (.ofNames resNames) >>= _) = _
    rw [resRemoved]
    exact makes
  have resLocated (fs : FileSystem Bytes) :
      fs.locate false f0d (.ofNames resNames) = .ok ("res" :: f0d) := locate_name fs f0d "res"
  have earlier {before : FileSystem Bytes} {path : PurePath} (gone : Gone before after f0d path) :
      Gone before cleared f0d path := by
    refine ⟨?_, fun location located => ?_⟩
    · by_contra present
      have there := later.lexists (by simpa using present)
      rw [gone.unreached] at there
      cases there
    · by_contra present
      exact later.present present (gone.entry location located)
  constructor
  · intro gone
    have resGone := gone.res first recoveryRemoved
    obtain ⟨recoverySound, resSound⟩ := (removeStock_gone_iff recoveryRemoved resRemoved).mp
      ⟨earlier gone.recovery, earlier resGone⟩
    refine ⟨recoverySound, fun other removed => ?_, fun start begins => ?_⟩
    · rw [recoveryRemoved] at removed
      cases removed
      exact resSound
    · rw [emptiedTree] at begins
      cases begins
      intro front lib back reached split reach location removed
      have absent : after.node location = none := by
        rcases removed with located | rfl
        · exact gone.recovery.entry location located
        · exact resGone.entry _ (resLocated first)
      have free : cleared.node location = none := by
        by_contra present
        exact later.present present absent
      exact (f0Transform_free_iff makes copies edits free removed.named).mp absent front lib back
        reached split reach
  · intro deadEnd sound
    obtain ⟨recoveryGone, resGone⟩ := (removeStock_gone_iff recoveryRemoved resRemoved).mpr
      ⟨sound.recovery, sound.res first recoveryRemoved⟩
    have absent (location : Location) (removed : Removed stock f0d location) :
        after.node location = none := by
      have free : cleared.node location = none := by
        rcases removed with located | rfl
        · exact recoveryGone.entry location located
        · exact resGone.entry _ (resLocated first)
      refine (f0Transform_free_iff makes copies edits free removed.named).mpr ?_
      intro front lib back reached split reach
      exact sound.copies made emptiedTree front lib back reached split reach location removed
    refine ⟨⟨?_, fun location located => absent location (.inl located)⟩, fun other removed => ?_⟩
    · by_contra present
      obtain ⟨location, located, there⟩ :=
        lexists_of_extends (.refl after) (by simpa using present)
      have smaller := (removeExisting_extends removeEither_removes resRemoved).trans
        (removeExisting_extends removeEither_removes recoveryRemoved)
      have before := recovery_reached
        (f0Transform_thinned recoveryRemoved resRemoved later absent) later smaller deadEnd located
        there
      exact there (absent location (.inl before))
    · refine ⟨lexists_eq_false_iff.mpr fun location located => ?_, fun location located => ?_⟩
      · rw [resLocated] at located
        cases located
        exact absent _ (.inr rfl)
      · rw [resLocated] at located
        cases located
        exact absent _ (.inr rfl)

end

/-! ### The core components -/

/-- What `os.remove` takes is no directory. -/
theorem osRemove_leaf {fs after : FileSystem φ} {start : Location} {path : PurePath}
    (removed : osRemove fs start path = .ok after) :
    ∃ location, fs.locate false start path = .ok location ∧
      fs.node location ≠ some .directory ∧ Without location fs after := by
  unfold osRemove at removed
  split at removed
  · contradiction
  · rename_i location located
    split at removed
    · contradiction
    · contradiction
    · rename_i node leaf found
      split at removed
      · rename_i inner
        cases removed
        exact ⟨location, located, fun directory => leaf (by rw [found] at directory; exact Option.some.inj directory),
          without_removeBelow fs inner⟩
      · contradiction

/-- The removal of a core component leaves every entry of another name. -/
theorem removeCore_other {tmp entry : Location} {fs after : FileSystem φ} {f other : Name}
    (removed : removeCore tmp fs f = .ok after) (named : entry.head? = some other)
    (different : f ≠ other) (present : fs.node entry ≠ none) :
    after.node entry = fs.node entry := by
  rw [removeCore_eq, removeExisting] at removed
  split at removed
  · obtain ⟨location, located, leaf, without⟩ := osRemove_leaf removed
    have last : location.head? = some f := locate_last located
    rw [without, if_neg]
    intro below
    obtain ⟨inner, rfl⟩ := below
    by_cases here : inner = []
    · subst here
      rw [List.nil_append] at named
      rw [named] at last
      exact different (Option.some.inj last).symm
    · exact present (fs.none_below inner here leaf)
  · cases removed
    rfl

section

variable {tmp : Location} {fs after : FileSystem φ}

theorem removeCores_extends {names : List Name} (run : names.foldlM (removeCore tmp) fs = .ok after) :
    after.Extends fs := by
  induction names generalizing fs with
  | nil =>
      cases run
      exact .refl _
  | cons f rest ih =>
      rw [List.foldlM_cons] at run
      obtain ⟨next, removed, restRun⟩ := except_bind_eq_ok run
      exact (ih restRun).trans (removeExisting_extends osRemove_removes removed)

theorem removeCores_other {names : List Name} {entry : Location} {other : Name}
    (run : names.foldlM (removeCore tmp) fs = .ok after) (named : entry.head? = some other)
    (different : other ∉ names) (present : fs.node entry ≠ none) :
    after.node entry = fs.node entry := by
  induction names generalizing fs with
  | nil =>
      cases run
      rfl
  | cons f rest ih =>
      rw [List.foldlM_cons] at run
      obtain ⟨next, removed, restRun⟩ := except_bind_eq_ok run
      have first := removeCore_other removed named
        (fun same => different (same ▸ List.mem_cons_self)) present
      rw [← first] at present ⊢
      exact ih restRun (fun member => different (List.mem_cons_of_mem _ member)) present

/-- A property of each component and the tree that its removal begins with. -/
def EachTurn (tmp : Location) (names : List Name) (fs : FileSystem φ)
    (property : FileSystem φ → Name → Prop) : Prop :=
  ∀ front f back reached, names = front ++ f :: back →
    front.foldlM (removeCore tmp) fs = .ok reached → property reached f

/-- The core components are gone exactly when none is a dangling link as its turn comes. -/
theorem removeCores_gone_iff {names : List Name} (distinct : names.Nodup)
    (run : names.foldlM (removeCore tmp) fs = .ok after) :
    EachTurn tmp names fs (fun reached f => Gone reached after (f1Dir tmp) (.ofNames (coreFile f))) ↔
      EachTurn tmp names fs fun reached f =>
        ¬ Dangling reached (f1Dir tmp) (.ofNames (coreFile f)) := by
  unfold EachTurn
  refine forall₄_congr fun front f back reached => forall₂_congr fun split reach => ?_
  subst split
  rw [List.foldlM_append] at run
  obtain ⟨state, same, run⟩ := except_bind_eq_ok run
  rw [reach] at same
  cases same
  rw [List.foldlM_cons] at run
  obtain ⟨next, removed, run⟩ := except_bind_eq_ok run
  have smaller := removeCores_extends run
  refine ⟨fun gone dangling => ?_, fun sound =>
    removeExisting_gone osRemove_removes removed sound smaller⟩
  rw [removeCore_eq, removeExisting_dangling dangling] at removed
  cases removed
  obtain ⟨entry, located, present⟩ := dangling.entry
  have last : entry.head? = some f := locate_last located
  have later : f ∉ back := (List.nodup_cons.mp (List.nodup_append.mp distinct).2.1).1
  rw [← removeCores_other run last later present] at present
  exact present (gone.entry entry located)

end

theorem not_dangling_of_noLinks {fs : FileSystem φ}
    (plain : ∀ location target, fs.node location ≠ some (.link target)) (start : Location)
    (path : PurePath) : ¬ Dangling fs start path := by
  intro dangling
  have absent := FileSystem.lexists_eq_false_of_unlinked dangling.2 fun target found => by
    obtain ⟨location, -, there⟩ := FileSystem.stat_eq_ok_iff.mp found
    exact plain location target there
  have present := dangling.1
  rw [absent] at present
  contradiction

/-- A stock tree, a CI tree with a library and a merged tree, without links. -/
def plainEntries : List (Location × Node Bytes) :=
  [(["f0"], .directory), (["system", "f0"], .directory), (["bin", "system", "f0"], .directory),
    (["recovery", "bin", "system", "f0"], .file [1]), (["res", "f0"], .directory),
    (["images", "res", "f0"], .file [2]), (["ci_f1"], .directory), (["system", "ci_f1"], .directory),
    (["lib64", "system", "ci_f1"], .directory),
    (["libbase.so", "lib64", "system", "ci_f1"], .file [4]), (["tmp"], .directory),
    (f1Dir ["tmp"], .directory),
    (place (f1Dir ["tmp"]) ["system"], .directory), (place (f1Dir ["tmp"]) binNames, .directory),
    (place (f1Dir ["tmp"]) (coreFile "adbd"), .file [3])]

def plainTree : FileSystem Bytes := .ofEntries plainEntries (by decide +kernel)

/-- Where the copies of the libraries land. -/
theorem plainTree_copies : ∀ made, emptied plainTree ["f0"] = .ok made →
    EachCopy ["ci_f1"] ["f0"] twrp16Libs made fun reached lib =>
      ∀ location, Removed plainTree ["f0"] location →
        ¬ Lands reached ["ci_f1"] ["f0"] lib location := by
  have checked : (emptied plainTree ["f0"]).toOption.map (fun made =>
      decide (∀ index < twrp16Libs.length,
        (copyLibs made ["ci_f1"] ["f0"] (twrp16Libs.take index)).toOption.all fun reached =>
          twrp16Libs[index]?.all fun lib =>
            (reached.locate true ["f0"] (copyTarget reached ["f0"] lib)).toOption.all fun location =>
              location.head? ≠ some "recovery" ∧ location.head? ≠ some "res")) = some true := by
    decide +kernel
  intro made makes front lib back reached split reach location removed lands
  rw [makes] at checked
  have inside : front.length < twrp16Libs.length := by
    rw [split]
    simp
  have here := of_decide_eq_true (Option.some.inj checked) front.length inside
  have others : twrp16Libs.take front.length = front := by
    rw [split]
    exact List.take_left
  have this : twrp16Libs[front.length]? = some lib := by
    rw [split]
    simp
  rw [others, reach, this] at here
  simp only [Except.toOption, Option.all_some, lands.2, decide_eq_true_eq] at here
  rcases removed.last with last | last
  · exact here.1 last
  · exact here.2 last

/-- A stock tree whose `res` leads nowhere, and a CI tree whose `linker64` leads
into another partition. -/
def linkedEntries : List (Location × Node Bytes) :=
  [(["f0"], .directory), (["res", "f0"], .link ⟨false, [.name "vendor", .name "res"]⟩),
    (["ci_f1"], .directory), (["tmp"], .directory),
    (tpDir ["tmp"], .directory), (place (tpDir ["tmp"]) ["system"], .directory),
    (place (tpDir ["tmp"]) binNames, .directory),
    (place (tpDir ["tmp"]) (coreFile "linker64"), .file [1]),
    (ciDir ["tmp"], .directory), (place (ciDir ["tmp"]) ["system"], .directory),
    (place (ciDir ["tmp"]) binNames, .directory),
    (place (ciDir ["tmp"]) (coreFile "linker64"),
      .link ⟨true, ["apex", "com.android.runtime", "bin", "linker64"].map .name⟩)]

def linkedTree : FileSystem Bytes := .ofEntries linkedEntries (by decide +kernel)

end DashTwrp.RepackF1

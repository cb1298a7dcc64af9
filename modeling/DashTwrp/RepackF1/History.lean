import DashTwrp.RepackF1.PairedMerge
import DashTwrp.VendorBoot.RepackImage

namespace DashTwrp.RepackF1

open DashTwrp.Python DashTwrp.Unix DashTwrp.VendorBoot

/-! Runs of the repack tool on hosts on which earlier runs have left their working
files. -/

def workDirs : List Name := ["f1_dir", "ci_dir", "tp_dir"]

def working : List Name := ["tp_dir", "f1_dir", "ci_dir", packedName]

theorem workDirs_working : workDirs ⊆ working := by decide

/-- A host on which earlier runs have left some of their working files. -/
structure Leftovers (host fs : FileSystem Bytes) : Prop where
  same : ∀ location, ¬ Hidden tmp working location → fs.node location = host.node location
  directories : ∀ name ∈ workDirs,
    fs.node (name :: tmp) = none ∨ fs.node (name :: tmp) = some .directory
  file : fs.node (packedName :: tmp) = none ∨
    ∃ bytes, fs.node (packedName :: tmp) = some (.file bytes)

/-- No link of the tree has a working path's name in its target. -/
def LinksOrdinary (fs : FileSystem Bytes) : Prop :=
  ∀ location target, fs.node location = some (.link target) → Blind working target.steps

/-- Nothing but the working paths themselves bears their names, and the directories
that are walked and copied are not links. -/
structure OrdinaryRun (tools : Tools) (readings : Readings) (template ci : Bytes)
    (host : FileSystem Bytes) : Prop where
  directory : host.node tmp = some .directory
  clean : ∀ name ∈ working, host.node (name :: tmp) = none
  links : LinksOrdinary host
  templateTree : ∀ tpl tplF1 ciF1 tree, inputs template ci = .ok (tpl, tplF1, ciF1) →
    unpacked tools tplF1 = .ok tree → LinksOrdinary tree ∧ Unlinked tree [] ["system"]
  ciTree : ∀ tpl tplF1 ciF1 tree, inputs template ci = .ok (tpl, tplF1, ciF1) →
    unpacked tools ciF1 = .ok tree → LinksOrdinary tree ∧ ∀ sub ∈ subs, Unlinked tree [] sub
  templateListing : OrdinaryBelow (tpDir tmp) readings.template
  mergedListing : OrdinaryBelow (f1Dir tmp) readings.merged
  prunedListing : OrdinaryBelow (f1Dir tmp) readings.pruned
  bins : ∀ rel ∈ readings.bins, Ordinary rel

section

variable {tools : Tools} {fs host : FileSystem Bytes} {data : Bytes} {dest : Name}

theorem uz_matches {one other : FileSystem Bytes} (directory : one.node tmp = some .directory)
    (directoryOther : other.node tmp = some .directory)
    (left : one.node (dest :: tmp) = none ∨ one.node (dest :: tmp) = some .directory)
    (leftOther : other.node (dest :: tmp) = none ∨ other.node (dest :: tmp) = some .directory) :
    Matches (fun after afterOther => ∃ tree, unpacked tools data = .ok tree ∧
        Planted dest one tree after ∧ Planted dest other tree afterOther)
      (uz tools one data dest) (uz tools other data dest) := by
  have ends : Matches (Planted dest one) (unpacked tools data) (uz tools one data dest) :=
    uz_planted directory left
  have endsOther : Matches (Planted dest other) (unpacked tools data) (uz tools other data dest) :=
    uz_planted directoryOther leftOther
  cases extracted : unpacked tools data with
  | error error =>
      rw [extracted] at ends endsOther
      cases made : uz tools one data dest with
      | ok after =>
          rw [made] at ends
          exact ends.elim
      | error error =>
          cases madeOther : uz tools other data dest with
          | ok afterOther =>
              rw [madeOther] at endsOther
              exact endsOther.elim
          | error errorOther =>
              rw [made] at ends
              rw [madeOther] at endsOther
              exact ends.symm.trans endsOther
  | ok tree =>
      rw [extracted] at ends endsOther
      cases made : uz tools one data dest with
      | error error =>
          rw [made] at ends
          exact ends.elim
      | ok after =>
          cases madeOther : uz tools other data dest with
          | error errorOther =>
              rw [madeOther] at endsOther
              exact endsOther.elim
          | ok afterOther =>
              rw [made] at ends
              rw [madeOther] at endsOther
              exact ⟨tree, rfl, ends, endsOther⟩

theorem Planted.unlinked {before tree after : FileSystem Bytes} (planted : Planted dest before tree after)
    {names : List Name} (unlinked : Unlinked tree [] names) : Unlinked after (dest :: tmp) names := by
  intro front inside target found
  rw [place, planted.inside] at found
  refine unlinked front inside target ?_
  rw [place, List.append_nil, found]

/-- What is left of a former run in the other working files does not matter to the trees. -/
theorem extracted_of_planted {ciFs ciFsOther one other ciTree tpTree : FileSystem Bytes}
    (links : LinksOrdinary host) (directory : host.node tmp = some .directory)
    (left : Leftovers host fs) (clean : ∀ name ∈ working, host.node (name :: tmp) = none)
    (ci : Planted "ci_dir" host ciTree ciFs) (ciOther : Planted "ci_dir" fs ciTree ciFsOther)
    (tp : Planted "tp_dir" ciFs tpTree one) (tpOther : Planted "tp_dir" ciFsOther tpTree other)
    (ciLinks : LinksOrdinary ciTree) (ciSubs : ∀ sub ∈ subs, Unlinked ciTree [] sub)
    (tpLinks : LinksOrdinary tpTree) : Extracted one other := by
  have start : Paired tmp working host fs host fs :=
    ⟨fun place clear => (left.same place clear).symm,
      fun place target _ found => links place target found, directory, fun _ _ => ⟨rfl, rfl⟩⟩
  have ciPaired : Paired tmp working ciFs ciFsOther ciFs ciFsOther :=
    start.unseen (show "ci_dir" ∈ working by decide) ci.outside ciOther.outside
  have tpPaired : Paired tmp ("tp_dir" :: "f1_dir" :: covered) one other one other :=
    ciPaired.unseen (show "tp_dir" ∈ working by decide) tp.outside tpOther.outside
  have off (inner : List Name) : ¬ "tp_dir" :: tmp <:+ inner ++ ciDir tmp := by
    intro below
    have clear : ¬ Hidden tmp ["tp_dir"] (inner ++ ciDir tmp) :=
      not_hidden_below (not_hidden_entry (by decide)) (not_suffix_tail tmp)
        (List.suffix_append _ _)
    exact clear ⟨"tp_dir", List.mem_singleton_self _, below⟩
  have ciInside (inner : List Name) : one.node (inner ++ ciDir tmp) = ciTree.node inner := by
    rw [tp.outside _ (off inner)]
    exact ci.inside inner
  have ciInsideOther (inner : List Name) : other.node (inner ++ ciDir tmp) = ciTree.node inner := by
    rw [tpOther.outside _ (off inner)]
    exact ciOther.inside inner
  refine ⟨tpPaired.reveal (fun place below => ?_) (fun place target below found => ?_),
    ⟨fun inner => ?_, fun inner target found => ?_, fun sub member => ?_⟩, ?_, .inl ?_, ?_⟩
  · obtain ⟨inner, rfl⟩ := below
    rw [tp.inside, tpOther.inside]
  · obtain ⟨inner, rfl⟩ := below
    rw [tp.inside] at found
    exact (tpLinks _ target found).fewer (by decide)
  · rw [ciInside, ciInsideOther]
  · rw [ciInside] at found
    exact (ciLinks _ target found).fewer (by decide)
  · intro front inside target found
    rw [place, ciInside] at found
    refine ciSubs sub member front inside target ?_
    rw [place, List.append_nil, found]
  · exact (tp.inside []).trans tpTree.root
  · rw [f1Dir, tp.outside _ (by decide), ci.outside _ (by decide)]
    exact clean "f1_dir" (by decide)
  · rw [f1Dir, tpOther.outside _ (by decide), ciOther.outside _ (by decide)]
    exact left.directories "f1_dir" (by decide)

end

/-- The new trees are the same, and neither has lost or gained the former `f1_new.lz4`. -/
structure SameNew (host fs one other : FileSystem Bytes) : Prop where
  same : ∀ place, ¬ Hidden tmp covered place → one.node place = other.node place
  directory : one.node tmp = some .directory
  left : one.node (packedName :: tmp) = host.node (packedName :: tmp)
  leftOther : other.node (packedName :: tmp) = fs.node (packedName :: tmp)

section

variable {tools : Tools} {readings : Readings} {template ci : Bytes} {host fs : FileSystem Bytes}

theorem OrdinaryRun.untouched (run : OrdinaryRun tools readings template ci host) :
    Leftovers host host :=
  ⟨fun _ _ => rfl, fun name member => .inl (run.clean name (workDirs_working member)),
    .inl (run.clean packedName (by decide))⟩

theorem mergeTrees_matches (run : OrdinaryRun tools readings template ci host)
    (left : Leftovers host fs) {tpl : Image} {tplF1 ciF1 : Bytes}
    (read : inputs template ci = .ok (tpl, tplF1, ciF1)) :
    Matches (SameNew host fs) (mergeTrees tools readings tplF1 ciF1 host)
      (mergeTrees tools readings tplF1 ciF1 fs) := by
  have directoryFs : fs.node tmp = some .directory := by
    rw [left.same tmp tmp_clear, run.directory]
  unfold mergeTrees
  refine (uz_matches run.directory directoryFs (.inl (run.clean "ci_dir" (by decide)))
    (left.directories "ci_dir" (by decide))).bind fun ciFs ciFsOther _ made => ?_
  obtain ⟨ciTree, ciUnpacked, ciPlanted, ciOther⟩ := made
  have ciTmp : ciFs.node tmp = some .directory := by
    rw [ciPlanted.outside _ (by decide), run.directory]
  have ciTmpOther : ciFsOther.node tmp = some .directory := by
    rw [ciOther.outside _ (by decide), directoryFs]
  have tpFree : ciFs.node ("tp_dir" :: tmp) = none := by
    rw [ciPlanted.outside _ (by decide)]
    exact run.clean "tp_dir" (by decide)
  have tpLeft := left.directories "tp_dir" (by decide)
  rw [← ciOther.outside _ (by decide)] at tpLeft
  refine (uz_matches ciTmp ciTmpOther (.inl tpFree) tpLeft).bind fun one other _ made => ?_
  obtain ⟨tpTree, tpUnpacked, tp, tpOther⟩ := made
  obtain ⟨ciLinks, ciSubs⟩ := run.ciTree tpl tplF1 ciF1 ciTree read ciUnpacked
  obtain ⟨tpLinks, tpSystem⟩ := run.templateTree tpl tplF1 ciF1 tpTree read tpUnpacked
  have extracted := extracted_of_planted run.links run.directory left run.clean ciPlanted ciOther tp
    tpOther ciLinks ciSubs tpLinks
  have merged := mergeF1_paired extracted (tp.unlinked tpSystem) run.templateListing
    run.mergedListing run.prunedListing run.bins
  refine (matches_mapError merged RunError.os).weaken fun after afterOther paired => ?_
  have packedHidden : Hidden tmp covered (packedName :: tmp) :=
    ⟨packedName, by decide, List.suffix_refl _⟩
  obtain ⟨kept, keptOther⟩ := paired.kept _ packedHidden
  refine ⟨paired.same, paired.directory, ?_, ?_⟩
  · rw [kept, tp.outside _ (by decide), ciPlanted.outside _ (by decide)]
  · rw [keptOther, tpOther.outside _ (by decide), ciOther.outside _ (by decide)]

/-- Up to the packing the leftovers have no effect. -/
theorem mergeImages_matches (run : OrdinaryRun tools readings template ci host)
    (left : Leftovers host fs) :
    Matches (fun merged mergedOther => merged.1 = mergedOther.1 ∧
        SameNew host fs merged.2 mergedOther.2)
      (mergeImages tools readings template ci host) (mergeImages tools readings template ci fs) := by
  unfold mergeImages
  cases read : inputs template ci with
  | error error => rfl
  | ok images =>
      refine (mergeTrees_matches run left read).bind fun after afterOther _ new => ?_
      exact ⟨rfl, new⟩

theorem SameNew.archiveF1 {one other : FileSystem Bytes} (new : SameNew host fs one other) :
    archiveF1 tools other = archiveF1 tools one := by
  unfold RepackF1.archiveF1
  rw [subtreeAt_congr fun inner => (new.same _ ?_).symm]
  exact not_hidden_below f1Dir_clear (not_suffix_tail tmp) (List.suffix_append _ _)

theorem SameNew.directoryOther {one other : FileSystem Bytes} (new : SameNew host fs one other) :
    other.node tmp = some .directory := by
  rw [← new.same tmp tmp_clear, new.directory]

/-- An image comes from a file of an earlier run: the run gets as far as lz4, lz4
writes nothing, and of some F1 an image can be made. -/
def Stale (tools : Tools) (readings : Readings) (template ci : Bytes) (host : FileSystem Bytes) :
    Prop :=
  ∃ tpl merged cpio, mergeImages tools readings template ci host = .ok (tpl, merged) ∧
    archiveF1 tools merged = .ok cpio ∧ tools.pack cpio = .ok none ∧
    ∃ stale img, repack tpl stale = .ok img

/-- Runs that begin with other leftovers fail alike or write the same image. -/
def Independent (tools : Tools) (readings : Readings) (template ci : Bytes)
    (host : FileSystem Bytes) : Prop :=
  ∀ one other, Leftovers host one → Leftovers host other →
    (main tools readings template ci one).toOption = (main tools readings template ci other).toOption

theorem not_stale_fails {tpl : Image} {merged : FileSystem Bytes} {cpio : Bytes}
    (sound : ¬ Stale tools readings template ci host)
    (merges : mergeImages tools readings template ci host = .ok (tpl, merged))
    (archives : archiveF1 tools merged = .ok cpio) (idle : tools.pack cpio = .ok none)
    (stale : Bytes) : ∃ error, repack tpl stale = .error error := by
  cases made : repack tpl stale with
  | error error => exact ⟨error, rfl⟩
  | ok img => exact absurd ⟨tpl, merged, cpio, merges, archives, idle, stale, img, made⟩ sound

theorem main_leftovers (run : OrdinaryRun tools readings template ci host)
    (sound : ¬ Stale tools readings template ci host) (left : Leftovers host fs) :
    (main tools readings template ci fs).toOption =
      (main tools readings template ci host).toOption := by
  have ends := mergeImages_matches run left
  unfold main
  cases merges : mergeImages tools readings template ci host with
  | error error =>
      cases mergesOther : mergeImages tools readings template ci fs with
      | error errorOther => rfl
      | ok mergedOther =>
          rw [merges, mergesOther] at ends
          exact ends.elim
  | ok merged =>
      cases mergesOther : mergeImages tools readings template ci fs with
      | error errorOther =>
          rw [merges, mergesOther] at ends
          exact ends.elim
      | ok mergedOther =>
          rw [merges, mergesOther] at ends
          obtain ⟨tpl, tree⟩ := merged
          obtain ⟨tplOther, treeOther⟩ := mergedOther
          obtain ⟨same, new⟩ := ends
          cases same
          have clean : tree.node (packedName :: tmp) = none := by
            rw [new.left]
            exact run.clean packedName (by decide)
          have leftOther := left.file
          rw [← new.leftOther] at leftOther
          change (pk tools treeOther >>= fun f1New =>
            (repack tpl f1New).mapError RunError.repack).toOption = (pk tools tree >>= fun f1New =>
              (repack tpl f1New).mapError RunError.repack).toOption
          rw [pk_eq new.directory (.inl clean), pk_eq new.directoryOther leftOther, new.archiveF1]
          cases archives : archiveF1 tools tree with
          | error error => rfl
          | ok cpio =>
              change ((tools.pack cpio >>= packedBytes (treeOther.node (packedName :: tmp))) >>= _).toOption =
                ((tools.pack cpio >>= packedBytes (tree.node (packedName :: tmp))) >>= _).toOption
              cases packs : tools.pack cpio with
              | error error => rfl
              | ok packed =>
                  cases packed with
                  | some bytes => rfl
                  | none =>
                      rw [clean]
                      rcases leftOther with absent | file
                      · rw [absent]
                      · obtain ⟨stale, found⟩ := file
                        obtain ⟨error, fails⟩ := not_stale_fails sound merges archives packs stale
                        rw [found]
                        change ((repack tpl stale).mapError RunError.repack).toOption = none
                        rw [fails]
                        rfl

/-- The host with a file that an earlier run has packed. -/
def withPacked (host : FileSystem Bytes) (stale : Bytes) (inside : host.node tmp = some .directory)
    (free : host.node (packedName :: tmp) = none) : FileSystem Bytes :=
  host.create packedName tmp (.file stale) inside free

theorem withPacked_packed {stale : Bytes} (inside : host.node tmp = some .directory)
    (free : host.node (packedName :: tmp) = none) :
    (withPacked host stale inside free).node (packedName :: tmp) = some (.file stale) := by
  change Function.update host.node (packedName :: tmp) (some (.file stale)) (packedName :: tmp) = _
  rw [Function.update_self]

theorem leftovers_withPacked (run : OrdinaryRun tools readings template ci host) (stale : Bytes) :
    Leftovers host
      (withPacked host stale run.directory (run.clean packedName (by decide))) where
  same := by
    intro location clear
    refine Function.update_of_ne ?_ _ _
    exact fun here => clear ⟨packedName, by decide, here ▸ List.suffix_refl _⟩
  directories := by
    intro name member
    left
    have other : name :: tmp ≠ packedName :: tmp := by
      revert member
      revert name
      decide
    exact (Function.update_of_ne other _ _).trans (run.clean name (workDirs_working member))
  file := by
    exact .inr ⟨stale, withPacked_packed run.directory (run.clean packedName (by decide))⟩

/-- Where lz4 writes nothing, a run without leftovers fails. -/
theorem main_clean (run : OrdinaryRun tools readings template ci host) {tpl : Image}
    {tree : FileSystem Bytes} {cpio : Bytes}
    (merges : mergeImages tools readings template ci host = .ok (tpl, tree))
    (archives : archiveF1 tools tree = .ok cpio) (idle : tools.pack cpio = .ok none) :
    (main tools readings template ci host).toOption = none := by
  have ends := mergeImages_matches run run.untouched
  rw [merges] at ends
  obtain ⟨-, new⟩ := ends
  have clean : tree.node (packedName :: tmp) = none := by
    rw [new.left]
    exact run.clean packedName (by decide)
  unfold main
  rw [merges]
  change (pk tools tree >>= fun f1New => (repack tpl f1New).mapError RunError.repack).toOption = none
  rw [pk_eq new.directory (.inl clean), archives]
  change ((tools.pack cpio >>= packedBytes (tree.node (packedName :: tmp))) >>= _).toOption = none
  rw [idle, clean]
  rfl

/-- Where lz4 writes nothing, an earlier run's F1 is packed. -/
theorem main_withPacked (run : OrdinaryRun tools readings template ci host) {tpl : Image}
    {tree : FileSystem Bytes} {cpio stale img : Bytes}
    (merges : mergeImages tools readings template ci host = .ok (tpl, tree))
    (archives : archiveF1 tools tree = .ok cpio) (idle : tools.pack cpio = .ok none)
    (image : repack tpl stale = .ok img) :
    (main tools readings template ci (withPacked host stale run.directory
      (run.clean packedName (by decide)))).toOption = some img := by
  have ends := mergeImages_matches run (leftovers_withPacked run stale)
  rw [merges] at ends
  unfold main
  cases mergesOther : mergeImages tools readings template ci (withPacked host stale run.directory
      (run.clean packedName (by decide))) with
  | error error =>
      rw [mergesOther] at ends
      exact ends.elim
  | ok mergedOther =>
      rw [mergesOther] at ends
      obtain ⟨tplOther, treeOther⟩ := mergedOther
      obtain ⟨same, new⟩ := ends
      cases same
      have found : treeOther.node (packedName :: tmp) = some (.file stale) := by
        rw [new.leftOther, withPacked_packed]
      change (pk tools treeOther >>= fun f1New =>
        (repack tpl f1New).mapError RunError.repack).toOption = some img
      rw [pk_eq new.directoryOther (.inr ⟨stale, found⟩), new.archiveF1, archives]
      change ((tools.pack cpio >>= packedBytes (treeOther.node (packedName :: tmp))) >>= _).toOption = _
      rw [idle, found]
      change ((repack tpl stale).mapError RunError.repack).toOption = some img
      rw [image]
      rfl

end

/-- A host that has an empty `/tmp` and nothing else. -/
def bareHost : FileSystem Bytes := .ofEntries [(tmp, .directory)] (by decide)

/-- Both archives fail to decompress, and lz4 writes what is given. -/
def failingTools (packed : Option Bytes) : Tools where
  decode _ := .ok none
  extract _ := .ok .empty
  find _ := .ok []
  archive _ _ := .ok []
  pack _ := .ok packed

def noReadings : Readings := ⟨[], [], [], []⟩

def stockImage : Bytes := oneEntryLayout.encode

theorem stockImage_inputs :
    inputs stockImage stockImage = .ok (oneEntryLayout.image, [0xf1], [0xf1]) := by
  have frags : oneEntryLayout.image.frags = _ := stockLayout_frags _ _ _ _ _ _
  have second : secondPayload oneEntryLayout.image = .ok [0xf1] := by
    rw [secondPayload, frags]
  unfold inputs stockImage
  rw [oneEntryLayout.rd_encode]
  change (secondPayload oneEntryLayout.image >>= fun _ =>
    secondPayload oneEntryLayout.image >>= fun _ => _) = _
  rw [second]
  rfl

theorem unlinked_empty (start : Location) (names : List Name) :
    Unlinked (FileSystem.empty : FileSystem Bytes) start names := by
  intro front _ target found
  simp only [FileSystem.empty] at found
  split at found <;> cases found

theorem no_links_empty : LinksOrdinary .empty := by
  intro location target found
  simp only [FileSystem.empty] at found
  split at found <;> cases found

theorem no_links_bareHost : LinksOrdinary bareHost := by
  intro location target found
  have unlinked : Unlinked bareHost location [] := unlinked_ofEntries _ (by decide) location []
  exact absurd found (unlinked [] (List.prefix_refl _) target)

theorem failingRun (packed : Option Bytes) :
    OrdinaryRun (failingTools packed) noReadings stockImage stockImage bareHost where
  directory := rfl
  clean := by decide
  links := no_links_bareHost
  templateTree := by
    intro _ _ _ tree _ extracted
    cases extracted
    exact ⟨no_links_empty, unlinked_empty _ _⟩
  ciTree := by
    intro _ _ _ tree _ extracted
    cases extracted
    exact ⟨no_links_empty, fun _ _ => unlinked_empty _ _⟩
  templateListing := fun _ listed => nomatch listed
  mergedListing := fun _ listed => nomatch listed
  prunedListing := fun _ listed => nomatch listed
  bins := fun _ listed => nomatch listed

theorem failingRun_merges (packed : Option Bytes) : ∃ tree,
    mergeImages (failingTools packed) noReadings stockImage stockImage bareHost =
      .ok (oneEntryLayout.image, tree) ∧ archiveF1 (failingTools packed) tree = .ok [] := by
  obtain ⟨tree, made, directory⟩ := ok_of_read
    (show (mergeTrees (failingTools packed) noReadings [0xf1] [0xf1] bareHost).toOption.map
      (fun tree => (subtreeAt tree (f1Dir tmp)).isOk) = some true by rfl)
  refine ⟨tree, ?_, ?_⟩
  · rw [mergeImages, stockImage_inputs]
    change (mergeTrees (failingTools packed) noReadings [0xf1] [0xf1] bareHost >>=
      fun fs => Except.ok (oneEntryLayout.image, fs)) = _
    rw [made]
    rfl
  · rw [archiveF1]
    cases found : subtreeAt tree (f1Dir tmp) with
    | error error =>
        rw [found] at directory
        cases directory
    | ok inner => rfl

end DashTwrp.RepackF1

import DashTwrp.PrepareFragments.Manifest
import DashTwrp.Python.Paired

namespace DashTwrp.PrepareFragments

open DashTwrp.Python DashTwrp.Unix DashTwrp.InitRc

/-! The steps of the fragment tool on two trees that differ only in its outputs. -/

/-! ### Names that are no outputs -/

/-- A name with none of the endings of the outputs. -/
def NoOutput (name : Name) : Prop := ¬ ".lz4".toList <:+ name.toList ∧ ¬ ".json".toList <:+ name.toList

instance (name : Name) : Decidable (NoOutput name) := inferInstanceAs (Decidable (_ ∧ _))

section

variable {args : Arguments}

theorem NoOutput.not_mem {name : Name} (plain : NoOutput name) :
    name ∉ args.outputFiles := by
  have lz4 {front : String} : ".lz4".toList <:+ (front ++ ".lz4").toList := by
    rw [String.toList_append]
    exact List.suffix_append _ _
  have f0 : args.f0File = args.base ++ ".f0" ++ ".lz4" := by
    rw [String.append_assoc]
    rfl
  have f1 : args.f1File = args.base ++ ".f1" ++ ".lz4" := by
    rw [String.append_assoc]
    rfl
  have manifest : args.manifestFile = args.base ++ ".manifest" ++ ".json" := by
    rw [String.append_assoc]
    rfl
  intro member
  simp only [Arguments.outputFiles, List.mem_cons, List.not_mem_nil, or_false] at member
  rcases member with rfl | rfl | rfl
  · exact plain.1 (f0 ▸ lz4)
  · exact plain.1 (f1 ▸ lz4)
  · refine plain.2 ?_
    rw [manifest, String.toList_append]
    exact List.suffix_append _ _

theorem outputs_blind {listed : List Name} (plain : ∀ name ∈ listed, NoOutput name) :
    Blind args.outputFiles (PurePath.ofNames listed).steps :=
  blind_ofNames.mpr fun name output inside => (plain name inside).not_mem output

end

/-! ### The steps -/

/-- No link of a tree has one of the names in its target. -/
def LinksBlind (names : List Name) (tree : FileSystem Bytes) : Prop :=
  ∀ location target, tree.node location = some (.link target) → Blind names target.steps

section

variable {dir start tmpdir : Location} {names : List Name} {path : PurePath} {dest : Name}
  {first second one other : FileSystem Bytes}

theorem locate_single {fs : FileSystem Bytes} {name : Name} {location : Location}
    (located : fs.locate false start (.ofNames [name]) = .ok location) : location = name :: start := by
  change fs.walkWith false _ start [.name name] = _ at located
  rw [FileSystem.walkWith] at located
  split at located
  · exact (Except.ok.inj located).symm
  · rw [if_pos ⟨rfl, rfl⟩] at located
    exact (Except.ok.inj located).symm
  · rw [if_pos rfl] at located
    exact (Except.ok.inj located).symm
  · rw [if_pos rfl] at located
    exact (Except.ok.inj located).symm

theorem removePath_paired (paired : Paired dir names first second one other)
    (clear : ¬ Hidden dir names start) (blind : Blind names path.steps)
    (apart : ∀ location, one.locate false start path = .ok location → ¬ location <:+ dir) :
    PairedResults dir names first second (removePath one start path)
      (removePath other start path) := by
  unfold removePath
  rw [← paired.pathExists clear blind, ← paired.isDir clear blind]
  split
  · split
    · exact rmtree_paired paired clear blind apart
    · exact osRemove_paired paired clear blind
  · exact paired

theorem extractInto_paired (paired : Paired dir names first second one other)
    (clear : ¬ Hidden dir names tmpdir) (plain : dest ∉ names) (apart : ¬ tmpdir <:+ dir)
    {tree : FileSystem Bytes} (links : LinksBlind names tree) :
    PairedResults dir names first second (extractInto one tree tmpdir dest)
      (extractInto other tree tmpdir dest) := by
  have above := paired.same tmpdir clear
  unfold extractInto
  split
  · rename_i inside
    rw [above] at inside
    split
    · exact paired.graft (not_hidden_cons clear plain)
        (fun below => apart ((List.suffix_cons _ _).trans below)) (fun _ => rfl)
        (fun inner target found => links _ target found) _ _
    · rename_i noDirectory
      exact absurd inside noDirectory
  · rename_i noDirectory
    rw [above] at noDirectory
    split
    · rename_i inside
      exact absurd inside noDirectory
    · rfl

theorem decompressFragment_paired (paired : Paired dir names first second one other)
    (clear : ¬ Hidden dir names tmpdir) (plain : dest ∉ names) (apart : ¬ tmpdir <:+ dir)
    {unpacker : Unpacker} {data : Bytes}
    (links : ∀ tree, unpacker.unpacked data = .ok tree → LinksBlind names tree) :
    PairedResults dir names first second (decompressFragment unpacker one data tmpdir dest)
      (decompressFragment unpacker other data tmpdir dest) := by
  have blind : Blind names (PurePath.ofNames [dest]).steps :=
    blind_ofNames.mpr fun name member same => plain (List.mem_singleton.mp same ▸ member)
  unfold decompressFragment
  refine (removeTree_paired paired clear blind fun location located => ?_).bind
    fun cleared clearedOther _ paired => ?_
  · rw [locate_single located]
    exact fun below => apart ((List.suffix_cons _ _).trans below)
  refine (makedirs_paired paired clear blind false).bind fun made madeOther _ paired => ?_
  cases decoded : unpacker.lz4 data with
  | error error => rfl
  | ok r =>
      change PairedResults dir names first second (unpacker.cpio r.2 >>= _) (unpacker.cpio r.2 >>= _)
      cases listed : unpacker.cpio r.2 with
      | error error => rfl
      | ok p =>
          refine extractInto_paired paired clear plain apart (links p.2 ?_)
          rw [Unpacker.unpacked, decoded]
          change (unpacker.cpio r.2 >>= _) = _
          rw [listed]
          rfl

end

section

variable {dir tmpdir f0d ciF1d f1d staging dtroot : Location} {args : Arguments}
  {first second one other : FileSystem Bytes}

/-- Trees that differ only in the outputs. -/
abbrev PairedOutputs (args : Arguments) : FileSystem Bytes → FileSystem Bytes → FileSystem Bytes →
    FileSystem Bytes → Prop :=
  Paired args.directory args.outputFiles

abbrev Clear (args : Arguments) (location : Location) : Prop :=
  ¬ Hidden args.directory args.outputFiles location

theorem copyLibs_paired (paired : PairedOutputs args first second one other)
    (ciClear : Clear args ciF1d) (clear : Clear args f0d) {libs : List Name}
    (plain : ∀ lib ∈ libs, NoOutput lib) :
    PairedResults args.directory args.outputFiles first second (copyLibs one ciF1d f0d libs)
      (copyLibs other ciF1d f0d libs) := by
  induction libs generalizing one other with
  | nil => exact paired
  | cons lib rest ih =>
      have libPlain := plain lib List.mem_cons_self
      have source : Blind args.outputFiles (PurePath.ofNames (ciLibNames lib)).steps :=
        outputs_blind fun name member => by
          simp only [ciLibNames, List.mem_cons, List.not_mem_nil, or_false] at member
          rcases member with rfl | rfl | rfl
          · decide
          · decide
          · exact libPlain
      have target : Blind args.outputFiles (PurePath.ofNames (twrp16LibNames lib)).steps :=
        outputs_blind fun name member => by
          simp only [twrp16LibNames, twrp16Names, List.cons_append, List.nil_append, List.mem_cons,
            List.not_mem_nil, or_false] at member
          rcases member with rfl | rfl | rfl | rfl
          · decide
          · decide
          · decide
          · exact libPlain
      have copied : PairedResults args.directory args.outputFiles first second
          (copyLib one ciF1d f0d lib) (copyLib other ciF1d f0d lib) := by
        unfold copyLib
        rw [← paired.pathExists ciClear source]
        split
        · exact copy2_paired paired ciClear source clear target false
        · exact paired
      exact copied.bind fun after afterOther _ paired =>
        ih paired fun other member => plain other (List.mem_cons_of_mem _ member)

theorem editScript_paired (paired : PairedOutputs args first second one other)
    (clear : Clear args f0d) :
    Matches (PairedOutputs args first second) (editScript one f0d) (editScript other f0d) := by
  have blind : Blind args.outputFiles (PurePath.ofNames initRcNames).steps :=
    outputs_blind (by decide)
  have same : readText one f0d (.ofNames initRcNames) = readText other f0d (.ofNames initRcNames) := by
    unfold readText readTextFile
    rw [paired.stat true clear blind]
  unfold editScript
  rw [← paired.pathExists clear blind, ← same]
  split
  · cases readText one f0d (.ofNames initRcNames) with
    | error error => rfl
    | ok c => exact matches_mapError (writeFile_paired paired clear blind _) PrepareError.osError
  · exact paired

theorem overlayStagingFile_paired (paired : PairedOutputs args first second one other)
    (stagingClear : Clear args staging) (clear : Clear args f1d) {rel : List Name}
    (plain : ∀ name ∈ rel, NoOutput name) :
    PairedResults args.directory args.outputFiles first second
      (overlayStagingFile staging f1d one rel) (overlayStagingFile staging f1d other rel) := by
  have blind : Blind args.outputFiles (PurePath.ofNames rel).steps := outputs_blind plain
  have above : Blind args.outputFiles (PurePath.ofNames rel.dropLast).steps :=
    outputs_blind fun name member => plain name (List.mem_of_mem_dropLast member)
  unfold overlayStagingFile
  rw [← paired.pathExists stagingClear blind]
  split
  · exact (makedirs_paired paired clear above true).bind fun made madeOther _ paired =>
      copy2_paired paired stagingClear blind clear blind false
  · exact paired

theorem overlayRc_paired (paired : PairedOutputs args first second one other)
    (dtClear : Clear args dtroot) (clear : Clear args f1d) {rc : Name} (plain : NoOutput rc) :
    PairedResults args.directory args.outputFiles first second (overlayRc dtroot f1d one rc)
      (overlayRc dtroot f1d other rc) := by
  have source : Blind args.outputFiles (PurePath.ofNames (dtRcNames rc)).steps :=
    outputs_blind fun name member => by
      simp only [dtRcNames, List.mem_cons, List.not_mem_nil, or_false] at member
      rcases member with rfl | rfl | rfl
      · decide
      · decide
      · exact plain
  have target : Blind args.outputFiles (PurePath.ofNames [rc]).steps :=
    outputs_blind fun name member => List.mem_singleton.mp member ▸ plain
  unfold overlayRc
  rw [← paired.pathExists dtClear source]
  split
  · exact copy2_paired paired dtClear source clear target true
  · exact paired

end

end DashTwrp.PrepareFragments

import DashTwrp.Newc.Preservation
import DashTwrp.PatchTool.Main

namespace DashTwrp.PatchTool

open DashTwrp.Newc DashTwrp.Python DashTwrp.Unix

/-! What a run of the tool does to the files of the disk.

Every step either keeps all that was there or writes to a file that the run
itself has created, and lz4 is the only other program that runs. -/

section

variable (env : Environment)

/-! ### Each part keeps the disk -/

section

variable {invariant : World → Prop}

theorem resolvePath_maintains (path : PurePath) :
    Maintains invariant (resolvePath env path) fun _ => True := by
  refine maintains_bind (ask_maintains _) fun location _ => ?_
  cases location with
  | none => exact maintains_throw _
  | some location => exact maintains_pure trivial

theorem refuseExisting_maintains (path : PurePath) :
    Maintains invariant (refuseExisting env path) fun _ => True :=
  maintains_bind (ask_maintains _) fun _ _ => (raiseIf_maintains _ _).weaken fun _ _ => trivial

theorem refuseUpfront_maintains (args : Args) :
    Maintains invariant (refuseUpfront env args) fun _ => True := by
  unfold refuseUpfront
  refine maintains_bind (ask_maintains _) fun inputPresent _ => ?_
  refine maintains_bind (raiseIf_maintains _ _) fun _ _ => ?_
  refine maintains_bind (ask_maintains _) fun lz4Present _ => ?_
  refine maintains_bind (raiseIf_maintains _ _) fun _ _ => ?_
  refine maintains_bind (resolvePath_maintains env _) fun output _ => ?_
  refine maintains_bind (resolvePath_maintains env _) fun input _ => ?_
  refine maintains_bind (raiseIf_maintains _ _) fun _ _ => ?_
  refine maintains_bind (refuseExisting_maintains env _) fun _ _ => ?_
  exact refuseExisting_maintains env _

theorem patch_maintains (sha256Bytes : Bytes → String) (budget : Nat) (cpio : Bytes) :
    Maintains invariant (patch sha256Bytes budget cpio) fun patched =>
      patchProperties sha256Bytes budget cpio = some (.ok patched) := by
  unfold patch
  split
  · exact maintains_throw _
  · exact maintains_throw _
  · rename_i result patched
    exact maintains_pure patched

end

section

variable {base : Disk} {log : List Call → Prop}

theorem describeFile_steady (sha256Bytes : Bytes → String) (path : PurePath) :
    Maintains (Steady base log) (describeFile env sha256Bytes path) fun _ => True := by
  unfold describeFile
  refine maintains_bind (resolvePath_maintains env _) fun location _ => ?_
  refine maintains_bind (readBytes_steady env _) fun sized _ => ?_
  refine maintains_bind (readBytes_steady env _) fun hashed _ => ?_
  exact maintains_pure trivial

theorem writeReport_steady (path : PurePath) (report : Json) :
    Maintains (Steady base log) (writeReport env path report) fun _ => True := by
  unfold writeReport
  refine maintains_bind (mkdirParents_steady env _) fun _ _ => ?_
  refine maintains_bind (openExclusive_steady env _) fun stream unused => ?_
  exact writeTo_steady env unused _

theorem printSummary_steady (output : FileFacts) (patchReport : PatchReport) :
    Maintains (Steady base log) (printSummary env output patchReport) fun _ => True := by
  unfold printSummary
  refine maintains_bind (print_steady env _) fun _ _ => ?_
  refine maintains_bind (print_steady env _) fun _ _ => ?_
  refine maintains_bind (print_steady env _) fun _ _ => ?_
  exact print_steady env _

theorem decodeFragment_steady (path lz4 : PurePath) :
    Maintains (Steady base fun _ => True) (decodeFragment env path lz4) fun _ => True := by
  unfold decodeFragment
  refine maintains_bind (run_steady env _ _) fun completed _ => ?_
  refine maintains_bind (checkReturncode_maintains _ _) fun _ _ => ?_
  exact maintains_pure trivial

/-- `compress_fragment` once the compressor has written. -/
def checkOutput (compressed : Completed) (output lz4 : PurePath) : Tool Unit := do
  checkReturncode (compressCommand lz4) compressed
  let written ← readBytes env output
  raiseIf (written.take 4 ≠ lz4LegacyMagic) "patched fragment is not legacy LZ4"
  let tested ← run env (testCommand output lz4) none
  let _ ← decoded tested.stdout
  let stderr ← decoded tested.stderr
  raiseIf (tested.returncode ≠ 0)
    ("legacy LZ4 validation failed: " ++ String.ofList (strip stderr))

/-- `compress_fragment` from the creation of the file on. -/
def fillOutput (cpio : Bytes) (output lz4 : PurePath) (stream : Inode) : Tool Unit := do
  let compressed ← run env (compressCommand lz4) (some cpio)
  writeTo env stream compressed.stdout
  checkOutput env compressed output lz4

theorem compressFragment_eq (cpio : Bytes) (output lz4 : PurePath) :
    compressFragment env cpio output lz4 = (do
      mkdirParents env (parent output)
      let stream ← openExclusive env output
      fillOutput env cpio output lz4 stream) := rfl

theorem checkOutput_steady (compressed : Completed) (output lz4 : PurePath) :
    Maintains (Steady base fun _ => True) (checkOutput env compressed output lz4)
      fun _ => True := by
  unfold checkOutput
  refine maintains_bind (checkReturncode_maintains _ _) fun _ _ => ?_
  refine maintains_bind (readBytes_steady env _) fun written _ => ?_
  refine maintains_bind (raiseIf_maintains _ _) fun _ _ => ?_
  refine maintains_bind (run_steady env _ _) fun tested _ => ?_
  refine maintains_bind (decoded_maintains _) fun _ _ => ?_
  refine maintains_bind (decoded_maintains _) fun stderr _ => ?_
  exact (raiseIf_maintains _ _).weaken fun _ _ => trivial

theorem fillOutput_steady (cpio : Bytes) (output lz4 : PurePath) {stream : Inode}
    (unused : base.next ≤ stream) :
    Maintains (Steady base fun _ => True) (fillOutput env cpio output lz4 stream)
      fun _ => True := by
  unfold fillOutput
  refine maintains_bind (run_steady env _ _) fun compressed _ => ?_
  refine maintains_bind (writeTo_steady env unused _) fun _ _ => ?_
  exact checkOutput_steady env _ _ _

theorem compressFragment_steady (cpio : Bytes) (output lz4 : PurePath) :
    Maintains (Steady base fun _ => True) (compressFragment env cpio output lz4) fun _ => True := by
  rw [compressFragment_eq]
  refine maintains_bind (mkdirParents_steady env _) fun _ _ => ?_
  refine maintains_bind (openExclusive_steady env _) fun stream unused => ?_
  exact fillOutput_steady env _ _ _ unused

theorem finish_steady (sha256Bytes : Bytes → String) (args : Args) (inputCpio : Bytes)
    (patched : Bytes × PatchReport) :
    Maintains (Steady base fun _ => True) (finish env sha256Bytes args inputCpio patched)
      fun status => status = 0 := by
  unfold finish
  refine maintains_bind (decodeFragment_steady env _ _) fun recompressed _ => ?_
  refine maintains_bind (raiseIf_maintains _ _) fun _ _ => ?_
  refine maintains_bind (describeFile_steady env _ _) fun input _ => ?_
  refine maintains_bind (describeFile_steady env _ _) fun output _ => ?_
  refine maintains_bind (writeReport_steady env _ _) fun _ _ => ?_
  refine maintains_bind (printSummary_steady env _ _) fun _ _ => ?_
  exact maintains_pure rfl

theorem main_steady (sha256Bytes : Bytes → String) (budget : Nat) (args : Args) :
    Maintains (Steady base fun _ => True) (main env sha256Bytes budget args)
      fun status => status = 0 := by
  unfold main
  refine maintains_bind (refuseUpfront_maintains env _) fun _ _ => ?_
  refine maintains_bind (decodeFragment_steady env _ _) fun inputCpio _ => ?_
  refine maintains_bind (patch_maintains _ _ _) fun patched _ => ?_
  refine maintains_bind (compressFragment_steady env _ _ _) fun _ _ => ?_
  exact finish_steady env _ _ _ _

end

/-! ### What a successful run has done -/

theorem Steady.refl (world : World) : Steady world.disk (· = world.calls) world :=
  ⟨.refl _, rfl⟩

def Call.decode (path lz4 : PurePath) (completed : Completed) : Call :=
  ⟨⟨decodeCommand path lz4, none⟩, .ok completed⟩

def Call.compress (cpio : Bytes) (lz4 : PurePath) (completed : Completed) : Call :=
  ⟨⟨compressCommand lz4, some cpio⟩, .ok completed⟩

def Call.test (output lz4 : PurePath) (completed : Completed) : Call :=
  ⟨⟨testCommand output lz4, none⟩, .ok completed⟩

theorem decodeFragment_eq_ok {path lz4 : PurePath} {before after : World} {cpio : Bytes}
    (returned : decodeFragment env path lz4 before = .ok cpio after) :
    after.disk = before.disk ∧ ∃ completed, completed.returncode = 0 ∧ completed.stdout = cpio ∧
      after.calls = before.calls ++ [Call.decode path lz4 completed] := by
  obtain ⟨completed, ran, called, returned⟩ := bind_eq_ok returned
  obtain ⟨_, checked, zero, finished⟩ := bind_eq_ok returned
  obtain ⟨success, rfl⟩ := checkReturncode_eq_ok_iff.mp zero
  obtain ⟨rfl, rfl⟩ := pure_eq_ok finished
  rw [((run_eq_ok_iff env).mp called).2]
  exact ⟨rfl, completed, success, rfl, rfl⟩

/-- The output is a new file that holds what the compressor wrote, which begins
with the magic. -/
theorem compressFragment_eq_ok {cpio : Bytes} {output lz4 : PurePath} {before after : World}
    {result : Unit} (returned : compressFragment env cpio output lz4 before = .ok result after) :
    ∃ location inode compressed tested,
      before.disk.NewFile after.disk env.cwd output location inode compressed.stdout ∧
      compressed.stdout.take 4 = lz4LegacyMagic ∧ compressed.returncode = 0 ∧
      tested.returncode = 0 ∧ after.calls = before.calls ++
        [Call.compress cpio lz4 compressed, Call.test output lz4 tested] := by
  obtain ⟨_, directory, made, returned⟩ := bind_eq_ok returned
  obtain ⟨stream, opened, created, returned⟩ := bind_eq_ok returned
  obtain ⟨compressed, ran, called, returned⟩ := bind_eq_ok returned
  obtain ⟨_, written, wrote, returned⟩ := bind_eq_ok returned
  obtain ⟨_, checked, zero, returned⟩ := bind_eq_ok returned
  obtain ⟨content, read, reading, returned⟩ := bind_eq_ok returned
  obtain ⟨_, compared, magic, returned⟩ := bind_eq_ok returned
  obtain ⟨tested, validated, testing, returned⟩ := bind_eq_ok returned
  obtain ⟨_, first, outText, returned⟩ := bind_eq_ok returned
  obtain ⟨stderr, second, errText, accepted⟩ := bind_eq_ok returned
  have steady := ((mkdirParents_steady env _).of_eq_ok (Steady.refl before) made).1
  obtain ⟨⟨location, empty⟩, openedCalls⟩ := openExclusive_eq_ok env created
  obtain ⟨-, writtenWorld⟩ := (writeTo_eq_ok_iff env).mp wrote
  obtain ⟨success, rfl⟩ := checkReturncode_eq_ok_iff.mp zero
  obtain ⟨-, found, readWorld⟩ := (readBytes_eq_ok_iff env).mp reading
  obtain ⟨begins, rfl⟩ := raiseIf_eq_ok_iff.mp magic
  cases (decoded_eq_ok_iff.mp outText).2
  cases (decoded_eq_ok_iff.mp errText).2
  obtain ⟨valid, rfl⟩ := raiseIf_eq_ok_iff.mp accepted
  cases ((run_eq_ok_iff env).mp called).2
  cases ((run_eq_ok_iff env).mp testing).2
  have new : before.disk.NewFile checked.disk env.cwd output location stream compressed.stdout := by
    rw [writtenWorld]
    exact (empty.earlier steady.kept).append _
  rw [new.readBytes] at found
  cases found
  refine ⟨location, stream, compressed, tested, ?_, not_not.mp begins, success, not_not.mp valid, ?_⟩
  · simpa only [readWorld] using new
  · simp only [readWorld, writtenWorld, openedCalls, steady.calls]
    simp [Call.compress, Call.test]

theorem writeReport_eq_ok {path : PurePath} {report : Json} {before after : World} {result : Unit}
    (returned : writeReport env path report before = .ok result after) :
    ∃ location inode bytes,
      before.disk.NewFile after.disk env.cwd path location inode bytes := by
  obtain ⟨_, directory, made, returned⟩ := bind_eq_ok returned
  obtain ⟨stream, opened, created, wrote⟩ := bind_eq_ok returned
  have steady := ((mkdirParents_steady env _).of_eq_ok (Steady.refl before) made).1
  obtain ⟨⟨location, empty⟩, -⟩ := openExclusive_eq_ok env created
  rw [((writeTo_eq_ok_iff env).mp wrote).2]
  exact ⟨location, stream, _, (empty.earlier steady.kept).append _⟩

/-- The run has left two new files, and the fragment begins with the magic. -/
structure PublishedAs (args : Args) (before after : World) (outputAt reportAt : Location)
    (outputFile reportFile : Inode) (fragment reportText : Bytes) : Prop where
  output : before.disk.NewFile after.disk env.cwd args.outputFragment outputAt outputFile fragment
  report : before.disk.NewFile after.disk env.cwd args.report reportAt reportFile reportText
  distinctPlaces : outputAt ≠ reportAt
  distinctFiles : outputFile ≠ reportFile
  magic : fragment.take 4 = lz4LegacyMagic

/-- The programs that have run: the input was decoded, the patched archive
compressed to the fragment, the fragment tested and decoded to the patched
archive again. -/
structure RoundTrip (args : Args) (before after : World) (fragment inputCpio outputCpio : Bytes)
    (decodedInput compressed tested decodedOutput : Completed) : Prop where
  calls : after.calls = before.calls ++
    [Call.decode args.inputFragment args.lz4 decodedInput,
      Call.compress outputCpio args.lz4 compressed, Call.test args.outputFragment args.lz4 tested,
      Call.decode args.outputFragment args.lz4 decodedOutput]
  succeeded : ∀ completed ∈ [decodedInput, compressed, tested, decodedOutput],
    completed.returncode = 0
  input : decodedInput.stdout = inputCpio
  fragment : compressed.stdout = fragment
  output : decodedOutput.stdout = outputCpio

variable (sha256Bytes : Bytes → String) (budget : Nat)

/-- The end of a run adds the report to the disk and one decoding to the calls. -/
theorem finish_eq_ok {args : Args} {inputCpio : Bytes} {patched : Bytes × PatchReport}
    {before after : World} {status : Nat}
    (returned : finish env sha256Bytes args inputCpio patched before = .ok status after) :
    before.disk.Kept after.disk ∧
      (∃ location inode bytes, before.disk.NewFile after.disk env.cwd args.report location inode bytes) ∧
      ∃ completed, completed.returncode = 0 ∧ completed.stdout = patched.1 ∧
        after.calls = before.calls ++ [Call.decode args.outputFragment args.lz4 completed] := by
  have kept := ((finish_steady env sha256Bytes args inputCpio patched).of_eq_ok
    (⟨.refl before.disk, trivial⟩ : Steady _ _ before) returned).1.kept
  obtain ⟨recompressed, decodedWorld, decoding, returned⟩ := bind_eq_ok returned
  obtain ⟨_, compared, matching, returned⟩ := bind_eq_ok returned
  obtain ⟨input, described, inputFacts, returned⟩ := bind_eq_ok returned
  obtain ⟨output, ready, outputFacts, returned⟩ := bind_eq_ok returned
  obtain ⟨_, reported, writing, returned⟩ := bind_eq_ok returned
  obtain ⟨_, printed, printing, finished⟩ := bind_eq_ok returned
  obtain ⟨sameDisk, completed, success, decodes, calls⟩ := decodeFragment_eq_ok env decoding
  obtain ⟨same, rfl⟩ := raiseIf_eq_ok_iff.mp matching
  obtain ⟨-, rfl⟩ := pure_eq_ok finished
  have start : Steady before.disk (· = compared.calls) compared :=
    ⟨by rw [sameDisk]; exact .refl _, rfl⟩
  have first := ((describeFile_steady env _ _).of_eq_ok start inputFacts).1
  have second := ((describeFile_steady env _ _).of_eq_ok first outputFacts).1
  have third := ((writeReport_steady env _ _).of_eq_ok second writing).1
  have last := ((printSummary_steady env _ _).of_eq_ok third printing).1
  have shown := ((printSummary_steady env _ _).of_eq_ok
    (⟨.refl reported.disk, trivial⟩ : Steady _ (fun _ => True) reported) printing).1.kept
  obtain ⟨location, inode, bytes, new⟩ := writeReport_eq_ok env writing
  refine ⟨kept, ⟨location, inode, bytes, (new.earlier second.kept).later shown⟩, completed, success,
    decodes.trans (not_not.mp same), ?_⟩
  rw [last.calls, calls]

/-- Only a run that returns has the exit status 0. -/
theorem exitStatus_eq_zero {args : Args} {before : World}
    (success : exitStatus env sha256Bytes budget args before = some 0) :
    ∃ status after, main env sha256Bytes budget args before = .ok status after := by
  unfold exitStatus at success
  cases ended : main env sha256Bytes budget args before with
  | ok status after => exact ⟨status, after, rfl⟩
  | error error after =>
      rw [ended] at success
      split at success
      · contradiction
      · contradiction
      · split at success <;> contradiction

/-- However a run ends, every file that was there has its content.  A run with
exit status 0 has made the fragment and the report, two new files, and the
fragment was decoded to the patched archive. -/
theorem main_keeps_files_and_publishes (args : Args) (before : World) :
    (∀ location bytes, before.disk.fileAt location = some bytes →
      (finalState (main env sha256Bytes budget args) before).disk.fileAt location = some bytes) ∧
    (exitStatus env sha256Bytes budget args before = some 0 →
      ∃ outputAt reportAt outputFile reportFile fragment reportText inputCpio outputCpio patchReport
          decodedInput compressed tested decodedOutput,
        PublishedAs env args before (finalState (main env sha256Bytes budget args) before)
          outputAt reportAt outputFile reportFile fragment reportText ∧
        RoundTrip args before (finalState (main env sha256Bytes budget args) before)
          fragment inputCpio outputCpio decodedInput compressed tested decodedOutput ∧
        patchProperties sha256Bytes budget inputCpio = some (.ok (outputCpio, patchReport))) := by
  constructor
  · intro location bytes file
    have steady := (main_steady env sha256Bytes budget args).finalState
      (⟨.refl before.disk, trivial⟩ : Steady _ _ before)
    exact steady.kept.fileAt file
  · intro success
    obtain ⟨status, after, returned⟩ := exitStatus_eq_zero env sha256Bytes budget success
    have ends : finalState (main env sha256Bytes budget args) before = after := by
      rw [finalState, returned]
    rw [ends]
    obtain ⟨_, allowed, refusals, returned⟩ := bind_eq_ok returned
    obtain ⟨inputCpio, decodedWorld, decoding, returned⟩ := bind_eq_ok returned
    obtain ⟨patched, patchedWorld, patching, returned⟩ := bind_eq_ok returned
    obtain ⟨_, compressedWorld, compressing, finishing⟩ := bind_eq_ok returned
    have first := ((refuseUpfront_maintains env _).of_eq_ok (Steady.refl before) refusals).1
    obtain ⟨sameDisk, decodedInput, inputSuccess, inputDecodes, inputCalls⟩ :=
      decodeFragment_eq_ok env decoding
    have start : Steady before.disk (· = decodedWorld.calls) decodedWorld :=
      ⟨by rw [sameDisk]; exact first.kept, rfl⟩
    obtain ⟨second, result⟩ := (patch_maintains sha256Bytes budget _).of_eq_ok start patching
    obtain ⟨outputAt, outputFile, compressed, tested, output, magic, compressSuccess, testSuccess,
      compressCalls⟩ := compressFragment_eq_ok env compressing
    obtain ⟨kept, ⟨reportAt, reportFile, reportText, report⟩, decodedOutput, outputSuccess,
      outputDecodes, outputCalls⟩ := finish_eq_ok env sha256Bytes finishing
    have published := (output.earlier second.kept).later kept
    have grown := (compressFragment_steady env _ _ _).of_eq_ok
      (⟨second.kept, trivial⟩ : Steady _ _ _) compressing
    refine ⟨outputAt, reportAt, outputFile, reportFile, compressed.stdout, reportText, inputCpio,
      patched.1, patched.2, decodedInput, compressed, tested, decodedOutput,
      ⟨published, report.earlier grown.1.kept, ?_, ?_, magic⟩, ⟨?_, ?_, inputDecodes, rfl,
        outputDecodes⟩, result⟩
    · rintro rfl
      have free := report.free
      rw [output.node] at free
      contradiction
    · have old := compressedWorld.disk.used _ _ output.node
      exact Nat.ne_of_lt (Nat.lt_of_lt_of_le old report.unused)
    · rw [outputCalls, compressCalls, second.calls, inputCalls, first.calls]
      simp
    · simp [inputSuccess, compressSuccess, testSuccess, outputSuccess]

end

/-- A disk with nothing but an input fragment in the root. -/
def inputOnly : World where
  disk := {
    tree := FileSystem.empty.create "in.lz4" [] (.file 0) rfl rfl
    contents := fun _ => []
    next := 1
    used := by
      intro location inode found
      by_cases here : location = ["in.lz4"]
      · subst here
        cases found
        exact Nat.lt_succ_self 0
      · simp only [FileSystem.create, Function.update_of_ne here, FileSystem.empty] at found
        split at found <;> cases found }
  clock := 0
  calls := []
  printed := []

/-- An lz4 that decodes the input to an archive and otherwise knows the last archive it was given. -/
def workingLz4 : Environment where
  cwd := []
  links := 0
  fault := fun _ => none
  process := fun calls invocation =>
    match invocation.stdin, calls with
    | some cpio, _ => .ok ⟨0, lz4LegacyMagic ++ cpio, []⟩
    | none, [_, ⟨⟨_, some cpio⟩, _⟩, _] => .ok ⟨0, cpio, []⟩
    | none, _ => .ok ⟨0, if calls = [] then (propArchive 0x31 0x30).encode else [], []⟩

def inOutArgs : Args where
  inputFragment := ⟨true, [.name "in.lz4"]⟩
  outputFragment := ⟨true, [.name "out", .name "fragment.lz4"]⟩
  report := ⟨true, [.name "out", .name "report.json"]⟩

theorem main_keeps_files_and_publishes_propArchive :
    exitStatus workingLz4 (fun _ => "") 2 inOutArgs inputOnly = some 0 ∧
      ∃ outputAt reportAt outputFile reportFile fragment reportText,
        PublishedAs workingLz4 inOutArgs inputOnly
          (finalState (main workingLz4 (fun _ => "") 2 inOutArgs) inputOnly)
          outputAt reportAt outputFile reportFile fragment reportText := by
  have success : exitStatus workingLz4 (fun _ => "") 2 inOutArgs inputOnly = some 0 := by
    decide +kernel
  obtain ⟨outputAt, reportAt, outputFile, reportFile, fragment, reportText, _, _, _, _, _, _, _,
    published, -⟩ :=
      (main_keeps_files_and_publishes workingLz4 (fun _ => "") 2 inOutArgs inputOnly).2 success
  exact ⟨success, outputAt, reportAt, outputFile, reportFile, fragment, reportText, published⟩

end DashTwrp.PatchTool

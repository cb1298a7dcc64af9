import DashTwrp.PatchTool.Files

namespace DashTwrp.PatchTool

open DashTwrp.Newc DashTwrp.Python DashTwrp.Unix

/-! What a run that ends in an error leaves behind.

The output fragment is created before it is compressed, tested and decoded
again, and no error path takes it away. -/

section

variable (env : Environment) (sha256Bytes : Bytes → String) (budget : Nat)

/-! ### A run around the creation of the output fragment -/

/-- `main` up to the creation of the output fragment. -/
def prepareOutput (args : Args) : Tool (Bytes × (Bytes × PatchReport)) := do
  refuseUpfront env args
  let inputCpio ← decodeFragment env args.inputFragment args.lz4
  let patched ← patch sha256Bytes budget inputCpio
  mkdirParents env (parent args.outputFragment)
  pure (inputCpio, patched)

/-- `main` from the creation on. -/
def publish (args : Args) (inputCpio : Bytes) (patched : Bytes × PatchReport) (stream : Inode) :
    Tool Nat := do
  fillOutput env patched.1 args.outputFragment args.lz4 stream
  finish env sha256Bytes args inputCpio patched

theorem main_eq (args : Args) :
    main env sha256Bytes budget args = (do
      let prepared ← prepareOutput env sha256Bytes budget args
      let stream ← openExclusive env args.outputFragment
      publish env sha256Bytes args prepared.1 prepared.2 stream) := by
  simp only [main, compressFragment_eq, prepareOutput, publish, bind_assoc, pure_bind]

theorem decodeFragment_maintains {invariant : Disk → Prop} (path lz4 : PurePath) :
    Maintains (fun world => invariant world.disk) (decodeFragment env path lz4) fun _ => True := by
  unfold decodeFragment
  refine maintains_bind (run_maintains env _ _) fun completed _ => ?_
  refine maintains_bind (checkReturncode_maintains _ _) fun _ _ => ?_
  exact maintains_pure trivial

/-- Before the creation only directories are made. -/
theorem prepareOutput_noNewFile {base : Disk} (args : Args) :
    Maintains (fun world => base.NoNewFile world.disk)
      (prepareOutput env sha256Bytes budget args) fun _ => True := by
  have makes : ∀ path, Maintains (fun world => base.NoNewFile world.disk)
      (makeDirectory env path : Tool Unit) fun _ => True :=
    fun path => onDisk_maintains env fun _ _ _ noNew made => Disk.makeDirectory_noNewFile noNew made
  unfold prepareOutput
  refine maintains_bind (refuseUpfront_maintains env _) fun _ _ => ?_
  refine maintains_bind (decodeFragment_maintains env _ _) fun inputCpio _ => ?_
  refine maintains_bind (patch_maintains _ _ _) fun patched _ => ?_
  refine maintains_bind (mkdirParents_maintains env makes _) fun _ _ => ?_
  exact maintains_pure trivial

theorem prepareOutput_steady {base : Disk} (args : Args) :
    Maintains (Steady base fun _ => True) (prepareOutput env sha256Bytes budget args)
      fun _ => True := by
  unfold prepareOutput
  refine maintains_bind (refuseUpfront_maintains env _) fun _ _ => ?_
  refine maintains_bind (decodeFragment_steady env _ _) fun inputCpio _ => ?_
  refine maintains_bind (patch_maintains _ _ _) fun patched _ => ?_
  refine maintains_bind (mkdirParents_steady env _) fun _ _ => ?_
  exact maintains_pure trivial

/-- The later steps keep the created file, whichever of them fails. -/
theorem publish_keeps_output (args : Args) (inputCpio : Bytes) (patched : Bytes × PatchReport)
    (stream : Inode) (opened : World) :
    ∃ bytes, (opened.disk.append stream bytes).Kept
      (finalState (publish env sha256Bytes args inputCpio patched stream) opened).disk := by
  have shape : publish env sha256Bytes args inputCpio patched stream = (do
      let compressed ← run env (compressCommand args.lz4) (some patched.1)
      writeTo env stream compressed.stdout
      checkOutput env compressed args.outputFragment args.lz4
      finish env sha256Bytes args inputCpio patched) := by
    simp only [publish, fillOutput, bind_assoc]
  rw [shape, finalState_bind]
  unfold run
  simp only
  cases env.process opened.calls ⟨compressCommand args.lz4, some patched.1⟩ with
  | error error => exact ⟨[], .of_append_nil _ _⟩
  | ok compressed =>
      simp only
      rw [finalState_bind]
      unfold writeTo
      cases env.fault opened.clock with
      | some fault => exact ⟨compressed.stdout.take fault.written, .refl _⟩
      | none =>
          refine ⟨compressed.stdout, ?_⟩
          have rest : Maintains (Steady (opened.disk.append stream compressed.stdout) fun _ => True)
              (do
                checkOutput env compressed args.outputFragment args.lz4
                finish env sha256Bytes args inputCpio patched) fun _ => True :=
            maintains_bind (checkOutput_steady env _ _ _) fun _ _ =>
              (finish_steady env _ _ _ _).weaken fun _ _ => trivial
          exact (rest.finalState ⟨.refl _, trivial⟩).kept

/-! ### When the rest of a run succeeds -/

/-- lz4 compresses the archive to a fragment with the magic, and its test accepts the fragment. -/
structure Fills (cpio : Bytes) (output lz4 : PurePath) (calls : List Call)
    (compressed tested : Completed) : Prop where
  compresses : env.process calls ⟨compressCommand lz4, some cpio⟩ = .ok compressed
  compressSuccess : compressed.returncode = 0
  magic : compressed.stdout.take 4 = lz4LegacyMagic
  tests : env.process (calls ++ [Call.compress cpio lz4 compressed]) ⟨testCommand output lz4, none⟩ =
    .ok tested
  testSuccess : tested.returncode = 0
  testOutput : ∃ text, decodeText tested.stdout = some text
  testErrors : ∃ text, decodeText tested.stderr = some text

def filledWorld (cpio : Bytes) (output lz4 : PurePath) (stream : Inode) (opened : World)
    (compressed tested : Completed) : World :=
  { opened with
    clock := opened.clock + 2
    disk := opened.disk.append stream compressed.stdout
    calls := opened.calls ++ [Call.compress cpio lz4 compressed, Call.test output lz4 tested] }

theorem fillOutput_eq_ok_iff {cpio : Bytes} {output lz4 : PurePath} {stream : Inode}
    {before after : World} {result : Unit}
    (reads : ∀ bytes, (before.disk.append stream bytes).readBytes env.cwd output = .ok bytes) :
    fillOutput env cpio output lz4 stream before = .ok result after ↔
      ∃ compressed tested, Fills env cpio output lz4 before.calls compressed tested ∧
        Undisturbed env before.clock 2 ∧
        after = filledWorld cpio output lz4 stream before compressed tested := by
  unfold fillOutput checkOutput
  simp only [bind_eq_ok_iff, run_eq_ok_iff, writeTo_eq_ok_iff, checkReturncode_eq_ok_iff,
    readBytes_eq_ok_iff, raiseIf_eq_ok_iff, decoded_eq_ok_iff]
  simp only [exists_and_left, exists_and_right, and_assoc, exists_eq_left, ne_eq, not_not, reads,
    Except.ok.injEq, exists_eq_left', exists_const, List.append_assoc, List.cons_append,
    List.nil_append, undisturbed_succ, undisturbed_zero, and_true]
  refine ⟨fun found => ?_, fun found => ?_⟩
  · obtain ⟨compressed, compresses, first, success, second, magic, tested, tests, output, errors,
      testSuccess, ends⟩ := found
    exact ⟨compressed, tested, ⟨compresses, success, magic, tests, testSuccess, output, errors⟩,
      first, second, ends⟩
  · obtain ⟨compressed, tested, fills, first, second, ends⟩ := found
    exact ⟨compressed, fills.compresses, first, fills.compressSuccess, second, fills.magic, tested,
      fills.tests, fills.testOutput, fills.testErrors, fills.testSuccess, ends⟩

/-- lz4 decodes the fragment to the archive it was made of. -/
structure DecodesBack (args : Args) (cpio : Bytes) (calls : List Call) (recompressed : Completed) :
    Prop where
  decodes : env.process calls ⟨decodeCommand args.outputFragment args.lz4, none⟩ = .ok recompressed
  success : recompressed.returncode = 0
  same : recompressed.stdout = cpio

/-- The world when the two fragments are described. -/
def describedWorld (args : Args) (filled : World) (recompressed : Completed) : World :=
  { filled with
    clock := filled.clock + 4
    calls := filled.calls ++ [Call.decode args.outputFragment args.lz4 recompressed] }

/-- The report and the summary can be written. -/
def Reports (args : Args) (world : World) : Prop :=
  ∃ ready file created, (mkdirParents env (parent args.report) : Tool Unit) world = .ok () ready ∧
    (openExclusive env args.report : Tool Inode) ready = .ok file created ∧
      Undisturbed env created.clock 5

/-- Both fragments can be found and read. -/
structure Describable (args : Args) (disk : Disk) : Prop where
  input : ∃ location, resolve disk.tree env.links env.cwd args.inputFragment = some location
  inputRead : ∃ bytes, disk.readBytes env.cwd args.inputFragment = .ok bytes
  output : ∃ location, resolve disk.tree env.links env.cwd args.outputFragment = some location
  outputRead : ∃ bytes, disk.readBytes env.cwd args.outputFragment = .ok bytes

theorem resolvePath_eq_ok_iff {path : PurePath} {before after : World} {location : Location} :
    resolvePath env path before = .ok location after ↔
      resolve before.disk.tree env.links env.cwd path = some location ∧ after = before := by
  unfold resolvePath
  rw [bind_eq_ok_iff]
  refine ⟨fun found => ?_, fun found => ?_⟩
  · obtain ⟨answer, middle, asked, returned⟩ := found
    obtain ⟨same, rfl⟩ := ask_eq_ok_iff.mp asked
    cases answer with
    | none => cases returned
    | some place =>
        obtain ⟨rfl, rfl⟩ := pure_eq_ok returned
        exact ⟨same.symm, rfl⟩
  · obtain ⟨resolved, rfl⟩ := found
    exact ⟨some location, _, ask_eq_ok_iff.mpr ⟨resolved.symm, rfl⟩, rfl⟩

/-- What is described of a file that is found and read. -/
def factsOf (location : Location) (bytes : Bytes) : FileFacts where
  path := locationText location
  size := bytes.length
  sha256 := sha256Bytes bytes

theorem describeFile_eq_ok_iff {path : PurePath} {before after : World} {location : Location}
    {bytes : Bytes} {facts : FileFacts}
    (resolved : resolve before.disk.tree env.links env.cwd path = some location)
    (read : before.disk.readBytes env.cwd path = .ok bytes) :
    describeFile env sha256Bytes path before = .ok facts after ↔
      Undisturbed env before.clock 2 ∧
        facts = factsOf sha256Bytes location bytes ∧
        after = { before with clock := before.clock + 2 } := by
  unfold describeFile factsOf
  simp only [bind_eq_ok_iff, resolvePath_eq_ok_iff, readBytes_eq_ok_iff, pure_eq_ok_iff]
  simp only [undisturbed_succ, undisturbed_zero, and_true, exists_and_left, and_assoc,
    exists_eq_left, resolved, Option.some.injEq, exists_eq_left', read, Except.ok.injEq]

theorem decodeFragment_eq_ok_iff {path lz4 : PurePath} {before after : World} {cpio : Bytes} :
    decodeFragment env path lz4 before = .ok cpio after ↔
      ∃ completed, env.process before.calls ⟨decodeCommand path lz4, none⟩ = .ok completed ∧
        completed.returncode = 0 ∧ cpio = completed.stdout ∧
        after = { before with calls := before.calls ++ [Call.decode path lz4 completed] } := by
  unfold decodeFragment
  simp only [bind_eq_ok_iff, run_eq_ok_iff, checkReturncode_eq_ok_iff, pure_eq_ok_iff]
  simp only [exists_and_left, and_assoc, exists_eq_left, Call.decode, exists_const]

theorem reports_iff (args : Args) (report : Json) (facts : FileFacts) (patchReport : PatchReport)
    (world : World) : Reports env args world ↔
      ∃ reported, writeReport env args.report report world = .ok () reported ∧
        ∃ printed, printSummary env facts patchReport reported = .ok () printed := by
  unfold Reports writeReport printSummary
  simp only [bind_eq_ok_iff, writeTo_eq_ok_iff, print_eq_ok_iff]
  simp only [exists_and_left, and_assoc, exists_eq_left, exists_const, exists_eq, and_true,
    undisturbed_succ, undisturbed_zero]
  refine ⟨fun found => ?_, fun found => ?_⟩
  · obtain ⟨ready, made, file, created, opened, first, later⟩ := found
    exact ⟨_, ⟨(), ready, made, file, created, opened, first, rfl⟩, later⟩
  · obtain ⟨_, ⟨_, ready, made, file, created, opened, first, rfl⟩, later⟩ := found
    exact ⟨ready, made, file, created, opened, first, later⟩

theorem finish_returns_iff {args : Args} {inputCpio : Bytes} {patched : Bytes × PatchReport}
    {before : World} (describable : Describable env args before.disk) :
    (∃ status after, finish env sha256Bytes args inputCpio patched before = .ok status after) ↔
      ∃ recompressed, DecodesBack env args patched.1 before.calls recompressed ∧
        Undisturbed env before.clock 4 ∧
          Reports env args (describedWorld args before recompressed) := by
  obtain ⟨inputAt, inputResolved⟩ := describable.input
  obtain ⟨inputBytes, inputRead⟩ := describable.inputRead
  obtain ⟨outputAt, outputResolved⟩ := describable.output
  obtain ⟨outputBytes, outputRead⟩ := describable.outputRead
  unfold finish
  simp only [bind_eq_ok_iff, decodeFragment_eq_ok_iff, raiseIf_eq_ok_iff, pure_eq_ok_iff]
  refine ⟨fun found => ?_, fun found => ?_⟩
  · obtain ⟨_, _, _, _, ⟨recompressed, decodes, success, rfl, rfl⟩, _, _, ⟨same, rfl⟩, found⟩ := found
    obtain ⟨input, _, inputFacts, output, _, outputFacts, _, reported, writes, _, printed, prints, -⟩ :=
      found
    obtain ⟨first, rfl, rfl⟩ := (describeFile_eq_ok_iff env _ (by exact inputResolved)
      (by exact inputRead)).mp inputFacts
    obtain ⟨second, rfl, rfl⟩ := (describeFile_eq_ok_iff env _ (by exact outputResolved)
      (by exact outputRead)).mp outputFacts
    refine ⟨recompressed, ⟨decodes, success, not_not.mp same⟩, ?_, ?_⟩
    · simp only [undisturbed_succ, undisturbed_zero, and_true] at first second ⊢
      exact ⟨first.1, first.2, second.1, second.2⟩
    · exact (reports_iff env _ _ _ _ _).mpr ⟨reported, writes, printed, prints⟩
  · obtain ⟨recompressed, back, quiet, reports⟩ := found
    obtain ⟨reported, writes, printed, prints⟩ := (reports_iff env args
      (reportJson sha256Bytes (factsOf sha256Bytes inputAt inputBytes)
        (factsOf sha256Bytes outputAt outputBytes) inputCpio patched.1 patched.2)
      (factsOf sha256Bytes outputAt outputBytes) patched.2 _).mp reports
    simp only [undisturbed_succ, undisturbed_zero, and_true] at quiet
    obtain ⟨first, second, third, fourth⟩ := quiet
    have inputQuiet : Undisturbed env before.clock 2 := by
      simp only [undisturbed_succ, undisturbed_zero, and_true]
      exact ⟨first, second⟩
    have outputQuiet : Undisturbed env (before.clock + 2) 2 := by
      simp only [undisturbed_succ, undisturbed_zero, and_true]
      exact ⟨third, fourth⟩
    exact ⟨0, printed, patched.1, _, ⟨recompressed, back.decodes, back.success, back.same.symm, rfl⟩,
      (), _, ⟨not_not.mpr rfl, rfl⟩, factsOf sha256Bytes inputAt inputBytes, _,
      (describeFile_eq_ok_iff env _ (by exact inputResolved) (by exact inputRead)).mpr
        ⟨inputQuiet, rfl, rfl⟩,
      factsOf sha256Bytes outputAt outputBytes, _,
      (describeFile_eq_ok_iff env _ (by exact outputResolved) (by exact outputRead)).mpr
        ⟨outputQuiet, rfl, rfl⟩,
      (), reported, writes, (), printed, prints, rfl, rfl⟩

/-- Every step behind the creation of the output fragment succeeds: lz4 compresses,
tests and decodes, and the operating system lets the files be written and read. -/
def Finishes (args : Args) (cpio : Bytes) (stream : Inode) (opened : World) : Prop :=
  ∃ compressed tested recompressed,
    Fills env cpio args.outputFragment args.lz4 opened.calls compressed tested ∧
    DecodesBack env args cpio
      (opened.calls ++ [Call.compress cpio args.lz4 compressed,
        Call.test args.outputFragment args.lz4 tested]) recompressed ∧
    Undisturbed env opened.clock 6 ∧
    Reports env args (describedWorld args
      (filledWorld cpio args.outputFragment args.lz4 stream opened compressed tested) recompressed)

theorem publish_returns_iff {args : Args} (inputCpio : Bytes) {patched : Bytes × PatchReport}
    {stream : Inode} {opened : World}
    (reads : ∀ bytes,
      (opened.disk.append stream bytes).readBytes env.cwd args.outputFragment = .ok bytes)
    (describable : ∀ bytes, Describable env args (opened.disk.append stream bytes)) :
    (∃ status after, publish env sha256Bytes args inputCpio patched stream opened = .ok status after) ↔
      Finishes env args patched.1 stream opened := by
  unfold publish Finishes
  simp only [bind_eq_ok_iff, fillOutput_eq_ok_iff env reads]
  refine ⟨fun found => ?_, fun found => ?_⟩
  · obtain ⟨status, after, _, _, ⟨compressed, tested, fills, first, rfl⟩, finishes⟩ := found
    obtain ⟨recompressed, back, second, reports⟩ :=
      (finish_returns_iff env sha256Bytes (by exact describable compressed.stdout)).mp
        ⟨status, after, finishes⟩
    exact ⟨compressed, tested, recompressed, fills, back, (undisturbed_add env _ _ _).mpr ⟨first, second⟩,
      reports⟩
  · obtain ⟨compressed, tested, recompressed, fills, back, quiet, reports⟩ := found
    obtain ⟨first, second⟩ := (undisturbed_add env _ 2 4).mp quiet
    obtain ⟨status, after, finishes⟩ := (finish_returns_iff env sha256Bytes
      (by exact describable compressed.stdout)).mpr ⟨recompressed, back, second, reports⟩
    exact ⟨status, after, (), _, ⟨compressed, tested, fills, first, rfl⟩, finishes⟩

/-! ### What the checks at the start give to the end -/

/-- Both fragments resolve when the tool starts, and the input is a file. -/
theorem refuseUpfront_eq_ok {args : Args} {before after : World} {result : Unit}
    (returned : refuseUpfront env args before = .ok result after) :
    after = before ∧ before.disk.tree.isFile env.cwd args.inputFragment = true ∧
      (∃ location, resolve before.disk.tree env.links env.cwd args.outputFragment = some location) ∧
      ∃ location, resolve before.disk.tree env.links env.cwd args.inputFragment = some location := by
  unfold refuseUpfront refuseExisting at returned
  simp only [bind_eq_ok_iff, raiseIf_eq_ok_iff, resolvePath_eq_ok_iff] at returned
  obtain ⟨present, _, asked, _, _, ⟨isFile, rfl⟩, lz4Present, _, lz4Asked, _, _, ⟨-, rfl⟩, output, _,
    ⟨outputResolved, rfl⟩, input, _, ⟨inputResolved, rfl⟩, _, _, ⟨-, rfl⟩, _, _, ⟨taken, _,
    outputAsked, -, rfl⟩, reportTaken, _, reportAsked, -, rfl⟩ := returned
  cases asked
  cases lz4Asked
  cases outputAsked
  cases reportAsked
  exact ⟨rfl, by simpa using isFile, ⟨output, outputResolved⟩, input, inputResolved⟩

theorem prepareOutput_eq_ok {args : Args} {before ready : World}
    {prepared : Bytes × (Bytes × PatchReport)}
    (returned : prepareOutput env sha256Bytes budget args before = .ok prepared ready) :
    before.disk.Kept ready.disk ∧ before.disk.NoNewFile ready.disk ∧
      before.disk.tree.isFile env.cwd args.inputFragment = true ∧
      (∃ location, resolve before.disk.tree env.links env.cwd args.outputFragment = some location) ∧
      ∃ location, resolve before.disk.tree env.links env.cwd args.inputFragment = some location := by
  have steady := ((prepareOutput_steady env sha256Bytes budget args).of_eq_ok
    (⟨.refl before.disk, trivial⟩ : Steady _ _ before) returned).1
  have noNew := ((prepareOutput_noNewFile env sha256Bytes budget args).of_eq_ok
    (Disk.NoNewFile.refl before.disk) returned).1
  obtain ⟨_, _, refusals, -⟩ := bind_eq_ok returned
  exact ⟨steady.kept, noNew, (refuseUpfront_eq_ok env refusals).2⟩

/-- A file is read through the same path on every later disk. -/
theorem readBytes_of_isFile {before after : Disk} {cwd : Location} {path : PurePath}
    (kept : before.Kept after) (isFile : before.tree.isFile cwd path = true) :
    ∃ bytes, after.readBytes cwd path = .ok bytes := by
  unfold FileSystem.isFile at isFile
  split at isFile
  · rename_i inode found
    obtain ⟨location, located, there⟩ := FileSystem.stat_eq_ok_iff.mp found
    have later := FileSystem.locate_extends kept.nodes
      (fun free => absurd free (by simp [there])) located
    have stat : after.tree.stat true cwd path = .ok (.file inode) :=
      FileSystem.stat_eq_ok_iff.mpr ⟨location, later, kept.nodes _ _ there⟩
    exact ⟨after.contents inode, by rw [Disk.readBytes, stat]⟩
  · contradiction

/-- Behind the creation of the output both fragments are found and read. -/
theorem describable_of_created {args : Args} {before ready opened : World} {stream : Inode}
    {prepared : Bytes × (Bytes × PatchReport)}
    (returned : prepareOutput env sha256Bytes budget args before = .ok prepared ready)
    (created : (openExclusive env args.outputFragment : Tool Inode) ready = .ok stream opened) :
    (∀ bytes, (opened.disk.append stream bytes).readBytes env.cwd args.outputFragment = .ok bytes) ∧
      ∀ bytes, Describable env args (opened.disk.append stream bytes) := by
  obtain ⟨kept, noNew, isFile, outputResolved, inputResolved⟩ :=
    prepareOutput_eq_ok env sha256Bytes budget returned
  obtain ⟨-, disk, made, rfl⟩ := (onDisk_eq_ok_iff env).mp created
  obtain ⟨location, new⟩ := Disk.newFile_of_makeFile made
  obtain ⟨rfl, grown, -⟩ := Disk.makeFile_eq_ok made
  obtain ⟨place, node⟩ := Disk.makeFile_node made
  have readOutput (bytes : Bytes) :
      (disk.append ready.disk.next bytes).readBytes env.cwd args.outputFragment = .ok bytes :=
    (new.append bytes).readBytes
  have sameLinks (other : Location) (target : PurePath) :
      before.disk.tree.node other = some (.link target) ↔
        disk.tree.node other = some (.link target) := by
    refine noNew.link kept |>.trans ⟨grown.nodes _ _, fun found => ?_⟩
    rw [node] at found
    by_cases here : other = place
    · subst here
      simp at found
    · rwa [Function.update_of_ne here] at found
  have resolves (path : PurePath) := resolve_congr sameLinks env.links env.cwd path
  refine ⟨readOutput, fun bytes => ⟨?_, ?_, ?_, bytes, readOutput bytes⟩⟩
  · rw [resolves args.inputFragment] at inputResolved
    exact inputResolved
  · have both : before.disk.Kept (disk.append ready.disk.next bytes) :=
      Disk.append_kept (kept.trans grown) kept.next
    exact readBytes_of_isFile both isFile
  · rw [resolves args.outputFragment] at outputResolved
    exact outputResolved

/-- A run that ends in an error leaves no new file, exactly when behind a created
output fragment every step succeeds. -/
theorem main_leaves_nothing_iff (args : Args) (before : World) :
    (∀ error after, main env sha256Bytes budget args before = .error error after →
      before.disk.NoNewFile after.disk) ↔
    ∀ prepared ready stream opened,
      prepareOutput env sha256Bytes budget args before = .ok prepared ready →
      (openExclusive env args.outputFragment : Tool Inode) ready = .ok stream opened →
        Finishes env args prepared.2.1 stream opened := by
  rw [main_eq]
  refine ⟨fun clean => ?_, fun finishes => ?_⟩
  · intro prepared ready stream opened returned created
    obtain ⟨reads, describable⟩ :=
      describable_of_created env sha256Bytes budget returned created
    refine (publish_returns_iff env sha256Bytes prepared.1 reads describable).mp ?_
    cases ran : publish env sha256Bytes args prepared.1 prepared.2 stream opened with
    | ok status after => exact ⟨status, after, rfl⟩
    | error error after =>
        obtain ⟨kept, -⟩ := prepareOutput_eq_ok env sha256Bytes budget returned
        obtain ⟨-, disk, made, rfl⟩ := (onDisk_eq_ok_iff env).mp created
        obtain ⟨rfl, grown, -⟩ := Disk.makeFile_eq_ok made
        obtain ⟨location, new⟩ := Disk.newFile_of_makeFile made
        obtain ⟨bytes, later⟩ := publish_keeps_output env sha256Bytes args prepared.1 prepared.2
          ready.disk.next { ready with clock := ready.clock + 1, disk }
        rw [finalState, ran] at later
        have failed := bind_eq_error_iff.mpr (.inr ⟨_, _, created, ran⟩)
        have raised := clean error after
          (bind_eq_error_iff.mpr (.inr ⟨prepared, ready, returned, by exact failed⟩))
        exact absurd raised (((new.append bytes).earlier kept).later later).not_noNewFile
  · intro error after raised
    have noNew := prepareOutput_noNewFile env sha256Bytes budget args
      before (Disk.NoNewFile.refl before.disk)
    rcases bind_eq_error_iff.mp raised with failed | later
    · rw [failed] at noNew
      exact noNew
    · obtain ⟨prepared, ready, returned, raised⟩ := later
      rw [returned] at noNew
      rcases bind_eq_error_iff.mp raised with failed | later
      · rw [onDisk_eq_error env failed]
        exact noNew.1
      · obtain ⟨stream, opened, created, failed⟩ := later
        obtain ⟨reads, describable⟩ :=
          describable_of_created env sha256Bytes budget returned created
        obtain ⟨status, ends, succeeded⟩ :=
          (publish_returns_iff env sha256Bytes prepared.1 reads describable).mpr
            (finishes prepared ready stream opened returned created)
        rw [failed] at succeeded
        cases succeeded

end

/-- An lz4 whose compressor fails after it has written the magic. -/
def fullDiskLz4 : Environment where
  cwd := []
  links := 0
  fault := fun _ => none
  process := fun calls invocation =>
    match invocation.stdin with
    | some _ => .ok ⟨1, lz4LegacyMagic, []⟩
    | none => workingLz4.process calls invocation

/-- What a failed run has left in the output, and how the same command ends afterwards. -/
def retried : EStateM.Result (Exception ToolError) World Nat →
    Option (Exception ToolError × Option Bytes × Option Nat)
  | .ok _ _ => none
  | .error error after =>
      some (error, after.disk.fileAt ["fragment.lz4", "out"],
        exitStatus workingLz4 (fun _ => "") 2 inOutArgs { after with calls := [] })

/-- The failed run leaves a partial fragment, and because of it the next run is
refused, with an lz4 that works. -/
theorem main_leaves_partialFragment :
    ∃ after, main fullDiskLz4 (fun _ => "") 2 inOutArgs inputOnly =
        .error (.calledProcess (compressCommand inOutArgs.lz4) 1) after ∧
      after.disk.fileAt ["fragment.lz4", "out"] = some lz4LegacyMagic ∧
      exitStatus workingLz4 (fun _ => "") 2 inOutArgs { after with calls := [] } = some 2 ∧
      ¬ inputOnly.disk.NoNewFile after.disk := by
  have left : retried (main fullDiskLz4 (fun _ => "") 2 inOutArgs inputOnly) =
      some (.calledProcess (compressCommand inOutArgs.lz4) 1, some lz4LegacyMagic, some 2) := by
    decide +kernel
  cases ended : main fullDiskLz4 (fun _ => "") 2 inOutArgs inputOnly with
  | ok status after =>
      rw [ended] at left
      cases left
  | error error after =>
      rw [ended, retried, Option.some.injEq, Prod.mk.injEq, Prod.mk.injEq] at left
      obtain ⟨rfl, there, refused⟩ := left
      refine ⟨after, rfl, there, refused, fun noNew => ?_⟩
      obtain ⟨inode, node, -⟩ := Disk.fileAt_eq_some_iff.mp there
      have free : inputOnly.disk.tree.node ["fragment.lz4", "out"] = none := by decide
      rcases noNew _ free with none | directory
      · rw [node] at none
        cases none
      · rw [node] at directory
        cases directory

end DashTwrp.PatchTool

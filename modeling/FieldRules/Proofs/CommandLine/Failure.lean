import FieldRules.CommandLine
import FieldRules.Proofs.Compilation.Stages
import FieldRules.Proofs.FileTree.OnlyReads

/-!
# Runs that fail

A run of `generate` first finds the files that its arguments name, reads a manifest from each, and
compiles all of them together. Only then does it print or write. `Failure` says what can go wrong up
to there: every stage is described by what it works on, and no order is put on the faults of one
stage.

`failed_run_leaves_nothing` is the main result. If there is a failure, the run reports one, and that
is all that it leaves: the exit code is one, nothing is printed on the standard output, and the tree
is the same as before, also if an output directory is given and other declarations would compile. If
there is none, the run ends as its output says.
-/

namespace FieldRules.CommandLine

/-! ### What a run works on -/

/-- The file at a path holds a manifest. -/
def HoldsManifest (tree : FileTree) (path : String) (manifest : Manifest) : Prop :=
  ∃ text, tree.read path = .ok text ∧ Manifest.ofJson text = .ok manifest

/-- The arguments name files that hold manifests, and this is all of them as one. -/
def Loads (tree : FileTree) (inputs : List String) (manifest : Manifest) : Prop :=
  ∃ paths manifests, (Glob.resolve FileTree.fileSystem inputs tree).1 = .ok paths ∧
    List.Forall₂ (HoldsManifest tree) paths manifests ∧ manifest = .merge manifests

/-- What goes wrong before there is an output. -/
inductive Failure (tree : FileTree) (o : GenerateOptions) : RunError → Prop where
  /-- The arguments name no files. -/
  | inputs {e : Glob.GlobError} : (Glob.resolve FileTree.fileSystem o.inputs tree).1 = .error e →
      Failure tree o (.inputs e)
  /-- One of the files cannot be read. -/
  | read {paths : List String} {path : String} {e : FileError} :
      (Glob.resolve FileTree.fileSystem o.inputs tree).1 = .ok paths → path ∈ paths →
      tree.read path = .error e → Failure tree o (.read path e)
  /-- One of the files holds no manifest. -/
  | parse {paths : List String} {path text : String} {e : Json.Failure} :
      (Glob.resolve FileTree.fileSystem o.inputs tree).1 = .ok paths → path ∈ paths →
      tree.read path = .ok text → Manifest.ofJson text = .error e → Failure tree o (.parse path e)
  /-- The analysis rejects the declarations. -/
  | analysis {manifest : Manifest} {e : Error} : Loads tree o.inputs manifest →
      analyze manifest.types = .error e → Failure tree o (.compile e)
  /-- One of the declarations with rules has no validator. -/
  | assembly {manifest : Manifest} {analyzed : List Declaration} {d : Declaration} {e : Error} :
      Loads tree o.inputs manifest → analyze manifest.types = .ok analyzed → d ∈ analyzed →
      d.hasValidations = true → Validator.ofDeclaration (Scope.of analyzed) d = .error e →
      Failure tree o (.compile e)

variable {tree : FileTree} {inputs paths : List String} {o : GenerateOptions} {e : RunError}
  {manifest : Manifest} {schedule : Schedule} {output : Output}

/-! ### Reading manifests -/

/-- The manifest in the file at a path, or why there is none. -/
def manifestAt (tree : FileTree) (path : String) : Except RunError Manifest :=
  match tree.read path with
  | .error e => .error (.read path e)
  | .ok text =>
    match Manifest.ofJson text with
    | .error e => .error (.parse path e)
    | .ok manifest => .ok manifest

theorem manifestAt_eq_ok_iff {path : String} :
    manifestAt tree path = .ok manifest ↔ HoldsManifest tree path manifest := by
  unfold manifestAt HoldsManifest
  cases tree.read path with
  | error e => simp
  | ok text => cases hjson : Manifest.ofJson text <;> simp [hjson]

theorem onlyReads_readManifests (paths : List String) :
    OnlyReads (readManifests FileTree.fileSystem paths) := by
  induction paths with
  | nil => exact .pure _
  | cons path paths ih =>
    refine .bind (.read path) fun result => ?_
    cases result with
    | error e => exact .pure _
    | ok text =>
      dsimp only
      cases Manifest.ofJson text with
      | error e => exact .pure _
      | ok manifest =>
        refine .bind ih fun others => ?_
        cases others <;> exact .pure _

/-- Reading manifests is a traversal of their paths. -/
theorem readManifests_run (tree : FileTree) (paths : List String) :
    (readManifests FileTree.fileSystem paths tree).1 = paths.mapM (manifestAt tree) := by
  induction paths with
  | nil => rfl
  | cons path paths ih =>
    have hread : (FileTree.fileSystem.read path tree).1 = tree.read path := rfl
    rw [List.mapM_cons, readManifests, (OnlyReads.read path).bind_run, hread, manifestAt]
    cases tree.read path with
    | error e => rfl
    | ok text =>
      dsimp only
      cases Manifest.ofJson text with
      | error e => rfl
      | ok manifest =>
        dsimp only
        rw [(onlyReads_readManifests paths).bind_run, ih]
        cases paths.mapM (manifestAt tree) <;> rfl

/-! ### Loading -/

theorem onlyReads_load (inputs : List String) : OnlyReads (load FileTree.fileSystem inputs) := by
  refine .bind (.resolve inputs) fun found => ?_
  cases found with
  | error e => exact .pure _
  | ok paths => exact .bind (onlyReads_readManifests paths) fun manifests => .pure _

theorem load_eq_error_of_resolve {e : Glob.GlobError}
    (h : (Glob.resolve FileTree.fileSystem inputs tree).1 = .error e) :
    (load FileTree.fileSystem inputs tree).1 = .error (.inputs e) := by
  rw [load, (OnlyReads.resolve inputs).bind_run, h]
  rfl

theorem load_eq_of_resolve (h : (Glob.resolve FileTree.fileSystem inputs tree).1 = .ok paths) :
    (load FileTree.fileSystem inputs tree).1 =
      (paths.mapM (manifestAt tree)).map Manifest.merge := by
  rw [load, (OnlyReads.resolve inputs).bind_run, h, ← readManifests_run]
  rfl

/-- Loading succeeds exactly if all named files hold manifests. -/
theorem load_eq_ok_iff :
    (load FileTree.fileSystem inputs tree).1 = .ok manifest ↔ Loads tree inputs manifest := by
  unfold Loads
  cases hresolve : (Glob.resolve FileTree.fileSystem inputs tree).1 with
  | error e => simp [load_eq_error_of_resolve hresolve]
  | ok paths =>
    simp only [load_eq_of_resolve hresolve, map_eq_ok_iff, mapM_eq_ok_iff, manifestAt_eq_ok_iff,
      Except.ok.injEq, exists_and_left, exists_eq_left', eq_comm (a := manifest)]

/-- Whatever stops the loading is a failure. -/
theorem failure_of_load (h : (load FileTree.fileSystem o.inputs tree).1 = .error e) :
    Failure tree o e := by
  cases hresolve : (Glob.resolve FileTree.fileSystem o.inputs tree).1 with
  | error fault =>
    cases (load_eq_error_of_resolve hresolve).symm.trans h
    exact .inputs hresolve
  | ok paths =>
    rw [load_eq_of_resolve hresolve, map_eq_error_iff] at h
    obtain ⟨path, hpath, hfault⟩ := exists_mem_of_mapM_eq_error h
    unfold manifestAt at hfault
    cases hread : tree.read path with
    | error fault =>
      rw [hread] at hfault
      cases hfault
      exact .read hresolve hpath hread
    | ok text =>
      rw [hread] at hfault
      cases hjson : Manifest.ofJson text with
      | error fault =>
        simp only [hjson] at hfault
        cases hfault
        exact .parse hresolve hpath hread hjson
      | ok manifest => simp [hjson] at hfault

/-! ### Compiling -/

/-- The options that a run compiles with. -/
def chosenOptions (o : GenerateOptions) (manifest : Manifest) : Options :=
  match o.supportPath with
  | some supportPath => { manifest.options.getD {} with supportPath }
  | none => manifest.options.getD {}

theorem compileManifest_eq (o : GenerateOptions) (manifest : Manifest) (schedule : Schedule) :
    compileManifest o manifest schedule =
      compile manifest.types (chosenOptions o manifest) schedule := rfl

/-- Whatever stops the compilation is a failure. -/
theorem failure_of_compile {fault : Error} (hload : Loads tree o.inputs manifest)
    (h : compileManifest o manifest schedule = .error fault) : Failure tree o (.compile fault) := by
  rw [compileManifest_eq] at h
  cases hanalyzed : analyze manifest.types with
  | error stop =>
    cases (compile_of_analyze_eq_error hanalyzed).symm.trans h
    exact .analysis hload hanalyzed
  | ok analyzed =>
    rw [compile_of_analyze hanalyzed, map_eq_error_iff] at h
    obtain ⟨d, hd, hfault⟩ := Schedule.exists_mem_of_collect_map_eq_error h
    obtain ⟨hmem, hvalidations⟩ := List.mem_filter.1 hd
    exact .assembly hload hanalyzed hmem hvalidations (map_eq_error_iff.1 hfault)

/-- All files that the arguments name hold manifests. -/
theorem Loads.exists_holdsManifest (hload : Loads tree inputs manifest)
    (hresolve : (Glob.resolve FileTree.fileSystem inputs tree).1 = .ok paths) {path : String}
    (hpath : path ∈ paths) : ∃ m, HoldsManifest tree path m := by
  obtain ⟨paths', manifests, hresolve', hall, -⟩ := hload
  obtain rfl := Except.ok.inj (hresolve.symm.trans hresolve')
  exact exists_forall₂_iff.1 ⟨manifests, hall⟩ path hpath

theorem Loads.unique {other : Manifest} (h : Loads tree inputs manifest)
    (h' : Loads tree inputs other) : manifest = other :=
  Except.ok.inj ((load_eq_ok_iff.2 h).symm.trans (load_eq_ok_iff.2 h'))

/-- With a failure there is no output: every stage needs all of the stage before it. -/
theorem Failure.compileManifest_ne_ok (h : Failure tree o e)
    (hload : Loads tree o.inputs manifest) : compileManifest o manifest schedule ≠ .ok output := by
  rw [compileManifest_eq]
  intro hcompile
  obtain ⟨analyzed, validators, hanalyzed, hvalidators, -⟩ := compile_eq_ok_iff.1 hcompile
  cases h with
  | inputs hresolve =>
    obtain ⟨paths, -, hpaths, -⟩ := hload
    cases hresolve.symm.trans hpaths
  | read hresolve hpath hread =>
    obtain ⟨-, text, htext, -⟩ := hload.exists_holdsManifest hresolve hpath
    cases hread.symm.trans htext
  | parse hresolve hpath hread hjson =>
    obtain ⟨m, text, htext, hm⟩ := hload.exists_holdsManifest hresolve hpath
    obtain rfl := Except.ok.inj (hread.symm.trans htext)
    cases hjson.symm.trans hm
  | analysis hload' hfault =>
    obtain rfl := hload.unique hload'
    cases hfault.symm.trans hanalyzed
  | assembly hload' hanalyzed' hd hvalidations hfault =>
    obtain rfl := hload.unique hload'
    obtain rfl := Except.ok.inj (hanalyzed.symm.trans hanalyzed')
    obtain ⟨v, hv⟩ := exists_forall₂_iff.1 ⟨validators, generateAll_eq_ok_iff.1 hvalidators⟩ _
      (List.mem_filter.2 ⟨hd, hvalidations⟩)
    obtain ⟨body, hbody, -⟩ := generate_eq_ok_iff.1 hv
    cases hfault.symm.trans hbody

/-! ### Whole runs -/

/-- A run with an output prints it, or writes it into the output directory. -/
theorem runGenerate_of_output (hload : Loads tree o.inputs manifest)
    (hcompile : compileManifest o manifest schedule = .ok output) :
    runGenerate FileTree.fileSystem o schedule tree =
      match o.directory with
      | none => (⟨0, printed o output, ""⟩, tree)
      | some directory => writeOutput FileTree.fileSystem o directory output tree := by
  rw [runGenerate, (onlyReads_load o.inputs).bind_run, load_eq_ok_iff.2 hload]
  dsimp only
  rw [hcompile]
  cases o.directory <;> rfl

/-- A run without an output reports a failure, and ends with the tree that it began with. -/
theorem runGenerate_of_failure (h : ∃ e, Failure tree o e) :
    ∃ e, Failure tree o e ∧
      runGenerate FileTree.fileSystem o schedule tree = (e.outcome, tree) := by
  obtain ⟨e, hfailure⟩ := h
  rw [runGenerate, (onlyReads_load o.inputs).bind_run]
  cases hresult : (load FileTree.fileSystem o.inputs tree).1 with
  | error stop => exact ⟨stop, failure_of_load hresult, rfl⟩
  | ok manifest =>
    have hload := load_eq_ok_iff.1 hresult
    dsimp only
    cases hcompile : compileManifest o manifest schedule with
    | error fault => exact ⟨.compile fault, failure_of_compile hload hcompile, rfl⟩
    | ok output => exact absurd hcompile (hfailure.compileManifest_ne_ok hload)

/-- **A run that fails leaves nothing but its message.** Let the arguments be those of `generate`.
If the search for files, the reading of a file, the reading of a manifest, the analysis or the
assembly of a validator fails, the exit code is one, nothing is printed on the standard output, and
the tree is what it was. The message is that of one of the failures. Without a failure the run has
an output, and ends by printing or writing it. All this holds under every schedule. -/
theorem failed_run_leaves_nothing {arguments : List String}
    (hcommand : readCommand arguments = some (.generate o)) (schedule : Schedule) :
    ((∃ e, Failure tree o e) → ∃ e, Failure tree o e ∧
      run FileTree.fileSystem arguments schedule tree =
        (⟨1, "", "error: " ++ ": ".intercalate e.chain ++ "\n"⟩, tree)) ∧
    ((∀ e, ¬ Failure tree o e) → ∃ manifest output, Loads tree o.inputs manifest ∧
      compileManifest o manifest schedule = .ok output ∧
      run FileTree.fileSystem arguments schedule tree =
        match o.directory with
        | none => (⟨0, printed o output, ""⟩, tree)
        | some directory => writeOutput FileTree.fileSystem o directory output tree) := by
  have hrun : run FileTree.fileSystem arguments schedule tree =
      runGenerate FileTree.fileSystem o schedule tree := by
    rw [run, hcommand]
    rfl
  rw [hrun]
  refine ⟨runGenerate_of_failure, fun hnone => ?_⟩
  cases hresult : (load FileTree.fileSystem o.inputs tree).1 with
  | error stop => exact absurd (failure_of_load hresult) (hnone stop)
  | ok manifest =>
    have hload := load_eq_ok_iff.1 hresult
    cases hcompile : compileManifest o manifest schedule with
    | error fault => exact absurd (failure_of_compile hload hcompile) (hnone _)
    | ok output =>
      exact ⟨manifest, output, hload, hcompile, runGenerate_of_output hload hcompile⟩

/-- A manifest whose declaration compiles. -/
def ageManifest : String :=
  "[\x7b\"name\":\"User\",\"package\":\"people\",\"fields\":" ++
    "[\x7b\"name\":\"age\",\"type\":\"u8\",\"tag\":\"gte=18\"\x7d]\x7d]"

/-- A manifest with a field that is delegated to a type without validations. -/
def siteManifest : String :=
  "[\x7b\"name\":\"Shop\",\"fields\":" ++
      "[\x7b\"name\":\"site\",\"type\":\"Site\",\"tag\":\"required\"\x7d]\x7d," ++
    "\x7b\"name\":\"Site\",\"fields\":[]\x7d]"

/-- A system with both. -/
def townTree : FileTree :=
  .ofEntries [("a.json", .text ageManifest), ("b.json", .text siteManifest)]

/-- The arguments of a run over both, with an output directory. -/
def townArguments : List String :=
  ["generate", "-i", "a.json", "b.json", "-o", "out", "--emit-support"]

/-- What these arguments ask for. -/
def townOptions : GenerateOptions :=
  ⟨["a.json", "b.json"], some "out", none, true⟩

/-- The last declaration with rules has no validator. Nothing is left of the first one either, which
compiles by itself. -/
theorem town_run_leaves_nothing :
    readCommand townArguments = some (.generate townOptions) ∧
      (∃ manifest output, Loads townTree ["a.json"] manifest ∧
        compileManifest townOptions manifest .inOrder = .ok output ∧ output.packages.length = 1) ∧
      (∃ e, Failure townTree townOptions e) ∧
      ∀ schedule, ∃ e, Failure townTree townOptions e ∧
        run FileTree.fileSystem townArguments schedule townTree =
          (⟨1, "", "error: " ++ ": ".intercalate e.chain ++ "\n"⟩, townTree) := by
  have hcommand : readCommand townArguments = some (.generate townOptions) := by decide +kernel
  have heval :
      ((load FileTree.fileSystem ["a.json"] townTree).1.toOption.any fun manifest =>
        (compileManifest townOptions manifest .inOrder).toOption.any (·.packages.length = 1)) = true ∧
      ((load FileTree.fileSystem townOptions.inputs townTree).1.toOption.any fun manifest =>
        (compileManifest townOptions manifest .inOrder).toOption.isNone) = true := by
    decide +kernel
  obtain ⟨hage, hboth⟩ := heval
  obtain ⟨manifest, hload, hage⟩ := exists_eq_ok_of_any hage
  obtain ⟨output, houtput, hpackages⟩ := exists_eq_ok_of_any hage
  obtain ⟨both, hloadBoth, hnone⟩ := exists_eq_ok_of_any hboth
  have hfailure : ∃ e, Failure townTree townOptions e := by
    cases hcompile : compileManifest townOptions both .inOrder with
    | error fault => exact ⟨_, failure_of_compile (load_eq_ok_iff.1 hloadBoth) hcompile⟩
    | ok output => simp [hcompile, Except.toOption] at hnone
  exact ⟨hcommand, ⟨manifest, output, load_eq_ok_iff.1 hload, houtput, by simpa using hpackages⟩,
    hfailure, fun schedule => (failed_run_leaves_nothing hcommand schedule).1 hfailure⟩

end FieldRules.CommandLine

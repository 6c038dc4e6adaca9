import FieldRules.CommandLine
import FieldRules.Proofs.Compilation.Packages
import FieldRules.Proofs.FileTree.Write
import FieldRules.Proofs.Text.Path

/-!
# The files of packages

`generate` writes one file for each package that has a validator. The name of the file is made of
the segments of the package (`fileStem`), and packages that are spelled differently can have the
same stem: `m` and `crate::m`, or `a::b` and `a_b`. The files are written one after the other, so
the last of such packages takes the file, and the validators of the others are lost.

`generate_files` says exactly when this happens: the file names are different if and only if
validators of different packages have different stems. It also says what is on the disk after a run
that succeeds.
-/

namespace FieldRules.CommandLine

/-! ### Names of files -/

/-- The segments of a package that its file is named by, with underscores between them. -/
def fileStem (package : String) : List Char :=
  List.intercalate ['_'] (((Text.pathSegments package.toList).map Text.trim).filter fun s =>
    s ≠ [] ∧ s ≠ "crate".toList)

theorem packageFileName_eq (package : String) :
    packageFileName package =
      if fileStem package = [] then "validators.rs"
      else String.ofList (fileStem package) ++ "_validators.rs" := rfl

/-- A stem makes the name of a file longer. -/
theorem append_ne_rootFile (stem : List Char) :
    String.ofList stem ++ "_validators.rs" ≠ "validators.rs" := by
  intro h
  have hlength := congrArg String.length h
  rw [String.length_append, show "_validators.rs".length = 14 by decide,
    show "validators.rs".length = 13 by decide] at hlength
  omega

/-- Two packages have one file exactly if they have the same stem. -/
theorem packageFileName_eq_iff {p q : String} :
    packageFileName p = packageFileName q ↔ fileStem p = fileStem q := by
  rw [packageFileName_eq, packageFileName_eq]
  refine ⟨fun h => ?_, fun h => by rw [h]⟩
  split_ifs at h with hp hq hq
  · rw [hp, hq]
  · exact (append_ne_rootFile (fileStem q) h.symm).elim
  · exact (append_ne_rootFile (fileStem p) h).elim
  · have hlist := congrArg String.toList h
    simp only [String.toList_append, String.toList_ofList] at hlist
    exact List.append_cancel_right hlist

/-- The name of a package file is longer than that of the support file. -/
theorem length_packageFileName (package : String) : 13 ≤ (packageFileName package).length := by
  rw [packageFileName_eq]
  split_ifs
  · decide
  · rw [String.length_append]
    exact Nat.le_add_left_of_le (by decide)

/-- The letters of a stem are underscores and letters of the package. -/
theorem mem_of_mem_fileStem {package : String} {c : Char} (h : c ∈ fileStem package) :
    c = '_' ∨ c ∈ package.toList := by
  rcases Text.mem_of_mem_intercalate h with hsep | ⟨s, hs, hc⟩
  · exact .inl (List.mem_singleton.1 hsep)
  · obtain ⟨segment, hsegment, rfl⟩ := List.mem_map.1 (List.mem_filter.1 hs).1
    exact .inr (Text.mem_of_mem_pathSegments hsegment (Text.mem_of_mem_trim hc))

/-- Without a slash in the package there is none in the name of its file. -/
theorem isFileName_packageFileName {package : String} (h : '/' ∉ package.toList) :
    FileTree.IsFileName (packageFileName package) := by
  have hlength := length_packageFileName package
  have hshort : ∀ s : String, s.length < 13 → packageFileName package ≠ s := by
    rintro s hs rfl
    omega
  refine ⟨⟨hshort "" (by decide), hshort "." (by decide), hshort ".." (by decide)⟩, ?_⟩
  rw [packageFileName_eq]
  split_ifs
  · decide
  · rw [String.toList_append, String.toList_ofList]
    intro hmem
    rcases List.mem_append.1 hmem with hstem | hsuffix
    · rcases mem_of_mem_fileStem hstem with hslash | hslash
      · cases hslash
      · exact h hslash
    · exact absurd hsuffix (by decide)

/-! ### Runs over a tree -/

variable {tree after : FileTree} {directory : String} {schedule : Schedule}

theorem bind_run {α β : Type} {x : StateM FileTree α} {f : α → StateM FileTree β} :
    (x >>= f) tree = f (x tree).1 (x tree).2 := rfl

theorem write_run {path text : String} :
    FileTree.fileSystem.write path text tree =
      match tree.write path text with
      | .ok mid => (.ok (), mid)
      | .error e => (.error e, tree) := rfl

/-- Files are written one after the other. -/
theorem writeFiles_cons {name text : String} {files : List (String × String)}
    (h : writeFiles FileTree.fileSystem directory ((name, text) :: files) tree = (.ok (), after)) :
    ∃ mid, tree.write (joinName directory name) text = .ok mid ∧
      writeFiles FileTree.fileSystem directory files mid = (.ok (), after) := by
  rw [writeFiles, bind_run, write_run] at h
  cases hmid : tree.write (joinName directory name) text with
  | error e =>
    rw [hmid] at h
    cases h
  | ok mid =>
    rw [hmid] at h
    exact ⟨mid, rfl, h⟩

/-- What the writing of other files leaves as it is. -/
theorem locate_of_writeFiles {files : List (String × String)} {other : String}
    (hfiles : ∀ file ∈ files, FileTree.IsFileName file.1 ∧ other ≠ file.1)
    (hother : FileTree.IsFileName other)
    (h : writeFiles FileTree.fileSystem directory files tree = (.ok (), after)) :
    after.locate (joinName directory other) = tree.locate (joinName directory other) := by
  induction files generalizing tree with
  | nil =>
    cases h
    rfl
  | cons file files ih =>
    obtain ⟨⟨hname, hne⟩, hfiles⟩ := List.forall_mem_cons.1 hfiles
    obtain ⟨mid, hmid, h⟩ := writeFiles_cons h
    rw [ih hfiles h]
    exact FileTree.locate_of_write hname hother hne hmid

/-- A file holds the last text that is written to it. -/
theorem holds_of_writeFiles {before later : List (String × String)} {name text : String}
    (hname : FileTree.IsFileName name)
    (hlater : ∀ file ∈ later, FileTree.IsFileName file.1 ∧ name ≠ file.1)
    (h : writeFiles FileTree.fileSystem directory (before ++ (name, text) :: later) tree =
      (.ok (), after)) :
    after.Holds (joinName directory name) text := by
  induction before generalizing tree with
  | nil =>
    obtain ⟨mid, hmid, h⟩ := writeFiles_cons h
    unfold FileTree.Holds
    rw [locate_of_writeFiles hlater hname h]
    exact FileTree.holds_of_write hname hmid
  | cons file before ih =>
    obtain ⟨mid, -, h⟩ := writeFiles_cons h
    exact ih h

/-- An output that is written without a failure has its directory and all its files. -/
theorem writeOutput_eq_ok {o : GenerateOptions} {output : Output} {outcome : Outcome}
    (hrun : writeOutput FileTree.fileSystem o directory output tree = (outcome, after))
    (hcode : outcome.code = 0) :
    ∃ made, FileTree.fileSystem.makeDirectories directory tree = (.ok (), made) ∧
      writeFiles FileTree.fileSystem directory (outputFiles o output) made = (.ok (), after) := by
  rw [writeOutput, bind_run] at hrun
  cases hmade : FileTree.fileSystem.makeDirectories directory tree with
  | mk result made =>
    rw [hmade] at hrun
    cases result with
    | error e =>
      cases hrun
      cases hcode
    | ok =>
      dsimp only at hrun
      rw [bind_run] at hrun
      cases hfiles : writeFiles FileTree.fileSystem directory (outputFiles o output) made with
      | mk result written =>
        rw [hfiles] at hrun
        cases result with
        | error e =>
          cases hrun
          cases e <;> cases hcode
        | ok =>
          cases hrun
          exact ⟨made, rfl, hfiles⟩

/-- A run with an output directory that succeeds has compiled all manifests and written the output.
-/
theorem runGenerate_eq_ok {o : GenerateOptions} {outcome : Outcome}
    (hdirectory : o.directory = some directory)
    (hrun : runGenerate FileTree.fileSystem o schedule tree = (outcome, after))
    (hcode : outcome.code = 0) :
    ∃ manifest output made,
      (load FileTree.fileSystem o.inputs tree).1 = .ok manifest ∧
        compileManifest o manifest schedule = .ok output ∧
        writeFiles FileTree.fileSystem directory (outputFiles o output) made = (.ok (), after) := by
  rw [runGenerate, bind_run] at hrun
  cases hload : load FileTree.fileSystem o.inputs tree with
  | mk result loaded =>
    rw [hload] at hrun
    cases result with
    | error e =>
      cases hrun
      cases hcode
    | ok manifest =>
      dsimp only at hrun
      cases hcompile : compileManifest o manifest schedule with
      | error e =>
        rw [hcompile] at hrun
        cases hrun
        cases hcode
      | ok output =>
        rw [hcompile, hdirectory] at hrun
        obtain ⟨made, -, hfiles⟩ := writeOutput_eq_ok hrun hcode
        exact ⟨manifest, output, made, rfl, hcompile, hfiles⟩

/-! ### Packages with one file -/

/-- The packages of different files are different, and no two packages have one file exactly if
validators of different packages have different stems. -/
theorem nodup_packageFileNames_iff {validators : List GeneratedValidator} :
    ((packageOutputs validators).map fun p => packageFileName p.package).Nodup ↔
      ∀ v ∈ validators, ∀ w ∈ validators,
        fileStem v.package = fileStem w.package → v.package = w.package := by
  have hmap : (packageOutputs validators).map (fun p => packageFileName p.package) =
      ((packageOutputs validators).map (·.package)).map packageFileName := by
    rw [List.map_map]
    rfl
  rw [hmap, List.nodup_map_iff_inj_on nodup_packages, map_package_packageOutputs]
  simp only [List.mem_eraseDups, List.forall_mem_map, packageFileName_eq_iff]

/-- The support file is no package file. -/
theorem packageFileName_ne_support (package : String) : packageFileName package ≠ "support.rs" := by
  intro h
  have hlength := length_packageFileName package
  rw [h] at hlength
  exact absurd hlength (by decide)

theorem isFileName_support : FileTree.IsFileName "support.rs" :=
  ⟨⟨by decide, by decide, by decide⟩, by decide⟩

/-- Of the packages with one file, the file holds the source of the last one. -/
theorem holds_packageSource {o : GenerateOptions} {output : Output} {p : PackageOutput}
    {front back : List PackageOutput} (hpackages : output.packages = front ++ p :: back)
    (hslash : ∀ q ∈ output.packages, '/' ∉ q.package.toList)
    (hlast : ∀ q ∈ back, fileStem p.package ≠ fileStem q.package)
    (h : writeFiles FileTree.fileSystem directory (outputFiles o output) tree = (.ok (), after)) :
    after.Holds (joinName directory (packageFileName p.package)) p.source := by
  rw [hpackages] at hslash
  have hp : FileTree.IsFileName (packageFileName p.package) :=
    isFileName_packageFileName (hslash p (by simp))
  rw [outputFiles, hpackages, List.map_append, List.map_cons, List.append_assoc,
    List.cons_append] at h
  refine holds_of_writeFiles hp (fun file hfile => ?_) h
  rcases List.mem_append.1 hfile with hback | hsupport
  · obtain ⟨q, hq, rfl⟩ := List.mem_map.1 hback
    exact ⟨isFileName_packageFileName (hslash q (by simp [hq])),
      fun hname => hlast q hq (packageFileName_eq_iff.1 hname)⟩
  · split_ifs at hsupport
    · rw [List.mem_singleton.1 hsupport]
      exact ⟨isFileName_support, packageFileName_ne_support p.package⟩
    · cases hsupport

/-! ### The files of a run -/

/-- **The files of a run that succeeds.** The names of the package files are different exactly if
validators of different packages have different stems. Packages without slashes have their files in
the output directory; each of these files holds the source of the last package of its name. So if
the names are different, every validator is in the file of its package, and if not, the validators
of a package are lost when a later one has the same stem. -/
theorem generate_files {o : GenerateOptions} {outcome : Outcome}
    (hdirectory : o.directory = some directory)
    (hrun : runGenerate FileTree.fileSystem o schedule tree = (outcome, after))
    (hcode : outcome.code = 0) :
    ∃ manifest output,
      (load FileTree.fileSystem o.inputs tree).1 = .ok manifest ∧
        compileManifest o manifest schedule = .ok output ∧
        ((output.packages.map fun p => packageFileName p.package).Nodup ↔
          ∀ v ∈ output.validators, ∀ w ∈ output.validators,
            fileStem v.package = fileStem w.package → v.package = w.package) ∧
        ((∀ v ∈ output.validators, '/' ∉ v.package.toList ∧
            ¬ after.Swallows (joinName directory (packageFileName v.package))) →
          (∀ front p back, output.packages = front ++ p :: back →
            (∀ q ∈ back, fileStem p.package ≠ fileStem q.package) →
            after.read (joinName directory (packageFileName p.package)) = .ok p.source) ∧
          ((output.packages.map fun p => packageFileName p.package).Nodup →
            ∀ v ∈ output.validators, ∃ before behind,
              after.read (joinName directory (packageFileName v.package)) =
                .ok (before ++ v.source ++ behind))) := by
  obtain ⟨manifest, output, made, hload, hcompile, hfiles⟩ :=
    runGenerate_eq_ok hdirectory hrun hcode
  have hpackages : output.packages = packageOutputs output.validators :=
    packages_of_compile hcompile
  have hlast : (∀ v ∈ output.validators, '/' ∉ v.package.toList ∧
        ¬ after.Swallows (joinName directory (packageFileName v.package))) →
      ∀ front p back, output.packages = front ++ p :: back →
        (∀ q ∈ back, fileStem p.package ≠ fileStem q.package) →
        after.read (joinName directory (packageFileName p.package)) = .ok p.source := by
    intro hplain front p back hsplit hback
    have hplain' : ∀ q ∈ output.packages, '/' ∉ q.package.toList ∧
        ¬ after.Swallows (joinName directory (packageFileName q.package)) := by
      intro q hq
      rw [hpackages] at hq
      obtain ⟨⟨v, hv, hvq⟩, -⟩ := mem_packageOutputs_iff.1 hq
      exact hvq ▸ hplain v hv
    have hp : p ∈ output.packages := by simp [hsplit]
    exact (holds_packageSource hsplit (fun q hq => (hplain' q hq).1) hback hfiles).read_eq
      (hplain' p hp).2
  refine ⟨manifest, output, hload, hcompile, ?_, fun hplain => ⟨hlast hplain, ?_⟩⟩
  · rw [hpackages]
    exact nodup_packageFileNames_iff
  · intro hnodup v hv
    have hp : (⟨v.package, packageSource v.package output.validators⟩ : PackageOutput) ∈
        output.packages := by
      rw [hpackages]
      exact mem_packageOutputs_iff.2 ⟨⟨v, hv, rfl⟩, rfl⟩
    obtain ⟨front, back, hsplit⟩ := List.append_of_mem hp
    rw [hsplit, List.map_append, List.map_cons, List.nodup_middle, List.nodup_cons] at hnodup
    have hread := hlast hplain front _ back hsplit fun q hq hstem => hnodup.1 <| by
      rw [packageFileName_eq_iff.2 hstem]
      exact List.mem_append_right _ (List.mem_map_of_mem hq)
    obtain ⟨before, behind, hsource⟩ := exists_packageSource_eq hv
    exact ⟨before, behind, hsource ▸ hread⟩

/-- A manifest with two packages whose files have different names. -/
def shopManifest : String :=
  "[\x7b\"name\":\"Order\",\"package\":\"shop\",\"fields\":" ++
      "[\x7b\"name\":\"id\",\"type\":\"u8\",\"tag\":\"gt=0\"\x7d]\x7d," ++
    "\x7b\"name\":\"Item\",\"package\":\"shop::cart\",\"fields\":" ++
      "[\x7b\"name\":\"id\",\"type\":\"u8\",\"tag\":\"gt=0\"\x7d]\x7d]"

/-- A system with that manifest. -/
def shopTree : FileTree :=
  .ofEntries [("shop.json", .text shopManifest)]

/-- The arguments of a run over that manifest. -/
def shopOptions : GenerateOptions :=
  ⟨["shop.json"], some "out", none, false⟩

/-- Both validators of a run are on the disk. -/
theorem shop_validators_kept :
    ∃ after manifest output,
      runGenerate FileTree.fileSystem shopOptions .inOrder shopTree =
          (⟨0, "", "wrote 2 validators in 2 files\n"⟩, after) ∧
        (load FileTree.fileSystem shopOptions.inputs shopTree).1 = .ok manifest ∧
        compileManifest shopOptions manifest .inOrder = .ok output ∧
        ∀ v ∈ output.validators, ∃ before behind,
          after.read (joinName "out" (packageFileName v.package)) =
            .ok (before ++ v.source ++ behind) := by
  have heval : (runGenerate FileTree.fileSystem shopOptions .inOrder shopTree).1 =
        ⟨0, "", "wrote 2 validators in 2 files\n"⟩ ∧
      (∀ package ∈ ["shop", "shop::cart"],
        (runGenerate FileTree.fileSystem shopOptions .inOrder shopTree).2.read
          (joinName "out" (packageFileName package)) ≠ .ok "") ∧
      ((load FileTree.fileSystem shopOptions.inputs shopTree).1.toOption.bind
        fun manifest => (compileManifest shopOptions manifest .inOrder).toOption.map fun output =>
          output.validators.map (·.package)) = some ["shop", "shop::cart"] := by
    decide +kernel
  obtain ⟨houtcome, hkept, hpackages⟩ := heval
  cases hrun : runGenerate FileTree.fileSystem shopOptions .inOrder shopTree with
  | mk outcome after =>
    rw [hrun] at houtcome hkept
    cases houtcome
    obtain ⟨manifest, output, hload, hcompile, hiff, hdisk⟩ := generate_files rfl hrun rfl
    refine ⟨after, manifest, output, rfl, hload, hcompile, ?_⟩
    have hshop : output.validators.map (·.package) = ["shop", "shop::cart"] := by
      rw [hload] at hpackages
      simpa [Except.toOption, hcompile] using hpackages
    have hmem : ∀ v ∈ output.validators, v.package ∈ ["shop", "shop::cart"] := fun v hv =>
      hshop ▸ List.mem_map_of_mem hv
    refine (hdisk fun v hv => ⟨?_, fun hswallows => ?_⟩).2 (hiff.2 fun v hv w hw => ?_)
    · exact (by decide : ∀ package ∈ ["shop", "shop::cart"], '/' ∉ package.toList) _ (hmem v hv)
    · exact hkept _ (hmem v hv) hswallows.read_eq
    · exact (by decide : ∀ p ∈ ["shop", "shop::cart"], ∀ q ∈ ["shop", "shop::cart"],
        fileStem p = fileStem q → p = q) _ (hmem v hv) _ (hmem w hw)

/-- A manifest with two spellings of one package. -/
def clashManifest : String :=
  "[\x7b\"name\":\"Q\",\"package\":\"m\",\"fields\":" ++
      "[\x7b\"name\":\"k\",\"type\":\"u8\",\"tag\":\"gt=0\"\x7d]\x7d," ++
    "\x7b\"name\":\"R\",\"package\":\"crate::m\",\"fields\":" ++
      "[\x7b\"name\":\"k\",\"type\":\"[u8; 3]\",\"tag\":\"required\"\x7d]\x7d]"

/-- A system with that manifest. -/
def clashTree : FileTree :=
  .ofEntries [("a.json", .text clashManifest)]

/-- The arguments of a run over that manifest. -/
def clashOptions : GenerateOptions :=
  ⟨["a.json"], some "out", none, false⟩

/-- A text is not a part of a shorter one. -/
theorem ne_append_of_utf8ByteSize_lt {s t : String} (h : t.utf8ByteSize < s.utf8ByteSize)
    (before behind : String) : t ≠ before ++ s ++ behind := by
  rintro rfl
  rw [String.utf8ByteSize_append, String.utf8ByteSize_append] at h
  omega

/-- A run that succeeds and says that it has written two files, while one of the two validators is
in no file: it is longer than each of them. -/
theorem clash_loses_validator :
    ∃ after manifest output,
      runGenerate FileTree.fileSystem clashOptions .inOrder clashTree =
          (⟨0, "", "wrote 2 validators in 2 files\n"⟩, after) ∧
        (load FileTree.fileSystem clashOptions.inputs clashTree).1 = .ok manifest ∧
        compileManifest clashOptions manifest .inOrder = .ok output ∧
        ¬ (output.packages.map fun p => packageFileName p.package).Nodup ∧
        ∃ v ∈ output.validators, ∀ file ∈ after.workingNode.texts,
          ¬ ∃ before behind, file.2 = before ++ v.source ++ behind := by
  have heval : (runGenerate FileTree.fileSystem clashOptions .inOrder clashTree).1 =
        ⟨0, "", "wrote 2 validators in 2 files\n"⟩ ∧
      ((load FileTree.fileSystem clashOptions.inputs clashTree).1.toOption.any fun manifest =>
        (compileManifest clashOptions manifest .inOrder).toOption.any fun output =>
          ¬ (output.packages.map fun p => packageFileName p.package).Nodup ∧
            ∃ v ∈ output.validators, ∀ file ∈
              (runGenerate FileTree.fileSystem clashOptions .inOrder clashTree).2.workingNode.texts,
              file.2.utf8ByteSize < v.source.utf8ByteSize) = true := by
    decide +kernel
  obtain ⟨houtcome, hlost⟩ := heval
  cases hrun : runGenerate FileTree.fileSystem clashOptions .inOrder clashTree with
  | mk outcome after =>
    rw [hrun] at houtcome hlost
    cases houtcome
    cases hload : (load FileTree.fileSystem clashOptions.inputs clashTree).1 with
    | error e =>
      rw [hload] at hlost
      cases hlost
    | ok manifest =>
      rw [hload] at hlost
      cases hcompile : compileManifest clashOptions manifest .inOrder with
      | error e => simp [Except.toOption, hcompile] at hlost
      | ok output =>
        simp only [Except.toOption, hcompile, Option.any_some, decide_eq_true_eq] at hlost
        obtain ⟨hnames, v, hv, hfiles⟩ := hlost
        refine ⟨after, manifest, output, rfl, rfl, hcompile, hnames, v, hv, ?_⟩
        rintro file hfile ⟨before, behind, htext⟩
        exact ne_append_of_utf8ByteSize_lt (hfiles file hfile) before behind htext

end FieldRules.CommandLine

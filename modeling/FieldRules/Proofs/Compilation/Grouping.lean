import FieldRules.Proofs.Compilation.Names
import FieldRules.Proofs.Compilation.Packages

/-!
# Grouping by packages

The packages of an output are found in one pass over the validators, and the members of each package
in a pass of its own. That the two fit each other is `packages_grouped`: the packages stand in the
order in which they first occur, each once, the file of a package is written from its members in the
order of their declarations, and the members of all packages together are the validators, each of
them in one place.
-/

namespace FieldRules

/-! ### What a grouping should be -/

/-- The different texts of a list, each once, in the order in which they first occur. -/
structure FirstOccurrences (texts distinct : List String) : Prop where
  nodup : distinct.Nodup
  mem_iff : ∀ text, text ∈ distinct ↔ text ∈ texts
  order : distinct.Pairwise fun s t => texts.idxOf s < texts.idxOf t

/-- The validators of a package. -/
def Output.members (output : Output) (package : String) : List GeneratedValidator :=
  output.validators.filter (·.package = package)

/-- The file of a package with the given members. -/
inductive FileOf (package : String) : List GeneratedValidator → String → Prop where
  /-- The header of the root package has no name to give. -/
  | root : package = "" → FileOf package [] "// Code generated by valtag. DO NOT EDIT.\n"
  /-- The header of any other package names it. -/
  | named : package ≠ "" → FileOf package []
      ("// Code generated by valtag. DO NOT EDIT.\n// package: " ++ package ++ "\n")
  /-- Another member comes behind a line break. -/
  | member {front : List GeneratedValidator} {v : GeneratedValidator} {text : String} :
      FileOf package front text → FileOf package (front ++ [v]) (text ++ "\n" ++ v.source)

/-! ### First occurrences -/

/-- Without its repetitions, a list keeps the order of the first occurrences: what is added at the
end is new, and then it occurs later than everything else, or it is left out. -/
theorem pairwise_idxOf_eraseDups (l : List String) :
    l.eraseDups.Pairwise fun s t => l.idxOf s < l.idxOf t := by
  induction l using List.reverseRecOn with
  | nil => exact List.Pairwise.nil
  | append_singleton l x ih =>
    have hkept : l.eraseDups.Pairwise fun s t => (l ++ [x]).idxOf s < (l ++ [x]).idxOf t := by
      refine ih.imp_of_mem fun {s t} hs ht hlt => ?_
      rwa [List.idxOf_append_of_mem (List.mem_eraseDups.1 hs),
        List.idxOf_append_of_mem (List.mem_eraseDups.1 ht)]
    rw [List.eraseDups_append]
    by_cases hx : x ∈ l
    · simpa [List.removeAll, hx] using hkept
    · have hnew : [x].removeAll l = [x] := by simp [List.removeAll, hx]
      rw [hnew, List.eraseDups_cons, List.filter_nil, List.eraseDups_nil, List.pairwise_append]
      refine ⟨hkept, List.pairwise_singleton _ x, fun s hs t ht => ?_⟩
      rw [List.mem_singleton.1 ht, List.idxOf_append_of_mem (List.mem_eraseDups.1 hs),
        List.idxOf_append_of_notMem hx]
      exact Nat.lt_of_lt_of_le (List.idxOf_lt_length_of_mem (List.mem_eraseDups.1 hs))
        (Nat.le_add_right _ _)

variable {validators : List GeneratedValidator}

theorem firstOccurrences_packageOutputs :
    FirstOccurrences (validators.map (·.package))
      ((packageOutputs validators).map (·.package)) where
  nodup := nodup_packages
  mem_iff text := by rw [map_package_packageOutputs, List.mem_eraseDups]
  order := by
    rw [map_package_packageOutputs]
    exact pairwise_idxOf_eraseDups _

/-! ### Members -/

/-- Texts that are grouped by different keys are those with one of these keys. -/
theorem flatMap_filter_perm {α : Type} (key : α → String) {keys : List String} (h : keys.Nodup)
    (xs : List α) :
    (keys.flatMap fun k => xs.filter (key · = k)).Perm (xs.filter (key · ∈ keys)) := by
  induction keys with
  | nil => simp
  | cons k keys ih =>
    obtain ⟨hk, hkeys⟩ := List.nodup_cons.1 h
    rw [List.flatMap_cons]
    refine ((ih hkeys).append_left _).trans ?_
    have hfirst : (xs.filter (key · ∈ k :: keys)).filter (key · = k) = xs.filter (key · = k) := by
      rw [List.filter_filter]
      refine List.filter_congr fun x _ => ?_
      by_cases hx : key x = k <;> simp [hx]
    have hrest : (xs.filter (key · ∈ k :: keys)).filter (fun x => !decide (key x = k)) =
        xs.filter (key · ∈ keys) := by
      rw [List.filter_filter]
      refine List.filter_congr fun x _ => ?_
      by_cases hx : key x = k
      · simp [hx, hk]
      · simp [hx]
    have hsplit := List.filter_append_perm (fun x => decide (key x = k))
      (xs.filter (key · ∈ k :: keys))
    rwa [hfirst, hrest] at hsplit

/-- The file of a package is written from its members, one after the other. -/
theorem fileOf_packageSource (package : String) (validators : List GeneratedValidator) :
    FileOf package (validators.filter (·.package = package))
      (packageSource package validators) := by
  have hmembers : ∀ members : List GeneratedValidator, FileOf package members
      (packageHeader package ++ String.join (members.map fun v => "\n" ++ v.source)) := by
    intro members
    induction members using List.reverseRecOn with
    | nil =>
      by_cases hroot : package = ""
      · simpa [packageHeader, generatedNotice, hroot] using FileOf.root hroot
      · simpa [packageHeader, generatedNotice, hroot, ← String.append_assoc]
          using FileOf.named hroot
    | append_singleton front v ih =>
      rw [List.map_append, String.join_append, List.map_singleton, ← String.append_assoc]
      simpa [String.append_assoc] using ih.member
  unfold packageSource
  simpa [Bool.beq_eq_decide_eq] using hmembers (validators.filter (·.package = package))

/-! ### The packages of an output -/

variable {types analyzed : List Declaration} {options : Options} {schedule : Schedule}
  {output : Output}

/-- The members of a package stand for its declarations with validations, in their order. -/
theorem generate_members
    (h : generateAll options (Scope.of analyzed) schedule = .ok validators) (package : String) :
    List.Forall₂ (fun d v => generate options (Scope.of analyzed) d = .ok v)
      (analyzed.filter fun d => d.hasValidations ∧ d.package = package)
      (validators.filter (·.package = package)) := by
  have hfilter : (analyzed.filter fun d => d.hasValidations ∧ d.package = package) =
      (analyzed.filter (·.hasValidations)).filter (·.package = package) := by
    rw [List.filter_filter]
    exact List.filter_congr fun d _ => by simp [Bool.and_comm]
  rw [hfilter]
  refine List.rel_filter (fun d v hv => ?_) (generateAll_eq_ok_iff.1 h)
  obtain ⟨-, hpackage, -⟩ := names_of_generate hv
  simp [hpackage]

/-- **Grouping loses and repeats nothing.** The packages of an output are those of its validators,
each once and in the order in which they first occur. The file of a package has the header of the
package and then the source of each member, and the members are the validators of the declarations
of the package, in their order. All members together are the validators of the output, and each of
these is a member of one package, once. (Validators of different packages are different, also where
types of the same name and fields make their sources equal.) -/
theorem packages_grouped (h : compile types options schedule = .ok output) :
    ∃ analyzed, analyze types = .ok analyzed ∧
      FirstOccurrences (output.validators.map (·.package)) (output.packages.map (·.package)) ∧
      (∀ p ∈ output.packages, FileOf p.package (output.members p.package) p.source ∧
        List.Forall₂ (fun d v => generate options (Scope.of analyzed) d = .ok v)
          (analyzed.filter fun d => d.hasValidations ∧ d.package = p.package)
          (output.members p.package)) ∧
      (output.packages.flatMap fun p => output.members p.package).Perm output.validators ∧
      ∀ v ∈ output.validators, ∃ p ∈ output.packages, (output.members p.package).count v = 1 ∧
        ∀ q ∈ output.packages, v ∈ output.members q.package → q = p := by
  obtain ⟨analyzed, validators, hanalyzed, hvalidators, rfl⟩ := compile_eq_ok_iff.1 h
  have hnodup : validators.Nodup := (nodup_keys_of_generateAll hanalyzed hvalidators).of_map
  have hkeys : ((packageOutputs validators).map (·.package)).Nodup := nodup_packages
  refine ⟨analyzed, hanalyzed, firstOccurrences_packageOutputs, fun p hp => ⟨?_, ?_⟩, ?_, ?_⟩
  · rw [(mem_packageOutputs_iff.1 hp).2]
    exact fileOf_packageSource p.package validators
  · exact generate_members hvalidators p.package
  · have hperm := flatMap_filter_perm (·.package) hkeys validators
    have hall : validators.filter (·.package ∈ (packageOutputs validators).map (·.package)) =
        validators := by
      refine List.filter_eq_self.2 fun v hv => ?_
      rw [map_package_packageOutputs, decide_eq_true_iff, List.mem_eraseDups]
      exact List.mem_map_of_mem hv
    rwa [hall, List.flatMap_map] at hperm
  · intro v hv
    refine ⟨⟨v.package, packageSource v.package validators⟩,
      mem_packageOutputs_iff.2 ⟨⟨v, hv, rfl⟩, rfl⟩, ?_, fun q hq hmember => ?_⟩
    · have hmember : v ∈ validators.filter (·.package = v.package) :=
        List.mem_filter.2 ⟨hv, by simp⟩
      exact List.count_eq_one_of_mem (hnodup.filter _) hmember
    · obtain ⟨q, source⟩ := q
      have hpackage : v.package = q := by simpa using (List.mem_filter.1 hmember).2
      rw [PackageOutput.mk.injEq, hpackage]
      exact ⟨rfl, (mem_packageOutputs_iff.1 hq).2⟩

/-- Three packages, one of them at the root, whose declarations are interleaved. The same type is
declared in two of them. -/
def interleavedDeclarations : List Declaration :=
  [⟨"User", "shop", none, [⟨"age", "u8", "gte=18", []⟩], false⟩,
    ⟨"Note", "depot", none, [⟨"text", "String", "", []⟩], false⟩,
    ⟨"Root", "", none, [⟨"id", "u64", "required", []⟩], false⟩,
    ⟨"User", "depot", none, [⟨"age", "u8", "gte=18", []⟩], false⟩,
    ⟨"Order", "shop", none, [⟨"user", "User", "required", []⟩], false⟩]

/-- The first package gets its two validators, in their order. -/
theorem interleaved_packages_grouped :
    ∃ output, compile interleavedDeclarations {} = .ok output ∧
      output.packages.map (·.package) = ["shop", "", "depot"] ∧
      (output.members "shop").map (·.functionName) = ["validate_user", "validate_order"] ∧
      (output.packages.flatMap fun p => output.members p.package).Perm output.validators ∧
      ∀ p ∈ output.packages, FileOf p.package (output.members p.package) p.source := by
  have heval : ((compile interleavedDeclarations {}).toOption.any fun output =>
      output.packages.map (·.package) = ["shop", "", "depot"] ∧
        (output.members "shop").map (·.functionName) = ["validate_user", "validate_order"]) =
      true := by
    decide +kernel
  obtain ⟨output, hcompile, heval⟩ := exists_eq_ok_of_any heval
  obtain ⟨hpackages, hmembers⟩ := of_decide_eq_true heval
  obtain ⟨_, -, -, hfiles, hperm, -⟩ := packages_grouped hcompile
  exact ⟨output, hcompile, hpackages, hmembers, hperm, fun p hp => (hfiles p hp).1⟩

end FieldRules

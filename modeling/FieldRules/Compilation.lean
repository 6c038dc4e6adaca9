import FieldRules.Analysis
import FieldRules.Schedule
import FieldRules.Validator.File

/-!
# Compilation

From declarations to the source of their validators: the analysis attaches the rules, every
declaration with rules gets a validator, and the validators are grouped into one file for each
package. Nothing is produced unless all declarations compile. The validators are written in
parallel, so that of several declarations without a validator any may be the one that is reported.
-/

namespace FieldRules

/-- What a manifest can choose about the generated source. -/
structure Options where
  /-- The path of the support module. -/
  supportPath : String := "crate::validation"
  deriving DecidableEq, Repr

/-- The path of the support module as the source writes it, without colons at its end. -/
def Options.support (options : Options) : String :=
  String.ofList (Text.dropTrailingColons options.supportPath.toList)

/-- The file of a package. -/
structure PackageOutput where
  /-- The package. -/
  package : String
  /-- The source of the file. -/
  source : String
  deriving DecidableEq, Repr

/-- What a compilation produces. -/
structure Output where
  /-- The validators, in declaration order. -/
  validators : List GeneratedValidator
  /-- One file for each package with a validator, in the order of their first validators. -/
  packages : List PackageOutput
  /-- The support file. -/
  support : String
  deriving DecidableEq, Repr

/-- The validator of an analysed declaration, written out. -/
def generate (options : Options) (scope : Scope) (d : Declaration) :
    Except Error GeneratedValidator :=
  (Validator.ofDeclaration scope d).map fun v =>
    ⟨d.name, d.package, v.functionName, v.source options.support⟩

/-- The validators of all analysed declarations that have rules, written in parallel. -/
def generateAll (options : Options) (scope : Scope) (schedule : Schedule) :
    Except Error (List GeneratedValidator) :=
  schedule.collect ((scope.types.filter (·.hasValidations)).map (generate options scope))

/-- The validators grouped into files. -/
def packageOutputs (validators : List GeneratedValidator) : List PackageOutput :=
  (validators.map (·.package)).eraseDups.map fun package =>
    ⟨package, packageSource package validators⟩

/-- The validators of some declarations, or a fault. They are written in order if no schedule is
given. -/
def compile (types : List Declaration) (options : Options) (schedule : Schedule := .inOrder) :
    Except Error Output := do
  let analyzed ← analyze types
  let scope ← Scope.build analyzed
  let validators ← generateAll options scope schedule
  return ⟨validators, packageOutputs validators, supportSource⟩

end FieldRules

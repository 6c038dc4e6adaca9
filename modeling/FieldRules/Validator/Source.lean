import FieldRules.Text.Path
import FieldRules.Text.Quoted
import FieldRules.Validator

/-!
# Source of validators

The text of expressions and of validator functions. A method call binds tighter than the operators,
so an operand in front of a call is put in parentheses unless it is a place, a literal or a call
itself; an operand of an operator is put in parentheses if it is an operator expression.

`support` is the path of the module where the generated code finds the type of validation errors and
the check of email addresses.
-/

namespace FieldRules

/-- Numbers in source are positional from `0.0001` up to `10 ^ 16`; of two equally near decimal
forms the larger is taken. -/
def sourceNumbers : DecimalStyle :=
  ⟨-4, 15, false, true⟩

/-- A constant in source. -/
def Literal.source : Literal → String
  | .text s => Text.quoted s
  | .int n => String.ofList (Numeral.integerText n)
  | .unsigned n => String.ofList (Numeral.digits n)
  | .float x => String.ofList (x.text sourceNumbers)
  | .bool true => "true"
  | .bool false => "false"
  | .size n => String.ofList (Numeral.digits n)

/-- A place in source. -/
def Place.source : Place → String
  | .field path => "obj." ++ ".".intercalate path
  | .bound => "*v"
  | .element => "*e"

/-- The type that a widening converts to. -/
def Widening.typeName : Widening → String
  | .integer => "i128"
  | .unsigned => "u128"
  | .float => "f64"

namespace Expr

/-- A text in parentheses. -/
def parenthesised (s : String) : String :=
  "(" ++ s ++ ")"

/-- The expression with source `s` in front of a method call. -/
def receiver (e : Expr) (s : String) : String :=
  match e with
  | .value .bound => "v"
  | .value .element => "e"
  | .value (.field _) | .len _ | .lower _ | .asStr _ | .literal _ | .const _ => s
  | _ => parenthesised s

/-- The expression with source `s` as an operand. -/
def operand (e : Expr) (s : String) : String :=
  match e with
  | .compare .. | .connect .. | .not _ => parenthesised s
  | _ => s

/-- The constants as a list in brackets. -/
def setSource (set : List Literal) : String :=
  "[" ++ ", ".intercalate (set.map Literal.source) ++ "]"

mutual

/-- The source of an expression. -/
def source (support : String) : Expr → String
  | .const true => "true"
  | .const false => "false"
  | .value place => place.source
  | .literal l => l.source
  | .len inner => receiver inner (source support inner) ++ ".len()"
  | .lower inner => receiver inner (source support inner) ++ ".to_lowercase()"
  | .asStr inner => receiver inner (source support inner) ++ ".as_str()"
  | .widen w inner => "(" ++ source support inner ++ " as " ++ w.typeName ++ ")"
  | .isEmail inner => support ++ "::is_valid_email(&" ++ source support inner ++ ")"
  | .compare c lhs rhs =>
    operand lhs (source support lhs) ++ " " ++ c.symbol ++ " " ++
      operand rhs (source support rhs)
  | .not inner => "!" ++ operand inner (source support inner)
  | .connect op terms => (" " ++ op.symbol ++ " ").intercalate (operandSources support terms)
  | .inSet item set => setSource set ++ ".contains(&" ++ source support item ++ ")"
  | .every collection keys body =>
    receiver collection (source support collection) ++
      (if keys then ".keys()" else ".iter()") ++ ".all(|e| " ++ source support body ++ ")"
  | .someAnd option body =>
    receiver option (source support option) ++
      if body.isTrue then ".is_some()"
      else ".as_ref().is_some_and(|v| " ++ source support body ++ ")"

/-- The sources of some operands. -/
def operandSources (support : String) : List Expr → List String
  | [] => []
  | e :: es => operand e (source support e) :: operandSources support es

end

end Expr

namespace Validator

/-- The lines with a line break after each. -/
def lines (ls : List String) : String :=
  String.join (ls.map (· ++ "\n"))

/-- The lint attribute of a validator function. -/
def lintAttribute : String :=
  "#[allow(clippy::bool_comparison, clippy::comparison_to_empty, clippy::len_zero, " ++
    "clippy::nonminimal_bool)]"

/-- The lines of a block. -/
def blockLines (support : String) : Block → List String
  | .check condition field message =>
    ["    if !(" ++ condition.source support ++ ") \x7b",
      "        errs.push(" ++ support ++ "::ValidationError::new(" ++ Text.quoted field ++ ", " ++
        Text.quoted message ++ "));",
      "    \x7d"]
  | .delegate field call false =>
    ["    errs.extend(" ++ call ++ "(&obj." ++ field ++ "));"]
  | .delegate field call true =>
    ["    if let Some(v) = &obj." ++ field ++ " \x7b",
      "        errs.extend(" ++ call ++ "(v));",
      "    \x7d"]

/-- The source of a validator function. -/
def source (support : String) (v : Validator) : String :=
  lines <|
    ["/// Checks the field annotations of `" ++ v.typeName ++ "`.",
      lintAttribute,
      "pub fn " ++ v.functionName ++ "(obj: &" ++ v.typeName ++ ") -> Vec<" ++ support ++
        "::ValidationError> \x7b",
      if v.blocks.isEmpty then "    let errs = Vec::new();" else "    let mut errs = Vec::new();"]
    ++ v.blocks.flatMap (blockLines support) ++
    ["    errs",
      "\x7d"]

end Validator

end FieldRules

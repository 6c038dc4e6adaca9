import FieldRules.Operation

/-!
# Errors of tags

What can be wrong with the text of a tag or of one of its entries.
-/

namespace FieldRules

/-- A fault in the text of a tag. -/
inductive TagError where
  /-- The entry has more than one equals sign. -/
  | malformed (entry : String)
  /-- No operation has this name. -/
  | unsupported (name : String)
  /-- The operation takes no target and has one. -/
  | expectedZeroTarget (op : Operation) (found : String)
  /-- The operation takes one target and has none. -/
  | expectedOneTarget (op : Operation)
  /-- The operation takes targets and has none. -/
  | expectedManyTargets (op : Operation)
  /-- Text stands outside the apostrophes of a quoted list. -/
  | invalidQuote (op : Operation) (value : String)
  /-- The last apostrophe of a quoted list opens a target that does not end. -/
  | unterminatedQuote (op : Operation) (value : String)
  /-- A quote is still open at the end of the tag. -/
  | unbalancedQuote (tag : String)
  deriving DecidableEq, Repr

/-- The wording of a fault. -/
def TagError.message : TagError → String
  | .malformed entry => "malformed validation `" ++ entry ++ "`: more than one `=`"
  | .unsupported name => "unsupported validation `" ++ name ++ "`"
  | .expectedZeroTarget op found =>
    op.name ++ ": expected zero target, but has `" ++ found ++ "`"
  | .expectedOneTarget op => op.name ++ ": expected one target, but has nothing"
  | .expectedManyTargets op =>
    op.name ++ ": expected at least one target, but has 0 element(s)"
  | .invalidQuote op value => op.name ++ ": invalid quote value in `" ++ value ++ "`"
  | .unterminatedQuote op value => op.name ++ ": unterminated quote in `" ++ value ++ "`"
  | .unbalancedQuote tag => "unbalanced quote in annotation `" ++ tag ++ "`"

end FieldRules

import FieldRules.Validator.Source

/-!
# Generated files

A package file holds the validators of one package under a header that names the package; the root
package has no name to give. The support file holds what all validators call: the type of validation
errors and the check of email addresses.
-/

namespace FieldRules

/-- The first line of every generated file. -/
def generatedNotice : String :=
  "// Code generated by valtag. DO NOT EDIT."

/-- A validator that has been written. -/
structure GeneratedValidator where
  /-- The name of the type. -/
  typeName : String
  /-- The package of the type. -/
  package : String
  /-- The name of the function. -/
  functionName : String
  /-- The source of the function. -/
  source : String
  deriving DecidableEq, Repr

/-- The head of a package file. -/
def packageHeader (package : String) : String :=
  generatedNotice ++ "\n" ++
    if package = "" then "" else "// package: " ++ package ++ "\n"

/-- The file of a package: its header, and each of its validators after an empty line. -/
def packageSource (package : String) (validators : List GeneratedValidator) : String :=
  packageHeader package ++
    String.join ((validators.filter (·.package == package)).map fun v => "\n" ++ v.source)

/-- The support file. -/
def supportSource : String :=
  Validator.lines [
    generatedNotice,
    "",
    "/// A single failed check reported by a generated validator.",
    "#[derive(Debug, Clone, PartialEq, Eq)]",
    "pub struct ValidationError \x7b",
    "    pub field: String,",
    "    pub message: String,",
    "\x7d",
    "",
    "impl ValidationError \x7b",
    "    pub fn new(field: impl Into<String>, message: impl Into<String>) -> Self \x7b",
    "        Self \x7b field: field.into(), message: message.into() \x7d",
    "    \x7d",
    "\x7d",
    "",
    "impl std::fmt::Display for ValidationError \x7b",
    "    fn fmt(&self, f: &mut std::fmt::Formatter<'_>) -> std::fmt::Result \x7b",
    "        f.write_str(&self.message)",
    "    \x7d",
    "\x7d",
    "",
    "impl std::error::Error for ValidationError \x7b\x7d",
    "",
    "/// `local@domain.tld` with a conservative character set on both sides.",
    "pub fn is_valid_email(value: &str) -> bool \x7b",
    "    let Some((local, domain)) = value.rsplit_once('@') else \x7b",
    "        return false;",
    "    \x7d;",
    "    if local.is_empty() || local.len() > 64 || domain.len() > 255 \x7b",
    "        return false;",
    "    \x7d",
    "    if local.starts_with('.') || local.ends_with('.') || local.contains(\"..\") \x7b",
    "        return false;",
    "    \x7d",
    "    let local_ok = local",
    "        .chars()",
    "        .all(|c| c.is_ascii_alphanumeric() || \"!#$%&'*+/=?^_`\x7b|\x7d~.-\".contains(c));",
    "    if !local_ok \x7b",
    "        return false;",
    "    \x7d",
    "    let labels: Vec<&str> = domain.split('.').collect();",
    "    if labels.len() < 2 \x7b",
    "        return false;",
    "    \x7d",
    "    let labels_ok = labels.iter().all(|label| \x7b",
    "        !label.is_empty()",
    "            && label.len() <= 63",
    "            && !label.starts_with('-')",
    "            && !label.ends_with('-')",
    "            && label.chars().all(|c| c.is_ascii_alphanumeric() || c == '-')",
    "    \x7d);",
    "    let tld = labels[labels.len() - 1];",
    "    labels_ok && tld.len() >= 2 && tld.chars().all(|c| c.is_ascii_alphabetic())",
    "\x7d"
  ]

end FieldRules

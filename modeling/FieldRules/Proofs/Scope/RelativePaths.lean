import FieldRules.Proofs.Scope.Packages

/-!
# Relative paths

How references that are written in different places, or with different words in front, agree with
each other (`relative_paths_compose`). Nothing depends on which declarations there are: the references
are looked up under the same keys in the same order.
-/

namespace FieldRules

namespace TypeIndex

variable {package path : List (List Char)} {name s : List Char} {here below : String}

/-- A path of segments means what it means from `self`, or else what it means from `crate`. -/
theorem resolve_segments (index : TypeIndex) (here : String) (hne : path ≠ [])
    (hpath : ∀ s ∈ path, IsSegment s) (hname : IsIdentifier name) :
    index.resolve here (pathText (path ++ [name])) =
      (index.resolve here (pathText ("self".toList :: path ++ [name]))).or
        (index.resolve here (pathText ("crate".toList :: path ++ [name]))) := by
  have hall : ∀ s ∈ path, IsIdentifier s := fun s hs => (hpath s hs).1
  rw [resolve_path index here hne hall hname,
    resolve_path index here (List.cons_ne_nil _ _) (forall_mem_cons_word hall (by decide +kernel))
      hname,
    resolve_path index here (List.cons_ne_nil _ _) (forall_mem_cons_word hall (by decide +kernel))
      hname,
    candidatePackages_segments hne hpath, candidatePackages_self hall, candidatePackages_crate hall,
    foldl_walk_of_segments hpath, List.findSome?_singleton, List.findSome?_singleton,
    List.findSome?_cons, List.findSome?_singleton]
  split
  · rename_i h
    rw [h, Option.some_or]
  · rename_i h
    rw [h, Option.none_or]

/-- From `super` in a package below, a path means what it means from `self`. -/
theorem resolve_super (index : TypeIndex) (hhere : SpellsPackage package here)
    (hbelow : SpellsPackage (package ++ [s]) below) (hpath : ∀ t ∈ path, IsIdentifier t)
    (hname : IsIdentifier name) :
    index.resolve below (pathText ("super".toList :: path ++ [name])) =
      index.resolve here (pathText ("self".toList :: path ++ [name])) := by
  have hup : (Text.pathSegments (packageKey below).toList).dropLast = package := by
    rw [hbelow.pathSegments_packageKey, if_neg (by simp), List.dropLast_concat]
  rw [resolve_path index below (List.cons_ne_nil _ _)
      (forall_mem_cons_word hpath (by decide +kernel)) hname,
    resolve_path index here (List.cons_ne_nil _ _)
      (forall_mem_cons_word hpath (by decide +kernel)) hname,
    candidatePackages_super hpath, candidatePackages_self hpath, hup, joinSegments_walk hhere]

/-- A name means what it means from `self`. -/
theorem resolve_self (index : TypeIndex) (hhere : SpellsPackage package here)
    (hname : IsIdentifier name) :
    index.resolve here (pathText [name]) =
      index.resolve here (pathText ["self".toList, name]) := by
  have hpath : ∀ t ∈ ([] : List (List Char)), IsIdentifier t := List.forall_mem_nil _
  have hself := resolve_path index here (List.cons_ne_nil "self".toList [])
    (forall_mem_cons_word hpath (by decide +kernel)) hname
  rw [candidatePackages_self hpath, List.findSome?_singleton, joinSegments_walk hhere,
    List.foldl_nil, joinSegments_of_identifiers hhere.isIdentifier] at hself
  rw [pathText, Text.joinPath_singleton, resolve_name index here hname, hhere.packageKey_eq]
  exact hself.symm

end TypeIndex

/-- **Relative paths compose.** Whatever the index, and in every package: a path of segments is tried
from `self`, and then from `crate`; a path from `super` in a package below means what it means from
`self` here; and so does a name that stands alone. None of this depends on whether the package is
written with `crate` in front. -/
theorem relative_paths_compose (index : TypeIndex) {package : List (List Char)} {here : String}
    (hhere : SpellsPackage package here) :
    (∀ path name, path ≠ [] → (∀ s ∈ path, IsSegment s) → IsIdentifier name →
      index.resolve here (pathText (path ++ [name])) =
        (index.resolve here (pathText ("self".toList :: path ++ [name]))).or
          (index.resolve here (pathText ("crate".toList :: path ++ [name])))) ∧
    (∀ s below path, SpellsPackage (package ++ [s]) below → path ≠ [] →
      (∀ t ∈ path, IsIdentifier t) →
      index.resolve below (pathText ("super".toList :: path)) =
        index.resolve here (pathText ("self".toList :: path))) ∧
    (∀ name, IsIdentifier name → index.resolve here (pathText [name]) =
      index.resolve here (pathText ["self".toList, name])) ∧
    ∀ there, SpellsPackage package there → ∀ reference,
      index.resolve there reference = index.resolve here reference := by
  refine ⟨fun path name => TypeIndex.resolve_segments index here, ?_,
    fun name => TypeIndex.resolve_self index hhere,
    fun there hthere => TypeIndex.resolve_congr index hhere hthere⟩
  intro s below path hbelow hne hpath
  obtain ⟨front, name, rfl⟩ := (List.eq_nil_or_concat' path).resolve_left hne
  obtain ⟨hfront, hname⟩ := List.forall_mem_append.1 hpath
  exact TypeIndex.resolve_super index hhere hbelow hfront (hname name List.mem_cons_self)

/-- Two packages with declarations, one of them below the other, and a third of the same name as the
lower one. -/
def shopIndex : TypeIndex :=
  ⟨[("shop", "Cart"), ("shop::orders", "Line"), ("orders", "Line")]⟩

/-- References from the upper package and from the lower one. -/
theorem shop_paths_compose :
    shopIndex.resolve "crate::shop" "orders::Line" = some 1 ∧
    shopIndex.resolve "crate::shop" "orders::Line" =
      (shopIndex.resolve "crate::shop" "self::orders::Line").or
        (shopIndex.resolve "crate::shop" "crate::orders::Line") ∧
    shopIndex.resolve "shop::orders" "super::super::orders::Line" = some 2 ∧
    shopIndex.resolve "shop::orders" "super::super::orders::Line" =
      shopIndex.resolve "crate::shop" "self::super::orders::Line" ∧
    shopIndex.resolve "crate::shop" "Cart" = shopIndex.resolve "crate::shop" "self::Cart" ∧
    shopIndex.resolve "shop" "Cart" = shopIndex.resolve "crate::shop" "Cart" := by
  have hshop : SpellsPackage ["shop".toList] "crate::shop" :=
    ⟨by decide +kernel, .inr (by decide +kernel)⟩
  have hplain : SpellsPackage ["shop".toList] "shop" :=
    ⟨by decide +kernel, .inl (by decide +kernel)⟩
  have horders : SpellsPackage (["shop".toList] ++ ["orders".toList]) "shop::orders" :=
    ⟨by decide +kernel, .inl (by decide +kernel)⟩
  obtain ⟨hsegments, hsuper, hself, hspelled⟩ := relative_paths_compose shopIndex hshop
  refine ⟨by decide +kernel, ?_, by decide +kernel, ?_, ?_, hspelled "shop" hplain "Cart"⟩
  · exact hsegments ["orders".toList] "Line".toList (List.cons_ne_nil _ _) (by decide +kernel)
      (by decide +kernel)
  · exact hsuper "orders".toList "shop::orders" ["super".toList, "orders".toList, "Line".toList]
      horders (List.cons_ne_nil _ _) (by decide +kernel)
  · exact hself "Cart".toList (by decide +kernel)

end FieldRules

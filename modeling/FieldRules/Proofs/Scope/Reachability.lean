import FieldRules.Proofs.Scope.Packages

/-!
# Reachable declarations

Which packages a reference can mean is said here for itself, on segments (`ReferenceMeans`). Whatever
a reference is resolved to is declared under its last segment in one of these packages, and every
declaration is resolved from its path, wherever that is written, and from its name in its own package
(`declarations_reachable`). Keys are built by cutting `crate` off a package, and looked up by joining
segments; that the two agree is the content of `SpellsPackage.packageKey_eq` and `joinPath_inj`.
-/

namespace FieldRules

open Text

/-! ### What references mean -/

/-- A walk along the path leads from the first package to the second. Above the root is the root. -/
inductive Walks : List (List Char) → List (List Char) → List (List Char) → Prop where
  /-- At the end of the path. -/
  | stop {here : List (List Char)} : Walks here [] here
  /-- `self` is the package itself. -/
  | stay {here path package : List (List Char)} : Walks here path package →
      Walks here ("self".toList :: path) package
  /-- `super` is the package above. -/
  | up {here path package : List (List Char)} : Walks here.dropLast path package →
      Walks here ("super".toList :: path) package
  /-- Everything else is a package below. -/
  | down {here path package : List (List Char)} {s : List Char} : s ≠ "self".toList →
      s ≠ "super".toList → Walks (here ++ [s]) path package → Walks here (s :: path) package

/-- The packages that a path can mean in the package `here`. -/
inductive PathMeans (here : List (List Char)) : List (List Char) → List (List Char) → Prop where
  /-- From the root, behind `crate`. -/
  | root {path : List (List Char)} : PathMeans here ("crate".toList :: path) path
  /-- From the package, behind `self` or `super`. -/
  | walk {path package : List (List Char)} :
      path.head? = some "self".toList ∨ path.head? = some "super".toList →
      Walks here path package → PathMeans here path package
  /-- Any other path, below the package. -/
  | below {path : List (List Char)} : (∀ word ∈ pathWords, path.head? ≠ some word) →
      PathMeans here path (here ++ path)
  /-- Any other path, from the root. -/
  | absolute {path : List (List Char)} : (∀ word ∈ pathWords, path.head? ≠ some word) →
      PathMeans here path path

/-- The packages, and the name in them, that a reference can mean in the package `here`. -/
inductive ReferenceMeans (here : List (List Char)) :
    List Char → List (List Char) → List Char → Prop where
  /-- A name by itself is in the package. -/
  | name {name : List Char} : ¬ [':', ':'] <:+: name → ReferenceMeans here name here name
  /-- A name behind a path, of which blanks around a segment are no part. -/
  | path {front name : List Char} {package : List (List Char)} : ¬ [':', ':'] <:+: ':' :: name →
      PathMeans here ((pathSegments front).map trim) package →
      ReferenceMeans here (front ++ ':' :: ':' :: name) package name

/-- The segments of a package as it is written, without `crate`. Empty ones are among them. -/
def packageSegments (package : String) : List (List Char) :=
  pathSegments (packageKey package).toList

/-- Both texts spell one package. -/
def SamePackage (p q : String) : Prop :=
  ∃ segments, SpellsPackage segments p ∧ SpellsPackage segments q

variable {here path package : List (List Char)}

theorem walks_foldl (here path : List (List Char)) :
    Walks here path (path.foldl TypeIndex.walk here) := by
  induction path generalizing here with
  | nil => exact .stop
  | cons s path ih =>
    rw [List.foldl_cons, TypeIndex.walk]
    split_ifs with hself hsuper
    · rw [hself]
      exact .stay (ih here)
    · rw [hsuper]
      exact .up (ih here.dropLast)
    · exact .down hself hsuper (ih (here ++ [s]))

/-- A walk visits no other segments than those that it is given. -/
theorem Walks.mem (h : Walks here path package) {s : List Char} (hs : s ∈ package) :
    s ∈ here ∨ s ∈ path := by
  induction h with
  | stop => exact .inl hs
  | stay _ ih => exact (ih hs).imp_right (List.mem_cons_of_mem _)
  | up _ ih => exact (ih hs).imp List.mem_of_mem_dropLast (List.mem_cons_of_mem _)
  | down _ _ _ ih =>
    rcases ih hs with hs | hs
    · rcases List.mem_append.1 hs with hs | hs
      · exact .inl hs
      · exact .inr (List.mem_singleton.1 hs ▸ List.mem_cons_self)
    · exact .inr (List.mem_cons_of_mem _ hs)

theorem PathMeans.mem (h : PathMeans here path package) {s : List Char} (hs : s ∈ package) :
    s ∈ here ∨ s ∈ path := by
  cases h with
  | root => exact .inr (List.mem_cons_of_mem _ hs)
  | walk _ hwalks => exact hwalks.mem hs
  | below => exact List.mem_append.1 hs
  | absolute => exact .inr hs

/-- The packages in which a path is looked up are among those that it can mean, without their empty
segments. -/
theorem exists_pathMeans_of_candidate {here path candidate : List Char}
    (h : candidate ∈ TypeIndex.candidatePackages here path) :
    ∃ package, PathMeans (pathSegments here) ((pathSegments path).map trim) package ∧
      candidate = joinPath (package.filter (· ≠ [])) := by
  unfold TypeIndex.candidatePackages at h
  obtain ⟨s, rest, hsegments⟩ : ∃ s rest, (pathSegments path).map trim = s :: rest :=
    List.exists_cons_of_ne_nil (by simpa using pathSegments_ne_nil path)
  simp only [hsegments, List.headD_cons] at h ⊢
  split_ifs at h with hcrate hrelative
  · rw [hcrate]
    exact ⟨rest, .root, List.mem_singleton.1 h⟩
  · refine ⟨_, .walk ?_ (walks_foldl _ _), List.mem_singleton.1 h⟩
    simpa using hrelative
  · have hwords : ∀ word ∈ pathWords, (s :: rest).head? ≠ some word := by
      intro word hword heq
      cases heq
      simp only [pathWords, List.mem_cons, List.not_mem_nil, or_false] at hword
      exact hword.elim hcrate hrelative
    rcases List.mem_cons.1 h with h | h
    · exact ⟨_, .below hwords, h⟩
    · exact ⟨_, .absolute hwords, List.mem_singleton.1 h⟩

/-- Nor are there double colons within them. -/
theorem PathMeans.colons_not_isInfix {here path : List Char} {package : List (List Char)}
    (h : PathMeans (pathSegments here) ((pathSegments path).map trim) package) {s : List Char}
    (hs : s ∈ package) : ¬ [':', ':'] <:+: s := by
  rcases h.mem hs with hs | hs
  · exact not_colons_infix_of_mem_pathSegments hs
  · obtain ⟨t, ht, rfl⟩ := List.mem_map.1 hs
    exact fun hcolons =>
      not_colons_infix_of_mem_pathSegments ht (hcolons.trans (trim_isInfix t))

/-! ### Packages and keys -/

namespace SpellsPackage

variable {segments : List (List Char)} {p q : String}

/-- No identifier is empty or has a colon. -/
theorem ne_nil_and_colon_notMem (h : SpellsPackage segments p) :
    ∀ s ∈ segments, s ≠ [] ∧ ':' ∉ s := fun s hs =>
  ⟨(h.isIdentifier s hs).1, (h.isIdentifier s hs).colon_notMem⟩

/-- A package with the key of segments that are not empty is spelled by them. -/
theorem eq_of_packageKey_eq {xs : List (List Char)} (h : SpellsPackage segments p)
    (hxs : ∀ x ∈ xs, x ≠ [] ∧ ¬ [':', ':'] <:+: x)
    (hkey : packageKey p = String.ofList (joinPath xs)) : xs = segments := by
  refine joinPath_inj hxs h.ne_nil_and_colon_notMem ?_
  rw [h.packageKey_eq, pathText, String.ofList_inj] at hkey
  exact hkey.symm

/-- Packages have the same key exactly if they are the same. -/
theorem packageKey_eq_iff {segments' : List (List Char)} (h : SpellsPackage segments p)
    (h' : SpellsPackage segments' q) : packageKey p = packageKey q ↔ SamePackage p q := by
  constructor
  · intro hkey
    have hxs : ∀ x ∈ segments', x ≠ [] ∧ ¬ [':', ':'] <:+: x := fun x hx =>
      ⟨(h'.isIdentifier x hx).1, fun hcolons =>
        (h'.isIdentifier x hx).colon_notMem (hcolons.subset List.mem_cons_self)⟩
    rw [h'.packageKey_eq] at hkey
    exact ⟨segments, h, h.eq_of_packageKey_eq hxs hkey ▸ h'⟩
  · rintro ⟨common, hp, hq⟩
    rw [hp.packageKey_eq, hq.packageKey_eq]

/-- Without its empty segments a package has the segments that spell it. -/
theorem filter_packageSegments (h : SpellsPackage segments p) :
    (packageSegments p).filter (· ≠ []) = segments := by
  rw [packageSegments, h.pathSegments_packageKey]
  split_ifs with hnil
  · rw [hnil]
    rfl
  · exact List.filter_eq_self.2 fun s hs => by simpa using (h.isIdentifier s hs).1

end SpellsPackage

variable {types : List Declaration} {i : Nat} {d : Declaration}

/-- The number that is found for a key is that of a declaration with the key. -/
theorem exists_of_lookup {p name : String}
    (h : (TypeIndex.mk (types.map Declaration.key)).lookup p name = some i) :
    ∃ d, types[i]? = some d ∧ d.key = (p, name) := by
  obtain ⟨hi, hkey, -⟩ := List.findIdx?_eq_some_iff_getElem.1 h
  rw [List.length_map] at hi
  exact ⟨types[i], List.getElem?_eq_getElem hi, by simpa using hkey⟩

/-- If no key is repeated, every declaration is found by its key. -/
theorem lookup_key (hkeys : (types.map Declaration.key).Nodup) (hd : types[i]? = some d) :
    (TypeIndex.mk (types.map Declaration.key)).lookup (packageKey d.package) d.name = some i := by
  obtain ⟨hi, rfl⟩ := List.getElem?_eq_some_iff.1 hd
  have hlength : i < (types.map Declaration.key).length := by rwa [List.length_map]
  refine List.findIdx?_eq_some_iff_getElem.2 ⟨hlength, by simp [Declaration.key], ?_⟩
  intro j hj hkey
  have hsame : (types.map Declaration.key)[j] = (types.map Declaration.key)[i] := by
    simpa [Declaration.key] using hkey
  exact absurd ((List.Nodup.getElem_inj_iff hkeys).1 hsame) (by omega)

/-! ### Resolving -/

/-- Every package is spelled by segments, and every name is an identifier. -/
def WellNamed (types : List Declaration) : Prop :=
  ∀ d ∈ types, (∃ segments, SpellsPackage segments d.package) ∧ IsIdentifier d.name.toList

/-- **A reference is resolved to what it can mean.** -/
theorem referenceMeans_of_resolve (htypes : WellNamed types) {fromPackage reference : String}
    (h : (TypeIndex.mk (types.map Declaration.key)).resolve fromPackage reference = some i) :
    ∃ d package, types[i]? = some d ∧ SpellsPackage (package.filter (· ≠ [])) d.package ∧
      ReferenceMeans (packageSegments fromPackage) (trim reference.toList) package
        d.name.toList := by
  rw [TypeIndex.resolve_eq] at h
  obtain ⟨⟨package, last⟩, hkey, hlookup⟩ := List.exists_of_findSome?_eq_some h
  obtain ⟨d, hd, hdkey⟩ := exists_of_lookup hlookup
  rw [← hdkey] at hkey
  obtain ⟨⟨segments, hspells⟩, -⟩ := htypes d (List.mem_of_getElem? hd)
  cases hcut : cutLastSegment (trim reference.toList) with
  | none =>
    rw [referenceKeys_bare hcut, List.mem_singleton] at hkey
    obtain ⟨hpackage, hname⟩ := Prod.mk.inj hkey
    refine ⟨d, packageSegments fromPackage, hd, ?_, ?_⟩
    · rw [packageSegments, ← hpackage, ← packageSegments, hspells.filter_packageSegments]
      exact hspells
    · rw [hname, toList_trimmed]
      exact .name (cutLastSegment_eq_none_iff.1 hcut)
  | some cut =>
    obtain ⟨front, name⟩ := cut
    rw [referenceKeys_path hcut] at hkey
    obtain ⟨candidate, hcandidate, hkey⟩ := List.mem_map.1 hkey
    obtain ⟨package, hmeans, rfl⟩ := exists_pathMeans_of_candidate hcandidate
    obtain ⟨hpackage, hname⟩ := Prod.mk.inj hkey
    obtain ⟨hreference, hlast⟩ := cutLastSegment_eq_some_iff.1 hcut
    refine ⟨d, package, hd, ?_, ?_⟩
    · have hxs : ∀ x ∈ package.filter (· ≠ []), x ≠ [] ∧ ¬ [':', ':'] <:+: x := by
        intro x hx
        obtain ⟨hx, hne⟩ := List.mem_filter.1 hx
        exact ⟨by simpa using hne, hmeans.colons_not_isInfix hx⟩
      rw [hspells.eq_of_packageKey_eq hxs hpackage.symm]
      exact hspells
    · rw [hreference, ← hname, String.toList_ofList]
      exact .path hlast hmeans

/-- A declaration is resolved from its path behind `crate`, and from its name in its package. -/
theorem resolve_declaration (hkeys : (types.map Declaration.key).Nodup) (hd : types[i]? = some d)
    (hname : IsIdentifier d.name.toList) {segments : List (List Char)}
    (hspells : SpellsPackage segments d.package) :
    (∀ fromPackage, (TypeIndex.mk (types.map Declaration.key)).resolve fromPackage
      (pathText ("crate".toList :: segments ++ [d.name.toList])) = some i) ∧
    (TypeIndex.mk (types.map Declaration.key)).resolve d.package d.name = some i := by
  have hlookup := lookup_key hkeys hd
  constructor
  · intro fromPackage
    rw [TypeIndex.resolve_path _ _ (List.cons_ne_nil _ _)
        (TypeIndex.forall_mem_cons_word hspells.isIdentifier (by decide +kernel)) hname,
      TypeIndex.candidatePackages_crate hspells.isIdentifier, List.findSome?_singleton,
      String.ofList_toList]
    rwa [hspells.packageKey_eq] at hlookup
  · rw [← String.ofList_toList (s := d.name), TypeIndex.resolve_name _ _ hname,
      String.ofList_toList]
    exact hlookup

/-- There is no index exactly if two declarations of one name are in the same package. -/
theorem exists_build_eq_error_iff (htypes : WellNamed types) :
    (∃ fault, TypeIndex.build types = .error fault) ↔
      ∃ (i j : Nat) (d e : Declaration), i ≠ j ∧ types[i]? = some d ∧ types[j]? = some e ∧
        d.name = e.name ∧ SamePackage d.package e.package := by
  have hfails : (∃ fault, TypeIndex.build types = .error fault) ↔
      ¬ (types.map Declaration.key).Nodup := by
    cases h : TypeIndex.build types with
    | error fault =>
      refine ⟨fun _ hkeys => ?_, fun _ => ⟨fault, rfl⟩⟩
      cases h.symm.trans (TypeIndex.build_eq_ok_iff.2 ⟨hkeys, rfl⟩)
    | ok index =>
      refine ⟨nofun, fun hkeys => ?_⟩
      exact absurd (TypeIndex.build_eq_ok_iff.1 h).1 hkeys
  have hsame : ∀ {i j : Nat} {d e : Declaration}, types[i]? = some d → types[j]? = some e →
      (d.key = e.key ↔ d.name = e.name ∧ SamePackage d.package e.package) := by
    intro i j d e hd he
    obtain ⟨⟨segments, hspells⟩, -⟩ := htypes d (List.mem_of_getElem? hd)
    obtain ⟨⟨segments', hspells'⟩, -⟩ := htypes e (List.mem_of_getElem? he)
    rw [Declaration.key, Declaration.key, Prod.mk.injEq, hspells.packageKey_eq_iff hspells',
      and_comm]
  rw [hfails]
  constructor
  · intro hrepeated
    rw [List.nodup_iff_getElem?_ne_getElem?] at hrepeated
    push Not at hrepeated
    obtain ⟨i, j, hij, hj, hkey⟩ := hrepeated
    rw [List.length_map] at hj
    have hd := List.getElem?_eq_getElem (Nat.lt_trans hij hj)
    have he := List.getElem?_eq_getElem hj
    rw [List.getElem?_map, List.getElem?_map, hd, he] at hkey
    exact ⟨i, j, _, _, Nat.ne_of_lt hij, hd, he, (hsame hd he).1 (Option.some.inj hkey)⟩
  · rintro ⟨i, j, d, e, hij, hd, he, hboth⟩ hkeys
    have hkey : d.key = e.key := (hsame hd he).2 hboth
    obtain ⟨hpackage, hname⟩ := Prod.mk.inj hkey
    have hfound := lookup_key hkeys hd
    rw [hpackage, hname, lookup_key hkeys he] at hfound
    exact hij (Option.some.inj hfound).symm

/-- **Every declaration is reachable, and nothing else is.** Let all packages be spelled by segments
and all names be identifiers. There is no index exactly if two declarations of one name are in the
same package. If there is one, every declaration is resolved from its path behind `crate`, in whatever
package that is written, and from its name in its own package; and whatever a reference is resolved to
is declared under the last segment of the reference, in a package that the reference can mean. -/
theorem declarations_reachable {types : List Declaration} (htypes : WellNamed types) :
    ((∃ fault, TypeIndex.build types = .error fault) ↔
      ∃ (i j : Nat) (d e : Declaration), i ≠ j ∧ types[i]? = some d ∧ types[j]? = some e ∧
        d.name = e.name ∧ SamePackage d.package e.package) ∧
    ∀ index, TypeIndex.build types = .ok index →
      (∀ (i : Nat) d segments, types[i]? = some d → SpellsPackage segments d.package →
        (∀ fromPackage, index.resolve fromPackage
          (pathText ("crate".toList :: segments ++ [d.name.toList])) = some i) ∧
        index.resolve d.package d.name = some i) ∧
      ∀ fromPackage reference i, index.resolve fromPackage reference = some i →
        ∃ d package, types[i]? = some d ∧ SpellsPackage (package.filter (· ≠ [])) d.package ∧
          ReferenceMeans (packageSegments fromPackage) (trim reference.toList) package
            d.name.toList := by
  refine ⟨exists_build_eq_error_iff htypes, fun index hindex => ?_⟩
  obtain ⟨hkeys, rfl⟩ := TypeIndex.build_eq_ok_iff.1 hindex
  refine ⟨fun i d segments hd hspells => ?_, fun fromPackage reference i =>
    referenceMeans_of_resolve htypes⟩
  exact resolve_declaration hkeys hd (htypes d (List.mem_of_getElem? hd)).2 hspells

/-- Declarations of one name in two packages, one at the root and one in a package below another. -/
def billingDeclarations : List Declaration :=
  [⟨"Address", "models", none, [], false⟩, ⟨"Address", "crate::billing", none, [], false⟩,
    ⟨"Root", "crate", none, [], false⟩, ⟨"Line", "billing::invoice", none, [], false⟩]

/-- They are found from everywhere, and a reference from the lowest package means one of them. -/
theorem billing_reachable :
    WellNamed billingDeclarations ∧
    ∃ index, TypeIndex.build billingDeclarations = .ok index ∧
      (∀ fromPackage, index.resolve fromPackage "crate::billing::Address" = some 1) ∧
      index.resolve "crate" "Root" = some 2 ∧
      index.resolve "billing::invoice" " super::super::models::Address" = some 0 ∧
      ∃ d package, billingDeclarations[0]? = some d ∧
        SpellsPackage (package.filter (· ≠ [])) d.package ∧
        ReferenceMeans (packageSegments "billing::invoice")
          (trim " super::super::models::Address".toList) package d.name.toList := by
  have hbilling : SpellsPackage ["billing".toList] "crate::billing" :=
    ⟨by decide +kernel, .inr (by decide +kernel)⟩
  have hroot : SpellsPackage [] "crate" := ⟨List.forall_mem_nil _, .inr (by decide +kernel)⟩
  have hnamed : WellNamed billingDeclarations := by
    refine List.forall_mem_cons.2 ⟨⟨⟨["models".toList], by decide +kernel, .inl ?_⟩, ?_⟩,
      List.forall_mem_cons.2 ⟨⟨⟨_, hbilling⟩, ?_⟩, List.forall_mem_cons.2 ⟨⟨⟨_, hroot⟩, ?_⟩,
        List.forall_mem_cons.2 ⟨⟨⟨["billing".toList, "invoice".toList], by decide +kernel,
          .inl ?_⟩, ?_⟩, List.forall_mem_nil _⟩⟩⟩⟩
    all_goals decide +kernel
  have hbuild : TypeIndex.build billingDeclarations =
      .ok ⟨[("models", "Address"), ("billing", "Address"), ("", "Root"),
        ("billing::invoice", "Line")]⟩ := by
    decide +kernel
  have hresolve : TypeIndex.resolve ⟨[("models", "Address"), ("billing", "Address"), ("", "Root"),
      ("billing::invoice", "Line")]⟩ "billing::invoice" " super::super::models::Address" =
        some 0 := by
    decide +kernel
  obtain ⟨hreached, hmeans⟩ := (declarations_reachable hnamed).2 _ hbuild
  exact ⟨hnamed, _, hbuild, (hreached 1 _ _ rfl hbilling).1, (hreached 2 _ _ rfl hroot).2, hresolve,
    hmeans _ _ 0 hresolve⟩

end FieldRules

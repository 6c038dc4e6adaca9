import FieldRules.Proofs.Scope

/-!
# What a reference means

A reference written in a package stands for a list of keys, the first choice first
(`referenceKeys`). An index resolves it to the first of them that it has (`resolve_eq`), and it means
the first declaration that has one of them (`find?_of`). Where the declarations stand in the list
plays no part: `find?_of_perm` says that the same declarations in another order give every reference
the same meaning.
-/

namespace FieldRules

open Text

/-- The keys that a reference written in `fromPackage` stands for, the first choice first. -/
def referenceKeys (fromPackage reference : String) : List (String × String) :=
  let here := packageKey fromPackage
  match cutLastSegment (trim reference.toList) with
  | none => [(here, trimmed reference)]
  | some (path, name) =>
    (TypeIndex.candidatePackages here.toList path).map fun package =>
      (String.ofList package, String.ofList name)

/-- A bare reference is looked up in the package that it is written in. -/
theorem referenceKeys_bare {fromPackage reference : String}
    (h : cutLastSegment (trim reference.toList) = none) :
    referenceKeys fromPackage reference = [(packageKey fromPackage, trimmed reference)] := by
  simp only [referenceKeys, h]

/-- A reference with a path is looked up in each package that the path can mean. -/
theorem referenceKeys_path {fromPackage reference : String} {path name : List Char}
    (h : cutLastSegment (trim reference.toList) = some (path, name)) :
    referenceKeys fromPackage reference =
      (TypeIndex.candidatePackages (packageKey fromPackage).toList path).map fun package =>
        (String.ofList package, String.ofList name) := by
  simp only [referenceKeys, h]

/-- **A reference is resolved to the first of its keys that is in the index.** -/
theorem TypeIndex.resolve_eq (index : TypeIndex) (fromPackage reference : String) :
    index.resolve fromPackage reference =
      (referenceKeys fromPackage reference).findSome? fun key => index.lookup key.1 key.2 := by
  unfold TypeIndex.resolve
  cases hcut : cutLastSegment (trim reference.toList) with
  | none => simp only [hcut, referenceKeys_bare hcut, List.findSome?_singleton, trimmed]
  | some cut =>
    obtain ⟨path, name⟩ := cut
    simp only [hcut, referenceKeys_path hcut, List.findSome?_map, Function.comp_def]

/-- The first declaration with a key. -/
def withKey (types : List Declaration) (key : String × String) : Option Declaration :=
  types.find? (·.key == key)

variable {types : List Declaration} {key : String × String} {d : Declaration}

theorem mem_of_withKey (h : withKey types key = some d) : d ∈ types :=
  List.mem_of_find?_eq_some h

theorem key_of_withKey (h : withKey types key = some d) : d.key = key := by
  simpa using List.find?_some h

/-- If no key is repeated, the declaration with a key is the only one. -/
theorem withKey_eq_some_iff (hkeys : (types.map Declaration.key).Nodup) :
    withKey types key = some d ↔ d ∈ types ∧ d.key = key := by
  constructor
  · intro h
    exact ⟨mem_of_withKey h, key_of_withKey h⟩
  · rintro ⟨hd, hkey⟩
    cases h : withKey types key with
    | none => exact absurd hkey (by simpa using List.find?_eq_none.1 h d hd)
    | some e =>
      have hsame : e.key = d.key := (key_of_withKey h).trans hkey.symm
      rw [List.inj_on_of_nodup_map hkeys (mem_of_withKey h) hd hsame]

/-- A number that the index finds is that of the first declaration with the key. -/
theorem lookup_bind (package name : String) :
    ((Scope.of types).index.lookup package name).bind (types[·]?) =
      withKey types (package, name) := by
  rw [withKey, List.find?_eq_bind_findIdx?_getElem?, TypeIndex.lookup, Scope.of,
    List.findIdx?_map]
  rfl

/-- An index finds a number only if the number is that of a declaration. -/
theorem findSome?_lookup_bind (keys : List (String × String)) :
    (keys.findSome? fun key => (Scope.of types).index.lookup key.1 key.2).bind (types[·]?) =
      keys.findSome? (withKey types) := by
  induction keys with
  | nil => rfl
  | cons key keys ih =>
    have hfirst : ((Scope.of types).index.lookup key.1 key.2).bind (types[·]?) =
        withKey types key := lookup_bind _ _
    rw [List.findSome?_cons, List.findSome?_cons, ← hfirst]
    cases hlookup : (Scope.of types).index.lookup key.1 key.2 with
    | none => exact ih
    | some i =>
      have hi : i < types.length := by
        obtain ⟨hi, -⟩ := List.findIdx?_eq_some_iff_getElem.1 hlookup
        simpa [Scope.of] using hi
      simp [List.getElem?_eq_getElem hi]

/-- **A reference means the first declaration with one of its keys.** -/
theorem find?_of (types : List Declaration) (fromPackage reference : String) :
    (Scope.of types).find? fromPackage reference =
      (referenceKeys fromPackage reference).findSome? (withKey types) := by
  rw [← findSome?_lookup_bind, ← TypeIndex.resolve_eq]
  rfl

/-- A reference means one of the declarations, by one of its keys. -/
theorem mem_of_find?_of {fromPackage reference : String}
    (h : (Scope.of types).find? fromPackage reference = some d) :
    d ∈ types ∧ d.key ∈ referenceKeys fromPackage reference := by
  rw [find?_of] at h
  obtain ⟨before, key, after, hkeys, hd, -⟩ := List.findSome?_eq_some_iff.1 h
  refine ⟨mem_of_withKey hd, ?_⟩
  rw [key_of_withKey hd, hkeys]
  exact List.mem_append_right before List.mem_cons_self

/-- The order of the declarations does not change what a reference means. -/
theorem find?_of_perm {types' : List Declaration} (h : types.Perm types')
    (hkeys : (types.map Declaration.key).Nodup) :
    (Scope.of types).find? = (Scope.of types').find? := by
  have hkeys' : (types'.map Declaration.key).Nodup :=
    (h.map Declaration.key).nodup_iff.1 hkeys
  have hsame : withKey types = withKey types' := by
    funext key
    apply Option.ext
    intro d
    rw [withKey_eq_some_iff hkeys, withKey_eq_some_iff hkeys', h.mem_iff]
  funext fromPackage reference
  rw [find?_of, find?_of, hsame]

end FieldRules

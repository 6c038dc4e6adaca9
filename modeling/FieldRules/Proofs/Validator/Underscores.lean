import FieldRules.Proofs.Validator.Name

/-!
# The underscores of a function name

The name of a validator gains an underscore only in front of a letter, and every letter is kept. So
a type name without underscores becomes words with single underscores between them (`IsSnakeCase`),
whatever its letters are and however many small letters stand for a capital. `validatorName_words`
adds this to what a function name keeps of a type name.
-/

namespace FieldRules

open Text

/-- Words with single underscores between them: none stands at either end, and no two meet. -/
structure IsSnakeCase (name : List Char) : Prop where
  /-- No underscore comes first. -/
  starts : name.head? ≠ some '_'
  /-- None comes last. -/
  ends : name.getLast? ≠ some '_'
  /-- No underscore follows another. -/
  apart : name.IsChain fun c d => ¬ (c = '_' ∧ d = '_')

/-- A letter in lower case is at least one letter. -/
theorem lowerChar_ne_nil (c : Char) : lowerChar c ≠ [] := by
  unfold lowerChar
  split
  · simp
  · split <;> simp

/-- A text without underscores may have one in front of it. -/
theorem isChain_underscore_cons {letters : List Char} (h : '_' ∉ letters) :
    ('_' :: letters).IsChain fun c d => ¬ (c = '_' ∧ d = '_') := by
  have hne : ∀ d ∈ letters, d ≠ '_' := fun d hd heq => h (heq ▸ hd)
  have hletters : letters.Pairwise fun c d => ¬ (c = '_' ∧ d = '_') :=
    (List.pairwise_of_forall fun _ _ => trivial).imp_of_mem fun hc _ _ hboth => hne _ hc hboth.1
  exact (List.pairwise_cons.2 ⟨fun d hd hboth => hne d hd hboth.2, hletters⟩).isChain

/-- What one letter of a type name becomes, with or without an underscore in front. -/
theorem isChain_letter {c : Char} (hc : c ≠ '_') (marked : Bool) :
    ((if marked then ['_'] else []) ++ lowerChar c).IsChain fun c d => ¬ (c = '_' ∧ d = '_') := by
  have hchain := isChain_underscore_cons (underscore_notMem_lowerChar hc)
  cases marked with
  | true => exact hchain
  | false => exact hchain.tail

/-- It ends with a letter. -/
theorem getLast?_letter {c : Char} (hc : c ≠ '_') (mark : List Char) :
    (mark ++ lowerChar c).getLast? ≠ some '_' := by
  rw [List.getLast?_append_of_ne_nil _ (lowerChar_ne_nil c)]
  exact fun hlast => underscore_notMem_lowerChar hc (List.mem_of_getLast? hlast)

/-- From any place of a type name on: every underscore has a letter behind it, so no two meet and
none comes last. -/
theorem apart_snakeCase (previous : Option Char) {name : List Char} (h : '_' ∉ name) :
    (snakeCase previous name).IsChain (fun c d => ¬ (c = '_' ∧ d = '_')) ∧
      (snakeCase previous name).getLast? ≠ some '_' := by
  induction name generalizing previous with
  | nil => exact ⟨.nil, by simp [snakeCase]⟩
  | cons c name ih =>
    obtain ⟨hc, hname⟩ := List.ne_and_not_mem_of_not_mem_cons h
    obtain ⟨hchain, hlast⟩ := ih (some c) hname
    have hletter := getLast?_letter hc.symm
      (if isUppercase c && startsWord previous name.head? then ['_'] else [])
    rw [snakeCase]
    constructor
    · refine List.isChain_append.2 ⟨isChain_letter hc.symm _, hchain, ?_⟩
      rintro x hx y - ⟨rfl, -⟩
      exact hletter hx
    · rw [List.getLast?_append]
      cases hrest : (snakeCase (some c) name).getLast? with
      | none => simpa using hletter
      | some d => simpa [hrest] using hlast

/-- **A name without underscores becomes words with single underscores between them.** -/
theorem isSnakeCase_snakeCase {name : List Char} (h : '_' ∉ name) :
    IsSnakeCase (snakeCase none name) := by
  obtain ⟨hchain, hlast⟩ := apart_snakeCase none h
  refine ⟨?_, hlast, hchain⟩
  cases name with
  | nil => simp [snakeCase]
  | cons c name =>
    have hc := (List.ne_and_not_mem_of_not_mem_cons h).1
    have hstart : snakeCase none (c :: name) = lowerChar c ++ snakeCase (some c) name := by
      simp [snakeCase, startsWord]
    rw [hstart, List.head?_append_of_ne_nil _ (lowerChar_ne_nil c)]
    exact fun hhead => underscore_notMem_lowerChar hc.symm (List.mem_of_mem_head? hhead)

/-- **Only case and underscores are lost in function names.** Behind `validate_` the letters of the
type name stand one by one in lower case, up to underscores; these are single ones between words if
the type name has none. Two types with one function name agree up to case and underscores. -/
theorem validatorName_words (typeName : String) :
    ∃ body : String, validatorName typeName = "validate_" ++ body ∧
      body.toList.filter (· ≠ '_') = squeezed typeName.toList ∧
      ('_' ∉ typeName.toList → IsSnakeCase body.toList) ∧
      ∀ other, validatorName other = validatorName typeName →
        squeezed other.toList = squeezed typeName.toList := by
  refine ⟨String.ofList (snakeCase none typeName.toList), rfl, ?_, ?_, ?_⟩
  · rw [String.toList_ofList]
    exact filter_snakeCase none typeName.toList
  · rw [String.toList_ofList]
    exact isSnakeCase_snakeCase
  · exact fun other h => squeezed_eq_of_validatorName_eq h

/-- An acronym, a digit and a capital with a lower case of two letters; and a name with the same
function. -/
theorem httpIzmir2Go_words :
    validatorName "HTTPİzmir2Go" = "validate_" ++ "http_i\u0307zmir2_go" ∧
      '_' ∉ "HTTPİzmir2Go".toList ∧ IsSnakeCase "http_i\u0307zmir2_go".toList ∧
      validatorName "http_İzmir2Go" = validatorName "HTTPİzmir2Go" ∧
      squeezed "http_İzmir2Go".toList = squeezed "HTTPİzmir2Go".toList := by
  have hname : validatorName "HTTPİzmir2Go" = "validate_" ++ "http_i\u0307zmir2_go" := by
    decide +kernel
  have hother : validatorName "http_İzmir2Go" = validatorName "HTTPİzmir2Go" := by
    decide +kernel
  have hplain : '_' ∉ "HTTPİzmir2Go".toList := by decide
  obtain ⟨body, hbody, -, hsnake, hsame⟩ := validatorName_words "HTTPİzmir2Go"
  have heq : body = "http_i\u0307zmir2_go" :=
    (String.append_right_inj _).1 (hbody.symm.trans hname)
  rw [← heq]
  exact ⟨hbody, hplain, hsnake hplain, hother, hsame _ hother⟩

end FieldRules

import FieldRules.Manifest
import FieldRules.Proofs.Json.Containers

/-!
# What is read of a manifest

A manifest is read from the array or object at the start of its text. What stands behind the closing
bracket is not looked at, so declarations that follow in a second array are lost without an error.
-/

namespace FieldRules.Manifest

open Json

/-! ### The forms of records -/

theorem locationForm_takesValues : locationForm.TakesValues := by
  simp only [RecordForm.TakesValues, locationForm, List.forall_mem_cons]
  refine ⟨fun d => readString_takesValue.map _, fun d => readWord_takesValue.map _, ?_⟩
  simp

theorem fieldForm_takesValues : fieldForm.TakesValues := by
  simp only [RecordForm.TakesValues, fieldForm, List.forall_mem_cons]
  refine ⟨fun d => readString_takesValue.map _, fun d => readString_takesValue.map _,
    fun d => readString_takesValue.map _, ?_⟩
  simp

theorem declarationForm_takesValues : declarationForm.TakesValues := by
  have hlocation := (readRecord_takesContainer locationForm_takesValues).takesValue
  have hfield := (readRecord_takesContainer fieldForm_takesValues).takesValue
  simp only [RecordForm.TakesValues, declarationForm, List.forall_mem_cons]
  refine ⟨fun d => readString_takesValue.map _, fun d => readString_takesValue.map _,
    fun d => (readOptional_takesValue hlocation).map _,
    fun d => (readList_takesContainer hfield).takesValue.map _, ?_⟩
  simp

theorem optionsForm_takesValues : optionsForm.TakesValues := by
  simp only [RecordForm.TakesValues, optionsForm, List.forall_mem_cons]
  refine ⟨fun d => readString_takesValue.map _, ?_⟩
  simp

theorem documentForm_takesValues : documentForm.TakesValues := by
  have hoptions := (readRecord_takesContainer optionsForm_takesValues).takesValue
  have hdeclaration := (readRecord_takesContainer declarationForm_takesValues).takesValue
  simp only [RecordForm.TakesValues, documentForm, List.forall_mem_cons]
  refine ⟨fun d => (readOptional_takesValue hoptions).map _,
    fun d => (readList_takesContainer hdeclaration).takesValue.map _, ?_⟩
  simp

/-! ### The text of a manifest -/

theorem isBlank_of_isGap {c : Char} (h : Cursor.isGap c = true) : Text.isBlank c = true := by
  simp only [Cursor.isGap, Bool.or_eq_true, beq_iff_eq] at h
  rcases h with ((rfl | rfl) | rfl) | rfl <;> rfl

theorem head?_trimStart_gap {g cs : List Char} (hg : IsGap g) {x : Char}
    (hx : Text.isBlank x = false) : (Text.trimStart (g ++ x :: cs)).head? = some x := by
  rw [Text.trimStart, List.dropWhile_append_of_pos fun c hc => isBlank_of_isGap (hg c hc)]
  simp [hx]

/-- Which of the two forms of manifests a text has is decided by its first bracket. -/
theorem head?_trimStart_append {g container : List Char} (hg : IsGap g)
    (hcontainer : IsContainer container) (rest : List Char) :
    (Text.trimStart (g ++ container ++ rest)).head? = container.head? := by
  obtain ⟨frame, members, -, rfl⟩ := hcontainer
  have hbracket : Text.isBlank frame.opening = false := by cases frame <;> rfl
  rw [Text.trimStart, List.append_assoc,
    List.dropWhile_append_of_pos fun c hc => isBlank_of_isGap (hg c hc)]
  simp [hbracket]

/-- A manifest is read from one array or object, and would be the same manifest if anything else
followed. -/
theorem exists_container_of_ofJson {text : String} {m : Manifest} (h : ofJson text = .ok m) :
    ∃ g container rest, IsGap g ∧ IsContainer container ∧ text.toList = g ++ container ++ rest ∧
      ∀ other, ofJson (String.ofList (g ++ container ++ other)) = .ok m := by
  have hdeclaration := (readRecord_takesContainer declarationForm_takesValues).takesValue
  unfold ofJson at h
  simp only at h
  split at h
  · rename_i hbracket
    obtain ⟨⟨types, d⟩, hread, rfl⟩ := map_eq_ok_iff.1 h
    obtain ⟨g, container, hg, hcontainer, ht⟩ := readList_takesContainer hdeclaration hread
    have htext : text.toList = g ++ container ++ d.rest := ht.rest_eq
    refine ⟨g, container, d.rest, hg, hcontainer, htext, fun other => ?_⟩
    rw [htext, head?_trimStart_append hg hcontainer] at hbracket
    simp only [ofJson, String.toList_ofList, head?_trimStart_append hg hcontainer, hbracket,
      if_true]
    exact map_eq_ok_iff.2 ⟨_, ht.again other, rfl⟩
  · rename_i hbracket
    obtain ⟨⟨document, d⟩, hread, rfl⟩ := map_eq_ok_iff.1 h
    obtain ⟨g, container, hg, hcontainer, ht⟩ :=
      readRecord_takesContainer documentForm_takesValues hread
    have htext : text.toList = g ++ container ++ d.rest := ht.rest_eq
    refine ⟨g, container, d.rest, hg, hcontainer, htext, fun other => ?_⟩
    rw [htext, head?_trimStart_append hg hcontainer] at hbracket
    simp only [ofJson, String.toList_ofList, head?_trimStart_append hg hcontainer, hbracket,
      if_false]
    exact map_eq_ok_iff.2 ⟨_, ht.again other, rfl⟩

/-- The text of a manifest is one array or object, and something may follow. The text is nothing
else exactly if no more than a gap follows; but no matter what follows, the manifest is the same. -/
theorem ofJson_reads_one_container {text : String} {m : Manifest} (h : ofJson text = .ok m) :
    ∃ g container rest, IsGap g ∧ IsContainer container ∧ text.toList = g ++ container ++ rest ∧
      (IsContainerText text.toList ↔ IsGap rest) ∧
      ∀ other, ofJson (String.ofList (g ++ container ++ other)) = .ok m := by
  obtain ⟨g, container, rest, hg, hcontainer, htext, hother⟩ := exists_container_of_ofJson h
  refine ⟨g, container, rest, hg, hcontainer, htext, ?_, hother⟩
  rw [htext]
  exact isContainerText_iff hg hcontainer

/-- A document with more text behind it, and with a member that is passed over. -/
def tailedDocument : String :=
  " \x7b\"types\":[\x7b\"name\":\"A\",\"since\":[1.5e3,\x7b\"x\":null\x7d],\"fields\":[]\x7d]\x7d" ++
    " end"

/-- A manifest with one declaration, which has no fields. -/
def solitary (name : String) : Manifest :=
  ⟨none, [{ name, package := "", location := none, fields := [] }]⟩

theorem tailedDocument_reads_one_container :
    ofJson tailedDocument = .ok (solitary "A") ∧
      ∃ g container rest, IsGap g ∧ IsContainer container ∧
        tailedDocument.toList = g ++ container ++ rest ∧
        (IsContainerText tailedDocument.toList ↔ IsGap rest) ∧
        ∀ other, ofJson (String.ofList (g ++ container ++ other)) =
          .ok (solitary "A") := by
  have h : ofJson tailedDocument = .ok (solitary "A") := by decide +kernel
  exact ⟨h, ofJson_reads_one_container h⟩

/-- Two arrays of declarations. -/
def twoArrays : String :=
  "[\x7b\"name\":\"A\",\"fields\":[]\x7d] [\x7b\"name\":\"B\",\"fields\":[]\x7d]"

/-- The second array is dropped without an error, though the text is not one array. -/
theorem second_array_dropped :
    ofJson twoArrays = .ok (solitary "A") ∧ ¬ IsContainerText twoArrays.toList := by
  refine ⟨by decide +kernel, fun htext => ?_⟩
  have hbracket : '[' ∈ behindContainer 0 .bare twoArrays.toList := by decide
  have hgap : Cursor.isGap '[' = true := htext.isGap_behindContainer '[' hbracket
  cases hgap

end FieldRules.Manifest

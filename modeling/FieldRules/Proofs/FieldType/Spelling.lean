import FieldRules.FieldType.Spelling
import FieldRules.Proofs.Text.Blank

/-!
# Types as they are spelled

What a declaration can write for a container of a base type (`Spells`), apart from how it is read.
A text on one line that spells a shape is read as that shape with that base, and an option around
the same text as the optional type (`ofSpelling_of_spells`).

The readers try one spelling after the other. That they cannot meet follows from two facts: a text
has at most one name in front of its bracket (`Applied.unique`), and no name begins with the bracket
of an array. Within the brackets only the last one counts, and for a dictionary the first comma at
depth zero.
-/

namespace FieldRules.FieldType

open Text

variable {names : List String} {inside cs : List Char}

/-! ### Arguments between brackets -/

/-- The text is `name<inside>` with one of the names. Blanks may stand in front of the bracket. -/
def Applied (names : List String) (inside cs : List Char) : Prop :=
  ∃ name ∈ names, ∃ blanks, (∀ b ∈ blanks, isBlank b = true) ∧
    cs = name.toList ++ blanks ++ '<' :: (inside ++ ['>'])

theorem Applied.mono {names' : List String} (h : Applied names inside cs) (hnames : names ⊆ names') :
    Applied names' inside cs := by
  obtain ⟨name, hname, hcs⟩ := h
  exact ⟨name, hnames hname, hcs⟩

/-- The names of all types with arguments. -/
def genericNames : List String :=
  optionNames ++ listNames ++ dictNames

/-- Neither blanks nor brackets are in a name. -/
theorem genericNames_plain : ∀ name ∈ genericNames, name.toList ≠ [] ∧
    ∀ c ∈ name.toList, isBlank c = false ∧ c ≠ '<' ∧ c ≠ '[' := by
  have hall : (genericNames.all fun name => !name.toList.isEmpty &&
      name.toList.all fun c => !isBlank c && (c != '<' && c != '[')) = true := by
    decide +kernel
  simpa using hall

theorem isArgument_iff : isArgument cs = true ↔ cs ≠ [] ∧ '\n' ∉ cs := by
  simp [isArgument]

theorem beforeLast_eq_some_iff {last : Char} :
    beforeLast last cs = some inside ↔ cs = inside ++ [last] := by
  unfold beforeLast
  constructor
  · intro h
    split_ifs at h with hlast
    obtain ⟨front, rfl⟩ := List.getLast?_eq_some_iff.1 hlast
    rw [List.dropLast_concat, Option.some.injEq] at h
    rw [h]
  · rintro rfl
    rw [if_pos List.getLast?_concat, List.dropLast_concat]

theorem argumentsOf_eq_some_iff {name : String} :
    argumentsOf cs name = some inside ↔ Applied [name] inside cs ∧ isArgument inside = true := by
  unfold argumentsOf Applied
  simp only [List.mem_singleton, exists_eq_left]
  constructor
  · intro h
    split at h
    case h_1 rest heq =>
      obtain ⟨tail, htail, htrim⟩ := Option.map_eq_some_iff.1 heq
      obtain ⟨hlast, hargument⟩ := Option.filter_eq_some_iff.1 h
      rw [beforeLast_eq_some_iff] at hlast
      rw [List.isPrefixOf?_eq_some_iff_append_eq] at htail
      refine ⟨⟨tail.takeWhile isBlank, fun b hb => List.mem_takeWhile_imp hb, ?_⟩, hargument⟩
      rw [← hlast, ← htrim, trimStart, List.append_assoc, List.takeWhile_append_dropWhile, htail]
    case h_2 => cases h
  · rintro ⟨⟨blanks, hblanks, rfl⟩, hargument⟩
    have hbegins : name.toList.isPrefixOf? (name.toList ++ blanks ++ '<' :: (inside ++ ['>'])) =
        some (blanks ++ '<' :: (inside ++ ['>'])) := by
      rw [List.isPrefixOf?_eq_some_iff_append_eq, List.append_assoc]
    have htrim : trimStart (blanks ++ '<' :: (inside ++ ['>'])) = '<' :: (inside ++ ['>']) := by
      rw [trimStart, List.dropWhile_append_of_pos hblanks]
      rfl
    rw [hbegins, Option.map_some, htrim]
    exact Option.filter_eq_some_iff.2 ⟨beforeLast_eq_some_iff.2 rfl, hargument⟩

/-- The name ends where the first blank or bracket stands. -/
theorem takeWhile_name {name : String} {blanks rest : List Char} (hname : name ∈ genericNames)
    (hblanks : ∀ b ∈ blanks, isBlank b = true) :
    (name.toList ++ blanks ++ '<' :: rest).takeWhile (fun c => !isBlank c && c != '<') =
      name.toList := by
  have hplain : ∀ c ∈ name.toList, (!isBlank c && c != '<') = true := by
    intro c hc
    obtain ⟨hblank, hbracket, -⟩ := (genericNames_plain name hname).2 c hc
    simp [hblank, hbracket]
  have hstop : (blanks ++ '<' :: rest).takeWhile (fun c => !isBlank c && c != '<') = [] := by
    cases blanks with
    | nil => simp
    | cons b blanks => simp [hblanks b List.mem_cons_self]
  rw [List.append_assoc, List.takeWhile_append_of_pos hplain, hstop, List.append_nil]

/-- **A text has at most one name and one argument.** -/
theorem Applied.unique {names' : List String} {inside' : List Char} (hnames : names ⊆ genericNames)
    (hnames' : names' ⊆ genericNames) (h : Applied names inside cs)
    (h' : Applied names' inside' cs) : inside = inside' ∧ ∃ name ∈ names, name ∈ names' := by
  obtain ⟨name, hmem, blanks, hblanks, rfl⟩ := h
  obtain ⟨name', hmem', blanks', hblanks', hcs⟩ := h'
  have hname := congrArg (List.takeWhile fun c => !isBlank c && c != '<') hcs
  rw [takeWhile_name (hnames hmem) hblanks, takeWhile_name (hnames' hmem') hblanks',
    String.toList_inj] at hname
  subst hname
  rw [List.append_assoc, List.append_assoc, List.append_cancel_left_eq] at hcs
  have hrest := congrArg trimStart hcs
  rw [trimStart, trimStart, List.dropWhile_append_of_pos hblanks,
    List.dropWhile_append_of_pos hblanks'] at hrest
  exact ⟨by simpa [isBlank] using hrest, name, hmem, hmem'⟩

theorem argumentsOfAny_eq_some_iff (hnames : names ⊆ genericNames) :
    argumentsOfAny names cs = some inside ↔ Applied names inside cs ∧ isArgument inside = true := by
  have hany : ∀ {text}, argumentsOfAny names cs = some text →
      Applied names text cs ∧ isArgument text = true := by
    intro text h
    obtain ⟨name, hname, h⟩ := List.exists_of_findSome?_eq_some h
    obtain ⟨⟨_, hmem, happlied⟩, hargument⟩ := argumentsOf_eq_some_iff.1 h
    obtain rfl := List.mem_singleton.1 hmem
    exact ⟨⟨_, hname, happlied⟩, hargument⟩
  refine ⟨hany, fun ⟨happlied, hargument⟩ => ?_⟩
  obtain ⟨name, hname, hcs⟩ := happlied
  have hsome : argumentsOf cs name = some inside :=
    argumentsOf_eq_some_iff.2 ⟨⟨name, List.mem_singleton_self name, hcs⟩, hargument⟩
  obtain ⟨text, htext⟩ := Option.isSome_iff_exists.1
    (List.findSome?_isSome_iff.2 ⟨name, hname, Option.isSome_iff_exists.2 ⟨inside, hsome⟩⟩)
  obtain ⟨rfl, -⟩ := Applied.unique hnames hnames ⟨name, hname, hcs⟩ (hany htext).1
  exact htext

/-- A text with an argument does not begin like an array. -/
theorem Applied.head?_ne (hnames : names ⊆ genericNames) (h : Applied names inside cs) :
    cs.head? ≠ some '[' := by
  obtain ⟨name, hname, blanks, -, rfl⟩ := h
  obtain ⟨hne, hplain⟩ := genericNames_plain name (hnames hname)
  rw [List.append_assoc, List.head?_append_of_ne_nil _ hne]
  intro hhead
  exact (hplain '[' (List.mem_of_mem_head? hhead)).2.2 rfl

/-- A text with an argument has no other kind of names. -/
theorem argumentsOfAny_eq_none {names' : List String} (hnames : names ⊆ genericNames)
    (hnames' : names' ⊆ genericNames) (hdisjoint : ∀ name ∈ names, name ∉ names')
    (h : Applied names inside cs) : argumentsOfAny names' cs = none := by
  rw [Option.eq_none_iff_forall_ne_some]
  intro text htext
  obtain ⟨-, name, hname, hname'⟩ :=
    h.unique hnames hnames' ((argumentsOfAny_eq_some_iff hnames').1 htext).1
  exact hdisjoint name hname hname'

/-! ### Arrays -/

theorem cutLastSemicolon_append {element length : List Char} (h : ';' ∉ length) :
    cutLastSemicolon (element ++ ';' :: length) = some (element, length) := by
  have hafter : (element ++ ';' :: length).reverse.takeWhile (· != ';') = length.reverse := by
    have hlength : ∀ c ∈ length.reverse, (c != ';') = true := by
      intro c hc
      rw [bne_iff_ne]
      rintro rfl
      exact h (List.mem_reverse.1 hc)
    rw [List.reverse_append, List.reverse_cons, List.append_assoc,
      List.takeWhile_append_of_pos hlength]
    simp
  simp only [cutLastSemicolon, hafter]
  rw [if_pos (by simp; omega), List.reverse_reverse, List.length_reverse, List.length_append,
    List.length_cons]
  have hcut : element.length + (length.length + 1) - length.length - 1 = element.length := by omega
  rw [hcut, List.take_left]

theorem cutLastSemicolon_eq_some_iff {element length : List Char} :
    cutLastSemicolon cs = some (element, length) ↔
      cs = element ++ ';' :: length ∧ ';' ∉ length := by
  refine ⟨fun h => ?_, fun ⟨hcs, hlength⟩ => hcs ▸ cutLastSemicolon_append hlength⟩
  have hsemicolon : ';' ∈ cs := by
    by_contra hnone
    have hafter : cs.reverse.takeWhile (· != ';') = cs.reverse := by
      rw [List.takeWhile_eq_self_iff]
      intro c hc
      rw [bne_iff_ne]
      rintro rfl
      exact hnone (List.mem_reverse.1 hc)
    simp [cutLastSemicolon, hafter] at h
  obtain ⟨behind, front, hcs, hbehind⟩ := List.eq_append_cons_of_mem (List.mem_reverse.2 hsemicolon)
  obtain rfl : cs = front.reverse ++ ';' :: behind.reverse := by
    rw [← List.reverse_reverse cs, hcs]
    simp
  have hbehind' : ';' ∉ behind.reverse := by simpa using hbehind
  rw [cutLastSemicolon_append hbehind', Option.some.injEq, Prod.mk.injEq] at h
  obtain ⟨rfl, rfl⟩ := h
  exact ⟨rfl, hbehind'⟩

theorem semicolon_notMem_of_readDigits {length : List Char} {size : Nat}
    (h : Numeral.readDigits (trim length) = some size) : ';' ∉ length := by
  unfold Numeral.readDigits at h
  split_ifs at h with hdigits
  intro hmem
  have htrim : ';' ∈ trim length := (mem_trim_iff (by decide)).2 hmem
  exact absurd (List.all_eq_true.1 hdigits.2 _ htrim) (by decide)

/-- The text is `[element; length]`. Blanks may stand around the digits of the length. -/
def Indexed (element : List Char) (size : Nat) (cs : List Char) : Prop :=
  ∃ length, Numeral.readDigits (trim length) = some size ∧ size ≤ Numeral.maxSize ∧
    cs = '[' :: (element ++ ';' :: length ++ [']'])

theorem arrayParts_eq_some_iff {element : List Char} {size : Nat} :
    arrayParts cs = some (element, size) ↔
      Indexed element size cs ∧ isArgument element = true := by
  unfold arrayParts
  constructor
  · intro h
    split at h
    case h_1 rest =>
      obtain ⟨inner, hinner, h⟩ := Option.bind_eq_some_iff.1 h
      obtain ⟨⟨front, length⟩, hcut, h⟩ := Option.bind_eq_some_iff.1 h
      obtain ⟨n, hn, h⟩ := Option.bind_eq_some_iff.1 h
      obtain ⟨⟨hargument, hsize⟩, h⟩ := Option.ite_none_right_eq_some.1 h
      cases h
      obtain ⟨rfl, -⟩ := cutLastSemicolon_eq_some_iff.1 hcut
      exact ⟨⟨length, hn, hsize, congrArg _ (beforeLast_eq_some_iff.1 hinner)⟩, hargument⟩
    case h_2 => cases h
  · rintro ⟨⟨length, hread, hsize, rfl⟩, hargument⟩
    have hcut := @cutLastSemicolon_append element length (semicolon_notMem_of_readDigits hread)
    exact Option.bind_eq_some_iff.2 ⟨_, beforeLast_eq_some_iff.2 rfl,
      Option.bind_eq_some_iff.2 ⟨_, hcut,
        Option.bind_eq_some_iff.2 ⟨_, hread, if_pos ⟨hargument, hsize⟩⟩⟩⟩

theorem Indexed.head?_eq {element : List Char} {size : Nat} (h : Indexed element size cs) :
    cs.head? = some '[' := by
  obtain ⟨length, -, -, rfl⟩ := h
  rfl

/-! ### Blanks around a base type -/

/-- `base` with blanks around it. -/
def Padded (base cs : List Char) : Prop :=
  ∃ front behind, (∀ b ∈ front, isBlank b = true) ∧ (∀ b ∈ behind, isBlank b = true) ∧
    cs = front ++ base ++ behind

theorem Padded.trim_eq_trim {base : List Char} (h : Padded base cs) : trim cs = trim base := by
  obtain ⟨front, behind, hfront, hbehind, rfl⟩ := h
  rw [trim_append_blanks _ hbehind, trim_blanks_append _ hfront]

theorem Padded.trim_eq {base : List Char} (h : Padded base cs) (hbase : trim base = base) :
    trim cs = base :=
  h.trim_eq_trim.trans hbase

theorem Padded.ne_nil {base : List Char} (h : Padded base cs) (hbase : base ≠ []) : cs ≠ [] := by
  obtain ⟨front, behind, -, -, rfl⟩ := h
  simp [hbase]

/-! ### The first of several arguments -/

/-- The number of brackets that are left open. Their kinds are not told apart. -/
def depth : List Char → Int
  | [] => 0
  | c :: cs => depthStep c + depth cs

@[simp] theorem depth_nil : depth [] = 0 := rfl

@[simp] theorem depth_cons (c : Char) : depth (c :: cs) = depthStep c + depth cs := rfl

@[simp] theorem depth_append (before behind : List Char) :
    depth (before ++ behind) = depth before + depth behind := by
  induction before with
  | nil => simp
  | cons c before ih => rw [List.cons_append, depth_cons, depth_cons, ih, Int.add_assoc]

/-- Within a text whose commas all stand at another depth than zero no piece ends. -/
theorem topLevelPieces_append {start : Int} {text : List Char}
    (h : ∀ before behind, text = before ++ ',' :: behind → start + depth before ≠ 0) :
    topLevelPieces start (text ++ cs) =
      (topLevelPieces (start + depth text) cs).modifyHead (text ++ ·) := by
  induction text generalizing start with
  | nil =>
    have hid : (fun piece : List Char => [] ++ piece) = id := rfl
    rw [hid, List.modifyHead_id]
    simp
  | cons c text ih =>
    have hc : ¬ (c = ',' ∧ start = 0) := by
      rintro ⟨rfl, rfl⟩
      exact h [] text rfl rfl
    have htext : ∀ before behind, text = before ++ ',' :: behind →
        start + depthStep c + depth before ≠ 0 := by
      intro before behind htext
      have := h (c :: before) behind (by rw [htext]; rfl)
      rwa [depth_cons, ← Int.add_assoc] at this
    rw [List.cons_append, topLevelPieces, if_neg hc, ih htext, List.modifyHead_modifyHead,
      depth_cons, Int.add_assoc]
    rfl

/-- A text that can be the first of several arguments: its brackets are all closed, and every comma
stands inside of brackets. -/
structure IsKey (key : List Char) : Prop where
  depth_eq_zero : depth key = 0
  comma_inside : ∀ before behind, key = before ++ ',' :: behind → depth before ≠ 0

theorem isKey_iff {key : List Char} : IsKey key ↔
    depth key = 0 ∧ ∀ before ∈ key.inits, before ++ [','] <+: key → depth before ≠ 0 := by
  constructor
  · rintro ⟨hdepth, hcomma⟩
    refine ⟨hdepth, fun before _ ⟨behind, hkey⟩ => hcomma before behind ?_⟩
    rw [← hkey, List.append_assoc]
    rfl
  · rintro ⟨hdepth, hcomma⟩
    refine ⟨hdepth, fun before behind hkey => hcomma before ?_ ⟨behind, ?_⟩⟩
    · exact (List.mem_inits before key).2 ⟨',' :: behind, hkey.symm⟩
    · rw [hkey, List.append_assoc]
      rfl

instance : DecidablePred IsKey :=
  fun _ => decidable_of_iff' _ isKey_iff

/-- Blanks are no brackets and no commas. -/
theorem isKey_of_blanks {blanks : List Char} (h : ∀ b ∈ blanks, isBlank b = true) :
    IsKey blanks := by
  constructor
  · induction blanks with
    | nil => rfl
    | cons b blanks ih =>
      obtain ⟨hb, hblanks⟩ := List.forall_mem_cons.1 h
      have hstep : depthStep b = 0 := by
        unfold depthStep
        split_ifs with hopen hclose
        · rcases hopen with rfl | rfl | rfl <;> exact absurd hb (by decide)
        · rcases hclose with rfl | rfl | rfl <;> exact absurd hb (by decide)
        · rfl
      rw [depth_cons, hstep, ih hblanks, Int.add_zero]
  · rintro before behind rfl
    exact absurd (h ',' (by simp)) (by decide)

/-- Keys one behind the other are a key: at the end of the first all brackets are closed. -/
theorem IsKey.append {key key' : List Char} (h : IsKey key) (h' : IsKey key') :
    IsKey (key ++ key') := by
  constructor
  · rw [depth_append, h.depth_eq_zero, h'.depth_eq_zero, Int.add_zero]
  · intro before behind hkeys
    rcases List.append_eq_append_iff.1 hkeys with ⟨front, rfl, hkey'⟩ | ⟨back, rfl, hback⟩
    · rw [depth_append, h.depth_eq_zero, Int.zero_add]
      exact h'.comma_inside front behind hkey'
    · cases back with
      | nil =>
        -- The second key does not begin with a comma, because nothing is open there.
        exact absurd rfl (h'.comma_inside [] behind hback.symm)
      | cons c back =>
        obtain ⟨rfl, -⟩ := List.cons.inj hback
        exact h.comma_inside before back rfl

/-- Blanks around a key do not matter. -/
theorem IsKey.padded {key : List Char} (h : IsKey key) (hpadded : Padded key cs) : IsKey cs := by
  obtain ⟨front, behind, hfront, hbehind, rfl⟩ := hpadded
  exact ((isKey_of_blanks hfront).append h).append (isKey_of_blanks hbehind)

/-- A key does not end in front of what follows it. -/
theorem topLevelPieces_key {key : List Char} (h : IsKey key) :
    topLevelPieces 0 (key ++ cs) = (topLevelPieces 0 cs).modifyHead (key ++ ·) := by
  rw [topLevelPieces_append (by simpa using h.comma_inside), h.depth_eq_zero, Int.add_zero]

/-- A comma behind a key ends it, and what follows is taken apart by itself. -/
theorem topLevelPieces_key_comma {key : List Char} (h : IsKey key) (rest : List Char) :
    topLevelPieces 0 (key ++ ',' :: rest) = key :: topLevelPieces 0 rest := by
  rw [topLevelPieces_key h, topLevelPieces, if_pos ⟨rfl, rfl⟩]
  simp

theorem topLevelPieces_ne_nil (start : Int) (cs : List Char) : topLevelPieces start cs ≠ [] := by
  induction cs generalizing start with
  | nil => exact List.cons_ne_nil _ _
  | cons c cs ih =>
    unfold topLevelPieces
    split_ifs
    · exact List.cons_ne_nil _ _
    · simpa using ih _

/-- The first argument ends at the first comma outside of brackets, whatever follows. -/
theorem head?_splitArguments {base key rest : List Char} (h : Padded base key)
    (hbase : IsKey base) : (splitArguments (key ++ ',' :: rest)).head? = some (trim base) := by
  obtain ⟨piece, pieces, hrest⟩ := List.exists_cons_of_ne_nil (topLevelPieces_ne_nil 0 rest)
  simp only [splitArguments, topLevelPieces_key_comma (hbase.padded h), hrest, List.map_cons,
    h.trim_eq_trim]
  split_ifs
  · rfl
  · rfl

/-! ### What is spelled -/

/-- The text is taken apart by one of the readers. -/
inductive IsContainer (cs : List Char) : Prop where
  | applied {inside : List Char} : inside ≠ [] → Applied genericNames inside cs → IsContainer cs
  | indexed {element : List Char} {size : Nat} : element ≠ [] → Indexed element size cs →
      IsContainer cs

/-- The text spells a shape with a base type. Blanks may stand around the base type, and in front of
the bracket behind a name. -/
inductive Spells (base : List Char) : Shape → List Char → Prop where
  /-- As `Vec<base>`. -/
  | list {inside cs : List Char} : Padded base inside → Applied listNames inside cs →
      Spells base .list cs
  /-- As `[base; size]`. -/
  | fixedList {element cs : List Char} {size : Nat} : Padded base element →
      Indexed element size cs → Spells base (.fixedList size) cs
  /-- As `HashMap<base, value>`, with any value. -/
  | dict {key value cs : List Char} : Padded base key → IsKey base →
      Applied dictNames (key ++ ',' :: value) cs → Spells base .dict cs
  /-- By itself. -/
  | plain : ¬ IsContainer base → Spells base .plain base

section

variable {base : List Char} {shape : Shape}

theorem listNames_subset : listNames ⊆ genericNames := by decide +kernel

theorem dictNames_subset : dictNames ⊆ genericNames := by decide +kernel

theorem optionNames_subset : optionNames ⊆ genericNames := by decide +kernel

/-- What is not taken apart has no arguments. -/
theorem argumentsOfAny_eq_none_of_not_isContainer (hnames : names ⊆ genericNames)
    (h : ¬ IsContainer cs) : argumentsOfAny names cs = none := by
  rw [Option.eq_none_iff_forall_ne_some]
  intro inside hinside
  obtain ⟨happlied, hargument⟩ := (argumentsOfAny_eq_some_iff hnames).1 hinside
  exact h (.applied (isArgument_iff.1 hargument).1 (happlied.mono hnames))

theorem argumentsOfAny_eq_none_of_indexed {element : List Char} {size : Nat}
    (hnames : names ⊆ genericNames) (h : Indexed element size cs) :
    argumentsOfAny names cs = none := by
  rw [Option.eq_none_iff_forall_ne_some]
  intro inside hinside
  exact ((argumentsOfAny_eq_some_iff hnames).1 hinside).1.head?_ne hnames h.head?_eq

theorem arrayParts_eq_none_of_applied (hnames : names ⊆ genericNames)
    (h : Applied names inside cs) : arrayParts cs = none := by
  rw [Option.eq_none_iff_forall_ne_some]
  rintro ⟨element, size⟩ hparts
  exact h.head?_ne hnames (arrayParts_eq_some_iff.1 hparts).1.head?_eq

/-- On one line, everything between the brackets is an argument. -/
theorem Applied.argumentsOfAny_eq (hnames : names ⊆ genericNames) (h : Applied names inside cs)
    (hne : inside ≠ []) (hline : '\n' ∉ cs) : argumentsOfAny names cs = some inside := by
  refine (argumentsOfAny_eq_some_iff hnames).2 ⟨h, isArgument_iff.2 ⟨hne, fun hmem => hline ?_⟩⟩
  obtain ⟨name, -, blanks, -, rfl⟩ := h
  simp [hmem]

theorem Indexed.arrayParts_eq {element : List Char} {size : Nat} (h : Indexed element size cs)
    (hne : element ≠ []) (hline : '\n' ∉ cs) : arrayParts cs = some (element, size) := by
  refine arrayParts_eq_some_iff.2 ⟨h, isArgument_iff.2 ⟨hne, fun hmem => hline ?_⟩⟩
  obtain ⟨length, -, -, rfl⟩ := h
  simp [hmem]

/-- A text with an argument begins with a name and ends with a bracket. -/
theorem Applied.trim_eq (hnames : names ⊆ genericNames) (h : Applied names inside cs) :
    trim cs = cs := by
  obtain ⟨name, hname, blanks, -, rfl⟩ := h
  obtain ⟨hne, hplain⟩ := genericNames_plain name (hnames hname)
  have htrim : trim name.toList = name.toList := trim_eq_self fun c hc => (hplain c hc).1
  have hends := trim_append_append (blanks ++ '<' :: inside) hne (List.cons_ne_nil '>' [])
    htrim (by decide)
  simpa using hends

theorem Indexed.trim_eq {element : List Char} {size : Nat} (h : Indexed element size cs) :
    trim cs = cs := by
  obtain ⟨length, -, -, rfl⟩ := h
  exact trim_append_append (element ++ ';' :: length) (List.cons_ne_nil '[' [])
    (List.cons_ne_nil ']' []) (by decide) (by decide)

theorem Spells.trim_eq (h : Spells base shape cs) (hbase : trim base = base) : trim cs = cs := by
  cases h with
  | list _ happlied => exact happlied.trim_eq listNames_subset
  | fixedList _ hindexed => exact hindexed.trim_eq
  | dict _ _ happlied => exact happlied.trim_eq dictNames_subset
  | plain => exact hbase

/-- What spells a shape is no option. -/
theorem Spells.argumentsOfAny_option_eq (h : Spells base shape cs) :
    argumentsOfAny optionNames cs = none := by
  cases h with
  | list _ happlied =>
    exact argumentsOfAny_eq_none listNames_subset optionNames_subset (by decide +kernel) happlied
  | fixedList _ hindexed => exact argumentsOfAny_eq_none_of_indexed optionNames_subset hindexed
  | dict _ _ happlied =>
    exact argumentsOfAny_eq_none dictNames_subset optionNames_subset (by decide +kernel) happlied
  | plain hplain => exact argumentsOfAny_eq_none_of_not_isContainer optionNames_subset hplain

/-- It is read as that shape. -/
theorem Spells.shapeOf_eq (h : Spells base shape cs) (hne : base ≠ []) (htrim : trim base = base)
    (hline : '\n' ∉ cs) : shapeOf cs = (shape, base) := by
  unfold shapeOf
  cases h with
  | list hpadded happlied =>
    rw [happlied.argumentsOfAny_eq listNames_subset (hpadded.ne_nil hne) hline]
    exact congrArg _ (hpadded.trim_eq htrim)
  | fixedList hpadded hindexed =>
    rw [argumentsOfAny_eq_none_of_indexed listNames_subset hindexed,
      hindexed.arrayParts_eq (hpadded.ne_nil hne) hline]
    exact congrArg _ (hpadded.trim_eq htrim)
  | dict hpadded hkey happlied =>
    rw [argumentsOfAny_eq_none dictNames_subset listNames_subset (by decide +kernel) happlied,
      arrayParts_eq_none_of_applied dictNames_subset happlied,
      happlied.argumentsOfAny_eq dictNames_subset (by simp) hline]
    simp only [List.headD_eq_head?_getD, head?_splitArguments hpadded hkey, htrim,
      Option.getD_some]
  | plain hplain =>
    have hparts : arrayParts cs = none := by
      rw [Option.eq_none_iff_forall_ne_some]
      rintro ⟨element, size⟩ h
      obtain ⟨hindexed, hargument⟩ := arrayParts_eq_some_iff.1 h
      exact hplain (.indexed (isArgument_iff.1 hargument).1 hindexed)
    rw [argumentsOfAny_eq_none_of_not_isContainer listNames_subset hplain, hparts,
      argumentsOfAny_eq_none_of_not_isContainer dictNames_subset hplain]

/-- A text on one line spells one shape with one base type at most. -/
theorem Spells.unique {base' : List Char} {shape' : Shape} (h : Spells base shape cs)
    (h' : Spells base' shape' cs) (hne : base ≠ []) (hne' : base' ≠ []) (htrim : trim base = base)
    (htrim' : trim base' = base') (hline : '\n' ∉ cs) : shape = shape' ∧ base = base' :=
  Prod.mk.inj ((h.shapeOf_eq hne htrim hline).symm.trans (h'.shapeOf_eq hne' htrim' hline))

end

/-- **What is spelled is read.** A text on one line that spells a shape is read as this shape with
its base type, and with an option around it as the same type, but optional. -/
theorem ofSpelling_of_spells {base cs : List Char} {shape : Shape} (hne : base ≠ [])
    (htrim : trim base = base) (hline : '\n' ∉ cs) (h : Spells base shape cs) :
    ofSpelling (String.ofList cs) = ⟨categoryOf base, shape, false, String.ofList base⟩ ∧
    ∀ inside wrapped, Padded cs inside → '\n' ∉ inside → Applied optionNames inside wrapped →
      ofSpelling (String.ofList wrapped) =
        ⟨categoryOf base, shape, true, String.ofList base⟩ := by
  have hshape := h.shapeOf_eq hne htrim hline
  constructor
  · simp only [ofSpelling, String.toList_ofList, h.trim_eq htrim, h.argumentsOfAny_option_eq,
      Option.map_none, Option.getD_none, hshape, Option.isSome_none]
  · intro inside wrapped hpadded hinside happlied
    have hcs : cs ≠ [] := by
      rintro rfl
      exact hne (congrArg Prod.snd hshape).symm
    have hinner : argumentsOfAny optionNames wrapped = some inside :=
      (argumentsOfAny_eq_some_iff optionNames_subset).2
        ⟨happlied, isArgument_iff.2 ⟨hpadded.ne_nil hcs, hinside⟩⟩
    simp only [ofSpelling, String.toList_ofList, happlied.trim_eq optionNames_subset, hinner,
      Option.map_some, Option.getD_some, hpadded.trim_eq (h.trim_eq htrim), hshape,
      Option.isSome_some]

/-- A key with brackets and commas, in a dictionary with blanks. -/
theorem compound_key_read :
    ofSpelling "BTreeMap <([u8; 2], i8) , Vec<i8>>" = ⟨.other, .dict, false, "([u8; 2], i8)"⟩ ∧
      ofSpelling "core::option::Option<\tBTreeMap <([u8; 2], i8) , Vec<i8>> >" =
        ⟨.other, .dict, true, "([u8; 2], i8)"⟩ := by
  have hspells : Spells "([u8; 2], i8)".toList .dict
      "BTreeMap <([u8; 2], i8) , Vec<i8>>".toList := by
    refine @Spells.dict _ "([u8; 2], i8) ".toList " Vec<i8>".toList _ ?_ (by decide +kernel) ?_
    · exact ⟨[], [' '], List.forall_mem_nil _, List.forall_mem_singleton.2 rfl, by decide +kernel⟩
    · exact ⟨"BTreeMap", by decide +kernel, [' '], List.forall_mem_singleton.2 rfl,
        by decide +kernel⟩
  obtain ⟨hbare, hoption⟩ :=
    ofSpelling_of_spells (by decide) (by decide +kernel) (by decide +kernel) hspells
  refine ⟨hbare, ?_⟩
  refine hoption "\tBTreeMap <([u8; 2], i8) , Vec<i8>> ".toList
    "core::option::Option<\tBTreeMap <([u8; 2], i8) , Vec<i8>> >".toList ?_ (by decide +kernel) ?_
  · exact ⟨['\t'], [' '], List.forall_mem_singleton.2 rfl, List.forall_mem_singleton.2 rfl,
      by decide +kernel⟩
  · exact ⟨"core::option::Option", by decide +kernel, [], List.forall_mem_nil _,
      by decide +kernel⟩

end FieldRules.FieldType

import ResourceWatch.Rendering

/-!
# Field names

The rendered client names the key of a resource by a field of the request.  That name is legal exactly if the first
letter or digit of the key parameter is a letter (`isFieldName_fieldName_iff`): snake case drops the underscores in
front, so the parameter `_1` is accepted as an identifier and rendered as `1`.
-/

namespace ResourceWatch

open Text

/-! ### Names in the rendered language -/

/-- The reserved words of the rendered language. -/
def reservedWords : List String := [
  "Self", "abstract", "as", "async", "await", "become", "box", "break", "const", "continue", "crate", "do", "dyn",
  "else", "enum", "extern", "false", "final", "fn", "for", "gen", "if", "impl", "in", "let", "loop", "macro", "match",
  "mod", "move", "mut", "override", "priv", "pub", "ref", "return", "self", "static", "struct", "super", "trait",
  "true", "try", "type", "typeof", "unsafe", "unsized", "use", "virtual", "where", "while", "yield"]

/-- The reserved words that stay reserved in raw form. -/
def unrawableWords : List String := ["Self", "crate", "self", "super"]

/-- A small letter or an underscore, and then small letters, digits and underscores, not an underscore alone. -/
def isSmallName : List Char → Bool
  | [] => false
  | c :: cs => (isLower c || c == '_') && (cs.all fun d => isLower d || isDigit d || d == '_') && c :: cs != ['_']

/-- A field may have the name: it is a name in small letters that is not reserved, or the raw form of a reserved
word. -/
inductive IsFieldName : String → Prop
  | small {s : String} (hs : isSmallName s.toList = true) (hfree : s ∉ reservedWords) : IsFieldName s
  | raw {word : String} (hword : word ∈ reservedWords) (hraw : word ∉ unrawableWords) : IsFieldName ("r#" ++ word)

/-- A parameter behind others: a field name with its type. -/
def IsParameter (s : String) : Prop := ∃ x, IsFieldName x ∧ s = ", " ++ x ++ ": String"

/-- The initialiser of a message with one field. -/
def IsInitialiser (s : String) : Prop := ∃ x, IsFieldName x ∧ s = "\x7b " ++ x ++ " \x7d"

/-! ### Field names -/

/-- The characters of an identifier in snake case. -/
theorem mem_snakeCase_of_isIdent {cs : List Char} (h : isIdent cs = true) {c : Char} (hc : c ∈ snakeCase cs) :
    (isLower c || isDigit c || c == '_') = true := by
  rcases mem_snakeCase hc with rfl | ⟨d, hd, rfl⟩
  · decide
  · have hrest := isIdentRest_of_mem h hd
    simp only [isIdentRest, Bool.or_eq_true, beq_iff_eq] at hrest
    rcases hrest with (hletter | hdigit) | rfl
    · simp [isLower_lowerChar.2 hletter]
    · simp [lowerChar_of_isDigit hdigit, hdigit]
    · decide

/-- Every reserved word but one is rendered in another way than as it stands. -/
theorem reservedWords_cases {word : String} (h : word ∈ reservedWords) :
    word = "Self" ∨ word ∈ pathWords ∨ word ∈ rawableWords := by
  revert word
  decide

theorem isFieldName_of_mem_pathWords {word : String} (h : word ∈ pathWords) : IsFieldName (word ++ "_") := by
  have hsmall : ∀ w ∈ pathWords, isSmallName (w ++ "_").toList = true ∧ w ++ "_" ∉ reservedWords := by decide
  exact .small (hsmall word h).1 (hsmall word h).2

theorem isFieldName_of_mem_rawableWords {word : String} (h : word ∈ rawableWords) : IsFieldName ("r#" ++ word) := by
  have hraw : ∀ w ∈ rawableWords, w ∈ reservedWords ∧ w ∉ unrawableWords := by decide
  exact .raw (hraw word h).1 (hraw word h).2

theorem isSmallName_of_head {cs : List Char} {c : Char} (hhead : cs.head? = some c) (hlower : isLower c = true)
    (hall : ∀ d ∈ cs, (isLower d || isDigit d || d == '_') = true) : isSmallName cs = true := by
  cases cs with
  | nil => simp at hhead
  | cons d ds =>
    obtain rfl : d = c := by simpa using hhead
    have hne : d ≠ '_' := by
      rintro rfl
      exact absurd hlower (by decide)
    have hrest : ds.all (fun d => isLower d || isDigit d || d == '_') = true :=
      List.all_eq_true.2 fun e he => hall e (by simp [he])
    simp [isSmallName, hlower, hne]
    simpa using hrest

theorem IsFieldName.head_not_digit {s : String} (h : IsFieldName s) : ∀ c ∈ s.toList.head?, isDigit c = false := by
  cases h with
  | small hs _ =>
    intro c hc
    cases hlist : s.toList with
    | nil => simp [hlist] at hc
    | cons d ds =>
      obtain rfl : d = c := by simpa [hlist] using hc
      simp only [hlist, isSmallName, Bool.and_eq_true] at hs
      rw [Bool.eq_false_iff, ne_eq, isDigit_iff]
      rcases Bool.or_eq_true_iff.1 hs.1.1 with hlower | hunderscore
      · rw [isLower_iff] at hlower
        omega
      · rw [beq_iff_eq.1 hunderscore]
        decide
  | raw _ _ =>
    intro c hc
    obtain rfl : 'r' = c := by simpa using hc
    decide

section Key

variable {key : String} {c : Char}

theorem head?_snakeCase_of_find? (hc : key.toList.find? isWordChar = some c) :
    (String.ofList (snakeCase key.toList)).toList.head? = some (lowerChar c) := by
  rw [String.toList_ofList, head?_snakeCase, hc, Option.map_some]

/-- A name that starts with a digit is rendered as it stands. -/
theorem fieldName_of_isDigit (hc : key.toList.find? isWordChar = some c) (hdigit : isDigit c = true) :
    fieldName key = String.ofList (snakeCase key.toList) := by
  have hhead := head?_snakeCase_of_find? hc
  rw [lowerChar_of_isDigit hdigit] at hhead
  have hfree : ∀ word ∈ pathWords ++ rawableWords, word ≠ String.ofList (snakeCase key.toList) := by
    rintro word hword rfl
    have hletter : ∀ w ∈ pathWords ++ rawableWords, w.toList.head?.any isDigit = false := by decide
    have hfalse := hletter _ hword
    rw [hhead, Option.any_some, hdigit] at hfalse
    exact absurd hfalse (by decide)
  rw [fieldName, if_neg fun h => hfree _ (List.mem_append_left _ h) rfl,
    if_neg fun h => hfree _ (List.mem_append_right _ h) rfl]

/-- A key parameter has a legal field name exactly if its first letter or digit is a letter. -/
theorem isFieldName_fieldName_iff (h : isIdent key.toList = true) (hc : key.toList.find? isWordChar = some c) :
    IsFieldName (fieldName key) ↔ isLetter c = true := by
  have hhead := head?_snakeCase_of_find? hc
  constructor
  · intro hname
    have hword : isLetter c = true ∨ isDigit c = true := by simpa [isWordChar] using List.find?_some hc
    refine hword.resolve_right fun hdigit => ?_
    rw [fieldName_of_isDigit hc hdigit] at hname
    rw [lowerChar_of_isDigit hdigit] at hhead
    rw [hname.head_not_digit c hhead] at hdigit
    exact absurd hdigit (by decide)
  · intro hletter
    have hlower := isLower_lowerChar.2 hletter
    unfold fieldName
    dsimp only
    split
    · rename_i hpath
      exact isFieldName_of_mem_pathWords hpath
    · rename_i hpath
      split
      · rename_i hraw
        exact isFieldName_of_mem_rawableWords hraw
      · rename_i hraw
        refine .small ?_ fun hreserved => ?_
        · refine isSmallName_of_head hhead hlower fun d hd => mem_snakeCase_of_isIdent h ?_
          rwa [String.toList_ofList] at hd
        · rcases reservedWords_cases hreserved with hself | hword | hword
          · rw [hself] at hhead
            rw [← Option.some.inj hhead] at hlower
            exact absurd hlower (by decide)
          · exact hpath hword
          · exact hraw hword

end Key

/-! ### Names in rendered code -/

/-- A text between two others is a field name exactly if the whole is one of their form. -/
theorem exists_between_iff (pre post x : String) :
    (∃ y, IsFieldName y ∧ pre ++ x ++ post = pre ++ y ++ post) ↔ IsFieldName x := by
  constructor
  · rintro ⟨y, hy, heq⟩
    obtain rfl : x = y := String.toList_inj.1 (by simpa using congrArg String.toList heq)
    exact hy
  · exact fun hx => ⟨x, hx, rfl⟩

theorem Resource.key_of_make {name : String} {key : Option String} {r : Resource}
    (h : Resource.make name key = .ok r) : r.key = key := by
  unfold Resource.make at h
  split at h
  · cases key with
    | none =>
      rw [← Except.ok.inj h]
    | some k =>
      dsimp only at h
      split at h
      · rw [← Except.ok.inj h]
      · simp at h
  · simp at h

/-- A resource with a key parameter is rendered with a legal field name, and with a parameter and an initialiser of
such a name, exactly if the first letter or digit of the key parameter is a letter; it has a letter or digit. -/
theorem rendered_key_legal_iff {name key : String} {r : Resource} (h : Resource.make name (some key) = .ok r)
    (naming : Naming) : ∃ c, key.toList.find? isWordChar = some c ∧
      (IsFieldName (fieldName key) ↔ isLetter c = true) ∧
      (∃ s, (Rendering.clientBindings r naming).lookup "param_str" = some s ∧ (IsParameter s ↔ isLetter c = true)) ∧
      ∃ s, (Rendering.clientBindings r naming).lookup "req_init" = some s ∧
        (IsInitialiser s ↔ isLetter c = true) := by
  have hkey := r.key_of_make h
  have hfirst : (snakeCase key.toList).head? ≠ none := by
    have hvalid := r.key_valid key hkey
    rw [isKeyParameter, Bool.and_eq_true, bne_iff_ne] at hvalid
    simpa [List.head?_eq_none_iff] using hvalid.2
  obtain ⟨c, hc⟩ : ∃ c, key.toList.find? isWordChar = some c := by
    rw [head?_snakeCase, ne_eq, Option.map_eq_none_iff] at hfirst
    exact Option.ne_none_iff_exists'.1 hfirst
  have hlegal := isFieldName_fieldName_iff (r.isIdent_key hkey) hc
  refine ⟨c, hc, hlegal, ⟨Rendering.keyParameter r.key, rfl, ?_⟩, ⟨Rendering.requestFields r.key, rfl, ?_⟩⟩
  · rw [hkey, ← hlegal]
    exact exists_between_iff ..
  · rw [hkey, ← hlegal]
    exact exists_between_iff ..

/-- A key parameter that is a reserved word in snake case. -/
theorem reserved_key_is_raw : ∃ r : Resource, Resource.make "Pod" (some "Match") = .ok r ∧ IsFieldName "r#match" ∧
    IsParameter ", r#match: String" ∧ IsInitialiser "\x7b r#match \x7d" := by
  have hmake : Resource.make "Pod" (some "Match") = .ok ⟨"Pod", some "Match", by decide, by decide⟩ := rfl
  obtain ⟨c, hc, hname, ⟨s, hs, hparameter⟩, ⟨s', hs', hinitialiser⟩⟩ := rendered_key_legal_iff hmake {}
  obtain rfl : 'M' = c := Option.some.inj hc
  obtain rfl : ", r#match: String" = s := Option.some.inj hs
  obtain rfl : "\x7b r#match \x7d" = s' := Option.some.inj hs'
  have hfield : fieldName "Match" = "r#match" := by decide
  exact ⟨_, hmake, hfield ▸ hname.2 rfl, hparameter.2 rfl, hinitialiser.2 rfl⟩

/-- A digit behind an underscore is accepted as a key parameter, and rendered as it is. -/
theorem digit_key_is_rendered : ∃ r : Resource, Resource.make "Pod" (some "_1") = .ok r ∧
    fieldName "_1" = "1" ∧ ¬ IsFieldName "1" ∧
    (Rendering.clientBindings r {}).lookup "param_str" = some ", 1: String" ∧ ¬ IsParameter ", 1: String" ∧
    (Rendering.clientBindings r {}).lookup "req_init" = some "\x7b 1 \x7d" ∧ ¬ IsInitialiser "\x7b 1 \x7d" := by
  have hname : ¬ IsFieldName "1" := fun h => absurd (h.head_not_digit '1' rfl) (by decide)
  exact ⟨⟨"Pod", some "_1", by decide, by decide⟩, rfl, by decide, hname, rfl,
    mt (exists_between_iff ", " ": String" "1").1 hname, rfl, mt (exists_between_iff "\x7b " " \x7d" "1").1 hname⟩

end ResourceWatch

import ResourceWatch.Proofs.Settings.Fields
import ResourceWatch.Proofs.Settings.Validation

/-!
# The first flaw of settings

Each field of the settings is asked for one thing (`Field.Sound`): the target variable for a character that is not
white space, the other names for being paths, which are told by a grammar (`PathText`), and the numbers for not being
zero.  The check takes the fields in their order and complains about the first that is not sound
(`Settings.validate_settles`).

A path is read by cutting it at every two colons from left to right.  Where three or more colons stand in a row a
colon is left in some part, which is no word then, so it does not matter where the cuts are (`isPath_iff`).
-/

namespace ResourceWatch

/-! ### The grammar of paths -/

/-- `[A-Za-z_]` -/
def IsWordStart (c : Char) : Prop := 'A' ≤ c ∧ c ≤ 'Z' ∨ 'a' ≤ c ∧ c ≤ 'z' ∨ c = '_'

/-- `[A-Za-z0-9_]` -/
def IsWordRest (c : Char) : Prop := IsWordStart c ∨ '0' ≤ c ∧ c ≤ '9'

/-- `[A-Za-z_][A-Za-z0-9_]*` -/
def IsWord : List Char → Prop
  | [] => False
  | c :: cs => IsWordStart c ∧ ∀ d ∈ cs, IsWordRest d

/-- A word, and any number of further words with two colons in front of each. -/
inductive PathText : List Char → Prop
  | word {cs : List Char} (h : IsWord cs) : PathText cs
  | join {cs path : List Char} (h : IsWord cs) (hpath : PathText path) : PathText (cs ++ ':' :: ':' :: path)

theorem isIdentStart_iff {c : Char} : Text.isIdentStart c = true ↔ IsWordStart c := by
  simp [Text.isIdentStart, Text.isLetter, Text.isUpper, Text.isLower, IsWordStart, or_assoc]

theorem isIdentRest_iff {c : Char} : Text.isIdentRest c = true ↔ IsWordRest c := by
  rw [IsWordRest, ← isIdentStart_iff]
  simp only [Text.isIdentRest, Text.isIdentStart, Text.isDigit, Bool.or_eq_true, Bool.and_eq_true, decide_eq_true_eq]
  rw [or_right_comm]

theorem isIdent_iff {cs : List Char} : Text.isIdent cs = true ↔ IsWord cs := by
  cases cs with
  | nil => simp [Text.isIdent, IsWord]
  | cons c cs => simp [Text.isIdent, IsWord, isIdentStart_iff, isIdentRest_iff]

theorem IsWord.colon_not_mem {cs : List Char} (h : IsWord cs) : ':' ∉ cs :=
  fun hc => absurd (Text.isIdentRest_of_mem (isIdent_iff.2 h) hc) (by decide)

/-! ### Cutting at colons -/

theorem splitColons_of_not_mem {cs : List Char} (h : ':' ∉ cs) : splitColons cs = [cs] := by
  induction cs with
  | nil => rfl
  | cons c cs ih =>
    rw [List.mem_cons, not_or] at h
    rw [splitColons, ih h.2]
    exact fun _ hc => absurd hc.symm h.1

theorem splitColons_append {cs : List Char} (h : ':' ∉ cs) (rest : List Char) :
    splitColons (cs ++ ':' :: ':' :: rest) = cs :: splitColons rest := by
  induction cs with
  | nil => rw [List.nil_append, splitColons]
  | cons c cs ih =>
    rw [List.mem_cons, not_or] at h
    rw [List.cons_append, splitColons, ih h.2]
    exact fun _ hc => absurd hc.symm h.1

theorem splitColons_ne_nil (cs : List Char) : splitColons cs ≠ [] := by
  fun_cases splitColons cs <;> simp_all

/-- Joined again, the parts are the text that was cut. -/
theorem intercalate_splitColons (cs : List Char) : [':', ':'].intercalate (splitColons cs) = cs := by
  -- along the cuts: at two colons a part ends, and any other character goes to the part that follows
  fun_induction splitColons cs with
  | case1 => rfl
  | case2 cs ih =>
    rw [List.intercalate_cons_of_ne_nil (splitColons_ne_nil cs), ih]
    rfl
  | case3 c cs _ hnil _ => exact absurd hnil (splitColons_ne_nil cs)
  | case4 c cs _ part parts hparts ih =>
    rw [hparts] at ih
    cases parts with
    | nil => simpa using ih
    | cons part' parts =>
      rw [List.intercalate_cons_cons] at ih ⊢
      simpa using ih

theorem pathText_intercalate {parts : List (List Char)} (hne : parts ≠ []) (h : ∀ part ∈ parts, IsWord part) :
    PathText ([':', ':'].intercalate parts) := by
  induction parts with
  | nil => exact absurd rfl hne
  | cons part parts ih =>
    have hpart : IsWord part := h part (by simp)
    by_cases hparts : parts = []
    · rw [hparts, List.intercalate_singleton]
      exact .word hpart
    · rw [List.intercalate_cons_of_ne_nil hparts, List.append_assoc]
      exact .join hpart (ih hparts fun p hp => h p (by simp [hp]))

/-- The parts between the colons are words exactly if the grammar of paths has the text. -/
theorem isPath_iff {s : String} : isPath s = true ↔ PathText s.toList := by
  unfold isPath
  rw [List.all_eq_true]
  constructor
  · intro h
    rw [← intercalate_splitColons s.toList]
    exact pathText_intercalate (splitColons_ne_nil _) fun part hpart => isIdent_iff.1 (h part hpart)
  · intro h
    generalize s.toList = cs at h ⊢
    induction h with
    | word hword =>
      rw [splitColons_of_not_mem hword.colon_not_mem]
      simpa using isIdent_iff.2 hword
    | join hword _ ih =>
      rw [splitColons_append hword.colon_not_mem]
      simpa using ⟨isIdent_iff.2 hword, ih⟩

example : isPath "a::b_1" = true ∧ isPath "a:::b" = false ∧ isPath "::a" = false := by decide

/-! ### Sound fields -/

namespace Field

/-- What the check asks of a field. -/
def Sound (s : Settings) : Field → Prop
  | .name .targetEnv => ∃ c ∈ s.codegen.targetEnv.toList, Text.isSpace c = false
  | .name f => PathText (f.get s.codegen).toList
  | .number f => f.get s ≠ 0

/-- What the check complains about if a field is not sound. -/
def flaw (s : Settings) : Field → Flaw
  | .name .targetEnv => .blankTarget
  | .name f => .notPath f (f.get s.codegen)
  | .number f => .zero f

/-- A complaint names the field by its section and its key. -/
theorem message_flaw (s : Settings) (f : Field) :
    ∃ words, (f.flaw s).message = f.home.key ++ "." ++ f.key ++ " " ++ words := by
  have hpath : ∀ (f : NameField) value, (Flaw.notPath f value).message =
      Section.codegen.key ++ "." ++ f.key ++ " " ++ ("must be a Rust path, got " ++ Text.quote value) := by
    intro f value
    have hhome : "codegen." = Section.codegen.key ++ "." := rfl
    have hwords : " must be a Rust path, got " = " " ++ "must be a Rust path, got " := rfl
    rw [Flaw.message, hhome, hwords]
    simp only [String.append_assoc]
  rcases f with f | f
  · cases f with
    | targetEnv => exact ⟨"cannot be empty", rfl⟩
    | _ => exact ⟨_, hpath _ _⟩
  · cases f with
    | requestTimeout => exact ⟨"must be at least 1ms", rfl⟩
    | _ => exact ⟨"must be greater than 0", rfl⟩

/-- The field as the check looks at it. -/
def passes (s : Settings) : Field → Bool
  | .name .targetEnv => Text.hasInk s.codegen.targetEnv
  | .name f => isPath (f.get s.codegen)
  | .number f => f.get s != 0

theorem passes_iff {s : Settings} {f : Field} : f.passes s = true ↔ f.Sound s := by
  rcases f with f | f
  · cases f with
    | targetEnv => simp [passes, Sound, Text.hasInk]
    | _ => exact isPath_iff
  · exact bne_iff_ne

end Field

namespace Settings

variable {s t : Settings} {flaw : Flaw}

/-- The check takes all fields in their order. -/
theorem flaw?_eq_findSome? (s : Settings) :
    s.flaw? = Field.all.findSome? fun f => if f.passes s then none else some (f.flaw s) := by
  have hnumber : (fun f : NumberField => if f.get s = 0 then some (Flaw.zero f) else none) =
      fun f => if (Field.number f).passes s then none else some ((Field.number f).flaw s) := by
    funext f
    by_cases h : f.get s = 0 <;> simp [Field.passes, Field.flaw, h]
  have hall : Field.all = [.name .targetEnv] ++ ([NameField.protoModule, .runtimeCrate, .clientType].map .name ++
      [NumberField.requestTimeout, .watchQueue, .eventBuffer, .replyBuffer].map .number) := rfl
  -- a search through three lists, one behind the other, is the check with its three parts
  rw [flaw?, hall, hnumber, List.findSome?_append, List.findSome?_append, List.findSome?_map, List.findSome?_map,
    List.findSome?_singleton]
  by_cases hink : Text.hasInk s.codegen.targetEnv = true
  · rw [if_neg (by simp [hink]), Field.passes, if_pos hink, Option.none_or, Option.orElse_eq_orElse,
      Option.orElse_eq_or]
    rfl
  · rw [if_pos (by simp [hink]), Field.passes, if_neg hink, Option.some_or]
    rfl

theorem flaw?_eq_some_iff : s.flaw? = some flaw ↔ ∃ pre f post, Field.all = pre ++ f :: post ∧
    (∀ g ∈ pre, g.Sound s) ∧ ¬ f.Sound s ∧ flaw = f.flaw s := by
  rw [flaw?_eq_findSome?, List.findSome?_eq_some_iff]
  refine exists_congr fun pre => exists_congr fun f => exists_congr fun post => and_congr_right fun _ => ?_
  have hpre : (∀ g ∈ pre, (if g.passes s then none else some (g.flaw s)) = none) ↔ ∀ g ∈ pre, g.Sound s :=
    forall₂_congr fun g _ => by simp [Field.passes_iff]
  rw [hpre, and_comm, and_congr_right_iff]
  intro _
  rw [← Field.passes_iff]
  by_cases h : f.passes s = true <;> simp [h, eq_comm]

theorem flaw?_eq_none_iff_sound : s.flaw? = none ↔ ∀ f : Field, f.Sound s := by
  rw [flaw?_eq_findSome?, List.findSome?_eq_none_iff]
  constructor
  · intro h f
    simpa [Field.passes_iff] using h f f.mem_all
  · exact fun h f _ => if_pos (Field.passes_iff.2 (h f))

/-- Settings are accepted as they are if every field is sound; otherwise the check complains about the first field
that is not, and names it. -/
theorem validate_settles (s : Settings) :
    (∀ t, s.validate = .ok t ↔ t = s ∧ ∀ f : Field, f.Sound s) ∧
    (∀ flaw, s.validate = .error flaw ↔ ∃ pre f post, Field.all = pre ++ f :: post ∧ (∀ g ∈ pre, g.Sound s) ∧
      ¬ f.Sound s ∧ flaw = f.flaw s) ∧
    ∀ f : Field, ∃ words, (f.flaw s).message = f.home.key ++ "." ++ f.key ++ " " ++ words := by
  refine ⟨fun t => ?_, fun flaw => ?_, fun f => f.message_flaw s⟩
  · rw [← flaw?_eq_none_iff_sound, flaw?_eq_none_iff, validate_eq_ok_iff]
  · rw [← flaw?_eq_some_iff, validate]
    cases s.flaw? <;> simp

end Settings

end ResourceWatch

import ResourceWatch.Proofs.Number.WholeNumbers
import ResourceWatch.Proofs.Settings.Layers
import ResourceWatch.Proofs.Settings.Validation

/-!
# Variables as they arrive

The text of a variable is tried as a truth value, as a whole number of 64 bits and as another number before it is a
text.  A field that one variable sets therefore has the text of the variable unless that text is a literal, and then
it has the literal written out anew; a number has the value that its digits name below `2 ^ 63`, and from there on the
nearest double (`fields_from_variables`).
-/

namespace ResourceWatch

open ValueTree

/-! ### Words that are numbers -/

namespace Number

open Text (isIdentStart isDigit)

theorem isDigit_of_isIdentStart {c : Char} (h : isIdentStart c = true) : isDigit c = false := by
  rw [Bool.eq_false_iff, ne_eq, Text.isDigit_iff]
  simp only [isIdentStart, Text.isLetter, Bool.or_eq_true, Text.isUpper_iff, Text.isLower_iff, beq_iff_eq] at h
  rcases h with h | rfl
  · omega
  · decide

section Words

variable {c : Char} {cs : List Char}

theorem splitSign_of_isIdentStart (h : isIdentStart c = true) : splitSign (c :: cs) = (false, c :: cs) :=
  splitSign_cons cs (Text.isIdentRest_of_isIdentStart h)

theorem readInteger?_of_isIdentStart (h : isIdentStart c = true) : readInteger? (c :: cs) = none := by
  simp [readInteger?, splitSign_of_isIdentStart h, readNatural?, isDigit_of_isIdentStart h]

theorem readUnsigned?_of_isIdentStart (negative : Bool) (h : isIdentStart c = true) :
    readUnsigned? negative (c :: cs) = none := by
  have hpoint : c ≠ '.' := by
    rintro rfl
    exact absurd h (by decide)
  have hdigit := isDigit_of_isIdentStart h
  unfold readUnsigned?
  rw [List.takeWhile_cons_of_neg (by simp [hdigit]), List.dropWhile_cons_of_neg (by simp [hdigit])]
  split
  rename_i heq
  split at heq
  · rename_i heq'
    exact absurd (List.cons.inj heq').1 hpoint
  · rw [Prod.mk.injEq] at heq
    rw [← heq.1]
    rfl

/-- What starts as an identifier is a number only as one of three words. -/
theorem Double.read?_of_isIdentStart (h : isIdentStart c = true) : Double.read? (c :: cs) =
    if (c :: cs).map Text.lowerChar = "nan".toList then some .nan
    else if (c :: cs).map Text.lowerChar = "inf".toList ∨ (c :: cs).map Text.lowerChar = "infinity".toList then
      some (.infinite false)
    else none := by
  rw [Double.read?, splitSign_of_isIdentStart h]
  simp only [readUnsigned?_of_isIdentStart false h, Option.map_none]

end Words

end Number

/-! ### The text of a literal -/

/-- What is read from a path that is a literal. -/
def pathLiterals : Dictionary String String :=
  [("true", "true"), ("false", "false"), ("nan", "NaN"), ("inf", "inf"), ("infinity", "inf")]

theorem string_variableValue_of_isPath {value : String} (h : isPath value = true) :
    (variableValue value).string = .ok ((pathLiterals.lookup (Text.lowerAscii value)).getD value) := by
  unfold isPath at h
  cases hcs : value.toList with
  | nil =>
    rw [hcs] at h
    exact absurd h (by decide)
  | cons c cs =>
    rw [hcs] at h
    have hstart := isIdentStart_of_isPath h
    have hword : ∀ word : String, (c :: cs).map Text.lowerChar = word.toList ↔ Text.lowerAscii value = word := by
      intro word
      rw [Text.lowerAscii, hcs, ← String.toList_inj, String.toList_ofList]
    simp only [variableValue, Scalar.ofText, hcs, Number.readInteger?_of_isIdentStart hstart,
      Number.Double.read?_of_isIdentStart hstart, hword, Option.filter_none]
    generalize Text.lowerAscii value = word
    by_cases hmem : word ∈ Dictionary.keys pathLiterals
    · simp only [Dictionary.keys, pathLiterals, List.map_cons, List.map_nil, List.mem_cons, List.not_mem_nil,
        or_false] at hmem
      rcases hmem with rfl | rfl | rfl | rfl | rfl <;> rfl
    · have hlookup : pathLiterals.lookup word = none :=
        Decidable.byContradiction fun h => hmem (Dictionary.mem_keys_iff.2 h)
      simp only [Dictionary.keys, pathLiterals, List.map_cons, List.map_nil, List.mem_cons, List.not_mem_nil,
        or_false, not_or] at hmem
      simp [hlookup, hmem, ValueTree.string]

section Literals

variable {value : String}

/-- No truth value is a number. -/
theorem Number.Double.read?_of_truth (h : Text.lowerAscii value = "true" ∨ Text.lowerAscii value = "false") :
    Number.Double.read? value.toList = none := by
  have hlist : value.toList.map Text.lowerChar = "true".toList ∨
      value.toList.map Text.lowerChar = "false".toList := by
    refine h.imp (fun h => ?_) fun h => ?_ <;> rw [← h, Text.lowerAscii, String.toList_ofList]
  cases hcs : value.toList with
  | nil => simp [hcs] at hlist
  | cons c cs =>
    rw [hcs] at hlist
    have hletter : Text.isLetter c = true := by
      rw [← Text.isLower_lowerChar]
      rcases hlist with h | h <;> rw [(List.cons.inj h).1] <;> decide
    have hstart : Text.isIdentStart c = true := by simp [Text.isIdentStart, hletter]
    rw [Number.Double.read?_of_isIdentStart hstart]
    rcases hlist with h | h <;> rw [h] <;> decide

theorem Scalar.ofText_of_integer {n : Int} (h : Number.readInteger? value.toList = some n)
    (hn : Number.inSigned64 n = true) : Scalar.ofText value = .integer n := by
  have htruth := mt Number.Double.read?_of_truth (Number.Double.read?_ne_none_of_readInteger? h)
  rw [not_or] at htruth
  rw [Scalar.ofText, if_neg htruth.1, if_neg htruth.2, h, Option.filter_some, if_pos hn]

theorem Scalar.ofText_of_double {x : Number.Double} (h : Number.Double.read? value.toList = some x)
    (hn : ∀ n, Number.readInteger? value.toList = some n → Number.inSigned64 n = false) :
    Scalar.ofText value = .float x := by
  have htruth : ¬ (Text.lowerAscii value = "true" ∨ Text.lowerAscii value = "false") := by
    intro htruth
    rw [Number.Double.read?_of_truth htruth] at h
    simp at h
  have hinteger : (Number.readInteger? value.toList).filter Number.inSigned64 = none := by
    cases hread : Number.readInteger? value.toList with
    | none => rfl
    | some n => simp [Option.filter_some, hn n hread]
  rw [not_or] at htruth
  rw [Scalar.ofText, if_neg htruth.1, if_neg htruth.2, hinteger, h]

theorem Scalar.ofText_of_none (h : Number.Double.read? value.toList = none)
    (htruth : Text.lowerAscii value ∉ ["true", "false"]) : Scalar.ofText value = .text value := by
  have hinteger : Number.readInteger? value.toList = none := by
    cases hn : Number.readInteger? value.toList with
    | none => rfl
    | some n => exact absurd h (Number.Double.read?_ne_none_of_readInteger? hn)
  simp only [List.mem_cons, List.not_mem_nil, or_false, not_or] at htruth
  rw [Scalar.ofText, if_neg htruth.1, if_neg htruth.2, hinteger, h]
  rfl

theorem string_variableValue_of_truth (h : Text.lowerAscii value ∈ ["true", "false"]) :
    (variableValue value).string = .ok (Text.lowerAscii value) := by
  simp only [List.mem_cons, List.not_mem_nil, or_false] at h
  rcases h with h | h <;> simp [variableValue, Scalar.ofText, ValueTree.string, h]

theorem number_variableValue {n : Nat} (h : Number.readNatural? value.toList = some n) (hn : n < Number.unsignedEnd) :
    (variableValue value).number = .ok (if n < Number.signedEnd then n
      else min (2048 * Number.Double.roundHalfEven n 2048) (Number.unsignedEnd - 1)) := by
  have hinteger := Number.readInteger?_of_readNatural? h
  have hin : Number.inSigned64 n = decide (n < Number.signedEnd) := by
    have hlow : -(Number.signedEnd : Int) ≤ n := by omega
    simp [Number.inSigned64, hlow]
  split
  · rename_i hsigned
    have hnonneg : ¬ (n : Int) < 0 := by omega
    rw [variableValue, Scalar.ofText_of_integer hinteger (by simp [hin, hsigned]), ValueTree.number, if_neg hnonneg]
    rfl
  · rename_i hsigned
    have hdouble := Number.Double.read?_of_splitSign (Number.splitSign_of_readNatural? h) h
    have hout : ∀ i, Number.readInteger? value.toList = some i → Number.inSigned64 i = false := by
      intro i hi
      rw [hinteger, Option.some.injEq] at hi
      rw [← hi, hin]
      simpa using hsigned
    rw [variableValue, Scalar.ofText_of_double hdouble hout, ValueTree.number,
      Number.Double.toUnsigned64_ofDecimal (Nat.le_of_not_lt hsigned) hn]

end Literals

/-! ### A field that one variable sets -/

namespace ValueTree

/-- The field has the value, or one that cannot be read. -/
def HoldsOrSpoilt (t : ValueTree) (f : Field) (v : ValueTree) : Prop :=
  ∃ w, t.Holds f w ∧ (w = v ∨ ∀ x, f.read w ≠ .ok x)

variable {t v : ValueTree} {f : Field}

theorem HoldsOrSpoilt.mergeAt {origin : Option String} {x : Scalar} {path : Path} (h : t.HoldsOrSpoilt f v)
    (hwhole : path.lower.isWhole f.home = false) (hself : path.lower = f.path → .scalar origin x = v) :
    (ValueTree.mergeAt (.scalar origin x) path t).HoldsOrSpoilt f v := by
  obtain ⟨w, hw, hread⟩ := h
  rcases Path.touches_or_within hwhole with htouch | ⟨rest, hrest⟩
  · exact ⟨w, hw.mergeAt_of_not_touches htouch, hread⟩
  · refine ⟨_, hw.mergeAt_within hrest, ?_⟩
    cases rest with
    | nil => exact .inl (hself (by simpa using hrest))
    | cons step rest => exact .inr (Field.read_mergeAt_ne_ok _ step rest _)

theorem HoldsOrSpoilt.mergeLayer {layer : Layer} (h : t.HoldsOrSpoilt f v)
    (hlayer : ∀ e ∈ layer, (∃ origin x, e.2 = .scalar origin x) ∧ e.1.lower.isWhole f.home = false ∧
      (e.1.lower = f.path → e.2 = v)) : (t.mergeLayer layer).HoldsOrSpoilt f v := by
  induction layer generalizing t with
  | nil => exact h
  | cons e layer ih =>
    obtain ⟨⟨origin, x, hx⟩, hwhole, hself⟩ := hlayer e (by simp)
    have hone := h.mergeAt hwhole (hx ▸ hself)
    rw [← hx] at hone
    exact ih hone fun e' he' => hlayer e' (by simp [he'])

end ValueTree

theorem Field.isSetBy_iff {f : Field} {e : String × String} :
    f.isSetBy e = true ↔ e.2 ≠ "" ∧ ∃ path, variablePath? e.1 = some path ∧ path.lower = f.path := by
  simp [isSetBy, Option.any_eq_true]

namespace Environment

/-- One variable, or several that agree, sets the field to the text, and no variable bears on the section of the field
as a whole. -/
structure Sets (env : Environment) (f : Field) (value : String) : Prop where
  mem : ∃ e ∈ env, f.isSetBy e = true
  once : ∀ e ∈ env, f.isSetBy e = true → e.2 = value
  apart : ∀ e ∈ env, e.2 ≠ "" → ∀ path ∈ variablePath? e.1, path.lower.isWhole f.home = false

instance (env : Environment) (f : Field) (value : String) : Decidable (env.Sets f value) :=
  decidable_of_iff ((∃ e ∈ env, f.isSetBy e = true) ∧ (∀ e ∈ env, f.isSetBy e = true → e.2 = value) ∧
      ∀ e ∈ env, e.2 ≠ "" → ∀ path ∈ variablePath? e.1, path.lower.isWhole f.home = false)
    ⟨fun h => ⟨h.1, h.2.1, h.2.2⟩, fun h => ⟨h.1, h.2, h.3⟩⟩

variable {env : Environment} {f : Field} {value : String}

theorem Sets.holdsOrSpoilt (h : env.Sets f value) (t : ValueTree) :
    (t.mergeLayer env.layer).HoldsOrSpoilt f (variableValue value) := by
  obtain ⟨⟨name, value'⟩, hmem, hset⟩ := h.mem
  obtain rfl : value = value' := (h.once _ hmem hset).symm
  obtain ⟨hvalue, path, hpath, hself⟩ := Field.isSetBy_iff.1 hset
  obtain ⟨pre, post, hsplit⟩ := List.append_of_mem hmem
  have hentry : item? (name, value) = some (path, variableValue value) :=
    item?_eq_some_iff.2 ⟨hvalue, hpath, rfl⟩
  have hlayer : env.layer = layer pre ++ (path, variableValue value) :: layer post := by
    rw [layer_eq, hsplit, List.filterMap_append, List.filterMap_cons, hentry]
    rfl
  -- the variables behind the one in question leave its value, or spoil it
  have hpost : ∀ e ∈ layer post, (∃ origin x, e.2 = .scalar origin x) ∧
      e.1.lower.isWhole f.home = false ∧ (e.1.lower = f.path → e.2 = variableValue value) := by
    intro e he
    obtain ⟨e', hmem', hvalue', hpath', he⟩ := mem_layer_iff.1 he
    have henv : e' ∈ env := by simp [hsplit, hmem']
    refine ⟨⟨_, _, he⟩, h.apart e' henv hvalue' _ hpath', fun hself' => ?_⟩
    rw [he, h.once e' henv (Field.isSetBy_iff.2 ⟨hvalue', _, hpath', hself'⟩)]
  have hset : (mergeAt (variableValue value) path (t.mergeLayer (layer pre))).HoldsOrSpoilt f (variableValue value) :=
    ⟨_, Holds.of_mergeAt_scalar hself _ _ _, .inl rfl⟩
  rw [hlayer, ValueTree.mergeLayer, List.foldl_append]
  exact hset.mergeLayer hpost

/-- A field that a variable sets is read from it. -/
theorem Sets.read_eq (h : env.Sets f value) {t : ValueTree} {x : f.Content}
    (hread : f.readIn (t.mergeLayer env.layer) = .ok x) : f.read (variableValue value) = .ok x := by
  obtain ⟨w, hw, hvalue⟩ := h.holdsOrSpoilt t
  rw [Field.readIn_eq_ok_iff hw] at hread
  rcases hvalue with rfl | hspoilt
  · exact hread
  · exact absurd hread (hspoilt x)

end Environment

/-! ### Loaded fields -/

/-- Settings that load have, in each field that one variable sets, what the variable says: a path as it is, unless it
reads as a truth value or as no number; the target variable as it is, unless it reads as a truth value or a number;
and a number as it is below `2 ^ 63`, and from there on rounded as a double. -/
theorem fields_from_variables {env : Environment} {t : FileTree} {s : Settings} (h : Settings.load env t = .ok s) :
    (∀ (f : NameField) (value : String), f ≠ .targetEnv → env.Sets (.name f) value → isPath value = true →
      f.get s.codegen = (pathLiterals.lookup (Text.lowerAscii value)).getD value) ∧
    (∀ value : String, env.Sets (.name .targetEnv) value →
      (Number.Double.read? value.toList = none → Text.lowerAscii value ∉ ["true", "false"] →
        s.codegen.targetEnv = value) ∧
      (Text.lowerAscii value ∈ ["true", "false"] → s.codegen.targetEnv = Text.lowerAscii value) ∧
      (∀ n, Number.readInteger? value.toList = some n → Number.inSigned64 n = true →
        s.codegen.targetEnv = n.repr) ∧
      ∀ x, Number.Double.read? value.toList = some x →
        (∀ n, Number.readInteger? value.toList = some n → Number.inSigned64 n = false) →
        s.codegen.targetEnv = x.write .plain) ∧
    ∀ (f : NumberField) (value : String) (n : Nat), env.Sets (.number f) value →
      Number.readNatural? value.toList = some n → n < Number.unsignedEnd →
      (n < Number.signedEnd → f.get s = n) ∧
      (Number.signedEnd ≤ n →
        ∃ m, Number.Double.IsNearest n 2048 m ∧ f.get s = min (2048 * m) (Number.unsignedEnd - 1)) := by
  obtain ⟨file, hfile⟩ := exists_file_of_layered h
  rw [Settings.load, layered_eq fitsLayer_default hfile] at h
  have hread : ∀ (f : Field) (value : String), env.Sets f value → f.read (variableValue value) = .ok (f.get s) :=
    fun f value hset => hset.read_eq (Settings.ofTree_eq_ok_iff.1 h f)
  have htext : ∀ (f : NameField) (value text : String), env.Sets (.name f) value →
      (variableValue value).string = .ok text → f.get s.codegen = text := by
    intro f value text hset htext
    exact Except.ok.inj ((hread (.name f) value hset).symm.trans htext)
  refine ⟨fun f value _ hset hpath => ?_, fun value hset => ⟨fun hnone htruth => ?_, fun htruth => ?_,
    fun n hn hin => ?_, fun x hx hout => ?_⟩, fun f value n hset hn hend => ?_⟩
  · exact htext f value _ hset (string_variableValue_of_isPath hpath)
  · refine htext .targetEnv value _ hset ?_
    rw [variableValue, Scalar.ofText_of_none hnone htruth, ValueTree.string]
  · exact htext .targetEnv value _ hset (string_variableValue_of_truth htruth)
  · refine htext .targetEnv value _ hset ?_
    rw [variableValue, Scalar.ofText_of_integer hn hin, ValueTree.string]
  · refine htext .targetEnv value _ hset ?_
    rw [variableValue, Scalar.ofText_of_double hx hout, ValueTree.string]
  · have hnumber : f.get s = _ :=
      Except.ok.inj ((hread (.number f) value hset).symm.trans (number_variableValue hn hend))
    refine ⟨fun hlow => ?_, fun hhigh => ⟨_, Number.Double.isNearest_roundHalfEven n (by decide), ?_⟩⟩
    · rwa [if_pos hlow] at hnumber
    · rwa [if_neg (Nat.not_lt.2 hhigh)] at hnumber

/-- A path, a number as the target variable and a large number beside each other. -/
theorem fields_from_three_variables : ∃ (env : Environment) (s : Settings), Settings.load env {} = .ok s ∧
    env.Sets (.name .protoModule) "crate::api" ∧ s.codegen.protoModule = "crate::api" ∧
    env.Sets (.name .targetEnv) "007" ∧ s.codegen.targetEnv = "7" ∧
    env.Sets (.number .watchQueue) "9223372036854777857" ∧
    ∃ m, Number.Double.IsNearest 9223372036854777857 2048 m ∧
      s.client.watchQueue = min (2048 * m) (Number.unsignedEnd - 1) := by
  let env : Environment := [("GETWATCH__CODEGEN__PROTO_MODULE", "crate::api"),
    ("GETWATCH__CODEGEN__TARGET_ENV", "007"), ("getwatch__client__Watch_Queue_Size", "9223372036854777857")]
  have hload : Settings.load env {} =
      .ok ⟨{ protoModule := "crate::api", targetEnv := "7" }, ⟨3000, 9223372036854777856⟩, {}⟩ := by decide +kernel
  have hpath : env.Sets (.name .protoModule) "crate::api" := by decide +kernel
  have htarget : env.Sets (.name .targetEnv) "007" := by decide +kernel
  have hnumber : env.Sets (.number .watchQueue) "9223372036854777857" := by decide +kernel
  have hfields := fields_from_variables hload
  have hrounded := hfields.2.2 .watchQueue _ 9223372036854777857 hnumber (by decide +kernel) (by decide +kernel)
  exact ⟨env, _, hload, hpath, hfields.1 .protoModule _ (by decide) hpath (by decide +kernel), htarget,
    (hfields.2.1 _ htarget).2.2.1 7 (by decide +kernel) (by decide +kernel), hnumber, hrounded.2 (by decide +kernel)⟩

/-- A path that reads as a truth value loses its capital letter, a target variable that reads as a number loses its
zeros, a number above `2 ^ 63` is rounded, and a variable for an item of a section takes the place of all its
fields. -/
theorem variable_altered_on_the_way :
    (∃ (env : Environment) (s : Settings), Settings.load env {} = .ok s ∧
      (env.Sets (.name .protoModule) "True" ∧ isPath "True" = true ∧ s.codegen.protoModule = "true") ∧
      (env.Sets (.name .targetEnv) "007" ∧ Text.hasInk "007" = true ∧ s.codegen.targetEnv = "7") ∧
      env.Sets (.number .watchQueue) "9223372036854775809" ∧ s.client.watchQueue = 9223372036854775808) ∧
    ∃ (env : Environment) (s : Settings), Settings.load env {} = .ok s ∧
      env.filter (Field.isSetBy (.number .watchQueue)) = [("GETWATCH__CLIENT__WATCH_QUEUE_SIZE", "5")] ∧
      s.client.watchQueue = 1 := by
  constructor
  · exact ⟨[("GETWATCH__CODEGEN__PROTO_MODULE", "True"), ("GETWATCH__CODEGEN__TARGET_ENV", "007"),
        ("GETWATCH__CLIENT__WATCH_QUEUE_SIZE", "9223372036854775809")],
      ⟨{ protoModule := "true", targetEnv := "7" }, ⟨3000, 9223372036854775808⟩, {}⟩, by decide +kernel,
      by decide +kernel, by decide +kernel, by decide +kernel, rfl⟩
  · exact ⟨[("GETWATCH__CLIENT__WATCH_QUEUE_SIZE", "5"), ("GETWATCH__CLIENT[0]", "7")], { client := ⟨7, 1⟩ },
      by decide +kernel, by decide +kernel, rfl⟩

end ResourceWatch

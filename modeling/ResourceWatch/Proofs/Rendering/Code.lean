import ResourceWatch.Proofs.Rendering.Filled
import ResourceWatch.Proofs.Rendering.Shape
import ResourceWatch.Proofs.Settings.Validation

/-!
# The lines of a rendered body

With settings that pass their check, no value for a slot holds a line feed.  Then the lines of a body are those that
it is written in, and none of them is a tag line of any key, since each starts with something else
(`clientBody_isCode`, `serverBody_isCode`).
-/

namespace ResourceWatch

/-- The naming settings are those of settings that pass the check. -/
def Naming.Accepted (naming : Naming) : Prop := ∃ s : Settings, s.codegen = naming ∧ s.validate = .ok s

theorem Naming.Accepted.isPath {naming : Naming} (h : naming.Accepted) :
    isPath naming.protoModule = true ∧ isPath naming.runtimeCrate = true ∧ isPath naming.clientType = true := by
  obtain ⟨s, rfl, hs⟩ := h
  obtain ⟨-, -, hpath, -⟩ := Settings.validate_eq_ok_iff.1 hs
  exact ⟨hpath .protoModule (by simp), hpath .runtimeCrate (by simp), hpath .clientType (by simp)⟩

namespace Rendering

open Region (Key TagKind regionOf)

/-! ### Pieces of one line -/

/-- The text has no line feed. -/
def OneLine (s : String) : Prop := '\n' ∉ s.toList

theorem OneLine.append {s t : String} (hs : OneLine s) (ht : OneLine t) : OneLine (s ++ t) := by
  unfold OneLine at *
  rw [String.toList_append, List.mem_append]
  exact not_or.2 ⟨hs, ht⟩

theorem OneLine.text {cs : List Char} (h : cs.all (· != '\n') = true) : OneLine (String.ofList cs) := by
  rw [OneLine, String.toList_ofList]
  intro hc
  simpa using List.all_eq_true.1 h _ hc

/-- The text is a line that is no tag line. -/
def IsCode (s : String) : Prop := OneLine s ∧ ∀ (key : Key) kind, key.isTag kind s.toList = false

/-- A line that starts so is no tag line, whatever stands behind. -/
def StartsCode (s : String) : Prop :=
  OneLine s ∧ ∀ rest (key : Key) kind, key.isTag kind (s.toList ++ rest) = false

/-- What every tag starts with. -/
def slashes : List Char := ['/', '/', ' ']

theorem slashes_prefix_tag (key : Key) (kind : TagKind) : slashes <+: (key.tag kind).toList := by
  have hmark : ∃ cs, Region.tagMark.toList = slashes ++ cs := ⟨_, rfl⟩
  obtain ⟨cs, hmark⟩ := hmark
  rw [Key.toList_tag, hmark, List.append_assoc]
  exact List.prefix_append _ _

/-- Behind its indentation, the text is neither a start of the slashes nor starts with them. -/
def avoidsSlashes (cs : List Char) : Bool :=
  let body := cs.dropWhile Region.isBlank
  !body.isPrefixOf slashes && !slashes.isPrefixOf body

theorem StartsCode.text {cs : List Char} (hline : cs.all (· != '\n') = true) (h : avoidsSlashes cs = true) :
    StartsCode (String.ofList cs) := by
  refine ⟨OneLine.text hline, fun rest key kind => ?_⟩
  rw [String.toList_ofList]
  simp only [avoidsSlashes, Bool.and_eq_true, Bool.not_eq_true'] at h
  obtain ⟨hshort, hlong⟩ := h
  have hne : (cs.dropWhile Region.isBlank).isEmpty = false := by
    cases hbody : cs.dropWhile Region.isBlank with
    | nil => simp [hbody] at hshort
    | cons d ds => rfl
  have hbody : (cs ++ rest).dropWhile Region.isBlank = cs.dropWhile Region.isBlank ++ rest := by
    rw [List.dropWhile_append, if_neg (by simp [hne])]
  rw [Key.isTag, Region.isTagLine, hbody, Bool.and_eq_false_iff]
  left
  rw [Bool.eq_false_iff]
  intro htag
  -- both the slashes and the text start the line, so one of them starts the other
  have hslashes := (slashes_prefix_tag key kind).trans (List.isPrefixOf_iff_prefix.1 htag)
  rcases List.prefix_or_prefix_of_prefix hslashes (List.prefix_append _ _) with h | h
  · rw [List.isPrefixOf_iff_prefix.2 h] at hlong
    simp at hlong
  · rw [List.isPrefixOf_iff_prefix.2 h] at hshort
    simp at hshort

theorem StartsCode.append {s t : String} (hs : StartsCode s) (ht : OneLine t) : StartsCode (s ++ t) := by
  refine ⟨hs.1.append ht, fun rest key kind => ?_⟩
  rw [String.toList_append, List.append_assoc]
  exact hs.2 _ key kind

/-- Indentation does not count. -/
theorem StartsCode.indent {cs : List Char} {s : String} (hcs : cs.all Region.isBlank = true) (h : StartsCode s) :
    StartsCode (String.ofList cs ++ s) := by
  have hblank : ∀ c ∈ cs, Region.isBlank c = true := List.all_eq_true.1 hcs
  refine ⟨OneLine.append ?_ h.1, fun rest key kind => ?_⟩
  · intro hc
    rw [String.toList_ofList] at hc
    exact absurd (hblank _ hc) (by decide)
  · have := h.2 rest key kind
    rw [Key.isTag, Region.isTagLine] at this ⊢
    rwa [String.toList_append, String.toList_ofList, List.append_assoc, List.dropWhile_append_of_pos hblank]

theorem StartsCode.isCode {s : String} (h : StartsCode s) : IsCode s := by
  refine ⟨h.1, fun key kind => ?_⟩
  have := h.2 [] key kind
  rwa [List.append_nil] at this

theorem isCode_empty : IsCode "" := by
  refine ⟨by simp [OneLine], fun key kind => ?_⟩
  exact Key.clean_nil_line [] (by simp) kind

/-- Lines of code are the lines of the text that they make. -/
theorem flatMap_lines_of_code {ls : List String} (h : ∀ l ∈ ls, IsCode l) :
    ls.flatMap (fun l => Text.lines l.toList) = ls.map String.toList := by
  induction ls with
  | nil => rfl
  | cons l ls ih =>
    rw [List.flatMap_cons, List.map_cons, Text.lines_of_not_mem (h l (by simp)).1, ih fun m hm => h m (by simp [hm])]
    rfl

/-! ### Bodies -/

/-- In the line no text holds a line feed, and every slot has one of the names. -/
def isOneLine (names : List String) (ps : List Piece) : Bool :=
  ps.all fun
    | .text s => s.toList.all (· != '\n')
    | .slot name => names.contains name

/-- The line is empty, or it starts with a text that no tag starts with, or with indentation and the slot. -/
def startsAside (name : String) : List Piece → Bool
  | [] => true
  | .text s :: .slot name' :: _ => avoidsSlashes s.toList || (s.toList.all Region.isBlank && name' == name)
  | .text s :: _ => avoidsSlashes s.toList
  | .slot _ :: _ => false

section Bodies

variable {v : String → String} {names : List String} {name : String}

theorem oneLine_writeLine (hslots : ∀ name ∈ names, OneLine (v name)) {ps : List Piece}
    (h : isOneLine names ps = true) : OneLine (writeLine v ps) := by
  intro hc
  rw [toList_writeLine, List.mem_flatMap] at hc
  obtain ⟨p, hp, hc⟩ := hc
  have hp := List.all_eq_true.1 h p hp
  cases p with
  | text s => simpa using List.all_eq_true.1 hp _ hc
  | slot name => exact hslots name (List.contains_iff_mem.1 hp) hc

theorem isCode_writeLine (hslots : ∀ name ∈ names, OneLine (v name)) (hstart : StartsCode (v name)) {ps : List Piece}
    (hline : isOneLine names ps = true) (haside : startsAside name ps = true) : IsCode (writeLine v ps) := by
  have htext : ∀ {s ps}, isOneLine names (.text s :: ps) = true → avoidsSlashes s.toList = true →
      IsCode (writeLine v (.text s :: ps)) := by
    intro s ps hline haside
    rw [isOneLine, List.all_cons, Bool.and_eq_true] at hline
    have hs : StartsCode s := by
      rw [← String.ofList_toList (s := s)]
      exact StartsCode.text hline.1 haside
    rw [writeLine_cons]
    exact (hs.append (oneLine_writeLine hslots hline.2)).isCode
  fun_cases startsAside name ps with
  | case1 => exact isCode_empty
  | case2 s name' ps =>
    rw [startsAside, Bool.or_eq_true, Bool.and_eq_true, beq_iff_eq] at haside
    rcases haside with haside | ⟨hblank, rfl⟩
    · exact htext hline haside
    · rw [isOneLine, List.all_cons, List.all_cons, Bool.and_eq_true, Bool.and_eq_true] at hline
      have hrest : OneLine (writeLine v ps) := oneLine_writeLine hslots hline.2.2
      have hindent := StartsCode.indent hblank (hstart.append hrest)
      rw [String.ofList_toList] at hindent
      rw [writeLine_cons, writeLine_cons]
      exact hindent.isCode
  | case3 s ps hnext =>
    rw [startsAside] at haside
    · exact htext hline haside
    · exact hnext
  | case4 => simp [startsAside] at haside

theorem body_isCode (hslots : ∀ name ∈ names, OneLine (v name)) (hstart : StartsCode (v name))
    {ls : List (List Piece)} (hlines : ls.all (fun ps => isOneLine names ps && startsAside name ps) = true) :
    ∀ l ∈ ls.map (writeLine v), IsCode l := by
  intro l hl
  obtain ⟨ps, hps, rfl⟩ := List.mem_map.1 hl
  have h := List.all_eq_true.1 hlines ps hps
  rw [Bool.and_eq_true] at h
  exact isCode_writeLine hslots hstart h.1 h.2

end Bodies

/-! ### Values -/

theorem oneLine_of_isIdent {cs : List Char} (h : Text.isIdent cs = true) : '\n' ∉ cs := by
  intro hc
  have := Text.isIdentRest_of_mem h hc
  revert this
  decide

private theorem mem_splitColons {c : Char} {cs : List Char} (hc : c ∈ cs) :
    c = ':' ∨ ∃ part ∈ splitColons cs, c ∈ part := by
  induction cs using splitColons.induct with
  | case1 => simp at hc
  | case2 cs ih =>
    rw [splitColons]
    simp only [List.mem_cons] at hc
    rcases hc with hc | hc | hc
    · exact .inl hc
    · exact .inl hc
    · rcases ih hc with h | ⟨part, hpart, h⟩
      · exact .inl h
      · exact .inr ⟨part, by simp [hpart], h⟩
  | case3 d cs hcolons hnil ih =>
    rw [splitColons, hnil]
    · rcases List.mem_cons.1 hc with rfl | hc
      · exact .inr ⟨[c], by simp⟩
      · have := ih hc
        simp only [hnil, List.not_mem_nil, false_and, exists_false, or_false] at this
        exact .inl this
    · exact hcolons
  | case4 d cs hcolons part parts hparts ih =>
    rw [splitColons, hparts]
    · rcases List.mem_cons.1 hc with rfl | hc
      · exact .inr ⟨c :: part, by simp⟩
      · rcases ih hc with h | ⟨q, hq, h⟩
        · exact .inl h
        · rw [hparts] at hq
          rcases List.mem_cons.1 hq with rfl | hq
          · exact .inr ⟨d :: q, by simp, by simp [h]⟩
          · exact .inr ⟨q, by simp [hq], h⟩
    · exact hcolons

theorem oneLine_of_isPath {s : String} (h : isPath s = true) : OneLine s := by
  intro hc
  rcases mem_splitColons hc with hc | ⟨part, hpart, hc⟩
  · simp at hc
  · exact oneLine_of_isIdent (List.all_eq_true.1 h part hpart) hc

private theorem lowerChar_ne_lineFeed {c : Char} (h : c ≠ '\n') : Text.lowerChar c ≠ '\n' := by
  by_cases hupper : Text.isUpper c = true
  · intro heq
    have hnat := Text.toNat_lowerChar hupper
    rw [heq] at hnat
    have : '\n'.toNat = 10 := rfl
    omega
  · rwa [Text.lowerChar, if_neg hupper]

theorem oneLine_snakeCase {cs : List Char} (h : '\n' ∉ cs) : '\n' ∉ Text.snakeCase cs := by
  intro hc
  rcases Text.mem_snakeCase hc with hc | ⟨d, hd, hc⟩
  · simp at hc
  · refine lowerChar_ne_lineFeed ?_ hc.symm
    rintro rfl
    exact h hd

theorem oneLine_snakeName (r : Resource) : OneLine r.snakeName := by
  rw [OneLine, Resource.snakeName, String.toList_ofList]
  exact oneLine_snakeCase (oneLine_of_isIdent r.isIdent_name)

theorem oneLine_repr (n : Nat) : OneLine n.repr := by
  intro hc
  rw [Nat.toList_repr] at hc
  exact absurd (Nat.isDigit_of_mem_toDigits (by decide) (by decide) hc) (by decide)

theorem oneLine_fieldName {key : String} (h : OneLine key) : OneLine (fieldName key) := by
  have hfield : OneLine (String.ofList (Text.snakeCase key.toList)) := by
    rw [OneLine, String.toList_ofList]
    exact oneLine_snakeCase h
  unfold fieldName
  dsimp only
  split
  · exact hfield.append (OneLine.text rfl)
  · split
    · exact OneLine.append (OneLine.text rfl) hfield
    · exact hfield

theorem oneLine_keyParameter (r : Resource) : OneLine (keyParameter r.key) := by
  cases hk : r.key with
  | none => exact OneLine.text rfl
  | some k =>
    have hfield := oneLine_fieldName (oneLine_of_isIdent (r.isIdent_key hk))
    exact OneLine.append (OneLine.append (OneLine.text rfl) hfield) (OneLine.text rfl)

theorem oneLine_requestFields (r : Resource) : OneLine (requestFields r.key) := by
  cases hk : r.key with
  | none => exact OneLine.text rfl
  | some k =>
    have hfield := oneLine_fieldName (oneLine_of_isIdent (r.isIdent_key hk))
    exact OneLine.append (OneLine.append (OneLine.text rfl) hfield) (OneLine.text rfl)

theorem startsCode_of_isPath {s : String} (h : isPath s = true) : StartsCode s := by
  have hline : s.toList.all (· != '\n') = true := by
    rw [List.all_eq_true]
    intro c hc
    rw [bne_iff_ne]
    rintro rfl
    exact oneLine_of_isPath h hc
  rw [← String.ofList_toList (s := s)]
  refine StartsCode.text hline ?_
  unfold isPath at h
  cases hs : s.toList with
  | nil =>
    rw [hs] at h
    exact absurd h (by decide)
  | cons c cs =>
    rw [hs] at h
    have hc := isIdentStart_of_isPath h
    have hblank : Region.isBlank c = false := by
      cases hb : Region.isBlank c with
      | false => rfl
      | true =>
        simp only [Region.isBlank, Bool.or_eq_true, beq_iff_eq] at hb
        rcases hb with rfl | rfl <;> exact absurd hc (by decide)
    have hslash : c ≠ '/' := by
      rintro rfl
      exact absurd hc (by decide)
    simp [avoidsSlashes, List.dropWhile_cons_of_neg, hblank, slashes, List.isPrefixOf, hslash, hslash.symm]

/-! ### Renderings -/

theorem clientBody_isCode (r : Resource) {naming : Naming} (h : naming.Accepted) :
    ∀ l ∈ clientBody (value (clientBindings r naming)), IsCode l := by
  obtain ⟨hmodule, hcrate, hclient⟩ := h.isPath
  have hslots : ∀ name ∈ ["name", "snake", "param_str", "req_init", "pb", "rt", "client_type"],
      OneLine (value (clientBindings r naming) name) := by
    intro name hname
    simp only [List.mem_cons, List.not_mem_nil, or_false] at hname
    rcases hname with rfl | rfl | rfl | rfl | rfl | rfl | rfl
    · exact oneLine_of_isIdent r.isIdent_name
    · exact oneLine_snakeName r
    · exact oneLine_keyParameter r
    · exact oneLine_requestFields r
    · exact oneLine_of_isPath hmodule
    · exact oneLine_of_isPath hcrate
    · exact oneLine_of_isPath hclient
  have hstart : StartsCode (value (clientBindings r naming) "rt") := startsCode_of_isPath hcrate
  exact body_isCode hslots hstart (by decide +kernel)

theorem serverBody_isCode (index : UInt32) (r : Resource) {naming : Naming} (h : naming.Accepted) :
    ∀ l ∈ serverBody (value (serverBindings index r naming)), IsCode l := by
  obtain ⟨hmodule, hcrate, -⟩ := h.isPath
  have hslots : ∀ name ∈ ["index", "name", "snake", "pb", "rt"],
      OneLine (value (serverBindings index r naming) name) := by
    intro name hname
    simp only [List.mem_cons, List.not_mem_nil, or_false] at hname
    rcases hname with rfl | rfl | rfl | rfl | rfl
    · exact oneLine_repr index.toNat
    · exact oneLine_of_isIdent r.isIdent_name
    · exact oneLine_snakeName r
    · exact oneLine_of_isPath hmodule
    · exact oneLine_of_isPath hcrate
  have hstart : StartsCode (value (serverBindings index r naming) "rt") := startsCode_of_isPath hcrate
  exact body_isCode hslots hstart (by decide +kernel)

variable {key : Key} {body : List String}

/-- A text of tagged lines of code is a region. -/
theorem isRegion_of_code (hkey : '\n' ∉ key.text.toList) (h : ∀ l ∈ body, IsCode l) :
    key.IsRegion (Text.lines (regionOf (templateText (tagged key.text body)))) := by
  rw [lines_regionOf hkey, flatMap_lines_of_code h]
  refine ⟨_, _, _, rfl, key.isTag_tag .start, key.isTag_tag .finish, fun l hl kind => ?_⟩
  obtain ⟨m, hm, rfl⟩ := List.mem_map.1 hl
  exact (h m hm).2 key kind

/-- It holds no tag line of a key with another text. -/
theorem clean_of_code {other : Key} (hkey : '\n' ∉ key.text.toList) (hne : other.text ≠ key.text)
    (h : ∀ l ∈ body, IsCode l) : other.Clean (Text.lines (regionOf (templateText (tagged key.text body)))) := by
  have htag : ∀ kind', other.Clean [(key.tag kind').toList] := by
    intro kind' l hl kind
    rw [List.mem_singleton.1 hl]
    exact Key.isTag_tag_of_ne hne kind kind'
  have hbody : other.Clean (body.map String.toList) := by
    intro l hl kind
    obtain ⟨m, hm, rfl⟩ := List.mem_map.1 hl
    exact (h m hm).2 other kind
  rw [lines_regionOf hkey, flatMap_lines_of_code h]
  exact ((htag .start).append hbody).append (htag .finish)

end Rendering

end ResourceWatch

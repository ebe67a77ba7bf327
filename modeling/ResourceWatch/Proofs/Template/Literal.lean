import ResourceWatch.Proofs.Template.Reading

/-!
# Strict and literal filling

A template is written in parts (`Part`): texts without braces and backslashes, and slots, which have blanks around
their names.  Reading such a template gives the pieces of its parts (`parseFrom_written`), so it can always be
registered.  Filled with values, it is the concatenation of its texts and the values, as they are, if every slot has a
value; otherwise it is refused for the first slot that has none (`rendering_is_strict_and_literal`).

A name that begins with the word that parts the branches of a choice makes no slot, also where it is longer than the
word (`branch_word_opens_no_slot`).
-/

namespace ResourceWatch

namespace Template

/-! ### Parts of a template -/

/-- The names that stand for no value of their own: all values together, and the operations. -/
def operationNames : List String := [
  "this", "if", "unless", "each", "with", "lookup", "raw", "log", "eq", "ne", "gt", "gte", "lt", "lte", "and", "or",
    "not",
  "len"]

/-- A slot as it may be written: the name of a value, and the blanks on either side. -/
structure Slot where
  name : String
  front : List Char := []
  back : List Char := []
  name_ident : Text.isIdent name.toList = true
  name_free : name ∉ operationNames
  name_plain : ¬ branchWord <+: name.toList
  blank : ∀ c ∈ front ++ back, c = ' ' ∨ c = '\t' ∨ c = '\n' ∨ c = '\r'

inductive Part where
  | text (chars : List Char) (plain : ∀ c ∈ chars, c ≠ '\x7b' ∧ c ≠ '\x7d' ∧ c ≠ '\\')
  | slot (s : Slot)

/-- The name with its blanks between two pairs of braces. -/
def Slot.written (s : Slot) : List Char :=
  '\x7b' :: '\x7b' :: (s.front ++ s.name.toList ++ s.back ++ ['\x7d', '\x7d'])

def Part.written : Part → List Char
  | .text chars _ => chars
  | .slot s => s.written

def written (parts : List Part) : List Char := parts.flatMap Part.written

variable {b : Bindings}

/-- Texts need nothing, and slots a value. -/
def Part.Bound (b : Bindings) : Part → Prop
  | .text _ _ => True
  | .slot s => ∃ value, b.lookup s.name = some value

/-- What a part comes to: texts and values stay as they are. -/
def Part.filled (b : Bindings) : Part → List Char
  | .text chars _ => chars
  | .slot s => ((b.lookup s.name).getD "").toList

/-! ### Reading parts -/

theorem Slot.isSlotName (s : Slot) : isSlotName s.name.toList = true := by
  have hne : s.name.toList ≠ [] := by
    intro h
    simpa [h, Text.isIdent] using s.name_ident
  have hplain : branchWord.isPrefixOf s.name.toList = false := by
    rw [Bool.eq_false_iff, ne_eq, List.isPrefixOf_iff_prefix]
    exact s.name_plain
  simp [Template.isSlotName, hne, hplain]

theorem isSlotChar_of_isIdentRest {c : Char} (h : Text.isIdentRest c = true) : isSlotChar c = true := by
  have hupper : Text.isUpper c = true → c.isUpper = true := fun h =>
    decide_eq_true ((Text.isUpper_iff.1 h).imp UInt32.le_iff_toNat_le.2 UInt32.le_iff_toNat_le.2)
  have hlower : Text.isLower c = c.isLower := rfl
  have hdigit : Text.isDigit c = c.isDigit := rfl
  have halnum : c.isAlphanum = (c.isUpper || c.isLower || c.isDigit) := rfl
  simp only [Text.isIdentRest, Text.isLetter, hlower, hdigit, Bool.or_eq_true] at h
  simp only [isSlotChar, halnum, Bool.or_eq_true]
  exact .inl (.inl (.inl (.inl (h.imp_left (Or.imp_left (Or.imp_left hupper))))))

theorem Slot.all_isSlotChar (s : Slot) : s.name.toList.all isSlotChar = true :=
  List.all_eq_true.2 fun _ hc => isSlotChar_of_isIdentRest (Text.isIdentRest_of_mem s.name_ident hc)

theorem Slot.isSlotBlank (s : Slot) : ∀ c ∈ s.front ++ s.back, isSlotBlank c = true := by
  intro c hc
  rcases s.blank c hc with rfl | rfl | rfl | rfl <;> rfl

/-- The pieces of the parts that stand at a position. -/
def pieces (p : Position) : List Part → Template
  | [] => []
  | .text chars _ :: parts => chars.foldr (fun c => consText [c]) (pieces (chars.foldl Position.next p) parts)
  | .slot s :: parts => .slot s.name.toList p :: pieces (s.written.foldl Position.next p) parts

theorem parseFrom_text {chars : List Char} (h : ∀ c ∈ chars, c ≠ '\x7b' ∧ c ≠ '\x7d' ∧ c ≠ '\\') (p : Position)
    (rest : List Char) : parseFrom p (chars ++ rest) =
      (parseFrom (chars.foldl Position.next p) rest).map (chars.foldr fun c => consText [c]) := by
  induction chars generalizing p with
  | nil => simp
  | cons c cs ih =>
    obtain ⟨hbrace, -, hslash⟩ := h c (by simp)
    rw [List.cons_append, parseFrom_char (fun hc => absurd hc hbrace) hslash, ih fun d hd => h d (by simp [hd]),
      Option.map_map]
    rfl

theorem parseFrom_written_slot (s : Slot) (p : Position) (rest : List Char) : parseFrom p (s.written ++ rest) =
      (parseFrom (s.written.foldl Position.next p) rest).map (.slot s.name.toList p :: ·) :=
  parseFrom_slot
    (slot?_append (fun c hc => s.isSlotBlank c (by simp [hc])) (fun c hc => s.isSlotBlank c (by simp [hc]))
    s.isSlotName s.all_isSlotChar rest) p

theorem parseFrom_written (parts : List Part) (p : Position) :
    parseFrom p (written parts) = some (pieces p parts) := by
  induction parts generalizing p with
  | nil => rw [written, List.flatMap_nil, parseFrom, pieces]
  | cons part parts ih =>
    cases part with
    | text chars plain => rw [written, List.flatMap_cons, Part.written, parseFrom_text plain, ← written, ih]; rfl
    | slot s => rw [written, List.flatMap_cons, Part.written, parseFrom_written_slot, ← written, ih]; rfl

theorem parse?_written (parts : List Part) : parse? (String.ofList (written parts)) = some (pieces {} parts) := by
  rw [parse?, String.toList_ofList, parseFrom_written]

/-! ### Filling parts -/

theorem lookup_reservedNames {name : String} (h : name ∉ operationNames) : reservedNames.lookup name = none := by
  have hmeanings : ∀ e ∈ reservedNames, e.1 ∈ operationNames := by decide
  rw [List.lookup_eq_none_iff]
  intro e he
  have hne : name ≠ e.1 := fun heq => h (heq ▸ hmeanings e he)
  simpa using hne

theorem Slot.slotText_of_bound (s : Slot) {value : String} (h : b.lookup s.name = some value) :
    b.slotText s.name = .ok value := by
  simp only [Bindings.slotText, lookup_reservedNames s.name_free, h]

theorem Slot.slotText_of_unbound (s : Slot) (h : b.lookup s.name = none) :
    b.slotText s.name = .error (.unbound s.name) := by
  simp only [Bindings.slotText, lookup_reservedNames s.name_free, h]

theorem fill_foldr_consText (chars : List Char) (template : Template) :
    (chars.foldr (fun c => consText [c]) template).fill b = (template.fill b).map (chars ++ ·) := by
  induction chars with
  | nil => cases h : fill b template <;> simp [Except.map, h]
  | cons c cs ih =>
    rw [List.foldr_cons, fill_consText, ih]
    cases fill b template <;> rfl

theorem fill_pieces_of_bound {parts : List Part} (h : ∀ part ∈ parts, part.Bound b) (p : Position) :
    (pieces p parts).fill b = .ok (parts.flatMap (Part.filled b)) := by
  induction parts generalizing p with
  | nil => rfl
  | cons part parts ih =>
    have hparts := fun p => ih (fun q hq => h q (by simp [hq])) p
    cases part with
    | text chars plain =>
      rw [pieces, fill_foldr_consText, hparts]
      rfl
    | slot s =>
      obtain ⟨value, hvalue⟩ := h (.slot s) (by simp)
      simp only [pieces, fill, String.ofList_toList, s.slotText_of_bound hvalue, hparts, List.flatMap_cons,
        Part.filled, hvalue]
      rfl

theorem fill_pieces_of_unbound {before : List Part} (h : ∀ part ∈ before, part.Bound b) {s : Slot}
    (hs : b.lookup s.name = none) (after : List Part) (p : Position) :
    (pieces p (before ++ .slot s :: after)).fill b =
      .error (.unbound s.name, (written before).foldl Position.next p) := by
  induction before generalizing p with
  | nil => simp [pieces, fill, s.slotText_of_unbound hs, written]
  | cons part before ih =>
    have hbefore := fun p => ih (fun q hq => h q (by simp [hq])) p
    -- what stands in front of the slot is filled without a fault, and only moves the position on
    rw [List.cons_append, written, List.flatMap_cons, List.foldl_append]
    cases part with
    | text chars plain =>
      rw [pieces, fill_foldr_consText, hbefore]
      rfl
    | slot s' =>
      obtain ⟨value, hvalue⟩ := h (.slot s') (by simp)
      simp only [pieces, fill, String.ofList_toList, s'.slotText_of_bound hvalue, hbefore]
      rfl

/-- Either every slot has a value, or one is the first that has none. -/
theorem bound_or_exists_unbound (b : Bindings) (parts : List Part) : (∀ part ∈ parts, part.Bound b) ∨
    ∃ before s after, parts = before ++ .slot s :: after ∧ (∀ part ∈ before, part.Bound b) ∧
      b.lookup s.name = none := by
  induction parts with
  | nil => simp
  | cons part parts ih =>
    by_cases hpart : part.Bound b
    · rcases ih with ih | ⟨before, s, after, rfl, hbefore, hs⟩
      · exact .inl (by simpa [hpart] using ih)
      · exact .inr ⟨part :: before, s, after, rfl, by simpa [hpart] using hbefore, hs⟩
    · cases part with
      | text chars plain => exact absurd trivial hpart
      | slot s =>
        exact .inr ⟨[], s, parts, rfl, by simp, Option.eq_none_iff_forall_ne_some.2 fun v hv => hpart ⟨v, hv⟩⟩

end Template

/-! ### Registering templates -/

namespace TemplateSet

/-- Readable templates are put in front of those that are there. -/
theorem exists_register (texts : List (String × String))
    (h : ∀ e ∈ texts, ∃ template, Template.parse? e.2 = some template) (set : TemplateSet) : ∃ added : TemplateSet,
      texts.foldlM (fun set entry => register set entry.1 entry.2) set = .ok (added ++ set) ∧
      ∀ e ∈ added, ∃ e' ∈ texts, e'.1 = e.1 := by
  induction texts generalizing set with
  | nil => exact ⟨[], rfl, by simp⟩
  | cons text texts ih =>
    obtain ⟨template, htemplate⟩ := h text (by simp)
    obtain ⟨added, hadded, hnames⟩ := ih (fun e he => h e (by simp [he])) ((text.1, template) :: set)
    refine ⟨added ++ [(text.1, template)], ?_, ?_⟩
    · rw [List.foldlM_cons, register, htemplate, List.append_assoc, List.singleton_append, ← hadded]
      rfl
    · intro e he
      rcases List.mem_append.1 he with he | he
      · obtain ⟨e', he', hname⟩ := hnames e he
        exact ⟨e', by simp [he'], hname⟩
      · exact ⟨text, by simp, by rw [List.mem_singleton.1 he]⟩

/-- Of several templates of one name the last is found. -/
theorem exists_ofTexts {earlier later : List (String × String)} {name text : String} {template : Template}
    (hothers : ∀ e ∈ earlier ++ later, ∃ template, Template.parse? e.2 = some template)
    (hlater : ∀ e ∈ later, e.1 ≠ name) (htext : Template.parse? text = some template) :
    ∃ set, ofTexts (earlier ++ (name, text) :: later) = .ok set ∧ set.lookup name = some template := by
  obtain ⟨before, hbefore, -⟩ := exists_register earlier (fun e he => hothers e (by simp [he])) []
  rw [List.append_nil] at hbefore
  obtain ⟨added, hadded, hnames⟩ :=
    exists_register later (fun e he => hothers e (by simp [he])) ((name, template) :: before)
  refine ⟨added ++ (name, template) :: before, ?_, ?_⟩
  · have hstep : register before name text = .ok ((name, template) :: before) := by rw [register, htext]
    have hrest : ((name, text) :: later).foldlM (fun set entry => register set entry.1 entry.2) before =
        .ok (added ++ (name, template) :: before) := by
      rw [List.foldlM_cons, hstep]
      exact hadded
    rw [ofTexts, List.foldlM_append, hbefore]
    exact hrest
  · -- the later templates lie in front of the one of that name, and none of them hides it
    have hnone : added.lookup name = none := by
      rw [List.lookup_eq_none_iff]
      intro e he
      obtain ⟨e', he', hname⟩ := hnames e he
      simpa [hname] using (hlater e' he').symm
    rw [List.lookup_append, hnone, List.lookup_cons_self, Option.none_or]

open Template

variable {set : TemplateSet} {name : String} {parts : List Part} {b : Bindings}

theorem render_of_bound (hset : set.lookup name = some (pieces {} parts)) (h : ∀ part ∈ parts, part.Bound b) :
    set.render name b = .ok (String.ofList (parts.flatMap (Part.filled b))) := by
  simp only [render, hset, fill_pieces_of_bound h]

theorem render_of_unbound {before after : List Part} {s : Slot}
    (hset : set.lookup name = some (pieces {} (before ++ .slot s :: after))) (h : ∀ part ∈ before, part.Bound b)
    (hs : b.lookup s.name = none) : set.render name b =
      .error (.unfilled name (.unbound s.name) ((written before).foldl Position.next {})) := by
  simp only [render, hset, fill_pieces_of_unbound h hs]

/-- A template in parts can be registered among others that can be read, and is rendered under its name unless a
later one has the name.  The rendering succeeds exactly if every slot has a value, and then it is the texts and the
values one behind the other, as they are; otherwise it fails for the first slot without a value, and tells where it
stands. -/
theorem rendering_is_strict_and_literal {earlier later : List (String × String)} (parts : List Part)
    (hothers : ∀ e ∈ earlier ++ later, ∃ template, Template.parse? e.2 = some template)
    (hlater : ∀ e ∈ later, e.1 ≠ name) :
    ∃ set, ofTexts (earlier ++ (name, String.ofList (written parts)) :: later) = .ok set ∧ ∀ b,
      (∀ out, set.render name b = .ok out ↔
        (∀ part ∈ parts, part.Bound b) ∧ out = String.ofList (parts.flatMap (Part.filled b))) ∧
      ∀ e, set.render name b = .error e ↔
        ∃ before s after, parts = before ++ .slot s :: after ∧ (∀ part ∈ before, part.Bound b) ∧
          b.lookup s.name = none ∧
          e = .unfilled name (.unbound s.name) ((written before).foldl Position.next {}) := by
  obtain ⟨set, hset, hlookup⟩ := exists_ofTexts hothers hlater (parse?_written parts)
  refine ⟨set, hset, fun b => ⟨fun out => ⟨fun h => ?_, ?_⟩, fun e => ⟨fun h => ?_, ?_⟩⟩⟩
  · rcases bound_or_exists_unbound b parts with hbound | ⟨before, s, after, rfl, hbefore, hs⟩
    · rw [render_of_bound hlookup hbound] at h
      exact ⟨hbound, (Except.ok.inj h).symm⟩
    · rw [render_of_unbound hlookup hbefore hs] at h
      simp at h
  · rintro ⟨hbound, rfl⟩
    exact render_of_bound hlookup hbound
  · rcases bound_or_exists_unbound b parts with hbound | ⟨before, s, after, rfl, hbefore, hs⟩
    · rw [render_of_bound hlookup hbound] at h
      simp at h
    · rw [render_of_unbound hlookup hbefore hs] at h
      exact ⟨before, s, after, rfl, hbefore, hs, (Except.error.inj h).symm⟩
  · rintro ⟨before, s, after, rfl, hbefore, hs, rfl⟩
    exact render_of_unbound hlookup hbefore hs

/-- The second of two templates of one name, with blanks in a slot, and a value that looks like a slot. -/
theorem second_template_is_filled :
    let texts := [("t", "first"), ("t", "fn \x7b\x7b name\n\x7d\x7d\n\x7b\x7bas\x7d\x7d"), ("u", "\x7d")]
    (∀ e ∈ [("t", "first")] ++ [("u", "\x7d")], ∃ template, Template.parse? e.2 = some template) ∧
      (∀ e ∈ [("u", "\x7d")], e.1 ≠ "t") ∧
      ∃ set, ofTexts texts = .ok set ∧
        set.render "t" [("name", "\x7b\x7bas\x7d\x7d"), ("as", "")] = .ok "fn \x7b\x7bas\x7d\x7d\n" ∧
        set.render "t" [("name", "pod")] = .error (.unfilled "t" (.unbound "as") ⟨3, 1⟩) := by
  intro texts
  have hothers : ∀ e ∈ [("t", "first")] ++ [("u", "\x7d")], ∃ template, Template.parse? e.2 = some template := by
    have hfirst : Template.parse? "first" = some _ := parse?_written [.text ['f', 'i', 'r', 's', 't'] (by simp)]
    have hsecond : Yields [] ['\x7d'] ['\x7d'] := .char (by simp) (by decide) yields_nil
    obtain ⟨template, hbrace, -⟩ := hsecond.parse? (s := "\x7d")
    simp [hfirst, hbrace]
  have hlater : ∀ e ∈ [("u", "\x7d")], e.1 ≠ "t" := by decide
  let name : Slot := ⟨"name", [' '], ['\n'], by decide, by decide, by decide, by simp⟩
  let last : Slot := ⟨"as", [], [], by decide, by decide, by decide, by simp⟩
  let front : List Part := [.text ['f', 'n', ' '] (by simp), .slot name, .text ['\n'] (by simp)]
  have hwritten : String.ofList (written (front ++ [.slot last])) =
      "fn \x7b\x7b name\n\x7d\x7d\n\x7b\x7bas\x7d\x7d" := by decide
  have hposition : (written front).foldl Position.next {} = ⟨3, 1⟩ := by decide
  obtain ⟨set, hset, hrender⟩ := rendering_is_strict_and_literal (front ++ [.slot last]) hothers hlater
  rw [hwritten] at hset
  refine ⟨hothers, hlater, set, hset, ((hrender _).1 _).2 ⟨?_, ?_⟩, ((hrender _).2 _).2
    ⟨front, last, [], rfl, ?_, ?_, ?_⟩⟩
  · simp [front, name, last, Part.Bound, List.lookup_cons]
  · decide
  · simp [front, name, Part.Bound]
  · rfl
  · rw [hposition]

/-- An identifier that is neither the word that parts branches nor a name with a meaning of its own, and has a value,
and yet no slot. -/
theorem branch_word_opens_no_slot :
    Text.isIdent "elsewhere".toList = true ∧ "elsewhere" ∉ operationNames ∧ "elsewhere".toList ≠ branchWord ∧
      ([("elsewhere", "v")] : Bindings).lookup "elsewhere" = some "v" ∧
      ofTexts [("t", "\x7b\x7belsewhere\x7d\x7d")] = .error .malformed ∧
      ¬ ∃ set, ofTexts [("t", "\x7b\x7belsewhere\x7d\x7d")] = .ok set ∧
        set.render "t" [("elsewhere", "v")] = .ok "v" := by
  have hunread : Template.parse? "\x7b\x7belsewhere\x7d\x7d" = none := parseFrom_eq_none (by decide) {}
  have hmalformed : ofTexts [("t", "\x7b\x7belsewhere\x7d\x7d")] = .error .malformed := by
    rw [ofTexts, List.foldlM_cons, register, hunread]
    rfl
  refine ⟨by decide, by decide, by decide, rfl, hmalformed, ?_⟩
  rintro ⟨set, hset, -⟩
  rw [hmalformed] at hset
  simp at hset

end TemplateSet

end ResourceWatch

import Mathlib.Data.List.Forall2
import ResourceWatch.Rendering

/-!
# What a template gives

Reading a template and filling it is done piece by piece: plain text gives itself and a slot gives its value, whatever
stands behind (`Gives`).  Lines put together of such pieces give the lines put together of the results, so that a
template of lines gives the text of the resulting lines (`yields_lines`).
-/

namespace ResourceWatch.Template

variable {b : Bindings}

/-! ### Texts -/

/-- Read from any position on and filled, the text gives the result. -/
def Yields (b : Bindings) (s out : List Char) : Prop :=
  ∀ p, ∃ template, parseFrom p s = some template ∧ template.fill b = .ok out

theorem yields_nil : Yields b [] [] := fun _ => ⟨[], by rw [parseFrom], rfl⟩

theorem fill_consText (text : List Char) (template : Template) :
    (consText text template).fill b = (template.fill b).map (text ++ ·) := by
  unfold consText
  split
  · rename_i cs ps
    simp only [fill]
    cases fill b ps with
    | error e => rfl
    | ok out => simp [Except.map]
  · rfl

/-- What a slot is read from: the name with blanks on either side, and two closing braces. -/
theorem slot?_append {front name back : List Char} (hfront : ∀ c ∈ front, isSlotBlank c = true)
    (hback : ∀ c ∈ back, isSlotBlank c = true) (hname : isSlotName name = true) (hchars : name.all isSlotChar = true)
    (s : List Char) : slot? (front ++ name ++ back ++ ['\x7d', '\x7d'] ++ s) = some (name, s) := by
  have hblank : ∀ c, isSlotBlank c = true → isSlotChar c = false := by
    intro c hc
    simp only [isSlotBlank, Bool.or_eq_true, beq_iff_eq] at hc
    rcases hc with ((rfl | rfl) | rfl) | rfl <;> decide
  have hall : ∀ c ∈ name, isSlotChar c = true := List.all_eq_true.1 hchars
  have hstart : (front ++ (name ++ (back ++ '\x7d' :: '\x7d' :: s))).dropWhile isSlotBlank =
      name ++ (back ++ '\x7d' :: '\x7d' :: s) := by
    rw [List.dropWhile_append_of_pos hfront]
    cases name with
    | nil => simp [isSlotName] at hname
    | cons c cs =>
      have hc : ¬ isSlotBlank c = true := fun h => by simpa [hblank c h] using hall c (by simp)
      rw [List.cons_append, List.dropWhile_cons_of_neg hc]
  -- behind the name stands a blank or a brace, and neither may stand in a name
  have hstop : ∀ c ∈ (back ++ '\x7d' :: '\x7d' :: s).head?, isSlotChar c = false := by
    intro c hc
    cases back with
    | nil =>
      obtain rfl : '\x7d' = c := by simpa using hc
      decide
    | cons d ds =>
      obtain rfl : d = c := by simpa using hc
      exact hblank d (hback d (by simp))
  have htake : (name ++ (back ++ '\x7d' :: '\x7d' :: s)).takeWhile isSlotChar = name := by
    rw [List.takeWhile_append_of_pos hall]
    cases hrest : back ++ '\x7d' :: '\x7d' :: s with
    | nil => simp
    | cons c cs => rw [List.takeWhile_cons_of_neg (by simp [hstop c (by simp [hrest])]), List.append_nil]
  have hdrop : (name ++ (back ++ '\x7d' :: '\x7d' :: s)).dropWhile isSlotChar = back ++ '\x7d' :: '\x7d' :: s := by
    rw [List.dropWhile_append_of_pos hall]
    cases hrest : back ++ '\x7d' :: '\x7d' :: s with
    | nil => rfl
    | cons c cs => rw [List.dropWhile_cons_of_neg (by simp [hstop c (by simp [hrest])])]
  have hclose : (back ++ '\x7d' :: '\x7d' :: s).dropWhile isSlotBlank = '\x7d' :: '\x7d' :: s := by
    rw [List.dropWhile_append_of_pos hback, List.dropWhile_cons_of_neg (by decide)]
  simp only [List.append_assoc, List.cons_append, List.nil_append]
  unfold slot?
  simp only [hstart, htake, hdrop, hclose, hname, if_true]

/-- A slot is read, and then what stands behind it. -/
theorem parseFrom_slot {body name rest : List Char} (h : slot? (body ++ rest) = some (name, rest)) (p : Position) :
    parseFrom p ('\x7b' :: '\x7b' :: body ++ rest) =
      (parseFrom (('\x7b' :: '\x7b' :: body).foldl Position.next p) rest).map (.slot name p :: ·) := by
  rw [List.cons_append, List.cons_append, parseFrom]
  split
  · rename_i hnone
    rw [h] at hnone
    simp at hnone
  · rename_i name' rest' hsome
    rw [h, Option.some.injEq, Prod.mk.injEq] at hsome
    obtain ⟨rfl, rfl⟩ := hsome
    rw [List.take_left' (by rw [List.length_append, Nat.add_sub_cancel])]

/-- Two opening braces that start no slot cannot be read. -/
theorem parseFrom_eq_none {cs : List Char} (h : slot? cs = none) (p : Position) :
    parseFrom p ('\x7b' :: '\x7b' :: cs) = none := by
  rw [parseFrom]
  split
  · rfl
  · rename_i hsome
    rw [h] at hsome
    simp at hsome

/-- A character that opens nothing is text. -/
theorem parseFrom_char {c : Char} {cs : List Char} (hbrace : c = '\x7b' → cs.head? ≠ some '\x7b') (hslash : c ≠ '\\')
    (p : Position) : parseFrom p (c :: cs) = (parseFrom (p.next c) cs).map (consText [c]) := by
  rw [parseFrom]
  · intro rest hc hs
    exact hbrace hc (by rw [hs]; rfl)
  · exact hslash

namespace Yields

/-- A character that opens nothing stands for itself. -/
theorem char {c : Char} {s out : List Char} (hbrace : c = '\x7b' → s.head? ≠ some '\x7b') (hslash : c ≠ '\\')
    (h : Yields b s out) : Yields b (c :: s) (c :: out) := by
  intro p
  obtain ⟨template, hparse, hfill⟩ := h (p.next c)
  refine ⟨consText [c] template, ?_, ?_⟩
  · rw [parseFrom_char hbrace hslash, hparse]
    rfl
  · rw [fill_consText, hfill]
    rfl

theorem slot {name s out : List Char} {value : String} (hname : isSlotName name = true)
    (hchars : name.all isSlotChar = true) (hvalue : b.slotText (String.ofList name) = .ok value)
    (h : Yields b s out) : Yields b ('\x7b' :: '\x7b' :: (name ++ '\x7d' :: '\x7d' :: s)) (value.toList ++ out) := by
  have hread : slot? (name ++ ['\x7d', '\x7d'] ++ s) = some (name, s) := by
    simpa using slot?_append (List.forall_mem_nil _) (List.forall_mem_nil _) hname hchars s
  have hslot := parseFrom_slot hread
  simp only [List.cons_append, List.append_assoc, List.nil_append] at hslot
  intro p
  obtain ⟨template, hparse, hfill⟩ := h (('\x7b' :: '\x7b' :: (name ++ ['\x7d', '\x7d'])).foldl Position.next p)
  refine ⟨.slot name p :: template, ?_, ?_⟩
  · rw [hslot, hparse]
    rfl
  · simp only [fill, hvalue, hfill]
    rfl

theorem parse? {s : String} {out : List Char} (h : Yields b s.toList out) :
    ∃ template, Template.parse? s = some template ∧ template.fill b = .ok out :=
  h {}

end Yields

/-! ### Pieces of a line -/

/-- Whatever stands behind, the piece of a template gives the piece of the result. -/
def Gives (b : Bindings) (s out : String) : Prop :=
  ∀ rest o, Yields b rest o → Yields b (s.toList ++ rest) (out.toList ++ o)

/-- With its line feed, the line of a template gives the line of the result. -/
def GivesLine (b : Bindings) (s out : String) : Prop :=
  ∀ rest o, Yields b rest o → Yields b (s.toList ++ '\n' :: rest) (out.toList ++ '\n' :: o)

/-- The text opens neither a slot nor an escape, and a line feed may stand behind it. -/
def isPlain : List Char → Bool
  | [] => true
  | c :: cs => c != '\\' && (c != '\x7b' || cs.head? != some '\x7b') && isPlain cs

theorem Gives.append {s t s' t' : String} (hs : Gives b s s') (ht : Gives b t t') : Gives b (s ++ t) (s' ++ t') := by
  intro rest o h
  rw [String.toList_append, String.toList_append, List.append_assoc, List.append_assoc]
  exact hs _ _ (ht _ _ h)

theorem Gives.text {cs : List Char} (hcs : cs.all (fun c => c != '\\' && c != '\x7b') = true) :
    Gives b (String.ofList cs) (String.ofList cs) := by
  intro rest o h
  rw [String.toList_ofList]
  induction cs with
  | nil => exact h
  | cons c cs ih =>
    simp only [List.all_cons, Bool.and_eq_true, bne_iff_ne, ne_eq] at hcs
    exact Yields.char (fun hc => absurd hc hcs.1.2) hcs.1.1 (ih hcs.2)

theorem Gives.slot {name : List Char} {value : String} (hname : isSlotName name = true)
    (hchars : name.all isSlotChar = true) (hvalue : b.slotText (String.ofList name) = .ok value) :
    Gives b (Rendering.slot (String.ofList name)) value := by
  intro rest o h
  have := Yields.slot hname hchars hvalue h
  simpa [Rendering.slot, String.toList_append] using this

private theorem yields_plain {cs rest o : List Char} (hcs : isPlain cs = true) (h : Yields b rest o) :
    Yields b (cs ++ '\n' :: rest) (cs ++ '\n' :: o) := by
  induction cs with
  | nil => exact Yields.char (fun hc => absurd hc (by decide)) (by decide) h
  | cons c cs ih =>
    simp only [isPlain, Bool.and_eq_true, Bool.or_eq_true, bne_iff_ne, ne_eq] at hcs
    refine Yields.char (fun hc => ?_) hcs.1.1 (ih hcs.2)
    have hhead : cs.head? ≠ some '\x7b' := hcs.1.2.resolve_left fun hne => hne hc
    cases cs with
    | nil => simp
    | cons d ds => simpa using hhead

theorem GivesLine.text {cs : List Char} (hcs : isPlain cs = true) :
    GivesLine b (String.ofList cs) (String.ofList cs) := by
  intro rest o h
  rw [String.toList_ofList]
  exact yields_plain hcs h

theorem Gives.line {s out : String} {cs : List Char} (hs : Gives b s out) (hcs : isPlain cs = true) :
    GivesLine b (s ++ String.ofList cs) (out ++ String.ofList cs) := by
  intro rest o h
  rw [String.toList_append, String.toList_append, String.toList_ofList, List.append_assoc, List.append_assoc]
  exact hs _ _ (yields_plain hcs h)

/-! ### Templates of lines -/

theorem yields_lines {ls outs : List String} (h : List.Forall₂ (GivesLine b) ls outs) :
    Yields b (Rendering.templateText ls).toList (Rendering.templateText outs).toList := by
  rw [Rendering.toList_templateText, Rendering.toList_templateText]
  refine Yields.char (fun hc => absurd hc (by decide)) (by decide) ?_
  induction h with
  | nil => exact yields_nil
  | cons hl _ ih =>
    rw [List.flatMap_cons, List.flatMap_cons, List.append_assoc, List.append_assoc]
    exact hl _ _ ih

end ResourceWatch.Template

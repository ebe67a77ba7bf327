import ResourceWatch.Proofs.Template.Reading

/-!
# The text of a rendering

A rendering never fails: it is its template with every slot replaced by the value for it (`client_eq`, `server_eq`).
-/

namespace ResourceWatch.Rendering

open Region (tagMark)
open Template (Bindings Gives GivesLine)

/-- The value for a slot. -/
def value (b : Bindings) (name : String) : String := (b.lookup name).getD ""

/-! ### Lines -/

/-- In the line no text opens a slot or an escape, and every slot has one of the names. -/
def isSound (names : List String) : List Piece → Bool
  | [] => true
  | [.text s] => Template.isPlain s.toList
  | .text s :: ps => s.toList.all (fun c => c != '\\' && c != '\x7b') && isSound names ps
  | .slot name :: ps => names.contains name && isSound names ps

private theorem Gives.cons {b : Bindings} {s s' t t' : String} (hs : Gives b s s') (ht : GivesLine b t t') :
    GivesLine b (s ++ t) (s' ++ t') := by
  intro rest o h
  rw [String.toList_append, String.toList_append, List.append_assoc, List.append_assoc]
  exact hs _ _ (ht _ _ h)

private theorem givesLine_of_isPlain {b : Bindings} {s : String} (h : Template.isPlain s.toList = true) :
    GivesLine b s s := by
  rw [← String.ofList_toList (s := s)]
  exact GivesLine.text h

section Lines

variable {b : Bindings} {v : String → String} {names : List String}

/-- Filled with values for its slots, a sound line gives the line with these values. -/
theorem givesLine_of_isSound (hslots : ∀ name ∈ names, Gives b (slot name) (v name)) {ps : List Piece}
    (h : isSound names ps = true) : GivesLine b (writeLine slot ps) (writeLine v ps) := by
  fun_induction isSound names ps with
  | case1 => exact givesLine_of_isPlain rfl
  | case2 s =>
    have hone : ∀ f, writeLine f [.text s] = s := fun f => by rw [writeLine_cons]; exact String.append_empty
    rw [hone, hone]
    exact givesLine_of_isPlain h
  | case3 s ps _ ih =>
    rw [Bool.and_eq_true] at h
    have htext : Gives b s s := by
      rw [← String.ofList_toList (s := s)]
      exact Gives.text h.1
    rw [writeLine_cons, writeLine_cons]
    exact Gives.cons htext (ih h.2)
  | case4 name ps ih =>
    rw [Bool.and_eq_true, List.contains_iff_mem] at h
    rw [writeLine_cons, writeLine_cons]
    exact Gives.cons (hslots name h.1) (ih h.2)

theorem lines_of_isSound (hslots : ∀ name ∈ names, Gives b (slot name) (v name)) {ls : List (List Piece)}
    (h : ls.all (isSound names) = true) :
    List.Forall₂ (GivesLine b) (ls.map (writeLine slot)) (ls.map (writeLine v)) := by
  rw [List.forall₂_map_left_iff, List.forall₂_map_right_iff, List.forall₂_same]
  exact fun ps hps => givesLine_of_isSound hslots (List.all_eq_true.1 h ps hps)

end Lines

private theorem tagged_lines {b : Bindings} {key key' : String} {ls ls' : List String} (hkey : Gives b key key')
    (h : List.Forall₂ (GivesLine b) ls ls') : List.Forall₂ (GivesLine b) (tagged key ls) (tagged key' ls') := by
  have hmark : Gives b (tagMark ++ " ") (tagMark ++ " ") :=
    Gives.append (Gives.text (by decide)) (Gives.text (by decide))
  have hstart : GivesLine b (tagMark ++ " " ++ key ++ " START") (tagMark ++ " " ++ key' ++ " START") :=
    Gives.line (Gives.append hmark hkey) (by decide)
  have hend : GivesLine b (tagMark ++ " " ++ key ++ " END") (tagMark ++ " " ++ key' ++ " END") :=
    Gives.line (Gives.append hmark hkey) (by decide)
  exact List.rel_append (List.Forall₂.cons hstart h) (List.Forall₂.cons hend List.Forall₂.nil)

/-! ### Values -/

private theorem gives_slot {b : Bindings} {name : List Char} {v : String}
    (hname : Template.isSlotName name = true) (hchars : name.all Template.isSlotChar = true)
    (hfree : Template.reservedNames.lookup (String.ofList name) = none)
    (hvalue : b.lookup (String.ofList name) = some v) : Gives b (slot (String.ofList name)) v :=
  Gives.slot hname hchars (by simp only [Bindings.slotText, hfree, hvalue])

private theorem client_values (r : Resource) (naming : Naming) :
    ∀ name ∈ ["name", "snake", "param_str", "req_init", "pb", "rt", "client_type"],
      Gives (clientBindings r naming) (slot name) (value (clientBindings r naming) name) := by
  intro name hname
  simp only [List.mem_cons, List.not_mem_nil, or_false] at hname
  rcases hname with rfl | rfl | rfl | rfl | rfl | rfl | rfl
  all_goals exact gives_slot (by decide) (by decide) (by decide) rfl

private theorem server_values (index : UInt32) (r : Resource) (naming : Naming) :
    ∀ name ∈ ["index", "name", "snake", "pb", "rt"],
      Gives (serverBindings index r naming) (slot name) (value (serverBindings index r naming) name) := by
  intro name hname
  simp only [List.mem_cons, List.not_mem_nil, or_false] at hname
  rcases hname with rfl | rfl | rfl | rfl | rfl
  all_goals exact gives_slot (by decide) (by decide) (by decide) rfl

/-! ### Renderings -/

private theorem client_yields (r : Resource) (naming : Naming) :
    Template.Yields (clientBindings r naming) clientTemplate.toList
      (templateText (tagged r.name (clientBody (value (clientBindings r naming))))).toList :=
  Template.yields_lines (tagged_lines (client_values r naming "name" (by simp))
    (lines_of_isSound (client_values r naming) (by decide +kernel)))

private theorem server_yields (index : UInt32) (r : Resource) (naming : Naming) :
    Template.Yields (serverBindings index r naming) serverTemplate.toList
      (templateText (tagged index.toNat.repr (serverBody (value (serverBindings index r naming))))).toList :=
  Template.yields_lines
    (tagged_lines (server_values index r naming "index" (by simp)) (lines_of_isSound (server_values index r naming)
      (by decide +kernel)))

private theorem ofTexts_pair {first second text text' : String} {template template' : Template}
    (h : Template.parse? text = some template) (h' : Template.parse? text' = some template') :
    TemplateSet.ofTexts [(first, text), (second, text')] = .ok [(second, template'), (first, template)] := by
  simp only [TemplateSet.ofTexts, List.foldlM_cons, List.foldlM_nil, TemplateSet.register, h, h']
  rfl

private theorem render_of_lookup {set : TemplateSet} {name : String} {b : Bindings} {template : Template}
    {out : String} (h : set.lookup name = some template) (hfill : template.fill b = .ok out.toList) :
    set.render name b = .ok out := by
  simp only [TemplateSet.render, h, hfill, String.ofList_toList]

/-- The built-in templates are well formed. -/
private theorem builtIn_eq (r : Resource) (naming : Naming) :
    ∃ client server, Template.parse? clientTemplate = some client ∧ Template.parse? serverTemplate = some server ∧
      builtIn = .ok [(serverTemplateName, server), (clientTemplateName, client)] := by
  obtain ⟨client, hclient, -⟩ := (client_yields r naming).parse?
  obtain ⟨server, hserver, -⟩ := (server_yields 0 r naming).parse?
  exact ⟨client, server, hclient, hserver, ofTexts_pair hclient hserver⟩

/-- The client rendering is its template with the values for the slots. -/
theorem client_eq (r : Resource) (naming : Naming) :
    client r naming = .ok (templateText (tagged r.name (clientBody (value (clientBindings r naming))))) := by
  obtain ⟨template, server, hparse, -, hset⟩ := builtIn_eq r naming
  obtain ⟨template', hparse', hfill⟩ := (client_yields r naming).parse?
  obtain rfl : template = template' := Option.some.inj (hparse.symm.trans hparse')
  have hlookup : List.lookup clientTemplateName [(serverTemplateName, server), (clientTemplateName, template)] =
      some template := by
    rw [List.lookup_cons, show (clientTemplateName == serverTemplateName) = false by decide, List.lookup_cons_self]
  rw [client, hset]
  exact render_of_lookup hlookup hfill

/-- The server rendering is its template with the values for the slots. -/
theorem server_eq (index : UInt32) (r : Resource) (naming : Naming) :
    server index r naming =
      .ok (templateText (tagged index.toNat.repr (serverBody (value (serverBindings index r naming))))) := by
  obtain ⟨client, template, -, hparse, hset⟩ := builtIn_eq r naming
  obtain ⟨template', hparse', hfill⟩ := (server_yields index r naming).parse?
  obtain rfl : template = template' := Option.some.inj (hparse.symm.trans hparse')
  have hlookup : List.lookup serverTemplateName [(serverTemplateName, template), (clientTemplateName, client)] =
      some template := List.lookup_cons_self
  rw [server, hset]
  exact render_of_lookup hlookup hfill

end ResourceWatch.Rendering

import ResourceWatch.Proofs.Settings.Fields

/-!
# Merging, field by field

What is put under a path changes the fields that the path touches and no other (`Holds.mergeAt_of_not_touches`).  A
table that is put over a section goes into it entry by entry, so a layer of plain entries acts on each field alone, by
the values that it gives to that field (`Holds.mergeLayer`).
-/

namespace ResourceWatch

namespace ValueTree

/-- The path without capital letters. -/
def Path.lower (path : Path) : Path :=
  path.map fun
    | .key name => .key (Text.lowerAscii name)
    | .index i => .index i

/-- What there is after a value is put over another: a table goes into it, anything else takes its place. -/
def overlay (v old : ValueTree) : ValueTree :=
  match v with
  | .table _ es => mergeAll es old
  | _ => v

/-- What there is after a value is put at a path below something that need not be there. -/
def placed (v : ValueTree) (path : Path) (old : Option ValueTree) : ValueTree :=
  match path with
  | [] => overlay v (old.getD empty)
  | _ => mergeAt v path (old.getD unit)

/-! ### One entry -/

theorem withEntry_eq (t : ValueTree) (key : String) (v : ValueTree) :
    ∃ origin, t.withEntry key v = .table origin (Dictionary.put (Text.lowerAscii key) v t.entries) := by
  cases t with
  | scalar => exact ⟨none, rfl⟩
  | array => exact ⟨none, rfl⟩
  | table origin => exact ⟨origin, rfl⟩

theorem withItem_eq (t : ValueTree) (i : Nat) (v : ValueTree) :
    ∃ origin items, t.withItem i v = .array origin items := by
  cases t <;> exact ⟨_, _, rfl⟩

theorem entry?_withEntry (t : ValueTree) (key k : String) (v : ValueTree) :
    entry? (t.withEntry key v) k = if Text.lowerAscii k = Text.lowerAscii key then some v else t.entry? k := by
  obtain ⟨origin, h⟩ := withEntry_eq t key v
  rw [h, entry?, entries, Dictionary.lookup_put]
  simp [ValueTree.entry?]

theorem mergeAt_key (v : ValueTree) (name : String) (path : Path) (t : ValueTree) :
    mergeAt v (.key name :: path) t = t.withEntry name (placed v path (t.entry? name)) := by
  cases path with
  | nil => cases v <;> simp [mergeAt, merge, placed, overlay]
  | cons => rfl

theorem entry?_mergeAt (v : ValueTree) (name k : String) (path : Path) (t : ValueTree) :
    entry? (mergeAt v (.key name :: path) t) k =
      if Text.lowerAscii k = Text.lowerAscii name then some (placed v path (t.entry? k)) else t.entry? k := by
  rw [mergeAt_key, entry?_withEntry]
  split
  · rename_i h
    rw [ValueTree.entry?, ValueTree.entry?, h]
  · rfl

theorem entry?_mergeAt_index (v : ValueTree) (i : Int) (path : Path) (t : ValueTree) (key : String) :
    entry? (mergeAt v (.index i :: path) t) key = none := by
  obtain ⟨origin, items, h⟩ :=
    withItem_eq t (place i t.items.length) (mergeAt v path (t.items.getD (place i t.items.length) unit))
  rw [mergeAt, h]
  rfl

/-- An item that is put into what is no array makes a new one. -/
theorem mergeAt_index {v t : ValueTree} {path : Path} (ht : ∀ origin items, t ≠ .array origin items) (i : Int) :
    mergeAt v (.index i :: path) t = mergeAt v (.index i :: path) unit := by
  cases t with
  | scalar => rfl
  | table => rfl
  | array origin items => exact absurd rfl (ht origin items)

/-! ### Paths without capital letters -/

theorem lower_cons_key (name : String) (path : Path) :
    Path.lower (.key name :: path) = .key (Text.lowerAscii name) :: Path.lower path := rfl

theorem entry?_lower (t : ValueTree) (key : String) : t.entry? (Text.lowerAscii key) = t.entry? key := by
  rw [ValueTree.entry?, ValueTree.entry?, Text.lowerAscii_lowerAscii]

theorem withEntry_lower (t : ValueTree) (key : String) (v : ValueTree) :
    t.withEntry (Text.lowerAscii key) v = t.withEntry key v := by
  cases t <;> simp [withEntry, Text.lowerAscii_lowerAscii]

theorem mergeAt_lower (v : ValueTree) (path : Path) (t : ValueTree) : mergeAt v path.lower t = mergeAt v path t := by
  induction path generalizing t with
  | nil => rfl
  | cons step path ih =>
    have hplaced : ∀ old, placed v (Path.lower path) old = placed v path old := by
      intro old
      cases path with
      | nil => rfl
      | cons => exact ih (old.getD unit)
    cases step with
    | key name => rw [lower_cons_key, mergeAt_key, mergeAt_key, withEntry_lower, entry?_lower, hplaced]
    | index i =>
      change t.withItem _ (mergeAt v (Path.lower path) _) = t.withItem _ (mergeAt v path _)
      rw [ih]

/-! ### Whole tables -/

def IsTable (t : ValueTree) : Prop := ∃ origin es, t = .table origin es

instance : DecidablePred IsTable
  | .table origin es => isTrue ⟨origin, es, rfl⟩
  | .array _ _ => isFalse fun ⟨_, _, h⟩ => nomatch h
  | .scalar _ _ => isFalse fun ⟨_, _, h⟩ => nomatch h

theorem isTable_withEntry (t : ValueTree) (key : String) (v : ValueTree) : (t.withEntry key v).IsTable := by
  obtain ⟨origin, h⟩ := withEntry_eq t key v
  exact ⟨origin, _, h⟩

theorem merge_eq (key : String) (v t : ValueTree) :
    merge key v t = t.withEntry key (overlay v ((t.entry? key).getD empty)) := by
  cases v <;> rfl

theorem mergeAll_cons (e : String × ValueTree) (es : List (String × ValueTree)) (t : ValueTree) :
    mergeAll (e :: es) t = mergeAll es (t.withEntry e.1 (overlay e.2 ((t.entry? e.1).getD empty))) := by
  rw [← merge_eq]
  obtain ⟨key, v⟩ := e
  rfl

theorem isTable_mergeAll {es : List (String × ValueTree)} {t : ValueTree} (h : es ≠ [] ∨ t.IsTable) :
    (mergeAll es t).IsTable := by
  induction es generalizing t with
  | nil => exact h.resolve_left (absurd rfl)
  | cons e es ih =>
    rw [mergeAll_cons]
    exact ih (.inr (isTable_withEntry ..))

/-- The values under a key among entries. -/
def valuesUnder (key : String) (es : List (String × ValueTree)) : List ValueTree :=
  (es.filter fun e => Text.lowerAscii e.1 == Text.lowerAscii key).map (·.2)

/-- What there is after values are put over another, one after the other. -/
def overlayAll (vs : List ValueTree) (old : ValueTree) : ValueTree := vs.foldl (fun old v => overlay v old) old

/-- The entries of a table act on an entry by what they have under its key. -/
theorem entry?_mergeAll {key : String} {t w : ValueTree} (es : List (String × ValueTree))
    (h : t.entry? key = some w) : entry? (mergeAll es t) key = some (overlayAll (valuesUnder key es) w) := by
  induction es generalizing t w with
  | nil => exact h
  | cons e es ih =>
    rw [mergeAll_cons]
    by_cases hkey : Text.lowerAscii key = Text.lowerAscii e.1
    · have hw : t.entry? e.1 = some w := by rw [ValueTree.entry?, ← hkey, ← ValueTree.entry?, h]
      rw [ih (by rw [entry?_withEntry, if_pos hkey]), hw]
      simp [valuesUnder, overlayAll, hkey]
    · rw [ih (w := w) (by rw [entry?_withEntry, if_neg hkey, h])]
      simp [valuesUnder, Ne.symm hkey]

end ValueTree

open ValueTree

/-! ### Fields and paths -/

/-- Something within a value makes a table or an array of it. -/
theorem Field.read_mergeAt_ne_ok {f : Field} (u : ValueTree) (step : Step) (path : Path) (w : ValueTree)
    (x : f.Content) : f.read (mergeAt u (step :: path) w) ≠ .ok x := by
  cases step with
  | key name =>
    obtain ⟨origin, h⟩ := withEntry_eq w name (placed u path (w.entry? name))
    rw [mergeAt_key, h]
    exact Field.read_table_ne_ok _ _ _
  | index i =>
    obtain ⟨origin, items, h⟩ :=
      withItem_eq w (place i w.items.length) (mergeAt u path (w.items.getD (place i w.items.length) unit))
    rw [mergeAt, h]
    exact Field.read_array_ne_ok _ _ _

/-- The path of a field. -/
def Field.path (f : Field) : Path := [.key f.home.key, .key f.key]

theorem Field.path_inj {f g : Field} (h : f.path = g.path) : f = g := by
  simp only [path, List.cons.injEq, Step.key.injEq, and_true] at h
  exact key_inj h.2

/-- What is put under the path bears on the field: it is the field's section as a whole, an item of it, the field or
something in the field. -/
def ValueTree.Path.touches (f : Field) : Path → Bool
  | .key name :: .key name' :: _ => name == f.home.key && name' == f.key
  | .key name :: _ => name == f.home.key
  | _ => true

/-- What is put under the path takes the place of the whole section, or goes to an item of it. -/
def ValueTree.Path.isWhole (home : Section) : Path → Bool
  | .key _ :: .key _ :: _ => false
  | .key name :: _ => name == home.key
  | _ => true

theorem ValueTree.Path.touches_or_within {f : Field} {path : Path} (h : path.isWhole f.home = false) :
    path.touches f = false ∨ ∃ rest, path = f.path ++ rest := by
  rcases path with _ | ⟨name | i, _ | ⟨name' | j, rest⟩⟩
  · simp [isWhole] at h
  · exact .inl h
  · by_cases heq : name = f.home.key ∧ name' = f.key
    · exact .inr ⟨rest, by simp [Field.path, heq]⟩
    · exact .inl (by simpa [touches] using heq)
  · exact .inl h
  all_goals simp [isWhole] at h

namespace ValueTree.Holds

variable {t v w : ValueTree} {f : Field} {path : Path}

theorem of_entry? {s : ValueTree} (ht : t.entry? f.home.key = some s) (hs : s.IsTable)
    (hw : s.entry? f.key = some w) : t.Holds f w := by
  obtain ⟨origin, es, rfl⟩ := hs
  exact ⟨origin, es, ht, hw⟩

theorem exists_entry? (h : t.Holds f w) :
    ∃ s, t.entry? f.home.key = some s ∧ s.IsTable ∧ s.entry? f.key = some w := by
  obtain ⟨origin, es, ht, hw⟩ := h
  exact ⟨_, ht, ⟨origin, es, rfl⟩, hw⟩

/-- What is put elsewhere leaves a field as it is. -/
theorem mergeAt_of_not_touches (h : t.Holds f w) (hpath : path.lower.touches f = false) :
    (mergeAt v path t).Holds f w := by
  obtain ⟨s, hs, htable, hw⟩ := h.exists_entry?
  rcases path with _ | ⟨name | i, rest⟩
  · simp [Path.lower, Path.touches] at hpath
  · by_cases hname : Text.lowerAscii name = f.home.key
    · rcases rest with _ | ⟨name' | i, rest⟩
      · simp [Path.lower, Path.touches, hname] at hpath
      · have hne : ¬ f.key = Text.lowerAscii name' := by
          intro heq
          simp [Path.lower, Path.touches, hname, heq] at hpath
        refine of_entry? (s := mergeAt v (.key name' :: rest) s) ?_ ?_ ?_
        · simp [entry?_mergeAt, hname, hs, placed]
        · rw [mergeAt_key]
          exact isTable_withEntry ..
        · simp [entry?_mergeAt, hne, hw]
      · simp [Path.lower, Path.touches, hname] at hpath
    · refine of_entry? ?_ htable hw
      rw [entry?_mergeAt, if_neg (by simpa using Ne.symm hname), hs]
  · simp [Path.lower, Path.touches] at hpath

/-- Something put at the path of a field, or within the field, makes a table of its section. -/
theorem of_mergeAt {rest : Path} (hpath : path.lower = f.path ++ rest) (t v : ValueTree) :
    (mergeAt v path t).Holds f (placed v rest (ValueTree.entry? ((t.entry? f.home.key).getD unit) f.key)) := by
  rw [← mergeAt_lower, hpath, Field.path]
  refine of_entry? (s := mergeAt v (.key f.key :: rest) ((t.entry? f.home.key).getD unit)) ?_ ?_ ?_
  · simp [entry?_mergeAt, placed]
  · rw [mergeAt_key]
    exact isTable_withEntry ..
  · simp [entry?_mergeAt]

/-- What is put at the path of a field, or within the field, changes its value alone. -/
theorem mergeAt_within (h : t.Holds f w) {rest : Path} (hpath : path.lower = f.path ++ rest) :
    (mergeAt v path t).Holds f (placed v rest (some w)) := by
  obtain ⟨s, hs, -, hw⟩ := h.exists_entry?
  have hplaced := of_mergeAt hpath t v
  rwa [hs, Option.getD_some, hw] at hplaced

/-- What is put at the path of a field is put over its value. -/
theorem mergeAt_path (h : t.Holds f w) (hpath : path.lower = f.path) : (mergeAt v path t).Holds f (overlay v w) :=
  h.mergeAt_within (by rw [hpath, List.append_nil] : path.lower = f.path ++ [])

/-- A scalar at the path of a field is its value, whatever was there. -/
theorem of_mergeAt_scalar (hpath : path.lower = f.path) (t : ValueTree) (origin : Option String) (x : Scalar) :
    (mergeAt (.scalar origin x) path t).Holds f (.scalar origin x) :=
  of_mergeAt (by rw [hpath, List.append_nil] : path.lower = f.path ++ []) t _

/-- A table at the path of a section goes into it entry by entry. -/
theorem mergeAt_section (h : t.Holds f w) (hpath : path.lower = [.key f.home.key]) (origin : Option String)
    (es : List (String × ValueTree)) :
    (mergeAt (.table origin es) path t).Holds f (overlayAll (valuesUnder f.key es) w) := by
  obtain ⟨s, hs, htable, hw⟩ := h.exists_entry?
  rw [← mergeAt_lower, hpath]
  refine of_entry? (s := mergeAll es s) ?_ (isTable_mergeAll (.inr htable)) (entry?_mergeAll es hw)
  simp [entry?_mergeAt, hs, placed, overlay]

end ValueTree.Holds

/-! ### Layers of plain entries -/

/-- The values that an entry of a layer gives to a field: what a table has for it under the key of its section, or the
value under its path. -/
def Field.givenBy (f : Field) (e : Path × ValueTree) : List ValueTree :=
  if e.1.lower = f.path then [e.2]
  else if e.1.lower = [.key f.home.key] then valuesUnder f.key e.2.entries
  else []

namespace ValueTree

/-- An entry of a layer is plain if it is a table under the key of a section, a value under the path of a field, or a
value that touches no field. -/
def IsPlainEntry (e : Path × ValueTree) : Prop :=
  (∃ home : Section, e.1.lower = [.key home.key] ∧ e.2.IsTable) ∨ (∃ f : Field, e.1.lower = f.path) ∨
    ∀ f : Field, e.1.lower.touches f = false

instance (e : Path × ValueTree) : Decidable (IsPlainEntry e) := inferInstanceAs (Decidable (_ ∨ _ ∨ _))

theorem Holds.mergeAt_plain {t w : ValueTree} {f : Field} (h : t.Holds f w) {e : Path × ValueTree}
    (he : IsPlainEntry e) : (mergeAt e.2 e.1 t).Holds f (overlayAll (f.givenBy e) w) := by
  have hpath : f.path ≠ [.key f.home.key] := by simp [Field.path]
  unfold Field.givenBy
  rcases he with ⟨home, hhome, htable⟩ | ⟨g, hg⟩ | hnone
  · by_cases hf : home.key = f.home.key
    · obtain ⟨origin, es, hes⟩ := htable
      have hsection : e.1.lower = [.key f.home.key] := by rw [hhome, hf]
      rw [if_neg (by rw [hsection]; exact hpath.symm), if_pos hsection, hes]
      exact h.mergeAt_section hsection origin es
    · rw [if_neg (by simp [hhome, Field.path]), if_neg (by simpa [hhome] using hf)]
      exact h.mergeAt_of_not_touches (by simpa [hhome, Path.touches] using hf)
  · by_cases hf : g = f
    · subst hf
      rw [if_pos hg]
      exact h.mergeAt_path hg
    · have hfg : g.path ≠ f.path := fun heq => hf (Field.path_inj heq)
      rw [if_neg (by rwa [hg]), if_neg (by simp [hg, Field.path])]
      refine h.mergeAt_of_not_touches ?_
      simpa [hg, Field.path, Path.touches] using hfg
  · have hself : e.1.lower ≠ f.path := by
      intro heq
      simpa [heq, Field.path, Path.touches] using hnone f
    have hsection : e.1.lower ≠ [.key f.home.key] := by
      intro heq
      simpa [heq, Path.touches] using hnone f
    rw [if_neg hself, if_neg hsection]
    exact h.mergeAt_of_not_touches (hnone f)

/-- The values that a layer gives to a field. -/
def Layer.given (layer : Layer) (f : Field) : List ValueTree := layer.flatMap f.givenBy

/-- A layer of plain entries acts on each field alone. -/
theorem Holds.mergeLayer {t w : ValueTree} {f : Field} (h : t.Holds f w) {layer : Layer}
    (hlayer : ∀ e ∈ layer, IsPlainEntry e) : (t.mergeLayer layer).Holds f (overlayAll (layer.given f) w) := by
  induction layer generalizing t w with
  | nil => exact h
  | cons e layer ih =>
    have hone := ih (h.mergeAt_plain (hlayer e (by simp))) fun e' he' => hlayer e' (by simp [he'])
    rwa [overlayAll, overlayAll, ← List.foldl_append] at hone

end ValueTree

end ResourceWatch

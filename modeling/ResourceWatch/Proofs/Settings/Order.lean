import ResourceWatch.Proofs.Settings.Layers

/-!
# The order of variables

A load takes the variables of the environment in an order of its own.  Two variables that go to different fields, or
to different items, can be exchanged: what is read does not change (`alike_swap`).  Only variables that are in each
other's way cannot, such as one for a section as a whole and one for a field of it (`Path.hinders`).  Where no two
are, every order of the variables gives the same settings (`Settings.load_of_reordered`).

The trees that two orders lead to need not be equal, since the entries of a table stand in the order in which they
came. `Alike` is what they have in common at a field, and every further value keeps it.
-/

namespace ResourceWatch

open ValueTree

/-! ### Orders -/

namespace Environment

/-- The same variables in another order; those of one name or with one key replace one another and keep theirs. -/
inductive Reordered : Environment → Environment → Prop
  | refl (env : Environment) : Reordered env env
  | swap {e e' : String × String} (pre post : Environment) (names : e.1 ≠ e'.1)
    (keys : ∀ key, variableKey? e.1 = some key → variableKey? e'.1 ≠ some key) :
    Reordered (pre ++ e :: e' :: post) (pre ++ e' :: e :: post)
  | trans {env env' env'' : Environment} (first : Reordered env env') (rest : Reordered env' env'') :
    Reordered env env''

theorem Reordered.mem_iff {env env' : Environment} (h : Reordered env env') (e : String × String) :
    e ∈ env ↔ e ∈ env' := by
  induction h with
  | refl => exact Iff.rfl
  | swap => simp [or_left_comm]
  | trans _ _ ih ih' => exact ih.trans ih'

theorem Reordered.lookup_eq {env env' : Environment} (h : env.Reordered env') (name : String) :
    env.lookup name = env'.lookup name := by
  induction h with
  | refl => rfl
  | @swap e e' pre post hnames =>
    rw [List.lookup_append, List.lookup_append, List.lookup_cons, List.lookup_cons, List.lookup_cons,
      List.lookup_cons]
    by_cases hname : name = e.1
    · rw [hname, beq_self_eq_true, beq_false_of_ne hnames]
    · rw [beq_false_of_ne hname]
  | trans _ _ ih ih' => exact ih.trans ih'

end Environment

/-- Below the key of a section, it matters to the field of that key which of two paths comes first: one stands for the
section as a whole, or one for the field and one for something in it; they go to items in different ways, or one to an
item of the section and one to an entry. -/
def ValueTree.Path.collides (key : String) : Path → Path → Bool
  | .key name :: p, .key name' :: q => name == key && name' == key && (p.isEmpty || q.isEmpty)
  | .index i :: p, .index j :: q => i < 0 || j < 0 || (i == j && (p.isEmpty || q.isEmpty))
  | _, _ => true

/-- It matters to the field which of two paths comes first. -/
def ValueTree.Path.hinders (f : Field) : Path → Path → Bool
  | .key name :: p, .key name' :: q => name == f.home.key && name' == f.home.key && Path.collides f.key p q
  | _, _ => true

/-- No two variables are in each other's way, so that it does not matter which of them comes first. -/
def Environment.IsUnordered (env : Environment) : Prop :=
  ∀ e ∈ env, ∀ e' ∈ env, e.2 ≠ "" → e'.2 ≠ "" → ∀ key ∈ variableKey? e.1, ∀ key' ∈ variableKey? e'.1, key ≠ key' →
    ∀ f : Field, (Path.ofKey key).lower.hinders f (Path.ofKey key').lower = false

instance (env : Environment) : Decidable env.IsUnordered := by
  unfold Environment.IsUnordered
  infer_instance

theorem Environment.Reordered.isUnordered {env env' : Environment} (h : env.Reordered env')
    (henv : env.IsUnordered) : env'.IsUnordered :=
  fun e he e' he' => henv e ((h.mem_iff e).2 he) e' ((h.mem_iff e').2 he')

/-! ### Values and sections that are read alike -/

/-- Two values that need not be there are equal, or neither can be read. -/
def Field.Agree (f : Field) (v w : Option ValueTree) : Prop :=
  v = w ∨ ∃ v' w', v = some v' ∧ w = some w' ∧ (∀ x, f.read v' ≠ .ok x) ∧ ∀ x, f.read w' ≠ .ok x

namespace Field.Agree

variable {f : Field} {v w : Option ValueTree}

theorem refl (f : Field) (v : Option ValueTree) : f.Agree v v := .inl rfl

theorem symm (h : f.Agree v w) : f.Agree w v := by
  rcases h with rfl | ⟨v', w', hv, hw, hunread, hunread'⟩
  · exact .refl f v
  · exact .inr ⟨w', v', hw, hv, hunread', hunread⟩

/-- What is put below both spoils them, and what is put in their place makes them equal. -/
theorem mergeAt (f : Field) (u : ValueTree) (path : Path) (v w : ValueTree) :
    f.Agree (some (ValueTree.mergeAt u path v)) (some (ValueTree.mergeAt u path w)) := by
  cases path with
  | nil => exact .inl rfl
  | cons step path => exact .inr ⟨_, _, rfl, rfl, read_mergeAt_ne_ok u step path v, read_mergeAt_ne_ok u step path w⟩

theorem placed (f : Field) (origin : Option String) (x : Scalar) (path : Path) (v w : Option ValueTree) :
    f.Agree (some (ValueTree.placed (.scalar origin x) path v))
    (some (ValueTree.placed (.scalar origin x) path w)) := by
  cases path with
  | nil => exact .inl rfl
  | cons step path => exact mergeAt f _ (step :: path) (v.getD unit) (w.getD unit)

theorem getD (h : f.Agree v w) : f.Agree (some (v.getD unit)) (some (w.getD unit)) := by
  rcases h with rfl | ⟨v', w', rfl, rfl, hunread⟩
  · exact .inl rfl
  · exact .inr ⟨v', w', rfl, rfl, hunread⟩

theorem isSome_eq (h : f.Agree v w) : v.isSome = w.isSome := by
  rcases h with rfl | ⟨v', w', rfl, rfl, -⟩ <;> rfl

end Field.Agree

/-- Two sections are read alike at the field: they are equal, or tables that agree at its key, or arrays that agree
item by item. -/
inductive Alike (f : Field) : Option ValueTree → Option ValueTree → Prop
  | same (s : Option ValueTree) : Alike f s s
  | tables {o o' : Option String} {es es' : List (String × ValueTree)}
    (agree : f.Agree (ValueTree.entry? (.table o es) f.key) (ValueTree.entry? (.table o' es') f.key)) :
    Alike f (some (.table o es)) (some (.table o' es'))
  | arrays {o o' : Option String} {xs ys : List ValueTree} (agree : ∀ n : Nat, f.Agree xs[n]? ys[n]?) :
    Alike f (some (.array o xs)) (some (.array o' ys))

variable {f : Field}

/-! ### Items -/

theorem ValueTree.getElem?_items_withItem (t : ValueTree) (i : Nat) (v : ValueTree) (n : Nat) :
    (t.withItem i v).items[n]? =
      if n = i then some v else if n < i then some (t.items[n]?.getD unit) else t.items[n]? := by
  have hitems : (t.withItem i v).items = (t.items ++ List.replicate (i + 1 - t.items.length) unit).set i v := by
    cases t <;> rfl
  have hlength : i < (t.items ++ List.replicate (i + 1 - t.items.length) unit).length := by
    rw [List.length_append, List.length_replicate]
    omega
  rw [hitems]
  by_cases hni : n = i
  · rw [if_pos hni, hni, List.getElem?_set_self hlength]
  · rw [if_neg hni, List.getElem?_set_ne (Ne.symm hni)]
    by_cases hn : n < t.items.length
    · rw [List.getElem?_append_left hn, List.getElem?_eq_getElem hn]
      simp
    · rw [List.getElem?_append_right (by omega), List.getElem?_eq_none (by omega : t.items.length ≤ n)]
      by_cases hlt : n < i
      · rw [if_pos hlt, List.getElem?_replicate, if_pos (by omega), Option.getD_none]
      · rw [if_neg hlt, List.getElem?_replicate, if_neg (by omega)]

private theorem length_eq_of_agree {xs ys : List ValueTree} (h : ∀ n : Nat, f.Agree xs[n]? ys[n]?) :
    xs.length = ys.length := by
  have hle : ∀ {xs ys : List ValueTree}, (∀ n : Nat, f.Agree xs[n]? ys[n]?) → ys.length ≤ xs.length := by
    intro xs ys h
    have hnone := (h xs.length).isSome_eq
    rw [List.getElem?_eq_none (Nat.le_refl _), Option.isSome_none] at hnone
    rw [eq_comm, Option.isSome_eq_false_iff, Option.isNone_iff_eq_none] at hnone
    exact List.getElem?_eq_none_iff.1 hnone
  exact Nat.le_antisymm (hle fun n => (h n).symm) (hle h)

/-- The items after something was put under an index. -/
theorem ValueTree.getElem?_items_mergeAt {t : ValueTree} {xs : List ValueTree} (ht : t.items = xs) (v : ValueTree)
    (i : Int) (path : Path) (n : Nat) :
    (mergeAt v (.index i :: path) t).items[n]? =
      if n = place i xs.length then some (mergeAt v path (xs[n]?.getD unit))
      else if n < place i xs.length then some (xs[n]?.getD unit)
      else xs[n]? := by
  rw [mergeAt, getElem?_items_withItem, ht]
  by_cases hn : n = place i xs.length
  · rw [if_pos hn, if_pos hn, hn, List.getD_eq_getElem?_getD]
  · rw [if_neg hn, if_neg hn]

theorem ValueTree.mergeAt_index_eq (v : ValueTree) (i : Int) (path : Path) (t : ValueTree) :
    ∃ origin, mergeAt v (.index i :: path) t = .array origin (mergeAt v (.index i :: path) t).items := by
  obtain ⟨origin, items, h⟩ :=
    withItem_eq t (place i t.items.length) (mergeAt v path (t.items.getD (place i t.items.length) unit))
  exact ⟨origin, by rw [mergeAt, h]; rfl⟩

/-! ### What keeps sections alike -/

namespace Alike

variable {s s' : Option ValueTree} {origin : Option String} {x : Scalar} {path : Path}

theorem symm (h : Alike f s s') : Alike f s' s := by
  cases h with
  | same => exact .same s
  | tables hagree => exact .tables hagree.symm
  | arrays hagree => exact .arrays fun n => (hagree n).symm

private theorem of_isTable {t t' : ValueTree} (ht : t.IsTable) (ht' : t'.IsTable)
    (h : f.Agree (t.entry? f.key) (t'.entry? f.key)) : Alike f (some t) (some t') := by
  obtain ⟨o, es, rfl⟩ := ht
  obtain ⟨o', es', rfl⟩ := ht'
  exact .tables h

private theorem placed_cons (v : ValueTree) (step : Step) (path : Path) (old : Option ValueTree) :
    ValueTree.placed v (step :: path) old = ValueTree.mergeAt v (step :: path) (old.getD unit) := rfl

/-- A scalar that is put in sections that are alike leaves them so. -/
theorem placed (h : Alike f s s') :
    Alike f (some (ValueTree.placed (.scalar origin x) path s))
    (some (ValueTree.placed (.scalar origin x) path s')) := by
  rcases path with _ | ⟨step, path⟩
  · exact .same _
  · rw [placed_cons, placed_cons]
    cases h with
    | same => exact .same _
    | @tables o o' es es' hagree =>
      rw [Option.getD_some, Option.getD_some]
      cases step with
      | key name =>
        refine of_isTable ?_ ?_ ?_
        · exact mergeAt_key (.scalar origin x) name path _ ▸ isTable_withEntry ..
        · exact mergeAt_key (.scalar origin x) name path _ ▸ isTable_withEntry ..
        · rw [entry?_mergeAt, entry?_mergeAt]
          by_cases hname : Text.lowerAscii f.key = Text.lowerAscii name
          · rw [if_pos hname, if_pos hname]
            exact .placed ..
          · rwa [if_neg hname, if_neg hname]
      | index i =>
        -- there is no item to keep
        rw [mergeAt_index (by simp), mergeAt_index (t := .table o' es') (by simp)]
        exact .same _
    | @arrays o o' xs ys hagree =>
      rw [Option.getD_some, Option.getD_some]
      cases step with
      | key name =>
        rw [mergeAt_key, mergeAt_key]
        exact .same _
      | index i =>
        obtain ⟨u, hu⟩ := mergeAt_index_eq (.scalar origin x) i path (.array o xs)
        obtain ⟨u', hu'⟩ := mergeAt_index_eq (.scalar origin x) i path (.array o' ys)
        rw [hu, hu']
        refine .arrays fun n => ?_
        have hxs : (ValueTree.array o xs).items = xs := rfl
        have hys : (ValueTree.array o' ys).items = ys := rfl
        rw [getElem?_items_mergeAt hxs, getElem?_items_mergeAt hys, length_eq_of_agree hagree]
        by_cases hn : n = place i ys.length
        · rw [if_pos hn, if_pos hn]
          exact .mergeAt ..
        · rw [if_neg hn, if_neg hn]
          by_cases hlt : n < place i ys.length
          · rw [if_pos hlt, if_pos hlt]
            exact (hagree n).getD
          · rw [if_neg hlt, if_neg hlt]
            exact hagree n

theorem mergeAt {t t' : ValueTree} (h : Alike f (t.entry? f.home.key) (t'.entry? f.home.key)) :
    Alike f (ValueTree.entry? (ValueTree.mergeAt (.scalar origin x) path t) f.home.key)
      (ValueTree.entry? (ValueTree.mergeAt (.scalar origin x) path t') f.home.key) := by
  rcases path with _ | ⟨name | i, path⟩
  · exact .same _
  · rw [entry?_mergeAt, entry?_mergeAt]
    by_cases hname : Text.lowerAscii f.home.key = Text.lowerAscii name
    · rw [if_pos hname, if_pos hname]
      exact h.placed
    · rwa [if_neg hname, if_neg hname]
  · rw [entry?_mergeAt_index, entry?_mergeAt_index]
    exact .same _

theorem mergeLayer {t t' : ValueTree} {layer : Layer} (h : Alike f (t.entry? f.home.key) (t'.entry? f.home.key))
    (hlayer : ∀ e ∈ layer, ∃ origin x, e.2 = .scalar origin x) :
    Alike f (ValueTree.entry? (t.mergeLayer layer) f.home.key)
    (ValueTree.entry? (t'.mergeLayer layer) f.home.key) := by
  induction layer generalizing t t' with
  | nil => exact h
  | cons e layer ih =>
    obtain ⟨origin, x, hx⟩ := hlayer e (by simp)
    have hone : Alike f (ValueTree.entry? (ValueTree.mergeAt e.2 e.1 t) f.home.key)
        (ValueTree.entry? (ValueTree.mergeAt e.2 e.1 t') f.home.key) := by
      rw [hx]
      exact h.mergeAt
    exact ih hone fun e' he' => hlayer e' (by simp [he'])

end Alike

/-! ### Reading -/

/-- What is found for a field in its section, which is no scalar. -/
def Field.found (f : Field) (s : ValueTree) : Option ValueTree := (s.field? f.key f.position).map (·.2)

theorem Field.found_table (f : Field) (o : Option String) (es : List (String × ValueTree)) :
    f.found (.table o es) = ValueTree.entry? (.table o es) f.key := by
  rw [ValueTree.entry?, Field.lowerAscii_key, found, ValueTree.field?, Option.map_map]
  exact Option.map_id'

theorem Field.found_array (f : Field) (o : Option String) (xs : List ValueTree) :
    f.found (.array o xs) = xs[f.position]? := by
  rw [found, ValueTree.field?, Option.map_map]
  exact Option.map_id'

/-- A field is read from what is found for it, or has its default. -/
theorem Field.readIn_eq_ok_iff_found {t s : ValueTree} (hs : t.sectionTree f.home = .ok s) {y : f.Content} :
    f.readIn t = .ok y ↔ (f.found s).elim (f.get {} = y) fun v => f.read v = .ok y := by
  rw [readIn, hs, found]
  change readField f.read f.home s f.key f.position (f.get {}) = .ok y ↔ _
  unfold readField
  cases s.field? f.key f.position with
  | none => exact ⟨Except.ok.inj, congrArg _⟩
  | some e => exact mapError_eq_ok_iff

theorem Field.Agree.elim {v w : Option ValueTree} (h : f.Agree v w) {y : f.Content}
    (hv : v.elim (f.get {} = y) fun v => f.read v = .ok y) : w.elim (f.get {} = y) fun w => f.read w = .ok y := by
  rcases h with rfl | ⟨v', w', rfl, -, hunread, -⟩
  · exact hv
  · exact absurd hv (hunread y)

/-- Sections that are alike are read alike. -/
theorem Alike.readIn {t t' : ValueTree} {y : f.Content} (h : Alike f (t.entry? f.home.key) (t'.entry? f.home.key))
    (ht : f.readIn t = .ok y) : f.readIn t' = .ok y := by
  generalize hs : t.entry? f.home.key = s at h
  generalize hs' : t'.entry? f.home.key = s' at h
  cases h with
  | same => rwa [← Field.readIn_congr (hs.trans hs'.symm)]
  | @tables o o' es es' hagree =>
    have hsection : t.sectionTree f.home = .ok (.table o es) := by rw [ValueTree.sectionTree, hs]
    have hsection' : t'.sectionTree f.home = .ok (.table o' es') := by rw [ValueTree.sectionTree, hs']
    rw [Field.readIn_eq_ok_iff_found hsection, Field.found_table] at ht
    rw [Field.readIn_eq_ok_iff_found hsection', Field.found_table]
    exact hagree.elim ht
  | @arrays o o' xs ys hagree =>
    have hsection : t.sectionTree f.home = .ok (.array o xs) := by rw [ValueTree.sectionTree, hs]
    have hsection' : t'.sectionTree f.home = .ok (.array o' ys) := by rw [ValueTree.sectionTree, hs']
    rw [Field.readIn_eq_ok_iff_found hsection, Field.found_array] at ht
    rw [Field.readIn_eq_ok_iff_found hsection', Field.found_array]
    exact (hagree f.position).elim ht

/-! ### Exchanging two values -/

section Swap

variable {p q : Path} {o o' : Option String} {x y : Scalar}

/-- Two entries of a table, of which not one is the field and the other in the field. -/
private theorem alike_swap_keys {name name' : String}
    (h : Path.collides f.key (Path.lower (.key name :: p)) (Path.lower (.key name' :: q)) = false)
    (s : ValueTree) :
    Alike f (some (mergeAt (.scalar o' y) (.key name' :: q) (mergeAt (.scalar o x) (.key name :: p) s)))
      (some (mergeAt (.scalar o x) (.key name :: p) (mergeAt (.scalar o' y) (.key name' :: q) s))) := by
  refine .of_isTable ?_ ?_ ?_
  · exact mergeAt_key (.scalar o' y) name' q _ ▸ isTable_withEntry ..
  · exact mergeAt_key (.scalar o x) name p _ ▸ isTable_withEntry ..
  simp only [entry?_mergeAt, Field.lowerAscii_key]
  by_cases hname : f.key = Text.lowerAscii name
  · by_cases hname' : f.key = Text.lowerAscii name'
    · -- both are in the field and spoil its value
      rw [if_pos hname', if_pos hname, if_pos hname, if_pos hname']
      cases p with
      | nil => simp [Path.lower, Path.collides, ← hname, ← hname'] at h
      | cons step p =>
        cases q with
        | nil => simp [Path.lower, Path.collides, ← hname, ← hname'] at h
        | cons step' q =>
          exact .inr ⟨_, _, rfl, rfl, Field.read_mergeAt_ne_ok _ step' q _, Field.read_mergeAt_ne_ok _ step p _⟩
    · rw [if_neg hname', if_pos hname, if_pos hname, if_neg hname']
      exact .refl ..
  · by_cases hname' : f.key = Text.lowerAscii name'
    · rw [if_pos hname', if_neg hname, if_neg hname, if_pos hname']
      exact .refl ..
    · rw [if_neg hname', if_neg hname, if_neg hname, if_neg hname']
      exact .refl ..

private theorem getD_of_filled {c : Prop} [Decidable c] (v : Option ValueTree) :
    (if c then some (v.getD unit) else v).getD unit = v.getD unit := by
  split <;> rfl

/-- Two items of an array, counted from its start, or two values within one item. -/
private theorem alike_swap_items {i j : Int}
    (h : Path.collides f.key (Path.lower (.index i :: p)) (Path.lower (.index j :: q)) = false) (s : ValueTree) :
    Alike f (some (mergeAt (.scalar o' y) (.index j :: q) (mergeAt (.scalar o x) (.index i :: p) s)))
      (some (mergeAt (.scalar o x) (.index i :: p) (mergeAt (.scalar o' y) (.index j :: q) s))) := by
  simp only [Path.lower, List.map_cons, Path.collides, List.isEmpty_map, Bool.or_eq_false_iff,
    decide_eq_false_iff_not, Int.not_lt] at h
  obtain ⟨⟨hi, hj⟩, hcollides⟩ := h
  have hplace : ∀ n, place i n = i.toNat := fun _ => if_pos hi
  have hplace' : ∀ n, place j n = j.toNat := fun _ => if_pos hj
  obtain ⟨u, hu⟩ := mergeAt_index_eq (.scalar o' y) j q (mergeAt (.scalar o x) (.index i :: p) s)
  obtain ⟨u', hu'⟩ := mergeAt_index_eq (.scalar o x) i p (mergeAt (.scalar o' y) (.index j :: q) s)
  rw [hu, hu']
  refine .arrays fun n => ?_
  simp only [getElem?_items_mergeAt rfl, hplace, hplace']
  by_cases hij : i.toNat = j.toNat
  · have heq : i = j := by omega
    rw [hij]
    by_cases hn : n = j.toNat
    · -- both are in one item and spoil it
      rw [if_pos hn, if_pos hn, if_pos hn, if_pos hn]
      cases p with
      | nil => simp [heq] at hcollides
      | cons step p =>
        cases q with
        | nil => simp [heq] at hcollides
        | cons step' q =>
          exact .inr ⟨_, _, rfl, rfl, Field.read_mergeAt_ne_ok _ step' q _, Field.read_mergeAt_ne_ok _ step p _⟩
    · rw [if_neg hn, if_neg hn, if_neg hn, if_neg hn]
      exact .refl ..
  · refine .inl ?_
    by_cases hn : n = i.toNat
    · simp [hn, hij, getD_of_filled]
    · by_cases hn' : n = j.toNat
      · simp [hn', Ne.symm hij, getD_of_filled]
      · by_cases hlt : n < i.toNat <;> by_cases hlt' : n < j.toNat <;> simp [hn, hn', hlt, hlt']

/-- Two values in one section. -/
private theorem alike_swap_section (h : Path.collides f.key p.lower q.lower = false) (s : Option ValueTree) :
    Alike f (some (placed (.scalar o' y) q (some (placed (.scalar o x) p s))))
      (some (placed (.scalar o x) p (some (placed (.scalar o' y) q s)))) := by
  rcases p with _ | ⟨name | i, p⟩
  · simp [Path.lower, Path.collides] at h
  · rcases q with _ | ⟨name' | j, q⟩
    · simp [Path.lower, Path.collides] at h
    · exact alike_swap_keys h (s.getD unit)
    · simp [Path.lower, Path.collides] at h
  · rcases q with _ | ⟨name' | j, q⟩
    · simp [Path.lower, Path.collides] at h
    · simp [Path.lower, Path.collides] at h
    · exact alike_swap_items h (s.getD unit)

/-- Two values that are not in each other's way can be put in either order. -/
theorem alike_swap (h : p.lower.hinders f q.lower = false) (t : ValueTree) :
    Alike f (ValueTree.entry? (mergeAt (.scalar o' y) q (mergeAt (.scalar o x) p t)) f.home.key)
      (ValueTree.entry? (mergeAt (.scalar o x) p (mergeAt (.scalar o' y) q t)) f.home.key) := by
  rcases p with _ | ⟨name | i, p⟩
  · simp [Path.lower, Path.hinders] at h
  · rcases q with _ | ⟨name' | j, q⟩
    · simp [Path.lower, Path.hinders] at h
    · change (Text.lowerAscii name == f.home.key && Text.lowerAscii name' == f.home.key &&
        Path.collides f.key (Path.lower p) (Path.lower q)) = false at h
      simp only [entry?_mergeAt, Field.lowerAscii_home]
      by_cases hname : f.home.key = Text.lowerAscii name
      · by_cases hname' : f.home.key = Text.lowerAscii name'
        · rw [← hname, ← hname', beq_self_eq_true, Bool.true_and, Bool.true_and] at h
          simp only [if_pos hname, if_pos hname']
          exact alike_swap_section h _
        · simp only [if_neg hname', if_pos hname]
          exact .same _
      · simp only [if_neg hname]
        exact .same _
    · simp [Path.lower, Path.hinders] at h
  · simp [Path.lower, Path.hinders] at h

end Swap

/-! ### Exchanging variables -/

namespace Environment

private theorem layer_swap_of_item?_eq_none {e e' : String × String} (pre post : Environment)
    (h : item? e = none ∨ item? e' = none) : layer (pre ++ e :: e' :: post) = layer (pre ++ e' :: e :: post) := by
  simp only [layer_eq, List.filterMap_append, List.filterMap_cons]
  rcases h with h | h
  · rw [h]
  · rw [h]

/-- Two variables that are not in each other's way can be exchanged. -/
private theorem alike_layer_swap {e e' : String × String} {a a' : Path × ValueTree} (ha : item? e = some a)
    (ha' : item? e' = some a') (h : a.1.lower.hinders f a'.1.lower = false) (pre post : Environment) (t : ValueTree) :
    Alike f (ValueTree.entry? (t.mergeLayer (layer (pre ++ e :: e' :: post))) f.home.key)
      (ValueTree.entry? (t.mergeLayer (layer (pre ++ e' :: e :: post))) f.home.key) := by
  have hx : a.2 = variableValue e.2 := (item?_eq_some_iff.1 ha).2.2
  have hx' : a'.2 = variableValue e'.2 := (item?_eq_some_iff.1 ha').2.2
  have hpost : ∀ b ∈ layer post, ∃ origin x, b.2 = .scalar origin x := by
    intro b hb
    obtain ⟨e, -, -, -, hb⟩ := mem_layer_iff.1 hb
    exact ⟨_, _, hb⟩
  have hswap : Alike f (ValueTree.entry? (mergeAt a'.2 a'.1 (mergeAt a.2 a.1 (t.mergeLayer (layer pre)))) f.home.key)
      (ValueTree.entry? (mergeAt a.2 a.1 (mergeAt a'.2 a'.1 (t.mergeLayer (layer pre)))) f.home.key) := by
    rw [hx, hx']
    exact alike_swap h _
  simp only [layer_eq, List.filterMap_append, List.filterMap_cons, ha, ha', mergeLayer, List.foldl_append,
    List.foldl_cons]
  exact hswap.mergeLayer hpost

/-- Where no two variables are in each other's way, every order of them gives a field the same content. -/
theorem Reordered.readIn_iff {env env' : Environment} (h : env.Reordered env') (henv : env.IsUnordered)
    (t : ValueTree) {y : f.Content} :
    f.readIn (t.mergeLayer env.layer) = .ok y ↔ f.readIn (t.mergeLayer env'.layer) = .ok y := by
  induction h with
  | refl => exact Iff.rfl
  | trans hfirst _ ih ih' => exact (ih henv).trans (ih' (hfirst.isUnordered henv))
  | @swap e e' pre post _ hkeys =>
    cases ha : item? e with
    | none => rw [layer_swap_of_item?_eq_none pre post (.inl ha)]
    | some a =>
      cases ha' : item? e' with
      | none => rw [layer_swap_of_item?_eq_none pre post (.inr ha')]
      | some a' =>
        obtain ⟨hvalue, hpath, -⟩ := item?_eq_some_iff.1 ha
        obtain ⟨hvalue', hpath', -⟩ := item?_eq_some_iff.1 ha'
        obtain ⟨key, hkey, hpath⟩ := Option.map_eq_some_iff.1 hpath
        obtain ⟨key', hkey', hpath'⟩ := Option.map_eq_some_iff.1 hpath'
        have hne : key ≠ key' := fun heq => hkeys key hkey (heq ▸ hkey')
        have hfree := henv e (by simp) e' (by simp) hvalue hvalue' key hkey key' hkey' hne f
        rw [hpath, hpath'] at hfree
        have halike := alike_layer_swap ha ha' hfree pre post t
        exact ⟨halike.readIn, halike.symm.readIn⟩

end Environment

/-- Where no two variables are in each other's way, settings that one order of them gives come of every other. -/
theorem Settings.load_of_reordered {env env' : Environment} {t : FileTree} {c : Settings}
    (h : Settings.load env t = .ok c) (henv : env.IsUnordered) (hreordered : env.Reordered env') :
    Settings.load env' t = .ok c := by
  obtain ⟨file, hfile⟩ := exists_file_of_layered h
  rw [Settings.load, layered_eq fitsLayer_default hfile, Settings.ofTree_eq_ok_iff] at h
  rw [hreordered.lookup_eq] at hfile
  rw [Settings.load, layered_eq fitsLayer_default hfile, Settings.ofTree_eq_ok_iff]
  exact fun f => (hreordered.readIn_iff henv _).1 (h f)

end ResourceWatch

import ResourceWatch.Proofs.Settings.Order

/-!
# Overriding settings with nothing

Settings that are overridden become the lowest layer themselves, and the environment is merged over them once more, in
an order of its own.  Where a file says nothing of them, and they are what every order of the variables gives, that
changes nothing: field by field, the tree over the loaded settings follows the tree that they come from in that order
(`Follows`), so they come of it again (`override_with_nothing`).
-/

namespace ResourceWatch

open ValueTree

namespace ValueTree

/-! ### Sections under merging -/

/-- What is put under the path goes to an item of the section. -/
def Path.entersItem (home : Section) : Path → Bool
  | .key name :: .index _ :: _ => name == home.key
  | _ => false

/-- The section is an array. -/
def hasArray (t : ValueTree) (home : Section) : Bool :=
  match t.entry? home.key with
  | some (.array _ _) => true
  | _ => false

variable {t t₁ t₂ v : ValueTree} {home : Section} {path : Path}

theorem entry?_mergeAt_congr {key : String} (h : t₁.entry? key = t₂.entry? key) :
    entry? (mergeAt v path t₁) key = entry? (mergeAt v path t₂) key := by
  rcases path with _ | ⟨name | i, path⟩
  · rfl
  · rw [entry?_mergeAt, entry?_mergeAt, h]
  · rw [entry?_mergeAt_index, entry?_mergeAt_index]

/-- What takes the place of a whole section, or makes a new array of it, leaves nothing of what was there. -/
theorem entry?_mergeAt_whole (h : path.lower.isWhole home = true)
    (h₁ : path.lower.entersItem home = true → t₁.hasArray home = false)
    (h₂ : path.lower.entersItem home = true → t₂.hasArray home = false) (origin : Option String) (x : Scalar) :
    entry? (mergeAt (.scalar origin x) path t₁) home.key = entry? (mergeAt (.scalar origin x) path t₂) home.key := by
  rcases path with _ | ⟨name | i, path⟩
  · rfl
  · rcases path with _ | ⟨name' | j, path⟩
    · have hname : Text.lowerAscii name = home.key := by simpa [Path.lower, Path.isWhole] using h
      simp [entry?_mergeAt, hname, placed, overlay]
    · simp [Path.lower, Path.isWhole] at h
    · have hname : Text.lowerAscii name = home.key := by simpa [Path.lower, Path.isWhole] using h
      have hitem : Path.entersItem home (Path.lower (.key name :: .index j :: path)) = true := by
        simp [Path.lower, Path.entersItem, hname]
      have hnew : ∀ t : ValueTree, t.hasArray home = false →
          mergeAt (.scalar origin x) (.index j :: path) ((t.entry? home.key).getD unit) =
            mergeAt (.scalar origin x) (.index j :: path) unit := by
        intro t ht
        refine mergeAt_index (fun origin' items heq => ?_) j
        cases hentry : t.entry? home.key with
        | none => simp [hentry, unit] at heq
        | some s => simp_all [hasArray]
      simp [entry?_mergeAt, hname, placed, hnew t₁ (h₁ hitem), hnew t₂ (h₂ hitem)]
  · rw [entry?_mergeAt_index, entry?_mergeAt_index]

theorem Holds.hasArray {f : Field} {w : ValueTree} (h : t.Holds f w) : t.hasArray f.home = false := by
  obtain ⟨origin, es, hentry, -⟩ := h
  rw [ValueTree.hasArray, hentry]

theorem hasArray_mergeAt (hpath : path.lower.isWhole home = false) (h : t.hasArray home = false) :
    (mergeAt v path t).hasArray home = false := by
  rcases path with _ | ⟨name | i, path⟩
  · simp [Path.lower, Path.isWhole] at hpath
  · by_cases hname : home.key = Text.lowerAscii name
    · rcases path with _ | ⟨name' | j, path⟩
      · simp [Path.lower, Path.isWhole, hname] at hpath
      · obtain ⟨origin, es, htable⟩ := isTable_withEntry ((t.entry? home.key).getD unit) name'
          (placed v path (ValueTree.entry? ((t.entry? home.key).getD unit) name'))
        rw [← mergeAt_key] at htable
        have hentry : ValueTree.entry? (mergeAt v (.key name :: .key name' :: path) t) home.key =
            some (.table origin es) := by
          rw [entry?_mergeAt, if_pos (by rw [Field.lowerAscii_home, hname]), ← htable]
          rfl
        rw [hasArray, hentry]
      · simp [Path.lower, Path.isWhole, hname] at hpath
    · rwa [hasArray, entry?_mergeAt, if_neg (by rwa [Field.lowerAscii_home]), ← hasArray]
  · simp [Path.lower, Path.isWhole] at hpath

/-! ### A tree that follows another -/

/-- The field is read from the second tree as from the first, if the first gives it what the settings have: their
sections are equal, or the second has the value of the settings, or the value of the first if that can be read. -/
inductive Follows (c : Settings) (f : Field) (items : Prop) (t₁ t₂ : ValueTree) : Prop
  | same (h : t₁.entry? f.home.key = t₂.entry? f.home.key)
  | beside {w : ValueTree} (h : t₂.Holds f w) (hitems : items → t₁.hasArray f.home = false)
    (hw : w = f.value c ∨ ∃ v, t₁.Holds f v ∧ (v = w ∨ ∀ x, f.read v ≠ .ok x))

namespace Follows

variable {c : Settings} {f : Field} {items : Prop}

theorem mergeAt (h : Follows c f items t₁ t₂) {origin : Option String} {x : Scalar}
    (hpath : path.lower.entersItem f.home = true → items) :
    Follows c f items (mergeAt (.scalar origin x) path t₁) (ValueTree.mergeAt (.scalar origin x) path t₂) := by
  cases h with
  | same h => exact .same (entry?_mergeAt_congr h)
  | beside h hitems hw =>
    cases hwhole : path.lower.isWhole f.home with
    | true => exact .same (entry?_mergeAt_whole hwhole (fun hi => hitems (hpath hi)) (fun _ => h.hasArray) ..)
    | false =>
      have hitems' := fun hi => hasArray_mergeAt (v := .scalar origin x) hwhole (hitems hi)
      rcases Path.touches_or_within hwhole with htouch | ⟨rest, hrest⟩
      · refine .beside (h.mergeAt_of_not_touches htouch) hitems' (hw.imp_right fun ⟨v, hv, hvw⟩ => ?_)
        exact ⟨v, hv.mergeAt_of_not_touches htouch, hvw⟩
      · refine .beside (h.mergeAt_within hrest) hitems' (.inr ⟨_, Holds.of_mergeAt hrest t₁ _, ?_⟩)
        -- at the field itself the scalar makes both values equal; deeper, it spoils the first for good or until then
        cases rest with
        | nil => exact .inl rfl
        | cons step rest => exact .inr (Field.read_mergeAt_ne_ok _ step rest _)

theorem mergeLayer {layer : Layer} (h : Follows c f items t₁ t₂)
    (hlayer : ∀ e ∈ layer, (∃ origin x, e.2 = .scalar origin x) ∧ (e.1.lower.entersItem f.home = true → items)) :
    Follows c f items (t₁.mergeLayer layer) (t₂.mergeLayer layer) := by
  induction layer generalizing t₁ t₂ with
  | nil => exact h
  | cons e layer ih =>
    obtain ⟨⟨origin, x, hx⟩, hitem⟩ := hlayer e (by simp)
    have hone : Follows c f items (ValueTree.mergeAt e.2 e.1 t₁) (ValueTree.mergeAt e.2 e.1 t₂) := by
      rw [hx]
      exact h.mergeAt hitem
    exact ih hone fun e' he' => hlayer e' (by simp [he'])

theorem readIn (h : Follows c f items t₁ t₂) (h₁ : f.readIn t₁ = .ok (f.get c)) : f.readIn t₂ = .ok (f.get c) := by
  cases h with
  | same h => rwa [← Field.readIn_congr h]
  | beside h _ hw =>
    rw [Field.readIn_eq_ok_iff h]
    rcases hw with rfl | ⟨v, hv, hvw⟩
    · exact Field.read_value c f
    · rw [Field.readIn_eq_ok_iff hv] at h₁
      rcases hvw with rfl | hspoilt
      · exact h₁
      · exact absurd h₁ (hspoilt _)

end Follows

end ValueTree

/-! ### Overriding -/

/-- Every entry of the layer is plain, and none gives a value to a field. -/
structure ValueTree.Layer.SetsNothing (layer : Layer) : Prop where
  entries : ∀ e ∈ layer, IsPlainEntry e
  given : ∀ f : Field, layer.given f = []

/-- A layer whose keys lead to no section sets nothing. -/
theorem ValueTree.Layer.setsNothing_of_keys {layer : Layer}
    (h : ∀ e ∈ layer, ∃ name path, e.1.lower = .key name :: path ∧ ∀ home : Section, name ≠ home.key) :
    layer.SetsNothing := by
  refine ⟨fun e he => .inr (.inr fun f => ?_), fun f => List.flatMap_eq_nil_iff.2 fun e he => ?_⟩
  · obtain ⟨name, path, hpath, hname⟩ := h e he
    rcases path with _ | ⟨_ | _, path⟩ <;> simp [hpath, Path.touches, hname f.home]
  · obtain ⟨name, path, hpath, hname⟩ := h e he
    rw [Field.givenBy, if_neg (by simp [hpath, Field.path, hname f.home]), if_neg (by simp [hpath, hname f.home])]

/-- A variable goes to an item of the section. -/
def Environment.SetsItem (env : Environment) (home : Section) : Prop :=
  ∃ e ∈ env, e.2 ≠ "" ∧ ∃ path ∈ variablePath? e.1, path.lower.entersItem home = true

/-- Settings that every order of the variables gives are the same again when they are overridden with files that set
no field, whatever the order in each override, as long as their numbers can stand in a layer and no variable goes to
an item of a section that the first file made an array. -/
theorem override_with_nothing {env : Environment} {t : FileTree} {c : Settings}
    (h : ∀ env', env.Reordered env' → Settings.load env' t = .ok c) (hfits : c.FitsLayer) {file : Layer}
    (hfile : (env.lookup settingsVariable).elim (.ok []) (fileLayer t) = .ok file)
    (harray : ∀ home, env.SetsItem home → ((Settings.tree {}).mergeLayer file).hasArray home = false)
    (overrides : List (String × Environment))
    (hoverrides : ∀ o ∈ overrides,
      (∃ layer, fileLayer t o.1 = .ok layer ∧ layer.SetsNothing) ∧ env.Reordered o.2) :
    overrides.foldlM (fun s o => s.override o.1 o.2 t) c = .ok c := by
  -- one override gives the same settings, so the next one starts where this one did
  have hone : ∀ o ∈ overrides, c.override o.1 o.2 t = .ok c := by
    intro o ho
    obtain ⟨⟨layer, hlayer, hnothing⟩, hreordered⟩ := hoverrides o ho
    have hload := h o.2 hreordered
    rw [hreordered.lookup_eq] at hfile
    rw [Settings.load, layered_eq fitsLayer_default hfile, Settings.ofTree_eq_ok_iff] at hload
    have hlayer' : (some o.1).elim (.ok []) (fileLayer t) = .ok layer := hlayer
    rw [Settings.override, layered_eq hfits hlayer', Settings.ofTree_eq_ok_iff]
    intro f
    have hstart : Follows c f (env.SetsItem f.home) ((Settings.tree {}).mergeLayer file)
        (c.tree.mergeLayer layer) := by
      have hkept := (c.holds_tree f).mergeLayer hnothing.entries
      rw [hnothing.given f] at hkept
      exact .beside hkept (harray f.home) (.inl rfl)
    refine (hstart.mergeLayer fun e he => ?_).readIn (hload f)
    obtain ⟨e', hmem, hvalue, hpath, hx⟩ := Environment.mem_layer_iff.1 he
    exact ⟨⟨_, _, hx⟩, fun hitem => ⟨e', (hreordered.mem_iff e').2 hmem, hvalue, _, hpath, hitem⟩⟩
  clear hoverrides
  induction overrides with
  | nil => rfl
  | cons o overrides ih =>
    rw [List.foldlM_cons, hone o (by simp)]
    exact ih fun o' ho' => hone o' (by simp [ho'])

/-- A tree with a file of settings and one that sets nothing. -/
private def treeWithNote (text : String) : FileTree where
  nodes := [(["g.toml"], .file 0o644 (.text text)), (["note.toml"], .file 0o644 (.text "note = 'x'"))]

private theorem fileLayer_note (text : String)
    (hpath : settingsPath (treeWithNote text) "note.toml" = .ok "/note.toml")
    (horigin : (treeWithNote text).relativePath "/note.toml" = "note.toml")
    (htext : (treeWithNote text).text "/note.toml" = .ok "note = 'x'") :
    ∃ layer, fileLayer (treeWithNote text) "note.toml" = .ok layer ∧ layer.SetsNothing := by
  have hes : Toml.parse? "note = 'x'" = some [("note", .string "x")] := by cbv
  refine ⟨_, fileLayer_of_parse "note.toml" "/note.toml" "note.toml" hpath horigin htext hes, ?_⟩
  refine ValueTree.Layer.setsNothing_of_keys fun e he => ⟨"note", [], ?_, fun home => by cases home <;> decide⟩
  obtain rfl := List.mem_singleton.1 he
  decide +kernel

private theorem apart_of_ne {name name' : String} (h : variableKey? name ≠ variableKey? name') (key : String)
    (hkey : variableKey? name = some key) : variableKey? name' ≠ some key :=
  fun hkey' => h (hkey.trans hkey'.symm)

/-- Settings from a file and two variables, overridden twice, the second time with the variables the other way
about. -/
theorem override_twice_with_nothing : ∃ (env env' : Environment) (t : FileTree) (c : Settings),
    Settings.load env t = .ok c ∧ c.codegen.protoModule = "api" ∧ c.client = ⟨7, 8⟩ ∧ env ≠ env' ∧
    env.Reordered env' ∧
    [("note.toml", env), ("note.toml", env')].foldlM (fun s o => s.override o.1 o.2 t) c = .ok c := by
  let timeout := ("GETWATCH__CLIENT__REQUEST_TIMEOUT_IN_MS", "7")
  let queue := ("GETWATCH__CLIENT__WATCH_QUEUE_SIZE", "8")
  let env : Environment := [("GETWATCH_CONFIG", "g.toml"), timeout, queue]
  let t := treeWithNote "codegen.proto_module = 'api'"
  have hload : Settings.load env t = .ok { codegen := { protoModule := "api" }, client := ⟨7, 8⟩ } := by
    decide +kernel
  have hunordered : env.IsUnordered := by decide +kernel
  have hreordered : env.Reordered [("GETWATCH_CONFIG", "g.toml"), queue, timeout] :=
    .swap [("GETWATCH_CONFIG", "g.toml")] [] (by decide) (apart_of_ne (by decide +kernel))
  have hfits : Settings.FitsLayer { codegen := { protoModule := "api" }, client := ⟨7, 8⟩ } := by
    intro f
    cases f <;> decide
  have hes : Toml.parse? "codegen.proto_module = 'api'" =
      some [("codegen", .table .dotted [("proto_module", .string "api")])] := by cbv
  have hfile := fileLayer_of_parse (t := t) "g.toml" "/g.toml" "g.toml" (by decide +kernel) (by decide +kernel)
    (by decide +kernel) hes
  have hnote := fileLayer_note "codegen.proto_module = 'api'" (by decide +kernel) (by decide +kernel)
    (by decide +kernel)
  refine ⟨env, _, t, _, hload, rfl, rfl, by decide, hreordered, ?_⟩
  refine override_with_nothing (fun env' => Settings.load_of_reordered hload hunordered) hfits hfile ?_ _ ?_
  · rintro home -
    cases home <;> decide +kernel
  · intro o ho
    simp only [List.mem_cons, List.not_mem_nil, or_false] at ho
    rcases ho with rfl | rfl
    · exact ⟨hnote, .refl env⟩
    · exact ⟨hnote, hreordered⟩

/-- A number above `2 ^ 63` comes out of the environment but cannot stand in a layer; a variable that sets one item of
an array in the file leaves the other, but takes the place of the whole section when that has become a table; and one
for the whole section loses to one for a field of it if it comes first, but not if it comes second. -/
theorem override_with_nothing_changes :
    (∃ (env : Environment) (t : FileTree) (c : Settings), Settings.load env t = .ok c ∧ c.validate = .ok c ∧
      (∃ layer, fileLayer t "note.toml" = .ok layer ∧ layer.SetsNothing) ∧
      c.override "note.toml" env t = .error (.tooLarge 18446744073709551615)) ∧
    (∃ (env : Environment) (t : FileTree) (c : Settings), Settings.load env t = .ok c ∧ c.validate = .ok c ∧
      (∃ layer, fileLayer t "note.toml" = .ok layer ∧ layer.SetsNothing) ∧
      c.client.watchQueue = 6 ∧ ∃ c', c.override "note.toml" env t = .ok c' ∧ c'.client.watchQueue = 1) ∧
    ∃ (env env' : Environment) (t : FileTree) (c : Settings), Settings.load env t = .ok c ∧ c.validate = .ok c ∧
      (∃ layer, fileLayer t "note.toml" = .ok layer ∧ layer.SetsNothing) ∧ env.Reordered env' ∧
      c.override "note.toml" env t = .ok c ∧
      c.override "note.toml" env' t = .error (.notSection .client (.integer 3)) := by
  refine ⟨?_, ?_, ?_⟩
  · exact ⟨[("GETWATCH__CLIENT__WATCH_QUEUE_SIZE", "18446744073709551615")], treeWithNote "",
      { client := ⟨3000, 18446744073709551615⟩ }, by decide +kernel, by decide +kernel,
      fileLayer_note "" (by decide +kernel) (by decide +kernel) (by decide +kernel), by decide +kernel⟩
  · exact ⟨[("GETWATCH_CONFIG", "g.toml"), ("GETWATCH__CLIENT[0]", "7")], treeWithNote "client = ['5', '6']",
      { client := ⟨7, 6⟩ }, by decide +kernel, by decide +kernel,
      fileLayer_note _ (by decide +kernel) (by decide +kernel) (by decide +kernel), rfl, { client := ⟨7, 1⟩ },
      by decide +kernel, rfl⟩
  · exact ⟨[("GETWATCH__CLIENT", "3"), ("GETWATCH__CLIENT__WATCH_QUEUE_SIZE", "5")],
      [("GETWATCH__CLIENT__WATCH_QUEUE_SIZE", "5"), ("GETWATCH__CLIENT", "3")], treeWithNote "",
      { client := ⟨3000, 5⟩ }, by decide +kernel, by decide +kernel,
      fileLayer_note "" (by decide +kernel) (by decide +kernel) (by decide +kernel),
      .swap [] [] (by decide) (apart_of_ne (by decide +kernel)), by decide +kernel, by decide +kernel⟩

end ResourceWatch

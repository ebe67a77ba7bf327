import Mathlib
import ResourceWatch.Proofs.Settings.Merging

/-!
# Settings from layers

Settings are loaded from three layers: settings that are there already, a file, and the environment.  Where the
entries of the file and the variables are plain, the fields do not meet: each has the value of the highest layer that
defines it, and the loading succeeds exactly if all these values can be read (`layers_merge_by_field`).  A table
without entries defines nothing, since it is merged entry by entry (`empty_table_keeps_default`).
-/

namespace ResourceWatch

open ValueTree

/-! ### Settings as a layer -/

/-- Every number of the settings can stand in a layer. -/
def Settings.FitsLayer (s : Settings) : Prop := ∀ f : NumberField, f.get s ≤ greatestNumber

/-- The fields of a section as a table. -/
def Settings.sectionTable (s : Settings) (fields : List Field) : ValueTree :=
  .table none (fields.map fun f => (f.key, f.value s))

/-- The settings as a tree. -/
def Settings.tree (s : Settings) : ValueTree :=
  .table none [
    (Section.codegen.key,
      s.sectionTable [.name .targetEnv, .name .protoModule, .name .runtimeCrate, .name .clientType]),
    (Section.client.key, s.sectionTable [.number .requestTimeout, .number .watchQueue]),
    (Section.watch.key, s.sectionTable [.number .eventBuffer, .number .replyBuffer])]

theorem fitsLayer_default : Settings.FitsLayer {} := by
  intro f
  cases f <;> decide

theorem Settings.toTree_of_fitsLayer {s : Settings} (h : s.FitsLayer) : s.toTree = .ok s.tree := by
  have hnumber : ∀ f : NumberField, numberTree (f.get s) = .ok ((Field.number f).value s) := by
    intro f
    rw [numberTree, if_neg (by have := h f; omega)]
    rfl
  simp only [toTree, List.mapM_cons, List.mapM_nil, hnumber, Except.map, bind, Except.bind, pure, Except.pure]
  rfl

theorem Settings.holds_tree (s : Settings) (f : Field) : s.tree.Holds f (f.value s) := by
  rcases f with f | f <;> cases f <;> exact ⟨none, _, rfl, rfl⟩

/-! ### What a layer says of a field -/

/-- A table without entries: put over a value it changes nothing. -/
def ValueTree.isEmptyTable : ValueTree → Bool
  | .table _ [] => true
  | _ => false

/-- A table with entries cannot be read, whatever it was put over. -/
theorem Field.read_overlay {f : Field} {v w : ValueTree} {x : f.Content} :
    f.read (overlay v w) = .ok x ↔ f.read (if v.isEmptyTable then w else v) = .ok x := by
  match v with
  | .scalar _ _ => rfl
  | .array _ _ => rfl
  | .table _ [] => rfl
  | .table origin (e :: es) =>
    obtain ⟨origin', es', h⟩ := isTable_mergeAll (t := w) (.inl (List.cons_ne_nil e es))
    rw [show overlay (.table origin (e :: es)) w = mergeAll (e :: es) w from rfl, h]
    exact iff_of_false (Field.read_table_ne_ok _ _ _) (Field.read_table_ne_ok _ _ _)

/-- Every entry is plain, and no field has two values. -/
structure ValueTree.Layer.IsPlain (layer : Layer) : Prop where
  entries : ∀ e ∈ layer, IsPlainEntry e
  once : ∀ f : Field, (layer.given f).length ≤ 1

instance (layer : Layer) : Decidable layer.IsPlain :=
  decidable_of_iff ((∀ e ∈ layer, IsPlainEntry e) ∧ ∀ f : Field, (layer.given f).length ≤ 1)
    ⟨fun h => ⟨h.1, h.2⟩, fun h => ⟨h.1, h.2⟩⟩

/-- The value of a field in a layer; a table without entries is none. -/
def ValueTree.Layer.value? (layer : Layer) (f : Field) : Option ValueTree :=
  (layer.given f).find? fun v => !v.isEmptyTable

theorem Field.read_overlayAll {f : Field} {layer : Layer} (h : layer.IsPlain) {w : ValueTree} {x : f.Content} :
    f.read (overlayAll (layer.given f) w) = .ok x ↔ f.read ((layer.value? f).getD w) = .ok x := by
  have honce := h.once f
  rw [Layer.value?]
  rcases hgiven : layer.given f with _ | ⟨v, _ | ⟨u, us⟩⟩
  · rfl
  · rw [show overlayAll [v] w = overlay v w from rfl, Field.read_overlay]
    cases hv : v.isEmptyTable <;> simp [hv]
  · simp [hgiven] at honce

/-! ### What the environment says of a field -/

/-- The variable sets the field: it is not empty, and its name leads to the field. -/
def Field.isSetBy (f : Field) (e : String × String) : Bool :=
  e.2 != "" && (variablePath? e.1).any fun path => path.lower == f.path

/-- The value of a variable. -/
def variableValue (s : String) : ValueTree := .scalar (some environmentOrigin) (.ofText s)

namespace Environment

/-- Every variable that is not empty sets a field or touches none, and no field is set twice. -/
structure IsPlain (env : Environment) : Prop where
  names : ∀ e ∈ env, e.2 ≠ "" → ∀ path ∈ variablePath? e.1,
    (∃ f : Field, path.lower = f.path) ∨ ∀ f : Field, path.lower.touches f = false
  once : ∀ f : Field, (env.filter f.isSetBy).length ≤ 1

instance (env : Environment) : Decidable env.IsPlain :=
  decidable_of_iff ((∀ e ∈ env, e.2 ≠ "" → ∀ path ∈ variablePath? e.1,
      (∃ f : Field, path.lower = f.path) ∨ ∀ f : Field, path.lower.touches f = false) ∧
      ∀ f : Field, (env.filter f.isSetBy).length ≤ 1)
    ⟨fun h => ⟨h.1, h.2⟩, fun h => ⟨h.1, h.2⟩⟩

/-- The text that the environment has for a field. -/
def setting? (env : Environment) (f : Field) : Option String := (env.find? f.isSetBy).map (·.2)

/-- The entry of a variable in the layer of the environment. -/
def item? (e : String × String) : Option (Path × ValueTree) :=
  if e.2 = "" then none else (variablePath? e.1).map fun path => (path, variableValue e.2)

theorem layer_eq (env : Environment) : env.layer = env.filterMap item? := rfl

theorem item?_eq_some_iff {e : String × String} {x : Path × ValueTree} :
    item? e = some x ↔ e.2 ≠ "" ∧ variablePath? e.1 = some x.1 ∧ x.2 = variableValue e.2 := by
  by_cases hvalue : e.2 = ""
  · simp [item?, hvalue]
  · rw [item?, if_neg hvalue, Option.map_eq_some_iff]
    constructor
    · rintro ⟨path, hpath, rfl⟩
      exact ⟨hvalue, hpath, rfl⟩
    · rintro ⟨-, hpath, hx⟩
      exact ⟨x.1, hpath, by rw [← hx]⟩

/-- What the layer of the environment gives to a field are the values of the variables that set it. -/
theorem given_layer (env : Environment) (f : Field) :
    env.layer.given f = (env.filter f.isSetBy).map fun e => variableValue e.2 := by
  have hone : ∀ e, (item? e).elim [] f.givenBy = if f.isSetBy e then [variableValue e.2] else [] := by
    intro e
    by_cases hvalue : e.2 = ""
    · simp [item?, Field.isSetBy, hvalue]
    · cases hpath : variablePath? e.1 with
      | none => simp [item?, Field.isSetBy, hpath]
      | some path => simp [item?, Field.isSetBy, Field.givenBy, hvalue, hpath, variableValue, entries, valuesUnder]
  rw [layer_eq, Layer.given]
  induction env with
  | nil => rfl
  | cons e env ih =>
    have he := hone e
    rw [List.filterMap_cons, List.filter_cons]
    cases hitem : item? e with
    | none =>
      rw [hitem, Option.elim_none] at he
      split at he
      · simp at he
      · rename_i hset
        rw [if_neg hset]
        exact ih
    | some x =>
      rw [hitem, Option.elim_some] at he
      rw [List.flatMap_cons, he, ih]
      split <;> rfl

theorem mem_layer_iff {env : Environment} {x : Path × ValueTree} : x ∈ env.layer ↔
    ∃ e ∈ env, e.2 ≠ "" ∧ variablePath? e.1 = some x.1 ∧ x.2 = variableValue e.2 := by
  rw [layer_eq, List.mem_filterMap]
  exact exists_congr fun e => and_congr_right fun _ => item?_eq_some_iff

theorem IsPlain.layer {env : Environment} (h : env.IsPlain) : env.layer.IsPlain := by
  refine ⟨fun x hx => ?_, fun f => ?_⟩
  · obtain ⟨e, hmem, hvalue, hpath, -⟩ := mem_layer_iff.1 hx
    exact .inr (h.names e hmem hvalue _ hpath)
  · rw [given_layer, List.length_map]
    exact h.once f

theorem value?_layer (env : Environment) (f : Field) : env.layer.value? f = (env.setting? f).map variableValue := by
  have htable : ((fun v => !v.isEmptyTable) ∘ fun e : String × String => variableValue e.2) = fun _ => true := rfl
  rw [Layer.value?, given_layer, List.find?_map, htable, List.find?_filter, setting?, Option.map_map]
  simp [Function.comp_def]

end Environment

/-! ### Loading -/

/-- The value of a field in the highest layer that defines it. -/
def topValue (base : Settings) (file : Layer) (env : Environment) (f : Field) : ValueTree :=
  ((env.setting? f).map variableValue).getD ((file.value? f).getD (f.value base))

/-- Settings come of the layers exactly if the value of each field in the highest layer that defines it can be read,
and then they hold what is read. -/
def MergesByField (base : Settings) (file : Layer) (env : Environment)
    (loaded : Except LoadFailure Settings) : Prop :=
  ((∃ s, loaded = .ok s) ↔ ∀ f : Field, ∃ x, f.read (topValue base file env f) = .ok x) ∧
    ∀ s, loaded = .ok s → ∀ f : Field, f.read (topValue base file env f) = .ok (f.get s)

section Loading

variable {base : Settings} {name : Option String} {file : Layer} {env : Environment} {t : FileTree}

theorem layered_eq (hbase : base.FitsLayer) (hfile : name.elim (.ok []) (fileLayer t) = .ok file) :
    base.layered name env t = Settings.ofTree ((base.tree.mergeLayer file).mergeLayer env.layer) := by
  cases name with
  | none =>
    rw [Option.elim_none, Except.ok.injEq] at hfile
    rw [Settings.layered, Settings.toTree_of_fitsLayer hbase, ← hfile]
    rfl
  | some name =>
    rw [Option.elim_some] at hfile
    simp only [Settings.layered, Settings.toTree_of_fitsLayer hbase, hfile, bind, Except.bind]

/-- Settings come of a file that can be read, or of none. -/
theorem exists_file_of_layered {s : Settings} (h : base.layered name env t = .ok s) :
    ∃ file, name.elim (.ok []) (fileLayer t) = .ok file := by
  cases name with
  | none => exact ⟨[], rfl⟩
  | some name =>
    obtain ⟨tree, -, h⟩ := bind_eq_ok_iff.1 h
    obtain ⟨file, hfile, -⟩ := bind_eq_ok_iff.1 h
    exact ⟨file, hfile⟩

/-- Layers that can be read give each field what its highest layer has for it. -/
theorem readIn_merged (henv : env.IsPlain) (hplain : file.IsPlain) {f : Field} {x : f.Content} :
    f.readIn ((base.tree.mergeLayer file).mergeLayer env.layer) = .ok x ↔
      f.read (topValue base file env f) = .ok x := by
  have hfile := (base.holds_tree f).mergeLayer hplain.entries
  have hall := hfile.mergeLayer henv.layer.entries
  rw [Field.readIn_eq_ok_iff hall, Field.read_overlayAll henv.layer, Environment.value?_layer, topValue]
  cases env.setting? f with
  | none => exact Field.read_overlayAll hplain
  | some s => rfl

theorem mergesByField (hbase : base.FitsLayer) (hfile : name.elim (.ok []) (fileLayer t) = .ok file)
    (henv : env.IsPlain) (hplain : file.IsPlain) : MergesByField base file env (base.layered name env t) := by
  have hread : ∀ s, base.layered name env t = .ok s ↔
      ∀ f : Field, f.read (topValue base file env f) = .ok (f.get s) := by
    intro s
    rw [layered_eq hbase hfile, Settings.ofTree_eq_ok_iff]
    exact forall_congr' fun f => readIn_merged henv hplain
  refine ⟨⟨fun ⟨s, hs⟩ f => ⟨_, (hread s).1 hs f⟩, fun h => ?_⟩, fun s => (hread s).1⟩
  refine ⟨.ofContents fun f => (h f).choose, (hread _).2 fun f => ?_⟩
  rw [Field.get_ofContents]
  exact (h f).choose_spec

end Loading

namespace Environment

theorem layer_without_empty (pre post : Environment) (name : String) :
    Environment.layer (pre ++ (name, "") :: post) = Environment.layer (pre ++ post) := by
  simp [layer]

theorem lookup_without_empty (pre post : Environment) {name key : String} (h : name ≠ key) :
    (pre ++ (name, "") :: post).lookup key = (pre ++ post).lookup key := by
  have hne : (key == name) = false := by simpa using Ne.symm h
  induction pre with
  | nil => rw [List.nil_append, List.nil_append, List.lookup_cons, hne]
  | cons e pre ih => rw [List.cons_append, List.cons_append, List.lookup_cons, List.lookup_cons, ih]

end Environment

/-- Settings are merged field by field: from the defaults, the file that the environment names and the environment,
and likewise from settings that are there already, a given file and the environment.  So a value that cannot be read
does no harm under one that can, no field depends on the values of another, and a variable that is empty changes
nothing. -/
theorem layers_merge_by_field {env : Environment} (henv : env.IsPlain) (t : FileTree) :
    (∀ file, (env.lookup settingsVariable).elim (.ok []) (fileLayer t) = .ok file → file.IsPlain →
      MergesByField {} file env (Settings.load env t)) ∧
    (∀ (s : Settings) (name : String) (file : Layer), s.FitsLayer → fileLayer t name = .ok file → file.IsPlain →
      MergesByField s file env (s.override name env t)) ∧
    ∀ (pre post : Environment) (name : String), env = pre ++ (name, "") :: post →
      (name ≠ settingsVariable → Settings.load env t = Settings.load (pre ++ post) t) ∧
        ∀ (s : Settings) (file : String), s.override file env t = s.override file (pre ++ post) t := by
  refine ⟨fun file hfile hplain => ?_, fun s name file hs hfile hplain => ?_,
    fun pre post name hsplit => ⟨?_, ?_⟩⟩
  · exact mergesByField fitsLayer_default hfile henv hplain
  · have hfile' : (some name).elim (.ok []) (fileLayer t) = .ok file := hfile
    exact mergesByField hs hfile' henv hplain
  · intro hname
    rw [hsplit, Settings.load, Settings.load, Environment.lookup_without_empty _ _ hname, Settings.layered,
      Settings.layered, Environment.layer_without_empty]
  · intro s file
    rw [hsplit, Settings.override, Settings.override, Settings.layered, Settings.layered,
      Environment.layer_without_empty]

/-! ### Concrete layers -/

theorem fileLayer_of_parse {t : FileTree} (name path origin : String) {text : String} {es : Toml.Entries}
    (hpath : settingsPath t name = .ok path) (horigin : t.relativePath path = origin) (htext : t.text path = .ok text)
    (hes : Toml.parse? text = some es) : fileLayer t name = .ok (.ofDocument origin es) := by
  simp only [fileLayer, hpath, bind, Except.bind, htext, hes, horigin]

/-- A tree with one file of settings. -/
private def treeWith (text : String) : FileTree := { nodes := [(["g.toml"], .file 0o644 (.text text))] }

private def mixedEnvironment : Environment := [
  ("GETWATCH_CONFIG", "g.toml"), ("getwatch__Client__watch_QUEUE_size", "8"),
  ("GETWATCH__WATCH__EVENT_BUFFER_SIZE", ""), ("GETWATCH__CODEGEN__PROTO_MODULE", "api"),
  ("GETWATCH__CLIENT__RETRIES", "3")]

/-- A variable over a value that cannot be read, and an empty variable beside it. -/
theorem layers_merge_over_unfit_value : ∃ (env : Environment) (t : FileTree) (file : Layer), env.IsPlain ∧
    fileLayer t "g.toml" = .ok file ∧ file.IsPlain ∧
    file.value? (.number .watchQueue) = some (.scalar (some "g.toml") (.text "ten")) ∧
    MergesByField {} file env (Settings.load env t) ∧
    Settings.load env t = .ok { codegen := { protoModule := "api" }, client := ⟨3000, 8⟩ } ∧
    MergesByField { watch := ⟨5, 6⟩ } file env (Settings.override { watch := ⟨5, 6⟩ } "g.toml" env t) := by
  let t := treeWith "CLIENT.watch_queue_size = 'ten'\n"
  have henv : mixedEnvironment.IsPlain := by decide +kernel
  have hes : Toml.parse? "CLIENT.watch_queue_size = 'ten'\n" =
      some [("CLIENT", .table .dotted [("watch_queue_size", .string "ten")])] := by cbv
  have hfile := fileLayer_of_parse (t := t) "g.toml" "/g.toml" "g.toml" (by decide +kernel) (by decide +kernel)
    (by decide +kernel) hes
  have hplain : (Layer.ofDocument "g.toml"
      [("CLIENT", .table .dotted [("watch_queue_size", .string "ten")])]).IsPlain := by decide +kernel
  have hmerge := layers_merge_by_field henv t
  have hfits : Settings.FitsLayer { watch := ⟨5, 6⟩ } := by
    intro f
    cases f <;> decide
  exact ⟨mixedEnvironment, t, _, henv, hfile, hplain, rfl, hmerge.1 _ hfile hplain, by decide +kernel,
    hmerge.2.1 _ _ _ hfits hfile hplain⟩

/-- A file that has a table without entries for a field leaves it at its default, and one that has nothing but a
number in brackets behind the key of a section sets a field by its place. -/
theorem empty_table_keeps_default :
    (∃ (t : FileTree) (file : Layer) (v : ValueTree), fileLayer t "g.toml" = .ok file ∧ file.IsPlain ∧
      file.given (.number .watchQueue) = [v] ∧ (∀ n, v.number ≠ .ok n) ∧
      Settings.load [("GETWATCH_CONFIG", "g.toml")] t = .ok {}) ∧
    ∃ t : FileTree, fileLayer t "g.toml" = .ok (.ofDocument "g.toml" [("client[0]", .string "5")]) ∧
      Settings.load [("GETWATCH_CONFIG", "g.toml")] t = .ok { client := { requestTimeout := 5 } } := by
  constructor
  · have hes : Toml.parse? "[client]\nwatch_queue_size = \x7b\x7d" =
        some [("client", .table .headed [("watch_queue_size", .table .inlined [])])] := by cbv
    have hfile := fileLayer_of_parse (t := treeWith "[client]\nwatch_queue_size = \x7b\x7d") "g.toml" "/g.toml"
      "g.toml" (by decide +kernel) (by decide +kernel) (by decide +kernel) hes
    exact ⟨_, _, .table (some "g.toml") [], hfile, by decide +kernel, rfl, by simp [ValueTree.number],
      by decide +kernel⟩
  · have hes : Toml.parse? "'client[0]' = '5'" = some [("client[0]", .string "5")] := by cbv
    have hfile := fileLayer_of_parse (t := treeWith "'client[0]' = '5'") "g.toml" "/g.toml" "g.toml"
      (by decide +kernel) (by decide +kernel) (by decide +kernel) hes
    exact ⟨_, hfile, by decide +kernel⟩

end ResourceWatch

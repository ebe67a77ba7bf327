import ResourceWatch.Settings.Load

/-!
# Settings field by field

Settings have eight fields, four names and four numbers.  A value tree is read field by field: settings come of it
exactly when each of its fields can be read, and then they hold what was read (`Settings.ofTree_eq_ok_iff`).
-/

namespace ResourceWatch

/-! ### All fields -/

def Section.all : List Section := [.codegen, .client, .watch]

theorem Section.mem_all (home : Section) : home ∈ Section.all := by
  cases home <;> simp [Section.all]

instance {p : Section → Prop} [DecidablePred p] : Decidable (∃ home, p home) :=
  decidable_of_iff (∃ home ∈ Section.all, p home)
    ⟨fun ⟨home, _, h⟩ => ⟨home, h⟩, fun ⟨home, h⟩ => ⟨home, home.mem_all, h⟩⟩

namespace Field

def all : List Field :=
  [NameField.targetEnv, .protoModule, .runtimeCrate, .clientType].map .name ++
    [NumberField.requestTimeout, .watchQueue, .eventBuffer, .replyBuffer].map .number

theorem mem_all (f : Field) : f ∈ Field.all := by
  rcases f with f | f <;> cases f <;> simp [Field.all]

instance {p : Field → Prop} [DecidablePred p] : Decidable (∃ f, p f) :=
  decidable_of_iff (∃ f ∈ Field.all, p f) ⟨fun ⟨f, _, h⟩ => ⟨f, h⟩, fun ⟨f, h⟩ => ⟨f, f.mem_all, h⟩⟩

instance {p : Field → Prop} [DecidablePred p] : Decidable (∀ f, p f) :=
  decidable_of_iff (∀ f ∈ Field.all, p f) ⟨fun h f => h f f.mem_all, fun h f _ => h f⟩

/-! ### The fields of settings -/

def home : Field → Section
  | .name _ => .codegen
  | .number f => f.home

def key : Field → String
  | .name f => f.key
  | .number f => f.key

def position : Field → Nat
  | .name f => f.position
  | .number f => f.position

/-- What a field holds. -/
abbrev Content : Field → Type
  | .name _ => String
  | .number _ => Nat

def get (s : Settings) : (f : Field) → f.Content
  | .name f => f.get s.codegen
  | .number f => f.get s

/-- The content that a value stands for. -/
def read : (f : Field) → ValueTree → Except (Misfit × Wanted) f.Content
  | .name _ => ValueTree.string
  | .number _ => ValueTree.number

/-- Reads the field from the tree of all settings. -/
def readIn (f : Field) (t : ValueTree) : Except LoadFailure f.Content := do
  readField f.read f.home (← t.sectionTree f.home) f.key f.position (f.get {})

/-- The value of the field where settings are a layer. -/
def value (s : Settings) : Field → ValueTree
  | .name f => .scalar none (.text (f.get s.codegen))
  | .number f => .scalar none (.integer (f.get s))

theorem read_value (s : Settings) (f : Field) : f.read (f.value s) = .ok (f.get s) := by
  cases f with
  | name f => rfl
  | number f =>
    have h : ¬ (f.get s : Int) < 0 := by omega
    simp [read, value, get, ValueTree.number, h]

theorem read_table_ne_ok {f : Field} (origin : Option String) (es : List (String × ValueTree)) (x : f.Content) :
    f.read (.table origin es) ≠ .ok x := by
  cases f <;> simp [read, ValueTree.string, ValueTree.number]

theorem read_array_ne_ok {f : Field} (origin : Option String) (items : List ValueTree) (x : f.Content) :
    f.read (.array origin items) ≠ .ok x := by
  cases f <;> simp [read, ValueTree.string, ValueTree.number]

end Field

/-- The settings with the given contents. -/
def Settings.ofContents (x : (f : Field) → f.Content) : Settings where
  codegen := ⟨x (.name .targetEnv), x (.name .protoModule), x (.name .runtimeCrate), x (.name .clientType)⟩
  client := ⟨x (.number .requestTimeout), x (.number .watchQueue)⟩
  watch := ⟨x (.number .eventBuffer), x (.number .replyBuffer)⟩

theorem Field.get_ofContents (x : (f : Field) → f.Content) (f : Field) : f.get (.ofContents x) = x f := by
  rcases f with f | f <;> cases f <;> rfl

/-! ### Reading a tree -/

section Reading

variable {ε α β : Type}

theorem bind_eq_ok_iff {x : Except ε α} {k : α → Except ε β} {b : β} :
    (x >>= k) = .ok b ↔ ∃ a, x = .ok a ∧ k a = .ok b := by
  cases x <;> simp [bind, Except.bind]

theorem mapError_eq_ok_iff {δ : Type} {x : Except ε α} {g : ε → δ} {a : α} :
    x.mapError g = .ok a ↔ x = .ok a := by
  cases x with
  | error e => exact iff_of_false (fun h => nomatch h) fun h => nomatch h
  | ok b =>
    constructor <;> intro h <;> cases h <;> rfl

end Reading

theorem Settings.ofTree_eq_ok_iff {t : ValueTree} {s : Settings} :
    Settings.ofTree t = .ok s ↔ ∀ f : Field, f.readIn t = .ok (f.get s) := by
  constructor
  · intro h
    simp only [Settings.ofTree, bind_eq_ok_iff, pure, Except.pure, Except.ok.injEq] at h
    obtain ⟨c, hc, a, ha, b, hb, d, hd, e, he, l, hl, g, hg, i, hi, w, hw, j, hj, k, hk, rfl⟩ := h
    have hnames : ∀ f : NameField, readName c f = .ok (f.get ⟨a, b, d, e⟩)
      | .targetEnv => ha
      | .protoModule => hb
      | .runtimeCrate => hd
      | .clientType => he
    intro f
    rcases f with f | f
    · exact bind_eq_ok_iff.2 ⟨c, hc, hnames f⟩
    · cases f with
      | requestTimeout => exact bind_eq_ok_iff.2 ⟨l, hl, hg⟩
      | watchQueue => exact bind_eq_ok_iff.2 ⟨l, hl, hi⟩
      | eventBuffer => exact bind_eq_ok_iff.2 ⟨w, hw, hj⟩
      | replyBuffer => exact bind_eq_ok_iff.2 ⟨w, hw, hk⟩
  · intro h
    obtain ⟨c, hc, ha⟩ := bind_eq_ok_iff.1 (h (.name .targetEnv))
    obtain ⟨l, hl, he⟩ := bind_eq_ok_iff.1 (h (.number .requestTimeout))
    obtain ⟨w, hw, hg⟩ := bind_eq_ok_iff.1 (h (.number .eventBuffer))
    have hread : ∀ (f : Field) (u : ValueTree), t.sectionTree f.home = .ok u →
        readField f.read f.home u f.key f.position (f.get {}) = .ok (f.get s) := by
      intro f u hu
      obtain ⟨u', hu', hread⟩ := bind_eq_ok_iff.1 (h f)
      rw [hu, Except.ok.injEq] at hu'
      exact hu' ▸ hread
    simp only [Settings.ofTree, bind_eq_ok_iff, pure, Except.pure, Except.ok.injEq]
    exact ⟨c, hc, _, ha, _, hread (.name .protoModule) c hc, _, hread (.name .runtimeCrate) c hc, _,
      hread (.name .clientType) c hc, l, hl, _, he, _, hread (.number .watchQueue) l hl, w, hw, _, hg, _,
      hread (.number .replyBuffer) w hw, rfl⟩

namespace Field

@[simp] theorem lowerAscii_home (home : Section) : Text.lowerAscii home.key = home.key := by
  cases home <;> decide

@[simp] theorem lowerAscii_key (f : Field) : Text.lowerAscii f.key = f.key := by
  rcases f with f | f <;> cases f <;> decide

/-- The key of a field tells it, whatever its section. -/
theorem key_inj {f g : Field} (h : f.key = g.key) : f = g := by
  revert h
  rcases f with f | f <;> rcases g with g | g <;> cases f <;> cases g <;> decide

end Field

/-- The section of the field is a table of the tree, and in it the field has the value. -/
def ValueTree.Holds (t : ValueTree) (f : Field) (v : ValueTree) : Prop :=
  ∃ origin es, t.entry? f.home.key = some (.table origin es) ∧ ValueTree.entry? (.table origin es) f.key = some v

namespace Field

variable {f : Field} {t : ValueTree}

/-- Fields of equal sections are read alike. -/
theorem readIn_congr {u : ValueTree} (h : t.entry? f.home.key = u.entry? f.home.key) : f.readIn t = f.readIn u := by
  rw [readIn, readIn, ValueTree.sectionTree, ValueTree.sectionTree, h]

theorem readIn_table {origin : Option String} {es : Dictionary String ValueTree}
    (h : t.entry? f.home.key = some (.table origin es)) :
    f.readIn t = readField f.read f.home (.table origin es) f.key f.position (f.get {}) := by
  rw [readIn, ValueTree.sectionTree, h]
  rfl

/-- A field that the tree holds is read from its value alone. -/
theorem readIn_eq_ok_iff {v : ValueTree} (h : t.Holds f v) {x : f.Content} :
    f.readIn t = .ok x ↔ f.read v = .ok x := by
  obtain ⟨origin, es, ht, hv⟩ := h
  have hlookup : List.lookup f.key es = some v := by simpa [ValueTree.entry?, ValueTree.entries] using hv
  rw [readIn_table ht, readField, ValueTree.field?, hlookup]
  exact mapError_eq_ok_iff

end Field

end ResourceWatch

import ResourceWatch.FileTree.Replacement

/-!
# What replacing a file does to the tree

The name of a temporary file is longer than the path and than all names of the tree.  So the path leads neither to it
nor past it (`resolve_put_temporary`), and a replacement puts the text in the place that the path leads to, or else
leaves it in the temporary file, and changes nothing else (`replaceText_apply`); where a file is replaced that is
`replaceText_eq`.  Whether it succeeds there does not depend on the text, and stays so once it has happened
(`Replaceable.replaceText`); of two replacements after one another the second alone shows (`replaceText_replaceText`).
-/

namespace ResourceWatch.FileTree

variable {t u : FileTree} {path : String} {p : Place} {mode : Nat} {content : Content}

/-! ### The fresh name -/

private theorem length_le_foldr {s : String} {ss : List String} (h : s ∈ ss) :
    s.length ≤ ss.foldr (fun s n => max s.length n) 0 := by
  induction ss with
  | nil => simp at h
  | cons a ss ih =>
    rw [List.foldr_cons]
    rcases List.mem_cons.1 h with rfl | h
    · omega
    · have := ih h
      omega

theorem length_lt_freshName {s : String} (h : s ∈ path :: t.knownNames) : s.length < (t.freshName path).length := by
  have hle := length_le_foldr h
  rw [freshName, String.length_ofList, List.length_cons, List.length_replicate]
  omega

/-- A part of a list is no longer than the list. -/
private theorem length_le_of_mem_splitOn {s part : List Char} (h : part ∈ s.splitOn '/') :
    part.length ≤ s.length := by
  induction s generalizing part with
  | nil =>
    rw [List.splitOn_nil, List.mem_singleton] at h
    simp [h]
  | cons c s ih =>
    rw [List.splitOn_cons_eq_if_modifyHead] at h
    rw [List.length_cons]
    split at h
    · rcases List.mem_cons.1 h with rfl | h
      · simp
      · have := ih h
        omega
    · cases hs : s.splitOn '/' with
      | nil => exact absurd hs (List.splitOn_ne_nil '/' s)
      | cons first rest =>
        rw [hs, List.modifyHead_cons] at h
        rcases List.mem_cons.1 h with rfl | h
        · have := @ih first (by simp [hs])
          rw [List.length_cons]
          omega
        · have := @ih part (by simp [hs, h])
          omega

theorem length_le_of_mem_names {name : String} (h : name ∈ names path) : name.length ≤ path.length := by
  obtain ⟨part, hpart, rfl⟩ := List.mem_map.1 h
  rw [String.length_ofList, ← String.length_toList]
  exact length_le_of_mem_splitOn (List.mem_filter.1 hpart).1

theorem freshName_not_mem_names : t.freshName path ∉ names path := by
  intro h
  have hlt : path.length < (t.freshName path).length := length_lt_freshName List.mem_cons_self
  have hle := length_le_of_mem_names h
  omega

theorem freshName_not_mem_start : t.freshName path ∉ t.start path := by
  intro h
  unfold start at h
  split at h
  · simp at h
  · have hknown : t.freshName path ∈ t.knownNames := List.mem_append_left _ h
    exact absurd (length_lt_freshName (List.mem_cons_of_mem path hknown)) (Nat.lt_irrefl _)

/-- No place of the tree ends in the fresh name. -/
theorem ne_fresh (dir : Place) : ∀ e ∈ t.nodes, e.1 ≠ dir ++ [t.freshName path] := by
  intro e he heq
  have hknown : t.freshName path ∈ t.knownNames :=
    List.mem_append_right _ (List.mem_flatMap.2 ⟨e, he, by simp [heq]⟩)
  exact absurd (length_lt_freshName (List.mem_cons_of_mem path hknown)) (Nat.lt_irrefl _)

private theorem lookup_eq_none {q : Place} {es : Dictionary Place Node} (h : ∀ e ∈ es, e.1 ≠ q) :
    es.lookup q = none := by
  rw [List.lookup_eq_none_iff]
  intro e he
  simpa using fun heq => h e he heq.symm

/-! ### Names that are not walked -/

section Unseen

variable {here dir : Place} {ns : List String} {name : String} {node : Node}

theorem not_mem_of_enter {step : String} (h : t.enter here step = .ok p) (hhere : name ∉ here) (hstep : name ≠ step) :
    name ∉ p := by
  unfold enter at h
  cases hfind : t.find? here with
  | none => simp [hfind] at h
  | some found =>
    cases found with
    | file m c => simp [hfind] at h
    | directory =>
      simp only [hfind] at h
      split at h
      · exact Except.ok.inj h ▸ hhere
      · split at h
        · exact Except.ok.inj h ▸ fun hmem => hhere (here.dropLast_subset hmem)
        · split at h
          · simp at h
          · rw [← Except.ok.inj h]
            simp [hhere, hstep]

/-- A walk comes past no name but those that it takes. -/
theorem not_mem_of_walk (h : t.walk here ns = .ok p) (hhere : name ∉ here) (hns : name ∉ ns) : name ∉ p := by
  unfold walk at h
  induction ns generalizing here with
  | nil => exact Except.ok.inj h ▸ hhere
  | cons step ns ih =>
    rw [List.mem_cons, not_or] at hns
    rw [List.foldlM_cons] at h
    cases henter : t.enter here step with
    | error o => simp [henter, bind, Except.bind] at h
    | ok next =>
      rw [henter] at h
      exact ih h (not_mem_of_enter henter hhere hns.1) hns.2

/-- What stands under a name that is not walked does not matter. -/
theorem walk_put (hhere : name ∉ here) (hns : name ∉ ns) :
    (t.put (dir ++ [name]) node).walk here ns = t.walk here ns := by
  unfold walk
  induction ns generalizing here with
  | nil => rfl
  | cons step ns ih =>
    rw [List.mem_cons, not_or] at hns
    have hne : here ≠ dir ++ [name] := fun heq => hhere (by simp [heq])
    have henter : (t.put (dir ++ [name]) node).enter here step = t.enter here step := by
      unfold enter
      rw [find?_put, if_neg hne]
      by_cases hnil : here = []
      · simp [hnil, find?]
      · rw [if_neg hnil]
    rw [List.foldlM_cons, List.foldlM_cons, henter]
    cases hnext : t.enter here step with
    | error o => rfl
    | ok next => exact ih (not_mem_of_enter hnext hhere hns.1) hns.2

end Unseen

/-! ### Trees with more directories -/

/-- The second tree has all directories of the first and the same working directory. -/
structure Extends (t u : FileTree) : Prop where
  directory : ∀ q, t.find? q = some .directory → u.find? q = some .directory
  working : u.workingDirectory = t.workingDirectory

namespace Extends

theorem put {q : Place} (node : Node) (h : t.find? q ≠ some .directory) : t.Extends (t.put q node) := by
  refine ⟨fun q' hq' => ?_, rfl⟩
  rw [find?_put]
  by_cases hnil : q' = []
  · rw [if_pos hnil]
  · have hne : q' ≠ q := fun heq => h (heq ▸ hq')
    rw [if_neg hnil, if_neg hne, hq']

/-- Only directories are walked through, so a walk goes as before. -/
theorem walk (h : t.Extends u) {here : Place} {ns : List String} (hw : t.walk here ns = .ok p) :
    u.walk here ns = .ok p := by
  unfold FileTree.walk at hw ⊢
  induction ns generalizing here with
  | nil => exact hw
  | cons name ns ih =>
    rw [List.foldlM_cons] at hw ⊢
    cases hfind : t.find? here with
    | none => simp [enter, hfind, bind, Except.bind] at hw
    | some node =>
      cases node with
      | file m c => simp [enter, hfind, bind, Except.bind] at hw
      | directory =>
        -- a step is taken from a directory, which the larger tree has too
        have henter : u.enter here name = t.enter here name := by simp only [enter, hfind, h.directory here hfind]
        rw [henter]
        cases hq : t.enter here name with
        | error o => simp [hq, bind, Except.bind] at hw
        | ok q =>
          rw [hq] at hw
          exact ih hw

theorem resolve (h : t.Extends u) (hr : t.resolve path = .ok p) : u.resolve path = .ok p := by
  have hstart : u.start path = t.start path := by simp only [start, h.working]
  unfold FileTree.resolve at hr ⊢
  rw [hstart]
  split at hr
  · simp at hr
  · split at hr
    · simp at hr
    · split at hr
      · simp at hr
      · rename_i h₁ h₂ h₃
        rw [if_neg h₁, if_neg h₂, if_neg h₃]
        exact h.walk hr

theorem absolutePath (h : t.Extends u) (path : String) : u.absolutePath path = t.absolutePath path := by
  simp only [FileTree.absolutePath, h.working]

end Extends

/-! ### The file at a path -/

/-- The path leads to a file at the place. -/
structure HoldsFile (t : FileTree) (path : String) (p : Place) (mode : Nat) (content : Content) : Prop where
  resolve : t.resolve path = .ok p
  find? : t.find? p = some (.file mode content)
  slash : endsInSlash path = false

theorem file_eq_ok_iff : t.file path = .ok (mode, content) ↔ ∃ p, t.HoldsFile path p mode content := by
  unfold file
  constructor
  · intro h
    cases hr : t.resolve path with
    | error o => simp [hr, bind, Except.bind] at h
    | ok p =>
      simp only [hr, bind, Except.bind] at h
      split at h
      · simp at h
      · simp at h
      · rename_i hfind
        split at h
        · simp at h
        · rename_i hslash
          simp only [Except.ok.injEq, Prod.mk.injEq] at h
          exact ⟨p, hr, by rw [hfind, h.1, h.2], by simpa using hslash⟩
  · rintro ⟨p, hr, hfind, hslash⟩
    simp [hr, hfind, hslash, bind, Except.bind]

theorem text_eq_ok_iff {s : String} :
    t.text path = .ok s ↔ ∃ p mode, t.HoldsFile path p mode (.text s) := by
  unfold text
  constructor
  · intro h
    cases hf : t.file path with
    | error o => simp [hf, bind, Except.bind] at h
    | ok f =>
      obtain ⟨mode, content⟩ := f
      cases content with
      | binary bytes => simp [hf, bind, Except.bind] at h
      | text s' =>
        simp only [hf, bind, Except.bind, Except.ok.injEq] at h
        obtain ⟨p, hp⟩ := file_eq_ok_iff.1 hf
        exact ⟨p, mode, h ▸ hp⟩
  · rintro ⟨p, mode, h⟩
    simp [file_eq_ok_iff.2 ⟨p, h⟩, bind, Except.bind]

namespace HoldsFile

theorem ne_nil (h : t.HoldsFile path p mode content) : p ≠ [] := by
  intro hp
  have := h.find?
  simp [FileTree.find?, hp] at this

theorem lookup (h : t.HoldsFile path p mode content) : t.nodes.lookup p = some (.file mode content) := by
  have := h.find?
  rwa [FileTree.find?, if_neg h.ne_nil] at this

theorem extends_put (h : t.HoldsFile path p mode content) (node : Node) : t.Extends (t.put p node) :=
  Extends.put node (by simp [h.find?])

theorem put (h : t.HoldsFile path p mode content) (mode' : Nat) (content' : Content) :
    (t.put p (.file mode' content')).HoldsFile path p mode' content' where
  resolve := (h.extends_put _).resolve h.resolve
  find? := by rw [find?_put, if_neg h.ne_nil, if_pos rfl]
  slash := h.slash

end HoldsFile

/-! ### The temporary file -/

theorem temporaryPlace_eq {q : Place} (h : t.temporaryPlace path = .ok q) : ∃ dir, q = dir ++ [t.freshName path] := by
  unfold temporaryPlace at h
  simp only [bind, Except.bind] at h
  split at h
  · simp at h
  · exact ⟨_, (Except.ok.inj h).symm⟩

section Temporary

variable {q : Place} (hq : t.temporaryPlace path = .ok q)

include hq

theorem temporaryPlace_ne_nil : q ≠ [] := by
  obtain ⟨dir, rfl⟩ := temporaryPlace_eq hq
  simp

theorem ne_temporaryPlace : ∀ e ∈ t.nodes, e.1 ≠ q := by
  obtain ⟨dir, rfl⟩ := temporaryPlace_eq hq
  exact ne_fresh dir

theorem find?_temporaryPlace : t.find? q = none := by
  rw [find?, if_neg (temporaryPlace_ne_nil hq), lookup_eq_none (ne_temporaryPlace hq)]

theorem resolve_put_temporary (node : Node) : (t.put q node).resolve path = t.resolve path := by
  obtain ⟨dir, rfl⟩ := temporaryPlace_eq hq
  have hwalk : (t.put (dir ++ [t.freshName path]) node).walk (t.start path) (names path) =
      t.walk (t.start path) (names path) := walk_put freshName_not_mem_start freshName_not_mem_names
  unfold resolve
  rw [← hwalk]
  rfl

theorem resolve_ne_temporary (hp : t.resolve path = .ok p) : p ≠ q := by
  obtain ⟨dir, rfl⟩ := temporaryPlace_eq hq
  unfold resolve at hp
  split at hp
  · simp at hp
  · split at hp
    · simp at hp
    · split at hp
      · simp at hp
      · have hname := not_mem_of_walk hp freshName_not_mem_start freshName_not_mem_names
        exact fun heq => hname (by simp [heq])

theorem find?_put_temporary (node : Node) (hp : t.resolve path = .ok p) : (t.put q node).find? p = t.find? p := by
  rw [find?_put, if_neg (resolve_ne_temporary hq hp)]
  by_cases hnil : p = []
  · simp [hnil, find?]
  · rw [if_neg hnil]

/-- The path does not lead to the temporary file. -/
theorem file_put_temporary (node : Node) : (t.put q node).file path = t.file path := by
  unfold file
  rw [resolve_put_temporary hq]
  cases hp : t.resolve path with
  | error o => rfl
  | ok p => simp only [bind, Except.bind, find?_put_temporary hq node hp]

theorem renameTarget_put_temporary (node : Node) : (t.put q node).renameTarget path = t.renameTarget path := by
  unfold renameTarget
  rw [resolve_put_temporary hq]
  cases hp : t.resolve path with
  | error o => rfl
  | ok p => simp only [bind, Except.bind, find?_put_temporary hq node hp]

theorem erase_put_temporary (node : Node) : (t.put q node).erase q = t := by
  simp only [erase, put, Dictionary.erase_put _ (ne_temporaryPlace hq)]

end Temporary

/-! ### The replacement -/

theorem renameTarget_eq_ok (h : t.renameTarget path = .ok p) :
    t.resolve path = .ok p ∧ t.find? p ≠ some .directory ∧ endsInSlash path = false := by
  unfold renameTarget at h
  cases hp : t.resolve path with
  | error o => simp [hp, bind, Except.bind] at h
  | ok place =>
    simp only [hp, bind, Except.bind] at h
    split at h
    · simp at h
    · split at h
      · simp at h
      · split at h
        · simp at h
        · rename_i hslash
          split at h
          · simp at h
          · rename_i hfind
            obtain rfl := Except.ok.inj h
            exact ⟨rfl, hfind, by simpa using hslash⟩

/-- The mode of the file at a path, and that of a new file where none is. -/
def modeAt (t : FileTree) (path : String) : Nat :=
  match t.file path with
  | .ok (mode, _) => mode
  | .error _ => privateMode

/-- The temporary file takes the mode of the file that it is to replace. -/
theorem copyMode_temporary {q : Place} (hq : t.temporaryPlace path = .ok q) (content : Content) :
    (t.put q (.file privateMode content)).copyMode path q = t.put q (.file (t.modeAt path) content) := by
  unfold copyMode modeAt
  rw [file_put_temporary hq]
  cases t.file path with
  | error o => rfl
  | ok f =>
    simp only [setMode, find?_put, if_neg (temporaryPlace_ne_nil hq), if_true]
    simp only [put, Dictionary.put_put]

/-- The temporary file goes where the path leads, and nothing stays where it was. -/
theorem rename_temporary {q : Place} (hq : t.temporaryPlace path = .ok q) (content : Content) :
    ((t.put q (.file privateMode content)).copyMode path q).rename q path =
      (t.renameTarget path).map fun p => t.put p (.file (t.modeAt path) content) := by
  rw [copyMode_temporary hq, rename, renameTarget_put_temporary hq]
  cases hp : t.renameTarget path with
  | error o => rfl
  | ok p =>
    have hpq : p ≠ q := resolve_ne_temporary hq (renameTarget_eq_ok hp).1
    have hfind : (t.put q (.file (t.modeAt path) content)).find? q = some (.file (t.modeAt path) content) := by
      rw [find?_put, if_neg (temporaryPlace_ne_nil hq), if_pos rfl]
    simp only [bind, Except.bind, hfind, if_neg hpq, Except.map, pure, Except.pure]
    -- the text is put in its place before the temporary file goes
    simp only [erase, put, Dictionary.erase_put_of_ne hpq, Dictionary.erase_put _ (ne_temporaryPlace hq)]

/-- A replacement puts the text where the path leads, or leaves it in the temporary file. -/
theorem replaceText_apply (path s : String) (t : FileTree) :
    replaceText path s t =
      match t.temporaryPlace path with
      | .error o => .error (.write path o) t
      | .ok q =>
        match t.renameTarget path with
        | .error o => .error (.replace path o q) (t.put q (.file (t.modeAt path) (.text s)))
        | .ok p => .ok () (t.put p (.file (t.modeAt path) (.text s))) := by
  unfold replaceText
  cases hq : t.temporaryPlace path with
  | error o => rfl
  | ok q =>
    simp only [rename_temporary hq]
    cases t.renameTarget path with
    | error o => simp only [Except.map, copyMode_temporary hq]
    | ok p => rfl

/-! ### What a failure leaves -/

/-- A failure has left the tree `t` alone: the tree `u` that it leaves has nothing new but the temporary file that the
failure keeps, and is `t` again when the failure is let go of. -/
structure LeftAlone (t u : FileTree) (temporary? : Option Place) : Prop where
  same : temporary? = none → u = t
  kept : ∀ q, temporary? = some q → t.find? q = none ∧ ∃ node, u = t.put q node
  letGo : u.letGo temporary? = t

theorem LeftAlone.refl (t : FileTree) : t.LeftAlone t none :=
  ⟨fun _ => rfl, fun _ h => by simp at h, rfl⟩

theorem leftAlone_put_temporary {q : Place} (hq : t.temporaryPlace path = .ok q) (node : Node) :
    t.LeftAlone (t.put q node) (some q) := by
  refine ⟨fun h => by simp at h, fun q' h => ?_, erase_put_temporary hq node⟩
  obtain rfl := Option.some.inj h
  exact ⟨find?_temporaryPlace hq, node, rfl⟩

/-- A replacement that fails leaves the tree alone. -/
theorem leftAlone_of_replaceText_error {s : String} {e : FileFailure} (h : replaceText path s t = .error e u) :
    t.LeftAlone u e.temporary? := by
  rw [replaceText_apply] at h
  split at h
  · simp only [EStateM.Result.error.injEq] at h
    obtain ⟨rfl, rfl⟩ := h
    exact .refl t
  · rename_i q hq
    split at h
    · simp only [EStateM.Result.error.injEq] at h
      obtain ⟨rfl, rfl⟩ := h
      exact leftAlone_put_temporary hq _
    · simp at h

/-! ### Replaced texts -/

/-- The last name of the path is no mere step, so that a file can be renamed to it. -/
def endsInName (path : String) : Bool :=
  match (names path).getLast? with
  | none => false
  | some last => last != "." && last != ".."

theorem renameTarget_eq (h : t.HoldsFile path p mode content) :
    t.renameTarget path = if endsInName path then .ok p else .error .busy := by
  unfold renameTarget endsInName
  cases hl : (names path).getLast? with
  | none => simp [h.resolve, bind, Except.bind]
  | some last =>
    simp only [h.resolve, bind, Except.bind, h.slash, Bool.false_eq_true, if_false, h.find?]
    by_cases hstep : last = "." ∨ last = ".."
    · rw [if_pos hstep, if_neg]
      rcases hstep with rfl | rfl <;> decide
    · rw [if_neg hstep, if_pos]
      simpa using hstep

/-- Where a temporary file can be made, it can be made in a tree with more directories. -/
theorem Extends.temporaryPlace (h : t.Extends u) {q : Place} (ht : t.temporaryPlace path = .ok q) :
    ∃ q', u.temporaryPlace path = .ok q' := by
  unfold FileTree.temporaryPlace at ht ⊢
  rw [h.absolutePath]
  simp only [bind, Except.bind] at ht ⊢
  split at ht
  · simp at ht
  · rename_i hr
    rw [h.resolve hr]
    exact ⟨_, rfl⟩

/-- To replace the file at a path is to put the text in its place. -/
theorem replaceText_eq (h : t.HoldsFile path p mode content) (s : String) :
    replaceText path s t =
      match t.temporaryPlace path with
      | .error o => .error (.write path o) t
      | .ok q =>
        if endsInName path then .ok () (t.put p (.file mode (.text s)))
        else .error (.replace path .busy q) (t.put q (.file mode (.text s))) := by
  have hmode : t.modeAt path = mode := by simp only [modeAt, file_eq_ok_iff.2 ⟨p, h⟩]
  rw [replaceText_apply, renameTarget_eq h, hmode]
  cases t.temporaryPlace path with
  | error o => rfl
  | ok q => cases endsInName path <;> rfl

/-! ### Texts that are replaced -/

/-- The path leads to a text that can be replaced. -/
structure Replaceable (t : FileTree) (path : String) : Prop where
  text : ∃ s, t.text path = .ok s
  temporary : ∃ q, t.temporaryPlace path = .ok q
  named : endsInName path = true

theorem Replaceable.replaceText (h : t.Replaceable path) (s : String) :
    ∃ u, FileTree.replaceText path s t = .ok () u ∧ u.Replaceable path := by
  obtain ⟨before, hbefore⟩ := h.text
  obtain ⟨p, mode, hp⟩ := text_eq_ok_iff.1 hbefore
  obtain ⟨q, hq⟩ := h.temporary
  refine ⟨t.put p (.file mode (.text s)), ?_, ?_, ?_, h.named⟩
  · rw [replaceText_eq hp, hq]
    exact if_pos h.named
  · exact ⟨s, text_eq_ok_iff.2 ⟨p, mode, hp.put mode (.text s)⟩⟩
  · exact (hp.extends_put _).temporaryPlace hq

/-- Once a file was replaced with a text, it can be replaced with any other, which leaves no trace of the first. -/
theorem replaceText_replaceText {first : String} (h : t.HoldsFile path p mode content)
    (hfirst : replaceText path first t = .ok () u) (second : String) :
    u = t.put p (.file mode (.text first)) ∧
      replaceText path second t = .ok () (t.put p (.file mode (.text second))) ∧
      replaceText path second u = .ok () (t.put p (.file mode (.text second))) := by
  rw [replaceText_eq h] at hfirst
  split at hfirst
  · simp at hfirst
  · rename_i q hq
    split at hfirst
    · rename_i hend
      simp only [EStateM.Result.ok.injEq, true_and] at hfirst
      obtain ⟨q', hq'⟩ := (h.extends_put (.file mode (.text first))).temporaryPlace hq
      refine ⟨hfirst.symm, ?_, ?_⟩
      · rw [replaceText_eq h, hq]
        exact if_pos hend
      · rw [← hfirst, replaceText_eq (h.put mode (.text first)), hq']
        simp only [hend, if_true]
        simp only [put, Dictionary.put_put]
    · simp at hfirst

theorem text_replaceText {before s : String} (h : t.text path = .ok before) (hs : replaceText path s t = .ok () u) :
    u.text path = .ok s := by
  obtain ⟨p, mode, hp⟩ := text_eq_ok_iff.1 h
  obtain ⟨rfl, -⟩ := replaceText_replaceText hp hs s
  exact text_eq_ok_iff.2 ⟨p, mode, hp.put mode (.text s)⟩

end ResourceWatch.FileTree

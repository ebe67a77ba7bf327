import ResourceWatch.CommandLine
import ResourceWatch.Proofs.FileTree.Refusals
import ResourceWatch.Proofs.Generation.Calls

/-!
# All or nothing

A call of the generator either leaves the file tree alone, modes and names of files included, or changes the text of
its target to the text with the region refreshed and nothing else (`Generation.Call.runOn_cases`).  This holds on
every host, whichever steps that refuses and when, and so does it for a run of the program, whose exit code tells
which of the two it was (`run_all_or_nothing`).  A call whose failure keeps a temporary file has added that one until
the failure is let go of, as a run does before it ends.
-/

namespace ResourceWatch

open FileTree (Host)

namespace Generation

open Region (Key inject)

/-! ### Refreshing on a host -/

/-- `refresh` where the host may refuse a step. -/
def refreshOn (host : Host) (path : String) (key : Key) (rendered : String) : Action Generated := fun t =>
  match host.grant .read (t.text path) with
  | .error o => .error (.file (.read path o)) t
  | .ok existing =>
    match inject existing key rendered with
    | .error e => .error (.injection e) t
    | .ok updated =>
      if updated = existing then .ok .upToDate t
      else
        match host.replaceText path updated t with
        | .ok _ t => .ok .replaced t
        | .error e t => .error (.file e) t

/-- The second tree is the first one with the region of the key in the file at the path brought up to the rendering:
the file keeps its place and its mode, and every other place what it has. -/
def IsRefreshed (path : String) (key : Key) (rendered : String) (t u : FileTree) : Prop :=
  u.workingDirectory = t.workingDirectory ∧
    ∃ p mode existing updated, t.HoldsFile path p mode (.text existing) ∧ inject existing key rendered = .ok updated ∧
      u.HoldsFile path p mode (.text updated) ∧ ∀ q, q ≠ p → u.find? q = t.find? q

variable {host : Host} {path rendered : String} {key : Key} {t u : FileTree}

theorem isRefreshed_put {p : Place} {mode : Nat} {existing updated : String}
    (hp : t.HoldsFile path p mode (.text existing)) (hinject : inject existing key rendered = .ok updated) :
    IsRefreshed path key rendered t (t.put p (.file mode (.text updated))) := by
  refine ⟨rfl, p, mode, existing, updated, hp, hinject, hp.put mode (.text updated), ?_⟩
  intro q hq
  rw [FileTree.find?_put, if_neg hq]
  by_cases hnil : q = []
  · rw [if_pos hnil, hnil, FileTree.find?, if_pos rfl]
  · rw [if_neg hnil]

theorem refreshOn_willing (path : String) (key : Key) (rendered : String) :
    refreshOn .willing path key rendered = refresh path key rendered := by
  funext t
  unfold refreshOn refresh
  rw [Host.grant_willing]
  cases t.text path with
  | error o => rfl
  | ok existing =>
    dsimp only
    cases inject existing key rendered with
    | error e => rfl
    | ok updated =>
      cases hreplace : FileTree.replaceText path updated t <;> simp only [Host.replaceText_willing, hreplace]

theorem refreshOn_of_replaceText_error {existing updated : String} {e : FileFailure}
    (hread : host.grant .read (t.text path) = .ok existing) (hinject : inject existing key rendered = .ok updated)
    (hne : updated ≠ existing) (hreplace : host.replaceText path updated t = .error e u) :
    refreshOn host path key rendered t = .error (.file e) u := by
  simp only [refreshOn, hread, hinject, if_neg hne, hreplace]

/-- To refresh a region is to do all of it or nothing. -/
theorem refreshOn_cases (host : Host) (path : String) (key : Key) (rendered : String) (t : FileTree) :
    match refreshOn host path key rendered t with
    | .ok _ u => IsRefreshed path key rendered t u
    | .error e u => t.LeftAlone u e.temporary? := by
  unfold refreshOn
  cases hread : host.grant .read (t.text path) with
  | error o => exact .refl t
  | ok existing =>
    obtain ⟨p, mode, hp⟩ := FileTree.text_eq_ok_iff.1 (Host.of_grant_eq_ok hread)
    dsimp only
    cases hinject : inject existing key rendered with
    | error e => exact .refl t
    | ok updated =>
      dsimp only
      by_cases heq : updated = existing
      · -- the file has the region already
        rw [if_pos heq]
        exact ⟨rfl, p, mode, existing, updated, hp, hinject, heq ▸ hp, fun _ _ => rfl⟩
      · rw [if_neg heq]
        cases hreplace : host.replaceText path updated t with
        | error e u => exact Host.leftAlone_of_replaceText_error hreplace
        | ok _ u =>
          obtain ⟨rfl, -⟩ := FileTree.replaceText_replaceText hp (Host.replaceText_of_ok hreplace) ""
          exact isRefreshed_put hp hinject

/-! ### Calls -/

namespace Call

/-- `run` where the host may refuse a step. -/
def runOn (host : Host) (path : String) (c : Call) : Action Generated :=
  match c.rendering with
  | .error e => throw (.template e)
  | .ok rendered => refreshOn host path c.key rendered

theorem runOn_eq (host : Host) (path : String) (c : Call) :
    c.runOn host path = refreshOn host path c.key c.rendered := by
  rw [runOn, rendered, rendering_eq_body]

theorem runOn_willing (path : String) (c : Call) : c.runOn .willing path = c.run path := by
  rw [run_eq, runOn_eq, refreshOn_willing]

/-- A call refreshes the region of its key in the file, or it leaves the tree alone. -/
theorem runOn_cases (host : Host) (path : String) (c : Call) (t : FileTree) :
    match c.runOn host path t with
    | .ok _ u => ∃ rendered, c.rendering = .ok rendered ∧ IsRefreshed path c.key rendered t u
    | .error e u => t.LeftAlone u e.temporary? := by
  unfold runOn
  cases hrendering : c.rendering with
  | error e => exact .refl t
  | ok rendered =>
    have hcases := refreshOn_cases host path c.key rendered t
    dsimp only
    cases hrefresh : refreshOn host path c.key rendered t with
    | error e u =>
      rw [hrefresh] at hcases
      exact hcases
    | ok g u =>
      rw [hrefresh] at hcases
      exact ⟨rendered, rfl, hcases⟩

end Call

end Generation

/-! ### Runs of the program -/

namespace CommandLine

open Generation (Call IsRefreshed)

/-- The call that a command asks for. -/
def Command.call (naming : Naming) : Command → Except ResourceError Call
  | .client name key => (Resource.make name key).map fun r => .client r naming
  | .server index name => (Resource.make name none).map fun r => .server index r naming

/-- The path of the file that a command is about, and the call on it. -/
def target (command : Command) (env : Environment) (t : FileTree) : Except Failure (String × Call) := do
  let s ← settings env t
  let path ← (targetPath env s.codegen.targetEnv).mapError fun e => .generation (.file e)
  let c ← (command.call s.codegen).mapError .resource
  return (path, c)

/-- `perform` where the host may refuse a step on the target. -/
def performOn (host : Host) (command : Command) (env : Environment) : EStateM Failure FileTree Generated := fun t =>
  match target command env t with
  | .error e => .error e t
  | .ok (path, c) =>
    match c.runOn host path t with
    | .ok outcome t => .ok outcome t
    | .error e t => .error (.generation e) t

/-- `run` where the host may refuse a step on the target. -/
def runOn (host : Host) (args : List String) (env : Environment) (t : FileTree) : Report × FileTree :=
  match parse args with
  | .error a => (a.report, t)
  | .ok command =>
    match performOn host command env t with
    | .ok _ t => (⟨0, "", none⟩, t)
    | .error e t => (⟨1, "", some e.message⟩, t.letGo e.temporary?)

variable {host : Host} {args : List String} {env : Environment} {t u : FileTree} {command : Command}

theorem plan_eq_target (command : Command) (env : Environment) (t : FileTree) :
    plan command env t = (target command env t).map fun (path, c) => c.run path := by
  unfold plan target
  cases settings env t with
  | error e => rfl
  | ok s =>
    cases hpath : targetPath env s.codegen.targetEnv with
    | error e => simp [hpath, bind, Except.bind, Except.mapError, Except.map]
    | ok path =>
      cases command with
      | client name key =>
        cases hr : Resource.make name key <;>
          simp [hpath, hr, Command.call, bind, Except.bind, Except.mapError, Except.map, pure, Except.pure, Call.run]
      | server index name =>
        cases hr : Resource.make name none <;>
          simp [hpath, hr, Command.call, bind, Except.bind, Except.mapError, Except.map, pure, Except.pure, Call.run]

theorem performOn_willing (command : Command) (env : Environment) (t : FileTree) :
    performOn .willing command env t = perform command env t := by
  unfold performOn perform
  rw [plan_eq_target]
  cases target command env t with
  | error e => rfl
  | ok pair =>
    obtain ⟨path, c⟩ := pair
    cases hrun : c.run path t <;> simp only [Call.runOn_willing, Except.map, hrun]

theorem runOn_willing (args : List String) (env : Environment) (t : FileTree) :
    runOn .willing args env t = run args env t := by
  unfold runOn run
  cases parse args with
  | error a => rfl
  | ok command =>
    cases hperform : perform command env t <;> simp only [performOn_willing, hperform]

theorem target_eq_ok {path : String} {c : Call} (h : target command env t = .ok (path, c)) :
    ∃ s, settings env t = .ok s ∧ targetPath env s.codegen.targetEnv = .ok path ∧
      command.call s.codegen = .ok c := by
  unfold target at h
  cases hs : settings env t with
  | error e => simp [hs, bind, Except.bind] at h
  | ok s =>
    cases hpath : targetPath env s.codegen.targetEnv with
    | error e => simp [hs, hpath, bind, Except.bind, Except.mapError] at h
    | ok path' =>
      cases hc : command.call s.codegen with
      | error e => simp [hs, hpath, hc, bind, Except.bind, Except.mapError] at h
      | ok c' =>
        simp only [hs, hpath, hc, bind, Except.bind, Except.mapError, pure, Except.pure, Except.ok.injEq,
          Prod.mk.injEq] at h
        obtain ⟨rfl, rfl⟩ := h
        exact ⟨s, rfl, hpath, hc⟩

private theorem temporary?_of_settings_eq_error {e : Failure} (h : settings env t = .error e) :
    e.temporary? = none := by
  unfold settings at h
  cases hload : Settings.load env t with
  | error f =>
    simp only [hload, Except.mapError, bind, Except.bind, Except.error.injEq] at h
    exact h ▸ rfl
  | ok s =>
    simp only [hload, Except.mapError, bind, Except.bind] at h
    cases hflaw : s.validate with
    | error f =>
      simp only [hflaw, Except.error.injEq] at h
      exact h ▸ rfl
    | ok s' => simp [hflaw] at h

private theorem temporary?_of_targetPath_eq_error {key : String} {e : FileFailure}
    (h : targetPath env key = .error e) : e.temporary? = none := by
  unfold targetPath at h
  split at h
  · exact Except.error.inj h ▸ rfl
  · split at h
    · exact Except.error.inj h ▸ rfl
    · simp at h

/-- What goes wrong before the file is touched keeps no temporary file. -/
theorem temporary?_of_target_eq_error {e : Failure} (h : target command env t = .error e) : e.temporary? = none := by
  unfold target at h
  cases hs : settings env t with
  | error e' =>
    simp only [hs, bind, Except.bind, Except.error.injEq] at h
    exact h ▸ temporary?_of_settings_eq_error hs
  | ok s =>
    cases hpath : targetPath env s.codegen.targetEnv with
    | error e' =>
      simp only [hs, hpath, bind, Except.bind, Except.mapError, Except.error.injEq] at h
      exact h ▸ temporary?_of_targetPath_eq_error hpath
    | ok path =>
      cases hc : command.call s.codegen with
      | error e' =>
        simp only [hs, hpath, hc, bind, Except.bind, Except.mapError, Except.error.injEq] at h
        exact h ▸ rfl
      | ok c => simp [hs, hpath, hc, bind, Except.bind, Except.mapError, pure, Except.pure] at h

/-- A command refreshes the region that it asks for in the target, or it leaves the tree alone. -/
theorem performOn_cases (host : Host) (command : Command) (env : Environment) (t : FileTree) :
    match performOn host command env t with
    | .ok _ u => ∃ s path c rendered, settings env t = .ok s ∧ targetPath env s.codegen.targetEnv = .ok path ∧
        command.call s.codegen = .ok c ∧ c.rendering = .ok rendered ∧ IsRefreshed path c.key rendered t u
    | .error e u => t.LeftAlone u e.temporary? := by
  unfold performOn
  cases htarget : target command env t with
  | error e =>
    have hkept := temporary?_of_target_eq_error htarget
    change t.LeftAlone t e.temporary?
    rw [hkept]
    exact .refl t
  | ok pair =>
    obtain ⟨path, c⟩ := pair
    have hcases := c.runOn_cases host path t
    dsimp only
    cases hrun : c.runOn host path t with
    | error e u =>
      rw [hrun] at hcases
      exact hcases
    | ok g u =>
      rw [hrun] at hcases
      obtain ⟨rendered, hrendering, hrefreshed⟩ := hcases
      obtain ⟨s, hs, hpath, hc⟩ := target_eq_ok htarget
      exact ⟨s, path, c, rendered, hs, hpath, hc, hrendering, hrefreshed⟩

theorem performOn_of_ok {path : String} {c : Call} {g : Generated} (htarget : target command env t = .ok (path, c))
    (h : c.runOn host path t = .ok g u) : performOn host command env t = .ok g u := by
  unfold performOn
  rw [htarget]
  dsimp only
  rw [h]

theorem performOn_of_error {path : String} {c : Call} {e : GenerationFailure}
    (htarget : target command env t = .ok (path, c)) (h : c.runOn host path t = .error e u) :
    performOn host command env t = .error (.generation e) u := by
  unfold performOn
  rw [htarget]
  dsimp only
  rw [h]

theorem runOn_of_ok {g : Generated} (hparse : parse args = .ok command)
    (h : performOn host command env t = .ok g u) : runOn host args env t = (⟨0, "", none⟩, u) := by
  unfold runOn
  rw [hparse]
  dsimp only
  rw [h]

theorem runOn_of_error {e : Failure} (hparse : parse args = .ok command)
    (h : performOn host command env t = .error e u) :
    runOn host args env t = (⟨1, "", some e.message⟩, u.letGo e.temporary?) := by
  unfold runOn
  rw [hparse]
  dsimp only
  rw [h]

/-- Whatever the host refuses: a run with another exit code than zero leaves the tree as it was, and a run of a
command with exit code zero changes the region in the text of the target and nothing else.  So does a call of the
generator that is made directly, which leaves the tree as it was when its failure is let go of, and until then has
added nothing but the temporary file that the failure keeps, if any.  The host that refuses nothing is the one of
`run`. -/
theorem run_all_or_nothing (host : Host) (args : List String) (env : Environment) (t : FileTree) :
    ((runOn host args env t).1.code ≠ 0 → (runOn host args env t).2 = t) ∧
    (∀ command, parse args = .ok command → (runOn host args env t).1.code = 0 →
      ∃ s path c rendered, settings env t = .ok s ∧ targetPath env s.codegen.targetEnv = .ok path ∧
        command.call s.codegen = .ok c ∧ c.rendering = .ok rendered ∧
        IsRefreshed path c.key rendered t (runOn host args env t).2) ∧
    (∀ a, parse args = .error a → (runOn host args env t).2 = t) ∧
    (∀ path (c : Call), match c.runOn host path t with
      | .ok _ u => ∃ rendered, c.rendering = .ok rendered ∧ IsRefreshed path c.key rendered t u
      | .error e u => u.letGo e.temporary? = t ∧ (e.temporary? = none → u = t) ∧
          ∀ q, e.temporary? = some q → t.find? q = none ∧ ∃ node, u = t.put q node) ∧
    runOn .willing args env t = run args env t ∧ ∀ path (c : Call), c.runOn .willing path = c.run path := by
  refine ⟨?_, ?_, ?_, fun path c => ?_, runOn_willing args env t, Call.runOn_willing⟩
  · intro hcode
    cases hparse : parse args with
    | error a => simp only [runOn, hparse]
    | ok command =>
      have hcases := performOn_cases host command env t
      cases hperform : performOn host command env t with
      | ok g u =>
        rw [runOn_of_ok hparse hperform] at hcode
        exact absurd rfl hcode
      | error e u =>
        rw [hperform] at hcases
        rw [runOn_of_error hparse hperform]
        exact hcases.letGo
  · intro command hparse hcode
    have hcases := performOn_cases host command env t
    cases hperform : performOn host command env t with
    | error e u =>
      rw [runOn_of_error hparse hperform] at hcode
      exact absurd hcode (by decide : (1 : UInt32) ≠ 0)
    | ok g u =>
      rw [hperform] at hcases
      rw [runOn_of_ok hparse hperform]
      exact hcases
  · intro a hparse
    simp only [runOn, hparse]
  · have hcases := c.runOn_cases host path t
    cases hrun : c.runOn host path t with
    | ok g u =>
      rw [hrun] at hcases
      exact hcases
    | error e u =>
      rw [hrun] at hcases
      exact ⟨hcases.letGo, hcases.same, hcases.kept⟩

/-! ### A first region -/

private def podArgs : List String := ["generate-server", "1", "Pod"]

private def podEnvironment : Environment := [("GETWATCH_FILE", "server.rs")]

private def podTree : FileTree :=
  { nodes := [(["server.rs"], .file 0o640 (.text "mod pods;\n")), (["src"], .directory)] }

private theorem isResourceName_pod : isResourceName "Pod" = true := by decide

private theorem isKeyParameter_of_none : ∀ k, (none : Option String) = some k → isKeyParameter k = true :=
  fun k hk => absurd hk (Option.some_ne_none k).symm

private def podCall : Call := .server 1 ⟨"Pod", none, isResourceName_pod, isKeyParameter_of_none⟩ {}

/-- A host that renames nothing. -/
private def unrenaming : Host := ⟨fun step => if step = .rename then some .busy else none, .text⟩

private theorem target_pod : target (.server 1 "Pod") podEnvironment podTree = .ok ("server.rs", podCall) := by
  have hsettings : settings podEnvironment podTree = .ok {} := by decide +kernel
  have hpath : targetPath podEnvironment ({} : Settings).codegen.targetEnv = .ok "server.rs" := by decide +kernel
  have hcall : Command.call ({} : Settings).codegen (.server 1 "Pod") = .ok podCall := by
    simp only [Command.call, Resource.make, isResourceName_pod, dif_pos]
    rfl
  simp only [target, hsettings, hpath, hcall, bind, Except.bind, Except.mapError, pure, Except.pure]

/-- Where renaming is refused, a run that would give a file its first region changes nothing and fails, and so does
the call once its failure is let go of; elsewhere the run succeeds and changes the text of the file. -/
theorem run_all_or_nothing_first_region :
    ∃ (host : Host) (args : List String) (env : Environment) (t : FileTree),
      t.HoldsFile "server.rs" ["server.rs"] 0o640 (.text "mod pods;\n") ∧ t.find? ["src"] = some .directory ∧
      (runOn host args env t).1.code = 1 ∧ (runOn host args env t).2 = t ∧
      (∃ (c : Call) (e : GenerationFailure) (v : FileTree), c.runOn host "server.rs" t = .error e v ∧
        v.letGo e.temporary? = t) ∧
      (run args env t).1.code = 0 ∧
      ∃ s path c rendered, settings env t = .ok s ∧ targetPath env s.codegen.targetEnv = .ok path ∧
        Command.call s.codegen (.server 1 "Pod") = .ok c ∧ c.rendering = .ok rendered ∧
        IsRefreshed path c.key rendered t (run args env t).2 := by
  have hheld : podTree.HoldsFile "server.rs" ["server.rs"] 0o640 (.text "mod pods;\n") :=
    ⟨by decide +kernel, by decide +kernel, by decide +kernel⟩
  have htext : podTree.text "server.rs" = .ok "mod pods;\n" := FileTree.text_eq_ok_iff.2 ⟨_, _, hheld⟩
  have hplace : podTree.temporaryPlace "server.rs" = .ok [".ttttttttt"] := by decide +kernel
  have hparse : parse podArgs = .ok (.server 1 "Pod") := by decide +kernel
  have hnone : podCall.key.counts (Text.lines "mod pods;\n".toList) = (0, 0) := by decide +kernel
  have haccepted : podCall.naming.Accepted := ⟨{}, rfl, by decide +kernel⟩
  have hinject := Call.inject_of_counts haccepted hnone
  have hne : "mod pods;\n" ++ "\n\n" ++ String.ofList podCall.region ≠ "mod pods;\n" := by
    intro heq
    have hlen := congrArg String.length heq
    simp only [String.length_append] at hlen
    have : "\n\n".length = 2 := rfl
    omega
  -- on the host that renames nothing the call fails at the very end
  obtain ⟨e, v, hreplace⟩ := Host.exists_replaceText_error (rfl : unrenaming.refuses .rename = some .busy) "server.rs"
    ("mod pods;\n" ++ "\n\n" ++ String.ofList podCall.region) podTree
  have hrefuses : podCall.runOn unrenaming "server.rs" podTree = .error (.file e) v := by
    rw [Call.runOn_eq]
    exact Generation.refreshOn_of_replaceText_error htext hinject hne hreplace
  have hfails : (runOn unrenaming podArgs podEnvironment podTree).1.code = 1 := by
    rw [runOn_of_error hparse (performOn_of_error target_pod hrefuses)]
  obtain ⟨u, hrun⟩ : ∃ u, podCall.runOn .willing "server.rs" podTree = .ok .replaced u := by
    rw [Call.runOn_willing]
    exact Call.run_of_counts haccepted ⟨⟨_, htext⟩, ⟨_, hplace⟩, by decide +kernel⟩ htext hnone
  have hdone : (runOn .willing podArgs podEnvironment podTree).1.code = 0 := by
    rw [runOn_of_ok hparse (performOn_of_ok target_pod hrun)]
  obtain ⟨hrefused, -, -, hcall, -⟩ := run_all_or_nothing unrenaming podArgs podEnvironment podTree
  have hcall := hcall "server.rs" podCall
  rw [hrefuses] at hcall
  have hwilling := (run_all_or_nothing .willing podArgs podEnvironment podTree).2.1 _ hparse hdone
  rw [runOn_willing] at hdone hwilling
  exact ⟨unrenaming, podArgs, podEnvironment, podTree, hheld, by decide +kernel, hfails,
    hrefused (by rw [hfails]; decide), ⟨podCall, _, v, hrefuses, hcall.1⟩, hdone, hwilling⟩

end CommandLine

end ResourceWatch

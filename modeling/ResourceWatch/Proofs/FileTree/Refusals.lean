import Mathlib.Control.Monad.Basic
import ResourceWatch.Proofs.FileTree.Replacement

/-!
# Replacing a file on a host that refuses steps

A disk may be full and a directory may belong to somebody else, so that any step of a replacement can be refused, and
writing also when a part of the text is written.  A `Host` says which steps are refused, and `Host.replaceText` is the
replacement on it.  Up to the renaming it touches the temporary file alone, and what fails takes that file away; where
the renaming is refused, the failure keeps it (`replaceText_apply`).  Hence it is the replacement of before on a
willing host (`replaceText_willing`), and the same wherever it comes to its end (`replaceText_of_ok`); a refused one
leaves the tree alone, and as it was when the failure is let go of (`leftAlone_of_replaceText_error`).
-/

namespace ResourceWatch.FileTree

/-- A step that the host takes for a program. -/
inductive Step where
  | read
  | create
  | write
  | sync
  | mode
  | rename
deriving DecidableEq, Repr

/-- The steps that are refused, and what gets written of a text all the same. -/
structure Host where
  refuses : Step → Option Obstacle
  written : String → Content

/-- Something is at the path, a file or a directory. -/
def isThere (t : FileTree) (path : String) : Bool :=
  match t.file path with
  | .ok _ => true
  | .error o => o = .isDirectory

namespace Host

def willing : Host := ⟨fun _ => none, .text⟩

/-- What becomes of a step that would end in the given way. -/
def grant {α : Type} (host : Host) (step : Step) (outcome : Except Obstacle α) : Except Obstacle α :=
  match host.refuses step with
  | some o => .error o
  | none => outcome

/-- Sets a mode for the path; where nothing is at the path, there is none to set. -/
def grantMode (host : Host) (path : String) (t : FileTree) : Except Obstacle Unit :=
  if t.isThere path then host.grant .mode (.ok ()) else .ok ()

/-- Writes the text to the temporary file, which is there, and gives that the mode of the file at the path. -/
def fill (host : Host) (path text : String) (temporary : Place) : EStateM Obstacle FileTree Unit := fun t =>
  match host.grant .write (.ok ()) with
  | .error o => .error o (t.put temporary (.file privateMode (host.written text)))
  | .ok () =>
    let t := t.put temporary (.file privateMode (.text text))
    match host.grant .sync (.ok ()) with
    | .error o => .error o t
    | .ok () =>
      match host.grantMode path t with
      | .error o => .error o t
      | .ok () => .ok () (t.copyMode path temporary)

/-- Makes the path a file with the given text.  What fails before the renaming takes the temporary file away. -/
def replaceText (host : Host) (path text : String) : EStateM FileFailure FileTree Unit := fun t =>
  match host.grant .create (t.temporaryPlace path) with
  | .error o => .error (.write path o) t
  | .ok temporary =>
    match host.fill path text temporary (t.put temporary (.file privateMode (.text ""))) with
    | .error o t => .error (.write path o) (t.erase temporary)
    | .ok () t =>
      match host.grant .rename (t.rename temporary path) with
      | .error o => .error (.replace path o temporary) t
      | .ok t => .ok () t

variable {α : Type} {host : Host} {step : Step} {outcome : Except Obstacle α} {path text : String} {t u : FileTree}

@[simp] theorem grant_willing : willing.grant step outcome = outcome := rfl

theorem grant_map {β : Type} (f : α → β) : host.grant step (outcome.map f) = (host.grant step outcome).map f := by
  unfold grant
  cases host.refuses step <;> rfl

theorem of_grant_eq_ok {a : α} (h : host.grant step outcome = .ok a) : outcome = .ok a := by
  unfold grant at h
  split at h
  · simp at h
  · exact h

/-! ### What a replacement does -/

/-- The place of a temporary file for the path, if that is made, written and kept, and gets the mode of what is
there. -/
def prepare (host : Host) (path : String) (t : FileTree) : Except Obstacle Place := do
  let temporary ← host.grant .create (t.temporaryPlace path)
  host.grant .write (.ok ())
  host.grant .sync (.ok ())
  host.grantMode path t
  return temporary

private theorem put_put_temporary (t : FileTree) (p : Place) (node node' : Node) :
    (t.put p node).put p node' = t.put p node' := by
  simp only [put, Dictionary.put_put]

private theorem grantMode_put_temporary {q : Place} (hq : t.temporaryPlace path = .ok q) (node : Node) :
    host.grantMode path (t.put q node) = host.grantMode path t := by
  unfold grantMode isThere
  rw [file_put_temporary hq]

/-- A replacement leaves the tree as it was, or puts the text where the path leads, or leaves it in the temporary
file. -/
theorem replaceText_apply (host : Host) (path text : String) (t : FileTree) :
    host.replaceText path text t =
      match host.prepare path t with
      | .error o => .error (.write path o) t
      | .ok q =>
        match host.grant .rename (t.renameTarget path) with
        | .error o => .error (.replace path o q) (t.put q (.file (t.modeAt path) (.text text)))
        | .ok p => .ok () (t.put p (.file (t.modeAt path) (.text text))) := by
  unfold replaceText prepare
  cases hcreate : host.grant .create (t.temporaryPlace path) with
  | error o => rfl
  | ok q =>
    have hq := of_grant_eq_ok hcreate
    unfold fill
    simp only [put_put_temporary, grantMode_put_temporary hq, bind, Except.bind]
    cases host.grant .write (.ok ()) with
    | error o => simp only [erase_put_temporary hq]
    | ok _ =>
      dsimp only
      cases host.grant .sync (.ok ()) with
      | error o => simp only [erase_put_temporary hq]
      | ok _ =>
        dsimp only
        cases host.grantMode path t with
        | error o => simp only [erase_put_temporary hq]
        | ok _ =>
          dsimp only [pure, Except.pure]
          rw [rename_temporary hq, grant_map]
          cases host.grant .rename (t.renameTarget path) with
          | error o => simp only [Except.map, copyMode_temporary hq]
          | ok p => rfl

theorem temporaryPlace_of_prepare {q : Place} (h : host.prepare path t = .ok q) : t.temporaryPlace path = .ok q := by
  unfold prepare at h
  simp only [bind, Except.bind] at h
  split at h
  · simp at h
  · rename_i q' hcreate
    split at h
    · simp at h
    · split at h
      · simp at h
      · split at h
        · simp at h
        · exact of_grant_eq_ok (hcreate.trans h)

/-! ### What comes to its end -/

theorem replaceText_willing (path text : String) :
    willing.replaceText path text = FileTree.replaceText path text := by
  funext t
  rw [replaceText_apply, FileTree.replaceText_apply]
  have hmode : willing.grantMode path t = .ok () := by simp only [grantMode, grant_willing, ite_self]
  unfold prepare
  rw [grant_willing, hmode]
  cases t.temporaryPlace path with
  | error o => rfl
  | ok q => cases t.renameTarget path <;> rfl

theorem of_replaceText_ok (h : host.replaceText path text t = .ok () u) :
    ∃ q p, host.prepare path t = .ok q ∧ host.grant .rename (t.renameTarget path) = .ok p ∧
      u = t.put p (.file (t.modeAt path) (.text text)) := by
  rw [replaceText_apply] at h
  split at h
  · simp at h
  · rename_i q hprepare
    split at h
    · simp at h
    · rename_i p hrename
      simp only [EStateM.Result.ok.injEq, true_and] at h
      exact ⟨q, p, hprepare, hrename, h.symm⟩

/-- A replacement that comes to its end is the one that nothing refuses. -/
theorem replaceText_of_ok (h : host.replaceText path text t = .ok () u) :
    FileTree.replaceText path text t = .ok () u := by
  obtain ⟨q, p, hprepare, hrename, rfl⟩ := of_replaceText_ok h
  rw [FileTree.replaceText_apply, temporaryPlace_of_prepare hprepare, of_grant_eq_ok hrename]

/-! ### What is refused -/

/-- A replacement fails where a temporary file cannot be prepared, which leaves the tree as it was, or where that
cannot be renamed, which leaves the temporary file as well. -/
theorem of_replaceText_error {e : FileFailure} (h : host.replaceText path text t = .error e u) :
    (∃ o, host.prepare path t = .error o ∧ e = .write path o ∧ u = t) ∨
      ∃ q o, host.prepare path t = .ok q ∧ host.grant .rename (t.renameTarget path) = .error o ∧
        e = .replace path o q ∧ u = t.put q (.file (t.modeAt path) (.text text)) := by
  rw [replaceText_apply] at h
  split at h
  · rename_i o hprepare
    simp only [EStateM.Result.error.injEq] at h
    exact .inl ⟨o, hprepare, h.1.symm, h.2.symm⟩
  · rename_i q hprepare
    split at h
    · rename_i o hrename
      simp only [EStateM.Result.error.injEq] at h
      exact .inr ⟨q, o, hprepare, hrename, h.1.symm, h.2.symm⟩
    · simp at h

/-- A replacement that fails leaves the tree alone. -/
theorem leftAlone_of_replaceText_error {e : FileFailure} (h : host.replaceText path text t = .error e u) :
    t.LeftAlone u e.temporary? := by
  rcases of_replaceText_error h with ⟨o, -, rfl, rfl⟩ | ⟨q, o, hprepare, -, rfl, rfl⟩
  · exact .refl u
  · exact leftAlone_put_temporary (temporaryPlace_of_prepare hprepare) _

/-- Nothing is replaced where nothing is renamed. -/
theorem exists_replaceText_error {o : Obstacle} (h : host.refuses .rename = some o) (path text : String)
    (t : FileTree) : ∃ e u, host.replaceText path text t = .error e u := by
  cases hreplace : host.replaceText path text t with
  | error e u => exact ⟨e, u, rfl⟩
  | ok _ u =>
    obtain ⟨q, p, -, hrename, -⟩ := of_replaceText_ok hreplace
    simp [grant, h] at hrename

/-! ### All or nothing -/

end Host

end ResourceWatch.FileTree

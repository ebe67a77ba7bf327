import ResourceWatch.Generation
import ResourceWatch.Proofs.FileTree.Replacement
import ResourceWatch.Proofs.Rendering.Keys

/-!
# Calls of the generator

A call generates the client or the server region of a resource.  It never fails to render (`Call.run_eq`), so it is
the refreshment of a region that belongs to its key.  The texts of the keys of calls are as distinct as the keys
(`Call.key_inj`), and the region of a call with accepted names holds no tag line of another key (`Call.clean`).
-/

namespace ResourceWatch.Generation

open Region (Key regionOf inject)

/-- A call of the generator on some file. -/
inductive Call where
  | client (r : Resource) (naming : Naming)
  | server (index : UInt32) (r : Resource) (naming : Naming)

/-! ### Refreshing a region -/

section

variable {path existing updated rendered : String} {key : Key} {t u : FileTree}

theorem refresh_upToDate (htext : t.text path = .ok existing)
    (hinject : inject existing key rendered = .ok existing) : refresh path key rendered t = .ok .upToDate t := by
  simp only [refresh, htext, hinject, if_true]

theorem refresh_replaced (htext : t.text path = .ok existing) (hinject : inject existing key rendered = .ok updated)
    (hne : updated ≠ existing) (hreplace : FileTree.replaceText path updated t = .ok () u) :
    refresh path key rendered t = .ok .replaced u := by
  simp only [refresh, htext, hinject, if_neg hne, hreplace]

theorem refresh_of_replaceText_error (htext : t.text path = .ok existing)
    (hinject : inject existing key rendered = .ok updated) (hne : updated ≠ existing) {e : FileFailure}
    (hreplace : FileTree.replaceText path updated t = .error e u) :
    refresh path key rendered t = .error (.file e) u := by
  simp only [refresh, htext, hinject, if_neg hne, hreplace]

theorem refresh_of_inject_error (htext : t.text path = .ok existing) {e : Region.InjectionError}
    (hinject : inject existing key rendered = .error e) : refresh path key rendered t = .error (.injection e) t := by
  simp only [refresh, htext, hinject]

/-- Where the text of the file can be replaced, refreshing fails only for what the text is. -/
theorem refresh_of_replaceable (ht : t.Replaceable path) (key : Key) (rendered : String) :
    (∃ g u, refresh path key rendered t = .ok g u ∧ u.Replaceable path) ∨
      ∃ e, refresh path key rendered t = .error (.injection e) t := by
  obtain ⟨existing, htext⟩ := ht.text
  cases hinject : inject existing key rendered with
  | error e => exact .inr ⟨e, refresh_of_inject_error htext hinject⟩
  | ok updated =>
    by_cases heq : updated = existing
    · rw [heq] at hinject
      exact .inl ⟨.upToDate, t, refresh_upToDate htext hinject, ht⟩
    · obtain ⟨u, hu, hagain⟩ := ht.replaceText updated
      exact .inl ⟨.replaced, u, refresh_replaced htext hinject heq hu, hagain⟩

end

namespace Call

def key : Call → Key
  | client r _ => Rendering.clientKey r
  | server index _ _ => Rendering.serverKey index

def naming : Call → Naming
  | client _ naming => naming
  | server _ _ naming => naming

def rendering : Call → Except TemplateError String
  | client r naming => Rendering.client r naming
  | server index r naming => Rendering.server index r naming

def run (path : String) : Call → Action Generated
  | client r naming => Generation.client path r naming
  | server index r naming => Generation.server path index r naming

/-- The text of the rendering. -/
def rendered (c : Call) : String :=
  match c.rendering with
  | .ok s => s
  | .error _ => ""

/-- The lines of the rendering between the tags. -/
def body : Call → List String
  | client r naming => Rendering.clientBody (Rendering.value (Rendering.clientBindings r naming))
  | server index r naming => Rendering.serverBody (Rendering.value (Rendering.serverBindings index r naming))

theorem rendering_eq_body (c : Call) :
    c.rendering = .ok (Rendering.templateText (Rendering.tagged c.key.text c.body)) := by
  cases c with
  | client r naming => exact Rendering.client_eq r naming
  | server index r naming => exact Rendering.server_eq index r naming

theorem rendered_eq (c : Call) : c.rendered = Rendering.templateText (Rendering.tagged c.key.text c.body) := by
  rw [rendered, rendering_eq_body]

/-- A call refreshes the region of its key. -/
theorem run_eq (path : String) (c : Call) : c.run path = refresh path c.key c.rendered := by
  have h : c.run path = refreshWith path c.key c.rendering := by cases c <;> rfl
  rw [h, rendered, rendering_eq_body]
  rfl

/-! ### Keys -/

theorem lineFeed_not_mem_key (c : Call) : '\n' ∉ c.key.text.toList := by
  cases c with
  | client r naming => exact Rendering.lineFeed_not_mem_clientKey r
  | server index r naming => exact Rendering.lineFeed_not_mem_serverKey index

/-- Calls whose keys have one text have one key: no name is a number. -/
theorem key_inj {c d : Call} (h : c.key.text = d.key.text) : c.key = d.key := by
  cases c with
  | client r naming =>
    cases d with
    | client r' naming' => exact congrArg Key.name h
    | server index r' naming' => exact absurd h (r.name_ne_repr index.toNat)
  | server index r naming =>
    cases d with
    | client r' naming' => exact absurd h.symm (r'.name_ne_repr index.toNat)
    | server index' r' naming' => exact congrArg Key.index (Key.index_text_inj h)

/-! ### Regions -/

/-- What a call leaves in a file. -/
def region (c : Call) : List Char := regionOf c.rendered

theorem isRegion_of_counts {c : Call} (h : c.key.counts (Text.lines c.region) = (1, 1)) :
    c.key.IsRegion (Text.lines c.region) := by
  unfold region at h ⊢
  rw [rendered_eq] at h ⊢
  exact Rendering.isRegion_of_counts c.lineFeed_not_mem_key h

theorem isCode_body {c : Call} (h : c.naming.Accepted) : ∀ l ∈ c.body, Rendering.IsCode l := by
  cases c with
  | client r naming => exact Rendering.clientBody_isCode r h
  | server index r naming => exact Rendering.serverBody_isCode index r h

theorem isRegion {c : Call} (h : c.naming.Accepted) : c.key.IsRegion (Text.lines c.region) := by
  unfold region
  rw [rendered_eq]
  exact Rendering.isRegion_of_code c.lineFeed_not_mem_key (isCode_body h)

theorem counts_region {c : Call} (h : c.naming.Accepted) : c.key.counts (Text.lines c.region) = (1, 1) :=
  Key.counts_of_isRegion c.lineFeed_not_mem_key (isRegion h)

/-- A text without tag lines of the key gets the region at its end. -/
theorem inject_of_counts {c : Call} (h : c.naming.Accepted) {existing : String}
    (hnone : c.key.counts (Text.lines existing.toList) = (0, 0)) :
    inject existing c.key c.rendered = .ok (existing ++ "\n\n" ++ String.ofList c.region) :=
  Region.inject_append (counts_region h) hnone

/-- On a text without tag lines of its key, a call with accepted names succeeds where the text can be replaced. -/
theorem run_of_counts {c : Call} (h : c.naming.Accepted) {path existing : String} {t : FileTree}
    (ht : t.Replaceable path) (htext : t.text path = .ok existing)
    (hnone : c.key.counts (Text.lines existing.toList) = (0, 0)) : ∃ u, c.run path t = .ok .replaced u := by
  have hne : existing ++ "\n\n" ++ String.ofList c.region ≠ existing := by
    intro heq
    have hlen := congrArg String.length heq
    rw [String.length_append, String.length_append] at hlen
    have : "\n\n".length = 2 := rfl
    omega
  obtain ⟨u, hu, -⟩ := ht.replaceText (existing ++ "\n\n" ++ String.ofList c.region)
  rw [run_eq]
  exact ⟨u, refresh_replaced htext (inject_of_counts h hnone) hne hu⟩

/-- The region of one key holds no tag line of a key with another text. -/
theorem clean_of_text_ne {c : Call} (h : c.naming.Accepted) {other : Key} (hne : other.text ≠ c.key.text) :
    other.Clean (Text.lines c.region) := by
  unfold region
  rw [rendered_eq]
  exact Rendering.clean_of_code c.lineFeed_not_mem_key hne (isCode_body h)

/-- The region of one call holds no tag line of a call with another key. -/
theorem clean {c d : Call} (h : c.naming.Accepted) (hne : d.key ≠ c.key) : d.key.Clean (Text.lines c.region) :=
  clean_of_text_ne h fun htext => hne (key_inj htext)

end Call

end ResourceWatch.Generation

import ResourceWatch.Proofs.Generation.Calls

/-!
# Renderings are accepted

What a call with accepted names renders has the form that injection asks for: it begins with the start tag of its key,
ends with the end tag, and has no other tag line of this or of any other key (`rendering_is_region`).  So only the
text it is injected into can be at fault.

A key is what its text is: `name "12"` and `index 12` have the same tags.  The keys of calls are told apart by
their texts, since no resource has a number for its name.
-/

namespace ResourceWatch.Generation

open Region (Key regionOf inject)

namespace Call

/-- The region of a call is its body between the tags of its key. -/
theorem lines_region {c : Call} (h : c.naming.Accepted) :
    Text.lines c.region = c.key.startTag.toList :: c.body.map String.toList ++ [c.key.endTag.toList] := by
  rw [region, rendered_eq, Rendering.lines_regionOf c.lineFeed_not_mem_key,
    Rendering.flatMap_lines_of_code (isCode_body h)]
  rfl

/-- Injection of a call's rendering never finds fault with the rendering. -/
theorem inject_ne_untagged {c : Call} (h : c.naming.Accepted) (existing : String) (key : Key) :
    inject existing c.key c.rendered ≠ .error (.untagged key) := by
  have hone : c.key.counts (Text.lines (regionOf c.rendered)) = (1, 1) := counts_region h
  have hframe : ∀ text, c.key.frame? text ≠ .error (.untagged key) := by
    intro text
    unfold Key.frame?
    split
    · simp
    · split <;> simp
    · simp
  rw [Region.inject_eq, if_neg (by simp [hone])]
  intro herror
  cases hf : c.key.frame? (Text.lines existing.toList) with
  | error e =>
    simp only [hf, Except.map, Except.error.injEq] at herror
    exact hframe _ (by rw [hf, herror])
  | ok frame => simp [hf, Except.map] at herror

end Call

/-- A call with accepted names renders a region of its own key, which holds no tag line of another key; so its
injection never fails for the rendering, and succeeds where the text has no tag line of the key. -/
theorem rendering_is_region (c : Call) (h : c.naming.Accepted) :
    ∃ rendered, c.rendering = .ok rendered ∧
      (∃ body, Text.lines (regionOf rendered) = c.key.startTag.toList :: body ++ [c.key.endTag.toList]) ∧
      c.key.counts (Text.lines (regionOf rendered)) = (1, 1) ∧
      (∀ other : Key, other.text ≠ c.key.text → other.Clean (Text.lines (regionOf rendered))) ∧
      (∀ d : Call, d.key ≠ c.key → d.key.counts (Text.lines (regionOf rendered)) = (0, 0)) ∧
      (∀ existing key, inject existing c.key rendered ≠ .error (.untagged key)) ∧
      ∀ existing : String, c.key.Clean (Text.lines existing.toList) →
        inject existing c.key rendered = .ok (existing ++ "\n\n" ++ String.ofList (regionOf rendered)) := by
  have hok : c.rendering = .ok c.rendered := by rw [Call.rendered, Call.rendering_eq_body]
  refine ⟨c.rendered, hok, ⟨_, Call.lines_region h⟩, Call.counts_region h, fun other => Call.clean_of_text_ne h,
    fun d hne => Key.counts_of_clean d.lineFeed_not_mem_key (Call.clean h hne), Call.inject_ne_untagged h, ?_⟩
  intro existing hclean
  exact Call.inject_of_counts h (Key.counts_of_clean c.lineFeed_not_mem_key hclean)

/-- The region of `Pod` goes behind one that ends for `PodGroup`, whose tags it does not have. -/
theorem region_of_pod :
    ∃ pod : Resource, pod.name = "Pod" ∧ Naming.Accepted {} ∧ ∃ rendered, Rendering.client pod {} = .ok rendered ∧
      (Key.name "PodGroup").Clean (Text.lines (regionOf rendered)) ∧
      inject "// CODE GENERATION PodGroup END" (.name "Pod") rendered =
        .ok ("// CODE GENERATION PodGroup END" ++ "\n\n" ++ String.ofList (regionOf rendered)) := by
  have hname : isResourceName "Pod" = true := by decide
  have hkey : isKeyParameter "id" = true := by decide
  have haccepted : Naming.Accepted {} := ⟨{}, rfl, by decide +kernel⟩
  have hnone : (Key.name "Pod").counts (Text.lines "// CODE GENERATION PodGroup END".toList) = (0, 0) := by
    decide +kernel
  have hclean := Key.clean_of_counts (by decide) hnone
  obtain ⟨rendered, hok, -, -, hother, -, -, hinject⟩ :=
    rendering_is_region (.client ⟨"Pod", some "id", hname, by simpa using hkey⟩ {}) haccepted
  have hne : (Key.name "PodGroup").text ≠ (Key.name "Pod").text := by decide
  exact ⟨_, rfl, haccepted, rendered, hok, hother _ hne, hinject _ hclean⟩

end ResourceWatch.Generation

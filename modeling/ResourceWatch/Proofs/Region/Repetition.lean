import ResourceWatch.Proofs.Region.Cuts

/-!
# Injecting a rendering twice

A rendering may have text in front of its start tag line and behind its end tag line, or have the two the other way
round: it is accepted as long as there is one of each.  What it becomes in a file is told by `inject_again`: a second
injection of the same rendering leaves the file as it is exactly if the rendering is nothing but its region.  Text
around the region is written once more with every injection, be it no more than the carriage return of an empty line
in front (`carriage_return_is_repeated`), and a rendering that ends its region before it starts it is refused from
then on.
-/

namespace ResourceWatch.Region

open Text (IsFront IsBack)

variable {existing rendered updated : String} {key : Key}

/-- An injection leaves the rendering between whole lines that are no tag lines. -/
theorem updated_eq (hkey : '\n' ∉ key.text.toList) (h : inject existing key rendered = .ok updated) :
    ∃ front back pre post, IsFront front ∧ IsBack back ∧
      updated = String.ofList (front ++ regionOf rendered ++ back) ∧
      Text.lines updated.toList = pre ++ Text.lines (regionOf rendered) ++ post ∧ key.Clean pre ∧ key.Clean post := by
  obtain ⟨pre, post, hframe, hupdated, hlines⟩ := lines_inject h
  obtain ⟨hpre, hpost⟩ := Key.frame?_clean hkey hframe
  obtain ⟨front, back, hfront, hback, htext⟩ :=
    Text.exists_unlines_eq (List.cons_ne_nil (regionOf rendered) []) pre post
  refine ⟨front, back, pre, post, hfront, hback, ?_, hlines, hpre, hpost⟩
  rw [hupdated, htext, Text.unlines, List.intercalate_singleton]

/-- Injected once more, a rendering leaves the text as it is exactly if it begins with its start tag line and ends
with its end tag line.  What it has in front of its region and behind that is added to what the text has there; if its
end tag line stands in front of its start tag line, it is refused. -/
theorem inject_again (hkey : '\n' ∉ key.text.toList) (h : inject existing key rendered = .ok updated) :
    let region := regionOf rendered
    (inject updated key rendered = .ok updated ↔ key.Delimits region) ∧
    (∀ head span tail, key.Cuts region head span tail → ∃ front back,
      updated = String.ofList (front ++ region ++ back) ∧
      inject updated key rendered = .ok (String.ofList (front ++ head ++ region ++ tail ++ back))) ∧
    ((¬ ∃ head span tail, key.Cuts region head span tail) →
      inject updated key rendered = .error (.malformed key 1 1)) := by
  intro region
  obtain ⟨front, back, pre, post, hfront, hback, hupdated, hlines, hpre, hpost⟩ := updated_eq hkey h
  have hcounts := counts_of_inject h
  have hone : key.HasOne region := (Key.counts_eq_one_iff hkey).1 hcounts
  have hone' : key.HasOne updated.toList := by
    rw [← Key.counts_eq_one_iff hkey, hlines, Key.counts_between hkey hpre hpost, hcounts]
  have hagain : ∀ head span tail, key.Cuts region head span tail →
      inject updated key rendered = .ok (String.ofList (front ++ head ++ region ++ tail ++ back)) := by
    intro head span tail hcuts
    have hcuts' : key.Cuts updated.toList (front ++ head) span (tail ++ back) := by
      rw [hupdated, String.toList_ofList]
      exact hcuts.between hfront hback
    rw [inject_of_cuts hkey hone hone' hcuts', ← List.append_assoc]
  have hrefused : (¬ ∃ head span tail, key.Cuts region head span tail) →
      inject updated key rendered = .error (.malformed key 1 1) := by
    intro hnone
    obtain ⟨as, crossed, bs, hregion, hcrossed, has, hbs⟩ := Key.isCrossed_of_not_cuts hkey hone hnone
    have hupdated : Text.lines updated.toList = (pre ++ as) ++ crossed ++ (bs ++ post) := by
      rw [hlines, show Text.lines (regionOf rendered) = as ++ crossed ++ bs from hregion]
      simp only [List.append_assoc]
    exact inject_of_isCrossed hkey hone hupdated hcrossed (hpre.append has) (hbs.append hpost)
  refine ⟨⟨fun hsame => ?_, fun hdelimits => ?_⟩, ?_, hrefused⟩
  · by_cases hsome : ∃ head span tail, key.Cuts region head span tail
    · -- nothing is added, so there is nothing around the region
      obtain ⟨head, span, tail, hcuts⟩ := hsome
      have htext : front ++ head ++ region ++ tail ++ back = front ++ region ++ back := by
        have := hsame.symm.trans (hagain head span tail hcuts)
        rw [Except.ok.injEq, hupdated, String.ofList_inj] at this
        exact this.symm
      have hlength := congrArg List.length htext
      simp only [List.length_append] at hlength
      have hhead : head = [] := List.eq_nil_of_length_eq_zero (by omega)
      have htail : tail = [] := List.eq_nil_of_length_eq_zero (by omega)
      have hspan : region = span := by
        rw [hcuts.text_eq, hhead, htail, List.nil_append, List.append_nil]
      exact hspan ▸ hcuts.delimits
    · rw [hrefused hsome] at hsame
      simp at hsame
  · have hcuts : key.Cuts region [] region [] := ⟨by simp, Or.inl rfl, Or.inl rfl, hdelimits⟩
    rw [hagain [] region [] hcuts, hupdated]
    simp [region]
  · exact fun head span tail hcuts => ⟨front, back, hupdated, hagain head span tail hcuts⟩

/-- A rendering with an indented start tag line and carriage returns, injected twice. -/
theorem indented_rendering_is_kept :
    let rendered := "\n\t// CODE GENERATION 7 START \r\nnew\r\n// CODE GENERATION 7 END\r\n\n"
    ∃ updated, inject "mod pods;\r\n" (.index 7) rendered = .ok updated ∧
      inject updated (.index 7) rendered = .ok updated := by
  intro rendered
  have hkey : '\n' ∉ (Key.index 7).text.toList := by decide +kernel
  have hone : (Key.index 7).HasOne (regionOf rendered) := Key.hasOne_iff.2 ⟨by decide +kernel, by decide +kernel⟩
  have hfirst : inject "mod pods;\r\n" (.index 7) rendered =
      .ok ("mod pods;\r\n" ++ "\n\n" ++ String.ofList (regionOf rendered)) :=
    inject_of_absent hkey hone (by decide +kernel)
  have hdelimits : (Key.index 7).Delimits (regionOf rendered) :=
    { first := ⟨"\t// CODE GENERATION 7 START \r".toList, by decide +kernel, by decide +kernel⟩
      last := ⟨"// CODE GENERATION 7 END\r".toList, by decide +kernel, by decide +kernel⟩ }
  exact ⟨_, hfirst, (inject_again hkey hfirst).1.2 hdelimits⟩

/-- Not every accepted rendering can be injected twice: a rendering with carriage returns in front of its line feeds
keeps the first of them as a line of its own, and the second injection leaves two such lines. -/
theorem carriage_return_is_repeated :
    let rendered := "\r\n// CODE GENERATION 1 START\r\nx\r\n// CODE GENERATION 1 END\r\n"
    let once := "\n\n\r\n// CODE GENERATION 1 START\r\nx\r\n// CODE GENERATION 1 END\r"
    let twice := "\n\n\r\n\r\n// CODE GENERATION 1 START\r\nx\r\n// CODE GENERATION 1 END\r"
    '\n' ∉ (Key.index 1).text.toList ∧ inject "" (.index 1) rendered = .ok once ∧
      inject once (.index 1) rendered = .ok twice ∧ twice ≠ once := by
  intro rendered once twice
  have hkey : '\n' ∉ (Key.index 1).text.toList := by decide +kernel
  have hone : (Key.index 1).HasOne (regionOf rendered) := Key.hasOne_iff.2 ⟨by decide +kernel, by decide +kernel⟩
  have honce : (Key.index 1).HasOne once.toList := Key.hasOne_iff.2 ⟨by decide +kernel, by decide +kernel⟩
  have hcuts : (Key.index 1).Cuts once.toList ['\n', '\n', '\r', '\n']
      "// CODE GENERATION 1 START\r\nx\r\n// CODE GENERATION 1 END\r".toList [] :=
    { text_eq := by decide +kernel
      isFront := Or.inr ⟨['\n', '\n', '\r'], rfl⟩
      isBack := Or.inl rfl
      delimits :=
        { first := ⟨"// CODE GENERATION 1 START\r".toList, by decide +kernel, by decide +kernel⟩
          last := ⟨"// CODE GENERATION 1 END\r".toList, by decide +kernel, by decide +kernel⟩ } }
  refine ⟨hkey, ?_, ?_, by decide⟩
  · exact (inject_of_absent hkey hone (by decide +kernel)).trans (congrArg Except.ok (by decide +kernel))
  · exact (inject_of_cuts hkey hone honce hcuts).trans (congrArg Except.ok (by decide +kernel))

end ResourceWatch.Region

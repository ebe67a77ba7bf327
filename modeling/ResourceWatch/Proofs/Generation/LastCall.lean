import ResourceWatch.Proofs.Generation.Calls

/-!
# The last call wins

After a call for a key has succeeded, another call for the key ends as it would have ended on the file as it was, and
leaves the same file (`last_call_wins`): it finds the region that the first call left, in the frame that the file had
before.  So a call that is repeated changes nothing.  No condition on the file, the names or the values is needed.
-/

namespace ResourceWatch.Generation

open FileTree (replaceText)
open Region (Key regionOf inject)

variable {path : String} {key : Key} {t u : FileTree}

/-! ### Refreshing a region -/

/-- A call that succeeds has read a text and written the text with its region. -/
private theorem refresh_eq_ok {rendered : String} {g : Generated} (h : refresh path key rendered t = .ok g u) :
    ∃ existing updated, t.text path = .ok existing ∧ inject existing key rendered = .ok updated ∧
      (updated = existing ∧ u = t ∨ replaceText path updated t = .ok () u) := by
  unfold refresh at h
  split at h
  · simp at h
  · rename_i existing htext
    split at h
    · simp at h
    · rename_i updated hinject
      refine ⟨existing, updated, htext, hinject, ?_⟩
      split at h
      · rename_i heq
        simp only [EStateM.Result.ok.injEq] at h
        exact .inl ⟨heq, h.2.symm⟩
      · split at h
        · rename_i hreplace
          simp only [EStateM.Result.ok.injEq] at h
          exact .inr (h.2 ▸ hreplace)
        · simp at h

/-- Where the text can be replaced, a region is refreshed by putting the text with it in the place of the file. -/
private theorem refresh_put {p : Place} {mode : Nat} {existing updated rendered : String}
    (h : t.HoldsFile path p mode (.text existing))
    (hreplace : replaceText path updated t = .ok () (t.put p (.file mode (.text updated))))
    (hinject : inject existing key rendered = .ok updated) :
    ∃ g, refresh path key rendered t = .ok g (t.put p (.file mode (.text updated))) := by
  have htext : t.text path = .ok existing := FileTree.text_eq_ok_iff.2 ⟨p, mode, h⟩
  by_cases heq : updated = existing
  · have hput : t.put p (.file mode (.text updated)) = t := by
      simp only [heq, FileTree.put, Dictionary.put_self h.lookup]
    rw [heq] at hinject
    rw [hput]
    exact ⟨.upToDate, refresh_upToDate htext hinject⟩
  · exact ⟨.replaced, refresh_replaced htext hinject heq hreplace⟩

private theorem refresh_eq_error {rendered : String} {e : GenerationFailure}
    (h : refresh path key rendered t = .error e u) : t.LeftAlone u e.temporary? := by
  unfold refresh at h
  split at h
  · simp only [EStateM.Result.error.injEq] at h
    obtain ⟨rfl, rfl⟩ := h
    exact .refl t
  · split at h
    · simp only [EStateM.Result.error.injEq] at h
      obtain ⟨rfl, rfl⟩ := h
      exact .refl t
    · split at h
      · simp at h
      · split at h
        · simp at h
        · rename_i hreplace
          simp only [EStateM.Result.error.injEq] at h
          obtain ⟨rfl, rfl⟩ := h
          exact FileTree.leftAlone_of_replaceText_error hreplace

variable {first : String} {g : Generated}

private theorem refresh_again (hkey : '\n' ∉ key.text.toList)
    (hregion : key.counts (Text.lines (regionOf first)) = (1, 1) → key.IsRegion (Text.lines (regionOf first)))
    (h : refresh path key first t = .ok g u) : refresh path key first u = .ok .upToDate u := by
  obtain ⟨existing, updated, htext, hfirst, hu⟩ := refresh_eq_ok h
  have hagain : inject updated key first = .ok updated :=
    (Region.inject_inject hkey (hregion (Region.counts_of_inject hfirst)) hfirst first).trans hfirst
  have htext' : u.text path = .ok updated := by
    rcases hu with ⟨rfl, rfl⟩ | hreplace
    · exact htext
    · exact FileTree.text_replaceText htext hreplace
  exact refresh_upToDate htext' hagain

/-- A region that was refreshed is refreshed again as on the tree before. -/
private theorem refresh_refresh (hkey : '\n' ∉ key.text.toList)
    (hregion : key.counts (Text.lines (regionOf first)) = (1, 1) → key.IsRegion (Text.lines (regionOf first)))
    (h : refresh path key first t = .ok g u) (second : String) :
    match refresh path key second t with
    | .ok _ v => ∃ g', refresh path key second u = .ok g' v
    | .error e v => v.letGo e.temporary? = t ∧
        ∃ w, refresh path key second u = .error e w ∧ w.letGo e.temporary? = u := by
  obtain ⟨existing, updated, htext, hfirst, hu⟩ := refresh_eq_ok h
  rcases hu with ⟨-, rfl⟩ | hreplace
  · -- the file held the region already
    cases hsecond : refresh path key second u with
    | ok g' v => exact ⟨g', rfl⟩
    | error e v =>
      have hletGo := (refresh_eq_error hsecond).letGo
      exact ⟨hletGo, v, rfl, hletGo⟩
  · -- both trees have the file in the same place, so both end with the wanted text there
    have hsame : inject updated key second = inject existing key second :=
      Region.inject_inject hkey (hregion (Region.counts_of_inject hfirst)) hfirst second
    obtain ⟨p, mode, hp⟩ := FileTree.text_eq_ok_iff.1 htext
    cases hsecond : inject existing key second with
    | error e =>
      have htext' : u.text path = .ok updated := FileTree.text_replaceText htext hreplace
      rw [refresh_of_inject_error htext hsecond]
      exact ⟨rfl, u, refresh_of_inject_error htext' (hsame.trans hsecond), rfl⟩
    | ok wanted =>
      obtain ⟨rfl, hbefore, hafter⟩ := FileTree.replaceText_replaceText hp hreplace wanted
      obtain ⟨g₁, h₁⟩ := refresh_put hp hbefore hsecond
      have hput : (t.put p (.file mode (.text updated))).put p (.file mode (.text wanted)) =
          t.put p (.file mode (.text wanted)) := by
        simp only [FileTree.put, Dictionary.put_put]
      rw [← hput] at hafter
      obtain ⟨g₂, h₂⟩ := refresh_put (hp.put mode (.text updated)) hafter (hsame.trans hsecond)
      rw [h₁]
      exact ⟨g₂, hput ▸ h₂⟩

/-! ### Calls -/

/-- Once a call has succeeded, every call for its key ends as on the tree before, a failure, once it is let go of,
with nothing changed; and the same call changes nothing. -/
theorem last_call_wins {first second : Call} (hkey : first.key = second.key) (h : first.run path t = .ok g u) :
    (match second.run path t with
      | .ok _ v => ∃ g', second.run path u = .ok g' v
      | .error e v => v.letGo e.temporary? = t ∧
          ∃ w, second.run path u = .error e w ∧ w.letGo e.temporary? = u) ∧
    first.run path u = .ok .upToDate u := by
  rw [Call.run_eq] at h
  rw [Call.run_eq, Call.run_eq, ← hkey]
  have hline := first.lineFeed_not_mem_key
  exact ⟨refresh_refresh hline Call.isRegion_of_counts h second.rendered,
    refresh_again hline Call.isRegion_of_counts h⟩

/-- Region `1` of a file goes over to another resource and another module as if it had not been there. -/
theorem server_region_goes_over :
    ∃ (t u v : FileTree) (pod deployment : Resource), pod.name = "Pod" ∧ deployment.name = "Deployment" ∧
      t.text "server.rs" = .ok "mod pods;\n" ∧
      (Call.server 1 pod {}).run "server.rs" t = .ok .replaced u ∧
      (Call.server 1 deployment { protoModule := "crate::pb" }).run "server.rs" t = .ok .replaced v ∧
      (∃ g, (Call.server 1 deployment { protoModule := "crate::pb" }).run "server.rs" u = .ok g v) ∧
      (Call.server 1 pod {}).run "server.rs" u = .ok .upToDate u := by
  have hname : isResourceName "Pod" = true := by decide
  have hname' : isResourceName "Deployment" = true := by decide
  have hkey : isKeyParameter "id" = true := by decide
  obtain ⟨pod, hpod⟩ : ∃ r : Resource, r.name = "Pod" := ⟨⟨"Pod", some "id", hname, by simpa using hkey⟩, rfl⟩
  obtain ⟨deployment, hdeployment⟩ : ∃ r : Resource, r.name = "Deployment" :=
    ⟨⟨"Deployment", none, hname', by simp⟩, rfl⟩
  have htext : ({ nodes := [(["server.rs"], .file 0o644 (.text "mod pods;\n"))] } : FileTree).text "server.rs" =
      .ok "mod pods;\n" := by decide +kernel
  have hplace : ({ nodes := [(["server.rs"], .file 0o644 (.text "mod pods;\n"))] } : FileTree).temporaryPlace
      "server.rs" = .ok [".ttttttttt"] := by decide +kernel
  have hnone : (Key.index 1).counts (Text.lines "mod pods;\n".toList) = (0, 0) := by decide +kernel
  have hfile : FileTree.Replaceable _ "server.rs" := ⟨⟨_, htext⟩, ⟨_, hplace⟩, by decide +kernel⟩
  obtain ⟨u, hfirst⟩ := Call.run_of_counts (c := .server 1 pod {}) ⟨{}, rfl, by decide +kernel⟩ hfile htext hnone
  obtain ⟨v, hsecond⟩ := Call.run_of_counts (c := .server 1 deployment { protoModule := "crate::pb" })
    ⟨{ codegen := { protoModule := "crate::pb" } }, rfl, by decide +kernel⟩ hfile htext hnone
  have hkeys : (Call.server 1 pod {}).key = (Call.server 1 deployment { protoModule := "crate::pb" }).key := rfl
  have hwins := last_call_wins hkeys hfirst
  rw [hsecond] at hwins
  exact ⟨_, u, v, pod, deployment, hpod, hdeployment, htext, hfirst, hsecond, hwins.1, hwins.2⟩

end ResourceWatch.Generation

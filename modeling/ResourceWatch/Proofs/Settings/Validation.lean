import ResourceWatch.Settings.Basic

/-!
# What the check of settings says

Settings pass their check as they are, and exactly when they have none of the flaws that it looks for
(`Settings.validate_eq_ok_iff`): the target variable is not blank, every other name is a path, and no number is zero.
Nothing bounds a number from above.
-/

namespace ResourceWatch

/-- A path starts as an identifier does. -/
theorem isIdentStart_of_isPath {c : Char} {cs : List Char}
    (h : (splitColons (c :: cs)).all Text.isIdent = true) : Text.isIdentStart c = true := by
  unfold splitColons at h
  split at h
  · simp at *
  · simp [Text.isIdent] at h
  · rename_i heq
    simp only [List.cons.injEq] at heq
    obtain ⟨rfl, rfl⟩ := heq
    split at h
    · simp only [List.all_cons, Text.isIdent, Bool.and_eq_true] at h
      exact h.1.1
    · simp only [List.all_cons, Text.isIdent, Bool.and_eq_true] at h
      exact h.1.1

namespace Settings

variable {s t : Settings}

theorem flaw?_eq_none_iff : s.flaw? = none ↔
    Text.hasInk s.codegen.targetEnv = true ∧ (∀ f : NameField, f ≠ .targetEnv → isPath (f.get s.codegen) = true) ∧
      ∀ f : NumberField, f.get s ≠ 0 := by
  unfold flaw?
  by_cases hink : Text.hasInk s.codegen.targetEnv = true
  · rw [if_neg (by simp [hink])]
    simp only [Option.orElse_eq_orElse, Option.orElse_eq_or, Option.or_eq_none_iff, List.findSome?_eq_none_iff, hink,
      true_and, ite_eq_left_iff, reduceCtorEq, imp_false, Bool.not_eq_true, Bool.not_eq_false, ite_eq_right_iff]
    refine and_congr ⟨fun h f hf => h f ?_, fun h f hf => h f ?_⟩ ⟨fun h f => h f ?_, fun h f _ => h f⟩
    · cases f <;> simp at hf ⊢
    · rintro rfl
      simp at hf
    · cases f <;> simp
  · rw [if_pos (by simpa using hink)]
    simp [hink]

theorem validate_of_flaw? (h : s.flaw? = none) : s.validate = .ok s := by
  rw [validate, h]

theorem validate_eq_ok_iff : s.validate = .ok t ↔
    t = s ∧ Text.hasInk s.codegen.targetEnv = true ∧
      (∀ f : NameField, f ≠ .targetEnv → isPath (f.get s.codegen) = true) ∧ ∀ f : NumberField, f.get s ≠ 0 := by
  rw [← flaw?_eq_none_iff]
  constructor
  · intro h
    cases hflaw : s.flaw? with
    | none =>
      rw [validate_of_flaw? hflaw, Except.ok.injEq] at h
      exact ⟨h.symm, rfl⟩
    | some flaw => simp [validate, hflaw] at h
  · rintro ⟨rfl, hflaw⟩
    exact validate_of_flaw? hflaw

end Settings

end ResourceWatch

import Mathlib.Data.List.TakeWhile
import ResourceWatch.Number.Double

/-!
# Whole numbers as doubles

A text of digits alone is read as its number by every reader of numbers.  Between `2 ^ 63` and `2 ^ 64` doubles are
the multiples of 2048, so a whole number there that is read as a double and taken back is rounded to the nearest of
them, a tie to the even one, and kept below `2 ^ 64` (`toUnsigned64_ofDecimal`).
-/

namespace ResourceWatch.Number

open Text (isDigit isIdentRest)

/-! ### Texts of digits -/

theorem splitSign_cons {c : Char} (cs : List Char) (h : isIdentRest c = true) :
    splitSign (c :: cs) = (false, c :: cs) := by
  unfold splitSign
  split
  · rename_i heq
    rw [List.cons.injEq] at heq
    exact absurd (heq.1 ▸ h) (by decide)
  · rename_i heq
    rw [List.cons.injEq] at heq
    exact absurd (heq.1 ▸ h) (by decide)
  · rfl

section Digits

variable {cs : List Char} {n : Nat}

theorem readNatural?_eq_some_iff : readNatural? cs = some n ↔ (cs ≠ [] ∧ cs.all isDigit) ∧ ofDigits cs = n := by
  rw [readNatural?]
  split
  · rename_i h
    simp [h]
  · rename_i h
    exact iff_of_false (by simp) fun h' => h h'.1

theorem splitSign_of_readNatural? (h : readNatural? cs = some n) : splitSign cs = (false, cs) := by
  obtain ⟨⟨hne, hdigits⟩, -⟩ := readNatural?_eq_some_iff.1 h
  cases cs with
  | nil => exact absurd rfl hne
  | cons c cs =>
    rw [List.all_cons, Bool.and_eq_true] at hdigits
    exact splitSign_cons cs (by simp [isIdentRest, hdigits.1])

theorem readInteger?_of_readNatural? (h : readNatural? cs = some n) : readInteger? cs = some (n : Int) := by
  rw [readInteger?, splitSign_of_readNatural? h]
  simp [h, applySign]

theorem map_lowerChar_of_digits (h : cs.all isDigit = true) : cs.map Text.lowerChar = cs := by
  have hid : cs.map Text.lowerChar = cs.map id :=
    List.map_congr_left fun c hc => Text.lowerChar_of_isDigit (List.all_eq_true.1 h c hc)
  rw [hid, List.map_id]

/-- Digits behind a sign are a number without a fraction. -/
theorem Double.read?_of_splitSign {body : List Char} {negative : Bool} (hsplit : splitSign cs = (negative, body))
    (h : readNatural? body = some n) : Double.read? cs = some (ofDecimal ⟨negative, n, 0⟩) := by
  obtain ⟨⟨hne, hdigits⟩, rfl⟩ := readNatural?_eq_some_iff.1 h
  have hword : ∀ word : String, word.toList.all isDigit = false → body ≠ word.toList := by
    rintro word hword rfl
    simp [hdigits] at hword
  have hall : ∀ c ∈ body, isDigit c = true := List.all_eq_true.1 hdigits
  have htake : body.takeWhile isDigit = body := List.takeWhile_eq_self_iff.2 hall
  have hdrop : body.dropWhile isDigit = [] := List.dropWhile_eq_nil_iff.2 hall
  simp only [Double.read?, hsplit, map_lowerChar_of_digits hdigits, if_neg (hword "nan" (by decide)),
    if_neg (not_or.2 ⟨hword "inf" (by decide), hword "infinity" (by decide)⟩), readUnsigned?, htake, hdrop,
    List.append_nil, if_neg hne]
  rfl

theorem Double.read?_ne_none_of_readInteger? {i : Int} (h : readInteger? cs = some i) : Double.read? cs ≠ none := by
  rw [readInteger?, Option.map_eq_some_iff] at h
  obtain ⟨m, hm, -⟩ := h
  rw [Double.read?_of_splitSign (Prod.eta _).symm hm]
  exact Option.some_ne_none _

end Digits

namespace Double

/-! ### Rounding -/

theorem roundHalfEven_cases (num den : Nat) :
    let m := roundHalfEven num den
    (2 * (num % den) < den ∧ m = num / den) ∨ (den < 2 * (num % den) ∧ m = num / den + 1) ∨
      (2 * (num % den) = den ∧ m % 2 = 0 ∧ (m = num / den ∨ m = num / den + 1)) := by
  unfold roundHalfEven
  dsimp only
  split
  · rename_i h
    exact .inl ⟨h, rfl⟩
  · split
    · rename_i h
      exact .inr (.inl ⟨h, rfl⟩)
    · refine .inr (.inr ⟨by omega, ?_⟩)
      split <;> omega

/-- `m` units of `unit` are nearest to `num`, and `m` is even where its neighbour is as near. -/
structure IsNearest (num unit m : Nat) : Prop where
  below : 2 * (unit * m) ≤ 2 * num + unit
  above : 2 * num ≤ 2 * (unit * m) + unit
  even : 2 * (unit * m) = 2 * num + unit ∨ 2 * num = 2 * (unit * m) + unit → m % 2 = 0

theorem isNearest_roundHalfEven (num : Nat) {unit : Nat} (h : 0 < unit) :
    IsNearest num unit (roundHalfEven num unit) := by
  have hdiv := Nat.div_add_mod num unit
  have hmod := Nat.mod_lt num h
  have hcases := roundHalfEven_cases num unit
  generalize roundHalfEven num unit = m at hcases
  rcases hcases with ⟨hlt, rfl⟩ | ⟨hlt, rfl⟩ | ⟨heq, heven, rfl | rfl⟩
  · constructor <;> omega
  · have hsucc := Nat.mul_add_one unit (num / unit)
    constructor <;> omega
  · exact ⟨by omega, by omega, fun _ => heven⟩
  · have hsucc := Nat.mul_add_one unit (num / unit)
    exact ⟨by omega, by omega, fun _ => heven⟩

section Large

variable {n : Nat}

private theorem log2_large (h : signedEnd ≤ n) (h' : n < unsignedEnd) : n.log2 = 63 := by
  have hne : n ≠ 0 := by
    rintro rfl
    exact absurd h (by decide)
  exact (Nat.log2_eq_iff hne).2 ⟨h, h'⟩

private theorem fittingExponent_large (h : signedEnd ≤ n) (h' : n < unsignedEnd) : fittingExponent n 1 = 11 := by
  have hone : Nat.log2 1 = 0 := by decide
  have hunits : inUnits n 1 11 = (n, 2048) := rfl
  have hle : ¬ n < Nat.pow 2 52 * 2048 := Nat.not_lt.2 h
  simp [fittingExponent, log2_large h h', hone, hunits, hle]

theorem ofDecimal_large (h : signedEnd ≤ n) (h' : n < unsignedEnd) :
    ofDecimal ⟨false, n, 0⟩ =
      if roundHalfEven n 2048 = Nat.pow 2 53 then .finite false (Nat.pow 2 52) 12
      else .finite false (roundHalfEven n 2048) 11 := by
  have hne : n ≠ 0 := by
    rintro rfl
    exact absurd h (by decide)
  have hwidth : (Nat.toDigits 10 n).length ≤ 20 := by
    have hbound : unsignedEnd ≤ 10 ^ 20 := by decide
    exact (Nat.length_toDigits_le_iff (by decide) (by decide)).2 (Nat.lt_of_lt_of_le h' hbound)
  have hlow : ¬ (n = 0 ∨ (0 : Int) + (Nat.toDigits 10 n).length < -330) := by omega
  have hhigh : ¬ (310 : Int) < 0 + (Nat.toDigits 10 n).length := by omega
  have hratio : n * Nat.pow 10 (0 : Int).toNat = n := Nat.mul_one n
  have hexponent : max leastExponent 11 = 11 := rfl
  have hunits : inUnits n 1 11 = (n, 2048) := rfl
  simp only [ofDecimal, if_neg hlow, if_neg hhigh, hratio, ofRatio, fittingExponent_large h h', hexponent, hunits,
    Int.le_refl, if_true]
  split <;> rfl

theorem toUnsigned64_ofDecimal (h : signedEnd ≤ n) (h' : n < unsignedEnd) :
    (ofDecimal ⟨false, n, 0⟩).toUnsigned64 = min (2048 * roundHalfEven n 2048) (unsignedEnd - 1) := by
  rw [ofDecimal_large h h']
  split
  · rename_i heq
    rw [heq]
    decide
  · have hunits : inUnits (roundHalfEven n 2048) 1 (-11) = (roundHalfEven n 2048 * 2048, 1) := rfl
    simp only [toUnsigned64, hunits]
    have hhalf : (2 * (roundHalfEven n 2048 * 2048) + 1) / (2 * 1) = 2048 * roundHalfEven n 2048 := by omega
    rw [hhalf]
    rfl

end Large

end Double

end ResourceWatch.Number

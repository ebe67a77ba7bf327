/-!
# Identifiers

An identifier starts with an ASCII letter or an underscore and goes on with ASCII letters, digits and underscores.
All classes of characters here are ASCII: no other character ever stands in an identifier.
-/

namespace ResourceWatch.Text

def isUpper (c : Char) : Bool := 'A' ≤ c && c ≤ 'Z'

def isLower (c : Char) : Bool := 'a' ≤ c && c ≤ 'z'

def isDigit (c : Char) : Bool := '0' ≤ c && c ≤ '9'

def isLetter (c : Char) : Bool := isUpper c || isLower c

def isIdentStart (c : Char) : Bool := isLetter c || c == '_'

def isIdentRest (c : Char) : Bool := isLetter c || isDigit c || c == '_'

def isIdent : List Char → Bool
  | [] => false
  | c :: cs => isIdentStart c && cs.all isIdentRest

theorem isUpper_iff {c : Char} : isUpper c = true ↔ 65 ≤ c.toNat ∧ c.toNat ≤ 90 := by
  simp [isUpper, Char.le_def, UInt32.le_iff_toNat_le]

theorem isLower_iff {c : Char} : isLower c = true ↔ 97 ≤ c.toNat ∧ c.toNat ≤ 122 := by
  simp [isLower, Char.le_def, UInt32.le_iff_toNat_le]

theorem isDigit_iff {c : Char} : isDigit c = true ↔ 48 ≤ c.toNat ∧ c.toNat ≤ 57 := by
  simp [isDigit, Char.le_def, UInt32.le_iff_toNat_le]

theorem isIdentRest_of_isIdentStart {c : Char} (h : isIdentStart c = true) : isIdentRest c = true := by
  simp only [isIdentStart, isIdentRest, Bool.or_eq_true] at h ⊢
  rcases h with h | h
  · exact .inl (.inl h)
  · exact .inr h

theorem isIdentRest_of_mem {s : List Char} (h : isIdent s = true) {c : Char} (hc : c ∈ s) : isIdentRest c = true := by
  cases s with
  | nil => simp at hc
  | cons d ds =>
    simp only [isIdent, Bool.and_eq_true, List.all_eq_true] at h
    rcases List.mem_cons.1 hc with rfl | hc
    · exact isIdentRest_of_isIdentStart h.1
    · exact h.2 c hc

/-- Capital ASCII letters become small ones. -/
def lowerChar (c : Char) : Char := if isUpper c then Char.ofNat (c.toNat + 32) else c

def lowerAscii (s : String) : String := String.ofList (s.toList.map lowerChar)

theorem toNat_lowerChar {c : Char} (h : isUpper c = true) : (lowerChar c).toNat = c.toNat + 32 := by
  have hrange := isUpper_iff.1 h
  have hvalid : (c.toNat + 32).isValidChar := by
    left
    omega
  rw [lowerChar, if_pos h, Char.ofNat, dif_pos hvalid]
  rfl

theorem isUpper_lowerChar (c : Char) : isUpper (lowerChar c) = false := by
  rw [Bool.eq_false_iff, ne_eq, isUpper_iff]
  by_cases h : isUpper c = true
  · have hrange := isUpper_iff.1 h
    have hnat := toNat_lowerChar h
    omega
  · rwa [lowerChar, if_neg h, ← isUpper_iff]

theorem lowerChar_lowerChar (c : Char) : lowerChar (lowerChar c) = lowerChar c := by
  rw [lowerChar, if_neg (by simp [isUpper_lowerChar])]

theorem lowerChar_of_isDigit {c : Char} (h : isDigit c = true) : lowerChar c = c := by
  have hupper : ¬ isUpper c = true := by
    rw [isDigit_iff] at h
    rw [isUpper_iff]
    omega
  rw [lowerChar, if_neg hupper]

theorem isLower_lowerChar {c : Char} : isLower (lowerChar c) = true ↔ isLetter c = true := by
  by_cases h : isUpper c = true
  · have hrange := isUpper_iff.1 h
    have hlower : isLower (lowerChar c) = true := by
      rw [isLower_iff, toNat_lowerChar h]
      omega
    simp [hlower, isLetter, h]
  · rw [lowerChar, if_neg h]
    simp [isLetter, h]

theorem lowerAscii_lowerAscii (s : String) : lowerAscii (lowerAscii s) = lowerAscii s := by
  simp [lowerAscii, Function.comp_def, lowerChar_lowerChar]

end ResourceWatch.Text

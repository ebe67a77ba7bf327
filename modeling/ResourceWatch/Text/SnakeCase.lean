import ResourceWatch.Text.Ident

/-!
# Snake case

The words of a name are its runs of letters and digits, cut again where a small letter is followed by a capital one
and before the last capital of a run that a small letter follows, so `HTTPServer2Go` has the words `HTTP`,
`Server2` and `Go`.  Snake case joins the words in small letters with underscores.
-/

namespace ResourceWatch.Text

def isWordChar (c : Char) : Bool := isLetter c || isDigit c

/-- The case of the last letter seen in the current word. -/
inductive LetterCase where
  | unseen
  | lower
  | upper
deriving DecidableEq, Repr

/-- The case after reading one more character: a digit keeps it. -/
def LetterCase.after (m : LetterCase) (c : Char) : LetterCase :=
  if isLower c then .lower else if isUpper c then .upper else m

/-- Cuts a run of letters and digits into words; `word` holds the current word in reverse. -/
def cutRun (m : LetterCase) (word : List Char) : List Char → List (List Char)
  | [] => []
  | [c] => [(c :: word).reverse]
  | c :: d :: rest =>
    if m.after c = .lower && isUpper d then (c :: word).reverse :: cutRun .unseen [] (d :: rest)
    else if m = .upper && isUpper c && isLower d then word.reverse :: cutRun .unseen [c] (d :: rest)
    else cutRun (m.after c) (c :: word) (d :: rest)

def words (s : List Char) : List (List Char) :=
  (s.splitOnP (fun c => !isWordChar c)).flatMap (cutRun .unseen [])

def snakeCase (s : List Char) : List Char :=
  ['_'].intercalate ((words s).map (·.map lowerChar))

/-! ### Characters in snake case -/

private theorem mem_of_mem_splitOnP {p : Char → Bool} {s part : List Char} (hpart : part ∈ s.splitOnP p) {c : Char}
    (hc : c ∈ part) : c ∈ s := by
  induction s generalizing part with
  | nil =>
    rw [List.splitOnP_nil, List.mem_singleton] at hpart
    simp [hpart] at hc
  | cons d s ih =>
    rw [List.splitOnP_cons_eq_if_modifyHead] at hpart
    split at hpart
    · rcases List.mem_cons.1 hpart with rfl | hpart
      · simp at hc
      · exact List.mem_cons_of_mem d (ih hpart hc)
    · cases hs : s.splitOnP p with
      | nil => exact absurd hs (List.splitOnP_ne_nil p s)
      | cons q qs =>
        rw [hs] at ih
        rw [hs, List.modifyHead_cons] at hpart
        rcases List.mem_cons.1 hpart with rfl | hpart
        · rcases List.mem_cons.1 hc with rfl | hc
          · simp
          · exact List.mem_cons_of_mem d (ih (by simp) hc)
        · exact List.mem_cons_of_mem d (ih (by simp [hpart]) hc)

private theorem mem_of_mem_cutRun {m : LetterCase} {word s w : List Char} (hw : w ∈ cutRun m word s) {c : Char}
    (hc : c ∈ w) : c ∈ word ∨ c ∈ s := by
  induction m, word, s using cutRun.induct with
  | case1 => simp [cutRun] at hw
  | case2 m word d =>
    rw [cutRun, List.mem_singleton] at hw
    rw [hw, List.mem_reverse, List.mem_cons] at hc
    exact hc.elim (fun h => .inr (by simp [h])) .inl
  | case3 m word d e rest h ih =>
    rw [cutRun, if_pos h] at hw
    rcases List.mem_cons.1 hw with rfl | hw
    · rw [List.mem_reverse, List.mem_cons] at hc
      exact hc.elim (fun h => .inr (by simp [h])) .inl
    · exact (ih hw).elim (by simp) fun h => .inr (List.mem_cons_of_mem d h)
  | case4 m word d e rest h h' ih =>
    rw [cutRun, if_neg h, if_pos h'] at hw
    rcases List.mem_cons.1 hw with rfl | hw
    · exact .inl (List.mem_reverse.1 hc)
    · exact .inr ((ih hw).elim (fun h => by simp [List.mem_singleton.1 h]) (List.mem_cons_of_mem d))
  | case5 m word d e rest h h' ih =>
    rw [cutRun, if_neg h, if_neg h'] at hw
    rcases ih hw with hc | hc
    · rcases List.mem_cons.1 hc with rfl | hc
      · exact .inr (by simp)
      · exact .inl hc
    · exact .inr (List.mem_cons_of_mem d hc)

theorem mem_of_mem_words {s w : List Char} (hw : w ∈ words s) {c : Char} (hc : c ∈ w) : c ∈ s := by
  obtain ⟨run, hrun, hw⟩ := List.mem_flatMap.1 hw
  rcases mem_of_mem_cutRun hw hc with hc | hc
  · simp at hc
  · exact mem_of_mem_splitOnP hrun hc

/-- Snake case adds nothing but underscores to the small letters of a name. -/
theorem mem_snakeCase {s : List Char} {c : Char} (hc : c ∈ snakeCase s) : c = '_' ∨ ∃ d ∈ s, c = lowerChar d := by
  unfold snakeCase at hc
  generalize hws : words s = ws at hc
  have hsub : ∀ w ∈ ws, ∀ d ∈ w, d ∈ s := fun w hw d hd => mem_of_mem_words (hws ▸ hw) hd
  clear hws
  induction ws with
  | nil => simp at hc
  | cons w ws ih =>
    have hword : c ∈ w.map lowerChar → ∃ d ∈ s, c = lowerChar d := by
      intro h
      obtain ⟨d, hd, rfl⟩ := List.mem_map.1 h
      exact ⟨d, hsub w (by simp) d hd, rfl⟩
    by_cases hnil : ws = []
    · rw [hnil, List.map_singleton, List.intercalate_singleton] at hc
      exact .inr (hword hc)
    · rw [List.map_cons, List.intercalate_cons_of_ne_nil (by simpa using hnil), List.append_assoc, List.mem_append,
        List.singleton_append, List.mem_cons] at hc
      rcases hc with hc | hc | hc
      · exact .inr (hword hc)
      · exact .inl hc
      · exact ih hc fun w' hw' => hsub w' (by simp [hw'])

/-! ### The first character in snake case -/

/-- The first word of a run starts as the run does. -/
private theorem cutRun_eq_cons {m : LetterCase} {word s : List Char} (h : word ≠ [] ∨ m ≠ .upper) (hs : s ≠ []) :
    ∃ w ws, cutRun m word s = w :: ws ∧ w.head? = (word.reverse ++ s).head? := by
  induction m, word, s using cutRun.induct with
  | case1 => exact absurd rfl hs
  | case2 m word c => exact ⟨_, _, rfl, by simp⟩
  | case3 m word c d rest hcut ih =>
    rw [cutRun, if_pos hcut]
    exact ⟨_, _, rfl, by simp [List.head?_append]⟩
  | case4 m word c d rest hcut hcut' ih =>
    have hword : word ≠ [] := by
      refine h.resolve_right (not_not_intro ?_)
      simp only [Bool.and_eq_true, decide_eq_true_eq] at hcut'
      exact hcut'.1.1
    rw [cutRun, if_neg hcut, if_pos hcut']
    obtain ⟨e, es, hreverse⟩ := List.exists_cons_of_ne_nil (List.reverse_ne_nil_iff.2 hword)
    exact ⟨_, _, rfl, by simp [hreverse]⟩
  | case5 m word c d rest hcut hcut' ih =>
    obtain ⟨w, ws, hcons, hhead⟩ := ih (.inl (List.cons_ne_nil c word)) (List.cons_ne_nil d rest)
    rw [cutRun, if_neg hcut, if_neg hcut']
    exact ⟨w, ws, hcons, by simpa using hhead⟩

theorem words_of_not_isWordChar {c : Char} {s : List Char} (h : isWordChar c = false) : words (c :: s) = words s := by
  rw [words, List.splitOnP_cons_eq_if_modifyHead, if_pos (by simp [h]), List.flatMap_cons, cutRun, List.nil_append,
    words]

theorem words_of_isWordChar {c : Char} (h : isWordChar c = true) (s : List Char) :
    ∃ w ws, words (c :: s) = (c :: w) :: ws := by
  cases hsplit : s.splitOnP (fun c => !isWordChar c) with
  | nil => exact absurd hsplit (List.splitOnP_ne_nil _ s)
  | cons run runs =>
    have hunseen : ([] : List Char) ≠ [] ∨ LetterCase.unseen ≠ .upper := .inr (by decide)
    obtain ⟨w, ws, hcons, hhead⟩ := cutRun_eq_cons hunseen (List.cons_ne_nil c run)
    obtain ⟨w', rfl⟩ : ∃ w', w = c :: w' := by
      cases w with
      | nil => simp at hhead
      | cons d w' => exact ⟨w', by rw [(Option.some.inj hhead : d = c)]⟩
    refine ⟨w', ws ++ runs.flatMap (cutRun .unseen []), ?_⟩
    rw [words, List.splitOnP_cons_eq_if_modifyHead, if_neg (by simp [h]), hsplit, List.modifyHead_cons,
      List.flatMap_cons, hcons, List.cons_append]

/-- Snake case starts with the first letter or digit. -/
theorem head?_snakeCase (s : List Char) : (snakeCase s).head? = (s.find? isWordChar).map lowerChar := by
  induction s with
  | nil => rfl
  | cons c s ih =>
    cases h : isWordChar c with
    | false => rw [snakeCase, words_of_not_isWordChar h, ← snakeCase, ih, List.find?_cons_of_neg (by simp [h])]
    | true =>
      obtain ⟨w, ws, hwords⟩ := words_of_isWordChar h s
      rw [snakeCase, hwords, List.find?_cons_of_pos h]
      cases ws with
      | nil => simp
      | cons w' ws => simp [List.intercalate_cons_of_ne_nil]

end ResourceWatch.Text

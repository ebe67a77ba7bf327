/-!
# Dictionaries

A dictionary keeps values by key, in the order in which the keys came.  Its view is `lookup`; `put` and `erase` are
stated through it, and a new key can be taken out again without a trace (`erase_put`).
-/

namespace ResourceWatch

abbrev Dictionary (α β : Type) := List (α × β)

namespace Dictionary

variable {α β : Type} [BEq α] [LawfulBEq α]

/-- Replaces the value of a key where it stands, or adds the key at the end. -/
def put (key : α) (value : β) : Dictionary α β → Dictionary α β
  | [] => [(key, value)]
  | e :: es => if e.1 == key then (key, value) :: es else e :: put key value es

def erase (key : α) (es : Dictionary α β) : Dictionary α β := es.filter fun e => e.1 != key

@[simp] theorem lookup_put (key k : α) (value : β) (es : Dictionary α β) :
    (put key value es).lookup k = if k == key then some value else es.lookup k := by
  induction es with
  | nil => cases h : k == key <;> simp [put, List.lookup_cons, h]
  | cons e es ih =>
    obtain ⟨k', v⟩ := e
    by_cases hk : k' = key
    · subst hk
      cases h : k == k' <;> simp [put, List.lookup_cons, h]
    · have hb : (k' == key) = false := by simpa using hk
      rw [put, if_neg (by simp [hb]), List.lookup_cons, List.lookup_cons, ih]
      by_cases h : k = k'
      · subst h
        simp [hb]
      · simp [show (k == k') = false by simpa using h]

@[simp] theorem lookup_erase (key k : α) (es : Dictionary α β) :
    (erase key es).lookup k = if k == key then none else es.lookup k := by
  unfold erase
  induction es with
  | nil => simp
  | cons e es ih =>
    obtain ⟨k', v⟩ := e
    by_cases hk : k' = key
    · subst hk
      rw [List.filter_cons_of_neg (by simp), ih, List.lookup_cons]
      cases h : k == k' <;> simp
    · rw [List.filter_cons_of_pos (by simpa using hk), List.lookup_cons, List.lookup_cons, ih]
      by_cases h : k = k'
      · subst h
        simp [hk]
      · simp [show (k == k') = false by simpa using h]

/-- A key that is put into a dictionary that has none of it leaves no trace when it is erased. -/
theorem erase_put {key : α} (value : β) {es : Dictionary α β} (h : ∀ e ∈ es, e.1 ≠ key) :
    erase key (put key value es) = es := by
  induction es with
  | nil => simp [put, erase]
  | cons e es ih =>
    have he : (e.1 == key) = false := by simpa using h e (by simp)
    rw [put, if_neg (by simp [he]), erase, List.filter_cons_of_pos (by simp [bne, he])]
    exact congrArg _ (ih fun e' he' => h e' (by simp [he']))

theorem put_put (key : α) (v w : β) (es : Dictionary α β) : put key w (put key v es) = put key w es := by
  induction es with
  | nil => simp [put]
  | cons e es ih =>
    by_cases he : e.1 = key
    · simp [put, he]
    · simp [put, he, ih]

/-- To put what is there already changes nothing. -/
theorem put_self {key : α} {value : β} {es : Dictionary α β} (h : es.lookup key = some value) :
    put key value es = es := by
  induction es with
  | nil => simp at h
  | cons e es ih =>
    obtain ⟨k, v⟩ := e
    by_cases he : k = key
    · subst he
      rw [List.lookup_cons_self, Option.some.injEq] at h
      simp [put, h]
    · have hne : (key == k) = false := by simpa using fun hk => he hk.symm
      rw [List.lookup_cons, hne] at h
      simp [put, he, ih h]

theorem erase_put_of_ne {key k : α} (hne : k ≠ key) (value : β) (es : Dictionary α β) :
    erase key (put k value es) = put k value (erase key es) := by
  induction es with
  | nil => simp [put, erase, hne]
  | cons e es ih =>
    unfold erase at ih ⊢
    by_cases hk : e.1 = k
    · simp [put, hk, hne]
    · by_cases he : e.1 = key
      · simp [put, he, hne.symm, ih]
      · simp [put, hk, he, ih]

/-! ### Keys -/

/-- The keys in the order in which they came. -/
def keys (es : Dictionary α β) : List α := es.map (·.1)

theorem mem_keys_iff {key : α} {es : Dictionary α β} : key ∈ keys es ↔ es.lookup key ≠ none := by
  induction es with
  | nil => simp [keys]
  | cons e es ih =>
    unfold keys at ih ⊢
    rw [List.map_cons, List.mem_cons, ih, List.lookup_cons]
    by_cases h : key = e.1
    · simp [h]
    · simp [h, show (key == e.1) = false by simpa using h]

omit [LawfulBEq α] in
theorem mem_put {key : α} {value : β} {es : Dictionary α β} {e : α × β} (h : e ∈ put key value es) :
    e = (key, value) ∨ e ∈ es := by
  induction es with
  | nil => exact Or.inl (List.mem_singleton.1 h)
  | cons e' es ih =>
    unfold put at h
    split at h
    · exact (List.mem_cons.1 h).imp_right (List.mem_cons_of_mem e')
    · rcases List.mem_cons.1 h with rfl | h
      · exact Or.inr List.mem_cons_self
      · exact (ih h).imp_right (List.mem_cons_of_mem e')

/-- No key comes twice. -/
theorem nodup_keys_put {es : Dictionary α β} (h : (keys es).Nodup) (key : α) (value : β) :
    (keys (put key value es)).Nodup := by
  induction es with
  | nil => simp [keys, put]
  | cons e es ih =>
    have hes := List.nodup_cons.1 h
    by_cases he : e.1 = key
    · rw [put, if_pos (by simp [he])]
      exact List.nodup_cons.2 ⟨he ▸ hes.1, hes.2⟩
    · rw [put, if_neg (by simp [he])]
      refine List.nodup_cons.2 ⟨?_, ih hes.2⟩
      have hkey : e.1 ∈ keys (put key value es) ↔ e.1 ∈ keys es := by
        rw [mem_keys_iff, mem_keys_iff, lookup_put, if_neg (by simpa using he)]
      exact fun hmem => hes.1 (hkey.1 hmem)

omit [LawfulBEq α] in
theorem nodup_keys_erase {es : Dictionary α β} (h : (keys es).Nodup) (key : α) : (keys (erase key es)).Nodup :=
  h.sublist (List.filter_sublist.map _)

/-- Where no key comes twice, every value is found. -/
theorem lookup_of_mem {es : Dictionary α β} (h : (keys es).Nodup) {e : α × β} (he : e ∈ es) :
    es.lookup e.1 = some e.2 := by
  induction es with
  | nil => simp at he
  | cons e' es ih =>
    have hes := List.nodup_cons.1 h
    rcases List.mem_cons.1 he with rfl | he
    · exact List.lookup_cons_self
    · have hne : (e.1 == e'.1) = false := by
        simpa using fun heq : e.1 = e'.1 => hes.1 (heq.symm ▸ List.mem_map_of_mem he : e'.1 ∈ keys es)
      rw [List.lookup_cons, hne]
      exact ih hes.2 he

end Dictionary

end ResourceWatch

import Mathlib.Data.List.Induction
import ResourceWatch.ChangeCache
import ResourceWatch.Number.Double

/-!
# What a change cache tells of a run

A cache is asked about replies and told to forget keys, in any order.  A diary keeps what was observed of each key and
whether it was reported as a change.  A cache that passes over a reply still holds an older one, but nothing can be
told apart by it: where equality is symmetric and transitive, whatever equals the one equals the other
(`Diary.Recalls`).  So a reply is reported unless it equals the one observed last (`changes_are_reported`).
-/

namespace ResourceWatch

/-- A call that changes what a cache remembers. -/
inductive CacheCall (R : Type) where
  | observe (key : String) (reply : R)
  | forget (key : String)

/-- What is seen of a call. -/
inductive Remark (R : Type) where
  | observed (key : String) (reply : R) (reported : Bool)
  | forgotten (key : String)

def CacheCall.key {R : Type} : CacheCall R → String
  | .observe key _ | .forget key => key

def Remark.key {R : Type} : Remark R → String
  | .observed key _ _ | .forgotten key => key

variable {R : Type}

namespace ChangeCache

variable [BEq R] (c : ChangeCache R) (key k : String) (r : R)

/-- The cache after a call, and what is seen of that. -/
def take (c : ChangeCache R) : CacheCall R → ChangeCache R × Remark R
  | .observe key reply => ((c.observe key reply).2, .observed key reply (c.observe key reply).1)
  | .forget key => (c.forget key, .forgotten key)

/-- A reply that is reported takes the place of the one remembered, and no other does. -/
theorem get?_observe_eq : (c.observe key r).2.get? k =
    if k = key ∧ (c.observe key r).1 = true then some r else c.get? k := by
  unfold observe
  cases hc : c.get? key with
  | none => simp
  | some cached =>
    dsimp only
    by_cases he : (cached == r) = true
    · simp [he]
    · simp [he]

theorem observe_fst_eq_false_iff :
    (c.observe key r).1 = false ↔ ∃ cached, c.get? key = some cached ∧ (cached == r) = true := by
  unfold observe
  cases hc : c.get? key with
  | none => simp
  | some cached =>
    by_cases he : (cached == r) = true
    · simp [he]
    · simp [he]

/-- The answer to a reply rests on what is remembered of its key. -/
theorem observe_fst_congr {c c' : ChangeCache R} {key : String} (h : c.get? key = c'.get? key) (r : R) :
    (c.observe key r).1 = (c'.observe key r).1 := by
  unfold observe
  rw [h]
  cases c'.get? key with
  | none => rfl
  | some cached =>
    dsimp only
    split <;> rfl

/-- A call leaves the other keys as they are. -/
theorem get?_take_of_ne {call : CacheCall R} (h : k ≠ call.key) : (c.take call).1.get? k = c.get? k := by
  cases call with
  | observe key reply => exact (c.get?_observe_eq key k reply).trans (if_neg fun hk => h hk.1)
  | forget key => exact (c.get?_forget key k).trans (if_neg h)

/-- What is seen of a call, and what is remembered of its key behind it, rests on what was remembered of that key. -/
theorem take_congr {c c' : ChangeCache R} {call : CacheCall R} (h : c.get? call.key = c'.get? call.key) :
    (c.take call).2 = (c'.take call).2 ∧ (c.take call).1.get? call.key = (c'.take call).1.get? call.key := by
  cases call with
  | observe key reply =>
    have hreported : (c.observe key reply).1 = (c'.observe key reply).1 := observe_fst_congr h reply
    refine ⟨congrArg (Remark.observed key reply) hreported, ?_⟩
    simp only [take, CacheCall.key, get?_observe_eq, hreported] at h ⊢
    rw [h]
  | forget key => simp [take, CacheCall.key]

theorem key_take (call : CacheCall R) : (c.take call).2.key = call.key := by
  cases call <;> rfl

/-- No key comes twice among the remembered replies. -/
theorem nodup_keys_take {c : ChangeCache R} (h : c.entries.keys.Nodup) (call : CacheCall R) :
    (c.take call).1.entries.keys.Nodup := by
  cases call with
  | observe key reply =>
    simp only [take, observe]
    split
    · exact Dictionary.nodup_keys_put h key reply
    · split
      · exact h
      · exact Dictionary.nodup_keys_put h key reply
  | forget key => exact Dictionary.nodup_keys_erase h key

end ChangeCache

/-! ### Diaries -/

/-- A cache and what was seen of it, the latest first. -/
structure Diary (R : Type) where
  cache : ChangeCache R := {}
  remarks : List (Remark R) := []

namespace Diary

/-- The observations of the key since it was last forgotten, the latest first, each with whether it was reported. -/
def observations (key : String) : List (Remark R) → List (R × Bool)
  | [] => []
  | .observed k reply reported :: earlier =>
    if k = key then (reply, reported) :: observations key earlier else observations key earlier
  | .forgotten k :: earlier => if k = key then [] else observations key earlier

variable [BEq R]

def take (d : Diary R) (call : CacheCall R) : Diary R := ⟨(d.cache.take call).1, (d.cache.take call).2 :: d.remarks⟩

/-- The diary of a new cache. -/
def ofCalls (calls : List (CacheCall R)) : Diary R := calls.foldl take {}

theorem ofCalls_append_singleton (calls : List (CacheCall R)) (call : CacheCall R) :
    ofCalls (calls ++ [call]) = (ofCalls calls).take call := List.foldl_append

omit [BEq R] in
theorem observations_cons_of_ne {remark : Remark R} {key : String} (h : remark.key ≠ key)
    (earlier : List (Remark R)) : observations key (remark :: earlier) = observations key earlier := by
  cases remark with
  | observed k reply reported => exact if_neg h
  | forgotten k => exact if_neg h

/-- Of what was observed of the key the cache remembers the last reply that was reported, and that equals whatever the
last one equals. -/
structure Recalls (d : Diary R) (key : String) : Prop where
  get?_eq : d.cache.get? key = ((observations key d.remarks).find? (·.2)).map (·.1)
  stands : ∀ o ∈ (observations key d.remarks).head?, ∃ cached, d.cache.get? key = some cached ∧
    ∀ r, (cached == r) = (o.1 == r)

theorem Recalls.take [PartialEquivBEq R] {d : Diary R} {key : String} (h : d.Recalls key) (call : CacheCall R) :
    (d.take call).Recalls key := by
  by_cases hkey : key = call.key
  · subst hkey
    cases call with
    | forget k =>
      have hnone : observations k (d.take (.forget k)).remarks = [] := if_pos rfl
      refine ⟨?_, fun o ho => ?_⟩
      · rw [CacheCall.key, hnone]
        exact (d.cache.get?_forget k k).trans (if_pos rfl)
      · rw [CacheCall.key, hnone] at ho
        simp at ho
    | observe k reply =>
      have hseen : observations k (d.take (.observe k reply)).remarks =
          (reply, (d.cache.observe k reply).1) :: observations k d.remarks := if_pos rfl
      have hget : (d.take (.observe k reply)).cache.get? k =
          if k = k ∧ (d.cache.observe k reply).1 = true then some reply else d.cache.get? k :=
        d.cache.get?_observe_eq k k reply
      rw [CacheCall.key] at h ⊢
      cases hreported : (d.cache.observe k reply).1 with
      | true =>
        rw [if_pos ⟨rfl, hreported⟩] at hget
        rw [hreported] at hseen
        refine ⟨by rw [hget, hseen]; rfl, fun o ho => ?_⟩
        rw [hseen, List.head?_cons, Option.mem_some_iff] at ho
        exact ⟨reply, hget, fun r => by rw [← ho]⟩
      | false =>
        -- the reply equals the remembered one, which stays and stands for it
        rw [if_neg (by simp [hreported])] at hget
        rw [hreported] at hseen
        obtain ⟨cached, hcached, heq⟩ := (d.cache.observe_fst_eq_false_iff k reply).1 hreported
        refine ⟨by rw [hget, hseen, h.get?_eq]; rfl, fun o ho => ?_⟩
        rw [hseen, List.head?_cons, Option.mem_some_iff] at ho
        exact ⟨cached, hget.trans hcached, fun r => by rw [← ho]; exact BEq.congr_left heq⟩
  · have hseen : observations key (d.take call).remarks = observations key d.remarks :=
      observations_cons_of_ne (fun h => hkey (h.symm.trans (d.cache.key_take call))) _
    have hget : (d.take call).cache.get? key = d.cache.get? key := d.cache.get?_take_of_ne key hkey
    exact ⟨by rw [hget, hseen, h.get?_eq], by rw [hget, hseen]; exact h.stands⟩

theorem recalls_ofCalls [PartialEquivBEq R] (calls : List (CacheCall R)) (key : String) :
    (ofCalls calls).Recalls key := by
  induction calls using List.reverseRecOn with
  | nil => exact ⟨rfl, fun o ho => by simp [ofCalls, observations] at ho⟩
  | append_singleton calls call ih =>
    rw [ofCalls_append_singleton]
    exact ih.take call

/-- The cache remembers a reply of the keys of which one was observed. -/
theorem Recalls.get?_eq_none_iff {d : Diary R} {key : String} (h : d.Recalls key) :
    d.cache.get? key = none ↔ observations key d.remarks = [] := by
  constructor
  · intro hnone
    cases hseen : observations key d.remarks with
    | nil => rfl
    | cons o earlier =>
      obtain ⟨cached, hcached, -⟩ := h.stands o (by rw [hseen]; rfl)
      rw [hnone] at hcached
      simp at hcached
  · intro hseen
    rw [h.get?_eq, hseen]
    rfl

theorem nodup_keys_ofCalls (calls : List (CacheCall R)) : (ofCalls calls).cache.entries.keys.Nodup := by
  induction calls using List.reverseRecOn with
  | nil => exact List.nodup_nil
  | append_singleton calls call ih =>
    rw [ofCalls_append_singleton]
    exact ChangeCache.nodup_keys_take ih call

/-- Calls for other keys leave no trace in what is seen of a key, nor in what is remembered of it. -/
theorem ofCalls_filter (calls : List (CacheCall R)) (key : String) :
    let own := ofCalls (calls.filter (·.key = key))
    own.remarks = (ofCalls calls).remarks.filter (·.key = key) ∧
      own.cache.get? key = (ofCalls calls).cache.get? key := by
  induction calls using List.reverseRecOn with
  | nil => exact ⟨rfl, rfl⟩
  | append_singleton calls call ih =>
    obtain ⟨hremarks, hget⟩ := ih
    rw [List.filter_append, ofCalls_append_singleton]
    have hcall : ((ofCalls calls).cache.take call).2.key = call.key := (ofCalls calls).cache.key_take call
    by_cases hkey : call.key = key
    · subst hkey
      obtain ⟨hseen, hget'⟩ := ChangeCache.take_congr hget
      rw [show [call].filter (fun c => c.key = call.key) = [call] by simp, ofCalls_append_singleton]
      refine ⟨?_, hget'⟩
      simp only [take, hseen, hremarks]
      rw [List.filter_cons_of_pos (by simp [hcall])]
    · rw [show [call].filter (fun c => c.key = key) = [] by simp [hkey], List.append_nil]
      refine ⟨?_, hget.trans ((ofCalls calls).cache.get?_take_of_ne key (Ne.symm hkey)).symm⟩
      simp only [take, hremarks]
      rw [List.filter_cons_of_neg (by simp [hcall, hkey])]

end Diary

/-- A reply is passed over exactly if its key was observed since it was last forgotten, and the reply observed last
equals it, reported or not.  What the cache remembers of a key is the last reply that was reported; it remembers one
of every key that was observed and not forgotten since, and the calls for other keys make no difference. -/
theorem changes_are_reported [BEq R] [PartialEquivBEq R] (calls : List (CacheCall R)) :
    let d := Diary.ofCalls calls
    (∀ key reply, (d.cache.observe key reply).1 = false ↔
      ∃ last, (Diary.observations key d.remarks).head?.map (·.1) = some last ∧ (last == reply) = true) ∧
    (∀ key, d.cache.get? key = ((Diary.observations key d.remarks).find? (·.2)).map (·.1)) ∧
    (∃ keys : List String, keys.Nodup ∧ (∀ key, key ∈ keys ↔ Diary.observations key d.remarks ≠ []) ∧
      d.cache.size = keys.length) ∧
    ∀ key, let own := Diary.ofCalls (calls.filter (·.key = key))
      own.remarks = d.remarks.filter (·.key = key) ∧ own.cache.get? key = d.cache.get? key ∧
        ∀ reply, (own.cache.observe key reply).1 = (d.cache.observe key reply).1 := by
  intro d
  have hrecalls : ∀ key, d.Recalls key := Diary.recalls_ofCalls calls
  refine ⟨fun key reply => ?_, fun key => (hrecalls key).get?_eq, ⟨d.cache.entries.keys, ?_, fun key => ?_, ?_⟩,
    fun key => ?_⟩
  · rw [d.cache.observe_fst_eq_false_iff]
    cases hseen : Diary.observations key d.remarks with
    | nil => simp [(hrecalls key).get?_eq_none_iff.2 hseen]
    | cons o earlier =>
      obtain ⟨cached, hcached, heq⟩ := (hrecalls key).stands o (by rw [hseen]; rfl)
      simp [hcached, heq]
  · exact Diary.nodup_keys_ofCalls calls
  · rw [Dictionary.mem_keys_iff, ← ChangeCache.get?, ne_eq, (hrecalls key).get?_eq_none_iff]
  · exact (List.length_map _).symm
  · obtain ⟨hremarks, hget⟩ := Diary.ofCalls_filter calls key
    exact ⟨hremarks, hget, ChangeCache.observe_fst_congr hget⟩

/-- Zeros of both signs are the same reply, and what is no number is a change each time, even after itself. -/
theorem changes_of_doubles_are_reported :
    let zero : Bool → Number.Double := .zero
    let d := Diary.ofCalls [.observe "k" (zero false), .observe "l" .nan, .observe "k" (zero true)]
    (d.cache.observe "k" (zero true)).1 = false ∧ (d.cache.observe "l" .nan).1 = true ∧
      d.cache.get? "k" = some (zero false) := by
  intro zero d
  obtain ⟨hchange, hget, -⟩ :=
    changes_are_reported [.observe "k" (zero false), .observe "l" .nan, .observe "k" (zero true)]
  have hk : Diary.observations "k" d.remarks = [(zero true, false), (zero false, true)] := by decide
  have hl : Diary.observations "l" d.remarks = [(.nan, true)] := by decide
  refine ⟨(hchange "k" (zero true)).2 ⟨zero true, by rw [hk]; rfl, by decide⟩, ?_, ?_⟩
  · rw [← Bool.not_eq_false]
    intro hsame
    obtain ⟨last, hlast, heq⟩ := (hchange "l" .nan).1 hsame
    rw [hl] at hlast
    obtain rfl : Number.Double.nan = last := Option.some.inj hlast
    exact absurd heq (by decide)
  · rw [hget "k", hk]
    rfl

end ResourceWatch

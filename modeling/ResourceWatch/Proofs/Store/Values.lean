import Mathlib.Data.List.Induction
import ResourceWatch.Proofs.Store.Beside

/-!
# Values and events

What a store holds for its readers and what it tells its subscribers come from different parts of it: the values, the
modification index, and the events.  They agree in every history (`Chronicle.Agrees`): the events have the indices
from one up to the latest, and the value of a key is the one of the last put of the key, unless a deletion followed
(`store_agrees_with_its_events`).
-/

namespace ResourceWatch

variable {V : Type}

/-! ### The events of a key -/

/-- The value that a key has behind a change of it. -/
def EventKind.stored? : EventKind V → Option V
  | .put value => some value
  | .delete _ | .error _ => none

namespace Log

/-- The events published on all keys. -/
def published : Log V → List (Event V)
  | [] => []
  | .published e :: log => published log ++ [e]
  | .opened _ :: log | .taken _ _ :: log => published log

/-- The puts and deletions published on the key. -/
def changes (key : String) (log : Log V) : List (Event V) :=
  (published log).filter fun e => e.key = key && !e.kind.isError

theorem changes_published (key : String) (e : Event V) (log : Log V) :
    changes key (.published e :: log) =
      if e.key = key ∧ e.kind.isError = false then changes key log ++ [e] else changes key log := by
  rw [changes, published, List.filter_append, ← changes]
  by_cases h : e.key = key ∧ e.kind.isError = false
  · simp [h]
  · rw [if_neg h, List.filter_cons_of_neg (by simpa using h), List.filter_nil, List.append_nil]

theorem isError_of_mem_changes {key : String} {log : Log V} {e : Event V} (h : e ∈ changes key log) :
    e.kind.isError = false := by
  have := (List.mem_filter.1 h).2
  simp only [Bool.and_eq_true, Bool.not_eq_true'] at this
  exact this.2

end Log

/-! ### What the acts do to values and indices -/

/-- Whether the act publishes an event; a key without a value is not deleted. -/
def StoreAct.publishes (s : MemoryStore V) : StoreAct V → Bool
  | .put _ _ | .fail _ _ => true
  | .delete key => (s.values.lookup key).isSome
  | _ => false

/-- Acts that change no value and do not end reading. -/
def StoreAct.KeepsValues : StoreAct V → Prop
  | .put _ _ | .delete _ | .shutdown => False
  | _ => True

namespace MemoryStore

variable [Inhabited V] (s : MemoryStore V) (key : String)

theorem delete_of_absent (h : s.values.lookup key = none) : s.delete key = (none, s) := by
  rw [delete, h]

/-- To delete a key that has a value is to publish the deletion. -/
theorem delete_of_present {value : V} (h : s.values.lookup key = some value) :
    let s' := { s with values := s.values.erase key }.publish key (.delete default)
    s.delete key = (some s'.1, s'.2) := by
  rw [delete, h]

omit [Inhabited V] in
/-- Acts that keep the values touch streams at most, but for failures and closings. -/
theorem beside_of_keepsValues {a : StoreAct V} (ha : a.KeepsValues) :
    a.Beside none ∨ (∃ key text, a = .fail key text) ∨ ∃ key, a = .close key := by
  cases a with
  | put key value => exact ha.elim
  | delete key => exact ha.elim
  | shutdown => exact ha.elim
  | fail key text => exact Or.inr (Or.inl ⟨key, text, rfl⟩)
  | close key => exact Or.inr (Or.inr ⟨key, rfl⟩)
  | _ => exact Or.inl (by simp [StoreAct.Beside])

theorem values_of_keepsValues {a : StoreAct V} (ha : a.KeepsValues) :
    (s.act a).1.values = s.values ∧ (s.act a).1.closed = s.closed := by
  rcases beside_of_keepsValues ha with hbeside | ⟨key, text, rfl⟩ | ⟨key, rfl⟩
  · have hcore : (s.act a).1.core = s.core := hbeside.core_eq s
    have hvalues : (s.act a).1.core.values = s.core.values := congrArg MemoryStore.values hcore
    have hclosed : (s.act a).1.core.closed = s.core.closed := congrArg MemoryStore.closed hcore
    exact ⟨hvalues, hclosed⟩
  · exact ⟨rfl, rfl⟩
  · exact ⟨rfl, rfl⟩

theorem get_of_keepsValues {a : StoreAct V} (ha : a.KeepsValues) : (s.act a).1.get key = s.get key := by
  obtain ⟨hvalues, hclosed⟩ := s.values_of_keepsValues ha
  rw [get, hvalues, hclosed, get]

/-- Only a shutdown closes the store. -/
theorem closed_act {a : StoreAct V} (ha : a ≠ .shutdown) : (s.act a).1.closed = s.closed := by
  cases a with
  | put key value => rfl
  | delete key =>
    cases h : s.values.lookup key with
    | none => rw [act, s.delete_of_absent key h]
    | some value =>
      rw [act, s.delete_of_present key h]
      rfl
  | shutdown => exact absurd rfl ha
  | _ => exact (s.values_of_keepsValues (by simp [StoreAct.KeepsValues])).2

/-- An event takes the next index, and nothing else does. -/
theorem revision_act (a : StoreAct V) :
    (s.act a).1.revision = s.revision + if a.publishes s then 1 else 0 := by
  have hquiet : a.Beside none → (s.act a).1.core.revision = s.core.revision := fun h => by rw [h.core_eq]
  cases a with
  | put key value => rfl
  | delete key =>
    cases h : s.values.lookup key with
    | none => simp [act, s.delete_of_absent key h, StoreAct.publishes, h]
    | some value =>
      rw [act, s.delete_of_present key h, StoreAct.publishes, h]
      rfl
  | fail key text => rfl
  | close key => rfl
  | shutdown => rfl
  | _ => exact hquiet (by simp [StoreAct.Beside])

end MemoryStore

namespace Chronicle

variable [Inhabited V] {c : Chronicle V}

/-- How many acts of a history publish an event. -/
def publications (c : Chronicle V) : List (StoreAct V) → Nat
  | [] => 0
  | a :: history => (if a.publishes c.store then 1 else 0) + (c.act a).publications history

theorem revision_acts (c : Chronicle V) (history : List (StoreAct V)) :
    (c.acts history).store.revision = c.store.revision + c.publications history := by
  induction history generalizing c with
  | nil => rfl
  | cons a history ih =>
    have hact : (c.act a).store.revision = c.store.revision + if a.publishes c.store then 1 else 0 :=
      c.store.revision_act a
    exact (ih (c.act a)).trans (by rw [hact, publications, Nat.add_assoc])

theorem closed_acts {history : List (StoreAct V)} (h : .shutdown ∉ history) (c : Chronicle V) :
    (c.acts history).store.closed = c.store.closed := by
  induction history generalizing c with
  | nil => rfl
  | cons a history ih =>
    rw [List.mem_cons, not_or] at h
    exact (ih h.2 (c.act a)).trans (c.store.closed_act (Ne.symm h.1))

/-! ### The agreement -/

/-- The events of a chronicle have the indices that were taken, and the last change of a key tells its value. -/
structure Agrees (c : Chronicle V) : Prop where
  ids_eq : (Log.published c.log).map (·.id) = List.range' 1 c.store.revision
  values_eq : ∀ key, c.store.values.lookup key = (Log.changes key c.log).getLast?.bind (·.kind.stored?)

namespace Agrees

omit [Inhabited V] in
theorem opening (eventBuffer : Nat) : (Chronicle.opening eventBuffer : Chronicle V).Agrees :=
  ⟨rfl, fun _ => rfl⟩

omit [Inhabited V] in
/-- An event is published that tells what becomes of the value of its key. -/
theorem publish {s : MemoryStore V} {log : Log V} (h : Agrees ⟨s, log⟩) (key : String) (kind : EventKind V)
    {values : Dictionary String V} (hvalues : ∀ k, values.lookup k =
      if key = k ∧ kind.isError = false then kind.stored? else s.values.lookup k) :
    let s' := { s with values }.publish key kind
    Agrees ⟨s'.2, .published ⟨s'.1, key, kind⟩ :: log⟩ := by
  intro s'
  refine ⟨?_, fun k => ?_⟩
  · have hids : (Log.published log).map (·.id) = List.range' 1 s.revision := h.ids_eq
    have hid : s'.1 = 1 + s.revision := Nat.add_comm _ 1
    have hrevision : s'.2.revision = s.revision + 1 := rfl
    rw [Log.published, List.map_append, hids, hrevision, List.range'_1_concat, List.map_singleton, hid]
  · rw [Log.changes_published]
    refine (hvalues k).trans ?_
    split
    · rw [List.getLast?_concat, Option.bind_some]
    · exact h.values_eq k

/-- What is not published leaves the agreement as it was, if no value changes. -/
theorem of_keepsValues (h : c.Agrees) {a : StoreAct V} (hvalues : (c.act a).store.values = c.store.values)
    (hrevision : (c.act a).store.revision = c.store.revision)
    (hpublished : Log.published (c.act a).log = Log.published c.log) : (c.act a).Agrees := by
  refine ⟨by rw [hpublished, hrevision, h.ids_eq], fun key => ?_⟩
  rw [hvalues, Log.changes, hpublished, ← Log.changes, h.values_eq]

theorem act (h : c.Agrees) (a : StoreAct V) : (c.act a).Agrees := by
  obtain ⟨s, log⟩ := c
  have hquiet : a.KeepsValues → a.publishes s = false → Log.published ((s.act a).2 ++ log) = Log.published log →
      Chronicle.Agrees (Chronicle.act ⟨s, log⟩ a) := fun hkeeps hsilent hpublished =>
    h.of_keepsValues (s.values_of_keepsValues hkeeps).1 ((s.revision_act a).trans (by simp [hsilent])) hpublished
  cases a with
  | put key value =>
    refine h.publish key (.put value) fun k => ?_
    by_cases hk : key = k
    · simp [hk, EventKind.isError, EventKind.stored?]
    · simp [hk, Ne.symm hk]
  | delete key =>
    cases hvalue : s.values.lookup key with
    | none => simpa only [Chronicle.act, MemoryStore.act, s.delete_of_absent key hvalue, List.nil_append] using h
    | some value =>
      simp only [Chronicle.act, MemoryStore.act, s.delete_of_present key hvalue]
      refine h.publish key (.delete default) fun k => ?_
      by_cases hk : key = k
      · simp [hk, EventKind.isError, EventKind.stored?]
      · simp [hk, Ne.symm hk]
  | fail key text => exact h.publish key (.error text) fun k => by simp [EventKind.isError]
  | shutdown => exact ⟨h.ids_eq, h.values_eq⟩
  | watch key token =>
    refine hquiet trivial rfl ?_
    simp only [MemoryStore.act]
    cases s.watch key token <;> rfl
  | receive id =>
    refine hquiet trivial rfl ?_
    simp only [MemoryStore.act, MemoryStore.taking]
    split <;> rfl
  | _ => exact hquiet trivial rfl rfl

theorem acts (h : c.Agrees) (history : List (StoreAct V)) : (c.acts history).Agrees := by
  induction history generalizing c with
  | nil => exact h
  | cons a history ih => exact ih (h.act a)

omit [Inhabited V] in
theorem lookup_eq_some_iff (h : c.Agrees) (key : String) (value : V) : c.store.values.lookup key = some value ↔
    (Log.changes key c.log).getLast?.map (·.kind) = some (.put value) := by
  rw [h.values_eq, Option.bind_eq_some_iff, Option.map_eq_some_iff]
  refine exists_congr fun e => and_congr_right fun _ => ?_
  cases e.kind <;> simp [EventKind.stored?]

omit [Inhabited V] in
theorem lookup_eq_none_iff (h : c.Agrees) (key : String) : c.store.values.lookup key = none ↔
    Log.changes key c.log = [] ∨ ∃ empty, (Log.changes key c.log).getLast?.map (·.kind) = some (.delete empty) := by
  rw [h.values_eq]
  cases hlast : (Log.changes key c.log).getLast? with
  | none => simp [List.getLast?_eq_none_iff.1 hlast]
  | some e =>
    have hmem : e ∈ Log.changes key c.log := List.mem_of_getLast? hlast
    have herror : e.kind.isError = false := Log.isError_of_mem_changes hmem
    have hne : Log.changes key c.log ≠ [] := List.ne_nil_of_mem hmem
    cases hkind : e.kind <;> simp_all [EventKind.stored?, EventKind.isError]

end Agrees

end Chronicle

/-- In every history the index counts the puts, the failures and the deletions of keys that had a value, and each of
these gets the index behind it, so the events are numbered in their order; a key without a value is not deleted.  A
key has a value exactly if the last put or deletion published on it is a put of that value, and until the store is
shut down it is read so; nothing but puts, deletions and the shutdown changes what is read. -/
theorem store_agrees_with_its_events [Inhabited V] (eventBuffer : Nat) (history : List (StoreAct V)) :
    let opening : Chronicle V := .opening eventBuffer
    let c := opening.acts history
    let s := c.store
    s.revision = opening.publications history ∧
    (Log.published c.log).map (·.id) = List.range' 1 s.revision ∧
    (∀ key value, (s.put key value).1 = s.revision + 1 ∧ (s.put key value).2.revision = s.revision + 1) ∧
    (∀ key text, (s.fail key text).1 = s.revision + 1 ∧ (s.fail key text).2.revision = s.revision + 1) ∧
    (∀ key, s.values.lookup key ≠ none →
      (s.delete key).1 = some (s.revision + 1) ∧ (s.delete key).2.revision = s.revision + 1) ∧
    (∀ key, s.values.lookup key = none → s.delete key = (none, s)) ∧
    (∀ key value, s.values.lookup key = some value ↔
      (Log.changes key c.log).getLast?.map (·.kind) = some (.put value)) ∧
    (∀ key, s.values.lookup key = none ↔
      Log.changes key c.log = [] ∨ ∃ empty, (Log.changes key c.log).getLast?.map (·.kind) = some (.delete empty)) ∧
    (.shutdown ∉ history → ∀ key, s.get key =
      match s.values.lookup key with
      | some value => .ok value
      | none => .error (.missing key)) ∧
    ∀ a : StoreAct V, a.KeepsValues → ∀ key, (s.act a).1.get key = s.get key := by
  intro opening c s
  have hagrees : c.Agrees := (Chronicle.Agrees.opening eventBuffer).acts history
  refine ⟨?_, hagrees.ids_eq, fun _ _ => ⟨rfl, rfl⟩, fun _ _ => ⟨rfl, rfl⟩, fun key hpresent => ?_,
    fun key => s.delete_of_absent key, hagrees.lookup_eq_some_iff, hagrees.lookup_eq_none_iff, fun hopen key => ?_,
    fun a ha key => s.get_of_keepsValues key ha⟩
  · exact (opening.revision_acts history).trans (Nat.zero_add _)
  · obtain ⟨value, hvalue⟩ := Option.ne_none_iff_exists'.1 hpresent
    rw [s.delete_of_present key hvalue]
    exact ⟨rfl, rfl⟩
  · have hclosed : s.closed = false := Chronicle.closed_acts hopen opening
    rw [MemoryStore.get, hclosed, if_neg Bool.false_ne_true]
    cases s.values.lookup key <;> rfl

/-- Two keys, of which one is deleted, failed and deleted in vain. -/
theorem values_agree_behind_failure :
    let history : List (StoreAct Nat) := [.put "a" 1, .put "b" 2, .delete "a", .fail "b" "lost", .delete "a"]
    let c := (Chronicle.opening 1).acts history
    c.store.revision = 4 ∧ c.store.get "b" = .ok 2 ∧ c.store.get "a" = .error (.missing "a") ∧
      c.store.delete "a" = (none, c.store) ∧ (c.store.delete "b").1 = some 5 := by
  intro history c
  obtain ⟨hrevision, -, -, -, hpresent, habsent, hvalue, hnone, hget, -⟩ := store_agrees_with_its_events 1 history
  have hopen : .shutdown ∉ history := by simp [history]
  have ha : c.store.values.lookup "a" = none := (hnone "a").2 (Or.inr ⟨0, rfl⟩)
  have hb : c.store.values.lookup "b" = some 2 := (hvalue "b" 2).2 rfl
  refine ⟨hrevision, ?_, ?_, habsent "a" ha, (hpresent "b" ?_).1⟩
  · rw [hget hopen "b", hb]
  · rw [hget hopen "a", ha]
  · rw [hb]
    simp

end ResourceWatch

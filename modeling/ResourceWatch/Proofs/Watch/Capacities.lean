import ResourceWatch.Proofs.Settings.Validation
import ResourceWatch.Proofs.Store.Delivery
import ResourceWatch.Proofs.Watch.Serving

/-!
# Capacities from settings

Three sizes of the settings become capacities of queues: of a watcher's queue, of the event queues of a store, and of
the reply queue of a served watch.  The check of the settings keeps them from zero, so each queue holds just as many
items as its setting says; it does not keep them from being too large (`channels_of_validate`).
-/

namespace ResourceWatch

variable {Q V R σ : Type}

theorem Queue.make?_max_eq_none_iff {α : Type} {capacity : Nat} :
    (make? (max capacity 1) : Option (Queue α)) = none ↔ maxCapacity < capacity := by
  constructor
  · intro h
    refine Nat.lt_of_not_le fun hle => ?_
    rw [make?_max hle] at h
    simp at h
  · intro h
    have hlarge : ¬ max capacity 1 ≤ maxCapacity := Nat.not_le.2 (Nat.lt_of_lt_of_le h (Nat.le_max_left _ _))
    rw [make?, if_neg fun hbound => hlarge hbound.2]

/-! ### What is made of a size -/

theorem Watcher.isSome_make?_iff {token : Token} {capacity : Nat} :
    (make? token capacity : Option (Watcher R)).isSome = true ↔ capacity ≤ Queue.maxCapacity := by
  rw [make?, Option.isSome_map, ← Option.not_isNone, Bool.not_eq_true', Bool.eq_false_iff, ne_eq,
    Option.isNone_iff_eq_none, Queue.make?_max_eq_none_iff, Nat.not_lt]

theorem Watcher.queue_of_make? {token : Token} {capacity : Nat} {w : Watcher R} (h : make? token capacity = some w) :
    w.queue = { capacity := max capacity 1 } := by
  obtain ⟨queue, hqueue, rfl⟩ := Option.map_eq_some_iff.1 h
  exact (Queue.eq_of_make? hqueue).2

/-- Only the capacity keeps an open store from opening another stream. -/
theorem MemoryStore.watch_eq_tooLarge_iff {s : MemoryStore V} {eventBuffer : Nat}
    (hs : s.capacity = max eventBuffer 1) {key : String} {token : Token} :
    s.watch key token = .error .tooLarge ↔ s.closed = false ∧ Queue.maxCapacity < eventBuffer := by
  rw [← Queue.make?_max_eq_none_iff (α := Event V), ← hs]
  unfold watch
  cases s.closed with
  | true => simp
  | false => cases (Queue.make? s.capacity : Option (Queue (Event V))) <;> simp

theorem World.serve_eq_tooLarge_iff {endpoint : Endpoint Q V R σ} {maker replyBuffer : Nat} {w : World V R σ}
    {request : Q} {ctx : CallContext} :
    w.serve endpoint maker replyBuffer request ctx = .error .tooLarge ↔ Queue.maxCapacity < replyBuffer := by
  rw [← Queue.make?_max_eq_none_iff (α := Item R)]
  unfold World.serve
  cases hq : (Queue.make? (max replyBuffer 1) : Option (Queue (Item R))) with
  | none => simp
  | some replies => cases hopen : w.openSession endpoint maker request ctx replies <;> simp [hopen]

theorem World.replies_of_serve {endpoint : Endpoint Q V R σ} {maker replyBuffer : Nat} {w w' : World V R σ}
    {request : Q} {ctx : CallContext} {i : Nat}
    (h : w.serve endpoint maker replyBuffer request ctx = .ok (.ok (i, w'))) :
    ∃ x, w'.sessions[i]? = some x ∧ x.replies = { capacity := max replyBuffer 1 } := by
  have hbuffer : replyBuffer ≤ Queue.maxCapacity := by
    refine Nat.le_of_not_lt fun hlarge => ?_
    rw [serve_eq_tooLarge_iff.2 hlarge] at h
    simp at h
  cases hkey : endpoint.keyOf request ctx with
  | error status =>
    rw [World.serve_error hkey hbuffer] at h
    simp at h
  | ok key =>
    rw [World.serve_ok hkey hbuffer] at h
    simp only [Except.ok.injEq, Prod.mk.injEq] at h
    obtain ⟨rfl, rfl⟩ := h
    exact ⟨_, List.getElem?_concat_length, rfl⟩

/-! ### What is made of settings -/

private theorem max_one_of_ne_zero {n : Nat} (h : n ≠ 0) : max n 1 = n := by omega

/-- The queues of settings that pass the check: each is made exactly if its size is one that a queue can have, and
then it holds as many items as the settings say. -/
theorem channels_of_validate [Inhabited V] {s s' : Settings} (h : s.validate = .ok s') :
    (∀ token, (Watcher.ofSettings? token s'.client : Option (Watcher R)).isSome = true ↔
      s'.client.watchQueue ≤ Queue.maxCapacity) ∧
    (∀ token (w : Watcher R), Watcher.ofSettings? token s'.client = some w →
      w.queue = { capacity := s'.client.watchQueue }) ∧
    (∀ (history : List (StoreAct V)) key token,
      let store := (Chronicle.acts ⟨.ofSettings s'.watch, []⟩ history).store
      (store.watch key token ≠ .error .tooLarge ↔
        store.closed = true ∨ s'.watch.eventBuffer ≤ Queue.maxCapacity) ∧
      ∀ id t, store.watch key token = .ok (id, t) →
        ∃ st, t.streams[id]? = some st ∧ st.queue = { capacity := s'.watch.eventBuffer }) ∧
    ∀ (endpoint : Endpoint Q V R σ) maker w request ctx,
      (World.serve endpoint maker s'.watch.replyBuffer w request ctx ≠ .error .tooLarge ↔
        s'.watch.replyBuffer ≤ Queue.maxCapacity) ∧
      ∀ i w', World.serve endpoint maker s'.watch.replyBuffer w request ctx = .ok (.ok (i, w')) →
        ∃ x, w'.sessions[i]? = some x ∧ x.replies = { capacity := s'.watch.replyBuffer } := by
  obtain ⟨rfl, -, -, hzero⟩ := Settings.validate_eq_ok_iff.1 h
  have hqueue : max s'.client.watchQueue 1 = s'.client.watchQueue := max_one_of_ne_zero (hzero .watchQueue)
  have hevents : max s'.watch.eventBuffer 1 = s'.watch.eventBuffer := max_one_of_ne_zero (hzero .eventBuffer)
  have hreplies : max s'.watch.replyBuffer 1 = s'.watch.replyBuffer := max_one_of_ne_zero (hzero .replyBuffer)
  -- no act changes the capacity of a store
  have hstore : ∀ history : List (StoreAct V),
      (Chronicle.acts ⟨.ofSettings s'.watch, []⟩ history).store.capacity = max s'.watch.eventBuffer 1 :=
    fun history => ((Chronicle.Sound.opening s'.watch.eventBuffer).acts history).capacity_eq
  refine ⟨fun token => Watcher.isSome_make?_iff, fun token w hw => ?_,
    fun history key token => ⟨?_, fun id t ht => ?_⟩,
    fun endpoint maker w request ctx => ⟨?_, fun i w' hserve => ?_⟩⟩
  · rw [Watcher.queue_of_make? hw, hqueue]
  · rw [ne_eq, MemoryStore.watch_eq_tooLarge_iff (hstore history), Decidable.not_and_iff_or_not, Nat.not_lt,
      Bool.not_eq_false]
  · obtain ⟨rfl, -, -, ⟨queue, hmade, hstreams⟩, -⟩ := MemoryStore.watch_ok ht
    refine ⟨_, by rw [hstreams]; exact List.getElem?_concat_length, ?_⟩
    rw [(Queue.eq_of_make? hmade).2, hstore, hevents]
  · rw [ne_eq, World.serve_eq_tooLarge_iff, Nat.not_lt]
  · obtain ⟨x, hx, hcapacity⟩ := World.replies_of_serve hserve
    exact ⟨x, hx, by rw [hcapacity, hreplies]⟩

/-- Sizes that pass the check and that no queue can have: the check has no upper bound. -/
theorem too_large_settings_pass :
    let s : Settings := {
      client := { watchQueue := 2305843009213693952 }
      watch := { eventBuffer := 2305843009213693952, replyBuffer := 2305843009213693952 } }
    s.validate = .ok s ∧ (Watcher.ofSettings? [] s.client : Option (Watcher String)).isNone = true ∧
      (MemoryStore.ofSettings s.watch : MemoryStore String).watch "/pods/a" [] = .error .tooLarge ∧
      World.serve (⟨fun key _ => .ok key, fun _ _ v => ((), .ok (v, true))⟩ : Endpoint String String String Unit) 0
        s.watch.replyBuffer { store := .memory (.ofSettings s.watch), makers := [()] } "/pods/a" { token := [] } =
          .error .tooLarge :=
  ⟨Settings.validate_of_flaw? (by decide +kernel), by decide +kernel, rfl, rfl⟩

/-- The default settings make all three, of capacities 1, 16 and 1. -/
theorem default_channels :
    let s : Settings := {}
    s.validate = .ok s ∧ (Watcher.ofSettings? [] s.client : Option (Watcher String)).isSome = true ∧
      ∀ (history : List (StoreAct String)) key token id t,
        (Chronicle.acts ⟨.ofSettings s.watch, []⟩ history).store.watch key token = .ok (id, t) →
          ∃ st, t.streams[id]? = some st ∧ st.queue = { capacity := 16 } := by
  intro s
  have hvalid : s.validate = .ok s := Settings.validate_of_flaw? (by decide +kernel)
  obtain ⟨hwatcher, -, hstore, -⟩ := channels_of_validate (Q := String) (R := String) (σ := Unit) (V := String) hvalid
  exact ⟨hvalid, (hwatcher []).2 (by decide), fun history key token => (hstore history key token).2⟩

end ResourceWatch

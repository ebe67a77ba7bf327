import ResourceWatch.Proofs.Store.Beside

/-!
# The registry and the streams

A stream is on the registry, under its key and no other, as long as the store holds its sending end
(`MemoryStore.Orderly`).  So what a change of the store does to a stream can be read off the stream itself and what is
not about streams, the `core` of the store; and the tasks and readers of other streams change neither.
-/

namespace ResourceWatch

variable {V : Type}

namespace MemoryStore

/-- The subscribers of a key are the streams of that key whose sending ends the store holds. -/
def Orderly (s : MemoryStore V) : Prop :=
  ∀ key id, id ∈ s.subscribers key ↔ ∃ st, s.streams[id]? = some st ∧ st.key = key ∧ st.attached = true

variable {s t : MemoryStore V}

theorem Orderly.make (eventBuffer : Nat) : (MemoryStore.make eventBuffer : MemoryStore V).Orderly := by
  intro key id
  simp [MemoryStore.make, subscribers, Registry.get]

/-- Streams are changed one by one, and none is let go of or taken off the registry. -/
theorem Orderly.of_map (h : s.Orderly) (f : Nat → EventStream V → EventStream V)
    (hstreams : ∀ id, t.streams[id]? = s.streams[id]?.map (f id))
    (hsubscribers : ∀ key, t.subscribers key = s.subscribers key)
    (hf : ∀ id st, (f id st).key = st.key ∧ (f id st).attached = st.attached) : t.Orderly := by
  intro key id
  rw [hsubscribers, h key id, hstreams]
  constructor
  · rintro ⟨st, hst, hkey, hattached⟩
    exact ⟨f id st, by rw [hst, Option.map_some], by rw [(hf id st).1, hkey], by rw [(hf id st).2, hattached]⟩
  · rintro ⟨st', hst', hkey, hattached⟩
    obtain ⟨st, hst, rfl⟩ := Option.map_eq_some_iff.1 hst'
    exact ⟨st, hst, (hf id st).1 ▸ hkey, (hf id st).2 ▸ hattached⟩

/-- Streams of one key are changed, and taken off the registry where the store lets go of them. -/
theorem Orderly.of_key (h : s.Orderly) (key : String) (f : Nat → EventStream V → EventStream V)
    (hstreams : ∀ id, t.streams[id]? = s.streams[id]?.map (f id))
    (hsubscribers : ∀ k id, id ∈ t.subscribers k ↔
      id ∈ s.subscribers k ∧ (k = key → ∀ st, s.streams[id]? = some st → (f id st).attached = true))
    (hf : ∀ id st, s.streams[id]? = some st → (f id st).key = st.key ∧
      ((f id st).attached = true → st.attached = true) ∧ (st.key ≠ key → (f id st).attached = st.attached)) :
    t.Orderly := by
  intro k id
  rw [hsubscribers, h k id]
  constructor
  · rintro ⟨⟨st, hst, hkey, hbefore⟩, hstill⟩
    obtain ⟨hkey', -, hsame⟩ := hf id st hst
    refine ⟨f id st, by rw [hstreams, hst, Option.map_some], by rw [hkey', hkey], ?_⟩
    by_cases hk : k = key
    · exact hstill hk st hst
    · rw [hsame (hkey ▸ hk), hbefore]
  · rintro ⟨st', hst', hkey, hafter⟩
    rw [hstreams, Option.map_eq_some_iff] at hst'
    obtain ⟨st, hst, rfl⟩ := hst'
    obtain ⟨hkey', hbefore, -⟩ := hf id st hst
    refine ⟨⟨st, hst, hkey' ▸ hkey, hbefore hafter⟩, fun _ st' hst' => ?_⟩
    obtain rfl := Option.some.inj (hst.symm.trans hst')
    exact hafter

/-- Of the streams that the registry has for the key some are changed. -/
private theorem changed_of_mem (h : s.Orderly) (key : String) {f : EventStream V → EventStream V}
    (hkey : ∀ st, (f st).key = st.key) {id : Nat} {st : EventStream V} (hst : s.streams[id]? = some st) :
    (if id ∈ s.subscribers key then f st else st).key = st.key ∧
      ((if id ∈ s.subscribers key then f st else st).attached = true → st.attached = true) ∧
      (st.key ≠ key → (if id ∈ s.subscribers key then f st else st).attached = st.attached) := by
  split
  · rename_i hid
    obtain ⟨st', hst', hkey', hattached⟩ := (h key id).1 hid
    obtain rfl := Option.some.inj (hst'.symm.trans hst)
    exact ⟨hkey st', fun _ => hattached, fun hne => absurd hkey' hne⟩
  · exact ⟨rfl, fun hattached => hattached, fun _ => rfl⟩

theorem Orderly.publish (h : s.Orderly) (key : String) (kind : EventKind V) : (s.publish key kind).2.Orderly := by
  let e : Event V := ⟨s.revision + 1, key, kind⟩
  refine h.of_key key (fun id st => if id ∈ s.subscribers key then st.offer e else st) (s.getElem?_publish key kind)
    (fun k id => ?_) fun id st hst => changed_of_mem h key (·.key_offer e) hst
  have hsubscribers : (s.publish key kind).2.subscribers k = if k = key then
      (s.subscribers key).filter (s.updateStreams (s.subscribers key) (·.offer e)).isAttached else s.subscribers k :=
    Registry.get_set s.registry key k _
  rw [hsubscribers]
  by_cases hk : k = key
  · subst hk
    rw [if_pos rfl, List.mem_filter]
    refine and_congr_right fun hid => ?_
    obtain ⟨st, hst, -, -⟩ := (h k id).1 hid
    rw [isAttached, getElem?_updateStreams, hst]
    simp
  · rw [if_neg hk]
    exact ⟨fun hid => ⟨hid, fun hk' => absurd hk' hk⟩, fun hid => hid.1⟩

theorem Orderly.close (h : s.Orderly) (key : String) : (s.close key).Orderly := by
  refine h.of_key key (fun id st => if id ∈ s.subscribers key then st.detach else st)
    (s.getElem?_updateStreams (s.subscribers key) (·.detach)) (fun k id => ?_) fun id st hst =>
      changed_of_mem h key (f := EventStream.detach) (fun _ => rfl) hst
  have hsubscribers : (s.close key).subscribers k = if k = key then [] else s.subscribers k :=
    Registry.get_set s.registry key k []
  rw [hsubscribers]
  by_cases hk : k = key
  · subst hk
    rw [if_pos rfl]
    refine ⟨fun hid => absurd hid List.not_mem_nil, fun ⟨hid, hstill⟩ => ?_⟩
    obtain ⟨st, hst, -, -⟩ := (h k id).1 hid
    have hattached := hstill rfl st hst
    rw [if_pos hid] at hattached
    simp [EventStream.detach] at hattached
  · rw [if_neg hk]
    exact ⟨fun hid => ⟨hid, fun hk' => absurd hk' hk⟩, fun hid => hid.1⟩

theorem mem_registry_of_mem_subscribers {key : String} {id : Nat} (h : id ∈ s.subscribers key) :
    id ∈ s.registry.flatMap (·.2) := by
  unfold subscribers Registry.get at h
  generalize s.registry = registry at h
  induction registry with
  | nil => simp at h
  | cons e registry ih =>
    rw [List.flatMap_cons, List.mem_append]
    rw [List.lookup_cons] at h
    split at h
    · exact Or.inl h
    · exact Or.inr (ih h)

theorem Orderly.shutdown (h : s.Orderly) : s.shutdown.Orderly := by
  intro key id
  have hsubscribers : s.shutdown.subscribers key = [] := rfl
  have hstreams : s.shutdown.streams[id]? = s.streams[id]?.map fun st =>
      if id ∈ s.registry.flatMap (·.2) then st.detach else st := s.getElem?_updateStreams _ _ id
  rw [hsubscribers, hstreams]
  refine ⟨fun hid => absurd hid List.not_mem_nil, ?_⟩
  rintro ⟨st', hst', -, hattached⟩
  obtain ⟨st, hst, rfl⟩ := Option.map_eq_some_iff.1 hst'
  split at hattached
  · simp [EventStream.detach] at hattached
  · rename_i hid
    exact absurd (mem_registry_of_mem_subscribers ((h st.key id).2 ⟨st, hst, rfl, hattached⟩)) hid

theorem Orderly.watch (h : s.Orderly) {key : String} {token : Token} {new : Nat}
    (hw : s.watch key token = .ok (new, t)) : t.Orderly := by
  obtain ⟨rfl, -, -, ⟨queue, -, hstreams⟩, hsubscribers⟩ := watch_ok hw
  intro k id
  let opened : EventStream V := { key := key, token := token, queue := queue }
  have hstreams : t.streams = s.streams ++ [opened] := hstreams
  rw [hsubscribers, hstreams]
  have hold : id ∈ s.subscribers k ↔ id < s.streams.length ∧
      ∃ st, (s.streams ++ [opened])[id]? = some st ∧ st.key = k ∧ st.attached = true := by
    rw [h k id]
    constructor
    · rintro ⟨st, hst, hrest⟩
      have hlt := (List.getElem?_eq_some_iff.1 hst).1
      exact ⟨hlt, st, by rw [List.getElem?_append_left hlt, hst], hrest⟩
    · rintro ⟨hlt, st, hst, hrest⟩
      rw [List.getElem?_append_left hlt] at hst
      exact ⟨st, hst, hrest⟩
  have hnew : (s.streams ++ [opened])[s.streams.length]? = some opened := by simp
  by_cases hk : k = key
  · subst hk
    rw [if_pos rfl, List.mem_append, List.mem_singleton, hold]
    constructor
    · rintro (⟨-, hst⟩ | rfl)
      · exact hst
      · exact ⟨_, hnew, rfl, rfl⟩
    · rintro ⟨st, hst, hrest⟩
      rcases Nat.lt_or_ge id s.streams.length with hlt | hge
      · exact Or.inl ⟨hlt, st, hst, hrest⟩
      · have := (List.getElem?_eq_some_iff.1 hst).1
        rw [List.length_append, List.length_singleton] at this
        exact Or.inr (Nat.le_antisymm (Nat.le_of_lt_succ this) hge)
  · rw [if_neg hk, hold]
    refine ⟨fun hst => hst.2, fun ⟨st, hst, hkey, hattached⟩ =>
      ⟨Nat.lt_of_not_le fun hge => ?_, st, hst, hkey, hattached⟩⟩
    have := (List.getElem?_eq_some_iff.1 hst).1
    rw [List.length_append, List.length_singleton] at this
    obtain rfl := Nat.le_antisymm (Nat.le_of_lt_succ this) hge
    rw [hnew, Option.some.injEq] at hst
    rw [← hst] at hkey
    exact hk hkey.symm

/-- The guard task goes on once the token is cancelled: the stream is detached and taken off the registry. -/
theorem release?_eq_some {tokens : Tokens} {id : Nat} (hr : s.release? tokens id = some t) :
    ∃ st, s.streams[id]? = some st ∧ st.guarding = true ∧ tokens.isCancelled st.token = true ∧
      t = { s.updateStreams [id] fun st => { st.detach with guarding := false } with
        registry := s.registry.set st.key ((s.subscribers st.key).filter (· != id)) } := by
  unfold release? at hr
  cases hst : s.streams[id]? with
  | none => simp [hst] at hr
  | some st =>
    rw [hst, Option.bind_eq_bind, Option.bind_some] at hr
    split at hr
    · rename_i hguarding
      rw [Bool.and_eq_true] at hguarding
      rw [Option.pure_def, Option.some.injEq] at hr
      exact ⟨st, rfl, hguarding.1, hguarding.2, hr.symm⟩
    · simp at hr

theorem Orderly.release (h : s.Orderly) {tokens : Tokens} {id : Nat} (hr : s.release? tokens id = some t) :
    t.Orderly := by
  obtain ⟨st, hst, -, -, rfl⟩ := release?_eq_some hr
  refine h.of_key st.key (fun i st => if i ∈ [id] then { st.detach with guarding := false } else st)
    (s.getElem?_updateStreams [id] _) (fun k i => ?_) fun i st' hst' => ?_
  · simp only [subscribers, Registry.get_set]
    by_cases hk : k = st.key
    · subst hk
      rw [if_pos rfl, List.mem_filter]
      refine and_congr_right fun hi => ?_
      by_cases hid : i = id
      · subst hid
        simp [hst, EventStream.detach]
      · obtain ⟨st', hst', -, hattached⟩ := (h st.key i).1 hi
        simp [hid, hst', hattached]
    · rw [if_neg hk]
      exact ⟨fun hi => ⟨hi, fun hk' => absurd hk' hk⟩, fun hi => hi.1⟩
  · split
    · rename_i hid
      rw [List.mem_singleton] at hid
      subst hid
      obtain rfl := Option.some.inj (hst.symm.trans hst')
      exact ⟨rfl, fun hattached => by simp [EventStream.detach] at hattached, fun hne => absurd rfl hne⟩
    · exact ⟨rfl, fun hattached => hattached, fun _ => rfl⟩

theorem Orderly.act [Inhabited V] (h : s.Orderly) (a : StoreAct V) : (s.act a).1.Orderly := by
  have hvalues : ∀ values, ({ s with values } : MemoryStore V).Orderly := fun _ => h
  cases a with
  | put key value => exact (hvalues _).publish key _
  | delete key =>
    simp only [MemoryStore.act, delete]
    cases s.values.lookup key with
    | none => exact h
    | some v => exact (hvalues _).publish key _
  | fail key text => exact h.publish key _
  | close key => exact h.close key
  | shutdown => exact h.shutdown
  | watch key token =>
    simp only [MemoryStore.act]
    cases hw : s.watch key token with
    | error e => exact h
    | ok granted => exact h.watch hw
  | release tokens id =>
    simp only [MemoryStore.act]
    cases hr : s.release? tokens id with
    | none => exact h
    | some t => exact h.release hr
  | flush id =>
    refine h.of_map (fun i st => if id = i then st.flush?.getD st else st) (s.getElem?_flush? id)
      (s.subscribers_flush? id) fun i st => ?_
    split
    · exact ⟨st.key_flush?, st.attached_flush?⟩
    · exact ⟨rfl, rfl⟩
  | receive id =>
    refine h.of_map (fun i st => if id = i then st.receive.2 else st) (s.getElem?_receive id)
      (s.subscribers_receive id) fun i st => ?_
    split <;> exact ⟨rfl, rfl⟩
  | dropReceiver id =>
    refine h.of_map (fun i st => if id = i then st.drop else st) (s.getElem?_dropReceiver id) (fun _ => rfl)
      fun i st => ?_
    split <;> exact ⟨rfl, rfl⟩

end MemoryStore

theorem Chronicle.orderly_acts [Inhabited V] {c : Chronicle V} (h : c.store.Orderly) (as : List (StoreAct V)) :
    (c.acts as).store.Orderly := by
  induction as generalizing c with
  | nil => exact h
  | cons a as ih => exact ih (c := c.act a) (h.act a)

end ResourceWatch

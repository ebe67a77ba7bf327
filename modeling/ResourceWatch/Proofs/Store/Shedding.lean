import ResourceWatch.Proofs.Store.Beside

/-!
# Shedding subscribers

Only a subscription registers a stream.  Every other act leaves the registry as it is or takes streams off it, and
those that stay keep their keys and tokens, and their guard tasks (`MemoryStore.sheds_act`).
-/

namespace ResourceWatch

variable {V : Type}

/-- The second store has subscribers of the first, with their streams as they were opened, and no others. -/
structure MemoryStore.Sheds (s s' : MemoryStore V) : Prop where
  subset : ∀ key, s'.subscribers key ⊆ s.subscribers key
  streams : ∀ key, ∀ id ∈ s'.subscribers key, ∀ st, s.streams[id]? = some st → st.key = key →
    ∃ st', s'.streams[id]? = some st' ∧ st'.key = key ∧ st'.token = st.token ∧ st'.guarding = st.guarding

namespace EventStream

theorem guarding_offer (st : EventStream V) (e : Event V) : (st.offer e).guarding = st.guarding := by
  unfold offer detach
  split
  · rfl
  · split
    · rfl
    · split <;> rfl

theorem guarding_flush? (st : EventStream V) : (st.flush?.getD st).guarding = st.guarding := by
  unfold flush?
  split
  · rfl
  · split
    · rfl
    · split
      · rfl
      · split <;> rfl

end EventStream

namespace MemoryStore

variable {s s' s'' : MemoryStore V}

namespace Sheds

theorem refl (s : MemoryStore V) : s.Sheds s :=
  ⟨fun _ _ hid => hid, fun _ _ _ st hst hkey => ⟨st, hst, hkey, rfl, rfl⟩⟩

theorem trans (h : s.Sheds s') (h' : s'.Sheds s'') : s.Sheds s'' where
  subset := fun key _ hid => h.subset key (h'.subset key hid)
  streams := by
    intro key id hid st hst hkey
    obtain ⟨st', hst', hkey', htoken', hguarding'⟩ := h.streams key id (h'.subset key hid) st hst hkey
    obtain ⟨st'', hst'', hkey'', htoken'', hguarding''⟩ := h'.streams key id hid st' hst' hkey'
    exact ⟨st'', hst'', hkey'', htoken''.trans htoken', hguarding''.trans hguarding'⟩

/-- Changing streams one by one, those that stay on the registry in their queues and sending ends at most. -/
theorem of_map (f : Nat → EventStream V → EventStream V)
    (hstreams : ∀ id, s'.streams[id]? = (s.streams[id]?).map (f id))
    (hsubset : ∀ key, s'.subscribers key ⊆ s.subscribers key)
    (hf : ∀ id st, s.streams[id]? = some st → id ∈ s'.subscribers st.key →
      (f id st).key = st.key ∧ (f id st).token = st.token ∧ (f id st).guarding = st.guarding) : s.Sheds s' := by
  refine ⟨hsubset, fun key id hid st hst hkey => ?_⟩
  obtain ⟨hk, ht, hg⟩ := hf id st hst (hkey ▸ hid)
  exact ⟨f id st, by rw [hstreams, hst, Option.map_some], hk.trans hkey, ht, hg⟩

end Sheds

/-- What a store sheds does not depend on its values. -/
theorem sheds_of_values {values : Dictionary String V} (h : { s with values }.Sheds s') : s.Sheds s' :=
  ⟨h.subset, h.streams⟩

theorem sheds_publish (s : MemoryStore V) (key : String) (kind : EventKind V) : s.Sheds (s.publish key kind).2 := by
  refine .of_map _ (s.getElem?_publish key kind) (fun k => s.subscribers_publish key k kind) fun id st _ _ => ?_
  split
  · exact ⟨st.key_offer _, st.token_offer _, st.guarding_offer _⟩
  · exact ⟨rfl, rfl, rfl⟩

theorem sheds_close (s : MemoryStore V) (key : String) : s.Sheds (s.close key) := by
  refine .of_map _ (s.getElem?_updateStreams (s.subscribers key) (·.detach)) (fun k id hid => ?_) fun id st _ _ => ?_
  · simp only [close, subscribers, Registry.get_set] at hid
    split at hid
    · simp at hid
    · exact hid
  · split <;> exact ⟨rfl, rfl, rfl⟩

theorem sheds_shutdown (s : MemoryStore V) : s.Sheds s.shutdown := by
  have hstreams := s.getElem?_updateStreams (s.registry.flatMap (·.2)) (·.detach)
  refine .of_map _ hstreams (fun k id hid => ?_) fun id st _ _ => ?_
  · simp [shutdown, subscribers, Registry.get] at hid
  · split <;> exact ⟨rfl, rfl, rfl⟩

theorem sheds_receive (s : MemoryStore V) (id : Nat) : s.Sheds (s.receive id).2 := by
  refine .of_map _ (s.getElem?_receive id) (fun k => ?_) fun i st _ _ => ?_
  · rw [s.subscribers_receive]
    exact fun _ h => h
  · split <;> exact ⟨rfl, rfl, rfl⟩

theorem sheds_dropReceiver (s : MemoryStore V) (id : Nat) : s.Sheds (s.dropReceiver id) := by
  refine .of_map _ (s.getElem?_dropReceiver id) (fun _ _ h => h) fun i st _ _ => ?_
  split <;> exact ⟨rfl, rfl, rfl⟩

theorem sheds_flush? (s : MemoryStore V) (id : Nat) : s.Sheds ((s.flush? id).getD s) := by
  refine .of_map _ (s.getElem?_flush? id) (fun k => ?_) fun i st _ _ => ?_
  · rw [s.subscribers_flush?]
    exact fun _ h => h
  · split
    · exact ⟨st.key_flush?, st.token_flush?, st.guarding_flush?⟩
    · exact ⟨rfl, rfl, rfl⟩

/-- The stream whose guard task ends is off the registry. -/
theorem sheds_release? (s : MemoryStore V) (tokens : Tokens) (id : Nat) :
    s.Sheds ((s.release? tokens id).getD s) := by
  unfold release?
  cases hid : s.streams[id]? with
  | none => exact .refl s
  | some st =>
    by_cases hc : (st.guarding && tokens.isCancelled st.token) = true
    · simp only [Option.bind_eq_bind, Option.bind_some, if_pos hc, Option.pure_def, Option.getD_some]
      have hsubscribers : ∀ k, MemoryStore.subscribers
          { s.updateStreams [id] fun st => { st.detach with guarding := false } with
            registry := s.registry.set st.key ((s.subscribers st.key).filter (· != id)) } k =
          if k = st.key then (s.subscribers st.key).filter (· != id) else s.subscribers k :=
        fun k => Registry.get_set s.registry st.key k _
      refine .of_map _ (s.getElem?_updateStreams [id] fun st => { st.detach with guarding := false })
        (fun k i hi => ?_) fun i st' hst' hi => ?_
      · rw [hsubscribers] at hi
        split at hi
        · rename_i hk
          rw [hk]
          exact (List.mem_filter.1 hi).1
        · exact hi
      · have hne : i ≠ id := by
          rintro rfl
          obtain rfl : st' = st := Option.some.inj (hst'.symm.trans hid)
          rw [hsubscribers, if_pos rfl] at hi
          simp at hi
        rw [if_neg (by simpa using hne)]
        exact ⟨rfl, rfl, rfl⟩
    · simp only [Option.bind_eq_bind, Option.bind_some, if_neg hc]
      exact .refl s

/-- Who is on the registry behind a subscription: the stream that was opened, and those that were on it before. -/
theorem mem_subscribers_watch {key : String} {token : Token} {new : Nat} (hw : s.watch key token = .ok (new, s'))
    {k : String} {id : Nat} (hid : id ∈ s'.subscribers k) :
    (id = new ∧ k = key ∧ ∃ queue, s'.streams[id]? = some { key, token, queue }) ∨
      (id ∈ s.subscribers k ∧ ∀ st, s.streams[id]? = some st → s'.streams[id]? = some st) := by
  obtain ⟨rfl, -, -, ⟨queue, -, hstreams⟩, hsubscribers⟩ := watch_ok hw
  have hold : ∀ st, s.streams[id]? = some st → s'.streams[id]? = some st := by
    intro st hst
    rw [hstreams, List.getElem?_append_left (List.getElem?_eq_some_iff.1 hst).1, hst]
  rw [hsubscribers] at hid
  by_cases hk : k = key
  · subst hk
    rw [if_pos rfl, List.mem_append, List.mem_singleton] at hid
    rcases hid with hid | rfl
    · exact Or.inr ⟨hid, hold⟩
    · exact Or.inl ⟨rfl, rfl, queue, by rw [hstreams]; simp⟩
  · rw [if_neg hk] at hid
    exact Or.inr ⟨hid, hold⟩

/-- Every act but a subscription sheds subscribers at most. -/
theorem sheds_act [Inhabited V] (s : MemoryStore V) {a : StoreAct V} (ha : ∀ key token, a ≠ .watch key token) :
    s.Sheds (s.act a).1 := by
  cases a with
  | put key value => exact sheds_of_values (sheds_publish { s with values := s.values.put key value } key _)
  | delete key =>
    simp only [act, delete]
    cases s.values.lookup key with
    | none => exact .refl s
    | some v => exact sheds_of_values (sheds_publish { s with values := s.values.erase key } key _)
  | fail key text => exact s.sheds_publish key _
  | close key => exact s.sheds_close key
  | shutdown => exact s.sheds_shutdown
  | watch key token => exact absurd rfl (ha key token)
  | release tokens id => exact s.sheds_release? tokens id
  | flush id => exact s.sheds_flush? id
  | receive id => exact s.sheds_receive id
  | dropReceiver id => exact s.sheds_dropReceiver id

end MemoryStore

end ResourceWatch

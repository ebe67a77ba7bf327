import ResourceWatch.Proofs.Store.History
import ResourceWatch.Proofs.Store.Tracking

/-!
# Delivery to a lagging reader

A reader of an event stream may skip events but always ends on the latest one, and never misses the first failure.
The invariant behind it, `Chronicle.Sound`, is kept by every act: a stream that is still registered and read tracks
what is published on its key.  At rest an event is parked only behind a full queue, and a reader that drains its
stream gets everything that was ahead.
-/

namespace ResourceWatch

variable {V : Type} {capacity : Nat}

/-! ### Soundness -/

/-- Every stream is sound, the registered ones have the key they are registered for, and those of them that are read
track what is published on their key. -/
structure Chronicle.Sound (capacity : Nat) (c : Chronicle V) : Prop where
  capacity_eq : c.store.capacity = capacity
  streams : ∀ (id : Nat) (st : EventStream V), c.store.streams[id]? = some st → st.Sound capacity
  registered : ∀ key, ∀ id ∈ c.store.subscribers key, ∃ st, c.store.streams[id]? = some st ∧ st.key = key
  tracks : ∀ (id : Nat) (st : EventStream V), c.store.streams[id]? = some st → id ∈ c.store.subscribers st.key →
    st.queue.receiving = true → Tracks (Log.told id st.key c.log) (c.delivered id st)

/-! ### What the acts do to the streams -/

namespace MemoryStore

theorem getElem?_updateStreams (s : MemoryStore V) (ids : List Nat) (f : EventStream V → EventStream V) (id : Nat) :
    (s.updateStreams ids f).streams[id]? = (s.streams[id]?).map fun st => if id ∈ ids then f st else st := by
  unfold updateStreams
  rw [List.getElem?_mapIdx]

@[simp] theorem publish_fst (s : MemoryStore V) (key : String) (kind : EventKind V) :
    (s.publish key kind).1 = s.revision + 1 := rfl

theorem getElem?_publish (s : MemoryStore V) (key : String) (kind : EventKind V) (id : Nat) :
    (s.publish key kind).2.streams[id]? =
      (s.streams[id]?).map fun st => if id ∈ s.subscribers key then st.offer ⟨s.revision + 1, key, kind⟩ else st :=
  getElem?_updateStreams s _ _ id

theorem subscribers_publish (s : MemoryStore V) (key k : String) (kind : EventKind V) :
    (s.publish key kind).2.subscribers k ⊆ s.subscribers k := by
  intro id h
  unfold publish subscribers at *
  simp only [Registry.get_set] at h
  split at h
  · rename_i hk
    subst hk
    exact (List.mem_filter.1 h).1
  · exact h

theorem watch_ok {s t : MemoryStore V} {key : String} {token : Token} {id : Nat}
    (h : s.watch key token = .ok (id, t)) : id = s.streams.length ∧ t.capacity = s.capacity ∧ t.values = s.values ∧
      (∃ queue, Queue.make? s.capacity = some queue ∧
        t.streams = s.streams ++ [{ key := key, token := token, queue := queue }]) ∧
      ∀ k, t.subscribers k = if k = key then s.subscribers key ++ [id] else s.subscribers k := by
  unfold watch at h
  split at h
  · simp at h
  · split at h
    · simp at h
    · rename_i queue hq
      simp only [Except.ok.injEq, Prod.mk.injEq] at h
      obtain ⟨rfl, rfl⟩ := h
      refine ⟨rfl, rfl, rfl, ⟨queue, hq, rfl⟩, fun k => ?_⟩
      exact Registry.get_set s.registry key k _

theorem getElem?_receive (s : MemoryStore V) (id i : Nat) :
    (s.receive id).2.streams[i]? = (s.streams[i]?).map fun st => if id = i then st.receive.2 else st := by
  unfold receive
  split
  · rename_i hnone
    by_cases hi : id = i
    · rw [← hi, hnone]
      rfl
    · simp [hi]
  · exact List.getElem?_modify _ _ _ _

theorem getElem?_dropReceiver (s : MemoryStore V) (id i : Nat) :
    (s.dropReceiver id).streams[i]? = (s.streams[i]?).map fun st => if id = i then st.drop else st :=
  List.getElem?_modify _ _ _ _

theorem getElem?_flush? (s : MemoryStore V) (id i : Nat) :
    ((s.flush? id).getD s).streams[i]? =
      (s.streams[i]?).map fun st => if id = i then st.flush?.getD st else st := by
  unfold flush?
  cases hid : s.streams[id]? with
  | none =>
    by_cases hi : id = i
    · rw [← hi]
      simp [hid]
    · simp [hi]
  | some st =>
    by_cases hi : id = i
    · subst hi
      cases hf : st.flush? <;> simp [hid, hf]
    · cases hf : st.flush? <;> simp [hi, hf]

theorem capacity_flush? (s : MemoryStore V) (id : Nat) : ((s.flush? id).getD s).capacity = s.capacity := by
  unfold flush?
  cases s.streams[id]? with
  | none => rfl
  | some st => cases hf : st.flush? <;> simp [hf]

theorem subscribers_flush? (s : MemoryStore V) (id : Nat) (key : String) :
    ((s.flush? id).getD s).subscribers key = s.subscribers key := by
  unfold flush?
  cases s.streams[id]? with
  | none => rfl
  | some st => cases hf : st.flush? <;> simp [hf, subscribers]

theorem told_taking (s : MemoryStore V) (stream : Nat) (log : Log V) (id : Nat) (key : String) :
    Log.told id key (s.taking stream ++ log) = Log.told id key log := by
  unfold taking
  split <;> rfl

/-- A receive moves an event from what is ahead to what is taken. -/
theorem taken_taking (s : MemoryStore V) (stream : Nat) (log : Log V) {id : Nat} {st : EventStream V}
    (hst : s.streams[id]? = some st) :
    Log.taken id (s.taking stream ++ log) ++ (if stream = id then st.receive.2 else st).ahead =
      Log.taken id log ++ st.ahead := by
  by_cases hid : stream = id
  · subst hid
    have hr : (s.receive stream).1 = st.receive.1 := by simp [receive, hst]
    unfold taking
    rw [hr, if_pos rfl]
    split
    · rename_i e he
      simp [Log.taken, EventStream.receive_item he]
    · rename_i hne
      rw [(EventStream.receive_none hne).2]
      rfl
  · rw [if_neg hid]
    unfold taking
    split <;> simp [Log.taken, hid]

theorem subscribers_receive (s : MemoryStore V) (id : Nat) (key : String) :
    (s.receive id).2.subscribers key = s.subscribers key := by
  unfold receive
  split <;> rfl

theorem capacity_receive (s : MemoryStore V) (id : Nat) : (s.receive id).2.capacity = s.capacity := by
  unfold receive
  split <;> rfl

/-- The guard task takes its stream off the registry, or leaves everything as it is. -/
theorem release?_cases (s : MemoryStore V) (tokens : Tokens) (id : Nat) :
    (s.release? tokens id).getD s = s ∨
      ∃ key, (s.release? tokens id).getD s =
        { s.updateStreams [id] fun st => { st.detach with guarding := false } with
          registry := s.registry.set key ((s.subscribers key).filter (· != id)) } := by
  unfold release?
  cases s.streams[id]? with
  | none => exact Or.inl rfl
  | some st =>
    by_cases hc : (st.guarding && tokens.isCancelled st.token) = true
    · refine Or.inr ⟨st.key, ?_⟩
      simp only [Option.bind_eq_bind, Option.bind_some, if_pos hc]
      rfl
    · refine Or.inl ?_
      simp only [Option.bind_eq_bind, Option.bind_some, if_neg hc]
      rfl

end MemoryStore

/-! ### The acts keep soundness -/

namespace Chronicle.Sound

theorem opening (eventBuffer : Nat) : (Chronicle.opening eventBuffer : Chronicle V).Sound (max eventBuffer 1) :=
  ⟨rfl, fun _ _ h => by simp [Chronicle.opening, MemoryStore.make] at h,
    fun _ _ h => by simp [Chronicle.opening, MemoryStore.make, MemoryStore.subscribers, Registry.get] at h,
    fun _ _ h => by simp [Chronicle.opening, MemoryStore.make] at h⟩

theorem publish {s : MemoryStore V} {log : Log V} (h : Chronicle.Sound capacity ⟨s, log⟩) (key : String)
    (kind : EventKind V) :
    Chronicle.Sound capacity ⟨(s.publish key kind).2, .published ⟨(s.publish key kind).1, key, kind⟩ :: log⟩ := by
  refine ⟨h.capacity_eq, fun id st' hst' => ?_, fun k id hid => ?_, fun id st' hst' hid hr => ?_⟩
  · rw [MemoryStore.getElem?_publish, Option.map_eq_some_iff] at hst'
    obtain ⟨st, hst, rfl⟩ := hst'
    split
    · exact (h.streams id st hst).offer _
    · exact h.streams id st hst
  · obtain ⟨st, hst, hkey⟩ := h.registered k id (MemoryStore.subscribers_publish s key k kind hid)
    rw [MemoryStore.getElem?_publish, hst]
    refine ⟨_, rfl, ?_⟩
    split
    · rw [EventStream.key_offer, hkey]
    · exact hkey
  · rw [MemoryStore.getElem?_publish, Option.map_eq_some_iff] at hst'
    obtain ⟨st, hst, rfl⟩ := hst'
    have hold := MemoryStore.subscribers_publish s key _ kind hid
    -- a stream that is registered for the key is offered the event, any other is not told of it
    by_cases hmem : id ∈ s.subscribers key
    · simp only [if_pos hmem] at hid hr hold ⊢
      rw [EventStream.key_offer] at hold ⊢
      rw [EventStream.receiving_offer] at hr
      obtain ⟨st₀, hst₀, hkey⟩ := h.registered key id hmem
      obtain rfl : st = st₀ := Option.some.inj (hst.symm.trans hst₀)
      have := (h.tracks id st hst hold hr).offer hr ⟨s.revision + 1, key, kind⟩
      simpa [Log.told, Log.taken, hkey, Chronicle.delivered] using this
    · simp only [if_neg hmem] at hid hr hold ⊢
      have hkey : key ≠ st.key := fun hk => hmem (hk ▸ hold)
      have := h.tracks id st hst hold hr
      simpa [Log.told, Log.taken, hkey, Chronicle.delivered] using this

theorem watch {s t : MemoryStore V} {log : Log V} (h : Chronicle.Sound capacity ⟨s, log⟩) {key : String}
    {token : Token} {new : Nat} (ht : s.watch key token = .ok (new, t)) :
    Chronicle.Sound capacity ⟨t, .opened new :: log⟩ := by
  obtain ⟨rfl, hcap, -, ⟨queue, hq, hstreams⟩, hsubs⟩ := MemoryStore.watch_ok ht
  obtain ⟨hq', rfl⟩ := Queue.eq_of_make? hq
  have hsplit : ∀ id st, t.streams[id]? = some st →
      s.streams[id]? = some st ∧ id ≠ s.streams.length ∨
        id = s.streams.length ∧ st = { key, token, queue := { capacity := s.capacity } } := by
    intro id st hst
    rw [hstreams, List.getElem?_append] at hst
    split at hst
    · exact Or.inl ⟨hst, by omega⟩
    · rw [List.getElem?_singleton] at hst
      split at hst
      · simp only [Option.some.injEq] at hst
        exact Or.inr ⟨by omega, hst.symm⟩
      · simp at hst
  -- registered streams exist, so the number of the new stream was registered nowhere
  have hkept : ∀ k, ∀ id ∈ s.subscribers k, id ≠ s.streams.length := by
    intro k id hid
    obtain ⟨st, hst, -⟩ := h.registered k id hid
    have := (List.getElem?_eq_some_iff.1 hst).1
    exact Nat.ne_of_lt this
  refine ⟨by rw [← h.capacity_eq]; exact hcap, fun id st hst => ?_, fun k id hid => ?_, fun id st hst hid hr => ?_⟩
  · rcases hsplit id st hst with ⟨hst, -⟩ | ⟨-, rfl⟩
    · exact h.streams id st hst
    · exact ⟨h.capacity_eq, by simp, fun _ => rfl⟩
  · simp only [hsubs] at hid
    by_cases hnew : id = s.streams.length
    · split at hid
      · rename_i hk
        subst hk hnew
        exact ⟨{ key := k, token, queue := { capacity := s.capacity } }, by rw [hstreams]; simp, rfl⟩
      · exact absurd hnew (hkept k id hid)
    · have hid : id ∈ s.subscribers k := by
        split at hid
        · rename_i hk
          subst hk
          rcases List.mem_append.1 hid with hid | hid
          · exact hid
          · exact absurd (List.mem_singleton.1 hid) hnew
        · exact hid
      obtain ⟨st, hst, hkey⟩ := h.registered k id hid
      refine ⟨st, ?_, hkey⟩
      rw [hstreams, List.getElem?_append_left (List.getElem?_eq_some_iff.1 hst).1]
      exact hst
  · rcases hsplit id st hst with ⟨hst, hne⟩ | ⟨rfl, rfl⟩
    · have hid : id ∈ s.subscribers st.key := by
        simp only [hsubs] at hid
        split at hid
        · rename_i hk
          rw [hk]
          rcases List.mem_append.1 hid with hid | hid
          · exact hid
          · exact absurd (List.mem_singleton.1 hid) hne
        · exact hid
      have := h.tracks id st hst hid hr
      simpa [Log.told, Log.taken, Ne.symm hne, Chronicle.delivered] using this
    · simpa [Log.told, Log.taken, Chronicle.delivered, EventStream.ahead] using Tracks.nil

/-- Changing streams one by one, without publishing and without registering any: what a stream that is still read has
delivered, with what is ahead, stays the same. -/
theorem of_map {s t : MemoryStore V} {log log' : Log V} (h : Chronicle.Sound capacity ⟨s, log⟩)
    (f : Nat → EventStream V → EventStream V) (hcap : t.capacity = s.capacity)
    (hstreams : ∀ id, t.streams[id]? = (s.streams[id]?).map (f id))
    (hsubs : ∀ key, t.subscribers key ⊆ s.subscribers key)
    (hkey : ∀ id st, (f id st).key = st.key)
    (hsound : ∀ id st, EventStream.Sound capacity st → EventStream.Sound capacity (f id st))
    (hread : ∀ id st, s.streams[id]? = some st → (f id st).queue.receiving = true →
      st.queue.receiving = true ∧ Log.taken id log' ++ (f id st).ahead = Log.taken id log ++ st.ahead)
    (htold : ∀ id key, Log.told id key log' = Log.told id key log) : Chronicle.Sound capacity ⟨t, log'⟩ := by
  refine ⟨hcap.trans h.capacity_eq, fun id st' hst' => ?_, fun k id hid => ?_, fun id st' hst' hid hr => ?_⟩
  · rw [hstreams, Option.map_eq_some_iff] at hst'
    obtain ⟨st, hst, rfl⟩ := hst'
    exact hsound id st (h.streams id st hst)
  · obtain ⟨st, hst, hk⟩ := h.registered k id (hsubs k hid)
    exact ⟨f id st, by rw [hstreams, hst]; rfl, by rw [hkey, hk]⟩
  · rw [hstreams, Option.map_eq_some_iff] at hst'
    obtain ⟨st, hst, rfl⟩ := hst'
    obtain ⟨hr, heq⟩ := hread id st hst hr
    rw [hkey] at hid ⊢
    have := h.tracks id st hst (hsubs _ hid) hr
    unfold Chronicle.delivered at this ⊢
    rw [htold, heq]
    exact this

/-- Letting go of the sending ends of some streams, and of their places in the registry. -/
theorem detach {s t : MemoryStore V} {log : Log V} (h : Chronicle.Sound capacity ⟨s, log⟩) (ids : List Nat)
    (f : EventStream V → EventStream V) (hcap : t.capacity = s.capacity)
    (hstreams : t.streams = (s.updateStreams ids f).streams) (hsubs : ∀ key, t.subscribers key ⊆ s.subscribers key)
    (hkey : ∀ st, (f st).key = st.key) (hqueue : ∀ st, (f st).queue = st.queue)
    (hparked : ∀ st, (f st).parked = st.parked)
    (hflushing : ∀ st, (f st).flushing = st.flushing) : Chronicle.Sound capacity ⟨t, log⟩ := by
  refine h.of_map (fun i st => if i ∈ ids then f st else st) hcap ?_ hsubs ?_ ?_ ?_ fun _ _ => rfl
  · intro id
    rw [hstreams]
    exact MemoryStore.getElem?_updateStreams s ids f id
  · intro id st
    split
    · exact hkey st
    · rfl
  · intro id st hst
    split
    · exact ⟨by rw [hqueue]; exact hst.capacity_eq, by rw [hqueue]; exact hst.length_le,
        by rw [hqueue, hflushing, hparked]; exact hst.flushing_eq⟩
    · exact hst
  · intro id st _ hr
    split at hr
    · rename_i hid
      rw [hqueue] at hr
      rw [if_pos hid]
      exact ⟨hr, by simp [EventStream.ahead, hqueue, hparked]⟩
    · rename_i hid
      rw [if_neg hid]
      exact ⟨hr, rfl⟩

theorem flush {s : MemoryStore V} {log : Log V} (h : Chronicle.Sound capacity ⟨s, log⟩) (id : Nat) :
    Chronicle.Sound capacity ⟨(s.flush? id).getD s, log⟩ := by
  refine h.of_map (fun i st => if id = i then st.flush?.getD st else st) (s.capacity_flush? id) (s.getElem?_flush? id)
    (fun key => by rw [s.subscribers_flush?]; exact fun _ h => h) ?_ ?_ ?_ fun _ _ => rfl
  all_goals
    intro i st
    split
  · cases hf : st.flush? with
    | none => rfl
    | some t => exact (EventStream.flush?_cases hf).1
  · rfl
  · intro hst
    cases hf : st.flush? with
    | none => exact hst
    | some t => exact (EventStream.flush?_cases hf).2.2.2 _ hst
  · exact fun hst => hst
  · exact fun _ hr => ⟨by rw [← st.receiving_flush?, hr], by rw [st.ahead_flush?]⟩
  · exact fun _ hr => ⟨hr, rfl⟩

/-- Receiving from a stream: the event received goes from what is ahead to what is taken. -/
theorem receive {s : MemoryStore V} {log : Log V} (h : Chronicle.Sound capacity ⟨s, log⟩) (id : Nat) :
    Chronicle.Sound capacity ⟨(s.receive id).2, s.taking id ++ log⟩ := by
  refine h.of_map (fun i st => if id = i then st.receive.2 else st) (s.capacity_receive id) (s.getElem?_receive id)
    (fun key => by rw [s.subscribers_receive]; exact fun _ h => h) ?_ ?_ ?_ (s.told_taking id log)
  · intro i st
    split
    · exact st.key_receive
    · rfl
  · intro i st hst
    split
    · exact hst.receive
    · exact hst
  · intro i st hst hr
    refine ⟨?_, s.taken_taking id log hst⟩
    split at hr
    · rwa [st.receiving_receive] at hr
    · exact hr

theorem dropReceiver {s : MemoryStore V} {log : Log V} (h : Chronicle.Sound capacity ⟨s, log⟩) (id : Nat) :
    Chronicle.Sound capacity ⟨s.dropReceiver id, log⟩ := by
  refine h.of_map (fun i st => if id = i then st.drop else st) rfl (s.getElem?_dropReceiver id)
    (fun _ _ h => h) ?_ ?_ ?_ fun _ _ => rfl
  all_goals
    intro i st
    split
  · rfl
  · rfl
  · exact fun hst => hst.drop
  · exact fun hst => hst
  · exact fun _ hr => by simp [EventStream.drop, Queue.drop] at hr
  · exact fun _ hr => ⟨hr, rfl⟩

/-- Every act keeps soundness. -/
theorem act [Inhabited V] {c : Chronicle V} (h : c.Sound capacity) (a : StoreAct V) : (c.act a).Sound capacity := by
  obtain ⟨s, log⟩ := c
  cases a with
  | put key value =>
    have hs : Chronicle.Sound capacity ⟨{ s with values := s.values.put key value }, log⟩ :=
      ⟨h.capacity_eq, h.streams, h.registered, h.tracks⟩
    exact hs.publish key (.put value)
  | delete key =>
    simp only [Chronicle.act, MemoryStore.act, MemoryStore.delete]
    cases s.values.lookup key with
    | none => exact h
    | some v =>
      have hs : Chronicle.Sound capacity ⟨{ s with values := s.values.erase key }, log⟩ :=
        ⟨h.capacity_eq, h.streams, h.registered, h.tracks⟩
      exact hs.publish key (.delete default)
  | fail key text => exact h.publish key (.error text)
  | close key =>
    refine h.detach (s.subscribers key) EventStream.detach rfl rfl (fun k id hid => ?_) (fun _ => rfl) (fun _ => rfl)
      (fun _ => rfl) fun _ => rfl
    simp only [MemoryStore.act, MemoryStore.close, MemoryStore.subscribers, Registry.get_set] at hid
    split at hid
    · simp at hid
    · exact hid
  | shutdown =>
    refine h.detach (s.registry.flatMap (·.2)) EventStream.detach rfl rfl (fun k id hid => ?_) (fun _ => rfl)
      (fun _ => rfl) (fun _ => rfl) fun _ => rfl
    simp [MemoryStore.act, MemoryStore.shutdown, MemoryStore.subscribers, Registry.get] at hid
  | watch key token =>
    simp only [Chronicle.act, MemoryStore.act]
    cases hw : s.watch key token with
    | error e => exact h
    | ok r => exact h.watch hw
  | release tokens id =>
    simp only [Chronicle.act, MemoryStore.act]
    rcases s.release?_cases tokens id with heq | ⟨key, heq⟩
    · rw [heq]
      exact h
    · rw [heq]
      refine h.detach [id] (fun st => { st.detach with guarding := false }) rfl rfl (fun k i hi => ?_) (fun _ => rfl)
        (fun _ => rfl) (fun _ => rfl) fun _ => rfl
      simp only [MemoryStore.subscribers, Registry.get_set] at hi
      split at hi
      · rename_i hk
        rw [hk]
        exact (List.mem_filter.1 hi).1
      · exact hi
  | flush id => exact h.flush id
  | receive id => exact h.receive id
  | dropReceiver id => exact h.dropReceiver id

theorem acts [Inhabited V] {c : Chronicle V} (h : c.Sound capacity) (history : List (StoreAct V)) :
    (c.acts history).Sound capacity := by
  induction history generalizing c with
  | nil => exact h
  | cons a history ih => exact ih (h.act a)

end Chronicle.Sound

end ResourceWatch

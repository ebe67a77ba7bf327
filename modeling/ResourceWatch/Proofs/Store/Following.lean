import ResourceWatch.Proofs.Store.Delivery

/-!
# Following a key

A stream follows a key while it is registered for it, attached and read, and nothing but changes of the value has been
published on the key since it was opened.  Changes, flushes and receives keep that so.  Once nothing is ahead of the
reader, the last event it took carries the value that the store holds, unless nothing was published at all.
-/

namespace ResourceWatch

variable {V : Type} [Inhabited V] {capacity : Nat}

/-- The value of the key, the empty one if it has none. -/
def MemoryStore.held (s : MemoryStore V) (key : String) : V := (s.values.lookup key).getD default

namespace MemoryStore

theorem held_flush? (s : MemoryStore V) (id : Nat) (key : String) :
    ((s.flush? id).getD s).held key = s.held key := by
  unfold flush?
  cases s.streams[id]? with
  | none => rfl
  | some st => cases hf : st.flush? <;> simp [hf, held]

theorem held_receive (s : MemoryStore V) (id : Nat) (key : String) : (s.receive id).2.held key = s.held key := by
  unfold receive
  split <;> rfl

theorem taken_delete (s : MemoryStore V) (key : String) (log : Log V) (id : Nat) :
    Log.taken id ((s.act (.delete key)).2 ++ log) = Log.taken id log := by
  simp only [act, delete]
  cases s.values.lookup key <;> rfl

end MemoryStore

/-- The stream is told of every change of the key, and has been told of nothing else. -/
structure Chronicle.Follows (key : String) (id : Nat) (c : Chronicle V) : Prop where
  live : ∃ st : EventStream V, c.store.streams[id]? = some st ∧ st.key = key ∧ st.attached = true ∧
    st.queue.receiving = true
  registered : id ∈ c.store.subscribers key
  clean : ∀ e ∈ Log.told id key c.log, e.kind.isError = false
  latest : ∀ e, (Log.told id key c.log).getLast? = some e → e.kind.value? = some (c.store.held key)

/-- Changes of values, and the turns of readers and flush tasks. -/
def StoreAct.IsOrdinary : StoreAct V → Prop
  | .put _ _ | .delete _ | .flush _ | .receive _ => True
  | _ => False

namespace Chronicle.Follows

variable {s : MemoryStore V} {log : Log V} {key : String} {id : Nat}

private theorem publish (h : Chronicle.Follows key id ⟨s, log⟩) (k : String) (kind : EventKind V)
    (hkind : kind.isError = false) {values : Dictionary String V}
    (hsame : k = key → kind.value? = some ((values.lookup key).getD default))
    (hother : k ≠ key → values.lookup key = s.values.lookup key) :
    Chronicle.Follows key id
      ⟨({ s with values }.publish k kind).2, .published ⟨({ s with values }.publish k kind).1, k, kind⟩ :: log⟩ := by
  obtain ⟨st, hst, hkey, hattached, hr⟩ := h.live
  have hst' : ({ s with values }.publish k kind).2.streams[id]? =
      some (if id ∈ s.subscribers k then st.offer ⟨s.revision + 1, k, kind⟩ else st) := by
    rw [MemoryStore.getElem?_publish]
    simp only [hst, Option.map_some]
    rfl
  have hlive : (if id ∈ s.subscribers k then st.offer ⟨s.revision + 1, k, kind⟩ else st).attached = true := by
    split
    · exact EventStream.attached_offer hr hattached _
    · exact hattached
  have htold : Log.told id key (.published ⟨({ s with values }.publish k kind).1, k, kind⟩ :: log) =
      if k = key then Log.told id key log ++ [⟨s.revision + 1, k, kind⟩] else Log.told id key log := rfl
  refine ⟨⟨_, hst', ?_, hlive, ?_⟩, ?_, fun e he => ?_, fun e he => ?_⟩
  · split
    · rw [EventStream.key_offer, hkey]
    · exact hkey
  · split
    · rw [EventStream.receiving_offer, hr]
    · exact hr
  · -- publishing drops detached streams from the registry, and this one is attached
    have hmem := h.registered
    unfold MemoryStore.publish MemoryStore.subscribers at *
    simp only [Registry.get_set]
    split
    · rename_i hk
      subst hk
      refine List.mem_filter.2 ⟨hmem, ?_⟩
      rw [MemoryStore.isAttached, hst']
      exact hlive
    · exact hmem
  · rw [htold] at he
    split at he
    · rcases List.mem_append.1 he with he | he
      · exact h.clean e he
      · rw [List.mem_singleton.1 he]
        exact hkind
    · exact h.clean e he
  · rw [htold] at he
    split at he
    · rename_i hk
      rw [List.getLast?_append, List.getLast?_singleton, Option.some_or, Option.some.injEq] at he
      subst he
      exact hsame hk
    · rename_i hk
      rw [h.latest e he]
      simp only [MemoryStore.held, MemoryStore.publish, MemoryStore.updateStreams, hother hk]

/-- Ordinary acts keep a stream following its key. -/
theorem act {c : Chronicle V} (h : c.Follows key id) {a : StoreAct V} (ha : a.IsOrdinary) :
    (c.act a).Follows key id := by
  obtain ⟨s, log⟩ := c
  cases a with
  | put k value =>
    refine h.publish k (.put value) rfl (fun hk => ?_) fun hk => ?_
    · simp [EventKind.value?, hk]
    · rw [Dictionary.lookup_put, if_neg (by simpa using fun he => hk he.symm)]
  | delete k =>
    simp only [Chronicle.act, MemoryStore.act, MemoryStore.delete]
    cases s.values.lookup k with
    | none => exact h
    | some v =>
      refine h.publish k (.delete default) rfl (fun hk => ?_) fun hk => ?_
      · simp [EventKind.value?, hk]
      · rw [Dictionary.lookup_erase, if_neg (by simpa using fun he => hk he.symm)]
  | flush i =>
    obtain ⟨st, hst, hkey, hattached, hr⟩ := h.live
    refine ⟨⟨if i = id then st.flush?.getD st else st, ?_, ?_, ?_, ?_⟩, ?_, h.clean, ?_⟩
    · exact (s.getElem?_flush? i id).trans (by rw [hst]; rfl)
    · split
      · rw [st.key_flush?, hkey]
      · exact hkey
    · split
      · rw [st.attached_flush?, hattached]
      · exact hattached
    · split
      · rw [st.receiving_flush?, hr]
      · exact hr
    · exact (s.subscribers_flush? i key).symm ▸ h.registered
    · intro e he
      rw [h.latest e he]
      exact congrArg some (s.held_flush? i key).symm
  | receive i =>
    obtain ⟨st, hst, hkey, hattached, hr⟩ := h.live
    have htold := s.told_taking i log id key
    refine ⟨⟨if i = id then st.receive.2 else st, ?_, ?_, ?_, ?_⟩, ?_, fun e he => ?_, fun e he => ?_⟩
    · exact (s.getElem?_receive i id).trans (by rw [hst]; rfl)
    · split
      · exact hkey
      · exact hkey
    · split
      · exact hattached
      · exact hattached
    · split
      · rw [st.receiving_receive, hr]
      · exact hr
    · exact (s.subscribers_receive i key).symm ▸ h.registered
    · exact h.clean e (htold ▸ he)
    · rw [h.latest e (htold ▸ he)]
      exact congrArg some (s.held_receive i key).symm
  | _ => exact False.elim ha

/-- A stream that was just opened follows its key. -/
theorem watch {t : MemoryStore V} {token : Token} (ht : s.watch key token = .ok (id, t)) :
    Chronicle.Follows key id ⟨t, .opened id :: log⟩ := by
  obtain ⟨rfl, -, -, ⟨queue, hq, hstreams⟩, hsubs⟩ := MemoryStore.watch_ok ht
  have htold : Log.told s.streams.length key (.opened s.streams.length :: log) = [] := by simp [Log.told]
  refine ⟨⟨{ key, token, queue }, by simp [hstreams], rfl, rfl, ?_⟩, by simp [hsubs], fun e he => ?_, fun e he => ?_⟩
  · rw [(Queue.eq_of_make? hq).2]
  · rw [htold] at he
    simp at he
  · rw [htold] at he
    simp at he

variable {c : Chronicle V}

theorem tracks (h : c.Follows key id) (hs : c.Sound capacity) {st : EventStream V}
    (hst : c.store.streams[id]? = some st) : Tracks (Log.told id key c.log) (c.delivered id st) := by
  obtain ⟨st', hst', hkey, -, hr⟩ := h.live
  obtain rfl : st = st' := Option.some.inj (hst.symm.trans hst')
  subst hkey
  exact hs.tracks id st hst h.registered hr

/-- What is ahead of the reader are changes. -/
theorem value?_of_mem_ahead (h : c.Follows key id) (hs : c.Sound capacity) {st : EventStream V}
    (hst : c.store.streams[id]? = some st) {e : Event V} (he : e ∈ st.ahead) : ∃ v, e.kind.value? = some v := by
  have hmem : e ∈ Log.told id key c.log := (h.tracks hs hst).sublist.subset (List.mem_append_right _ he)
  exact EventKind.value?_of_isError (h.clean e hmem)

/-- With nothing ahead, the last event taken carries the value that the store holds. -/
theorem getLast?_taken (h : c.Follows key id) (hs : c.Sound capacity) {st : EventStream V}
    (hst : c.store.streams[id]? = some st) (hahead : st.ahead = []) :
    (Log.told id key c.log = [] → Log.taken id c.log = []) ∧
      (Log.told id key c.log ≠ [] →
        (Log.taken id c.log).getLast?.bind (·.kind.value?) = some (c.store.held key)) := by
  have ht := h.tracks hs hst
  rw [Chronicle.delivered, hahead, List.append_nil] at ht
  constructor
  · intro hnil
    have := ht.sublist
    rw [hnil] at this
    exact List.sublist_nil.1 this
  · intro hne
    obtain ⟨e, he, hlast | herror⟩ := ht.last hne
    · rw [he, Option.bind_some]
      exact h.latest e hlast
    · have hmem : e ∈ Log.told id key c.log := ht.sublist.subset (List.mem_of_getLast? he)
      rw [h.clean e hmem] at herror
      simp at herror

end Chronicle.Follows

end ResourceWatch

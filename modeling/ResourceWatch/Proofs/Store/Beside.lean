import ResourceWatch.Proofs.Store.Following

/-!
# Beside a stream

Subscriptions, flush tasks, and the readers and guard tasks of other streams change no value of the store, and neither
what a stream was told nor what was taken from it.  A stream stays where it is and keeps its key and its token
whatever happens.
-/

namespace ResourceWatch

variable {V : Type} [Inhabited V]

/-- Acts that change no value and leave the reader and the guard task of the stream `own` alone. -/
def StoreAct.Beside (own : Option Nat) : StoreAct V → Prop
  | .watch _ _ | .flush _ => True
  | .receive id | .dropReceiver id | .release _ id => own ≠ some id
  | _ => False

/-! ### Streams stay -/

/-- Whether the act lets go of the receiver of the stream. -/
def StoreAct.drops (id : Nat) : StoreAct V → Bool
  | .dropReceiver stream => stream = id
  | _ => false

/-- What acts leave of a stream: its key, its token, and the receiver unless they let go of it.  A queue without a
receiver stays empty. -/
structure EventStream.Continues (dropped : Bool) (st st' : EventStream V) : Prop where
  key_eq : st'.key = st.key
  token_eq : st'.token = st.token
  receiving_eq : st'.queue.receiving = (st.queue.receiving && !dropped)
  empty : (st.queue.receiving = false → st.queue.items = []) → st'.queue.receiving = false → st'.queue.items = []

namespace EventStream

omit [Inhabited V] in
theorem token_offer (st : EventStream V) (e : Event V) : (st.offer e).token = st.token := by
  unfold offer detach
  split
  · rfl
  · split
    · rfl
    · split <;> rfl

omit [Inhabited V] in
theorem token_flush? (st : EventStream V) : (st.flush?.getD st).token = st.token := by
  unfold flush?
  split
  · rfl
  · split
    · rfl
    · split
      · rfl
      · split <;> rfl

namespace Continues

variable {st st' st'' : EventStream V} {dropped dropped' : Bool}

omit [Inhabited V] in
theorem of_queue (hkey : st'.key = st.key) (htoken : st'.token = st.token) (hqueue : st'.queue = st.queue) :
    st.Continues false st' :=
  ⟨hkey, htoken, by rw [hqueue, Bool.not_false, Bool.and_true], fun h => by rw [hqueue]; exact h⟩

omit [Inhabited V] in
theorem refl (st : EventStream V) : st.Continues false st := of_queue rfl rfl rfl

omit [Inhabited V] in
theorem trans (h : st.Continues dropped st') (h' : st'.Continues dropped' st'') :
    st.Continues (dropped || dropped') st'' where
  key_eq := h'.key_eq.trans h.key_eq
  token_eq := h'.token_eq.trans h.token_eq
  receiving_eq := by rw [h'.receiving_eq, h.receiving_eq, Bool.not_or, Bool.and_assoc]
  empty := fun hempty => h'.empty (h.empty hempty)

omit [Inhabited V] in
theorem offer (st : EventStream V) (e : Event V) : st.Continues false (st.offer e) := by
  refine ⟨st.key_offer e, st.token_offer e, ?_, fun hempty hr => ?_⟩
  · rw [st.receiving_offer, Bool.not_false, Bool.and_true]
  · -- an event is queued only where there is a receiver
    rw [st.receiving_offer] at hr
    unfold EventStream.offer detach
    split
    · exact hempty hr
    · rw [if_pos (by simp [hr])]
      exact hempty hr

omit [Inhabited V] in
theorem flush? (st : EventStream V) : st.Continues false (st.flush?.getD st) := by
  refine ⟨st.key_flush?, st.token_flush?, ?_, fun hempty hr => ?_⟩
  · rw [st.receiving_flush?, Bool.not_false, Bool.and_true]
  · rw [st.receiving_flush?] at hr
    unfold EventStream.flush?
    split
    · exact hempty hr
    · rw [if_pos (by simp [hr])]
      exact hempty hr

omit [Inhabited V] in
theorem receive (st : EventStream V) : st.Continues false st.receive.2 := by
  refine ⟨rfl, rfl, ?_, fun hempty hr => ?_⟩
  · rw [st.receiving_receive, Bool.not_false, Bool.and_true]
  · rw [st.receiving_receive] at hr
    unfold EventStream.receive Queue.receive
    rw [hempty hr]
    exact hempty hr

omit [Inhabited V] in
theorem drop (st : EventStream V) : st.Continues true st.drop :=
  ⟨rfl, rfl, by simp [EventStream.drop, Queue.drop], fun _ _ => rfl⟩

end Continues

end EventStream

namespace MemoryStore

variable {s : MemoryStore V} {id : Nat} {st : EventStream V}

omit [Inhabited V] in
private theorem continues_publish (hst : s.streams[id]? = some st) (key : String) (kind : EventKind V) :
    ∃ st', (s.publish key kind).2.streams[id]? = some st' ∧ st.Continues false st' := by
  refine ⟨_, by rw [s.getElem?_publish, hst, Option.map_some], ?_⟩
  split
  · exact .offer st _
  · exact .refl st

omit [Inhabited V] in
private theorem continues_updateStreams (hst : s.streams[id]? = some st) (ids : List Nat)
    {f : EventStream V → EventStream V} (hf : st.Continues false (f st)) :
    ∃ st', (s.updateStreams ids f).streams[id]? = some st' ∧ st.Continues false st' := by
  refine ⟨_, by rw [s.getElem?_updateStreams, hst, Option.map_some], ?_⟩
  split
  · exact hf
  · exact .refl st

theorem continues_act (hst : s.streams[id]? = some st) (a : StoreAct V) :
    ∃ st', (s.act a).1.streams[id]? = some st' ∧ st.Continues (a.drops id) st' := by
  have hdetach : st.Continues false st.detach := .of_queue rfl rfl rfl
  cases a with
  | put key value => exact continues_publish (s := { s with values := s.values.put key value }) hst key _
  | delete key =>
    simp only [act, delete]
    cases s.values.lookup key with
    | none => exact ⟨st, hst, .refl st⟩
    | some v => exact continues_publish (s := { s with values := s.values.erase key }) hst key _
  | fail key text => exact continues_publish hst key _
  | close key => exact continues_updateStreams hst _ hdetach
  | shutdown => exact continues_updateStreams hst _ hdetach
  | watch key token =>
    simp only [act]
    cases hw : s.watch key token with
    | error e => exact ⟨st, hst, .refl st⟩
    | ok granted =>
      obtain ⟨new, t⟩ := granted
      obtain ⟨-, -, -, ⟨queue, -, hstreams⟩, -⟩ := watch_ok hw
      refine ⟨st, ?_, .refl st⟩
      rw [hstreams, List.getElem?_append_left (List.getElem?_eq_some_iff.1 hst).1, hst]
  | release tokens i =>
    simp only [act]
    rcases s.release?_cases tokens i with heq | ⟨key, heq⟩
    · rw [heq]
      exact ⟨st, hst, .refl st⟩
    · rw [heq]
      exact continues_updateStreams hst [i] (.of_queue rfl rfl rfl)
  | flush i =>
    refine ⟨_, by rw [act, s.getElem?_flush?, hst, Option.map_some], ?_⟩
    split
    · exact .flush? st
    · exact .refl st
  | receive i =>
    refine ⟨_, by rw [act, s.getElem?_receive, hst, Option.map_some], ?_⟩
    split
    · exact .receive st
    · exact .refl st
  | dropReceiver i =>
    refine ⟨_, by rw [act, s.getElem?_dropReceiver, hst, Option.map_some], ?_⟩
    rw [StoreAct.drops]
    split
    · rename_i hi
      rw [decide_eq_true hi]
      exact .drop st
    · rename_i hi
      rw [decide_eq_false hi]
      exact .refl st

end MemoryStore

namespace Chronicle

variable {c : Chronicle V} {id : Nat}

theorem continues_acts {st : EventStream V} (hst : c.store.streams[id]? = some st) (as : List (StoreAct V)) :
    ∃ st', (c.acts as).store.streams[id]? = some st' ∧ st.Continues (as.any (·.drops id)) st' := by
  induction as generalizing c st with
  | nil => exact ⟨st, hst, .refl st⟩
  | cons a as ih =>
    obtain ⟨st', hst', h⟩ := MemoryStore.continues_act hst a
    obtain ⟨st'', hst'', h'⟩ := ih (c := c.act a) hst'
    exact ⟨st'', hst'', h.trans h'⟩

theorem map_token_acts {token : Token} (h : c.store.streams[id]?.map (·.token) = some token)
    (as : List (StoreAct V)) : (c.acts as).store.streams[id]?.map (·.token) = some token := by
  obtain ⟨st, hst, htoken⟩ := Option.map_eq_some_iff.1 h
  obtain ⟨st', hst', h⟩ := continues_acts hst as
  rw [hst', Option.map_some, h.token_eq, htoken]

theorem length_streams_acts (c : Chronicle V) (as : List (StoreAct V)) :
    c.store.streams.length ≤ (c.acts as).store.streams.length := by
  refine Nat.le_of_not_lt fun hlt => ?_
  obtain ⟨st, hst, -⟩ := continues_acts (List.getElem?_eq_getElem hlt) as
  exact absurd (List.getElem?_eq_some_iff.1 hst).1 (Nat.lt_irrefl _)

end Chronicle

/-! ### Values stay -/

/-- The store without its streams. -/
def MemoryStore.core (s : MemoryStore V) : MemoryStore V := { s with registry := [], streams := [] }

namespace StoreAct.Beside

variable {own : Option Nat} {a : StoreAct V}

theorem core_eq (ha : a.Beside own) (s : MemoryStore V) : (s.act a).1.core = s.core := by
  cases a with
  | watch key token =>
    simp only [MemoryStore.act]
    cases hw : s.watch key token with
    | error e => rfl
    | ok granted =>
      unfold MemoryStore.watch at hw
      split at hw
      · simp at hw
      · split at hw
        · simp at hw
        · rw [Except.ok.injEq] at hw
          subst hw
          rfl
  | flush i =>
    simp only [MemoryStore.act, MemoryStore.flush?]
    cases s.streams[i]? with
    | none => rfl
    | some st => cases hf : st.flush? <;> simp [hf, MemoryStore.core]
  | receive i =>
    simp only [MemoryStore.act, MemoryStore.receive]
    split <;> rfl
  | dropReceiver i => rfl
  | release tokens i =>
    simp only [MemoryStore.act]
    rcases s.release?_cases tokens i with heq | ⟨key, heq⟩
    · rw [heq]
    · rw [heq]
      rfl
  | _ => exact ha.elim

theorem core_acts {as : List (StoreAct V)} (has : ∀ a ∈ as, a.Beside own) (c : Chronicle V) :
    (c.acts as).store.core = c.store.core := by
  induction as generalizing c with
  | nil => rfl
  | cons a as ih =>
    rw [List.forall_mem_cons] at has
    exact (ih has.2 (c.act a)).trans (has.1.core_eq c.store)

theorem held_eq (ha : a.Beside own) (s : MemoryStore V) (key : String) : (s.act a).1.held key = s.held key := by
  change (s.act a).1.core.held key = s.core.held key
  rw [ha.core_eq]

theorem get_acts {as : List (StoreAct V)} (has : ∀ a ∈ as, a.Beside own) (c : Chronicle V) (key : String) :
    (c.acts as).store.get key = c.store.get key := by
  change (c.acts as).store.core.get key = c.store.core.get key
  rw [core_acts has]

theorem held_acts {as : List (StoreAct V)} (has : ∀ a ∈ as, a.Beside own) (c : Chronicle V) (key : String) :
    (c.acts as).store.held key = c.store.held key := by
  change (c.acts as).store.core.held key = c.store.core.held key
  rw [core_acts has]

/-- Unless its flush task goes on, the stream itself is as it was. -/
theorem stream_eq {id : Nat} (ha : a.Beside (some id)) (hflush : ∀ i, a = .flush i → i ≠ id) {s : MemoryStore V}
    (hid : id < s.streams.length) : (s.act a).1.streams[id]? = s.streams[id]? := by
  cases a with
  | watch key token =>
    simp only [MemoryStore.act]
    cases hw : s.watch key token with
    | error e => rfl
    | ok granted =>
      obtain ⟨-, -, -, ⟨queue, -, hstreams⟩, -⟩ := MemoryStore.watch_ok hw
      simp only [hstreams]
      exact List.getElem?_append_left hid
  | flush i => exact (s.getElem?_flush? i id).trans (by simp [hflush i rfl])
  | receive i =>
    have hne : i ≠ id := fun hi => ha (by rw [hi])
    exact (s.getElem?_receive i id).trans (by simp [hne])
  | dropReceiver i =>
    have hne : i ≠ id := fun hi => ha (by rw [hi])
    exact (s.getElem?_dropReceiver i id).trans (by simp [hne])
  | release tokens i =>
    have hne : id ≠ i := fun hi => ha (by rw [hi])
    simp only [MemoryStore.act]
    rcases s.release?_cases tokens i with heq | ⟨key, heq⟩
    · rw [heq]
    · rw [heq]
      exact (s.getElem?_updateStreams [i] _ id).trans (by simp [hne])
  | _ => exact ha.elim

end StoreAct.Beside

/-! ### Streams go on following -/

omit [Inhabited V] in
theorem MemoryStore.taken_taking_of_ne (s : MemoryStore V) {i id : Nat} (h : i ≠ id) (log : Log V) :
    Log.taken id (s.taking i ++ log) = Log.taken id log := by
  unfold taking
  split
  · exact if_neg h
  · rfl

namespace Chronicle.Follows

variable {c c' : Chronicle V} {key : String} {id : Nat} {a : StoreAct V}

/-- What does not touch the stream itself, nor what it was told. -/
private theorem of_same (h : c.Follows key id) (hstream : c'.store.streams[id]? = c.store.streams[id]?)
    (hregistered : id ∈ c'.store.subscribers key) (hheld : c'.store.held key = c.store.held key)
    (htold : Log.told id key c'.log = Log.told id key c.log) : c'.Follows key id :=
  ⟨by rw [hstream]; exact h.live, hregistered, by rw [htold]; exact h.clean, by rw [htold, hheld]; exact h.latest⟩

theorem beside (h : c.Follows key id) (ha : a.Beside (some id)) :
    (c.act a).Follows key id ∧ Log.told id key (c.act a).log = Log.told id key c.log ∧
      Log.taken id (c.act a).log = Log.taken id c.log := by
  have hheld := ha.held_eq c.store key
  obtain ⟨st, hst, -⟩ := h.live
  have hid : id < c.store.streams.length := (List.getElem?_eq_some_iff.1 hst).1
  cases a with
  | watch k token =>
    have hstream := ha.stream_eq (fun i hi => by simp at hi) hid
    simp only [Chronicle.act, MemoryStore.act] at hheld hstream ⊢
    cases hw : c.store.watch k token with
    | error e => exact ⟨h, rfl, rfl⟩
    | ok granted =>
      obtain ⟨new, t⟩ := granted
      obtain ⟨rfl, -, -, -, hsubscribers⟩ := MemoryStore.watch_ok hw
      have hne : c.store.streams.length ≠ id := Nat.ne_of_gt hid
      have htold : Log.told id key (.opened c.store.streams.length :: c.log) = Log.told id key c.log := if_neg hne
      rw [hw] at hheld hstream
      refine ⟨h.of_same hstream ?_ hheld htold, htold, if_neg hne⟩
      simp only [hsubscribers]
      split
      · rename_i hk
        rw [← hk]
        exact List.mem_append_left _ h.registered
      · exact h.registered
  | flush i => exact ⟨h.act (a := .flush i) trivial, rfl, rfl⟩
  | receive i =>
    have hne : i ≠ id := fun hi => ha (by rw [hi])
    exact ⟨h.act (a := .receive i) trivial, c.store.told_taking i c.log id key, c.store.taken_taking_of_ne hne c.log⟩
  | dropReceiver i =>
    exact ⟨h.of_same (ha.stream_eq (fun i hi => by simp at hi) hid) h.registered hheld rfl, rfl, rfl⟩
  | release tokens i =>
    have hne : i ≠ id := fun hi => ha (by rw [hi])
    refine ⟨h.of_same (ha.stream_eq (fun i hi => by simp at hi) hid) ?_ hheld rfl, rfl, rfl⟩
    simp only [Chronicle.act, MemoryStore.act]
    rcases c.store.release?_cases tokens i with heq | ⟨k, heq⟩
    · rw [heq]
      exact h.registered
    · rw [heq]
      simp only [MemoryStore.subscribers, Registry.get_set]
      split
      · rename_i hk
        rw [← hk]
        exact List.mem_filter.2 ⟨h.registered, by simpa using Ne.symm hne⟩
      · exact h.registered
  | _ => exact ha.elim

theorem acts_beside {as : List (StoreAct V)} (h : c.Follows key id) (has : ∀ a ∈ as, a.Beside (some id)) :
    (c.acts as).Follows key id ∧ Log.told id key (c.acts as).log = Log.told id key c.log ∧
      Log.taken id (c.acts as).log = Log.taken id c.log := by
  induction as generalizing c with
  | nil => exact ⟨h, rfl, rfl⟩
  | cons a as ih =>
    rw [List.forall_mem_cons] at has
    obtain ⟨h', htold, htaken⟩ := h.beside has.1
    obtain ⟨h'', htold', htaken'⟩ := ih h' has.2
    exact ⟨h'', htold'.trans htold, htaken'.trans htaken⟩

end Chronicle.Follows

end ResourceWatch

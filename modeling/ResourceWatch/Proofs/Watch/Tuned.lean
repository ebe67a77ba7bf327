import ResourceWatch.Proofs.Store.Beside
import ResourceWatch.Proofs.Watch.Course

/-!
# In tune with the store

A session on a memory store that holds its key is in tune with it: what it has heard is the value of the key, and
behind its subscription the events that it took from its stream, which follows the key.  If its endpoint makes a reply
of every value, its steps keep it in tune and at work (`World.Advances.tuned`).
-/

namespace ResourceWatch

variable {V R : Type} [Inhabited V]

/-- What the session has heard is what the chronicle tells.  Events are published on its key only after it
subscribed. -/
inductive Session.Tuned (snapshot : V) (published : List (Event V)) (c : Chronicle V) (x : Session R)
    (heard : Heard V) : Prop where
  | early (stream : x.phase.stream? = none) (get : c.store.get x.key = .ok snapshot)
    (answer : ∀ answer, heard.answer = some answer → answer = .ok snapshot) (published : published = [])
  | behind {id : Nat} (stream : x.phase.stream? = some id) (follows : c.Follows x.key id)
    (token : c.store.streams[id]?.map (·.token) = some x.token)
    (heard_eq : heard = { answer := some (.ok snapshot), granted := some (.ok ()), events := Log.taken id c.log })
    (told : Log.told id x.key c.log = published) (unchanged : published = [] → c.store.held x.key = snapshot)

namespace MemoryStore

variable {s : MemoryStore V} {key : String} {v : V}

omit [Inhabited V] in
theorem closed_of_get (h : s.get key = .ok v) : s.closed = false := by
  cases hclosed : s.closed with
  | false => rfl
  | true => simp [get, hclosed] at h

theorem held_of_get (h : s.get key = .ok v) : s.held key = v := by
  rw [get, closed_of_get h] at h
  rw [held]
  cases hlookup : s.values.lookup key with
  | none => simp [hlookup] at h
  | some u => simpa [hlookup] using h

omit [Inhabited V] in
/-- An open store refuses no subscription, if its queues can be made. -/
theorem exists_watch_of_get (h : s.get key = .ok v) (hcapacity : 0 < s.capacity ∧ s.capacity ≤ Queue.maxCapacity)
    (token : Token) : ∃ granted, s.watch key token = .ok granted := by
  unfold watch Queue.make?
  rw [closed_of_get h, if_pos hcapacity]
  exact ⟨_, rfl⟩

end MemoryStore

/-- The reader of an attached stream is not told the end. -/
theorem EventStream.receive_ne_ended {V : Type} {st : EventStream V} (h : st.attached = true) :
    st.receive.1 ≠ .ended := by
  unfold receive Queue.receive
  cases st.queue.items with
  | nil => simp [isOpen, h]
  | cons e rest => simp

namespace Session.Tuned

variable {snapshot : V} {published : List (Event V)} {c : Chronicle V} {x x' : Session R} {heard heard' : Heard V}

theorem of_same (h : x.Tuned snapshot published c heard) (hkey : x'.key = x.key) (htoken : x'.token = x.token)
    (hstream : x'.phase.stream? = x.phase.stream?) : x'.Tuned snapshot published c heard := by
  cases h with
  | early stream get answer published =>
    exact .early (hstream.trans stream) (hkey ▸ get) answer published
  | behind stream follows token heard_eq told unchanged =>
    rw [← hkey] at follows told unchanged
    exact .behind (hstream.trans stream) follows (htoken ▸ token) heard_eq told unchanged

/-- A session that is not yet subscribed has heard the snapshot at most. -/
theorem early_of_stream? (h : x.Tuned snapshot published c heard) (hstream : x.phase.stream? = none) :
    c.store.get x.key = .ok snapshot ∧ (∀ answer, heard.answer = some answer → answer = .ok snapshot) ∧
      published = [] := by
  cases h with
  | early _ get answer published => exact ⟨get, answer, published⟩
  | behind stream => simp [hstream] at stream

/-- What others do to the store changes nothing for the session. -/
theorem beside {as : List (StoreAct V)} (h : x.Tuned snapshot published c heard)
    (has : ∀ a ∈ as, a.Beside x.phase.stream?) : x.Tuned snapshot published (c.acts as) heard := by
  cases h with
  | early stream get answer published =>
    exact .early stream ((StoreAct.Beside.get_acts has c x.key).trans get) answer published
  | @behind id stream follows token heard_eq told unchanged =>
    have hheld := StoreAct.Beside.held_acts has c x.key
    rw [stream] at has
    obtain ⟨hfollows, htold, htaken⟩ := follows.acts_beside has
    exact .behind stream hfollows (Chronicle.map_token_acts token as) (htaken ▸ heard_eq) (htold.trans told)
      fun hnone => hheld.trans (unchanged hnone)

/-- The subscription brings the session behind its stream. -/
theorem subscribe {id : Nat} {t : MemoryStore V} (hget : c.store.get x.key = .ok snapshot)
    (hwatch : c.store.watch x.key x.token = .ok (id, t)) :
    ({ x with phase := .awaiting id } : Session R).Tuned snapshot [] (c.acts [.watch x.key x.token])
      { answer := some (.ok snapshot), granted := some (.ok ()) } := by
  have hacts : c.acts [.watch x.key x.token] = ⟨t, .opened id :: c.log⟩ := by
    change c.act (.watch x.key x.token) = _
    simp only [Chronicle.act, MemoryStore.act, hwatch, List.singleton_append]
  obtain ⟨hid, -, hvalues, ⟨queue, -, hstreams⟩, -⟩ := MemoryStore.watch_ok hwatch
  rw [hacts]
  refine .behind rfl (Chronicle.Follows.watch hwatch) ?_ ?_ (if_pos rfl) fun _ => ?_
  · rw [hstreams, hid, List.getElem?_concat_length]
    rfl
  · have htaken : Log.taken id (.opened id :: c.log) = [] := if_pos rfl
    rw [htaken]
  · exact (congrArg (fun values => (values.lookup x.key).getD default) hvalues).trans (MemoryStore.held_of_get hget)

/-- A subscribed session is told values only. -/
theorem receive_cases {capacity id : Nat} (h : x.Tuned snapshot published c heard) (hsound : c.Sound capacity)
    (hstream : x.phase.stream? = some id) :
    (c.store.receive id).1 = .pending ∨
      ∃ e v, (c.store.receive id).1 = .item e ∧ e.kind.value? = some v := by
  cases h with
  | early stream => simp [hstream] at stream
  | behind stream follows =>
    obtain rfl := Option.some.inj (hstream.symm.trans stream)
    obtain ⟨st, hst, -, hattached, -⟩ := follows.live
    have hreceive : (c.store.receive id).1 = st.receive.1 := by simp [MemoryStore.receive, hst]
    rw [hreceive]
    cases he : st.receive.1 with
    | pending => exact Or.inl rfl
    | ended => exact absurd he (EventStream.receive_ne_ended hattached)
    | item e =>
      obtain ⟨v, hv⟩ := follows.value?_of_mem_ahead hsound hst (EventStream.receive_item he ▸ List.mem_cons_self)
      exact Or.inr ⟨e, v, rfl, hv⟩

/-- The event that the session takes is one more that it has heard. -/
theorem take {id : Nat} {e : Event V} (h : x.Tuned snapshot published c heard) (hstream : x.phase.stream? = some id)
    (hgot : (c.store.receive id).1 = .item e) :
    x.Tuned snapshot published (c.acts [.receive id]) { heard with events := heard.events ++ [e] } := by
  cases h with
  | early stream => simp [hstream] at stream
  | @behind id' stream follows token heard_eq told unchanged =>
    obtain rfl : id = id' := Option.some.inj (hstream.symm.trans stream)
    have htaking : c.store.taking id = [.taken id e] := by rw [MemoryStore.taking, hgot]
    have htaken : Log.taken id (c.acts [.receive id]).log = Log.taken id c.log ++ [e] := by
      change Log.taken id (c.store.taking id ++ c.log) = _
      rw [htaking]
      exact if_pos rfl
    refine .behind hstream (follows.act (a := .receive id) trivial)
      (Chronicle.map_token_acts token [.receive id]) ?_ ?_ fun hnone => ?_
    · rw [heard_eq, htaken]
    · exact (c.store.told_taking id c.log id x.key).trans told
    · exact (c.store.held_receive id x.key).trans (unchanged hnone)

/-- A change of the store is told to a subscribed session, if it concerns its key. -/
private theorem change {a : StoreAct V} {new : List (Event V)} (h : x.Tuned snapshot published c heard)
    (hsubscribed : x.phase.stream? ≠ none) (ha : a.IsOrdinary)
    (htaken : ∀ id, Log.taken id (c.act a).log = Log.taken id c.log)
    (htold : ∀ id, Log.told id x.key (c.act a).log = Log.told id x.key c.log ++ new)
    (hheld : new = [] → (c.act a).store.held x.key = c.store.held x.key) :
    x.Tuned snapshot (published ++ new) (c.act a) heard := by
  cases h with
  | early stream => exact absurd stream hsubscribed
  | @behind id stream follows token heard_eq told unchanged =>
    refine .behind stream (follows.act ha) (Chronicle.map_token_acts token [a]) (by rw [htaken, heard_eq])
      (by rw [htold, told]) fun hnone => ?_
    obtain ⟨hpublished, hnew⟩ := List.append_eq_nil_iff.1 hnone
    exact (hheld hnew).trans (unchanged hpublished)

omit [Inhabited V] in
private theorem told_published (id : Nat) (key : String) (e : Event V) (log : Log V) :
    Log.told id key (.published e :: log) = Log.told id key log ++ [e].filter (·.key = key) := by
  by_cases hk : e.key = key
  · simp [Log.told, hk]
  · simp [Log.told, hk]

theorem put (h : x.Tuned snapshot published c heard) (hsubscribed : x.phase.stream? ≠ none) (key : String)
    (value : V) :
    x.Tuned snapshot (published ++ [(⟨(c.store.put key value).1, key, .put value⟩ : Event V)].filter (·.key = x.key))
      (c.act (.put key value)) heard := by
  refine h.change (a := .put key value) hsubscribed trivial (fun _ => rfl) (fun id => told_published id x.key _ c.log)
    fun hnone => ?_
  have hne : key ≠ x.key := by simpa using hnone
  change ((c.store.values.put key value).lookup x.key).getD default = (c.store.values.lookup x.key).getD default
  rw [Dictionary.lookup_put, if_neg (by simpa using Ne.symm hne)]

theorem delete (h : x.Tuned snapshot published c heard) (hsubscribed : x.phase.stream? ≠ none) (key : String) :
    x.Tuned snapshot
      (published ++ ((c.store.delete key).1.map fun id => (⟨id, key, .delete default⟩ : Event V)).toList.filter
        (·.key = x.key)) (c.act (.delete key)) heard := by
  refine h.change (a := .delete key) hsubscribed trivial (c.store.taken_delete key c.log) (fun id => ?_)
    fun hnone => ?_
  · simp only [Chronicle.act, MemoryStore.act, MemoryStore.delete]
    cases c.store.values.lookup key with
    | none => simp
    | some v => exact told_published id x.key _ c.log
  · simp only [Chronicle.act, MemoryStore.act, MemoryStore.delete] at hnone ⊢
    cases hlookup : c.store.values.lookup key with
    | none => rfl
    | some v =>
      rw [hlookup] at hnone
      have hne : key ≠ x.key := by simpa using hnone
      change ((c.store.values.erase key).lookup x.key).getD default = (c.store.values.lookup x.key).getD default
      rw [Dictionary.lookup_erase, if_neg (by simpa using Ne.symm hne)]

end Session.Tuned

namespace World

variable [BEq R] {reply : String → V → R} {w w' : World V R (ChangeCache R)} {i : Nat} {x x' : Session R}
  {c : Chronicle V} {capacity : Nat} {snapshot : V} {published : List (Event V)} {heard : Heard V}

omit [Inhabited V] [BEq R] in
theorem stream?_of_sends? {p next : Phase R} {r : R} (h : p.sends? = some (r, next)) : next.stream? = p.stream? := by
  cases p <;> simp only [Phase.sends?, Option.some.injEq, Prod.mk.injEq, reduceCtorEq] at h
  · rw [← h.2]
    rfl
  · rw [← h.2]
    rfl

theorem Advances.tuned (h : Advances (Endpoint.deduplicating reply) w i x w') (hc : w.store = .memory c.store)
    (hsound : c.Sound capacity) (hcapacity : 0 < capacity ∧ capacity ≤ Queue.maxCapacity)
    (hworking : x.phase.isAtWork = true) (hheld : x.replies.receiving = true)
    (hheard : x.phase.HasHeard heard) (ht : x.Tuned snapshot published c heard) :
    ∃ x' as, w'.sessions = w.sessions.set i x' ∧ x'.phase.isAtWork = true ∧ w'.tokens = w.tokens ∧
      w'.store = .memory (c.acts as).store ∧ x'.Tuned snapshot published (c.acts as) (w.hear x heard) := by
  have hgrants : x.phase = .subscribing → ∃ granted, c.store.watch x.key x.token = .ok granted := by
    intro hp
    obtain ⟨hget, -, -⟩ := ht.early_of_stream? (by rw [hp]; rfl)
    exact MemoryStore.exists_watch_of_get hget (hsound.capacity_eq.symm ▸ hcapacity) x.token
  have hreceives : ∀ id, x.phase = .awaiting id → (c.store.receive id).1 = .pending ∨
      ∃ e v, (c.store.receive id).1 = .item e ∧ e.kind.value? = some v :=
    fun id hp => ht.receive_cases hsound (by rw [hp]; rfl)
  cases h with
  | call hp =>
    refine ⟨_, [], rfl, rfl, rfl, ?_, ?_⟩
    · change w.store.call x.key = _
      rw [hc]
      rfl
    · rw [hear_starting hp]
      exact ht.of_same rfl rfl (by rw [hp]; rfl)
  | unread hp hanswer =>
    obtain ⟨hget, -, -⟩ := ht.early_of_stream? (by rw [hp]; rfl)
    rw [hc, Backend.answer?, hget] at hanswer
    simp at hanswer
  | @read v st st' r changed hp hanswer hmaker hmade =>
    obtain ⟨hget, -, hnone⟩ := ht.early_of_stream? (by rw [hp]; rfl)
    have hsnapshot : w.store.answer? x.key = some (.ok snapshot) := by rw [hc, Backend.answer?, hget]
    refine ⟨_, [], rfl, rfl, rfl, hc, ?_⟩
    rw [hear_answer hp hsnapshot]
    exact .early rfl hget (fun answer ha => (Option.some.inj ha).symm) hnone
  | unmade hp hanswer hmaker hmade => simp [Endpoint.deduplicating] at hmade
  | @send r next hp =>
    refine ⟨_, [], rfl, (isAtWork_of_sends? hp).2, rfl, hc, ?_⟩
    rw [hear_of_sends? hp]
    exact ht.of_same rfl rfl (stream?_of_sends? hp)
  | disconnect _ hgone => simp [hheld] at hgone
  | @subscribe id store hp hgranted =>
    obtain ⟨hget, hanswer, rfl⟩ := ht.early_of_stream? (by rw [hp]; rfl)
    rw [hp] at hheard
    obtain ⟨v, rfl⟩ := hheard
    obtain rfl : v = snapshot := Except.ok.inj (hanswer _ rfl)
    have hhear := hear_granted hp hgranted { answer := some (.ok v) }
    obtain ⟨⟨new, t⟩, hwatch⟩ := hgrants hp
    rw [hc, Backend.watch, hwatch, Prod.mk.injEq, Except.ok.injEq] at hgranted
    obtain ⟨rfl, rfl⟩ := hgranted
    refine ⟨_, [.watch x.key x.token], rfl, rfl, rfl, ?_, ?_⟩
    · have hacts : (c.acts [.watch x.key x.token]).store = (c.store.act (.watch x.key x.token)).1 := rfl
      rw [hacts, MemoryStore.act, hwatch]
      rfl
    · rw [hhear]
      exact Session.Tuned.subscribe hget hwatch
  | refused hp hgranted =>
    obtain ⟨⟨new, t⟩, hwatch⟩ := hgrants hp
    simp [hc, Backend.watch, hwatch] at hgranted
  | crash hp hgranted =>
    obtain ⟨⟨new, t⟩, hwatch⟩ := hgrants hp
    simp [hc, Backend.watch, hwatch] at hgranted
  | @value id e u store st st' r changed hp hgot htold hmaker hmade =>
    have hstream : x.phase.stream? = some id := by rw [hp]; rfl
    rw [hear_event hp hgot]
    rw [hc, Backend.receive_memory, Prod.mk.injEq] at hgot
    refine ⟨_, [.receive id], rfl, by cases changed <;> rfl, rfl, hgot.2.symm, ?_⟩
    exact (ht.take hstream hgot.1).of_same rfl rfl (by rw [hp]; cases changed <;> rfl)
  | unmadeValue hp hgot htold hmaker hmade => simp [Endpoint.deduplicating] at hmade
  | failure hp hgot htold =>
    rw [hc, Backend.receive_memory, Prod.mk.injEq] at hgot
    rcases hreceives _ hp with hpending | ⟨e, v, he, hv⟩
    · simp [hpending] at hgot
    · obtain rfl := Received.item.inj (he.symm.trans hgot.1)
      simp [htold, EventKind.value?] at hv
  | ended hp hgot =>
    rw [hc, Backend.receive_memory, Prod.mk.injEq] at hgot
    rcases hreceives _ hp with hpending | ⟨e, v, he, -⟩
    · simp [hpending] at hgot
    · simp [he] at hgot
  | report hp => simp [hp, Phase.isAtWork] at hworking
  | unreported hp => simp [hp, Phase.isAtWork] at hworking

end World

end ResourceWatch

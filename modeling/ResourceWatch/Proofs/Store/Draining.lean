import ResourceWatch.Proofs.Store.Beside

/-!
# Draining a stream

While no event is offered to a stream and its reader is there, what the reader has taken with what is ahead of it
stays the same, whatever else happens (`Chronicle.act_unreached`).  So if the reader only receives and flush tasks go
on, it has taken all of it once nothing is left for it at rest; and at rest it gets there in as many receives as there
are events ahead.

`reader_catches_up` puts this together with `Chronicle.Sound`: a registered reader ends on the latest event of its
key, or on a failure, and never misses the first failure.
-/

namespace ResourceWatch

variable {V : Type} {capacity : Nat}

/-- What happens while the reader of one stream does nothing but receive. -/
def StoreAct.IsDraining (id : Nat) : StoreAct V → Prop
  | .flush _ => True
  | .receive stream => stream = id
  | _ => False

/-- Receives so many times, letting the stream's flush task go on after each. -/
def StoreAct.drain (id : Nat) : Nat → List (StoreAct V)
  | 0 => []
  | n + 1 => .receive id :: .flush id :: drain id n

theorem StoreAct.isDraining_drain (id n : Nat) : ∀ a ∈ (drain id n : List (StoreAct V)), a.IsDraining id := by
  induction n with
  | zero => exact fun _ ha => by simp [drain] at ha
  | succ n ih =>
    intro a ha
    rcases List.mem_cons.1 ha with rfl | ha
    · exact rfl
    · rcases List.mem_cons.1 ha with rfl | ha
      · exact trivial
      · exact ih a ha

theorem MemoryStore.isFlushed_iff (s : MemoryStore V) :
    s.IsFlushed ↔ ∀ (id : Nat) (st : EventStream V), s.streams[id]? = some st → st.flush? = none := by
  unfold IsFlushed flush?
  constructor
  · intro h id st hst
    have := h id
    rw [hst] at this
    cases hf : st.flush? with
    | none => rfl
    | some t => simp [hf] at this
  · intro h id
    cases hst : s.streams[id]? with
    | none => rfl
    | some st => simp [h id st hst]

/-- An event of the act is offered to the stream. -/
def StoreAct.Reaches (s : MemoryStore V) (id : Nat) : StoreAct V → Prop
  | .put key _ | .delete key | .fail key _ => id ∈ s.subscribers key
  | _ => False

theorem MemoryStore.getElem?_publish_of_not_mem {s : MemoryStore V} {key : String} {id : Nat}
    (h : id ∉ s.subscribers key) (kind : EventKind V) : (s.publish key kind).2.streams[id]? = s.streams[id]? := by
  rw [getElem?_publish]
  simp only [if_neg h, Option.map_id']

variable [Inhabited V]

namespace Chronicle

/-! ### Any order -/

/-- What is left of a stream to which no event is offered: its reader, if it was there, and the events that the reader
has taken or has ahead.  The store may let go of the stream, but does not take hold of it again. -/
structure Remains (id : Nat) (c : Chronicle V) (st : EventStream V) (c' : Chronicle V) (st' : EventStream V) :
    Prop where
  stream : c'.store.streams[id]? = some st'
  receiving_eq : st'.queue.receiving = st.queue.receiving
  detached : st.attached = false → st'.attached = false
  delivered_eq : c'.delivered id st' = c.delivered id st

variable {c c' c'' : Chronicle V} {id : Nat} {st st' st'' : EventStream V}

namespace Remains

omit [Inhabited V] in
theorem trans (h : Remains id c st c' st') (h' : Remains id c' st' c'' st'') : Remains id c st c'' st'' :=
  ⟨h'.stream, h'.receiving_eq.trans h.receiving_eq, fun hd => h'.detached (h.detached hd),
    h'.delivered_eq.trans h.delivered_eq⟩

omit [Inhabited V] in
/-- The stream is as it was. -/
theorem same (hst : c.store.streams[id]? = some st) (hstream : c'.store.streams[id]? = c.store.streams[id]?)
    (htaken : Log.taken id c'.log = Log.taken id c.log) : Remains id c st c' st :=
  ⟨hstream.trans hst, rfl, fun h => h, by rw [delivered, htaken, delivered]⟩

omit [Inhabited V] in
/-- The store lets go of some streams. -/
theorem detach (hst : c.store.streams[id]? = some st) (ids : List Nat) {f : EventStream V → EventStream V}
    (hf : (f st).attached = false ∧ (f st).queue = st.queue ∧ (f st).parked = st.parked)
    (hstreams : c'.store.streams = (c.store.updateStreams ids f).streams) (hlog : c'.log = c.log) :
    ∃ st', Remains id c st c' st' := by
  obtain ⟨hattached, hqueue, hparked⟩ := hf
  have hstream : c'.store.streams[id]? = some (if id ∈ ids then f st else st) := by
    rw [hstreams, MemoryStore.getElem?_updateStreams, hst, Option.map_some]
  by_cases hid : id ∈ ids
  · rw [if_pos hid] at hstream
    refine ⟨f st, hstream, by rw [hqueue], fun _ => hattached, ?_⟩
    rw [delivered, delivered, hlog, EventStream.ahead, hqueue, hparked, EventStream.ahead]
  · rw [if_neg hid] at hstream
    exact ⟨st, hstream, rfl, fun h => h, by rw [delivered, hlog, delivered]⟩

end Remains

/-- So do streams to which an act offers no event, if it does not drop their receivers. -/
theorem act_unreached (hst : c.store.streams[id]? = some st) {a : StoreAct V} (hreach : ¬ a.Reaches c.store id)
    (hdrops : a.drops id = false) : ∃ st', Remains id c st (c.act a) st' := by
  have hpublish : ∀ values key kind, id ∉ c.store.subscribers key →
      ({ c.store with values }.publish key kind).2.streams[id]? = c.store.streams[id]? := fun values key kind hid =>
    MemoryStore.getElem?_publish_of_not_mem (s := { c.store with values }) hid kind
  cases a with
  | put key value => exact ⟨st, .same hst (hpublish _ key _ hreach) rfl⟩
  | delete key =>
    simp only [act, MemoryStore.act, MemoryStore.delete]
    cases c.store.values.lookup key with
    | none => exact ⟨st, .same hst rfl rfl⟩
    | some v => exact ⟨st, .same hst (hpublish _ key _ hreach) rfl⟩
  | fail key text => exact ⟨st, .same hst (hpublish c.store.values key _ hreach) rfl⟩
  | close key => exact Remains.detach hst (c.store.subscribers key) (f := EventStream.detach) ⟨rfl, rfl, rfl⟩ rfl rfl
  | shutdown =>
    exact Remains.detach hst (c.store.registry.flatMap (·.2)) (f := EventStream.detach) ⟨rfl, rfl, rfl⟩ rfl rfl
  | watch key token =>
    simp only [act, MemoryStore.act]
    cases hw : c.store.watch key token with
    | error e => exact ⟨st, .same hst rfl rfl⟩
    | ok granted =>
      obtain ⟨new, t⟩ := granted
      obtain ⟨rfl, -, -, ⟨queue, -, hstreams⟩, -⟩ := MemoryStore.watch_ok hw
      -- the new stream has a number of its own
      have hid : id < c.store.streams.length := (List.getElem?_eq_some_iff.1 hst).1
      refine ⟨st, .same hst ?_ (if_neg (Nat.ne_of_gt hid))⟩
      rw [hstreams, List.getElem?_append_left hid]
  | release tokens i =>
    simp only [act, MemoryStore.act]
    rcases c.store.release?_cases tokens i with heq | ⟨key, heq⟩
    · rw [heq]
      exact ⟨st, .same hst rfl rfl⟩
    · rw [heq]
      exact Remains.detach hst [i] (f := fun st => { st.detach with guarding := false }) ⟨rfl, rfl, rfl⟩ rfl rfl
  | flush i =>
    have hstream := (c.store.getElem?_flush? i id).trans (by rw [hst, Option.map_some])
    by_cases hi : i = id
    · rw [if_pos hi] at hstream
      refine ⟨st.flush?.getD st, hstream, st.receiving_flush?, fun h => by rw [st.attached_flush?, h], ?_⟩
      rw [delivered, st.ahead_flush?]
      rfl
    · rw [if_neg hi, ← hst] at hstream
      exact ⟨st, .same hst hstream rfl⟩
  | receive i =>
    have hstream := (c.store.getElem?_receive i id).trans (by rw [hst, Option.map_some])
    refine ⟨if i = id then st.receive.2 else st, hstream, ?_, ?_, c.store.taken_taking i c.log hst⟩
    · split
      · exact st.receiving_receive
      · rfl
    · split
      · exact fun h => h
      · exact fun h => h
  | dropReceiver i =>
    have hi : i ≠ id := by simpa [StoreAct.drops] using hdrops
    have hstream : (c.store.dropReceiver i).streams[id]? = c.store.streams[id]? := by
      rw [c.store.getElem?_dropReceiver, hst, Option.map_some, if_neg hi]
    exact ⟨st, .same hst hstream rfl⟩

theorem acts_unreached (hst : c.store.streams[id]? = some st) {as : List (StoreAct V)}
    (has : ∀ a ∈ as, (∀ s, ¬ a.Reaches s id) ∧ a.drops id = false) : ∃ st', Remains id c st (c.acts as) st' := by
  induction as generalizing c st with
  | nil => exact ⟨st, .same hst rfl rfl⟩
  | cons a as ih =>
    rw [List.forall_mem_cons] at has
    obtain ⟨st₁, h₁⟩ := act_unreached hst (has.1.1 c.store) has.1.2
    obtain ⟨st₂, h₂⟩ := ih h₁.stream has.2
    exact ⟨st₂, h₁.trans h₂⟩

theorem acts_draining (hst : c.store.streams[id]? = some st) {later : List (StoreAct V)}
    (hlater : ∀ a ∈ later, a.IsDraining id) : ∃ st', Remains id c st (c.acts later) st' := by
  refine acts_unreached hst fun a ha => ?_
  have hdraining := hlater a ha
  cases a with
  | flush i => exact ⟨fun _ h => h, rfl⟩
  | receive i => exact ⟨fun _ h => h, rfl⟩
  | _ => exact hdraining.elim

/-- A reader for which nothing is left at rest has taken everything. -/
theorem Sound.taken_of_drained {c : Chronicle V} (h : c.Sound capacity) (hpos : 0 < capacity) {id : Nat}
    {st : EventStream V} (hst : c.store.streams[id]? = some st) (hr : st.queue.receiving = true)
    {later : List (StoreAct V)} (hlater : ∀ a ∈ later, a.IsDraining id) (hrest : (c.acts later).store.IsFlushed)
    (hnone : ∀ e, ((c.acts later).store.receive id).1 ≠ .item e) :
    Log.taken id (c.acts later).log = c.delivered id st := by
  obtain ⟨st', hst', hr', -, hd⟩ := acts_draining hst hlater
  have hs := (h.acts later).streams id st' hst'
  have hempty : st'.queue.items = [] := by
    refine (EventStream.receive_none fun e he => hnone e ?_).1
    rw [MemoryStore.receive, hst']
    exact he
  have hflush := (MemoryStore.isFlushed_iff _).1 hrest id st' hst'
  have hahead := hs.ahead_eq_nil hpos (hr'.trans hr) hflush hempty
  rw [← hd, delivered, hahead, List.append_nil]

/-! ### One after the other -/

/-- Receiving so many times takes so many of the events ahead, and leaves the flush task of the stream at rest. -/
theorem Sound.acts_drain (h : c.Sound capacity) (hpos : 0 < capacity) (hst : c.store.streams[id]? = some st)
    (hr : st.queue.receiving = true) (hrest : st.flush? = none) (n : Nat) :
    ∃ st', (c.acts (StoreAct.drain id n)).store.streams[id]? = some st' ∧ st'.flush? = none ∧
      st'.ahead = st.ahead.drop n := by
  induction n generalizing c st with
  | zero => exact ⟨st, hst, hrest, rfl⟩
  | succ n ih =>
    -- after one receive and one flush the stream is at rest again, with the first event gone
    let next := st.receive.2.flush?.getD st.receive.2
    have hst' : ((c.act (.receive id)).act (.flush id)).store.streams[id]? = some next := by
      refine ((c.act (.receive id)).store.getElem?_flush? id id).trans ?_
      rw [show (c.act (.receive id)).store = (c.store.receive id).2 from rfl, c.store.getElem?_receive, hst]
      simp [next]
    have hr' : next.queue.receiving = true := by
      rw [EventStream.receiving_flush?, EventStream.receiving_receive, hr]
    obtain ⟨u, hu, hurest, hahead⟩ := ih ((h.act _).act _) hst' hr' st.receive.2.flush?_flush?
    refine ⟨u, hu, hurest, ?_⟩
    rw [hahead, EventStream.ahead_flush?, (h.streams id st hst).ahead_receive hpos hr hrest, List.drop_tail]

end Chronicle

/-- A registered reader may skip events of its key, but ends on the latest one or on a failure, and the first failure
is not skipped.  At rest an event is parked only behind a full queue, and a reader that goes on until nothing is left
has taken all that was ahead of it, as it does in so many receives. -/
theorem reader_catches_up (eventBuffer : Nat) (history : List (StoreAct V)) (id : Nat) (st : EventStream V) :
    let c := (Chronicle.opening eventBuffer).acts history
    let published := Log.told id st.key c.log
    let delivered := c.delivered id st
    c.store.streams[id]? = some st → id ∈ c.store.subscribers st.key → st.queue.receiving = true →
    (published ≠ [] →
      ∃ e, delivered.getLast? = some e ∧ (published.getLast? = some e ∨ e.kind.isError = true)) ∧
    (∀ e, published.find? (·.kind.isError) = some e → e ∈ delivered) ∧
    (c.store.IsFlushed → st.parked.isSome = true → st.queue.items.length = max 1 eventBuffer) ∧
    (∀ later, (∀ a ∈ later, a.IsDraining id) → (c.acts later).store.IsFlushed →
      (∀ e, ((c.acts later).store.receive id).1 ≠ .item e) → Log.taken id (c.acts later).log = delivered) ∧
    (c.store.IsFlushed → ∀ n, st.ahead.length ≤ n →
      Log.taken id (c.acts (StoreAct.drain id n)).log = delivered) := by
  intro c published delivered hst hsub hr
  have hpos : 0 < max eventBuffer 1 := by omega
  have h : c.Sound (max eventBuffer 1) := (Chronicle.Sound.opening eventBuffer).acts history
  have htracks : Tracks published delivered := h.tracks id st hst hsub hr
  refine ⟨htracks.last, htracks.failure, ?_, ?_, ?_⟩
  · intro hrest hp
    rw [Nat.max_comm]
    exact (h.streams id st hst).length_eq_of_parked hr ((MemoryStore.isFlushed_iff _).1 hrest id st hst) hp
  · intro later hlater hrest hnone
    exact h.taken_of_drained hpos hst hr hlater hrest hnone
  · intro hrest n hn
    obtain ⟨u, hu, -, hahead⟩ := h.acts_drain hpos hst hr ((MemoryStore.isFlushed_iff _).1 hrest id st hst) n
    obtain ⟨u', hu', -, -, hd⟩ := Chronicle.acts_draining hst (StoreAct.isDraining_drain id n)
    obtain rfl : u = u' := Option.some.inj (hu.symm.trans hu')
    rw [List.drop_eq_nil_of_le hn] at hahead
    rw [Chronicle.delivered, hahead, List.append_nil] at hd
    exact hd

/-- A reader of the key `k` that lags behind three values and a failure, with room for one event: the failure is
parked behind the first value and stays when another value comes. -/
theorem reader_catches_up_behind_failure :
    let history : List (StoreAct Nat) := [.watch "k" [0], .put "k" 1, .put "k" 2, .fail "k" "lost", .put "k" 3]
    let c := (Chronicle.opening 1).acts history
    let e : Event Nat := ⟨3, "k", .error "lost"⟩
    (∃ st, c.store.streams[0]? = some st ∧ st.parked = some e) ∧
      Log.taken 0 (c.acts (StoreAct.drain 0 2)).log = [⟨1, "k", .put 1⟩, e] := by
  intro history c e
  let st : EventStream Nat :=
    { key := "k", token := [0], queue := { capacity := 1, items := [⟨1, "k", .put 1⟩] }, parked := some e,
      flushing := true }
  have hst : c.store.streams[0]? = some st := by decide
  have hrest : c.store.IsFlushed := by
    intro id
    match id with
    | 0 => decide
    | n + 1 => rfl
  have h := reader_catches_up 1 history 0 st hst (by decide) rfl
  exact ⟨⟨st, hst, rfl⟩, h.2.2.2.2 hrest 2 (by decide)⟩

end ResourceWatch

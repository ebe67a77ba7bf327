import ResourceWatch.Proofs.Store.Draining
import ResourceWatch.Proofs.Store.Registration
import ResourceWatch.Proofs.Store.Shedding

/-!
# The end of a stream

The store lets go of a stream when its key is closed, when the store is shut down, and when the token of the stream is
cancelled and its guard task has gone on (`Chronicle.LetsGo`).  From then on the stream is off the registry, and a new
subscription of the key is another stream, so whatever happens no event is offered to it again: what its reader has
taken and what is ahead are together what they were (`Chronicle.Ending`).  The stream ends once nothing is ahead and
not before: as long as an event is parked the flush task holds a sending end of its own.
-/

namespace ResourceWatch

variable {V : Type} {capacity : Nat}

/-- What a reader gets first, if these events are ahead of it and no other comes. -/
def Received.next {α : Type} : List α → Received α
  | [] => .ended
  | a :: _ => .item a

/-! ### A stream that the store does not hold -/

namespace EventStream

variable {st : EventStream V}

/-- The parked event holds the stream open, and nothing else does. -/
theorem Sound.isOpen_eq (h : st.Sound capacity) (hr : st.queue.receiving = true) (hdetached : st.attached = false) :
    st.isOpen = st.parked.isSome := by
  rw [isOpen, hdetached, h.flushing_eq hr, Bool.false_or]

theorem Sound.receive_eq_ended_iff (h : st.Sound capacity) (hr : st.queue.receiving = true)
    (hdetached : st.attached = false) : st.receive.1 = .ended ↔ st.ahead = [] := by
  have hopen := h.isOpen_eq hr hdetached
  unfold EventStream.receive Queue.receive ahead
  cases hitems : st.queue.items with
  | cons e rest => simp
  | nil =>
    cases hparked : st.parked with
    | none => simp [hopen, hparked]
    | some p => simp [hopen, hparked]

/-- At rest the reader gets what comes first, or is told of the end. -/
theorem Sound.receive_eq_next (h : st.Sound capacity) (hpos : 0 < capacity) (hr : st.queue.receiving = true)
    (hdetached : st.attached = false) (hrest : st.flush? = none) : st.receive.1 = .next st.ahead := by
  by_cases hahead : st.ahead = []
  · rw [hahead]
    exact (h.receive_eq_ended_iff hr hdetached).2 hahead
  · cases hitems : st.queue.items with
    | nil => exact absurd (h.ahead_eq_nil hpos hr hrest hitems) hahead
    | cons e rest =>
      unfold EventStream.receive Queue.receive ahead
      simp [hitems, Received.next]

end EventStream

/-! ### What is taken stays taken -/

namespace Chronicle

variable [Inhabited V] {c : Chronicle V} {id : Nat}

theorem taken_prefix_act (hid : id < c.store.streams.length) (a : StoreAct V) :
    Log.taken id c.log <+: Log.taken id (c.act a).log := by
  cases a with
  | delete key =>
    have heq : Log.taken id (c.act (.delete key)).log = Log.taken id c.log := c.store.taken_delete key c.log id
    exact heq ▸ List.prefix_refl _
  | watch key token =>
    simp only [act, MemoryStore.act]
    cases hw : c.store.watch key token with
    | error e => exact List.prefix_refl _
    | ok granted =>
      obtain ⟨new, t⟩ := granted
      obtain ⟨rfl, -⟩ := MemoryStore.watch_ok hw
      simp [Log.taken, Nat.ne_of_gt hid]
  | receive i =>
    simp only [act, MemoryStore.act, MemoryStore.taking]
    split
    · rename_i e _
      by_cases hi : i = id
      · simp [Log.taken, hi]
      · simp [Log.taken, hi]
    · exact List.prefix_refl _
  | _ => exact List.prefix_refl _

theorem taken_prefix_acts (hid : id < c.store.streams.length) (as : List (StoreAct V)) :
    Log.taken id c.log <+: Log.taken id (c.acts as).log := by
  induction as generalizing c with
  | nil => exact List.prefix_refl _
  | cons a as ih =>
    have hle : c.store.streams.length ≤ (c.act a).store.streams.length := c.length_streams_acts [a]
    exact (taken_prefix_act hid a).trans (ih (Nat.lt_of_lt_of_le hid hle))

end Chronicle

/-! ### Guard tasks -/

/-- The guard task of every stream on the registry waits for its token. -/
def MemoryStore.Guarded (s : MemoryStore V) : Prop :=
  ∀ key, ∀ id ∈ s.subscribers key, ∃ st, s.streams[id]? = some st ∧ st.key = key ∧ st.guarding = true

namespace MemoryStore.Guarded

variable {s s' : MemoryStore V}

theorem make (eventBuffer : Nat) : (MemoryStore.make eventBuffer : MemoryStore V).Guarded := by
  intro key id hid
  simp [MemoryStore.make, subscribers, Registry.get] at hid

theorem sheds (h : s.Guarded) (hsheds : s.Sheds s') : s'.Guarded := by
  intro key id hid
  obtain ⟨st, hst, hkey, hguarding⟩ := h key id (hsheds.subset key hid)
  obtain ⟨st', hst', hkey', -, hguarding'⟩ := hsheds.streams key id hid st hst hkey
  exact ⟨st', hst', hkey', hguarding'.trans hguarding⟩

theorem watch (h : s.Guarded) {key : String} {token : Token} {new : Nat} (hw : s.watch key token = .ok (new, s')) :
    s'.Guarded := by
  intro k id hid
  rcases mem_subscribers_watch hw hid with ⟨-, rfl, queue, hst⟩ | ⟨hid, hstreams⟩
  · exact ⟨_, hst, rfl, rfl⟩
  · obtain ⟨st, hst, hrest⟩ := h k id hid
    exact ⟨st, hstreams st hst, hrest⟩

variable [Inhabited V]

theorem act (h : s.Guarded) (a : StoreAct V) : (s.act a).1.Guarded := by
  cases a with
  | watch key token =>
    simp only [MemoryStore.act]
    cases hw : s.watch key token with
    | error e => exact h
    | ok granted => exact h.watch hw
  | _ => exact h.sheds (s.sheds_act fun _ _ hwatch => by simp at hwatch)

theorem acts {c : Chronicle V} (h : c.store.Guarded) (as : List (StoreAct V)) : (c.acts as).store.Guarded := by
  induction as generalizing c with
  | nil => exact h
  | cons a as ih => exact ih (c := c.act a) (h.act a)

end MemoryStore.Guarded

/-! ### Letting go -/

/-- The turns of flush tasks, and of guard tasks while these tokens are cancelled. -/
def StoreAct.IsTurn (tokens : Tokens) : StoreAct V → Prop
  | .flush _ => True
  | .release cancelled _ => cancelled = tokens
  | _ => False

variable [Inhabited V]

namespace Chronicle

/-- The store lets go of the stream: its key is closed, or the store is shut down, or its token is cancelled and tasks
take turns, in any order, until the guard task of the stream has no more to do. -/
inductive LetsGo (c : Chronicle V) (id : Nat) (st : EventStream V) : List (StoreAct V) → Prop
  | close : LetsGo c id st [.close st.key]
  | shutdown : LetsGo c id st [.shutdown]
  | cancel {tokens : Tokens} {turns : List (StoreAct V)} (cancelled : tokens.isCancelled st.token = true)
      (are_turns : ∀ a ∈ turns, a.IsTurn tokens) (rest : (c.acts turns).store.release? tokens id = none) :
      LetsGo c id st turns

/-- The store has let go of a stream that is still read, and these are the events that its reader has taken or has
ahead. -/
structure Ending (id : Nat) (events : List (Event V)) (c : Chronicle V) : Prop where
  orderly : c.store.Orderly
  exists_stream : ∃ st, c.store.streams[id]? = some st ∧ st.attached = false ∧ st.queue.receiving = true ∧
    c.delivered id st = events

variable {c : Chronicle V} {id : Nat} {st : EventStream V} {events : List (Event V)}

omit [Inhabited V] in
theorem Ending.not_mem_subscribers (h : c.Ending id events) (key : String) : id ∉ c.store.subscribers key := by
  obtain ⟨st, hst, hdetached, -, -⟩ := h.exists_stream
  intro hid
  obtain ⟨st', hst', -, hattached⟩ := (h.orderly key id).1 hid
  obtain rfl := Option.some.inj (hst.symm.trans hst')
  rw [hdetached] at hattached
  simp at hattached

/-- Nothing is added to what the reader gets, and nothing is taken away, as long as there is a reader. -/
theorem Ending.act (h : c.Ending id events) {a : StoreAct V} (ha : a.drops id = false) :
    (c.act a).Ending id events := by
  obtain ⟨st, hst, hdetached, hr, hevents⟩ := h.exists_stream
  have hreach : ¬ a.Reaches c.store id := by
    cases a with
    | put key value => exact h.not_mem_subscribers key
    | delete key => exact h.not_mem_subscribers key
    | fail key text => exact h.not_mem_subscribers key
    | _ => exact fun hreach => hreach
  obtain ⟨st', h'⟩ := act_unreached hst hreach ha
  exact ⟨h.orderly.act a, st', h'.stream, h'.detached hdetached, h'.receiving_eq.trans hr,
    h'.delivered_eq.trans hevents⟩

theorem Ending.acts (h : c.Ending id events) {as : List (StoreAct V)} (has : ∀ a ∈ as, a.drops id = false) :
    (c.acts as).Ending id events := by
  induction as generalizing c with
  | nil => exact h
  | cons a as ih =>
    rw [List.forall_mem_cons] at has
    exact ih (h.act has.1) has.2

/-- A stream that is off the registry behind acts that offer it no event. -/
theorem ending_of_not_mem (ho : c.store.Orderly) (hst : c.store.streams[id]? = some st)
    (hr : st.queue.receiving = true) {as : List (StoreAct V)}
    (has : ∀ a ∈ as, (∀ s, ¬ a.Reaches s id) ∧ a.drops id = false)
    (hout : id ∉ (c.acts as).store.subscribers st.key) : (c.acts as).Ending id (c.delivered id st) := by
  obtain ⟨st', h⟩ := acts_unreached hst has
  obtain ⟨st'', hst'', hcontinues⟩ := continues_acts hst as
  obtain rfl := Option.some.inj (h.stream.symm.trans hst'')
  have ho' := orderly_acts ho as
  refine ⟨ho', st', h.stream, ?_, h.receiving_eq.trans hr, h.delivered_eq⟩
  rw [Bool.eq_false_iff]
  exact fun hattached => hout ((ho' st.key id).2 ⟨st', h.stream, hcontinues.key_eq, hattached⟩)

/-- In each of the three ways the store lets go of the stream, and of no event that was queued or parked. -/
theorem LetsGo.ending {ending : List (StoreAct V)} (h : c.LetsGo id st ending) (ho : c.store.Orderly)
    (hg : c.store.Guarded) (hst : c.store.streams[id]? = some st) (hr : st.queue.receiving = true) :
    (c.acts ending).Ending id (c.delivered id st) := by
  cases h with
  | close =>
    refine ending_of_not_mem ho hst hr (fun a ha => ?_) ?_
    · rw [List.mem_singleton.1 ha]
      exact ⟨fun _ hreach => hreach, rfl⟩
    · have hsubscribers : (c.store.close st.key).subscribers st.key = [] :=
        (Registry.get_set c.store.registry st.key st.key []).trans (if_pos rfl)
      rw [show (c.acts [.close st.key]).store = c.store.close st.key from rfl, hsubscribers]
      exact List.not_mem_nil
  | shutdown =>
    refine ending_of_not_mem ho hst hr (fun a ha => ?_) ?_
    · rw [List.mem_singleton.1 ha]
      exact ⟨fun _ hreach => hreach, rfl⟩
    · exact List.not_mem_nil
  | @cancel tokens _ hcancelled hturns hrest =>
    refine ending_of_not_mem ho hst hr (fun a ha => ?_) fun hid => ?_
    · have hturn := hturns a ha
      cases a with
      | flush i => exact ⟨fun _ hreach => hreach, rfl⟩
      | release cancelled i => exact ⟨fun _ hreach => hreach, rfl⟩
      | _ => exact hturn.elim
    · -- a guard task that still waits could go on
      obtain ⟨st', hst', -, hguarding⟩ := hg.acts ending st.key id hid
      obtain ⟨st'', hst'', hcontinues⟩ := continues_acts hst ending
      obtain rfl := Option.some.inj (hst'.symm.trans hst'')
      have hcancelled' : tokens.isCancelled st'.token = true := hcontinues.token_eq ▸ hcancelled
      simp [MemoryStore.release?, hst', hguarding, hcancelled'] at hrest

omit [Inhabited V] in
/-- The reader is told of the end exactly if it has taken all events, and gets the next one at rest. -/
theorem Ending.exists_rest (h : c.Ending id events) (hs : c.Sound capacity) (hpos : 0 < capacity) :
    ∃ rest, Log.taken id c.log ++ rest = events ∧ ((c.store.receive id).1 = .ended ↔ rest = []) ∧
      (c.store.flush? id = none → (c.store.receive id).1 = .next rest) := by
  obtain ⟨st, hst, hdetached, hr, hevents⟩ := h.exists_stream
  have hsound := hs.streams id st hst
  have hreceive : (c.store.receive id).1 = st.receive.1 := by rw [MemoryStore.receive, hst]
  refine ⟨st.ahead, hevents, ?_, fun hrest => ?_⟩
  · rw [hreceive]
    exact hsound.receive_eq_ended_iff hr hdetached
  · have hrest : st.flush? = none := by
      rw [MemoryStore.flush?, hst] at hrest
      cases hf : st.flush? with
      | none => rfl
      | some st' => simp [hf] at hrest
    rw [hreceive]
    exact hsound.receive_eq_next hpos hr hdetached hrest

/-- A reader that goes on comes to the end. -/
theorem Ending.drain (h : c.Ending id events) (hs : c.Sound capacity) (hpos : 0 < capacity) {n : Nat}
    (hn : events.length ≤ (Log.taken id c.log).length + n) :
    let d := c.acts (.flush id :: StoreAct.drain id n)
    Log.taken id d.log = events ∧ (d.store.receive id).1 = .ended := by
  intro d
  obtain ⟨st, hst, -, hr, hevents⟩ := h.exists_stream
  have hst' : (c.act (.flush id)).store.streams[id]? = some (st.flush?.getD st) := by
    refine (c.store.getElem?_flush? id id).trans ?_
    rw [hst, Option.map_some, if_pos rfl]
  obtain ⟨u, hu, hrest, hahead⟩ :=
    (hs.act (.flush id)).acts_drain hpos hst' (st.receiving_flush?.trans hr) st.flush?_flush? n
  have hnil : u.ahead = [] := by
    rw [hahead, st.ahead_flush?]
    refine List.drop_eq_nil_of_le ?_
    rw [← hevents, delivered, List.length_append] at hn
    omega
  -- the stream has not been let go of by its reader
  have hd : d.Ending id events := by
    refine h.acts fun a ha => ?_
    rcases List.mem_cons.1 ha with rfl | ha
    · rfl
    · have hdraining := StoreAct.isDraining_drain id n a ha
      cases a with
      | flush i => rfl
      | receive i => rfl
      | _ => exact hdraining.elim
  obtain ⟨st', hst', hdetached, hr', hevents'⟩ := hd.exists_stream
  obtain rfl : st' = u := Option.some.inj (hst'.symm.trans hu)
  rw [delivered, hnil, List.append_nil] at hevents'
  refine ⟨hevents', ?_⟩
  rw [MemoryStore.receive, hst']
  exact (((hs.acts _).streams id st' hst').receive_eq_ended_iff hr' hdetached).2 hnil

end Chronicle

/-- When the store lets go of a registered stream that is read, the reader gets the events that are queued and the one
that is parked, in this order, and no other, whatever happens later, and even if the key is subscribed again.  It is
told of the end as soon as it has taken these events, and not before; at rest it gets the next of them; and from
wherever it stands it has come to the end after so many receives. -/
theorem closed_stream_is_read_out (eventBuffer : Nat) (history : List (StoreAct V)) (id : Nat) (st : EventStream V) :
    let c := (Chronicle.opening eventBuffer).acts history
    c.store.streams[id]? = some st → id ∈ c.store.subscribers st.key → st.queue.receiving = true →
    ∀ ending, c.LetsGo id st ending → ∀ later, .dropReceiver id ∉ later →
      let d := c.acts (ending ++ later)
      ∃ got rest, got ++ rest = st.queue.items ++ st.parked.toList ∧
        Log.taken id d.log = Log.taken id c.log ++ got ∧
        ((d.store.receive id).1 = .ended ↔ rest = []) ∧
        (d.store.flush? id = none → (d.store.receive id).1 = .next rest) ∧
        ∀ n, rest.length ≤ n →
          let e := d.acts (.flush id :: StoreAct.drain id n)
          Log.taken id e.log = Log.taken id c.log ++ (st.queue.items ++ st.parked.toList) ∧
            (e.store.receive id).1 = .ended := by
  intro c hst hsub hr ending hending later hlater d
  have hpos : 0 < max eventBuffer 1 := by omega
  have hsound : c.Sound (max eventBuffer 1) := (Chronicle.Sound.opening eventBuffer).acts history
  have horderly : c.store.Orderly := Chronicle.orderly_acts (c := .opening eventBuffer) (.make eventBuffer) history
  have hguarded : c.store.Guarded :=
    MemoryStore.Guarded.acts (c := .opening eventBuffer) (.make eventBuffer) history
  have hacts : d = (c.acts ending).acts later := List.foldl_append
  have hd : d.Ending id (c.delivered id st) := by
    rw [hacts]
    refine (hending.ending horderly hguarded hst hr).acts fun a ha => ?_
    cases a with
    | dropReceiver i =>
      have hne : i ≠ id := by
        rintro rfl
        exact hlater ha
      simpa [StoreAct.drops] using hne
    | _ => rfl
  have hds : d.Sound (max eventBuffer 1) := hsound.acts (ending ++ later)
  obtain ⟨rest, hevents, hended, hnext⟩ := hd.exists_rest hds hpos
  obtain ⟨got, hgot⟩ := c.taken_prefix_acts (List.getElem?_eq_some_iff.1 hst).1 (ending ++ later)
  have hdelivered : got ++ rest = st.queue.items ++ st.parked.toList := by
    rw [← hgot, Chronicle.delivered, List.append_assoc, List.append_cancel_left_eq] at hevents
    exact hevents
  refine ⟨got, rest, hdelivered, hgot.symm, hended, hnext, fun n hn => ?_⟩
  refine hd.drain hds hpos ?_
  rw [← hevents, List.length_append]
  omega

/-- A stream with one event queued and one parked, whose token is cancelled: what is put later goes to a new
subscription of the key. -/
theorem cancelled_stream_is_read_out :
    let history : List (StoreAct Nat) := [.watch "k" [0], .put "k" 1, .put "k" 2]
    let later : List (StoreAct Nat) := [.put "k" 3, .watch "k" [1], .put "k" 4]
    let c := (Chronicle.opening 1).acts history
    let d := c.acts ([.release { fired := [[0]] } 0] ++ later)
    let e := d.acts (.flush 0 :: StoreAct.drain 0 2)
    Log.taken 0 e.log = [⟨1, "k", .put 1⟩, ⟨2, "k", .put 2⟩] ∧ (e.store.receive 0).1 = .ended := by
  intro history later c d e
  let st : EventStream Nat :=
    { key := "k", token := [0], queue := { capacity := 1, items := [⟨1, "k", .put 1⟩] },
      parked := some ⟨2, "k", .put 2⟩, flushing := true }
  have hst : c.store.streams[0]? = some st := by decide
  have hending : c.LetsGo 0 st [.release { fired := [[0]] } 0] := by
    have hcancelled : Tokens.isCancelled { fired := [[0]] } st.token = true := by decide
    refine .cancel hcancelled (fun a ha => ?_) rfl
    rw [List.mem_singleton.1 ha]
    rfl
  have hlater : .dropReceiver 0 ∉ later := by simp [later]
  obtain ⟨got, rest, hevents, -, -, -, hend⟩ := closed_stream_is_read_out 1 history 0 st hst (by decide) rfl _ hending
    later hlater
  have hrest : rest.length ≤ 2 := by
    have hlength := congrArg List.length hevents
    simp only [List.length_append, st, List.length_singleton, Option.toList_some] at hlength
    omega
  exact hend 2 hrest

end ResourceWatch

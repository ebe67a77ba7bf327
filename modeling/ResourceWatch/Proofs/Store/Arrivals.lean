import Mathlib.Data.List.Induction
import Mathlib.Data.List.Perm.Subperm
import ResourceWatch.Proofs.Store.Beside
import ResourceWatch.Proofs.Store.Draining

/-!
# Arrivals at a stream

An arrival is an event that is published on the key of a stream while that is registered and read, with what it finds
there: the parked event, if there is one, and whether the queue has room.  As long as the stream is read, what was
received from it with what is ahead are some of the arrived events in their order (`Chronicle.Receives`).  An event
that arrived is missing only if it was parked and gave way to a later arrival, or found a failure parked.

`delivered_in_order` says so of every stream in every history, up to where its receiver was let go of.
-/

namespace ResourceWatch

variable {V : Type}

/-! ### Arrivals -/

/-- An event and what it finds at the stream that it is offered to. -/
structure Arrival (V : Type) where
  event : Event V
  parked : Option (Event V)
  /-- The queue has room. -/
  room : Bool
deriving DecidableEq, Repr

/-- An event that finds nothing parked and no room is parked itself, and a flush task is started. -/
def Arrival.isParking (a : Arrival V) : Bool := a.parked.isNone && !a.room

namespace MemoryStore

/-- What an event finds at a stream, if that is registered for its key and read. -/
def arrival? (s : MemoryStore V) (id : Nat) (e : Event V) : Option (Arrival V) :=
  if id ∈ s.subscribers e.key then
    (s.streams[id]?.filter fun st => st.key = e.key ∧ st.queue.receiving).map fun st =>
      { event := e, parked := st.parked, room := st.queue.hasRoom }
  else none

/-- The arrivals at the stream as something is seen of the store. -/
def arrivals (s : MemoryStore V) (id : Nat) (seen : Log V) : List (Arrival V) :=
  seen.filterMap fun
    | .published e => s.arrival? id e
    | .opened _ | .taken _ _ => none

/-- Whether the act is the flush task of the stream going on. -/
def flushes (s : MemoryStore V) (id : Nat) : StoreAct V → Bool
  | .flush stream => stream = id ∧ (s.flush? id).isSome
  | _ => false

end MemoryStore

namespace Chronicle

variable [Inhabited V]

/-- The arrivals at the stream along a history. -/
def arrivals (c : Chronicle V) (id : Nat) : List (StoreAct V) → List (Arrival V)
  | [] => []
  | a :: history => c.store.arrivals id (c.store.act a).2 ++ (c.act a).arrivals id history

/-- How often the flush task of the stream goes on along a history. -/
def flushes (c : Chronicle V) (id : Nat) : List (StoreAct V) → Nat
  | [] => 0
  | a :: history => (if c.store.flushes id a then 1 else 0) + (c.act a).flushes id history

theorem acts_append_singleton (c : Chronicle V) (history : List (StoreAct V)) (a : StoreAct V) :
    c.acts (history ++ [a]) = (c.acts history).act a := List.foldl_append

theorem arrivals_append_singleton (c : Chronicle V) (id : Nat) (history : List (StoreAct V)) (a : StoreAct V) :
    c.arrivals id (history ++ [a]) =
      c.arrivals id history ++ (c.acts history).store.arrivals id ((c.acts history).store.act a).2 := by
  induction history generalizing c with
  | nil => exact List.append_nil _
  | cons b history ih =>
    rw [List.cons_append, arrivals, ih (c.act b), arrivals, List.append_assoc]
    rfl

theorem flushes_append_singleton (c : Chronicle V) (id : Nat) (history : List (StoreAct V)) (a : StoreAct V) :
    c.flushes id (history ++ [a]) =
      c.flushes id history + if (c.acts history).store.flushes id a then 1 else 0 := by
  induction history generalizing c with
  | nil => exact Nat.add_comm _ 0
  | cons b history ih =>
    rw [List.cons_append, flushes, ih (c.act b), flushes, Nat.add_assoc]
    rfl

end Chronicle

/-! ### What an offer passes over -/

namespace EventStream

variable {st : EventStream V} {passed : List (Event V)} {e x : Event V}

/-- The event comes behind the others, or takes the place of the parked one unless that is a failure. -/
theorem ahead_offer_cases (hr : st.queue.receiving = true) (e : Event V) :
    (∃ p, st.parked = some p ∧ st.ahead = st.queue.items ++ [p] ∧
      (st.offer e).ahead = st.queue.items ++ [supersede p e]) ∨ (st.offer e).ahead = st.ahead ++ [e] := by
  rcases offer_cases e hr with ⟨p, hp, heq⟩ | ⟨hp, -, heq⟩ | ⟨hp, -, heq⟩
  · exact Or.inl ⟨p, hp, by simp [ahead, hp], by simp [ahead, heq]⟩
  · exact Or.inr (by simp [ahead, heq, hp])
  · exact Or.inr (by simp [ahead, heq, hp])

/-- An event that an offer takes away was parked, and is no failure. -/
theorem parked_of_lost (hr : st.queue.receiving = true) (hbefore : x ∈ passed ++ st.ahead)
    (hafter : x ∉ passed ++ (st.offer e).ahead) : st.parked = some x ∧ x.kind.isError = false := by
  rcases ahead_offer_cases hr e with ⟨p, hp, hst, hoffer⟩ | hoffer
  · rw [hoffer, ← List.append_assoc, List.mem_append, List.mem_singleton, not_or] at hafter
    rw [hst, ← List.append_assoc, List.mem_append, List.mem_singleton] at hbefore
    obtain rfl : x = p := hbefore.resolve_left hafter.1
    refine ⟨hp, ?_⟩
    rw [← Bool.not_eq_true]
    intro herror
    exact hafter.2 (by rw [supersede, if_pos herror])
  · rw [hoffer, ← List.append_assoc] at hafter
    exact absurd (List.mem_append_left _ hbefore) hafter

/-- An event that is offered and not taken found a failure parked. -/
theorem parked_of_refused (hr : st.queue.receiving = true) (hafter : e ∉ passed ++ (st.offer e).ahead) :
    ∃ p, st.parked = some p ∧ p.kind.isError = true := by
  rcases ahead_offer_cases hr e with ⟨p, hp, -, hoffer⟩ | hoffer
  · refine ⟨p, hp, ?_⟩
    by_contra hvalue
    exact hafter (by simp [hoffer, supersede, hvalue])
  · exact absurd (by simp [hoffer]) hafter

end EventStream

/-! ### A stream that is read -/

/-- Why an arrived event is not delivered: it was parked and a later one took its place, or a failure was parked. -/
def IsPassedOver (arrivals : List (Arrival V)) (e : Event V) : Prop :=
  (∃ a ∈ arrivals, a.parked = some e ∧ e.kind.isError = false ∧ e.id < a.event.id) ∨
    ∃ a ∈ arrivals, a.event = e ∧ ∃ p, a.parked = some p ∧ p.kind.isError = true

theorem IsPassedOver.append {arrivals : List (Arrival V)} {e : Event V} (h : IsPassedOver arrivals e)
    (later : List (Arrival V)) : IsPassedOver (arrivals ++ later) e := by
  rcases h with ⟨a, ha, h⟩ | ⟨a, ha, h⟩
  · exact Or.inl ⟨a, List.mem_append_left _ ha, h⟩
  · exact Or.inr ⟨a, List.mem_append_left _ ha, h⟩

/-- The stream `st` is read.  What it delivered are some of the events that arrived, which have its key and ascending
indices; the others were passed over.  The tasks that were started and have not gone on are the one that it needs. -/
structure Chronicle.Receives (id : Nat) (arrivals : List (Arrival V)) (flushes : Nat) (c : Chronicle V)
    (st : EventStream V) : Prop where
  tracks : Tracks (arrivals.map (·.event)) (c.delivered id st)
  ascending : (arrivals.map (·.event)).Pairwise fun e f => e.id < f.id
  known : ∀ a ∈ arrivals, a.event.id ≤ c.store.revision
  keyed : ∀ a ∈ arrivals, a.event.key = st.key
  passedOver : ∀ a ∈ arrivals, a.event ∉ c.delivered id st → IsPassedOver arrivals a.event
  tasks : arrivals.countP (·.isParking) = flushes + if st.parked.isSome then 1 else 0

namespace Chronicle.Receives

variable {id : Nat} {arrivals : List (Arrival V)} {flushes : Nat} {c : Chronicle V} {st : EventStream V}

theorem ascending_delivered (h : c.Receives id arrivals flushes st) :
    (c.delivered id st).Pairwise fun e f => e.id < f.id := h.ascending.sublist h.tracks.sublist

theorem key_delivered (h : c.Receives id arrivals flushes st) : ∀ e ∈ c.delivered id st, e.key = st.key := by
  intro e he
  obtain ⟨a, ha, rfl⟩ := List.mem_map.1 (h.tracks.sublist.subset he)
  exact h.keyed a ha

/-- Where no arrival finds anything parked, all are delivered. -/
theorem delivered_eq (h : c.Receives id arrivals flushes st) (hnone : ∀ a ∈ arrivals, a.parked = none) :
    c.delivered id st = arrivals.map (·.event) := by
  have hall : arrivals.map (·.event) ⊆ c.delivered id st := by
    intro e he
    obtain ⟨a, ha, rfl⟩ := List.mem_map.1 he
    by_contra hmissing
    rcases h.passedOver a ha hmissing with ⟨b, hb, hparked, -⟩ | ⟨b, hb, -, p, hparked, -⟩
    · simp [hnone b hb] at hparked
    · simp [hnone b hb] at hparked
  have hnodup : (arrivals.map (·.event)).Nodup := h.ascending.imp fun hlt heq => by simp [heq] at hlt
  exact h.tracks.sublist.eq_of_length_le (List.subperm_of_subset hnodup hall).length_le

/-- Nothing arrives: what was delivered stays the same, and an event is parked as long as its task is to go on. -/
theorem of_same (h : c.Receives id arrivals flushes st) {c' : Chronicle V} {st' : EventStream V} {flushes' : Nat}
    (hrevision : c.store.revision ≤ c'.store.revision) (hkey : st'.key = st.key)
    (hdelivered : c'.delivered id st' = c.delivered id st)
    (htasks : (flushes' + if st'.parked.isSome then 1 else 0) = flushes + if st.parked.isSome then 1 else 0) :
    c'.Receives id arrivals flushes' st' where
  tracks := by rw [hdelivered]; exact h.tracks
  ascending := h.ascending
  known := fun a ha => Nat.le_trans (h.known a ha) hrevision
  keyed := by rw [hkey]; exact h.keyed
  passedOver := by rw [hdelivered]; exact h.passedOver
  tasks := by rw [htasks]; exact h.tasks

/-- An event arrives. -/
theorem arrive (h : c.Receives id arrivals flushes st) (hr : st.queue.receiving = true) {c' : Chronicle V}
    {e : Event V} (hid : c.store.revision < e.id) (hrevision : c'.store.revision = e.id) (hkey : e.key = st.key)
    (htaken : Log.taken id c'.log = Log.taken id c.log) :
    c'.Receives id (arrivals ++ [⟨e, st.parked, st.queue.hasRoom⟩]) flushes (st.offer e) := by
  let arrival : Arrival V := ⟨e, st.parked, st.queue.hasRoom⟩
  have hmap : (arrivals ++ [arrival]).map (·.event) = arrivals.map (·.event) ++ [e] := List.map_append
  have hdelivered : c'.delivered id (st.offer e) = Log.taken id c.log ++ (st.offer e).ahead := by
    rw [delivered, htaken]
  refine ⟨?_, ?_, ?_, ?_, ?_, ?_⟩
  · rw [hmap, hdelivered]
    exact h.tracks.offer hr e
  · rw [hmap, List.pairwise_append]
    refine ⟨h.ascending, List.pairwise_singleton _ _, fun f hf g hg => ?_⟩
    obtain ⟨a, ha, rfl⟩ := List.mem_map.1 hf
    rw [List.mem_singleton.1 hg]
    have := h.known a ha
    omega
  · intro a ha
    rcases List.mem_append.1 ha with ha | ha
    · have := h.known a ha
      omega
    · exact Nat.le_of_eq (by rw [List.mem_singleton.1 ha, hrevision])
  · intro a ha
    rw [EventStream.key_offer]
    rcases List.mem_append.1 ha with ha | ha
    · exact h.keyed a ha
    · rw [List.mem_singleton.1 ha]
      exact hkey
  · intro a ha hmissing
    rw [hdelivered] at hmissing
    rcases List.mem_append.1 ha with ha | ha
    · by_cases hmem : a.event ∈ c.delivered id st
      · -- it was parked, and `e` took its place
        obtain ⟨hparked, hvalue⟩ := EventStream.parked_of_lost hr hmem hmissing
        have hlt : a.event.id < e.id := by
          have := h.known a ha
          omega
        exact Or.inl ⟨arrival, List.mem_append_right _ (List.mem_singleton_self _), hparked, hvalue, hlt⟩
      · exact (h.passedOver a ha hmem).append _
    · obtain rfl : a = arrival := List.mem_singleton.1 ha
      have herror := EventStream.parked_of_refused hr hmissing
      exact Or.inr ⟨arrival, List.mem_append_right _ (List.mem_singleton_self _), rfl, herror⟩
  · rw [List.countP_append, h.tasks, List.countP_singleton]
    rcases EventStream.offer_cases e hr with ⟨p, hp, heq⟩ | ⟨hp, hroom, heq⟩ | ⟨hp, hroom, heq⟩
    · simp [heq, hp, Arrival.isParking]
    · simp [heq, hp, hroom, Arrival.isParking]
    · simp [heq, hp, hroom, Arrival.isParking]

end Chronicle.Receives

/-! ### The acts -/

namespace MemoryStore

variable {s : MemoryStore V} {id : Nat} {st : EventStream V}

theorem arrival?_eq_some {e : Event V} (hst : s.streams[id]? = some st) (hid : id ∈ s.subscribers e.key)
    (hkey : st.key = e.key) (hr : st.queue.receiving = true) :
    s.arrival? id e = some ⟨e, st.parked, st.queue.hasRoom⟩ := by
  rw [arrival?, if_pos hid, hst, Option.filter_some, if_pos (by simp [hkey, hr]), Option.map_some]

theorem arrivals_eq_nil_of_none (hnone : s.streams[id]? = none) (seen : Log V) : s.arrivals id seen = [] := by
  refine List.filterMap_eq_nil_iff.2 fun o _ => ?_
  cases o with
  | published e => simp [arrival?, hnone]
  | opened stream => rfl
  | taken stream e => rfl

theorem arrivals_eq_nil_of_gone (hst : s.streams[id]? = some st) (hgone : st.queue.receiving = false) (seen : Log V) :
    s.arrivals id seen = [] := by
  refine List.filterMap_eq_nil_iff.2 fun o _ => ?_
  cases o with
  | published e => simp [arrival?, hst, hgone]
  | opened stream => rfl
  | taken stream e => rfl

/-- Nothing is taken from a stream that is there and has nothing queued. -/
theorem taken_act [Inhabited V] (hst : s.streams[id]? = some st) (hempty : st.queue.items = []) (a : StoreAct V)
    (log : Log V) : Log.taken id ((s.act a).2 ++ log) = Log.taken id log := by
  cases a with
  | delete key => exact s.taken_delete key log id
  | watch key token =>
    simp only [act]
    cases hw : s.watch key token with
    | error e => rfl
    | ok granted =>
      obtain ⟨new, t⟩ := granted
      obtain ⟨rfl, -⟩ := watch_ok hw
      exact if_neg (Nat.ne_of_gt (List.getElem?_eq_some_iff.1 hst).1)
  | receive stream =>
    by_cases hid : stream = id
    · subst hid
      have hnone : ∀ e, (s.receive stream).1 ≠ .item e := by
        intro e he
        simp only [receive, hst] at he
        have := EventStream.receive_item he
        simp only [EventStream.receive, Queue.receive, hempty] at he
        cases hopen : st.isOpen <;> simp [hopen] at he
      have htaking : s.taking stream = [] := by
        unfold taking
        split
        · rename_i e he
          exact absurd he (hnone e)
        · rfl
      rw [act, htaking, List.nil_append]
    · exact s.taken_taking_of_ne hid log
  | _ => rfl

theorem arrivals_taking (s : MemoryStore V) (stream id : Nat) : s.arrivals id (s.taking stream) = [] := by
  unfold taking
  split <;> rfl

theorem flushes_eq_false_of_none (hnone : s.streams[id]? = none) (a : StoreAct V) : s.flushes id a = false := by
  cases a with
  | flush stream => simp [flushes, flush?, hnone]
  | _ => rfl

theorem revision_flush? (s : MemoryStore V) (id : Nat) : ((s.flush? id).getD s).revision = s.revision := by
  unfold flush?
  cases s.streams[id]? with
  | none => rfl
  | some st => cases hf : st.flush? <;> simp [hf]

theorem revision_receive (s : MemoryStore V) (id : Nat) : (s.receive id).2.revision = s.revision := by
  unfold receive
  split <;> rfl

theorem revision_release? (s : MemoryStore V) (tokens : Tokens) (id : Nat) :
    ((s.release? tokens id).getD s).revision = s.revision := by
  rcases s.release?_cases tokens id with heq | ⟨key, heq⟩
  · rw [heq]
  · rw [heq]
    rfl

end MemoryStore

namespace Chronicle

variable [Inhabited V] {c : Chronicle V} {id capacity : Nat} {st : EventStream V}

/-- A stream that was not there before an act was opened by it. -/
theorem act_of_none (hnone : c.store.streams[id]? = none) (a : StoreAct V)
    (hst : (c.act a).store.streams[id]? = some st) :
    st.queue.receiving = true ∧ st.ahead = [] ∧ st.parked = none ∧ Log.taken id (c.act a).log = [] := by
  obtain ⟨s, log⟩ := c
  replace hst : (s.act a).1.streams[id]? = some st := hst
  replace hnone : s.streams[id]? = none := hnone
  cases a with
  | put key value =>
    have := hst.symm.trans (MemoryStore.getElem?_publish { s with values := s.values.put key value } key _ id)
    simp [hnone] at this
  | delete key =>
    simp only [MemoryStore.act, MemoryStore.delete] at hst
    cases hvalue : s.values.lookup key with
    | none => simp [hvalue, hnone] at hst
    | some v =>
      simp only [hvalue] at hst
      have := hst.symm.trans (MemoryStore.getElem?_publish { s with values := s.values.erase key } key _ id)
      simp [hnone] at this
  | fail key text =>
    have := hst.symm.trans (s.getElem?_publish key _ id)
    simp [hnone] at this
  | close key =>
    have := hst.symm.trans (s.getElem?_updateStreams (s.subscribers key) EventStream.detach id)
    simp [hnone] at this
  | shutdown =>
    have := hst.symm.trans (s.getElem?_updateStreams _ EventStream.detach id)
    simp [hnone] at this
  | watch key token =>
    simp only [Chronicle.act, MemoryStore.act] at hst ⊢
    cases hw : s.watch key token with
    | error e => simp [hw, hnone] at hst
    | ok granted =>
      obtain ⟨new, t⟩ := granted
      obtain ⟨rfl, -, -, ⟨queue, hq, hstreams⟩, -⟩ := MemoryStore.watch_ok hw
      obtain ⟨-, rfl⟩ := Queue.eq_of_make? hq
      have hge : s.streams.length ≤ id := List.getElem?_eq_none_iff.1 hnone
      simp only [hw, hstreams, List.getElem?_append_right hge, List.getElem?_singleton] at hst
      split at hst
      · rename_i hid
        rw [Option.some.injEq] at hst
        subst hst
        have hid : id = s.streams.length := by omega
        exact ⟨rfl, rfl, rfl, if_pos hid.symm⟩
      · simp at hst
  | release tokens i =>
    simp only [MemoryStore.act] at hst
    rcases s.release?_cases tokens i with heq | ⟨key, heq⟩
    · simp [heq, hnone] at hst
    · rw [heq] at hst
      have := hst.symm.trans (s.getElem?_updateStreams [i] _ id)
      simp [hnone] at this
  | flush i =>
    have := hst.symm.trans (s.getElem?_flush? i id)
    simp [hnone] at this
  | receive i =>
    have := hst.symm.trans (s.getElem?_receive i id)
    simp [hnone] at this
  | dropReceiver i =>
    have := hst.symm.trans (s.getElem?_dropReceiver i id)
    simp [hnone] at this

namespace Receives

variable {arrivals : List (Arrival V)} {flushes : Nat} {s : MemoryStore V} {log : Log V}

omit [Inhabited V] in
/-- An event is published, on the key of the stream or on another. -/
theorem publish (h : Chronicle.Receives id arrivals flushes ⟨s, log⟩ st) (hs : Chronicle.Sound capacity ⟨s, log⟩)
    (hst : s.streams[id]? = some st) (hr : st.queue.receiving = true) (key : String) (kind : EventKind V)
    (values : Dictionary String V) :
    let e : Event V := ⟨s.revision + 1, key, kind⟩
    let s' := ({ s with values }.publish key kind).2
    ∃ st', s'.streams[id]? = some st' ∧
      Chronicle.Receives id (arrivals ++ s.arrivals id [.published e]) flushes ⟨s', .published e :: log⟩ st' := by
  intro e s'
  have hst' : s'.streams[id]? = some (if id ∈ s.subscribers key then st.offer e else st) := by
    refine (MemoryStore.getElem?_publish { s with values } key kind id).trans ?_
    simp only [hst, Option.map_some]
    rfl
  refine ⟨_, hst', ?_⟩
  by_cases hid : id ∈ s.subscribers key
  · obtain ⟨st₀, hst₀, hkey⟩ := hs.registered key id hid
    obtain rfl : st = st₀ := Option.some.inj (hst.symm.trans hst₀)
    have harrivals : s.arrivals id [.published e] = [⟨e, st.parked, st.queue.hasRoom⟩] := by
      have hsome : s.arrival? id e = some ⟨e, st.parked, st.queue.hasRoom⟩ :=
        MemoryStore.arrival?_eq_some hst hid hkey hr
      simp [MemoryStore.arrivals, hsome]
    rw [if_pos hid, harrivals]
    exact h.arrive hr (Nat.lt_succ_self s.revision) rfl hkey.symm rfl
  · have harrivals : s.arrivals id [.published e] = [] := by
      simp [MemoryStore.arrivals, MemoryStore.arrival?, e, hid]
    rw [if_neg hid, harrivals, List.append_nil]
    exact h.of_same (Nat.le_succ _) rfl rfl rfl

omit [Inhabited V] in
/-- Streams let go of their sending ends. -/
theorem detach (h : Chronicle.Receives id arrivals flushes ⟨s, log⟩ st) (s' : MemoryStore V) {ids : List Nat}
    {f : EventStream V → EventStream V} (hst : s.streams[id]? = some st)
    (hstreams : s'.streams = (s.updateStreams ids f).streams) (hrevision : s'.revision = s.revision)
    (hkey : (f st).key = st.key) (hahead : (f st).ahead = st.ahead) (hparked : (f st).parked = st.parked) :
    ∃ st', s'.streams[id]? = some st' ∧ Chronicle.Receives id arrivals flushes ⟨s', log⟩ st' := by
  refine ⟨if id ∈ ids then f st else st, ?_, ?_⟩
  · rw [hstreams, s.getElem?_updateStreams, hst, Option.map_some]
  · split
    · refine h.of_same (Nat.le_of_eq hrevision.symm) hkey ?_ (by rw [hparked])
      unfold delivered
      rw [hahead]
    · exact h.of_same (Nat.le_of_eq hrevision.symm) rfl rfl rfl

/-- Every act keeps what is known of a stream, if that is still read behind it. -/
theorem act (h : c.Receives id arrivals flushes st) (hs : c.Sound capacity) (hst : c.store.streams[id]? = some st)
    (hr : st.queue.receiving = true) (a : StoreAct V) :
    ∃ st', (c.act a).store.streams[id]? = some st' ∧
      (st'.queue.receiving = true → (c.act a).Receives id (arrivals ++ c.store.arrivals id (c.store.act a).2)
        (flushes + if c.store.flushes id a then 1 else 0) st') := by
  obtain ⟨s, log⟩ := c
  replace hst : s.streams[id]? = some st := hst
  have hnothing : s.arrivals id [] = [] := rfl
  cases a with
  | put key value =>
    obtain ⟨st', hst', h'⟩ := h.publish hs hst hr key (.put value) (s.values.put key value)
    exact ⟨st', hst', fun _ => h'⟩
  | delete key =>
    simp only [Chronicle.act, MemoryStore.act, MemoryStore.delete]
    cases s.values.lookup key with
    | none => exact ⟨st, hst, fun _ => by rw [hnothing, List.append_nil]; exact h⟩
    | some v =>
      obtain ⟨st', hst', h'⟩ := h.publish hs hst hr key (.delete default) (s.values.erase key)
      exact ⟨st', hst', fun _ => h'⟩
  | fail key text =>
    obtain ⟨st', hst', h'⟩ := h.publish hs hst hr key (.error text) s.values
    exact ⟨st', hst', fun _ => h'⟩
  | close key =>
    obtain ⟨st', hst', h'⟩ := h.detach (s.close key) hst rfl rfl rfl rfl rfl
    exact ⟨st', hst', fun _ => by rw [MemoryStore.act, hnothing, List.append_nil]; exact h'⟩
  | shutdown =>
    obtain ⟨st', hst', h'⟩ := h.detach s.shutdown hst rfl rfl rfl rfl rfl
    exact ⟨st', hst', fun _ => by rw [MemoryStore.act, hnothing, List.append_nil]; exact h'⟩
  | watch key token =>
    simp only [Chronicle.act, MemoryStore.act]
    cases hw : s.watch key token with
    | error e => exact ⟨st, hst, fun _ => by rw [hnothing, List.append_nil]; exact h⟩
    | ok granted =>
      obtain ⟨new, t⟩ := granted
      have hrevision : t.revision = s.revision := by
        unfold MemoryStore.watch at hw
        split at hw
        · simp at hw
        · split at hw
          · simp at hw
          · rw [Except.ok.injEq, Prod.mk.injEq] at hw
            rw [← hw.2]
      obtain ⟨rfl, -, -, ⟨queue, -, hstreams⟩, -⟩ := MemoryStore.watch_ok hw
      have hid : id < s.streams.length := (List.getElem?_eq_some_iff.1 hst).1
      have hne : s.streams.length ≠ id := Nat.ne_of_gt hid
      refine ⟨st, by simp only [hstreams, List.getElem?_append_left hid, hst], fun _ => ?_⟩
      have hopened : s.arrivals id [.opened s.streams.length] = [] := rfl
      rw [hopened, List.append_nil]
      refine h.of_same (Nat.le_of_eq hrevision.symm) rfl ?_ rfl
      exact congrArg (· ++ st.ahead) (if_neg hne)
  | release tokens i =>
    simp only [Chronicle.act, MemoryStore.act]
    rw [hnothing, List.append_nil]
    rcases s.release?_cases tokens i with heq | ⟨key, heq⟩
    · rw [heq]
      exact ⟨st, hst, fun _ => h⟩
    · obtain ⟨st', hst', h'⟩ := h.detach ((s.release? tokens i).getD s) hst (by rw [heq])
        (s.revision_release? tokens i) rfl rfl rfl
      exact ⟨st', hst', fun _ => h'⟩
  | flush i =>
    refine ⟨if i = id then st.flush?.getD st else st, (s.getElem?_flush? i id).trans (by rw [hst]; rfl), fun _ => ?_⟩
    rw [MemoryStore.act, hnothing, List.append_nil]
    by_cases hi : i = id
    · subst hi
      have hsome : (s.flush? i).isSome = st.flush?.isSome := by
        cases hf : st.flush? <;> simp [MemoryStore.flush?, hst, hf]
      rw [if_pos rfl]
      refine h.of_same (Nat.le_of_eq (s.revision_flush? i).symm) st.key_flush? ?_ ?_
      · unfold delivered
        rw [st.ahead_flush?]
        rfl
      · -- the task that goes on is the one that the parked event needs
        cases hf : st.flush? with
        | none => simp [MemoryStore.flushes, hsome, hf]
        | some t =>
          have hparked : st.parked.isSome = true := by
            have hflushing := (hs.streams i st hst).flushing_eq hr
            rw [← hflushing]
            unfold EventStream.flush? at hf
            by_contra hidle
            simp [hidle] at hf
          have hparked' : t.parked.isSome = false := by
            have ht := (EventStream.flush?_cases hf).2.2.2 capacity (hs.streams i st hst)
            rw [← ht.flushing_eq ((EventStream.flush?_cases hf).2.1.trans hr)]
            exact (EventStream.flush?_cases hf).2.2.1
          simp [MemoryStore.flushes, hsome, hf, hparked, hparked']
    · rw [if_neg hi]
      refine h.of_same (Nat.le_of_eq (s.revision_flush? i).symm) rfl rfl ?_
      simp [MemoryStore.flushes, hi]
  | receive i =>
    refine ⟨if i = id then st.receive.2 else st, (s.getElem?_receive i id).trans (by rw [hst]; rfl), fun _ => ?_⟩
    have harrivals : s.arrivals id (s.act (.receive i)).2 = [] := s.arrivals_taking i id
    have hkey : (if i = id then st.receive.2 else st).key = st.key := by split <;> rfl
    have hparked : (if i = id then st.receive.2 else st).parked = st.parked := by split <;> rfl
    rw [harrivals, List.append_nil]
    exact h.of_same (Nat.le_of_eq (s.revision_receive i).symm) hkey (s.taken_taking i log hst) (by rw [hparked]; rfl)
  | dropReceiver i =>
    refine ⟨if i = id then st.drop else st, (s.getElem?_dropReceiver i id).trans (by rw [hst]; rfl), fun hr' => ?_⟩
    have hi : i ≠ id := by
      rintro rfl
      simp [EventStream.drop, Queue.drop] at hr'
    rw [MemoryStore.act, hnothing, List.append_nil, if_neg hi]
    exact h.of_same (Nat.le_refl _) rfl rfl rfl

end Receives

/-! ### Histories -/

/-- Nothing arrives at a stream before it is opened, and from then on it receives, as long as it is read. -/
theorem receives_acts (eventBuffer : Nat) (id : Nat) (history : List (StoreAct V)) :
    let opening : Chronicle V := .opening eventBuffer
    let c := opening.acts history
    (c.store.streams[id]? = none → opening.arrivals id history = [] ∧ opening.flushes id history = 0) ∧
    ∀ st, c.store.streams[id]? = some st → st.queue.receiving = true →
      c.Receives id (opening.arrivals id history) (opening.flushes id history) st := by
  induction history using List.reverseRecOn with
  | nil => exact ⟨fun _ => ⟨rfl, rfl⟩, fun st hst => by simp [acts, opening, MemoryStore.make] at hst⟩
  | append_singleton history a ih =>
    intro opening c
    obtain ⟨hbefore, hread⟩ := ih
    have hsound : (opening.acts history).Sound (max eventBuffer 1) := (Sound.opening eventBuffer).acts history
    simp only [c, acts_append_singleton, arrivals_append_singleton, flushes_append_singleton]
    cases hst : (opening.acts history).store.streams[id]? with
    | none =>
      obtain ⟨harrivals, hflushes⟩ := hbefore hst
      rw [harrivals, hflushes, MemoryStore.arrivals_eq_nil_of_none hst, MemoryStore.flushes_eq_false_of_none hst]
      refine ⟨fun _ => ⟨rfl, rfl⟩, fun st' hst' _ => ?_⟩
      obtain ⟨-, hahead, hparked, htaken⟩ := act_of_none hst a hst'
      have hdelivered : delivered ((opening.acts history).act a) id st' = [] := by rw [delivered, htaken, hahead]; rfl
      exact ⟨by rw [hdelivered]; exact Tracks.nil, .nil, fun b hb => absurd hb List.not_mem_nil,
        fun b hb => absurd hb List.not_mem_nil, fun b hb => absurd hb List.not_mem_nil, by rw [hparked]; rfl⟩
    | some st =>
      refine ⟨fun hnone => ?_, fun st' hst' hr' => ?_⟩
      · obtain ⟨st', hst', -⟩ := MemoryStore.continues_act hst a
        exact absurd (hst'.symm.trans hnone) (by simp)
      · obtain ⟨st'', hst'', hcontinues⟩ := MemoryStore.continues_act hst a
        obtain rfl : st' = st'' := Option.some.inj (hst'.symm.trans hst'')
        have hr : st.queue.receiving = true := (Bool.and_eq_true_iff.1 (hcontinues.receiving_eq.symm.trans hr')).1
        obtain ⟨st'', hst'', hkept⟩ := (hread st hst hr).act hsound hst hr a
        obtain rfl : st' = st'' := Option.some.inj (hst'.symm.trans hst'')
        exact hkept hr'

/-- Where a receiver is gone it was let go of at some point, and nothing arrived or was taken behind that. -/
theorem exists_of_gone (eventBuffer : Nat) (id : Nat) (history : List (StoreAct V)) (st : EventStream V) :
    let opening : Chronicle V := .opening eventBuffer
    (opening.acts history).store.streams[id]? = some st →
    (st.queue.receiving = false → st.queue.items = []) ∧
    (st.queue.receiving = false → ∃ before after st₀, history = before ++ .dropReceiver id :: after ∧
      (opening.acts before).store.streams[id]? = some st₀ ∧ st₀.key = st.key ∧ st₀.queue.receiving = true ∧
      opening.arrivals id history = opening.arrivals id before ∧
      Log.taken id (opening.acts history).log = Log.taken id (opening.acts before).log) := by
  induction history using List.reverseRecOn generalizing st with
  | nil => exact fun hst => by simp [acts, opening, MemoryStore.make] at hst
  | append_singleton history a ih =>
    intro opening hst'
    simp only [acts_append_singleton, arrivals_append_singleton] at hst' ⊢
    cases hst : (opening.acts history).store.streams[id]? with
    | none =>
      have hr := (act_of_none hst a hst').1
      exact ⟨fun hgone => by simp [hr] at hgone, fun hgone => by simp [hr] at hgone⟩
    | some st₁ =>
      obtain ⟨st'', hst'', hcontinues⟩ := MemoryStore.continues_act hst a
      obtain rfl : st = st'' := Option.some.inj (hst'.symm.trans hst'')
      obtain ⟨hempty, hsplit⟩ := ih st₁ hst
      refine ⟨hcontinues.empty hempty, fun hgone => ?_⟩
      cases hr : st₁.queue.receiving with
      | false =>
        obtain ⟨before, after, st₀, rfl, hst₀, hkey, hr₀, harrivals, htaken⟩ := hsplit hr
        refine ⟨before, after ++ [a], st₀, by simp, hst₀, hkey.trans hcontinues.key_eq.symm, hr₀, ?_, ?_⟩
        · rw [MemoryStore.arrivals_eq_nil_of_gone hst hr, List.append_nil, harrivals]
        · exact (MemoryStore.taken_act hst (hempty hr) a _).trans htaken
      | true =>
        have hdrops : a.drops id = true := by
          have := hcontinues.receiving_eq
          simpa [hr, hgone] using this
        obtain rfl : a = .dropReceiver id := by
          cases a with
          | dropReceiver i => simpa [StoreAct.drops] using hdrops
          | _ => simp [StoreAct.drops] at hdrops
        refine ⟨history, [], st₁, rfl, hst, hcontinues.key_eq.symm, hr, ?_, rfl⟩
        exact List.append_nil _

end Chronicle

/-- As long as a stream is read, what was received from it with what is ahead are some of the events that arrived,
with ascending indices and the key of the stream.  The queue keeps to its capacity, and of the flush tasks that were
started one is still to go on if an event is parked, and none otherwise.  An event is missing only if it was parked
and a later one took its place, or if it found a failure parked; where no event found anything parked, none is
missing.  Once the receiver is gone, nothing arrives and nothing is received any more. -/
theorem delivered_in_order [Inhabited V] (eventBuffer : Nat) (history : List (StoreAct V)) (id : Nat)
    (st : EventStream V) : let opening : Chronicle V := .opening eventBuffer
    (opening.acts history).store.streams[id]? = some st →
    ∃ (lived : List (StoreAct V)) (st₀ : EventStream V),
      let c := opening.acts lived
      let arrivals := opening.arrivals id lived
      let delivered := c.delivered id st₀
      c.store.streams[id]? = some st₀ ∧ st₀.key = st.key ∧ st₀.queue.receiving = true ∧
      (st.queue.receiving = true → lived = history ∧ st₀ = st) ∧
      (st.queue.receiving = false → ∃ after, history = lived ++ .dropReceiver id :: after) ∧
      opening.arrivals id history = arrivals ∧ Log.taken id (opening.acts history).log = Log.taken id c.log ∧
      delivered.Sublist (arrivals.map (·.event)) ∧ delivered.Pairwise (fun e f => e.id < f.id) ∧
      (∀ e ∈ delivered, e.key = st.key) ∧
      st₀.queue.items.length ≤ max 1 eventBuffer ∧ st₀.flushing = st₀.parked.isSome ∧
      arrivals.countP (·.isParking) = opening.flushes id lived + (if st₀.parked.isSome then 1 else 0) ∧
      (∀ a ∈ arrivals, a.event ∉ delivered → IsPassedOver arrivals a.event) ∧
      ((∀ a ∈ arrivals, a.parked = none) → delivered = arrivals.map (·.event)) := by
  intro opening hst
  obtain ⟨lived, st₀, hst₀, hkey, hr₀, hlive, hgone, harrivals, htaken⟩ :
      ∃ (lived : List (StoreAct V)) (st₀ : EventStream V), (opening.acts lived).store.streams[id]? = some st₀ ∧
        st₀.key = st.key ∧ st₀.queue.receiving = true ∧ (st.queue.receiving = true → lived = history ∧ st₀ = st) ∧
        (st.queue.receiving = false → ∃ after, history = lived ++ .dropReceiver id :: after) ∧
        opening.arrivals id history = opening.arrivals id lived ∧
        Log.taken id (opening.acts history).log = Log.taken id (opening.acts lived).log := by
    cases hr : st.queue.receiving with
    | true => exact ⟨history, st, hst, rfl, hr, fun _ => ⟨rfl, rfl⟩, fun h => by simp at h, rfl, rfl⟩
    | false =>
      obtain ⟨before, after, st₀, hsplit, hst₀, hkey, hr₀, harrivals, htaken⟩ :=
        (Chronicle.exists_of_gone eventBuffer id history st hst).2 hr
      exact ⟨before, st₀, hst₀, hkey, hr₀, fun h => by simp at h, fun _ => ⟨after, hsplit⟩, harrivals, htaken⟩
  have h := (Chronicle.receives_acts eventBuffer id lived).2 st₀ hst₀ hr₀
  have hsound := ((Chronicle.Sound.opening eventBuffer).acts lived).streams id st₀ hst₀
  refine ⟨lived, st₀, hst₀, hkey, hr₀, hlive, hgone, harrivals, htaken, h.tracks.sublist, h.ascending_delivered, ?_,
    ?_, hsound.flushing_eq hr₀, h.tasks, h.passedOver, h.delivered_eq⟩
  · rw [← hkey]
    exact h.key_delivered
  · rw [Nat.max_comm]
    exact hsound.length_le

/-- With room for one event: the second value gives way to the third, and the fourth finds a failure parked. -/
theorem delivered_in_order_behind_failure :
    let history : List (StoreAct Nat) :=
      [.watch "k" [0], .put "k" 1, .put "j" 9, .put "k" 2, .put "k" 3, .receive 0, .flush 0, .fail "k" "lost",
        .put "k" 4]
    let opening : Chronicle Nat := .opening 1
    let c := opening.acts history
    let arrivals := opening.arrivals 0 history
    ∃ st, c.store.streams[0]? = some st ∧
      arrivals.map (·.event.id) = [1, 3, 4, 5, 6] ∧ (c.delivered 0 st).map (·.id) = [1, 4, 5] ∧
      IsPassedOver arrivals ⟨3, "k", .put 2⟩ ∧ IsPassedOver arrivals ⟨6, "k", .put 4⟩ ∧
      arrivals.countP (·.isParking) = opening.flushes 0 history + 1 := by
  intro history opening c arrivals
  let st : EventStream Nat :=
    { key := "k", token := [0], queue := { capacity := 1, items := [⟨4, "k", .put 3⟩] },
      parked := some ⟨5, "k", .error "lost"⟩, flushing := true }
  have hst : c.store.streams[0]? = some st := by decide
  obtain ⟨lived, st₀, -, -, -, hlived, -, -, -, -, -, -, -, -, htasks, hpassed, -⟩ :=
    delivered_in_order 1 history 0 st hst
  obtain ⟨rfl, rfl⟩ := hlived rfl
  refine ⟨st, hst, by decide, by decide, ?_, ?_, htasks⟩
  · exact hpassed ⟨⟨3, "k", .put 2⟩, none, false⟩ (by decide) (by decide)
  · exact hpassed ⟨⟨6, "k", .put 4⟩, some ⟨5, "k", .error "lost"⟩, false⟩ (by decide) (by decide)

end ResourceWatch

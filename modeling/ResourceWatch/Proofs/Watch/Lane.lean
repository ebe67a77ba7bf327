import Mathlib.Logic.Relation
import ResourceWatch.Proofs.Watch.Advances
import ResourceWatch.Proofs.Watch.Receiving

/-!
# A watch by itself

A served watch taken out of its world: the session with its endpoint state and its event stream (`Worker`), the tasks
that wait for its token, its replies, and the watcher that reads them if there is one (`Serving`).  Nothing in it has
a number or a token, so two worlds in which the same watch is served differ by nothing here.  Once the replies are let
go of, only what the watcher still has to tell is left (`Lane`).
-/

namespace ResourceWatch

variable {V R σ : Type}

/-! ### The session -/

/-- A session without numbers and tokens, with its endpoint state and its event stream. -/
structure Worker (V R σ : Type) where
  key : String
  state : σ
  /-- Whether its token is cancelled. -/
  cancelled : Bool
  phase : Phase R
  stream : Option (EventStream V)

/-- Where a served session stands after it ended. -/
def Outcome.phase : Outcome → Phase R
  | .done => .finished .done
  | .failed e => .reporting e

namespace Worker

def finish (k : Worker V R σ) (o : Outcome) : Worker V R σ :=
  { k with cancelled := true, phase := o.phase, stream := none }

/-- Makes a reply of a value and goes on as told, or fails. -/
def transform (make : Maker V R σ) (k : Worker V R σ) (value : V) (next : R → Bool → Phase R) : Worker V R σ :=
  match make k.state k.key value with
  | (state, .error status) => { k with state }.finish (.failed (.transform status))
  | (state, .ok (reply, changed)) => { k with state, phase := next reply changed }

def subscribe (core : MemoryStore V) (k : Worker V R σ) : Worker V R σ :=
  match core.watch k.key [] with
  | .ok (_, s) => { k with phase := .awaiting 0, stream := s.streams.getLast? }
  | .error (.refused f) => k.finish (.failed (.subscribe k.key f))
  | .error .tooLarge => { k with cancelled := true, phase := .crashed }

def hear (make : Maker V R σ) (k : Worker V R σ) (e : Event V) : Worker V R σ :=
  match e.kind with
  | .error text => k.finish (.failed (.event k.key e.id text))
  | .put value | .delete value =>
    k.transform make value fun reply changed => if changed then .sending 0 reply else .awaiting 0

/-- The next step of the session and what it sends with it; none if it has to wait.  The store is read only. -/
def act? (make : Maker V R σ) (core : MemoryStore V) (k : Worker V R σ) : Option (Worker V R σ × Option (Item R)) :=
  match k.phase with
  | .idle | .finished _ | .crashed => none
  | .starting => some ({ k with phase := .reading }, none)
  | .reading =>
    match core.get k.key with
    | .error f => some (k.finish (.failed (.read k.key f)), none)
    | .ok value => some (k.transform make value fun reply _ => .sendingSnapshot reply, none)
  | .sendingSnapshot reply => some ({ k with phase := .subscribing }, some (.ok reply))
  | .subscribing => some (k.subscribe core, none)
  | .awaiting _ =>
    match k.stream with
    | none => none
    | some st =>
      match st.receive with
      | (.item e, st) => some ({ k with stream := some st }.hear make e, none)
      | (.ended, _) => some (k.finish .done, none)
      | (.pending, _) => none
  | .sending id reply => some ({ k with phase := .awaiting id }, some (.ok reply))
  | .reporting e => some ({ k with phase := .finished (.failed e) }, some (.error e.status))

end Worker

/-! ### The watch -/

structure Serving (V R σ : Type) where
  worker : Worker V R σ
  replies : Queue (Item R)
  /-- The monitor waits for the token. -/
  monitored : Bool
  watcher : Option (Watcher R)
  /-- Whether the token of the watcher is cancelled. -/
  quitting : Bool

inductive Lane (V R σ : Type) where
  /-- The watch has not been opened. -/
  | before
  | serving (s : Serving V R σ)
  /-- The receive task of the watcher has stopped. -/
  | left (watcher : Watcher R)
  /-- The consumer has gone. -/
  | gone

namespace Serving

def isOpen (s : Serving V R σ) : Bool := s.worker.phase.isOpen || s.monitored

def withStream (s : Serving V R σ) (st : EventStream V) : Serving V R σ :=
  { s with worker := { s.worker with stream := some st } }

/-- The session has taken a step and sent an item or none. -/
def worked (s : Serving V R σ) (k : Worker V R σ) (item : Option (Item R)) : Serving V R σ :=
  { s with worker := k, replies := item.elim s.replies s.replies.push }

/-- The receive task has taken a step. -/
def pulled (s : Serving V R σ) (watcher : Watcher R) (source : Queue (Item R)) : Lane V R σ :=
  if watcher.finished then .left watcher else .serving { s with watcher := some watcher, replies := source }

/-- One turn of one of the watch's own tasks. -/
inductive Steps (make : Maker V R σ) (core : MemoryStore V) (s : Serving V R σ) : Lane V R σ → Prop where
  | flush {st st' : EventStream V} (stream : s.worker.stream = some st) (flushed : st.flush? = some st') :
    Steps make core s (.serving (s.withStream st'))
  | release {st : EventStream V} (stream : s.worker.stream = some st) (guarding : st.guarding = true)
    (cancelled : s.worker.cancelled = true) :
    Steps make core s (.serving (s.withStream { st.detach with guarding := false }))
  | advance {k : Worker V R σ} {item : Option (Item R)} (acts : s.worker.act? make core = some (k, item))
    (room : item.isSome = true → s.replies.hasRoom = true) : Steps make core s (.serving (s.worked k item))
  | abandon (abandonable : s.worker.phase.isAbandonable = true) (cancelled : s.worker.cancelled = true) :
    Steps make core s (.serving (s.worked (s.worker.finish .done) none))
  | dismiss (monitored : s.monitored = true) (cancelled : s.worker.cancelled = true) :
    Steps make core s (.serving { s with monitored := false })
  | pull {a a' : Watcher R} {source : Queue (Item R)} (watcher : s.watcher = some a)
    (pulled : a.pull? s.replies s.isOpen = some (a', source)) : Steps make core s (s.pulled a' source)
  | quit {a : Watcher R} (watcher : s.watcher = some a) (quitting : s.quitting = true) :
    Steps make core s (.left a.stop)

end Serving

namespace Lane

inductive Step (make : Maker V R σ) (core : MemoryStore V) : Lane V R σ → Lane V R σ → Prop where
  | serving {s : Serving V R σ} {l : Lane V R σ} (steps : s.Steps make core l) : Step make core (.serving s) l

def AtRest (make : Maker V R σ) (core : MemoryStore V) (l : Lane V R σ) : Prop := ∀ l', ¬ Step make core l l'

/-- Two lanes that are one turn at most from a third. -/
def Joins (make : Maker V R σ) (core : MemoryStore V) : Lane V R σ → Lane V R σ → Prop :=
  Relation.Join (Relation.ReflGen (Step make core))

variable {make : Maker V R σ} {core : MemoryStore V} {l l' l'' : Lane V R σ}

theorem Joins.refl (l : Lane V R σ) : Joins make core l l := ⟨l, .refl, .refl⟩

theorem Joins.symm (h : Joins make core l l') : Joins make core l' l := Relation.Join.symm.symm _ _ h

/-- The second turn is taken already. -/
theorem Joins.of_step {s : Serving V R σ} (h : s.Steps make core l') : Joins make core (.serving s) l' :=
  ⟨l', .single (.serving h), .refl⟩

theorem Joins.of_steps {s t : Serving V R σ} (hs : s.Steps make core l) (ht : t.Steps make core l) :
    Joins make core (.serving s) (.serving t) := ⟨l, .single (.serving hs), .single (.serving ht)⟩

end Lane

/-! ### Turns that do not meet -/

namespace EventStream

variable {st st' st₁ : EventStream V}

/-- The flush task heeds neither the token nor the store, nor the guard task. -/
theorem flush?_relabel (st : EventStream V) (token : Token) (attached guarding : Bool) :
    ({ st with token, attached, guarding } : EventStream V).flush? =
      st.flush?.map fun t => { t with token, attached, guarding } := by
  unfold flush?
  split
  · rfl
  · split
    · rfl
    · split
      · rfl
      · cases st.parked <;> rfl

/-- A flush task that can go on still can when an event has been received, and to the same end. -/
theorem receive_of_flush? (hflushed : st.flush? = some st') {e : Event V} (hgot : st.receive = (.item e, st₁)) :
    ∃ st₁', st₁.flush? = some st₁' ∧ st'.receive = (.item e, st₁') := by
  obtain ⟨key, token, ⟨capacity, items, receiving⟩, parked, flushing, attached, guarding⟩ := st
  cases items with
  | nil =>
    simp only [receive, Queue.receive, Prod.mk.injEq] at hgot
    obtain ⟨hgot, -⟩ := hgot
    split at hgot <;> simp at hgot
  | cons e' rest =>
    simp only [receive, Queue.receive, Prod.mk.injEq, Received.item.injEq] at hgot
    obtain ⟨rfl, rfl⟩ := hgot
    simp only [flush?, Queue.hasRoom, List.length_cons] at hflushed ⊢
    cases flushing with
    | false => simp at hflushed
    | true =>
      cases receiving with
      | false =>
        simp only [Bool.not_true, Bool.not_false, Bool.false_eq_true, if_false, if_true,
          Option.some.injEq] at hflushed
        subst hflushed
        exact ⟨_, rfl, rfl⟩
      | true =>
        by_cases hroom : rest.length + 1 < capacity
        · have hroom' : rest.length < capacity := Nat.lt_of_succ_lt hroom
          cases parked <;> simp only [hroom, hroom', decide_true, Bool.not_true, Bool.false_eq_true, if_false,
            Option.some.injEq] at hflushed ⊢ <;> subst hflushed <;> exact ⟨_, rfl, rfl⟩
        · simp [hroom] at hflushed

/-- Nobody is told the end of a stream whose flush task can go on. -/
theorem receive_ne_ended_of_flush? (hflushed : st.flush? = some st') : st.receive.1 ≠ .ended := by
  have hflushing : st.flushing = true := by
    cases hf : st.flushing with
    | true => rfl
    | false => simp [flush?, hf] at hflushed
  unfold receive Queue.receive isOpen
  rw [hflushing, Bool.or_true]
  cases st.queue.items <;> simp

end EventStream

namespace Worker

variable {make : Maker V R σ} {core : MemoryStore V} {k k' : Worker V R σ} {item : Option (Item R)}

/-- What a step makes of the session does not depend on the stream, which is kept or given up. -/
def Heedless (f : Option (EventStream V) → Worker V R σ) : Prop :=
  (∃ (k : Worker V R σ) (o : Outcome), ∀ st, f st = k.finish o) ∨
    ∃ k : Worker V R σ, ∀ st, f st = { k with stream := st }

theorem heedless_transform (make : Maker V R σ) (k : Worker V R σ) (value : V) (next : R → Bool → Phase R) :
    Heedless fun st => { k with stream := st }.transform make value next := by
  unfold transform
  rcases hmade : make k.state k.key value with ⟨state, status | ⟨reply, changed⟩⟩
  · exact Or.inl ⟨{ k with state }, .failed (.transform status), fun st => by simp only [hmade]; rfl⟩
  · exact Or.inr ⟨{ k with state, phase := next reply changed }, fun st => by simp only [hmade]⟩

theorem heedless_hear (make : Maker V R σ) (k : Worker V R σ) (e : Event V) :
    Heedless fun st => { k with stream := st }.hear make e := by
  unfold hear
  cases e.kind with
  | put value => exact heedless_transform make k value _
  | delete value => exact heedless_transform make k value _
  | error text => exact Or.inl ⟨k, .failed (.event k.key e.id text), fun _ => rfl⟩

/-- The flush task goes on, which the session has not noticed yet. -/
inductive Flushed (k : Worker V R σ) : Worker V R σ → Prop where
  | same : Flushed k k
  | flush {st st' : EventStream V} (stream : k.stream = some st) (flushed : st.flush? = some st') :
    Flushed k { k with stream := some st' }

theorem Heedless.flushed {f : Option (EventStream V) → Worker V R σ} (hf : Heedless f) {st st' : EventStream V}
    (hflushed : st.flush? = some st') : (f (some st)).Flushed (f (some st')) := by
  rcases hf with ⟨k, o, h⟩ | ⟨k, h⟩
  · rw [h, h]
    exact .same
  · rw [h, h]
    exact .flush (k := { k with stream := some st }) rfl hflushed

/-- The session takes the same step before and after the flush task goes on. -/
theorem act?_of_flush? {st st' : EventStream V} (hstream : k.stream = some st) (hflushed : st.flush? = some st')
    (hacts : k.act? make core = some (k', item)) :
    ∃ k'', { k with stream := some st' }.act? make core = some (k'', item) ∧ k'.Flushed k'' := by
  obtain ⟨key, state, cancelled, phase, stream⟩ := k
  obtain rfl : stream = some st := hstream
  have hkept : ∀ p : Phase R, (⟨key, state, cancelled, p, some st⟩ : Worker V R σ).Flushed
      ⟨key, state, cancelled, p, some st'⟩ := fun p => .flush rfl hflushed
  cases phase with
  | idle => simp [act?] at hacts
  | finished o => simp [act?] at hacts
  | crashed => simp [act?] at hacts
  | starting =>
    simp only [act?, Option.some.injEq, Prod.mk.injEq] at hacts ⊢
    obtain ⟨rfl, rfl⟩ := hacts
    exact ⟨_, ⟨rfl, rfl⟩, hkept _⟩
  | reading =>
    simp only [act?] at hacts ⊢
    cases hget : core.get key with
    | error f =>
      simp only [hget, Option.some.injEq, Prod.mk.injEq] at hacts ⊢
      obtain ⟨rfl, rfl⟩ := hacts
      exact ⟨_, ⟨rfl, rfl⟩, .same⟩
    | ok value =>
      simp only [hget, Option.some.injEq, Prod.mk.injEq] at hacts ⊢
      obtain ⟨rfl, rfl⟩ := hacts
      exact ⟨_, ⟨rfl, rfl⟩, (heedless_transform make ⟨key, state, cancelled, .reading, none⟩ value _).flushed
        hflushed⟩
  | sendingSnapshot reply =>
    simp only [act?, Option.some.injEq, Prod.mk.injEq] at hacts ⊢
    obtain ⟨rfl, rfl⟩ := hacts
    exact ⟨_, ⟨rfl, rfl⟩, hkept _⟩
  | subscribing =>
    simp only [act?, Option.some.injEq, Prod.mk.injEq] at hacts ⊢
    obtain ⟨rfl, rfl⟩ := hacts
    refine ⟨_, ⟨rfl, rfl⟩, ?_⟩
    unfold subscribe
    dsimp only
    split
    · exact .same
    · exact .same
    · exact .flush rfl hflushed
  | awaiting id =>
    simp only [act?] at hacts ⊢
    rcases hgot : st.receive with ⟨_ | _ | _, st₁⟩
    · rename_i e
      obtain ⟨st₁', hflushed', hgot'⟩ := EventStream.receive_of_flush? hflushed hgot
      simp only [hgot, hgot', Option.some.injEq, Prod.mk.injEq] at hacts ⊢
      obtain ⟨rfl, rfl⟩ := hacts
      exact ⟨_, ⟨rfl, rfl⟩, (heedless_hear make ⟨key, state, cancelled, .awaiting id, none⟩ e).flushed hflushed'⟩
    · simp [hgot] at hacts
    · exact absurd (congrArg Prod.fst hgot) (EventStream.receive_ne_ended_of_flush? hflushed)
  | sending id reply =>
    simp only [act?, Option.some.injEq, Prod.mk.injEq] at hacts ⊢
    obtain ⟨rfl, rfl⟩ := hacts
    exact ⟨_, ⟨rfl, rfl⟩, hkept _⟩
  | reporting e =>
    simp only [act?, Option.some.injEq, Prod.mk.injEq] at hacts ⊢
    obtain ⟨rfl, rfl⟩ := hacts
    exact ⟨_, ⟨rfl, rfl⟩, hkept _⟩

/-- Whoever takes a step is at work, or is to report a failure. -/
theorem isOpen_of_act? (h : k.act? make core = some (k', item)) : k.phase.isOpen = true := by
  unfold act? at h
  cases hp : k.phase <;> simp [hp, Phase.isOpen] at h ⊢

/-- A session has an event stream only while it receives from it. -/
def Streaming (k : Worker V R σ) : Prop := k.stream.isSome = true → k.phase.stream?.isSome = true

/-- What a step leaves: a session with a stream only where there is use for it, and cancelled only at its end. -/
structure Keeps (k k' : Worker V R σ) : Prop where
  streaming : k'.Streaming
  cancelled : k'.phase.isAtWork = true → k'.cancelled = k.cancelled

theorem keeps_finish (k k' : Worker V R σ) (o : Outcome) : k.Keeps (k'.finish o) :=
  ⟨fun h => by simp [finish] at h, fun h => by cases o <;> simp [finish, Outcome.phase, Phase.isAtWork] at h⟩

theorem keeps_transform (make : Maker V R σ) (k : Worker V R σ) (value : V) {next : R → Bool → Phase R}
    (hnext : ∀ reply changed, ({ k with phase := next reply changed } : Worker V R σ).Streaming) :
    k.Keeps (k.transform make value next) := by
  unfold transform
  split
  · exact keeps_finish k _ _
  · exact ⟨hnext _ _, fun _ => rfl⟩

theorem keeps_hear (make : Maker V R σ) (k : Worker V R σ) (e : Event V) : k.Keeps (k.hear make e) := by
  have hvalue : ∀ value : V, k.Keeps (k.transform make value fun reply changed =>
      if changed then .sending 0 reply else .awaiting 0) :=
    fun value => keeps_transform make k value fun _ changed _ => by cases changed <;> rfl
  unfold hear
  split
  · exact keeps_finish k k _
  · exact hvalue _
  · exact hvalue _

theorem keeps_of_act? (hk : k.Streaming) (hacts : k.act? make core = some (k', item)) : k.Keeps k' := by
  have hnone : k.phase.stream? = none → k.stream = none := fun hp => by
    cases hstream : k.stream with
    | none => rfl
    | some st =>
      have := hk (by rw [hstream]; rfl)
      rw [hp] at this
      simp at this
  have hidle : ∀ {p : Phase R}, k.phase.stream? = none → ({ k with phase := p } : Worker V R σ).Streaming :=
    fun hp h => by simp [hnone hp] at h
  unfold act? at hacts
  cases hp : k.phase with
  | idle => simp [hp] at hacts
  | finished o => simp [hp] at hacts
  | crashed => simp [hp] at hacts
  | starting =>
    simp only [hp, Option.some.injEq, Prod.mk.injEq] at hacts
    obtain ⟨rfl, rfl⟩ := hacts
    exact ⟨hidle (by rw [hp]; rfl), fun _ => rfl⟩
  | reading =>
    simp only [hp] at hacts
    split at hacts
    · simp only [Option.some.injEq, Prod.mk.injEq] at hacts
      obtain ⟨rfl, rfl⟩ := hacts
      exact keeps_finish k k _
    · simp only [Option.some.injEq, Prod.mk.injEq] at hacts
      obtain ⟨rfl, rfl⟩ := hacts
      exact keeps_transform make k _ fun _ _ => hidle (by rw [hp]; rfl)
  | sendingSnapshot reply =>
    simp only [hp, Option.some.injEq, Prod.mk.injEq] at hacts
    obtain ⟨rfl, rfl⟩ := hacts
    exact ⟨hidle (by rw [hp]; rfl), fun _ => rfl⟩
  | subscribing =>
    simp only [hp, Option.some.injEq, Prod.mk.injEq] at hacts
    obtain ⟨rfl, rfl⟩ := hacts
    unfold subscribe
    split
    · exact ⟨fun _ => rfl, fun _ => rfl⟩
    · exact keeps_finish k k _
    · exact ⟨hidle (by rw [hp]; rfl), fun h => by simp [Phase.isAtWork] at h⟩
  | awaiting id =>
    simp only [hp] at hacts
    split at hacts
    · simp at hacts
    · split at hacts
      · simp only [Option.some.injEq, Prod.mk.injEq] at hacts
        obtain ⟨rfl, rfl⟩ := hacts
        exact ⟨(keeps_hear make _ _).streaming, (keeps_hear make _ _).cancelled⟩
      · simp only [Option.some.injEq, Prod.mk.injEq] at hacts
        obtain ⟨rfl, rfl⟩ := hacts
        exact keeps_finish k k _
      · simp at hacts
  | sending id reply =>
    simp only [hp, Option.some.injEq, Prod.mk.injEq] at hacts
    obtain ⟨rfl, rfl⟩ := hacts
    exact ⟨fun _ => rfl, fun _ => rfl⟩
  | reporting e =>
    simp only [hp, Option.some.injEq, Prod.mk.injEq] at hacts
    obtain ⟨rfl, rfl⟩ := hacts
    exact ⟨hidle (by rw [hp]; rfl), fun _ => rfl⟩

end Worker

namespace Watcher

variable {a a' : Watcher R} {source source' : Queue (Item R)} {open_ : Bool}

theorem pull?_of_pulls (hrunning : a.finished = false) (h : a.Pulls source open_ a' source') :
    a.pull? source open_ = some (a', source') := by
  unfold pull?
  rw [if_neg (by simp [hrunning])]
  cases h with
  | deliver hheld hread hroom => simp [hheld, deliver?, hread, hroom, sourceAfter, hrunning]
  | desert hheld hread => simp [hheld, deliver?, hread, sourceAfter, stop]
  | take hheld hitems => simp [hheld, Queue.receive, hitems, accept?, sourceAfter, hrunning]
  | fail hheld hitems => simp [hheld, Queue.receive, hitems, accept?, sourceAfter, stop, Queue.drop]
  | finish hheld hitems hclosed => simp [hheld, Queue.receive, hitems, hclosed, accept?, sourceAfter, stop]

/-- What the receive task can do on a stream that may still be fed, it can do once that is closed. -/
theorem pull?_closed (h : a.pull? source true = some (a', source')) (open_ : Bool) :
    a.pull? source open_ = some (a', source') := by
  obtain ⟨hrunning, hpulls⟩ := pulls_of_pull? h
  refine pull?_of_pulls hrunning ?_
  cases hpulls with
  | deliver hheld hread hroom => exact .deliver hheld hread hroom
  | desert hheld hread => exact .desert hheld hread
  | take hheld hitems => exact .take hheld hitems
  | fail hheld hitems => exact .fail hheld hitems
  | finish hheld hitems hclosed => simp at hclosed

/-- It can do the same behind another item, unless that is what it was waiting for. -/
theorem pull?_push (h : a.pull? source true = some (a', source')) (item : Item R) :
    ∃ source'', a.pull? (source.push item) true = some (a', source'') ∧
      (a'.finished = false → source'' = source'.push item) := by
  obtain ⟨hrunning, hpulls⟩ := pulls_of_pull? h
  cases hpulls with
  | deliver hheld hread hroom => exact ⟨_, pull?_of_pulls hrunning (.deliver hheld hread hroom), fun _ => rfl⟩
  | desert hheld hread =>
    exact ⟨_, pull?_of_pulls hrunning (.desert hheld hread), fun h => by simp [stop] at h⟩
  | @take r rest hheld hitems =>
    have hpushed : (source.push item).items = .ok r :: (rest ++ [item]) := by simp [hitems]
    exact ⟨_, pull?_of_pulls hrunning (.take hheld hpushed), fun _ => rfl⟩
  | @fail s rest hheld hitems =>
    have hpushed : (source.push item).items = .error s :: (rest ++ [item]) := by simp [hitems]
    exact ⟨_, pull?_of_pulls hrunning (.fail hheld hpushed), fun h => by simp [stop] at h⟩
  | finish hheld hitems hclosed => simp at hclosed

/-- It takes no room from the stream. -/
theorem hasRoom_of_pull? (h : a.pull? source open_ = some (a', source')) (hfinished : a'.finished = false)
    (hroom : source.hasRoom = true) : source'.hasRoom = true := by
  cases (pulls_of_pull? h).2 with
  | deliver => exact hroom
  | take hheld hitems =>
    simp only [Queue.hasRoom, hitems, List.length_cons, decide_eq_true_eq] at hroom ⊢
    exact Nat.lt_of_succ_lt hroom
  | desert => simp [stop] at hfinished
  | fail => simp [stop] at hfinished
  | finish => simp [stop] at hfinished

end Watcher

end ResourceWatch

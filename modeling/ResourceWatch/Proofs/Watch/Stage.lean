import ResourceWatch.Proofs.Watch.Calm
import ResourceWatch.Proofs.Watch.Scene

/-!
# The script of a watch

What the changes of the store and the acts of its caller do to a watch by itself (`Stage.act`), and what they are
answered.  After each of them the watch is calm if it was at rest, so it comes to rest in one way only before the next
one, and the answers are determined by the acts (`Stage.Plays.eq`).
-/

namespace ResourceWatch

variable {Q V R σ : Type}

/-! ### What reaches a stream -/

namespace EventStream

/-- The store publishes to the streams of the key that it holds. -/
def hear (core : MemoryStore V) (st : EventStream V) (key : String) (kind : EventKind V) : EventStream V :=
  if st.key = key ∧ st.attached = true then st.offer ⟨core.revision + 1, key, kind⟩ else st

/-- What a change of the store does to a stream. -/
def reach [Inhabited V] (core : MemoryStore V) (st : EventStream V) : Mutation V → EventStream V
  | .put key value => st.hear core key (.put value)
  | .delete key => if (core.values.lookup key).isSome then st.hear core key (.delete default) else st
  | .fail key text => st.hear core key (.error text)
  | .close key => if st.key = key then st.detach else st
  | .shutdown => st.detach

end EventStream

namespace MemoryStore

variable [Inhabited V] {s : MemoryStore V}

/-- The subscribers of a store know its changes by the index, and by the values that there are. -/
theorem core_mutate (s : MemoryStore V) (m : Mutation V) : (s.act m.act).1.core = (s.core.act m.act).1.core := by
  cases m with
  | delete key =>
    simp only [Mutation.act, act, delete, core]
    cases s.values.lookup key <;> rfl
  | _ => rfl

omit [Inhabited V] in
/-- What is published to the subscribers of a key is heard by the streams of the key that the store holds. -/
private theorem Orderly.getElem?_publish_hear (h : s.Orderly) (key : String) (kind : EventKind V) (id : Nat) :
    (s.publish key kind).2.streams[id]? = s.streams[id]?.map (·.hear s.core key kind) := by
  rw [getElem?_publish]
  cases hst : s.streams[id]? with
  | none => rfl
  | some st =>
    have hmem : id ∈ s.subscribers key ↔ st.key = key ∧ st.attached = true := by
      rw [h key id, hst]
      simp
    simp only [Option.map_some, Option.some.injEq, EventStream.hear]
    by_cases hid : id ∈ s.subscribers key
    · rw [if_pos hid, if_pos (hmem.1 hid)]
      rfl
    · rw [if_neg hid, if_neg fun hkey => hid (hmem.2 hkey)]

omit [Inhabited V] in
/-- To let go of streams again changes nothing. -/
private theorem Orderly.detach_eq (h : s.Orderly) {ids : List Nat} {id : Nat} {st : EventStream V}
    (hst : s.streams[id]? = some st) (hids : id ∈ s.subscribers st.key → id ∈ ids) :
    (if id ∈ ids then st.detach else st) = st.detach := by
  split
  · rfl
  · rename_i hid
    have hattached : st.attached = false := by
      rw [Bool.eq_false_iff]
      exact fun hattached => hid (hids ((h st.key id).2 ⟨st, hst, rfl, hattached⟩))
    cases st
    simp_all [EventStream.detach]

/-- A change of an orderly store does to a stream what can be told from the stream itself. -/
theorem Orderly.getElem?_mutate (h : s.Orderly) (m : Mutation V) (id : Nat) :
    (s.act m.act).1.streams[id]? = s.streams[id]?.map (·.reach s.core m) := by
  have hvalues : ∀ values, ({ s with values } : MemoryStore V).Orderly := fun _ => h
  cases m with
  | put key value => exact (hvalues _).getElem?_publish_hear key _ id
  | fail key text => exact h.getElem?_publish_hear key _ id
  | delete key =>
    have hcore : s.core.values = s.values := rfl
    simp only [Mutation.act, MemoryStore.act, MemoryStore.delete, EventStream.reach, hcore]
    cases s.values.lookup key with
    | none => simp
    | some v => exact (hvalues _).getElem?_publish_hear key _ id
  | close key =>
    refine (s.getElem?_updateStreams (s.subscribers key) (·.detach) id).trans ?_
    cases hst : s.streams[id]? with
    | none => rfl
    | some st =>
      simp only [Option.map_some, Option.some.injEq, EventStream.reach]
      by_cases hkey : st.key = key
      · rw [if_pos hkey, h.detach_eq hst fun hid => hkey ▸ hid]
      · rw [if_neg hkey, if_neg]
        intro hid
        obtain ⟨st', hst', hkey', -⟩ := (h key id).1 hid
        obtain rfl := Option.some.inj (hst.symm.trans hst')
        exact hkey hkey'
  | shutdown =>
    refine (s.getElem?_updateStreams (s.registry.flatMap (·.2)) (·.detach) id).trans ?_
    cases hst : s.streams[id]? with
    | none => rfl
    | some st =>
      simp only [Option.map_some, Option.some.injEq, EventStream.reach]
      exact h.detach_eq hst mem_registry_of_mem_subscribers

end MemoryStore

/-! ### The watch by itself -/

namespace Serving

/-- A watch that has just been served. -/
def opening (key : String) (state : σ) (replies : Queue (Item R)) : Serving V R σ where
  worker := { key, state, cancelled := false, phase := .starting, stream := none }
  replies := replies
  monitored := true
  watcher := none
  quitting := false

def reach [Inhabited V] (core : MemoryStore V) (s : Serving V R σ) (m : Mutation V) : Serving V R σ :=
  { s with worker := { s.worker with stream := s.worker.stream.map (·.reach core m) } }

/-- The token of the call is cancelled. -/
def callOff (s : Serving V R σ) : Serving V R σ := { s with worker := { s.worker with cancelled := true } }

/-- The token of the watcher is cancelled. -/
def quit (s : Serving V R σ) : Serving V R σ := { s with quitting := s.watcher.isSome }

end Serving

/-- The watch, and the store as far as it matters to it. -/
structure Stage (V R σ : Type) where
  core : MemoryStore V
  lane : Lane V R σ

namespace Stage

def withLane (g : Stage V R σ) (lane : Lane V R σ) : Stage V R σ := { g with lane }

variable [Inhabited V]

def act (g : Stage V R σ) : SeatAct Q V R σ → Stage V R σ × SeatAnswer R
  | .mutate m =>
    let core := (g.core.act m.act).1.core
    match g.lane with
    | .serving s => (⟨core, .serving (s.reach g.core m)⟩, .nothing)
    | l => (⟨core, l⟩, .nothing)
  | .serve endpoint state replyBuffer request call =>
    match g.lane with
    | .before =>
      match (Queue.make? (max replyBuffer 1) : Option (Queue (Item R))),
        endpoint.keyOf request (.ofRequest call [0]) with
      | none, _ => (g, .served (.error .tooLarge))
      | some _, .error status => (g, .served (.ok (.error status)))
      | some replies, .ok key => (g.withLane (.serving (.opening key state replies)), .served (.ok (.ok ())))
    | _ => (g, .nothing)
  | .receive =>
    match g.lane with
    | .serving s =>
      match s.watcher with
      | none =>
        let (got, replies) := s.replies.receive s.isOpen
        (g.withLane (.serving { s with replies }), .received got)
      | some _ => (g, .nothing)
    | _ => (g, .nothing)
  | .attach capacity =>
    match g.lane with
    | .serving s =>
      match s.watcher, (Watcher.make? [] capacity : Option (Watcher R)) with
      | none, none => (g, .attached false)
      | none, some a => (g.withLane (.serving { s with watcher := some a, quitting := false }), .attached true)
      | some _, _ => (g, .nothing)
    | _ => (g, .nothing)
  | .next =>
    match g.lane with
    | .serving s =>
      match s.watcher with
      | none => (g, .nothing)
      | some a => (g.withLane (.serving { s with watcher := some a.next.2 }), .told a.next.1)
    | .left a => (g.withLane (.left a.next.2), .told a.next.1)
    | _ => (g, .nothing)
  | .cancelCall =>
    match g.lane with
    | .serving s => (g.withLane (.serving s.callOff), .nothing)
    | _ => (g, .nothing)
  | .cancelClient | .cancelWatcher =>
    match g.lane with
    | .serving s => (g.withLane (.serving s.quit), .nothing)
    | _ => (g, .nothing)
  | .dropReplies =>
    match g.lane with
    | .serving s => (if s.watcher.isSome then g else g.withLane .gone, .nothing)
    | _ => (g, .nothing)
  | .dropWatcher =>
    match g.lane with
    | .serving s => (if s.watcher.isSome then g.withLane .gone else g, .nothing)
    | .left _ => (g.withLane .gone, .nothing)
    | _ => (g, .nothing)

/-- The acts so far and what they were answered, each at rest. -/
inductive Plays (make : Maker V R σ) (start : Stage V R σ) :
    List (SeatAct Q V R σ) → List (SeatAnswer R) → Stage V R σ → Prop where
  | start : Plays make start [] [] start
  | own {as : List (SeatAct Q V R σ)} {bs : List (SeatAnswer R)} {g : Stage V R σ} {l : Lane V R σ}
    (played : Plays make start as bs g) (reaches : Relation.ReflTransGen (Lane.Step make g.core) g.lane l)
    (rest : l.AtRest make g.core) (a : SeatAct Q V R σ) :
    Plays make start (as ++ [a]) (bs ++ [((g.withLane l).act a).2]) ((g.withLane l).act a).1

end Stage

/-! ### Acts on a watch at rest -/

namespace Serving

variable {make : Maker V R σ} {core : MemoryStore V} {s : Serving V R σ}

/-- At rest a session that is told to stop has stopped. -/
theorem isAtWork_of_atRest (hrest : (Lane.serving s).AtRest make core) (hcancelled : s.worker.cancelled = true) :
    s.worker.phase.isAtWork = false := by
  have hstill : ∀ l, ¬ s.Steps make core l := fun l h => hrest l (.serving h)
  cases hp : s.worker.phase with
  | idle => rfl
  | reporting e => rfl
  | finished o => rfl
  | crashed => rfl
  | subscribing =>
    have hacts : s.worker.act? make core = some (s.worker.subscribe core, none) := by rw [Worker.act?, hp]
    exact absurd (.advance hacts (by simp)) (hstill _)
  | _ => exact absurd (.abandon (by rw [hp]; rfl) hcancelled) (hstill _)

/-- At rest a session that is at work waits for an event or for room. -/
theorem stalled_of_atRest (hrest : (Lane.serving s).AtRest make core) (hworking : s.worker.phase.isAtWork = true) :
    s.Stalled := by
  have hstill : ∀ l, ¬ s.Steps make core l := fun l h => hrest l (.serving h)
  have hadvance : ∀ k item, s.worker.act? make core = some (k, item) →
      item.isSome = true ∧ s.replies.hasRoom = false := by
    intro k item hacts
    refine ⟨?_, ?_⟩
    · cases item with
      | none => exact absurd (.advance hacts (by simp)) (hstill _)
      | some item => rfl
    · cases hroom : s.replies.hasRoom with
      | false => rfl
      | true => exact absurd (.advance hacts fun _ => hroom) (hstill _)
  refine ⟨?_, fun st hst => ?_, fun a ha => ?_⟩
  · unfold Worker.act? at hadvance
    cases hp : s.worker.phase with
    | awaiting id =>
      refine Or.inl ⟨id, rfl, fun st hst => ?_⟩
      simp only [hp, hst] at hadvance
      cases hitems : st.queue.items with
      | nil => rfl
      | cons e rest =>
        have hgot : st.receive = (.item e, { st with queue := { st.queue with items := rest } }) := by
          simp only [EventStream.receive, Queue.receive, hitems]
        simp only [hgot] at hadvance
        simpa using (hadvance _ _ rfl).1
    | sendingSnapshot r =>
      simp only [hp] at hadvance
      exact Or.inr ⟨r, _, rfl, (hadvance _ _ rfl).2⟩
    | sending id r =>
      simp only [hp] at hadvance
      exact Or.inr ⟨r, _, rfl, (hadvance _ _ rfl).2⟩
    | starting =>
      simp only [hp] at hadvance
      simpa using (hadvance _ _ rfl).1
    | subscribing =>
      simp only [hp] at hadvance
      simpa using (hadvance _ _ rfl).1
    | reading =>
      simp only [hp] at hadvance
      cases hget : core.get s.worker.key with
      | error f =>
        simp only [hget] at hadvance
        simpa using (hadvance _ _ rfl).1
      | ok value =>
        simp only [hget] at hadvance
        simpa using (hadvance _ _ rfl).1
    | _ => simp [hp, Phase.isAtWork] at hworking
  · cases hflushed : st.flush? with
    | none => rfl
    | some st' => exact absurd (.flush hst hflushed) (hstill _)
  · cases hpulled : a.pull? s.replies true with
    | none => rfl
    | some r =>
      have hopen : s.isOpen = true := isOpen_of_phase (Phase.isOpen_of_isAtWork hworking)
      exact absurd (.pull ha (hopen ▸ hpulled)) (hstill _)

/-- What changes neither the phase nor the token of a watch at rest leaves it calm. -/
private theorem Calm.of_same (h : s.Calm) (hrest : (Lane.serving s).AtRest make core) {t : Serving V R σ}
    (hcancelled : t.worker.cancelled = s.worker.cancelled) (hphase : t.worker.phase = s.worker.phase)
    (hstream : t.worker.stream.isSome = s.worker.stream.isSome)
    (hstaying : t.watcher.isSome = true → t.quitting = false) : t.Calm := by
  refine ⟨fun hst => ?_, fun ht hworking => ?_, hstaying⟩
  · rw [hphase]
    exact h.streaming (hstream ▸ hst)
  · rw [hphase, isAtWork_of_atRest hrest (hcancelled ▸ ht)] at hworking
    simp at hworking

private theorem calm_callOff (h : s.Calm) (hrest : (Lane.serving s).AtRest make core) : s.callOff.Calm := by
  refine ⟨h.streaming, fun _ hworking => ?_, h.staying⟩
  have hstalled := stalled_of_atRest hrest hworking
  exact ⟨hstalled.waits, hstalled.flushed, hstalled.read⟩

/-- A watcher of a watch at rest is told to stop: it can do that, and nobody else can do anything. -/
private theorem calm_quit (h : s.Calm) (hrest : (Lane.serving s).AtRest make core) :
    (Lane.serving s.quit).Calm make core := by
  have hstill : ∀ l, ¬ s.Steps make core l := fun l hl => hrest l (.serving hl)
  cases hwatcher : s.watcher with
  | none =>
    refine Or.inl (h.of_same hrest rfl rfl rfl fun hsome => ?_)
    rw [quit, hwatcher] at hsome
    simp at hsome
  | some a =>
    refine Or.inr ⟨a, hwatcher, by rw [quit, hwatcher]; rfl, fun l hl => ?_⟩
    cases hl with
    | flush hstream hflushed => exact absurd (.flush hstream hflushed) (hstill _)
    | release hstream hguarding hcancelled => exact absurd (.release hstream hguarding hcancelled) (hstill _)
    | advance hacts hroom => exact absurd (.advance hacts hroom) (hstill _)
    | abandon habandonable hcancelled => exact absurd (.abandon habandonable hcancelled) (hstill _)
    | dismiss hmonitored hcancelled => exact absurd (.dismiss hmonitored hcancelled) (hstill _)
    | pull ha hpulled => exact absurd (.pull ha hpulled) (hstill _)
    | quit ha _ =>
      obtain rfl := Option.some.inj (hwatcher.symm.trans ha)
      rfl

end Serving

namespace Stage

variable {make : Maker V R σ} {start g g' : Stage V R σ} {as : List (SeatAct Q V R σ)} {bs bs' : List (SeatAnswer R)}

variable [Inhabited V]

/-- Behind an act on a watch at rest the watch is calm. -/
theorem calm_act (h : g.lane.Calm make g.core) (hrest : g.lane.AtRest make g.core) (a : SeatAct Q V R σ) :
    (g.act a).1.lane.Calm make (g.act a).1.core := by
  obtain ⟨core, lane⟩ := g
  cases lane with
  | before =>
    cases a with
    | serve endpoint state replyBuffer request call =>
      simp only [act]
      split
      · trivial
      · trivial
      · exact Or.inl ⟨fun hst => by simp [Serving.opening] at hst,
          fun hcancelled => by simp [Serving.opening] at hcancelled,
          fun hsome => by simp [Serving.opening] at hsome⟩
    | _ => trivial
  | left b => cases a <;> trivial
  | gone => cases a <;> trivial
  | serving s =>
    have hcalm : s.Calm := h.of_atRest hrest
    cases a with
    | mutate m => exact Or.inl (hcalm.of_same hrest rfl rfl (by simp [Serving.reach]) hcalm.staying)
    | serve => exact h
    | receive =>
      simp only [act]
      split
      · exact Or.inl (hcalm.of_same hrest rfl rfl rfl hcalm.staying)
      · exact h
    | attach capacity =>
      simp only [act]
      split
      · exact h
      · exact Or.inl (hcalm.of_same hrest rfl rfl rfl fun _ => rfl)
      · exact h
    | next =>
      simp only [act]
      split
      · exact h
      · rename_i b hb
        exact Or.inl (hcalm.of_same hrest rfl rfl rfl fun _ => hcalm.staying (by rw [hb]; rfl))
    | cancelCall => exact Or.inl (Serving.calm_callOff hcalm hrest)
    | cancelClient => exact Serving.calm_quit hcalm hrest
    | cancelWatcher => exact Serving.calm_quit hcalm hrest
    | dropReplies =>
      simp only [act]
      split
      · exact h
      · trivial
    | dropWatcher =>
      simp only [act]
      split
      · trivial
      · exact h

theorem Plays.calm (hstart : start.lane.Calm make start.core) (h : Plays make start as bs g) :
    g.lane.Calm make g.core := by
  induction h with
  | start => exact hstart
  | @own as bs g l _ hreaches hrest a ih => exact calm_act (g := g.withLane l) (ih.of_reaches hreaches).1 hrest a

/-- What a watch by itself is told depends on nothing but the acts. -/
theorem Plays.eq (hstart : start.lane.Calm make start.core) (h : Plays make start as bs g)
    (h' : Plays make start as bs' g') : bs = bs' ∧ g = g' := by
  induction h generalizing bs' g' with
  | start =>
    generalize has : ([] : List (SeatAct Q V R σ)) = as at h'
    cases h' with
    | start => exact ⟨rfl, rfl⟩
    | own => simp at has
  | @own as bs g l hplayed hreaches hrest a ih =>
    generalize has : as ++ [a] = as' at h'
    cases h' with
    | start => simp at has
    | own hplayed' hreaches' hrest' a' =>
      obtain ⟨rfl, ha⟩ := List.append_inj' has rfl
      obtain ⟨rfl, rfl⟩ := ih hplayed'
      obtain rfl : a = a' := (List.cons.inj ha).1
      -- from the same stage both come to rest before the act, and a calm watch does so in one way only
      obtain rfl := Lane.eq_of_rests (hplayed.calm hstart) hreaches hreaches' hrest hrest'
      exact ⟨rfl, rfl⟩

end Stage

end ResourceWatch

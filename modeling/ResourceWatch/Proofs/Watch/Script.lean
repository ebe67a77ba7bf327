import ResourceWatch.Proofs.Store.Tracking
import ResourceWatch.Proofs.Watch.Course

/-!
# Scripts

The script of a scripted store is what it has told so far to whom listens to the end; a session has heard the
beginning of it.  `ScriptedStore.Plays` says how the store stands to a session in each phase: which calls it has got,
and which events are still ahead.  Whatever is sent or ended, and each step of the session, keeps it so
(`World.Advances.plays`).
-/

namespace ResourceWatch

variable {V R σ : Type}

namespace ScriptedStore

/-- No stream has been opened, and the script has no events yet. -/
structure Unfed (script : Heard V) (s : ScriptedStore V) : Prop where
  streams : s.streams = []
  feeding : s.feeding = none
  events : script.events = []
  ended : script.ended = false

/-- The stream `id` has what the script has behind the events that were heard. -/
structure Feeds (script heard : Heard V) (id : Nat) (st : EventStream V) (s : ScriptedStore V) : Prop where
  stream : s.streams[id]? = some st
  receiving : st.queue.receiving = true
  flushing : st.flushing = false
  attached : st.attached = !script.ended
  events : script.events = heard.events ++ st.queue.items
  feeding : s.feeding = if script.ended then none else some id

/-- How the store stands to a session in this phase. -/
def Stands (script heard : Heard V) (key : String) (s : ScriptedStore V) : Phase R → Prop
  | .starting => s.calls = [] ∧ s.Unfed script
  | .reading | .sendingSnapshot _ | .subscribing => s.calls = [.get key] ∧ s.Unfed script
  | .awaiting id | .sending id _ => s.calls = [.get key, .watch key] ∧ ∃ st, s.Feeds script heard id st
  | _ => True

/-- The store tells the script to a session for the key, in this phase, that has heard of it so much. -/
structure Plays (script heard : Heard V) (key : String) (p : Phase R) (s : ScriptedStore V) : Prop where
  answer : script.answer = some s.onGet
  granted : script.granted = some (s.onWatch.map fun _ => ())
  before : heard.Before script
  ended : script.ended = true → s.feeding = none
  calls : s.calls <+: [.get key, .watch key]
  unsubscribed : heard.granted = none → s.calls <+: [.get key] ∧ s.streams = []
  stands : s.Stands script heard key p

variable {script heard : Heard V} {key : String} {p : Phase R} {s : ScriptedStore V}

/-! ### Changes of the store from outside -/

theorem emit_cases (s : ScriptedStore V) (e : Event V) :
    (∃ id st, s.feeding = some id ∧ s.streams[id]? = some st ∧
      s.emit e = (.sent, s.modifyStream id fun st => { st with queue := st.queue.push e })) ∨
    ((s.emit e).1 ≠ .sent ∧ (s.emit e).2 = s) := by
  unfold emit
  cases hfeeding : s.feeding with
  | none => exact Or.inr ⟨by simp, rfl⟩
  | some id =>
    cases hst : s.streams[id]? with
    | none => exact Or.inr ⟨by simp [hst], by simp [hst]⟩
    | some st =>
      simp only [Option.bind_some, hst, Option.map_some]
      split
      · exact Or.inr ⟨by simp, rfl⟩
      · split
        · exact Or.inr ⟨by simp, rfl⟩
        · exact Or.inl ⟨id, st, rfl, hst, rfl⟩

private theorem Plays.open_of_feeding (h : s.Plays script heard key p) {id : Nat} (hfeeding : s.feeding = some id) :
    script.ended = false ∧ heard.ended = false := by
  have hopen : script.ended = false := by
    cases hended : script.ended with
    | false => rfl
    | true => simp [h.ended hended] at hfeeding
  refine ⟨hopen, ?_⟩
  cases hended : heard.ended with
  | false => rfl
  | true =>
    have := (h.before.ended hended).1
    simp [hopen] at this

/-- A change of the stream that is fed, and of the script with it, concerns a session only while it has that
stream. -/
private theorem Stands.of_feeding (h : s.Stands script heard key p) {id : Nat} (hfeeding : s.feeding = some id)
    {script' : Heard V} {s' : ScriptedStore V} (hcalls : s'.calls = s.calls)
    (hfeeds : ∀ st, s.Feeds script heard id st → ∃ st', s'.Feeds script' heard id st') :
    s'.Stands script' heard key p := by
  have hunfed : ¬ s.Unfed script := fun hu => by simp [hu.feeding] at hfeeding
  have hfed : ∀ {j : Nat} {st : EventStream V}, s.Feeds script heard j st → ∃ st', s'.Feeds script' heard j st' := by
    intro j st hj
    have hj' := hj.feeding
    rw [hfeeding] at hj'
    split at hj'
    · simp at hj'
    · obtain rfl : id = j := Option.some.inj hj'
      exact hfeeds st hj
  unfold Stands at h ⊢
  rw [hcalls]
  split
  · exact absurd h.2 hunfed
  · exact absurd h.2 hunfed
  · exact absurd h.2 hunfed
  · exact absurd h.2 hunfed
  · obtain ⟨hcalls, st, hst⟩ := h
    exact ⟨hcalls, hfed hst⟩
  · obtain ⟨hcalls, st, hst⟩ := h
    exact ⟨hcalls, hfed hst⟩
  · trivial

/-- An event that was sent goes to the end of the script. -/
theorem Plays.emit (h : s.Plays script heard key p) {e : Event V} {id : Nat} {st : EventStream V}
    (hfeeding : s.feeding = some id) (hst : s.streams[id]? = some st) :
    (s.modifyStream id fun st => { st with queue := st.queue.push e }).Plays
      { script with events := script.events ++ [e] } heard key p := by
  obtain ⟨hopen, hhopen⟩ := h.open_of_feeding hfeeding
  have hevents : heard.events <+: script.events ++ [e] := h.before.events.trans (List.prefix_append _ _)
  refine ⟨h.answer, h.granted, ⟨h.before.answer, h.before.granted, hevents, fun hended => ?_⟩, h.ended, h.calls,
    fun hnone => ?_, ?_⟩
  · simp [hhopen] at hended
  · have hstreams := (h.unsubscribed hnone).2
    simp [hstreams] at hst
  · refine h.stands.of_feeding hfeeding rfl fun st' hst' => ?_
    refine ⟨{ st' with queue := st'.queue.push e }, ?_, hst'.receiving, hst'.flushing, hst'.attached, ?_,
      hst'.feeding⟩
    · simp [modifyStream, hst'.stream]
    · simp [hst'.events]

theorem Plays.endEvents (h : s.Plays script heard key p) :
    s.endEvents.2.Plays { script with ended := script.ended || s.endEvents.1 } heard key p := by
  unfold ScriptedStore.endEvents
  cases hfeeding : s.feeding with
  | none => simpa using h
  | some id =>
    obtain ⟨hopen, hhopen⟩ := h.open_of_feeding hfeeding
    refine ⟨h.answer, h.granted, ⟨h.before.answer, h.before.granted, h.before.events, fun hended => ?_⟩, fun _ => rfl,
      h.calls, fun hnone => ?_, ?_⟩
    · simp [hhopen] at hended
    · obtain ⟨hcalls, hstreams⟩ := h.unsubscribed hnone
      exact ⟨hcalls, by simp [modifyStream, hstreams]⟩
    · refine h.stands.of_feeding hfeeding rfl fun st hst => ?_
      refine ⟨st.detach, ?_, hst.receiving, hst.flushing, ?_, hst.events, ?_⟩
      · simp [modifyStream, hst.stream]
      · simp [EventStream.detach]
      · simp

theorem Plays.gate (h : s.Plays script heard key p) (shut : Bool) :
    ({ s with gateShut := shut } : ScriptedStore V).Plays script heard key p := by
  refine ⟨h.answer, h.granted, h.before, h.ended, h.calls, h.unsubscribed, ?_⟩
  have hunfed : s.Unfed script → ({ s with gateShut := shut } : ScriptedStore V).Unfed script :=
    fun hu => ⟨hu.streams, hu.feeding, hu.events, hu.ended⟩
  have hfeeds : ∀ {id : Nat}, (∃ st, s.Feeds script heard id st) →
      ∃ st, ({ s with gateShut := shut } : ScriptedStore V).Feeds script heard id st := by
    rintro id ⟨st, hf⟩
    exact ⟨st, hf.stream, hf.receiving, hf.flushing, hf.attached, hf.events, hf.feeding⟩
  have hstands := h.stands
  cases p with
  | starting => exact ⟨hstands.1, hunfed hstands.2⟩
  | reading => exact ⟨hstands.1, hunfed hstands.2⟩
  | sendingSnapshot r => exact ⟨hstands.1, hunfed hstands.2⟩
  | subscribing => exact ⟨hstands.1, hunfed hstands.2⟩
  | awaiting id => exact ⟨hstands.1, hfeeds hstands.2⟩
  | sending id r => exact ⟨hstands.1, hfeeds hstands.2⟩
  | _ => trivial

/-! ### Steps of the session -/

/-- A session that is over asks no more of the store. -/
theorem Plays.over (h : s.Plays script heard key p) {p' : Phase R} (hp' : p'.isAtWork = false) :
    s.Plays script heard key p' := by
  refine ⟨h.answer, h.granted, h.before, h.ended, h.calls, h.unsubscribed, ?_⟩
  cases p' <;> simp [Phase.isAtWork] at hp' <;> trivial

theorem Plays.dropReceiver (h : s.Plays script heard key p) (id : Nat) {p' : Phase R} (hp' : p'.isAtWork = false) :
    (s.modifyStream id (·.drop)).Plays script heard key p' := by
  refine ⟨h.answer, h.granted, h.before, h.ended, h.calls, fun hnone => ?_, ?_⟩
  · obtain ⟨hcalls, hstreams⟩ := h.unsubscribed hnone
    exact ⟨hcalls, by simp [modifyStream, hstreams]⟩
  · cases p' <;> simp [Phase.isAtWork] at hp' <;> trivial

theorem watch_refused {f : StoreFailure} (h : s.onWatch = .error f) (key : String) (token : Token) :
    s.watch key token = (.error (.refused f), { s.note (.watch key) with latestToken := some token }) := by
  simp [watch, note, h]

/-- A subscription that is granted opens a stream, which is fed from then on. -/
theorem watch_granted {capacity : Nat} (h : s.onWatch = .ok capacity)
    (hcapacity : 0 < capacity ∧ capacity ≤ Queue.maxCapacity) (hfeeding : s.feeding = none) (key : String)
    (token : Token) :
    s.watch key token = (.ok s.streams.length,
      { s.note (.watch key) with
        latestToken := some token
        streams := s.streams ++ [{ key, token, queue := { capacity }, guarding := false }]
        feeding := some s.streams.length }) := by
  simp [watch, note, h, Queue.make?, hcapacity, endEvents, hfeeding]

private theorem Plays.heard_events_eq_nil (h : s.Plays script heard key p) (hu : s.Unfed script) :
    heard.events = [] := by
  have := h.before.events
  rw [hu.events] at this
  exact List.prefix_nil.1 this

/-- The session hears the answer to its read. -/
theorem Plays.answered (h : s.Plays script heard key p) (hp : p = .reading) {p' : Phase R}
    (hp' : p'.isAtWork = false ∨ ∃ r, p' = .sendingSnapshot r) :
    s.Plays script { heard with answer := some s.onGet } key p' := by
  subst hp
  refine ⟨h.answer, h.granted, ⟨Or.inr h.answer, h.before.granted, h.before.events, h.before.ended⟩, h.ended, h.calls,
    h.unsubscribed, ?_⟩
  rcases hp' with hp' | ⟨r, rfl⟩
  · cases p' <;> simp [Phase.isAtWork] at hp' <;> trivial
  · exact h.stands

theorem Plays.called (h : s.Plays script heard key p) (hp : p = .starting) :
    (s.note (.get key)).Plays script heard key (.reading : Phase R) := by
  subst hp
  obtain ⟨hcalls, hu⟩ := h.stands
  have hcalls' : (s.note (.get key)).calls = [.get key] := by simp [note, hcalls]
  refine ⟨h.answer, h.granted, h.before, h.ended, ?_, fun _ => ⟨?_, hu.streams⟩, hcalls', hu.streams, hu.feeding,
    hu.events, hu.ended⟩
  · rw [hcalls']
    exact ⟨[.watch key], rfl⟩
  · exact hcalls' ▸ List.prefix_rfl

theorem Plays.refused (h : s.Plays script heard key p) (hp : p = .subscribing) {f : StoreFailure}
    (hf : s.onWatch = .error f) (token : Token) {p' : Phase R} (hp' : p'.isAtWork = false) :
    (s.watch key token).2.Plays script { heard with granted := some (.error f) } key p' := by
  subst hp
  obtain ⟨hcalls, hu⟩ := h.stands
  rw [watch_refused hf]
  refine ⟨h.answer, h.granted, ⟨h.before.answer, Or.inr ?_, h.before.events, h.before.ended⟩, h.ended, ?_,
    fun hnone => by simp at hnone, ?_⟩
  · rw [h.granted, hf]
    rfl
  · simp [note, hcalls]
  · cases p' <;> simp [Phase.isAtWork] at hp' <;> trivial

theorem Plays.subscribed (h : s.Plays script heard key p) (hp : p = .subscribing) {capacity : Nat}
    (hgranted : s.onWatch = .ok capacity) (hcapacity : 0 < capacity ∧ capacity ≤ Queue.maxCapacity) (token : Token) :
    (s.watch key token).2.Plays script { heard with granted := some (.ok ()) } key
      (.awaiting s.streams.length : Phase R) := by
  subst hp
  obtain ⟨hcalls, hu⟩ := h.stands
  rw [watch_granted hgranted hcapacity hu.feeding]
  have hcalls' : (s.note (.watch key)).calls = [.get key, .watch key] := by simp [note, hcalls]
  refine ⟨h.answer, h.granted, ⟨h.before.answer, Or.inr ?_, h.before.events, h.before.ended⟩, fun hended => ?_, ?_,
    fun hnone => by simp at hnone, hcalls', { key, token, queue := { capacity }, guarding := false }, ?_⟩
  · rw [h.granted, hgranted]
    rfl
  · simp [hu.ended] at hended
  · exact hcalls' ▸ List.prefix_rfl
  · refine ⟨by simp, rfl, rfl, by simp [hu.ended], ?_, by simp [hu.ended]⟩
    simp [hu.events, h.heard_events_eq_nil hu]

/-- The answer to the subscription of the session. -/
theorem Plays.watch_cases (h : s.Plays script heard key p) (hp : p = .subscribing)
    (hcapacity : ∀ capacity, s.onWatch = .ok capacity → 0 < capacity ∧ capacity ≤ Queue.maxCapacity) (token : Token) :
    (s.watch key token).2.onWatch = s.onWatch ∧
      ((∃ f, s.onWatch = .error f ∧
          (Backend.scripted s).watch key token = (.error (.refused f), .scripted (s.watch key token).2)) ∨
        ∃ capacity, s.onWatch = .ok capacity ∧
          (Backend.scripted s).watch key token = (.ok s.streams.length, .scripted (s.watch key token).2)) := by
  subst hp
  obtain ⟨-, hu⟩ := h.stands
  cases hwatch : s.onWatch with
  | error f =>
    refine ⟨?_, Or.inl ⟨f, rfl, ?_⟩⟩
    · rw [watch_refused hwatch]
      exact hwatch
    · rw [Backend.watch, watch_refused hwatch]
  | ok capacity =>
    refine ⟨?_, Or.inr ⟨capacity, rfl, ?_⟩⟩
    · rw [watch_granted hwatch (hcapacity capacity hwatch) hu.feeding]
      exact hwatch
    · rw [Backend.watch, watch_granted hwatch (hcapacity capacity hwatch) hu.feeding]

/-- What the session is told by the stream that is fed. -/
theorem Feeds.receive_cases {id : Nat} {st : EventStream V} (h : s.Feeds script heard id st) :
    ((Backend.scripted s).receive id).2 = .scripted (s.modifyStream id (·.receive.2)) ∧
      ((∃ e, st.queue.items = e :: st.receive.2.queue.items ∧ ((Backend.scripted s).receive id).1 = .item e) ∨
        (st.queue.items = [] ∧
          ((Backend.scripted s).receive id).1 = if script.ended then .ended else .pending)) := by
  have hreceive : (Backend.scripted s).receive id = (st.receive.1, .scripted (s.modifyStream id (·.receive.2))) := by
    simp only [Backend.receive, Backend.streams, h.stream, Backend.modifyStream]
  rw [hreceive]
  refine ⟨rfl, ?_⟩
  have hopen : st.isOpen = !script.ended := by rw [EventStream.isOpen, h.attached, h.flushing, Bool.or_false]
  unfold EventStream.receive Queue.receive
  cases hitems : st.queue.items with
  | nil =>
    refine Or.inr ⟨rfl, ?_⟩
    rw [hopen]
    cases script.ended <;> rfl
  | cons e rest => exact Or.inl ⟨e, rfl, rfl⟩

theorem Plays.taken (h : s.Plays script heard key p) {id : Nat} (hp : p = .awaiting id) {e : Event V}
    (hgot : ((Backend.scripted s).receive id).1 = .item e) {p' : Phase R}
    (hp' : p'.isAtWork = false ∨ p' = .awaiting id ∨ ∃ r, p' = .sending id r) :
    (s.modifyStream id (·.receive.2)).Plays script { heard with events := heard.events ++ [e] } key p' := by
  subst hp
  obtain ⟨hcalls, st, hst⟩ := h.stands
  obtain ⟨-, ⟨e', hitems, he'⟩ | ⟨-, hnone⟩⟩ := hst.receive_cases
  · obtain rfl : e' = e := by simpa [he'] using hgot
    have hevents : script.events = heard.events ++ [e'] ++ st.receive.2.queue.items := by
      rw [hst.events, hitems, List.append_assoc]
      rfl
    have hbefore : heard.events ++ [e'] <+: script.events := ⟨_, hevents.symm⟩
    -- the end is heard behind all events, so not yet
    have hopen : heard.ended = false := by
      cases hended : heard.ended with
      | false => rfl
      | true =>
        have hlength := congrArg List.length ((h.before.ended hended).2.symm.trans hst.events)
        simp [hitems] at hlength
    refine ⟨h.answer, h.granted, ⟨h.before.answer, h.before.granted, hbefore, fun hended => ?_⟩, h.ended, h.calls,
      fun hnone => ?_, ?_⟩
    · simp [hopen] at hended
    · have hstreams := (h.unsubscribed hnone).2
      have := hst.stream
      simp [hstreams] at this
    · have hfeeds : (s.modifyStream id (·.receive.2)).Feeds script { heard with events := heard.events ++ [e'] } id
          st.receive.2 := by
        refine ⟨?_, st.receiving_receive.trans hst.receiving, hst.flushing, hst.attached, hevents, hst.feeding⟩
        simp [modifyStream, hst.stream]
      rcases hp' with hp' | rfl | ⟨r, rfl⟩
      · cases p' <;> simp [Phase.isAtWork] at hp' <;> trivial
      · exact ⟨hcalls, _, hfeeds⟩
      · exact ⟨hcalls, _, hfeeds⟩
  · rw [hnone] at hgot
    split at hgot <;> simp at hgot

theorem Plays.toldEnd (h : s.Plays script heard key p) {id : Nat} (hp : p = .awaiting id)
    (hgot : ((Backend.scripted s).receive id).1 = .ended) {p' : Phase R} (hp' : p'.isAtWork = false) :
    s.Plays script { heard with ended := true } key p' := by
  subst hp
  obtain ⟨hcalls, st, hst⟩ := h.stands
  obtain ⟨-, ⟨e, -, he⟩ | ⟨hitems, hnone⟩⟩ := hst.receive_cases
  · simp [he] at hgot
  · rw [hnone] at hgot
    split at hgot
    · rename_i hended
      have hall : script.events = heard.events := by rw [hst.events, hitems, List.append_nil]
      refine ⟨h.answer, h.granted, ⟨h.before.answer, h.before.granted, h.before.events, fun _ => ⟨hended, hall⟩⟩,
        h.ended, h.calls, h.unsubscribed, ?_⟩
      cases p' <;> simp [Phase.isAtWork] at hp' <;> trivial
    · simp at hgot

theorem Plays.sent (h : s.Plays script heard key p) {r : R} {next : Phase R} (hp : p.sends? = some (r, next)) :
    s.Plays script heard key next := by
  refine ⟨h.answer, h.granted, h.before, h.ended, h.calls, h.unsubscribed, ?_⟩
  have hstands := h.stands
  cases p <;> simp only [Phase.sends?, Option.some.injEq, Prod.mk.injEq, reduceCtorEq] at hp
  · obtain ⟨-, rfl⟩ := hp
    exact hstands
  · obtain ⟨-, rfl⟩ := hp
    exact hstands

end ScriptedStore

namespace World

variable {make : Maker V R σ} {w w' : World V R σ} {i : Nat} {x x' : Session R} {script heard : Heard V}
  {s : ScriptedStore V}

/-- A session that ends lets go of the stream that it received from. -/
theorem plays_endSession {w₁ : World V R σ} {s₁ : ScriptedStore V} (hs : w₁.store = .scripted s₁) {o : Outcome}
    (h : s₁.Plays script heard x.key (x.afterEnd o)) (i : Nat) :
    ∃ s', (w₁.endSession i x o).store = .scripted s' ∧ s'.onWatch = s₁.onWatch ∧
      s'.Plays script heard x.key (x.afterEnd o) := by
  have hstore : (w₁.endSession i x o).store = x.phase.stream?.elim w₁.store w₁.store.dropReceiver := rfl
  rw [hstore, hs]
  cases x.phase.stream? with
  | none => exact ⟨s₁, rfl, rfl, h⟩
  | some id => exact ⟨s₁.modifyStream id (·.drop), rfl, rfl, h.dropReceiver id (x.isAtWork_afterEnd o)⟩

/-- A step of a session at work goes on with the script. -/
theorem Advances.plays (h : Advances make w i x w') (hworking : x.phase.isAtWork = true)
    (hheld : x.replies.receiving = true) (hs : w.store = .scripted s)
    (hcapacity : ∀ capacity, s.onWatch = .ok capacity → 0 < capacity ∧ capacity ≤ Queue.maxCapacity)
    (hplays : s.Plays script heard x.key x.phase) (hx : w.sessions[i]? = some x) (hx' : w'.sessions[i]? = some x') :
    ∃ s', w'.store = .scripted s' ∧ s'.onWatch = s.onWatch ∧
      s'.Plays script (w.hear x heard) x.key x'.phase := by
  have hi : i < w.sessions.length := (List.getElem?_eq_some_iff.1 hx).1
  have hset : ∀ {y : Session R}, w'.sessions = w.sessions.set i y → x' = y := by
    intro y hy
    rw [hy, List.getElem?_set_self hi] at hx'
    exact (Option.some.inj hx').symm
  have hanswer : ∀ {a : Except StoreFailure V}, w.store.answer? x.key = some a → a = s.onGet := by
    intro a ha
    rw [hs, Backend.answer?] at ha
    split at ha
    · simp at ha
    · exact (Option.some.inj ha).symm
  have hreceived : ∀ {id : Nat} {e : Event V} {store : Backend V}, x.phase = .awaiting id →
      w.store.receive id = (.item e, store) →
      store = .scripted (s.modifyStream id (·.receive.2)) ∧ ((Backend.scripted s).receive id).1 = .item e := by
    intro id e store hp hgot
    have hstands := hplays.stands
    rw [hp] at hstands
    obtain ⟨-, st, hst⟩ := hstands
    rw [hs] at hgot
    rw [← hst.receive_cases.1, hgot]
    exact ⟨rfl, rfl⟩
  cases h with
  | call hp =>
    obtain rfl := hset rfl
    refine ⟨s.note (.get x.key), ?_, rfl, ?_⟩
    · simp [setSession, hs, Backend.call]
    · rw [hear_starting hp]
      exact hplays.called hp
  | unread hp ha =>
    obtain rfl := hset rfl
    rw [hear_answer hp ha, hanswer ha]
    exact plays_endSession hs (hplays.answered hp (Or.inl (x.isAtWork_afterEnd _))) i
  | @read v st st' r changed hp ha hmaker hmade =>
    obtain rfl := hset rfl
    refine ⟨s, hs, rfl, ?_⟩
    rw [hear_answer hp ha, hanswer ha]
    exact hplays.answered hp (Or.inr ⟨r, rfl⟩)
  | unmade hp ha hmaker hmade =>
    obtain rfl := hset rfl
    rw [hear_answer hp ha, hanswer ha]
    exact plays_endSession (by exact hs) (hplays.answered hp (Or.inl (x.isAtWork_afterEnd _))) i
  | @send r next hp =>
    obtain rfl := hset rfl
    refine ⟨s, hs, rfl, ?_⟩
    rw [hear_of_sends? hp]
    exact hplays.sent hp
  | disconnect _ hgone => simp [hheld] at hgone
  | @subscribe id store hp hgranted =>
    obtain rfl := hset rfl
    have hhear := hear_granted hp hgranted heard
    rw [hs] at hgranted
    obtain ⟨honWatch, ⟨f, -, hf⟩ | ⟨capacity, hwatch, hok⟩⟩ := hplays.watch_cases hp hcapacity x.token
    · simp [hf] at hgranted
    · rw [hok, Prod.mk.injEq, Except.ok.injEq] at hgranted
      obtain ⟨rfl, rfl⟩ := hgranted
      refine ⟨_, rfl, honWatch, ?_⟩
      rw [hhear]
      exact hplays.subscribed hp hwatch (hcapacity capacity hwatch) x.token
  | @refused f store hp hgranted =>
    obtain rfl := hset rfl
    have hhear := hear_refused hp hgranted heard
    rw [hs] at hgranted
    obtain ⟨honWatch, ⟨f', hwatch, hf⟩ | ⟨capacity, -, hok⟩⟩ := hplays.watch_cases hp hcapacity x.token
    · rw [hf, Prod.mk.injEq, Except.error.injEq, SubscribeError.refused.injEq] at hgranted
      obtain ⟨rfl, rfl⟩ := hgranted
      rw [hhear, ← honWatch]
      exact plays_endSession rfl (hplays.refused hp hwatch x.token (x.isAtWork_afterEnd _)) i
    · simp [hok] at hgranted
  | @crash store hp hgranted =>
    rw [hs] at hgranted
    obtain ⟨-, ⟨f, -, hf⟩ | ⟨capacity, -, hok⟩⟩ := hplays.watch_cases hp hcapacity x.token
    · simp [hf] at hgranted
    · simp [hok] at hgranted
  | @value id e u store st₁ st' r changed hp hgot htold hmaker hmade =>
    obtain rfl := hset rfl
    obtain ⟨rfl, he⟩ := hreceived hp hgot
    refine ⟨s.modifyStream id (·.receive.2), rfl, rfl, ?_⟩
    rw [hear_event hp hgot]
    cases changed with
    | true => exact hplays.taken hp he (Or.inr (Or.inr ⟨r, rfl⟩))
    | false => exact hplays.taken hp he (Or.inr (Or.inl rfl))
  | unmadeValue hp hgot htold hmaker hmade =>
    obtain rfl := hset rfl
    obtain ⟨rfl, he⟩ := hreceived hp hgot
    rw [hear_event hp hgot]
    exact plays_endSession rfl (hplays.taken hp he (Or.inl (x.isAtWork_afterEnd _))) i
  | failure hp hgot htold =>
    obtain rfl := hset rfl
    obtain ⟨rfl, he⟩ := hreceived hp hgot
    rw [hear_event hp hgot]
    exact plays_endSession rfl (hplays.taken hp he (Or.inl (x.isAtWork_afterEnd _))) i
  | @ended id store hp hgot =>
    obtain rfl := hset rfl
    have he : ((Backend.scripted s).receive id).1 = .ended := by rw [← hs, hgot]
    rw [hear_end hp hgot]
    exact plays_endSession hs (hplays.toldEnd hp he (x.isAtWork_afterEnd _)) i
  | report hp => simp [hp, Phase.isAtWork] at hworking
  | unreported hp => simp [hp, Phase.isAtWork] at hworking

end World

end ResourceWatch

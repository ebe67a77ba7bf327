import ResourceWatch.Proofs.Store.Beside
import ResourceWatch.Proofs.Watch.Lane

/-!
# A watch in its world

`World.serving` takes a served watch out of the world that hosts it, leaving behind numbers and tokens.  What its
session does in the world is a step of the session by itself (`World.Advances.acts`).
-/

namespace ResourceWatch

variable {V R σ : Type}

/-! ### Without numbers and tokens -/

def EventStream.bare (st : EventStream V) : EventStream V := { st with token := [] }

def Watcher.bare (a : Watcher R) : Watcher R := { a with token := [] }

def Phase.bare : Phase R → Phase R
  | .awaiting _ => .awaiting 0
  | .sending _ reply => .sending 0 reply
  | p => p

namespace EventStream

theorem receive_bare (st : EventStream V) : st.bare.receive = (st.receive.1, st.receive.2.bare) := rfl

theorem flush?_bare (st : EventStream V) : st.bare.flush? = st.flush?.map (·.bare) := by
  unfold flush? bare
  split
  · rfl
  · split
    · rfl
    · split
      · rfl
      · cases st.parked <;> rfl

end EventStream

namespace MemoryStore

variable {s t : MemoryStore V} {key : String} {token : Token}

/-- Whether a subscription is granted has nothing to do with the streams that there are. -/
theorem watch_core_of_error {e : SubscribeError} (h : s.watch key token = .error e) :
    s.core.watch key [] = .error e := by
  unfold watch at h ⊢
  cases hclosed : s.closed with
  | true =>
    rw [if_pos hclosed] at h
    rw [if_pos (by simp [core, hclosed]), h]
  | false =>
    rw [if_neg (by simp [hclosed])] at h
    rw [if_neg (by simp [core, hclosed])]
    cases hqueue : (Queue.make? s.capacity : Option (Queue (Event V))) with
    | none =>
      rw [hqueue] at h
      simpa [core, hqueue] using h
    | some queue => simp [hqueue] at h

theorem watch_core_of_ok {id : Nat} (h : s.watch key token = .ok (id, t)) :
    ∃ t', s.core.watch key [] = .ok (0, t') ∧ t'.streams.getLast? = t.streams[id]?.map (·.bare) := by
  unfold watch at h ⊢
  cases hclosed : s.closed with
  | true => simp [hclosed] at h
  | false =>
    rw [if_neg (by simp [hclosed])] at h
    rw [if_neg (by simp [core, hclosed])]
    cases hqueue : (Queue.make? s.capacity : Option (Queue (Event V))) with
    | none => simp [hqueue] at h
    | some queue =>
      simp only [hqueue, Except.ok.injEq, Prod.mk.injEq] at h
      obtain ⟨rfl, rfl⟩ := h
      refine ⟨_, by simp only [core, hqueue]; rfl, ?_⟩
      simp [EventStream.bare]

end MemoryStore

namespace Watcher

theorem pull?_bare (a : Watcher R) (source : Queue (Item R)) (open_ : Bool) :
    a.bare.pull? source open_ = (a.pull? source open_).map fun r => (r.1.bare, r.2) := by
  unfold pull? bare
  dsimp only
  split
  · rfl
  · cases a.held with
    | some r =>
      dsimp only
      unfold deliver?
      dsimp only
      split
      · rfl
      · split <;> rfl
    | none =>
      dsimp only
      rcases source.receive open_ with ⟨got, source⟩
      cases got with
      | item item => cases item <;> rfl
      | pending => rfl
      | ended => rfl

end Watcher

namespace Worker

variable {make : Maker V R σ} {k : Worker V R σ} {v : V} {state : σ}

theorem transform_ok {r : R} {changed : Bool} (hmade : make k.state k.key v = (state, .ok (r, changed)))
    (next : R → Bool → Phase R) : k.transform make v next = { k with state, phase := next r changed } := by
  simp only [transform, hmade]

theorem transform_error {status : Status} (hmade : make k.state k.key v = (state, .error status))
    (next : R → Bool → Phase R) :
    k.transform make v next = { k with state }.finish (.failed (.transform status)) := by
  simp only [transform, hmade]

theorem hear_of_value {e : Event V} {u : V} (hu : e.kind.value? = some u) :
    k.hear make e = k.transform make u fun reply changed => if changed then .sending 0 reply else .awaiting 0 := by
  unfold hear
  cases hk : e.kind <;> simp only [hk, EventKind.value?, Option.some.injEq, reduceCtorEq] at hu ⊢
  · rw [hu]
  · rw [hu]

end Worker

namespace World

variable {make : Maker V R σ} {w w' : World V R σ} {s s' : MemoryStore V} {i : Nat} {x : Session R} {state : σ}

def worker (w : World V R σ) (x : Session R) (state : σ) : Worker V R σ where
  key := x.key
  state := state
  cancelled := w.tokens.isCancelled x.token
  phase := x.phase.bare
  stream := (x.phase.stream?.bind (w.store.streams[·]?)).map (·.bare)

def serving (w : World V R σ) (x : Session R) (state : σ) (a : Option (Watcher R)) : Serving V R σ where
  worker := w.worker x state
  replies := x.replies
  monitored := x.monitored
  watcher := a.map (·.bare)
  quitting := a.any fun a => w.tokens.isCancelled a.token

/-- Somebody may still send to the watch by itself if somebody may in the world. -/
theorem isOpen_serving (w : World V R σ) (x : Session R) (state : σ) (a : Option (Watcher R)) :
    (w.serving x state a).isOpen = x.isOpen := by
  simp only [Serving.isOpen, serving, worker, Session.isOpen]
  cases x.phase <;> rfl

/-! ### The steps of the session -/

/-- Where a session that has no stream stands. -/
theorem worker_of_idle (w : World V R σ) (state : σ) {x : Session R} (h : x.phase.stream? = none) :
    w.worker x state =
      { key := x.key, state, cancelled := w.tokens.isCancelled x.token, phase := x.phase, stream := none } := by
  have hbare : x.phase.bare = x.phase := by cases hp : x.phase <;> simp [hp, Phase.stream?, Phase.bare] at h ⊢
  rw [worker, hbare, h]
  rfl

/-- A session ends in the world as it ends by itself. -/
theorem worker_endSession (hserved : x.served = true) {o : Outcome} (ho : o ≠ .failed .disconnected)
    (w : World V R σ) (i : Nat) (state : σ) :
    (w.endSession i x o).worker { x with phase := x.afterEnd o } state =
      { key := x.key, state, cancelled := true, phase := o.phase, stream := none } := by
  have hphase : x.afterEnd o = o.phase := by
    cases o with
    | done => rfl
    | failed e => cases e <;> simp_all [Session.afterEnd, Outcome.phase]
  have hcancelled : (w.endSession i x o).tokens.isCancelled x.token = true := w.tokens.isCancelled_cancel_self x.token
  rw [worker_of_idle _ _ (x.stream?_afterEnd o), hphase]
  simp only [hcancelled]

private theorem received (hs : w.store = .memory s) {id : Nat} {token : Token}
    (hstream : ∃ st, s.streams[id]? = some st ∧ st.token = token) {got : Received (Event V)} {store : Backend V}
    (h : w.store.receive id = (got, store)) :
    ∃ st t, s.streams[id]? = some st ∧ st.token = token ∧ st.receive = (got, st.receive.2) ∧
      t.streams[id]? = some st.receive.2 ∧ store = .memory t := by
  obtain ⟨st, hst, htoken⟩ := hstream
  rw [hs, Backend.receive_memory, Prod.mk.injEq] at h
  obtain ⟨rfl, rfl⟩ := h
  refine ⟨st, (s.receive id).2, hst, htoken, ?_, ?_, rfl⟩
  · simp [MemoryStore.receive, hst]
  · rw [s.getElem?_receive, hst]
    simp

/-- A session that waits for an event receives from its stream. -/
private theorem awaiting_act? {core : MemoryStore V} (hs : w.store = .memory s) {id : Nat}
    (hp : x.phase = .awaiting id) {st : EventStream V} (hst : s.streams[id]? = some st) :
    (w.worker x state).act? make core = match st.receive with
      | (.item e, st) => some ({ w.worker x state with stream := some st.bare }.hear make e, none)
      | (.ended, _) => some ((w.worker x state).finish .done, none)
      | (.pending, _) => none := by
  have hstream : (w.worker x state).stream = some st.bare := by
    simp [worker, hp, Phase.stream?, hs, Backend.streams, hst]
  have hphase : (w.worker x state).phase = .awaiting 0 := by rw [worker, hp]; rfl
  unfold Worker.act?
  rw [hphase, hstream]
  simp only [EventStream.receive_bare]
  rcases st.receive with ⟨_ | _ | _, _⟩ <;> rfl

/-- What the turn of a session does, seen from the watch by itself: a step, and perhaps an item that is sent with
it. -/
structure Acts (make : Maker V R σ) (core : MemoryStore V) (w : World V R σ) (i : Nat) (x : Session R) (state : σ)
    (w' : World V R σ) (p : Phase R) (state' : σ) (item : Option (Item R)) : Prop where
  session : w'.sessions = w.sessions.set i { x with phase := p, replies := item.elim x.replies x.replies.push }
  maker : w'.makers[x.maker]? = some state'
  act : (w.worker x state).act? make core = some (w'.worker { x with phase := p } state', item)
  room : item.isSome = true → x.replies.hasRoom = true
  stream : ∀ id, p.stream? = some id → ∃ st, w'.store.streams[id]? = some st ∧ st.token = x.token

/-- The session fails for something that it found or was told, and lets go of its stream. -/
private theorem acts_endSession {core : MemoryStore V} (hserved : x.served = true) {o : Outcome}
    (ho : o ≠ .failed .disconnected) (w₁ : World V R σ) (hsessions : w₁.sessions = w.sessions) {state' : σ}
    (hmaker : w₁.makers[x.maker]? = some state') {k : Worker V R σ} (hkey : k.key = x.key) (hstate : k.state = state')
    (hact : (w.worker x state).act? make core = some (k.finish o, none)) :
    Acts make core w i x state (w₁.endSession i x o) (x.afterEnd o) state' none := by
  refine ⟨congrArg (List.set · i _) hsessions, hmaker, ?_, fun h => by simp at h, fun id hid => ?_⟩
  · rw [worker_endSession hserved ho, hact, Worker.finish, hkey, hstate]
  · simp [x.stream?_afterEnd o] at hid

theorem Advances.acts (h : Advances make w i x w') (hs : w.store = .memory s) (hserved : x.served = true)
    (hheld : x.replies.receiving = true) (hstate : w.makers[x.maker]? = some state)
    (hstream : ∀ id, x.phase.stream? = some id → ∃ st, s.streams[id]? = some st ∧ st.token = x.token) :
    ∃ p state' item, Acts make s.core w i x state w' p state' item := by
  have hworker : ∀ {p : Phase R}, x.phase = p → p.stream? = none → w.worker x state =
      { key := x.key, state, cancelled := w.tokens.isCancelled x.token, phase := p, stream := none } := by
    intro p hp hidle
    subst hp
    exact w.worker_of_idle state hidle
  have hlt : x.maker < w.makers.length := (List.getElem?_eq_some_iff.1 hstate).1
  have hput : ∀ st' : σ, (w.makers.set x.maker st')[x.maker]? = some st' := fun st' => List.getElem?_set_self hlt
  have hcore : ∀ key, s.core.get key = s.get key := fun _ => rfl
  have hidle : ∀ {p : Phase R} {store : Backend V}, p.stream? = none → ∀ id, p.stream? = some id →
      ∃ st, store.streams[id]? = some st ∧ st.token = x.token := fun hp id hid => by simp [hp] at hid
  cases h with
  | call hp =>
    refine ⟨.reading, state, none, rfl, hstate, ?_, fun h => by simp at h, hidle rfl⟩
    rw [hworker hp rfl, worker_of_idle _ _ (by rfl)]
    rfl
  | @unread f hp hanswer =>
    rw [hs, Backend.answer?, Option.some.injEq] at hanswer
    refine ⟨_, state, none, acts_endSession (k := w.worker x state) hserved (by simp) w rfl hstate rfl rfl ?_⟩
    rw [hworker hp rfl, Worker.act?]
    simp only [hcore, hanswer]
  | @read v st st' r changed hp hanswer hmaker hmade =>
    rw [hs, Backend.answer?, Option.some.injEq] at hanswer
    obtain rfl := Option.some.inj (hstate.symm.trans hmaker)
    refine ⟨.sendingSnapshot r, st', none, rfl, hput st', ?_, fun h => by simp at h, hidle rfl⟩
    rw [hworker hp rfl, Worker.act?, worker_of_idle _ _ (by rfl)]
    simp only [hcore, hanswer]
    rw [Worker.transform_ok hmade]
    rfl
  | @unmade v st st' status hp hanswer hmaker hmade =>
    rw [hs, Backend.answer?, Option.some.injEq] at hanswer
    obtain rfl := Option.some.inj (hstate.symm.trans hmaker)
    refine ⟨_, st', none, acts_endSession (k := { w.worker x state with state := st' })
      (w := w) (o := .failed (.transform status)) hserved (by simp) { w with makers := w.makers.set x.maker st' } rfl
      (hput st') rfl rfl ?_⟩
    rw [hworker hp rfl, Worker.act?]
    simp only [hcore, hanswer]
    rw [Worker.transform_error hmade]
  | @send r next hp hheld hroom =>
    refine ⟨next, state, some (.ok r), ?_⟩
    cases hphase : x.phase <;> simp only [hphase, Phase.sends?, Option.some.injEq, Prod.mk.injEq, reduceCtorEq] at hp
    · obtain ⟨rfl, rfl⟩ := hp
      refine ⟨rfl, hstate, ?_, fun _ => hroom, hidle rfl⟩
      rw [hworker hphase rfl, Worker.act?, worker_of_idle _ _ (by rfl)]
      rfl
    · obtain ⟨rfl, rfl⟩ := hp
      refine ⟨rfl, hstate, ?_, fun _ => hroom, fun id hid => ?_⟩
      · simp only [worker, hphase, Phase.bare, Worker.act?, Phase.stream?]
        rfl
      · obtain ⟨st, hst, htoken⟩ := hstream id (by rw [hphase]; exact hid)
        refine ⟨st, ?_, htoken⟩
        change w.store.streams[id]? = some st
        rw [hs]
        exact hst
  | disconnect hp hgone => simp [hheld] at hgone
  | @subscribe id store hp hgranted =>
    obtain ⟨t, ht, rfl⟩ := Backend.of_watch_ok hs hgranted
    obtain ⟨t', ht', hlast⟩ := MemoryStore.watch_core_of_ok ht
    refine ⟨.awaiting id, state, none, rfl, hstate, ?_, fun h => by simp at h, fun id' hid => ?_⟩
    · rw [hworker hp rfl, Worker.act?]
      simp only [Worker.subscribe, ht', hlast]
      rfl
    · obtain rfl : id = id' := Option.some.inj hid
      obtain ⟨rfl, -, -, ⟨queue, -, hstreams⟩, -⟩ := MemoryStore.watch_ok ht
      exact ⟨_, by simp only [setSession, Backend.streams, hstreams]; exact List.getElem?_concat_length, rfl⟩
  | @refused f store hp hgranted =>
    have ht := (Backend.of_watch_error hs hgranted).1
    refine ⟨_, state, none, acts_endSession (k := w.worker x state) (w := w) (o := .failed (.subscribe x.key f))
      hserved (by simp) { w with store } rfl hstate rfl rfl ?_⟩
    rw [hworker hp rfl, Worker.act?]
    simp only [Worker.subscribe, MemoryStore.watch_core_of_error ht]
  | @crash store hp hgranted =>
    have ht := (Backend.of_watch_error hs hgranted).1
    have hcancelled : ({ w with store }.crashSession i x).tokens.isCancelled x.token = true :=
      w.tokens.isCancelled_cancel_self x.token
    refine ⟨.crashed, state, none, rfl, hstate, ?_, fun h => by simp at h, hidle rfl⟩
    rw [hworker hp rfl, Worker.act?, worker_of_idle _ _ (by rfl)]
    simp only [Worker.subscribe, MemoryStore.watch_core_of_error ht, hcancelled]
  | @value id e u store st st' r changed hp hgot htold hmaker hmade =>
    obtain rfl := Option.some.inj (hstate.symm.trans hmaker)
    obtain ⟨own, t, hown, htoken, hreceived, ht, rfl⟩ := received hs (hstream id (by rw [hp]; rfl)) hgot
    refine ⟨if changed then .sending id r else .awaiting id, st', none, rfl, hput st', ?_, fun h => by simp at h,
      fun id' hid => ⟨own.receive.2, ?_, htoken⟩⟩
    · rw [awaiting_act? hs hp hown, hreceived]
      simp only [Worker.hear_of_value htold]
      rw [Worker.transform_ok hmade]
      cases changed <;> simp [worker, setSession, Phase.bare, Phase.stream?, Backend.streams, ht]
    · have hid : id = id' := by cases changed <;> exact Option.some.inj hid
      rw [← hid]
      exact ht
  | @unmadeValue id e u store st st' status hp hgot htold hmaker hmade =>
    obtain rfl := Option.some.inj (hstate.symm.trans hmaker)
    obtain ⟨own, t, hown, -, hreceived, ht, rfl⟩ := received hs (hstream id (by rw [hp]; rfl)) hgot
    refine ⟨_, st', none, acts_endSession (k := { w.worker x state with state := st' }) (w := w)
      (o := .failed (.transform status)) hserved (by simp)
      { w with store := .memory t, makers := w.makers.set x.maker st' } rfl (hput st') rfl rfl ?_⟩
    rw [awaiting_act? hs hp hown, hreceived]
    simp only [Worker.hear_of_value htold]
    rw [Worker.transform_error hmade]
    rfl
  | @failure id e text store hp hgot htold =>
    obtain ⟨own, t, hown, -, hreceived, ht, rfl⟩ := received hs (hstream id (by rw [hp]; rfl)) hgot
    refine ⟨_, state, none, acts_endSession (k := w.worker x state) (w := w)
      (o := .failed (.event x.key e.id text)) hserved (by simp) { w with store := .memory t } rfl hstate rfl rfl ?_⟩
    rw [awaiting_act? hs hp hown, hreceived]
    simp only [Worker.hear, htold]
    rfl
  | @ended id store hp hgot =>
    obtain ⟨own, t, hown, -, hreceived, ht, rfl⟩ := received hs (hstream id (by rw [hp]; rfl)) hgot
    refine ⟨_, state, none, acts_endSession (k := w.worker x state) (w := w) (o := .done) hserved (by simp) w rfl
      hstate rfl rfl ?_⟩
    rw [awaiting_act? hs hp hown, hreceived]
  | @report e hp hheld hroom =>
    refine ⟨.finished (.failed e), state, some (.error e.status), rfl, hstate, ?_, fun _ => hroom, hidle rfl⟩
    rw [hworker hp rfl, Worker.act?, worker_of_idle _ _ (by rfl)]
    rfl
  | unreported hp hgone => simp [hheld] at hgone

end World

end ResourceWatch

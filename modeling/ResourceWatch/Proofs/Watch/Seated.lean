import ResourceWatch.Proofs.Watch.Hosting
import ResourceWatch.Proofs.Watch.Stage

/-!
# The watch on the seat

The watch of the one on the seat stands in the world as `World.Hosts` says.  Strangers leave it there as it is.  Every
turn of one of its own tasks is a turn of the watch by itself (`World.Hosts.turn`), and when none of them can go on
the watch by itself is at rest.  What changes of the store and the acts of its caller do to it in the world, they do
to the watch by itself.
-/

namespace ResourceWatch

variable {V R σ : Type}

namespace World

variable {make : Maker V R σ} {w w' : World V R σ} {s s' : MemoryStore V} {i : Nat} {x : Session R} {state : σ}

/-! ### Where it stands -/

/-- The watch of the one on the seat, session `i` with endpoint state `m` and watcher `k` if there is one, is served
in the world: `x`, `state` and `a` are what these are. -/
structure Hosts (w : World V R σ) (s : MemoryStore V) (i m : Nat) (k : Option Nat) (x : Session R) (state : σ)
    (a : Option (Watcher R)) : Prop where
  session_eq : w.sessions[i]? = some x
  served : x.served = true
  held : x.replies.receiving = true
  root : x.token.getLast? = some 0
  maker_eq : x.maker = m
  state_eq : w.makers[m]? = some state
  stream : ∀ id, x.phase.stream? = some id → ∃ st, s.streams[id]? = some st ∧ st.token = x.token
  watched : ∀ n, k = some n → ∃ b, a = some b ∧ w.watchers[n]? = some ⟨i, b⟩ ∧ b.token.getLast? = some 1 ∧
    b.finished = false
  unwatched : k = none → a = none

variable {m : Nat} {k : Option Nat} {a : Option (Watcher R)} {contexts : List Token} {direct : List Nat}

namespace Hosts

theorem holds (h : w.Hosts s i m k x state a) : w.Holds s (.on i m k) x.phase.stream? where
  session := fun j hj => by
    obtain rfl := Option.some.inj hj
    exact (List.getElem?_eq_some_iff.1 h.session_eq).1
  maker := fun n hn => by
    obtain rfl := Option.some.inj hn
    exact (List.getElem?_eq_some_iff.1 h.state_eq).1
  watcher := fun n hn => by
    obtain ⟨b, -, hb, -⟩ := h.watched n hn
    exact (List.getElem?_eq_some_iff.1 hb).1
  stream := fun id hid => by
    obtain ⟨st, hst, -⟩ := h.stream id hid
    exact (List.getElem?_eq_some_iff.1 hst).1

/-- What strangers do leaves the watch on its seat, and as it is. -/
theorem leaves (h : w.Hosts s i m k x state a) (hs : w.store = .memory s) (hs' : w'.store = .memory s')
    (hleaves : w.Leaves s w' s' (.on i m k) x.phase.stream?) :
    w'.Hosts s' i m k x state a ∧ w'.serving x state a = w.serving x state a := by
  refine ⟨⟨(hleaves.session_eq i rfl).trans h.session_eq, h.served, h.held, h.root, h.maker_eq,
    (hleaves.maker_eq m rfl).trans h.state_eq, fun id hid => ?_, fun n hn => ?_, h.unwatched⟩, ?_⟩
  · rw [hleaves.stream_eq id hid]
    exact h.stream id hid
  · obtain ⟨b, hab, hb, hrest⟩ := h.watched n hn
    exact ⟨b, hab, (hleaves.watcher_eq n hn).trans hb, hrest⟩
  · have hstream : (x.phase.stream?.bind (w'.store.streams[·]?)) = x.phase.stream?.bind (w.store.streams[·]?) := by
      rw [hs, hs']
      cases hid : x.phase.stream? with
      | none => rfl
      | some id => exact hleaves.stream_eq id hid
    have hquitting :
        (a.any fun a => w'.tokens.isCancelled a.token) = a.any fun a => w.tokens.isCancelled a.token := by
      cases k with
      | none => rw [h.unwatched rfl]; rfl
      | some n =>
        obtain ⟨b, hab, -, hroot, -⟩ := h.watched n rfl
        rw [hab]
        exact hleaves.cancelled_eq b.token 1 hroot (by decide)
    unfold serving worker
    rw [hstream, hquitting, hleaves.cancelled_eq x.token 0 h.root (by decide)]

end Hosts

/-- The watch by itself takes a step and stands in the new world as it does behind that: still served, or left to its
watcher. -/
def Carries (make : Maker V R σ) (core : MemoryStore V) (contexts : List Token) (direct : List Nat) (i m : Nat)
    (k : Option Nat) (served : Serving V R σ) (w' : World V R σ) : Prop :=
  (∃ s' x' state' a', w'.Aside s' contexts direct (.on i m k) x'.phase.stream? ∧ w'.Hosts s' i m k x' state' a' ∧
    s'.core = core ∧ served.Steps make core (.serving (w'.serving x' state' a'))) ∨
  ∃ n b, k = some n ∧ w'.watchers[n]? = some ⟨i, b⟩ ∧ b.finished = true ∧ served.Steps make core (.left b.bare)

namespace Hosts

/-- The stream of the watch is changed, and stays its own. -/
private theorem carries_stream (h : w.Hosts s i m k x state a)
    (ha : w.Aside s contexts direct (.on i m k) x.phase.stream?) {id : Nat} (hid : x.phase.stream? = some id)
    {st' : EventStream V} (horderly : s'.Orderly) (hlength : s.streams.length ≤ s'.streams.length)
    (hst' : s'.streams[id]? = some st') (htoken : st'.token = x.token) (hcore : s'.core = s.core)
    (hsteps : (w.serving x state a).Steps make s.core (.serving ((w.serving x state a).withStream st'.bare))) :
    Carries make s.core contexts direct i m k (w.serving x state a) { w with store := .memory s' } := by
  have hserving : ({ w with store := .memory s' } : World V R σ).serving x state a =
      (w.serving x state a).withStream st'.bare := by
    simp [serving, worker, Serving.withStream, hid, Backend.streams, hst']
  refine Or.inl ⟨s', x, state, a, ha.of_store horderly hlength, ⟨h.session_eq, h.served, h.held, h.root, h.maker_eq,
    h.state_eq, fun id' hid' => ?_, h.watched, h.unwatched⟩, hcore, hserving ▸ hsteps⟩
  obtain rfl := Option.some.inj (hid.symm.trans hid')
  exact ⟨st', hst', htoken⟩

/-- Where the stream of the watch stands. -/
private theorem worker_stream (hs : w.store = .memory s) {id : Nat} (hid : x.phase.stream? = some id)
    {st : EventStream V} (hst : s.streams[id]? = some st) : (w.worker x state).stream = some st.bare := by
  simp [worker, hid, hs, Backend.streams, hst]

private theorem turn_pull (h : w.Hosts s i m k x state a)
    (ha : w.Aside s contexts direct (.on i m k) x.phase.stream?) {n : Nat} (hn : k = some n) {b : Attachment R}
    {y : Session R} (hb : w.watchers[n]? = some b) (hy : w.sessions[b.session]? = some y) {watcher : Watcher R}
    {source : Queue (Item R)} (hpulled : b.watcher.pull? y.replies y.isOpen = some (watcher, source)) :
    Carries make s.core contexts direct i m k (w.serving x state a) (w.setWatched n b y watcher source) := by
  obtain ⟨c, hac, hc, hroot, hrunning⟩ := h.watched n hn
  obtain rfl := Option.some.inj (hc.symm.trans hb)
  obtain rfl := Option.some.inj (h.session_eq.symm.trans hy)
  have hi : i < w.sessions.length := (List.getElem?_eq_some_iff.1 hy).1
  have hlt : n < w.watchers.length := (List.getElem?_eq_some_iff.1 hb).1
  have hpull : (w.serving x state a).Steps make s.core ((w.serving x state a).pulled watcher.bare source) := by
    refine .pull (a := c.bare) (by rw [serving, hac]; rfl) ?_
    rw [isOpen_serving, Watcher.pull?_bare]
    exact congrArg _ hpulled
  have hafter : (w.setWatched n ⟨i, c⟩ x watcher source).watchers[n]? = some ⟨i, watcher⟩ :=
    List.getElem?_set_self hlt
  cases hfinished : watcher.finished with
  | true =>
    refine Or.inr ⟨n, watcher, hn, hafter, hfinished, ?_⟩
    rwa [Serving.pulled, if_pos (by exact hfinished)] at hpull
  | false =>
    have htoken := Watcher.token_of_pull? hpulled
    rw [Serving.pulled, if_neg (by simp [Watcher.bare, hfinished])] at hpull
    have hreplies : source.receiving = true := by
      cases (Watcher.pulls_of_pull? hpulled).2 with
      | deliver => exact h.held
      | take => exact h.held
      | desert => simp [Watcher.stop] at hfinished
      | fail => simp [Watcher.stop] at hfinished
      | finish => simp [Watcher.stop] at hfinished
    refine Or.inl ⟨s, { x with replies := source }, state, some watcher, (ha.setWatcher fun hne =>
      absurd (congrArg some hn.symm) (fun _ => hne hn)).setSession fun hne => absurd rfl hne, ⟨?_, h.served, hreplies,
      h.root, h.maker_eq, h.state_eq, h.stream, fun n' hn' => ?_, fun hnone => ?_⟩, rfl, ?_⟩
    · exact List.getElem?_set_self hi
    · obtain rfl := Option.some.inj (hn.symm.trans hn')
      exact ⟨watcher, rfl, hafter, htoken ▸ hroot, hfinished⟩
    · rw [hn] at hnone
      simp at hnone
    · have hserving : (w.setWatched n ⟨i, c⟩ x watcher source).serving { x with replies := source } state
          (some watcher) = { w.serving x state a with watcher := some watcher.bare, replies := source } := by
        simp only [serving, worker, hac, Option.map_some, Option.any_some, htoken]
        rfl
      rw [hserving]
      exact hpull

/-- The stream of the watch by itself is that of its session. -/
private theorem exists_stream (hs : w.store = .memory s) {st : EventStream V}
    (hst : (w.serving x state a).worker.stream = some st) :
    ∃ id own, x.phase.stream? = some id ∧ s.streams[id]? = some own ∧ st = own.bare := by
  obtain ⟨own, hown, rfl⟩ := Option.map_eq_some_iff.1 hst
  obtain ⟨id, hid, hown⟩ := Option.bind_eq_some_iff.1 hown
  rw [hs] at hown
  exact ⟨id, own, hid, hown, rfl⟩

/-- A session that has to wait has to wait by itself. -/
private theorem act?_of_waits (h : w.Hosts s i m k x state a) (hs : w.store = .memory s) (hwaits : w.Waits x)
    {core : MemoryStore V} {l : Worker V R σ} {item : Option (Item R)}
    (hacts : (w.worker x state).act? make core = some (l, item)) :
    item.isSome = true ∧ x.replies.hasRoom = false := by
  have hphase : (w.worker x state).phase = x.phase.bare := rfl
  unfold Worker.act? at hacts
  cases hwaits with
  | unread _ hanswer => simp [hs, Backend.answer?] at hanswer
  | full hp hroom =>
    refine ⟨?_, hroom⟩
    cases hx : x.phase <;> simp only [hx, Phase.sends?, reduceCtorEq] at hp
    · simp only [hphase, hx, Phase.bare, Option.some.injEq, Prod.mk.injEq] at hacts
      rw [← hacts.2]
      rfl
    · simp only [hphase, hx, Phase.bare, Option.some.injEq, Prod.mk.injEq] at hacts
      rw [← hacts.2]
      rfl
  | @quiet id hp hgot =>
    obtain ⟨st, hst, -⟩ := h.stream id (by rw [hp]; rfl)
    have hstream : (w.worker x state).stream = some st.bare := worker_stream hs (by rw [hp]; rfl) hst
    rw [hs, Backend.receive_memory] at hgot
    have hpending : st.receive.1 = .pending := by simpa [MemoryStore.receive, hst] using hgot
    simp only [hphase, hp, Phase.bare, hstream, EventStream.receive_bare, hpending, reduceCtorEq] at hacts
  | fullReport hp hroom =>
    refine ⟨?_, hroom⟩
    simp only [hphase, hp, Phase.bare, Option.some.injEq, Prod.mk.injEq] at hacts
    rw [← hacts.2]
    rfl
  | idle hp => simp [hphase, hp, Phase.bare] at hacts
  | finished hp => simp [hphase, hp, Phase.bare] at hacts
  | crashed hp => simp [hphase, hp, Phase.bare] at hacts

/-- The watch by itself can do nothing that its tasks cannot do. -/
theorem atRest (h : w.Hosts s i m k x state a) (hs : w.store = .memory s) (hrest : w.AtRest make) :
    (Lane.serving (w.serving x state a)).AtRest make s.core := by
  have hattached : ∀ b, (w.serving x state a).watcher = some b → ∃ n c, k = some n ∧ w.watchers[n]? = some ⟨i, c⟩ ∧
      a = some c ∧ c.finished = false ∧ b = c.bare := by
    intro b hb
    cases k with
    | none => simp [serving, h.unwatched rfl] at hb
    | some n =>
      obtain ⟨c, hac, hc, -, hrunning⟩ := h.watched n rfl
      rw [serving, hac] at hb
      exact ⟨n, c, rfl, hc, hac, hrunning, (Option.some.inj hb).symm⟩
  rintro l ⟨hsteps⟩
  cases hsteps with
  | flush hstream hflushed =>
    obtain ⟨id, own, -, hown, rfl⟩ := exists_stream hs hstream
    rw [EventStream.flush?_bare, Option.map_eq_some_iff] at hflushed
    obtain ⟨st', hst', -⟩ := hflushed
    have := hrest (.flush id)
    simp [turn?, hs, Backend.flush?_memory, MemoryStore.flush?, hown, hst'] at this
  | release hstream hguarding hcancelled =>
    obtain ⟨id, own, hid, hown, rfl⟩ := exists_stream hs hstream
    obtain ⟨own', hown', htoken⟩ := h.stream id hid
    obtain rfl := Option.some.inj (hown.symm.trans hown')
    have hguarding : own.guarding = true := hguarding
    have hcancelled : w.tokens.isCancelled own.token = true := by rw [htoken]; exact hcancelled
    have := hrest (.release id)
    simp [turn?, hs, Backend.release?, MemoryStore.release?, hown, hguarding, hcancelled] at this
  | advance hacts hroom =>
    have hadvance : advance? make w i x = none := by
      have := hrest (.advance i)
      rwa [turn?_advance h.session_eq] at this
    have hstate : w.makers[x.maker]? = some state := by rw [h.maker_eq]; exact h.state_eq
    obtain ⟨hitem, hfull⟩ := h.act?_of_waits hs (waits_of_advance?_eq_none hstate hadvance) hacts
    rw [show (w.serving x state a).replies = x.replies from rfl, hfull] at hroom
    exact absurd (hroom hitem) (by simp)
  | abandon habandonable hcancelled =>
    have := hrest (.abandon i)
    have hcancelled : w.tokens.isCancelled x.token = true := hcancelled
    have habandonable : x.phase.isAbandonable = true := by
      rw [← habandonable]
      simp only [serving, worker]
      cases x.phase <;> rfl
    rw [turn?_abandon h.session_eq, abandon?, habandonable, Bool.true_and, if_pos hcancelled] at this
    simp at this
  | dismiss hmonitored hcancelled =>
    have hcancelled : w.tokens.isCancelled x.token = true := hcancelled
    have hmonitored : x.monitored = true := hmonitored
    have := hrest (.monitor i)
    simp [turn?, h.session_eq, monitor?, hmonitored, h.held, hcancelled] at this
  | pull hwatcher hpulled =>
    obtain ⟨n, c, -, hc, -, -, rfl⟩ := hattached _ hwatcher
    rw [isOpen_serving, Watcher.pull?_bare, Option.map_eq_some_iff] at hpulled
    obtain ⟨r, hr, -⟩ := hpulled
    have hr : c.pull? x.replies x.isOpen = some r := hr
    have := hrest (.pull n)
    simp [turn?, hc, h.session_eq, hr] at this
  | quit hwatcher hquitting =>
    obtain ⟨n, c, -, hc, rfl, hrunning, rfl⟩ := hattached _ hwatcher
    have hquitting : w.tokens.isCancelled c.token = true := hquitting
    have := hrest (.quit n)
    simp [turn?, hc, h.session_eq, Watcher.quit?, hrunning, hquitting] at this

section Turns

variable [Inhabited V]

/-- The session of the watch goes on. -/
private theorem carries_session (h : w.Hosts s i m k x state a)
    (ha : w.Aside s contexts direct (.on i m k) x.phase.stream?) (p : Phase R) (replies : Queue (Item R))
    (monitored : Bool) (state' : σ)
    (hsessions : w'.sessions = w.sessions.set i { x with phase := p, replies, monitored })
    (hmakers : w'.makers.length = w.makers.length) (hstate : w'.makers[m]? = some state')
    (hreplies : replies.receiving = true)
    (hstirs : w.Stirs ⟨s, []⟩ x { x with phase := p, replies, monitored } w')
    (hstream : ∀ id, p.stream? = some id → ∃ st, w'.store.streams[id]? = some st ∧ st.token = x.token)
    (hsteps : (w.serving x state a).Steps make s.core (.serving
      { w.serving x state a with worker := w'.worker { x with phase := p } state', replies, monitored })) :
    Carries make s.core contexts direct i m k (w.serving x state a) w' := by
  have hi : i < w.sessions.length := (List.getElem?_eq_some_iff.1 h.session_eq).1
  obtain ⟨as, has, hstore, hnew⟩ := hstirs.acts
  have hcore : (Chronicle.acts ⟨s, []⟩ as).store.core = s.core := by
    have hbeside : ∀ act ∈ as, StoreAct.Beside none act := fun act hact => by
      have hmay := has act hact
      cases act with
      | watch => trivial
      | receive => exact fun h => by simp at h
      | dropReceiver => exact fun h => by simp at h
      | _ => exact hmay.elim
    exact StoreAct.Beside.core_acts hbeside ⟨s, []⟩
  -- a stream of somebody else's is not the one that the session may have opened
  have hother : ∀ id, id < s.streams.length → x.phase.stream? ≠ some id → p.stream? ≠ some id := by
    intro id hlt hne hid
    rcases hnew id hid with hid | ⟨heq, -⟩
    · exact hne hid
    · exact Nat.ne_of_lt hlt heq.symm
  have haside : w'.Aside (Chronicle.acts ⟨s, []⟩ as).store contexts direct (.on i m k) p.stream? :=
    ha.of_stirs hsessions hmakers hstirs hstore
      (Or.inr (Or.inl ⟨h.root, fun hnone => by simp [Seat.session?] at hnone⟩)) hother fun hne => absurd rfl hne
  have hquitting : ∀ b : Watcher R, b.token.getLast? = some 1 →
      w'.tokens.isCancelled b.token = w.tokens.isCancelled b.token := by
    intro b hb
    rcases hstirs.tokens with heq | heq <;> rw [heq]
    exact w.tokens.isCancelled_cancel_of_root h.root hb (by decide)
  refine Or.inl ⟨_, { x with phase := p, replies, monitored }, state', a, haside, ⟨?_, h.served, hreplies, h.root,
    h.maker_eq, hstate, ?_, fun n hn => ?_, h.unwatched⟩, hcore, ?_⟩
  · rw [hsessions, List.getElem?_set_self hi]
  · intro id hid
    rw [hstore] at hstream
    exact hstream id hid
  · obtain ⟨b, hab, hb, hrest⟩ := h.watched n hn
    exact ⟨b, hab, by rw [hstirs.watchers_eq, hb], hrest⟩
  · have heq : w'.serving { x with phase := p, replies, monitored } state' a =
        { w.serving x state a with worker := w'.worker { x with phase := p } state', replies, monitored } := by
      have hany : (a.any fun a => w'.tokens.isCancelled a.token) = a.any fun a => w.tokens.isCancelled a.token := by
        cases k with
        | none => rw [h.unwatched rfl]; rfl
        | some n =>
          obtain ⟨b, hab, -, hroot, -⟩ := h.watched n rfl
          rw [hab]
          exact hquitting b hroot
      unfold serving
      rw [hany]
      rfl
    rw [heq]
    exact hsteps

private theorem turn_flush (h : w.Hosts s i m k x state a)
    (ha : w.Aside s contexts direct (.on i m k) x.phase.stream?) {id : Nat} (hid : x.phase.stream? = some id)
    (hflushed : s.flush? id = some s') :
    Carries make s.core contexts direct i m k (w.serving x state a) { w with store := .memory s' } := by
  obtain ⟨st, hst, htoken⟩ := h.stream id hid
  have hact : (s.act (.flush id)).1 = s' := by rw [MemoryStore.act, hflushed, Option.getD_some]
  have hbeside : (StoreAct.flush (V := V) id).Beside none := trivial
  obtain ⟨st', hst'⟩ : ∃ st', st.flush? = some st' := by
    rw [MemoryStore.flush?, hst] at hflushed
    cases hf : st.flush? with
    | none => simp [hf] at hflushed
    | some st' => exact ⟨st', rfl⟩
  have hafter : s'.streams[id]? = some st' := by
    rw [← hact]
    refine (s.getElem?_flush? id id).trans ?_
    rw [hst, Option.map_some, if_pos rfl, hst', Option.getD_some]
  have htoken' : st'.token = x.token := by
    have := st.token_flush?
    rw [hst', Option.getD_some] at this
    rw [this, htoken]
  have hbare : st.bare.flush? = some st'.bare := by rw [EventStream.flush?_bare, hst', Option.map_some]
  exact h.carries_stream ha hid (hact ▸ ha.orderly.act _) (hact ▸ Chronicle.length_streams_acts ⟨s, []⟩ [.flush id])
    hafter htoken' (hact ▸ hbeside.core_eq s)
    (.flush (worker_stream ha.store_eq hid hst) hbare)

private theorem turn_release (h : w.Hosts s i m k x state a)
    (ha : w.Aside s contexts direct (.on i m k) x.phase.stream?) {id : Nat} (hid : x.phase.stream? = some id)
    (hreleased : s.release? w.tokens id = some s') :
    Carries make s.core contexts direct i m k (w.serving x state a) { w with store := .memory s' } := by
  obtain ⟨own, hown, htoken⟩ := h.stream id hid
  have hact : (s.act (.release w.tokens id)).1 = s' := by rw [MemoryStore.act, hreleased, Option.getD_some]
  obtain ⟨st, hst, hguarding, hcancelled, heq⟩ := MemoryStore.release?_eq_some hreleased
  obtain rfl := Option.some.inj (hst.symm.trans hown)
  have hafter : s'.streams[id]? = some { st.detach with guarding := false } := by
    rw [heq]
    refine (s.getElem?_updateStreams [id] _ id).trans ?_
    rw [hst, Option.map_some, if_pos List.mem_cons_self]
  refine h.carries_stream ha hid (hact ▸ ha.orderly.act _)
    (hact ▸ Chronicle.length_streams_acts ⟨s, []⟩ [.release w.tokens id]) hafter htoken ?_ ?_
  · have hbeside : (StoreAct.release (V := V) w.tokens id).Beside none := fun h => by simp at h
    rw [← hact]
    exact hbeside.core_eq s
  · have hstream : (w.serving x state a).worker.stream = some st.bare := worker_stream ha.store_eq hid hst
    rw [htoken] at hcancelled
    exact .release hstream hguarding hcancelled

/-- A turn of one of its own tasks is a turn of the watch by itself. -/
theorem turn (h : w.Hosts s i m k x state a) (ha : w.Aside s contexts direct (.on i m k) x.phase.stream?) {t : Turn}
    (hturn : w.turn? make t = some w') (ht : t.IsOf (.on i m k) x.phase.stream?) :
    Carries make s.core contexts direct i m k (w.serving x state a) w' := by
  have hs := ha.store_eq
  have hstate : w.makers[x.maker]? = some state := by rw [h.maker_eq]; exact h.state_eq
  have hi : i < w.sessions.length := (List.getElem?_eq_some_iff.1 h.session_eq).1
  cases turned_of_turn? hturn with
  | @flush id store hflushed =>
    rw [hs, Backend.flush?_memory, Option.map_eq_some_iff] at hflushed
    obtain ⟨s', hs', rfl⟩ := hflushed
    exact h.turn_flush ha ht hs'
  | @release id store hreleased =>
    rw [hs, Backend.release?, Option.map_eq_some_iff] at hreleased
    obtain ⟨s', hs', rfl⟩ := hreleased
    exact h.turn_release ha ht hs'
  | @advance _ y _ hy hadvances =>
    obtain rfl := Option.some.inj ht
    obtain rfl := Option.some.inj (h.session_eq.symm.trans hy)
    obtain ⟨p, state', item, hacts⟩ := hadvances.acts hs h.served h.held hstate h.stream
    obtain ⟨y', hsessions, hstirs⟩ := hadvances.stirs (c := ⟨s, []⟩) hs
    have hy' : y' = { x with phase := p, replies := item.elim x.replies x.replies.push } := by
      have heq := congrArg (·[i]?) (hsessions.symm.trans hacts.session)
      simpa [hi] using heq
    subst hy'
    refine h.carries_session ha p (item.elim x.replies x.replies.push) x.monitored state' hacts.session
      hadvances.length_makers (h.maker_eq ▸ hacts.maker) ?_ hstirs hacts.stream ?_
    · cases item <;> exact h.held
    · exact .advance hacts.act hacts.room
  | @abandon _ y hy habandonable hcancelled =>
    obtain rfl := Option.some.inj ht
    obtain rfl := Option.some.inj (h.session_eq.symm.trans hy)
    refine h.carries_session ha (x.afterEnd .done) x.replies x.monitored state rfl rfl h.state_eq h.held
      (stirs_abandon (c := ⟨s, []⟩) hs i x) (fun id hid => ?_) ?_
    · simp [x.stream?_afterEnd] at hid
    · rw [worker_endSession h.served (by simp)]
      refine .abandon ?_ hcancelled
      cases hp : x.phase <;> simp [serving, worker, hp, Phase.bare, Phase.isAbandonable] at habandonable ⊢
  | @desert _ y hy hmonitored hgone =>
    obtain rfl := Option.some.inj ht
    obtain rfl := Option.some.inj (h.session_eq.symm.trans hy)
    rw [h.held] at hgone
    simp at hgone
  | @dismiss _ y hy hmonitored hcancelled =>
    obtain rfl := Option.some.inj ht
    obtain rfl := Option.some.inj (h.session_eq.symm.trans hy)
    refine h.carries_session ha x.phase x.replies false state rfl rfl h.state_eq h.held
      (stirs_monitor (c := ⟨s, []⟩) hs (Or.inl rfl) i) ?_ ?_
    · intro id hid
      change ∃ st, w.store.streams[id]? = some st ∧ st.token = x.token
      rw [hs]
      exact h.stream id hid
    · exact .dismiss hmonitored hcancelled
  | pull hb hy hpulled => exact h.turn_pull ha ht hb hy hpulled
  | @quit n b y hb hy hrunning hcancelled =>
    obtain ⟨c, hac, hc, -, -⟩ := h.watched n ht
    obtain rfl := Option.some.inj (hc.symm.trans hb)
    refine Or.inr ⟨n, c.stop, ht, List.getElem?_set_self (List.getElem?_eq_some_iff.1 hb).1, rfl, ?_⟩
    exact .quit (a := c.bare) (by rw [serving, hac]; rfl) (by rw [serving, hac]; exact hcancelled)

end Turns

end Hosts

end World

/-! ### Streams and watchers without tokens -/

namespace EventStream

theorem hear_bare (core : MemoryStore V) (st : EventStream V) (key : String) (kind : EventKind V) :
    st.bare.hear core key kind = (st.hear core key kind).bare := by
  have hoffer : ∀ e, st.bare.offer e = (st.offer e).bare := by
    intro e
    unfold offer bare detach
    dsimp only
    split
    · rfl
    · split
      · rfl
      · split <;> rfl
  unfold hear
  by_cases h : st.key = key ∧ st.attached = true
  · rw [if_pos h, if_pos (by exact h), hoffer]
  · rw [if_neg h, if_neg (by exact h)]

theorem reach_bare [Inhabited V] (core : MemoryStore V) (st : EventStream V) (m : Mutation V) :
    st.bare.reach core m = (st.reach core m).bare := by
  cases m with
  | put key value => exact st.hear_bare core key _
  | delete key =>
    unfold reach
    dsimp only
    split
    · exact st.hear_bare core key _
    · rfl
  | fail key text => exact st.hear_bare core key _
  | close key =>
    unfold reach
    dsimp only
    by_cases h : st.key = key
    · rw [if_pos h, if_pos (by exact h)]
      rfl
    · rw [if_neg h, if_neg (by exact h)]
  | shutdown => rfl

end EventStream

theorem Watcher.next_bare (a : Watcher R) : a.bare.next = (a.next.1, a.next.2.bare) := by
  obtain ⟨token, queue, held, error, finished⟩ := a
  unfold next bare
  dsimp only
  rcases queue.receive (!finished) with ⟨_ | _ | _, rest⟩
  · rfl
  · rfl
  · cases error <;> rfl

namespace World

variable {w : World V R σ} {s : MemoryStore V} {contexts : List Token} {direct : List Nat} {seat : Seat}
  {own : Option Nat} {i m n : Nat} {k : Option Nat} {x : Session R} {state : σ} {a : Option (Watcher R)}
    {b : Watcher R}

/-! ### Tokens -/

theorem Aside.mayFire_call (seat : Seat) : seat.MayFire [0] := Or.inr (Or.inl ⟨rfl, fun _ => rfl⟩)

theorem Aside.mayFire_client (seat : Seat) : seat.MayFire [1] := Or.inr (Or.inr ⟨rfl, fun _ => rfl⟩)

/-- The tokens of calls that have not been made are as the token of the caller. -/
theorem Aside.isCancelled_call (h : w.Aside s contexts direct seat own) (hseat : seat.session? = none)
    (hallowed : w.tokens.isCancelled [0] = false) {t : Token} (ht : t.getLast? = some 0) :
    w.tokens.isCancelled t = false := by
  refine Tokens.isCancelled_of_root ht (fun u hu => ?_) hallowed
  rcases h.fired u hu with ⟨r, hr, hr2⟩ | ⟨hr, hroot⟩ | ⟨hr, -⟩
  · exact ⟨r, hr, fun h0 => by omega⟩
  · exact ⟨0, hr, fun _ => hroot hseat⟩
  · exact ⟨1, hr, fun h1 => by omega⟩

theorem Aside.isCancelled_client (h : w.Aside s contexts direct seat own) (hseat : seat.watcher? = none)
    (hallowed : w.tokens.isCancelled [1] = false) {t : Token} (ht : t.getLast? = some 1) :
    w.tokens.isCancelled t = false := by
  refine Tokens.isCancelled_of_root ht (fun u hu => ?_) hallowed
  rcases h.fired u hu with ⟨r, hr, hr2⟩ | ⟨hr, -⟩ | ⟨hr, hroot⟩
  · exact ⟨r, hr, fun h0 => by omega⟩
  · exact ⟨0, hr, fun h0 => by omega⟩
  · exact ⟨1, hr, fun _ => hroot hseat⟩

theorem Hosts.newToken (h : w.Hosts s i m k x state a) (parent : Token) :
    (w.newToken parent).2.Hosts s i m k x state a :=
  ⟨h.session_eq, h.served, h.held, h.root, h.maker_eq, h.state_eq, h.stream, h.watched, h.unwatched⟩

/-- A token of the caller's is fired. -/
theorem Hosts.cancel (h : w.Hosts s i m k x state a) (t : Token) : (w.cancel t).Hosts s i m k x state a :=
  ⟨h.session_eq, h.served, h.held, h.root, h.maker_eq, h.state_eq, h.stream, h.watched, h.unwatched⟩

theorem Hosts.serving_cancel_call (h : w.Hosts s i m k x state a) :
    (w.cancel [0]).serving x state a = (w.serving x state a).callOff := by
  have hquitting : (a.any fun b => (w.cancel [0]).tokens.isCancelled b.token) =
      a.any fun b => w.tokens.isCancelled b.token := by
    cases k with
    | none => rw [h.unwatched rfl]; rfl
    | some n =>
      obtain ⟨b, rfl, -, hroot, -⟩ := h.watched n rfl
      exact w.tokens.isCancelled_cancel_of_root (u := [0]) rfl hroot (by decide)
  have hcalled : (w.cancel [0]).tokens.isCancelled x.token = true := w.tokens.isCancelled_cancel_root h.root
  unfold serving
  rw [hquitting, worker, hcalled]
  rfl

/-- The token of the watcher is cancelled, by itself or with that of the client. -/
theorem Hosts.serving_cancel_watcher (h : w.Hosts s i m k x state a) {t : Token} (ht : t.getLast? = some 1)
    (hwatcher : ∀ b, a = some b → (w.cancel t).tokens.isCancelled b.token = true) :
    (w.cancel t).serving x state a = (w.serving x state a).quit := by
  have hcalled : (w.cancel t).tokens.isCancelled x.token = w.tokens.isCancelled x.token :=
    w.tokens.isCancelled_cancel_of_root ht h.root (by decide)
  have hquitting : (a.any fun b => (w.cancel t).tokens.isCancelled b.token) = (a.map (·.bare)).isSome := by
    cases a with
    | none => rfl
    | some b => exact hwatcher b rfl
  unfold serving
  rw [hquitting, worker, hcalled]
  rfl

/-! ### The watch is served -/

/-- The world behind the call. -/
def opened (w : World V R σ) (key : String) (state : σ) (capacity : Nat) : World V R σ :=
  { ({ w with makers := w.makers ++ [state] }.newToken [0]).2 with
    sessions := w.sessions ++ [Session.serving key (w.newToken [0]).1 w.makers.length capacity] }

theorem Aside.opened (h : w.Aside s contexts direct .before none) (key : String) (state : σ) (capacity : Nat) :
    (w.opened key state capacity).Aside s contexts direct (.on w.sessions.length w.makers.length none) none := by
  refine ⟨h.store_eq, h.orderly, Nat.le_succ_of_le h.next, fun t ht => ?_, h.contexts, fun j y hy hj => ?_,
    fun n b hb hn => ?_, h.direct⟩
  · exact (h.fired t ht).imp_right (Or.imp_left fun hroot => ⟨hroot.1, fun hnone => by simp [Seat.session?] at hnone⟩)
  · have hne : j ≠ w.sessions.length := fun hjl => hj (by rw [hjl]; rfl)
    have hold : w.sessions[j]? = some y := (of_getElem?_concat hy).resolve_left fun hnew => hne hnew.1
    obtain ⟨houtside, hlt, -, hstream⟩ := h.sessions j y hold (by simp [Seat.session?])
    refine ⟨houtside, ?_, fun heq => ?_, hstream⟩
    · change y.maker < (w.makers ++ [state]).length
      rw [List.length_append]
      exact Nat.lt_add_right _ hlt
    · exact Nat.ne_of_gt hlt (Option.some.inj heq)
  · obtain ⟨houtside, hlt, -⟩ := h.watchers n b hb (by simp [Seat.watcher?])
    refine ⟨houtside, ?_, fun heq => ?_⟩
    · change b.session < (w.sessions ++ [_]).length
      rw [List.length_append]
      exact Nat.lt_add_right _ hlt
    · exact Nat.ne_of_gt hlt (Option.some.inj heq)

theorem Aside.hosts_opened (w : World V R σ) (s : MemoryStore V) (key : String) (state : σ) (capacity : Nat) :
    (w.opened key state capacity).Hosts s w.sessions.length w.makers.length none
      (.serving key (w.newToken [0]).1 w.makers.length capacity) state none where
  session_eq := List.getElem?_concat_length
  served := rfl
  held := rfl
  root := rfl
  maker_eq := rfl
  state_eq := List.getElem?_concat_length
  stream := fun id hid => by simp [Session.serving, Phase.stream?] at hid
  watched := fun n hn => by simp at hn
  unwatched := fun _ => rfl

theorem Aside.serving_opened (h : w.Aside s contexts direct .before none)
    (hallowed : w.tokens.isCancelled [0] = false) (key : String) (state : σ) (capacity : Nat) :
    (w.opened key state capacity).serving (.serving key (w.newToken [0]).1 w.makers.length capacity) state none =
      .opening key state { capacity } := by
  have hcalled : (w.opened key state capacity).tokens.isCancelled (w.newToken [0]).1 = false :=
    h.isCancelled_call rfl hallowed (t := (w.newToken [0]).1) rfl
  have hworker :
      (w.opened key state capacity).worker (.serving key (w.newToken [0]).1 w.makers.length capacity) state =
        { key, state, cancelled := false, phase := .starting, stream := none } := by
    rw [worker_of_idle _ _ (by rfl)]
    simp only [Session.serving, hcalled]
  rw [World.serving, hworker]
  rfl

/-! ### Reading -/

/-- The caller, or its watcher, takes replies. -/
theorem Hosts.setReplies (h : w.Hosts s i m none x state a)
    (ha : w.Aside s contexts direct (.on i m none) x.phase.stream?) {replies : Queue (Item R)}
    (hreplies : replies.receiving = true) :
    (w.setSession i { x with replies }).Aside s contexts direct (.on i m none) x.phase.stream? ∧
      (w.setSession i { x with replies }).Hosts s i m none { x with replies } state a :=
  ⟨ha.setSession fun hne => absurd rfl hne, List.getElem?_set_self (List.getElem?_eq_some_iff.1 h.session_eq).1,
    h.served, hreplies, h.root, h.maker_eq, h.state_eq, h.stream, fun n hn => by simp at hn, h.unwatched⟩

theorem Hosts.setWatcher (h : w.Hosts s i m (some n) x state (some b))
    (ha : w.Aside s contexts direct (.on i m (some n)) x.phase.stream?) {b' : Watcher R} (htoken : b'.token = b.token)
    (hrunning : b'.finished = false) :
    { w with watchers := w.watchers.set n ⟨i, b'⟩ }.Aside s contexts direct (.on i m (some n)) x.phase.stream? ∧
      { w with watchers := w.watchers.set n ⟨i, b'⟩ }.Hosts s i m (some n) x state (some b') := by
  refine ⟨ha.setWatcher fun hne => absurd rfl hne, h.session_eq, h.served, h.held, h.root, h.maker_eq, h.state_eq,
    h.stream, fun n' hn' => ?_, fun hnone => by simp at hnone⟩
  obtain rfl := Option.some.inj hn'
  obtain ⟨c, hc, hw, hroot, -⟩ := h.watched n rfl
  obtain rfl := Option.some.inj hc
  exact ⟨b', rfl, List.getElem?_set_self (List.getElem?_eq_some_iff.1 hw).1, htoken ▸ hroot, hrunning⟩

/-- The world behind the attachment of a watcher. -/
def attached (w : World V R σ) (i : Nat) (queue : Queue R) : World V R σ :=
  { (w.newToken [1]).2 with watchers := w.watchers ++ [⟨i, { token := (w.newToken [1]).1, queue }⟩] }

theorem Hosts.attached (h : w.Hosts s i m none x state a)
    (ha : w.Aside s contexts direct (.on i m none) x.phase.stream?) (queue : Queue R) :
    (w.attached i queue).Aside s contexts direct (.on i m (some w.watchers.length)) x.phase.stream? ∧
      (w.attached i queue).Hosts s i m (some w.watchers.length) x state
        (some { token := (w.newToken [1]).1, queue }) := by
  refine ⟨⟨ha.store_eq, ha.orderly, Nat.le_succ_of_le ha.next, fun t ht => ?_, ha.contexts, fun j y hy hj => ?_,
    fun n b hb hn => ?_, ha.direct⟩, h.session_eq, h.served, h.held, h.root, h.maker_eq, h.state_eq, h.stream,
    fun n hn => ?_, fun hnone => by simp at hnone⟩
  · exact (ha.fired t ht).imp_right
      (Or.imp_right fun hroot => ⟨hroot.1, fun hnone => by simp [Seat.watcher?] at hnone⟩)
  · obtain ⟨houtside, hlt, hmaker, hstream⟩ := ha.sessions j y hy hj
    exact ⟨houtside, hlt, hmaker, hstream⟩
  · have hne : n ≠ w.watchers.length := fun hnl => hn (by rw [hnl]; rfl)
    have hold : w.watchers[n]? = some b := (of_getElem?_concat hb).resolve_left fun hnew => hne hnew.1
    obtain ⟨houtside, hlt, hsession⟩ := ha.watchers n b hold (by simp [Seat.watcher?])
    exact ⟨houtside, hlt, hsession⟩
  · obtain rfl := Option.some.inj hn
    exact ⟨_, rfl, List.getElem?_concat_length, rfl, rfl⟩

theorem Aside.serving_attached
    (ha : w.Aside s contexts direct (.on i m none) x.phase.stream?) (hallowed : w.tokens.isCancelled [1] = false)
    (queue : Queue R) :
    (w.attached i queue).serving x state (some { token := (w.newToken [1]).1, queue }) =
      { w.serving x state none with watcher := some { token := [], queue }, quitting := false } := by
  have hquitting : (w.attached i queue).tokens.isCancelled (w.newToken [1]).1 = false :=
    ha.isCancelled_client rfl hallowed (t := (w.newToken [1]).1) rfl
  simp only [serving, Option.any_some, hquitting]
  rfl

/-! ### Changes of the store -/

variable [Inhabited V]

theorem mutate_memory (hs : w.store = .memory s) (c : Mutation V) :
    w.mutate c = { w with store := .memory (s.act c.act).1 } := by
  rw [mutate, hs]

theorem Aside.mutate (h : w.Aside s contexts direct seat own) (c : Mutation V) :
    (w.mutate c).Aside (s.act c.act).1 contexts direct seat own := by
  rw [mutate_memory h.store_eq]
  exact h.of_store (h.orderly.act c.act) (Chronicle.length_streams_acts ⟨s, []⟩ [c.act])

theorem Hosts.mutate (h : w.Hosts s i m k x state a) (hs : w.store = .memory s) (horderly : s.Orderly)
    (c : Mutation V) : (w.mutate c).Hosts (s.act c.act).1 i m k x state a ∧
      (w.mutate c).serving x state a = (w.serving x state a).reach s.core c := by
  rw [mutate_memory hs]
  refine ⟨⟨h.session_eq, h.served, h.held, h.root, h.maker_eq, h.state_eq, fun id hid => ?_, h.watched, h.unwatched⟩,
    ?_⟩
  · obtain ⟨st, hst, htoken⟩ := h.stream id hid
    obtain ⟨st', hst', hcontinues⟩ := MemoryStore.continues_act hst c.act
    exact ⟨st', hst', hcontinues.token_eq.trans htoken⟩
  · have hstream : (x.phase.stream?.bind ((s.act c.act).1.streams[·]?)).map (·.bare) =
        ((x.phase.stream?.bind (s.streams[·]?)).map (·.bare)).map (·.reach s.core c) := by
      cases x.phase.stream? with
      | none => rfl
      | some id =>
        simp only [Option.bind_some, horderly.getElem?_mutate c id, Option.map_map]
        exact congrArg (Option.map · _) (funext fun st => (st.reach_bare s.core c).symm)
    simp only [serving, worker, Serving.reach, hs, Backend.streams, hstream]

end World

end ResourceWatch

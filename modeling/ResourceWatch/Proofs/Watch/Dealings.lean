import ResourceWatch.Proofs.Watch.Leaks
import ResourceWatch.Proofs.Watch.Strangers

/-!
# Dealings with queues

Everything that one step of a hall, an act or a turn, does to event streams and to queues of replies (`Hall.Deals`).
It opens an event stream for a session or for a caller, or it has a watch served; or else it carries on what there is:
it lets the store do what is no subscription, and no queue gets longer than its capacity (`World.Lasts`).  Events are
taken by callers from streams that they opened, and by a session from its own while it awaits an event.
-/

namespace ResourceWatch

variable {Q V R σ : Type}

/-! ### What lasts -/

namespace Queue

variable {α : Type} {q : Queue α}

def Fits (q : Queue α) : Prop := q.items.length ≤ q.capacity

/-- A queue that is not overfilled stays so. -/
structure Lasts (q q' : Queue α) : Prop where
  capacity_eq : q'.capacity = q.capacity
  fits : q.Fits → q'.Fits

theorem Lasts.refl (q : Queue α) : q.Lasts q := ⟨rfl, fun h => h⟩

theorem Lasts.trans {q' q'' : Queue α} (h : q.Lasts q') (h' : q'.Lasts q'') : q.Lasts q'' :=
  ⟨h'.capacity_eq.trans h.capacity_eq, fun hfits => h'.fits (h.fits hfits)⟩

theorem Lasts.push (hroom : q.hasRoom = true) (a : α) : q.Lasts (q.push a) := by
  refine ⟨rfl, fun _ => ?_⟩
  simp only [Fits, items_push, capacity_push, List.length_append, List.length_singleton]
  exact Nat.succ_le_of_lt (by simpa [hasRoom] using hroom)

theorem Lasts.rest {a : α} {rest : List α} (hitems : q.items = a :: rest) : q.Lasts { q with items := rest } := by
  refine ⟨rfl, fun hfits => ?_⟩
  simp only [Fits, hitems, List.length_cons] at hfits ⊢
  omega

theorem Lasts.drop (q : Queue α) : q.Lasts q.drop := ⟨rfl, fun _ => Nat.zero_le _⟩

end Queue

/-- The session has not come to its subscription, or stands in front of it. -/
def Phase.isEarly : Phase R → Bool
  | .idle | .starting | .reading | .sendingSnapshot _ | .subscribing => true
  | _ => false

/-- A session goes on without subscribing. -/
structure Session.Lasts (x x' : Session R) : Prop where
  token_eq : x'.token = x.token
  replies : x.replies.Lasts x'.replies
  early : x'.phase.isEarly = true → x.phase.isEarly = true
  stream : ∀ id, x'.phase.stream? = some id → x.phase.stream? = some id

theorem Session.Lasts.refl (x : Session R) : x.Lasts x := ⟨rfl, .refl _, fun h => h, fun _ h => h⟩

theorem Session.Lasts.of_replies {x : Session R} {replies : Queue (Item R)} (h : x.replies.Lasts replies) :
    x.Lasts { x with replies } :=
  ⟨rfl, h, fun h => h, fun _ h => h⟩

/-- A receive task that has met a failure has stopped, and then it holds nothing. -/
structure Watcher.Orderly (a : Watcher R) : Prop where
  finished : a.error.isSome = true → a.finished = true
  held : a.finished = true → a.held = none

structure Watcher.Lasts (a a' : Watcher R) : Prop where
  queue : a.queue.Lasts a'.queue
  orderly : a.Orderly → a'.Orderly

theorem Watcher.Lasts.refl (a : Watcher R) : a.Lasts a := ⟨.refl _, fun h => h⟩

theorem Watcher.Lasts.trans {a a' a'' : Watcher R} (h : a.Lasts a') (h' : a'.Lasts a'') : a.Lasts a'' :=
  ⟨h.queue.trans h'.queue, fun horderly => h'.orderly (h.orderly horderly)⟩

theorem Watcher.lasts_stop (a : Watcher R) : a.Lasts a.stop := ⟨.refl _, fun _ => ⟨fun _ => rfl, fun _ => rfl⟩⟩

theorem Watcher.Pulls.lasts {a a' : Watcher R} {source source' : Queue (Item R)} {open_ : Bool}
    (h : a.Pulls source open_ a' source') (hrunning : a.finished = false) : a.Lasts a' ∧ source.Lasts source' := by
  have hrunning' : a.finished ≠ true := by simp [hrunning]
  cases h with
  | @deliver r _ _ hroom =>
    exact ⟨⟨.push hroom r, fun h => ⟨h.finished, fun _ => rfl⟩⟩, .refl _⟩
  | desert => exact ⟨a.lasts_stop, .drop _⟩
  | take _ hitems => exact ⟨⟨.refl _, fun h => ⟨h.finished, fun hf => absurd hf hrunning'⟩⟩, .rest hitems⟩
  | fail => exact ⟨⟨.refl _, fun _ => ⟨fun _ => rfl, fun _ => rfl⟩⟩, .drop _⟩
  | finish => exact ⟨a.lasts_stop, .drop _⟩

/-- One member of a list is replaced by one that comes of it. -/
private theorem exists_of_set {α : Type} {P : α → α → Prop} (hrefl : ∀ a, P a a) {xs : List α} {i : Nat} {a b : α}
    (ha : xs[i]? = some a) (h : P a b) :
    ∀ (j : Nat) (c : α), xs[j]? = some c → ∃ c', (xs.set i b)[j]? = some c' ∧ P c c' := by
  intro j c hc
  by_cases hij : i = j
  · subst hij
    obtain rfl : a = c := Option.some.inj (ha.symm.trans hc)
    exact ⟨b, List.getElem?_set_self (List.getElem?_eq_some_iff.1 ha).1, h⟩
  · exact ⟨c, by rw [List.getElem?_set_ne hij, hc], hrefl c⟩

namespace World

/-- No session is added, and none subscribes; every queue lasts. -/
structure Lasts (w w' : World V R σ) : Prop where
  length_eq : w'.sessions.length = w.sessions.length
  sessions : ∀ (i : Nat) (x : Session R), w.sessions[i]? = some x → ∃ x', w'.sessions[i]? = some x' ∧ x.Lasts x'
  watchers : ∀ (k : Nat) (a : Attachment R), w.watchers[k]? = some a →
    ∃ a', w'.watchers[k]? = some a' ∧ a'.session = a.session ∧ a.watcher.Lasts a'.watcher

variable {make : Maker V R σ} {w w' : World V R σ} {i : Nat} {x x' : Session R}

theorem Lasts.of_same (hsessions : w'.sessions = w.sessions) (hwatchers : w'.watchers = w.watchers) : w.Lasts w' := by
  refine ⟨by rw [hsessions], fun i x hx => ⟨x, by rw [hsessions, hx], .refl x⟩, fun k a ha => ?_⟩
  exact ⟨a, by rw [hwatchers, ha], rfl, .refl _⟩

theorem Lasts.of_set (hx : w.sessions[i]? = some x) (hsessions : w'.sessions = w.sessions.set i x')
    (hwatchers : w'.watchers = w.watchers) (h : x.Lasts x') : w.Lasts w' := by
  refine ⟨by rw [hsessions, List.length_set], hsessions ▸ exists_of_set Session.Lasts.refl hx h, fun k a ha => ?_⟩
  exact ⟨a, by rw [hwatchers, ha], rfl, .refl _⟩

/-- A watcher goes on, perhaps on the replies of its session. -/
theorem Lasts.of_setWatcher {k : Nat} {a : Attachment R} {watcher : Watcher R} (ha : w.watchers[k]? = some a)
    (hlength : w'.sessions.length = w.sessions.length)
    (hsessions : ∀ (i : Nat) (x : Session R), w.sessions[i]? = some x → ∃ x', w'.sessions[i]? = some x' ∧ x.Lasts x')
    (hwatchers : w'.watchers = w.watchers.set k { a with watcher }) (h : a.watcher.Lasts watcher) : w.Lasts w' := by
  refine ⟨hlength, hsessions, ?_⟩
  rw [hwatchers]
  exact exists_of_set (P := fun a a' : Attachment R => a'.session = a.session ∧ a.watcher.Lasts a'.watcher)
    (fun a => ⟨rfl, .refl _⟩) ha ⟨rfl, h⟩

theorem lasts_setWatched {k : Nat} {a : Attachment R} {watcher : Watcher R} {source : Queue (Item R)}
    (ha : w.watchers[k]? = some a) (hx : w.sessions[a.session]? = some x) (hwatcher : a.watcher.Lasts watcher)
    (hsource : x.replies.Lasts source) : w.Lasts (w.setWatched k a x watcher source) :=
  .of_setWatcher ha (List.length_set ..) (exists_of_set Session.Lasts.refl hx (.of_replies hsource)) rfl hwatcher

end World

/-! ### The steps of a session -/

/-- What a session does with event streams, after its subscription. -/
def Session.Draws (x : Session R) : StoreAct V → Prop
  | .receive id => x.phase = .awaiting id
  | .dropReceiver id => x.phase.stream? = some id
  | _ => False

theorem Session.lasts_afterEnd (x : Session R) (o : Outcome) : x.Lasts { x with phase := x.afterEnd o } := by
  refine ⟨rfl, .refl _, fun h => ?_, fun id hid => by simp [x.stream?_afterEnd] at hid⟩
  rcases x.afterEnd_eq o with heq | ⟨-, e, -, heq⟩ <;> simp [heq, Phase.isEarly] at h

namespace World

variable [Inhabited V] {make : Maker V R σ} {c : Chronicle V} {w w' : World V R σ} {i : Nat} {x x' : Session R}

/-- The session `x` becomes `x'`, and does so with the store. -/
structure Draws (c : Chronicle V) (w : World V R σ) (i : Nat) (x : Session R) (w' : World V R σ) (x' : Session R)
    (as : List (StoreAct V)) : Prop where
  sessions_eq : w'.sessions = w.sessions.set i x'
  watchers_eq : w'.watchers = w.watchers
  lasts : x.Lasts x'
  store_eq : w'.store = .memory (c.acts as).store
  draws : ∀ a ∈ as, x.Draws a

/-- A session that ends lets go of its stream. -/
private theorem draws_endSession (w w₁ : World V R σ) (i : Nat) {as : List (StoreAct V)}
    (hsessions : w₁.sessions = w.sessions) (hwatchers : w₁.watchers = w.watchers)
    (hstore : w₁.store = .memory (c.acts as).store) (has : ∀ a ∈ as, x.Draws a) (o : Outcome) :
    ∃ x' as, w.Draws c i x (w₁.endSession i x o) x' as := by
  obtain ⟨as', has', hstore'⟩ := w₁.endSession_acts hstore i x o
  refine ⟨_, as', congrArg (List.set · i _) hsessions, hwatchers, x.lasts_afterEnd o, hstore', fun a ha => ?_⟩
  rcases has' a ha with ha | ⟨id, hid, rfl⟩
  · exact has a ha
  · exact hid

theorem draws_abandon (hc : w.store = .memory c.store) (i : Nat) (x : Session R) :
    ∃ x' as, w.Draws c i x (w.endSession i x .done) x' as :=
  have hc' : w.store = .memory (c.acts []).store := hc
  draws_endSession w w i rfl rfl hc' (fun _ ha => absurd ha List.not_mem_nil) .done

theorem Advances.deals (h : Advances make w i x w') (hx : w.sessions[i]? = some x) (hc : w.store = .memory c.store) :
    w.Subscribes c.store i x w' ∨ ∃ x' as, w.Draws c i x w' x' as := by
  have hnothing : ∀ a ∈ ([] : List (StoreAct V)), x.Draws a := fun _ ha => absurd ha List.not_mem_nil
  have hreceive : ∀ {id : Nat}, x.phase = .awaiting id → ∀ a ∈ [StoreAct.receive (V := V) id], x.Draws a := by
    intro id hp a ha
    rw [List.mem_singleton.1 ha]
    exact hp
  have hreceived : ∀ {id : Nat} {got : Received (Event V)} {store : Backend V}, w.store.receive id = (got, store) →
      store = .memory (c.acts [.receive id]).store := Backend.of_receive hc
  have hrefused : ∀ {e : SubscribeError} {store : Backend V}, w.store.watch x.key x.token = (.error e, store) →
      store = .memory (c.acts []).store := fun hgranted => (Backend.of_watch_error hc hgranted).2
  have hc' : w.store = .memory (c.acts []).store := hc
  have hphase : ∀ {p : Phase R}, (p.isEarly = true → x.phase.isEarly = true) →
      (∀ id, p.stream? = some id → x.phase.stream? = some id) → x.Lasts { x with phase := p } :=
    fun hearly hstream => ⟨rfl, .refl _, hearly, hstream⟩
  cases h with
  | call hp =>
    refine Or.inr ⟨_, [], rfl, rfl, hphase (fun _ => by rw [hp]; rfl) (fun id hid => by simp [Phase.stream?] at hid),
      ?_, hnothing⟩
    change w.store.call x.key = _
    rw [hc]
    rfl
  | unread => exact Or.inr (draws_endSession w w i rfl rfl hc' hnothing _)
  | read hp =>
    exact Or.inr ⟨_, [], rfl, rfl,
      hphase (fun _ => by rw [hp]; rfl) (fun id hid => by simp [Phase.stream?] at hid), hc, hnothing⟩
  | @unmade _ _ st' =>
    exact Or.inr (draws_endSession w { w with makers := w.makers.set x.maker st' } i rfl rfl hc' hnothing _)
  | @send r next hp _ hroom =>
    refine Or.inr ⟨_, [], rfl, rfl, ⟨rfl, .push hroom _, fun hearly => ?_, fun id hid => ?_⟩, hc, hnothing⟩
    · cases hx : x.phase <;> simp only [hx, Phase.sends?, Option.some.injEq, Prod.mk.injEq, reduceCtorEq] at hp
      · rfl
      · simp [Session.send, ← hp.2, Phase.isEarly] at hearly
    · cases hx : x.phase <;> simp only [hx, Phase.sends?, Option.some.injEq, Prod.mk.injEq, reduceCtorEq] at hp
      · simp [Session.send, ← hp.2, Phase.stream?] at hid
      · rw [Session.send, ← hp.2] at hid
        exact hid
  | disconnect => exact Or.inr (draws_endSession w w i rfl rfl hc' hnothing _)
  | @subscribe id store hp hgranted =>
    obtain ⟨s', hw, rfl⟩ := Backend.of_watch_ok hc hgranted
    exact Or.inl ⟨hx, hp, id, s', hw, rfl⟩
  | @refused _ store _ hgranted =>
    exact Or.inr (draws_endSession w { w with store } i rfl rfl (hrefused hgranted) hnothing _)
  | crash hp hgranted =>
    exact Or.inr ⟨_, [], rfl, rfl, hphase (fun h => by simp [Phase.isEarly] at h)
      (fun id hid => by simp [Phase.stream?] at hid), hrefused hgranted, hnothing⟩
  | @value _ _ _ _ _ _ _ changed hp hgot =>
    refine Or.inr ⟨_, _, rfl, rfl, hphase (fun h => ?_) (fun id hid => ?_), hreceived hgot, hreceive hp⟩
    · cases changed <;> simp [Phase.isEarly] at h
    · rw [hp]
      cases changed <;> exact hid
  | @unmadeValue _ _ _ store _ st' _ hp hgot =>
    exact Or.inr (draws_endSession w { w with store, makers := w.makers.set x.maker st' } i rfl rfl
      (hreceived hgot) (hreceive hp) _)
  | @failure _ _ _ store hp hgot =>
    exact Or.inr (draws_endSession w { w with store } i rfl rfl (hreceived hgot) (hreceive hp) _)
  | ended => exact Or.inr (draws_endSession w w i rfl rfl hc' hnothing _)
  | report hp _ hroom =>
    exact Or.inr ⟨_, [], rfl, rfl, ⟨rfl, .push hroom _, fun h => by simp [Session.send, Phase.isEarly] at h,
      fun id hid => by simp [Session.send, Phase.stream?] at hid⟩, hc, hnothing⟩
  | unreported =>
    exact Or.inr ⟨_, [], rfl, rfl, hphase (fun h => by simp [Phase.isEarly] at h)
      (fun id hid => by simp [Phase.stream?] at hid), hc, hnothing⟩

end World

/-! ### The steps of a hall -/

namespace Hall

variable [Inhabited V]

/-- One act, or one turn of a task. -/
inductive Step (Q : Type) (make : Maker V R σ) (h : Hall V R σ) : Hall V R σ → Prop where
  | act (a : HallAct Q V R σ) : Step Q make h (h.act a)
  | turn {w : World V R σ} (t : Turn) (turned : h.world.turn? make t = some w) : Step Q make h { h with world := w }

/-- What happens to the store besides subscriptions: events are taken from a stream by a caller who opened it
directly, or by a session that awaits one. -/
def Lets (h : Hall V R σ) : StoreAct V → Prop
  | .watch _ _ => False
  | .receive id => id ∈ h.direct ∨ ∃ x ∈ h.world.sessions, x.phase = .awaiting id
  | _ => True

inductive Deals (c : Chronicle V) (h : Hall V R σ) : Hall V R σ → Prop where
  | proceed {h' : Hall V R σ} (as : List (StoreAct V)) (store_eq : h'.world.store = .memory (c.acts as).store)
    (lets : ∀ a ∈ as, h.Lets a) (lasts : h.world.Lasts h'.world) (contexts : ∀ t ∈ h.contexts, t ∈ h'.contexts)
    (direct_eq : h'.direct = h.direct) : Deals c h h'
  | opens {i : Nat} {x : Session R} {w : World V R σ} (subscribes : h.world.Subscribes c.store i x w) :
    Deals c h { h with world := w }
  /-- A caller is given an event stream. -/
  | subscribe {key : String} {t : Token} {id : Nat} {s : MemoryStore V} (context : t ∈ h.contexts)
    (granted : c.store.watch key t = .ok (id, s)) :
    Deals c h { h with world := { h.world with store := .memory s }, direct := h.direct ++ [id] }
  | serve {t : Token} (context : t ∈ h.contexts) (key : String) (maker : Nat) (capacity : Nat) :
    Deals c h { h with world := { (h.world.newToken t).2 with
      sessions := h.world.sessions ++ [Session.serving key (h.world.newToken t).1 maker capacity] } }

variable {make : Maker V R σ} {c : Chronicle V} {h h' : Hall V R σ} {w : World V R σ}

/-- Nothing happens to the store. -/
private theorem Deals.of_lasts (hc : h'.world.store = .memory c.store) (hlasts : h.world.Lasts h'.world)
    (hcontexts : ∀ t ∈ h.contexts, t ∈ h'.contexts) (hdirect : h'.direct = h.direct) : h.Deals c h' :=
  .proceed [] hc (fun _ ha => absurd ha List.not_mem_nil) hlasts hcontexts hdirect

/-- Only the store changes. -/
private theorem Deals.of_store {a : StoreAct V} (ha : h.Lets a) (hsessions : w.sessions = h.world.sessions)
    (hwatchers : w.watchers = h.world.watchers) (hstore : w.store = .memory (c.act a).store) :
    h.Deals c { h with world := w } :=
  .proceed [a] hstore (fun _ hb => List.mem_singleton.1 hb ▸ ha) (.of_same hsessions hwatchers) (fun _ ht => ht) rfl

private theorem Deals.of_draws {i : Nat} {x x' : Session R} {as : List (StoreAct V)}
    (hx : h.world.sessions[i]? = some x) (hd : h.world.Draws c i x w x' as) : h.Deals c { h with world := w } := by
  refine .proceed as hd.store_eq (fun a ha => ?_) (.of_set hx hd.sessions_eq hd.watchers_eq hd.lasts) (fun _ ht => ht)
    rfl
  have hdraws := hd.draws a ha
  cases a with
  | receive id => exact Or.inr ⟨x, List.mem_of_getElem? hx, hdraws⟩
  | dropReceiver id => trivial
  | _ => exact hdraws.elim

theorem deals_of_turn? {t : Turn} (hturn : h.world.turn? make t = some w) (hc : h.world.store = .memory c.store) :
    h.Deals c { h with world := w } := by
  cases World.turned_of_turn? hturn with
  | @flush id store hflushed =>
    exact .of_store (a := .flush id) trivial rfl rfl (Backend.of_flush? hc hflushed)
  | @release id store hreleased =>
    exact .of_store (a := .release h.world.tokens id) trivial rfl rfl (Backend.of_release? hc hreleased)
  | advance hx hadvances =>
    rcases hadvances.deals hx hc with hsubscribes | ⟨x', as, hdraws⟩
    · exact .opens hsubscribes
    · exact .of_draws hx hdraws
  | abandon hx =>
    obtain ⟨x', as, hdraws⟩ := World.draws_abandon hc _ _
    exact .of_draws hx hdraws
  | desert hx => exact .of_lasts hc (.of_set hx rfl rfl ⟨rfl, .refl _, fun h => h, fun _ h => h⟩) (fun _ ht => ht) rfl
  | dismiss hx =>
    exact .of_lasts hc (.of_set hx rfl rfl ⟨rfl, .refl _, fun h => h, fun _ h => h⟩) (fun _ ht => ht) rfl
  | pull ha hx hpulled =>
    obtain ⟨hrunning, hpulls⟩ := Watcher.pulls_of_pull? hpulled
    obtain ⟨hwatcher, hsource⟩ := hpulls.lasts hrunning
    exact .of_lasts hc (World.lasts_setWatched ha hx hwatcher hsource) (fun _ ht => ht) rfl
  | @quit k a x ha hx =>
    exact .of_lasts hc (World.lasts_setWatched ha hx a.watcher.lasts_stop (.drop _)) (fun _ ht => ht) rfl

theorem deals_of_act (a : HallAct Q V R σ) (hc : h.world.store = .memory c.store) : h.Deals c (h.act a) := by
  have hworld : ∀ {w : World V R σ}, w.store = h.world.store → h.world.Lasts w → h.Deals c { h with world := w } :=
    fun hstore hlasts => .of_lasts (hstore.trans hc) hlasts (fun _ ht => ht) rfl
  have hsessions : ∀ (i : Nat) (x : Session R), h.world.sessions[i]? = some x →
      ∃ x', h.world.sessions[i]? = some x' ∧ x.Lasts x' := fun _ x hx => ⟨x, hx, .refl x⟩
  have hacted := h.acted_act a
  generalize h.act a = h' at hacted ⊢
  cases hacted with
  | nothing => exact hworld rfl (.of_same rfl rfl)
  | mutate m =>
    have hlets : h.Lets m.act := by cases m <;> trivial
    have hmutate : h.world.mutate m = { h.world with store := .memory (c.act m.act).store } := by
      unfold World.mutate
      rw [hc]
      rfl
    rw [hmutate]
    exact .of_store hlets rfl rfl rfl
  | context => exact .of_lasts hc (.of_same rfl rfl) (fun _ ht => List.mem_append_left _ ht) rfl
  | cancel => exact .of_lasts hc (.of_same rfl rfl) (fun _ ht => ht) rfl
  | maker => exact hworld rfl (.of_same rfl rfl)
  | get key =>
    refine hworld ?_ (.of_same rfl rfl)
    change h.world.store.call key = h.world.store
    rw [hc]
    rfl
  | serve ht _ key => exact .serve ht key _ _
  | receive hx hitems => exact hworld rfl (.of_set hx rfl rfl (.of_replies (.rest hitems)))
  | dropReplies hx => exact hworld rfl (.of_set hx rfl rfl (.of_replies (.drop _)))
  | attach =>
    refine hworld rfl ⟨rfl, hsessions, fun k a ha => ⟨a, ?_, rfl, .refl _⟩⟩
    exact (List.getElem?_append_left (List.getElem?_eq_some_iff.1 ha).1).trans ha
  | attachTooLarge => exact hworld rfl (.of_same rfl rfl)
  | next ha hitems =>
    exact hworld rfl (.of_setWatcher ha rfl hsessions rfl ⟨.rest hitems, fun h => ⟨h.finished, h.held⟩⟩)
  | cancelWatcher => exact hworld rfl (.of_same rfl rfl)
  | dropWatcher ha =>
    exact hworld rfl (.of_setWatcher ha rfl hsessions rfl ⟨.drop _, fun h => ⟨h.finished, h.held⟩⟩)
  | subscribe ht hgranted =>
    obtain ⟨s', hw, rfl⟩ := Backend.of_watch_ok hc hgranted
    exact .subscribe ht hw
  | @receiveEvent n id hid => exact .of_store (a := .receive id) (Or.inl hid) rfl rfl (Backend.of_receive hc rfl)
  | @dropEvents n id => exact .of_store (a := .dropReceiver id) trivial rfl rfl (congrArg (·.dropReceiver id) hc)

/-- What every step keeps holds of all that is reached. -/
theorem Reaches.of_steps {P : Hall V R σ → Prop} (hreaches : Reaches Q make h h') (hstart : P h)
    (hstep : ∀ {u v : Hall V R σ}, Reaches Q make h u → u.Step Q make v → P u → P v) : P h' := by
  induction hreaches with
  | refl => exact hstart
  | act hu a ih => exact hstep hu (.act a) ih
  | turn hu t hturn ih => exact hstep hu (.turn t hturn) ih

theorem Step.deals (hstep : h.Step Q make h') (hc : h.world.store = .memory c.store) : h.Deals c h' := by
  cases hstep with
  | act a => exact deals_of_act a hc
  | turn t hturn => exact deals_of_turn? hturn hc

end Hall

end ResourceWatch

import ResourceWatch.Proofs.Store.Waiting
import ResourceWatch.Proofs.Watch.Owners

/-!
# Backlogs

What was published and has not reached the consumer of a watch is held somewhere on the way: in the event stream, in
the hand of the session, among its replies, in the hand of the watcher's receive task, or in the watcher's queue
(`World.backlog?`).  Every queue lasts (`World.KeepsQueues`), one stream at most is the session's, and nobody has more
than one thing in hand; so however much is published and however slowly the consumer reads, the backlog is bounded by
the capacities of the three queues (`backlog_bounded`).
-/

namespace ResourceWatch

variable {Q V R σ : Type}

/-! ### The backlog of a watcher -/

/-- What is held between the store and the consumer of a watcher, in the order of the way. -/
structure Backlog (V R : Type) where
  /-- What the queue of the session's event stream holds. -/
  events : List (Event V)
  /-- What is parked behind it. -/
  parked : List (Event V)
  /-- The reply that the session, or the failure that its task, waits to send. -/
  inHand : List (Item R)
  /-- What the queue of replies holds. -/
  items : List (Item R)
  /-- The reply that the receive task waits to put into its queue, or the failure that it met. -/
  pulled : List (Item R)
  /-- What the queue of the watcher holds. -/
  replies : List R

def Backlog.size (b : Backlog V R) : Nat :=
  b.events.length + b.parked.length + b.inHand.length + b.items.length + b.pulled.length + b.replies.length

/-- The backlog keeps within these capacities of the event stream, of the replies, and of the watcher. -/
structure Backlog.Within (b : Backlog V R) (events items replies : Nat) : Prop where
  events_le : b.events.length ≤ events
  parked_le : b.parked.length ≤ 1
  inHand_le : b.inHand.length ≤ 1
  items_le : b.items.length ≤ items
  pulled_le : b.pulled.length ≤ 1
  replies_le : b.replies.length ≤ replies

theorem Backlog.Within.size_le {b : Backlog V R} {events items replies : Nat} (h : b.Within events items replies) :
    b.size ≤ (events + 1) + (items + 1) + (replies + 1) := by
  obtain ⟨h₁, h₂, h₃, h₄, h₅, h₆⟩ := h
  unfold Backlog.size
  omega

/-- What the session, or the task that reports for it, waits to send. -/
def Phase.inHand? : Phase R → Option (Item R)
  | .sendingSnapshot r => some (.ok r)
  | .sending _ r => some (.ok r)
  | .reporting e => some (.error e.status)
  | _ => none

def Watcher.pulled (a : Watcher R) : List (Item R) := a.held.toList.map .ok ++ a.error.toList.map .error

namespace World

/-- The event streams that were opened with the token. -/
def streamsOf (w : World V R σ) (t : Token) : List (EventStream V) := w.store.streams.filter (·.token == t)

def backlogOf (w : World V R σ) (x : Session R) (a : Watcher R) : Backlog V R where
  events := (w.streamsOf x.token).flatMap (·.queue.items)
  parked := (w.streamsOf x.token).flatMap (·.parked.toList)
  inHand := x.phase.inHand?.toList
  items := x.replies.items
  pulled := a.pulled
  replies := a.queue.items

/-- The backlog of watcher `k`. -/
def backlog? (w : World V R σ) (k : Nat) : Option (Backlog V R) := do
  let a ← w.watchers[k]?
  let x ← w.sessions[a.session]?
  return w.backlogOf x a.watcher

end World

theorem Watcher.Orderly.length_pulled {a : Watcher R} (h : a.Orderly) : a.pulled.length ≤ 1 := by
  unfold Watcher.pulled
  cases herror : a.error with
  | none => cases a.held <;> simp
  | some s =>
    have hheld := h.held (h.finished (by rw [herror]; rfl))
    simp [hheld]

/-- Where there is one member at most, what it has is all. -/
private theorem length_flatMap_le {α β : Type} {xs : List α} (hxs : xs.length ≤ 1) (f : α → List β) {n : Nat}
    (h : ∀ a ∈ xs, (f a).length ≤ n) : (xs.flatMap f).length ≤ n := by
  match xs, hxs with
  | [], _ => exact Nat.zero_le n
  | [a], _ => simpa using h a

/-! ### Queues last -/

/-- Sessions and watchers stay, and none of their queues is overfilled. -/
structure World.KeepsQueues (w w' : World V R σ) : Prop where
  sessions : ∀ (i : Nat) (x : Session R), w.sessions[i]? = some x →
    ∃ x', w'.sessions[i]? = some x' ∧ x'.token = x.token ∧ x.replies.Lasts x'.replies
  watchers : ∀ (k : Nat) (a : Attachment R), w.watchers[k]? = some a →
    ∃ a', w'.watchers[k]? = some a' ∧ a'.session = a.session ∧ a.watcher.Lasts a'.watcher

namespace World.KeepsQueues

variable {w w' w'' : World V R σ}

theorem refl (w : World V R σ) : w.KeepsQueues w :=
  ⟨fun _ x hx => ⟨x, hx, rfl, .refl _⟩, fun _ a ha => ⟨a, ha, rfl, .refl _⟩⟩

theorem trans (h : w.KeepsQueues w') (h' : w'.KeepsQueues w'') : w.KeepsQueues w'' := by
  refine ⟨fun i x hx => ?_, fun k a ha => ?_⟩
  · obtain ⟨x', hx', htoken, hreplies⟩ := h.sessions i x hx
    obtain ⟨x'', hx'', htoken', hreplies'⟩ := h'.sessions i x' hx'
    exact ⟨x'', hx'', htoken'.trans htoken, hreplies.trans hreplies'⟩
  · obtain ⟨a', ha', hsession, hwatcher⟩ := h.watchers k a ha
    obtain ⟨a'', ha'', hsession', hwatcher'⟩ := h'.watchers k a' ha'
    exact ⟨a'', ha'', hsession'.trans hsession, hwatcher.trans hwatcher'⟩

end World.KeepsQueues

namespace Hall

variable [Inhabited V] {make : Maker V R σ} {c : Chronicle V} {h h' h'' : Hall V R σ} {eventBuffer i k : Nat}

theorem Deals.keepsQueues (hd : h.Deals c h') : h.world.KeepsQueues h'.world := by
  cases hd with
  | proceed _ _ _ hlasts =>
    refine ⟨fun i x hx => ?_, hlasts.watchers⟩
    obtain ⟨x', hx', h⟩ := hlasts.sessions i x hx
    exact ⟨x', hx', h.token_eq, h.replies⟩
  | @opens i x _ hsubscribes =>
    obtain ⟨hx, -, id, s', -, rfl⟩ := hsubscribes
    refine ⟨fun j y hy => ?_, fun _ a ha => ⟨a, ha, rfl, .refl _⟩⟩
    by_cases hij : i = j
    · subst hij
      obtain rfl := Option.some.inj (hx.symm.trans hy)
      exact ⟨_, List.getElem?_set_self (List.getElem?_eq_some_iff.1 hx).1, rfl, .refl _⟩
    · exact ⟨y, (List.getElem?_set_ne hij).trans hy, rfl, .refl _⟩
  | subscribe => exact ⟨fun _ x hx => ⟨x, hx, rfl, .refl _⟩, fun _ a ha => ⟨a, ha, rfl, .refl _⟩⟩
  | serve =>
    refine ⟨fun i x hx => ⟨x, ?_, rfl, .refl _⟩, fun _ a ha => ⟨a, ha, rfl, .refl _⟩⟩
    exact (List.getElem?_append_left (List.getElem?_eq_some_iff.1 hx).1).trans hx

theorem Reaches.keepsQueues (hstart : Reaches Q make (.empty eventBuffer) h) (hreaches : Reaches Q make h h') :
    h.world.KeepsQueues h'.world := by
  refine hreaches.of_steps (P := fun u => h.world.KeepsQueues u.world) (.refl _) fun hu hstep hkeeps => ?_
  obtain ⟨history, hc, -⟩ := (hstart.trans hu).exists_history
  exact hkeeps.trans (hstep.deals hc).keepsQueues

/-! ### Served and attached -/

/-- A caller has a watch served with this reply buffer, by session `i`. -/
def Serves (Q : Type) (h : Hall V R σ) (replyBuffer i : Nat) (h' : Hall V R σ) : Prop :=
  ∃ (endpoint : Endpoint Q V R σ) (maker : Nat) (request : Q) (call : CallRequest) (context : Nat),
    h' = h.act (.serve endpoint maker replyBuffer request call context) ∧ i = h.world.sessions.length ∧
      i < h'.world.sessions.length

/-- A client attaches a watcher of this capacity, number `k`, to the replies of session `i`. -/
def Attaches (Q : Type) (h : Hall V R σ) (i capacity k : Nat) (h' : Hall V R σ) : Prop :=
  ∃ context : Nat, h' = h.act (.attach i capacity context : HallAct Q V R σ) ∧ k = h.world.watchers.length ∧
    k < h'.world.watchers.length

theorem Serves.reaches {replyBuffer : Nat} (hserved : h.Serves Q replyBuffer i h') : Reaches Q make h h' := by
  obtain ⟨endpoint, maker, request, call, n, rfl, -⟩ := hserved
  exact Reaches.refl.act _

theorem Attaches.reaches {capacity : Nat} (hattached : h.Attaches Q i capacity k h') : Reaches Q make h h' := by
  obtain ⟨n, rfl, -⟩ := hattached
  exact Reaches.refl.act _

theorem Serves.session {replyBuffer : Nat} (hserved : h.Serves Q replyBuffer i h') :
    ∃ x, h'.world.sessions[i]? = some x ∧ x.replies = { capacity := max replyBuffer 1 } := by
  obtain ⟨endpoint, maker, request, call, n, hact, rfl, hlt⟩ := hserved
  have hacted := h.acted_act (.serve endpoint maker replyBuffer request call n)
  rw [← hact] at hacted
  cases hacted with
  | nothing => exact absurd hlt (Nat.lt_irrefl _)
  | serve => exact ⟨_, List.getElem?_concat_length, rfl⟩

theorem Attaches.watcher {capacity : Nat} (hattached : h.Attaches Q i capacity k h') :
    ∃ token, h'.world.watchers[k]? = some ⟨i, { token, queue := { capacity := max capacity 1 } }⟩ := by
  obtain ⟨n, hact, rfl, hlt⟩ := hattached
  have hacted := h.acted_act (.attach i capacity n : HallAct Q V R σ)
  rw [← hact] at hacted
  cases hacted with
  | nothing => exact absurd hlt (Nat.lt_irrefl _)
  | attach => exact ⟨_, List.getElem?_concat_length⟩
  | attachTooLarge => exact absurd hlt (Nat.lt_irrefl _)

/-! ### Streams of a session -/

omit [Inhabited V] in
/-- Of the event streams that there are one at most is the session's. -/
theorem Owned.length_streamsOf {s : MemoryStore V} (ho : h.Owned s) (hs : h.world.store = .memory s) {x : Session R}
    (hx : x ∈ h.world.sessions) : (h.world.streamsOf x.token).length ≤ 1 := by
  have hcount : (h.world.streamsOf x.token).length = s.owners.count x.token := by
    rw [World.streamsOf, hs, MemoryStore.owners, List.count_eq_countP, List.countP_map, List.countP_eq_length_filter]
    rfl
  have honce := ho.once x hx
  rw [hcount]
  split at honce
  · exact Nat.le_succ_of_le honce
  · exact honce

/-! ### Events wait -/

/-- While a session has something in hand nobody takes an event from its stream. -/
theorem Owned.waits (ho : h.Owned c.store) (hs : h.Separate) (hc : h.world.store = .memory c.store)
    (hd : h.Deals c h') {x : Session R} (hx : x ∈ h.world.sessions) (hhand : x.phase.inHand? ≠ none) {id : Nat}
    {st : EventStream V} (hst : c.store.streams[id]? = some st) (htoken : st.token = x.token) :
    ∃ st', h'.world.store.streams[id]? = some st' ∧ st.Waits st' := by
  have howner : c.store.owners[id]? = some x.token := by
    rw [MemoryStore.getElem?_owners, hst, Option.map_some, htoken]
  have hwatch : ∀ {key : String} {t : Token} {new : Nat} {s' : MemoryStore V}, c.store.watch key t = .ok (new, s') →
      ∃ st', s'.streams[id]? = some st' ∧ st.Waits st' := by
    intro key t new s' hw
    have hwaits := MemoryStore.waits_act hst (a := .watch key t) (by simp)
    rwa [MemoryStore.act_watch hw] at hwaits
  cases hd with
  | proceed as hstore hlets =>
    rw [hstore]
    refine Chronicle.waits_acts hst fun hreceive => ?_
    rcases hlets _ hreceive with hdirect | ⟨y, hy, hphase⟩
    · obtain ⟨t, ht, howner'⟩ := ho.direct id hdirect
      obtain rfl := Option.some.inj (howner.symm.trans howner')
      exact hs.token_notMem hx ht
    · -- who awaits an event of the stream is the session itself, which has nothing in hand then
      have howner' := ho.own y hy id (by rw [hphase]; rfl)
      have htokens : x.token = y.token := Option.some.inj (howner.symm.trans howner')
      obtain ⟨i, hi⟩ := List.mem_iff_getElem?.1 hx
      obtain ⟨j, hj⟩ := List.mem_iff_getElem?.1 hy
      obtain rfl := ho.eq_of_token_eq hi hj htokens
      obtain rfl := Option.some.inj (hi.symm.trans hj)
      exact hhand (by rw [hphase]; rfl)
  | opens hsubscribes =>
    obtain ⟨-, -, new, s', hw, rfl⟩ := hsubscribes
    exact hwatch hw
  | subscribe _ hw => exact hwatch hw
  | serve =>
    change ∃ st', h.world.store.streams[id]? = some st' ∧ st.Waits st'
    rw [hc]
    exact ⟨st, hst, Or.inl List.prefix_rfl⟩

end Hall

/-- Whatever callers and tasks do around a store, and however much is published: what is held between the store and
the consumer of a watcher on a served watch keeps within the capacities of the event stream, the replies and the
watcher, where zero counts as one, and one thing more behind each of the three.  As long as its session has something
in hand, no event is taken from its event stream. -/
theorem backlog_bounded [Inhabited V] (make : Maker V R σ) (eventBuffer replyBuffer capacity : Nat) {i k : Nat}
    {h₀ h₁ h₂ h₃ h : Hall V R σ} (hstart : Hall.Reaches Q make (.empty eventBuffer) h₀)
    (hserved : h₀.Serves Q replyBuffer i h₁) (hmeanwhile : Hall.Reaches Q make h₁ h₂)
    (hattached : h₂.Attaches Q i capacity k h₃) (hreaches : Hall.Reaches Q make h₃ h) :
    ∃ a x b, h.world.watchers[k]? = some a ∧ a.session = i ∧ h.world.sessions[i]? = some x ∧
      h.world.backlog? k = some b ∧ b.Within (max eventBuffer 1) (max replyBuffer 1) (max capacity 1) ∧
      b.size ≤ (max eventBuffer 1 + 1) + (max replyBuffer 1 + 1) + (max capacity 1 + 1) ∧
      (b.inHand ≠ [] → ∀ h', h.Step Q make h' → ∀ (id : Nat) (st : EventStream V),
        h.world.store.streams[id]? = some st → st.token = x.token →
        ∃ st', h'.world.store.streams[id]? = some st' ∧ st.Waits st') := by
  have hreached₁ : Hall.Reaches Q make (.empty eventBuffer) h₁ := hstart.trans hserved.reaches
  have hreached₃ : Hall.Reaches Q make (.empty eventBuffer) h₃ := (hreached₁.trans hmeanwhile).trans hattached.reaches
  obtain ⟨x₀, hx₀, hreplies₀⟩ := hserved.session
  obtain ⟨x, hx, -, hreplies⟩ :=
    (hreached₁.keepsQueues ((hmeanwhile.trans hattached.reaches).trans hreaches)).sessions i x₀ hx₀
  obtain ⟨token, ha₀⟩ := hattached.watcher
  obtain ⟨a, ha, hsession, hwatcher⟩ := (hreached₃.keepsQueues hreaches).watchers k _ ha₀
  have hreached := hreached₃.trans hreaches
  obtain ⟨history, hc, howned⟩ := hreached.exists_history
  have hxmem := List.mem_of_getElem? hx
  have hbacklog : h.world.backlog? k = some (h.world.backlogOf x a.watcher) := by
    simp [World.backlog?, ha, hsession, hx]
  have hone := howned.length_streamsOf hc hxmem
  have hwithin : (h.world.backlogOf x a.watcher).Within (max eventBuffer 1) (max replyBuffer 1) (max capacity 1) := by
    refine ⟨length_flatMap_le hone _ fun st hst => ?_, length_flatMap_le hone _ fun st _ => ?_, ?_, ?_, ?_, ?_⟩
    · have hsound := ((Chronicle.Sound.opening eventBuffer).acts history).streams
      rw [World.streamsOf, hc] at hst
      obtain ⟨id, hid⟩ := List.mem_iff_getElem?.1 (List.mem_filter.1 hst).1
      exact (hsound id st hid).length_le
    · cases st.parked <;> simp
    · change x.phase.inHand?.toList.length ≤ 1
      cases x.phase.inHand? <;> simp
    · have hfits := hreplies.fits (by rw [hreplies₀]; exact Nat.zero_le _)
      rw [Queue.Fits, hreplies.capacity_eq, hreplies₀] at hfits
      exact hfits
    · exact (hwatcher.orderly ⟨fun h => by simp at h, fun h => by simp at h⟩).length_pulled
    · have hfits := hwatcher.queue.fits (Nat.zero_le _)
      rw [Queue.Fits, hwatcher.queue.capacity_eq] at hfits
      exact hfits
  refine ⟨a, x, _, ha, hsession, hx, hbacklog, hwithin, hwithin.size_le, fun hhand h' hstep id st hst htoken => ?_⟩
  have hhand : x.phase.inHand? ≠ none := fun hnone => hhand (by simp [World.backlogOf, hnone])
  rw [hc] at hst
  exact howned.waits ((Hall.Inv.empty eventBuffer).of_reaches hreached).separate hc (hstep.deals hc) hxmem hhand hst
    htoken

/-- The consumer reads nothing and values go on being published: every queue is full, every hand and the parking place
are taken, and that is all. -/
theorem backlog_bounded_behind_stalled_reader :
    let endpoint : Endpoint String Nat Nat (ChangeCache Nat) :=
      { keyOf := fun key _ => .ok key, make := Endpoint.deduplicating fun _ v => v }
    ∃ (h : Hall Nat Nat (ChangeCache Nat)) (b : Backlog Nat Nat), Hall.Reaches String endpoint.make (.empty 1) h ∧
      h.world.backlog? 0 = some b ∧ b.Within 1 1 1 ∧ b.size = 6 := by
  intro endpoint
  let before : List (HallAct String Nat Nat (ChangeCache Nat)) :=
    [.context none, .context none, .maker {}, .mutate (.put "k" 0)]
  let call : HallAct String Nat Nat (ChangeCache Nat) := .serve endpoint 0 1 "k" {} 0
  let watch : HallAct String Nat Nat (ChangeCache Nat) := .attach 0 1 1
  let changes : List (HallAct String Nat Nat (ChangeCache Nat)) :=
    [1, 2, 3, 4, 5, 6, 7].map fun v => .mutate (.put "k" v)
  have hsettled : ((Hall.settled? endpoint.make (.empty 1) before).bind fun h₀ =>
      (Hall.settled? endpoint.make ((h₀.act call).act watch) changes).map fun h =>
        ((h₀.world.sessions.length, (h₀.act call).world.sessions.length, (h₀.act call).world.watchers.length,
          ((h₀.act call).act watch).world.watchers.length), (h.world.backlog? 0).map (·.size))) =
      some ((0, 1, 0, 1), some 6) := by
    decide +kernel
  obtain ⟨h₀, hbefore, hsettled⟩ := Option.bind_eq_some_iff.1 hsettled
  obtain ⟨h, hchanges, hfacts⟩ := Option.map_eq_some_iff.1 hsettled
  simp only [Prod.mk.injEq] at hfacts
  obtain ⟨⟨hnone, hsession, hnobody, hwatcher⟩, hsize⟩ := hfacts
  obtain ⟨hstart, -⟩ := Hall.Reaches.of_settled? hbefore .refl
  have hserved : h₀.Serves String 1 0 (h₀.act call) :=
    ⟨endpoint, 0, "k", {}, 0, rfl, hnone.symm, by rw [hsession]; decide⟩
  have hattached : (h₀.act call).Attaches String 0 1 0 ((h₀.act call).act watch) :=
    ⟨1, rfl, hnobody.symm, by rw [hwatcher]; decide⟩
  obtain ⟨hreaches, -⟩ := Hall.Reaches.of_settled? hchanges .refl
  obtain ⟨a, x, b, -, -, -, hb, hwithin, -⟩ :=
    backlog_bounded endpoint.make 1 1 1 hstart hserved .refl hattached hreaches
  rw [hb, Option.map_some, Option.some.injEq] at hsize
  exact ⟨h, b, ((hstart.act call).act watch).trans hreaches, hb, hwithin, hsize⟩

end ResourceWatch

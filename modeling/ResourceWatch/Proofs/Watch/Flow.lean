import ResourceWatch.Proofs.Watch.Company
import ResourceWatch.Proofs.Watch.Receiving
import ResourceWatch.Proofs.Watch.Tuned

/-!
# The flow of replies

A watch is at work on a memory store, whatever else goes on in the world, and its endpoint compares replies.  Event
queue, parked event, session, reply queue and watcher are the stages of one flow (`Flow`): what the session was told
is what it has taken of the published events, what it made of that is what it has sent or is about to send, and what
it sent is what the consumer got or what is on its way.  Every turn of every task keeps it so (`Flow.turn`).
-/

namespace ResourceWatch

variable {Q V R σ : Type}

/-! ### Consumers -/

/-- Who takes the replies of a session: a reader of its queue, or the consumer of a watcher on it. -/
inductive Consumer where
  | reader
  | watcher (k : Nat)
deriving DecidableEq, Repr

/-- What a reader of replies is told. -/
def Received.told : Received (Item R) → Told R
  | .item (.ok r) => .reply r
  | .item (.error status) => .failed status
  | .pending => .pending
  | .ended => .ended

def Told.reply? : Told R → Option R
  | .reply r => some r
  | _ => none

namespace World

/-- The consumer of session `i` asks for the next reply. -/
def ask (w : World V R σ) (i : Nat) : Consumer → Told R × World V R σ
  | .reader => ((w.receiveReply i).1.told, (w.receiveReply i).2)
  | .watcher k => w.nextReply k

/-- The token is not cancelled, and would not be by the end of any session but number `i`. -/
def Spares (w : World V R σ) (i : Nat) (t : Token) : Prop :=
  w.tokens.isCancelled t = false ∧ ∀ j y, w.sessions[j]? = some y → j ≠ i → y.token.isSuffixOf t = false

end World

/-! ### The flow of replies -/

/-- What a watch was opened with. -/
structure Opened (V R : Type) where
  number : Nat
  key : String
  token : Token
  maker : Nat
  reply : String → V → R
  cache : ChangeCache R
  /-- The value of the key at that time. -/
  snapshot : V
  /-- The capacity of the event queues of the store. -/
  capacity : Nat
  capacity_ok : 0 < capacity ∧ capacity ≤ Queue.maxCapacity

def Opened.make [BEq R] (o : Opened V R) : Maker V R (ChangeCache R) := Endpoint.deduplicating o.reply

/-- The watcher, number `l`, is the only one on the replies of session `i`, and at work. -/
structure Watcher.Attached (a : Watcher R) (i : Nat) (w : World V R σ) (l : Nat) : Prop where
  watcher_eq : w.watchers[l]? = some ⟨i, a⟩
  alone : ∀ (m : Nat) (b : Attachment R), w.watchers[m]? = some b → b.session = i → m = l
  running : a.finished = false
  read : a.queue.receiving = true
  capacity_pos : 0 < a.queue.capacity
  spared : w.Spares i a.token

/-- The consumer is in place, and besides the queue of session `i` these replies are on their way to it. -/
inductive Consumer.Serves (i : Nat) (w : World V R σ) : Consumer → List R → Prop where
  | reader (free : ∀ (l : Nat) (b : Attachment R), w.watchers[l]? = some b → b.session ≠ i) : Serves i w .reader []
  | watcher {l : Nat} {a : Watcher R} (attached : a.Attached i w l) :
    Serves i w (.watcher l) (a.queue.items ++ a.held.toList)

/-- The other sessions have endpoint states of their own, and event streams of their own, which exist. -/
def World.Apart (w : World V R σ) (i maker : Nat) (own : Option Nat) : Prop :=
  ∀ j y, w.sessions[j]? = some y → j ≠ i →
    y.maker ≠ maker ∧ ∀ id, y.phase.stream? = some id → id < w.store.streams.length ∧ own ≠ some id

/-- The watch `o` at work as session `x` on the store of the chronicle `k`: what was published on its key, and what
its consumer got of it. -/
structure Flow [Inhabited V] [BEq R] (o : Opened V R) (c : Consumer) (w : World V R (ChangeCache R))
    (published : List (Event V)) (got : List R) (k : Chronicle V) (x : Session R) (heard : Heard V)
    (st : ChangeCache R) (sent ahead : List R) : Prop where
  store_eq : w.store = .memory k.store
  session_eq : w.sessions[o.number]? = some x
  opened : x.key = o.key ∧ x.token = o.token ∧ x.maker = o.maker
  held : x.replies.receiving = true
  capacity_pos : 0 < x.replies.capacity
  working : x.phase.isAtWork = true
  sound : k.Sound o.capacity
  maker_eq : w.makers[o.maker]? = some st
  account : x.Accounts o.make o.cache heard st sent
  tuned : x.Tuned o.snapshot published k heard
  spared : w.Spares o.number o.token
  apart : w.Apart o.number o.maker x.phase.stream?
  serves : c.Serves o.number w ahead
  total : (got ++ ahead).map .ok ++ x.replies.items = sent.map .ok

/-! ### Neighbours -/

/-- What becomes of the sessions other than number `i`. -/
def World.Neighbours (i : Nat) (w w' : World V R σ) : Prop :=
  ∀ j y', w'.sessions[j]? = some y' → j ≠ i → ∃ y, w.sessions[j]? = some y ∧ y'.token = y.token ∧ y'.maker = y.maker ∧
    ∀ id, y'.phase.stream? = some id →
      y.phase.stream? = some id ∨ w.store.streams.length = id ∧ id < w'.store.streams.length

namespace World

variable {w w' : World V R σ} {i : Nat}

theorem Neighbours.of_same (h : ∀ j ≠ i, w'.sessions[j]? = w.sessions[j]?) : w.Neighbours i w' :=
  fun j y' hy' hj => ⟨y', h j hj ▸ hy', rfl, rfl, fun _ => Or.inl⟩

theorem Spares.of_neighbours {t : Token} (h : w.Spares i t) (hneighbours : w.Neighbours i w')
    (htokens : w'.tokens.isCancelled t = false) : w'.Spares i t := by
  refine ⟨htokens, fun j y' hy' hj => ?_⟩
  obtain ⟨y, hy, htoken, -, -⟩ := hneighbours j y' hy' hj
  rw [htoken]
  exact h.2 j y hy hj

theorem Apart.of_neighbours {maker : Nat} {own : Option Nat} (h : w.Apart i maker own)
    (hneighbours : w.Neighbours i w') (hlength : w.store.streams.length ≤ w'.store.streams.length)
    (hown : ∀ id, own = some id → id < w.store.streams.length) : w'.Apart i maker own := by
  intro j y' hy' hj
  obtain ⟨y, hy, -, hmaker, hstream⟩ := hneighbours j y' hy' hj
  obtain ⟨hne, hstreams⟩ := h j y hy hj
  refine ⟨hmaker ▸ hne, fun id hid => ?_⟩
  rcases hstream id hid with hid | ⟨rfl, hlt⟩
  · obtain ⟨hlt, hother⟩ := hstreams id hid
    exact ⟨Nat.lt_of_lt_of_le hlt hlength, hother⟩
  · exact ⟨hlt, fun hid' => Nat.lt_irrefl _ (hown _ hid')⟩

/-- A stream that is new belongs to no other session. -/
theorem Apart.of_same {maker : Nat} {own own' : Option Nat} (h : w.Apart i maker own)
    (hsame : ∀ j ≠ i, w'.sessions[j]? = w.sessions[j]?) (hlength : w.store.streams.length ≤ w'.store.streams.length)
    (hown : ∀ id, own' = some id → own = some id ∨ w.store.streams.length = id) : w'.Apart i maker own' := by
  intro j y hy hj
  obtain ⟨hne, hstreams⟩ := h j y (hsame j hj ▸ hy) hj
  refine ⟨hne, fun id hid => ?_⟩
  obtain ⟨hlt, hother⟩ := hstreams id hid
  refine ⟨Nat.lt_of_lt_of_le hlt hlength, fun hid' => ?_⟩
  rcases hown id hid' with hid' | rfl
  · exact hother hid'
  · exact Nat.lt_irrefl _ hlt

end World

/-- What changes no watcher of the session leaves its consumer in place. -/
theorem Consumer.Serves.of_neighbours {i : Nat} {w w' : World V R σ} {c : Consumer} {ahead : List R}
    (h : c.Serves i w ahead) (hneighbours : w.Neighbours i w')
    (htokens : ∀ t, w.Spares i t → w'.tokens.isCancelled t = false)
    (hwatchers : ∀ (l : Nat) (b : Attachment R), b.session = i →
      (w'.watchers[l]? = some b ↔ w.watchers[l]? = some b)) : c.Serves i w' ahead := by
  cases h with
  | reader free => exact .reader fun l b hb hi => free l b ((hwatchers l b hi).1 hb) hi
  | watcher h =>
    exact .watcher ⟨(hwatchers _ _ rfl).2 h.watcher_eq, fun l b hb hi => h.alone l b ((hwatchers l b hi).1 hb) hi,
      h.running, h.read, h.capacity_pos, h.spared.of_neighbours hneighbours (htokens _ h.spared)⟩

/-! ### The turns of others -/

section Flow

variable [Inhabited V] [BEq R] {o : Opened V R} {c : Consumer} {w w' : World V R (ChangeCache R)}
  {published : List (Event V)} {got : List R} {k : Chronicle V} {x : Session R} {heard : Heard V} {st : ChangeCache R}
  {sent ahead : List R}

/-- The number of the session's stream, if it has subscribed, is that of a stream. -/
theorem Flow.stream_lt (h : Flow o c w published got k x heard st sent ahead) {id : Nat}
    (hid : x.phase.stream? = some id) : id < k.store.streams.length := by
  cases h.tuned with
  | early hstream => simp [hstream] at hid
  | behind hstream follows =>
    obtain rfl := Option.some.inj (hid.symm.trans hstream)
    obtain ⟨st, hst, -⟩ := follows.live
    exact (List.getElem?_eq_some_iff.1 hst).1

/-- What happens elsewhere. -/
theorem Flow.elsewhere (h : Flow o c w published got k x heard st sent ahead) (as : List (StoreAct V))
    (has : ∀ a ∈ as, a.Beside x.phase.stream?) (hstore : w'.store = .memory (k.acts as).store)
    (hsession : w'.sessions[o.number]? = some x) (hmaker : w'.makers[o.maker]? = w.makers[o.maker]?)
    (hneighbours : w.Neighbours o.number w') (htokens : ∀ t, w.Spares o.number t → w'.tokens.isCancelled t = false)
    (hwatchers : ∀ (l : Nat) (b : Attachment R),
      b.session = o.number → (w'.watchers[l]? = some b ↔ w.watchers[l]? = some b)) :
    Flow o c w' published got (k.acts as) x heard st sent ahead := by
  have hlength : w.store.streams.length ≤ w'.store.streams.length := by
    rw [h.store_eq, hstore]
    exact k.length_streams_acts as
  have hbelow : ∀ id, x.phase.stream? = some id → id < w.store.streams.length := by
    rw [h.store_eq]
    exact fun id => h.stream_lt
  exact ⟨hstore, hsession, h.opened, h.held, h.capacity_pos, h.working, h.sound.acts as, hmaker.trans h.maker_eq,
    h.account, h.tuned.beside has, h.spared.of_neighbours hneighbours (htokens _ h.spared),
    h.apart.of_neighbours hneighbours hlength hbelow, h.serves.of_neighbours hneighbours htokens hwatchers, h.total⟩

theorem Flow.stirred (h : Flow o c w published got k x heard st sent ahead) {j : Nat} {y y' : Session R}
    (hy : w.sessions[j]? = some y) (hj : j ≠ o.number) (hsessions : w'.sessions = w.sessions.set j y')
    (hs : w.Stirs k y y' w') : ∃ k', Flow o c w' published got k' x heard st sent ahead := by
  obtain ⟨as, has, hstore, hstream⟩ := hs.acts
  obtain ⟨hmaker, hstreams⟩ := h.apart j y hy hj
  have hbeside : ∀ a ∈ as, a.Beside x.phase.stream? := by
    intro a ha
    have hmay := has a ha
    cases a with
    | watch => trivial
    | receive id => exact (hstreams id hmay).2
    | dropReceiver id => exact (hstreams id hmay).2
    | _ => exact hmay.elim
  have hneighbours : w.Neighbours o.number w' := by
    intro l z hz hl
    rw [hsessions] at hz
    by_cases hjl : j = l
    · subst hjl
      rw [List.getElem?_set_self (List.getElem?_eq_some_iff.1 hy).1, Option.some.injEq] at hz
      subst hz
      refine ⟨y, hy, hs.token_eq, hs.maker_eq, ?_⟩
      rw [h.store_eq, hstore]
      exact hstream
    · rw [List.getElem?_set_ne hjl] at hz
      exact ⟨z, hz, rfl, rfl, fun _ => Or.inl⟩
  refine ⟨k.acts as, h.elsewhere as hbeside hstore ?_ (hs.makers _ (Ne.symm hmaker)) hneighbours (fun t ht => ?_) ?_⟩
  · rw [hsessions, List.getElem?_set_ne hj]
    exact h.session_eq
  · rcases hs.tokens with htokens | htokens
    · rw [htokens]
      exact ht.1
    · rw [htokens, Tokens.isCancelled_cancel, ht.1, ht.2 j y hy hj]
      rfl
  · rw [hs.watchers_eq]
    exact fun _ _ _ => Iff.rfl

/-- A flush or guard task goes on. -/
private theorem Flow.restored (h : Flow o c w published got k x heard st sent ahead) {a : StoreAct V}
    (ha : a.Beside x.phase.stream?) :
    Flow o c { w with store := .memory (k.act a).store } published got (k.act a) x heard st sent ahead :=
  h.elsewhere [a] (fun _ hb => List.mem_singleton.1 hb ▸ ha) rfl h.session_eq rfl
    (World.Neighbours.of_same fun _ _ => rfl) (fun _ ht => ht.1) fun _ _ _ => Iff.rfl

theorem Flow.flush (h : Flow o c w published got k x heard st sent ahead) {id : Nat} {store : Backend V}
    (hflushed : w.store.flush? id = some store) :
    ∃ k', Flow o c { w with store } published got k' x heard st sent ahead := by
  obtain rfl := Backend.of_flush? h.store_eq hflushed
  exact ⟨_, h.restored (a := .flush id) trivial⟩

theorem Flow.release (h : Flow o c w published got k x heard st sent ahead) {id : Nat} {store : Backend V}
    (hreleased : w.store.release? w.tokens id = some store) :
    ∃ k', Flow o c { w with store } published got k' x heard st sent ahead := by
  -- the guard of the session's own stream waits, for the token is not cancelled
  have hother : x.phase.stream? ≠ some id := by
    intro hid
    cases h.tuned with
    | early hstream => simp [hstream] at hid
    | behind hstream _ htoken =>
      obtain rfl := Option.some.inj (hid.symm.trans hstream)
      rw [Option.map_eq_some_iff] at htoken
      obtain ⟨e, he, htoken⟩ := htoken
      have hspared := h.spared.1
      rw [← h.opened.2.1, ← htoken] at hspared
      simp [h.store_eq, Backend.release?, MemoryStore.release?, he, hspared] at hreleased
  obtain rfl := Backend.of_release? h.store_eq hreleased
  exact ⟨_, h.restored (a := .release w.tokens id) hother⟩

/-! ### The session's own turns -/

theorem Flow.advance (h : Flow o c w published got k x heard st sent ahead)
    (hadvances : World.Advances o.make w o.number x w') :
    ∃ k' x' heard' st' sent', Flow o c w' published got k' x' heard' st' sent' ahead := by
  obtain ⟨hkey, htoken, hmaker⟩ := h.opened
  have hi : o.number < w.sessions.length := (List.getElem?_eq_some_iff.1 h.session_eq).1
  -- the same step three times: by the replies that it makes, by what it hears, and by what it does to the rest
  obtain ⟨p, new, st', hsessions, hm, haccount⟩ :=
    hadvances.accounts h.working h.held (hmaker ▸ h.maker_eq) h.account
  obtain ⟨x', as, hsessions', hworking, htokens, hstore, htuned⟩ :=
    hadvances.tuned h.store_eq h.sound o.capacity_ok h.working h.held h.account.hasHeard h.tuned
  obtain ⟨x'', hsessions'', hstirs⟩ := hadvances.stirs h.store_eq
  have hsession : w'.sessions[o.number]? = some (x.goOn p new) := by rw [hsessions, List.getElem?_set_self hi]
  obtain rfl : x' = x.goOn p new := by
    rw [hsessions', List.getElem?_set_self hi] at hsession
    exact Option.some.inj hsession
  obtain rfl : x'' = x.goOn p new := by
    rw [hsessions'', List.getElem?_set_self hi] at hsession
    exact Option.some.inj hsession
  have hsame : ∀ j ≠ o.number, w'.sessions[j]? = w.sessions[j]? := by
    intro j hj
    rw [hsessions, List.getElem?_set_ne (Ne.symm hj)]
  have hneighbours := World.Neighbours.of_same hsame
  have huncancelled : ∀ t, w.Spares o.number t → w'.tokens.isCancelled t = false := fun t ht => htokens ▸ ht.1
  refine ⟨k.acts as, x.goOn p new, _, st', sent ++ new, hstore, hsession, ⟨hkey, htoken, hmaker⟩, h.held,
    h.capacity_pos, hworking, h.sound.acts as, hmaker ▸ hm, haccount, htuned,
    h.spared.of_neighbours hneighbours (huncancelled _ h.spared), h.apart.of_same hsame ?_ fun id hid => ?_,
    h.serves.of_neighbours hneighbours huncancelled ?_, ?_⟩
  · rw [h.store_eq, hstore]
    exact k.length_streams_acts as
  · obtain ⟨_, -, -, hstream⟩ := hstirs.acts
    rw [h.store_eq]
    exact (hstream id hid).imp_right And.left
  · rw [hstirs.watchers_eq]
    exact fun _ _ _ => Iff.rfl
  · have hsent : (sent ++ new).map (.ok : R → Item R) = sent.map .ok ++ new.map .ok := List.map_append
    rw [hsent, ← h.total]
    exact (List.append_assoc _ _ _).symm

/-! ### From the session to the consumer -/

/-- Replies go on from the session's queue towards the consumer. -/
theorem Flow.moved (h : Flow o c w published got k x heard st sent ahead) {c' : Consumer} {source : Queue (Item R)}
    {got' ahead' : List R} (hstore : w'.store = w.store) (hmakers : w'.makers = w.makers)
    (htokens : w'.tokens = w.tokens) (hsessions : w'.sessions = w.sessions.set o.number { x with replies := source })
    (hheld : source.receiving = true) (hcapacity : source.capacity = x.replies.capacity)
    (hserves : w.Neighbours o.number w' → c'.Serves o.number w' ahead')
    (htotal : (got' ++ ahead').map .ok ++ source.items = sent.map .ok) :
    Flow o c' w' published got' k { x with replies := source } heard st sent ahead' := by
  have hi : o.number < w.sessions.length := (List.getElem?_eq_some_iff.1 h.session_eq).1
  have hsame : ∀ j ≠ o.number, w'.sessions[j]? = w.sessions[j]? := by
    intro j hj
    rw [hsessions, List.getElem?_set_ne (Ne.symm hj)]
  have hneighbours := World.Neighbours.of_same hsame
  obtain ⟨hheard, hstate, hreplies, houtcome⟩ := h.account
  refine ⟨hstore.trans h.store_eq, by rw [hsessions, List.getElem?_set_self hi], h.opened, hheld, ?_, h.working,
    h.sound, hmakers ▸ h.maker_eq, ⟨hheard, hstate, hreplies, houtcome⟩, h.tuned.of_same rfl rfl rfl,
    h.spared.of_neighbours hneighbours (htokens ▸ h.spared.1), h.apart.of_same hsame ?_ fun _ => Or.inl,
    hserves hneighbours, htotal⟩
  · rw [hcapacity]
    exact h.capacity_pos
  · exact Nat.le_of_eq (by rw [hstore])

/-- All that is on its way are replies. -/
theorem Flow.not_error_mem (h : Flow o c w published got k x heard st sent ahead) (status : Status) :
    .error status ∉ x.replies.items := by
  intro hmem
  have hsent : .error status ∈ sent.map (.ok : R → Item R) := h.total ▸ List.mem_append_right _ hmem
  simp at hsent

omit [Inhabited V] [BEq R] in
/-- A watcher that took a step, or whose consumer took a reply, is still attached. -/
theorem attached_of_set {a b : Watcher R} {l : Nat} (h : a.Attached o.number w l)
    (hwatchers : w'.watchers = w.watchers.set l ⟨o.number, b⟩) (hrunning : b.finished = a.finished)
    (hqueue : b.queue.receiving = a.queue.receiving ∧ b.queue.capacity = a.queue.capacity)
    (htoken : b.token = a.token)
    (hneighbours : w.Neighbours o.number w') (htokens : w'.tokens = w.tokens) : b.Attached o.number w' l := by
  refine ⟨?_, fun m e he hsession => ?_, hrunning.trans h.running, hqueue.1.trans h.read,
    hqueue.2 ▸ h.capacity_pos, ?_⟩
  · rw [hwatchers, List.getElem?_set_self (List.getElem?_eq_some_iff.1 h.watcher_eq).1]
  · rw [hwatchers] at he
    by_cases hm : l = m
    · exact hm.symm
    · rw [List.getElem?_set_ne hm] at he
      exact h.alone m e he hsession
  · rw [htoken]
    exact h.spared.of_neighbours hneighbours (htokens ▸ h.spared.1)

/-- The receive task of the consumer's watcher goes on. -/
private theorem Flow.pulled {l : Nat} {a watcher : Watcher R} {source : Queue (Item R)}
    (h : Flow o (.watcher l) w published got k x heard st sent (a.queue.items ++ a.held.toList))
    (ha : a.Attached o.number w l) (hpulls : a.Pulls x.replies x.isOpen watcher source) :
    ∃ x' ahead', Flow o (.watcher l) (w.setWatched l ⟨o.number, a⟩ x watcher source) published got k x' heard st sent
      ahead' := by
  cases hpulls with
  | @deliver r held =>
    refine ⟨_, _, h.moved rfl rfl rfl rfl h.held rfl (fun hneighbours =>
      .watcher (attached_of_set ha rfl rfl ⟨rfl, rfl⟩ rfl hneighbours rfl)) ?_⟩
    rw [← h.total, held]
    simp
  | desert _ unread => simp [ha.read] at unread
  | @take r rest held items =>
    refine ⟨_, _, h.moved rfl rfl rfl rfl h.held rfl (fun hneighbours =>
      .watcher (attached_of_set ha rfl rfl ⟨rfl, rfl⟩ rfl hneighbours rfl)) ?_⟩
    rw [← h.total, held, items]
    simp
  | fail held items => exact absurd (items ▸ List.mem_cons_self) (h.not_error_mem _)
  | finish _ _ closed => simp [Session.isOpen, Phase.isOpen_of_isAtWork h.working] at closed

/-- The receive task of another watcher goes on. -/
private theorem Flow.pulledElsewhere (h : Flow o c w published got k x heard st sent ahead) {l : Nat}
    {a : Attachment R} (ha : w.watchers[l]? = some a) {y : Session R} (hy : w.sessions[a.session]? = some y)
    (hother : a.session ≠ o.number) (watcher : Watcher R) (source : Queue (Item R)) :
    Flow o c (w.setWatched l a y watcher source) published got k x heard st sent ahead := by
  have hl : l < w.watchers.length := (List.getElem?_eq_some_iff.1 ha).1
  refine h.elsewhere [] (fun _ ha => absurd ha List.not_mem_nil) h.store_eq ?_ rfl ?_ (fun _ ht => ht.1) ?_
  · exact (List.getElem?_set_ne hother).trans h.session_eq
  · intro j y' hy' hj
    by_cases hja : a.session = j
    · subst hja
      have hset : (w.setWatched l a y watcher source).sessions[a.session]? = some { y with replies := source } :=
        List.getElem?_set_self (List.getElem?_eq_some_iff.1 hy).1
      obtain rfl := Option.some.inj (hset.symm.trans hy')
      exact ⟨y, hy, rfl, rfl, fun _ => Or.inl⟩
    · exact ⟨y', (List.getElem?_set_ne hja).symm.trans hy', rfl, rfl, fun _ => Or.inl⟩
  · intro m b hb
    by_cases hm : l = m
    · subst hm
      have hset : (w.setWatched l a y watcher source).watchers[l]? = some { a with watcher } :=
        List.getElem?_set_self hl
      rw [hset, ha, Option.some.injEq, Option.some.injEq]
      constructor
      · rintro rfl
        exact absurd hb hother
      · rintro rfl
        exact absurd hb hother
    · have hset : (w.setWatched l a y watcher source).watchers[m]? = w.watchers[m]? := List.getElem?_set_ne hm
      rw [hset]

omit [Inhabited V] [BEq R] in
/-- A watcher on the session is the consumer's. -/
private theorem attached_of_session {l : Nat} {a : Attachment R} (h : c.Serves o.number w ahead)
    (ha : w.watchers[l]? = some a) (hsession : a.session = o.number) :
    c = .watcher l ∧ a.watcher.Attached o.number w l ∧ ahead = a.watcher.queue.items ++ a.watcher.held.toList := by
  cases h with
  | reader free => exact absurd hsession (free l a ha)
  | watcher h =>
    obtain rfl := h.alone l a ha hsession
    obtain rfl := Option.some.inj (ha.symm.trans h.watcher_eq)
    exact ⟨rfl, h, rfl⟩

/-! ### Runs -/

/-- The watch is at work. -/
def Flows (o : Opened V R) (c : Consumer) (w : World V R (ChangeCache R)) (published : List (Event V))
    (got : List R) : Prop :=
  ∃ k x heard st sent ahead, Flow o c w published got k x heard st sent ahead

theorem Flow.turn (h : Flow o c w published got k x heard st sent ahead) {t : Turn}
    (hturn : w.turn? o.make t = some w') : Flows o c w' published got := by
  have huncancelled : w.tokens.isCancelled x.token = false := h.opened.2.1 ▸ h.spared.1
  have hown : ∀ {y : Session R}, w.sessions[o.number]? = some y → y = x := fun hy =>
    Option.some.inj (hy.symm.trans h.session_eq)
  -- what the tasks of other sessions do
  have hothers : ∀ {j : Nat} {y y' : Session R} {w' : World V R (ChangeCache R)}, w.sessions[j]? = some y →
      j ≠ o.number → w'.sessions = w.sessions.set j y' → w.Stirs k y y' w' → Flows o c w' published got := by
    intro j y y' w' hy hj hsessions hstirs
    obtain ⟨k', h'⟩ := h.stirred hy hj hsessions hstirs
    exact ⟨k', x, heard, st, sent, ahead, h'⟩
  cases World.turned_of_turn? hturn with
  | flush hflushed =>
    obtain ⟨k', h'⟩ := h.flush hflushed
    exact ⟨k', x, heard, st, sent, ahead, h'⟩
  | release hreleased =>
    obtain ⟨k', h'⟩ := h.release hreleased
    exact ⟨k', x, heard, st, sent, ahead, h'⟩
  | @advance j _ _ hy hadvances =>
    by_cases hj : j = o.number
    · subst hj
      obtain rfl := hown hy
      obtain ⟨k', x', heard', st', sent', h'⟩ := h.advance hadvances
      exact ⟨k', x', heard', st', sent', ahead, h'⟩
    · obtain ⟨y', hsessions, hstirs⟩ := hadvances.stirs h.store_eq
      exact hothers hy hj hsessions hstirs
  | @abandon j y hy _ hcancelled =>
    by_cases hj : j = o.number
    · subst hj
      obtain rfl := hown hy
      simp [huncancelled] at hcancelled
    · exact hothers hy hj rfl (World.stirs_abandon h.store_eq j y)
  | @desert j y hy _ hgone =>
    by_cases hj : j = o.number
    · subst hj
      obtain rfl := hown hy
      simp [h.held] at hgone
    · exact hothers hy hj rfl (World.stirs_monitor h.store_eq (Or.inr rfl) j)
  | @dismiss j y hy _ hcancelled =>
    by_cases hj : j = o.number
    · subst hj
      obtain rfl := hown hy
      simp [huncancelled] at hcancelled
    · exact hothers hy hj rfl (World.stirs_monitor h.store_eq (Or.inl rfl) j)
  | @pull l a y watcher source ha hy hpulled =>
    by_cases hsession : a.session = o.number
    · obtain ⟨rfl, hattached, rfl⟩ := attached_of_session h.serves ha hsession
      obtain rfl := hown (hsession ▸ hy)
      obtain ⟨x', ahead', h'⟩ := h.pulled hattached (Watcher.pulls_of_pull? hpulled).2
      rw [← hsession] at h'
      exact ⟨k, x', heard, st, sent, ahead', h'⟩
    · exact ⟨k, x, heard, st, sent, ahead, h.pulledElsewhere ha hy hsession watcher source⟩
  | @quit l a y ha hy _ hcancelled =>
    by_cases hsession : a.session = o.number
    · obtain ⟨rfl, hattached, rfl⟩ := attached_of_session h.serves ha hsession
      simp [hattached.spared.1] at hcancelled
    · exact ⟨k, x, heard, st, sent, ahead, h.pulledElsewhere ha hy hsession _ _⟩

theorem Flows.runs (h : Flows o c w published got) (hruns : World.Runs o.make w w') : Flows o c w' published got := by
  induction hruns with
  | refl => exact h
  | turn t ht _ ih =>
    obtain ⟨k, x, heard, st, sent, ahead, hflow⟩ := h
    exact ih (hflow.turn ht)

end Flow

end ResourceWatch

import ResourceWatch.Proofs.Watch.Changes
import ResourceWatch.Proofs.Watch.Flow
import ResourceWatch.Proofs.Watch.Rest
import ResourceWatch.Proofs.Watch.Serving

/-!
# Convergence

A watch is served on a memory store, whatever else goes on in the world, and its endpoint compares replies.  Whenever
all tasks have come to rest, a value is stored or deleted, or the consumer asks for the next reply, and the tasks go
on.

The acts keep the flow of replies from the store to the consumer (`Flow`), as the turns of the tasks do.  At rest with
nothing for the consumer to get all of its stages are empty, so the consumer is up to date (`watch_converges`).
-/

namespace ResourceWatch

variable {Q V R σ : Type}

/-! ### Watching -/

/-- What is done while all tasks wait. -/
inductive RestAct (V : Type) where
  | put (key : String) (value : V)
  | delete (key : String)
  | ask

structure Watching (V R : Type) where
  world : World V R (ChangeCache R)
  /-- The events published so far. -/
  published : List (Event V) := []
  /-- What the consumer was told, each time it asked. -/
  told : List (Told R) := []

namespace Watching

variable [Inhabited V]

def act (i : Nat) (c : Consumer) (u : Watching V R) : RestAct V → Watching V R
  | .put key value =>
    match u.world.store with
    | .memory s =>
      { u with
        world := { u.world with store := .memory (s.put key value).2 }
        published := u.published ++ [⟨(s.put key value).1, key, .put value⟩] }
    | .scripted _ => u
  | .delete key =>
    match u.world.store with
    | .memory s =>
      { u with
        world := { u.world with store := .memory (s.delete key).2 }
        published := u.published ++ ((s.delete key).1.map fun id => ⟨id, key, .delete default⟩).toList }
    | .scripted _ => u
  | .ask => { u with world := (u.world.ask i c).2, told := u.told ++ [(u.world.ask i c).1] }

/-- The tasks come to rest after the world `w`, and again after each act. -/
inductive Reaches (make : Maker V R (ChangeCache R)) (i : Nat) (c : Consumer) (w : World V R (ChangeCache R)) :
    Watching V R → Prop where
  | start {w' : World V R (ChangeCache R)} (runs : World.Runs make w w') (rest : World.AtRest make w') :
    Reaches make i c w { world := w' }
  | act {u : Watching V R} {w' : World V R (ChangeCache R)} (reached : Reaches make i c w u) (a : RestAct V)
    (runs : World.Runs make (u.act i c a).world w') (rest : World.AtRest make w') :
    Reaches make i c w { u.act i c a with world := w' }

/-- The state after these acts, all tasks settled before and behind each. -/
def settled? (make : Maker V R (ChangeCache R)) (i : Nat) (c : Consumer) (u : Watching V R) :
    List (RestAct V) → Option (Watching V R)
  | [] => (World.settled? make u.world).map fun w => { u with world := w }
  | a :: as => do
    let w ← World.settled? make u.world
    settled? make i c ({ u with world := w }.act i c a) as

theorem Reaches.of_settled? {make : Maker V R (ChangeCache R)} {i : Nat} {c : Consumer}
    {w : World V R (ChangeCache R)}
    {u u' : Watching V R} {as : List (RestAct V)} (h : settled? make i c u as = some u')
    (hreaches : ∀ w', World.Runs make u.world w' → World.AtRest make w' → Reaches make i c w { u with world := w' }) :
    Reaches make i c w u' := by
  induction as generalizing u with
  | nil =>
    obtain ⟨w', hw', rfl⟩ := Option.map_eq_some_iff.1 h
    obtain ⟨hruns, hrest⟩ := World.of_settled? hw'
    exact hreaches w' hruns hrest
  | cons a as ih =>
    obtain ⟨w', hw', h⟩ := Option.bind_eq_some_iff.1 h
    obtain ⟨hruns, hrest⟩ := World.of_settled? hw'
    exact ih h fun _ => .act (hreaches w' hruns hrest) a

omit [Inhabited V] in
/-- The replies that the consumer got. -/
def replies (u : Watching V R) : List R := u.told.filterMap Told.reply?

omit [Inhabited V] in
/-- The values published on the key, that of a deletion among them. -/
def values (u : Watching V R) (key : String) : List V :=
  (u.published.filter (·.key = key)).filterMap (·.kind.value?)

/-- The consumer got the snapshot's reply and then those of published values in their order, never the same twice in a
row, and if nothing more is there for it, its last reply is that of the value that the store holds. -/
structure Converges (reply : String → V → R) (key : String) (snapshot : V) (i : Nat) (c : Consumer)
    (u : Watching V R) : Prop where
  replies : ∃ vs : List V, vs.Sublist (u.values key) ∧ u.replies <+: (snapshot :: vs).map (reply key)
  stutterless : u.replies.IsChain (· ≠ ·)
  alive : ∀ told ∈ u.told, told = .pending ∨ ∃ r, told = .reply r
  current : (u.world.ask i c).1 = .pending →
    ∃ s, u.world.store = .memory s ∧ u.replies.getLast? = some (reply key (s.held key))

end Watching

/-! ### The acts -/

section Acts

variable [Inhabited V] [BEq R] {o : Opened V R} {c : Consumer} {w : World V R (ChangeCache R)}
  {published : List (Event V)} {got : List R} {k : Chronicle V} {x : Session R} {heard : Heard V} {st : ChangeCache R}
  {sent ahead : List R}

/-- The store changes. -/
theorem Flow.changed (h : Flow o c w published got k x heard st sent ahead) (a : StoreAct V)
    {published' : List (Event V)} (htuned : x.Tuned o.snapshot published' (k.act a) heard) :
    Flow o c { w with store := .memory (k.act a).store } published' got (k.act a) x heard st sent ahead := by
  have hlength : w.store.streams.length ≤ (k.act a).store.streams.length := by
    rw [h.store_eq]
    exact k.length_streams_acts [a]
  exact ⟨rfl, h.session_eq, h.opened, h.held, h.capacity_pos, h.working, h.sound.act a, h.maker_eq, h.account, htuned,
    h.spared, h.apart.of_same (fun _ _ => rfl) hlength fun _ => Or.inl,
    h.serves.of_neighbours (World.Neighbours.of_same fun _ _ => rfl) (fun _ ht => ht.1) fun _ _ _ => Iff.rfl, h.total⟩

omit [Inhabited V] [BEq R] in
private theorem set_of_getElem? {α : Type} {xs : List α} {i : Nat} {a : α} (h : xs[i]? = some a) :
    xs.set i a = xs := by
  obtain ⟨hi, rfl⟩ := List.getElem?_eq_some_iff.1 h
  exact List.set_getElem_self hi

/-- The consumer is told the next reply of those on their way, or that it has to wait. -/
theorem Flow.ask (h : Flow o c w published got k x heard st sent ahead) :
    ((w.ask o.number c).1 = .pending ∧ (w.ask o.number c).2 = w) ∨
      ∃ r, (w.ask o.number c).1 = .reply r ∧ Flows o c (w.ask o.number c).2 published (got ++ [r]) := by
  cases h.serves with
  | reader free =>
    simp only [World.ask]
    rcases World.receiveReply_cases h.session_eq with ⟨item, rest, hitems, heq⟩ | ⟨hitems, heq⟩
    · rw [heq]
      cases item with
      | error status => exact absurd (hitems ▸ List.mem_cons_self) (h.not_error_mem status)
      | ok r =>
        refine Or.inr ⟨r, rfl, k, _, heard, st, sent, [], h.moved rfl rfl rfl rfl h.held rfl
          (fun _ => .reader free) ?_⟩
        rw [← h.total, hitems]
        simp
    · rw [heq, Session.isOpen, Phase.isOpen_of_isAtWork h.working]
      exact Or.inl ⟨rfl, rfl⟩
  | @watcher l a attached =>
    have hl : l < w.watchers.length := (List.getElem?_eq_some_iff.1 attached.watcher_eq).1
    simp only [World.ask, World.nextReply, attached.watcher_eq]
    rcases a.next_cases with ⟨r, rest, hitems, hnext⟩ | ⟨-, -, hnext⟩ | ⟨-, hfinished, -⟩
    · rw [hnext]
      let b : Watcher R := { a with queue := { a.queue with items := rest } }
      refine Or.inr ⟨r, rfl, k, _, heard, st, sent, b.queue.items ++ b.held.toList,
        h.moved rfl rfl rfl (set_of_getElem? h.session_eq).symm h.held rfl
          (fun hneighbours => .watcher (attached_of_set attached rfl rfl ⟨rfl, rfl⟩ rfl hneighbours rfl)) ?_⟩
      rw [← h.total, hitems]
      simp [b]
    · rw [hnext]
      refine Or.inl ⟨rfl, ?_⟩
      dsimp only
      rw [set_of_getElem? attached.watcher_eq]
    · simp [attached.running] at hfinished

/-! ### At rest -/

theorem Flow.got_prefix (h : Flow o c w published got k x heard st sent ahead) : got <+: sent := by
  have hmap : (got.map (.ok : R → Item R)) <+: sent.map .ok := by
    rw [← h.total, List.map_append, List.append_assoc]
    exact List.prefix_append _ _
  have := hmap.filterMap Except.toOption
  simpa [List.filterMap_map, Function.comp_def, Except.toOption] using this

/-- At rest the session waits for room or for an event. -/
private theorem Flow.waits (h : Flow o c w published got k x heard st sent ahead) (hrest : World.AtRest o.make w) :
    (x.phase.sends?.isSome = true ∧ x.replies.hasRoom = false) ∨
      ∃ id, x.phase = .awaiting id ∧ (k.store.receive id).1 = .pending := by
  have hadvance : World.advance? o.make w o.number x = none := by
    have hturn := hrest (.advance o.number)
    rwa [World.turn?_advance h.session_eq] at hturn
  have hworking := h.working
  cases World.waits_of_advance?_eq_none (h.opened.2.2 ▸ h.maker_eq) hadvance with
  | unread _ answer => simp [h.store_eq, Backend.answer?] at answer
  | full phase room => exact Or.inl ⟨by rw [phase]; rfl, room⟩
  | quiet phase got =>
    rw [h.store_eq, Backend.receive_memory] at got
    exact Or.inr ⟨_, phase, got⟩
  | fullReport phase => simp [phase, Phase.isAtWork] at hworking
  | idle phase => simp [phase, Phase.isAtWork] at hworking
  | finished phase => simp [phase, Phase.isAtWork] at hworking
  | crashed phase => simp [phase, Phase.isAtWork] at hworking

/-- A session that comes to rest has subscribed: there is always room for the snapshot's reply. -/
private theorem Flow.subscribed (h : Flow o c w published got k x heard st sent ahead)
    (hrest : World.AtRest o.make w) : ∃ id, x.phase.stream? = some id := by
  rcases h.waits hrest with ⟨hsends, hfull⟩ | ⟨id, hp, -⟩
  · cases hp : x.phase with
    | sending id r => exact ⟨id, rfl⟩
    | sendingSnapshot first =>
      -- nothing was sent before it, so the queue is empty
      obtain ⟨hheard, -, hreplies, -⟩ := h.account
      rw [hp] at hheard hreplies
      obtain ⟨v, rfl⟩ := hheard
      have hcourse : (({ answer := some (.ok v) } : Heard V).course o.make x.key o.cache).replies =
          [o.reply x.key v] :=
        rfl
      rw [hcourse] at hreplies
      have hsent : sent = [] := by simpa [Phase.unsent, Phase.sends?] using congrArg List.length hreplies
      have htotal := h.total
      rw [hsent, List.map_nil, List.append_eq_nil_iff] at htotal
      simp [Queue.hasRoom, htotal.2, h.capacity_pos] at hfull
    | _ => simp [hp, Phase.sends?] at hsends
  · exact ⟨id, by rw [hp]; rfl⟩

/-- What a subscribed session has made of the values that it took. -/
private theorem Flow.compares [LawfulBEq R] (h : Flow o c w published got k x heard st sent ahead) {id : Nat}
    (hid : x.phase.stream? = some id) :
    (heard.course o.make x.key o.cache).Compares o.reply x.key o.snapshot
        ((Log.taken id k.log).filterMap (·.kind.value?)) ∧
      (Log.taken id k.log).Sublist published := by
  cases h.tuned with
  | early hstream => simp [hstream] at hid
  | behind hstream follows _ heard_eq told =>
    obtain rfl := Option.some.inj (hid.symm.trans hstream)
    obtain ⟨e, he, -⟩ := follows.live
    have hsublist := (follows.tracks h.sound he).sublist
    have htaken : (Log.taken id k.log).Sublist (Log.told id x.key k.log) :=
      (List.sublist_append_left _ _).trans hsublist
    rw [heard_eq]
    refine ⟨Heard.compares_course o.reply x.key o.cache o.snapshot fun e he => ?_, told ▸ htaken⟩
    exact EventKind.value?_of_isError (follows.clean e (htaken.subset he))

/-- With nothing for the consumer to get, nothing is on its way: the session waits for an event, and has sent all its
replies, which the consumer got. -/
private theorem Flow.drained (h : Flow o c w published got k x heard st sent ahead) (hrest : World.AtRest o.make w)
    (hpending : (w.ask o.number c).1 = .pending) : x.phase.unsent = [] ∧ sent = got ∧
      ∀ id, x.phase.stream? = some id → (k.store.receive id).1 = .pending := by
  obtain ⟨hahead, hitems⟩ : ahead = [] ∧ x.replies.items = [] := by
    cases h.serves with
    | reader =>
      refine ⟨rfl, ?_⟩
      simp only [World.ask] at hpending
      rcases World.receiveReply_cases h.session_eq with ⟨item, rest, -, heq⟩ | ⟨hitems, -⟩
      · rw [heq] at hpending
        cases item <;> simp [Received.told] at hpending
      · exact hitems
    | @watcher l a attached =>
      simp only [World.ask, World.nextReply, attached.watcher_eq] at hpending
      rcases a.next_cases with ⟨r, rest, -, hnext⟩ | ⟨hqueue, -, -⟩ | ⟨-, hfinished, -⟩
      · simp [hnext] at hpending
      · have hpull : a.pull? x.replies x.isOpen = none := by
          have hturn := hrest (.pull l)
          cases hp : a.pull? x.replies x.isOpen with
          | none => rfl
          | some r => simp [World.turn?, attached.watcher_eq, h.session_eq, hp] at hturn
        have hroom : a.queue.hasRoom = true := by simp [Queue.hasRoom, hqueue, attached.capacity_pos]
        rcases Watcher.waits_of_pull?_eq_none hpull attached.running with ⟨-, hfull⟩ | ⟨hheld, hitems, -⟩
        · simp [hroom] at hfull
        · exact ⟨by simp [hqueue, hheld], hitems⟩
      · simp [attached.running] at hfinished
  have hsent : sent = got := by
    have htotal := h.total
    rw [hahead, hitems, List.append_nil, List.append_nil] at htotal
    exact (List.map_inj_right fun _ _ => Except.ok.inj).1 htotal.symm
  have hroom : x.replies.hasRoom = true := by simp [Queue.hasRoom, hitems, h.capacity_pos]
  rcases h.waits hrest with ⟨-, hfull⟩ | ⟨id, hp, hquiet⟩
  · simp [hroom] at hfull
  · refine ⟨by rw [hp]; rfl, hsent, fun id' hid => ?_⟩
    rw [hp] at hid
    obtain rfl := Option.some.inj hid
    exact hquiet

/-- With nothing on its way the consumer is up to date. -/
private theorem Flow.current [LawfulBEq R] (h : Flow o c w published got k x heard st sent ahead)
    (hrest : World.AtRest o.make w) (hpending : (w.ask o.number c).1 = .pending) :
    got.getLast? = some (o.reply x.key (k.store.held x.key)) := by
  obtain ⟨hunsent, rfl, hquiet⟩ := h.drained hrest hpending
  obtain ⟨id, hid⟩ := h.subscribed hrest
  have hlast := (h.compares hid).1.last
  rw [h.account.replies, hunsent, List.append_nil] at hlast
  rw [hlast]
  cases h.tuned with
  | early hstream => simp [hstream] at hid
  | behind hstream follows _ _ told unchanged =>
    obtain rfl := Option.some.inj (hid.symm.trans hstream)
    obtain ⟨e, he, -, -, hread⟩ := follows.live
    have hflush : e.flush? = none := by
      have hturn := hrest (.flush id)
      cases hf : e.flush? with
      | none => rfl
      | some f => simp [World.turn?, h.store_eq, Backend.flush?_memory, MemoryStore.flush?, he, hf] at hturn
    have hempty : e.queue.items = [] := by
      have hpending := hquiet id hid
      simp only [MemoryStore.receive, he] at hpending
      exact (EventStream.receive_none fun e he => by simp [hpending] at he).1
    -- no event is parked or queued, so the one taken last is the one published last
    have hahead := (h.sound.streams id e he).ahead_eq_nil o.capacity_ok.1 hread hflush hempty
    obtain ⟨hnone, hsome⟩ := follows.getLast?_taken h.sound he hahead
    by_cases htold : Log.told id x.key k.log = []
    · rw [hnone htold, unchanged (told ▸ htold)]
      rfl
    · obtain ⟨e, he, hvalue⟩ := Option.bind_eq_some_iff.1 (hsome htold)
      obtain ⟨before, hbefore⟩ := List.getLast?_eq_some_iff.1 he
      have hone : [e].filterMap (·.kind.value?) = [k.store.held x.key] := by simp [hvalue]
      rw [hbefore, List.filterMap_append, hone, List.getLast?_concat]
      rfl

end Acts

/-! ### Watching is a flow -/

namespace Watching

variable [Inhabited V] [BEq R] {o : Opened V R} {c : Consumer} {w : World V R (ChangeCache R)} {u : Watching V R}

/-- The watch is at work, and its consumer was told nothing but replies. -/
structure Inv (o : Opened V R) (c : Consumer) (u : Watching V R) : Prop where
  flows : Flows o c u.world (u.published.filter (·.key = o.key)) u.replies
  alive : ∀ told ∈ u.told, told = .pending ∨ ∃ r, told = .reply r

theorem Inv.act (h : u.Inv o c) (hrest : World.AtRest o.make u.world) (a : RestAct V) :
    (u.act o.number c a).Inv o c := by
  obtain ⟨⟨k, x, heard, st, sent, ahead, hflow⟩, halive⟩ := h
  -- a change before the subscription would not be told
  obtain ⟨id, hid⟩ := hflow.subscribed hrest
  have hsubscribed : x.phase.stream? ≠ none := by simp [hid]
  cases a with
  | put key value =>
    have htuned := hflow.tuned.put hsubscribed key value
    rw [hflow.opened.1, ← List.filter_append] at htuned
    simp only [Watching.act, hflow.store_eq]
    exact ⟨⟨_, x, heard, st, sent, ahead, hflow.changed (.put key value) htuned⟩, halive⟩
  | delete key =>
    have hact : (k.act (.delete key)).store = (k.store.delete key).2 := by
      simp only [Chronicle.act, MemoryStore.act]
      rcases k.store.delete key with ⟨_ | id, s⟩ <;> rfl
    have htuned := hflow.tuned.delete hsubscribed key
    rw [hflow.opened.1, ← List.filter_append] at htuned
    have hchanged := hflow.changed (.delete key) htuned
    rw [hact] at hchanged
    simp only [Watching.act, hflow.store_eq]
    exact ⟨⟨_, x, heard, st, sent, ahead, hchanged⟩, halive⟩
  | ask =>
    simp only [Watching.act]
    rcases hflow.ask with ⟨hpending, hsame⟩ | ⟨r, hreply, hflows⟩
    · rw [hpending, hsame]
      refine ⟨⟨k, x, heard, st, sent, ahead, ?_⟩, fun told htold => ?_⟩
      · have hreplies : (u.told ++ [Told.pending]).filterMap Told.reply? = u.told.filterMap Told.reply? := by
          simp [Told.reply?]
        rw [Watching.replies, hreplies]
        exact hflow
      · rcases List.mem_append.1 htold with htold | htold
        · exact halive told htold
        · exact Or.inl (List.mem_singleton.1 htold)
    · rw [hreply]
      refine ⟨?_, fun told htold => ?_⟩
      · have hreplies : (u.told ++ [Told.reply r]).filterMap Told.reply? = u.told.filterMap Told.reply? ++ [r] := by
          simp [Told.reply?]
        rw [Watching.replies, hreplies]
        exact hflows
      · rcases List.mem_append.1 htold with htold | htold
        · exact halive told htold
        · exact Or.inr ⟨r, List.mem_singleton.1 htold⟩

theorem Inv.of_reaches (h : Flows o c w [] []) (hu : Reaches o.make o.number c w u) :
    u.Inv o c ∧ World.AtRest o.make u.world := by
  induction hu with
  | start runs rest => exact ⟨⟨h.runs runs, fun _ htold => absurd htold List.not_mem_nil⟩, rest⟩
  | act _ a runs rest ih =>
    have hact := ih.1.act ih.2 a
    exact ⟨⟨hact.flows.runs runs, hact.alive⟩, rest⟩

theorem Inv.converges [LawfulBEq R] (h : u.Inv o c) (hrest : World.AtRest o.make u.world) :
    u.Converges o.reply o.key o.snapshot o.number c := by
  obtain ⟨⟨k, x, heard, st, sent, ahead, hflow⟩, halive⟩ := h
  obtain ⟨id, hid⟩ := hflow.subscribed hrest
  obtain ⟨hcompares, hsublist⟩ := hflow.compares hid
  have hbegins : u.replies <+: (heard.course o.make x.key o.cache).replies := by
    rw [hflow.account.replies]
    exact hflow.got_prefix.trans (List.prefix_append _ _)
  obtain ⟨vs, hvs, hreplies⟩ := hcompares.replies
  rw [hflow.opened.1] at hreplies
  refine ⟨⟨vs, hvs.trans (hsublist.filterMap _), ?_⟩, hcompares.stutterless.prefix hbegins, halive,
    fun hpending => ?_⟩
  · rw [← hreplies, ← hflow.opened.1]
    exact hbegins
  · have hcurrent := hflow.current hrest hpending
    rw [hflow.opened.1] at hcurrent
    exact ⟨k.store, hflow.store_eq, hcurrent⟩

end Watching

/-! ### Opening a watch -/

section Opening

variable [Inhabited V] [BEq R] {o : Opened V R} {w : World V R (ChangeCache R)}

/-- A watch that was just served on a store that holds its key is at work. -/
private theorem flows_serving {k : Chronicle V} (hstore : w.store = .memory k.store) (hsound : k.Sound o.capacity)
    (hnumber : o.number = w.sessions.length) (hget : k.store.get o.key = .ok o.snapshot)
    (hmaker : w.makers[o.maker]? = some o.cache)
    (hothers : ∀ y ∈ w.sessions, y.maker ≠ o.maker ∧ ∀ id ∈ y.phase.stream?, id < w.store.streams.length)
    (hwatchers : ∀ a ∈ w.watchers, a.session < w.sessions.length) (hspared : w.Spares w.sessions.length o.token)
    {replyBuffer : Nat} (hbuffer : 0 < replyBuffer) {tokens : Tokens}
    (htokens : ∀ t, tokens.isCancelled t = w.tokens.isCancelled t) :
    Flows o .reader
      { w with tokens, sessions := w.sessions ++ [Session.serving o.key o.token o.maker replyBuffer] } [] [] := by
  have hold : ∀ j y, (w.sessions ++ [Session.serving o.key o.token o.maker replyBuffer])[j]? = some y → j ≠ o.number →
      w.sessions[j]? = some y := by
    intro j y hy hj
    rw [List.getElem?_append] at hy
    split at hy
    · exact hy
    · have hlt := (List.getElem?_eq_some_iff.1 hy).1
      simp only [List.length_singleton] at hlt
      omega
  refine ⟨k, Session.serving o.key o.token o.maker replyBuffer, {}, o.cache, [], [], hstore, ?_, ⟨rfl, rfl, rfl⟩, rfl,
    hbuffer, rfl, hsound, hmaker, ⟨rfl, rfl, rfl, rfl⟩, .early rfl hget (fun _ ha => by simp at ha) rfl, ?_, ?_, ?_,
    rfl⟩
  · rw [hnumber, List.getElem?_concat_length]
  · refine ⟨(htokens _).trans hspared.1, fun j y hy hj => ?_⟩
    exact hspared.2 j y (hold j y hy hj) (hnumber ▸ hj)
  · intro j y hy hj
    obtain ⟨hne, hstreams⟩ := hothers y (List.mem_of_getElem? (hold j y hy hj))
    exact ⟨hne, fun id hid => ⟨hstreams id hid, fun hnone => by simp [Session.serving, Phase.stream?] at hnone⟩⟩
  · refine .reader fun l b hb => ?_
    rw [hnumber]
    exact Nat.ne_of_lt (hwatchers b (List.mem_of_getElem? hb))

/-- A watcher is attached to a session whose replies nobody has taken. -/
private theorem flows_attach {published : List (Event V)} {got : List R} (h : Flows o .reader w published got)
    {capacity : Nat} (hcapacity : capacity ≤ Queue.maxCapacity) {token : Token} (hspared : w.Spares o.number token) :
    ∃ l w', w.attach o.number capacity token = .ok (l, w') ∧ Flows o (.watcher l) w' published got := by
  obtain ⟨k, x, heard, st, sent, ahead, hflow⟩ := h
  have hmake : Watcher.make? (R := R) token capacity = some { token, queue := { capacity := max capacity 1 } } := by
    rw [Watcher.make?, Queue.make?_max hcapacity]
    rfl
  refine ⟨_, _, by rw [World.attach, hmake], k, x, heard, st, sent, [], ?_⟩
  cases hflow.serves with
  | reader free =>
    refine { hflow with
      serves := .watcher (a := { token, queue := { capacity := max capacity 1 } })
        ⟨?_, fun m b hb hsession => ?_, rfl, rfl,
          Nat.lt_of_lt_of_le Nat.one_pos (Nat.le_max_right capacity 1), hspared⟩ }
    · exact List.getElem?_concat_length
    · rw [List.getElem?_append] at hb
      split at hb
      · exact absurd hsession (free m b hb)
      · have hlt := (List.getElem?_eq_some_iff.1 hb).1
        simp only [List.length_singleton] at hlt
        omega

end Opening

/-- A watch served on a store that holds its key converges without stutter, read directly or through a watcher, which
may be attached at any time.  There may be other watches in the world, with endpoint states of their own; none of them
may cancel this one at its end. -/
theorem watch_converges [Inhabited V] [BEq R] [LawfulBEq R] (reply : String → V → R)
    (endpoint : Endpoint Q V R (ChangeCache R)) (hmake : endpoint.make = Endpoint.deduplicating reply)
    (eventBuffer replyBuffer : Nat) (hevents : eventBuffer ≤ Queue.maxCapacity)
    (hreplies : replyBuffer ≤ Queue.maxCapacity) (history : List (StoreAct V)) (w : World V R (ChangeCache R))
    (hstore : w.store = .memory ((Chronicle.opening eventBuffer).acts history).store) (maker : Nat)
    (hmaker : maker < w.makers.length)
    (hothers : ∀ y ∈ w.sessions, y.maker ≠ maker ∧ ∀ id ∈ y.phase.stream?, id < w.store.streams.length)
    (hwatchers : ∀ a ∈ w.watchers, a.session < w.sessions.length) (request : Q) (ctx : CallContext) (key : String)
    (hkey : endpoint.keyOf request ctx = .ok key) (snapshot : V) (hget : w.store.answer? key = some (.ok snapshot))
    (hspared : w.Spares w.sessions.length (w.newToken ctx.token).1) :
    ∃ i w₁, w.serve endpoint maker replyBuffer request ctx = .ok (.ok (i, w₁)) ∧
      (∀ w₂, ∃ w₃, World.Runs endpoint.make w₂ w₃ ∧ World.AtRest endpoint.make w₃) ∧
      (∀ u, Watching.Reaches endpoint.make i .reader w₁ u → u.Converges reply key snapshot i .reader) ∧
      ∀ w₂, World.Runs endpoint.make w₁ w₂ → ∀ capacity ≤ Queue.maxCapacity, ∀ token, w₂.Spares i token →
        ∃ l w₃, w₂.attach i capacity token = .ok (l, w₃) ∧
          ∀ u, Watching.Reaches endpoint.make i (.watcher l) w₃ u →
            u.Converges reply key snapshot i (.watcher l) := by
  let o : Opened V R :=
    { number := w.sessions.length
      key
      token := (w.newToken ctx.token).1
      maker
      reply
      cache := w.makers[maker]
      snapshot
      capacity := max eventBuffer 1
      capacity_ok := ⟨Nat.le_max_right eventBuffer 1, Nat.max_le.2 ⟨hevents, by decide⟩⟩ }
  have hopened : endpoint.make = o.make := hmake
  have hgot : ((Chronicle.opening eventBuffer).acts history).store.get key = .ok snapshot := by
    rw [hstore, Backend.answer?] at hget
    exact Option.some.inj hget
  have hflows := flows_serving (o := o) hstore ((Chronicle.Sound.opening eventBuffer).acts history) rfl hgot
    (List.getElem?_eq_getElem hmaker) hothers hwatchers hspared
    (Nat.lt_of_lt_of_le Nat.one_pos (Nat.le_max_right replyBuffer 1))
    (fun t => w.tokens.isCancelled_child ctx.token t)
  refine ⟨_, _, World.serve_ok hkey hreplies, World.exists_runs_atRest endpoint.make, fun u hu => ?_,
    fun w₂ hruns capacity hcapacity token hspared => ?_⟩
  · rw [hopened] at hu
    obtain ⟨hinv, hrest⟩ := Watching.Inv.of_reaches hflows hu
    exact hinv.converges hrest
  · rw [hopened] at hruns
    obtain ⟨l, w₃, hattach, hattached⟩ := flows_attach (hflows.runs hruns) hcapacity hspared
    refine ⟨l, w₃, hattach, fun u hu => ?_⟩
    rw [hopened] at hu
    obtain ⟨hinv, hrest⟩ := Watching.Inv.of_reaches hattached hu
    exact hinv.converges hrest

/-- Another session watches the key.  The values fill every place on the way to the consumer, so that ten and twelve
give way to the deletion behind them. -/
theorem watch_converges_on_deletion :
    let endpoint : Endpoint String Nat Nat (ChangeCache Nat) :=
      ⟨fun key _ => .ok key, Endpoint.deduplicating fun _ v => v / 2⟩
    let other : Session Nat :=
      { key := "k", token := [9], maker := 0, served := false, phase := .awaiting 0, replies := { capacity := 1 },
        monitored := false }
    let w : World Nat Nat (ChangeCache Nat) :=
      { store := .memory ((Chronicle.opening 0).acts [.put "k" 1, .watch "k" [9]]).store
        makers := [{}, {}]
        sessions := [other] }
    ∃ w₁ l w₃ u, w.serve endpoint 1 0 "k" { token := [7] } = .ok (.ok (1, w₁)) ∧
      w₁.attach 1 0 [8] = .ok (l, w₃) ∧ Watching.Reaches endpoint.make 1 (.watcher l) w₃ u ∧
      u.values "k" = [2, 3, 4, 6, 8, 10, 12, 0] ∧ u.replies = [0, 1, 2, 3, 4, 0] ∧
      (u.world.ask 1 (.watcher l)).1 = .pending ∧ u.Converges (fun _ v => v / 2) "k" 1 1 (.watcher l) := by
  intro endpoint other w
  have hothers : ∀ y ∈ w.sessions, y.maker ≠ 1 ∧ ∀ id ∈ y.phase.stream?, id < w.store.streams.length := by
    decide +kernel
  have hspared : w.Spares w.sessions.length (w.newToken [7]).1 := by
    refine ⟨by decide +kernel, fun j y hy _ => ?_⟩
    have hall : ∀ y ∈ w.sessions, y.token.isSuffixOf (w.newToken [7]).1 = false := by decide +kernel
    exact hall y (List.mem_of_getElem? hy)
  obtain ⟨i, w₁, hserve, -, -, hattach⟩ :=
    watch_converges (fun _ v => v / 2) endpoint rfl 0 0 (by decide) (by decide) [.put "k" 1, .watch "k" [9]] w rfl 1
      (by decide) hothers (fun a ha => absurd ha List.not_mem_nil) "k" { token := [7] } "k" rfl 1 (by decide +kernel)
      hspared
  let served : World Nat Nat (ChangeCache Nat) :=
    { w with
      tokens := { next := 1 }
      sessions := [other, Session.serving "k" [0, 7] 1 1] }
  have heq := hserve.symm.trans (show w.serve endpoint 1 0 "k" { token := [7] } = .ok (.ok (1, served)) from rfl)
  simp only [Except.ok.injEq, Prod.mk.injEq] at heq
  obtain ⟨rfl, rfl⟩ := heq
  have hbeside : served.Spares 1 [8] := by
    refine ⟨by decide +kernel, fun j y hy _ => ?_⟩
    have hall : ∀ y ∈ served.sessions, y.token.isSuffixOf [8] = false := by decide +kernel
    exact hall y (List.mem_of_getElem? hy)
  obtain ⟨l, w₃, hwatcher, hconverges⟩ := hattach served (.refl served) 0 (by decide) [8] hbeside
  let attached : World Nat Nat (ChangeCache Nat) :=
    { served with watchers := [{ session := 1, watcher := { token := [8], queue := { capacity := 1 } } }] }
  have heq := hwatcher.symm.trans (show served.attach 1 0 [8] = .ok (0, attached) from rfl)
  simp only [Except.ok.injEq, Prod.mk.injEq] at heq
  obtain ⟨rfl, rfl⟩ := heq
  let acts : List (RestAct Nat) :=
    [.put "k" 2, .put "k" 3, .put "k" 4, .put "k" 6, .put "j" 100, .put "k" 8, .put "k" 10, .put "k" 12, .delete "k",
      .ask, .ask, .ask, .ask, .ask, .ask, .ask]
  have hsettled : (Watching.settled? endpoint.make 1 (.watcher 0) { world := attached } acts).map
      (fun u => (u.values "k", u.replies, (u.world.ask 1 (.watcher 0)).1)) =
        some ([2, 3, 4, 6, 8, 10, 12, 0], [0, 1, 2, 3, 4, 0], .pending) := by
    decide +kernel
  obtain ⟨u, hu, hfacts⟩ := Option.map_eq_some_iff.1 hsettled
  simp only [Prod.mk.injEq] at hfacts
  obtain ⟨hvalues, hreplies, hpending⟩ := hfacts
  have hreaches : Watching.Reaches endpoint.make 1 (.watcher 0) attached u := .of_settled? hu fun _ => .start
  exact ⟨served, 0, attached, u, hserve, hwatcher, hreaches, hvalues, hreplies, hpending, hconverges u hreaches⟩

end ResourceWatch

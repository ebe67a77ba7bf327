import ResourceWatch.Proofs.Watch.Script

/-!
# Sessions on a scripted store

A rehearsal is a session at work on a scripted store: between the steps of the session events are sent or ended, the
gate of the store is shut or opened, the consumer receives, and tokens are cancelled, in any order.

The session plays the script and keeps the account of what it has heard (`Rehearsal.Inv`).  Hence one that is not
cancelled ends as the reference says, behind all of its replies, and one that is cancelled has sent the first of them
(`session_follows_course`).
-/

namespace ResourceWatch

variable {Q V R σ : Type}

/-- What happens while a session is rehearsed. -/
inductive Cue (V : Type) where
  | advance
  | abandon
  | receive
  | cancel (token : Token)
  | emit (e : Event V)
  | endEvents
  | gate (shut : Bool)

structure Rehearsal (V R σ : Type) where
  world : World V R σ
  script : Heard V
  received : List (Item R) := []
  /-- The token of the session has been cancelled, and not by its own end. -/
  cancelled : Bool

namespace Rehearsal

/-- Sends an event, which is part of the script if it was not refused. -/
def emit (u : Rehearsal V R σ) (e : Event V) : Rehearsal V R σ :=
  match u.world.store with
  | .memory _ => u
  | .scripted s =>
    let u := { u with world := { u.world with store := .scripted (s.emit e).2 } }
    match (s.emit e).1 with
    | .sent => { u with script := { u.script with events := u.script.events ++ [e] } }
    | _ => u

def endEvents (u : Rehearsal V R σ) : Rehearsal V R σ :=
  match u.world.store with
  | .memory _ => u
  | .scripted s =>
    { u with
      world := { u.world with store := .scripted s.endEvents.2 }
      script := { u.script with ended := u.script.ended || s.endEvents.1 } }

def gate (u : Rehearsal V R σ) (shut : Bool) : Rehearsal V R σ :=
  match u.world.store with
  | .memory _ => u
  | .scripted s => { u with world := { u.world with store := .scripted { s with gateShut := shut } } }

def receive (i : Nat) (u : Rehearsal V R σ) : Rehearsal V R σ :=
  match u.world.receiveReply i with
  | (.item item, w) => { u with world := w, received := u.received ++ [item] }
  | (_, w) => { u with world := w }

def cancel (i : Nat) (u : Rehearsal V R σ) (token : Token) : Rehearsal V R σ :=
  { u with
    world := u.world.cancel token
    cancelled := u.cancelled || u.world.sessions[i]?.any fun x => token.isSuffixOf x.token }

/-- What happens to the rehearsal of session `i`; a session that has to wait leaves it as it is. -/
def act (make : Maker V R σ) (i : Nat) (u : Rehearsal V R σ) : Cue V → Rehearsal V R σ
  | .advance => { u with world := (u.world.turn? make (.advance i)).getD u.world }
  | .abandon => { u with world := (u.world.turn? make (.abandon i)).getD u.world }
  | .receive => u.receive i
  | .cancel token => u.cancel i token
  | .emit e => u.emit e
  | .endEvents => u.endEvents
  | .gate shut => u.gate shut

def acts (make : Maker V R σ) (i : Nat) (u : Rehearsal V R σ) (cues : List (Cue V)) : Rehearsal V R σ :=
  cues.foldl (act make i) u

end Rehearsal

/-! ### The invariant -/

namespace Rehearsal

variable {make : Maker V R σ} {st₀ : σ} {i : Nat} {x₀ : Session R} {u : Rehearsal V R σ} {s : ScriptedStore V}
  {x : Session R} {heard : Heard V} {sent : List R}

/-- The session stands where the course of what it has heard ends, or it was cancelled on the way. -/
inductive Standing (make : Maker V R σ) (st₀ : σ) (u : Rehearsal V R σ) (x : Session R) (heard : Heard V)
    (sent : List R) : Prop where
  | keeps {st : σ} (maker : u.world.makers[x.maker]? = some st) (account : x.Accounts make st₀ heard st sent)
  | calledOff (finished : x.phase = .finished .done) (cancelled : u.cancelled = true)
    (sent : sent <+: (heard.course make x.key st₀).replies)

/-- The session `x`, number `i`, which was opened as `x₀`, plays the script on the store `s`, and has sent these
replies. -/
structure Inv (make : Maker V R σ) (st₀ : σ) (i : Nat) (x₀ : Session R) (u : Rehearsal V R σ) (s : ScriptedStore V)
    (x : Session R) (heard : Heard V) (sent : List R) : Prop where
  store_eq : u.world.store = .scripted s
  session_eq : u.world.sessions[i]? = some x
  opened : x.key = x₀.key ∧ x.maker = x₀.maker
  unserved : x.served = false
  held : x.replies.receiving = true
  capacity : ∀ capacity, s.onWatch = .ok capacity → 0 < capacity ∧ capacity ≤ Queue.maxCapacity
  plays : s.Plays u.script heard x.key x.phase
  granted : heard.granted.isSome = true → (heard.course make x.key st₀).replies ≠ []
  total : u.received ++ x.replies.items = x₀.replies.items ++ sent.map .ok
  started : x.phase.isAtWork = true ∨ ∃ o, x.phase = .finished o
  alive : u.cancelled = false → x.phase.isAtWork = true → u.world.tokens.isCancelled x.token = false
  told : u.cancelled = true → u.world.tokens.isCancelled x.token = true
  standing : Standing make st₀ u x heard sent

private theorem afterEnd_of_unserved (h : x.served = false) (o : Outcome) : x.afterEnd o = .finished o := by
  rcases x.afterEnd_eq o with heq | ⟨hserved, -⟩
  · exact heq
  · simp [h] at hserved

private theorem ne_nil_of_prefix {α : Type} {xs ys : List α} (h : xs ≠ []) (hbegins : xs <+: ys) : ys ≠ [] := by
  rintro rfl
  exact h (List.prefix_nil.1 hbegins)

/-- On a store that can make its event queue a session goes on working or ends. -/
private theorem ended_or_working (h : Inv make st₀ i x₀ u s x heard sent) {w' : World V R σ}
    (hadvances : World.Advances make u.world i x w') (hworking : x.phase.isAtWork = true) {x' : Session R}
    (hsession : w'.sessions[i]? = some x') :
    (x'.phase.isAtWork = true ∧ w'.tokens = u.world.tokens) ∨ ∃ o, x'.phase = .finished o := by
  have hi : i < u.world.sessions.length := (List.getElem?_eq_some_iff.1 h.session_eq).1
  obtain ⟨y, hsessions, hcases⟩ := hadvances.phase_cases hworking
  obtain rfl : y = x' := by
    rw [hsessions, List.getElem?_set_self hi] at hsession
    exact Option.some.inj hsession
  rcases hcases with hgoes | ⟨o, rfl⟩ | ⟨hp, hcrash⟩
  · exact Or.inl hgoes
  · exact Or.inr ⟨o, afterEnd_of_unserved h.unserved o⟩
  · rw [h.store_eq] at hcrash
    obtain ⟨-, ⟨f, -, hf⟩ | ⟨capacity, -, hok⟩⟩ := h.plays.watch_cases hp h.capacity x.token
    · simp [hf] at hcrash
    · simp [hok] at hcrash

theorem Inv.advance (h : Inv make st₀ i x₀ u s x heard sent) :
    ∃ s' x' heard' sent', Inv make st₀ i x₀ (u.act make i .advance) s' x' heard' sent' := by
  have hi : i < u.world.sessions.length := (List.getElem?_eq_some_iff.1 h.session_eq).1
  simp only [act, World.turn?_advance h.session_eq]
  cases hw : World.advance? make u.world i x with
  | none => exact ⟨s, x, heard, sent, h⟩
  | some w' =>
    rcases h.started with hworking | ⟨o, hfinished⟩
    · have hadvances := World.advances_of_advance? hw
      cases h.standing with
      | calledOff hover => simp [hover, Phase.isAtWork] at hworking
      | @keeps st hm haccount =>
        obtain ⟨p, new, st', hsessions, hm', haccount'⟩ := hadvances.accounts hworking h.held hm haccount
        have hsession : w'.sessions[i]? = some (x.goOn p new) := by rw [hsessions, List.getElem?_set_self hi]
        obtain ⟨s', hstore, honWatch, hplays⟩ :=
          hadvances.plays hworking h.held h.store_eq h.capacity h.plays h.session_eq hsession
        have hbegins := (Heard.course_prefix (World.before_hear u.world haccount.hasHeard) make x.key st₀).1
        have hended := ended_or_working h hadvances hworking hsession
        refine ⟨s', x.goOn p new, _, _, hstore, hsession, h.opened, h.unserved, h.held, ?_, hplays,
          fun hgranted => ?_, ?_, ?_, fun hcancelled hworking' => ?_, fun hcancelled => ?_, .keeps hm' haccount'⟩
        · rw [honWatch]
          exact h.capacity
        · -- a stream is granted behind the snapshot's reply only
          by_cases hp : x.phase = .subscribing
          · obtain ⟨hheard, -, -, houtcome⟩ := haccount
            rw [hp] at hheard houtcome
            obtain ⟨v, rfl⟩ := hheard
            exact ne_nil_of_prefix (Heard.replies_ne_nil_of_answer houtcome) hbegins
          · rw [World.granted_hear u.world hp] at hgranted
            exact ne_nil_of_prefix (h.granted hgranted) hbegins
        · simp only [Session.goOn, List.map_append, ← List.append_assoc, h.total]
        · rcases hended with ⟨hworking', -⟩ | hfinished
          · exact Or.inl hworking'
          · exact Or.inr hfinished
        · rcases hended with ⟨-, htokens⟩ | ⟨o, hfinished⟩
          · rw [Option.getD_some, htokens]
            exact h.alive hcancelled hworking
          · simp [hfinished, Phase.isAtWork] at hworking'
        · obtain ⟨_, hproceeds, -, -⟩ := hadvances.proceeds
          exact hproceeds.isCancelled (h.told hcancelled)
    · simp [World.advance?, hfinished] at hw

theorem Inv.abandon (h : Inv make st₀ i x₀ u s x heard sent) :
    ∃ s' x' heard' sent', Inv make st₀ i x₀ (u.act make i .abandon) s' x' heard' sent' := by
  have hi : i < u.world.sessions.length := (List.getElem?_eq_some_iff.1 h.session_eq).1
  simp only [act, World.turn?_abandon h.session_eq]
  unfold World.abandon?
  split
  · rename_i hc
    rw [Bool.and_eq_true] at hc
    have hworking : x.phase.isAtWork = true := World.isAtWork_of_isAbandonable hc.1
    have hcancelled : u.cancelled = true := by
      cases hcancelled : u.cancelled with
      | true => rfl
      | false => simp [h.alive hcancelled hworking] at hc
    have hsent : sent <+: (heard.course make x.key st₀).replies := by
      cases h.standing with
      | calledOff _ _ hsent => exact hsent
      | keeps _ haccount => exact ⟨_, haccount.replies.symm⟩
    obtain ⟨s', hstore, honWatch, hplays⟩ :=
      World.plays_endSession h.store_eq (h.plays.over (x.isAtWork_afterEnd .done)) i
    refine ⟨s', { x with phase := .finished .done }, heard, sent, hstore, ?_, h.opened, h.unserved, h.held, ?_,
      hplays, h.granted, h.total, Or.inr ⟨.done, rfl⟩, fun hcancelled' => ?_, fun _ => ?_,
      .calledOff rfl hcancelled hsent⟩
    · simp [World.endSession, World.setSession, hi, Session.afterEnd]
    · rw [honWatch]
      exact h.capacity
    · simp [hcancelled] at hcancelled'
    · simp [World.endSession, World.setSession]
  · exact ⟨s, x, heard, sent, h⟩

theorem Inv.receive (h : Inv make st₀ i x₀ u s x heard sent) :
    ∃ x', Inv make st₀ i x₀ (u.act make i .receive) s x' heard sent := by
  have hi : i < u.world.sessions.length := (List.getElem?_eq_some_iff.1 h.session_eq).1
  simp only [act, Rehearsal.receive]
  rcases World.receiveReply_cases h.session_eq with ⟨item, rest, hitems, heq⟩ | ⟨hitems, heq⟩
  · rw [heq]
    refine ⟨{ x with replies := { x.replies with items := rest } }, h.store_eq, ?_, h.opened, h.unserved, h.held,
      h.capacity, h.plays, h.granted, ?_, h.started, h.alive, h.told, ?_⟩
    · simp [World.setSession, hi]
    · simpa [hitems] using h.total
    · cases h.standing with
      | keeps hm haccount => exact .keeps hm ⟨haccount.hasHeard, haccount.state, haccount.replies, haccount.outcome⟩
      | calledOff hover hcancelled hsent => exact .calledOff hover hcancelled hsent
  · rw [heq]
    cases x.isOpen <;> exact ⟨x, h⟩

theorem Inv.cancel (h : Inv make st₀ i x₀ u s x heard sent) (token : Token) :
    Inv make st₀ i x₀ (u.act make i (.cancel token)) s x heard sent := by
  have hcancelled : (u.cancel i token).cancelled = (u.cancelled || token.isSuffixOf x.token) := by
    rw [Rehearsal.cancel, h.session_eq]
    rfl
  have htoken : (u.world.cancel token).tokens.isCancelled x.token =
      (token.isSuffixOf x.token || u.world.tokens.isCancelled x.token) := Tokens.isCancelled_cancel _ _ _
  refine ⟨h.store_eq, h.session_eq, h.opened, h.unserved, h.held, h.capacity, h.plays, h.granted, h.total, h.started,
    fun hfalse hworking => ?_, fun htrue => ?_, ?_⟩
  · have hfalse : u.cancelled = false ∧ token.isSuffixOf x.token = false := by
      simpa [act, hcancelled] using hfalse
    have halive := h.alive hfalse.1 hworking
    simpa [act, Rehearsal.cancel, htoken, hfalse.2] using halive
  · have htrue : u.cancelled = true ∨ token.isSuffixOf x.token = true := by
      simpa [act, hcancelled] using htrue
    rcases htrue with htrue | htrue
    · simp [act, Rehearsal.cancel, htoken, h.told htrue]
    · simp [act, Rehearsal.cancel, htoken, htrue]
  · cases h.standing with
    | keeps hm haccount => exact .keeps hm haccount
    | calledOff hover htrue hsent => exact .calledOff hover (by simp [act, hcancelled, htrue]) hsent

/-- A change of the store and the script, as long as the store goes on telling the script. -/
private theorem Inv.tell (h : Inv make st₀ i x₀ u s x heard sent) {s' : ScriptedStore V} {script' : Heard V}
    (honWatch : s'.onWatch = s.onWatch) (hplays : s'.Plays script' heard x.key x.phase) :
    Inv make st₀ i x₀ { u with world := { u.world with store := .scripted s' }, script := script' } s' x heard
      sent := by
  refine ⟨rfl, h.session_eq, h.opened, h.unserved, h.held, honWatch ▸ h.capacity, hplays, h.granted, h.total,
    h.started, h.alive, h.told, ?_⟩
  cases h.standing with
  | keeps hm haccount => exact .keeps hm haccount
  | calledOff hover hcancelled hsent => exact .calledOff hover hcancelled hsent

theorem Inv.emit (h : Inv make st₀ i x₀ u s x heard sent) (e : Event V) :
    ∃ s', Inv make st₀ i x₀ (u.act make i (.emit e)) s' x heard sent := by
  simp only [act, Rehearsal.emit, h.store_eq]
  rcases s.emit_cases e with ⟨id, st, hfeeding, hst, heq⟩ | ⟨hrefused, heq⟩
  · rw [heq]
    exact ⟨_, h.tell rfl (h.plays.emit hfeeding hst)⟩
  · rw [heq]
    refine ⟨s, ?_⟩
    split
    · rename_i hsent
      exact absurd hsent hrefused
    · exact h.tell rfl h.plays

theorem Inv.endEvents (h : Inv make st₀ i x₀ u s x heard sent) :
    ∃ s', Inv make st₀ i x₀ (u.act make i .endEvents) s' x heard sent := by
  simp only [act, Rehearsal.endEvents, h.store_eq]
  have honWatch : s.endEvents.2.onWatch = s.onWatch := by
    unfold ScriptedStore.endEvents
    cases s.feeding <;> rfl
  exact ⟨_, h.tell honWatch h.plays.endEvents⟩

theorem Inv.gate (h : Inv make st₀ i x₀ u s x heard sent) (shut : Bool) :
    ∃ s', Inv make st₀ i x₀ (u.act make i (.gate shut)) s' x heard sent := by
  simp only [act, Rehearsal.gate, h.store_eq]
  exact ⟨_, h.tell rfl (h.plays.gate shut)⟩

theorem Inv.act (h : Inv make st₀ i x₀ u s x heard sent) (cue : Cue V) :
    ∃ s' x' heard' sent', Inv make st₀ i x₀ (u.act make i cue) s' x' heard' sent' := by
  cases cue with
  | advance => exact h.advance
  | abandon => exact h.abandon
  | receive =>
    obtain ⟨x', h'⟩ := h.receive
    exact ⟨s, x', heard, sent, h'⟩
  | cancel token => exact ⟨s, x, heard, sent, h.cancel token⟩
  | emit e =>
    obtain ⟨s', h'⟩ := h.emit e
    exact ⟨s', x, heard, sent, h'⟩
  | endEvents =>
    obtain ⟨s', h'⟩ := h.endEvents
    exact ⟨s', x, heard, sent, h'⟩
  | gate shut =>
    obtain ⟨s', h'⟩ := h.gate shut
    exact ⟨s', x, heard, sent, h'⟩

theorem Inv.acts (h : Inv make st₀ i x₀ u s x heard sent) (cues : List (Cue V)) :
    ∃ s' x' heard' sent', Inv make st₀ i x₀ (u.acts make i cues) s' x' heard' sent' := by
  induction cues generalizing u s x heard sent with
  | nil => exact ⟨s, x, heard, sent, h⟩
  | cons cue cues ih =>
    obtain ⟨s', x', heard', sent', h'⟩ := h.act cue
    exact ih h'

/-- A session that waits for an event has heard all of the script. -/
private theorem Inv.script_eq_of_quiet (h : Inv make st₀ i x₀ u s x heard sent) (hheard : x.phase.HasHeard heard)
    {id : Nat} (hp : x.phase = .awaiting id) (hgot : (u.world.store.receive id).1 = .pending) : u.script = heard := by
  have hstands := h.plays.stands
  rw [hp] at hstands hheard
  obtain ⟨-, st, hfeeds⟩ := hstands
  obtain ⟨v, es, rfl⟩ := hheard
  rw [h.store_eq] at hgot
  obtain ⟨-, ⟨e, -, he⟩ | ⟨hitems, hnone⟩⟩ := hfeeds.receive_cases
  · simp [he] at hgot
  · have hopen : u.script.ended = false := by
      cases hended : u.script.ended with
      | false => rfl
      | true => simp [hnone, hended] at hgot
    have hevents : u.script.events = es := by simpa [hitems] using hfeeds.events
    exact h.plays.before.eq (by simp) (by simp) hevents hopen

/-- A session that has ended, or waits though the store answers and there is room, has heard all that counts. -/
private theorem Inv.heard_all (h : Inv make st₀ i x₀ u s x heard sent) {st : σ}
    (hm : u.world.makers[x.maker]? = some st) (haccount : x.Accounts make st₀ heard st sent)
    (hrest : x.phase.outcome?.isSome = true ∨
      u.world.turn? make (.advance i) = none ∧ x.replies.hasRoom = true ∧ s.gateShut = false) :
    u.script.course make x.key st₀ = heard.course make x.key st₀ ∧ x.phase.unsent = [] := by
  rcases h.started with hworking | ⟨o, hp⟩
  · rcases hrest with hsome | ⟨hturn, hroom, hgate⟩
    · simp [Phase.outcome?_of_isAtWork hworking] at hsome
    · rw [World.turn?_advance h.session_eq] at hturn
      cases World.waits_of_advance?_eq_none hm hturn with
      | unread _ hanswer => simp [h.store_eq, Backend.answer?, hgate] at hanswer
      | full _ hfull => simp [hroom] at hfull
      | quiet hp hgot =>
        rw [h.script_eq_of_quiet haccount.hasHeard hp hgot]
        exact ⟨rfl, by rw [hp]; rfl⟩
      | fullReport hp => simp [hp, Phase.isAtWork] at hworking
      | idle hp => simp [hp, Phase.isAtWork] at hworking
      | finished hp => simp [hp, Phase.isAtWork] at hworking
      | crashed hp => simp [hp, Phase.isAtWork] at hworking
  · have hover : (heard.course make x.key st₀).outcome.isSome = true := by
      rw [haccount.outcome, hp]
      rfl
    exact ⟨(Heard.course_prefix h.plays.before make x.key st₀).2 hover, by rw [hp]; rfl⟩

/-- Such a session has done all that the reference says. -/
theorem Inv.settled (h : Inv make st₀ i x₀ u s x heard sent) {st : σ} (hm : u.world.makers[x.maker]? = some st)
    (haccount : x.Accounts make st₀ heard st sent)
    (hrest : x.phase.outcome?.isSome = true ∨
      u.world.turn? make (.advance i) = none ∧ x.replies.hasRoom = true ∧ s.gateShut = false) :
    x.phase.outcome? = (u.script.course make x.key st₀).outcome ∧ sent = (u.script.course make x.key st₀).replies ∧
      u.world.makers[x.maker]? = some (u.script.course make x.key st₀).state := by
  obtain ⟨hcourse, hunsent⟩ := h.heard_all hm haccount hrest
  obtain ⟨-, hstate, hreplies, houtcome⟩ := haccount
  rw [hunsent, List.append_nil] at hreplies
  rw [hcourse]
  exact ⟨houtcome.symm, hreplies.symm, by rw [hm, hstate]⟩

/-- A cancelled session goes on as long as it has not ended. -/
theorem Inv.ended_of_cancelled (h : Inv make st₀ i x₀ u s x heard sent) (hcancelled : u.cancelled = true)
    (hadvance : u.world.turn? make (.advance i) = none) (habandon : u.world.turn? make (.abandon i) = none) :
    x.phase.outcome?.isSome = true := by
  cases h.standing with
  | calledOff hover => rw [hover]; rfl
  | keeps hm haccount =>
    -- wherever a session at work has to wait, it can be abandoned
    have hnot : x.phase.isAbandonable = false := by
      cases habandonable : x.phase.isAbandonable with
      | false => rfl
      | true =>
        rw [World.turn?_abandon h.session_eq] at habandon
        simp [World.abandon?, habandonable, h.told hcancelled] at habandon
    rw [World.turn?_advance h.session_eq] at hadvance
    rcases h.started with hworking | ⟨o, hp⟩
    · cases World.waits_of_advance?_eq_none hm hadvance with
      | unread hp => simp [hp, Phase.isAbandonable] at hnot
      | full hp =>
        cases hphase : x.phase <;> simp [hphase, Phase.sends?] at hp <;> simp [hphase, Phase.isAbandonable] at hnot
      | quiet hp => simp [hp, Phase.isAbandonable] at hnot
      | fullReport hp => simp [hp, Phase.isAtWork] at hworking
      | idle hp => simp [hp, Phase.isAtWork] at hworking
      | finished hp => simp [hp, Phase.isAtWork] at hworking
      | crashed hp => simp [hp, Phase.isAtWork] at hworking
    · rw [hp]
      rfl

end Rehearsal

/-- A session that was just opened. -/
def Session.opened (key : String) (token : Token) (maker : Nat) (replies : Queue (Item R)) : Session R :=
  { key, token, maker, served := false, phase := .idle, replies, monitored := false }

theorem World.openSession_ok {endpoint : Endpoint Q V R σ} {w : World V R σ} {request : Q} {ctx : CallContext}
    {key : String} (hkey : endpoint.keyOf request ctx = .ok key) (maker : Nat) (replies : Queue (Item R)) :
    w.openSession endpoint maker request ctx replies =
      .ok (w.sessions.length, { (w.newToken ctx.token).2 with
        sessions := w.sessions ++ [Session.opened key (w.newToken ctx.token).1 maker replies] }) := by
  unfold World.openSession
  rw [hkey]
  rfl

/-- A watch session does as the reference says, whatever the store tells it and at any pace of its consumer.  The
replies that it has sent are the first of the reference.  If it is not cancelled, it ends as the reference ends and
behind all of its replies, and where it waits for the next event it has sent all of them, with its endpoint in the
state of the reference.  If it is cancelled, it ends without a failure, unless it has ended before. -/
theorem session_follows_course (endpoint : Endpoint Q V R σ) (w : World V R σ) (onGet : Except StoreFailure V)
    (onWatch : Except StoreFailure Nat) (gateShut : Bool) (hstore : w.store = .scripted { onGet, onWatch, gateShut })
    (hcapacity : ∀ capacity, onWatch = .ok capacity → 0 < capacity ∧ capacity ≤ Queue.maxCapacity) (maker : Nat)
    (st : σ) (hmaker : w.makers[maker]? = some st) (request : Q) (ctx : CallContext) (key : String)
    (hkey : endpoint.keyOf request ctx = .ok key) (replies : Queue (Item R)) (hheld : replies.receiving = true) :
    ∃ i w', w.openSession endpoint maker request ctx replies = .ok (i, w') ∧ ∀ cues : List (Cue V),
      let start : Rehearsal V R σ :=
        { world := w'.startSession i
          script := { answer := some onGet, granted := some (onWatch.map fun _ => ()) }
          cancelled := w.tokens.isCancelled (w.newToken ctx.token).1 }
      let u := start.acts endpoint.make i cues
      let reference := u.script.course endpoint.make key st
      ∃ x s sent, u.world.sessions[i]? = some x ∧ u.world.store = .scripted s ∧
        u.received ++ x.replies.items = replies.items ++ sent.map .ok ∧ sent <+: reference.replies ∧
        (reference.replies = [] → s.calls <+: [.get key] ∧ s.streams = []) ∧
        (u.cancelled = false →
          x.phase.outcome?.isSome = true ∨
            u.world.turn? endpoint.make (.advance i) = none ∧ x.replies.hasRoom = true ∧ s.gateShut = false →
          x.phase.outcome? = reference.outcome ∧ sent = reference.replies ∧
            u.world.makers[maker]? = some reference.state) ∧
        (u.cancelled = true →
          (x.phase.outcome?.isSome = true →
            x.phase.outcome? = some .done ∨ x.phase.outcome? = reference.outcome ∧ sent = reference.replies) ∧
          (u.world.turn? endpoint.make (.advance i) = none → u.world.turn? endpoint.make (.abandon i) = none →
            x.phase.outcome?.isSome = true)) := by
  refine ⟨_, _, World.openSession_ok hkey maker replies, fun cues => ?_⟩
  intro start u reference
  let x₀ := Session.opened key (w.newToken ctx.token).1 maker replies
  have hstart : start.Inv endpoint.make st w.sessions.length x₀ { onGet, onWatch, gateShut }
      { x₀ with phase := .starting } {} [] := by
    refine ⟨hstore, ?_, ⟨rfl, rfl⟩, rfl, hheld, hcapacity, ?_, fun hgranted => by simp at hgranted, ?_, Or.inl rfl,
      fun hcancelled _ => ?_, fun hcancelled => ?_, .keeps hmaker ⟨rfl, rfl, rfl, rfl⟩⟩
    · simp [start, World.startSession, World.modifySession, modify_concat, x₀]
    · exact ⟨rfl, rfl, ⟨Or.inl rfl, Or.inl rfl, List.nil_prefix, fun hended => by simp at hended⟩,
        fun hended => by simp [start] at hended, List.nil_prefix, fun _ => ⟨List.nil_prefix, rfl⟩,
        rfl, rfl, rfl, rfl, rfl⟩
    · simp [start, x₀, Session.opened]
    · exact (Tokens.isCancelled_child w.tokens ctx.token _).trans hcancelled
    · exact (Tokens.isCancelled_child w.tokens ctx.token _).trans hcancelled
  obtain ⟨s, x, heard, sent, h⟩ := hstart.acts cues
  obtain ⟨rfl, rfl⟩ : x.key = key ∧ x.maker = maker := h.opened
  have hbegins := (Heard.course_prefix h.plays.before endpoint.make x.key st).1
  have hsent : sent <+: (heard.course endpoint.make x.key st).replies := by
    cases h.standing with
    | keeps _ haccount => exact ⟨_, haccount.replies.symm⟩
    | calledOff _ _ hsent => exact hsent
  refine ⟨x, s, sent, h.session_eq, h.store_eq, h.total, hsent.trans hbegins, fun hnone => ?_,
    fun hcancelled hrest => ?_, fun hcancelled => ⟨fun hover => ?_, h.ended_of_cancelled hcancelled⟩⟩
  · have hunsubscribed : heard.granted = none := by
      cases hgranted : heard.granted with
      | none => rfl
      | some granted =>
        have hsome := h.granted (by rw [hgranted]; rfl)
        exact absurd hnone (Rehearsal.ne_nil_of_prefix hsome hbegins)
    exact h.plays.unsubscribed hunsubscribed
  · cases h.standing with
    | keeps hm haccount => exact h.settled hm haccount hrest
    | calledOff _ htrue => exact absurd (hcancelled.symm.trans htrue) (by simp)
  · cases h.standing with
    | keeps hm haccount =>
      obtain ⟨houtcome, hall, -⟩ := h.settled hm haccount (Or.inl hover)
      exact Or.inr ⟨houtcome, hall⟩
    | calledOff hfinished => exact Or.inl (by rw [hfinished]; rfl)

/-- An endpoint that counts its calls takes even values for changes and refuses nine; the queue has room for one
reply. -/
theorem session_follows_course_to_refusal :
    let refusal : Status := ⟨.invalidArgument, "nine"⟩
    let endpoint : Endpoint String Nat Nat Nat :=
      ⟨fun key _ => .ok key, fun n _ v => (n + 1, if v = 9 then .error refusal else .ok (v + n, v % 2 == 0))⟩
    let w : World Nat Nat Nat := { store := .scripted { onGet := .ok 1, onWatch := .ok 4 }, makers := [0] }
    ∃ i w', w.openSession endpoint 0 "k" { token := [] } { capacity := 1 } = .ok (i, w') ∧
      let start : Rehearsal Nat Nat Nat :=
        { world := w'.startSession i, script := { answer := some (.ok 1), granted := some (.ok ()) },
          cancelled := false }
      let u := start.acts endpoint.make i
        [.advance, .advance, .advance, .advance, .emit ⟨1, "k", .put 2⟩, .emit ⟨2, "k", .put 3⟩,
          .emit ⟨3, "k", .put 9⟩, .emit ⟨4, "k", .put 4⟩, .advance, .advance, .receive, .advance, .advance, .advance]
      ∃ x, u.world.sessions[i]? = some x ∧ x.phase.outcome? = some (.failed (.transform refusal)) ∧
        u.received ++ x.replies.items = [.ok 1, .ok 3] ∧ u.world.makers[0]? = some 4 := by
  intro refusal endpoint w
  obtain ⟨i, w', hopen, h⟩ := session_follows_course endpoint w (.ok 1) (.ok 4) false rfl
    (fun capacity hcapacity => by cases hcapacity; decide) 0 0 rfl "k" { token := [] } "k" rfl { capacity := 1 } rfl
  have hopened : w.openSession endpoint 0 "k" { token := [] } { capacity := 1 } =
      .ok (0, { w with tokens := { next := 1 }, sessions := [Session.opened "k" [0] 0 { capacity := 1 }] }) := rfl
  have heq := hopen.symm.trans hopened
  simp only [Except.ok.injEq, Prod.mk.injEq] at heq
  obtain ⟨rfl, rfl⟩ := heq
  refine ⟨_, _, hopen, ?_⟩
  have hmain := h
    [.advance, .advance, .advance, .advance, .emit ⟨1, "k", .put 2⟩, .emit ⟨2, "k", .put 3⟩, .emit ⟨3, "k", .put 9⟩,
      .emit ⟨4, "k", .put 4⟩, .advance, .advance, .receive, .advance, .advance, .advance]
  dsimp only at hmain ⊢
  have hfresh : w.tokens.isCancelled (w.newToken []).1 = false := rfl
  have hgranted : (Except.ok 4 : Except StoreFailure Nat).map (fun _ => ()) = .ok () := rfl
  rw [hfresh, hgranted] at hmain
  generalize hu : (Rehearsal.acts _ _ _ _ : Rehearsal Nat Nat Nat) = u at hmain ⊢
  obtain ⟨x, s, sent, hx, -, htotal, -, -, hall, -⟩ := hmain
  have hcancelled : u.cancelled = false := by
    rw [← hu]
    decide +kernel
  have houtcome : (u.world.sessions[0]?.bind (·.phase.outcome?)).isSome = true := by
    rw [← hu]
    decide +kernel
  have hreference : (u.script.course endpoint.make "k" 0).outcome = some (.failed (.transform refusal)) ∧
      (u.script.course endpoint.make "k" 0).replies = [1, 3] ∧ (u.script.course endpoint.make "k" 0).state = 4 := by
    rw [← hu]
    decide +kernel
  rw [hx, Option.bind_some] at houtcome
  obtain ⟨hend, hsent, hstate⟩ := hall hcancelled (Or.inl houtcome)
  exact ⟨x, hx, hend.trans hreference.1, by rw [htotal, hsent, hreference.2.1]; rfl, by rw [hstate, hreference.2.2]⟩

end ResourceWatch

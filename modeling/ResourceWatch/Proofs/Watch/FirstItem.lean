import ResourceWatch.Proofs.Watch.Serving

/-!
# The first item of a watch

A call that gets a value and a watch begin alike: both find the key, read the store, and make a reply of what it
answers.  The watch does so in a session of its own, one step after the other, and a failure of that session comes as
the last item of the stream.  As long as the stream has carried nothing, the session is some steps away from its first
item (`Session.Opening`), and that item is what the call returns (`get_agrees_with_watch`).  Nothing is said of a
store that answers the session otherwise than the call, nor of a watch that is cancelled before its first item
(`Reading.Undisturbed`).
-/

namespace ResourceWatch

variable {Q V R σ : Type}

/-! ### The reply to a read -/

/-- Replies depend on key and value alone.  Whether they are changes may depend on anything. -/
def Maker.Replies (make : Maker V R σ) (reply : String → V → Except Status R) : Prop :=
  ∀ st key v, (make st key v).2.map (·.1) = reply key v

/-- What is made of the store's answer to a read, none while the answer has to be waited for. -/
def Backend.snapshot? (b : Backend V) (reply : String → V → Except Status R) (key : String) : Option (Item R) :=
  (b.answer? key).map fun
    | .error f => .error f.status
    | .ok v => reply key v

theorem Backend.snapshot?_of_value {b : Backend V} {reply : String → V → Except Status R} {key : String} {v : V}
    (h : b.answer? key = some (.ok v)) : b.snapshot? reply key = some (reply key v) := by
  rw [snapshot?, h]
  rfl

theorem Backend.answer?_call (b : Backend V) (key k : String) : (b.call key).answer? k = b.answer? k := by
  cases b <;> rfl

theorem World.get?_eq {endpoint : Endpoint Q V R σ} {reply : String → V → Except Status R}
    (hreply : endpoint.make.Replies reply) {maker : Nat} {w : World V R σ} (hmaker : maker < w.makers.length)
    (request : Q) (ctx : CallContext) :
    (w.get? endpoint maker request ctx).map (·.1) =
      match endpoint.keyOf request ctx with
      | .error status => some (.error status)
      | .ok key => w.store.snapshot? reply key := by
  unfold World.get? Backend.snapshot?
  cases endpoint.keyOf request ctx with
  | error status => rfl
  | ok key =>
    simp only [Backend.answer?_call]
    cases w.store.answer? key with
    | none => rfl
    | some answer =>
      cases answer with
      | error f => rfl
      | ok v =>
        simp only [List.getElem?_eq_getElem hmaker, Option.bind_eq_bind, Option.bind_some, Option.pure_def,
          Option.map_some]
        rw [hreply]

/-! ### A session before its first item -/

/-- The session has to take so many steps until its stream carries the first item, which is told if it is known. -/
inductive Session.Opening (first : Option (Item R)) (x : Session R) : Nat → Prop where
  | starting (phase : x.phase = .starting) : Opening first x 3
  | reading (phase : x.phase = .reading) : Opening first x 2
  | holding {r : R} (phase : x.phase = .sendingSnapshot r) (first_eq : first = some (.ok r)) : Opening first x 1
  | failing {e : WatchFailure} (phase : x.phase = .reporting e) (first_eq : first = some (.error e.status)) :
    Opening first x 1

namespace Session.Opening

variable {make : Maker V R σ} {reply : String → V → Except Status R} {first : Option (Item R)} {w w' : World V R σ}
  {i n : Nat} {x : Session R}

theorem exists_succ (h : x.Opening first n) : ∃ m, n = m + 1 := by
  cases h <;> exact ⟨_, rfl⟩

/-- A dismissed monitor makes no difference. -/
theorem dismiss (h : x.Opening first n) : ({ x with monitored := false } : Session R).Opening first n := by
  cases h with
  | starting hp => exact .starting hp
  | reading hp => exact .reading hp
  | holding hp hfirst => exact .holding hp hfirst
  | failing hp hfirst => exact .failing hp hfirst

/-- One step nearer to the first item; as long as the session is at work, the step cancels nothing. -/
theorem advances (h : x.Opening first (n + 1)) (hadvances : World.Advances make w i x w')
    (hreply : make.Replies reply) (hfirst : w.store.snapshot? reply x.key = first) (hserved : x.served = true)
    (hheld : x.replies.receiving = true) :
    ∃ x', w'.sessions = w.sessions.set i x' ∧ x'.key = x.key ∧ x'.maker = x.maker ∧ x'.token = x.token ∧
      ((x'.replies = x.replies ∧ x'.Opening first n ∧ (∀ key, w'.store.answer? key = w.store.answer? key) ∧
          (x'.phase.isAtWork = true → x.phase.isAtWork = true ∧ w'.tokens = w.tokens)) ∨
        n = 0 ∧ ∃ item, first = some item ∧ x'.replies = x.replies.push item) := by
  cases h with
  | starting hp =>
    cases hadvances with
    | call =>
      refine ⟨_, rfl, rfl, rfl, rfl, Or.inl ⟨rfl, .reading rfl, w.store.answer?_call x.key, fun _ => ⟨?_, rfl⟩⟩⟩
      rw [hp]
      rfl
    | _ => simp_all [Phase.sends?]
  | reading hp =>
    have hstream : ∀ (v : World V R σ) (o : Outcome), (v.endSession i x o).store = v.store := fun v o => by
      simp [World.endSession, World.setSession, hp, Phase.stream?]
    cases hadvances with
    | @unread f _ hanswer =>
      have hphase : x.afterEnd (.failed (.read x.key f)) = .reporting (.read x.key f) := by
        simp [Session.afterEnd, hserved]
      refine ⟨_, rfl, rfl, rfl, rfl, Or.inl ⟨rfl, .failing hphase ?_, fun key => by rw [hstream], fun hworking => ?_⟩⟩
      · rw [← hfirst, Backend.snapshot?, hanswer]
        rfl
      · simp [hphase, Phase.isAtWork] at hworking
    | @read v st st' r changed _ hanswer _ hmade =>
      refine ⟨_, rfl, rfl, rfl, rfl, Or.inl ⟨rfl, .holding rfl ?_, fun _ => rfl, fun _ => ⟨by rw [hp]; rfl, rfl⟩⟩⟩
      rw [← hfirst, Backend.snapshot?_of_value hanswer, ← hreply st, hmade]
      rfl
    | @unmade v st st' status _ hanswer _ hmade =>
      have hphase : x.afterEnd (.failed (.transform status)) = .reporting (.transform status) := by
        simp [Session.afterEnd, hserved]
      refine ⟨_, rfl, rfl, rfl, rfl, Or.inl ⟨rfl, .failing hphase ?_, fun key => by rw [hstream], fun hworking => ?_⟩⟩
      · rw [← hfirst, Backend.snapshot?_of_value hanswer, ← hreply st, hmade]
        rfl
      · simp [hphase, Phase.isAtWork] at hworking
    | _ => simp_all [Phase.sends?]
  | @holding r hp hr =>
    cases hadvances with
    | @send r' next hsends =>
      obtain ⟨rfl, -⟩ : r = r' ∧ Phase.subscribing = next := by simpa [hp, Phase.sends?] using hsends
      exact ⟨_, rfl, rfl, rfl, rfl, Or.inr ⟨rfl, .ok r, hr, rfl⟩⟩
    | disconnect _ hgone => simp [hheld] at hgone
    | _ => simp_all
  | @failing e hp he =>
    cases hadvances with
    | @report e' hp' =>
      obtain rfl : e = e' := by simpa [hp] using hp'
      exact ⟨_, rfl, rfl, rfl, rfl, Or.inr ⟨rfl, .error e.status, he, rfl⟩⟩
    | unreported _ hgone => simp [hheld] at hgone
    | _ => simp_all [Phase.sends?]

/-- Where the answer need not be waited for and the stream is empty, the session can go on. -/
theorem advance?_ne_none (h : x.Opening first n) (make : Maker V R σ) (i : Nat) {item : Item R}
    (hitem : first = some item)
    (hfirst : w.store.snapshot? reply x.key = first) (hmaker : x.maker < w.makers.length)
    (hroom : x.replies.hasRoom = true) : World.advance? make w i x ≠ none := by
  intro hnone
  cases World.waits_of_advance?_eq_none (List.getElem?_eq_getElem hmaker) hnone with
  | unread _ hanswer => simp [Backend.snapshot?, hanswer, hitem] at hfirst
  | full _ hfull => simp [hroom] at hfull
  | fullReport _ hfull => simp [hroom] at hfull
  | quiet hp => cases h <;> simp_all
  | idle hp => cases h <;> simp_all
  | finished hp => cases h <;> simp_all
  | crashed hp => cases h <;> simp_all

end Session.Opening

/-- A turn takes a session without a watcher one step on, ends it because it is cancelled, dismisses its monitor, or
leaves it as it is; it adds no endpoint state and loses none. -/
theorem World.turn?_unwatched {make : Maker V R σ} {w w' : World V R σ} {t : Turn} (h : w.turn? make t = some w')
    {i : Nat} {x : Session R} (hx : w.sessions[i]? = some x) (hfree : ∀ a ∈ w.watchers, a.session ≠ i)
    (hheld : x.replies.receiving = true) :
    w'.makers.length = w.makers.length ∧
      (World.Advances make w i x w' ∨ (x.phase.isAbandonable = true ∧ w.tokens.isCancelled x.token = true) ∨
        w'.sessions[i]? = some { x with monitored := false } ∨ w'.sessions[i]? = some x) := by
  have hother : ∀ {j : Nat} (x' : Session R), j ≠ i → (w.sessions.set j x')[i]? = some x := fun x' hj => by
    rw [List.getElem?_set_ne hj, hx]
  cases turned_of_turn? h with
  | flush => exact ⟨rfl, by simp [hx]⟩
  | release => exact ⟨rfl, by simp [hx]⟩
  | @advance j y _ hy hadvances =>
    refine ⟨hadvances.length_makers, ?_⟩
    obtain ⟨x', -, hsessions, -⟩ := hadvances.proceeds
    by_cases hj : j = i
    · subst hj
      obtain rfl : y = x := Option.some.inj (hy.symm.trans hx)
      exact Or.inl hadvances
    · exact Or.inr (Or.inr (Or.inr (hsessions ▸ hother x' hj)))
  | @abandon j y hy habandonable hcancelled =>
    refine ⟨rfl, ?_⟩
    by_cases hj : j = i
    · subst hj
      obtain rfl : y = x := Option.some.inj (hy.symm.trans hx)
      exact Or.inr (Or.inl ⟨habandonable, hcancelled⟩)
    · exact Or.inr (Or.inr (Or.inr (hother _ hj)))
  | @desert j y hy _ hgone =>
    refine ⟨rfl, Or.inr (Or.inr (Or.inr (hother _ fun hj => ?_)))⟩
    subst hj
    obtain rfl : y = x := Option.some.inj (hy.symm.trans hx)
    simp [hheld] at hgone
  | @dismiss j y hy =>
    refine ⟨rfl, ?_⟩
    by_cases hj : j = i
    · subst hj
      obtain rfl : y = x := Option.some.inj (hy.symm.trans hx)
      exact Or.inr (Or.inr (Or.inl (List.getElem?_set_self (List.getElem?_eq_some_iff.1 hx).1)))
    · exact Or.inr (Or.inr (Or.inr (hother _ hj)))
  | pull ha => exact ⟨rfl, Or.inr (Or.inr (Or.inr (hother _ (hfree _ (List.mem_of_getElem? ha)))))⟩
  | quit ha => exact ⟨rfl, Or.inr (Or.inr (Or.inr (hother _ (hfree _ (List.mem_of_getElem? ha)))))⟩

namespace Reading

/-! ### Streams and their first items -/

/-- If the stream of session `i` has carried nothing yet, the store answers the session as it did at the start, and
the session is not cancelled unless it has ended by itself. -/
def Steady (i : Nat) (start u : Reading V R σ) : Prop :=
  u.carried i = [] → ∀ x, u.world.sessions[i]? = some x →
    u.world.store.answer? x.key = start.world.store.answer? x.key ∧
      (x.phase.isAtWork = true → u.world.tokens.isCancelled x.token = false)

/-- Nothing that happens disturbs the watch before its first item. -/
def Undisturbed (make : Maker V R σ) (i : Nat) (start u : Reading V R σ) (as : List (ReadAct V)) : Prop :=
  ∀ before, before <+: as → Steady i start (u.acts make i before)

/-- The first item of the stream of session `i`. -/
structure BeginsWith (make : Maker V R σ) (i : Nat) (start : Reading V R σ) (item : Item R) : Prop where
  /-- It can be received. -/
  comes : ∃ as, Undisturbed make i start start as ∧ (start.acts make i as).received.head? = some item
  /-- Nothing else is received before it. -/
  only : ∀ as, Undisturbed make i start start as →
    (start.acts make i as).received = [] ∨ (start.acts make i as).received.head? = some item
  /-- It is there for a reader that waits until the session's tasks cannot go on. -/
  settles : ∀ as, Undisturbed make i start start as → (start.acts make i as).IsAtRest make i →
    (start.acts make i as).received = [] → ((start.acts make i as).world.receiveReply i).1 = .item item

/-- The only item of the stream of session `i`. -/
structure ConsistsOf (make : Maker V R σ) (i : Nat) (start : Reading V R σ) (item : Item R) : Prop
    extends BeginsWith make i start item where
  alone : ∀ as, Undisturbed make i start start as →
    (start.acts make i as).received = [] ∨ (start.acts make i as).received = [item]
  /-- The end follows it. -/
  ends : ∀ as, Undisturbed make i start start as → (start.acts make i as).IsAtRest make i →
    (start.acts make i as).received = [item] → ((start.acts make i as).world.receiveReply i).1 = .ended

variable {make : Maker V R σ} {reply : String → V → Except Status R} {key : String} {i : Nat}
  {start u : Reading V R σ} {x : Session R} {as : List (ReadAct V)}

theorem Undisturbed.steady (h : Undisturbed make i start u as) : Steady i start u := h [] List.nil_prefix

theorem Undisturbed.last (h : Undisturbed make i start u as) : Steady i start (u.acts make i as) :=
  h as List.prefix_rfl

theorem Undisturbed.tail {a : ReadAct V} (h : Undisturbed make i start u (a :: as)) :
    Undisturbed make i start (u.act make i a) as :=
  fun before hbefore => h (a :: before) ((List.prefix_cons_inj a).2 hbefore)

theorem Undisturbed.cons {a : ReadAct V} (h : Steady i start u)
    (htail : Undisturbed make i start (u.act make i a) as) : Undisturbed make i start u (a :: as) := by
  intro before hbefore
  cases before with
  | nil => exact h
  | cons b before =>
    obtain ⟨rfl, htails⟩ := List.cons_prefix_cons.1 hbefore
    exact htail before htails

/-! ### The way to the first item -/

/-- The session on the key, number `i`, has so many steps to take until its stream carries anything. -/
structure Awaits (reply : String → V → Except Status R) (key : String) (i : Nat) (u start : Reading V R σ)
    (x : Session R) (n : Nat) : Prop where
  inv : u.Inv i x
  nothing : u.carried i = []
  key_eq : x.key = key
  maker_lt : x.maker < u.world.makers.length
  opening : x.Opening (start.world.store.snapshot? reply key) n

/-- The stream of session `i` has carried what was made of the store's answer at the start, and perhaps more. -/
def HasBegun (reply : String → V → Except Status R) (key : String) (i : Nat) (u start : Reading V R σ) : Prop :=
  ∃ item, start.world.store.snapshot? reply key = some item ∧ (u.carried i).head? = some item

/-- What the stream has carried it keeps. -/
theorem HasBegun.of_prefix {u' : Reading V R σ} (h : u.HasBegun reply key i start)
    (hcarried : u.carried i <+: u'.carried i) : u'.HasBegun reply key i start := by
  obtain ⟨item, hitem, hhead⟩ := h
  obtain ⟨rest, hrest⟩ := hcarried
  refine ⟨item, hitem, ?_⟩
  rw [← hrest, List.head?_append, hhead]
  rfl

namespace Awaits

variable {n : Nat}

theorem empty (h : u.Awaits reply key i start x n) : u.received = [] ∧ x.replies.items = [] :=
  List.append_eq_nil_iff.1 (carried_eq h.inv ▸ h.nothing)

theorem snapshot?_eq (h : u.Awaits reply key i start x n) (hsteady : Steady i start u) :
    u.world.store.snapshot? reply x.key = start.world.store.snapshot? reply key := by
  have hanswer := (hsteady h.nothing x h.inv.session_eq).1
  rw [h.key_eq] at hanswer
  rw [Backend.snapshot?, Backend.snapshot?, h.key_eq, hanswer]

/-- What puts nothing into the stream. -/
theorem of_silent {u' : Reading V R σ} {x' : Session R} {n' : Nat} (h : u.Awaits reply key i start x n)
    (hinv : u'.Inv i x') (hreceived : u'.received = u.received) (hreplies : x'.replies = x.replies)
    (hkey : x'.key = x.key) (hmaker : x'.maker = x.maker)
    (hlength : u'.world.makers.length = u.world.makers.length)
    (hopening : x'.Opening (start.world.store.snapshot? reply key) n') : u'.Awaits reply key i start x' n' := by
  refine ⟨hinv, ?_, hkey.trans h.key_eq, ?_, hopening⟩
  · rw [carried_eq hinv, hreceived, hreplies, h.empty.1, h.empty.2]
    rfl
  · rw [hmaker, hlength]
    exact h.maker_lt

/-- A step of the session towards its first item. -/
theorem advance {w' : World V R σ} (h : u.Awaits reply key i start x (n + 1)) (hreply : make.Replies reply)
    (hsteady : Steady i start u) (hadvances : World.Advances make u.world i x w') :
    ∃ x', (({ u with world := w' } : Reading V R σ).Awaits reply key i start x' n ∧
        Steady i start { u with world := w' }) ∨
      n = 0 ∧ ({ u with world := w' } : Reading V R σ).Inv i x' ∧
        ({ u with world := w' } : Reading V R σ).HasBegun reply key i start := by
  have hi : i < u.world.sessions.length := (List.getElem?_eq_some_iff.1 h.inv.session_eq).1
  obtain ⟨x', hsessions, hkey, hmaker, htoken, hx'⟩ :=
    h.opening.advances hadvances hreply (h.snapshot?_eq hsteady) h.inv.served h.inv.held
  have hsession : w'.sessions[i]? = some x' := by rw [hsessions, List.getElem?_set_self hi]
  have hinv : ({ u with world := w' } : Reading V R σ).Inv i x' := by
    obtain ⟨y, hproceeds, hsessions', hwatchers⟩ := hadvances.proceeds
    obtain rfl : x' = y := by
      rw [hsessions', List.getElem?_set_self hi] at hsession
      exact (Option.some.inj hsession).symm
    exact h.inv.proceed hproceeds hsession (hwatchers ▸ h.inv.free)
  refine ⟨x', ?_⟩
  rcases hx' with ⟨hreplies, hopening, hanswers, hfired⟩ | ⟨hn, item, hitem, hreplies⟩
  · refine Or.inl ⟨h.of_silent hinv rfl hreplies hkey hmaker hadvances.length_makers hopening, fun _ y hy => ?_⟩
    obtain rfl : x' = y := Option.some.inj (hsession.symm.trans hy)
    obtain ⟨hanswer, huncancelled⟩ := hsteady h.nothing x h.inv.session_eq
    refine ⟨?_, fun hworking => ?_⟩
    · rw [hanswers, hkey]
      exact hanswer
    · obtain ⟨hworked, htokens⟩ := hfired hworking
      rw [htokens, htoken]
      exact huncancelled hworked
  · refine Or.inr ⟨hn, hinv, item, hitem, ?_⟩
    rw [carried_eq hinv, hreplies, Queue.items_push, h.empty.2]
    change (u.received ++ [item]).head? = some item
    rw [h.empty.1]
    rfl

/-- Whatever happens to a watch that is not disturbed, it stays on the way to its first item, or comes to it. -/
theorem act (h : u.Awaits reply key i start x n) (hreply : make.Replies reply) (hsteady : Steady i start u)
    (a : ReadAct V) :
    ∃ x', (∃ n', (u.act make i a).Awaits reply key i start x' n') ∨
      (u.act make i a).Inv i x' ∧ (u.act make i a).HasBegun reply key i start := by
  cases a with
  | turn t =>
    simp only [Reading.act]
    cases hw : u.world.turn? make t with
    | none => exact ⟨x, Or.inl ⟨n, h⟩⟩
    | some w' =>
      obtain ⟨x', hinv⟩ := h.inv.act make (.turn t)
      simp only [Reading.act, hw, Option.getD_some] at hinv ⊢
      obtain ⟨hlength, hadvances | ⟨habandonable, hcancelled⟩ | hsession | hsession⟩ :=
        World.turn?_unwatched hw h.inv.session_eq h.inv.free h.inv.held
      · obtain ⟨m, rfl⟩ := h.opening.exists_succ
        obtain ⟨x', ⟨hawaits, -⟩ | ⟨-, hinv, hbegun⟩⟩ := h.advance hreply hsteady hadvances
        · exact ⟨x', Or.inl ⟨m, hawaits⟩⟩
        · exact ⟨x', Or.inr ⟨hinv, hbegun⟩⟩
      · have := (hsteady h.nothing x h.inv.session_eq).2 (World.isAtWork_of_isAbandonable habandonable)
        simp [hcancelled] at this
      · obtain rfl := Option.some.inj (hinv.session_eq.symm.trans hsession)
        exact ⟨_, Or.inl ⟨n, h.of_silent hinv rfl rfl rfl rfl hlength h.opening.dismiss⟩⟩
      · obtain rfl := Option.some.inj (hinv.session_eq.symm.trans hsession)
        exact ⟨_, Or.inl ⟨n, h.of_silent hinv rfl rfl rfl rfl hlength h.opening⟩⟩
  | store change =>
    have hinv : (u.act make i (.store change)).Inv i x := h.inv.elsewhere h.inv.session_eq h.inv.free fun _ ht => ht
    exact ⟨x, Or.inl ⟨n, h.of_silent hinv rfl rfl rfl rfl rfl h.opening⟩⟩
  | cancel token =>
    obtain ⟨x', hinv⟩ := h.inv.act make (.cancel token)
    obtain rfl : x' = x := Option.some.inj (hinv.session_eq.symm.trans h.inv.session_eq)
    exact ⟨_, Or.inl ⟨n, h.of_silent hinv rfl rfl rfl rfl rfl h.opening⟩⟩
  | receive =>
    obtain ⟨x', hinv⟩ := h.inv.act make .receive
    simp only [Reading.act] at hinv ⊢
    rcases World.receiveReply_cases h.inv.session_eq with ⟨item, rest, hitems, -⟩ | ⟨-, heq⟩
    · simp [h.empty.2] at hitems
    · rw [heq] at hinv ⊢
      obtain rfl : x' = x := Option.some.inj (hinv.session_eq.symm.trans h.inv.session_eq)
      refine ⟨_, Or.inl ⟨n, h.of_silent hinv ?_ rfl rfl rfl rfl h.opening⟩⟩
      cases x'.isOpen <;> simp [received, Received.item?, List.filterMap_cons]

end Awaits

/-- Along every run that does not disturb it. -/
theorem Awaits.acts {n : Nat} (h : u.Awaits reply key i start x n) (hreply : make.Replies reply)
    (has : Undisturbed make i start u as) :
    ∃ x', (∃ n', (u.acts make i as).Awaits reply key i start x' n') ∨
      (u.acts make i as).Inv i x' ∧ (u.acts make i as).HasBegun reply key i start := by
  induction as generalizing u x n with
  | nil => exact ⟨x, Or.inl ⟨n, h⟩⟩
  | cons a as ih =>
    obtain ⟨x', ⟨n', h'⟩ | ⟨hinv, hbegun⟩⟩ := h.act hreply has.steady a
    · exact ih h' has.tail
    · obtain ⟨y, hy⟩ := hinv.acts make as
      exact ⟨y, Or.inr ⟨hy, hbegun.of_prefix (hinv.carried_prefix as)⟩⟩

/-! ### The first item is the store's answer -/

/-- A reader that got nothing so far is told the first item, if the stream has carried one. -/
theorem Inv.receiveReply_of_head? (h : u.Inv i x) {item : Item R} (hhead : (u.carried i).head? = some item)
    (hnone : u.received = []) : (u.world.receiveReply i).1 = .item item := by
  rw [carried_eq h, hnone, List.nil_append] at hhead
  rcases World.receiveReply_cases h.session_eq with ⟨item', rest, hitems, heq⟩ | ⟨hitems, -⟩
  · rw [hitems, List.head?_cons, Option.some.injEq] at hhead
    rw [heq, hhead]
  · simp [hitems] at hhead

/-- An undisturbed session before its first item goes on to it, if the answer need not be waited for. -/
theorem Awaits.exists_hasBegun {n : Nat} (h : u.Awaits reply key i start x n) (hreply : make.Replies reply)
    (hsteady : Steady i start u) {item : Item R} (hitem : start.world.store.snapshot? reply key = some item) :
    ∃ as, Undisturbed make i start u as ∧ (u.acts make i as).received.head? = some item := by
  induction n generalizing u x with
  | zero => cases h.opening
  | succ n ih =>
    have hroom : x.replies.hasRoom = true := by simp [Queue.hasRoom, h.empty.2, h.inv.capacity_pos]
    obtain ⟨w', hw'⟩ := Option.ne_none_iff_exists'.1 <|
      h.opening.advance?_ne_none make i hitem (h.snapshot?_eq hsteady) h.maker_lt hroom
    have hact : u.act make i (.turn (.advance i)) = { u with world := w' } := by
      simp [Reading.act, World.turn?_advance h.inv.session_eq, hw']
    obtain ⟨x', ⟨hawaits, hsteady'⟩ | ⟨-, hinv, hbegun⟩⟩ := h.advance hreply hsteady (World.advances_of_advance? hw')
    · obtain ⟨as, has, hhead⟩ := ih hawaits hsteady'
      exact ⟨.turn (.advance i) :: as, .cons hsteady (hact ▸ has), by rwa [Reading.acts, List.foldl_cons, hact]⟩
    · have hsteady' : Steady i start { u with world := w' } := fun hnone => by
        obtain ⟨_, -, hhead⟩ := hbegun
        simp [hnone] at hhead
      have hprefix : _ <+: (({ u with world := w' } : Reading V R σ).act make i .receive).carried i :=
        hinv.carried_prefix_act .receive
      have hnone : (({ u with world := w' } : Reading V R σ).act make i .receive).carried i ≠ [] := fun hnone => by
        obtain ⟨_, -, hhead⟩ := hbegun.of_prefix hprefix
        simp [hnone] at hhead
      obtain ⟨item', hitem', hhead⟩ := hbegun
      obtain rfl : item = item' := Option.some.inj (hitem.symm.trans hitem')
      refine ⟨[.turn (.advance i), .receive], .cons hsteady (hact ▸ .cons hsteady' ?_), ?_⟩
      · intro before hbefore
        obtain rfl := List.prefix_nil.1 hbefore
        exact fun h => absurd h hnone
      · have htold := hinv.receiveReply_of_head? hhead h.empty.1
        have hreceived := h.empty.1
        simp only [Reading.received] at hreceived
        simp only [Reading.acts, List.foldl_cons, List.foldl_nil, hact]
        simp [Reading.act, Reading.received, htold, hreceived, Received.item?]

/-- What an undisturbed stream begins with is what was made of the store's answer at the start. -/
theorem Awaits.beginsWith_iff {n : Nat} (h : start.Awaits reply key i start x n) (hreply : make.Replies reply)
    (hsteady : Steady i start start) (item : Item R) :
    BeginsWith make i start item ↔ start.world.store.snapshot? reply key = some item := by
  constructor
  · rintro ⟨⟨as, has, hhead⟩, -, -⟩
    obtain ⟨x', ⟨n', hawaits⟩ | ⟨hinv, item', hitem', hhead'⟩⟩ := h.acts hreply has
    · simp [hawaits.empty.1] at hhead
    · rw [carried_eq hinv, List.head?_append, hhead, Option.some_or] at hhead'
      rw [hitem', hhead']
  · intro hitem
    refine ⟨h.exists_hasBegun hreply hsteady hitem, fun as has => ?_, fun as has hrest hnone => ?_⟩
    · obtain ⟨x', ⟨n', hawaits⟩ | ⟨hinv, item', hitem', hhead⟩⟩ := h.acts hreply has
      · exact Or.inl hawaits.empty.1
      · rw [carried_eq hinv, List.head?_append] at hhead
        rw [hitem, Option.some.injEq] at hitem'
        cases hreceived : (start.acts make i as).received with
        | nil => exact Or.inl rfl
        | cons a rest =>
          rw [hreceived, List.head?_cons, Option.some_or] at hhead
          exact Or.inr (by rw [List.head?_cons, hhead, hitem'])
    · obtain ⟨x', ⟨n', hawaits⟩ | ⟨hinv, item', hitem', hhead⟩⟩ := h.acts hreply has
      · -- in front of the first item the session could go on
        have hroom : x'.replies.hasRoom = true := by simp [Queue.hasRoom, hawaits.empty.2, hawaits.inv.capacity_pos]
        have hwaits := hrest (.advance i) (List.mem_cons_self ..)
        rw [World.turn?_advance hawaits.inv.session_eq] at hwaits
        exact absurd hwaits <|
          hawaits.opening.advance?_ne_none make i hitem (hawaits.snapshot?_eq has.last) hawaits.maker_lt hroom
      · rw [hitem, Option.some.injEq] at hitem'
        exact hitem' ▸ hinv.receiveReply_of_head? hhead hnone

/-- A status at the head of a stream is all of it, and its session has ended. -/
theorem Inv.of_error_head? (h : u.Inv i x) {s : Status} (hhead : (u.carried i).head? = some (.error s)) :
    u.carried i = [.error s] ∧ x.phase.outcome?.isSome = true := by
  obtain ⟨oks, hoks⟩ := h.carried
  rw [← carried_eq h] at hoks
  cases oks with
  | cons r oks => simp [hoks] at hhead
  | nil =>
    have hmem : (.error s : Item R) ∈ ([] : List R).map .ok ++ x.phase.report := by
      rw [← hoks]
      exact List.mem_of_mem_head? hhead
    obtain ⟨e, hphase, rfl⟩ := of_error_mem hmem
    rw [hoks, hphase]
    exact ⟨rfl, rfl⟩

theorem Awaits.consistsOf_iff {n : Nat} (h : start.Awaits reply key i start x n) (hreply : make.Replies reply)
    (hsteady : Steady i start start) (s : Status) :
    ConsistsOf make i start (.error s) ↔ start.world.store.snapshot? reply key = some (.error s) := by
  refine ⟨fun hs => (h.beginsWith_iff hreply hsteady _).1 hs.toBeginsWith, fun hs => ?_⟩
  have hbegins := (h.beginsWith_iff hreply hsteady _).2 hs
  -- what was received first is all that was carried
  have hall : ∀ as, Undisturbed make i start start as → (start.acts make i as).received ≠ [] →
      ∃ x', (start.acts make i as).Inv i x' ∧ (start.acts make i as).received = [.error s] ∧
        x'.phase.outcome?.isSome = true ∧ x'.replies.items = [] := by
    intro as has hsome
    have hhead := (hbegins.only as has).resolve_left hsome
    obtain ⟨x', ⟨n', hawaits⟩ | ⟨hinv, -⟩⟩ := h.acts hreply has
    · exact absurd hawaits.empty.1 hsome
    · have hcarried := carried_eq hinv
      obtain ⟨hall, hover⟩ :=
        hinv.of_error_head? (s := s) (by rw [hcarried, List.head?_append, hhead, Option.some_or])
      rw [hall] at hcarried
      rcases List.singleton_eq_append_iff.1 hcarried with ⟨hnone, -⟩ | ⟨hreceived, hitems⟩
      · exact absurd hnone hsome
      · exact ⟨x', hinv, hreceived, hover, hitems⟩
  refine ⟨hbegins, fun as has => ?_, fun as has hrest hreceived => ?_⟩
  · by_cases hnone : (start.acts make i as).received = []
    · exact Or.inl hnone
    · obtain ⟨-, -, hreceived, -⟩ := hall as has hnone
      exact Or.inr hreceived
  · obtain ⟨x', hinv, -, hover, hitems⟩ := hall as has (by simp [hreceived])
    obtain ⟨o, ho⟩ := Option.isSome_iff_exists.1 hover
    refine (hinv.drained ho hrest ?_).2.2
    rcases World.receiveReply_cases hinv.session_eq with ⟨item, rest, hitems', -⟩ | ⟨-, heq⟩
    · simp [hitems] at hitems'
    · rw [heq]
      cases x'.isOpen <;> rfl

end Reading

/-! ### Calls and watches -/

/-- A token with a number that is handed out for the first time is cancelled only with the one above it. -/
theorem Tokens.isCancelled_fresh (ts : Tokens) {parent : Token} (hfired : ∀ f ∈ ts.fired, ts.next ∉ f)
    (h : ts.isCancelled parent = false) : ts.isCancelled (ts.child parent).1 = false := by
  rw [Bool.eq_false_iff]
  intro hcancelled
  obtain ⟨f, hf, hsuffix⟩ := List.any_eq_true.1 hcancelled
  rcases List.suffix_cons_iff.1 (List.isSuffixOf_iff_suffix.1 hsuffix) with rfl | hsuffix
  · exact hfired _ hf List.mem_cons_self
  · have : ts.isCancelled parent = true := List.any_eq_true.2 ⟨f, hf, List.isSuffixOf_iff_suffix.2 hsuffix⟩
    simp [h] at this

/-- A watch that is served begins three steps before its first item. -/
theorem Reading.awaits_serving {w : World V R σ} (hwatchers : ∀ a ∈ w.watchers, a.session < w.sessions.length)
    {maker : Nat} (hmaker : maker < w.makers.length) {token : Token} (htoken : w.tokens.isCancelled token = false)
    (reply : String → V → Except Status R) (key : String) {capacity : Nat} (hcapacity : 0 < capacity) :
    let start : Reading V R σ :=
      { world := { w with sessions := w.sessions ++ [Session.serving key token maker capacity] } }
    start.Awaits reply key w.sessions.length start (.serving key token maker capacity) 3 ∧
      start.Steady w.sessions.length start := by
  intro start
  have hsession : start.world.sessions[w.sessions.length]? = some (.serving key token maker capacity) :=
    List.getElem?_concat_length
  have hnothing : start.carried w.sessions.length = [] := by
    rw [Reading.carried, hsession]
    rfl
  refine ⟨⟨inv_serving hwatchers key token maker hcapacity, hnothing, rfl, hmaker, .starting rfl⟩, fun _ x hx => ?_⟩
  obtain rfl := Option.some.inj (hsession.symm.trans hx)
  exact ⟨rfl, fun _ => htoken⟩

/-- What a call that gets the value returns is the first item of a watch with the same request and context, if that is
not cancelled: a reply where it returns a reply, and where it fails, the status it fails with, which the watch either
fails with at once or has as its only item. -/
theorem get_agrees_with_watch (endpoint : Endpoint Q V R σ) {reply : String → V → Except Status R}
    (hreply : endpoint.make.Replies reply) (maker replyBuffer : Nat) (hbuffer : replyBuffer ≤ Queue.maxCapacity)
    (w : World V R σ) (hmaker : maker < w.makers.length) (hwatchers : ∀ a ∈ w.watchers, a.session < w.sessions.length)
    (hfired : ∀ t ∈ w.tokens.fired, w.tokens.next ∉ t) (request : Q) (ctx : CallContext)
    (hctx : w.tokens.isCancelled ctx.token = false) :
    let returned := (w.get? endpoint maker request ctx).map (·.1)
    let served := w.serve endpoint maker replyBuffer request ctx
    (∀ r, returned = some (.ok r) ↔
      ∃ i w', served = .ok (.ok (i, w')) ∧ Reading.BeginsWith endpoint.make i { world := w' } (.ok r)) ∧
    ∀ s, returned = some (.error s) ↔ served = .ok (.error s) ∨
      ∃ i w', served = .ok (.ok (i, w')) ∧ Reading.ConsistsOf endpoint.make i { world := w' } (.error s) := by
  intro returned served
  have hreturned : returned = _ := World.get?_eq hreply hmaker request ctx
  cases hkey : endpoint.keyOf request ctx with
  | error status =>
    have hserved : served = .ok (.error status) := World.serve_error hkey hbuffer
    simp only [hkey] at hreturned
    rw [hreturned, hserved]
    refine ⟨fun r => ⟨fun h => by simp at h, fun ⟨i, w', h, _⟩ => by simp at h⟩, fun s => ?_⟩
    constructor
    · intro h
      simp only [Option.some.injEq, Except.error.injEq] at h
      exact Or.inl (by rw [h])
    · rintro (h | ⟨i, w', h, -⟩)
      · simp only [Except.ok.injEq, Except.error.injEq] at h
        rw [h]
      · simp at h
  | ok key =>
    have hserved : served = .ok (.ok (w.sessions.length, _)) := World.serve_ok hkey hbuffer
    simp only [hkey] at hreturned
    -- the watch that was served is the only one to speak of
    have hone : ∀ P : Nat → World V R σ → Prop, ∀ {i w'}, served = .ok (.ok (i, w')) →
        ((∃ i w', served = .ok (.ok (i, w')) ∧ P i w') ↔ P i w') := by
      intro P i w' hserved
      rw [hserved]
      constructor
      · rintro ⟨j, v, h, hP⟩
        simp only [Except.ok.injEq, Prod.mk.injEq] at h
        obtain ⟨rfl, rfl⟩ := h
        exact hP
      · exact fun hP => ⟨i, w', rfl, hP⟩
    have htoken : (w.newToken ctx.token).2.tokens.isCancelled (w.newToken ctx.token).1 = false :=
      w.tokens.isCancelled_fresh hfired hctx
    obtain ⟨hawaits, hsteady⟩ := Reading.awaits_serving (w := (w.newToken ctx.token).2) hwatchers hmaker htoken reply
      key (Nat.lt_of_lt_of_le Nat.one_pos (Nat.le_max_right replyBuffer 1))
    rw [hreturned]
    refine ⟨fun r => ?_, fun s => ?_⟩
    · rw [hone (fun i w' => Reading.BeginsWith endpoint.make i { world := w' } (.ok r)) hserved]
      exact (hawaits.beginsWith_iff hreply hsteady (.ok r)).symm
    · rw [hone (fun i w' => Reading.ConsistsOf endpoint.make i { world := w' } (.error s)) hserved, hserved]
      have hconsists := hawaits.consistsOf_iff hreply hsteady s
      exact ⟨fun h => Or.inr (hconsists.2 h), fun h => hconsists.1 (h.resolve_left (by simp))⟩

/-- A call and a watch on a value of which no reply is made. -/
theorem get_agrees_with_watch_of_refused_value :
    let refusal : Status := ⟨.invalidArgument, "three"⟩
    let endpoint : Endpoint String Nat Nat Unit :=
      ⟨fun key _ => .ok key, fun _ _ v => ((), if v = 3 then .error refusal else .ok (v, true))⟩
    let w : World Nat Nat Unit := { store := .memory (MemoryStore.put (.make 16) "k" 3).2, makers := [()] }
    ∃ i w', w.serve endpoint 0 0 "k" { token := [7] } = .ok (.ok (i, w')) ∧
      Reading.ConsistsOf endpoint.make i { world := w' } (.error refusal) := by
  intro refusal endpoint w
  have hreply : endpoint.make.Replies fun _ v => if v = 3 then .error refusal else .ok v := by
    intro st key v
    by_cases hv : v = 3 <;> simp [endpoint, hv, Except.map]
  have hreturned : (w.get? endpoint 0 "k" { token := [7] }).map (·.1) = some (.error refusal) := rfl
  obtain ⟨-, hfailed⟩ :=
    get_agrees_with_watch endpoint hreply 0 0 (by decide) w (by decide) (by decide) (by decide) "k"
      { token := [7] } rfl
  exact ((hfailed refusal).1 hreturned).resolve_left fun h => nomatch h

/-- A reply buffer beyond the largest queue: the call returns a reply, and no watch is served. -/
theorem get_without_watch_of_too_large_buffer :
    let endpoint : Endpoint String Nat Nat Unit := ⟨fun key _ => .ok key, fun _ _ v => ((), .ok (v, true))⟩
    let w : World Nat Nat Unit := { store := .memory (MemoryStore.put (.make 16) "k" 1).2, makers := [()] }
    let ctx : CallContext := { token := [7] }
    endpoint.make.Replies (fun _ v => .ok v) ∧ w.tokens.isCancelled ctx.token = false ∧
      (w.get? endpoint 0 "k" ctx).map (·.1) = some (.ok 1) ∧
      ¬ ∃ i w', w.serve endpoint 0 2305843009213693952 "k" ctx = .ok (.ok (i, w')) ∧
        Reading.BeginsWith endpoint.make i { world := w' } (.ok 1) := by
  refine ⟨fun _ _ _ => rfl, rfl, rfl, ?_⟩
  rintro ⟨i, w', hserved, -⟩
  have htooLarge : (Queue.make? (max 2305843009213693952 1) : Option (Queue (Item Nat))) = none := by decide +kernel
  rw [World.serve, htooLarge] at hserved
  simp at hserved

end ResourceWatch

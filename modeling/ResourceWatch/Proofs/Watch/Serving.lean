import ResourceWatch.Proofs.Watch.Advances

/-!
# The stream of a served watch

A reading is a world with a served watch in it and the answers that the reader of its stream got.  Between them come,
in any order, turns of all tasks, any change of the store, cancellations and receives.

What the stream has carried, received or queued, is replies and, once the failure of the session has been reported,
its status behind them (`Reading.Inv`).  A report waits for room and is not given up, and the stream stays open until
the session has ended and its monitor has noticed; so the reader gets the failure as the last item, or none if there
was none, and then the end (`served_stream_shape`).
-/

namespace ResourceWatch

variable {Q V R σ : Type}

/-! ### Readings -/

def Received.item? {α : Type} : Received α → Option α
  | .item a => some a
  | .pending | .ended => none

/-- What may be told behind what: no item behind a failure, and nothing but the end behind the end. -/
def Received.Precedes : Received (Item R) → Received (Item R) → Prop
  | .item (.error _), b => b.item? = none
  | .ended, b => b = .ended
  | _, _ => True

/-- What a session that ended so has to report. -/
def Outcome.report : Outcome → List (Item R)
  | .failed e => [.error e.status]
  | .done => []

/-- What has been reported of the session. -/
def Phase.report : Phase R → List (Item R)
  | .finished o => o.report
  | _ => []

/-- What happens while a served watch is read. -/
inductive ReadAct (V : Type) where
  | turn (t : Turn)
  | store (change : Backend V → Backend V)
  | cancel (token : Token)
  | receive

structure Reading (V R σ : Type) where
  world : World V R σ
  /-- What the reader was told, each time it asked. -/
  answers : List (Received (Item R)) := []

namespace Reading

/-- What happens to a reading of the stream of session `i`; a task that has to wait leaves it as it is. -/
def act (make : Maker V R σ) (i : Nat) (u : Reading V R σ) : ReadAct V → Reading V R σ
  | .turn t => { u with world := (u.world.turn? make t).getD u.world }
  | .store change => { u with world := { u.world with store := change u.world.store } }
  | .cancel token => { u with world := u.world.cancel token }
  | .receive =>
    { world := (u.world.receiveReply i).2, answers := u.answers ++ [(u.world.receiveReply i).1] }

def acts (make : Maker V R σ) (i : Nat) (u : Reading V R σ) (as : List (ReadAct V)) : Reading V R σ :=
  as.foldl (act make i) u

def received (u : Reading V R σ) : List (Item R) := u.answers.filterMap Received.item?

/-- What the stream of session `i` has carried so far. -/
def carried (u : Reading V R σ) (i : Nat) : List (Item R) :=
  u.received ++ (u.world.sessions[i]?.elim [] (·.replies.items))

/-- The session's own tasks have to wait. -/
def IsAtRest (make : Maker V R σ) (i : Nat) (u : Reading V R σ) : Prop :=
  ∀ t ∈ [Turn.advance i, .abandon i, .monitor i], u.world.turn? make t = none

/-! ### The invariant -/

/-- The session `x`, number `i`, serves the stream that is read. -/
structure Inv (i : Nat) (u : Reading V R σ) (x : Session R) : Prop where
  session_eq : u.world.sessions[i]? = some x
  free : ∀ a ∈ u.world.watchers, a.session ≠ i
  served : x.served = true
  held : x.replies.receiving = true
  capacity_pos : 0 < x.replies.capacity
  carried : ∃ oks : List R, u.received ++ x.replies.items = oks.map .ok ++ x.phase.report
  fired : x.phase.outcome?.isSome = true → u.world.tokens.isCancelled x.token = true
  connected : x.phase.outcome? ≠ some (.failed .disconnected)
  ended : .ended ∈ u.answers → x.isOpen = false ∧ x.replies.items = []
  ordered : u.answers.Pairwise Received.Precedes

variable {make : Maker V R σ} {i : Nat} {u : Reading V R σ} {x x' : Session R} {w' : World V R σ}

private theorem report_of_isAtWork {p : Phase R} (h : p.isAtWork = true) : p.report = [] := by
  cases p <;> simp [Phase.isAtWork, Phase.report] at h ⊢

private theorem report_of_outcome?_eq_none {p : Phase R} (h : p.outcome? = none) : p.report = [] := by
  cases p <;> simp [Phase.outcome?, Phase.report] at h ⊢

private theorem not_ended_of_isAtWork (h : u.Inv i x) (hworking : x.phase.isAtWork = true) : .ended ∉ u.answers := by
  intro hended
  have hopen := (h.ended hended).1
  simp [Session.isOpen, Phase.isOpen_of_isAtWork hworking] at hopen

/-- A served session reports every failure but that of its reader. -/
private theorem afterEnd_cases (hserved : x.served = true) {o : Outcome} (ho : o ≠ .failed .disconnected) :
    (o = .done ∧ x.afterEnd o = .finished o) ∨ ∃ e, o = .failed e ∧ x.afterEnd o = .reporting e := by
  cases o with
  | done => exact Or.inl ⟨rfl, rfl⟩
  | failed e =>
    refine Or.inr ⟨e, rfl, ?_⟩
    cases e <;> simp [Session.afterEnd, hserved] at ho ⊢

/-- The turns of the session's own tasks keep the invariant. -/
theorem Inv.proceed (h : u.Inv i x) (hx : x.Proceeds u.world.tokens x' w'.tokens)
    (hsession : w'.sessions[i]? = some x') (hfree : ∀ a ∈ w'.watchers, a.session ≠ i) :
    Inv i { u with world := w' } x' := by
  obtain ⟨oks, hoks⟩ := h.carried
  generalize htokens : w'.tokens = tokens' at hx
  cases hx with
  | work hworking hahead =>
    refine ⟨hsession, hfree, h.served, h.held, h.capacity_pos, ⟨oks, ?_⟩, fun hover => ?_, ?_, fun hended => ?_,
      h.ordered⟩
    · rw [report_of_isAtWork hworking] at hoks
      rw [report_of_outcome?_eq_none hahead]
      exact hoks
    · simp [hahead] at hover
    · simp [hahead]
    · exact (not_ended_of_isAtWork h hworking hended).elim
  | @send r p hworking hahead =>
    refine ⟨hsession, hfree, h.served, h.held, h.capacity_pos, ⟨oks ++ [r], ?_⟩, fun hover => ?_, ?_,
      fun hended => ?_, h.ordered⟩
    · rw [report_of_isAtWork hworking, List.append_nil] at hoks
      have hp : p.report = [] := report_of_outcome?_eq_none hahead
      simp only [Session.send, Queue.items_push, hp, List.append_nil, List.map_append, ← hoks]
      exact (List.append_assoc _ _ _).symm
    · simp [Session.send, hahead] at hover
    · simp [Session.send, hahead]
    · exact (not_ended_of_isAtWork h hworking hended).elim
  | @finish o hworking hcause =>
    -- the reader stays, so it is not the cause
    have ho : o ≠ .failed .disconnected := fun ho => by simp [h.held] at hcause; exact hcause ho
    refine ⟨hsession, hfree, h.served, h.held, h.capacity_pos, ⟨oks, ?_⟩, fun _ => ?_, ?_, fun hended => ?_,
      h.ordered⟩
    · rw [report_of_isAtWork hworking] at hoks
      rcases afterEnd_cases h.served ho with ⟨rfl, hp⟩ | ⟨e, -, hp⟩
      · rw [hp]
        exact hoks
      · rw [hp]
        exact hoks
    · simp [htokens]
    · rcases afterEnd_cases h.served ho with ⟨rfl, hp⟩ | ⟨e, rfl, hp⟩
      · simp [hp, Phase.outcome?]
      · simp only [hp, Phase.outcome?]
        exact fun he => ho (Option.some.inj he)
    · exact (not_ended_of_isAtWork h hworking hended).elim
  | crash hworking =>
    refine ⟨hsession, hfree, h.served, h.held, h.capacity_pos, ⟨oks, ?_⟩, fun hover => ?_, ?_, fun hended => ?_,
      h.ordered⟩
    · rw [report_of_isAtWork hworking] at hoks
      exact hoks
    · simp [Phase.outcome?] at hover
    · simp [Phase.outcome?]
    · exact (not_ended_of_isAtWork h hworking hended).elim
  | @report e hp =>
    have hover := h.fired (by rw [hp]; rfl)
    refine ⟨hsession, hfree, h.served, h.held, h.capacity_pos, ⟨oks, ?_⟩, fun _ => ?_, ?_, fun hended => ?_,
      h.ordered⟩
    · have hreport : x.phase.report = [] := by rw [hp]; rfl
      rw [hreport, List.append_nil] at hoks
      simp only [Session.send, Queue.items_push, Phase.report, Outcome.report, ← hoks]
      exact (List.append_assoc _ _ _).symm
    · rw [htokens]
      exact hover
    · have hconnected := h.connected
      rw [hp] at hconnected
      exact hconnected
    · have hopen := (h.ended hended).1
      simp [Session.isOpen, hp, Phase.isOpen] at hopen
  | unreported _ hgone => simp [h.held] at hgone
  | desert hgone => simp [h.held] at hgone
  | dismiss =>
    refine ⟨hsession, hfree, h.served, h.held, h.capacity_pos, ⟨oks, hoks⟩, fun hover => ?_, h.connected,
      fun hended => ?_, h.ordered⟩
    · rw [htokens]
      exact h.fired hover
    · obtain ⟨hopen, hitems⟩ := h.ended hended
      simp only [Session.isOpen, Bool.or_eq_false_iff] at hopen
      exact ⟨by rw [Session.isOpen, hopen.1]; rfl, hitems⟩

/-- What leaves the session as it is and takes back no cancellation keeps the invariant. -/
theorem Inv.elsewhere (h : u.Inv i x) (hsession : w'.sessions[i]? = some x)
    (hfree : ∀ a ∈ w'.watchers, a.session ≠ i)
    (htokens : ∀ t, u.world.tokens.isCancelled t = true → w'.tokens.isCancelled t = true) :
    Inv i { u with world := w' } x :=
  ⟨hsession, hfree, h.served, h.held, h.capacity_pos, h.carried, fun hover => htokens _ (h.fired hover), h.connected,
    h.ended, h.ordered⟩

/-- A failure is the last item that a stream carries. -/
private theorem items_eq_nil_of_error_mem {received items : List (Item R)} {oks : List R} {p : Phase R} {s : Status}
    (h : received ++ items = oks.map .ok ++ p.report) (hs : .error s ∈ received) : items = [] := by
  rcases List.eq_nil_or_concat items with rfl | ⟨init, last, rfl⟩
  · rfl
  · have hmap : ∀ l : List (Item R), received ++ l ≠ oks.map .ok := fun l heq => by
      have hmem : (.error s : Item R) ∈ oks.map .ok := heq ▸ List.mem_append_left _ hs
      simp at hmem
    have hlength : p.report = [] ∨ ∃ e : WatchFailure, p.report = [.error e.status] := by
      cases p with
      | finished o =>
        cases o with
        | done => exact Or.inl rfl
        | failed e => exact Or.inr ⟨e, rfl⟩
      | _ => exact Or.inl rfl
    rcases hlength with hp | ⟨e, hp⟩
    · rw [hp, List.append_nil] at h
      exact absurd h (hmap _)
    · rw [hp, List.concat_eq_append, ← List.append_assoc] at h
      exact absurd (List.append_inj' h rfl).1 (hmap _)

theorem Inv.receive (h : u.Inv i x) : ∃ x', (u.act make i .receive).Inv i x' := by
  obtain ⟨oks, hoks⟩ := h.carried
  have hi : i < u.world.sessions.length := (List.getElem?_eq_some_iff.1 h.session_eq).1
  simp only [act]
  rcases World.receiveReply_cases h.session_eq with ⟨item, rest, hitems, heq⟩ | ⟨hitems, heq⟩
  · rw [heq]
    have hended : .ended ∉ u.answers := fun hended => by
      have := (h.ended hended).2
      simp [hitems] at this
    refine ⟨{ x with replies := { x.replies with items := rest } }, ?_, h.free, h.served, h.held, h.capacity_pos,
      ⟨oks, ?_⟩, h.fired, h.connected, fun h' => ?_, ?_⟩
    · simp [World.setSession, hi]
    · simpa [received, Received.item?, hitems] using hoks
    · simp [hended] at h'
    · refine List.pairwise_append.2 ⟨h.ordered, List.pairwise_singleton _ _, fun b hb a ha => ?_⟩
      rw [List.mem_singleton.1 ha]
      cases b with
      | pending => trivial
      | ended => exact absurd hb hended
      | item r =>
        cases r with
        | ok r => trivial
        | error s =>
          -- a failure that was received was the last item, but here is one more
          have hs : .error s ∈ u.received := List.mem_filterMap.2 ⟨_, hb, rfl⟩
          have := items_eq_nil_of_error_mem hoks hs
          simp [hitems] at this
  · rw [heq]
    refine ⟨x, h.session_eq, h.free, h.served, h.held, h.capacity_pos, ⟨oks, ?_⟩, h.fired, h.connected,
      fun hended => ?_, ?_⟩
    · cases x.isOpen <;> simpa [received, Received.item?, List.filterMap_cons] using hoks
    · rw [List.mem_append] at hended
      rcases hended with hended | hended
      · exact h.ended hended
      · cases hopen : x.isOpen with
        | true => simp [hopen] at hended
        | false => exact ⟨rfl, hitems⟩
    · refine List.pairwise_append.2 ⟨h.ordered, List.pairwise_singleton _ _, fun b hb a ha => ?_⟩
      rw [List.mem_singleton.1 ha]
      cases b with
      | pending => trivial
      | ended =>
        rw [(h.ended hb).1]
        rfl
      | item r =>
        cases r with
        | ok r => trivial
        | error s => cases x.isOpen <;> rfl

theorem Inv.act (h : u.Inv i x) (make : Maker V R σ) (a : ReadAct V) : ∃ x', (u.act make i a).Inv i x' := by
  cases a with
  | turn t =>
    simp only [Reading.act]
    cases hw : u.world.turn? make t with
    | none => exact ⟨x, h⟩
    | some w' =>
      obtain ⟨hfree, htokens, x', hsession, rfl | hx⟩ := World.turn?_session hw h.session_eq h.free
      · exact ⟨_, h.elsewhere hsession hfree htokens⟩
      · exact ⟨x', h.proceed hx hsession hfree⟩
  | store change => exact ⟨x, h.elsewhere h.session_eq h.free fun _ ht => ht⟩
  | cancel token =>
    refine ⟨x, h.elsewhere h.session_eq h.free fun t ht => ?_⟩
    rw [World.cancel, Tokens.isCancelled_cancel, ht, Bool.or_true]
  | receive => exact h.receive

theorem Inv.acts (h : u.Inv i x) (make : Maker V R σ) (as : List (ReadAct V)) :
    ∃ x', (u.acts make i as).Inv i x' := by
  induction as generalizing u x with
  | nil => exact ⟨x, h⟩
  | cons a as ih =>
    obtain ⟨x', h'⟩ := h.act make a
    exact ih h'

/-! ### What the reader gets -/

theorem carried_eq (h : u.Inv i x) : u.carried i = u.received ++ x.replies.items := by
  rw [Reading.carried, h.session_eq]
  rfl

private theorem items_prefix {tokens tokens' : Tokens} (h : x.Proceeds tokens x' tokens') :
    x.replies.items <+: x'.replies.items := by
  cases h with
  | send => exact List.prefix_append _ _
  | report => exact List.prefix_append _ _
  | _ => exact List.prefix_rfl

/-- What the stream has carried stays, in its order. -/
theorem Inv.carried_prefix_act (h : u.Inv i x) (a : ReadAct V) : u.carried i <+: (u.act make i a).carried i := by
  rw [carried_eq h]
  cases a with
  | turn t =>
    simp only [Reading.act]
    cases hw : u.world.turn? make t with
    | none => exact carried_eq h ▸ List.prefix_rfl
    | some w' =>
      obtain ⟨-, -, x', hsession, hx⟩ := World.turn?_session hw h.session_eq h.free
      rw [Option.getD_some, Reading.carried, hsession]
      refine (List.prefix_append_right_inj _).2 ?_
      rcases hx with rfl | hx
      · exact List.prefix_rfl
      · exact items_prefix hx
  | store change =>
    rw [← carried_eq h]
    exact List.prefix_rfl
  | cancel token =>
    rw [← carried_eq h]
    exact List.prefix_rfl
  | receive =>
    have hi : i < u.world.sessions.length := (List.getElem?_eq_some_iff.1 h.session_eq).1
    simp only [Reading.act, Reading.carried, received]
    rcases World.receiveReply_cases h.session_eq with ⟨item, rest, hitems, heq⟩ | ⟨hitems, heq⟩
    · rw [heq, hitems]
      simp [World.setSession, hi, Received.item?]
    · rw [heq, h.session_eq]
      cases x.isOpen <;> simp [Received.item?, List.filterMap_cons]

theorem Inv.carried_prefix (h : u.Inv i x) (as : List (ReadAct V)) :
    u.carried i <+: (u.acts make i as).carried i := by
  induction as generalizing u x with
  | nil => exact List.prefix_rfl
  | cons a as ih =>
    obtain ⟨x', h'⟩ := h.act make a
    exact (h.carried_prefix_act a).trans (ih h')

/-- Once the session has ended and its tasks are at rest, a reader that has taken every item is told the end. -/
theorem Inv.drained (h : u.Inv i x) {o : Outcome} (ho : x.phase.outcome? = some o) (hrest : u.IsAtRest make i)
    (hnone : (u.world.receiveReply i).1.item? = none) :
    x.phase = .finished o ∧ x.replies.items = [] ∧ (u.world.receiveReply i).1 = .ended := by
  rcases World.receiveReply_cases h.session_eq with ⟨item, rest, -, heq⟩ | ⟨hitems, heq⟩
  · simp [heq, Received.item?] at hnone
  · have hroom : x.replies.hasRoom = true := by simp [Queue.hasRoom, hitems, h.capacity_pos]
    have hphase : x.phase = .finished o := by
      cases hp : x.phase with
      | finished o' =>
        rw [hp] at ho
        rw [Option.some.inj ho]
      | reporting e =>
        -- a report goes on as soon as there is room
        have hadvance := hrest (.advance i) (by simp)
        simp [World.turn?, h.session_eq, World.advance?, hp, World.report?, h.held, hroom] at hadvance
      | _ => simp [hp, Phase.outcome?] at ho
    have hmonitor : x.monitored = false := by
      have hcancelled := h.fired (by rw [ho]; rfl)
      have hmonitor := hrest (.monitor i) (by simp)
      simpa [World.turn?, h.session_eq, World.monitor?, h.held, hcancelled] using hmonitor
    have hopen : x.isOpen = false := by rw [Session.isOpen, hphase, hmonitor]; rfl
    refine ⟨hphase, hitems, ?_⟩
    rw [heq, hopen]
    rfl

theorem of_error_mem {oks : List R} {p : Phase R} {s : Status}
    (h : (.error s : Item R) ∈ oks.map .ok ++ p.report) : ∃ e, p = .finished (.failed e) ∧ s = e.status := by
  rcases List.mem_append.1 h with h | h
  · simp at h
  · cases p with
    | finished o =>
      cases o with
      | done => simp [Phase.report, Outcome.report] at h
      | failed e => exact ⟨e, rfl, by simpa [Phase.report, Outcome.report] using h⟩
    | _ => simp [Phase.report] at h

end Reading

/-- A session that was just started to serve a watch. -/
def Session.serving (key : String) (token : Token) (maker capacity : Nat) : Session R :=
  { key, token, maker, served := true, phase := .starting, replies := { capacity }, monitored := true }

theorem Reading.inv_serving {w : World V R σ} (hwatchers : ∀ a ∈ w.watchers, a.session < w.sessions.length)
    (key : String) (token : Token) (maker : Nat) {capacity : Nat} (hcapacity : 0 < capacity) :
    ({ world := { w with sessions := w.sessions ++ [Session.serving key token maker capacity] } } :
      Reading V R σ).Inv w.sessions.length (Session.serving key token maker capacity) := by
  refine ⟨by simp, fun a ha => Nat.ne_of_lt (hwatchers a ha), rfl, rfl, hcapacity, ⟨[], rfl⟩, fun h => ?_, ?_,
    fun h => ?_, .nil⟩
  · simp [Session.serving, Phase.outcome?] at h
  · simp [Session.serving, Phase.outcome?]
  · simp at h

/-- The world after a watch was served, and the session that serves it. -/
theorem World.serve_ok {endpoint : Endpoint Q V R σ} {maker replyBuffer : Nat} {w : World V R σ} {request : Q}
    {ctx : CallContext} {key : String} (hkey : endpoint.keyOf request ctx = .ok key)
    (hbuffer : replyBuffer ≤ Queue.maxCapacity) :
    w.serve endpoint maker replyBuffer request ctx =
      .ok (.ok (w.sessions.length, { (w.newToken ctx.token).2 with
        sessions := w.sessions ++ [Session.serving key (w.newToken ctx.token).1 maker (max replyBuffer 1)] })) := by
  unfold World.serve World.openSession
  rw [Queue.make?_max hbuffer, hkey]
  simp only [World.modifySession, World.newToken, modify_concat]
  rfl

theorem World.serve_error {endpoint : Endpoint Q V R σ} {maker replyBuffer : Nat} {w : World V R σ} {request : Q}
    {ctx : CallContext} {status : Status} (hkey : endpoint.keyOf request ctx = .error status)
    (hbuffer : replyBuffer ≤ Queue.maxCapacity) :
    w.serve endpoint maker replyBuffer request ctx = .ok (.error status) := by
  unfold World.serve World.openSession
  rw [Queue.make?_max hbuffer, hkey]
  rfl

/-- The stream of a served watch: replies, and behind them the status of the session's failure if it fails, and then
the end.  What the stream has carried is not lost, and once the session has ended and its tasks are at rest, a reader
that has taken all of it is told the end, with the failure received if there was one. -/
theorem served_stream_shape (endpoint : Endpoint Q V R σ) (maker replyBuffer : Nat)
    (hbuffer : replyBuffer ≤ Queue.maxCapacity) (w : World V R σ)
    (hwatchers : ∀ a ∈ w.watchers, a.session < w.sessions.length) (request : Q) (ctx : CallContext) :
    (∀ status, endpoint.keyOf request ctx = .error status →
      w.serve endpoint maker replyBuffer request ctx = .ok (.error status)) ∧
    ∀ key, endpoint.keyOf request ctx = .ok key →
      ∃ i w', w.serve endpoint maker replyBuffer request ctx = .ok (.ok (i, w')) ∧ ∀ acts : List (ReadAct V),
        let start : Reading V R σ := { world := w' }
        let u := start.acts endpoint.make i acts
        ∃ x, u.world.sessions[i]? = some x ∧ u.received <+: u.carried i ∧
          (∃ oks : List R, u.carried i = oks.map .ok ++ x.phase.report) ∧
          (∀ before after, acts = before ++ after → (start.acts endpoint.make i before).carried i <+: u.carried i) ∧
          u.answers.Pairwise Received.Precedes ∧
          (∀ s, .error s ∈ u.received → ∃ e, x.phase = .finished (.failed e) ∧ s = e.status) ∧
          (.ended ∈ u.answers → x.isOpen = false ∧ u.received = u.carried i) ∧
          ∀ o, x.phase.outcome? = some o → u.IsAtRest endpoint.make i →
            (u.world.receiveReply i).1.item? = none →
            (u.world.receiveReply i).1 = .ended ∧ (∃ oks : List R, u.received = oks.map .ok ++ o.report) ∧
              ∀ s, o = .failed (.transform s) → u.received.getLast? = some (.error s) := by
  refine ⟨fun status hkey => World.serve_error hkey hbuffer,
    fun key hkey => ⟨_, _, World.serve_ok hkey hbuffer, fun acts => ?_⟩⟩
  · intro start u
    have hstart : start.Inv w.sessions.length
        (Session.serving key (w.newToken ctx.token).1 maker (max replyBuffer 1)) :=
      Reading.inv_serving (w := (w.newToken ctx.token).2) hwatchers key (w.newToken ctx.token).1 maker
        (Nat.lt_of_lt_of_le Nat.one_pos (Nat.le_max_right _ _))
    obtain ⟨x, hx⟩ := hstart.acts endpoint.make acts
    have hcarried := Reading.carried_eq hx
    obtain ⟨oks, hoks⟩ := hx.carried
    refine ⟨x, hx.session_eq, hcarried ▸ List.prefix_append _ _, ⟨oks, hcarried ▸ hoks⟩, fun before after hacts => ?_,
      hx.ordered, fun s hs => ?_, fun hended => ?_, fun o ho hrest hnone => ?_⟩
    · obtain ⟨y, hy⟩ := hstart.acts endpoint.make before
      have hsplit :
          u = (start.acts endpoint.make w.sessions.length before).acts endpoint.make w.sessions.length after := by
        simp only [u, Reading.acts, hacts, List.foldl_append]
      rw [hsplit]
      exact hy.carried_prefix after
    · have hmem : .error s ∈ oks.map .ok ++ x.phase.report := hoks ▸ List.mem_append_left _ hs
      exact Reading.of_error_mem hmem
    · obtain ⟨hopen, hitems⟩ := hx.ended hended
      exact ⟨hopen, by rw [hcarried, hitems, List.append_nil]⟩
    · obtain ⟨hphase, hitems, hend⟩ := hx.drained ho hrest hnone
      rw [hitems, List.append_nil, hphase] at hoks
      refine ⟨hend, ⟨oks, hoks⟩, fun s hs => ?_⟩
      rw [hoks, hs]
      simp [Phase.report, Outcome.report, WatchFailure.status]

/-- The queue is full when the endpoint refuses a value, and then the watch is cancelled: the reader gets the reply,
the refusal and the end. -/
theorem served_stream_shape_of_late_refusal :
    let refusal : Status := ⟨.invalidArgument, "three"⟩
    let endpoint : Endpoint String Nat Nat Unit :=
      ⟨fun key _ => .ok key, fun _ _ v => ((), if v = 3 then .error refusal else .ok (v, true))⟩
    let w : World Nat Nat Unit := { store := .scripted { onGet := .ok 1, onWatch := .ok 4 }, makers := [()] }
    let tell : Backend Nat → Backend Nat := fun b => b.modifyStream 0 (·.offer ⟨2, "k", .put 3⟩)
    ∃ w', w.serve endpoint 0 0 "k" { token := [7] } = .ok (.ok (0, w')) ∧
      let start : Reading Nat Nat Unit := { world := w' }
      let u := start.acts endpoint.make 0
        [.turn (.advance 0), .turn (.advance 0), .turn (.advance 0), .turn (.advance 0), .store tell,
          .turn (.advance 0), .cancel [7], .turn (.advance 0), .receive, .turn (.advance 0), .turn (.monitor 0),
          .receive]
      u.received.getLast? = some (.error refusal) ∧ (u.world.receiveReply 0).1 = .ended := by
  intro refusal endpoint w tell
  obtain ⟨i, w', hserve, h⟩ :=
    (served_stream_shape endpoint 0 0 (by decide) w (by decide) "k" { token := [7] }).2 "k" rfl
  have hserved : w.serve endpoint 0 0 "k" { token := [7] } =
      .ok (.ok (0, { w with tokens := { next := 1 }, sessions := [Session.serving "k" [0, 7] 0 1] })) := rfl
  have heq := hserve.symm.trans hserved
  simp only [Except.ok.injEq, Prod.mk.injEq] at heq
  obtain ⟨rfl, rfl⟩ := heq
  refine ⟨_, hserve, ?_⟩
  have hmain := h
    [.turn (.advance 0), .turn (.advance 0), .turn (.advance 0), .turn (.advance 0), .store tell,
      .turn (.advance 0), .cancel [7], .turn (.advance 0), .receive, .turn (.advance 0), .turn (.monitor 0), .receive]
  dsimp only at hmain ⊢
  generalize hu : (Reading.acts _ _ _ _ : Reading Nat Nat Unit) = u at hmain ⊢
  obtain ⟨x, hx, -, -, -, -, -, -, hend⟩ := hmain
  have houtcome : u.world.sessions[0]?.bind (·.phase.outcome?) = some (.failed (.transform refusal)) := by
    rw [← hu]
    decide +kernel
  rw [hx, Option.bind_some] at houtcome
  have hwaits : [Turn.advance 0, .abandon 0, .monitor 0].all fun t => (u.world.turn? endpoint.make t).isNone := by
    rw [← hu]
    decide +kernel
  have hnone : (u.world.receiveReply 0).1.item?.isNone = true := by
    rw [← hu]
    decide +kernel
  have hrest : u.IsAtRest endpoint.make 0 := fun t ht => Option.isNone_iff_eq_none.1 (List.all_eq_true.1 hwaits t ht)
  obtain ⟨hended, -, hlast⟩ := hend _ houtcome hrest (Option.isNone_iff_eq_none.1 hnone)
  exact ⟨hlast refusal rfl, hended⟩

end ResourceWatch

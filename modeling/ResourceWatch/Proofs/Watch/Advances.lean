import ResourceWatch.Watch.Calls

/-!
# What a session can do

`World.Advances` lists the steps of a session, each with what it met and the world that it leaves; `World.Waits` lists
the states in which it has to wait.  Every later fact about sessions is read off these two, and every fact about turns
off `World.Turned`, which lists those of all tasks.

`Session.Proceeds` is the same seen from the queue of replies: what the turns of a session's own tasks do to the
session and to the tokens.  A turn of any other task leaves the session as it is (`World.turn?_session`).
-/

namespace ResourceWatch

variable {V R σ : Type}

theorem modify_concat {α : Type} (xs : List α) (a : α) (f : α → α) :
    (xs ++ [a]).modify xs.length f = xs ++ [f a] := by
  induction xs with
  | nil => rfl
  | cons b xs ih => exact congrArg (b :: ·) ih

/-- The reply that waits for room, and what comes behind it. -/
def Phase.sends? : Phase R → Option (R × Phase R)
  | .sendingSnapshot r => some (r, .subscribing)
  | .sending id r => some (r, .awaiting id)
  | _ => none

/-- Whether the session has been started and has not come to an end. -/
def Phase.isAtWork : Phase R → Bool
  | .starting | .reading | .sendingSnapshot _ | .subscribing | .awaiting _ | .sending _ _ => true
  | .idle | .reporting _ | .finished _ | .crashed => false

namespace World

variable {make : Maker V R σ} {w w' : World V R σ} {i : Nat} {x : Session R}

/-! ### The steps of a session -/

inductive Advances (make : Maker V R σ) (w : World V R σ) (i : Nat) (x : Session R) : World V R σ → Prop where
  | call (phase : x.phase = .starting) :
    Advances make w i x ({ w with store := w.store.call x.key }.setSession i { x with phase := .reading })
  | unread {f : StoreFailure} (phase : x.phase = .reading) (answer : w.store.answer? x.key = some (.error f)) :
    Advances make w i x (w.endSession i x (.failed (.read x.key f)))
  | read {v : V} {st st' : σ} {r : R} {changed : Bool} (phase : x.phase = .reading)
    (answer : w.store.answer? x.key = some (.ok v)) (maker : w.makers[x.maker]? = some st)
    (made : make st x.key v = (st', .ok (r, changed))) :
    Advances make w i x
      ({ w with makers := w.makers.set x.maker st' }.setSession i { x with phase := .sendingSnapshot r })
  | unmade {v : V} {st st' : σ} {status : Status} (phase : x.phase = .reading)
    (answer : w.store.answer? x.key = some (.ok v)) (maker : w.makers[x.maker]? = some st)
    (made : make st x.key v = (st', .error status)) :
    Advances make w i x ({ w with makers := w.makers.set x.maker st' }.endSession i x (.failed (.transform status)))
  | send {r : R} {next : Phase R} (phase : x.phase.sends? = some (r, next)) (held : x.replies.receiving = true)
    (room : x.replies.hasRoom = true) : Advances make w i x (w.setSession i (x.send (.ok r) next))
  | disconnect {r : R} {next : Phase R} (phase : x.phase.sends? = some (r, next))
    (gone : x.replies.receiving = false) : Advances make w i x (w.endSession i x (.failed .disconnected))
  | subscribe {id : Nat} {store : Backend V} (phase : x.phase = .subscribing)
    (granted : w.store.watch x.key x.token = (.ok id, store)) :
    Advances make w i x ({ w with store }.setSession i { x with phase := .awaiting id })
  | refused {f : StoreFailure} {store : Backend V} (phase : x.phase = .subscribing)
    (granted : w.store.watch x.key x.token = (.error (.refused f), store)) :
    Advances make w i x ({ w with store }.endSession i x (.failed (.subscribe x.key f)))
  | crash {store : Backend V} (phase : x.phase = .subscribing)
    (granted : w.store.watch x.key x.token = (.error .tooLarge, store)) :
    Advances make w i x ({ w with store }.crashSession i x)
  | value {id : Nat} {e : Event V} {u : V} {store : Backend V} {st st' : σ} {r : R} {changed : Bool}
    (phase : x.phase = .awaiting id) (got : w.store.receive id = (.item e, store)) (told : e.kind.value? = some u)
    (maker : w.makers[x.maker]? = some st) (made : make st x.key u = (st', .ok (r, changed))) :
    Advances make w i x ({ w with store, makers := w.makers.set x.maker st' }.setSession i
      { x with phase := if changed then .sending id r else .awaiting id })
  | unmadeValue {id : Nat} {e : Event V} {u : V} {store : Backend V} {st st' : σ} {status : Status}
    (phase : x.phase = .awaiting id) (got : w.store.receive id = (.item e, store)) (told : e.kind.value? = some u)
    (maker : w.makers[x.maker]? = some st) (made : make st x.key u = (st', .error status)) :
    Advances make w i x
      ({ w with store, makers := w.makers.set x.maker st' }.endSession i x (.failed (.transform status)))
  | failure {id : Nat} {e : Event V} {text : String} {store : Backend V} (phase : x.phase = .awaiting id)
    (got : w.store.receive id = (.item e, store)) (told : e.kind = .error text) :
    Advances make w i x ({ w with store }.endSession i x (.failed (.event x.key e.id text)))
  | ended {id : Nat} {store : Backend V} (phase : x.phase = .awaiting id)
    (got : w.store.receive id = (.ended, store)) : Advances make w i x (w.endSession i x .done)
  | report {e : WatchFailure} (phase : x.phase = .reporting e) (held : x.replies.receiving = true)
    (room : x.replies.hasRoom = true) :
    Advances make w i x (w.setSession i (x.send (.error e.status) (.finished (.failed e))))
  | unreported {e : WatchFailure} (phase : x.phase = .reporting e) (gone : x.replies.receiving = false) :
    Advances make w i x (w.setSession i { x with phase := .finished (.failed e) })

private theorem send?_cases {r : R} {next : Phase R} (hp : x.phase.sends? = some (r, next))
    (h : w.send? i x (.ok r) next = some w') : Advances make w i x w' := by
  unfold send? at h
  cases hr : x.replies.receiving with
  | false =>
    rw [if_pos (by simp [hr]), Option.some.injEq] at h
    subst h
    exact .disconnect hp hr
  | true =>
    rw [if_neg (by simp [hr])] at h
    split at h
    · rename_i hroom
      rw [Option.some.injEq] at h
      subst h
      exact .send hp hr hroom
    · simp at h

private theorem transform?_cases {v : V} {next : R → Bool → Phase R}
    (h : transform? make w i x v next = some w') :
    ∃ st st', w.makers[x.maker]? = some st ∧
      ((∃ r changed, make st x.key v = (st', .ok (r, changed)) ∧
          w' = { w with makers := w.makers.set x.maker st' }.setSession i { x with phase := next r changed }) ∨
        ∃ status, make st x.key v = (st', .error status) ∧
          w' = { w with makers := w.makers.set x.maker st' }.endSession i x (.failed (.transform status))) := by
  unfold transform? at h
  cases hm : w.makers[x.maker]? with
  | none => simp [hm] at h
  | some st =>
    rcases hmade : make st x.key v with ⟨st', made⟩
    refine ⟨st, st', rfl, ?_⟩
    cases made with
    | error status =>
      simp only [hm, hmade, Option.bind_eq_bind, Option.bind_some, Option.pure_def, Option.some.injEq] at h
      exact Or.inr ⟨status, hmade, h.symm⟩
    | ok rc =>
      simp only [hm, hmade, Option.bind_eq_bind, Option.bind_some, Option.pure_def, Option.some.injEq] at h
      exact Or.inl ⟨rc.1, rc.2, hmade, h.symm⟩

theorem advances_of_advance? (h : advance? make w i x = some w') : Advances make w i x w' := by
  unfold advance? at h
  split at h
  · simp at h
  · simp at h
  · simp at h
  · rename_i hp
    rw [Option.some.injEq] at h
    subst h
    exact .call hp
  · rename_i hp
    split at h
    · simp at h
    · rename_i f hf
      rw [Option.some.injEq] at h
      subst h
      exact .unread hp hf
    · rename_i v hv
      obtain ⟨st, st', hm, ⟨r, changed, hmade, rfl⟩ | ⟨status, hmade, rfl⟩⟩ := transform?_cases h
      · exact .read hp hv hm hmade
      · exact .unmade hp hv hm hmade
  · rename_i r hp
    exact send?_cases (by rw [hp]; rfl) h
  · rename_i hp
    rw [Option.some.injEq] at h
    subst h
    unfold World.subscribe
    rcases hgranted : w.store.watch x.key x.token with ⟨granted, store⟩
    cases granted with
    | ok id => exact .subscribe hp hgranted
    | error e =>
      cases e with
      | refused f => exact .refused hp hgranted
      | tooLarge => exact .crash hp hgranted
  · rename_i id hp
    unfold awaitEvent? at h
    rcases hgot : w.store.receive id with ⟨got, store⟩
    simp only [hgot] at h
    cases got with
    | pending => simp at h
    | ended =>
      rw [Option.some.injEq] at h
      subst h
      exact .ended hp hgot
    | item e =>
      change onEvent? make { w with store } i x id e = some w' at h
      cases hu : e.kind.value? with
      | some u =>
        rw [onEvent?_of_value _ hu] at h
        obtain ⟨st, st', hm, ⟨r, changed, hmade, rfl⟩ | ⟨status, hmade, rfl⟩⟩ := transform?_cases h
        · exact .value hp hgot hu hm hmade
        · exact .unmadeValue hp hgot hu hm hmade
      | none =>
        obtain ⟨text, hk⟩ : ∃ text, e.kind = .error text := by
          cases hk : e.kind with
          | put v => simp [hk, EventKind.value?] at hu
          | delete v => simp [hk, EventKind.value?] at hu
          | error text => exact ⟨text, rfl⟩
        simp only [onEvent?, hk, Option.some.injEq] at h
        subst h
        exact .failure hp hgot hk
  · rename_i id r hp
    exact send?_cases (by rw [hp]; rfl) h
  · rename_i e hp
    unfold report? at h
    cases hr : x.replies.receiving with
    | false =>
      simp only [hr, Bool.not_false, if_true, Option.some.injEq] at h
      subst h
      exact .unreported hp hr
    | true =>
      simp only [hr, Bool.not_true, Bool.false_eq_true, if_false] at h
      split at h
      · rename_i hroom
        rw [Option.some.injEq] at h
        subst h
        exact .report hp hr hroom
      · simp at h

/-- Where a session has to wait: for the store's answer, for room, or for an event; or it has no more to do. -/
inductive Waits (w : World V R σ) (x : Session R) : Prop where
  | unread (phase : x.phase = .reading) (answer : w.store.answer? x.key = none)
  | full {r : R} {next : Phase R} (phase : x.phase.sends? = some (r, next)) (room : x.replies.hasRoom = false)
  | quiet {id : Nat} (phase : x.phase = .awaiting id) (got : (w.store.receive id).1 = .pending)
  | fullReport {e : WatchFailure} (phase : x.phase = .reporting e) (room : x.replies.hasRoom = false)
  | idle (phase : x.phase = .idle)
  | finished {o : Outcome} (phase : x.phase = .finished o)
  | crashed (phase : x.phase = .crashed)

private theorem transform?_isSome {v : V} {next : R → Bool → Phase R} {st : σ} (hm : w.makers[x.maker]? = some st) :
    transform? make w i x v next ≠ none := by
  unfold transform?
  rcases hmade : make st x.key v with ⟨st', made⟩
  cases made <;> simp [hm, hmade]

private theorem room_of_send?_eq_none {item : Item R} {next : Phase R} (h : w.send? i x item next = none) :
    x.replies.hasRoom = false := by
  unfold send? at h
  split at h
  · simp at h
  · split at h
    · simp at h
    · rename_i hroom
      simpa using hroom

theorem waits_of_advance?_eq_none {st : σ} (hm : w.makers[x.maker]? = some st)
    (h : advance? make w i x = none) : w.Waits x := by
  unfold advance? at h
  split at h
  · rename_i hp
    exact .idle hp
  · rename_i hp
    exact .finished hp
  · rename_i hp
    exact .crashed hp
  · simp at h
  · rename_i hp
    split at h
    · rename_i hanswer
      exact .unread hp hanswer
    · simp at h
    · exact absurd h (transform?_isSome hm)
  · rename_i r hp
    exact .full (by rw [hp]; rfl) (room_of_send?_eq_none h)
  · simp at h
  · rename_i id hp
    refine .quiet hp ?_
    unfold awaitEvent? at h
    rcases hgot : w.store.receive id with ⟨got, store⟩
    cases got with
    | pending => rfl
    | ended => simp [hgot] at h
    | item e =>
      simp only [hgot] at h
      change onEvent? make { w with store } i x id e = none at h
      cases hu : e.kind.value? with
      | some u =>
        rw [onEvent?_of_value _ hu] at h
        exact absurd h (transform?_isSome hm)
      | none => cases hk : e.kind <;> simp [onEvent?, hk, EventKind.value?] at h hu
  · rename_i id r hp
    exact .full (by rw [hp]; rfl) (room_of_send?_eq_none h)
  · rename_i e hp
    refine .fullReport hp ?_
    unfold report? at h
    split at h
    · simp at h
    · split at h
      · simp at h
      · rename_i hroom
        simpa using hroom

/-! ### The turns of all tasks -/

inductive Turned (make : Maker V R σ) (w : World V R σ) : Turn → World V R σ → Prop where
  | flush {id : Nat} {store : Backend V} (flushed : w.store.flush? id = some store) :
    Turned make w (.flush id) { w with store }
  | release {id : Nat} {store : Backend V} (released : w.store.release? w.tokens id = some store) :
    Turned make w (.release id) { w with store }
  | advance {i : Nat} {x : Session R} {w' : World V R σ} (session : w.sessions[i]? = some x)
    (advances : Advances make w i x w') : Turned make w (.advance i) w'
  | abandon {i : Nat} {x : Session R} (session : w.sessions[i]? = some x) (abandonable : x.phase.isAbandonable = true)
    (cancelled : w.tokens.isCancelled x.token = true) : Turned make w (.abandon i) (w.endSession i x .done)
  /-- The monitor cancels a session whose reader is gone. -/
  | desert {i : Nat} {x : Session R} (session : w.sessions[i]? = some x) (monitored : x.monitored = true)
    (gone : x.replies.receiving = false) :
    Turned make w (.monitor i)
      ({ w with tokens := w.tokens.cancel x.token }.setSession i { x with monitored := false })
  | dismiss {i : Nat} {x : Session R} (session : w.sessions[i]? = some x) (monitored : x.monitored = true)
    (cancelled : w.tokens.isCancelled x.token = true) :
    Turned make w (.monitor i) (w.setSession i { x with monitored := false })
  | pull {k : Nat} {a : Attachment R} {x : Session R} {watcher : Watcher R} {source : Queue (Item R)}
    (attached : w.watchers[k]? = some a) (session : w.sessions[a.session]? = some x)
    (pulled : a.watcher.pull? x.replies x.isOpen = some (watcher, source)) :
    Turned make w (.pull k) (w.setWatched k a x watcher source)
  | quit {k : Nat} {a : Attachment R} {x : Session R} (attached : w.watchers[k]? = some a)
    (session : w.sessions[a.session]? = some x) (running : a.watcher.finished = false)
    (cancelled : w.tokens.isCancelled a.watcher.token = true) :
    Turned make w (.quit k) (w.setWatched k a x a.watcher.stop x.replies.drop)

private theorem turned_of_monitor? (hx : w.sessions[i]? = some x) (h : w.monitor? i x = some w') :
    Turned make w (.monitor i) w' := by
  unfold monitor? at h
  cases hmonitored : x.monitored with
  | false => simp [hmonitored] at h
  | true =>
    simp only [hmonitored, Bool.not_true, Bool.false_eq_true, if_false] at h
    split at h
    · rename_i hgone
      rw [Option.some.injEq] at h
      subst h
      exact .desert hx hmonitored (by simpa using hgone)
    · split at h
      · rename_i hcancelled
        rw [Option.some.injEq] at h
        subst h
        exact .dismiss hx hmonitored hcancelled
      · simp at h

theorem turned_of_turn? {t : Turn} (h : w.turn? make t = some w') : Turned make w t w' := by
  cases t with
  | flush id =>
    simp only [turn?, Option.map_eq_some_iff] at h
    obtain ⟨store, hflushed, rfl⟩ := h
    exact .flush hflushed
  | release id =>
    simp only [turn?, Option.map_eq_some_iff] at h
    obtain ⟨store, hreleased, rfl⟩ := h
    exact .release hreleased
  | advance i =>
    simp only [turn?, Option.bind_eq_some_iff] at h
    obtain ⟨x, hx, h⟩ := h
    exact .advance hx (advances_of_advance? h)
  | abandon i =>
    simp only [turn?, Option.bind_eq_some_iff, abandon?] at h
    obtain ⟨x, hx, h⟩ := h
    split at h
    · rename_i hcancelled
      rw [Bool.and_eq_true] at hcancelled
      rw [Option.some.injEq] at h
      subst h
      exact .abandon hx hcancelled.1 hcancelled.2
    · simp at h
  | monitor i =>
    simp only [turn?, Option.bind_eq_some_iff] at h
    obtain ⟨x, hx, h⟩ := h
    exact turned_of_monitor? hx h
  | pull k =>
    simp only [turn?, Option.bind_eq_bind, Option.bind_eq_some_iff, Option.pure_def, Option.some.injEq] at h
    obtain ⟨a, ha, x, hx, ⟨watcher, source⟩, hpulled, rfl⟩ := h
    exact .pull ha hx hpulled
  | quit k =>
    simp only [turn?, Option.bind_eq_bind, Option.bind_eq_some_iff, Option.pure_def, Option.some.injEq] at h
    obtain ⟨a, ha, x, hx, ⟨watcher, source⟩, hquit, rfl⟩ := h
    unfold Watcher.quit? at hquit
    split at hquit
    · simp at hquit
    · rename_i hcancelled
      simp only [Bool.or_eq_true, Bool.not_eq_true', not_or, Bool.not_eq_true, Bool.not_eq_false] at hcancelled
      simp only [Option.some.injEq, Prod.mk.injEq] at hquit
      obtain ⟨rfl, rfl⟩ := hquit
      exact .quit ha hx hcancelled.1 hcancelled.2

/-! ### A session and its queue -/

end World

/-- What the turns of a session's own tasks do to the session and to the tokens. -/
inductive Session.Proceeds (x : Session R) (tokens : Tokens) : Session R → Tokens → Prop where
  | work {p : Phase R} (working : x.phase.isAtWork = true) (ahead : p.outcome? = none) :
    Proceeds x tokens { x with phase := p } tokens
  | send {r : R} {p : Phase R} (working : x.phase.isAtWork = true) (ahead : p.outcome? = none) :
    Proceeds x tokens (x.send (.ok r) p) tokens
  | finish {o : Outcome} (working : x.phase.isAtWork = true)
    (cause : o = .failed .disconnected → x.replies.receiving = false) :
    Proceeds x tokens { x with phase := x.afterEnd o } (tokens.cancel x.token)
  | crash (working : x.phase.isAtWork = true) : Proceeds x tokens { x with phase := .crashed } (tokens.cancel x.token)
  | report {e : WatchFailure} (phase : x.phase = .reporting e) :
    Proceeds x tokens (x.send (.error e.status) (.finished (.failed e))) tokens
  | unreported {e : WatchFailure} (phase : x.phase = .reporting e) (gone : x.replies.receiving = false) :
    Proceeds x tokens { x with phase := .finished (.failed e) } tokens
  | desert (gone : x.replies.receiving = false) :
    Proceeds x tokens { x with monitored := false } (tokens.cancel x.token)
  | dismiss : Proceeds x tokens { x with monitored := false } tokens

theorem Phase.outcome?_of_isAtWork {p : Phase R} (h : p.isAtWork = true) : p.outcome? = none := by
  cases p <;> simp [isAtWork, outcome?] at h ⊢

theorem Phase.isOpen_of_isAtWork {p : Phase R} (h : p.isAtWork = true) : p.isOpen = true := by
  cases p <;> simp [isAtWork, isOpen] at h ⊢

/-- What is cancelled stays so. -/
theorem Session.Proceeds.isCancelled {x x' : Session R} {tokens tokens' : Tokens}
    (h : x.Proceeds tokens x' tokens') {t : Token} (ht : tokens.isCancelled t = true) :
    tokens'.isCancelled t = true := by
  cases h with
  | finish => rw [Tokens.isCancelled_cancel, ht, Bool.or_true]
  | crash => rw [Tokens.isCancelled_cancel, ht, Bool.or_true]
  | desert => rw [Tokens.isCancelled_cancel, ht, Bool.or_true]
  | _ => exact ht

namespace World

variable {make : Maker V R σ} {w w' : World V R σ} {i : Nat} {x : Session R}

theorem isAtWork_of_sends? {p next : Phase R} {r : R} (h : p.sends? = some (r, next)) :
    p.isAtWork = true ∧ next.isAtWork = true := by
  unfold Phase.sends? at h
  split at h
  · simp only [Option.some.injEq, Prod.mk.injEq] at h
    obtain ⟨-, rfl⟩ := h
    exact ⟨rfl, rfl⟩
  · simp only [Option.some.injEq, Prod.mk.injEq] at h
    obtain ⟨-, rfl⟩ := h
    exact ⟨rfl, rfl⟩
  · simp at h

theorem isAtWork_of_isAbandonable {p : Phase R} (h : p.isAbandonable = true) : p.isAtWork = true := by
  cases p <;> simp [Phase.isAbandonable, Phase.isAtWork] at h ⊢

/-- A step of a session changes no other session and no watcher. -/
theorem Advances.proceeds (h : Advances make w i x w') :
    ∃ x', x.Proceeds w.tokens x' w'.tokens ∧ w'.sessions = w.sessions.set i x' ∧ w'.watchers = w.watchers := by
  cases h with
  | call hp => exact ⟨_, .work (by rw [hp]; rfl) rfl, rfl, rfl⟩
  | unread hp => exact ⟨_, .finish (by rw [hp]; rfl) (fun h => by simp at h), rfl, rfl⟩
  | read hp => exact ⟨_, .work (by rw [hp]; rfl) rfl, rfl, rfl⟩
  | unmade hp => exact ⟨_, .finish (by rw [hp]; rfl) (fun h => by simp at h), rfl, rfl⟩
  | send hp =>
    have hnext := Phase.outcome?_of_isAtWork (isAtWork_of_sends? hp).2
    exact ⟨_, .send (isAtWork_of_sends? hp).1 hnext, rfl, rfl⟩
  | disconnect hp hgone => exact ⟨_, .finish (isAtWork_of_sends? hp).1 fun _ => hgone, rfl, rfl⟩
  | subscribe hp => exact ⟨_, .work (by rw [hp]; rfl) rfl, rfl, rfl⟩
  | refused hp => exact ⟨_, .finish (by rw [hp]; rfl) (fun h => by simp at h), rfl, rfl⟩
  | crash hp => exact ⟨_, .crash (by rw [hp]; rfl), rfl, rfl⟩
  | @value _ _ _ _ _ _ _ changed hp =>
    exact ⟨_, .work (by rw [hp]; rfl) (by cases changed <;> rfl), rfl, rfl⟩
  | unmadeValue hp => exact ⟨_, .finish (by rw [hp]; rfl) (fun h => by simp at h), rfl, rfl⟩
  | failure hp => exact ⟨_, .finish (by rw [hp]; rfl) (fun h => by simp at h), rfl, rfl⟩
  | ended hp => exact ⟨_, .finish (by rw [hp]; rfl) (fun h => by simp at h), rfl, rfl⟩
  | report hp => exact ⟨_, .report hp, rfl, rfl⟩
  | unreported hp hgone => exact ⟨_, .unreported hp hgone, rfl, rfl⟩

theorem Advances.length_makers (h : Advances make w i x w') : w'.makers.length = w.makers.length := by
  cases h <;> simp [setSession, endSession, crashSession]

/-- A step leaves the session at work, ends it, or fails to make its event queue; the first leaves the tokens
alone. -/
theorem Advances.phase_cases (h : Advances make w i x w') (hworking : x.phase.isAtWork = true) :
    ∃ x', w'.sessions = w.sessions.set i x' ∧
      ((x'.phase.isAtWork = true ∧ w'.tokens = w.tokens) ∨ (∃ o, x' = { x with phase := x.afterEnd o }) ∨
        x.phase = .subscribing ∧ (w.store.watch x.key x.token).1 = .error .tooLarge) := by
  cases h with
  | call => exact ⟨_, rfl, Or.inl ⟨rfl, rfl⟩⟩
  | unread => exact ⟨_, rfl, Or.inr (Or.inl ⟨_, rfl⟩)⟩
  | read => exact ⟨_, rfl, Or.inl ⟨rfl, rfl⟩⟩
  | unmade => exact ⟨_, rfl, Or.inr (Or.inl ⟨_, rfl⟩)⟩
  | send hp => exact ⟨_, rfl, Or.inl ⟨(isAtWork_of_sends? hp).2, rfl⟩⟩
  | disconnect => exact ⟨_, rfl, Or.inr (Or.inl ⟨_, rfl⟩)⟩
  | subscribe => exact ⟨_, rfl, Or.inl ⟨rfl, rfl⟩⟩
  | refused => exact ⟨_, rfl, Or.inr (Or.inl ⟨_, rfl⟩)⟩
  | crash hp hgranted => exact ⟨_, rfl, Or.inr (Or.inr ⟨hp, by rw [hgranted]⟩)⟩
  | @value _ _ _ _ _ _ _ changed => exact ⟨_, rfl, Or.inl ⟨by cases changed <;> rfl, rfl⟩⟩
  | unmadeValue => exact ⟨_, rfl, Or.inr (Or.inl ⟨_, rfl⟩)⟩
  | failure => exact ⟨_, rfl, Or.inr (Or.inl ⟨_, rfl⟩)⟩
  | ended => exact ⟨_, rfl, Or.inr (Or.inl ⟨_, rfl⟩)⟩
  | report hp => simp [hp, Phase.isAtWork] at hworking
  | unreported hp => simp [hp, Phase.isAtWork] at hworking

private theorem session_of_set {y x' : Session R} {j : Nat} (hx : w.sessions[i]? = some x)
    (hy : w.sessions[j]? = some y) (hs : w'.sessions = w.sessions.set j x') :
    w'.sessions[i]? = if j = i then some x' else some x := by
  have hj : j < w.sessions.length := (List.getElem?_eq_some_iff.1 hy).1
  by_cases hji : j = i
  · subst hji
    rw [hs, if_pos rfl, List.getElem?_set_self hj]
  · rw [hs, if_neg hji, List.getElem?_set_ne hji, hx]

/-- A turn is one of the session's own tasks, or it leaves the session as it is, unless a watcher reads its
replies. -/
theorem turn?_session {t : Turn} (h : w.turn? make t = some w') (hx : w.sessions[i]? = some x)
    (hfree : ∀ a ∈ w.watchers, a.session ≠ i) :
    (∀ a ∈ w'.watchers, a.session ≠ i) ∧ (∀ t, w.tokens.isCancelled t = true → w'.tokens.isCancelled t = true) ∧
      ∃ x', w'.sessions[i]? = some x' ∧ (x' = x ∨ x.Proceeds w.tokens x' w'.tokens) := by
  have hown : ∀ {j : Nat} {y y' : Session R}, w.sessions[j]? = some y → y.Proceeds w.tokens y' w'.tokens →
      w'.sessions = w.sessions.set j y' → w'.watchers = w.watchers →
      (∀ a ∈ w'.watchers, a.session ≠ i) ∧ (∀ t, w.tokens.isCancelled t = true → w'.tokens.isCancelled t = true) ∧
        ∃ x', w'.sessions[i]? = some x' ∧ (x' = x ∨ x.Proceeds w.tokens x' w'.tokens) := by
    intro j y y' hy hproceeds hsessions hwatchers
    refine ⟨hwatchers ▸ hfree, fun t => hproceeds.isCancelled, ?_⟩
    rw [session_of_set hx hy hsessions]
    split
    · rename_i hj
      subst hj
      obtain rfl : y = x := Option.some.inj (hy.symm.trans hx)
      exact ⟨y', rfl, Or.inr hproceeds⟩
    · exact ⟨x, rfl, Or.inl rfl⟩
  have hwatched : ∀ {k : Nat} {a : Attachment R} {y : Session R} {watcher : Watcher R} {source : Queue (Item R)},
      w.watchers[k]? = some a → w' = w.setWatched k a y watcher source →
      (∀ a ∈ w'.watchers, a.session ≠ i) ∧ (∀ t, w.tokens.isCancelled t = true → w'.tokens.isCancelled t = true) ∧
        ∃ x', w'.sessions[i]? = some x' ∧ (x' = x ∨ x.Proceeds w.tokens x' w'.tokens) := by
    intro k a y watcher source ha hw
    have hne : a.session ≠ i := hfree a (List.mem_of_getElem? ha)
    subst hw
    refine ⟨fun b hb => ?_, fun _ ht => ht, x, ?_, Or.inl rfl⟩
    · rcases List.mem_or_eq_of_mem_set hb with hb | rfl
      · exact hfree b hb
      · exact hne
    · simp only [setWatched, setSession, List.getElem?_set, if_neg hne]
      exact hx
  cases turned_of_turn? h with
  | flush => exact ⟨hfree, fun _ ht => ht, x, hx, Or.inl rfl⟩
  | release => exact ⟨hfree, fun _ ht => ht, x, hx, Or.inl rfl⟩
  | advance hy hadvances =>
    obtain ⟨y', hproceeds, hsessions, hwatchers⟩ := hadvances.proceeds
    exact hown hy hproceeds hsessions hwatchers
  | abandon hy habandonable =>
    exact hown hy (.finish (isAtWork_of_isAbandonable habandonable) (fun h => by simp at h)) rfl rfl
  | desert hy _ hgone => exact hown hy (.desert hgone) rfl rfl
  | dismiss hy => exact hown hy .dismiss rfl rfl
  | pull ha => exact hwatched ha rfl
  | quit ha => exact hwatched ha rfl

end World

end ResourceWatch

import ResourceWatch.Watch.Watcher

/-!
# Receiving through a watcher

A viewing is a watcher on its stream together with what was seen of both: the items that the stream has had, the
replies that the consumer got, and the failure that the receive task met.  The receive task, the consumer, the feeder
of the stream and cancellation take turns in any order.

`Viewing.Standing` tells the four states of the receive task: at work, or stopped by a failure, by the end of the
stream, or by cancellation.  In each of them what has been passed on to the consumer's queue is the beginning of the
stream, so the consumer gets the replies before the first failure, in order and each once (`watcher_faithful`).  A
cancelled task can stop in every one of them, and the consumer then reads out its queue and is told the end.
-/

namespace ResourceWatch

variable {R : Type}

/-! ### Streams of items -/

/-- The replies of a stream that come before its first failure. -/
def repliesBefore : List (Item R) → List R
  | .ok r :: items => r :: repliesBefore items
  | _ => []

def firstFailure? : List (Item R) → Option Status
  | [] => none
  | .ok _ :: items => firstFailure? items
  | .error s :: _ => some s

theorem repliesBefore_append (rs : List R) (items : List (Item R)) :
    repliesBefore (rs.map .ok ++ items) = rs ++ repliesBefore items := by
  induction rs with
  | nil => rfl
  | cons r rs ih =>
    rw [List.map_cons, List.cons_append, List.cons_append, repliesBefore, ih]

theorem firstFailure?_append (rs : List R) (items : List (Item R)) :
    firstFailure? (rs.map .ok ++ items) = firstFailure? items := by
  induction rs with
  | nil => rfl
  | cons r rs ih => exact ih

/-- The consumer is told that nothing more will come. -/
def Told.isFinal : Told R → Bool
  | .failed _ | .ended => true
  | _ => false

/-! ### The steps of the receive task -/

namespace Watcher

/-- What one step of the receive task does to the watcher and to the stream that it reads. -/
inductive Pulls (w : Watcher R) (source : Queue (Item R)) (open_ : Bool) : Watcher R → Queue (Item R) → Prop where
  | deliver {r : R} (held : w.held = some r) (read : w.queue.receiving = true) (room : w.queue.hasRoom = true) :
    Pulls w source open_ { w with held := none, queue := w.queue.push r } source
  | desert {r : R} (held : w.held = some r) (read : w.queue.receiving = false) :
    Pulls w source open_ w.stop source.drop
  | take {r : R} {rest : List (Item R)} (held : w.held = none) (items : source.items = .ok r :: rest) :
    Pulls w source open_ { w with held := some r } { source with items := rest }
  | fail {s : Status} {rest : List (Item R)} (held : w.held = none) (items : source.items = .error s :: rest) :
    Pulls w source open_ { w with error := some s }.stop source.drop
  | finish (held : w.held = none) (items : source.items = []) (closed : open_ = false) :
    Pulls w source open_ w.stop source.drop

theorem pulls_of_pull? {w w' : Watcher R} {source source' : Queue (Item R)} {open_ : Bool}
    (h : w.pull? source open_ = some (w', source')) : w.finished = false ∧ w.Pulls source open_ w' source' := by
  unfold pull? at h
  split at h
  · simp at h
  · rename_i hf
    have hrunning : w.finished = false := by simpa using hf
    refine ⟨hrunning, ?_⟩
    cases hheld : w.held with
    | some r =>
      simp only [hheld, deliver?] at h
      cases hread : w.queue.receiving with
      | false =>
        simp only [hread, Bool.not_false, if_true, Option.map_some, Option.some.injEq, Prod.mk.injEq] at h
        obtain ⟨rfl, rfl⟩ := h
        exact .desert hheld hread
      | true =>
        cases hroom : w.queue.hasRoom with
        | false => simp [hread, hroom] at h
        | true =>
          simp only [hread, hroom, Bool.not_true, Bool.false_eq_true, if_false, if_true, Option.map_some,
            Option.some.injEq, Prod.mk.injEq, sourceAfter, if_neg hf] at h
          obtain ⟨rfl, rfl⟩ := h
          exact .deliver hheld hread hroom
    | none =>
      simp only [hheld, Queue.receive] at h
      cases hitems : source.items with
      | nil =>
        cases open_ with
        | true => simp [hitems, accept?] at h
        | false =>
          simp only [hitems, Bool.false_eq_true, if_false, accept?, Option.map_some, Option.some.injEq,
            Prod.mk.injEq] at h
          obtain ⟨rfl, rfl⟩ := h
          exact .finish hheld hitems rfl
      | cons item rest =>
        cases item with
        | ok r =>
          simp only [hitems, accept?, Option.map_some, sourceAfter, if_neg hf, Option.some.injEq,
            Prod.mk.injEq] at h
          obtain ⟨rfl, rfl⟩ := h
          exact .take hheld hitems
        | error s =>
          simp only [hitems, accept?, Option.map_some, Option.some.injEq, Prod.mk.injEq] at h
          obtain ⟨rfl, rfl⟩ := h
          exact .fail hheld hitems

theorem token_of_pull? {w w' : Watcher R} {source source' : Queue (Item R)} {open_ : Bool}
    (h : w.pull? source open_ = some (w', source')) : w'.token = w.token := by
  cases (pulls_of_pull? h).2 <;> rfl

/-- When the receive task has to wait: for room, or for the stream. -/
theorem waits_of_pull?_eq_none {w : Watcher R} {source : Queue (Item R)} {open_ : Bool}
    (h : w.pull? source open_ = none) (hrunning : w.finished = false) :
    (w.held.isSome = true ∧ w.queue.hasRoom = false) ∨ (w.held = none ∧ source.items = [] ∧ open_ = true) := by
  unfold pull? at h
  rw [if_neg (by simp [hrunning])] at h
  cases hheld : w.held with
  | some r =>
    refine Or.inl ⟨rfl, ?_⟩
    simp only [hheld, Option.map_eq_none_iff, deliver?] at h
    split at h
    · simp at h
    · split at h
      · simp at h
      · rename_i hroom
        simpa using hroom
  | none =>
    refine Or.inr ⟨rfl, ?_⟩
    simp only [hheld, Queue.receive, Option.map_eq_none_iff] at h
    cases hitems : source.items with
    | nil =>
      cases open_ with
      | true => exact ⟨rfl, rfl⟩
      | false => simp [hitems, accept?] at h
    | cons item rest => cases item <;> simp [hitems, accept?] at h

/-- A task at work that cannot heed its token is not cancelled. -/
theorem uncancelled_of_quit?_eq_none {w : Watcher R} {source : Queue (Item R)} {cancelled : Bool}
    (h : w.quit? source cancelled = none) (hrunning : w.finished = false) : cancelled = false := by
  unfold quit? at h
  split at h
  · rename_i hblocked
    simpa [hrunning] using hblocked
  · simp at h

/-- The consumer is told the next reply of the queue, or, if there is none, how things stand. -/
theorem next_cases (w : Watcher R) :
    (∃ r rest, w.queue.items = r :: rest ∧
      w.next = (.reply r, { w with queue := { w.queue with items := rest } })) ∨
    (w.queue.items = [] ∧ w.finished = false ∧ w.next = (.pending, w)) ∨
    (w.queue.items = [] ∧ w.finished = true ∧ w.next = (w.error.elim .ended .failed, w)) := by
  unfold next Queue.receive
  cases hitems : w.queue.items with
  | cons r rest => exact Or.inl ⟨r, rest, rfl, rfl⟩
  | nil =>
    right
    cases hfinished : w.finished with
    | false => exact Or.inl ⟨rfl, rfl, rfl⟩
    | true => cases w.error <;> exact Or.inr ⟨rfl, rfl, by simp⟩

end Watcher

/-! ### Viewings -/

/-- What happens to a watcher and its stream. -/
inductive ViewAct (R : Type) where
  /-- The receive task goes on. -/
  | pull
  /-- The receive task heeds its token. -/
  | quit
  /-- The consumer asks for the next reply. -/
  | next
  | cancel (token : Token)
  /-- One more item comes into the stream, if it is read and there is room. -/
  | feed (item : Item R)
  | endSource

structure Viewing (R : Type) where
  stream : WatchedStream R
  tokens : Tokens
  /-- The items that the stream has had. -/
  arrived : List (Item R)
  /-- The failure that the receive task took off the stream. -/
  met : Option Status := none
  /-- The replies that the consumer got. -/
  got : List R := []

namespace Viewing

def opening (stream : WatchedStream R) (tokens : Tokens) : Viewing R :=
  { stream, tokens, arrived := stream.source.items }

/-- The failure that the next step of the receive task takes off the stream. -/
def facing (v : Viewing R) : Option Status :=
  match v.stream.watcher.held, v.stream.source.items with
  | none, .error s :: _ => some s
  | _, _ => none

/-- What happens to a viewing; a task that has to wait leaves it as it is. -/
def act (v : Viewing R) : ViewAct R → Viewing R
  | .pull =>
    match v.stream.pull? with
    | none => v
    | some stream => { v with stream, met := v.facing }
  | .quit => { v with stream := (v.stream.quit? v.tokens).getD v.stream }
  | .next =>
    match v.stream.next with
    | (.reply r, stream) => { v with stream, got := v.got ++ [r] }
    | (_, stream) => { v with stream }
  | .cancel token => { v with tokens := v.tokens.cancel token }
  | .feed item =>
    if v.stream.feeding && v.stream.source.receiving then
      match v.stream.send item with
      | (true, stream) => { v with stream, arrived := v.arrived ++ [item] }
      | (false, _) => v
    else v
  | .endSource => { v with stream := v.stream.endSource }

def acts (v : Viewing R) (as : List (ViewAct R)) : Viewing R := as.foldl act v

/-- The replies that the consumer got or has queued. -/
def passed (v : Viewing R) : List R := v.got ++ v.stream.watcher.queue.items

/-- How the receive task stands. -/
inductive Standing (v : Viewing R) : Prop where
  | working (running : v.stream.watcher.finished = false) (held : v.stream.source.receiving = true)
    (error : v.stream.watcher.error = none) (met : v.met = none)
    (arrived : v.arrived = (v.passed ++ v.stream.watcher.held.toList).map .ok ++ v.stream.source.items)
  | failed (s : Status) (rest : List (Item R)) (stopped : v.stream.watcher.finished = true)
    (released : v.stream.source.receiving = false) (error : v.stream.watcher.error = some s) (met : v.met = some s)
    (arrived : v.arrived = v.passed.map .ok ++ .error s :: rest)
  | ended (stopped : v.stream.watcher.finished = true) (released : v.stream.source.receiving = false)
    (error : v.stream.watcher.error = none) (met : v.met = none) (closed : v.stream.feeding = false)
    (arrived : v.arrived = v.passed.map .ok)
  | cancelled (rest : List (Item R)) (stopped : v.stream.watcher.finished = true)
    (released : v.stream.source.receiving = false) (error : v.stream.watcher.error = none) (met : v.met = none)
    (told : v.tokens.isCancelled v.stream.watcher.token = true) (arrived : v.arrived = v.passed.map .ok ++ rest)

structure Inv (token : Token) (v : Viewing R) : Prop where
  token_eq : v.stream.watcher.token = token
  read : v.stream.watcher.queue.receiving = true
  capacity_pos : 0 < v.stream.watcher.queue.capacity
  standing : v.Standing

variable {token : Token} {v : Viewing R}

namespace Standing

/-- A task that has not stopped is at work. -/
theorem of_running (h : v.Standing) (hrunning : v.stream.watcher.finished = false) :
    v.stream.source.receiving = true ∧ v.stream.watcher.error = none ∧ v.met = none ∧
      v.arrived = (v.passed ++ v.stream.watcher.held.toList).map .ok ++ v.stream.source.items := by
  cases h with
  | working _ hheld herror hmet harrived => exact ⟨hheld, herror, hmet, harrived⟩
  | failed _ _ hstopped => simp [hrunning] at hstopped
  | ended hstopped => simp [hrunning] at hstopped
  | cancelled _ hstopped => simp [hrunning] at hstopped

/-- A stream that is read has a task at work on it. -/
theorem running_of_receiving (h : v.Standing) (hreceiving : v.stream.source.receiving = true) :
    v.stream.watcher.finished = false := by
  cases h with
  | working hrunning => exact hrunning
  | failed _ _ _ hreleased => simp [hreceiving] at hreleased
  | ended _ hreleased => simp [hreceiving] at hreleased
  | cancelled _ _ hreleased => simp [hreceiving] at hreleased

/-- Replies that go to the consumer, a stream that ends and more cancelled tokens leave the task as it stands. -/
theorem of_same {v' : Viewing R} (h : v.Standing) (hpassed : v'.passed = v.passed) (items : List R)
    (hwatcher : v'.stream.watcher = { v.stream.watcher with queue := { v.stream.watcher.queue with items } })
    (hsource : v'.stream.source = v.stream.source) (hfeeding : v.stream.feeding = false → v'.stream.feeding = false)
    (htokens : ∀ t, v.tokens.isCancelled t = true → v'.tokens.isCancelled t = true)
    (harrived : v'.arrived = v.arrived) (hmet : v'.met = v.met) : v'.Standing := by
  cases h with
  | working hrunning hheld herror hmet' harrived' =>
    exact .working (by rwa [hwatcher]) (by rwa [hsource]) (by rwa [hwatcher]) (by rwa [hmet])
      (by rwa [harrived, hpassed, hwatcher, hsource])
  | failed s rest hstopped hreleased herror hmet' harrived' =>
    exact .failed s rest (by rwa [hwatcher]) (by rwa [hsource]) (by rwa [hwatcher]) (by rwa [hmet])
      (by rwa [harrived, hpassed])
  | ended hstopped hreleased herror hmet' hclosed harrived' =>
    exact .ended (by rwa [hwatcher]) (by rwa [hsource]) (by rwa [hwatcher]) (by rwa [hmet]) (hfeeding hclosed)
      (by rwa [harrived, hpassed])
  | cancelled rest hstopped hreleased herror hmet' htold harrived' =>
    exact .cancelled rest (by rwa [hwatcher]) (by rwa [hsource]) (by rwa [hwatcher]) (by rwa [hmet])
      (by rw [hwatcher]; exact htokens _ htold) (by rwa [harrived, hpassed])

end Standing

/-! ### What the acts keep -/

theorem Inv.opening {stream : WatchedStream R} {tokens : Tokens} {capacity : Nat}
    (hwatcher : Watcher.make? token capacity = some stream.watcher) (hsource : stream.source.receiving = true) :
    (Viewing.opening stream tokens).Inv token := by
  obtain ⟨queue, hqueue, hwatcher⟩ := Option.map_eq_some_iff.1 hwatcher
  obtain ⟨hcapacity, rfl⟩ := Queue.eq_of_make? hqueue
  refine ⟨?_, ?_, ?_, .working ?_ hsource ?_ rfl ?_⟩ <;> simp only [Viewing.opening, passed, ← hwatcher]
  · exact hcapacity
  · rfl

theorem Inv.pull (h : v.Inv token) : (v.act .pull).Inv token := by
  simp only [act, WatchedStream.pull?]
  cases hp : v.stream.watcher.pull? v.stream.source v.stream.feeding with
  | none => exact h
  | some r =>
    obtain ⟨w', source'⟩ := r
    obtain ⟨hrunning, hpulls⟩ := Watcher.pulls_of_pull? hp
    obtain ⟨hheld, herror, hmet, harrived⟩ := h.standing.of_running hrunning
    cases hpulls with
    | deliver hr hread hroom =>
      refine ⟨h.token_eq, h.read, h.capacity_pos, .working hrunning hheld herror ?_ ?_⟩
      · simp [facing, hr]
      · simpa [passed, hr] using harrived
    | desert hr hread => simp [h.read] at hread
    | take hr hitems =>
      refine ⟨h.token_eq, h.read, h.capacity_pos, .working hrunning hheld herror ?_ ?_⟩
      · simp [facing, hr, hitems]
      · simpa [passed, hr, hitems] using harrived
    | @fail s rest hr hitems =>
      refine ⟨h.token_eq, h.read, h.capacity_pos, .failed s rest rfl rfl rfl ?_ ?_⟩
      · simp [facing, hr, hitems]
      · simpa [passed, Watcher.stop, hr, hitems] using harrived
    | finish hr hitems hclosed =>
      refine ⟨h.token_eq, h.read, h.capacity_pos, .ended rfl rfl herror ?_ hclosed ?_⟩
      · simp [facing, hr, hitems]
      · simpa [passed, Watcher.stop, hr, hitems] using harrived

theorem Inv.quit (h : v.Inv token) : (v.act .quit).Inv token := by
  simp only [act, WatchedStream.quit?, Watcher.quit?]
  split
  · exact h
  · rename_i hquit
    simp only [Bool.or_eq_true, Bool.not_eq_true', not_or, Bool.not_eq_true, Bool.not_eq_false] at hquit
    obtain ⟨hrunning, htold⟩ := hquit
    obtain ⟨-, herror, hmet, harrived⟩ := h.standing.of_running hrunning
    -- the reply held back is lost with what the stream still has
    refine ⟨h.token_eq, h.read, h.capacity_pos,
      .cancelled (v.stream.watcher.held.toList.map .ok ++ v.stream.source.items) rfl rfl herror hmet htold ?_⟩
    simpa [passed, Watcher.stop] using harrived

/-- Asking for the next reply moves at most the head of the queue to the consumer. -/
theorem act_next (v : Viewing R) :
    (v.act .next).passed = v.passed ∧ ∃ items,
      (v.act .next).stream =
        { v.stream with watcher := { v.stream.watcher with queue := { v.stream.watcher.queue with items } } } ∧
      (v.act .next).tokens = v.tokens ∧ (v.act .next).arrived = v.arrived ∧ (v.act .next).met = v.met := by
  simp only [act, WatchedStream.next, passed]
  rcases v.stream.watcher.next_cases with ⟨r, rest, hitems, hnext⟩ | ⟨hitems, -, hnext⟩ | ⟨hitems, -, hnext⟩
  · rw [hnext]
    exact ⟨by simp [hitems], rest, rfl, rfl, rfl, rfl⟩
  · rw [hnext]
    exact ⟨rfl, v.stream.watcher.queue.items, rfl, rfl, rfl, rfl⟩
  · rw [hnext]
    split
    · rename_i heq
      simp only [Prod.mk.injEq] at heq
      cases herror : v.stream.watcher.error <;> simp [herror] at heq
    · rename_i heq
      simp only [Prod.mk.injEq] at heq
      obtain ⟨-, rfl⟩ := heq
      exact ⟨rfl, v.stream.watcher.queue.items, rfl, rfl, rfl, rfl⟩

theorem Inv.next (h : v.Inv token) : (v.act .next).Inv token := by
  obtain ⟨hpassed, items, hstream, htokens, harrived, hmet⟩ := v.act_next
  refine ⟨by rw [hstream]; exact h.token_eq, by rw [hstream]; exact h.read, by rw [hstream]; exact h.capacity_pos, ?_⟩
  refine h.standing.of_same hpassed items (by rw [hstream]) (by rw [hstream]) ?_ ?_ harrived hmet
  · rw [hstream]
    exact id
  · rw [htokens]
    exact fun _ => id

theorem Inv.cancel (h : v.Inv token) (t : Token) : (v.act (.cancel t)).Inv token := by
  refine ⟨h.token_eq, h.read, h.capacity_pos, ?_⟩
  refine h.standing.of_same rfl v.stream.watcher.queue.items rfl rfl id (fun t' ht => ?_) rfl rfl
  simp only [act, Tokens.isCancelled_cancel, ht, Bool.or_true]

theorem act_feed (v : Viewing R) (item : Item R) :
    v.act (.feed item) = v ∨ v.stream.source.receiving = true ∧
      v.act (.feed item) =
        { v with
          stream := { v.stream with source := v.stream.source.push item }
          arrived := v.arrived ++ [item] } := by
  simp only [act, WatchedStream.send]
  split
  · rename_i hread
    rw [Bool.and_eq_true] at hread
    split
    · rename_i hsend
      split at hsend
      · simp only [Prod.mk.injEq, true_and] at hsend
        subst hsend
        exact Or.inr ⟨hread.2, rfl⟩
      · simp at hsend
    · exact Or.inl rfl
  · exact Or.inl rfl

theorem Inv.feed (h : v.Inv token) (item : Item R) : (v.act (.feed item)).Inv token := by
  rcases v.act_feed item with heq | ⟨hreceiving, heq⟩
  · rw [heq]
    exact h
  · have hrunning := h.standing.running_of_receiving hreceiving
    obtain ⟨hheld, herror, hmet, harrived⟩ := h.standing.of_running hrunning
    rw [heq]
    refine ⟨h.token_eq, h.read, h.capacity_pos, .working hrunning hheld herror hmet ?_⟩
    simp only [passed, Queue.items_push, harrived, List.append_assoc]

theorem Inv.endSource (h : v.Inv token) : (v.act .endSource).Inv token := by
  refine ⟨h.token_eq, h.read, h.capacity_pos, ?_⟩
  exact h.standing.of_same rfl v.stream.watcher.queue.items rfl rfl (fun _ => rfl) (fun _ => id) rfl rfl

theorem Inv.act (h : v.Inv token) (a : ViewAct R) : (v.act a).Inv token := by
  cases a with
  | pull => exact h.pull
  | quit => exact h.quit
  | next => exact h.next
  | cancel t => exact h.cancel t
  | feed item => exact h.feed item
  | endSource => exact h.endSource

theorem Inv.acts (h : v.Inv token) (as : List (ViewAct R)) : (v.acts as).Inv token := by
  induction as generalizing v with
  | nil => exact h
  | cons a as ih => exact ih (h.act a)

/-! ### What the consumer gets -/

/-- What was passed on to the consumer stays passed on. -/
theorem passed_prefix_act (v : Viewing R) (a : ViewAct R) : v.passed <+: (v.act a).passed := by
  cases a with
  | pull =>
    simp only [act, WatchedStream.pull?]
    cases hp : v.stream.watcher.pull? v.stream.source v.stream.feeding with
    | none => exact List.prefix_rfl
    | some r =>
      obtain ⟨w', source'⟩ := r
      cases (Watcher.pulls_of_pull? hp).2 with
      | @deliver r => exact ⟨[r], by simp [passed]⟩
      | desert => exact List.prefix_rfl
      | take => exact List.prefix_rfl
      | fail => exact List.prefix_rfl
      | finish => exact List.prefix_rfl
  | quit =>
    simp only [act, WatchedStream.quit?, Watcher.quit?]
    split <;> exact List.prefix_rfl
  | next => exact v.act_next.1 ▸ List.prefix_rfl
  | cancel t => exact List.prefix_rfl
  | feed item =>
    have hpassed : (v.act (.feed item)).passed = v.passed := by
      rcases v.act_feed item with heq | ⟨-, heq⟩ <;> rw [heq]
      rfl
    exact hpassed ▸ List.prefix_rfl
  | endSource => exact List.prefix_rfl

theorem passed_prefix_acts (v : Viewing R) (as : List (ViewAct R)) : v.passed <+: (v.acts as).passed := by
  induction as generalizing v with
  | nil => exact List.prefix_rfl
  | cons a as ih => exact (v.passed_prefix_act a).trans (ih (v.act a))

/-- Once the receive task has stopped and the queue is empty, nothing changes the watcher any more. -/
theorem watcher_act_of_stopped (hstopped : v.stream.watcher.finished = true)
    (hempty : v.stream.watcher.queue.items = []) (a : ViewAct R) :
    (v.act a).stream.watcher = v.stream.watcher := by
  cases a with
  | pull => simp [act, WatchedStream.pull?, Watcher.pull?, hstopped]
  | quit => simp [act, WatchedStream.quit?, Watcher.quit?, hstopped]
  | next =>
    have hnext : v.stream.watcher.next.2 = v.stream.watcher := by
      rcases v.stream.watcher.next_cases with ⟨r, rest, hitems, -⟩ | ⟨-, -, hnext⟩ | ⟨-, -, hnext⟩
      · simp [hempty] at hitems
      · rw [hnext]
      · rw [hnext]
    simp only [act, WatchedStream.next]
    split <;> rename_i heq <;> rw [Prod.mk.injEq] at heq <;> rw [← heq.2] <;> exact hnext
  | cancel t => rfl
  | feed item => rcases v.act_feed item with heq | ⟨-, heq⟩ <;> rw [heq]
  | endSource => rfl

theorem watcher_acts_of_stopped (hstopped : v.stream.watcher.finished = true)
    (hempty : v.stream.watcher.queue.items = []) (as : List (ViewAct R)) :
    (v.acts as).stream.watcher = v.stream.watcher := by
  induction as generalizing v with
  | nil => rfl
  | cons a as ih =>
    have hact := watcher_act_of_stopped hstopped hempty a
    exact (ih (by rw [hact, hstopped]) (by rw [hact, hempty])).trans hact

/-- The consumer's last answer comes when the receive task has stopped and all that it passed on was received. -/
theorem of_isFinal (h : v.stream.next.1.isFinal = true) :
    v.stream.watcher.finished = true ∧ v.stream.watcher.queue.items = [] ∧
      v.stream.next.1 = v.stream.watcher.error.elim .ended .failed := by
  simp only [WatchedStream.next] at h ⊢
  rcases v.stream.watcher.next_cases with ⟨r, rest, -, hnext⟩ | ⟨-, -, hnext⟩ | ⟨hempty, hstopped, hnext⟩
  · simp [hnext, Told.isFinal] at h
  · simp [hnext, Told.isFinal] at h
  · exact ⟨hstopped, hempty, by rw [hnext]⟩

theorem of_pending (h : v.stream.next.1 = .pending) :
    v.stream.watcher.finished = false ∧ v.stream.watcher.queue.items = [] := by
  simp only [WatchedStream.next] at h
  rcases v.stream.watcher.next_cases with ⟨r, rest, -, hnext⟩ | ⟨hempty, hrunning, -⟩ | ⟨-, -, hnext⟩
  · simp [hnext] at h
  · exact ⟨hrunning, hempty⟩
  · rw [hnext] at h
    cases herror : v.stream.watcher.error <;> simp [herror] at h

/-- What was passed on is the beginning of the replies before the first failure. -/
theorem Standing.passed_prefix (h : v.Standing) : v.passed <+: repliesBefore v.arrived := by
  cases h with
  | working _ _ _ _ harrived =>
    rw [harrived, repliesBefore_append, List.append_assoc]
    exact List.prefix_append _ _
  | failed s rest _ _ _ _ harrived =>
    rw [harrived, repliesBefore_append]
    exact List.prefix_append _ _
  | ended _ _ _ _ _ harrived =>
    rw [harrived, ← List.append_nil (List.map _ _), repliesBefore_append]
    exact List.prefix_append _ _
  | cancelled rest _ _ _ _ _ harrived =>
    rw [harrived, repliesBefore_append]
    exact List.prefix_append _ _

/-- A receive task at rest can neither heed its token nor go on. -/
theorem of_step?_eq_none (hrest : v.stream.step? v.tokens = none) :
    v.stream.quit? v.tokens = none ∧ v.stream.watcher.pull? v.stream.source v.stream.feeding = none := by
  unfold WatchedStream.step? WatchedStream.pull? at hrest
  cases hquit : v.stream.quit? v.tokens with
  | some stream => simp [hquit] at hrest
  | none => exact ⟨rfl, by simpa [hquit] using hrest⟩

/-- A task that waits with nothing passed on but to the consumer is not cancelled and has emptied a stream that is
still open. -/
theorem Inv.drained (h : v.Inv token) (hpending : v.stream.next.1 = .pending)
    (hrest : v.stream.step? v.tokens = none) :
    v.tokens.isCancelled token = false ∧ v.got = repliesBefore v.arrived ∧ firstFailure? v.arrived = none ∧
      v.stream.feeding = true := by
  obtain ⟨hrunning, hempty⟩ := of_pending hpending
  obtain ⟨hquit, hpull⟩ := of_step?_eq_none hrest
  have huncancelled := Watcher.uncancelled_of_quit?_eq_none (Option.map_eq_none_iff.1 hquit) hrunning
  rw [h.token_eq] at huncancelled
  have hroom : v.stream.watcher.queue.hasRoom = true := by
    simp [Queue.hasRoom, hempty, h.capacity_pos]
  rcases Watcher.waits_of_pull?_eq_none hpull hrunning with ⟨-, hfull⟩ | ⟨hheld, hitems, hopen⟩
  · simp [hroom] at hfull
  · obtain ⟨-, -, -, harrived⟩ := h.standing.of_running hrunning
    have hgot : v.arrived = v.got.map .ok ++ [] := by
      simpa [passed, hempty, hheld, hitems] using harrived
    refine ⟨huncancelled, ?_, ?_, hopen⟩
    · rw [hgot, repliesBefore_append]
      exact (List.append_nil _).symm
    · rw [hgot, firstFailure?_append]
      rfl

theorem Standing.error_eq (h : v.Standing) : v.stream.watcher.error = v.met := by
  cases h with
  | working _ _ herror hmet => rw [herror, hmet]
  | failed s rest _ _ herror hmet => rw [herror, hmet]
  | ended _ _ herror hmet => rw [herror, hmet]
  | cancelled _ _ _ herror hmet => rw [herror, hmet]

/-- The failure that the receive task met is the first one of the stream. -/
theorem Standing.firstFailure?_of_met (h : v.Standing) {s : Status} (hs : v.met = some s) :
    firstFailure? v.arrived = some s := by
  cases h with
  | failed s' rest _ _ _ hmet harrived =>
    obtain rfl : s = s' := Option.some.inj (hs.symm.trans hmet)
    rw [harrived, firstFailure?_append]
    rfl
  | working _ _ _ hmet => simp [hs] at hmet
  | ended _ _ _ hmet => simp [hs] at hmet
  | cancelled _ _ _ _ hmet => simp [hs] at hmet

/-- A receive task that was not cancelled stops behind all replies, at the first failure or at the end. -/
theorem Inv.stopped (h : v.Inv token) (hstopped : v.stream.watcher.finished = true)
    (huncancelled : v.tokens.isCancelled token = false) :
    v.passed = repliesBefore v.arrived ∧ v.met = firstFailure? v.arrived ∧
      (firstFailure? v.arrived = none → v.stream.feeding = false) := by
  cases h.standing with
  | working hrunning => simp [hrunning] at hstopped
  | failed s rest _ _ _ hmet harrived =>
    have hfirst : firstFailure? v.arrived = some s := h.standing.firstFailure?_of_met hmet
    refine ⟨?_, by rw [hmet, hfirst], fun hnone => by simp [hfirst] at hnone⟩
    rw [harrived, repliesBefore_append]
    exact (List.append_nil _).symm
  | ended _ _ _ hmet hclosed harrived =>
    rw [← List.append_nil (List.map _ _)] at harrived
    refine ⟨?_, ?_, fun _ => hclosed⟩
    · rw [harrived, repliesBefore_append]
      exact (List.append_nil _).symm
    · rw [hmet, harrived, firstFailure?_append]
      rfl
  | cancelled _ _ _ _ _ htold =>
    rw [h.token_eq, huncancelled] at htold
    simp at htold

/-! ### A cancelled watcher -/

/-- A task whose token is cancelled can stop in every state; it leaves the queue and the kept error as they are. -/
theorem act_quit_of_cancelled (h : v.tokens.isCancelled v.stream.watcher.token = true) :
    (v.act .quit).stream.watcher.finished = true ∧
      (v.act .quit).stream.watcher.queue = v.stream.watcher.queue ∧
      (v.act .quit).stream.watcher.error = v.stream.watcher.error ∧ (v.act .quit).got = v.got := by
  simp only [act, WatchedStream.quit?, Watcher.quit?, h, Bool.not_true, Bool.or_false]
  cases hfinished : v.stream.watcher.finished with
  | true => simp [hfinished]
  | false => simp [Watcher.stop]

theorem act_next_of_cons {r : R} {rest : List R} (h : v.stream.watcher.queue.items = r :: rest) :
    v.act .next =
      { v with
        stream := { v.stream with
          watcher := { v.stream.watcher with queue := { v.stream.watcher.queue with items := rest } } }
        got := v.got ++ [r] } := by
  simp only [act, WatchedStream.next]
  rcases v.stream.watcher.next_cases with ⟨r', rest', hitems, hnext⟩ | ⟨hempty, -, -⟩ | ⟨hempty, -, -⟩
  · rw [h, List.cons.injEq] at hitems
    obtain ⟨rfl, rfl⟩ := hitems
    rw [hnext]
  · simp [h] at hempty
  · simp [h] at hempty

/-- Behind a stopped task the consumer reads out the queue, one reply at a time, and then has its last answer. -/
theorem read_out_of_stopped {rs : List R} (hitems : v.stream.watcher.queue.items = rs)
    (hstopped : v.stream.watcher.finished = true) :
    (v.acts (List.replicate rs.length .next)).got = v.got ++ rs ∧
      (v.acts (List.replicate rs.length .next)).stream.next.1 = v.stream.watcher.error.elim .ended .failed := by
  induction rs generalizing v with
  | nil =>
    refine ⟨(List.append_nil _).symm, ?_⟩
    rcases v.stream.watcher.next_cases with ⟨r, rest, hcons, -⟩ | ⟨-, hrunning, -⟩ | ⟨-, -, hnext⟩
    · simp [hitems] at hcons
    · simp [hstopped] at hrunning
    · exact congrArg Prod.fst hnext
  | cons r rest ih =>
    have hact := act_next_of_cons hitems
    obtain ⟨hgot, hanswer⟩ := ih (v := v.act .next) (by rw [hact]) (by rw [hact]; exact hstopped)
    rw [hact] at hgot hanswer
    rw [List.length_cons, List.replicate_succ]
    refine ⟨?_, ?_⟩ <;> simp only [acts, List.foldl_cons, hact]
    · exact hgot.trans (by simp)
    · exact hanswer

/-- However a cancelled watcher stands: when its task heeds the token, the consumer gets what was queued and then the
last answer. -/
theorem Inv.read_out (h : v.Inv token) (hcancelled : v.tokens.isCancelled token = true) :
    ((v.act .quit).acts (List.replicate v.stream.watcher.queue.items.length .next)).got = v.passed ∧
      ((v.act .quit).acts (List.replicate v.stream.watcher.queue.items.length .next)).stream.next.1 =
        v.met.elim .ended .failed := by
  obtain ⟨hstopped, hqueue, herror, hgot⟩ := act_quit_of_cancelled (v := v) (h.token_eq ▸ hcancelled)
  obtain ⟨hall, hanswer⟩ := read_out_of_stopped (v := v.act .quit) (congrArg Queue.items hqueue) hstopped
  rw [hgot] at hall
  rw [herror, h.standing.error_eq] at hanswer
  exact ⟨hall, hanswer⟩

end Viewing

/-- A watcher passes on the replies that its stream has before the first failure, in order and each once.  While it is
not cancelled, its last answer comes behind all of them, and is that failure or the end; when it is cancelled, it
comes behind those already queued, whatever the stream does.  The last answer agrees with the kept error and stays the
same.
-/
theorem watcher_faithful (source : Queue (Item R)) (hsource : source.receiving = true) (feeding : Bool)
    (tokens : Tokens) (token : Token) (capacity : Nat) (hcapacity : capacity ≤ Queue.maxCapacity) :
    ∃ watcher : Watcher R, Watcher.make? token capacity = some watcher ∧ ∀ acts : List (ViewAct R),
      let start := Viewing.opening ⟨source, feeding, watcher⟩ tokens
      let v := start.acts acts
      let answer := v.stream.next.1
      v.got <+: repliesBefore v.arrived ∧
      (answer = .pending → v.stream.step? v.tokens = none →
        v.tokens.isCancelled token = false ∧ v.got = repliesBefore v.arrived ∧ firstFailure? v.arrived = none ∧
          v.stream.feeding = true) ∧
      (v.tokens.isCancelled token = true →
        let read := (v.act .quit).acts (List.replicate v.stream.watcher.queue.items.length .next)
        read.got = v.passed ∧ read.stream.next.1 = v.met.elim .ended .failed) ∧
      (answer.isFinal = true →
        (v.tokens.isCancelled token = false →
          v.got = repliesBefore v.arrived ∧ answer = (firstFailure? v.arrived).elim .ended .failed ∧
            (firstFailure? v.arrived = none → v.stream.feeding = false)) ∧
        (∀ before after, acts = before ++ after → (start.acts before).passed <+: v.got) ∧
        answer = v.met.elim .ended .failed ∧ (∀ s, v.met = some s → firstFailure? v.arrived = some s) ∧
        v.stream.watcher.error = v.met ∧ v.stream.watcher.isClosed v.tokens = true ∧
        ∀ later, (v.acts later).stream.next.1 = answer) := by
  obtain ⟨watcher, hwatcher⟩ : ∃ watcher : Watcher R, Watcher.make? token capacity = some watcher :=
    ⟨_, by rw [Watcher.make?, Queue.make?_max hcapacity]; rfl⟩
  refine ⟨watcher, hwatcher, fun acts => ?_⟩
  intro start v answer
  have hinv : v.Inv token := (Viewing.Inv.opening hwatcher hsource).acts acts
  refine ⟨(List.prefix_append _ _).trans hinv.standing.passed_prefix, hinv.drained, hinv.read_out,
    fun hfinal => ?_⟩
  obtain ⟨hstopped, hempty, hanswer⟩ := Viewing.of_isFinal hfinal
  have hgot : v.passed = v.got := by rw [Viewing.passed, hempty, List.append_nil]
  have hmet : answer = v.met.elim .ended .failed := hinv.standing.error_eq ▸ hanswer
  refine ⟨fun huncancelled => ?_, fun before after hacts => ?_, hmet, fun s => hinv.standing.firstFailure?_of_met,
    hinv.standing.error_eq, ?_, fun later => ?_⟩
  · obtain ⟨hall, hfirst, hclosed⟩ := hinv.stopped hstopped huncancelled
    exact ⟨hgot ▸ hall, hfirst ▸ hmet, hclosed⟩
  · have hsplit : v = (start.acts before).acts after := by
      simp only [v, Viewing.acts, hacts, List.foldl_append]
    rw [← hgot, hsplit]
    exact Viewing.passed_prefix_acts _ after
  · rw [Watcher.isClosed, hstopped, Bool.or_true]
  · have hlater := Viewing.watcher_acts_of_stopped hstopped hempty later
    simp only [answer, WatchedStream.next, hlater]

/-- A stream of two replies, a failure and another reply, through a queue with room for one: read to the failure, and
cancelled while the second reply waits for room. -/
theorem watcher_faithful_to_failure_or_cancellation :
    let lost : Status := ⟨.unavailable, "lost"⟩
    let source : Queue (Item Nat) := { capacity := 4, items := [.ok 1, .ok 2, .error lost, .ok 3] }
    ∃ watcher, Watcher.make? [0] 0 = some watcher ∧
      let start := Viewing.opening ⟨source, false, watcher⟩ {}
      let read := start.acts [.pull, .pull, .pull, .next, .pull, .pull, .next]
      let cancelled := start.acts [.pull, .pull, .pull, .cancel [0]]
      (read.got = [1, 2] ∧ ∀ later, (read.acts later).stream.next.1 = .failed lost) ∧
      (cancelled.act .quit).got = [] ∧ ((cancelled.act .quit).acts [.next]).got = [1] ∧
      ((cancelled.act .quit).acts [.next]).stream.next.1 = .ended := by
  intro lost source
  obtain ⟨watcher, hwatcher, h⟩ := watcher_faithful source rfl false {} [0] 0 (by decide)
  have hmake : Watcher.make? (R := Nat) [0] 0 = some { token := [0], queue := { capacity := 1 } } := rfl
  have heq : watcher = { token := [0], queue := { capacity := 1 } } := Option.some.inj (hwatcher.symm.trans hmake)
  subst heq
  have hread := h [.pull, .pull, .pull, .next, .pull, .pull, .next]
  have hcancelled := h [.pull, .pull, .pull, .cancel [0]]
  refine ⟨_, hmake, ?_, rfl, ?_⟩
  · dsimp only at hread ⊢
    generalize hv : (Viewing.acts _ _ : Viewing Nat) = v at hread ⊢
    have hfinal : v.stream.next.1.isFinal = true := by
      rw [← hv]
      decide +kernel
    have huncancelled : v.tokens.isCancelled [0] = false := by
      rw [← hv]
      decide +kernel
    have hreplies : repliesBefore v.arrived = [1, 2] ∧ firstFailure? v.arrived = some lost := by
      rw [← hv]
      decide +kernel
    obtain ⟨-, -, -, hlast⟩ := hread
    obtain ⟨hclean, -, -, -, -, -, hlater⟩ := hlast hfinal
    obtain ⟨hgot, hanswer, -⟩ := hclean huncancelled
    rw [hreplies.1] at hgot
    rw [hreplies.2] at hanswer
    exact ⟨hgot, fun later => (hlater later).trans hanswer⟩
  · obtain ⟨-, -, hquit, -⟩ := hcancelled
    exact hquit (by decide +kernel)

end ResourceWatch

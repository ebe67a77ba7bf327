import ResourceWatch.Proofs.Watch.Advances

/-!
# The course of a watch

`Heard` is what a store tells a session: the answer to its read, whether its subscription is granted, and the events
behind it.  `Heard.course` is the reference for what a watch makes of it, a fold over the events: the replies, how the
watch ends, and the state in which its endpoint is left.

A session whose receiver stays keeps to the course of what it has heard so far (`World.Advances.accounts`), and the
course of what was heard first is the beginning of the course of all (`Heard.course_prefix`).
-/

namespace ResourceWatch

variable {V R σ : Type}

@[ext]
structure Heard (V : Type) where
  answer : Option (Except StoreFailure V) := none
  granted : Option (Except StoreFailure Unit) := none
  events : List (Event V) := []
  /-- The events are at their end. -/
  ended : Bool := false

structure Course (R σ : Type) where
  state : σ
  replies : List R := []
  outcome : Option Outcome := none

namespace Course

/-- A reply is made of the value, and sent if it is a change. -/
def answer (make : Maker V R σ) (key : String) (c : Course R σ) (v : V) : Course R σ :=
  match make c.state key v with
  | (st, .ok (r, changed)) => { c with state := st, replies := if changed then c.replies ++ [r] else c.replies }
  | (st, .error status) => { c with state := st, outcome := some (.failed (.transform status)) }

def hear (make : Maker V R σ) (key : String) (c : Course R σ) (e : Event V) : Course R σ :=
  if c.outcome.isSome then c
  else
    match e.kind with
    | .put v => c.answer make key v
    | .delete v => c.answer make key v
    | .error text => { c with outcome := some (.failed (.event key e.id text)) }

/-- The end of the events ends the watch, unless it has failed. -/
def close (c : Course R σ) : Course R σ := { c with outcome := c.outcome.or (some .done) }

end Course

namespace Heard

/-- What becomes of a watch behind its snapshot. -/
def follow (make : Maker V R σ) (key : String) (h : Heard V) (c : Course R σ) : Course R σ :=
  match h.granted with
  | none => c
  | some (.error f) => { c with outcome := some (.failed (.subscribe key f)) }
  | some (.ok ()) =>
    let c := h.events.foldl (Course.hear make key) c
    if h.ended then c.close else c

/-- What becomes of a watch whose endpoint is in the state `st`; the reply made of the snapshot is sent in any
case. -/
def course (make : Maker V R σ) (key : String) (st : σ) (h : Heard V) : Course R σ :=
  match h.answer with
  | none => { state := st }
  | some (.error f) => { state := st, outcome := some (.failed (.read key f)) }
  | some (.ok v) =>
    match make st key v with
    | (st, .error status) => { state := st, outcome := some (.failed (.transform status)) }
    | (st, .ok (r, _)) => h.follow make key { state := st, replies := [r] }

end Heard

/-! ### More is heard -/

namespace Course

variable {make : Maker V R σ} {key : String} {c : Course R σ}

theorem hear_of_over (h : c.outcome.isSome = true) (e : Event V) : c.hear make key e = c := by
  rw [hear, if_pos h]

theorem foldl_hear_of_over (h : c.outcome.isSome = true) (es : List (Event V)) : es.foldl (hear make key) c = c := by
  induction es with
  | nil => rfl
  | cons e es ih => rw [List.foldl_cons, hear_of_over h, ih]

theorem replies_prefix_answer (c : Course R σ) (v : V) : c.replies <+: (c.answer make key v).replies := by
  unfold answer
  split
  · split
    · exact List.prefix_append _ _
    · exact List.prefix_rfl
  · exact List.prefix_rfl

theorem replies_prefix_hear (c : Course R σ) (e : Event V) : c.replies <+: (c.hear make key e).replies := by
  unfold hear
  split
  · exact List.prefix_rfl
  · split
    · exact c.replies_prefix_answer _
    · exact c.replies_prefix_answer _
    · exact List.prefix_rfl

theorem replies_prefix_foldl_hear (c : Course R σ) (es : List (Event V)) :
    c.replies <+: (es.foldl (hear make key) c).replies := by
  induction es generalizing c with
  | nil => exact List.prefix_rfl
  | cons e es ih => exact (c.replies_prefix_hear e).trans (ih _)

theorem answer_of_made {v : V} {st : σ} {r : R} {changed : Bool} (h : make c.state key v = (st, .ok (r, changed))) :
    c.answer make key v =
      { c with state := st, replies := if changed then c.replies ++ [r] else c.replies } := by
  simp only [answer, h]

theorem answer_of_unmade {v : V} {st : σ} {status : Status} (h : make c.state key v = (st, .error status)) :
    c.answer make key v = { c with state := st, outcome := some (.failed (.transform status)) } := by
  simp only [answer, h]

theorem hear_of_value {e : Event V} {v : V} (h : c.outcome = none) (hv : e.kind.value? = some v) :
    c.hear make key e = c.answer make key v := by
  cases hk : e.kind <;> simp only [hk, EventKind.value?, Option.some.injEq, reduceCtorEq] at hv <;>
    simp only [hear, h, hk, hv, Option.isSome_none, Bool.false_eq_true, if_false]

theorem hear_of_error {e : Event V} {text : String} (h : c.outcome = none) (hk : e.kind = .error text) :
    c.hear make key e = { c with outcome := some (.failed (.event key e.id text)) } := by
  simp only [hear, h, hk, Option.isSome_none, Bool.false_eq_true, if_false]

theorem close_of_over (h : c.outcome.isSome = true) : c.close = c := by
  obtain ⟨o, ho⟩ := Option.isSome_iff_exists.1 h
  rw [close, ho, Option.some_or, ← ho]

end Course

namespace Heard

variable {make : Maker V R σ} {key : String} {st : σ} {a b : Heard V}

/-- `b` goes on where `a` stops. -/
structure Before (a b : Heard V) : Prop where
  answer : a.answer = none ∨ b.answer = a.answer
  granted : a.granted = none ∨ b.granted = a.granted
  events : a.events <+: b.events
  ended : a.ended = true → b.ended = true ∧ b.events = a.events

/-- What was told of every kind and to the last event is all. -/
theorem Before.eq (h : a.Before b) (hanswer : a.answer ≠ none) (hgranted : a.granted ≠ none)
    (hevents : b.events = a.events) (hended : b.ended = a.ended) : b = a := by
  refine Heard.ext ?_ ?_ hevents hended
  · exact h.answer.resolve_left hanswer
  · exact h.granted.resolve_left hgranted

theorem replies_prefix_follow (a : Heard V) (c : Course R σ) : c.replies <+: (a.follow make key c).replies := by
  unfold follow
  split
  · exact List.prefix_rfl
  · exact List.prefix_rfl
  · dsimp only
    split
    · exact c.replies_prefix_foldl_hear _
    · exact c.replies_prefix_foldl_hear _

private theorem follow_prefix (h : a.Before b) {c : Course R σ} (hc : c.outcome = none) :
    (a.follow make key c).replies <+: (b.follow make key c).replies ∧
      ((a.follow make key c).outcome.isSome = true → b.follow make key c = a.follow make key c) := by
  rcases h.granted with hnone | hgranted
  · have ha : a.follow make key c = c := by rw [follow, hnone]
    rw [ha]
    exact ⟨b.replies_prefix_follow c, fun hover => by simp [hc] at hover⟩
  · cases hg : a.granted with
    | none =>
      have ha : a.follow make key c = c := by rw [follow, hg]
      rw [ha]
      exact ⟨b.replies_prefix_follow c, fun hover => by simp [hc] at hover⟩
    | some granted =>
      have hb : b.granted = some granted := hgranted.trans hg
      cases granted with
      | error f =>
        have heq : b.follow make key c = a.follow make key c := by rw [follow, follow, hg, hb]
        rw [heq]
        exact ⟨List.prefix_rfl, fun _ => rfl⟩
      | ok u =>
        obtain ⟨more, hmore⟩ := h.events
        have hfold : b.events.foldl (Course.hear make key) c =
            more.foldl (Course.hear make key) (a.events.foldl (Course.hear make key) c) := by
          rw [← hmore, List.foldl_append]
        simp only [follow, hg, hb]
        cases hended : a.ended with
        | true =>
          obtain ⟨hbended, hbevents⟩ := h.ended hended
          rw [hbended, hbevents]
          exact ⟨List.prefix_rfl, fun _ => rfl⟩
        | false =>
          simp only [Bool.false_eq_true, if_false, hfold]
          generalize a.events.foldl (Course.hear make key) c = d
          refine ⟨?_, fun hover => ?_⟩
          · split
            · exact d.replies_prefix_foldl_hear more
            · exact d.replies_prefix_foldl_hear more
          · -- the events that only `b` has come too late
            rw [Course.foldl_hear_of_over hover]
            split
            · exact Course.close_of_over hover
            · rfl

theorem course_of_made {v : V} {st' : σ} {r : R} {changed : Bool} (h : a.answer = some (.ok v))
    (hmade : make st key v = (st', .ok (r, changed))) :
    a.course make key st = a.follow make key { state := st', replies := [r] } := by
  simp only [course, h, hmade]

theorem course_of_unmade {v : V} {st' : σ} {status : Status} (h : a.answer = some (.ok v))
    (hmade : make st key v = (st', .error status)) :
    a.course make key st = { state := st', outcome := some (.failed (.transform status)) } := by
  simp only [course, h, hmade]

/-- What a watch has done stays done when it hears more, and once it has ended nothing is added. -/
theorem course_prefix (h : a.Before b) (make : Maker V R σ) (key : String) (st : σ) :
    (a.course make key st).replies <+: (b.course make key st).replies ∧
      ((a.course make key st).outcome.isSome = true → b.course make key st = a.course make key st) := by
  cases ha : a.answer with
  | none =>
    have hcourse : a.course make key st = { state := st } := by rw [course, ha]
    rw [hcourse]
    exact ⟨List.nil_prefix, fun hover => by simp at hover⟩
  | some answer =>
    have hb : b.answer = some answer := by
      rcases h.answer with hnone | hanswer
      · simp [ha] at hnone
      · exact hanswer.trans ha
    cases answer with
    | error f =>
      have hcourse : b.course make key st = a.course make key st := by simp only [course, ha, hb]
      rw [hcourse]
      exact ⟨List.prefix_rfl, fun _ => rfl⟩
    | ok v =>
      rcases hmade : make st key v with ⟨st', status | ⟨r, changed⟩⟩
      · rw [course_of_unmade ha hmade, course_of_unmade hb hmade]
        exact ⟨List.prefix_rfl, fun _ => rfl⟩
      · rw [course_of_made ha hmade, course_of_made hb hmade]
        exact follow_prefix h rfl

/-! ### The course of what was heard, step by step -/

theorem course_refused {v : V} (f : StoreFailure)
    (h : (({ answer := some (.ok v) } : Heard V).course make key st).outcome = none) :
    ({ answer := some (.ok v), granted := some (.error f) } : Heard V).course make key st =
      { ({ answer := some (.ok v) } : Heard V).course make key st with
        outcome := some (.failed (.subscribe key f)) } := by
  rcases hmade : make st key v with ⟨st', status | ⟨r, changed⟩⟩
  · rw [course_of_unmade rfl hmade] at h
    simp at h
  · rw [course_of_made rfl hmade, course_of_made rfl hmade]
    rfl

theorem replies_ne_nil_of_answer {v : V}
    (h : (({ answer := some (.ok v) } : Heard V).course make key st).outcome = none) :
    (({ answer := some (.ok v) } : Heard V).course make key st).replies ≠ [] := by
  rcases hmade : make st key v with ⟨st', status | ⟨r, changed⟩⟩
  · rw [course_of_unmade rfl hmade] at h
    simp at h
  · rw [course_of_made rfl hmade]
    exact List.cons_ne_nil r []

theorem course_granted (v : V) :
    ({ answer := some (.ok v), granted := some (.ok ()) } : Heard V).course make key st =
      ({ answer := some (.ok v) } : Heard V).course make key st := rfl

theorem course_event (make : Maker V R σ) (key : String) (st : σ) (v : V) (es : List (Event V)) (e : Event V) :
    ({ answer := some (.ok v), granted := some (.ok ()), events := es ++ [e] } : Heard V).course make key st =
      (({ answer := some (.ok v), granted := some (.ok ()), events := es } : Heard V).course make key st).hear
        make key e := by
  rcases hmade : make st key v with ⟨st', status | ⟨r, changed⟩⟩
  · rw [course_of_unmade rfl hmade, course_of_unmade rfl hmade, Course.hear_of_over rfl]
  · rw [course_of_made rfl hmade, course_of_made rfl hmade]
    simp [follow, List.foldl_append]

theorem course_ended (make : Maker V R σ) (key : String) (st : σ) (v : V) (es : List (Event V)) :
    ({ answer := some (.ok v), granted := some (.ok ()), events := es, ended := true } : Heard V).course make key st =
      (({ answer := some (.ok v), granted := some (.ok ()), events := es } : Heard V).course make key st).close := by
  rcases hmade : make st key v with ⟨st', status | ⟨r, changed⟩⟩
  · rw [course_of_unmade rfl hmade, course_of_unmade rfl hmade, Course.close_of_over rfl]
  · rw [course_of_made rfl hmade, course_of_made rfl hmade]
    simp [follow]

end Heard

/-! ### A session and its course -/

/-- The reply that waits for room. -/
def Phase.unsent (p : Phase R) : List R := (p.sends?.map (·.1)).toList

/-- What a session in this phase has heard. -/
def Phase.HasHeard : Phase R → Heard V → Prop
  | .idle, h | .starting, h | .reading, h => h = {}
  | .sendingSnapshot _, h | .subscribing, h => ∃ v, h = { answer := some (.ok v) }
  | .awaiting _, h | .sending _ _, h => ∃ v es, h = { answer := some (.ok v), granted := some (.ok ()), events := es }
  | _, _ => True

/-- A session that has sent these replies, with its endpoint in the state `st`, stands where the course of what it has
heard ends. -/
structure Session.Accounts (make : Maker V R σ) (st₀ : σ) (heard : Heard V) (x : Session R) (st : σ) (sent : List R) :
    Prop where
  hasHeard : x.phase.HasHeard heard
  state : (heard.course make x.key st₀).state = st
  replies : (heard.course make x.key st₀).replies = sent ++ x.phase.unsent
  outcome : (heard.course make x.key st₀).outcome = x.phase.outcome?

/-- What a session has heard when it takes its next step. -/
def World.hear (w : World V R σ) (x : Session R) (heard : Heard V) : Heard V :=
  match x.phase with
  | .reading => { heard with answer := w.store.answer? x.key }
  | .subscribing =>
    match (w.store.watch x.key x.token).1 with
    | .ok _ => { heard with granted := some (.ok ()) }
    | .error (.refused f) => { heard with granted := some (.error f) }
    | .error .tooLarge => heard
  | .awaiting id =>
    match (w.store.receive id).1 with
    | .item e => { heard with events := heard.events ++ [e] }
    | .ended => { heard with ended := true }
    | .pending => heard
  | _ => heard

/-- The session in another phase, with more replies in its queue. -/
def Session.goOn (x : Session R) (p : Phase R) (new : List R) : Session R :=
  { x with phase := p, replies := { x.replies with items := x.replies.items ++ new.map .ok } }

theorem Session.goOn_nil (x : Session R) (p : Phase R) : x.goOn p [] = { x with phase := p } := by
  simp [goOn]

theorem Session.unsent_afterEnd (x : Session R) (o : Outcome) : (x.afterEnd o).unsent = [] := by
  rcases x.afterEnd_eq o with h | ⟨-, e, -, h⟩ <;> rw [h] <;> rfl

theorem Session.isAtWork_afterEnd (x : Session R) (o : Outcome) : (x.afterEnd o).isAtWork = false := by
  rcases x.afterEnd_eq o with h | ⟨-, e, -, h⟩ <;> rw [h] <;> rfl

theorem Session.hasHeard_afterEnd (x : Session R) (o : Outcome) (h : Heard V) : (x.afterEnd o).HasHeard h := by
  rcases x.afterEnd_eq o with h | ⟨-, e, -, h⟩ <;> rw [h] <;> trivial

namespace World

variable {make : Maker V R σ} {w w' : World V R σ} {i : Nat} {x : Session R} {st₀ st : σ} {heard : Heard V}
  {sent : List R}

/-- What is heard next comes behind what was heard. -/
theorem before_hear (w : World V R σ) (hheard : x.phase.HasHeard heard) : heard.Before (w.hear x heard) := by
  unfold hear
  cases hp : x.phase with
  | reading =>
    rw [hp] at hheard
    obtain rfl : heard = {} := hheard
    exact ⟨Or.inl rfl, Or.inl rfl, List.prefix_rfl, fun hended => by simp at hended⟩
  | subscribing =>
    rw [hp] at hheard
    obtain ⟨v, rfl⟩ := hheard
    refine ⟨Or.inr ?_, Or.inl rfl, ?_, fun hended => by simp at hended⟩
    · dsimp only
      split <;> rfl
    · exact List.nil_prefix
  | awaiting id =>
    rw [hp] at hheard
    obtain ⟨v, es, rfl⟩ := hheard
    refine ⟨Or.inr ?_, Or.inr ?_, ?_, fun hended => by simp at hended⟩
    · dsimp only
      split <;> rfl
    · dsimp only
      split <;> rfl
    · dsimp only
      split
      · exact List.prefix_append _ _
      · exact List.prefix_rfl
      · exact List.prefix_rfl
  | _ => exact ⟨Or.inr rfl, Or.inr rfl, List.prefix_rfl, fun hended => ⟨hended, rfl⟩⟩

theorem granted_hear (w : World V R σ) (hp : x.phase ≠ .subscribing) : (w.hear x heard).granted = heard.granted := by
  unfold hear
  split
  · rfl
  · rename_i hsubscribing
    exact absurd hsubscribing hp
  · split <;> rfl
  · rfl

theorem hear_of_sends? {r : R} {next : Phase R} (h : x.phase.sends? = some (r, next)) : w.hear x heard = heard := by
  cases hp : x.phase <;> simp [hp, Phase.sends?] at h <;> simp only [World.hear, hp]

theorem hear_starting (hp : x.phase = .starting) (heard : Heard V) : w.hear x heard = heard := by
  rw [World.hear, hp]

theorem hear_answer {answer : Except StoreFailure V} (hp : x.phase = .reading)
    (hanswer : w.store.answer? x.key = some answer) (heard : Heard V) :
    w.hear x heard = { heard with answer := some answer } := by
  simp only [World.hear, hp, hanswer]

theorem hear_granted {id : Nat} {store : Backend V} (hp : x.phase = .subscribing)
    (hgranted : w.store.watch x.key x.token = (.ok id, store)) (heard : Heard V) :
    w.hear x heard = { heard with granted := some (.ok ()) } := by
  simp only [World.hear, hp, hgranted]

theorem hear_refused {f : StoreFailure} {store : Backend V} (hp : x.phase = .subscribing)
    (hgranted : w.store.watch x.key x.token = (.error (.refused f), store)) (heard : Heard V) :
    w.hear x heard = { heard with granted := some (.error f) } := by
  simp only [World.hear, hp, hgranted]

theorem hear_event {id : Nat} {e : Event V} {store : Backend V} (hp : x.phase = .awaiting id)
    (hgot : w.store.receive id = (.item e, store)) (heard : Heard V) :
    w.hear x heard = { heard with events := heard.events ++ [e] } := by
  simp only [World.hear, hp, hgot]

theorem hear_end {id : Nat} {store : Backend V} (hp : x.phase = .awaiting id)
    (hgot : w.store.receive id = (.ended, store)) (heard : Heard V) :
    w.hear x heard = { heard with ended := true } := by
  simp only [World.hear, hp, hgot]

end World

/-! ### The account of a session -/

namespace Session.Accounts

variable {make : Maker V R σ} {x : Session R} {st₀ st : σ} {heard : Heard V} {sent : List R}

/-- With no reply waiting, a session at work has sent all that its course has come to. -/
private theorem course_eq (ha : x.Accounts make st₀ heard st sent) (hunsent : x.phase.unsent = [])
    (houtcome : x.phase.outcome? = none) : heard.course make x.key st₀ = { state := st, replies := sent } := by
  obtain ⟨-, hstate, hreplies, hcourse⟩ := ha
  rw [hunsent, List.append_nil] at hreplies
  rw [houtcome] at hcourse
  rw [← hstate, ← hreplies, ← hcourse]

theorem of_reading (ha : x.Accounts make st₀ heard st sent) (hp : x.phase = .reading) :
    heard = {} ∧ st₀ = st ∧ sent = [] := by
  obtain ⟨hheard, hstate, hreplies, -⟩ := ha
  rw [hp] at hheard hreplies
  obtain rfl : heard = {} := hheard
  exact ⟨rfl, hstate, by simpa [Heard.course, Phase.unsent, Phase.sends?] using hreplies⟩

theorem of_subscribing (ha : x.Accounts make st₀ heard st sent) (hp : x.phase = .subscribing) :
    ∃ v, heard = { answer := some (.ok v) } ∧ heard.course make x.key st₀ = { state := st, replies := sent } := by
  have hheard := ha.hasHeard
  rw [hp] at hheard
  obtain ⟨v, hv⟩ := hheard
  exact ⟨v, hv, ha.course_eq (by rw [hp]; rfl) (by rw [hp]; rfl)⟩

theorem of_awaiting (ha : x.Accounts make st₀ heard st sent) {id : Nat} (hp : x.phase = .awaiting id) :
    ∃ v es, heard = { answer := some (.ok v), granted := some (.ok ()), events := es } ∧
      heard.course make x.key st₀ = { state := st, replies := sent } := by
  have hheard := ha.hasHeard
  rw [hp] at hheard
  obtain ⟨v, es, hes⟩ := hheard
  exact ⟨v, es, hes, ha.course_eq (by rw [hp]; rfl) (by rw [hp]; rfl)⟩

/-- A session that goes on without hearing anything and without a reply keeps its account. -/
private theorem goOn_silent (ha : x.Accounts make st₀ heard st sent) {p : Phase R} (hheard : p.HasHeard heard)
    (hunsent : p.unsent = x.phase.unsent) (houtcome : p.outcome? = x.phase.outcome?) :
    (x.goOn p []).Accounts make st₀ heard st (sent ++ []) := by
  rw [List.append_nil]
  exact ⟨hheard, ha.state, ha.replies.trans (congrArg (sent ++ ·) hunsent.symm), ha.outcome.trans houtcome.symm⟩

/-- A session that goes on at work accounts for a course that has not ended. -/
private theorem of_course {p : Phase R} {new : List R}
    (hcourse : heard.course make x.key st₀ = { state := st, replies := sent ++ new ++ p.unsent })
    (hheard : p.HasHeard heard) (houtcome : p.outcome? = none) :
    (x.goOn p new).Accounts make st₀ heard st (sent ++ new) :=
  ⟨hheard, congrArg Course.state hcourse, congrArg Course.replies hcourse,
    (congrArg Course.outcome hcourse).trans houtcome.symm⟩

end Session.Accounts

namespace World

variable {make : Maker V R σ} {w w' : World V R σ} {i : Nat} {x : Session R} {st₀ st : σ} {heard : Heard V}
  {sent : List R}

/-- What a session waits to send is no more unsent behind that. -/
private theorem unsent_of_sends? {p next : Phase R} {r : R} (h : p.sends? = some (r, next)) : next.unsent = [] := by
  cases p <;> simp only [Phase.sends?, Option.some.injEq, Prod.mk.injEq, reduceCtorEq] at h
  · obtain ⟨-, rfl⟩ := h
    rfl
  · obtain ⟨-, rfl⟩ := h
    rfl

private theorem hasHeard_of_sends? {p next : Phase R} {r : R} (h : p.sends? = some (r, next))
    (hheard : p.HasHeard heard) : next.HasHeard heard := by
  cases p <;> simp only [Phase.sends?, Option.some.injEq, Prod.mk.injEq, reduceCtorEq] at h
  · obtain ⟨-, rfl⟩ := h
    exact hheard
  · obtain ⟨-, rfl⟩ := h
    exact hheard

/-- A session that ends accounts for what ended it. -/
private theorem accounts_endSession {w₁ : World V R σ} (hsessions : w₁.sessions = w.sessions) {o : Outcome}
    (hm : w₁.makers[x.maker]? = some st)
    (hcourse : heard.course make x.key st₀ = { state := st, replies := sent, outcome := some o }) (i : Nat) :
    ∃ p new st', (w₁.endSession i x o).sessions = w.sessions.set i (x.goOn p new) ∧
      (w₁.endSession i x o).makers[x.maker]? = some st' ∧
      (x.goOn p new).Accounts make st₀ heard st' (sent ++ new) := by
  refine ⟨x.afterEnd o, [], st, ?_, hm, x.hasHeard_afterEnd o heard, congrArg Course.state hcourse, ?_, ?_⟩
  · rw [x.goOn_nil, ← hsessions]
    rfl
  · change _ = sent ++ [] ++ (x.afterEnd o).unsent
    rw [x.unsent_afterEnd, List.append_nil, List.append_nil]
    exact congrArg Course.replies hcourse
  · change _ = (x.afterEnd o).outcome?
    rw [x.outcome?_afterEnd]
    exact congrArg Course.outcome hcourse

/-- A step of a session at work whose receiver stays keeps to the course of what it has heard. -/
theorem Advances.accounts (h : Advances make w i x w') (hworking : x.phase.isAtWork = true)
    (hheld : x.replies.receiving = true) (hm : w.makers[x.maker]? = some st)
    (ha : x.Accounts make st₀ heard st sent) :
    ∃ p new st', w'.sessions = w.sessions.set i (x.goOn p new) ∧ w'.makers[x.maker]? = some st' ∧
      (x.goOn p new).Accounts make st₀ (w.hear x heard) st' (sent ++ new) := by
  have hset : ∀ st' : σ, (w.makers.set x.maker st')[x.maker]? = some st' := fun st' =>
    List.getElem?_set_self (List.getElem?_eq_some_iff.1 hm).1
  cases h with
  | call hp =>
    have hheard := ha.hasHeard
    rw [hp] at hheard
    refine ⟨.reading, [], st, by rw [x.goOn_nil]; rfl, hm, ?_⟩
    rw [hear_starting hp]
    exact ha.goOn_silent hheard (by rw [hp]; rfl) (by rw [hp]; rfl)
  | unread hp hanswer =>
    obtain ⟨rfl, rfl, rfl⟩ := ha.of_reading hp
    rw [hear_answer hp hanswer]
    exact accounts_endSession rfl hm rfl i
  | @read v st₁ st' r changed hp hanswer hmaker hmade =>
    obtain ⟨rfl, rfl, rfl⟩ := ha.of_reading hp
    obtain rfl : st₁ = st₀ := Option.some.inj (hmaker.symm.trans hm)
    refine ⟨.sendingSnapshot r, [], st', by rw [x.goOn_nil]; rfl, hset st', ?_⟩
    rw [hear_answer hp hanswer]
    exact .of_course (Heard.course_of_made rfl hmade) ⟨v, rfl⟩ rfl
  | @unmade v st₁ st' status hp hanswer hmaker hmade =>
    obtain ⟨rfl, rfl, rfl⟩ := ha.of_reading hp
    obtain rfl : st₁ = st₀ := Option.some.inj (hmaker.symm.trans hm)
    rw [hear_answer hp hanswer]
    exact accounts_endSession (by rfl) (hset st') (Heard.course_of_unmade rfl hmade) i
  | @send r next hp =>
    have hunsent : x.phase.unsent = [r] := by rw [Phase.unsent, hp]; rfl
    refine ⟨next, [r], st, rfl, hm, ?_⟩
    rw [hear_of_sends? hp]
    refine ⟨hasHeard_of_sends? hp ha.hasHeard, ha.state, ?_, ?_⟩
    · change _ = sent ++ [r] ++ next.unsent
      rw [unsent_of_sends? hp, List.append_nil, ← hunsent]
      exact ha.replies
    · change _ = next.outcome?
      rw [Phase.outcome?_of_isAtWork (isAtWork_of_sends? hp).2, ← Phase.outcome?_of_isAtWork hworking]
      exact ha.outcome
  | disconnect _ hgone => simp [hheld] at hgone
  | @subscribe id store hp hgranted =>
    obtain ⟨v, rfl, hcourse⟩ := ha.of_subscribing hp
    refine ⟨.awaiting id, [], st, by rw [x.goOn_nil]; rfl, hm, ?_⟩
    rw [hear_granted hp hgranted]
    refine .of_course ((Heard.course_granted v).trans (hcourse.trans ?_)) ⟨v, [], rfl⟩ rfl
    simp [Phase.unsent, Phase.sends?]
  | @refused f store hp hgranted =>
    obtain ⟨v, rfl, hcourse⟩ := ha.of_subscribing hp
    have hrefused := Heard.course_refused f (congrArg Course.outcome hcourse)
    rw [hcourse] at hrefused
    rw [hear_refused hp hgranted]
    exact accounts_endSession (by rfl) hm hrefused i
  | @crash store hp hgranted =>
    have hhear : w.hear x heard = heard := by simp only [World.hear, hp, hgranted]
    refine ⟨.crashed, [], st, by rw [x.goOn_nil]; rfl, hm, ?_⟩
    rw [hhear]
    exact ha.goOn_silent trivial (by rw [hp]; rfl) (by rw [hp]; rfl)
  | @value id e u store st₁ st' r changed hp hgot htold hmaker hmade =>
    obtain ⟨v, es, rfl, hcourse⟩ := ha.of_awaiting hp
    obtain rfl : st₁ = st := Option.some.inj (hmaker.symm.trans hm)
    have hnext := Heard.course_event make x.key st₀ v es e
    rw [hcourse, Course.hear_of_value rfl htold, Course.answer_of_made hmade] at hnext
    refine ⟨if changed then .sending id r else .awaiting id, [], st', by rw [x.goOn_nil]; rfl, hset st', ?_⟩
    rw [hear_event hp hgot]
    cases changed with
    | true =>
      refine .of_course (hnext.trans ?_) ⟨v, es ++ [e], rfl⟩ rfl
      simp [Phase.unsent, Phase.sends?]
    | false =>
      refine .of_course (hnext.trans ?_) ⟨v, es ++ [e], rfl⟩ rfl
      simp [Phase.unsent, Phase.sends?]
  | @unmadeValue id e u store st₁ st' status hp hgot htold hmaker hmade =>
    obtain ⟨v, es, rfl, hcourse⟩ := ha.of_awaiting hp
    obtain rfl : st₁ = st := Option.some.inj (hmaker.symm.trans hm)
    have hnext := Heard.course_event make x.key st₀ v es e
    rw [hcourse, Course.hear_of_value rfl htold, Course.answer_of_unmade hmade] at hnext
    rw [hear_event hp hgot]
    exact accounts_endSession (by rfl) (hset st') hnext i
  | @failure id e text store hp hgot htold =>
    obtain ⟨v, es, rfl, hcourse⟩ := ha.of_awaiting hp
    have hnext := Heard.course_event make x.key st₀ v es e
    rw [hcourse, Course.hear_of_error rfl htold] at hnext
    rw [hear_event hp hgot]
    exact accounts_endSession (by rfl) hm hnext i
  | ended hp hgot =>
    obtain ⟨v, es, rfl, hcourse⟩ := ha.of_awaiting hp
    have hnext := Heard.course_ended make x.key st₀ v es
    rw [hcourse] at hnext
    rw [hear_end hp hgot]
    exact accounts_endSession (by rfl) hm hnext i
  | report hp => simp [hp, Phase.isAtWork] at hworking
  | unreported hp => simp [hp, Phase.isAtWork] at hworking

end World

end ResourceWatch

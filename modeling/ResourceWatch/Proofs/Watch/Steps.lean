import ResourceWatch.Proofs.Watch.Moves

/-!
# The steps of a session

Each step of a session keeps `HandOver.Inv` or ends the session: one lemma for each phase, and `Inv.advance` for all.
The phases in which a reply is made come last, since they need equal replies to be recognised as equal.
-/

namespace ResourceWatch.HandOver

variable {V R : Type} [Inhabited V] {reply : String → V → R} {capacity : Nat} {prefill : List (Item R)} {i : Nat}
  {h : HandOver V R} {s : MemoryStore V} {x : Session R}

/-! ### Steps that make no reply -/

variable {make : Maker V R (ChangeCache R)} {w : World V R (ChangeCache R)}

private theorem advance_eq (hx : h.world.sessions[i]? = some x) :
    h.advance make i = match World.advance? make h.world i x with
      | some w => { h with world := w, log := h.seen x ++ h.log, snapshot := h.snapshotAfter x }
      | none => h := by
  rw [HandOver.advance, hx, World.turn?_advance hx]
  cases World.advance? make h.world i x <;> rfl

omit [Inhabited V] in
private theorem isOver_endSession {w : World V R (ChangeCache R)} {o : Outcome} {h' : HandOver V R}
    (hi : i < w.sessions.length) (hw : h'.world = w.endSession i x o) : h'.IsOver i := by
  refine ⟨{ x with phase := x.afterEnd o }, ?_, Or.inl ?_⟩
  · rw [hw]
    simp [World.endSession, World.setSession, hi]
  · simp [Session.outcome?_afterEnd]

/-- The state after a step of the session that leads to the world `w`. -/
private abbrev stepped (h : HandOver V R) (x : Session R) (w : World V R (ChangeCache R)) : HandOver V R :=
  { h with world := w, log := h.seen x ++ h.log, snapshot := h.snapshotAfter x }

private theorem advance_starting (hinv : Inv reply capacity prefill i h s x) (hp : x.phase = .starting)
    (hw : World.advance? make h.world i x = some w) :
    ∃ x', Inv reply capacity prefill i (h.stepped x w) s x' := by
  have hi : i < h.world.sessions.length := (List.getElem?_eq_some_iff.1 hinv.session_eq).1
  have hlog : h.seen x = [] := by simp [seen, hinv.store_eq, Session.storeAct?, hp]
  obtain ⟨sent, hsent, -⟩ := hinv.sent
  simp only [World.advance?, hp, hinv.store_eq, Backend.call, Option.some.injEq] at hw
  subst hw
  refine ⟨{ x with phase := .reading }, rfl, ?_, ?_, hinv.receiving, sent, hsent, trivial⟩
  · simp [World.setSession, hi]
  · simpa [stepped, hlog] using hinv.sound

private theorem advance_sendingSnapshot (hinv : Inv reply capacity prefill i h s x) {r : R}
    (hp : x.phase = .sendingSnapshot r)
    (hw : World.advance? make h.world i x = some w) :
    ∃ x', Inv reply capacity prefill i (h.stepped x w) s x' := by
  have hi : i < h.world.sessions.length := (List.getElem?_eq_some_iff.1 hinv.session_eq).1
  have hlog : h.seen x = [] := by simp [seen, hinv.store_eq, Session.storeAct?, hp]
  obtain ⟨sent, hsent, hstands⟩ := hinv.sent
  simp only [Stands, hp] at hstands
  obtain ⟨v, hv, rfl, hcache⟩ := hstands
  simp only [World.advance?, hp, World.send?, hinv.receiving, Bool.not_true, Bool.false_eq_true, if_false] at hw
  split at hw
  · simp only [Option.some.injEq] at hw
    subst hw
    refine ⟨x.send (.ok (reply x.key v)) .subscribing, hinv.store_eq, ?_, ?_, hinv.receiving,
      sent ++ [.ok (reply x.key v)], ?_, v, ?_, hcache, ?_⟩
    · simp [World.setSession, hi]
    · simpa [stepped, hlog] using hinv.sound
    · simp [Session.send, ← List.append_assoc, hsent]
    · simpa [stepped, snapshotAfter, hp] using hv
    · simp [Session.send]
  · simp at hw

private theorem advance_subscribing (hinv : Inv reply capacity prefill i h s x) (hp : x.phase = .subscribing)
    (hw : World.advance? make h.world i x = some w) :
    (∃ s' x', Inv reply capacity prefill i (h.stepped x w) s' x') ∨ (h.stepped x w).IsOver i := by
  have hi : i < h.world.sessions.length := (List.getElem?_eq_some_iff.1 hinv.session_eq).1
  obtain ⟨sent, hsent, hstands⟩ := hinv.sent
  simp only [Stands, hp] at hstands
  obtain ⟨v, hv, hcache, hlast⟩ := hstands
  simp only [World.advance?, hp, World.subscribe, hinv.store_eq, Backend.watch, Option.some.injEq] at hw
  cases hwatch : s.watch x.key x.token with
  | error e =>
    cases e with
    | refused f =>
      simp only [hwatch] at hw
      exact Or.inr (isOver_endSession (by exact hi) hw.symm)
    | tooLarge =>
      simp only [hwatch] at hw
      subst hw
      exact Or.inr ⟨{ x with phase := .crashed }, by simp [World.crashSession, World.setSession, hi], Or.inr rfl⟩
  | ok r =>
    obtain ⟨id, t⟩ := r
    simp only [hwatch] at hw
    subst hw
    have hlog : h.seen x = [.opened id] := by
      simp [seen, hinv.store_eq, Session.storeAct?, hp, MemoryStore.act, hwatch]
    -- nothing has been taken from the new stream, so the snapshot is what the session was told last
    have htold : ∀ w, (h.stepped x w).lastTold id v = v := fun w => by simp [lastTold, hlog, Log.taken]
    refine Or.inl ⟨t, { x with phase := .awaiting id }, rfl, ?_, ?_, hinv.receiving, sent, hsent, v, ?_, ?_, ?_, ?_⟩
    · simp [World.setSession, hi]
    · simpa [stepped, hlog] using hinv.sound.watch hwatch
    · simpa [stepped, snapshotAfter, hp] using hv
    · simpa [stepped, hlog] using Chronicle.Follows.watch hwatch
    · rw [htold]
      exact hcache
    · rw [htold]
      exact hlast

private theorem advance_sending (hinv : Inv reply capacity prefill i h s x) {id : Nat} {r : R}
    (hp : x.phase = .sending id r) (hw : World.advance? make h.world i x = some w) :
    ∃ x', Inv reply capacity prefill i (h.stepped x w) s x' := by
  have hi : i < h.world.sessions.length := (List.getElem?_eq_some_iff.1 hinv.session_eq).1
  have hlog : h.seen x = [] := by simp [seen, hinv.store_eq, Session.storeAct?, hp]
  obtain ⟨sent, hsent, hstands⟩ := hinv.sent
  simp only [Stands, hp] at hstands
  obtain ⟨v, hv, hfollows, rfl, hcache⟩ := hstands
  have htold : ∀ w, (h.stepped x w).lastTold id v = h.lastTold id v := fun w => by simp [lastTold, hlog]
  simp only [World.advance?, hp, World.send?, hinv.receiving, Bool.not_true, Bool.false_eq_true, if_false] at hw
  split at hw
  · simp only [Option.some.injEq] at hw
    subst hw
    refine ⟨x.send (.ok (reply x.key (h.lastTold id v))) (.awaiting id), hinv.store_eq, ?_, ?_, hinv.receiving,
      sent ++ [.ok (reply x.key (h.lastTold id v))], ?_, v, ?_, ?_, ?_, ?_⟩
    · simp [World.setSession, hi]
    · simpa [stepped, hlog] using hinv.sound
    · simp [Session.send, ← List.append_assoc, hsent]
    · simpa [stepped, snapshotAfter, hp] using hv
    · simpa [hlog, Session.send] using hfollows
    · rw [htold]
      exact hcache
    · rw [htold, List.getLast?_concat]
      rfl
  · simp at hw

theorem isOver_report {e : WatchFailure} (hx : h.world.sessions[i]? = some x) (hp : x.phase = .reporting e)
    (hw : World.advance? make h.world i x = some w) : (h.stepped x w).IsOver i := by
  have hi : i < h.world.sessions.length := (List.getElem?_eq_some_iff.1 hx).1
  simp only [World.advance?, hp, World.report?] at hw
  split at hw
  · simp only [Option.some.injEq] at hw
    subst hw
    exact ⟨{ x with phase := .finished (.failed e) }, by simp [World.setSession, hi], Or.inl rfl⟩
  · split at hw
    · simp only [Option.some.injEq] at hw
      subst hw
      exact ⟨x.send (.error e.status) (.finished (.failed e)), by simp [World.setSession, hi], Or.inl rfl⟩
    · simp at hw

/-- A session that has ended stays so. -/
theorem IsOver.move (hover : h.IsOver i) (m : Move V) : (h.move make i m).IsOver i := by
  obtain ⟨x, hx, hphase⟩ := hover
  have hact : ∀ a, (h.act a).world.sessions = h.world.sessions := by
    intro a
    unfold HandOver.act
    split <;> rfl
  cases m with
  | put key value => exact ⟨x, (congrArg (·[i]?) (hact _)).trans hx, hphase⟩
  | delete key => exact ⟨x, (congrArg (·[i]?) (hact _)).trans hx, hphase⟩
  | flush id =>
    refine ⟨x, ?_, hphase⟩
    rw [← hx]
    simp only [HandOver.move, World.turn?]
    cases h.world.store.flush? id <;> rfl
  | advance =>
    simp only [HandOver.move, advance_eq hx]
    cases hw : World.advance? make h.world i x with
    | none => exact ⟨x, hx, hphase⟩
    | some w =>
      cases hp : x.phase with
      | reporting e => exact isOver_report hx hp hw
      | finished o => simp [World.advance?, hp] at hw
      | crashed => simp [World.advance?, hp] at hw
      | _ => simp [hp, Phase.outcome?] at hphase
  | receive =>
    rcases receive_cases hx with ⟨-, heq⟩ | ⟨r, rest, -, heq⟩
    · rw [HandOver.move, heq]
      exact ⟨x, hx, hphase⟩
    · have hi : i < h.world.sessions.length := (List.getElem?_eq_some_iff.1 hx).1
      rw [HandOver.move, heq]
      exact ⟨{ x with replies := { x.replies with items := rest } }, by simp [World.setSession, hi], hphase⟩

/-! ### Steps that make a reply -/

variable [BEq R] [LawfulBEq R]

omit [Inhabited V] [LawfulBEq R] in
private theorem transform?_deduplicating (w : World V R (ChangeCache R)) (i : Nat) (x : Session R) (v : V)
    (next : R → Bool → Phase R) :
    World.transform? (Endpoint.deduplicating reply) w i x v next =
      (w.makers[x.maker]?).map fun cache =>
        { w with makers := w.makers.set x.maker (cache.observe x.key (reply x.key v)).2 }.setSession i
          { x with phase := next (reply x.key v) (cache.observe x.key (reply x.key v)).1 } := by
  unfold World.transform?
  cases w.makers[x.maker]? <;> rfl

private theorem advance_reading (hinv : Inv reply capacity prefill i h s x) (hp : x.phase = .reading)
    (hw : World.advance? (Endpoint.deduplicating reply) h.world i x = some w) :
    (∃ x', Inv reply capacity prefill i (h.stepped x w) s x') ∨ (h.stepped x w).IsOver i := by
  have hi : i < h.world.sessions.length := (List.getElem?_eq_some_iff.1 hinv.session_eq).1
  have hlog : h.seen x = [] := by simp [seen, hinv.store_eq, Session.storeAct?, hp]
  obtain ⟨sent, hsent, -⟩ := hinv.sent
  simp only [World.advance?, hp, hinv.store_eq, Backend.answer?] at hw
  cases hget : s.get x.key with
  | error f =>
    simp only [hget, Option.some.injEq] at hw
    exact Or.inr (isOver_endSession hi hw.symm)
  | ok v =>
    simp only [hget, transform?_deduplicating, Option.map_eq_some_iff] at hw
    obtain ⟨cache, hcache, rfl⟩ := hw
    have hm : x.maker < h.world.makers.length := (List.getElem?_eq_some_iff.1 hcache).1
    refine Or.inl ⟨{ x with phase := .sendingSnapshot (reply x.key v) }, hinv.store_eq, ?_, ?_, hinv.receiving, sent,
      hsent, v, ?_, rfl, ?_⟩
    · simp [World.setSession, hi]
    · simpa [stepped, hlog] using hinv.sound
    · simp [snapshotAfter, hp, hinv.store_eq, Backend.answer?, hget, Except.toOption]
    · exact ⟨(cache.observe x.key (reply x.key v)).2, by simp [World.setSession, hm],
        by rw [ChangeCache.get?_observe, if_pos rfl]⟩

private theorem advance_awaiting (hinv : Inv reply capacity prefill i h s x) {id : Nat} (hp : x.phase = .awaiting id)
    (hw : World.advance? (Endpoint.deduplicating reply) h.world i x = some w) :
    (∃ s' x', Inv reply capacity prefill i (h.stepped x w) s' x') ∨ (h.stepped x w).IsOver i := by
  have hi : i < h.world.sessions.length := (List.getElem?_eq_some_iff.1 hinv.session_eq).1
  have hlog : h.seen x = s.taking id := by simp [seen, hinv.store_eq, Session.storeAct?, hp, MemoryStore.act]
  obtain ⟨sent, hsent, hstands⟩ := hinv.sent
  simp only [Stands, hp] at hstands
  obtain ⟨v, hv, hfollows, hcache, hlast⟩ := hstands
  simp only [World.advance?, hp, World.awaitEvent?, hinv.store_eq, Backend.receive_memory] at hw
  cases hgot : (s.receive id).1 with
  | pending =>
    simp only [hgot] at hw
    simp at hw
  | ended =>
    simp only [hgot, Option.some.injEq] at hw
    exact Or.inr (isOver_endSession hi hw.symm)
  | item e =>
    obtain ⟨st, hst, hkey, hattached, hr⟩ := hfollows.live
    have he : st.receive.1 = .item e := by simpa [MemoryStore.receive, hst] using hgot
    have hmem : e ∈ st.ahead := by
      rw [EventStream.receive_item he]
      exact List.mem_cons_self
    obtain ⟨u, hu⟩ := hfollows.value?_of_mem_ahead hinv.sound hst hmem
    have htaking : s.taking id = [.taken id e] := by simp [MemoryStore.taking, hgot]
    have htold : ∀ w, (h.stepped x w).lastTold id v = u := fun w => by
      simp [lastTold, hlog, htaking, Log.taken, hu]
    simp only [hgot, World.onEvent?_of_value _ hu, transform?_deduplicating, Option.map_eq_some_iff] at hw
    obtain ⟨cache, hc, rfl⟩ := hw
    obtain ⟨cache', hc', hget⟩ := hcache
    obtain rfl : cache = cache' := Option.some.inj (hc.symm.trans hc')
    have hm : x.maker < h.world.makers.length := (List.getElem?_eq_some_iff.1 hc).1
    have hremembers : (cache.observe x.key (reply x.key u)).2.get? x.key = some (reply x.key u) := by
      rw [ChangeCache.get?_observe, if_pos rfl]
    have hsound : Chronicle.Sound capacity ⟨(s.receive id).2, h.seen x ++ h.log⟩ := by
      rw [hlog]
      exact hinv.sound.receive id
    have hfollows' : Chronicle.Follows x.key id ⟨(s.receive id).2, h.seen x ++ h.log⟩ := by
      rw [hlog]
      exact hfollows.act (a := .receive id) trivial
    have hsnapshot : h.snapshotAfter x = some v := by simpa [snapshotAfter, hp] using hv
    let next : Phase R :=
      if (cache.observe x.key (reply x.key u)).1 then .sending id (reply x.key u) else .awaiting id
    refine Or.inl ⟨(s.receive id).2, { x with phase := next }, rfl, ?_, hsound, hinv.receiving, sent, hsent, ?_⟩
    · exact List.getElem?_set_self hi
    · cases hchanged : (cache.observe x.key (reply x.key u)).1 with
      | true =>
        -- a change: the reply is about to be sent, and the cache remembers it
        have hnext : next = .sending id (reply x.key u) := if_pos hchanged
        rw [hnext]
        refine ⟨v, hsnapshot, hfollows', ?_, (cache.observe x.key (reply x.key u)).2, ?_, hremembers⟩
        · rw [htold]
        · exact List.getElem?_set_self hm
      | false =>
        -- no change: the cache remembered this reply before, so it is the one that was sent last
        have hnext : next = .awaiting id := if_neg (by simp [hchanged])
        rw [hnext]
        have hkept : reply x.key (h.lastTold id v) = reply x.key u :=
          Option.some.inj (hget.symm.trans ((ChangeCache.observe_eq_false_iff _ _ _).1 hchanged))
        refine ⟨v, hsnapshot, hfollows', ⟨(cache.observe x.key (reply x.key u)).2, List.getElem?_set_self hm, ?_⟩, ?_⟩
        · rw [htold]
          exact hremembers
        · rw [htold, ← hkept]
          exact hlast

/-- The session is at work as the invariant says, or it has ended. -/
def Coherent (reply : String → V → R) (capacity : Nat) (prefill : List (Item R)) (i : Nat)
    (h : HandOver V R) : Prop :=
  (∃ s x, Inv reply capacity prefill i h s x) ∨ h.IsOver i

/-- A step of the session, whatever its phase. -/
theorem Inv.advance (hinv : Inv reply capacity prefill i h s x) :
    Coherent reply capacity prefill i (h.advance (Endpoint.deduplicating reply) i) := by
  have hi : i < h.world.sessions.length := (List.getElem?_eq_some_iff.1 hinv.session_eq).1
  rw [advance_eq hinv.session_eq]
  cases hw : World.advance? (Endpoint.deduplicating reply) h.world i x with
  | none => exact Or.inl ⟨s, x, hinv⟩
  | some w =>
    cases hp : x.phase with
    | idle => simp [World.advance?, hp] at hw
    | starting =>
      obtain ⟨x', h'⟩ := advance_starting hinv hp hw
      exact Or.inl ⟨s, x', h'⟩
    | reading =>
      rcases advance_reading hinv hp hw with ⟨x', h'⟩ | hover
      · exact Or.inl ⟨s, x', h'⟩
      · exact Or.inr hover
    | sendingSnapshot r =>
      obtain ⟨x', h'⟩ := advance_sendingSnapshot hinv hp hw
      exact Or.inl ⟨s, x', h'⟩
    | subscribing => exact advance_subscribing hinv hp hw
    | awaiting id => exact advance_awaiting hinv hp hw
    | sending id r =>
      obtain ⟨x', h'⟩ := advance_sending hinv hp hw
      exact Or.inl ⟨s, x', h'⟩
    | reporting e => exact Or.inr (isOver_report hinv.session_eq hp hw)
    | finished o => simp [World.advance?, hp] at hw
    | crashed => simp [World.advance?, hp] at hw

end ResourceWatch.HandOver

import ResourceWatch.Proofs.Watch.Steps

/-!
# From the snapshot to the event stream

A session reads the value of its key, sends the reply made of it, and only then subscribes; what is published in
between is not told to it.  Later on it loses nothing: while it waits with nothing ahead of it, the last reply that it
sent is that of the stored value, once an event has been published since it subscribed, and that of its snapshot until
then.
-/

namespace ResourceWatch

variable {Q V R : Type} [Inhabited V]

namespace HandOver

variable {reply : String → V → R} {capacity : Nat} {prefill : List (Item R)} {i : Nat} {h : HandOver V R}
  {s : MemoryStore V} {x : Session R}

theorem Inv.start {endpoint : Endpoint Q V R (ChangeCache R)} {w w' : World V R (ChangeCache R)} {log : Log V}
    (hstore : w.store = .memory s) (hsound : Chronicle.Sound capacity ⟨s, log⟩) {maker : Nat} {request : Q}
    {ctx : CallContext} {replies : Queue (Item R)} (halive : replies.receiving = true)
    (hopen : w.openSession endpoint maker request ctx replies = .ok (i, w')) :
    ∃ x, Inv reply capacity replies.items i { world := w'.startSession i, log } s x := by
  unfold World.openSession at hopen
  cases hkey : endpoint.keyOf request ctx with
  | error status => simp [hkey] at hopen
  | ok key =>
    simp only [hkey, Except.ok.injEq, Prod.mk.injEq] at hopen
    obtain ⟨rfl, rfl⟩ := hopen
    let x : Session R :=
      { key, token := (w.newToken ctx.token).1, maker, served := false, phase := .starting, replies,
        monitored := false }
    refine ⟨x, hstore, ?_, hsound, halive, [], by simp [x], trivial⟩
    simp [World.startSession, World.modifySession, World.newToken, x]

variable [BEq R] [LawfulBEq R]

theorem Coherent.move (hc : Coherent reply capacity prefill i h) (m : Move V) :
    Coherent reply capacity prefill i (h.move (Endpoint.deduplicating reply) i m) := by
  rcases hc with ⟨s, x, hinv⟩ | hover
  · cases m with
    | put key value => exact Or.inl ⟨_, x, hinv.act (a := .put key value) trivial fun _ => rfl⟩
    | delete key => exact Or.inl ⟨_, x, hinv.act (a := .delete key) trivial (s.taken_delete key h.log)⟩
    | flush id => exact Or.inl ⟨_, x, hinv.flush _ id⟩
    | advance => exact hinv.advance
    | receive =>
      obtain ⟨x', h'⟩ := hinv.receive
      exact Or.inl ⟨s, x', h'⟩
  · exact Or.inr (hover.move m)

theorem Coherent.moves (hc : Coherent reply capacity prefill i h) (ms : List (Move V)) :
    Coherent reply capacity prefill i (h.moves (Endpoint.deduplicating reply) i ms) := by
  induction ms generalizing h with
  | nil => exact hc
  | cons m ms ih => exact ih (hc.move m)

end HandOver

/-- While a session waits for an event with nothing ahead of it, the last reply that it sent is that of the value that
the store holds, or of its snapshot if nothing has been published on the key since it subscribed. -/
theorem last_reply_after_hand_over [BEq R] [LawfulBEq R] (reply : String → V → R)
    (endpoint : Endpoint Q V R (ChangeCache R)) (hmake : endpoint.make = Endpoint.deduplicating reply)
    (eventBuffer : Nat) (history : List (StoreAct V)) (w w' : World V R (ChangeCache R))
    (hstore : w.store = .memory ((Chronicle.opening eventBuffer).acts history).store) (maker i : Nat) (request : Q)
    (ctx : CallContext) (replies : Queue (Item R)) (halive : replies.receiving = true)
    (hopen : w.openSession endpoint maker request ctx replies = .ok (i, w')) (ms : List (Move V)) :
    let start : HandOver V R :=
      { world := w'.startSession i, log := ((Chronicle.opening eventBuffer).acts history).log }
    let h := start.moves endpoint.make i ms
    ∀ (x : Session R) (id : Nat) (st : EventStream V), h.world.sessions[i]? = some x → x.phase = .awaiting id →
      h.world.store.streams[id]? = some st → st.queue.items = [] → st.parked = none →
      ∃ snapshot, h.snapshot = some snapshot ∧ (h.sent x replies.items).getLast? =
        some (.ok (reply x.key (if Log.told id x.key h.log = [] then snapshot else h.stored x.key))) := by
  intro start h x id st hx hp hst hitems hparked
  have hsound : Chronicle.Sound (max eventBuffer 1) ((Chronicle.opening eventBuffer).acts history) :=
    (Chronicle.Sound.opening eventBuffer).acts history
  obtain ⟨x₀, hstart⟩ : ∃ x₀, HandOver.Inv reply (max eventBuffer 1) replies.items i start _ x₀ :=
    HandOver.Inv.start hstore hsound halive hopen
  have hrun : HandOver.Coherent reply (max eventBuffer 1) replies.items i h := by
    have := HandOver.Coherent.moves (Or.inl ⟨_, x₀, hstart⟩) ms
    rwa [← hmake] at this
  rcases hrun with ⟨s, x', hinv⟩ | ⟨x', hx', hover⟩
  · rw [hinv.store_eq] at hst
    obtain rfl : x = x' := Option.some.inj (hx.symm.trans hinv.session_eq)
    obtain ⟨sent, hsent, hstands⟩ := hinv.sent
    simp only [HandOver.Stands, hp] at hstands
    obtain ⟨v, hv, hfollows, -, hlast⟩ := hstands
    refine ⟨v, hv, ?_⟩
    have hahead : st.ahead = [] := by simp [EventStream.ahead, hitems, hparked]
    obtain ⟨hnone, hsome⟩ := hfollows.getLast?_taken hinv.sound hst hahead
    rw [HandOver.sent, hsent, List.drop_left, hlast, HandOver.lastTold, HandOver.stored, hinv.store_eq]
    by_cases htold : Log.told id x.key h.log = []
    · rw [if_pos htold, hnone htold]
      rfl
    · rw [if_neg htold, hsome htold]
      rfl
  · obtain rfl : x = x' := Option.some.inj (hx.symm.trans hx')
    simp [hp, Phase.outcome?] at hover

/-- A value that is stored between the session's read and its subscription is not told to it: its last reply stays the
snapshot's. -/
theorem update_missed_at_hand_over :
    let endpoint : Endpoint String Nat Nat (ChangeCache Nat) :=
      ⟨fun key _ => .ok key, Endpoint.deduplicating fun _ v => v⟩
    let c := (Chronicle.opening 1).acts [.put "k" 1]
    let w : World Nat Nat (ChangeCache Nat) := { store := .memory c.store, makers := [{}] }
    ∃ w', w.openSession endpoint 0 "k" { token := [] } { capacity := 1 } = .ok (0, w') ∧
      let start : HandOver Nat Nat := { world := w'.startSession 0, log := c.log }
      let h := start.moves endpoint.make 0 [.advance, .advance, .put "k" 2, .advance, .advance]
      ∃ x, h.world.sessions[0]? = some x ∧ x.phase = .awaiting 0 ∧
        h.world.store.streams[0]?.map (·.ahead) = some [] ∧
        (h.sent x []).getLast?.bind (·.toOption) = some 1 ∧ h.stored "k" = 2 := by
  intro endpoint c w
  let x₀ : Session Nat :=
    { key := "k", token := [0], maker := 0, served := false, phase := .idle, replies := { capacity := 1 },
      monitored := false }
  refine ⟨{ w with tokens := { next := 1 }, sessions := [x₀] }, rfl, ?_⟩
  intro start h
  obtain ⟨x, hx⟩ : ∃ x, h.world.sessions[0]? = some x := Option.isSome_iff_exists.1 (by decide +kernel)
  have hphase : h.world.sessions[0]?.map (·.phase) = some (.awaiting 0) := by decide +kernel
  have hlast : h.world.sessions[0]?.bind (fun x => (h.sent x []).getLast?.bind (·.toOption)) = some 1 := by
    decide +kernel
  rw [hx, Option.map_some, Option.some.injEq] at hphase
  rw [hx, Option.bind_some] at hlast
  exact ⟨x, hx, hphase, by decide +kernel, hlast, by decide +kernel⟩

/-- One more value, stored behind the subscription, and the session is up to date. -/
theorem up_to_date_after_missed_update :
    let endpoint : Endpoint String Nat Nat (ChangeCache Nat) :=
      ⟨fun key _ => .ok key, Endpoint.deduplicating fun _ v => v⟩
    let w : World Nat Nat (ChangeCache Nat) :=
      { store := .memory ((Chronicle.opening 1).acts [.put "k" 1]).store, makers := [{}] }
    ∃ w', w.openSession endpoint 0 "k" { token := [] } { capacity := 2 } = .ok (0, w') ∧
      let start : HandOver Nat Nat :=
        { world := w'.startSession 0, log := ((Chronicle.opening 1).acts [.put "k" 1]).log }
      let h := start.moves endpoint.make 0
        [.advance, .advance, .put "k" 2, .advance, .advance, .put "k" 3, .advance, .advance]
      ∃ x, h.world.sessions[0]? = some x ∧ (h.sent x []).getLast? = some (.ok (h.stored "k")) ∧ h.stored "k" = 3 := by
  intro endpoint w
  let x₀ : Session Nat :=
    { key := "k", token := [0], maker := 0, served := false, phase := .idle, replies := { capacity := 2 },
      monitored := false }
  let w' : World Nat Nat (ChangeCache Nat) := { w with tokens := { next := 1 }, sessions := [x₀] }
  refine ⟨w', rfl, ?_⟩
  have hmain := last_reply_after_hand_over (fun _ v => v) endpoint rfl 1 [.put "k" 1] w w' rfl 0 0 "k"
    { token := [] } { capacity := 2 } rfl rfl
    [.advance, .advance, .put "k" 2, .advance, .advance, .put "k" 3, .advance, .advance]
  dsimp only at hmain ⊢
  generalize hh : (HandOver.moves _ _ _ _ : HandOver Nat Nat) = h at hmain ⊢
  obtain ⟨x, hx⟩ : ∃ x, h.world.sessions[0]? = some x := by
    refine Option.isSome_iff_exists.1 ?_
    rw [← hh]
    decide +kernel
  obtain ⟨st, hst⟩ : ∃ st, h.world.store.streams[0]? = some st := by
    refine Option.isSome_iff_exists.1 ?_
    rw [← hh]
    decide +kernel
  have hphase : h.world.sessions[0]?.map (fun x => (x.phase, x.key)) = some (.awaiting 0, "k") := by
    rw [← hh]
    decide +kernel
  have hahead : h.world.store.streams[0]?.map (fun st => (st.queue.items, st.parked)) = some ([], none) := by
    rw [← hh]
    decide +kernel
  have htold : Log.told 0 "k" h.log ≠ [] := by
    rw [← hh]
    decide +kernel
  have hstored : h.stored "k" = 3 := by
    rw [← hh]
    decide +kernel
  rw [hx, Option.map_some, Option.some.injEq, Prod.mk.injEq] at hphase
  rw [hst, Option.map_some, Option.some.injEq, Prod.mk.injEq] at hahead
  obtain ⟨v, -, hlast⟩ := hmain x 0 st hx hphase.1 hst hahead.1 hahead.2
  rw [hphase.2, if_neg htold] at hlast
  exact ⟨x, hx, hlast, hstored⟩

end ResourceWatch

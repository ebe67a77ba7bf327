import ResourceWatch.Proofs.Store.Beside
import ResourceWatch.Proofs.Watch.Advances

/-!
# Sessions side by side

What the turns of a session's own tasks may do to the rest of the world (`World.Stirs`): cancel the token of the
session, change the endpoint state that makes its replies, subscribe, and receive from the event stream of the session
or let go of it.
-/

namespace ResourceWatch

variable {V R σ : Type} [Inhabited V]

/-- The acts of a session on the store. -/
def Session.MayDo (x : Session R) : StoreAct V → Prop
  | .watch _ _ => True
  | .receive id | .dropReceiver id => x.phase.stream? = some id
  | _ => False

/-- The session `x` becomes `x'` in a world whose store is that of the chronicle `c`. -/
structure World.Stirs (c : Chronicle V) (w : World V R σ) (x x' : Session R) (w' : World V R σ) : Prop where
  token_eq : x'.token = x.token
  maker_eq : x'.maker = x.maker
  watchers_eq : w'.watchers = w.watchers
  tokens : w'.tokens = w.tokens ∨ w'.tokens = w.tokens.cancel x.token
  makers : ∀ m ≠ x.maker, w'.makers[m]? = w.makers[m]?
  acts : ∃ as : List (StoreAct V), (∀ a ∈ as, x.MayDo a) ∧ w'.store = .memory (c.acts as).store ∧
    ∀ id, x'.phase.stream? = some id →
      x.phase.stream? = some id ∨ c.store.streams.length = id ∧ id < (c.acts as).store.streams.length

namespace World

variable {make : Maker V R σ} {c : Chronicle V} {w w' : World V R σ} {i : Nat} {x : Session R}

/-- Besides what it did before, a session that ends lets go of its stream. -/
theorem endSession_acts (w : World V R σ) {as : List (StoreAct V)} (hstore : w.store = .memory (c.acts as).store)
    (i : Nat) (x : Session R) (o : Outcome) :
    ∃ as', (∀ a ∈ as', a ∈ as ∨ ∃ id, x.phase.stream? = some id ∧ a = .dropReceiver id) ∧
      (w.endSession i x o).store = .memory (c.acts as').store := by
  have hdropped : (w.endSession i x o).store = x.phase.stream?.elim w.store w.store.dropReceiver := rfl
  cases hs : x.phase.stream? with
  | none =>
    rw [hs, Option.elim_none, hstore] at hdropped
    exact ⟨as, fun a ha => Or.inl ha, hdropped⟩
  | some id =>
    have happend : c.acts (as ++ [.dropReceiver id]) = (c.acts as).act (.dropReceiver id) := List.foldl_append
    refine ⟨as ++ [.dropReceiver id], fun a ha => ?_, ?_⟩
    · exact (List.mem_append.1 ha).imp_right fun ha => ⟨id, rfl, List.mem_singleton.1 ha⟩
    · rw [hdropped, hs, Option.elim_some, hstore, happend]
      rfl

/-- What the session did to the store before it came to the world `w₁`, which is otherwise as it was. -/
private theorem stirs_endSession (w w₁ : World V R σ) {as : List (StoreAct V)} (hwatchers : w₁.watchers = w.watchers)
    (htokens : w₁.tokens = w.tokens) (hmakers : ∀ m ≠ x.maker, w₁.makers[m]? = w.makers[m]?)
    (has : ∀ a ∈ as, x.MayDo a) (hstore : w₁.store = .memory (c.acts as).store) (i : Nat) (o : Outcome) :
    w.Stirs c x { x with phase := x.afterEnd o } (w₁.endSession i x o) := by
  obtain ⟨as', has', hstore'⟩ := w₁.endSession_acts hstore i x o
  refine ⟨rfl, rfl, hwatchers, Or.inr (by rw [← htokens]; rfl), hmakers, as', fun a ha => ?_, hstore',
    fun id hid => ?_⟩
  · rcases has' a ha with ha | ⟨id, hid, rfl⟩
    · exact has a ha
    · exact hid
  · exact absurd hid (by simp [x.stream?_afterEnd])

/-- The session goes on to a phase without another stream. -/
private theorem stirs_of_phase {as : List (StoreAct V)} {x' : Session R}
    (hsame : x'.token = x.token ∧ x'.maker = x.maker) (hwatchers : w'.watchers = w.watchers)
    (htokens : w'.tokens = w.tokens ∨ w'.tokens = w.tokens.cancel x.token)
    (hmakers : ∀ m ≠ x.maker, w'.makers[m]? = w.makers[m]?) (has : ∀ a ∈ as, x.MayDo a)
    (hstore : w'.store = .memory (c.acts as).store)
    (hstream : ∀ id, x'.phase.stream? = some id → x.phase.stream? = some id) : w.Stirs c x x' w' :=
  ⟨hsame.1, hsame.2, hwatchers, htokens, hmakers, as, has, hstore, fun id hid => Or.inl (hstream id hid)⟩

omit [Inhabited V] in
private theorem makers_set (w : World V R σ) (n : Nat) (st : σ) :
    ∀ m ≠ n, (w.makers.set n st)[m]? = w.makers[m]? :=
  fun _ hm => List.getElem?_set_ne (Ne.symm hm)

theorem Advances.stirs (h : Advances make w i x w') (hc : w.store = .memory c.store) :
    ∃ x', w'.sessions = w.sessions.set i x' ∧ w.Stirs c x x' w' := by
  have hnothing : ∀ a ∈ ([] : List (StoreAct V)), x.MayDo a := fun _ ha => absurd ha List.not_mem_nil
  have hreceive : ∀ id, x.phase = .awaiting id → ∀ a ∈ [StoreAct.receive (V := V) id], x.MayDo a := by
    intro id hp a ha
    rw [List.mem_singleton.1 ha]
    change x.phase.stream? = some id
    rw [hp]
    rfl
  have hwatch : ∀ a ∈ [StoreAct.watch (V := V) x.key x.token], x.MayDo a := by
    intro a ha
    rw [List.mem_singleton.1 ha]
    trivial
  cases h with
  | call =>
    refine ⟨_, rfl, stirs_of_phase ⟨rfl, rfl⟩ rfl (Or.inl rfl) (fun _ _ => rfl) hnothing ?_ fun id hid => by
      simp [Phase.stream?] at hid⟩
    change w.store.call x.key = _
    rw [hc]
    rfl
  | unread => exact ⟨_, rfl, stirs_endSession w w rfl rfl (fun _ _ => rfl) hnothing hc i _⟩
  | read =>
    exact ⟨_, rfl, stirs_of_phase ⟨rfl, rfl⟩ rfl (Or.inl rfl) (makers_set w _ _) hnothing hc fun id hid => by
      simp [Phase.stream?] at hid⟩
  | @unmade _ _ st' =>
    exact ⟨_, rfl, stirs_endSession w { w with makers := w.makers.set x.maker st' } rfl rfl (makers_set w _ _)
      hnothing hc i _⟩
  | @send r next hp =>
    refine ⟨_, rfl, stirs_of_phase ⟨rfl, rfl⟩ rfl (Or.inl rfl) (fun _ _ => rfl) hnothing hc fun id hid => ?_⟩
    cases hphase : x.phase <;> simp only [hphase, Phase.sends?, Option.some.injEq, Prod.mk.injEq, reduceCtorEq] at hp
    · rw [Session.send, ← hp.2] at hid
      simp [Phase.stream?] at hid
    · rw [Session.send, ← hp.2] at hid
      exact hid
  | disconnect => exact ⟨_, rfl, stirs_endSession w w rfl rfl (fun _ _ => rfl) hnothing hc i _⟩
  | @subscribe id store hp hgranted =>
    obtain ⟨t, hw, rfl⟩ := Backend.of_watch_ok hc hgranted
    have hstore : (c.acts [.watch x.key x.token]).store = t := congrArg (·.1) (MemoryStore.act_watch hw)
    refine ⟨_, rfl, ⟨rfl, rfl, rfl, Or.inl rfl, fun _ _ => rfl, _, hwatch, congrArg _ hstore.symm, fun id' hid => ?_⟩⟩
    obtain rfl : id = id' := Option.some.inj hid
    obtain ⟨rfl, -, -, ⟨queue, -, hstreams⟩, -⟩ := MemoryStore.watch_ok hw
    exact Or.inr ⟨rfl, by simp [hstore, hstreams]⟩
  | @refused f store hp hgranted =>
    obtain ⟨-, hstore⟩ := Backend.of_watch_error hc hgranted
    exact ⟨_, rfl, stirs_endSession w { w with store } rfl rfl (fun _ _ => rfl) hnothing hstore i _⟩
  | crash hp hgranted =>
    obtain ⟨-, hstore⟩ := Backend.of_watch_error hc hgranted
    exact ⟨_, rfl, stirs_of_phase ⟨rfl, rfl⟩ rfl (Or.inr rfl) (fun _ _ => rfl) hnothing hstore
      fun id hid => by simp [Phase.stream?] at hid⟩
  | @value _ _ _ _ _ _ _ changed hp hgot =>
    refine ⟨_, rfl, stirs_of_phase ⟨rfl, rfl⟩ rfl (Or.inl rfl) (makers_set w _ _) (hreceive _ hp)
      (Backend.of_receive hc hgot) fun id hid => ?_⟩
    rw [hp]
    cases changed <;> exact hid
  | @unmadeValue _ _ _ store _ st' _ hp hgot =>
    have hacts := Backend.of_receive hc hgot
    exact ⟨_, rfl, stirs_endSession w { w with store, makers := w.makers.set x.maker st' } rfl rfl (makers_set w _ _)
      (hreceive _ hp) hacts i _⟩
  | @failure _ _ _ store hp hgot =>
    have hacts := Backend.of_receive hc hgot
    exact ⟨_, rfl, stirs_endSession w { w with store } rfl rfl (fun _ _ => rfl) (hreceive _ hp) hacts i _⟩
  | ended => exact ⟨_, rfl, stirs_endSession w w rfl rfl (fun _ _ => rfl) hnothing hc i _⟩
  | report =>
    exact ⟨_, rfl, stirs_of_phase ⟨rfl, rfl⟩ rfl (Or.inl rfl) (fun _ _ => rfl) hnothing hc fun id hid => by
      simp [Session.send, Phase.stream?] at hid⟩
  | unreported =>
    exact ⟨_, rfl, stirs_of_phase ⟨rfl, rfl⟩ rfl (Or.inl rfl) (fun _ _ => rfl) hnothing hc fun id hid => by
      simp [Phase.stream?] at hid⟩

theorem stirs_abandon (hc : w.store = .memory c.store) (i : Nat) (x : Session R) :
    w.Stirs c x { x with phase := x.afterEnd .done } (w.endSession i x .done) :=
  stirs_endSession w w rfl rfl (fun _ _ => rfl) (fun _ ha => absurd ha List.not_mem_nil) hc i _

theorem stirs_monitor (hc : w.store = .memory c.store) {tokens : Tokens}
    (htokens : tokens = w.tokens ∨ tokens = w.tokens.cancel x.token) (i : Nat) :
    w.Stirs c x { x with monitored := false } ({ w with tokens }.setSession i { x with monitored := false }) :=
  stirs_of_phase ⟨rfl, rfl⟩ rfl htokens (fun _ _ => rfl) (fun _ ha => absurd ha List.not_mem_nil) hc fun _ hid => hid

end World

end ResourceWatch

import ResourceWatch.Proofs.Store.Shedding
import ResourceWatch.Proofs.Watch.Advances
import ResourceWatch.Proofs.Watch.Hall
import ResourceWatch.Proofs.Watch.Readers

/-!
# No leaks

A stream is taken off the registry by its guard task, which waits for the token of the session.  Whatever ends a
session fires that token: its own end, its monitor once the reply stream was let go of, or a caller.  So a session
gives up its stream and its monitor only to be cancelled (`Session.Keeps`), every turn and every act keep the registry
in order (`World.Tidy`), and at rest all streams on it are in use, by a reader that has the reply stream or by
watchers that were neither cancelled nor let go of (`no_leaks`).

Sessions and watchers are given new tokens below those of callers, never one above (`Hall.Separate`), so that to fire
them cancels no caller's.
-/

namespace ResourceWatch

variable {Q V R σ : Type}

/-! ### Going on -/

/-- What the session `x` keeps when it becomes `x'`: it gives up its monitor and its stream only to be cancelled. -/
structure Session.Keeps (tokens : Tokens) (x x' : Session R) : Prop where
  key_eq : x'.key = x.key
  token_eq : x'.token = x.token
  served_eq : x'.served = x.served
  monitored : x.monitored = true → x'.monitored = true ∨ tokens.isCancelled x.token = true
  stream : ∀ id, x.phase.stream? = some id → x'.phase.stream? = some id ∨ tokens.isCancelled x.token = true

theorem Session.Keeps.refl (tokens : Tokens) (x : Session R) : x.Keeps tokens x :=
  ⟨rfl, rfl, rfl, Or.inl, fun _ => Or.inl⟩

/-- A member is replaced by one that looks the same. -/
theorem map_set_of_eq {α β : Type} {f : α → β} {xs : List α} {i : Nat} {a b : α} (ha : xs[i]? = some a)
    (hb : f b = f a) : (xs.set i b).map f = xs.map f := by
  obtain ⟨hi, rfl⟩ := List.getElem?_eq_some_iff.1 ha
  have hlt : i < (xs.map f).length := by simpa using hi
  have hmap : (xs.map f)[i] = f b := by rw [List.getElem_map, hb]
  rw [List.map_set, ← hmap, List.set_getElem_self]

namespace World

/-- The tokens that sessions and watchers were given for themselves. -/
def ownTokens (w : World V R σ) : List Token := w.sessions.map (·.token) ++ w.watchers.map (·.watcher.token)

/-- The world goes on without a new subscription, session, watcher or token. -/
structure GoesOn (w : World V R σ) (s : MemoryStore V) (w' : World V R σ) (s' : MemoryStore V) : Prop where
  store_eq : w'.store = .memory s'
  sheds : s.Sheds s'
  length_eq : w'.sessions.length = w.sessions.length
  sessions : ∀ (i : Nat) (x : Session R), w.sessions[i]? = some x →
    ∃ x', w'.sessions[i]? = some x' ∧ x.Keeps w'.tokens x'
  watchers : w'.watchers.map (·.watcher.token) = w.watchers.map (·.watcher.token)
  next_eq : w'.tokens.next = w.tokens.next
  tokens : w'.tokens = w.tokens ∨ ∃ t ∈ w.ownTokens, w'.tokens = w.tokens.cancel t

variable {make : Maker V R σ} {w w' : World V R σ} {s s' : MemoryStore V} {i : Nat} {x x' : Session R}

theorem token_mem_ownTokens (hx : w.sessions[i]? = some x) : x.token ∈ w.ownTokens :=
  List.mem_append_left _ (List.mem_map.2 ⟨x, List.mem_of_getElem? hx, rfl⟩)

theorem GoesOn.isCancelled (h : w.GoesOn s w' s') {t : Token} (ht : w.tokens.isCancelled t = true) :
    w'.tokens.isCancelled t = true := by
  rcases h.tokens with heq | ⟨u, -, heq⟩
  · rw [heq, ht]
  · rw [heq, Tokens.isCancelled_cancel, ht, Bool.or_true]

/-- No session changes, and the tokens do if one of a session or a watcher is fired. -/
theorem GoesOn.of_same (hstore : w'.store = .memory s') (hsheds : s.Sheds s') (hsessions : w'.sessions = w.sessions)
    (hwatchers : w'.watchers.map (·.watcher.token) = w.watchers.map (·.watcher.token))
    (htokens : w'.tokens = w.tokens ∨ ∃ t ∈ w.ownTokens, w'.tokens = w.tokens.cancel t) : w.GoesOn s w' s' := by
  refine ⟨hstore, hsheds, by rw [hsessions], fun i x hx => ⟨x, by rw [hsessions, hx], .refl _ x⟩, hwatchers, ?_,
    htokens⟩
  rcases htokens with heq | ⟨t, -, heq⟩ <;> simp [heq]

/-- One session changes, and what it fires is its own token. -/
private theorem goesOn_of_set (hx : w.sessions[i]? = some x) (hstore : w'.store = .memory s') (hsheds : s.Sheds s')
    (hsessions : w'.sessions = w.sessions.set i x')
    (hwatchers : w'.watchers.map (·.watcher.token) = w.watchers.map (·.watcher.token))
    (htokens : w'.tokens = w.tokens ∨ w'.tokens = w.tokens.cancel x.token) (hkeeps : x.Keeps w'.tokens x') :
    w.GoesOn s w' s' := by
  refine ⟨hstore, hsheds, by rw [hsessions, List.length_set], fun j y hy => ?_, hwatchers, ?_, ?_⟩
  · by_cases hij : i = j
    · subst hij
      obtain rfl : x = y := Option.some.inj (hx.symm.trans hy)
      exact ⟨x', by rw [hsessions, List.getElem?_set_self (List.getElem?_eq_some_iff.1 hx).1], hkeeps⟩
    · exact ⟨y, by rw [hsessions, List.getElem?_set_ne hij, hy], .refl _ y⟩
  · rcases htokens with heq | heq <;> simp [heq]
  · exact htokens.imp_right fun heq => ⟨x.token, token_mem_ownTokens hx, heq⟩

/-- A session ends after it did something to the store, and lets go of its stream. -/
private theorem goesOn_end (w₁ : World V R σ) (hx : w.sessions[i]? = some x) (hstore : w₁.store = .memory s')
    (hsheds : s.Sheds s') (hsessions : w₁.sessions = w.sessions) (hwatchers : w₁.watchers = w.watchers)
    (htokens : w₁.tokens = w.tokens) (o : Outcome) : ∃ s'', w.GoesOn s (w₁.endSession i x o) s'' := by
  have hdropped : (w₁.endSession i x o).store = x.phase.stream?.elim w₁.store w₁.store.dropReceiver := rfl
  have hcancelled : (w₁.endSession i x o).tokens = w.tokens.cancel x.token := by
    rw [← htokens]
    rfl
  have hkeeps : x.Keeps (w₁.endSession i x o).tokens { x with phase := x.afterEnd o } := by
    rw [hcancelled]
    exact ⟨rfl, rfl, rfl, Or.inl, fun _ _ => Or.inr (Tokens.isCancelled_cancel_self _ _)⟩
  obtain ⟨s'', hs'', hsheds'⟩ : ∃ s'', (w₁.endSession i x o).store = .memory s'' ∧ s.Sheds s'' := by
    rw [hdropped, hstore]
    cases x.phase.stream? with
    | none => exact ⟨s', rfl, hsheds⟩
    | some id => exact ⟨s'.dropReceiver id, rfl, hsheds.trans (s'.sheds_dropReceiver id)⟩
  exact ⟨s'', goesOn_of_set hx hs'' hsheds' (congrArg (List.set · i _) hsessions) (congrArg (List.map _) hwatchers)
    (Or.inr hcancelled) hkeeps⟩

/-- The session `x` takes out a subscription for itself. -/
def Subscribes (w : World V R σ) (s : MemoryStore V) (i : Nat) (x : Session R) (w' : World V R σ) : Prop :=
  w.sessions[i]? = some x ∧ x.phase = .subscribing ∧ ∃ id s', s.watch x.key x.token = .ok (id, s') ∧
    w' = { w with store := .memory s' }.setSession i { x with phase := .awaiting id }

/-- Steps that bring a session to another phase, with its stream if it has one. -/
private theorem keeps_phase {tokens : Tokens} {p : Phase R} {replies : Queue (Item R)}
    (h : ∀ id, x.phase.stream? = some id → p.stream? = some id) :
    x.Keeps tokens { x with phase := p, replies } :=
  ⟨rfl, rfl, rfl, Or.inl, fun id hid => Or.inl (h id hid)⟩

theorem Advances.goesOn (h : Advances make w i x w') (hx : w.sessions[i]? = some x) (hs : w.store = .memory s) :
    (∃ s', w.GoesOn s w' s') ∨ w.Subscribes s i x w' := by
  cases h with
  | call hp =>
    refine Or.inl ⟨s, goesOn_of_set hx ?_ (.refl s) rfl rfl (Or.inl rfl) (keeps_phase fun id hid => ?_)⟩
    · change w.store.call x.key = _
      rw [hs]
      rfl
    · simp [hp, Phase.stream?] at hid
  | unread => exact Or.inl (goesOn_end w hx hs (.refl s) rfl rfl rfl _)
  | read hp =>
    exact Or.inl ⟨s, goesOn_of_set hx hs (.refl s) rfl rfl (Or.inl rfl)
      (keeps_phase fun id hid => by simp [hp, Phase.stream?] at hid)⟩
  | @unmade _ _ st' =>
    exact Or.inl (goesOn_end { w with makers := w.makers.set x.maker st' } hx hs (.refl s) rfl rfl rfl _)
  | @send r next hp =>
    refine Or.inl ⟨s, goesOn_of_set hx hs (.refl s) rfl rfl (Or.inl rfl) (keeps_phase fun id hid => ?_)⟩
    cases hphase : x.phase <;> simp only [hphase, Phase.sends?, Option.some.injEq, Prod.mk.injEq, reduceCtorEq] at hp
    · simp [hphase, Phase.stream?] at hid
    · rw [← hp.2]
      rw [hphase] at hid
      exact hid
  | disconnect => exact Or.inl (goesOn_end w hx hs (.refl s) rfl rfl rfl _)
  | subscribe hp hgranted =>
    obtain ⟨s', hw, rfl⟩ := Backend.of_watch_ok hs hgranted
    exact Or.inr ⟨hx, hp, _, s', hw, rfl⟩
  | @refused _ store _ hgranted =>
    exact Or.inl (goesOn_end { w with store } hx (Backend.of_watch_error hs hgranted).2 (.refl s) rfl rfl rfl _)
  | crash hp hgranted =>
    exact Or.inl ⟨s, goesOn_of_set hx (Backend.of_watch_error hs hgranted).2 (.refl s) rfl rfl (Or.inr rfl)
      (keeps_phase fun id hid => by simp [hp, Phase.stream?] at hid)⟩
  | @value _ _ _ _ _ _ _ changed hp hgot =>
    refine Or.inl ⟨_, goesOn_of_set hx (Backend.of_receive hs hgot) (s.sheds_receive _) rfl rfl (Or.inl rfl)
      (keeps_phase fun id hid => ?_)⟩
    rw [hp] at hid
    cases changed <;> exact hid
  | @unmadeValue _ _ _ store _ st' _ _ hgot =>
    exact Or.inl (goesOn_end { w with store, makers := w.makers.set x.maker st' } hx (Backend.of_receive hs hgot)
      (s.sheds_receive _) rfl rfl rfl _)
  | @failure _ _ _ store _ hgot =>
    exact Or.inl (goesOn_end { w with store } hx (Backend.of_receive hs hgot) (s.sheds_receive _) rfl rfl rfl _)
  | ended => exact Or.inl (goesOn_end w hx hs (.refl s) rfl rfl rfl _)
  | report hp =>
    exact Or.inl ⟨s, goesOn_of_set hx hs (.refl s) rfl rfl (Or.inl rfl)
      (keeps_phase fun id hid => by simp [hp, Phase.stream?] at hid)⟩
  | unreported hp =>
    exact Or.inl ⟨s, goesOn_of_set hx hs (.refl s) rfl rfl (Or.inl rfl)
      (keeps_phase fun id hid => by simp [hp, Phase.stream?] at hid)⟩

/-- A watcher took a step on the replies of the session `x`. -/
private theorem goesOn_of_watched {k : Nat} {a : Attachment R} {watcher : Watcher R} {source : Queue (Item R)}
    (ha : w.watchers[k]? = some a) (hx : w.sessions[a.session]? = some x) (htoken : watcher.token = a.watcher.token)
    (hs : w.store = .memory s) : w.GoesOn s (w.setWatched k a x watcher source) s := by
  exact goesOn_of_set hx hs (.refl s) rfl (map_set_of_eq ha htoken) (Or.inl rfl)
    ⟨rfl, rfl, rfl, Or.inl, fun _ => Or.inl⟩

theorem GoesOn.ownTokens_eq (h : w.GoesOn s w' s') : w'.ownTokens = w.ownTokens := by
  have hsessions : w'.sessions.map (·.token) = w.sessions.map (·.token) := by
    refine List.ext_getElem? fun i => ?_
    rw [List.getElem?_map, List.getElem?_map]
    cases hx : w.sessions[i]? with
    | none =>
      have hlength := List.getElem?_eq_none_iff.1 hx
      rw [List.getElem?_eq_none_iff.2 (h.length_eq ▸ hlength)]
    | some x =>
      obtain ⟨x', hx', hkeeps⟩ := h.sessions i x hx
      rw [hx', Option.map_some, Option.map_some, hkeeps.token_eq]
  rw [ownTokens, ownTokens, hsessions, h.watchers]

theorem Subscribes.ownTokens_eq (h : w.Subscribes s i x w') : w'.ownTokens = w.ownTokens := by
  obtain ⟨hx, -, id, -, -, rfl⟩ := h
  exact congrArg (· ++ w.watchers.map (·.watcher.token))
    (map_set_of_eq (f := fun y : Session R => y.token) (b := { x with phase := .awaiting id }) hx rfl)

theorem Subscribes.tokens_eq (h : w.Subscribes s i x w') : w'.tokens = w.tokens := by
  obtain ⟨-, -, -, -, -, rfl⟩ := h
  rfl

/-- Every turn lets the world go on, or a session subscribes. -/
theorem goesOn_of_turn? {t : Turn} (h : w.turn? make t = some w') (hs : w.store = .memory s) :
    (∃ s', w.GoesOn s w' s') ∨ ∃ i x, w.Subscribes s i x w' := by
  cases turned_of_turn? h with
  | @flush id store hflushed =>
    exact Or.inl ⟨_, .of_same (Backend.of_flush? hs hflushed) (s.sheds_flush? id) rfl rfl (Or.inl rfl)⟩
  | @release id store hreleased =>
    exact Or.inl ⟨_, .of_same (Backend.of_release? hs hreleased) (s.sheds_release? w.tokens id) rfl rfl (Or.inl rfl)⟩
  | advance hx hadvances => exact (hadvances.goesOn hx hs).imp_right fun h => ⟨_, _, h⟩
  | abandon hx => exact Or.inl (goesOn_end w hx hs (.refl s) rfl rfl rfl _)
  | desert hx =>
    exact Or.inl ⟨s, goesOn_of_set hx hs (.refl s) rfl rfl (Or.inr rfl)
      ⟨rfl, rfl, rfl, fun _ => Or.inr (Tokens.isCancelled_cancel_self _ _), fun _ => Or.inl⟩⟩
  | dismiss hx _ hcancelled =>
    exact Or.inl ⟨s, goesOn_of_set hx hs (.refl s) rfl rfl (Or.inl rfl)
      ⟨rfl, rfl, rfl, fun _ => Or.inr hcancelled, fun _ => Or.inl⟩⟩
  | pull ha hx hpulled =>
    exact Or.inl ⟨s, goesOn_of_watched ha hx (Watcher.token_of_pull? hpulled) hs⟩
  | quit ha hx => exact Or.inl ⟨s, goesOn_of_watched ha hx rfl hs⟩

/-! ### What callers do -/

theorem goesOn_mutate [Inhabited V] (hs : w.store = .memory s) (m : Mutation V) :
    w.GoesOn s (w.mutate m) (s.act m.act).1 := by
  have hsheds : s.Sheds (s.act m.act).1 := s.sheds_act fun key token => by cases m <;> simp [Mutation.act]
  unfold mutate
  rw [hs]
  exact .of_same rfl hsheds rfl rfl (Or.inl rfl)

/-- The replies of a session change hands. -/
private theorem goesOn_of_replies (hx : w.sessions[i]? = some x) (hs : w.store = .memory s)
    (replies : Queue (Item R)) : w.GoesOn s (w.setSession i { x with replies }) s :=
  goesOn_of_set hx hs (.refl s) rfl rfl (Or.inl rfl) ⟨rfl, rfl, rfl, Or.inl, fun _ => Or.inl⟩

theorem watcherToken_mem_ownTokens {k : Nat} {a : Attachment R} (ha : w.watchers[k]? = some a) :
    a.watcher.token ∈ w.ownTokens :=
  List.mem_append_right _ (List.mem_map.2 ⟨a, List.mem_of_getElem? ha, rfl⟩)

/-! ### Owners -/

/-- A session has opened the stream, and still has it or is to give it up. -/
def Owns (w : World V R σ) (id : Nat) (st : EventStream V) : Prop :=
  ∃ (i : Nat) (x : Session R), w.sessions[i]? = some x ∧ x.key = st.key ∧ x.token = st.token ∧
    (x.phase.stream? = some id ∨ w.tokens.isCancelled x.token = true)

/-- Every stream on the registry is guarded and, unless it was opened directly, owned, and every session is watched
over by its monitor as long as it is not cancelled. -/
structure Tidy (w : World V R σ) (s : MemoryStore V) (direct : List Nat) : Prop where
  store_eq : w.store = .memory s
  registered : ∀ key, ∀ id ∈ s.subscribers key, ∃ st, s.streams[id]? = some st ∧ st.key = key ∧ st.guarding = true ∧
    (id ∉ direct → w.Owns id st)
  served : ∀ x ∈ w.sessions, x.served = true ∧ (x.monitored = true ∨ w.tokens.isCancelled x.token = true)

variable {direct : List Nat}

theorem GoesOn.tidy (h : w.GoesOn s w' s') (ht : w.Tidy s direct) : w'.Tidy s' direct := by
  refine ⟨h.store_eq, fun key id hid => ?_, fun x' hx' => ?_⟩
  · obtain ⟨st, hst, hkey, hguarding, howns⟩ := ht.registered key id (h.sheds.subset key hid)
    obtain ⟨st', hst', hkey', htoken', hguarding'⟩ := h.sheds.streams key id hid st hst hkey
    refine ⟨st', hst', hkey', hguarding'.trans hguarding, fun hdirect => ?_⟩
    obtain ⟨i, x, hx, hxkey, hxtoken, hx'⟩ := howns hdirect
    obtain ⟨x', hx'', hkeeps⟩ := h.sessions i x hx
    refine ⟨i, x', hx'', ?_, ?_, ?_⟩
    · rw [hkeeps.key_eq, hxkey, hkey, hkey']
    · rw [hkeeps.token_eq, hxtoken, htoken']
    · rw [hkeeps.token_eq]
      rcases hx' with hstream | hcancelled
      · exact hkeeps.stream id hstream
      · exact Or.inr (h.isCancelled hcancelled)
  · obtain ⟨i, hx'⟩ := List.mem_iff_getElem?.1 hx'
    have hi : i < w.sessions.length := h.length_eq ▸ (List.getElem?_eq_some_iff.1 hx').1
    obtain ⟨x₁, hx₁, hkeeps⟩ := h.sessions i _ (List.getElem?_eq_getElem hi)
    obtain rfl : x₁ = x' := Option.some.inj (hx₁.symm.trans hx')
    obtain ⟨hserved, hmonitored⟩ := ht.served _ (List.getElem_mem hi)
    rw [hkeeps.served_eq, hkeeps.token_eq]
    exact ⟨hserved, hmonitored.elim hkeeps.monitored fun hc => Or.inr (h.isCancelled hc)⟩

/-- A stream that is opened is added to those on the registry. -/
private theorem registered_watch {key : String} {token : Token} {new : Nat} (ht : w.Tidy s direct)
    (hw : s.watch key token = .ok (new, s')) {k : String} {id : Nat} (hid : id ∈ s'.subscribers k) :
    (id = new ∧ k = key ∧ ∃ queue, s'.streams[id]? = some { key, token, queue }) ∨
      ∃ st, s'.streams[id]? = some st ∧ st.key = k ∧ st.guarding = true ∧ (id ∉ direct → w.Owns id st) := by
  rcases MemoryStore.mem_subscribers_watch hw hid with hnew | ⟨hid, hstreams⟩
  · exact Or.inl hnew
  · obtain ⟨st, hst, hrest⟩ := ht.registered k id hid
    exact Or.inr ⟨st, hstreams st hst, hrest⟩

theorem Subscribes.tidy (h : w.Subscribes s i x w') (ht : w.Tidy s direct) : ∃ s', w'.Tidy s' direct := by
  obtain ⟨hx, hphase, new, s', hw, rfl⟩ := h
  have hi : i < w.sessions.length := (List.getElem?_eq_some_iff.1 hx).1
  refine ⟨s', rfl, fun key id hid => ?_, fun y hy => ?_⟩
  · rcases registered_watch ht hw hid with ⟨rfl, rfl, queue, hst⟩ | ⟨st, hst, hkey, hguarding, howns⟩
    · exact ⟨_, hst, rfl, rfl, fun _ => ⟨i, _, List.getElem?_set_self hi, rfl, rfl, Or.inl rfl⟩⟩
    · refine ⟨st, hst, hkey, hguarding, fun hdirect => ?_⟩
      obtain ⟨j, y, hy, hykey, hytoken, hyowns⟩ := howns hdirect
      by_cases hij : i = j
      · -- the session had no stream before
        subst hij
        obtain rfl : x = y := Option.some.inj (hx.symm.trans hy)
        have hcancelled : w.tokens.isCancelled x.token = true :=
          hyowns.resolve_left fun hstream => by simp [hphase, Phase.stream?] at hstream
        exact ⟨i, _, List.getElem?_set_self hi, hykey, hytoken, Or.inr hcancelled⟩
      · exact ⟨j, y, by rw [setSession, List.getElem?_set_ne hij, hy], hykey, hytoken, hyowns⟩
  · rcases List.mem_or_eq_of_mem_set hy with hy | rfl
    · exact ht.served y hy
    · exact ht.served x (List.mem_of_getElem? hx)

/-- Tokens that are cancelled, or made, leave everything in order. -/
theorem Tidy.of_tokens (ht : w.Tidy s direct) {tokens : Tokens}
    (htokens : ∀ t, w.tokens.isCancelled t = true → tokens.isCancelled t = true) :
    { w with tokens }.Tidy s direct := by
  refine ⟨ht.store_eq, fun key id hid => ?_, fun x hx => ?_⟩
  · obtain ⟨st, hst, hkey, hguarding, howns⟩ := ht.registered key id hid
    refine ⟨st, hst, hkey, hguarding, fun hdirect => ?_⟩
    obtain ⟨i, x, hx, hxkey, hxtoken, hstream⟩ := howns hdirect
    exact ⟨i, x, hx, hxkey, hxtoken, hstream.imp_right (htokens _)⟩
  · exact (ht.served x hx).imp_right (Or.imp_right (htokens _))

/-- So do watchers. -/
theorem Tidy.of_watchers (ht : w.Tidy s direct) (watchers : List (Attachment R)) :
    { w with watchers }.Tidy s direct :=
  ⟨ht.store_eq, ht.registered, ht.served⟩

/-- So does a session that is added under its monitor. -/
theorem Tidy.append (ht : w.Tidy s direct) {x : Session R} (hx : x.served = true ∧ x.monitored = true) :
    { w with sessions := w.sessions ++ [x] }.Tidy s direct := by
  refine ⟨ht.store_eq, fun key id hid => ?_, fun y hy => ?_⟩
  · obtain ⟨st, hst, hkey, hguarding, howns⟩ := ht.registered key id hid
    refine ⟨st, hst, hkey, hguarding, fun hdirect => ?_⟩
    obtain ⟨i, y, hy, hrest⟩ := howns hdirect
    refine ⟨i, y, ?_, hrest⟩
    rw [List.getElem?_append_left (List.getElem?_eq_some_iff.1 hy).1, hy]
  · rcases List.mem_append.1 hy with hy | hy
    · exact ht.served y hy
    · rw [List.mem_singleton.1 hy]
      exact ⟨hx.1, Or.inl hx.2⟩

/-- And a stream that is opened directly. -/
theorem Tidy.subscribe (ht : w.Tidy s direct) {key : String} {token : Token} {new : Nat}
    (hw : s.watch key token = .ok (new, s')) : { w with store := .memory s' }.Tidy s' (direct ++ [new]) := by
  refine ⟨rfl, fun k id hid => ?_, ht.served⟩
  rcases registered_watch ht hw hid with ⟨rfl, rfl, queue, hst⟩ | ⟨st, hst, hkey, hguarding, howns⟩
  · exact ⟨_, hst, rfl, rfl, fun hdirect => absurd (List.mem_append_right _ List.mem_cons_self) hdirect⟩
  · exact ⟨st, hst, hkey, hguarding, fun hdirect => howns fun hid => hdirect (List.mem_append_left _ hid)⟩

/-- At rest whoever owns a stream on the registry is streaming, and its reply stream is held. -/
theorem Tidy.owner (ht : w.Tidy s direct) (hrest : w.AtRest make) {key : String} {id : Nat}
    (hid : id ∈ s.subscribers key) (hdirect : id ∉ direct) :
    ∃ (i : Nat) (x : Session R), w.sessions[i]? = some x ∧ x.served = true ∧ x.key = key ∧
      x.phase.stream? = some id ∧ w.tokens.isCancelled x.token = false ∧ x.replies.receiving = true := by
  obtain ⟨st, hst, hkey, hguarding, howns⟩ := ht.registered key id hid
  obtain ⟨i, x, hx, hxkey, hxtoken, hstream⟩ := howns hdirect
  -- the guard task waits for the token, so that is not cancelled
  have hcancelled : w.tokens.isCancelled x.token = false := by
    have hrelease := hrest (.release id)
    rw [turn?, ht.store_eq, Backend.release?, MemoryStore.release?, hst] at hrelease
    rw [hxtoken]
    simpa [hguarding] using hrelease
  obtain ⟨hserved, hmonitored⟩ := ht.served x (List.mem_of_getElem? hx)
  rw [hcancelled] at hstream hmonitored
  have hmonitored : x.monitored = true := hmonitored.resolve_right (by simp)
  -- the monitor waits for the reader to go, so that is still there
  have hreceiving : x.replies.receiving = true := by
    have hmonitor := hrest (.monitor i)
    rw [turn?, hx, Option.bind_some, monitor?, hmonitored] at hmonitor
    cases hreceiving : x.replies.receiving with
    | true => rfl
    | false => simp [hreceiving] at hmonitor
  exact ⟨i, x, hx, hserved, hxkey.trans hkey, hstream.resolve_right (by simp), hcancelled, hreceiving⟩

end World

namespace Hall

/-! ### Tokens of callers -/

/-- No session and no watcher was given a token above that of a caller, and nothing was fired but what callers
cancelled and what sessions and watchers were given. -/
structure Separate (h : Hall V R σ) : Prop where
  numbered : ∀ t ∈ h.contexts ++ h.world.ownTokens, ∀ n ∈ t, n < h.world.tokens.next
  ne_nil : ∀ t ∈ h.world.ownTokens, t ≠ []
  apart : ∀ own ∈ h.world.ownTokens, ∀ t ∈ h.contexts, ¬ own <:+ t
  fired : ∀ t ∈ h.world.tokens.fired, t ∈ h.cancelled ∨ t ∈ h.world.ownTokens
  cancelled : ∀ t ∈ h.cancelled, t ∈ h.world.tokens.fired

variable {make : Maker V R σ} {h : Hall V R σ} {w' : World V R σ} {s s' : MemoryStore V}

/-- The token of a caller is cancelled by callers only. -/
theorem Separate.isCancelled_iff (hs : h.Separate) {t : Token} (ht : t ∈ h.contexts) :
    h.world.tokens.isCancelled t = true ↔ ∃ c ∈ h.cancelled, c <:+ t := by
  rw [Tokens.isCancelled, List.any_eq_true]
  constructor
  · rintro ⟨f, hf, hsuffix⟩
    have hsuffix := List.isSuffixOf_iff_suffix.1 hsuffix
    rcases hs.fired f hf with hcancelled | hown
    · exact ⟨f, hcancelled, hsuffix⟩
    · exact absurd hsuffix (hs.apart f hown t ht)
  · rintro ⟨c, hc, hsuffix⟩
    exact ⟨c, hs.cancelled c hc, List.isSuffixOf_iff_suffix.2 hsuffix⟩

theorem Separate.of_same (hs : h.Separate) {h' : Hall V R σ} (hcontexts : h'.contexts = h.contexts)
    (hcancelled : h'.cancelled = h.cancelled) (hown : h'.world.ownTokens = h.world.ownTokens)
    (htokens : h'.world.tokens = h.world.tokens ∨
      ∃ t ∈ h.world.ownTokens, h'.world.tokens = h.world.tokens.cancel t) : h'.Separate := by
  have hnext : h'.world.tokens.next = h.world.tokens.next := by
    rcases htokens with heq | ⟨t, -, heq⟩ <;> simp [heq]
  refine ⟨by rw [hcontexts, hown, hnext]; exact hs.numbered, by rw [hown]; exact hs.ne_nil,
    by rw [hcontexts, hown]; exact hs.apart, ?_, ?_⟩
  · rw [hcancelled, hown]
    rcases htokens with heq | ⟨t, ht, heq⟩
    · rw [heq]
      exact hs.fired
    · intro f hf
      rw [heq] at hf
      rcases List.mem_cons.1 hf with rfl | hf
      · exact Or.inr ht
      · exact hs.fired f hf
  · intro c hc
    rw [hcancelled] at hc
    rcases htokens with heq | ⟨t, -, heq⟩
    · rw [heq]
      exact hs.cancelled c hc
    · rw [heq]
      exact List.mem_cons_of_mem _ (hs.cancelled c hc)

/-- A session or a watcher is given a token below that of a caller. -/
theorem Separate.give (hs : h.Separate) {parent : Token} (hparent : parent ∈ h.contexts) {world : World V R σ}
    (htokens : world.tokens = (h.world.tokens.child parent).2)
    (hold : ∀ t ∈ h.world.ownTokens, t ∈ world.ownTokens)
    (hnew : ∀ t ∈ world.ownTokens, t ∈ h.world.ownTokens ∨ t = (h.world.tokens.child parent).1) :
    Separate { h with world } := by
  refine ⟨fun t ht n hn => ?_, fun t ht => ?_, fun own hown t ht hsuffix => ?_, fun t ht => ?_, fun t ht => ?_⟩
  · have hlt : n < h.world.tokens.next + 1 := by
      rcases List.mem_append.1 ht with ht | ht
      · exact Nat.lt_succ_of_lt (hs.numbered t (List.mem_append_left _ ht) n hn)
      · rcases hnew t ht with ht | rfl
        · exact Nat.lt_succ_of_lt (hs.numbered t (List.mem_append_right _ ht) n hn)
        · rcases List.mem_cons.1 hn with rfl | hn
          · exact Nat.lt_succ_self _
          · exact Nat.lt_succ_of_lt (hs.numbered parent (List.mem_append_left _ hparent) n hn)
    rw [htokens]
    exact hlt
  · rcases hnew t ht with ht | rfl
    · exact hs.ne_nil t ht
    · exact List.cons_ne_nil _ _
  · rcases hnew own hown with hown | rfl
    · exact hs.apart own hown t ht hsuffix
    · -- the number is a new one
      have hmem : h.world.tokens.next ∈ t := hsuffix.subset List.mem_cons_self
      exact absurd (hs.numbered t (List.mem_append_left _ ht) _ hmem) (Nat.lt_irrefl _)
  · rw [htokens] at ht
    exact (hs.fired t ht).imp_right (hold t)
  · rw [htokens]
    exact hs.cancelled t ht

/-- A caller makes a token, below one that there is. -/
theorem Separate.context (hs : h.Separate) {parent : Token} (hparent : parent = [] ∨ parent ∈ h.contexts) :
    Separate { h with
      world := (h.world.newToken parent).2
      contexts := h.contexts ++ [(h.world.newToken parent).1] } := by
  have hlt : ∀ t ∈ h.contexts ++ h.world.ownTokens, ∀ n ∈ t, n < h.world.tokens.next + 1 :=
    fun t ht n hn => Nat.lt_succ_of_lt (hs.numbered t ht n hn)
  refine ⟨fun t ht n hn => ?_, hs.ne_nil, fun own hown t ht hsuffix => ?_, hs.fired, hs.cancelled⟩
  · rw [List.append_assoc, List.mem_append, List.mem_append, List.mem_singleton] at ht
    rcases ht with ht | rfl | ht
    · exact hlt t (List.mem_append_left _ ht) n hn
    · rcases List.mem_cons.1 hn with rfl | hn
      · exact Nat.lt_succ_self _
      · rcases hparent with rfl | hparent
        · simp at hn
        · exact hlt parent (List.mem_append_left _ hparent) n hn
    · exact hlt t (List.mem_append_right _ ht) n hn
  · rcases List.mem_append.1 ht with ht | ht
    · exact hs.apart own hown t ht hsuffix
    · rw [List.mem_singleton.1 ht] at hsuffix
      rcases List.suffix_cons_iff.1 hsuffix with rfl | hsuffix
      · exact absurd (hs.numbered _ (List.mem_append_right _ hown) _ List.mem_cons_self) (Nat.lt_irrefl _)
      · rcases hparent with rfl | hparent
        · exact hs.ne_nil own hown (List.suffix_nil.1 hsuffix)
        · exact hs.apart own hown parent hparent hsuffix

/-- A caller cancels a token. -/
theorem Separate.cancel (hs : h.Separate) (t : Token) :
    Separate { h with world := h.world.cancel t, cancelled := t :: h.cancelled } := by
  refine ⟨hs.numbered, hs.ne_nil, hs.apart, fun f hf => ?_, fun c hc => ?_⟩
  · rcases List.mem_cons.1 hf with rfl | hf
    · exact Or.inl List.mem_cons_self
    · exact (hs.fired f hf).imp_left (List.mem_cons_of_mem _)
  · rcases List.mem_cons.1 hc with rfl | hc
    · exact List.mem_cons_self
    · exact List.mem_cons_of_mem _ (hs.cancelled c hc)

/-! ### Acts -/

structure Inv (h : Hall V R σ) : Prop where
  tidy : ∃ s, h.world.Tidy s h.direct
  separate : h.Separate

theorem Inv.empty (eventBuffer : Nat) : (Hall.empty eventBuffer : Hall V R σ).Inv := by
  refine ⟨⟨.make eventBuffer, rfl, fun key id hid => ?_, fun x hx => ?_⟩, ?_⟩
  · simp [MemoryStore.make, MemoryStore.subscribers, Registry.get] at hid
  · simp [Hall.empty] at hx
  · constructor <;> simp [Hall.empty, World.ownTokens]

theorem Inv.goesOn (hinv : h.Inv) (hs : h.world.store = .memory s) (hgoes : h.world.GoesOn s w' s') :
    Inv { h with world := w' } := by
  obtain ⟨⟨s₀, htidy⟩, hseparate⟩ := hinv
  obtain rfl : s₀ = s := by
    have := htidy.store_eq.symm.trans hs
    simpa using this
  exact ⟨⟨s', hgoes.tidy htidy⟩, hseparate.of_same rfl rfl hgoes.ownTokens_eq hgoes.tokens⟩

theorem Inv.turn (hinv : h.Inv) {t : Turn} (hturn : h.world.turn? make t = some w') :
    Inv { h with world := w' } := by
  obtain ⟨⟨s, htidy⟩, hseparate⟩ := hinv
  rcases World.goesOn_of_turn? hturn htidy.store_eq with ⟨s', hgoes⟩ | ⟨i, x, hsubscribes⟩
  · exact Inv.goesOn ⟨⟨s, htidy⟩, hseparate⟩ htidy.store_eq hgoes
  · exact ⟨hsubscribes.tidy htidy, hseparate.of_same rfl rfl hsubscribes.ownTokens_eq (Or.inl hsubscribes.tokens_eq)⟩

variable [Inhabited V]

theorem Inv.act (hinv : h.Inv) (a : HallAct Q V R σ) : (h.act a).Inv := by
  obtain ⟨⟨s, htidy⟩, hseparate⟩ := hinv
  have hinv : h.Inv := ⟨⟨s, htidy⟩, hseparate⟩
  have hs := htidy.store_eq
  have hacted := h.acted_act a
  generalize h.act a = h' at hacted ⊢
  cases hacted with
  | nothing => exact hinv
  | mutate m => exact hinv.goesOn hs (World.goesOn_mutate hs m)
  | context hknown => exact ⟨⟨s, htidy.of_tokens fun _ ht => ht⟩, hseparate.context hknown⟩
  | @cancel n t =>
    refine ⟨⟨s, htidy.of_tokens fun u hu => ?_⟩, hseparate.cancel t⟩
    rw [Tokens.isCancelled_cancel, hu, Bool.or_true]
  | maker state => exact hinv.goesOn hs (.of_same hs (.refl s) rfl rfl (Or.inl rfl))
  | get key =>
    refine hinv.goesOn hs (.of_same ?_ (.refl s) rfl rfl (Or.inl rfl))
    change h.world.store.call key = _
    rw [hs]
    rfl
  | @serve _ maker replyBuffer _ _ _ t ht _ key =>
    have hown : ∀ u, u ∈ { h.world with sessions := h.world.sessions ++
        [Session.serving key (h.world.newToken t).1 maker (max replyBuffer 1)] }.ownTokens ↔
          u ∈ h.world.ownTokens ∨ u = (h.world.tokens.child t).1 := by
      intro u
      simp only [World.ownTokens, List.map_append, List.mem_append, List.map_singleton, List.mem_singleton,
        Session.serving, World.newToken]
      exact or_right_comm
    exact ⟨⟨s, (htidy.append (x := Session.serving key _ maker _) ⟨rfl, rfl⟩).of_tokens fun _ ht => ht⟩,
      hseparate.give ht rfl (fun u hu => (hown u).2 (Or.inl hu)) fun u => (hown u).1⟩
  | receive hx => exact hinv.goesOn hs (World.goesOn_of_replies hx hs _)
  | dropReplies hx => exact hinv.goesOn hs (World.goesOn_of_replies hx hs _)
  | @attach i capacity n t ht =>
    have hown : ∀ u, u ∈ { h.world with watchers := h.world.watchers ++
        [Attachment.mk i { token := (h.world.newToken t).1, queue := { capacity := max capacity 1 } }] }.ownTokens ↔
          u ∈ h.world.ownTokens ∨ u = (h.world.tokens.child t).1 := by
      intro u
      simp only [World.ownTokens, List.map_append, List.mem_append, List.map_singleton, List.mem_singleton]
      exact or_assoc.symm
    exact ⟨⟨s, (htidy.of_watchers _).of_tokens fun _ ht => ht⟩,
      hseparate.give ht rfl (fun u hu => (hown u).2 (Or.inl hu)) fun u => (hown u).1⟩
  | attachTooLarge ht =>
    exact ⟨⟨s, htidy.of_tokens fun _ ht => ht⟩, hseparate.give ht rfl (fun _ hu => hu) fun _ => Or.inl⟩
  | next ha => exact hinv.goesOn hs (.of_same hs (.refl s) rfl (map_set_of_eq ha rfl) (Or.inl rfl))
  | cancelWatcher ha =>
    exact hinv.goesOn hs (.of_same hs (.refl s) rfl rfl (Or.inr ⟨_, World.watcherToken_mem_ownTokens ha, rfl⟩))
  | dropWatcher ha =>
    exact hinv.goesOn hs
      (.of_same hs (.refl s) rfl (map_set_of_eq ha rfl) (Or.inr ⟨_, World.watcherToken_mem_ownTokens ha, rfl⟩))
  | subscribe _ hgranted =>
    obtain ⟨s', hw, rfl⟩ := Backend.of_watch_ok hs hgranted
    exact ⟨⟨s', htidy.subscribe hw⟩, hseparate.of_same rfl rfl rfl (Or.inl rfl)⟩
  | @receiveEvent n id =>
    exact hinv.goesOn hs (.of_same (Backend.of_receive hs rfl) (s.sheds_receive id) rfl rfl (Or.inl rfl))
  | @dropEvents n id =>
    exact hinv.goesOn hs (.of_same (congrArg (·.dropReceiver id) hs) (s.sheds_dropReceiver id) rfl rfl (Or.inl rfl))

theorem Inv.of_reaches {h₀ : Hall V R σ} (hinv : h₀.Inv) (hreaches : Reaches Q make h₀ h) : h.Inv := by
  induction hreaches with
  | refl => exact hinv
  | act _ a ih => exact ih.act a
  | turn _ t hturn ih => exact ih.turn hturn

end Hall

/-- Whatever callers do around a store and in whatever order the tasks take turns: at rest every stream on the
registry that was not opened directly belongs to a served session that streams from it, is not cancelled and has its
reply stream read: it is held, and every watcher on it is at work, has its consumer and is not cancelled.  And a token
of a caller is cancelled only where it or one above it was cancelled by a caller, whatever sessions ended and
whichever reply streams and watchers were let go of. -/
theorem no_leaks [Inhabited V] (make : Maker V R σ) (eventBuffer : Nat) (h : Hall V R σ)
    (hreaches : Hall.Reaches Q make (.empty eventBuffer) h) :
    (h.world.AtRest make → ∃ s, h.world.store = .memory s ∧ ∀ key, ∀ id ∈ s.subscribers key, id ∉ h.direct →
      ∃ (i : Nat) (x : Session R), h.world.sessions[i]? = some x ∧ x.served = true ∧ x.key = key ∧
        x.phase.stream? = some id ∧ h.world.tokens.isCancelled x.token = false ∧ h.world.IsRead i x) ∧
    ∀ t ∈ h.contexts, h.world.tokens.isCancelled t = true ↔ ∃ c ∈ h.cancelled, c <:+ t := by
  have hinv : h.Inv := (Hall.Inv.empty eventBuffer).of_reaches hreaches
  obtain ⟨s, htidy⟩ := hinv.tidy
  have hattended := Hall.attended_of_reaches (Hall.attended_empty eventBuffer) hreaches
  refine ⟨fun hrest => ⟨s, htidy.store_eq, fun key id hid hdirect => ?_⟩, fun t ht => ?_⟩
  · obtain ⟨i, x, hx, hserved, hkey, hstream, hcancelled, hheld⟩ := htidy.owner hrest hid hdirect
    exact ⟨i, x, hx, hserved, hkey, hstream, hcancelled, hattended.isRead hrest hx hheld⟩
  · exact hinv.separate.isCancelled_iff ht

/-- Of two watches on a key, each with a watcher for the same client, the one whose watcher was let go of is off the
registry; the watcher of the other is in use, and the token of the client is as good as before. -/
theorem no_leaks_behind_dropped_watcher :
    let endpoint : Endpoint String Nat Nat (ChangeCache Nat) :=
      { keyOf := fun key _ => .ok key, make := Endpoint.deduplicating fun _ v => v }
    ∃ (h : Hall Nat Nat (ChangeCache Nat)) (s : MemoryStore Nat),
      Hall.Reaches String endpoint.make (.empty 1) h ∧ h.world.AtRest endpoint.make ∧ h.world.store = .memory s ∧
      s.streams.length = 2 ∧ s.subscribers "k" = [1] ∧ h.contexts = [[0], [1], [2]] ∧
      h.world.watchers.map (·.watcher.queue.receiving) = [false, true] ∧
      (∃ (i : Nat) (x : Session Nat), h.world.sessions[i]? = some x ∧ x.phase.stream? = some 1 ∧
        h.world.IsRead i x) ∧
      h.world.tokens.isCancelled [1] = false := by
  intro endpoint
  let acts : List (HallAct String Nat Nat (ChangeCache Nat)) :=
    [.context none, .context none, .context none, .maker {}, .mutate (.put "k" 1), .serve endpoint 0 1 "k" {} 0,
      .attach 0 1 1, .serve endpoint 0 1 "k" {} 2, .attach 1 1 1, .mutate (.put "k" 2), .dropWatcher 0]
  let subscribers : Backend Nat → List Nat
    | .memory s => s.subscribers "k"
    | .scripted _ => []
  have hsettled : (Hall.settled? endpoint.make (.empty 1) acts).map (fun h =>
      ((h.world.store.streams.length, subscribers h.world.store), h.direct, h.contexts, h.cancelled)) =
        some ((2, [1]), [], [[0], [1], [2]], []) := by
    decide +kernel
  have hconsumers : (Hall.settled? endpoint.make (.empty 1) acts).map
      (·.world.watchers.map (·.watcher.queue.receiving)) = some [false, true] := by
    decide +kernel
  obtain ⟨h, hh, hfacts⟩ := Option.map_eq_some_iff.1 hsettled
  simp only [Prod.mk.injEq] at hfacts
  obtain ⟨⟨hstreams, hsubscribers⟩, hdirect, hcontexts, hcancelled⟩ := hfacts
  rw [hh, Option.map_some, Option.some.injEq] at hconsumers
  obtain ⟨hreaches, hrest⟩ := Hall.Reaches.of_settled? hh .refl
  obtain ⟨hown, htokens⟩ := no_leaks endpoint.make 1 h hreaches
  obtain ⟨s, hs, hown⟩ := hown hrest
  rw [hs] at hstreams hsubscribers
  have hsubscribers : s.subscribers "k" = [1] := hsubscribers
  obtain ⟨i, x, hx, -, -, hstream, -, hread⟩ := hown "k" 1 (by rw [hsubscribers]; decide) (by rw [hdirect]; decide)
  have hclient : ¬ h.world.tokens.isCancelled [1] = true := by
    rw [htokens [1] (by rw [hcontexts]; decide), hcancelled]
    simp
  exact ⟨h, s, hreaches, hrest, hs, hstreams, hsubscribers, hcontexts, hconsumers, ⟨i, x, hx, hstream, hread⟩,
    Bool.eq_false_iff.2 hclient⟩

end ResourceWatch

import ResourceWatch.Proofs.Store.Delivery
import ResourceWatch.Proofs.Watch.Dealings

/-!
# Owners of event streams

An event stream has the token it was opened with.  A session opens one at most, with its own token, which nobody else
has; so of the streams of a store one at most is the session's, and nobody else receives from it (`Hall.Owned`).  The
store of a hall is that of a history, whatever callers and tasks do (`Hall.Reaches.exists_history`).
-/

namespace ResourceWatch

variable {Q V R σ : Type}

/-! ### Tokens of streams -/

namespace MemoryStore

/-- The tokens that the event streams were opened with. -/
def owners (s : MemoryStore V) : List Token := s.streams.map (·.token)

variable {s s' : MemoryStore V}

theorem getElem?_owners (s : MemoryStore V) (id : Nat) : s.owners[id]? = s.streams[id]?.map (·.token) :=
  List.getElem?_map

private theorem owners_of_map (f : Nat → EventStream V → EventStream V)
    (hstreams : ∀ id, s'.streams[id]? = s.streams[id]?.map (f id)) (hf : ∀ id st, (f id st).token = st.token) :
    s'.owners = s.owners := by
  refine List.ext_getElem? fun id => ?_
  rw [getElem?_owners, getElem?_owners, hstreams]
  cases s.streams[id]? with
  | none => rfl
  | some st => simp [hf]

private theorem owners_publish (s : MemoryStore V) (key : String) (kind : EventKind V) :
    (s.publish key kind).2.owners = s.owners :=
  owners_of_map _ (s.getElem?_publish key kind) fun id st => by
    split
    · exact st.token_offer _
    · rfl

private theorem owners_updateStreams (s : MemoryStore V) (ids : List Nat) {f : EventStream V → EventStream V}
    (hf : ∀ st, (f st).token = st.token) : (s.updateStreams ids f).owners = s.owners :=
  owners_of_map _ (s.getElem?_updateStreams ids f) fun id st => by
    split
    · exact hf st
    · rfl

/-- Only a subscription opens a stream. -/
theorem owners_act [Inhabited V] (s : MemoryStore V) {a : StoreAct V} (ha : ∀ key token, a ≠ .watch key token) :
    (s.act a).1.owners = s.owners := by
  cases a with
  | put key value => exact owners_publish { s with values := s.values.put key value } key _
  | delete key =>
    simp only [act, delete]
    cases s.values.lookup key with
    | none => rfl
    | some v => exact owners_publish { s with values := s.values.erase key } key _
  | fail key text => exact s.owners_publish key _
  | close key => exact s.owners_updateStreams (s.subscribers key) fun _ => rfl
  | shutdown => exact s.owners_updateStreams (s.registry.flatMap (·.2)) (f := (·.detach)) fun _ => rfl
  | watch key token => exact absurd rfl (ha key token)
  | release tokens id =>
    simp only [act]
    rcases s.release?_cases tokens id with heq | ⟨key, heq⟩
    · rw [heq]
    · rw [heq]
      exact s.owners_updateStreams [id] fun _ => rfl
  | flush id =>
    exact owners_of_map _ (s.getElem?_flush? id) fun i st => by
      split
      · exact st.token_flush?
      · rfl
  | receive id => exact owners_of_map _ (s.getElem?_receive id) fun i st => by split <;> rfl
  | dropReceiver id => exact owners_of_map _ (s.getElem?_dropReceiver id) fun i st => by split <;> rfl

theorem owners_watch {key : String} {token : Token} {id : Nat} (h : s.watch key token = .ok (id, s')) :
    id = s.owners.length ∧ s'.owners = s.owners ++ [token] := by
  obtain ⟨rfl, -, -, ⟨queue, -, hstreams⟩, -⟩ := watch_ok h
  exact ⟨(List.length_map ..).symm, by rw [owners, hstreams, List.map_append]; rfl⟩

end MemoryStore

/-! ### Who receives from a stream -/

namespace Hall

/-- The tokens of sessions are their own, and so are the streams that they have or had; the streams that were opened
directly have tokens of callers. -/
structure Owned (h : Hall V R σ) (s : MemoryStore V) : Prop where
  known : ∀ t ∈ s.owners, t ∈ h.contexts ∨ ∃ x ∈ h.world.sessions, x.token = t
  distinct : (h.world.sessions.map (·.token)).Nodup
  own : ∀ x ∈ h.world.sessions, ∀ id, x.phase.stream? = some id → s.owners[id]? = some x.token
  direct : ∀ id ∈ h.direct, ∃ t ∈ h.contexts, s.owners[id]? = some t
  once : ∀ x ∈ h.world.sessions, s.owners.count x.token ≤ if x.phase.isEarly then 0 else 1

variable {make : Maker V R σ} {h h' : Hall V R σ} {s : MemoryStore V} {x y : Session R}

theorem Owned.empty (eventBuffer : Nat) : (Hall.empty eventBuffer : Hall V R σ).Owned (.make eventBuffer) := by
  constructor <;> simp [Hall.empty, MemoryStore.make, MemoryStore.owners]

theorem Owned.eq_of_token_eq (ho : h.Owned s) {i j : Nat} (hx : h.world.sessions[i]? = some x)
    (hy : h.world.sessions[j]? = some y) (htoken : x.token = y.token) : i = j := by
  have hi : i < (h.world.sessions.map (·.token)).length := by simpa using (List.getElem?_eq_some_iff.1 hx).1
  refine (List.getElem?_inj hi ho.distinct).1 ?_
  rw [List.getElem?_map, List.getElem?_map, hx, hy, Option.map_some, Option.map_some, htoken]

theorem Separate.token_notMem (hs : h.Separate) (hx : x ∈ h.world.sessions) : x.token ∉ h.contexts := fun ht =>
  hs.apart x.token (List.mem_append_left _ (List.mem_map.2 ⟨x, hx, rfl⟩)) x.token ht List.suffix_rfl

/-- No stream is opened, and every session goes on. -/
theorem Owned.proceed {s' : MemoryStore V} (ho : h.Owned s) (howners : s'.owners = s.owners)
    (hlasts : h.world.Lasts h'.world) (hcontexts : ∀ t ∈ h.contexts, t ∈ h'.contexts)
    (hdirect : h'.direct = h.direct) : h'.Owned s' := by
  have hold : ∀ {i : Nat} {x' : Session R}, h'.world.sessions[i]? = some x' →
      ∃ x, h.world.sessions[i]? = some x ∧ x.Lasts x' := by
    intro i x' hx'
    have hi : i < h.world.sessions.length := hlasts.length_eq ▸ (List.getElem?_eq_some_iff.1 hx').1
    obtain ⟨x'', hx'', h⟩ := hlasts.sessions i _ (List.getElem?_eq_getElem hi)
    obtain rfl := Option.some.inj (hx''.symm.trans hx')
    exact ⟨_, List.getElem?_eq_getElem hi, h⟩
  have hmem : ∀ x' ∈ h'.world.sessions, ∃ x ∈ h.world.sessions, x.Lasts x' := by
    intro x' hx'
    obtain ⟨i, hi⟩ := List.mem_iff_getElem?.1 hx'
    obtain ⟨x, hx, h⟩ := hold hi
    exact ⟨x, List.mem_of_getElem? hx, h⟩
  refine ⟨fun t ht => ?_, ?_, fun x' hx' id hid => ?_, fun id hid => ?_, fun x' hx' => ?_⟩
  · rw [howners] at ht
    refine (ho.known t ht).imp (hcontexts t) fun ⟨x, hx, htoken⟩ => ?_
    obtain ⟨i, hi⟩ := List.mem_iff_getElem?.1 hx
    obtain ⟨x', hx', h⟩ := hlasts.sessions i x hi
    exact ⟨x', List.mem_of_getElem? hx', h.token_eq.trans htoken⟩
  · have htokens : h'.world.sessions.map (·.token) = h.world.sessions.map (·.token) := by
      refine List.ext_getElem (by simp [hlasts.length_eq]) fun i hi hi' => ?_
      obtain ⟨x, hx, h⟩ := hold (List.getElem?_eq_getElem (by simpa using hi))
      obtain ⟨_, rfl⟩ := List.getElem?_eq_some_iff.1 hx
      rw [List.getElem_map, List.getElem_map]
      exact h.token_eq
    exact htokens ▸ ho.distinct
  · obtain ⟨x, hx, h⟩ := hmem x' hx'
    rw [howners, h.token_eq]
    exact ho.own x hx id (h.stream id hid)
  · rw [hdirect] at hid
    obtain ⟨t, ht, howner⟩ := ho.direct id hid
    exact ⟨t, hcontexts t ht, howners ▸ howner⟩
  · obtain ⟨x, hx, h⟩ := hmem x' hx'
    have honce := ho.once x hx
    rw [howners, h.token_eq]
    split
    · rename_i hearly
      rwa [if_pos (h.early hearly)] at honce
    · split at honce
      · exact Nat.le_succ_of_le honce
      · exact honce

/-- What is in a list is where it was when another member is added. -/
private theorem getElem?_concat_of_some {α : Type} {xs : List α} {i : Nat} {a : α} (h : xs[i]? = some a) (b : α) :
    (xs ++ [b])[i]? = some a := by
  rw [List.getElem?_append_left (List.getElem?_eq_some_iff.1 h).1, h]

private theorem count_concat_of_ne {ts : List Token} {t u : Token} (h : t ≠ u) :
    (ts ++ [u]).count t = ts.count t := by
  simp [List.count_append, Ne.symm h]

/-- A session opens its stream. -/
theorem Owned.opens {s' : MemoryStore V} {i id : Nat} (ho : h.Owned s) (hx : h.world.sessions[i]? = some x)
    (hp : x.phase = .subscribing) (hw : s.watch x.key x.token = .ok (id, s')) (w : World V R σ)
    (hsessions : w.sessions = h.world.sessions.set i { x with phase := .awaiting id }) :
    Owned { h with world := w } s' := by
  obtain ⟨rfl, howners⟩ := MemoryStore.owners_watch hw
  have hi : i < h.world.sessions.length := (List.getElem?_eq_some_iff.1 hx).1
  have hnone : s.owners.count x.token = 0 := by
    have := ho.once x (List.mem_of_getElem? hx)
    rw [hp] at this
    exact Nat.le_zero.1 this
  have htokens : w.sessions.map (·.token) = h.world.sessions.map (·.token) := by
    rw [hsessions]
    exact map_set_of_eq hx rfl
  -- the session itself, or another one, which has another token
  have hmem : ∀ y ∈ w.sessions, y = { x with phase := .awaiting s.owners.length } ∨
      y ∈ h.world.sessions ∧ y.token ≠ x.token := by
    intro y hy
    obtain ⟨j, hj⟩ := List.mem_iff_getElem?.1 hy
    rw [hsessions] at hj
    rcases of_getElem?_set hj with ⟨-, rfl⟩ | ⟨hne, hj⟩
    · exact Or.inl rfl
    · exact Or.inr ⟨List.mem_of_getElem? hj, fun htoken => hne (ho.eq_of_token_eq hx hj htoken.symm)⟩
  refine ⟨fun t ht => ?_, htokens ▸ ho.distinct, fun y hy id' hid => ?_, fun id' hid => ?_, fun y hy => ?_⟩
  · have hold : ∀ {y : Session R}, y ∈ h.world.sessions → ∃ y' ∈ w.sessions, y'.token = y.token := by
      intro y hy
      have : y.token ∈ w.sessions.map (·.token) := htokens ▸ List.mem_map.2 ⟨y, hy, rfl⟩
      exact List.mem_map.1 this
    rw [howners] at ht
    rcases List.mem_append.1 ht with ht | ht
    · refine (ho.known t ht).imp_right fun ⟨y, hy, htoken⟩ => ?_
      obtain ⟨y', hy', heq⟩ := hold hy
      exact ⟨y', hy', heq.trans htoken⟩
    · rw [List.mem_singleton.1 ht]
      exact Or.inr (hold (List.mem_of_getElem? hx))
  · rw [howners]
    rcases hmem y hy with rfl | ⟨hy, -⟩
    · obtain rfl := Option.some.inj hid
      exact List.getElem?_concat_length
    · exact getElem?_concat_of_some (ho.own y hy id' hid) _
  · obtain ⟨t, ht, howner⟩ := ho.direct id' hid
    exact ⟨t, ht, by rw [howners]; exact getElem?_concat_of_some howner _⟩
  · rw [howners]
    rcases hmem y hy with rfl | ⟨hy, hne⟩
    · change (s.owners ++ [x.token]).count x.token ≤ 1
      simp [List.count_append, hnone]
    · rw [count_concat_of_ne hne]
      exact ho.once y hy

/-- A caller opens a stream. -/
theorem Owned.subscribe {s' : MemoryStore V} {key : String} {t : Token} {id : Nat} (ho : h.Owned s) (hs : h.Separate)
    (ht : t ∈ h.contexts) (hw : s.watch key t = .ok (id, s')) (w : World V R σ)
    (hsessions : w.sessions = h.world.sessions) : Owned { h with world := w, direct := h.direct ++ [id] } s' := by
  obtain ⟨rfl, howners⟩ := MemoryStore.owners_watch hw
  refine ⟨fun u hu => ?_, hsessions ▸ ho.distinct, fun x hx id hid => ?_, fun id hid => ?_, fun x hx => ?_⟩
  · rw [howners] at hu
    rw [hsessions]
    rcases List.mem_append.1 hu with hu | hu
    · exact ho.known u hu
    · exact Or.inl (List.mem_singleton.1 hu ▸ ht)
  · rw [hsessions] at hx
    rw [howners]
    exact getElem?_concat_of_some (ho.own x hx id hid) _
  · rw [howners]
    rcases List.mem_append.1 hid with hid | hid
    · obtain ⟨u, hu, howner⟩ := ho.direct id hid
      exact ⟨u, hu, getElem?_concat_of_some howner _⟩
    · rw [List.mem_singleton.1 hid]
      exact ⟨t, ht, List.getElem?_concat_length⟩
  · rw [hsessions] at hx
    have hne : x.token ≠ t := fun htoken => hs.token_notMem hx (by rw [htoken]; exact ht)
    rw [howners, count_concat_of_ne hne]
    exact ho.once x hx

/-- A session is added, on a token that nobody has. -/
theorem Owned.serve (ho : h.Owned s) (hs : h.Separate) (t : Token) (key : String)
    (maker capacity : Nat) :
    Owned { h with world := { (h.world.newToken t).2 with
      sessions := h.world.sessions ++ [Session.serving key (h.world.newToken t).1 maker capacity] } } s := by
  have hfresh : ∀ u, u ∈ h.contexts ∨ (∃ x ∈ h.world.sessions, x.token = u) → u ≠ (h.world.newToken t).1 := by
    rintro u hu rfl
    have hmem : (h.world.newToken t).1 ∈ h.contexts ++ h.world.ownTokens := by
      refine List.mem_append.2 (hu.imp_right fun ⟨x, hx, hxtoken⟩ => ?_)
      exact List.mem_append_left _ (List.mem_map.2 ⟨x, hx, hxtoken⟩)
    exact absurd (hs.numbered _ hmem h.world.tokens.next List.mem_cons_self) (Nat.lt_irrefl _)
  refine ⟨fun u hu => ?_, ?_, fun x hx id hid => ?_, ho.direct, fun x hx => ?_⟩
  · exact (ho.known u hu).imp_right fun ⟨x, hx, hxtoken⟩ => ⟨x, List.mem_append_left _ hx, hxtoken⟩
  · rw [List.map_append, List.map_singleton]
    refine List.nodup_append.2 ⟨ho.distinct, List.pairwise_singleton _ _, fun u hu v hv => ?_⟩
    rw [List.mem_singleton.1 hv]
    exact hfresh u (Or.inr (List.mem_map.1 hu))
  · rcases List.mem_append.1 hx with hx | hx
    · exact ho.own x hx id hid
    · rw [List.mem_singleton.1 hx] at hid
      simp [Session.serving, Phase.stream?] at hid
  · rcases List.mem_append.1 hx with hx | hx
    · exact ho.once x hx
    · rw [List.mem_singleton.1 hx]
      refine Nat.le_zero.2 (List.count_eq_zero.2 fun hmem => ?_)
      exact hfresh _ (ho.known _ hmem) rfl

/-! ### Runs -/

variable [Inhabited V] {c : Chronicle V}

theorem Lets.owners_acts {as : List (StoreAct V)} (has : ∀ a ∈ as, h.Lets a) (c : Chronicle V) :
    (c.acts as).store.owners = c.store.owners := by
  induction as generalizing c with
  | nil => rfl
  | cons a as ih =>
    rw [List.forall_mem_cons] at has
    refine (ih has.2 (c.act a)).trans (c.store.owners_act fun key token ha => ?_)
    rw [ha] at has
    exact has.1

/-- Every step keeps streams with their owners, and what it does to the store is an act of a history. -/
theorem Owned.deals (ho : h.Owned c.store) (hs : h.Separate) (hc : h.world.store = .memory c.store)
    (hd : h.Deals c h') : ∃ as, h'.world.store = .memory (c.acts as).store ∧ h'.Owned (c.acts as).store := by
  have hwatch : ∀ {key : String} {t : Token} {id : Nat} {s' : MemoryStore V}, c.store.watch key t = .ok (id, s') →
      (c.acts [.watch key t]).store = s' := by
    intro key t id s' hw
    exact congrArg (·.1) (MemoryStore.act_watch hw)
  cases hd with
  | proceed as hstore hlets hlasts hcontexts hdirect =>
    exact ⟨as, hstore, ho.proceed (Lets.owners_acts hlets c) hlasts hcontexts hdirect⟩
  | opens hsubscribes =>
    obtain ⟨hx, hp, id, s', hw, rfl⟩ := hsubscribes
    obtain rfl := hwatch hw
    exact ⟨_, rfl, ho.opens hx hp hw _ rfl⟩
  | subscribe ht hw =>
    obtain rfl := hwatch hw
    exact ⟨_, rfl, ho.subscribe hs ht hw _ rfl⟩
  | serve _ key maker capacity => exact ⟨[], hc, ho.serve hs _ key maker capacity⟩

/-- Whatever is done in a hall, its store is that of a history, and streams keep to their owners. -/
theorem Reaches.exists_history {eventBuffer : Nat} (hreaches : Reaches Q make (.empty eventBuffer) h) :
    ∃ history, h.world.store = .memory ((Chronicle.opening eventBuffer).acts history).store ∧
      h.Owned ((Chronicle.opening eventBuffer).acts history).store := by
  refine hreaches.of_steps (P := fun u : Hall V R σ =>
    ∃ history, u.world.store = .memory ((Chronicle.opening eventBuffer).acts history).store ∧
      u.Owned ((Chronicle.opening eventBuffer).acts history).store) ⟨[], rfl, Owned.empty eventBuffer⟩ ?_
  rintro u v hu hstep ⟨history, hc, ho⟩
  obtain ⟨as, hstore, howned⟩ := ho.deals ((Inv.empty eventBuffer).of_reaches hu).separate hc (hstep.deals hc)
  have happend : (Chronicle.opening eventBuffer : Chronicle V).acts (history ++ as) =
      ((Chronicle.opening eventBuffer).acts history).acts as := List.foldl_append
  exact ⟨history ++ as, happend ▸ hstore, happend ▸ howned⟩

end Hall

end ResourceWatch

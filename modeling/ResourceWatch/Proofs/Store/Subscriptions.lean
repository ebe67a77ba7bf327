import Mathlib.Data.List.Nodup
import ResourceWatch.Proofs.Store.Registration
import ResourceWatch.Proofs.Store.Shedding
import ResourceWatch.Proofs.Store.Values

/-!
# Subscriptions

The registry has each key once, with subscribers in the order of their numbers (`Registry.Neat`).  A subscription
stands until its key is closed, the store is shut down, or an event is published on the key whose receiver is gone;
besides, its guard task lets go of it once its token is cancelled.  What an act can do to the store is said once
(`MemoryStore.Did`), and from that follows what becomes of the registry (`MemoryStore.Did.neat`) and of each stream
and its subscription (`MemoryStore.Did.shows`).
-/

namespace ResourceWatch

variable {V : Type}

/-! ### The registry -/

namespace Registry

variable {r : Registry} {key : String} {ids : List Nat}

/-- Every key comes once and has subscribers, in the order of their numbers. -/
structure Neat (r : Registry) : Prop where
  nodup_keys : (Dictionary.keys r).Nodup
  ne_nil : ∀ e ∈ r, e.2 ≠ []
  ascending : ∀ key, (r.get key).Pairwise (· < ·)

namespace Neat

theorem empty : Neat [] := ⟨List.nodup_nil, fun _ he => absurd he List.not_mem_nil, fun _ => List.Pairwise.nil⟩

theorem set (h : r.Neat) (key : String) (hids : ids.Pairwise (· < ·)) : (r.set key ids).Neat := by
  refine ⟨?_, ?_, fun k => ?_⟩
  · unfold Registry.set
    split
    · exact Dictionary.nodup_keys_erase h.nodup_keys key
    · exact Dictionary.nodup_keys_put h.nodup_keys key ids
  · unfold Registry.set
    split
    · exact fun e he => h.ne_nil e (List.mem_filter.1 he).1
    · rename_i hne
      intro e he
      rcases Dictionary.mem_put he with rfl | he
      · exact hne
      · exact h.ne_nil e he
  · rw [get_set]
    split
    · exact hids
    · exact h.ascending k

theorem get_eq (h : r.Neat) {e : String × List Nat} (he : e ∈ r) : r.get e.1 = e.2 := by
  rw [get, Dictionary.lookup_of_mem h.nodup_keys he, Option.getD_some]

/-- Subscribers of different keys are different, and so no subscriber comes twice. -/
theorem nodup_flatMap (h : r.Neat) (hown : ∀ k k' id, id ∈ r.get k → id ∈ r.get k' → k = k') :
    (r.flatMap (·.2)).Nodup := by
  rw [List.nodup_flatMap]
  refine ⟨fun e he => ?_, ?_⟩
  · rw [← h.get_eq he]
    exact (h.ascending e.1).nodup
  · refine (List.pairwise_map.1 h.nodup_keys).imp_of_mem @fun e e' he he' hne id hid hid' => ?_
    have hid : id ∈ r.get e.1 := h.get_eq he ▸ hid
    have hid' : id ∈ r.get e'.1 := h.get_eq he' ▸ hid'
    exact hne (hown e.1 e'.1 id hid hid')

end Neat

end Registry

/-! ### What happens to subscriptions -/

/-- A subscription that was granted, and the number of its stream. -/
structure Subscription where
  number : Nat
  key : String
  token : Token
deriving DecidableEq, Repr

/-- What happens to subscriptions and to the receivers of their streams. -/
inductive Incident where
  | granted (x : Subscription)
  | published (key : String)
  | closed (key : String)
  | shutDown
  | receiverGone (stream : Nat)
deriving DecidableEq, Repr

/-- What an act does to subscriptions; a key without a value is not deleted. -/
def MemoryStore.incidents (s : MemoryStore V) : StoreAct V → List Incident
  | .put key _ | .fail key _ => [.published key]
  | .delete key => if (s.values.lookup key).isSome then [.published key] else []
  | .close key => [.closed key]
  | .shutdown => [.shutDown]
  | .watch key token =>
    match s.watch key token with
    | .error _ => []
    | .ok (number, _) => [.granted ⟨number, key, token⟩]
  | .dropReceiver stream => [.receiverGone stream]
  | .release _ _ | .flush _ | .receive _ => []

namespace Subscription

/-- Nothing that happened later has ended the subscription: neither was its key closed nor the store shut down, and no
event was published on the key behind the loss of the receiver. -/
def Stands (x : Subscription) (later : List Incident) : Prop :=
  .closed x.key ∉ later ∧ .shutDown ∉ later ∧ ¬ [.receiverGone x.number, .published x.key].Sublist later

instance (x : Subscription) (later : List Incident) : Decidable (x.Stands later) :=
  inferInstanceAs (Decidable (_ ∧ _ ∧ _))

private theorem pair_sublist_concat {α : Type} {a b c : α} {l : List α} :
    [a, b].Sublist (l ++ [c]) ↔ [a, b].Sublist l ∨ b = c ∧ a ∈ l := by
  rw [← List.reverse_sublist, ← @List.reverse_sublist _ [a, b], List.reverse_concat, List.sublist_cons_iff]
  refine or_congr_right ⟨?_, ?_⟩
  · rintro ⟨rest, hrest, hsub⟩
    obtain ⟨rfl, rfl⟩ := List.cons.inj hrest
    exact ⟨rfl, by simpa using hsub⟩
  · rintro ⟨rfl, ha⟩
    exact ⟨[a], rfl, by simpa using ha⟩

/-- What one more incident means for a subscription. -/
theorem stands_concat (x : Subscription) (later : List Incident) (i : Incident) :
    x.Stands (later ++ [i]) ↔ x.Stands later ∧ i ≠ .closed x.key ∧ i ≠ .shutDown ∧
      ¬ (i = .published x.key ∧ .receiverGone x.number ∈ later) := by
  unfold Stands
  rw [pair_sublist_concat]
  simp only [List.mem_append, List.mem_singleton]
  grind

end Subscription

/-- The subscriptions among these incidents, each with what happened later. -/
def subscriptions : List Incident → List (Subscription × List Incident)
  | [] => []
  | .granted x :: later => (x, later) :: subscriptions later
  | _ :: later => subscriptions later

theorem subscriptions_append (before after : List Incident) : subscriptions (before ++ after) =
    (subscriptions before).map (fun g => (g.1, g.2 ++ after)) ++ subscriptions after := by
  induction before with
  | nil => rfl
  | cons i before ih =>
    cases i with
    | granted x => exact congrArg ((x, before ++ after) :: ·) ih
    | _ => exact ih

/-- The subscriptions of the key that stand and whose tokens are not cancelled. -/
def standing (tokens : Tokens) (key : String) (incidents : List Incident) : List Subscription :=
  ((subscriptions incidents).filter fun g =>
    g.1.key = key ∧ g.1.Stands g.2 ∧ tokens.isCancelled g.1.token = false).map (·.1)

theorem mem_standing {tokens : Tokens} {key : String} {incidents : List Incident} {x : Subscription} :
    x ∈ standing tokens key incidents ↔ x.key = key ∧ tokens.isCancelled x.token = false ∧
      ∃ later, (x, later) ∈ subscriptions incidents ∧ x.Stands later := by
  simp only [standing, List.mem_map, List.mem_filter, decide_eq_true_eq]
  constructor
  · rintro ⟨⟨x, later⟩, ⟨hmem, hkey, hstands, hlive⟩, rfl⟩
    exact ⟨hkey, hlive, later, hmem, hstands⟩
  · rintro ⟨hkey, hlive, later, hmem, hstands⟩
    exact ⟨(x, later), ⟨hmem, hkey, hstands, hlive⟩, rfl⟩

/-- To cancel a token is to leave out the subscriptions below it. -/
theorem standing_cancel (tokens : Tokens) (token : Token) (key : String) (incidents : List Incident) :
    standing (tokens.cancel token) key incidents =
      (standing tokens key incidents).filter fun x => !token.isSuffixOf x.token := by
  rw [standing, standing, List.filter_map, List.filter_filter]
  refine congrArg _ (List.filter_congr fun g _ => ?_)
  rw [Tokens.isCancelled_cancel]
  cases hbelow : token.isSuffixOf g.1.token <;> simp [hbelow]

/-! ### What the acts do -/

/-- The second stream differs from the first in its queue at most. -/
structure EventStream.Same (st st' : EventStream V) : Prop where
  key_eq : st'.key = st.key
  token_eq : st'.token = st.token
  receiving_eq : st'.queue.receiving = st.queue.receiving
  attached_eq : st'.attached = st.attached
  guarding_eq : st'.guarding = st.guarding

namespace MemoryStore

/-- What an act can do to a store, and to subscriptions. -/
inductive Did (s : MemoryStore V) : StoreAct V → MemoryStore V → List Incident → Prop
  | nothing {a : StoreAct V} : Did s a s []
  | published {a : StoreAct V} (values : Dictionary String V) (key : String) (kind : EventKind V) :
      Did s a (({ s with values } : MemoryStore V).publish key kind).2 [.published key]
  | closed (key : String) : Did s (.close key) (s.close key) [.closed key]
  | shutDown : Did s .shutdown s.shutdown [.shutDown]
  | granted {key : String} {token : Token} {number : Nat} {t : MemoryStore V}
      (watched : s.watch key token = .ok (number, t)) : Did s (.watch key token) t [.granted ⟨number, key, token⟩]
  | released {tokens : Tokens} {id : Nat} {t : MemoryStore V} (went : s.release? tokens id = some t) :
      Did s (.release tokens id) t []
  | queued {a : StoreAct V} (id : Nat) (f : EventStream V → EventStream V)
      (same : ∀ st, s.streams[id]? = some st → st.Same (f st)) :
      Did s a { s with streams := s.streams.modify id f } []
  | dropped (id : Nat) : Did s (.dropReceiver id) (s.dropReceiver id) [.receiverGone id]

variable {s t : MemoryStore V} {a : StoreAct V} {happened : List Incident}

/-- Every act does one of these. -/
theorem did_act [Inhabited V] (s : MemoryStore V) (a : StoreAct V) : s.Did a (s.act a).1 (s.incidents a) := by
  cases a with
  | put key value => exact .published _ key _
  | delete key =>
    cases hvalue : s.values.lookup key with
    | none =>
      rw [act, s.delete_of_absent key hvalue, incidents, hvalue]
      exact .nothing
    | some value =>
      rw [act, s.delete_of_present key hvalue, incidents, hvalue]
      exact .published _ key _
  | fail key text => exact .published s.values key _
  | close key => exact .closed key
  | shutdown => exact .shutDown
  | watch key token =>
    simp only [act, incidents]
    cases hw : s.watch key token with
    | error e => exact .nothing
    | ok granted => exact .granted hw
  | release tokens id =>
    simp only [act, incidents]
    cases hr : s.release? tokens id with
    | none => exact .nothing
    | some t => exact .released hr
  | flush id =>
    simp only [act, incidents]
    cases hflush : s.flush? id with
    | none => exact .nothing
    | some t =>
      simp only [flush?, Option.bind_eq_bind, Option.bind_eq_some_iff, Option.pure_def, Option.some.injEq] at hflush
      obtain ⟨st, hst, st', hst', rfl⟩ := hflush
      have heq : st' = st.flush?.getD st := by rw [hst', Option.getD_some]
      refine .queued id _ fun st₀ hst₀ => ?_
      obtain rfl := Option.some.inj (hst₀.symm.trans hst)
      rw [heq]
      exact ⟨st₀.key_flush?, st₀.token_flush?, st₀.receiving_flush?, st₀.attached_flush?, st₀.guarding_flush?⟩
  | receive id =>
    simp only [act, incidents, receive]
    split
    · exact .nothing
    · exact .queued id _ fun st _ => ⟨rfl, rfl, st.receiving_receive, rfl, rfl⟩
  | dropReceiver id => exact .dropped id

namespace Did

/-- The registry is left as it is or emptied, or subscribers are taken off one key, or a new one is put behind the
others of its key. -/
theorem registry_cases (h : s.Did a t happened) : t.registry = s.registry ∨ t.registry = [] ∨
    ∃ key ids, t.registry = s.registry.set key ids ∧
      (ids.Sublist (s.subscribers key) ∨ ids = s.subscribers key ++ [s.streams.length]) := by
  cases h with
  | nothing => exact Or.inl rfl
  | published values key kind => exact Or.inr (Or.inr ⟨key, _, rfl, Or.inl List.filter_sublist⟩)
  | closed key => exact Or.inr (Or.inr ⟨key, [], rfl, Or.inl (List.nil_sublist _)⟩)
  | shutDown => exact Or.inr (Or.inl rfl)
  | @granted key token number t watched =>
    unfold watch at watched
    split at watched
    · simp at watched
    · split at watched
      · simp at watched
      · obtain ⟨-, rfl⟩ := Prod.mk.inj (Except.ok.inj watched)
        exact Or.inr (Or.inr ⟨key, _, rfl, Or.inr rfl⟩)
  | released went =>
    obtain ⟨st, -, -, -, rfl⟩ := release?_eq_some went
    exact Or.inr (Or.inr ⟨st.key, _, rfl, Or.inl List.filter_sublist⟩)
  | queued id f same => exact Or.inl rfl
  | dropped id => exact Or.inl rfl

theorem neat (h : s.Did a t happened) (hs : s.registry.Neat) (ho : s.Orderly) : t.registry.Neat := by
  rcases h.registry_cases with heq | heq | ⟨key, ids, heq, hsub | hnew⟩
  · rw [heq]
    exact hs
  · rw [heq]
    exact .empty
  · rw [heq]
    exact hs.set key ((hs.ascending key).sublist hsub)
  · rw [heq, hnew]
    refine hs.set key ?_
    -- the new number is greater than those of all streams that there are
    refine List.pairwise_append.2 ⟨hs.ascending key, List.pairwise_singleton _ _, fun id hid new hmem => ?_⟩
    obtain ⟨st, hst, -, -⟩ := (ho key id).1 hid
    rw [List.mem_singleton.1 hmem]
    exact (List.getElem?_eq_some_iff.1 hst).1

/-- A stream is opened for each subscription that is granted. -/
theorem length_streams (h : s.Did a t happened) :
    t.streams.length = s.streams.length + (subscriptions happened).length := by
  cases h with
  | nothing => rfl
  | published values key kind => simp [publish, updateStreams, subscriptions]
  | closed key => simp [close, updateStreams, subscriptions]
  | shutDown => simp [shutdown, updateStreams, subscriptions]
  | granted watched =>
    obtain ⟨-, -, -, ⟨queue, -, hstreams⟩, -⟩ := watch_ok watched
    rw [hstreams, List.length_append]
    rfl
  | released went =>
    obtain ⟨st, -, -, -, rfl⟩ := release?_eq_some went
    simp [updateStreams, subscriptions]
  | queued id f same => simp [subscriptions]
  | dropped id => simp [dropReceiver, subscriptions]

end Did

end MemoryStore

/-! ### What a stream shows of its subscription -/

/-- The stream is attached as long as the subscription stands and its guard task waits, and that task goes on only if
the token is cancelled. -/
structure Subscription.Shows (x : Subscription) (later : List Incident) (tokens : Tokens) (st : EventStream V) :
    Prop where
  key_eq : st.key = x.key
  token_eq : st.token = x.token
  receiving_iff : st.queue.receiving = true ↔ .receiverGone x.number ∉ later
  attached_iff : st.attached = true ↔ x.Stands later ∧ st.guarding = true
  released : st.guarding = false → tokens.isCancelled x.token = true

namespace Subscription.Shows

variable {x : Subscription} {later : List Incident} {tokens : Tokens} {st st' : EventStream V}

theorem of_same (h : x.Shows later tokens st) (hsame : st.Same st') : x.Shows later tokens st' where
  key_eq := hsame.key_eq.trans h.key_eq
  token_eq := hsame.token_eq.trans h.token_eq
  receiving_iff := hsame.receiving_eq ▸ h.receiving_iff
  attached_iff := by rw [hsame.attached_eq, hsame.guarding_eq, h.attached_iff]
  released := fun hst => h.released (hsame.guarding_eq ▸ hst)

/-- An incident that leaves the receiver, and a stream that is let go of if the incident ends the subscription. -/
theorem incident (h : x.Shows later tokens st) {i : Incident} (hi : i ≠ .receiverGone x.number)
    (hkey : st'.key = st.key) (htoken : st'.token = st.token) (hreceiving : st'.queue.receiving = st.queue.receiving)
    (hguarding : st'.guarding = st.guarding)
    (hattached : st'.attached = true ↔ st.attached = true ∧ i ≠ .closed x.key ∧ i ≠ .shutDown ∧
      ¬ (i = .published x.key ∧ st.queue.receiving = false)) : x.Shows (later ++ [i]) tokens st' where
  key_eq := hkey.trans h.key_eq
  token_eq := htoken.trans h.token_eq
  receiving_iff := by
    rw [hreceiving, h.receiving_iff, List.mem_append, List.mem_singleton, or_iff_left hi.symm]
  attached_iff := by
    have hgone : st.queue.receiving = false ↔ .receiverGone x.number ∈ later := by
      rw [← Bool.not_eq_true, h.receiving_iff, not_not]
    rw [hattached, h.attached_iff, x.stands_concat, hguarding, hgone, and_right_comm]
  released := fun hst => h.released (hguarding ▸ hst)

theorem drop (h : x.Shows later tokens st) : x.Shows (later ++ [.receiverGone x.number]) tokens st.drop where
  key_eq := h.key_eq
  token_eq := h.token_eq
  receiving_iff := by simp [EventStream.drop, Queue.drop]
  attached_iff := by
    rw [x.stands_concat]
    simpa [EventStream.drop] using h.attached_iff
  released := h.released

theorem release (h : x.Shows later tokens st) (hcancelled : tokens.isCancelled st.token = true) :
    x.Shows later tokens { st.detach with guarding := false } where
  key_eq := h.key_eq
  token_eq := h.token_eq
  receiving_iff := h.receiving_iff
  attached_iff := by simp [EventStream.detach]
  released := fun _ => h.token_eq ▸ hcancelled

/-- The guard task does not go back to waiting. -/
theorem cancel (h : x.Shows later tokens st) (token : Token) : x.Shows later (tokens.cancel token) st where
  key_eq := h.key_eq
  token_eq := h.token_eq
  receiving_iff := h.receiving_iff
  attached_iff := h.attached_iff
  released := fun hst => by rw [Tokens.isCancelled_cancel, h.released hst, Bool.or_true]

end Subscription.Shows

/-- An event is refused by a stream whose receiver is gone, and by no other. -/
theorem EventStream.attached_offer_eq {st : EventStream V} (h : st.attached = true) (e : Event V) :
    (st.offer e).attached = st.queue.receiving := by
  unfold offer detach
  split
  · rfl
  · cases hr : st.queue.receiving with
    | false => simp
    | true => cases hroom : st.queue.hasRoom <;> simp [h]

namespace MemoryStore

variable {s : MemoryStore V} {id : Nat} {st : EventStream V} {x : Subscription} {later : List Incident}
  {tokens : Tokens}

/-- Whether a stream is subscribed to the key can be read off the stream. -/
private theorem mem_subscribers_iff (ho : s.Orderly) (hst : s.streams[id]? = some st) (h : x.Shows later tokens st)
    (key : String) : id ∈ s.subscribers key ↔ x.key = key ∧ st.attached = true := by
  rw [ho key id, ← h.key_eq]
  simp [hst]

private theorem shows_publish (ho : s.Orderly) (hst : s.streams[id]? = some st) (h : x.Shows later tokens st)
    (key : String) (kind : EventKind V) :
    ∃ st', (s.publish key kind).2.streams[id]? = some st' ∧ x.Shows (later ++ [.published key]) tokens st' := by
  have hsubscribed := mem_subscribers_iff ho hst h key
  refine ⟨_, by rw [s.getElem?_publish, hst, Option.map_some], ?_⟩
  split
  · rename_i hid
    obtain ⟨hkey, hattached⟩ := hsubscribed.1 hid
    refine h.incident (by simp) (st.key_offer _) (st.token_offer _) (st.receiving_offer _) (st.guarding_offer _) ?_
    rw [EventStream.attached_offer_eq hattached]
    simp [hattached, hkey]
  · rename_i hid
    refine h.incident (by simp) rfl rfl rfl rfl ?_
    have hother : st.attached = true → key ≠ x.key := fun hattached hkey =>
      hid (hsubscribed.2 ⟨hkey.symm, hattached⟩)
    simpa using fun hattached hkey => absurd hkey (hother hattached)

private theorem shows_close (ho : s.Orderly) (hst : s.streams[id]? = some st) (h : x.Shows later tokens st)
    (key : String) :
    ∃ st', (s.close key).streams[id]? = some st' ∧ x.Shows (later ++ [.closed key]) tokens st' := by
  have hsubscribed := mem_subscribers_iff ho hst h key
  have hstreams := s.getElem?_updateStreams (s.subscribers key) (·.detach) id
  refine ⟨_, by rw [close, hstreams, hst, Option.map_some], ?_⟩
  split
  · rename_i hid
    refine h.incident (by simp) rfl rfl rfl rfl ?_
    simp [EventStream.detach, (hsubscribed.1 hid).1]
  · rename_i hid
    refine h.incident (by simp) rfl rfl rfl rfl ?_
    have hother : st.attached = true → key ≠ x.key := fun hattached hkey =>
      hid (hsubscribed.2 ⟨hkey.symm, hattached⟩)
    simpa using hother

private theorem shows_shutdown (ho : s.Orderly) (hst : s.streams[id]? = some st) (h : x.Shows later tokens st) :
    ∃ st', s.shutdown.streams[id]? = some st' ∧ x.Shows (later ++ [.shutDown]) tokens st' := by
  have hstreams := s.getElem?_updateStreams (s.registry.flatMap (·.2)) (·.detach) id
  refine ⟨_, by rw [shutdown, hstreams, hst, Option.map_some], ?_⟩
  split
  · refine h.incident (by simp) rfl rfl rfl rfl ?_
    simp [EventStream.detach]
  · rename_i hid
    refine h.incident (by simp) rfl rfl rfl rfl ?_
    have hdetached : ¬ st.attached = true := fun hattached =>
      hid (mem_registry_of_mem_subscribers ((ho st.key id).2 ⟨st, hst, rfl, hattached⟩))
    simpa using hdetached

/-- An act does to a stream what it does to its subscription. -/
theorem Did.shows {t : MemoryStore V} {a : StoreAct V} {happened : List Incident} (hdid : s.Did a t happened)
    (hunder : ∀ cancelled i, a = .release cancelled i → cancelled = tokens) (ho : s.Orderly)
    (hst : s.streams[x.number]? = some st) (h : x.Shows later tokens st) :
    ∃ st', t.streams[x.number]? = some st' ∧ x.Shows (later ++ happened) tokens st' := by
  have hquiet : x.Shows (later ++ []) tokens st := by rwa [List.append_nil]
  cases hdid with
  | nothing => exact ⟨st, hst, hquiet⟩
  | published values key kind => exact shows_publish (s := { s with values }) ho hst h key kind
  | closed key => exact shows_close ho hst h key
  | shutDown => exact shows_shutdown ho hst h
  | granted watched =>
    obtain ⟨-, -, -, ⟨queue, -, hstreams⟩, -⟩ := watch_ok watched
    refine ⟨st, ?_, h.incident (by simp) rfl rfl rfl rfl (by simp)⟩
    rw [hstreams, List.getElem?_append_left (List.getElem?_eq_some_iff.1 hst).1, hst]
  | @released cancelled i t went =>
    obtain rfl := hunder cancelled i rfl
    obtain ⟨st', hst', -, hcancelled, rfl⟩ := release?_eq_some went
    refine ⟨_, (s.getElem?_updateStreams [i] _ x.number).trans (by rw [hst, Option.map_some]), ?_⟩
    split
    · rename_i hmem
      obtain rfl := List.mem_singleton.1 hmem
      obtain rfl := Option.some.inj (hst'.symm.trans hst)
      exact hquiet.release hcancelled
    · exact hquiet
  | queued i f same =>
    have hstreams := List.getElem?_modify f i s.streams x.number
    refine ⟨_, hstreams.trans (by rw [hst, Option.map_eq_map, Option.map_some]), ?_⟩
    split
    · rename_i hi
      exact hquiet.of_same (same st (hi ▸ hst))
    · exact hquiet
  | dropped i =>
    refine ⟨_, by rw [s.getElem?_dropReceiver, hst, Option.map_some], ?_⟩
    split
    · rename_i hi
      rw [hi]
      exact h.drop
    · rename_i hi
      exact h.incident (by simpa using hi) rfl rfl rfl rfl (by simp)

/-- A stream that was not there before shows the subscription that was granted. -/
theorem Did.shows_opened {t : MemoryStore V} {a : StoreAct V} {happened : List Incident} (hdid : s.Did a t happened)
    (hst : t.streams[id]? = some st) (hnew : s.streams.length ≤ id) (tokens : Tokens) :
    ∃ x, subscriptions happened = [(x, [])] ∧ x.number = id ∧ id = s.streams.length ∧ x.Shows [] tokens st := by
  have hlt := (List.getElem?_eq_some_iff.1 hst).1
  rw [hdid.length_streams] at hlt
  cases hdid with
  | granted watched =>
    obtain ⟨rfl, -, -, ⟨queue, hqueue, hstreams⟩, -⟩ := watch_ok watched
    obtain rfl : id = s.streams.length := Nat.le_antisymm (Nat.le_of_lt_succ hlt) hnew
    rw [hstreams, List.getElem?_concat_length, Option.some.injEq] at hst
    obtain ⟨-, rfl⟩ := Queue.eq_of_make? hqueue
    subst hst
    refine ⟨_, rfl, rfl, rfl, rfl, rfl, ?_, ?_, fun h => ?_⟩
    · simp
    · simp [Subscription.Stands]
    · simp at h
  | _ => exact absurd hlt (Nat.not_lt.2 hnew)

end MemoryStore

end ResourceWatch

import Mathlib.Data.List.Sort
import ResourceWatch.Proofs.Store.Subscriptions
import ResourceWatch.Proofs.Watch.Rest

/-!
# Who is subscribed

A `Ledger` is a store with the tokens of its subscribers and a list of all that has happened to the subscriptions.  At
rest the registry has exactly the subscriptions of the list that stand and whose tokens are not cancelled, in the
order in which they were granted (`Ledger.Inv.subscribers_eq`), and from everywhere the tasks come to rest
(`Ledger.exists_turns_atRest`).
-/

namespace ResourceWatch

variable {V : Type}

/-! ### Ledgers -/

/-- A store with the tokens of its subscribers, and what has happened to the subscriptions. -/
structure Ledger (V : Type) where
  store : MemoryStore V
  tokens : Tokens := {}
  incidents : List Incident := []

/-- A guard task looks at the tokens that are cancelled when it goes on. -/
def StoreAct.under (tokens : Tokens) : StoreAct V → StoreAct V
  | .release _ id => .release tokens id
  | a => a

/-- An act of the store, or a token that is fired. -/
inductive Deed (V : Type) where
  | act (a : StoreAct V)
  | cancel (token : Token)

/-- The turns of the flush and guard tasks. -/
def Deed.IsTurn : Deed V → Prop
  | .act (.flush _) | .act (.release _ _) => True
  | _ => False

namespace Ledger

def opening (eventBuffer : Nat) : Ledger V := { store := .make eventBuffer }

section Deeds

variable [Inhabited V]

def deed (l : Ledger V) : Deed V → Ledger V
  | .act a =>
    { l with
      store := (l.store.act (a.under l.tokens)).1
      incidents := l.incidents ++ l.store.incidents (a.under l.tokens) }
  | .cancel token => { l with tokens := l.tokens.cancel token }

def deeds (l : Ledger V) (history : List (Deed V)) : Ledger V := history.foldl deed l

end Deeds

/-- No flush task and no guard task can go on. -/
def AtRest (l : Ledger V) : Prop := ∀ id, l.store.flush? id = none ∧ l.store.release? l.tokens id = none

/-- The streams show the subscriptions, one each in the order of their numbers. -/
structure Inv (l : Ledger V) : Prop where
  orderly : l.store.Orderly
  neat : l.store.registry.Neat
  length_eq : (subscriptions l.incidents).length = l.store.streams.length
  shows : ∀ id st, l.store.streams[id]? = some st →
    ∃ (x : Subscription) (later : List Incident), (subscriptions l.incidents)[id]? = some (x, later) ∧ x.number = id ∧
      x.Shows later l.tokens st

namespace Inv

variable {l : Ledger V}

theorem opening (eventBuffer : Nat) : (Ledger.opening eventBuffer : Ledger V).Inv :=
  ⟨.make eventBuffer, .empty, rfl, fun _ _ hst => by simp [Ledger.opening, MemoryStore.make] at hst⟩

variable [Inhabited V]

theorem deed (h : l.Inv) (d : Deed V) : (l.deed d).Inv := by
  cases d with
  | cancel token =>
    refine ⟨h.orderly, h.neat, h.length_eq, fun id st hst => ?_⟩
    obtain ⟨x, later, hx, hid, hshows⟩ := h.shows id st hst
    exact ⟨x, later, hx, hid, hshows.cancel token⟩
  | act a =>
    have hunder : ∀ cancelled i, a.under l.tokens = .release cancelled i → cancelled = l.tokens := by
      intro cancelled i ha
      cases a <;> simp_all [StoreAct.under]
    simp only [Ledger.deed]
    generalize a.under l.tokens = b at hunder
    have hdid := l.store.did_act b
    refine ⟨h.orderly.act b, hdid.neat h.neat h.orderly, ?_, fun id st hst => ?_⟩
    · rw [subscriptions_append, List.length_append, List.length_map, h.length_eq, hdid.length_streams]
    · rw [subscriptions_append]
      by_cases hid : id < l.store.streams.length
      · obtain ⟨x, later, hx, rfl, hshows⟩ := h.shows id _ (List.getElem?_eq_getElem hid)
        obtain ⟨st', hst', hshows'⟩ := hdid.shows hunder h.orderly (List.getElem?_eq_getElem hid) hshows
        obtain rfl := Option.some.inj (hst'.symm.trans hst)
        refine ⟨x, later ++ l.store.incidents b, ?_, rfl, hshows'⟩
        rw [List.getElem?_append_left (by simpa [h.length_eq] using hid), List.getElem?_map, hx]
        rfl
      · obtain ⟨x, hopened, hnumber, rfl, hshows⟩ := hdid.shows_opened hst (Nat.le_of_not_lt hid) l.tokens
        refine ⟨x, [], ?_, hnumber, hshows⟩
        rw [hopened, List.getElem?_append_right (by simp [h.length_eq]), List.length_map, h.length_eq]
        simp

theorem deeds (h : l.Inv) (history : List (Deed V)) : (l.deeds history).Inv := by
  induction history generalizing l with
  | nil => exact h
  | cons d history ih => exact ih (h.deed d)

omit [Inhabited V] in
theorem exists_stream (h : l.Inv) {x : Subscription} {later : List Incident}
    (hx : (x, later) ∈ subscriptions l.incidents) :
    ∃ st, l.store.streams[x.number]? = some st ∧ x.Shows later l.tokens st := by
  obtain ⟨i, hget⟩ := List.mem_iff_getElem?.1 hx
  have hi : i < l.store.streams.length := h.length_eq ▸ (List.getElem?_eq_some_iff.1 hget).1
  obtain ⟨x', later', hx', hnumber, hshows⟩ := h.shows i _ (List.getElem?_eq_getElem hi)
  obtain ⟨rfl, rfl⟩ := Prod.mk.inj (Option.some.inj (hget.symm.trans hx'))
  exact ⟨_, hnumber ▸ List.getElem?_eq_getElem hi, hshows⟩

omit [Inhabited V] in
theorem numbers_eq (h : l.Inv) :
    (subscriptions l.incidents).map (·.1.number) = List.range l.store.streams.length := by
  refine List.ext_getElem (by simp [h.length_eq]) fun i _ hi => ?_
  rw [List.length_range] at hi
  obtain ⟨x, later, hx, hnumber, -⟩ := h.shows i _ (List.getElem?_eq_getElem hi)
  rw [List.getElem?_eq_getElem (h.length_eq ▸ hi), Option.some.injEq] at hx
  rw [List.getElem_map, List.getElem_range, hx, hnumber]

end Inv

/-! ### Who is on the registry -/

variable {l : Ledger V} {key : String}

/-- A subscription that stands is on the registry, unless its token is cancelled. -/
theorem Inv.mem_subscribers (h : l.Inv) {x : Subscription} (hx : x ∈ standing l.tokens key l.incidents) :
    x.number ∈ l.store.subscribers key := by
  obtain ⟨hkey, hlive, later, hmem, hstands⟩ := mem_standing.1 hx
  obtain ⟨st, hst, hshows⟩ := h.exists_stream hmem
  have hguarding : st.guarding = true := by
    by_contra hreleased
    simp [hshows.released (by simpa using hreleased)] at hlive
  exact (h.orderly key x.number).2 ⟨st, hst, hshows.key_eq.trans hkey, hshows.attached_iff.2 ⟨hstands, hguarding⟩⟩

/-- At rest no guard task has more to do, so the others are off the registry. -/
theorem Inv.exists_standing (h : l.Inv) (hrest : l.AtRest) {id : Nat} (hid : id ∈ l.store.subscribers key) :
    ∃ x ∈ standing l.tokens key l.incidents, x.number = id := by
  obtain ⟨st, hst, hkey, hattached⟩ := (h.orderly key id).1 hid
  obtain ⟨x, later, hx, hnumber, hshows⟩ := h.shows id st hst
  obtain ⟨hstands, hguarding⟩ := hshows.attached_iff.1 hattached
  have hlive : l.tokens.isCancelled x.token = false := by
    rw [Bool.eq_false_iff, ← hshows.token_eq]
    intro hcancelled
    have hrelease := (hrest id).2
    simp [MemoryStore.release?, hst, hguarding, hcancelled] at hrelease
  exact ⟨x, mem_standing.2 ⟨hshows.key_eq.symm.trans hkey, hlive, later, List.mem_of_getElem? hx, hstands⟩, hnumber⟩

/-- At rest the subscribers of a key are the subscriptions that stand and whose tokens are not cancelled, in the order
in which they were granted. -/
theorem Inv.subscribers_eq (h : l.Inv) (hrest : l.AtRest) (key : String) :
    l.store.subscribers key = (standing l.tokens key l.incidents).map (·.number) := by
  have hascending : ((standing l.tokens key l.incidents).map (·.number)).Pairwise (· < ·) := by
    rw [standing, List.map_map]
    refine List.Pairwise.sublist (List.filter_sublist.map _) ?_
    exact h.numbers_eq ▸ List.pairwise_lt_range
  refine (h.neat.ascending key).eq_of_mem_iff hascending fun id => ?_
  rw [List.mem_map]
  constructor
  · exact h.exists_standing hrest
  · rintro ⟨x, hx, rfl⟩
    exact h.mem_subscribers hx

/-! ### Coming to rest -/

section Turns

variable [Inhabited V]

/-- The tasks neither fire tokens nor touch a subscription that stands. -/
theorem deeds_turns {turns : List (Deed V)} (h : ∀ d ∈ turns, d.IsTurn) (l : Ledger V) :
    (l.deeds turns).tokens = l.tokens ∧ (l.deeds turns).incidents = l.incidents := by
  induction turns generalizing l with
  | nil => exact ⟨rfl, rfl⟩
  | cons d turns ih =>
    rw [List.forall_mem_cons] at h
    obtain ⟨htokens, hincidents⟩ := ih h.2 (l.deed d)
    have hturn : (l.deed d).tokens = l.tokens ∧ (l.deed d).incidents = l.incidents := by
      obtain ⟨hd, -⟩ := h
      cases d with
      | cancel token => exact hd.elim
      | act a =>
        cases a with
        | flush id => exact ⟨rfl, List.append_nil _⟩
        | release cancelled id => exact ⟨rfl, List.append_nil _⟩
        | _ => exact hd.elim
    exact ⟨htokens.trans hturn.1, hincidents.trans hturn.2⟩

/-- Whatever turns the tasks take, they come to an end. -/
theorem exists_turns_atRest (l : Ledger V) :
    ∃ turns : List (Deed V), (∀ d ∈ turns, d.IsTurn) ∧ (l.deeds turns).AtRest := by
  by_cases hrest : l.AtRest
  · exact ⟨[], fun _ hd => absurd hd List.not_mem_nil, hrest⟩
  · obtain ⟨d, hd, hlt⟩ : ∃ d : Deed V, d.IsTurn ∧
        (Backend.memory (l.deed d).store).work < (Backend.memory l.store).work := by
      obtain ⟨id, hid⟩ := Classical.not_forall.1 hrest
      rcases not_and_or.1 hid with hflush | hrelease
      · obtain ⟨t, ht⟩ := Option.ne_none_iff_exists'.1 hflush
        refine ⟨.act (.flush id), trivial, ?_⟩
        have hstore : (l.deed (.act (.flush id))).store = t := by
          simp only [Ledger.deed, StoreAct.under, MemoryStore.act, ht, Option.getD_some]
        have hturn : (Backend.memory l.store).flush? id = some (.memory t) := by
          rw [Backend.flush?_memory, ht, Option.map_some]
        exact hstore ▸ Backend.work_flush?_lt hturn
      · obtain ⟨t, ht⟩ := Option.ne_none_iff_exists'.1 hrelease
        refine ⟨.act (.release l.tokens id), trivial, ?_⟩
        have hstore : (l.deed (.act (.release l.tokens id))).store = t := by
          simp only [Ledger.deed, StoreAct.under, MemoryStore.act, ht, Option.getD_some]
        have hturn : (Backend.memory l.store).release? l.tokens id = some (.memory t) := by
          rw [Backend.release?, ht, Option.map_some]
        exact hstore ▸ Backend.work_release?_lt hturn
    obtain ⟨turns, hturns, hdone⟩ := exists_turns_atRest (l.deed d)
    exact ⟨d :: turns, List.forall_mem_cons.2 ⟨hd, hturns⟩, hdone⟩
termination_by (Backend.memory l.store).work

end Turns

instance (l : Ledger V) : Decidable l.AtRest := by
  refine decidable_of_iff (∀ id < l.store.streams.length,
    (l.store.flush? id).isNone = true ∧ (l.store.release? l.tokens id).isNone = true) ?_
  simp only [Option.isNone_iff_eq_none]
  refine ⟨fun h id => ?_, fun h id _ => h id⟩
  by_cases hid : id < l.store.streams.length
  · exact h id hid
  · have hnone : l.store.streams[id]? = none := List.getElem?_eq_none (Nat.le_of_not_lt hid)
    exact ⟨by simp [MemoryStore.flush?, hnone], by simp [MemoryStore.release?, hnone]⟩

/-! ### Shutting down -/

/-- A store that is shut down has no subscribers, and gets none. -/
theorem shutDown_deeds [Inhabited V] (hclosed : l.store.closed = true) (hnone : ∀ key, l.store.subscribers key = [])
    (history : List (Deed V)) :
    (l.deeds history).store.closed = true ∧ ∀ key, (l.deeds history).store.subscribers key = [] := by
  induction history generalizing l with
  | nil => exact ⟨hclosed, hnone⟩
  | cons d history ih =>
    cases d with
    | cancel token => exact ih (l := l.deed (.cancel token)) hclosed hnone
    | act a =>
      refine ih (l := l.deed (.act a)) ?_ fun key => ?_
      · simp only [Ledger.deed]
        by_cases ha : a.under l.tokens = .shutdown
        · rw [ha]
          rfl
        · exact (l.store.closed_act ha).trans hclosed
      · simp only [Ledger.deed]
        by_cases ha : ∃ key token, a.under l.tokens = .watch key token
        · obtain ⟨k, token, ha⟩ := ha
          have hrefused : l.store.watch k token = .error (.refused .closed) := by
            rw [MemoryStore.watch, if_pos hclosed]
          rw [ha, MemoryStore.act, hrefused]
          exact hnone key
        · have hsheds := l.store.sheds_act (a := a.under l.tokens) fun k token hwatch => ha ⟨k, token, hwatch⟩
          exact List.subset_nil.1 (hnone key ▸ hsheds.subset key)

theorem shutDown_of_mem [Inhabited V] {history : List (Deed V)} (h : .act .shutdown ∈ history) (l : Ledger V) :
    (l.deeds history).store.closed = true ∧ ∀ key, (l.deeds history).store.subscribers key = [] := by
  induction history generalizing l with
  | nil => exact absurd h List.not_mem_nil
  | cons d history ih =>
    rcases List.mem_cons.1 h with rfl | h
    · exact shutDown_deeds (l := l.deed (.act .shutdown)) rfl (fun _ => rfl) history
    · exact ih h (l.deed d)

end Ledger

/-- In every history the numbers of the subscribers are distinct and no key is kept without subscribers.  At rest the
subscribers of a key are the subscriptions granted on it that stand and whose tokens are not cancelled.  When a token
is cancelled the tasks come to rest, and they have then taken off the subscriptions opened with it or below it, and at
no time another one.  Behind a shutdown there are no subscribers, and whatever else is called, nothing is read or
subscribed. -/
theorem registry_has_standing_subscriptions [Inhabited V] (eventBuffer : Nat) (history : List (Deed V)) :
    let l := (Ledger.opening eventBuffer).deeds history
    (l.store.registry.flatMap (·.2)).Nodup ∧
    (∀ e ∈ l.store.registry, e.2 ≠ []) ∧
    (l.AtRest → ∀ key,
      l.store.subscribers key = (standing l.tokens key l.incidents).map (·.number) ∧
      l.store.subscriberCount key = (standing l.tokens key l.incidents).length) ∧
    (l.AtRest → ∀ token,
      (∃ turns, (∀ d ∈ turns, d.IsTurn) ∧ (l.deeds (.cancel token :: turns)).AtRest) ∧
      ∀ turns, (∀ d ∈ turns, d.IsTurn) →
        let l' := l.deeds (.cancel token :: turns)
        ∀ key,
          (∀ x ∈ standing l.tokens key l.incidents, token.isSuffixOf x.token = false →
            x.number ∈ l'.store.subscribers key) ∧
          (l'.AtRest → l'.store.subscribers key =
            ((standing l.tokens key l.incidents).filter fun x => !token.isSuffixOf x.token).map (·.number))) ∧
    (.act .shutdown ∈ history →
      (∀ key, l.store.subscribers key = []) ∧
      ∀ key, l.store.get key = .error .closed ∧ ∀ token, l.store.watch key token = .error (.refused .closed)) := by
  intro l
  have hinv : l.Inv := (Ledger.Inv.opening eventBuffer).deeds history
  refine ⟨?_, hinv.neat.ne_nil, fun hrest key => ?_, fun hrest token => ⟨?_, ?_⟩, fun h => ?_⟩
  · refine hinv.neat.nodup_flatMap fun key key' id hid hid' => ?_
    obtain ⟨st, hst, rfl, -⟩ := (hinv.orderly key id).1 hid
    obtain ⟨st', hst', rfl, -⟩ := (hinv.orderly key' id).1 hid'
    rw [Option.some.inj (hst.symm.trans hst')]
  · have hsubscribers := hinv.subscribers_eq hrest key
    exact ⟨hsubscribers, by rw [MemoryStore.subscriberCount, hsubscribers, List.length_map]⟩
  · exact (l.deed (.cancel token)).exists_turns_atRest
  · intro turns hturns l' key
    have hinv' : l'.Inv := hinv.deeds (.cancel token :: turns)
    obtain ⟨htokens, hincidents⟩ : l'.tokens = l.tokens.cancel token ∧ l'.incidents = l.incidents :=
      Ledger.deeds_turns hturns (l.deed (.cancel token))
    have hstanding : standing l'.tokens key l'.incidents =
        (standing l.tokens key l.incidents).filter fun x => !token.isSuffixOf x.token := by
      rw [htokens, hincidents, standing_cancel]
    refine ⟨fun x hx hother => hinv'.mem_subscribers ?_, fun hrest' => ?_⟩
    · rw [hstanding, List.mem_filter, hother]
      exact ⟨hx, rfl⟩
    · rw [hinv'.subscribers_eq hrest' key, hstanding]
  · obtain ⟨hclosed, hnone⟩ := Ledger.shutDown_of_mem h (Ledger.opening eventBuffer)
    refine ⟨hnone, fun key => ⟨?_, fun token => ?_⟩⟩
    · exact if_pos hclosed
    · exact if_pos hclosed

/-- A key that is closed and subscribed again, a token above another, and a receiver that is gone. -/
theorem subscriptions_stand_behind_resubscription :
    let history : List (Deed Nat) := [.act (.watch "a" [0]), .act (.watch "b" [0]), .act (.close "a"),
      .act (.watch "a" [7, 0]), .act (.watch "a" [1]), .act (.watch "a" [2]), .act (.dropReceiver 4),
      .act (.put "a" 1)]
    let l := (Ledger.opening 1).deeds history
    l.AtRest ∧ l.store.subscribers "a" = [2, 3] ∧ l.store.subscriberCount "b" = 1 ∧
      (∃ turns, (l.deeds (.cancel [0] :: turns)).AtRest ∧
        (l.deeds (.cancel [0] :: turns)).store.subscribers "a" = [3] ∧
        (l.deeds (.cancel [0] :: turns)).store.subscribers "b" = []) ∧
      ((Ledger.opening 1).deeds (.act .shutdown :: history)).store.get "a" = .error .closed := by
  intro history l
  have hrest : l.AtRest := by decide +kernel
  obtain ⟨-, -, hcount, hcancel, -⟩ := registry_has_standing_subscriptions 1 history
  obtain ⟨-, -, -, -, hshut⟩ := registry_has_standing_subscriptions (V := Nat) 1 (.act .shutdown :: history)
  obtain ⟨⟨turns, hturns, hdone⟩, hleft⟩ := hcancel hrest [0]
  have ha : standing l.tokens "a" l.incidents = [⟨2, "a", [7, 0]⟩, ⟨3, "a", [1]⟩] := by decide +kernel
  have hb : standing l.tokens "b" l.incidents = [⟨1, "b", [0]⟩] := by decide +kernel
  refine ⟨hrest, ?_, ?_, ⟨turns, hdone, ?_, ?_⟩, ((hshut List.mem_cons_self).2 "a").1⟩
  · exact ((hcount hrest "a").1).trans (by rw [ha]; rfl)
  · exact ((hcount hrest "b").2).trans (by rw [hb]; rfl)
  · exact ((hleft turns hturns "a").2 hdone).trans (by rw [ha]; rfl)
  · exact ((hleft turns hturns "b").2 hdone).trans (by rw [hb]; rfl)

end ResourceWatch

import ResourceWatch.Proofs.Store.Following
import ResourceWatch.Watch.Calls

/-!
# A session at work

The moves that concern one session: changes of the store, flushes, its own steps and its consumer's receives.  What
was seen of the store, the snapshot and what the consumer received are kept beside the world (`HandOver`).

`HandOver.Inv` is the invariant of such runs: in every phase the change cache remembers the reply of what the session
was told last, and while it waits that reply is the last one that it sent.  Changes of the store, flushes and receives
keep it.
-/

namespace ResourceWatch

variable {Q V R : Type} [Inhabited V]

/-! ### Moves -/

/-- What happens while a session is at work. -/
inductive Move (V : Type) where
  | put (key : String) (value : V)
  | delete (key : String)
  | flush (stream : Nat)
  | advance
  | receive

/-- What a session's next step does to the store. -/
def Session.storeAct? (x : Session R) : Option (StoreAct V) :=
  match x.phase with
  | .subscribing => some (.watch x.key x.token)
  | .awaiting id => some (.receive id)
  | _ => none

/-- A session at work. -/
structure HandOver (V R : Type) where
  world : World V R (ChangeCache R)
  /-- What was seen of the store. -/
  log : Log V
  /-- The value that the session read as its snapshot. -/
  snapshot : Option V := none
  /-- What the consumer received. -/
  received : List (Item R) := []

namespace HandOver

/-- An act on the memory store. -/
def act (h : HandOver V R) (a : StoreAct V) : HandOver V R :=
  match h.world.store with
  | .memory s => { h with world := { h.world with store := .memory (s.act a).1 }, log := (s.act a).2 ++ h.log }
  | .scripted _ => h

/-- What is seen of the store as the session takes its next step. -/
def seen (h : HandOver V R) (x : Session R) : Log V :=
  match h.world.store, x.storeAct? with
  | .memory s, some a => (s.act a).2
  | _, _ => []

/-- The snapshot after the session's next step. -/
def snapshotAfter (h : HandOver V R) (x : Session R) : Option V :=
  match x.phase with
  | .reading => (h.world.store.answer? x.key).bind Except.toOption
  | _ => h.snapshot

/-- The session with this number takes a step, unless it has to wait. -/
def advance (make : Maker V R (ChangeCache R)) (i : Nat) (h : HandOver V R) : HandOver V R :=
  match h.world.sessions[i]?, h.world.turn? make (.advance i) with
  | some x, some w => { h with world := w, log := h.seen x ++ h.log, snapshot := h.snapshotAfter x }
  | _, _ => h

def receive (i : Nat) (h : HandOver V R) : HandOver V R :=
  match h.world.receiveReply i with
  | (.item r, w) => { h with world := w, received := h.received ++ [r] }
  | (_, w) => { h with world := w }

def move (make : Maker V R (ChangeCache R)) (i : Nat) (h : HandOver V R) : Move V → HandOver V R
  | .put key value => h.act (.put key value)
  | .delete key => h.act (.delete key)
  | .flush id => { h with world := (h.world.turn? make (.flush id)).getD h.world }
  | .advance => h.advance make i
  | .receive => h.receive i

def moves (make : Maker V R (ChangeCache R)) (i : Nat) (h : HandOver V R) (ms : List (Move V)) : HandOver V R :=
  ms.foldl (move make i) h

/-- The items that the session has sent, behind those that its queue held at first. -/
def sent (h : HandOver V R) (x : Session R) (prefill : List (Item R)) : List (Item R) :=
  (h.received ++ x.replies.items).drop prefill.length

/-- The value that the store holds for the key. -/
def stored (h : HandOver V R) (key : String) : V :=
  match h.world.store with
  | .memory s => s.held key
  | .scripted _ => default

/-! ### The invariant -/

/-- The cache of the session remembers the reply for its key. -/
def Remembers (h : HandOver V R) (x : Session R) (r : R) : Prop :=
  ∃ cache, h.world.makers[x.maker]? = some cache ∧ cache.get? x.key = some r

/-- The value that the session was told last: that of the last event taken, or its snapshot. -/
def lastTold (h : HandOver V R) (id : Nat) (snapshot : V) : V :=
  ((Log.taken id h.log).getLast?.bind (·.kind.value?)).getD snapshot

/-- What holds in each phase of a session that has sent these replies. -/
def Stands (reply : String → V → R) (h : HandOver V R) (s : MemoryStore V) (x : Session R) (sent : List (Item R)) :
    Prop :=
  match x.phase with
  | .sendingSnapshot r => ∃ v, h.snapshot = some v ∧ r = reply x.key v ∧ h.Remembers x r
  | .subscribing =>
    ∃ v, h.snapshot = some v ∧ h.Remembers x (reply x.key v) ∧ sent.getLast? = some (.ok (reply x.key v))
  | .awaiting id =>
    ∃ v, h.snapshot = some v ∧ Chronicle.Follows x.key id ⟨s, h.log⟩ ∧
      h.Remembers x (reply x.key (h.lastTold id v)) ∧ sent.getLast? = some (.ok (reply x.key (h.lastTold id v)))
  | .sending id r =>
    ∃ v, h.snapshot = some v ∧ Chronicle.Follows x.key id ⟨s, h.log⟩ ∧
      r = reply x.key (h.lastTold id v) ∧ h.Remembers x r
  | _ => True

/-- The session `x` with the number `i` is at work on the store `s`; its queue held the items `prefill` at first. -/
structure Inv (reply : String → V → R) (capacity : Nat) (prefill : List (Item R)) (i : Nat) (h : HandOver V R)
    (s : MemoryStore V) (x : Session R) : Prop where
  store_eq : h.world.store = .memory s
  session_eq : h.world.sessions[i]? = some x
  sound : Chronicle.Sound capacity ⟨s, h.log⟩
  receiving : x.replies.receiving = true
  sent : ∃ sent, h.received ++ x.replies.items = prefill ++ sent ∧ h.Stands reply s x sent

/-- The session has ended, apart from a report of its failure. -/
def IsOver (h : HandOver V R) (i : Nat) : Prop :=
  ∃ x : Session R, h.world.sessions[i]? = some x ∧ (x.phase.outcome?.isSome = true ∨ x.phase = .crashed)

variable {reply : String → V → R} {capacity : Nat} {prefill : List (Item R)} {i : Nat} {h : HandOver V R}
  {s : MemoryStore V} {x : Session R}

/-! ### The store and the consumer -/

private theorem stands_of_store {h' : HandOver V R} {s' : MemoryStore V} {sent : List (Item R)}
    (hstands : h.Stands reply s x sent) (hsnapshot : h'.snapshot = h.snapshot)
    (hmakers : h'.world.makers = h.world.makers) (htaken : ∀ id, Log.taken id h'.log = Log.taken id h.log)
    (hfollows : ∀ id, Chronicle.Follows x.key id ⟨s, h.log⟩ → Chronicle.Follows x.key id ⟨s', h'.log⟩) :
    h'.Stands reply s' x sent := by
  have hlast : ∀ id v, h'.lastTold id v = h.lastTold id v := fun id v => by rw [lastTold, htaken, lastTold]
  unfold Stands Remembers at *
  rw [hmakers, hsnapshot]
  cases hp : x.phase with
  | awaiting id =>
    simp only [hp, hlast] at hstands ⊢
    obtain ⟨v, hv, hf, hrest⟩ := hstands
    exact ⟨v, hv, hfollows id hf, hrest⟩
  | sending id r =>
    simp only [hp, hlast] at hstands ⊢
    obtain ⟨v, hv, hf, hrest⟩ := hstands
    exact ⟨v, hv, hfollows id hf, hrest⟩
  | sendingSnapshot r => simpa only [hp] using hstands
  | subscribing => simpa only [hp] using hstands
  | _ => trivial

/-- Changes of the store keep the invariant. -/
theorem Inv.act (hinv : Inv reply capacity prefill i h s x) {a : StoreAct V} (ha : a.IsOrdinary)
    (htaken : ∀ id, Log.taken id ((s.act a).2 ++ h.log) = Log.taken id h.log) :
    Inv reply capacity prefill i (h.act a) (s.act a).1 x := by
  have heq : h.act a =
      { h with world := { h.world with store := .memory (s.act a).1 }, log := (s.act a).2 ++ h.log } := by
    rw [HandOver.act, hinv.store_eq]
  obtain ⟨sent, hsent, hstands⟩ := hinv.sent
  rw [heq]
  exact ⟨rfl, hinv.session_eq, hinv.sound.act a, hinv.receiving, sent, hsent,
    stands_of_store hstands rfl rfl htaken fun id hf => hf.act ha⟩

theorem Inv.flush (hinv : Inv reply capacity prefill i h s x) (make : Maker V R (ChangeCache R)) (id : Nat) :
    Inv reply capacity prefill i { h with world := (h.world.turn? make (.flush id)).getD h.world }
      ((s.flush? id).getD s) x := by
  have heq : (h.world.turn? make (.flush id)).getD h.world =
      { h.world with store := .memory ((s.flush? id).getD s) } := by
    rw [World.turn?, hinv.store_eq, Backend.flush?_memory]
    cases s.flush? id with
    | none =>
      rw [Option.getD_none, ← hinv.store_eq]
      rfl
    | some t => rfl
  obtain ⟨sent, hsent, hstands⟩ := hinv.sent
  rw [heq]
  exact ⟨rfl, hinv.session_eq, hinv.sound.flush id, hinv.receiving, sent, hsent,
    stands_of_store hstands rfl rfl (fun _ => rfl) fun _ hf => hf.act (a := .flush id) trivial⟩

omit [Inhabited V] in
theorem receive_cases (hx : h.world.sessions[i]? = some x) :
    (x.replies.items = [] ∧ h.receive i = h) ∨
      ∃ r rest, x.replies.items = r :: rest ∧ h.receive i =
        { h with
          world := h.world.setSession i { x with replies := { x.replies with items := rest } }
          received := h.received ++ [r] } := by
  unfold HandOver.receive
  rcases World.receiveReply_cases hx with ⟨r, rest, hitems, heq⟩ | ⟨hitems, heq⟩
  · exact Or.inr ⟨r, rest, hitems, by rw [heq]⟩
  · refine Or.inl ⟨hitems, ?_⟩
    rw [heq]
    cases x.isOpen <;> rfl

/-- A receive moves an item from the queue of replies to the consumer. -/
theorem Inv.receive (hinv : Inv reply capacity prefill i h s x) :
    ∃ x', Inv reply capacity prefill i (h.receive i) s x' := by
  obtain ⟨sent, hsent, hstands⟩ := hinv.sent
  rcases receive_cases hinv.session_eq with ⟨-, heq⟩ | ⟨r, rest, hq, heq⟩
  · rw [heq]
    exact ⟨x, hinv⟩
  · have hi : i < h.world.sessions.length := (List.getElem?_eq_some_iff.1 hinv.session_eq).1
    rw [heq]
    refine ⟨{ x with replies := { x.replies with items := rest } }, hinv.store_eq, ?_, hinv.sound, hinv.receiving,
      sent, ?_, hstands⟩
    · simp [World.setSession, hi]
    · simpa [hq] using hsent

end HandOver

end ResourceWatch

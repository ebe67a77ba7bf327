import ResourceWatch.Proofs.Watch.Strangers

/-!
# One watch among others

A caller has one watch served on the token `[0]`, and reads its replies directly or through a watcher under the token
`[1]`, in a hall of others around the same memory store.  `Scene.Reaches` records the changes of the store and the
acts of this caller, which come when all tasks are at rest, with what the caller is answered.  What all others do
before, behind and between them, and the turns of the tasks, it does not record.
-/

namespace ResourceWatch

variable {Q V R σ : Type}

/-- The changes of the store, and the acts of the one on the seat. -/
inductive SeatAct (Q V R σ : Type) where
  | mutate (m : Mutation V)
  /-- The watch is served, with an endpoint state of its own. -/
  | serve (endpoint : Endpoint Q V R σ) (state : σ) (replyBuffer : Nat) (request : Q) (call : CallRequest)
  | receive
  | attach (capacity : Nat)
  | next
  | cancelCall
  | cancelClient
  | cancelWatcher
  | dropReplies
  | dropWatcher

/-- What the one on the seat is answered; nothing where the act has no answer or there is nothing to act on. -/
inductive SeatAnswer (R : Type) where
  | nothing
  | served (result : Except TooLarge (Except Status Unit))
  | received (got : Received (Item R))
  | attached (granted : Bool)
  | told (told : Told R)

structure Scene (V R σ : Type) where
  hall : Hall V R σ
  seat : Seat

namespace Scene

/-- Nobody is there yet but the readers of the event streams that such acts on the store have opened. -/
def opening [Inhabited V] (eventBuffer : Nat) (history : List (StoreAct V)) : Scene V R σ where
  hall :=
    let s := ((Chronicle.opening eventBuffer).acts history).store
    { world := { store := .memory s, tokens := { next := 2 } }, direct := List.range s.streams.length }
  seat := .before

def withWorld (u : Scene V R σ) (world : World V R σ) : Scene V R σ := { u with hall := { u.hall with world } }

def withSeat (u : Scene V R σ) (seat : Seat) : Scene V R σ := { u with seat }

variable [Inhabited V]

def act (u : Scene V R σ) : SeatAct Q V R σ → Scene V R σ × SeatAnswer R
  | .mutate m => (u.withWorld (u.hall.world.mutate m), .nothing)
  | .serve endpoint state replyBuffer request call =>
    match u.seat with
    | .before =>
      let (maker, world) := u.hall.world.newMaker state
      match world.serve endpoint maker replyBuffer request (.ofRequest call [0]) with
      | .error e => (u.withWorld world, .served (.error e))
      | .ok (.error status) => (u.withWorld world, .served (.ok (.error status)))
      | .ok (.ok (i, world)) => ((u.withWorld world).withSeat (.on i maker none), .served (.ok (.ok ())))
    | _ => (u, .nothing)
  | .receive =>
    match u.seat with
    | .on i _ none =>
      let (got, world) := u.hall.world.receiveReply i
      (u.withWorld world, .received got)
    | _ => (u, .nothing)
  | .attach capacity =>
    match u.seat with
    | .on i m none =>
      let (token, world) := u.hall.world.newToken [1]
      match world.attach i capacity token with
      | .error _ => (u.withWorld world, .attached false)
      | .ok (k, world) => ((u.withWorld world).withSeat (.on i m (some k)), .attached true)
    | _ => (u, .nothing)
  | .next =>
    match u.seat with
    | .on _ _ (some k) =>
      let (told, world) := u.hall.world.nextReply k
      (u.withWorld world, .told told)
    | _ => (u, .nothing)
  | .cancelCall => (u.withWorld (u.hall.world.cancel [0]), .nothing)
  | .cancelClient => (u.withWorld (u.hall.world.cancel [1]), .nothing)
  | .cancelWatcher =>
    match u.seat.watcher?.bind (u.hall.world.watchers[·]?) with
    | some b => (u.withWorld (u.hall.world.cancel b.watcher.token), .nothing)
    | none => (u, .nothing)
  | .dropReplies =>
    match u.seat with
    | .on i _ none => ((u.withWorld (u.hall.world.dropReplies i)).withSeat .gone, .nothing)
    | _ => (u, .nothing)
  | .dropWatcher =>
    match u.seat with
    | .on _ _ (some k) => ((u.withWorld (u.hall.world.dropWatcher k)).withSeat .gone, .nothing)
    | _ => (u, .nothing)

/-- Nobody calls on a token that is cancelled already: then it would be left to chance whether the task that is
started on it heeds the token first. -/
def Allows (u : Scene V R σ) : SeatAct Q V R σ → Prop
  | .serve .. => u.hall.world.tokens.isCancelled [0] = false
  | .attach _ => u.hall.world.tokens.isCancelled [1] = false
  | _ => True

instance (u : Scene V R σ) : DecidablePred (u.Allows (Q := Q))
  | .serve .. => inferInstanceAs (Decidable (_ = _))
  | .attach _ => inferInstanceAs (Decidable (_ = _))
  | .mutate _ | .receive | .next | .cancelCall | .cancelClient | .cancelWatcher | .dropReplies | .dropWatcher =>
    .isTrue trivial

/-- The acts so far and what they were answered.  The tasks take turns and all others act at any time. -/
inductive Reaches (make : Maker V R σ) (start : Scene V R σ) :
    List (SeatAct Q V R σ) → List (SeatAnswer R) → Scene V R σ → Prop where
  | start : Reaches make start [] [] start
  | turn {as : List (SeatAct Q V R σ)} {bs : List (SeatAnswer R)} {u : Scene V R σ} {w : World V R σ}
    (reached : Reaches make start as bs u) (t : Turn) (turned : u.hall.world.turn? make t = some w) :
    Reaches make start as bs (u.withWorld w)
  | other {as : List (SeatAct Q V R σ)} {bs : List (SeatAnswer R)} {u : Scene V R σ}
    (reached : Reaches make start as bs u) (a : HallAct Q V R σ) (foreign : a.Foreign u.seat) :
    Reaches make start as bs { u with hall := u.hall.act a }
  | own {as : List (SeatAct Q V R σ)} {bs : List (SeatAnswer R)} {u : Scene V R σ}
    (reached : Reaches make start as bs u) (a : SeatAct Q V R σ) (rest : u.hall.world.AtRest make)
    (allowed : u.Allows a) : Reaches make start (as ++ [a]) (bs ++ [(u.act a).2]) (u.act a).1

theorem Reaches.runs {make : Maker V R σ} {start u : Scene V R σ} {as : List (SeatAct Q V R σ)}
    {bs : List (SeatAnswer R)} {w : World V R σ} (hreached : Reaches make start as bs u)
    (hruns : World.Runs make u.hall.world w) : Reaches make start as bs (u.withWorld w) := by
  have hall : ∀ {v w : World V R σ}, World.Runs make v w → Reaches make start as bs (u.withWorld v) →
      Reaches make start as bs (u.withWorld w) := by
    intro v w hvw
    induction hvw with
    | refl => exact fun hv => hv
    | turn t hturn _ ih => exact fun hv => ih (hv.turn t hturn)
  exact hall hruns hreached

/-- The scene after these acts of the one on the seat and of others, and what the former were answered, all tasks
settled before each of the former; none if an act is not one that may come. -/
def play? (make : Maker V R σ) (u : Scene V R σ) :
    List (SeatAct Q V R σ ⊕ HallAct Q V R σ) → Option (List (SeatAnswer R) × Scene V R σ)
  | [] => some ([], u)
  | .inl a :: moves => do
    let w ← World.settled? make u.hall.world
    if (u.withWorld w).Allows a then
      let (bs, v) ← play? make ((u.withWorld w).act a).1 moves
      return (((u.withWorld w).act a).2 :: bs, v)
    else none
  | .inr a :: moves => if a.Foreign u.seat then play? make { u with hall := u.hall.act a } moves else none

theorem Reaches.of_play? {make : Maker V R σ} {start u v : Scene V R σ}
    {moves : List (SeatAct Q V R σ ⊕ HallAct Q V R σ)} {as : List (SeatAct Q V R σ)} {bs cs : List (SeatAnswer R)}
    (hplayed : play? make u moves = some (cs, v)) (hreached : Reaches make start as bs u) :
    Reaches make start (as ++ moves.filterMap Sum.getLeft?) (bs ++ cs) v := by
  induction moves generalizing u as bs cs with
  | nil =>
    obtain ⟨rfl, rfl⟩ := Prod.mk.inj (Option.some.inj hplayed)
    simpa using hreached
  | cons move moves ih =>
    cases move with
    | inl a =>
      obtain ⟨w, hw, hplayed⟩ := Option.bind_eq_some_iff.1 hplayed
      obtain ⟨hruns, hrest⟩ := World.of_settled? hw
      split at hplayed
      · rename_i hallowed
        obtain ⟨⟨cs', v'⟩, hplayed', hpair⟩ := Option.bind_eq_some_iff.1 hplayed
        obtain ⟨rfl, rfl⟩ := Prod.mk.inj (Option.some.inj hpair)
        have hsettled : Reaches make start as bs (u.withWorld w) := hreached.runs hruns
        simpa using ih hplayed' (hsettled.own a hrest hallowed)
      · simp at hplayed
    | inr a =>
      rw [play?] at hplayed
      split at hplayed
      · rename_i hforeign
        exact ih hplayed (hreached.other a hforeign)
      · simp at hplayed

end Scene

end ResourceWatch

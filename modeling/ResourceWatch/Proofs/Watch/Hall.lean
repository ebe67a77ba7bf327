import ResourceWatch.Proofs.Store.History
import ResourceWatch.Proofs.Watch.Rest
import ResourceWatch.Proofs.Watch.Serving

/-!
# A hall of callers

Any number of callers and clients around one store.  They make tokens for their calls and cancel them, have watches
served, read replies directly or through watchers under their tokens, get values, subscribe to the store directly, and
let go of what they hold; and the store is changed.  Nobody reaches for what is not there: an act with the number of
something that does not exist yet does nothing.

`Hall.Acted` lists what an act can do, with what it finds, as `World.Turned` does for the turns of tasks.
-/

namespace ResourceWatch

variable {Q V R σ : Type}

/-- What happens to a store from outside. -/
inductive Mutation (V : Type) where
  | put (key : String) (value : V)
  | delete (key : String)
  | fail (key text : String)
  | close (key : String)
  | shutdown

def Mutation.act : Mutation V → StoreAct V
  | put key value => .put key value
  | delete key => .delete key
  | fail key text => .fail key text
  | close key => .close key
  | shutdown => .shutdown

inductive HallAct (Q V R σ : Type) where
  | mutate (m : Mutation V)
  /-- A token for calls or for watchers, below an earlier one if that is named. -/
  | context (parent : Option Nat)
  | cancel (context : Nat)
  /-- The state of a new endpoint. -/
  | maker (state : σ)
  | get (endpoint : Endpoint Q V R σ) (maker : Nat) (request : Q) (call : CallRequest) (context : Nat)
  | serve (endpoint : Endpoint Q V R σ) (maker replyBuffer : Nat) (request : Q) (call : CallRequest) (context : Nat)
  | receive (session : Nat)
  | dropReplies (session : Nat)
  /-- A watcher on the replies of a session, on a token of its own below the named one. -/
  | attach (session capacity context : Nat)
  | next (watcher : Nat)
  | cancelWatcher (watcher : Nat)
  | dropWatcher (watcher : Nat)
  | subscribe (key : String) (context : Nat)
  | receiveEvent (direct : Nat)
  | dropEvents (direct : Nat)

structure Hall (V R σ : Type) where
  world : World V R σ
  /-- The tokens made for calls and watchers. -/
  contexts : List Token := []
  /-- Those of them that were cancelled. -/
  cancelled : List Token := []
  /-- The event streams that were opened directly. -/
  direct : List Nat := []

namespace World

/-- The store is changed. -/
def mutate [Inhabited V] (w : World V R σ) (m : Mutation V) : World V R σ :=
  match w.store with
  | .memory s => { w with store := .memory (s.act m.act).1 }
  | .scripted _ => w

/-- The world after a call of `get?` or `serve`, as it was where that fails. -/
def afterGet (w : World V R σ) (endpoint : Endpoint Q V R σ) (maker : Nat) (request : Q) (ctx : CallContext) :
    World V R σ :=
  (w.get? endpoint maker request ctx).elim w (·.2)

def afterServe (w : World V R σ) (endpoint : Endpoint Q V R σ) (maker replyBuffer : Nat) (request : Q)
    (ctx : CallContext) : World V R σ :=
  match w.serve endpoint maker replyBuffer request ctx with
  | .ok (.ok (_, w)) => w
  | _ => w

/-- The world after a watcher was attached on a token below the given one. -/
def afterAttach (w : World V R σ) (i capacity : Nat) (parent : Token) : World V R σ :=
  let (token, w) := w.newToken parent
  match w.attach i capacity token with
  | .ok (_, w) => w
  | .error _ => w

/-- A call that gets a value reads the store, and may leave the endpoint in another state. -/
theorem afterGet_cases (w : World V R σ) (endpoint : Endpoint Q V R σ) (maker : Nat) (request : Q)
    (ctx : CallContext) : w.afterGet endpoint maker request ctx = w ∨ ∃ key makers,
      (makers = w.makers ∨ ∃ state, makers = w.makers.set maker state) ∧
        w.afterGet endpoint maker request ctx = { w with store := w.store.call key, makers } := by
  unfold afterGet get?
  cases endpoint.keyOf request ctx with
  | error status => exact Or.inl rfl
  | ok key =>
    dsimp only
    cases (w.store.call key).answer? key with
    | none => exact Or.inl rfl
    | some answer =>
      cases answer with
      | error f => exact Or.inr ⟨key, _, Or.inl rfl, rfl⟩
      | ok value =>
        cases w.makers[maker]? with
        | none => exact Or.inl rfl
        | some state => exact Or.inr ⟨key, _, Or.inr ⟨_, rfl⟩, rfl⟩

/-- A call that is served adds a session on a token of its own, one that is not adds nothing. -/
theorem afterServe_cases (w : World V R σ) (endpoint : Endpoint Q V R σ) (maker replyBuffer : Nat) (request : Q)
    (ctx : CallContext) :
    w.afterServe endpoint maker replyBuffer request ctx = w ∨ ∃ key,
      w.afterServe endpoint maker replyBuffer request ctx = { (w.newToken ctx.token).2 with
        sessions := w.sessions ++ [Session.serving key (w.newToken ctx.token).1 maker (max replyBuffer 1)] } := by
  unfold afterServe
  by_cases hbuffer : replyBuffer ≤ Queue.maxCapacity
  · cases hkey : endpoint.keyOf request ctx with
    | ok key => exact Or.inr ⟨key, by rw [serve_ok hkey hbuffer]⟩
    | error status => exact Or.inl (by rw [serve_error hkey hbuffer])
  · have hnone : (Queue.make? (max replyBuffer 1) : Option (Queue (Item R))) = none := by
      rw [Queue.make?, if_neg fun h => hbuffer (Nat.le_trans (Nat.le_max_left _ _) h.2)]
    exact Or.inl (by simp only [serve, hnone])

/-- An attached watcher is added on a token of its own. -/
theorem afterAttach_cases (w : World V R σ) (i capacity : Nat) (parent : Token) :
    w.afterAttach i capacity parent = (w.newToken parent).2 ∨
      w.afterAttach i capacity parent = { (w.newToken parent).2 with
        watchers := w.watchers ++
          [⟨i, { token := (w.newToken parent).1, queue := { capacity := max capacity 1 } }⟩] } := by
  unfold afterAttach attach Watcher.make?
  cases hq : (Queue.make? (max capacity 1) : Option (Queue R)) with
  | none => exact Or.inl rfl
  | some queue =>
    obtain ⟨-, rfl⟩ := Queue.eq_of_make? hq
    exact Or.inr rfl

end World

namespace Hall

/-- Nobody is there yet. -/
def empty (eventBuffer : Nat) : Hall V R σ := { world := { store := .memory (.make eventBuffer) } }

variable [Inhabited V]

def act (h : Hall V R σ) : HallAct Q V R σ → Hall V R σ
  | .mutate m => { h with world := h.world.mutate m }
  | .context parent =>
    let (token, world) := h.world.newToken ((parent.bind (h.contexts[·]?)).getD [])
    { h with world, contexts := h.contexts ++ [token] }
  | .cancel n =>
    match h.contexts[n]? with
    | none => h
    | some t => { h with world := h.world.cancel t, cancelled := t :: h.cancelled }
  | .maker state => { h with world := (h.world.newMaker state).2 }
  | .get endpoint maker request call n =>
    match h.contexts[n]?, h.world.makers[maker]? with
    | some t, some _ => { h with world := h.world.afterGet endpoint maker request (.ofRequest call t) }
    | _, _ => h
  | .serve endpoint maker replyBuffer request call n =>
    match h.contexts[n]?, h.world.makers[maker]? with
    | some t, some _ => { h with world := h.world.afterServe endpoint maker replyBuffer request (.ofRequest call t) }
    | _, _ => h
  | .receive i => { h with world := (h.world.receiveReply i).2 }
  | .dropReplies i => { h with world := h.world.dropReplies i }
  | .attach i capacity n =>
    match h.contexts[n]?, h.world.sessions[i]? with
    | some t, some _ => { h with world := h.world.afterAttach i capacity t }
    | _, _ => h
  | .next k => { h with world := (h.world.nextReply k).2 }
  | .cancelWatcher k =>
    match h.world.watchers[k]? with
    | none => h
    | some a => { h with world := h.world.cancel a.watcher.token }
  | .dropWatcher k => { h with world := h.world.dropWatcher k }
  | .subscribe key n =>
    match h.contexts[n]? with
    | none => h
    | some t =>
      match h.world.subscribeStore key t with
      | (.ok id, world) => { h with world, direct := h.direct ++ [id] }
      | (.error _, _) => h
  | .receiveEvent n =>
    match h.direct[n]? with
    | none => h
    | some id => { h with world := (h.world.receiveEvent id).2 }
  | .dropEvents n =>
    match h.direct[n]? with
    | none => h
    | some id => { h with world := h.world.dropEvents id }

/-! ### What an act does -/

/-- All that an act can do, and what it finds where it does it.  Where it finds nothing, or is refused, it does
nothing. -/
inductive Acted (h : Hall V R σ) : HallAct Q V R σ → Hall V R σ → Prop where
  | nothing (a : HallAct Q V R σ) : Acted h a h
  | mutate (m : Mutation V) : Acted h (.mutate m) { h with world := h.world.mutate m }
  | context {parent : Option Nat} {above : Token} (known : above = [] ∨ above ∈ h.contexts) :
    Acted h (.context parent)
      { h with world := (h.world.newToken above).2, contexts := h.contexts ++ [(h.world.newToken above).1] }
  | cancel {n : Nat} {t : Token} (context : t ∈ h.contexts) :
    Acted h (.cancel n) { h with world := h.world.cancel t, cancelled := t :: h.cancelled }
  | maker (state : σ) : Acted h (.maker state) { h with world := (h.world.newMaker state).2 }
  /-- The store is read, and what it answers may go through the endpoint's state. -/
  | get {endpoint : Endpoint Q V R σ} {maker : Nat} {request : Q} {call : CallRequest} {n : Nat} (key : String)
    {makers : List σ} (makers_eq : makers = h.world.makers ∨ ∃ state, makers = h.world.makers.set maker state) :
    Acted h (.get endpoint maker request call n)
      { h with world := { h.world with store := h.world.store.call key, makers } }
  | serve {endpoint : Endpoint Q V R σ} {maker replyBuffer : Nat} {request : Q} {call : CallRequest} {n : Nat}
    {t : Token} (context : t ∈ h.contexts) (maker_lt : maker < h.world.makers.length) (key : String) :
    Acted h (.serve endpoint maker replyBuffer request call n) { h with world := { (h.world.newToken t).2 with
      sessions := h.world.sessions ++ [Session.serving key (h.world.newToken t).1 maker (max replyBuffer 1)] } }
  | receive {i : Nat} {x : Session R} {item : Item R} {rest : List (Item R)} (session : h.world.sessions[i]? = some x)
    (items : x.replies.items = item :: rest) :
    Acted h (.receive i)
      { h with world := h.world.setSession i { x with replies := { x.replies with items := rest } } }
  | dropReplies {i : Nat} {x : Session R} (session : h.world.sessions[i]? = some x) :
    Acted h (.dropReplies i) { h with world := h.world.setSession i { x with replies := x.replies.drop } }
  | attach {i capacity n : Nat} {t : Token} (context : t ∈ h.contexts) (session_lt : i < h.world.sessions.length) :
    Acted h (.attach i capacity n) { h with world := { (h.world.newToken t).2 with
      watchers := h.world.watchers ++
        [⟨i, { token := (h.world.newToken t).1, queue := { capacity := max capacity 1 } }⟩] } }
  /-- No queue is as large, and the token was made for nothing. -/
  | attachTooLarge {i capacity n : Nat} {t : Token} (context : t ∈ h.contexts) :
    Acted h (.attach i capacity n) { h with world := (h.world.newToken t).2 }
  | next {k : Nat} {a : Attachment R} {r : R} {rest : List R} (attached : h.world.watchers[k]? = some a)
    (items : a.watcher.queue.items = r :: rest) :
    Acted h (.next k) { h with world := { h.world with
      watchers := h.world.watchers.set k
        { a with watcher := { a.watcher with queue := { a.watcher.queue with items := rest } } } } }
  | cancelWatcher {k : Nat} {a : Attachment R} (attached : h.world.watchers[k]? = some a) :
    Acted h (.cancelWatcher k) { h with world := h.world.cancel a.watcher.token }
  | dropWatcher {k : Nat} {a : Attachment R} (attached : h.world.watchers[k]? = some a) :
    Acted h (.dropWatcher k) { h with world := { h.world with
      watchers := h.world.watchers.set k { a with watcher := a.watcher.drop } }.cancel a.watcher.token }
  | subscribe {key : String} {n : Nat} {t : Token} {id : Nat} {store : Backend V} (context : t ∈ h.contexts)
    (granted : h.world.store.watch key t = (.ok id, store)) :
    Acted h (.subscribe key n) { h with world := { h.world with store }, direct := h.direct ++ [id] }
  | receiveEvent {n id : Nat} (direct : id ∈ h.direct) :
    Acted h (.receiveEvent n) { h with world := { h.world with store := (h.world.store.receive id).2 } }
  | dropEvents {n id : Nat} (direct : id ∈ h.direct) :
    Acted h (.dropEvents n) { h with world := { h.world with store := h.world.store.dropReceiver id } }

theorem acted_act (h : Hall V R σ) (a : HallAct Q V R σ) : h.Acted a (h.act a) := by
  cases a with
  | mutate m => exact .mutate m
  | context parent =>
    refine .context ?_
    cases hparent : parent.bind (h.contexts[·]?) with
    | none => exact Or.inl rfl
    | some t =>
      obtain ⟨n, -, hn⟩ := Option.bind_eq_some_iff.1 hparent
      exact Or.inr (List.mem_of_getElem? hn)
  | cancel n =>
    simp only [act]
    cases ht : h.contexts[n]? with
    | none => exact .nothing _
    | some t => exact .cancel (List.mem_of_getElem? ht)
  | maker state => exact .maker state
  | get endpoint maker request call n =>
    simp only [act]
    split
    · rename_i t _ _ _
      rcases h.world.afterGet_cases endpoint maker request (.ofRequest call t) with heq | ⟨key, makers, hmakers, heq⟩
      · rw [heq]
        exact .nothing _
      · rw [heq]
        exact .get key hmakers
    · exact .nothing _
  | serve endpoint maker replyBuffer request call n =>
    simp only [act]
    split
    · rename_i t _ ht hmaker
      rcases h.world.afterServe_cases endpoint maker replyBuffer request (.ofRequest call t) with heq | ⟨key, heq⟩
      · rw [heq]
        exact .nothing _
      · rw [heq]
        exact .serve (List.mem_of_getElem? ht) (List.getElem?_eq_some_iff.1 hmaker).1 key
    · exact .nothing _
  | receive i =>
    simp only [act]
    cases hx : h.world.sessions[i]? with
    | none =>
      simp only [World.receiveReply, hx]
      exact .nothing _
    | some x =>
      rcases World.receiveReply_cases hx with ⟨item, rest, hitems, heq⟩ | ⟨-, heq⟩
      · rw [heq]
        exact .receive hx hitems
      · rw [heq]
        exact .nothing _
  | dropReplies i =>
    simp only [act, World.dropReplies, World.modifySession]
    cases hx : h.world.sessions[i]? with
    | none =>
      rw [List.modify_eq_self (List.getElem?_eq_none_iff.1 hx)]
      exact .nothing _
    | some x =>
      have : Inhabited (Session R) := ⟨x⟩
      rw [List.modify_eq_set, hx, Option.getD_some]
      exact .dropReplies hx
  | attach i capacity n =>
    simp only [act]
    split
    · rename_i t _ ht hx
      rcases h.world.afterAttach_cases i capacity t with heq | heq
      · rw [heq]
        exact .attachTooLarge (List.mem_of_getElem? ht)
      · rw [heq]
        exact .attach (List.mem_of_getElem? ht) (List.getElem?_eq_some_iff.1 hx).1
    · exact .nothing _
  | next k =>
    simp only [act, World.nextReply]
    cases ha : h.world.watchers[k]? with
    | none => exact .nothing _
    | some a =>
      have hsame : h.world.watchers.set k a = h.world.watchers := by
        obtain ⟨hk, rfl⟩ := List.getElem?_eq_some_iff.1 ha
        exact List.set_getElem_self hk
      rcases a.watcher.next_cases with ⟨r, rest, hitems, heq⟩ | ⟨-, -, heq⟩ | ⟨-, -, heq⟩
      · simp only [heq]
        exact .next ha hitems
      · simp only [heq, hsame]
        exact .nothing _
      · simp only [heq, hsame]
        exact .nothing _
  | cancelWatcher k =>
    simp only [act]
    cases ha : h.world.watchers[k]? with
    | none => exact .nothing _
    | some a => exact .cancelWatcher ha
  | dropWatcher k =>
    simp only [act, World.dropWatcher]
    cases ha : h.world.watchers[k]? with
    | none => exact .nothing _
    | some a => exact .dropWatcher ha
  | subscribe key n =>
    simp only [act]
    cases ht : h.contexts[n]? with
    | none => exact .nothing _
    | some t =>
      simp only [World.subscribeStore]
      cases hw : h.world.store.watch key t with
      | mk answer store =>
        cases answer with
        | error e => exact .nothing _
        | ok id => exact .subscribe (List.mem_of_getElem? ht) hw
  | receiveEvent n =>
    simp only [act]
    cases hid : h.direct[n]? with
    | none => exact .nothing _
    | some id => exact .receiveEvent (List.mem_of_getElem? hid)
  | dropEvents n =>
    simp only [act]
    cases hid : h.direct[n]? with
    | none => exact .nothing _
    | some id => exact .dropEvents (List.mem_of_getElem? hid)

/-! ### Runs -/

/-- Acts, and turns of the tasks between them, in any order. -/
inductive Reaches (Q : Type) (make : Maker V R σ) (h : Hall V R σ) : Hall V R σ → Prop where
  | refl : Reaches Q make h h
  | act {h' : Hall V R σ} (reached : Reaches Q make h h') (a : HallAct Q V R σ) : Reaches Q make h (h'.act a)
  | turn {h' : Hall V R σ} {w : World V R σ} (reached : Reaches Q make h h') (t : Turn)
    (turned : h'.world.turn? make t = some w) : Reaches Q make h { h' with world := w }

variable {make : Maker V R σ}

/-- The hall after these acts, all tasks settled before and behind each. -/
def settled? (make : Maker V R σ) (h : Hall V R σ) : List (HallAct Q V R σ) → Option (Hall V R σ)
  | [] => (World.settled? make h.world).map fun w => { h with world := w }
  | a :: as => do
    let w ← World.settled? make h.world
    settled? make ({ h with world := w }.act a) as

theorem Reaches.trans {h h' h'' : Hall V R σ} (hreaches : Reaches Q make h h') (hreaches' : Reaches Q make h' h'') :
    Reaches Q make h h'' := by
  induction hreaches' with
  | refl => exact hreaches
  | act _ a ih => exact ih.act a
  | turn _ t hturn ih => exact ih.turn t hturn

theorem Reaches.runs {h₀ h : Hall V R σ} {w : World V R σ} (hruns : World.Runs make h.world w)
    (hreaches : Reaches Q make h₀ h) : Reaches Q make h₀ { h with world := w } := by
  have hall : ∀ {u v : World V R σ}, World.Runs make u v → Reaches Q make h₀ { h with world := u } →
      Reaches Q make h₀ { h with world := v } := by
    intro u v huv
    induction huv with
    | refl => exact fun hu => hu
    | turn t hturn _ ih => exact fun hu => ih (hu.turn t hturn)
  exact hall hruns hreaches

theorem Reaches.of_settled? {h₀ h h' : Hall V R σ} {as : List (HallAct Q V R σ)}
    (hsettled : settled? make h as = some h') (hreaches : Reaches Q make h₀ h) :
    Reaches Q make h₀ h' ∧ h'.world.AtRest make := by
  induction as generalizing h with
  | nil =>
    obtain ⟨w, hw, rfl⟩ := Option.map_eq_some_iff.1 hsettled
    obtain ⟨hruns, hrest⟩ := World.of_settled? hw
    exact ⟨hreaches.runs hruns, hrest⟩
  | cons a as ih =>
    obtain ⟨w, hw, hsettled⟩ := Option.bind_eq_some_iff.1 hsettled
    exact ih hsettled ((hreaches.runs (World.of_settled? hw).1).act a)

end Hall

end ResourceWatch

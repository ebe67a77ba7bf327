import ResourceWatch.Proofs.Watch.Seated

/-!
# Watches do not interfere

In a scene with others the caller of a watch is told what the watch by itself tells (`Scene.Reaches.plays`): the turns
of its own tasks are those of the watch by itself, all other turns and whatever others do leave it as it is, and the
acts of the caller do to it what they do to the watch by itself.  As that depends on nothing but those acts, so do the
answers (`watches_do_not_interfere`).
-/

namespace ResourceWatch

variable {Q V R σ : Type}

/-! ### Where the watch stands in a scene -/

/-- In the scene the watch stands at `l`, and the store is `core` as far as it matters to it. -/
inductive Scene.Shows (u : Scene V R σ) (core : MemoryStore V) : Lane V R σ → Prop where
  | before {s : MemoryStore V} (seat : u.seat = .before)
    (aside : u.hall.world.Aside s u.hall.contexts u.hall.direct .before none) (core_eq : s.core = core) :
    Shows u core .before
  | serving {s : MemoryStore V} {i m : Nat} {k : Option Nat} {x : Session R} {state : σ} {a : Option (Watcher R)}
    (seat : u.seat = .on i m k)
    (aside : u.hall.world.Aside s u.hall.contexts u.hall.direct (.on i m k) x.phase.stream?)
    (hosts : u.hall.world.Hosts s i m k x state a) (core_eq : s.core = core) :
    Shows u core (.serving (u.hall.world.serving x state a))
  | left {i m n : Nat} {b : Watcher R} (seat : u.seat = .on i m (some n))
    (watcher : u.hall.world.watchers[n]? = some ⟨i, b⟩) (finished : b.finished = true) : Shows u core (.left b.bare)
  | gone (seat : u.seat = .gone) : Shows u core .gone

namespace World

variable {make : Maker V R σ} {w w' : World V R σ} {n : Nat} {b : Attachment R}

theorem Advances.watchers_eq {i : Nat} {x : Session R} (h : Advances make w i x w') : w'.watchers = w.watchers := by
  cases h <;> rfl

/-- A watcher whose receive task has stopped is left to its consumer. -/
theorem watcher_turn (hb : w.watchers[n]? = some b) (hfinished : b.watcher.finished = true) {t : Turn}
    (hturn : w.turn? make t = some w') : w'.watchers[n]? = some b := by
  have hother : ∀ {k : Nat} {c c' : Attachment R}, w.watchers[k]? = some c → c.watcher.finished = false →
      (w.watchers.set k c')[n]? = some b := by
    intro k c c' hc hrunning
    have hkn : k ≠ n := by
      rintro rfl
      obtain rfl := Option.some.inj (hb.symm.trans hc)
      simp [hfinished] at hrunning
    rw [List.getElem?_set_ne hkn, hb]
  cases turned_of_turn? hturn with
  | advance _ hadvances => rw [hadvances.watchers_eq, hb]
  | pull hc _ hpulled => exact hother hc (Watcher.pulls_of_pull? hpulled).1
  | quit hc _ hrunning => exact hother hc hrunning
  | _ => exact hb

end World

namespace Hall

variable [Inhabited V] {h : Hall V R σ} {seat : Seat} {n : Nat} {b : Attachment R}

/-- What others do leaves the watcher of the one on the seat alone. -/
theorem watcher_foreign (hn : seat.watcher? = some n) (hb : h.world.watchers[n]? = some b) {a : HallAct Q V R σ}
    (hforeign : a.Foreign seat) : (h.act a).world.watchers[n]? = some b := by
  have hother : ∀ {k : Nat} {c : Attachment R}, seat.watcher? ≠ some k → (h.world.watchers.set k c)[n]? = some b := by
    intro k c hk
    have hkn : k ≠ n := fun hkn => hk (hkn ▸ hn)
    rw [List.getElem?_set_ne hkn, hb]
  have hacted := h.acted_act a
  generalize h.act a = h' at hacted ⊢
  cases hacted with
  | mutate m => exact hforeign.elim
  | attach => exact (List.getElem?_append_left (List.getElem?_eq_some_iff.1 hb).1).trans hb
  | next => exact hother hforeign
  | dropWatcher => exact hother hforeign
  | _ => exact hb

end Hall

/-! ### The acts of the caller -/

/-- The caller is given what the stage is. -/
structure Scene.Answers (u : Scene V R σ × SeatAnswer R) (g : Stage V R σ × SeatAnswer R) : Prop where
  shows : u.1.Shows g.1.core g.1.lane
  answer_eq : u.2 = g.2

namespace Scene.Shows

variable {make : Maker V R σ} {u : Scene V R σ} {core : MemoryStore V} {l : Lane V R σ}

theorem atRest (h : u.Shows core l) (hrest : u.hall.world.AtRest make) : l.AtRest make core := by
  cases h with
  | serving _ ha hosts hcore => exact hcore ▸ hosts.atRest ha.store_eq hrest
  | before => rintro _ ⟨⟩
  | left => rintro _ ⟨⟩
  | gone => rintro _ ⟨⟩

variable [Inhabited V]

/-- A turn of a task is a turn of the watch by itself, or leaves the watch as it is. -/
theorem turn (h : u.Shows core l) {t : Turn} {w : World V R σ} (hturn : u.hall.world.turn? make t = some w) :
    ∃ l', Relation.ReflTransGen (Lane.Step make core) l l' ∧ (u.withWorld w).Shows core l' := by
  cases h with
  | before hseat ha hcore =>
    have hnotOwn : ¬ t.IsOf .before none := by cases t <;> simp [Turn.IsOf, Seat.session?, Seat.watcher?]
    obtain ⟨s', ha', hleaves⟩ := ha.turn (fun _ h => by simp at h) hturn hnotOwn
    exact ⟨_, .refl, .before hseat ha' (hleaves.core_eq.trans hcore)⟩
  | @serving s i m k x state a hseat ha hosts hcore =>
    -- the turn is one of the watch itself, or the watch does not notice it
    by_cases hown : t.IsOf (.on i m k) x.phase.stream?
    · rcases hosts.turn ha hturn hown with ⟨s', x', state', a', ha', hosts', hcore', hsteps⟩ |
        ⟨n, b, rfl, hb, hfinished, hsteps⟩
      · exact ⟨_, .single (.serving (hcore ▸ hsteps)), .serving hseat ha' hosts' (hcore'.trans hcore)⟩
      · exact ⟨_, .single (.serving (hcore ▸ hsteps)), .left hseat hb hfinished⟩
    · obtain ⟨s', ha', hleaves⟩ := ha.turn hosts.holds.stream hturn hown
      obtain ⟨hosts', hserving⟩ := hosts.leaves ha.store_eq ha'.store_eq hleaves
      exact ⟨_, .refl, hserving ▸ .serving hseat ha' hosts' (hleaves.core_eq.trans hcore)⟩
  | left hseat hb hfinished => exact ⟨_, .refl, .left hseat (World.watcher_turn hb hfinished hturn) hfinished⟩
  | gone hseat => exact ⟨_, .refl, .gone hseat⟩

/-- What others do leaves the watch as it is. -/
theorem other (h : u.Shows core l) {a : HallAct Q V R σ} (hforeign : a.Foreign u.seat) :
    Scene.Shows { u with hall := u.hall.act a } core l := by
  cases h with
  | @before s hseat ha hcore =>
    have hholds : u.hall.world.Holds s Seat.before none :=
      ⟨fun _ h => by simp [Seat.session?] at h, fun _ h => by simp [Seat.maker?] at h,
        fun _ h => by simp [Seat.watcher?] at h, fun _ h => by simp at h⟩
    obtain ⟨s', ha', hleaves⟩ := ha.foreign hholds (hseat ▸ hforeign)
    exact .before hseat ha' (hleaves.core_eq.trans hcore)
  | serving hseat ha hosts hcore =>
    obtain ⟨s', ha', hleaves⟩ := ha.foreign hosts.holds (hseat ▸ hforeign)
    obtain ⟨hosts', hserving⟩ := hosts.leaves ha.store_eq ha'.store_eq hleaves
    rw [← hserving]
    exact .serving hseat ha' hosts' (hleaves.core_eq.trans hcore)
  | left hseat hb hfinished =>
    exact .left hseat (Hall.watcher_foreign (by rw [hseat]; rfl) hb hforeign) hfinished
  | gone hseat => exact .gone hseat

/-- Before the watch is served the caller can have it served, or cancel its tokens. -/
private theorem own_before {s : MemoryStore V} (hseat : u.seat = .before)
    (ha : u.hall.world.Aside s u.hall.contexts u.hall.direct .before none) (hcore : s.core = core)
    {a : SeatAct Q V R σ} (hallowed : u.Allows a) : Answers (u.act a) (Stage.act ⟨core, .before⟩ a) := by
  have hnothing : ∀ {b : SeatAnswer R}, Answers (u, b) (⟨core, .before⟩, b) := ⟨.before hseat ha hcore, rfl⟩
  cases a with
  | mutate c =>
    refine ⟨.before hseat (ha.mutate c) ?_, rfl⟩
    subst hcore
    exact MemoryStore.core_mutate s c
  | serve endpoint state replyBuffer request call =>
    have hmaker := ha.of_makers (u.hall.world.makers ++ [state]) (by simp)
    by_cases hbuffer : replyBuffer ≤ Queue.maxCapacity
    · have hqueue : (Queue.make? (max replyBuffer 1) : Option (Queue (Item R))) = _ := Queue.make?_max hbuffer
      cases hkey : endpoint.keyOf request (.ofRequest call [0]) with
      | ok key =>
        simp only [act, Stage.act, hseat, World.newMaker, World.serve_ok hkey hbuffer, hqueue, hkey]
        refine ⟨?_, rfl⟩
        rw [← ha.serving_opened hallowed key state (max replyBuffer 1)]
        exact .serving rfl (ha.opened key state _) (World.Aside.hosts_opened _ s key state _) hcore
      | error status =>
        simp only [act, Stage.act, hseat, World.newMaker, World.serve, World.openSession, hqueue, hkey]
        exact ⟨.before hseat hmaker hcore, rfl⟩
    · have hqueue : (Queue.make? (max replyBuffer 1) : Option (Queue (Item R))) = none := by
        rw [Queue.make?, if_neg fun h => hbuffer (Nat.le_trans (Nat.le_max_left _ _) h.2)]
      simp only [act, Stage.act, hseat, World.newMaker, World.serve, hqueue]
      exact ⟨.before hseat hmaker hcore, rfl⟩
  | cancelCall => exact ⟨.before hseat (ha.cancel (World.Aside.mayFire_call _)) hcore, rfl⟩
  | cancelClient => exact ⟨.before hseat (ha.cancel (World.Aside.mayFire_client _)) hcore, rfl⟩
  | _ =>
    simp only [act, Stage.act, hseat, Seat.watcher?, Option.bind_none]
    exact hnothing

/-- A watcher that has stopped can only be read on. -/
private theorem own_left {i m n : Nat} {b : Watcher R} (hseat : u.seat = .on i m (some n))
    (hb : u.hall.world.watchers[n]? = some ⟨i, b⟩) (hfinished : b.finished = true) (a : SeatAct Q V R σ) :
    Answers (u.act a) (Stage.act ⟨core, .left b.bare⟩ a) := by
  have hkept : ∀ {core' : MemoryStore V} {w : World V R σ} {b : SeatAnswer R}, w.watchers = u.hall.world.watchers →
      Answers (u.withWorld w, b) (⟨core', _⟩, b) :=
    fun hw => ⟨.left hseat (by rw [withWorld, hw, hb]) hfinished, rfl⟩
  have hnothing : ∀ {b : SeatAnswer R}, Answers (u, b) (⟨core, _⟩, b) := ⟨.left hseat hb hfinished, rfl⟩
  cases a with
  | mutate c =>
    refine hkept ?_
    unfold World.mutate
    split <;> rfl
  | next =>
    simp only [act, Stage.act, hseat, World.nextReply, hb, Watcher.next_bare]
    have hfinished' : b.next.2.finished = true := by
      rcases b.next_cases with ⟨r, rest, -, hnext⟩ | ⟨-, -, hnext⟩ | ⟨-, -, hnext⟩ <;> rw [hnext] <;> exact hfinished
    exact ⟨.left hseat (List.getElem?_set_self (List.getElem?_eq_some_iff.1 hb).1) hfinished', rfl⟩
  | cancelCall => exact hkept rfl
  | cancelClient => exact hkept rfl
  | cancelWatcher =>
    simp only [act, Stage.act, hseat, Seat.watcher?, Option.bind_some, hb]
    exact hkept rfl
  | dropWatcher =>
    simp only [act, Stage.act, hseat]
    exact ⟨.gone rfl, rfl⟩
  | _ =>
    simp only [act, Stage.act, hseat]
    exact hnothing

private theorem own_gone (hseat : u.seat = .gone) (a : SeatAct Q V R σ) :
    Answers (u.act a) (Stage.act ⟨core, .gone⟩ a) := by
  cases a with
  | mutate c => exact ⟨.gone hseat, rfl⟩
  | cancelCall => exact ⟨.gone hseat, rfl⟩
  | cancelClient => exact ⟨.gone hseat, rfl⟩
  | _ =>
    simp only [act, Stage.act, hseat, Seat.watcher?, Option.bind_none]
    exact ⟨.gone hseat, rfl⟩

/-- However the caller reads the replies, the store is changed. -/
private theorem own_mutate {s : MemoryStore V} {i m : Nat} {k : Option Nat} {x : Session R} {state : σ}
    {o : Option (Watcher R)} (hseat : u.seat = .on i m k)
    (ha : u.hall.world.Aside s u.hall.contexts u.hall.direct (.on i m k) x.phase.stream?)
    (hosts : u.hall.world.Hosts s i m k x state o) (c : Mutation V) :
    Answers (u.act (Q := Q) (.mutate c))
      (Stage.act (Q := Q) ⟨s.core, .serving (u.hall.world.serving x state o)⟩ (.mutate c)) := by
  obtain ⟨hosts', hserving⟩ := hosts.mutate ha.store_eq ha.orderly c
  refine ⟨?_, rfl⟩
  simp only [Stage.act]
  rw [← hserving]
  exact .serving hseat (ha.mutate c) hosts' (MemoryStore.core_mutate s c)

/-- However the caller reads the replies, the token of the call is cancelled. -/
private theorem own_cancelCall {s : MemoryStore V} {i m : Nat} {k : Option Nat} {x : Session R} {state : σ}
    {o : Option (Watcher R)} (hseat : u.seat = .on i m k)
    (ha : u.hall.world.Aside s u.hall.contexts u.hall.direct (.on i m k) x.phase.stream?)
    (hosts : u.hall.world.Hosts s i m k x state o) :
    Answers (u.act (Q := Q) .cancelCall)
      (Stage.act (Q := Q) ⟨s.core, .serving (u.hall.world.serving x state o)⟩ .cancelCall) := by
  refine ⟨?_, rfl⟩
  simp only [Stage.act, Stage.withLane]
  rw [← hosts.serving_cancel_call]
  exact .serving hseat (ha.cancel (World.Aside.mayFire_call _)) (hosts.cancel [0]) rfl

/-- The caller reads the replies directly. -/
private theorem own_direct {s : MemoryStore V} {i m : Nat} {x : Session R} {state : σ} {o : Option (Watcher R)}
    (hseat : u.seat = .on i m none)
    (ha : u.hall.world.Aside s u.hall.contexts u.hall.direct (.on i m none) x.phase.stream?)
    (hosts : u.hall.world.Hosts s i m none x state o) (hcore : s.core = core) {a : SeatAct Q V R σ}
    (hallowed : u.Allows a) : Answers (u.act a) (Stage.act ⟨core, .serving (u.hall.world.serving x state o)⟩ a) := by
  subst hcore
  obtain rfl := hosts.unwatched rfl
  have hwatcher : (u.hall.world.serving x state none).watcher = none := rfl
  have hnothing : ∀ {b : SeatAnswer R}, Answers (u, b) (⟨s.core, _⟩, b) := ⟨.serving hseat ha hosts rfl, rfl⟩
  cases a with
  | mutate c => exact own_mutate hseat ha hosts c
  | receive =>
    have hopen : (u.hall.world.serving x state none).isOpen = x.isOpen := World.isOpen_serving _ _ _ _
    have hreplies : (x.replies.receive x.isOpen).2.receiving = true := by
      unfold Queue.receive
      split <;> exact hosts.held
    obtain ⟨ha', hosts'⟩ := hosts.setReplies ha hreplies
    let y : Session R := { x with replies := (x.replies.receive x.isOpen).2 }
    have hshows : (u.withWorld (u.hall.world.setSession i y)).Shows s.core
        (.serving ((u.hall.world.setSession i y).serving y state none)) := .serving (x := y) hseat ha' hosts' rfl
    simp only [act, Stage.act, hseat, World.receiveReply, hosts.session_eq, hwatcher, hopen]
    exact ⟨hshows, rfl⟩
  | attach capacity =>
    simp only [act, Stage.act, hseat, World.newToken, World.attach, Watcher.make?, hwatcher]
    cases hqueue : (Queue.make? (max capacity 1) : Option (Queue R)) with
    | none =>
      simp only [Option.map_none]
      exact ⟨.serving hseat (ha.newToken [1]) (hosts.newToken [1]) rfl, rfl⟩
    | some queue =>
      obtain ⟨ha', hosts'⟩ := hosts.attached ha queue
      simp only [Option.map_some]
      refine ⟨?_, rfl⟩
      simp only [Stage.withLane]
      rw [← ha.serving_attached hallowed queue]
      exact .serving rfl ha' hosts' rfl
  | cancelCall => exact own_cancelCall hseat ha hosts
  | cancelClient =>
    refine ⟨?_, rfl⟩
    simp only [Stage.act, Stage.withLane]
    rw [← hosts.serving_cancel_watcher (t := [1]) rfl fun b hb => by simp at hb]
    exact .serving hseat (ha.cancel (World.Aside.mayFire_client _)) (hosts.cancel [1]) rfl
  | cancelWatcher =>
    simp only [act, Stage.act, hseat, Seat.watcher?, Option.bind_none]
    exact hnothing
  | dropReplies =>
    simp only [act, Stage.act, hseat, hwatcher]
    exact ⟨.gone rfl, rfl⟩
  | dropWatcher =>
    simp only [act, Stage.act, hseat, hwatcher]
    exact hnothing
  | serve =>
    simp only [act, Stage.act, hseat]
    exact hnothing
  | next =>
    simp only [act, Stage.act, hseat, hwatcher]
    exact hnothing

/-- The caller reads the replies through a watcher. -/
private theorem own_watched {s : MemoryStore V} {i m n : Nat} {x : Session R} {state : σ} {o : Option (Watcher R)}
    (hseat : u.seat = .on i m (some n))
    (ha : u.hall.world.Aside s u.hall.contexts u.hall.direct (.on i m (some n)) x.phase.stream?)
    (hosts : u.hall.world.Hosts s i m (some n) x state o) (hcore : s.core = core) (a : SeatAct Q V R σ) :
    Answers (u.act a) (Stage.act ⟨core, .serving (u.hall.world.serving x state o)⟩ a) := by
  subst hcore
  obtain ⟨b, rfl, hb, hroot, hrunning⟩ := hosts.watched n rfl
  have hwatcher : (u.hall.world.serving x state (some b)).watcher = some b.bare := rfl
  have hnothing : ∀ {b : SeatAnswer R}, Answers (u, b) (⟨s.core, _⟩, b) := ⟨.serving hseat ha hosts rfl, rfl⟩
  cases a with
  | mutate c => exact own_mutate hseat ha hosts c
  | next =>
    have hnext : b.next.2.token = b.token ∧ b.next.2.finished = false := by
      rcases b.next_cases with ⟨r, rest, -, hnext⟩ | ⟨-, -, hnext⟩ | ⟨-, -, hnext⟩ <;> rw [hnext] <;>
        exact ⟨rfl, hrunning⟩
    obtain ⟨ha', hosts'⟩ := hosts.setWatcher ha hnext.1 hnext.2
    have hserving : World.serving { u.hall.world with watchers := u.hall.world.watchers.set n ⟨i, b.next.2⟩ } x state
        (some b.next.2) = { u.hall.world.serving x state (some b) with watcher := some b.next.2.bare } := by
      simp only [World.serving, Option.any_some, hnext.1]
      rfl
    simp only [act, Stage.act, hseat, World.nextReply, hb, hwatcher, Watcher.next_bare]
    refine ⟨?_, rfl⟩
    simp only [Stage.withLane]
    rw [← hserving]
    exact .serving hseat ha' hosts' rfl
  | cancelCall => exact own_cancelCall hseat ha hosts
  | cancelClient =>
    refine ⟨?_, rfl⟩
    simp only [Stage.act, Stage.withLane]
    rw [← hosts.serving_cancel_watcher (t := [1]) rfl fun c hc => by
      obtain rfl := Option.some.inj hc
      exact Tokens.isCancelled_cancel_root _ hroot]
    exact .serving hseat (ha.cancel (World.Aside.mayFire_client _)) (hosts.cancel [1]) rfl
  | cancelWatcher =>
    simp only [act, Stage.act, hseat, Seat.watcher?, Option.bind_some, hb]
    refine ⟨?_, rfl⟩
    simp only [Stage.withLane]
    rw [← hosts.serving_cancel_watcher hroot fun c hc => by
      obtain rfl := Option.some.inj hc
      exact Tokens.isCancelled_cancel_self _ _]
    exact .serving hseat (ha.cancel (Or.inr (Or.inr ⟨hroot, fun hnone => by simp [Seat.watcher?] at hnone⟩)))
      (hosts.cancel _) rfl
  | dropWatcher =>
    simp only [act, Stage.act, hseat, hwatcher]
    exact ⟨.gone rfl, rfl⟩
  | serve =>
    simp only [act, Stage.act, hseat]
    exact hnothing
  | receive =>
    simp only [act, Stage.act, hseat, hwatcher]
    exact hnothing
  | attach =>
    simp only [act, Stage.act, hseat, hwatcher]
    exact hnothing
  | dropReplies =>
    simp only [act, Stage.act, hseat, hwatcher]
    exact hnothing

/-- An act of the caller does to the watch what it does to the watch by itself, and is answered alike. -/
theorem own (h : u.Shows core l) {a : SeatAct Q V R σ} (hallowed : u.Allows a) :
    Answers (u.act a) (Stage.act ⟨core, l⟩ a) := by
  cases h with
  | before hseat ha hcore => exact own_before hseat ha hcore hallowed
  | @serving _ _ _ k _ _ _ hseat ha hosts hcore =>
    cases k with
    | none => exact own_direct hseat ha hosts hcore hallowed
    | some n => exact own_watched hseat ha hosts hcore a
  | left hseat hb hfinished => exact own_left hseat hb hfinished a
  | gone hseat => exact own_gone hseat a

end Scene.Shows

namespace Scene

variable [Inhabited V] {make : Maker V R σ} {start u : Scene V R σ} {g : Stage V R σ} {as : List (SeatAct Q V R σ)}
  {bs : List (SeatAnswer R)}

theorem shows_opening (eventBuffer : Nat) (history : List (StoreAct V)) :
    (opening eventBuffer history : Scene V R σ).Shows
      ((Chronicle.opening eventBuffer).acts history).store.core .before := by
  refine .before rfl ⟨rfl, Chronicle.orderly_acts (.make eventBuffer) history, Nat.le_refl _, fun t ht => ?_,
    fun t ht => ?_, fun j y hy => ?_, fun n b hb => ?_, fun id hid => ?_⟩ rfl
  · exact absurd ht List.not_mem_nil
  · exact absurd ht List.not_mem_nil
  · simp [opening] at hy
  · simp [opening] at hb
  · exact ⟨List.mem_range.1 hid, by simp⟩

/-- Whatever happens around it, the caller is told what the watch by itself tells. -/
theorem Reaches.plays (hstart : start.Shows g.core g.lane) (h : Reaches make start as bs u) :
    ∃ g' l, Stage.Plays make g as bs g' ∧ Relation.ReflTransGen (Lane.Step make g'.core) g'.lane l ∧
      u.Shows g'.core l := by
  induction h with
  | start => exact ⟨g, g.lane, .start, .refl, hstart⟩
  | turn _ t hturn ih =>
    obtain ⟨g', l, hplays, hreaches, hshows⟩ := ih
    obtain ⟨l', hreaches', hshows'⟩ := hshows.turn hturn
    exact ⟨g', l', hplays, hreaches.trans hreaches', hshows'⟩
  | other _ a hforeign ih =>
    obtain ⟨g', l, hplays, hreaches, hshows⟩ := ih
    exact ⟨g', l, hplays, hreaches, hshows.other hforeign⟩
  | own _ a hrest hallowed ih =>
    obtain ⟨g', l, hplays, hreaches, hshows⟩ := ih
    obtain ⟨hshows', hanswer⟩ := hshows.own hallowed
    rw [hanswer]
    exact ⟨_, _, .own hplays hreaches (hshows.atRest hrest) a, .refl, hshows'⟩

end Scene

/-- A store that has come anywhere, and one watch on it among others.  In two runs in which the store is changed and
the caller of the watch acts in the same way, each at rest, the caller is told the same: that the watch is served or
why it is not, the same replies, the same failure, the same end, and that there is nothing yet at the same times.
What else there is may differ: what others open, read or leave unread, cancel or let go of, on whichever keys, what
they get or subscribe to directly, and in which order the tasks take turns. -/
theorem watches_do_not_interfere [Inhabited V] (make : Maker V R σ) (eventBuffer : Nat) (history : List (StoreAct V))
    {as : List (SeatAct Q V R σ)} {bs bs' : List (SeatAnswer R)} {u u' : Scene V R σ}
    (h : Scene.Reaches make (.opening eventBuffer history) as bs u)
    (h' : Scene.Reaches make (.opening eventBuffer history) as bs' u') : bs = bs' := by
  let g : Stage V R σ := ⟨((Chronicle.opening eventBuffer).acts history).store.core, .before⟩
  have hstart : (Scene.opening eventBuffer history : Scene V R σ).Shows g.core g.lane := Scene.shows_opening _ _
  have hcalm : g.lane.Calm make g.core := trivial
  obtain ⟨_, _, hplays, -⟩ := h.plays hstart
  obtain ⟨_, _, hplays', -⟩ := h'.plays hstart
  exact (hplays.eq hcalm hplays').1

/-- A watcher is told the same alone and beside a reader that stalls on the same key, one that is cancelled and lets
go of its stream, and one that has subscribed directly. -/
theorem watches_do_not_interfere_beside_stalled_reader :
    let endpoint : Endpoint String Nat Nat (ChangeCache Nat) :=
      { keyOf := fun key _ => .ok key, make := Endpoint.deduplicating fun _ v => v / 2 }
    let history : List (StoreAct Nat) := [.put "k" 1, .watch "k" [7]]
    let as : List (SeatAct String Nat Nat (ChangeCache Nat)) :=
      [.serve endpoint {} 1 "k" {}, .attach 1, .mutate (.put "k" 2), .next, .mutate (.put "k" 3), .next, .next,
        .mutate (.fail "k" "lost"), .next, .next]
    let replies : SeatAnswer Nat → Option Nat := fun b => match b with
      | .told (.reply r) => some r
      | _ => none
    ∃ (bs bs' : List (SeatAnswer Nat)) (u u' : Scene Nat Nat (ChangeCache Nat)),
      Scene.Reaches endpoint.make (.opening 1 history) as bs u ∧
      Scene.Reaches endpoint.make (.opening 1 history) as bs' u' ∧
      u.hall.world.sessions.length = 1 ∧ u'.hall.world.sessions.length = 3 ∧ bs.filterMap replies = [0, 1] ∧
      bs = bs' := by
  intro endpoint history as replies
  let others : List (HallAct String Nat Nat (ChangeCache Nat)) :=
    [.context none, .context none, .maker {}, .serve endpoint 0 1 "k" {} 0, .serve endpoint 0 1 "k" {} 1]
  let moves : List (SeatAct String Nat Nat (ChangeCache Nat) ⊕ HallAct String Nat Nat (ChangeCache Nat)) :=
    others.map .inr ++ [.inl (.serve endpoint {} 1 "k" {}), .inl (.attach 1), .inr (.subscribe "k" 1),
      .inl (.mutate (.put "k" 2)), .inr (.receiveEvent 1), .inl .next, .inl (.mutate (.put "k" 3)),
      .inr (.get endpoint 0 "k" {} 1), .inl .next, .inr (.cancel 1), .inl .next, .inl (.mutate (.fail "k" "lost")),
      .inr (.dropReplies 1), .inl .next, .inl .next]
  have hplayed : (Scene.play? endpoint.make (.opening 1 history) (as.map .inl)).map
      (fun p => (p.2.hall.world.sessions.length, p.1.filterMap replies)) = some (1, [0, 1]) := by
    decide +kernel
  have hplayed' : (Scene.play? endpoint.make (.opening 1 history) moves).map
      (fun p => p.2.hall.world.sessions.length) = some 3 := by
    decide +kernel
  obtain ⟨⟨bs, u⟩, hu, hfacts⟩ := Option.map_eq_some_iff.1 hplayed
  obtain ⟨hsessions, hreplies⟩ := Prod.mk.inj hfacts
  obtain ⟨⟨bs', u'⟩, hu', hsessions'⟩ := Option.map_eq_some_iff.1 hplayed'
  have hreaches : Scene.Reaches endpoint.make (.opening 1 history) as bs u := Scene.Reaches.of_play? hu .start
  have hreaches' : Scene.Reaches endpoint.make (.opening 1 history) as bs' u' := Scene.Reaches.of_play? hu' .start
  exact ⟨bs, bs', u, u', hreaches, hreaches', hsessions, hsessions', hreplies,
    watches_do_not_interfere endpoint.make 1 history hreaches hreaches'⟩

end ResourceWatch

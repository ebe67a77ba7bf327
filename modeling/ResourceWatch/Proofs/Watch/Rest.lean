import ResourceWatch.Proofs.Watch.Advances
import ResourceWatch.Proofs.Watch.Receiving
import ResourceWatch.Watch.Schedule

/-!
# Coming to rest

Every turn lowers the work ahead (`World.work_lt`), so however the tasks take turns, the world comes to rest, and
after no more turns than that (`World.exists_runs_atRest`).  `settle` is one such run (`World.runs_settle`), and that
it came to rest can be computed (`World.atRest_of_isAtRest`).
-/

namespace ResourceWatch

variable {V R σ : Type}

namespace World

/-! ### The work of a list -/

section TotalWork

variable {α : Type} (work : α → Nat)

theorem totalWork_append (xs ys : List α) : totalWork work (xs ++ ys) = totalWork work xs + totalWork work ys := by
  induction xs with
  | nil => simp [totalWork]
  | cons x xs ih =>
    have hcons : ∀ zs : List α, totalWork work (x :: zs) = work x + totalWork work zs := fun _ => rfl
    rw [List.cons_append, hcons, hcons, ih]
    omega

/-- What the list loses where a member is replaced, and what it gains. -/
theorem totalWork_set {xs : List α} {i : Nat} {x : α} (h : xs[i]? = some x) (y : α) :
    totalWork work (xs.set i y) + work x = totalWork work xs + work y := by
  induction xs generalizing i with
  | nil => simp at h
  | cons a xs ih =>
    have hcons : ∀ (z : α) (zs : List α), totalWork work (z :: zs) = work z + totalWork work zs := fun _ _ => rfl
    cases i with
    | zero =>
      rw [List.getElem?_cons_zero, Option.some.injEq] at h
      rw [List.set_cons_zero, hcons, hcons, h]
      omega
    | succ i =>
      rw [List.getElem?_cons_succ] at h
      have := ih h
      rw [List.set_cons_succ, hcons, hcons]
      omega

theorem totalWork_modify {xs : List α} {i : Nat} {x : α} (h : xs[i]? = some x) (f : α → α) :
    totalWork work (xs.modify i f) + work x = totalWork work xs + work (f x) := by
  have : Inhabited α := ⟨x⟩
  rw [List.modify_eq_set, h, Option.getD_some]
  exact totalWork_set work h (f x)

theorem totalWork_modify_le (xs : List α) (i : Nat) {f : α → α} (hf : ∀ x, work (f x) ≤ work x) :
    totalWork work (xs.modify i f) ≤ totalWork work xs := by
  by_cases hi : i < xs.length
  · have := totalWork_modify work (List.getElem?_eq_getElem hi) f
    have := hf xs[i]
    omega
  · exact Nat.le_of_eq (congrArg (totalWork work) (List.modify_eq_self (by omega)))

end TotalWork

end World

/-! ### The work of event streams -/

namespace EventStream

theorem work_drop_le (st : EventStream V) : st.drop.work ≤ st.work := by
  have hqueue : queuedEventWork * st.drop.queue.items.length ≤ queuedEventWork * st.queue.items.length :=
    Nat.mul_le_mul_left _ (Nat.zero_le _)
  exact Nat.add_le_add_right (Nat.add_le_add_right (Nat.add_le_add_right hqueue _) _) _

theorem work_receive_item {st : EventStream V} {e : Event V} (h : st.receive.1 = .item e) :
    st.receive.2.work + queuedEventWork = st.work := by
  unfold EventStream.receive Queue.receive at h ⊢
  cases hitems : st.queue.items with
  | nil =>
    rw [hitems] at h
    cases hopen : st.isOpen <;> simp [hopen] at h
  | cons e' rest =>
    simp only [work, hitems, List.length_cons, Nat.mul_add]
    omega

theorem work_flush?_lt {st st' : EventStream V} (h : st.flush? = some st') : st'.work < st.work := by
  unfold flush? at h
  cases hflushing : st.flushing with
  | false => simp [hflushing] at h
  | true =>
    simp only [hflushing, Bool.not_true, Bool.false_eq_true, if_false] at h
    split at h
    · rw [Option.some.injEq] at h
      subst h
      simp only [work, hflushing]
      simp
    · split at h
      · simp at h
      · split at h
        · rw [Option.some.injEq] at h
          subst h
          simp only [work, hflushing]
          simp
        · rename_i e hparked
          rw [Option.some.injEq] at h
          subst h
          simp only [work, hflushing, hparked, Queue.items_push, List.length_append, List.length_singleton,
            Nat.mul_add, Option.isSome_none, Option.isSome_some, Bool.false_eq_true, if_false, if_true]
          omega

theorem work_release_lt {st : EventStream V} (h : st.guarding = true) :
    ({ st.detach with guarding := false } : EventStream V).work < st.work := by
  simp only [work, detach, h]
  simp

end EventStream

theorem ScriptedStore.work_endEvents_le (s : ScriptedStore V) :
    World.totalWork EventStream.work s.endEvents.2.streams ≤ World.totalWork EventStream.work s.streams := by
  unfold ScriptedStore.endEvents
  cases s.feeding with
  | none => exact Nat.le_refl _
  | some id => exact World.totalWork_modify_le _ _ _ fun _ => Nat.le_refl _

namespace Backend

variable {b b' : Backend V} {id : Nat}

/-- The work that the event streams have ahead. -/
def work (b : Backend V) : Nat := World.totalWork (·.work) b.streams

theorem work_call (b : Backend V) (key : String) : (b.call key).work = b.work := by
  cases b <;> rfl

theorem streams_modifyStream (b : Backend V) (id : Nat) (f : EventStream V → EventStream V) :
    (b.modifyStream id f).streams = b.streams.modify id f := by
  cases b <;> rfl

theorem work_dropReceiver_le (b : Backend V) (id : Nat) : (b.dropReceiver id).work ≤ b.work := by
  unfold work dropReceiver
  rw [streams_modifyStream]
  exact World.totalWork_modify_le _ _ _ EventStream.work_drop_le

theorem work_receive_item {e : Event V} (h : b.receive id = (.item e, b')) : b'.work + queuedEventWork = b.work := by
  unfold Backend.receive at h
  cases hst : b.streams[id]? with
  | none => simp [hst] at h
  | some st =>
    simp only [hst, Prod.mk.injEq] at h
    obtain ⟨hitem, rfl⟩ := h
    have hst' := EventStream.work_receive_item hitem
    have hmodify := World.totalWork_modify EventStream.work hst fun st => st.receive.2
    have hwork : (b.modifyStream id fun st => st.receive.2).work =
        World.totalWork EventStream.work (b.streams.modify id fun st => st.receive.2) := by
      rw [work, streams_modifyStream]
    have hwork' : b.work = World.totalWork EventStream.work b.streams := rfl
    omega

theorem work_watch_ok {key : String} {token : Token} (h : b.watch key token = (.ok id, b')) :
    b'.work ≤ b.work + 1 := by
  cases b with
  | memory s =>
    rw [Backend.watch] at h
    cases hwatch : s.watch key token with
    | error e => simp [hwatch] at h
    | ok granted =>
      obtain ⟨id', t⟩ := granted
      simp only [hwatch, Prod.mk.injEq] at h
      obtain ⟨-, rfl⟩ := h
      unfold MemoryStore.watch at hwatch
      split at hwatch
      · simp at hwatch
      · split at hwatch
        · simp at hwatch
        · rename_i queue hqueue
          simp only [Except.ok.injEq, Prod.mk.injEq] at hwatch
          obtain ⟨-, rfl⟩ := hwatch
          obtain ⟨-, rfl⟩ := Queue.eq_of_make? hqueue
          exact Nat.le_of_eq (World.totalWork_append EventStream.work _ _)
  | scripted s =>
    simp only [Backend.watch, ScriptedStore.watch] at h
    split at h
    · simp at h
    · split at h
      · simp at h
      · rename_i capacity _ _ queue hqueue
        simp only [Prod.mk.injEq] at h
        obtain ⟨-, rfl⟩ := h
        obtain ⟨-, rfl⟩ := Queue.eq_of_make? hqueue
        have hended := ScriptedStore.work_endEvents_le { s.note (.watch key) with latestToken := some token }
        have hnew : World.totalWork EventStream.work
            [{ key, token, queue := ({ capacity } : Queue (Event V)), guarding := false }] = 0 := rfl
        refine Nat.le_trans (Nat.le_of_eq (World.totalWork_append EventStream.work _ _)) ?_
        rw [hnew]
        exact Nat.le_trans hended (Nat.le_succ _)

theorem work_watch_error {key : String} {token : Token} {e : SubscribeError}
    (h : b.watch key token = (.error e, b')) : b'.work = b.work := by
  cases b with
  | memory s =>
    rw [Backend.watch] at h
    cases hwatch : s.watch key token with
    | error e' =>
      simp only [hwatch, Prod.mk.injEq] at h
      rw [← h.2]
    | ok granted => simp [hwatch] at h
  | scripted s =>
    simp only [Backend.watch, ScriptedStore.watch] at h
    split at h
    · simp only [Prod.mk.injEq] at h
      rw [← h.2]
      rfl
    · split at h
      · simp only [Prod.mk.injEq] at h
        rw [← h.2]
        rfl
      · simp at h

theorem work_flush?_lt (h : b.flush? id = some b') : b'.work < b.work := by
  simp only [Backend.flush?, Option.bind_eq_bind, Option.bind_eq_some_iff, Option.pure_def, Option.some.injEq] at h
  obtain ⟨st, hst, st', hflush, rfl⟩ := h
  have hlt := EventStream.work_flush?_lt hflush
  have hmodify := World.totalWork_modify EventStream.work hst fun _ => st'
  have hwork : (b.modifyStream id fun _ => st').work =
      World.totalWork EventStream.work (b.streams.modify id fun _ => st') := by
    rw [work, streams_modifyStream]
  have hwork' : b.work = World.totalWork EventStream.work b.streams := rfl
  omega

theorem work_release?_lt {tokens : Tokens} (h : b.release? tokens id = some b') : b'.work < b.work := by
  cases b with
  | memory s =>
    simp only [Backend.release?, Option.map_eq_some_iff, MemoryStore.release?, Option.bind_eq_bind,
      Option.bind_eq_some_iff] at h
    obtain ⟨t, ⟨st, hst, ht⟩, rfl⟩ := h
    split at ht
    · rename_i hc
      rw [Bool.and_eq_true] at hc
      simp only [Option.pure_def, Option.some.injEq] at ht
      subst ht
      have hmodify := World.totalWork_modify EventStream.work hst fun st => { st.detach with guarding := false }
      have hlt := EventStream.work_release_lt hc.1
      have hstreams : (s.updateStreams [id] fun st => { st.detach with guarding := false }).streams =
          s.streams.modify id fun st => { st.detach with guarding := false } := by
        refine List.ext_getElem? fun j => ?_
        simp only [MemoryStore.updateStreams, List.getElem?_mapIdx, List.getElem?_modify, List.mem_singleton]
        cases s.streams[j]? <;> simp [eq_comm]
      change World.totalWork EventStream.work (s.updateStreams [id] _).streams <
        World.totalWork EventStream.work s.streams
      rw [hstreams]
      omega
    · simp at ht
  | scripted s => simp [Backend.release?] at h

end Backend

/-! ### The work of sessions -/

namespace Session

variable (x : Session R)

theorem work_with_phase (p : Phase R) :
    ({ x with phase := p } : Session R).work + x.phase.work = x.work + p.work := by
  simp only [work]
  omega

theorem work_send (item : Item R) (next : Phase R) :
    (x.send item next).work + x.phase.work = x.work + next.work + 2 := by
  change next.work + 2 * (x.replies.items ++ [item]).length + (if x.monitored then 1 else 0) + x.phase.work =
    x.phase.work + 2 * x.replies.items.length + (if x.monitored then 1 else 0) + next.work + 2
  rw [List.length_append, List.length_singleton]
  omega

theorem work_afterEnd_le (o : Outcome) : (x.afterEnd o).work ≤ 3 := by
  rcases x.afterEnd_eq o with h | ⟨-, e, -, h⟩ <;> rw [h]
  · exact Nat.zero_le _
  · exact Nat.le_refl _

end Session

namespace World

variable {make : Maker V R σ} {w w' : World V R σ} {i : Nat} {x x' : Session R}

/-- Session `i` becomes `x'`, while the event streams lose and gain so much. -/
private theorem work_lt_of_set (lost gained : Nat) (hx : w.sessions[i]? = some x)
    (hsessions : w'.sessions = w.sessions.set i x') (hwatchers : w'.watchers = w.watchers)
    (hstore : w'.store.work + lost ≤ w.store.work + gained) (hwork : x'.work + gained < x.work + lost) :
    w'.work < w.work := by
  have hset := totalWork_set Session.work hx x'
  change w'.store.work + totalWork Session.work w'.sessions + totalWork (·.watcher.work) w'.watchers <
    w.store.work + totalWork Session.work w.sessions + totalWork (·.watcher.work) w.watchers
  rw [hsessions, hwatchers]
  omega

private theorem work_lt_of_phase (lost gained : Nat) {p : Phase R} (hx : w.sessions[i]? = some x)
    (hsessions : w'.sessions = w.sessions.set i { x with phase := p }) (hwatchers : w'.watchers = w.watchers)
    (hstore : w'.store.work + lost ≤ w.store.work + gained) (hwork : p.work + gained < x.phase.work + lost) :
    w'.work < w.work := by
  have := x.work_with_phase p
  exact work_lt_of_set lost gained hx hsessions hwatchers hstore (by omega)

theorem work_endSession_le (w : World V R σ) (i : Nat) (x : Session R) (o : Outcome) :
    (w.endSession i x o).store.work ≤ w.store.work := by
  change (x.phase.stream?.elim w.store w.store.dropReceiver).work ≤ w.store.work
  cases x.phase.stream? with
  | none => exact Nat.le_refl _
  | some id => exact w.store.work_dropReceiver_le id

theorem Advances.work_lt (h : Advances make w i x w') (hx : w.sessions[i]? = some x) : w'.work < w.work := by
  -- a failed session may still have to report, so its end takes phases with more work than that
  have hend : ∀ (w₁ : World V R σ) (o : Outcome) (lost : Nat), w₁.sessions = w.sessions → w₁.watchers = w.watchers →
      w₁.store.work + lost ≤ w.store.work → 3 < x.phase.work + lost → (w₁.endSession i x o).work < w.work := by
    intro w₁ o lost hsessions hwatchers hstore hwork
    have hdropped := w₁.work_endSession_le i x o
    have hafter := x.work_afterEnd_le o
    have hset : (w₁.endSession i x o).sessions = w.sessions.set i { x with phase := x.afterEnd o } := by
      rw [← hsessions]
      rfl
    exact work_lt_of_phase lost 0 hx hset hwatchers (by omega) (by omega)
  cases h with
  | call hp =>
    exact work_lt_of_phase 0 0 hx rfl rfl (Nat.le_of_eq (w.store.work_call x.key)) (by rw [hp]; simp [Phase.work])
  | unread hp => exact hend w _ 0 rfl rfl (Nat.le_refl _) (by rw [hp]; simp [Phase.work])
  | read hp => exact work_lt_of_phase 0 0 hx rfl rfl (Nat.le_refl _) (by rw [hp]; simp [Phase.work])
  | unmade hp => exact hend _ _ 0 rfl rfl (Nat.le_refl _) (by rw [hp]; simp [Phase.work])
  | @send r next hp =>
    have hsend := x.work_send (.ok r) next
    have hnext : next.work + 2 < x.phase.work := by
      cases hphase : x.phase <;>
        simp only [hphase, Phase.sends?, Option.some.injEq, Prod.mk.injEq, reduceCtorEq] at hp
      · rw [← hp.2]
        simp [Phase.work]
      · rw [← hp.2]
        simp [Phase.work]
    exact work_lt_of_set 0 0 hx rfl rfl (Nat.le_refl _) (by omega)
  | disconnect hp =>
    have hphase : 3 < x.phase.work := by
      cases hphase : x.phase <;> simp [hphase, Phase.sends?] at hp <;> simp [Phase.work]
    exact hend w _ 0 rfl rfl (Nat.le_refl _) hphase
  | subscribe hp hgranted =>
    exact work_lt_of_phase 0 1 hx rfl rfl (Backend.work_watch_ok hgranted) (by rw [hp]; simp [Phase.work])
  | refused hp hgranted =>
    exact hend _ _ 0 rfl rfl (Nat.le_of_eq (Backend.work_watch_error hgranted)) (by rw [hp]; simp [Phase.work])
  | crash hp hgranted =>
    exact work_lt_of_phase 0 0 hx rfl rfl (Nat.le_of_eq (Backend.work_watch_error hgranted))
      (by rw [hp]; simp [Phase.work])
  | @value _ _ _ _ _ _ r changed hp hgot =>
    have hreceived := Backend.work_receive_item hgot
    refine work_lt_of_phase queuedEventWork 0 hx rfl rfl (Nat.le_of_eq hreceived) ?_
    rw [hp]
    cases changed <;> simp [Phase.work, queuedEventWork]
  | unmadeValue hp hgot =>
    have hreceived := Backend.work_receive_item hgot
    exact hend _ _ queuedEventWork rfl rfl (Nat.le_of_eq hreceived) (by rw [hp]; simp [Phase.work, queuedEventWork])
  | failure hp hgot =>
    have hreceived := Backend.work_receive_item hgot
    exact hend _ _ queuedEventWork rfl rfl (Nat.le_of_eq hreceived) (by rw [hp]; simp [Phase.work, queuedEventWork])
  | ended hp =>
    exact work_lt_of_phase 0 0 hx rfl rfl (w.work_endSession_le i x .done)
      (by rw [hp]; simp [Phase.work, Session.afterEnd])
  | @report e hp =>
    have hsend := x.work_send (.error e.status) (.finished (.failed e))
    have hphase : x.phase.work = 3 := by rw [hp]; rfl
    have hfinished : (Phase.finished (.failed e) : Phase R).work = 0 := rfl
    exact work_lt_of_set 0 0 hx rfl rfl (Nat.le_refl _) (by omega)
  | unreported hp => exact work_lt_of_phase 0 0 hx rfl rfl (Nat.le_refl _) (by rw [hp]; simp [Phase.work])

/-! ### The work of watchers -/

/-- A step of a watcher lowers what it and its stream have ahead. -/
private theorem work_lt_of_setWatched {k : Nat} {a : Attachment R} {watcher : Watcher R} {source : Queue (Item R)}
    (ha : w.watchers[k]? = some a) (hx : w.sessions[a.session]? = some x)
    (hwork : 2 * source.items.length + watcher.work < 2 * x.replies.items.length + a.watcher.work) :
    (w.setWatched k a x watcher source).work < w.work := by
  have hwatchers : totalWork (·.watcher.work) (w.watchers.set k { a with watcher }) + a.watcher.work =
      totalWork (·.watcher.work) w.watchers + watcher.work := totalWork_set _ ha _
  have hsessions := totalWork_set Session.work hx { x with replies := source }
  have hx' : ({ x with replies := source } : Session R).work + 2 * x.replies.items.length =
      x.work + 2 * source.items.length := by
    simp only [Session.work]
    omega
  change w.store.work + totalWork Session.work (w.sessions.set a.session { x with replies := source }) +
      totalWork (·.watcher.work) (w.watchers.set k { a with watcher }) <
    w.store.work + totalWork Session.work w.sessions + totalWork (·.watcher.work) w.watchers
  omega

end World

namespace Watcher

variable {a a' : Watcher R} {source source' : Queue (Item R)} {open_ : Bool}

theorem work_stop_lt (h : a.finished = false) : a.stop.work < a.work := by
  simp [work, stop, h]

theorem Pulls.work_lt (h : a.Pulls source open_ a' source') (hrunning : a.finished = false) :
    2 * source'.items.length + a'.work < 2 * source.items.length + a.work := by
  cases h with
  | deliver hheld => simp [work, hheld]
  | desert =>
    have := work_stop_lt hrunning
    rw [Queue.items_drop, List.length_nil]
    omega
  | take hheld hitems =>
    simp only [work, hheld, hitems, List.length_cons]
    simp
    omega
  | @fail s =>
    have := work_stop_lt (a := { a with error := some s }) hrunning
    have herror : ({ a with error := some s } : Watcher R).work = a.work := rfl
    rw [Queue.items_drop, List.length_nil]
    omega
  | finish =>
    have := work_stop_lt hrunning
    rw [Queue.items_drop, List.length_nil]
    omega

end Watcher

/-! ### Rest is reached -/

namespace World

variable {make : Maker V R σ} {w w' : World V R σ}

/-- Every turn lowers the work ahead. -/
theorem work_lt {t : Turn} (h : w.turn? make t = some w') : w'.work < w.work := by
  have hdismissed : ∀ x : Session R, x.monitored = true → ({ x with monitored := false } : Session R).work < x.work :=
    fun x hmonitored => by simp [Session.work, hmonitored]
  cases turned_of_turn? h with
  | flush hflushed => exact Nat.add_lt_add_right (Nat.add_lt_add_right (Backend.work_flush?_lt hflushed) _) _
  | release hreleased => exact Nat.add_lt_add_right (Nat.add_lt_add_right (Backend.work_release?_lt hreleased) _) _
  | advance hx hadvances => exact hadvances.work_lt hx
  | @abandon i x hx habandonable =>
    have hphase : 0 < x.phase.work := by
      cases hp : x.phase <;> simp [hp, Phase.isAbandonable] at habandonable <;> simp [Phase.work]
    exact work_lt_of_phase 0 0 hx rfl rfl (w.work_endSession_le i x .done) hphase
  | desert hx hmonitored => exact work_lt_of_set 0 0 hx rfl rfl (Nat.le_refl _) (hdismissed _ hmonitored)
  | dismiss hx hmonitored => exact work_lt_of_set 0 0 hx rfl rfl (Nat.le_refl _) (hdismissed _ hmonitored)
  | pull ha hx hpulled =>
    obtain ⟨hrunning, hpulls⟩ := Watcher.pulls_of_pull? hpulled
    exact work_lt_of_setWatched ha hx (hpulls.work_lt hrunning)
  | @quit _ a _ ha hx hrunning =>
    have := Watcher.work_stop_lt hrunning
    refine work_lt_of_setWatched ha hx ?_
    change 2 * 0 + a.watcher.stop.work < _
    omega

/-- Whatever turns are taken, they come to an end. -/
theorem exists_runs_atRest (make : Maker V R σ) (w : World V R σ) : ∃ w', Runs make w w' ∧ AtRest make w' := by
  by_cases hrest : AtRest make w
  · exact ⟨w, .refl w, hrest⟩
  · obtain ⟨t, ht⟩ := Classical.not_forall.1 hrest
    obtain ⟨v, hv⟩ := Option.ne_none_iff_exists'.1 ht
    have := work_lt hv
    obtain ⟨w', hruns, hrest'⟩ := exists_runs_atRest make v
    exact ⟨w', .turn t hv hruns, hrest'⟩
termination_by w.work

theorem Runs.trans {u v w : World V R σ} (h : Runs make u v) (h' : Runs make v w) : Runs make u w := by
  induction h with
  | refl => exact h'
  | turn t ht _ ih => exact .turn t ht (ih h')

/-! ### Settling is a run -/

theorem runs_runTask (t : Task) (n : Nat) (w : World V R σ) : Runs make w (runTask make t n w) := by
  induction n generalizing w with
  | zero => exact .refl w
  | succ n ih =>
    rw [runTask]
    cases hstep : step? make w t with
    | none => exact .refl w
    | some w' =>
      obtain ⟨turn, -, hturn⟩ := List.exists_of_findSome?_eq_some hstep
      exact .turn turn hturn (ih w')

theorem runs_round (w : World V R σ) : Runs make w (round make w) := by
  unfold round
  generalize w.tasks = ts
  induction ts generalizing w with
  | nil => exact .refl w
  | cons t ts ih => exact (runs_runTask t w.work w).trans (ih _)

theorem runs_settle (make : Maker V R σ) (w : World V R σ) : Runs make w (settle make w) := by
  unfold settle
  generalize w.work = n
  induction n generalizing w with
  | zero => exact .refl w
  | succ n ih =>
    rw [settleFor]
    split
    · exact .refl w
    · exact (runs_round w).trans (ih _)

/-- Where every session's event stream exists, no turn is forgotten in the list of tasks. -/
theorem atRest_of_isAtRest (h : isAtRest make w = true)
    (hstreams : ∀ x ∈ w.sessions, ∀ id ∈ x.phase.stream?, id < w.store.streams.length) : AtRest make w := by
  have hnone : ∀ task ∈ w.tasks, ∀ t ∈ task.turns, w.turn? make t = none := by
    intro task htask t ht
    have hstep := List.all_eq_true.1 h task htask
    rw [Option.isNone_iff_eq_none] at hstep
    exact List.findSome?_eq_none_iff.1 hstep t ht
  have hsession : ∀ i t, t ∈ (Task.session i).turns → i < w.sessions.length → w.turn? make t = none := by
    intro i t ht hi
    refine hnone (.session i) ?_ t ht
    have hmem : i ∈ w.sessionOrder := by
      unfold sessionOrder
      rw [List.mem_append]
      cases hs : w.sessions[i].phase.stream? with
      | none => exact Or.inr (by simp [hi, hs])
      | some id =>
        have hid := hstreams _ (List.getElem_mem hi) id hs
        exact Or.inl (by simp [hi, hs, hid])
    simp [tasks, hmem]
  -- a turn of a session or watcher that there is not is none
  have houtside : ∀ {i : Nat} (f : Session R → Option (World V R σ)), ¬ i < w.sessions.length →
      w.sessions[i]?.bind f = none := by
    intro i f hi
    rw [List.getElem?_eq_none (by omega), Option.bind_none]
  intro t
  cases t with
  | flush id =>
    by_cases hid : id < w.store.streams.length
    · exact hnone (.flush id) (by simp [tasks, hid]) _ (by simp [Task.turns])
    · rw [turn?, Backend.flush?, List.getElem?_eq_none (by omega)]
      rfl
  | release id =>
    by_cases hid : id < w.store.streams.length
    · exact hnone (.release id) (by simp [tasks, hid]) _ (by simp [Task.turns])
    · rw [turn?]
      cases hb : w.store with
      | memory s =>
        rw [hb] at hid
        have hnone : s.streams[id]? = none := List.getElem?_eq_none (Nat.le_of_not_lt hid)
        rw [Backend.release?, MemoryStore.release?, hnone]
        rfl
      | scripted s => rfl
  | advance i =>
    by_cases hi : i < w.sessions.length
    · exact hsession i _ (by simp [Task.turns]) hi
    · exact houtside _ hi
  | abandon i =>
    by_cases hi : i < w.sessions.length
    · exact hsession i _ (by simp [Task.turns]) hi
    · exact houtside _ hi
  | monitor i =>
    by_cases hi : i < w.sessions.length
    · exact hnone (.monitor i) (by simp [tasks, hi]) _ (by simp [Task.turns])
    · exact houtside _ hi
  | pull k =>
    by_cases hk : k < w.watchers.length
    · exact hnone (.watcher k) (by simp [tasks, hk]) _ (by simp [Task.turns])
    · rw [turn?, List.getElem?_eq_none (by omega)]
      rfl
  | quit k =>
    by_cases hk : k < w.watchers.length
    · exact hnone (.watcher k) (by simp [tasks, hk]) _ (by simp [Task.turns])
    · rw [turn?, List.getElem?_eq_none (by omega)]
      rfl

/-- The world after all tasks went on, if `isAtRest` tells that it is at rest. -/
def settled? (make : Maker V R σ) (w : World V R σ) : Option (World V R σ) :=
  (some (settle make w)).filter fun w =>
    isAtRest make w ∧ ∀ x ∈ w.sessions, ∀ id ∈ x.phase.stream?, id < w.store.streams.length

theorem of_settled? (h : settled? make w = some w') : Runs make w w' ∧ AtRest make w' := by
  obtain ⟨hw, hrest⟩ := Option.filter_eq_some_iff.1 h
  rw [decide_eq_true_iff] at hrest
  obtain rfl := Option.some.inj hw
  exact ⟨runs_settle make w, atRest_of_isAtRest hrest.1 hrest.2⟩

end World

end ResourceWatch

import ResourceWatch.Proofs.Watch.Advances
import ResourceWatch.Proofs.Watch.Hall
import ResourceWatch.Proofs.Watch.Receiving

/-!
# Readers of replies

The replies of a served session are read by whoever has its stream, or by a watcher on it.  A receive task that stops
lets go of the stream, and a consumer that goes has its watcher's token fired (`World.Attended`).  So at rest, where
every receive task has heeded its token, a stream that is still held has no watcher on it but such as are at work,
have their consumers and are not cancelled (`World.IsRead`).
-/

namespace ResourceWatch

variable {Q V R σ : Type}

/-- The turns of a session leave its receiver where it is. -/
theorem Session.Proceeds.receiving_eq {x x' : Session R} {tokens tokens' : Tokens}
    (h : x.Proceeds tokens x' tokens') : x'.replies.receiving = x.replies.receiving := by
  cases h <;> rfl

/-- A step of the receive task keeps the token and the consumer, and a stream that it still holds was held, by a task
that goes on. -/
theorem Watcher.Pulls.keeps {w w' : Watcher R} {source source' : Queue (Item R)} {open_ : Bool}
    (h : w.Pulls source open_ w' source') (hrunning : w.finished = false) :
    w'.token = w.token ∧ w'.queue.receiving = w.queue.receiving ∧
      (source'.receiving = true → source.receiving = true ∧ w'.finished = false) := by
  cases h with
  | deliver => exact ⟨rfl, rfl, fun hheld => ⟨hheld, hrunning⟩⟩
  | desert => exact ⟨rfl, rfl, fun hheld => by simp [Queue.drop] at hheld⟩
  | take => exact ⟨rfl, rfl, fun hheld => ⟨hheld, hrunning⟩⟩
  | fail => exact ⟨rfl, rfl, fun hheld => by simp [Queue.drop] at hheld⟩
  | finish => exact ⟨rfl, rfl, fun hheld => by simp [Queue.drop] at hheld⟩

namespace World

/-- Every watcher is on a session that there is; its receive task has not stopped while the stream is held; and its
token was fired if its consumer is gone. -/
structure Attended (w : World V R σ) : Prop where
  session_lt : ∀ a ∈ w.watchers, a.session < w.sessions.length
  running : ∀ a ∈ w.watchers, ∀ x, w.sessions[a.session]? = some x → x.replies.receiving = true →
    a.watcher.finished = false
  deserted : ∀ a ∈ w.watchers, a.watcher.queue.receiving = false → w.tokens.isCancelled a.watcher.token = true

/-- The stream of session `i` is held, and each watcher on it is at work for a consumer that has not gone and did not
cancel it. -/
structure IsRead (w : World V R σ) (i : Nat) (x : Session R) : Prop where
  held : x.replies.receiving = true
  watched : ∀ a ∈ w.watchers, a.session = i →
    a.watcher.finished = false ∧ a.watcher.queue.receiving = true ∧ w.tokens.isCancelled a.watcher.token = false

variable {make : Maker V R σ} {w w' : World V R σ} {i k : Nat} {x x' : Session R} {a : Attachment R}

/-! ### What keeps watchers attended -/

/-- Sessions are added or go on, none with a receiver that it had lost, and the watchers stay as they are. -/
theorem Attended.of_sessions (h : w.Attended) (hwatchers : w'.watchers = w.watchers)
    (htokens : ∀ t, w.tokens.isCancelled t = true → w'.tokens.isCancelled t = true)
    (hsessions : ∀ (i : Nat) (x : Session R), w.sessions[i]? = some x →
      ∃ x', w'.sessions[i]? = some x' ∧ (x'.replies.receiving = true → x.replies.receiving = true)) :
    w'.Attended := by
  refine ⟨fun a ha => ?_, fun a ha y hy hheld => ?_, fun a ha hgone => ?_⟩ <;> rw [hwatchers] at ha
  · obtain ⟨x', hx', -⟩ := hsessions a.session _ (List.getElem?_eq_getElem (h.session_lt a ha))
    exact (List.getElem?_eq_some_iff.1 hx').1
  · have hx := List.getElem?_eq_getElem (h.session_lt a ha)
    obtain ⟨x', hx', hreceiving⟩ := hsessions a.session _ hx
    obtain rfl : x' = y := Option.some.inj (hx'.symm.trans hy)
    exact h.running a ha _ hx (hreceiving hheld)
  · exact htokens _ (h.deserted a ha hgone)

/-- No session and no watcher changes. -/
theorem Attended.of_same (h : w.Attended) (hsessions : w'.sessions = w.sessions)
    (hwatchers : w'.watchers = w.watchers)
    (htokens : ∀ t, w.tokens.isCancelled t = true → w'.tokens.isCancelled t = true) : w'.Attended :=
  h.of_sessions hwatchers htokens fun i x hx => ⟨x, by rw [hsessions, hx], id⟩

/-- One session changes. -/
theorem Attended.of_set (h : w.Attended) (hx : w.sessions[i]? = some x)
    (hsessions : w'.sessions = w.sessions.set i x')
    (hheld : x'.replies.receiving = true → x.replies.receiving = true) (hwatchers : w'.watchers = w.watchers)
    (htokens : ∀ t, w.tokens.isCancelled t = true → w'.tokens.isCancelled t = true) : w'.Attended := by
  refine h.of_sessions hwatchers htokens fun j y hy => ?_
  by_cases hij : i = j
  · subst hij
    obtain rfl : x = y := Option.some.inj (hx.symm.trans hy)
    exact ⟨x', by rw [hsessions, List.getElem?_set_self (List.getElem?_eq_some_iff.1 hx).1], hheld⟩
  · exact ⟨y, by rw [hsessions, List.getElem?_set_ne hij, hy], id⟩

/-- A watcher took a step on the replies of its session, or on its own queue. -/
theorem Attended.of_watched (h : w.Attended) (ha : w.watchers[k]? = some a) (hx : w.sessions[a.session]? = some x)
    {watcher : Watcher R} {source : Queue (Item R)} (htoken : watcher.token = a.watcher.token)
    (hqueue : watcher.queue.receiving = a.watcher.queue.receiving)
    (hheld : source.receiving = true → x.replies.receiving = true ∧ watcher.finished = false) :
    (w.setWatched k a x watcher source).Attended := by
  have hmem := List.mem_of_getElem? ha
  have hlt := h.session_lt a hmem
  refine ⟨fun b hb => ?_, fun b hb y hy hreceiving => ?_, fun b hb hgone => ?_⟩
  · rw [setWatched, setSession, List.length_set]
    rcases List.mem_or_eq_of_mem_set hb with hb | rfl
    · exact h.session_lt b hb
    · exact hlt
  · have hold : ∀ b ∈ w.watchers, b.session = a.session → source.receiving = true → b.watcher.finished = false :=
      fun b hb hsession hsource => h.running b hb x (by rw [hsession, hx]) (hheld hsource).1
    change (w.sessions.set a.session { x with replies := source })[b.session]? = some y at hy
    rcases List.mem_or_eq_of_mem_set hb with hb | rfl
    · by_cases hsession : b.session = a.session
      · rw [hsession, List.getElem?_set_self hlt] at hy
        obtain rfl := Option.some.inj hy
        exact hold b hb hsession hreceiving
      · rw [List.getElem?_set_ne (Ne.symm hsession)] at hy
        exact h.running b hb y hy hreceiving
    · rw [List.getElem?_set_self hlt] at hy
      obtain rfl := Option.some.inj hy
      exact (hheld hreceiving).2
  · rcases List.mem_or_eq_of_mem_set hb with hb | rfl
    · exact h.deserted b hb hgone
    · change w.tokens.isCancelled watcher.token = true
      rw [htoken]
      exact h.deserted a hmem (hqueue.symm.trans hgone)

/-- A watcher changes while the sessions stay as they are. -/
theorem Attended.of_watcher (h : w.Attended) (ha : w.watchers[k]? = some a) {watcher : Watcher R} {tokens : Tokens}
    (hfinished : watcher.finished = a.watcher.finished)
    (htokens : ∀ t, w.tokens.isCancelled t = true → tokens.isCancelled t = true)
    (hgone : watcher.queue.receiving = false → tokens.isCancelled watcher.token = true) :
    { w with tokens, watchers := w.watchers.set k { a with watcher } }.Attended := by
  have hmem := List.mem_of_getElem? ha
  refine ⟨fun b hb => ?_, fun b hb y hy hheld => ?_, fun b hb hdropped => ?_⟩ <;>
    rcases List.mem_or_eq_of_mem_set hb with hb | rfl
  · exact h.session_lt b hb
  · exact h.session_lt a hmem
  · exact h.running b hb y hy hheld
  · exact hfinished.trans (h.running a hmem y hy hheld)
  · exact htokens _ (h.deserted b hb hdropped)
  · exact hgone hdropped

/-- Every turn leaves watchers attended. -/
theorem Attended.of_turn? (h : w.Attended) {t : Turn} (hturn : w.turn? make t = some w') : w'.Attended := by
  have hfired : ∀ u t : Token, w.tokens.isCancelled t = true → (w.tokens.cancel u).isCancelled t = true := by
    intro u t ht
    rw [Tokens.isCancelled_cancel, ht, Bool.or_true]
  cases turned_of_turn? hturn with
  | flush => exact h.of_same rfl rfl fun _ => id
  | release => exact h.of_same rfl rfl fun _ => id
  | advance hx hadvances =>
    obtain ⟨x', hproceeds, hsessions, hwatchers⟩ := hadvances.proceeds
    exact h.of_set hx hsessions (fun hheld => hproceeds.receiving_eq ▸ hheld) hwatchers fun _ => hproceeds.isCancelled
  | abandon hx => exact h.of_set hx rfl id rfl (hfired _)
  | desert hx => exact h.of_set hx rfl id rfl (hfired _)
  | dismiss hx => exact h.of_set hx rfl id rfl fun _ => id
  | pull ha hx hpulled =>
    obtain ⟨hrunning, hpulls⟩ := Watcher.pulls_of_pull? hpulled
    obtain ⟨htoken, hqueue, hheld⟩ := hpulls.keeps hrunning
    exact h.of_watched ha hx htoken hqueue hheld
  | quit ha hx => exact h.of_watched ha hx rfl rfl fun hheld => by simp [Queue.drop] at hheld

theorem Attended.mutate [Inhabited V] (h : w.Attended) (m : Mutation V) : (w.mutate m).Attended := by
  unfold World.mutate
  split
  · exact h.of_same rfl rfl fun _ => id
  · exact h

/-- At rest a stream that is held has only watchers on it that are in use. -/
theorem Attended.isRead (h : w.Attended) (hrest : w.AtRest make) (hx : w.sessions[i]? = some x)
    (hheld : x.replies.receiving = true) : w.IsRead i x := by
  refine ⟨hheld, fun a ha hsession => ?_⟩
  subst hsession
  have hrunning := h.running a ha x hx hheld
  obtain ⟨k, hk⟩ := List.mem_iff_getElem?.1 ha
  have hquit := hrest (.quit k)
  simp only [turn?, hk, hx, Option.bind_eq_bind, Option.bind_some, Option.pure_def, Option.bind_eq_none_iff,
    reduceCtorEq, imp_false] at hquit
  have huncancelled := Watcher.uncancelled_of_quit?_eq_none (Option.eq_none_iff_forall_ne_some.2 hquit) hrunning
  refine ⟨hrunning, ?_, huncancelled⟩
  cases hqueue : a.watcher.queue.receiving with
  | true => rfl
  | false => simp [h.deserted a ha hqueue] at huncancelled

end World

namespace Hall

variable {make : Maker V R σ} {h : Hall V R σ}

theorem attended_empty (eventBuffer : Nat) : (Hall.empty eventBuffer : Hall V R σ).world.Attended := by
  constructor <;> simp [Hall.empty]

variable [Inhabited V]

/-- Every act of a caller leaves watchers attended. -/
theorem attended_act (hattended : h.world.Attended) (a : HallAct Q V R σ) : (h.act a).world.Attended := by
  have hfired : ∀ u t : Token, h.world.tokens.isCancelled t = true →
      (h.world.tokens.cancel u).isCancelled t = true := by
    intro u t ht
    rw [Tokens.isCancelled_cancel, ht, Bool.or_true]
  have hacted := h.acted_act a
  generalize h.act a = h' at hacted ⊢
  cases hacted with
  | nothing => exact hattended
  | mutate m => exact hattended.mutate m
  | context => exact hattended.of_same rfl rfl fun _ => id
  | cancel => exact hattended.of_same rfl rfl (hfired _)
  | maker => exact hattended.of_same rfl rfl fun _ => id
  | get => exact hattended.of_same rfl rfl fun _ => id
  | serve =>
    refine hattended.of_sessions rfl (fun _ => id) fun i x hx => ⟨x, ?_, id⟩
    exact (List.getElem?_append_left (List.getElem?_eq_some_iff.1 hx).1).trans hx
  | receive hx => exact hattended.of_set hx rfl id rfl fun _ => id
  | dropReplies hx => exact hattended.of_set hx rfl (fun hheld => by simp [Queue.drop] at hheld) rfl fun _ => id
  | attach _ hlt =>
    refine ⟨fun b hb => ?_, fun b hb y hy hheld => ?_, fun b hb hgone => ?_⟩ <;>
      rcases List.mem_append.1 hb with hb | hb
    · exact hattended.session_lt b hb
    · rw [List.mem_singleton.1 hb]
      exact hlt
    · exact hattended.running b hb y hy hheld
    · rw [List.mem_singleton.1 hb]
    · exact hattended.deserted b hb hgone
    · rw [List.mem_singleton.1 hb] at hgone
      simp at hgone
  | attachTooLarge => exact hattended.of_same rfl rfl fun _ => id
  | next ha =>
    exact hattended.of_watcher ha rfl (fun _ => id) (hattended.deserted _ (List.mem_of_getElem? ha))
  | cancelWatcher => exact hattended.of_same rfl rfl (hfired _)
  | dropWatcher ha =>
    exact hattended.of_watcher ha rfl (hfired _) fun _ => h.world.tokens.isCancelled_cancel_self _
  | subscribe => exact hattended.of_same rfl rfl fun _ => id
  | receiveEvent => exact hattended.of_same rfl rfl fun _ => id
  | dropEvents => exact hattended.of_same rfl rfl fun _ => id

theorem attended_of_reaches {h₀ : Hall V R σ} (hattended : h₀.world.Attended) (hreaches : Reaches Q make h₀ h) :
    h.world.Attended := by
  induction hreaches with
  | refl => exact hattended
  | act _ a ih => exact attended_act ih a
  | turn _ _ hturn ih => exact ih.of_turn? hturn

end Hall

end ResourceWatch

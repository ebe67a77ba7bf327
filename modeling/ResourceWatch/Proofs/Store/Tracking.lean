import ResourceWatch.Store.EventStream

/-!
# Tracking what is published

`Tracks`: the delivered events may skip published ones, but end on the latest one or on a failure, and never lack the
first failure.  A stream that is read tracks what is offered to it: an offer puts the event behind the others, or in
the place of the parked one, unless that is a failure.  Its flush task is under way exactly when an event is parked
(`EventStream.Sound`), so if that task has to wait, an event is parked only behind a full queue.
-/

namespace ResourceWatch

variable {V : Type}

/-! ### Published and delivered events -/

/-- The delivered events are some of the published ones in their order, the last of them is the latest one or a
failure, and the first failure is among them. -/
structure Tracks (published delivered : List (Event V)) : Prop where
  sublist : delivered.Sublist published
  last : published ≠ [] →
    ∃ e, delivered.getLast? = some e ∧ (published.getLast? = some e ∨ e.kind.isError = true)
  failure : ∀ e, published.find? (·.kind.isError) = some e → e ∈ delivered

namespace Tracks

theorem nil : Tracks ([] : List (Event V)) [] :=
  ⟨List.Sublist.refl _, fun h => absurd rfl h, fun _ h => by simp at h⟩

/-- A new event is delivered behind the others. -/
theorem snoc {published delivered : List (Event V)} (h : Tracks published delivered) (e : Event V) :
    Tracks (published ++ [e]) (delivered ++ [e]) := by
  refine ⟨h.sublist.append (List.Sublist.refl _), fun _ => ⟨e, by simp, by simp⟩, ?_⟩
  intro f hf
  rw [List.find?_append] at hf
  rcases hp : published.find? (·.kind.isError) with _ | g
  · rw [hp, Option.none_or] at hf
    have := List.mem_of_find?_eq_some hf
    exact List.mem_append_right _ this
  · rw [hp, Option.some_or, Option.some.injEq] at hf
    subst hf
    exact List.mem_append_left _ (h.failure _ hp)

/-- A new event takes the place of the last one, which was parked, unless that is a failure. -/
theorem supersede {published before : List (Event V)} {p : Event V} (h : Tracks published (before ++ [p]))
    (e : Event V) : Tracks (published ++ [e]) (before ++ [EventStream.supersede p e]) := by
  unfold EventStream.supersede
  by_cases hp : p.kind.isError = true
  · rw [if_pos hp]
    refine ⟨h.sublist.trans (List.sublist_append_left _ _), fun _ => ⟨p, by simp, Or.inr hp⟩, ?_⟩
    intro f hf
    -- the parked failure was published, so the first failure is an older one than `e`
    have hmem : p ∈ published := h.sublist.subset (by simp)
    rcases hq : published.find? (·.kind.isError) with _ | g
    · exact absurd hp (List.find?_eq_none.1 hq p hmem)
    · rw [List.find?_append, hq, Option.some_or, Option.some.injEq] at hf
      subst hf
      exact h.failure _ hq
  · rw [if_neg hp]
    have hbefore : before.Sublist published := (List.sublist_append_left _ _).trans h.sublist
    refine ⟨hbefore.append (List.Sublist.refl _), fun _ => ⟨e, by simp, by simp⟩, ?_⟩
    intro f hf
    rw [List.find?_append] at hf
    rcases hq : published.find? (·.kind.isError) with _ | g
    · rw [hq, Option.none_or] at hf
      exact List.mem_append_right _ (List.mem_of_find?_eq_some hf)
    · rw [hq, Option.some_or, Option.some.injEq] at hf
      subst hf
      have hg := h.failure _ hq
      rw [List.mem_append, List.mem_singleton] at hg
      rcases hg with hg | rfl
      · exact List.mem_append_left _ hg
      · exact absurd (List.find?_some hq) hp

end Tracks

/-! ### One stream -/

theorem EventKind.value?_of_isError {k : EventKind V} (h : k.isError = false) : ∃ v, k.value? = some v := by
  cases k with
  | put v => exact ⟨v, rfl⟩
  | delete v => exact ⟨v, rfl⟩
  | error text => simp [isError] at h

namespace EventStream

/-- The queue keeps to its capacity, and as long as the stream is read its flush task is under way exactly when an
event is parked. -/
structure Sound (capacity : Nat) (s : EventStream V) : Prop where
  capacity_eq : s.queue.capacity = capacity
  length_le : s.queue.items.length ≤ capacity
  flushing_eq : s.queue.receiving = true → s.flushing = s.parked.isSome

/-- What an offer does to a stream that is read. -/
theorem offer_cases {s : EventStream V} (e : Event V) (hr : s.queue.receiving = true) :
    (∃ p, s.parked = some p ∧ s.offer e = { s with parked := some (supersede p e), attached := true }) ∨
    (s.parked = none ∧ s.queue.hasRoom = true ∧ s.offer e = { s with queue := s.queue.push e }) ∨
    (s.parked = none ∧ s.queue.hasRoom = false ∧ s.offer e = { s with parked := some e, flushing := true }) := by
  unfold offer
  cases hp : s.parked with
  | some p => exact Or.inl ⟨p, rfl, by rw [hr]⟩
  | none =>
    right
    cases hroom : s.queue.hasRoom with
    | true => exact Or.inl ⟨rfl, rfl, by simp [hr]⟩
    | false => exact Or.inr ⟨rfl, rfl, by simp [hr]⟩

theorem key_offer (s : EventStream V) (e : Event V) : (s.offer e).key = s.key := by
  unfold offer detach
  split
  · rfl
  · split
    · rfl
    · split <;> rfl

theorem receiving_offer (s : EventStream V) (e : Event V) : (s.offer e).queue.receiving = s.queue.receiving := by
  unfold offer detach
  split
  · rfl
  · split
    · rfl
    · split <;> rfl

theorem attached_offer {s : EventStream V} (hr : s.queue.receiving = true) (ha : s.attached = true) (e : Event V) :
    (s.offer e).attached = true := by
  rcases offer_cases e hr with ⟨p, -, heq⟩ | ⟨-, -, heq⟩ | ⟨-, -, heq⟩
  · rw [heq]
  · rw [heq]
    exact ha
  · rw [heq]
    exact ha

theorem Sound.offer {capacity : Nat} {s : EventStream V} (h : s.Sound capacity) (e : Event V) :
    (s.offer e).Sound capacity := by
  cases hr : s.queue.receiving with
  | true =>
    rcases offer_cases e hr with ⟨p, hp, heq⟩ | ⟨hp, hroom, heq⟩ | ⟨hp, -, heq⟩
    · rw [heq]
      exact ⟨h.capacity_eq, h.length_le, fun _ => by simp [h.flushing_eq hr, hp]⟩
    · rw [heq]
      refine ⟨h.capacity_eq, ?_, fun _ => h.flushing_eq hr⟩
      have hlt : s.queue.items.length < s.queue.capacity := by simpa [Queue.hasRoom] using hroom
      have := h.capacity_eq
      simp only [Queue.items_push, List.length_append, List.length_singleton]
      omega
    · rw [heq]
      exact ⟨h.capacity_eq, h.length_le, fun _ => rfl⟩
  | false =>
    have hq : (s.offer e).queue = s.queue := by
      unfold EventStream.offer detach
      split
      · rfl
      · rw [if_pos (by simp [hr])]
    refine ⟨by rw [hq]; exact h.capacity_eq, by rw [hq]; exact h.length_le, fun hr' => ?_⟩
    rw [receiving_offer, hr] at hr'
    exact absurd hr' (by simp)

/-- What a flush does. -/
theorem flush?_cases {s t : EventStream V} (h : s.flush? = some t) :
    t.key = s.key ∧ t.queue.receiving = s.queue.receiving ∧ t.flushing = false ∧
      ∀ capacity, s.Sound capacity → t.Sound capacity := by
  unfold flush? at h
  split at h
  · simp at h
  · split at h
    · rename_i hr
      simp only [Option.some.injEq] at h
      subst h
      have hr : s.queue.receiving = false := by simpa using hr
      exact ⟨rfl, rfl, rfl, fun _ hs => ⟨hs.capacity_eq, hs.length_le, fun hr' => by simp [hr] at hr'⟩⟩
    · split at h
      · simp at h
      · rename_i hroom
        have hlt : s.queue.items.length < s.queue.capacity := by simpa [Queue.hasRoom] using hroom
        split at h
        · rename_i hp
          simp only [Option.some.injEq] at h
          subst h
          exact ⟨rfl, rfl, rfl, fun _ hs => ⟨hs.capacity_eq, hs.length_le, fun _ => by simp [hp]⟩⟩
        · simp only [Option.some.injEq] at h
          subst h
          refine ⟨rfl, rfl, rfl, fun _ hs => ⟨hs.capacity_eq, ?_, fun _ => rfl⟩⟩
          have := hs.capacity_eq
          simp only [Queue.items_push, List.length_append, List.length_singleton]
          omega

/-- A flush task that went on has no more to do. -/
theorem flush?_flush? (s : EventStream V) : (s.flush?.getD s).flush? = none := by
  cases h : s.flush? with
  | none => exact h
  | some t =>
    rw [Option.getD_some, flush?, (flush?_cases h).2.2.1]
    rfl

theorem ahead_flush? (s : EventStream V) : (s.flush?.getD s).ahead = s.ahead := by
  cases h : s.flush? with
  | none => rfl
  | some t => exact ahead_of_flush? h

theorem receiving_flush? (s : EventStream V) : (s.flush?.getD s).queue.receiving = s.queue.receiving := by
  cases h : s.flush? with
  | none => rfl
  | some t => exact (flush?_cases h).2.1

theorem attached_flush? (s : EventStream V) : (s.flush?.getD s).attached = s.attached := by
  unfold flush?
  split
  · rfl
  · split
    · rfl
    · split
      · rfl
      · split <;> rfl

theorem key_flush? (s : EventStream V) : (s.flush?.getD s).key = s.key := by
  cases h : s.flush? with
  | none => rfl
  | some t => exact (flush?_cases h).1

/-- A receive that gets an event takes it off the head of what is ahead. -/
theorem receive_item {s : EventStream V} {e : Event V} (h : s.receive.1 = .item e) :
    s.ahead = e :: s.receive.2.ahead :=
  ahead_of_receive_item (Prod.ext h rfl)

/-- A receive that gets nothing leaves the stream as it is: its queue is empty. -/
theorem receive_none {s : EventStream V} (h : ∀ e, s.receive.1 ≠ .item e) :
    s.queue.items = [] ∧ s.receive.2 = s := by
  unfold receive Queue.receive at h ⊢
  cases hq : s.queue.items with
  | nil => exact ⟨rfl, rfl⟩
  | cons e rest =>
    simp only [hq] at h
    exact absurd rfl (h e)

theorem Sound.receive {capacity : Nat} {s : EventStream V} (h : s.Sound capacity) : s.receive.2.Sound capacity := by
  unfold EventStream.receive Queue.receive
  cases hq : s.queue.items with
  | nil => exact h
  | cons e rest =>
    have hle := h.length_le
    rw [hq, List.length_cons] at hle
    exact ⟨h.capacity_eq, by simp only; omega, h.flushing_eq⟩

theorem key_receive (s : EventStream V) : s.receive.2.key = s.key := rfl

theorem receiving_receive (s : EventStream V) : s.receive.2.queue.receiving = s.queue.receiving := by
  unfold receive Queue.receive
  cases s.queue.items <;> rfl

theorem Sound.drop {capacity : Nat} {s : EventStream V} (h : s.Sound capacity) : s.drop.Sound capacity :=
  ⟨h.capacity_eq, by simp [EventStream.drop], fun hr => by simp [EventStream.drop, Queue.drop] at hr⟩

/-- If the flush task of a stream that is read has to wait, an event is parked only behind a full queue. -/
theorem Sound.length_eq_of_parked {capacity : Nat} {s : EventStream V} (h : s.Sound capacity)
    (hr : s.queue.receiving = true) (hrest : s.flush? = none) (hp : s.parked.isSome = true) :
    s.queue.items.length = capacity := by
  have hf : s.flushing = true := by rw [h.flushing_eq hr, hp]
  have hroom : s.queue.hasRoom = false := by
    cases hroom : s.queue.hasRoom with
    | false => rfl
    | true =>
      unfold flush? at hrest
      simp only [hf, hr, hroom, Bool.not_true, Bool.false_eq_true, if_false] at hrest
      split at hrest <;> simp at hrest
  have hge : ¬ s.queue.items.length < s.queue.capacity := by simpa [Queue.hasRoom] using hroom
  have := h.capacity_eq
  have := h.length_le
  omega

/-- If the flush task has to wait and the queue is empty, no event is ahead. -/
theorem Sound.ahead_eq_nil {capacity : Nat} {s : EventStream V} (h : s.Sound capacity) (hpos : 0 < capacity)
    (hr : s.queue.receiving = true) (hrest : s.flush? = none) (hempty : s.queue.items = []) : s.ahead = [] := by
  cases hp : s.parked with
  | none => simp [ahead, hempty, hp]
  | some p =>
    have := h.length_eq_of_parked hr hrest (by rw [hp]; rfl)
    rw [hempty, List.length_nil] at this
    omega

/-- At rest a receive takes the first of the events ahead, if there is one. -/
theorem Sound.ahead_receive {capacity : Nat} {s : EventStream V} (h : s.Sound capacity) (hpos : 0 < capacity)
    (hr : s.queue.receiving = true) (hrest : s.flush? = none) : s.receive.2.ahead = s.ahead.tail := by
  by_cases hitem : ∃ e, s.receive.1 = .item e
  · obtain ⟨e, he⟩ := hitem
    rw [receive_item he, List.tail_cons]
  · have hnone := receive_none fun e he => hitem ⟨e, he⟩
    rw [hnone.2, h.ahead_eq_nil hpos hr hrest hnone.1]
    rfl

end EventStream

/-- A stream that is read goes on tracking when an event is offered to it. -/
theorem Tracks.offer {s : EventStream V} {published passed : List (Event V)}
    (h : Tracks published (passed ++ s.ahead)) (hr : s.queue.receiving = true) (e : Event V) :
    Tracks (published ++ [e]) (passed ++ (s.offer e).ahead) := by
  rcases EventStream.offer_cases e hr with ⟨p, hp, heq⟩ | ⟨hp, -, heq⟩ | ⟨hp, -, heq⟩
  · have hs : passed ++ s.ahead = (passed ++ s.queue.items) ++ [p] := by simp [EventStream.ahead, hp]
    rw [hs] at h
    have := h.supersede e
    rw [heq]
    simpa [EventStream.ahead] using this
  · have := h.snoc e
    rw [heq]
    simpa [EventStream.ahead, hp] using this
  · have := h.snoc e
    rw [heq]
    simpa [EventStream.ahead, hp] using this

end ResourceWatch

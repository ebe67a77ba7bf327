import ResourceWatch.Proofs.Store.Beside

/-!
# Events wait for their receiver

No act but a receive takes an event from the queue of a stream: what is queued stays in front, until the receiving end
is let go of.
-/

namespace ResourceWatch

variable {V : Type} [Inhabited V]

/-- What a queue holds stays in front, unless its receiver is let go of. -/
def EventStream.Waits (st st' : EventStream V) : Prop :=
  st.queue.items <+: st'.queue.items ∨ st'.queue.receiving = false

omit [Inhabited V] in
theorem EventStream.waits_offer (st : EventStream V) (e : Event V) : st.Waits (st.offer e) := by
  left
  unfold offer detach
  split
  · exact List.prefix_rfl
  · split
    · exact List.prefix_rfl
    · split
      · exact List.prefix_append _ _
      · exact List.prefix_rfl

omit [Inhabited V] in
theorem EventStream.waits_flush? (st : EventStream V) : st.Waits (st.flush?.getD st) := by
  left
  unfold flush?
  split
  · exact List.prefix_rfl
  · split
    · exact List.prefix_rfl
    · split
      · exact List.prefix_rfl
      · split
        · exact List.prefix_rfl
        · exact List.prefix_append _ _

namespace MemoryStore

variable {s s' : MemoryStore V} {id : Nat} {st : EventStream V}

omit [Inhabited V] in
private theorem waits_of_map (f : Nat → EventStream V → EventStream V)
    (hstreams : ∀ id, s'.streams[id]? = s.streams[id]?.map (f id)) (hst : s.streams[id]? = some st)
    (hf : st.Waits (f id st)) : ∃ st', s'.streams[id]? = some st' ∧ st.Waits st' :=
  ⟨_, by rw [hstreams, hst, Option.map_some], hf⟩

/-- Events wait for whoever receives from their stream. -/
theorem waits_act (hst : s.streams[id]? = some st) {a : StoreAct V} (ha : a ≠ .receive id) :
    ∃ st', (s.act a).1.streams[id]? = some st' ∧ st.Waits st' := by
  have hpublish : ∀ (values : Dictionary String V) (key : String) (kind : EventKind V),
      ∃ st', ({ s with values }.publish key kind).2.streams[id]? = some st' ∧ st.Waits st' := by
    intro values key kind
    refine waits_of_map _ ({ s with values }.getElem?_publish key kind) hst ?_
    split
    · exact st.waits_offer _
    · exact Or.inl List.prefix_rfl
  have hdetach : ∀ (ids : List Nat) (f : EventStream V → EventStream V), (∀ st, (f st).queue = st.queue) →
      ∃ st', (s.updateStreams ids f).streams[id]? = some st' ∧ st.Waits st' := by
    intro ids f hf
    refine waits_of_map _ (s.getElem?_updateStreams ids f) hst (Or.inl ?_)
    split
    · exact hf st ▸ List.prefix_rfl
    · exact List.prefix_rfl
  cases a with
  | put key value => exact hpublish _ key _
  | delete key =>
    simp only [act, delete]
    cases s.values.lookup key with
    | none => exact ⟨st, hst, Or.inl List.prefix_rfl⟩
    | some v => exact hpublish _ key _
  | fail key text => exact hpublish s.values key _
  | close key => exact hdetach _ _ fun _ => rfl
  | shutdown => exact hdetach _ _ fun _ => rfl
  | watch key token =>
    simp only [act]
    cases hw : s.watch key token with
    | error e => exact ⟨st, hst, Or.inl List.prefix_rfl⟩
    | ok granted =>
      obtain ⟨-, -, -, ⟨queue, -, hstreams⟩, -⟩ := watch_ok hw
      refine ⟨st, ?_, Or.inl List.prefix_rfl⟩
      rw [hstreams, List.getElem?_append_left (List.getElem?_eq_some_iff.1 hst).1, hst]
  | release tokens i =>
    simp only [act]
    rcases s.release?_cases tokens i with heq | ⟨key, heq⟩
    · rw [heq]
      exact ⟨st, hst, Or.inl List.prefix_rfl⟩
    · rw [heq]
      exact hdetach [i] _ fun _ => rfl
  | flush i =>
    refine waits_of_map _ (s.getElem?_flush? i) hst ?_
    split
    · exact st.waits_flush?
    · exact Or.inl List.prefix_rfl
  | receive i =>
    have hne : i ≠ id := fun hi => ha (by rw [hi])
    refine waits_of_map _ (s.getElem?_receive i) hst (Or.inl ?_)
    split
    · exact absurd ‹i = id› hne
    · exact List.prefix_rfl
  | dropReceiver i =>
    refine waits_of_map _ (s.getElem?_dropReceiver i) hst ?_
    split
    · exact Or.inr rfl
    · exact Or.inl List.prefix_rfl

end MemoryStore

theorem Chronicle.waits_acts {c : Chronicle V} {id : Nat} {st : EventStream V} (hst : c.store.streams[id]? = some st)
    {as : List (StoreAct V)} (has : .receive id ∉ as) :
    ∃ st', (c.acts as).store.streams[id]? = some st' ∧ st.Waits st' := by
  induction as generalizing c st with
  | nil => exact ⟨st, hst, Or.inl List.prefix_rfl⟩
  | cons a as ih =>
    rw [List.mem_cons, not_or] at has
    obtain ⟨st', hst', h⟩ := MemoryStore.waits_act hst (Ne.symm has.1)
    obtain ⟨st'', hst'', h'⟩ := ih (c := c.act a) hst' has.2
    refine ⟨st'', hst'', ?_⟩
    rcases h with h | hgone
    · exact h'.imp_left h.trans
    · -- a receiver that is gone does not come back
      obtain ⟨st₂, hst₂, hcontinues⟩ := Chronicle.continues_acts (c := c.act a) hst' as
      obtain rfl := Option.some.inj (hst₂.symm.trans hst'')
      exact Or.inr (by rw [hcontinues.receiving_eq, hgone, Bool.false_and])

end ResourceWatch

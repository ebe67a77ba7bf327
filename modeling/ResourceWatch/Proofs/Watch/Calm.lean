import ResourceWatch.Proofs.Watch.Lane

/-!
# Calm watches

The tasks of a watch take turns in any order (`Serving.Steps`), but this cannot be seen: two turns from a calm state
join (`Serving.Calm.joins`), so that a calm lane comes to rest in one way only (`Lane.eq_of_rests`).  A lane is calm
unless it is cancelled in the middle of its work, when a session that is told to stop may as well go on.
-/

namespace ResourceWatch

variable {V R σ : Type}

/-! ### Joining -/

namespace Serving

variable {make : Maker V R σ} {core : MemoryStore V} {s : Serving V R σ}

theorem isOpen_of_phase (h : s.worker.phase.isOpen = true) : s.isOpen = true := by rw [isOpen, h, Bool.true_or]

theorem joins_flush_advance {st st' : EventStream V} {k : Worker V R σ} {item : Option (Item R)}
    (hstream : s.worker.stream = some st) (hflushed : st.flush? = some st')
    (hacts : s.worker.act? make core = some (k, item)) (hroom : item.isSome = true → s.replies.hasRoom = true) :
    Lane.Joins make core (.serving (s.withStream st')) (.serving (s.worked k item)) := by
  obtain ⟨k', hacts', hnoticed⟩ := Worker.act?_of_flush? hstream hflushed hacts
  have hadvance : (s.withStream st').Steps make core (.serving ((s.withStream st').worked k' item)) :=
    .advance hacts' hroom
  cases hnoticed with
  | same => exact .of_step hadvance
  | flush hstream' hflushed' => exact .of_steps hadvance (.flush (s := s.worked k item) hstream' hflushed')

/-- A step of the receive task, and one of another task behind which the receive task can take the same step. -/
theorem joins_pull {t : Serving V R σ} {a a' : Watcher R} {source source' : Queue (Item R)}
    (hwatcher : t.watcher = some a) (hpulled : a.pull? t.replies t.isOpen = some (a', source'))
    (hbehind : a'.finished = false → ∃ t', t' = { t with watcher := some a', replies := source' } ∧
      ({ s with watcher := some a', replies := source } : Serving V R σ).Steps make core (.serving t')) :
    Lane.Joins make core (.serving t) (s.pulled a' source) := by
  have hpull : t.Steps make core (t.pulled a' source') := .pull hwatcher hpulled
  unfold pulled at hpull ⊢
  cases hfinished : a'.finished with
  | true =>
    rw [if_pos hfinished] at hpull
    rw [if_pos rfl]
    exact .of_step hpull
  | false =>
    rw [if_neg (by simp [hfinished])] at hpull
    rw [if_neg (by simp)]
    obtain ⟨t', rfl, hsteps⟩ := hbehind hfinished
    exact .of_steps hpull hsteps

theorem joins_flush_pull {st st' : EventStream V} {a a' : Watcher R} {source : Queue (Item R)}
    (hstream : s.worker.stream = some st) (hflushed : st.flush? = some st') (hwatcher : s.watcher = some a)
    (hpulled : a.pull? s.replies s.isOpen = some (a', source)) :
    Lane.Joins make core (.serving (s.withStream st')) (s.pulled a' source) :=
  joins_pull hwatcher hpulled fun _ => ⟨_, rfl, .flush hstream hflushed⟩

theorem joins_advance_pull {k : Worker V R σ} {item : Option (Item R)} {a a' : Watcher R} {source : Queue (Item R)}
    (hacts : s.worker.act? make core = some (k, item)) (hroom : item.isSome = true → s.replies.hasRoom = true)
    (hwatcher : s.watcher = some a) (hpulled : a.pull? s.replies s.isOpen = some (a', source)) :
    Lane.Joins make core (.serving (s.worked k item)) (s.pulled a' source) := by
  rw [isOpen_of_phase (Worker.isOpen_of_act? hacts)] at hpulled
  have hadvance : a'.finished = false → ({ s with watcher := some a', replies := source } : Serving V R σ).Steps make
      core (.serving (({ s with watcher := some a', replies := source } : Serving V R σ).worked k item)) :=
    fun hfinished => .advance hacts fun hitem => Watcher.hasRoom_of_pull? hpulled hfinished (hroom hitem)
  cases item with
  | none => exact joins_pull hwatcher (Watcher.pull?_closed hpulled _) fun hfinished => ⟨_, rfl, hadvance hfinished⟩
  | some item =>
    obtain ⟨source', hpulled', hsource⟩ := Watcher.pull?_push hpulled item
    exact joins_pull hwatcher (Watcher.pull?_closed hpulled' _) fun hfinished =>
      ⟨_, by rw [hsource hfinished]; rfl, hadvance hfinished⟩

theorem joins_dismiss_pull {a a' : Watcher R} {source : Queue (Item R)} (hmonitored : s.monitored = true)
    (hcancelled : s.worker.cancelled = true) (hwatcher : s.watcher = some a)
    (hpulled : a.pull? s.replies s.isOpen = some (a', source)) :
    Lane.Joins make core (.serving { s with monitored := false }) (s.pulled a' source) := by
  rw [isOpen, hmonitored, Bool.or_true] at hpulled
  exact joins_pull hwatcher (Watcher.pull?_closed hpulled _) fun _ => ⟨_, rfl, .dismiss hmonitored hcancelled⟩

/-! ### Calm -/

/-- The session waits for an event or for room, its flush task has nothing to do, and neither has the receive task. -/
structure Stalled (s : Serving V R σ) : Prop where
  waits : (∃ id, s.worker.phase = .awaiting id ∧ ∀ st, s.worker.stream = some st → st.queue.items = []) ∨
    ∃ r next, s.worker.phase.sends? = some (r, next) ∧ s.replies.hasRoom = false
  flushed : ∀ st, s.worker.stream = some st → st.flush? = none
  read : ∀ a, s.watcher = some a → a.pull? s.replies true = none

/-- Unless it is stalled, the session is not told to stop in the middle of its work. -/
structure Calm (s : Serving V R σ) : Prop where
  streaming : s.worker.Streaming
  stalled : s.worker.cancelled = true → s.worker.phase.isAtWork = true → s.Stalled
  staying : s.watcher.isSome = true → s.quitting = false

namespace Stalled

theorem isAbandonable (h : s.Stalled) : s.worker.phase.isAbandonable = true := by
  rcases h.waits with ⟨id, hp, -⟩ | ⟨r, next, hp, -⟩
  · rw [hp]
    rfl
  · cases hphase : s.worker.phase <;> simp [hphase, Phase.sends?, Phase.isAbandonable] at hp ⊢

/-- The only step that a stalled session can take is to end. -/
theorem eq_finish_of_act? (h : s.Stalled) {k : Worker V R σ} {item : Option (Item R)}
    (hacts : s.worker.act? make core = some (k, item)) (hroom : item.isSome = true → s.replies.hasRoom = true) :
    k = s.worker.finish .done ∧ item = none := by
  unfold Worker.act? at hacts
  rcases h.waits with ⟨id, hp, hitems⟩ | ⟨r, next, hp, hfull⟩
  · simp only [hp] at hacts
    cases hstream : s.worker.stream with
    | none => simp [hstream] at hacts
    | some st =>
      simp only [hstream, EventStream.receive, Queue.receive, hitems st hstream] at hacts
      cases hopen : st.isOpen with
      | true => simp [hopen] at hacts
      | false =>
        simp only [hopen, Bool.false_eq_true, if_false, Option.some.injEq, Prod.mk.injEq] at hacts
        exact ⟨hacts.1.symm, hacts.2.symm⟩
  · rw [hfull] at hroom
    have hsent : item.isSome = true := by
      cases hphase : s.worker.phase <;> simp only [hphase, Phase.sends?, reduceCtorEq] at hp
      · simp only [hphase, Option.some.injEq, Prod.mk.injEq] at hacts
        rw [← hacts.2]
        rfl
      · simp only [hphase, Option.some.injEq, Prod.mk.injEq] at hacts
        rw [← hacts.2]
        rfl
    exact absurd (hroom hsent) (by simp)

/-- What the tasks of a stalled watch do: its guard task goes on, the session ends, or the monitor does. -/
theorem steps_cases (h : s.Stalled) (hopen : s.worker.phase.isAtWork = true)
    (hstaying : s.watcher.isSome = true → s.quitting = false) {l : Lane V R σ} (hl : s.Steps make core l) :
    (∃ st, s.worker.stream = some st ∧ st.guarding = true ∧
      l = .serving (s.withStream { st.detach with guarding := false })) ∨
    l = .serving (s.worked (s.worker.finish .done) none) ∨
    s.monitored = true ∧ l = .serving { s with monitored := false } := by
  cases hl with
  | flush hstream hflushed =>
    rw [h.flushed _ hstream] at hflushed
    simp at hflushed
  | release hstream hguarding => exact Or.inl ⟨_, hstream, hguarding, rfl⟩
  | advance hacts hroom =>
    obtain ⟨rfl, rfl⟩ := h.eq_finish_of_act? hacts hroom
    exact Or.inr (Or.inl rfl)
  | abandon => exact Or.inr (Or.inl rfl)
  | dismiss hmonitored => exact Or.inr (Or.inr ⟨hmonitored, rfl⟩)
  | pull hwatcher hpulled =>
    rw [isOpen_of_phase (Phase.isOpen_of_isAtWork hopen), h.read _ hwatcher] at hpulled
    simp at hpulled
  | quit hwatcher hquitting =>
    rw [hstaying (by rw [hwatcher]; rfl)] at hquitting
    simp at hquitting

end Stalled

namespace Calm

theorem of_steps (h : s.Calm) {t : Serving V R σ} (hs : s.Steps make core (.serving t)) : t.Calm := by
  generalize hl : Lane.serving t = l at hs
  cases hs with
  | @flush st st' hstream hflushed =>
    obtain rfl := Lane.serving.inj hl
    refine ⟨fun _ => h.streaming (by rw [hstream]; rfl), fun hcancelled hworking => ?_, h.staying⟩
    rw [(h.stalled hcancelled hworking).flushed st hstream] at hflushed
    simp at hflushed
  | @release st hstream hguarding =>
    obtain rfl := Lane.serving.inj hl
    refine ⟨fun _ => h.streaming (by rw [hstream]; rfl), fun hcancelled hworking => ?_, h.staying⟩
    have hstalled := h.stalled hcancelled hworking
    refine ⟨hstalled.waits.imp_left ?_, fun st' hst' => ?_, hstalled.read⟩
    · rintro ⟨id, hp, hitems⟩
      refine ⟨id, hp, fun st' hst' => ?_⟩
      obtain rfl := Option.some.inj hst'
      exact hitems st hstream
    · obtain rfl := Option.some.inj hst'
      have hflushed := EventStream.flush?_relabel st st.token false false
      rw [hstalled.flushed st hstream] at hflushed
      exact hflushed
  | @advance k item hacts hroom =>
    obtain rfl := Lane.serving.inj hl
    have hkeeps := Worker.keeps_of_act? h.streaming hacts
    refine ⟨hkeeps.streaming, fun hcancelled hworking => ?_, h.staying⟩
    -- a cancelled session that is at work can only end, and reports no more behind its end
    exfalso
    have hbefore : s.worker.cancelled = true := (hkeeps.cancelled hworking).symm.trans hcancelled
    cases hw : s.worker.phase.isAtWork with
    | true =>
      obtain ⟨rfl, -⟩ := (h.stalled hbefore hw).eq_finish_of_act? hacts hroom
      simp [worked, Worker.finish, Outcome.phase, Phase.isAtWork] at hworking
    | false =>
      unfold Worker.act? at hacts
      cases hphase : s.worker.phase <;> simp [hphase, Phase.isAtWork] at hacts hw
      obtain ⟨rfl, -⟩ := hacts
      simp [worked, Phase.isAtWork] at hworking
  | abandon =>
    obtain rfl := Lane.serving.inj hl
    exact ⟨(Worker.keeps_finish s.worker s.worker .done).streaming,
      fun _ hworking => by simp [worked, Worker.finish, Outcome.phase, Phase.isAtWork] at hworking, h.staying⟩
  | dismiss =>
    obtain rfl := Lane.serving.inj hl
    exact ⟨h.streaming, fun hcancelled hworking =>
      ⟨(h.stalled hcancelled hworking).waits, (h.stalled hcancelled hworking).flushed,
        (h.stalled hcancelled hworking).read⟩, h.staying⟩
  | @pull a a' source hwatcher hpulled =>
    unfold pulled at hl
    split at hl
    · simp at hl
    · obtain rfl := Lane.serving.inj hl
      refine ⟨h.streaming, fun hcancelled hworking => ?_, fun _ => h.staying (by rw [hwatcher]; rfl)⟩
      have hopen : s.isOpen = true := isOpen_of_phase (Phase.isOpen_of_isAtWork hworking)
      rw [hopen, (h.stalled hcancelled hworking).read a hwatcher] at hpulled
      simp at hpulled
  | quit => simp at hl

/-- What the tasks of a watch do that is not told to stop in the middle of its work. -/
theorem steps_cases (h : s.Calm) (hfree : s.worker.cancelled = true → s.worker.phase.isAtWork = false)
    {l : Lane V R σ} (hl : s.Steps make core l) :
    (∃ st st', s.worker.cancelled = false ∧ s.worker.stream = some st ∧ st.flush? = some st' ∧
      l = .serving (s.withStream st')) ∨
    (∃ k item, s.worker.act? make core = some (k, item) ∧ (item.isSome = true → s.replies.hasRoom = true) ∧
      l = .serving (s.worked k item)) ∨
    (s.monitored = true ∧ s.worker.cancelled = true ∧ l = .serving { s with monitored := false }) ∨
    ∃ a a' source, s.watcher = some a ∧ a.pull? s.replies s.isOpen = some (a', source) ∧ l = s.pulled a' source := by
  have huncancelled : ∀ st, s.worker.stream = some st → s.worker.cancelled = false := fun st hstream => by
    have hstreaming := h.streaming (by rw [hstream]; rfl)
    cases hcancelled : s.worker.cancelled with
    | false => rfl
    | true =>
      have hworking := hfree hcancelled
      cases hphase : s.worker.phase <;> simp [hphase, Phase.isAtWork, Phase.stream?] at hworking hstreaming
  cases hl with
  | flush hstream hflushed => exact Or.inl ⟨_, _, huncancelled _ hstream, hstream, hflushed, rfl⟩
  | release hstream _ hcancelled => simp [huncancelled _ hstream] at hcancelled
  | advance hacts hroom => exact Or.inr (Or.inl ⟨_, _, hacts, hroom, rfl⟩)
  | abandon habandonable hcancelled =>
    have hworking := hfree hcancelled
    cases hphase : s.worker.phase <;> simp [hphase, Phase.isAtWork, Phase.isAbandonable] at hworking habandonable
  | dismiss hmonitored hcancelled => exact Or.inr (Or.inr (Or.inl ⟨hmonitored, hcancelled, rfl⟩))
  | pull hwatcher hpulled => exact Or.inr (Or.inr (Or.inr ⟨_, _, _, hwatcher, hpulled, rfl⟩))
  | quit hwatcher hquitting => simp [h.staying (by rw [hwatcher]; rfl)] at hquitting

/-- The monitor does not meet a session that has a report to make. -/
private theorem joins_advance_dismiss {k : Worker V R σ} {item : Option (Item R)}
    (hfree : s.worker.cancelled = true → s.worker.phase.isAtWork = false)
    (hacts : s.worker.act? make core = some (k, item)) (hroom : item.isSome = true → s.replies.hasRoom = true)
    (hmonitored : s.monitored = true) (hcancelled : s.worker.cancelled = true) :
    Lane.Joins make core (.serving (s.worked k item)) (.serving { s with monitored := false }) := by
  have hstill : k.cancelled = true := by
    have hover := hfree hcancelled
    unfold Worker.act? at hacts
    cases hphase : s.worker.phase <;> simp [hphase, Phase.isAtWork] at hacts hover
    obtain ⟨rfl, -⟩ := hacts
    exact hcancelled
  exact .of_steps (s := s.worked k item) (t := { s with monitored := false }) (.dismiss hmonitored hstill)
    (.advance hacts hroom)

/-- Whatever two tasks do next, it comes to the same. -/
theorem joins (h : s.Calm) {l l' : Lane V R σ} (hl : s.Steps make core l) (hl' : s.Steps make core l') :
    Lane.Joins make core l l' := by
  cases hworking : s.worker.cancelled && s.worker.phase.isAtWork with
  | true =>
    rw [Bool.and_eq_true] at hworking
    obtain ⟨hcancelled, hworking⟩ := hworking
    have hstalled := h.stalled hcancelled hworking
    have habandoned : ∀ t : Serving V R σ, t.worker.phase.isAbandonable = true → t.worker.cancelled = true →
        t.Steps make core (.serving (t.worked (t.worker.finish .done) none)) := fun _ => .abandon
    rcases hstalled.steps_cases hworking h.staying hl with ⟨st, hstream, hguarding, rfl⟩ | rfl | ⟨hmonitored, rfl⟩ <;>
      rcases hstalled.steps_cases hworking h.staying hl' with
        ⟨st', hstream', hguarding', rfl⟩ | rfl | ⟨hmonitored', rfl⟩
    · obtain rfl := Option.some.inj (hstream.symm.trans hstream')
      exact .refl _
    · exact .of_step (habandoned _ hstalled.isAbandonable hcancelled)
    · exact .of_steps (.dismiss hmonitored' hcancelled) (.release hstream hguarding hcancelled)
    · exact (Lane.Joins.of_step (s := s.withStream _) (habandoned _ hstalled.isAbandonable hcancelled)).symm
    · exact .refl _
    · exact .of_steps (.dismiss hmonitored' rfl) (habandoned _ hstalled.isAbandonable hcancelled)
    · exact .of_steps (.release hstream' hguarding' hcancelled) (.dismiss hmonitored hcancelled)
    · exact .of_steps (habandoned _ hstalled.isAbandonable hcancelled) (.dismiss hmonitored rfl)
    · exact .refl _
  | false =>
    have hfree : s.worker.cancelled = true → s.worker.phase.isAtWork = false := fun hcancelled => by
      rwa [hcancelled, Bool.true_and] at hworking
    rcases h.steps_cases hfree hl with ⟨st, st₁, huncancelled, hstream, hflushed, rfl⟩ |
        ⟨k, item, hacts, hroom, rfl⟩ |
        ⟨hmonitored, hcancelled, rfl⟩ | ⟨a, a₁, source, hwatcher, hpulled, rfl⟩ <;>
      rcases h.steps_cases hfree hl' with ⟨st', st₁', huncancelled', hstream', hflushed', rfl⟩ |
        ⟨k', item', hacts', hroom', rfl⟩ | ⟨hmonitored', hcancelled', rfl⟩ |
        ⟨a', a₁', source', hwatcher', hpulled', rfl⟩
    · obtain rfl := Option.some.inj (hstream.symm.trans hstream')
      obtain rfl := Option.some.inj (hflushed.symm.trans hflushed')
      exact .refl _
    · exact joins_flush_advance hstream hflushed hacts' hroom'
    · simp [huncancelled] at hcancelled'
    · exact joins_flush_pull hstream hflushed hwatcher' hpulled'
    · exact (joins_flush_advance hstream' hflushed' hacts hroom).symm
    · have heq := Option.some.inj (hacts.symm.trans hacts')
      rw [Prod.mk.injEq] at heq
      obtain ⟨rfl, rfl⟩ := heq
      exact .refl _
    · exact joins_advance_dismiss hfree hacts hroom hmonitored' hcancelled'
    · exact joins_advance_pull hacts hroom hwatcher' hpulled'
    · simp [huncancelled'] at hcancelled
    · exact (joins_advance_dismiss hfree hacts' hroom' hmonitored hcancelled).symm
    · exact .refl _
    · exact joins_dismiss_pull hmonitored hcancelled hwatcher' hpulled'
    · exact (joins_flush_pull hstream' hflushed' hwatcher hpulled).symm
    · exact (joins_advance_pull hacts' hroom' hwatcher hpulled).symm
    · exact (joins_dismiss_pull hmonitored' hcancelled' hwatcher hpulled).symm
    · obtain rfl := Option.some.inj (hwatcher.symm.trans hwatcher')
      have heq := Option.some.inj (hpulled.symm.trans hpulled')
      rw [Prod.mk.injEq] at heq
      obtain ⟨rfl, rfl⟩ := heq
      exact .refl _

end Calm

end Serving

namespace Lane

variable {make : Maker V R σ} {core : MemoryStore V} {l l' l₁ l₂ : Lane V R σ}

/-- The watch is calm, or its watcher was told to stop and nobody else has anything to do. -/
def Calm (make : Maker V R σ) (core : MemoryStore V) : Lane V R σ → Prop
  | .serving s =>
    s.Calm ∨ ∃ a, s.watcher = some a ∧ s.quitting = true ∧ ∀ l, s.Steps make core l → l = .left a.stop
  | _ => True

theorem Calm.step (h : l.Calm make core) (hstep : Step make core l l') : l'.Calm make core := by
  cases hstep with
  | @serving s l' hsteps =>
    rcases h with h | ⟨a, -, -, ha⟩
    · cases l' with
      | serving t => exact Or.inl (h.of_steps hsteps)
      | before => trivial
      | left a => trivial
      | gone => trivial
    · rw [ha l' hsteps]
      trivial

theorem Calm.joins (h : l.Calm make core) (h₁ : Step make core l l₁) (h₂ : Step make core l l₂) :
    Joins make core l₁ l₂ := by
  obtain ⟨hsteps₁⟩ := h₁
  obtain ⟨hsteps₂⟩ := h₂
  rcases h with h | ⟨a, -, -, ha⟩
  · exact h.joins hsteps₁ hsteps₂
  · rw [ha _ hsteps₁, ha _ hsteps₂]
    exact .refl _

/-- At rest nobody is left who was told to stop. -/
theorem Calm.of_atRest {s : Serving V R σ} (h : Calm make core (.serving s)) (hrest : AtRest make core (.serving s)) :
    s.Calm := by
  rcases h with h | ⟨a, hwatcher, hquitting, -⟩
  · exact h
  · exact absurd (.serving (.quit hwatcher hquitting)) (hrest _)

theorem AtRest.eq_of_reaches (h : l.AtRest make core) (hreaches : Relation.ReflTransGen (Step make core) l l') :
    l' = l := by
  induction hreaches with
  | refl => rfl
  | tail _ hstep ih =>
    rw [ih] at hstep
    exact absurd hstep (h _)

/-- The steps of calm lanes, to which all steps belong from a calm lane on. -/
def CalmStep (make : Maker V R σ) (core : MemoryStore V) (l l' : Lane V R σ) : Prop :=
  l.Calm make core ∧ Step make core l l'

theorem Calm.of_reaches (h : l.Calm make core) (hreaches : Relation.ReflTransGen (Step make core) l l') :
    l'.Calm make core ∧ Relation.ReflTransGen (CalmStep make core) l l' := by
  induction hreaches with
  | refl => exact ⟨h, .refl⟩
  | tail _ hstep ih => exact ⟨ih.1.step hstep, ih.2.tail ⟨ih.1, hstep⟩⟩

theorem Calm.reflGen (h : l.Calm make core) (hstep : Relation.ReflGen (Step make core) l l') :
    Relation.ReflGen (CalmStep make core) l l' := by
  cases hstep with
  | refl => exact .refl
  | single hstep => exact .single ⟨h, hstep⟩

theorem AtRest.eq_of_reaches_calm (h : l.AtRest make core)
    (hreaches : Relation.ReflTransGen (CalmStep make core) l l') : l' = l :=
  h.eq_of_reaches (Relation.ReflTransGen.mono (fun _ _ hstep => hstep.2) _ _ hreaches)

/-- A calm lane comes to rest in one way only. -/
theorem eq_of_rests (h : l.Calm make core) (h₁ : Relation.ReflTransGen (Step make core) l l₁)
    (h₂ : Relation.ReflTransGen (Step make core) l l₂) (hrest₁ : l₁.AtRest make core)
    (hrest₂ : l₂.AtRest make core) : l₁ = l₂ := by
  obtain ⟨d, h₁d, h₂d⟩ := Relation.church_rosser (r := CalmStep make core) (fun a b c hab hac => by
    obtain ⟨d, hbd, hcd⟩ := hab.1.joins hab.2 hac.2
    exact ⟨d, (hab.1.step hab.2).reflGen hbd, ((hac.1.step hac.2).reflGen hcd).to_reflTransGen⟩)
    (h.of_reaches h₁).2 (h.of_reaches h₂).2
  rw [← hrest₁.eq_of_reaches_calm h₁d, ← hrest₂.eq_of_reaches_calm h₂d]

end Lane

end ResourceWatch

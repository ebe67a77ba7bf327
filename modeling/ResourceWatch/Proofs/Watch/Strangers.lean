import ResourceWatch.Proofs.Store.Registration
import ResourceWatch.Proofs.Watch.Company
import ResourceWatch.Proofs.Watch.Hall

/-!
# Strangers

The others around one watch, whose call has the token `[0]` and whose client has the token `[1]`.  What they hold has
tokens of other roots, and endpoint states and event streams of its own (`World.Aside`).  So whatever their tasks do,
and whatever they do themselves without reaching for what belongs to the watch (`HallAct.Foreign`), leaves the watch
as it is (`World.Leaves`).
-/

namespace ResourceWatch

variable {Q V R σ : Type}

/-! ### Tokens -/

/-- The token is neither of the first two and below neither of them. -/
def Token.Outside (t : Token) : Prop := ∃ n, t.getLast? = some n ∧ 2 ≤ n

theorem Token.Outside.child {t : Token} (h : Token.Outside t) (n : Nat) : Token.Outside (n :: t) := by
  obtain ⟨root, ht, hroot⟩ := h
  exact ⟨root, by rw [List.getLast?_cons, ht, Option.getD_some], hroot⟩

namespace Tokens

/-- To fire a token cancels none of another root. -/
theorem isCancelled_cancel_of_root (ts : Tokens) {u t : Token} {m n : Nat} (hu : u.getLast? = some m)
    (ht : t.getLast? = some n) (hne : m ≠ n) : (ts.cancel u).isCancelled t = ts.isCancelled t := by
  have : u.isSuffixOf t = false := by
    rw [Bool.eq_false_iff]
    intro h
    obtain ⟨p, rfl⟩ := List.isSuffixOf_iff_suffix.1 h
    rw [List.getLast?_append, hu, Option.some_or] at ht
    exact hne (Option.some.inj ht)
  rw [isCancelled_cancel, this, Bool.false_or]

theorem isCancelled_cancel_root (ts : Tokens) {t : Token} {n : Nat} (ht : t.getLast? = some n) :
    (ts.cancel [n]).isCancelled t = true := by
  obtain ⟨p, rfl⟩ := List.getLast?_eq_some_iff.1 ht
  rw [isCancelled_cancel, List.isSuffixOf_iff_suffix.2 (List.suffix_append p [n]), Bool.true_or]

/-- Of the tokens of one root nothing but that root itself may have been fired: then all are as the root is. -/
theorem isCancelled_of_root {ts : Tokens} {t : Token} {n : Nat} (ht : t.getLast? = some n)
    (hfired : ∀ u ∈ ts.fired, ∃ m, u.getLast? = some m ∧ (m = n → u = [n])) (h : ts.isCancelled [n] = false) :
    ts.isCancelled t = false := by
  rw [Bool.eq_false_iff]
  intro hcancelled
  obtain ⟨u, hu, hsuffix⟩ := List.any_eq_true.1 hcancelled
  obtain ⟨p, rfl⟩ := List.isSuffixOf_iff_suffix.1 hsuffix
  obtain ⟨m, hm, hroot⟩ := hfired u hu
  rw [List.getLast?_append, hm, Option.some_or, Option.some.injEq] at ht
  obtain rfl := hroot ht
  have : ts.isCancelled [n] = true := List.any_eq_true.2 ⟨_, hu, List.isSuffixOf_iff_suffix.2 (List.suffix_refl _)⟩
  simp [h] at this

end Tokens

/-! ### Members of lists -/

theorem of_getElem?_set {α : Type} {xs : List α} {i j : Nat} {a b : α} (h : (xs.set i a)[j]? = some b) :
    (i = j ∧ b = a) ∨ i ≠ j ∧ xs[j]? = some b := by
  by_cases hij : i = j
  · subst hij
    have hlt : i < xs.length := by simpa using (List.getElem?_eq_some_iff.1 h).1
    rw [List.getElem?_set_self hlt, Option.some.injEq] at h
    exact Or.inl ⟨rfl, h.symm⟩
  · rw [List.getElem?_set_ne hij] at h
    exact Or.inr ⟨hij, h⟩

theorem of_getElem?_concat {α : Type} {xs : List α} {i : Nat} {a b : α} (h : (xs ++ [a])[i]? = some b) :
    (i = xs.length ∧ b = a) ∨ xs[i]? = some b := by
  rcases Nat.lt_or_ge i xs.length with hlt | hge
  · rw [List.getElem?_append_left hlt] at h
    exact Or.inr h
  · have hlt := (List.getElem?_eq_some_iff.1 h).1
    rw [List.length_append, List.length_singleton] at hlt
    obtain rfl : i = xs.length := Nat.le_antisymm (Nat.le_of_lt_succ hlt) hge
    rw [List.getElem?_concat_length, Option.some.injEq] at h
    exact Or.inl ⟨rfl, h.symm⟩

/-! ### Who is aside -/

/-- Where the caller of the watch is: it has not called, it holds a session and perhaps a watcher on it, or it is
gone. -/
inductive Seat where
  | before
  | on (session maker : Nat) (watcher : Option Nat)
  | gone
deriving DecidableEq, Repr

namespace Seat

def session? : Seat → Option Nat
  | .on i _ _ => some i
  | _ => none

def maker? : Seat → Option Nat
  | .on _ m _ => some m
  | _ => none

def watcher? : Seat → Option Nat
  | .on _ _ k => k
  | _ => none

end Seat

/-- A session of somebody else, in a world with so many endpoint states and event streams. -/
structure Session.Stranger (seat : Seat) (own : Option Nat) (makers streams : Nat) (y : Session R) : Prop where
  outside : Token.Outside y.token
  maker_lt : y.maker < makers
  maker_ne : seat.maker? ≠ some y.maker
  stream : ∀ id, y.phase.stream? = some id → id < streams ∧ own ≠ some id

/-- A watcher of somebody else, in a world with so many sessions. -/
structure Attachment.Stranger (seat : Seat) (sessions : Nat) (b : Attachment R) : Prop where
  outside : Token.Outside b.watcher.token
  session_lt : b.session < sessions
  session_ne : seat.session? ≠ some b.session

/-- The token was there to be fired: it is that of a stranger, or it is below that of the call or the client, and not
before there is something below those. -/
def Seat.MayFire (seat : Seat) (t : Token) : Prop :=
  Token.Outside t ∨ (t.getLast? = some 0 ∧ (seat.session? = none → t = [0])) ∨
    t.getLast? = some 1 ∧ (seat.watcher? = none → t = [1])

/-- Everybody but the one on the seat, whose event stream is `own`, has tokens, endpoint states, event streams and
replies of their own. -/
structure World.Aside (w : World V R σ) (s : MemoryStore V) (contexts : List Token) (direct : List Nat) (seat : Seat)
    (own : Option Nat) : Prop where
  store_eq : w.store = .memory s
  orderly : s.Orderly
  next : 2 ≤ w.tokens.next
  fired : ∀ t ∈ w.tokens.fired, seat.MayFire t
  contexts : ∀ t ∈ contexts, Token.Outside t
  sessions : ∀ j y, w.sessions[j]? = some y → seat.session? ≠ some j →
    y.Stranger seat own w.makers.length s.streams.length
  watchers : ∀ n b, w.watchers[n]? = some b → seat.watcher? ≠ some n → b.Stranger seat w.sessions.length
  direct : ∀ id ∈ direct, id < s.streams.length ∧ own ≠ some id

/-- What the one on the seat notices of the world has not changed. -/
structure World.Leaves (w : World V R σ) (s : MemoryStore V) (w' : World V R σ) (s' : MemoryStore V) (seat : Seat)
    (own : Option Nat) : Prop where
  core_eq : s'.core = s.core
  stream_eq : ∀ id, own = some id → s'.streams[id]? = s.streams[id]?
  session_eq : ∀ i, seat.session? = some i → w'.sessions[i]? = w.sessions[i]?
  maker_eq : ∀ m, seat.maker? = some m → w'.makers[m]? = w.makers[m]?
  watcher_eq : ∀ n, seat.watcher? = some n → w'.watchers[n]? = w.watchers[n]?
  cancelled_eq : ∀ (t : Token) n, t.getLast? = some n → n < 2 → w'.tokens.isCancelled t = w.tokens.isCancelled t

theorem Session.Stranger.mono {seat : Seat} {own : Option Nat} {makers makers' streams streams' : Nat} {y : Session R}
    (h : y.Stranger seat own makers streams) (hmakers : makers ≤ makers') (hstreams : streams ≤ streams') :
    y.Stranger seat own makers' streams' :=
  ⟨h.outside, Nat.lt_of_lt_of_le h.maker_lt hmakers, h.maker_ne, fun id hid =>
    ⟨Nat.lt_of_lt_of_le (h.stream id hid).1 hstreams, (h.stream id hid).2⟩⟩

theorem Attachment.Stranger.mono {seat : Seat} {sessions sessions' : Nat} {b : Attachment R}
    (h : b.Stranger seat sessions) (hsessions : sessions ≤ sessions') : b.Stranger seat sessions' :=
  ⟨h.outside, Nat.lt_of_lt_of_le h.session_lt hsessions, h.session_ne⟩

namespace World

variable {make : Maker V R σ} {w w' : World V R σ} {s s' : MemoryStore V} {contexts : List Token} {direct : List Nat}
  {seat : Seat} {own : Option Nat}

theorem Leaves.refl (w : World V R σ) (s : MemoryStore V) (seat : Seat) (own : Option Nat) :
    w.Leaves s w s seat own :=
  ⟨rfl, fun _ _ => rfl, fun _ _ => rfl, fun _ _ => rfl, fun _ _ => rfl, fun _ _ _ _ => rfl⟩

/-- A token of a stranger is fired. -/
theorem Leaves.isCancelled {t u : Token} (hu : Token.Outside u) {n : Nat} (ht : t.getLast? = some n) (hn : n < 2)
    (tokens : Tokens) : (tokens.cancel u).isCancelled t = tokens.isCancelled t := by
  obtain ⟨m, hm, hm2⟩ := hu
  exact tokens.isCancelled_cancel_of_root hm ht (Nat.ne_of_gt (Nat.lt_of_lt_of_le hn hm2))

namespace Aside

/-- A stranger changes the store. -/
theorem of_store (h : w.Aside s contexts direct seat own) (horderly : s'.Orderly)
    (hlength : s.streams.length ≤ s'.streams.length) :
    { w with store := .memory s' }.Aside s' contexts direct seat own :=
  ⟨rfl, horderly, h.next, h.fired, h.contexts, fun j y hy hj => (h.sessions j y hy hj).mono (Nat.le_refl _) hlength,
    h.watchers, fun id hid => ⟨Nat.lt_of_lt_of_le (h.direct id hid).1 hlength, (h.direct id hid).2⟩⟩

theorem of_tokens (h : w.Aside s contexts direct seat own) {tokens : Tokens} (hnext : w.tokens.next ≤ tokens.next)
    (hfired : ∀ t ∈ tokens.fired, t ∈ w.tokens.fired ∨ seat.MayFire t) :
    { w with tokens }.Aside s contexts direct seat own :=
  ⟨h.store_eq, h.orderly, Nat.le_trans h.next hnext, fun t ht => (hfired t ht).elim (h.fired t) id, h.contexts,
    h.sessions, h.watchers, h.direct⟩

theorem cancel (h : w.Aside s contexts direct seat own) {t : Token} (ht : seat.MayFire t) :
    (w.cancel t).Aside s contexts direct seat own :=
  h.of_tokens (Nat.le_refl _) fun u hu => by
    rcases List.mem_cons.1 hu with rfl | hu
    · exact Or.inr ht
    · exact Or.inl hu

theorem of_makers (h : w.Aside s contexts direct seat own) (makers : List σ)
    (hlength : w.makers.length ≤ makers.length) : { w with makers }.Aside s contexts direct seat own :=
  ⟨h.store_eq, h.orderly, h.next, h.fired, h.contexts,
    fun j y hy hj => (h.sessions j y hy hj).mono hlength (Nat.le_refl _), h.watchers, h.direct⟩

/-- A session is changed that is the one on the seat, or goes on with what it has. -/
theorem setSession (h : w.Aside s contexts direct seat own) {j : Nat} {y : Session R}
    (hy : seat.session? ≠ some j → y.Stranger seat own w.makers.length s.streams.length) :
    (w.setSession j y).Aside s contexts direct seat own := by
  refine ⟨h.store_eq, h.orderly, h.next, h.fired, h.contexts, fun i z hz hi => ?_, fun n b hb hn => ?_, h.direct⟩
  · rcases of_getElem?_set hz with ⟨rfl, rfl⟩ | ⟨-, hz⟩
    · exact hy hi
    · exact h.sessions i z hz hi
  · exact (h.watchers n b hb hn).mono (Nat.le_of_eq List.length_set.symm)

theorem setWatcher (h : w.Aside s contexts direct seat own) {n : Nat} {b : Attachment R}
    (hb : seat.watcher? ≠ some n → b.Stranger seat w.sessions.length) :
    { w with watchers := w.watchers.set n b }.Aside s contexts direct seat own := by
  refine ⟨h.store_eq, h.orderly, h.next, h.fired, h.contexts, h.sessions, fun m c hc hm => ?_, h.direct⟩
  rcases of_getElem?_set hc with ⟨rfl, rfl⟩ | ⟨-, hc⟩
  · exact hb hm
  · exact h.watchers m c hc hm

end Aside

end World

/-! ### The turns of strangers -/

/-- The turn is one of a task of the watch on the seat. -/
def Turn.IsOf (seat : Seat) (own : Option Nat) : Turn → Prop
  | .flush id | .release id => own = some id
  | .advance i | .abandon i | .monitor i => seat.session? = some i
  | .pull n | .quit n => seat.watcher? = some n

namespace World

variable {make : Maker V R σ} {w w' : World V R σ} {s s' : MemoryStore V} {contexts : List Token} {direct : List Nat}
  {seat : Seat} {own : Option Nat}

/-- Strangers leave the watch on the seat as it is, and stay aside. -/
def Passes (w : World V R σ) (s : MemoryStore V) (w' : World V R σ) (contexts : List Token) (direct : List Nat)
    (seat : Seat) (own : Option Nat) : Prop :=
  ∃ s', w'.Aside s' contexts direct seat own ∧ w.Leaves s w' s' seat own

section Turns

variable [Inhabited V]

/-- What strangers do to the store leaves what the watch has of it. -/
theorem leaves_acts (as : List (StoreAct V)) (hown : ∀ id, own = some id → id < s.streams.length)
    (hbeside : ∀ a ∈ as, a.Beside own ∧ ∀ id, a = .flush id → own ≠ some id) :
    (Chronicle.acts ⟨s, []⟩ as).store.core = s.core ∧
      ∀ id, own = some id → (Chronicle.acts ⟨s, []⟩ as).store.streams[id]? = s.streams[id]? := by
  refine ⟨StoreAct.Beside.core_acts (fun a ha => (hbeside a ha).1) ⟨s, []⟩, fun id hid => ?_⟩
  subst hid
  have hlt := hown id rfl
  have hall : ∀ c : Chronicle V, id < c.store.streams.length →
      (c.acts as).store.streams[id]? = c.store.streams[id]? := by
    induction as with
    | nil => exact fun _ _ => rfl
    | cons a as ih =>
      intro c hc
      rw [List.forall_mem_cons] at hbeside
      obtain ⟨⟨ha, hflush⟩, has⟩ := hbeside
      have heq : (c.act a).store.streams[id]? = c.store.streams[id]? :=
        ha.stream_eq (fun i hi hid => hflush i hi (by rw [hid])) hc
      have hlength := c.length_streams_acts [a]
      exact (ih has (c.act a) (Nat.lt_of_lt_of_le hc hlength)).trans heq
  exact hall ⟨s, []⟩ hlt

namespace Aside

theorem act (h : w.Aside s contexts direct seat own) (hown : ∀ id, own = some id → id < s.streams.length)
    {a : StoreAct V} (hbeside : a.Beside own) (hflush : ∀ id, a = .flush id → own ≠ some id) :
    { w with store := .memory (s.act a).1 }.Aside (s.act a).1 contexts direct seat own ∧
      w.Leaves s { w with store := .memory (s.act a).1 } (s.act a).1 seat own := by
  obtain ⟨hcore, hstream⟩ := leaves_acts [a] hown fun b hb => by
    obtain rfl := List.mem_singleton.1 hb
    exact ⟨hbeside, hflush⟩
  exact ⟨h.of_store (h.orderly.act a) (Chronicle.length_streams_acts ⟨s, []⟩ [a]),
    hcore, hstream, fun _ _ => rfl, fun _ _ => rfl, fun _ _ => rfl, fun _ _ _ _ => rfl⟩

/-- A session goes on that may fire its token, and has the new stream `own'` or one that it may have. -/
theorem of_stirs (h : w.Aside s contexts direct seat own) {own' : Option Nat} {j : Nat} {y y' : Session R}
    (hsessions : w'.sessions = w.sessions.set j y') (hmakers : w'.makers.length = w.makers.length)
    (hs : w.Stirs ⟨s, []⟩ y y' w') {as : List (StoreAct V)}
    (hstore : w'.store = .memory (Chronicle.acts ⟨s, []⟩ as).store) (hmayFire : seat.MayFire y.token)
    (hother : ∀ id, id < s.streams.length → own ≠ some id → own' ≠ some id)
    (hy' : seat.session? ≠ some j →
      y'.Stranger seat own' w.makers.length (Chronicle.acts ⟨s, []⟩ as).store.streams.length) :
    w'.Aside (Chronicle.acts ⟨s, []⟩ as).store contexts direct seat own' := by
  have hlength : s.streams.length ≤ (Chronicle.acts ⟨s, []⟩ as).store.streams.length :=
    Chronicle.length_streams_acts ⟨s, []⟩ as
  have hnext : w'.tokens.next = w.tokens.next := by rcases hs.tokens with heq | heq <;> simp [heq]
  refine ⟨hstore, Chronicle.orderly_acts (c := ⟨s, []⟩) h.orderly as, hnext ▸ h.next, fun t ht => ?_, h.contexts,
    fun i z hz hi => ?_, fun n b hb hn => ?_, fun id hid => ?_⟩
  · rcases hs.tokens with heq | heq <;> rw [heq] at ht
    · exact h.fired t ht
    · rcases List.mem_cons.1 ht with rfl | ht
      · exact hmayFire
      · exact h.fired t ht
  · rw [hmakers]
    rw [hsessions] at hz
    rcases of_getElem?_set hz with ⟨rfl, rfl⟩ | ⟨-, hz⟩
    · exact hy' hi
    · obtain ⟨houtside, hlt, hne, hstream⟩ := h.sessions i z hz hi
      exact ⟨houtside, hlt, hne, fun id hid =>
        ⟨Nat.lt_of_lt_of_le (hstream id hid).1 hlength, hother id (hstream id hid).1 (hstream id hid).2⟩⟩
  · rw [hs.watchers_eq] at hb
    exact (h.watchers n b hb hn).mono (Nat.le_of_eq (by rw [hsessions, List.length_set]))
  · obtain ⟨hlt, hne⟩ := h.direct id hid
    exact ⟨Nat.lt_of_lt_of_le hlt hlength, hother id hlt hne⟩

/-- A session of a stranger goes on. -/
theorem stirred (h : w.Aside s contexts direct seat own) (hown : ∀ id, own = some id → id < s.streams.length)
    {j : Nat} {y y' : Session R} (hy : w.sessions[j]? = some y) (hj : seat.session? ≠ some j)
    (hsessions : w'.sessions = w.sessions.set j y') (hmakers : w'.makers.length = w.makers.length)
    (hs : w.Stirs ⟨s, []⟩ y y' w') : w.Passes s w' contexts direct seat own := by
  have hstranger := h.sessions j y hy hj
  obtain ⟨as, has, hstore, hstream⟩ := hs.acts
  have hlength : s.streams.length ≤ (Chronicle.acts ⟨s, []⟩ as).store.streams.length :=
    Chronicle.length_streams_acts ⟨s, []⟩ as
  obtain ⟨hcore, hown'⟩ := leaves_acts as hown fun a ha => by
    have hmay := has a ha
    cases a with
    | watch => exact ⟨trivial, fun _ h => by simp at h⟩
    | receive id => exact ⟨(hstranger.stream id hmay).2, fun _ h => by simp at h⟩
    | dropReceiver id => exact ⟨(hstranger.stream id hmay).2, fun _ h => by simp at h⟩
    | _ => exact hmay.elim
  have hstranger' : y'.Stranger seat own w.makers.length (Chronicle.acts ⟨s, []⟩ as).store.streams.length := by
    refine ⟨hs.token_eq ▸ hstranger.outside, hs.maker_eq ▸ hstranger.maker_lt, hs.maker_eq ▸ hstranger.maker_ne,
      fun id hid => ?_⟩
    rcases hstream id hid with hid | ⟨heq, hlt⟩
    · exact ⟨Nat.lt_of_lt_of_le (hstranger.stream id hid).1 hlength, (hstranger.stream id hid).2⟩
    · exact ⟨hlt, fun hid' => Nat.lt_irrefl _ (heq ▸ hown id hid')⟩
  refine ⟨_, h.of_stirs hsessions hmakers hs hstore (Or.inl hstranger.outside) (fun _ _ hne => hne)
    fun _ => hstranger', hcore, hown', fun i hi => ?_, fun m hm => ?_, fun n _ => by rw [hs.watchers_eq],
    fun t n ht hn => ?_⟩
  · have hji : j ≠ i := fun hji => hj (by rw [hji, hi])
    rw [hsessions, List.getElem?_set_ne hji]
  · exact hs.makers m fun hmy => hstranger.maker_ne (hmy ▸ hm)
  · rcases hs.tokens with heq | heq
    · rw [heq]
    · rw [heq, Leaves.isCancelled hstranger.outside ht hn]

omit [Inhabited V] in
/-- The receive task of a stranger's watcher goes on. -/
theorem watched (h : w.Aside s contexts direct seat own) {n : Nat} {b : Attachment R} {y : Session R}
    (hb : w.watchers[n]? = some b) (hn : seat.watcher? ≠ some n) (hy : w.sessions[b.session]? = some y)
    (watcher : Watcher R) (htoken : watcher.token = b.watcher.token) (source : Queue (Item R)) :
    w.Passes s (w.setWatched n b y watcher source) contexts direct seat own := by
  have hstranger := h.watchers n b hb hn
  have hsession := h.sessions b.session y hy hstranger.session_ne
  have hwatcher : ({ b with watcher } : Attachment R).Stranger seat w.sessions.length :=
    ⟨htoken ▸ hstranger.outside, hstranger.session_lt, hstranger.session_ne⟩
  have hreplies : ({ y with replies := source } : Session R).Stranger seat own w.makers.length s.streams.length :=
    ⟨hsession.outside, hsession.maker_lt, hsession.maker_ne, hsession.stream⟩
  refine ⟨s, (h.setWatcher fun _ => hwatcher).setSession fun _ => hreplies, rfl, fun _ _ => rfl, fun i hi => ?_,
    fun _ _ => rfl, fun m hm => ?_, fun _ _ _ _ => rfl⟩
  · have hbi : b.session ≠ i := fun hbi => hstranger.session_ne (by rw [hbi, hi])
    exact List.getElem?_set_ne hbi
  · have hnm : n ≠ m := fun hnm => hn (by rw [hnm, hm])
    exact List.getElem?_set_ne hnm

theorem turn (h : w.Aside s contexts direct seat own) (hown : ∀ id, own = some id → id < s.streams.length)
    {t : Turn} (hturn : w.turn? make t = some w') (ht : ¬ t.IsOf seat own) :
    w.Passes s w' contexts direct seat own := by
  have hs := h.store_eq
  cases turned_of_turn? hturn with
  | @flush id store hflushed =>
    obtain rfl := Backend.of_flush? hs hflushed
    refine ⟨_, h.act hown (a := .flush id) trivial fun i hi => ?_⟩
    rw [StoreAct.flush.injEq] at hi
    exact hi ▸ ht
  | @release id store hreleased =>
    obtain rfl := Backend.of_release? hs hreleased
    exact ⟨_, h.act hown (a := .release w.tokens id) ht fun i hi => by simp at hi⟩
  | advance hy hadvances =>
    obtain ⟨y', hsessions, hstirs⟩ := hadvances.stirs (c := ⟨s, []⟩) hs
    exact h.stirred hown hy ht hsessions hadvances.length_makers hstirs
  | abandon hy => exact h.stirred hown hy ht rfl rfl (stirs_abandon (c := ⟨s, []⟩) hs _ _)
  | desert hy => exact h.stirred hown hy ht rfl rfl (stirs_monitor (c := ⟨s, []⟩) hs (Or.inr rfl) _)
  | dismiss hy => exact h.stirred hown hy ht rfl rfl (stirs_monitor (c := ⟨s, []⟩) hs (Or.inl rfl) _)
  | pull hb hy hpulled => exact h.watched hb ht hy _ (Watcher.token_of_pull? hpulled) _
  | @quit n b y hb hy => exact h.watched hb ht hy b.watcher.stop rfl _

end Aside

end Turns

/-! ### What strangers do -/

/-- What the one on the seat holds is there. -/
structure Holds (w : World V R σ) (s : MemoryStore V) (seat : Seat) (own : Option Nat) : Prop where
  session : ∀ i, seat.session? = some i → i < w.sessions.length
  maker : ∀ m, seat.maker? = some m → m < w.makers.length
  watcher : ∀ n, seat.watcher? = some n → n < w.watchers.length
  stream : ∀ id, own = some id → id < s.streams.length

namespace Aside

/-- A stranger is given a token. -/
theorem newToken (h : w.Aside s contexts direct seat own) (parent : Token) :
    (w.newToken parent).2.Aside s contexts direct seat own :=
  h.of_tokens (Nat.le_succ _) fun _ => Or.inl

theorem of_contexts (h : w.Aside s contexts direct seat own) {t : Token} (ht : Token.Outside t) :
    w.Aside s (contexts ++ [t]) direct seat own :=
  ⟨h.store_eq, h.orderly, h.next, h.fired, fun u hu => by
    rcases List.mem_append.1 hu with hu | hu
    · exact h.contexts u hu
    · exact List.mem_singleton.1 hu ▸ ht, h.sessions, h.watchers, h.direct⟩

theorem of_direct (h : w.Aside s contexts direct seat own) {id : Nat} (hid : id < s.streams.length ∧ own ≠ some id) :
    w.Aside s contexts (direct ++ [id]) seat own :=
  ⟨h.store_eq, h.orderly, h.next, h.fired, h.contexts, h.sessions, h.watchers, fun i hi => by
    rcases List.mem_append.1 hi with hi | hi
    · exact h.direct i hi
    · exact List.mem_singleton.1 hi ▸ hid⟩

theorem addSession (h : w.Aside s contexts direct seat own) {y : Session R}
    (hy : y.Stranger seat own w.makers.length s.streams.length) :
    { w with sessions := w.sessions ++ [y] }.Aside s contexts direct seat own := by
  refine ⟨h.store_eq, h.orderly, h.next, h.fired, h.contexts, fun j z hz hj => ?_, fun n b hb hn => ?_, h.direct⟩
  · rcases of_getElem?_concat hz with ⟨-, rfl⟩ | hz
    · exact hy
    · exact h.sessions j z hz hj
  · exact (h.watchers n b hb hn).mono (by simp)

theorem addWatcher (h : w.Aside s contexts direct seat own) {b : Attachment R}
    (hb : b.Stranger seat w.sessions.length) :
    { w with watchers := w.watchers ++ [b] }.Aside s contexts direct seat own := by
  refine ⟨h.store_eq, h.orderly, h.next, h.fired, h.contexts, h.sessions, fun n c hc hn => ?_, h.direct⟩
  rcases of_getElem?_concat hc with ⟨-, rfl⟩ | hc
  · exact hb
  · exact h.watchers n c hc hn

end Aside

end World

/-- The act changes nothing of the store and is on nothing that the one on the seat holds. -/
def HallAct.Foreign (seat : Seat) : HallAct Q V R σ → Prop
  | .mutate _ => False
  | .get _ m _ _ _ | .serve _ m _ _ _ _ => seat.maker? ≠ some m
  | .receive i | .dropReplies i | .attach i _ _ => seat.session? ≠ some i
  | .next n | .cancelWatcher n | .dropWatcher n => seat.watcher? ≠ some n
  | .context _ | .cancel _ | .maker _ | .subscribe _ _ | .receiveEvent _ | .dropEvents _ => True

instance (seat : Seat) : DecidablePred (HallAct.Foreign (Q := Q) (V := V) (R := R) (σ := σ) seat)
  | .mutate _ => .isFalse id
  | .get .. | .serve .. | .receive _ | .dropReplies _ | .attach .. | .next _ | .cancelWatcher _ | .dropWatcher _ =>
    inferInstanceAs (Decidable (_ ≠ _))
  | .context _ | .cancel _ | .maker _ | .subscribe _ _ | .receiveEvent _ | .dropEvents _ => .isTrue trivial

namespace World

variable {w : World V R σ} {s : MemoryStore V} {contexts : List Token} {direct : List Nat} {seat : Seat}
  {own : Option Nat}

/-- Nothing of the world changes but its tokens, and none is fired. -/
private theorem leaves_newToken (w : World V R σ) (s : MemoryStore V) (seat : Seat) (own : Option Nat)
    (parent : Token) : w.Leaves s (w.newToken parent).2 s seat own :=
  ⟨rfl, fun _ _ => rfl, fun _ _ => rfl, fun _ _ => rfl, fun _ _ => rfl, fun _ _ _ _ => rfl⟩

theorem Leaves.cancel (w : World V R σ) (s : MemoryStore V) (seat : Seat) (own : Option Nat) {t : Token}
    (ht : Token.Outside t) : w.Leaves s (w.cancel t) s seat own :=
  ⟨rfl, fun _ _ => rfl, fun _ _ => rfl, fun _ _ => rfl, fun _ _ => rfl,
    fun _ _ hu hn => Leaves.isCancelled ht hu hn w.tokens⟩

/-- The replies of a stranger's session change hands. -/
private theorem Aside.setReplies (h : w.Aside s contexts direct seat own) {i : Nat} (hi : seat.session? ≠ some i)
    {y : Session R} (hy : w.sessions[i]? = some y) (replies : Queue (Item R)) :
    w.Passes s (w.setSession i { y with replies }) contexts direct seat own := by
  have hstranger := h.sessions i y hy hi
  refine ⟨s, h.setSession fun _ => ⟨hstranger.outside, hstranger.maker_lt, hstranger.maker_ne, hstranger.stream⟩, rfl,
    fun _ _ => rfl, fun j hj => ?_, fun _ _ => rfl, fun _ _ => rfl, fun _ _ _ _ => rfl⟩
  have hij : i ≠ j := fun hij => hi (by rw [hij, hj])
  exact List.getElem?_set_ne hij

private theorem Aside.setQueue (h : w.Aside s contexts direct seat own) {n : Nat} (hn : seat.watcher? ≠ some n)
    {b : Attachment R} (hb : w.watchers[n]? = some b) (watcher : Watcher R)
    (htoken : watcher.token = b.watcher.token) :
    w.Passes s { w with watchers := w.watchers.set n { b with watcher } } contexts direct seat own := by
  have hstranger := h.watchers n b hb hn
  refine ⟨s, h.setWatcher fun _ => ⟨htoken ▸ hstranger.outside, hstranger.session_lt, hstranger.session_ne⟩, rfl,
    fun _ _ => rfl, fun _ _ => rfl, fun _ _ => rfl, fun m hm => ?_, fun _ _ _ _ => rfl⟩
  have hnm : n ≠ m := fun hnm => hn (by rw [hnm, hm])
  exact List.getElem?_set_ne hnm

theorem Leaves.trans {w' w'' : World V R σ} {s' s'' : MemoryStore V} (h : w.Leaves s w' s' seat own)
    (h' : w'.Leaves s' w'' s'' seat own) : w.Leaves s w'' s'' seat own :=
  ⟨h'.core_eq.trans h.core_eq, fun id hid => (h'.stream_eq id hid).trans (h.stream_eq id hid),
    fun i hi => (h'.session_eq i hi).trans (h.session_eq i hi),
    fun m hm => (h'.maker_eq m hm).trans (h.maker_eq m hm),
    fun n hn => (h'.watcher_eq n hn).trans (h.watcher_eq n hn),
    fun t n ht hn => (h'.cancelled_eq t n ht hn).trans (h.cancelled_eq t n ht hn)⟩

variable [Inhabited V]

theorem Aside.foreign {h : Hall V R σ} (ha : h.world.Aside s h.contexts h.direct seat own)
    (hholds : h.world.Holds s seat own) {a : HallAct Q V R σ} (hforeign : a.Foreign seat) :
    h.world.Passes s (h.act a).world (h.act a).contexts (h.act a).direct seat own := by
  have hs := ha.store_eq
  have hacted := h.acted_act a
  generalize h.act a = h' at hacted ⊢
  cases hacted with
  | nothing => exact ⟨s, ha, .refl _ _ _ _⟩
  | mutate m => exact hforeign.elim
  | @context parent above hknown =>
    have hnew : Token.Outside (h.world.newToken above).1 := by
      rcases hknown with rfl | hknown
      · exact ⟨h.world.tokens.next, rfl, ha.next⟩
      · exact (ha.contexts _ hknown).child _
    exact ⟨s, (ha.newToken above).of_contexts hnew, leaves_newToken _ _ _ _ above⟩
  | cancel ht =>
    have houtside := ha.contexts _ ht
    exact ⟨s, ha.cancel (Or.inl houtside), .cancel _ _ _ _ houtside⟩
  | maker state =>
    refine ⟨s, ha.of_makers (h.world.makers ++ [state]) (by simp), rfl, fun _ _ => rfl, fun _ _ => rfl,
      fun m hm => ?_, fun _ _ => rfl, fun _ _ _ _ => rfl⟩
    exact List.getElem?_append_left (hholds.maker m hm)
  | @get _ maker _ _ _ key makers hmakers =>
    have hcall : h.world.store.call key = h.world.store := by
      rw [hs]
      rfl
    have hlength : h.world.makers.length ≤ makers.length := by
      rcases hmakers with rfl | ⟨state, rfl⟩ <;> simp
    rw [hcall]
    refine ⟨s, ha.of_makers makers hlength, rfl, fun _ _ => rfl, fun _ _ => rfl, fun m hm => ?_, fun _ _ => rfl,
      fun _ _ _ _ => rfl⟩
    rcases hmakers with rfl | ⟨state, rfl⟩
    · rfl
    · have hne : maker ≠ m := fun hne => hforeign (by rw [hne, hm])
      exact List.getElem?_set_ne hne
  | @serve _ maker replyBuffer _ _ _ t ht hmaker key =>
    have hstranger : (Session.serving key (h.world.newToken t).1 maker (max replyBuffer 1) : Session R).Stranger
        seat own h.world.makers.length s.streams.length :=
      ⟨(ha.contexts _ ht).child _, hmaker, hforeign, fun id hid => by simp [Session.serving, Phase.stream?] at hid⟩
    refine ⟨s, (ha.newToken t).addSession hstranger, rfl, fun _ _ => rfl, fun i hi => ?_, fun _ _ => rfl,
      fun _ _ => rfl, fun _ _ _ _ => rfl⟩
    exact List.getElem?_append_left (hholds.session i hi)
  | receive hy => exact ha.setReplies hforeign hy _
  | dropReplies hy => exact ha.setReplies hforeign hy _
  | @attach i capacity n t ht hi =>
    have hstranger : (Attachment.mk i { token := (h.world.newToken t).1, queue := { capacity := max capacity 1 } } :
        Attachment R).Stranger seat h.world.sessions.length :=
      ⟨(ha.contexts _ ht).child _, hi, hforeign⟩
    refine ⟨s, (ha.newToken t).addWatcher hstranger, rfl, fun _ _ => rfl, fun _ _ => rfl, fun _ _ => rfl,
      fun m hm => ?_, fun _ _ _ _ => rfl⟩
    exact List.getElem?_append_left (hholds.watcher m hm)
  | @attachTooLarge _ _ _ t => exact ⟨s, ha.newToken t, leaves_newToken _ _ _ _ t⟩
  | next hb => exact ha.setQueue hforeign hb _ rfl
  | cancelWatcher hb =>
    have houtside := (ha.watchers _ _ hb hforeign).outside
    exact ⟨s, ha.cancel (Or.inl houtside), .cancel _ _ _ _ houtside⟩
  | @dropWatcher n b hb =>
    have houtside := (ha.watchers n b hb hforeign).outside
    obtain ⟨s', ha', hleaves⟩ := ha.setQueue hforeign hb b.watcher.drop rfl
    exact ⟨s', ha'.cancel (Or.inl houtside), hleaves.trans (.cancel _ _ _ _ houtside)⟩
  | @subscribe key _ t _ _ _ hgranted =>
    obtain ⟨s', hw, rfl⟩ := Backend.of_watch_ok hs hgranted
    obtain ⟨ha', hleaves⟩ := ha.act hholds.stream (a := .watch key t) trivial fun i hi => by simp at hi
    rw [MemoryStore.act_watch hw] at ha' hleaves
    obtain ⟨rfl, -, -, ⟨queue, -, hstreams⟩, -⟩ := MemoryStore.watch_ok hw
    refine ⟨s', ha'.of_direct ⟨by rw [hstreams]; simp, fun hown => ?_⟩, hleaves⟩
    exact Nat.lt_irrefl _ (hholds.stream _ hown)
  | @receiveEvent n id hid =>
    obtain ⟨ha', hleaves⟩ := ha.act hholds.stream (a := .receive id) (ha.direct id hid).2 fun i hi => by simp at hi
    rw [hs, Backend.receive_memory]
    exact ⟨_, ha', hleaves⟩
  | @dropEvents n id hid =>
    obtain ⟨ha', hleaves⟩ :=
      ha.act hholds.stream (a := .dropReceiver id) (ha.direct id hid).2 fun i hi => by simp at hi
    rw [hs]
    exact ⟨_, ha', hleaves⟩

end World

end ResourceWatch

import Mathlib.Data.List.Chain
import ResourceWatch.Proofs.Watch.Course

/-!
# Courses without stutter

What becomes of a watch whose endpoint compares its replies: behind the snapshot's reply stand those of some of the
values that it was told, no two neighbours are equal, and the last reply is that of the value told last
(`Heard.compares_course`).
-/

namespace ResourceWatch

variable {V R : Type} [BEq R] [LawfulBEq R]

/-- What a watch makes of the snapshot and of the values told behind it. -/
structure Course.Compares (reply : String → V → R) (key : String) (snapshot : V) (told : List V)
    (c : Course R (ChangeCache R)) : Prop where
  replies : ∃ vs : List V, vs.Sublist told ∧ c.replies = (snapshot :: vs).map (reply key)
  stutterless : c.replies.IsChain (· ≠ ·)
  last : c.replies.getLast? = some (reply key (told.getLast?.getD snapshot))
  remembered : c.state.get? key = some (reply key (told.getLast?.getD snapshot))
  outcome : c.outcome = none

namespace Course.Compares

variable {reply : String → V → R} {key : String} {snapshot : V} {told : List V} {c : Course R (ChangeCache R)}

omit [LawfulBEq R] in
/-- A reply that differs from the remembered one is sent and remembered. -/
private theorem answer_eq (c : Course R (ChangeCache R)) (v : V) :
    c.answer (Endpoint.deduplicating reply) key v =
      { c with
        state := (c.state.observe key (reply key v)).2
        replies := if (c.state.observe key (reply key v)).1 then c.replies ++ [reply key v] else c.replies } :=
  Course.answer_of_made rfl

theorem hear (h : c.Compares reply key snapshot told) {e : Event V} {v : V} (hv : e.kind.value? = some v) :
    (c.hear (Endpoint.deduplicating reply) key e).Compares reply key snapshot (told ++ [v]) := by
  rw [Course.hear_of_value h.outcome hv, answer_eq]
  have hlast : (told ++ [v]).getLast?.getD snapshot = v := by simp
  have hremembered : (c.state.observe key (reply key v)).2.get? key = some (reply key v) := by
    rw [ChangeCache.get?_observe, if_pos rfl]
  have hchange := c.state.observe_eq_false_iff key (reply key v)
  rw [h.remembered, Option.some.injEq] at hchange
  obtain ⟨vs, hvs, hreplies⟩ := h.replies
  cases hobserved : (c.state.observe key (reply key v)).1 with
  | true =>
    have hne : reply key (told.getLast?.getD snapshot) ≠ reply key v :=
      fun heq => by simp [hchange.2 heq] at hobserved
    refine ⟨⟨vs ++ [v], hvs.append (List.Sublist.refl _), by simp [hreplies]⟩, ?_, ?_, ?_, h.outcome⟩
    · refine h.stutterless.append (List.isChain_singleton _) fun a ha b hb => ?_
      rw [h.last, Option.mem_some_iff] at ha
      rw [List.head?_cons, Option.mem_some_iff] at hb
      rw [← ha, ← hb]
      exact hne
    · simp
    · rw [hlast]
      exact hremembered
  | false =>
    -- the reply equals the one that was sent last
    have heq := hchange.1 hobserved
    refine ⟨⟨vs, hvs.trans (List.sublist_append_left _ _), hreplies⟩, h.stutterless, ?_, ?_, h.outcome⟩
    · rw [hlast, ← heq]
      exact h.last
    · rw [hlast]
      exact hremembered

end Course.Compares

/-- The snapshot's reply is sent whether or not it is a change. -/
theorem Heard.compares_course (reply : String → V → R) (key : String) (cache : ChangeCache R) (snapshot : V)
    {es : List (Event V)} (hvalues : ∀ e ∈ es, ∃ v, e.kind.value? = some v) :
    (({ answer := some (.ok snapshot), granted := some (.ok ()), events := es } : Heard V).course
      (Endpoint.deduplicating reply) key cache).Compares reply key snapshot (es.filterMap (·.kind.value?)) := by
  induction es using List.reverseRecOn with
  | nil =>
    refine ⟨⟨[], List.Sublist.refl _, rfl⟩, List.isChain_singleton _, rfl, ?_, rfl⟩
    exact (cache.get?_observe key key (reply key snapshot)).trans (if_pos rfl)
  | append_singleton es e ih =>
    obtain ⟨v, hv⟩ := hvalues e (by simp)
    have htold : [e].filterMap (·.kind.value?) = [v] := by simp [hv]
    rw [Heard.course_event, List.filterMap_append, htold]
    exact (ih fun e he => hvalues e (List.mem_append_left _ he)).hear hv

end ResourceWatch

import Composer.Proofs.Answer.Resolving
import Composer.Proofs.Session.Shape
/-!
# Composer.Proofs.Session.Questions

**Which questions the services are asked.** Only a text can start a lookup, and it starts at most
one, for the answer that it is given. That answer has only just been found, so its question makes
sense. The questions that were ever asked are therefore all admissible, and a lookup that is on its
way brings the outcome of one of them.
-/

namespace Composer

namespace Session

/-- An operation that starts a lookup is a text whose answer is shown now, and the lookup asks the
question of this answer. -/
theorem lookup_of_performs {s : Session} {e : Surroundings} {op : Operation} {f : Effect}
    (h : s.Performs e op f) : f.lookup = none ∨
      ∃ text l q m, op = .analyze text ∧ f.lookup = some l ∧ l.answer.query? = some q ∧
        q.Admissible ∧ f.session.view.active = some m ∧ q.channel.tool = m.tool := by
  cases h with
  | @asks text m c a _ _ hm ha htool hneeds =>
      have hfound : a.tool = m.tool ∧ a.Fresh := View.ofText_answer hm ha
      obtain ⟨q, hq, hchannel⟩ := Answer.exists_query?_of_needsLookup hneeds
      refine Or.inr ⟨text, _, q, { m with answer := some a.markLoading }, rfl, rfl, ?_,
        hfound.2.admissible q hq, ?_, hchannel.trans hfound.1⟩
      · rw [Answer.query?_markLoading, hq]
      · simp [changed, begun, hm]
  | _ => exact Or.inl rfl

end Session

namespace World

theorem queries_step (w : World) (m : Move) : (w.step m).queries =
    w.queries ++ ((w.effect m).lookup.bind fun l => l.answer.query?).toList := by
  cases m with
  | perform e op => rfl
  | tick n => rw [step_tick]; rfl
  | settle k services => rw [step_settle]; rfl

/-- A move adds to the lookups on their way only what it starts. -/
theorem mem_or_started_of_mem_step {w : World} {m : Move} {l : Lookup}
    (h : l ∈ (w.step m).lookups) : l ∈ w.lookups ∨ (w.effect m).lookup = some l := by
  cases m with
  | perform e op =>
      rw [lookups_perform, List.mem_append, Option.mem_toList] at h
      exact h
  | tick n => exact Or.inl (w.lookups_tick n ▸ h)
  | settle k services =>
      rw [lookups_settle] at h
      exact Or.inl (List.mem_of_mem_filter h)

/-- Only operations start lookups. -/
theorem lookup_effect_cases (w : World) (m : Move) : (w.effect m).lookup = none ∨
    ∃ e op, m = .perform e op := by
  cases m with
  | perform e op => exact Or.inr ⟨e, op, rfl⟩
  | tick n =>
      rcases w.effect_tick_cases n with h | h
      · exact Or.inl (by rw [h]; rfl)
      · exact Or.inl (by rw [h]; exact (w.session.tickets_tick n).2)
  | settle k services =>
      rcases w.effect_settle_cases k services with h | ⟨a, h⟩
      · exact Or.inl (by rw [h]; rfl)
      · exact Or.inl (by rw [h]; exact (w.session.tickets_settle k a).2)

/-- A move asks nothing, or it is a text that asks one question, on the channel of the tool that is
shown then. -/
theorem queries_step_cases (w : World) (m : Move) :
    ((w.step m).queries = w.queries ∧ ∀ l ∈ (w.step m).lookups, l ∈ w.lookups) ∨
      ∃ e text q active, m = .perform e (.analyze text) ∧
        (w.step m).queries = w.queries ++ [q] ∧ q.Admissible ∧
        (w.step m).session.view.active = some active ∧ q.channel.tool = active.tool ∧
        ∀ l ∈ (w.step m).lookups, l ∈ w.lookups ∨ l.answer.query? = some q := by
  have hquiet (hnone : (w.effect m).lookup = none) :
      (w.step m).queries = w.queries ∧ ∀ l ∈ (w.step m).lookups, l ∈ w.lookups := by
    refine ⟨?_, fun l hl => (mem_or_started_of_mem_step hl).resolve_right (by simp [hnone])⟩
    rw [queries_step, hnone]
    exact List.append_nil _
  rcases w.lookup_effect_cases m with hnone | ⟨e, op, rfl⟩
  · exact Or.inl (hquiet hnone)
  · rcases Session.lookup_of_performs (w.session.performs e op) with
      hnone | ⟨text, l, q, active, rfl, hl, hq, hadmissible, hactive, htool⟩
    · exact Or.inl (hquiet hnone)
    · refine Or.inr ⟨e, text, q, active, rfl, ?_, hadmissible, hactive, htool, fun l' hl' => ?_⟩
      · rw [queries_step, effect, hl, Option.bind_some, hq]
        rfl
      · refine (mem_or_started_of_mem_step hl').imp_right fun hstarted => ?_
        rw [effect, hl] at hstarted
        cases hstarted
        exact hq

/-- Every question that was asked is admissible, and every lookup on its way asked one of them. -/
structure Inquired (w : World) : Prop where
  /-- What was asked makes sense. -/
  admissible : ∀ q ∈ w.queries, q.Admissible
  /-- What is looked up was asked. -/
  asked : ∀ l ∈ w.lookups, ∃ q ∈ w.queries, l.answer.query? = some q

theorem Inquired.step {w : World} (h : w.Inquired) (m : Move) : (w.step m).Inquired := by
  rcases w.queries_step_cases m with
    ⟨hqueries, hlookups⟩ | ⟨e, text, q, active, -, hqueries, hadmissible, -, -, hlookups⟩
  · exact ⟨hqueries ▸ h.admissible, fun l hl => hqueries ▸ h.asked l (hlookups l hl)⟩
  · refine ⟨?_, fun l hl => ?_⟩
    · rw [hqueries, List.forall_mem_append]
      exact ⟨h.admissible, List.forall_mem_singleton.mpr hadmissible⟩
    · rw [hqueries]
      rcases hlookups l hl with hold | hnew
      · obtain ⟨q', hmem, hq'⟩ := h.asked l hold
        exact ⟨q', List.mem_append_left _ hmem, hq'⟩
      · exact ⟨q, List.mem_append_right _ (List.mem_singleton_self q), hnew⟩

/-- **Services are only asked questions that make sense, and only by texts.** Wherever a session can
come to, all questions that were ever asked are admissible, and what is asked to resolve a lookup
that is on its way is one of them and nothing else. The next move asks nothing, or it is a text, and
it asks one question, on the channel of the tool that is shown afterwards. -/
theorem questions_admissible (moves : List Move) :
    let w := initial.run moves
    (∀ q ∈ w.queries, q.Admissible) ∧
      (∀ l ∈ w.lookups, ∃ q ∈ w.queries, ∀ b : Backend,
        l.answer.consult.run b = ([q], l.answer.resolve b.services)) ∧
      ∀ m, (w.step m).queries = w.queries ∨
        ∃ e text q active, m = .perform e (.analyze text) ∧
          (w.step m).queries = w.queries ++ [q] ∧
          (w.step m).session.view.active = some active ∧ q.channel.tool = active.tool := by
  intro w
  have h : w.Inquired := (reachable_run moves).invariant (P := Inquired)
    ⟨by simp [initial], by simp [initial]⟩ (fun _ m hw => hw.step m)
  refine ⟨h.admissible, fun l hl => ?_, fun m => ?_⟩
  · obtain ⟨q, hmem, hq⟩ := h.asked l hl
    refine ⟨q, hmem, fun b => ?_⟩
    rw [Answer.run_consult, hq]
    rfl
  · rcases w.queries_step_cases m with
      ⟨hsame, -⟩ | ⟨e, text, q, active, hm, hqueries, -, hactive, htool, -⟩
    · exact Or.inl hsame
    · exact Or.inr ⟨e, text, q, active, hm, hqueries, hactive, htool⟩

end World

end Composer

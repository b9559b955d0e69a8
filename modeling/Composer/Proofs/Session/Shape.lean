import Composer.Proofs.Session.Run
/-!
# Composer.Proofs.Session.Shape

**What is shown keeps its shape.** Wherever a session can come to, the answer that is shown belongs
to the tool that is shown: operations exchange an answer for one of the same tool or replace all of
the view, and a lookup brings the answer of its own tool or nothing.
-/

namespace Composer

namespace Session

theorem fits_perform {s : Session} {e : Surroundings} {op : Operation} {f : Effect}
    (h : s.Performs e op f) (hfits : s.view.Fits) : f.session.view.Fits := by
  cases h with
  | stays _ _ _ => exact hfits
  | selects _ _ _ _ => exact hfits
  | replaces _ hv _ =>
      rcases hv with rfl | ⟨t, rfl⟩
      · exact View.fits_of_answer?_eq_none rfl
      · exact View.fits_of_answer?_eq_none rfl
  | ignores _ => exact hfits
  | reads _ _ => exact s.fits_reading e _
  | asks _ _ hm ha _ _ =>
      exact View.fits_withAnswer hm (by simpa using s.fits_reading e _ _ _ hm ha)
  | fails _ _ hm ha _ _ =>
      exact View.fits_withAnswer hm (by simpa using s.fits_reading e _ _ _ hm ha)
  | turns hc _ => exact hfits.withCountdown hc _
  | stops _ => exact hfits
  | sets hm htool _ _ => exact View.fits_withAnswer hm htool.symm
  | resets hc _ => exact hfits.withCountdown hc _

theorem fits_tick {s : Session} (hfits : s.view.Fits) (n : Nat) :
    (s.tick n).session.view.Fits := by
  rcases s.tick_cases n with ⟨h, -⟩ | ⟨c, hc, -, h, -⟩
  · rw [h]; exact hfits
  · rw [h]; exact hfits.withCountdown hc _

theorem fits_settle {s : Session} (hfits : s.view.Fits) (k : Ticket) (a : Answer) :
    (s.settle k a).session.view.Fits := by
  rcases s.settle_cases k a with h | ⟨-, ⟨m, hm, htool⟩, -, h⟩
  · rw [h]; exact hfits
  · rw [h]; exact View.fits_withAnswer hm htool

/-- The tools with lookups show no countdown, neither before a lookup settles nor afterwards. -/
theorem countdown?_settle {s : Session} (hfits : s.view.Fits) (k : Ticket) (a : Answer) :
    (s.settle k a).session.view.countdown? = s.view.countdown? := by
  rcases s.settle_cases k a with h | ⟨-, ⟨m, hm, htool⟩, hchannel, h⟩
  · rw [h]
    rfl
  · have hbefore : s.view.countdown? = none := by
      refine hfits.countdown?_eq_none hm ?_
      rw [← htool, hchannel]
      exact Channel.tool_ne_timer _
    rw [h, hbefore]
    exact View.countdown?_withAnswer_of_channel hm hchannel

end Session

namespace World

theorem fits_effect {w : World} (hfits : w.session.view.Fits) (m : Move) :
    (w.effect m).session.view.Fits := by
  cases m with
  | perform e op => exact Session.fits_perform (w.session.performs e op) hfits
  | tick n =>
      rcases w.effect_tick_cases n with h | h
      · rw [h]; exact hfits
      · rw [h]; exact Session.fits_tick hfits n
  | settle k services =>
      rcases w.effect_settle_cases k services with h | ⟨a, h⟩
      · rw [h]; exact hfits
      · rw [h]; exact Session.fits_settle hfits k a

/-- The answer that is shown belongs to the tool that is shown. -/
theorem Reachable.fits {w : World} (h : Reachable w) : w.session.view.Fits := by
  refine h.invariant (P := fun w => w.session.view.Fits)
    (View.fits_of_answer?_eq_none rfl) (fun w m hw => ?_)
  rw [session_step]
  exact fits_effect hw m

end World

end Composer

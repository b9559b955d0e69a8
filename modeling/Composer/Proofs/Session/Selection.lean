import Composer.Proofs.Session.Focus
/-!
# Composer.Proofs.Session.Selection

**The selection of the palette goes round.** As long as no text comes, no command is run and nothing
is opened or dismissed, every move takes the selection to a place that depends on nothing but where
it was and how many commands there are (`Move.target`); ticks, lookups and all other operations
leave it there. So a run is one walk round the list: what counts are the position that was picked
last and the steps down and up since then (`World.selected_goes_round`).
-/

namespace Composer

/-- Whether an operation selects a command. -/
def Operation.selects : Operation → Bool
  | .selectUp => true
  | .selectDown => true
  | .select _ => true
  | _ => false

/-- Whether an operation leaves the palette open: it is no text, runs no command, and opens and
dismisses nothing. -/
def Operation.keepsPalette : Operation → Bool
  | .analyze _ => false
  | .execute => false
  | op => !op.reopens

namespace Move

/-- Whether a move leaves the palette open. -/
def keepsPalette : Move → Bool
  | .perform _ op => op.keepsPalette
  | .tick _ => true
  | .settle _ _ => true

/-- Whether a move is an operation of the host, whatever surrounds it. -/
def performs (op : Operation) : Move → Bool
  | .perform _ op' => op' = op
  | .tick _ => false
  | .settle _ _ => false

/-- Whether a move selects one of `n` commands by its position. -/
def picks (n : Nat) : Move → Bool
  | .perform _ (.select position) => position < n
  | _ => false

/-- How many steps down moves take, less the steps up. -/
def descent (moves : List Move) : Int :=
  moves.countP (performs .selectDown) - moves.countP (performs .selectUp)

/-- Where a move takes the selection of one of `n` commands. -/
def target (n selected : Nat) : Move → Nat
  | .perform _ .selectUp => (((selected : Int) - 1) % n).toNat
  | .perform _ .selectDown => (((selected : Int) + 1) % n).toNat
  | .perform _ (.select position) => if position < n then position else selected
  | _ => selected

/-! ### Walking round -/

variable {n selected : Nat} {moves : List Move}

theorem descent_cons (m : Move) (moves : List Move) :
    descent (m :: moves) = descent [m] + descent moves := by
  simp only [descent, List.countP_cons, List.countP_nil]
  omega

theorem target_lt (h : selected < n) (m : Move) : m.target n selected < n := by
  have hdown := Int.emod_lt_of_pos ((selected : Int) + 1) (show (0 : Int) < n by omega)
  have hup := Int.emod_lt_of_pos ((selected : Int) - 1) (show (0 : Int) < n by omega)
  unfold target
  split
  · omega
  · omega
  · split <;> omega
  · exact h

/-- A move that picks no position only takes its steps. -/
theorem target_eq (h : selected < n) {m : Move} (hm : m.picks n = false) :
    (m.target n selected : Int) = (selected + descent [m]) % n := by
  have hself : (selected : Int) = (selected + 0) % n := by
    rw [Int.add_zero]
    exact (Int.emod_eq_of_lt (by omega) (by omega)).symm
  have hnonneg (i : Int) : ((i % n).toNat : Int) = i % n :=
    Int.toNat_of_nonneg (Int.emod_nonneg i (by omega))
  cases m with
  | tick _ => exact hself
  | settle _ _ => exact hself
  | perform e op =>
      cases op with
      | selectUp => exact hnonneg ((selected : Int) - 1)
      | selectDown => exact hnonneg ((selected : Int) + 1)
      | select position =>
          have hle : ¬ position < n := of_decide_eq_false hm
          rw [target, if_neg hle]
          exact hself
      | _ => exact hself

/-- Where moves take the selection, one after the other. -/
def targets (n selected : Nat) (moves : List Move) : Nat :=
  moves.foldl (fun k m => m.target n k) selected

theorem targets_lt (h : selected < n) (moves : List Move) : targets n selected moves < n := by
  induction moves generalizing selected with
  | nil => exact h
  | cons m moves ih => exact ih (target_lt h m)

/-- Moves that pick no position take all their steps together. -/
theorem targets_eq (h : selected < n) (hmoves : ∀ m ∈ moves, m.picks n = false) :
    (targets n selected moves : Int) = (selected + descent moves) % n := by
  induction moves generalizing selected with
  | nil => exact target_eq h (m := .tick 0) rfl
  | cons m moves ih =>
      obtain ⟨hm, hmoves⟩ := List.forall_mem_cons.mp hmoves
      calc (targets n selected (m :: moves) : Int)
          = ((m.target n selected : Int) + descent moves) % n := ih (target_lt h m) hmoves
        _ = (selected + descent [m] + descent moves) % n := by
          rw [target_eq h hm, Int.emod_add_emod]
        _ = (selected + descent (m :: moves)) % n := by
          rw [descent_cons m moves, Int.add_assoc]

/-- What was before a picked position does not count. -/
theorem targets_picked {position : Nat} (h : position < n) (before : List Move) (e : Surroundings)
    (after : List Move) :
    targets n selected (before ++ .perform e (.select position) :: after) =
      targets n position after := by
  rw [targets, List.foldl_append, List.foldl_cons, target, if_pos h]
  rfl

end Move

/-! ### The palette -/

/-- The palette is shown, and one of its commands is selected. -/
structure View.Offers (v : View) : Prop where
  mode_eq : v.mode = .commands
  active_eq : v.active = none
  selected_lt : v.selected < v.commands.length

namespace View

variable {v : View}

theorem Offers.commands_ne_nil (h : v.Offers) : v.commands ≠ [] :=
  List.ne_nil_of_length_pos (Nat.zero_lt_of_lt h.selected_lt)

theorem Offers.select (h : v.Offers) {position : Nat} (hlt : position < v.commands.length) :
    Offers { v with selected := position } :=
  ⟨h.mode_eq, h.active_eq, hlt⟩

/-- A palette with commands offers them. -/
theorem Consistent.offers (h : v.Consistent) (hmode : v.mode = .commands)
    (hne : v.commands ≠ []) : v.Offers where
  mode_eq := hmode
  active_eq := by
    have hnone : ¬ v.active.isSome = true := by
      rw [← h.mode_iff, hmode]
      decide
    simpa using hnone
  selected_lt := by
    rcases h.selected_lt hmode with hlt | hempty
    · exact hlt
    · exact absurd hempty.1 hne

end View

namespace Session

variable {s : Session}

/-- An operation that selects nothing leaves the palette as it is. -/
theorem view_perform_of_not_selects (h : s.view.Offers) {op : Operation}
    (hkeeps : op.keepsPalette = true) (hselects : op.selects = false) (e : Surroundings) :
    (s.perform e op).session.view = s.view := by
  have hactive := h.active_eq
  have hcountdown : s.view.countdown? = none := by simp [View.countdown?, hactive]
  have hcopy (text : String) : (s.copy e text).session.view = s.view := by
    unfold copy
    split <;> rfl
  cases op with
  | analyze text => cases hkeeps
  | execute => cases hkeeps
  | dismiss => cases hkeeps
  | selectUp => cases hselects
  | selectDown => cases hselects
  | select position => cases hselects
  | focus name =>
      have hname : Tool.typed? name = none := by
        simpa [Operation.keepsPalette, Operation.reopens] using hkeeps
      simp [perform, focus, hname, unchanged]
  | startTimer => simp [perform, startTimer, hcountdown, unchanged]
  | toggleTimer => simp [perform, toggleTimer, hcountdown, unchanged]
  | resetTimer => simp [perform, resetTimer, hcountdown, unchanged, stopInterval]
  | setDuration seconds =>
      show (s.setDuration seconds).session.view = s.view
      rw [setDuration, hactive]
      rfl
  | copy text => exact hcopy text
  | copyCurrent =>
      have htext : s.copyText? = none := by simp [copyText?, View.answer?, hactive]
      simp [perform, htext, unchanged]

theorem view_moveSelection (h : s.view.Offers) (distance : Int) :
    (s.moveSelection distance).session.view =
      { s.view with
        selected := (((s.view.selected : Int) + distance) % s.view.commands.length).toNat } := by
  have hlt := h.selected_lt
  have hmin : min s.view.selected (s.view.commands.length - 1) = s.view.selected := by omega
  rw [moveSelection, if_pos ⟨h.mode_eq, h.commands_ne_nil⟩]
  show s.view.moveSelection distance = _
  rw [View.moveSelection, if_neg (by omega), hmin]

theorem view_select (h : s.view.Offers) (position : Nat) :
    (s.select position).session.view =
      { s.view with
        selected := if position < s.view.commands.length then position else s.view.selected } := by
  by_cases hlt : position < s.view.commands.length
  · rw [select, if_pos ⟨h.mode_eq, hlt⟩, if_pos hlt]
    rfl
  · rw [select, if_neg fun hboth => hlt hboth.2, if_neg hlt]
    rfl

theorem view_perform_of_offers (h : s.view.Offers) {op : Operation} (hop : op.keepsPalette = true)
    (e : Surroundings) :
    (s.perform e op).session.view =
      { s.view with
        selected := (Move.perform e op).target s.view.commands.length s.view.selected } := by
  cases op with
  | selectUp => exact view_moveSelection h (-1)
  | selectDown => exact view_moveSelection h 1
  | select position => exact view_select h position
  | _ => exact view_perform_of_not_selects h hop rfl e

end Session

/-! ### What opens the palette, and what does not count -/

theorem View.selected_ofText (v : View) (text : List Char) (trigger : Char) (ctx : Context) :
    (ofText v text trigger ctx).selected = 0 := by
  unfold ofText
  split
  · rfl
  · split
    · rfl
    · split
      · rfl
      · split <;> rfl

namespace Session

variable {s : Session}

/-- The palette that a text opens has its first command selected. -/
theorem selected_analyze {e : Surroundings} {text : String}
    (hmode : (s.analyze e text).session.view.mode = .commands) :
    (s.analyze e text).session.view.selected = 0 := by
  have hf := s.performs e (.analyze text)
  change s.Performs e (.analyze text) (s.analyze e text) at hf
  generalize s.analyze e text = f at hf hmode ⊢
  have hread : (s.reading e text).view.selected = 0 := View.selected_ofText _ _ _ _
  cases hf with
  | stays hop _ _ => cases hop
  | selects hop _ _ _ => cases hop
  | replaces hop _ _ => cases hop
  | turns _ hturn => cases hturn
  | ignores hcounting =>
      -- Texts are ignored for a countdown, which is not shown in the palette.
      have htool : s.view.mode = .commands := hmode
      simp [View.isCounting, View.isFocused, htool] at hcounting
  | reads _ _ => exact hread
  | asks _ _ _ _ _ _ => exact hread
  | fails _ _ _ _ _ _ => exact hread

/-- Where there is nothing to select, a selection does nothing. -/
theorem perform_eq_unchanged {op : Operation} (hop : op.selects = true)
    (h : s.view.mode ≠ .commands ∨ s.view.commands = [] ∨
      ∃ position, op = .select position ∧ s.view.commands.length ≤ position)
    (e : Surroundings) : s.perform e op = s.unchanged := by
  have hmoves (hnot : s.view.mode ≠ .commands ∨ s.view.commands = []) (distance : Int) :
      s.moveSelection distance = s.unchanged := by
    rw [moveSelection, if_neg]
    intro hboth
    exact hnot.elim (fun hmode => hmode hboth.1) fun hempty => hboth.2 hempty
  cases op with
  | selectUp => exact hmoves (by simpa using h) (-1)
  | selectDown => exact hmoves (by simpa using h) 1
  | select position =>
      show s.select position = s.unchanged
      rw [select, if_neg]
      intro hboth
      rcases h with hmode | hempty | ⟨position', heq, hle⟩
      · exact hmode hboth.1
      · simp [hempty] at hboth
      · obtain rfl := Operation.select.inj heq
        omega
  | _ => cases hop

end Session

/-! ### Any run -/

namespace World

variable {w : World}

/-- **One move.** -/
theorem view_step_of_offers (h : w.session.view.Offers) {m : Move} (hm : m.keepsPalette = true) :
    (w.step m).session.view =
      { w.session.view with
        selected := m.target w.session.view.commands.length w.session.view.selected } := by
  rw [session_step]
  cases m with
  | perform e op => exact Session.view_perform_of_offers h hm e
  | tick n =>
      show (w.effect (.tick n)).session.view = w.session.view
      rcases w.effect_tick_cases n with hn | hn
      · rw [hn]
        rfl
      · rw [hn]
        rcases w.session.tick_cases n with ⟨hview, -⟩ | ⟨c, hc, -⟩
        · exact hview
        · simp [View.countdown?, h.active_eq] at hc
  | settle k services =>
      show (w.effect (.settle k services)).session.view = w.session.view
      rcases w.effect_settle_cases k services with hk | ⟨a, hk⟩
      · rw [hk]
        rfl
      · rw [hk]
        rcases w.session.settle_cases k a with hs | ⟨-, ⟨m, hactive, -⟩, -⟩
        · rw [hs]
          rfl
        · rw [h.active_eq] at hactive
          cases hactive

theorem offers_step (h : w.session.view.Offers) {m : Move} (hm : m.keepsPalette = true) :
    (w.step m).session.view.Offers := by
  rw [view_step_of_offers h hm]
  exact h.select (Move.target_lt h.selected_lt m)

/-- **Several moves.** -/
theorem view_run_of_offers (h : w.session.view.Offers) {moves : List Move}
    (hmoves : ∀ m ∈ moves, m.keepsPalette = true) :
    (w.run moves).session.view =
      { w.session.view with
        selected := Move.targets w.session.view.commands.length w.session.view.selected moves } := by
  induction moves generalizing w with
  | nil => rfl
  | cons m moves ih =>
      obtain ⟨hm, hmoves⟩ := List.forall_mem_cons.mp hmoves
      rw [run_cons, ih (offers_step h hm) hmoves, view_step_of_offers h hm]
      rfl

theorem offers_run (h : w.session.view.Offers) {moves : List Move}
    (hmoves : ∀ m ∈ moves, m.keepsPalette = true) : (w.run moves).session.view.Offers := by
  rw [view_run_of_offers h hmoves]
  exact h.select (Move.targets_lt h.selected_lt moves)

/-- **The selection goes round.** A text that opens the palette selects the first command. From then
on, or from any palette with `n` commands that a run has come to, moves that keep it open change the
selection alone, and one of the `n` commands is always selected: it stands as many places behind the
position that was picked last, or behind the selection of before if none was, as there were steps
down since then, less the steps up, counted round the list. A position beyond the list does not
count, and where there are no commands, or no palette, no selection leaves a trace. -/
theorem selected_goes_round :
    (∀ (before : List Move) (e : Surroundings) (text : String),
      let v := (initial.run (before ++ [.perform e (.analyze text)])).session.view
      v.mode = .commands → v.selected = 0) ∧
    (∀ before since : List Move,
      let v := (initial.run before).session.view
      let n := v.commands.length
      v.mode = .commands → 0 < n → (∀ m ∈ since, m.keepsPalette = true) →
      let k := (initial.run (before ++ since)).session.view.selected
      (initial.run (before ++ since)).session.view = { v with selected := k } ∧ k < n ∧
        ((∀ m ∈ since, m.picks n = false) →
          (k : Int) = (v.selected + Move.descent since) % n) ∧
        ∀ earlier e position later, since = earlier ++ .perform e (.select position) :: later →
          position < n → (∀ m ∈ later, m.picks n = false) →
          (k : Int) = (position + Move.descent later) % n) ∧
    ∀ (w : World) (e : Surroundings) (op : Operation), op.selects = true →
      (w.session.view.mode ≠ .commands ∨ w.session.view.commands = [] ∨
        ∃ position, op = .select position ∧ w.session.view.commands.length ≤ position) →
      w.step (.perform e op) = w := by
  refine ⟨fun before e text => ?_, fun before since => ?_, fun w e op hop h => ?_⟩
  · rw [run_append]
    exact Session.selected_analyze
  · intro v n hmode hpos hsince k
    have hoffers : v.Offers :=
      (reachable_run before).consistent.offers hmode (List.length_pos_iff.mp hpos)
    have hview : (initial.run (before ++ since)).session.view =
        { v with selected := Move.targets n v.selected since } := by
      rw [run_append]
      exact view_run_of_offers hoffers hsince
    have hk : k = Move.targets n v.selected since := congrArg View.selected hview
    rw [hk]
    refine ⟨hview, Move.targets_lt hoffers.selected_lt since,
      fun hnone => Move.targets_eq hoffers.selected_lt hnone, ?_⟩
    intro earlier e position later hsplit hlt hnone
    rw [hsplit, Move.targets_picked hlt]
    exact Move.targets_eq hlt hnone
  · show w.absorb (w.session.perform e op) = w
    rw [Session.perform_eq_unchanged hop h e, absorb_unchanged]

/-- A step up from the first of all commands comes to the last one, and two steps down from there
come to the second one. -/
theorem selected_goes_round_all :
    let e : Surroundings := ⟨.default, 0, 0, true, true⟩
    let opening : List Move := [.perform e (.analyze "/")]
    let since : List Move := [.perform e .selectUp, .perform e .selectDown, .perform e .selectDown]
    (initial.run opening).session.view.mode = .commands ∧
      (initial.run opening).session.view.commands.length = 16 ∧
      (initial.run opening).session.view.selected = 0 ∧
      (initial.run (opening ++ since)).session.view.selected = 1 := by
  intro e opening since
  have hmode : (initial.run opening).session.view.mode = .commands := rfl
  have hlength : (initial.run opening).session.view.commands.length = 16 := by decide +kernel
  obtain ⟨hopened, hround, -⟩ := selected_goes_round
  have hfirst : (initial.run opening).session.view.selected = 0 := hopened [] e "/" hmode
  obtain ⟨-, -, hsteps, -⟩ := hround opening since hmode (by rw [hlength]; omega) (by decide)
  have hlast := hsteps (by rw [hlength]; decide)
  rw [hlength, hfirst] at hlast
  exact ⟨hmode, hlength, hfirst, Int.ofNat_inj.mp hlast⟩

end World

end Composer

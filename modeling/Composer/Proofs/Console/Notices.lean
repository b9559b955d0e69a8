import Composer.Console.Loop
import Composer.Proofs.Session.Run
import Mathlib.Data.List.Perm.Basic
/-!
# Composer.Proofs.Console.Notices

**Which turns of the console announce a completed countdown.** Lines and events come in any order,
and while the loop is in one turn the world goes on. Its events are under way for a while and arrive
one by one, perhaps in the middle of a turn (`Course`). Every event that has arrived is taken by
exactly one turn. A turn for events announces the completions that it takes; a turn for a line
throws away what it takes, and announces none (`announces_iff`).
-/

namespace Composer.Console

open scoped List

/-! ### Texts without a bell -/

/-- True of a text that does not begin with a bell, as the notice does. -/
def Silent (s : String) : Prop :=
  s.toList.head? ≠ some '\x07'

instance (s : String) : Decidable (Silent s) :=
  inferInstanceAs (Decidable (_ ≠ _))

theorem not_silent_completionNotice : ¬ Silent completionNotice := by
  decide

theorem Silent.append {s : String} (h : Silent s) (hne : s ≠ "") (t : String) :
    Silent (s ++ t) := by
  obtain ⟨c, cs, hs⟩ := List.exists_cons_of_ne_nil (mt String.toList_eq_nil_iff.mp hne)
  rw [Silent, hs] at h
  rw [Silent, String.toList_append, hs]
  exact h

theorem Silent.line {s : String} (h : Silent s) : Silent (s ++ "\n") := by
  by_cases hne : s = ""
  · rw [hne]
    decide
  · exact h.append hne "\n"

theorem silent_label (k : Category) : Silent k.label := by
  cases k <;> decide

/-- No view begins with a line that begins with a bell. Only the first line counts: a text may hold
any character. -/
theorem silent_head_viewLines (v : View) : ∀ line ∈ (viewLines v).head?, Silent line := by
  intro line hline
  rw [viewLines] at hline
  split at hline
  · cases hline
  · rw [paletteLines] at hline
    split at hline
    · obtain rfl := Option.some.inj hline
      simp [Silent]
    · cases hcommands : v.commands with
      | nil => rw [hcommands] at hline; cases hline
      | cons c cs =>
          rw [hcommands] at hline
          obtain rfl := Option.some.inj hline
          exact silent_label c.category
  · cases hactive : v.active with
    | none => rw [hactive] at hline; cases hline
    | some m =>
        rw [hactive] at hline
        obtain rfl := Option.some.inj hline
        simp [Silent]

theorem silent_render (v : View) : Silent (render v) := by
  rw [render]
  cases hlines : viewLines v with
  | nil => decide
  | cons line lines =>
      have hline : Silent line := silent_head_viewLines v line (by rw [hlines]; rfl)
      have hjoin : String.join ((line :: lines).map (· ++ "\n")) =
          (line ++ "\n") ++ String.join (lines.map (· ++ "\n")) := by
        simp [String.join_cons]
      rw [hjoin]
      exact hline.line.append (by simp) _

theorem silent_compact (v : View) : Silent v.encode.compact := by
  simp [Silent, View.encode, Json.compact, Json.compactChars]

theorem silent_pretty (v : View) : Silent v.encode.pretty := by
  simp [Silent, View.encode, Json.pretty, Json.prettyChars]

theorem silent_showView (records : Bool) (v : View) : Silent (showView records v) := by
  rw [showView]
  split
  · exact (silent_compact v).line
  · dsimp only
    split
    · decide
    · exact silent_render v

theorem silent_replyText (r : Reply) : ∀ piece ∈ (replyText r).1, Silent piece := by
  unfold replyText
  split
  · exact nofun
  · split
    · exact List.forall_mem_singleton.mpr (by simp [Silent])
    · exact nofun
  · exact nofun
  · exact List.forall_mem_singleton.mpr (by simp [Silent])
  · exact nofun

theorem silent_helpLines : ∀ line ∈ helpLines, Silent (line ++ "\n") := by
  decide

namespace Loop

variable {l next : Loop}

theorem silent_shown (l : Loop) : Silent l.shown :=
  silent_showView _ _

theorem silent_shownReply (l : Loop) (r : Reply) : Silent (l.shownReply r) := by
  unfold shownReply
  split
  · exact silent_showView _ _
  · exact l.silent_shown

/-- A turn for a line shows nothing that begins with a bell. -/
theorem silent_takeLine (l : Loop) (line : List Char) :
    ∀ piece ∈ (l.takeLine line).output, Silent piece := by
  have hshown : ∀ piece ∈ [l.shown], Silent piece := List.forall_mem_singleton.mpr l.silent_shown
  rw [takeLine]
  split
  · exact nofun
  · exact List.forall_mem_append.mpr
      ⟨silent_replyText _, List.forall_mem_singleton.mpr (silent_shownReply _ _)⟩
  · exact List.forall_mem_cons.mpr ⟨(silent_pretty _).line, hshown⟩
  · exact List.forall_mem_append.mpr ⟨List.forall_mem_map.mpr silent_helpLines, hshown⟩
  · exact hshown

/-- A turn for events shows the notice exactly if it takes a completion. -/
theorem completionNotice_mem_takeEvents (l : Loop) :
    completionNotice ∈ l.takeEvents.output ↔ ∃ ev ∈ l.queue, isCompletion ev = true := by
  have hshown : completionNotice ≠ l.shown := by
    intro h
    exact not_silent_completionNotice (h ▸ l.silent_shown)
  rw [takeEvents]
  split
  · rename_i hempty
    simp [List.isEmpty_iff.mp hempty]
  · by_cases hany : l.queue.any isCompletion = true
    · simp only [if_pos hany, List.mem_append, List.mem_singleton, true_or, true_iff]
      exact List.any_eq_true.mp hany
    · simp only [if_neg hany, List.nil_append, List.mem_singleton, hshown, false_iff]
      exact mt List.any_eq_true.mpr hany

/-! ### What a turn takes -/

/-- The events that a turn takes if it leaves the loop as `next`: those that wait, and those of its
own operation. -/
def handed (l next : Loop) : List Event :=
  l.queue ++ next.world.log.drop l.world.log.length

/-- What a turn leaves behind, if it does not end the loop: no event waits, and the log goes on. -/
def Leaves (l next : Loop) : Prop :=
  next.queue = [] ∧ l.world.log <+: next.world.log

theorem leaves_drain (l : Loop) : l.Leaves l.drain :=
  ⟨rfl, List.prefix_rfl⟩

theorem leaves_takeLine {line : List Char} (h : (l.takeLine line).loop = some next) :
    l.Leaves next := by
  rw [takeLine] at h
  split at h
  · cases h
  · rename_i op _
    obtain rfl := Option.some.inj h
    refine ⟨rfl, ?_⟩
    show l.world.log <+: (l.world.step (.perform l.surroundings op)).log
    rw [World.log_step]
    exact List.prefix_append _ _
  all_goals
    obtain rfl := Option.some.inj h
    exact l.leaves_drain

/-- A turn for events leaves none of them. -/
theorem loop_takeEvents (l : Loop) : l.takeEvents.loop = some l.drain := by
  rw [takeEvents]
  split
  · rename_i hempty
    rw [drain, ← List.isEmpty_iff.mp hempty]
  · rfl

theorem handed_drain (l : Loop) : l.handed l.drain = l.queue := by
  simp [handed]

end Loop

/-! ### Courses -/

/-- Something that happens beside the loop. -/
inductive Aside where
  /-- The world moves on. Its events get under way. -/
  | moves (m : Move)
  /-- One of the events that are under way arrives, whichever it is. -/
  | arrives (n : Nat)

/-- What happens next. -/
inductive Stage where
  /-- Something beside the loop. -/
  | aside (a : Aside)
  /-- A turn for a line, in whatever surroundings. What happens until it has taken all events
  happens meanwhile. -/
  | line (e : Surroundings) (text : List Char) (meanwhile : List Aside)
  /-- A turn for the events that have arrived. -/
  | events

/-- The account of a turn. -/
structure Account where
  /-- The line, if the turn was for one. -/
  line : Option (List Char)
  /-- The events that it took. -/
  taken : List Event
  /-- What it showed. -/
  output : List String

/-- A loop in its course. -/
structure Course where
  /-- The loop. -/
  loop : Loop
  /-- The events that have happened but not arrived. -/
  underWay : List Event
  /-- The turns so far. -/
  turns : List Account
  /-- Whether the loop has ended. -/
  ended : Bool

namespace Course

/-- A course at its start. -/
def start (e : Surroundings) (records : Bool) : Course :=
  ⟨.start e records, [], [], false⟩

/-- The course after something beside the loop. -/
def beside (c : Course) : Aside → Course
  | .moves m =>
    { c with
      loop := { c.loop with world := c.loop.world.step m }
      underWay := c.underWay ++ (c.loop.world.effect m).events }
  | .arrives n =>
    { c with
      loop := { c.loop with queue := c.loop.queue ++ c.underWay[n]?.toList }
      underWay := c.underWay.eraseIdx n }

/-- The course after a turn of its loop. What arrives meanwhile is taken by the turn too. -/
def turned (c : Course) (line : Option (List Char)) (t : Turn) (meanwhile : List Aside) : Course :=
  match t.loop with
  | none => { c with turns := c.turns ++ [⟨line, [], t.output⟩], ended := true }
  | some next =>
    let after := meanwhile.foldl beside { c with loop := next }
    { after with
      loop := after.loop.drain
      turns := c.turns ++ [⟨line, c.loop.handed next ++ after.loop.queue, t.output⟩] }

/-- The course after the next stage. Nothing happens after the end. -/
def step (c : Course) (s : Stage) : Course :=
  if c.ended then c
  else match s with
    | .aside a => c.beside a
    | .line e text meanwhile =>
      let c := { c with loop := { c.loop with surroundings := e } }
      c.turned (some text) (c.loop.takeLine text) meanwhile
    | .events => c.turned none c.loop.takeEvents []

/-- The course after several stages. -/
def run (c : Course) (stages : List Stage) : Course :=
  stages.foldl step c

/-! ### Where the events are -/

/-- Every event of the log was taken, waits or is under way, and that once. -/
def Places (c : Course) (taken : List Event) : Prop :=
  (taken ++ c.loop.queue ++ c.underWay).Perm c.loop.world.log

variable {c : Course} {taken : List Event}

theorem Places.beside (h : c.Places taken) (a : Aside) : (c.beside a).Places taken := by
  cases a with
  | moves m =>
      show (taken ++ c.loop.queue ++ (c.underWay ++ (c.loop.world.effect m).events)).Perm
        (c.loop.world.step m).log
      rw [World.log_step, ← List.append_assoc]
      exact h.append_right _
  | arrives n =>
      have harrives : (c.underWay[n]?.toList ++ c.underWay.eraseIdx n).Perm c.underWay := by
        by_cases hn : n < c.underWay.length
        · rw [List.getElem?_eq_getElem hn]
          exact List.getElem_cons_eraseIdx_perm hn
        · rw [List.getElem?_eq_none (Nat.le_of_not_lt hn),
            List.eraseIdx_of_length_le (Nat.le_of_not_lt hn)]
          exact List.Perm.refl _
      show (taken ++ (c.loop.queue ++ c.underWay[n]?.toList) ++ c.underWay.eraseIdx n).Perm
        c.loop.world.log
      calc taken ++ (c.loop.queue ++ c.underWay[n]?.toList) ++ c.underWay.eraseIdx n
          = taken ++ c.loop.queue ++ (c.underWay[n]?.toList ++ c.underWay.eraseIdx n) := by simp
        _ ~ taken ++ c.loop.queue ++ c.underWay := harrives.append_left _
        _ ~ c.loop.world.log := h

theorem Places.besides (h : c.Places taken) (as : List Aside) :
    (as.foldl Course.beside c).Places taken := by
  induction as generalizing c with
  | nil => exact h
  | cons a as ih => exact ih (h.beside a)

/-- The events that a turn takes are gone from the queue. -/
theorem Places.hand {next : Loop} (h : c.Places taken) (hleaves : c.loop.Leaves next) :
    ({ c with loop := next } : Course).Places (taken ++ c.loop.handed next) := by
  obtain ⟨hqueue, events, hlog⟩ := hleaves
  show (taken ++ c.loop.handed next ++ next.queue ++ c.underWay).Perm next.world.log
  rw [Loop.handed, hqueue, ← hlog, List.drop_left, List.append_nil]
  calc taken ++ (c.loop.queue ++ events) ++ c.underWay
      = (taken ++ c.loop.queue) ++ (events ++ c.underWay) := by simp
    _ ~ (taken ++ c.loop.queue) ++ (c.underWay ++ events) :=
        List.perm_append_comm.append_left _
    _ = (taken ++ c.loop.queue ++ c.underWay) ++ events := by simp
    _ ~ c.loop.world.log ++ events := h.append_right _

/-- What arrives while a turn goes on is gone from the queue too. -/
theorem Places.drain (h : c.Places taken) :
    ({ c with loop := c.loop.drain } : Course).Places (taken ++ c.loop.queue) := by
  show (taken ++ c.loop.queue ++ [] ++ c.underWay).Perm c.loop.world.log
  rw [List.append_nil]
  exact h

/-- The account of a turn says what it took, whatever arrived meanwhile. -/
theorem exists_taken_turned (c : Course) (line : Option (List Char)) {t : Turn}
    (hleaves : ∀ next, t.loop = some next → c.loop.Leaves next) (meanwhile : List Aside) :
    ∃ now, (c.turned line t meanwhile).turns = c.turns ++ [⟨line, now, t.output⟩] ∧
      ∀ past, c.Places past → (c.turned line t meanwhile).Places (past ++ now) := by
  rw [turned]
  cases hloop : t.loop with
  | none =>
      refine ⟨[], rfl, fun past hpast => ?_⟩
      rw [List.append_nil]
      exact hpast
  | some next =>
      refine ⟨_, rfl, fun past hpast => ?_⟩
      rw [← List.append_assoc]
      exact ((hpast.hand (hleaves next hloop)).besides meanwhile).drain

/-- A turn for events takes those that wait. -/
theorem turned_takeEvents (c : Course) :
    c.turned none c.loop.takeEvents [] =
      { c with
        loop := c.loop.drain
        turns := c.turns ++ [⟨none, c.loop.queue, c.loop.takeEvents.output⟩] } := by
  rw [turned, Loop.loop_takeEvents]
  dsimp only [List.foldl_nil]
  rw [Loop.handed_drain, Loop.queue_drain, List.append_nil]
  rfl

/-! ### What the accounts say -/

/-- The accounts of a course are complete, and they announce what they should. -/
structure Accounted (c : Course) : Prop where
  /-- Every event has its place. -/
  places : c.Places (c.turns.flatMap (·.taken))
  /-- The turns for events announce the completions that they take, and no other turn does. -/
  announces : ∀ a ∈ c.turns,
    (completionNotice ∈ a.output ↔ a.line = none ∧ ∃ ev ∈ a.taken, isCompletion ev = true)

theorem accounted_start (e : Surroundings) (records : Bool) : (start e records).Accounted :=
  ⟨List.Perm.refl _, nofun⟩

theorem Accounted.beside (h : c.Accounted) (a : Aside) : (c.beside a).Accounted := by
  have hturns : (c.beside a).turns = c.turns := by
    cases a <;> rfl
  constructor
  · rw [hturns]
    exact h.places.beside a
  · rw [hturns]
    exact h.announces

theorem Accounted.surrounded (h : c.Accounted) (e : Surroundings) :
    ({ c with loop := { c.loop with surroundings := e } } : Course).Accounted :=
  ⟨h.places, h.announces⟩

/-- A turn for a line takes events and announces none of them. -/
theorem Accounted.takeLine (h : c.Accounted) (text : List Char) (meanwhile : List Aside) :
    (c.turned (some text) (c.loop.takeLine text) meanwhile).Accounted := by
  obtain ⟨now, hturns, hplaces⟩ :=
    c.exists_taken_turned (some text) (fun _ => Loop.leaves_takeLine) meanwhile
  constructor
  · rw [hturns, List.flatMap_append, List.flatMap_singleton]
    exact hplaces _ h.places
  · intro a ha
    rw [hturns, List.mem_append, List.mem_singleton] at ha
    rcases ha with ha | rfl
    · exact h.announces a ha
    · refine iff_of_false (fun hnotice => ?_) (fun hline => Option.some_ne_none _ hline.1)
      exact not_silent_completionNotice (c.loop.silent_takeLine text _ hnotice)

/-- A turn for events announces the completions among them. -/
theorem Accounted.takeEvents (h : c.Accounted) :
    (c.turned none c.loop.takeEvents []).Accounted := by
  rw [turned_takeEvents]
  constructor
  · dsimp only
    rw [List.flatMap_append, List.flatMap_singleton]
    exact h.places.drain
  · intro a ha
    rcases List.mem_append.mp ha with ha | ha
    · exact h.announces a ha
    · rw [List.mem_singleton.mp ha]
      exact c.loop.completionNotice_mem_takeEvents.trans (and_iff_right rfl).symm

theorem Accounted.step (h : c.Accounted) (s : Stage) : (c.step s).Accounted := by
  unfold Course.step
  by_cases hended : c.ended = true
  · rw [if_pos hended]
    exact h
  · rw [if_neg hended]
    cases s with
    | aside a => exact h.beside a
    | line e text meanwhile => exact (h.surrounded e).takeLine text meanwhile
    | events => exact h.takeEvents

theorem Accounted.run (h : c.Accounted) (stages : List Stage) : (c.run stages).Accounted := by
  induction stages generalizing c with
  | nil => exact h
  | cons s stages ih => exact ih (h.step s)

/-- **Which turns announce a completed countdown.** Whatever happens in whatever order, every event
that was emitted was taken by one turn, or it waits, or it is under way. A turn shows the notice
exactly if it is a turn for events and a completion is among those that it takes. So a completion
that a turn for a line takes is announced by no turn. -/
theorem announces_iff (e : Surroundings) (records : Bool) (stages : List Stage) :
    let c := (start e records).run stages
    (c.turns.flatMap (·.taken) ++ c.loop.queue ++ c.underWay).Perm c.loop.world.log ∧
      ∀ a ∈ c.turns,
        (completionNotice ∈ a.output ↔ a.line = none ∧ ∃ ev ∈ a.taken, isCompletion ev = true) := by
  intro c
  have haccounted : c.Accounted := (accounted_start e records).run stages
  exact ⟨haccounted.places, haccounted.announces⟩

/-- A countdown of one second, until its events have arrived. -/
def secondPassed (e : Surroundings) : List Stage :=
  [.line e ":focus timer".toList [], .line e ":duration 1".toList [], .line e ":start".toList [],
    .aside (.moves (.tick 2)), .aside (.arrives 0), .aside (.arrives 0), .aside (.arrives 0)]

/-- The next turn announces the completion if it is for events. -/
theorem announces_iff_events :
    let e : Surroundings := ⟨.default, 0, 0, true, true⟩
    ∃ a ∈ ((start e false).run (secondPassed e ++ [.events])).turns,
      completionNotice ∈ a.output := by
  intro e
  have htakes : ∃ a ∈ ((start e false).run (secondPassed e ++ [.events])).turns,
      a.line = none ∧ ∃ ev ∈ a.taken, isCompletion ev = true := by
    decide
  obtain ⟨a, ha, htakes⟩ := htakes
  exact ⟨a, ha, ((announces_iff e false _).2 a ha).mpr htakes⟩

/-- It takes the completion and says nothing if it is for a line. -/
theorem completion_taken_in_silence :
    let e : Surroundings := ⟨.default, 0, 0, true, true⟩
    ∃ a ∈ ((start e false).run (secondPassed e ++ [.line e ":dismiss".toList []])).turns,
      (∃ ev ∈ a.taken, isCompletion ev = true) ∧ a.output = ["(hidden)\n"] ∧
        completionNotice ∉ a.output := by
  decide

end Course

end Composer.Console

import Composer.Session.View
/-!
# Composer.Session.Ticket

**Tickets for lookups.** Every channel counts its lookups. A lookup takes a ticket with the number
of its count, and what it brings is wanted only as long as the count has not moved on. Counting on
without a lookup makes all tickets of the channel stale.
-/

namespace Composer

/-- The number of a lookup on its channel. -/
structure Ticket where
  /-- The channel. -/
  channel : Channel
  /-- The count at the start of the lookup. -/
  number : Nat
deriving DecidableEq, Repr

/-- The counts of the channels. -/
structure Tickets where
  /-- The count of the channel for rates. -/
  currency : Nat
  /-- The count of the channel for translations. -/
  translator : Nat
  /-- The count of the channel for definitions. -/
  dictionary : Nat
deriving DecidableEq, Repr

namespace Tickets

/-- No lookup has been started. -/
def initial : Tickets :=
  ⟨0, 0, 0⟩

/-- The count of a channel. -/
def current (t : Tickets) : Channel → Nat
  | .currency => t.currency
  | .translator => t.translator
  | .dictionary => t.dictionary

/-- The counts after one channel has counted on. -/
def invalidate (t : Tickets) : Channel → Tickets
  | .currency => { t with currency := t.currency + 1 }
  | .translator => { t with translator := t.translator + 1 }
  | .dictionary => { t with dictionary := t.dictionary + 1 }

/-- The counts after every channel has counted on. -/
def invalidateAll (t : Tickets) : Tickets :=
  Channel.all.foldl invalidate t

/-- The counts after a lookup has started on a channel. -/
def begin (t : Tickets) (c : Channel) : Tickets :=
  t.invalidate c

/-- The ticket of the lookup that started last on a channel. -/
def ticket (t : Tickets) (c : Channel) : Ticket :=
  ⟨c, t.current c⟩

/-- True when what the lookup of a ticket brings is still wanted. -/
def isCurrent (t : Tickets) (k : Ticket) : Bool :=
  t.current k.channel = k.number

/-- Counting on moves one channel and no other. -/
@[simp] theorem current_invalidate (t : Tickets) (c d : Channel) :
    (t.invalidate c).current d = if d = c then t.current d + 1 else t.current d := by
  cases c <;> cases d <;> rfl

/-- A lookup counts its channel on. -/
@[simp] theorem current_begin (t : Tickets) (c d : Channel) :
    (t.begin c).current d = if d = c then t.current d + 1 else t.current d :=
  t.current_invalidate c d

/-- Every channel counts on by one. -/
@[simp] theorem current_invalidateAll (t : Tickets) (d : Channel) :
    t.invalidateAll.current d = t.current d + 1 := by
  cases d <;> rfl

/-- The lookup that started last is wanted. -/
@[simp] theorem isCurrent_ticket (t : Tickets) (c : Channel) : t.isCurrent (t.ticket c) = true := by
  simp [isCurrent, ticket]

/-- The view with what the lookup of a ticket has brought, or `none` when that is not wanted any
more: the ticket is stale, or another tool is shown. -/
def accept? (t : Tickets) (v : View) (k : Ticket) (brought : Answer) : Option View := do
  if !t.isCurrent k then none
  let m ← v.active
  if m.tool = k.channel.tool ∧ brought.tool = m.tool then some (v.withAnswer brought) else none

end Tickets

end Composer

import Composer.Lookup.Error
/-!
# Composer.Lookup.RateCache

**Keeping exchange rates for a while.** A rate is kept under the name of its ordered pair and
counts for as long as its lifetime lasts. Only rates are kept, never errors. Time is given with
every operation, in the unit of the lifetime.
-/

namespace Composer

/-- A rate that was fetched. -/
structure RateEntry where
  /-- The name of the pair. -/
  key : String
  /-- The rate. -/
  rate : Float
  /-- When it was fetched. -/
  fetchedAt : Nat
deriving DecidableEq

/-- Rates that were fetched. -/
structure RateCache where
  /-- For how long a rate counts. -/
  lifetime : Nat
  /-- The rates, the latest one first. -/
  entries : List RateEntry
deriving DecidableEq

namespace RateCache

/-- A cache without rates. -/
def empty (lifetime : Nat) : RateCache :=
  ⟨lifetime, []⟩

/-- True of an entry that counts at a time. -/
def isFresh (lifetime now : Nat) (e : RateEntry) : Bool :=
  now - e.fetchedAt < lifetime

/-- The rate of a pair at a time. -/
def get? (c : RateCache) (now : Nat) (key : String) : Option Float :=
  ((c.entries.find? (·.key == key)).filter (isFresh c.lifetime now)).map (·.rate)

/-- The cache with the rate of a pair that was fetched now. Entries that count no more go. -/
def insert (c : RateCache) (now : Nat) (key : String) (rate : Float) : RateCache :=
  let others := c.entries.filter fun e => isFresh c.lifetime now e && e.key ≠ key
  { c with entries := ⟨key, rate, now⟩ :: others }

/-- A rate that is kept counts for its lifetime. -/
theorem get?_insert (c : RateCache) (now later : Nat) (key : String) (rate : Float) :
    (c.insert now key rate).get? later key =
      if later - now < c.lifetime then some rate else none := by
  by_cases hfresh : later - now < c.lifetime <;>
    simp [insert, get?, isFresh, Option.filter, hfresh]

/-- The name of an ordered pair of currencies. -/
def keyOf (source target : String) : String :=
  source ++ ":" ++ target

/-- The outcome of a question for a rate that is put at the time `asked`, the cache after it, and
whether the service was asked. The service is asked only for a pair without a rate that counts;
`outcome` is what it says at the time `answered`. -/
def requestOver (c : RateCache) (asked answered : Nat) (source target : String)
    (outcome : Except LookupError Float) : Except LookupError Float × RateCache × Bool :=
  let key := keyOf source target
  match c.get? asked key with
  | some rate => (.ok rate, c, false)
  | none =>
    match outcome with
    | .ok rate => (.ok rate, c.insert answered key rate, true)
    | .error e => (.error e, c, true)

/-- A question to a service that answers at once. -/
def request (c : RateCache) (now : Nat) (source target : String)
    (outcome : Except LookupError Float) : Except LookupError Float × RateCache × Bool :=
  c.requestOver now now source target outcome

end RateCache

end Composer

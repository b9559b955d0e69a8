import Composer.Json.Value
/-!
# Composer.Session.Bus

**A record of messages.** It keeps every message with its topic, in the order of their arrival.
-/

namespace Composer

/-- A topic and a payload. -/
structure Message where
  /-- The topic. -/
  topic : String
  /-- The payload. -/
  payload : Json

/-- The messages that have arrived. -/
structure Bus where
  /-- The messages, the earliest one first. -/
  messages : List Message

namespace Bus

/-- No message has arrived. -/
def empty : Bus :=
  ⟨[]⟩

/-- The record after one more message. -/
def emit (b : Bus) (topic : String) (payload : Json) : Bus :=
  ⟨b.messages ++ [⟨topic, payload⟩]⟩

/-- The messages of a topic. -/
def ofTopic (b : Bus) (topic : String) : List Message :=
  b.messages.filter (·.topic == topic)

/-- The payload of the last message of a topic. -/
def last? (b : Bus) (topic : String) : Option Json :=
  (b.ofTopic topic).getLast?.map (·.payload)

/-- How many messages have arrived. -/
def size (b : Bus) : Nat :=
  b.messages.length

end Bus

end Composer

/-
# Log filters

A filter decides which events are taken into a journal. It sees the topic and the level
of an event and nothing else of it.
-/

import RingTape.Journal.Event

namespace RingTape

/-- Which events are taken, by topic and level. -/
structure LogFilter where
  admits : String → Level → Bool

namespace LogFilter

/-- Nothing passes. -/
def silent : LogFilter := ⟨fun _ _ => false⟩

/-- Everything passes up to a level. -/
def upTo (most : Level) : LogFilter := ⟨fun _ level => level.verbosity ≤ most.verbosity⟩

instance : Inhabited LogFilter := ⟨silent⟩

/-- Whether an event passes. -/
def passes (filter : LogFilter) (event : Event) : Bool := filter.admits event.topic event.level

end LogFilter

end RingTape

import Mathlib.Data.List.Chain

namespace SmartProcurement.Transition

/-! # Change logs

An event carries the value before and after the change; before the first change
there is no value.
-/

variable {Event Value : Type} {before after : Event → Option Value} {events : List Event} {event : Event}
variable {value next : Value}

/-- The events lead, one from the other, from nothing to the current value. -/
structure Replays (before after : Event → Option Value) (events : List Event) (value : Value) : Prop where
  opens : ∃ first, events.head? = some first ∧ before first = none
  chained : events.IsChain fun earlier later => before later = after earlier
  closes : ∃ last, events.getLast? = some last ∧ after last = some value

theorem Replays.single (opens : before event = none) (closes : after event = some value) :
    Replays before after [event] value :=
  ⟨⟨event, rfl, opens⟩, .singleton event, ⟨event, rfl, closes⟩⟩

theorem Replays.snoc (replays : Replays before after events value) (continues : before event = some value)
    (closes : after event = some next) : Replays before after (events ++ [event]) next := by
  obtain ⟨first, isHead, opens⟩ := replays.opens
  obtain ⟨last, isLast, reached⟩ := replays.closes
  refine ⟨⟨first, ?_, opens⟩, ?_, ⟨event, List.getLast?_concat, closes⟩⟩
  · rw [List.head?_append, isHead]
    rfl
  · refine replays.chained.append (.singleton event) fun earlier isEarlier later isLater => ?_
    rw [isLast, Option.mem_some_iff] at isEarlier
    rw [List.head?_singleton, Option.mem_some_iff] at isLater
    rw [← isEarlier, ← isLater, reached, continues]

/-! ## Logs from a value on -/

section Leads

variable {before after : Event → Value} {start value : Value}

/-- The events lead, one from the other, from the first value to the last. -/
def Leads (before after : Event → Value) : Value → List Event → Value → Prop
  | start, [], last => start = last
  | start, event :: rest, last => before event = start ∧ Leads before after (after event) rest last

theorem Leads.snoc (leads : Leads before after start events value) (continues : before event = value) :
    Leads before after start (events ++ [event]) (after event) := by
  induction events generalizing start with
  | nil => exact ⟨continues.trans (Eq.symm leads), rfl⟩
  | cons first rest ih => exact ⟨leads.1, ih leads.2⟩

end Leads

end SmartProcurement.Transition

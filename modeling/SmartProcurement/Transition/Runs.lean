import Mathlib.Data.List.Induction

namespace SmartProcurement.Transition

/-! # Runs of a labelled transition system -/

variable {State Event : Type}

/-- A finite run from `initial`, with the events in the order they happened. -/
inductive Run (step : State → Event → State → Prop) (initial : State) :
    List Event → State → Prop where
  | start : Run step initial [] initial
  | next {events : List Event} {state after : State} {event : Event} :
      Run step initial events state → step state event after →
      Run step initial (events ++ [event]) after

variable {step : State → Event → State → Prop} {initial state : State} {events : List Event}

/-- What holds initially and is preserved by every step holds after every run. -/
theorem Run.invariant (property : State → Prop) (holds : property initial)
    (preserved : ∀ before event after, property before → step before event after → property after)
    (run : Run step initial events state) : property state := by
  induction run with
  | start => exact holds
  | next _ stepped ih => exact preserved _ _ _ ih stepped

/-- The same for a property that also speaks about the events so far. -/
theorem Run.traceInvariant (property : List Event → State → Prop) (holds : property [] initial)
    (preserved : ∀ trace before event after, property trace before → step before event after →
      property (trace ++ [event]) after)
    (run : Run step initial events state) : property events state := by
  induction run with
  | start => exact holds
  | next _ stepped ih => exact preserved _ _ _ _ ih stepped

theorem Run.eq_of_nil (run : Run step initial [] state) : state = initial := by
  generalize none : ([] : List Event) = events at run
  cases run with
  | start => rfl
  | next => simp at none

/-- A deterministic system can be run on any list of events. -/
theorem run_foldl (next : State → Event → State) (initial : State) (events : List Event) :
    Run (fun before event after => next before event = after) initial events (events.foldl next initial) := by
  induction events using List.reverseRecOn with
  | nil => exact .start
  | append_singleton events event ih =>
      rw [List.foldl_append]
      exact ih.next rfl

theorem Run.append {middle final : State} {first second : List Event}
    (head : Run step initial first middle) (tail : Run step middle second final) :
    Run step initial (first ++ second) final := by
  induction tail with
  | start => simpa using head
  | next _ stepped ih => simpa only [← List.append_assoc] using ih.next stepped

/-! ## Conditions on the steps of a deterministic run -/

section Along

variable {next : State → Event → State} {condition good : State → Event → Prop}

/-- Every step of the run meets the condition in the state it starts from. -/
def Along (next : State → Event → State) (condition : State → Event → Prop) (initial : State) :
    List Event → Prop
  | [] => True
  | event :: rest => condition initial event ∧ Along next condition (next initial event) rest

instance [∀ before event, Decidable (condition before event)] (initial : State) :
    (events : List Event) → Decidable (Along next condition initial events)
  | [] => .isTrue trivial
  | event :: rest =>
      have : Decidable (Along next condition (next initial event) rest) := instDecidableAlong (next initial event) rest
      inferInstanceAs (Decidable (condition initial event ∧ Along next condition (next initial event) rest))

theorem along_of_forall (meets : ∀ before event, condition before event) : Along next condition initial events := by
  induction events generalizing initial with
  | nil => trivial
  | cons event rest ih => exact ⟨meets _ _, ih⟩

theorem along_iff : Along next condition initial events ↔
    ∀ before event after, events = before ++ event :: after → condition (before.foldl next initial) event := by
  induction events generalizing initial with
  | nil => exact ⟨fun _ _ _ _ split => by simp at split, fun _ => trivial⟩
  | cons event rest ih =>
      rw [Along, ih]
      constructor
      · rintro ⟨first, later⟩ before event' after split
        cases before with
        | nil =>
            cases split
            exact first
        | cons _ before =>
            cases split
            exact later before event' after rfl
      · intro all
        exact ⟨all [] event rest rfl, fun before event' after split => all (event :: before) event' after (by rw [split]; rfl)⟩

/-- Steps that meet a condition keep the invariant. -/
theorem Along.invariant {property : State → Prop} (holds : property initial)
    (keeps : ∀ before event, property before → condition before event → property (next before event))
    (along : Along next condition initial events) : property (events.foldl next initial) := by
  induction events generalizing initial with
  | nil => exact holds
  | cons event rest ih => exact ih (keeps _ _ holds along.1) along.2

/-- Two conditions that agree wherever an invariant holds, and of which either
keeps the invariant, agree along every run. -/
theorem along_congr {property : State → Prop} (holds : property initial)
    (agree : ∀ before event, property before → (good before event ↔ condition before event))
    (keeps : ∀ before event, property before → condition before event → property (next before event)) :
    Along next good initial events ↔ Along next condition initial events := by
  induction events generalizing initial with
  | nil => exact Iff.rfl
  | cons event rest ih =>
      constructor
      · intro along
        have meets := (agree _ _ holds).mp along.1
        exact ⟨meets, (ih (keeps _ _ holds meets)).mp along.2⟩
      · intro along
        exact ⟨(agree _ _ holds).mpr along.1, (ih (keeps _ _ holds along.1)).mpr along.2⟩

end Along

end SmartProcurement.Transition

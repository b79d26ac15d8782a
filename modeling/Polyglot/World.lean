import Polyglot.Event

/-!
# Worlds

What outlives a single call: the state that plugins keep, which factories ran, and
the events reported. An action changes a world and may fail; what it did before it
failed stays done.
-/

namespace Polyglot

/-- What capabilities keep between calls, and what is on record of the calls. -/
structure World (σ : Type) where
  /-- What the plugins keep. -/
  state : σ
  /-- The factories run so far, in order. -/
  runs : List Nat := []
  /-- The events reported so far, in order. -/
  trace : List Event := []

/-- A step in a world that may fail. -/
abbrev Action (σ α : Type) := EStateM Fault (World σ) α

namespace World

variable {σ : Type}

/-- Puts events on record. -/
def report (world : World σ) (events : List Event) : World σ :=
  { world with trace := world.trace ++ events }

theorem report_report (world : World σ) (first second : List Event) :
    (world.report first).report second = world.report (first ++ second) := by
  simp [report]

end World

namespace Action

variable {σ α : Type}

/-- Reports an event. -/
def report (event : Event) : Action σ Unit := modify fun world => world.report [event]

/-- An action of the state that the plugins keep. -/
def ofState (action : EStateM Fault σ α) : Action σ α := fun world =>
  match action world.state with
  | .ok value state => .ok value { world with state }
  | .error fault state => .error fault { world with state }

/-- An outcome without effect. -/
def ofExcept (outcome : Except Fault α) : Action σ α :=
  match outcome with
  | .ok value => pure value
  | .error fault => throw fault

end Action

end Polyglot

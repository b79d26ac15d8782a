import Polyglot.World

/-!
# Deferred capabilities

A plugin holds a capability as a value or as a factory that builds it when it is
asked for. Nothing is kept of what a factory built: it runs again at each resolving.
`Deferred.append` joins two deferred lists and is lazy when one of them is.
-/

namespace Polyglot

/-- Builds a capability from the state that plugins keep; what it builds may depend
    on how often it ran before. -/
structure Factory (σ α : Type) where
  /-- Tells this factory from all others in the record of the world. -/
  id : Nat
  build : Nat → EStateM Fault σ α

/-- Runs a factory and puts the run on record, also when it fails. -/
def Factory.run {σ α : Type} (factory : Factory σ α) : Action σ α := fun world =>
  Action.ofState (factory.build (world.runs.count factory.id)) { world with runs := world.runs ++ [factory.id] }

/-- A capability, or a way to build it. -/
inductive Deferred (σ α : Type)
  | eager (value : α)
  | lazy (build : Action σ α)

namespace Deferred

variable {σ α : Type}

/-- The capability. -/
def resolve : Deferred σ α → Action σ α
  | .eager value => pure value
  | .lazy build => build

def isLazy : Deferred σ α → Bool
  | .eager _ => false
  | .lazy _ => true

/-- Two lists after each other. Both are resolved in order whenever the whole is. -/
def append : Deferred σ (List α) → Deferred σ (List α) → Deferred σ (List α)
  | .eager head, .eager tail => .eager (head ++ tail)
  | head, tail => .lazy do
    let first ← head.resolve
    let second ← tail.resolve
    pure (first ++ second)

theorem resolve_append (head tail : Deferred σ (List α)) :
    (head.append tail).resolve =
      head.resolve >>= fun first => tail.resolve >>= fun second => pure (first ++ second) := by
  cases head <;> cases tail <;> rfl

theorem isLazy_append (head tail : Deferred σ (List α)) :
    (head.append tail).isLazy = (head.isLazy || tail.isLazy) := by
  cases head <;> cases tail <;> rfl

end Deferred

end Polyglot

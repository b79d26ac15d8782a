import Polyglot.Script.Rules

/-!
# Sessions

A session holds a pipeline, a registry of scripted plugins and options in named
slots, and works on them step by step. A step that fails keeps what it changed
before. Options take a copy of the registry, so that later registrations do not
reach them.
-/

namespace Polyglot

open Script (Journal PluginScript OptionAction ScriptHook ScriptParser ScriptPrinter)

/-- What a session holds. -/
structure Session where
  pipeline : Pipeline := {}
  registry : Registry Script.kit := {}
  slots : Table (Options Script.kit) := []
  world : World Journal := { state := {} }

/-- A step of a session. -/
abbrev Step (α : Type) := EStateM Fault Session α

namespace Session

/-- A session whose plugins are built, and then registered, in order. -/
def start (pipeline : Except Fault Pipeline) (scripts : List PluginScript) : Except Fault Session :=
  let build : Action Journal (Registry Script.kit) := do
    let plugins ← Action.ofState (scripts.mapM PluginScript.build)
    Registry.registerAll {} plugins
  match build { state := {} } with
  | .error fault _ => .error fault
  | .ok registry world => do
    let pipeline ← pipeline
    pure { pipeline, registry, world }

/-- What was recorded since this was last asked for, and the session without it. -/
def drain (session : Session) : List Script.Entry × List Event × Session :=
  (session.world.state.entries, session.world.trace,
    { session with
      world := { session.world with trace := [], state := { session.world.state with entries := [] } } })

/-! ## Kinds of steps -/

/-- A step in the world. -/
def act {α : Type} (action : Action Journal α) : Step α := fun session =>
  match action session.world with
  | .ok value world => .ok value { session with world }
  | .error fault world => .error fault { session with world }

/-- A lookup in the registry. -/
def look {α : Type} (find : Registry Script.kit → Except Fault α) : Step α := do
  act (.ofExcept (find (← get).registry))

/-- Puts options into a slot. -/
def setSlot (slot : String) (options : Options Script.kit) : Step Unit :=
  modify fun session => { session with slots := session.slots.insert slot options }

/-- The options in a slot; an empty slot is filled with options that name no parser. -/
def slotOptions (slot : String) : Step (Options Script.kit) := do
  let session ← get
  match session.slots.lookup slot with
  | some options => pure options
  | none =>
    let options := Options.new session.registry ""
    setSlot slot options
    pure options

/-- The session after a run on the options in a slot. -/
def settle (session : Session) (slot : String) (after : Invocation Script.kit) : Session :=
  { session with world := after.world, slots := session.slots.insert slot after.options }

/-- A step on the options in a slot. -/
def within {α : Type} (slot : String) (run : Run Script.kit α) : Step α := do
  let options ← slotOptions slot
  fun session =>
    match run ⟨options, session.world⟩ with
    | .ok value after => .ok value (session.settle slot after)
    | .error fault after => .error fault (session.settle slot after)

end Session

end Polyglot

import Polyglot.Frame.Basic

/-!
# Faults

The failures that parsing reports: a kind, a message, and where known the location
in the text. A located fault of a parser is given a frame once, which the message
then ends with.
-/

namespace Polyglot

/-- What a fault is about. -/
inductive FaultKind
  /-- A name could not be resolved, or a plugin or a setting is inconsistent. -/
  | configuration
  /-- The text is not of the language. -/
  | syntactic
  /-- A caller broke a precondition. -/
  | internal
  /-- A hook or a factory of a plugin failed. -/
  | plugin
  /-- A value could not be had from its serialized form. -/
  | serialization
  deriving DecidableEq, Inhabited, Repr

namespace FaultKind

/-- The name of a kind in serialized faults. -/
def name : FaultKind → String
  | .configuration => "Configuration"
  | .syntactic => "Syntax"
  | .internal => "Internal"
  | .plugin => "Plugin"
  | .serialization => "Serialization"

/-- The name of a kind before a message. -/
def title : FaultKind → String
  | .configuration => "CONFIGURATION"
  | .syntactic => "SYNTAX"
  | .internal => "INTERNAL"
  | .plugin => "PLUGIN"
  | .serialization => "SERIALIZATION"

def all : List FaultKind := [.configuration, .syntactic, .internal, .plugin, .serialization]

end FaultKind

/-- The problem underneath a failure, and the line and the column where it was seen in
    a serialized text. -/
structure Cause where
  problem : String
  place : Option (Nat × Nat) := none
  deriving DecidableEq, Inhabited, Repr

def Cause.text (cause : Cause) : String :=
  match cause.place with
  | none => cause.problem
  | some (line, column) => cause.problem ++ " at line " ++ toString line ++ " column " ++ toString column

/-- A failure. -/
structure Fault where
  kind : FaultKind
  message : String
  location : Option Location := none
  /-- The frame that the message ends with. -/
  frame : Option String := none
  /-- The problem underneath. -/
  cause : Option Cause := none
  deriving DecidableEq, Inhabited, Repr

namespace Fault

def configuration (message : String) : Fault := { kind := .configuration, message }
def syntactic (message : String) : Fault := { kind := .syntactic, message }
def internal (message : String) : Fault := { kind := .internal, message }
def plugin (message : String) : Fault := { kind := .plugin, message }

/-- A failure to read or decode a serialized value, from the problem underneath. -/
def serialization (cause : Cause) : Fault :=
  { kind := .serialization, message := "JSON serialization error: " ++ cause.text, cause := some cause }

/-- The fault as one line of text, or several when it has a frame. -/
def display (fault : Fault) : String := fault.kind.title ++ ": " ++ fault.message

def isKind (fault : Fault) (kind : FaultKind) : Bool := fault.kind = kind

def located (fault : Fault) (location : Location) : Fault := { fault with location := some location }

/-- Ends the message with a frame and keeps a copy. -/
def attach (fault : Fault) (frame : String) : Fault :=
  { fault with message := fault.message ++ "\n" ++ frame, frame := some frame }

/-- A copy: the cause stays with the first. -/
def copy (fault : Fault) : Fault := { fault with cause := none }

/-- Gives a located fault without a frame the frame of its location in a text. -/
def framed (fault : Fault) (settings : FrameSettings) (text : String) : Fault :=
  match fault.frame, fault.location with
  | none, some location => fault.attach (Frame.render settings text location)
  | _, _ => fault

theorem framed_of_frame {fault : Fault} (has : fault.frame.isSome) (settings : FrameSettings) (text : String) :
    fault.framed settings text = fault := by
  unfold framed
  split
  · next none_ _ => simp [none_] at has
  · rfl

theorem framed_of_no_location {fault : Fault} (unlocated : fault.location = none)
    (settings : FrameSettings) (text : String) : fault.framed settings text = fault := by
  unfold framed
  split
  · next some_ => simp [unlocated] at some_
  · rfl

theorem framed_of_located {fault : Fault} {location : Location} (located : fault.location = some location)
    (bare : fault.frame = none) (settings : FrameSettings) (text : String) :
    fault.framed settings text = fault.attach (Frame.render settings text location) := by
  simp only [framed, located, bare]

@[simp] theorem kind_framed (fault : Fault) (settings : FrameSettings) (text : String) :
    (fault.framed settings text).kind = fault.kind := by
  unfold framed; split <;> rfl

@[simp] theorem location_framed (fault : Fault) (settings : FrameSettings) (text : String) :
    (fault.framed settings text).location = fault.location := by
  unfold framed; split <;> rfl

@[simp] theorem cause_framed (fault : Fault) (settings : FrameSettings) (text : String) :
    (fault.framed settings text).cause = fault.cause := by
  unfold framed; split <;> rfl

/-- A frame is put on a fault only where it has a location and no frame yet. -/
theorem framed_eq_self_iff (fault : Fault) (settings : FrameSettings) (text : String) :
    fault.framed settings text = fault ↔ fault.location = none ∨ fault.frame.isSome := by
  constructor
  · intro same
    cases located : fault.location with
    | none => exact .inl rfl
    | some location =>
      cases bare : fault.frame with
      | some frame => exact .inr rfl
      | none =>
        have frame := congrArg Fault.frame same
        rw [framed_of_located located bare, bare] at frame
        cases frame
  · rintro (unlocated | has)
    · exact framed_of_no_location unlocated settings text
    · exact framed_of_frame has settings text

/-- A frame is put on a fault at most once. -/
theorem framed_framed (fault : Fault) (first second : FrameSettings) (text other : String) :
    (fault.framed first text).framed second other = fault.framed first text := by
  rw [framed_eq_self_iff, location_framed]
  cases located : fault.location with
  | none => exact .inl rfl
  | some location =>
    cases bare : fault.frame with
    | none => rw [framed_of_located located bare]; exact .inr rfl
    | some frame => rw [framed_of_frame (by rw [bare]; rfl), bare]; exact .inr rfl

end Fault

end Polyglot

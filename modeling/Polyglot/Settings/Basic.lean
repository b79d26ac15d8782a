/-!
# Settings

What a caller can set: how much of a text a frame shows around a failure, and how
events are logged. Every section and every key has a default.
-/

namespace Polyglot

/-- The lines of context that a frame shows. -/
structure FrameSettings where
  linesAbove : UInt64 := 2
  linesBelow : UInt64 := 3
  deriving DecidableEq, Inhabited, Repr

/-- The least level of the events that are logged, and their format. -/
structure LogSettings where
  level : String := "info"
  format : String := "pretty"
  deriving DecidableEq, Inhabited, Repr

/-- All settings. -/
structure Settings where
  frame : FrameSettings := {}
  log : LogSettings := {}
  deriving DecidableEq, Inhabited, Repr

end Polyglot

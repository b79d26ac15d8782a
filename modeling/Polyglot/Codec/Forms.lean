import Polyglot.Codec.Choice
import Polyglot.Codec.Record
import Polyglot.Scope

/-!
# Serialized forms

The codecs of the library's own values: positions and locations, scopes, stages,
kinds of faults, contexts and settings.
-/

namespace Polyglot

open Codec (record choice)

def Position.codec : Codec Position :=
  record {
    name := "Position"
    first := .required "line" .word
    second := .required "column" .word
    make := Position.mk
    parts := fun p => (p.line, p.column) }

def Location.codec : Codec Location :=
  record {
    name := "SourceLocation"
    first := .required "start" Position.codec
    second := .optional "end" Position.codec
    make := Location.mk
    parts := fun l => (l.start, l.stop) }

def Context.codec : Codec Context :=
  record {
    name := "ParseContext"
    first := .required "parser" .text
    second := .optional "parent_parser" .text
    make := Context.mk
    parts := fun c => (c.parser, c.parent) }

def FrameSettings.codec : Codec FrameSettings :=
  record {
    name := "CodeFrameConfig"
    first := .defaulted "lines_above" .word ({} : FrameSettings).linesAbove
    second := .defaulted "lines_below" .word ({} : FrameSettings).linesBelow
    make := FrameSettings.mk
    parts := fun s => (s.linesAbove, s.linesBelow) }

def LogSettings.codec : Codec LogSettings :=
  record {
    name := "LoggingConfig"
    first := .defaulted "level" .text ({} : LogSettings).level
    second := .defaulted "format" .text ({} : LogSettings).format
    make := LogSettings.mk
    parts := fun s => (s.level, s.format) }

def Settings.codec : Codec Settings :=
  record {
    name := "PipelineConfig"
    first := .defaulted "code_frame" FrameSettings.codec {}
    second := .defaulted "logging" LogSettings.codec {}
    make := Settings.mk
    parts := fun s => (s.frame, s.log) }

def Stage.codec : Codec Stage :=
  choice {
    variants := [("before_parse", .unit .beforeParse), ("after_parse", .unit .afterParse)]
    name := fun stage => (stage.name, none) }

def Scope.codec : Codec Scope :=
  choice {
    variants := [("any", .unit .any), ("parser", .carrying .parser), ("parent_parser", .carrying .parent)]
    name := fun
      | .any => ("any", none)
      | .parser name => ("parser", some name)
      | .parent name => ("parent_parser", some name) }

def FaultKind.codec : Codec FaultKind :=
  choice {
    variants := FaultKind.all.map fun kind => (kind.name, .unit kind)
    name := fun kind => (kind.name, none) }

/-- Decodes a value; a problem is a serialization fault. -/
def Codec.decodeFault {α : Type} (codec : Codec α) (json : Json) : Except Fault α :=
  match codec.decode json with
  | .ok value => .ok value
  | .error problem => .error (.serialization { problem := problem.message })

/-- The fault of a text that cannot be read. -/
def Fault.ofTextError (error : Json.TextError) : Fault := .serialization ⟨error.problem.message, error.place⟩

/-- Reads a text; a problem is a serialization fault. -/
def Codec.readFault {α : Type} (codec : Codec α) (text : String) : Except Fault α :=
  match codec.ofText text with
  | .ok value => .ok value
  | .error error => .error (.ofTextError error)

end Polyglot

import Mathlib.Data.List.Induction
import Polyglot.Fault

/-!
# What is done to faults

After it has been made, a fault can be given frames and locations, and be copied, in any order. Its message is then
the first one and after it each frame that it was given, and it keeps the last of these (`treated_eq`). The frame of
its location it is given at most once, and only as its first (`framed_eq_self_or`).
-/

namespace Polyglot.Fault

/-- What can be done to a fault. -/
inductive Treatment
  | attach (frame : String)
  | locate (location : Location)
  | copy
  /-- It is given the frame of its location, if it has none. -/
  | render (settings : FrameSettings) (text : String)
  deriving DecidableEq

/-- The fault after what is done to it. -/
def Treatment.apply (fault : Fault) : Treatment → Fault
  | .attach frame => fault.attach frame
  | .locate location => fault.located location
  | .copy => fault.copy
  | .render settings text => fault.framed settings text

/-- The location that a treatment gives. -/
def Treatment.location? : Treatment → Option Location
  | .locate location => some location
  | _ => none

/-- The fault after several treatments. -/
def treated (fault : Fault) (treatments : List Treatment) : Fault := treatments.foldl Treatment.apply fault

/-! ## Histories -/

/-- What has been done to a fault: the frames that it was given, in order, where it was said to be last, and whether
    it is a copy. -/
structure History where
  frames : List String := []
  location : Option Location
  copied : Bool := false

namespace History

/-- The history with a treatment more. Of a fault that has a location, and was given no frame, the frame of this
    location is the first one. -/
def note (history : History) : Treatment → History
  | .attach frame => { history with frames := history.frames ++ [frame] }
  | .locate location => { history with location := some location }
  | .copy => { history with copied := true }
  | .render settings text =>
    match history.frames, history.location with
    | [], some location => { history with frames := [Frame.render settings text location] }
    | _, _ => history

/-- The history of a fault that began with a location. -/
def ofTreatments (location : Option Location) (treatments : List Treatment) : History :=
  treatments.foldl note { location }

/-- What a history makes of a fault that began without a frame. -/
def outcome (history : History) (fault : Fault) : Fault where
  kind := fault.kind
  message := fault.message ++ String.join (history.frames.map ("\n" ++ ·))
  location := history.location
  frame := history.frames.getLast?
  cause := if history.copied then none else fault.cause

theorem ofTreatments_append (location : Option Location) (first second : List Treatment) :
    ofTreatments location (first ++ second) = second.foldl note (ofTreatments location first) := List.foldl_append

theorem outcome_attach (history : History) (fault : Fault) (frame : String) :
    (history.outcome fault).attach frame = { history with frames := history.frames ++ [frame] }.outcome fault := by
  simp only [outcome, attach, List.map_append, List.map_singleton, String.join_append, String.join_cons,
    String.join_nil, String.append_empty, String.append_assoc, List.getLast?_concat]

/-- A treatment does to a fault what it adds to its history. -/
theorem apply_outcome (history : History) (fault : Fault) (treatment : Treatment) :
    treatment.apply (history.outcome fault) = (history.note treatment).outcome fault := by
  cases treatment with
  | attach frame => exact outcome_attach history fault frame
  | locate location => rfl
  | copy => rfl
  | render settings text =>
    obtain ⟨frames, location, copied⟩ := history
    cases frames with
    | nil =>
      cases location with
      | none =>
        have unlocated : (outcome ⟨[], none, copied⟩ fault).location = none := rfl
        exact framed_of_no_location unlocated settings text
      | some location => exact outcome_attach ⟨[], some location, copied⟩ fault _
    | cons first more =>
      have framed : (outcome ⟨first :: more, location, copied⟩ fault).frame.isSome :=
        List.getLast?_isSome.mpr (List.cons_ne_nil first more)
      exact framed_of_frame framed settings text

theorem treated_outcome (history : History) (fault : Fault) (treatments : List Treatment) :
    (history.outcome fault).treated treatments = (treatments.foldl note history).outcome fault := by
  induction treatments generalizing history with
  | nil => rfl
  | cons treatment rest ih =>
    rw [treated, List.foldl_cons, apply_outcome, List.foldl_cons]
    exact ih (history.note treatment)

/-! ## Where it was said to be, and whether it is a copy -/

theorem location_note (history : History) (treatment : Treatment) :
    (history.note treatment).location = treatment.location?.or history.location := by
  cases treatment with
  | attach frame => rfl
  | locate location => rfl
  | copy => rfl
  | render settings text =>
    simp only [note]
    split <;> rfl

theorem copied_note (history : History) (treatment : Treatment) :
    (history.note treatment).copied = (decide (treatment = .copy) || history.copied) := by
  cases treatment with
  | attach frame => rfl
  | locate location => rfl
  | copy => rfl
  | render settings text =>
    simp only [note]
    split <;> rfl

theorem location_ofTreatments (location : Option Location) (treatments : List Treatment) :
    (ofTreatments location treatments).location =
      (treatments.filterMap Treatment.location?).getLast?.or location := by
  -- The last treatment decides, so it is the one that is taken off.
  induction treatments using List.reverseRecOn with
  | nil => rfl
  | append_singleton before treatment ih =>
    rw [ofTreatments_append, List.foldl_cons, List.foldl_nil, location_note, ih, List.filterMap_append,
      List.getLast?_append, Option.or_assoc]
    cases treatment <;> rfl

theorem copied_ofTreatments (location : Option Location) (treatments : List Treatment) :
    (ofTreatments location treatments).copied = decide (.copy ∈ treatments) := by
  induction treatments using List.reverseRecOn with
  | nil => rfl
  | append_singleton before treatment ih =>
    rw [ofTreatments_append, List.foldl_cons, List.foldl_nil, copied_note, ih]
    simp only [List.mem_append, List.mem_singleton, Bool.decide_or, eq_comm (a := treatment), Bool.or_comm]

end History

/-! ## The frame of a location -/

theorem isSome_frame_apply {fault : Fault} (has : fault.frame.isSome) (treatment : Treatment) :
    (treatment.apply fault).frame.isSome := by
  cases treatment with
  | attach frame => rfl
  | locate location => exact has
  | copy => exact has
  | render settings text => rwa [Treatment.apply, framed_of_frame has]

theorem isSome_frame_treated {fault : Fault} (has : fault.frame.isSome) (treatments : List Treatment) :
    (fault.treated treatments).frame.isSome := by
  induction treatments generalizing fault with
  | nil => exact has
  | cons treatment rest ih => exact ih (isSome_frame_apply has treatment)

/-- A fault that is given the frame of its location is not given one again, whatever is done to it in between. -/
theorem framed_eq_self_or (fault : Fault) (settings : FrameSettings) (text : String) (between : List Treatment)
    (others : FrameSettings) (other : String) :
    fault.framed settings text = fault ∨
      ((fault.framed settings text).treated between).framed others other =
        (fault.framed settings text).treated between := by
  cases located : fault.location with
  | none => exact .inl (framed_of_no_location located settings text)
  | some location =>
    cases bare : fault.frame with
    | some frame => exact .inl (framed_of_frame (by rw [bare]; rfl) settings text)
    | none =>
      have has : (fault.framed settings text).frame.isSome := by
        rw [framed_of_located located bare]
        rfl
      exact .inr (framed_of_frame (isSome_frame_treated has between) others other)

/-- Whatever is done to a fault that began without a frame, its kind stays, and its message goes on with each frame
    that it was given. It has the last of them, the last location that it was given, and its cause unless it was
    copied. It takes on the frame of its location just where it has a location and was given no frame before, and so
    only once. -/
theorem treated_eq (kind : FaultKind) (message : String) (location : Option Location) (cause : Option Cause)
    (treatments : List Treatment) :
    let fault : Fault := { kind, message, location, cause }
    let frames := (History.ofTreatments location treatments).frames
    fault.treated treatments =
        { kind
          message := message ++ String.join (frames.map ("\n" ++ ·))
          location := (treatments.filterMap Treatment.location?).getLast?.or location
          frame := frames.getLast?
          cause := if .copy ∈ treatments then none else cause } ∧
      (∀ settings text, (fault.treated treatments).framed settings text ≠ fault.treated treatments ↔
        (fault.treated treatments).location.isSome ∧ frames = []) ∧
      ∀ settings text between others other,
        (fault.treated treatments).framed settings text = fault.treated treatments ∨
          (((fault.treated treatments).framed settings text).treated between).framed others other =
            ((fault.treated treatments).framed settings text).treated between := by
  intro fault frames
  have start : fault = History.outcome { location } fault := by
    simp [History.outcome, fault]
  have run : fault.treated treatments = (History.ofTreatments location treatments).outcome fault := by
    conv_lhs => rw [start]
    exact History.treated_outcome _ fault treatments
  refine ⟨?_, fun settings text => ?_, fun settings text => framed_eq_self_or _ settings text⟩
  · rw [run, History.outcome, History.location_ofTreatments, History.copied_ofTreatments]
    simp [frames, fault]
  · have frame : (fault.treated treatments).frame = frames.getLast? := by rw [run]; rfl
    rw [ne_eq, framed_eq_self_iff, frame, not_or, ← ne_eq, Option.ne_none_iff_isSome, Bool.not_eq_true,
      Option.isSome_eq_false_iff, Option.isNone_iff_eq_none, List.getLast?_eq_none_iff]

end Polyglot.Fault

import ImmersedBody.Restart.Record
import ImmersedBody.TimeStep.Protocol

/-!
# Notices

What the library tells while it works is a value, so that a caller decides where it goes.
-/

namespace ImmersedBody

/-- How important a notice is. -/
inductive NoticeLevel where
  | warning
  | information
  | debugging
deriving DecidableEq, Repr

/-- The name of a level. -/
def NoticeLevel.name : NoticeLevel → String
  | warning => "WARN"
  | information => "INFO"
  | debugging => "DEBUG"

/-- What the library tells. -/
inductive Notice (α : Type) where
  | step (notice : StepNotice α)
  | assembled (parts : Nat)
  | registered (objectName : String) (structures rank size : Nat)
  | described (objectName : String) (part nodes : Nat) (volume : α) (center : Vec3 α)
  | advanced (objectName : String) (rule : AdvanceRule) (window : StepWindow α)
  /-- Constraint forces come from outside, so there is nothing to compute. -/
  | skippedForce (objectName : String) (time : α)
  /-- A constraint force was asked for at a time that has none. -/
  | unmatchedForceTime (objectName : String) (time : α)
  | restored (objectName : String) (structures : Nat)
  | wroteRecord (objectName : String) (structures : Nat)
  | readRecord (objectName : String) (structures : Nat)
deriving DecidableEq

namespace Notice

/-- How important a notice is. -/
def level {α : Type} : Notice α → NoticeLevel
  | step (.unconsumedRequest _) => .warning
  | step _ => .debugging
  | assembled .. | registered .. | described .. | advanced .. | skippedForce .. => .debugging
  | unmatchedForceTime .. => .warning
  | restored .. | wroteRecord .. | readRecord .. => .information

/-- A vector as it stands in a notice. -/
def vectorText (v : Vec3 Float) : String :=
  "[" ++ ", ".intercalate (v.toList.map descriptionText) ++ "]"

/-- The words for a notice of the protocol. -/
def stepMessage : StepNotice Float → String
  | .began window => "began time step " ++ StepWindow.message window
  | .ended window => "ended time step " ++ StepWindow.message window
  | .unconsumedRequest window =>
    "The " ++ Handoff.lagrangianVelocity.message
      ++ " was produced but never consumed during time step " ++ StepWindow.message window ++ "."
  | .skippedInterpolation => "skipping velocity interpolation, no interpolation was requested"
  | .skippedSpreading => "skipping force spreading, no constraint force was set"

/-- The words for a notice. -/
def message : Notice Float → String
  | step notice => stepMessage notice
  | assembled parts => s!"assembled composite vector with {parts} sub-vectors"
  | registered objectName structures rank size =>
    s!"{objectName}: registered {structures} structures on rank {rank} of {size}"
  | described objectName part nodes volume center =>
    s!"{objectName}: structure {part} has {nodes} nodes, volume " ++ messageText volume
      ++ " and center of mass " ++ vectorText center
  | advanced objectName rule window =>
    objectName ++ ": advanced positions with the " ++ rule.message ++ " rule over "
      ++ StepWindow.message window
  | skippedForce objectName time =>
    objectName ++ ": skipping Lagrangian force computation at time " ++ messageText time
  | unmatchedForceTime objectName time =>
    objectName ++ ": constraint force requested at time " ++ messageText time
      ++ ", which is neither the current nor the new time."
  | restored objectName structures =>
    s!"{objectName}: restored rigid velocities of {structures} structures"
  | wroteRecord objectName structures =>
    s!"wrote restart record for `{objectName}` with {structures} structures"
  | readRecord objectName structures =>
    s!"read restart record for `{objectName}` with {structures} structures"

end Notice

end ImmersedBody

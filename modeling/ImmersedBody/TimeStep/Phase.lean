/-!
# Phases and operations of a time step

Every operation of a step is checked against one table, `Phase.after`.  It says in which phases the
operation is accepted and to which phase it leads.

Outside of a step only its opening is accepted.  A step first predicts positions and then runs the
constraint solve, whose operations may repeat in any order.  The forward Euler prediction is only
accepted before the positions have been advanced, while the midpoint update may also follow the
constraint solve, which supplies the half-time rigid velocity.  Interpolation during the solve or
after the positions have been advanced leaves the phase unchanged, as do queries and requests.
-/

namespace ImmersedBody

/-- The rule by which positions are advanced over a step or a part of it. -/
inductive AdvanceRule where
  /-- A half step from the current time with the current velocities. -/
  | forwardEuler
  /-- A full step with the half-time velocities. -/
  | midpoint
  /-- Not available: a trapezoidal update is no composition of finite rotations. -/
  | trapezoidal
deriving DecidableEq, Repr

namespace AdvanceRule

/-- The name of a rule in stored texts. -/
def name : AdvanceRule → String
  | forwardEuler => "ForwardEuler"
  | midpoint => "Midpoint"
  | trapezoidal => "Trapezoidal"

/-- All rules by name. -/
def byName : List (String × AdvanceRule) :=
  [forwardEuler, midpoint, trapezoidal].map fun rule => (rule.name, rule)

/-- A rule as it is called in messages. -/
def message : AdvanceRule → String
  | forwardEuler => "forward Euler"
  | midpoint => "midpoint"
  | trapezoidal => "trapezoidal"

end AdvanceRule

/-- The last successful operation of the current step. -/
inductive Phase where
  | idle
  | preprocessed
  | velocityInterpolated
  | positionAdvanced
  | forceSet
  | forceConsumed
  | velocitySet
  | forceSpread
  | postprocessed
deriving DecidableEq, Repr

namespace Phase

/-- The name of a phase. -/
def name : Phase → String
  | idle => "Idle"
  | preprocessed => "Preprocessed"
  | velocityInterpolated => "VelocityInterpolated"
  | positionAdvanced => "PositionAdvanced"
  | forceSet => "ForceSet"
  | forceConsumed => "ForceConsumed"
  | velocitySet => "VelocitySet"
  | forceSpread => "ForceSpread"
  | postprocessed => "Postprocessed"

/-- All phases by name. -/
def byName : List (String × Phase) :=
  [idle, preprocessed, velocityInterpolated, positionAdvanced, forceSet, forceConsumed,
    velocitySet, forceSpread, postprocessed].map fun phase => (phase.name, phase)

/-- Whether the phase lies between the opening and the closing of a step. -/
def inStep : Phase → Bool
  | idle | postprocessed => false
  | _ => true

/-- Whether no position has been advanced in the step yet. -/
def predicting : Phase → Bool
  | preprocessed | velocityInterpolated => true
  | _ => false

/-- Whether the constraint solve has started. -/
def solving : Phase → Bool
  | forceSet | forceConsumed | velocitySet | forceSpread => true
  | _ => false

end Phase

/-- The operations that are checked against the phase of the step. -/
inductive Operation where
  | preprocess
  | requestInterpolation
  | interpolateVelocity
  | getVelocity
  | advancePositions (rule : AdvanceRule)
  | setForce
  | getForce
  | computeForce
  | setVelocity
  | spreadForce
  | postprocess
deriving DecidableEq, Repr

namespace Operation

/-- The name of an operation; one that advances positions has the name of its rule behind it. -/
def name : Operation → String
  | preprocess => "Preprocess"
  | requestInterpolation => "RequestVelocityInterpolation"
  | interpolateVelocity => "InterpolateVelocity"
  | getVelocity => "GetInterpolatedVelocity"
  | advancePositions rule => "AdvancePositions:" ++ rule.name
  | setForce => "SetConstraintForce"
  | getForce => "GetConstraintForce"
  | computeForce => "ComputeGeneralizedForce"
  | setVelocity => "SetRigidBodyVelocity"
  | spreadForce => "SpreadForce"
  | postprocess => "Postprocess"

/-- All operations by name. -/
def byName : List (String × Operation) :=
  ([preprocess, requestInterpolation, interpolateVelocity, getVelocity, setForce, getForce,
    computeForce, setVelocity, spreadForce, postprocess]
    ++ [.forwardEuler, .midpoint, .trapezoidal].map advancePositions).map
      fun operation => (operation.name, operation)

/-- An operation as it is called in messages. -/
def message : Operation → String
  | preprocess => "preprocess_integrate_data"
  | requestInterpolation => "request_velocity_interpolation"
  | interpolateVelocity => "interpolate_velocity"
  | getVelocity => "get_interpolated_velocity"
  | advancePositions rule => "advance positions (" ++ rule.message ++ ")"
  | setForce => "set_constraint_force"
  | getForce => "get_constraint_force"
  | computeForce => "compute_net_rigid_generalized_force"
  | setVelocity => "set_rigid_body_velocity"
  | spreadForce => "spread_force"
  | postprocess => "postprocess_integrate_data"

end Operation

/-- Why an operation is not accepted in a phase. -/
inductive Refusal where
  | notInStep
  | alreadyOpen
  | unsupportedRule (rule : AdvanceRule)
  | outOfOrder
deriving DecidableEq, Repr

namespace Phase

/-- The phase after an operation, or why the operation is refused. -/
def after (phase : Phase) (operation : Operation) : Except Refusal Phase :=
  let onlyIf (accepted : Bool) (next : Phase) : Except Refusal Phase :=
    if accepted then .ok next else .error .outOfOrder
  if phase.inStep then
    match operation with
    | .preprocess => .error .alreadyOpen
    | .advancePositions .trapezoidal => .error (.unsupportedRule .trapezoidal)
    | .interpolateVelocity => .ok (if phase.predicting then velocityInterpolated else phase)
    | .advancePositions .forwardEuler => onlyIf phase.predicting positionAdvanced
    | .advancePositions .midpoint => onlyIf (phase != forceSet) positionAdvanced
    | .setForce => .ok forceSet
    | .computeForce => onlyIf phase.solving forceConsumed
    | .setVelocity => onlyIf (phase.solving || phase == positionAdvanced) velocitySet
    | .spreadForce => onlyIf (phase.solving || phase == positionAdvanced) forceSpread
    | .postprocess =>
      onlyIf (phase == positionAdvanced || phase == forceConsumed || phase == velocitySet
        || phase == forceSpread) postprocessed
    | .requestInterpolation | .getVelocity | .getForce => .ok phase
  else if operation = .preprocess then .ok preprocessed
  else .error .notInStep

end Phase

end ImmersedBody

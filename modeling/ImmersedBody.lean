import ImmersedBody.Restart.Store
import ImmersedBody.Mesh.Split
import ImmersedBody.Rigid.Force
import ImmersedBody.Flow.Linear
import ImmersedBody.Json.Value
import ImmersedBody.Ranks.Cluster
import ImmersedBody.Coordinator.Step
import ImmersedBody.Coordinator.Exchange
import ImmersedBody.Proofs.Outcomes
import ImmersedBody.Proofs.TimeStep.Operations
import ImmersedBody.Proofs.TimeStep.Consistency
import ImmersedBody.Proofs.Ranks.Schedule
import ImmersedBody.Proofs.Ranks.Coherence
import ImmersedBody.Proofs.Ranks.Agreement
import ImmersedBody.Proofs.Ranks.Departures
import ImmersedBody.Proofs.Ranks.Progress
import ImmersedBody.Proofs.Ranks.Alone
import ImmersedBody.Proofs.Ranks.Reproduction
import ImmersedBody.Proofs.Coordinator.Work
import ImmersedBody.Proofs.Rigid.Soundness
import ImmersedBody.Proofs.Coordinator.Bodies
import ImmersedBody.Proofs.TimeStep.Handoff
import ImmersedBody.Proofs.TimeStep.Alternation
import ImmersedBody.Proofs.TimeStep.Ordering
import ImmersedBody.Proofs.TimeStep.Closing
import ImmersedBody.Proofs.TimeStep.Boundaries
import ImmersedBody.Proofs.TimeStep.Matching
import ImmersedBody.Proofs.Coordinator.Forces
import ImmersedBody.Proofs.Coordinator.ForceOperations
import ImmersedBody.Proofs.Coordinator.Spreading
import ImmersedBody.Proofs.Coordinator.Calls
import ImmersedBody.Proofs.Coordinator.HandOff
import ImmersedBody.Proofs.Coordinator.Failures
import ImmersedBody.Proofs.Coordinator.Frames
import ImmersedBody.Proofs.Coordinator.Currents
import ImmersedBody.Proofs.Coordinator.Commits
import ImmersedBody.Proofs.Coordinator.Refinement
import ImmersedBody.Proofs.Rigid.DistributedIntegrals
import ImmersedBody.Proofs.Rigid.Power
import ImmersedBody.Proofs.Rigid.Placements
import ImmersedBody.Proofs.Coordinator.Standing
import ImmersedBody.Proofs.Coordinator.RigidMotion
import ImmersedBody.Proofs.Coordinator.SerialSessions
import ImmersedBody.Proofs.Coordinator.Congruence
import ImmersedBody.Proofs.Rigid.FreeMotion
import ImmersedBody.Proofs.Coordinator.CompletedSteps
import ImmersedBody.Proofs.Coordinator.ConstantVelocity
import ImmersedBody.Proofs.Coordinator.PlainSteps
import ImmersedBody.Proofs.Coordinator.ExactMotion
import ImmersedBody.Proofs.Mesh.Completeness
import ImmersedBody.Proofs.Quadrature.Exactness
import ImmersedBody.Proofs.Quadrature.Legendre
import ImmersedBody.Proofs.Field.Coherence
import ImmersedBody.Proofs.Field.FlatViews
import ImmersedBody.Proofs.Coordinator.Wholeness
import ImmersedBody.Proofs.Coordinator.Maintenance
import ImmersedBody.Proofs.Coordinator.Safety
import ImmersedBody.Proofs.Json.Records
import ImmersedBody.Proofs.Restart.Restoring
import ImmersedBody.Proofs.Settings
import ImmersedBody.Proofs.Mesh.Conformity
import ImmersedBody.Proofs.Coordinator.OpenSteps
import ImmersedBody.Proofs.Coordinator.Lasting
import ImmersedBody.Proofs.Coordinator.Velocities
import ImmersedBody.Proofs.Coordinator.Masses
import ImmersedBody.Proofs.Coordinator.HandedForces
import ImmersedBody.Proofs.Coordinator.Sampling
import ImmersedBody.Proofs.TimeStep.Atomicity
import ImmersedBody.Proofs.Ranks.Possibilities
import ImmersedBody.Proofs.Coordinator.Rejections
import ImmersedBody.Proofs.Coordinator.RejectedVelocities
import ImmersedBody.Proofs.Coordinator.Prospects
import ImmersedBody.Proofs.Coordinator.Drives
import ImmersedBody.Proofs.Rigid.Movements
import ImmersedBody.Proofs.Coordinator.Planarity
import ImmersedBody.Proofs.Rigid.RotationGroup
import ImmersedBody.Proofs.Element.Isoparametric
import ImmersedBody.Proofs.Mesh.Splitting
import ImmersedBody.Proofs.Rigid.Inertia
import ImmersedBody.Proofs.Coordinator.PartialCopies
import ImmersedBody.Proofs.Coordinator.BeforePrediction
import ImmersedBody.Proofs.Coordinator.LastMidpoint
import ImmersedBody.Proofs.Element.Measures

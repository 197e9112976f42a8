import ImmersedBody.Flow.Transfer

/-!
# Linear flows

The simplest flows are linear in space and in time.  In the plane only the planar coordinates of a
point count, and the velocity stays in the plane.
-/

namespace ImmersedBody

/-- A velocity field that is linear in space and in time. -/
structure LinearFlow (α : Type) where
  /-- The velocity at the origin at the time zero. -/
  base : Vec3 α
  /-- The derivatives of the velocity in space; a row belongs to a component of the velocity. -/
  slope : Mat3 α
  rate : Vec3 α

namespace LinearFlow

variable {α : Type} [Scalar α]

/-- A component of the velocity; the terms are added from left to right. -/
def component (dim : Dim) (x : Vec3 α) (time base : α) (slope : Vec3 α) (rate : α) : α :=
  match dim with
  | .two => base + slope.x * x.x + slope.y * x.y + rate * time
  | .three => base + slope.x * x.x + slope.y * x.y + slope.z * x.z + rate * time

/-- The velocity at a point and a time. -/
def velocity (dim : Dim) (flow : LinearFlow α) (x : Vec3 α) (time : α) : Vec3 α :=
  let component := component dim x time
  let u := component flow.base.x flow.slope.row0 flow.rate.x
  let v := component flow.base.y flow.slope.row1 flow.rate.y
  match dim with
  | .two => ⟨u, v, 0⟩
  | .three => ⟨u, v, component flow.base.z flow.slope.row2 flow.rate.z⟩

/-- The transfer to and from a linear flow. -/
def transfer (dim : Dim) (flow : LinearFlow α) : FlowTransfer α (SpreadTally α) :=
  AnalyticFlow.transfer dim (flow.velocity dim)

end LinearFlow

end ImmersedBody

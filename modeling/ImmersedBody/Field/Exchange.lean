import ImmersedBody.Field.Nodal
import ImmersedBody.Ranks.Task

/-!
# Exchange of field values between ranks

All ranks together can gather a field: every rank contributes the entries that it owns and zeros
elsewhere, and the sum is the whole field.  Closing a field refreshes the ghosts from it.
-/

namespace ImmersedBody

namespace NodalField

variable {α : Type} [Zero α]

/-- The owned entries in their places among zeros. -/
def contribution (field : NodalField α) : Vector α field.layout.globalLength :=
  Vector.ofFn fun i =>
    if h : field.layout.Owns i then
      have := IndexRange.offset_lt h
      have := field.owned_size
      field.owned[i.val - field.layout.owned.start]
    else 0

/-- The whole field, on every rank. -/
def gather (field : NodalField α) : Collective α (Vector α field.layout.globalLength) :=
  Collective.sum "ghost_sync" field.contribution

/-- The whole field, on every rank, if it fits into memory. -/
def gather? (field : NodalField α) : Collective α (Vector α field.layout.globalLength) := do
  ExceptT.mk (pure ((Fault.checkMemory field.layout.globalLength).mapError .fault))
  field.gather

/-- The field with ghosts from the whole field. -/
def refreshed (field : NodalField α) (whole : Vector α field.layout.globalLength) :
    NodalField α :=
  { field with
    ghosts := Array.ofFn fun j : Fin field.layout.ghosts.size =>
      have := field.layout.ghost_lt j j.isLt
      whole[field.layout.ghosts[j]]
    synchronized := true
    ghosts_size := by simp }

/-- The field with ghosts that are up to date.  A single rank has no ghosts to refresh. -/
def close (seat : Seat) (field : NodalField α) : Collective α (NodalField α) := do
  if seat.size = 1 then
    return { field with synchronized := true }
  else
    return field.refreshed (← field.gather)

/-- The field with ghosts that are up to date, if the whole field fits into memory. -/
def close? (seat : Seat) (field : NodalField α) : Collective α (NodalField α) := do
  if seat.size = 1 then
    return { field with synchronized := true }
  else
    return field.refreshed (← field.gather?)

end NodalField

end ImmersedBody

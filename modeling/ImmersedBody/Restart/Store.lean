import ImmersedBody.Ranks.Task
import ImmersedBody.Restart.Text

/-!
# Storing restart records

A record that has been written or read is worth a notice.  What failed is told by its error alone.
-/

namespace ImmersedBody.RestartRecord

/-- The same result, with the notice that a success is worth. -/
def noticing {β : Type} (notice : β → Notice Float) (result : Except RestartError β) :
    Task Float (Except RestartError β) :=
  match result with
  | .ok value => .tell (notice value) (.done (.ok value))
  | .error e => .done (.error e)

/-- Reads a record from a source. -/
def load (source : List Symbol) : Task Float (Except RestartError (RestartRecord Float)) :=
  noticing (fun record => .readRecord record.objectName record.velocities.length) (read source)

/-- Writes a record, and yields its text. -/
def save (record : RestartRecord Float) (sink : Sink) :
    Task Float (Except RestartError String) :=
  noticing (fun _ => .wroteRecord record.objectName record.velocities.length) (record.write sink)

end ImmersedBody.RestartRecord

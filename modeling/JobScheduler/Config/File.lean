import JobScheduler.Config.Basic
import JobScheduler.Text.Utf8
import JobScheduler.Toml.Reader

namespace JobScheduler.Config

def ofText (text : List Char) : Except Fault Config :=
  match (Toml.read text).bind (ofDocument? .lenient) with
  | some config => .ok config
  | none => .error .malformed

-- The submission file with the given content, if there is such a file.
def ofFile (content : Option (List UInt8)) : Except Fault Config :=
  match content.map Text.Utf8.decode with
  | some (.ok text) => ofText text
  | some (.error _) | none => .error .unreadable

def load (content : Option (List UInt8)) : Except Fault Batch := do
  (← ofFile content).validate

end JobScheduler.Config

import JobScheduler.Text.Lowercase
import JobScheduler.Text.Ranges

namespace JobScheduler

inductive Priority
  | idle | lowest | low | normal | high | highest
deriving DecidableEq, Repr, Inhabited

namespace Priority

def rank : Priority → Nat
  | .idle => 0
  | .lowest => 1
  | .low => 2
  | .normal => 3
  | .high => 4
  | .highest => 5

instance : Ord Priority := ⟨fun a b => compare a.rank b.rank⟩

def all : List Priority := [.idle, .lowest, .low, .normal, .high, .highest]

def name : Priority → String
  | .idle => "idle"
  | .lowest => "lowest"
  | .low => "low"
  | .normal => "normal"
  | .high => "high"
  | .highest => "highest"

-- The name as a heading shows it.
def title : Priority → String
  | .idle => "Idle"
  | .lowest => "Lowest"
  | .low => "Low"
  | .normal => "Normal"
  | .high => "High"
  | .highest => "Highest"

def ofName? (text : String) : Option Priority := all.find? (·.name == text)

theorem ofName?_name (priority : Priority) : ofName? priority.name = some priority := by
  cases priority <;> decide +kernel

structure Unknown where
  lowered : String
deriving DecidableEq, Repr

def Unknown.message (fault : Unknown) : String :=
  s!"invalid job priority: {fault.lowered} (expected idle, lowest, low, normal, high or highest)"

-- Reads a priority as a person types it: blanks around it and its case do not matter.
def parse (text : String) : Except Unknown Priority :=
  let lowered := String.ofList (Text.lowercase (Text.trim text.toList))
  match ofName? lowered with
  | some priority => .ok priority
  | none => .error ⟨lowered⟩

end Priority

end JobScheduler

import JobScheduler.CommandLine.Run

namespace JobScheduler

open CommandLine Shell

def usage : String :=
  "Usage: jobflow [--config <PATH>] [--log-level <LEVEL>] [--dry-run] [--keep-running]"

def Objection.describe : Objection → String
  | .unknownArgument => "unexpected argument found"
  | .invalidValue => "invalid value for an option"
  | .conflict => "an option cannot be used multiple times"
  | .surplusValue => "unexpected value for an option"
  | .help | .version => ""

def Failure.describe : Failure → String
  | .arguments cause => s!"error: {Objection.describe cause}\n\n{usage}"
  | .loading path cause => s!"jobflow error: loading {path}\n\nCaused by:\n    {cause.message}"
  | .submitting job cause =>
      s!"jobflow error: submitting job '{job}'\n\nCaused by:\n    {cause.message}"

-- The submission file that the arguments name, if it can be read.
def givenFiles (arguments : List String) : IO (List (String × List Char)) := do
  match parse arguments with
  | .error _ => return []
  | .ok arguments =>
      try
        let bytes ← IO.FS.readBinFile arguments.config
        return [(narrow arguments.config, bytes.toList.map fun octet => Char.ofNat octet.toNat)]
      catch _ => return []

end JobScheduler

open JobScheduler

def main (arguments : List String) : IO UInt32 := do
  let files ← givenFiles arguments
  match CommandLine.run (Shell.FileTree.ofFiles files) arguments with
  | .ok text => do
      IO.print text
      return 0
  | .error (.arguments .help) => do
      IO.println usage
      return 0
  | .error (.arguments .version) => do
      IO.println "jobflow 0.1.0"
      return 0
  | .error (.arguments cause) => do
      IO.eprintln (Failure.describe (.arguments cause))
      return 2
  | .error failure => do
      IO.eprintln (Failure.describe failure)
      return 1

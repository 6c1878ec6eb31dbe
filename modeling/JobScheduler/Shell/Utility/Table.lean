import JobScheduler.Shell.Utility.Answer
import JobScheduler.Shell.Utility.Calculate
import JobScheduler.Shell.Utility.Column
import JobScheduler.Shell.Utility.Copy
import JobScheduler.Shell.Utility.Create
import JobScheduler.Shell.Utility.List
import JobScheduler.Shell.Utility.PathName
import JobScheduler.Shell.Utility.Portion
import JobScheduler.Shell.Utility.Repeat
import JobScheduler.Shell.Utility.Search
import JobScheduler.Shell.Utility.Sequence
import JobScheduler.Shell.Utility.Sort
import JobScheduler.Shell.Utility.StreamEdit
import JobScheduler.Shell.Utility.Translate

namespace JobScheduler.Shell.Utility

def table : List (String × Utility) := [
  ("[", bracket), ("basename", basename), ("cat", cat), ("chmod", chmod), ("cp", cp), ("cut", cut),
  ("dirname", dirname), ("echo", echo), ("egrep", egrep), ("expr", expr), ("false", false_), ("fgrep", fgrep),
  ("fold", fold), ("grep", grep), ("head", head), ("id", id_), ("ln", ln), ("ls", ls),
  ("mkdir", mkdir), ("mktemp", mktemp), ("mv", mv), ("nl", nl), ("paste", paste),
  ("printenv", printenv), ("printf", printf), ("pwd", pwd), ("readlink", readlink),
  ("realpath", realpath), ("rev", rev), ("rm", rm), ("rmdir", rmdir), ("sed", sed), ("seq", seq),
  ("sleep", sleep), ("sort", sort), ("tac", tac), ("tail", tail), ("tee", tee), ("test", test),
  ("touch", touch), ("tr", tr), ("true", true_), ("truncate", truncate), ("tty", tty),
  ("uname", uname), ("uniq", uniq), ("wc", wc), ("which", which), ("whoami", whoami), ("yes", yes)]

-- Utilities that run other programs.
def wrappers : List (String × (Runner → Utility)) := [
  ("env", env), ("nice", nice), ("nohup", nohup), ("setsid", setsid), ("stdbuf", stdbuf),
  ("timeout", timeout), ("xargs", xargs)]

def find? (name : String) (run : Runner) : Option Utility :=
  (table.lookup name).or ((wrappers.lookup name).map (· run))

def names : List String := "sh" :: "dash" :: table.map (·.1) ++ wrappers.map (·.1)

end JobScheduler.Shell.Utility

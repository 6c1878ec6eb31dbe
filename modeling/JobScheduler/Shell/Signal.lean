import JobScheduler.Shell.Octets

namespace JobScheduler.Shell.Signal

def kill : Nat := 9

def interrupt : Nat := 2

def quit : Nat := 3

def brokenPipe : Nat := 13

def child : Nat := 17

def names : List String := [
  "EXIT", "HUP", "INT", "QUIT", "ILL", "TRAP", "ABRT", "BUS", "FPE", "KILL", "USR1", "SEGV", "USR2",
  "PIPE", "ALRM", "TERM", "16", "CHLD", "CONT", "STOP", "TSTP", "TTIN", "TTOU", "URG", "XCPU",
  "XFSZ", "VTALRM", "PROF", "WINCH", "IO", "PWR", "SYS", "32", "33", "RTMIN", "RTMIN+1",
  "RTMIN+2", "RTMIN+3", "RTMIN+4", "RTMIN+5", "RTMIN+6", "RTMIN+7", "RTMIN+8", "RTMIN+9",
  "RTMIN+10", "RTMIN+11", "RTMIN+12", "RTMIN+13", "RTMIN+14", "RTMIN+15", "RTMAX-14", "RTMAX-13",
  "RTMAX-12", "RTMAX-11", "RTMAX-10", "RTMAX-9", "RTMAX-8", "RTMAX-7", "RTMAX-6", "RTMAX-5",
  "RTMAX-4", "RTMAX-3", "RTMAX-2", "RTMAX-1", "RTMAX"]

def name (signal : Nat) : String := names.getD signal (toString signal)

-- A signal by its number or its name, in capitals or not.
def ofText? (text : String) : Option Nat :=
  match natural? text with
  | some number => if number < names.length then some number else none
  | none => names.idxOf? (String.ofList (text.toList.map Char.toUpper))

-- Signals that do nothing to a process that is not prepared for them, or that a process
-- does not end by.
def isHarmless (signal : Nat) : Bool := [0, 17, 18, 19, 20, 21, 22, 23, 28].contains signal

def descriptions : List String := [
  "Unknown signal 0", "Hangup", "Interrupt", "Quit", "Illegal instruction",
  "Trace/breakpoint trap", "Aborted", "Bus error", "Floating point exception", "Killed",
  "User defined signal 1", "Segmentation fault", "User defined signal 2", "Broken pipe",
  "Alarm clock", "Terminated", "Stack fault", "Child exited", "Continued", "Stopped (signal)",
  "Stopped", "Stopped (tty input)", "Stopped (tty output)", "Urgent I/O condition",
  "CPU time limit exceeded", "File size limit exceeded", "Virtual timer expired",
  "Profiling timer expired", "Window changed", "I/O possible", "Power failure",
  "Bad system call"]

def description (signal : Nat) : String :=
  descriptions.getD signal
    (if 34 ≤ signal then s!"Real-time signal {signal - 34}" else s!"Unknown signal {signal}")

end JobScheduler.Shell.Signal

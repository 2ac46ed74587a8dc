/-!
# Signals

The signals of the operating system, with the names and numbers they have on 64-bit x86.
-/

namespace Footprint

/-- A signal that can stop or end a process. -/
inductive Signal where
  | hangup | interrupt | quit | illegal | trap | abort | bus | floatingPoint
  | kill | user1 | segv | user2 | pipe | alarm | terminate | stackFault
  | child | resume | stop | terminalStop | terminalInput | terminalOutput | urgent | cpuLimit
  | fileLimit | virtualAlarm | profiling | window | io | power | badSystemCall
deriving DecidableEq, Repr, Inhabited

namespace Signal

/-- Every signal with its name, in the order of the numbers, which start at 1. -/
def table : List (Signal × String) :=
  [(hangup, "SIGHUP"), (interrupt, "SIGINT"), (quit, "SIGQUIT"), (illegal, "SIGILL"),
   (trap, "SIGTRAP"), (abort, "SIGABRT"), (bus, "SIGBUS"), (floatingPoint, "SIGFPE"),
   (kill, "SIGKILL"), (user1, "SIGUSR1"), (segv, "SIGSEGV"), (user2, "SIGUSR2"),
   (pipe, "SIGPIPE"), (alarm, "SIGALRM"), (terminate, "SIGTERM"), (stackFault, "SIGSTKFLT"),
   (child, "SIGCHLD"), (resume, "SIGCONT"), (stop, "SIGSTOP"), (terminalStop, "SIGTSTP"),
   (terminalInput, "SIGTTIN"), (terminalOutput, "SIGTTOU"), (urgent, "SIGURG"),
   (cpuLimit, "SIGXCPU"), (fileLimit, "SIGXFSZ"), (virtualAlarm, "SIGVTALRM"),
   (profiling, "SIGPROF"), (window, "SIGWINCH"), (io, "SIGIO"), (power, "SIGPWR"),
   (badSystemCall, "SIGSYS")]

/-- The position of a signal in the table, counted from 1. -/
def number (s : Signal) : Nat :=
  table.findIdx (fun entry => entry.1 == s) + 1

def name (s : Signal) : String :=
  ((table.find? fun entry => entry.1 == s).map (·.2)).getD ""

def ofName? (text : String) : Option Signal :=
  (table.find? fun entry => entry.2 == text).map (·.1)

end Signal

end Footprint

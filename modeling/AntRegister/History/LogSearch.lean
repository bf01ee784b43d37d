import AntRegister.Calendar.Reading
import AntRegister.History.Basic
import AntRegister.Text.Blank
import AntRegister.Text.Lines
/-!
Searching the version control's log for the commits that changed how often a content occurs. The
log lists them from the newest to the oldest, one date a line, so the last date is the answer.
-/

namespace AntRegister

open Calendar (Instant)

/-- A run of the version control program in a directory, stopped after a number of milliseconds. -/
structure LogSearch where
  directory : String
  arguments : List String
  limit : Nat

/-- How a program ended. -/
inductive Exit where
  | code (n : Nat)
  | signal (n : Nat)
  deriving DecidableEq

def signalName? (n : Nat) : Option String :=
  [(1, "SIGHUP"), (2, "SIGINT"), (3, "SIGQUIT"), (4, "SIGILL"), (5, "SIGTRAP"), (6, "SIGABRT"),
    (7, "SIGBUS"), (8, "SIGFPE"), (9, "SIGKILL"), (10, "SIGUSR1"), (11, "SIGSEGV"),
    (12, "SIGUSR2"), (13, "SIGPIPE"), (14, "SIGALRM"), (15, "SIGTERM"), (16, "SIGSTKFLT"),
    (17, "SIGCHLD"), (18, "SIGCONT"), (19, "SIGSTOP"), (20, "SIGTSTP"), (21, "SIGTTIN"),
    (22, "SIGTTOU"), (23, "SIGURG"), (24, "SIGXCPU"), (25, "SIGXFSZ"), (26, "SIGVTALRM"),
    (27, "SIGPROF"), (28, "SIGWINCH"), (29, "SIGIO"), (30, "SIGPWR"), (31, "SIGSYS")].lookup n

def Exit.text : Exit → String
  | .code n => "exit status: " ++ Text.decimal n
  | .signal n =>
    "signal: " ++ Text.decimal n ++
      match signalName? n with
      | some name => " (" ++ name ++ ")"
      | none => ""

inductive LogReply where
  /-- The program could not be started. -/
  | notStarted (reason : String)
  /-- The program was stopped at its limit. -/
  | stopped
  | ended (exit : Exit) (output errors : ByteArray)

def decodeOutput (bytes : ByteArray) : Except HistoryError String :=
  match String.fromUTF8? bytes with
  | some s => .ok s
  | none => .error (.commandFailed "stream did not contain valid UTF-8")

/-- The last date of a log, if it has any line that is not blank. -/
def oldestDate (log : String) : Except HistoryError (Option Instant) :=
  match (((Text.lines log.toList).map Text.trimChars).filter fun l => !l.isEmpty).getLast? with
  | none => .ok none
  | some line =>
    match Instant.readExact? (.ofList line) with
    | some i => .ok (some i)
    | none => .error (.badDate (.ofList line))

namespace LogSearch

/-- The search for a content. The content is part of an argument of its own, so that none of its
characters has a meaning there. -/
def ofContent (directory : String) (limit : Nat) (content : String) : LogSearch :=
  ⟨directory, ["log", "--format=%cI", "-S" ++ content], limit⟩

def output (s : LogSearch) (content : String) : LogReply → Except HistoryError String
  | .notStarted reason =>
    .error (.commandFailed ("failed to run git in " ++ s.directory ++ ": " ++ reason))
  | .stopped => .error (.timedOut content (s.limit / 1000))
  | .ended exit output errors => do
    let log ← decodeOutput output
    if exit = .code 0 then return log
    let detail := Text.trim (← decodeOutput errors)
    throw (.commandFailed (if detail.isEmpty then "git log exited with " ++ exit.text else detail))

/-- The answer for a content, given what came of the search for it. -/
def answer (s : LogSearch) (content : String) (reply : LogReply) : Except HistoryError Instant := do
  match ← oldestDate (← s.output content reply) with
  | some i => return i
  | none => throw (.notFound content)

end LogSearch

/-- The number of bytes that one argument of a program may have. -/
def longestArgument : Nat := 131071

/-- Why a program cannot be given these arguments in this directory, if that is so: none of them may
hold the character that ends an argument, or be too long. -/
def LogSearch.obstacle? (s : LogSearch) : Option String :=
  if (s.directory :: s.arguments).any fun a => a.toList.contains '\x00' then
    some "nul byte found in provided data"
  else if s.arguments.any fun a => longestArgument < a.utf8ByteSize then
    some "Argument list too long"
  else none

/-- Answers from the log in a directory. The empty content is never searched for, since every commit
would match. -/
def answerFromLog {m : Type → Type} [Monad m] (run : LogSearch → m LogReply) (directory : String)
    (limit : Nat) (content : String) : m (Except HistoryError Instant) :=
  if content.isEmpty then return .error (.notFound "")
  else
    let s := LogSearch.ofContent directory limit content
    match s.obstacle? with
    | some reason => return s.answer content (.notStarted reason)
    | none => return s.answer content (← run s)

end AntRegister

import AntRegister.Command.Arguments
import AntRegister.Command.Pipeline
import AntRegister.Command.Standalone
/-!
Carrying out a call of the program, from its arguments to its exit code.
-/

namespace AntRegister

namespace Invocation

def loadSettings (i : Invocation) : Action Settings := do
  let s ← Settings.load i.settings
  i.console.progressOf "config" <|
    match s.source with
    | some path => "Loaded " ++ path
    | none => "No config file, using defaults"
  return s

def carryOut (i : Invocation) : Action Unit :=
  match i.command with
  | .init => Standalone.init i.console i.settings
  | .hash content => Standalone.hash i.console content
  | .rehash file out => Standalone.rehash i.console file out
  | .release file number out => do
    Standalone.release i.console (← i.loadSettings) file number out
  | .reconcile inputs history out => do
    let s := history.apply (inputs.apply (← i.loadSettings))
    Pipeline.reconcile i.console { s with outputFolder := out.getD s.outputFolder } history
  | .classify inputs list => do
    Pipeline.classify i.console (inputs.apply (← i.loadSettings)) list
  | .check inputs history listing denyErrors => do
    let s := history.apply (inputs.apply (← i.loadSettings))
    Pipeline.check i.console { s with listing := listing.getD s.listing } history denyErrors

/-- Carries out a call. The exit code is 1 if it fails. -/
def run (i : Invocation) : Program Nat := do
  i.console.progress "antledger starting"
  match ← i.carryOut.run with
  | .ok () =>
    i.console.progress "Command completed successfully"
    return 0
  | .error failure =>
    Console.diagnostic ("Error: " ++ failure.message)
    return 1

end Invocation

namespace Refusal

/-- The version line of the program or of one of its commands. -/
def versionLine (command : Option String) : String :=
  match command with
  | some name => "antledger-" ++ name ++ " 0.1.0"
  | none => "antledger 0.1.0"

def usage (command : Option String) : String :=
  match command >>= fun name => Arguments.commands.find? fun c => c.name == name with
  | some form => "Usage: antledger " ++ form.name ++ " [OPTIONS]" ++
      String.join (form.arguments.map fun _ => " <ARGUMENT>")
  | none => "Usage: antledger [OPTIONS] <COMMAND>\n\nCommands: " ++
      ", ".intercalate (Arguments.commands.map fun c => c.name)

/-- Answers a call that is not carried out. The exit code is 2 if it was misused. -/
def run : Refusal → Program Nat
  | .misused => do
    Console.diagnostic (usage none)
    return 2
  | .helpAsked command => do
    Console.line (usage command)
    return 0
  | .versionAsked command => do
    Console.line (versionLine command)
    return 0

end Refusal

/-- The variables that options may be taken from. -/
def Arguments.environmentNames : List String :=
  Arguments.commands.flatMap fun c => c.options.filterMap fun o => o.environmentName

/-- The program: it is given its arguments, and gives its exit code. -/
def antRegister (arguments : List String) : Program Nat := do
  let values ← Arguments.environmentNames.eraseDups.mapM fun name =>
    return (name, ← Program.request (.environment name))
  match Arguments.read (fun name => (values.lookup name).getD none) arguments with
  | .ok invocation => invocation.run
  | .error refusal => refusal.run

end AntRegister

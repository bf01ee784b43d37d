import AntRegister.Command.Basic
import AntRegister.Text.Decimal
/-!
Reading the arguments of a call. Options stand in any order before and after the command's own
arguments; an option is given once; short options may be joined; what follows two hyphens is no
option.
-/

namespace AntRegister

inductive ValueKind where
  | text
  /-- A path, which is not empty. -/
  | path
  | format
  /-- A number that 64 bits hold. -/
  | count
  /-- A number that 32 bits hold. -/
  | number
  deriving DecidableEq

/-- An option. One without a kind has no value. -/
structure OptionForm where
  name : String
  short : Option Char
  kind : Option ValueKind
  /-- The environment variable that gives the value when the option does not. -/
  environmentName : Option String

/-- The options and arguments that may follow a command. -/
structure CommandForm where
  name : String
  options : List OptionForm
  arguments : List ValueKind

inductive Refusal where
  | misused
  | helpAsked (command : Option String)
  | versionAsked (command : Option String)
  deriving DecidableEq

def signedNumber? (cs : List Char) : Option Int :=
  match cs with
  | '-' :: rest =>
    if rest.isEmpty || !rest.all Text.isDigit then none else some (-(Text.valueOf rest : Int))
  | _ => (Text.readNat? cs).map Int.ofNat

namespace ValueKind

def accepts (value : String) : ValueKind → Bool
  | .text => true
  | .path => !value.isEmpty
  | .format => value == "text" || value == "json"
  | .count =>
    match Text.readNat? value.toList with
    | some n => n < 18446744073709551616
    | none => false
  | .number =>
    match signedNumber? value.toList with
    | some i => 0 ≤ i ∧ i < 4294967296
    | none => false

end ValueKind

structure Given where
  options : List (String × Option String)
  arguments : List String
  deriving DecidableEq

namespace Given

def empty : Given := ⟨[], []⟩

def has (g : Given) (name : String) : Bool := (g.options.lookup name).isSome

def value? (g : Given) (name : String) : Option String := (g.options.lookup name).getD none

/-- Takes an option in, unless it has been given or its value is not of its kind. -/
def addOption (g : Given) (form : OptionForm) (value : Option String) : Except Refusal Given :=
  if g.has form.name then .error .misused
  else
    match form.kind, value with
    | some kind, some v =>
      if kind.accepts v then .ok { g with options := g.options ++ [(form.name, some v)] }
      else .error .misused
    | none, none => .ok { g with options := g.options ++ [(form.name, none)] }
    | _, _ => .error .misused

/-- Takes an option in that has not been taken in yet, if there is one. -/
def addLast (g : Given) : Option (OptionForm × String) → Except Refusal Given
  | some (form, value) => g.addOption form (some value)
  | none => .ok g

/-- Takes an argument in, if one more may follow and it is of its kind. -/
def addArgument (g : Given) (form : CommandForm) (value : String) : Except Refusal Given :=
  match form.arguments[g.arguments.length]? with
  | some kind =>
    if kind.accepts value then .ok { g with arguments := g.arguments ++ [value] }
    else .error .misused
  | none => .error .misused

end Given

/-- A command's name in a call with what follows it, and the option with its value that stands right
before the name, if one does. -/
structure Subcall where
  last : Option (OptionForm × String)
  name : String
  arguments : List String

namespace CommandForm

def byName? (form : CommandForm) (name : String) : Option OptionForm :=
  form.options.find? fun o => o.name == name

def byLetter? (form : CommandForm) (c : Char) : Option OptionForm :=
  form.options.find? fun o => o.short == some c

def refusal? (command : Option String) (name : String) : Option Refusal :=
  if name = "help" then some (.helpAsked command)
  else if name = "version" then some (.versionAsked command)
  else none

/-- Reads a long option, without its hyphens. An option whose value is still to come is given
back. -/
def readLong (form : CommandForm) (command : Option String) (g : Given) (text : String) :
    Except Refusal (Given × Option OptionForm) :=
  let name := String.ofList (text.toList.takeWhile (· != '='))
  let value := match text.toList.dropWhile (· != '=') with
    | _ :: v => some (String.ofList v)
    | [] => none
  match refusal? command name, form.byName? name with
  | some r, _ => .error (if value.isSome then .misused else r)
  | none, none => .error .misused
  | none, some o =>
    if o.kind.isSome ∧ value.isNone then .ok (g, some o)
    else do return (← g.addOption o value, none)

/-- Reads joined short options, without their hyphen. -/
def readShort (form : CommandForm) (command : Option String) (g : Given) :
    List Char → Except Refusal (Given × Option OptionForm)
  | [] => .ok (g, none)
  | c :: rest =>
    if c = 'h' then .error (.helpAsked command)
    else if c = 'V' then .error (.versionAsked command)
    else
      match form.byLetter? c with
      | none => .error .misused
      | some o =>
        if o.kind.isSome then
          match rest with
          | [] => .ok (g, some o)
          | '=' :: v => do return (← g.addOption o (some (.ofList v)), none)
          | v => do return (← g.addOption o (some (.ofList v)), none)
        else do
          let g ← g.addOption o none
          readShort form command g rest

/-- Reads arguments up to the name of a command in `commands`, which is given back with what follows
it. `waiting` is an option whose value comes next; `plain` says that no more options follow. An
option whose value stands right before the command's name is given back with it, not taken in yet. -/
def read (form : CommandForm) (command : Option String) (commands : List String) (plain : Bool)
    (waiting : Option OptionForm) (g : Given) : List String → Except Refusal (Given × Option Subcall)
  | [] => if waiting.isSome then .error .misused else .ok (g, none)
  | a :: rest =>
    match waiting with
    | some o =>
      if a.toList.head? = some '-' ∧ a ≠ "-" then .error .misused
      else
        match rest with
        | name :: arguments =>
          if commands.contains name then .ok (g, some ⟨some (o, a), name, arguments⟩)
          else do read form command commands plain none (← g.addOption o (some a)) rest
        | [] => do return (← g.addOption o (some a), none)
    | none =>
      if plain then do read form command commands plain none (← g.addArgument form a) rest
      else if commands.contains a then .ok (g, some ⟨none, a, rest⟩)
      else
        match a.toList with
        | ['-', '-'] => read form command commands true none g rest
        | '-' :: '-' :: long => do
          let (g, waiting) ← form.readLong command g (.ofList long)
          read form command commands plain waiting g rest
        | '-' :: c :: short => do
          let (g, waiting) ← form.readShort command g (c :: short)
          read form command commands plain waiting g rest
        | _ => do read form command commands plain none (← g.addArgument form a) rest

/-- The values that the environment gives for options that are missing. -/
def fromEnvironment (form : CommandForm) (g : Given) (valueOf : String → Option String) :
    Except Refusal (List (String × String)) :=
  form.options.foldlM (fun found o =>
    match o.kind, o.environmentName >>= valueOf with
    | some kind, some v =>
      if g.has o.name then .ok found
      else if kind.accepts v then .ok (found ++ [(o.name, v)])
      else .error .misused
    | _, _ => .ok found) []

end CommandForm

namespace Arguments

def common : List OptionForm := [
  ⟨"format", some 'f', some .format, none⟩,
  ⟨"verbose", some 'v', none, none⟩,
  ⟨"config", some 'c', some .path, some "ANTLEDGER_CONFIG"⟩]

def inputOptions : List OptionForm := [
  ⟨"site-data", none, some .path, none⟩,
  ⟨"raw-issues", none, some .path, none⟩,
  ⟨"strict", none, none, none⟩]

def historyOptions : List OptionForm := [
  ⟨"history-file", none, some .path, some "ANTLEDGER_HISTORY_FILE"⟩,
  ⟨"repo", none, some .path, none⟩,
  ⟨"workers", none, some .count, none⟩,
  ⟨"timeout", none, some .count, none⟩]

def outOption : OptionForm := ⟨"out", some 'o', some .path, none⟩

def program : CommandForm := ⟨"antledger", common, []⟩

def commands : List CommandForm := [
  ⟨"init", common, []⟩,
  ⟨"reconcile", common ++ inputOptions ++ historyOptions ++ [outOption], []⟩,
  ⟨"classify", common ++ inputOptions ++ [⟨"list", some 'l', none, none⟩], []⟩,
  ⟨"check", common ++ inputOptions ++ historyOptions ++
    [⟨"listing", none, some .path, none⟩, ⟨"deny-errors", none, none, none⟩], []⟩,
  ⟨"hash", common, [.text]⟩,
  ⟨"release", common ++ [outOption], [.path, .number]⟩,
  ⟨"rehash", common ++ [outOption], [.path]⟩]

def commandNames : List String := commands.map (fun c => c.name) ++ ["help"]

def inputs (g : Given) : InputArguments where
  siteData := g.value? "site-data"
  issueExport := g.value? "raw-issues"
  strict := g.has "strict"

def number (s : String) : Nat := ((signedNumber? s.toList).getD 0).toNat

def history (g : Given) (environment : List (String × String)) : HistoryArguments where
  file := g.value? "history-file" <|> environment.lookup "history-file"
  repository := g.value? "repo"
  workers := (g.value? "workers").map number
  timeout := (g.value? "timeout").map number

/-- The command with a name, made of what was given for it. -/
def command? (name : String) (g : Given) (environment : List (String × String)) : Option Command :=
  let out := g.value? "out"
  match name, g.arguments with
  | "init", [] => some .init
  | "reconcile", [] => some (.reconcile (inputs g) (history g environment) out)
  | "classify", [] => some (.classify (inputs g) (g.has "list"))
  | "check", [] =>
    some (.check (inputs g) (history g environment) (g.value? "listing") (g.has "deny-errors"))
  | "hash", [content] => some (.hash content)
  | "release", [file, n] => some (.release file (number n) out)
  | "rehash", [file] => some (.rehash file out)
  | _, _ => none

/-- Help for a command, if its name follows. -/
def help (rest : List String) : Refusal :=
  match rest with
  | [] => .helpAsked none
  | [name] => if commandNames.contains name then .helpAsked (some name) else .misused
  | _ => .misused

/-- The call that arguments stand for. Options of every command may stand before the command and
after it; what stands after it counts, and is read before the option that stands right before it is
checked. -/
def read (valueOf : String → Option String) (arguments : List String) :
    Except Refusal Invocation := do
  let (outer, found) ← program.read none commandNames false none .empty arguments
  match found with
  | none => throw .misused
  | some call =>
    if call.name = "help" then throw (help call.arguments)
    match commands.find? fun c => c.name == call.name with
    | none => throw .misused
    | some form =>
      let (inner, _) ← form.read (some call.name) [] false none .empty call.arguments
      let environment ← form.fromEnvironment inner valueOf
      match command? call.name inner environment with
      | none => throw .misused
      | some command =>
        let outer ← outer.addLast call.last
        let _ ← program.fromEnvironment outer valueOf
        let format := inner.value? "format" <|> outer.value? "format"
        return {
          console := ⟨if format = some "json" then .json else .text,
            inner.has "verbose" || outer.has "verbose"⟩
          settings := inner.value? "config" <|> outer.value? "config"
            <|> environment.lookup "config"
          command }

end Arguments

end AntRegister

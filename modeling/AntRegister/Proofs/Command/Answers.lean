import AntRegister.Proofs.Command.Shown
/-! What a call of the program writes to its output, and its exit code. In the JSON format that is
one line with one document on it, or nothing if the call fails. -/

namespace AntRegister

open AntRegister.Action (ShowsDocument)
open Json (AllHeld Held)
open Request

namespace Arguments

def ask (names : List String) : Program (List (String × Option String)) :=
  names.mapM fun name => return (name, ← Program.request (.environment name))

theorem ask_cons (name : String) (names : List String) : ask (name :: names) = do
    let value ← Program.request (.environment name)
    let values ← ask names
    return (name, value) :: values := by
  simp only [ask, List.mapM_cons, bind_assoc, pure_bind]

theorem run_ask (names : List String) (w : World) :
    ((ask names).run w).1 = names.map fun name => (name, w.environment.lookup name) := by
  induction names generalizing w with
  | nil => rfl
  | cons name names ih =>
    have hgranted : (Request.environment name).IsGranted := trivial
    have hsame := w.sameSystem_answer (.environment name)
    rw [ask_cons, Program.run_bind, Program.run_bind, Program.run_request, ih, hsame.environment,
      w.answer_granted hgranted]
    rfl

theorem uses_ask (names : List String) : (ask names).Uses IsSilent := by
  induction names with
  | nil => trivial
  | cons name names ih =>
    rw [ask_cons]
    exact .bind (.request trivial) fun _ => .bind ih fun _ => .pure _

theorem lookup_map_self {α : Type} (f : String → α) (names : List String) (name : String) :
    (names.map fun n => (n, f n)).lookup name = if name ∈ names then some (f name) else none := by
  induction names with
  | nil => rfl
  | cons n names ih =>
    rw [List.map_cons, List.lookup_cons, ih]
    by_cases h : name = n
    · simp [h]
    · simp [h, beq_false_of_ne h]

end Arguments

/-- Whether a text is a single line with a document on it and nothing else. -/
def OneDocument (line : String) (j : Json) : Prop :=
  ∃ text, line = text ++ "\n" ∧ (∀ c ∈ text.toList, c ≠ '\n' ∧ c ≠ '\r') ∧
    Json.read? text = some j

theorem oneDocument_compact {j : Json} (h : Held j) : OneDocument (j.compact ++ "\n") j := by
  refine ⟨j.compact, rfl, fun c hc => ?_, Json.read?_compact h⟩
  have hprinted := h.le_toNat hc
  constructor <;> (rintro rfl; revert hprinted; decide)

namespace Standalone

/-- A script as it is shown. -/
def shown (format : Format) (script : String) : String :=
  match format with
  | .json => (Json.object [("sql", .text script)]).compact ++ "\n"
  | .text => script

theorem output_emit (c : Console) (part script : String) (w : World) :
    ((emit c part script none).run.run w).1 = .ok () ∧
      ((emit c part script none).run.run w).2.output = w.output ++ shown c.format script := by
  unfold emit
  cases c.format with
  | json => exact ⟨rfl, Console.output_line _ w⟩
  | text => exact ⟨rfl, output_print script w⟩

end Standalone

namespace Console

variable (c : Console) (w : World)

theorem output_diagnostic (s : String) : ((diagnostic s).run w).2.output = w.output := by
  have hsilent : (diagnostic s).Uses IsSilent := uses_diagnostic (fun _ => trivial) s
  exact hsilent.output_run w

theorem output_progress (message : String) : ((c.progress message).run w).2.output = w.output := by
  unfold progress
  split
  · exact output_diagnostic w _
  · rfl

end Console

namespace Invocation

variable (i : Invocation) (w : World)

def exitCode : Except Failure Unit → Nat
  | .ok _ => 0
  | .error _ => 1

/-- Apart from carrying a call out, only diagnostics are written. -/
theorem run_run :
    let after := i.carryOut.run.run ((i.console.progress "antledger starting").run w).2
    (i.run.run w).1 = exitCode after.1 ∧ (i.run.run w).2.output = after.2.output := by
  intro after
  unfold run
  rw [Program.run_bind, Program.run_bind]
  cases after.1 with
  | ok _ =>
    dsimp only
    rw [Program.run_bind]
    exact ⟨rfl, i.console.output_progress _ _⟩
  | error e => exact ⟨rfl, Console.output_diagnostic _ _⟩

/-- What a check compares, from its settings on. -/
def gathered (inputs : InputArguments) (history : HistoryArguments) (listing : Option String) :
    Action Gathered := do
  let s := history.apply (inputs.apply (← i.loadSettings))
  Pipeline.gather i.console { s with listing := listing.getD s.listing } history

theorem uses_gathered (inputs : InputArguments) (history : HistoryArguments)
    (listing : Option String) : (i.gathered inputs history listing).Uses IsInquiry :=
  .bind i.uses_loadSettings fun _ => Pipeline.uses_gather _ _ _

variable {i} {inputs : InputArguments} {history : HistoryArguments}

theorem carryOut_check {listing : Option String} {denyErrors : Bool}
    (hi : i.command = .check inputs history listing denyErrors) :
    i.carryOut = i.gathered inputs history listing >>= fun g =>
      Pipeline.conclude i.console denyErrors g.report := by
  rw [carryOut, hi]
  simp only [Pipeline.check_eq, gathered, bind_assoc]

theorem carryOut_release {file : String} {number : Nat} {out : Option String}
    (hi : i.command = .release file number out) :
    i.carryOut = (i.loadSettings >>= fun s =>
      Standalone.scriptOfRelease i.console s file number) >>= fun script =>
        Standalone.emit i.console "release" script out := by
  rw [carryOut, hi]
  simp only [Standalone.release_eq, bind_assoc]

theorem carryOut_rehash {file : String} {out : Option String} (hi : i.command = .rehash file out) :
    i.carryOut = Standalone.scriptOfListing i.console file >>= fun script =>
      Standalone.emit i.console "rehash" script out := by
  rw [carryOut, hi]
  exact Standalone.rehash_eq i.console file out

theorem showsDocument_carryOut (hjson : i.console.format = .json)
    (h : ∀ inputs history listing, i.command ≠ .check inputs history listing true) :
    i.carryOut.ShowsDocument := by
  have hsettings : i.loadSettings.Uses IsSilent := i.uses_loadSettings.isSilent
  cases hi : i.command with
  | init =>
    rw [carryOut, hi]
    exact Standalone.showsDocument_init hjson i.settings
  | hash content =>
    rw [carryOut, hi]
    exact Standalone.showsDocument_hash hjson content
  | rehash file out =>
    rw [carryOut_rehash hi]
    exact .bind (Standalone.uses_scriptOfListing _ file).isSilent fun script =>
      Standalone.showsDocument_emit hjson _ script out
  | release file number out =>
    rw [carryOut_release hi]
    refine .bind (hsettings.bind fun s => ?_) fun script =>
      Standalone.showsDocument_emit hjson _ script out
    exact (Standalone.uses_scriptOfRelease _ s file number).isSilent
  | reconcile inputs history out =>
    rw [carryOut, hi]
    exact .bind hsettings fun loaded => Pipeline.showsDocument_reconcile hjson _ history
  | classify inputs list =>
    rw [carryOut, hi]
    exact .bind hsettings fun loaded => Pipeline.showsDocument_classify hjson _ list
  | check inputs history listing denyErrors =>
    cases denyErrors with
    | true => exact absurd hi (h inputs history listing)
    | false =>
      rw [carryOut_check hi]
      exact .bind (i.uses_gathered inputs history listing).isSilent fun g =>
        Pipeline.showsDocument_conclude hjson g.report

end Invocation

namespace World

variable (w : World)

/-- What a call is read as. Of the environment it is told what the options may be taken from. -/
def called (arguments : List String) : Except Refusal Invocation :=
  Arguments.read (fun name =>
    if name ∈ Arguments.environmentNames then w.environment.lookup name else none) arguments

/-- Whether a call exits with a code and writes a text to the output. -/
structure Gives (arguments : List String) (code : Nat) (text : String) : Prop where
  code : ((antRegister arguments).run w).1 = code
  output : ((antRegister arguments).run w).2.output = w.output ++ text

/-- The world in which a call begins to be carried out. -/
def begun (c : Console) : World :=
  ((c.progress "antledger starting").run
    ((Arguments.ask Arguments.environmentNames.eraseDups).run w).2).2

theorem output_begun (c : Console) : (w.begun c).output = w.output := by
  rw [begun, c.output_progress, (Arguments.uses_ask _).output_run]

theorem run_antRegister (arguments : List String) : (antRegister arguments).run w =
    (match w.called arguments with
    | .ok i => i.run
    | .error r => r.run).run ((Arguments.ask Arguments.environmentNames.eraseDups).run w).2 := by
  have hvalues : ∀ name, ((((Arguments.ask Arguments.environmentNames.eraseDups).run w).1.lookup
      name).getD none) =
        if name ∈ Arguments.environmentNames then w.environment.lookup name else none := by
    intro name
    rw [Arguments.run_ask, Arguments.lookup_map_self]
    simp only [List.mem_eraseDups]
    split <;> rfl
  have hprogram : antRegister arguments =
      (Arguments.ask Arguments.environmentNames.eraseDups >>= fun values =>
        match Arguments.read (fun name => (values.lookup name).getD none) arguments with
        | .ok i => i.run
        | .error r => r.run) := rfl
  rw [hprogram, Program.run_bind]
  simp only [hvalues]
  rfl

variable {w} {arguments : List String} {i : Invocation}

theorem gives_of_misused (h : w.called arguments = .error .misused) : w.Gives arguments 2 "" := by
  have hrun := w.run_antRegister arguments
  rw [h] at hrun
  constructor
  · rw [hrun]
    rfl
  · rw [hrun, String.append_empty, ← (Arguments.uses_ask _).output_run w]
    exact Console.output_diagnostic _ _

theorem gives_of_called (h : w.called arguments = .ok i) {text : String}
    (houtput : (i.carryOut.run.run (w.begun i.console)).2.output = w.output ++ text) :
    w.Gives arguments (Invocation.exitCode (i.carryOut.run.run (w.begun i.console)).1) text := by
  have hrun := w.run_antRegister arguments
  rw [h] at hrun
  obtain ⟨hcode, hsame⟩ := i.run_run ((Arguments.ask Arguments.environmentNames.eraseDups).run w).2
  constructor
  · rw [hrun]
    exact hcode
  · rw [hrun]
    exact hsame.trans houtput

theorem gives_of_showsDocument (h : w.called arguments = .ok i) (hi : i.carryOut.ShowsDocument) :
    (∃ line j, OneDocument line j ∧ w.Gives arguments 0 line) ∨ w.Gives arguments 1 "" := by
  have hshows := hi (w.begun i.console)
  rw [output_begun] at hshows
  cases hafter : (i.carryOut.run.run (w.begun i.console)).1 with
  | ok _ =>
    obtain ⟨j, hj, hshown⟩ := hshows.of_ok hafter
    have hgives := gives_of_called h hshown
    rw [hafter] at hgives
    exact .inl ⟨_, j, oneDocument_compact hj, hgives⟩
  | error e =>
    have hshown := hshows.of_error hafter
    have hgives := gives_of_called h (hshown.trans String.append_empty.symm)
    rw [hafter] at hgives
    exact .inr hgives

variable {α : Type} {x : Action α} {f : α → Action Unit}

theorem gives_of_error (h : w.called arguments = .ok i) (hx : x.Uses IsInquiry)
    (hi : i.carryOut = x >>= f) {e : Failure}
    (herror : (x.run.run (w.begun i.console)).1 = .error e) : w.Gives arguments 1 "" := by
  have hafter : i.carryOut.run.run (w.begun i.console) =
      (.error e, (x.run.run (w.begun i.console)).2) := by
    rw [hi, Action.run_bind_of_error herror]
  have houtput : (i.carryOut.run.run (w.begun i.console)).2.output = w.output ++ "" := by
    rw [hafter, hx.isSilent.output_run, output_begun, String.append_empty]
  have hgives := gives_of_called h houtput
  rw [hafter] at hgives
  exact hgives

theorem gives_of_ok (h : w.called arguments = .ok i) (hx : x.Uses IsInquiry)
    (hi : i.carryOut = x >>= f) {a : α} (hok : (x.run.run (w.begun i.console)).1 = .ok a)
    {outcome : Except Failure Unit} {text : String}
    (hf : ∀ v, ((f a).run.run v).1 = outcome ∧ ((f a).run.run v).2.output = v.output ++ text) :
    w.Gives arguments (Invocation.exitCode outcome) text := by
  have hafter : i.carryOut.run.run (w.begun i.console) =
      (f a).run.run (x.run.run (w.begun i.console)).2 := by
    rw [hi, Action.run_bind_of_ok hok]
  obtain ⟨houtcome, hshown⟩ := hf (x.run.run (w.begun i.console)).2
  have houtput : (i.carryOut.run.run (w.begun i.console)).2.output = w.output ++ text := by
    rw [hafter, hshown, hx.isSilent.output_run, output_begun]
  have hgives := gives_of_called h houtput
  rw [hafter, houtcome] at hgives
  exact hgives

/-- A check that has gathered what it compares shows its report, whether or not it denies the errors
in it. -/
theorem gives_check {inputs : InputArguments} {history : HistoryArguments}
    {listing : Option String} {denyErrors : Bool} (h : w.called arguments = .ok i)
    (hjson : i.console.format = .json)
    (hi : i.command = .check inputs history listing denyErrors) :
    match ((i.gathered inputs history listing).run.run (w.begun i.console)).1 with
    | .ok g => w.Gives arguments (if denyErrors ∧ 0 < g.report.errors then 1 else 0)
        (g.report.toJson.compact ++ "\n")
    | .error _ => w.Gives arguments 1 "" := by
  have hcarry := Invocation.carryOut_check hi
  have hinquires := i.uses_gathered inputs history listing
  split
  next g hg =>
    have hgives := gives_of_ok h hinquires hcarry hg fun v =>
      ⟨Pipeline.outcome_conclude i.console denyErrors g.report v,
        Pipeline.output_conclude hjson denyErrors g.report v⟩
    by_cases hdenied : denyErrors ∧ 0 < g.report.errors
    · rw [if_pos hdenied] at hgives ⊢
      exact hgives
    · rw [if_neg hdenied] at hgives ⊢
      exact hgives
  next e he => exact gives_of_error h hinquires hcarry he

theorem gives_script {x : Action String} (h : w.called arguments = .ok i) (hx : x.Uses IsInquiry)
    {part : String}
    (hi : i.carryOut = x >>= fun script => Standalone.emit i.console part script none) :
    match (x.run.run (w.begun i.console)).1 with
    | .ok script => w.Gives arguments 0 (Standalone.shown i.console.format script)
    | .error _ => w.Gives arguments 1 "" := by
  split
  next script hscript =>
    exact gives_of_ok h hx hi hscript (Standalone.output_emit i.console part script)
  next e he => exact gives_of_error h hx hi he

end World

section

variable {w : World} {arguments : List String} {i : Invocation}
  (h : w.called arguments = .ok i) (hjson : i.console.format = .json)

include h hjson

/-- A check that denies errors exits like one that does not, unless there are errors. -/
theorem World.gives_denying {inputs : InputArguments} {history : HistoryArguments}
    {listing : Option String} (hi : i.command = .check inputs history listing true)
    {lenient : List String}
    (hlenient : w.called lenient =
      .ok { i with command := .check inputs history listing false }) :
    (∃ report line, OneDocument line (IntegrityReport.toJson report) ∧ w.Gives lenient 0 line ∧
      w.Gives arguments (if 0 < report.errors then 1 else 0) line) ∨
    w.Gives lenient 1 "" ∧ w.Gives arguments 1 "" := by
  have hdenying := gives_check h hjson hi
  have hnot := gives_check hlenient hjson rfl
  change match ((i.gathered inputs history listing).run.run (w.begun i.console)).1 with
    | .ok _ => _
    | .error _ => _ at hnot
  split at hdenying
  next g hg =>
    rw [hg] at hnot
    exact .inl ⟨g.report, _, oneDocument_compact g.report.held_toJson, by simpa using hnot,
      by simpa using hdenying⟩
  next e he =>
    rw [he] at hnot
    exact .inr ⟨hnot, hdenying⟩

theorem World.gives_command :
    (∃ line j, OneDocument line j ∧ w.Gives arguments 0 line) ∨ w.Gives arguments 1 "" ∨
      ∃ inputs history listing report line, i.command = .check inputs history listing true ∧
        0 < IntegrityReport.errors report ∧ OneDocument line report.toJson ∧
        w.Gives arguments 1 line := by
  by_cases hi : ∀ inputs history listing, i.command ≠ .check inputs history listing true
  · exact (gives_of_showsDocument h (Invocation.showsDocument_carryOut hjson hi)).imp_right .inl
  · simp only [ne_eq, not_forall, not_not] at hi
    obtain ⟨inputs, history, listing, hi⟩ := hi
    have hgives := gives_check h hjson hi
    split at hgives
    next g hg =>
      have hline := oneDocument_compact g.report.held_toJson
      by_cases herrors : 0 < g.report.errors
      · rw [if_pos ⟨rfl, herrors⟩] at hgives
        exact .inr (.inr ⟨inputs, history, listing, g.report, _, hi, herrors, hline, hgives⟩)
      · rw [if_neg fun hdenied => herrors hdenied.2] at hgives
        exact .inl ⟨_, _, hline, hgives⟩
    next e he => exact .inr (.inl hgives)

/-- A script is made in the same way for both formats, and then shown in one of them. -/
theorem World.gives_plain {plain : List String}
    (hplain : w.called plain = .ok { i with console := { i.console with format := .text } })
    {x : Action String} (hx : x.Uses IsInquiry) {part : String}
    (hi : i.carryOut = x >>= fun script => Standalone.emit i.console part script none)
    (hiplain : Invocation.carryOut { i with console := { i.console with format := .text } } =
      x >>= fun script => Standalone.emit { i.console with format := .text } part script none) :
    (∃ script line, OneDocument line (.object [("sql", .text script)]) ∧
      w.Gives arguments 0 line ∧ w.Gives plain 0 script) ∨
    w.Gives arguments 1 "" ∧ w.Gives plain 1 "" := by
  have hdocument := gives_script h hx hi
  have htext := gives_script hplain hx hiplain
  change match (x.run.run (w.begun i.console)).1 with
    | .ok _ => _
    | .error _ => _ at htext
  split at hdocument
  next script hscript =>
    rw [hscript] at htext
    rw [hjson] at hdocument
    have hline : OneDocument (Standalone.shown .json script) (.object [("sql", .text script)]) :=
      oneDocument_compact (.object (AllHeld.cons (.text script) .nil))
    exact .inl ⟨script, _, hline, hdocument, htext⟩
  next e he =>
    rw [he] at htext
    exact .inr ⟨hdocument, htext⟩

end

/-- A call that is misused writes nothing. In the JSON format, one that succeeds writes one line
with one document on it and one that fails writes nothing, unless it is a check that denies the
errors it finds: this writes the same report as the check that does not deny them. A script is in
the document just as the text format writes it. -/
theorem json_answers (w : World) (arguments : List String) :
    (w.called arguments = .error .misused → w.Gives arguments 2 "") ∧
    ∀ i, w.called arguments = .ok i → i.console.format = .json →
      ((∃ line j, OneDocument line j ∧ w.Gives arguments 0 line) ∨ w.Gives arguments 1 "" ∨
        ∃ inputs history listing report line, i.command = .check inputs history listing true ∧
          0 < IntegrityReport.errors report ∧ OneDocument line report.toJson ∧
          w.Gives arguments 1 line) ∧
      (∀ inputs history listing lenient, i.command = .check inputs history listing true →
        w.called lenient = .ok { i with command := .check inputs history listing false } →
        (∃ report line, OneDocument line (IntegrityReport.toJson report) ∧
          w.Gives lenient 0 line ∧
          w.Gives arguments (if 0 < report.errors then 1 else 0) line) ∨
        w.Gives lenient 1 "" ∧ w.Gives arguments 1 "") ∧
      ∀ plain, (∃ file number, i.command = .release file number none) ∨
          (∃ file, i.command = .rehash file none) →
        w.called plain = .ok { i with console := { i.console with format := .text } } →
        (∃ script line, OneDocument line (.object [("sql", .text script)]) ∧
          w.Gives arguments 0 line ∧ w.Gives plain 0 script) ∨
        w.Gives arguments 1 "" ∧ w.Gives plain 1 "" := by
  refine ⟨World.gives_of_misused, fun i h hjson => ⟨World.gives_command h hjson,
    fun _ _ _ _ hi hlenient => World.gives_denying h hjson hi hlenient, ?_⟩⟩
  rintro plain (⟨file, number, hi⟩ | ⟨file, hi⟩) hplain
  · have hscript : (i.loadSettings >>= fun s =>
        Standalone.scriptOfRelease i.console s file number).Uses IsInquiry :=
      i.uses_loadSettings.bind fun s => Standalone.uses_scriptOfRelease _ s file number
    exact World.gives_plain h hjson hplain hscript (Invocation.carryOut_release hi)
      (Invocation.carryOut_release hi)
  · exact World.gives_plain h hjson hplain (Standalone.uses_scriptOfListing _ file)
      (Invocation.carryOut_rehash hi) (Invocation.carryOut_rehash hi)

/-- The text of the listing has quotes of both kinds. -/
theorem json_answers_rehash :
    let w := World.start (.ofNodes [(["list"], .file "it's \"one\"\n".toUTF8)]) []
    ∃ script line, OneDocument line (.object [("sql", .text script)]) ∧
      w.Gives ["rehash", "list", "--format", "json"] 0 line ∧
      w.Gives ["rehash", "list"] 0 script := by
  intro w
  let i : Invocation := ⟨⟨.json, false⟩, none, .rehash "list" none⟩
  have hjson : w.called ["rehash", "list", "--format", "json"] = .ok i := rfl
  have hplain : w.called ["rehash", "list"] =
      .ok { i with console := { i.console with format := .text } } := rfl
  have hcode : ((antRegister ["rehash", "list"]).run w).1 = 0 := by decide +kernel
  obtain ⟨-, -, hscript⟩ := (json_answers w _).2 i hjson rfl
  refine (hscript _ (.inr ⟨"list", rfl⟩) hplain).resolve_right fun hfails => ?_
  rw [hfails.2.code] at hcode
  cases hcode

end AntRegister

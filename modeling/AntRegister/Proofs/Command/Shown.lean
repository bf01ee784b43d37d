import AntRegister.Command.Run
import AntRegister.Proofs.Command.Breakdown
import AntRegister.Proofs.Command.Checking
import AntRegister.Proofs.Command.Report
import AntRegister.Proofs.Documents
/-! What commands show in the JSON format. One that succeeds shows a single document and nothing
else, and one that fails shows nothing, unless it is a check that has shown its report and then
denies the errors in it. -/

namespace AntRegister

open Calendar (Instant)
open Json (AllHeld Held)
open Request

section Documents

theorem Finding.held_toJson (f : Finding) : Held f.toJson := by
  have hcommon : AllHeld [("kind", .text f.kind), ("content", .text f.content)] :=
    .cons (.text _) (.cons (.text _) .nil)
  refine .object (hcommon.append ?_)
  cases f with
  | acceptedNotListed content suggestion => exact .cons (.text suggestion) .nil
  | _ => exact .nil

theorem IntegrityReport.held_toJson (r : IntegrityReport) : Held r.toJson :=
  .object (AllHeld.cons (Held.map Finding.held_toJson _) (.cons (.integer _) (.cons (.integer _)
    (.cons (.integer _) (.cons (.integer _) .nil)))))

theorem Resident.allHeld_members (a : Resident) : AllHeld a.members :=
  .cons (.text _) (.cons (.integer _) (.cons (.bool _) (.cons (Held.orNull Instant.held_toJson _)
    (.cons (.text _) (.cons a.createdAt.held_toJson .nil)))))

theorem Ant.allHeld_members (a : Ant) : AllHeld a.members := by
  cases a with
  | unseen a => exact .cons (.text _) (.cons a.createdAt.held_toJson .nil)
  | declined a =>
    exact .cons (.text _) (.cons a.createdAt.held_toJson (.cons a.closedAt.held_toJson .nil))
  | accepted a => exact a.allHeld_members.append (.cons a.closedAt.held_toJson .nil)
  | legacy a => exact a.allHeld_members

theorem Pipeline.held_sortedObject {members : List (String × Json)} (h : AllHeld members) :
    Held (sortedObject members) :=
  .object fun m hm => h m (List.mem_mergeSort.mp hm)

theorem Pipeline.held_classificationDocument (found : Classification) (list : Bool) :
    Held (classificationDocument found list) := by
  unfold classificationDocument
  split
  · have hants : ∀ a : Ant, Held (sortedObject (("kind", .text a.kind) :: a.members)) :=
      fun a => held_sortedObject (.cons (.text _) a.allHeld_members)
    exact .object (AllHeld.cons (Held.map hants _) (.cons (.integer _) .nil))
  · exact .object (AllHeld.cons (.integer _) (.cons (.integer _) (.cons (.integer _)
      (.cons (.integer _) .nil))))

theorem RunCounts.held_document (k : RunCounts) (label : String) (written : List String) :
    Held (k.document label written) :=
  .object (AllHeld.cons (.integer _) (.cons (.integer _) (.cons (.integer _) (.cons (.integer _)
    (.cons (.integer _) (.cons (.integer _)
      (.cons (Held.orNull Held.integer _)
        (.cons (.text _) (.cons (Held.map Held.text _) .nil)))))))))

end Documents

namespace Action

/-- Whether an action that succeeds shows one document, and one that fails nothing. -/
def ShowsDocument (x : Action Unit) : Prop :=
  ∀ w, x.Ends w (fun _ v => ∃ j, Held j ∧ v.output = w.output ++ (j.compact ++ "\n"))
    fun _ v => v.output = w.output

theorem ShowsDocument.document {j : Json} (h : Held j) :
    ShowsDocument (Console.document j : Action Unit) :=
  fun w => .ofProgram ⟨j, h, Console.output_line _ w⟩

theorem ShowsDocument.throw (e : Failure) : ShowsDocument (throw e) := fun _ => rfl

theorem ShowsDocument.bind {α : Type} {x : Action α} {f : α → Action Unit} (hx : x.Uses IsSilent)
    (hf : ∀ a, (f a).ShowsDocument) : ShowsDocument (x >>= f) := by
  intro w
  have hsilent := hx.output_run w
  refine (ends_run x w).bind (fun a v _ hv => ?_) fun e v _ hv => ?_
  · rw [hv] at hsilent
    have hrest := hf a v
    rwa [show v.output = w.output from hsilent] at hrest
  · rwa [hv] at hsilent

end Action

open AntRegister.Action (ShowsDocument)

section Requests

theorem Settings.uses_writeDefault (path : String) : (writeDefault path).Uses IsSilent := by
  refine .bind (.request trivial) fun present => ?_
  split
  · exact .pure _
  · refine .bind (.request trivial) fun _ => .bind (.ofExcept _ _) fun _ => ?_
    exact .bind (.request trivial) fun _ => .bind (.ofExcept _ _) fun _ => .pure _

theorem Document.uses_load {α : Type} (doc : Document) (read : Json → Option α) (path : String) :
    (doc.load read path).Uses IsInquiry := by
  have h : (doc.load read path).Repeats fun _ => True := doc.repeats_load read trivial
  exact h.inquires

theorem uses_loadListing (path : String) : (loadListing path).Uses IsInquiry := by
  have h : (Document.listing.text path).Repeats fun _ => True := Document.repeats_text _ trivial
  exact .bind h.inquires fun _ => .pure _

namespace Pipeline

variable (c : Console) (s : Settings) (history : HistoryArguments)

theorem uses_loadSources : (Sources.load c s).Uses IsInquiry := by
  have h : (Sources.load c s).Repeats fun _ => True := repeats_loadSources c s trivial trivial
  exact h.inquires

theorem uses_classify (sources : Sources) (mode : Mode) :
    (sources.classify c mode).Uses IsInquiry := by
  have h : (sources.classify c mode).Repeats fun _ => True := repeats_classify c sources mode
  exact h.inquires

theorem uses_gather : (gather c s history).Uses IsInquiry := by
  refine .bind (uses_loadSources c s) fun sources => ?_
  refine .bind (uses_classify c sources s.mode) fun classification => ?_
  have hrest : ∀ lookups : String → Program (Except HistoryError Instant),
      (∀ content, (lookups content).Uses IsSearch) → Action.Uses IsInquiry (do
        let legacy ← sources.resolveLegacy c s.history.workers lookups
        c.progressOf "check" ("Listing: " ++ s.listing)
        let listed ← loadListing s.listing
        return Gathered.mk sources classification legacy listed) := by
    intro lookups hlookups
    have hsearches : ∀ content, (lookups content).Uses fun r => True ∧ r.IsSearch :=
      fun content => (hlookups content).mono fun _ hr => ⟨trivial, hr⟩
    refine .bind (repeats_resolveLegacy c sources _ hsearches).inquires fun legacy => ?_
    exact .bind (uses_progress c _ _) fun _ => .bind (uses_loadListing _) fun _ => .pure _
  unfold HistoryArguments.source
  split
  · simp only [bind_assoc, pure_bind]
    refine .bind (uses_progress c _ _) fun _ => .bind (Document.uses_load _ _ _) fun table => ?_
    exact hrest _ fun content => .pure _
  · simp only [bind_assoc, pure_bind]
    refine .bind (uses_progress c _ _) fun _ => hrest _ fun content => ?_
    exact uses_answerFromLog (fun _ _ => trivial) _ content

end Pipeline

end Requests

/-! Each script is made before anything is written, in the same way for both formats. -/

namespace Standalone

variable (c : Console)

def scriptOfRelease (s : Settings) (file : String) (number : Nat) : Action String := do
  let sheet ← loadReleaseSheet file
  let date ← Action.ofExcept (.badReleaseDate file) sheet.date
  c.progressOf "release" ("Release " ++ Text.decimal number ++ " on " ++ date.text ++ " with " ++
    Text.decimal sheet.ants.length ++ " ants")
  return Sql.releaseScript date number sheet.ants s.sql

def scriptOfListing (file : String) : Action String := do
  let ants ← loadListing file
  c.progressOf "rehash" (Text.decimal ants.length ++ " ants in listing")
  match Sql.rehashScript ants with
  | some script => return script
  | none => throw (.emptyListing file)

theorem release_eq (s : Settings) (file : String) (number : Nat) (out : Option String) :
    release c s file number out =
      scriptOfRelease c s file number >>= fun script => emit c "release" script out := by
  unfold release scriptOfRelease
  simp only [bind_assoc, pure_bind]

theorem rehash_eq (file : String) (out : Option String) :
    rehash c file out = scriptOfListing c file >>= fun script => emit c "rehash" script out := by
  unfold rehash scriptOfListing
  simp only [bind_assoc]
  congr 1
  funext ants
  congr 1
  funext _
  cases Sql.rehashScript ants <;> rfl

theorem uses_scriptOfRelease (s : Settings) (file : String) (number : Nat) :
    (scriptOfRelease c s file number).Uses IsInquiry :=
  .bind (Document.uses_load _ _ _) fun _ => .bind (.ofExcept _ _) fun _ =>
    .bind (Pipeline.uses_progress c _ _) fun _ => .pure _

theorem uses_scriptOfListing (file : String) : (scriptOfListing c file).Uses IsInquiry := by
  refine .bind (uses_loadListing file) fun ants => .bind (Pipeline.uses_progress c _ _) fun _ => ?_
  split
  · exact .pure _
  · exact .throw _

end Standalone

section Commands

variable {c : Console} (hjson : c.format = .json)

include hjson

theorem Console.showsDocument_success (message : String) :
    ShowsDocument (c.success message : Action Unit) := by
  unfold success
  rw [hjson]
  exact .document (.object (AllHeld.cons (.text _) (.cons (.bool _) .nil)))

namespace Standalone

theorem showsDocument_init (settings : Option String) : ShowsDocument (init c settings) := by
  refine .bind (Pipeline.uses_progress c _ _).isSilent fun _ => ?_
  refine .bind (Settings.uses_writeDefault _) fun written => ?_
  split <;> exact Console.showsDocument_success hjson _

theorem showsDocument_hash (content : String) :
    ShowsDocument (hash c content : Action Unit) := by
  unfold hash
  rw [hjson]
  exact .document (.object (AllHeld.cons (.text _) (.cons (.integer _) .nil)))

theorem showsDocument_emit (part script : String) (out : Option String) :
    ShowsDocument (emit c part script out) := by
  unfold emit
  rw [hjson]
  split
  · exact .document (.object (AllHeld.cons (.text _) .nil))
  · split
    · exact .throw _
    · refine .bind (Pipeline.uses_write _ _ _) fun written => ?_
      refine .bind (Pipeline.uses_progress c _ _).isSilent fun _ => ?_
      exact .document (.object (AllHeld.cons (.text _) .nil))

end Standalone

namespace Pipeline

theorem showsDocument_reconcile (s : Settings) (history : HistoryArguments) :
    ShowsDocument (reconcile c s history) := by
  intro w
  unfold Action.Ends
  rcases run_reconcile c s history w with ⟨e, he, hsame⟩ | ⟨r, written, -, -, -, -, hok, hshown⟩
  · rw [he]
    exact hsame
  · rw [hjson] at hshown
    rw [hok]
    exact ⟨_, RunCounts.held_document _ _ _, hshown⟩

theorem showsDocument_classify (s : Settings) (list : Bool) :
    ShowsDocument (classify c s list) := by
  refine .bind (uses_loadSources c s).isSilent fun sources => ?_
  refine .bind (uses_classify c sources s.mode).isSilent fun found => ?_
  rw [hjson]
  exact .document (held_classificationDocument found list)

/-- A report is shown before the errors in it are denied. -/
theorem output_conclude (denyErrors : Bool) (report : IntegrityReport) (w : World) :
    ((conclude c denyErrors report).run.run w).2.output =
      w.output ++ (report.toJson.compact ++ "\n") := by
  have hshow : ((showReport c report).run w).2.output =
      w.output ++ (report.toJson.compact ++ "\n") := by
    unfold showReport
    rw [hjson]
    exact Console.output_line _ w
  unfold conclude
  rw [Action.run_ofProgram_bind, hjson]
  dsimp only
  by_cases hdenied : denyErrors ∧ 0 < report.errors
  · rw [if_pos hdenied]
    exact hshow
  · rw [if_neg hdenied]
    exact hshow

theorem showsDocument_conclude (report : IntegrityReport) :
    ShowsDocument (conclude c false report) := by
  intro w
  have hok := outcome_conclude c false report w
  rw [if_neg (fun h => Bool.false_ne_true h.1)] at hok
  unfold Action.Ends
  rw [hok]
  exact ⟨_, report.held_toJson, output_conclude hjson false report w⟩

end Pipeline

end Commands

end AntRegister

import AntRegister.Command.Pipeline
import AntRegister.Proofs.Requests
/-! The requests of the parts of a run. The history is only searched, and publishing writes files but
nothing to the output. -/

namespace AntRegister

open Request

namespace Console

variable {allowed : Request → Prop} (hnote : ∀ s, allowed (.note s))

include hnote

theorem uses_diagnostic (s : String) : (diagnostic s).Uses allowed := .request (hnote _)

theorem uses_progressOf (c : Console) (part message : String) :
    (c.progressOf part message).Uses allowed := by
  unfold progressOf
  split
  · exact uses_diagnostic hnote _
  · exact .pure ()

theorem uses_warning (c : Console) (message : String) : (c.warning message).Uses allowed := by
  unfold warning
  split <;> exact uses_diagnostic hnote _

end Console

section History

variable {allowed : Request → Prop}

theorem uses_answerFromLog {directory : String}
    (h : ∀ search, search.directory = directory → allowed (.searchLog search)) (limit : Nat)
    (content : String) :
    (answerFromLog (fun search => Program.request (.searchLog search)) directory limit
      content).Uses allowed := by
  unfold answerFromLog
  split
  · exact .pure _
  · dsimp only
    split
    · exact .pure _
    · exact .bind (.request (h _ rfl)) fun _ => .pure _

theorem uses_datesOf {history : String → Program (Except HistoryError Calendar.Instant)}
    (h : ∀ content, (history content).Uses allowed) (ants : List SiteAnt) :
    (datesOf history ants).Uses allowed := by
  induction ants with
  | nil => trivial
  | cons a ants ih =>
    refine .bind (h a.content) fun answer => ?_
    cases answer with
    | error e => exact .pure _
    | ok i =>
      refine .bind ih fun found => ?_
      cases found <;> exact .pure _

theorem Site.uses_resolveLegacy (site : Site)
    {history : String → Program (Except HistoryError Calendar.Instant)}
    (h : ∀ content, (history content).Uses allowed) :
    (site.resolveLegacy history).Uses allowed :=
  .bind (uses_datesOf h _) fun _ => .pure _

end History

namespace Pipeline

variable (c : Console)

theorem uses_progress (part message : String) :
    Action.Uses IsInquiry (c.progressOf part message) :=
  .ofProgram (Console.uses_progressOf (fun _ => trivial) c part message)

theorem uses_write (folder : OutputFolder) (name content : String) :
    (folder.write name content).Uses IsSilent := by
  refine .bind (.request trivial) fun _ => .bind (.ofExcept _ _) fun _ => ?_
  refine .bind (.request trivial) fun _ => .bind (.ofExcept _ _) fun _ => ?_
  refine .bind (.request trivial) fun _ => .bind (.ofExcept _ _) fun _ => ?_
  refine .bind (.request trivial) fun _ => .bind (.ofExcept _ _) fun _ => ?_
  exact .bind (.request trivial) fun _ => .bind (.ofExcept _ _) fun _ => .pure _

theorem uses_removeFile? (folder : OutputFolder) (name : String) :
    (folder.removeFile? name).Uses IsSilent := by
  refine .bind (.request trivial) fun present => ?_
  split
  · exact .bind (.request trivial) fun _ => .bind (.ofExcept _ _) fun _ => .pure _
  · exact .pure _

theorem uses_writeAll (folder : OutputFolder) (files : List (String × String)) :
    (folder.writeAll files).Uses IsSilent := by
  have hwrite : ∀ f : String × String, (folder.write f.1 f.2).Uses IsSilent :=
    fun f => uses_write folder f.1 f.2
  exact .mapM hwrite files

theorem uses_removeStale (folder : OutputFolder) (owned keep : List String) :
    (folder.removeStale owned keep).Uses IsSilent :=
  .bind (.mapM (uses_removeFile? folder) _) fun _ => .pure _

theorem uses_publish (folder : OutputFolder) (seed : Sql.Seed) :
    (publish c folder seed).Uses IsSilent := by
  refine .bind (uses_writeAll folder _) fun written => ?_
  refine .bind (uses_removeStale folder _ _) fun stale => ?_
  refine .bind (.forIn (fun path _ => ?_) _ _) fun _ => .pure _
  have hprogress : (c.progressOf "sql" ("Removed stale " ++ path)).Uses IsSilent :=
    Console.uses_progressOf (fun _ => trivial) c _ _
  exact .bind (.ofProgram hprogress) fun _ => .pure _

end Pipeline

end AntRegister

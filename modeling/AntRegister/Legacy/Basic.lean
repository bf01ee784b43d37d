import AntRegister.Ant.Basic
import AntRegister.History.Basic
import AntRegister.Latest
/-!
Legacy ants get their dates from the history. They are asked for in site order, and the first error
ends it: a content without history means that the site data is wrong.
-/

namespace AntRegister

open Calendar (Instant)

variable {m : Type → Type} [Monad m]

/-- The dates of ants in order, or the error of the first one that has none. -/
def datesOf (history : String → m (Except HistoryError Instant)) :
    List SiteAnt → m (Except HistoryError (List (SiteAnt × Instant)))
  | [] => return .ok []
  | a :: rest => do
    match ← history a.content with
    | .error e => return .error e
    | .ok i =>
      match ← datesOf history rest with
      | .error e => return .error e
      | .ok found => return .ok ((a, i) :: found)

/-- The legacy ants of dated site ants, one of each content. -/
def legacyOfDated (dated : List (SiteAnt × Instant)) : List Legacy :=
  latestBy (fun a => a.content) (dated.map fun d => Legacy.ofEntry d.1.entry d.2)

/-- The legacy ants of a site, dated by the history. -/
def Site.resolveLegacy (site : Site) (history : String → m (Except HistoryError Instant)) :
    m (Except HistoryError (List Legacy)) :=
  return (← datesOf history site.legacyAnts).map legacyOfDated

end AntRegister

import AntRegister.Command.Pipeline
import AntRegister.Proofs.Command.Inputs
/-! What actions find out on a disk that they leave as it is. The documents of a run are those that
the disk holds when it begins. -/

namespace AntRegister

open Request

variable {α β : Type} {P : α → Prop} {Q : β → Prop} {w : World}

/-- Whether a file holds a document that reads as a value. -/
def World.Holds (w : World) (path : String) (read : Json → Option α) (a : α) : Prop :=
  ∃ text, w.disk.readText w.here path = .ok text ∧ Json.read? text >>= read = some a

theorem World.Holds.unique {path : String} {read : Json → Option α} {a b : α}
    (ha : w.Holds path read a) (hb : w.Holds path read b) : a = b := by
  obtain ⟨text, htext, hread⟩ := ha
  obtain ⟨text', htext', hread'⟩ := hb
  obtain rfl : text = text' := Except.ok.inj (htext.symm.trans htext')
  exact Option.some.inj (hread.symm.trans hread')

namespace Action

/-- Whether what an action returns has a property, and the disk is left as it is, wherever the disk
and the system are those of a world. -/
def Finds (w : World) (P : α → Prop) (x : Action α) : Prop :=
  ∀ v, w.SameSystem v → v.disk = w.disk → ∀ a, (x.run.run v).1 = .ok a →
    P a ∧ (x.run.run v).2.disk = w.disk

theorem Finds.of_ok {x : Action α} (hx : x.Finds w P) {a : α} (h : (x.run.run w).1 = .ok a) :
    P a := (hx w (.refl w) rfl a h).1

theorem Finds.ends {x : Action α} (hx : x.Finds w P) {v : World} (hsystem : w.SameSystem v)
    (hdisk : v.disk = w.disk) : x.Ends v (fun a _ => P a) fun _ _ => True := by
  unfold Ends
  split
  next a ha => exact (hx v hsystem hdisk a ha).1
  next => trivial

theorem Finds.pure {a : α} (h : P a) : Action.Finds w P (pure a : Action α) :=
  fun _ _ hdisk _ hok => ⟨Except.ok.inj hok ▸ h, hdisk⟩

theorem Finds.throw (e : Failure) : Action.Finds w P (throw e : Action α) :=
  fun _ _ _ _ hok => nomatch hok

theorem Finds.of_uses {x : Action α} (hx : x.Uses IsInquiry) : x.Finds w fun _ => True :=
  fun v _ hdisk _ _ => ⟨trivial, (hx.disk_run v).trans hdisk⟩

theorem Finds.bind {x : Action α} {f : α → Action β} (hx : x.Finds w P)
    (hf : ∀ a, P a → (f a).Finds w Q) : Action.Finds w Q (x >>= f) := by
  intro v hsystem hdisk b hok
  cases hv : (x.run.run v).1 with
  | error e =>
    rw [run_bind_of_error hv] at hok
    cases hok
  | ok a =>
    rw [run_bind_of_ok hv] at hok ⊢
    obtain ⟨ha, hafter⟩ := hx v hsystem hdisk a hv
    exact hf a ha _ (hsystem.trans (Program.sameSystem_run x.run v)) hafter b hok

theorem Finds.ofExcept {ε : Type} {failure : ε → Failure} {x : Except ε α}
    (h : ∀ a, x = .ok a → P a) : Action.Finds w P (Action.ofExcept failure x) := by
  cases x with
  | ok a => exact .pure (h a rfl)
  | error e => exact .throw (failure e)

theorem Finds.request {r : Request} {P : r.Reply → Prop} (hr : r.IsInquiry)
    (h : ∀ v, w.SameSystem v → v.disk = w.disk → P (v.answer r).1) :
    (Action.request r).Finds w P := by
  intro v hsystem hdisk reply hok
  have hrun : (Action.request r).run.run v = (.ok (v.answer r).1, (v.answer r).2) :=
    run_ofProgram (.request r) v
  rw [hrun] at hok ⊢
  obtain rfl := Except.ok.inj hok
  exact ⟨h v hsystem hdisk, (v.disk_answer (IsInquiry.sparesDisk r hr)).trans hdisk⟩

theorem finds_readText (path : String) : (Action.request (.readText path)).Finds w
    fun reply => ∀ text, reply = .ok text → w.disk.readText w.here path = .ok text := by
  refine .request trivial fun v hsystem hdisk text hread => ?_
  rcases v.answer_readText path with hgrant | ⟨-, fault, herror⟩
  · have hinquiry : (Request.readText path).IsInquiry := trivial
    rw [hgrant, World.reply_grant_eq hinquiry hsystem hdisk] at hread
    exact hread
  · rw [herror] at hread
    cases hread

end Action

theorem Document.finds_text (doc : Document) (path : String) :
    (doc.text path).Finds w fun text => w.disk.readText w.here path = .ok text :=
  .bind (Action.finds_readText path) fun _ hreply => .ofExcept hreply

theorem Document.finds_load (doc : Document) (read : Json → Option α) (path : String) :
    (doc.load read path).Finds w (w.Holds path read) := by
  refine .bind (doc.finds_text path) fun text htext => ?_
  split
  · next a ha => exact .pure ⟨text, htext, ha⟩
  · exact .throw _

/-- The sources of a run are the site data as they stand and the issues with plain apostrophes. -/
structure Sources.AreFrom (sources : Sources) (w : World) (s : Settings) (exported : List Issue) :
    Prop where
  siteData : w.Holds s.siteData Site.ofJson? sources.site
  matcher : sources.matcher = .ofAnts sources.site.ants
  issueExport : w.Holds s.issueExport (Json.asList? Issue.ofJson?) exported
  issues : sources.issues = exported.map Issue.plain

theorem Pipeline.finds_loadSources (c : Console) (s : Settings) :
    (Sources.load c s).Finds w fun sources => ∃ exported, sources.AreFrom w s exported := by
  have hprogress : ∀ part message, Action.Finds w (fun _ => True) (c.progressOf part message) :=
    fun part message => .of_uses (uses_progress c part message)
  refine .bind (hprogress _ _) fun _ _ => .bind (Document.finds_load _ _ _) fun site hsite => ?_
  refine .bind (hprogress _ _) fun _ _ => .bind (hprogress _ _) fun _ _ => ?_
  have hissues : (loadIssues s.issueExport).Finds w fun issues =>
      ∃ exported, w.Holds s.issueExport (Json.asList? Issue.ofJson?) exported ∧
        issues = exported.map Issue.plain :=
    .bind (Document.finds_load _ _ _) fun exported h => .pure ⟨exported, h, rfl⟩
  refine .bind hissues fun issues ⟨exported, hexported, hplain⟩ => ?_
  exact .bind (hprogress _ _) fun _ _ => .pure ⟨exported, hsite, rfl, hexported, hplain⟩

theorem Sources.exists_of_load {c : Console} {s : Settings} {site : Site} {exported : List Issue}
    (hrun : ((Sources.load c s).run.run w).1.map Sources.site = .ok site)
    (hexport : w.Holds s.issueExport (Json.asList? Issue.ofJson?) exported) :
    ∃ sources, ((Sources.load c s).run.run w).1 = .ok sources ∧ sources.AreFrom w s exported ∧
      sources.site = site := by
  cases hsources : ((Sources.load c s).run.run w).1 with
  | error e =>
    rw [hsources] at hrun
    cases hrun
  | ok sources =>
    rw [hsources] at hrun
    obtain ⟨exported', hfrom⟩ := (Pipeline.finds_loadSources c s).of_ok hsources
    obtain rfl := hfrom.issueExport.unique hexport
    exact ⟨sources, rfl, hfrom, Except.ok.inj hrun⟩

end AntRegister

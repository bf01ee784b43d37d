import AntRegister.Proofs.Command.Phases
import AntRegister.Proofs.Runs
/-! What a run collects depends on nothing but what it is told: by its documents, and by the log if
there is no table of dates. -/

namespace AntRegister

open Request

variable {allowed : Request → Prop} {α β : Type}

namespace World

variable {w v w' v' : World}

/-- Whether two worlds reply alike to requests of a kind, but for trouble. -/
def Alike (allowed : Request → Prop) (w v : World) : Prop :=
  ∀ r, r.IsInquiry → allowed r → (w.grant r).1 = (v.grant r).1

theorem reply_grant_eq {r : Request} (hr : r.IsInquiry) (h : w.SameSystem v)
    (hdisk : v.disk = w.disk) : (v.grant r).1 = (w.grant r).1 := by
  cases r with
  | readText path | isFile path | entryExists path => simp only [grant, hdisk, h.here]
  | environment name => simp only [grant, h.environment]
  | settingsFolder => simp only [grant, h.environment, h.settingsFolder]
  | searchLog search => simp only [grant, hdisk, h.here, h.log]
  | note text => rfl
  | _ => exact hr.elim

theorem Alike.of_same (h : w.Alike allowed v) (hw : w.SameSystem w') (hwdisk : w'.disk = w.disk)
    (hv : v.SameSystem v') (hvdisk : v'.disk = v.disk) : w'.Alike allowed v' := by
  intro r hr hallowed
  rw [reply_grant_eq hr hw hwdisk, reply_grant_eq hr hv hvdisk, h r hr hallowed]

theorem answer_readText (w : World) (path : String) :
    (w.answer (.readText path)).1 = (w.grant (.readText path)).1 ∨
      ¬w.IsCalm ∧ ∃ fault, (w.answer (.readText path)).1 = .error fault := by
  unfold answer
  cases htrouble : w.trouble w.requests (.readText path) with
  | none => exact .inl rfl
  | some t =>
    exact .inr ⟨fun hcalm => hcalm.elim htrouble, t.fault, rfl⟩

end World

/-- A search of the log. It is granted even in trouble. -/
def Request.IsSearch : Request → Prop
  | .searchLog _ => True
  | _ => False

theorem Request.IsSearch.isInquiry {r : Request} (h : r.IsSearch) : r.IsInquiry := by
  cases r with
  | searchLog search => trivial
  | _ => exact h.elim

theorem World.answer_search {r : Request} (h : r.IsSearch) (w : World) :
    (w.answer r).1 = (w.grant r).1 := by
  have hgranted : r.IsGranted := by
    cases r with
    | searchLog search => trivial
    | _ => exact h.elim
  rw [w.answer_granted hgranted]

theorem Program.run_eq_of_alike {p : Program α} (hp : p.Uses fun r => allowed r ∧ r.IsSearch)
    {w v : World} (h : w.Alike allowed v) : (p.run w).1 = (p.run v).1 := by
  induction p generalizing w v with
  | done a => rfl
  | ask r next ih =>
    obtain ⟨⟨hallowed, hsearch⟩, hnext⟩ := hp
    have hreply : (w.answer r).1 = (v.answer r).1 := by
      rw [w.answer_search hsearch, v.answer_search hsearch, h r hsearch.isInquiry hallowed]
    have hspares := IsInquiry.sparesDisk r hsearch.isInquiry
    have hafter : (w.answer r).2.Alike allowed (v.answer r).2 :=
      h.of_same (w.sameSystem_answer r) (w.disk_answer hspares) (v.sameSystem_answer r)
        (v.disk_answer hspares)
    change ((next (w.answer r).1).run (w.answer r).2).1 = ((next (v.answer r).1).run _).1
    rw [hreply]
    exact ih _ (hnext _) hafter

namespace Action

/-- Whether an action that inquires comes to the same in all worlds that reply alike, once it comes
to anything. Trouble may keep it from that. -/
structure Repeats (allowed : Request → Prop) (x : Action α) : Prop where
  inquires : x.Uses IsInquiry
  follows : ∀ w v a, w.Alike allowed v → (x.run.run w).1 = .ok a →
    (x.run.run v).1 = .ok a ∨ ¬v.IsCalm ∧ ∃ e, (x.run.run v).1 = .error e

theorem Repeats.pure (a : α) : Repeats allowed (pure a : Action α) :=
  ⟨.pure a, fun _ _ _ _ h => .inl h⟩

theorem Repeats.throw (e : Failure) : Repeats allowed (throw e : Action α) :=
  ⟨.throw e, fun _ _ _ _ h => nomatch h⟩

theorem Repeats.ofExcept {ε : Type} (failure : ε → Failure) (x : Except ε α) :
    Repeats allowed (Action.ofExcept failure x) := by
  cases x with
  | ok a => exact .pure a
  | error e => exact .throw _

theorem Repeats.note {p : Program Unit} (h : p.Uses IsInquiry) :
    Repeats allowed (p : Action Unit) where
  inquires := .ofProgram h
  follows w v a _ _ := .inl (by rw [run_ofProgram])

theorem Repeats.search {p : Program α} (h : p.Uses fun r => allowed r ∧ r.IsSearch) :
    Repeats allowed (p : Action α) where
  inquires := .ofProgram (h.mono fun _ hr => hr.2.isInquiry)
  follows w v a halike hok := by
    rw [run_ofProgram] at hok ⊢
    exact .inl ((congrArg Except.ok (Program.run_eq_of_alike h halike)).symm.trans hok)

theorem Repeats.bind {x : Action α} {f : α → Action β} (hx : x.Repeats allowed)
    (hf : ∀ a, (f a).Repeats allowed) : Repeats allowed (x >>= f) where
  inquires := hx.inquires.bind fun a => (hf a).inquires
  follows w v b halike hok := by
    cases hw : (x.run.run w).1 with
    | error e =>
      rw [run_bind_of_error hw] at hok
      cases hok
    | ok a =>
      rw [run_bind_of_ok hw] at hok
      -- the first part leaves both worlds as alike as they were
      rcases hx.follows w v a halike hw with hv | ⟨hcalm, e, hv⟩
      · rw [run_bind_of_ok hv]
        have hsame : v.SameSystem (x.run.run v).2 := Program.sameSystem_run _ v
        have hafter := halike.of_same (Program.sameSystem_run x.run w) (hx.inquires.disk_run w)
          hsame (hx.inquires.disk_run v)
        rcases (hf a).follows _ _ b hafter hok with hb | ⟨hcalm, he⟩
        · exact .inl hb
        · exact .inr ⟨fun h => hcalm (hsame.isCalm h), he⟩
      · rw [run_bind_of_error hv]
        exact .inr ⟨hcalm, e, rfl⟩

end Action

theorem Document.fst_run_text (doc : Document) (path : String) (w : World) :
    ((doc.text path).run.run w).1 =
      (w.answer (.readText path)).1.mapError fun fault => .unread doc path fault := by
  refine (congrArg Prod.fst (Action.run_ofProgram_bind (.request (.readText path))
    (fun reply => Action.ofExcept (.unread doc path) reply) w)).trans ?_
  rw [Program.run_request]
  cases (w.answer (.readText path)).1 <;> rfl

theorem Document.repeats_text (doc : Document) {path : String} (h : allowed (.readText path)) :
    (doc.text path).Repeats allowed where
  inquires := .bind (.request trivial) fun _ => .ofExcept _ _
  follows w v a halike hok := by
    rw [doc.fst_run_text] at hok ⊢
    have hgrant : (v.grant (.readText path)).1 = .ok a := by
      rw [← halike (.readText path) trivial h]
      rcases w.answer_readText path with heq | ⟨-, fault, herror⟩
      · rw [heq] at hok
        cases hread : (w.grant (.readText path)).1 with
        | ok text =>
          rw [hread] at hok
          exact congrArg Except.ok (Except.ok.inj hok)
        | error fault =>
          rw [hread] at hok
          cases hok
      · rw [herror] at hok
        cases hok
    rcases v.answer_readText path with heq | ⟨hcalm, fault, herror⟩
    · rw [heq, hgrant]
      exact .inl rfl
    · rw [herror]
      exact .inr ⟨hcalm, _, rfl⟩

theorem Document.repeats_load (doc : Document) (read : Json → Option α) {path : String}
    (h : allowed (.readText path)) : (doc.load read path).Repeats allowed := by
  refine .bind (doc.repeats_text h) fun text => ?_
  split
  · exact .pure _
  · exact .throw _

namespace Pipeline

/-- What a run asks about its inputs: for its documents, and for the log if no document takes its
place. -/
def Asks (s : Settings) (history : HistoryArguments) : Request → Prop
  | .readText path => path = s.siteData ∨ path = s.issueExport ∨ history.file = some path
  | .searchLog search => history.file = none ∧ search.directory = s.history.repository
  | _ => False

variable (c : Console) (s : Settings) (history : HistoryArguments)

theorem repeats_progress (part message : String) :
    Action.Repeats allowed (c.progressOf part message) :=
  .note (Console.uses_progressOf (fun _ => trivial) c part message)

theorem repeats_loadSources (hsite : allowed (.readText s.siteData))
    (hissues : allowed (.readText s.issueExport)) : (Sources.load c s).Repeats allowed := by
  refine .bind (repeats_progress c _ _) fun _ => ?_
  refine .bind (Document.repeats_load _ _ hsite) fun site => ?_
  refine .bind (repeats_progress c _ _) fun _ => .bind (repeats_progress c _ _) fun _ => ?_
  have hissues : (loadIssues s.issueExport).Repeats allowed :=
    .bind (Document.repeats_load _ _ hissues) fun _ => .pure _
  exact .bind hissues fun issues => .bind (repeats_progress c _ _) fun _ => .pure _

theorem repeats_classify (sources : Sources) (mode : Mode) :
    (sources.classify c mode).Repeats allowed :=
  .bind (.ofExcept _ _) fun _ => .bind (repeats_progress c _ _) fun _ => .pure _

theorem repeats_resolveLegacy (sources : Sources) (workers : Nat)
    {lookups : String → Program (Except HistoryError Calendar.Instant)}
    (h : ∀ content, (lookups content).Uses fun r => allowed r ∧ r.IsSearch) :
    (sources.resolveLegacy c workers lookups).Repeats allowed := by
  refine .bind (repeats_progress c _ _) fun _ => ?_
  refine .bind (.search (sources.site.uses_resolveLegacy h)) fun resolved => ?_
  exact .bind (.ofExcept _ _) fun legacy => .bind (repeats_progress c _ _) fun _ => .pure _

theorem repeats_source_bind
    {f : (String → Program (Except HistoryError Calendar.Instant)) → Action α}
    (hf : ∀ lookups, (∀ content, (lookups content).Uses fun r => Asks s history r ∧ r.IsSearch) →
      (f lookups).Repeats (Asks s history)) :
    Action.Repeats (Asks s history) (history.source c s >>= f) := by
  unfold HistoryArguments.source
  split
  next path hfile =>
    rw [bind_assoc]
    refine .bind (repeats_progress c _ _) fun _ => ?_
    rw [bind_assoc]
    refine .bind (Document.repeats_load _ _ (.inr (.inr hfile))) fun table => ?_
    exact hf _ fun content => .pure _
  next hfile =>
    rw [bind_assoc]
    refine .bind (repeats_progress c _ _) fun _ => hf _ fun content => ?_
    exact uses_answerFromLog (fun search hdirectory => ⟨⟨hfile, hdirectory⟩, trivial⟩) _ content

theorem repeats_collect : (collect c s history).Repeats (Asks s history) := by
  refine .bind (repeats_loadSources c s (.inl rfl) (.inr (.inl rfl))) fun sources => ?_
  refine .bind (repeats_classify c sources s.mode) fun classification => ?_
  have hrest : Action.Repeats (Asks s history) (do
      let lookups ← history.source c s
      let legacy ← sources.resolveLegacy c s.history.workers lookups
      return Reconciliation.mk classification legacy) :=
    repeats_source_bind c s history fun lookups hlookups =>
      .bind (repeats_resolveLegacy c sources _ hlookups) fun _ => .pure _
  dsimp only
  split
  · exact .bind (.note (Console.uses_warning (fun _ => trivial) c _)) fun _ => hrest
  · exact hrest

theorem uses_collect : (collect c s history).Uses IsInquiry :=
  (repeats_collect c s history).inquires

end Pipeline

end AntRegister

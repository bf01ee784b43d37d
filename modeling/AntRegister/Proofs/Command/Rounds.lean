import AntRegister.Proofs.Command.Reconciling
/-! Runs one after the other. Whatever earlier runs left in the output folder, after one that ends
well the files under the owned names are its own, and doing the same again changes nothing. -/

namespace AntRegister

open Disk OutputFolder Reconciliation

/-- A run, and what happens to the world before it. -/
structure Round where
  meanwhile : World → World
  console : Console
  settings : Settings
  history : HistoryArguments

namespace Round

def run (x : Round) (w : World) : Except Failure Unit × World :=
  (Pipeline.reconcile x.console x.settings x.history).run.run (x.meanwhile w)

def after (rounds : List Round) (w : World) : World := rounds.foldl (fun v x => (x.run v).2) w

/-- The files under the owned names after a run that ends well are exactly those that it has for
them, whatever runs came before it, where the owned names and those of their drafts are no links, no
two drafts are one file, and the system can tell which of the names are those of files. With inputs
that say the same, another run in their place ends well unless there is trouble, and if it does it
changes nothing. -/
theorem files_after_rounds (rounds : List Round) (last : Round) (w : World)
    (hok : (last.run (after rounds w)).1 = .ok ())
    (hplain : ∀ p, IsAt ⟨last.settings.outputFolder⟩ (last.meanwhile (after rounds w)).here
      (last.meanwhile (after rounds w)).disk p →
        Plain p ownedFiles (last.meanwhile (after rounds w)).disk)
    (hsees : (last.meanwhile (after rounds w)).Sees) :
    let before := last.meanwhile (after rounds w)
    let done := (last.run (after rounds w)).2
    let folder : OutputFolder := ⟨last.settings.outputFolder⟩
    ∃ p, folder.IsAt before.here before.disk p ∧ done.disk.Leads before.here folder.path p ∧
      ∃ r, Pipeline.collected last.console last.settings last.history before = .ok r ∧
        let seed := r.seed last.settings.sql
        let written := seed.files ++ [("seed.sql", seed.transaction)]
        (written.map Prod.fst).Sublist ownedFiles ∧
        (∀ n ∈ ownedFiles, ∀ bytes, done.disk.find? (p ++ [n]) = some (.file bytes) ↔
          ∃ content, (n, content) ∈ written ∧ content.toUTF8 = bytes) ∧
        ∀ again : World, again.disk = done.disk → again.here = done.here →
          before.Alike (Pipeline.Asks last.settings last.history) again →
          let repeated :=
            (Pipeline.reconcile last.console last.settings last.history).run.run again
          (again.IsCalm → repeated.1 = .ok ()) ∧
            (repeated.1 = .ok () → ∀ l, repeated.2.disk.find? l = done.disk.find? l) := by
  intro before done folder
  have hhere : done.here = before.here := (Program.sameSystem_run _ before).here
  obtain ⟨r, hr, p, hpublished, hgone⟩ :=
    (Pipeline.ends_reconcile last.console last.settings last.history before hplain).of_ok hok
  have howned := owned_files r last.settings.sql
  have hat : folder.IsAt before.here before.disk p := hpublished.isAt
  refine ⟨p, hat, hpublished.leads, r, hr, howned.names,
    fun n hn => hpublished.find?_eq_file_iff howned (hgone hsees) hn, ?_⟩
  intro again hdisk hagain halike repeated
  have hplain' : ∀ q, folder.IsAt again.here again.disk q → Plain q ownedFiles again.disk := by
    rw [hagain, hhere, hdisk]
    exact fun q => hpublished.plain_again howned (hplain p hat)
  have hends := Pipeline.ends_reconcile last.console last.settings last.history again hplain'
  rw [hagain, hhere, hdisk] at hends
  have hcollected := (Pipeline.repeats_collect last.console last.settings
    last.history).follows before again r halike hr
  constructor
  · intro hcalm
    cases hrepeated : repeated.1 with
    | ok _ => rfl
    | error e =>
      have hagain : Pipeline.collected last.console last.settings last.history again = .ok r :=
        hcollected.resolve_right fun h => h.1 hcalm
      rcases hends.of_error hrepeated with ⟨herror, -⟩ | ⟨r', hr', -, -, hready⟩
      · rw [hagain] at herror
        cases herror
      · obtain rfl := Except.ok.inj (hagain.symm.trans hr')
        exact absurd (hpublished.ready howned) (hready hcalm p)
  · intro hrepeated
    obtain ⟨r', hr', q, hpublished', -⟩ := hends.of_ok hrepeated
    have hsame : r = r' := by
      rcases hcollected with hagain | ⟨-, e, herror⟩
      · exact Except.ok.inj (hagain.symm.trans hr')
      · exact nomatch hr'.symm.trans herror
    subst hsame
    exact hpublished.again howned (hgone hsees) hpublished'

def plain (s : Settings) : Round := ⟨id, ⟨.text, false⟩, s, ⟨none, none, none, none⟩⟩

/-- A file that an earlier run left under the name of an empty table does not survive. -/
theorem files_after_failed_round :
    let w := World.bare [(["out"], .folder), (["out", "ant.sql"], .file .empty)]
    let done := (plain .nearby).run (after [plain .default] w)
    ((plain .default).run w).1.toOption = none ∧ done.1 = .ok () ∧
      (done.2.disk.find? ["out", "ant.sql"]).isSome = false ∧
      ∃ written : List (String × String), ∀ n ∈ ownedFiles, ∀ bytes,
        done.2.disk.find? (["out"] ++ [n]) = some (.file bytes) ↔
          ∃ content, (n, content) ∈ written ∧ content.toUTF8 = bytes := by
  intro w
  have hfails : ((plain .default).run w).1.toOption = none := by decide +kernel
  have hok : ((plain .nearby).run (after [plain .default] w)).1 = .ok () := by decide +kernel
  have hgone : (((plain .nearby).run (after [plain .default] w)).2.disk.find?
      ["out", "ant.sql"]).isSome = false := by
    decide +kernel
  have hat : IsAt ⟨(plain .nearby).settings.outputFolder⟩
      ((plain .nearby).meanwhile (after [plain .default] w)).here
      ((plain .nearby).meanwhile (after [plain .default] w)).disk ["out"] := by
    decide +kernel
  have hplain : Plain ["out"] ownedFiles
      ((plain .nearby).meanwhile (after [plain .default] w)).disk := by
    decide +kernel
  have hsees : ((plain .nearby).meanwhile (after [plain .default] w)).Sees :=
    (Program.sameSystem_run _ w).sees fun _ _ => rfl
  obtain ⟨p, hp, -, r, -, -, hwritten, -⟩ := files_after_rounds [plain .default] (plain .nearby) w
    hok (fun q hq => hq.unique hat ▸ hplain) hsees
  obtain rfl := hp.unique hat
  -- the run is not to be evaluated once more
  generalize (plain .nearby).run (after [plain .default] w) = done at hok hgone hwritten ⊢
  exact ⟨hfails, hok, hgone, _, hwritten⟩

/-- Where two drafts are one file, what is written last is under both names, and where the system
cannot tell that there is a file, that stays. -/
theorem files_after_round_not_always :
    (¬∀ (x : Round) (w : World) (p : Location) (r : Reconciliation), (x.run w).1 = .ok () →
      Pipeline.collected x.console x.settings x.history (x.meanwhile w) = .ok r →
        IsAt ⟨x.settings.outputFolder⟩ (x.meanwhile w).here (x.meanwhile w).disk p →
          (x.meanwhile w).Sees →
            ∀ n ∈ ownedFiles, ∀ bytes, (x.run w).2.disk.find? (p ++ [n]) = some (.file bytes) ↔
              ∃ content, (n, content) ∈ files (r.seed x.settings.sql) ∧
                content.toUTF8 = bytes) ∧
    ¬∀ (x : Round) (w : World) (p : Location) (r : Reconciliation), (x.run w).1 = .ok () →
      Pipeline.collected x.console x.settings x.history (x.meanwhile w) = .ok r →
        IsAt ⟨x.settings.outputFolder⟩ (x.meanwhile w).here (x.meanwhile w).disk p →
          Plain p ownedFiles (x.meanwhile w).disk →
            ∀ n ∈ ownedFiles, ∀ bytes, (x.run w).2.disk.find? (p ++ [n]) = some (.file bytes) ↔
              ∃ content, (n, content) ∈ files (r.seed x.settings.sql) ∧
                content.toUTF8 = bytes := by
  constructor
  · intro h
    let x := plain .nearby
    let w := (World.bare [(["out"], .folder), (["out", "migration.sql.tmp"], .file .empty)]).linked
      ["out", "migration.sql.tmp"] ["out", "seed.sql.tmp"]
    let marker := "insert into migration (migration_label) values ('seed-ants:0');\n"
    have hok : (x.run w).1 = .ok () := by decide +kernel
    have hat : IsAt ⟨x.settings.outputFolder⟩ (x.meanwhile w).here (x.meanwhile w).disk
        ["out"] := by
      decide +kernel
    have hlocate : (x.run w).2.disk.locate true [] "out/migration.sql" =
        .ok ["out", "migration.sql"] := by
      decide +kernel
    have hread : (x.run w).2.disk.readText [] "out/migration.sql" =
        .ok ("BEGIN;\n\n" ++ marker ++ "\nCOMMIT;\n") := by
      decide +kernel
    have hmarker : (match Pipeline.collected x.console x.settings x.history (x.meanwhile w) with
        | .ok r => decide (("migration.sql", marker) ∈ files (r.seed x.settings.sql))
        | .error _ => false) = true := by
      decide +kernel
    split at hmarker
    next r hr =>
      have hfile := (h x w _ r hok hr hat (fun _ _ => rfl) "migration.sql" (by decide) _).mpr
        ⟨marker, of_decide_eq_true hmarker, rfl⟩
      rw [readText_of_find? hlocate hfile] at hread
      exact absurd (Except.ok.inj hread) (by decide)
    next => cases hmarker
  · intro h
    let x := plain .nearby
    let w := { World.bare [(["out"], .folder), (["out", "ant.sql"], .file .empty)] with
      trouble := fun _ r =>
        match r with
        | .isFile "out/ant.sql" => some ⟨.other "Input/output error", 0, 0⟩
        | _ => none }
    have hok : (x.run w).1 = .ok () := by decide +kernel
    have hat : IsAt ⟨x.settings.outputFolder⟩ (x.meanwhile w).here (x.meanwhile w).disk
        ["out"] := by
      decide +kernel
    have hplain : Plain ["out"] ownedFiles (x.meanwhile w).disk := by decide +kernel
    have hstays : (x.run w).2.disk.entryAt? ["out", "ant.sql"] = some (.file 2) := by
      decide +kernel
    have hstale : (match Pipeline.collected x.console x.settings x.history (x.meanwhile w) with
        | .ok r => decide ("ant.sql" ∉ (files (r.seed x.settings.sql)).map Prod.fst)
        | .error _ => false) = true := by
      decide +kernel
    split at hstale
    next r hr =>
      have hfile := find?_eq_file_iff.mpr ⟨2, hstays, rfl⟩
      obtain ⟨content, hmem, -⟩ := (h x w _ r hok hr hat hplain "ant.sql" (by decide) _).mp hfile
      exact of_decide_eq_true hstale (List.mem_map_of_mem hmem)
    next => cases hstale

end Round

end AntRegister

import AntRegister.Proofs.Disk.Folders
import AntRegister.Proofs.Requests
/-! What a run comes to: its value or its failure, and the world after it. A run is followed request
by request, and a loop by what holds after each of its items. -/

namespace AntRegister

variable {α β γ : Type}

namespace World

/-- What no request changes: the folder that the program works in, its environment, where settings
are kept, the log and the troubles to come. -/
structure SameSystem (w v : World) : Prop where
  here : v.here = w.here
  environment : v.environment = w.environment
  settingsFolder : v.settingsFolder = w.settingsFolder
  log : v.log = w.log
  trouble : v.trouble = w.trouble

def IsCalm (w : World) : Prop := w.trouble = fun _ _ => none

/-- Whether the system can always tell if there is a file at a path. -/
def Sees (w : World) : Prop := ∀ k path, w.trouble k (.isFile path) = none

variable {w v u : World}

theorem SameSystem.refl (w : World) : w.SameSystem w := ⟨rfl, rfl, rfl, rfl, rfl⟩

theorem SameSystem.trans (h : w.SameSystem v) (h' : v.SameSystem u) : w.SameSystem u where
  here := h'.here.trans h.here
  environment := h'.environment.trans h.environment
  settingsFolder := h'.settingsFolder.trans h.settingsFolder
  log := h'.log.trans h.log
  trouble := h'.trouble.trans h.trouble

theorem SameSystem.isCalm (h : w.SameSystem v) (hw : w.IsCalm) : v.IsCalm := h.trouble.trans hw

theorem SameSystem.sees (h : w.SameSystem v) (hw : w.Sees) : v.Sees := fun k path =>
  (congrFun (congrFun h.trouble k) _).trans (hw k path)

theorem IsCalm.elim {r : Request} {t : Trouble} {P : Prop} (hcalm : w.IsCalm)
    (htrouble : w.trouble w.requests r = some t) : P := by
  rw [hcalm] at htrouble
  cases htrouble

theorem sameSystem_change (w : World) (d : Except Fault Disk) : w.SameSystem (w.change d).2 := by
  cases d <;> exact ⟨rfl, rfl, rfl, rfl, rfl⟩

theorem sameSystem_grant (w : World) (r : Request) : w.SameSystem (w.grant r).2 := by
  cases r with
  | createFile path | writeFile path content | rename old new | removeFile path =>
    exact w.sameSystem_change _
  | _ => exact ⟨rfl, rfl, rfl, rfl, rfl⟩

theorem sameSystem_refuse (w : World) (t : Trouble) (r : Request) :
    w.SameSystem (w.refuse t r).2 := by
  cases r with
  | writeFile path content => exact w.sameSystem_change _
  | _ => exact ⟨rfl, rfl, rfl, rfl, rfl⟩

theorem sameSystem_answer (w : World) (r : Request) : w.SameSystem (w.answer r).2 := by
  unfold answer
  cases w.trouble w.requests r with
  | none => exact (w.sameSystem_grant r).trans ⟨rfl, rfl, rfl, rfl, rfl⟩
  | some t => exact (w.sameSystem_refuse t r).trans ⟨rfl, rfl, rfl, rfl, rfl⟩

/-- How an operation on the disk went. Without trouble it fails only if it is out of order. -/
def Tries (w : World) (op : Except Fault Disk) : Except Fault Unit → World → Prop
  | .ok _, v => op = .ok v.disk
  | .error fault, v => v.disk = w.disk ∧ (w.IsCalm → op = .error fault)

theorem tries_change (w : World) (op : Except Fault Disk) :
    w.Tries op (w.change op).1 { (w.change op).2 with requests := w.requests + 1 } := by
  cases op with
  | ok d => rfl
  | error fault => exact ⟨rfl, fun _ => rfl⟩

/-- How writing a text to a file went. In trouble something else may be written. -/
def TriesWriting (w : World) (path content : String) : Except Fault Unit → World → Prop
  | .ok _, v => w.disk.writeFile w.here path content.toUTF8 = .ok v.disk
  | .error fault, v =>
    (v.disk = w.disk ∨ ∃ part, w.disk.writeFile w.here path part = .ok v.disk) ∧
      (w.IsCalm → w.disk.writeFile w.here path content.toUTF8 = .error fault)

/-- How making folders went. In trouble some of them may be made. -/
def TriesFolders (w : World) (path : String) : Except Fault Unit → World → Prop
  | .ok _, v => v.disk = (w.disk.makeFolders w.here path path.length).2
  | .error fault, v =>
    Disk.Paves w.here path w.disk v.disk ∧
      (w.IsCalm → (w.disk.makeFolders w.here path path.length).1 = .error fault)

end World

theorem Program.sameSystem_run (p : Program α) (w : World) : w.SameSystem (p.run w).2 := by
  induction p generalizing w with
  | done a => exact .refl w
  | ask r next ih => exact (w.sameSystem_answer r).trans (ih _ _)

namespace Action

/-- Whether a run ends with a value and a world that have one property, or with a failure and a
world that have another. -/
def Ends (x : Action α) (w : World) (P : α → World → Prop) (F : Failure → World → Prop) : Prop :=
  match (x.run.run w).1 with
  | .ok a => P a (x.run.run w).2
  | .error e => F e (x.run.run w).2

variable {w : World} {x : Action α} {f : α → Action β} {P : α → World → Prop}
  {Q : β → World → Prop} {F G : Failure → World → Prop}

theorem Ends.of_ok (h : x.Ends w P F) {a : α} (ha : (x.run.run w).1 = .ok a) :
    P a (x.run.run w).2 := by
  rwa [Ends, ha] at h

theorem Ends.of_error (h : x.Ends w P F) {e : Failure} (he : (x.run.run w).1 = .error e) :
    F e (x.run.run w).2 := by
  rwa [Ends, he] at h

theorem ends_run (x : Action α) (w : World) : x.Ends w (fun a v => x.run.run w = (.ok a, v))
    (fun e v => x.run.run w = (.error e, v)) := by
  unfold Ends
  split <;> exact Prod.ext ‹_› rfl

theorem Ends.pure {a : α} (h : P a w) : Action.Ends (pure a) w P F := h

theorem Ends.ofProgram {p : Program α} (h : P (p.run w).1 (p.run w).2) :
    Action.Ends (p : Action α) w P F := by
  rwa [Ends, run_ofProgram]

theorem Ends.request {r : Request} {P : r.Reply → World → Prop}
    (h : P (w.answer r).1 (w.answer r).2) : (Action.request r).Ends w P F := .ofProgram h

theorem Ends.bind (hx : x.Ends w P F)
    (hok : ∀ a v, w.SameSystem v → P a v → (f a).Ends v Q G)
    (herror : ∀ e v, w.SameSystem v → F e v → G e v) : Action.Ends (x >>= f) w Q G := by
  have hsame : w.SameSystem (x.run.run w).2 := Program.sameSystem_run _ w
  cases h : (x.run.run w).1 with
  | ok a =>
    rw [Ends, run_bind_of_ok h]
    exact hok a _ hsame (hx.of_ok h)
  | error e =>
    rw [Ends, run_bind_of_error h]
    exact herror e _ hsame (hx.of_error h)

theorem Ends.mono {P' : α → World → Prop} (hx : x.Ends w P F)
    (hok : ∀ a v, w.SameSystem v → P a v → P' a v)
    (herror : ∀ e v, w.SameSystem v → F e v → G e v) : x.Ends w P' G := by
  have hsame : w.SameSystem (x.run.run w).2 := Program.sameSystem_run _ w
  cases h : (x.run.run w).1 with
  | ok a =>
    rw [Ends, h]
    exact hok a _ hsame (hx.of_ok h)
  | error e =>
    rw [Ends, h]
    exact herror e _ hsame (hx.of_error h)

theorem Ends.attempt {x : Action (Except Fault α)} {failure : Fault → Failure}
    {T : Except Fault α → World → Prop} (hx : x.Ends w T fun _ _ => False)
    (hok : ∀ a v, w.SameSystem v → T (.ok a) v → (f a).Ends v Q G)
    (herror : ∀ fault v, w.SameSystem v → T (.error fault) v → G (failure fault) v) :
    Action.Ends (x >>= fun reply => Action.ofExcept failure reply >>= f) w Q G := by
  refine hx.bind (fun reply v hv hT => ?_) fun _ _ _ => False.elim
  cases reply with
  | ok a => exact hok a v hv hT
  | error fault => exact herror fault v hv hT

theorem Ends.mapM {I : List α → World → Prop} {items : List α}
    (hstep : ∀ done a rest v, items = done ++ a :: rest → w.SameSystem v → I done v →
      (f a).Ends v (fun _ => I (done ++ [a])) F)
    (h : I [] w) : Action.Ends (items.mapM f) w (fun _ => I items) F := by
  -- by induction on the items that are left, for all that are done and any world they led to
  have hrest : ∀ rest done v, items = done ++ rest → w.SameSystem v → I done v →
      Action.Ends (rest.mapM f) v (fun _ => I items) F := by
    intro rest
    induction rest with
    | nil =>
      intro done v hitems hv hdone
      rw [hitems, List.append_nil]
      exact .pure hdone
    | cons a rest ih =>
      intro done v hitems hv hdone
      rw [List.mapM_cons]
      refine (hstep done a rest v hitems hv hdone).bind (fun _ u hu ha => ?_) fun _ _ _ => id
      have hitems' : items = done ++ [a] ++ rest := by rw [hitems, List.append_assoc]; rfl
      exact (ih (done ++ [a]) u hitems' (hv.trans hu) ha).bind (fun _ _ _ hall => .pure hall)
        fun _ _ _ => id
  exact hrest items [] w rfl (.refl w) h

theorem Ends.forIn {f : α → β → Action (ForInStep β)} {I : World → Prop}
    (hstep : ∀ a b v, I v → (f a b).Ends v (fun _ => I) F) (items : List α) (b : β) (h : I w) :
    Action.Ends (forIn items b f) w (fun _ => I) F := by
  induction items generalizing b w with
  | nil => exact .pure h
  | cons a items ih =>
    rw [List.forIn_cons]
    refine (hstep a b w h).bind (fun step v _ hv => ?_) fun _ _ _ => id
    cases step with
    | done b => exact .pure hv
    | yield b => exact ih b hv

theorem Ends.answered {r : Request} {P : r.Reply → World → Prop}
    (hgrant : P (w.grant r).1 { (w.grant r).2 with requests := w.requests + 1 })
    (hrefuse : ∀ t, w.trouble w.requests r = some t →
      P (w.refuse t r).1 { (w.refuse t r).2 with requests := w.requests + 1 }) :
    (Action.request r).Ends w P F := by
  apply Ends.request
  unfold World.answer
  cases htrouble : w.trouble w.requests r with
  | none => exact hgrant
  | some t => exact hrefuse t htrouble

section Operations

variable (w : World) (F : Failure → World → Prop) (path : String)

theorem ends_createFile : (Action.request (.createFile path)).Ends w
    (w.Tries (w.disk.createFile w.here path)) F :=
  .answered (w.tries_change _) fun _ htrouble => ⟨rfl, fun hcalm => hcalm.elim htrouble⟩

theorem ends_rename (new : String) : (Action.request (.rename path new)).Ends w
    (w.Tries (w.disk.rename w.here path new)) F :=
  .answered (w.tries_change _) fun _ htrouble => ⟨rfl, fun hcalm => hcalm.elim htrouble⟩

theorem ends_removeFile : (Action.request (.removeFile path)).Ends w
    (w.Tries (w.disk.removeFile w.here path)) F :=
  .answered (w.tries_change _) fun _ htrouble => ⟨rfl, fun hcalm => hcalm.elim htrouble⟩

theorem ends_writeFile (content : String) : (Action.request (.writeFile path content)).Ends w
    (w.TriesWriting path content) F := by
  refine .answered ?_ fun t htrouble => ⟨?_, fun hcalm => hcalm.elim htrouble⟩
  · dsimp only [World.grant]
    cases h : w.disk.writeFile w.here path content.toUTF8 with
    | ok d => exact h
    | error fault => exact ⟨.inl rfl, fun _ => h⟩
  · dsimp only [World.refuse]
    cases h : w.disk.writeFile w.here path (content.toUTF8.extract 0 t.written) with
    | ok d => exact .inr ⟨_, h⟩
    | error fault => exact .inl rfl

theorem ends_makeFolders : (Action.request (.makeFolders path)).Ends w
    (w.TriesFolders path) F := by
  refine .answered ?_ fun t htrouble =>
    ⟨Disk.paves_above w.disk w.here path t.unmade _, fun hcalm => hcalm.elim htrouble⟩
  dsimp only [World.grant]
  cases h : (w.disk.makeFolders w.here path path.length).1 with
  | ok _ => rfl
  | error fault => exact ⟨Disk.paves_makeFolders w.disk w.here path _, fun _ => h⟩

theorem ends_lockFile : (Action.request (.lockFile path)).Ends w
    (fun locked v => v.disk = w.disk ∧ ∀ fault, locked = .error fault → ¬w.IsCalm) F :=
  .answered ⟨rfl, nofun⟩ fun _ htrouble => ⟨rfl, fun _ _ hcalm => hcalm.elim htrouble⟩

/-- What is taken for a file is one, but in trouble a file may be taken for none. -/
theorem ends_isFile : (Action.request (.isFile path)).Ends w
    (fun present v => v.disk = w.disk ∧ (present = true → w.disk.isFile w.here path = true) ∧
      (w.Sees → present = w.disk.isFile w.here path)) F := by
  refine .answered ⟨rfl, id, fun _ => rfl⟩ fun t htrouble => ⟨rfl, nofun, fun hsees => ?_⟩
  rw [hsees] at htrouble
  cases htrouble

end Operations

end Action

end AntRegister

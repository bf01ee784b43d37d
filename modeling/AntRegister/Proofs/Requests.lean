import AntRegister.Documents
import AntRegister.World
/-! Programs by the requests that they make, whatever they are told. What all requests of a kind
leave as it is, a program that makes no others leaves as it is too. -/

namespace AntRegister

variable {allowed : Request → Prop} {α β : Type}

namespace Program

/-- Whether a program only makes requests of a kind. -/
def Uses (allowed : Request → Prop) : Program α → Prop
  | .done _ => True
  | .ask r next => allowed r ∧ ∀ reply, (next reply).Uses allowed

theorem Uses.pure (a : α) : (pure a : Program α).Uses allowed := trivial

theorem Uses.request {r : Request} (h : allowed r) : (Program.request r).Uses allowed :=
  ⟨h, fun _ => trivial⟩

theorem Uses.bind {p : Program α} {f : α → Program β} (hp : p.Uses allowed)
    (hf : ∀ a, (f a).Uses allowed) : (p >>= f).Uses allowed := by
  induction p with
  | done a => exact hf a
  | ask r next ih => exact ⟨hp.1, fun reply => ih reply (hp.2 reply)⟩

theorem Uses.mono {other : Request → Prop} {p : Program α} (hp : p.Uses allowed)
    (h : ∀ r, allowed r → other r) : p.Uses other := by
  induction p with
  | done a => trivial
  | ask r next ih => exact ⟨h r hp.1, fun reply => ih reply (hp.2 reply)⟩

/-- What a request of the kind preserves, a run preserves. -/
theorem Uses.run {p : Program α} (hp : p.Uses allowed) {P : World → Prop}
    (hstep : ∀ r w, allowed r → P w → P (w.answer r).2) {w : World} (hw : P w) :
    P (p.run w).2 := by
  induction p generalizing w with
  | done a => exact hw
  | ask r next ih => exact ih _ (hp.2 _) (hstep r w hp.1 hw)

end Program

namespace Request

/-- A request that changes nothing but the diagnostics. -/
def IsInquiry : Request → Prop
  | .readText _ | .isFile _ | .entryExists _ | .environment _ | .settingsFolder | .searchLog _
  | .note _ => True
  | _ => False

def SparesDisk : Request → Prop
  | .makeFolders _ | .createFile _ | .writeFile _ _ | .rename _ _ | .removeFile _ => False
  | _ => True

/-- A request that trouble does not keep from being granted. -/
def IsGranted : Request → Prop
  | .environment _ | .settingsFolder | .searchLog _ | .note _ | .print _ => True
  | _ => False

/-- A request that writes nothing to the output. -/
def IsSilent : Request → Prop
  | .print _ => False
  | _ => True

theorem IsInquiry.sparesDisk (r : Request) (h : r.IsInquiry) : r.SparesDisk := by
  cases r <;> trivial

theorem IsInquiry.isSilent (r : Request) (h : r.IsInquiry) : r.IsSilent := by
  cases r with
  | print s => exact h
  | _ => trivial

end Request

theorem Program.Uses.isSilent {p : Program α} (h : p.Uses Request.IsInquiry) :
    p.Uses Request.IsSilent := h.mono Request.IsInquiry.isSilent

theorem World.output_change (w : World) (d : Except Fault Disk) :
    (w.change d).2.output = w.output := by
  cases d <;> rfl

theorem World.output_grant {r : Request} (h : r.IsSilent) (w : World) :
    (w.grant r).2.output = w.output := by
  cases r with
  | print s => exact h.elim
  | createFile path | writeFile path content | rename old new | removeFile path =>
    exact w.output_change _
  | _ => rfl

theorem World.output_refuse {r : Request} (h : r.IsSilent) (t : Trouble) (w : World) :
    (w.refuse t r).2.output = w.output := by
  cases r with
  | print s => exact h.elim
  | writeFile path content => exact w.output_change _
  | _ => rfl

theorem World.output_answer {r : Request} (h : r.IsSilent) (w : World) :
    (w.answer r).2.output = w.output := by
  unfold World.answer
  cases w.trouble w.requests r with
  | none => exact w.output_grant h
  | some t => exact w.output_refuse h t

theorem World.disk_answer {r : Request} (h : r.SparesDisk) (w : World) :
    (w.answer r).2.disk = w.disk := by
  unfold World.answer
  cases w.trouble w.requests r <;> cases r with
    | makeFolders _ | createFile _ | writeFile _ _ | rename _ _ | removeFile _ => exact h.elim
    | _ => rfl

theorem World.answer_granted {r : Request} (h : r.IsGranted) (w : World) :
    w.answer r = ((w.grant r).1, { (w.grant r).2 with requests := w.requests + 1 }) := by
  unfold World.answer
  cases w.trouble w.requests r <;> cases r with
    | environment _ | settingsFolder | searchLog _ | note _ | print _ => rfl
    | _ => exact h.elim

theorem Program.Uses.disk_run_of_spares {p : Program α} (h : p.Uses Request.SparesDisk)
    (w : World) : (p.run w).2.disk = w.disk := by
  apply h.run (P := fun v => v.disk = w.disk)
  · intro r v hr hv
    exact (v.disk_answer hr).trans hv
  · rfl

theorem Program.Uses.disk_run {p : Program α} (h : p.Uses Request.IsInquiry) (w : World) :
    (p.run w).2.disk = w.disk := (h.mono Request.IsInquiry.sparesDisk).disk_run_of_spares w

theorem Program.Uses.output_run {p : Program α} (h : p.Uses Request.IsSilent) (w : World) :
    (p.run w).2.output = w.output := by
  apply h.run (P := fun v => v.output = w.output)
  · intro r v hr hv
    exact (v.output_answer hr).trans hv
  · rfl

namespace Action

/-- Whether an action only makes requests of a kind, up to its end or its failure. -/
def Uses (allowed : Request → Prop) (x : Action α) : Prop := Program.Uses allowed x.run

theorem Uses.pure (a : α) : Action.Uses allowed (pure a : Action α) := trivial

theorem Uses.throw (e : Failure) : Action.Uses allowed (throw e : Action α) := trivial

theorem Uses.ofProgram {p : Program α} (hp : p.Uses allowed) :
    Action.Uses allowed (p : Action α) :=
  Program.Uses.bind hp fun _ => trivial

theorem Uses.request {r : Request} (h : allowed r) : (Action.request r).Uses allowed :=
  .ofProgram (.request h)

theorem Uses.ofExcept {ε : Type} (failure : ε → Failure) (e : Except ε α) :
    (Action.ofExcept failure e).Uses allowed := by
  cases e <;> trivial

theorem Uses.bind {x : Action α} {f : α → Action β} (hx : x.Uses allowed)
    (hf : ∀ a, (f a).Uses allowed) : Action.Uses allowed (x >>= f) := by
  refine Program.Uses.bind hx fun outcome => ?_
  cases outcome with
  | ok a => exact hf a
  | error e => trivial

theorem Uses.mapM {f : α → Action β} (hf : ∀ a, (f a).Uses allowed) (xs : List α) :
    Action.Uses allowed (xs.mapM f) := by
  induction xs with
  | nil => trivial
  | cons x xs ih =>
    rw [List.mapM_cons]
    exact .bind (hf x) fun _ => .bind ih fun _ => .pure _

theorem Uses.forIn {f : α → β → Action (ForInStep β)} (hf : ∀ a b, (f a b).Uses allowed)
    (xs : List α) (b : β) : Action.Uses allowed (forIn xs b f) := by
  induction xs generalizing b with
  | nil => trivial
  | cons x xs ih =>
    rw [List.forIn_cons]
    refine .bind (hf x b) fun step => ?_
    cases step with
    | done b => exact .pure b
    | yield b => exact ih b

theorem Uses.isSilent {x : Action α} (h : x.Uses Request.IsInquiry) :
    x.Uses Request.IsSilent := Program.Uses.isSilent h

theorem Uses.disk_run {x : Action α} (h : x.Uses Request.IsInquiry) (w : World) :
    (x.run.run w).2.disk = w.disk := Program.Uses.disk_run h w

theorem Uses.output_run {x : Action α} (h : x.Uses Request.IsSilent) (w : World) :
    (x.run.run w).2.output = w.output := Program.Uses.output_run h w

theorem run_bind_of_error {x : Action α} {f : α → Action β} {w : World} {e : Failure}
    (h : (x.run.run w).1 = .error e) : (x >>= f).run.run w = (.error e, (x.run.run w).2) := by
  rw [ExceptT.run_bind, Program.run_bind, h]
  rfl

theorem run_bind_of_ok {x : Action α} {f : α → Action β} {w : World} {a : α}
    (h : (x.run.run w).1 = .ok a) : (x >>= f).run.run w = (f a).run.run (x.run.run w).2 := by
  rw [ExceptT.run_bind, Program.run_bind, h]

theorem run_ofProgram (p : Program α) (w : World) :
    (p : Action α).run.run w = (.ok (p.run w).1, (p.run w).2) :=
  Program.run_bind p _ w

theorem run_ofProgram_bind (p : Program α) (f : α → Action β) (w : World) :
    ((p : Action α) >>= f).run.run w = (f (p.run w).1).run.run (p.run w).2 := by
  rw [run_bind_of_ok (congrArg Prod.fst (run_ofProgram p w)), run_ofProgram]

end Action

end AntRegister

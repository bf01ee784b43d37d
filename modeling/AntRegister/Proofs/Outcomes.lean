import AntRegister.Documents
import AntRegister.World
/-! Programs by what they return, whatever they are told. An action returns a value or the failure
that it ends with. -/

namespace AntRegister

variable {α β : Type} {P : α → Prop} {Q : β → Prop} {E : Failure → Prop}

namespace Program

def Returns (P : α → Prop) : Program α → Prop
  | .done a => P a
  | .ask _ next => ∀ reply, (next reply).Returns P

theorem Returns.pure {a : α} (h : P a) : (pure a : Program α).Returns P := h

theorem Returns.bind {p : Program α} {f : α → Program β} (hp : p.Returns P)
    (hf : ∀ a, P a → (f a).Returns Q) : (p >>= f).Returns Q := by
  induction p with
  | done a => exact hf a hp
  | ask r next ih => exact fun reply => ih reply (hp reply)

theorem Returns.of_forall (p : Program α) (h : ∀ a, P a) : p.Returns P := by
  induction p with
  | done a => exact h a
  | ask r next ih => exact fun reply => ih reply

theorem Returns.run {p : Program α} (hp : p.Returns P) (w : World) : P (p.run w).1 := by
  induction p generalizing w with
  | done a => exact hp
  | ask r next ih => exact ih _ (hp _) _

end Program

namespace Action

def Returns (P : α → Prop) (E : Failure → Prop) (x : Action α) : Prop :=
  Program.Returns (fun | .ok a => P a | .error e => E e) x.run

theorem Returns.pure {a : α} (h : P a) : Action.Returns P E (pure a : Action α) := h

theorem Returns.throw {e : Failure} (h : E e) : Action.Returns P E (throw e : Action α) := h

theorem Returns.ofProgram {p : Program α} (hp : p.Returns P) :
    Action.Returns P E (p : Action α) :=
  Program.Returns.bind hp fun _ h => h

theorem Returns.request (r : Request) : (Action.request r).Returns (fun _ => True) E :=
  .ofProgram (.of_forall _ fun _ => trivial)

theorem Returns.ofExcept {ε : Type} {failure : ε → Failure} {x : Except ε α}
    (hok : ∀ a, x = .ok a → P a) (herror : ∀ e, E (failure e)) :
    (Action.ofExcept failure x).Returns P E := by
  cases x with
  | ok a => exact hok a rfl
  | error e => exact herror e

theorem Returns.bind {x : Action α} {f : α → Action β} (hx : x.Returns P E)
    (hf : ∀ a, P a → (f a).Returns Q E) : Action.Returns Q E (x >>= f) := by
  refine Program.Returns.bind hx fun outcome h => ?_
  cases outcome with
  | ok a => exact hf a h
  | error e => exact h

theorem Returns.of_ok {x : Action α} (hx : x.Returns P E) {w : World} {a : α}
    (h : (x.run.run w).1 = .ok a) : P a := by
  have hreturned := Program.Returns.run hx w
  rw [h] at hreturned
  exact hreturned

theorem Returns.of_error {x : Action α} (hx : x.Returns P E) {w : World} {e : Failure}
    (h : (x.run.run w).1 = .error e) : E e := by
  have hreturned := Program.Returns.run hx w
  rw [h] at hreturned
  exact hreturned

end Action

end AntRegister

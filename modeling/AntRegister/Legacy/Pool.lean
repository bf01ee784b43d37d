import AntRegister.Legacy.Basic
/-!
A pool of workers that share the lookups of a list. Each worker takes the next item, looks it up and
keeps the answer, until the items are used up or it reads that a lookup has failed. A schedule says
whose turn it is; the answers are put in the order of the items at the end.
-/

namespace AntRegister

variable {β ε α : Type}

/-- What a worker does in its next turn. -/
inductive Stage (β ε α : Type) where
  /-- Read whether a lookup has failed. -/
  | ready
  /-- Take the next item. -/
  | admitted
  /-- Look the item up. -/
  | holding (index : Nat) (item : β)
  /-- Tell the pool that the lookup failed. -/
  | failing (index : Nat) (error : ε)
  /-- Keep the answer. -/
  | answered (index : Nat) (answer : Except ε α)
  | finished

structure Worker (β ε α : Type) where
  stage : Stage β ε α
  /-- The answers so far, with the places of their items. -/
  kept : List (Nat × Except ε α)

structure Pool (β ε α : Type) where
  /-- The place of the next item. -/
  next : Nat
  failed : Bool
  workers : List (Worker β ε α)

/-- A turn of one worker. A stale turn reads that nothing has failed, even if the pool has been told
otherwise. -/
structure Turn where
  worker : Nat
  stale : Bool
  deriving DecidableEq

namespace Pool

/-- The number of workers: at least one, and no more than there are items. -/
def size (wanted items : Nat) : Nat := min (max 1 wanted) (max 1 items)

/-- A pool before its first turn. -/
def start (wanted items : Nat) : Pool β ε α :=
  ⟨0, false, List.replicate (size wanted items) ⟨.ready, []⟩⟩

def enter (p : Pool β ε α) (k : Nat) (stage : Stage β ε α) : Pool β ε α :=
  { p with workers := p.workers.modify k fun w => { w with stage } }

/-- Keeps an answer of the worker at a place, which is then ready again. -/
def keep (p : Pool β ε α) (k index : Nat) (answer : Except ε α) : Pool β ε α :=
  { p with workers := p.workers.modify k fun w => ⟨.ready, w.kept ++ [(index, answer)]⟩ }

def stageAt (p : Pool β ε α) (k : Nat) : Stage β ε α :=
  (p.workers[k]?.map fun w => w.stage).getD .finished

def stageOf (index : Nat) : Except ε α → Stage β ε α
  | .ok a => .answered index (.ok a)
  | .error e => .failing index e

def move (items : List β) (ask : β → Except ε α) (p : Pool β ε α) (t : Turn) : Pool β ε α :=
  match p.stageAt t.worker with
  | .ready => p.enter t.worker (if p.failed && !t.stale then .finished else .admitted)
  | .admitted =>
    match items[p.next]? with
    | some item => { p with next := p.next + 1 }.enter t.worker (.holding p.next item)
    | none => { p with next := p.next + 1 }.enter t.worker .finished
  | .holding index item => p.enter t.worker (stageOf index (ask item))
  | .failing index e => { p with failed := true }.enter t.worker (.answered index (.error e))
  | .answered index answer => p.keep t.worker index answer
  | .finished => p

/-- The place of the item that a turn looks up, if it looks one up. -/
def lookedUp (p : Pool β ε α) (t : Turn) : Option Nat :=
  match p.stageAt t.worker with
  | .holding index _ => some index
  | _ => none

def run (items : List β) (ask : β → Except ε α) (p : Pool β ε α) (schedule : List Turn) :
    Pool β ε α :=
  schedule.foldl (move items ask) p

/-- The places of the items that a schedule looks up, in the order of its turns. -/
def lookups (items : List β) (ask : β → Except ε α) (p : Pool β ε α) : List Turn → List Nat
  | [] => []
  | t :: ts => (p.lookedUp t).toList ++ lookups items ask (p.move items ask t) ts

/-- Whether no turn changes the pool any more. -/
def isFinished (p : Pool β ε α) : Bool :=
  p.workers.all fun w => match w.stage with
    | .finished => true
    | _ => false

def answers (p : Pool β ε α) : List (Nat × Except ε α) :=
  (p.workers.flatMap fun w => w.kept).mergeSort fun a b => a.1 ≤ b.1

/-- All answers, or the first error among them. -/
def outcome (p : Pool β ε α) : Except ε (List α) := p.answers.mapM fun a => a.2

end Pool

end AntRegister

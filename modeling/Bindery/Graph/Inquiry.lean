import Bindery.Graph.Trace

/-! Inquiries: computations that put questions and give notices, apart from the store that answers them.
Several inquiries can be under way at once. They take turns then, and each of them sees the answers to its
own questions only. -/

namespace Bindery.Graph

inductive Inquiry (α : Type) where
  | finished (result : α)
  | asking (selector : Selector) (next : Option (List Node) → Inquiry α)
  | noticing (notice : Notice) (next : Inquiry α)

namespace Inquiry
variable {α β : Type}

protected def bind : Inquiry α → (α → Inquiry β) → Inquiry β
  | .finished result, next => next result
  | .asking selector rest, next => .asking selector fun answer => (rest answer).bind next
  | .noticing notice rest, next => .noticing notice (rest.bind next)

instance : Monad Inquiry where
  pure := .finished
  bind := Inquiry.bind

/-- A failed query counts as an empty answer. -/
def ask (selector : Selector) : Inquiry (List Node) :=
  .asking selector fun
    | some nodes => .finished nodes
    | none => .noticing (.queryFailed selector) (.finished [])

def notice (notice : Notice) : Inquiry Unit :=
  .noticing notice (.finished ())

/-- Carries an inquiry out, after what was traced before. -/
def run (store : Store) : Inquiry α → Trace → α × Trace
  | .finished result, trace => (result, trace)
  | .asking selector next, trace =>
    (next (store.answer trace.questions selector)).run store (trace ++ [.asked selector])
  | .noticing notice next, trace => next.run store (trace ++ [.noticed notice])

/-! ### Several inquiries -/

/-- Carries inquiries out one after another. -/
def inTurn : List (Inquiry α) → Inquiry (List α)
  | [] => return []
  | first :: rest => do return (← first) :: (← inTurn rest)

def isFinished : Inquiry α → Bool
  | .finished _ => true
  | _ => false

/-- One question or notice; the answer is what remains. -/
def step : Inquiry α → Inquiry (Inquiry α)
  | .finished result => .finished (.finished result)
  | .asking selector next => .asking selector fun answer => .finished (next answer)
  | .noticing notice next => .noticing notice (.finished next)

def stepAt : Nat → List (Inquiry α) → Inquiry (List (Inquiry α))
  | _, [] => return []
  | 0, first :: rest => do return (← first.step) :: rest
  | position + 1, first :: rest => do return first :: (← stepAt position rest)

/-- Inquiries are taken up in order, and as many as there are workers are under way at once. -/
def isUnderWay (workers : Nat) (inquiries : List (Inquiry α)) (position : Nat) : Bool :=
  ((inquiries.take position).filter (!·.isFinished)).length < workers

/-- Carries inquiries out side by side. Each turn names the one that goes a step further, which only one under
way can do; those still open when no turn is left end one after another. -/
def together (workers : Nat) : List Nat → List (Inquiry α) → Inquiry (List α)
  | [], inquiries => inTurn inquiries
  | turn :: turns, inquiries =>
    if isUnderWay workers inquiries turn then do together workers turns (← stepAt turn inquiries)
    else together workers turns inquiries

end Inquiry

/-- Those who carry inquiries out. In which turns they get on is not for us to say; the turns may differ for
each root, to which the ids visited on the way lead. -/
structure Workers where
  count : Int
  turns : List Text → List Nat

namespace Workers

/-- One worker has no turns to take. -/
def one : Workers := ⟨1, fun _ => []⟩

def carryOut {α : Type} (workers : Workers) (visited : List Text) (inquiries : List (Inquiry α)) :
    Inquiry (List α) :=
  if workers.count > 1 && inquiries.length > 1 then
    Inquiry.together workers.count.toNat (workers.turns visited) inquiries
  else Inquiry.inTurn inquiries

end Workers
end Bindery.Graph

import Bindery.Proofs.BoundedRecursion
import Bindery.Proofs.DeclaredNodes

/-! What is asked in the course of an inquiry, and what comes back. A question is seen together with the nodes in the
answer to it: these decide what is asked for again, alone, and what is given up after that. It does not matter here
whether there is an end to the nodes that answers can hold. -/

namespace Bindery

namespace Declaration

instance (declaration : Declaration) (node : Node) : Decidable (declaration.Names node) :=
  match declaration with
  | .coordinate value => inferInstanceAs (Decidable (node.coordinate = some value))
  | .id value => inferInstanceAs (Decidable (node.id = value))

/-- Some node goes by what is declared. -/
def IsAmong (declaration : Declaration) (nodes : List Node) : Prop :=
  ∃ node ∈ nodes, declaration.Names node

instance (declaration : Declaration) (nodes : List Node) : Decidable (declaration.IsAmong nodes) :=
  inferInstanceAs (Decidable (∃ node ∈ nodes, declaration.Names node))

/-- The question for nothing else. -/
def alone : Declaration → Graph.Selector
  | .coordinate value => .atCoordinates [value]
  | .id value => .withIds [value]

end Declaration

namespace Graph

def Selector.declarations : Selector → List Declaration
  | .atCoordinates coordinates => coordinates.map .coordinate
  | .withIds ids => ids.map .id

@[simp] theorem Selector.declarations_alone (declaration : Declaration) : declaration.alone.declarations = [declaration] := by
  cases declaration <;> rfl

/-- What a notice gives up, since it was not found when it was asked for again. -/
def Notice.lost? : Notice → Option Declaration
  | .coordinateNotFound coordinate => some (.coordinate coordinate)
  | .idNotFound id => some (.id id)
  | _ => none

/-- A question with the nodes in the answer to it. A failed query brings none. -/
structure Exchange where
  selector : Selector
  nodes : List Node
  deriving DecidableEq, Repr

/-- What is answered to a question after others; `none` is a failed query. -/
abbrev Answers := List Selector → Selector → Option (List Node)

namespace Trace
variable {answers : Answers}

/-- The questions of a trace, each with what is answered when others were put before. -/
def exchanges (answers : Answers) (asked : List Selector) : Trace → List Exchange
  | [] => []
  | .asked selector :: rest =>
    ⟨selector, (answers asked selector).getD []⟩ :: exchanges answers (asked ++ [selector]) rest
  | .noticed _ :: rest => exchanges answers asked rest

def losses (trace : Trace) : List Declaration :=
  trace.notices.filterMap Notice.lost?

@[simp] theorem exchanges_nil (asked : List Selector) : exchanges answers asked [] = [] := rfl

@[simp] theorem exchanges_asked (asked : List Selector) (selector : Selector) (rest : Trace) :
    exchanges answers asked (.asked selector :: rest) =
      ⟨selector, (answers asked selector).getD []⟩ :: exchanges answers (asked ++ [selector]) rest := rfl

@[simp] theorem exchanges_noticed (asked : List Selector) (notice : Notice) (rest : Trace) :
    exchanges answers asked (.noticed notice :: rest) = exchanges answers asked rest := rfl

@[simp] theorem losses_nil : losses [] = [] := rfl

@[simp] theorem losses_asked (selector : Selector) (rest : Trace) : losses (.asked selector :: rest) = losses rest := rfl

@[simp] theorem losses_noticed (notice : Notice) (rest : Trace) :
    losses (.noticed notice :: rest) = notice.lost?.toList ++ losses rest := by
  have here : notices (.noticed notice :: rest) = notice :: notices rest := rfl
  rw [losses, here, List.filterMap_cons]
  cases notice.lost? <;> rfl

theorem questions_append (first second : Trace) :
    questions (first ++ second) = questions first ++ questions second :=
  List.filterMap_append

theorem losses_append (first second : Trace) : losses (first ++ second) = losses first ++ losses second := by
  simp only [losses, notices, List.filterMap_append]

theorem exchanges_append (asked : List Selector) (first second : Trace) :
    exchanges answers asked (first ++ second) =
      exchanges answers asked first ++ exchanges answers (asked ++ questions first) second := by
  induction first generalizing asked with
  | nil => simp [exchanges, questions]
  | cons event rest ih =>
    cases event with
    | asked selector =>
      have here : questions (.asked selector :: rest) = selector :: questions rest := rfl
      rw [List.cons_append, exchanges, exchanges, ih, here, List.append_assoc]
      rfl
    | noticed notice => exact ih asked

end Trace

/-! ### What an inquiry tells -/

namespace Inquiry
variable {α β : Type} {answers : Answers} {told : List Exchange → List Declaration → α → Prop}

/-- Carries an inquiry out where such answers are given. -/
def runOver (answers : Answers) : Inquiry α → Trace → α × Trace
  | .finished result, trace => (result, trace)
  | .asking selector next, trace =>
    (next (answers trace.questions selector)).runOver answers (trace ++ [.asked selector])
  | .noticing notice next, trace => next.runOver answers (trace ++ [.noticed notice])

theorem run_eq_runOver (store : Store) (inquiry : Inquiry α) (trace : Trace) :
    inquiry.run store trace = inquiry.runOver store.answer trace := by
  induction inquiry generalizing trace with
  | finished result => rfl
  | asking selector next ih => exact ih _ _
  | noticing notice next ih => exact ih _

theorem runOver_bind (inquiry : Inquiry α) (next : α → Inquiry β) (trace : Trace) :
    (inquiry >>= next).runOver answers trace =
      (next (inquiry.runOver answers trace).1).runOver answers (inquiry.runOver answers trace).2 := by
  induction inquiry generalizing trace with
  | finished result => rfl
  | asking selector rest ih => exact ih _ _
  | noticing notice rest ih => exact ih _

/-- Whatever was traced before, what is asked and given up in the course of an inquiry fits what it ends in. -/
def Tells (answers : Answers) (told : List Exchange → List Declaration → α → Prop) (inquiry : Inquiry α) : Prop :=
  ∀ trace, ∃ own : Trace, (inquiry.runOver answers trace).2 = trace ++ own ∧
    told (own.exchanges answers trace.questions) own.losses (inquiry.runOver answers trace).1

theorem Tells.imp {inquiry : Inquiry α} {weaker : List Exchange → List Declaration → α → Prop}
    (tells : inquiry.Tells answers told)
    (implies : ∀ exchanges losses result, told exchanges losses result → weaker exchanges losses result) :
    inquiry.Tells answers weaker := by
  intro trace
  obtain ⟨own, traced, holds⟩ := tells trace
  exact ⟨own, traced, implies _ _ _ holds⟩

theorem tells_pure {result : α} (holds : told [] [] result) : (pure result : Inquiry α).Tells answers told :=
  fun trace => ⟨[], (List.append_nil trace).symm, holds⟩

theorem tells_bind {inquiry : Inquiry β} {next : β → Inquiry α}
    (tells : inquiry.Tells answers fun exchanges losses result =>
      (next result).Tells answers fun more lost last => told (exchanges ++ more) (losses ++ lost) last) :
    (inquiry >>= next).Tells answers told := by
  intro trace
  obtain ⟨first, traced, holds⟩ := tells trace
  obtain ⟨second, tracedNext, fits⟩ := holds (inquiry.runOver answers trace).2
  have before : (inquiry.runOver answers trace).2.questions = trace.questions ++ first.questions := by
    rw [traced, Trace.questions_append]
  refine ⟨first ++ second, ?_, ?_⟩
  · rw [runOver_bind, tracedNext, traced, List.append_assoc]
  · rw [runOver_bind, Trace.exchanges_append, Trace.losses_append]
    rwa [before] at fits

theorem Tells.map {inquiry : Inquiry β} {f : β → α}
    (tells : inquiry.Tells answers fun exchanges losses result => told exchanges losses (f result)) :
    (do return f (← inquiry) : Inquiry α).Tells answers told := by
  refine tells_bind (tells.imp fun exchanges losses result holds => tells_pure ?_)
  rwa [List.append_nil, List.append_nil]

theorem tells_notice {notice : Notice} {told : List Exchange → List Declaration → Unit → Prop}
    (holds : told [] notice.lost?.toList ()) : (Inquiry.notice notice).Tells answers told :=
  fun trace => ⟨[.noticed notice], rfl, by simpa [Inquiry.notice, runOver] using holds⟩

/-- One question, whether it is answered or fails. -/
theorem tells_ask {selector : Selector} {told : List Exchange → List Declaration → List Node → Prop}
    (holds : ∀ nodes, told [⟨selector, nodes⟩] [] nodes) : (ask selector).Tells answers told := by
  intro trace
  cases answered : answers trace.questions selector with
  | some nodes =>
    refine ⟨[.asked selector], by simp [ask, runOver, answered], ?_⟩
    simpa [ask, runOver, answered] using holds nodes
  | none =>
    refine ⟨[.asked selector, .noticed (.queryFailed selector)], by simp [ask, runOver, answered], ?_⟩
    simpa [ask, runOver, answered, Notice.lost?] using holds []

/-! ### Silence -/

/-- Nothing is asked and nothing is given up. -/
def IsSilent : Inquiry α → Prop
  | .finished _ => True
  | .asking _ _ => False
  | .noticing notice next => notice.lost? = none ∧ next.IsSilent

theorem IsSilent.bind {inquiry : Inquiry β} {next : β → Inquiry α} (silent : inquiry.IsSilent)
    (later : ∀ result, (next result).IsSilent) : (inquiry >>= next).IsSilent := by
  induction inquiry with
  | finished result => exact later result
  | asking selector rest ih => exact silent.elim
  | noticing notice rest ih => exact ⟨silent.1, ih silent.2⟩

/-- No answer has a part in what a silent inquiry ends in. -/
theorem IsSilent.tells {inquiry : Inquiry α} {store : Store} {wanted : α → Prop} (silent : inquiry.IsSilent)
    (ends : inquiry.Ends store wanted) (answers : Answers) :
    inquiry.Tells answers fun exchanges losses result => exchanges = [] ∧ losses = [] ∧ wanted result := by
  induction inquiry with
  | finished result => exact tells_pure ⟨rfl, rfl, ends⟩
  | asking selector next ih => exact silent.elim
  | noticing notice next ih =>
    change Tells answers _ (Inquiry.notice notice >>= fun _ => next)
    refine tells_bind (tells_notice ?_)
    rw [silent.1]
    exact ih silent.2 ends

end Inquiry

/-! ### Asking again -/

/-- What an answer leaves open is asked for again, each by itself, and given up where that brings nothing either. -/
inductive Repeats (answer : List Node) : List Declaration → List Exchange → List Declaration → Prop where
  | nil : Repeats answer [] [] []
  | found {declaration : Declaration} {declarations : List Declaration} {exchanges : List Exchange}
      {losses : List Declaration} (there : declaration.IsAmong answer)
      (rest : Repeats answer declarations exchanges losses) : Repeats answer (declaration :: declarations) exchanges losses
  | again {declaration : Declaration} {declarations : List Declaration} {exchanges : List Exchange}
      {losses : List Declaration} {nodes : List Node} (missing : ¬ declaration.IsAmong answer)
      (there : declaration.IsAmong nodes) (rest : Repeats answer declarations exchanges losses) :
      Repeats answer (declaration :: declarations) (⟨declaration.alone, nodes⟩ :: exchanges) losses
  | lost {declaration : Declaration} {declarations : List Declaration} {exchanges : List Exchange}
      {losses : List Declaration} {nodes : List Node} (missing : ¬ declaration.IsAmong answer)
      (nowhere : ¬ declaration.IsAmong nodes) (rest : Repeats answer declarations exchanges losses) :
      Repeats answer (declaration :: declarations) (⟨declaration.alone, nodes⟩ :: exchanges) (declaration :: losses)

/-- One question for a whole batch, and after it those for what its answer leaves open. -/
inductive AsksFor (batch : List Declaration) : List Exchange → List Declaration → Prop where
  | whole {selector : Selector} {answer : List Node} {exchanges : List Exchange} {losses : List Declaration}
      (names : selector.declarations = batch) (repeats : Repeats answer batch exchanges losses) :
      AsksFor batch (⟨selector, answer⟩ :: exchanges) losses

/-- One batch after another. -/
inductive AsksForAll : List (List Declaration) → List Exchange → List Declaration → Prop where
  | nil : AsksForAll [] [] []
  | cons {batch : List Declaration} {batches : List (List Declaration)} {exchanges more : List Exchange}
      {losses others : List Declaration} (first : AsksFor batch exchanges losses) (rest : AsksForAll batches more others) :
      AsksForAll (batch :: batches) (exchanges ++ more) (losses ++ others)

theorem Inquiry.tells_inTurn {α : Type} {answers : Answers} {inquiries : List (Inquiry α)} {batches : List (List Declaration)}
    (each : List.Forall₂ (fun inquiry batch => inquiry.Tells answers fun exchanges losses _ => AsksFor batch exchanges losses)
      inquiries batches) :
    (inTurn inquiries).Tells answers fun exchanges losses _ => AsksForAll batches exchanges losses := by
  induction each with
  | nil => exact tells_pure .nil
  | cons first _ ih =>
    refine tells_bind (first.imp fun exchanges losses result asks => ?_)
    exact (ih.imp fun more others results all => .cons asks all).map

namespace Resolver

/-! ### Searches -/

namespace Search
variable {κ : Type} {search : Search κ} {declaration : κ → Declaration} {answers : Answers}

/-- The keys of a search declare what it looks for. -/
structure Declares (search : Search κ) (declaration : κ → Declaration) : Prop where
  names : ∀ keys, (search.selector keys).declarations = keys.map declaration
  alone : ∀ key, search.selector [key] = (declaration key).alone
  finds : ∀ nodes key, (search.find? nodes key).isSome = true ↔ (declaration key).IsAmong nodes
  loses : ∀ key, (search.notFound key).lost? = some (declaration key)

theorem declares_byCoordinate : byCoordinate.Declares Declaration.coordinate where
  names _ := rfl
  alone _ := rfl
  finds nodes coordinate := by
    rw [← Option.ne_none_iff_isSome, Ne, byCoordinate, nodeAt?_newestByCoordinate_eq_none]
    simp [Declaration.IsAmong, Declaration.Names]
  loses _ := rfl

theorem declares_byId : byId.Declares Declaration.id where
  names _ := rfl
  alone _ := rfl
  finds nodes id := by
    simp [byId, nodeWithId?, Declaration.IsAmong, Declaration.Names, List.find?_isSome]
  loses _ := rfl

theorem tells_retry (declares : search.Declares declaration) (answer : List Node) (keys : List κ) :
    (search.retry (search.find? answer) keys).Tells answers fun exchanges losses _ =>
      Repeats answer (keys.map declaration) exchanges losses := by
  induction keys with
  | nil => exact Inquiry.tells_pure .nil
  | cons key rest ih =>
    rw [retry, List.map_cons]
    cases held : search.find? answer key with
    | some node =>
      have there := (declares.finds answer key).mp (Option.isSome_of_eq_some held)
      exact (ih.imp fun exchanges losses results repeats => .found there repeats).map
    | none =>
      have missing : ¬ (declaration key).IsAmong answer := by
        rw [← declares.finds, held]
        exact Bool.false_ne_true
      refine Inquiry.tells_bind (Inquiry.tells_ask fun nodes => ?_)
      rw [declares.alone]
      cases second : search.find? nodes key with
      | some node =>
        have there := (declares.finds nodes key).mp (Option.isSome_of_eq_some second)
        exact (ih.imp fun exchanges losses results repeats => .again missing there repeats).map
      | none =>
        have nowhere : ¬ (declaration key).IsAmong nodes := by
          rw [← declares.finds, second]
          exact Bool.false_ne_true
        refine Inquiry.tells_bind (Inquiry.tells_notice ?_)
        rw [declares.loses]
        exact ih.imp fun exchanges losses results repeats => .lost missing nowhere repeats

theorem tells_fetch (declares : search.Declares declaration) (keys : List κ) :
    (search.fetch keys).Tells answers fun exchanges losses _ => AsksFor (keys.map declaration) exchanges losses := by
  refine Inquiry.tells_bind (Inquiry.tells_ask fun answer => ?_)
  exact (tells_retry declares answer keys).imp fun exchanges losses results repeats => .whole (declares.names keys) repeats

end Search

end Resolver
end Graph
end Bindery

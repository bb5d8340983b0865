import Bindery.Graph.Resolve
import Mathlib.Data.List.Forall2

/-! Assertions about inquiries. An inquiry ends in a wanted result when no history of questions can make the
store's answers lead it elsewhere. Histories are left open at every question, so an assertion survives
whatever other inquiries ask in between: this is what lets several of them take turns. -/

namespace Bindery.Graph

namespace Inquiry
variable {α β : Type} {store : Store} {wanted : α → Prop}

def Ends (store : Store) (wanted : α → Prop) : Inquiry α → Prop
  | .finished result => wanted result
  | .asking selector next => ∀ asked, (next (store.answer asked selector)).Ends store wanted
  | .noticing _ next => next.Ends store wanted

theorem Ends.run {inquiry : Inquiry α} (ends : inquiry.Ends store wanted) (trace : Trace) :
    wanted (inquiry.run store trace).1 := by
  induction inquiry generalizing trace with
  | finished result => exact ends
  | asking selector next ih => exact ih _ (ends trace.questions) _
  | noticing notice next ih => exact ih ends _

theorem Ends.imp {inquiry : Inquiry α} {weaker : α → Prop} (ends : inquiry.Ends store wanted)
    (implies : ∀ result, wanted result → weaker result) : inquiry.Ends store weaker := by
  induction inquiry with
  | finished result => exact implies result ends
  | asking selector next ih => exact fun asked => ih _ (ends asked)
  | noticing notice next ih => exact ih ends

theorem Ends.and {inquiry : Inquiry α} {other : α → Prop} (first : inquiry.Ends store wanted)
    (second : inquiry.Ends store other) : inquiry.Ends store fun result => wanted result ∧ other result := by
  induction inquiry with
  | finished result => exact ⟨first, second⟩
  | asking selector next ih => exact fun asked => ih _ (first asked) (second asked)
  | noticing notice next ih => exact ih first second

@[simp] theorem ends_pure {result : α} : (pure result : Inquiry α).Ends store wanted ↔ wanted result := Iff.rfl

@[simp] theorem ends_bind {inquiry : Inquiry β} {next : β → Inquiry α} :
    (inquiry >>= next).Ends store wanted ↔ inquiry.Ends store fun result => (next result).Ends store wanted := by
  induction inquiry with
  | finished result => rfl
  | asking selector rest ih => exact forall_congr' fun asked => ih _
  | noticing notice rest ih => exact ih

@[simp] theorem ends_map {inquiry : Inquiry β} {f : β → α} :
    (f <$> inquiry).Ends store wanted ↔ inquiry.Ends store fun result => wanted (f result) :=
  ends_bind

@[simp] theorem ends_notice {notice : Notice} {wanted : Unit → Prop} :
    (Inquiry.notice notice).Ends store wanted ↔ wanted () := Iff.rfl

@[simp] theorem ends_ask {selector : Selector} {wanted : List Node → Prop} :
    (ask selector).Ends store wanted ↔ ∀ asked, wanted ((store.answer asked selector).getD []) := by
  apply forall_congr'
  intro asked
  cases store.answer asked selector <;> rfl

/-! ### Several inquiries -/

/-- Each inquiry ends in a result that is wanted of it. -/
abbrev Each (store : Store) (inquiries : List (Inquiry α)) (wanted : List (α → Prop)) : Prop :=
  List.Forall₂ (fun inquiry wanted => inquiry.Ends store wanted) inquiries wanted

abbrev Satisfy (results : List α) (wanted : List (α → Prop)) : Prop :=
  List.Forall₂ (fun result wanted => wanted result) results wanted

theorem ends_inTurn {inquiries : List (Inquiry α)} {wanted : List (α → Prop)}
    (each : Each store inquiries wanted) : (inTurn inquiries).Ends store (Satisfy · wanted) := by
  induction each with
  | nil => exact .nil
  | cons first _ ih =>
    refine ends_bind.mpr (first.imp fun result holds => ?_)
    exact ends_bind.mpr (ih.imp fun results rest => .cons holds rest)

theorem Ends.step {inquiry : Inquiry α} (ends : inquiry.Ends store wanted) :
    inquiry.step.Ends store (·.Ends store wanted) := by
  cases inquiry with
  | finished result => exact ends
  | asking selector next => exact ends
  | noticing notice next => exact ends

theorem ends_stepAt {inquiries : List (Inquiry α)} {wanted : List (α → Prop)} (position : Nat)
    (each : Each store inquiries wanted) : (stepAt position inquiries).Ends store (Each store · wanted) := by
  induction each generalizing position with
  | nil => cases position <;> exact .nil
  | cons first rest ih =>
    cases position with
    | zero => exact ends_bind.mpr (first.step.imp fun remaining holds => .cons holds rest)
    | succ position => exact ends_bind.mpr ((ih position).imp fun remaining holds => .cons first holds)

/-- The turns taken have no part in what inquiries end in. -/
theorem ends_together {workers : Nat} {turns : List Nat} {inquiries : List (Inquiry α)}
    {wanted : List (α → Prop)} (each : Each store inquiries wanted) :
    (together workers turns inquiries).Ends store (Satisfy · wanted) := by
  induction turns generalizing inquiries with
  | nil => exact ends_inTurn each
  | cons turn turns ih =>
    rw [together]
    split
    · exact ends_bind.mpr ((ends_stepAt turn each).imp fun remaining holds => ih holds)
    · exact ih each

end Inquiry

theorem Workers.ends_carryOut {α : Type} {store : Store} {workers : Workers} {visited : List Text}
    {inquiries : List (Inquiry α)} {wanted : List (α → Prop)} (each : Inquiry.Each store inquiries wanted) :
    (workers.carryOut visited inquiries).Ends store (Inquiry.Satisfy · wanted) := by
  unfold carryOut
  split
  · exact Inquiry.ends_together each
  · exact Inquiry.ends_inTurn each

/-! ### Inquiries that may break off -/

namespace Resolving
variable {α β : Type} {store : Store} {wanted : α → Prop} {excuse : Prop}

/-- The result is wanted, or there is an excuse to break off. -/
def Ends (store : Store) (wanted : α → Prop) (excuse : Prop) (resolving : Resolving α) : Prop :=
  resolving.run.Ends store fun
    | .ok result => wanted result
    | .error _ => excuse

theorem Ends.of_ok {resolving : Resolving α} {trace : Trace} {result : α}
    (ends : Ends store wanted excuse resolving)
    (ended : (Inquiry.run store resolving.run trace).1 = .ok result) : wanted result := by
  have holds := Inquiry.Ends.run ends trace
  rwa [ended] at holds

theorem Ends.of_error {resolving : Resolving α} {trace : Trace} {error : NumberError}
    (ends : Ends store wanted excuse resolving)
    (ended : (Inquiry.run store resolving.run trace).1 = .error error) : excuse := by
  have holds := Inquiry.Ends.run ends trace
  rwa [ended] at holds

theorem Ends.imp {resolving : Resolving α} {weaker : α → Prop} {other : Prop}
    (ends : Ends store wanted excuse resolving) (implies : ∀ result, wanted result → weaker result)
    (excused : excuse → other) : Ends store weaker other resolving := by
  apply Inquiry.Ends.imp ends
  intro result holds
  cases result with
  | ok result => exact implies result holds
  | error error => exact excused holds

theorem Ends.and {resolving : Resolving α} {more : α → Prop} {other : Prop}
    (first : Ends store wanted excuse resolving) (second : Ends store more other resolving) :
    Ends store (fun result => wanted result ∧ more result) excuse resolving := by
  apply (Inquiry.Ends.and first second).imp
  intro result holds
  cases result with
  | ok result => exact holds
  | error error => exact holds.1

@[simp] theorem ends_pure {result : α} : Ends store wanted excuse (pure result) ↔ wanted result := Iff.rfl

@[simp] theorem ends_bind {resolving : Resolving β} {next : β → Resolving α} :
    Ends store wanted excuse (resolving >>= next) ↔
      Ends store (fun result => Ends store wanted excuse (next result)) excuse resolving := by
  unfold Ends
  rw [ExceptT.run_bind, Inquiry.ends_bind]
  refine iff_of_eq (congrArg (Inquiry.Ends store · _) (funext fun result => ?_))
  cases result <;> rfl

@[simp] theorem ends_lift {inquiry : Inquiry α} :
    Ends store wanted excuse (ExceptT.lift inquiry) ↔ inquiry.Ends store wanted :=
  Inquiry.ends_map

@[simp] theorem ends_notice {notice : Notice} {wanted : Unit → Prop} :
    Ends store wanted excuse (Resolving.notice notice) ↔ wanted () := Iff.rfl

end Resolving
end Bindery.Graph

import Bindery.Command.Session

/-! Runs that fail. All they leave is a message, and the ending tells that they failed. -/

namespace Bindery
namespace Session
variable {m : Type → Type} [Monad m] [LawfulMonad m]

theorem run_tell (text : Text) (report : Report) :
    (Session.tell text : Session m Unit).run.run report =
      pure (.ok (), { report with errors := report.errors ++ line text }) := by
  show (pure ((), _) >>= fun told : Unit × Report => pure (Except.ok told.1, told.2)) = _
  rw [pure_bind]

/-- A session that reports errors and ends. It does nothing to what it works on, not even read it. -/
def OnlyFails {α : Type} (session : Session m α) (errors : Text) : Prop :=
  ∀ report, session.run.run report = pure (.error .failed, { report with errors := report.errors ++ errors })

theorem onlyFails_fail {α : Type} (message : Text) : OnlyFails (fail message none : Session m α) (line ("Error: " ++ message)) := by
  intro report
  rw [fail, ExceptT.run_bind, StateT.run_bind, run_tell, pure_bind]
  rfl

theorem onlyFails_fail_from {α : Type} (message cause : Text) :
    OnlyFails (fail message (some cause) : Session m α) (line ("Error: " ++ message) ++ line ("  " ++ cause)) := by
  intro report
  rw [fail, ExceptT.run_bind, StateT.run_bind, run_tell, pure_bind]
  simp only
  rw [ExceptT.run_bind, StateT.run_bind, run_tell, pure_bind, ← List.append_assoc]
  rfl

theorem onlyFails_abandon {α : Type} (message : Text) :
    OnlyFails (abandon message : Session m α) (line ("Stopped: " ++ message)) := by
  intro report
  rw [abandon, ExceptT.run_bind, StateT.run_bind, run_tell, pure_bind]
  rfl

end Session
end Bindery

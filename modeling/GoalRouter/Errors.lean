import GoalRouter.Library.Text

namespace GoalRouter
open Library
set_option autoImplicit true

/-- The exception classes the modelled code raises or catches. -/
inductive ErrorKind where
  | configurationError
  | unknownTaskError
  | modelUnavailableError
  | repositoryError
  | plannerOutputError
  | structuralPlannerOutputError
  | approvalRequiredError
  | sdkError
  | authenticationError
  | turnTimeoutError
  | stateError
  | resumeConfigurationChangedError
  | projectBusyError
  | runBusyError
  | keyError
  | valueError
  | overflowError
  | cancelledError
  | other (name : Text)
  deriving DecidableEq

/-- `type(error).__name__`. -/
def ErrorKind.name : ErrorKind → Text
  | .configurationError => text "ConfigurationError"
  | .unknownTaskError => text "UnknownTaskError"
  | .modelUnavailableError => text "ModelUnavailableError"
  | .repositoryError => text "RepositoryError"
  | .plannerOutputError => text "PlannerOutputError"
  | .structuralPlannerOutputError => text "_StructuralPlannerOutputError"
  | .approvalRequiredError => text "ApprovalRequiredError"
  | .sdkError => text "SdkError"
  | .authenticationError => text "AuthenticationError"
  | .turnTimeoutError => text "TurnTimeoutError"
  | .stateError => text "StateError"
  | .resumeConfigurationChangedError => text "ResumeConfigurationChangedError"
  | .projectBusyError => text "ProjectBusyError"
  | .runBusyError => text "RunBusyError"
  | .keyError => text "KeyError"
  | .valueError => text "ValueError"
  | .overflowError => text "OverflowError"
  | .cancelledError => text "CancelledError"
  | .other name => name

/-- The subclasses of `Exception`; the other classes derive from `BaseException` alone. -/
def ErrorKind.isException : ErrorKind → Bool
  | .cancelledError => false
  | .other name => !([text "BaseException", text "BaseExceptionGroup", text "GeneratorExit",
      text "KeyboardInterrupt", text "SystemExit"].contains name)
  | _ => true

structure PyError where
  kind : ErrorKind
  message : Text
  deriving DecidableEq

/-- `f"{type(error).__name__}: {error}"`. -/
def PyError.describe (e : PyError) : Text := e.kind.name ++ text ": " ++ e.message

/-- What `execute` has an `except` for. -/
def PyError.endsExecute (e : PyError) : Bool := e.kind = .cancelledError || e.kind.isException

def PyError.cancelled : PyError := ⟨.cancelledError, []⟩

def stateError (message : Text) : PyError := ⟨.stateError, message⟩

def recursionError : PyError := ⟨.other (text "RecursionError"), []⟩

/-- `str(n)`, within the limit on digits. -/
def decimal (n : Int) : Text := text (toString n)

end GoalRouter

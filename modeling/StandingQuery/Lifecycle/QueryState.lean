/-!
# The state of a running query

A running query is in one of seven states and may have failed with one of three kinds of errors.
A cell keeps the last state and the last kind of error that were reported; before any report
it holds neither. States and kinds have names and numbers of 8 bits.
-/

namespace StandingQuery

/-- The state of a running query. -/
inductive QueryState
  | created
  | rebalancing
  | running
  | pendingShutdown
  | notRunning
  | pendingError
  | error
  deriving DecidableEq, Repr

namespace QueryState

def all : List QueryState :=
  [created, rebalancing, running, pendingShutdown, notRunning, pendingError, error]

def name : QueryState → String
  | created => "CREATED"
  | rebalancing => "REBALANCING"
  | running => "RUNNING"
  | pendingShutdown => "PENDING_SHUTDOWN"
  | notRunning => "NOT_RUNNING"
  | pendingError => "PENDING_ERROR"
  | error => "ERROR"

def code : QueryState → Nat
  | created => 1
  | rebalancing => 2
  | running => 3
  | pendingShutdown => 4
  | notRunning => 5
  | pendingError => 6
  | error => 7

def ofName? (text : String) : Option QueryState := all.find? fun s => s.name == text

def ofCode? (n : Nat) : Option QueryState := all.find? fun s => s.code == n

end QueryState

/-- Who is to blame for an error. -/
inductive ErrorType
  | unknown
  | user
  | system
  deriving DecidableEq, Repr

namespace ErrorType

def all : List ErrorType := [unknown, user, system]

def name : ErrorType → String
  | unknown => "UNKNOWN"
  | user => "USER"
  | system => "SYSTEM"

def code : ErrorType → Nat
  | unknown => 1
  | user => 2
  | system => 3

def ofName? (text : String) : Option ErrorType := all.find? fun t => t.name == text

def ofCode? (n : Nat) : Option ErrorType := all.find? fun t => t.code == n

end ErrorType

/-- An error of a running query. -/
structure QueryError where
  message : String
  type : ErrorType
  deriving DecidableEq, Repr

def QueryError.toText (e : QueryError) : String := e.type.name ++ " error: " ++ e.message

/-- The last state and the last kind of error that were reported. -/
structure StateCell where
  state : Option QueryState := none
  error : Option ErrorType := none
  deriving DecidableEq, Repr

namespace StateCell

/-- The name of the state, or a dash before any report. -/
def stateName (c : StateCell) : String := (c.state.map QueryState.name).getD "-"

/-- The name of the kind of error. -/
def errorName (c : StateCell) : String := (c.error.map ErrorType.name).getD "NO_ERROR"

/-- The cell after a state was reported. -/
def withState (c : StateCell) (s : QueryState) : StateCell := { c with state := some s }

/-- The cell after an error was reported. -/
def withError (c : StateCell) (t : ErrorType) : StateCell := { c with error := some t }

end StateCell

end StandingQuery

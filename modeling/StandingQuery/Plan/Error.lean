import StandingQuery.Json.Scanner
import StandingQuery.Plan.Document
import StandingQuery.Plan.Record

/-!
# What can be wrong with a plan

The text may be no JSON, its values may not be the records of a plan, a tag may be unknown,
and the parts of the plan may not fit each other.
-/

namespace StandingQuery

/-- Why a plan cannot be read. -/
inductive PlanError
  /-- The text is no JSON. -/
  | scan (e : Json.ScanError)
  /-- A value is not the record it should be. -/
  | shape (e : PlanReader.ReadError)
  | unknownTag (tag path : String)
  | unsupportedVersion (kind tag path : String)
  | invalidTag (tag : String)
  | missingTag (place : String)
  /-- The parts of the plan do not fit. -/
  | invalid (fault : PlanFault)
  /-- The text of a version is none. -/
  | invalidVersion (text : String)
  /-- A configured value cannot be used. -/
  | invalidConfig (e : ConfigValueError)
  | schema (e : SchemaError)
  deriving DecidableEq, Repr

namespace PlanError

def message : PlanError → String
  | scan e => "malformed plan document: " ++ e.message
  | shape e => "malformed plan document: " ++ e.message
  | unknownTag tag path => s!"unknown plan tag '{tag}' at {path}"
  | unsupportedVersion kind tag path =>
    s!"unsupported version of '{kind}' (tag '{tag}') at {path}"
  | invalidTag tag => s!"invalid plan tag '{tag}'"
  | missingTag place => s!"missing @type at {place}"
  | invalid fault => "invalid plan: " ++ fault.message
  | invalidVersion text => s!"invalid plan: invalid engine version '{text}'"
  | invalidConfig e => "invalid plan: " ++ e.message
  | schema e => "schema error: " ++ e.message

/-- Whether another engine version may be able to read the plan. -/
def isVersionError : PlanError → Bool
  | unknownTag _ _ | unsupportedVersion _ _ _ => true
  | _ => false

end PlanError

end StandingQuery

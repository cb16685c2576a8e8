import StandingQuery.OrderedMap
import StandingQuery.Text.Numeral

/-!
# Configuration snapshots

A snapshot is the configuration that was in force when a plan was written. It binds keys to
texts or to null, and a null counts as absent wherever a value is wanted. The names of a
query's runtime derive from it.
-/

namespace StandingQuery

/-! ## Keys and defaults -/

namespace ConfigKey

/-- The service that owns the topics. -/
def serviceId : String := "ksql.service.id"

/-- What stands before the id of a persistent query. -/
def persistentPrefix : String := "ksql.persistent.prefix"

/-- How many replicas a sink topic has. -/
def sinkReplicas : String := "ksql.sink.replicas"

/-- How many replicas an internal topic has. -/
def internalReplicas : String := "ksql.internal.topic.replicas"

/-- The brokers to connect to. -/
def bootstrapServers : String := "bootstrap.servers"

end ConfigKey

/-- The service id where none is configured. -/
def defaultServiceId : String := "default_"

/-- The query prefix where none is configured. -/
def defaultPersistentPrefix : String := "query_"

/-- The beginning of all names the engine gives. -/
def internalNamespace : String := "_confluent-ksql-"

/-! ## Values -/

/-- Why the text of a value cannot be used. -/
inductive ConfigFault
  | numeral (fault : Text.NumeralFault)
  | notBool
  deriving DecidableEq, Repr

def ConfigFault.message : ConfigFault → String
  | numeral fault => fault.message
  | notBool => "provided string was not `true` or `false`"

/-- A value that cannot be used, and the key it is bound to. -/
structure ConfigValueError where
  key : String
  fault : ConfigFault
  deriving DecidableEq, Repr

def ConfigValueError.message (e : ConfigValueError) : String :=
  s!"invalid config value for '{e.key}': " ++ e.fault.message

namespace ConfigValue

/-- A number of 16 bits. -/
def readCount (text : String) : Except ConfigFault Nat :=
  (Text.Numeral.unsigned Text.max16 text.toList).mapError .numeral

/-- A signed number of 64 bits. -/
def readInteger (text : String) : Except ConfigFault Int :=
  (Text.Numeral.signed Text.max63 text.toList).mapError .numeral

/-- A truth value. -/
def readBool (text : String) : Except ConfigFault Bool :=
  if text = "true" then .ok true
  else if text = "false" then .ok false
  else .error .notBool

end ConfigValue

/-! ## Snapshots -/

/-- The configuration in force when a plan was written. -/
structure ConfigSnapshot where
  entries : OrderedMap (Option String)
  deriving DecidableEq

namespace ConfigSnapshot

def empty : ConfigSnapshot := ⟨.empty⟩

/-- The snapshot of a list of bindings, of which later ones replace earlier ones. -/
def ofList (es : List (String × Option String)) : ConfigSnapshot := ⟨.ofList es⟩

/-- Whether a key is bound, be it to null. -/
def contains (s : ConfigSnapshot) (key : String) : Bool := s.entries.contains key

def value? (s : ConfigSnapshot) (key : String) : Option String := (s.entries.find? key).join

/-- The value of a key, read by `read`. -/
def parsed? {α : Type} (s : ConfigSnapshot) (read : String → Except ConfigFault α)
    (key : String) : Except ConfigValueError (Option α) :=
  match s.value? key with
  | none => .ok none
  | some text =>
    match read text with
    | .ok x => .ok (some x)
    | .error fault => .error ⟨key, fault⟩

/-- The service that owns the query. -/
def serviceId (s : ConfigSnapshot) : String :=
  (s.value? ConfigKey.serviceId).getD defaultServiceId

/-- What stands before the query's id. -/
def persistentPrefix (s : ConfigSnapshot) : String :=
  (s.value? ConfigKey.persistentPrefix).getD defaultPersistentPrefix

/-- The name of a query's runtime. -/
def applicationId (s : ConfigSnapshot) (queryId : String) : String :=
  internalNamespace ++ s.serviceId ++ s.persistentPrefix ++ queryId

end ConfigSnapshot

end StandingQuery

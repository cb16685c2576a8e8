import StandingQuery.Config.Snapshot

/-!
# The configuration of a running engine

An engine is configured by properties, which bind keys to texts. The snapshot that goes into
a plan is taken from them.

* `EngineConfig.value?_snapshot`: the snapshot has the values of the properties.
-/

namespace StandingQuery

/-- A property that has to be set. -/
structure MissingConfig where
  key : String
  deriving DecidableEq, Repr

def MissingConfig.message (e : MissingConfig) : String := s!"missing required config: {e.key}"

/-- The properties of an engine. -/
structure EngineConfig where
  properties : OrderedMap String := .empty
  deriving DecidableEq

namespace EngineConfig

/-- The configuration with some properties, of which later ones replace earlier ones. -/
def ofList (properties : List (String × String)) : EngineConfig := ⟨.ofList properties⟩

def set (c : EngineConfig) (key value : String) : EngineConfig := ⟨c.properties.insert key value⟩

def value? (c : EngineConfig) (key : String) : Option String := c.properties.find? key

/-- The value of a property that has to be set. -/
def require (c : EngineConfig) (key : String) : Except MissingConfig String :=
  match c.value? key with
  | some value => .ok value
  | none => .error ⟨key⟩

/-- The service that owns the engine's topics. -/
def serviceId (c : EngineConfig) : String :=
  (c.value? ConfigKey.serviceId).getD defaultServiceId

/-- What stands before the ids of persistent queries. -/
def persistentPrefix (c : EngineConfig) : String :=
  (c.value? ConfigKey.persistentPrefix).getD defaultPersistentPrefix

/-- The brokers to connect to. -/
def bootstrapServers (c : EngineConfig) : Except MissingConfig String :=
  c.require ConfigKey.bootstrapServers

/-- The topic from which an engine takes its commands. -/
def commandTopic (c : EngineConfig) : String :=
  internalNamespace ++ c.serviceId ++ "_command_topic"

def snapshot (c : EngineConfig) : ConfigSnapshot := ⟨c.properties.mapValues some⟩

theorem value?_snapshot (c : EngineConfig) (key : String) :
    c.snapshot.value? key = c.value? key := by
  simp only [snapshot, ConfigSnapshot.value?, value?, OrderedMap.find?, OrderedMap.mapValues]
  induction c.properties.entries with
  | nil => rfl
  | cons e es ih =>
    obtain ⟨k, v⟩ := e
    by_cases h : (key == k) = true
    · simp [List.lookup_cons, h]
    · simp only [Bool.not_eq_true] at h
      simpa [List.lookup_cons, h] using ih

end EngineConfig

end StandingQuery

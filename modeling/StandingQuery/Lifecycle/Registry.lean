import StandingQuery.OrderedMap

/-!
# A registry of metrics

A registry binds metric names to gauges; two names are the same only if they agree in all four
parts. A gauge holds a text, or reads the state or the error of a listener. The registry keeps
the calls made to it.

* `Registry.remove_add`: a metric that was added and is removed again leaves the gauges as they
  were.
-/

namespace StandingQuery

/-- The name of a metric. -/
structure MetricName where
  name : String
  group : String
  description : String
  tags : OrderedMap String
  deriving DecidableEq

/-- The text of a metric name: group, name and tags, without the description. -/
def MetricName.toText (m : MetricName) : String :=
  m.group ++ ":" ++ m.name ++ String.join (m.tags.entries.map fun (k, v) => "," ++ k ++ "=" ++ v)

/-- What a metric reads. -/
inductive Gauge
  | constant (text : String)
  /-- The state of the listener with an index. -/
  | stateOf (listener : Nat)
  /-- The error of the listener with an index. -/
  | errorOf (listener : Nat)
  deriving DecidableEq, Repr

/-- Why a metric or a listener cannot be registered. -/
inductive ObserveError
  | missingArgument (name : String)
  | duplicateMetric (metric : String)
  deriving DecidableEq, Repr

def ObserveError.message : ObserveError → String
  | missingArgument name => s!"missing required argument: {name}"
  | duplicateMetric metric => s!"metric already registered: {metric}"

/-- A call to a registry, and whether it did what it asked for. -/
inductive RegistryCall
  | add (metric : MetricName) (ok : Bool)
  | remove (metric : MetricName) (found : Bool)
  deriving DecidableEq

/-- The metrics that are registered. -/
structure Registry where
  gauges : List (MetricName × Gauge) := []
  /-- The calls so far, in order. -/
  log : List RegistryCall := []
  deriving DecidableEq

namespace Registry

def find? (r : Registry) (m : MetricName) : Option Gauge := r.gauges.lookup m

def contains (r : Registry) (m : MetricName) : Bool := (r.find? m).isSome

def size (r : Registry) : Nat := r.gauges.length

/-- Registers a metric, unless it is registered already. -/
def add (r : Registry) (m : MetricName) (g : Gauge) : Except ObserveError Unit × Registry :=
  if r.contains m then
    (.error (.duplicateMetric m.toText), { r with log := r.log ++ [.add m false] })
  else (.ok (), { gauges := r.gauges ++ [(m, g)], log := r.log ++ [.add m true] })

/-- Takes a metric out, and gives back its gauge. -/
def remove (r : Registry) (m : MetricName) : Option Gauge × Registry :=
  (r.find? m, {
    gauges := r.gauges.filter fun e => e.1 != m
    log := r.log ++ [.remove m (r.contains m)] })

def clearLog (r : Registry) : Registry := { r with log := [] }

theorem remove_add {r : Registry} {m : MetricName} {g : Gauge} (h : r.contains m = false) :
    ((r.add m g).2.remove m).2.gauges = r.gauges := by
  have hne : ∀ e ∈ r.gauges, (e.1 != m) = true := by
    intro e he
    have hl : r.gauges.lookup m = none := by simpa [contains, find?] using h
    have := List.lookup_eq_none_iff.1 hl e he
    simpa [bne, BEq.comm] using this
  simp [add, h, remove, List.filter_append, List.filter_eq_self.2 hne]

end Registry

end StandingQuery

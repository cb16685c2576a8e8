import StandingQuery.Lifecycle.Registry
import StandingQuery.Lifecycle.QueryState

/-!
# Listeners to running queries

A listener keeps the state of one query and shows it in two gauges of a registry, which it
registers when it is made and removes when it is closed. A `Tracker` is a registry with all
listeners that were ever made; a listener is known by its index, so that its gauges read the
state of that very listener.

* `Tracker.close_closed`: closing a closed listener changes nothing.
* `Tracker.gauges_listen_error`: a listener that cannot be made leaves the gauges as they were.
-/

namespace StandingQuery

/-! ## Metric names -/

namespace ListenerMetric

/-- The group of all listeners' metrics, after a prefix. -/
def group : String := "ksql-queries"

/-- The metric that shows the state of a query. -/
def queryStatus (groupName queryId : String) : MetricName where
  name := "query-status"
  group := groupName
  description := "The current status of the given query."
  tags := .ofList [("status", queryId)]

/-- The metric that shows the error of a query. -/
def errorStatus (groupName queryId : String) : MetricName where
  name := "error-status"
  group := groupName
  description := "The current error status of the given query, if the state is in ERROR state"
  tags := .ofList [("status", queryId)]

end ListenerMetric

/-! ## Listeners -/

/-- A listener to one query. -/
structure Listener where
  queryId : String
  group : String
  cell : StateCell := {}
  closed : Bool := false
  deriving DecidableEq, Repr

namespace Listener

/-- The metric of a listener's state. -/
def queryStatus (l : Listener) : MetricName := ListenerMetric.queryStatus l.group l.queryId

/-- The metric of a listener's error. -/
def errorStatus (l : Listener) : MetricName := ListenerMetric.errorStatus l.group l.queryId

end Listener

/-- A registry, and all listeners that were made for it. -/
structure Tracker where
  registry : Registry := {}
  listeners : List Listener := []
  deriving DecidableEq

namespace Tracker

/-- What a gauge reads. -/
def read (t : Tracker) : Gauge → String
  | .constant text => text
  | .stateOf i => ((t.listeners[i]?.map Listener.cell).getD {}).stateName
  | .errorOf i => ((t.listeners[i]?.map Listener.cell).getD {}).errorName

def value? (t : Tracker) (m : MetricName) : Option String := (t.registry.find? m).map t.read

/-- The readings of all metrics, by their texts. -/
def snapshot (t : Tracker) : OrderedMap String :=
  .ofList (t.registry.gauges.map fun (m, g) => (m.toText, t.read g))

/-- Makes a listener to a query and registers its two gauges, both or none. -/
def listen (t : Tracker) (groupPrefix queryId : String) : Except ObserveError Nat × Tracker :=
  if queryId = "" then (.error (.missingArgument "query_id"), t)
  else
    let l : Listener := { queryId := queryId, group := groupPrefix ++ ListenerMetric.group }
    let index := t.listeners.length
    match t.registry.add l.queryStatus (.stateOf index) with
    | (.error e, registry) => (.error e, { t with registry := registry })
    | (.ok (), registry) =>
      match registry.add l.errorStatus (.errorOf index) with
      | (.error e, registry) =>
        (.error e, { t with registry := (registry.remove l.queryStatus).2 })
      | (.ok (), registry) =>
        (.ok index, { registry := registry, listeners := t.listeners ++ [l] })

/-- What a listener is made from; the registry and the query have to be given. -/
structure ListenerArguments where
  hasRegistry : Bool := false
  groupPrefix : String := ""
  queryId : Option String := none

/-- Makes a listener from arguments that may be missing. -/
def listenWith (t : Tracker) (a : ListenerArguments) : Except ObserveError Nat × Tracker :=
  if !a.hasRegistry then (.error (.missingArgument "metrics"), t)
  else match a.queryId with
    | none => (.error (.missingArgument "query_id"), t)
    | some queryId => t.listen a.groupPrefix queryId

/-- Changes a listener. -/
def modify (t : Tracker) (index : Nat) (f : Listener → Listener) : Tracker :=
  { t with listeners := t.listeners.modify index f }

/-- Reports that a query has gone from one state to another. -/
def reportState (t : Tracker) (index : Nat) (_old new : QueryState) : Tracker :=
  t.modify index fun l => { l with cell := l.cell.withState new }

/-- Reports that a query has failed. -/
def reportError (t : Tracker) (index : Nat) (e : QueryError) : Tracker :=
  t.modify index fun l => { l with cell := l.cell.withError e.type }

/-- Closes a listener: its gauges are removed, once. -/
def close (t : Tracker) (index : Nat) : Tracker :=
  match t.listeners[index]? with
  | none => t
  | some l =>
    if l.closed then t
    else
      let registry := (t.registry.remove l.queryStatus).2
      let registry := (registry.remove l.errorStatus).2
      { t.modify index (fun l => { l with closed := true }) with registry := registry }

/-- Closes several listeners, in order. -/
def closeAll (t : Tracker) (indices : List Nat) : Tracker := indices.foldl close t

theorem close_closed {t : Tracker} {index : Nat} {l : Listener}
    (h : t.listeners[index]? = some l) (hc : l.closed = true) : t.close index = t := by
  simp [close, h, hc]

theorem gauges_listen_error {t t' : Tracker} {groupPrefix queryId : String} {e : ObserveError}
    (h : t.listen groupPrefix queryId = (.error e, t')) :
    t'.registry.gauges = t.registry.gauges := by
  unfold listen at h
  split at h
  · cases h
    rfl
  · rename_i hq
    simp only at h
    generalize hl : (Listener.mk queryId (groupPrefix ++ ListenerMetric.group) {} false) = l at h
    cases hc : t.registry.contains l.queryStatus with
    | true =>
      simp only [Registry.add, hc, if_true] at h
      cases h
      rfl
    | false =>
      have hr := Registry.remove_add (g := .stateOf t.listeners.length) hc
      generalize hg : t.registry.add l.queryStatus (.stateOf t.listeners.length) = added at h hr
      have hok : added.1 = .ok () := by simp [← hg, Registry.add, hc]
      obtain ⟨result, registry⟩ := added
      subst hok
      simp only at h hr
      cases hd : registry.contains l.errorStatus with
      | true =>
        simp only [Registry.add, hd, if_true] at h
        cases h
        simpa [Registry.remove] using hr
      | false =>
        simp [Registry.add, hd] at h

end Tracker

end StandingQuery

import StandingQuery.Proofs.Lifecycle.Gauges

/-!
# Histories of listeners

What the callers of a tracker know of a listener is what it was made for and what they have
asked of it since: its history. At every point of every run, the histories tell what the
registry holds. A listener is open until it is first asked to close or dropped, and what its
gauges show is the last state and the last error in its own history.

* `Session.told_run`: after any requests, the listeners are as their histories say.
* `Session.registry_run`: what the registry holds and shows, and when a listener can be made.
-/

namespace StandingQuery

/-! ## What is asked of a listener -/

/-- What a listener can be asked. -/
inductive ListenerCall
  | stateChange (old new : QueryState)
  | failure (e : QueryError)
  | close
  | drop
  deriving DecidableEq, Repr

namespace ListenerCall

/-- Whether a listener is closed by a call. -/
def ends : ListenerCall → Bool
  | close => true
  | drop => true
  | _ => false

/-- The state that a call reports. -/
def state? : ListenerCall → Option QueryState
  | stateChange _ new => some new
  | _ => none

/-- The kind of error that a call reports. -/
def error? : ListenerCall → Option ErrorType
  | failure e => some e.type
  | _ => none

/-- What a call to the listener with an index does; a listener that is dropped is closed. -/
def apply (t : Tracker) (index : Nat) : ListenerCall → Tracker
  | stateChange old new => t.reportState index old new
  | failure e => t.reportError index e
  | close => t.close index
  | drop => t.close index

/-- What becomes of a listener by a call. -/
def change (l : Listener) : ListenerCall → Listener
  | stateChange _ new => { l with cell := l.cell.withState new }
  | failure e => { l with cell := l.cell.withError e.type }
  | close => l.shut
  | drop => l.shut

end ListenerCall

/-- What callers know of a listener. -/
structure History where
  group : String
  queryId : String
  /-- What the listener has been asked since it was made, in order. -/
  calls : List ListenerCall := []
  deriving DecidableEq, Repr

namespace History

/-- The history of a listener that has just been made. -/
def fresh (groupPrefix queryId : String) : History :=
  { group := groupPrefix ++ ListenerMetric.group, queryId := queryId }

/-- Whether a listener has neither been closed nor dropped. -/
def isOpen (h : History) : Bool := h.calls.all fun c => !c.ends

/-- The last state that was reported to a listener. -/
def lastState? (h : History) : Option QueryState := (h.calls.filterMap ListenerCall.state?).getLast?

/-- The last kind of error that was reported to a listener. -/
def lastError? (h : History) : Option ErrorType := (h.calls.filterMap ListenerCall.error?).getLast?

def queryStatus (h : History) : MetricName := ListenerMetric.queryStatus h.group h.queryId

def errorStatus (h : History) : MetricName := ListenerMetric.errorStatus h.group h.queryId

/-- The two gauges of a listener with an index, while it is open. -/
def gauges (index : Nat) (h : History) : List (MetricName × Gauge) :=
  if h.isOpen then [(h.queryStatus, .stateOf index), (h.errorStatus, .errorOf index)] else []

/-- The history after one more call. -/
def extend (h : History) (c : ListenerCall) : History := { h with calls := h.calls ++ [c] }

/-- What a listener with this history is like. -/
def listener (h : History) : Listener where
  queryId := h.queryId
  group := h.group
  cell := { state := h.lastState?, error := h.lastError? }
  closed := !h.isOpen

end History

/-! ## Runs -/

/-- What a tracker can be asked: to make a listener, or something of the listener with an index. -/
inductive TrackerRequest
  | listen (groupPrefix queryId : String)
  | call (index : Nat) (c : ListenerCall)
  deriving DecidableEq, Repr

/-- A tracker, and what is known of the listeners that were made. -/
structure Session where
  tracker : Tracker
  histories : List History := []

namespace Session

/-- A session on a registry that holds some metrics. -/
def start (foreign : Registry) : Session := { tracker := { registry := foreign } }

/-- A request changes the tracker; a listener that is made has an empty history, and a call is added
to the history of its listener. -/
def serve (s : Session) : TrackerRequest → Session
  | .listen groupPrefix queryId =>
    match s.tracker.listen groupPrefix queryId with
    | (.ok _, t) => ⟨t, s.histories ++ [.fresh groupPrefix queryId]⟩
    | (.error _, t) => ⟨t, s.histories⟩
  | .call index c =>
    ⟨c.apply s.tracker index, s.histories.modify index fun h => h.extend c⟩

def run (s : Session) (rs : List TrackerRequest) : Session := rs.foldl serve s

end Session

/-! ## One step -/

namespace History

@[simp]
theorem group_extend (h : History) (c : ListenerCall) : (h.extend c).group = h.group := rfl

@[simp]
theorem queryId_extend (h : History) (c : ListenerCall) : (h.extend c).queryId = h.queryId := rfl

theorem isOpen_extend (h : History) (c : ListenerCall) :
    (h.extend c).isOpen = (h.isOpen && !c.ends) := by
  simp [isOpen, extend, List.all_append]

theorem lastState?_extend (h : History) (c : ListenerCall) :
    (h.extend c).lastState? = c.state?.or h.lastState? := by
  cases hc : c.state? <;> simp [lastState?, extend, List.filterMap_append, hc]

theorem lastError?_extend (h : History) (c : ListenerCall) :
    (h.extend c).lastError? = c.error?.or h.lastError? := by
  cases hc : c.error? <;> simp [lastError?, extend, List.filterMap_append, hc]

/-- Each call does to a listener what it does to the history. -/
theorem listener_extend (h : History) (c : ListenerCall) :
    (h.extend c).listener = c.change h.listener := by
  cases c <;>
    simp [listener, lastState?_extend, lastError?_extend, isOpen_extend, ListenerCall.change,
      ListenerCall.ends, ListenerCall.state?, ListenerCall.error?, Listener.shut,
      StateCell.withState, StateCell.withError]

theorem gauges_listener (h : History) (index : Nat) :
    h.listener.gauges index = h.gauges index := by
  cases hopen : h.isOpen <;> simp only [Listener.gauges, gauges, listener, hopen] <;> rfl

end History

theorem ListenerCall.grown_apply {t₀ t : Tracker} {new : List Listener}
    (h : Tracker.Grown t₀ new t) (index : Nat) (c : ListenerCall) :
    Tracker.Grown t₀ (new.modify index c.change) (c.apply t (t₀.listeners.length + index)) := by
  cases c with
  | stateChange old new => exact h.modify index (fun _ => rfl) (fun _ => rfl) fun _ => rfl
  | failure e => exact h.modify index (fun _ => rfl) (fun _ => rfl) fun _ => rfl
  | close => exact h.close index
  | drop => exact h.close index

namespace Session

/-- The gauges of the listeners that are open, in the order in which they were made. -/
def openGauges (s : Session) : List (MetricName × Gauge) :=
  (s.histories.mapIdx fun i (h : History) => h.gauges i).flatten

theorem gaugesFrom_listeners (s : Session) :
    Listener.gaugesFrom 0 (s.histories.map History.listener) = s.openGauges := by
  rw [Listener.gaugesFrom, openGauges]
  congr 1
  apply List.ext_getElem?
  intro i
  simp only [List.getElem?_mapIdx, List.getElem?_map, Option.map_map, Function.comp_def,
    Nat.zero_add, History.gauges_listener]

theorem serve_listen_ok {s : Session} {groupPrefix queryId : String} {index : Nat}
    (h : (s.tracker.listen groupPrefix queryId).1 = .ok index) :
    s.serve (.listen groupPrefix queryId) =
      ⟨(s.tracker.listen groupPrefix queryId).2, s.histories ++ [.fresh groupPrefix queryId]⟩ := by
  rw [serve]
  generalize s.tracker.listen groupPrefix queryId = made at h
  obtain ⟨result, t⟩ := made
  obtain rfl : result = .ok index := h
  rfl

theorem serve_listen_error {s : Session} {groupPrefix queryId : String} {e : ObserveError}
    (h : (s.tracker.listen groupPrefix queryId).1 = .error e) :
    s.serve (.listen groupPrefix queryId) =
      ⟨(s.tracker.listen groupPrefix queryId).2, s.histories⟩ := by
  rw [serve]
  generalize s.tracker.listen groupPrefix queryId = made at h
  obtain ⟨result, t⟩ := made
  obtain rfl : result = .error e := h
  rfl

/-- The listeners are as their histories say, and the gauges are theirs and the foreign ones. -/
def Told (foreign : Registry) (s : Session) : Prop :=
  Tracker.Grown (start foreign).tracker (s.histories.map History.listener) s.tracker

theorem told_serve {foreign : Registry} {s : Session} (h : s.Told foreign) (r : TrackerRequest) :
    (s.serve r).Told foreign := by
  cases r with
  | listen groupPrefix queryId =>
    by_cases hmade : queryId ≠ "" ∧ (Listener.fresh groupPrefix queryId).Free s.tracker.registry
    · rw [serve_listen_ok (Tracker.listen_free hmade.1 hmade.2).1, Told, List.map_append]
      exact h.listen_free hmade.1 hmade.2
    · obtain ⟨⟨e, he⟩, _⟩ := Tracker.listen_not_free (not_and.1 hmade)
      rw [serve_listen_error he]
      exact h.listen_not_free (not_and.1 hmade)
  | call index c =>
    -- The history changes where and as the listener does.
    have hmap : (s.histories.modify index fun h => h.extend c).map History.listener =
        (s.histories.map History.listener).modify index c.change := by
      apply List.ext_getElem?
      intro i
      simp only [List.getElem?_map, List.getElem?_modify, Option.map_eq_map, Option.map_map]
      congr 1
      funext h
      by_cases hi : index = i <;> simp [hi, History.listener_extend]
    have hgrown := c.grown_apply h index
    rw [show (start foreign).tracker.listeners.length = 0 from rfl, Nat.zero_add] at hgrown
    rw [serve, Told, hmap]
    exact hgrown

/-- After any requests, the listeners are as their histories say. -/
theorem told_run (foreign : Registry) (rs : List TrackerRequest) :
    ((start foreign).run rs).Told foreign := by
  have hrun : ∀ s : Session, s.Told foreign → (s.run rs).Told foreign := by
    induction rs with
    | nil => exact fun s h => h
    | cons r rs ih => exact fun s h => ih _ (told_serve h r)
  exact hrun _ (.refl _)

/-! ## What the histories tell -/

section

variable {foreign : Registry} {s : Session}

theorem gauges_of_told (h : s.Told foreign) :
    s.tracker.registry.gauges = foreign.gauges ++ s.openGauges := by
  rw [← gaugesFrom_listeners]
  exact h.gauges

theorem distinct_of_told (h : s.Told foreign) {i j : Nat} {a b : History}
    (ha : s.histories[i]? = some a) (hb : s.histories[j]? = some b) (haopen : a.isOpen = true)
    (hbopen : b.isOpen = true) (hgroup : a.group = b.group) (hquery : a.queryId = b.queryId) :
    i = j := by
  apply h.separate.distinct i j a.listener b.listener
  · rw [List.getElem?_map, ha]
    rfl
  · rw [List.getElem?_map, hb]
    rfl
  · simpa [History.listener] using haopen
  · simpa [History.listener] using hbopen
  · exact hgroup
  · exact hquery

/-- The gauges of an open listener show the last state and the last error that it was told. -/
theorem values_of_told (h : s.Told foreign) {i : Nat} {a : History}
    (ha : s.histories[i]? = some a) (hopen : a.isOpen = true) :
    s.tracker.value? a.queryStatus = some ((a.lastState?.map QueryState.name).getD "-") ∧
      s.tracker.value? a.errorStatus =
        some ((a.lastError?.map ErrorType.name).getD "NO_ERROR") := by
  have hlistener : (s.histories.map History.listener)[i]? = some a.listener := by
    rw [List.getElem?_map, ha]
    rfl
  have hclosed : a.listener.closed = false := by simpa [History.listener] using hopen
  exact ⟨h.value?_queryStatus hlistener hclosed, h.value?_errorStatus hlistener hclosed⟩

theorem registry_of_told (h : s.Told foreign) {i : Nat} {a : History}
    (ha : s.histories[i]? = some a) (hclosed : a.isOpen = false) (c : ListenerCall) :
    (c.apply s.tracker i).registry = s.tracker.registry := by
  have hlistener : s.tracker.listeners[i]? = some a.listener := by
    rw [h.listeners]
    show (s.histories.map History.listener)[i]? = some a.listener
    rw [List.getElem?_map, ha]
    rfl
  have hclose : s.tracker.close i = s.tracker :=
    Tracker.close_closed hlistener (by simpa [History.listener] using hclosed)
  cases c with
  | stateChange old new => rfl
  | failure e => rfl
  | close => exact congrArg Tracker.registry hclose
  | drop => exact congrArg Tracker.registry hclose

end

/-- A listener cannot be made if its query has no id or one of its names is taken, and then
nothing is registered. -/
theorem listen_error_iff (t : Tracker) (groupPrefix queryId : String) :
    ((∃ e, (t.listen groupPrefix queryId).1 = .error e) ↔ queryId = "" ∨
      t.registry.contains (History.fresh groupPrefix queryId).queryStatus = true ∨
      t.registry.contains (History.fresh groupPrefix queryId).errorStatus = true) ∧
    ∀ e, (t.listen groupPrefix queryId).1 = .error e →
      (t.listen groupPrefix queryId).2.registry.gauges = t.registry.gauges := by
  constructor
  · have hfree : (Listener.fresh groupPrefix queryId).Free t.registry ↔
        t.registry.contains (History.fresh groupPrefix queryId).queryStatus = false ∧
          t.registry.contains (History.fresh groupPrefix queryId).errorStatus = false :=
      Listener.free_iff
    constructor
    · rintro ⟨e, he⟩
      by_contra hnot
      simp only [not_or, Bool.not_eq_true, ← hfree] at hnot
      rw [(Tracker.listen_free hnot.1 hnot.2).1] at he
      cases he
    · intro htaken
      apply (Tracker.listen_not_free ?_).1
      intro hid hnot
      obtain ⟨hq, he⟩ := hfree.1 hnot
      simp [hid, hq, he] at htaken
  · intro e he
    exact Tracker.gauges_listen_error (Prod.ext he rfl)

/-- At every point of a run on a registry with foreign metrics, the registry holds these and the
two gauges of each open listener, and open listeners differ in their group or their query. A
listener is made unless its query has no id or one of its names is taken, and then
nothing is registered. The gauges of an open listener show the last state and the last error
in its own history, and calls to a listener that is not open do not reach the registry. -/
theorem registry_run (foreign : Registry) (rs : List TrackerRequest) :
    let s := (start foreign).run rs
    let t := s.tracker
    t.registry.gauges = foreign.gauges ++ s.openGauges ∧
    (∀ (i j : Nat) (a b : History), s.histories[i]? = some a → s.histories[j]? = some b →
      a.isOpen = true → b.isOpen = true → a.group = b.group → a.queryId = b.queryId → i = j) ∧
    (∀ groupPrefix queryId,
      ((∃ e, (t.listen groupPrefix queryId).1 = .error e) ↔ queryId = "" ∨
        t.registry.contains (History.fresh groupPrefix queryId).queryStatus = true ∨
        t.registry.contains (History.fresh groupPrefix queryId).errorStatus = true) ∧
      ∀ e, (t.listen groupPrefix queryId).1 = .error e →
        (t.listen groupPrefix queryId).2.registry.gauges = t.registry.gauges) ∧
    (∀ (i : Nat) (a : History), s.histories[i]? = some a → a.isOpen = true →
      t.value? a.queryStatus = some ((a.lastState?.map QueryState.name).getD "-") ∧
      t.value? a.errorStatus = some ((a.lastError?.map ErrorType.name).getD "NO_ERROR")) ∧
    ∀ (i : Nat) (a : History) (c : ListenerCall), s.histories[i]? = some a → a.isOpen = false →
      (c.apply t i).registry = t.registry := by
  intro s t
  have htold : s.Told foreign := told_run foreign rs
  refine ⟨gauges_of_told htold, ?_, listen_error_iff t, ?_, ?_⟩
  · intro i j a b ha hb
    exact distinct_of_told htold ha hb
  · intro i a ha hopen
    exact values_of_told htold ha hopen
  · intro i a c ha hclosed
    exact registry_of_told htold ha hclosed c

/-- A listener that is dropped after it was closed leaves the gauges of its successor. -/
example : ((start {}).run [.listen "" "q", .call 0 .close, .listen "" "q", .call 0 .drop]
    ).tracker.registry.gauges = (History.fresh "" "q").gauges 1 := by decide

end Session

end StandingQuery

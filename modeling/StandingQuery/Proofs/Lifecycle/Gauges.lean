import Mathlib.Data.List.Basic
import StandingQuery.Lifecycle.Tracker

/-!
# The gauges of listeners

A tracker that has grown from another one has the gauges it had before, and after them the two
gauges of each new listener that is open. This is so after each operation on new listeners:
making one, reporting to one, closing one. It rests on names: a listener is only made if both
of its names are free, so when it is closed, its names are nobody else's.

* `Tracker.listen_free`, `Tracker.listen_not_free`: when a listener is made, and what then happens.
* `Tracker.Grown.listen_free`, `Tracker.Grown.modify`, `Tracker.Grown.close`: what the operations
  keep.
* `Tracker.Grown.free_iff`: which names are free.
* `Tracker.Grown.gauges_of_shut`: when all new listeners are closed, the old gauges are left.
* `Tracker.Grown.value?_queryStatus`: the gauges of an open listener show its own cell.
-/

namespace StandingQuery

/-! ## Names -/

namespace ListenerMetric

theorem tags_inj {id id' : String}
    (h : OrderedMap.ofList [("status", id)] = OrderedMap.ofList [("status", id')]) : id = id' := by
  have hfind := congrArg (fun m => m.find? "status") h
  simpa [OrderedMap.ofList] using hfind

theorem queryStatus_inj {group id group' id' : String}
    (h : queryStatus group id = queryStatus group' id') : group = group' ∧ id = id' := by
  rw [queryStatus, queryStatus, MetricName.mk.injEq] at h
  exact ⟨h.2.1, tags_inj h.2.2.2⟩

theorem errorStatus_inj {group id group' id' : String}
    (h : errorStatus group id = errorStatus group' id') : group = group' ∧ id = id' := by
  rw [errorStatus, errorStatus, MetricName.mk.injEq] at h
  exact ⟨h.2.1, tags_inj h.2.2.2⟩

theorem queryStatus_ne_errorStatus (group id group' id' : String) :
    queryStatus group id ≠ errorStatus group' id' := by
  intro h
  have hname : "query-status" = "error-status" := congrArg MetricName.name h
  revert hname
  decide

end ListenerMetric

namespace Listener

/-- The listener to a query as it is when it is made. -/
def fresh (groupPrefix queryId : String) : Listener :=
  { queryId := queryId, group := groupPrefix ++ ListenerMetric.group }

/-- Whether a metric is one of a listener's two. -/
def Names (l : Listener) (m : MetricName) : Prop := m = l.queryStatus ∨ m = l.errorStatus

/-- A metric tells the group and the query of its listener. -/
theorem Names.inj {l l' : Listener} {m : MetricName} (h : l.Names m) (h' : l'.Names m) :
    l.group = l'.group ∧ l.queryId = l'.queryId := by
  rcases h with rfl | rfl <;> rcases h' with h' | h'
  · exact ListenerMetric.queryStatus_inj h'
  · exact absurd h' (ListenerMetric.queryStatus_ne_errorStatus _ _ _ _)
  · exact absurd h'.symm (ListenerMetric.queryStatus_ne_errorStatus _ _ _ _)
  · exact ListenerMetric.errorStatus_inj h'

/-- The gauges of the listener with an index; a closed listener has none. -/
def gauges (index : Nat) (l : Listener) : List (MetricName × Gauge) :=
  if l.closed then [] else [(l.queryStatus, .stateOf index), (l.errorStatus, .errorOf index)]

theorem mem_gauges {index : Nat} {l : Listener} {e : MetricName × Gauge} :
    e ∈ l.gauges index ↔ l.closed = false ∧
      (e = (l.queryStatus, .stateOf index) ∨ e = (l.errorStatus, .errorOf index)) := by
  cases h : l.closed <;> simp [gauges, h]

theorem names_of_mem_gauges {index : Nat} {l : Listener} {e : MetricName × Gauge}
    (h : e ∈ l.gauges index) : l.closed = false ∧ l.Names e.1 := by
  obtain ⟨hopen, rfl | rfl⟩ := mem_gauges.1 h
  · exact ⟨hopen, Or.inl rfl⟩
  · exact ⟨hopen, Or.inr rfl⟩

theorem gauge_of_mem_gauges {index : Nat} {l : Listener} {m : MetricName} {g g' : Gauge}
    (h : (m, g) ∈ l.gauges index) (h' : (m, g') ∈ l.gauges index) : g = g' := by
  have hne : l.queryStatus ≠ l.errorStatus :=
    ListenerMetric.queryStatus_ne_errorStatus _ _ _ _
  obtain ⟨_, he⟩ := mem_gauges.1 h
  obtain ⟨_, he'⟩ := mem_gauges.1 h'
  simp only [Prod.mk.injEq] at he he'
  rcases he with ⟨rfl, rfl⟩ | ⟨rfl, rfl⟩ <;> rcases he' with ⟨hm, rfl⟩ | ⟨hm, rfl⟩
  · rfl
  · exact absurd hm hne
  · exact absurd hm.symm hne
  · rfl

/-- The gauges of listeners, of which the first has the index `first`. -/
def gaugesFrom (first : Nat) (ls : List Listener) : List (MetricName × Gauge) :=
  (ls.mapIdx fun i (l : Listener) => l.gauges (first + i)).flatten

theorem mem_gaugesFrom {first : Nat} {ls : List Listener} {e : MetricName × Gauge} :
    e ∈ gaugesFrom first ls ↔
      ∃ (i : Nat) (l : Listener), ls[i]? = some l ∧ e ∈ l.gauges (first + i) := by
  simp only [gaugesFrom, List.mem_flatten]
  constructor
  · rintro ⟨es, hes, he⟩
    obtain ⟨i, hi⟩ := List.mem_iff_getElem?.1 hes
    rw [List.getElem?_mapIdx] at hi
    obtain ⟨l, hl, rfl⟩ := Option.map_eq_some_iff.1 hi
    exact ⟨i, l, hl, he⟩
  · rintro ⟨i, l, hl, he⟩
    refine ⟨l.gauges (first + i), List.mem_iff_getElem?.2 ⟨i, ?_⟩, he⟩
    rw [List.getElem?_mapIdx, hl]
    rfl

theorem gaugesFrom_concat (first : Nat) (ls : List Listener) (l : Listener) :
    gaugesFrom first (ls ++ [l]) = gaugesFrom first ls ++ l.gauges (first + ls.length) := by
  simp [gaugesFrom, List.mapIdx_append]

/-- Changing one listener leaves the gauges of the others. -/
theorem filter_gaugesFrom {p : MetricName × Gauge → Bool} {first index : Nat}
    {ls : List Listener} {f : Listener → Listener}
    (h : ∀ i l, ls[i]? = some l →
      (l.gauges (first + i)).filter p = (if index = i then f l else l).gauges (first + i)) :
    (gaugesFrom first ls).filter p = gaugesFrom first (ls.modify index f) := by
  rw [gaugesFrom, gaugesFrom, List.filter_flatten]
  congr 1
  apply List.ext_getElem?
  intro i
  rw [List.getElem?_map, List.getElem?_mapIdx, List.getElem?_mapIdx, List.getElem?_modify]
  cases hl : ls[i]? with
  | none => rfl
  | some l => exact congrArg some (h i l hl)

end Listener

/-! ## Making a listener -/

theorem Registry.contains_iff {r : Registry} {m : MetricName} :
    r.contains m = true ↔ ∃ g, (m, g) ∈ r.gauges := by
  rw [contains, find?, List.lookup_isSome_iff]
  constructor
  · rintro ⟨e, he, hm⟩
    obtain rfl : m = e.1 := by simpa using hm
    exact ⟨e.2, he⟩
  · rintro ⟨g, hg⟩
    exact ⟨(m, g), hg, by simp⟩

namespace Registry

variable {r : Registry} {m : MetricName} {g : Gauge}

theorem add_of_contains (h : r.contains m = true) :
    r.add m g =
      (.error (.duplicateMetric m.toText), { r with log := r.log ++ [.add m false] }) := by
  rw [add, if_pos h]

theorem add_of_free (h : r.contains m = false) :
    r.add m g = (.ok (), { gauges := r.gauges ++ [(m, g)], log := r.log ++ [.add m true] }) := by
  rw [add, if_neg (by simp [h])]

end Registry

theorem lookup_of_unique {es : List (MetricName × Gauge)} {m : MetricName} {g : Gauge}
    (h : (m, g) ∈ es) (hunique : ∀ g', (m, g') ∈ es → g' = g) : es.lookup m = some g := by
  cases hl : es.lookup m with
  | none => simpa using List.lookup_eq_none_iff.1 hl (m, g) h
  | some g' =>
    obtain ⟨before, after, rfl, _⟩ := List.lookup_eq_some_iff.1 hl
    rw [hunique g' (by simp)]

/-- The listener after it was closed. -/
def Listener.shut (l : Listener) : Listener := { l with closed := true }

/-- The listeners after those with some indices were closed. -/
def Listener.shutAll (indices : List Nat) (ls : List Listener) : List Listener :=
  indices.foldl (fun ls i => ls.modify i .shut) ls

theorem Listener.getElem?_shutAll (indices : List Nat) (ls : List Listener) (i : Nat) :
    (shutAll indices ls)[i]? = ls[i]?.map fun l => if i ∈ indices then l.shut else l := by
  induction indices generalizing ls with
  | nil => simp [shutAll]
  | cons j indices ih =>
    rw [shutAll, List.foldl_cons, ← shutAll, ih, List.getElem?_modify]
    cases ls[i]? with
    | none => rfl
    | some l =>
      by_cases hij : i = j
      · by_cases hi : i ∈ indices <;> simp [hij, shut]
      · simp [hij, Ne.symm hij]

theorem Listener.closed_of_mem_shutAll {indices : List Nat} {ls : List Listener}
    (hall : ∀ i, i < ls.length → i ∈ indices) {l : Listener} (h : l ∈ shutAll indices ls) :
    l.closed = true := by
  obtain ⟨i, hi⟩ := List.mem_iff_getElem?.1 h
  rw [getElem?_shutAll] at hi
  obtain ⟨m, hm, rfl⟩ := Option.map_eq_some_iff.1 hi
  rw [if_pos (hall i (List.getElem?_eq_some_iff.1 hm).1)]
  rfl

/-- Whether both names of a listener are free. -/
def Listener.Free (l : Listener) (r : Registry) : Prop := ∀ m, l.Names m → r.contains m = false

theorem Listener.free_iff {l : Listener} {r : Registry} :
    l.Free r ↔ r.contains l.queryStatus = false ∧ r.contains l.errorStatus = false := by
  constructor
  · intro h
    exact ⟨h _ (Or.inl rfl), h _ (Or.inr rfl)⟩
  · rintro ⟨hq, he⟩ m (rfl | rfl)
    · exact hq
    · exact he

theorem Listener.free_iff_forall_gauges {l : Listener} {r : Registry} :
    l.Free r ↔ ∀ e ∈ r.gauges, ¬ l.Names e.1 := by
  constructor
  · intro h e he hname
    have htaken : r.contains e.1 = true := Registry.contains_iff.2 ⟨e.2, he⟩
    rw [h e.1 hname] at htaken
    cases htaken
  · intro h m hname
    by_contra htaken
    obtain ⟨g, hg⟩ := Registry.contains_iff.1 (by simpa using htaken)
    exact h (m, g) hg hname

namespace Tracker

variable {t : Tracker} {groupPrefix queryId : String}

/-- A listener is made if its query has an id and both of its names are free. -/
theorem listen_free (hid : queryId ≠ "")
    (hfree : (Listener.fresh groupPrefix queryId).Free t.registry) :
    (t.listen groupPrefix queryId).1 = .ok t.listeners.length ∧
      (t.listen groupPrefix queryId).2.listeners =
        t.listeners ++ [Listener.fresh groupPrefix queryId] ∧
      (t.listen groupPrefix queryId).2.registry.gauges = t.registry.gauges ++
        (Listener.fresh groupPrefix queryId).gauges t.listeners.length := by
  have hopen : (Listener.fresh groupPrefix queryId).closed = false := rfl
  generalize hl : Listener.fresh groupPrefix queryId = l at hfree hopen ⊢
  rw [Listener.fresh] at hl
  obtain ⟨hq, he⟩ := Listener.free_iff.1 hfree
  have hne : l.errorStatus ≠ l.queryStatus :=
    (ListenerMetric.queryStatus_ne_errorStatus _ _ _ _).symm
  simp only [listen, if_neg hid, hl]
  rw [Registry.add_of_free hq]
  simp only
  rw [Registry.add_of_free]
  · exact ⟨rfl, rfl, by simp [Listener.gauges, hopen]⟩
  · simpa [Registry.contains, Registry.find?, List.lookup_append, hne] using he

/-- If the query has no id or one of the names is taken, no listener is made. -/
theorem listen_not_free
    (h : queryId ≠ "" → ¬ (Listener.fresh groupPrefix queryId).Free t.registry) :
    (∃ e, (t.listen groupPrefix queryId).1 = .error e) ∧
      (t.listen groupPrefix queryId).2.listeners = t.listeners ∧
      (t.listen groupPrefix queryId).2.registry.gauges = t.registry.gauges := by
  have hfailed : (∃ e, (t.listen groupPrefix queryId).1 = .error e) ∧
      (t.listen groupPrefix queryId).2.listeners = t.listeners := by
    by_cases hid : queryId = ""
    · simp [listen, hid]
    have hnot := h hid
    generalize hl : Listener.fresh groupPrefix queryId = l at hnot
    rw [Listener.fresh] at hl
    simp only [listen, if_neg hid, hl]
    cases hq : t.registry.contains l.queryStatus with
    | true =>
      rw [Registry.add_of_contains hq]
      exact ⟨⟨_, rfl⟩, rfl⟩
    | false =>
      have he : t.registry.contains l.errorStatus = true := by
        by_contra hfalse
        exact hnot (Listener.free_iff.2 ⟨hq, by simpa using hfalse⟩)
      -- The first name has been registered by now; the second is taken all the same.
      rw [Registry.add_of_free hq]
      simp only
      rw [Registry.add_of_contains]
      · exact ⟨⟨_, rfl⟩, rfl⟩
      · obtain ⟨g, hg⟩ := Registry.contains_iff.1 he
        exact Registry.contains_iff.2 ⟨g, List.mem_append_left _ hg⟩
  obtain ⟨⟨e, herror⟩, hlisteners⟩ := hfailed
  exact ⟨⟨e, herror⟩, hlisteners, gauges_listen_error (Prod.ext herror rfl)⟩

theorem listen_ok_iff :
    (∃ i, (t.listen groupPrefix queryId).1 = .ok i) ↔
      queryId ≠ "" ∧ (Listener.fresh groupPrefix queryId).Free t.registry := by
  constructor
  · rintro ⟨i, hi⟩
    by_contra hnot
    obtain ⟨⟨e, he⟩, _⟩ := listen_not_free (not_and.1 hnot)
    rw [hi] at he
    cases he
  · rintro ⟨hid, hfree⟩
    exact ⟨_, (listen_free hid hfree).1⟩

end Tracker

/-! ## New listeners -/

theorem eq_or_of_getElem?_concat {α : Type} {xs : List α} {x y : α} {i : Nat}
    (h : (xs ++ [x])[i]? = some y) : xs[i]? = some y ∨ i = xs.length ∧ y = x := by
  rw [List.getElem?_append] at h
  split at h
  · exact Or.inl h
  · rw [List.getElem?_singleton] at h
    split at h
    · exact Or.inr ⟨by omega, (Option.some.inj h).symm⟩
    · cases h

theorem modify_eq_self {α : Type} {xs : List α} {index : Nat} {f : α → α}
    (h : ∀ x, xs[index]? = some x → f x = x) : xs.modify index f = xs := by
  apply List.ext_getElem?
  intro i
  rw [List.getElem?_modify]
  cases hx : xs[i]? with
  | none => rfl
  | some x =>
    by_cases hi : index = i
    · subst hi
      simp [h x hx]
    · simp [hi]

/-- The names of open listeners are not among some gauges, and no two open listeners have the
same names. -/
structure Listener.Separate (before : List (MetricName × Gauge)) (ls : List Listener) : Prop where
  absent : ∀ l ∈ ls, l.closed = false → ∀ e ∈ before, ¬ l.Names e.1
  distinct : ∀ (i j : Nat) (l m : Listener), ls[i]? = some l → ls[j]? = some m →
    l.closed = false → m.closed = false → l.group = m.group → l.queryId = m.queryId → i = j

namespace Listener

variable {before : List (MetricName × Gauge)} {ls : List Listener}

/-- Closing listeners and changing their cells keeps them separate. -/
theorem Separate.modify (h : Separate before ls) (index : Nat) {f : Listener → Listener}
    (hgroup : ∀ l, (f l).group = l.group) (hquery : ∀ l, (f l).queryId = l.queryId)
    (hopen : ∀ l, (f l).closed = false → l.closed = false) :
    Separate before (ls.modify index f) := by
  have hold : ∀ (i : Nat) (l' : Listener), (ls.modify index f)[i]? = some l' → l'.closed = false →
      ∃ l, ls[i]? = some l ∧ l.closed = false ∧ l.group = l'.group ∧ l.queryId = l'.queryId := by
    intro i l' hl' hclosed
    rw [List.getElem?_modify] at hl'
    obtain ⟨l, hl, rfl⟩ := Option.map_eq_some_iff.1 hl'
    by_cases hi : index = i
    · rw [if_pos hi] at hclosed ⊢
      exact ⟨l, hl, hopen l hclosed, (hgroup l).symm, (hquery l).symm⟩
    · rw [if_neg hi] at hclosed ⊢
      exact ⟨l, hl, hclosed, rfl, rfl⟩
  constructor
  · intro l' hl' hclosed e he hname
    obtain ⟨i, hi⟩ := List.mem_iff_getElem?.1 hl'
    obtain ⟨l, hl, hlopen, hg, hq⟩ := hold i l' hi hclosed
    apply h.absent l (List.mem_of_getElem? hl) hlopen e he
    rwa [Names, queryStatus, errorStatus, hg, hq]
  · intro i j l' m' hl' hm' hlclosed hmclosed hgroups hqueries
    obtain ⟨l, hl, hlopen, hlg, hlq⟩ := hold i l' hl' hlclosed
    obtain ⟨m, hm, hmopen, hmg, hmq⟩ := hold j m' hm' hmclosed
    exact h.distinct i j l m hl hm hlopen hmopen (by rw [hlg, hmg, hgroups])
      (by rw [hlq, hmq, hqueries])

end Listener

namespace Tracker

/-- The tracker `t` has come from `t₀` by operations on the listeners `new`, which were made
since: nothing has happened to the older listeners and the gauges that were there. -/
structure Grown (t₀ : Tracker) (new : List Listener) (t : Tracker) : Prop where
  listeners : t.listeners = t₀.listeners ++ new
  gauges : t.registry.gauges =
    t₀.registry.gauges ++ Listener.gaugesFrom t₀.listeners.length new
  separate : Listener.Separate t₀.registry.gauges new

namespace Grown

variable {t₀ t : Tracker} {new : List Listener}

theorem refl (t : Tracker) : Grown t [] t where
  listeners := (List.append_nil _).symm
  gauges := (List.append_nil _).symm
  separate := ⟨by simp, by simp⟩

theorem getElem?_listeners (h : Grown t₀ new t) (index : Nat) :
    t.listeners[t₀.listeners.length + index]? = new[index]? := by
  rw [h.listeners, List.getElem?_append_right (by omega)]
  congr 1
  omega

theorem modify_listeners (h : Grown t₀ new t) (index : Nat) (f : Listener → Listener) :
    t.listeners.modify (t₀.listeners.length + index) f = t₀.listeners ++ new.modify index f := by
  rw [h.listeners]
  exact List.modifyTailIdx_add _ _ _ _

theorem mem_gauges (h : Grown t₀ new t) {i : Nat} {l : Listener} (hl : new[i]? = some l)
    {e : MetricName × Gauge} (he : e ∈ l.gauges (t₀.listeners.length + i)) :
    e ∈ t.registry.gauges := by
  rw [h.gauges]
  exact List.mem_append_right _ (Listener.mem_gaugesFrom.2 ⟨i, l, hl, he⟩)

/-! ### Making a listener -/

/-- Names are free unless an older gauge or an open new listener has them. -/
theorem free_iff (h : Grown t₀ new t) {l : Listener} :
    l.Free t.registry ↔ l.Free t₀.registry ∧
      ∀ m ∈ new, m.closed = false → ¬ (m.group = l.group ∧ m.queryId = l.queryId) := by
  simp only [Listener.free_iff_forall_gauges]
  constructor
  · intro hnone
    constructor
    · intro e he
      apply hnone
      rw [h.gauges]
      exact List.mem_append_left _ he
    · rintro m hm hopen ⟨hgroup, hquery⟩
      obtain ⟨i, hi⟩ := List.mem_iff_getElem?.1 hm
      apply hnone (m.queryStatus, .stateOf (t₀.listeners.length + i))
      · exact h.mem_gauges hi (Listener.mem_gauges.2 ⟨hopen, Or.inl rfl⟩)
      · left
        rw [Listener.queryStatus, Listener.queryStatus, hgroup, hquery]
  · rintro ⟨hold, hnew⟩ e he hname
    rw [h.gauges, List.mem_append] at he
    rcases he with he | he
    · exact hold e he hname
    · obtain ⟨i, m, hm, he⟩ := Listener.mem_gaugesFrom.1 he
      obtain ⟨hopen, hmname⟩ := Listener.names_of_mem_gauges he
      exact hnew m (List.mem_of_getElem? hm) hopen (hmname.inj hname)

theorem separate_concat (h : Grown t₀ new t) {l : Listener} (hfree : l.Free t.registry) :
    Listener.Separate t₀.registry.gauges (new ++ [l]) := by
  obtain ⟨hold, hnew⟩ := h.free_iff.1 hfree
  constructor
  · intro m hm hopen
    rcases List.mem_append.1 hm with hm | hm
    · exact h.separate.absent m hm hopen
    · obtain rfl : m = l := by simpa using hm
      exact Listener.free_iff_forall_gauges.1 hold
  · intro i j m m' hm hm' hopen hopen' hgroup hquery
    rcases eq_or_of_getElem?_concat hm with hi | ⟨rfl, rfl⟩ <;>
      rcases eq_or_of_getElem?_concat hm' with hj | ⟨rfl, rfl⟩
    · exact h.separate.distinct i j m m' hi hj hopen hopen' hgroup hquery
    · exact absurd ⟨hgroup, hquery⟩ (hnew m (List.mem_of_getElem? hi) hopen)
    · exact absurd ⟨hgroup.symm, hquery.symm⟩ (hnew m' (List.mem_of_getElem? hj) hopen')
    · rfl

theorem listen_free (h : Grown t₀ new t) {groupPrefix queryId : String} (hid : queryId ≠ "")
    (hfree : (Listener.fresh groupPrefix queryId).Free t.registry) :
    Grown t₀ (new ++ [Listener.fresh groupPrefix queryId]) (t.listen groupPrefix queryId).2 := by
  obtain ⟨_, hlisteners, hgauges⟩ := Tracker.listen_free hid hfree
  refine ⟨?_, ?_, h.separate_concat hfree⟩
  · rw [hlisteners, h.listeners, List.append_assoc]
  · rw [hgauges, h.gauges, h.listeners, Listener.gaugesFrom_concat, List.length_append,
      List.append_assoc]

theorem listen_not_free (h : Grown t₀ new t) {groupPrefix queryId : String}
    (hnot : queryId ≠ "" → ¬ (Listener.fresh groupPrefix queryId).Free t.registry) :
    Grown t₀ new (t.listen groupPrefix queryId).2 := by
  obtain ⟨_, hlisteners, hgauges⟩ := Tracker.listen_not_free hnot
  exact ⟨hlisteners.trans h.listeners, hgauges.trans h.gauges, h.separate⟩

/-! ### Reporting and closing -/

theorem modify (h : Grown t₀ new t) (index : Nat) {f : Listener → Listener}
    (hgroup : ∀ l, (f l).group = l.group) (hquery : ∀ l, (f l).queryId = l.queryId)
    (hclosed : ∀ l, (f l).closed = l.closed) :
    Grown t₀ (new.modify index f) (t.modify (t₀.listeners.length + index) f) := by
  refine ⟨h.modify_listeners index f, ?_, ?_⟩
  · have hsame : ∀ i l, (f l).gauges i = l.gauges i := by
      intro i l
      rw [Listener.gauges, Listener.gauges, Listener.queryStatus, Listener.queryStatus,
        Listener.errorStatus, Listener.errorStatus, hgroup, hquery, hclosed]
    rw [Tracker.modify, h.gauges, ← Listener.filter_gaugesFrom (p := fun _ => true)]
    · rw [List.filter_true]
    · intro i l _
      rw [List.filter_true]
      split
      · rw [hsame]
      · rfl
  · apply h.separate.modify index hgroup hquery
    intro l hl
    rw [← hclosed l, hl]

/-- Closing takes the gauges of one listener out. -/
theorem close (h : Grown t₀ new t) (index : Nat) :
    Grown t₀ (new.modify index .shut) (t.close (t₀.listeners.length + index)) := by
  have hindex := h.getElem?_listeners index
  -- Only an open listener has gauges to take out.
  by_cases hopen : ∃ l, new[index]? = some l ∧ l.closed = false
  · obtain ⟨l, hl, hclosed⟩ := hopen
    rw [hl] at hindex
    have hregistry : (t.close (t₀.listeners.length + index)).registry.gauges =
        t.registry.gauges.filter fun e => e.1 != l.errorStatus && e.1 != l.queryStatus := by
      simp [Tracker.close, hindex, hclosed, Registry.remove, List.filter_filter]
    refine ⟨?_, ?_, ?_⟩
    · rw [← h.modify_listeners index]
      simp only [Tracker.close, hindex, hclosed]
      rfl
    · -- The older gauges and those of other open listeners have other names.
      rw [hregistry, h.gauges, List.filter_append]
      congr 1
      · rw [List.filter_eq_self]
        intro e he
        have habsent := h.separate.absent l (List.mem_of_getElem? hl) hclosed e he
        simpa [Listener.Names, and_comm] using habsent
      · apply Listener.filter_gaugesFrom
        intro i m hm
        by_cases hi : index = i
        · subst hi
          obtain rfl : l = m := Option.some.inj (hl.symm.trans hm)
          simp [Listener.gauges, Listener.shut, hclosed]
        · rw [if_neg hi, List.filter_eq_self]
          intro e he
          obtain ⟨hmopen, hname⟩ := Listener.names_of_mem_gauges he
          have hnot : ¬ l.Names e.1 := by
            intro hlname
            obtain ⟨hgroup, hquery⟩ := hlname.inj hname
            exact hi (h.separate.distinct index i l m hl hm hclosed hmopen hgroup hquery)
          simpa [Listener.Names, and_comm] using hnot
    · apply h.separate.modify index
      · exact fun _ => rfl
      · exact fun _ => rfl
      · intro l hl
        cases hl
  · have hshut : ∀ l, new[index]? = some l → l.closed = true := by
      intro l hl
      by_contra hclosed
      exact hopen ⟨l, hl, by simpa using hclosed⟩
    have hsame : t.close (t₀.listeners.length + index) = t := by
      cases hl : new[index]? with
      | none =>
        rw [hl] at hindex
        simp [Tracker.close, hindex]
      | some l =>
        rw [hl] at hindex
        exact Tracker.close_closed hindex (hshut l hl)
    rw [hsame, modify_eq_self]
    · exact h
    · intro l hl
      rw [Listener.shut, ← hshut l hl]

theorem closeAll (h : Grown t₀ new t) (indices : List Nat) :
    Grown t₀ (Listener.shutAll indices new)
      (t.closeAll (indices.map fun i => t₀.listeners.length + i)) := by
  induction indices generalizing new t with
  | nil => exact h
  | cons i indices ih => exact ih (h.close i)

/-- Once all new listeners are closed, only the older gauges are left. -/
theorem gauges_of_shut (h : Grown t₀ new t) (hshut : ∀ l ∈ new, l.closed = true) :
    t.registry.gauges = t₀.registry.gauges := by
  have hnone : Listener.gaugesFrom t₀.listeners.length new = [] := by
    apply List.eq_nil_iff_forall_not_mem.2
    intro e he
    obtain ⟨i, l, hl, he⟩ := Listener.mem_gaugesFrom.1 he
    have hopen := (Listener.names_of_mem_gauges he).1
    rw [hshut l (List.mem_of_getElem? hl)] at hopen
    cases hopen
  rw [h.gauges, hnone, List.append_nil]

/-! ### Reading gauges -/

theorem value?_of_mem (h : Grown t₀ new t) {i : Nat} {l : Listener} (hl : new[i]? = some l)
    {m : MetricName} {g : Gauge} (he : (m, g) ∈ l.gauges (t₀.listeners.length + i)) :
    t.value? m = some (t.read g) := by
  obtain ⟨hopen, hname⟩ := Listener.names_of_mem_gauges he
  have hfind : t.registry.find? m = some g := by
    apply lookup_of_unique (h.mem_gauges hl he)
    intro g' hg'
    rw [h.gauges, List.mem_append] at hg'
    rcases hg' with hg' | hg'
    · exact absurd hname (h.separate.absent l (List.mem_of_getElem? hl) hopen (m, g') hg')
    · obtain ⟨j, l', hl', he'⟩ := Listener.mem_gaugesFrom.1 hg'
      obtain ⟨hopen', hname'⟩ := Listener.names_of_mem_gauges he'
      obtain ⟨hgroup, hquery⟩ := hname'.inj hname
      obtain rfl := h.separate.distinct j i l' l hl' hl hopen' hopen hgroup hquery
      obtain rfl : l' = l := Option.some.inj (hl'.symm.trans hl)
      exact Listener.gauge_of_mem_gauges he' he
  rw [value?, hfind]
  rfl

theorem value?_queryStatus (h : Grown t₀ new t) {i : Nat} {l : Listener}
    (hl : new[i]? = some l) (hopen : l.closed = false) :
    t.value? l.queryStatus = some l.cell.stateName := by
  rw [h.value?_of_mem hl (Listener.mem_gauges.2 ⟨hopen, Or.inl rfl⟩), read,
    h.getElem?_listeners, hl]
  rfl

theorem value?_errorStatus (h : Grown t₀ new t) {i : Nat} {l : Listener}
    (hl : new[i]? = some l) (hopen : l.closed = false) :
    t.value? l.errorStatus = some l.cell.errorName := by
  rw [h.value?_of_mem hl (Listener.mem_gauges.2 ⟨hopen, Or.inr rfl⟩), read,
    h.getElem?_listeners, hl]
  rfl

end Grown

end Tracker

end StandingQuery

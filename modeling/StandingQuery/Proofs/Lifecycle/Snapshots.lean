import Mathlib.Data.List.Dedup
import Mathlib.Data.List.Induction
import StandingQuery.Proofs.Lifecycle.Gauges
import StandingQuery.Text.Segments

/-!
# Snapshots of a registry

A snapshot lists the readings of a registry by the texts of the metrics. A metric is known by four
parts, and its text does not tell them all: the description is left out, and a separator in one
part reads like one between two parts. Metrics with the same text share one entry, so a snapshot
shows every metric exactly if the texts of the registered metrics differ. Where no part has the
separator in it that ends the part, they differ unless two metrics differ in nothing but their
descriptions.

* `Registry.distinct_run`: after any requests, each metric is registered once.
* `MetricName.toText_eq_iff`: what the text of a plain name tells.
* `Tracker.snapshot_run`: when a snapshot shows every metric.
-/

namespace StandingQuery

/-! ## Maps of bindings -/

namespace OrderedMap

variable {β : Type}

theorem mem_keys_iff {m : OrderedMap β} {k : String} :
    k ∈ m.entries.map Prod.fst ↔ ∃ v, m.find? k = some v := by
  rw [← Option.isSome_iff_exists, find?, List.lookup_isSome_iff, List.mem_map]
  simp only [beq_iff_eq]
  exact exists_congr fun e => and_congr_right fun _ => eq_comm

theorem nodup_keys (m : OrderedMap β) : (m.entries.map Prod.fst).Nodup := by
  rw [List.Nodup, List.pairwise_map]
  apply m.ordered.imp
  rintro ⟨k, v⟩ ⟨k', v'⟩ hlt rfl
  exact String.lt_irrefl k hlt

theorem ofList_concat (es : List (String × β)) (e : String × β) :
    ofList (es ++ [e]) = (ofList es).insert e.1 e.2 := by
  rw [ofList, List.foldl_append]
  rfl

/-- A map of bindings binds a key to a value that it has in one of them. -/
theorem mem_of_find?_ofList {es : List (String × β)} {k : String} {v : β}
    (h : (ofList es).find? k = some v) : (k, v) ∈ es := by
  induction es using List.reverseRecOn with
  | nil => cases h
  | append_singleton es e ih =>
    rw [ofList_concat, find?_insert] at h
    split at h
    · rename_i hk
      cases h
      simp [hk]
    · exact List.mem_append_left _ (ih h)

theorem find?_ofList_of_mem {es : List (String × β)} {k : String}
    (h : k ∈ es.map Prod.fst) : ∃ v, (ofList es).find? k = some v := by
  induction es using List.reverseRecOn with
  | nil => cases h
  | append_singleton es e ih =>
    rw [ofList_concat, find?_insert]
    split
    · exact ⟨e.2, rfl⟩
    · rename_i hk
      apply ih
      simpa [hk] using h

/-- The keys of a map of bindings are those of the bindings, each once. -/
theorem keys_ofList (es : List (String × β)) :
    ((ofList es).entries.map Prod.fst).Perm (es.map Prod.fst).dedup := by
  rw [List.perm_ext_iff_of_nodup (nodup_keys _) (List.nodup_dedup _)]
  intro k
  rw [List.mem_dedup, mem_keys_iff]
  constructor
  · rintro ⟨v, hv⟩
    exact List.mem_map_of_mem (mem_of_find?_ofList hv)
  · exact find?_ofList_of_mem

end OrderedMap

/-! ## The texts of metrics -/

namespace MetricName

/-- No part of a name has the separator in it that ends the part in the text. -/
structure Plain (m : MetricName) : Prop where
  group : ':' ∉ m.group.toList
  name : ',' ∉ m.name.toList
  tags : ∀ e ∈ m.tags.entries, '=' ∉ e.1.toList ∧ ',' ∉ e.2.toList

instance (m : MetricName) : Decidable m.Plain :=
  decidable_of_iff (':' ∉ m.group.toList ∧ ',' ∉ m.name.toList ∧
      ∀ e ∈ m.tags.entries, '=' ∉ e.1.toList ∧ ',' ∉ e.2.toList)
    ⟨fun ⟨hgroup, hname, htags⟩ => ⟨hgroup, hname, htags⟩,
      fun h => ⟨h.group, h.name, h.tags⟩⟩

example : (ListenerMetric.queryStatus "ksql-queries" "q").Plain := by decide

/-- The end of a metric's text. -/
def tagText (es : List (String × String)) : List Char :=
  es.flatMap fun e => ',' :: (e.1.toList ++ '=' :: e.2.toList)

theorem toList_toText (m : MetricName) :
    m.toText.toList = m.group.toList ++ ':' :: (m.name.toList ++ tagText m.tags.entries) := by
  simp [toText, tagText, String.toList_join, List.flatMap_map]

@[simp]
theorem tagText_nil : tagText [] = [] := rfl

theorem tagText_cons (e : String × String) (es : List (String × String)) :
    tagText (e :: es) = ',' :: (e.1.toList ++ '=' :: (e.2.toList ++ tagText es)) := by
  simp [tagText]

/-- What stands before the tags ends at the first comma, or with the text. -/
theorem append_tagText_inj {xs ys : List Char} {es fs : List (String × String)} (hx : ',' ∉ xs)
    (hy : ',' ∉ ys) (h : xs ++ tagText es = ys ++ tagText fs) :
    xs = ys ∧ tagText es = tagText fs := by
  cases es with
  | nil =>
    cases fs with
    | nil => simpa using h
    | cons f fs =>
      rw [tagText_cons, tagText_nil, List.append_nil] at h
      rw [h] at hx
      simp at hx
  | cons e es =>
    cases fs with
    | nil =>
      rw [tagText_cons, tagText_nil, List.append_nil] at h
      rw [← h] at hy
      simp at hy
    | cons f fs =>
      rw [tagText_cons, tagText_cons] at h ⊢
      obtain ⟨hxy, htags⟩ := Text.append_first_inj hx hy h
      exact ⟨hxy, congrArg _ htags⟩

theorem tagText_inj {es fs : List (String × String)}
    (hes : ∀ e ∈ es, '=' ∉ e.1.toList ∧ ',' ∉ e.2.toList)
    (hfs : ∀ f ∈ fs, '=' ∉ f.1.toList ∧ ',' ∉ f.2.toList)
    (h : tagText es = tagText fs) : es = fs := by
  induction es generalizing fs with
  | nil =>
    cases fs with
    | nil => rfl
    | cons f fs => simp [tagText] at h
  | cons e es ih =>
    cases fs with
    | nil => simp [tagText] at h
    | cons f fs =>
      obtain ⟨⟨hek, hev⟩, hes⟩ := List.forall_mem_cons.1 hes
      obtain ⟨⟨hfk, hfv⟩, hfs⟩ := List.forall_mem_cons.1 hfs
      rw [tagText_cons, tagText_cons, List.cons.injEq] at h
      obtain ⟨hkey, hrest⟩ := Text.append_first_inj hek hfk h.2
      obtain ⟨hvalue, htags⟩ := append_tagText_inj hev hfv hrest
      have hef : e = f := Prod.ext (String.toList_inj.1 hkey) (String.toList_inj.1 hvalue)
      rw [hef, ih hes hfs htags]

/-- The text of a plain name tells all of it but the description. -/
theorem toText_eq_iff {m n : MetricName} (hm : m.Plain) (hn : n.Plain) :
    m.toText = n.toText ↔ m.group = n.group ∧ m.name = n.name ∧ m.tags = n.tags := by
  constructor
  · intro h
    rw [← String.toList_inj, toList_toText, toList_toText] at h
    obtain ⟨hgroup, hrest⟩ := Text.append_first_inj hm.group hn.group h
    obtain ⟨hname, htext⟩ := append_tagText_inj hm.name hn.name hrest
    have htags : m.tags.entries = n.tags.entries := tagText_inj hm.tags hn.tags htext
    refine ⟨String.toList_inj.1 hgroup, String.toList_inj.1 hname, ?_⟩
    apply OrderedMap.ext_find?
    intro k
    rw [OrderedMap.find?, OrderedMap.find?, htags]
  · rintro ⟨hgroup, hname, htags⟩
    rw [toText, toText, hgroup, hname, htags]

theorem eq_of_toText {m n : MetricName} (hm : m.Plain) (hn : n.Plain) (htext : m.toText = n.toText)
    (hdescription : m.description = n.description) : m = n := by
  obtain ⟨hgroup, hname, htags⟩ := (toText_eq_iff hm hn).1 htext
  cases m
  cases n
  rw [mk.injEq]
  exact ⟨hname, hgroup, hdescription, htags⟩

/-- A comma in the value of a tag reads like one between two tags. -/
example : toText ⟨"m", "g", "", .ofList [("a", "1,b=2")]⟩ =
    toText ⟨"m", "g", "", .ofList [("a", "1"), ("b", "2")]⟩ := by decide

end MetricName

/-! ## Requests to a registry -/

/-- What a registry can be asked. -/
inductive RegistryRequest
  | add (m : MetricName) (g : Gauge)
  | remove (m : MetricName)
  deriving DecidableEq

namespace Registry

/-- The registry after a request. -/
def serve (r : Registry) : RegistryRequest → Registry
  | .add m g => (r.add m g).2
  | .remove m => (r.remove m).2

def run (r : Registry) (qs : List RegistryRequest) : Registry := qs.foldl serve r

/-- The metrics that are registered. -/
def metrics (r : Registry) : List MetricName := r.gauges.map Prod.fst

/-- Each metric is registered once. -/
def Distinct (r : Registry) : Prop := r.metrics.Nodup

theorem length_metrics (r : Registry) : r.metrics.length = r.size := List.length_map Prod.fst

theorem mem_metrics {r : Registry} {m : MetricName} : m ∈ r.metrics ↔ r.contains m = true := by
  rw [contains_iff, metrics]
  simp

theorem distinct_empty : ({} : Registry).Distinct := List.nodup_nil

theorem distinct_serve {r : Registry} (h : r.Distinct) (q : RegistryRequest) :
    (r.serve q).Distinct := by
  cases q with
  | add m g =>
    cases hc : r.contains m with
    | true =>
      rw [serve, add_of_contains hc]
      exact h
    | false =>
      have hm : m ∉ r.metrics := by simp [mem_metrics, hc]
      rw [serve, add_of_free hc, Distinct, metrics, List.map_append]
      apply h.append (List.nodup_singleton m)
      simpa using hm
  | remove m =>
    have hsub : (r.serve (.remove m)).metrics.Sublist r.metrics :=
      (List.filter_sublist).map Prod.fst
    exact h.sublist hsub

/-- After any requests, each metric is registered once. -/
theorem distinct_run {r : Registry} (h : r.Distinct) (qs : List RegistryRequest) :
    (r.run qs).Distinct := by
  induction qs generalizing r with
  | nil => exact h
  | cons q qs ih => exact ih (distinct_serve h q)

theorem Distinct.find? {r : Registry} (h : r.Distinct) {m : MetricName} {g : Gauge}
    (hg : (m, g) ∈ r.gauges) : r.find? m = some g := by
  apply lookup_of_unique hg
  intro g' hg'
  exact congrArg Prod.snd (List.inj_on_of_nodup_map h hg' hg rfl)

end Registry

/-! ## Snapshots -/

namespace Tracker

variable {t : Tracker}

/-- The snapshot has one entry for each registered metric, under its text and with its value. -/
structure ShowsEvery (t : Tracker) : Prop where
  size : t.snapshot.size = t.registry.size
  values : ∀ m, t.registry.contains m = true → t.snapshot.find? m.toText = t.value? m

/-- The keys of a snapshot are the texts of the registered metrics, each once. -/
theorem keys_snapshot (t : Tracker) :
    (t.snapshot.entries.map Prod.fst).Perm (t.registry.metrics.map MetricName.toText).dedup := by
  have hkeys := OrderedMap.keys_ofList (t.registry.gauges.map fun e => (e.1.toText, t.read e.2))
  rw [List.map_map] at hkeys
  rwa [Registry.metrics, List.map_map]

theorem size_snapshot (t : Tracker) :
    t.snapshot.size = (t.registry.metrics.map MetricName.toText).dedup.length := by
  rw [← (keys_snapshot t).length_eq, List.length_map]
  rfl

/-- An entry of a snapshot shows one of the metrics with that text. -/
theorem find?_snapshot (h : t.registry.Distinct) {text value : String}
    (hfind : t.snapshot.find? text = some value) :
    ∃ m, m.toText = text ∧ t.value? m = some value := by
  obtain ⟨⟨m, g⟩, hg, he⟩ := List.mem_map.1 (OrderedMap.mem_of_find?_ofList hfind)
  cases he
  refine ⟨m, rfl, ?_⟩
  rw [value?, h.find? hg]
  rfl

/-- A snapshot shows every metric exactly if no two of them have the same text. -/
theorem showsEvery_iff (h : t.registry.Distinct) :
    t.ShowsEvery ↔ (t.registry.metrics.map MetricName.toText).Nodup := by
  constructor
  · intro hshows
    have hlength : (t.registry.metrics.map MetricName.toText).dedup.length =
        (t.registry.metrics.map MetricName.toText).length := by
      rw [← size_snapshot, hshows.size, List.length_map, Registry.length_metrics]
    rw [← List.dedup_eq_self]
    exact (List.dedup_sublist _).eq_of_length hlength
  · intro hnodup
    constructor
    · rw [size_snapshot, List.dedup_eq_self.2 hnodup, List.length_map, Registry.length_metrics]
    · intro m hm
      obtain ⟨value, hvalue⟩ : ∃ value, t.snapshot.find? m.toText = some value := by
        rw [← OrderedMap.mem_keys_iff, (keys_snapshot t).mem_iff, List.mem_dedup]
        exact List.mem_map_of_mem (Registry.mem_metrics.2 hm)
      obtain ⟨n, htext, hn⟩ := find?_snapshot h hvalue
      have hreg : t.registry.contains n = true := by
        obtain ⟨g, hg, _⟩ := Option.map_eq_some_iff.1 hn
        exact Option.isSome_iff_exists.2 ⟨g, hg⟩
      obtain rfl : n = m := List.inj_on_of_nodup_map hnodup (Registry.mem_metrics.2 hreg)
        (Registry.mem_metrics.2 hm) htext
      rw [hvalue, hn]

/-- After any requests, each entry of a snapshot shows one of the metrics with its text, and each
text of a metric has an entry. The snapshot shows every metric exactly if the texts of the
registered metrics differ; if their names are plain, exactly if no two of them differ only in
their descriptions. -/
theorem snapshot_run (qs : List RegistryRequest) (ls : List Listener) :
    let t : Tracker := { registry := ({} : Registry).run qs, listeners := ls }
    (∀ text value, t.snapshot.find? text = some value →
      ∃ m, m.toText = text ∧ t.value? m = some value) ∧
    (t.snapshot.entries.map Prod.fst).Perm (t.registry.metrics.map MetricName.toText).dedup ∧
    (t.ShowsEvery ↔ ∀ m ∈ t.registry.metrics, ∀ n ∈ t.registry.metrics,
      m.toText = n.toText → m = n) ∧
    ((∀ m ∈ t.registry.metrics, m.Plain) →
      (t.ShowsEvery ↔ ∀ m ∈ t.registry.metrics, ∀ n ∈ t.registry.metrics,
        m.group = n.group → m.name = n.name → m.tags = n.tags →
          m.description = n.description)) := by
  intro t
  have hdistinct : t.registry.Distinct := Registry.distinct_run Registry.distinct_empty qs
  have hshows : t.ShowsEvery ↔ ∀ m ∈ t.registry.metrics, ∀ n ∈ t.registry.metrics,
      m.toText = n.toText → m = n := by
    rw [showsEvery_iff hdistinct, List.nodup_map_iff_inj_on hdistinct]
  refine ⟨fun text value => find?_snapshot hdistinct, keys_snapshot t, hshows, ?_⟩
  intro hplain
  rw [hshows]
  constructor
  · intro hinj m hm n hn hgroup hname htags
    have htext := (MetricName.toText_eq_iff (hplain m hm) (hplain n hn)).2 ⟨hgroup, hname, htags⟩
    rw [hinj m hm n hn htext]
  · intro hdescription m hm n hn htext
    obtain ⟨hgroup, hname, htags⟩ :=
      (MetricName.toText_eq_iff (hplain m hm) (hplain n hn)).1 htext
    exact MetricName.eq_of_toText (hplain m hm) (hplain n hn) htext
      (hdescription m hm n hn hgroup hname htags)

/-- Two metrics that differ in their descriptions share an entry. -/
theorem snapshot_misses_description :
    let t : Tracker := {
      registry := ({} : Registry).run [
        .add ⟨"m", "g", "", .empty⟩ (.constant "v"),
        .add ⟨"m", "g", "d", .empty⟩ (.constant "v")] }
    t.registry.size = 2 ∧ t.snapshot.entries = [("g:m", "v")] ∧ ¬ t.ShowsEvery := by
  refine ⟨by decide, by decide, ?_⟩
  intro hshows
  have hsize := hshows.size
  revert hsize
  decide

end Tracker

end StandingQuery

import StandingQuery.Proofs.Corpus.Verdicts
import StandingQuery.Proofs.Plan.Persistence
import StandingQuery.Proofs.Plan.TopologyText

/-!
# Frozen topologies

A historical plan is verified by comparing the text of its topology with the text that was
frozen with it, both without the white space at their ends. The text of a legible query tells
the query's id and plan, and so the comparison misses no change between legible queries whose
text ends in a visible character. Between others it can: a list of one item that holds the
separator has the text of a list of two.

* `PlanDocument.topologyText_inj`: the text of a document tells its queries.
* `PlanTopology.endsInLine_toText`: only a timestamp column can end a text in white space.
* `HistoricalPlan.topology_tells_queries`: what equal texts and a verified plan tell.
* `HistoricalPlan.topology_misses_items`: lists that a text does not tell apart.
-/

namespace StandingQuery

/-! ## Several queries -/

/-- What a query's runtime is built from, apart from the configuration. -/
def QueryPlan.runtime (q : QueryPlan) : String × PlanNode := (q.id, q.physicalPlan)

/-- The texts of queries after the first, each after an empty line. -/
def moreTexts (configs : ConfigSnapshot) (qs : List QueryPlan) : List Char :=
  qs.flatMap fun q => '\n' :: (PlanTopology.ofQuery q configs).toText.toList

theorem moreTexts_eq (configs : ConfigSnapshot) {qs : List QueryPlan} (hne : qs ≠ []) :
    moreTexts configs qs = '\n' ::
      ("\n".intercalate (qs.map fun q => (PlanTopology.ofQuery q configs).toText)).toList := by
  induction qs with
  | nil => exact absurd rfl hne
  | cons q qs ih =>
    cases qs with
    | nil => simp [moreTexts]
    | cons r qs =>
      have hrest := ih (List.cons_ne_nil r qs)
      rw [moreTexts, List.flatMap_cons, ← moreTexts, hrest]
      simp

theorem head?_moreTexts (configs : ConfigSnapshot) (qs : List QueryPlan) :
    (moreTexts configs qs).head? ≠ some ' ' := by
  cases qs <;> simp [moreTexts]

theorem moreTexts_inj {configs : ConfigSnapshot} {ps qs : List QueryPlan}
    (hp : ∀ p ∈ ps, p.Legible) (hq : ∀ q ∈ qs, q.Legible)
    (h : moreTexts configs ps = moreTexts configs qs) :
    ps.map QueryPlan.runtime = qs.map QueryPlan.runtime := by
  induction ps generalizing qs with
  | nil =>
    cases qs with
    | nil => rfl
    | cons q qs => simp [moreTexts] at h
  | cons p ps ih =>
    cases qs with
    | nil => simp [moreTexts] at h
    | cons q qs =>
      obtain ⟨hp, hps⟩ := List.forall_mem_cons.1 hp
      obtain ⟨hq, hqs⟩ := List.forall_mem_cons.1 hq
      simp only [moreTexts, List.flatMap_cons, List.cons_append, List.cons.injEq, true_and] at h
      obtain ⟨⟨hid, hplan⟩, hrest⟩ := PlanTopology.toText_append_inj_of_legible hp hq
        (head?_moreTexts configs ps) (head?_moreTexts configs qs) h
      rw [List.map_cons, List.map_cons, ih hps hqs hrest, QueryPlan.runtime, QueryPlan.runtime,
        hid, hplan]

namespace PlanDocument

theorem topologyText_inj {d e : PlanDocument} (hconfigs : d.configs = e.configs)
    (hd : ∀ q ∈ d.queries, q.Legible) (he : ∀ q ∈ e.queries, q.Legible)
    (hdnil : d.queries ≠ []) (henil : e.queries ≠ []) (h : d.topologyText = e.topologyText) :
    d.queries.map QueryPlan.runtime = e.queries.map QueryPlan.runtime := by
  have hmore : moreTexts d.configs d.queries = moreTexts d.configs e.queries := by
    rw [moreTexts_eq d.configs hdnil, moreTexts_eq d.configs henil, ← topologyText, h,
      topologyText, hconfigs]
  exact moreTexts_inj hd he hmore

end PlanDocument

/-! ## Ends of texts -/

/-- A text ends in a character that is not white space. -/
def EndsVisibly (cs : List Char) : Prop := ∃ init c, cs = init ++ [c] ∧ Text.isBlank c = false

/-- A text ends in a line that ends in a character that is not white space. -/
def EndsInLine (cs : List Char) : Prop := ∃ init, cs = init ++ ['\n'] ∧ EndsVisibly init

theorem endsVisibly_of_getLast? {cs : List Char} {c : Char} (h : cs.getLast? = some c)
    (hc : Text.isBlank c = false) : EndsVisibly cs := by
  obtain ⟨init, rfl⟩ := List.getLast?_eq_some_iff.1 h
  exact ⟨init, c, rfl, hc⟩

theorem EndsVisibly.append {cs : List Char} (h : EndsVisibly cs) (before : List Char) :
    EndsVisibly (before ++ cs) := by
  obtain ⟨init, c, rfl, hc⟩ := h
  exact ⟨before ++ init, c, (List.append_assoc before init [c]).symm, hc⟩

theorem EndsInLine.append {cs : List Char} (h : EndsInLine cs) (before : List Char) :
    EndsInLine (before ++ cs) := by
  obtain ⟨init, rfl, hinit⟩ := h
  exact ⟨before ++ init, (List.append_assoc before init ['\n']).symm, hinit.append before⟩

/-- Nothing but the last line break is trimmed. -/
theorem EndsInLine.trimEnd {cs : List Char} (h : EndsInLine cs) :
    cs = Text.trimEnd cs ++ ['\n'] ∧ Text.trimEnd cs ≠ [] := by
  obtain ⟨_, rfl, init, c, rfl, hc⟩ := h
  have hbreak : Text.isBlank '\n' = true := by decide
  have htrim : Text.trimEnd ((init ++ [c]) ++ ['\n']) = init ++ [c] := by
    simp [Text.trimEnd, hbreak, hc]
  rw [htrim]
  exact ⟨rfl, by simp⟩

/-- A joined text ends like its last item. -/
theorem intercalate_end {P : List Char → Prop}
    (happend : ∀ {cs : List Char}, P cs → ∀ before, P (before ++ cs)) (sep : List Char)
    {xs : List (List Char)} (hne : xs ≠ []) (hx : ∀ x ∈ xs, P x) : P (sep.intercalate xs) := by
  induction xs with
  | nil => exact absurd rfl hne
  | cons x xs ih =>
    cases xs with
    | nil => simpa using hx x List.mem_cons_self
    | cons y ys =>
      rw [List.intercalate_cons_cons]
      exact happend (ih (List.cons_ne_nil y ys) fun z hz => hx z (List.mem_cons_of_mem x hz)) _

theorem SqlType.endsVisibly_render (t : SqlType) : EndsVisibly t.render := by
  cases t with
  | simple t => cases t <;> exact endsVisibly_of_getLast? rfl (by decide)
  | decimal p s =>
    have hclose : EndsVisibly [')'] := ⟨[], ')', rfl, by decide⟩
    rw [← List.append_nil (decimal p s).render, SchemaReader.render_decimal]
    exact (((hclose.append _).append [',', ' ']).append _).append ['('] |>.append _
  | array t => exact ⟨_, '>', rfl, by decide⟩
  | map k v => exact ⟨_, '>', rfl, by decide⟩
  | struct fields => exact ⟨_, '>', rfl, by decide⟩

theorem LogicalSchema.endsVisibly_render (s : LogicalSchema) : EndsVisibly s.render := by
  refine intercalate_end EndsVisibly.append _ (by simpa using s.columns_ne_nil) ?_
  rintro _ hx
  obtain ⟨c, _, rfl⟩ := List.mem_map.1 hx
  rw [Column.render]
  cases c.isKey with
  | true => exact (endsVisibly_of_getLast? (by rfl) (by decide)).append _
  | false =>
    rw [if_neg Bool.false_ne_true, List.append_nil]
    exact (c.type.endsVisibly_render.append [' ']).append (renderName c.name)

namespace PlanTopology

theorem endsInLine_attributeLine (depth : Nat) {a : String × String}
    (ha : EndsVisibly a.2.toList) : EndsInLine (attributeLine depth a) := by
  refine ⟨List.replicate (2 * depth + 5) ' ' ++ (a.1.toList ++ ':' :: ' ' :: a.2.toList), ?_, ?_⟩
  · simp [attributeLine]
  · exact ((ha.append [':', ' ']).append a.1.toList).append _

theorem endsVisibly_changelog (applicationId : String) (context : QueryContext)
    (suffix : String) : EndsVisibly (changelog applicationId context suffix).toList := by
  rw [changelog, String.toList_append]
  exact (endsVisibly_of_getLast? (by rfl) (by decide)).append _

/-- The last attribute of a source is its changelog topic, its timestamp column or its schema. -/
theorem getLast?_sourceAttributes (applicationId : String) {s : TopicSource}
    (h : ∀ t ∈ s.timestamp, EndsVisibly t.toList) :
    ∃ a, (sourceAttributes applicationId s).getLast? = some a ∧ EndsVisibly a.2.toList := by
  have hschema : EndsVisibly s.schema.toText.toList := by
    rw [LogicalSchema.toText, String.toList_ofList]
    exact s.schema.endsVisibly_render
  have hchangelog := endsVisibly_changelog applicationId s.context
  unfold sourceAttributes
  cases s.kind with
  | stream =>
    cases htimestamp : s.timestamp with
    | none => exact ⟨("schema", s.schema.toText), rfl, hschema⟩
    | some t => exact ⟨("timestamp", t), rfl, h t htimestamp⟩
  | table =>
    refine ⟨("changelog", changelog applicationId s.context "Reduce"), ?_, hchangelog _⟩
    rw [List.getLast?_append]
    rfl
  | materialized storeFormats =>
    refine ⟨("changelog", changelog applicationId s.context "Materialized"), ?_, hchangelog _⟩
    rw [List.getLast?_append]
    rfl

end PlanTopology

/-- Where the text of a query ends in a timestamp column, its name ends visibly. -/
def QueryPlan.EndsVisibly (q : QueryPlan) : Prop :=
  ∀ s, q.physicalPlan.leaf = .source s → ∀ t ∈ s.timestamp, StandingQuery.EndsVisibly t.toList

namespace PlanTopology

theorem endsInLine_chainLines (applicationId : String) (depth : Nat) {n : PlanNode}
    (h : ∀ s, n.leaf = .source s → ∀ t ∈ s.timestamp, EndsVisibly t.toList) :
    EndsInLine (chainLines applicationId depth n) := by
  induction n generalizing depth with
  | source s =>
    obtain ⟨a, ha, hvisible⟩ := getLast?_sourceAttributes applicationId (h s rfl)
    obtain ⟨init, hinit⟩ := List.getLast?_eq_some_iff.1 ha
    rw [chainLines_source, nodeLines, ← List.flatMap_append, ← PlanNode.attributes_eq, attributes,
      hinit, List.flatMap_append, List.flatMap_singleton]
    exact ((endsInLine_attributeLine depth hvisible).append _).append _
  | step op context input ih =>
    rw [chainLines_step]
    exact (ih (depth + 1) h).append _

theorem endsInLine_toText {q : QueryPlan} (configs : ConfigSnapshot) (h : q.EndsVisibly) :
    EndsInLine (ofQuery q configs).toText.toList := by
  rw [toList_toText]
  have hlines := (endsInLine_chainLines (configs.applicationId q.id) 0 h).append
    ((configs.applicationId q.id).toList ++ [')', '\n'])
  have hheader := (hlines.append [' ', '(']).append q.id.toList
  simpa using hheader.append "Query ".toList

end PlanTopology

namespace PlanDocument

/-- The text of a document with a query is its trimmed text and a line break. -/
theorem topologyText_eq_trimEnd {d : PlanDocument} (hne : d.queries ≠ [])
    (h : ∀ q ∈ d.queries, q.EndsVisibly) :
    d.topologyText.toList = Text.trimEnd d.topologyText.toList ++ ['\n'] ∧
      Text.trimEnd d.topologyText.toList ≠ [] := by
  apply EndsInLine.trimEnd
  rw [topologyText, String.toList_intercalate]
  refine intercalate_end EndsInLine.append _ (by simpa using hne) ?_
  simp only [List.mem_map, forall_exists_index, and_imp, forall_apply_eq_imp_iff₂]
  exact fun q hq => PlanTopology.endsInLine_toText d.configs (h q hq)

/-- Trimmed texts tell queries apart as well as whole texts do. -/
theorem runtime_eq_of_trimmed {d e : PlanDocument} (hconfigs : d.configs = e.configs)
    (hd : ∀ q ∈ d.queries, q.Legible ∧ q.EndsVisibly)
    (he : ∀ q ∈ e.queries, q.Legible ∧ q.EndsVisibly)
    (h : HistoricalPlan.trimmed d.topologyText = HistoricalPlan.trimmed e.topologyText) :
    d.queries.map QueryPlan.runtime = e.queries.map QueryPlan.runtime := by
  have htrim : Text.trimEnd d.topologyText.toList = Text.trimEnd e.topologyText.toList :=
    String.ofList_injective h
  have hnil : ∀ x : PlanDocument, x.queries = [] → Text.trimEnd x.topologyText.toList = [] := by
    intro x hx
    rw [topologyText, hx]
    rfl
  have hdend := fun hne => topologyText_eq_trimEnd hne fun q hq => (hd q hq).2
  have heend := fun hne => topologyText_eq_trimEnd hne fun q hq => (he q hq).2
  by_cases hdnil : d.queries = []
  · by_cases henil : e.queries = []
    · rw [hdnil, henil]
    · exact absurd (htrim.symm.trans (hnil d hdnil)) (heend henil).2
  · by_cases henil : e.queries = []
    · exact absurd (htrim.trans (hnil e henil)) (hdend hdnil).2
    · have htext : d.topologyText = e.topologyText := by
        apply String.toList_inj.1
        rw [(hdend hdnil).1, (heend henil).1, htrim]
      exact topologyText_inj hconfigs (fun q hq => (hd q hq).1) (fun q hq => (he q hq).1) hdnil
        henil htext

end PlanDocument

namespace HistoricalPlan

/-- A plan is verified if it passes all four stages. -/
theorem verify_eq_ok_iff {h : HistoricalPlan} {d : PlanDocument} :
    h.verify = .ok d ↔ PlanDocument.decode h.plan = .ok d ∧
      (∃ shape, PlanShape.ofDocument d = .ok shape ∧ shape.isReadableBy h.version = true) ∧
        trimmed d.topologyText = trimmed h.topology := by
  constructor
  · intro hverify
    have hverdict := h.verdict_verify
    rw [hverify] at hverdict
    cases hverdict with
    | unchanged hread hknown hexpected hactual =>
      obtain ⟨shape, hshape, hrows⟩ := PlanShape.exists_ofDocument d
      have hsame := (PlanDocument.rendersTo_iff.1 hactual).trans
        (TrimsTo.iff_trimmed.1 hexpected).symm
      exact ⟨hread, ⟨shape, hshape, PlanShape.isReadableBy_of_uses hrows hknown⟩, hsame⟩
  · rintro ⟨hread, ⟨shape, hshape, hversion⟩, hsame⟩
    rw [verify_of_isReadableBy hread hshape hversion, if_pos hsame]

/-- Under one configuration, legible queries with the same text have the same id and the same
plan; and where a plan is verified against the topology frozen from another one, the two have the
same queries. -/
theorem topology_tells_queries (configs : ConfigSnapshot) :
    (∀ p q : QueryPlan, p.Legible → q.Legible →
      ((PlanTopology.ofQuery p configs).toText = (PlanTopology.ofQuery q configs).toText ↔
        p.id = q.id ∧ p.physicalPlan = q.physicalPlan)) ∧
    ∀ (h : HistoricalPlan) (d e : PlanDocument), d.configs = configs → e.configs = configs →
      h.verify = .ok d → h.topology = e.topologyText →
        (∀ q ∈ d.queries, q.Legible ∧ q.EndsVisibly) →
          (∀ q ∈ e.queries, q.Legible ∧ q.EndsVisibly) →
            d.queries.map QueryPlan.runtime = e.queries.map QueryPlan.runtime := by
  constructor
  · intro p q hp hq
    constructor
    · intro htext
      have hlines := congrArg (fun text => text.toList ++ []) htext
      exact (PlanTopology.toText_append_inj_of_legible hp hq (by simp) (by simp) hlines).1
    · rintro ⟨hid, hplan⟩
      rw [PlanTopology.ofQuery, PlanTopology.ofQuery, hid, hplan]
  · intro h d e hdconfigs heconfigs hverify htopology hd he
    obtain ⟨-, -, htrim⟩ := verify_eq_ok_iff.1 hverify
    exact PlanDocument.runtime_eq_of_trimmed (hdconfigs.trans heconfigs.symm) hd he
      (by rw [htrim, htopology])

end HistoricalPlan

/-- A query that selects the given expressions from the topic `a`. -/
def selectQuery (expressions : List String) : QueryPlan where
  sources := ["A"]
  sink := "S"
  id := "q"
  physicalPlan :=
    .step (.sink .stream { formats := ⟨"KAFKA", "JSON"⟩, topic := "s", timestamp := none })
      ⟨"Sink"⟩ <|
    .step (.select .stream ["ID"] expressions) ⟨"Project"⟩ <|
    .source {
      kind := .stream, context := ⟨"Source"⟩, topic := "a", formats := ⟨"KAFKA", "JSON"⟩
      timestamp := none, schema := ⟨[⟨"ID", .simple .integer, true⟩], rfl⟩ }

/-- The document of a statement that starts this query. -/
def selectDocument (expressions : List String) : PlanDocument where
  configs := ConfigSnapshot.empty
  plan := [{
    statement := "CREATE STREAM S AS SELECT * FROM A;"
    command := {
      side := .stream, name := "S", schema := ⟨[⟨"ID", .simple .integer, true⟩], rfl⟩
      topic := "s", formats := ⟨"KAFKA", "JSON"⟩, orReplace := false, timestamp := none }
    query := some (selectQuery expressions) }]

theorem decode_selectDocument (expressions : List String) :
    PlanDocument.decode (selectDocument expressions).encode = .ok (selectDocument expressions) := by
  apply PlanDocument.decode_encode_eq_ok_iff.2
  have hschema : LogicalSchema.WithinLimit ⟨[⟨"ID", .simple .integer, true⟩], rfl⟩ := by
    intro c hc
    obtain rfl : c = ⟨"ID", .simple .integer, true⟩ := List.mem_singleton.1 hc
    decide
  refine ⟨⟨by rfl, ?_, ?_⟩, rfl⟩
  · intro e he
    obtain rfl := List.mem_singleton.1 he
    refine ⟨hschema, ?_⟩
    rintro q ⟨⟩
    exact hschema
  · intro q hq
    obtain rfl : q = selectQuery expressions := List.mem_singleton.1 hq
    exact Nat.le_of_ble_eq_true rfl

namespace HistoricalPlan

/-- A plan with one list of expressions next to the topology of another. -/
def selectPlan (expressions frozen : List String) : HistoricalPlan where
  name := "select"
  version := ⟨1, 0, 0⟩
  plan := (selectDocument expressions).encode
  topology := (selectDocument frozen).topologyText

theorem verify_selectPlan {expressions frozen : List String}
    (h : trimmed (selectDocument expressions).topologyText =
      trimmed (selectDocument frozen).topologyText) :
    (selectPlan expressions frozen).verify = .ok (selectDocument expressions) := by
  have hdecode := decode_selectDocument expressions
  have htags : (selectDocument expressions).tags = (selectDocument []).tags := rfl
  have hshape : PlanShape.ofDocument (selectDocument expressions) =
      .ok ⟨(selectDocument []).tags.filterMap Tag.lookup⟩ := by
    rw [PlanShape.ofDocument, htags]
    decide +kernel
  simp only [verify_eq_ok_iff, selectPlan]
  exact ⟨hdecode, ⟨_, hshape, by decide +kernel⟩, h⟩

theorem topology_tells_select :
    (PlanTopology.ofQuery (selectQuery ["B", "C"]) .empty).toText ≠
        (PlanTopology.ofQuery (selectQuery ["B"]) .empty).toText ∧
      (selectPlan ["B", "C"] ["B", "C"]).verify = .ok (selectDocument ["B", "C"]) ∧
      (selectDocument ["B", "C"]).queries.map QueryPlan.runtime =
        (selectDocument ["B", "C"]).queries.map QueryPlan.runtime := by
  have hlegible : (selectQuery ["B", "C"]).Legible ∧ (selectQuery ["B"]).Legible := by
    constructor <;> decide +kernel
  have hverify : (selectPlan ["B", "C"] ["B", "C"]).verify = .ok (selectDocument ["B", "C"]) :=
    verify_selectPlan rfl
  have hqueries : ∀ q ∈ (selectDocument ["B", "C"]).queries, q.Legible ∧ q.EndsVisibly := by
    intro q hq
    obtain rfl : q = selectQuery ["B", "C"] := List.mem_singleton.1 hq
    refine ⟨hlegible.1, ?_⟩
    rintro s ⟨⟩
    nofun
  constructor
  · intro htext
    have hplan := (((topology_tells_queries .empty).1 _ _ hlegible.1 hlegible.2).1 htext).2
    exact absurd hplan (by decide +kernel)
  · refine ⟨hverify, (topology_tells_queries .empty).2 _ _ _ rfl rfl hverify ?_ hqueries hqueries⟩
    simp only [selectPlan]

/-- One expression with a comma and a space in it has the text of two. -/
theorem topology_misses_items :
    (selectQuery ["B, C"]).validate = .ok () ∧ (selectQuery ["B", "C"]).validate = .ok () ∧
      (PlanTopology.ofQuery (selectQuery ["B, C"]) .empty).toText =
        (PlanTopology.ofQuery (selectQuery ["B", "C"]) .empty).toText ∧
      (selectQuery ["B, C"]).physicalPlan ≠ (selectQuery ["B", "C"]).physicalPlan ∧
      (selectPlan ["B, C"] ["B", "C"]).verify = .ok (selectDocument ["B, C"]) := by
  have htopology : PlanTopology.ofQuery (selectQuery ["B, C"]) .empty =
      PlanTopology.ofQuery (selectQuery ["B", "C"]) .empty := by decide +kernel
  have htext : (selectDocument ["B, C"]).topologyText =
      (selectDocument ["B", "C"]).topologyText :=
    congrArg (fun t => "\n".intercalate [PlanTopology.toText t]) htopology
  exact ⟨by rfl, by rfl, congrArg PlanTopology.toText htopology, by decide +kernel,
    verify_selectPlan (congrArg trimmed htext)⟩

end HistoricalPlan

end StandingQuery

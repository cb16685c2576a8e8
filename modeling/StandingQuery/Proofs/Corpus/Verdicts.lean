import Mathlib.Data.List.DropRight
import StandingQuery.Corpus.HistoricalPlan
import StandingQuery.Proofs.Plan.Persistence
import StandingQuery.Proofs.Plan.Shapes

/-!
# Verdicts on historical plans

Verifying a historical plan comes to one of four ends: the plan is not read, it uses a tag that
is newer than the version it stands for, its topology has changed, or it is what it was. The
other errors that verifying checks for do not occur, since every document has a shape, and what
has been read once is read again from its own text.

* `TrimsTo.iff_trimmed`: what is left of a text without the white space at its end.
* `HistoricalPlan.verify_eq_iff_verdict`: which end verifying comes to.
-/

namespace StandingQuery

/-! ## Texts to compare -/

/-- Of a text, this is left without the white space at its end: only white space is cut off, and no
more can be. -/
structure TrimsTo (text kept : String) : Prop where
  cut : ∃ blanks, text.toList = kept.toList ++ blanks ∧ ∀ c ∈ blanks, Text.isBlank c = true
  visible : ∀ c, kept.toList.getLast? = some c → Text.isBlank c = false

theorem TrimsTo.iff_trimmed {text kept : String} :
    TrimsTo text kept ↔ HistoricalPlan.trimmed text = kept := by
  have hkept : HistoricalPlan.trimmed text = kept ↔
      text.toList.rdropWhile Text.isBlank = kept.toList := by
    rw [← String.toList_inj, HistoricalPlan.trimmed, String.toList_ofList]
    rfl
  rw [hkept]
  constructor
  · rintro ⟨⟨blanks, htext, hblanks⟩, hvisible⟩
    have hcut : (kept.toList ++ blanks).rdropWhile Text.isBlank =
        kept.toList.rdropWhile Text.isBlank := by
      rw [List.rdropWhile, List.reverse_append,
        List.dropWhile_append_of_pos (by simpa using hblanks), List.rdropWhile]
    rw [htext, hcut, List.rdropWhile_eq_self_iff]
    intro hne
    rw [hvisible _ (List.getLast?_eq_some_getLast hne)]
    exact Bool.false_ne_true
  · intro h
    constructor
    · refine ⟨text.toList.rtakeWhile Text.isBlank, ?_, fun c hc => List.mem_rtakeWhile_imp hc⟩
      rw [← h, List.rdropWhile_append_rtakeWhile]
    · intro c hc
      rw [← h] at hc
      obtain ⟨hne, rfl⟩ := List.mem_getLast?_eq_getLast hc
      exact Bool.eq_false_of_not_eq_true (List.rdropWhile_last_not _ _ hne)

/-- White space after a text that ends in another character is all that is cut off. -/
theorem TrimsTo.append {before last blanks : String} {c : Char}
    (hlast : last.toList.getLast? = some c) (hc : Text.isBlank c = false)
    (hblanks : blanks.toList.all Text.isBlank = true) :
    TrimsTo (before ++ last ++ blanks) (before ++ last) := by
  refine ⟨⟨blanks.toList, String.toList_append, List.all_eq_true.1 hblanks⟩, ?_⟩
  intro c' hc'
  rw [String.toList_append, List.getLast?_append, hlast] at hc'
  cases hc'
  exact hc

/-- The text that is left of the topologies of all queries of a document, in its order and with a
line break between two. -/
def PlanDocument.RendersTo (d : PlanDocument) (text : String) : Prop :=
  TrimsTo
    ("\n".intercalate ((d.plan.filterMap PlanEntry.query).map fun q =>
      (PlanTopology.ofQuery q d.configs).toText))
    text

theorem PlanDocument.rendersTo_iff {d : PlanDocument} {text : String} :
    d.RendersTo text ↔ HistoricalPlan.trimmed d.topologyText = text :=
  TrimsTo.iff_trimmed

namespace HistoricalPlan

/-- What verifying a historical plan can come to. -/
inductive Verdict (h : HistoricalPlan) : Except CorpusError PlanDocument → Prop
  /-- The plan is not read. -/
  | unreadable {e : PlanError} (hread : PlanDocument.decode h.plan = .error e) :
      Verdict h (.error (.plan h.name h.version.toText e))
  /-- The newest row that the document uses is newer than the version. -/
  | tooNew {d : PlanDocument} {newest : Tag.Row} (hread : PlanDocument.decode h.plan = .ok d)
      (huses : d.Uses newest) (hnewest : ∀ row, d.Uses row → row.since ≤ newest.since)
      (hlate : h.version < newest.since) :
      Verdict h (.error (.versionTooOld h.name h.version.toText newest.since.toText))
  /-- The version has all rows, but the document has another topology. -/
  | changed {d : PlanDocument} {expected actual : String}
      (hread : PlanDocument.decode h.plan = .ok d)
      (hknown : ∀ row, d.Uses row → row.since ≤ h.version)
      (hexpected : TrimsTo h.topology expected) (hactual : d.RendersTo actual)
      (hchanged : actual ≠ expected) :
      Verdict h (.error (.topologyMismatch h.name h.version.toText expected actual))
  /-- The version has all rows, and the document has the topology that it had. -/
  | unchanged {d : PlanDocument} {same : String} (hread : PlanDocument.decode h.plan = .ok d)
      (hknown : ∀ row, d.Uses row → row.since ≤ h.version)
      (hexpected : TrimsTo h.topology same) (hactual : d.RendersTo same) : Verdict h (.ok d)

variable {h : HistoricalPlan} {d : PlanDocument} {shape : PlanShape}

/-! ## Verifying what is read -/

/-- If the version cannot read the plan, the topology is not looked at. -/
theorem verify_of_lt (hread : PlanDocument.decode h.plan = .ok d)
    (hshape : PlanShape.ofDocument d = .ok shape) (hlate : h.version < shape.minimumVersion) :
    h.verify =
      .error (.versionTooOld h.name h.version.toText shape.minimumVersion.toText) := by
  simp only [verify, hread, hshape, PlanShape.isReadableBy_eq_false_iff.2 hlate, Except.mapError,
    bind, Except.bind, Bool.not_false, if_true]

/-- A plan that the version can read is what it was if its topology is. -/
theorem verify_of_isReadableBy (hread : PlanDocument.decode h.plan = .ok d)
    (hshape : PlanShape.ofDocument d = .ok shape) (hversion : shape.isReadableBy h.version = true) :
    h.verify =
      if trimmed d.topologyText = trimmed h.topology then .ok d
      else .error (.topologyMismatch h.name h.version.toText (trimmed h.topology)
        (trimmed d.topologyText)) := by
  have hagain : PlanDocument.decode d.encode = .ok d :=
    PlanDocument.decode_encode_eq_ok_iff.2 ⟨PlanDocument.persistable_of_decode hread, rfl⟩
  simp only [verify, hread, hshape, hversion, hagain, Except.mapError, bind, Except.bind, pure,
    Except.pure, Bool.not_true, Bool.false_eq_true, ne_eq, not_true, if_false, ite_not]

/-! ## Which end it is -/

/-- Verifying comes to one of the four ends. -/
theorem verdict_verify (h : HistoricalPlan) : h.Verdict h.verify := by
  cases hread : PlanDocument.decode h.plan with
  | error e =>
    rw [verify_of_decode_error hread]
    exact .unreadable hread
  | ok d =>
    obtain ⟨shape, hshape, hrows⟩ := PlanShape.exists_ofDocument d
    cases hversion : shape.isReadableBy h.version with
    | false =>
      have hlate := PlanShape.isReadableBy_eq_false_iff.1 hversion
      obtain ⟨newest, hnewest, hsince⟩ := PlanShape.minimumVersion_mem hlate
      rw [verify_of_lt hread hshape hlate, hsince]
      refine .tooNew hread ((hrows newest).1 hnewest) ?_ (hsince ▸ hlate)
      intro row hrow
      exact hsince ▸ PlanShape.minimumVersion_le_iff.1 le_rfl row ((hrows row).2 hrow)
    | true =>
      have hknown : ∀ row, d.Uses row → row.since ≤ h.version := by
        intro row hrow
        exact PlanShape.isReadableBy_iff.1 hversion row ((hrows row).2 hrow)
      rw [verify_of_isReadableBy hread hshape hversion]
      have hactual := PlanDocument.rendersTo_iff.2 (Eq.refl (trimmed d.topologyText))
      have hexpected := TrimsTo.iff_trimmed.2 (Eq.refl (trimmed h.topology))
      split
      · rename_i hsame
        exact .unchanged hread hknown hexpected (hsame ▸ hactual)
      · rename_i hchanged
        exact .changed hread hknown hexpected hactual hchanged

/-- The end that verifying comes to is the one whose conditions hold. -/
theorem Verdict.verify_eq {r : Except CorpusError PlanDocument} (hr : h.Verdict r) :
    h.verify = r := by
  cases hr with
  | unreadable hread => exact verify_of_decode_error hread
  | @tooNew d newest hread huses hnewest hlate =>
    obtain ⟨shape, hshape, hrows⟩ := PlanShape.exists_ofDocument d
    have hfirst := PlanShape.minimumVersion_of_uses hrows huses hnewest
    rw [verify_of_lt hread hshape (hfirst ▸ hlate), hfirst]
  | @changed d expected actual hread hknown hexpected hactual hchanged =>
    obtain ⟨shape, hshape, hrows⟩ := PlanShape.exists_ofDocument d
    have hversion := PlanShape.isReadableBy_of_uses hrows hknown
    obtain rfl := PlanDocument.rendersTo_iff.1 hactual
    obtain rfl := TrimsTo.iff_trimmed.1 hexpected
    rw [verify_of_isReadableBy hread hshape hversion, if_neg hchanged]
  | @unchanged d same hread hknown hexpected hactual =>
    obtain ⟨shape, hshape, hrows⟩ := PlanShape.exists_ofDocument d
    have hversion := PlanShape.isReadableBy_of_uses hrows hknown
    obtain rfl := PlanDocument.rendersTo_iff.1 hactual
    have hsame := (TrimsTo.iff_trimmed.1 hexpected).symm
    rw [verify_of_isReadableBy hread hshape hversion, if_pos hsame]

/-- What verifying returns is told by the verdict. A document that does not survive being written
is never found, and the plan is never refused for its form once it has been read. -/
theorem verify_eq_iff_verdict (h : HistoricalPlan) :
    (∀ r, h.verify = r ↔ h.Verdict r) ∧
    (∀ name version, h.verify ≠ .error (.roundTrip name version)) ∧
    ∀ d, PlanDocument.decode h.plan = .ok d →
      ∀ name version e, h.verify ≠ .error (.plan name version e) := by
  have hverdict : ∀ r, h.verify = r → h.Verdict r := by
    rintro r rfl
    exact h.verdict_verify
  refine ⟨?_, ?_, ?_⟩
  · intro r
    exact ⟨hverdict r, Verdict.verify_eq⟩
  · intro name version hr
    cases hverdict _ hr
  · intro d hd name version e hr
    cases hverdict _ hr with
    | unreadable hread =>
      rw [hd] at hread
      cases hread

/-- The topology of the first of two copies. -/
def copyTopology : String :=
  "Query q (_confluent-ksql-default_query_q)\n > streamSinkV1 [b]\n     topic: b\n" ++
  "     formats: KAFKA/JSON\n   > streamSourceV1 [Source]\n       topic: a\n" ++
  "       formats: KAFKA/JSON\n       schema: `LINE` STRING"

/-- The topologies of both copies. -/
def relayTopology : String := copyTopology ++
  "\n\nQuery r (_confluent-ksql-default_query_r)\n > streamSinkV1 [c]\n     topic: c\n" ++
  "     formats: KAFKA/JSON\n   > streamSourceV1 [Source]\n       topic: b\n" ++
  "       formats: KAFKA/JSON\n       schema: `LINE` STRING"

theorem rendersTo_relayTopology : relayDocument.RendersTo relayTopology := by
  have htext : relayDocument.topologyText = relayTopology ++ "\n" := by decide +kernel
  have htrims : TrimsTo (relayTopology ++ "\n") relayTopology :=
    .append (c := 'G') (by decide) (by decide) (by decide)
  rw [← htext] at htrims
  exact htrims

/-- Two copies next to a topology. -/
def relayPlan (topology : String) : HistoricalPlan where
  name := "relay"
  version := ⟨1, 0, 0⟩
  plan := relayDocument.encode
  topology := topology

/-- Two copies are what they were if both of their topologies stand in order in the text that was
frozen with them, whatever white space follows there. Without the second one, the topology has
changed. -/
theorem verify_relay :
    (relayPlan (relayTopology ++ " \n\t")).verify = .ok relayDocument ∧
      (relayPlan (copyTopology ++ "\n")).verify =
        .error (.topologyMismatch "relay" "1.0.0" copyTopology relayTopology) := by
  have hread (topology : String) :
      PlanDocument.decode (relayPlan topology).plan = .ok relayDocument := by
    simp only [relayPlan, decode_relayDocument]
  have hknown : ∀ row, relayDocument.Uses row → row.since ≤ ⟨1, 0, 0⟩ := by
    have hall : ∀ row ∈ Tag.table, row.since ≤ ⟨1, 0, 0⟩ := by decide
    exact fun row hrow => hall row hrow.1
  constructor
  · have hexpected : TrimsTo (relayTopology ++ " \n\t") relayTopology :=
      .append (c := 'G') (by decide) (by decide) (by decide)
    exact ((verify_eq_iff_verdict _).1 _).2
      (.unchanged (hread _) hknown hexpected rendersTo_relayTopology)
  · have hexpected : TrimsTo (copyTopology ++ "\n") copyTopology :=
      .append (c := 'G') (by decide) (by decide) (by decide)
    exact ((verify_eq_iff_verdict _).1 _).2
      (.changed (hread _) hknown hexpected rendersTo_relayTopology (by decide +kernel))

/-- A version from before all tags reads no plan, and the topology does not matter then. -/
example : (⟨"n", ⟨0, 1, 0⟩, indexedText, ""⟩ : HistoricalPlan).verify =
    .error (.versionTooOld "n" "0.1.0" "0.10.0") := by
  decide +kernel

end HistoricalPlan

end StandingQuery

import Mathlib.Data.List.Infix
import StandingQuery.Proofs.Plan.ChangelogTopics
import StandingQuery.Proofs.Schema.PrintedSchemas

/-!
# What the text of a topology tells

The text of a topology has a line for the query, a line for each node and a line for each of
its attributes. Where no id, context or setting has a line break in it, the text is taken apart
from its beginning: the id, then for each node its kind, its context and its settings. Changelog
topics hold the configuration, in which anything may stand, but are known once the id, the kind
and the context are. What the settings leave open is where a key format ends and where the items
of a list do.

* `PlanTopology.toText_append_inj`: the text tells the id and the listing of the nodes.
* `PlanNode.eq_of_listing`: the listing tells the plan, if formats and lists are plain.
* `PlanTopology.toText_append_inj_of_legible`: the text tells the id and the plan.
-/

namespace StandingQuery

/-! ## Separators -/

section

variable {a b : Char} {xs ys zs s t : List Char}

theorem eq_nil_of_pair_append (hab : a ≠ b) (hz : ¬ [a, b] <:+: xs ++ zs)
    (h : a :: b :: s = zs ++ a :: b :: t) : zs = [] := by
  cases zs with
  | nil => rfl
  | cons z zs =>
    cases zs with
    | nil =>
      cases h
      exact absurd rfl hab
    | cons z' zs =>
      cases h
      exact absurd ⟨xs, zs, by simp⟩ hz

/-- A text is split in only one way where a separator of two different characters first
occurs. -/
theorem append_pair_inj (hab : a ≠ b) (hx : ¬ [a, b] <:+: xs) (hy : ¬ [a, b] <:+: ys)
    (h : xs ++ a :: b :: s = ys ++ a :: b :: t) : xs = ys ∧ s = t := by
  rcases List.append_eq_append_iff.1 h with ⟨zs, rfl, hz⟩ | ⟨zs, rfl, hz⟩
  · cases eq_nil_of_pair_append hab hy hz
    cases hz
    exact ⟨(List.append_nil xs).symm, rfl⟩
  · cases eq_nil_of_pair_append hab hx hz
    cases hz
    exact ⟨List.append_nil ys, rfl⟩

end

/-- Lists of items that do not hold the separator can be told from their text. -/
theorem intercalate_cons_inj {x y : List Char} {xs ys : List (List Char)}
    (hx : ∀ item ∈ x :: xs, ¬ [',', ' '] <:+: item)
    (hy : ∀ item ∈ y :: ys, ¬ [',', ' '] <:+: item)
    (h : [',', ' '].intercalate (x :: xs) = [',', ' '].intercalate (y :: ys)) :
    x :: xs = y :: ys := by
  induction xs generalizing x y ys with
  | nil =>
    cases ys with
    | nil => simpa using h
    | cons y' ys =>
      rw [List.intercalate_singleton, List.intercalate_cons_cons] at h
      exact absurd ⟨y, _, h.symm⟩ (hx x List.mem_cons_self)
  | cons x' xs ih =>
    cases ys with
    | nil =>
      rw [List.intercalate_singleton, List.intercalate_cons_cons] at h
      exact absurd ⟨x, _, h⟩ (hy y List.mem_cons_self)
    | cons y' ys =>
      rw [List.intercalate_cons_cons, List.intercalate_cons_cons, List.append_assoc,
        List.append_assoc] at h
      obtain ⟨hhead, htail⟩ := append_pair_inj (by decide) (hx x List.mem_cons_self)
        (hy y List.mem_cons_self) h
      rw [hhead, ih (fun i hi => hx i (List.mem_cons_of_mem x hi))
        (fun i hi => hy i (List.mem_cons_of_mem y hi)) htail]

theorem eq_singleton_of_intercalate {x : String} {xs : List String}
    (h : [',', ' '].intercalate ((x :: xs).map String.toList) = []) : x :: xs = [""] := by
  cases xs with
  | nil => simpa using h
  | cons y ys =>
    rw [List.map_cons, List.map_cons, List.intercalate_cons_cons] at h
    simp at h

/-! ## Values -/

theorem Formats.toText_inj {f g : Formats} (hf : '/' ∉ f.key.toList) (hg : '/' ∉ g.key.toList)
    (h : f.toText = g.toText) : f = g := by
  have hlist := congrArg String.toList h
  simp only [toText, String.append_assoc, String.toList_append] at hlist
  obtain ⟨hkey, hvalue⟩ := Text.append_first_inj hf hg hlist
  cases f
  cases g
  cases String.toList_inj.1 hkey
  cases String.toList_inj.1 hvalue
  rfl

/-- The items of a list can be told from its text: none holds the separator, and the list is
not the one whose only item is empty, which has the text of the empty list. -/
structure PlainList (items : List String) : Prop where
  separate : ∀ item ∈ items, ¬ [',', ' '] <:+: item.toList
  ne_blank : items ≠ [""]

instance (items : List String) : Decidable (PlainList items) :=
  decidable_of_iff ((∀ item ∈ items, ¬ [',', ' '] <:+: item.toList) ∧ items ≠ [""])
    ⟨fun h => ⟨h.1, h.2⟩, fun h => ⟨h.separate, h.ne_blank⟩⟩

namespace PlanTopology

theorem listText_inj {items items' : List String} (hi : PlainList items)
    (hi' : PlainList items') (h : listText items = listText items') : items = items' := by
  rw [listText, listText, String.append_left_inj, String.append_right_inj] at h
  have hlist := congrArg String.toList h
  simp only [String.toList_intercalate] at hlist
  cases items with
  | nil =>
    cases items' with
    | nil => rfl
    | cons y ys => exact absurd (eq_singleton_of_intercalate hlist.symm) hi'.ne_blank
  | cons x xs =>
    cases items' with
    | nil => exact absurd (eq_singleton_of_intercalate hlist) hi.ne_blank
    | cons y ys =>
      have hitems : ∀ zs : List String, PlainList zs →
          ∀ z ∈ zs.map String.toList, ¬ [',', ' '] <:+: z := by
        intro zs hzs z hz
        obtain ⟨item, hitem, rfl⟩ := List.mem_map.1 hz
        exact hzs.separate item hitem
      have hcons := intercalate_cons_inj (hitems _ hi) (hitems _ hi') hlist
      exact List.map_injective_iff.2 (fun _ _ => String.toList_inj.1) hcons

end PlanTopology

/-! ## Nodes -/

namespace NodeKind

theorem tag_injective : Function.Injective tag := by
  intro j k h
  revert h
  cases j <;> cases k <;> decide

theorem space_notMem_tag (k : NodeKind) : ' ' ∉ k.tag.toList := by cases k <;> decide

/-- The role of the store that nodes of a kind have. -/
def storeRole? : NodeKind → Option StoreRole
  | tableSource => some .reduce
  | tableSourceV2 => some .materialized
  | streamAggregate => some .materialize
  | _ => none

end NodeKind

namespace PlanNode

theorem storeRole?_eq (n : PlanNode) : n.storeRole? = n.kind.storeRole? := by
  cases n with
  | source s =>
    obtain ⟨kind, _⟩ := s
    cases kind <;> rfl
  | step op =>
    cases op with
    | groupByKey | aggregate => rfl
    | filter side | select side | sink side => cases side <;> rfl

/-- The attributes of a node other than the changelog topic of its store. -/
def settings (n : PlanNode) : List (String × String) :=
  (PlanTopology.attributes "" n).filter fun a => !(a.1 == "changelog")

/-- The changelog topic of a store, as an attribute. -/
def changelogAttribute (applicationId : String) (kind : NodeKind) (context : QueryContext) :
    List (String × String) :=
  kind.storeRole?.toList.map fun role =>
    ("changelog", PlanTopology.changelog applicationId context role.suffix)

theorem attributes_eq (applicationId : String) (n : PlanNode) :
    PlanTopology.attributes applicationId n =
      n.settings ++ changelogAttribute applicationId n.kind n.context := by
  have hts : ∀ ts : Option String, (PlanTopology.timestampAttribute ts).filter
      (fun a => !(a.1 == "changelog")) = PlanTopology.timestampAttribute ts := by
    intro ts
    cases ts <;> simp [PlanTopology.timestampAttribute]
  rw [changelogAttribute, ← storeRole?_eq]
  cases n with
  | source s =>
    obtain ⟨kind, _⟩ := s
    cases kind <;>
      simp [settings, PlanTopology.attributes, PlanTopology.sourceAttributes, storeRole?, hts,
        StoreRole.suffix, context]
  | step op =>
    cases op <;>
      simp [settings, PlanTopology.attributes, PlanTopology.operatorAttributes, storeRole?, hts,
        StoreRole.suffix, context]

end PlanNode

/-- The name of an attribute ends at the first colon and is not that of a changelog topic. -/
def IsSettingName (name : String) : Prop := ':' ∉ name.toList ∧ name ≠ "changelog"

theorem PlanNode.isSettingName_of_mem {n : PlanNode} {a : String × String}
    (ha : a ∈ n.settings) : IsSettingName a.1 := by
  obtain ⟨hmem, hname⟩ := List.mem_filter.1 ha
  have hcolon : ∀ b ∈ PlanTopology.attributes "" n, ':' ∉ b.1.toList := by
    cases n with
    | source s =>
      obtain ⟨kind, _, _, _, timestamp, _⟩ := s
      cases kind <;> cases timestamp <;>
        simp [PlanTopology.attributes, PlanTopology.sourceAttributes,
          PlanTopology.timestampAttribute]
    | step op =>
      rcases op with _ | _ | _ | _ | ⟨_, _, _, timestamp⟩
      case sink =>
        cases timestamp <;>
          simp [PlanTopology.attributes, PlanTopology.operatorAttributes,
            PlanTopology.timestampAttribute]
      all_goals simp [PlanTopology.attributes, PlanTopology.operatorAttributes]
  exact ⟨hcolon a hmem, by simpa using hname⟩

namespace PlanTopology

/-! ## Lines -/

/-- The line of an attribute. -/
def attributeLine (depth : Nat) (a : String × String) : List Char :=
  List.replicate (2 * depth + 5) ' ' ++ (a.1.toList ++ ':' :: ' ' :: (a.2.toList ++ ['\n']))

/-- The first line of a node. -/
def headLine (depth : Nat) (kind : NodeKind) (context : QueryContext) : List Char :=
  List.replicate (2 * depth + 1) ' ' ++ '>' :: ' ' ::
    (kind.tag.toList ++ ' ' :: '[' :: (context.path.toList ++ [']', '\n']))

/-- The lines of a node. -/
def nodeLines (applicationId : String) (depth : Nat) (n : PlanNode) : List Char :=
  headLine depth n.kind n.context ++
    (n.settings.flatMap (attributeLine depth) ++
      (PlanNode.changelogAttribute applicationId n.kind n.context).flatMap (attributeLine depth))

/-- The lines of the nodes of a chain whose first node is at `depth`. -/
def chainLines (applicationId : String) (depth : Nat) (n : PlanNode) : List Char :=
  (n.steps.zipIdx depth).flatMap fun m => nodeLines applicationId m.2 m.1

theorem toList_indent (depth : Nat) : (indent depth).toList = List.replicate (2 * depth) ' ' :=
  String.toList_ofList

theorem toList_nodeText (applicationId : String) (depth : Nat) (n : PlanNode) :
    (nodeText ⟨depth, n.tag, n.context.path, attributes applicationId n⟩).toList =
      nodeLines applicationId depth n := by
  have hline : ∀ a : String × String,
      (indent depth ++ "     " ++ a.1 ++ ": " ++ a.2 ++ "\n").toList = attributeLine depth a := by
    intro a
    simp [attributeLine, toList_indent, List.replicate_add]
  have hattributes : (String.join ((attributes applicationId n).map fun a =>
      indent depth ++ "     " ++ a.1 ++ ": " ++ a.2 ++ "\n")).toList =
        (attributes applicationId n).flatMap (attributeLine depth) := by
    rw [String.toList_join, List.flatMap_map]
    simp only [hline]
  rw [nodeText, String.toList_append, hattributes, PlanNode.attributes_eq, List.flatMap_append]
  simp [nodeLines, headLine, toList_indent, PlanNode.tag, List.replicate_add]

theorem toList_toText (q : QueryPlan) (configs : ConfigSnapshot) :
    (ofQuery q configs).toText.toList = "Query ".toList ++ (q.id.toList ++ ' ' :: '(' ::
      ((configs.applicationId q.id).toList ++ ')' :: '\n' ::
        chainLines (configs.applicationId q.id) 0 q.physicalPlan)) := by
  have hnodes : (String.join ((ofQuery q configs).nodes.map nodeText)).toList =
      chainLines (configs.applicationId q.id) 0 q.physicalPlan := by
    rw [String.toList_join, ofQuery, List.map_map, List.flatMap_map, chainLines]
    simp only [Function.comp_apply, toList_nodeText]
  rw [toText, String.toList_append, hnodes]
  simp [ofQuery]

/-! ## Taking lines apart -/

/-- A text does not begin with the line of a setting. -/
def NoSetting (depth : Nat) (r : List Char) : Prop :=
  ∀ a : String × String, IsSettingName a.1 → ∀ tail, r ≠ attributeLine depth a ++ tail

theorem noSetting_of_head? {depth : Nat} {r : List Char} (hr : r.head? ≠ some ' ') :
    NoSetting depth r := by
  rintro a - tail rfl
  exact hr (by simp [attributeLine, List.replicate_succ])

theorem noSetting_changelog (depth : Nat) (topic : String) (tail : List Char) :
    NoSetting depth (attributeLine depth ("changelog", topic) ++ tail) := by
  intro a ha tail' h
  simp only [attributeLine, List.append_assoc, List.append_cancel_left_eq,
    List.cons_append] at h
  exact ha.2 (String.toList_inj.1 (Text.append_first_inj (by decide) ha.1 h).1.symm)

theorem noSetting_headLine (depth : Nat) (kind : NodeKind) (context : QueryContext)
    (tail : List Char) : NoSetting depth (headLine (depth + 1) kind context ++ tail) := by
  intro a _ tail' h
  -- The arrow stands where the settings of the node above are still indented.
  have hindent : 2 * depth + 5 = 2 * (depth + 1) + 1 + 2 := by omega
  rw [headLine, attributeLine, hindent, List.replicate_add _ 2] at h
  simp at h

theorem chainLines_source (applicationId : String) (depth : Nat) (s : TopicSource) :
    chainLines applicationId depth (.source s) = nodeLines applicationId depth (.source s) := by
  simp [chainLines, PlanNode.steps]

theorem chainLines_step (applicationId : String) (depth : Nat) (op : Operator)
    (context : QueryContext) (input : PlanNode) :
    chainLines applicationId depth (.step op context input) =
      nodeLines applicationId depth (.step op context input) ++
        chainLines applicationId (depth + 1) input := by
  simp [chainLines, PlanNode.steps]

theorem chainLines_eq (applicationId : String) (depth : Nat) (n : PlanNode) :
    ∃ tail, chainLines applicationId depth n = headLine depth n.kind n.context ++ tail := by
  cases n with
  | source s => exact ⟨_, chainLines_source applicationId depth s⟩
  | step op context input =>
    exact ⟨_, by rw [chainLines_step, nodeLines, List.append_assoc]⟩

theorem noSetting_chainLines (applicationId : String) (depth : Nat) (n : PlanNode)
    (tail : List Char) : NoSetting depth (chainLines applicationId (depth + 1) n ++ tail) := by
  obtain ⟨rest, hrest⟩ := chainLines_eq applicationId (depth + 1) n
  rw [hrest, List.append_assoc]
  exact noSetting_headLine depth n.kind n.context _

theorem head?_chainLines (applicationId : String) (depth : Nat) (n : PlanNode)
    (tail : List Char) : (chainLines applicationId depth n ++ tail).head? = some ' ' := by
  obtain ⟨rest, hrest⟩ := chainLines_eq applicationId depth n
  simp [hrest, headLine, List.replicate_succ]

/-- The lines of settings tell the settings, whatever follows them that is no line of a setting. -/
theorem settings_inj {depth : Nat} {as bs : List (String × String)} {r s : List Char}
    (ha : ∀ a ∈ as, IsSettingName a.1 ∧ '\n' ∉ a.2.toList)
    (hb : ∀ b ∈ bs, IsSettingName b.1 ∧ '\n' ∉ b.2.toList)
    (hr : NoSetting depth r) (hs : NoSetting depth s)
    (h : as.flatMap (attributeLine depth) ++ r = bs.flatMap (attributeLine depth) ++ s) :
    as = bs ∧ r = s := by
  induction as generalizing bs with
  | nil =>
    cases bs with
    | nil => exact ⟨rfl, h⟩
    | cons b bs =>
      rw [List.flatMap_cons, List.append_assoc] at h
      exact absurd h (hr b (hb b List.mem_cons_self).1 _)
  | cons a as ih =>
    cases bs with
    | nil =>
      rw [List.flatMap_cons, List.append_assoc] at h
      exact absurd h.symm (hs a (ha a List.mem_cons_self).1 _)
    | cons b bs =>
      obtain ⟨⟨han, hav⟩, ha⟩ := List.forall_mem_cons.1 ha
      obtain ⟨⟨hbn, hbv⟩, hb⟩ := List.forall_mem_cons.1 hb
      simp only [List.flatMap_cons, attributeLine, List.append_assoc,
        List.append_cancel_left_eq, List.cons_append, List.nil_append] at h
      obtain ⟨hname, hrest⟩ := Text.append_first_inj han.1 hbn.1 h
      obtain ⟨hvalue, htail⟩ := Text.append_first_inj hav hbv (List.cons.inj hrest).2
      obtain ⟨htails, hend⟩ := ih ha hb htail
      have hab : a = b := Prod.ext (String.toList_inj.1 hname) (String.toList_inj.1 hvalue)
      exact ⟨by rw [hab, htails], hend⟩

theorem headLine_inj {depth : Nat} {k l : NodeKind} {c d : QueryContext} {r s : List Char}
    (hc : '\n' ∉ c.path.toList) (hd : '\n' ∉ d.path.toList)
    (h : headLine depth k c ++ r = headLine depth l d ++ s) : k = l ∧ c = d ∧ r = s := by
  simp only [headLine, List.append_assoc, List.append_cancel_left_eq, List.cons_append,
    List.cons.injEq, true_and, List.nil_append] at h
  obtain ⟨htag, hrest⟩ := Text.append_first_inj k.space_notMem_tag l.space_notMem_tag h
  have hline : (c.path.toList ++ [']']) ++ '\n' :: r = (d.path.toList ++ [']']) ++ '\n' :: s := by
    simpa using (List.cons.inj hrest).2
  obtain ⟨hpath, hend⟩ := Text.append_first_inj (by simpa using hc) (by simpa using hd) hline
  refine ⟨NodeKind.tag_injective (String.toList_inj.1 htag), ?_, hend⟩
  cases c
  cases d
  cases String.toList_inj.1 (List.append_cancel_right hpath)
  rfl

end PlanTopology

/-- The context and the settings of a node stand on one line each. -/
structure PlanNode.OnLines (n : PlanNode) : Prop where
  context : '\n' ∉ n.context.path.toList
  settings : ∀ a ∈ n.settings, '\n' ∉ a.2.toList

instance (n : PlanNode) : Decidable n.OnLines :=
  decidable_of_iff ('\n' ∉ n.context.path.toList ∧ ∀ a ∈ n.settings, '\n' ∉ a.2.toList)
    ⟨fun h => ⟨h.1, h.2⟩, fun h => ⟨h.context, h.settings⟩⟩

/-- What a topology says of the nodes of a chain, apart from their changelog topics. -/
def PlanNode.listing (n : PlanNode) : List (NodeKind × QueryContext × List (String × String)) :=
  n.steps.map fun m => (m.kind, m.context, m.settings)

namespace PlanTopology

/-- The lines of a node tell its kind, its context and its settings. The changelog topic is then
the same on both sides, whatever the application id is. -/
theorem nodeLines_inj {applicationId : String} {depth : Nat} {n m : PlanNode} {r s : List Char}
    (hn : n.OnLines) (hm : m.OnLines) (hr : NoSetting depth r) (hs : NoSetting depth s)
    (h : nodeLines applicationId depth n ++ r = nodeLines applicationId depth m ++ s) :
    (n.kind, n.context, n.settings) = (m.kind, m.context, m.settings) ∧ r = s := by
  simp only [nodeLines, List.append_assoc] at h
  obtain ⟨hkind, hcontext, hrest⟩ := headLine_inj hn.context hm.context h
  rw [hkind, hcontext] at hrest
  have hnames : ∀ k : PlanNode, k.OnLines → ∀ a ∈ k.settings,
      IsSettingName a.1 ∧ '\n' ∉ a.2.toList :=
    fun k hk a ha => ⟨k.isSettingName_of_mem ha, hk.settings a ha⟩
  have hends : ∀ t : List Char, NoSetting depth t → NoSetting depth
      ((PlanNode.changelogAttribute applicationId m.kind m.context).flatMap
        (attributeLine depth) ++ t) := by
    intro t ht
    unfold PlanNode.changelogAttribute
    cases m.kind.storeRole? with
    | none => exact ht
    | some role =>
      simpa using noSetting_changelog depth (changelog applicationId m.context role.suffix) t
  obtain ⟨hsettings, htail⟩ :=
    settings_inj (hnames n hn) (hnames m hm) (hends r hr) (hends s hs) hrest
  exact ⟨by rw [hkind, hcontext, hsettings], List.append_cancel_left htail⟩

/-- The lines of a chain, up to a line that is not indented, tell its nodes. -/
theorem chainLines_inj {applicationId : String} {depth : Nat} {n m : PlanNode}
    {r s : List Char} (hn : ∀ k ∈ n.steps, k.OnLines) (hm : ∀ k ∈ m.steps, k.OnLines)
    (hr : r.head? ≠ some ' ') (hs : s.head? ≠ some ' ')
    (h : chainLines applicationId depth n ++ r = chainLines applicationId depth m ++ s) :
    n.listing = m.listing ∧ r = s := by
  -- Where one chain ends and the other goes on, an indented line would follow the first.
  induction n generalizing depth m with
  | source a =>
    cases m with
    | source b =>
      rw [chainLines_source, chainLines_source] at h
      obtain ⟨hnode, hend⟩ := nodeLines_inj (hn _ List.mem_cons_self) (hm _ List.mem_cons_self)
        (noSetting_of_head? hr) (noSetting_of_head? hs) h
      exact ⟨congrArg (fun x => [x]) hnode, hend⟩
    | step op context input =>
      rw [chainLines_source, chainLines_step, List.append_assoc] at h
      obtain ⟨-, hend⟩ := nodeLines_inj (hn _ List.mem_cons_self) (hm _ List.mem_cons_self)
        (noSetting_of_head? hr) (noSetting_chainLines _ _ _ _) h
      exact absurd (hend ▸ head?_chainLines _ _ _ _) hr
  | step op context input ih =>
    cases m with
    | source b =>
      rw [chainLines_source, chainLines_step, List.append_assoc] at h
      obtain ⟨-, hend⟩ := nodeLines_inj (hn _ List.mem_cons_self) (hm _ List.mem_cons_self)
        (noSetting_chainLines _ _ _ _) (noSetting_of_head? hs) h
      exact absurd (hend ▸ head?_chainLines _ _ _ _) hs
    | step op' context' input' =>
      rw [chainLines_step, chainLines_step, List.append_assoc, List.append_assoc] at h
      obtain ⟨hnode, hrest⟩ := nodeLines_inj (hn _ List.mem_cons_self) (hm _ List.mem_cons_self)
        (noSetting_chainLines _ _ _ _) (noSetting_chainLines _ _ _ _) h
      obtain ⟨hlisting, hend⟩ := ih (fun k hk => hn k (List.mem_cons_of_mem _ hk))
        (fun k hk => hm k (List.mem_cons_of_mem _ hk)) hrest
      exact ⟨congrArg₂ List.cons hnode hlisting, hend⟩

/-- An id stands twice in the line of the query, the second time after a fixed text that may
itself have line breaks. -/
theorem queryLine_inj {fixed x y r s : List Char} (hx : '\n' ∉ x) (hy : '\n' ∉ y)
    (h : x ++ ' ' :: '(' :: (fixed ++ x ++ ')' :: '\n' :: r) =
      y ++ ' ' :: '(' :: (fixed ++ y ++ ')' :: '\n' :: s)) : x = y := by
  -- The first line ends in the fixed text, or else after the second id.
  by_cases hfixed : '\n' ∈ fixed
  · obtain ⟨line, rest, rfl, hline⟩ := List.eq_append_cons_of_mem hfixed
    have hfirst : (x ++ ' ' :: '(' :: line) ++ '\n' :: (rest ++ x ++ ')' :: '\n' :: r) =
        (y ++ ' ' :: '(' :: line) ++ '\n' :: (rest ++ y ++ ')' :: '\n' :: s) := by
      simpa using h
    exact List.append_cancel_right
      (Text.append_first_inj (by simp [hx, hline]) (by simp [hy, hline]) hfirst).1
  · have hfirst : (x ++ ' ' :: '(' :: (fixed ++ x ++ [')'])) ++ '\n' :: r =
        (y ++ ' ' :: '(' :: (fixed ++ y ++ [')'])) ++ '\n' :: s := by
      simpa using h
    have hline := (Text.append_first_inj (by simp [hx, hfixed]) (by simp [hy, hfixed]) hfirst).1
    have hlength : x.length = y.length := by
      have := congrArg List.length hline
      simp only [List.length_append, List.length_cons] at this
      omega
    exact (List.append_inj hline hlength).1

/-- The text of a query, up to a line that is not indented, tells its id and its nodes. -/
theorem toText_append_inj {p q : QueryPlan} {configs : ConfigSnapshot} {r s : List Char}
    (hp : '\n' ∉ p.id.toList) (hq : '\n' ∉ q.id.toList)
    (hpn : ∀ n ∈ p.physicalPlan.steps, n.OnLines) (hqn : ∀ n ∈ q.physicalPlan.steps, n.OnLines)
    (hr : r.head? ≠ some ' ') (hs : s.head? ≠ some ' ')
    (h : (ofQuery p configs).toText.toList ++ r = (ofQuery q configs).toText.toList ++ s) :
    p.id = q.id ∧ p.physicalPlan.listing = q.physicalPlan.listing ∧ r = s := by
  rw [toList_toText, toList_toText] at h
  simp only [List.append_assoc, List.append_cancel_left_eq, List.cons_append] at h
  have hid : p.id = q.id := by
    simp only [ConfigSnapshot.applicationId, String.toList_append] at h
    exact String.toList_inj.1 (queryLine_inj hp hq h)
  simp only [hid, List.append_cancel_left_eq, List.cons.injEq, true_and] at h
  obtain ⟨hlisting, hend⟩ := chainLines_inj hpn hqn hr hs h
  exact ⟨hid, hlisting, hend⟩

end PlanTopology

/-! ## Plans -/

namespace PlanNode

/-- The formats among the settings of a node. -/
def settingFormats : PlanNode → List Formats
  | source s =>
    match s.kind with
    | .stream | .table => [s.formats]
    | .materialized storeFormats => [s.formats, storeFormats]
  | step op _ _ =>
    match op with
    | .filter _ _ | .select _ _ _ => []
    | .groupByKey formats | .aggregate formats _ _ => [formats]
    | .sink _ target => [target.formats]

/-- The lists among the settings of a node. -/
def settingLists : PlanNode → List (List String)
  | step (.select _ keyColumns expressions) _ _ => [keyColumns, expressions]
  | step (.aggregate _ passed functions) _ _ => [passed, functions]
  | _ => []

/-- The formats and lists of a node can be told from their texts. -/
structure Plain (n : PlanNode) : Prop where
  formats : ∀ f ∈ n.settingFormats, '/' ∉ f.key.toList
  lists : ∀ items ∈ n.settingLists, PlainList items

instance (n : PlanNode) : Decidable n.Plain :=
  decidable_of_iff
    ((∀ f ∈ n.settingFormats, '/' ∉ f.key.toList) ∧ ∀ items ∈ n.settingLists, PlainList items)
    ⟨fun h => ⟨h.1, h.2⟩, fun h => ⟨h.formats, h.lists⟩⟩

/-- The formats of the store of a table, where it has its own. -/
def storeSettings : SourceKind → List (String × String)
  | .stream | .table => []
  | .materialized storeFormats => [("storeFormats", storeFormats.toText)]

theorem settings_source (s : TopicSource) : (source s).settings =
    ("topic", s.topic) :: ("formats", s.formats.toText) :: ("schema", s.schema.toText) ::
      (PlanTopology.timestampAttribute s.timestamp ++ storeSettings s.kind) := by
  obtain ⟨kind, context, topic, formats, timestamp, schema⟩ := s
  cases kind <;> cases timestamp <;>
    simp [settings, PlanTopology.attributes, PlanTopology.sourceAttributes, storeSettings,
      PlanTopology.timestampAttribute]

theorem settings_step (op : Operator) (context : QueryContext) (input : PlanNode) :
    (step op context input).settings =
      match op with
      | .filter _ expression => [("filter", expression)]
      | .select _ keyColumns expressions =>
        [("keyColumnNames", PlanTopology.listText keyColumns),
         ("selectExpressions", PlanTopology.listText expressions)]
      | .groupByKey formats => [("internalFormats", formats.toText)]
      | .aggregate formats passed functions =>
        [("internalFormats", formats.toText),
         ("nonAggregateColumns", PlanTopology.listText passed),
         ("aggregationFunctions", PlanTopology.listText functions)]
      | .sink _ target =>
        ("topic", target.topic) :: ("formats", target.formats.toText) ::
          PlanTopology.timestampAttribute target.timestamp := by
  rcases op with _ | _ | _ | _ | ⟨_, _, _, timestamp⟩
  case sink =>
    cases timestamp <;>
      simp [settings, PlanTopology.attributes, PlanTopology.operatorAttributes,
        PlanTopology.timestampAttribute]
  all_goals simp [settings, PlanTopology.attributes, PlanTopology.operatorAttributes]

theorem timestampAttribute_injective : Function.Injective PlanTopology.timestampAttribute := by
  intro t u h
  cases t <;> cases u <;> simp_all [PlanTopology.timestampAttribute]

theorem sourceKind_eq {k l : SourceKind} (hkind : k.nodeKind = l.nodeKind)
    (hformats : ∀ f g, k = .materialized f → l = .materialized g → f.toText = g.toText → f = g)
    (hsettings : storeSettings k = storeSettings l) : k = l := by
  cases k <;> cases l <;> first | rfl | cases hkind
  case materialized.materialized f g =>
    rw [hformats f g rfl rfl (by simpa [storeSettings] using hsettings)]

theorem source_eq_of_settings {s t : TopicSource} (hs : (source s).Plain) (ht : (source t).Plain)
    (hkind : s.kind.nodeKind = t.kind.nodeKind) (hcontext : s.context = t.context)
    (hsettings : (source s).settings = (source t).settings) : s = t := by
  obtain ⟨kind, context, topic, formats, timestamp, schema⟩ := s
  obtain ⟨kind', context', topic', formats', timestamp', schema'⟩ := t
  rw [settings_source, settings_source] at hsettings
  simp only [List.cons.injEq, Prod.mk.injEq, true_and] at hsettings
  obtain ⟨rfl, hformats, hschema, hrest⟩ := hsettings
  -- A timestamp column can be missing, but the settings of the store depend on the kind alone.
  have hlength : (storeSettings kind).length = (storeSettings kind').length := by
    cases kind <;> cases kind' <;> first | rfl | cases hkind
  obtain ⟨htimestamp, hstore⟩ := List.append_inj' hrest hlength
  cases timestampAttribute_injective htimestamp
  cases LogicalSchema.toText_injective hschema
  cases hcontext
  cases Formats.toText_inj (hs.formats formats (by cases kind <;> simp [settingFormats]))
    (ht.formats formats' (by cases kind' <;> simp [settingFormats])) hformats
  have hmaterialized : kind = kind' := by
    refine sourceKind_eq hkind ?_ hstore
    rintro f g rfl rfl hfg
    exact Formats.toText_inj (hs.formats f (by simp [settingFormats]))
      (ht.formats g (by simp [settingFormats])) hfg
  rw [hmaterialized]

theorem operator_eq_of_settings {op op' : Operator} {context context' : QueryContext}
    {input input' : PlanNode} (hop : (step op context input).Plain)
    (hop' : (step op' context' input').Plain) (hkind : op.nodeKind = op'.nodeKind)
    (hsettings : (step op context input).settings = (step op' context' input').settings) :
    op = op' := by
  rw [settings_step, settings_step] at hsettings
  -- The names of the settings differ between operators.
  cases op <;> cases op' <;> simp at hsettings
  case filter.filter side e side' e' =>
    have hside : side = side' := by cases side <;> cases side' <;> first | rfl | cases hkind
    rw [hside, hsettings]
  case select.select side keys es side' keys' es' =>
    obtain ⟨hkeys, hes⟩ := hsettings
    have hside : side = side' := by cases side <;> cases side' <;> first | rfl | cases hkind
    rw [hside,
      PlanTopology.listText_inj (hop.lists keys (by simp [settingLists]))
        (hop'.lists keys' (by simp [settingLists])) hkeys,
      PlanTopology.listText_inj (hop.lists es (by simp [settingLists]))
        (hop'.lists es' (by simp [settingLists])) hes]
  case groupByKey.groupByKey f f' =>
    rw [Formats.toText_inj (hop.formats f (by simp [settingFormats]))
      (hop'.formats f' (by simp [settingFormats])) hsettings]
  case aggregate.aggregate f ps fs f' ps' fs' =>
    obtain ⟨hf, hps, hfs⟩ := hsettings
    rw [Formats.toText_inj (hop.formats f (by simp [settingFormats]))
        (hop'.formats f' (by simp [settingFormats])) hf,
      PlanTopology.listText_inj (hop.lists ps (by simp [settingLists]))
        (hop'.lists ps' (by simp [settingLists])) hps,
      PlanTopology.listText_inj (hop.lists fs (by simp [settingLists]))
        (hop'.lists fs' (by simp [settingLists])) hfs]
  case sink.sink side t side' t' =>
    obtain ⟨htopic, hformats, htimestamp⟩ := hsettings
    have hside : side = side' := by cases side <;> cases side' <;> first | rfl | cases hkind
    cases t
    cases t'
    cases htopic
    cases timestampAttribute_injective htimestamp
    cases Formats.toText_inj (hop.formats _ List.mem_cons_self)
      (hop'.formats _ List.mem_cons_self) hformats
    rw [hside]

/-- The kinds, contexts and settings of the nodes tell the plan. -/
theorem eq_of_listing {n m : PlanNode} (hn : ∀ k ∈ n.steps, k.Plain) (hm : ∀ k ∈ m.steps, k.Plain)
    (h : n.listing = m.listing) : n = m := by
  induction n generalizing m with
  | source s =>
    cases m with
    | source t =>
      obtain ⟨hkind, hcontext, hsettings⟩ : _ ∧ _ ∧ _ := by simpa [listing, steps] using h
      rw [source_eq_of_settings (hn _ List.mem_cons_self) (hm _ List.mem_cons_self) hkind
        hcontext hsettings]
    | step op context input =>
      exact absurd (List.cons.inj h).2 (by simp [steps_ne_nil])
  | step op context input ih =>
    cases m with
    | source t => exact absurd (List.cons.inj h).2 (by simp [steps_ne_nil])
    | step op' context' input' =>
      obtain ⟨hnode, hrest⟩ := List.cons.inj h
      simp only [Prod.mk.injEq] at hnode
      obtain ⟨hkind, hcontext, hsettings⟩ := hnode
      have hop := operator_eq_of_settings (hn _ List.mem_cons_self) (hm _ List.mem_cons_self)
        hkind hsettings
      have hinput := ih (fun k hk => hn k (List.mem_cons_of_mem _ hk))
        (fun k hk => hm k (List.mem_cons_of_mem _ hk)) hrest
      rw [hop, show context = context' from hcontext, hinput]

end PlanNode

/-- A query whose text can be taken apart again. -/
structure QueryPlan.Legible (q : QueryPlan) : Prop where
  id : '\n' ∉ q.id.toList
  onLines : ∀ n ∈ q.physicalPlan.steps, n.OnLines
  plain : ∀ n ∈ q.physicalPlan.steps, n.Plain

instance (q : QueryPlan) : Decidable q.Legible :=
  decidable_of_iff
    ('\n' ∉ q.id.toList ∧ ∀ n ∈ q.physicalPlan.steps, n.OnLines ∧ n.Plain)
    ⟨fun h => ⟨h.1, fun n hn => (h.2 n hn).1, fun n hn => (h.2 n hn).2⟩,
      fun h => ⟨h.id, fun n hn => ⟨h.onLines n hn, h.plain n hn⟩⟩⟩

namespace PlanTopology

/-- The text of a legible query, up to a line that is not indented, tells its id and its plan. -/
theorem toText_append_inj_of_legible {p q : QueryPlan} {configs : ConfigSnapshot}
    {r s : List Char} (hp : p.Legible) (hq : q.Legible) (hr : r.head? ≠ some ' ')
    (hs : s.head? ≠ some ' ')
    (h : (ofQuery p configs).toText.toList ++ r = (ofQuery q configs).toText.toList ++ s) :
    (p.id = q.id ∧ p.physicalPlan = q.physicalPlan) ∧ r = s := by
  obtain ⟨hid, hlisting, hend⟩ :=
    toText_append_inj hp.id hq.id hp.onLines hq.onLines hr hs h
  exact ⟨⟨hid, PlanNode.eq_of_listing hp.plain hq.plain hlisting⟩, hend⟩

end PlanTopology

end StandingQuery

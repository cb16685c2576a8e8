/-!
# Maps with text keys in sorted order

`OrderedMap β` holds one value per key and lists its entries in the order of their keys.
The order is that of the code points, which is also the order of the UTF-8 bytes. Two maps
with the same look-ups are equal, so a map can stand for its set of bindings.

* `Entries.lookup_insert`: an insertion changes the look-up of its own key only.
* `Entries.ordered_insert`: an insertion keeps the entries sorted.
* `OrderedMap.find?_insert`: the first of these for maps.
* `OrderedMap.ext_find?`: maps with the same look-ups are equal.
-/

namespace StandingQuery

universe u

/-! ## Sorted entry lists -/

/-- Entries in strictly increasing order of their keys. -/
def Entries.Ordered {β : Type u} (es : List (String × β)) : Prop :=
  es.Pairwise fun a b => a.1 < b.1

/-- The entries with `k` bound to `v`: an entry for `k` is replaced, else one is put in its place. -/
def Entries.insert {β : Type u} (k : String) (v : β) : List (String × β) → List (String × β)
  | [] => [(k, v)]
  | (k', v') :: es =>
    if k < k' then (k, v) :: (k', v') :: es
    else if k = k' then (k, v) :: es
    else (k', v') :: Entries.insert k v es

namespace Entries

variable {β : Type u}

theorem lookup_insert (k k' : String) (v : β) (es : List (String × β)) :
    (insert k v es).lookup k' = if k' = k then some v else es.lookup k' := by
  induction es with
  | nil => by_cases h : k' = k <;> simp [insert, List.lookup_cons, h, beq_eq_false_iff_ne.2]
  | cons e es ih =>
    obtain ⟨a, b⟩ := e
    simp only [insert]
    split
    · by_cases h : k' = k <;> simp [List.lookup_cons, h, beq_eq_false_iff_ne.2]
    · split
      · rename_i h
        subst h
        by_cases h : k' = k <;> simp [List.lookup_cons, h, beq_eq_false_iff_ne.2]
      · rename_i hne
        by_cases h : k' = a
        · subst h
          simp [Ne.symm hne]
        · simp [List.lookup_cons, beq_eq_false_iff_ne.2 h, ih]

theorem mem_insert {k : String} {v : β} {es : List (String × β)} {e : String × β}
    (h : e ∈ insert k v es) : e = (k, v) ∨ e ∈ es := by
  induction es with
  | nil => simpa [insert] using h
  | cons d es ih =>
    simp only [insert] at h
    grind

theorem ordered_insert {k : String} {v : β} {es : List (String × β)} (h : Ordered es) :
    Ordered (insert k v es) := by
  induction es with
  | nil => simp [insert, Ordered]
  | cons e es ih =>
    obtain ⟨a, b⟩ := e
    have hes : Ordered es := (List.pairwise_cons.1 h).2
    have hlt : ∀ d ∈ es, a < d.1 := (List.pairwise_cons.1 h).1
    simp only [insert]
    split
    · rename_i hk
      refine List.pairwise_cons.2 ⟨?_, h⟩
      intro d hd
      rcases List.mem_cons.1 hd with rfl | hd
      · exact hk
      · exact String.lt_trans hk (hlt d hd)
    · split
      · rename_i hk
        subst hk
        exact List.pairwise_cons.2 ⟨hlt, hes⟩
      · rename_i hnlt hne
        refine List.pairwise_cons.2 ⟨?_, ih hes⟩
        intro d hd
        rcases mem_insert hd with rfl | hd
        · exact Std.lt_of_le_of_ne (String.not_lt.1 hnlt) (Ne.symm hne)
        · exact hlt d hd

theorem lookup_of_forall_lt {k : String} {es : List (String × β)} (h : ∀ e ∈ es, k < e.1) :
    es.lookup k = none := by
  apply List.lookup_eq_none_iff.2
  intro e he
  have hne : k ≠ e.1 := fun hk => String.lt_irrefl e.1 (hk ▸ h e he)
  simpa using hne

/-- No key of sorted entries is less than the first. -/
theorem not_lt_first {k a : String} {v : β} {es : List (String × β)}
    (h : Ordered ((a, v) :: es)) (hk : ((a, v) :: es).lookup k ≠ none) : ¬ k < a := by
  intro hlt
  apply hk
  apply lookup_of_forall_lt
  intro e he
  rcases List.mem_cons.1 he with rfl | he
  · exact hlt
  · exact String.lt_trans hlt ((List.pairwise_cons.1 h).1 e he)

/-- Sorted entries are determined by their look-ups. -/
theorem eq_of_lookup {es fs : List (String × β)} (hes : Ordered es) (hfs : Ordered fs)
    (h : ∀ k, es.lookup k = fs.lookup k) : es = fs := by
  induction es generalizing fs with
  | nil =>
    cases fs with
    | nil => rfl
    | cons f fs =>
      obtain ⟨b, w⟩ := f
      simpa using h b
  | cons e es ih =>
    obtain ⟨a, v⟩ := e
    cases fs with
    | nil => simpa using h a
    | cons f fs =>
      obtain ⟨b, w⟩ := f
      obtain ⟨ha, hes'⟩ := List.pairwise_cons.1 hes
      obtain ⟨hb, hfs'⟩ := List.pairwise_cons.1 hfs
      have hab : ¬ a < b := not_lt_first hfs (by simp [← h a])
      have hba : ¬ b < a := not_lt_first hes (by simp [h b])
      obtain rfl : a = b := String.le_antisymm (String.not_lt.1 hba) (String.not_lt.1 hab)
      obtain rfl : v = w := by simpa using h a
      have hrest : es = fs := by
        apply ih hes' hfs'
        intro k
        by_cases hk : k = a
        · rw [hk, lookup_of_forall_lt ha, lookup_of_forall_lt hb]
        · simpa [List.lookup_cons, beq_eq_false_iff_ne.2 hk] using h k
      rw [hrest]

theorem lookup_filter (p : String → Bool) (es : List (String × β)) (k : String) :
    (es.filter fun e => p e.1).lookup k = if p k then es.lookup k else none := by
  induction es with
  | nil => simp
  | cons e es ih =>
    obtain ⟨a, v⟩ := e
    by_cases hk : k = a
    · subst hk
      cases hp : p k <;> simp [hp, ih]
    · cases hp : p a <;> simp [hp, ih, List.lookup_cons, beq_eq_false_iff_ne.2 hk]

end Entries

/-! ## Maps -/

/-- A finite map from texts to `β`. -/
structure OrderedMap (β : Type u) where
  /-- The bindings, sorted by key. -/
  entries : List (String × β)
  /-- Each key comes once, in its place. -/
  ordered : Entries.Ordered entries

namespace OrderedMap

variable {β : Type u}

instance [DecidableEq β] : DecidableEq (OrderedMap β) := fun a b =>
  decidable_of_iff (a.entries = b.entries) (by cases a; cases b; simp)

def empty : OrderedMap β := ⟨[], List.Pairwise.nil⟩

instance : Inhabited (OrderedMap β) := ⟨empty⟩

def find? (m : OrderedMap β) (k : String) : Option β := m.entries.lookup k

def contains (m : OrderedMap β) (k : String) : Bool := (m.find? k).isSome

/-- The map with `k` bound to `v`, whatever it was bound to before. -/
def insert (m : OrderedMap β) (k : String) (v : β) : OrderedMap β :=
  ⟨Entries.insert k v m.entries, Entries.ordered_insert m.ordered⟩

/-- The map of a list of bindings; a later binding of a key replaces an earlier one. -/
def ofList (es : List (String × β)) : OrderedMap β :=
  es.foldl (fun m e => m.insert e.1 e.2) empty

def size (m : OrderedMap β) : Nat := m.entries.length

def isEmpty (m : OrderedMap β) : Bool := m.entries.isEmpty

/-- The map with every value changed. -/
def mapValues {γ : Type u} (f : β → γ) (m : OrderedMap β) : OrderedMap γ :=
  ⟨m.entries.map fun e => (e.1, f e.2),
    by simpa [Entries.Ordered, List.pairwise_map] using m.ordered⟩

/-- The bindings that satisfy `p`. -/
def filter (p : String → β → Bool) (m : OrderedMap β) : OrderedMap β :=
  ⟨m.entries.filter fun e => p e.1 e.2, m.ordered.filter _⟩

@[simp]
theorem find?_empty (k : String) : (empty : OrderedMap β).find? k = none := rfl

@[simp]
theorem find?_insert (m : OrderedMap β) (k k' : String) (v : β) :
    (m.insert k v).find? k' = if k' = k then some v else m.find? k' :=
  Entries.lookup_insert k k' v m.entries

theorem contains_iff {m : OrderedMap β} {k : String} :
    m.contains k = true ↔ ∃ v, m.find? k = some v :=
  Option.isSome_iff_exists

theorem find?_filter (m : OrderedMap β) (p : String → Bool) (k : String) :
    (m.filter fun key _ => p key).find? k = if p k then m.find? k else none :=
  Entries.lookup_filter p m.entries k

theorem ext_find? {m n : OrderedMap β} (h : ∀ k, m.find? k = n.find? k) : m = n := by
  obtain ⟨es, hes⟩ := m
  obtain ⟨fs, hfs⟩ := n
  obtain rfl : es = fs := Entries.eq_of_lookup hes hfs h
  rfl

end OrderedMap

end StandingQuery

import StandingQuery.Json.Value

/-!
# Sorting the members of objects

Reading keeps the members of an object sorted by key, so a value that is written and read back
comes back as `Value.sortKeys`. No member is lost where no key is repeated, and members that
were sorted before stay as they are.

* `Value.lookup_sortOnto`: the members found in a sorted object.
* `Value.sortOnto_of_ordered`: sorted members keep their places.
-/

namespace StandingQuery

theorem lookup_cons_if {β : Type} (k a : String) (v : β) (es : List (String × β)) :
    ((a, v) :: es).lookup k = if k = a then some v else es.lookup k := by
  rw [List.lookup_cons]
  by_cases h : k = a
  · rw [if_pos h, beq_iff_eq.2 h]
  · rw [if_neg h, beq_eq_false_iff_ne.2 h]

/-- A key that is greater than all others is put at the end. -/
theorem Entries.insert_of_forall_lt {β : Type} {k : String} {v : β} {es : List (String × β)}
    (h : ∀ e ∈ es, e.1 < k) : Entries.insert k v es = es ++ [(k, v)] := by
  induction es with
  | nil => rfl
  | cons e es ih =>
    obtain ⟨a, b⟩ := e
    have ha : a < k := h (a, b) List.mem_cons_self
    have hlt : ¬ k < a := String.lt_asymm ha
    have hne : k ≠ a := fun hk => String.lt_irrefl a (hk ▸ ha)
    rw [Entries.insert, if_neg hlt, if_neg hne, ih fun e he => h e (List.mem_cons_of_mem _ he)]
    rfl

namespace Json.Value

mutual

/-- The value as it is after reading: the members of each object sorted by key, a later member
in the place of an earlier one with the same key. -/
def sortKeys : Value → Value
  | array vs => array (sortItems vs)
  | object ms => object (sortOnto [] ms)
  | v => v

/-- `sortKeys` for the items of an array. -/
def sortItems : List Value → List Value
  | [] => []
  | v :: vs => v.sortKeys :: sortItems vs

/-- The members `before` with further members put in their places. -/
def sortOnto (before : List (String × Value)) : List (String × Value) → List (String × Value)
  | [] => before
  | (k, v) :: ms => sortOnto (Entries.insert k v.sortKeys before) ms

end

@[simp]
theorem sortKeys_object (ms : List (String × Value)) :
    (object ms).sortKeys = object (sortOnto [] ms) := rfl

@[simp]
theorem sortKeys_string (s : String) : (string s).sortKeys = string s := rfl

@[simp]
theorem sortKeys_bool (b : Bool) : (bool b).sortKeys = bool b := rfl

@[simp]
theorem sortKeys_null : null.sortKeys = null := rfl

theorem sortItems_eq_map (vs : List Value) : sortItems vs = vs.map sortKeys := by
  induction vs with
  | nil => rfl
  | cons v vs ih => rw [sortItems, ih, List.map_cons]

@[simp]
theorem sortKeys_array (vs : List Value) : (array vs).sortKeys = array (vs.map sortKeys) := by
  rw [sortKeys, sortItems_eq_map]

/-- If no key is repeated, every member is found under its key, else what was there before. -/
theorem lookup_sortOnto {before ms : List (String × Value)} (h : (ms.map Prod.fst).Nodup)
    (k : String) :
    (sortOnto before ms).lookup k =
      ((ms.lookup k).map sortKeys).or (before.lookup k) := by
  induction ms generalizing before with
  | nil => rfl
  | cons m ms ih =>
    obtain ⟨a, v⟩ := m
    obtain ⟨hmem, hms⟩ := List.nodup_cons.1 h
    rw [sortOnto, ih hms, Entries.lookup_insert, lookup_cons_if]
    by_cases hk : k = a
    · subst hk
      have hnone : ms.lookup k = none :=
        List.lookup_eq_none_iff.2 fun e he => by
          have hke : k ≠ e.1 := fun hke => hmem (List.mem_map.2 ⟨e, he, hke.symm⟩)
          simpa using hke
      simp [hnone]
    · rw [if_neg hk, if_neg hk]

/-- The member that is found in a sorted object. -/
theorem lookup_sortKeys {ms : List (String × Value)} (h : (ms.map Prod.fst).Nodup)
    (k : String) : (sortOnto [] ms).lookup k = (ms.lookup k).map sortKeys := by
  rw [lookup_sortOnto h, List.lookup_nil, Option.or_none]

theorem sortOnto_of_ordered {before ms : List (String × Value)}
    (h : Entries.Ordered (before ++ ms)) :
    sortOnto before ms = before ++ ms.map fun m => (m.1, m.2.sortKeys) := by
  induction ms generalizing before with
  | nil => simp [sortOnto]
  | cons m ms ih =>
    obtain ⟨k, v⟩ := m
    obtain ⟨hb, hms, hlt⟩ := List.pairwise_append.1 h
    obtain ⟨hk, hms⟩ := List.pairwise_cons.1 hms
    have hbefore : ∀ e ∈ before, e.1 < k := fun e he => hlt e he (k, v) List.mem_cons_self
    have hord : Entries.Ordered ((before ++ [(k, v.sortKeys)]) ++ ms) := by
      rw [List.append_assoc]
      refine List.pairwise_append.2 ⟨hb, List.pairwise_cons.2 ⟨hk, hms⟩, fun e he d hd => ?_⟩
      rcases List.mem_cons.1 hd with rfl | hd
      · exact hbefore e he
      · exact hlt e he d (List.mem_cons_of_mem _ hd)
    rw [sortOnto, Entries.insert_of_forall_lt hbefore, ih hord]
    simp

end Json.Value

end StandingQuery

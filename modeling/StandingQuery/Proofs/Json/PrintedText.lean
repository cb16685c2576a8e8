import Mathlib.Tactic.SplitIfs
import StandingQuery.Json.Printer
import StandingQuery.Json.Scanner
import StandingQuery.Proofs.Json.SortedKeys

/-!
# Reading printed JSON

The machine is run over the text of a value, part by part: over an escaped character, over
a string, and over a whole value that stands inside the containers of the stack. The printer
opens as many containers as it likes while the machine opens at most `maxDepth`, so printed
text is read back exactly if the value is not too deep. Values without numbers are enough here,
since the parts of a plan hold none.

* `StringText.feed_escaped`: an escaped string is taken in as its bytes.
* `State.run_render`: the machine after the text of a value, whatever the stack.
* `scan_render`: a printed value is read back with its members sorted, or not at all.
-/

namespace StandingQuery.Json

/-! ## Bytes of characters -/

/-- The UTF-8 bytes of characters. -/
def utf8 (cs : List Char) : List UInt8 := cs.flatMap String.utf8EncodeChar

theorem utf8_append (cs ds : List Char) : utf8 (cs ++ ds) = utf8 cs ++ utf8 ds :=
  List.flatMap_append

theorem utf8_cons (c : Char) (cs : List Char) :
    utf8 (c :: cs) = String.utf8EncodeChar c ++ utf8 cs := List.flatMap_cons

theorem encode_ofList (cs : List Char) : Text.Utf8.encode (String.ofList cs) = utf8 cs := by
  rw [Text.Utf8.encode_eq_flatMap, String.toList_ofList, utf8]

theorem decode?_utf8 (s : String) : Text.Utf8.decode? (utf8 s.toList) = some s := by
  have h := Text.Utf8.decode?_encode s
  rwa [← String.ofList_toList (s := s), encode_ofList, String.ofList_toList] at h

/-- Each byte of a character that is written unescaped can stand inside a JSON string. -/
theorem plain_bytes {c : Char} (h : IsPlain c) :
    ∀ b ∈ String.utf8EncodeChar c, b ≠ 0x22 ∧ b ≠ 0x5C ∧ ¬ b < 0x20 := by
  obtain ⟨hq, hb, hc⟩ := h
  have h1 : c.val.toNat ≠ 0x22 := fun e => hq (Char.ext (UInt32.toNat_inj.1 e))
  have h2 : c.val.toNat ≠ 0x5C := fun e => hb (Char.ext (UInt32.toNat_inj.1 e))
  have h3 : 32 ≤ c.val.toNat := hc
  have key : ∀ n : Nat, 0x20 ≤ n → n < 256 → n ≠ 0x22 → n ≠ 0x5C →
      UInt8.ofNat n ≠ 0x22 ∧ UInt8.ofNat n ≠ 0x5C ∧ ¬ UInt8.ofNat n < 0x20 := by
    intro n hn hn' h22 h5c
    have ht : (UInt8.ofNat n).toNat = n := by simp [Nat.mod_eq_of_lt hn']
    refine ⟨?_, ?_, ?_⟩
    · intro e; rw [e] at ht; simp at ht; omega
    · intro e; rw [e] at ht; simp at ht; omega
    · intro e
      have := UInt8.lt_iff_toNat_lt.1 e
      rw [ht] at this
      simp at this
      omega
  intro b hb
  unfold String.utf8EncodeChar at hb
  simp only at hb
  split at hb
  · simp only [List.mem_singleton] at hb
    subst hb
    exact key _ h3 (by omega) h1 h2
  · split at hb
    · simp only [List.mem_cons, List.not_mem_nil, or_false] at hb
      rcases hb with rfl | rfl <;> exact key _ (by omega) (by omega) (by omega) (by omega)
    · split at hb
      · simp only [List.mem_cons, List.not_mem_nil, or_false] at hb
        rcases hb with rfl | rfl | rfl <;> exact key _ (by omega) (by omega) (by omega) (by omega)
      · simp only [List.mem_cons, List.not_mem_nil, or_false] at hb
        rcases hb with rfl | rfl | rfl | rfl <;>
          exact key _ (by omega) (by omega) (by omega) (by omega)

/-! ## Strings -/

namespace StringText

/-- The string after some bytes that do not end it. -/
def feed (s : StringText) : List UInt8 → Option StringText
  | [] => some s
  | b :: bs =>
    match s.next b with
    | .extended t => feed t bs
    | _ => none

theorem feed_append {s t : StringText} {bs : List UInt8} (cs : List UInt8)
    (h : s.feed bs = some t) : s.feed (bs ++ cs) = t.feed cs := by
  induction bs generalizing s with
  | nil =>
    cases h
    rfl
  | cons b bs ih =>
    simp only [List.cons_append, feed] at h ⊢
    split at h
    · exact ih h
    · cases h

theorem feed_verbatim {bs : List UInt8} (before : List UInt8)
    (h : ∀ b ∈ bs, b ≠ 0x22 ∧ b ≠ 0x5C ∧ ¬ b < 0x20) :
    feed { bytes := before } bs = some { bytes := bs.reverse ++ before } := by
  induction bs generalizing before with
  | nil => rfl
  | cons b bs ih =>
    obtain ⟨hq, hs, hc⟩ := h b List.mem_cons_self
    have hn : next { bytes := before } b = .extended { bytes := b :: before } := by
      simp [next, hq, hs, hc]
    simp only [feed, hn]
    rw [ih (b :: before) fun d hd => h d (List.mem_cons_of_mem b hd)]
    simp

/-- The byte of a hexadecimal digit. -/
def hexByte (n : Nat) : UInt8 := UInt8.ofNat (Nat.digitChar n).toNat

theorem utf8_control : ∀ n, n < 32 →
    utf8 ['\\', 'u', '0', '0', Nat.digitChar (n / 16), Nat.digitChar (n % 16)] =
      [0x5C, 0x75, 0x30, 0x30, hexByte (n / 16), hexByte (n % 16)] := by
  decide

theorem hexValue?_control : ∀ n, n < 32 →
    hexValue? [0x30, 0x30, hexByte (n / 16), hexByte (n % 16)] = some n := by
  decide

theorem feed_escape (before : List UInt8) (c : Char) :
    feed { bytes := before } (utf8 (Json.escape c)) =
      some { bytes := (String.utf8EncodeChar c).reverse ++ before } := by
  by_cases hp : IsPlain c
  · rw [escape_of_plain hp]
    have := feed_verbatim before (plain_bytes hp)
    simpa [utf8] using this
  · unfold Json.escape
    split_ifs with h1 h2 h3 h4 h5 h6 h7 h8
    · subst c; rfl
    · subst c; rfl
    · subst c; rfl
    · subst c; rfl
    · subst c; rfl
    · subst c; rfl
    · subst c; rfl
    · have hlow : ¬ 0xDC00 ≤ c.toNat := by omega
      have hhigh : ¬ 0xD800 ≤ c.toNat := by omega
      rw [utf8_control _ h8]
      simp [feed, next, hexValue?_control _ h8, pushUnit, push, hlow, hhigh]
    · exact absurd ⟨h1, h2, by omega⟩ hp

theorem feed_escaped (before : List UInt8) (cs : List Char) :
    feed { bytes := before } (utf8 (cs.flatMap Json.escape)) =
      some { bytes := (utf8 cs).reverse ++ before } := by
  induction cs generalizing before with
  | nil => rfl
  | cons c cs ih =>
    rw [List.flatMap_cons, utf8_append, feed_append _ (feed_escape before c), ih, utf8_cons]
    simp

theorem next_quote (s : String) :
    next { bytes := (utf8 s.toList).reverse } 0x22 = .ended s := by
  simp [next, decode?_utf8]

end StringText

/-! ## Running over parts of a text -/

namespace State

theorem run_cons {s t : State} {b : UInt8} (bs : List UInt8) (h : s.step b = .ok t) :
    s.run (b :: bs) = t.run bs := by
  simp only [run, List.foldlM_cons, h]
  rfl

theorem run_cons_error {s : State} {e : ScanError} {b : UInt8} (bs : List UInt8)
    (h : s.step b = .error e) : s.run (b :: bs) = .error e := by
  simp only [run, List.foldlM_cons, h]
  rfl

theorem run_append_of_ok {s t : State} {bs : List UInt8} (cs : List UInt8)
    (h : s.run bs = .ok t) : s.run (bs ++ cs) = t.run cs := by
  rw [run_append, h]
  rfl

theorem run_append_of_error {s : State} {e : ScanError} {bs : List UInt8} (cs : List UInt8)
    (h : s.run bs = .error e) : s.run (bs ++ cs) = .error e := by
  rw [run_append, h]
  rfl

/-- Bytes that belong to a string leave the machine in the mode that reads the string. -/
theorem run_feed (stack : List Frame) (mode : StringText → Mode) {t u : StringText}
    {bs : List UInt8} (h : t.feed bs = some u)
    (hmode : ∀ t b t', t.next b = .extended t' →
      step ⟨stack, mode t⟩ b = .ok ⟨stack, mode t'⟩) :
    run ⟨stack, mode t⟩ bs = .ok ⟨stack, mode u⟩ := by
  induction bs generalizing t with
  | nil =>
    cases h
    rfl
  | cons b bs ih =>
    simp only [StringText.feed] at h
    split at h
    · rename_i t' hn
      rw [run_cons bs (hmode t b t' hn)]
      exact ih h
    · cases h

theorem utf8_renderString (s : String) :
    utf8 (renderString s) = 0x22 :: (utf8 (s.toList.flatMap escape) ++ [0x22]) := by
  rw [renderString, List.cons_append, utf8_cons, utf8_append]
  rfl

/-- A written string is read as that string. -/
theorem run_renderString (stack : List Frame) (s : String) :
    run ⟨stack, .value⟩ (utf8 (renderString s)) = .ok (complete (.string s) stack) := by
  have hf : run ⟨stack, .string {}⟩ (utf8 (s.toList.flatMap escape)) =
      .ok ⟨stack, .string { bytes := (utf8 s.toList).reverse ++ [] }⟩ :=
    run_feed stack .string (StringText.feed_escaped [] s.toList)
      (fun t b t' h => by simp [step, h])
  rw [utf8_renderString, run_cons _ (t := ⟨stack, .string {}⟩) rfl, run_append_of_ok _ hf,
    List.append_nil]
  exact run_cons [] (by simp [step, StringText.next_quote])

/-- A written key is read as that key. -/
theorem run_key (stack : List Frame) (members : List (String × Value)) (key : String)
    (rest : List UInt8) :
    run ⟨stack, .key members⟩ (utf8 (renderString key) ++ 0x3A :: rest) =
      run ⟨.member members key :: stack, .value⟩ rest := by
  have hf : run ⟨stack, .keyText members {}⟩ (utf8 (key.toList.flatMap escape)) =
      .ok ⟨stack, .keyText members { bytes := (utf8 key.toList).reverse ++ [] }⟩ :=
    run_feed stack (.keyText members) (StringText.feed_escaped [] key.toList)
      (fun t b t' h => by simp [step, h])
  have hq : step ⟨stack, .keyText members { bytes := (utf8 key.toList).reverse }⟩ 0x22 =
      .ok ⟨stack, .colon members key⟩ := by simp [step, StringText.next_quote]
  rw [utf8_renderString, List.cons_append, run_cons _ (t := ⟨stack, .keyText members {}⟩) rfl,
    List.append_assoc, run_append_of_ok _ hf, List.append_nil, List.singleton_append,
    run_cons _ hq, run_cons _ (t := ⟨.member members key :: stack, .value⟩) rfl]

end State

/-! ## Values without numbers -/

namespace Value

mutual

/-- No number occurs in the value. -/
def Numberless : Value → Prop
  | number _ => False
  | array vs => NumberlessItems vs
  | object ms => NumberlessMembers ms
  | _ => True

/-- `Numberless` for the items of an array. -/
def NumberlessItems : List Value → Prop
  | [] => True
  | v :: vs => v.Numberless ∧ NumberlessItems vs

/-- `Numberless` for the members of an object. -/
def NumberlessMembers : List (String × Value) → Prop
  | [] => True
  | (_, v) :: ms => v.Numberless ∧ NumberlessMembers ms

end

@[simp] theorem numberless_null : null.Numberless := trivial

@[simp] theorem numberless_bool (b : Bool) : (bool b).Numberless := trivial

@[simp] theorem numberless_string (s : String) : (string s).Numberless := trivial

@[simp] theorem numberless_object {ms : List (String × Value)} :
    (object ms).Numberless ↔ NumberlessMembers ms := .rfl

theorem numberlessItems_iff {vs : List Value} : NumberlessItems vs ↔ ∀ v ∈ vs, v.Numberless := by
  induction vs with
  | nil => simp [NumberlessItems]
  | cons v vs ih => simp [NumberlessItems, ih]

theorem numberlessMembers_iff {ms : List (String × Value)} :
    NumberlessMembers ms ↔ ∀ m ∈ ms, m.2.Numberless := by
  induction ms with
  | nil => simp [NumberlessMembers]
  | cons m ms ih =>
    obtain ⟨k, v⟩ := m
    simp [NumberlessMembers, ih]

/-- A value begins with a byte that is neither white space nor a closing bracket. -/
theorem render_first {v : Value} (h : v.Numberless) :
    ∃ b bs, utf8 v.render = b :: bs ∧ State.isSpace b = false ∧ b ≠ 0x5D := by
  cases v with
  | null => exact ⟨_, _, rfl, rfl, by decide⟩
  | bool b => cases b <;> exact ⟨_, _, rfl, rfl, by decide⟩
  | number n => exact h.elim
  | string s => exact ⟨_, _, rfl, rfl, by decide⟩
  | array vs => exact ⟨_, _, rfl, rfl, by decide⟩
  | object ms => exact ⟨_, _, rfl, rfl, by decide⟩

end Value

/-! ## Printed values -/

namespace State

open Value

/-- The first item of an array is read as a value in an array without items. -/
theorem run_arrayStart (stack : List Frame) {v : Value} (h : v.Numberless) (rest : List UInt8) :
    run ⟨stack, .arrayStart⟩ (utf8 v.render ++ rest) =
      run ⟨.item [] :: stack, .value⟩ (utf8 v.render ++ rest) := by
  obtain ⟨b, bs, hb, hs, hc⟩ := render_first h
  rw [hb, List.cons_append]
  simp only [run, List.foldlM_cons, step, hs, hc, if_false, Bool.false_eq_true]

/-- The first key of an object is read as a key of an object without members. -/
theorem run_objectStart (stack : List Frame) (key : String) (rest : List UInt8) :
    run ⟨stack, .objectStart⟩ (utf8 (renderString key) ++ rest) =
      run ⟨stack, .key []⟩ (utf8 (renderString key) ++ rest) := by
  rw [utf8_renderString, List.cons_append, run_cons _ (t := ⟨stack, .keyText [] {}⟩) rfl,
    run_cons _ (t := ⟨stack, .keyText [] {}⟩) rfl]

/-- What reading comes to if `depth` containers are opened above those in the stack. -/
def outcome (stack : List Frame) (depth : Nat) (v : Value) : Except ScanError State :=
  if stack.length + depth ≤ maxDepth then .ok (complete v stack) else .error .unexpected

theorem run_append_outcome {s : State} {stack : List Frame} {depth : Nat} {v : Value}
    {bs : List UInt8} (cs : List UInt8) (h : s.run bs = outcome stack depth v) :
    s.run (bs ++ cs) =
      if stack.length + depth ≤ maxDepth then (complete v stack).run cs
      else .error .unexpected := by
  unfold outcome at h
  split at h
  · rename_i hd
    rw [run_append_of_ok cs h, if_pos hd]
  · rename_i hd
    rw [run_append_of_error cs h, if_neg hd]

/-- A further part that fits counts for the outcome as much as what follows it. -/
theorem outcome_max {stack : List Frame} {d e : Nat} {v : Value} :
    (if stack.length + 1 + d ≤ maxDepth then outcome stack (e + 1) v else .error .unexpected) =
      outcome stack (max d e + 1) v := by
  unfold outcome
  split_ifs with h1 h2 h3 h3
  · rfl
  · exact absurd (show stack.length + (max d e + 1) ≤ maxDepth by omega) h3
  · exact absurd (show stack.length + (e + 1) ≤ maxDepth by omega) h2
  · rfl
  · exact absurd (show stack.length + 1 + d ≤ maxDepth by omega) h1
  · rfl

mutual

/-- A printed value is read as the value with its members sorted, if it is not too deep. -/
theorem run_render (stack : List Frame) (hs : stack.length ≤ maxDepth) :
    ∀ v : Value, v.Numberless →
      run ⟨stack, .value⟩ (utf8 v.render) = outcome stack v.depth v.sortKeys
  | .null, _ => by simp [outcome, depth, hs]; rfl
  | .bool true, _ => by simp [outcome, depth, hs]; rfl
  | .bool false, _ => by simp [outcome, depth, hs]; rfl
  | .string s, _ => by simp [outcome, depth, hs, render, run_renderString, sortKeys]
  | .array vs, h => by
    have hb : utf8 (render (.array vs)) = 0x5B :: utf8 (renderItems vs) := rfl
    rw [hb]
    by_cases hlt : stack.length < maxDepth
    · rw [run_cons _ (t := ⟨stack, .arrayStart⟩) (by simp [step, isSpace, beginValue, hlt])]
      cases vs with
      | nil =>
        have hd : stack.length + 1 ≤ maxDepth := hlt
        simp only [outcome, depth, depthOfItems, Nat.zero_add, if_pos hd]
        rfl
      | cons v vs =>
        have hv := run_render (.item [] :: stack) hlt v h.1
        have hvs := run_renderMoreItems stack hlt [v.sortKeys] vs h.2
        rw [renderItems, utf8_append, run_arrayStart stack h.1, run_append_outcome _ hv]
        simp only [complete, hvs, List.length_cons]
        exact outcome_max
    · have hd : ¬ stack.length + (Value.array vs).depth ≤ maxDepth := by
        simp only [depth]
        omega
      rw [outcome, if_neg hd]
      exact run_cons_error _ (by simp [step, isSpace, beginValue, hlt])
  | .object ms, h => by
    have hb : utf8 (render (.object ms)) = 0x7B :: utf8 (renderMembers ms) := rfl
    rw [hb]
    by_cases hlt : stack.length < maxDepth
    · rw [run_cons _ (t := ⟨stack, .objectStart⟩) (by simp [step, isSpace, beginValue, hlt])]
      cases ms with
      | nil =>
        have hd : stack.length + 1 ≤ maxDepth := hlt
        simp only [outcome, depth, depthOfMembers, Nat.zero_add, if_pos hd]
        rfl
      | cons m ms =>
        obtain ⟨k, v⟩ := m
        have hv := run_render (.member [] k :: stack) hlt v h.1
        have hms := run_renderMoreMembers stack hlt (Entries.insert k v.sortKeys []) ms h.2
        have hk : utf8 (renderMembers ((k, v) :: ms)) =
            utf8 (renderString k) ++ 0x3A :: (utf8 v.render ++ utf8 (renderMoreMembers ms)) := by
          simp only [renderMembers, utf8_append, utf8_cons, List.cons_append, List.append_assoc]
          rfl
        rw [hk, run_objectStart, run_key, run_append_outcome _ hv]
        simp only [complete, hms, List.length_cons]
        exact outcome_max
    · have hd : ¬ stack.length + (Value.object ms).depth ≤ maxDepth := by
        simp only [depth]
        omega
      rw [outcome, if_neg hd]
      exact run_cons_error _ (by simp [step, isSpace, beginValue, hlt])

theorem run_renderMoreItems (stack : List Frame) (hs : stack.length < maxDepth) :
    ∀ (items vs : List Value), NumberlessItems vs →
      run ⟨stack, .afterItem items⟩ (utf8 (renderMoreItems vs)) =
        outcome stack (depthOfItems vs + 1) (.array (items.reverse ++ sortItems vs))
  | items, [], _ => by
    have hd : stack.length + 1 ≤ maxDepth := hs
    simp only [outcome, depthOfItems, Nat.zero_add, if_pos hd, sortItems, List.append_nil]
    rfl
  | items, v :: vs, h => by
    have hv := run_render (.item items :: stack) hs v h.1
    have hvs := run_renderMoreItems stack hs (v.sortKeys :: items) vs h.2
    have hb : utf8 (renderMoreItems (v :: vs)) =
        0x2C :: (utf8 v.render ++ utf8 (renderMoreItems vs)) := by
      simp only [renderMoreItems, utf8_append, utf8_cons, List.cons_append]
      rfl
    rw [hb, run_cons _ (t := ⟨.item items :: stack, .value⟩) rfl, run_append_outcome _ hv]
    simp only [complete, hvs, List.length_cons, List.reverse_cons, List.append_assoc,
      List.singleton_append]
    exact outcome_max

theorem run_renderMoreMembers (stack : List Frame) (hs : stack.length < maxDepth) :
    ∀ (members ms : List (String × Value)), NumberlessMembers ms →
      run ⟨stack, .afterMember members⟩ (utf8 (renderMoreMembers ms)) =
        outcome stack (depthOfMembers ms + 1) (.object (sortOnto members ms))
  | members, [], _ => by
    have hd : stack.length + 1 ≤ maxDepth := hs
    simp only [outcome, depthOfMembers, Nat.zero_add, if_pos hd, sortOnto]
    rfl
  | members, (k, v) :: ms, h => by
    have hv := run_render (.member members k :: stack) hs v h.1
    have hms := run_renderMoreMembers stack hs (Entries.insert k v.sortKeys members) ms h.2
    have hb : utf8 (renderMoreMembers ((k, v) :: ms)) =
        0x2C :: (utf8 (renderString k) ++ 0x3A ::
          (utf8 v.render ++ utf8 (renderMoreMembers ms))) := by
      simp only [renderMoreMembers, utf8_append, utf8_cons, List.cons_append, List.append_assoc]
      rfl
    rw [hb, run_cons _ (t := ⟨stack, .key members⟩) rfl, run_key, run_append_outcome _ hv]
    simp only [complete, hms, List.length_cons]
    exact outcome_max

end

end State

/-- A printed value is read back with its members sorted, unless it is too deep. -/
theorem scan_render {v : Value} (h : v.Numberless) :
    scan (utf8 v.render) =
      if v.depth ≤ maxDepth then .ok v.sortKeys else .error .unexpected := by
  rw [scan_eq, State.start, State.run_render [] (Nat.zero_le _) v h, State.outcome]
  simp only [List.length_nil, Nat.zero_add]
  split_ifs
  · rfl
  · rfl

end StandingQuery.Json

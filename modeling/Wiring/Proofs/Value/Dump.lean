import Mathlib.Data.List.Dedup
import Wiring.Proofs.Ordered
import Wiring.Proofs.Text
import Wiring.Proofs.Value.Equality
import Wiring.Value.Dump

/-!
# Values — what a dump keeps

`Value.elements?` are the members of a list, a set or an array, and `Value.entries?` the entries of a
table.  A selector leads from a value to one of its parts, and in the same way from JSON to a part of
it (`Value.at?`, `Json.at?`); a name leads to the last of the entries whose keys show it.

**A dump keeps every part of a value, but for those under keys that show what a later key shows**
(`dump_keeps_parts`).  Elements become an array, in order.  Entries become an object with one member
for each text that a key shows, which is the last entry's; so there is one for each entry exactly when
no two keys show the same (`Value.Tells`).

Keys that are not equal may show the same (`numeral_hides_number`).  Those of one kind do not, where
it is a kind without parts, and not that of decimals, among which there are two NaNs (`nodup_texts`).
-/

namespace Wiring

/-! ### JSON objects -/

namespace Json

theorem members_ofMembers_concat (es : List (String × Json)) (e : String × Json) :
    (ofMembers (es ++ [e])).members = insertSorted e.1 e.2 (ofMembers es).members := by
  rw [ofMembers, List.foldl_append]
  rfl

theorem sorted_ofMembers (es : List (String × Json)) :
    (ofMembers es).members.Pairwise fun a b => a.1 < b.1 := by
  induction es using List.reverseRecOn with
  | nil => exact .nil
  | append_singleton es e ih =>
      rw [members_ofMembers_concat]
      exact sorted_insertSorted e.1 e.2 ih

/-- Of several members with one name the last one stands. -/
theorem lookup_ofMembers (es : List (String × Json)) (name : String) :
    (ofMembers es).members.lookup name = es.reverse.lookup name := by
  induction es using List.reverseRecOn with
  | nil => rfl
  | append_singleton es e ih =>
      rw [members_ofMembers_concat, Table.lookup_insertSorted, ih, List.reverse_append]
      exact (Table.lookup_cons name e es.reverse).symm

theorem mem_members {es : List (String × Json)} {name : String} {json : Json} :
    (name, json) ∈ (ofMembers es).members ↔ es.reverse.lookup name = some json := by
  rw [← lookup_ofMembers, Table.lookup_eq_some_iff (sorted_ofMembers es)]

theorem nodup_names (es : List (String × Json)) : ((ofMembers es).members.map Prod.fst).Nodup := by
  refine List.pairwise_map.2 ((sorted_ofMembers es).imp fun {a b} less same => ?_)
  rw [same] at less
  exact String.lt_irrefl b.1 less

theorem mem_names {es : List (String × Json)} {name : String} :
    name ∈ (ofMembers es).members.map Prod.fst ↔ name ∈ es.map Prod.fst := by
  rw [List.mem_map, List.mem_map]
  constructor
  · rintro ⟨⟨_, json⟩, member, rfl⟩
    obtain ⟨before, _, after, rfl, same, -⟩ :=
      Ordered.lookup_reverse_eq_some_iff.1 (mem_members.1 member)
    cases eq_of_beq same
    exact ⟨_, List.mem_append_right _ List.mem_cons_self, rfl⟩
  · rintro ⟨e, he, rfl⟩
    have known : e.1 ∈ es.reverse.map Prod.fst := by
      rw [List.map_reverse, List.mem_reverse]
      exact List.mem_map_of_mem he
    obtain ⟨json, found⟩ := Option.isSome_iff_exists.1 (Ordered.lookup_isSome known)
    exact ⟨(e.1, json), mem_members.2 found, rfl⟩

/-- An object has as many members as it was made of exactly when their names are different. -/
theorem length_members (es : List (String × Json)) :
    (ofMembers es).members.length = es.length ↔ (es.map Prod.fst).Nodup := by
  have names : ((ofMembers es).members.map Prod.fst).Perm (es.map Prod.fst).dedup :=
    (List.perm_ext_iff_of_nodup (nodup_names es) (List.nodup_dedup _)).2 fun name => by
      rw [mem_names, List.mem_dedup]
  have length : (ofMembers es).members.length = (es.map Prod.fst).dedup.length := by
    rw [← names.length_eq, List.length_map]
  rw [length, ← List.dedup_eq_self]
  constructor
  · intro same
    refine (List.dedup_sublist _).eq_of_length ?_
    rw [same, List.length_map]
  · intro same
    rw [same, List.length_map]

/-! ### Parts -/

/-- A place in an array or in an object. -/
inductive Selector where
  | index (i : Nat)
  | name (text : String)

/-- The part in the place. -/
def select? : Json → Selector → Option Json
  | array items, .index i => items[i]?
  | object members, .name text => members.lookup text
  | _, _ => none

/-- The part that is found place by place. -/
def at? (json : Json) (route : List Selector) : Option Json :=
  route.foldlM select? json

end Json

namespace Value

/-- The elements of a list, a set or an array. -/
def elements? : Value → Option (List Value)
  | list values | set values | array _ values => some values
  | stringArray items => some (items.map .string)
  | _ => none

/-- The entries of a map or a properties table. -/
def entries? : Value → Option (List (Value × Value))
  | map entries | properties entries => some entries
  | _ => none

variable {shown : Value → String}

/-- The values under what their keys show. -/
def named (shown : Value → String) (es : List (Value × Value)) : List (String × Value) :=
  es.map fun e => (shown e.1, e.2)

/-- The part in the place: an element, or the value of the last entry whose key shows the name. -/
def select? (shown : Value → String) (v : Value) : Json.Selector → Option Value
  | .index i => v.elements?.bind (·[i]?)
  | .name text => v.entries?.bind fun es => (named shown es).reverse.lookup text

/-- The part that is found place by place. -/
def at? (shown : Value → String) (v : Value) (route : List Json.Selector) : Option Value :=
  route.foldlM (select? shown) v

/-! ### The dump of a value and the dumps of its parts -/

theorem dumpsBy_eq (vs : List Value) : dumpsBy shown vs = vs.map (dumpBy shown) := by
  induction vs with
  | nil => rfl
  | cons v vs ih => rw [dumpsBy, ih, List.map_cons]

theorem dumpEntriesBy_eq (es : List (Value × Value)) :
    dumpEntriesBy shown es = (named shown es).map fun e => (e.1, e.2.dumpBy shown) := by
  induction es with
  | nil => rfl
  | cons e es ih =>
      rw [dumpEntriesBy, ih]
      rfl

/-- Elements become the members of an array, in order. -/
theorem dumpBy_of_elements {v : Value} {vs : List Value} (h : v.elements? = some vs) :
    v.dumpBy shown = .array (vs.map (dumpBy shown)) := by
  cases v with
  | list | set | array =>
      cases h
      exact congrArg Json.array (dumpsBy_eq vs)
  | stringArray items =>
      cases h
      rw [List.map_map]
      rfl
  | _ => cases h

/-- Entries become the members of an object. -/
theorem dumpBy_of_entries {v : Value} {es : List (Value × Value)} (h : v.entries? = some es) :
    v.dumpBy shown = .ofMembers (dumpEntriesBy shown es) := by
  cases v with
  | map | properties =>
      cases h
      rfl
  | _ => cases h

/-- Under a name stands the last of the entries whose keys show it. -/
theorem lookup_members (es : List (Value × Value)) (name : String) :
    (Json.ofMembers (dumpEntriesBy shown es)).members.lookup name =
      ((named shown es).reverse.lookup name).map (dumpBy shown) := by
  rw [Json.lookup_ofMembers, dumpEntriesBy_eq, ← List.map_reverse, Table.lookup_map]

/-- A part of a value is dumped in its place. -/
theorem select?_dumpBy {v part : Value} {place : Json.Selector}
    (h : v.select? shown place = some part) :
    (v.dumpBy shown).select? place = some (part.dumpBy shown) := by
  cases place with
  | index i =>
      obtain ⟨vs, elements, found⟩ := Option.bind_eq_some_iff.1 h
      rw [dumpBy_of_elements elements]
      change (vs.map (dumpBy shown))[i]? = _
      rw [List.getElem?_map, found]
      rfl
  | name text =>
      obtain ⟨es, entries, found⟩ := Option.bind_eq_some_iff.1 h
      rw [dumpBy_of_entries entries]
      change (Json.ofMembers _).members.lookup text = _
      rw [lookup_members, found]
      rfl

/-- So is a part of a part. -/
theorem at?_dumpBy : ∀ {route : List Json.Selector} {v part : Value},
    v.at? shown route = some part → (v.dumpBy shown).at? route = some (part.dumpBy shown)
  | [], _, _, h => by
      cases h
      rfl
  | place :: route, v, part, h => by
      rw [at?, List.foldlM_cons] at h
      obtain ⟨first, hfirst, h⟩ := Option.bind_eq_some_iff.1 h
      rw [Json.at?, List.foldlM_cons, select?_dumpBy hfirst]
      exact at?_dumpBy h

/-! ### Members and entries -/

/-- What the members of an object tell of the entries of a table. -/
structure Tells (shown : Value → String) (es : List (Value × Value))
    (members : List (String × Json)) : Prop where
  /-- No two members have one name. -/
  nodup : (members.map Prod.fst).Nodup
  /-- A member is the last entry whose key shows its name. -/
  mem_iff (name : String) (json : Json) : (name, json) ∈ members ↔
    ∃ before k v after, es = before ++ (k, v) :: after ∧ shown k = name ∧ v.dumpBy shown = json ∧
      ∀ f ∈ after, shown f.1 ≠ name
  /-- There is one for each entry exactly when no two keys show the same. -/
  length_eq_iff : members.length = es.length ↔ (es.map fun e => shown e.1).Nodup
  /-- In that case every entry is told. -/
  mem_of_nodup : (es.map fun e => shown e.1).Nodup →
    ∀ e ∈ es, (shown e.1, e.2.dumpBy shown) ∈ members

/-- The last of the entries whose keys show the name. -/
theorem lookup_named_iff {es : List (Value × Value)} {name : String} {v : Value} :
    (named shown es).reverse.lookup name = some v ↔
      ∃ before k after, es = before ++ (k, v) :: after ∧ shown k = name ∧
        ∀ f ∈ after, shown f.1 ≠ name := by
  rw [Ordered.lookup_reverse_eq_some_iff, named]
  constructor
  · rintro ⟨_, text, _, split, same, others⟩
    obtain ⟨before, rest, rfl, rfl, last⟩ := List.map_eq_append_iff.1 split
    obtain ⟨⟨k, w⟩, after, rfl, entry, rfl⟩ := List.map_eq_cons_iff.1 last
    cases entry
    refine ⟨before, k, after, rfl, (eq_of_beq same).symm, fun f hf shows => ?_⟩
    have other := others (shown f.1, f.2) (List.mem_map_of_mem hf)
    rw [shows, beq_self_eq_true] at other
    cases other
  · rintro ⟨before, k, after, rfl, rfl, others⟩
    refine ⟨named shown before, shown k, named shown after, List.map_append, beq_self_eq_true _, ?_⟩
    intro f hf
    obtain ⟨e, he, rfl⟩ := List.mem_map.1 hf
    exact beq_false_of_ne (others e he).symm

theorem tells_members (shown : Value → String) (es : List (Value × Value)) :
    Tells shown es (Json.ofMembers (dumpEntriesBy shown es)).members := by
  have mem (name json) : (name, json) ∈ (Json.ofMembers (dumpEntriesBy shown es)).members ↔
      ∃ v, (named shown es).reverse.lookup name = some v ∧ v.dumpBy shown = json := by
    rw [Json.mem_members, ← Json.lookup_ofMembers, lookup_members, Option.map_eq_some_iff]
  have names : (dumpEntriesBy shown es).map Prod.fst = es.map fun e => shown e.1 := by
    rw [dumpEntriesBy_eq, named, List.map_map, List.map_map]
    rfl
  have length : (dumpEntriesBy shown es).length = es.length := by
    rw [dumpEntriesBy_eq, List.length_map, named, List.length_map]
  refine ⟨Json.nodup_names _, fun name json => ?_, ?_, fun distinct e he => ?_⟩
  · rw [mem]
    constructor
    · rintro ⟨v, found, rfl⟩
      obtain ⟨before, k, after, split, shows, others⟩ := lookup_named_iff.1 found
      exact ⟨before, k, v, after, split, shows, rfl, others⟩
    · rintro ⟨before, k, v, after, split, shows, rfl, others⟩
      exact ⟨v, lookup_named_iff.2 ⟨before, k, after, split, shows, others⟩, rfl⟩
  · rw [← names, ← length, Json.length_members]
  · -- no key behind the entry shows what its key shows
    obtain ⟨before, after, rfl⟩ := List.append_of_mem he
    rw [List.map_append, List.map_cons] at distinct
    have behind := (List.nodup_cons.1 (List.nodup_append.1 distinct).2.1).1
    refine (mem _ _).2 ⟨e.2, lookup_named_iff.2 ⟨before, e.1, after, rfl, rfl, ?_⟩, rfl⟩
    intro f hf shows
    exact behind (shows ▸ List.mem_map_of_mem hf)

/-! ### Keys that show the same -/

/-- The value is of a kind whose texts tell its values apart. -/
def isLegible : Value → Bool
  | null | bool _ | int _ | char _ | string _ => true
  | _ => false

theorem eq_of_text_eq {v w : Value} (legible : v.isLegible) (alike : v.kind = w.kind)
    (same : v.text = w.text) : v = w := by
  cases v with
  | null =>
      cases w with
      | null => rfl
      | _ => simp [kind] at alike
  | bool a =>
      cases w with
      | bool b => cases a <;> cases b <;> simp [text] at same ⊢
      | _ => simp [kind] at alike
  | int a =>
      cases w with
      | int b =>
          have read (i : Int64) : Text.readInteger (int i).text = .ok i :=
            Text.readInteger_eq_ok.2 (Text.numeral_toString i.toInt)
          have both := (read a).symm.trans ((congrArg Text.readInteger same).trans (read b))
          exact congrArg int (Except.ok.inj both)
      | _ => simp [kind] at alike
  | char a =>
      cases w with
      | char b => exact congrArg char (String.singleton_inj.1 same)
      | _ => simp [kind] at alike
  | string a =>
      cases w with
      | string b => exact congrArg string same
      | _ => simp [kind] at alike
  | _ => cases legible

/-- Keys of one such kind show different texts unless they are equal. -/
theorem nodup_texts {es : List (Value × Value)} {kind : String}
    (distinct : (es.map Prod.fst).Pairwise fun a b => (a == b) = false)
    (legible : ∀ e ∈ es, e.1.isLegible ∧ e.1.kind = kind) : (es.map fun e => e.1.text).Nodup := by
  refine List.pairwise_map.2 ((List.pairwise_map.1 distinct).imp_of_mem ?_)
  intro e f he hf apart same
  obtain ⟨plain, hkind⟩ := legible e he
  have equal : e.1 = f.1 := eq_of_text_eq plain (hkind.trans (legible f hf).2.symm) same
  rw [equal, beq_self_eq_true] at apart
  cases apart

/-! ### Dumps -/

/-- **A dump keeps every part of a value, but for those under keys that show what a later key
shows.** -/
theorem dump_keeps_parts (shown : Value → String) (v : Value) :
    (∀ vs, v.elements? = some vs → v.dumpBy shown = .array (vs.map (dumpBy shown))) ∧
      (∀ es, v.entries? = some es →
        ∃ members, v.dumpBy shown = .object members ∧ Tells shown es members) ∧
      ∀ route part, v.at? shown route = some part →
        (v.dumpBy shown).at? route = some (part.dumpBy shown) :=
  ⟨fun _ elements => dumpBy_of_elements elements,
    fun es entries => ⟨_, dumpBy_of_entries entries, tells_members shown es⟩,
    fun _ _ found => at?_dumpBy found⟩

/-- The keys are strings, so that both entries are kept, and with them what is inside. -/
theorem dump_keeps_parts_of_sizes :
    let names : List Value := [.string "a", .null]
    let es : List (Value × Value) :=
      [(.string "names", .list names), (.string "sizes", .map [(.int 1, .int 10), (.int 2, .int 20)])]
    let route : List Json.Selector := [.name "sizes", .name "2"]
    (list names).elements? = some names ∧ (map es).entries? = some es ∧
      (map es).at? text route = some (.int 20) ∧
      (list names).dump = .array (names.map dump) ∧
      (∃ members, (map es).dump = .object members ∧ members.length = es.length ∧
        ∀ e ∈ es, (e.1.text, e.2.dump) ∈ members) ∧
      (map es).dump.at? route = some (dump (.int 20)) := by
  intro names es route
  obtain ⟨elements, -⟩ := dump_keeps_parts text (list names)
  obtain ⟨-, entries, parts⟩ := dump_keeps_parts text (map es)
  obtain ⟨members, dumped, tells⟩ := entries es rfl
  have distinct : (es.map fun e => e.1.text).Nodup :=
    nodup_texts (by decide : (es.map Prod.fst).Pairwise fun a b => (a == b) = false)
      (by decide : ∀ e ∈ es, e.1.isLegible ∧ e.1.kind = "string")
  have found : (map es).at? text route = some (.int 20) := rfl
  exact ⟨rfl, rfl, found, elements names rfl,
    ⟨members, dumped, tells.length_eq_iff.2 distinct, tells.mem_of_nodup distinct⟩,
    parts route (.int 20) found⟩

/-- The number is dumped under the same name as the text that shows it. -/
theorem numeral_hides_number :
    let es : List (Value × Value) := [(.int 1, .string "a"), (.string "1", .string "b")]
    mapOf es = .map es ∧ (map es).dump = .object [("1", .string "b")] ∧
      ¬ ∃ members, (map es).dump = .object members ∧ members.length = es.length ∧
        ∀ e ∈ es, (e.1.text, e.2.dump) ∈ members := by
  intro es
  have dumped : (map es).dump = .object [("1", .string "b")] := rfl
  refine ⟨rfl, dumped, ?_⟩
  rintro ⟨members, same, length, -⟩
  rw [dumped] at same
  cases same
  cases length

end Value

end Wiring

import Abacus.Proofs.Decoding
import Abacus.Proofs.Dumps
import Mathlib.Data.Finset.Card

/-! # Writing to a store

A store that is only ever written to is known from the last write of each name. In which order
the names were written does not matter, nor what they were given before. Its variables stand in
the order of the bytes of their names, each of them once. -/

namespace Abacus

namespace Store

/-- The store behind writes that are made one after the other, from the empty one on. -/
def ofWrites (writes : List (String × Int64)) : Store :=
  writes.foldl (fun store write => (store.exchange write.1 write.2).2) .empty

/-- A write of the name that no other follows gives it the value. -/
def IsLastWrite (writes : List (String × Int64)) (name : String) (value : Int64) : Prop :=
  ∃ earlier later, writes = earlier ++ (name, value) :: later ∧ name ∉ later.map (·.1)

theorem not_isLastWrite_nil (name : String) (value : Int64) : ¬ IsLastWrite [] name value := by
  rintro ⟨earlier, later, equal, _⟩
  simp at equal

theorem isLastWrite_cons_iff {write : String × Int64} {writes : List (String × Int64)}
    {name : String} {value : Int64} :
    IsLastWrite (write :: writes) name value ↔
      IsLastWrite writes name value ∨ write = (name, value) ∧ name ∉ writes.map (·.1) := by
  constructor
  · rintro ⟨earlier, later, equal, final⟩
    cases earlier with
    | nil =>
        cases equal
        exact .inr ⟨rfl, final⟩
    | cons first earlier =>
        cases equal
        exact .inl ⟨earlier, later, rfl, final⟩
  · rintro (⟨earlier, later, rfl, final⟩ | ⟨rfl, final⟩)
    · exact ⟨write :: earlier, later, rfl, final⟩
    · exact ⟨[], writes, rfl, final⟩

theorem mem_of_isLastWrite {writes : List (String × Int64)} {name : String} {value : Int64}
    (last : IsLastWrite writes name value) : name ∈ writes.map (·.1) := by
  rcases last with ⟨earlier, later, rfl, _⟩
  simp

theorem exists_isLastWrite {writes : List (String × Int64)} {name : String}
    (written : name ∈ writes.map (·.1)) : ∃ value, IsLastWrite writes name value := by
  induction writes with
  | nil => contradiction
  | cons write writes induction =>
      by_cases again : name ∈ writes.map (·.1)
      · rcases induction again with ⟨value, last⟩
        exact ⟨value, isLastWrite_cons_iff.mpr (.inl last)⟩
      · rcases List.mem_cons.mp written with rfl | member
        · exact ⟨write.2, isLastWrite_cons_iff.mpr (.inr ⟨rfl, again⟩)⟩
        · exact absurd member again

/-! ## One write -/

/-- Behind its place an ascending list has no entry of a name. -/
theorem replaced_eq_lookup {entries : List (String × Int64)}
    (ascending : entries.Pairwise fun first second => first.1 < second.1) (name : String) :
    replaced name entries = lookup name entries := by
  induction entries with
  | nil => rfl
  | cons entry rest induction =>
      rcases List.pairwise_cons.mp ascending with ⟨first, restAscending⟩
      rw [replaced, lookup]
      split
      · rfl
      · split
        · next before =>
            symm
            rw [Option.eq_none_iff_forall_ne_some]
            intro value found
            have later := first _ ((mem_iff_lookup restAscending).mpr found)
            exact String.lt_asymm before later
        · exact induction restAscending

theorem exchange_eq (store : Store) (name : String) (value : Int64) :
    store.exchange name value = (store.get? name, store.set name value) := by
  rw [exchange, replaced_eq_lookup store.ascending, get?]

/-! ## All writes -/

theorem get?_foldl_exchange (store : Store) (writes : List (String × Int64)) (name : String)
    (value : Int64) :
    (writes.foldl (fun store write => (store.exchange write.1 write.2).2) store).get? name =
        some value ↔
      IsLastWrite writes name value ∨
        name ∉ writes.map (·.1) ∧ store.get? name = some value := by
  induction writes generalizing store with
  | nil => simp [not_isLastWrite_nil]
  | cons write writes induction =>
      rw [List.foldl_cons, induction, isLastWrite_cons_iff, exchange_eq, get?_set, List.map_cons,
        List.mem_cons, or_assoc]
      refine or_congr_right ?_
      by_cases same : name = write.1
      · rw [if_pos same, Option.some.injEq, Prod.ext_iff]
        grind
      · rw [if_neg same, Prod.ext_iff]
        grind

variable (writes : List (String × Int64))

theorem get?_ofWrites_eq_some_iff (name : String) (value : Int64) :
    (ofWrites writes).get? name = some value ↔ IsLastWrite writes name value := by
  rw [ofWrites, get?_foldl_exchange, get?_empty]
  simp

theorem mem_names_ofWrites_iff (name : String) :
    name ∈ (ofWrites writes).names ↔ name ∈ writes.map (·.1) := by
  simp only [mem_names_iff, get?_ofWrites_eq_some_iff]
  exact ⟨fun ⟨_, last⟩ => mem_of_isLastWrite last, exists_isLastWrite⟩

theorem get?_ofWrites_eq_none_iff (name : String) :
    (ofWrites writes).get? name = none ↔ name ∉ writes.map (·.1) := by
  rw [← mem_names_ofWrites_iff, mem_names_iff, Option.eq_none_iff_forall_ne_some, not_exists]

theorem ofWrites_concat (name : String) (value : Int64) :
    ofWrites (writes ++ [(name, value)]) = (ofWrites writes).set name value := by
  rw [ofWrites, List.foldl_concat]
  rfl

theorem ofWrites_eq_iff (others : List (String × Int64)) :
    ofWrites writes = ofWrites others ↔
      ∀ name value, IsLastWrite writes name value ↔ IsLastWrite others name value := by
  constructor
  · intro equal name value
    rw [← get?_ofWrites_eq_some_iff, equal, get?_ofWrites_eq_some_iff]
  · intro same
    apply ext_get?
    intro name
    apply Option.ext
    intro value
    rw [get?_ofWrites_eq_some_iff, get?_ofWrites_eq_some_iff]
    exact same name value

/-! ## Names -/

theorem nodup_names (store : Store) : store.names.Nodup := by
  rw [names, List.nodup_iff_pairwise_ne, List.pairwise_map]
  apply store.ascending.imp
  intro first second less equal
  rw [equal] at less
  exact String.lt_irrefl _ less

theorem size_ofWrites : (ofWrites writes).size = (writes.map (·.1)).toFinset.card := by
  have same : (ofWrites writes).names.toFinset = (writes.map (·.1)).toFinset := by
    ext name
    rw [List.mem_toFinset, List.mem_toFinset, mem_names_ofWrites_iff]
  rw [← same, List.toFinset_card_of_nodup (nodup_names _), names, List.length_map, size]

theorem isEmpty_ofWrites_iff : (ofWrites writes).isEmpty = true ↔ writes = [] := by
  rw [isEmpty, List.isEmpty_iff, ← List.map_eq_nil_iff (f := (·.1)),
    ← List.map_eq_nil_iff (f := (·.1)) (l := writes), List.eq_nil_iff_forall_not_mem,
    List.eq_nil_iff_forall_not_mem]
  exact forall_congr' fun name => not_congr (mem_names_ofWrites_iff writes name)

theorem count_names_ofWrites (name : String) :
    (ofWrites writes).names.count name = if name ∈ writes.map (·.1) then 1 else 0 := by
  split
  · next written =>
      have member := (mem_names_ofWrites_iff writes name).mpr written
      exact List.count_eq_one_of_mem (nodup_names _) member
  · next unwritten =>
      exact List.count_eq_zero_of_not_mem
        fun member => unwritten ((mem_names_ofWrites_iff writes name).mp member)

theorem ascending_bytes (store : Store) :
    store.entries.Pairwise fun first second =>
      Text.Utf8.encode first.1 < Text.Utf8.encode second.1 :=
  store.ascending.imp fun less => Text.Utf8.encode_lt_of_lt less

end Store

/-- A store is a map in which the last write of a name wins. What a write gives back is what was
found before it. The store has as many variables as different names were written, it lists each of
them once and in ascending order of the bytes of their names, and writes with the same last values
lead to the same store, whatever their order. -/
theorem last_write_wins (writes : List (String × Int64)) :
    (∀ name value, (Store.ofWrites writes).get? name = some value ↔
      Store.IsLastWrite writes name value) ∧
    (∀ name, (Store.ofWrites writes).get? name = none ↔ name ∉ writes.map (·.1)) ∧
    (∀ name, ((Store.ofWrites writes).contains name = true ↔
        ((Store.ofWrites writes).get? name).isSome = true) ∧
      ((Store.ofWrites writes).contains name = true ↔ name ∈ writes.map (·.1))) ∧
    (∀ name value, (Store.ofWrites writes).exchange name value =
      ((Store.ofWrites writes).get? name, Store.ofWrites (writes ++ [(name, value)]))) ∧
    (Store.ofWrites writes).size = (writes.map (·.1)).toFinset.card ∧
    ((Store.ofWrites writes).isEmpty = true ↔ writes = []) ∧
    (Store.ofWrites writes).text = String.join ((Store.ofWrites writes).entries.map fun entry =>
      entry.1 ++ " = " ++ Integer.text entry.2 ++ "\n") ∧
    (∀ name value, (name, value) ∈ (Store.ofWrites writes).entries ↔
      (Store.ofWrites writes).get? name = some value) ∧
    (∀ name, ((Store.ofWrites writes).entries.map (·.1)).count name =
      if name ∈ writes.map (·.1) then 1 else 0) ∧
    ((Store.ofWrites writes).entries.Pairwise fun first second =>
      Text.Utf8.encode first.1 < Text.Utf8.encode second.1) ∧
    (∀ others, Store.ofWrites writes = Store.ofWrites others ↔
      ∀ name value, Store.IsLastWrite writes name value ↔ Store.IsLastWrite others name value) := by
  refine ⟨Store.get?_ofWrites_eq_some_iff writes, Store.get?_ofWrites_eq_none_iff writes, ?_, ?_,
    Store.size_ofWrites writes, Store.isEmpty_ofWrites_iff writes, rfl, ?_,
    Store.count_names_ofWrites writes, Store.ascending_bytes _, Store.ofWrites_eq_iff writes⟩
  · intro name
    refine ⟨Iff.rfl, ?_⟩
    rw [← Store.mem_names_ofWrites_iff, Store.mem_names_iff, ← Option.isSome_iff_exists,
      Store.contains]
  · intro name value
    rw [Store.exchange_eq, Store.ofWrites_concat]
  · intro name value
    exact Store.mem_entries_iff

/-- A letter of one byte comes before one of two bytes, and that before one of four. -/
example : (Store.ofWrites [("𝒳", 1), ("é", 2), ("z", 3), ("é", 4)]).text =
    "z = 3\né = 4\n𝒳 = 1\n" := by
  decide +kernel

end Abacus

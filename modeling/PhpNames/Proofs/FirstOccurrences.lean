import Mathlib.Data.List.Induction
import Mathlib.Data.List.Nodup
import PhpNames.AutoloadMap

/-!
Names that are kept once each, where they occur first.

Named values that are set one after the other keep the place of the first value of their name and
the value of the last. That determines the list that they end in.
-/

namespace PhpNames

section Names

variable {names : List Text} {name : Text}

/-- A name that is added is new, or changes nothing. -/
theorem erase_dups_concat (names : List Text) (name : Text) :
    (names ++ [name]).eraseDups =
      if name ∈ names then names.eraseDups else names.eraseDups ++ [name] := by
  rw [List.eraseDups_append]
  by_cases known : name ∈ names
  · simp [List.removeAll, known]
  · simp [List.removeAll, known, List.eraseDups_cons]

theorem nodup_erase_dups (names : List Text) : names.eraseDups.Nodup := by
  induction names using List.reverseRecOn with
  | nil => simp
  | append_singleton names name induction =>
      rw [erase_dups_concat]
      split
      · exact induction
      · rename_i new
        rw [List.nodup_append_comm]
        apply List.nodup_cons.mpr
        exact ⟨fun known => new (List.mem_eraseDups.mp known), induction⟩

theorem erase_dups_eq_self (distinct : names.Nodup) : names.eraseDups = names := by
  induction names using List.reverseRecOn with
  | nil => simp
  | append_singleton names name induction =>
      obtain ⟨new, others⟩ : name ∉ names ∧ names.Nodup :=
        List.nodup_cons.mp (List.nodup_append_comm.mp distinct)
      rw [erase_dups_concat, if_neg new, induction others]

end Names

namespace Entries

variable {α : Type} {rows entries others : List (Text × α)}

theorem map_fst_set (name : Text) (value : α) (entries : List (Text × α)) :
    (set name value entries).map Prod.fst =
      if name ∈ entries.map Prod.fst then entries.map Prod.fst
      else entries.map Prod.fst ++ [name] := by
  induction entries with
  | nil => rfl
  | cons entry rest induction =>
      obtain ⟨known, old⟩ := entry
      rw [set]
      by_cases same : known = name
      · simp [same]
      · simp only [if_neg same, List.map_cons, induction, List.mem_cons, Ne.symm same, false_or]
        split <;> rfl

/-- The entries that rows end in when they are set in order: every name once, in the order of the
first rows, with the values of the last rows. -/
structure Merges (rows entries : List (Text × α)) : Prop where
  names : entries.map Prod.fst = (rows.map Prod.fst).eraseDups
  values (name : Text) : entries.lookup name = rows.reverse.lookup name

theorem Merges.set (merges : Merges rows entries) (name : Text) (value : α) :
    Merges (rows ++ [(name, value)]) (Entries.set name value entries) where
  names := by
    rw [map_fst_set, merges.names, List.map_append]
    simp only [List.mem_eraseDups]
    exact (erase_dups_concat (rows.map Prod.fst) name).symm
  values other := by
    rw [lookup_set, merges.values, List.reverse_append]
    exact (lookup_cons name other value rows.reverse).symm

theorem merges_foldl (rows : List (Text × α)) :
    Merges rows (rows.foldl (fun entries row => Entries.set row.1 row.2 entries) []) := by
  induction rows using List.reverseRecOn with
  | nil => exact ⟨rfl, fun _ => rfl⟩
  | append_singleton rows row induction =>
      rw [List.foldl_append]
      exact induction.set row.1 row.2

theorem Merges.nodup (merges : Merges rows entries) : (entries.map Prod.fst).Nodup := by
  rw [merges.names]
  exact nodup_erase_dups _

theorem lookup_eq_none {name : Text} (absent : name ∉ entries.map Prod.fst) :
    entries.lookup name = none := by
  apply List.lookup_eq_none_iff.mpr
  intro entry member
  rw [bne_iff_ne]
  rintro rfl
  exact absent (List.mem_map_of_mem member)

/-- Distinct names and the values they have make up the entries. -/
theorem eq_of_lookup (distinct : (entries.map Prod.fst).Nodup)
    (names : entries.map Prod.fst = others.map Prod.fst)
    (values : ∀ name, entries.lookup name = others.lookup name) : entries = others := by
  induction entries generalizing others with
  | nil => exact (List.map_eq_nil_iff.mp names.symm).symm
  | cons entry rest induction =>
      obtain ⟨⟨name, given⟩, further, rfl, same, sameRest⟩ := List.map_eq_cons_iff.mp names.symm
      obtain ⟨_, value⟩ := entry
      cases same
      obtain ⟨absent, distinctRest⟩ := List.nodup_cons.mp distinct
      have valuesRest : ∀ other, rest.lookup other = further.lookup other := by
        intro other
        by_cases here : name = other
        · subst here
          rw [lookup_eq_none absent, lookup_eq_none (sameRest ▸ absent)]
        · have found := values other
          rwa [lookup_cons, lookup_cons, if_neg here, if_neg here] at found
      have valueHere := values name
      rw [lookup_cons, lookup_cons, if_pos rfl, if_pos rfl] at valueHere
      rw [Option.some.inj valueHere, induction distinctRest sameRest.symm valuesRest]

/-- Where no name is repeated, it does not matter from which end a name is looked up. -/
theorem lookup_reverse (distinct : (entries.map Prod.fst).Nodup) (name : Text) :
    entries.reverse.lookup name = entries.lookup name := by
  induction entries with
  | nil => rfl
  | cons entry rest induction =>
      obtain ⟨known, value⟩ := entry
      obtain ⟨absent, distinctRest⟩ := List.nodup_cons.mp distinct
      rw [List.reverse_cons, List.lookup_append, induction distinctRest, lookup_cons, lookup_cons]
      by_cases same : known = name
      · rw [if_pos same, if_pos same, lookup_eq_none (same ▸ absent), Option.none_or]
      · rw [if_neg same, if_neg same, List.lookup_nil, Option.or_none]

theorem Merges.eq (merges : Merges rows entries) (again : Merges rows others) : entries = others :=
  eq_of_lookup merges.nodup (merges.names.trans again.names.symm) fun name =>
    (merges.values name).trans (again.values name).symm

end Entries

namespace AutoloadMap

theorem entries_insert_all (map : AutoloadMap) (rows : List (Text × List Text)) :
    (map.insertAll rows).entries =
      rows.foldl (fun entries row => Entries.set row.1 row.2 entries) map.entries := by
  induction rows generalizing map with
  | nil => rfl
  | cons row rest induction => exact induction (map.insert row.1 row.2)

theorem merges_insert_all (rows : List (Text × List Text)) :
    Entries.Merges rows (({} : AutoloadMap).insertAll rows).entries := by
  rw [entries_insert_all]
  exact Entries.merges_foldl rows

end AutoloadMap
end PhpNames

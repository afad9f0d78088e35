import Mathlib.Data.List.Forall2
import PhpNames.Manifest
import PhpNames.Proofs.FirstOccurrences

/-!
The autoload map that the tables of a manifest are merged into.

A manifest is read into two tables, that of `autoload` and that of `autoload-dev`, each of which may
be missing. What a record, a section and a table may look like is said by relations that the reader
decides. The second table is set over the first: its namespaces keep the places that they have in
the first table and take the directories of the second. A value that is no list of directories is
found wherever it stands, also where the other table would replace it.
-/

namespace PhpNames
namespace Manifest

/-! ### What a manifest may look like -/

/-- The value of a field of an object: at most one member may have its name. -/
inductive Field (members : List (Option Text × Json)) (field : String) : Option Json → Prop
  | absent (unnamed : ∀ member ∈ members, member.1 ≠ some field.toList) : Field members field none
  | once {before after : List (Option Text × Json)} {value : Json}
      (split : members = before ++ (some field.toList, value) :: after)
      (unnamedBefore : ∀ member ∈ before, member.1 ≠ some field.toList)
      (unnamedAfter : ∀ member ∈ after, member.1 ≠ some field.toList) :
      Field members field (some value)

/-- The values of the fields of a record, which is an object or the list of its first fields. -/
inductive Gives (names : List String) : Json → List (Option Json) → Prop
  | byName {members : List (Option Text × Json)} {values : List (Option Json)}
      (spelled : ∀ member ∈ members, member.1.isSome = true)
      (fields : List.Forall₂ (Field members) names values) : Gives names (.object members) values
  | byPlace {items : List Json} (fit : items.length ≤ names.length) :
      Gives names (.array items)
        (items.map some ++ List.replicate (names.length - items.length) none)

/-- The table that an object gives: of several members of a name the first has its place and the
last its value. -/
inductive IsTable : Json → List (Text × Json) → Prop
  | merged {rows table : List (Text × Json)}
      (plain : ∀ row ∈ rows, row.2.isPlain entryDepth = true) (merges : Entries.Merges rows table) :
      IsTable (.object (rows.map fun row => (some row.1, row.2))) table

inductive IsSection : Option Json → Option (List (Text × Json)) → Prop
  | absent : IsSection none none
  | null : IsSection (some .null) none
  | bare {value : Json} (gives : Gives ["psr-4"] value [none]) : IsSection (some value) (some [])
  | listed {value object : Json} {table : List (Text × Json)}
      (gives : Gives ["psr-4"] value [some object]) (reads : IsTable object table) :
      IsSection (some value) (some table)

def HasTables (text : Text) (autoload dev : Option (List (Text × Json))) : Prop :=
  ∃ json first second, Json.parse? text = some json ∧
    Gives ["autoload", "autoload-dev"] json [first, second] ∧
    IsSection first autoload ∧ IsSection second dev

/-- The directories that a value lists: a string is one, an array of strings several. -/
inductive Lists : Json → List Text → Prop
  | one (directory : Text) : Lists (.text directory) [directory]
  | several (directories : List Text) : Lists (.array (directories.map .text)) directories

def Listed (rows : List (Text × Json)) : Prop :=
  ∀ row ∈ rows, ∃ directories, Lists row.2 directories

/-! ### The reader decides it -/

section Reading

variable {members : List (Option Text × Json)} {field : String} {names : List String}
  {value json : Json} {text : Text}

theorem traverse_eq_some_iff {α β : Type} {f : α → Option β} {items : List α} {results : List β} :
    items.mapM f = some results ↔ List.Forall₂ (fun a b => f a = some b) items results := by
  induction items generalizing results with
  | nil => simp [eq_comm]
  | cons item rest induction =>
      rw [List.mapM_cons, List.forall₂_cons_left_iff]
      simp only [Option.bind_eq_bind, Option.bind_eq_some_iff, Option.pure_def, Option.some.injEq,
        induction]
      constructor
      · rintro ⟨first, found, others, further, rfl⟩
        exact ⟨first, others, found, further, rfl⟩
      · rintro ⟨first, others, found, further, rfl⟩
        exact ⟨first, found, others, further, rfl⟩

theorem member_once?_eq_some_iff {given : Option Json} :
    memberOnce? members field = some given ↔ Field members field given := by
  have unnamed_iff : ∀ others : List (Option Text × Json),
      others.filter (·.1 == some field.toList) = [] ↔
        ∀ member ∈ others, member.1 ≠ some field.toList := by
    intro others
    simp only [List.filter_eq_nil_iff, beq_iff_eq, ne_eq]
  constructor
  · intro found
    unfold memberOnce? at found
    split at found
    · rename_i none
      cases found
      exact .absent ((unnamed_iff members).mp none)
    · rename_i key value single
      cases found
      obtain ⟨before, after, rfl, unnamedBefore, named, unnamedAfter⟩ :=
        List.filter_eq_cons_iff.mp single
      obtain rfl : key = some field.toList := beq_iff_eq.mp named
      refine .once rfl ?_ ((unnamed_iff after).mp unnamedAfter)
      intro member inside same
      exact unnamedBefore member inside (beq_iff_eq.mpr same)
    · cases found
  · intro given
    cases given with
    | absent unnamed => rw [memberOnce?, (unnamed_iff members).mpr unnamed]
    | once split unnamedBefore unnamedAfter =>
        rw [memberOnce?, split, List.filter_append, (unnamed_iff _).mpr unnamedBefore,
          List.filter_cons_of_pos (by simp), (unnamed_iff _).mpr unnamedAfter]
        rfl

theorem fields?_eq_some_iff {values : List (Option Json)} :
    fields? names json = some values ↔ Gives names json values := by
  constructor
  · intro found
    unfold fields? at found
    split at found
    · split at found
      · rename_i spelled
        refine .byName (List.all_eq_true.mp spelled) ((traverse_eq_some_iff.mp found).imp ?_)
        intro field given
        exact member_once?_eq_some_iff.mp
      · cases found
    · split at found
      · rename_i fit
        cases found
        exact .byPlace fit
      · cases found
    · cases found
  · intro gives
    cases gives with
    | byName spelled fields =>
        rw [fields?, if_pos (List.all_eq_true.mpr spelled), traverse_eq_some_iff]
        exact fields.imp fun _ _ => member_once?_eq_some_iff.mpr
    | byPlace fit => rw [fields?, if_pos fit]

theorem Gives.length_eq {values : List (Option Json)} (gives : Gives names json values) :
    values.length = names.length := by
  cases gives with
  | byName _ fields => exact fields.length_eq.symm
  | byPlace fit =>
      rw [List.length_append, List.length_map, List.length_replicate]
      omega

theorem exists_rows (spelled : ∀ member ∈ members, member.1.isSome = true) :
    ∃ rows : List (Text × Json), members = rows.map fun row => (some row.1, row.2) := by
  induction members with
  | nil => exact ⟨[], rfl⟩
  | cons member rest induction =>
      obtain ⟨here, others⟩ := List.forall_mem_cons.mp spelled
      obtain ⟨rows, rfl⟩ := induction others
      obtain ⟨key, value⟩ := member
      obtain ⟨name, rfl⟩ := Option.isSome_iff_exists.mp here
      exact ⟨(name, value) :: rows, rfl⟩

theorem table?_rows (rows : List (Text × Json)) :
    table? (.object (rows.map fun row => (some row.1, row.2))) =
      if rows.all (·.2.isPlain entryDepth) then
        some (rows.foldl (fun table row => Entries.set row.1 row.2 table) [])
      else none := by
  rw [table?, List.all_map, List.foldl_map]
  rfl

theorem table?_eq_some_iff {table : List (Text × Json)} :
    table? json = some table ↔ IsTable json table := by
  constructor
  · intro found
    cases json with
    | object members =>
        have spelled : ∀ member ∈ members, member.1.isSome = true := by
          rw [table?] at found
          split at found
          · rename_i sound
            intro member inside
            exact (Bool.and_eq_true_iff.mp (List.all_eq_true.mp sound member inside)).1
          · cases found
        obtain ⟨rows, rfl⟩ := exists_rows spelled
        rw [table?_rows] at found
        split at found
        · rename_i plain
          cases found
          exact .merged (List.all_eq_true.mp plain) (Entries.merges_foldl rows)
        · cases found
    | _ => cases found
  · rintro ⟨plain, merges⟩
    rw [table?_rows, if_pos (List.all_eq_true.mpr plain), merges.eq (Entries.merges_foldl _)]

theorem section?_eq_some_iff {table : List (Text × Json)} : section? json = some table ↔
    IsSection (some json) (some table) := by
  constructor
  · intro found
    obtain ⟨values, given, read⟩ := Option.bind_eq_some_iff.mp found
    have gives := fields?_eq_some_iff.mp given
    obtain ⟨field, rfl⟩ := List.length_eq_one_iff.mp gives.length_eq
    cases field with
    | none =>
        cases read
        exact .bare gives
    | some object => exact .listed gives (table?_eq_some_iff.mp read)
  · intro isSection
    cases isSection with
    | bare gives => rw [section?, fields?_eq_some_iff.mpr gives]; rfl
    | listed gives reads =>
        rw [section?, fields?_eq_some_iff.mpr gives]
        exact table?_eq_some_iff.mpr reads

theorem optional_section?_eq_some_iff {given : Option Json}
    {table : Option (List (Text × Json))} :
    optionalSection? given = some table ↔ IsSection given table := by
  constructor
  · intro found
    unfold optionalSection? at found
    split at found
    · cases found
      exact .absent
    · cases found
      exact .null
    · obtain ⟨rows, read, rfl⟩ := Option.map_eq_some_iff.mp found
      exact section?_eq_some_iff.mp read
  · intro isSection
    cases isSection with
    | absent => rfl
    | null => rfl
    | @bare value gives =>
        have read := section?_eq_some_iff.mpr (.bare gives)
        rw [optionalSection?, read]
        · rfl
        · rintro rfl
          cases gives
    | @listed value _ _ gives reads =>
        have read := section?_eq_some_iff.mpr (.listed gives reads)
        rw [optionalSection?, read]
        · rfl
        · rintro rfl
          cases gives

theorem sections?_eq_some_iff {tables : List (Option (List (Text × Json)))} :
    sections? text = some tables ↔
      ∃ autoload dev, tables = [autoload, dev] ∧ HasTables text autoload dev := by
  constructor
  · intro found
    obtain ⟨json, parsed, further⟩ := Option.bind_eq_some_iff.mp found
    obtain ⟨values, given, read⟩ := Option.bind_eq_some_iff.mp further
    have gives := fields?_eq_some_iff.mp given
    obtain ⟨first, second, rfl⟩ := List.length_eq_two.mp gives.length_eq
    cases traverse_eq_some_iff.mp read with
    | cons firstRead others =>
        cases others with
        | cons secondRead none =>
            cases none
            exact ⟨_, _, rfl, json, first, second, parsed, gives,
              optional_section?_eq_some_iff.mp firstRead,
              optional_section?_eq_some_iff.mp secondRead⟩
  · rintro ⟨autoload, dev, rfl, json, first, second, parsed, gives, firstSection, secondSection⟩
    apply Option.bind_eq_some_iff.mpr ⟨json, parsed, _⟩
    apply Option.bind_eq_some_iff.mpr ⟨_, fields?_eq_some_iff.mpr gives, _⟩
    exact traverse_eq_some_iff.mpr (.cons (optional_section?_eq_some_iff.mpr firstSection)
      (.cons (optional_section?_eq_some_iff.mpr secondSection) .nil))

theorem text?_eq_some_iff {directory : Text} :
    json.text? = some directory ↔ json = .text directory := by
  cases json with
  | string spelled => simp [Json.text?, Json.text]
  | _ => simp [Json.text?, Json.text]

theorem directories?_eq_some_iff {directories : List Text} :
    directories? json = some directories ↔ Lists json directories := by
  have texts : ∀ items : List Json,
      items.mapM Json.text? = some directories ↔ items = directories.map .text := by
    intro items
    simp only [traverse_eq_some_iff, text?_eq_some_iff]
    rw [← List.forall₂_map_right_iff, List.forall₂_eq_eq_eq]
  constructor
  · intro found
    cases json with
    | string spelled =>
        obtain ⟨directory, rfl, rfl⟩ := Option.map_eq_some_iff.mp found
        exact .one directory
    | array items =>
        rw [(texts items).mp found]
        exact .several directories
    | _ => cases found
  · intro lists
    cases lists with
    | one directory => rfl
    | several => exact (texts _).mpr rfl

theorem Lists.unique {directories others : List Text} (lists : Lists json directories)
    (again : Lists json others) : directories = others :=
  Option.some.inj
    ((directories?_eq_some_iff.mpr lists).symm.trans (directories?_eq_some_iff.mpr again))

end Reading

/-! ### Tables on top of each other -/

section Merging

def Converts (rows : List (Text × Json)) (entries : List (Text × List Text)) : Prop :=
  List.Forall₂ (fun row entry => row.1 = entry.1 ∧ Lists row.2 entry.2) rows entries

variable {map : AutoloadMap} {rows first second : List (Text × Json)}
  {entries : List (Text × List Text)} {text : Text} {autoload dev : Option (List (Text × Json))}

theorem Converts.map_fst (converts : Converts rows entries) :
    entries.map Prod.fst = rows.map Prod.fst := by
  induction converts with
  | nil => rfl
  | cons here _ induction => rw [List.map_cons, List.map_cons, induction, here.1]

theorem Converts.lookup_eq_some_iff (converts : Converts rows entries) {name : Text}
    {directories : List Text} :
    entries.lookup name = some directories ↔
      ∃ value, rows.lookup name = some value ∧ Lists value directories := by
  induction converts with
  | nil => simp
  | @cons row entry _ _ here _ induction =>
      obtain ⟨known, value⟩ := row
      obtain ⟨_, given⟩ := entry
      obtain ⟨rfl, lists⟩ := here
      rw [Entries.lookup_cons, Entries.lookup_cons]
      by_cases same : known = name
      · simp only [if_pos same, Option.some.injEq]
        constructor
        · rintro rfl
          exact ⟨value, rfl, lists⟩
        · rintro ⟨_, rfl, again⟩
          exact lists.unique again
      · simp only [if_neg same]
        exact induction

theorem add_table_append (map : AutoloadMap) (rows others : List (Text × Json)) :
    addTable map (rows ++ others) = addTable map rows >>= (addTable · others) := by
  induction rows generalizing map with
  | nil => rfl
  | cons row rest induction =>
      obtain ⟨name, value⟩ := row
      rw [List.cons_append, addTable, addTable]
      cases directories? value with
      | none => rfl
      | some directories => exact induction _

theorem add_tables_eq (map : AutoloadMap) (tables : List (List (Text × Json))) :
    addTables map tables = addTable map tables.flatten := by
  induction tables generalizing map with
  | nil => rfl
  | cons table rest induction =>
      rw [addTables, List.flatten_cons, add_table_append]
      cases addTable map table with
      | error error => rfl
      | ok map => exact induction map

theorem add_table_converts (map : AutoloadMap) (converts : Converts rows entries) :
    addTable map rows = .ok (map.insertAll entries) := by
  induction converts generalizing map with
  | nil => rfl
  | @cons row entry _ _ here _ induction =>
      obtain ⟨name, value⟩ := row
      obtain ⟨_, directories⟩ := entry
      obtain ⟨rfl, lists⟩ := here
      rw [addTable, directories?_eq_some_iff.mpr lists]
      exact induction _

theorem exists_converts (listed : Listed rows) : ∃ entries, Converts rows entries := by
  induction rows with
  | nil => exact ⟨[], .nil⟩
  | cons row rest induction =>
      obtain ⟨⟨directories, lists⟩, others⟩ := List.forall_mem_cons.mp listed
      obtain ⟨entries, converts⟩ := induction others
      exact ⟨(row.1, directories) :: entries, .cons ⟨rfl, lists⟩ converts⟩

theorem exists_first_unlisted (unlisted : ¬ Listed rows) :
    ∃ before name value after, rows = before ++ (name, value) :: after ∧ Listed before ∧
      ∀ directories, ¬ Lists value directories := by
  induction rows with
  | nil => exact absurd (List.forall_mem_nil _) unlisted
  | cons row rest induction =>
      by_cases lists : ∃ directories, Lists row.2 directories
      · have further : ¬ Listed rest :=
          fun listed => unlisted (List.forall_mem_cons.mpr ⟨lists, listed⟩)
        obtain ⟨before, name, value, after, rfl, listed, bad⟩ := induction further
        exact ⟨row :: before, name, value, after, rfl,
          List.forall_mem_cons.mpr ⟨lists, listed⟩, bad⟩
      · exact ⟨[], row.1, row.2, rest, rfl, List.forall_mem_nil _, not_exists.mp lists⟩

theorem IsSection.nodup {given : Option Json} {table : Option (List (Text × Json))}
    (isSection : IsSection given table) : ((table.getD []).map Prod.fst).Nodup := by
  cases isSection with
  | absent => exact .nil
  | null => exact .nil
  | bare => exact .nil
  | listed _ reads =>
      cases reads with
      | merged _ merges => exact merges.nodup

theorem HasTables.nodup (tables : HasTables text autoload dev) :
    ((autoload.getD []).map Prod.fst).Nodup ∧ ((dev.getD []).map Prod.fst).Nodup := by
  obtain ⟨_, _, _, _, _, first, second⟩ := tables
  exact ⟨first.nodup, second.nodup⟩

/-- The map of two tables: the namespaces of the first and then the others of the second, with the
directories of the second where it has them. -/
structure Overrides (first second : List (Text × Json)) (map : AutoloadMap) : Prop where
  names : map.entries.map Prod.fst =
    first.map Prod.fst ++ (second.map Prod.fst).filter (· ∉ first.map Prod.fst)
  directories (name : Text) (directories : List Text) :
    map.entries.lookup name = some directories ↔
      ∃ value, (second.lookup name).or (first.lookup name) = some value ∧ Lists value directories

theorem overrides_insert_all (distinct : (first.map Prod.fst).Nodup)
    (distinctSecond : (second.map Prod.fst).Nodup) (converts : Converts (first ++ second) entries) :
    Overrides first second (({} : AutoloadMap).insertAll entries) where
  names := by
    have others : (second.map Prod.fst).removeAll (first.map Prod.fst) =
        (second.map Prod.fst).filter (· ∉ first.map Prod.fst) := by
      apply List.filter_congr
      intro name _
      simp
    rw [(AutoloadMap.merges_insert_all entries).names, converts.map_fst, List.map_append,
      List.eraseDups_append, erase_dups_eq_self distinct, others,
      erase_dups_eq_self (distinctSecond.filter _)]
  directories name directories := by
    have reversed : Converts (first ++ second).reverse entries.reverse :=
      List.forall₂_reverse_iff.mpr converts
    rw [(AutoloadMap.merges_insert_all entries).values, reversed.lookup_eq_some_iff,
      List.reverse_append, List.lookup_append, Entries.lookup_reverse distinct,
      Entries.lookup_reverse distinctSecond]

theorem autoload_map_eq (tables : HasTables text autoload dev) :
    autoloadMap text =
      if autoload = none ∧ dev = none then .error .noAutoloadConfig
      else
        addTable {} (autoload.getD [] ++ dev.getD []) >>= fun map =>
          if map.isEmpty then .error .noAutoloadEntry else .ok map := by
  have read := sections?_eq_some_iff.mpr ⟨autoload, dev, rfl, tables⟩
  have rows_eq : ([autoload, dev].filterMap id).flatten = autoload.getD [] ++ dev.getD [] := by
    cases autoload <;> cases dev <;> simp
  rw [autoloadMap, read]
  dsimp only
  rw [add_tables_eq, rows_eq]
  by_cases missing : autoload = none ∧ dev = none
  · rw [if_pos missing, missing.1, missing.2]
    rfl
  · have present : ([autoload, dev].all (·.isNone)) = false := by
      cases autoload <;> cases dev <;> simp_all
    rw [if_neg missing, present, if_neg Bool.false_ne_true]
    cases addTable {} (autoload.getD [] ++ dev.getD []) with
    | error error => rfl
    | ok map => rfl

theorem autoload_map_unread (text : Text) (unread : ∀ autoload dev, ¬ HasTables text autoload dev) :
    autoloadMap text = .error (.invalidManifest .unreadable) := by
  have none : sections? text = none := by
    by_contra found
    obtain ⟨_, read⟩ := Option.ne_none_iff_exists'.mp found
    obtain ⟨autoload, dev, _, tables⟩ := sections?_eq_some_iff.mp read
    exact unread autoload dev tables
  rw [autoloadMap, none]

theorem is_empty_insert_all (converts : Converts rows entries) :
    (({} : AutoloadMap).insertAll entries).isEmpty = true ↔ rows = [] := by
  rw [AutoloadMap.isEmpty, List.isEmpty_iff, ← List.map_eq_nil_iff,
    (AutoloadMap.merges_insert_all entries).names, converts.map_fst]
  cases rows with
  | nil => simp
  | cons row rest => simp [List.eraseDups_cons]

theorem autoload_map_empty (tables : HasTables text autoload dev)
    (present : autoload ≠ none ∨ dev ≠ none) (noRow : autoload.getD [] ++ dev.getD [] = []) :
    autoloadMap text = .error .noAutoloadEntry := by
  rw [autoload_map_eq tables, if_neg (not_and_or.mpr present), noRow]
  rfl

/-- The first value that lists no directories stops the merge. -/
theorem autoload_map_unlisted (tables : HasTables text autoload dev)
    (unlisted : ¬ Listed (autoload.getD [] ++ dev.getD [])) :
    ∃ before name value after,
      autoload.getD [] ++ dev.getD [] = before ++ (name, value) :: after ∧ Listed before ∧
      (∀ directories, ¬ Lists value directories) ∧
      autoloadMap text = .error (.invalidManifest (.directories name)) := by
  obtain ⟨before, name, value, after, split, listed, bad⟩ := exists_first_unlisted unlisted
  refine ⟨before, name, value, after, split, listed, bad, ?_⟩
  have present : ¬ (autoload = none ∧ dev = none) := by
    intro missing
    rw [missing.1, missing.2] at split
    exact List.append_ne_nil_of_right_ne_nil before (List.cons_ne_nil _ after) split.symm
  have unread : directories? value = none := by
    cases read : directories? value with
    | none => rfl
    | some directories => exact absurd (directories?_eq_some_iff.mp read) (bad directories)
  obtain ⟨entries, converts⟩ := exists_converts listed
  rw [autoload_map_eq tables, if_neg present, split, add_table_append,
    add_table_converts {} converts]
  change addTable _ _ >>= _ = _
  rw [addTable, unread]
  rfl

theorem autoload_map_listed (tables : HasTables text autoload dev)
    (present : autoload ≠ none ∨ dev ≠ none) (listed : Listed (autoload.getD [] ++ dev.getD []))
    (rows : autoload.getD [] ++ dev.getD [] ≠ []) :
    ∃ map, autoloadMap text = .ok map ∧ Overrides (autoload.getD []) (dev.getD []) map := by
  obtain ⟨entries, converts⟩ := exists_converts listed
  refine ⟨_, ?_, overrides_insert_all tables.nodup.1 tables.nodup.2 converts⟩
  rw [autoload_map_eq tables, if_neg (not_and_or.mpr present), add_table_converts {} converts]
  change (if _ then _ else _) = _
  rw [if_neg fun empty => rows ((is_empty_insert_all converts).mp empty)]

/-- A map is given only in the one case that no error is. -/
theorem of_autoload_map_ok (tables : HasTables text autoload dev)
    (given : autoloadMap text = .ok map) :
    (autoload ≠ none ∨ dev ≠ none) ∧ Listed (autoload.getD [] ++ dev.getD []) ∧
      autoload.getD [] ++ dev.getD [] ≠ [] := by
  have present : autoload ≠ none ∨ dev ≠ none := by
    apply not_and_or.mp
    intro missing
    rw [autoload_map_eq tables, if_pos missing] at given
    cases given
  refine ⟨present, ?_, ?_⟩
  · by_contra unlisted
    obtain ⟨_, _, _, _, _, _, _, failed⟩ := autoload_map_unlisted tables unlisted
    rw [failed] at given
    cases given
  · intro noRow
    rw [autoload_map_empty tables present noRow] at given
    cases given

/-- What a sequence of insertions and what the tables of a manifest are merged into. -/
theorem autoload_map_merges_tables :
    (∀ inserts : List (Text × List Text),
      ((({} : AutoloadMap).insertAll inserts).entries.map Prod.fst).Nodup ∧
        (({} : AutoloadMap).insertAll inserts).entries.map Prod.fst =
          (inserts.map Prod.fst).eraseDups ∧
        ∀ name, (({} : AutoloadMap).insertAll inserts).entries.lookup name =
          inserts.reverse.lookup name) ∧
    (∀ text, (∀ autoload dev, ¬ HasTables text autoload dev) →
      autoloadMap text = .error (.invalidManifest .unreadable)) ∧
    ∀ (text : Text) (autoload dev : Option (List (Text × Json))), HasTables text autoload dev →
      ((∃ map, autoloadMap text = .ok map) ↔
        (autoload ≠ none ∨ dev ≠ none) ∧ Listed (autoload.getD [] ++ dev.getD []) ∧
          autoload.getD [] ++ dev.getD [] ≠ []) ∧
      (∀ map, autoloadMap text = .ok map → Overrides (autoload.getD []) (dev.getD []) map) ∧
      (¬ Listed (autoload.getD [] ++ dev.getD []) →
        ∃ before name value after,
          autoload.getD [] ++ dev.getD [] = before ++ (name, value) :: after ∧ Listed before ∧
          (∀ directories, ¬ Lists value directories) ∧
          autoloadMap text = .error (.invalidManifest (.directories name))) ∧
      (autoload = none ∧ dev = none → autoloadMap text = .error .noAutoloadConfig) ∧
      ((autoload ≠ none ∨ dev ≠ none) → autoload.getD [] ++ dev.getD [] = [] →
        autoloadMap text = .error .noAutoloadEntry) := by
  refine ⟨?_, autoload_map_unread, ?_⟩
  · intro inserts
    have merges := AutoloadMap.merges_insert_all inserts
    exact ⟨merges.nodup, merges.names, merges.values⟩
  intro text autoload dev tables
  refine ⟨⟨?_, ?_⟩, ?_, autoload_map_unlisted tables, ?_, autoload_map_empty tables⟩
  · intro ⟨map, given⟩
    exact of_autoload_map_ok tables given
  · intro ⟨present, listed, rows⟩
    obtain ⟨map, given, _⟩ := autoload_map_listed tables present listed rows
    exact ⟨map, given⟩
  · intro map given
    obtain ⟨present, listed, rows⟩ := of_autoload_map_ok tables given
    obtain ⟨other, again, overrides⟩ := autoload_map_listed tables present listed rows
    rw [given] at again
    rw [Except.ok.inj again]
    exact overrides
  · intro missing
    rw [autoload_map_eq tables, if_pos missing]

def replacedInPart : Text :=
  ("\x7b\"autoload\":\x7b\"psr-4\":\x7b\"App\\\\\":\"src/\",\"Lib\\\\\":[\"lib/\",\"more/\"]," ++
    "\"App\\\\\":\"app/\"\x7d\x7d,\"autoload-dev\":\x7b\"psr-4\":\x7b\"Tests\\\\\":\"tests/\"," ++
    "\"App\\\\\":[]\x7d\x7d\x7d").toList

theorem autoload_map_merges_tables_replaced_in_part :
    ∃ autoload dev map, HasTables replacedInPart (some autoload) (some dev) ∧
      autoload.map Prod.fst = ["App\\".toList, "Lib\\".toList] ∧
      dev.map Prod.fst = ["Tests\\".toList, "App\\".toList] ∧
      autoloadMap replacedInPart = .ok map ∧ Overrides autoload dev map ∧
      map.pairs = [("Lib\\".toList, "lib/".toList), ("Lib\\".toList, "more/".toList),
        ("Tests\\".toList, "tests/".toList)] := by
  have shown : (sections? replacedInPart).map (·.map (·.map (·.map Prod.fst))) =
      some [some ["App\\".toList, "Lib\\".toList], some ["Tests\\".toList, "App\\".toList]] := by
    decide +kernel
  have given : autoloadMap replacedInPart = .ok ⟨[("App\\".toList, []),
      ("Lib\\".toList, ["lib/".toList, "more/".toList]),
      ("Tests\\".toList, ["tests/".toList])]⟩ := by
    decide +kernel
  obtain ⟨_, read, names⟩ := Option.map_eq_some_iff.mp shown
  obtain ⟨first, second, rfl, tables⟩ := sections?_eq_some_iff.mp read
  obtain ⟨firstNames, others⟩ := List.cons.inj names
  obtain ⟨autoload, rfl, autoloadNames⟩ := Option.map_eq_some_iff.mp firstNames
  obtain ⟨dev, rfl, devNames⟩ := Option.map_eq_some_iff.mp (List.cons.inj others).1
  exact ⟨autoload, dev, _, tables, autoloadNames, devNames, given,
    (autoload_map_merges_tables.2.2 replacedInPart _ _ tables).2.1 _ given, by decide⟩

end Merging
end Manifest
end PhpNames

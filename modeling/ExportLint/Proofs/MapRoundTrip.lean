import ExportLint.Proofs.Bytes
import ExportLint.Proofs.MapReaders

/-!
# Type maps and their JSON objects

A type map depends on what was written last for each name and on nothing else: not on the order of the names,
nor on what was overwritten. It is read back from its JSON object as it was, and an object of type names is
written back as it was. An object that holds something else is refused for the least name at which it does.
-/

namespace ExportLint

namespace Keyed

variable {β γ : Type} {entries : List (String × β)}

/-- The value that was written last for a key. -/
def last? (written : List (String × β)) (key : String) : Option β :=
  written.reverse.lookup key

theorem last?_concat (written : List (String × β)) (entry : String × β) (key : String) :
    last? (written ++ [entry]) key = if key = entry.1 then some entry.2 else last? written key := by
  rw [last?, List.reverse_append, List.reverse_singleton, List.singleton_append, lookup_cons]
  rfl

theorem ofList_concat (written : List (String × β)) (entry : String × β) :
    ofList (written ++ [entry]) = insert entry.1 entry.2 (ofList written) := by
  rw [ofList, List.foldl_append]
  rfl

/-- Of entries with one key the last one counts. -/
theorem lookup_ofList (written : List (String × β)) (key : String) :
    (ofList written).lookup key = last? written key := by
  induction written using List.reverseRecOn with
  | nil => rfl
  | append_singleton written entry ih => rw [ofList_concat, lookup_insert, ih, last?_concat]

theorem lookup_map (f : β → γ) (entries : List (String × β)) (key : String) :
    (entries.map (Prod.map id f)).lookup key = (entries.lookup key).map f := by
  induction entries with
  | nil => rfl
  | cons entry rest ih =>
    obtain ⟨k, v⟩ := entry
    rw [List.map_cons, Prod.map, lookup_cons, lookup_cons, ih, id_eq]
    split
    · rfl
    · rfl

theorem lookup_eq_some_iff (ascending : Ascending entries) {key : String} {value : β} :
    entries.lookup key = some value ↔ (key, value) ∈ entries := by
  induction entries with
  | nil => simp
  | cons entry rest ih =>
    obtain ⟨k, v⟩ := entry
    obtain ⟨above, sorted⟩ := List.pairwise_cons.mp ascending
    rw [lookup_cons, List.mem_cons, Prod.mk.injEq, ← ih sorted]
    by_cases same : key = k
    · subst same
      have absent : rest.lookup key ≠ some value := by
        intro found
        exact String.lt_irrefl _ (above key (List.mem_map_of_mem ((ih sorted).mp found)))
      rw [if_pos rfl]
      simp only [Option.some.injEq, true_and, absent, or_false]
      exact eq_comm
    · rw [if_neg same]
      simp only [same, false_and, false_or]

/-- Entries in order are determined by what is found among them. -/
theorem eq_of_lookup {first second : List (String × β)} (ascending : Ascending first) (ascending' : Ascending second)
    (same : ∀ key, first.lookup key = second.lookup key) : first = second := by
  have sorted {entries : List (String × β)} (ascending : Ascending entries) :
      entries.Pairwise fun earlier later => earlier.1 < later.1 := List.pairwise_map.mp ascending
  have nodup {entries : List (String × β)} (ascending : Ascending entries) : entries.Nodup := by
    refine (sorted ascending).imp fun below same => ?_
    rw [same] at below
    exact String.lt_irrefl _ below
  refine List.Perm.eq_of_pairwise ?_ (sorted ascending) (sorted ascending') ?_
  · intro entry other _ _ below above
    exact absurd above (String.lt_asymm below)
  · refine (List.perm_ext_iff_of_nodup (nodup ascending) (nodup ascending')).mpr ?_
    rintro ⟨key, value⟩
    rw [← lookup_eq_some_iff ascending, ← lookup_eq_some_iff ascending', same]

end Keyed

/-- The text of a string that is not empty. -/
def Json.wording? : Json → Option String
  | string text => some text |>.filter fun text => !text.isEmpty
  | _ => none

namespace TypeMap

variable {map other : TypeMap} {written more : List (String × String)}

/-! ### Maps that are filled -/

/-- How a map comes to hold entries: it is collected from some of them, and others are inserted after that, each
for a name or for all names without an entry of their own. -/
inductive Filled : List (String × String) → TypeMap → Prop
  | collected (written : List (String × String)) : Filled written (ofList written)
  | inserted {written : List (String × String)} {map : TypeMap} (filled : Filled written map)
    (exportName typeName : String) : Filled (written ++ [(exportName, typeName)]) (map.insert exportName typeName)
  | wildcard {written : List (String × String)} {map : TypeMap} (filled : Filled written map) (typeName : String) :
    Filled (written ++ [(wildcardName, typeName)]) (map.insertWildcard typeName)

theorem insert_ofList (written : List (String × String)) (exportName typeName : String) :
    (ofList written).insert exportName typeName = ofList (written ++ [(exportName, typeName)]) := by
  simp only [insert, ofList, Keyed.ofList_concat]

theorem Filled.eq_ofList (filled : Filled written map) : map = ofList written := by
  induction filled with
  | collected => rfl
  | inserted _ exportName typeName ih => rw [ih, insert_ofList]
  | wildcard _ typeName ih => rw [ih, insertWildcard, insert_ofList]

/-- For each name the map has what was written last. -/
theorem Filled.lookup (filled : Filled written map) (name : String) :
    map.entries.lookup name = Keyed.last? written name := by
  rw [filled.eq_ofList, ofList, Keyed.lookup_ofList]

/-- Maps are equal where the last thing written for each name is the same. -/
theorem Filled.eq_iff (filled : Filled written map) (filled' : Filled more other) :
    map = other ↔ ∀ name, Keyed.last? written name = Keyed.last? more name := by
  constructor
  · rintro rfl name
    rw [← filled.lookup, ← filled'.lookup]
  · intro same
    obtain ⟨entries, ascending⟩ := map
    obtain ⟨entries', ascending'⟩ := other
    have equal : entries = entries' := by
      refine Keyed.eq_of_lookup ascending ascending' fun name => ?_
      rw [filled.lookup, filled'.lookup, same]
    subst equal
    rfl

/-! ### There and back -/

theorem toJson_eq (map : TypeMap) : map.toJson = .object (map.entries.map (Prod.map id .string)) := rfl

theorem ofJson_toJson (map : TypeMap) : ofJson map.toJson = .ok map := by
  have kept : ofList map.entries = map := by
    obtain ⟨entries, ascending⟩ := map
    simp only [ofList, Keyed.ofList_of_ascending ascending]
  rw [toJson_eq, ofJson, mapM_typeNameOfField_eq_ok_iff.mpr rfl]
  show Except.ok (ofList map.entries) = .ok map
  rw [kept]

/-- An object of strings is that of a map, which is read from it. -/
theorem exists_map_of_strings {fields : List (String × Json)}
    (strings : ∀ name value, Keyed.last? fields name = some value → ∃ typeName, value = .string typeName) :
    ∃ map, map.toJson = .ofFields fields ∧ ofJson (.ofFields fields) = .ok map := by
  have ascending := Keyed.ascending_ofList fields
  obtain ⟨entries, same⟩ : ∃ entries : List (String × String),
      Keyed.ofList fields = entries.map (Prod.map id .string) := by
    refine fields_hold_strings_iff.mp ?_
    rintro ⟨name, value⟩ mem
    refine strings name value ?_
    rw [← Keyed.lookup_ofList, Keyed.lookup_eq_some_iff ascending]
    exact mem
  rw [same] at ascending
  have ordered : Keyed.Ascending entries := by
    simpa [Keyed.Ascending, Function.comp_def] using ascending
  let map : TypeMap := ⟨entries, ordered⟩
  have written : map.toJson = .ofFields fields := by rw [toJson_eq, Json.ofFields, same]
  refine ⟨map, written, ?_⟩
  rw [← written]
  exact ofJson_toJson map

/-- What a map answers is found in its object. -/
theorem expectedType?_eq {fields : List (String × Json)} (same : map.toJson = .ofFields fields) (name : String) :
    map.expectedType? name =
      ((Keyed.last? fields name).bind Json.wording?).or ((Keyed.last? fields "*").bind Json.wording?) := by
  have equal : map.entries.map (Prod.map id .string) = Keyed.ofList fields := by
    rw [toJson_eq, Json.ofFields] at same
    exact Json.object.inj same
  have found (name : String) : map.find? name = (Keyed.last? fields name).bind Json.wording? := by
    rw [find?, ← Keyed.lookup_ofList, ← equal, Keyed.lookup_map]
    cases map.entries.lookup name with
    | none => rfl
    | some typeName => rfl
  rw [expectedType?, wildcard?, wildcardName, found, found]

/-! ### Objects that are refused -/

/-- The first field that holds no string is the one that is named. -/
theorem mapM_typeNameOfField_eq_error {before after : List (String × Json)} {name : String} {value : Json}
    (strings : ∀ field ∈ before, ∃ typeName, field.2 = .string typeName) (other : ∀ typeName, value ≠ .string typeName) :
    (before ++ (name, value) :: after).mapM typeNameOfField = .error (.notATypeName name value.kindText) := by
  induction before with
  | nil =>
    rw [List.nil_append, List.mapM_cons]
    cases value with
    | string typeName => exact absurd rfl (other typeName)
    | _ => rfl
  | cons field rest ih =>
    obtain ⟨key, first⟩ := field
    obtain ⟨typeName, rfl⟩ := strings (key, first) List.mem_cons_self
    rw [List.cons_append, List.mapM_cons, ih fun field mem => strings field (List.mem_cons_of_mem _ mem)]
    rfl

/-- Where fields do not all hold strings, one of them is the first that does not. -/
theorem exists_first_other {fields : List (String × Json)} {field : String × Json} (mem : field ∈ fields)
    (other : ∀ typeName, field.2 ≠ .string typeName) :
    ∃ before name value after, fields = before ++ (name, value) :: after ∧
      (∀ field ∈ before, ∃ typeName, field.2 = .string typeName) ∧ ∀ typeName, value ≠ .string typeName := by
  classical
  let isOther (field : String × Json) : Bool := decide (∀ typeName, field.2 ≠ .string typeName)
  have present : (fields.find? isOther).isSome := List.find?_isSome.mpr ⟨field, mem, decide_eq_true other⟩
  obtain ⟨⟨name, value⟩, found⟩ := Option.isSome_iff_exists.mp present
  obtain ⟨noString, before, after, split, strings⟩ := List.find?_eq_some_iff_append.mp found
  refine ⟨before, name, value, after, split, ?_, of_decide_eq_true noString⟩
  intro field mem
  simpa [isOther] using strings field mem

/-- An object is refused for the least of the names at which it holds no string. -/
theorem ofJson_refuses_least {fields : List (String × Json)} {name : String} {value : Json}
    (found : Keyed.last? fields name = some value) (other : ∀ typeName, value ≠ .string typeName) :
    ∃ least refused, Keyed.last? fields least = some refused ∧ (∀ typeName, refused ≠ .string typeName) ∧
      (∀ name value, Keyed.last? fields name = some value → bytes name < bytes least →
        ∃ typeName, value = .string typeName) ∧
      ofJson (.ofFields fields) = .error (.notATypeName least refused.kindText) := by
  have ascending := Keyed.ascending_ofList fields
  have lookup (name : String) (value : Json) :
      Keyed.last? fields name = some value ↔ (name, value) ∈ Keyed.ofList fields := by
    rw [← Keyed.lookup_ofList, Keyed.lookup_eq_some_iff ascending]
  obtain ⟨before, least, refused, after, split, strings, noString⟩ :=
    exists_first_other ((lookup name value).mp found) other
  refine ⟨least, refused, ?_, noString, ?_, ?_⟩
  · rw [lookup, split]
    simp
  · intro key held listed below
    rw [lookup, split] at listed
    rw [bytes_lt_iff] at below
    rw [split, Keyed.Ascending, List.map_append, List.map_cons, List.pairwise_append, List.pairwise_cons] at ascending
    rcases List.mem_append.mp listed with earlier | later
    · exact strings _ earlier
    · rcases List.mem_cons.mp later with here | later
      · cases here
        exact absurd below (String.lt_irrefl _)
      · exact absurd below (String.lt_asymm (ascending.2.1.1 key (List.mem_map_of_mem later)))
  · rw [Json.ofFields, ofJson, split, mapM_typeNameOfField_eq_error strings noString]
    rfl

/-- Maps and objects of type names stand for each other: a map is what was written last for each name, it is read
back from its object, alone or in a list, and an object of strings is written back and answers for every name as
the map does. All other objects are refused for their least name without a string, in whichever order they were
written. -/
theorem json_round_trip :
    (∀ written map, Filled written map →
      (∀ name, map.entries.lookup name = Keyed.last? written name) ∧
      (∀ more other, Filled more other →
        (map = other ↔ ∀ name, Keyed.last? written name = Keyed.last? more name)) ∧
      ofJson map.toJson = .ok map ∧ ofJson (.array [map.toJson]) = .ok map) ∧
    (∀ fields, (∀ name value, Keyed.last? fields name = some value → ∃ typeName, value = .string typeName) →
      ∃ map, ofJson (.ofFields fields) = .ok map ∧ map.toJson = .ofFields fields ∧
        ∀ name, map.expectedType? name =
          ((Keyed.last? fields name).bind Json.wording?).or ((Keyed.last? fields "*").bind Json.wording?)) ∧
    ∀ fields name value, Keyed.last? fields name = some value → (∀ typeName, value ≠ .string typeName) →
      ∃ least refused, Keyed.last? fields least = some refused ∧ (∀ typeName, refused ≠ .string typeName) ∧
        (∀ name value, Keyed.last? fields name = some value → bytes name < bytes least →
          ∃ typeName, value = .string typeName) ∧
        ofJson (.ofFields fields) = .error (.notATypeName least refused.kindText) := by
  refine ⟨fun written map filled => ⟨filled.lookup, fun more other => filled.eq_iff, ofJson_toJson map, ?_⟩, ?_, ?_⟩
  · rw [ofJson]
    exact ofJson_toJson map
  · intro fields strings
    obtain ⟨map, same, read⟩ := exists_map_of_strings strings
    exact ⟨map, read, same, expectedType?_eq same⟩
  · intro fields name value
    exact ofJson_refuses_least

/-- A map in which an entry was overwritten with an empty type name, its object, and an object that is refused for
a name that is not the first one written. -/
theorem json_round_trip_overwritten :
    let map := ((ofList [("b", "B"), ("", "A")]).insert "b" "").insertWildcard "T"
    let refused := [("z", Json.bool true), ("b", .array []), ("a", .string "A")]
    ofJson (.array [map.toJson]) = .ok map ∧
      (∃ other, ofJson (.ofFields [("b", .string ""), ("*", .string "T")]) = .ok other ∧
        other.expectedType? "b" = some "T") ∧
      ofJson (.ofFields refused) = .error (.notATypeName "b" "an array") := by
  intro map refused
  obtain ⟨back, forth, refuses⟩ := json_round_trip
  refine ⟨?_, ?_, ?_⟩
  · have filled : Filled _ map := .wildcard (.inserted (.collected [("b", "B"), ("", "A")]) "b" "") "T"
    exact (back _ map filled).2.2.2
  · obtain ⟨other, read, _, answers⟩ := forth [("b", .string ""), ("*", .string "T")] (by
      intro name value found
      simp only [Keyed.last?, List.reverse_cons, List.reverse_nil, List.nil_append, List.singleton_append,
        Keyed.lookup_cons, List.lookup_nil] at found
      split at found
      · exact ⟨"T", (Option.some.inj found).symm⟩
      · split at found
        · exact ⟨"", (Option.some.inj found).symm⟩
        · cases found)
    refine ⟨other, read, ?_⟩
    rw [answers]
    rfl
  · obtain ⟨least, value, held, other, before, refusal⟩ := refuses refused "z" (.bool true) rfl (by simp)
    have earlier : bytes "b" < bytes "z" := bytes_lt_iff.mpr (by decide)
    simp only [refused, Keyed.last?, List.reverse_cons, List.reverse_nil, List.nil_append, List.cons_append,
      Keyed.lookup_cons, List.lookup_nil] at held
    rw [refusal]
    split at held
    · exact absurd (Option.some.inj held).symm (other "A")
    · split at held
      · next here =>
        cases held
        rw [here]
        rfl
      · split at held
        · next here =>
          -- the name that comes later is not the least one
          obtain ⟨typeName, same⟩ := before "b" (.array []) rfl (here ▸ earlier)
          cases same
        · cases held

end TypeMap

end ExportLint

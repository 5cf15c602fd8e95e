import Mathlib
import ExportLint.Options.TypeMap

/-!
# Two readers of type maps

A type map can be read straight from JSON text, stopping at the first thing that does not belong there,
or through a JSON value whose shape is looked at afterwards. The first way accepts less, and where it
accepts a text the second one reads the same map. The second way also accepts lists of options, and
objects in which a name is repeated and only its last value is a string; on all other texts the two
ways accept the same.
-/

namespace ExportLint

namespace Json

variable {α β : Type} {item : ItemReader α} {item' : ItemReader β} {rel : α → β → Prop} {text : List Char}

/-! ### Objects, field by field -/

/-- The first character after blanks in what is left of a text, and what is left after it. -/
def Rest.mark? (rest : Rest text) : Option (Char × Rest text) :=
  (firstMark? rest.1).map fun (c, after) => (c, Rest.trans rest (Rest.tail after))

theorem Rest.mark?_eq_some_iff {rest after : Rest text} {c : Char} : mark? rest = some (c, after) ↔
    ∃ place, firstMark? rest.1 = some (c, place) ∧ after = Rest.trans rest (Rest.tail place) := by
  simp only [mark?, Option.map_eq_some_iff, Prod.exists, Prod.mk.injEq]
  constructor
  · rintro ⟨mark, place, found, rfl, rfl⟩
    exact ⟨place, found, rfl⟩
  · rintro ⟨place, found, rfl⟩
    exact ⟨c, place, found, rfl, rfl⟩

theorem exists_firstMark?_iff {c : Char} :
    (∃ after, firstMark? text = some (c, after)) ↔ (text.dropWhile isSpace).head? = some c := by
  unfold firstMark?
  split
  · next nothing =>
    have blank : text.dropWhile isSpace = [] := congrArg Subtype.val nothing
    simp [blank]
  · next d rest _ something =>
    have found : text.dropWhile isSpace = d :: rest := congrArg Subtype.val something
    simp [found]

/-- How the fields of an object are read: one by one, with a comma before each further name. -/
inductive Fields (item : ItemReader α) : (text : List Char) → List (String × α) → Rest text → Prop
  | last {text : List Char} {field : String × α} {rest after : Rest text}
    (read : readField item text = .ok (field, rest)) (closed : Rest.mark? rest = some ('}', after)) :
    Fields item text [field] after
  | more {text : List Char} {field : String × α} {fields : List (String × α)} {rest after start : Rest text}
    {stop : Rest start.1} (read : readField item text = .ok (field, rest))
    (comma : Rest.mark? rest = some (',', after)) (quote : Rest.mark? after = some ('"', start))
    (others : Fields item start.1 fields stop) :
    Fields item text (field :: fields) (Rest.trans start (Rest.tail stop))

private theorem fields_of_readFields {text : List Char} {fields : List (String × α)} {last : Rest text}
    (read : readFields item text = .ok (fields, last)) : Fields item text fields last := by
  rw [readFields] at read
  obtain ⟨⟨field, rest⟩, first, read⟩ := bind_eq_ok_iff.mp read
  rcases marked : firstMark? rest.1 with _ | ⟨c, after⟩
  · simp only [marked] at read
    cases read
  simp only [marked] at read
  by_cases closed : c = '}'
  · subst closed
    cases read
    exact .last first (Rest.mark?_eq_some_iff.mpr ⟨after, marked, rfl⟩)
  rw [if_neg closed] at read
  by_cases comma : c = ','
  · subst comma
    rw [if_pos rfl] at read
    rcases next : firstMark? (Rest.trans rest (Rest.tail after)).1 with _ | ⟨d, start⟩
    · simp only [next] at read
      cases read
    simp only [next] at read
    by_cases quote : d = '"'
    · subst quote
      rw [if_pos rfl] at read
      obtain ⟨⟨others, stop⟩, more, same⟩ := bind_eq_ok_iff.mp read
      have shorter := (Rest.trans (Rest.trans rest (Rest.tail after)) (Rest.tail start)).2
      cases same
      exact .more first (Rest.mark?_eq_some_iff.mpr ⟨after, marked, rfl⟩)
        (Rest.mark?_eq_some_iff.mpr ⟨start, next, rfl⟩) (fields_of_readFields more)
    · rw [if_neg quote] at read
      split at read <;> cases read
  · rw [if_neg comma] at read
    cases read
termination_by text.length

theorem readFields_eq_ok_iff {fields : List (String × α)} {last : Rest text} :
    readFields item text = .ok (fields, last) ↔ Fields item text fields last := by
  refine ⟨fields_of_readFields, fun read => ?_⟩
  induction read with
  | last first closed =>
    obtain ⟨place, marked, rfl⟩ := Rest.mark?_eq_some_iff.mp closed
    rw [readFields, first]
    simp only [bind, Except.bind, marked, if_pos]
    rfl
  | more first comma quote _ others =>
    obtain ⟨place, marked, rfl⟩ := Rest.mark?_eq_some_iff.mp comma
    obtain ⟨start, next, rfl⟩ := Rest.mark?_eq_some_iff.mp quote
    rw [readFields, first]
    simp only [bind, Except.bind, marked, next, others, if_pos]
    rfl

/-! ### Readers that follow another one -/

/-- Whether a reader reads what another one reads, to the same place, where the two items are related. -/
def Follows (item' : ItemReader β) (item : ItemReader α) (rel : α → β → Prop) : Prop :=
  ∀ ⦃text : List Char⦄ ⦃value : α⦄ ⦃rest : Rest text⦄ ⦃value' : β⦄,
    item text = .ok (value, rest) → rel value value' → item' text = .ok (value', rest)

namespace Follows

theorem readField (follows : Follows item' item rel) {field : String × α} {field' : String × β} {last : Rest text}
    (read : readField item text = .ok (field, last)) (related : field.1 = field'.1 ∧ rel field.2 field'.2) :
    readField item' text = .ok (field', last) := by
  obtain ⟨name', value'⟩ := field'
  unfold Json.readField at read ⊢
  obtain ⟨⟨chars, rest⟩, named, read⟩ := bind_eq_ok_iff.mp read
  rw [named]
  simp only [bind, Except.bind]
  rcases marked : firstMark? rest.1 with _ | ⟨c, after⟩
  · simp only [marked] at read
    cases read
  simp only [marked] at read ⊢
  by_cases colon : c = ':'
  · rw [if_pos colon] at read ⊢
    obtain ⟨⟨value, stop⟩, valued, same⟩ := bind_eq_ok_iff.mp read
    cases same
    obtain ⟨rfl, same⟩ := related
    rw [follows valued same]
    rfl
  · rw [if_neg colon] at read
    cases read

theorem readFields (follows : Follows item' item rel) {fields : List (String × α)} {fields' : List (String × β)}
    {last : Rest text} (read : readFields item text = .ok (fields, last))
    (related : List.Forall₂ (fun field field' => field.1 = field'.1 ∧ rel field.2 field'.2) fields fields') :
    readFields item' text = .ok (fields', last) := by
  rw [readFields_eq_ok_iff] at read ⊢
  induction read generalizing fields' with
  | last first closed =>
    cases related with
    | cons same none =>
      cases none
      exact .last (follows.readField first same) closed
  | more first comma quote _ ih =>
    cases related with
    | cons same others => exact .more (follows.readField first same) comma quote (ih others)

theorem readObject (follows : Follows item' item rel) {fields : List (String × α)} {fields' : List (String × β)}
    {last : Rest text} (read : readObject item text = .ok (fields, last))
    (related : List.Forall₂ (fun field field' => field.1 = field'.1 ∧ rel field.2 field'.2) fields fields') :
    readObject item' text = .ok (fields', last) := by
  unfold Json.readObject at read ⊢
  match marked : firstMark? text with
  | none =>
    simp only [marked] at read
    cases read
  | some (c, after) =>
    simp only [marked] at read ⊢
    by_cases closed : c = '}'
    · rw [if_pos closed] at read ⊢
      cases read
      cases related
      rfl
    rw [if_neg closed] at read ⊢
    by_cases quote : c = '"'
    · rw [if_pos quote] at read ⊢
      obtain ⟨⟨others, stop⟩, more, same⟩ := bind_eq_ok_iff.mp read
      cases same
      rw [follows.readFields more related]
      rfl
    · rw [if_neg quote] at read
      cases read

end Follows

/-! ### Fields as they are written -/

/-- Reads an object as the list of its fields in the order in which they are written, where names may be
repeated. -/
def readWritten (depth : Nat) : ItemReader (List (String × Json)) := fun text =>
  match firstMark? text with
  | none => .error (.next [] .endInValue)
  | some (c, after) =>
    if c = '{' then do
      let (fields, last) ← readObject (readValue depth) after.1
      return (fields, Rest.trans after (Rest.tail last))
    else .error (.next (c :: after.1) .wrongKind)

/-- The fields of the object that a text consists of, as they are written. -/
def writtenFields? (text : String) : Option (List (String × Json)) :=
  (readAll (readWritten (maxDepth - 1)) text).toOption

theorem readWritten_eq_ok_iff {depth : Nat} {fields : List (String × Json)} {last : Rest text} :
    readWritten depth text = .ok (fields, last) ↔ ∃ after stop, firstMark? text = some ('{', after) ∧
      readObject (readValue depth) after.1 = .ok (fields, stop) ∧ last = Rest.trans after (Rest.tail stop) := by
  unfold readWritten
  constructor
  · intro read
    match marked : firstMark? text with
    | none =>
      simp only [marked] at read
      cases read
    | some (c, after) =>
      simp only [marked] at read
      by_cases brace : c = '{'
      · subst brace
        rw [if_pos rfl] at read
        obtain ⟨⟨others, stop⟩, more, same⟩ := bind_eq_ok_iff.mp read
        cases same
        exact ⟨after, stop, rfl, more, rfl⟩
      · rw [if_neg brace] at read
        cases read
  · rintro ⟨after, stop, marked, read, rfl⟩
    simp only [marked, if_pos]
    rw [read]
    rfl

/-- A value that begins with a brace is the object of the fields that are written. -/
theorem readValue_of_brace (depth : Nat) {after : Rest text} (brace : firstMark? text = some ('{', after))
    {value : Json} {last : Rest text} : readValue (depth + 1) text = .ok (value, last) ↔
      ∃ fields, readWritten depth text = .ok (fields, last) ∧ value = ofFields fields := by
  simp only [readWritten_eq_ok_iff]
  rw [readValue]
  simp only [brace, or_true, if_true]
  rw [if_neg (by decide)]
  constructor
  · intro read
    obtain ⟨⟨fields, stop⟩, more, same⟩ := bind_eq_ok_iff.mp read
    cases same
    exact ⟨fields, ⟨after, stop, rfl, more, rfl⟩, rfl⟩
  · rintro ⟨fields, ⟨other, stop, here, read, rfl⟩, rfl⟩
    cases here
    rw [read]
    rfl

theorem readAll_eq_ok_iff {text : String} {value : α} : readAll item text = .ok value ↔
    ∃ rest, item text.toList = .ok (value, rest) ∧ firstMark? rest.1 = none := by
  unfold readAll
  rw [bind_eq_ok_iff]
  constructor
  · rintro ⟨⟨other, rest⟩, read, same⟩
    match marked : firstMark? rest.1 with
    | none =>
      simp only [marked] at same
      cases same
      exact ⟨rest, read, marked⟩
    | some (c, after) =>
      simp only [marked] at same
      cases same
  · rintro ⟨rest, read, marked⟩
    refine ⟨(value, rest), read, ?_⟩
    simp only [marked]
    rfl

theorem writtenFields?_eq_some_iff {text : String} {fields : List (String × Json)} : writtenFields? text = some fields ↔
    ∃ rest, readWritten (maxDepth - 1) text.toList = .ok (fields, rest) ∧ firstMark? rest.1 = none := by
  rw [← readAll_eq_ok_iff, writtenFields?]
  cases readAll (readWritten (maxDepth - 1)) text <;> simp [Except.toOption]

/-- A text that begins with a brace is parsed where its fields are read as they are written. -/
theorem parse_of_brace {text : String} {after : Rest text.toList}
    (brace : firstMark? text.toList = some ('{', after)) {value : Json} :
    parse text = .ok value ↔ ∃ fields, writtenFields? text = some fields ∧ value = ofFields fields := by
  simp only [writtenFields?_eq_some_iff, parse, readAll_eq_ok_iff]
  constructor
  · rintro ⟨rest, read, blank⟩
    obtain ⟨fields, read, same⟩ := (readValue_of_brace (maxDepth - 1) brace).mp read
    exact ⟨fields, ⟨rest, read, blank⟩, same⟩
  · rintro ⟨fields, ⟨rest, read, blank⟩, same⟩
    exact ⟨rest, (readValue_of_brace (maxDepth - 1) brace).mpr ⟨fields, read, same⟩, blank⟩

/-- A scalar is a string where it begins with a quote. -/
theorem readScalar_string_iff {c : Char} {name : String} {last : Tail text} :
    readScalar c text = .ok (.string name, last) ↔ c = '"' ∧
      ∃ chars stop, readString text = .ok (chars, stop) ∧ name = String.ofList chars ∧ last = Rest.tail stop := by
  unfold readScalar
  constructor
  · intro read
    split at read
    · obtain ⟨_, _, same⟩ := bind_eq_ok_iff.mp read
      cases same
    split at read
    · obtain ⟨_, _, same⟩ := bind_eq_ok_iff.mp read
      cases same
    split at read
    · obtain ⟨_, _, same⟩ := bind_eq_ok_iff.mp read
      cases same
    split at read
    · next quote =>
      obtain ⟨⟨chars, stop⟩, more, same⟩ := bind_eq_ok_iff.mp read
      cases same
      exact ⟨quote, chars, stop, more, rfl, rfl⟩
    split at read
    · obtain ⟨_, _, same⟩ := bind_eq_ok_iff.mp read
      cases same
    · cases read
  · rintro ⟨rfl, chars, stop, read, rfl, rfl⟩
    rw [if_neg (by decide), if_neg (by decide), if_neg (by decide), if_pos rfl, read]
    rfl

end Json

namespace TypeMap

open Json

variable {text : List Char} {map : TypeMap}

/-! ### Objects of type names -/

theorem refuseKind_ne_ok {α : Type} (c : Char) (value : α) : refuseKind c text ≠ .ok value := by
  unfold refuseKind
  intro read
  split at read
  · cases read
  · obtain ⟨_, _, same⟩ := bind_eq_ok_iff.mp read
    cases same

/-- A type name is read where any value is read and this one is a string. -/
theorem readTypeName_eq_ok_iff (depth : Nat) {name : String} {last : Rest text} :
    readTypeName text = .ok (name, last) ↔ readValue depth text = .ok (.string name, last) := by
  unfold readTypeName
  rw [readValue]
  match firstMark? text with
  | none => simp
  | some (c, after) =>
    dsimp only
    by_cases bracket : c = '[' ∨ c = '{'
    · have other : c ≠ '"' := by rcases bracket with rfl | rfl <;> decide
      rw [if_neg other, if_pos bracket]
      -- here one reader refuses at once, and the other one reads a list or an object
      refine iff_of_false (refuseKind_ne_ok c _) fun read => ?_
      split at read
      · cases read
      · split at read
        · obtain ⟨_, _, same⟩ := bind_eq_ok_iff.mp read
          cases same
        · obtain ⟨_, _, same⟩ := bind_eq_ok_iff.mp read
          cases same
    rw [if_neg bracket]
    constructor
    · intro read
      split at read
      · next quote =>
        obtain ⟨⟨chars, stop⟩, more, same⟩ := bind_eq_ok_iff.mp read
        cases same
        rw [readScalar_string_iff.mpr ⟨quote, chars, stop, more, rfl, rfl⟩]
        rfl
      · exact absurd read (refuseKind_ne_ok c _)
    · intro read
      obtain ⟨⟨value, stop⟩, scalar, same⟩ := bind_eq_ok_iff.mp read
      cases same
      obtain ⟨quote, chars, stop, more, rfl, rfl⟩ := readScalar_string_iff.mp scalar
      rw [if_pos quote, more]
      rfl

/-- Entries are read where the fields that are written are strings. -/
theorem readEntries_eq_ok_iff (depth : Nat) {entries : List (String × String)} {last : Rest text} :
    readEntries text = .ok (entries, last) ↔
      readWritten depth text = .ok (entries.map (Prod.map id .string), last) := by
  have wide : Json.Follows (readValue depth) readTypeName fun name value => value = .string name := by
    intro text name rest value read same
    rw [same]
    exact (readTypeName_eq_ok_iff depth).mp read
  have narrow : Json.Follows readTypeName (readValue depth) fun value name => value = .string name := by
    intro text value rest name read same
    rw [same] at read
    exact (readTypeName_eq_ok_iff depth).mpr read
  rw [readWritten_eq_ok_iff]
  unfold readEntries
  constructor
  · intro read
    match marked : firstMark? text with
    | none =>
      simp only [marked] at read
      cases read
    | some (c, after) =>
      simp only [marked] at read
      by_cases brace : c = '{'
      · subst brace
        rw [if_pos rfl] at read
        obtain ⟨⟨others, stop⟩, more, same⟩ := bind_eq_ok_iff.mp read
        cases same
        refine ⟨after, stop, rfl, wide.readObject more ?_, rfl⟩
        exact List.forall₂_map_right_iff.mpr (List.forall₂_same.mpr fun _ _ => ⟨rfl, rfl⟩)
      · rw [if_neg brace] at read
        exact absurd read (refuseKind_ne_ok c _)
  · rintro ⟨after, stop, marked, read, rfl⟩
    simp only [marked, if_true]
    have related : List.Forall₂ (fun field entry => field.1 = entry.1 ∧ field.2 = Json.string entry.2)
        (entries.map (Prod.map id .string)) entries :=
      List.forall₂_map_left_iff.mpr (List.forall₂_same.mpr fun _ _ => ⟨rfl, rfl⟩)
    rw [narrow.readObject read related]
    rfl

/-- The fields that hold type names are those that hold strings. -/
theorem mapM_typeNameOfField_eq_ok_iff {fields : List (String × Json)} {entries : List (String × String)} :
    fields.mapM typeNameOfField = .ok entries ↔ fields = entries.map (Prod.map id .string) := by
  induction fields generalizing entries with
  | nil => cases entries <;> simp [pure, Except.pure]
  | cons field rest ih =>
    obtain ⟨name, value⟩ := field
    rw [List.mapM_cons, bind_eq_ok_iff]
    constructor
    · rintro ⟨entry, typed, read⟩
      obtain ⟨others, more, same⟩ := bind_eq_ok_iff.mp read
      cases same
      rw [ih.mp more]
      cases value <;> cases typed
      rfl
    · intro same
      cases entries with
      | nil => cases same
      | cons entry others =>
        rw [List.map_cons, List.cons.injEq] at same
        obtain ⟨head, tail⟩ := same
        refine ⟨entry, ?_, ?_⟩
        · rw [head]
          rfl
        · rw [ih.mpr tail]
          rfl

/-- Fields all of which hold strings are those of entries. -/
theorem fields_hold_strings_iff {fields : List (String × Json)} :
    (∀ field ∈ fields, ∃ typeName, field.2 = .string typeName) ↔
      ∃ entries : List (String × String), fields = entries.map (Prod.map id .string) := by
  constructor
  · intro strings
    have inRange : fields ∈ Set.range (List.map (Prod.map id Json.string)) := by
      rw [Set.range_list_map]
      intro field mem
      obtain ⟨typeName, same⟩ := strings field mem
      exact ⟨(field.1, typeName), Prod.ext rfl same.symm⟩
    obtain ⟨entries, same⟩ := inRange
    exact ⟨entries, same.symm⟩
  · rintro ⟨entries, rfl⟩ field mem
    obtain ⟨entry, _, rfl⟩ := List.mem_map.mp mem
    exact ⟨entry.2, rfl⟩

theorem ofJson_ofFields_eq_ok_iff {fields : List (String × Json)} : ofJson (.ofFields fields) = .ok map ↔
    ∃ entries, Keyed.ofList fields = entries.map (Prod.map id .string) ∧ map = ofList entries := by
  unfold Json.ofFields
  rw [ofJson]
  constructor
  · intro read
    match named : (Keyed.ofList fields).mapM typeNameOfField with
    | .error fault =>
      rw [named] at read
      cases read
    | .ok entries =>
      rw [named] at read
      cases read
      exact ⟨entries, mapM_typeNameOfField_eq_ok_iff.mp named, rfl⟩
  · rintro ⟨entries, same, rfl⟩
    rw [mapM_typeNameOfField_eq_ok_iff.mpr same]
    rfl

/-- The map of an object of strings is that of its entries as they are written. -/
theorem ofJson_ofFields_strings (entries : List (String × String)) :
    ofJson (.ofFields (entries.map (Prod.map id .string))) = .ok (ofList entries) := by
  refine ofJson_ofFields_eq_ok_iff.mpr ⟨Keyed.ofList entries, Keyed.ofList_map _ entries, ?_⟩
  have kept := Keyed.ofList_of_ascending (Keyed.ascending_ofList entries)
  simp only [ofList, kept]

/-- Where no name is repeated, an object with a map is an object of strings. -/
theorem strings_of_ofJson {fields : List (String × Json)} (read : ofJson (.ofFields fields) = .ok map)
    (distinct : (fields.map (·.1)).Nodup) :
    ∃ entries : List (String × String), fields = entries.map (Prod.map id .string) := by
  obtain ⟨kept, same, _⟩ := ofJson_ofFields_eq_ok_iff.mp read
  refine fields_hold_strings_iff.mp fun field mem => ?_
  have stays := Keyed.mem_ofList distinct mem
  rw [same] at stays
  exact fields_hold_strings_iff.mpr ⟨kept, rfl⟩ field stays

/-! ### The two readers -/

theorem ofObjectText_eq_ok_iff {text : String} : ofObjectText text = .ok map ↔
    ∃ entries, writtenFields? text = some (entries.map (Prod.map id .string)) ∧ map = ofList entries := by
  have accepted (entries : List (String × String)) : readAll readEntries text = .ok entries ↔
      writtenFields? text = some (entries.map (Prod.map id .string)) := by
    rw [readAll_eq_ok_iff, writtenFields?_eq_some_iff]
    exact exists_congr fun rest => and_congr_left fun _ => readEntries_eq_ok_iff _
  unfold ofObjectText
  constructor
  · intro read
    match entries : readAll readEntries text with
    | .error refusal =>
      rw [entries] at read
      cases read
    | .ok found =>
      rw [entries] at read
      cases read
      exact ⟨found, (accepted found).mp entries, rfl⟩
  · rintro ⟨entries, written, rfl⟩
    rw [(accepted entries).mpr written]
    rfl

theorem ofText_of_brace {text : String} {after : Rest text.toList}
    (brace : firstMark? text.toList = some ('{', after)) :
    ofText text = .ok map ↔ ∃ fields, writtenFields? text = some fields ∧ ofJson (.ofFields fields) = .ok map := by
  unfold ofText
  constructor
  · intro read
    match parsed : parse text with
    | .error refusal =>
      rw [parsed] at read
      cases read
    | .ok value =>
      rw [parsed] at read
      obtain ⟨fields, written, rfl⟩ := (parse_of_brace brace).mp parsed
      exact ⟨fields, written, read⟩
  · rintro ⟨fields, written, read⟩
    rw [(parse_of_brace brace).mpr ⟨fields, written, rfl⟩]
    exact read

/-- What the reader of objects accepts, the reader of any options accepts as the same map. The other way
round this holds of every text that begins with a brace and in which no name is repeated. -/
theorem ofObjectText_agrees_ofText (text : String) :
    (∀ map, ofObjectText text = .ok map → ofText text = .ok map) ∧
    ∀ map, ofText text = .ok map → (text.toList.dropWhile isSpace).head? = some '{' →
      (∀ fields, writtenFields? text = some fields → (fields.map (·.1)).Nodup) → ofObjectText text = .ok map := by
  constructor
  · intro map read
    obtain ⟨entries, written, rfl⟩ := ofObjectText_eq_ok_iff.mp read
    obtain ⟨rest, fields, _⟩ := writtenFields?_eq_some_iff.mp written
    obtain ⟨after, _, brace, _⟩ := readWritten_eq_ok_iff.mp fields
    exact (ofText_of_brace brace).mpr ⟨_, written, ofJson_ofFields_strings entries⟩
  · intro map read head distinct
    obtain ⟨after, brace⟩ := exists_firstMark?_iff.mpr head
    obtain ⟨fields, written, read⟩ := (ofText_of_brace brace).mp read
    obtain ⟨entries, rfl⟩ := strings_of_ofJson read (distinct fields written)
    rw [ofJson_ofFields_strings] at read
    cases read
    exact ofObjectText_eq_ok_iff.mpr ⟨entries, written, rfl⟩

/-- An object with blanks and an escape, in which the names do not stand in order. -/
theorem ofObjectText_agrees_ofText_escaped :
    let text := " \x7b\"b\": \"B\" , \"\\u0061\": \"A\"\x7d\n"
    let map := ofList [("a", "A"), ("b", "B")]
    ofText text = .ok map ∧ ofObjectText text = .ok map := by
  intro text map
  obtain ⟨wide, narrow⟩ := ofObjectText_agrees_ofText text
  have read : ofText text = .ok map := by decide +kernel
  have names : (writtenFields? text).map (·.map (·.1)) = some ["b", "a"] := by decide +kernel
  have accepted : ofObjectText text = .ok map := by
    refine narrow map read (by decide) fun fields written => ?_
    rw [written, Option.map_some, Option.some.injEq] at names
    rw [names]
    decide
  exact ⟨wide map accepted, accepted⟩

end TypeMap

end ExportLint

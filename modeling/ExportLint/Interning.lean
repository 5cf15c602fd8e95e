/-!
# Interning

Names are compared by number: a store numbers its strings in the order in which they are first
interned, and a number is called a symbol. A pool holds several stores, so that whoever keeps the
number of a store, or a copy of it, sees all that is interned there.
-/

namespace ExportLint

/-- The place of a string in the order of first interning. -/
structure Symbol where
  rank : Nat
  deriving Repr, DecidableEq

/-- The order of two symbols is the order in which they were made. -/
instance : Ord Symbol where
  compare a b := compare a.rank b.rank

/-- The debugging form counts from one. -/
def Symbol.text (symbol : Symbol) : String :=
  s!"InternedString(Spur({symbol.rank + 1}))"

/-- The interned strings in the order of their symbols; no string occurs twice. -/
structure Interner where
  strings : Array String
  nodup : strings.toList.Nodup

namespace Interner

/-- A store without strings. -/
def empty : Interner :=
  ⟨#[], by simp⟩

/-- How many strings are interned. -/
def size (store : Interner) : Nat :=
  store.strings.size

/-- Whether nothing is interned. -/
def isEmpty (store : Interner) : Bool :=
  store.size == 0

/-- The symbol of a string that is interned already. -/
def find? (store : Interner) (text : String) : Option Symbol :=
  (store.strings.toList.idxOf? text).map Symbol.mk

/-- The string that a symbol stands for. -/
def resolve? (store : Interner) (symbol : Symbol) : Option String :=
  store.strings[symbol.rank]?

/-- The symbol of a string, which is interned if it was not yet. -/
def intern (store : Interner) (text : String) : Symbol × Interner :=
  match found : store.find? text with
  | some symbol => (symbol, store)
  | none =>
    (⟨store.size⟩,
      { strings := store.strings.push text
        nodup := by
          have absent : text ∉ store.strings.toList := by
            simpa [find?, List.idxOf?_eq_none_iff] using found
          simpa using List.nodup_append.mpr ⟨store.nodup, by simp, by
            intro a mem b last
            rw [List.mem_singleton.mp last]
            exact fun same => absent (same ▸ mem)⟩ })

@[simp]
theorem toList_intern (store : Interner) (text : String) :
    (store.intern text).2.strings.toList =
      store.strings.toList ++ if text ∈ store.strings.toList then [] else [text] := by
  have known : (store.find? text).isSome ↔ text ∈ store.strings.toList := by
    simp [find?, List.isSome_idxOf?]
  unfold intern
  split
  · next found => simp [known.mp (by simp [found])]
  · next absent => simp [mt known.mpr (by simp [absent])]

theorem find?_eq_some_iff {store : Interner} {text : String} {symbol : Symbol} :
    store.find? text = some symbol ↔ store.resolve? symbol = some text := by
  obtain ⟨rank⟩ := symbol
  simp only [find?, resolve?, Option.map_eq_some_iff, Symbol.mk.injEq, exists_eq_right]
  rw [← Array.getElem?_toList]
  constructor
  · intro found
    obtain ⟨bound, same, _⟩ := List.idxOf?_eq_some_iff.mp found
    rw [List.getElem?_eq_getElem bound]
    simpa using same
  · intro stands
    obtain ⟨bound, same⟩ := List.getElem?_eq_some_iff.mp stands
    refine List.idxOf?_eq_some_iff.mpr ⟨bound, by simpa using same, fun earlier before => ?_⟩
    have := List.pairwise_iff_getElem.mp store.nodup earlier rank (by omega) bound before
    simpa [same] using this

theorem resolve?_intern (store : Interner) (text : String) :
    (store.intern text).2.resolve? (store.intern text).1 = some text := by
  unfold intern
  split
  · next found => exact find?_eq_some_iff.mp found
  · next absent => simp [resolve?, size]

/-- The debugging form shows the number of strings only. -/
def text (store : Interner) : String :=
  s!"StringInterner \x7b len: {store.size} \x7d"

end Interner

/-- The number of a store in a pool. -/
structure StoreId where
  index : Nat
  deriving Repr, DecidableEq

/-- Stores that grow independently of each other. -/
structure Interners where
  stores : Array Interner

namespace Interners

/-- A pool without stores. -/
def empty : Interners :=
  ⟨#[]⟩

/-- The present contents of a store; a store that does not exist holds nothing. -/
def contents (pool : Interners) (id : StoreId) : Interner :=
  pool.stores[id.index]?.getD .empty

/-- A further store, without strings. -/
def fresh (pool : Interners) : StoreId × Interners :=
  (⟨pool.stores.size⟩, ⟨pool.stores.push .empty⟩)

/-- The pool in which a store has other contents. -/
def replace (pool : Interners) (id : StoreId) (store : Interner) : Interners :=
  ⟨pool.stores.setIfInBounds id.index store⟩

/-- Interning a string in one of the stores. -/
def intern (pool : Interners) (id : StoreId) (text : String) : Symbol × Interners :=
  let (symbol, store) := (pool.contents id).intern text
  (symbol, pool.replace id store)

end Interners

end ExportLint

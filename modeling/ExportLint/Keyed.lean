/-!
# Entries in the order of their keys

Lists of entries that are kept in the order of their keys, with one entry for each key. The order of
strings is that of their code points, which is also the order of their UTF-8 bytes.
-/

namespace ExportLint.Keyed

variable {β γ : Type}

/-- The entries in which `key` has a value, in place of the one it had. -/
def insert (key : String) (value : β) : List (String × β) → List (String × β)
  | [] => [(key, value)]
  | (k, v) :: rest =>
    if key < k then (key, value) :: (k, v) :: rest
    else if key = k then (key, value) :: rest
    else (k, v) :: insert key value rest

/-- Entries written one after the other, so that the last one of a key counts. -/
def ofList (written : List (String × β)) : List (String × β) :=
  written.foldl (fun entries entry => insert entry.1 entry.2 entries) []

/-- The keys stand in strictly ascending order. -/
def Ascending (entries : List (String × β)) : Prop :=
  (entries.map (·.1)).Pairwise (· < ·)

theorem lookup_cons (k other : String) (v : β) (rest : List (String × β)) :
    ((k, v) :: rest).lookup other = if other = k then some v else rest.lookup other := by
  by_cases same : other = k <;> simp [List.lookup_cons, same, beq_false_of_ne]

theorem lookup_insert (key other : String) (value : β) (entries : List (String × β)) :
    (insert key value entries).lookup other = if other = key then some value else entries.lookup other := by
  induction entries with
  | nil => simp [insert, lookup_cons]
  | cons entry rest ih =>
    obtain ⟨k, v⟩ := entry
    rw [insert]
    split
    · simp only [lookup_cons]
    · split <;> simp only [lookup_cons, ih] <;> grind

theorem mem_keys_insert {key k : String} {value : β} {entries : List (String × β)} :
    k ∈ (insert key value entries).map (·.1) ↔ k = key ∨ k ∈ entries.map (·.1) := by
  induction entries with
  | nil => simp [insert]
  | cons entry rest ih =>
    obtain ⟨other, v⟩ := entry
    rw [insert]
    split
    · simp
    · split
      · next equal => simp [equal]
      · simp only [List.map_cons, List.mem_cons, ih]
        grind

theorem ascending_insert (key : String) (value : β) {entries : List (String × β)}
    (ascending : Ascending entries) : Ascending (insert key value entries) := by
  induction entries with
  | nil => simp [insert, Ascending]
  | cons entry rest ih =>
    obtain ⟨k, v⟩ := entry
    simp only [Ascending, List.map_cons, List.pairwise_cons] at ascending
    rw [insert]
    split
    · next below =>
      simp only [Ascending, List.map_cons, List.pairwise_cons, List.mem_cons, forall_eq_or_imp]
      exact ⟨⟨below, fun other mem => String.lt_trans below (ascending.1 other mem)⟩, ascending⟩
    · next above =>
      split
      · next equal =>
        subst equal
        simpa [Ascending] using ascending
      · next apart =>
        simp only [Ascending, List.map_cons, List.pairwise_cons]
        refine ⟨fun other mem => ?_, ih ascending.2⟩
        rcases mem_keys_insert.mp mem with rfl | old
        · exact Std.lt_of_le_of_ne (String.not_lt.mp above) (Ne.symm apart)
        · exact ascending.1 other old

theorem ascending_ofList (written : List (String × β)) : Ascending (ofList written) := by
  unfold ofList
  suffices general : ∀ entries : List (String × β), Ascending entries →
      Ascending (written.foldl (fun entries entry => insert entry.1 entry.2 entries) entries) from
    general [] List.Pairwise.nil
  induction written with
  | nil => exact fun _ => id
  | cons entry rest ih => exact fun entries ascending => ih _ (ascending_insert entry.1 entry.2 ascending)

theorem insert_map (f : β → γ) (key : String) (value : β) (entries : List (String × β)) :
    insert key (f value) (entries.map (Prod.map id f)) = (insert key value entries).map (Prod.map id f) := by
  induction entries with
  | nil => rfl
  | cons entry rest ih =>
    obtain ⟨k, v⟩ := entry
    rw [List.map_cons, Prod.map_apply, id_eq, insert, insert, ih]
    split
    · rfl
    · split <;> rfl

theorem ofList_map (f : β → γ) (written : List (String × β)) :
    ofList (written.map (Prod.map id f)) = (ofList written).map (Prod.map id f) := by
  unfold ofList
  rw [List.foldl_map]
  suffices general : ∀ entries : List (String × β),
      written.foldl (fun entries entry => insert entry.1 (f entry.2) entries) (entries.map (Prod.map id f)) =
        (written.foldl (fun entries entry => insert entry.1 entry.2 entries) entries).map (Prod.map id f) from
    general []
  induction written with
  | nil => intro entries; rfl
  | cons entry rest ih =>
    intro entries
    rw [List.foldl_cons, List.foldl_cons, insert_map]
    exact ih _

/-- A key after all others is inserted at the end. -/
theorem insert_of_above {key : String} (value : β) {entries : List (String × β)}
    (above : ∀ entry ∈ entries, entry.1 < key) : insert key value entries = entries ++ [(key, value)] := by
  induction entries with
  | nil => rfl
  | cons entry rest ih =>
    obtain ⟨k, v⟩ := entry
    have below : k < key := above (k, v) List.mem_cons_self
    rw [insert, if_neg (String.lt_asymm below), if_neg (fun same => String.lt_irrefl _ (same ▸ below)),
      ih fun other mem => above other (List.mem_cons_of_mem _ mem), List.cons_append]

/-- Entries that stand in order are kept as they are. -/
theorem ofList_of_ascending {entries : List (String × β)} (ascending : Ascending entries) :
    ofList entries = entries := by
  unfold ofList
  suffices general : ∀ first : List (String × β), Ascending (first ++ entries) →
      entries.foldl (fun entries entry => insert entry.1 entry.2 entries) first = first ++ entries from
    general [] ascending
  clear ascending
  induction entries with
  | nil => intro first _; simp
  | cons entry rest ih =>
    intro first ascending
    have above : ∀ other ∈ first, other.1 < entry.1 := by
      intro other mem
      rw [Ascending, List.map_append, List.pairwise_append] at ascending
      exact ascending.2.2 other.1 (List.mem_map_of_mem mem) entry.1 (by simp)
    rw [List.foldl_cons, insert_of_above entry.2 above, ih _ (by simpa using ascending), List.append_assoc,
      List.singleton_append]

theorem mem_insert_self (key : String) (value : β) (entries : List (String × β)) :
    (key, value) ∈ insert key value entries := by
  induction entries with
  | nil => simp [insert]
  | cons entry rest ih =>
    rw [insert]
    split
    · simp
    · split
      · simp
      · exact List.mem_cons_of_mem _ ih

theorem mem_insert_of_mem {key : String} (value : β) {entries : List (String × β)} {entry : String × β}
    (mem : entry ∈ entries) (apart : entry.1 ≠ key) : entry ∈ insert key value entries := by
  induction entries with
  | nil => cases mem
  | cons first rest ih =>
    obtain ⟨k, v⟩ := first
    rw [insert]
    split
    · exact List.mem_cons_of_mem _ mem
    · split
      · next same =>
        rcases List.mem_cons.mp mem with rfl | later
        · exact absurd same.symm apart
        · exact List.mem_cons_of_mem _ later
      · rcases List.mem_cons.mp mem with rfl | later
        · exact List.mem_cons_self
        · exact List.mem_cons_of_mem _ (ih later)

/-- No entry is lost where no key is written twice. -/
theorem mem_ofList {written : List (String × β)} (distinct : (written.map (·.1)).Nodup) {entry : String × β}
    (mem : entry ∈ written) : entry ∈ ofList written := by
  unfold ofList
  suffices general : ∀ entries : List (String × β), entry ∈ written ∨ entry ∈ entries ∧ entry.1 ∉ written.map (·.1) →
      entry ∈ written.foldl (fun entries entry => insert entry.1 entry.2 entries) entries from
    general [] (.inl mem)
  clear mem
  induction written with
  | nil =>
    intro entries present
    rcases present with mem | ⟨mem, _⟩
    · cases mem
    · exact mem
  | cons first rest ih =>
    intro entries present
    obtain ⟨fresh, distinct⟩ := List.nodup_cons.mp distinct
    refine ih distinct _ ?_
    rcases present with mem | ⟨mem, apart⟩
    · rcases List.mem_cons.mp mem with rfl | later
      · exact .inr ⟨mem_insert_self .., fresh⟩
      · exact .inl later
    · rw [List.map_cons, List.mem_cons, not_or] at apart
      exact .inr ⟨mem_insert_of_mem _ mem apart.1, apart.2⟩

end ExportLint.Keyed

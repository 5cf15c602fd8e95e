import ExportLint.Types.Demand

/-!
# Reading demands

When a demand is met, given which types fit which, and which pairs of types a demand asks about:
they are parts of the two types that are compared. In a table whose types have existing parts every
question stays inside the table; in one whose types are made of earlier types it leads to an earlier
pair. A demand of a table is sharpened when the table grows.
-/

namespace ExportLint

namespace Demand

/-- Whether a demand is met when types fit each other as a relation says. -/
def Holds (rel : TypeId → TypeId → Prop) : Demand → Prop
  | holds => True
  | fails => False
  | missing _ => False
  | fits source target => rel source target
  | both first second => first.Holds rel ∧ second.Holds rel
  | either first second => first.Holds rel ∨ second.Holds rel

/-- Whether a demand looks up no missing type and asks only about pairs of the given kind. -/
def Asks (kind : TypeId → TypeId → Prop) : Demand → Prop
  | holds => True
  | fails => True
  | missing _ => False
  | fits source target => kind source target
  | both first second => first.Asks kind ∧ second.Asks kind
  | either first second => first.Asks kind ∧ second.Asks kind

/-- The second demand is the first one, except that missing types may have been supplied. -/
inductive Sharpens : Demand → Demand → Prop
  | same (demand : Demand) : Sharpens demand demand
  | supplied (id : TypeId) (demand : Demand) : Sharpens (.missing id) demand
  | both {first second first' second' : Demand} (left : Sharpens first first') (right : Sharpens second second') :
    Sharpens (.both first second) (.both first' second')
  | either {first second first' second' : Demand} (left : Sharpens first first')
    (right : Sharpens second second') : Sharpens (.either first second) (.either first' second')

theorem Holds.mono {small large : TypeId → TypeId → Prop} (weaker : ∀ s t, small s t → large s t)
    {demand : Demand} (met : demand.Holds small) : demand.Holds large := by
  induction demand with
  | holds => trivial
  | fails => exact met
  | missing id => exact met
  | fits source target => exact weaker source target met
  | both first second ihFirst ihSecond => exact ⟨ihFirst met.1, ihSecond met.2⟩
  | either first second ihFirst ihSecond =>
    rcases met with left | right
    · exact Or.inl (ihFirst left)
    · exact Or.inr (ihSecond right)

theorem Asks.mono {small large : TypeId → TypeId → Prop} (weaker : ∀ s t, small s t → large s t)
    {demand : Demand} (asks : demand.Asks small) : demand.Asks large := by
  induction demand with
  | holds => trivial
  | fails => trivial
  | missing id => exact asks
  | fits source target => exact weaker source target asks
  | both first second ihFirst ihSecond => exact ⟨ihFirst asks.1, ihSecond asks.2⟩
  | either first second ihFirst ihSecond => exact ⟨ihFirst asks.1, ihSecond asks.2⟩

/-- A demand is met by the pairs that it asks about. -/
theorem Holds.asked {rel kind : TypeId → TypeId → Prop} {demand : Demand} (met : demand.Holds rel)
    (asks : demand.Asks kind) : demand.Holds fun s t => rel s t ∧ kind s t := by
  induction demand with
  | holds => trivial
  | fails => exact met
  | missing id => exact met
  | fits source target => exact ⟨met, asks⟩
  | both first second ihFirst ihSecond => exact ⟨ihFirst met.1 asks.1, ihSecond met.2 asks.2⟩
  | either first second ihFirst ihSecond =>
    rcases met with left | right
    · exact Or.inl (ihFirst left asks.1)
    · exact Or.inr (ihSecond right asks.2)

/-- Where no type is missing nothing is supplied. -/
theorem Sharpens.eq_of_asks {kind : TypeId → TypeId → Prop} {demand sharper : Demand}
    (sharpens : demand.Sharpens sharper) (asks : demand.Asks kind) : sharper = demand := by
  induction sharpens with
  | same => rfl
  | supplied => exact asks.elim
  | both _ _ ihLeft ihRight => rw [ihLeft asks.1, ihRight asks.2]
  | either _ _ ihLeft ihRight => rw [ihLeft asks.1, ihRight asks.2]

variable {α : Type} {kind : TypeId → TypeId → Prop} {demand : α → Demand} {elements : List α}

theorem asks_every (all : ∀ element ∈ elements, (demand element).Asks kind) : (every demand elements).Asks kind := by
  induction elements with
  | nil => trivial
  | cons first rest ih => exact ⟨all first (by simp), ih fun element mem => all element (by simp [mem])⟩

theorem asks_some (all : ∀ element ∈ elements, (demand element).Asks kind) : (some demand elements).Asks kind := by
  induction elements with
  | nil => trivial
  | cons first rest ih => exact ⟨all first (by simp), ih fun element mem => all element (by simp [mem])⟩

theorem asks_ofBool (answer : Bool) : (ofBool answer).Asks kind := by
  cases answer <;> trivial

variable {demand' : α → Demand}

theorem sharpens_every (all : ∀ element, (demand element).Sharpens (demand' element)) :
    (every demand elements).Sharpens (every demand' elements) := by
  induction elements with
  | nil => exact .same _
  | cons first rest ih => exact .both (all first) ih

theorem sharpens_some (all : ∀ element, (demand element).Sharpens (demand' element)) :
    (some demand elements).Sharpens (some demand' elements) := by
  induction elements with
  | nil => exact .same _
  | cons first rest ih => exact .either (all first) ih

end Demand

/-- The types that a signature mentions. -/
def Signature.parts (signature : Signature) : List TypeId :=
  signature.parameters.map (·.type) ++ [signature.returns]

/-- The types that a form mentions. -/
def TypeForm.parts : TypeForm → List TypeId
  | intrinsic _ | stringLiteral _ | numberLiteral _ | booleanLiteral _ => []
  | object members signatures => members.entries.map (·.2) ++ signatures.flatMap Signature.parts
  | union types => types

namespace TypeForm

theorem mem_parts_of_find? {members : Members} {signatures : List Signature} {name : String} {part : TypeId}
    (found : members.find? name = some part) : part ∈ (object members signatures).parts := by
  obtain ⟨before, after, same, _⟩ := List.lookup_eq_some_iff.mp found
  have mem : (name, part) ∈ members.entries := by simp [same]
  exact List.mem_append_left _ (List.mem_map.mpr ⟨_, mem, rfl⟩)

theorem mem_parts_of_signature {members : Members} {signatures : List Signature} {signature : Signature}
    {part : TypeId} (listed : signature ∈ signatures) (mem : part ∈ signature.parts) :
    part ∈ (object members signatures).parts :=
  List.mem_append_right _ (List.mem_flatMap.mpr ⟨signature, listed, mem⟩)

end TypeForm

/-- Two types are compared when the source is compared with the target: parts of one with the other
or with parts of it, in either direction. -/
def TypeEntry.Compares (source target : TypeEntry) (a b : TypeId) : Prop :=
  (a ∈ source.form.parts ∧ (b = target.id ∨ b ∈ target.form.parts)) ∨
    (b ∈ target.form.parts ∧ a = source.id) ∨ (a ∈ target.form.parts ∧ b ∈ source.form.parts)

namespace TypeTable

/-- Whether every type stands under its own number. -/
def Numbered (table : TypeTable) : Prop :=
  ∀ ⦃id : TypeId⦄ ⦃entry : TypeEntry⦄, table.find? id = some entry → entry.id = id

/-- Whether every type that a type mentions is in the table. -/
def Closed (table : TypeTable) : Prop :=
  ∀ ⦃id : TypeId⦄ ⦃entry : TypeEntry⦄, table.find? id = some entry →
    ∀ part ∈ entry.form.parts, part.index < table.size

/-- Whether every type mentions only types before it. -/
def Grounded (table : TypeTable) : Prop :=
  ∀ ⦃id : TypeId⦄ ⦃entry : TypeEntry⦄, table.find? id = some entry →
    ∀ part ∈ entry.form.parts, part.index < id.index

/-- Whether the types of a table have the same numbers in a later one. -/
def Extends (later table : TypeTable) : Prop :=
  ∀ ⦃id : TypeId⦄ ⦃entry : TypeEntry⦄, table.find? id = some entry → later.find? id = some entry

variable {table later : TypeTable} {strict : Bool}

theorem find?_eq_none_iff {id : TypeId} : table.find? id = none ↔ table.size ≤ id.index :=
  Array.getElem?_eq_none_iff

theorem exists_find? {id : TypeId} (inside : id.index < table.size) : ∃ entry, table.find? id = some entry :=
  Option.ne_none_iff_exists'.mp fun absent => Nat.not_lt.mpr (find?_eq_none_iff.mp absent) inside

theorem index_lt_of_find? {id : TypeId} {entry : TypeEntry} (found : table.find? id = some entry) :
    id.index < table.size :=
  index_lt_of_get (get_eq_ok_iff.mpr found)

theorem closed_iff :
    table.Closed ↔ ∀ entry ∈ table.entries.toList, ∀ part ∈ entry.form.parts, part.index < table.size := by
  constructor
  · intro closed entry mem
    obtain ⟨index, found⟩ := List.mem_iff_getElem?.mp mem
    exact closed (show table.find? ⟨index⟩ = some entry by simpa [find?] using found)
  · intro parts id entry found
    refine parts entry (List.mem_iff_getElem?.mpr ⟨id.index, ?_⟩)
    simpa [find?] using found

instance : Decidable table.Closed :=
  decidable_of_iff _ closed_iff.symm

theorem Grounded.closed (grounded : table.Grounded) : table.Closed := fun _ _ found part mem =>
  Nat.lt_trans (grounded found part mem) (index_lt_of_find? found)

theorem demandOf_eq_ok_iff {source target : TypeId} {demand : Demand} :
    table.demandOf strict source target = .ok demand ↔
      ∃ sourceEntry targetEntry, table.find? source = some sourceEntry ∧ table.find? target = some targetEntry ∧
        table.demand strict sourceEntry targetEntry = demand := by
  simp only [demandOf, ← get_eq_ok_iff]
  cases table.get source <;> cases table.get target <;> simp [bind, Except.bind, pure, Except.pure]

/-! ### What a demand asks -/

section
variable {source target : TypeEntry}

private theorem asks_return {members : Members} {signatures : List Signature} {given wanted : Signature}
    (form : source.form = .object members signatures) (listed : given ∈ signatures)
    {members' : Members} {signatures' : List Signature} (form' : target.form = .object members' signatures')
    (listed' : wanted ∈ signatures') (known : ∀ part ∈ target.form.parts, part.index < table.size) :
    (table.demandReturn given.returns wanted.returns).Asks (source.Compares target) := by
  have inSource : given.returns ∈ source.form.parts := by
    rw [form]
    exact TypeForm.mem_parts_of_signature listed (by simp [Signature.parts])
  have inTarget : wanted.returns ∈ target.form.parts := by
    rw [form']
    exact TypeForm.mem_parts_of_signature listed' (by simp [Signature.parts])
  obtain ⟨entry, found⟩ := exists_find? (known _ inTarget)
  simp only [demandReturn, found]
  split
  · trivial
  · exact Or.inl ⟨inSource, Or.inr inTarget⟩

private theorem asks_signature {members : Members} {signatures : List Signature} {given wanted : Signature}
    (form : source.form = .object members signatures) (listed : given ∈ signatures)
    {members' : Members} {signatures' : List Signature} (form' : target.form = .object members' signatures')
    (listed' : wanted ∈ signatures') (known : ∀ part ∈ target.form.parts, part.index < table.size) :
    (table.demandSignature given wanted).Asks (source.Compares target) := by
  unfold demandSignature
  split
  · trivial
  · refine ⟨Demand.asks_every ?_, asks_return form listed form' listed' known⟩
    rintro ⟨taken, supplied⟩ mem
    obtain ⟨inGiven, inWanted⟩ := List.of_mem_zip mem
    refine Or.inr (Or.inr ⟨?_, ?_⟩)
    · rw [form']
      exact TypeForm.mem_parts_of_signature listed'
        (List.mem_append_left _ (List.mem_map.mpr ⟨supplied, inWanted, rfl⟩))
    · rw [form]
      exact TypeForm.mem_parts_of_signature listed
        (List.mem_append_left _ (List.mem_map.mpr ⟨taken, inGiven, rfl⟩))

private theorem asks_object {members members' : Members} {signatures signatures' : List Signature}
    (form : source.form = .object members signatures) (form' : target.form = .object members' signatures')
    (known : ∀ part ∈ target.form.parts, part.index < table.size) :
    (table.demandObject members members' signatures signatures').Asks (source.Compares target) := by
  refine ⟨Demand.asks_every ?_, Demand.asks_every fun wanted listed' => Demand.asks_some fun given listed =>
    asks_signature form listed form' listed' known⟩
  rintro ⟨name, wanted⟩ mem
  dsimp only
  split
  · next present found =>
    refine Or.inl ⟨?_, Or.inr ?_⟩
    · rw [form]
      exact TypeForm.mem_parts_of_find? found
    · rw [form']
      exact List.mem_append_left _ (List.mem_map.mpr ⟨_, mem, rfl⟩)
  · trivial

/-- A demand asks only about parts of the two types that it compares. -/
theorem demand_asks (known : ∀ part ∈ target.form.parts, part.index < table.size) :
    (table.demand strict source target).Asks (source.Compares target) := by
  unfold demand
  split
  · trivial
  · split
    · next types form =>
      exact Demand.asks_every fun part mem => Or.inl ⟨by rw [form]; exact mem, Or.inl rfl⟩
    · next types form _ =>
      exact Demand.asks_some fun part mem => Or.inr (Or.inl ⟨by rw [form]; exact mem, rfl⟩)
    · split
      · exact Demand.asks_ofBool _
      · split
        · trivial
        · split
          · next form form' => exact asks_object form form' known
          · trivial

end

/-- In a closed table questions lead to questions about types of the table. -/
theorem asks_inside (numbered : table.Numbered) (closed : table.Closed) {source target : TypeId} {demand : Demand}
    (demanded : table.demandOf strict source target = .ok demand) :
    demand.Asks fun a b => a.index < table.size ∧ b.index < table.size := by
  obtain ⟨sourceEntry, targetEntry, found, found', rfl⟩ := demandOf_eq_ok_iff.mp demanded
  have inSource := closed found
  have inTarget := closed found'
  have insideSource := index_lt_of_find? found
  have insideTarget := index_lt_of_find? found'
  refine (demand_asks inTarget).mono ?_
  rintro a b (⟨mem, rfl | mem'⟩ | ⟨mem, rfl⟩ | ⟨mem, mem'⟩)
  · exact ⟨inSource a mem, numbered found' ▸ insideTarget⟩
  · exact ⟨inSource a mem, inTarget b mem'⟩
  · exact ⟨numbered found ▸ insideSource, inTarget b mem⟩
  · exact ⟨inTarget a mem, inSource b mem'⟩

/-- In a grounded table questions lead to questions about earlier pairs. -/
theorem asks_earlier (numbered : table.Numbered) (grounded : table.Grounded) {source target : TypeId}
    {demand : Demand} (demanded : table.demandOf strict source target = .ok demand) :
    demand.Asks fun a b => a.index + b.index < source.index + target.index := by
  obtain ⟨sourceEntry, targetEntry, found, found', rfl⟩ := demandOf_eq_ok_iff.mp demanded
  refine (demand_asks (grounded.closed found')).mono ?_
  rintro a b (⟨mem, rfl | mem'⟩ | ⟨mem, rfl⟩ | ⟨mem, mem'⟩)
  · have := grounded found a mem
    rw [numbered found']
    omega
  · have := grounded found a mem
    have := grounded found' b mem'
    omega
  · have := grounded found' b mem
    rw [numbered found]
    omega
  · have := grounded found' a mem
    have := grounded found b mem'
    omega

/-! ### Growing tables -/

/-- What a demand says about types that are there does not change when types are added. -/
theorem sharpens_demand (growth : later.Extends table) (source target : TypeEntry) :
    (table.demand strict source target).Sharpens (later.demand strict source target) := by
  have returns (given wanted : TypeId) :
      (table.demandReturn given wanted).Sharpens (later.demandReturn given wanted) := by
    cases found : table.find? wanted with
    | none =>
      simp only [demandReturn, found]
      exact .supplied wanted _
    | some entry =>
      simp only [demandReturn, found, growth found]
      exact .same _
  have signatures (given wanted : Signature) :
      (table.demandSignature given wanted).Sharpens (later.demandSignature given wanted) := by
    unfold demandSignature
    split
    · exact .same _
    · exact .both (.same _) (returns _ _)
  unfold demand
  split
  · exact .same _
  · split
    · exact .same _
    · exact .same _
    · split
      · exact .same _
      · split
        · exact .same _
        · split
          · exact .both (.same _) (Demand.sharpens_every fun wanted => Demand.sharpens_some fun given =>
              signatures given wanted)
          · exact .same _

end TypeTable

end ExportLint

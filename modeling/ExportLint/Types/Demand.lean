import ExportLint.Types.Table

/-!
# Demands

When one type fits another, said as a demand on smaller questions of the same kind. A demand is
either settled, or asks whether one type fits another, or combines two demands of which the second
matters only where the first leaves the matter open. Nothing here says how the smaller questions
are answered.
-/

namespace ExportLint

/-- A condition on which types fit which. -/
inductive Demand where
  | holds
  | fails
  /-- A type has to be looked up that is not in the table. -/
  | missing (id : TypeId)
  /-- The source has to fit the target. -/
  | fits (source target : TypeId)
  | both (first second : Demand)
  | either (first second : Demand)
  deriving Repr, DecidableEq

namespace Demand

/-- The demand that does or does not hold. -/
def ofBool (answer : Bool) : Demand :=
  if answer then holds else fails

variable {α : Type}

/-- The demand that holds for every element, asked in order. -/
def every (demand : α → Demand) (elements : List α) : Demand :=
  elements.foldr (fun element rest => both (demand element) rest) holds

/-- The demand that holds for some element, asked in order. -/
def some (demand : α → Demand) (elements : List α) : Demand :=
  elements.foldr (fun element rest => either (demand element) rest) fails

end Demand

/-- Whether the flags alone settle that the source fits: the target is `any` or `unknown`, the source
is `any` or `never`, or the source stands for no value and that is not checked. -/
def fitsByFlags (strict : Bool) (source target : TypeFlags) : Bool :=
  target.intersects (TypeFlags.any ∪ TypeFlags.unknown) ||
    source.intersects (TypeFlags.any ∪ TypeFlags.never) ||
    (source.intersects TypeFlags.nullable &&
      (!strict || (source.contains TypeFlags.undefined && target.contains TypeFlags.void)))

/-- Whether the target is a primitive type that holds the values of the source. -/
def fitsPrimitive (source target : TypeFlags) : Bool :=
  (target.contains TypeFlags.string && source.intersects TypeFlags.stringLike) ||
    (target.contains TypeFlags.number && source.intersects TypeFlags.numberLike) ||
    (target.contains TypeFlags.boolean && source.intersects TypeFlags.booleanLike) ||
    (target.contains TypeFlags.void && source.contains TypeFlags.void)

/-- Whether two literals of one kind have the same value. -/
def sameLiteral? : TypeForm → TypeForm → Option Bool
  | .stringLiteral a, .stringLiteral b => some (a == b)
  | .numberLiteral a, .numberLiteral b => some (a.same b)
  | .booleanLiteral a, .booleanLiteral b => some (a == b)
  | _, _ => none

namespace TypeTable

variable (table : TypeTable)

/-- The demand for a returned type: every type fits where the result is not used. -/
def demandReturn (source target : TypeId) : Demand :=
  match table.find? target with
  | some entry => if entry.flags.contains TypeFlags.void then .holds else .fits source target
  | none => .missing target

/-- The demand for a call signature: the target supplies the arguments that the source needs, each of
its parameters fits the parameter in the same place, and the result fits. -/
def demandSignature (source target : Signature) : Demand :=
  if target.parameters.length < source.minArguments then .fails
  else
    .both
      (.every (fun (taken, given) => .fits given.type taken.type)
        (source.parameters.zip target.parameters))
      (table.demandReturn source.returns target.returns)

/-- The demand for the members and call signatures of an object: the source has each member and some
fitting signature for each signature of the target. -/
def demandObject (source target : Members) (sources targets : List Signature) : Demand :=
  .both
    (.every (fun (name, wanted) =>
      match source.find? name with
      | some present => .fits present wanted
      | none => .fails) target.entries)
    (.every (fun wanted => .some (table.demandSignature · wanted) sources) targets)

/-- The demand under which a source fits a target that is another type. A union is taken apart on the
side of the source first, so that it fits another union of the same types. -/
def demand (strict : Bool) (source target : TypeEntry) : Demand :=
  if fitsByFlags strict source.flags target.flags then .holds
  else
    match source.form, target.form with
    | .union types, _ => .every (.fits · target.id) types
    | _, .union types => .some (.fits source.id ·) types
    | sourceForm, targetForm =>
      match sameLiteral? sourceForm targetForm with
      | some answer => .ofBool answer
      | none =>
        if fitsPrimitive source.flags target.flags then .holds
        else
          match sourceForm, targetForm with
          | .object sourceMembers sources, .object targetMembers targets =>
            table.demandObject sourceMembers targetMembers sources targets
          | _, _ => .fails

/-- The demand under which the type of one number fits the type of another number. -/
def demandOf (strict : Bool) (source target : TypeId) : Except Fault Demand := do
  return table.demand strict (← table.get source) (← table.get target)

theorem index_lt_of_demandOf {table : TypeTable} {strict : Bool} {source target : TypeId} {demand : Demand}
    (demanded : table.demandOf strict source target = .ok demand) :
    source.index < table.size ∧ target.index < table.size := by
  unfold demandOf at demanded
  match first : table.get source, second : table.get target with
  | .error fault, _ => simp [first, bind, Except.bind] at demanded
  | .ok entry, .error fault => simp [first, second, bind, Except.bind] at demanded
  | .ok sourceEntry, .ok targetEntry => exact ⟨index_lt_of_get first, index_lt_of_get second⟩

end TypeTable

end ExportLint

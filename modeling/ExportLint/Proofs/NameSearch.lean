import ExportLint.Program.Resolution
import ExportLint.Proofs.SingleCalls
import ExportLint.Types.Checker

/-!
# Searching for names

A type name is resolved by its symbol, and a name without a symbol is given up at once. Where the files
of a program were built on its store, this comes to a plain search for the spelling through the
statements of the files, whatever else has been interned there.
-/

namespace ExportLint

/-- The id of an alias or an interface with this spelling. -/
def Statement.spelled? (name : String) : Statement → Option NodeId
  | typeAlias node declared | interface node declared => if declared.name = name then some node.id else none
  | _ => none

/-- What a type name stands for, found without symbols: the type of a keyword, or else the first alias or
interface with this spelling among the top-level statements, in the order of the files. -/
def Program.search? {σ : Type} [TypeOracle σ] (program : Program) (oracle : σ) (name : String) : Option Resolution :=
  if name = "number" then some (.primitive .number (TypeOracle.keywordType oracle .number))
  else if name = "string" then some (.primitive .string (TypeOracle.keywordType oracle .string))
  else if name = "boolean" then some (.primitive .boolean (TypeOracle.keywordType oracle .boolean))
  else
    let spelled := (program.files.flatMap SourceFile.statements).findSome? (Statement.spelled? name)
    spelled.map fun node => .declared node (TypeOracle.declaredType oracle node)

theorem Primitive.ofKeyword?_eq (name : String) : Primitive.ofKeyword? name =
    if name = "number" then some .number else if name = "string" then some .string
    else if name = "boolean" then some .boolean else none := by
  by_cases number : name = "number"
  · rw [if_pos number, number]
    rfl
  by_cases string : name = "string"
  · rw [if_neg number, if_pos string, string]
    rfl
  by_cases boolean : name = "boolean"
  · rw [if_neg number, if_neg string, if_pos boolean, boolean]
    rfl
  rw [if_neg number, if_neg string, if_neg boolean, Option.eq_none_iff_forall_ne_some]
  intro kind found
  have spelled := Primitive.ofKeyword?_eq_some_iff.mp found
  cases kind with
  | number => exact number spelled.symm
  | string => exact string spelled.symm
  | boolean => exact boolean spelled.symm

/-! ### Symbols and spellings -/

theorem SourceFile.find?_typeDeclarations (file : SourceFile) (name : String) :
    (file.typeDeclarations.find? (·.name.name == name)).map (·.node) =
      file.statements.findSome? (Statement.spelled? name) := by
  rw [typeDeclarations, ← List.head?_filter, ← List.filterMap_eq_filter, List.filterMap_filterMap, ← List.head?_map,
    List.map_filterMap, List.head?_filterMap]
  congr 1
  funext statement
  cases statement with
  | interface node declared | typeAlias node declared =>
    by_cases same : declared.name = name <;>
      simp [Statement.typeName?, Statement.spelled?, Statement.id, Statement.node, Option.guard, same]
  | _ => rfl

namespace Program

variable {program : Program} {names : Interner}

theorem find?_typeDeclarations (program : Program) (name : String) :
    (program.typeDeclarations.find? (·.name.name == name)).map (·.node) =
      (program.files.flatMap SourceFile.statements).findSome? (Statement.spelled? name) := by
  rw [typeDeclarations, List.find?_flatMap, List.map_findSome?, ← List.head?_filterMap (f := Statement.spelled? name),
    List.filterMap_flatMap, List.head?_flatMap]
  congr 1
  funext file
  rw [List.head?_filterMap]
  exact file.find?_typeDeclarations name

/-- Where all declared names are known to the store, comparing symbols comes to comparing names. -/
theorem declaration?_eq_find? (known : ∀ declared ∈ program.typeDeclarations,
    names.resolve? declared.name.symbol = some declared.name.name) (name : String) :
    program.declaration? names name = program.typeDeclarations.find? (·.name.name == name) := by
  unfold declaration?
  match found : names.find? name with
  | none =>
    -- every declared name has a symbol, so a name without one is not declared
    refine (List.find?_eq_none.mpr fun declared mem same => ?_).symm
    have spelled : declared.name.name = name := by simpa using same
    have symbol := Interner.find?_eq_some_iff.mpr (known declared mem)
    rw [spelled, found] at symbol
    cases symbol
  | some symbol =>
    have symbols : ∀ declared ∈ program.typeDeclarations,
        (declared.name.symbol == symbol && declared.name.name == name) = (declared.name.name == name) := by
      intro declared mem
      by_cases same : declared.name.name = name
      · have symbol := Interner.find?_eq_some_iff.mpr (known declared mem)
        rw [same, found] at symbol
        cases symbol
        simp [same]
      · simp [same]
    exact List.find?_congr symbols

end Program

/-! ### Names of finished files -/

theorem Statement.leaf_mem_of_typeName? {statement : Statement} {name : Identifier}
    (declared : statement.typeName? = some name) : .leaf name ∈ statement.outline.parts := by
  have below (node : Node) : .leaf name ∈ (Outline.branch node [.leaf name]).parts :=
    List.mem_cons_of_mem _ (List.mem_singleton.mpr rfl)
  cases statement with
  | interface node other =>
    cases declared
    rw [Statement.outline]
    exact below node
  | typeAlias node other =>
    cases declared
    rw [Statement.outline]
    exact below node
  | _ => cases declared

/-- The names of the aliases and interfaces of a finished file are known to its builder. -/
theorem Workspace.Sound.known {origin : Nat → Nat} {workspace : Workspace} {number : Nat} {file : SourceFile}
    (sound : workspace.Sound origin) (finished : workspace.finished? number = some file) {declared : TypeDeclaration}
    (mem : declared ∈ file.typeDeclarations) :
    (workspace.names (origin number)).resolve? declared.name.symbol = some declared.name.name := by
  refine (sound.files number _ (finished?_eq_some_iff.mp finished)).known declared.name ?_
  obtain ⟨statement, listed, found⟩ := List.mem_filterMap.mp mem
  obtain ⟨name, named, rfl⟩ := Option.map_eq_some_iff.mp found
  refine Outline.mem_names_iff.mpr (Statement.mem_flatten_outlines.mpr ⟨statement, listed, ?_⟩)
  exact Statement.leaf_mem_of_typeName? named

/-- Resolving a name agrees with searching for its spelling. The files of the program were built by builders
on its store, which may have been given other names by anyone. -/
theorem Program.resolve?_eq_search? {σ : Type} [TypeOracle σ] {origin : Nat → Nat} {workspace : Workspace}
    {number : Nat} {program : Program} {names : Interner} (made : workspace.Made origin)
    (found : workspace.program? number = some (program, names))
    (shared : ∀ file ∈ program.files, ∃ number owner, workspace.finished? number = some file ∧
      workspace.builders[origin number]? = some owner ∧ owner.store = program.store) (oracle : σ) (name : String) :
    program.resolve? names oracle name = program.search? oracle name := by
  obtain ⟨_, _, same⟩ := Option.map_eq_some_iff.mp found
  cases same
  have known : ∀ declared ∈ program.typeDeclarations,
      (workspace.interners.contents program.store).resolve? declared.name.symbol = some declared.name.name := by
    intro declared mem
    obtain ⟨file, listed, inFile⟩ := List.mem_flatMap.mp mem
    obtain ⟨other, owner, finished, owned, store⟩ := shared file listed
    have stands := made.sound.known finished inFile
    rw [Workspace.names, owned, Option.map_some, Option.getD_some, store] at stands
    exact stands
  have declarations := program.find?_typeDeclarations name
  rw [← declaration?_eq_find? known] at declarations
  unfold resolve? search?
  rw [Primitive.ofKeyword?_eq]
  by_cases number : name = "number"
  · rw [if_pos number, if_pos number]
  by_cases string : name = "string"
  · rw [if_neg number, if_neg number, if_pos string, if_pos string]
  by_cases boolean : name = "boolean"
  · rw [if_neg number, if_neg number, if_neg string, if_neg string, if_pos boolean, if_pos boolean]
  rw [if_neg number, if_neg number, if_neg string, if_neg string, if_neg boolean, if_neg boolean]
  have answers := congrArg (Option.map fun node => Resolution.declared node (TypeOracle.declaredType oracle node))
    declarations
  rw [Option.map_map] at answers
  exact answers

/-- A program with an alias that is spelled like a keyword. -/
theorem Program.resolve?_eq_search?_sole :
    let declarations := [Declaration.typeAlias .none "string" "number", .interface .none "Id" []]
    ∃ program names, (Workspace.sole "mod.ts" declarations).program? 0 = some (program, names) ∧ ∀ name,
      program.resolve? names (Checker.initial true) name = program.search? (Checker.initial true) name := by
  intro declarations
  have found : (Workspace.sole "mod.ts" declarations).program? 0 = some (_, _) := rfl
  refine ⟨_, _, found, fun name => ?_⟩
  refine Program.resolve?_eq_search? (Workspace.sole_made "mod.ts" declarations) found ?_ (Checker.initial true) name
  intro file mem
  cases List.mem_singleton.mp mem
  exact ⟨0, _, rfl, rfl, rfl⟩

end ExportLint

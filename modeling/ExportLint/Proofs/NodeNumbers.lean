import ExportLint.Proofs.SingleCalls

/-!
# Numbers of nodes

The nodes of the files of a builder have pairwise different ids, in whichever order the files grew,
and when all files are finished no id that the builder has drawn is left over. What a call has returned
are the ids of the nodes that it made, a statement or the declarators in it, and within a file ids go
upwards from a node to what is below it and to what comes after it.
-/

namespace ExportLint

/-- The nodes of a file, with the file itself. -/
def SourceFile.nodes (file : SourceFile) : List Node :=
  file.outline.parts.map Outline.node

namespace CallRecord

mutual

/-- The ids that were returned by a call and by the calls in it. -/
def ids : CallRecord → List NodeId
  | declared _ returned => returned
  | space _ _ returned inside => returned ++ idsOf inside

/-- The ids that were returned by calls and by the calls in them. -/
def idsOf : List CallRecord → List NodeId
  | [] => []
  | first :: rest => first.ids ++ idsOf rest

end

end CallRecord

namespace Workspace

/-- The finished files of a builder, in the order in which they were opened. -/
def finishedFiles (workspace : Workspace) (origin : Nat → Nat) (builder : Nat) : List SourceFile :=
  (List.range workspace.files.size).filterMap fun number =>
    if origin number = builder then workspace.finished? number else none

def finishedNodes (workspace : Workspace) (origin : Nat → Nat) (builder : Nat) : List Node :=
  (workspace.finishedFiles origin builder).flatMap SourceFile.nodes

/-- Whether the ids of the finished files of a builder are as they should be, where the calls are logged. -/
structure WellNumbered (origin : Nat → Nat) (workspace : Workspace) (log : CallLog) (builder : Nat) : Prop where
  /-- No two nodes share an id. -/
  distinct : ((workspace.finishedNodes origin builder).map (·.id.index)).Nodup
  /-- When all files of the builder are finished, the ids are those below the number of nodes. -/
  exact : (∀ number < workspace.files.size, origin number = builder → ∃ file, workspace.finished? number = some file) →
    ((workspace.finishedNodes origin builder).map (·.id.index)).Perm
      (List.range (workspace.finishedNodes origin builder).length)
  /-- Each call has returned the id of the statement that it made, or for a variable statement those of its
  declarators, one for each that was asked for and in order. No other node has one of these ids. -/
  given : ∀ (number : Nat) (file : SourceFile), origin number = builder → workspace.finished? number = some file →
    ∃ record, log[number]? = some record ∧ List.Forall₂ CallRecord.Made record.calls file.statements ∧
      ∀ id ∈ CallRecord.idsOf record.calls, ∃ node ∈ file.nodes, node.id = id ∧
        ∀ other ∈ workspace.finishedNodes origin builder, other.id = id → other = node
  /-- Within a file, what is below a node has greater ids. -/
  descendants : ∀ file ∈ workspace.finishedFiles origin builder, ∀ part ∈ Outline.flatten file.outline.inner,
    ∀ below ∈ Outline.flatten part.inner, part.index < below.index
  /-- Of two nodes below the same one, the later one has the greater id. -/
  siblings : ∀ file ∈ workspace.finishedFiles origin builder, ∀ part ∈ file.outline.parts,
    part.inner.Pairwise fun earlier later => earlier.index < later.index

end Workspace

variable {origin : Nat → Nat} {workspace : Workspace} {log : CallLog} {builder number : Nat} {file : SourceFile}

/-! ### The nodes of statements -/

/-- The ids that a call has to return are those of nodes of the statement. -/
theorem Statement.Gives.exists_part {statement : Statement} {declaration : Declaration} {returned : List NodeId}
    (gives : statement.Gives declaration returned) {id : NodeId} (mem : id ∈ returned) :
    ∃ part ∈ statement.outline.parts, part.node.id = id := by
  cases gives with
  | declarators binds =>
    obtain ⟨declared, listed, rfl⟩ := List.mem_map.mp mem
    refine ⟨declared.outline, ?_, rfl⟩
    rw [Statement.outline, Outline.parts, VariableList.outline, Outline.flatten_branch]
    refine List.mem_cons_of_mem _ (List.mem_cons_of_mem _ (List.mem_append_left _ ?_))
    exact (Outline.sublist_flatten _).subset (List.mem_map_of_mem listed)
  | whole other =>
    refine ⟨statement.outline, ?_, ?_⟩
    · rw [Outline.parts_eq]
      exact List.mem_cons_self
    · rw [statement.node_outline, List.mem_singleton.mp mem]
      rfl

mutual

/-- The ids that were returned by a call and by the calls in it are those of nodes of its statement. -/
theorem CallRecord.Made.exists_part {statement : Statement} (record : CallRecord) (made : record.Made statement)
    {id : NodeId} (mem : id ∈ record.ids) : ∃ part ∈ statement.outline.parts, part.node.id = id := by
  cases record with
  | declared declaration returned => exact made.gives.exists_part mem
  | space modifiers name returned inside =>
    rw [CallRecord.ids] at mem
    rcases List.mem_append.mp mem with own | below
    · exact made.gives.exists_part own
    · cases made with
      | space made =>
        obtain ⟨part, listed, same⟩ := CallRecord.exists_part_of_made inside made below
        refine ⟨part, ?_, same⟩
        rw [Statement.outline, Outline.parts, Outline.flatten_leaf]
        exact List.mem_cons_of_mem _ (List.mem_cons_of_mem _ listed)

theorem CallRecord.exists_part_of_made {statements : List Statement} (records : List CallRecord)
    (made : List.Forall₂ Made records statements) {id : NodeId} (mem : id ∈ idsOf records) :
    ∃ part ∈ Outline.flatten (Statement.outlines statements), part.node.id = id := by
  cases records with
  | nil => cases mem
  | cons record records =>
    cases made with
    | cons first rest =>
      rw [idsOf] at mem
      rcases List.mem_append.mp mem with here | later
      · obtain ⟨part, below, same⟩ := CallRecord.Made.exists_part record first here
        exact ⟨part, Statement.mem_flatten_outlines.mpr ⟨_, List.mem_cons_self, below⟩, same⟩
      · obtain ⟨part, listed, same⟩ := CallRecord.exists_part_of_made records rest later
        obtain ⟨statement, among, below⟩ := Statement.mem_flatten_outlines.mp listed
        exact ⟨part, Statement.mem_flatten_outlines.mpr ⟨statement, List.mem_cons_of_mem _ among, below⟩, same⟩

end

theorem SourceFile.nodes_eq (file : SourceFile) :
    file.nodes = file.node :: (Outline.flatten (Statement.outlines file.statements)).map Outline.node := rfl

/-- The ids of the nodes of a finished file are those that it has drawn. -/
theorem SourceFile.perm_drawn (file : SourceFile) :
    (file.nodes.map (·.id.index)).Perm (FileState.finished file).drawn := by
  rw [nodes_eq, List.map_cons, List.map_map]
  exact (List.perm_append_singleton _ _).symm

/-! ### The nodes of a builder -/

namespace Workspace

theorem mem_finishedFiles : file ∈ workspace.finishedFiles origin builder ↔
    ∃ number, origin number = builder ∧ workspace.finished? number = some file := by
  simp only [finishedFiles, List.mem_filterMap, List.mem_range]
  constructor
  · rintro ⟨number, _, found⟩
    by_cases own : origin number = builder
    · rw [if_pos own] at found
      exact ⟨number, own, found⟩
    · rw [if_neg own] at found
      cases found
  · rintro ⟨number, own, found⟩
    have inside := (Array.getElem?_eq_some_iff.mp (finished?_eq_some_iff.mp found)).1
    exact ⟨number, inside, by rw [if_pos own, found]⟩

theorem Sound.nodup_ids (sound : workspace.Sound origin) (builder : Nat) :
    ((workspace.finishedNodes origin builder).map (·.id.index)).Nodup := by
  rw [finishedNodes, List.map_flatMap, List.nodup_flatMap]
  constructor
  · intro file mem
    obtain ⟨number, _, found⟩ := mem_finishedFiles.mp mem
    have rising := (sound.numbered number _ (finished?_eq_some_iff.mp found)).rising
    exact file.perm_drawn.nodup_iff.mpr (rising.imp Nat.ne_of_lt)
  · refine List.pairwise_filterMap.mpr (List.pairwise_lt_range.imp ?_)
    intro number other less file found file' found' index mem mem'
    by_cases own : origin number = builder
    · by_cases own' : origin other = builder
      · rw [if_pos own, finished?_eq_some_iff] at found
        rw [if_pos own', finished?_eq_some_iff] at found'
        exact sound.apart number other _ _ found found' (Nat.ne_of_lt less) (own.trans own'.symm)
          (file.perm_drawn.mem_iff.mp mem) (file'.perm_drawn.mem_iff.mp mem')
      · rw [if_neg own'] at found'
        cases found'
    · rw [if_neg own] at found
      cases found

/-- Where all files of a builder are finished, no id is left over. -/
theorem Sound.perm_range (sound : workspace.Sound origin)
    (finished : ∀ number < workspace.files.size, origin number = builder →
      ∃ file, workspace.finished? number = some file) :
    ((workspace.finishedNodes origin builder).map (·.id.index)).Perm
      (List.range (workspace.finishedNodes origin builder).length) := by
  have counted : ((workspace.finishedNodes origin builder).map (·.id.index)).Perm
      (List.range (workspace.counter builder)) := by
    -- neither list repeats an id, so it is enough that they have the same ones
    rw [List.perm_ext_iff_of_nodup (sound.nodup_ids builder) List.nodup_range]
    intro index
    rw [finishedNodes, List.map_flatMap, List.mem_flatMap, List.mem_range]
    constructor
    · rintro ⟨file, listed, mem⟩
      obtain ⟨number, own, found⟩ := mem_finishedFiles.mp listed
      have bounded := (sound.numbered number _ (finished?_eq_some_iff.mp found)).bounded
      rw [own] at bounded
      exact bounded index (file.perm_drawn.mem_iff.mp mem)
    · intro below
      obtain ⟨number, state, found, own, mem⟩ := sound.spent builder index below
      obtain ⟨file, done⟩ := finished number (Array.getElem?_eq_some_iff.mp found).1 own
      rw [finished?_eq_some_iff] at done
      cases done.symm.trans found
      refine ⟨file, mem_finishedFiles.mpr ⟨number, own, finished?_eq_some_iff.mpr done⟩, ?_⟩
      exact file.perm_drawn.mem_iff.mpr mem
  have length := counted.length_eq
  rw [List.length_map, List.length_range] at length
  rw [length]
  exact counted

/-- The ids of a finished file go upwards, but for the file itself. -/
theorem Sound.rising (sound : workspace.Sound origin) (finished : workspace.finished? number = some file) :
    (Outline.indices (Statement.outlines file.statements)).Pairwise (· < ·) := by
  have whole := (sound.numbered number _ (finished?_eq_some_iff.mp finished)).rising
  exact (List.pairwise_append.mp whole).1

end Workspace

/-- Whatever calls have come after each other, the files of a builder are well numbered. -/
theorem Workspace.Logged.wellNumbered (logged : Logged origin workspace log) (builder : Nat) :
    WellNumbered origin workspace log builder := by
  have sound := logged.made.sound
  constructor
  · exact sound.nodup_ids builder
  · exact sound.perm_range
  · intro number file own finished
    obtain ⟨record, noted, made⟩ := logged.exists_made finished
    refine ⟨record, noted, made.statements, fun id mem => ?_⟩
    obtain ⟨part, listed, same⟩ := CallRecord.exists_part_of_made record.calls made.statements mem
    have inFile : part.node ∈ file.nodes := by
      rw [SourceFile.nodes_eq]
      exact List.mem_cons_of_mem _ (List.mem_map_of_mem listed)
    have inFiles : part.node ∈ workspace.finishedNodes origin builder :=
      List.mem_flatMap.mpr ⟨file, mem_finishedFiles.mpr ⟨number, own, finished⟩, inFile⟩
    refine ⟨part.node, inFile, same, fun other otherMem taken => ?_⟩
    exact List.inj_on_of_nodup_map (sound.nodup_ids builder) otherMem inFiles
      (congrArg NodeId.index (taken.trans same.symm))
  · intro file listed part mem below inside
    obtain ⟨number, _, finished⟩ := mem_finishedFiles.mp listed
    exact Outline.index_lt_of_rising (sound.rising finished) mem inside
  · intro file listed part mem
    obtain ⟨number, _, finished⟩ := mem_finishedFiles.mp listed
    have rising := sound.rising finished
    rw [Outline.parts_eq] at mem
    rcases List.mem_cons.mp mem with here | below
    · rw [here]
      exact Outline.trees_rising rising
    · exact Outline.inner_rising rising below

/-- A class and two declarators: ten nodes have ten ids, and three of them were returned. -/
theorem Workspace.Logged.wellNumbered_sole :
    let first : Declaration := .classDecl .none none
    let second : Declaration := .variableDecl ModifierFlags.exported NodeFlags.letList
      [{ binding := .name "a" }, { binding := .array ["b"] }]
    let workspace := sole "mod.ts" [first, second]
    let log : CallLog := #[{ name := "mod.ts", calls := [.declared first [⟨0⟩], .declared second [⟨3⟩, ⟨5⟩]] }]
    let nodes := workspace.finishedNodes (fun _ => 0) 0
    Logged (fun _ => 0) workspace log ∧ (nodes.map (·.id.index)).Perm (List.range 10) ∧
      ∀ id ∈ [⟨0⟩, ⟨3⟩, ⟨5⟩], ∃ node ∈ nodes, node.id = id ∧ ∀ other ∈ nodes, other.id = id → other = node := by
  intro first second workspace log nodes
  have logged := logged_sole "mod.ts" [first, second] (by decide)
  have returned : (layout [first, second]).1.map (fun statement => statement.handles.map Node.id) =
      [[⟨0⟩], [⟨3⟩, ⟨5⟩]] := by decide +kernel
  rw [returned] at logged
  have numbered := logged.wellNumbered 0
  refine ⟨logged, ?_, fun id mem => ?_⟩
  · have length : nodes.length = 10 := by decide +kernel
    rw [← length]
    refine numbered.exact fun number inside _ => ?_
    rw [Nat.lt_one_iff.mp inside]
    exact ⟨_, rfl⟩
  · obtain ⟨record, noted, _, unique⟩ := numbered.given 0 _ rfl rfl
    cases noted
    obtain ⟨node, inFile, same, only⟩ := unique id mem
    exact ⟨node, List.mem_flatMap.mpr ⟨_, mem_finishedFiles.mpr ⟨0, rfl, rfl⟩, inFile⟩, same, only⟩

end ExportLint

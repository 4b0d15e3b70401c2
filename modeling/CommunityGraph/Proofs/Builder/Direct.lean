import CommunityGraph.Proofs.Builder.Opening
import CommunityGraph.Proofs.Graph.Reading

/-! Builders over numbers that stand for themselves. Adding by such numbers is adding by ids, and without
any additions the settings of the properties do not show in what is built. -/
namespace CommunityGraph

namespace Builder
variable {α : Type} {idMap : IdMap} {config : BuilderConfig α} {layout : PropertyLayout}
  {links : List (Link α)} {b : Builder α}

def strict (b : Builder α) : Builder α := { b with config := { b.config with skipDangling := false } }

theorem insertStrict (b : Builder α) (source target : Nat) (values : List α) :
    b.strict.insert source target values =
      ((b.insert source target values).1, (b.insert source target values).2.strict) := by
  obtain ⟨idMap, config, layout, staged, slots, built, dropped⟩ := b
  unfold insert strict
  dsimp only
  split
  · rfl
  · cases slots.acquire with
    | refused e => rfl
    | busy => rfl
    | leased index slots =>
      dsimp only
      cases slots.get? index <;> rfl

theorem makeStrict (idMap : IdMap) (config : BuilderConfig α) :
    make idMap { config with skipDangling := false } = (make idMap config).map strict := by
  have layouts : BuilderConfig.layout { config with skipDangling := false } = config.layout := rfl
  cases found : config.layout with
  | error e =>
    rw [makeInvalid (layouts.trans found), makeInvalid found]
    rfl
  | ok layout =>
    have same : blocks { config with skipDangling := false } idMap.nodeCount layout.propertyCount =
      blocks config idMap.nodeCount layout.propertyCount := rfl
    rw [makeFound (layouts.trans found), makeFound found, same]
    cases Machine.reserve .ample 0 (blocks config idMap.nodeCount layout.propertyCount) <;> rfl

theorem makeMatches {other : BuilderConfig α} (adjusted : Builder α → Builder α)
    (made : make idMap other = (make idMap config).map adjusted) :
    Run.Matches
      (fun b b' => b' = adjusted b ∧ ∃ layout, config.Valid layout ∧ Runs idMap config layout [] b)
      (Run.ofExcept (make idMap config)) (Run.ofExcept (make idMap other)) := by
  rw [made]
  refine Run.matchesExcept ?_
  cases opened : make idMap config with
  | error e => rfl
  | ok b =>
    obtain ⟨layout, -, valid, runs⟩ := makeRuns opened
    exact ⟨rfl, layout, valid, runs⟩

theorem addEachHolds {β : Type} {Holds : Builder α → Prop}
    {add : β → Builder α → Except EngineError Unit × Builder α}
    (holds : ∀ item b, Holds b → Holds (add item b).2) (items : List β) (here : Holds b) :
    Holds (addEach add items b).2 := by
  induction items generalizing b with
  | nil => exact here
  | cons item items ih =>
    have further := holds item b here
    rw [addEach]
    generalize add item b = answer at further
    obtain ⟨outcome, after⟩ := answer
    cases outcome with
    | error e => exact further
    | ok => exact ih further

theorem addEachTold {β γ : Type} {Holds : Builder α → Prop} {told : β → Option γ}
    {add : β → Builder α → Except EngineError Unit × Builder α}
    {add' : γ → Builder α → Except EngineError Unit × Builder α} {items : List β}
    (adjusted : Builder α → Builder α)
    (step : ∀ item ∈ items, ∀ b, Holds b → add item (adjusted b) = (told item).elim
      (.ok (), adjusted b) fun other => ((add' other b).1, adjusted (add' other b).2))
    (holds : ∀ other b, Holds b → Holds (add' other b).2) (here : Holds b) :
    addEach add items (adjusted b) = ((addEach add' (items.filterMap told) b).1,
      adjusted (addEach add' (items.filterMap told) b).2) := by
  induction items generalizing b with
  | nil => rfl
  | cons item items ih =>
    have rest := fun other member => step other (List.mem_cons_of_mem item member)
    rw [addEach, step item (by simp) b here, List.filterMap_cons]
    cases told item with
    | none => exact ih rest here
    | some other =>
      have further := holds other b here
      dsimp only [Option.elim_some]
      rw [addEach]
      generalize add' other b = answer at further
      obtain ⟨outcome, after⟩ := answer
      cases outcome with
      | error e => rfl
      | ok => exact ih rest further

theorem directMapped {nodeCount node : Nat} (small : node < nodeCount) :
    (IdMap.direct nodeCount).mapped? node = some node := by
  simp [IdMap.mapped?, small]

variable [Weight α]

theorem buildStrict (b : Builder α) : b.strict.build = b.build := rfl

theorem Runs.addInternalStrict {nodeCount source target : Nat}
    (runs : Runs (.direct nodeCount) config layout links b) (hs : source < nodeCount)
    (ht : target < nodeCount) (values : List α) :
    b.strict.addInternal source target values =
      ((b.addValues source target values).1, (b.addValues source target values).2.strict) := by
  have nodes : b.strict.nodeCount = nodeCount := runs.staged.lists.nodes
  have mapped : b.addMapped source target values = b.insert source target values := by
    simp only [Builder.addMapped, runs.ids, directMapped hs, directMapped ht]
  have layouts : b.strict.layout = b.layout := rfl
  simp only [Builder.addInternal, Builder.addValues, nodes, if_neg (Nat.not_le.mpr hs),
    if_neg (Nat.not_le.mpr ht), layouts, mapped]
  cases valueFault? b.layout values with
  | some e => rfl
  | none => exact insertStrict b source target values

end Builder

namespace Graph
variable {α : Type} [Weight α]

structure Alike (g g' : Graph α) : Prop where
  nodes : g.nodeCount = g'.nodeCount
  lists : ∀ node < g.nodeCount, g.neighbours? node = g'.neighbours? node
  rows : ∀ node < g.nodeCount, g.row? node = g'.row? node

theorem Alike.refl (g : Graph α) : Alike g g := ⟨rfl, fun _ _ => rfl, fun _ _ => rfl⟩

structure Void (nodeCount : Nat) (g : Graph α) : Prop where
  nodes : g.nodeCount = nodeCount
  lists : ∀ node < nodeCount, g.neighbours? node = some []
  rows : ∀ node < nodeCount, g.row? node = some []

theorem Void.alike {nodeCount : Nat} {g g' : Graph α} (void : Void nodeCount g)
    (void' : Void nodeCount g') : Alike g g' := by
  obtain ⟨rfl, lists, rows⟩ := void
  exact ⟨void'.nodes.symm, fun node small => (lists node small).trans (void'.lists node small).symm,
    fun node small => (rows node small).trans (void'.rows node small).symm⟩

end Graph

namespace Builder
variable {α : Type} {idMap : IdMap} {config : BuilderConfig α} {layout : PropertyLayout}
  {b : Builder α}

theorem arrivedNone (valid : config.Valid layout) : arrived config [] = [] := by
  rw [arrivedStaged, (arrivedPerm valid []).eq_nil]
  rfl

variable [Weight α]

theorem finalRowsNone (layout : PropertyLayout) (node : Nat) :
    AdjacencyBuffer.finalRows layout ([] : List (StagedEntry α)) node = [] := by
  simp [AdjacencyBuffer.finalRows, StagedEntry.rowsOf, Row.arrange, Row.sort, Row.foldRuns]

theorem Built.void {nodeCount : Nat} {inverseEntries : List (StagedEntry α)} {r : Relationships α}
    (built : Built nodeCount config layout [] inverseEntries r) (valid : config.Valid layout) :
    Graph.Void nodeCount (⟨r, none⟩ : Graph α) := by
  have reads : ∀ node < nodeCount,
      Reads layout ([] : List (Row α)) node r.topology.adjacency r.properties := by
    intro node small
    rw [← finalRowsNone layout node]
    exact built.lists.reads valid small
  have lists : ∀ node < nodeCount, (⟨r, none⟩ : Graph α).neighbours? node = some [] :=
    fun node small => (reads node small).targets
  refine ⟨built.lists.nodes, lists, fun node small => ?_⟩
  simp only [Graph.row?, lists node small]
  cases found : (⟨r, none⟩ : Graph α).weights with
  | none => rfl
  | some property =>
    obtain ⟨index, there⟩ := List.getElem?_of_mem (Graph.weightsMember found)
    have values := (reads node small).values index property there
    simp [values]

theorem Runs.buildsVoid (runs : Runs idMap config layout [] b) (valid : config.Valid layout)
    (plain : config.indexInverse = false) :
    Run.Ends .always (fun _ => False)
      (fun r => Graph.Void idMap.nodeCount (⟨r, none⟩ : Graph α)) b.build := by
  intro j
  have ended := runs.build .always j
  rw [arrivedNone valid] at ended
  generalize (b.build .always j).1 = outcome at ended
  cases ended with
  | built finished => exact finished.void valid
  | stopped stops => exact .inl ⟨rfl, stops⟩
  | exhausted exhausts =>
    obtain ⟨-, node, -, costly⟩ := exhausts
    rw [finalRowsNone] at costly
    exact .inr (costly (AdjacencyStore.storableShort (Nat.le_refl 0) (by simp) (by simp)))
  | inverseExhausted inverted => exact absurd inverted (by simp [plain])

end Builder

end CommunityGraph

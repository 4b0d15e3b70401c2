import CommunityGraph.Proofs.Graph.Unheaded

/-! What is wrong with a graph file is found in a fixed order. A line that cannot be read comes before the
settings, those before the edges, and of several lines or edges the first one decides. -/
namespace CommunityGraph

namespace GraphFile
open Builder GraphRecord

section Lines
variable {content : List UInt8}

def Parsed (content : List UInt8) : Prop :=
  ∀ line ∈ Text.pieces 10 content, (read? line).isSome = true

def Malformed (content : List UInt8) : Set Nat :=
  {number | ∃ index line, number = index + 1 ∧ (Text.pieces 10 content)[index]? = some line ∧
    read? line = none}

end Lines

section Edges
variable {c : LoaderConfig} {weighted : Bool} {idMap : IdMap} {layout : PropertyLayout}
  {links : List (Link Float)} {b : Builder Float} {edges : List FileEdge}

def weightFault? (edge : FileEdge) : Option EngineError :=
  (edge.2.2.filter fun weight => !weight.isFinite).map fun weight =>
    .invalidPropertyValue weightKey (Weight.text weight)

def danglingEnds (idMap : IdMap) (edge : FileEdge) : List Int :=
  [edge.1, edge.2.1].filter fun id => (idMap.mapped? id).isNone

def endsFault? (idMap : IdMap) (c : LoaderConfig) (edge : FileEdge) : Option EngineError :=
  if c.skipDangling = true ∨ danglingEnds idMap edge = [] then none
  else some (.unmappedNodes (danglingEnds idMap edge))

def edgeFault? (idMap : IdMap) (c : LoaderConfig) (edge : FileEdge) : Option EngineError :=
  (weightFault? edge).or (endsFault? idMap c edge)

theorem valuesFault (valid : (directConfig c weighted).Valid layout) {edge : FileEdge}
    (weights : edge.2.2.isSome = true → weighted = true) :
    valueFault? layout (edgeValues weighted edge) = weightFault? edge := by
  obtain rfl := PropertyLayout.makeLayout valid.made
  obtain ⟨source, target, weight⟩ := edge
  cases weight with
  | none =>
    -- Without a weight, an edge takes the default one, or no values at all.
    have one : Float.isFinite 1.0 = true := by decide
    cases weighted with
    | false => rfl
    | true => exact if_pos one
  | some weight =>
    obtain rfl := weights rfl
    cases finite : Float.isFinite weight <;>
      simp [valueFault?, edgeValues, PropertyLayout.propertyCount, BuilderConfig.keys, directConfig,
        unusable?, weightFault?, Weight.isFinite, finite, PropertyConfig.weight]

theorem danglingNone {edge : FileEdge} {values : List Float} :
    danglingEnds idMap edge = [] ↔ (mappedLink? idMap edge.1 edge.2.1 values).isSome = true := by
  unfold danglingEnds mappedLink?
  cases source : idMap.mapped? edge.1 <;> cases target : idMap.mapped? edge.2.1 <;>
    simp [source, target]

theorem Runs.fileEdge (runs : Runs idMap (directConfig c weighted) layout links b)
    (valid : (directConfig c weighted).Valid layout) {edge : FileEdge}
    (weights : edge.2.2.isSome = true → weighted = true) :
    (addFileEdge weighted edge b).1 = (edgeFault? idMap c edge).elim (.ok ()) .error := by
  have values := valuesFault valid weights
  have skips : b.config.skipDangling = c.skipDangling :=
    congrArg BuilderConfig.skipDangling runs.settings
  have added : addFileEdge weighted edge b = b.addValues edge.1 edge.2.1 (edgeValues weighted edge) :=
    rfl
  rw [added, Builder.addValues, runs.properties, values, edgeFault?]
  cases fault : weightFault? edge with
  | some e => rfl
  | none =>
    -- The weight has passed; only the ends are left to look at.
    have usable := valueFaultNone.mp (values.trans fault)
    dsimp only
    rw [addMappedLink, runs.ids, skips, Option.none_or]
    unfold endsFault?
    cases linked : mappedLink? idMap edge.1 edge.2.1 (edgeValues weighted edge) with
    | some link =>
      have mapped : danglingEnds idMap edge = [] := danglingNone.mpr (by rw [linked]; rfl)
      have width : link.values.length = layout.propertyCount := by
        rw [mappedFull linked]
        exact usable.1
      obtain ⟨after, taken, -⟩ := runs.insert valid link width
      have sound : c.skipDangling = true ∨ danglingEnds idMap edge = [] := .inr mapped
      rw [if_pos sound]
      exact congrArg Prod.fst taken
    | none =>
      have unmapped : danglingEnds idMap edge ≠ [] := fun none => by
        rw [danglingNone, linked] at none
        cases none
      cases c.skipDangling with
      | true => rfl
      | false =>
        have refused : ¬ (false = true ∨ danglingEnds idMap edge = []) := by simpa using unmapped
        rw [if_neg refused]
        rfl

theorem Runs.fileEdges (runs : Runs idMap (directConfig c weighted) layout links b)
    (valid : (directConfig c weighted).Valid layout)
    (weights : ∀ edge ∈ edges, edge.2.2.isSome = true → weighted = true) :
    ∃ added after, added.length ≤ edges.length ∧
      addEach (addFileEdge weighted) edges b =
        ((edges.findSome? (edgeFault? idMap c)).elim (.ok ()) .error, after) ∧
      Runs idMap (directConfig c weighted) layout (links ++ added) after := by
  induction edges generalizing links b with
  | nil => exact ⟨[], b, Nat.le_refl 0, rfl, by simpa using runs⟩
  | cons edge edges ih =>
    -- The state is one of a run whether the edge is taken or not; the outcome tells whether to go on.
    have told := Runs.fileEdge runs valid (weights edge (by simp))
    have further := (runs.perform valid (edgeAddition weighted edge)).runs
    have same : addFileEdge weighted edge b = b.perform (edgeAddition weighted edge) := rfl
    rw [addEach, List.findSome?_cons]
    rw [← same] at further
    generalize addFileEdge weighted edge b = answer at told further
    obtain ⟨outcome, later⟩ := answer
    obtain rfl : outcome = _ := told
    generalize link? idMap (directConfig c weighted) layout (edgeAddition weighted edge) = taken
      at further
    have single : taken.toList.length ≤ 1 := by cases taken <;> simp
    cases edgeFault? idMap c edge with
    | some e => exact ⟨taken.toList, later, by simp only [List.length_cons]; omega, rfl, further⟩
    | none =>
      obtain ⟨added, after, few, all, ended⟩ := ih further
        fun other member => weights other (List.mem_cons_of_mem _ member)
      refine ⟨taken.toList ++ added, after, ?_, all, by rwa [← List.append_assoc]⟩
      rw [List.length_append, List.length_cons]
      omega

end Edges

section Settings
variable {c : LoaderConfig}

theorem layoutWorkers (none : c.concurrency = 0) (weighted : Bool) :
    (directConfig c weighted).layout = .error (.notPositive "concurrency") := by
  unfold BuilderConfig.layout
  have refused : requirePositive "concurrency" (directConfig c weighted).concurrency =
    .error (.notPositive "concurrency") := if_pos (by simp [directConfig, none])
  rw [refused]
  rfl

theorem layoutSize (workers : 0 < c.concurrency) (none : c.bufferSize = 0) (weighted : Bool) :
    (directConfig c weighted).layout = .error (.notPositive "buffer_size") := by
  unfold BuilderConfig.layout
  have refused : requirePositive "buffer_size" (directConfig c weighted).bufferSize =
    .error (.notPositive "buffer_size") := if_pos (by simp [directConfig, none])
  rw [requirePositivePasses _ (show 0 < (directConfig c weighted).concurrency from workers), refused]
  rfl

end Settings

section Outcomes
variable {content : List UInt8} {c : LoaderConfig} {t : Termination} {j : Journal}
  {records : List GraphRecord} {b : Builder Float} {m : Machine}

def fileFault? (c : LoaderConfig) (records : List GraphRecord) : Option EngineError :=
  (edgesOf records).findSome? (edgeFault? (idMap records) c)

theorem recordsFault (workers : 0 < c.concurrency) (size : 0 < c.bufferSize)
    (made : Builder.make (idMap records) (directConfig c (weightedOf records)) m = .ok b) :
    ∃ links after, links.length ≤ (edgesOf records).length ∧
      addEach addRecord records b = ((fileFault? c records).elim (.ok ()) .error, after) ∧
      (directConfig c (weightedOf records)).Valid (fileLayout c (weightedOf records)) ∧
      Runs (idMap records) (directConfig c (weightedOf records)) (fileLayout c (weightedOf records))
        links after := by
  obtain ⟨valid, runs⟩ := makeFile workers size made
  have weighed : ∀ edge ∈ edgesOf records, edge.2.2.isSome = true → weightedOf records = true :=
    fun edge member weighted => List.any_eq_true.mpr ⟨edge, member, weighted⟩
  obtain ⟨links, after, few, added, further⟩ := Runs.fileEdges runs valid weighed
  exact ⟨links, after, few, (Runs.addRecords runs valid fun _ => recordWeighted).trans added, valid,
    further⟩

structure Going (content : List UInt8) (t : Termination) (j : Journal) : Prop where
  parsed : Parsed content
  running : t.running j.checks (afterParse content j) = true

structure Ready (m : Machine) (content : List UInt8) (c : LoaderConfig) (t : Termination)
    (j : Journal) : Prop where
  going : Going content t j
  workers : 0 < c.concurrency
  size : 0 < c.bufferSize
  lent : m.Lends 0 (fileBlocks c (recordsOf content))

structure Building (m : Machine) (content : List UInt8) (c : LoaderConfig) (t : Termination)
    (j : Journal) : Prop where
  ready : Ready m content c t j
  sound : fileFault? c (recordsOf content) = none
  granted : m.refusal c.concurrency = none

/-- The outcomes of loading a file, in the order in which they are decided: one needs that none of those
before it applies. -/
inductive Told (m : Machine) (content : List UInt8) (c : LoaderConfig) (t : Termination)
    (j : Journal) : Except EngineError (Graph Float) → Prop where
  | malformed {number : Nat} {line : List UInt8} {message : String}
      (least : IsLeast (Malformed content) number)
      (found : (Text.pieces 10 content)[number - 1]? = some line)
      (refused : ofLine number line = .error (.parse number message)) :
      Told m content c t j (.error (.parse number message))
  | stopped (parsed : Parsed content)
      (heard : t.running j.checks (afterParse content j) = false) :
      Told m content c t j (.error .terminated)
  | workers (going : Going content t j) (none : c.concurrency = 0) :
      Told m content c t j (.error (.invalidConfiguration "concurrency" "must be at least 1"))
  | size (going : Going content t j) (workers : 0 < c.concurrency) (none : c.bufferSize = 0) :
      Told m content c t j (.error (.invalidConfiguration "buffer_size" "must be at least 1"))
  | unlent {e : EngineError} (going : Going content t j) (workers : 0 < c.concurrency)
      (size : 0 < c.bufferSize) (refuses : m.Refuses 0 (fileBlocks c (recordsOf content)) e) :
      Told m content c t j (.error e)
  | rejected {e : EngineError} (ready : Ready m content c t j)
      (fault : fileFault? c (recordsOf content) = some e) : Told m content c t j (.error e)
  | unmanned {reason : String} (ready : Ready m content c t j)
      (sound : fileFault? c (recordsOf content) = none)
      (refusal : m.refusal c.concurrency = some reason) :
      Told m content c t j (.error (.workersUnavailable reason))
  | stoppedLater (building : Building m content c t j) (stops : t.Stops) :
      Told m content c t j (.error .terminated)
  | unlisted {e : EngineError} (building : Building m content c t j)
      (unlisted : Unlisted (recordsOf content) e) : Told m content c t j (.error e)
  | loaded {g : Graph Float} (building : Building m content c t j) : Told m content c t j (.ok g)

theorem Ready.told (ready : Ready m content c t j)
    (made : Builder.make (idMap (recordsOf content))
      (directConfig c (weightedOf (recordsOf content))) m = .ok b) (k : Journal) :
    Told m content c t j (completed m c (recordsOf content) b t k).1 := by
  obtain ⟨links, after, few, added, valid, runs⟩ := recordsFault ready.workers ready.size made
  cases fault : fileFault? c (recordsOf content) with
  | some e =>
    rw [fault] at added
    have failed : (completed m c (recordsOf content) b t k).1 = .error e := by
      refine Run.bindFailed (Run.phaseFailed ?_) _
      rw [addAndBuild, added]
      rfl
    rw [failed]
    exact .rejected ready fault
  | none =>
    rw [fault] at added
    cases granted : m.refusal c.concurrency with
    | some reason =>
      rw [completedRefused added runs ready.workers granted]
      exact .unmanned ready fault granted
    | none =>
      have building : Building m content c t j := ⟨ready, fault, granted⟩
      have ended := completedEnds added granted runs valid few t k
      generalize (completed m c (recordsOf content) b t k).1 = outcome at ended
      cases outcome with
      | ok g => exact .loaded building
      | error e =>
        rcases ended with ⟨rfl, stops⟩ | unlisted
        · exact .stoppedLater building stops
        · exact .unlisted building unlisted

theorem openedRefused {e : EngineError}
    (refused : Builder.make (idMap records) (directConfig c (weightedOf records)) m = .error e)
    (k : Journal) : (opened m c records t k).1 = .error e := by
  rw [opened, refused]
  rfl

theorem Going.told (going : Going content t j) (k : Journal) :
    Told m content c t j (opened m c (recordsOf content) t k).1 := by
  rcases Nat.eq_zero_or_pos c.concurrency with none | workers
  · rw [openedRefused (Builder.makeInvalid (layoutWorkers none _))]
    exact .workers going none
  rcases Nat.eq_zero_or_pos c.bufferSize with none | size
  · rw [openedRefused (Builder.makeInvalid (layoutSize workers none _))]
    exact .size going workers none
  cases made : Builder.make (idMap (recordsOf content))
    (directConfig c (weightedOf (recordsOf content))) m with
  | error e =>
    rw [openedRefused made]
    exact .unlent going workers size (Builder.makeError (fileLayoutOk workers size _) made)
  | ok b =>
    obtain ⟨layout, found, lends, -⟩ := Builder.makeOk made
    obtain rfl := Except.ok.inj ((fileLayoutOk workers size _).symm.trans found)
    rw [opened, made]
    exact Ready.told ⟨going, workers, size, lends⟩ made k

end Outcomes
end GraphFile
end CommunityGraph

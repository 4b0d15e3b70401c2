import CommunityGraph.Proofs.Builder.Correctness
import CommunityGraph.Proofs.Logging

/-! The life of a builder. A call that is turned away leaves no trace but, if it was dropped, its count,
so the first build comes to the same without such calls; and what has been built takes nothing more. -/
namespace CommunityGraph
variable {α : Type}

namespace Builder
open AdjacencyBuffer BuilderSlot

inductive Call (α : Type) where
  | add (addition : Addition α)
  | build (t : Termination) (j : Journal)

def Call.builds : Call α → Bool
  | .add _ => false
  | .build _ _ => true

theorem insertRecounted (b : Builder α) (dropped source target : Nat) (values : List α) :
    (b.recounted dropped).insert source target values =
      ((b.insert source target values).1, (b.insert source target values).2.recounted dropped) := by
  obtain ⟨idMap, config, layout, staged, slots, built, count⟩ := b
  cases built with
  | true => rfl
  | false =>
    simp only [insert, recounted, Bool.false_eq_true, if_false]
    cases slots.acquire with
    | refused e => rfl
    | busy => rfl
    | leased index pool =>
      dsimp only
      cases pool.get? index <;> rfl

theorem closedRecounted (b : Builder α) (dropped : Nat) :
    (b.recounted dropped).closed = b.closed.recounted dropped := by
  obtain ⟨idMap, config, layout, staged, slots, built, count⟩ := b
  cases built with
  | true => rfl
  | false =>
    simp only [closed, recounted, Bool.false_eq_true, if_false]
    cases slots.close BuilderSlot.flush staged <;> rfl

theorem closedBuilt {b : Builder α} (built : b.built = true) : b.closed = b := by
  rw [closed, if_pos built]

theorem insertBuilt {b : Builder α} (built : b.built = true) (source target : Nat)
    (values : List α) : b.insert source target values = (.error .builderClosed, b) := by
  rw [insert, if_pos built]

theorem closedDropped (b : Builder α) : b.closed.dropped = b.dropped := by
  unfold closed
  split
  · rfl
  · cases b.slots.close BuilderSlot.flush b.staged <;> rfl

section Calls
variable (idMap : IdMap) (config : BuilderConfig α) (layout : PropertyLayout)

structure Serving (b : Builder α) : Prop where
  known : Known idMap config layout b
  takes : b.built = false → ∃ links, Runs idMap config layout links b

end Calls

variable {idMap : IdMap} {config : BuilderConfig α} {layout : PropertyLayout}
  {links : List (Link α)} {b : Builder α}

theorem Runs.serving (runs : Runs idMap config layout links b) : Serving idMap config layout b :=
  ⟨runs.known, fun _ => ⟨links, runs⟩⟩

theorem Known.recounted (known : Known idMap config layout b) (dropped : Nat) :
    Known idMap config layout (b.recounted dropped) :=
  ⟨known.ids, known.settings, known.properties, known.nodes⟩

theorem Serving.recounted (serving : Serving idMap config layout b) (dropped : Nat) :
    Serving idMap config layout (b.recounted dropped) where
  known := serving.known.recounted dropped
  takes opened := by
    obtain ⟨links, runs⟩ := serving.takes opened
    exact ⟨links, runs.ids, runs.settings, runs.properties, runs.opened, runs.staged⟩

theorem Runs.closed (runs : Runs idMap config layout links b) :
    Known idMap config layout b.closed ∧ b.closed.built = true := by
  obtain ⟨pool, after, drained, lists, -⟩ := runs.staged.drained
  obtain ⟨ids, settings, properties, opened, -⟩ := runs
  have closes : b.closed = { b with built := true, slots := pool, staged := after } := by
    simp [Builder.closed, opened, drained]
  rw [closes]
  exact ⟨⟨ids, settings, properties, lists.nodes⟩, rfl⟩

section Weighted
variable [Weight α]

theorem buildBuilt {b : Builder α} (built : b.built = true) (t : Termination) (j : Journal) :
    b.build t j = (.error .alreadyBuilt, j) := by
  rw [build, if_pos built]
  rfl

theorem buildRecounted {t : Termination} (deaf : t.Deaf) (b : Builder α) (dropped : Nat)
    (j : Journal) : ((b.recounted dropped).build t j).1 = (b.build t j).1 := by
  have same : (b.recounted dropped).drained = b.drained := rfl
  cases built : b.built with
  | true => rw [buildBuilt built, buildBuilt (b := b.recounted dropped) built]
  | false =>
    have other : (b.recounted dropped).built = false := built
    simp only [build, built, other, Bool.false_eq_true, if_false, assembleDeaf deaf, same]
    rfl

theorem Runs.buildFails (runs : Runs idMap config layout links b) {t : Termination} {j : Journal}
    {e : EngineError} (failed : (b.build t j).1 = .error e) : e.refuses = false := by
  have ended := runs.build t j
  rw [failed] at ended
  cases ended with
  | stopped stops => rfl
  | exhausted exhausts =>
    obtain ⟨⟨bytes, rfl⟩, -⟩ := exhausts
    rfl
  | inverseExhausted inverted exhausts =>
    obtain ⟨⟨bytes, rfl⟩, -⟩ := exhausts
    rfl

theorem Known.taken (known : Known idMap config layout b) {addition : Addition α} {link : Link α}
    (made : link? idMap config layout addition = some link) :
    dangles idMap config layout addition = false ∧
      b.perform addition = b.insert link.source link.target link.values := by
  have answers := known.perform addition
  rw [made] at answers
  generalize dangles idMap config layout addition = dropped at answers ⊢
  generalize b.perform addition = answer at answers ⊢
  cases answers
  exact ⟨rfl, rfl⟩

theorem Known.untaken (known : Known idMap config layout b) {addition : Addition α}
    (none : link? idMap config layout addition = none) :
    dangles idMap config layout addition = true ∧
        b.perform addition = (.ok (), b.recounted (b.dropped + 1)) ∨
      dangles idMap config layout addition = false ∧
        ∃ e : EngineError, e.refuses = true ∧ b.perform addition = (.error e, b) := by
  have answers := known.perform addition
  rw [none] at answers
  generalize dangles idMap config layout addition = dropped at answers ⊢
  generalize b.perform addition = answer at answers ⊢
  cases answers with
  | dropped => exact .inl ⟨rfl, rfl⟩
  | refused refuses => exact .inr ⟨rfl, _, refuses, rfl⟩

def after (b : Builder α) : Call α → Builder α
  | .add addition => (b.perform addition).2
  | .build _ _ => b.closed

def serveAll (b : Builder α) (calls : List (Call α)) : Builder α := calls.foldl after b

def refusal? (b : Builder α) : Call α → Option EngineError
  | .add addition =>
      match (b.perform addition).1 with
      | .error e => some e
      | .ok _ => none
  | .build t j =>
      match (b.build t j).1 with
      | .error e => some e
      | .ok _ => none

def firstBuild? : Builder α → List (Call α) → Option (Except EngineError (Relationships α))
  | _, [] => none
  | b, .add addition :: calls => firstBuild? (b.perform addition).2 calls
  | b, .build t j :: _ => some (b.build t j).1

section Calls
variable (idMap : IdMap) (config : BuilderConfig α) (layout : PropertyLayout)

def Call.dangles : Call α → Bool
  | .add addition => Builder.dangles idMap config layout addition
  | .build _ _ => false

def turnedAway (b : Builder α) (call : Call α) : Bool :=
  (b.refusal? call).any EngineError.refuses || call.dangles idMap config layout

def kept : Builder α → List (Call α) → List (Call α)
  | _, [] => []
  | b, call :: calls =>
      if b.turnedAway idMap config layout call then kept (b.after call) calls
      else call :: kept (b.after call) calls

structure Away (b : Builder α) (call : Call α) : Prop where
  turned : b.turnedAway idMap config layout call = true
  late : call.builds = true → b.built = true
  quiet : ∀ e, b.refusal? call = some e → call.dangles idMap config layout = false
  same : b.after call = b.recounted (b.dropped + (call.dangles idMap config layout).toNat)

structure Stays (b : Builder α) (call : Call α) : Prop where
  heard : b.turnedAway idMap config layout call = false
  opened : b.built = false
  held : call.dangles idMap config layout = false
  later : Serving idMap config layout (b.after call)
  built : (b.after call).built = call.builds
  dropped : (b.after call).dropped = b.dropped
  recounted : ∀ count, (b.recounted count).after call = (b.after call).recounted count

end Calls

theorem Serving.addTurn (serving : Serving idMap config layout b) (valid : config.Valid layout)
    (addition : Addition α) :
    Away idMap config layout b (.add addition) ∨ Stays idMap config layout b (.add addition) := by
  cases made : link? idMap config layout addition with
  | none =>
    rcases serving.known.untaken made with ⟨dropped, answer⟩ | ⟨held, e, refuses, answer⟩
    · exact .inl ⟨by simp [turnedAway, Call.dangles, dropped], nofun, by simp [refusal?, answer],
        by simp [after, Call.dangles, dropped, answer]⟩
    · refine .inl ⟨by simp [turnedAway, refusal?, answer, refuses], nofun, fun _ _ => held, ?_⟩
      simp only [after, Call.dangles, held, answer]
      rfl
  | some link =>
    obtain ⟨held, answer⟩ := serving.known.taken made
    cases built : b.built with
    | true =>
      rw [insertBuilt built] at answer
      refine .inl ⟨by simp [turnedAway, refusal?, answer, EngineError.refuses], nofun,
        fun _ _ => held, ?_⟩
      simp only [after, Call.dangles, held, answer]
      rfl
    | false =>
      obtain ⟨links, runs⟩ := serving.takes built
      obtain ⟨later, ok, further, dropped⟩ := runs.insert valid link (takenFull valid made)
      have inserted := answer.trans ok
      refine .inr ⟨?_, built, held, ?_, ?_, ?_, fun count => ?_⟩
      · simp [turnedAway, refusal?, inserted, Call.dangles, held]
      · simpa only [after, inserted] using further.serving
      · simpa only [after, inserted, Call.builds] using further.opened
      · simpa only [after, inserted] using dropped
      · simp only [after, answer, ((serving.known.recounted count).taken made).2, insertRecounted]

theorem Serving.buildTurn (serving : Serving idMap config layout b) (t : Termination) (j : Journal) :
    Away idMap config layout b (.build t j) ∨ Stays idMap config layout b (.build t j) := by
  cases built : b.built with
  | true =>
    refine .inl ⟨?_, fun _ => built, fun _ _ => rfl, closedBuilt built⟩
    simp [turnedAway, refusal?, buildBuilt built, EngineError.refuses]
  | false =>
    obtain ⟨links, runs⟩ := serving.takes built
    obtain ⟨known, done⟩ := runs.closed
    refine .inr ⟨?_, built, rfl, ⟨known, fun opened => ?_⟩, done, closedDropped b,
      closedRecounted b⟩
    · simp only [turnedAway, refusal?, Call.dangles, Bool.or_false]
      cases ended : (b.build t j).1 with
      | error e => simp [runs.buildFails ended]
      | ok r => rfl
    · exact absurd (done.symm.trans opened) nofun

theorem Serving.turn (serving : Serving idMap config layout b) (valid : config.Valid layout) :
    ∀ call, Away idMap config layout b call ∨ Stays idMap config layout b call
  | .add addition => serving.addTurn valid addition
  | .build t j => serving.buildTurn t j

theorem Serving.after (serving : Serving idMap config layout b) (valid : config.Valid layout)
    (call : Call α) : Serving idMap config layout (b.after call) := by
  rcases serving.turn valid call with away | stays
  · rw [away.same]
    exact serving.recounted _
  · exact stays.later

theorem Serving.serveAll (serving : Serving idMap config layout b) (valid : config.Valid layout)
    (calls : List (Call α)) : Serving idMap config layout (b.serveAll calls) := by
  induction calls generalizing b with
  | nil => exact serving
  | cons call calls ih => exact ih (serving.after valid call)

theorem Serving.built (serving : Serving idMap config layout b) (valid : config.Valid layout)
    (calls : List (Call α)) : (b.serveAll calls).built = (b.built || calls.any Call.builds) := by
  induction calls generalizing b with
  | nil => simp [Builder.serveAll]
  | cons call calls ih =>
    have rest : ((b.after call).serveAll calls).built = _ := ih (serving.after valid call)
    rw [Builder.serveAll, List.foldl_cons]
    refine rest.trans ?_
    rw [List.any_cons, ← Bool.or_assoc]
    congr 1
    rcases serving.turn valid call with away | stays
    · rw [away.same]
      cases builds : call.builds with
      | true => exact (away.late builds).trans (by simp)
      | false => simp [Builder.recounted]
    · rw [stays.built, stays.opened, Bool.false_or]

theorem Serving.dropped (serving : Serving idMap config layout b) (valid : config.Valid layout)
    (calls : List (Call α)) :
    (b.serveAll calls).dropped =
      b.dropped + calls.countP (Call.dangles idMap config layout) := by
  induction calls generalizing b with
  | nil => rfl
  | cons call calls ih =>
    have rest : ((b.after call).serveAll calls).dropped = _ := ih (serving.after valid call)
    rw [Builder.serveAll, List.foldl_cons]
    refine rest.trans ?_
    rw [List.countP_cons]
    rcases serving.turn valid call with away | stays
    · rw [away.same]
      cases call.dangles idMap config layout <;> simp [Builder.recounted]
      omega
    · simp [stays.dropped, stays.held]

theorem Away.unseen {call : Call α} (away : Away idMap config layout b call) (count : Nat) :
    (b.after call).recounted count = b.recounted count := by
  rw [away.same]
  rfl

theorem Away.keeps {call : Call α} (away : Away idMap config layout b call)
    (calls : List (Call α)) :
    kept idMap config layout b (call :: calls) = kept idMap config layout (b.after call) calls := by
  rw [kept, if_pos away.turned]

theorem Stays.keeps {call : Call α} (stays : Stays idMap config layout b call)
    (calls : List (Call α)) : kept idMap config layout b (call :: calls) =
      call :: kept idMap config layout (b.after call) calls := by
  rw [kept, if_neg (by simp [stays.heard])]

theorem Serving.trimmed (serving : Serving idMap config layout b) (valid : config.Valid layout)
    (calls : List (Call α)) (count : Nat) :
    (b.recounted count).serveAll (kept idMap config layout b calls) =
      (b.serveAll calls).recounted count := by
  induction calls generalizing b with
  | nil => rfl
  | cons call calls ih =>
    have rest := ih (serving.after valid call)
    -- Both sides go on from builders that differ in the count only, which this call does not read.
    rcases serving.turn valid call with away | stays
    · rw [away.unseen] at rest
      rw [away.keeps, rest]
      rfl
    · rw [← stays.recounted] at rest
      rw [stays.keeps]
      exact rest

theorem Serving.firstBuild (serving : Serving idMap config layout b) (valid : config.Valid layout)
    (opened : b.built = false) {calls : List (Call α)}
    (deaf : ∀ t j, .build t j ∈ calls → t.Deaf) (count : Nat) :
    firstBuild? (b.recounted count) (kept idMap config layout b calls) = firstBuild? b calls := by
  induction calls generalizing b with
  | nil => rfl
  | cons call calls ih =>
    have others : ∀ t j, .build t j ∈ calls → t.Deaf := fun t j member =>
      deaf t j (List.mem_cons_of_mem _ member)
    cases call with
    | add addition =>
      have rest := fun next => ih (serving.after valid (.add addition)) next others
      rcases serving.addTurn valid addition with away | stays
      · have further := rest (by rw [away.same]; exact opened)
        rw [away.unseen] at further
        rw [away.keeps, further]
        rfl
      · have further := rest stays.built
        rw [← stays.recounted] at further
        rw [stays.keeps]
        exact further
    | build t j =>
      rcases serving.buildTurn t j with away | stays
      · exact absurd ((away.late rfl).symm.trans opened) nofun
      · rw [stays.keeps]
        exact congrArg some (buildRecounted (deaf t j (by simp)) b count j)

theorem Serving.refused (serving : Serving idMap config layout b) (valid : config.Valid layout)
    {call : Call α} {e : EngineError} (answer : b.refusal? call = some e)
    (refuses : e.refuses = true) : b.after call = b := by
  rcases serving.turn valid call with away | stays
  · rw [away.same, away.quiet e answer]
    rfl
  · have heard := stays.heard
    simp [turnedAway, answer, refuses] at heard

theorem Serving.skipped (serving : Serving idMap config layout b) {addition : Addition α}
    (dropped : dangles idMap config layout addition = true) :
    b.perform addition = (.ok (), b.recounted (b.dropped + 1)) := by
  cases made : link? idMap config layout addition with
  | some link => exact absurd ((serving.known.taken made).1.symm.trans dropped) nofun
  | none =>
    rcases serving.known.untaken made with ⟨-, answer⟩ | ⟨held, -⟩
    · exact answer
    · exact absurd (held.symm.trans dropped) nofun

structure Endures (idMap : IdMap) (config : BuilderConfig α) (layout : PropertyLayout)
    (b : Builder α) (calls : List (Call α)) (c : Builder α) : Prop where
  refused : ∀ call e, c.refusal? call = some e → e.refuses = true → c.after call = c
  skipped : ∀ addition, dangles idMap config layout addition = true →
    c.perform addition = (.ok (), c.recounted (c.dropped + 1))
  answered : ∀ addition, link? idMap config layout addition = none →
    dangles idMap config layout addition = false →
      ∃ e : EngineError, e.refuses = true ∧ c.perform addition = (.error e, c)
  dropped : c.dropped = calls.countP (Call.dangles idMap config layout)
  trimmed : b.serveAll (kept idMap config layout b calls) = c.recounted 0
  firstBuild : (∀ t j, .build t j ∈ calls → t.Deaf) →
    firstBuild? b (kept idMap config layout b calls) = firstBuild? b calls
  takes : calls.any Call.builds = false → ∀ addition,
    c.Takes addition ↔ (link? idMap config layout addition).isSome
  closes : calls.any Call.builds = true →
    (∀ t j, (c.build t j).1 = .error .alreadyBuilt) ∧
      ∀ addition, (link? idMap config layout addition).isSome →
        c.perform addition = (.error .builderClosed, c)

/-- A call that is turned away leaves no trace, and the first build closes the builder for good. -/
theorem callsLeaveNoTrace {idMap : IdMap} {config : BuilderConfig α} {b : Builder α}
    (made : make idMap config = .ok b) (calls : List (Call α)) :
    ∃ layout, config.layout = .ok layout ∧
      Endures idMap config layout b calls (b.serveAll calls) := by
  obtain ⟨layout, found, valid, runs⟩ := makeRuns made
  have uncounted := makeDropped made
  have fresh : b.recounted 0 = b := by rw [recounted, ← uncounted]
  have served := runs.serving.serveAll valid calls
  have ended := runs.serving.built valid calls
  rw [runs.opened, Bool.false_or] at ended
  refine ⟨layout, found, ?_, ?_, ?_, ?_, ?_, ?_, ?_, ?_⟩
  · exact fun call e answer refuses => served.refused valid answer refuses
  · exact fun addition dropped => served.skipped dropped
  · intro addition none held
    rcases served.known.untaken none with ⟨dropped, -⟩ | ⟨-, refused⟩
    · exact absurd (held.symm.trans dropped) nofun
    · exact refused
  · have counted := runs.serving.dropped valid calls
    rwa [uncounted, Nat.zero_add] at counted
  · have trimmed := runs.serving.trimmed valid calls 0
    rwa [fresh] at trimmed
  · intro deaf
    have same := runs.serving.firstBuild valid runs.opened deaf 0
    rwa [fresh] at same
  · intro unbuilt addition
    obtain ⟨links, further⟩ := served.takes (ended.trans unbuilt)
    exact takesLink further valid addition
  · intro building
    have built := ended.trans building
    refine ⟨fun t j => by rw [buildBuilt built], fun addition passes => ?_⟩
    obtain ⟨link, taken⟩ := Option.isSome_iff_exists.mp passes
    rw [(served.known.taken taken).2, insertBuilt built]

end Weighted

def sampleSkipping : BuilderConfig Rat := { sampleConfig with skipDangling := true }

def sampleCalls : List (Call Rat) :=
  [.add (.plain 9 1), .add (.valued 0 1 [5]), .add (.internal 7 0 [1, 2]),
    .add (.valued 0 1 [5, 2]), .build .always .empty, .add (.plain 0 1), .build .always .empty]

theorem sampleTrace : ∃ b layout, make (.direct 3) sampleSkipping = .ok b ∧
    Endures (.direct 3) sampleSkipping layout b sampleCalls (b.serveAll sampleCalls) ∧
    (b.serveAll sampleCalls).dropped = 1 ∧
    firstBuild? b (kept (.direct 3) sampleSkipping layout b sampleCalls) =
      firstBuild? b sampleCalls ∧
    (b.serveAll sampleCalls).perform (.plain 0 2) =
      (.error .builderClosed, b.serveAll sampleCalls) := by
  obtain ⟨b, made⟩ : ∃ b, make (.direct 3) sampleSkipping = .ok b := ⟨_, rfl⟩
  obtain ⟨layout, found, endures⟩ := callsLeaveNoTrace made sampleCalls
  have deaf : ∀ t j, .build t j ∈ sampleCalls → t.Deaf := by
    simp [sampleCalls, Termination.alwaysDeaf]
  refine ⟨b, layout, made, endures, ?_, endures.firstBuild deaf, ?_⟩
  · rw [endures.dropped]
    obtain rfl := Except.ok.inj found
    cbv
  · exact (endures.closes rfl).2 _ rfl

end Builder
end CommunityGraph

import CommunityGraph.Proofs.Steps.Programs

/-! What runs write down. A journal only grows, and the changes of state are those of the run around the
phases. -/
namespace CommunityGraph
variable {α β : Type}

def Entry.change? : Entry → Option (SearchState × SearchState)
  | .transition before after => some (before, after)
  | _ => none

namespace Journal

def changes (j : Journal) : List (SearchState × SearchState) := j.entries.toList.filterMap Entry.change?

theorem changesNote (j : Journal) (e : Entry) :
    (j.note e).changes = j.changes ++ e.change?.toList := by
  have pushed : (j.note e).entries.toList = j.entries.toList ++ [e] := Array.toList_push
  rw [changes, pushed, List.filterMap_append, changes, List.filterMap_cons]
  cases e.change? <;> rfl

theorem changesLogged (j : Journal) (line : LogLine) : (j.note (.log line)).changes = j.changes := by
  rw [changesNote]
  exact List.append_nil _

theorem stateLast (j : Journal) :
    j.state = (j.changes.getLast?.map Prod.snd).getD .initialized := by
  rw [state, ← Array.foldl_toList, changes]
  induction j.entries.toList using List.reverseRecOn with
  | nil => rfl
  | append_singleton entries e ih =>
    rw [List.foldl_append, ih, List.filterMap_append]
    cases e with
    | transition before after => simp [Entry.change?]
    | _ => simp [Entry.change?]

end Journal

def Entry.Steady (e : Entry) : Prop := e.change? = none

namespace Watched
variable {Kind : Entry → Prop} {Stopped : β → Prop} {m : Watched β}

theorem Steps.writes (steps : Steps Kind Stopped m) (t : Termination) (j : Journal) :
    ∃ added, (m t j).2.entries.toList = j.entries.toList ++ added ∧ ∀ e ∈ added, Kind e := by
  induction steps generalizing j with
  | pure | check => exact ⟨[], (List.append_nil _).symm, by simp⟩
  | note kind => exact ⟨[_], Array.toList_push, by simpa using kind⟩
  | @bind _ _ _ _ m f first rest stopped ih later =>
    obtain ⟨added, grown, kinds⟩ := ih j
    obtain ⟨more, ended, others⟩ := later (m t j).1 (m t j).2
    refine ⟨added ++ more, ?_, fun e member => (List.mem_append.mp member).elim (kinds e) (others e)⟩
    rw [bindApply, ended, grown, List.append_assoc]

end Watched

namespace Run
variable {m : Run α}

theorem Steps.changes (steps : Steps Entry.Steady m) (t : Termination) (j : Journal) :
    (m t j).2.changes = j.changes := by
  obtain ⟨added, grown, kinds⟩ := Watched.Steps.writes steps t j
  rw [Journal.changes, grown, List.filterMap_append, List.filterMap_eq_nil_iff.mpr kinds,
    List.append_nil, Journal.changes]

theorem Steps.steady (steps : Steps Entry.Inner m) (name : String) (volume : Nat) :
    Steps Entry.Steady (Run.phase name volume m) := by
  refine Steps.phase rfl rfl rfl (steps.imp fun e inner => ?_)
  cases e with
  | progress | log => rfl
  | _ => exact inner.elim

end Run
end CommunityGraph

import CommunityGraph.Proofs.Steps.Programs

/-! Lines that are logged. To a flag that does not read them, a run from a journal with one more line
is the same run. -/
namespace CommunityGraph
variable {α β γ : Type}

def Termination.Deaf (t : Termination) : Prop :=
  ∀ (asked : Nat) (j : Journal) (line : LogLine),
    t.running asked (j.note (.log line)) = t.running asked j

theorem Termination.alwaysDeaf : always.Deaf := fun _ _ _ => rfl

namespace Watched
variable {t : Termination} {m : Watched β} {f : β → Watched γ}

def Deaf (t : Termination) (m : Watched β) : Prop :=
  ∀ (j : Journal) (line : LogLine),
    m t (j.note (.log line)) = ((m t j).1, (m t j).2.note (.log line))

theorem deafPure (b : β) : Deaf t (Watched.pure b) := fun _ _ => rfl

theorem deafCheck (deaf : t.Deaf) : Deaf t check := by
  intro j line
  have same := deaf j.checks j line
  simp only [check, Journal.note, Journal.checked] at same ⊢
  rw [same]

theorem Deaf.bind (first : Deaf t m) (rest : ∀ b, Deaf t (f b)) : Deaf t (Watched.bind m f) := by
  intro j line
  rw [bindApply, first j line, rest, bindApply]

theorem Steps.deaf {Stopped : β → Prop} (steps : Steps (fun _ => False) Stopped m)
    (deaf : t.Deaf) : Deaf t m := by
  induction steps with
  | pure b => exact deafPure b
  | note kind => exact kind.elim
  | check => exact deafCheck deaf
  | bind first rest stopped ih later => exact ih.bind later

end Watched

namespace Builder
open Watched
variable [Weight α] {t : Termination}

theorem deafCompressed (deaf : t.Deaf) (buffer : AdjacencyBuffer α) (layout : PropertyLayout)
    (concurrency : Nat) : Watched.Deaf t (compressed buffer layout concurrency) :=
  (compressedSteps buffer layout concurrency).deaf deaf

theorem compressBothDeaf (deaf : t.Deaf) (config : BuilderConfig α) (layout : PropertyLayout)
    (staged : StagedLists α) (j : Journal) (line : LogLine) :
    (compressBoth config layout staged t (j.note (.log line))).1 =
      (compressBoth config layout staged t j).1 := by
  unfold compressBoth
  rw [Run.bindApply, Run.bindApply, deafCompressed deaf staged.forward layout _ j line]
  generalize compressed staged.forward layout config.concurrency t j = answer
  obtain ⟨outcome, later⟩ := answer
  cases outcome with
  | error e => rfl
  | ok forward =>
    cases staged.inverse with
    | none => rfl
    | some buffer =>
      dsimp only
      rw [Run.bindApply, Run.bindApply, deafCompressed deaf buffer layout _ later line]
      generalize compressed buffer layout config.concurrency t later = answer
      obtain ⟨outcome, last⟩ := answer
      cases outcome <;> rfl

theorem assembleDeaf (deaf : t.Deaf) (config : BuilderConfig α) (layout : PropertyLayout)
    (dropped : Nat) (staged : StagedLists α) (j : Journal) :
    (assemble config layout dropped staged t j).1 = (compressBoth config layout staged t j).1 := by
  unfold assemble
  by_cases any : 0 < dropped
  · rw [if_pos any]
    exact compressBothDeaf deaf config layout staged j _
  · rw [if_neg any]
    rfl

end Builder
end CommunityGraph

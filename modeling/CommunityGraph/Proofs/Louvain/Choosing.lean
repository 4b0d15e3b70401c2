import CommunityGraph.Proofs.Louvain.LocalMoving
import CommunityGraph.Proofs.Ranks

/-! What a node chooses among the communities around it. The scan keeps the best candidate so far, and the
best one is the same in whatever order the candidates are met. -/
namespace CommunityGraph.LocalMoving
variable {α β : Type}

def Assignment.label (a : Assignment α) (node : Nat) : Nat := a.communities.getD node 0

def othersIn (label : Nat → Nat) (node : Nat) (row : List (Nat × α)) (community : Nat) : List α :=
  (row.filter fun entry => entry.1 ≠ node ∧ label entry.1 = community).map Prod.snd

section Weights

theorem othersInSome {label : Nat → Nat} {node : Nat} {row : List (Nat × α)} {community : Nat} :
    othersIn label node row community ≠ [] ↔
      ∃ target ∈ row.map Prod.fst, target ≠ node ∧ label target = community := by
  simp [othersIn, List.filter_eq_nil_iff]

theorem othersInCons (label : Nat → Nat) (node target : Nat) (weight : α) (row : List (Nat × α))
    (community : Nat) : othersIn label node ((target, weight) :: row) community =
      if target ≠ node ∧ label target = community then weight :: othersIn label node row community
      else othersIn label node row community := by
  rw [othersIn, List.filter_cons]
  simp only [decide_eq_true_eq]
  split <;> rfl

theorem lookupCons (other : Nat) (value : α) (rest : List (Nat × α)) (key : Nat) :
    ((other, value) :: rest).lookup key = if key = other then some value else rest.lookup key := by
  rw [List.lookup_cons]
  by_cases here : key = other
  · rw [if_pos here, beq_iff_eq.mpr here]
  · rw [if_neg here, beq_false_of_ne here]

theorem lookupMem {weights : List (Nat × α)} (distinct : (weights.map Prod.fst).Nodup) {key : Nat}
    {value : α} : (key, value) ∈ weights ↔ weights.lookup key = some value := by
  induction weights with
  | nil => simp
  | cons entry weights ih =>
    obtain ⟨other, sum⟩ := entry
    obtain ⟨fresh, rest⟩ := List.nodup_cons.mp distinct
    rw [lookupCons, List.mem_cons, Prod.mk.injEq, ih rest]
    by_cases here : key = other
    · subst here
      have elsewhere : weights.lookup key ≠ some value := fun found => by
        have later : key ∈ weights.map Prod.fst := List.mem_map_of_mem ((ih rest).mpr found)
        exact fresh later
      simp only [if_true, true_and, Option.some.injEq, elsewhere, or_false, eq_comm]
    · simp [here]

theorem lookupPerm {weights others : List (Nat × α)} (distinct : (others.map Prod.fst).Nodup)
    (same : weights.Perm others) (key : Nat) : weights.lookup key = others.lookup key := by
  have distinct' : (weights.map Prod.fst).Nodup := (same.map Prod.fst).nodup_iff.mpr distinct
  refine Option.ext fun value => ?_
  rw [← lookupMem distinct', ← lookupMem distinct, same.mem_iff]

variable [Weight α]

theorem addWeightLookup (community : Nat) (weight : α) (weights : List (Nat × α)) (key : Nat) :
    (addWeight community weight weights).lookup key =
      if key = community then some ((weights.lookup key).getD Weight.zero + weight)
      else weights.lookup key := by
  induction weights with
  | nil => simp [addWeight, lookupCons]
  | cons entry weights ih =>
    obtain ⟨other, sum⟩ := entry
    rw [addWeight]
    by_cases known : other = community
    · subst known
      by_cases here : key = other <;> simp [lookupCons, here]
    · simp only [if_neg known, lookupCons, ih]
      by_cases first : key = other
      · have elsewhere : key ≠ community := fun same => known (first.symm.trans same)
        rw [if_pos first, if_neg elsewhere, if_pos first]
      · simp only [if_neg first]

theorem addWeightNodup (community : Nat) (weight : α) {weights : List (Nat × α)}
    (distinct : (weights.map Prod.fst).Nodup) :
    ((addWeight community weight weights).map Prod.fst).Nodup := by
  induction weights with
  | nil => simp [addWeight]
  | cons entry weights ih =>
    obtain ⟨other, sum⟩ := entry
    obtain ⟨fresh, rest⟩ := List.nodup_cons.mp distinct
    rw [addWeight]
    split
    · exact distinct
    · rename_i unknown
      refine List.nodup_cons.mpr ⟨fun member => ?_, ih rest⟩
      exact (addWeightKeys _ _ _ _ member).elim unknown fresh

theorem neighbourWeightsNodup (communities : Array Nat) (node : Nat) (row : List (Nat × α))
    {weights : List (Nat × α)} (distinct : (weights.map Prod.fst).Nodup) :
    ((neighbourWeights communities node row weights).map Prod.fst).Nodup := by
  induction row generalizing weights with
  | nil => exact distinct
  | cons entry row ih =>
    rw [neighbourWeights]
    refine ih ?_
    split
    · exact distinct
    · exact addWeightNodup _ _ distinct

theorem neighbourWeightsLookup (a : Assignment α) (node : Nat) (row weights : List (Nat × α))
    (key : Nat) : (neighbourWeights a.communities node row weights).lookup key =
      if othersIn a.label node row key = [] then weights.lookup key
      else some ((othersIn a.label node row key).foldl (· + ·)
        ((weights.lookup key).getD Weight.zero)) := by
  induction row generalizing weights with
  | nil => rfl
  | cons entry row ih =>
    obtain ⟨target, weight⟩ := entry
    rw [neighbourWeights, ih]
    by_cases counted : target ≠ node ∧ a.label target = key
    · have same : key = a.communities.getD target 0 := counted.2.symm
      rw [othersInCons, if_pos counted, if_neg counted.1, addWeightLookup, if_pos same,
        if_neg (List.cons_ne_nil _ _)]
      split
      · rename_i none
        rw [none]
        rfl
      · rfl
    · rw [othersInCons, if_neg counted]
      by_cases loop : target = node
      · rw [if_pos loop]
      · have other : ¬ key = a.communities.getD target 0 := fun same => counted ⟨loop, same.symm⟩
        rw [if_neg loop, addWeightLookup, if_neg other]

def around (network : Network α) (a : Assignment α) (node : Nat) : List (Nat × α) :=
  neighbourWeights a.communities node (network.row node) []

def leadingTo (network : Network α) (a : Assignment α) (node community : Nat) : α :=
  Weight.accumulate (othersIn a.label node (network.row node) community)

theorem aroundDistinct (network : Network α) (a : Assignment α) (node : Nat) :
    ((around network a node).map Prod.fst).Nodup :=
  neighbourWeightsNodup _ _ _ List.nodup_nil

theorem aroundLookup (network : Network α) (a : Assignment α) (node key : Nat) :
    (around network a node).lookup key =
      if othersIn a.label node (network.row node) key = [] then none
      else some (leadingTo network a node key) := by
  rw [around, neighbourWeightsLookup]
  rfl

theorem aroundWeight (network : Network α) (a : Assignment α) (node key : Nat) :
    ((around network a node).lookup key).getD Weight.zero = leadingTo network a node key := by
  rw [aroundLookup]
  split
  · rename_i none
    rw [leadingTo, none]
    rfl
  · rfl

end Weights

section Scan
variable [LinearOrder β] {rank : α → Option β} {seen others : List (Candidate α)}
  {stay best other : Candidate α} {top : β}

structure Leads (rank : α → Option β) (seen : List (Candidate α)) (best : Candidate α) (top : β) :
    Prop where
  member : best ∈ seen
  ranked : rank best.score = some top
  most : ∀ other ∈ seen, ∀ place ∈ rank other.score, place ≤ top
  least : ∀ other ∈ seen, rank other.score = some top → best.community ≤ other.community

theorem Leads.unique {best' : Candidate α} {top' : β} (leads : Leads rank seen best top)
    (leads' : Leads rank others best' top') (same : ∀ other, other ∈ seen ↔ other ∈ others) :
    top = top' ∧ best.community = best'.community := by
  have below := leads'.most best ((same best).mp leads.member) top leads.ranked
  have above := leads.most best' ((same best').mpr leads'.member) top' leads'.ranked
  obtain rfl := le_antisymm below above
  exact ⟨rfl, Nat.le_antisymm (leads.least best' ((same best').mpr leads'.member) leads'.ranked)
    (leads'.least best ((same best).mp leads.member) leads.ranked)⟩

variable [Weight α]

theorem betterUnranked (ranks : Ranks rank) (unranked : rank best.score = none ∨ rank other.score = none) :
    better best other = best := by
  have below : Weight.lt best.score other.score = false := by
    rw [← Bool.not_eq_true, ranks.lt]
    rcases unranked with none | none <;> simp [none]
  have apart : Weight.eq other.score best.score = false := by
    rw [← Bool.not_eq_true, ranks.eq]
    rcases unranked with none | none <;> simp [none]
  rw [better, below, apart]
  rfl

theorem betterRanked (ranks : Ranks rank) {place : β} (ranked : rank best.score = some top)
    (placed : rank other.score = some place) : better best other =
      if top < place ∨ place = top ∧ other.community < best.community then other else best := by
  have below : Weight.lt best.score other.score = true ↔ top < place := by
    rw [ranks.lt, ranked, placed]
    simp
  have tied : Weight.eq other.score best.score = true ↔ place = top := by
    rw [ranks.eq, ranked, placed]
    simp
  simp only [better, Bool.or_eq_true, Bool.and_eq_true, decide_eq_true_eq, below, tied]

theorem Leads.better (ranks : Ranks rank) (leads : Leads rank seen best top) (other : Candidate α) :
    ∃ top', Leads rank (seen ++ [other]) (better best other) top' := by
  have stays (worse : ∀ place ∈ rank other.score, place ≤ top)
      (later : rank other.score = some top → best.community ≤ other.community) :
      Leads rank (seen ++ [other]) best top := by
    refine ⟨List.mem_append_left _ leads.member, leads.ranked, fun one member => ?_,
      fun one member => ?_⟩
    · rcases List.mem_append.mp member with old | new
      · exact leads.most one old
      · exact List.mem_singleton.mp new ▸ worse
    · rcases List.mem_append.mp member with old | new
      · exact leads.least one old
      · exact List.mem_singleton.mp new ▸ later
  cases placed : rank other.score with
  | none =>
    rw [betterUnranked ranks (.inr placed)]
    exact ⟨top, stays (by simp [placed]) (by simp [placed])⟩
  | some place =>
    rw [betterRanked ranks leads.ranked placed]
    split
    · rename_i wins
      have above : top ≤ place := wins.elim le_of_lt fun tie => tie.1.ge
      refine ⟨place, by simp, placed, fun one member => ?_, fun one member level => ?_⟩
      · rcases List.mem_append.mp member with old | new
        · exact fun here found => (leads.most one old here found).trans above
        · rw [List.mem_singleton.mp new, placed]
          simp
      · rcases List.mem_append.mp member with old | new
        · -- an earlier one at the new place can only have been level with the best so far
          have reached := leads.most one old place level
          rcases wins with more | ⟨rfl, first⟩
          · exact absurd reached (not_le.mpr more)
          · exact first.le.trans (leads.least one old level)
        · exact (List.mem_singleton.mp new ▸ le_rfl)
    · rename_i loses
      refine ⟨top, stays (fun here found => ?_) fun level => ?_⟩
      · cases placed.symm.trans found
        exact not_lt.mp fun more => loses (.inl more)
      · cases placed.symm.trans level
        exact Nat.le_of_not_lt fun first => loses (.inr ⟨rfl, first⟩)

theorem Leads.scan (ranks : Ranks rank) (leads : Leads rank seen best top)
    (others : List (Candidate α)) :
    ∃ top', Leads rank (seen ++ others) (others.foldl LocalMoving.better best) top' := by
  induction others generalizing seen best top with
  | nil => exact ⟨top, by simpa using leads⟩
  | cons other others ih =>
    obtain ⟨further, next⟩ := leads.better ranks other
    simpa using ih next

theorem scanUnranked (ranks : Ranks rank) (none : rank stay.score = none)
    (others : List (Candidate α)) : others.foldl better stay = stay := by
  induction others with
  | nil => rfl
  | cons other others ih => rw [List.foldl_cons, betterUnranked ranks (.inl none), ih]

theorem chooseTold (ranks : Ranks rank) (stay : Candidate α) (others : List (Candidate α)) :
    (choose stay others = stay.community ∧
      ∀ other ∈ others, Weight.lt stay.score other.score = false) ∨
      ∃ best top, Leads rank others best top ∧ Weight.lt stay.score best.score = true ∧
        choose stay others = best.community := by
  cases ranked : rank stay.score with
  | none =>
    refine .inl ⟨?_, fun other _ => ?_⟩
    · rw [choose, scanUnranked ranks ranked]
      split <;> rfl
    · rw [← Bool.not_eq_true, ranks.lt, ranked]
      simp
  | some place =>
    have start : Leads rank [stay] stay place := by
      refine ⟨by simp, ranked, ?_, ?_⟩ <;> simp [ranked]
    obtain ⟨top, leads⟩ := start.scan ranks others
    simp only [choose]
    generalize others.foldl better stay = best at leads
    split
    · rename_i more
      obtain ⟨low, atStay, high, atBest, less⟩ := (ranks.lt _ _).mp more
      cases ranked.symm.trans atStay
      cases leads.ranked.symm.trans atBest
      have moved : best ∈ others := by
        refine (List.mem_cons.mp leads.member).resolve_left fun same => ?_
        rw [same] at atBest
        cases ranked.symm.trans atBest
        exact lt_irrefl _ less
      exact .inr ⟨best, _, ⟨moved, leads.ranked,
        fun other member => leads.most other (List.mem_cons_of_mem _ member),
        fun other member => leads.least other (List.mem_cons_of_mem _ member)⟩, more, rfl⟩
    · rename_i enough
      refine .inl ⟨rfl, fun other member => ?_⟩
      rw [← Bool.not_eq_true, ranks.lt]
      rintro ⟨low, atStay, high, atOther, less⟩
      cases ranked.symm.trans atStay
      have reached := leads.most other (List.mem_cons_of_mem _ member) high atOther
      exact enough ((ranks.lt _ _).mpr ⟨place, ranked, top, leads.ranked, less.trans_le reached⟩)

theorem chooseSame (ranks : Ranks rank) (stay : Candidate α)
    (same : ∀ other, other ∈ seen ↔ other ∈ others) : choose stay seen = choose stay others := by
  rcases chooseTold ranks stay seen with ⟨chosen, enough⟩ | ⟨best, top, leads, more, chosen⟩ <;>
    rcases chooseTold ranks stay others with ⟨chosen', enough'⟩ | ⟨best', top', leads', more', chosen'⟩
  · rw [chosen, chosen']
  · exact absurd more' (by simp [enough best' ((same best').mpr leads'.member)])
  · exact absurd more (by simp [enough' best ((same best).mp leads.member)])
  · rw [chosen, chosen', (leads.unique leads' same).2]

end Scan

section Preference
variable [Weight α]

theorem memCandidates {network : Network α} {a : Assignment α} {node : Nat} {totals : Array α}
    {ratio : α} {current : Nat} {candidate : Candidate α} :
    candidate ∈ candidates totals ratio current (around network a node) ↔
      candidate.community ≠ current ∧
        othersIn a.label node (network.row node) candidate.community ≠ [] ∧
        candidate.score = score (leadingTo network a node candidate.community)
          (totals.getD candidate.community Weight.zero) ratio := by
  obtain ⟨community, value⟩ := candidate
  simp only [candidates, List.mem_map, List.mem_filter, Prod.exists,
    lookupMem (aroundDistinct network a node), aroundLookup, decide_eq_true_eq, Candidate.mk.injEq]
  constructor
  · rintro ⟨key, inner, ⟨found, other⟩, rfl, rfl⟩
    split at found
    · cases found
    · rename_i some
      cases found
      exact ⟨other, some, rfl⟩
  · rintro ⟨other, some, rfl⟩
    exact ⟨community, _, ⟨if_neg some, other⟩, rfl, rfl⟩

variable (network : Network α) (a : Assignment α) (degrees : Array α) (total : α) (node : Nat)

def nearby : Set Nat :=
  {community | community ≠ a.label node ∧
    ∃ target ∈ network.targets node, target ≠ node ∧ a.label target = community}

def ownScore : α :=
  score (leadingTo network a node (a.label node))
    (a.totals.getD (a.label node) Weight.zero - degrees.getD node Weight.zero)
    (degrees.getD node Weight.zero / total)

def nearScore (community : Nat) : α :=
  score (leadingTo network a node community) (a.totals.getD community Weight.zero)
    (degrees.getD node Weight.zero / total)

def preferredAmong (weights : List (Nat × α)) : Nat :=
  if Weight.le total Weight.zero then a.label node
  else
    choose ⟨a.label node, stayScore a.totals (degrees.getD node Weight.zero)
        (degrees.getD node Weight.zero / total) (a.label node) weights⟩
      (candidates a.totals (degrees.getD node Weight.zero / total) (a.label node) weights)

theorem preferredAround : preferredCommunity network a degrees total node =
    preferredAmong a degrees total node (around network a node) := rfl

variable {network a degrees total node}

theorem memOffered {candidate : Candidate α} :
    candidate ∈ candidates a.totals (degrees.getD node Weight.zero / total) (a.label node)
        (around network a node) ↔
      candidate.community ∈ nearby network a node ∧
        candidate.score = nearScore network a degrees total node candidate.community := by
  rw [memCandidates, othersInSome, ← and_assoc]
  rfl

theorem preferredScan (some : Weight.le total Weight.zero = false) :
    preferredCommunity network a degrees total node =
      choose ⟨a.label node, ownScore network a degrees total node⟩
        (candidates a.totals (degrees.getD node Weight.zero / total) (a.label node)
          (around network a node)) := by
  rw [preferredAround, preferredAmong, some, stayScore, aroundWeight]
  rfl

variable [LinearOrder β] {rank : α → Option β}

theorem preferredSame (ranks : Ranks rank) {weights : List (Nat × α)}
    (same : weights.Perm (around network a node)) :
    preferredAmong a degrees total node weights = preferredCommunity network a degrees total node := by
  have stay : stayScore a.totals (degrees.getD node Weight.zero)
      (degrees.getD node Weight.zero / total) (a.label node) weights =
      stayScore a.totals (degrees.getD node Weight.zero)
        (degrees.getD node Weight.zero / total) (a.label node) (around network a node) := by
    rw [stayScore, lookupPerm (aroundDistinct network a node) same, stayScore]
  have others : (candidates a.totals (degrees.getD node Weight.zero / total) (a.label node)
      weights).Perm (candidates a.totals (degrees.getD node Weight.zero / total) (a.label node)
        (around network a node)) := (same.filter _).map _
  rw [preferredAround, preferredAmong, preferredAmong, stay,
    chooseSame ranks _ fun other => others.mem_iff]

/-- The community that a node is in, unless one nearby scores more than staying does: then the first
of those with the greatest score. -/
structure Prefers (rank : α → Option β) (network : Network α) (a : Assignment α) (degrees : Array α)
    (total : α) (node chosen : Nat) : Prop where
  stays : (∀ community ∈ nearby network a node, Weight.lt (ownScore network a degrees total node)
    (nearScore network a degrees total node community) = false) → chosen = a.label node
  leaves : (∃ community ∈ nearby network a node, Weight.lt (ownScore network a degrees total node)
    (nearScore network a degrees total node community) = true) →
    IsLeast {community ∈ nearby network a node |
      ∃ top ∈ rank (nearScore network a degrees total node community),
        ∀ other ∈ nearby network a node,
          ∀ place ∈ rank (nearScore network a degrees total node other), place ≤ top} chosen

theorem preferredPrefers (ranks : Ranks rank) (some : Weight.le total Weight.zero = false) :
    Prefers rank network a degrees total node (preferredCommunity network a degrees total node) := by
  have offered {community : Nat} (near : community ∈ nearby network a node) :
      ⟨community, nearScore network a degrees total node community⟩ ∈
        candidates a.totals (degrees.getD node Weight.zero / total) (a.label node)
          (around network a node) := memOffered.mpr ⟨near, rfl⟩
  rw [preferredScan some]
  rcases chooseTold ranks ⟨a.label node, ownScore network a degrees total node⟩
    (candidates a.totals (degrees.getD node Weight.zero / total) (a.label node)
      (around network a node)) with ⟨chosen, enough⟩ | ⟨best, top, leads, more, chosen⟩
  · refine ⟨fun _ => chosen, ?_⟩
    rintro ⟨community, near, more⟩
    exact absurd more (by simp [enough _ (offered near)])
  · obtain ⟨near, scored⟩ := memOffered.mp leads.member
    rw [chosen]
    refine ⟨fun enough => ?_, fun _ => ⟨⟨near, top, scored ▸ leads.ranked, fun other there => ?_⟩, ?_⟩⟩
    · exact absurd (scored ▸ more) (by simp [enough _ near])
    · exact leads.most _ (offered there)
    · rintro community ⟨there, top', ranked, most⟩
      have below := leads.most _ (offered there) top' ranked
      have above := most best.community near top (scored ▸ leads.ranked)
      exact leads.least _ (offered there) (le_antisymm below above ▸ ranked)

theorem preferenceUnordered (ranks : Ranks rank) (network : Network α) (a : Assignment α)
    (degrees : Array α) (total : α) (node : Nat) :
    (∀ weights, weights.Perm (around network a node) →
        preferredAmong a degrees total node weights =
          preferredCommunity network a degrees total node) ∧
      (Weight.le total Weight.zero = true →
        preferredCommunity network a degrees total node = a.label node) ∧
      (Weight.le total Weight.zero = false →
        Prefers rank network a degrees total node
          (preferredCommunity network a degrees total node)) ∧
      (preferredCommunity network a degrees total node = a.label node ∨
        ∃ target ∈ network.targets node, target ≠ node ∧
          preferredCommunity network a degrees total node = a.label target) := by
  refine ⟨fun _ same => preferredSame ranks same, fun none => ?_, preferredPrefers ranks, ?_⟩
  · rw [preferredAround, preferredAmong, none]
    rfl
  · rcases preferredNear network a degrees total node with own | ⟨target, there, same⟩
    · exact .inl own
    · by_cases loop : target = node
      · exact .inl (loop ▸ same)
      · exact .inr ⟨target, there, loop, same⟩

def sampleStar : Network Float := ⟨#[[(1, 1), (2, 1), (3, 1)], [(0, 1)], [(0, 1)], [(0, 1)]]⟩

def starDegrees : Array Float := #[3, 1, 1, 1]

theorem samplePreference :
    Ranks Double.rank ∧ Weight.le (6 : Float) Weight.zero = false ∧
      Prefers Double.rank sampleStar (.singletons starDegrees) starDegrees 6 0 1 ∧
      [(2, (1 : Float)), (3, 1), (1, 1)].Perm (around sampleStar (.singletons starDegrees) 0) ∧
      preferredAmong (.singletons starDegrees) starDegrees 6 0 [(2, 1), (3, 1), (1, 1)] = 1 := by
  have first : preferredCommunity sampleStar (.singletons starDegrees) starDegrees 6 0 = 1 := by
    decide +kernel
  have some : Weight.le (6 : Float) Weight.zero = false := by decide +kernel
  have order : [(2, (1 : Float)), (3, 1), (1, 1)].Perm
      (around sampleStar (.singletons starDegrees) 0) := by decide +kernel
  obtain ⟨unordered, -, prefers, -⟩ := preferenceUnordered Double.doubleRanks sampleStar
    (.singletons starDegrees) starDegrees 6 0
  exact ⟨Double.doubleRanks, some, first ▸ prefers some, order, (unordered _ order).trans first⟩

def sampleDebt : Network Float := ⟨#[[(1, 1)], [(0, 1), (2, -5)], [(1, -5)]]⟩

def debtDegrees : Array Float := #[1, -4, -5]

/-- Unless there is more than no weight in all, a node stays even where a community nearby scores more. -/
theorem debtStays :
    sampleDebt.weightedDegrees = debtDegrees ∧ Weight.sum debtDegrees.toList = -8 ∧
      ¬ Prefers Double.rank sampleDebt (.singletons debtDegrees) debtDegrees (-8) 0
        (preferredCommunity sampleDebt (.singletons debtDegrees) debtDegrees (-8) 0) := by
  refine ⟨by decide +kernel, by decide +kernel, fun prefers => ?_⟩
  have stays : preferredCommunity sampleDebt (.singletons debtDegrees) debtDegrees (-8) 0 =
      (Assignment.singletons debtDegrees).label 0 := by decide +kernel
  have more : Weight.lt (ownScore sampleDebt (.singletons debtDegrees) debtDegrees (-8) 0)
      (nearScore sampleDebt (.singletons debtDegrees) debtDegrees (-8) 0 1) = true := by
    decide +kernel
  have near : 1 ∈ nearby sampleDebt (.singletons debtDegrees) 0 :=
    ⟨by decide +kernel, 1, by decide, by decide, by decide +kernel⟩
  exact (prefers.leaves ⟨1, near, more⟩).1.1.1 stays

end Preference
end CommunityGraph.LocalMoving

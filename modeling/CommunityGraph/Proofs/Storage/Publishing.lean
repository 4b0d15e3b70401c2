import CommunityGraph.Proofs.Storage.Tiling

/-! Pages that are handed in late. An allocator keeps the page it fills, whose number it has reserved,
and hands it in when it gives it up; once all allocators are gone the pages handed in, in the order of
their numbers, are the pages of the arena. -/
namespace CommunityGraph
variable {α : Type}

structure PageHolder (α : Type) where
  page : Option (Array α)
  index : Nat
  capacity : Nat

structure PageTable (α : Type) where
  pageSize : Nat
  elementBytes : Nat
  reserved : Nat
  published : Nat → Option (Array α)

namespace PageTable

def make (pageSize elementBytes : Nat) : PageTable α := ⟨max pageSize 1, elementBytes, 0, fun _ => none⟩

def freeze (table : PageTable α) (holder : PageHolder α) : PageHolder α × PageTable α :=
  match holder.page with
  | none => ({ holder with capacity := 0 }, table)
  | some values =>
      ({ holder with page := none, capacity := 0 },
        { table with published := Function.update table.published holder.index (some values) })

def startPage (table : PageTable α) (holder : PageHolder α) (length : Nat) :
    Except EngineError Unit × PageHolder α × PageTable α :=
  let (holder, table) := table.freeze holder
  let capacity := max table.pageSize length
  if Memory.maxBlock < capacity * table.elementBytes then
    (.error (.allocationFailed (capacity * table.elementBytes % UInt64.size)), holder, table)
  else (.ok (), ⟨some #[], table.reserved, capacity⟩, { table with reserved := table.reserved + 1 })

def fits (holder : PageHolder α) (length : Nat) : Bool :=
  match holder.page with
  | none => false
  | some values => length ≤ holder.capacity - values.size

def allocate (table : PageTable α) (holder : PageHolder α) (length : Nat) (zero : α) :
    Except EngineError Address × PageHolder α × PageTable α :=
  let (started, holder, table) :=
    if fits holder length then (.ok (), holder, table) else table.startPage holder length
  match started with
  | .error e => (.error e, holder, table)
  | .ok () =>
      let values := holder.page.getD #[]
      (.ok ⟨holder.index, values.size⟩,
        { holder with page := some (values ++ Array.replicate length zero) }, table)

def build (table : PageTable α) : Array (Array α) :=
  Array.ofFn fun index : Fin table.reserved => (table.published index).getD #[]

end PageTable

structure PublishingSession (α : Type) extends Lending α where
  table : PageTable α
  holders : Nat → PageHolder α

namespace PublishingSession

def opened (pageSize elementBytes : Nat) : PublishingSession α :=
  ⟨⟨[], fun _ => none⟩, .make pageSize elementBytes, fun _ => ⟨none, 0, 0⟩⟩

def serve (zero : α) (session : PublishingSession α) : ArenaRequest α → PublishingSession α
  | .allocate index length =>
      match session.table.allocate (session.holders index) length zero with
      | (.error _, holder, table) =>
          ⟨session.withdraw index, table, Function.update session.holders index holder⟩
      | (.ok address, holder, table) =>
          ⟨session.lend index address (List.replicate length zero), table,
            Function.update session.holders index holder⟩
  | .write index position value =>
      match session.slice? index with
      | none => session
      | some (place, a) =>
          if position < a.length then
            let holder := session.holders index
            let page := holder.page.map fun values =>
              values.setIfInBounds (a.address.offset + position) value
            ⟨session.fill place a position value, session.table,
              Function.update session.holders index { holder with page }⟩
          else session
  | .freeze index =>
      let (holder, table) := session.table.freeze (session.holders index)
      ⟨session.withdraw index, table, Function.update session.holders index holder⟩

def serveAll (zero : α) (session : PublishingSession α) (requests : List (ArenaRequest α)) :
    PublishingSession α :=
  requests.foldl (serve zero) session

end PublishingSession

structure Handed (table : PageTable α) (holders : Nat → PageHolder α) (arena : Arena α)
    (allocators : Nat → Allocator) : Prop where
  pageSize : table.pageSize = arena.pageSize
  elementBytes : table.elementBytes = arena.elementBytes
  reserved : table.reserved = arena.pages.size
  filling : ∀ index, (allocators index).page = (holders index).page.map fun _ => (holders index).index
  capacity : ∀ index, (allocators index).capacity = (holders index).capacity
  held : ∀ (index : Nat) (values : Array α), (holders index).page = some values →
    arena.pages[(holders index).index]? = some values
  away : ∀ (page : Nat) (values : Array α), arena.pages[page]? = some values →
    table.published page = some values ∨ ∃ index, (allocators index).page = some page

namespace Handed
variable {table : PageTable α} {holders : Nat → PageHolder α} {arena : Arena α}
  {allocators : Nat → Allocator} {index page length : Nat}

theorem start (pageSize elementBytes : Nat) :
    Handed (.make pageSize elementBytes : PageTable α) (fun _ => ⟨none, 0, 0⟩)
      (.make pageSize elementBytes) (fun _ => .empty) where
  pageSize := rfl
  elementBytes := rfl
  reserved := rfl
  filling _ := rfl
  capacity _ := rfl
  held _ _ holding := by cases holding
  away page values found := by simp [Arena.make] at found

theorem step (handed : Handed table holders arena allocators) {table' : PageTable α}
    {arena' : Arena α} {holder : PageHolder α} {allocator : Allocator}
    (metrics : table'.pageSize = arena'.pageSize ∧ table'.elementBytes = arena'.elementBytes ∧
      table'.reserved = arena'.pages.size)
    (filling : allocator.page = holder.page.map fun _ => holder.index)
    (capacity : allocator.capacity = holder.capacity)
    (held : ∀ values, holder.page = some values → arena'.pages[holder.index]? = some values)
    (others : ∀ other ≠ index, ∀ page, (allocators other).page = some page →
      arena'.pages[page]? = arena.pages[page]?)
    (away : ∀ (page : Nat) (values : Array α), arena'.pages[page]? = some values →
      table'.published page = some values ∨ allocator.page = some page ∨
        ∃ other ≠ index, (allocators other).page = some page) :
    Handed table' (Function.update holders index holder) arena'
      (Function.update allocators index allocator) where
  pageSize := metrics.1
  elementBytes := metrics.2.1
  reserved := metrics.2.2
  filling other := by
    by_cases here : other = index
    · subst here
      simpa using filling
    · simpa [here] using handed.filling other
  capacity other := by
    by_cases here : other = index
    · subst here
      simpa using capacity
    · simpa [here] using handed.capacity other
  held other values holding := by
    by_cases here : other = index
    · subst here
      simp only [Function.update_self] at holding ⊢
      exact held values holding
    · simp only [Function.update_of_ne here] at holding ⊢
      rw [others other here _ (by rw [handed.filling, holding]; rfl)]
      exact handed.held other values holding
  away page values found := by
    refine (away page values found).imp_right ?_
    rintro (mine | ⟨other, apart, theirs⟩)
    · exact ⟨index, by simpa using mine⟩
    · exact ⟨other, by simpa [apart] using theirs⟩

theorem metrics (handed : Handed table holders arena allocators) :
    table.pageSize = arena.pageSize ∧ table.elementBytes = arena.elementBytes ∧
      table.reserved = arena.pages.size :=
  ⟨handed.pageSize, handed.elementBytes, handed.reserved⟩

theorem elsewhere (handed : Handed table holders arena allocators) {values : Array α}
    (found : arena.pages[page]? = some values) (apart : (allocators index).page ≠ some page) :
    table.published page = some values ∨ ∃ other ≠ index, (allocators other).page = some page := by
  refine (handed.away page values found).imp_right ?_
  rintro ⟨other, filling⟩
  refine ⟨other, ?_, filling⟩
  rintro rfl
  exact apart filling

theorem freeze (handed : Handed table holders arena allocators) (index : Nat) :
    Handed (table.freeze (holders index)).2
      (Function.update holders index (table.freeze (holders index)).1) arena
      (Function.update allocators index .empty) := by
  have given := handed.filling index
  cases holding : (holders index).page with
  | none =>
    have frozen : table.freeze (holders index) = ({ holders index with capacity := 0 }, table) := by
      simp [PageTable.freeze, holding]
    rw [frozen]
    refine handed.step handed.metrics (by simp [holding, Allocator.empty]) rfl
      (by simp [holding]) (fun _ _ _ _ => rfl) fun page values found => ?_
    exact (handed.elsewhere found (by simp [given, holding])).imp_right .inr
  | some old =>
    have frozen : table.freeze (holders index) =
        ({ holders index with page := none, capacity := 0 },
          { table with
            published := Function.update table.published (holders index).index (some old) }) := by
      simp [PageTable.freeze, holding]
    rw [frozen]
    refine handed.step handed.metrics rfl rfl (by simp) (fun _ _ _ _ => rfl)
      fun page values found => ?_
    by_cases mine : page = (holders index).index
    · subst mine
      obtain rfl := Option.some.inj ((handed.held index old holding).symm.trans found)
      exact .inl (by simp)
    · dsimp only
      rw [Function.update_of_ne mine]
      exact (handed.elsewhere found (by simp [given, holding, Ne.symm mine])).imp_right .inr

theorem refill (handed : Handed table holders arena allocators) {arena' : Arena α}
    {old new : Array α} (holding : (holders index).page = some old)
    (metrics : arena'.pageSize = arena.pageSize ∧ arena'.elementBytes = arena.elementBytes ∧
      arena'.pages.size = arena.pages.size)
    (here : arena'.pages[(holders index).index]? = some new)
    (others : ∀ page, page ≠ (holders index).index → arena'.pages[page]? = arena.pages[page]?)
    (sole : ∀ other page, (allocators index).page = some page →
      (allocators other).page = some page → other = index) :
    Handed table (Function.update holders index { holders index with page := some new }) arena'
      allocators := by
  have filling : (allocators index).page = some (holders index).index := by
    rw [handed.filling, holding]
    rfl
  have stepped : Handed table
      (Function.update holders index { holders index with page := some new }) arena'
      (Function.update allocators index (allocators index)) := handed.step
    ⟨handed.pageSize.trans metrics.1.symm, handed.elementBytes.trans metrics.2.1.symm,
      handed.reserved.trans metrics.2.2.symm⟩
    filling (handed.capacity index) (by rintro values ⟨⟩; exact here)
    (fun other apart page theirs => others page fun same =>
      apart (sole other page (same ▸ filling) theirs))
    fun page values found => by
      by_cases mine : page = (holders index).index
      · exact .inr (.inl (mine ▸ filling))
      · rw [others page mine] at found
        exact (handed.elsewhere found (by simp [filling, Ne.symm mine])).imp_right .inr
  simpa using stepped

theorem reserve (handed : Handed table holders arena allocators) (on : ∀ index,
    (allocators index).On arena.pages) (idle : (allocators index).page = none) (length : Nat)
    (zero : α) :
    Handed { table with reserved := table.reserved + 1 }
      (Function.update holders index
        ⟨some (Array.replicate length zero), table.reserved, max table.pageSize length⟩)
      { arena with pages := arena.pages.push (Array.replicate length zero) }
      (Function.update allocators index
        ⟨some arena.pages.size, max arena.pageSize length⟩) := by
  refine handed.step ⟨handed.pageSize, handed.elementBytes, by simp [handed.reserved]⟩
    (by simp [handed.reserved]) (by simp [handed.pageSize]) ?_ ?_ ?_
  · rintro values ⟨⟩
    simp [handed.reserved]
  · intro other apart page theirs
    have inside := on other page theirs
    simp [Array.getElem?_push, Nat.ne_of_lt inside]
  · intro page values found
    by_cases last : page = arena.pages.size
    · exact .inr (.inl (by rw [last]))
    · rw [Array.getElem?_push, if_neg last] at found
      exact (handed.elsewhere found (by simp [idle])).imp_right .inr

theorem allocate (handed : Handed table holders arena allocators)
    (on : ∀ index, (allocators index).On arena.pages)
    (sole : ∀ other page, (allocators index).page = some page →
      (allocators other).page = some page → other = index) (length : Nat) (zero : α) :
    ∃ holder table', table.allocate (holders index) length zero =
        ((arena.allocate (allocators index) length zero).1, holder, table') ∧
      Handed table' (Function.update holders index holder)
        (arena.allocate (allocators index) length zero).2.2
        (Function.update allocators index
          (arena.allocate (allocators index) length zero).2.1) := by
  have given := handed.filling index
  have capacity := handed.capacity index
  cases fit : PageTable.fits (holders index) length with
  | true =>
    obtain ⟨old, holding⟩ : ∃ old, (holders index).page = some old := by
      cases holding : (holders index).page with
      | none => simp [PageTable.fits, holding] at fit
      | some old => exact ⟨old, rfl⟩
    have room : length ≤ (allocators index).capacity - old.size := by
      simpa [PageTable.fits, holding, capacity] using fit
    have found := handed.held index old holding
    rw [holding] at given
    rw [Arena.allocateContinued given found room]
    refine ⟨{ holders index with page := some (old ++ Array.replicate length zero) }, table,
      by simp [PageTable.allocate, fit, holding], ?_⟩
    rw [Function.update_eq_self]
    refine handed.refill holding ⟨rfl, rfl, by simp [Arena.extend]⟩ ?_ ?_ sole
    · simp [Arena.extend, Array.getElem?_modify, found]
    · intro page apart
      simp [Arena.extend, Array.getElem?_modify, Ne.symm apart]
  | false =>
    have full : arena.fits (allocators index) length = false := by
      cases holding : (holders index).page with
      | none => simp [Arena.fits, given, holding]
      | some old =>
        have found := handed.held index old holding
        simpa [Arena.fits, Arena.used, given, holding, found, capacity, PageTable.fits] using fit
    have frozen := handed.freeze index
    have alike : (table.freeze (holders index)).2.pageSize = arena.pageSize ∧
        (table.freeze (holders index)).2.elementBytes = arena.elementBytes :=
      ⟨frozen.pageSize, frozen.elementBytes⟩
    by_cases affordable : arena.Affordable length
    · have below : ¬ Memory.maxBlock < max arena.pageSize length * arena.elementBytes :=
        Nat.not_lt.mpr affordable
      rw [Arena.allocateOpened full affordable]
      have on' : ∀ other, (Function.update allocators index .empty other).On arena.pages := by
        intro other
        by_cases here : other = index
        · subst here
          simpa using Allocator.emptyOn arena.pages
        · simpa [here] using on other
      have idle : (Function.update allocators index .empty index).page = none := by
        simp [Allocator.empty]
      have reserved := frozen.reserve on' idle length zero
      simp only [Function.update_idem] at reserved
      refine ⟨_, _, ?_, reserved⟩
      simp [PageTable.allocate, fit, PageTable.startPage, alike, below, frozen.reserved]
    · have above : Memory.maxBlock < max arena.pageSize length * arena.elementBytes :=
        Nat.not_le.mp affordable
      rw [Arena.allocateRefused full affordable]
      refine ⟨_, _, ?_, frozen⟩
      simp [PageTable.allocate, fit, PageTable.startPage, alike, above]

end Handed

def ArenaSession.Lends (session : ArenaSession α) : Prop :=
  ∀ index place, session.lent index = some place → ∃ a, session.served[place]? = some a ∧
    (session.allocators index).page = some a.address.page

theorem ArenaSession.Lends.withdrawn {session : ArenaSession α} (lends : session.Lends)
    (index : Nat) (arena : Arena α) (allocator : Allocator) :
    Lends ⟨session.withdraw index, arena,
      Function.update session.allocators index allocator⟩ := by
  intro other place lent
  simp only [Lending.withdraw] at lent ⊢
  by_cases here : other = index
  · subst here
    simp at lent
  · simp only [Function.update_of_ne here] at lent ⊢
    exact lends other place lent

theorem ArenaSession.Lends.lent {session : ArenaSession α} (lends : session.Lends) {index page : Nat}
    {allocator : Allocator} (filling : allocator.page = some page) (offset : Nat)
    (contents : List α) (arena : Arena α) :
    Lends ⟨session.lend index ⟨page, offset⟩ contents, arena,
      Function.update session.allocators index allocator⟩ := by
  intro other place lent
  simp only [Lending.lend] at lent ⊢
  by_cases here : other = index
  · subst here
    simp only [Function.update_self, Option.some.injEq] at lent ⊢
    subst lent
    exact ⟨⟨other, ⟨page, offset⟩, contents⟩, by simp, filling⟩
  · simp only [Function.update_of_ne here] at lent ⊢
    obtain ⟨a, found, there⟩ := lends other place lent
    obtain ⟨inside, -⟩ := List.getElem?_eq_some_iff.mp found
    exact ⟨a, by rw [List.getElem?_append_left inside, found], there⟩

theorem ArenaSession.Lends.serve {session : ArenaSession α} (lends : session.Lends)
    (sound : session.Sound) (zero : α) (request : ArenaRequest α) :
    (session.serve zero request).Lends := by
  cases request with
  | allocate index length =>
    have ended := Arena.allocateAllotted (sound.on index) length zero
    simp only [ArenaSession.serve]
    generalize session.arena.allocate (session.allocators index) length zero = answer at ended
    cases ended with
    | refused => exact lends.withdrawn index _ _
    | continued filling found room => exact lends.lent filling _ _ _
    | opened => exact lends.lent rfl _ _ _
  | write index position value =>
    simp only [ArenaSession.serve]
    cases slice : session.slice? index with
    | none => exact lends
    | some range =>
      obtain ⟨place, a⟩ := range
      have served := (Lending.sliceServed slice).2
      dsimp only
      split
      · intro other place' lent
        obtain ⟨b, found, there⟩ := lends other place' lent
        by_cases same : place = place'
        · subst same
          obtain rfl := Option.some.inj (served.symm.trans found)
          obtain ⟨inside, -⟩ := List.getElem?_eq_some_iff.mp served
          exact ⟨a.fill position value, by simp [Lending.fill, inside], there⟩
        · exact ⟨b, by simp [Lending.fill, same, found], there⟩
      · exact lends
  | freeze index => exact lends.withdrawn index _ _

namespace PublishingSession

structure Mirrors (session : PublishingSession α) (arena : ArenaSession α) : Prop where
  lending : session.toLending = arena.toLending
  handed : Handed session.table session.holders arena.arena arena.allocators
  sound : arena.Sound
  lends : arena.Lends

theorem openedMirrors (pageSize elementBytes : Nat) :
    Mirrors (opened pageSize elementBytes : PublishingSession α)
      (.opened pageSize elementBytes) where
  lending := rfl
  handed := .start pageSize elementBytes
  sound := ArenaSession.openedSound pageSize elementBytes
  lends index place lent := by cases lent

theorem Mirrors.serve {session : PublishingSession α} {arena : ArenaSession α}
    (mirrors : session.Mirrors arena) (zero : α) (request : ArenaRequest α) :
    (session.serve zero request).Mirrors (arena.serve zero request) := by
  obtain ⟨lending, handed, sound, lends⟩ := mirrors
  have sole : ∀ index other page, (arena.allocators index).page = some page →
      (arena.allocators other).page = some page → other = index :=
    fun index other page mine theirs =>
      (sound.fills other page theirs).sole (sound.fills index page mine)
  suffices same : (session.serve zero request).toLending = (arena.serve zero request).toLending ∧
      Handed (session.serve zero request).table (session.serve zero request).holders
        (arena.serve zero request).arena (arena.serve zero request).allocators from
    ⟨same.1, same.2, sound.serve zero request, lends.serve sound zero request⟩
  obtain ⟨⟨served, lent⟩, table, holders⟩ := session
  obtain ⟨⟨served', lent'⟩, pages, allocators⟩ := arena
  cases lending
  replace handed : Handed table holders pages allocators := handed
  cases request with
  | allocate index length =>
    obtain ⟨holder, table', asked, after⟩ :=
      handed.allocate sound.on (sole index) length zero
    simp only [PublishingSession.serve, ArenaSession.serve] at asked after ⊢
    rw [asked]
    generalize pages.allocate (allocators index) length zero = answer at after
    obtain ⟨ended, allocator, arena⟩ := answer
    cases ended with
    | error e => exact ⟨rfl, after⟩
    | ok address => exact ⟨rfl, after⟩
  | write index position value =>
    simp only [PublishingSession.serve, ArenaSession.serve]
    cases slice : Lending.slice? ⟨served, lent⟩ index with
    | none => exact ⟨rfl, handed⟩
    | some range =>
      obtain ⟨place, a⟩ := range
      obtain ⟨lends', there⟩ := Lending.sliceServed slice
      obtain ⟨b, found, filling⟩ := lends index place lends'
      obtain rfl : a = b := Option.some.inj (there.symm.trans found)
      obtain ⟨old, holding, mine⟩ := Option.map_eq_some_iff.mp ((handed.filling index).symm.trans filling)
      dsimp only
      split
      · refine ⟨rfl, ?_⟩
        simp only [holding, Option.map_some]
        refine handed.refill holding ⟨rfl, rfl, by simp [Arena.write]⟩ ?_ ?_ (sole index)
        · rw [mine]
          have here := mine ▸ handed.held index old holding
          simp [Arena.write, Arena.writeFrom, Array.getElem?_modify, here]
        · rw [mine]
          intro page apart
          simp [Arena.write, Array.getElem?_modify, Ne.symm apart]
      · exact ⟨rfl, handed⟩
  | freeze index => exact ⟨rfl, handed.freeze index⟩

theorem Mirrors.serveAll {session : PublishingSession α} {arena : ArenaSession α}
    (mirrors : session.Mirrors arena) (zero : α) (requests : List (ArenaRequest α)) :
    (session.serveAll zero requests).Mirrors (arena.serveAll zero requests) := by
  induction requests generalizing session arena with
  | nil => exact mirrors
  | cons request requests ih => exact ih (mirrors.serve zero request)

theorem Mirrors.built {session : PublishingSession α} {arena : ArenaSession α}
    (mirrors : session.Mirrors arena) (idle : ∀ index, (arena.allocators index).page = none) :
    session.table.build = arena.arena.pages := by
  have size : session.table.build.size = arena.arena.pages.size := by
    rw [PageTable.build, Array.size_ofFn, mirrors.handed.reserved]
  refine Array.ext size fun page _ inside => ?_
  rcases mirrors.handed.away page _ (Array.getElem?_eq_getElem inside) with published | filled
  · simp [PageTable.build, published]
  · obtain ⟨index, filling⟩ := filled
    rw [idle index] at filling
    cases filling

end PublishingSession

namespace ArenaSession

theorem serveIdle (zero : α) {session : ArenaSession α} {index : Nat} {request : ArenaRequest α}
    (unasked : ∀ length, request ≠ .allocate index length)
    (idle : (session.allocators index).page = none) :
    ((session.serve zero request).allocators index).page = none := by
  cases request with
  | allocate other length =>
    have apart : index ≠ other := by
      rintro rfl
      exact unasked length rfl
    simp only [ArenaSession.serve]
    split <;> simpa [apart] using idle
  | write other position value =>
    simp only [ArenaSession.serve]
    split
    · exact idle
    · split <;> exact idle
  | freeze other =>
    by_cases here : index = other
    · subst here
      simp [ArenaSession.serve, Allocator.freeze, Allocator.empty]
    · simpa [ArenaSession.serve, here] using idle

theorem serveAllIdle (zero : α) {session : ArenaSession α} {index : Nat}
    {requests : List (ArenaRequest α)} (unasked : ∀ length, .allocate index length ∉ requests)
    (idle : (session.allocators index).page = none) :
    ((session.serveAll zero requests).allocators index).page = none := by
  induction requests generalizing session with
  | nil => exact idle
  | cons request requests ih =>
    refine ih (fun length later => unasked length (.tail _ later)) (serveIdle zero ?_ idle)
    rintro length rfl
    exact unasked length (.head _)

theorem dropped (zero : α) (session : ArenaSession α) (order : List Nat) :
    (session.serveAll zero (order.map .freeze)).arena = session.arena ∧
      (session.serveAll zero (order.map .freeze)).served = session.served ∧
      ∀ index, index ∈ order →
        ((session.serveAll zero (order.map .freeze)).allocators index).page = none := by
  induction order generalizing session with
  | nil => exact ⟨rfl, rfl, fun index member => by cases member⟩
  | cons first order ih =>
    obtain ⟨arena, served, idle⟩ := ih (session.serve zero (.freeze first))
    refine ⟨arena, served, fun index member => ?_⟩
    rcases List.mem_cons.mp member with rfl | later
    · have unasked : ∀ length, (.allocate index length : ArenaRequest α) ∉ order.map .freeze := by
        simp
      have frozen : ((session.serve zero (.freeze index)).allocators index).page = none := by
        simp [ArenaSession.serve, Allocator.freeze, Allocator.empty]
      have later := serveAllIdle zero unasked frozen
      exact later
    · exact idle index later

end ArenaSession

def PublishingSession.finish (zero : α) (session : PublishingSession α) (order : List Nat) :
    PublishingSession α :=
  session.serveAll zero (order.map .freeze)

/-- However the requests to allocators and their ends take turns, the pages that are built are those of
the arena, and they are tiled by what was served. -/
theorem allocationsTile (pageSize elementBytes : Nat) (zero : α) (requests : List (ArenaRequest α))
    (order : List Nat)
    (ended : ∀ index length, .allocate index length ∈ requests → index ∈ order)
    (narrow : ∀ a ∈ ((PublishingSession.opened pageSize elementBytes).serveAll zero requests).served,
      a.address.page < 2 ^ 32 ∧ a.address.offset < 2 ^ 32) :
    let arena := (ArenaSession.opened pageSize elementBytes).serveAll zero requests
    let session := ((PublishingSession.opened pageSize elementBytes).serveAll zero requests).finish
      zero order
    session.served = arena.served ∧ session.table.build = arena.arena.pages ∧
      session.ranges = ArenaSession.granted (.make pageSize elementBytes) requests ∧
      Allocation.Tiles pageSize session.served session.table.build := by
  intro arena session
  have mirrors := (PublishingSession.openedMirrors pageSize elementBytes).serveAll zero requests
  have finished : session.Mirrors (arena.serveAll zero (order.map .freeze)) :=
    mirrors.serveAll zero (order.map .freeze)
  obtain ⟨pages, served, idle⟩ := arena.dropped zero order
  have gone : ∀ index,
      ((arena.serveAll zero (order.map .freeze)).allocators index).page = none := by
    intro index
    by_cases member : index ∈ order
    · exact idle index member
    · refine ArenaSession.serveAllIdle zero (by simp) (ArenaSession.serveAllIdle zero ?_ rfl)
      exact fun length asked => member (ended index length asked)
  have same : session.served = arena.served := by
    rw [finished.lending, served]
  have built : session.table.build = arena.arena.pages := by
    rw [finished.built gone, pages]
  obtain ⟨alike, granted⟩ :=
    (ArenaSession.openedSound pageSize elementBytes).serveAllGrants zero requests
  refine ⟨same, built, ?_, ?_⟩
  · rw [Lending.ranges, same]
    exact granted
  · rw [same, built]
    refine mirrors.sound.tiles alike.1 fun a member => narrow a ?_
    rwa [mirrors.lending]

def sampleRequests : List (ArenaRequest Nat) :=
  [.allocate 0 3, .write 0 1 7, .allocate 1 2, .allocate 0 1, .allocate 0 0, .write 1 0 5,
    .allocate 0 6, .freeze 1, .write 0 5 9, .write 1 1 8, .allocate 1 4]

theorem sampleTiles :
    (∀ index length, .allocate index length ∈ sampleRequests → index ∈ [1, 0]) ∧
      Allocation.Tiles 4
        (((PublishingSession.opened 4 8).serveAll 0 sampleRequests).finish 0 [1, 0]).served
        #[#[0, 7, 0, 0], #[5, 0], #[0, 0, 0, 0, 0, 9], #[0, 0, 0, 0]] := by
  have ended : ∀ index length, .allocate index length ∈ sampleRequests → index ∈ [1, 0] := by
    intro index length asked
    simp [sampleRequests] at asked ⊢
    omega
  have built : (((PublishingSession.opened 4 8).serveAll 0 sampleRequests).finish 0 [1, 0]).table.build =
      #[#[0, 7, 0, 0], #[5, 0], #[0, 0, 0, 0, 0, 9], #[0, 0, 0, 0]] := by decide
  have tiles := allocationsTile 4 8 0 sampleRequests [1, 0] ended (by decide)
  exact ⟨ended, built ▸ tiles.2.2.2⟩

end CommunityGraph

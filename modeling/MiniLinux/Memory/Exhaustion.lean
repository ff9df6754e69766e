import MiniLinux.Memory.SpacesRuns

/-! Mapping a page where tables run short. `vm_map` keeps the tables that it could add, so the
next attempt needs fewer, and nothing but their number tells that there was an attempt.
-/

namespace MiniLinux

open Foundation Foundation.Halting

/-- The path of a page up to a level. -/
def levelPath (page level : Nat) : List Nat := (pagePath page).take level

/-- How many of the three lower tables on the path of a page are missing. -/
def Machine.missingLevels (machine : Machine) (root : U64) (page : Nat) : Nat :=
  ((Finset.Icc 1 3).filter fun level => machine.tableOn root (levelPath page level) = none).card

/-- How many tables can be added to a space. -/
def Machine.tableRoom (machine : Machine) (space : AddressSpace) : Nat :=
  min (vmTableLimit - space.tables.length) machine.pages.freeCount.toNat

/-- The arguments of `vm_map` that are valid whatever is mapped. -/
structure Machine.MapValid (machine : Machine) (address physical : U64) (flags : U32) : Prop where
  nonzero : address ≠ 0
  low : address.toNat < 2 ^ 47
  aligned : address.toNat % pageSize = 0
  outstanding : machine.Outstanding physical
  known : flags &&& ~~~(vmWrite ||| vmUser ||| vmExec) = 0

/-- What a `vm_map` leaves that could not add all the tables it needed: as many new tables as
there was room for, empty but for the links between them, each on the path of the page.
-/
structure RanOut (page : Nat) (machine machine' : Machine) (space space' : AddressSpace) : Prop where
  room : ∃ taken, space'.tables = space.tables ++ taken
    ∧ taken.length = machine.tableRoom space
    ∧ machine'.pages.freeCount.toNat + taken.length = machine.pages.freeCount.toNat
    ∧ machine'.missingLevels space.root page + taken.length = machine.missingLevels space.root page
    ∧ ∀ table ∈ taken,
        (∃ level,
          machine.tableOn space.root (levelPath page level) = none
          ∧ machine'.tableOn space.root (levelPath page level) = some table)
        ∧ ∀ index < 512,
            machine'.entry table index = 0
            ∨ ∃ next ∈ taken, machine'.entry table index = linkValue next
  root : space'.root = space.root
  lookups
    : ∀ address physical flags,
        machine'.vmLookup (some space') address physical flags
        = machine.vmLookup (some space) address physical flags

theorem levelPath_length (page : Nat) {level : Nat} (inside : level ≤ 3)
    : (levelPath page level).length = level := by
  rw [levelPath, List.length_take, pagePath_length, Nat.min_eq_left inside]

/-- The paths to the three lower tables of a page. -/
def lowerPaths (page : Nat) : Finset (List Nat) := (Finset.Icc 1 3).image (levelPath page)

theorem levelPath_injective (page : Nat)
    : Set.InjOn (levelPath page) (Finset.Icc 1 3 : Finset Nat) := by
  intro level inside level' inside' same
  have lengths := congrArg List.length same
  rw [Finset.mem_coe, Finset.mem_Icc] at inside inside'
  rw [levelPath_length page inside.2, levelPath_length page inside'.2] at lengths
  exact lengths

theorem mem_lowerPaths {page : Nat} {path : List Nat}
    : path ∈ lowerPaths page ↔ path <+: pagePath page ∧ path ≠ [] := by
  rw [lowerPaths, Finset.mem_image]
  constructor
  · rintro ⟨level, inside, rfl⟩
    refine ⟨List.take_prefix _ _, ?_⟩
    rw [Finset.mem_Icc] at inside
    apply List.ne_nil_of_length_pos
    rw [levelPath_length page inside.2]
    exact inside.1
  · rintro ⟨initial, nonempty⟩
    have short := initial.length_le
    rw [pagePath_length] at short
    refine ⟨path.length, Finset.mem_Icc.mpr ⟨List.length_pos_iff.mpr nonempty, short⟩, ?_⟩
    exact (List.prefix_iff_eq_take.mp initial).symm

section Counting

variable {machine machine' : Machine} {space space' : AddressSpace} {paths morePaths : Finset (List Nat)}
  {page : Nat} {taken : List U64}

theorem missingLevels_eq (formed : machine.SpaceFormed space paths) (page : Nat)
    : machine.missingLevels space.root page = (lowerPaths page \ paths).card := by
  have levels : lowerPaths page \ paths
      = ((Finset.Icc 1 3).filter fun level =>
          machine.tableOn space.root (levelPath page level) = none).image (levelPath page) := by
    ext path
    simp only [Finset.mem_sdiff, lowerPaths, Finset.mem_image, Finset.mem_filter]
    constructor
    · rintro ⟨⟨level, inside, rfl⟩, absent⟩
      refine ⟨level, ⟨inside, ?_⟩, rfl⟩
      have short := levelPath_length page (Finset.mem_Icc.mp inside).2
      rw [← formed.spanned _ (by rw [short]; exact (Finset.mem_Icc.mp inside).2)] at absent
      exact Option.not_isSome_iff_eq_none.mp absent
    · rintro ⟨level, ⟨inside, absent⟩, rfl⟩
      refine ⟨⟨level, inside, rfl⟩, ?_⟩
      have short := levelPath_length page (Finset.mem_Icc.mp inside).2
      rw [← formed.spanned _ (by rw [short]; exact (Finset.mem_Icc.mp inside).2), absent]
      exact Bool.false_ne_true
  rw [levels, Finset.card_image_of_injOn, Machine.missingLevels]
  exact (levelPath_injective page).mono fun level member => (Finset.mem_filter.mp member).1

/-- The missing levels are those that were added and those that still miss. -/
theorem missingLevels_grow (formed : machine.SpaceFormed space paths)
    (formed' : machine'.SpaceFormed space' morePaths) (root : space'.root = space.root)
    (tables : space'.tables = space.tables ++ taken) (grew : ∀ path ∈ paths, path ∈ morePaths)
    (prefixed : ∀ path ∈ morePaths, path ∈ paths ∨ path <+: pagePath page)
    : machine'.missingLevels space.root page + taken.length
      = machine.missingLevels space.root page := by
  have top : [] ∈ paths := (formed.spanned [] (Nat.zero_le 3)).mp rfl
  have count : morePaths.card = paths.card + taken.length := by
    rw [← formed'.counted, ← formed.counted, tables, List.length_append]
  have added : (morePaths \ paths).card = taken.length := by
    rw [Finset.card_sdiff_of_subset grew, count]
    omega
  have split : lowerPaths page \ paths = (lowerPaths page \ morePaths) ∪ (morePaths \ paths) := by
    ext path
    simp only [Finset.mem_sdiff, Finset.mem_union, mem_lowerPaths]
    constructor
    · rintro ⟨below, absent⟩
      rcases Classical.em (path ∈ morePaths) with new | missing
      · exact Or.inr ⟨new, absent⟩
      · exact Or.inl ⟨below, missing⟩
    · rintro (⟨below, missing⟩ | ⟨new, absent⟩)
      · exact ⟨below, fun old => missing (grew path old)⟩
      · refine ⟨⟨(prefixed path new).resolve_left absent, ?_⟩, absent⟩
        rintro rfl
        exact absent top
  have apart : Disjoint (lowerPaths page \ morePaths) (morePaths \ paths) := by
    rw [Finset.disjoint_left]
    intro path left right
    exact (Finset.mem_sdiff.mp left).2 (Finset.mem_sdiff.mp right).1
  rw [missingLevels_eq formed page, ← root, missingLevels_eq formed' page, split,
    Finset.card_union_of_disjoint apart, added]

/-- A page whose last table is there misses no level. -/
theorem missingLevels_zero (formed : machine.SpaceFormed space paths)
    : pagePath page ∈ paths ↔ machine.missingLevels space.root page = 0 := by
  rw [missingLevels_eq formed, Finset.card_eq_zero, Finset.sdiff_eq_empty_iff_subset]
  constructor
  · intro there path member
    obtain ⟨⟨rest, whole⟩, _⟩ := mem_lowerPaths.mp member
    exact formed.initial_mem path rest (whole.symm ▸ there)
  · intro all
    exact all (mem_lowerPaths.mpr ⟨List.prefix_rfl, by simp [pagePath]⟩)

end Counting

-----------------------------------------------------------------------------------------
-- One call
-----------------------------------------------------------------------------------------

section Call

variable {machine machine' : Machine} {space space' : AddressSpace} {paths morePaths : Finset (List Nat)}
  {taken : List U64}

/-- A descent that could not be finished has used all the room. -/
theorem Machine.Extends.ranOut (extended : machine.Extends machine' space space' paths morePaths taken)
    (ready : machine.Ready) (formed : machine.SpaceFormed space paths)
    (limited : space.tables.length ≤ vmTableLimit) {page : Nat}
    (prefixed : ∀ path ∈ morePaths, path ∈ paths ∨ path <+: pagePath page)
    (grew : ∀ path ∈ paths, path ∈ morePaths) (exhausted : machine'.Exhausted space')
    : RanOut page machine machine' space space' := by
  have missing := missingLevels_grow formed extended.formed extended.root extended.tables grew prefixed
  have counted := extended.takes.counted
  have limited' := extended.limited limited
  have grown := congrArg List.length extended.tables
  rw [List.length_append] at grown
  have room : taken.length = machine.tableRoom space := by
    unfold tableRoom
    rcases exhausted with full | empty
    · omega
    · have zero : machine'.pages.freeCount.toNat = 0 := congrArg BitVec.toNat empty
      omega
  refine ⟨⟨taken, extended.tables, room, counted, missing, fun table member => ⟨?_, ?_⟩⟩,
    extended.root, ?_⟩
  · have owned : table ∈ space'.tables := extended.tables ▸ List.mem_append_right _ member
    obtain ⟨path, there, found⟩ := extended.formed.reached owned
    rw [extended.root] at found
    have new : path ∉ paths := by
      intro old
      have short := formed.shallow path old
      obtain ⟨table', found'⟩ := Option.isSome_iff_exists.mp ((formed.spanned path short).mpr old)
      cases (extended.kept path table' short found').symm.trans found
      have distinct := extended.formed.distinct
      rw [extended.tables] at distinct
      exact (List.nodup_append.mp distinct).2.2 table (formed.linkedOwned path table short found')
        table member rfl
    have initial := (prefixed path there).resolve_left new
    have same := List.prefix_iff_eq_take.mp initial
    have short := initial.length_le
    rw [pagePath_length] at short
    refine ⟨path.length, ?_, ?_⟩
    · rw [levelPath, ← same, ← Option.not_isSome_iff_eq_none, formed.spanned path short]
      exact new
    · rw [levelPath, ← same]
      exact found
  · exact extended.fresh table member
  · intro address physical flags
    have ready' := extended.takes.ready ready
    rw [extended.formed.vmLookup_eq ready', formed.vmLookup_eq ready, extended.root,
      extended.mapping]

/-- `vm_map` of a free page succeeds exactly where its missing levels fit. -/
theorem Machine.SpaceFormed.vmMap_exhaustion (formed : machine.SpaceFormed space paths)
    (ready : machine.Ready) (limited : space.tables.length ≤ vmTableLimit) {address physical : U64}
    {flags : U32} (admits : machine.MapAdmits space address physical flags)
    : ∃ ok space' machine',
        vmMap (some space) address physical flags machine = .ok ((ok, some space'), machine')
        ∧ (ok = true
          ↔ machine.missingLevels space.root (address.toNat / pageSize)
            ≤ machine.tableRoom space)
        ∧ (ok = true
          → space'.root = space.root
            ∧ (∃ taken, space'.tables = space.tables ++ taken
              ∧ taken.length = machine.missingLevels space.root (address.toNat / pageSize))
            ∧ machine'.pages.freeCount.toNat
                + machine.missingLevels space.root (address.toNat / pageSize)
              = machine.pages.freeCount.toNat)
        ∧ (ok = false → RanOut (address.toNat / pageSize) machine machine' space space') := by
  obtain ⟨ok, space', machine', morePaths, taken, result, takes, root, tables, formed', grew, prefixed,
    added, refused, small, _⟩ := formed.vmMap_outcome ready admits
  have missing := missingLevels_grow formed formed' root tables grew prefixed
  have counted := takes.counted
  have limited' := small limited
  have grown := congrArg List.length tables
  rw [List.length_append] at grown
  refine ⟨ok, space', machine', result, ?_⟩
  cases ok with
  | true =>
      have complete := (missingLevels_zero formed').mp (added rfl).1
      rw [root] at complete
      rw [complete, Nat.zero_add] at missing
      refine ⟨iff_of_true rfl ?_, fun _ => ⟨root, ⟨taken, tables, missing⟩, by omega⟩, ?_⟩
      · unfold tableRoom
        omega
      · intro impossible
        cases impossible
  | false =>
      obtain ⟨absent, extended, exhausted⟩ := refused rfl
      have out := extended.ranOut ready formed limited prefixed grew exhausted
      obtain ⟨taken', _, room, _, missing', _⟩ := out.room
      have still : machine'.missingLevels space.root (address.toNat / pageSize) ≠ 0 := by
        rw [← root]
        exact mt (missingLevels_zero formed').mpr absent
      refine ⟨iff_of_false Bool.false_ne_true ?_, ?_, fun _ => out⟩
      · omega
      · intro impossible
        cases impossible

end Call

-----------------------------------------------------------------------------------------
-- Runs
-----------------------------------------------------------------------------------------

section Runs

variable {ι : Type} [DecidableEq ι] {start : Machine} {audit : Audit ι} {client : SpacesClient ι}

/-- No space ever has more tables than it can record. Witness: induction on the run. -/
theorem SpacesReached.limited (ready : start.Ready) (reached : SpacesReached start audit client)
    (index : ι)
    : (client.spaces index).tables.length ≤ vmTableLimit := by
  induction reached with
  | start => exact Nat.zero_le _
  | @step audit client client' request reply reached permits served ih =>
      have sound := reached.sound ready
      obtain ⟨_, _, served', stepped⟩ := sound.ready.serve (fun _ => sound.owned) request permits
      cases served'.symm.trans served
      have update {changed : ι} {space : AddressSpace}
          (small : changed = index → space.tables.length ≤ vmTableLimit)
          : (Function.update client.spaces changed space index).tables.length ≤ vmTableLimit := by
        rcases eq_or_ne index changed with same | different
        · subst same
          rw [Function.update_self]
          exact small rfl
        · rw [Function.update_of_ne different]
          exact ih
      cases stepped with
      | created _ unused takes formed => exact update fun _ => by simp [vmTableLimit]
      | mapped _ live takes root tables formed kept upper limited =>
          exact update fun same => limited (same ▸ ih)
      | destroyed _ live inactive returns => exact update fun _ => Nat.zero_le _
      | _ => exact ih

/-- In every run, a valid `vm_map` of a page that is not mapped succeeds exactly where the levels
that its path misses fit into the space and into memory, and takes just these. Otherwise it leaves
the tables that there was room for, and every lookup as it was; the state is one of a run again, so
the call may be repeated.
-/
theorem vm_map_under_exhaustion (ready : start.Ready) (reached : SpacesReached start audit client)
    {index : ι} (live : (client.spaces index).root ≠ 0) {address physical : U64} {flags : U32}
    (valid : client.machine.MapValid address physical flags)
    (unmapped
      : (client.machine.vmLookup (some (client.spaces index)) address 0 0).1 = false)
    : let space := client.spaces index
      let page := address.toNat / pageSize
      let needed := client.machine.missingLevels space.root page
      ∃ ok client' audit',
        spacesRequest (.map (some index) address physical flags) client
          = .ok (.verdict ok, client')
        ∧ SpacesReached start audit' client'
        ∧ (ok = true ↔ needed ≤ client.machine.tableRoom space)
        ∧ (ok = true
          → (client'.spaces index).root = space.root
            ∧ (∃ taken, (client'.spaces index).tables = space.tables ++ taken
              ∧ taken.length = needed)
            ∧ client'.machine.pages.freeCount.toNat + needed
              = client.machine.pages.freeCount.toNat)
        ∧ (ok = false
          → RanOut page client.machine client'.machine space (client'.spaces index)) := by
  have sound := reached.sound ready
  obtain ⟨paths, formed⟩ := sound.ready.formed live
  have low : ¬address ≥ 0x800000000000 := by
    have bound : (0x800000000000 : U64).toNat = 2 ^ 47 := rfl
    rw [ge_iff_le, BitVec.le_def, bound]
    exact Nat.not_le.mpr valid.low
  have admits : client.machine.MapAdmits (client.spaces index) address physical flags := by
    refine ⟨valid.nonzero, low, valid.aligned, valid.outstanding, valid.known, ?_⟩
    rw [formed.vmLookup_eq sound.ready.ready] at unmapped
    cases found : client.machine.mapping (client.spaces index).root (address.toNat / pageSize) with
    | none => rfl
    | some entry =>
        rw [found] at unmapped
        cases unmapped
  obtain ⟨ok, space', machine', result, fits, success, failure⟩ :=
    formed.vmMap_exhaustion sound.ready.ready (reached.limited ready index) admits
  have served : spacesRequest (.map (some index) address physical flags) client
      = .ok (.verdict ok, ⟨machine', Function.update client.spaces index space'⟩) :=
    withSpace_ok (fun space => vmMap space address physical flags) result
  have here : Function.update client.spaces index space' index = space' := Function.update_self ..
  refine ⟨ok, _, _, served, reached.step (.map (some index) address physical flags) trivial served,
    fits, ?_, ?_⟩
  · exact fun done => by simpa only [here] using success done
  · exact fun failed => by simpa only [here] using failure failed

end Runs

/-- The first page of a new space needs all three levels. -/
theorem SpacesReached.first_page {start : Machine} (ready : start.Ready) {audit : Audit (Fin 2)}
    {client : SpacesClient (Fin 2)} (reached : SpacesReached start audit client) {root frame : U64}
    (spaces : client.spaces = Function.update (fun _ => .zero) 0 ⟨root, [root]⟩)
    (formed : client.machine.SpaceFormed ⟨root, [root]⟩ {[]})
    (empty : client.machine.mapping root = fun _ => none)
    (outstanding : client.machine.Outstanding frame)
    : (client.spaces 0).root ≠ 0
      ∧ client.machine.MapValid 0x400000 frame 6
      ∧ (client.machine.vmLookup (some (client.spaces 0)) 0x400000 0 0).1 = false
      ∧ client.machine.missingLevels (client.spaces 0).root ((0x400000 : U64).toNat / pageSize) = 3
      ∧ client.machine.tableRoom (client.spaces 0)
        = min (vmTableLimit - 1) client.machine.pages.freeCount.toNat := by
  have ready' := (reached.sound ready).ready.ready
  rw [spaces, Function.update_self]
  refine ⟨formed.root_ne_zero ready', ⟨by decide, by decide, by decide, outstanding, by decide⟩, ?_,
    (missingLevels_eq formed _).trans (by decide), rfl⟩
  rw [formed.vmLookup_eq ready', congrFun empty]
  rfl

/-- With 64 pages there is room for the three levels that the first page needs. With six pages two
frames are left, which become two of them.
-/
theorem vm_map_under_exhaustion_on_sample
    : (∃ (start : Machine) (audit : Audit (Fin 2)) (client client' : SpacesClient (Fin 2))
        (frame : U64),
        SpacesReached start audit client
        ∧ spacesRequest (.map (some 0) 0x400000 frame 6) client = .ok (.verdict true, client')
        ∧ client'.machine.pages.freeCount.toNat + 3 = client.machine.pages.freeCount.toNat)
      ∧ ∃ (start : Machine) (audit : Audit (Fin 2)) (client client' : SpacesClient (Fin 2))
          (frame : U64),
          SpacesReached start audit client
          ∧ client.machine.pages.freeCount.toNat = 2
          ∧ spacesRequest (.map (some 0) 0x400000 frame 6) client = .ok (.verdict false, client')
          ∧ client'.machine.pages.freeCount.toNat = 0
          ∧ RanOut 1024 client.machine client'.machine (client.spaces 0) (client'.spaces 0) := by
  constructor
  · obtain ⟨start, audit, client, root, frame, initialised, reached, spaces, formed, empty,
      outstanding, count⟩ := sample_space
    have ready := initialised.ready (by decide)
    obtain ⟨live, valid, unmapped, needed, room⟩ :=
      reached.first_page ready spaces formed empty outstanding
    obtain ⟨ok, client', _, served, _, fits, success, _⟩ :=
      vm_map_under_exhaustion ready reached live valid unmapped
    have done : ok = true := by
      rw [fits, needed, room, count]
      decide
    obtain ⟨_, _, counted⟩ := success done
    rw [needed] at counted
    exact ⟨start, audit, client, client', frame, reached, done ▸ served, counted⟩
  · obtain ⟨start, _, initialised, free⟩ :=
      @flat_initialises sampleMachine ⟨rfl, rfl, rfl⟩ 6 (by decide) (by decide) (by decide)
    have ready := initialised.ready (by decide)
    obtain ⟨audit, client, root, frame, reached, spaces, formed, empty, outstanding, count⟩ :=
      ready.space (by omega)
    have two : client.machine.pages.freeCount.toNat = 2 := by omega
    obtain ⟨live, valid, unmapped, needed, room⟩ :=
      reached.first_page ready spaces formed empty outstanding
    obtain ⟨ok, client', _, served, _, fits, _, failure⟩ :=
      vm_map_under_exhaustion ready reached live valid unmapped
    have failed : ok = false := by
      rw [← Bool.not_eq_true, fits, needed, room, two]
      decide
    have ranOut := failure failed
    obtain ⟨taken, _, length, left, _⟩ := ranOut.room
    rw [room, two] at length
    have few : min (vmTableLimit - 1) 2 = 2 := by decide
    exact ⟨start, audit, client, client', frame, reached, two, failed ▸ served, by omega, ranOut⟩

end MiniLinux

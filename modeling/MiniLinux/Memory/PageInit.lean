import MiniLinux.Memory.PageCalls

/-! What a successful `page_init` leaves behind.
The first pass bounds every usable entry, the second one carves the metadata out of one of
them, and the third one frees the remaining usable frames, each of them once because
usable entries do not overlap.
-/

namespace MiniLinux

open Foundation Foundation.Halting

/-- The usable entries of a map, in order. -/
def usableEntries (entries : List (Option MemmapEntry)) : List MemmapEntry :=
  entries.filterMap fun entry => entry.filter fun entry => entry.type = limineMemmapUsable

/-- The end of an entry, without wrapping. -/
def MemmapEntry.limit (entry : MemmapEntry) : Nat := entry.base.toNat + entry.length.toNat

/-- The frame lies inside the entry. -/
def MemmapEntry.Covers (entry : MemmapEntry) (frame : Nat) : Prop :=
  entry.base.toNat ≤ frame * pageSize ∧ frame * pageSize < entry.limit

instance (entry : MemmapEntry) (frame : Nat) : Decidable (entry.Covers frame) :=
  inferInstanceAs (Decidable (_ ∧ _))

theorem MemmapEntry.Covers.nonempty {entry : MemmapEntry} {frame : Nat} (covers : entry.Covers frame)
    : entry.length ≠ 0 := by
  intro empty
  have low := covers.1
  have high := covers.2
  rw [MemmapEntry.limit, empty] at high
  change frame * pageSize < entry.base.toNat + 0 at high
  omega

/-- The frame lies inside a usable entry. -/
def UsableFrame (entries : List (Option MemmapEntry)) (frame : Nat) : Prop :=
  ∃ entry ∈ usableEntries entries, entry.Covers frame

/-- Usable entries share no byte, as Limine guarantees. -/
def UsableDisjoint (entries : List (Option MemmapEntry)) : Prop :=
  (usableEntries entries).Pairwise fun first second =>
    first.length = 0
    ∨ second.length = 0
    ∨ first.limit ≤ second.base.toNat
    ∨ second.limit ≤ first.base.toNat

instance (entries : List (Option MemmapEntry)) : Decidable (UsableDisjoint entries) :=
  inferInstanceAs (Decidable (List.Pairwise _ _))

/-- The entry consists of whole pages below `highest`. -/
structure MemmapEntry.Fits (entry : MemmapEntry) (highest : Nat) : Prop where
  baseAligned : entry.base.toNat % pageSize = 0
  lengthAligned : entry.length.toNat % pageSize = 0
  below : entry.limit ≤ highest

theorem usableEntries_cons_other {entry : MemmapEntry} (rest : List (Option MemmapEntry))
    (other : entry.type ≠ limineMemmapUsable)
    : usableEntries (some entry :: rest) = usableEntries rest := by
  simp [usableEntries, Option.filter, other]

theorem usableEntries_cons_usable {entry : MemmapEntry} (rest : List (Option MemmapEntry))
    (usable : entry.type = limineMemmapUsable)
    : usableEntries (some entry :: rest) = entry :: usableEntries rest := by
  simp [usableEntries, Option.filter, usable]

/-- The end of an entry that passed the overflow check. -/
theorem MemmapEntry.limit_toNat {entry : MemmapEntry} (fits : ¬entry.length > -1 - entry.base)
    : (entry.base + entry.length).toNat = entry.limit ∧ entry.limit < 2 ^ 64 := by
  have base := entry.base.isLt
  have room : (-1 - entry.base).toNat = 2 ^ 64 - 1 - entry.base.toNat := by
    have ones : (-1 : U64).toNat = 2 ^ 64 - 1 := rfl
    rw [BitVec.toNat_sub, ones]
    omega
  have bound : entry.length.toNat ≤ (-1 - entry.base).toNat := not_lt.mp fits
  have small : entry.limit < 2 ^ 64 := by
    rw [MemmapEntry.limit]
    omega
  rw [MemmapEntry.limit] at small
  exact ⟨by rw [BitVec.toNat_add, Nat.mod_eq_of_lt small]; rfl, small⟩

/-- The first pass accepts only whole pages below its result, by induction on the map. -/
theorem highestUsable_spec {entries : List (Option MemmapEntry)} {start highest : U64}
    (accepted : highestUsable entries start = some highest)
    : start.toNat ≤ highest.toNat
      ∧ (start.toNat % pageSize = 0 → highest.toNat % pageSize = 0)
      ∧ ∀ entry ∈ usableEntries entries, entry.Fits highest.toNat := by
  induction entries generalizing start with
  | nil =>
      have same : start = highest := Option.some.inj accepted
      subst highest
      exact ⟨Nat.le_refl _, id, by simp [usableEntries]⟩
  | cons head rest ih =>
      cases head with
      | none => cases accepted
      | some entry =>
          by_cases other : entry.type ≠ limineMemmapUsable
          · rw [highestUsable, if_pos other] at accepted
            rw [usableEntries_cons_other rest other]
            exact ih accepted
          · have usable : entry.type = limineMemmapUsable := not_not.mp other
            rw [highestUsable, if_neg other] at accepted
            by_cases refused
                : entry.base.toNat % pageSize ≠ 0 ∨ entry.length.toNat % pageSize ≠ 0
                  ∨ entry.length > -1 - entry.base
            · rw [if_pos refused] at accepted
              cases accepted
            · rw [if_neg refused] at accepted
              simp only [not_or, not_not] at refused
              obtain ⟨baseAligned, lengthAligned, fits⟩ := refused
              obtain ⟨limitEq, limitBound⟩ := MemmapEntry.limit_toNat fits
              obtain ⟨raised, aligned, fitting⟩ := ih accepted
              have steps
                  : start.toNat ≤ highest.toNat
                    ∧ (entry.base + entry.length).toNat ≤ highest.toNat := by
                by_cases higher : entry.base + entry.length > start
                · have lower : start.toNat < (entry.base + entry.length).toNat := higher
                  rw [if_pos higher] at raised
                  exact ⟨by omega, raised⟩
                · have lower : (entry.base + entry.length).toNat ≤ start.toNat := not_lt.mp higher
                  rw [if_neg higher] at raised
                  exact ⟨raised, by omega⟩
              have limitBelow : entry.limit ≤ highest.toNat := by
                rw [← limitEq]
                exact steps.2
              refine ⟨steps.1, ?_, ?_⟩
              · intro startAligned
                apply aligned
                split
                · rw [limitEq, MemmapEntry.limit]
                  simp only [pageSize] at baseAligned lengthAligned ⊢
                  omega
                · exact startAligned
              · intro member found
                rw [usableEntries_cons_usable rest usable] at found
                rcases List.mem_cons.mp found with rfl | later
                · exact ⟨baseAligned, lengthAligned, limitBelow⟩
                · exact fitting member later

/-- The metadata lie above frame 0 inside one usable entry, by induction on the map. -/
theorem metadataPlace_spec {entries : List (Option MemmapEntry)} {metadataBytes : U64}
    {highest : Nat} (fitting : ∀ entry ∈ usableEntries entries, entry.Fits highest)
    (small : highest < 2 ^ 64) (placed : metadataPlace metadataBytes entries ≠ 0)
    : ∃ entry ∈ usableEntries entries,
        entry.base.toNat ≤ (metadataPlace metadataBytes entries).toNat
        ∧ (metadataPlace metadataBytes entries).toNat + metadataBytes.toNat ≤ entry.limit
        ∧ (metadataPlace metadataBytes entries).toNat % pageSize = 0 := by
  induction entries with
  | nil => exact (placed rfl).elim
  | cons head rest ih =>
      cases head with
      | none => exact ih fitting placed
      | some entry =>
          by_cases other : entry.type ≠ limineMemmapUsable
          · rw [usableEntries_cons_other rest other] at fitting ⊢
            rw [metadataPlace, if_pos other] at placed ⊢
            exact ih fitting placed
          · rw [usableEntries_cons_usable rest (not_not.mp other)] at fitting ⊢
            rw [metadataPlace, if_neg other] at placed ⊢
            have fits := fitting entry List.mem_cons_self
            have limitEq : (entry.base + entry.length).toNat = entry.limit := by
              have below := fits.below
              rw [MemmapEntry.limit] at below ⊢
              rw [BitVec.toNat_add, Nat.mod_eq_of_lt (by omega)]
            have baseAligned := fits.baseAligned
            simp only at placed ⊢
            by_cases chosen
                : (if entry.base = 0 then BitVec.ofNat 64 pageSize else entry.base)
                    ≤ entry.base + entry.length
                  ∧ metadataBytes
                    ≤ entry.base + entry.length
                      - (if entry.base = 0 then BitVec.ofNat 64 pageSize else entry.base)
            · rw [if_pos chosen] at placed ⊢
              refine ⟨entry, List.mem_cons_self, ?_⟩
              generalize start : (if entry.base = 0 then BitVec.ofNat 64 pageSize else entry.base)
                = base at chosen placed ⊢
              have above : entry.base.toNat ≤ base.toNat ∧ base.toNat % pageSize = 0 := by
                by_cases zero : entry.base = 0
                · rw [if_pos zero] at start
                  rw [zero, ← start]
                  exact ⟨Nat.zero_le _, rfl⟩
                · rw [if_neg zero] at start
                  rw [← start]
                  exact ⟨le_refl _, baseAligned⟩
              have order : base.toNat ≤ (entry.base + entry.length).toNat := chosen.1
              have room : metadataBytes.toNat ≤ (entry.base + entry.length - base).toNat :=
                chosen.2
              rw [BitVec.toNat_sub_of_le chosen.1, limitEq] at room
              rw [limitEq] at order
              exact ⟨above.1, by omega, above.2⟩
            · rw [if_neg chosen] at placed ⊢
              obtain ⟨found, member, facts⟩ :=
                ih (fun later member => fitting later (List.mem_cons_of_mem _ member)) placed
              exact ⟨found, List.mem_cons_of_mem _ member, facts⟩

-----------------------------------------------------------------------------------------
-- Writing the state bytes
-----------------------------------------------------------------------------------------

/-- Only state bytes and the free count differ. -/
structure Machine.StatesOnly (machine machine' : Machine) : Prop where
  record
    : machine' = { machine with
        memory := machine'.memory
        pages := { machine.pages with freeCount := machine'.pages.freeCount } }
  memory
    : ∀ address, ¬machine.IsMetadata (frameOf address)
        → machine'.memory address = machine.memory address

namespace Machine.StatesOnly

variable {machine machine' machine'' : Machine}

theorem refl (machine : Machine) : machine.StatesOnly machine :=
  ⟨rfl, fun _ _ => rfl⟩

theorem frames (only : machine.StatesOnly machine') : machine'.frames = machine.frames := by
  rw [only.record]
  rfl

theorem isMetadata (only : machine.StatesOnly machine') (frame : Nat)
    : machine'.IsMetadata frame ↔ machine.IsMetadata frame := by
  rw [only.record]
  rfl

theorem placed (only : machine.StatesOnly machine') (placed : machine.StatesPlaced)
    : machine'.StatesPlaced := by
  rw [only.record]
  exact { placed with }

theorem trans (first : machine.StatesOnly machine') (second : machine'.StatesOnly machine'')
    : machine.StatesOnly machine'' := by
  refine ⟨?_, ?_⟩
  · rw [second.record, first.record]
  · intro address outside
    rw [second.memory address (mt (first.isMetadata _).mp outside), first.memory address outside]

/-- Marking a frame free touches one state byte. -/
theorem withState (placed : machine.StatesPlaced) {frame : Nat}
    (inside : frame < machine.frames) (state : PageState)
    : machine.StatesOnly (machine.withState frame state) := by
  refine ⟨rfl, ?_⟩
  intro address outside
  apply Memory.store_of_ne
  rintro rfl
  exact outside (placed.stateAddress_metadata inside)

theorem release (placed : machine.StatesPlaced) {frame : Nat}
    (inside : frame < machine.frames)
    : machine.StatesOnly (machine.release frame) :=
  ⟨rfl, (withState placed inside .free).memory⟩

end Machine.StatesOnly

/-- The clearing loop marks its frames unmanaged, by induction on their number. -/
theorem clearStates_spec {machine : Machine} (placed : machine.StatesPlaced)
    (first count : Nat) (inside : first + count ≤ machine.frames)
    : ∃ machine',
        clearStates first count machine = .ok ((), machine')
        ∧ machine.StatesOnly machine'
        ∧ machine'.pages = machine.pages
        ∧ ∀ frame < machine.frames,
            machine'.stateOf frame
              = if first ≤ frame ∧ frame < first + count then PageState.unmanaged.byte
                else machine.stateOf frame := by
  induction count generalizing first machine with
  | zero =>
      refine ⟨machine, rfl, .refl machine, rfl, ?_⟩
      intro frame _
      rw [if_neg (by omega)]
  | succ count ih =>
      have here : first < machine.frames := by omega
      have written := Machine.StatesOnly.withState placed here .unmanaged
      obtain ⟨machine', result, only, pages, states⟩ :=
        ih (written.placed placed) (first + 1) (by rw [written.frames]; omega)
      refine ⟨machine', ?_, written.trans only, pages, ?_⟩
      · rw [clearStates, bind_ok (setState_ok here _)]
        exact result
      · intro frame bound
        rw [states frame (by rw [written.frames]; exact bound),
          placed.stateOf_withState here bound]
        by_cases later : first + 1 ≤ frame ∧ frame < first + 1 + count
        · rw [if_pos later, if_pos (by omega)]
        · rw [if_neg later]
          by_cases same : frame = first
          · rw [if_pos same, if_pos (by omega)]
          · rw [if_neg same, if_neg (by omega)]

/-- The frames that the third pass frees inside a range. -/
def Machine.Releases (machine : Machine) (first count frame : Nat) : Prop :=
  first ≤ frame ∧ frame < first + count ∧ frame ≠ 0 ∧ ¬machine.IsMetadata frame

/-- One round of the third pass frees its frame unless that is frame 0 or metadata. -/
theorem freePage_spec {machine : Machine} (wellFormed : machine.PagesWellFormed)
    {metadataEnd address : U64} (aligned : address.toNat % pageSize = 0)
    (inside : frameOf address.toNat < machine.frames)
    (metadata
      : metadataEnd.toNat
        = machine.pages.metadataBase.toNat + machine.pages.metadataPages.toNat * pageSize)
    (unfree : ¬machine.IsFree (frameOf address.toNat))
    : ∃ machine',
        freePage machine.pages.metadataBase metadataEnd address machine = .ok ((), machine')
        ∧ machine'.PagesWellFormed
        ∧ machine.StatesOnly machine'
        ∧ ∀ frame < machine.frames,
            machine'.stateOf frame
              = if frame = frameOf address.toNat ∧ frame ≠ 0 ∧ ¬machine.IsMetadata frame
                then PageState.free.byte
                else machine.stateOf frame := by
  have skips
      : (address = 0 ∨ (address ≥ machine.pages.metadataBase ∧ address < metadataEnd))
        ↔ (frameOf address.toNat = 0 ∨ machine.IsMetadata (frameOf address.toNat)) := by
    have zero : address = 0 ↔ address.toNat = 0 :=
      ⟨fun h => h ▸ rfl, fun h => BitVec.eq_of_toNat_eq h⟩
    have base : address ≥ machine.pages.metadataBase
        ↔ machine.pages.metadataBase.toNat ≤ address.toNat := Iff.rfl
    have top : address < metadataEnd ↔ address.toNat < metadataEnd.toNat := Iff.rfl
    have metadataAligned := wellFormed.metadataAligned
    have size : pageSize = 4096 := rfl
    rw [zero, base, top, metadata]
    simp only [Machine.IsMetadata, Machine.metadataFrame, frameOf, size] at *
    omega
  by_cases skip : address = 0 ∨ (address ≥ machine.pages.metadataBase ∧ address < metadataEnd)
  · refine ⟨machine, by rw [freePage, if_pos skip]; rfl, wellFormed, .refl machine, ?_⟩
    intro frame _
    rw [if_neg]
    rintro ⟨rfl, nonzero, usable⟩
    exact (skips.mp skip).elim nonzero usable
  · have kept := not_or.mp (mt skips.mpr skip)
    refine ⟨machine.release (frameOf address.toNat), ?_,
      wellFormed.release_unfree inside unfree kept.2 kept.1,
      .release wellFormed.toStatesPlaced inside, ?_⟩
    · rw [freePage, if_neg skip, bind_ok (setState_ok inside _)]
      rfl
    · intro frame bound
      rw [wellFormed.stateOf_release inside bound]
      by_cases same : frame = frameOf address.toNat
      · have new : frame = frameOf address.toNat ∧ frame ≠ 0 ∧ ¬machine.IsMetadata frame :=
          ⟨same, same ▸ kept.1, same ▸ kept.2⟩
        rw [if_pos same, if_pos new]
      · rw [if_neg same, if_neg (not_and.mpr fun here => absurd here same)]

/-- One loop of the third pass frees every usable frame of its range, none of which was free
before. Witness: induction on the rounds; the address stays page-aligned below the limit.
-/
theorem freeEntry_spec {machine : Machine} (wellFormed : machine.PagesWellFormed)
    (metadataEnd limit : U64) (rounds : Nat) (address : U64)
    (aligned : address.toNat % pageSize = 0)
    (covers : address.toNat + rounds * pageSize = limit.toNat)
    (inside : frameOf address.toNat + rounds ≤ machine.frames)
    (metadata
      : metadataEnd.toNat
        = machine.pages.metadataBase.toNat + machine.pages.metadataPages.toNat * pageSize)
    (unfree
      : ∀ frame, frameOf address.toNat ≤ frame → frame < frameOf address.toNat + rounds
          → ¬machine.IsFree frame)
    : ∃ machine',
        freeEntry machine.pages.metadataBase metadataEnd limit rounds address machine
          = .ok ((), machine')
        ∧ machine'.PagesWellFormed
        ∧ machine.StatesOnly machine'
        ∧ ∀ frame < machine.frames,
            (machine.Releases (frameOf address.toNat) rounds frame
              → machine'.stateOf frame = PageState.free.byte)
            ∧ (¬machine.Releases (frameOf address.toNat) rounds frame
              → machine'.stateOf frame = machine.stateOf frame) := by
  induction rounds generalizing address machine with
  | zero =>
      refine ⟨machine, rfl, wellFormed, .refl machine, ?_⟩
      intro frame _
      exact ⟨fun released => absurd released.2.1 (by have := released.1; omega), fun _ => rfl⟩
  | succ rounds ih =>
      have bound := limit.isLt
      have page : (BitVec.ofNat 64 pageSize).toNat = pageSize := rfl
      have size : pageSize = 4096 := rfl
      have next : (address + BitVec.ofNat 64 pageSize).toNat = address.toNat + pageSize := by
        rw [BitVec.toNat_add, page, Nat.mod_eq_of_lt]
        rw [Nat.succ_mul] at covers
        omega
      have nextFrame
          : frameOf (address + BitVec.ofNat 64 pageSize).toNat = frameOf address.toNat + 1 := by
        rw [next, frameOf, frameOf, size]
        omega
      have below : address < limit := by
        change address.toNat < limit.toNat
        rw [Nat.succ_mul] at covers
        omega
      have here : frameOf address.toNat < machine.frames := by omega
      obtain ⟨middle, body, middleFormed, only, middleStates⟩ :=
        freePage_spec wellFormed aligned here metadata
          (unfree (frameOf address.toNat) (Nat.le_refl _) (by omega))
      have pagesKept : middle.pages.metadataBase = machine.pages.metadataBase
          ∧ middle.pages.metadataPages = machine.pages.metadataPages := by
        rw [only.record]
        exact ⟨rfl, rfl⟩
      obtain ⟨machine', result, formed, later, states⟩ :=
        ih middleFormed (address + BitVec.ofNat 64 pageSize)
          (by rw [next]; simp only [size] at *; omega)
          (by rw [next]; rw [Nat.succ_mul] at covers; omega)
          (by rw [nextFrame, only.frames]; omega)
          (by rw [pagesKept.1, pagesKept.2]; exact metadata)
          (by
            intro frame low high free
            rw [nextFrame] at low high
            rw [Machine.IsFree, only.frames, middleStates frame (by omega), if_neg (by omega)] at free
            exact unfree frame (by omega) (by omega) free)
      refine ⟨machine', ?_, formed, only.trans later, ?_⟩
      · rw [freeEntry, if_pos below, bind_ok body, ← pagesKept.1]
        exact result
      · intro frame bound
        have inherited := states frame (by rw [only.frames]; exact bound)
        rw [nextFrame] at inherited
        have split : machine.Releases (frameOf address.toNat) (rounds + 1) frame
            ↔ (frame = frameOf address.toNat ∧ frame ≠ 0 ∧ ¬machine.IsMetadata frame)
              ∨ middle.Releases (frameOf address.toNat + 1) rounds frame := by
          simp only [Machine.Releases, only.isMetadata]
          by_cases metadata : machine.IsMetadata frame
          · simp only [metadata, not_true_eq_false, and_false, or_self]
          · simp only [metadata, not_false_eq_true, and_true]
            omega
        by_cases released : middle.Releases (frameOf address.toNat + 1) rounds frame
        · exact ⟨fun _ => inherited.1 released,
            fun kept => absurd (split.mpr (Or.inr released)) kept⟩
        · rw [inherited.2 released, middleStates frame bound]
          constructor
          · intro new
            rw [if_pos ((split.mp new).resolve_right released)]
          · intro kept
            rw [if_neg fun new => kept (split.mpr (Or.inl new))]

/-- A usable entry covers exactly the frames of its loop. -/
theorem MemmapEntry.Fits.covers_iff {entry : MemmapEntry} {highest : Nat}
    (fits : entry.Fits highest) (frame : Nat)
    : entry.Covers frame
      ↔ frameOf entry.base.toNat ≤ frame
        ∧ frame < frameOf entry.base.toNat + entry.length.toNat / pageSize := by
  have baseAligned := fits.baseAligned
  have lengthAligned := fits.lengthAligned
  have size : pageSize = 4096 := rfl
  simp only [MemmapEntry.Covers, MemmapEntry.limit, frameOf, size] at *
  omega

/-- The third pass frees every usable frame but frame 0 and the metadata.
Witness: induction on the map; a later entry overlaps no earlier one, so its frames are not
yet free.
-/
theorem freeUsable_spec {machine : Machine} (wellFormed : machine.PagesWellFormed)
    (metadataEnd : U64) (entries : List (Option MemmapEntry))
    (fitting
      : ∀ entry ∈ usableEntries entries, entry.Fits (machine.frames * pageSize))
    (small : machine.frames * pageSize < 2 ^ 64)
    (disjoint : UsableDisjoint entries)
    (metadata
      : metadataEnd.toNat
        = machine.pages.metadataBase.toNat + machine.pages.metadataPages.toNat * pageSize)
    (unfree : ∀ frame, UsableFrame entries frame → ¬machine.IsFree frame)
    : ∃ machine',
        freeUsable machine.pages.metadataBase metadataEnd entries machine = .ok ((), machine')
        ∧ machine'.PagesWellFormed
        ∧ machine.StatesOnly machine'
        ∧ ∀ frame < machine.frames,
            (UsableFrame entries frame ∧ frame ≠ 0 ∧ ¬machine.IsMetadata frame
              → machine'.stateOf frame = PageState.free.byte)
            ∧ (¬(UsableFrame entries frame ∧ frame ≠ 0 ∧ ¬machine.IsMetadata frame)
              → machine'.stateOf frame = machine.stateOf frame) := by
  induction entries generalizing machine with
  | nil =>
      refine ⟨machine, rfl, wellFormed, .refl machine, ?_⟩
      intro frame _
      refine ⟨?_, fun _ => rfl⟩
      rintro ⟨⟨entry, member, _⟩, _⟩
      simp [usableEntries] at member
  | cons head rest ih =>
      cases head with
      | none => exact ih wellFormed fitting small disjoint metadata unfree
      | some entry =>
          by_cases other : entry.type ≠ limineMemmapUsable
          · have same := usableEntries_cons_other rest other
            simp only [freeUsable, if_pos other, UsableFrame, UsableDisjoint, same] at *
            exact ih wellFormed fitting small disjoint metadata unfree
          · have same := usableEntries_cons_usable rest (not_not.mp other)
            have fits := fitting entry (same ▸ List.mem_cons_self)
            have covered : ∀ frame, entry.Covers frame → UsableFrame (some entry :: rest) frame :=
              fun frame covers => ⟨entry, same ▸ List.mem_cons_self, covers⟩
            have size : pageSize = 4096 := rfl
            have below := fits.below
            have baseAligned := fits.baseAligned
            have lengthAligned := fits.lengthAligned
            have limitEq : (entry.base + entry.length).toNat = entry.limit := by
              rw [MemmapEntry.limit] at below ⊢
              rw [BitVec.toNat_add, Nat.mod_eq_of_lt (by omega)]
            rw [UsableDisjoint, same, List.pairwise_cons] at disjoint
            obtain ⟨middle, body, middleFormed, only, middleStates⟩ :=
              freeEntry_spec wellFormed metadataEnd (entry.base + entry.length)
                (entry.length.toNat / pageSize) entry.base baseAligned
                (by rw [limitEq, MemmapEntry.limit]; simp only [size] at *; omega)
                (by simp only [MemmapEntry.limit, frameOf, size] at *; omega)
                metadata
                (fun frame low high =>
                  unfree frame (covered frame ((fits.covers_iff frame).mpr ⟨low, high⟩)))
            have pagesKept : middle.pages.metadataBase = machine.pages.metadataBase
                ∧ middle.pages.metadataPages = machine.pages.metadataPages := by
              rw [only.record]
              exact ⟨rfl, rfl⟩
            have releases (frame : Nat)
                : machine.Releases (frameOf entry.base.toNat) (entry.length.toNat / pageSize) frame
                  ↔ entry.Covers frame ∧ frame ≠ 0 ∧ ¬machine.IsMetadata frame := by
              rw [fits.covers_iff, Machine.Releases, and_assoc]
            obtain ⟨machine', result, formed, later, states⟩ :=
              ih middleFormed
                (fun next member => by
                  rw [only.frames]
                  exact fitting next (same ▸ List.mem_cons_of_mem _ member))
                (by rw [only.frames]; exact small)
                disjoint.2
                (by rw [pagesKept.1, pagesKept.2]; exact metadata)
                (by
                  rintro frame ⟨next, member, covers⟩ free
                  have inside : frame < machine.frames := only.frames ▸ free.1
                  have apart : ¬entry.Covers frame := by
                    intro covers'
                    rcases disjoint.1 next member with empty | empty | order
                    · exact covers'.nonempty empty
                    · exact covers.nonempty empty
                    · have high := covers.2
                      have high' := covers'.2
                      have low := covers.1
                      have low' := covers'.1
                      omega
                  rw [Machine.IsFree, only.frames,
                    (middleStates frame inside).2 fun new => apart ((releases frame).mp new).1] at free
                  exact unfree frame ⟨next, same ▸ List.mem_cons_of_mem _ member, covers⟩ free)
            refine ⟨machine', ?_, formed, only.trans later, ?_⟩
            · rw [freeUsable, if_neg other, bind_ok body, ← pagesKept.1]
              exact result
            · intro frame bound
              have inherited := states frame (by rw [only.frames]; exact bound)
              rw [only.isMetadata] at inherited
              have split : UsableFrame (some entry :: rest) frame
                  ↔ entry.Covers frame ∨ UsableFrame rest frame := by
                simp only [UsableFrame, same, List.mem_cons, or_and_right, exists_or,
                  exists_eq_left]
              by_cases usable : UsableFrame rest frame ∧ frame ≠ 0 ∧ ¬machine.IsMetadata frame
              · exact ⟨fun _ => inherited.1 usable,
                  fun kept => absurd ⟨split.mpr (Or.inr usable.1), usable.2⟩ kept⟩
              · rw [inherited.2 usable]
                constructor
                · rintro ⟨covers, kept⟩
                  have here := (split.mp covers).resolve_right fun later => usable ⟨later, kept⟩
                  exact (middleStates frame bound).1 ((releases frame).mpr ⟨here, kept⟩)
                · intro kept
                  refine (middleStates frame bound).2 fun new => kept ?_
                  obtain ⟨covers, rest⟩ := (releases frame).mp new
                  exact ⟨covered frame covers, rest⟩

-----------------------------------------------------------------------------------------
-- The whole of page_init
-----------------------------------------------------------------------------------------

/-- The allocator's record before `page_init`. -/
structure Machine.Fresh (machine : Machine) : Prop where
  unready : machine.pages.states = 0
  nothingFree : machine.pages.freeCount = 0
  startsLow : machine.pages.nextFrame = 0

/-- What a successful `page_init` has done. -/
structure Machine.Initialised (before after : Machine) (entries : List (Option MemmapEntry))
    (hhdmOffset : U64)
    : Prop where
  wellFormed : after.PagesWellFormed
  offset : after.pages.hhdmOffset = hhdmOffset
  planned
    : ∃ plan,
        initPlan entries hhdmOffset = some plan
        ∧ after.pages.frameCount = plan.frameCount
        ∧ after.pages.metadataBase = plan.metadataBase
        ∧ after.pages.metadataPages = plan.metadataPages
  free
    : ∀ frame, after.IsFree frame
        ↔ UsableFrame entries frame ∧ frame ≠ 0 ∧ ¬after.IsMetadata frame
  unmanaged
    : ∀ frame < after.frames,
        ¬after.IsFree frame → after.stateOf frame = PageState.unmanaged.byte
  metadataUsable : ∀ frame, after.IsMetadata frame → UsableFrame entries frame
  record : after = { before with memory := after.memory, pages := after.pages }
  memory
    : ∀ address, ¬after.IsMetadata (frameOf address) → after.memory address = before.memory address

/-- A plan's numbers, without wrapping: the metadata are whole pages inside one usable entry,
large enough for one byte a frame, and the direct map reaches every frame.
-/
structure InitPlan.Sound (plan : InitPlan) (entries : List (Option MemmapEntry))
    (hhdmOffset : U64)
    : Prop where
  fitting : ∀ entry ∈ usableEntries entries, entry.Fits (plan.frameCount.toNat * pageSize)
  mapped : hhdmOffset.toNat + plan.frameCount.toNat * pageSize ≤ 2 ^ 64
  small : plan.frameCount.toNat * pageSize < 2 ^ 64
  positive : 0 < plan.frameCount.toNat
  baseNonzero : plan.metadataBase ≠ 0
  baseAligned : plan.metadataBase.toNat % pageSize = 0
  holds : plan.frameCount.toNat ≤ plan.metadataPages.toNat * pageSize
  bytes : plan.metadataBytes.toNat = plan.metadataPages.toNat * pageSize
  inside
    : ∃ entry ∈ usableEntries entries,
        entry.base.toNat ≤ plan.metadataBase.toNat
        ∧ plan.metadataBase.toNat + plan.metadataPages.toNat * pageSize ≤ entry.limit

/-- Every accepted plan is sound. -/
theorem initPlan_sound {entries : List (Option MemmapEntry)} {hhdmOffset : U64}
    {plan : InitPlan} (planned : initPlan entries hhdmOffset = some plan)
    : plan.Sound entries hhdmOffset := by
  unfold initPlan at planned
  cases first : highestUsable entries 0 with
  | none =>
      rw [first] at planned
      cases planned
  | some highest =>
      obtain ⟨_, aligned, fitting⟩ := highestUsable_spec first
      rw [first] at planned
      by_cases refused : highest = 0 ∨ highest - 1 > -1 - hhdmOffset
      · simp only [if_pos refused] at planned
        cases planned
      · simp only [if_neg refused] at planned
        obtain ⟨nonzero, reach⟩ := not_or.mp refused
        by_cases unplaced
            : metadataPlace
                ((highest / BitVec.ofNat 64 pageSize + BitVec.ofNat 64 pageSize - 1)
                  / BitVec.ofNat 64 pageSize * BitVec.ofNat 64 pageSize) entries = 0
        · rw [if_pos unplaced] at planned
          cases planned
        · rw [if_neg unplaced] at planned
          have page : (BitVec.ofNat 64 pageSize).toNat = 4096 := rfl
          have size : pageSize = 4096 := rfl
          have one : (1 : U64).toNat = 1 := rfl
          have ones : (-1 : U64).toNat = 2 ^ 64 - 1 := rfl
          have bound := highest.isLt
          have offsetBound := hhdmOffset.isLt
          have positive : highest.toNat ≠ 0 :=
            fun zero => nonzero (BitVec.eq_of_toNat_eq zero)
          have wholePages := aligned rfl
          have count : (highest / BitVec.ofNat 64 pageSize).toNat = highest.toNat / 4096 := by
            rw [BitVec.toNat_udiv, page]
          have pages
              : ((highest / BitVec.ofNat 64 pageSize + BitVec.ofNat 64 pageSize - 1)
                  / BitVec.ofNat 64 pageSize).toNat = (highest.toNat / 4096 + 4095) / 4096 := by
            rw [BitVec.toNat_udiv, BitVec.toNat_sub, BitVec.toNat_add, count, page, one]
            omega
          have bytes
              : ((highest / BitVec.ofNat 64 pageSize + BitVec.ofNat 64 pageSize - 1)
                  / BitVec.ofNat 64 pageSize * BitVec.ofNat 64 pageSize).toNat
                = (highest.toNat / 4096 + 4095) / 4096 * 4096 := by
            rw [BitVec.toNat_mul, pages, page, Nat.mod_eq_of_lt (by omega)]
          obtain ⟨entry, member, low, high, baseAligned⟩ :=
            metadataPlace_spec fitting bound unplaced
          have reach' : (highest - 1).toNat ≤ (-1 - hhdmOffset).toNat := not_lt.mp reach
          rw [toNat_sub_one positive, BitVec.toNat_sub, ones] at reach'
          cases planned
          simp only [size] at wholePages
          have whole : highest.toNat / 4096 * 4096 = highest.toNat := by omega
          constructor
          · rw [count, size, whole]
            exact fitting
          · rw [count, size, whole]
            omega
          · rw [count, size, whole]
            exact bound
          · rw [count]
            omega
          · exact unplaced
          · exact baseAligned
          · rw [count, pages, size]
            omega
          · rw [InitPlan.metadataBytes, bytes, pages, size]
          · refine ⟨entry, member, low, ?_⟩
            rw [pages, size, ← bytes]
            exact high

/-- Without a plan `page_init` changes nothing. -/
theorem pageInitEntries_refused (machine : Machine) {entries : List (Option MemmapEntry)}
    {hhdmOffset : U64} (unplanned : initPlan entries hhdmOffset = none)
    : pageInitEntries entries hhdmOffset machine = .ok (false, machine) := by
  rw [pageInitEntries, unplanned]
  rfl

/-- With a plan, and usable entries that are disjoint, `page_init` succeeds.
Witness: the cleared table is already well formed with nothing free, and the third pass
keeps it so.
-/
theorem pageInitEntries_ok {machine : Machine} (fresh : machine.Fresh)
    {entries : List (Option MemmapEntry)} (disjoint : UsableDisjoint entries)
    {hhdmOffset : U64} {plan : InitPlan} (planned : initPlan entries hhdmOffset = some plan)
    : ∃ machine',
        pageInitEntries entries hhdmOffset machine = .ok (true, machine')
        ∧ machine'.pages.nextFrame = 0
        ∧ machine.Initialised machine' entries hhdmOffset := by
  have sound := initPlan_sound planned
  have size : pageSize = 4096 := rfl
  obtain ⟨entry, member, low, high⟩ := sound.inside
  have below := (sound.fitting entry member).below
  have mapped := sound.mapped
  have holds := sound.holds
  have positive := sound.positive
  have baseAligned := sound.baseAligned
  have baseNonzero : plan.metadataBase.toNat ≠ 0 :=
    fun zero => sound.baseNonzero (BitVec.eq_of_toNat_eq zero)
  let named : Machine :=
    { machine with pages := { machine.pages with
        states := hhdmOffset + plan.metadataBase
        frameCount := plan.frameCount
        metadataBase := plan.metadataBase
        metadataPages := plan.metadataPages
        hhdmOffset := hhdmOffset } }
  have placed : named.StatesPlaced := by
    refine ⟨?_, rfl, baseAligned, sound.baseNonzero, ?_, sound.holds, mapped⟩
    · intro null
      have sum : (hhdmOffset + plan.metadataBase).toNat = 0 := congrArg BitVec.toNat null
      rw [BitVec.toNat_add] at sum
      simp only [size] at *
      omega
    · change frameOf plan.metadataBase.toNat + plan.metadataPages.toNat
        ≤ plan.frameCount.toNat
      simp only [frameOf, size] at *
      omega
  obtain ⟨cleared, clearing, only, pagesSame, states⟩ :=
    clearStates_spec placed 0 plan.frameCount.toNat (by rw [Nat.zero_add]; exact le_refl _)
  have allUnmanaged : ∀ frame < cleared.frames,
      cleared.stateOf frame = PageState.unmanaged.byte := by
    intro frame inside
    rw [only.frames] at inside
    rw [states frame inside, if_pos ⟨Nat.zero_le _, by rw [Nat.zero_add]; exact inside⟩]
  have noneFree : ∀ frame, ¬cleared.IsFree frame := by
    rintro frame ⟨inside, free⟩
    rw [allUnmanaged frame inside] at free
    exact absurd (PageState.byte_injective free) (by decide)
  have wellFormed : cleared.PagesWellFormed := by
    refine { only.placed placed with reserved := ?_, counted := ?_, nextInside := ?_ }
    · exact fun frame inside _ => allUnmanaged frame inside
    · have empty : cleared.freeFrames = ∅ := by
        apply Finset.eq_empty_of_forall_notMem
        exact fun frame member => noneFree frame ((cleared.mem_freeFrames frame).mp member)
      rw [empty, pagesSame]
      exact congrArg BitVec.toNat fresh.nothingFree
    · rw [pagesSame, only.frames]
      have start : named.pages.nextFrame.toNat = 0 := congrArg BitVec.toNat fresh.startsLow
      rw [start]
      exact positive
  have metadataEnd : (plan.metadataBase + plan.metadataBytes).toNat
      = plan.metadataBase.toNat + plan.metadataPages.toNat * pageSize := by
    rw [BitVec.toNat_add, sound.bytes, Nat.mod_eq_of_lt]
    have small := sound.small
    omega
  obtain ⟨machine', freeing, formed, later, freed⟩ :=
    freeUsable_spec wellFormed (plan.metadataBase + plan.metadataBytes) entries
      (by rw [only.frames]; exact sound.fitting)
      (by rw [only.frames]; exact sound.small) disjoint
      (by rw [pagesSame]; exact metadataEnd) fun frame _ => noneFree frame
  have both := only.trans later
  have metadataSame (frame : Nat) : machine'.IsMetadata frame ↔ cleared.IsMetadata frame :=
    later.isMetadata frame
  refine ⟨machine', ?_, ?_, formed, ?_, ⟨plan, planned, ?_, ?_, ?_⟩, ?_, ?_, ?_, ?_, ?_⟩
  · rw [pageInitEntries, planned]
    change (modifyPages _ >>= fun _ => _) machine = _
    rw [bind_ok (modifyPages_apply _ _), bind_ok clearing]
    rw [pagesSame] at freeing
    rw [bind_ok freeing]
    rfl
  · rw [both.record]
    exact fresh.startsLow
  · rw [both.record]
  · rw [both.record]
  · rw [both.record]
  · rw [both.record]
  · intro frame
    rw [metadataSame]
    by_cases inside : frame < cleared.frames
    · by_cases usable : UsableFrame entries frame ∧ frame ≠ 0 ∧ ¬cleared.IsMetadata frame
      · refine ⟨fun _ => usable, fun _ => ?_⟩
        exact ⟨later.frames ▸ inside, (freed frame inside).1 usable⟩
      · refine ⟨fun free => ?_, fun new => absurd new usable⟩
        rw [Machine.IsFree, (freed frame inside).2 usable, later.frames] at free
        exact (noneFree frame free).elim
    · constructor
      · exact fun free => absurd (later.frames ▸ free.1) inside
      · rintro ⟨⟨found, among, covers⟩, _⟩
        have fits := sound.fitting found among
        have top := covers.2
        have cap := fits.below
        have count : cleared.frames = plan.frameCount.toNat := only.frames
        rw [count] at inside
        simp only [size] at *
        omega
  · intro frame inside notFree
    rw [later.frames] at inside
    by_cases usable : UsableFrame entries frame ∧ frame ≠ 0 ∧ ¬cleared.IsMetadata frame
    · exact (notFree ⟨later.frames ▸ inside, (freed frame inside).1 usable⟩).elim
    · rw [(freed frame inside).2 usable]
      exact allUnmanaged frame inside
  · intro frame metadata
    rw [metadataSame, only.isMetadata] at metadata
    have bottom : frameOf plan.metadataBase.toNat ≤ frame := metadata.1
    have top : frame < frameOf plan.metadataBase.toNat + plan.metadataPages.toNat := metadata.2
    refine ⟨entry, member, ?_⟩
    simp only [MemmapEntry.Covers, frameOf, size] at *
    omega
  · rw [both.record]
  · intro address outside
    rw [both.isMetadata] at outside
    exact both.memory address outside

/-- `page_init` at a fresh record is its work over the entries. -/
theorem pageInit_fresh {machine : Machine} (fresh : machine.Fresh)
    (entries : List (Option MemmapEntry)) (hhdmOffset : U64)
    : pageInit (some ⟨some entries⟩) hhdmOffset machine
      = pageInitEntries entries hhdmOffset machine := by
  rw [pageInit, bind_get_apply, if_neg (not_not.mpr fresh.unready)]

/-- Every successful `page_init` over disjoint usable entries has done its work. -/
theorem pageInit_initialised {before start : Machine} (fresh : before.Fresh)
    {entries : List (Option MemmapEntry)} (disjoint : UsableDisjoint entries)
    {hhdmOffset : U64}
    (success : pageInit (some ⟨some entries⟩) hhdmOffset before = .ok (true, start))
    : before.Initialised start entries hhdmOffset := by
  rw [pageInit_fresh fresh] at success
  cases planned : initPlan entries hhdmOffset with
  | none =>
      rw [pageInitEntries_refused before planned] at success
      cases success
  | some plan =>
      obtain ⟨machine', result, _, initialised⟩ := pageInitEntries_ok fresh disjoint planned
      rw [success] at result
      cases result
      exact initialised

/-- After it the search for a frame starts at frame 0. -/
theorem pageInit_startsLow {before start : Machine} (fresh : before.Fresh)
    {entries : List (Option MemmapEntry)} (disjoint : UsableDisjoint entries)
    {hhdmOffset : U64}
    (success : pageInit (some ⟨some entries⟩) hhdmOffset before = .ok (true, start))
    : start.pages.nextFrame = 0 := by
  obtain ⟨plan, planned, _⟩ := (pageInit_initialised fresh disjoint success).planned
  obtain ⟨machine', result, low, _⟩ := pageInitEntries_ok fresh disjoint planned
  cases (pageInit_fresh fresh entries hhdmOffset).symm.trans success |>.symm.trans result
  exact low

/-- `page_init` at a fresh record does its work or changes nothing. -/
theorem pageInit_spec {before : Machine} (fresh : before.Fresh) (map : Option MemmapResponse)
    (hhdmOffset : U64)
    (disjoint : ∀ entries, map = some ⟨some entries⟩ → UsableDisjoint entries)
    : pageInit map hhdmOffset before = .ok (false, before)
      ∨ ∃ entries start,
          map = some ⟨some entries⟩
          ∧ pageInit map hhdmOffset before = .ok (true, start)
          ∧ before.Initialised start entries hhdmOffset := by
  have opened : ¬before.pages.states ≠ 0 := not_not.mpr fresh.unready
  match map with
  | none =>
      left
      unfold pageInit
      rw [bind_get_apply, if_neg opened]
      rfl
  | some ⟨none⟩ =>
      left
      unfold pageInit
      rw [bind_get_apply, if_neg opened]
      rfl
  | some ⟨some entries⟩ =>
      have same := pageInit_fresh fresh entries hhdmOffset
      cases planned : initPlan entries hhdmOffset with
      | none => exact Or.inl (same.trans (pageInitEntries_refused before planned))
      | some plan =>
          obtain ⟨start, result, _, initialised⟩ :=
            pageInitEntries_ok fresh (disjoint entries rfl) planned
          exact Or.inr ⟨entries, start, rfl, same.trans result, initialised⟩

/-- An initialised allocator is not initialised again. -/
theorem pageInit_again {machine : Machine} (ready : machine.pages.states ≠ 0)
    (map : Option MemmapResponse) (hhdmOffset : U64)
    : pageInit map hhdmOffset machine = .ok (false, machine) := by
  unfold pageInit
  rw [bind_get_apply, if_pos ready]
  rfl

/-- What is true of the allocator's record and state bytes after `page_init` accepted a map. -/
structure Machine.Classifies (machine : Machine) (entries : List (Option MemmapEntry))
    (hhdmOffset : U64)
    : Prop where
  free
    : ∀ frame,
        machine.IsFree frame
        ↔ UsableFrame entries frame ∧ frame ≠ 0 ∧ ¬machine.IsMetadata frame
  unmanaged
    : ∀ frame < machine.frames,
        ¬machine.IsFree frame → machine.stateOf frame = PageState.unmanaged.byte
  unallocated : ∀ frame, ¬machine.IsAllocated frame
  counted : machine.pages.freeCount.toNat = machine.freeFrames.card
  metadataNonzero : machine.pages.metadataBase ≠ 0 ∧ 0 < machine.pages.metadataPages.toNat
  metadataHolds : machine.frames ≤ machine.pages.metadataPages.toNat * pageSize
  metadataInside
    : ∃ entry ∈ usableEntries entries,
        entry.base.toNat ≤ machine.pages.metadataBase.toNat
        ∧ machine.pages.metadataBase.toNat + machine.pages.metadataPages.toNat * pageSize
          ≤ entry.limit
  indexed : ∀ frame, UsableFrame entries frame → frame < machine.frames
  stored : ∀ frame < machine.frames, machine.IsMetadata (frameOf (machine.stateAddress frame))
  unwrapped : ∀ entry ∈ usableEntries entries, entry.limit < 2 ^ 64
  mapped
    : ∀ entry ∈ usableEntries entries, ∀ byte < entry.limit, hhdmOffset.toNat + byte < 2 ^ 64

theorem Machine.Initialised.classifies {before start : Machine}
    {entries : List (Option MemmapEntry)} {hhdmOffset : U64}
    (initialised : before.Initialised start entries hhdmOffset)
    : start.Classifies entries hhdmOffset := by
  obtain ⟨plan, planned, count, base, pages⟩ := initialised.planned
  have sound := initPlan_sound planned
  have frames : start.frames = plan.frameCount.toNat := congrArg BitVec.toNat count
  have unallocated (frame : Nat) : ¬start.IsAllocated frame := by
    intro allocated
    by_cases free : start.IsFree frame
    · exact free.not_allocated allocated
    · have state := initialised.unmanaged frame allocated.1 free
      rw [allocated.2] at state
      exact absurd (PageState.byte_injective state) (by decide)
  have positive := sound.positive
  have holds := sound.holds
  refine ⟨initialised.free, initialised.unmanaged, unallocated, initialised.wellFormed.counted,
    ⟨?_, ?_⟩, initialised.wellFormed.metadataHolds, ?_, ?_, ?_, ?_, ?_⟩
  · rw [base]
    exact sound.baseNonzero
  · rw [pages]
    by_contra none
    have zero : plan.metadataPages.toNat = 0 := Nat.eq_zero_of_not_pos none
    rw [zero] at holds
    omega
  · rw [base, pages]
    exact sound.inside
  · rintro frame ⟨entry, member, covers⟩
    have below := (sound.fitting entry member).below
    have inside := covers.2
    rw [frames]
    simp only [pageSize] at below inside
    omega
  · exact fun frame inside => initialised.wellFormed.stateAddress_metadata inside
  · intro entry member
    exact (sound.fitting entry member).below.trans_lt sound.small
  · intro entry member byte inside
    have below := (sound.fitting entry member).below
    have mapped := sound.mapped
    omega

end MiniLinux

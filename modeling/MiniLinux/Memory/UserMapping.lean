import MiniLinux.Memory.UserRange
import MiniLinux.Memory.VmTree

/-! What user code can reach through a well-formed space.
The upper half belongs to the kernel and the lower half holds no large pages, so the
processor gives CPL3 exactly the pages of the map that carry the user flag.
-/

namespace MiniLinux

open Foundation

/-- The byte of a physical page that an address selects. -/
def pageByte (frame address : U64) : Nat :=
  frame.toNat / pageSize * pageSize + address.toNat % pageSize

theorem pageByte_frame (frame address : U64)
    : frameOf (pageByte frame address) = frameOf frame.toNat := by
  have inside : address.toNat % pageSize < pageSize := Nat.mod_lt _ (by decide)
  simp only [frameOf, pageByte, pageSize] at inside ⊢
  omega

/-- A walk that meets only present entries, none of them large above the last level, is
complete. Witness: induction on the upper levels.
-/
theorem cpuWalk_length (machine : Machine) (root address : U64) (last : Nat) (shifts : List Nat)
    (table : U64)
    (small
      : ∀ first index rest node,
          shifts.map (tableIndex address) = first ++ index :: rest
          → RadixTree.descend (machine.lowerChild root) table first = some node
          → index < lowerSlots root node
            ∧ (machine.entry node index &&& ptePresent ≠ 0
              → machine.entry node index &&& pteLarge = 0))
    (present
      : ∀ entry ∈ machine.cpuWalk address (shifts ++ [last]) table, entry &&& ptePresent ≠ 0)
    : (machine.cpuWalk address (shifts ++ [last]) table).length = shifts.length + 1 := by
  induction shifts generalizing table with
  | nil =>
      rw [List.nil_append, Machine.cpuWalk]
      split <;> rfl
  | cons shift rest ih =>
      obtain ⟨inside, notLarge⟩ := small [] _ _ table rfl rfl
      rw [List.cons_append, Machine.cpuWalk] at present ⊢
      by_cases stops : machine.entry table (tableIndex address shift) &&& ptePresent = 0
          ∨ machine.entry table (tableIndex address shift) &&& pteLarge ≠ 0
      · rw [if_pos stops] at present
        have here := present _ (List.mem_singleton_self _)
        rcases stops with absent | large
        · exact absurd absent here
        · exact absurd (notLarge here) large
      · rw [if_neg stops] at present ⊢
        rw [List.length_cons, List.length_cons, Nat.add_right_cancel_iff]
        apply ih
        · intro first index below node on found
          apply small (tableIndex address shift :: first) index below node
          · rw [List.map_cons, on, List.cons_append]
          · rw [RadixTree.descend_cons, Machine.lowerChild, if_pos inside, entryTarget,
              if_neg stops]
            exact found
        · exact fun entry member => present entry (List.mem_cons_of_mem _ member)

/-- The first entry of a walk comes from the root. -/
theorem rootEntry_mem (machine : Machine) (root address : U64)
    : machine.entry root (tableIndex address 39) ∈ machine.cpuEntries root address := by
  unfold Machine.cpuEntries walkShifts
  rw [Machine.cpuWalk]
  split <;> exact List.mem_cons_self

theorem tableIndex_lt (address : U64) (shift : Nat) : tableIndex address shift < 512 := by
  rw [tableIndex_eq]
  exact Nat.mod_lt _ (by decide)

/-- An access that may write may also read. -/
theorem Machine.cpuAccess_reads {machine : Machine} {root address : U64} {user : Bool} {place : Nat}
    (found : machine.cpuAccess root user true address = some place)
    : machine.cpuAccess root user false address = some place := by
  unfold cpuAccess at found ⊢
  dsimp only at found ⊢
  split at found
  · next allowed =>
      obtain ⟨canonical, length, permits⟩ := allowed
      rw [if_pos, found]
      refine ⟨canonical, length, fun entry member => ?_⟩
      obtain ⟨present, user, _⟩ := permits entry member
      refine ⟨present, user, fun impossible => ?_⟩
      cases impossible
  · cases found

namespace Machine.SpaceFormed

variable {machine : Machine} {space : AddressSpace} {paths : Finset (List Nat)}

/-- A walk for CPL3 that is allowed everywhere stays in the lower half. -/
theorem user_low (formed : machine.SpaceFormed space paths) {address : U64}
    (canonical : Canonical address)
    (user : ∀ entry ∈ machine.cpuEntries space.root address, entry &&& pteUser ≠ 0)
    : address.toNat < 2 ^ 47 := by
  rcases canonical with low | high
  · exact low
  · have upper : 256 ≤ tableIndex address 39 := by
      have bound := address.isLt
      rw [tableIndex_eq]
      omega
    have supervisor := formed.supervisor _ upper (tableIndex_lt address 39)
    exact absurd supervisor (user _ (rootEntry_mem machine space.root address))

/-- In the lower half every walk over present entries has four levels. -/
theorem four_levels (formed : machine.SpaceFormed space paths) {address : U64}
    (low : address.toNat < 2 ^ 47)
    (present : ∀ entry ∈ machine.cpuEntries space.root address, entry &&& ptePresent ≠ 0)
    : (machine.cpuEntries space.root address).length = 4 := by
  have page : address.toNat / pageSize < lowerPages := by
    simp only [pageSize, lowerPages]
    omega
  apply cpuWalk_length machine space.root address 12 upperShifts space.root _ present
  intro first index rest node on found
  rw [pagePath_eq] at on
  have inside := formed.index_inside page on found
  refine ⟨inside, fun present => ?_⟩
  have length := congrArg List.length on
  rw [pagePath_length, List.length_append, List.length_cons] at length
  exact (formed.permissive first node index (by omega) found inside present).1

/-- Four present levels are exactly a page of the map; its frame and permissions are those
that the processor applies.
-/
theorem mapping_cpu (formed : machine.SpaceFormed space paths) (ready : machine.Ready)
    (address : U64)
    : machine.mapping space.root (address.toNat / pageSize)
      = if machine.FourPresent space.root address then
          some
            (((machine.cpuEntries space.root address).getLastD 0) &&& pteAddress,
              flagsThrough (vmWrite ||| vmUser ||| vmExec)
                (machine.cpuEntries space.root address))
        else none := by
  have same := (formed.vmLookup_eq ready address 0 0).symm.trans
    (vmLookup_cpu machine space address 0 0)
  unfold lookupReply at same
  by_cases four : machine.FourPresent space.root address
  · rw [if_pos four] at same ⊢
    cases mapped : machine.mapping space.root (address.toNat / pageSize) with
    | none =>
        rw [mapped] at same
        cases same
    | some found =>
        rw [mapped] at same
        simp only [Prod.mk.injEq, true_and] at same
        rw [← same.2, ← add_right_cancel same.1]
  · rw [if_neg four] at same ⊢
    cases mapped : machine.mapping space.root (address.toNat / pageSize) with
    | none => rfl
    | some found =>
        rw [mapped] at same
        cases same

/-- CPL3 reaches a byte exactly through a page of the map with the user flag, and writes it
exactly if the page also has the write flag.
-/
theorem cpuAccess_user (formed : machine.SpaceFormed space paths) (ready : machine.Ready)
    (writing : Bool) (address : U64) (place : Nat)
    : machine.cpuAccess space.root true writing address = some place
      ↔ ∃ frame permissions,
          machine.mapping space.root (address.toNat / pageSize) = some (frame, permissions)
          ∧ permissions &&& vmUser ≠ 0
          ∧ (writing = true → permissions &&& vmWrite ≠ 0)
          ∧ place = pageByte frame address := by
  have user := flagsThrough_user (vmWrite ||| vmUser ||| vmExec)
    (machine.cpuEntries space.root address)
  have write := flagsThrough_write (vmWrite ||| vmUser ||| vmExec)
    (machine.cpuEntries space.root address)
  have byte (four : (machine.cpuEntries space.root address).length = 4)
      : physicalByte (machine.cpuEntries space.root address) address
        = pageByte ((machine.cpuEntries space.root address).getLastD 0 &&& pteAddress)
          address := by
    rw [physicalByte, four]
    rfl
  rw [formed.mapping_cpu ready]
  constructor
  · intro found
    unfold cpuAccess at found
    dsimp only at found
    split at found
    · next allowed =>
        obtain ⟨canonical, _, permits⟩ := allowed
        have present := fun entry member => (permits entry member).1
        have users := fun entry member => (permits entry member).2.1 rfl
        have low := formed.user_low canonical users
        have four := formed.four_levels low present
        rw [if_pos ⟨formed.root_ne_zero ready, low, four, present⟩]
        refine ⟨_, _, rfl, user.mpr ⟨by decide, users⟩, fun writing => write.mpr ⟨by decide, ?_⟩, ?_⟩
        · exact fun entry member => (permits entry member).2.2 writing
        · rw [← byte four]
          exact (Option.some.inj found).symm
    · cases found
  · intro reached
    obtain ⟨frame, permissions, mapped, users, writes, rfl⟩ := reached
    split at mapped
    · next accepted =>
        obtain ⟨_, low, four, present⟩ := accepted
        cases mapped
        have access : machine.SmallPageAccess space.root true writing address := by
          refine ⟨four, fun entry member => ⟨present entry member, fun _ => ?_, fun writing => ?_⟩⟩
          · exact (user.mp users).2 entry member
          · exact (write.mp (writes writing)).2 entry member
        rw [access.cpuAccess low, byte four]
    · cases mapped

end Machine.SpaceFormed

end MiniLinux

import Mathlib.Tactic

/-! Trees of nodes linked by indexed child slots, of a bounded depth.
A tree is given by its child function alone; no node record is stored. Each node is
reached by at most one path, so writing one slot changes one subtree.
-/

namespace Foundation.RadixTree

variable {ν ι : Type*}

/-- Follows `path` downwards from `node`. -/
def descend (child : ν → ι → Option ν) (node : ν) (path : List ι) : Option ν :=
  path.foldlM child node

/-- No node within `depth` is reached by two different paths. -/
def Unshared (child : ν → ι → Option ν) (root : ν) (depth : Nat) : Prop :=
  ∀ first second node,
    first.length ≤ depth
    → second.length ≤ depth
    → descend child root first = some node
    → descend child root second = some node
    → first = second

-----------------------------------------------------------------------------------------
-- Descending
-----------------------------------------------------------------------------------------

@[simp] theorem descend_nil (child : ν → ι → Option ν) (node : ν)
    : descend child node [] = some node :=
  rfl

theorem descend_cons (child : ν → ι → Option ν) (node : ν) (index : ι) (rest : List ι)
    : descend child node (index :: rest)
      = (child node index).bind fun next => descend child next rest :=
  rfl

theorem descend_append (child : ν → ι → Option ν) (node : ν) (first rest : List ι)
    : descend child node (first ++ rest)
      = (descend child node first).bind fun next => descend child next rest :=
  List.foldlM_append

theorem descend_concat (child : ν → ι → Option ν) (node : ν) (path : List ι) (index : ι)
    : descend child node (path ++ [index])
      = (descend child node path).bind fun parent => child parent index := by
  rw [descend_append]
  congr 1
  funext parent
  simp [descend_cons]

/-- Every initial part of an existing path exists. -/
theorem descend_initial {child : ν → ι → Option ν} {root node : ν} {first rest : List ι}
    (found : descend child root (first ++ rest) = some node)
    : ∃ middle, descend child root first = some middle := by
  rw [descend_append] at found
  cases reached : descend child root first with
  | none => simp [reached] at found
  | some middle => exact ⟨middle, rfl⟩

/-- Descending reads only the slots of the nodes passed, by induction on the path from its
last step.
-/
theorem descend_congr {child child' : ν → ι → Option ν} {root : ν} {depth : Nat}
    (same
      : ∀ path node index,
          path.length < depth
          → descend child root path = some node
          → child' node index = child node index)
    (path : List ι) (bound : path.length ≤ depth)
    : descend child' root path = descend child root path := by
  induction path using List.reverseRecOn with
  | nil => rfl
  | append_singleton path index ih =>
      simp only [List.length_append, List.length_singleton] at bound
      rw [descend_concat, descend_concat, ih (by omega)]
      cases reached : descend child root path with
      | none => rfl
      | some node => exact same path node index (by omega) reached

/-- A root without children is the whole tree. -/
theorem descend_of_childless {child : ν → ι → Option ν} {root node : ν}
    (childless : ∀ index, child root index = none) {path : List ι}
    (found : descend child root path = some node)
    : path = [] := by
  cases path with
  | nil => rfl
  | cons index rest => simp [descend_cons, childless] at found

theorem unshared_of_childless {child : ν → ι → Option ν} {root : ν}
    (childless : ∀ index, child root index = none) (depth : Nat)
    : Unshared child root depth := by
  intro first second node _ _ left right
  rw [descend_of_childless childless left, descend_of_childless childless right]

theorem Unshared.congr {child child' : ν → ι → Option ν} {root : ν} {depth : Nat}
    (unshared : Unshared child root depth)
    (same
      : ∀ path node index,
          path.length < depth
          → descend child root path = some node
          → child' node index = child node index)
    : Unshared child' root depth := by
  intro first second node short short' left right
  rw [descend_congr same _ short] at left
  rw [descend_congr same _ short'] at right
  exact unshared first second node short short' left right

-----------------------------------------------------------------------------------------
-- Linking a fresh node
-----------------------------------------------------------------------------------------

/-- `child'` is `child` with the childless, so far unreached node `fresh` linked into the
empty slot `index` of the node at `parentPath`.
-/
structure Linked (child child' : ν → ι → Option ν) (root : ν) (depth : Nat)
    (parentPath : List ι) (parent : ν) (index : ι) (fresh : ν)
    : Prop where
  parentFound : descend child root parentPath = some parent
  shallow : parentPath.length < depth
  slotEmpty : child parent index = none
  unreached : ∀ path, path.length ≤ depth → descend child root path ≠ some fresh
  slotLinked : child' parent index = some fresh
  freshChildless : ∀ next, child' fresh next = none
  otherSlots
    : ∀ path node next,
        path.length < depth
        → descend child root path = some node
        → ¬(node = parent ∧ next = index)
        → child' node next = child node next

variable {child child' : ν → ι → Option ν} {root : ν} {depth : Nat}
  {parentPath : List ι} {parent : ν} {index : ι} {fresh : ν}

/-- Linking adds exactly the path to the fresh node.
Witness: induction on the path from its last step; a step out of the parent is found by
its unique path, and the fresh node has no steps.
-/
theorem Linked.descend [DecidableEq ι]
    (link : Linked child child' root depth parentPath parent index fresh)
    (unshared : Unshared child root depth)
    (path : List ι) (bound : path.length ≤ depth)
    : RadixTree.descend child' root path
      = if path = parentPath ++ [index] then some fresh
        else RadixTree.descend child root path := by
  induction path using List.reverseRecOn with
  | nil => simp
  | append_singleton path next ih =>
      simp only [List.length_append, List.length_singleton] at bound
      rw [descend_concat, ih (by omega)]
      by_cases below : path = parentPath ++ [index]
      · subst path
        have absent : RadixTree.descend child root (parentPath ++ [index]) = none := by
          rw [descend_concat, link.parentFound]
          exact link.slotEmpty
        have longer : parentPath ++ [index] ++ [next] ≠ parentPath ++ [index] := by simp
        rw [if_pos rfl, if_neg longer, descend_concat, absent]
        exact link.freshChildless next
      · rw [if_neg below, descend_concat]
        cases reached : RadixTree.descend child root path with
        | none =>
            have elsewhere : path ++ [next] ≠ parentPath ++ [index] := by
              intro same
              have paths := (List.append_inj_left' same rfl)
              rw [paths, link.parentFound] at reached
              cases reached
            rw [if_neg elsewhere]
            rfl
        | some node =>
            by_cases slot : node = parent ∧ next = index
            · obtain ⟨rfl, rfl⟩ := slot
              have paths := unshared path parentPath node (by omega)
                (Nat.le_of_lt link.shallow) reached link.parentFound
              rw [paths, if_pos rfl]
              exact link.slotLinked
            · have elsewhere : path ++ [next] ≠ parentPath ++ [index] := by
                intro same
                obtain ⟨paths, indices⟩ := List.append_inj' same rfl
                rw [paths, link.parentFound] at reached
                exact slot ⟨(Option.some.inj reached).symm, List.singleton_inj.mp indices⟩
              rw [if_neg elsewhere]
              exact link.otherSlots path node next (by omega) reached slot

/-- Linking a fresh node keeps every node on one path. -/
theorem Linked.unshared [DecidableEq ι]
    (link : Linked child child' root depth parentPath parent index fresh)
    (unshared : Unshared child root depth)
    : Unshared child' root depth := by
  intro first second node short short' left right
  rw [link.descend unshared _ short] at left
  rw [link.descend unshared _ short'] at right
  by_cases new : first = parentPath ++ [index]
  · by_cases new' : second = parentPath ++ [index]
    · rw [new, new']
    · rw [if_pos new] at left
      rw [if_neg new', ← left] at right
      exact (link.unreached second short' right).elim
  · by_cases new' : second = parentPath ++ [index]
    · rw [if_pos new'] at right
      rw [if_neg new, ← right] at left
      exact (link.unreached first short left).elim
    · rw [if_neg new] at left
      rw [if_neg new'] at right
      exact unshared first second node short short' left right

end Foundation.RadixTree

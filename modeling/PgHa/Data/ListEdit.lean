import Mathlib.Data.List.Basic
import Mathlib.Data.List.Perm.Basic

/-!
# Edits of a list that stands for a set

A set is kept as a list: an item is added at the end unless it is there, and
removed wherever it is.  The list remembers an order that the set does not have,
so edits of different items commute up to a permutation only
(`perm_apply_comm`).  What they do to the set is decided by the last edit of
each item (`mem_applyAll`).
-/

/-- An edit adds an item or removes it. -/
structure ListEdit (α : Type) where
  item : α
  adds : Bool

namespace ListEdit

variable {α : Type} [DecidableEq α]

def apply (edit : ListEdit α) (list : List α) : List α :=
  if edit.adds then (if edit.item ∈ list then list else list ++ [edit.item])
  else list.filter (· ≠ edit.item)

/-- The edits, one after the other. -/
def applyAll (edits : List (ListEdit α)) (list : List α) : List α :=
  edits.foldl (fun list edit => edit.apply list) list

/-- What the last edit of the item asks for, if there is one. -/
def lastOf (item : α) : List (ListEdit α) → Option Bool
  | [] => none
  | edit :: edits => (lastOf item edits).or (if edit.item = item then some edit.adds else none)

variable {edit other : ListEdit α} {edits : List (ListEdit α)} {item : α} {list list' : List α}

theorem applyAll_cons : applyAll (edit :: edits) list = applyAll edits (edit.apply list) := rfl

theorem applyAll_append (first second : List (ListEdit α)) :
    applyAll (first ++ second) list = applyAll second (applyAll first list) :=
  List.foldl_append

/-! ## One edit -/

theorem mem_apply_self : edit.item ∈ edit.apply list ↔ edit.adds = true := by
  unfold apply
  cases edit.adds with
  | true =>
      rw [if_pos rfl]
      split <;> simp_all
  | false => simp

theorem mem_apply_of_ne (hitem : item ≠ edit.item) : item ∈ edit.apply list ↔ item ∈ list := by
  unfold apply
  split
  · split <;> simp [hitem]
  · simp [hitem]

/-- An edit that asks for what is there already changes nothing. -/
theorem apply_of_settled (h : edit.item ∈ list ↔ edit.adds = true) : edit.apply list = list := by
  unfold apply
  cases hadds : edit.adds with
  | true => rw [if_pos rfl, if_pos (h.mpr hadds)]
  | false =>
      have hnot : edit.item ∉ list := fun hmem => by simp [h.mp hmem] at hadds
      rw [if_neg (by simp), List.filter_eq_self]
      intro item hmem
      have hne : item ≠ edit.item := fun heq => hnot (heq ▸ hmem)
      simpa using hne

theorem apply_apply : edit.apply (edit.apply list) = edit.apply list :=
  apply_of_settled mem_apply_self

theorem add_of_mem (h : item ∈ list) : apply ⟨item, true⟩ list = list :=
  apply_of_settled (iff_of_true h rfl)

theorem add_of_notMem (h : item ∉ list) : apply ⟨item, true⟩ list = list ++ [item] := by
  rw [apply, if_pos rfl, if_neg h]

theorem remove_eq_filter : apply ⟨item, false⟩ list = list.filter (· ≠ item) := by
  rw [apply, if_neg (by simp)]

/-- Adding an item that is absent and removing it again gives the list back,
in its order. -/
theorem remove_add (h : item ∉ list) : apply ⟨item, false⟩ (apply ⟨item, true⟩ list) = list := by
  rw [add_of_notMem h, remove_eq_filter, List.filter_append]
  have hkept : list.filter (· ≠ item) = list := by
    rw [List.filter_eq_self]
    intro kept hmem
    have hne : kept ≠ item := fun heq => h (heq ▸ hmem)
    simpa using hne
  rw [hkept]
  simp

theorem perm_apply (h : list.Perm list') : (edit.apply list).Perm (edit.apply list') := by
  unfold apply
  split
  · by_cases hmem : edit.item ∈ list
    · rw [if_pos hmem, if_pos (h.mem_iff.mp hmem)]
      exact h
    · rw [if_neg hmem, if_neg (fun hmem' => hmem (h.mem_iff.mpr hmem'))]
      exact h.append_right _
  · exact h.filter _

theorem perm_applyAll (h : list.Perm list') :
    (applyAll edits list).Perm (applyAll edits list') := by
  induction edits generalizing list list' with
  | nil => exact h
  | cons edit edits ih => exact ih (perm_apply h)

/-! ## Edits of different items -/

/-- Adding one item and removing another commute on the list itself. -/
theorem add_remove_comm {added removed : α} (hne : added ≠ removed) :
    apply ⟨removed, false⟩ (apply ⟨added, true⟩ list) =
      apply ⟨added, true⟩ (apply ⟨removed, false⟩ list) := by
  have hkeep : added ∈ apply ⟨removed, false⟩ list ↔ added ∈ list := mem_apply_of_ne hne
  by_cases hmem : added ∈ list
  · rw [add_of_mem hmem, add_of_mem (hkeep.mpr hmem)]
  · rw [add_of_notMem hmem, add_of_notMem (fun h => hmem (hkeep.mp h))]
    simp [remove_eq_filter, List.filter_append, hne]

theorem add_add_comm {first second : α} (hne : first ≠ second) :
    (apply ⟨second, true⟩ (apply ⟨first, true⟩ list)).Perm
      (apply ⟨first, true⟩ (apply ⟨second, true⟩ list)) := by
  have hfirst : first ∈ apply ⟨second, true⟩ list ↔ first ∈ list := mem_apply_of_ne hne
  have hsecond : second ∈ apply ⟨first, true⟩ list ↔ second ∈ list := mem_apply_of_ne hne.symm
  by_cases hmem : first ∈ list
  · rw [add_of_mem hmem, add_of_mem (hfirst.mpr hmem)]
  · by_cases hmem' : second ∈ list
    · rw [add_of_mem hmem', add_of_mem (hsecond.mpr hmem')]
    · -- both are appended, in one order or the other
      rw [add_of_notMem (fun h => hmem' (hsecond.mp h)), add_of_notMem hmem,
        add_of_notMem (fun h => hmem (hfirst.mp h)), add_of_notMem hmem',
        List.append_assoc, List.append_assoc]
      exact (List.Perm.swap ..).append_left list

theorem remove_remove_comm {first second : α} :
    apply ⟨second, false⟩ (apply ⟨first, false⟩ list) =
      apply ⟨first, false⟩ (apply ⟨second, false⟩ list) := by
  simp [remove_eq_filter, List.filter_filter, Bool.and_comm]

/-- Edits of different items commute, up to the order of the list. -/
theorem perm_apply_comm (hne : edit.item ≠ other.item) :
    (other.apply (edit.apply list)).Perm (edit.apply (other.apply list)) := by
  obtain ⟨first, adds⟩ := edit
  obtain ⟨second, adds'⟩ := other
  cases adds <;> cases adds'
  · exact .of_eq remove_remove_comm
  · exact .of_eq (add_remove_comm (Ne.symm hne)).symm
  · exact .of_eq (add_remove_comm hne)
  · exact add_add_comm hne

/-! ## Many edits -/

/-- The last edit of an item decides whether it is there. -/
theorem mem_applyAll : item ∈ applyAll edits list ↔
    lastOf item edits = some true ∨ lastOf item edits = none ∧ item ∈ list := by
  induction edits generalizing list with
  | nil => simp [applyAll, lastOf]
  | cons edit edits ih =>
      rw [applyAll_cons, ih, lastOf]
      cases lastOf item edits with
      | some adds => simp
      | none =>
          by_cases hitem : edit.item = item
          · subst hitem
            simp [mem_apply_self]
          · simp [hitem, mem_apply_of_ne (Ne.symm hitem)]

theorem lastOf_eq_none (h : ∀ edit ∈ edits, edit.item ≠ item) : lastOf item edits = none := by
  induction edits with
  | nil => rfl
  | cons edit edits ih =>
      rw [lastOf, ih fun edit hmem => h edit (List.mem_cons_of_mem _ hmem),
        if_neg (h edit List.mem_cons_self)]
      rfl

theorem count_apply_le [BEq α] [LawfulBEq α] (h : list.count item ≤ 1) :
    (edit.apply list).count item ≤ 1 := by
  unfold apply
  split
  · split
    · exact h
    · rename_i hnot
      by_cases hitem : edit.item = item
      · subst hitem
        simp [List.count_append, List.count_eq_zero.mpr hnot]
      · have hnone : [edit.item].count item = 0 := by simp [hitem]
        rw [List.count_append, hnone]
        exact h
  · exact Nat.le_trans (List.filter_sublist.count_le item) h

/-- An item that is listed at most once stays so. -/
theorem count_applyAll_le [BEq α] [LawfulBEq α] (h : list.count item ≤ 1) :
    (applyAll edits list).count item ≤ 1 := by
  induction edits generalizing list with
  | nil => exact h
  | cons edit edits ih => exact ih (count_apply_le h)

end ListEdit

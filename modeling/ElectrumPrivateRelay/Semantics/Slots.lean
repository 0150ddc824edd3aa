import Mathlib.Algebra.BigOperators.Ring.List
import Mathlib.Algebra.Order.BigOperators.Group.Finset
import Mathlib.Algebra.Ring.Nat

/-! Weighted totals over a growing table of concurrent activities.

A table is a list; an activity keeps its position for its whole life. A
resource that the activities hold is accounted for by a weight per activity,
and one step of one activity changes the total by its own difference only.
-/

set_option autoImplicit false

namespace Semantics

variable {Activity : Type}

def total (weight : Activity → Nat) (table : List Activity) : Nat :=
  (table.map weight).sum

@[simp] theorem total_nil (weight : Activity → Nat) : total weight [] = 0 := rfl

@[simp] theorem total_cons (weight : Activity → Nat) (activity : Activity) (table : List Activity) :
    total weight (activity :: table) = weight activity + total weight table := by
  simp [total]

@[simp] theorem total_append (weight : Activity → Nat) (first rest : List Activity) :
    total weight (first ++ rest) = total weight first + total weight rest := by
  simp [total]

theorem total_mul (factor : Nat) (weight : Activity → Nat) (table : List Activity) :
    total (fun activity => factor * weight activity) table = factor * total weight table :=
  List.sum_map_mul_left table weight factor

theorem total_set (weight : Activity → Nat) {table : List Activity} {position : Nat}
    {activity : Activity} (selected : table[position]? = some activity) (changed : Activity) :
    total weight (table.set position changed) + weight activity =
      total weight table + weight changed := by
  induction table generalizing position with
  | nil => simp at selected
  | cons first rest ih =>
    cases position with
    | zero =>
      simp only [List.getElem?_cons_zero, Option.some.injEq] at selected
      subst selected
      simp only [List.set_cons_zero, total_cons]
      omega
    | succ position =>
      have tail := ih (by simpa using selected)
      simp only [List.set_cons_succ, total_cons]
      omega

theorem weight_le_total (weight : Activity → Nat) {table : List Activity} {position : Nat}
    {activity : Activity} (selected : table[position]? = some activity) :
    weight activity ≤ total weight table := by
  induction table generalizing position with
  | nil => simp at selected
  | cons first rest ih =>
    cases position with
    | zero =>
      simp only [List.getElem?_cons_zero, Option.some.injEq] at selected
      subst selected
      simp
    | succ position =>
      have tail := ih (by simpa using selected)
      simp only [total_cons]
      omega

theorem total_mono {lower upper : Activity → Nat} (table : List Activity)
    (pointwise : ∀ activity ∈ table, lower activity ≤ upper activity) :
    total lower table ≤ total upper table := by
  induction table with
  | nil => simp
  | cons first rest ih =>
    have head := pointwise first (by simp)
    have tail := ih fun activity member => pointwise activity (List.mem_cons_of_mem first member)
    simp only [total_cons]
    omega

theorem total_eq_zero {weight : Activity → Nat} {table : List Activity}
    (weightless : ∀ activity ∈ table, weight activity = 0) : total weight table = 0 := by
  induction table with
  | nil => rfl
  | cons first rest ih =>
    have head := weightless first (by simp)
    have tail := ih fun activity member => weightless activity (List.mem_cons_of_mem first member)
    simp only [total_cons, head, tail]

/-- Entries that belong to different owners weigh no more than the owners do. -/
theorem total_le_of_owners {Owned Owner : Type} {weight : Owned → Nat} {bound : Owner → Nat} {table : List Owned}
    {others : List Owner} {owners : List Nat} (length : owners.length = table.length) (distinct : owners.Nodup)
    (within : ∀ (position index : Nat) (entry : Owned), owners[position]? = some index → table[position]? = some entry →
      ∃ owner, others[index]? = some owner ∧ weight entry ≤ bound owner) :
    total weight table ≤ total bound others := by
  let share (index : Nat) : Nat := (others[index]?.map bound).getD 0
  have pointwise : total weight table ≤ (owners.map share).sum := by
    clear distinct
    induction table generalizing owners with
    | nil => exact Nat.zero_le _
    | cons entry rest ih =>
      cases owners with
      | nil => cases length
      | cons index indices =>
        obtain ⟨owner, found, below⟩ := within 0 index entry rfl rfl
        have first : share index = bound owner := by simp only [share, found, Option.map_some, Option.getD_some]
        have later := ih (Nat.succ.inj length) fun position => within (position + 1)
        rw [total_cons, List.map_cons, List.sum_cons, first]
        omega
  have inside : ∀ index ∈ owners, index < others.length := by
    intro index member
    obtain ⟨position, owned⟩ := List.mem_iff_getElem?.mp member
    have here : position < table.length := by
      rw [← length]
      exact (List.getElem?_eq_some_iff.mp owned).1
    obtain ⟨owner, found, -⟩ := within position index _ owned (List.getElem?_eq_getElem here)
    exact (List.getElem?_eq_some_iff.mp found).1
  have all : others.map bound = (List.range others.length).map share := by
    apply List.ext_getElem?
    intro index
    by_cases here : index < others.length
    · simp [share, here]
    · simp [here]
  calc total weight table ≤ (owners.map share).sum := pointwise
    _ = owners.toFinset.sum share := (List.sum_toFinset share distinct).symm
    _ ≤ (List.range others.length).toFinset.sum share := by
      apply Finset.sum_le_sum_of_subset
      intro index member
      simpa using inside index (List.mem_toFinset.mp member)
    _ = ((List.range others.length).map share).sum := List.sum_toFinset share List.nodup_range
    _ = total bound others := by rw [← all, total]

theorem forall_set {motive : Activity → Prop} {table : List Activity} (position : Nat)
    {changed : Activity} (all : ∀ activity ∈ table, motive activity) (new : motive changed) :
    ∀ activity ∈ table.set position changed, motive activity := by
  intro activity member
  rcases List.mem_or_eq_of_mem_set member with old | same
  · exact all activity old
  · exact same ▸ new

/-- A table after one step: untouched, extended by a fresh activity, or moved
at one position along the life cycle of its activity. -/
inductive Advances (moves : Activity → Activity → Prop) (fresh : Activity)
    (before : List Activity) : List Activity → Prop where
  | same : Advances moves fresh before before
  | grows : Advances moves fresh before (before ++ [fresh])
  | moved {position : Nat} {activity changed : Activity} :
      before[position]? = some activity → moves activity changed →
      Advances moves fresh before (before.set position changed)

theorem Advances.keeps {moves : Activity → Activity → Prop} {fresh : Activity}
    {before after : List Activity} (advances : Advances moves fresh before after)
    {motive : Activity → Prop}
    (closed : ∀ activity changed, motive activity → moves activity changed → motive changed)
    {position : Nat} {activity : Activity} (selected : before[position]? = some activity)
    (holds : motive activity) : ∃ later, after[position]? = some later ∧ motive later := by
  cases advances with
  | same => exact ⟨activity, selected, holds⟩
  | grows =>
    have bound := (List.getElem?_eq_some_iff.mp selected).1
    exact ⟨activity, by rw [List.getElem?_append_left bound, selected], holds⟩
  | @moved other current changed found move =>
    -- Either this activity moved, or another one did and it was left alone.
    by_cases same : other = position
    · subst same
      have bound := (List.getElem?_eq_some_iff.mp selected).1
      have identical : current = activity := Option.some.inj (found.symm.trans selected)
      subst identical
      exact ⟨changed, List.getElem?_set_self bound, closed _ _ holds move⟩
    · exact ⟨activity, by rw [List.getElem?_set_ne same, selected], holds⟩

theorem Advances.final {moves : Activity → Activity → Prop} {fresh : Activity}
    {before after : List Activity} (advances : Advances moves fresh before after)
    {position : Nat} {activity : Activity} (selected : before[position]? = some activity)
    (finished : ∀ changed, ¬ moves activity changed) : after[position]? = some activity := by
  obtain ⟨later, found, rfl⟩ := advances.keeps (motive := (· = activity))
    (fun _ changed same move => absurd (same ▸ move) (finished changed)) selected rfl
  exact found

theorem Advances.origin {moves : Activity → Activity → Prop} {fresh : Activity}
    {before after : List Activity} (advances : Advances moves fresh before after)
    {position : Nat} {later : Activity} (found : after[position]? = some later) :
    later = fresh ∨
      ∃ activity, before[position]? = some activity ∧ (later = activity ∨ moves activity later) := by
  cases advances with
  | same => exact .inr ⟨later, found, .inl rfl⟩
  | grows =>
    by_cases old : position < before.length
    · rw [List.getElem?_append_left old] at found
      exact .inr ⟨later, found, .inl rfl⟩
    · rw [List.getElem?_append_right (Nat.le_of_not_lt old)] at found
      exact .inl (List.mem_singleton.mp (List.mem_of_getElem? found))
  | @moved other current changed selected move =>
    by_cases same : other = position
    · subst same
      rw [List.getElem?_set_self (List.getElem?_eq_some_iff.mp selected).1] at found
      exact .inr ⟨current, selected, .inr (Option.some.inj found ▸ move)⟩
    · rw [List.getElem?_set_ne same] at found
      exact .inr ⟨later, found, .inl rfl⟩

theorem Advances.preserves {moves : Activity → Activity → Prop} {fresh : Activity}
    {before after : List Activity} (advances : Advances moves fresh before after)
    {motive : Activity → Prop} (initially : motive fresh)
    (closed : ∀ activity changed, motive activity → moves activity changed → motive changed)
    (all : ∀ activity ∈ before, motive activity) : ∀ activity ∈ after, motive activity := by
  cases advances with
  | same => exact all
  | grows =>
    intro activity member
    rcases List.mem_append.mp member with old | new
    · exact all activity old
    · exact List.mem_singleton.mp new ▸ initially
  | @moved position activity changed found move =>
    exact forall_set position all (closed _ _ (all _ (List.mem_of_getElem? found)) move)

end Semantics

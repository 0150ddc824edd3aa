import ElectrumPrivateRelay.Json.Dumping
import Mathlib.Data.List.Sort

/-! The order in which the members of a dictionary are written.

`sort_keys` gives one text to all values that differ in the order of their
members only, and two texts to any other two.
-/

set_option autoImplicit false

namespace Json

def sortMembers (members : List (String × Datum)) : List (String × Datum) :=
  members.insertionSort fun left right => left.1 ≤ right.1

mutual

/-- `sort_keys`: the members of every dictionary in the order of their names. -/
def Datum.canonical : Datum → Datum
  | .none => .none
  | .bool value => .bool value
  | .int value => .int value
  | .str value => .str value
  | .list elements => .list (canonicalElements elements)
  | .dict members => .dict (sortMembers (canonicalMembers members))

def canonicalElements : List Datum → List Datum
  | [] => []
  | element :: rest => element.canonical :: canonicalElements rest

def canonicalMembers : List (String × Datum) → List (String × Datum)
  | [] => []
  | (name, value) :: rest => (name, value.canonical) :: canonicalMembers rest

end

def dumps (value : Datum) : List Char := value.canonical.dump 0

mutual

/-- No dictionary has two members of one name. -/
def Datum.KeysDistinct : Datum → Prop
  | .none | .bool _ | .int _ | .str _ => True
  | .list elements => ElementsDistinct elements
  | .dict members => (members.map Prod.fst).Nodup ∧ MembersDistinct members

def ElementsDistinct : List Datum → Prop
  | [] => True
  | element :: rest => element.KeysDistinct ∧ ElementsDistinct rest

def MembersDistinct : List (String × Datum) → Prop
  | [] => True
  | (_, value) :: rest => value.KeysDistinct ∧ MembersDistinct rest

end

mutual

/-- Equal up to the order of the members of dictionaries. -/
def Datum.SameAs : Datum → Datum → Prop
  | .none, .none => True
  | .bool left, .bool right => left = right
  | .int left, .int right => left = right
  | .str left, .str right => left = right
  | .list left, .list right => ElementsSameAs left right
  | .dict left, .dict right => left.length = right.length ∧ MembersFoundIn left right
  | _, _ => False

def ElementsSameAs : List Datum → List Datum → Prop
  | [], [] => True
  | left :: lefts, right :: rights => left.SameAs right ∧ ElementsSameAs lefts rights
  | _, _ => False

def MembersFoundIn : List (String × Datum) → List (String × Datum) → Prop
  | [], _ => True
  | (name, value) :: rest, others =>
    (∃ other, (name, other) ∈ others ∧ value.SameAs other) ∧ MembersFoundIn rest others

end

theorem membersFoundIn_iff {left right : List (String × Datum)} :
    MembersFoundIn left right ↔ ∀ member ∈ left, ∃ other, (member.1, other) ∈ right ∧ member.2.SameAs other := by
  induction left with
  | nil => simp [MembersFoundIn]
  | cons member rest ih => rw [MembersFoundIn, ih, List.forall_mem_cons]

theorem sameAs_of_members {left right : List (String × Datum)} (same : (Datum.dict left).SameAs (.dict right))
    (distinct : (Datum.dict right).KeysDistinct) {name : String} {value other : Datum} (first second : Nat)
    (here : left[first]? = some (name, value)) (there : right[second]? = some (name, other)) : value.SameAs other := by
  obtain ⟨found, member, sameValue⟩ := membersFoundIn_iff.mp same.2 _ (List.mem_of_getElem? here)
  have unique := List.inj_on_of_nodup_map distinct.1 member (List.mem_of_getElem? there) rfl
  rw [Prod.mk.injEq] at unique
  exact unique.2 ▸ sameValue

theorem canonicalMembers_eq_map (members : List (String × Datum)) :
    canonicalMembers members = members.map fun member => (member.1, member.2.canonical) := by
  induction members with
  | nil => rfl
  | cons member rest ih => rw [canonicalMembers, ih, List.map_cons]

theorem canonicalMembers_names (members : List (String × Datum)) :
    (canonicalMembers members).map Prod.fst = members.map Prod.fst := by
  rw [canonicalMembers_eq_map, List.map_map]
  rfl

theorem sortMembers_perm (members : List (String × Datum)) : (sortMembers members).Perm members :=
  List.perm_insertionSort _ members

theorem sortMembers_eq_iff {left right : List (String × Datum)} (distinct : (left.map Prod.fst).Nodup) :
    sortMembers left = sortMembers right ↔ left.Perm right := by
  constructor
  · intro same
    exact (sortMembers_perm left).symm.trans (same ▸ sortMembers_perm right)
  · intro perm
    have : Std.Total fun left right : String × Datum => left.1 ≤ right.1 :=
      ⟨fun left right => String.le_total left.1 right.1⟩
    have : IsTrans (String × Datum) fun left right => left.1 ≤ right.1 :=
      ⟨fun _ _ _ => String.le_trans⟩
    have both := (sortMembers_perm left).trans (perm.trans (sortMembers_perm right).symm)
    refine List.Perm.eq_of_pairwise ?_ (List.pairwise_insertionSort _ left) (List.pairwise_insertionSort _ right) both
    intro first second inLeft inRight below above
    have name : first.1 = second.1 := String.le_antisymm below above
    exact List.inj_on_of_nodup_map distinct ((sortMembers_perm left).mem_iff.mp inLeft)
      (perm.mem_iff.mpr ((sortMembers_perm right).mem_iff.mp inRight)) name

theorem membersDistinct_iff (members : List (String × Datum)) :
    MembersDistinct members ↔ ∀ member ∈ members, member.2.KeysDistinct := by
  induction members with
  | nil => simp [MembersDistinct]
  | cons member rest ih => rw [MembersDistinct, ih, List.forall_mem_cons]

theorem perm_of_found {left right : List (String × Datum)} (distinct : (left.map Prod.fst).Nodup)
    (lengths : left.length = right.length)
    (found : ∀ member ∈ canonicalMembers left, member ∈ canonicalMembers right) :
    (canonicalMembers left).Perm (canonicalMembers right) := by
  have nodup : (canonicalMembers left).Nodup := by
    apply List.Nodup.of_map Prod.fst
    rw [canonicalMembers_names]
    exact distinct
  exact (List.subperm_of_subset nodup found).perm_of_length_le (by simp [canonicalMembers_eq_map, lengths])

mutual

theorem sameAs_iff_canonical : ∀ left right : Datum, left.KeysDistinct → right.KeysDistinct →
    (left.SameAs right ↔ left.canonical = right.canonical)
  | .none, right, _, _ => by cases right <;> simp [Datum.SameAs, Datum.canonical]
  | .bool _, right, _, _ => by cases right <;> simp [Datum.SameAs, Datum.canonical]
  | .int _, right, _, _ => by cases right <;> simp [Datum.SameAs, Datum.canonical]
  | .str _, right, _, _ => by cases right <;> simp [Datum.SameAs, Datum.canonical]
  | .list left, right, first, second => by
    cases right with
    | list right => simpa [Datum.SameAs, Datum.canonical] using elementsSameAs_iff_canonical left right first second
    | none | bool _ | int _ | str _ | dict _ => simp [Datum.SameAs, Datum.canonical]
  | .dict left, right, first, second => by
    cases right with
    | dict right =>
      have names : ((canonicalMembers left).map Prod.fst).Nodup := by
        rw [canonicalMembers_names]
        exact first.1
      rw [Datum.SameAs, membersFoundIn_iff_canonical left right first.2 second.2, Datum.canonical, Datum.canonical,
        Datum.dict.injEq, sortMembers_eq_iff names]
      constructor
      · intro ⟨lengths, found⟩
        exact perm_of_found first.1 lengths found
      · intro perm
        refine ⟨?_, fun member inLeft => perm.mem_iff.mp inLeft⟩
        simpa [canonicalMembers_eq_map] using perm.length_eq
    | none | bool _ | int _ | str _ | list _ => simp [Datum.SameAs, Datum.canonical]

theorem elementsSameAs_iff_canonical : ∀ left right : List Datum, ElementsDistinct left → ElementsDistinct right →
    (ElementsSameAs left right ↔ canonicalElements left = canonicalElements right)
  | [], right, _, _ => by cases right <;> simp [ElementsSameAs, canonicalElements]
  | element :: rest, right, first, second => by
    cases right with
    | nil => simp [ElementsSameAs, canonicalElements]
    | cons other others =>
      rw [ElementsSameAs, sameAs_iff_canonical element other first.1 second.1,
        elementsSameAs_iff_canonical rest others first.2 second.2, canonicalElements, canonicalElements,
        List.cons.injEq]

theorem membersFoundIn_iff_canonical : ∀ left right : List (String × Datum), MembersDistinct left →
    MembersDistinct right →
    (MembersFoundIn left right ↔ ∀ member ∈ canonicalMembers left, member ∈ canonicalMembers right)
  | [], right, _, _ => by simp [MembersFoundIn, canonicalMembers]
  | (name, value) :: rest, right, first, second => by
    have here : (∃ other, (name, other) ∈ right ∧ value.SameAs other) ↔
        (name, value.canonical) ∈ canonicalMembers right := by
      rw [canonicalMembers_eq_map, List.mem_map]
      constructor
      · rintro ⟨other, member, same⟩
        have distinct := (membersDistinct_iff right).mp second _ member
        exact ⟨_, member, by rw [(sameAs_iff_canonical value other first.1 distinct).mp same]⟩
      · rintro ⟨⟨found, other⟩, member, same⟩
        rw [Prod.mk.injEq] at same
        obtain ⟨rfl, same⟩ := same
        have distinct := (membersDistinct_iff right).mp second _ member
        exact ⟨other, member, (sameAs_iff_canonical value other first.1 distinct).mpr same.symm⟩
    rw [MembersFoundIn, here, membersFoundIn_iff_canonical rest right first.2 second, canonicalMembers,
      List.forall_mem_cons]

end

mutual

theorem canonical_distinct : ∀ value : Datum, value.KeysDistinct → value.canonical.KeysDistinct
  | .none, _ | .bool _, _ | .int _, _ | .str _, _ => by simp [Datum.canonical, Datum.KeysDistinct]
  | .list elements, distinct => by
    rw [Datum.canonical]
    exact canonicalElements_distinct elements distinct
  | .dict members, distinct => by
    have perm := sortMembers_perm (canonicalMembers members)
    rw [Datum.canonical, Datum.KeysDistinct, membersDistinct_iff]
    constructor
    · rw [(perm.map Prod.fst).nodup_iff, canonicalMembers_names]
      exact distinct.1
    · intro member sorted
      exact (membersDistinct_iff _).mp (canonicalMembers_distinct members distinct.2) member (perm.mem_iff.mp sorted)

theorem canonicalElements_distinct :
    ∀ elements : List Datum, ElementsDistinct elements → ElementsDistinct (canonicalElements elements)
  | [], _ => by simp [canonicalElements, ElementsDistinct]
  | element :: rest, distinct => by
    rw [canonicalElements]
    exact ⟨canonical_distinct element distinct.1, canonicalElements_distinct rest distinct.2⟩

theorem canonicalMembers_distinct :
    ∀ members : List (String × Datum), MembersDistinct members → MembersDistinct (canonicalMembers members)
  | [], _ => by simp [canonicalMembers, MembersDistinct]
  | (name, value) :: rest, distinct => by
    rw [canonicalMembers]
    exact ⟨canonical_distinct value distinct.1, canonicalMembers_distinct rest distinct.2⟩

end

mutual

theorem canonical_canonical : ∀ value : Datum, value.KeysDistinct → value.canonical.canonical = value.canonical
  | .none, _ | .bool _, _ | .int _, _ | .str _, _ => by simp [Datum.canonical]
  | .list elements, distinct => by
    rw [Datum.canonical, Datum.canonical, canonicalElements_canonical elements distinct]
  | .dict members, distinct => by
    -- sorting again moves no member, for the names leave one order
    have perm := sortMembers_perm (canonicalMembers members)
    have again : (canonicalMembers (sortMembers (canonicalMembers members))).Perm (canonicalMembers members) := by
      have mapped := perm.map fun member => (member.1, member.2.canonical)
      rw [← canonicalMembers_eq_map, ← canonicalMembers_eq_map, canonicalMembers_canonical members distinct.2] at mapped
      exact mapped
    rw [Datum.canonical, Datum.canonical, Datum.dict.injEq, sortMembers_eq_iff]
    · exact again
    · rw [canonicalMembers_names, (perm.map Prod.fst).nodup_iff, canonicalMembers_names]
      exact distinct.1

theorem canonicalElements_canonical : ∀ elements : List Datum, ElementsDistinct elements →
    canonicalElements (canonicalElements elements) = canonicalElements elements
  | [], _ => rfl
  | element :: rest, distinct => by
    rw [canonicalElements, canonicalElements, canonical_canonical element distinct.1,
      canonicalElements_canonical rest distinct.2]

theorem canonicalMembers_canonical : ∀ members : List (String × Datum), MembersDistinct members →
    canonicalMembers (canonicalMembers members) = canonicalMembers members
  | [], _ => rfl
  | (name, value) :: rest, distinct => by
    rw [canonicalMembers, canonicalMembers, canonical_canonical value distinct.1,
      canonicalMembers_canonical rest distinct.2]

end

theorem sameAs_canonical (value : Datum) (distinct : value.KeysDistinct) : value.SameAs value.canonical := by
  rw [sameAs_iff_canonical value _ distinct (canonical_distinct value distinct), canonical_canonical value distinct]

/-- The member that a reader finds by its name. -/
def Tree.field (tree : Tree) (name : String) : Option Tree :=
  match tree with
  | .object members => members.lookup name
  | _ => none

theorem lookup_eq_some_iff {α : Type} {members : List (String × α)} (distinct : (members.map Prod.fst).Nodup)
    {name : String} {value : α} : members.lookup name = some value ↔ (name, value) ∈ members := by
  induction members with
  | nil => simp
  | cons entry rest ih =>
    obtain ⟨first, found⟩ := entry
    rw [List.map_cons, List.nodup_cons] at distinct
    by_cases same : name = first
    · subst same
      have absent : (name, value) ∉ rest := fun member => distinct.1 (List.mem_map.mpr ⟨_, member, rfl⟩)
      simp [absent, eq_comm]
    · have unequal : (name == first) = false := by simpa using same
      rw [List.lookup_cons, unequal]
      simp [ih distinct.2, same]

theorem memberDatumTrees_eq_map (members : List (String × Datum)) :
    memberDatumTrees members = members.map fun member => (member.1, member.2.toTree) := by
  induction members with
  | nil => rfl
  | cons member rest ih => rw [memberDatumTrees, ih, List.map_cons]

theorem field_canonical {members : List (String × Datum)} (distinct : (members.map Prod.fst).Nodup) (name : String) :
    (Datum.dict members).canonical.toTree.field name =
      (members.lookup name).map fun value => value.canonical.toTree := by
  have perm := (sortMembers_perm (canonicalMembers members)).map fun member : String × Datum =>
    (member.1, member.2.toTree)
  have names : ((memberDatumTrees (sortMembers (canonicalMembers members))).map Prod.fst).Nodup := by
    rw [memberDatumTrees_eq_map, (perm.map Prod.fst).nodup_iff, canonicalMembers_eq_map, List.map_map, List.map_map]
    exact distinct
  rw [Datum.canonical, Datum.toTree, Tree.field]
  ext tree
  rw [lookup_eq_some_iff names, memberDatumTrees_eq_map, perm.mem_iff, canonicalMembers_eq_map, List.map_map,
    List.mem_map, Option.map_eq_some_iff]
  constructor
  · rintro ⟨⟨found, value⟩, member, same⟩
    rw [Function.comp_apply, Prod.mk.injEq] at same
    obtain ⟨rfl, rfl⟩ := same
    exact ⟨value, (lookup_eq_some_iff distinct).mpr member, rfl⟩
  · rintro ⟨value, found, rfl⟩
    exact ⟨(name, value), (lookup_eq_some_iff distinct).mp found, rfl⟩

end Json

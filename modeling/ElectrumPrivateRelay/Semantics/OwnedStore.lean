import ElectrumPrivateRelay.Semantics.Machine
import Mathlib.Logic.Function.Basic

/-! A store that several parties share, one entry at a time.

An entry belongs to the party that made it. A party that makes entries only
where there are none, and changes or removes only entries of its own, leaves
everything else alone in every interleaving.
-/

set_option autoImplicit false

namespace Semantics

structure Entry (Node : Type) where
  node : Node
  /-- The party that made the entry; none if it was there before all of them. -/
  owner : Option Nat
  deriving DecidableEq

abbrev Store (Name Node : Type) := Name → Option (Entry Node)

/-- What one call does to the store. -/
inductive Effect (Name Node : Type) where
  | unchanged
  | create (name : Name) (node : Node)
  | write (name : Name) (node : Node)
  | remove (name : Name)

section
variable {Name Node : Type} [DecidableEq Name]

def Effect.apply (party : Nat) (store : Store Name Node) : Effect Name Node → Store Name Node
  | .unchanged => store
  | .create name node => Function.update store name (some ⟨node, some party⟩)
  | .write name node => Function.update store name ((store name).map fun entry => { entry with node })
  | .remove name => Function.update store name none

end

section
variable {Name Node : Type}

def Store.present (store : Store Name Node) (name : Name) : Bool := (store name).isSome

def Store.owned (store : Store Name Node) (party : Nat) (name : Name) : Option Node :=
  match store name with
  | some entry => if entry.owner = some party then some entry.node else none
  | none => none

theorem owned_eq_some {store : Store Name Node} {party : Nat} {name : Name} {node : Node} :
    store.owned party name = some node ↔ store name = some ⟨node, some party⟩ := by
  unfold Store.owned
  split
  · next entry found =>
    obtain ⟨other, owner⟩ := entry
    rw [found]
    simp only [Option.some.injEq, Entry.mk.injEq, ite_eq_iff]
    grind
  · next absent => simp [absent]

theorem exists_of_owned {store : Store Name Node} {party : Nat} {name : Name}
    (held : (store.owned party name).isSome = true) : ∃ node, store name = some ⟨node, some party⟩ := by
  obtain ⟨node, found⟩ := Option.isSome_iff_exists.mp held
  exact ⟨node, owned_eq_some.mp found⟩

/-- Nothing is made where something is, and nothing is touched but one's own. -/
def Effect.Sound (present : Name → Bool) (holding : Name → Option Node) : Effect Name Node → Prop
  | .unchanged => True
  | .create name _ => present name = false
  | .write name _ => (holding name).isSome = true
  | .remove name => (holding name).isSome = true

end

section
variable {Name Node : Type} [DecidableEq Name]

def Effect.view (holding : Name → Option Node) : Effect Name Node → Name → Option Node
  | .unchanged => holding
  | .create name node => Function.update holding name (some node)
  | .write name node => Function.update holding name (some node)
  | .remove name => Function.update holding name none

variable {store : Store Name Node} {party : Nat} {effect : Effect Name Node}

theorem Effect.apply_foreign (sound : effect.Sound store.present (store.owned party)) {name : Name}
    {entry : Entry Node} (there : store name = some entry) (foreign : entry.owner ≠ some party) :
    effect.apply party store name = some entry := by
  cases effect with
  | unchanged => exact there
  | create made node =>
    have other : name ≠ made := by
      rintro rfl
      rw [Effect.Sound, Store.present, there] at sound
      cases sound
    rwa [Effect.apply, Function.update_of_ne other]
  | write changed node =>
    have other : name ≠ changed := by
      rintro rfl
      obtain ⟨own, found⟩ := exists_of_owned sound
      rw [there] at found
      cases found
      exact foreign rfl
    rwa [Effect.apply, Function.update_of_ne other]
  | remove removed =>
    have other : name ≠ removed := by
      rintro rfl
      obtain ⟨own, found⟩ := exists_of_owned sound
      rw [there] at found
      cases found
      exact foreign rfl
    rwa [Effect.apply, Function.update_of_ne other]

theorem owned_update (changed name : Name) (entry : Option (Entry Node)) (other : Nat) :
    Store.owned (Function.update store changed entry : Store Name Node) other name =
      if name = changed then entry.bind fun entry => if entry.owner = some other then some entry.node else none
      else store.owned other name := by
  unfold Store.owned
  by_cases same : name = changed
  · subst same
    simp only [Function.update_self, if_true]
    cases entry with
    | none => rfl
    | some entry => rfl
  · simp only [Function.update_of_ne same, same, if_false]

theorem Effect.owned_apply_self (sound : effect.Sound store.present (store.owned party)) :
    (effect.apply party store).owned party = effect.view (store.owned party) := by
  funext name
  cases effect with
  | unchanged => rfl
  | create made node =>
    rw [Effect.apply, owned_update, Effect.view, Function.update_apply]
    simp
  | write changed node =>
    obtain ⟨own, found⟩ := exists_of_owned sound
    rw [Effect.apply, owned_update, Effect.view, Function.update_apply, found]
    simp
  | remove removed =>
    rw [Effect.apply, owned_update, Effect.view, Function.update_apply]
    simp

theorem Effect.owned_apply_other (sound : effect.Sound store.present (store.owned party)) {other : Nat}
    (different : other ≠ party) : (effect.apply party store).owned other = store.owned other := by
  have foreign : some party ≠ some other := fun same => different (Option.some.inj same).symm
  have unowned {name : Name} {own : Node} (found : store name = some ⟨own, some party⟩) :
      store.owned other name = none := by
    simp [Store.owned, found, Ne.symm different]
  funext name
  cases effect with
  | unchanged => rfl
  | create made node =>
    rw [Effect.apply, owned_update]
    split
    · next same =>
      have absent : store name = none := by
        rw [Effect.Sound, ← same] at sound
        simpa [Store.present] using sound
      simp [Store.owned, absent, foreign]
    · rfl
  | write changed node =>
    obtain ⟨own, found⟩ := exists_of_owned sound
    rw [Effect.apply, owned_update, found]
    split
    · next same =>
      rw [← same] at found
      simp [unowned found, foreign]
    · rfl
  | remove removed =>
    obtain ⟨own, found⟩ := exists_of_owned sound
    rw [Effect.apply, owned_update]
    split
    · next same =>
      rw [← same] at found
      simp [unowned found]
    · rfl

end

structure Shared (Party Name Node : Type) where
  store : Store Name Node
  parties : List Party

structure Turn (Event : Type) where
  party : Nat
  event : Event
  deriving DecidableEq

section
variable {Party Event Name Node : Type} [DecidableEq Name]
  (move : Party → (Name → Bool) → Event → Option (Effect Name Node × Party))
  (holding : Party → Name → Option Node)

/-- In each turn one party makes one call. It sees which names are taken. -/
def sharing : Machine (Shared Party Name Node) (Turn Event) where
  step state turn := do
    let party ← state.parties[turn.party]?
    let (effect, next) ← move party state.store.present turn.event
    return ⟨effect.apply turn.party state.store, state.parties.set turn.party next⟩

def Accounts : Prop :=
  ∀ party present event effect next, move party present event = some (effect, next) →
    effect.Sound present (holding party) ∧ holding next = effect.view (holding party)

def Accounted (state : Shared Party Name Node) : Prop :=
  ∀ index party, state.parties[index]? = some party → state.store.owned index = holding party

variable {move holding}

theorem sharing_step_eq_some {state next : Shared Party Name Node} {turn : Turn Event} :
    (sharing move).step state turn = some next ↔
      ∃ party effect changed, state.parties[turn.party]? = some party ∧
        move party state.store.present turn.event = some (effect, changed) ∧
        next = ⟨effect.apply turn.party state.store, state.parties.set turn.party changed⟩ := by
  simp only [sharing, Option.bind_eq_bind, Option.bind_eq_some_iff, Option.pure_def, Option.some.injEq, Prod.exists]
  constructor
  · rintro ⟨party, found, effect, changed, moved, rfl⟩
    exact ⟨party, effect, changed, found, moved, rfl⟩
  · rintro ⟨party, effect, changed, found, moved, rfl⟩
    exact ⟨party, found, effect, changed, moved, rfl⟩

theorem sharing_step_party {state next : Shared Party Name Node} {turn : Turn Event}
    (taken : (sharing move).step state turn = some next) {index : Nat} {party : Party}
    (found : next.parties[index]? = some party) :
    (index ≠ turn.party ∧ state.parties[index]? = some party) ∨
      index = turn.party ∧ ∃ before effect, state.parties[index]? = some before ∧
        move before state.store.present turn.event = some (effect, party) := by
  obtain ⟨before, effect, changed, there, moved, rfl⟩ := sharing_step_eq_some.mp taken
  by_cases same : index = turn.party
  · subst same
    rw [List.getElem?_set_self (List.getElem?_eq_some_iff.mp there).1] at found
    cases found
    exact .inr ⟨rfl, before, effect, there, moved⟩
  · rw [List.getElem?_set_ne (Ne.symm same)] at found
    exact .inl ⟨same, found⟩

theorem Accounts.step (accounts : Accounts move holding) {state next : Shared Party Name Node}
    {turn : Turn Event} (accounted : Accounted holding state)
    (taken : (sharing move).step state turn = some next) : Accounted holding next := by
  obtain ⟨party, effect, changed, found, moved, rfl⟩ := sharing_step_eq_some.mp taken
  obtain ⟨sound, kept⟩ := accounts _ _ _ _ _ moved
  rw [← accounted _ _ found] at sound kept
  intro index other present
  by_cases same : index = turn.party
  · subst same
    have bound := (List.getElem?_eq_some_iff.mp found).1
    rw [List.getElem?_set_self bound] at present
    cases present
    rw [kept]
    exact Effect.owned_apply_self sound
  · rw [List.getElem?_set_ne (Ne.symm same)] at present
    rw [← accounted _ _ present]
    exact Effect.owned_apply_other sound same

theorem Accounts.step_foreign (accounts : Accounts move holding) {state next : Shared Party Name Node}
    {turn : Turn Event} (accounted : Accounted holding state)
    (taken : (sharing move).step state turn = some next) {name : Name} {entry : Entry Node}
    (there : state.store name = some entry) (foreign : entry.owner ≠ some turn.party) :
    next.store name = some entry := by
  obtain ⟨party, effect, changed, found, moved, rfl⟩ := sharing_step_eq_some.mp taken
  obtain ⟨sound, -⟩ := accounts _ _ _ _ _ moved
  rw [← accounted _ _ found] at sound
  exact Effect.apply_foreign sound there foreign

end

end Semantics

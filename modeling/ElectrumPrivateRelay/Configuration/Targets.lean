import ElectrumPrivateRelay.Configuration.Aliases
import ElectrumPrivateRelay.Net.Reading
import Mathlib.Data.List.Basic

/-! The comparison of targets as the kernel of a classification.

Every host falls into one class: the loopback aliases, another address, or
a name up to case. Endpoints have the same target when their ports and their
classes agree, and a listener is reached or not by a whole class at once.
-/

set_option autoImplicit false

namespace ElectrumPrivateRelay.Configuration
open Net

inductive TargetClass where
  | loopback
  | address (ip : IpAddr)
  | name (lowered : List Char)
  deriving DecidableEq

def Endpoint.lowered (endpoint : Endpoint) : List Char :=
  endpoint.normalizedHost.toList.map Char.toLower

def Endpoint.targetClass (endpoint : Endpoint) : TargetClass :=
  match endpoint.target with
  | .localhost => .loopback
  | .address ip => if ip.isLoopback then .loopback else .address ip
  | .name => .name endpoint.lowered

theorem eqIgnoreAsciiCase_congr {left right : String} (same : eqIgnoreAsciiCase left right = true)
    (other : String) : eqIgnoreAsciiCase left other = eqIgnoreAsciiCase right other := by
  simp only [eqIgnoreAsciiCase, decide_eq_true_eq] at same
  simp only [eqIgnoreAsciiCase, same]

theorem sameTarget_iff {left right : Endpoint} :
    left.sameTarget right = true ↔ left.port = right.port ∧ left.targetClass = right.targetClass := by
  unfold Endpoint.sameTarget Endpoint.targetClass
  by_cases port : left.port = right.port
  · have leftRead := left.reading
    have rightRead := right.reading
    generalize left.target = leftTarget at *
    generalize right.target = rightTarget at *
    cases leftRead with
    | localhost leftNamed leftUnread =>
      cases rightRead with
      | localhost rightNamed rightUnread =>
        simp [port, leftUnread, rightUnread, eqIgnoreAsciiCase_of_common leftNamed rightNamed]
      | @address ip _ rightIs =>
        cases loop : ip.isLoopback
        · simp [port, leftUnread, rightIs, loop]
        · simp [port, leftUnread, rightIs, leftNamed, loop]
      | name rightOther rightUnread =>
        have differ : eqIgnoreAsciiCase left.normalizedHost right.normalizedHost ≠ true := by
          intro same
          rw [← eqIgnoreAsciiCase_congr same, leftNamed] at rightOther
          cases rightOther
        simp [port, leftUnread, rightUnread, differ]
    | @address ip leftOther leftIs =>
      cases rightRead with
      | localhost rightNamed rightUnread =>
        cases loop : ip.isLoopback
        · simp [port, leftIs, rightUnread, loop]
        · simp [port, leftIs, rightUnread, rightNamed, loop]
      | @address other _ rightIs =>
        have classes : (ip = other ∨ ip.isLoopback = true ∧ other.isLoopback = true) ↔
            (if ip.isLoopback then TargetClass.loopback else .address ip) =
              if other.isLoopback then .loopback else .address other := by
          grind
        simpa [port, leftIs, rightIs] using classes
      | name rightOther rightUnread =>
        cases loop : ip.isLoopback
        · simp [port, leftIs, rightUnread, rightOther, loop]
        · simp [port, leftIs, rightUnread, rightOther, loop]
    | name leftOther leftUnread =>
      cases rightRead with
      | localhost rightNamed rightUnread =>
        have differ : eqIgnoreAsciiCase left.normalizedHost right.normalizedHost ≠ true := by
          intro same
          rw [eqIgnoreAsciiCase_congr same, rightNamed] at leftOther
          cases leftOther
        simp [port, leftUnread, rightUnread, differ]
      | @address ip _ rightIs =>
        cases loop : ip.isLoopback
        · simp [port, leftUnread, rightIs, leftOther, loop]
        · simp [port, leftUnread, rightIs, leftOther, loop]
      | name rightOther rightUnread =>
        simp [port, leftUnread, rightUnread, eqIgnoreAsciiCase, Endpoint.lowered]
  · simp [port]

theorem sameTarget_equivalence : Equivalence fun left right : Endpoint => left.sameTarget right = true where
  refl _ := sameTarget_iff.mpr ⟨rfl, rfl⟩
  symm same := by
    obtain ⟨port, targets⟩ := sameTarget_iff.mp same
    exact sameTarget_iff.mpr ⟨port.symm, targets.symm⟩
  trans first second := by
    obtain ⟨port, targets⟩ := sameTarget_iff.mp first
    obtain ⟨nextPort, nextTargets⟩ := sameTarget_iff.mp second
    exact sameTarget_iff.mpr ⟨port.trans nextPort, targets.trans nextTargets⟩

def TargetClass.isLocal : TargetClass → Bool
  | .loopback => true
  | .address ip => ip.isUnspecified
  | .name _ => false

theorem couldTargetListener_iff_class {endpoint : Endpoint} {listener : SocketAddr} :
    endpoint.couldTargetListener listener = true ↔ endpoint.port = listener.port ∧
      ((endpoint.targetClass.isLocal = true ∧ isLocal listener.ip = true) ∨
        endpoint.targetClass = .address listener.ip) := by
  rw [couldTargetListener_iff]
  unfold Endpoint.targetClass
  cases endpoint.target with
  | localhost => simp [Target.isLocal, TargetClass.isLocal]
  | name => simp [Target.isLocal, TargetClass.isLocal]
  | address ip =>
    cases loop : ip.isLoopback with
    | false => simp [Target.isLocal, TargetClass.isLocal, isLocal, loop]
    | true =>
      -- a listener with a loopback address is local itself
      have near : ip = listener.ip → isLocal listener.ip = true := by
        rintro rfl
        simp [isLocal, loop]
      simpa [Target.isLocal, TargetClass.isLocal, isLocal, loop] using fun _ => near

theorem couldTargetListener_congr {left right : Endpoint} (same : left.sameTarget right = true)
    (listener : SocketAddr) : left.couldTargetListener listener = right.couldTargetListener listener := by
  obtain ⟨port, targets⟩ := sameTarget_iff.mp same
  rw [Bool.eq_iff_iff, couldTargetListener_iff_class, couldTargetListener_iff_class, port, targets]

/-- The same host up to ASCII case, or with dots added or removed at its end. -/
def HostVariant (host other : String) : Prop :=
  eqIgnoreAsciiCase host other = true ∨
    ∃ dots, other = host ++ String.ofList (List.replicate dots '.') ∨
      host = other ++ String.ofList (List.replicate dots '.')

theorem lowered_eq (endpoint : Endpoint) :
    endpoint.lowered = ((endpoint.host.toList.map Char.toLower).reverse.dropWhile (· = '.')).reverse := by
  have dots : ((fun char => decide (char = '.')) ∘ Char.toLower) = fun char => decide (char = '.') := by
    funext char
    simp [toLower_eq_mark]
  rw [Endpoint.lowered, Endpoint.normalizedHost, String.toList_ofList, List.map_reverse]
  congr 1
  rw [← List.map_reverse, List.dropWhile_map, dots]

theorem lowered_dots {left right : Endpoint} {dots : Nat}
    (more : right.host = left.host ++ String.ofList (List.replicate dots '.')) : right.lowered = left.lowered := by
  have lower : Char.toLower '.' = '.' := rfl
  simp only [lowered_eq, more, String.toList_append, String.toList_ofList, List.map_append,
    List.map_replicate, lower, List.reverse_append, List.reverse_replicate, List.dropWhile_append,
    List.dropWhile_replicate, decide_true, if_true, List.isEmpty_nil]

theorem HostVariant.lowered {endpoint : Endpoint} {host : String} (variant : HostVariant endpoint.host host) :
    Endpoint.lowered { endpoint with host } = endpoint.lowered := by
  rcases variant with same | ⟨dots, more | fewer⟩
  · simp only [eqIgnoreAsciiCase, decide_eq_true_eq] at same
    rw [lowered_eq, lowered_eq, same]
  · exact lowered_dots more
  · exact (lowered_dots fewer).symm

theorem targetClass_of_lowered {left right : Endpoint} (same : left.lowered = right.lowered) :
    left.targetClass = right.targetClass := by
  have named : eqIgnoreAsciiCase left.normalizedHost "localhost" =
      eqIgnoreAsciiCase right.normalizedHost "localhost" :=
    eqIgnoreAsciiCase_congr (decide_eq_true same) _
  have target : left.target = right.target := by
    rw [Endpoint.target, Endpoint.target, named, IpAddr.parse_toLower same]
  rw [Endpoint.targetClass, Endpoint.targetClass, target, same]

theorem HostVariant.sameTarget {endpoint : Endpoint} {host : String}
    (variant : HostVariant endpoint.host host) (other : Endpoint) :
    Endpoint.sameTarget { endpoint with host } other = endpoint.sameTarget other ∧
      other.sameTarget { endpoint with host } = other.sameTarget endpoint := by
  have targets := targetClass_of_lowered variant.lowered
  constructor
  · rw [Bool.eq_iff_iff, sameTarget_iff, sameTarget_iff, targets]
  · rw [Bool.eq_iff_iff, sameTarget_iff, sameTarget_iff, targets]

/-- The comparison of targets is an equivalence that does not depend on how a
host is spelled and that the loop check respects. -/
theorem sameTarget_respected :
    (Equivalence fun left right : Endpoint => left.sameTarget right = true) ∧
      (∀ (endpoint other : Endpoint) (host : String), HostVariant endpoint.host host →
        Endpoint.sameTarget { endpoint with host } other = endpoint.sameTarget other ∧
          other.sameTarget { endpoint with host } = other.sameTarget endpoint) ∧
      ∀ left right : Endpoint, left.sameTarget right = true → ∀ listener : SocketAddr,
        left.couldTargetListener listener = right.couldTargetListener listener := by
  refine ⟨sameTarget_equivalence, ?_, ?_⟩
  · intro endpoint other host variant
    exact variant.sameTarget other
  · intro left right same listener
    exact couldTargetListener_congr same listener

end ElectrumPrivateRelay.Configuration

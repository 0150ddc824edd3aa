import Mathlib.Tactic.Common

/-! The proleptic Gregorian calendar and the seconds of its days.

Days are counted from the first of January of the year one, which has the
ordinal one, and seconds from the first of January 1970.
-/

set_option autoImplicit false

namespace Semantics

structure Date where
  year : Nat
  month : Nat
  day : Nat
  deriving DecidableEq, Repr

namespace Date

def isLeap (year : Nat) : Bool := year % 4 = 0 && (year % 100 ≠ 0 || year % 400 = 0)

def daysInMonth (leap : Bool) : Nat → Nat
  | 2 => if leap then 29 else 28
  | 4 | 6 | 9 | 11 => 30
  | _ => 31

def daysBeforeMonth (leap : Bool) (month : Nat) : Nat :=
  [0, 0, 31, 59, 90, 120, 151, 181, 212, 243, 273, 304, 334].getD month 0 + if 2 < month && leap then 1 else 0

def daysBeforeYear (year : Nat) : Nat :=
  (year - 1) * 365 + (year - 1) / 4 - (year - 1) / 100 + (year - 1) / 400

def ordinal (date : Date) : Nat :=
  daysBeforeYear date.year + daysBeforeMonth (isLeap date.year) date.month + date.day

structure Valid (date : Date) : Prop where
  year : 1 ≤ date.year
  firstMonth : 1 ≤ date.month
  lastMonth : date.month ≤ 12
  firstDay : 1 ≤ date.day
  lastDay : date.day ≤ daysInMonth (isLeap date.year) date.month

/-- The month and the day of one of the first 365 days of a year, counted from
zero. The first guess is the right month or the one after it. -/
def ofDayOfYear (leap : Bool) (days : Nat) : Nat × Nat :=
  let guess := (days + 50) / 32
  let month := if days < daysBeforeMonth leap guess then guess - 1 else guess
  (month, days - daysBeforeMonth leap month + 1)

/-- Splits off cycles of 400, 100 and 4 years and one year. The last day of
the first and of the third kind of cycle would start one cycle too many. -/
def ofOrdinal (ordinal : Nat) : Date :=
  let cycle := (ordinal - 1) % 146097
  let century := cycle % 36524
  let olympiad := century % 1461
  let year := (ordinal - 1) / 146097 * 400 + 1 + cycle / 36524 * 100 + century / 1461 * 4 + olympiad / 365
  if olympiad / 365 = 4 || cycle / 36524 = 4 then ⟨year - 1, 12, 31⟩
  else
    let leap := olympiad / 365 = 3 && (century / 1461 ≠ 24 || cycle / 36524 = 3)
    let (month, day) := ofDayOfYear leap (olympiad % 365)
    ⟨year, month, day⟩

theorem ofDayOfYear_table : ∀ leap : Bool, ∀ days < 365,
    1 ≤ (ofDayOfYear leap days).1 ∧ (ofDayOfYear leap days).1 ≤ 12 ∧ 1 ≤ (ofDayOfYear leap days).2 ∧
      (ofDayOfYear leap days).2 ≤ daysInMonth leap (ofDayOfYear leap days).1 ∧
      daysBeforeMonth leap (ofDayOfYear leap days).1 + (ofDayOfYear leap days).2 = days + 1 := by
  decide +kernel

structure Cycles (year quadricentennials centuries olympiads years : Nat) : Prop where
  split : year = quadricentennials * 400 + centuries * 100 + olympiads * 4 + years + 1
  centuries : centuries ≤ 3
  olympiads : olympiads ≤ 24
  years : years ≤ 3

theorem Cycles.daysBeforeYear {year a b c d : Nat} (cycles : Cycles year a b c d) :
    daysBeforeYear year = a * 146097 + b * 36524 + c * 1461 + d * 365 := by
  obtain ⟨split, centuries, olympiads, years⟩ := cycles
  have quarters : (year - 1) / 4 = a * 100 + b * 25 + c := by omega
  have hundreds : (year - 1) / 100 = a * 4 + b := by omega
  have fourHundreds : (year - 1) / 400 = a := by omega
  rw [Date.daysBeforeYear, quarters, hundreds, fourHundreds]
  omega

theorem Cycles.isLeap {year a b c d : Nat} (cycles : Cycles year a b c d) :
    isLeap year = (d = 3 && (c ≠ 24 || b = 3)) := by
  obtain ⟨split, centuries, olympiads, years⟩ := cycles
  have quarter : year % 4 = 0 ↔ d = 3 := by omega
  have hundred : year % 100 = 0 ↔ c = 24 ∧ d = 3 := by omega
  have fourHundred : year % 400 = 0 ↔ b = 3 ∧ c = 24 ∧ d = 3 := by omega
  rw [Bool.eq_iff_iff]
  simp only [Date.isLeap, Bool.and_eq_true, Bool.or_eq_true, decide_eq_true_eq]
  omega

theorem daysBeforeYear_succ (year : Nat) (first : 1 ≤ year) :
    daysBeforeYear (year + 1) = daysBeforeYear year + if isLeap year then 366 else 365 := by
  have quarter : year / 4 = (year - 1) / 4 + if year % 4 = 0 then 1 else 0 := by split <;> omega
  have hundred : year / 100 = (year - 1) / 100 + if year % 100 = 0 then 1 else 0 := by split <;> omega
  have fourHundred : year / 400 = (year - 1) / 400 + if year % 400 = 0 then 1 else 0 := by split <;> omega
  have below : (year - 1) / 100 ≤ (year - 1) / 4 := by omega
  simp only [daysBeforeYear, Nat.add_sub_cancel, quarter, hundred, fourHundred, isLeap, Bool.and_eq_true,
    Bool.or_eq_true, decide_eq_true_eq]
  split <;> split <;> split <;> split <;> omega

theorem daysBeforeYear_mono {first second : Nat} (ordered : first ≤ second) :
    daysBeforeYear first ≤ daysBeforeYear second := by
  induction ordered with
  | refl => exact Nat.le_refl _
  | @step year _ ih =>
    rcases Nat.eq_zero_or_pos year with rfl | positive
    · exact Nat.le_trans ih (by decide)
    · rw [daysBeforeYear_succ year positive]
      omega

theorem monthEnd_table : ∀ leap : Bool, ∀ month ≤ 12, 1 ≤ month →
    daysBeforeMonth leap month + daysInMonth leap month ≤ if leap then 366 else 365 := by
  decide

theorem Valid.ordinal_bounds {date : Date} (valid : date.Valid) :
    daysBeforeYear date.year < date.ordinal ∧ date.ordinal ≤ daysBeforeYear (date.year + 1) := by
  have months := monthEnd_table (isLeap date.year) date.month valid.lastMonth valid.firstMonth
  have first := valid.firstDay
  have last := valid.lastDay
  rw [daysBeforeYear_succ date.year valid.year, ordinal]
  omega

theorem Valid.year_lt_iff {date : Date} (valid : date.Valid) (year : Nat) :
    date.year < year ↔ date.ordinal ≤ daysBeforeYear year := by
  obtain ⟨above, below⟩ := valid.ordinal_bounds
  constructor
  · intro earlier
    exact Nat.le_trans below (daysBeforeYear_mono earlier)
  · intro within
    by_contra later
    have := daysBeforeYear_mono (Nat.le_of_not_lt later)
    omega

theorem Cycles.lastDay {year a b c : Nat} (cycles : Cycles year a b c 3) (leaps : c ≠ 24 ∨ b = 3) :
    (⟨year, 12, 31⟩ : Date).Valid ∧
      (⟨year, 12, 31⟩ : Date).ordinal = a * 146097 + b * 36524 + c * 1461 + 3 * 365 + 366 := by
  have first : 1 ≤ year := by
    rw [cycles.split]
    omega
  have leap : Date.isLeap year = true := by
    rw [cycles.isLeap]
    simpa using leaps
  constructor
  · constructor <;> simp [daysInMonth, first]
  · simp [ordinal, leap, daysBeforeMonth, cycles.daysBeforeYear]

theorem yearDay_spec {year : Nat} (first : 1 ≤ year) {days : Nat} (short : days < 365) :
    let found := ofDayOfYear (isLeap year) days
    (⟨year, found.1, found.2⟩ : Date).Valid ∧
      (⟨year, found.1, found.2⟩ : Date).ordinal = daysBeforeYear year + days + 1 := by
  obtain ⟨firstMonth, lastMonth, firstDay, lastDay, sum⟩ := ofDayOfYear_table (isLeap year) days short
  refine ⟨⟨first, firstMonth, lastMonth, firstDay, lastDay⟩, ?_⟩
  rw [ordinal, Nat.add_assoc, sum, Nat.add_assoc]

theorem ofOrdinal_spec (ordinal : Nat) (positive : 1 ≤ ordinal) :
    (ofOrdinal ordinal).Valid ∧ (ofOrdinal ordinal).ordinal = ordinal := by
  obtain ⟨days, rfl⟩ : ∃ days, ordinal = days + 1 := ⟨ordinal - 1, by omega⟩
  have splitDays : days = days / 146097 * 146097 + days % 146097 := by omega
  have shortCycle : days % 146097 < 146097 := by omega
  simp only [ofOrdinal, Nat.add_sub_cancel]
  generalize days / 146097 = a at *
  generalize days % 146097 = cycle at *
  have splitCycle : cycle = cycle / 36524 * 36524 + cycle % 36524 := by omega
  have shortCentury : cycle % 36524 < 36524 := by omega
  generalize cycle / 36524 = b at *
  generalize cycle % 36524 = century at *
  have splitCentury : century = century / 1461 * 1461 + century % 1461 := by omega
  have shortOlympiad : century % 1461 < 1461 := by omega
  generalize century / 1461 = c at *
  generalize century % 1461 = olympiad at *
  have splitOlympiad : olympiad = olympiad / 365 * 365 + olympiad % 365 := by omega
  have shortRest : olympiad % 365 < 365 := by omega
  generalize olympiad / 365 = d at *
  generalize olympiad % 365 = rest at *
  split
  · next last =>
    simp only [Bool.or_eq_true, decide_eq_true_eq] at last
    rcases last with lastOfOlympiad | lastOfCycle
    · have cycles : Cycles (a * 400 + 1 + b * 100 + c * 4 + d - 1) a b c 3 :=
        ⟨by omega, by omega, by omega, by omega⟩
      obtain ⟨valid, same⟩ := cycles.lastDay (by omega)
      exact ⟨valid, same.trans (by omega)⟩
    · have cycles : Cycles (a * 400 + 1 + b * 100 + c * 4 + d - 1) a 3 24 3 :=
        ⟨by omega, by omega, by omega, by omega⟩
      obtain ⟨valid, same⟩ := cycles.lastDay (.inr rfl)
      exact ⟨valid, same.trans (by omega)⟩
  · next other =>
    simp only [Bool.or_eq_true, decide_eq_true_eq, not_or] at other
    have cycles : Cycles (a * 400 + 1 + b * 100 + c * 4 + d) a b c d :=
      ⟨by omega, by omega, by omega, by omega⟩
    obtain ⟨valid, same⟩ := @yearDay_spec (a * 400 + 1 + b * 100 + c * 4 + d) (by omega) rest shortRest
    rw [cycles.isLeap] at valid same
    refine ⟨valid, ?_⟩
    rw [same, cycles.daysBeforeYear]
    omega

end Date

structure Instant where
  date : Date
  hour : Nat
  minute : Nat
  second : Nat
  deriving DecidableEq, Repr

namespace Instant

structure Valid (instant : Instant) : Prop where
  date : instant.date.Valid
  hour : instant.hour < 24
  minute : instant.minute < 60
  second : instant.second < 60

def epochOrdinal : Nat := 719163

def timestamp (instant : Instant) : Int :=
  ((instant.date.ordinal : Int) - epochOrdinal) * 86400 + instant.hour * 3600 + instant.minute * 60 + instant.second

/-- The instant of a timestamp, in the years from 1 to 9999. -/
def ofTimestamp (timestamp : Int) : Option Instant :=
  let ordinal := timestamp / 86400 + epochOrdinal
  let seconds := (timestamp % 86400).toNat
  if 1 ≤ ordinal && ordinal ≤ Date.daysBeforeYear 10000 then
    some ⟨.ofOrdinal ordinal.toNat, seconds / 3600, seconds / 60 % 60, seconds % 60⟩
  else none

def yearStart (year : Nat) : Int := ((Date.daysBeforeYear year : Int) + 1 - epochOrdinal) * 86400

theorem ofTimestamp_isSome (timestamp : Int) :
    (∃ instant, ofTimestamp timestamp = some instant) ↔ yearStart 1 ≤ timestamp ∧ timestamp < yearStart 10000 := by
  have first : (Date.daysBeforeYear 1 : Int) = 0 := by decide
  have last : (Date.daysBeforeYear 10000 : Int) = 3652059 := by decide +kernel
  have bounds : (1 ≤ timestamp / 86400 + epochOrdinal && timestamp / 86400 + epochOrdinal ≤ 3652059) = true ↔
      yearStart 1 ≤ timestamp ∧ timestamp < yearStart 10000 := by
    rw [Bool.and_eq_true, decide_eq_true_eq, decide_eq_true_eq, yearStart, yearStart, first, last, epochOrdinal]
    omega
  rw [← bounds]
  simp only [ofTimestamp, last]
  split
  · next within => simp [within]
  · next outside => simp [outside]

theorem ofTimestamp_spec {timestamp : Int} {instant : Instant} (found : ofTimestamp timestamp = some instant) :
    instant.Valid ∧ instant.timestamp = timestamp := by
  simp only [ofTimestamp] at found
  split at found
  · next within =>
    simp only [Bool.and_eq_true, decide_eq_true_eq] at within
    obtain ⟨valid, same⟩ := Date.ofOrdinal_spec (timestamp / 86400 + epochOrdinal).toNat (by omega)
    obtain rfl := Option.some.inj found
    refine ⟨⟨valid, ?_, ?_, ?_⟩, ?_⟩
    · show (timestamp % 86400).toNat / 3600 < 24
      omega
    · show (timestamp % 86400).toNat / 60 % 60 < 60
      omega
    · show (timestamp % 86400).toNat % 60 < 60
      omega
    · simp only [Instant.timestamp, same]
      omega
  · cases found

theorem Valid.year_lt_iff {instant : Instant} (valid : instant.Valid) (year : Nat) :
    instant.date.year < year ↔ instant.timestamp < yearStart year := by
  have hour := valid.hour
  have minute := valid.minute
  have second := valid.second
  rw [valid.date.year_lt_iff year, Instant.timestamp, yearStart]
  omega

end Instant

end Semantics

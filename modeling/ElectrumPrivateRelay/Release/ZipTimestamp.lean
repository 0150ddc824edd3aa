import ElectrumPrivateRelay.Semantics.Calendar

/-! The time stamp of the members of a release archive.

A ZIP archive keeps the date and the time of a member in two words of sixteen
bits, seconds in steps of two, and years from 1980 on.
-/

set_option autoImplicit false

namespace ElectrumPrivateRelay.Release
open Semantics

def zipMinYear : Nat := 1980

def normalizedZipDatetime (epoch : Int) : Option Instant :=
  (Instant.ofTimestamp epoch).map fun instant =>
    let instant := if instant.date.year < zipMinYear then ⟨⟨zipMinYear, 1, 1⟩, 0, 0, 0⟩ else instant
    { instant with second := instant.second - instant.second % 2 }

/-- The words that `zipfile` packs; packing fails where a word does not fit. -/
def packStamp (stamp : Instant) : Option (Nat × Nat) :=
  let date := (stamp.date.year - 1980) <<< 9 ||| stamp.date.month <<< 5 ||| stamp.date.day
  let time := stamp.hour <<< 11 ||| stamp.minute <<< 5 ||| stamp.second / 2
  if date < 0x10000 && time < 0x10000 then some (date, time) else none

def unpackStamp (words : Nat × Nat) : Instant where
  date := ⟨(words.1 >>> 9) + 1980, (words.1 >>> 5) &&& 0xF, words.1 &&& 0x1F⟩
  hour := words.2 >>> 11
  minute := (words.2 >>> 5) &&& 0x3F
  second := (words.2 &&& 0x1F) * 2

theorem threeFields (high : Nat) {middle low : Nat} (width offset : Nat) (shortMiddle : middle < 1 <<< width)
    (shortLow : low < 1 <<< offset) :
    high <<< (width + offset) ||| middle <<< offset ||| low = (high <<< width + middle) <<< offset + low := by
  rw [Nat.one_shiftLeft] at shortMiddle shortLow
  rw [Nat.shiftLeft_add, ← Nat.shiftLeft_or_distrib, ← Nat.shiftLeft_add_eq_or_of_lt shortMiddle,
    ← Nat.shiftLeft_add_eq_or_of_lt shortLow]

theorem daysInMonth_le (leap : Bool) (month : Nat) : Date.daysInMonth leap month ≤ 31 := by
  unfold Date.daysInMonth
  split
  · split <;> decide
  all_goals decide

theorem packStamp_eq {stamp : Instant} (valid : stamp.Valid) :
    packStamp stamp =
      if stamp.date.year - 1980 < 128 then
        some (((stamp.date.year - 1980) * 16 + stamp.date.month) * 32 + stamp.date.day,
          (stamp.hour * 64 + stamp.minute) * 32 + stamp.second / 2)
      else none := by
  have hour := valid.hour
  have minute := valid.minute
  have second := valid.second
  have month := valid.date.lastMonth
  have day := Nat.le_trans valid.date.lastDay (daysInMonth_le _ _)
  have date : (stamp.date.year - 1980) <<< 9 ||| stamp.date.month <<< 5 ||| stamp.date.day =
      ((stamp.date.year - 1980) * 16 + stamp.date.month) * 32 + stamp.date.day :=
    (threeFields _ 4 5 (by omega) (by omega)).trans (by omega)
  have time : stamp.hour <<< 11 ||| stamp.minute <<< 5 ||| stamp.second / 2 =
      (stamp.hour * 64 + stamp.minute) * 32 + stamp.second / 2 :=
    (threeFields _ 6 5 (by omega) (by omega)).trans (by omega)
  have fits : (((stamp.date.year - 1980) * 16 + stamp.date.month) * 32 + stamp.date.day < 0x10000 &&
      (stamp.hour * 64 + stamp.minute) * 32 + stamp.second / 2 < 0x10000) = true ↔
        stamp.date.year - 1980 < 128 := by
    rw [Bool.and_eq_true, decide_eq_true_eq, decide_eq_true_eq]
    omega
  simp only [packStamp, date, time]
  exact if_congr fits rfl rfl

theorem unpackStamp_fields {year month day hour minute half : Nat} (shortMonth : month < 16) (shortDay : day < 32)
    (shortMinute : minute < 64) (shortHalf : half < 32) :
    unpackStamp ((year * 16 + month) * 32 + day, (hour * 64 + minute) * 32 + half) =
      ⟨⟨year + 1980, month, day⟩, hour, minute, half * 2⟩ := by
  have four : ∀ word, word &&& 0xF = word % 16 := fun word => Nat.and_two_pow_sub_one_eq_mod word 4
  have five : ∀ word, word &&& 0x1F = word % 32 := fun word => Nat.and_two_pow_sub_one_eq_mod word 5
  have six : ∀ word, word &&& 0x3F = word % 64 := fun word => Nat.and_two_pow_sub_one_eq_mod word 6
  simp only [unpackStamp, Instant.mk.injEq, Date.mk.injEq, four, five, six]
  omega

theorem unpackStamp_packStamp {stamp : Instant} (valid : stamp.Valid) (year : zipMinYear ≤ stamp.date.year)
    (even : stamp.second % 2 = 0) :
    (packStamp stamp).map unpackStamp = if stamp.date.year < 2108 then some stamp else none := by
  have minute := valid.minute
  have second := valid.second
  have month := valid.date.lastMonth
  have day := Nat.le_trans valid.date.lastDay (daysInMonth_le _ _)
  have first : zipMinYear = 1980 := rfl
  have same : stamp.date.year - 1980 + 1980 = stamp.date.year := by omega
  have halves : stamp.second / 2 * 2 = stamp.second := by omega
  have bound : stamp.date.year - 1980 < 128 ↔ stamp.date.year < 2108 := by omega
  rw [packStamp_eq valid, if_congr bound rfl rfl]
  split
  · rw [Option.map_some, unpackStamp_fields (by omega) (by omega) (by omega) (by omega), same, halves]
  · rfl

def firstStamp : Instant := ⟨⟨zipMinYear, 1, 1⟩, 0, 0, 0⟩

theorem firstStamp_valid : firstStamp.Valid := by
  constructor
  · constructor <;> decide
  all_goals decide

structure StampOf (epoch : Int) (stamp : Instant) : Prop where
  valid : stamp.Valid
  year : zipMinYear ≤ stamp.date.year
  even : stamp.second % 2 = 0
  timestamp : stamp.timestamp = max (epoch - epoch % 2) (Instant.yearStart zipMinYear)

theorem normalizedZipDatetime_spec {epoch : Int} {stamp : Instant} (made : normalizedZipDatetime epoch = some stamp) :
    StampOf epoch stamp := by
  have start : Instant.yearStart zipMinYear = 315532800 := by decide +kernel
  obtain ⟨instant, found, same⟩ := Option.map_eq_some_iff.mp made
  obtain ⟨valid, time⟩ := Instant.ofTimestamp_spec found
  have early := valid.year_lt_iff zipMinYear
  rw [time, start] at early
  split at same
  · next before =>
    obtain rfl : firstStamp = stamp := same
    have first : firstStamp.timestamp = 315532800 := by decide +kernel
    refine ⟨firstStamp_valid, Nat.le_refl _, rfl, ?_⟩
    rw [first, start]
    omega
  · next after =>
    subst same
    have second := valid.second
    refine ⟨⟨valid.date, valid.hour, valid.minute, ?_⟩, Nat.le_of_not_lt after, ?_, ?_⟩
    · show instant.second - instant.second % 2 < 60
      omega
    · show (instant.second - instant.second % 2) % 2 = 0
      omega
    · have parity : (instant.second % 2 : Int) = epoch % 2 := by
        rw [← time, Instant.timestamp]
        omega
      have rounded : ({ instant with second := instant.second - instant.second % 2 } : Instant).timestamp =
          epoch - epoch % 2 := by
        rw [← parity, ← time]
        simp only [Instant.timestamp]
        omega
      rw [rounded, start]
      omega

theorem timestamp_normalizedZipDatetime (epoch : Int) :
    (normalizedZipDatetime epoch).map Instant.timestamp =
      if Instant.yearStart 1 ≤ epoch ∧ epoch < Instant.yearStart 10000 then
        some (max (epoch - epoch % 2) (Instant.yearStart zipMinYear)) else none := by
  have range := Instant.ofTimestamp_isSome epoch
  cases made : normalizedZipDatetime epoch with
  | none =>
    have outside : ¬ (Instant.yearStart 1 ≤ epoch ∧ epoch < Instant.yearStart 10000) := by
      rw [← range]
      rintro ⟨instant, found⟩
      simp [normalizedZipDatetime, found] at made
    rw [if_neg outside, Option.map_none]
  | some stamp =>
    obtain ⟨instant, found, _⟩ := Option.map_eq_some_iff.mp made
    rw [if_pos (range.mp ⟨instant, found⟩), Option.map_some, (normalizedZipDatetime_spec made).timestamp]

theorem unpackStamp_normalizedZipDatetime (epoch : Int) :
    ((normalizedZipDatetime epoch).bind packStamp).map unpackStamp =
      if epoch < Instant.yearStart 2108 then normalizedZipDatetime epoch else none := by
  cases made : normalizedZipDatetime epoch with
  | none => simp
  | some stamp =>
    have spec := normalizedZipDatetime_spec made
    have last : stamp.date.year < 2108 ↔ epoch < Instant.yearStart 2108 := by
      have start : Instant.yearStart zipMinYear = 315532800 := by decide +kernel
      have final : Instant.yearStart 2108 = 4354819200 := by decide +kernel
      rw [spec.valid.year_lt_iff, spec.timestamp, start, final]
      omega
    rw [Option.bind_some, unpackStamp_packStamp spec.valid spec.year spec.even, if_congr last rfl rfl]

theorem packStamp_isSome {epoch : Int} (positive : 0 ≤ epoch) :
    (∃ words, (normalizedZipDatetime epoch).bind packStamp = some words) ↔ epoch < Instant.yearStart 2108 := by
  have first : Instant.yearStart 1 = -62135596800 := by decide +kernel
  have final : Instant.yearStart 2108 = 4354819200 := by decide +kernel
  have last : Instant.yearStart 10000 = 253402300800 := by decide +kernel
  have times := timestamp_normalizedZipDatetime epoch
  have unpacked := unpackStamp_normalizedZipDatetime epoch
  constructor
  · rintro ⟨words, packed⟩
    by_contra late
    rw [packed, if_neg late] at unpacked
    cases unpacked
  · intro early
    rw [if_pos (by omega)] at times
    obtain ⟨stamp, made, _⟩ := Option.map_eq_some_iff.mp times
    rw [if_pos early, made] at unpacked
    obtain ⟨words, packed, _⟩ := Option.map_eq_some_iff.mp unpacked
    exact ⟨words, made ▸ packed⟩

/-- The stamp of a commit time is the last even second that is not after it,
or the start of 1980; it is read from the archive as it was written. -/
theorem normalizedZipDatetime_kept (epoch : Int) :
    (normalizedZipDatetime epoch).map Instant.timestamp =
        (if Instant.yearStart 1 ≤ epoch ∧ epoch < Instant.yearStart 10000 then
          some (max (epoch - epoch % 2) (Instant.yearStart zipMinYear)) else none) ∧
      ((normalizedZipDatetime epoch).bind packStamp).map unpackStamp =
        (if epoch < Instant.yearStart 2108 then normalizedZipDatetime epoch else none) :=
  ⟨timestamp_normalizedZipDatetime epoch, unpackStamp_normalizedZipDatetime epoch⟩

end ElectrumPrivateRelay.Release

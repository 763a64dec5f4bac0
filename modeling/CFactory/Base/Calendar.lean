import Mathlib.Algebra.Ring.Nat
import Mathlib.Data.Int.Basic
import Mathlib.Data.List.Basic
import Std.Data.String.ToNat

/-!
# Calendar rendering of instants

The proleptic Gregorian date of a day count, zero-padded numerals, and the fixed rendering
`%Y-%m-%dT%H:%M:%S.%f` of an instant. Each is undone by an inverse, so that the rendering
tells any two instants apart. Nothing here names an application.
-/

namespace CFactory.Base

/-! ## Dates -/

/-- A calendar date. -/
structure Date where
  year : Int
  month : Nat
  day : Nat
  deriving DecidableEq, Repr

/-- The year of a 400-year era, counted from March, in which a day of the era falls, and
the day of that year. Every fourth century and every fourth year is the long one. -/
def yearOfEra (dayOfEra : Nat) : Nat × Nat :=
  let century := min (dayOfEra / 36524) 3
  let dayOfCentury := dayOfEra - 36524 * century
  let cycle := dayOfCentury / 1461
  let dayOfCycle := dayOfCentury - 1461 * cycle
  let year := min (dayOfCycle / 365) 3
  (100 * century + 4 * cycle + year, dayOfCycle - 365 * year)

/-- The first day of a year of the era. -/
def startOfYear (year : Nat) : Nat :=
  36524 * (year / 100) + 1461 * (year % 100 / 4) + 365 * (year % 4)

/-- The date of a day, counted from 1970-01-01. Years run from March to February, so that
the leap day comes last. -/
def dateOfDays (days : Int) : Date :=
  let z := days + 719468
  let (year, dayOfYear) := yearOfEra (z % 146097).toNat
  let shifted := (5 * dayOfYear + 2) / 153
  let month := if shifted < 10 then shifted + 3 else shifted - 9
  { year := z / 146097 * 400 + year + (if month ≤ 2 then 1 else 0)
    month := month
    day := dayOfYear - (153 * shifted + 2) / 5 + 1 }

/-- The day count of a date. -/
def daysOfDate (d : Date) : Int :=
  let year := if d.month ≤ 2 then d.year - 1 else d.year
  let shifted := if 2 < d.month then d.month - 3 else d.month + 9
  let dayOfEra := startOfYear (year % 400).toNat + (153 * shifted + 2) / 5 + (d.day - 1)
  year / 400 * 146097 + dayOfEra - 719468

private theorem yearOfEra_spec {n : Nat} (h : n < 146097) :
    (yearOfEra n).1 < 400 ∧ (yearOfEra n).2 ≤ 365 ∧
      startOfYear (yearOfEra n).1 + (yearOfEra n).2 = n := by
  have hcentury : min (n / 36524) 3 ≤ 3 := Nat.min_le_right _ _
  simp only [yearOfEra, startOfYear]
  generalize hc : min (n / 36524) 3 = c at hcentury ⊢
  generalize hr : n - 36524 * c = r
  have hcycle : r / 1461 ≤ 24 := by omega
  generalize hq : r / 1461 = q at hcycle ⊢
  generalize hs : r - 1461 * q = s
  have hyear : min (s / 365) 3 ≤ 3 := Nat.min_le_right _ _
  generalize hy : min (s / 365) 3 = y at hyear ⊢
  refine ⟨by omega, by omega, ?_⟩
  have h100 : (100 * c + 4 * q + y) / 100 = c := by omega
  have h4 : (100 * c + 4 * q + y) % 100 / 4 = q := by omega
  have h1 : (100 * c + 4 * q + y) % 4 = y := by omega
  rw [h100, h4, h1]
  omega

/-- A day of the year splits into a month, counted from March, and a day of that month. -/
private theorem monthOfYear_spec {n : Nat} (h : n ≤ 365) :
    (5 * n + 2) / 153 ≤ 11 ∧ (153 * ((5 * n + 2) / 153) + 2) / 5 ≤ n ∧
      n - (153 * ((5 * n + 2) / 153) + 2) / 5 ≤ 30 := by
  refine ⟨?_, ?_, ?_⟩ <;> omega

/-- A day count is read back from its date. -/
theorem daysOfDate_dateOfDays (days : Int) : daysOfDate (dateOfDays days) = days := by
  have hlt : ((days + 719468) % 146097).toNat < 146097 := by omega
  obtain ⟨hyear, hday, hsum⟩ := yearOfEra_spec hlt
  simp only [dateOfDays]
  generalize yearOfEra ((days + 719468) % 146097).toNat = split at hyear hday hsum ⊢
  cases split with
  | mk year dayOfYear =>
    simp only [daysOfDate] at hyear hday hsum ⊢
    obtain ⟨hshift, hstart, -⟩ := monthOfYear_spec hday
    generalize (5 * dayOfYear + 2) / 153 = s at hshift hstart ⊢
    have hmonth : (if 2 < (if s < 10 then s + 3 else s - 9) then
        (if s < 10 then s + 3 else s - 9) - 3
        else (if s < 10 then s + 3 else s - 9) + 9) = s := by
      split <;> split at * <;> omega
    rw [hmonth]
    have hback : ∀ b : Bool, (if b then (days + 719468) / 146097 * 400 + (year : Int) +
        (if b then 1 else 0) - 1
        else (days + 719468) / 146097 * 400 + (year : Int) + (if b then 1 else 0)) =
        (days + 719468) / 146097 * 400 + year := by
      intro b
      cases b <;> simp
    have hb := hback (decide ((if s < 10 then s + 3 else s - 9) ≤ 2))
    simp only [decide_eq_true_eq] at hb
    rw [hb]
    have hera : ((days + 719468) / 146097 * 400 + (year : Int)) / 400 =
        (days + 719468) / 146097 := by omega
    have hyoe : (((days + 719468) / 146097 * 400 + (year : Int)) % 400).toNat = year := by omega
    rw [hera, hyoe]
    omega

/-- The month and the day of a date have at most two digits. -/
theorem dateOfDays_bounds (days : Int) :
    (dateOfDays days).month < 100 ∧ (dateOfDays days).day < 100 := by
  have hlt : ((days + 719468) % 146097).toNat < 146097 := by omega
  obtain ⟨-, hday, -⟩ := yearOfEra_spec hlt
  obtain ⟨hshift, -, hrest⟩ := monthOfYear_spec hday
  simp only [dateOfDays]
  constructor
  · split <;> omega
  · omega

example : dateOfDays 20665 = ⟨2026, 7, 31⟩ := by decide

example : dateOfDays (-25509) = ⟨1900, 2, 28⟩ := by decide

/-! ## Numerals -/

/-- The decimal numeral of `n`, filled with zeros up to the width. -/
def zfill (width n : Nat) : List Char :=
  List.replicate (width - (Nat.toDigits 10 n).length) '0' ++ Nat.toDigits 10 n

/-- A number is read back from its filled numeral. -/
theorem ofDigitChars_zfill (width n : Nat) : Nat.ofDigitChars 10 (zfill width n) 0 = n := by
  rw [zfill, Nat.ofDigitChars_append, Nat.ofDigitChars_replicate_zero, Nat.mul_zero]
  exact Nat.ofDigitChars_ten_toDigits

theorem zfill_injective {v w m n : Nat} (h : zfill v m = zfill w n) : m = n := by
  have hread := congrArg (fun ds ↦ Nat.ofDigitChars 10 ds 0) h
  simpa only [ofDigitChars_zfill] using hread

theorem isDigit_of_mem_zfill {width n : Nat} {c : Char} (h : c ∈ zfill width n) : c.isDigit := by
  rw [zfill, List.mem_append] at h
  cases h with
  | inl h => rw [List.eq_of_mem_replicate h]; rfl
  | inr h => exact Nat.isDigit_of_mem_toDigits (by omega) (by omega) h

theorem length_zfill {width n : Nat} (hpos : 0 < width) (h : n < 10 ^ width) :
    (zfill width n).length = width := by
  have hle := (Nat.length_toDigits_le_iff (b := 10) (by omega) hpos).mpr h
  rw [zfill, List.length_append, List.length_replicate]
  omega

/-- A year in at least four digits. -/
def yearDigits : Int → List Char
  | .ofNat n => zfill 4 n
  | .negSucc n => '-' :: zfill 4 (n + 1)

theorem mem_yearDigits {y : Int} {c : Char} (h : c ∈ yearDigits y) : c.isDigit ∨ c = '-' := by
  cases y with
  | ofNat n => exact .inl (isDigit_of_mem_zfill h)
  | negSucc n =>
    cases List.mem_cons.mp h with
    | inl h => exact .inr h
    | inr h => exact .inl (isDigit_of_mem_zfill h)

theorem yearDigits_injective {x y : Int} (h : yearDigits x = yearDigits y) : x = y := by
  have hsign : ∀ {m n : Nat}, zfill 4 m ≠ '-' :: zfill 4 n := by
    intro m n he
    have hc : ('-' : Char) ∈ zfill 4 m := by rw [he]; exact List.mem_cons_self
    exact absurd (isDigit_of_mem_zfill hc) (by decide)
  cases x with
  | ofNat m =>
    cases y with
    | ofNat n => rw [zfill_injective h]
    | negSucc n => exact absurd h hsign
  | negSucc m =>
    cases y with
    | ofNat n => exact absurd h.symm hsign
    | negSucc n =>
      have hmn := zfill_injective (List.cons.inj h).2
      rw [Nat.succ.inj hmn]

/-! ## Instants -/

/-- Microseconds in a day. -/
def dayMicros : Int := 86400000000

/-- The time of day `HH:MM:SS.ffffff` of a count of microseconds since midnight. -/
def clock (micros : Nat) : List Char :=
  zfill 2 (micros / 3600000000) ++ ':' :: zfill 2 (micros / 60000000 % 60) ++
    ':' :: zfill 2 (micros / 1000000 % 60) ++ '.' :: zfill 6 (micros % 1000000)

/-- The instant `t`, in microseconds since the epoch, as `%Y-%m-%dT%H:%M:%S.%f` in UTC. -/
def strftime (t : Int) : List Char :=
  let date := dateOfDays (t / dayMicros)
  yearDigits date.year ++ ('-' :: zfill 2 date.month ++ '-' :: zfill 2 date.day ++
    'T' :: clock (t % dayMicros).toNat)

/-- Two texts that end in equally long numerals after the same mark. -/
private theorem split_numeral {xs ys : List Char} {c : Char} {width m n : Nat}
    (hpos : 0 < width) (hm : m < 10 ^ width) (hn : n < 10 ^ width)
    (h : xs ++ c :: zfill width m = ys ++ c :: zfill width n) : xs = ys ∧ m = n := by
  have hlen : (c :: zfill width m).length = (c :: zfill width n).length := by
    rw [List.length_cons, List.length_cons, length_zfill hpos hm, length_zfill hpos hn]
  obtain ⟨hfront, hback⟩ := List.append_inj' h hlen
  exact ⟨hfront, zfill_injective (List.cons.inj hback).2⟩

/-- A time of day is determined by its rendering. -/
theorem clock_injective {a b : Nat} (ha : a < 86400000000) (hb : b < 86400000000)
    (h : clock a = clock b) : a = b := by
  simp only [clock] at h
  obtain ⟨h, hmicros⟩ := split_numeral (by omega) (by omega) (by omega) h
  obtain ⟨h, hseconds⟩ := split_numeral (by omega) (by omega) (by omega) h
  obtain ⟨h, hminutes⟩ := split_numeral (by omega) (by omega) (by omega) h
  have hhours := zfill_injective h
  omega

theorem length_clock {a : Nat} (ha : a < 86400000000) : (clock a).length = 15 := by
  simp only [clock, List.length_append, List.length_cons]
  rw [length_zfill (by omega) (by omega), length_zfill (by omega) (by omega),
    length_zfill (by omega) (by omega), length_zfill (by omega) (by omega)]

/-- The rendering tells any two instants apart. -/
theorem strftime_injective {s t : Int} (h : strftime s = strftime t) : s = t := by
  have hbound : ∀ u : Int, (u % dayMicros).toNat < 86400000000 := by
    intro u
    simp only [dayMicros]
    omega
  obtain ⟨hms, hds⟩ := dateOfDays_bounds (s / dayMicros)
  obtain ⟨hmt, hdt⟩ := dateOfDays_bounds (t / dayMicros)
  simp only [strftime] at h
  have hlen : ∀ (m d a : Nat), m < 100 → d < 100 → a < 86400000000 →
      ('-' :: zfill 2 m ++ '-' :: zfill 2 d ++ 'T' :: clock a).length = 22 := by
    intro m d a hm hd ha
    simp only [List.length_append, List.length_cons]
    rw [length_zfill (by omega) hm, length_zfill (by omega) hd, length_clock ha]
  obtain ⟨hyear, hrest⟩ := List.append_inj' h
    (by rw [hlen _ _ _ hms hds (hbound s), hlen _ _ _ hmt hdt (hbound t)])
  obtain ⟨hdate, hclock⟩ := List.append_inj' hrest
    (by rw [List.length_cons, List.length_cons, length_clock (hbound s), length_clock (hbound t)])
  obtain ⟨hmonth, hday⟩ := split_numeral (by omega) hds hdt hdate
  have hsame : dateOfDays (s / dayMicros) = dateOfDays (t / dayMicros) := by
    cases hs : dateOfDays (s / dayMicros) with
    | mk ys ms ds =>
      cases ht : dateOfDays (t / dayMicros) with
      | mk yt mt dt =>
        rw [hs, ht] at hyear hmonth hday
        simp only at hyear hmonth hday
        rw [yearDigits_injective hyear, zfill_injective (List.cons.inj hmonth).2, hday]
  have hdays : s / dayMicros = t / dayMicros := by
    rw [← daysOfDate_dateOfDays (s / dayMicros), hsame, daysOfDate_dateOfDays]
  have hmicros := clock_injective (hbound s) (hbound t) (List.cons.inj hclock).2
  simp only [dayMicros] at hdays hmicros
  omega

/-- The marks and digits a rendered instant is made of. -/
theorem mem_strftime {t : Int} {c : Char} (h : c ∈ strftime t) :
    c.isDigit ∨ c ∈ ['-', 'T', ':', '.'] := by
  simp only [strftime, clock, List.mem_append, List.mem_cons] at h
  have hdigits : ∀ {w n : Nat}, c ∈ zfill w n → c.isDigit ∨ c ∈ ['-', 'T', ':', '.'] :=
    fun hz ↦ .inl (isDigit_of_mem_zfill hz)
  have hyear : c ∈ yearDigits (dateOfDays (t / dayMicros)).year →
      c.isDigit ∨ c ∈ ['-', 'T', ':', '.'] := by
    intro hy
    cases mem_yearDigits hy with
    | inl hd => exact .inl hd
    | inr hd => exact .inr (by simp [hd])
  have hmark : ∀ m ∈ ['-', 'T', ':', '.'], c = m → c.isDigit ∨ c ∈ ['-', 'T', ':', '.'] := by
    intro m hm he
    exact .inr (he ▸ hm)
  rcases h with h | ((h | h) | h | h) | h | (((h | h | h) | h | h) | h | h)
  all_goals first
    | exact hyear h
    | exact hdigits h
    | exact hmark _ (by decide) h

example : String.ofList (strftime 1785456000123456) = "2026-07-31T00:00:00.123456" := by decide

end CFactory.Base

import BoundSql.Proofs.Calendar.DayNumber
import BoundSql.Proofs.Calendar.Digits
import BoundSql.Value.Calendar
import BoundSql.Value.Cell

/-!
# Stored dates sort as time does

Dates and points in time are stored as text, and the engine compares texts byte by byte.  The years
from 0 to 9999 have four digits, and so all fields but the fraction of a second have a fixed width.
A fraction has as many decimals as it needs, and a text that goes on sorts behind one that ends.
`textsSort` is the main statement.
-/

namespace BoundSql

namespace Calendar

/-! ### Fractions of a second -/

/-- The nanoseconds are written with `w + 1` decimals, which make up the number `a`. -/
structure Decimals (nano w a : Nat) : Prop where
  width : w = 2 ∨ w = 5 ∨ w = 8
  value : nano = a * 10 ^ (8 - w)
  lt : a < 10 ^ (w + 1)
  /-- Three decimals less would not do. -/
  fewest : w = 2 ∨ a % 1000 ≠ 0
  text : Time.fractionText nano = '.' :: Text.padded (w + 1) a

theorem exists_decimals {nano : Nat} (hpos : nano ≠ 0) (h : nano < 1000000000) :
    ∃ w a, Decimals nano w a := by
  by_cases hmilli : nano % 1000000 = 0
  · refine ⟨2, nano / 1000000, .inl rfl, ?_, ?_, .inl rfl, ?_⟩
    · simp; omega
    · simp; omega
    · rw [Time.fractionText, if_neg hpos, if_pos hmilli]
  by_cases hmicro : nano % 1000 = 0
  · refine ⟨5, nano / 1000, .inr (.inl rfl), ?_, ?_, .inr (by omega), ?_⟩
    · simp; omega
    · simp; omega
    · rw [Time.fractionText, if_neg hpos, if_neg hmilli, if_pos hmicro]
  · refine ⟨8, nano, .inr (.inr rfl), ?_, ?_, .inr hmicro, ?_⟩
    · simp
    · simp; omega
    · rw [Time.fractionText, if_neg hpos, if_neg hmilli, if_neg hmicro]

theorem Decimals.compare_of_le {m n w v a b : Nat} (hm : Decimals m w a) (hn : Decimals n v b)
    (h : w ≤ v) : compare (digits (w + 1) a) (digits (v + 1) b) = compare m n := by
  have hscale {x y : Nat} (B : Nat) (hB : 0 < B) : compare (x * B) (y * B) = compare x y := by
    have := compare_mul_add (a := x) (b := y) hB hB
    rwa [Nat.compare_eq_eq.2 rfl, Ordering.then_eq] at this
  have hv : v ≤ 8 := by have := hn.width; omega
  rw [hm.value, hn.value]
  obtain rfl | ⟨j, rfl, hj⟩ : v = w ∨ ∃ j, v = w + (j + 1) ∧ 2 ≤ j := by
    have := hm.width
    have := hn.width
    by_cases hwv : v = w
    · exact .inl hwv
    · exact .inr ⟨v - w - 1, by omega, by omega⟩
  · rw [compare_digits hm.lt hn.lt, hscale _ (Nat.pow_pos (by decide))]
  · have hpow : 8 - w = j + 1 + (8 - (w + (j + 1))) := by omega
    have hne : b % 10 ^ (j + 1) ≠ 0 := by
      intro hzero
      have hdvd : 10 ^ 3 ∣ 10 ^ (j + 1) := Nat.pow_dvd_pow 10 (by omega)
      have := hdvd.trans (Nat.dvd_of_mod_eq_zero hzero)
      have := hn.fewest
      omega
    rw [hpow, Nat.pow_add, ← Nat.mul_assoc, hscale _ (Nat.pow_pos (by decide))]
    have hlt := hn.lt
    rw [show w + (j + 1) + 1 = w + 1 + (j + 1) by omega] at hlt ⊢
    exact compare_digits_add hm.lt hlt hne

/-- **The texts of fractions sort as the fractions do**, whatever their lengths. -/
theorem compare_fractionText {m n : Nat} (hm : m < 1000000000) (hn : n < 1000000000) :
    compare (Utf8.encode (Time.fractionText m)) (Utf8.encode (Time.fractionText n)) =
      compare m n := by
  by_cases hm0 : m = 0
  · subst hm0
    by_cases hn0 : n = 0
    · subst hn0
      rfl
    · obtain ⟨v, b, hb⟩ := exists_decimals hn0 hn
      rw [hb.text, Nat.compare_eq_lt.2 (Nat.pos_of_ne_zero hn0)]
      rfl
  · obtain ⟨w, a, ha⟩ := exists_decimals hm0 hm
    by_cases hn0 : n = 0
    · subst hn0
      rw [ha.text, Nat.compare_eq_gt.2 (Nat.pos_of_ne_zero hm0)]
      rfl
    · obtain ⟨v, b, hb⟩ := exists_decimals hn0 hn
      rw [ha.text, hb.text, compare_encode_cons]
      rcases Nat.le_total w v with h | h
      · exact ha.compare_of_le hb h
      · rw [Std.OrientedOrd.eq_swap, Std.OrientedOrd.eq_swap (a := m)]
        exact congrArg Ordering.swap (hb.compare_of_le ha h)

/-! ### Texts -/

namespace Date

/-- The year has four digits. -/
def FourDigits (d : Date) : Prop := 0 ≤ d.year ∧ d.year ≤ 9999

/-- A number that grows with the date. -/
def place (d : Date) : Nat := (d.year.toNat * 13 + d.month) * 32 + d.day

theorem day_lt (d : Date) : d.day < 32 :=
  Nat.lt_succ_of_le (d.day_range.2.trans (daysIn_le d.year d.month))

theorem month_lt (d : Date) : d.month < 13 := Nat.lt_succ_of_le d.month_range.2

theorem compare_place (d e : Date) : compare d.place e.place =
    (compare d.year.toNat e.year.toNat).then
      ((compare d.month e.month).then (compare d.day e.day)) := by
  rw [place, place, compare_mul_add d.day_lt e.day_lt, compare_mul_add d.month_lt e.month_lt,
    Ordering.then_assoc]

/-- Days are numbered in the order of year, month and day. -/
theorem compare_dayNumber {d e : Date} (hd : d.FourDigits) (he : e.FourDigits) :
    compare d.dayNumber e.dayNumber = compare d.place e.place := by
  have hlt {d e : Date} (hd : d.FourDigits) (he : e.FourDigits) (h : d.place < e.place) :
      d.dayNumber < e.dayNumber := by
    refine dayNumber_lt ?_
    obtain ⟨hd, -⟩ := hd
    obtain ⟨he, -⟩ := he
    have := d.day_lt
    have := e.day_lt
    have := d.month_range
    have := e.month_range
    simp only [place] at h
    simp only [monthNumber]
    omega
  rcases Nat.lt_trichotomy d.place e.place with h | h | h
  · rw [Nat.compare_eq_lt.2 h, Int.compare_eq_lt.2 (hlt hd he h)]
  · obtain rfl : d = e := by
      obtain ⟨hd, -⟩ := hd
      obtain ⟨he, -⟩ := he
      have := d.day_lt
      have := e.day_lt
      have := d.month_lt
      have := e.month_lt
      simp only [place] at h
      exact eq_of_monthNumber (by simp only [monthNumber]; omega) (by omega)
    rw [Nat.compare_eq_eq.2 rfl, Int.compare_eq_eq.2 rfl]
  · rw [Nat.compare_eq_gt.2 h, Int.compare_eq_gt.2 (hlt he hd h)]

/-- The texts of dates sort as the days do, before what follows them. -/
theorem compare_text_append {d e : Date} (hd : d.FourDigits) (he : e.FourDigits) (s t : List Char) :
    compare (Utf8.encode (d.text ++ s)) (Utf8.encode (e.text ++ t)) =
      (compare d.dayNumber e.dayNumber).then (compare (Utf8.encode s) (Utf8.encode t)) := by
  have htext {d : Date} (h : d.FourDigits) (s : List Char) : d.text ++ s =
      Text.padded 4 d.year.toNat ++ '-' ::
        (Text.padded 2 d.month ++ '-' :: (Text.padded 2 d.day ++ s)) := by
    obtain ⟨hlo, hhi⟩ := h
    have hnat : d.year.natAbs = d.year.toNat := by omega
    rw [text, yearText, if_neg (by omega), if_neg (by omega), hnat]
    simp only [List.nil_append, List.append_assoc, List.cons_append]
  have hyear {d : Date} (h : d.FourDigits) : d.year.toNat < 10 ^ 4 := by
    have := h.2
    simp
    omega
  have hmonth (d : Date) : d.month < 10 ^ 2 := d.month_lt.trans (by decide)
  have hday (d : Date) : d.day < 10 ^ 2 := d.day_lt.trans (by decide)
  rw [compare_dayNumber hd he, compare_place, htext hd, htext he,
    compare_padded_append (hyear hd) (hyear he), compare_encode_cons,
    compare_padded_append (hmonth d) (hmonth e), compare_encode_cons,
    compare_padded_append (hday d) (hday e), Ordering.then_assoc, Ordering.then_assoc]

theorem compare_text {d e : Date} (hd : d.FourDigits) (he : e.FourDigits) :
    compare (Utf8.encode d.text) (Utf8.encode e.text) = compare d.dayNumber e.dayNumber := by
  have h := compare_text_append hd he [] []
  rwa [List.append_nil, List.append_nil, Std.compare_self, Ordering.then_eq] at h

end Date

namespace DateTime

/-- The year has four digits, and the second is no leap second. -/
structure Ordinary (t : DateTime) : Prop where
  date : t.date.FourDigits
  nano : t.time.nano < 1000000000

theorem compare_instant {a b : DateTime} (ha : a.Ordinary) (hb : b.Ordinary) :
    compare a.instant b.instant = (compare a.date.dayNumber b.date.dayNumber).then
      ((compare a.time.hour b.time.hour).then ((compare a.time.minute b.time.minute).then
        ((compare a.time.second b.time.second).then (compare a.time.nano b.time.nano)))) := by
  have hinstant (t : DateTime) : t.instant =
      (((t.date.dayNumber * (24 : Nat) + t.time.hour) * (60 : Nat) + t.time.minute) * (60 : Nat) +
        t.time.second) * (1000000000 : Nat) + t.time.nano := rfl
  rw [hinstant, hinstant, compare_mul_add_int ha.nano hb.nano,
    compare_mul_add_int a.time.second_lt b.time.second_lt,
    compare_mul_add_int a.time.minute_lt b.time.minute_lt,
    compare_mul_add_int a.time.hour_lt b.time.hour_lt]
  simp only [Ordering.then_assoc]

/-- **The texts of points in time sort as time does.** -/
theorem compare_text {a b : DateTime} (ha : a.Ordinary) (hb : b.Ordinary) :
    compare (Utf8.encode a.text) (Utf8.encode b.text) = compare a.instant b.instant := by
  have htime {t : DateTime} (h : t.Ordinary) : t.time.text = Text.padded 2 t.time.hour ++ ':' ::
      (Text.padded 2 t.time.minute ++ ':' ::
        (Text.padded 2 t.time.second ++ Time.fractionText t.time.nano)) := by
    rw [Time.text, Nat.div_eq_of_lt h.nano, Nat.mod_eq_of_lt h.nano, Nat.add_zero]
  have hsmall {n B : Nat} (h : n < B) (hB : B ≤ 100) : n < 10 ^ 2 := h.trans_le hB
  rw [text, text, Date.compare_text_append ha.date hb.date, compare_encode_cons, htime ha, htime hb,
    compare_padded_append (hsmall a.time.hour_lt (by decide)) (hsmall b.time.hour_lt (by decide)),
    compare_encode_cons,
    compare_padded_append (hsmall a.time.minute_lt (by decide))
      (hsmall b.time.minute_lt (by decide)),
    compare_encode_cons,
    compare_padded_append (hsmall a.time.second_lt (by decide))
      (hsmall b.time.second_lt (by decide)),
    compare_fractionText ha.nano hb.nano, compare_instant ha hb]

theorem instant_ofTimestamp? {seconds : Int} {nano : Nat} {t : DateTime}
    (h : ofTimestamp? seconds nano = some t) : t.instant = seconds * 1000000000 + nano := by
  unfold ofTimestamp? at h
  simp only [Option.bind_eq_bind, Option.bind_eq_some_iff, Option.pure_def, Option.some.injEq] at h
  obtain ⟨date, hdate, time, htime, rfl⟩ := h
  unfold Time.ofHms? at htime
  split_ifs at htime
  cases htime
  rw [instant, Date.dayNumber_ofDayNumber? hdate]
  dsimp only
  omega

end DateTime

end Calendar

/-- The bytes that a text is stored as. -/
def Value.storedBytes (v : Value) : List UInt8 :=
  match v.toCell with
  | .text bytes => bytes
  | _ => []

namespace Calendar

theorem storedBytes_ofDate (d : Date) : (Value.ofDate d).storedBytes = Utf8.encode d.text := by
  rw [Value.storedBytes, Value.ofDate, Value.toCell, String.toList_ofList]

theorem storedBytes_ofDateTime (t : DateTime) :
    (Value.ofDateTime t).storedBytes = Utf8.encode t.text := by
  rw [Value.storedBytes, Value.ofDateTime, Value.toCell, String.toList_ofList]

/-- The order of what is stored is the order of time. -/
structure TextsSort : Prop where
  /-- Dates are stored in the order of days. -/
  dates : ∀ d e : Date, d.FourDigits → e.FourDigits →
    compare (Value.ofDate d).storedBytes (Value.ofDate e).storedBytes =
      compare d.dayNumber e.dayNumber
  /-- Points in time are stored in the order of time. -/
  dateTimes : ∀ a b : DateTime, a.Ordinary → b.Ordinary →
    compare (Value.ofDateTime a).storedBytes (Value.ofDateTime b).storedBytes =
      compare a.instant b.instant
  /-- Points given by seconds and nanoseconds are stored in the order of these. -/
  timestamps : ∀ {s s' : Int} {n n' : Nat} {a b : DateTime},
    DateTime.ofTimestamp? s n = some a → DateTime.ofTimestamp? s' n' = some b →
    a.Ordinary → b.Ordinary →
    compare (Value.ofDateTime a).storedBytes (Value.ofDateTime b).storedBytes =
      compare (s * 1000000000 + n) (s' * 1000000000 + n')
  /-- Different days have different texts. -/
  datesDiffer : ∀ d e : Date, d.FourDigits → e.FourDigits → d.dayNumber ≠ e.dayNumber →
    Value.ofDate d ≠ Value.ofDate e
  /-- Different instants have different texts. -/
  dateTimesDiffer : ∀ a b : DateTime, a.Ordinary → b.Ordinary → a.instant ≠ b.instant →
    Value.ofDateTime a ≠ Value.ofDateTime b

/-- **Stored dates and points in time sort as time does.** -/
theorem textsSort : TextsSort := by
  have hdates (d e : Date) (hd : d.FourDigits) (he : e.FourDigits) :
      compare (Value.ofDate d).storedBytes (Value.ofDate e).storedBytes =
        compare d.dayNumber e.dayNumber := by
    rw [storedBytes_ofDate, storedBytes_ofDate, Date.compare_text hd he]
  have hdateTimes (a b : DateTime) (ha : a.Ordinary) (hb : b.Ordinary) :
      compare (Value.ofDateTime a).storedBytes (Value.ofDateTime b).storedBytes =
        compare a.instant b.instant := by
    rw [storedBytes_ofDateTime, storedBytes_ofDateTime, DateTime.compare_text ha hb]
  refine ⟨hdates, hdateTimes, ?_, ?_, ?_⟩
  · intro s s' n n' a b hs hs' ha hb
    rw [hdateTimes a b ha hb, DateTime.instant_ofTimestamp? hs, DateTime.instant_ofTimestamp? hs']
  · intro d e hd he hne h
    have hcompare := hdates d e hd he
    rw [h, Std.compare_self] at hcompare
    exact hne (Int.compare_eq_eq.1 hcompare.symm)
  · intro a b ha hb hne h
    have hcompare := hdateTimes a b ha hb
    rw [h, Std.compare_self] at hcompare
    exact hne (Int.compare_eq_eq.1 hcompare.symm)

example : (DateTime.ofTimestamp? 951868799 500000000).map Value.ofDateTime =
    some (.text "2000-02-29 23:59:59.500") := by
  decide +kernel

end Calendar

end BoundSql

import Marketplace.Proofs.Json.Encoded
import Marketplace.Proofs.Text.Blank
import Marketplace.Proofs.Text.Digits
import Marketplace.Proofs.Time.Calendar
set_option autoImplicit false

/-!
# Instants and their texts

Every instant of the calendar has a text, whatever its year and its fraction of a second, and the
text denotes an instant (`Instant.parse?_text`).  It is the same instant again unless that lies in a
leap second which does not end a minute: second sixty is the only one that a text can show beyond
the fifty-ninth, so such a leap second has the text of the second after it (`Instant.shown`).  The
instants that some text denotes are just those that are read back from their own
(`Instant.denoted_iff`).
-/

namespace Marketplace

namespace Instant

/-- The calendar has the instant.  Nanoseconds beyond a second's belong to a leap second; any second
may have one after it, for where clocks differ from UTC by odd seconds a minute ends at any second
of ours. -/
structure Valid (t : Instant) : Prop where
  seconds_ge : minSeconds ≤ t.seconds
  seconds_le : t.seconds ≤ maxSeconds
  nanos_lt : t.nanos < 2 * nanosPerSecond

/-- The leap second that the instant lies in, if it lies in one, ends a minute of UTC.  Only for
these is there a text of their own. -/
def Regular (t : Instant) : Prop := nanosPerSecond ≤ t.nanos → t.seconds % 60 = 59

instance (t : Instant) : Decidable t.Regular := inferInstanceAs (Decidable (_ → _))

/-- What the text of the instant shows: a leap second within a minute looks like the second after
it, with the same fraction.  For all other instants it is the instant itself
(`shown_eq_self_iff`). -/
def shown (t : Instant) : Instant :=
  if t.Regular then t else ⟨t.seconds + 1, t.nanos - nanosPerSecond⟩

/-! ## Padded numbers

The fields of a text are numbers of a fixed width.  Each is read back with anything behind it, which
lets the whole text be read field by field.
-/

section Padded

variable {w n : Nat}

theorem isDigit_of_mem_padded {c : Char} (hc : c ∈ padded w n) : c.isDigit = true := by
  rw [padded, List.mem_append, List.mem_replicate] at hc
  rcases hc with ⟨-, rfl⟩ | hc
  · rfl
  · exact List.all_eq_true.mp (Text.all_isDigit_toDigits n) c hc

theorem digitsValue_padded (w n : Nat) : Text.digitsValue (padded w n) = n := by
  rw [Text.digitsValue_eq_ofDigitChars, padded, Nat.ofDigitChars_append,
    Nat.ofDigitChars_replicate_zero, Nat.mul_zero, Nat.ofDigitChars_ten_toDigits]

theorem length_padded (hw : 0 < w) (hn : n < 10 ^ w) : (padded w n).length = w := by
  have hlength : (Nat.toDigits 10 n).length ≤ w :=
    (Nat.length_toDigits_le_iff (by decide) hw).mpr hn
  rw [padded, List.length_append, List.length_replicate]
  omega

theorem padded_ne_nil (w n : Nat) : padded w n ≠ [] := by
  simp [padded, Nat.toDigits_ne_nil]

/-- A padded number begins with a digit, so no sign and no blank is read in its place. -/
theorem exists_padded_eq_cons (w n : Nat) :
    ∃ c cs, padded w n = c :: cs ∧ c.isDigit = true := by
  obtain ⟨c, cs, hcs⟩ := List.exists_cons_of_ne_nil (padded_ne_nil w n)
  exact ⟨c, cs, hcs, isDigit_of_mem_padded (hcs ▸ List.mem_cons_self)⟩

theorem dropBlanks_padded (w n : Nat) (rest : List Char) :
    Text.dropBlanks (padded w n ++ rest) = padded w n ++ rest := by
  obtain ⟨c, cs, hcs, hc⟩ := exists_padded_eq_cons w n
  rw [hcs, List.cons_append, Text.dropBlanks_cons (Text.isBlank_of_isDigit hc)]

/-- A number of full width is read, whatever follows it. -/
theorem readDigits_padded (hw : 0 < w) (hn : n < 10 ^ w) (rest : List Char) :
    readDigits (some w) (padded w n ++ rest) = some (padded w n, rest) := by
  have hlength := length_padded hw hn
  have htake : ((padded w n ++ rest).takeWhile Char.isDigit).take w = padded w n := by
    rw [List.takeWhile_append_of_pos fun c => isDigit_of_mem_padded, List.take_left' hlength]
  simp only [readDigits, htake]
  rw [if_neg (by simpa using padded_ne_nil w n), List.drop_left]

/-- A number of any width is read up to the first character that is no digit. -/
theorem readDigits_none_padded (w n : Nat) {rest : List Char}
    (hrest : ∀ c, rest.head? = some c → c.isDigit = false) :
    readDigits none (padded w n ++ rest) = some (padded w n, rest) := by
  have hstop : rest.takeWhile Char.isDigit = [] := by
    cases rest with
    | nil => rfl
    | cons c rest => exact List.takeWhile_cons_of_neg (by simp [hrest c rfl])
  have htake : (padded w n ++ rest).takeWhile Char.isDigit = padded w n := by
    rw [List.takeWhile_append_of_pos fun c => isDigit_of_mem_padded, hstop, List.append_nil]
  simp only [readDigits, htake]
  rw [if_neg (by simpa using padded_ne_nil w n), List.drop_left]

theorem readField_padded {low high : Nat} (hw : 0 < w) (hn : n < 10 ^ w) (hlow : low ≤ n)
    (hhigh : n ≤ high) (rest : List Char) :
    readField w low high (padded w n ++ rest) = some (n, rest) := by
  simp [readField, dropBlanks_padded, readDigits_padded hw hn, digitsValue_padded, hlow, hhigh]

end Padded

/-! ## The parts of a text -/

theorem readSeparator_cons {c : Char} (hc : Text.isBlank c = false) (cs : List Char) :
    readSeparator c (c :: cs) = some cs := by
  simp [readSeparator, Text.dropBlanks_cons hc]

/-- A year of four digits stands as it is; one that is negative or longer has a sign, which is how
the reader knows where it ends. -/
theorem readYear_yearText (year : Int) (rest : List Char) :
    readYear (yearText year ++ '-' :: rest) = some (year, '-' :: rest) := by
  have hdash : ∀ c, ('-' :: rest).head? = some c → c.isDigit = false := by
    intro c hc
    cases hc
    rfl
  unfold yearText
  split
  · split
    · obtain ⟨c, cs, hcs, hc⟩ := exists_padded_eq_cons 4 year.toNat
      have hread := @readDigits_padded 4 year.toNat (by decide) (by omega) ('-' :: rest)
      unfold readYear
      rw [dropBlanks_padded]
      split
      · rename_i heq
        rw [hcs] at heq
        cases heq
        cases hc
      · rename_i heq
        rw [hcs] at heq
        cases heq
        cases hc
      · rw [hread, Option.map_some, digitsValue_padded]
        simp only [Option.some.injEq, Prod.mk.injEq, and_true]
        omega
    · have hread := readDigits_none_padded 4 year.toNat hdash
      rw [List.cons_append, readYear, Text.dropBlanks_cons rfl]
      simp only [hread, Option.map_some, digitsValue_padded]
      simp only [Option.some.injEq, Prod.mk.injEq, and_true]
      omega
  · have hread := readDigits_none_padded 4 year.natAbs hdash
    rw [List.cons_append, readYear, Text.dropBlanks_cons rfl]
    simp only [hread, Option.map_some, digitsValue_padded]
    simp only [Option.some.injEq, Prod.mk.injEq, and_true]
    omega

/-- A fraction of fewer than nine digits is filled up on the right. -/
theorem readFraction_padded {w n : Nat} (hw : 0 < w) (hwidth : w ≤ 9) (hn : n < 10 ^ w)
    {rest : List Char} (hrest : ∀ c, rest.head? = some c → c.isDigit = false) :
    readFraction ('.' :: (padded w n ++ rest)) = some (n * 10 ^ (9 - w), rest) := by
  have htake : (padded w n).take 9 = padded w n :=
    List.take_of_length_le (by rwa [length_padded hw hn])
  simp only [readFraction, readDigits_none_padded w n hrest, Option.bind_eq_bind, Option.bind_some,
    htake, digitsValue_padded, length_padded hw hn, Nat.pow_eq]

/-- The fraction is left out if it is zero, and has three, six or nine digits otherwise; in each
case it is read as the nanoseconds. -/
theorem readFraction_fractionText {nanos : Nat} (h : nanos < nanosPerSecond) {rest : List Char}
    (hdigit : ∀ c, rest.head? = some c → c.isDigit = false) (hpoint : rest.head? ≠ some '.') :
    readFraction (fractionText nanos ++ rest) = some (nanos, rest) := by
  unfold nanosPerSecond at h
  unfold fractionText
  split
  · rename_i hzero
    rw [beq_iff_eq] at hzero
    rw [hzero, List.nil_append, readFraction]
    intro cs hcs
    rw [hcs] at hpoint
    exact hpoint rfl
  · split
    · rename_i hmillis
      rw [beq_iff_eq] at hmillis
      rw [List.cons_append, readFraction_padded (by decide) (by decide) (by omega) hdigit]
      simp only [Option.some.injEq, Prod.mk.injEq, and_true]
      omega
    · split
      · rename_i hmicros
        rw [beq_iff_eq] at hmicros
        rw [List.cons_append, readFraction_padded (by decide) (by decide) (by omega) hdigit]
        simp only [Option.some.injEq, Prod.mk.injEq, and_true]
        omega
      · rw [List.cons_append, readFraction_padded (by decide) (by decide) (by omega) hdigit]
        simp

/-! ## Whole texts -/

/-- A date and a time of day in UTC are read from their text.  The parts need not be those of an
instant for this, only fit their fields, so that the sixtieth second is read as well. -/
theorem parse?_parts {year : Int} {month day hour minute second nanos : Nat}
    (hdate : IsDate year month day) (hhour : hour ≤ 23) (hminute : minute ≤ 59)
    (hsecond : second ≤ 60) (hnanos : nanos < nanosPerSecond) :
    parse? (String.ofList (yearText year ++ '-' :: padded 2 month ++ '-' :: padded 2 day ++
      'T' :: padded 2 hour ++ ':' :: padded 2 minute ++ ':' :: padded 2 second ++
      fractionText nanos ++ ['Z'])) =
      ofCivil year month day hour minute second nanos 0 := by
  have hdays : day ≤ 31 := by
    refine Nat.le_trans hdate.day_le ?_
    unfold daysInMonth
    split_ifs <;> decide
  have hmonthPos := hdate.month_pos
  have hmonthLe := hdate.month_le
  have hdayPos := hdate.day_pos
  have hmonth (rest : List Char) : readField 2 1 12 (padded 2 month ++ rest) = some (month, rest) :=
    readField_padded (by decide) (by omega) (by omega) (by omega) rest
  have hday (rest : List Char) : readField 2 1 31 (padded 2 day ++ rest) = some (day, rest) :=
    readField_padded (by decide) (by omega) (by omega) (by omega) rest
  have hhours (rest : List Char) : readField 2 0 23 (padded 2 hour ++ rest) = some (hour, rest) :=
    readField_padded (by decide) (by omega) (by omega) (by omega) rest
  have hminutes (rest : List Char) :
      readField 2 0 59 (padded 2 minute ++ rest) = some (minute, rest) :=
    readField_padded (by decide) (by omega) (by omega) (by omega) rest
  have hseconds (rest : List Char) :
      readField 2 0 60 (padded 2 second ++ rest) = some (second, rest) :=
    readField_padded (by decide) (by omega) (by omega) (by omega) rest
  have hfraction : readFraction (fractionText nanos ++ ['Z']) = some (nanos, ['Z']) := by
    refine readFraction_fractionText hnanos (fun c hc => ?_) (by decide)
    cases hc
    rfl
  have hdash (rest : List Char) : readSeparator '-' ('-' :: rest) = some rest :=
    readSeparator_cons rfl rest
  have hcolon (rest : List Char) : readSeparator ':' (':' :: rest) = some rest :=
    readSeparator_cons rfl rest
  have hmark (rest : List Char) : readMark ('T' :: rest) = some rest := rfl
  have hzone : readZone (Text.dropBlanks ['Z']) = some (0, []) := rfl
  have hend : (Text.dropBlanks []).isEmpty = true := rfl
  simp only [parse?, String.toList_ofList, List.append_assoc, List.cons_append, readDate,
    readYear_yearText, Option.bind_eq_bind, Option.bind_some, hdash, hmonth, hday, hmark,
    readTimeOfDay, hhours, hcolon, hminutes, hseconds, hfraction, hzone, hend, if_true]

/-- The day that an instant falls on. -/
def day (t : Instant) : Int := Int.fdiv t.seconds 86400

/-- The seconds of the day that have passed. -/
def timeOfDay (t : Instant) : Nat := (t.seconds - t.day * 86400).toNat

/-- The second of the minute, which is one further in a leap second.  That is the sixtieth only if
the minute ends there. -/
def clockSecond (t : Instant) : Nat :=
  t.timeOfDay % 60 + (if nanosPerSecond ≤ t.nanos then 1 else 0)

/-- The nanoseconds of the second. -/
def clockNanos (t : Instant) : Nat :=
  if nanosPerSecond ≤ t.nanos then t.nanos - nanosPerSecond else t.nanos

theorem seconds_eq (t : Instant) :
    t.seconds = t.day * 86400 + t.timeOfDay ∧ t.timeOfDay < 86400 := by
  have hday : t.day = t.seconds / 86400 := Int.fdiv_eq_ediv_of_nonneg _ (by decide)
  unfold timeOfDay
  omega

/-- The text of an instant in its parts. -/
theorem text_eq (t : Instant) : t.text = String.ofList
    (yearText (civilFromDays t.day).1 ++ '-' :: padded 2 (civilFromDays t.day).2.1 ++
      '-' :: padded 2 (civilFromDays t.day).2.2 ++ 'T' :: padded 2 (t.timeOfDay / 3600) ++
      ':' :: padded 2 (t.timeOfDay / 60 % 60) ++ ':' :: padded 2 t.clockSecond ++
      fractionText t.clockNanos ++ ['Z']) := rfl

theorem clockSecond_le (t : Instant) : t.clockSecond ≤ 60 := by
  unfold clockSecond
  split <;> omega

section Valid

variable {t : Instant}

theorem Valid.clockNanos_lt (h : t.Valid) : t.clockNanos < nanosPerSecond := by
  have hnanos := h.nanos_lt
  unfold clockNanos
  split <;> omega

/-- The calendar has no other years than those that a text can show. -/
theorem Valid.year (h : t.Valid) :
    minYear ≤ (civilFromDays t.day).1 ∧ (civilFromDays t.day).1 ≤ maxYear := by
  have hseconds := t.seconds_eq
  have hlow := h.seconds_ge
  have hhigh := h.seconds_le
  unfold minSeconds at hlow
  unfold maxSeconds at hhigh
  exact year_civilFromDays (by omega) (by omega)

/-- The date and the time of day of an instant lead back to it.  This fails within a minute, where
the second on the clock is one that the minute has anyway. -/
theorem Valid.ofCivil (h : t.Valid) (hregular : t.Regular) :
    ofCivil (civilFromDays t.day).1 (civilFromDays t.day).2.1 (civilFromDays t.day).2.2
      (t.timeOfDay / 3600) (t.timeOfDay / 60 % 60) t.clockSecond t.clockNanos 0 = some t := by
  have hdate := (civilFromDays_isDate t.day).day_le
  have hseconds := t.seconds_eq
  have hrange := And.intro h.seconds_ge h.seconds_le
  unfold Instant.ofCivil
  simp only [hdate, h.year, decide_true, Bool.and_self, if_true, daysFromCivil_civilFromDays]
  -- In a leap second the clock shows the sixtieth second, and the instant counts the one before it.
  by_cases hleap : nanosPerSecond ≤ t.nanos
  · have hlast : t.timeOfDay % 60 = 59 := by
      have hminute := hregular hleap
      omega
    have hsecond : (t.clockSecond == 60) = true := by simp [clockSecond, hleap, hlast]
    have hnanos : nanosPerSecond + t.clockNanos = t.nanos := by
      rw [clockNanos, if_pos hleap]
      omega
    have htime : t.day * 86400 +
        (t.timeOfDay / 3600 * 3600 + t.timeOfDay / 60 % 60 * 60 + 59 : Nat) - 0 = t.seconds := by
      omega
    simp only [hsecond, if_true, hnanos, htime, hrange, decide_true, Bool.and_self]
  · have hplain : t.clockSecond = t.timeOfDay % 60 := by simp [clockSecond, hleap]
    have hsecond : (t.clockSecond == 60) = false := by
      rw [beq_eq_false_iff_ne]
      omega
    have hnanos : t.clockNanos = t.nanos := if_neg hleap
    have htime : t.day * 86400 +
        (t.timeOfDay / 3600 * 3600 + t.timeOfDay / 60 % 60 * 60 + t.clockSecond : Nat) - 0 =
          t.seconds := by
      omega
    simp only [hsecond, Bool.false_eq_true, if_false, hnanos, htime, hrange, decide_true,
      Bool.and_self, if_true]

/-! ### What a text shows -/

theorem shown_eq_self_iff : t.shown = t ↔ t.Regular := by
  unfold shown
  split
  · rename_i hregular
    exact iff_of_true rfl hregular
  · rename_i hregular
    refine iff_of_false (fun heq => ?_) hregular
    have hseconds : t.seconds + 1 = t.seconds := congrArg Instant.seconds heq
    omega

/-- Either the text shows the instant, or the instant is in a leap second that does not end a
minute. -/
theorem shown_cases (t : Instant) : t.Regular ∧ t.shown = t ∨
    nanosPerSecond ≤ t.nanos ∧ t.seconds % 60 ≠ 59 ∧
      t.shown = ⟨t.seconds + 1, t.nanos - nanosPerSecond⟩ := by
  by_cases hregular : t.Regular
  · exact Or.inl ⟨hregular, if_pos hregular⟩
  · have hshown : t.shown = ⟨t.seconds + 1, t.nanos - nanosPerSecond⟩ := if_neg hregular
    unfold Regular at hregular
    exact Or.inr ⟨by omega, by omega, hshown⟩

/-- What is shown lies in the calendar, whose last second ends a minute. -/
theorem Valid.shown (h : t.Valid) : t.shown.Valid := by
  have hlast : maxSeconds % 60 = 59 := by decide
  have hlow := h.seconds_ge
  have hhigh := h.seconds_le
  have hnanos := h.nanos_lt
  obtain ⟨-, heq⟩ | ⟨hleap, hminute, heq⟩ := t.shown_cases
  · rwa [heq]
  · rw [heq]
    exact ⟨by dsimp only; omega, by dsimp only; omega, by dsimp only; omega⟩

/-- What is shown is shown as itself. -/
theorem Valid.regular_shown (h : t.Valid) : t.shown.Regular := by
  have hnanos := h.nanos_lt
  obtain ⟨hregular, heq⟩ | ⟨hleap, hminute, heq⟩ := t.shown_cases
  · rwa [heq]
  · rw [heq]
    intro hbeyond
    dsimp only at hbeyond
    omega

/-- An instant has the text of what it shows: the clock is in the same minute, one second on. -/
theorem Valid.text_shown (h : t.Valid) : t.shown.text = t.text := by
  obtain ⟨-, heq⟩ | ⟨hleap, hminute, heq⟩ := t.shown_cases
  · rw [heq]
  · have hnanos := h.nanos_lt
    have hseconds := t.seconds_eq
    have hnext := t.shown.seconds_eq
    have hsecond : t.shown.seconds = t.seconds + 1 := by rw [heq]
    have hfraction : t.shown.nanos = t.nanos - nanosPerSecond := by rw [heq]
    have hday : t.shown.day = t.day := by omega
    have htime : t.shown.timeOfDay = t.timeOfDay + 1 := by omega
    have hplain : ¬nanosPerSecond ≤ t.shown.nanos := by omega
    have hclock : t.shown.clockSecond = t.clockSecond := by
      rw [clockSecond, clockSecond, if_neg hplain, if_pos hleap, htime]
      omega
    have hrest : t.shown.clockNanos = t.clockNanos := by
      rw [clockNanos, clockNanos, if_neg hplain, if_pos hleap, hfraction]
    have hhours : (t.timeOfDay + 1) / 3600 = t.timeOfDay / 3600 := by omega
    have hminutes : (t.timeOfDay + 1) / 60 = t.timeOfDay / 60 := by omega
    rw [text_eq, text_eq, hday, htime, hclock, hrest, hhours, hminutes]

/-- The text of an instant denotes what it shows.  It suffices to look at instants that are shown as
themselves, for what is shown has the same text. -/
theorem parse?_text (h : t.Valid) : parse? t.text = some t.shown := by
  have hseconds := t.shown.seconds_eq
  rw [← h.text_shown, text_eq, parse?_parts (civilFromDays_isDate t.shown.day) (by omega) (by omega)
    t.shown.clockSecond_le h.shown.clockNanos_lt, h.shown.ofCivil h.regular_shown]

theorem Valid.reads (h : t.Valid) : decoder.Reads t.toJson t.shown :=
  (Json.Decoder.reads_text t.text).filterMap (parse?_text h)

end Valid

/-! ## What texts denote

The other direction: whatever is read lies in the calendar, and a leap second is read only from the
sixtieth second of a minute.  An offset is a whole number of minutes, so that minutes end together
everywhere.
-/

theorem digits_of_readDigits {width : Option Nat} {cs ds rest : List Char}
    (h : readDigits width cs = some (ds, rest)) : ds.all Char.isDigit = true := by
  rw [List.all_eq_true]
  intro c hc
  cases width with
  | none =>
    simp only [readDigits] at h
    split at h
    · cases h
    · cases h
      exact List.mem_takeWhile_imp hc
  | some w =>
    simp only [readDigits] at h
    split at h
    · cases h
    · cases h
      exact List.mem_takeWhile_imp (List.mem_of_mem_take hc)

theorem readField_le {width low high n : Nat} {cs rest : List Char}
    (h : readField width low high cs = some (n, rest)) : n ≤ high := by
  simp only [readField, Option.bind_eq_bind, Option.bind_eq_some_iff, Prod.exists] at h
  obtain ⟨ds, rest', -, h⟩ := h
  split at h
  · rename_i hrange
    cases h
    simp only [Bool.and_eq_true, decide_eq_true_eq] at hrange
    exact hrange.2
  · cases h

theorem readFraction_lt {n : Nat} {cs rest : List Char} (h : readFraction cs = some (n, rest)) :
    n < nanosPerSecond := by
  unfold readFraction at h
  split at h
  · simp only [Option.bind_eq_bind, Option.bind_eq_some_iff, Prod.exists, Option.some.injEq,
      Prod.mk.injEq] at h
    obtain ⟨ds, rest', hds, rfl, -⟩ := h
    have hdigits := List.all_eq_true.mp (digits_of_readDigits hds)
    have hkept : (ds.take 9).all Char.isDigit = true :=
      List.all_eq_true.mpr fun c hc => hdigits c (List.mem_of_mem_take hc)
    have hvalue := Text.digitsValue_lt hkept
    have hlength : (ds.take 9).length ≤ 9 := List.length_take_le 9 ds
    calc Text.digitsValue (ds.take 9) * Nat.pow 10 (9 - (ds.take 9).length)
        < 10 ^ (ds.take 9).length * 10 ^ (9 - (ds.take 9).length) :=
          Nat.mul_lt_mul_of_pos_right hvalue (Nat.pow_pos (by decide))
      _ = nanosPerSecond := by
          rw [← Nat.pow_add, Nat.add_sub_cancel' hlength]
          rfl
  · cases h
    decide

/-- An offset from UTC is a whole number of minutes. -/
theorem readZone_minutes {offset : Int} {cs rest : List Char}
    (h : readZone cs = some (offset, rest)) : offset % 60 = 0 := by
  have hoffset : ∀ negative cs, readOffset negative cs = some (offset, rest) → offset % 60 = 0 := by
    intro negative cs h
    unfold readOffset at h
    split at h
    · split at h
      · split at h
        · split at h
          · simp only at h
            split at h
            · cases h
              split <;> omega
            · cases h
          · cases h
        · cases h
      · cases h
    · cases h
  unfold readZone at h
  split at h
  · exact hoffset _ _ h
  · exact hoffset _ _ h
  · exact hoffset _ _ h
  · split at h
    · cases h
      rfl
    · split at h
      · split at h
        · cases h
          rfl
        · cases h
      · cases h
  · cases h

/-- A date and a time of day, with an offset, give an instant of the calendar or none. -/
theorem valid_of_ofCivil {year : Int} {month day hour minute second nanos : Nat} {offset : Int}
    {t : Instant} (hsecond : second ≤ 60) (hnanos : nanos < nanosPerSecond)
    (hoffset : offset % 60 = 0)
    (h : Instant.ofCivil year month day hour minute second nanos offset = some t) :
    t.Valid ∧ t.Regular := by
  unfold Instant.ofCivil at h
  split at h
  · by_cases hleap : second = 60
    · subst hleap
      simp only [beq_self_eq_true, if_true, Option.ite_none_right_eq_some, Bool.and_eq_true,
        decide_eq_true_eq, Option.some.injEq] at h
      obtain ⟨⟨hlow, hhigh⟩, rfl⟩ := h
      refine ⟨⟨hlow, hhigh, ?_⟩, ?_⟩
      · dsimp only
        omega
      · intro _
        dsimp only
        omega
    · have hplain : (second == 60) = false := beq_eq_false_iff_ne.mpr hleap
      simp only [hplain, Bool.false_eq_true, if_false, Option.ite_none_right_eq_some,
        Bool.and_eq_true, decide_eq_true_eq, Option.some.injEq] at h
      obtain ⟨⟨hlow, hhigh⟩, rfl⟩ := h
      refine ⟨⟨hlow, hhigh, ?_⟩, ?_⟩
      · dsimp only
        omega
      · intro hbeyond
        dsimp only at hbeyond
        omega
  · cases h

theorem readTimeOfDay_le {hour minute second nanos : Nat} {cs rest : List Char}
    (h : readTimeOfDay cs = some ((hour, minute, second, nanos), rest)) :
    second ≤ 60 ∧ nanos < nanosPerSecond := by
  simp only [readTimeOfDay, Option.bind_eq_bind, Option.bind_eq_some_iff, Option.some.injEq,
    Prod.exists, Prod.mk.injEq] at h
  obtain ⟨_, _, -, _, -, _, _, -, _, -, _, _, hsecond, _, _, hnanos, ⟨-, -, rfl, rfl⟩, -⟩ := h
  exact ⟨readField_le hsecond, readFraction_lt hnanos⟩

/-- Some text denotes an instant of the calendar exactly if it is in no leap second within a minute.
So the instants that do not come back from their texts are just those that no text denotes at
all. -/
theorem denoted_iff {t : Instant} : (∃ s, parse? s = some t) ↔ t.Valid ∧ t.Regular := by
  constructor
  · rintro ⟨s, h⟩
    simp only [parse?, Option.bind_eq_bind, Option.bind_eq_some_iff, Prod.exists] at h
    obtain ⟨_, _, _, _, -, _, -, _, _, _, _, _, htime, _, _, hzone, h⟩ := h
    split at h
    · have hclock := readTimeOfDay_le htime
      exact valid_of_ofCivil hclock.1 hclock.2 (readZone_minutes hzone) h
    · cases h
  · rintro ⟨h, hregular⟩
    exact ⟨t.text, (parse?_text h).trans (congrArg some (shown_eq_self_iff.mpr hregular))⟩

end Instant

end Marketplace

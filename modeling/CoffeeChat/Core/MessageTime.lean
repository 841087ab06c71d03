import CoffeeChat.Lib.Calendar

/-!
# Time labels of messages

`ChatManager::FormatMsgTime` of `core/chat_manager.cpp`, for times in seconds and a local time that
is the Gregorian calendar at a fixed offset. The label is chosen from the year and the day of the
month of the two times; the month is not looked at. `truthful_iff` says for which pairs of times the
label then means what it says.
-/

namespace CoffeeChat

open Lib.Calendar

namespace ChatManager

/-- `kTimeSpanHalfHour`. -/
def kTimeSpanHalfHour : Nat := 60 * 60

/-- `kTimeSpanMin`. -/
def kTimeSpanMin : Nat := 10 * 60

/-- `struct tm`. -/
structure Tm where
  /-- Years since 1900. -/
  tmYear : Int
  tmMon : Nat
  tmMday : Nat
  tmWday : Nat
  tmHour : Nat
  tmMin : Nat
  deriving DecidableEq, Repr

/-- The number of the local day. -/
def localDay (offset time : Int) : Int := (time + offset) / 86400

/-- `*localtime(&time)`, at an offset of so many seconds. -/
def localtime (offset time : Int) : Tm where
  tmYear := (dateOf (localDay offset time)).year - 1900
  tmMon := (dateOf (localDay offset time)).month
  tmMday := (dateOf (localDay offset time)).day
  tmWday := weekday (localDay offset time)
  tmHour := ((time + offset) % 86400 / 3600).toNat
  tmMin := ((time + offset) % 3600 / 60).toNat

/-- A number of two digits. -/
def twoDigits (n : Nat) : List Char := [Nat.digitChar (n / 10), Nat.digitChar (n % 10)]

/-- `strftime` with `%H:%M`. -/
def hourMinute (tm : Tm) : List Char := twoDigits tm.tmHour ++ ':' :: twoDigits tm.tmMin

/-- `strftime` with `%m/%d`. -/
def monthDay (tm : Tm) : List Char := twoDigits (tm.tmMon + 1) ++ '/' :: twoDigits tm.tmMday

/-- `strftime` with `%Y/%m`. -/
def yearMonth (tm : Tm) : List Char :=
  (toString (tm.tmYear + 1900)).toList ++ '/' :: twoDigits (tm.tmMon + 1)

/-- `weekStr`. -/
def weekStr : Nat → Char
  | 0 => '天'
  | 2 => '二'
  | 3 => '三'
  | 4 => '四'
  | 5 => '五'
  | 6 => '六'
  | _ => '一'

/-- `ChatManager::FormatMsgTime(msgTimeStamp)` at the time `curTime`. -/
def FormatMsgTime (offset curTime msgTimeStamp : Int) : List Char :=
  let curDay := localtime offset curTime
  let msgDay := localtime offset msgTimeStamp
  let timeSpan := (msgTimeStamp - curTime).natAbs
  if timeSpan ≤ kTimeSpanMin then ['刚', '刚']
  else if timeSpan ≤ kTimeSpanHalfHour then
    Nat.toDigits 10 (timeSpan / 60) ++ ['分', '钟', '前']
  else if curDay.tmYear = msgDay.tmYear then
    if curDay.tmMday = msgDay.tmMday then hourMinute msgDay
    else if curDay.tmMday / 7 = msgDay.tmMday / 7 then ['星', '期', weekStr msgDay.tmWday]
    else monthDay msgDay
  else if (msgDay.tmYear - curDay.tmYear).natAbs ≤ 1 then yearMonth msgDay
  else ['很', '久', '以', '前']

/-! ## What a label says -/

/-- A bare time of day. -/
def IsClock (label : List Char) : Prop :=
  ∃ a b c d : Char, (∀ x ∈ [a, b, c, d], x.isDigit = true) ∧ label = [a, b, ':', c, d]

/-- A bare day of the week. -/
def IsWeekday (label : List Char) : Prop :=
  ∃ day ∈ ['一', '二', '三', '四', '五', '六', '天'], label = ['星', '期', day]

/-- The two times fall on one calendar day. -/
def SameDay (offset s t : Int) : Prop :=
  (localtime offset s).tmYear = (localtime offset t).tmYear ∧
    (localtime offset s).tmMon = (localtime offset t).tmMon ∧
    (localtime offset s).tmMday = (localtime offset t).tmMday

/-- The label is a bare time of day only on the day itself, and a bare day of the week only less
than seven days from it. -/
def Truthful (offset curTime msgTimeStamp : Int) : Prop :=
  (IsClock (FormatMsgTime offset curTime msgTimeStamp) → SameDay offset curTime msgTimeStamp) ∧
    (IsWeekday (FormatMsgTime offset curTime msgTimeStamp) →
      (msgTimeStamp - curTime).natAbs < 7 * 86400)

/-! ## The forms -/

theorem isDigit_twoDigits {n : Nat} (h : n < 100) : ∀ x ∈ twoDigits n, x.isDigit = true := by
  intro x hx
  rw [twoDigits, List.mem_cons, List.mem_singleton] at hx
  rcases hx with rfl | rfl
  · rw [Nat.isDigit_digitChar, decide_eq_true_eq]
    omega
  · rw [Nat.isDigit_digitChar, decide_eq_true_eq]
    omega

theorem isClock_hourMinute (offset time : Int) : IsClock (hourMinute (localtime offset time)) := by
  have hhour : (localtime offset time).tmHour < 100 := by
    show ((time + offset) % 86400 / 3600).toNat < 100
    omega
  have hmin : (localtime offset time).tmMin < 100 := by
    show ((time + offset) % 3600 / 60).toNat < 100
    omega
  refine ⟨_, _, _, _, ?_, rfl⟩
  intro x hx
  have hboth : x ∈ twoDigits (localtime offset time).tmHour ∨
      x ∈ twoDigits (localtime offset time).tmMin := by
    rw [← List.mem_append]
    exact hx
  rcases hboth with hx | hx
  · exact isDigit_twoDigits hhour x hx
  · exact isDigit_twoDigits hmin x hx

theorem isWeekday_weekStr (wday : Nat) : IsWeekday ['星', '期', weekStr wday] := by
  refine ⟨weekStr wday, ?_, rfl⟩
  unfold weekStr
  split <;> decide

/-- A label is not both. -/
theorem not_isWeekday {label : List Char} (h : IsClock label) : ¬ IsWeekday label := by
  intro hweekday
  obtain ⟨a, b, c, d, -, rfl⟩ := h
  obtain ⟨day, -, hlabel⟩ := hweekday
  cases hlabel

/-- Of a label that is neither, nothing is asked. -/
theorem of_neither {label : List Char} {p q : Prop} (h : ¬ IsClock label ∧ ¬ IsWeekday label) :
    (IsClock label → p) ∧ (IsWeekday label → q) :=
  ⟨fun hclock ↦ absurd hclock h.1, fun hweekday ↦ absurd hweekday h.2⟩

/-- A label with a slash is neither. -/
theorem not_of_slash {label : List Char} (h : '/' ∈ label) :
    ¬ IsClock label ∧ ¬ IsWeekday label := by
  constructor
  · intro hclock
    obtain ⟨a, b, c, d, hdigits, rfl⟩ := hclock
    have hdigit (x : Char) (hx : x ∈ [a, b, c, d]) : '/' ≠ x := by
      intro heq
      have hx := hdigits x hx
      rw [← heq] at hx
      exact absurd hx (by decide)
    simp only [List.mem_cons, List.not_mem_nil, or_false] at h hdigit
    rcases h with h | h | h | h | h
    · exact hdigit a (Or.inl rfl) h
    · exact hdigit b (Or.inr (Or.inl rfl)) h
    · exact absurd h (by decide)
    · exact hdigit c (Or.inr (Or.inr (Or.inl rfl))) h
    · exact hdigit d (Or.inr (Or.inr (Or.inr rfl))) h
  · intro hweekday
    obtain ⟨day, hday, rfl⟩ := hweekday
    have hslash : '/' ∉ ['一', '二', '三', '四', '五', '六', '天'] := by decide
    simp only [List.mem_cons, List.not_mem_nil, or_false] at h
    rcases h with h | h | h
    · exact absurd h (by decide)
    · exact absurd h (by decide)
    · rw [← h] at hday
      exact hslash hday

/-- The last of the labels is neither. -/
theorem not_longAgo : ¬ IsClock ['很', '久', '以', '前'] ∧ ¬ IsWeekday ['很', '久', '以', '前'] := by
  constructor
  · intro hclock
    obtain ⟨a, b, c, d, -, hlabel⟩ := hclock
    cases hlabel
  · intro hweekday
    obtain ⟨day, -, hlabel⟩ := hweekday
    cases hlabel

/-- The form of the label of a time more than an hour away. -/
theorem formatMsgTime_eq {offset curTime msgTimeStamp : Int}
    (h : 3600 < (msgTimeStamp - curTime).natAbs) :
    FormatMsgTime offset curTime msgTimeStamp =
      if (localtime offset curTime).tmYear = (localtime offset msgTimeStamp).tmYear then
        if (localtime offset curTime).tmMday = (localtime offset msgTimeStamp).tmMday then
          hourMinute (localtime offset msgTimeStamp)
        else if (localtime offset curTime).tmMday / 7 =
            (localtime offset msgTimeStamp).tmMday / 7 then
          ['星', '期', weekStr (localtime offset msgTimeStamp).tmWday]
        else monthDay (localtime offset msgTimeStamp)
      else if ((localtime offset msgTimeStamp).tmYear -
          (localtime offset curTime).tmYear).natAbs ≤ 1 then
        yearMonth (localtime offset msgTimeStamp)
      else ['很', '久', '以', '前'] := by
  have hmin : ¬ (msgTimeStamp - curTime).natAbs ≤ kTimeSpanMin := by
    rw [kTimeSpanMin]
    omega
  have hhour : ¬ (msgTimeStamp - curTime).natAbs ≤ kTimeSpanHalfHour := by
    rw [kTimeSpanHalfHour]
    omega
  rw [FormatMsgTime]
  simp only [hmin, hhour, if_false]

/-! ## Days apart -/

/-- How far two times are apart, from their days. -/
theorem natAbs_sub_lt (offset s t : Int) (n : Nat)
    (h : (localDay offset t - localDay offset s).natAbs ≤ n) :
    (t - s).natAbs < (n + 1) * 86400 := by
  rw [localDay, localDay] at h
  omega

theorem lt_natAbs_sub (offset s t : Int) (n : Nat)
    (h : n + 1 ≤ (localDay offset t - localDay offset s).natAbs) : n * 86400 < (t - s).natAbs := by
  rw [localDay, localDay] at h
  omega

variable {offset s t : Int}

theorem year_eq (h : (localtime offset s).tmYear = (localtime offset t).tmYear) :
    (dateOf (localDay offset s)).year = (dateOf (localDay offset t)).year :=
  (Int.sub_left_inj 1900).mp h

/-- In one week of one month two times are less than seven days apart. -/
theorem week_lt (hyear : (localtime offset s).tmYear = (localtime offset t).tmYear)
    (hmonth : (localtime offset s).tmMon = (localtime offset t).tmMon)
    (hweek : (localtime offset s).tmMday / 7 = (localtime offset t).tmMday / 7) :
    (t - s).natAbs < 7 * 86400 := by
  have hyear := year_eq hyear
  have hdays := month_eq hyear hmonth
  have hweek : (dateOf (localDay offset s)).day / 7 = (dateOf (localDay offset t)).day / 7 := hweek
  refine natAbs_sub_lt offset s t 6 ?_
  omega

/-- In the same week of different months of one year two times are weeks apart. -/
theorem lt_week (hyear : (localtime offset s).tmYear = (localtime offset t).tmYear)
    (hmonth : (localtime offset s).tmMon ≠ (localtime offset t).tmMon)
    (hweek : (localtime offset s).tmMday / 7 = (localtime offset t).tmMday / 7) :
    7 * 86400 < (t - s).natAbs := by
  have hyear := year_eq hyear
  have hweek : (dateOf (localDay offset s)).day / 7 = (dateOf (localDay offset t)).day / 7 := hweek
  refine lt_natAbs_sub offset s t 7 ?_
  rcases Nat.lt_or_gt_of_ne hmonth with hlt | hlt
  · have hdays := months_apart hyear hlt
    omega
  · have hdays := months_apart hyear.symm hlt
    omega

/-- For all times more than an hour apart and every offset: the label means what it says exactly
unless the two times lie in different months of one year, in the same seventh part of the month. -/
theorem truthful_iff (offset curTime msgTimeStamp : Int)
    (h : 3600 < (msgTimeStamp - curTime).natAbs) :
    Truthful offset curTime msgTimeStamp ↔
      ((localtime offset curTime).tmYear = (localtime offset msgTimeStamp).tmYear →
        (localtime offset curTime).tmMday / 7 = (localtime offset msgTimeStamp).tmMday / 7 →
        (localtime offset curTime).tmMon = (localtime offset msgTimeStamp).tmMon) := by
  rw [Truthful, formatMsgTime_eq h]
  by_cases hyear : (localtime offset curTime).tmYear = (localtime offset msgTimeStamp).tmYear
  · rw [if_pos hyear]
    by_cases hmday : (localtime offset curTime).tmMday = (localtime offset msgTimeStamp).tmMday
    · -- the time of day
      rw [if_pos hmday]
      constructor
      · intro htruthful _ _
        exact (htruthful.1 (isClock_hourMinute offset msgTimeStamp)).2.1
      · intro hmonth
        refine ⟨fun _ ↦ ⟨hyear, hmonth hyear (by rw [hmday]), hmday⟩, ?_⟩
        intro hweekday
        exact absurd hweekday (not_isWeekday (isClock_hourMinute offset msgTimeStamp))
    · rw [if_neg hmday]
      by_cases hweek : (localtime offset curTime).tmMday / 7 =
          (localtime offset msgTimeStamp).tmMday / 7
      · -- the day of the week
        rw [if_pos hweek]
        constructor
        · intro htruthful _ _
          have hlt := htruthful.2 (isWeekday_weekStr _)
          by_contra hmonth
          exact absurd (lt_week hyear hmonth hweek) (Nat.lt_asymm hlt)
        · intro hmonth
          refine ⟨?_, fun _ ↦ week_lt hyear (hmonth hyear hweek) hweek⟩
          intro hclock
          exact absurd (isWeekday_weekStr _) (not_isWeekday hclock)
      · -- the date
        rw [if_neg hweek]
        have hslash : '/' ∈ monthDay (localtime offset msgTimeStamp) :=
          List.mem_append_right _ List.mem_cons_self
        refine iff_of_true (of_neither (not_of_slash hslash)) ?_
        intro _ hsame
        exact absurd hsame hweek
  · -- another year
    rw [if_neg hyear]
    refine iff_of_true ?_ fun hsame ↦ absurd hsame hyear
    split
    · exact of_neither (not_of_slash (List.mem_append_right _ List.mem_cons_self))
    · exact of_neither not_longAgo

/-- Three hours earlier on one day. -/
theorem truthful_iff_today :
    3600 < (1613379600 - 1613390400 : Int).natAbs ∧ Truthful 0 1613390400 1613379600 :=
  ⟨by decide, (truthful_iff 0 1613390400 1613379600 (by decide)).mpr (by decide)⟩

/-- 15 January and 15 February 2021 at noon: the label is the bare time of day. -/
theorem not_truthful :
    ¬ ∀ offset curTime msgTimeStamp : Int, 3600 < (msgTimeStamp - curTime).natAbs →
      Truthful offset curTime msgTimeStamp := by
  intro h
  have hclock : IsClock (FormatMsgTime 0 1613390400 1610712000) := by
    rw [formatMsgTime_eq (by decide), if_pos (by decide), if_pos (by decide)]
    exact isClock_hourMinute 0 1610712000
  have hsame := (h 0 1613390400 1610712000 (by decide)).1 hclock
  exact absurd hsame.2.1 (by decide)

end ChatManager

end CoffeeChat

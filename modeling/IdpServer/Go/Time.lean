import IdpServer.Store.Keyspace

/-!
# Go.Time — instants and durations

Integers in nanoseconds; an instant counts from the Unix epoch. A cache writes whole seconds, a `DATETIME`
column rounds to the nearest second.
-/

namespace IdpServer.Go

open Store (second)

/-- The zero value of `time.Time`, the first of January of year one. -/
def zeroTime : Int := -62135596800 * second

/-- `Unix`: the whole seconds of an instant. -/
def unix (t : Int) : Int := t / second

/-- `parseTime (formatTime t)`: what is left of an instant written with whole seconds. -/
def wholeSeconds (t : Int) : Int := t / second * second

/-- An instant stored in a `DATETIME` column. -/
def dateTime (t : Int) : Int := (t + second / 2) / second * second

/-- `durationSeconds`: a duration in whole seconds, but never zero for a positive one. -/
def durationSeconds (ttl : Int) : Int :=
  let seconds := ttl.tdiv second
  if ttl > 0 ∧ seconds = 0 then 1 else seconds

/-- Year, month and day of a day counted from the Unix epoch. Eras are of 400 years, and years begin in
March so that the leap day comes last. -/
def civil (day : Int) : Int × Int × Int :=
  let z := day + 719468
  let dayOfEra := z % 146097
  let yearOfEra := (dayOfEra - dayOfEra / 1460 + dayOfEra / 36524 - dayOfEra / 146096) / 365
  let dayOfYear := dayOfEra - (365 * yearOfEra + yearOfEra / 4 - yearOfEra / 100)
  let march := (5 * dayOfYear + 2) / 153
  let month := if march < 10 then march + 3 else march - 9
  (yearOfEra + z / 146097 * 400 + (if month ≤ 2 then 1 else 0), month,
    dayOfYear - (153 * march + 2) / 5 + 1)

def padded (width : Nat) (n : Int) : String :=
  let digits := toString n
  String.ofList (List.replicate (width - digits.length) '0') ++ digits

def stamp (t : Int) : String :=
  let seconds := unix t
  let (year, month, day) := civil (seconds / 86400)
  let time := seconds % 86400
  padded 4 year ++ padded 2 month ++ padded 2 day ++ "T" ++ padded 2 (time / 3600) ++
    padded 2 (time / 60 % 60) ++ padded 2 (time % 60) ++ "Z"

example : stamp (1709210096 * second + 1) = "20240229T123456Z" := by decide +kernel

theorem wholeSeconds_le (t : Int) : wholeSeconds t ≤ t := by
  simp only [wholeSeconds, second]
  omega

theorem wholeSeconds_nonneg {t : Int} (h : 0 ≤ t) : 0 ≤ wholeSeconds t := by
  simp only [wholeSeconds, second]
  omega

theorem wholeSeconds_mono {t t' : Int} (h : t ≤ t') : wholeSeconds t ≤ wholeSeconds t' := by
  simp only [wholeSeconds, second]
  omega

theorem wholeSeconds_wholeSeconds (t : Int) : wholeSeconds (wholeSeconds t) = wholeSeconds t := by
  simp only [wholeSeconds, second]
  omega

theorem durationSeconds_of_pos {ttl : Int} (h : 0 < ttl) :
    durationSeconds ttl = max 1 (ttl / second) := by
  have hdiv : ttl.tdiv second = ttl / second := Int.tdiv_eq_ediv_of_nonneg (Int.le_of_lt h)
  simp only [durationSeconds, hdiv]
  split <;> simp only [second] at * <;> omega

theorem durationSeconds_nonpos {ttl : Int} (h : ttl ≤ 0) : durationSeconds ttl ≤ 0 := by
  have hdiv : 0 ≤ (-ttl).tdiv second := Int.tdiv_nonneg (by omega) (by decide)
  rw [Int.neg_tdiv] at hdiv
  simp only [durationSeconds]
  split <;> omega

theorem durationSeconds_mono {a b : Int} (ha : 0 < a) (h : a ≤ b) :
    durationSeconds a ≤ durationSeconds b := by
  rw [durationSeconds_of_pos ha, durationSeconds_of_pos (Int.lt_of_lt_of_le ha h)]
  simp only [second]
  omega

end IdpServer.Go

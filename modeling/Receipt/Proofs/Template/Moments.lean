import Receipt.Host.Standard
import Receipt.Proofs.Except
import Receipt.Proofs.Time.Epoch
import Receipt.Proofs.Time.Pattern
import Receipt.Proofs.Value.Literal
import Receipt.Template.Operator

/-!
# Moments that are printed

A value is read as a date and a time of day, and with the distance of its zone if it names one:
`ReadAs`. A clock with a zone is then shown on local clocks, `Local`, unless the calendar does not
have its instant there, `NotLocal`. The operator returns the value or its printed local moment,
`Formatted`, or fails, `Refused`, and `Operator.format_datetime_iff` says that there is nothing else,
on any host. Where local time is UTC, values that stand for one instant are printed alike, whether
they count milliseconds or name a zone: `Operator.format_instant`.
-/
namespace Receipt.Template

open Text Time

variable [Host]

/-- The moment of a date and a time of day, without zone. -/
def unzoned (date : Date) (clock : Clock) : Moment := ⟨date, clock, none⟩

/-- What a value says: a date and a time of day, and how many microseconds its zone is east of UTC,
if it has one. Text may name a zone a day or more away. -/
inductive ReadAs : Value → Date → Clock → Option Int → Prop
  | moment (m : Moment) : ReadAs (.moment m) m.date m.clock (m.offset.map Offset.east)
  | whole {n : Int} {m : Moment} : n ≠ 0 → Moment.ofMilliseconds? Host.zone n = some m →
      ReadAs (.int n) m.date m.clock none
  | fractional {d : Double} {m : Moment} : d.isZero = false →
      Moment.ofSeconds? Host.zone (d.divNat 1000) = some m → ReadAs (.double d) m.date m.clock none
  | text {s : String} {r : Reading} : s.toList.any isDecimalDigit = true →
      Host.readDate s.toList = some r →
      ReadAs (.text s) r.date r.clock (r.offset.map (· * 1000000))

/-- The place on the clock of offset zero that a clock of a zone shows. -/
def utcWall (date : Date) (clock : Clock) (east : Int) : Int := (unzoned date clock).wall - east

/-- The offset of local clocks at the instant that a clock of a zone shows. -/
def localOffset (date : Date) (clock : Clock) (east : Int) : Offset :=
  Host.zone.offsetAt (((unzoned date clock).sinceEpoch - east) / 1000000)

/-- The local moment of what was read: a clock without zone is local already. -/
inductive Local (date : Date) (clock : Clock) : Option Int → Moment → Prop
  | unzoned : Local date clock none (unzoned date clock)
  | moved {east : Int} {m : Moment} : -dayLength < east → east < dayLength →
      Moment.InCalendar (utcWall date clock east) →
      m.offset = some (localOffset date clock east) →
      m.wall = utcWall date clock east + (localOffset date clock east).east →
      Local date clock (some east) m

/-- Why a zone's clock has no local counterpart: the zone is a day or more away, or the calendar does
not have the instant at offset zero or on local clocks. -/
inductive NotLocal (date : Date) (clock : Clock) (east : Int) : Error → Prop
  | tooFar : ¬ (-dayLength < east ∧ east < dayLength) → NotLocal date clock east .offsetTooLarge
  | outside : -dayLength < east → east < dayLength →
      ¬ (Moment.InCalendar (utcWall date clock east) ∧
        Moment.InCalendar (utcWall date clock east + (localOffset date clock east).east)) →
      NotLocal date clock east .outsideCalendar

/-- What becomes of a value: nothing was read, or a local moment was found, or there is none. -/
inductive Found (v : Value) : Except Error (Option Moment) → Prop
  | nothing : (∀ date clock east?, ¬ ReadAs v date clock east?) → Found v (.ok none)
  | shown {date : Date} {clock : Clock} {east? : Option Int} {m : Moment} :
      ReadAs v date clock east? → Local date clock east? m → Found v (.ok (some m))
  | refused {date : Date} {clock : Clock} {east : Int} {e : Error} :
      ReadAs v date clock (some east) → NotLocal date clock east e → Found v (.error e)

section readings
variable {v : Value} {date date' : Date} {clock clock' : Clock} {east? east?' : Option Int}

theorem ReadAs.truthy (h : ReadAs v date clock east?) : v.truthy = true := by
  cases h with
  | moment m => rfl
  | whole hn _ => simpa [Value.truthy] using hn
  | fractional hd _ => simp [Value.truthy, hd]
  | @text s r hdigit _ =>
      have hne : s ≠ "" := by
        rintro rfl
        cases hdigit
      simpa [Value.truthy] using hne

/-- A value says one thing only. -/
theorem ReadAs.unique (h : ReadAs v date clock east?) (h' : ReadAs v date' clock' east?') :
    date = date' ∧ clock = clock' ∧ east? = east?' := by
  cases h with
  | moment m =>
      cases h'
      exact ⟨rfl, rfl, rfl⟩
  | whole _ hm =>
      cases h' with
      | whole _ hm' =>
          cases hm.symm.trans hm'
          exact ⟨rfl, rfl, rfl⟩
  | fractional _ hm =>
      cases h' with
      | fractional _ hm' =>
          cases hm.symm.trans hm'
          exact ⟨rfl, rfl, rfl⟩
  | text _ hr =>
      cases h' with
      | text _ hr' =>
          cases hr.symm.trans hr'
          exact ⟨rfl, rfl, rfl⟩

theorem Local.not_notLocal {east : Int} {m : Moment} {e : Error}
    (h : Local date clock (some east) m) : ¬ NotLocal date clock east e := by
  cases h with
  | moved hlow hhigh hutc hoffset hwall =>
      rintro (hfar | ⟨-, -, houtside⟩)
      · exact hfar ⟨hlow, hhigh⟩
      · exact houtside ⟨hutc, hwall ▸ m.inCalendar_wall⟩

theorem NotLocal.unique {east : Int} {e e' : Error} (h : NotLocal date clock east e)
    (h' : NotLocal date clock east e') : e = e' := by
  cases h with
  | tooFar hfar =>
      cases h' with
      | tooFar _ => rfl
      | outside hlow hhigh _ => exact (hfar ⟨hlow, hhigh⟩).elim
  | outside hlow hhigh _ =>
      cases h' with
      | tooFar hfar => exact (hfar ⟨hlow, hhigh⟩).elim
      | outside _ _ _ => rfl

theorem Local.unique {m m' : Moment} (h : Local date clock east? m)
    (h' : Local date clock east? m') : m = m' := by
  cases h with
  | unzoned =>
      cases h'
      rfl
  | moved _ _ _ hoffset hwall =>
      cases h' with
      | moved _ _ _ hoffset' hwall' =>
          exact Moment.eq_of_wall_eq (hoffset.trans hoffset'.symm) (hwall.trans hwall'.symm)

end readings

section finding
variable {v : Value}

omit [Host] in
theorem unzoned_of_ofSeconds? {zone : Zone} {d : Double} {m : Moment}
    (h : Moment.ofSeconds? zone d = some m) : unzoned m.date m.clock = m := by
  rw [unzoned, ← Moment.offset_of_ofSeconds? h]

/-- A clock with a zone is shown on local clocks, or there is no place for it there. -/
theorem onLocalClock_cases (date : Date) (clock : Clock) (offset : Offset) :
    (∃ m, onLocalClock ⟨date, clock, some offset⟩ = .ok m ∧
        Local date clock (some offset.east) m) ∨
      onLocalClock ⟨date, clock, some offset⟩ = .error .outsideCalendar ∧
        NotLocal date clock offset.east .outsideCalendar := by
  have hlow : -(dayLength : Int) < offset.east := offset.lower
  have hhigh : offset.east < (dayLength : Int) := offset.upper
  unfold onLocalClock
  cases hlocal : Moment.local? Host.zone ⟨date, clock, some offset⟩ with
  | none => exact .inr ⟨rfl, .outside hlow hhigh ((Moment.local?_eq_none_iff rfl).1 hlocal)⟩
  | some m =>
      obtain ⟨hutc, hoffset, hwall⟩ := (Moment.local?_eq_some_iff rfl).1 hlocal
      exact .inl ⟨m, rfl, .moved hlow hhigh hutc hoffset hwall⟩

theorem found_onLocalClock {date : Date} {clock : Clock} {offset : Option Offset}
    (h : ReadAs v date clock (offset.map Offset.east)) :
    Found v ((onLocalClock ⟨date, clock, offset⟩).map some) := by
  cases offset with
  | none => exact .shown h .unzoned
  | some offset =>
      rcases onLocalClock_cases date clock offset with ⟨m, hm, hlocal⟩ | ⟨herror, hnot⟩
      · rw [hm]
        exact .shown h hlocal
      · rw [herror]
        exact .refused h hnot

theorem found_momentOfText (s : String) : Found (.text s) (momentOfText s.toList) := by
  unfold momentOfText
  split
  · next hdigit =>
    refine .nothing fun date clock east? hread => ?_
    cases hread with
    | text hsome _ => simp [hsome] at hdigit
  · next hdigit =>
    have hdigit : s.toList.any isDecimalDigit = true := by simpa using hdigit
    split
    · next hnone =>
      refine .nothing fun date clock east? hread => ?_
      cases hread with
      | text _ hr =>
          rw [hnone] at hr
          cases hr
    · next r hr =>
      have hread := ReadAs.text hdigit hr
      split
      · next hoffset =>
        rw [hoffset] at hread
        exact .shown hread .unzoned
      · next seconds hoffset =>
        rw [hoffset] at hread
        unfold Offset.make?
        split
        · next hnone =>
          split at hnone
          · cases hnone
          · next hfar => exact .refused hread (.tooFar hfar)
        · next offset hmake =>
          split at hmake
          · cases hmake
            exact @found_onLocalClock _ _ _ _ (some _) hread
          · cases hmake

/-- What numbers count from the epoch is on the local clock already. -/
theorem found_counted {d : Double} (hread : ∀ m, Moment.ofSeconds? Host.zone d = some m →
      ReadAs v m.date m.clock none)
    (hfound : ∀ date clock east?, ReadAs v date clock east? →
      Moment.ofSeconds? Host.zone d ≠ none) :
    Found v (.ok (Moment.ofSeconds? Host.zone d)) := by
  cases hd : Moment.ofSeconds? Host.zone d with
  | none => exact .nothing fun date clock east? h => hfound date clock east? h hd
  | some m =>
      have hlocal : Local m.date m.clock none (unzoned m.date m.clock) := .unzoned
      rw [unzoned_of_ofSeconds? hd] at hlocal
      exact .shown (hread m hd) hlocal

theorem found_momentOf (h : v.truthy = true) : Found v (momentOf v) := by
  cases v with
  | moment m => exact found_onLocalClock (.moment m)
  | int n =>
      have hn : n ≠ 0 := by simpa [Value.truthy] using h
      refine found_counted (fun m hm => .whole hn hm) fun date clock east? hread => ?_
      cases hread with
      | whole _ hm => exact Option.ne_none_iff_exists'.2 ⟨_, hm⟩
  | double d =>
      have hd : d.isZero = false := by simpa [Value.truthy] using h
      refine found_counted (fun m hm => .fractional hd hm) fun date clock east? hread => ?_
      cases hread with
      | fractional _ hm => exact Option.ne_none_iff_exists'.2 ⟨_, hm⟩
  | text s => exact found_momentOfText s
  | null | missing | bool _ | unresolved _ | date _ | list _ | tuple _ | map _ =>
      exact .nothing fun date clock east? hread => by cases hread

end finding

namespace Operator

/-- The argument asks for moments to be printed; blanks around the word do not matter. -/
def NamesDatetime (arg : Option String) : Prop :=
  (arg.map String.toList).map trim = some "datetime".toList

instance (arg : Option String) : Decidable (NamesDatetime arg) := by
  unfold NamesDatetime
  infer_instance

/-- A moment as a pattern prints it. -/
def printed (pattern : String) (m : Moment) : Value :=
  .text (String.ofList (Pattern.print Host.zone pattern.toList m))

/-- The value stays as it is where no moment is asked for or none is read, in which case it is told,
and a local moment is printed by the pattern. -/
inductive Formatted (pattern v : Value) (arg : Option String) : Value → Prop
  | other : ¬ NamesDatetime arg → Formatted pattern v arg v
  | unread : NamesDatetime arg → (∀ date clock east?, ¬ ReadAs v date clock east?) →
      v.fits = true → Formatted pattern v arg v
  | printed {date : Date} {clock : Clock} {east? : Option Int} {m : Moment} {p : String} :
      NamesDatetime arg → ReadAs v date clock east? → Local date clock east? m →
      pattern.text? = some p → Formatted pattern v arg (printed p m)

/-- The value is read, but the clock of its zone has no local counterpart, or the moment is there
and no pattern to print it by; or it is not read and holds a number with too many digits to be
told. -/
inductive Refused (pattern v : Value) (arg : Option String) : Error → Prop
  | notLocal {date : Date} {clock : Clock} {east : Int} {e : Error} :
      NamesDatetime arg → ReadAs v date clock (some east) → NotLocal date clock east e →
      Refused pattern v arg e
  | noPattern {date : Date} {clock : Clock} {east? : Option Int} {m : Moment} :
      NamesDatetime arg → ReadAs v date clock east? → Local date clock east? m →
      pattern.text? = none → Refused pattern v arg .patternNotText
  | untold : NamesDatetime arg → (∀ date clock east?, ¬ ReadAs v date clock east?) →
      v.fits = false → Refused pattern v arg (.unwritable .tooLong)

section format
variable {pattern v : Value} {arg : Option String}

theorem format_of_not_names (h : ¬ NamesDatetime arg) :
    (format pattern).apply v arg = .ok v := by
  rw [apply, applyFormat, if_pos (.inl h)]

theorem format_of_not_truthy (h : v.truthy = false) :
    (format pattern).apply v arg = .ok v := by
  rw [apply, applyFormat, if_pos (.inr (by rw [h]; rfl))]

theorem format_of_names (harg : NamesDatetime arg) (h : v.truthy = true) :
    (format pattern).apply v arg = momentOf v >>= fun
      | none => if v.fits then .ok v else .error (.unwritable .tooLong)
      | some m => match pattern.text? with
        | none => .error .patternNotText
        | some p => .ok (printed p m) := by
  have hnot : ¬ ((arg.map String.toList).map trim ≠ some "datetime".toList ∨ (!v.truthy) = true) := by
    rintro (hother | hfalsy)
    · exact hother harg
    · simp [h] at hfalsy
  rw [apply, applyFormat, if_neg hnot]
  cases momentOf v with
  | error e => rfl
  | ok found =>
      cases found with
      | none => cases v.fits <;> rfl
      | some m => cases pattern.text? <;> rfl

theorem format_of_momentOf {m : Moment} {p : String} (harg : NamesDatetime arg)
    (h : v.truthy = true) (hm : momentOf v = .ok (some m)) :
    (format (.text p)).apply v arg = .ok (printed p m) := by
  rw [format_of_names harg h, hm]
  rfl

theorem format_cases (pattern v : Value) (arg : Option String) :
    (∃ w, (format pattern).apply v arg = .ok w ∧ Formatted pattern v arg w) ∨
      ∃ e, (format pattern).apply v arg = .error e ∧ Refused pattern v arg e := by
  by_cases harg : NamesDatetime arg
  · cases htruthy : v.truthy with
    | false =>
        refine .inl ⟨v, format_of_not_truthy htruthy,
          .unread harg (fun date clock east? hread => ?_) (Value.fits_of_not_truthy htruthy)⟩
        rw [hread.truthy] at htruthy
        cases htruthy
    | true =>
        have hfound := found_momentOf htruthy
        rw [format_of_names harg htruthy]
        generalize momentOf v = found at hfound
        cases hfound with
        | nothing hnone =>
            cases hfits : v.fits with
            | true => exact .inl ⟨v, by simp [bind, Except.bind], .unread harg hnone hfits⟩
            | false => exact .inr ⟨_, by simp [bind, Except.bind], .untold harg hnone hfits⟩
        | refused hread hnot => exact .inr ⟨_, rfl, .notLocal harg hread hnot⟩
        | @shown _ _ _ m hread hlocal =>
            cases hpattern : pattern.text? with
            | none => exact .inr ⟨_, rfl, .noPattern harg hread hlocal hpattern⟩
            | some p => exact .inl ⟨printed p m, rfl, .printed harg hread hlocal hpattern⟩
  · exact .inl ⟨v, format_of_not_names harg, .other harg⟩

theorem Formatted.unique {w w' : Value} (h : Formatted pattern v arg w)
    (h' : Formatted pattern v arg w') : w = w' := by
  cases h with
  | other hnot =>
      cases h' with
      | other _ | unread _ _ _ => rfl
      | printed harg _ _ _ => exact (hnot harg).elim
  | unread harg hnone _ =>
      cases h' with
      | other _ | unread _ _ _ => rfl
      | printed _ hread _ _ => exact (hnone _ _ _ hread).elim
  | printed harg hread hlocal hpattern =>
      cases h' with
      | other hnot => exact (hnot harg).elim
      | unread _ hnone _ => exact (hnone _ _ _ hread).elim
      | printed _ hread' hlocal' hpattern' =>
          obtain ⟨rfl, rfl, rfl⟩ := hread.unique hread'
          cases hpattern.symm.trans hpattern'
          rw [hlocal.unique hlocal']

theorem Refused.unique {e e' : Error} (h : Refused pattern v arg e)
    (h' : Refused pattern v arg e') : e = e' := by
  cases h with
  | notLocal _ hread hnot => cases h' with
      | notLocal _ hread' hnot' =>
          obtain ⟨rfl, rfl, heast⟩ := hread.unique hread'
          cases heast
          exact hnot.unique hnot'
      | noPattern _ hread' hlocal _ =>
          obtain ⟨rfl, rfl, rfl⟩ := hread.unique hread'
          exact (hlocal.not_notLocal hnot).elim
      | untold _ hnone _ => exact (hnone _ _ _ hread).elim
  | noPattern _ hread hlocal _ => cases h' with
      | notLocal _ hread' hnot =>
          obtain ⟨rfl, rfl, rfl⟩ := hread.unique hread'
          exact (hlocal.not_notLocal hnot).elim
      | noPattern _ _ _ _ => rfl
      | untold _ hnone _ => exact (hnone _ _ _ hread).elim
  | untold _ hnone _ => cases h' with
      | notLocal _ hread _ | noPattern _ hread _ _ => exact (hnone _ _ _ hread).elim
      | untold _ _ _ => rfl

/-- Whole seconds since the epoch, in milliseconds, are printed like every moment of a zone at the
same instant: both show the local clock. -/
theorem format_instant (pattern : String) (hzone : Pattern.ZoneFree pattern.toList)
    (hhost : Host.zone = .utc) (harg : NamesDatetime arg) {u : Moment}
    (hutc : u.offset = some .utc) (hyear : 2 ≤ u.date.year) {s : Int} (hs : s ≠ 0)
    (hu : u.instant = s * 1000000) :
    (format (.text pattern)).apply (.int (s * 1000)) arg = .ok (printed pattern u) ∧
      ∀ m : Moment, m.offset.isSome = true → m.instant = s * 1000000 →
        (format (.text pattern)).apply (.moment m) arg = .ok (printed pattern u) := by
  have hsince : u.sinceEpoch = s * 1000000 := by
    rw [← hu, Moment.instant, hutc]
    exact (Int.sub_zero _).symm
  constructor
  · have hcounted : Moment.ofMilliseconds? .utc (s * 1000) = some { u with offset := none } :=
      Moment.ofMilliseconds?_of_sinceEpoch (u := { u with offset := none }) rfl hyear hs hsince
    have htruthy : (Value.int (s * 1000)).truthy = true := by
      simp [Value.truthy, hs]
    rw [format_of_momentOf harg htruthy (by rw [momentOf, hhost, hcounted]), printed,
      Pattern.print_withOffset hzone, printed]
  · intro m hsome hm
    obtain ⟨offset, hoffset⟩ := Option.isSome_iff_exists.1 hsome
    have hwall : u.wall = m.wall - offset.east := by
      rw [Moment.instant, hoffset] at hm
      simp only [Moment.sinceEpoch, Option.map_some, Option.getD_some] at hm hsince
      omega
    have hshown : m.local? Host.zone = some u := by
      rw [hhost, Moment.local?_eq_some_iff hoffset]
      exact ⟨hwall ▸ u.inCalendar_wall, hutc, hwall.trans (Int.add_zero _).symm⟩
    exact format_of_momentOf harg rfl (by rw [momentOf, onLocalClock, hshown]; rfl)

omit [Host] in
/-- The last second of February 1900, which has 28 days, on a clock five hours west of UTC. -/
theorem format_instant_west :
    letI := Host.standard 2025
    let west : Offset := ⟨-18000000000, by decide, by decide⟩
    let february : Date := ⟨1900, 2, 28, by decide, by decide, by decide, by decide⟩
    let lastSecond : Clock := ⟨23, 59, 59, 0, by decide, by decide, by decide, by decide⟩
    let pattern := Value.text "%A, %d.%m.%Y %T"
    let text := Value.text "Thursday, 01.03.1900 04:59:59"
    (format pattern).apply (.int (-2203873201000)) (some " datetime") = .ok text ∧
      (format pattern).apply (.moment ⟨february, lastSecond, some west⟩) (some " datetime") =
        .ok text := by
  intro west february lastSecond pattern text
  let host := Host.standard 2025
  let u : Moment :=
    ⟨⟨1900, 3, 1, by decide, by decide, by decide, by decide⟩,
      ⟨4, 59, 59, 0, by decide, by decide, by decide, by decide⟩, some .utc⟩
  have htext : printed "%A, %d.%m.%Y %T" u = text :=
    congrArg Value.text (by decide +kernel)
  have harg : NamesDatetime (some " datetime") := by decide
  have hinstant : u.instant = -2203873201 * 1000000 := by decide +kernel
  obtain ⟨hwhole, hmoment⟩ := format_instant "%A, %d.%m.%Y %T" (by simp [Pattern.ZoneFree]) rfl
    harg rfl (by decide) (by decide) hinstant
  rw [htext] at hwhole hmoment
  exact ⟨hwhole, hmoment _ rfl (by decide +kernel)⟩

end format

end Operator
end Receipt.Template

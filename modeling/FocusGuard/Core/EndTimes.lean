import FocusGuard.Core.SessionStart

/-!
# What an end time means

A time of day stands for the next instant at which the local clock reads it, a full stamp for the
instant it denotes. `parse_until_to_utc` takes the local offset of the current instant for the one
of the end, so a change of the offset in between moves the end; and a stamp whose instant is no
`datetime` in UTC raises an `OverflowError` in the conversion.

## Main definitions

* `NextOnClock`: the next instant at which the local clock reads a time.
* `SteadyUntil`: what the local offset has to do until then.

## Main results

* `parseUntilToUtc_meaning_iff`: when an end time means what the wall clock says.
-/

namespace FocusGuard

open Calendar

variable (rt : Runtime)

/-! ## Wall clocks -/

/-- The microseconds since midnight on the local clock. -/
def clockReading (u : Int) : Int := (u + rt.localOffset u) % microsPerDay

/-- The time until a clock that reads `clock` reads `time` next. -/
def untilNext (clock time : Int) : Int :=
  if time ≤ clock then time + microsPerDay - clock else time - clock

/-- The next instant after `now` at which the local clock reads `time`. -/
structure NextOnClock (now : Instant) (time : Int) (x : Instant) : Prop where
  future : now.micros < x.micros
  reads : clockReading rt x.micros = time
  first : ∀ u, now.micros < u → u < x.micros → clockReading rt u ≠ time

/-- The local clock is after `wait` where it would be without a change: the local date and the instant
are in range then, the offset is that of `now` up to whole days, and at no moment before is it ahead
of that of `now` by the time that is left. -/
structure SteadyUntil (now : Instant) (wait : Int) : Prop where
  localRange : representable (now.micros + wait + rt.localOffset now.micros) = true
  range : representable (now.micros + wait) = true
  back : microsPerDay ∣ rt.localOffset (now.micros + wait) - rt.localOffset now.micros
  between : ∀ s, 0 < s → s < wait →
    ¬ microsPerDay ∣ rt.localOffset (now.micros + s) - rt.localOffset now.micros - (wait - s)

/-- The seconds since midnight of a text `HH:MM` or `HH:MM:SS`. -/
def clockSeconds (clean : Text) : Option Nat :=
  let timeParts := clean.splitOn ':'
  if (timeParts.length = 2 ∨ timeParts.length = 3) ∧ timeParts.all rt.isdigit then
    match timeParts.mapM rt.int with
    | none => none
    | some parts =>
      if parts.getD 0 0 ≤ 23 ∧ parts.getD 1 0 ≤ 59 ∧ parts.getD 2 0 ≤ 59 then
        some ((parts.getD 0 0 * 60 + parts.getD 1 0) * 60 + parts.getD 2 0)
      else none
  else none

/-- No stamp that `datetime.fromisoformat` reads is a time of day. -/
def IsoLaw : Prop := ∀ t stamp, rt.fromIsoOther t = some stamp → clockSeconds rt t = none

variable {rt} {now x : Instant} {clean untilStr : Text} {seconds : Nat} {time : Int}

/-! ## The time of day -/

theorem mapM_intOrRaise_some {l : List Text} {parts : List Nat} (h : l.mapM rt.int = some parts) :
    l.mapM (intOrRaise rt) = .ok parts := by
  induction l generalizing parts with
  | nil =>
    cases h
    rfl
  | cons t l ih =>
    rw [List.mapM_cons] at h ⊢
    obtain ⟨n, hn, hrest⟩ := Option.bind_eq_some_iff.mp h
    obtain ⟨ns, hns, hparts⟩ := Option.bind_eq_some_iff.mp hrest
    cases hparts
    have hint : intOrRaise rt t = .ok n := by rw [intOrRaise, hn]
    rw [hint, ih hns]
    rfl

theorem mapM_intOrRaise_none {l : List Text} (h : l.mapM rt.int = none) :
    ∃ m, l.mapM (intOrRaise rt) = .error (.valueError m) := by
  induction l with
  | nil => cases h
  | cons t l ih =>
    rw [List.mapM_cons] at h ⊢
    cases hn : rt.int t with
    | none =>
      refine ⟨("invalid literal for int() with base 10: '" : Text) ++ t ++ ("'" : Text), ?_⟩
      rw [intOrRaise, hn]
      rfl
    | some n =>
      have hint : intOrRaise rt t = .ok n := by rw [intOrRaise, hn]
      have hrest : l.mapM rt.int = none := by
        cases hl : l.mapM rt.int with
        | none => rfl
        | some ns =>
          rw [hn, hl] at h
          cases h
      obtain ⟨m, hm⟩ := ih hrest
      refine ⟨m, ?_⟩
      rw [hint, hm]
      rfl

theorem clockSeconds_lt (h : clockSeconds rt clean = some seconds) : seconds < 86400 := by
  simp only [clockSeconds] at h
  split_ifs at h
  split at h
  · cases h
  · split_ifs at h
    cases h
    omega

/-- The next reading of a time is today, or tomorrow when it has passed. -/
theorem target_eq (u offset time : Int) :
    (if (u + offset) / microsPerDay * microsPerDay + time ≤ u + offset then
      (u + offset) / microsPerDay * microsPerDay + time + microsPerDay
    else (u + offset) / microsPerDay * microsPerDay + time) =
      u + untilNext ((u + offset) % microsPerDay) time + offset := by
  have hsplit := Int.emod_add_mul_ediv (u + offset) microsPerDay
  unfold untilNext
  split_ifs <;> grind

/-- A text that is no time of day is refused. -/
theorem parseUntilClock_of_none (h : clockSeconds rt clean = none) (localNow zoneNow : Instant) :
    ∃ m, parseUntilClock rt untilStr clean localNow zoneNow = .error (.valueError m) := by
  simp only [clockSeconds] at h
  simp only [parseUntilClock]
  split at h
  · next hshape =>
    rw [if_pos hshape]
    cases hparts : (clean.splitOn ':').mapM rt.int with
    | none =>
      obtain ⟨m, hm⟩ := mapM_intOrRaise_none hparts
      exact ⟨m, by rw [hm]⟩
    | some parts =>
      rw [hparts] at h
      rw [mapM_intOrRaise_some hparts]
      dsimp only at h ⊢
      split at h
      · cases h
      · next hvalid => exact ⟨_, if_pos hvalid⟩
  · next hshape => exact ⟨_, if_neg hshape⟩

/-- A time of day is read off the clock as it runs at the current instant. -/
theorem parseUntilClock_of_some (h : clockSeconds rt clean = some seconds) (now : Instant) :
    parseUntilClock rt untilStr clean now now =
      if representable (now.micros + untilNext (clockReading rt now.micros) (seconds * 1000000) +
          rt.localOffset now.micros) = true then
        toInstant (now.micros + untilNext (clockReading rt now.micros) (seconds * 1000000))
      else .error .overflowError := by
  simp only [clockSeconds] at h
  simp only [parseUntilClock]
  split at h
  · next hshape =>
    rw [if_pos hshape]
    split at h
    · cases h
    · next parts hparts =>
      rw [mapM_intOrRaise_some hparts]
      dsimp only
      split at h
      · next hvalid =>
        cases h
        rw [if_neg (not_not.mpr hvalid), target_eq, add_sub_cancel_right]
        exact ite_not ..
      · cases h
  · cases h

/-- The clock reads the time after `s` just if its offset has changed by what is left of the wait. -/
theorem clockReading_eq_iff (h0 : 0 ≤ time) (hday : time < microsPerDay) (u s : Int) :
    clockReading rt (u + s) = time ↔ microsPerDay ∣ rt.localOffset (u + s) - rt.localOffset u -
      (untilNext (clockReading rt u) time - s) := by
  have hnext : (u + rt.localOffset u + untilNext (clockReading rt u) time) % microsPerDay =
      time := by
    have hsplit := Int.emod_add_mul_ediv (u + rt.localOffset u) microsPerDay
    obtain ⟨k, hk⟩ : ∃ k, u + rt.localOffset u + untilNext (clockReading rt u) time =
        time + microsPerDay * k := by
      unfold untilNext clockReading
      split_ifs
      · exact ⟨(u + rt.localOffset u) / microsPerDay + 1, by rw [mul_add]; omega⟩
      · exact ⟨(u + rt.localOffset u) / microsPerDay, by omega⟩
    rw [hk, Int.add_mul_emod_self_left, Int.emod_eq_of_lt h0 hday]
  have hdiff : u + s + rt.localOffset (u + s) -
      (u + rt.localOffset u + untilNext (clockReading rt u) time) =
      rt.localOffset (u + s) - rt.localOffset u - (untilNext (clockReading rt u) time - s) := by
    omega
  rw [← hdiff, Int.dvd_iff_emod_eq_zero, ← Int.emod_eq_emod_iff_emod_sub_eq_zero, hnext]
  rfl

/-! ## Stamps -/

theorem readDigits_suffix {w acc n : Nat} {t rest : Text}
    (h : readDigits w acc t = some (n, rest)) : rest <:+ t := by
  induction w generalizing acc t with
  | zero =>
    cases h
    exact List.suffix_refl _
  | succ w ih =>
    cases t with
    | nil => cases h
    | cons c t =>
      obtain ⟨d, -, hrest⟩ := Option.bind_eq_some_iff.mp h
      exact (ih hrest).trans (List.suffix_cons c t)

/-- A hyphen stands behind the year of a stamp. -/
theorem hyphen_mem_of_parseIso {t : Text} {stamp : Stamp} (h : parseIso t = some stamp) :
    '-' ∈ t := by
  obtain ⟨day, hdate, -⟩ := Option.bind_eq_some_iff.mp h
  obtain ⟨⟨year, rest⟩, hyear, hrest⟩ := Option.bind_eq_some_iff.mp hdate
  obtain ⟨rest', hexpect, -⟩ := Option.bind_eq_some_iff.mp hrest
  refine (readDigits_suffix hyear).subset ?_
  cases rest with
  | nil => cases hexpect
  | cons c rest =>
    simp only [expect] at hexpect
    split at hexpect
    · next hc => exact hc ▸ List.mem_cons_self
    · cases hexpect

theorem clockSeconds_of_hyphen {t : Text} (h : '-' ∈ t) : clockSeconds rt t = none := by
  refine if_neg ?_
  rintro ⟨-, hdigits⟩
  rw [← Text.join_splitOn ':' t] at h
  rcases Text.mem_join h with hcolon | ⟨piece, hpiece, hc⟩
  · exact absurd hcolon (by decide)
  · have hall := List.all_eq_true.mp hdigits piece hpiece
    simp only [Runtime.isdigit, decide_eq_true_eq, List.all_eq_true] at hall
    have hdigit := hall.2 _ hc
    rw [Runtime.isDigit, if_pos (by decide)] at hdigit
    exact absurd hdigit (by decide)

/-- A time of day is no stamp. -/
theorem fromisoformat_of_clock (law : IsoLaw rt) (h : clockSeconds rt clean = some seconds) :
    rt.fromisoformat clean = none := by
  have hiso : parseIso clean = none := by
    cases hp : parseIso clean with
    | none => rfl
    | some stamp =>
      rw [clockSeconds_of_hyphen (hyphen_mem_of_parseIso hp)] at h
      cases h
  rw [Runtime.fromisoformat, hiso]
  dsimp only
  split
  · rfl
  · cases hother : rt.fromIsoOther clean with
    | none => rfl
    | some stamp =>
      rw [law clean stamp hother] at h
      cases h

/-- What is no stamp is taken for a time of day. -/
theorem parseUntilToUtc_of_none (h : rt.fromisoformat (Text.strip untilStr) = none)
    (now localNow zoneNow : Instant) : parseUntilToUtc rt untilStr now localNow zoneNow =
      parseUntilClock rt untilStr (Text.strip untilStr) localNow zoneNow := by
  simp only [parseUntilToUtc, parseUntilIso, h]

theorem toInstant_of_representable {u : Int} (h : representable u = true) :
    toInstant u = .ok ⟨u, h⟩ := by
  rw [toInstant, ofMicros, dif_pos h]

theorem toInstant_of_not {u : Int} (h : ¬ representable u = true) :
    toInstant u = .error .overflowError := by
  rw [toInstant, ofMicros, dif_neg h]

theorem parseUntilIso_of_stamp {stamp : Stamp} (h : rt.fromisoformat clean = some stamp)
    (hrange : representable stamp.micros = true) (now : Instant) :
    parseUntilIso rt clean now =
      .ok (if stamp.micros ≤ now.micros then none else some ⟨stamp.micros, hrange⟩) := by
  rw [parseUntilIso, h]
  cases stamp with
  | aware u =>
    simp only [toInstant_of_representable (show representable u = true from hrange)]
    rfl
  | naive u =>
    simp only [toInstant_of_representable (show representable u = true from hrange)]
    rfl

theorem parseUntilIso_of_not {stamp : Stamp} (h : rt.fromisoformat clean = some stamp)
    (hrange : ¬ representable stamp.micros = true) (now : Instant) :
    parseUntilIso rt clean now = .error .overflowError := by
  rw [parseUntilIso, h]
  cases stamp with
  | aware u => simp only [toInstant_of_not (show ¬ representable u = true from hrange)]
  | naive u => simp only [toInstant_of_not (show ¬ representable u = true from hrange)]

/-- What is returned for a stamp, or the kind of error. -/
def StampMeant (stamp : Stamp) (now : Instant) (r : Except PyError Instant) : Prop :=
  (∃ x, r = .ok x ∧ x.micros = stamp.micros ∧ now.micros < x.micros) ∨
    ∃ message, r = .error (.valueError message)

/-- A stamp means its instant just if that is a `datetime` in UTC. -/
theorem stamp_meaning_iff (law : IsoLaw rt) {stamp : Stamp}
    (h : rt.fromisoformat (Text.strip untilStr) = some stamp) (now : Instant) :
    StampMeant stamp now (parseUntilToUtc rt untilStr now now now) ↔
      representable stamp.micros = true := by
  have hclock : clockSeconds rt (Text.strip untilStr) = none := by
    cases hc : clockSeconds rt (Text.strip untilStr) with
    | none => rfl
    | some seconds =>
      rw [fromisoformat_of_clock law hc] at h
      cases h
  by_cases hrange : representable stamp.micros = true
  · refine iff_of_true ?_ hrange
    simp only [parseUntilToUtc, parseUntilIso_of_stamp h hrange]
    by_cases hpast : stamp.micros ≤ now.micros
    · simp only [if_pos hpast]
      exact .inr (parseUntilClock_of_none hclock now now)
    · simp only [if_neg hpast]
      exact .inl ⟨_, rfl, rfl, not_le.mp hpast⟩
  · refine iff_of_false ?_ hrange
    simp only [parseUntilToUtc, parseUntilIso_of_not h hrange]
    rintro (⟨x, hx, -⟩ | ⟨message, hm⟩)
    · cases hx
    · cases hm

/-! ## End times -/

theorem untilNext_pos (h0 : 0 ≤ time) (u : Int) : 0 < untilNext (clockReading rt u) time := by
  have hclock : clockReading rt u < microsPerDay := Int.emod_lt_of_pos _ (by decide)
  unfold untilNext
  split_ifs <;> omega

/-- A time of day means the next reading of the clock just if the clock is steady until then. -/
theorem clock_meaning_iff (law : IsoLaw rt)
    (h : clockSeconds rt (Text.strip untilStr) = some seconds) (now : Instant) :
    (∃ x, parseUntilToUtc rt untilStr now now now = .ok x ∧
      NextOnClock rt now ((seconds : Int) * 1000000) x) ↔
        SteadyUntil rt now (untilNext (clockReading rt now.micros) ((seconds : Int) * 1000000)) := by
  have hlt := clockSeconds_lt h
  have hday : (seconds : Int) * 1000000 < microsPerDay := by
    unfold microsPerDay
    omega
  have h0 : 0 ≤ (seconds : Int) * 1000000 := by omega
  have hpos : 0 < untilNext (clockReading rt now.micros) ((seconds : Int) * 1000000) :=
    untilNext_pos h0 now.micros
  have hreads : ∀ s, clockReading rt (now.micros + s) = (seconds : Int) * 1000000 ↔
      microsPerDay ∣ rt.localOffset (now.micros + s) - rt.localOffset now.micros -
        (untilNext (clockReading rt now.micros) ((seconds : Int) * 1000000) - s) :=
    clockReading_eq_iff h0 hday now.micros
  rw [parseUntilToUtc_of_none (fromisoformat_of_clock law h), parseUntilClock_of_some h]
  generalize untilNext (clockReading rt now.micros) ((seconds : Int) * 1000000) = wait at hpos hreads ⊢
  have hback : clockReading rt (now.micros + wait) = (seconds : Int) * 1000000 ↔
      microsPerDay ∣ rt.localOffset (now.micros + wait) - rt.localOffset now.micros := by
    have hw := hreads wait
    rwa [sub_self, sub_zero] at hw
  constructor
  · rintro ⟨x, hx, hnext⟩
    split at hx
    · next hlocal =>
      have heq := toInstant_eq_ok hx
      refine ⟨hlocal, heq ▸ x.inRange, hback.mp (heq ▸ hnext.reads), fun s hs hwait hdvd => ?_⟩
      exact hnext.first (now.micros + s) (by omega) (by omega) ((hreads s).mpr hdvd)
    · cases hx
  · intro hsteady
    rw [if_pos hsteady.localRange, toInstant_of_representable hsteady.range]
    refine ⟨_, rfl, ?_, hback.mpr hsteady.back, fun u hu hux hread => ?_⟩
    · show now.micros < now.micros + wait
      omega
    · have hux' : u < now.micros + wait := hux
      have hs : now.micros + (u - now.micros) = u := by omega
      refine hsteady.between (u - now.micros) (by omega) (by omega) ((hreads _).mp ?_)
      rwa [hs]

/-- A clock whose offset does not change is steady. -/
theorem steadyUntil_of_constant {wait : Int} (hday : wait ≤ microsPerDay)
    (hlocal : representable (now.micros + wait + rt.localOffset now.micros) = true)
    (hrange : representable (now.micros + wait) = true)
    (hconst : ∀ s, 0 < s → s ≤ wait →
      rt.localOffset (now.micros + s) = rt.localOffset now.micros) (hpos : 0 < wait) :
    SteadyUntil rt now wait := by
  refine ⟨hlocal, hrange, ?_, fun s hs hwait hdvd => ?_⟩
  · rw [hconst wait hpos le_rfl, sub_self]
    exact dvd_zero _
  · rw [hconst s hs hwait.le, sub_self, zero_sub, Int.dvd_neg] at hdvd
    have hle := Int.le_of_dvd (by omega) hdvd
    omega

/-- When an end time means what the wall clock says. -/
theorem parseUntilToUtc_meaning_iff (law : IsoLaw rt) (untilStr : Text) (now : Instant) :
    (∀ seconds, clockSeconds rt (Text.strip untilStr) = some seconds →
      ((∃ x, parseUntilToUtc rt untilStr now now now = .ok x ∧
          NextOnClock rt now ((seconds : Int) * 1000000) x) ↔
        SteadyUntil rt now
          (untilNext (clockReading rt now.micros) ((seconds : Int) * 1000000)))) ∧
    ∀ stamp, rt.fromisoformat (Text.strip untilStr) = some stamp →
      (StampMeant stamp now (parseUntilToUtc rt untilStr now now now) ↔
        representable stamp.micros = true) :=
  ⟨fun _ h => clock_meaning_iff law h now, fun _ h => stamp_meaning_iff law h now⟩

/-- A zone that leaves summer time on 2026-10-25, at 01:00 UTC. -/
def autumnRuntime : Runtime := { asciiRuntime with
  localOffset := fun u => if u < 1792890000000000 then 7200000000 else 3600000000 }

/-- Half past midnight on that day, still in summer time. -/
def autumnNight : Instant := ⟨1792881000000000, by decide⟩

theorem isoLaw_autumnRuntime : IsoLaw autumnRuntime := fun _ _ h => by cases h

theorem parseUntilToUtc_meaning_iff_autumn : ∃ x,
    parseUntilToUtc autumnRuntime "00:45" autumnNight autumnNight autumnNight = .ok x ∧
      NextOnClock autumnRuntime autumnNight 2700000000 x := by
  have hseconds : clockSeconds autumnRuntime (Text.strip "00:45") = some 2700 := by decide
  refine (((parseUntilToUtc_meaning_iff isoLaw_autumnRuntime "00:45" autumnNight).1 2700
    hseconds).mpr ?_)
  have hwait : untilNext (clockReading autumnRuntime autumnNight.micros) 2700000000 =
      900000000 := by
    decide
  show SteadyUntil autumnRuntime autumnNight
    (untilNext (clockReading autumnRuntime autumnNight.micros) 2700000000)
  rw [hwait]
  refine steadyUntil_of_constant (by decide) (by decide) (by decide) (fun s hs hle => ?_) (by decide)
  have hbefore : autumnNight.micros + s < 1792890000000000 := by
    show 1792881000000000 + s < 1792890000000000
    omega
  exact if_pos hbefore

/-- Noon is read an hour after the instant that is returned. -/
theorem noon_after_change : ¬ ∀ (untilStr : Text) (now : Instant) (seconds : Nat),
    clockSeconds autumnRuntime (Text.strip untilStr) = some seconds →
    (∃ u, u + autumnRuntime.localOffset u = now.micros + autumnRuntime.localOffset now.micros +
      untilNext (clockReading autumnRuntime now.micros) ((seconds : Int) * 1000000)) →
    ∃ x, parseUntilToUtc autumnRuntime untilStr now now now = .ok x ∧
      NextOnClock autumnRuntime now ((seconds : Int) * 1000000) x := by
  intro h
  obtain ⟨x, hx, hnext⟩ := h "12:00" autumnNight 43200 (by decide) ⟨1792926000000000, by decide⟩
  have hend : parseUntilToUtc autumnRuntime "12:00" autumnNight autumnNight autumnNight =
      .ok ⟨1792922400000000, by decide⟩ := by
    decide
  obtain rfl : (⟨1792922400000000, by decide⟩ : Instant) = x := Except.ok.inj (hend.symm.trans hx)
  exact absurd hnext.reads (by decide)

end FocusGuard

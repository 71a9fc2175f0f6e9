import EndaraRelay.OAuth.Deadline
import EndaraRelay.OAuth.EmaChain

/-!
# Which token times overflow

`expires_in` is the server's number. It is added to the clock when a token set is built, and when the timer
is armed the difference to the clock becomes a span of monotonic time that is added to an instant, multiplied
by three and taken back by five minutes.

**Theorem (`tokenTimes_total_iff`).** The expiry is the sum, and arming does not panic, just when the sum fits
64 bits and, for a token set that schedules a refresh, the span to the expiry ends at an instant and three
times the lifetime is a duration. A token whose time of issue is not known needs the first alone: its
deadline is taken with a checked subtraction.
-/

namespace EndaraRelay

open Verif.Clock

/-- The expiry is what it says, and arming the timer does not panic. -/
structure TokenTimesTotal (issuedSecs expiresIn : Nat) (hasRefreshToken ema : Bool)
    (issuedAt expiresAt : Option Nat) (armedSecs : Nat) (armedAt : Int) : Prop where
  expiry : Ema.addSecs issuedSecs expiresIn = issuedSecs + expiresIn
  deadline : (proactiveDeadline hasRefreshToken ema issuedAt expiresAt armedSecs armedAt).isSome

/-- The span to an expiry, and from an issue before it, is within the bounds of the clock. -/
structure SpanFits (issuedAt : Option Nat) (expires armedSecs : Nat) (armedAt : Int) : Prop where
  fromNow : armedAt + secs (expires - armedSecs) < maxInstant
  fromIssue : ∀ issued ∈ issuedAt, issued < expires →
    -maxInstant ≤ armedAt - secs (armedSecs - issued) ∧
    (secs (expires - armedSecs) + secs (armedSecs - issued)) * 3 < maxDuration ∧
    -maxInstant ≤ armedAt + secs (expires - armedSecs) - secs 300

theorem refreshDeadline_isSome_iff {issuedAt expiresAt : Int} (hissued : inRange issuedAt)
    (hexpires : inRange expiresAt) :
    (refreshDeadline issuedAt expiresAt).isSome ↔
      durationSince expiresAt issuedAt * 3 < maxDuration ∧ -maxInstant ≤ expiresAt - secs 300 := by
  constructor
  · intro h
    obtain ⟨d, hd⟩ := Option.isSome_iff_exists.1 h
    simp only [refreshDeadline, Option.bind_eq_bind, Option.bind_eq_some_iff] at hd
    obtain ⟨tripled, hmul, seventyFivePct, -, fiveMinBefore, hsub, -⟩ := hd
    exact ⟨(checkedMul_eq_some.1 hmul).1, (checkedSub_eq_some.1 hsub).1.1⟩
  · rintro ⟨hmul, hsub⟩
    -- three quarters of the lifetime end before the expiry, or at the issue
    have hadd : issuedAt + (durationSince expiresAt issuedAt * 3 / 4 : Nat) < maxInstant := by
      obtain ⟨-, hi⟩ := hissued
      obtain ⟨-, he⟩ := hexpires
      unfold durationSince
      omega
    simp only [refreshDeadline, checkedMul_of_lt hmul, checkedAdd_of_lt hissued.1 hadd,
      checkedSub_of_lt hexpires.2 hsub, Option.bind_eq_bind, Option.bind_some, Option.pure_def, Option.isSome_some]

section Arming

variable {issuedAt : Option Nat} {expires armedSecs : Nat} {armedAt : Int}

theorem durationSince_span (armedAt : Int) (left passed : Nat) :
    durationSince (armedAt + left) (armedAt - passed) = left + passed := by
  unfold durationSince
  omega

/-- The deadline of a token whose issue is known. -/
theorem fromIssue_isSome_iff {left : Nat} (passed : Nat) (hnow : inRange armedAt)
    (hleft : armedAt + left < maxInstant) :
    ((checkedSub armedAt passed).bind fun issued => refreshDeadline issued (armedAt + left)).isSome ↔
      -maxInstant ≤ armedAt - passed ∧ (left + passed) * 3 < maxDuration ∧
        -maxInstant ≤ armedAt + left - secs 300 := by
  obtain ⟨hlow, hhigh⟩ := hnow
  by_cases hissued : -maxInstant ≤ armedAt - passed
  · have hissuedRange : inRange (armedAt - passed) := ⟨hissued, by omega⟩
    have hexpiresRange : inRange (armedAt + left) := ⟨by omega, hleft⟩
    have hdeadline := refreshDeadline_isSome_iff hissuedRange hexpiresRange
    rw [durationSince_span] at hdeadline
    rw [checkedSub_of_lt hhigh hissued, Option.bind_some, hdeadline]
    exact (and_iff_right hissued).symm
  · have hnone : checkedSub armedAt passed = none := if_neg fun hrange => hissued hrange.1
    rw [hnone]
    exact iff_of_false Bool.false_ne_true fun h => hissued h.1

/-- A token set that schedules a refresh gets a deadline just when its spans fit. -/
theorem deadline_isSome_iff (hnow : inRange armedAt) {hasRefreshToken ema : Bool}
    (hgo : (hasRefreshToken || ema) = true) :
    (proactiveDeadline hasRefreshToken ema issuedAt (some expires) armedSecs armedAt).isSome ↔
      SpanFits issuedAt expires armedSecs armedAt := by
  have hschedules : ¬ (!hasRefreshToken && !ema) = true := by
    cases hasRefreshToken <;> cases ema <;> simp_all
  unfold proactiveDeadline
  rw [if_neg hschedules]
  dsimp only
  by_cases hexpires : armedAt + secs (expires - armedSecs) < maxInstant
  · rw [checkedAdd_of_lt hnow.1 hexpires]
    cases issuedAt with
    | none => exact iff_of_true rfl ⟨hexpires, nofun⟩
    | some issued =>
      by_cases hlt : expires > issued
      · have hissue := fromIssue_isSome_iff (secs (armedSecs - issued)) hnow hexpires
        have hsame : SpanFits (some issued) expires armedSecs armedAt ↔
            -maxInstant ≤ armedAt - secs (armedSecs - issued) ∧
            (secs (expires - armedSecs) + secs (armedSecs - issued)) * 3 < maxDuration ∧
            -maxInstant ≤ armedAt + secs (expires - armedSecs) - secs 300 :=
          ⟨fun h => h.fromIssue issued rfl hlt, fun h => ⟨hexpires, fun _ heq _ => Option.some.inj heq ▸ h⟩⟩
        simp only [Option.bind_eq_bind, Option.bind_some, if_pos hlt, Option.pure_def]
        rw [hsame, ← hissue]
        simp [Option.isSome_bind]
      · simp only [Option.bind_eq_bind, Option.bind_some, if_neg hlt]
        refine iff_of_true rfl ⟨hexpires, fun issued' hissued' hlt' => ?_⟩
        cases hissued'
        exact absurd hlt' hlt
  · have hnone : checkedAdd armedAt (secs (expires - armedSecs)) = none :=
      if_neg fun hrange => hexpires hrange.2
    rw [hnone]
    exact iff_of_false Bool.false_ne_true fun h => hexpires h.fromNow

end Arming

theorem addSecs_eq_iff (now expiresIn : Nat) :
    Ema.addSecs now expiresIn = now + expiresIn ↔ now + expiresIn < 18446744073709551616 :=
  Nat.mod_eq_iff_lt (by decide)

theorem deadline_total_iff {hasRefreshToken ema : Bool} {issuedAt expiresAt : Option Nat} {armedSecs : Nat}
    {armedAt : Int} (hnow : inRange armedAt) :
    (proactiveDeadline hasRefreshToken ema issuedAt expiresAt armedSecs armedAt).isSome ↔
      ((hasRefreshToken || ema) = true → ∀ expires ∈ expiresAt, SpanFits issuedAt expires armedSecs armedAt) := by
  by_cases hgo : (hasRefreshToken || ema) = true
  · cases expiresAt with
    | none =>
      refine iff_of_true ?_ fun _ => nofun
      cases hasRefreshToken <;> cases ema <;> rfl
    | some expires =>
      rw [deadline_isSome_iff hnow hgo]
      exact ⟨fun h _ _ heq => Option.some.inj heq ▸ h, fun h => h hgo expires rfl⟩
  · refine iff_of_true ?_ fun h => absurd h hgo
    cases hasRefreshToken <;> cases ema <;> simp_all [proactiveDeadline]

/-- **Token times are total just within the bounds of the clocks**, for every token response, stored time and
clock reading. -/
theorem tokenTimes_total_iff (issuedSecs expiresIn : Nat) (hasRefreshToken ema : Bool)
    (issuedAt expiresAt : Option Nat) (armedSecs : Nat) {armedAt : Int} (hnow : inRange armedAt) :
    TokenTimesTotal issuedSecs expiresIn hasRefreshToken ema issuedAt expiresAt armedSecs armedAt ↔
      issuedSecs + expiresIn < 18446744073709551616 ∧
      ((hasRefreshToken || ema) = true → ∀ expires ∈ expiresAt, SpanFits issuedAt expires armedSecs armedAt) := by
  rw [← addSecs_eq_iff, ← deadline_total_iff hnow]
  exact ⟨fun h => ⟨h.expiry, h.deadline⟩, fun h => ⟨h.1, h.2⟩⟩

/-- A token that lives an hour, applied a second after its issue. -/
theorem tokenTimes_total_hour :
    TokenTimesTotal 1767225600 3600 true false (some 1767225600) (some 1767229200) 1767225601 5000000000000 := by
  refine (tokenTimes_total_iff _ _ _ _ _ _ _ ⟨by decide, by decide⟩).2 ⟨by decide, fun _ expires heq => ?_⟩
  cases heq
  refine ⟨by decide, fun issued heq _ => ?_⟩
  cases heq
  decide

/-- A lifetime of `u64::MAX` seconds overflows the expiry, and about half of that the lifetime times three. -/
theorem huge_lifetimes_overflow :
    (¬ TokenTimesTotal 1767225600 18446744073709551615 true false none none 1767225600 5000000000000) ∧
    ¬ TokenTimesTotal 1767225600 9000000000000000000 true false (some 1767225600) (some 9000000001767225600)
      1767225600 5000000000000 := by
  constructor
  · intro h
    exact absurd ((addSecs_eq_iff _ _).1 h.expiry) (by decide)
  · intro h
    have hfits := (deadline_isSome_iff ⟨by decide, by decide⟩ rfl).1 h.deadline
    exact absurd (hfits.fromIssue 1767225600 rfl (by decide)).2.1 (by decide)

end EndaraRelay

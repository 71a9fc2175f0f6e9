import EndaraRelay.Lib.Clock
import Mathlib.Data.List.Chain
import Mathlib.Tactic.Ring
import EndaraRelay.OAuth.Refresh

/-!
# The proactive refresh: when its timer fires

`apply_tokens_inner` ends by arming the timer of the next proactive refresh. The deadline lies at
three quarters of the token's lifetime, or five minutes before the expiry where that is earlier.

A successful refresh reads the wall clock when the answer arrives, and a second time, together with
the monotonic clock, when the timer is armed. `Cycle` holds these readings.

* `Cycle.deadline_margins` places the deadline of one cycle: for every lifetime over five minutes it
  lies between issue and expiry, and the timer has a positive delay exactly when more than five
  minutes, and more than a quarter of the lifetime, remain. A lifetime of five minutes or less leaves
  no such room (`Cycle.delay_eq_zero`).
* In a chain of refreshes each timer is armed after the one before it fired. `spaced_chain`: they lie
  apart by the lead the lifetime gives, less the time an application takes.
* `proactive_refresh_ahead` is the main result.
-/

namespace EndaraRelay

open Verif.Clock

/-! ## The deadline -/

/-- `refresh_deadline`: the earlier of 75 % of the lifetime after the issue, and five minutes before
the expiry. `none` where the arithmetic panics. -/
def refreshDeadline (issuedAt expiresAt : Int) : Option Int := do
  let lifetime := durationSince expiresAt issuedAt
  let tripled ← checkedMul lifetime 3
  let seventyFivePct ← checkedAdd issuedAt (tripled / 4)
  let fiveMinBefore ← checkedSub expiresAt (secs 300)
  return min seventyFivePct fiveMinBefore

/-- `fallback_refresh_deadline`, for a token whose time of issue is not known. -/
def fallbackRefreshDeadline (now expiresAt : Int) : Int :=
  max ((checkedSub expiresAt (secs 300)).getD now) now

/-- The deadline `apply_tokens_inner` arms the timer with: `some none` where it arms none. -/
def proactiveDeadline (hasRefreshToken ema : Bool) (issuedAt expiresAt : Option Nat)
    (nowSecs : Nat) (nowInstant : Int) : Option (Option Int) :=
  if !hasRefreshToken && !ema then some none
  else
    match expiresAt with
    | none => some none
    | some expires => do
      let expiresInstant ← checkedAdd nowInstant (secs (expires - nowSecs))
      match issuedAt with
      | some issued =>
        if expires > issued then
          let issuedInstant ← checkedSub nowInstant (secs (nowSecs - issued))
          let deadline ← refreshDeadline issuedInstant expiresInstant
          return some deadline
        else return some (fallbackRefreshDeadline nowInstant expiresInstant)
      | none => return some (fallbackRefreshDeadline nowInstant expiresInstant)

/-! ## One refresh -/

/-- The clock readings of one successful refresh: the wall clock when the token was issued, and both
clocks when the timer was armed. -/
structure Cycle where
  issuedSecs : Nat
  armedSecs : Nat
  armedAt : Int
deriving DecidableEq, Repr

namespace Cycle

variable (c : Cycle) (lifetime : Nat)

/-- `expires_at` of the token set: `now_secs + secs` on 64 bits. -/
def expiresSecs : Nat := (c.issuedSecs + lifetime) % 2 ^ 64

/-- The deadline of the next refresh, for a token the server gave `lifetime` seconds. -/
def deadline : Option (Option Int) :=
  proactiveDeadline true false (some c.issuedSecs) (some (c.expiresSecs lifetime)) c.armedSecs c.armedAt

def delay : Nat :=
  match c.deadline lifetime with
  | some (some d) => durationSince d c.armedAt
  | _ => 0

def issuedAt : Int := c.armedAt - secs (c.armedSecs - c.issuedSecs)

def expiresAt : Int := c.armedAt + secs (c.issuedSecs + lifetime - c.armedSecs)

/-- No clock reading, and no sum of them, comes near the bounds of its type. -/
structure InRange : Prop where
  expires : c.issuedSecs + lifetime < 2 ^ 61
  armedSecs : c.armedSecs < 2 ^ 61
  after : -(2 ^ 62 * nanosPerSec) ≤ c.armedAt
  before : c.armedAt < 2 ^ 62 * nanosPerSec

/-- The timer was armed with more than five minutes, and more than a quarter of the lifetime, left. -/
def InTime : Prop :=
  300 < c.issuedSecs + lifetime - c.armedSecs ∧
    c.armedSecs - c.issuedSecs < 3 * (c.issuedSecs + lifetime - c.armedSecs)

end Cycle

/-- As long as nothing overflows, the deadline is what `refresh_deadline` describes. -/
theorem refreshDeadline_eq {issuedAt expiresAt : Int} (hle : issuedAt ≤ expiresAt)
    (hissued : -maxInstant ≤ issuedAt) (hexpires : expiresAt < maxInstant)
    (hmargin : -maxInstant ≤ expiresAt - secs 300)
    (hspan : durationSince expiresAt issuedAt * 3 < maxDuration) :
    refreshDeadline issuedAt expiresAt =
      some (min (issuedAt + (expiresAt - issuedAt) * 3 / 4) (expiresAt - secs 300)) := by
  have hdur : (durationSince expiresAt issuedAt : Int) = expiresAt - issuedAt :=
    durationSince_of_le hle
  have hcast : ((durationSince expiresAt issuedAt * 3 / 4 : Nat) : Int) =
      (expiresAt - issuedAt) * 3 / 4 := by
    omega
  have hadd : checkedAdd issuedAt (durationSince expiresAt issuedAt * 3 / 4) =
      some (issuedAt + (expiresAt - issuedAt) * 3 / 4) := by
    rw [checkedAdd_of_lt hissued (by omega), hcast]
  simp only [refreshDeadline, checkedMul_of_lt hspan, hadd, checkedSub_of_lt hexpires hmargin,
    Option.bind_eq_bind, Option.bind_some, Option.pure_def]

namespace Cycle

variable {c : Cycle} {lifetime : Nat}

/-- The deadline of a cycle whose arithmetic stays in range. -/
theorem deadline_eq (hL : 0 < lifetime) (h : c.InRange lifetime) :
    c.deadline lifetime =
      some (some (min
        (c.issuedAt + (c.expiresAt lifetime - c.issuedAt) * 3 / 4)
        (c.expiresAt lifetime - secs 300))) := by
  obtain ⟨he, hs, ha, hb⟩ := h
  have hexp : c.expiresSecs lifetime = c.issuedSecs + lifetime := Nat.mod_eq_of_lt (by omega)
  have hgt : c.issuedSecs + lifetime > c.issuedSecs := by omega
  have hbounds : c.issuedAt ≤ c.expiresAt lifetime ∧ -maxInstant ≤ c.issuedAt ∧
      c.expiresAt lifetime < maxInstant ∧ -maxInstant ≤ c.expiresAt lifetime - secs 300 ∧
      durationSince (c.expiresAt lifetime) c.issuedAt * 3 < maxDuration := by
    unfold issuedAt expiresAt secs durationSince maxInstant maxDuration nanosPerSec at *
    omega
  have hexpires : checkedAdd c.armedAt (secs (c.issuedSecs + lifetime - c.armedSecs)) =
      some (c.expiresAt lifetime) := by
    apply checkedAdd_of_lt _ hbounds.2.2.1
    unfold maxInstant nanosPerSec at *
    omega
  have hissued : checkedSub c.armedAt (secs (c.armedSecs - c.issuedSecs)) = some c.issuedAt := by
    apply checkedSub_of_lt _ hbounds.2.1
    unfold maxInstant nanosPerSec at *
    omega
  unfold deadline proactiveDeadline
  simp only [hexp, hgt, hexpires, hissued, if_pos, Option.bind_eq_bind, Option.bind_some]
  rw [refreshDeadline_eq hbounds.1 hbounds.2.1 hbounds.2.2.1 hbounds.2.2.2.1 hbounds.2.2.2.2]
  rfl

/-- The deadline keeps a second from the issue, which is what the wall clock's readings are rounded
down to, and five minutes from the expiry. -/
theorem deadline_margins (hL : 300 < lifetime) (h : c.InRange lifetime) :
    ∃ d, c.deadline lifetime = some (some d) ∧
      c.issuedAt + secs 1 ≤ d ∧ d + secs 300 ≤ c.expiresAt lifetime ∧
      (c.armedAt < d ↔ c.InTime lifetime) := by
  refine ⟨_, deadline_eq (by omega) h, ?_⟩
  unfold InTime issuedAt expiresAt secs nanosPerSec
  omega

theorem delay_pos_iff {d : Int} (hd : c.deadline lifetime = some (some d)) :
    0 < c.delay lifetime ↔ c.armedAt < d := by
  unfold delay
  rw [hd]
  exact durationSince_pos

/-- With five minutes or less to live, the token is refreshed at once. -/
theorem delay_eq_zero (hpos : 0 < lifetime) (hL : lifetime ≤ 300) (h : c.InRange lifetime)
    (hclock : c.issuedSecs ≤ c.armedSecs) : c.delay lifetime = 0 := by
  unfold delay
  rw [deadline_eq hpos h]
  apply durationSince_of_ge
  unfold expiresAt secs nanosPerSec
  omega

end Cycle

/-! ## A chain of refreshes -/

/-- The next timer is armed after this one fired. -/
def Cycle.Before (lifetime : Nat) (c c' : Cycle) : Prop :=
  ∃ d, c.deadline lifetime = some (some d) ∧ d ≤ c'.armedAt

theorem Cycle.armedAt_lt {lifetime : Nat} {c c' : Cycle} (h : c.Before lifetime c')
    (hdelay : 0 < c.delay lifetime) : c.armedAt < c'.armedAt := by
  obtain ⟨d, hd, hle⟩ := h
  have hlt := (Cycle.delay_pos_iff hd).mp hdelay
  omega

/-- In a chain of refreshes with positive delays, each is armed strictly after all before it. -/
theorem pairwise_armedAt {lifetime : Nat} {cs : List Cycle}
    (hchain : cs.IsChain (Cycle.Before lifetime)) (hdelay : ∀ c ∈ cs, 0 < c.delay lifetime) :
    cs.Pairwise (fun c c' => c.armedAt < c'.armedAt) := by
  rw [← List.isChain_iff_pairwise]
  induction hchain with
  | nil => exact .nil
  | singleton c => exact .singleton c
  | cons_cons hbefore _ ih =>
    refine .cons_cons (Cycle.armedAt_lt hbefore (hdelay _ List.mem_cons_self)) ?_
    exact ih fun c hc => hdelay c (List.mem_cons_of_mem _ hc)

/-- The time from issue to deadline, in nanoseconds. -/
def lead (lifetime : Nat) : Nat := min (lifetime * 750000000) (secs (lifetime - 300))

theorem Cycle.lead_le {lifetime lag : Nat} {c c' : Cycle} (h : c.Before lifetime c')
    (hL : 300 < lifetime) (hrange : c.InRange lifetime) (hclock : c.issuedSecs ≤ c.armedSecs)
    (hlag : c.armedSecs ≤ c.issuedSecs + lag) :
    c.armedAt + lead lifetime - secs lag ≤ c'.armedAt := by
  obtain ⟨d, hd, hle⟩ := h
  rw [Cycle.deadline_eq (by omega) hrange] at hd
  cases hd
  unfold lead Cycle.issuedAt Cycle.expiresAt secs nanosPerSec at *
  omega

/-- Applications that take at most `lag` seconds space the refreshes of a chain by the lead the
lifetime gives, less the lag. -/
theorem spaced_chain {lifetime lag : Nat} {c : Cycle} {cs : List Cycle} (hL : 300 < lifetime)
    (hchain : (c :: cs).IsChain (Cycle.Before lifetime))
    (hrange : ∀ x ∈ c :: cs, x.InRange lifetime)
    (hlag : ∀ x ∈ c :: cs, x.issuedSecs ≤ x.armedSecs ∧ x.armedSecs ≤ x.issuedSecs + lag) :
    c.armedAt + cs.length * (lead lifetime - secs lag : Int) ≤
      ((c :: cs).getLast (List.cons_ne_nil c cs)).armedAt := by
  induction cs generalizing c with
  | nil => simp
  | cons c' cs ih =>
    have hhead := List.isChain_cons_cons.mp hchain
    have hstep := Cycle.lead_le hhead.1 hL (hrange c List.mem_cons_self)
      (hlag c List.mem_cons_self).1 (hlag c List.mem_cons_self).2
    have hrest := ih hhead.2 (fun x hx => hrange x (List.mem_cons_of_mem _ hx))
      (fun x hx => hlag x (List.mem_cons_of_mem _ hx))
    rw [List.getLast_cons (List.cons_ne_nil c' cs), List.length_cons]
    have hmul : ((cs.length + 1 : Nat) : Int) * (lead lifetime - secs lag : Int) =
        cs.length * (lead lifetime - secs lag : Int) + (lead lifetime - secs lag : Int) := by
      push_cast
      ring
    rw [hmul]
    omega

/-- **A chain of proactive refreshes does not spin.** With a lifetime over five minutes, each deadline
lies strictly between issue and expiry, the delay is positive exactly for the timers armed in time,
and if all are, each is armed strictly later than the ones before it. A lifetime of five minutes or
less is refreshed at once. -/
theorem proactive_refresh_ahead {lifetime : Nat} {cs : List Cycle} (hpos : 0 < lifetime)
    (hrange : ∀ c ∈ cs, c.InRange lifetime) (hchain : cs.IsChain (Cycle.Before lifetime)) :
    (300 < lifetime →
      (∀ c ∈ cs, ∃ d, c.deadline lifetime = some (some d) ∧
        c.issuedAt < d ∧ d < c.expiresAt lifetime ∧
        (0 < c.delay lifetime ↔ c.InTime lifetime)) ∧
      ((∀ c ∈ cs, c.InTime lifetime) →
        cs.Pairwise (fun c c' => c.armedAt < c'.armedAt))) ∧
    (lifetime ≤ 300 → ∀ c ∈ cs, c.issuedSecs ≤ c.armedSecs → c.delay lifetime = 0) := by
  refine ⟨fun hL => ?_, fun hL c hc => Cycle.delay_eq_zero hpos hL (hrange c hc)⟩
  have hcycle : ∀ c ∈ cs, ∃ d, c.deadline lifetime = some (some d) ∧
      c.issuedAt < d ∧ d < c.expiresAt lifetime ∧
      (0 < c.delay lifetime ↔ c.InTime lifetime) := by
    intro c hc
    obtain ⟨d, hd, hissue, hexpiry, hdelay⟩ := Cycle.deadline_margins hL (hrange c hc)
    refine ⟨d, hd, ?_, ?_, (Cycle.delay_pos_iff hd).trans hdelay⟩
    · unfold secs nanosPerSec at hissue
      omega
    · unfold secs nanosPerSec at hexpiry
      omega
  refine ⟨hcycle, fun hin => pairwise_armedAt hchain fun c hc => ?_⟩
  obtain ⟨d, -, -, -, hdelay⟩ := hcycle c hc
  exact hdelay.mpr (hin c hc)

/-- Two refreshes of an access token that lives an hour, the second after the timer of the first. -/
def hourly : List Cycle :=
  [⟨1000, 1002, 50000000000⟩, ⟨3700, 3701, 2750000000000⟩]

theorem hourly_ahead :
    ((∀ c ∈ hourly, ∃ d, c.deadline 3600 = some (some d) ∧
        c.issuedAt < d ∧ d < c.expiresAt 3600 ∧ (0 < c.delay 3600 ↔ c.InTime 3600)) ∧
      hourly.Pairwise (fun c c' => c.armedAt < c'.armedAt)) := by
  have hrange : ∀ c ∈ hourly, c.InRange 3600 := by
    intro c hc
    simp only [hourly, List.mem_cons, List.not_mem_nil, or_false] at hc
    obtain rfl | rfl := hc
    · exact ⟨by decide, by decide, by decide, by decide⟩
    · exact ⟨by decide, by decide, by decide, by decide⟩
  have hchain : hourly.IsChain (Cycle.Before 3600) := by
    refine .cons_cons ⟨_, rfl, ?_⟩ (.singleton _)
    decide
  have h := (proactive_refresh_ahead (by decide) hrange hchain).1 (by decide)
  refine ⟨h.1, h.2 ?_⟩
  intro c hc
  simp only [hourly, List.mem_cons, List.not_mem_nil, or_false] at hc
  obtain rfl | rfl := hc
  · exact ⟨by decide, by decide⟩
  · exact ⟨by decide, by decide⟩

theorem hourly_spaced : (50000000000 : Int) + 1 * (lead 3600 - secs 2 : Int) ≤ 2750000000000 := by
  have hchain : hourly.IsChain (Cycle.Before 3600) := by
    refine .cons_cons ⟨_, rfl, ?_⟩ (.singleton _)
    decide
  refine spaced_chain (by decide) hchain ?_ ?_
  · exact List.forall_mem_cons.2 ⟨⟨by decide, by decide, by decide, by decide⟩, List.forall_mem_singleton.2
      ⟨by decide, by decide, by decide, by decide⟩⟩
  · exact List.forall_mem_cons.2 ⟨by decide, List.forall_mem_singleton.2 (by decide)⟩

/-- A token that lives five minutes has its deadline at the very moment it is issued. -/
theorem five_minutes_refresh_at_once :
    ¬ ∀ lifetime : Nat, 0 < lifetime → ∀ c : Cycle, c.InRange lifetime → c.armedSecs = c.issuedSecs →
      ∃ d, c.deadline lifetime = some (some d) ∧ c.issuedAt < d ∧ d < c.expiresAt lifetime ∧
        0 < c.delay lifetime := by
  intro h
  obtain ⟨d, hd, hissue, -⟩ :=
    h 300 (by decide) ⟨1000, 1000, 50000000000⟩ ⟨by decide, by decide, by decide, by decide⟩ rfl
  cases (show some (some (50000000000 : Int)) = some (some d) from hd)
  exact absurd hissue (by decide)

end EndaraRelay

import EndaraRelay.Lib.Transition
import EndaraRelay.SetupSessions

/-!
# Setup sessions are exclusive

The operations of `OAuthSetupManager` in any order, over a clock. `SetupSessions` has what each of
them does to the map; here they are the steps of a system.

**The state.** `claims` are the commit claims that have been given out and have been neither released
nor followed by the removal of the session, each with the session as it was claimed. `opening` are
the sessions whose `oauth_setup` has not got past discovery: until then it may throw its session away,
and there is no flow yet whose callback could authorize it.

**What an operation does** (`SessionChange`). Apart from creating and claiming, an operation of the manager
leaves a session alone, removes one that no live claim holds, or edits one that is not claimed.

**Theorem (`setup_sessions_exclusive`).** In every reachable state no two sessions have one name, no
session has two claims, a session with a live claim is as it was claimed, and no step but the release
of that claim or the removal by the claimant touches the session or ends the claim.
-/

namespace EndaraRelay

open Verif

/-! ## The system -/

/-- A commit claim that is outstanding, with the session as it was claimed. -/
structure SetupClaim where
  number : Nat
  id : Nat
  session : OAuthSetupSession
deriving DecidableEq

structure SetupManager where
  now : Nat
  nextId : Nat
  nextClaim : Nat
  sessions : SetupSessions
  opening : List Nat
  claims : List SetupClaim

inductive SetupAction where
  /-- Time passes. -/
  | tick (seconds : Nat)
  | create (req : OAuthSetupRequest)
  /-- `oauth_setup` removes its session after a failed discovery. -/
  | discard (id : Nat)
  /-- `oauth_setup` stores what it has discovered. -/
  | discovered (id : Nat) (disc : DiscoveredServer)
  /-- A client is stored: by `oauth_setup`, or as it is submitted. -/
  | giveClient (id : Nat) (client : RegisteredClient) (viaDcr : Bool)
  /-- The callback of a login brings tokens. -/
  | authorize (id : Nat) (tokens : IssuedTokens)
  | claim (id : Nat)
  /-- A commit has failed. -/
  | release (number : Nat)
  /-- A commit has succeeded, and removes the session. -/
  | finish (number : Nat)
  | cancel (id : Nat)
  | cleanupStale

namespace SetupManager

def claimNumbered (m : SetupManager) (number : Nat) : Option SetupClaim :=
  m.claims.find? fun c => c.number = number

def dropClaim (m : SetupManager) (number : Nat) : List SetupClaim :=
  m.claims.filter fun c => c.number ≠ number

/-- `create_session`, with the next id. -/
def create (m : SetupManager) (req : OAuthSetupRequest) : SetupManager :=
  let r := m.sessions.createSession m.nextId m.now req
  { m with
    nextId := m.nextId + 1
    sessions := r.2
    opening := if r.1 then m.nextId :: m.opening else m.opening }

/-- `claim_for_commit`; the claim is outstanding from then on. -/
def claim (m : SetupManager) (id : Nat) : SetupManager :=
  let r := m.sessions.claimForCommit id m.now
  match r.1 with
  | .claimed snapshot =>
    { m with
      nextClaim := m.nextClaim + 1
      sessions := r.2
      claims := ⟨m.nextClaim, id, snapshot.withStatus .committing⟩ :: m.claims }
  | _ => { m with sessions := r.2 }

end SetupManager

/-- The manager under its callers. A claim is released, or its session removed, by the commit that
holds it, and a callback comes from a flow that was started behind the discovery. -/
def setupManager : System SetupManager SetupAction where
  init m := m.sessions = ∅ ∧ m.opening = [] ∧ m.claims = []
  step m
    | .tick seconds => some { m with now := m.now + seconds }
    | .create req => some (m.create req)
    | .discard id =>
      if id ∈ m.opening then
        some { m with sessions := m.sessions.erase id, opening := m.opening.erase id }
      else none
    | .discovered id disc =>
      if id ∈ m.opening then
        some { m with
          sessions := (m.sessions.getSessionMut id m.now ({ · with discovered := some disc })).2
          opening := m.opening.erase id }
      else none
    | .giveClient id client viaDcr =>
      some { m with sessions := (m.sessions.getSessionMut id m.now (·.withClient client viaDcr)).2 }
    | .authorize id tokens =>
      if id ∈ m.opening then none
      else some { m with sessions := m.sessions.markAuthorized id tokens }
    | .claim id => some (m.claim id)
    | .release number =>
      (m.claimNumbered number).map fun c =>
        { m with sessions := m.sessions.releaseCommitClaim c.id, claims := m.dropClaim number }
    | .finish number =>
      (m.claimNumbered number).map fun c =>
        { m with sessions := m.sessions.erase c.id, claims := m.dropClaim number }
    | .cancel id => some { m with sessions := m.sessions.cancelSession id m.now }
    | .cleanupStale => some { m with sessions := m.sessions.retain (OAuthSetupSession.live m.now) }

/-! ## What an operation does to a session -/

/-- What becomes of what is found under an id; `mayLogIn` tells whether a login may land on it. -/
inductive SessionChange (mayLogIn : Prop) (now : Nat) :
    Option OAuthSetupSession → Option OAuthSetupSession → Prop where
  | same (x : Option OAuthSetupSession) : SessionChange mayLogIn now x x
  | swept {x : OAuthSetupSession} (h : x.live now = false) : SessionChange mayLogIn now (some x) none
  | cancelled {x : OAuthSetupSession} (h : x.status ≠ .committing) : SessionChange mayLogIn now (some x) none
  | edited {x y : OAuthSetupSession} (hx : x.status ≠ .committing) (hy : y.status ≠ .committing)
      (hname : y.name = x.name) (hlogin : y.status = .authorized → x.status = .authorized ∨ mayLogIn) :
      SessionChange mayLogIn now (some x) (some y)

variable {x : OAuthSetupSession} {id k now number : Nat} {f : OAuthSetupSession → OAuthSetupSession}
  {sessions : SetupSessions} {c : SetupClaim}

namespace SetupSessions

variable {sessions : SetupSessions} {now : Nat} {mayLogIn : Prop}

theorem not_live_of_expired (h : x.expired now = true) : x.live now = false := by
  simp only [OAuthSetupSession.expired, decide_eq_true_eq] at h
  simp only [OAuthSetupSession.live, decide_eq_false_iff_not]
  omega

theorem lookup_retain (p : OAuthSetupSession → Bool) (sessions : SetupSessions) (k : Nat) :
    (sessions.retain p).lookup k = (sessions.lookup k).filter p := by
  apply Option.ext
  intro x
  rw [← AList.mem_entries_iff, Option.filter_eq_some_iff, ← AList.mem_entries_iff]
  exact List.mem_filter

theorem change_retain (sessions : SetupSessions) (k : Nat) :
    SessionChange mayLogIn now (sessions.lookup k)
      ((sessions.retain (OAuthSetupSession.live now)).lookup k) := by
  rw [lookup_retain]
  cases sessions.lookup k with
  | none => exact .same none
  | some x =>
    cases hx : x.live now with
    | true => rw [Option.filter_some_pos hx]; exact .same _
    | false =>
      rw [Option.filter_some_neg (by simp [hx])]
      exact .swept hx

/-- An operation on the session `id` changes no other session. -/
theorem change_of_erase (h : k = id → SessionChange mayLogIn now (sessions.lookup k) none) :
    SessionChange mayLogIn now (sessions.lookup k) ((sessions.erase id).lookup k) := by
  by_cases hk : k = id
  · subst hk
    rw [AList.lookup_erase]
    exact h rfl
  · rw [AList.lookup_erase_ne hk]
    exact .same _

theorem change_of_modify
    (h : ∀ x, k = id → sessions.lookup k = some x → SessionChange mayLogIn now (some x) (some (f x))) :
    SessionChange mayLogIn now (sessions.lookup k) ((sessions.modify id f).lookup k) := by
  by_cases hk : k = id
  · subst hk
    rw [AList.lookup_modify_self]
    cases hx : sessions.lookup k with
    | none => exact .same none
    | some x => exact h x rfl hx
  · rw [AList.lookup_modify_ne hk]
    exact .same _

/-- An edit that keeps the name and neither claims nor logs in. -/
theorem change_getSessionMut (hname : ∀ x, (f x).name = x.name)
    (hclaim : ∀ x, x.status ≠ .committing → (f x).status ≠ .committing)
    (hlogin : ∀ x, (f x).status = .authorized → x.status = .authorized) (k : Nat) :
    SessionChange mayLogIn now (sessions.lookup k) ((sessions.getSessionMut id now f).2.lookup k) := by
  unfold getSessionMut
  split
  · exact .same _
  · next x hx =>
    split
    · next hexpired =>
      refine change_of_erase fun hk => ?_
      rw [hk, hx]
      exact .swept (not_live_of_expired hexpired)
    · split
      · exact .same _
      · next hfree =>
        refine change_of_modify fun y hk hy => ?_
        rw [hk, hx] at hy
        obtain rfl := Option.some.inj hy
        exact .edited hfree (hclaim x hfree) (hname x) fun h => .inl (hlogin x h)

theorem change_markAuthorized (tokens : IssuedTokens) (hlogin : k = id → mayLogIn) :
    SessionChange mayLogIn now (sessions.lookup k) ((sessions.markAuthorized id tokens).lookup k) := by
  refine change_of_modify fun x hk hx => ?_
  split
  · exact .same _
  · next hfree => exact .edited hfree nofun rfl fun _ => .inr (hlogin hk)

/-- A claim is given on an authorized session, or the session is at most swept. -/
theorem claimForCommit_cases (sessions : SetupSessions) (id now : Nat) :
    (∃ x, sessions.lookup id = some x ∧ x.status = .authorized ∧
      sessions.claimForCommit id now = (.claimed { x with createdAt := now },
        sessions.modify id fun s => { s with status := .committing, createdAt := now })) ∨
    ∃ answer kept, sessions.claimForCommit id now = (answer, kept) ∧
      (∀ snapshot, answer ≠ .claimed snapshot) ∧
      ∀ mayLogIn k, SessionChange mayLogIn now (sessions.lookup k) (AList.lookup k kept) := by
  unfold claimForCommit
  split
  · exact .inr ⟨_, _, rfl, fun _ h => CommitClaim.noConfusion h, fun _ _ => .same _⟩
  · next x hx =>
    split
    · next hexpired =>
      refine .inr ⟨_, _, rfl, fun _ h => CommitClaim.noConfusion h,
        fun _ k => change_of_erase fun hk => ?_⟩
      rw [hk, hx]
      exact .swept (not_live_of_expired hexpired)
    · split
      · exact .inr ⟨_, _, rfl, fun _ h => CommitClaim.noConfusion h, fun _ _ => .same _⟩
      · next hauthorized => exact .inl ⟨x, hx, hauthorized, rfl⟩
      · exact .inr ⟨_, _, rfl, fun _ h => CommitClaim.noConfusion h, fun _ _ => .same _⟩

theorem change_cancelSession (id k : Nat) :
    SessionChange mayLogIn now (sessions.lookup k) ((sessions.cancelSession id now).lookup k) := by
  unfold cancelSession
  split
  · exact .same _
  · next x hx =>
    split
    · exact .same _
    · next hfree =>
      refine change_of_erase fun hk => ?_
      rw [hk, hx]
      cases hexpired : x.expired now with
      | true => exact .swept (not_live_of_expired hexpired)
      | false => exact .cancelled (by simpa [hexpired] using hfree)

end SetupSessions

/-! ## The invariant -/

structure Exclusive (m : SetupManager) : Prop where
  names : ∀ a b x y, m.sessions.lookup a = some x → m.sessions.lookup b = some y →
    x.name = y.name → a = b
  fresh : ∀ a x, m.sessions.lookup a = some x → a < m.nextId
  freshClaims : ∀ c ∈ m.claims, c.id < m.nextId ∧ c.number < m.nextClaim
  /-- A claim is known by its number, and it is the only one on its session. -/
  numbers : ∀ c ∈ m.claims, ∀ d ∈ m.claims, c.number = d.number ∨ c.id = d.id → c = d
  committing : ∀ c ∈ m.claims, c.session.status = .committing
  /-- A claimed session is as it was claimed, if it is there. -/
  held : ∀ c ∈ m.claims, ∀ x, m.sessions.lookup c.id = some x → x = c.session
  live : ∀ c ∈ m.claims, c.session.live m.now = true → m.sessions.lookup c.id = some c.session
  /-- No session is logged in while it is being discovered. -/
  opening : ∀ a ∈ m.opening, a < m.nextId ∧ (∀ c ∈ m.claims, c.id ≠ a) ∧
    ∀ x, m.sessions.lookup a = some x → x.status ≠ .authorized ∧ x.status ≠ .committing

namespace Exclusive

variable {m : SetupManager}

theorem init (h : setupManager.init m) : Exclusive m := by
  obtain ⟨hsessions, hopening, hclaims⟩ := h
  have hnone : ∀ a, m.sessions.lookup a = none := fun a => by rw [hsessions]; exact AList.lookup_empty a
  refine ⟨?_, ?_, ?_, ?_, ?_, ?_, ?_, ?_⟩
  · intro a b x y hx
    rw [hnone] at hx
    cases hx
  · intro a x hx
    rw [hnone] at hx
    cases hx
  all_goals simp [hclaims, hopening]

section

variable (h : Exclusive m)
include h

theorem tick (seconds : Nat) : Exclusive { m with now := m.now + seconds } := by
  refine ⟨h.names, h.fresh, h.freshClaims, h.numbers, h.committing, h.held, fun c hc hlive => ?_, h.opening⟩
  refine h.live c hc ?_
  simp only [OAuthSetupSession.live, decide_eq_true_eq] at hlive ⊢
  omega

/-- An operation that changes sessions as `SessionChange` allows keeps the invariant. -/
theorem change {opening : List Nat} (hopening : ∀ a ∈ opening, a ∈ m.opening)
    (hchange : ∀ k, SessionChange (k ∉ m.opening) m.now (m.sessions.lookup k) (sessions.lookup k)) :
    Exclusive { m with sessions, opening } := by
  -- what is found afterwards was there before, under the same name
  have hback : ∀ k y, sessions.lookup k = some y →
      ∃ x, m.sessions.lookup k = some x ∧ y.name = x.name ∧ (x.status = .committing → y = x) ∧
        (y.status = .committing → x = y) ∧
        (y.status = .authorized → x.status = .authorized ∨ k ∉ m.opening) := by
    intro k y hy
    have hk := hchange k
    rw [hy] at hk
    generalize hx : m.sessions.lookup k = old at hk
    cases hk with
    | same => exact ⟨y, rfl, rfl, fun _ => rfl, fun _ => rfl, .inl⟩
    | edited hxs hys hname hlogin =>
      exact ⟨_, rfl, hname, fun hc => absurd hc hxs, fun hc => absurd hc hys, hlogin⟩
  refine ⟨?_, ?_, h.freshClaims, h.numbers, h.committing, ?_, ?_, ?_⟩
  · intro a b x y hx hy hxy
    obtain ⟨x', hx', hxn, -⟩ := hback a x hx
    obtain ⟨y', hy', hyn, -⟩ := hback b y hy
    exact h.names a b x' y' hx' hy' (hxn.symm.trans (hxy.trans hyn))
  · intro a x hx
    obtain ⟨x', hx', -⟩ := hback a x hx
    exact h.fresh a x' hx'
  · intro c hc y hy
    obtain ⟨x, hx, -, hsame, -⟩ := hback c.id y hy
    obtain rfl := h.held c hc x hx
    exact hsame (h.committing c hc)
  · intro c hc hlive
    have hx := h.live c hc hlive
    have hk := hchange c.id
    rw [hx] at hk
    show sessions.lookup c.id = some c.session
    generalize sessions.lookup c.id = new at hk
    cases hk with
    | same => rfl
    | swept hdead => exact absurd hlive (by rw [hdead]; nofun)
    | cancelled hfree => exact absurd (h.committing c hc) hfree
    | edited hfree => exact absurd (h.committing c hc) hfree
  · intro a ha
    obtain ⟨hlt, hclaims, hstatus⟩ := h.opening a (hopening a ha)
    refine ⟨hlt, hclaims, fun y hy => ?_⟩
    obtain ⟨x, hx, -, -, hcommitting, hlogin⟩ := hback a y hy
    obtain ⟨hauthorized, hfree⟩ := hstatus x hx
    constructor
    · intro hy'
      obtain hx' | hout := hlogin hy'
      · exact hauthorized hx'
      · exact hout (hopening a ha)
    · intro hy'
      rw [← hcommitting hy'] at hy'
      exact hfree hy'

/-- A new session has a new id and a name of its own. -/
theorem insert (hstatus : x.status = .awaitingCredentials)
    (hname : ∀ k y, m.sessions.lookup k = some y → y.name ≠ x.name) :
    Exclusive { m with
      nextId := m.nextId + 1
      sessions := m.sessions.insert m.nextId x
      opening := m.nextId :: m.opening } := by
  have hnew : ∀ c ∈ m.claims, c.id ≠ m.nextId := fun c hc => (h.freshClaims c hc).1.ne
  refine ⟨?_, ?_, ?_, h.numbers, h.committing, ?_, ?_, ?_⟩
  · intro a b y z hy hz hyz
    obtain ⟨ha, hy⟩ | ⟨ha, hy⟩ := AList.lookup_insert_cases hy
    · obtain ⟨hb, -⟩ | ⟨-, hz⟩ := AList.lookup_insert_cases hz
      · exact ha.trans hb.symm
      · exact absurd (hyz.symm.trans (congrArg _ hy)) (hname b z hz)
    · obtain ⟨-, hz⟩ | ⟨-, hz⟩ := AList.lookup_insert_cases hz
      · exact absurd (hyz.trans (congrArg _ hz)) (hname a y hy)
      · exact h.names a b y z hy hz hyz
  · intro a y hy
    obtain ⟨rfl, -⟩ | ⟨-, hy⟩ := AList.lookup_insert_cases hy
    · exact Nat.lt_succ_self _
    · exact Nat.lt_succ_of_lt (h.fresh a y hy)
  · intro c hc
    obtain ⟨hid, hnumber⟩ := h.freshClaims c hc
    exact ⟨Nat.lt_succ_of_lt hid, hnumber⟩
  · intro c hc y hy
    obtain ⟨hid, -⟩ | ⟨-, hy⟩ := AList.lookup_insert_cases hy
    · exact absurd hid (hnew c hc)
    · exact h.held c hc y hy
  · intro c hc hlive
    exact (AList.lookup_insert_ne (hnew c hc)).trans (h.live c hc hlive)
  · intro a ha
    obtain rfl | ha := List.mem_cons.mp ha
    · refine ⟨Nat.lt_succ_self _, hnew, fun y hy => ?_⟩
      obtain ⟨-, rfl⟩ | ⟨hne, -⟩ := AList.lookup_insert_cases hy
      · rw [hstatus]
        exact ⟨nofun, nofun⟩
      · exact absurd rfl hne
    · obtain ⟨hlt, hclaims, hstatuses⟩ := h.opening a ha
      refine ⟨Nat.lt_succ_of_lt hlt, hclaims, fun y hy => ?_⟩
      obtain ⟨rfl, -⟩ | ⟨-, hy⟩ := AList.lookup_insert_cases hy
      · exact absurd hlt (Nat.lt_irrefl _)
      · exact hstatuses y hy

theorem nextId : Exclusive { m with nextId := m.nextId + 1 } := by
  refine ⟨h.names, fun a x hx => Nat.lt_succ_of_lt (h.fresh a x hx), fun c hc => ?_, h.numbers,
    h.committing, h.held, h.live, fun a ha => ?_⟩
  · obtain ⟨hid, hnumber⟩ := h.freshClaims c hc
    exact ⟨Nat.lt_succ_of_lt hid, hnumber⟩
  · obtain ⟨hlt, hrest⟩ := h.opening a ha
    exact ⟨Nat.lt_succ_of_lt hlt, hrest⟩

theorem create (req : OAuthSetupRequest) : Exclusive (m.create req) := by
  have hkept : Exclusive { m with sessions := m.sessions.retain (OAuthSetupSession.live m.now) } :=
    h.change (fun _ ha => ha) fun k => SetupSessions.change_retain m.sessions k
  unfold SetupManager.create SetupSessions.createSession
  dsimp only
  split
  · exact hkept.nextId
  · next hfree =>
    refine hkept.insert rfl fun k y hy hyn => hfree ?_
    rw [List.any_eq_true]
    exact ⟨⟨k, y⟩, AList.mem_entries_iff.mpr hy, by simpa [OAuthSetupSession.ofRequest] using hyn⟩

/-- A claim takes a session that no claim holds. -/
theorem claimed (hx : m.sessions.lookup id = some x) (hauthorized : x.status = .authorized) :
    Exclusive { m with
      nextClaim := m.nextClaim + 1
      sessions := m.sessions.modify id fun s => { s with status := .committing, createdAt := m.now }
      claims := ⟨m.nextClaim, id, { x with status := .committing, createdAt := m.now }⟩ :: m.claims } := by
  have hfree : ∀ c ∈ m.claims, c.id ≠ id := by
    intro c hc hid
    obtain rfl := h.held c hc x (hid ▸ hx)
    rw [h.committing c hc] at hauthorized
    cases hauthorized
  have hself : (m.sessions.modify id fun s => { s with status := .committing, createdAt := m.now }).lookup id =
      some { x with status := .committing, createdAt := m.now } := by
    rw [AList.lookup_modify_self, hx]
    rfl
  have hother : ∀ k, k ≠ id → (m.sessions.modify id fun s =>
      { s with status := .committing, createdAt := m.now }).lookup k = m.sessions.lookup k :=
    fun k hk => AList.lookup_modify_ne hk _ _
  -- a session that is found has the name it had
  have hback : ∀ k y, (m.sessions.modify id fun s =>
      { s with status := .committing, createdAt := m.now }).lookup k = some y →
      ∃ z, m.sessions.lookup k = some z ∧ y.name = z.name := by
    intro k y hy
    by_cases hk : k = id
    · subst hk
      rw [hself] at hy
      cases hy
      exact ⟨x, hx, rfl⟩
    · rw [hother k hk] at hy
      exact ⟨y, hy, rfl⟩
  refine ⟨?_, ?_, ?_, ?_, ?_, ?_, ?_, ?_⟩
  · intro a b y z hy hz hyz
    obtain ⟨y', hy', hyn⟩ := hback a y hy
    obtain ⟨z', hz', hzn⟩ := hback b z hz
    exact h.names a b y' z' hy' hz' (hyn.symm.trans (hyz.trans hzn))
  · intro a y hy
    obtain ⟨y', hy', -⟩ := hback a y hy
    exact h.fresh a y' hy'
  · intro c hc
    obtain rfl | hc := List.mem_cons.mp hc
    · exact ⟨h.fresh id x hx, Nat.lt_succ_self _⟩
    · obtain ⟨hid, hnumber⟩ := h.freshClaims c hc
      exact ⟨hid, Nat.lt_succ_of_lt hnumber⟩
  · intro c hc d hd hcd
    have hnew : ∀ e ∈ m.claims, ¬ (m.nextClaim = e.number ∨ id = e.id) := by
      rintro e he (hnumber | hid)
      · exact (h.freshClaims e he).2.ne hnumber.symm
      · exact hfree e he hid.symm
    obtain rfl | hc := List.mem_cons.mp hc
    · obtain rfl | hd := List.mem_cons.mp hd
      · rfl
      · exact absurd hcd (hnew d hd)
    · obtain rfl | hd := List.mem_cons.mp hd
      · exact absurd (hcd.imp Eq.symm Eq.symm) (hnew c hc)
      · exact h.numbers c hc d hd hcd
  · intro c hc
    obtain rfl | hc := List.mem_cons.mp hc
    · rfl
    · exact h.committing c hc
  · intro c hc y hy
    obtain rfl | hc := List.mem_cons.mp hc
    · exact (Option.some.inj (hself.symm.trans hy)).symm
    · exact h.held c hc y ((hother c.id (hfree c hc)).symm.trans hy)
  · intro c hc hlive
    obtain rfl | hc := List.mem_cons.mp hc
    · exact hself
    · exact (hother c.id (hfree c hc)).trans (h.live c hc hlive)
  · intro a ha
    obtain ⟨hlt, hclaims, hstatus⟩ := h.opening a ha
    have hne : a ≠ id := by
      rintro rfl
      exact (hstatus x hx).1 hauthorized
    refine ⟨hlt, fun c hc => ?_, fun y hy => hstatus y ((hother a hne).symm.trans hy)⟩
    obtain rfl | hc := List.mem_cons.mp hc
    · exact hne.symm
    · exact hclaims c hc

theorem claim (id : Nat) : Exclusive (m.claim id) := by
  unfold SetupManager.claim
  obtain ⟨x, hx, hauthorized, heq⟩ | ⟨answer, kept, heq, hanswer, hchange⟩ :=
    SetupSessions.claimForCommit_cases m.sessions id m.now
  · rw [heq]
    have hclaimed := h.claimed hx hauthorized
    exact hclaimed
  · rw [heq]
    dsimp only
    split
    · next snapshot => exact absurd rfl (hanswer snapshot)
    · exact h.change (fun _ ha => ha) fun k => hchange _ k

/-- The end of a claim: the other sessions stay as they are, and the session keeps its name. -/
theorem endClaim (hc : m.claimNumbered number = some c)
    (hother : ∀ k, k ≠ c.id → sessions.lookup k = m.sessions.lookup k)
    (hname : ∀ y, sessions.lookup c.id = some y →
      ∃ x, m.sessions.lookup c.id = some x ∧ y.name = x.name) :
    Exclusive { m with sessions, claims := m.dropClaim number } := by
  have hcmem : c ∈ m.claims := List.mem_of_find?_eq_some hc
  have hcnumber : c.number = number := by simpa using List.find?_some hc
  -- the other claims are on other sessions
  have hrest : ∀ d ∈ m.dropClaim number, d ∈ m.claims ∧ d.id ≠ c.id := by
    intro d hd
    obtain ⟨hd, hne⟩ := List.mem_filter.mp hd
    refine ⟨hd, fun hid => ?_⟩
    obtain rfl := h.numbers d hd c hcmem (.inr hid)
    simp [hcnumber] at hne
  have hback : ∀ k y, sessions.lookup k = some y →
      ∃ x, m.sessions.lookup k = some x ∧ y.name = x.name := by
    intro k y hy
    by_cases hk : k = c.id
    · subst hk
      exact hname y hy
    · rw [hother k hk] at hy
      exact ⟨y, hy, rfl⟩
  refine ⟨?_, ?_, fun d hd => h.freshClaims d (hrest d hd).1,
    fun d hd e he => h.numbers d (hrest d hd).1 e (hrest e he).1,
    fun d hd => h.committing d (hrest d hd).1, ?_, ?_, ?_⟩
  · intro a b y z hy hz hyz
    obtain ⟨y', hy', hyn⟩ := hback a y hy
    obtain ⟨z', hz', hzn⟩ := hback b z hz
    exact h.names a b y' z' hy' hz' (hyn.symm.trans (hyz.trans hzn))
  · intro a y hy
    obtain ⟨y', hy', -⟩ := hback a y hy
    exact h.fresh a y' hy'
  · intro d hd y hy
    obtain ⟨hd, hne⟩ := hrest d hd
    exact h.held d hd y ((hother d.id hne).symm.trans hy)
  · intro d hd hlive
    obtain ⟨hd, hne⟩ := hrest d hd
    exact (hother d.id hne).trans (h.live d hd hlive)
  · intro a ha
    obtain ⟨hlt, hclaims, hstatus⟩ := h.opening a ha
    refine ⟨hlt, fun d hd => hclaims d (hrest d hd).1, fun y hy => hstatus y ?_⟩
    exact (hother a (hclaims c hcmem).symm).symm.trans hy

theorem release (hc : m.claimNumbered number = some c) :
    Exclusive { m with sessions := m.sessions.releaseCommitClaim c.id, claims := m.dropClaim number } := by
  refine h.endClaim hc (fun k hk => AList.lookup_modify_ne hk _ _) fun y hy => ?_
  rw [SetupSessions.releaseCommitClaim, AList.lookup_modify_self] at hy
  obtain ⟨x, hx, rfl⟩ := Option.map_eq_some_iff.mp hy
  refine ⟨x, hx, ?_⟩
  split
  · rfl
  · rfl

theorem finish (hc : m.claimNumbered number = some c) :
    Exclusive { m with sessions := m.sessions.erase c.id, claims := m.dropClaim number } := by
  refine h.endClaim hc (fun k hk => AList.lookup_erase_ne hk) fun y hy => ?_
  rw [AList.lookup_erase] at hy
  cases hy

end

end Exclusive

/-! ## Every step -/

/-- What `oauth_setup` and a submission of credentials do to a session. -/
theorem change_discovered {mayLogIn : Prop} (id k : Nat) (disc : DiscoveredServer) :
    SessionChange mayLogIn now (sessions.lookup k) ((sessions.getSessionMut id now
      ({ · with discovered := some disc })).2.lookup k) := by
  apply SetupSessions.change_getSessionMut
  · intro x
    rfl
  · intro x h
    exact h
  · intro x h
    exact h

theorem change_giveClient {mayLogIn : Prop} (id k : Nat) (client : RegisteredClient) (viaDcr : Bool) :
    SessionChange mayLogIn now (sessions.lookup k)
      ((sessions.getSessionMut id now (·.withClient client viaDcr)).2.lookup k) := by
  apply SetupSessions.change_getSessionMut
  · intro x
    rfl
  · intro x _ h
    cases h
  · intro x h
    cases h

theorem Exclusive.step {m m' : SetupManager} {a : SetupAction} (h : Exclusive m)
    (hstep : setupManager.step m a = some m') : Exclusive m' := by
  have hkeep : ∀ {a : Nat}, a ∈ m.opening → a ∈ m.opening := fun ha => ha
  cases a with
  | tick seconds =>
    cases hstep
    exact h.tick seconds
  | create req =>
    cases hstep
    exact h.create req
  | discard id =>
    obtain ⟨hid, heq⟩ : id ∈ m.opening ∧ _ = m' := by simpa [setupManager] using hstep
    subst heq
    refine h.change (fun _ => List.mem_of_mem_erase) fun k => SetupSessions.change_of_erase fun hk => ?_
    subst hk
    cases hx : m.sessions.lookup k with
    | none => exact .same none
    | some x => exact .cancelled ((h.opening k hid).2.2 x hx).2
  | discovered id disc =>
    obtain ⟨-, heq⟩ : id ∈ m.opening ∧ _ = m' := by simpa [setupManager] using hstep
    subst heq
    exact h.change (fun _ => List.mem_of_mem_erase) fun k => change_discovered id k disc
  | giveClient id client viaDcr =>
    cases hstep
    exact h.change (fun _ => hkeep) fun k => change_giveClient id k client viaDcr
  | authorize id tokens =>
    obtain ⟨hid, heq⟩ : id ∉ m.opening ∧ _ = m' := by simpa [setupManager] using hstep
    subst heq
    exact h.change (fun _ => hkeep) fun k =>
      SetupSessions.change_markAuthorized tokens fun hk => hk ▸ hid
  | claim id =>
    cases hstep
    exact h.claim id
  | release number =>
    obtain ⟨c, hc, rfl⟩ := Option.map_eq_some_iff.mp hstep
    exact h.release hc
  | finish number =>
    obtain ⟨c, hc, rfl⟩ := Option.map_eq_some_iff.mp hstep
    exact h.finish hc
  | cancel id =>
    cases hstep
    exact h.change (fun _ => hkeep) fun k => SetupSessions.change_cancelSession id k
  | cleanupStale =>
    cases hstep
    exact h.change (fun _ => hkeep) fun k => SetupSessions.change_retain m.sessions k

/-- The steps that end a claim. -/
def SetupAction.ends (c : SetupClaim) : SetupAction → Prop
  | .release number => number = c.number
  | .finish number => number = c.number
  | _ => False

/-- Only its release and the removal by the claimant end a claim, and time does not run back. -/
theorem claim_kept {m m' : SetupManager} {a : SetupAction} (hc : c ∈ m.claims)
    (hstep : setupManager.step m a = some m') (hends : ¬ a.ends c) :
    c ∈ m'.claims ∧ m.now ≤ m'.now := by
  have hdrop : ∀ {number : Nat}, number ≠ c.number → c ∈ m.dropClaim number := by
    intro number hne
    exact List.mem_filter.mpr ⟨hc, by simpa using hne.symm⟩
  cases a with
  | discard id =>
    obtain ⟨-, heq⟩ : id ∈ m.opening ∧ _ = m' := by simpa [setupManager] using hstep
    subst heq
    exact ⟨hc, le_rfl⟩
  | discovered id disc =>
    obtain ⟨-, heq⟩ : id ∈ m.opening ∧ _ = m' := by simpa [setupManager] using hstep
    subst heq
    exact ⟨hc, le_rfl⟩
  | authorize id tokens =>
    obtain ⟨-, heq⟩ : id ∉ m.opening ∧ _ = m' := by simpa [setupManager] using hstep
    subst heq
    exact ⟨hc, le_rfl⟩
  | claim id =>
    cases hstep
    simp only [SetupManager.claim]
    split
    · exact ⟨List.mem_cons_of_mem _ hc, le_rfl⟩
    · exact ⟨hc, le_rfl⟩
  | release number =>
    obtain ⟨d, -, rfl⟩ := Option.map_eq_some_iff.mp hstep
    exact ⟨hdrop hends, le_rfl⟩
  | finish number =>
    obtain ⟨d, -, rfl⟩ := Option.map_eq_some_iff.mp hstep
    exact ⟨hdrop hends, le_rfl⟩
  | tick seconds =>
    cases hstep
    exact ⟨hc, Nat.le_add_right _ _⟩
  | create req =>
    cases hstep
    exact ⟨hc, le_rfl⟩
  | giveClient id client viaDcr =>
    cases hstep
    exact ⟨hc, le_rfl⟩
  | cancel id =>
    cases hstep
    exact ⟨hc, le_rfl⟩
  | cleanupStale =>
    cases hstep
    exact ⟨hc, le_rfl⟩

theorem exclusive_of_reachable {m : SetupManager} (h : setupManager.Reachable m) : Exclusive m :=
  System.ReachableWhile.invariant (fun _ => Exclusive.init) (fun _ _ _ hm _ => hm.step) h

/-- **Setup sessions are exclusive.** Their names differ, a session has at most one claim, and while
the lease of a claim lasts no step but its release or the removal by its claimant ends the claim or
changes anything about the session. -/
theorem setup_sessions_exclusive {m : SetupManager} (h : setupManager.Reachable m) :
    (∀ a b x y, m.sessions.lookup a = some x → m.sessions.lookup b = some y → x.name = y.name →
      a = b) ∧
    (∀ c ∈ m.claims, ∀ d ∈ m.claims, c.id = d.id → c = d) ∧
    (∀ c ∈ m.claims, c.session.live m.now = true → m.sessions.lookup c.id = some c.session) ∧
    ∀ a m', setupManager.step m a = some m' → ∀ c ∈ m.claims, c.session.live m'.now = true →
      ¬ a.ends c → c ∈ m'.claims ∧ m'.sessions.lookup c.id = m.sessions.lookup c.id := by
  have hm := exclusive_of_reachable h
  refine ⟨hm.names, fun c hc d hd hcd => hm.numbers c hc d hd (.inr hcd), hm.live, ?_⟩
  intro a m' hstep c hc hlive hends
  obtain ⟨hc', hnow⟩ := claim_kept hc hstep hends
  have hbefore : c.session.live m.now = true := by
    simp only [OAuthSetupSession.live, decide_eq_true_eq] at hlive ⊢
    omega
  exact ⟨hc', ((hm.step hstep).live c hc' hlive).trans (hm.live c hc hbefore).symm⟩

def loginServer : DiscoveredServer :=
  ⟨"https://login.example/authorize", "https://login.example/token", none, "https://login.example",
    "https://login.example", false⟩

/-- The session of `mail`, claimed five minutes after it was authorized. -/
def claimedMail : OAuthSetupSession :=
  { OAuthSetupSession.ofRequest { name := "mail", url := "https://mail.example" } 0 with
    discovered := some loginServer
    clientId := some "client"
    tokens := some ⟨⟨"token", none, none⟩, "client"⟩
    status := .committing
    createdAt := 300 }

def claimedManager : SetupManager where
  now := 300
  nextId := 1
  nextClaim := 1
  sessions := (∅ : SetupSessions).insert 0 claimedMail
  opening := []
  claims := [⟨0, 0, claimedMail⟩]

theorem claimedManager_reachable : setupManager.Reachable claimedManager := by
  have hstart : setupManager.Reachable ⟨0, 0, 0, ∅, [], []⟩ := .init ⟨rfl, rfl, rfl⟩
  have hrun : setupManager.run ⟨0, 0, 0, ∅, [], []⟩
      [.create { name := "mail", url := "https://mail.example" }, .discovered 0 loginServer,
        .giveClient 0 ⟨"client", none, 0⟩ false, .authorize 0 ⟨⟨"token", none, none⟩, "client"⟩,
        .tick 300, .claim 0] = some claimedManager := rfl
  exact hstart.run hrun

/-- A cancel does not remove the session under its claim. -/
theorem setup_claim_survives_cancel :
    (claimedManager.sessions.cancelSession 0 300).lookup 0 = some claimedMail := by
  obtain ⟨-, -, hlive, hstep⟩ := setup_sessions_exclusive claimedManager_reachable
  have hc : (⟨0, 0, claimedMail⟩ : SetupClaim) ∈ claimedManager.claims := List.mem_cons_self
  obtain ⟨-, hsame⟩ := hstep (.cancel 0) _ rfl _ hc (by decide) (fun h => h)
  exact hsame.trans (hlive _ hc (by decide))

end EndaraRelay

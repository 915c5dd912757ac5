/-
  THE TOKEN CACHE, over every response (Vorsight.Service/Storage/GoogleDriveService.cs).

  1. **A call** (`getAccessTokenAsync`) ends with the cached token, with a fetched one, or it
     throws; with the server's endpoint behind it, this is `AccessToken.getAccessTokenAsync`
     (`accessToken_eq`).

  2. **Time zones.**  The expiry comes as an ISO text in UTC, `DateTime.Parse` makes it local time,
     and what it is compared with is UTC again.  `valid_iff`: a run of calls returns each cached
     token in time exactly when none is made `Late`, in the hours that the local clock is ahead.

  3. **Failures.**  The token is stored before its expiry is parsed.  `failure_iff`: a call that
     throws leaves the cache as it was unless it is `Torn`, and every state of a run is usable
     exactly when no call stores a token without an expiry that the next one can subtract five
     minutes from.
-/
import Vorsight.Library.Run
import Vorsight.Service.AccessToken

namespace Service.TokenCache

open Server.Registration (isNullOrEmpty)
open Service.AccessToken (Cache Config LocalTime Moment World)
open Time (DateTime)

/-- `DateTime.Parse`; `none` is an exception. -/
class DateTimeParser where
  parse : String → Option DateTime

/-- What `ReadFromJsonAsync` makes of a body. -/
inductive Body
  | invalid
  | null
  | credentials (accessToken expiresAt : Option String)
deriving DecidableEq, Repr

/-- How `SendAsync` ends. -/
inductive Response
  | failed
  | received (statusCode : Nat) (body : Body)
deriving DecidableEq, Repr

inductive Outcome
  | cached (accessToken : String)
  | fetched (accessToken : Option String)
  | thrown
deriving DecidableEq, Repr

section Model

variable [DateTimeParser]

/-- `_cachedAccessToken = ...; _tokenExpiresAt = DateTime.Parse(...);` -/
def store (c : Cache) (accessToken expiresAt : Option String) : Cache × Outcome :=
  let c := { c with cachedAccessToken := accessToken }
  match expiresAt.bind DateTimeParser.parse with
  | none => (c, .thrown)
  | some tokenExpiresAt => ({ c with tokenExpiresAt }, .fetched accessToken)

/-- The request, `EnsureSuccessStatusCode` and the rest. -/
def fetch (config : Config) (response : Response) (c : Cache) : Cache × Outcome :=
  if isNullOrEmpty config.serverUrl then (c, .thrown)
  else if isNullOrEmpty config.apiKey then (c, .thrown)
  else
    match response with
    | .failed => (c, .thrown)
    | .received statusCode body =>
      if 200 ≤ statusCode ∧ statusCode ≤ 299 then
        match body with
        | .invalid | .null => (c, .thrown)
        | .credentials accessToken expiresAt => store c accessToken expiresAt
      else (c, .thrown)

def getAccessTokenAsync (config : Config) (utcNow : DateTime) (response : Response) (c : Cache) :
    Cache × Outcome :=
  match c.cachedAccessToken with
  | none => fetch config response c
  | some token =>
    match c.tokenExpiresAt.addMinutes (-5) with
    | none => (c, .thrown)
    | some limit =>
      if utcNow.ticks < limit.ticks then (c, .cached token) else fetch config response c

inductive Call
  | getAccessToken (config : Config) (utcNow : DateTime) (response : Response)
  | invalidateToken

/-- The cache after a call. -/
def Call.cache (c : Cache) : Call → Cache
  | .getAccessToken config utcNow response => (getAccessTokenAsync config utcNow response c).1
  | .invalidateToken => {}

end Model

section Cases

variable {config : Config} {utcNow : DateTime} {response : Response} {c : Cache}
  {accessToken expiresAt : Option String} {token : String}

/-- The credentials of a response that is taken. -/
def Response.credentials : Response → Option (Option String × Option String)
  | .received statusCode (.credentials accessToken expiresAt) =>
    if 200 ≤ statusCode ∧ statusCode ≤ 299 then some (accessToken, expiresAt) else none
  | _ => none

def Configured (config : Config) : Prop :=
  isNullOrEmpty config.serverUrl = false ∧ isNullOrEmpty config.apiKey = false
deriving Decidable

def fiveMinutes : Int := 5 * 60 * Time.ticksPerSecond

/-- There is a token, and nothing five minutes before its expiry. -/
def Stuck (c : Cache) : Prop :=
  c.cachedAccessToken ≠ none ∧ c.tokenExpiresAt.addMinutes (-5) = none
deriving Decidable

theorem addMinutes_eq_none {d : DateTime} :
    d.addMinutes (-5) = none ↔ (d.ticks : Int) < fiveMinutes := by
  have hmax := d.inRange
  unfold DateTime.addMinutes fiveMinutes Time.ticksPerSecond
  split
  · rename_i h
    refine iff_of_false (fun hnone => by cases hnone) ?_
    omega
  · rename_i h
    refine iff_of_true rfl ?_
    unfold Time.maxTicks at hmax h
    omega

theorem stuck_iff : Stuck c ↔
    c.cachedAccessToken ≠ none ∧ (c.tokenExpiresAt.ticks : Int) < fiveMinutes := by
  rw [Stuck, addMinutes_eq_none]

variable [DateTimeParser]

theorem getAccessToken_of_fresh (h : c.fresh utcNow = some token) :
    getAccessTokenAsync config utcNow response c = (c, .cached token) := by
  unfold AccessToken.Cache.fresh at h
  unfold getAccessTokenAsync
  cases htoken : c.cachedAccessToken with
  | none => simp [htoken] at h
  | some cached =>
    cases hlimit : c.tokenExpiresAt.addMinutes (-5) with
    | none => simp [htoken, hlimit] at h
    | some limit =>
      simp only [htoken, hlimit] at h ⊢
      split at h
      · rename_i hlt
        rw [if_pos hlt, Option.some.inj h]
      · cases h

theorem getAccessToken_of_stuck (h : Stuck c) :
    getAccessTokenAsync config utcNow response c = (c, .thrown) := by
  obtain ⟨token, htoken⟩ := Option.ne_none_iff_exists'.mp h.1
  unfold getAccessTokenAsync
  simp only [htoken, h.2]

/-- In every other state the server is asked. -/
theorem getAccessToken_of_asking (hfresh : c.fresh utcNow = none) (hstuck : ¬ Stuck c) :
    getAccessTokenAsync config utcNow response c = fetch config response c := by
  unfold AccessToken.Cache.fresh at hfresh
  unfold Stuck at hstuck
  unfold getAccessTokenAsync
  cases htoken : c.cachedAccessToken with
  | none => rfl
  | some cached =>
    cases hlimit : c.tokenExpiresAt.addMinutes (-5) with
    | none => exact absurd ⟨by simp [htoken], hlimit⟩ hstuck
    | some limit =>
      simp only [htoken, hlimit] at hfresh ⊢
      split at hfresh
      · cases hfresh
      · rename_i hlt
        rw [if_neg hlt]

theorem fetch_of_credentials (hconfig : Configured config)
    (h : response.credentials = some (accessToken, expiresAt)) :
    fetch config response c = store c accessToken expiresAt := by
  unfold Response.credentials at h
  split at h
  · split at h
    · rename_i hsuccess
      cases h
      simp only [fetch, hconfig.1, hconfig.2, Bool.false_eq_true, if_false, if_pos hsuccess]
    · cases h
  · cases h

/-- Everything else that goes wrong does so before the cache is touched. -/
theorem fetch_of_not (h : ¬ (Configured config ∧ response.credentials ≠ none)) :
    fetch config response c = (c, .thrown) := by
  unfold fetch
  split
  · rfl
  · rename_i hurl
    split
    · rfl
    · rename_i hkey
      have hnone : response.credentials = none := by
        by_contra hsome
        exact h ⟨⟨Bool.eq_false_iff.mpr hurl, Bool.eq_false_iff.mpr hkey⟩, hsome⟩
      rcases response with _ | ⟨statusCode, _ | _ | ⟨accessToken, expiresAt⟩⟩
      · rfl
      · exact ite_self _
      · exact ite_self _
      · refine if_neg fun hsuccess => ?_
        simp [Response.credentials, hsuccess] at hnone

/-- **What a call does**: it returns the cached token, or throws, or stores credentials. -/
theorem getAccessToken_cases (config : Config) (utcNow : DateTime) (response : Response)
    (c : Cache) :
    (∃ token, c.fresh utcNow = some token ∧
      getAccessTokenAsync config utcNow response c = (c, .cached token)) ∨
    getAccessTokenAsync config utcNow response c = (c, .thrown) ∨
    (c.fresh utcNow = none ∧ ¬ Stuck c ∧ Configured config ∧ ∃ accessToken expiresAt,
      response.credentials = some (accessToken, expiresAt) ∧
      getAccessTokenAsync config utcNow response c = store c accessToken expiresAt) := by
  cases hfresh : c.fresh utcNow with
  | some token => exact .inl ⟨token, rfl, getAccessToken_of_fresh hfresh⟩
  | none =>
    refine .inr ?_
    by_cases hstuck : Stuck c
    · exact .inl (getAccessToken_of_stuck hstuck)
    · rw [getAccessToken_of_asking hfresh hstuck]
      by_cases hanswer : Configured config ∧ response.credentials ≠ none
      · obtain ⟨hconfig, hsome⟩ := hanswer
        obtain ⟨⟨accessToken, expiresAt⟩, hcredentials⟩ := Option.ne_none_iff_exists'.mp hsome
        exact .inr ⟨rfl, hstuck, hconfig, accessToken, expiresAt, hcredentials,
          fetch_of_credentials hconfig hcredentials⟩
      · exact .inl (fetch_of_not hanswer)

end Cases

/-! ## The server's endpoint behind it -/

section Endpoint

variable [LocalTime] {config : Config} {m : Moment} {w : World}

/-- What the endpoint makes of a request. -/
def reply (m : Moment) (w : World) : Response :=
  match (AccessToken.credentials (m.server w) m.tokens).2 with
  | .ended (.credentials accessToken expiresAt _) =>
    .received 200 (.credentials accessToken expiresAt)
  | _ => .received 500 .invalid

/-- A parser that takes every text. -/
@[reducible] def everyText : DateTimeParser := ⟨fun text => some (LocalTime.parse text)⟩

/-- How a call ends, where its token is one. -/
def Outcome.IsResult : Outcome → Except AccessToken.Exception String → Prop
  | .cached token, result => result = .ok token
  | .fetched token, result => ∃ text, token = some text ∧ result = .ok text
  | .thrown, result => result = .error .other

theorem fetch_reply : (AccessToken.fetch config m w).1.cache =
      (@fetch everyText config (reply m w) w.cache).1 ∧
    (@fetch everyText config (reply m w) w.cache).2.IsResult (AccessToken.fetch config m w).2 := by
  unfold AccessToken.fetch fetch reply
  split
  · exact ⟨rfl, rfl⟩
  · split
    · exact ⟨rfl, rfl⟩
    · rcases AccessToken.credentials (m.server w) m.tokens with ⟨server, phase⟩
      cases phase with
      | ended answer =>
        cases answer with
        | credentials accessToken expiresAt scope => exact ⟨rfl, ⟨accessToken, rfl, rfl⟩⟩
        | _ => exact ⟨rfl, rfl⟩
      | _ => exact ⟨rfl, rfl⟩

/-- **With the endpoint behind it** the call is the one that the uploads make. -/
theorem accessToken_eq : (AccessToken.getAccessTokenAsync config m w).1.cache =
      (@getAccessTokenAsync everyText config m.utcNow (reply m w) w.cache).1 ∧
    (@getAccessTokenAsync everyText config m.utcNow (reply m w) w.cache).2.IsResult
      (AccessToken.getAccessTokenAsync config m w).2 := by
  unfold AccessToken.getAccessTokenAsync getAccessTokenAsync
  cases w.cache.cachedAccessToken with
  | none => exact fetch_reply
  | some token =>
    cases w.cache.tokenExpiresAt.addMinutes (-5) with
    | none => exact ⟨rfl, rfl⟩
    | some limit =>
      dsimp only
      split
      · exact ⟨rfl, rfl⟩
      · exact fetch_reply

end Endpoint

/-! ## Time zones -/

section Zones

/-- The ticks of an instant in milliseconds, as UTC. -/
def utcTicks (ms : Int) : Int := (ms + 62135596800000) * 10000

/-- What the server sends (oauth.ts): the token with the ISO text of its expiry, or an error. -/
inductive Answer
  | credentials (accessToken : String) (expiresAt : Server.DateTime)
  | error (statusCode : Nat)
  | lost

def Answer.response : Answer → Response
  | .credentials accessToken expiresAt =>
    .received 200 (.credentials accessToken (Time.toISOString expiresAt))
  | .error statusCode => .received statusCode .invalid
  | .lost => .failed

inductive Event
  | get (config : Config) (utcNow : DateTime) (answer : Answer)
  | invalidate

/-- The cache, and beside it the token that was fetched last and not invalidated since, with the
    instant of its expiry. -/
structure State where
  cache : Cache := {}
  fetched : Option (String × Server.DateTime) := none

variable [DateTimeParser]

def step (s : State) : Event → Option State
  | .get config utcNow answer =>
    let (cache, outcome) := getAccessTokenAsync config utcNow answer.response s.cache
    some { cache, fetched :=
      match outcome, answer with
      | .fetched _, .credentials accessToken expiresAt => some (accessToken, expiresAt)
      | _, _ => s.fetched }
  | .invalidate => some {}

/-- A token that is returned from the cache was fetched last, has not been invalidated since, and
    has more than five minutes left. -/
def Valid (s : State) : Event → Prop
  | .get config utcNow answer => ∀ token,
    (getAccessTokenAsync config utcNow answer.response s.cache).2 = .cached token →
      ∃ expiresAt, s.fetched = some (token, expiresAt) ∧
        (utcNow.ticks : Int) < utcTicks expiresAt - fiveMinutes
  | .invalidate => True

omit [DateTimeParser] in
/-- The call comes within five minutes of the expiry, but not by the local clock. -/
def Late (offset : Server.DateTime → Int) (s : State) : Event → Prop
  | .get _ utcNow _ =>
    match s.fetched with
    | some (_, expiresAt) => utcTicks expiresAt - fiveMinutes ≤ utcNow.ticks ∧
        utcNow.ticks < utcTicks expiresAt + offset expiresAt - fiveMinutes
    | none => False
  | .invalidate => False

/-- Of .NET: `DateTime.Parse` makes the text of an instant in UTC the local time, which is ahead of
    it by the zone's offset. -/
def Local (offset : Server.DateTime → Int) : Event → Prop
  | .get _ _ (.credentials _ expiresAt) =>
    ∃ d, DateTimeParser.parse (Time.toISOString expiresAt) = some d ∧
      (d.ticks : Int) = utcTicks expiresAt + offset expiresAt
  | _ => True

omit [DateTimeParser] in
/-- The cache holds the token that was fetched last, and its expiry as local time. -/
def Kept (offset : Server.DateTime → Int) (s : State) : Prop :=
  match s.fetched with
  | some (token, expiresAt) => s.cache.cachedAccessToken = some token ∧
      (s.cache.tokenExpiresAt.ticks : Int) = utcTicks expiresAt + offset expiresAt
  | none => s.cache.cachedAccessToken = none

variable {offset : Server.DateTime → Int} {s s' : State} {event : Event}

omit [DateTimeParser] in
/-- What is served from the cache, and when. -/
theorem fresh_iff {c : Cache} {utcNow : DateTime} {token : String} :
    c.fresh utcNow = some token ↔ c.cachedAccessToken = some token ∧
      (utcNow.ticks : Int) < c.tokenExpiresAt.ticks - fiveMinutes := by
  unfold AccessToken.Cache.fresh
  cases hlimit : c.tokenExpiresAt.addMinutes (-5) with
  | none =>
    have hsmall := addMinutes_eq_none.mp hlimit
    refine iff_of_false (fun h => by cases hc : c.cachedAccessToken <;> simp [hc] at h) ?_
    omega
  | some limit =>
    have hticks := DateTime.addMinutes_eq_some.mp hlimit
    have hlt : utcNow.ticks < limit.ticks ↔
        (utcNow.ticks : Int) < c.tokenExpiresAt.ticks - fiveMinutes := by
      unfold fiveMinutes
      omega
    cases c.cachedAccessToken with
    | none => simp
    | some cached =>
      simp only [Option.some_inj, ← hlt]
      by_cases h : utcNow.ticks < limit.ticks
      · simp [h]
      · simp [h]

theorem kept_step (hkept : Kept offset s) (hlocal : Local offset event)
    (hstep : step s event = some s') : Kept offset s' := by
  cases event with
  | invalidate =>
    cases hstep
    rfl
  | get config utcNow answer =>
    rcases getAccessToken_cases config utcNow answer.response s.cache with
      ⟨token, -, hcall⟩ | hcall | ⟨-, -, -, accessToken, expiresAt, hcredentials, hcall⟩
    · rw [step, hcall] at hstep
      cases hstep
      exact hkept
    · rw [step, hcall] at hstep
      cases hstep
      exact hkept
    · cases answer with
      | credentials token expiry =>
        cases hcredentials
        obtain ⟨d, hparse, hticks⟩ := hlocal
        rw [step, hcall, store, Option.bind_some, hparse] at hstep
        cases hstep
        exact ⟨rfl, hticks⟩
      | error statusCode => cases hcredentials
      | lost => cases hcredentials

/-- A call returns the cached token when it is fresh, and not otherwise. -/
theorem cached_iff {config : Config} {utcNow : DateTime} {response : Response} {c : Cache}
    {token : String} : (getAccessTokenAsync config utcNow response c).2 = .cached token ↔
      c.fresh utcNow = some token := by
  constructor
  · intro h
    rcases getAccessToken_cases config utcNow response c with ⟨cached, hfresh, hcall⟩ | hcall |
      ⟨-, -, -, accessToken, expiresAt, -, hcall⟩
    · rw [hcall] at h
      cases h
      exact hfresh
    · rw [hcall] at h
      cases h
    · rw [hcall, store] at h
      split at h <;> cases h
  · intro h
    rw [getAccessToken_of_fresh h]

/-- One call returns the cached token in time exactly when it is not late. -/
theorem valid_step_iff (hkept : Kept offset s) : Valid s event ↔ ¬ Late offset s event := by
  cases event with
  | invalidate => exact iff_of_true trivial not_false
  | get config utcNow answer =>
    unfold Kept at hkept
    simp only [Valid, cached_iff, fresh_iff, Late]
    cases hfetched : s.fetched with
    | none =>
      rw [hfetched] at hkept
      exact iff_of_true (fun token h => by simp [hkept] at h) not_false
    | some fetched =>
      obtain ⟨token, expiresAt⟩ := fetched
      rw [hfetched] at hkept
      obtain ⟨htoken, hticks⟩ := hkept
      dsimp only
      rw [hticks]
      constructor
      · rintro h ⟨hexpiring, hlate⟩
        obtain ⟨_, hsame, hearly⟩ := h token ⟨htoken, hlate⟩
        cases hsame
        omega
      · rintro hnot cached ⟨hcached, hearly⟩
        rw [htoken] at hcached
        cases hcached
        refine ⟨expiresAt, rfl, ?_⟩
        by_contra hexpiring
        exact hnot ⟨not_lt.mp hexpiring, hearly⟩

/-- **The cache in a time zone**: in a run of calls and invalidations each cached token that is
    returned has more than five minutes left and has not been invalidated since it was fetched,
    exactly when no call is late. -/
theorem valid_iff {events : List Event} (hlocal : ∀ event ∈ events, Local offset event) :
    Runs.EachStep step (fun s event _ => Valid s event) {} events ↔
      Runs.EachStep step (fun s event _ => ¬ Late offset s event) {} events := by
  have hstart : Kept offset {} := rfl
  exact Runs.eachStep_iff_of (H := fun _ event => Local offset event)
    (G := fun s event => ¬ Late offset s event)
    (fun s event s' hkept hlocal _ hstep => kept_step hkept hlocal hstep)
    (fun s event s' hkept _ _ => valid_step_iff hkept) hstart (Runs.eachStep_of_labels hlocal)

omit [DateTimeParser] in
/-- West of Greenwich and on it no call is late. -/
theorem not_late_of_nonpos (h : ∀ expiresAt, offset expiresAt ≤ 0) : ¬ Late offset s event := by
  cases event with
  | invalidate => exact not_false
  | get config utcNow answer =>
    unfold Late
    cases s.fetched with
    | none => exact not_false
    | some fetched =>
      have hoffset := h fetched.2
      dsimp only
      omega

end Zones

/-- Two hours east; an expiry at 02:00 UTC. -/
@[reducible] def east : DateTimeParser :=
  ⟨fun text =>
    if text = Time.toISOString 7200000 then some ⟨621356112000000000, by decide⟩ else none⟩

/-- A call at 01:00 UTC, which fetches the token, and another one. -/
def twoCalls (utcNow : DateTime) : List Event :=
  [.get AccessToken.registered ⟨621356004000000000, by decide⟩ (.credentials "access-1" 7200000),
    .get AccessToken.registered utcNow .lost]

theorem local_twoCalls (utcNow : DateTime) :
    ∀ event ∈ twoCalls utcNow, @Local east (fun _ => 72000000000) event := by
  intro event hevent
  rcases List.mem_cons.mp hevent with rfl | hevent
  · exact ⟨⟨621356112000000000, by decide⟩, if_pos rfl, by decide⟩
  · rw [List.mem_singleton.mp hevent]
    exact trivial

/-- The other one at 01:30. -/
theorem valid_halfAnHour : Runs.EachStep (@step east) (fun s event _ => @Valid east s event) {}
    (twoCalls ⟨621356022000000000, by decide⟩) := by
  refine (@valid_iff east (fun _ => 72000000000) _ (local_twoCalls _)).mpr ?_
  intro s hs
  cases hs
  refine ⟨not_false, fun s hs => ?_⟩
  cases hs
  exact ⟨by rintro ⟨hexpiring, -⟩; exact absurd hexpiring (by decide), trivial⟩

/-- The other one at 03:00, an hour after the expiry. -/
theorem not_valid_hourLate : ¬ ∀ (parser : DateTimeParser) (offset : Server.DateTime → Int)
    (events : List Event), (∀ event ∈ events, @Local parser offset event) →
      Runs.EachStep (@step parser) (fun s event _ => @Valid parser s event) {} events := by
  intro h
  have hrun := h east _ _ (local_twoCalls ⟨621356076000000000, by decide⟩)
  obtain ⟨-, hrest⟩ := hrun _ rfl
  obtain ⟨hvalid, -⟩ := hrest _ rfl
  obtain ⟨expiresAt, hfetched, hearly⟩ := hvalid "access-1" rfl
  cases hfetched
  exact absurd hearly (by decide)

/-! ## Failures -/

section Failures

variable [DateTimeParser]

/-- A call that throws leaves the cache as it was. -/
def Unharmed (config : Config) (utcNow : DateTime) (response : Response) (c : Cache) : Prop :=
  (getAccessTokenAsync config utcNow response c).2 = .thrown →
    (getAccessTokenAsync config utcNow response c).1 = c

/-- The server is asked, and its response has another token than the cached one, with an expiry that
    does not parse. -/
def Torn (config : Config) (utcNow : DateTime) (response : Response) (c : Cache) : Prop :=
  c.fresh utcNow = none ∧ ¬ Stuck c ∧ Configured config ∧ ∃ accessToken expiresAt,
    response.credentials = some (accessToken, expiresAt) ∧
    expiresAt.bind DateTimeParser.parse = none ∧ accessToken ≠ c.cachedAccessToken

/-- Whatever well-formed response comes, and at whatever time, the call ends with a token. -/
def Usable (c : Cache) : Prop :=
  ∀ (config : Config) (utcNow : DateTime) (statusCode : Nat) (token text : String),
    Configured config → 200 ≤ statusCode ∧ statusCode ≤ 299 →
    DateTimeParser.parse text ≠ none →
    (getAccessTokenAsync config utcNow (.received statusCode (.credentials token text)) c).2 ≠
      .thrown

/-- The server is asked, and its response has a token, but the expiry that the cache has then (the
    old one, if the new one does not parse) is in the calendar's first five minutes. -/
def Spoils (c : Cache) : Call → Prop
  | .getAccessToken config utcNow response =>
    c.fresh utcNow = none ∧ Configured config ∧ ∃ token expiresAt,
      response.credentials = some (some token, expiresAt) ∧
      (((expiresAt.bind DateTimeParser.parse).getD c.tokenExpiresAt).ticks : Int) < fiveMinutes
  | .invalidateToken => False

/-- One call after another. -/
def next (c : Cache) (call : Call) : Option Cache := some (call.cache c)

variable {config : Config} {utcNow : DateTime} {response : Response} {c c' : Cache} {call : Call}

theorem store_thrown {accessToken expiresAt : Option String} :
    (store c accessToken expiresAt).2 = .thrown ↔ expiresAt.bind DateTimeParser.parse = none := by
  unfold store
  cases expiresAt.bind DateTimeParser.parse <;> simp

theorem store_cache (accessToken expiresAt : Option String) :
    (store c accessToken expiresAt).1 =
      { cachedAccessToken := accessToken,
        tokenExpiresAt := (expiresAt.bind DateTimeParser.parse).getD c.tokenExpiresAt } := by
  unfold store
  cases expiresAt.bind DateTimeParser.parse <;> rfl

/-- Credentials that the server is asked for. -/
theorem getAccessToken_eq_store {accessToken expiresAt : Option String}
    (hfresh : c.fresh utcNow = none) (hstuck : ¬ Stuck c) (hconfig : Configured config)
    (hcredentials : response.credentials = some (accessToken, expiresAt)) :
    getAccessTokenAsync config utcNow response c = store c accessToken expiresAt := by
  rw [getAccessToken_of_asking hfresh hstuck, fetch_of_credentials hconfig hcredentials]

theorem unharmed_iff : Unharmed config utcNow response c ↔ ¬ Torn config utcNow response c := by
  constructor
  · rintro hunharmed ⟨hfresh, hstuck, hconfig, accessToken, expiresAt, hcredentials, hparse, hne⟩
    unfold Unharmed at hunharmed
    rw [getAccessToken_eq_store hfresh hstuck hconfig hcredentials, store_cache] at hunharmed
    have hsame := hunharmed (store_thrown.mpr hparse)
    exact hne (congrArg Cache.cachedAccessToken hsame)
  · intro htorn hthrown
    rcases getAccessToken_cases config utcNow response c with ⟨token, -, hcall⟩ | hcall |
      ⟨hfresh, hstuck, hconfig, accessToken, expiresAt, hcredentials, hcall⟩
    · rw [hcall]
    · rw [hcall]
    · rw [hcall] at hthrown ⊢
      have hparse := store_thrown.mp hthrown
      have hsame : accessToken = c.cachedAccessToken := by
        by_contra hne
        exact htorn ⟨hfresh, hstuck, hconfig, accessToken, expiresAt, hcredentials, hparse, hne⟩
      rw [store_cache, hparse, hsame, Option.getD_none]

/-- A cache is usable unless it is stuck: then no response is even asked for. -/
theorem usable_iff (hparser : ∃ text, DateTimeParser.parse text ≠ none) :
    Usable c ↔ ¬ Stuck c := by
  constructor
  · intro husable hstuck
    obtain ⟨text, hparse⟩ := hparser
    refine husable AccessToken.registered .minValue 200 "" text (by decide) (by decide) hparse ?_
    rw [getAccessToken_of_stuck hstuck]
  · intro hstuck config utcNow statusCode token text hconfig hstatus hparse
    cases hfresh : c.fresh utcNow with
    | some cached =>
      rw [getAccessToken_of_fresh hfresh]
      exact Outcome.noConfusion
    | none =>
      have hcredentials : (Response.received statusCode (.credentials token text)).credentials =
          some (some token, some text) := if_pos hstatus
      rw [getAccessToken_eq_store hfresh hstuck hconfig hcredentials]
      exact fun hthrown => hparse (store_thrown.mp hthrown)

/-- One call leaves a usable cache exactly when it does not spoil it. -/
theorem stuck_step_iff (hstuck : ¬ Stuck c) : Stuck (call.cache c) ↔ Spoils c call := by
  cases call with
  | invalidateToken => exact iff_of_false (fun h => h.1 rfl) not_false
  | getAccessToken config utcNow response =>
    show Stuck (getAccessTokenAsync config utcNow response c).1 ↔ _
    constructor
    · intro hnext
      rcases getAccessToken_cases config utcNow response c with ⟨token, -, hcall⟩ | hcall |
        ⟨hfresh, -, hconfig, accessToken, expiresAt, hcredentials, hcall⟩
      · rw [hcall] at hnext
        exact absurd hnext hstuck
      · rw [hcall] at hnext
        exact absurd hnext hstuck
      · rw [hcall, store_cache, stuck_iff] at hnext
        obtain ⟨htoken, hexpiry⟩ := hnext
        obtain ⟨token, rfl⟩ := Option.ne_none_iff_exists'.mp htoken
        exact ⟨hfresh, hconfig, token, expiresAt, hcredentials, hexpiry⟩
    · rintro ⟨hfresh, hconfig, token, expiresAt, hcredentials, hexpiry⟩
      rw [getAccessToken_eq_store hfresh hstuck hconfig hcredentials, store_cache, stuck_iff]
      exact ⟨Option.some_ne_none token, hexpiry⟩

/-- **Failed fetches**: a call that throws leaves the cache as it was exactly when it is not torn
    between a new token and the old expiry; and throughout a run the cache is usable exactly when no
    call spoils it. -/
theorem failure_iff (hparser : ∃ text, DateTimeParser.parse text ≠ none) :
    (∀ config utcNow response c,
      Unharmed config utcNow response c ↔ ¬ Torn config utcNow response c) ∧
    ∀ calls, Runs.EachState next Usable {} calls ↔
      Runs.EachStep next (fun c call _ => ¬ Spoils c call) {} calls := by
  refine ⟨fun _ _ _ _ => unharmed_iff, fun calls => ?_⟩
  have hstart : ¬ Stuck {} := fun h => h.1 rfl
  refine Runs.eachState_iff (I := fun c => ¬ Stuck c) ?_ ?_ ?_ hstart
  · rintro c call c' hstuck hspoils ⟨⟩
    exact fun h => hspoils ((stuck_step_iff hstuck).mp h)
  · exact fun c hstuck => (usable_iff hparser).mpr hstuck
  · rintro c call c' hstuck hspoils ⟨⟩ husable
    exact (usable_iff hparser).mp husable ((stuck_step_iff hstuck).mpr (not_not.mp hspoils))

end Failures

/-- The expiry of the first call parses, and the second one gets no response. -/
def goodAndLost : List Call :=
  [.getAccessToken AccessToken.registered .minValue
      (.received 200 (.credentials "access-1" (Time.toISOString 7200000))),
    .getAccessToken AccessToken.registered ⟨621356112000000000, by decide⟩ .failed]

theorem usable_goodAndLost : @Unharmed east AccessToken.registered .minValue .failed {} ∧
    Runs.EachState (@next east) (@Usable east) {} goodAndLost := by
  obtain ⟨hunharmed, husable⟩ := @failure_iff east ⟨Time.toISOString 7200000, by decide⟩
  refine ⟨(hunharmed _ _ _ _).mpr ?_, (husable _).mpr ?_⟩
  · rintro ⟨-, -, -, accessToken, expiresAt, hcredentials, -⟩
    cases hcredentials
  · intro c hc
    cases hc
    refine ⟨?_, fun c hc => ?_⟩
    · rintro ⟨-, -, token, expiresAt, hcredentials, hexpiry⟩
      cases hcredentials
      exact absurd hexpiry (by decide)
    · cases hc
      refine ⟨?_, trivial⟩
      rintro ⟨-, -, token, expiresAt, hcredentials, -⟩
      cases hcredentials

/-- An empty expiry: the call throws and leaves the token with the expiry of an empty cache, and
    from then on every call throws. -/
theorem not_usable_emptyExpiry :
    ¬ @Unharmed east AccessToken.registered .minValue
        (.received 200 (.credentials "access-1" "")) {} ∧
      ¬ @Usable east (@Call.cache east {} (.getAccessToken AccessToken.registered .minValue
        (.received 200 (.credentials "access-1" "")))) := by
  constructor
  · intro h
    have hsame := congrArg Cache.cachedAccessToken (h (by decide))
    revert hsame
    decide
  · intro h
    exact h AccessToken.registered .minValue 200 "access-2" (Time.toISOString 7200000) (by decide)
      (by decide) (by decide) rfl

end Service.TokenCache

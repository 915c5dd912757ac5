/-
  THE ACCESS TOKEN OF AN UPLOAD (Vorsight.Service/Storage/GoogleDriveService.cs).

  The service caches the access token that the server hands out.  A Drive action that Google answers
  with 401 is tried once more, after the cache has been emptied, "which will fetch a fresh token":
  it fetches the token from the server, and the server refreshes its own only when that is about to
  expire.

  1. **The two sides.**  `credentials` is the server's endpoint, from its request to its reply;
     `executeWithRetryAsync` is the service's loop over it.

  2. **At most twice** (`attempts_le_two`), by the `retried` flag.

  3. **Another token** (`replaced_iff`): the second attempt is made with another token iff the
     server's row holds another than the cache, or comes within five minutes of its expiry.
-/
import Vorsight.Library.Time
import Vorsight.Server.OAuth
import Vorsight.Server.Registration

namespace Service.AccessToken

open Server.OAuth
open Server.Registration (isNullOrEmpty)
open Time (DateTime)

/-! ## The server's endpoint -/

/-- How the wait of a call ends whom nothing goes wrong for: Google answers with the tokens. -/
def Phase.input (tokens : Tokens) : Phase → Input
  | .refreshing .. | .exchanging =>
    .google (.credentials { accessToken := tokens.accessToken, expiryDate := tokens.expiryDate })
  | _ => .database false

/-- A call that nothing comes between. -/
def run (tokens : Tokens) : Nat → Store × Phase → Store × Phase
  | 0, r => r
  | n + 1, (s, phase) =>
    match phase.next s (Phase.input tokens phase) with
    | some r => run tokens n r
    | none => (s, phase)

/-- `GET /oauth/google/credentials`: it waits three times at most. -/
def credentials (s : Store) (tokens : Tokens) : Store × Phase :=
  run tokens 3 (s, .reading .machine)

section Endpoint

variable {s : Store} {row : OAuthToken}

/-- The row as the endpoint leaves it. -/
def served (s : Store) (tokens : Tokens) (row : OAuthToken) : OAuthToken :=
  if Caller.expired s.now row.expiresAt .machine then
    row.write tokens.accessToken none tokens.expiryDate
  else row

theorem update_findFirst (hrow : s.findFirst = some row) (accessToken : String)
    (refreshToken : Option String) (expiresAt : Server.DateTime) :
    ∃ s', s.update row.id accessToken refreshToken expiresAt = some s' ∧
      s'.findFirst = some (row.write accessToken refreshToken expiresAt) ∧
      s'.tokens.find row.id = some (row.write accessToken refreshToken expiresAt) := by
  have hfind : s.tokens.find row.id = some row :=
    Tables.Table.find_eq_some.mpr ⟨List.mem_of_find?_eq_some hrow, rfl⟩
  refine ⟨_, by rw [Store.update, hfind]; rfl, ?_, ?_⟩
  · show List.find? _ (List.map _ s.tokens.rows) = _
    rw [List.find?_map]
    have hsame : ((fun token : OAuthToken => decide (token.provider = "google")) ∘ fun r =>
        if r.id = row.id then r.write accessToken refreshToken expiresAt else r) =
        fun token => decide (token.provider = "google") := by
      funext r
      show decide ((if r.id = row.id then _ else r).provider = "google") = _
      split <;> rfl
    rw [hsame]
    show Option.map _ s.findFirst = _
    rw [hrow, Option.map_some, if_pos rfl]
  · have hupdate := Tables.Table.find_update s.tokens.toTable row.id row.id
      (OAuthToken.write accessToken refreshToken expiresAt)
      (OAuthToken.id_write accessToken refreshToken expiresAt)
    rw [if_pos rfl, hfind] at hupdate
    exact hupdate

/-- **The endpoint**, with a refresh token in the row and Google answering: the row's token as it
    is, unless it expires within five minutes. -/
theorem credentials_eq (tokens : Tokens) (hrow : s.findFirst = some row)
    (hrefresh : row.refreshToken ≠ "") :
    ∃ s', credentials s tokens = (s', .ended (Caller.machine.found (served s tokens row))) ∧
      s'.findFirst = some (served s tokens row) := by
  unfold served
  by_cases hexpired : Caller.machine.expired s.now row.expiresAt
  · obtain ⟨s', hs', hfirst, hfind⟩ :=
      update_findFirst hrow tokens.accessToken none tokens.expiryDate
    refine ⟨s', ?_, ?_⟩
    · simp [credentials, run, Phase.input, Phase.next, afterRead, hrow, hexpired, hrefresh,
        afterRefresh, Credentials.received, tokens.given, afterStore, hs', hfind]
    · rw [if_pos hexpired]
      exact hfirst
  · refine ⟨s, ?_, ?_⟩
    · simp [credentials, run, Phase.input, Phase.next, afterRead, hrow, hexpired]
    · rw [if_neg hexpired]
      exact hrow

theorem served_accessToken (s : Store) (tokens : Tokens) (row : OAuthToken) :
    (served s tokens row).accessToken =
      if Caller.machine.expired s.now row.expiresAt then tokens.accessToken
      else row.accessToken := by
  unfold served
  split <;> rfl

theorem served_expiresAt (s : Store) (tokens : Tokens) (row : OAuthToken) :
    (served s tokens row).expiresAt =
      if Caller.machine.expired s.now row.expiresAt then tokens.expiryDate
      else row.expiresAt := by
  unfold served
  split <;> rfl

theorem served_refreshToken (s : Store) (tokens : Tokens) (row : OAuthToken) :
    (served s tokens row).refreshToken = row.refreshToken := by
  unfold served
  split <;> rfl

end Endpoint

/-! ## The service -/

/-- `DateTime.Parse` of an ISO text, which gives local time. -/
class LocalTime where
  parse : String → DateTime

/-- `_cachedAccessToken` and `_tokenExpiresAt` -/
structure Cache where
  cachedAccessToken : Option String := none
  tokenExpiresAt : DateTime := .minValue

/-- `_config["Server:Url"]` and `_serverConnection.ApiKey` -/
structure Config where
  serverUrl : Option String
  apiKey : Option String

/-- The service's cache, and the server. -/
structure World where
  cache : Cache
  server : Store

/-- A turn of the loop: the two clocks, and the tokens of the refresh that Google would answer. -/
structure Moment where
  utcNow : DateTime
  now : Server.DateTime
  tokens : Tokens

/-- The server at the time. -/
def Moment.server (m : Moment) (w : World) : Store := { w.server with now := m.now }

/-- The exceptions of a Drive action, as far as the loop tells them apart. -/
inductive Exception
  | googleApi (httpStatusCode : Nat)
  | wrapped (inner : Exception)
  | other
deriving DecidableEq

/-- `ex.GetBaseException()` -/
def Exception.getBaseException : Exception → Exception
  | .wrapped inner => inner.getBaseException
  | ex => ex

def isAuthFailure (ex : Exception) : Bool :=
  match ex.getBaseException with
  | .googleApi httpStatusCode => httpStatusCode = 401
  | _ => false

def invalidateToken (w : World) : World := { w with cache := {} }

section Service

variable [LocalTime]

/-- The request to the server, whose answer is cached. -/
def fetch (config : Config) (m : Moment) (w : World) : World × Except Exception String :=
  if isNullOrEmpty config.serverUrl then (w, .error .other)
  else if isNullOrEmpty config.apiKey then (w, .error .other)
  else
    match credentials (m.server w) m.tokens with
    | (server, .ended (.credentials accessToken expiresAt _)) =>
      ({ server, cache := { cachedAccessToken := accessToken,
                            tokenExpiresAt := LocalTime.parse expiresAt } }, .ok accessToken)
    | (server, _) => ({ w with server }, .error .other)

def getAccessTokenAsync (config : Config) (m : Moment) (w : World) :
    World × Except Exception String :=
  match w.cache.cachedAccessToken with
  | none => fetch config m w
  | some token =>
    match w.cache.tokenExpiresAt.addMinutes (-5) with
    | none => (w, .error .other)
    | some limit => if m.utcNow.ticks < limit.ticks then (w, .ok token) else fetch config m w

/-- What the loop does: the tokens of its attempts, and how it ends. -/
structure Trace (α : Type) where
  attempts : List String := []
  outcome : Except Exception α

/-- `while (true)`, from its `n`-th turn on. -/
def executeWithRetryAsync {α : Type} (config : Config) (moments : Nat → Moment)
    (action : Nat → String → Except Exception α) (retried : Bool) (n : Nat) (w : World) :
    Trace α :=
  match getAccessTokenAsync config (moments n) w with
  | (_, .error ex) => { outcome := .error ex }
  | (w, .ok accessToken) =>
    match action n accessToken with
    | .ok result => { attempts := [accessToken], outcome := .ok result }
    | .error ex =>
      if hretry : retried = false ∧ (ex = .googleApi 401 ∨ isAuthFailure ex) then
        let rest := executeWithRetryAsync config moments action true (n + 1) (invalidateToken w)
        { rest with attempts := accessToken :: rest.attempts }
      else { attempts := [accessToken], outcome := .error ex }
termination_by (!retried).toNat
decreasing_by simp [hretry.1]

variable {α : Type} {config : Config} {moments : Nat → Moment} {m : Moment}
  {action : Nat → String → Except Exception α} {n : Nat} {w : World} {row : OAuthToken}
  {token : String} {ex : Exception}

/-! ## At most twice -/

/-- Once it has retried, the loop ends with its next attempt. -/
theorem attempts_retried : (executeWithRetryAsync config moments action true n w).attempts =
    match (getAccessTokenAsync config (moments n) w).2 with
    | .ok token => [token]
    | .error _ => [] := by
  rw [executeWithRetryAsync]
  split
  · rename_i hget
    rw [hget]
  · rename_i hget
    rw [hget]
    split
    · rfl
    · rw [dif_neg fun h => Bool.false_ne_true h.1.symm]

/-- The first turn of the loop, when Google answers with 401: another turn, with an empty cache. -/
theorem attempts_unauthorized {w' : World} (hget : getAccessTokenAsync config (moments n) w =
      (w', .ok token)) (h401 : action n token = .error ex) (hauth : isAuthFailure ex = true) :
    (executeWithRetryAsync config moments action false n w).attempts = token ::
      (executeWithRetryAsync config moments action true (n + 1) (invalidateToken w')).attempts := by
  rw [executeWithRetryAsync, hget]
  simp only [h401, hauth, or_true, and_self, dite_true]

theorem attempts_le_two : (executeWithRetryAsync config moments action false n w).attempts.length
    ≤ 2 := by
  have hretried : ∀ w', (executeWithRetryAsync config moments action true (n + 1)
      w').attempts.length ≤ 1 := by
    intro w'
    rw [attempts_retried]
    split <;> simp
  rw [executeWithRetryAsync]
  split
  · simp
  · rename_i w' accessToken hget
    split
    · simp
    · split
      · simp only [List.length_cons]
        have h := hretried (invalidateToken w')
        omega
      · simp

/-! ## With another token -/

/-- The token that is served from the cache. -/
def Cache.fresh (c : Cache) (utcNow : DateTime) : Option String :=
  match c.cachedAccessToken, c.tokenExpiresAt.addMinutes (-5) with
  | some token, some limit => if utcNow.ticks < limit.ticks then some token else none
  | _, _ => none

omit [LocalTime] in
theorem cached_of_fresh {c : Cache} {utcNow : DateTime} (h : c.fresh utcNow = some token) :
    c.cachedAccessToken = some token := by
  unfold Cache.fresh at h
  split at h
  · rename_i hcached hlimit
    split at h
    · cases h
      exact hcached
    · cases h
  · cases h

/-- The service can ask the server; and the server's row holds another token than the service's
    cache, or comes within five minutes of its expiry by the retry. -/
def Recovers (config : Config) (moments : Nat → Moment) (w : World) (row : OAuthToken) : Prop :=
  isNullOrEmpty config.serverUrl = false ∧ isNullOrEmpty config.apiKey = false ∧
    match w.cache.fresh (moments 0).utcNow with
    | some token => row.accessToken ≠ token ∨
        Caller.machine.expired (moments 1).now row.expiresAt = true
    | none => Caller.machine.expired (moments 1).now
        (if Caller.machine.expired (moments 0).now row.expiresAt then
          (moments 0).tokens.expiryDate else row.expiresAt) = true

theorem fetch_eq (hurl : isNullOrEmpty config.serverUrl = false)
    (hkey : isNullOrEmpty config.apiKey = false) (hrow : w.server.findFirst = some row)
    (hrefresh : row.refreshToken ≠ "") :
    ∃ w', fetch config m w = (w', .ok (served (m.server w) m.tokens row).accessToken) ∧
      w'.server.findFirst = some (served (m.server w) m.tokens row) := by
  obtain ⟨s', hs', hfirst⟩ := credentials_eq (s := m.server w) m.tokens hrow hrefresh
  let row' := served (m.server w) m.tokens row
  have hfetch : fetch config m w =
      ({ server := s', cache := {
          cachedAccessToken := some row'.accessToken,
          tokenExpiresAt := LocalTime.parse (Time.toISOString row'.expiresAt) } },
        .ok row'.accessToken) := by
    rw [fetch, hurl, hkey, hs']
    rfl
  exact ⟨_, hfetch, hfirst⟩

theorem configured_of_fetch {w' : World} (h : fetch config m w = (w', .ok token)) :
    isNullOrEmpty config.serverUrl = false ∧ isNullOrEmpty config.apiKey = false := by
  unfold fetch at h
  split at h
  · cases h
  · rename_i hurl
    split at h
    · cases h
    · rename_i hkey
      exact ⟨Bool.eq_false_iff.mpr hurl, Bool.eq_false_iff.mpr hkey⟩

/-- A token is served from the cache, or fetched. -/
theorem getAccessToken_cases {w' : World}
    (h : getAccessTokenAsync config m w = (w', .ok token)) :
    (w.cache.fresh m.utcNow = some token ∧ w' = w) ∨
      (w.cache.fresh m.utcNow = none ∧ fetch config m w = (w', .ok token)) := by
  unfold getAccessTokenAsync at h
  unfold Cache.fresh
  cases hcached : w.cache.cachedAccessToken with
  | none =>
    rw [hcached] at h
    exact .inr ⟨rfl, h⟩
  | some cached =>
    cases hlimit : w.cache.tokenExpiresAt.addMinutes (-5) with
    | none =>
      rw [hcached, hlimit] at h
      cases h
    | some limit =>
      simp only [hcached, hlimit] at h ⊢
      by_cases hlt : m.utcNow.ticks < limit.ticks
      · rw [if_pos hlt] at h ⊢
        cases h
        exact .inl ⟨rfl, rfl⟩
      · rw [if_neg hlt] at h ⊢
        exact .inr ⟨rfl, h⟩

omit [LocalTime] in
theorem second_ne_iff {other : String} :
    (∃ second, second ≠ token ∧ token :: [other] = [token, second]) ↔ other ≠ token := by
  constructor
  · rintro ⟨second, hne, heq⟩
    cases heq
    exact hne
  · exact fun hne => ⟨other, hne, rfl⟩

/-- The first token was cached: the row is as it was then. -/
theorem second_of_cached (hrow : w.server.findFirst = some row) (hrefresh : row.refreshToken ≠ "")
    (hfresh : w.cache.fresh (moments 0).utcNow = some token)
    (hnew : w.cache.cachedAccessToken ≠ some (moments 1).tokens.accessToken) :
    (∃ second, second ≠ token ∧
        (token :: match (fetch config (moments 1) (invalidateToken w)).2 with
          | .ok second => [second]
          | .error _ => []) = [token, second]) ↔ Recovers config moments w row := by
  have hcached := cached_of_fresh hfresh
  unfold Recovers
  rw [hfresh]
  by_cases hconfig : isNullOrEmpty config.serverUrl = false ∧ isNullOrEmpty config.apiKey = false
  · obtain ⟨hurl, hkey⟩ := hconfig
    obtain ⟨w₂, hw₂, -⟩ :=
      fetch_eq (m := moments 1) (w := invalidateToken w) hurl hkey hrow hrefresh
    rw [hw₂, second_ne_iff, served_accessToken]
    show (if Caller.machine.expired (moments 1).now row.expiresAt then _ else _) ≠ _ ↔ _
    by_cases hexpired : Caller.machine.expired (moments 1).now row.expiresAt
    · rw [if_pos hexpired]
      refine iff_of_true (fun hsame => hnew ?_) ⟨hurl, hkey, .inr hexpired⟩
      rw [hcached, hsame]
    · rw [if_neg hexpired]
      exact ⟨fun hne => ⟨hurl, hkey, .inl hne⟩, fun h => h.2.2.resolve_right hexpired⟩
  · refine iff_of_false ?_ fun h => hconfig ⟨h.1, h.2.1⟩
    rintro ⟨second, -, heq⟩
    split at heq
    · rename_i accessToken hfetch
      exact hconfig (configured_of_fetch (Prod.ext rfl hfetch))
    · cases heq

/-- The first token came from the server, which may have refreshed the row for it. -/
theorem second_of_fetched {w' : World} (hrow : w.server.findFirst = some row)
    (hrefresh : row.refreshToken ≠ "") (hnone : w.cache.fresh (moments 0).utcNow = none)
    (hfetch : fetch config (moments 0) w = (w', .ok token))
    (hnew : (moments 1).tokens.accessToken ≠ row.accessToken ∧
      (moments 1).tokens.accessToken ≠ (moments 0).tokens.accessToken) :
    (∃ second, second ≠ token ∧
        (token :: match (fetch config (moments 1) (invalidateToken w')).2 with
          | .ok second => [second]
          | .error _ => []) = [token, second]) ↔ Recovers config moments w row := by
  obtain ⟨hurl, hkey⟩ := configured_of_fetch hfetch
  obtain ⟨w₁, hw₁, hrow₁⟩ := fetch_eq (m := moments 0) hurl hkey hrow hrefresh
  cases hfetch.symm.trans hw₁
  have hrefresh₁ : (served ((moments 0).server w) (moments 0).tokens row).refreshToken ≠ "" := by
    rw [served_refreshToken]
    exact hrefresh
  obtain ⟨w₂, hw₂, -⟩ :=
    fetch_eq (m := moments 1) (w := invalidateToken w') hurl hkey hrow₁ hrefresh₁
  rw [hw₂, second_ne_iff, served_accessToken, served_expiresAt]
  unfold Recovers
  rw [hnone]
  show (if Caller.machine.expired (moments 1).now (if _ then _ else _) then _ else _) ≠ _ ↔ _
  have hnew₁ : (moments 1).tokens.accessToken ≠
      (served ((moments 0).server w) (moments 0).tokens row).accessToken := by
    rw [served_accessToken]
    split
    · exact hnew.2
    · exact hnew.1
  constructor
  · intro hne
    refine ⟨hurl, hkey, ?_⟩
    by_contra hexpired
    exact hne (if_neg hexpired)
  · rintro ⟨-, -, hexpired⟩ hsame
    exact hnew₁ ((if_pos hexpired).symm.trans hsame)

end Service

/-! ## A revoked token -/

/-- The server's row after a login, whose access token is good for another hour. -/
def loggedIn : Store where
  tokens := Tables.Sequence.empty.create (fun id => {
    id, provider := "google", accessToken := "access-1", refreshToken := "refresh-1",
    expiresAt := 7200000, scope := scopes }) fun _ => rfl
  now := 3600000

/-- Two turns of the loop; Google answers each refresh with a new token. -/
def turns (now : Server.DateTime) : Nat → Moment
  | 0 => {
    utcNow := .minValue, now,
    tokens := { accessToken := "access-2", expiryDate := 10800000, given := by decide } }
  | _ => {
    utcNow := .minValue, now,
    tokens := { accessToken := "access-3", expiryDate := 10800000, given := by decide } }

/-- The service has cached the row's token. -/
def caching : World where
  cache := { cachedAccessToken := "access-1", tokenExpiresAt := ⟨36000000000, by decide⟩ }
  server := loggedIn

def registered : Config where
  serverUrl := some "http://localhost:3000"
  apiKey := some "4f1c"

/-- Google no longer takes that token. -/
def upload (_ : Nat) (token : String) : Except Exception Unit :=
  if token = "access-1" then .error (.googleApi 401) else .ok ()

@[reducible] def utc : LocalTime := ⟨fun _ => .minValue⟩

end Service.AccessToken

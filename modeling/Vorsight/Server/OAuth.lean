/-
  THE STORED GOOGLE TOKEN (routes/machine/oauth.ts, routes/web/oauth.ts,
  services/googleDriveService.ts).

  Machines' credential requests and the server's own Drive client refresh the one row of
  `oauth_tokens` when its access token runs out; a login's callback fills the row or replaces it; a
  disconnect empties the table.  Between the read, the call to Google and the write a call waits,
  and any other call may move.

  1. **The claim of the design** (`Consistent`, `DeletesRejected`): the stored access token was
     issued for the stored refresh token's grant, and `invalid_grant` deletes a row only if Google
     has rejected the refresh token it holds.

  2. **What the code does.**  It writes and deletes by the row's id, whatever the row holds by then,
     and a callback that brings no refresh token keeps the one it has read.  `Fits` says of a write
     that the two tokens it brings together belong together.

  3. **The crux (`Inv`)** — what a call carries from one wait to the next: a new access token is of
     the grant of the refresh token that was sent, a deletion comes after a rejection.
-/
import Vorsight.Library.Run
import Vorsight.Library.Table
import Vorsight.Library.Time
import Vorsight.Server.Database

namespace Server.OAuth

open Tables

/-! ## Google -/

/-- The grants that tokens belong to. -/
class Google where
  Grant : Type
  decEq : DecidableEq Grant
  accessGrant : String → Grant
  refreshGrant : String → Grant

instance [Google] : DecidableEq Google.Grant := Google.decEq

/-- What `getToken` and `refreshAccessToken` return. -/
structure Credentials where
  accessToken : Option String
  refreshToken : Option String := none
  expiryDate : Option DateTime

/-- What they throw: `err.response.data.error` and `err.message`. -/
structure Failure where
  error : Option String := none
  message : String

/-- `err?.response?.data?.error === 'invalid_grant' || err?.message?.includes('invalid_grant')` -/
def Failure.isInvalidGrant (err : Failure) : Bool :=
  err.error = some "invalid_grant" || Js.includes err.message "invalid_grant"

inductive Answer
  | credentials (c : Credentials)
  | failure (err : Failure)

/-- Tokens that are there: neither the access token nor the expiry date is missing or falsy. -/
structure Tokens where
  accessToken : String
  /-- `none` also for an empty text -/
  refreshToken : Option String := none
  expiryDate : DateTime
  given : accessToken ≠ "" ∧ expiryDate ≠ 0

def Credentials.received (c : Credentials) : Option Tokens := do
  let accessToken ← c.accessToken
  let expiryDate ← c.expiryDate
  if given : accessToken ≠ "" ∧ expiryDate ≠ 0 then
    some { accessToken, refreshToken := c.refreshToken.filter (· ≠ ""), expiryDate, given }
  else none

/-! ## The table -/

structure OAuthToken where
  id : Nat
  provider : String
  accessToken : String
  refreshToken : String
  expiresAt : DateTime
  scope : String
deriving DecidableEq

/-- The row with what a write gives: always the access token and its expiry, the refresh token if
    there is one. -/
def OAuthToken.write (accessToken : String) (refreshToken : Option String) (expiresAt : DateTime)
    (row : OAuthToken) : OAuthToken :=
  { row with accessToken, refreshToken := refreshToken.getD row.refreshToken, expiresAt }

theorem OAuthToken.id_write (accessToken : String) (refreshToken : Option String)
    (expiresAt : DateTime) (row : OAuthToken) :
    (row.write accessToken refreshToken expiresAt).id = row.id := rfl

/-- The table, the clock, and the refresh tokens Google has rejected so far. -/
structure Store where
  tokens : Sequence OAuthToken.id := .empty
  now : DateTime
  rejected : List String := []

namespace Store

/-- `findFirst({ where: { provider: 'google' } })` -/
def findFirst (s : Store) : Option OAuthToken :=
  s.tokens.rows.find? fun token => token.provider = "google"

/-- `update({ where: { id }, data })`; it throws when there is no such row. -/
def update (s : Store) (id : Nat) (accessToken : String) (refreshToken : Option String)
    (expiresAt : DateTime) : Option Store :=
  (s.tokens.find id).map fun _ => { s with
    tokens := s.tokens.update id (OAuthToken.write accessToken refreshToken expiresAt)
      (OAuthToken.id_write accessToken refreshToken expiresAt) }

/-- `create({ data })`; it throws when the provider is taken. -/
def create (s : Store) (accessToken refreshToken : String) (expiresAt : DateTime) (scope : String) :
    Option Store :=
  if s.findFirst.isSome then none
  else some { s with
    tokens := s.tokens.create
      (fun id => { id, provider := "google", accessToken, refreshToken, expiresAt, scope })
      fun _ => rfl }

/-- `delete({ where: { id } })`; it throws when there is no such row. -/
def delete (s : Store) (id : Nat) : Option Store :=
  (s.tokens.find id).map fun _ => { s with tokens := s.tokens.filter fun row => row.id ≠ id }

/-- `deleteMany({ where: { provider: 'google' } })` -/
def deleteMany (s : Store) : Store :=
  { s with tokens := s.tokens.filter fun row => row.provider ≠ "google" }

end Store

/-! ## The calls -/

/-- The two calls that refresh: `GET /google/credentials` and `getDriveClient`. -/
inductive Caller
  | machine
  | drive

/-- How a call ends. -/
inductive Reply
  | credentials (accessToken expiresAt scope : String)
  | client (accessToken : String)
  | failed (status : Nat) (error : String)
  /-- thrown to the caller; `none` for an error of the database -/
  | threw (error : Option String)
  | redirect (url : String)
  | disconnected
deriving DecidableEq

def fiveMinutes : Int := 5 * 60 * 1000

/-- The stored access token is not to be handed out any more. -/
def Caller.expired (now expiresAt : DateTime) : Caller → Bool
  | .machine => now + fiveMinutes > expiresAt
  | .drive => expiresAt < now

/-- There is no row. -/
def Caller.missing : Caller → Reply
  | .machine =>
    .failed 404 "No Google credentials found. Please authenticate via the Web UI."
  | .drive =>
    .threw "Google Drive not connected. Please authenticate via /api/web/v1/oauth/google"

/-- The access token, and the row it is in. -/
def Caller.found (row : OAuthToken) : Caller → Reply
  | .machine => .credentials row.accessToken (Time.toISOString row.expiresAt) row.scope
  | .drive => .client row.accessToken

/-- The refresh has failed for another reason than `invalid_grant`. -/
def Caller.notRefreshed : Caller → Reply
  | .machine => .failed 500 "Internal server error"
  | .drive => .threw "Failed to refresh Google OAuth token. Please re-authenticate."

/-- The row with the rejected refresh token has been deleted. -/
def Caller.removed : Caller → Reply
  | .machine => .failed 404 "Google credentials expired. Please re-authenticate via the Web UI."
  | .drive => .threw "Failed to refresh Google OAuth token. Please re-authenticate."

/-- The database has thrown outside the refresh. -/
def Caller.broken : Caller → Reply
  | .machine => .failed 500 "Internal server error"
  | .drive => .threw none

/-- `SCOPES.join(' ')` -/
def scopes : String :=
  "https://www.googleapis.com/auth/drive.file " ++
    "https://www.googleapis.com/auth/drive.metadata.readonly"

/-- What a call waits for. -/
inductive Phase
  /-- `findFirst` of a credential request or of the Drive client -/
  | reading (caller : Caller)
  /-- `refreshAccessToken` with the refresh token of the row it has read -/
  | refreshing (caller : Caller) (token : OAuthToken)
  /-- `update` of the row, after the refresh -/
  | storing (caller : Caller) (token : OAuthToken) (tokens : Tokens)
  /-- `delete` of the row, after `invalid_grant` -/
  | removing (caller : Caller) (token : OAuthToken)
  /-- `getToken` of a callback -/
  | exchanging
  /-- its `findFirst` -/
  | looking (tokens : Tokens)
  /-- its `update` of the row it has found -/
  | replacing (existing : OAuthToken) (tokens : Tokens)
  /-- its `create` -/
  | creating (tokens : Tokens) (refreshToken : String)
  /-- `deleteMany` of a disconnect -/
  | disconnecting
  | ended (reply : Reply)

/-- A request, up to its first wait. -/
inductive Request
  | credentials
  | getDriveClient
  | callback (code : Option String)
  | disconnect

def Request.start : Request → Phase
  | .credentials => .reading .machine
  | .getDriveClient => .reading .drive
  | .callback code =>
    if code = none ∨ code = some "" then .ended (.failed 400 "Invalid code") else .exchanging
  | .disconnect => .disconnecting

/-- What the wait ends with. -/
inductive Input
  | database (fails : Bool)
  | google (answer : Answer)

/-- After `findFirst` of a call that may refresh. -/
def afterRead (s : Store) (caller : Caller) : Phase :=
  match s.findFirst with
  | none => .ended caller.missing
  | some token =>
    if caller.expired s.now token.expiresAt then
      match caller with
      | .machine =>
        if token.refreshToken = "" then
          .ended (.failed 400 "No refresh token available. Please re-authenticate via Web UI.")
        else .refreshing caller token
      | .drive => .refreshing caller token
    else .ended (caller.found token)

/-- After `refreshAccessToken`. -/
def afterRefresh (s : Store) (caller : Caller) (token : OAuthToken) : Answer → Store × Phase
  | .credentials c =>
    match c.received with
    | some tokens => (s, .storing caller token tokens)
    | none => (s, .ended caller.notRefreshed)
  | .failure err =>
    if err.isInvalidGrant then
      ({ s with rejected := token.refreshToken :: s.rejected }, .removing caller token)
    else (s, .ended caller.notRefreshed)

/-- After `update` of the refreshed row.  A machine is answered from the row that `update` returns,
    the Drive client has the new tokens already. -/
def afterStore (s : Store) (caller : Caller) (token : OAuthToken) (tokens : Tokens) :
    Store × Phase :=
  match s.update token.id tokens.accessToken none tokens.expiryDate with
  | none => (s, .ended caller.notRefreshed)
  | some s' =>
    (s', .ended (match caller, s'.tokens.find token.id with
      | .machine, some row => caller.found row
      | _, _ => .client tokens.accessToken))

/-- After `getToken`. -/
def afterExchange : Answer → Phase
  | .credentials c =>
    match c.received with
    | some tokens => .looking tokens
    | none => .ended (.failed 500 "Authentication failed")
  | .failure _ => .ended (.failed 500 "Authentication failed")

/-- After `findFirst` of a callback. -/
def afterLook (s : Store) (tokens : Tokens) : Phase :=
  match s.findFirst, tokens.refreshToken with
  | some existing, _ => .replacing existing tokens
  | none, some refreshToken => .creating tokens refreshToken
  | none, none =>
    .ended (.failed 400 "No refresh token received. Please revoke access and try again.")

/-- The end of a callback: redirected, unless the database has thrown. -/
def afterWrite (s : Store) : Option Store → Store × Phase
  | some s' => (s', .ended (.redirect "/"))
  | none => (s, .ended (.failed 500 "Authentication failed"))

/-- One call moves to its next wait. -/
def Phase.next (s : Store) : Phase → Input → Option (Store × Phase)
  | .reading caller, .database fails =>
    some (s, if fails then .ended caller.broken else afterRead s caller)
  | .refreshing caller token, .google answer => some (afterRefresh s caller token answer)
  | .storing caller token tokens, .database fails =>
    some (if fails then (s, .ended caller.notRefreshed) else afterStore s caller token tokens)
  | .removing caller token, .database fails =>
    match if fails then none else s.delete token.id with
    | some s' => some (s', .ended caller.removed)
    | none => some (s, .ended caller.broken)
  | .exchanging, .google answer => some (s, afterExchange answer)
  | .looking tokens, .database fails =>
    some (s, if fails then .ended (.failed 500 "Authentication failed") else afterLook s tokens)
  | .replacing existing tokens, .database fails =>
    some (afterWrite s (if fails then none else s.update existing.id tokens.accessToken
      (tokens.refreshToken.getD existing.refreshToken) tokens.expiryDate))
  | .creating tokens refreshToken, .database fails =>
    some (afterWrite s (if fails then none else
      s.create tokens.accessToken refreshToken tokens.expiryDate scopes))
  | .disconnecting, .database fails =>
    some (if fails then (s, .ended (.failed 500 "Failed to disconnect"))
      else (s.deleteMany, .ended .disconnected))
  | _, _ => none

/-! ## The system -/

section System

variable [Google]

open Google

structure State where
  store : Store
  calls : List Phase := []

/-- What happens next: a request comes in, the wait of a call ends, time goes on. -/
inductive Label
  | request (r : Request)
  | advance (call : Nat) (input : Input)
  | tick (now : DateTime)

/-- A refresh returns an access token of the grant of the refresh token sent, and an exchange tokens
    of one grant. -/
def Phase.allows : Phase → Input → Bool
  | .refreshing _ token, .google (.credentials c) =>
    c.accessToken.all fun a => accessGrant a = refreshGrant token.refreshToken
  | .exchanging, .google (.credentials c) =>
    c.accessToken.all fun a => c.refreshToken.all fun r => accessGrant a = refreshGrant r
  | _, _ => true

def step (s : State) : Label → Option State
  | .request r => some { s with calls := s.calls ++ [r.start] }
  | .advance call input => do
    let phase ← s.calls[call]?.filter (·.allows input)
    let (store, phase') ← phase.next s.store input
    some { store, calls := s.calls.set call phase' }
  | .tick now => some { s with store := { s.store with now } }

/-- A new installation. -/
def initial (now : DateTime) : State := { store := { now } }

/-! ## The design's claim -/

/-- The stored access token was issued for the stored refresh token's grant. -/
def Store.Consistent (s : Store) : Prop :=
  ∀ row ∈ s.tokens.rows, accessGrant row.accessToken = refreshGrant row.refreshToken

def Consistent (s : State) : Prop := s.store.Consistent

omit [Google] in
/-- The row that a call has read which deletes it because of `invalid_grant`. -/
def Phase.deletes : Phase → Option OAuthToken
  | .removing _ token => some token
  | _ => none

omit [Google] in
/-- The call that is about to write, or to delete. -/
def writing (s : State) : Label → Option Phase
  | .advance call (.database false) => s.calls[call]?
  | _ => none

omit [Google] in
/-- A row is deleted only with a refresh token that Google has rejected. -/
def DeletesRejected (s : State) (l : Label) (_ : State) : Prop :=
  ∀ phase ∈ writing s l, ∀ token ∈ phase.deletes, ∀ row ∈ s.store.tokens.find token.id,
    row.refreshToken ∈ s.store.rejected

omit [Google] in
instance (s s' : State) (l : Label) : Decidable (DeletesRejected s l s') :=
  inferInstanceAs (Decidable (∀ phase ∈ writing s l, ∀ token ∈ phase.deletes,
    ∀ row ∈ s.store.tokens.find token.id, row.refreshToken ∈ s.store.rejected))

/-! ## What the code does -/

/-- The tokens that a write brings together in the row belong together: a refresh writes to a row
    that still holds a refresh token of the grant it has refreshed, and a callback that brings no
    refresh token has one of its access token's grant to keep. -/
def Phase.Fits (s : Store) : Phase → Prop
  | .storing _ token _ => ∀ row ∈ s.tokens.find token.id,
      refreshGrant row.refreshToken = refreshGrant token.refreshToken
  | .replacing existing tokens => (s.tokens.find existing.id).isSome →
      tokens.refreshToken = none →
        accessGrant tokens.accessToken = refreshGrant existing.refreshToken
  | _ => True

def Fits (s : State) (l : Label) : Prop := ∀ phase ∈ writing s l, phase.Fits s.store

omit [Google] in
/-- Google has rejected the refresh token that the call has read which deletes the row. -/
def DeletesAfterRejection (s : State) (l : Label) (_ : State) : Prop :=
  ∀ phase ∈ writing s l, ∀ token ∈ phase.deletes, token.refreshToken ∈ s.store.rejected

/-! ## The table's operations -/

variable {s s' : Store} {id : Nat} {accessToken : String} {refreshToken : Option String}
  {expiresAt : DateTime}

omit [Google] in
/-- The rows after an update: the others, and the one under the id with the new values. -/
theorem mem_update {row : OAuthToken}
    (hs : s.update id accessToken refreshToken expiresAt = some s') :
    row ∈ s'.tokens.rows ↔ (row ∈ s.tokens.rows ∧ row.id ≠ id) ∨
      ∃ old ∈ s.tokens.find id, row = old.write accessToken refreshToken expiresAt := by
  obtain ⟨-, -, rfl⟩ := Option.map_eq_some_iff.mp hs
  have hmem := @Table.mem_update _ _ _ _ s.tokens.toTable id _
    (OAuthToken.id_write accessToken refreshToken expiresAt) row
  refine hmem.trans (or_congr_right ⟨?_, ?_⟩)
  · rintro ⟨old, hold, hid, rfl⟩
    exact ⟨old, Table.find_eq_some.mpr ⟨hold, hid⟩, rfl⟩
  · rintro ⟨old, hfind, rfl⟩
    obtain ⟨hold, hid⟩ := Table.find_eq_some.mp hfind
    exact ⟨old, hold, hid, rfl⟩

/-- An update leaves the table consistent iff the new access token is of the grant of the refresh
    token that the row has afterwards. -/
theorem consistent_update (h : s.Consistent)
    (hs : s.update id accessToken refreshToken expiresAt = some s') :
    s'.Consistent ↔ ∀ row ∈ s.tokens.find id,
      accessGrant accessToken = refreshGrant (refreshToken.getD row.refreshToken) := by
  constructor
  · intro hc row hrow
    exact hc _ ((mem_update hs).mpr (.inr ⟨row, hrow, rfl⟩))
  · intro hgrant row hrow
    rcases (mem_update hs).mp hrow with ⟨hold, -⟩ | ⟨old, hfind, rfl⟩
    · exact h row hold
    · exact hgrant old hfind

theorem consistent_filter (h : s.Consistent) (p : OAuthToken → Bool) :
    ({ s with tokens := s.tokens.filter p } : Store).Consistent :=
  fun row hrow => h row (List.mem_of_mem_filter hrow)

theorem consistent_create {refreshToken scope : String} (h : s.Consistent)
    (hgrant : accessGrant accessToken = refreshGrant refreshToken)
    (hs : s.create accessToken refreshToken expiresAt scope = some s') : s'.Consistent := by
  unfold Store.create at hs
  split at hs
  · cases hs
  · cases hs
    intro row hrow
    rcases List.mem_append.mp hrow with hold | hnew
    · exact h row hold
    · cases List.mem_singleton.mp hnew
      exact hgrant

omit [Google] in
theorem rejected_update (hs : s.update id accessToken refreshToken expiresAt = some s') :
    s'.rejected = s.rejected := by
  obtain ⟨row, -, rfl⟩ := Option.map_eq_some_iff.mp hs
  rfl

omit [Google] in
theorem rejected_create {refreshToken scope : String}
    (hs : s.create accessToken refreshToken expiresAt scope = some s') :
    s'.rejected = s.rejected := by
  unfold Store.create at hs
  split at hs
  · cases hs
  · cases hs
    rfl

omit [Google] in
/-- Tokens that are there come from the credentials as they are. -/
theorem received_eq_some {c : Credentials} {tokens : Tokens} (h : c.received = some tokens) :
    c.accessToken = some tokens.accessToken ∧
      ∀ r ∈ tokens.refreshToken, c.refreshToken = some r := by
  obtain ⟨access, haccess, h⟩ := Option.bind_eq_some_iff.mp h
  obtain ⟨expiry, -, h⟩ := Option.bind_eq_some_iff.mp h
  split at h
  · cases h
    refine ⟨haccess, fun r hr => ?_⟩
    exact (Option.filter_eq_some_iff.mp hr).1
  · cases h

/-! ## What a call carries from one wait to the next -/

/-- A call that is about to write brings an access token of the grant it refreshed, or tokens of one
    grant; a call that is about to delete has seen Google reject the refresh token it has read. -/
def Phase.Ready (s : Store) : Phase → Prop
  | .storing _ token tokens => accessGrant tokens.accessToken = refreshGrant token.refreshToken
  | .removing _ token => token.refreshToken ∈ s.rejected
  | .looking tokens | .replacing _ tokens =>
    ∀ r ∈ tokens.refreshToken, accessGrant tokens.accessToken = refreshGrant r
  | .creating tokens refreshToken => accessGrant tokens.accessToken = refreshGrant refreshToken
  | _ => True

theorem Phase.Ready.mono {phase : Phase} (h : phase.Ready s)
    (hrejected : ∀ r ∈ s.rejected, r ∈ s'.rejected) : phase.Ready s' := by
  cases phase with
  | removing caller token => exact hrejected _ h
  | _ => exact h

theorem ready_start (r : Request) : r.start.Ready s := by
  cases r with
  | callback code =>
    show (ite _ _ _ : Phase).Ready s
    split <;> trivial
  | _ => trivial

/-- What the end of a wait does: the call is ready for the next, rejections stay, and the table
    stays consistent iff the write fits. -/
structure Moves (s : Store) (phase : Phase) (input : Input) (r : Store × Phase) : Prop where
  ready : r.2.Ready r.1
  rejected : ∀ t ∈ s.rejected, t ∈ r.1.rejected
  consistent : s.Consistent → (r.1.Consistent ↔ (input = .database false → phase.Fits s))

/-- The wait ends, and the table is as it was. -/
theorem moves_same {phase phase' : Phase} {input : Input} (hready : phase'.Ready s)
    (hfits : input = .database false → phase.Fits s) : Moves s phase input (s, phase') :=
  ⟨hready, fun _ h => h, fun h => iff_of_true h hfits⟩

theorem moves_refresh {caller : Caller} {token : OAuthToken} {answer : Answer}
    (hallows : (Phase.refreshing caller token).allows (.google answer) = true) :
    Moves s (.refreshing caller token) (.google answer) (afterRefresh s caller token answer) := by
  cases answer with
  | credentials c =>
    cases hreceived : c.received with
    | none =>
      simp only [afterRefresh, hreceived]
      exact moves_same trivial nofun
    | some tokens =>
      simp only [afterRefresh, hreceived]
      have hgrant : accessGrant tokens.accessToken = refreshGrant token.refreshToken := by
        simpa [Phase.allows, (received_eq_some hreceived).1] using hallows
      exact moves_same hgrant nofun
  | failure err =>
    simp only [afterRefresh]
    split
    · exact ⟨List.mem_cons_self, fun r hr => List.mem_cons_of_mem _ hr,
        fun h => iff_of_true h nofun⟩
    · exact moves_same trivial nofun

theorem moves_store {caller : Caller} {token : OAuthToken} {tokens : Tokens}
    (hready : (Phase.storing caller token tokens).Ready s) :
    Moves s (.storing caller token tokens) (.database false)
      (afterStore s caller token tokens) := by
  have hgrant : accessGrant tokens.accessToken = refreshGrant token.refreshToken := hready
  unfold afterStore
  split
  · rename_i hnone
    refine moves_same trivial fun _ row hrow => ?_
    rw [Store.update, Option.map_eq_none_iff.mp (hnone)] at *
    cases hrow
  · rename_i s' hs
    refine ⟨trivial, fun r hr => (rejected_update hs).symm ▸ hr, fun h => ?_⟩
    rw [consistent_update h hs]
    constructor
    · intro hfits _ row hrow
      exact (hfits row hrow).symm.trans hgrant
    · intro hfits row hrow
      exact hgrant.trans (hfits rfl row hrow).symm

theorem moves_exchange {answer : Answer}
    (hallows : Phase.exchanging.allows (.google answer) = true) :
    Moves s .exchanging (.google answer) (s, afterExchange answer) := by
  refine moves_same ?_ nofun
  cases answer with
  | failure => trivial
  | credentials c =>
    cases hreceived : c.received with
    | none =>
      simp only [afterExchange, hreceived]
      trivial
    | some tokens =>
      simp only [afterExchange, hreceived]
      intro r hr
      obtain ⟨haccess, hrefresh⟩ := received_eq_some hreceived
      simpa [Phase.allows, haccess, hrefresh r hr] using hallows

theorem ready_afterRead (caller : Caller) : (afterRead s caller).Ready s := by
  unfold afterRead
  split
  · trivial
  · split
    · split
      · split <;> trivial
      · trivial
    · trivial

theorem moves_look {tokens : Tokens} (hready : (Phase.looking tokens).Ready s) :
    (afterLook s tokens).Ready s := by
  unfold afterLook
  split
  · exact hready
  · rename_i refreshToken hnone hrefresh
    exact hready refreshToken hrefresh
  · trivial

/-- The write of a callback. -/
theorem moves_write {phase : Phase} {o : Option Store} (hnone : o = none → phase.Fits s)
    (hsome : ∀ s', o = some s' → s'.rejected = s.rejected ∧
      (s.Consistent → (s'.Consistent ↔ phase.Fits s))) :
    Moves s phase (.database false) (afterWrite s o) := by
  cases o with
  | none => exact moves_same trivial fun _ => hnone rfl
  | some s' =>
    obtain ⟨hrejected, hconsistent⟩ := hsome s' rfl
    refine ⟨trivial, fun r hr => hrejected.symm ▸ hr, fun h => ?_⟩
    exact (hconsistent h).trans ⟨fun hfits _ => hfits, fun hfits => hfits rfl⟩

theorem moves_replace {existing : OAuthToken} {tokens : Tokens}
    (hready : (Phase.replacing existing tokens).Ready s) :
    Moves s (.replacing existing tokens) (.database false)
      (afterWrite s (s.update existing.id tokens.accessToken
        (tokens.refreshToken.getD existing.refreshToken) tokens.expiryDate)) := by
  refine moves_write (fun hnone => ?_) fun s' hs => ⟨rejected_update hs, fun h => ?_⟩
  · intro hsome
    rw [Option.map_eq_none_iff.mp hnone] at hsome
    cases hsome
  · obtain ⟨row, hrow, -⟩ := Option.map_eq_some_iff.mp hs
    rw [consistent_update h hs]
    show (∀ row ∈ s.tokens.find existing.id, _ = refreshGrant (Option.getD (some _) _)) ↔
      ((s.tokens.find existing.id).isSome → _)
    rw [hrow]
    cases hrefresh : tokens.refreshToken with
    | none => simp
    | some r =>
      have hgrant := hready r hrefresh
      simp [hgrant]

/-- **The end of a wait.** -/
theorem moves_next {phase : Phase} {input : Input} {r : Store × Phase} (hready : phase.Ready s)
    (hallows : phase.allows input = true) (hs : phase.next s input = some r) :
    Moves s phase input r := by
  cases input with
  | google answer =>
    cases phase with
    | refreshing caller token =>
      cases hs
      exact moves_refresh hallows
    | exchanging =>
      cases hs
      exact moves_exchange hallows
    | _ => cases hs
  | database fails =>
    cases fails with
    | true =>
      -- the database has thrown: the table is as it was
      cases phase <;> cases hs <;> exact moves_same trivial nofun
    | false =>
      cases phase with
      | reading caller =>
        cases hs
        exact moves_same (ready_afterRead caller) fun _ => trivial
      | storing caller token tokens =>
        cases hs
        exact moves_store hready
      | removing caller token =>
        simp only [Phase.next, Bool.false_eq_true, if_false] at hs
        split at hs
        · rename_i s'' hdelete
          cases hs
          obtain ⟨row, -, rfl⟩ := Option.map_eq_some_iff.mp hdelete
          exact ⟨trivial, fun _ hr => hr,
            fun h => iff_of_true (consistent_filter h _) fun _ => trivial⟩
        · cases hs
          exact moves_same trivial fun _ => trivial
      | looking tokens =>
        cases hs
        exact moves_same (moves_look hready) fun _ => trivial
      | replacing existing tokens =>
        cases hs
        exact moves_replace hready
      | creating tokens refreshToken =>
        cases hs
        exact moves_write (fun _ => trivial) fun s' hcreate =>
          ⟨rejected_create hcreate, fun h => iff_of_true (consistent_create h hready hcreate)
            trivial⟩
      | disconnecting =>
        cases hs
        exact ⟨trivial, fun _ hr => hr,
          fun h => iff_of_true (consistent_filter h _) fun _ => trivial⟩
      | exchanging => cases hs
      | refreshing => cases hs
      | ended => cases hs

/-! ## Every run -/

/-- What a run keeps. -/
structure Inv (s : State) : Prop where
  consistent : Consistent s
  ready : ∀ phase ∈ s.calls, phase.Ready s.store

/-- **One step**: every call stays ready, and the table stays consistent iff the step fits. -/
theorem step_spec {s s' : State} {l : Label} (hready : ∀ phase ∈ s.calls, phase.Ready s.store)
    (hs : step s l = some s') :
    (∀ phase ∈ s'.calls, phase.Ready s'.store) ∧ (Consistent s → (Consistent s' ↔ Fits s l)) := by
  cases l with
  | request r =>
    cases hs
    refine ⟨fun phase hphase => ?_, fun h => iff_of_true h nofun⟩
    rcases List.mem_append.mp hphase with hold | hnew
    · exact hready phase hold
    · cases List.mem_singleton.mp hnew
      exact ready_start r
  | tick now =>
    cases hs
    exact ⟨fun phase hphase => (hready phase hphase).mono fun _ hr => hr,
      fun h => iff_of_true h nofun⟩
  | advance call input =>
    obtain ⟨phase, hphase, hs⟩ := Option.bind_eq_some_iff.mp hs
    obtain ⟨hget, hallows⟩ := Option.filter_eq_some_iff.mp hphase
    obtain ⟨⟨store, phase'⟩, hnext, hs⟩ := Option.bind_eq_some_iff.mp hs
    cases hs
    have hmoves := moves_next (hready phase (List.mem_of_getElem? hget)) hallows hnext
    refine ⟨fun other hother => ?_, fun h => (hmoves.consistent h).trans ?_⟩
    · rcases List.mem_or_eq_of_mem_set hother with hold | rfl
      · exact (hready other hold).mono hmoves.rejected
      · exact hmoves.ready
    · cases input with
      | google answer => exact iff_of_true nofun nofun
      | database fails =>
        cases fails with
        | true => exact iff_of_true nofun nofun
        | false =>
          have hwriting : writing s (.advance call (.database false)) = some phase := hget
          constructor
          · intro hfits other hother
            cases hwriting.symm.trans hother
            exact hfits rfl
          · exact fun hfits _ => hfits phase hwriting

theorem inv_initial (now : DateTime) : Inv (initial now) := ⟨nofun, nofun⟩

theorem inv_step {s s' : State} {l : Label} (hi : Inv s) (hfits : Fits s l)
    (hs : step s l = some s') : Inv s' :=
  ⟨((step_spec hi.ready hs).2 hi.consistent).mpr hfits, (step_spec hi.ready hs).1⟩

end System

/-! ## Overlapping calls -/

/-- Two grants: tokens that end in `2` are of the second. -/
@[reducible] def twoGrants : Google where
  Grant := Bool
  decEq := inferInstance
  accessGrant token := decide (token = "access-2")
  refreshGrant token := decide (token = "refresh-2")

/-- The tokens of a login. -/
def login (accessToken refreshToken : String) (expiryDate : DateTime) : Input :=
  .google (.credentials { accessToken, refreshToken, expiryDate := some expiryDate })

/-- A login, and then a machine's request that finds the access token expired. -/
def refreshing : List Label :=
  [.request (.callback (some "code-1")), .advance 0 (login "access-1" "refresh-1" 3600000),
    .advance 0 (.database false), .advance 0 (.database false), .tick 3600000,
    .request .credentials, .advance 1 (.database false)]

/-- Meanwhile another account logs in. -/
def relogin : List Label :=
  [.request (.callback (some "code-2")), .advance 2 (login "access-2" "refresh-2" 7200000),
    .advance 2 (.database false), .advance 2 (.database false)]

/-- The refresh of the first grant succeeds, and writes to the row of the second. -/
def mixing : List Label :=
  refreshing ++ relogin ++
    [.advance 1 (.google (.credentials { accessToken := "access-1", expiryDate := some 7200000 })),
      .advance 1 (.database false)]

/-- The refresh of the first grant is rejected, and the row of the second is deleted. -/
def destroying : List Label :=
  refreshing ++ relogin ++
    [.advance 1 (.google (.failure { error := "invalid_grant", message := "invalid_grant" })),
      .advance 1 (.database false)]

end Server.OAuth

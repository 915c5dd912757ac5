/-
  LOGGING IN (server/src/routes/web/auth.ts, and authenticateBrowser in
  server/src/middleware/auth.ts).

  Three places read the secret of the tokens.  `login` signs and `authenticateBrowser` verifies with
  the trimmed secret, `/status` with the secret as it stands.

  1. **Tokens** (`Jwt`): what is relied on of the library that signs and verifies them.

  2. **The header**: one place splits `Bearer …` at the space, another cuts `Bearer ` out; both find
     the token (`splitToken_bearer`, `cutBearer_bearer`).

  3. **What is accepted** (`status_bearer`, `authenticateBrowser_bearer`), of a token that `login`
     has issued.
-/
import Mathlib.Logic.Equiv.List
import Vorsight.Library.Js
import Vorsight.Server.Database

namespace Server.BrowserAuth

open Js

/-- `text.trim()` -/
def trim (text : String) : String :=
  .ofList ((text.toList.dropWhile isWhitespace).reverse.dropWhile isWhitespace).reverse

/-- The library `jsonwebtoken`, with the clock in seconds. -/
class Jwt where
  /-- the seconds that an `expiresIn` stands for; `none` is an exception -/
  lifetime : String → Option Nat
  /-- the token that is signed with a secret at a time, and expires at another -/
  sign : String → Int → Int → String
  /-- whether `verify` returns, for a token, a secret and a time -/
  verify : String → String → Int → Bool
  verify_sign : ∀ secret iat exp secret' now,
    verify (sign secret iat exp) secret' now = (secret' = secret && now < exp)
  /-- three texts in base64url with dots between them -/
  sign_ne : ∀ secret iat exp, sign secret iat exp ≠ ""
  sign_plain : ∀ secret iat exp, ∀ c ∈ (sign secret iat exp).toList, c ≠ ' '

/-- A token in unary: the expiry and the characters of the secret. -/
def signUnary (secret : String) (_ exp : Int) : String :=
  .ofList (.replicate (Encodable.encode
    (exp.toNat :: (-exp).toNat :: secret.toList.map Char.toNat) + 1) 'a')

def verifyUnary (token secret : String) (now : Int) : Bool :=
  match (Encodable.decode (token.length - 1) : Option (List Nat)) with
  | some (pos :: neg :: codes) => secret.toList.map Char.toNat = codes && now < (pos : Int) - neg
  | _ => false

theorem verify_unary (secret : String) (iat exp : Int) (secret' : String) (now : Int) :
    verifyUnary (signUnary secret iat exp) secret' now = (secret' = secret && now < exp) := by
  have hexp : max exp 0 - max (-exp) 0 = exp := by omega
  have hsecret : secret'.toList.map Char.toNat = secret.toList.map Char.toNat ↔
      secret' = secret := by
    rw [(List.map_injective_iff.mpr fun _ _ => Char.toNat_inj.mp).eq_iff, String.toList_inj]
  simp [verifyUnary, signUnary, hexp, hsecret]

theorem signUnary_ne (secret : String) (iat exp : Int) : signUnary secret iat exp ≠ "" := by
  intro h
  have hlength := congrArg String.length h
  simp [signUnary] at hlength

theorem signUnary_plain (secret : String) (iat exp : Int) :
    ∀ c ∈ (signUnary secret iat exp).toList, c ≠ ' ' := by
  intro c hc
  rw [signUnary, String.toList_ofList] at hc
  rw [(List.mem_replicate.mp hc).2]
  decide

@[reducible] def unary : Jwt where
  lifetime text := if text = "30d" then some 2592000 else none
  sign := signUnary
  verify := verifyUnary
  verify_sign := verify_unary
  sign_ne := signUnary_ne
  sign_plain := signUnary_plain

/-- `process.env` -/
structure Env where
  jwtSecret : Option String := none
  jwtExpiration : Option String := none
  webPassphrase : Option String := none
deriving DecidableEq, Repr

/-- `process.env.JWT_SECRET || 'vorsight-secret-key-change-me'`. -/
def Env.secret (env : Env) : String := textOr env.jwtSecret "vorsight-secret-key-change-me"

def Env.validPassword (env : Env) : String := textOr env.webPassphrase "admin"

def Env.expiresIn (env : Env) : String := textOr env.jwtExpiration "30d"

/-! ## The routes -/

section Routes

variable [Jwt]

/-- `jwt.sign`; `none` is an exception, as with an empty secret. -/
def jwtSign (secret : String) (now : Int) (expiresIn : String) : Option String :=
  if secret = "" then none
  else (Jwt.lifetime expiresIn).map fun seconds => Jwt.sign secret now (now + seconds)

/-- `jwt.verify` -/
def jwtVerify (token secret : String) (now : Int) : Bool :=
  secret ≠ "" && Jwt.verify token secret now

/-- `router.post('/login')`, with the token. -/
def login (env : Env) (now : Int) (passphrase : String) : Response String :=
  if passphrase ≠ "" ∧ trim passphrase = trim env.validPassword then
    match jwtSign (trim env.secret) now env.expiresIn with
    | some token => .json token
    | none => .error 500 "Login failed"
  else .error 401 "Invalid password"

/-- `authHeader.split(' ')[1]` -/
def splitToken (authHeader : String) : Option String :=
  ((authHeader.toList.splitOn ' ')[1]?).map String.ofList

/-- `router.get('/status')`: the status code, and `authenticated`. -/
def status (env : Env) (now : Int) (authorization : Option String) : Nat × Bool :=
  match authorization.filter (· ≠ "") with
  | none => (401, false)
  | some authHeader =>
    match (splitToken authHeader).filter (· ≠ "") with
    | none => (401, false)
    | some token => if jwtVerify token env.secret now then (200, true) else (403, false)

/-- The text without the first `part` in it. -/
def cut (part : List Char) : List Char → List Char
  | [] => []
  | c :: cs => if part.isPrefixOf (c :: cs) then (c :: cs).drop part.length else c :: cut part cs

/-- `header.replace('Bearer ', '')` -/
def cutBearer (header : String) : String := .ofList (cut "Bearer ".toList header.toList)

/-- `authenticateBrowser`, with the route it guards. -/
def authenticateBrowser {α : Type} (env : Env) (now : Int) (authorization : Option String)
    (route : Response α) : Response α :=
  match (authorization.map cutBearer).filter (· ≠ "") with
  | none => .error 401 "Access denied. No token provided."
  | some token =>
    if jwtVerify token (trim env.secret) now then route else .error 400 "Invalid token."

end Routes

theorem textOr_ne {other : String} (h : other ≠ "") (text : Option String) :
    textOr text other ≠ "" := by
  cases text with
  | none => exact h
  | some text =>
    by_cases hempty : text = ""
    · subst hempty
      exact h
    · simp [textOr, hempty]

theorem validPassword_ne (env : Env) : env.validPassword ≠ "" := textOr_ne (by decide) _

/-! ## The header -/

/-- The header of the dashboard's requests. -/
def bearer (token : String) : String := "Bearer " ++ token

theorem bearer_ne (token : String) : bearer token ≠ "" := by
  intro h
  have htoList := congrArg String.toList h
  simp [bearer] at htoList

/-- A text that is there is not taken for a missing one. -/
theorem filter_ne {text : String} (h : text ≠ "") :
    (some text).filter (· ≠ "") = some text := by
  simpa [Option.filter] using h

theorem splitToken_bearer {token : String} (h : ∀ c ∈ token.toList, c ≠ ' ') :
    splitToken (bearer token) = some token := by
  have hsplit : (bearer token).toList.splitOn ' ' = ["Bearer".toList, token.toList] := by
    rw [show (bearer token).toList = "Bearer".toList ++ ' ' :: token.toList by simp [bearer],
      List.splitOn, List.splitOnP_append_cons_of_forall_mem (by simp) ' ' (by decide),
      List.splitOnP_eq_singleton]
    intro c hc
    simpa using h c hc
  rw [splitToken, hsplit]
  simp

theorem cutBearer_bearer (token : String) : cutBearer (bearer token) = token := by
  have hcut : cut "Bearer ".toList (bearer token).toList = token.toList := by
    rw [show (bearer token).toList = "Bearer ".toList ++ token.toList by simp [bearer]]
    show cut "Bearer ".toList ('B' :: ("earer ".toList ++ token.toList)) = token.toList
    rw [cut, if_pos]
    · rfl
    · rfl
  rw [cutBearer, hcut, String.ofList_toList]

/-! ## What is accepted -/

section Accepted

variable [Jwt] {env : Env} {now : Int}

/-- A token that the server has issued. -/
def Issued (env : Env) (token : String) : Prop :=
  trim env.secret ≠ "" ∧ ∃ iat exp, token = Jwt.sign (trim env.secret) iat exp

theorem issued_of_login {passphrase token : String}
    (h : login env now passphrase = .json token) : Issued env token := by
  rw [login] at h
  split at h
  · split at h
    · next signed hsign =>
      cases h
      rw [jwtSign] at hsign
      split at hsign
      · cases hsign
      · next hne =>
        obtain ⟨seconds, -, rfl⟩ := Option.map_eq_some_iff.mp hsign
        exact ⟨hne, now, now + seconds, rfl⟩
    · cases h
  · cases h

theorem Issued.ne {token : String} (h : Issued env token) : token ≠ "" := by
  obtain ⟨-, iat, exp, rfl⟩ := h
  exact Jwt.sign_ne _ iat exp

/-- The token of a request is found by `/status`, and tried with the secret as it stands. -/
theorem status_bearer {token : String} (h : Issued env token) :
    status env now (some (bearer token)) =
      if jwtVerify token env.secret now then (200, true) else (403, false) := by
  have hplain : ∀ c ∈ token.toList, c ≠ ' ' := by
    obtain ⟨-, iat, exp, rfl⟩ := h
    exact Jwt.sign_plain _ iat exp
  rw [status, filter_ne (bearer_ne token)]
  show (match (splitToken (bearer token)).filter (· ≠ "") with
    | none => _
    | some token => _) = _
  rw [splitToken_bearer hplain, filter_ne h.ne]

/-- The middleware finds the same token, and tries it with the trimmed secret. -/
theorem authenticateBrowser_bearer {α : Type} {token : String} (h : Issued env token)
    (route : Response α) : authenticateBrowser env now (some (bearer token)) route =
      if jwtVerify token (trim env.secret) now then route else .error 400 "Invalid token." := by
  rw [authenticateBrowser, Option.map_some, cutBearer_bearer, filter_ne h.ne]

/-- An issued token is verified with the trimmed secret until it expires. -/
theorem verify_trimmed {iat exp : Int} (hne : trim env.secret ≠ "") :
    jwtVerify (Jwt.sign (trim env.secret) iat exp) (trim env.secret) now = decide (now < exp) := by
  simp [jwtVerify, Jwt.verify_sign, hne]

/-- It is never verified with another secret. -/
theorem not_verify_of_ne {token : String} (h : Issued env token)
    (hne : trim env.secret ≠ env.secret) : jwtVerify token env.secret now = false := by
  obtain ⟨-, iat, exp, rfl⟩ := h
  simp [jwtVerify, Jwt.verify_sign, Ne.symm hne]

end Accepted

end Server.BrowserAuth

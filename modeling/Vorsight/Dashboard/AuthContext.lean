/-
  THE DASHBOARD'S SESSION (client/src/context/AuthContext.tsx and lib/axios.ts), with the server
  that answers it.

  A token is kept in the local storage and in the component.  Whenever the component's token changes
  it is checked with `/auth/status`; the answer may come when the token is long another.

  1. **Program** — `step`: logins, checks, logouts and reloads of the page, with the answers of the
     server in any order and any of them lost.

  2. **Staying logged in** (`stays_logged_in_iff`): what the API accepts, `/status` accepts, and the
     user stays logged in, exactly when the secret of the tokens has no space around it.  With space
     around it nobody is logged in once the checks are answered (`locked_out`).

  3. **Logged in with a token** (`authenticated_iff`): the dashboard is shown only with a token
     exactly when no check succeeds whose token is gone.
-/
import Vorsight.Library.Run
import Vorsight.Server.BrowserAuth

namespace Dashboard.AuthContext

open Runs Server Server.BrowserAuth

structure State where
  /-- the server's clock, in seconds -/
  now : Int
  /-- `auth_token` in the local storage -/
  storage : Option String := none
  token : Option String := none
  isAuthenticated : Bool := false
  isLoading : Bool := false
  /-- the passphrases of the logins that are not answered -/
  logins : List String := []
  /-- the headers of the checks that are not answered -/
  statuses : List (Option String) := []
deriving DecidableEq, Repr

inductive Step
  | reload
  | submit (passphrase : String)
  /-- a login is answered, or it fails on the way -/
  | loginAnswer (i : Nat)
  | loginLost (i : Nat)
  | statusAnswer (i : Nat)
  | statusLost (i : Nat)
  | logout
  | tick (seconds : Nat)
deriving DecidableEq, Repr

/-- The `Authorization` that the request interceptor adds. -/
def authorization (s : State) : Option String :=
  (s.storage.filter (· ≠ "")).map bearer

/-- The effect that runs with the component's token. -/
def effect (s : State) : State :=
  if (s.token.filter (· ≠ "")).isSome then { s with statuses := s.statuses ++ [authorization s] }
  else { s with isLoading := false }

/-- The next render: the effect runs if it is another token. -/
def render (s s' : State) : State := if s'.token = s.token then s' else effect s'

/-- The page is loaded: the component begins with what is stored. -/
def mount (s : State) : State :=
  effect { now := s.now, storage := s.storage, token := s.storage, isLoading := true }

/-- The login's answer has this token. -/
def loggedIn (s : State) (token : String) : State :=
  render s { s with storage := some token, token := some token, isAuthenticated := true }

/-- `.then` of a check. -/
def checked (s : State) (authenticated : Bool) : State :=
  { s with isAuthenticated := authenticated, isLoading := false }

/-- `.catch` of a check. -/
def rejected (s : State) : State :=
  render s { s with isAuthenticated := false, token := none, storage := none, isLoading := false }

def logout (s : State) : State :=
  render s { s with storage := none, token := none, isAuthenticated := false }

section Program

variable [Jwt] (env : Env)

/-- A check is answered; an error status rejects it. -/
def answered (s : State) (header : Option String) : State :=
  match status env s.now header with
  | (200, authenticated) => checked s authenticated
  | _ => rejected s

def step (s : State) : Step → Option State
  | .reload => some (mount s)
  | .submit passphrase => some { s with logins := s.logins ++ [passphrase] }
  | .loginAnswer i =>
    (s.logins[i]?).map fun passphrase =>
      let s' := { s with logins := s.logins.eraseIdx i }
      match login env s.now passphrase with
      | .json token => loggedIn s' token
      | .error _ _ => s'
  | .loginLost i => (s.logins[i]?).map fun _ => { s with logins := s.logins.eraseIdx i }
  | .statusAnswer i =>
    (s.statuses[i]?).map fun header =>
      answered env { s with statuses := s.statuses.eraseIdx i } header
  | .statusLost i =>
    (s.statuses[i]?).map fun _ => rejected { s with statuses := s.statuses.eraseIdx i }
  | .logout => some (logout s)
  | .tick seconds => some { s with now := s.now + seconds }

end Program

/-- A browser that has never been at the dashboard. -/
def fresh (now : Int) : State := { now := now }

/-! ## What a step does to the session -/

@[simp] theorem effect_token (s : State) : (effect s).token = s.token := by
  unfold effect
  split <;> rfl

@[simp] theorem effect_storage (s : State) : (effect s).storage = s.storage := by
  unfold effect
  split <;> rfl

@[simp] theorem effect_isAuthenticated (s : State) :
    (effect s).isAuthenticated = s.isAuthenticated := by
  unfold effect
  split <;> rfl

@[simp] theorem render_token (s s' : State) : (render s s').token = s'.token := by
  unfold render
  split
  · rfl
  · exact effect_token s'

@[simp] theorem render_storage (s s' : State) : (render s s').storage = s'.storage := by
  unfold render
  split
  · rfl
  · exact effect_storage s'

@[simp] theorem render_isAuthenticated (s s' : State) :
    (render s s').isAuthenticated = s'.isAuthenticated := by
  unfold render
  split
  · rfl
  · exact effect_isAuthenticated s'

/-- The effect sends at most one check, with the token that is stored. -/
theorem mem_effect_statuses {s : State} {header : Option String}
    (h : header ∈ (effect s).statuses) : header ∈ s.statuses ∨
      (s.token.isSome = true ∧ header = authorization s) := by
  unfold effect at h
  split at h
  · next hsome =>
    rcases List.mem_append.mp h with h | h
    · exact .inl h
    · refine .inr ⟨?_, List.mem_singleton.mp h⟩
      cases htoken : s.token with
      | none => simp [htoken] at hsome
      | some token => rfl
  · exact .inl h

theorem mem_render_statuses {s s' : State} {header : Option String}
    (h : header ∈ (render s s').statuses) : header ∈ s'.statuses ∨
      (s'.token.isSome = true ∧ header = authorization s') := by
  unfold render at h
  split at h
  · exact .inl h
  · exact mem_effect_statuses h

/-- A check is under way once the effect has run with a token. -/
theorem effect_statuses_ne {s : State} {token : String} (htoken : s.token = some token)
    (hne : token ≠ "") : (effect s).statuses ≠ [] := by
  unfold effect
  rw [htoken, filter_ne hne]
  simp

/-- A session lasts only while a check is under way. -/
def Doomed (s : State) : Prop :=
  s.isAuthenticated = true ∨ s.token.isSome = true → s.statuses ≠ []

/-- After a render with an issued token, where a session was doomed, it is so again. -/
theorem render_statuses_ne {s s' : State} {token : String} (h : Doomed s)
    (hstatuses : s'.statuses = s.statuses) (htoken : s'.token = some token) (hne : token ≠ "") :
    (render s s').statuses ≠ [] := by
  unfold render
  split
  · next hsame =>
    rw [hstatuses]
    exact h (.inr (by rw [← hsame, htoken]; rfl))
  · exact effect_statuses_ne htoken hne

theorem doomed_of_none {s : State} (hauth : s.isAuthenticated = false) (htoken : s.token = none) :
    Doomed s := by
  rintro (h | h)
  · rw [hauth] at h
    cases h
  · rw [htoken] at h
    cases h

section Session

variable [Jwt] {env : Env}

/-- What is stored is the component's token, and every token has been issued by the server. -/
structure Synced (env : Env) (s : State) : Prop where
  storage : s.storage = s.token
  issued : ∀ token, s.token = some token → Issued env token
  statuses : ∀ header ∈ s.statuses, ∃ token, Issued env token ∧ header = some (bearer token)

theorem authorization_of_issued {s : State} {token : String} (hstorage : s.storage = some token)
    (h : Issued env token) : authorization s = some (bearer token) := by
  rw [authorization, hstorage, filter_ne h.ne, Option.map_some]

theorem Synced.effect {s : State} (h : Synced env s) : Synced env (effect s) where
  storage := by rw [effect_storage, effect_token, h.storage]
  issued := by
    rw [effect_token]
    exact h.issued
  statuses := by
    intro header hheader
    rcases mem_effect_statuses hheader with hold | ⟨hsome, hnew⟩
    · exact h.statuses header hold
    · obtain ⟨token, htoken⟩ := Option.isSome_iff_exists.mp hsome
      have hissued := h.issued token htoken
      refine ⟨token, hissued, ?_⟩
      rw [hnew, authorization_of_issued (h.storage.trans htoken) hissued]

theorem Synced.render {s s' : State} (h : Synced env s') : Synced env (render s s') := by
  unfold AuthContext.render
  split
  · exact h
  · exact h.effect

/-- Fewer checks under way, and anything about the logins, the clock and the flags. -/
theorem Synced.of_eq {s s' : State} (h : Synced env s) (hstorage : s'.storage = s.storage)
    (htoken : s'.token = s.token) (hstatuses : s'.statuses ⊆ s.statuses) : Synced env s' where
  storage := by rw [hstorage, htoken, h.storage]
  issued := by
    rw [htoken]
    exact h.issued
  statuses := fun header hheader => h.statuses header (hstatuses hheader)

/-- Without a token. -/
theorem Synced.cleared {s s' : State} (h : Synced env s) (hstorage : s'.storage = none)
    (htoken : s'.token = none) (hstatuses : s'.statuses ⊆ s.statuses) : Synced env s' where
  storage := by rw [hstorage, htoken]
  issued := by simp [htoken]
  statuses := fun header hheader => h.statuses header (hstatuses hheader)

theorem answered_or (s : State) (header : Option String) :
    (∃ authenticated, answered env s header = checked s authenticated) ∨
      answered env s header = rejected s := by
  unfold answered
  split
  · next authenticated _ => exact .inl ⟨authenticated, rfl⟩
  · exact .inr rfl

/-- A check with an issued token is answered by the secret as it stands. -/
theorem answered_bearer {s : State} {token : String} (h : Issued env token) :
    answered env s (some (bearer token)) =
      if jwtVerify token env.secret s.now then checked s true else rejected s := by
  rw [answered, status_bearer h]
  by_cases hverify : jwtVerify token env.secret s.now = true
  · rw [if_pos hverify, if_pos hverify]
    rfl
  · rw [if_neg hverify, if_neg hverify]
    rfl

theorem Synced.rejected {s : State} (h : Synced env s) : Synced env (rejected s) := by
  unfold AuthContext.rejected
  exact Synced.render (h.cleared rfl rfl (List.Subset.refl _))

theorem synced_step {s s' : State} {a : Step} (h : Synced env s) (hs : step env s a = some s') :
    Synced env s' := by
  cases a with
  | reload =>
    cases hs
    refine Synced.effect ⟨rfl, fun token htoken => ?_, by simp⟩
    exact h.issued token (h.storage ▸ htoken)
  | submit passphrase =>
    cases hs
    exact h.of_eq rfl rfl (List.Subset.refl _)
  | loginAnswer i =>
    obtain ⟨passphrase, -, rfl⟩ := Option.map_eq_some_iff.mp hs
    split
    · next token hlogin =>
      refine Synced.render ⟨rfl, fun t ht => ?_, h.statuses⟩
      cases ht
      exact issued_of_login hlogin
    · exact h.of_eq rfl rfl (List.Subset.refl _)
  | loginLost i =>
    obtain ⟨passphrase, -, rfl⟩ := Option.map_eq_some_iff.mp hs
    exact h.of_eq rfl rfl (List.Subset.refl _)
  | statusAnswer i =>
    obtain ⟨header, -, rfl⟩ := Option.map_eq_some_iff.mp hs
    have hrest : Synced env { s with statuses := s.statuses.eraseIdx i } :=
      h.of_eq rfl rfl List.eraseIdx_subset
    have hor := @answered_or _ env { s with statuses := s.statuses.eraseIdx i } header
    rcases hor with ⟨authenticated, heq⟩ | heq
    · rw [heq]
      exact hrest.of_eq rfl rfl (List.Subset.refl _)
    · rw [heq]
      exact hrest.rejected
  | statusLost i =>
    obtain ⟨header, -, rfl⟩ := Option.map_eq_some_iff.mp hs
    have hrest : Synced env { s with statuses := s.statuses.eraseIdx i } :=
      h.of_eq rfl rfl List.eraseIdx_subset
    exact hrest.rejected
  | logout =>
    cases hs
    exact Synced.render (h.cleared rfl rfl (List.Subset.refl _))
  | tick seconds =>
    cases hs
    exact h.of_eq rfl rfl (List.Subset.refl _)

theorem synced_fresh (now : Int) : Synced env (fresh now) := ⟨rfl, by simp [fresh], by simp [fresh]⟩

/-! ## Staying logged in -/

/-- A check is answered while the API still accepts its token. -/
def InTime (env : Env) (s : State) : Step → Prop
  | .statusAnswer i => ∀ header, s.statuses[i]? = some header →
      authenticateBrowser env s.now header (.json ()) = .json ()
  | .statusLost _ => False
  | _ => True

/-- Only a logout takes the token, and only a reload makes the user wait for a check. -/
def Kept (s : State) (a : Step) (s' : State) : Prop :=
  s.token.isSome → a = .logout ∨
    (s'.token.isSome ∧ (s.isAuthenticated → a = .reload ∨ s'.isAuthenticated))

/-- Tokens are issued at all, and are valid for some time. -/
def Issues (env : Env) : Prop :=
  trim env.secret ≠ "" ∧ ∃ seconds, 0 < seconds ∧ Jwt.lifetime env.expiresIn = some seconds

/-- A check that is answered in time succeeds when the secret is the trimmed one. -/
theorem answered_inTime {s : State} {i : Nat} {header : Option String} (h : Synced env s)
    (htrim : trim env.secret = env.secret) (hi : s.statuses[i]? = some header)
    (htime : InTime env s (.statusAnswer i)) :
    answered env { s with statuses := s.statuses.eraseIdx i } header =
      checked { s with statuses := s.statuses.eraseIdx i } true := by
  obtain ⟨token, hissued, rfl⟩ := h.statuses header (List.mem_of_getElem? hi)
  have haccepted := htime _ hi
  rw [authenticateBrowser_bearer hissued, htrim] at haccepted
  have hverify : jwtVerify token env.secret s.now = true := by
    by_contra hnot
    rw [if_neg hnot] at haccepted
    cases haccepted
  rw [answered_bearer hissued, if_pos hverify]

theorem kept_step {s s' : State} {a : Step} (h : Synced env s)
    (htrim : trim env.secret = env.secret) (htime : InTime env s a)
    (hs : step env s a = some s') : Kept s a s' := by
  intro htoken
  cases a with
  | reload =>
    cases hs
    refine .inr ⟨?_, fun _ => .inl rfl⟩
    show (effect _).token.isSome = true
    rw [effect_token]
    exact h.storage ▸ htoken
  | submit passphrase =>
    cases hs
    exact .inr ⟨htoken, .inr⟩
  | loginAnswer i =>
    obtain ⟨passphrase, -, rfl⟩ := Option.map_eq_some_iff.mp hs
    refine .inr ?_
    split
    · next token hlogin => exact ⟨by simp [loggedIn], fun _ => .inr (by simp [loggedIn])⟩
    · exact ⟨htoken, .inr⟩
  | loginLost i =>
    obtain ⟨passphrase, -, rfl⟩ := Option.map_eq_some_iff.mp hs
    exact .inr ⟨htoken, .inr⟩
  | statusAnswer i =>
    obtain ⟨header, hi, rfl⟩ := Option.map_eq_some_iff.mp hs
    refine .inr ?_
    rw [answered_inTime h htrim hi htime]
    exact ⟨htoken, fun _ => .inr rfl⟩
  | statusLost i => exact htime.elim
  | logout => exact .inl rfl
  | tick seconds =>
    cases hs
    exact .inr ⟨htoken, .inr⟩

/-- The first login: the token is stored, and its check is under way. -/
theorem loggedIn_fresh {now : Int} {token : String} (h : Issued env token) :
    loggedIn (fresh now) token =
      ⟨now, some token, some token, true, false, [], [some (bearer token)]⟩ := by
  have hsome : ((some token).filter (· ≠ "")).isSome = true := by rw [filter_ne h.ne]; rfl
  have hchanged : some token ≠ (fresh now).token := by simp [fresh]
  rw [loggedIn, render, if_neg hchanged, effect, if_pos hsome, authorization, filter_ne h.ne]
  rfl

theorem run_login {now : Int} {seconds : Nat} (hne : trim env.secret ≠ "")
    (hseconds : Jwt.lifetime env.expiresIn = some seconds) :
    run (step env) (fresh now) [.submit env.validPassword, .loginAnswer 0] =
      some (loggedIn (fresh now) (Jwt.sign (trim env.secret) now (now + seconds))) := by
  have hlogin : login env now env.validPassword =
      .json (Jwt.sign (trim env.secret) now (now + seconds)) := by
    simp [login, validPassword_ne, jwtSign, hne, hseconds]
  simp [run, step, fresh, hlogin]

theorem doomed_step {s s' : State} {a : Step} (hspace : trim env.secret ≠ env.secret)
    (h : Synced env s) (hd : Doomed s) (hs : step env s a = some s') : Doomed s' := by
  cases a with
  | reload =>
    cases hs
    intro hsome
    simp only [mount, effect_isAuthenticated, Bool.false_eq_true, false_or, effect_token] at hsome
    obtain ⟨token, htoken⟩ := Option.isSome_iff_exists.mp hsome
    exact effect_statuses_ne htoken (h.issued token (h.storage ▸ htoken)).ne
  | submit passphrase =>
    cases hs
    exact hd
  | loginAnswer i =>
    obtain ⟨passphrase, -, rfl⟩ := Option.map_eq_some_iff.mp hs
    split
    · next token hlogin =>
      intro _
      exact render_statuses_ne (s := { s with logins := s.logins.eraseIdx i }) hd rfl rfl
        (issued_of_login hlogin).ne
    · exact hd
  | loginLost i =>
    obtain ⟨passphrase, -, rfl⟩ := Option.map_eq_some_iff.mp hs
    exact hd
  | statusAnswer i =>
    obtain ⟨header, hi, rfl⟩ := Option.map_eq_some_iff.mp hs
    obtain ⟨token, hissued, rfl⟩ := h.statuses header (List.mem_of_getElem? hi)
    rw [answered_bearer hissued, not_verify_of_ne hissued hspace]
    exact doomed_of_none (by simp [rejected]) (by simp [rejected])
  | statusLost i =>
    obtain ⟨header, -, rfl⟩ := Option.map_eq_some_iff.mp hs
    exact doomed_of_none (by simp [rejected]) (by simp [rejected])
  | logout =>
    cases hs
    exact doomed_of_none (by simp [logout]) (by simp [logout])
  | tick seconds =>
    cases hs
    exact hd

/-- **With space around the secret** everybody is logged out again: in every run, whatever is lost
    on the way, there is no session and no token once all checks are answered. -/
theorem locked_out (hspace : trim env.secret ≠ env.secret) {now : Int} {as : List Step} {s : State}
    (h : run (step env) (fresh now) as = some s) (hanswered : s.statuses = []) :
    s.isAuthenticated = false ∧ s.token = none ∧ s.storage = none := by
  have hinv : Synced env s ∧ Doomed s := by
    refine inv_of_run (I := fun s => Synced env s ∧ Doomed s)
      (fun _ _ _ hi hs => ⟨synced_step hi.1 hs, doomed_step hspace hi.1 hi.2 hs⟩) ?_ h
    exact ⟨synced_fresh now, doomed_of_none rfl rfl⟩
  have hnone : ¬ (s.isAuthenticated = true ∨ s.token.isSome = true) :=
    fun hsession => hinv.2 hsession hanswered
  rw [not_or, Bool.not_eq_true, Bool.not_eq_true, Option.isSome_eq_false_iff,
    Option.isNone_iff_eq_none] at hnone
  exact ⟨hnone.1, hnone.2, hinv.1.storage.trans hnone.2⟩

/-- The first login and its check. -/
theorem run_check {now : Int} {seconds : Nat} (hne : trim env.secret ≠ "")
    (hspace : trim env.secret ≠ env.secret)
    (hseconds : Jwt.lifetime env.expiresIn = some seconds) :
    ∃ s, run (step env) (fresh now)
        ([.submit env.validPassword, .loginAnswer 0] ++ [.statusAnswer 0]) = some s ∧
      s.statuses = [] := by
  have hissued : Issued env (Jwt.sign (trim env.secret) now (now + seconds)) := ⟨hne, _, _, rfl⟩
  have hlogin := @run_login _ env now seconds hne hseconds
  rw [loggedIn_fresh hissued] at hlogin
  generalize Jwt.sign (trim env.secret) now (now + seconds) = token at hlogin hissued
  refine ⟨_, run_append_eq_some.mpr ⟨_, hlogin, rfl⟩, ?_⟩
  show (answered env _ (some (bearer token))).statuses = []
  rw [answered_bearer hissued, not_verify_of_ne hissued hspace]
  simp [rejected, render, effect]

omit [Jwt] in
/-- A newline after the secret. -/
theorem locked_out_newline :
    let env : Env := { jwtSecret := some "secret\n" }
    ∃ s, run (@step unary env) (fresh 0) [.submit "admin", .loginAnswer 0, .statusAnswer 0] =
        some s ∧ s.isAuthenticated = false ∧ s.token = none ∧ s.storage = none := by
  intro env
  have hspace : trim env.secret ≠ env.secret := by decide +kernel
  obtain ⟨s, hrun, hanswered⟩ := @run_check unary env 0 2592000 (by decide +kernel) hspace rfl
  exact ⟨s, hrun, @locked_out unary env hspace 0 _ s hrun hanswered⟩

/-! ## A session without a token -/

/-- The check that is answered does not succeed after its token has been removed. -/
def NotGone (env : Env) (s : State) : Step → Prop
  | .statusAnswer i => ∀ header, s.statuses[i]? = some header →
      (status env s.now header).1 = 200 → s.token.isSome = true
  | _ => True

/-- The dashboard is shown with a token only. -/
def WithToken (s : State) : Prop := s.isAuthenticated = true → s.token.isSome = true

/-- A session begins with a login's token, or with a check that succeeds. -/
theorem withToken_iff_of_step {s s' : State} {a : Step} (h : Synced env s) (hw : WithToken s)
    (hs : step env s a = some s') : WithToken s' ↔ NotGone env s a := by
  cases a with
  | reload =>
    cases hs
    simp [WithToken, NotGone, mount]
  | submit passphrase =>
    cases hs
    exact iff_of_true hw trivial
  | loginAnswer i =>
    obtain ⟨passphrase, -, rfl⟩ := Option.map_eq_some_iff.mp hs
    simp only [NotGone, iff_true]
    split
    · simp [WithToken, loggedIn]
    · exact hw
  | loginLost i =>
    obtain ⟨passphrase, -, rfl⟩ := Option.map_eq_some_iff.mp hs
    exact iff_of_true hw trivial
  | statusAnswer i =>
    obtain ⟨header, hi, rfl⟩ := Option.map_eq_some_iff.mp hs
    obtain ⟨token, hissued, rfl⟩ := h.statuses header (List.mem_of_getElem? hi)
    simp only [NotGone, hi, Option.some.injEq, forall_eq', status_bearer hissued]
    rw [answered_bearer hissued]
    by_cases hverify : jwtVerify token env.secret s.now = true
    · simp [hverify, WithToken, checked]
    · simp [hverify, WithToken, rejected]
  | statusLost i =>
    obtain ⟨header, -, rfl⟩ := Option.map_eq_some_iff.mp hs
    simp [WithToken, NotGone, rejected]
  | logout =>
    cases hs
    simp [WithToken, NotGone, logout]
  | tick seconds =>
    cases hs
    exact iff_of_true hw trivial

end Session

end Dashboard.AuthContext

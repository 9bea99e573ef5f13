import Hueplusplus.Bridge.Calls

/-!
# Whether granted credentials are kept

`requestUsername` stores the username, constructs the caches anew, which asks the bridge for
its whole state, and only then stores the client key. So the key is lost exactly if that
request fails.
-/

namespace Hueplusplus

open Effect

namespace Exchange

/-- The reply of a request for a username that grants these credentials. -/
def Grants (e : Exchange) (username clientkey : String) : Prop :=
  e.verb = .post ∧ ∃ answer, e.reply = .ok answer ∧
    Utils.safeGetMember answer 0 ["success", "username"] = .str username ∧
    Utils.safeGetMember answer 0 ["success", "clientkey"] = .str clientkey

/-- Likewise, whatever it says about a client key. -/
def GrantsUsername (e : Exchange) (username : String) : Prop :=
  e.verb = .post ∧ ∃ answer, e.reply = .ok answer ∧
    Utils.safeGetMember answer 0 ["success", "username"] = .str username

theorem Grants.username {e : Exchange} {u k : String} (granted : e.Grants u k) :
    e.GrantsUsername u := by
  obtain ⟨post, answer, replied, user, -⟩ := granted
  exact ⟨post, answer, replied, user⟩

theorem not_grantsUsername_of_get {e : Exchange} (get : e.verb = .get) (u : String) :
    ¬ e.GrantsUsername u := by
  rintro ⟨post, -⟩
  rw [post] at get
  cases get

theorem GrantsUsername.unique {e : Exchange} {u v : String} (first : e.GrantsUsername u)
    (second : e.GrantsUsername v) : u = v := by
  obtain ⟨-, answer, replied, user⟩ := first
  obtain ⟨-, answer', replied', user'⟩ := second
  obtain rfl := Except.ok.inj (replied.symm.trans replied')
  exact Json.str.inj (user.symm.trans user')

/-- What the bridge answers to a request of its whole state that follows this call. -/
def stateReply (e : Exchange) (handler : IHttpHandler) (username : String) :
    Except Exception Json :=
  (HueCommandAPI.after { ip := e.ip, port := e.port, username, httpHandler := handler }
    (e.number + 1)).getRequest "" (.obj [])

end Exchange

namespace Bridge

variable (clock : ℕ → ℤ) (b : Bridge)

/-- The bridge with new caches, before they are refreshed. -/
def rebuilt (handler : IHttpHandler) : Bridge :=
  let commands : HueCommandAPI :=
    { ip := b.ip, port := b.port, username := b.username, httpHandler := handler }
  { b with
    httpHandler := handler
    commands := fun _ => commands
    lightFactory := commands
    caches :=
      { b.caches with
        cache := emptyCaches b.refreshDuration b.refreshDuration
        fetched := []
        history := [] } }

theorem uniform_rebuilt (handler : IHttpHandler) : (b.rebuilt handler).Uniform := fun _ => rfl

theorem refresh_root_outcome (env : CacheEnv) (s : Caches) :
    (result (APICache.refresh env []) s).1 = (APICache.reply env s [] >>= fun _ => .ok ()) := by
  rw [APICache.result_refresh_root]
  cases APICache.reply env s [] <;> rfl

/-- The answer to a request of the whole state by the commands of the caches. -/
def stateReply : Except Exception Json :=
  ((b.commands []).after b.exchanges.length).getRequest "" (.obj [])

/-- The new caches are refreshed by one request of the whole state. -/
theorem result_setHttpHandler (handler : IHttpHandler) :
    ∃ new caches, new ≠ [] ∧
      (∀ e ∈ new, e.Through (b.rebuilt handler) ((b.rebuilt handler).commands []) .get) ∧
      result (setHttpHandler clock handler) b =
        ((b.rebuilt handler).stateReply >>= fun _ => .ok (),
          { b.rebuilt handler with caches, exchanges := new ++ b.exchanges }) := by
  let start := b.rebuilt handler
  obtain ⟨new, made, through, mirrors⟩ :=
    mirrors_refreshCache clock (b.uniform_rebuilt handler) []
  refine ⟨new, (result (APICache.refresh (start.cacheEnv clock) []) start.caches).2, made,
    through, mirrors.trans ?_⟩
  rw [refresh_root_outcome]
  rfl

/-- The username is stored before the request of the whole state, the client key after it. -/
theorem result_storeCredentials (username : String) (jsonKey : Json) :
    ∃ outcome final new,
      result (storeCredentials clock username jsonKey) b = (outcome, final) ∧
      final.exchanges = new ++ b.exchanges ∧ (∀ e ∈ new, e.verb = .get) ∧
      final.username = username ∧
      ∀ k, jsonKey = .str k → (final.clientkey = k ↔
        b.clientkey = k ∨
          ∃ json, ({ b with username }.rebuilt b.httpHandler).stateReply = .ok json) := by
  let renamed : Bridge := { b with username }
  obtain ⟨new, caches, -, through, rebuilt⟩ := renamed.result_setHttpHandler clock b.httpHandler
  have gets : ∀ e ∈ new, e.verb = .get := fun e member => (through e member).2.1
  have ran : result (storeCredentials clock username jsonKey) b =
      result (setHttpHandler clock b.httpHandler >>= fun _ => do
        if jsonKey ≠ .null then
          let clientkey ← Effect.ofExcept jsonKey.getString
          modify fun b => { b with clientkey }) renamed := rfl
  rw [ran, result_bind, rebuilt]
  cases (renamed.rebuilt b.httpHandler).stateReply with
  | error err => exact ⟨_, _, new, rfl, rfl, gets, rfl, by simp [Bridge.rebuilt, renamed]⟩
  | ok state =>
      cases jsonKey with
      | str k => exact ⟨_, _, new, rfl, rfl, gets, rfl, by simp⟩
      | _ => exact ⟨_, _, new, rfl, rfl, gets, rfl, by simp⟩

/-- What is granted is stored, and new caches are refreshed, before the client key is read. -/
theorem storeCredentials_refreshes (clock : ℕ → ℤ) (b : Bridge) (username : String)
    (jsonKey : Json) :
    ∃ clientkey, (result (storeCredentials clock username jsonKey) b).2 =
      { (result (refreshCache clock []) (({ b with username } : Bridge).rebuilt b.httpHandler)).2
        with clientkey } := by
  let start := ({ b with username } : Bridge).rebuilt b.httpHandler
  have ran : result (storeCredentials clock username jsonKey) b =
      result (refreshCache clock [] >>= fun _ => do
        if jsonKey ≠ .null then
          let clientkey ← Effect.ofExcept jsonKey.getString
          modify fun b => { b with clientkey }) start := rfl
  rw [ran, result_bind]
  rcases result (refreshCache clock []) start with ⟨e | _, final⟩
  · exact ⟨final.clientkey, rfl⟩
  · cases jsonKey with
    | str key => exact ⟨key, rfl⟩
    | _ => exact ⟨final.clientkey, rfl⟩

/-- The call of a round. -/
def usernameCall : Exchange := b.call b.httpHandler .post "/api" usernameRequest b.ip b.port

/-- What a round leaves whose reply grants the username. -/
def Stores (username : String) (final : Bridge) : Prop :=
  ∃ answer, b.usernameCall.reply = .ok answer ∧
    Utils.safeGetMember answer 0 ["success", "username"] = .str username ∧
    final = (result (storeCredentials clock username
      (Utils.safeGetMember answer 0 ["success", "clientkey"]))
      { b with exchanges := b.usernameCall :: b.exchanges }).2

/-- Without a granted username a round changes nothing but the record, and does not end with
`break`. Otherwise it stores the username with what else was granted. -/
theorem usernameRound_cases :
    (∃ outcome, outcome ≠ .ok true ∧ (∀ u, ¬ b.usernameCall.GrantsUsername u) ∧
      result (usernameRound clock) b =
        (outcome, { b with exchanges := b.usernameCall :: b.exchanges })) ∨
    ∃ outcome u final, outcome ≠ .ok false ∧ b.Stores clock u final ∧
      result (usernameRound clock) b = (outcome, final) := by
  let e := b.usernameCall
  let asked : Bridge := { b with exchanges := e :: b.exchanges }
  have posted : result (http b.httpHandler .post "/api" usernameRequest b.ip b.port) b =
      (e.reply, asked) := rfl
  simp only [usernameRound, result_bind, result_get, posted]
  cases replied : e.reply with
  | error err =>
      left
      refine ⟨.error err, by simp, ?_, rfl⟩
      rintro u ⟨-, answer, accepted, -⟩
      exact absurd (accepted.symm.trans replied) (by simp)
  | ok answer =>
      have ungranted {jsonUser : Json} (nameless : ∀ u, jsonUser ≠ .str u)
          (user : Utils.safeGetMember answer 0 ["success", "username"] = jsonUser)
          (u : String) : ¬ e.GrantsUsername u := by
        rintro ⟨-, answer', accepted, granted⟩
        obtain rfl := Except.ok.inj (accepted.symm.trans replied)
        exact nameless u (user.symm.trans granted)
      simp only [result_ite, result_bind, result_ofExcept, result_pure]
      cases user : Utils.safeGetMember answer 0 ["success", "username"] with
      | null =>
          left
          cases checkRefusal answer with
          | error err => exact ⟨.error err, by simp, ungranted (by simp) user, rfl⟩
          | ok => exact ⟨.ok false, by simp, ungranted (by simp) user, rfl⟩
      | str username =>
          right
          have stores : b.Stores clock username (result (storeCredentials clock username
              (Utils.safeGetMember answer 0 ["success", "clientkey"])) asked).2 :=
            ⟨answer, replied, user, rfl⟩
          simp only [Json.getString]
          generalize result (storeCredentials clock username
            (Utils.safeGetMember answer 0 ["success", "clientkey"])) asked = stored at stores
          rcases stored with ⟨err | _, final⟩
          · exact ⟨.error err, username, final, by simp, stores, rfl⟩
          · exact ⟨.ok true, username, final, by simp, stores, rfl⟩
      | _ =>
          left
          exact ⟨.error (.jsonException 302), by simp, ungranted (by simp) user, rfl⟩

variable {clock b}

/-- The client key is kept if the bridge answers the request of its state. -/
theorem Stores.kept {username : String} {final : Bridge} (stores : b.Stores clock username final) :
    ∃ new, final.exchanges = new ++ b.usernameCall :: b.exchanges ∧
      (∀ e ∈ new, e.verb = .get) ∧ final.username = username ∧
      ∀ k, b.usernameCall.Grants username k → (final.clientkey = k ↔
        b.clientkey = k ∨ ∃ json, b.usernameCall.stateReply b.httpHandler username = .ok json) := by
  obtain ⟨answer, replied, user, rfl⟩ := stores
  obtain ⟨_, final, new, ran, log, gets, named, kept⟩ := result_storeCredentials clock
    { b with exchanges := b.usernameCall :: b.exchanges } username
    (Utils.safeGetMember answer 0 ["success", "clientkey"])
  rw [ran]
  refine ⟨new, log, gets, named, ?_⟩
  rintro k ⟨-, answer', accepted, -, key⟩
  obtain rfl := Except.ok.inj (accepted.symm.trans replied)
  exact kept k key

theorem Stores.granted {username : String} {final : Bridge}
    (stores : b.Stores clock username final) : b.usernameCall.GrantsUsername username := by
  obtain ⟨answer, replied, user, -⟩ := stores
  exact ⟨rfl, answer, replied, user⟩

@[simp] theorem requestUsername_zero (b : Bridge) :
    (result (requestUsername clock 0) b).2 = (result (usernameRound clock) b).2 := by
  rw [requestUsername, result_bind]
  rcases result (usernameRound clock) b with ⟨_ | _, _⟩ <;> rfl

theorem requestUsername_goesOn {t : Bridge} (rounds : ℕ)
    (ran : result (usernameRound clock) b = (.ok false, t)) :
    result (requestUsername clock (rounds + 1)) b = result (requestUsername clock rounds) t := by
  rw [requestUsername, result_bind, ran]
  rfl

theorem requestUsername_ended {outcome : Except Exception Bool} {t : Bridge} (rounds : ℕ)
    (ended : outcome ≠ .ok false) (ran : result (usernameRound clock) b = (outcome, t)) :
    (result (requestUsername clock (rounds + 1)) b).2 = t := by
  rw [requestUsername, result_bind, ran]
  match outcome with
  | .error err => rfl
  | .ok true => rfl
  | .ok false => exact absurd rfl ended

variable (clock)

/-- From `b` to `final`, no round has stored anything, or the last has stored what was granted. -/
def StoresLast (b final : Bridge) : Prop :=
  ∃ posts, (∀ e ∈ posts, ∀ u, ¬ e.GrantsUsername u) ∧
    (final = { b with exchanges := posts ++ b.exchanges } ∨
      ∃ u, Stores clock { b with exchanges := posts ++ b.exchanges } u final)

theorem storesLast_round (b : Bridge) :
    StoresLast clock b (result (usernameRound clock) b).2 := by
  obtain ⟨outcome, -, none, ran⟩ | ⟨outcome, u, final, -, stores, ran⟩ :=
    usernameRound_cases clock b
  · rw [ran]
    exact ⟨[_], by simpa using none, .inl rfl⟩
  · rw [ran]
    exact ⟨[], by simp, .inr ⟨u, stores⟩⟩

/-- A reply that grants nothing can come first. -/
theorem StoresLast.after_refusal {e : Exchange} (none : ∀ u, ¬ e.GrantsUsername u)
    {final : Bridge} (stores : StoresLast clock { b with exchanges := e :: b.exchanges } final) :
    StoresLast clock b final := by
  obtain ⟨posts, refused, stored⟩ := stores
  have joined : posts ++ [e] ++ b.exchanges = posts ++ e :: b.exchanges := by simp
  refine ⟨posts ++ [e], ?_, ?_⟩
  · intro e' member
    cases List.mem_append.mp member with
    | inl later => exact refused e' later
    | inr first => exact List.mem_singleton.mp first ▸ none
  · rw [joined]
    exact stored

theorem storesLast_requestUsername (b : Bridge) (rounds : ℕ) :
    StoresLast clock b (result (requestUsername clock rounds) b).2 := by
  induction rounds generalizing b with
  | zero =>
      rw [requestUsername_zero]
      exact storesLast_round clock b
  | succ rounds ih =>
      have stores := storesLast_round clock b
      obtain ⟨outcome, goesOn, none, ran⟩ | ⟨outcome, _, _, ended, -, ran⟩ :=
        usernameRound_cases clock b
      · match outcome with
        | .error err =>
            rw [requestUsername_ended rounds (by simp) ran]
            rwa [ran] at stores
        | .ok true => exact absurd rfl goesOn
        | .ok false =>
            rw [requestUsername_goesOn rounds ran]
            exact (ih _).after_refusal clock none
      · rw [requestUsername_ended rounds ended ran]
        rwa [ran] at stores

/-- So a username that was granted is the one that the last round has stored. -/
theorem requestUsername_granted (b : Bridge) (rounds : ℕ) :
    ∃ new, (result (requestUsername clock rounds) b).2.exchanges = new ++ b.exchanges ∧
      ∀ e ∈ new, ∀ u, e.GrantsUsername u → ∃ calls,
        e = usernameCall { b with exchanges := calls } ∧
          Stores clock { b with exchanges := calls } u
            (result (requestUsername clock rounds) b).2 := by
  obtain ⟨posts, refused, stored | ⟨u, stores⟩⟩ := storesLast_requestUsername clock b rounds
  · refine ⟨posts, by rw [stored], ?_⟩
    intro e member u granted
    exact absurd granted (refused e member u)
  · obtain ⟨new, log, gets, -⟩ := stores.kept
    refine ⟨new ++ usernameCall { b with exchanges := posts ++ b.exchanges } :: posts,
      by rw [log, List.append_assoc, List.cons_append], ?_⟩
    intro e member u' granted
    rcases List.mem_append.mp member with later | here
    · exact absurd granted (e.not_grantsUsername_of_get (gets e later) u')
    · rcases List.mem_cons.mp here with rfl | earlier
      · obtain rfl := stores.granted.unique granted
        exact ⟨_, rfl, stores⟩
      · exact absurd granted (refused e earlier u')

/-- From `b` to `final`, the credentials of every granting reply were stored exactly if the
request that followed it was answered, or if the client key was there before. -/
def StoredIff (b final : Bridge) : Prop :=
  ∃ new, final.exchanges = new ++ b.exchanges ∧
    ∀ e ∈ new, ∀ u k, e.Grants u k →
      (final.username = u ∧ final.clientkey = k ↔
        b.clientkey = k ∨ ∃ json, e.stateReply b.httpHandler u = .ok json)

/-- However the loop ends, the bridge has the granted credentials exactly if the request of its
whole state that follows the granting reply is answered, or if it had the client key before. -/
theorem credentials_kept_iff (b : Bridge) (rounds : ℕ) :
    ∃ new, (result (requestUsername clock rounds) b).2.exchanges = new ++ b.exchanges ∧
      ∀ e ∈ new, ∀ u k, e.Grants u k →
        ((result (requestUsername clock rounds) b).2.username = u ∧
            (result (requestUsername clock rounds) b).2.clientkey = k ↔
          b.clientkey = k ∨ ∃ json, e.stateReply b.httpHandler u = .ok json) := by
  change StoredIff b (result (requestUsername clock rounds) b).2
  obtain ⟨new, log, granted⟩ := requestUsername_granted clock b rounds
  refine ⟨new, log, ?_⟩
  intro e member u k grants
  obtain ⟨calls, rfl, stores⟩ := granted e member u grants.username
  obtain ⟨-, -, -, named, kept⟩ := stores.kept
  rw [and_iff_right named]
  exact kept k grants

/-- The bridge grants credentials and then closes the connection: the username is stored, but
the client key is lost. -/
theorem credentials_lost :
    let granting : IHttpHandler :=
      { getJson := fun _ _ _ _ _ => .error (.systemError (.other 104))
        putJson := fun _ _ _ _ _ => .ok .null
        postJson := fun _ _ _ _ _ =>
          .ok (.arr [.obj [("success",
            .obj [("clientkey", .str "key"), ("username", .str "user")])]])
        deleteJson := fun _ _ _ _ _ => .ok .null }
    let b := Bridge.new "192.168.2.1" 80 "" granting "" 10000000000 true
    let final := (result (requestUsername (fun _ => 0) 35) b).2
    (∃ e ∈ final.exchanges, e.Grants "user" "key") ∧
      ¬ (final.username = "user" ∧ final.clientkey = "key") := by
  intro granting b final
  have log : final.exchanges.getLast? =
      some (b.call granting .post "/api" usernameRequest b.ip b.port) := by rfl
  refine ⟨⟨_, List.mem_of_getLast? log, rfl, _, rfl, by decide, by decide⟩, ?_⟩
  have key : final.clientkey = "" := by rfl
  rw [key]
  decide

end Bridge

end Hueplusplus

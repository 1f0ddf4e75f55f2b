import TinRpc.Proofs.Sessions

/-!
# Accounts

An account is stored once and never changed, so a player who has one from a registration is only
played by someone who sent a password with the hash of the one registered (`played_credentials`),
and what was registered opens it in every run that follows (`registration_kept`). This rests on what
libcrypt says of the hashes it makes (`Hashed`).
-/

namespace TinRpc

open Transition
open Bson (cstr find getUtf8 NulFree)

variable {F D : Type} [Platform F]

namespace AccountStore

/-- The document of an account as `CreateAccount` stores it. -/
def document (username hash : String) (ms : ℤ) : Bson.Doc F :=
  [("username", .utf8 username), ("password_hash", .utf8 hash), ("player_id", .utf8 username),
    ("created_at", .dateTime ms), ("updated_at", .dateTime ms)]

/-- A password opens the account of a document, which is that of a player. -/
def Opens (doc : Bson.Doc F) (username password playerId : String) : Prop :=
  let storedHash := ((find doc "password_hash").bind getUtf8).getD ""
  storedHash ≠ "" ∧ Platform.crypt F (cstr password) (cstr storedHash) = some storedHash ∧
    playerId = ((find doc "player_id").bind getUtf8).getD username

omit [Platform F] in
theorem nulFree_username {username : String} (h : validUsername username = true) :
    NulFree username := by
  intro hnul
  unfold validUsername at h
  rw [Bool.and_eq_true] at h
  have hchar := List.all_eq_true.1 h.2 _ hnul
  revert hchar
  decide

theorem opens_document {username hash password playerId : String} {ms : ℤ}
    (hname : NulFree username) (hhash : NulFree hash) :
    Opens (F := F) (document username hash ms) username password playerId ↔
      hash ≠ "" ∧ Platform.crypt F (cstr password) hash = some hash ∧ playerId = username := by
  have hstored : ((find (document (F := F) username hash ms) "password_hash").bind getUtf8).getD
      "" = hash := Bson.cstr_of_nulFree hhash
  have hplayer : ((find (document (F := F) username hash ms) "player_id").bind getUtf8).getD
      username = username := Bson.cstr_of_nulFree hname
  unfold Opens
  simp only [hstored, hplayer, Bson.cstr_of_nulFree hhash]

variable {accounts : String → Option (Bson.Doc F)} {client ok : Bool}
  {username password hash : String} {ms : ℤ}

omit [Platform F] in
theorem valid_credentials (h : ¬ (!validUsername username || !validPassword password) = true) :
    validUsername username = true ∧ validPassword password = true := by
  simpa using h

omit [Platform F] in
/-- An account is created where there is none of its name, or nothing changes. -/
theorem createAccount_cases (client indexed ok : Bool) (accounts : String → Option (Bson.Doc F))
    (username password hash : String) (ms : ℤ) :
    let r := createAccount client indexed ok accounts username password hash ms
    ((r.2.ok = true → indexed = false) ∧ r.1 = accounts) ∨
      r.2 = { ok := true, playerId := username } ∧ client = true ∧
        validUsername username = true ∧ validPassword password = true ∧ hash ≠ "" ∧
        accounts username = none ∧
        r.1 = Function.update accounts username (some (document username (cstr hash) ms)) := by
  unfold createAccount
  split_ifs with hclient hvalid hhash
  · exact .inl ⟨nofun, rfl⟩
  · exact .inl ⟨nofun, rfl⟩
  · exact .inl ⟨nofun, rfl⟩
  · obtain ⟨hname, hpassword⟩ := valid_credentials hvalid
    rw [Bson.cstr_of_nulFree (nulFree_username hname)]
    rcases haccount : accounts username with _ | doc
    · have hsome : hash ≠ "" := fun h => hhash (by simp [h])
      exact .inr ⟨rfl, by simpa using hclient, hname, hpassword, hsome, rfl, rfl⟩
    · cases indexed with
      | true => exact .inl ⟨nofun, rfl⟩
      | false => exact .inl ⟨fun _ => rfl, rfl⟩

/-- Credentials are accepted if the password opens the stored account. -/
theorem verifyCredentials_ok
    (h : (verifyCredentials client ok accounts username password).ok = true) :
    validUsername username = true ∧ validPassword password = true ∧
      ∃ doc, accounts username = some doc ∧ Opens doc username password
        (verifyCredentials client ok accounts username password).playerId := by
  unfold verifyCredentials at h ⊢
  split_ifs at h ⊢ with hclient hvalid
  · obtain ⟨hname, hpassword⟩ := valid_credentials hvalid
    rw [Bson.cstr_of_nulFree (nulFree_username hname)] at h ⊢
    rcases haccount : accounts username with _ | doc
    · simp [haccount] at h
    · simp only [haccount] at h ⊢
      split_ifs at h ⊢ with hopens
      refine ⟨hname, hpassword, doc, rfl, ?_, ?_, rfl⟩
      · exact fun h => hopens (by simp [h])
      · by_contra hne
        exact hopens (by simp [hne])

/-- The login of someone who has an account. -/
theorem verifyCredentials_account {doc : Bson.Doc F} (hname : validUsername username = true)
    (hdoc : accounts username = some doc) :
    (verifyCredentials client ok accounts username password).ok = true ↔ client = true ∧
      ok = true ∧ validPassword password = true ∧ ∃ p, Opens doc username password p := by
  constructor
  · intro h
    obtain ⟨-, hpassword, doc', hdoc', hopens⟩ := verifyCredentials_ok h
    obtain rfl := Option.some.inj (hdoc.symm.trans hdoc')
    unfold verifyCredentials at h
    split_ifs at h with hclient hvalid hread
    · exact ⟨by simpa using hclient, hread, hpassword, _, hopens⟩
  · rintro ⟨rfl, rfl, hpassword, p, hstored, hcrypt, -⟩
    unfold verifyCredentials
    simp [hname, hpassword, Bson.cstr_of_nulFree (nulFree_username hname), hdoc, hstored, hcrypt]

end AccountStore

namespace GameService

open AccountStore (Opens document validUsername validPassword createAccount_cases
  verifyCredentials_ok)

/-- What libcrypt makes of a password is a C string, which the password opens. -/
def Hashed (s : GameService F D) : Event F → Prop
  | .work o => match s.queue with
    | .createAccount _ _ password :: _ =>
      o.hash ≠ "" → NulFree o.hash ∧ Platform.crypt F (cstr password) o.hash = some o.hash
    | _ => True
  | _ => True

instance (s : GameService F D) (e : Event F) : Decidable (Hashed s e) :=
  match e with
  | .work o => by
    unfold Hashed
    exact match s.queue with
      | .createAccount .. :: _ => inferInstanceAs (Decidable (_ → _ ∧ _))
      | [] | .verifyLogin .. :: _ | .savePlayer _ :: _ | .saveScene _ :: _ => .isTrue trivial
  | .accept _ | .frame .. | .close .. | .loop _ => .isTrue trivial

/-- Credentials that open an account of the player were sent on the connection. -/
def Presented (s : GameService F D) (conn : Connection) (p : String) : Prop :=
  ∃ t username password doc, t.conn = conn ∧ .verifyLogin t username password ∈ s.log.posted ∧
    validUsername username = true ∧ validPassword password = true ∧
    s.db.accounts username = some doc ∧ Opens doc username password p

/-- The document of an account that was registered. -/
def Registered (s : GameService F D) (username : String) (doc : Bson.Doc F) : Prop :=
  validUsername username = true ∧ ∃ t password hash ms,
    .createAccount t username password ∈ s.log.posted ∧ validPassword password = true ∧
    hash ≠ "" ∧ NulFree hash ∧ Platform.crypt F (cstr password) hash = some hash ∧
    doc = document username hash ms

/-- Where the accounts come from, and who is bound. -/
structure Vetted (db : Database F) (s : GameService F D) : Prop where
  queued : ∀ task ∈ s.queue, task ∈ s.log.posted
  kept : ∀ username doc, db.accounts username = some doc → s.db.accounts username = some doc
  made : ∀ username doc, s.db.accounts username = some doc → db.accounts username = some doc ∨
    db.accounts username = none ∧ Registered s username doc
  callbacks : ∀ t result saved, .loggedIn t result saved ∈ s.callbacks → result.ok = true →
    Presented s t.conn result.playerId
  bound : ∀ p conn, s.playerConns p = some conn → ∃ conn', Presented s conn' p

variable {s s' : GameService F D} {db : Database F}

/-- More tasks and more accounts. -/
structure Grows (s s' : GameService F D) : Prop where
  posted : ∀ task ∈ s.log.posted, task ∈ s'.log.posted
  accounts : ∀ username doc, s.db.accounts username = some doc →
    s'.db.accounts username = some doc

theorem Presented.mono {conn : Connection} {p : String} (h : Presented s conn p)
    (hgrows : Grows s s') : Presented s' conn p := by
  obtain ⟨t, username, password, doc, ht, hposted, hname, hpassword, hdoc, hopens⟩ := h
  exact ⟨t, username, password, doc, ht, hgrows.posted _ hposted, hname, hpassword,
    hgrows.accounts _ _ hdoc, hopens⟩

theorem Registered.mono {username : String} {doc : Bson.Doc F} (h : Registered s username doc)
    (hgrows : Grows s s') : Registered s' username doc := by
  obtain ⟨hname, t, password, hash, ms, hposted, hdoc⟩ := h
  exact ⟨hname, t, password, hash, ms, hgrows.posted _ hposted, hdoc⟩

/-- A step that stores no account. -/
theorem Vetted.same (h : Vetted db s) (hdb : s'.db.accounts = s.db.accounts)
    {tasks : List (Task F)} (hqueue : ∀ task ∈ s'.queue, task ∈ s.queue ∨ task ∈ tasks)
    (hposted : s'.log.posted = s.log.posted ++ tasks)
    (hcallbacks : ∀ callback ∈ s'.callbacks, callback ∈ s.callbacks)
    (hbound : ∀ p conn, s'.playerConns p = some conn → ∃ conn', Presented s conn' p) :
    Vetted db s' := by
  have hgrows : Grows s s' := by
    refine ⟨fun task htask => ?_, fun username doc hdoc => ?_⟩
    · rw [hposted]
      exact List.mem_append_left _ htask
    · rwa [hdb]
  refine ⟨fun task htask => ?_, ?_, fun username doc hdoc => ?_, fun t result saved ht hok => ?_,
    fun p conn hp => ?_⟩
  · rw [hposted]
    exact List.mem_append.2 ((hqueue task htask).imp_left (h.queued task))
  · rw [hdb]
    exact h.kept
  · rw [hdb] at hdoc
    exact (h.made username doc hdoc).imp_right fun hmade => ⟨hmade.1, hmade.2.mono hgrows⟩
  · exact (h.callbacks t result saved (hcallbacks _ ht) hok).mono hgrows
  · obtain ⟨conn', hpresented⟩ := hbound p conn hp
    exact ⟨conn', hpresented.mono hgrows⟩

/-! ## Every step -/

theorem vetted_framed {rid : ℕ} {conn : Connection} {now : ℤ} {request : Request F}
    (h : Vetted db s) (hf : Framed s rid conn now request s') : Vetted db s' := by
  refine h.same (congrArg Database.accounts hf.stores.db) (fun task htask => ?_) hf.posted
    (fun callback hc => hf.callbacks ▸ hc) fun p conn hp => ?_
  · rw [hf.queue] at htask
    exact List.mem_append.1 htask
  · rw [hf.sessions.playerConns] at hp
    exact h.bound p conn hp

theorem vetted_removed {p : String} (h : Vetted db s) (hr : Removed s p s') :
    Vetted db s' := by
  refine h.same (congrArg Database.accounts hr.same.stores.db) (fun task htask => ?_) hr.posted
    (fun callback hc => hr.same.callbacks ▸ hc) fun q conn hq => ?_
  · rw [hr.queue] at htask
    exact List.mem_append.1 htask
  · rw [hr.playerConns, Function.update_apply] at hq
    split_ifs at hq
    exact h.bound q conn hq

theorem vetted_switched (h : Vetted db s) (fd : ℤ) (p : String) :
    Vetted db (s.switchAccount fd p) ∧ Grows s (s.switchAccount fd p) := by
  rcases s.switchAccount_cases fd p with ⟨heq, -⟩ | ⟨old, -, -, hr, -⟩
  · rw [heq]
    exact ⟨h, fun _ ht => ht, fun _ _ hd => hd⟩
  · refine ⟨vetted_removed h hr, fun task ht => ?_, fun username doc hd => ?_⟩
    · rw [hr.posted]
      exact List.mem_append_left _ ht
    · rwa [hr.same.stores.db]

/-- A login that completes was presented the credentials of its player. -/
theorem vetted_joined {conn conn' : Connection} {p : String} {saved : PlayerState F} {now : ℤ}
    {rid : ℕ} (h : Vetted db s) (hp : Presented s conn' p)
    (hj : Joined s conn p saved now rid s') : Vetted db s' := by
  refine h.same (congrArg Database.accounts hj.same.stores.db)
    (fun task htask => .inl (hj.queue ▸ htask)) (hj.posted.trans (List.append_nil _).symm)
    (fun callback hc => hj.same.callbacks ▸ hc) fun q conn hq => ?_
  rw [hj.playerConns, Function.update_apply] at hq
  split_ifs at hq with hqp
  · exact ⟨conn', hqp ▸ hp⟩
  · exact h.bound q conn hq

theorem vetted_created {t : Ticket} {username password : String} {queue : List (Task F)}
    {o : DbOutcome} (h : Vetted db s)
    (hq : s.queue = .createAccount t username password :: queue) (ho : Hashed s (.work o)) :
    Vetted db (runTask { s with queue } o (.createAccount t username password)) := by
  have hqueue : ∀ task ∈ queue, task ∈ s.queue := fun task ht => hq ▸ List.mem_cons_of_mem _ ht
  set s' : GameService F D := runTask { s with queue } o (.createAccount t username password)
  have hcallbacks : ∀ u result saved, .loggedIn u result saved ∈ s'.callbacks →
      .loggedIn u result saved ∈ s.callbacks := by
    intro u result saved hu
    rcases List.mem_append.1 hu with hu | hu
    · exact hu
    · cases List.mem_singleton.1 hu
  have haccounts : s'.db.accounts = (AccountStore.createAccount s.accounts s.db.indexed o.writeOk
      s.db.accounts username password o.hash o.ms).1 := rfl
  have hcases := createAccount_cases s.accounts s.db.indexed o.writeOk s.db.accounts username
    password o.hash o.ms
  have hgrows : Grows s s' := by
    refine ⟨fun _ ht => ht, fun name doc hdoc => ?_⟩
    rw [haccounts]
    rcases hcases with ⟨-, hsame⟩ | ⟨-, -, -, -, -, hfree, hstored⟩
    · rwa [hsame]
    · have hne : name ≠ username := by
        rintro rfl
        rw [hfree] at hdoc
        cases hdoc
      rwa [hstored, Function.update_of_ne hne]
  refine ⟨fun task ht => h.queued task (hqueue task ht),
    fun name doc hdoc => hgrows.accounts _ _ (h.kept name doc hdoc), fun name doc hdoc => ?_,
    fun u result saved hu hok =>
      (h.callbacks u result saved (hcallbacks u result saved hu) hok).mono hgrows,
    fun p conn hp => ?_⟩
  · have hold : s.db.accounts name = some doc → db.accounts name = some doc ∨
        db.accounts name = none ∧ Registered s' name doc := fun hdoc =>
      (h.made name doc hdoc).imp_right fun hmade => ⟨hmade.1, hmade.2.mono hgrows⟩
    rw [haccounts] at hdoc
    rcases hcases with ⟨-, hsame⟩ | ⟨-, -, hname, hpassword, hhash, hfree, hstored⟩
    · exact hold (hsame ▸ hdoc)
    · rw [hstored, Function.update_apply] at hdoc
      split_ifs at hdoc with heq
      · subst heq
        have hnone : db.accounts name = none := by
          rcases hdb : db.accounts name with _ | doc'
          · rfl
          · rw [h.kept name doc' hdb] at hfree
            cases hfree
        have hopens : o.hash ≠ "" → NulFree o.hash ∧
            Platform.crypt F (cstr password) o.hash = some o.hash := by
          simpa only [Hashed, hq] using ho
        obtain ⟨hnul, hcrypt⟩ := hopens hhash
        refine .inr ⟨hnone, hname, t, password, o.hash, o.ms, h.queued _ (hq ▸ List.mem_cons_self),
          hpassword, hhash, hnul, hcrypt, ?_⟩
        rw [Bson.cstr_of_nulFree hnul] at hdoc
        exact (Option.some.inj hdoc).symm
      · exact hold hdoc
  · obtain ⟨conn', hpresented⟩ := h.bound p conn hp
    exact ⟨conn', hpresented.mono hgrows⟩

theorem vetted_verified {t : Ticket} {username password : String} {queue : List (Task F)}
    {o : DbOutcome} (h : Vetted db s)
    (hq : s.queue = .verifyLogin t username password :: queue) :
    Vetted db (runTask { s with queue } o (.verifyLogin t username password)) := by
  have hqueue : ∀ task ∈ queue, task ∈ s.queue := fun task ht => hq ▸ List.mem_cons_of_mem _ ht
  refine ⟨fun task ht => h.queued task (hqueue task ht), h.kept, h.made,
    fun u result saved hu hok => ?_, h.bound⟩
  rcases List.mem_append.1 hu with hu | hu
  · exact h.callbacks u result saved hu hok
  · obtain ⟨rfl, rfl, -⟩ := Callback.loggedIn.inj (List.mem_singleton.1 hu)
    obtain ⟨hname, hpassword, doc, hdoc, hopens⟩ := verifyCredentials_ok hok
    exact ⟨u, username, password, doc, rfl, h.queued _ (hq ▸ List.mem_cons_self), hname, hpassword,
      hdoc, hopens⟩

variable [Lobby D]

theorem vetted_step {e : Event F} (h : Vetted db s) (ho : Hashed s e)
    (he : step s e = some s') : Vetted db s' := by
  cases e with
  | accept fd =>
    obtain ⟨-, rfl⟩ := Step.accept he
    exact ⟨h.queued, h.kept, h.made, h.callbacks, h.bound⟩
  | frame fd rid request now =>
    obtain ⟨conn, -, hf⟩ := Step.frame he
    exact vetted_framed h hf
  | close fd now =>
    obtain ⟨conn, s₁, -, -, rfl, ⟨-, rfl⟩ | ⟨p, -, hr⟩⟩ := Step.close_cases he
    · exact ⟨h.queued, h.kept, h.made, h.callbacks, h.bound⟩
    · have h₁ := vetted_removed h hr
      exact ⟨h₁.queued, h₁.kept, h₁.made, h₁.callbacks, h₁.bound⟩
  | work o =>
    obtain ⟨task, queue, hq, rfl⟩ := Step.work he
    have hqueue : ∀ task ∈ queue, task ∈ s.log.posted := fun task ht =>
      h.queued task (hq ▸ List.mem_cons_of_mem _ ht)
    cases task with
    | createAccount t username password => exact vetted_created h hq ho
    | verifyLogin t username password => exact vetted_verified h hq
    | savePlayer | saveScene => exact ⟨hqueue, h.kept, h.made, h.callbacks, h.bound⟩
  | loop now =>
    obtain ⟨callback, callbacks, hq, ⟨rest, metrics, rfl, -⟩ |
      ⟨t, result, saved, conn, rfl, hok, -, hj⟩⟩ := Step.loop_cases he
    all_goals
      have hcallbacks : ∀ callback ∈ callbacks, callback ∈ s.callbacks := fun callback hc =>
        hq ▸ List.mem_cons_of_mem _ hc
      have h' : Vetted db { s with callbacks } := ⟨h.queued, h.kept, h.made,
        fun t result saved ht => h.callbacks t result saved (hcallbacks _ ht), h.bound⟩
    · exact ⟨h'.queued, h'.kept, h'.made, h'.callbacks, h'.bound⟩
    · obtain ⟨hswitched, hgrows⟩ := vetted_switched h' t.fd result.playerId
      have hpresented : Presented { s with callbacks } t.conn result.playerId :=
        h.callbacks t result saved (hq ▸ List.mem_cons_self) hok
      exact vetted_joined hswitched (hpresented.mono hgrows) hj

omit [Lobby D] in
theorem accounts_start (lobby : D) (db : Database F) (accounts players scenes : Bool)
    (o : DbOutcome) : (start lobby db accounts players scenes o).db.accounts = db.accounts := by
  unfold start loadOrSeedScene
  dsimp only
  split <;> rfl

theorem vetted_reach {lobby : D} {accounts players scenes : Bool} {o : DbOutcome}
    (h : Reach step Hashed (start lobby db accounts players scenes o) s) : Vetted db s := by
  refine h.invariant ?_ fun s e s' hs ho he => vetted_step hs ho he
  obtain ⟨hconns, -, -, -, hqueue, hcallbacks, -⟩ := start_eq lobby db accounts players scenes o
  refine ⟨fun task ht => ?_, fun username doc hdoc => ?_, fun username doc hdoc => .inl ?_,
    fun t result saved ht _ => ?_, fun p conn hp => ?_⟩
  · rw [hqueue] at ht
    cases ht
  · rwa [accounts_start]
  · rwa [accounts_start] at hdoc
  · rw [hcallbacks] at ht
    cases ht
  · rw [hconns] at hp
    cases hp

/-- In every run, for whoever is in the world somebody sent a login with a password that opens an
account of his: one of the database at the start, or the one that was registered under his name,
with the hash of the password sent then. -/
theorem played_credentials {lobby : D} {accounts players scenes : Bool} {o : DbOutcome}
    (h : Reach step Hashed (start lobby db accounts players scenes o) s) {p : String}
    (hp : (s.world.inventory p).isSome = true) :
    ∃ t username password, .verifyLogin t username password ∈ s.log.posted ∧
      ((∃ doc, db.accounts username = some doc ∧ Opens doc username password p) ∨
        db.accounts username = none ∧ p = username ∧ ∃ t' password' hash,
          .createAccount t' username password' ∈ s.log.posted ∧ hash ≠ "" ∧
          Platform.crypt F (cstr password') hash = some hash ∧
          Platform.crypt F (cstr password) hash = some hash ∧
          ∃ ms, s.db.accounts username = some (document username hash ms)) := by
  have hs := sessions_reach ⟨lobby, db, accounts, players, scenes, o, h⟩
  have hvetted := vetted_reach h
  rw [hs.present, Option.isSome_iff_exists] at hp
  obtain ⟨conn, hconn⟩ := hp
  obtain ⟨-, t, username, password, doc, -, hposted, hname, -, hdoc, hopens⟩ :=
    hvetted.bound p conn hconn
  refine ⟨t, username, password, hposted, ?_⟩
  rcases hvetted.made username doc hdoc with hold | ⟨hnone, -, t', password', hash, ms,
    hregistered, -, hhash, hnul, hcrypt, rfl⟩
  · exact .inl ⟨doc, hold, hopens⟩
  · obtain ⟨-, hcrypt', rfl⟩ :=
      (AccountStore.opens_document (AccountStore.nulFree_username hname) hnul).1 hopens
    exact .inr ⟨hnone, rfl, t', password', hash, hregistered, hhash, hcrypt, hcrypt', ms, hdoc⟩

/-- A player who registered, logged in and crafts. -/
theorem played_credentials_eve : ∃ s : GameService ℚ Unit,
    (s.world.inventory "eve").isSome = true ∧ s.log.acts = [(⟨0, 5⟩, "eve")] ∧
      ∃ t username password, .verifyLogin t username password ∈ s.log.posted ∧
        ((∃ doc, twoAccounts.accounts username = some doc ∧ Opens doc username password "eve") ∨
          twoAccounts.accounts username = none ∧ "eve" = username ∧ ∃ t' password' hash,
            .createAccount t' username password' ∈ s.log.posted ∧ hash ≠ "" ∧
            Platform.crypt ℚ (cstr password') hash = some hash ∧
            Platform.crypt ℚ (cstr password) hash = some hash ∧
            ∃ ms, s.db.accounts username = some (document username hash ms)) := by
  have hplay : (play Hashed twoAccounts [.accept 5,
      .frame 5 1 (.register (some ("eve", "secret"))) 0, .work { hash := "$2b$secret" }, .loop 0,
      .frame 5 2 (.login (some ("eve", "secret"))) 0,
      .work {}, .loop 0, .frame 5 3 (.craft (some 1)) 0]).map (fun s =>
      ((s.world.inventory "eve").isSome, s.log.acts)) = some (true, [(⟨0, 5⟩, "eve")]) := by
    decide +kernel
  obtain ⟨s, hs, hv⟩ := Option.map_eq_some_iff.1 hplay
  obtain ⟨hpresent, hacts⟩ := Prod.mk.inj hv
  exact ⟨s, hpresent, hacts, played_credentials (Reach.of_foldlM _ hs) hpresent⟩

/-! ## What follows a registration -/

/-- No step changes an account, the client of the store or the index. -/
theorem account_step {e : Event F} {username : String} {doc : Bson.Doc F}
    (he : step s e = some s') (hdoc : s.db.accounts username = some doc) :
    s'.db.accounts username = some doc ∧ s'.accounts = s.accounts ∧
      s'.db.indexed = s.db.indexed := by
  cases e with
  | accept fd =>
    obtain ⟨-, rfl⟩ := Step.accept he
    exact ⟨hdoc, rfl, rfl⟩
  | frame fd rid request now =>
    obtain ⟨conn, -, hf⟩ := Step.frame he
    rw [hf.stores.db]
    exact ⟨hdoc, hf.stores.accounts, rfl⟩
  | close fd now =>
    obtain ⟨conn, s₁, -, -, rfl, ⟨-, rfl⟩ | ⟨p, -, hr⟩⟩ := Step.close_cases he
    · exact ⟨hdoc, rfl, rfl⟩
    · refine ⟨?_, hr.same.stores.accounts, congrArg Database.indexed hr.same.stores.db⟩
      show s₁.db.accounts username = some doc
      rwa [hr.same.stores.db]
  | work o =>
    obtain ⟨task, queue, -, rfl⟩ := Step.work he
    cases task with
    | createAccount t name password =>
      refine ⟨?_, rfl, rfl⟩
      show (AccountStore.createAccount s.accounts s.db.indexed o.writeOk s.db.accounts name
        password o.hash o.ms).1 username = some doc
      rcases createAccount_cases s.accounts s.db.indexed o.writeOk s.db.accounts name password
        o.hash o.ms with ⟨-, hsame⟩ | ⟨-, -, -, -, -, hfree, hstored⟩
      · rwa [hsame]
      · have hne : username ≠ name := by
          rintro rfl
          rw [hfree] at hdoc
          cases hdoc
        rwa [hstored, Function.update_of_ne hne]
    | verifyLogin | savePlayer | saveScene => exact ⟨hdoc, rfl, rfl⟩
  | loop now =>
    obtain ⟨callback, callbacks, -, ⟨rest, metrics, rfl, -⟩ |
      ⟨t, result, saved, conn, -, -, -, hj⟩⟩ := Step.loop_cases he
    · exact ⟨hdoc, rfl, rfl⟩
    · have hsame := hj.same.stores
      rw [hsame.db, hsame.accounts]
      rcases switchAccount_cases { s with callbacks } t.fd result.playerId with ⟨heq, -⟩ |
        ⟨old, -, -, hr, -⟩
      · rw [heq]
        exact ⟨hdoc, rfl, rfl⟩
      · rw [hr.same.stores.db]
        exact ⟨hdoc, hr.same.stores.accounts, rfl⟩

/-- With the index on the usernames, once a registration has succeeded, in every run that follows a
login under this name succeeds, if the read does, with just the passwords that have the hash stored
then, for the player of this name; and no other registration under this name succeeds. -/
theorem registration_kept {ok : GameService F D → Event F → Prop} {o : DbOutcome} {t : Ticket}
    {result : AccountResult} {s₁ s₂ : GameService F D} (hw : step s (.work o) = some s₁)
    (hposted : s₁.callbacks = s.callbacks ++ [.registered t result]) (hok : result.ok = true)
    (hindexed : s.db.indexed = true) (hnul : NulFree o.hash) (h : Reach step ok s₁ s₂) :
    (∀ readOk password,
      let r := AccountStore.verifyCredentials s₂.accounts readOk s₂.db.accounts result.playerId
        password
      (r.ok = true ↔ readOk = true ∧ validPassword password = true ∧
        Platform.crypt F (cstr password) o.hash = some o.hash) ∧
        (r.ok = true → r.playerId = result.playerId)) ∧
      ∀ writeOk password hash ms, (AccountStore.createAccount s₂.accounts s₂.db.indexed writeOk
        s₂.db.accounts result.playerId password hash ms).2.ok = false := by
  have hcreated : s₁.accounts = true ∧ s₁.db.indexed = true ∧
      validUsername result.playerId = true ∧ o.hash ≠ "" ∧
      s₁.db.accounts result.playerId = some (document result.playerId o.hash o.ms) := by
    obtain ⟨task, queue, hq, rfl⟩ := Step.work hw
    cases task with
    | createAccount u username password =>
      have hlast := List.append_cancel_left hposted
      have hresult : (AccountStore.createAccount s.accounts s.db.indexed o.writeOk s.db.accounts
          username password o.hash o.ms).2 = result :=
        (Callback.registered.inj (List.singleton_inj.1 hlast)).2
      have haccounts :
          (runTask { s with queue } o (.createAccount u username password)).db.accounts =
            (AccountStore.createAccount s.accounts s.db.indexed o.writeOk s.db.accounts username
              password o.hash o.ms).1 := rfl
      rcases createAccount_cases s.accounts s.db.indexed o.writeOk s.db.accounts username password
        o.hash o.ms with ⟨hfail, -⟩ | ⟨hmade, hclient, hname, -, hhash, -, hstored⟩
      · rw [hresult, hindexed] at hfail
        cases hfail hok
      · obtain rfl : result = { ok := true, playerId := username } := hresult.symm.trans hmade
        rw [haccounts, hstored, Function.update_self, Bson.cstr_of_nulFree hnul]
        exact ⟨hclient, hindexed, hname, hhash, rfl⟩
    | verifyLogin u username password =>
      cases List.singleton_inj.1 (List.append_cancel_left hposted)
    | savePlayer | saveScene =>
      have hlength := congrArg List.length hposted
      rw [List.length_append, List.length_singleton] at hlength
      exact absurd hlength (Nat.ne_of_lt (Nat.lt_succ_self _))
  obtain ⟨hclient, hindexed₁, hname, hhash, hdoc⟩ := hcreated
  obtain ⟨hdoc₂, hclient₂, hindexed₂⟩ : s₂.db.accounts result.playerId =
      some (document result.playerId o.hash o.ms) ∧ s₂.accounts = true ∧ s₂.db.indexed = true := by
    refine h.invariant (P := fun s => s.db.accounts result.playerId =
      some (document result.playerId o.hash o.ms) ∧ s.accounts = true ∧ s.db.indexed = true)
      ⟨hdoc, hclient, hindexed₁⟩ fun s e s' hs _ he => ?_
    obtain ⟨hdoc', hclient', hindexed'⟩ := account_step he hs.1
    exact ⟨hdoc', hclient'.trans hs.2.1, hindexed'.trans hs.2.2⟩
  refine ⟨fun readOk password => ⟨?_, fun hlogin => ?_⟩, fun writeOk password hash ms => ?_⟩
  · rw [AccountStore.verifyCredentials_account hname hdoc₂]
    simp only [AccountStore.opens_document (AccountStore.nulFree_username hname) hnul, hclient₂]
    simp [hhash]
  · obtain ⟨-, -, doc, hdoc', hopens⟩ := verifyCredentials_ok hlogin
    obtain rfl := Option.some.inj (hdoc₂.symm.trans hdoc')
    exact ((AccountStore.opens_document (AccountStore.nulFree_username hname) hnul).1 hopens).2.2
  · rcases createAccount_cases s₂.accounts s₂.db.indexed writeOk s₂.db.accounts result.playerId
      password hash ms with ⟨hfail, -⟩ | ⟨-, -, -, -, -, hfree, -⟩
    · rw [hindexed₂] at hfail ⊢
      simpa using hfail
    · rw [hdoc₂] at hfree
      cases hfree

/-- A registration, and a login after it. -/
theorem registration_kept_eve : ∃ s : GameService ℚ Unit,
    (s.playerConns "eve").isSome = true ∧
      (AccountStore.verifyCredentials s.accounts true s.db.accounts "eve" "secret").ok = true ∧
      (AccountStore.verifyCredentials s.accounts true s.db.accounts "eve" "Secret").ok ≠ true ∧
      (AccountStore.createAccount s.accounts s.db.indexed true s.db.accounts "eve" "Secret"
        "$2b$Secret" 0).2.ok = false := by
  have hplay : (play anyEvent twoAccounts
      [.accept 5, .frame 5 1 (.register (some ("eve", "secret"))) 0]).bind (fun s =>
      (step s (.work { hash := "$2b$secret" })).bind fun s₁ =>
        ([.loop 0, .frame 5 2 (.login (some ("eve", "secret"))) 0, .work {}, .loop 0].foldlM
          (fun s e => if anyEvent s e then step s e else none) s₁).map fun s₂ =>
            (s.callbacks.length, s.db.indexed, s₁.callbacks.map fun callback => match callback with
              | .registered _ result => (result.ok, result.playerId)
              | .loggedIn .. => (false, ""), (s₂.playerConns "eve").isSome)) =
      some (0, true, [(true, "eve")], true) := by
    decide +kernel
  obtain ⟨s, -, hs⟩ := Option.bind_eq_some_iff.1 hplay
  obtain ⟨s₁, hw, hs₁⟩ := Option.bind_eq_some_iff.1 hs
  obtain ⟨s₂, hrun, hv⟩ := Option.map_eq_some_iff.1 hs₁
  simp only [Prod.mk.injEq, List.length_eq_zero_iff] at hv
  obtain ⟨hempty, hindexed, hcallbacks, hbound⟩ := hv
  obtain ⟨callback, hcallback, hresult⟩ := List.map_eq_singleton_iff.1 hcallbacks
  cases callback with
  | loggedIn => cases hresult
  | registered t result =>
    obtain ⟨hok, hname⟩ := Prod.mk.inj hresult
    have hnul : NulFree "$2b$secret" := by decide
    obtain ⟨hlogin, hregister⟩ := registration_kept hw (by rw [hempty, hcallback]; rfl) hok hindexed
      hnul (Reach.of_foldlM _ hrun)
    simp only [hname] at hlogin hregister
    refine ⟨s₂, hbound, (hlogin true "secret").1.2 ⟨rfl, by decide, rfl⟩, fun h => ?_,
      hregister true "Secret" "$2b$Secret" 0⟩
    have hopens := ((hlogin true "Secret").1.1 h).2.2
    revert hopens
    decide

end GameService

end TinRpc

import TinRpc.Proofs.Keys
import TinRpc.Proofs.Sessions

/-!
# Player ids

A verified login has a player id without NUL: it comes out of a C string, or it is a username, and
those have letters, digits and underscores only. So the players in the world and in the saves have
such ids (`named_reach`), and a saved state is read back as it was (`inv_parse_document`).
-/

namespace TinRpc

open Transition
open Bson (NulFree cstr nul)

variable {F D : Type} [Platform F]

namespace AccountStore

theorem nulFree_of_validUsername {username : String} (h : validUsername username) :
    NulFree username := by
  intro hnul
  simp only [validUsername, Bool.and_eq_true, List.all_eq_true] at h
  have hc := h.2 nul hnul
  exact absurd hc (by decide)

theorem nulFree_verified {client readOk : Bool} {accounts : String → Option (Bson.Doc F)}
    {username password : String}
    (h : (verifyCredentials client readOk accounts username password).ok = true) :
    NulFree (verifyCredentials client readOk accounts username password).playerId := by
  unfold verifyCredentials at h ⊢
  split_ifs at h ⊢ with hclient hvalid hread
  all_goals
    split at h
    · simp at h
    · next doc hdoc =>
      simp only at h ⊢
      split_ifs at h ⊢
      rcases hid : (Bson.find doc "player_id").bind Bson.getUtf8 with _ | id
      · simp only [Bool.not_eq_true, Bool.or_eq_false_iff, Bool.not_eq_false'] at hvalid
        simpa using nulFree_of_validUsername hvalid.1
      · obtain ⟨v, -, hv⟩ := Option.bind_eq_some_iff.1 hid
        cases v <;> simp only [Bson.getUtf8, Option.some.injEq, reduceCtorEq] at hv
        simpa [← hv] using Bson.nulFree_cstr _

end AccountStore

namespace PlayerStore

/-- What a player's document says of his counters, the default where he has none. -/
def stored (players : String → Option (Bson.Doc F)) (playerId : String) : Inventory :=
  (load true true players playerId).inv

theorem inv_parse_document (playerId : String) (st : PlayerState F) (ms : ℤ) :
    (parse playerId (document st ms)).inv = st.inv := by
  simp [parse, document, Bson.find_cons, Bson.getInt32]

/-- A write is what a later read of the player gives, and nobody else's. -/
theorem stored_upsert {players : String → Option (Bson.Doc F)} {st : PlayerState F} {ms : ℤ}
    {playerId : String} (hst : NulFree st.playerId) (hp : NulFree playerId) :
    stored (upsert true true players st ms).1 playerId =
      if st.playerId = playerId then st.inv else stored players playerId := by
  simp only [upsert, Bool.and_self, ↓reduceIte, stored, load, Bson.cstr_of_nulFree hst,
    Bson.cstr_of_nulFree hp, Function.update_apply]
  by_cases h : playerId = st.playerId
  · simp [h, inv_parse_document]
  · simp [h, Ne.symm h]

end PlayerStore

namespace GameService

variable {s s' : GameService F D}

/-- What a login task reads of a player's counters. -/
theorem loadPlayer_inv (readOk : Bool) (p : String) :
    (s.loadPlayer readOk p).inv = (PlayerStore.load s.players readOk s.db.players p).inv := by
  have habsent : ∀ st : PlayerState F, st.inv = {} →
      ({ st.inv with wood := 6, stone := 3 } : Inventory) = st.inv := by
    rintro st h; rw [h]
  unfold loadPlayer
  dsimp only
  split_ifs with hfound
  · rfl
  · refine habsent _ ?_
    unfold PlayerStore.load at hfound ⊢
    split_ifs at hfound ⊢
    · split at hfound
      · rfl
      · simp [PlayerStore.parse] at hfound
    · rfl

/-- The players in the world, those logged in by a callback and those in a save. -/
structure Named (s : GameService F D) : Prop where
  world : ∀ p, (s.world.inventory p).isSome → NulFree p
  callbacks : ∀ t result saved, .loggedIn t result saved ∈ s.callbacks → result.ok = true →
    NulFree result.playerId
  queue : ∀ st, .savePlayer st ∈ s.queue → NulFree st.playerId

omit [Platform F] in
theorem named_playerSave {w : WorldService F} {p : String}
    (h : ∀ p, (w.inventory p).isSome → NulFree p) {st : PlayerState F}
    (hst : .savePlayer st ∈ playerSave w p) : NulFree st.playerId := by
  obtain ⟨st', hsnap, heq⟩ := mem_playerSave.1 hst
  obtain rfl : st = st' := by simpa using heq
  obtain ⟨player, hplayer, rfl⟩ := Option.map_eq_some_iff.1 hsnap
  exact h p (by simp [WorldService.inventory, hplayer])

theorem named_framed {rid : ℕ} {conn : Connection} {now : ℤ} {request : Request F}
    (hn : Named s) (h : Framed s rid conn now request s') : Named s' := by
  have hworld : ∀ p, (s'.world.inventory p).isSome → NulFree p := by
    intro p hp
    rw [h.world] at hp
    rcases hk : s.frameCall conn now request with _ | k
    · rw [hk] at hp
      exact hn.world p hp
    · rw [hk, Option.elim_some, inventory_isSome hk] at hp
      exact hn.world p hp
  refine ⟨hworld, fun t result saved ht hok => ?_, fun st hst => ?_⟩
  · rw [h.callbacks] at ht
    exact hn.callbacks t result saved ht hok
  · rw [h.queue, List.mem_append] at hst
    rcases hst with hst | hst
    · exact hn.queue st hst
    rcases mem_frameTasks hst with ⟨_, _, heq⟩ | ⟨_, _, heq⟩ | ⟨k, hk, htask⟩
    · simp at heq
    · simp at heq
    unfold callTasks at htask
    rcases he : k.effect s.world with _ | e
    · simp [he] at htask
    have hw : s'.world = (k.run s.world).world := by rw [h.world, hk]; rfl
    rw [← hw] at htask
    rw [he] at htask
    have hsave : .savePlayer st ∈ playerSave s'.world e.player := by
      cases e <;> simpa [effectTasks, sceneSave, Effect.player] using htask
    exact named_playerSave hworld hsave

omit [Platform F] in
theorem named_removed {p : String} (hn : Named s) (h : Removed s p s') : Named s' := by
  refine ⟨fun q hq => ?_, fun t result saved ht hok => ?_, fun st hst => ?_⟩
  · rw [h.world, (s.world.leave_spec p).2.1] at hq
    split_ifs at hq
    · simp at hq
    · exact hn.world q hq
  · rw [h.same.callbacks] at ht
    exact hn.callbacks t result saved ht hok
  · rw [h.queue, List.mem_append] at hst
    rcases hst with hst | hst
    · exact hn.queue st hst
    · exact named_playerSave hn.world hst

theorem named_switched (hn : Named s) (fd : ℤ) (p : String) : Named (s.switchAccount fd p) := by
  rcases s.switchAccount_cases fd p with ⟨heq, -⟩ | ⟨old, -, -, hr, -⟩
  · rw [heq]; exact hn
  · exact named_removed hn hr

theorem named_joined {conn : Connection} {p : String} {saved : PlayerState F} {now : ℤ} {rid : ℕ}
    (hn : Named s) (hp : NulFree p) (h : Joined s conn p saved now rid s') : Named s' := by
  refine ⟨fun q hq => ?_, fun t result saved ht hok => ?_, fun st hst => ?_⟩
  · rw [h.world, (s.world.enterWithState_spec p p now saved.x saved.y saved.z saved.yaw
      saved.inv).inventory_eq] at hq
    split_ifs at hq with hqp
    · exact hqp ▸ hp
    · exact hn.world q hq
  · rw [h.same.callbacks] at ht
    exact hn.callbacks t result saved ht hok
  · rw [h.queue] at hst
    exact hn.queue st hst

theorem named_work {o : DbOutcome} {task : Task F} {queue : List (Task F)} (hn : Named s)
    (hq : s.queue = task :: queue) : Named (runTask { s with queue } o task) := by
  have hqueue : ∀ st, .savePlayer st ∈ queue → NulFree st.playerId := fun st hst =>
    hn.queue st (hq ▸ List.mem_cons_of_mem _ hst)
  cases task with
  | createAccount t username password =>
    refine ⟨hn.world, fun u result saved hu hok => ?_, hqueue⟩
    rcases List.mem_append.1 hu with hu | hu
    · exact hn.callbacks u result saved hu hok
    · simp at hu
  | verifyLogin t username password =>
    refine ⟨hn.world, fun u result saved hu hok => ?_, hqueue⟩
    rcases List.mem_append.1 hu with hu | hu
    · exact hn.callbacks u result saved hu hok
    · obtain ⟨rfl, rfl, rfl⟩ := by simpa using hu
      exact AccountStore.nulFree_verified hok
  | savePlayer st => exact ⟨hn.world, hn.callbacks, hqueue⟩
  | saveScene snap => exact ⟨hn.world, hn.callbacks, hqueue⟩

variable [Lobby D]

theorem named_step {e : Event F} (hn : Named s) (h : step s e = some s') : Named s' := by
  cases e with
  | accept fd =>
    obtain ⟨-, rfl⟩ := Step.accept h
    exact ⟨hn.world, hn.callbacks, hn.queue⟩
  | frame fd rid request now =>
    obtain ⟨conn, -, hf⟩ := Step.frame h
    exact named_framed hn hf
  | close fd now =>
    obtain ⟨conn, s₁, -, -, rfl, ⟨-, rfl⟩ | ⟨p, -, hr⟩⟩ := Step.close_cases h
    · exact ⟨hn.world, hn.callbacks, hn.queue⟩
    · have := named_removed hn hr
      exact ⟨this.world, this.callbacks, this.queue⟩
  | work o =>
    obtain ⟨task, queue, hq, rfl⟩ := Step.work h
    exact named_work hn hq
  | loop now =>
    obtain ⟨callback, callbacks, hq, hcases⟩ := Step.loop_cases h
    have hn' : Named { s with callbacks } := ⟨hn.world, fun t result saved ht hok =>
      hn.callbacks t result saved (hq ▸ List.mem_cons_of_mem _ ht) hok, hn.queue⟩
    rcases hcases with ⟨rest, metrics, rfl, -⟩ | ⟨t, result, saved, conn, rfl, hok, -, hj⟩
    · exact ⟨hn'.world, hn'.callbacks, hn'.queue⟩
    · have hp := hn.callbacks t result saved (hq ▸ List.mem_cons_self) hok
      exact named_joined (named_switched hn' t.fd result.playerId) hp hj

/-- Every player of every run has an id without NUL. -/
theorem named_reach {ok : GameService F D → Event F → Prop} (h : Running ok s) : Named s := by
  obtain ⟨lobby, db, accounts, players, scenes, o, h⟩ := h
  refine h.invariant ?_ fun s e s' hn _ he => named_step hn he
  obtain ⟨-, -, -, -, hqueue, hcallbacks, -, hworld, -⟩ :=
    start_eq lobby db accounts players scenes o
  exact ⟨by simp [hworld], by simp [hcallbacks], by simp [hqueue]⟩

end GameService

end TinRpc

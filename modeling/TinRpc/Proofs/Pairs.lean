import TinRpc.Proofs.Routing

/-!
# Who is matched

A round of matching takes both players of a pair out of the queue and only then asks for a room.
The second player is not asked whether he has one, and of the two answers only the first is looked
at. So the pair ends up in one room just where neither player was in a room or both were in the same
one (`matched_settled`).
-/

namespace TinRpc

open Transition MatchQueue

namespace GameLobby

variable {E : Type} (g : GameLobby E) (p q : String)

def InRoom : Prop := ∃ r room, g.roomMgr.rooms.lookup r = some room ∧ p ∈ room.players

/-- Two players are in one room. -/
def Together : Prop :=
  ∃ r room, g.roomMgr.rooms.lookup r = some room ∧ p ∈ room.players ∧ q ∈ room.players

/-- A player who was paired is in a room with the other or back in the queue. -/
def Settled : Prop := g.Together p q ∨ p ∈ g.matchQueue.ids

variable {g p q}

theorem inRoom_iff (h : g.roomMgr.Orderly) : g.InRoom p ↔ g.roomMgr.free p = false := by
  unfold InRoom RoomManager.free
  rw [Option.isNone_eq_false_iff, Option.isSome_iff_exists]
  exact exists_congr fun r => (h.indexed p r).symm

theorem together_iff (h : g.roomMgr.Orderly) : g.Together p q ↔ g.SameRoom p q := by
  unfold Together SameRoom
  refine exists_congr fun r => ?_
  rw [h.indexed p r, h.indexed q r]
  constructor
  · rintro ⟨room, hr, hp, hq⟩
    exact ⟨⟨room, hr, hp⟩, room, hr, hq⟩
  · rintro ⟨⟨room, hr, hp⟩, room', hr', hq⟩
    rw [hr, Option.some.injEq] at hr'
    exact ⟨room, hr, hp, hr' ▸ hq⟩

theorem together_comm : g.Together p q ↔ g.Together q p := by
  unfold Together
  refine exists_congr fun r => exists_congr fun room => ?_
  tauto

variable [Doubles E] {now : ℤ}

/-- In every state that requests, disconnects, rounds of matching and timers lead to, whoever a
round takes out of the queue is in one of its pairs. The players of a pair end up in one room or
back in the queue just where neither was in a room or both were in one. -/
theorem matched_settled (h : Reach step NamesUnused new g) (hu : NamesUnused g (.tryMatch now)) :
    (∀ p ∈ g.matchQueue.ids, p ∉ (g.tryMatch now).1.matchQueue.ids →
      ∃ m ∈ (g.matchQueue.tryMatch now).2, p = m.p1 ∨ p = m.p2) ∧
    ∀ m ∈ (g.matchQueue.tryMatch now).2,
      (Settled (g.tryMatch now).1 m.p1 m.p2 ∧ Settled (g.tryMatch now).1 m.p2 m.p1 ↔
        ¬ g.InRoom m.p1 ∧ ¬ g.InRoom m.p2 ∨ g.Together m.p1 m.p2) := by
  have hf := fine_reach h
  have hhoused := housed_tryMatch hf hu
  have hqueue : (g.tryMatch now).1.matchQueue = (g.matchQueue.tryMatch now).1 := hhoused.queue
  obtain ⟨-, -, hleft⟩ := hf.queue.tryMatch now
  refine ⟨fun p hp hout => ?_, fun m hm => ?_⟩
  · rw [hqueue] at hout
    rcases List.mem_append.1 ((ids_tryMatch g.matchQueue now).mem_iff.2 hp) with hin | hin
    · obtain ⟨m, hm, hp⟩ := List.mem_flatMap.1 hin
      exact ⟨m, hm, by simpa using hp⟩
    · exact absurd hin hout
  · obtain ⟨h1, h2⟩ := mem_pairIds hm
    have hsettled : Settled (g.tryMatch now).1 m.p1 m.p2 ∧ Settled (g.tryMatch now).1 m.p2 m.p1 ↔
        (g.tryMatch now).1.Together m.p1 m.p2 := by
      unfold Settled
      rw [hqueue, or_iff_left (hleft _ h1), or_iff_left (hleft _ h2), together_comm (p := m.p2),
        and_self_iff]
    rw [hsettled, together_iff hhoused.orderly, hhoused.pairs m hm, together_iff hf.rooms,
      inRoom_iff hf.rooms, inRoom_iff hf.rooms, Bool.not_eq_false, Bool.not_eq_false]
    rfl

/-- Two players enter the queue and are matched: both are in the new room. -/
theorem matched_settled_two : ∃ g : GameLobby Score, Reach step NamesUnused new g ∧
    pairIds (g.matchQueue.tryMatch 0).2 = ["bob", "ann"] ∧
    Settled (g.tryMatch 0).1 "bob" "ann" ∧ Settled (g.tryMatch 0).1 "ann" "bob" := by
  have hplay : (([.enterQueue "ann" (.fin 1250) 0, .enterQueue "bob" (.fin 1200) 0] :
      List (Op Score)).foldlM (fun g op => if NamesUnused g op then step g op else none)
        (new : GameLobby Score)).map (fun g =>
          decide (NamesUnused g (.tryMatch 0) ∧
            (g.matchQueue.tryMatch 0).2 = [⟨"bob", .fin 1200, "ann", .fin 1250⟩] ∧
            g.roomMgr.free "bob" = true ∧ g.roomMgr.free "ann" = true)) = some true := by
    decide +kernel
  obtain ⟨g, hg, hstate⟩ := Option.map_eq_some_iff.1 hplay
  obtain ⟨hu, hms, hbob, hann⟩ := of_decide_eq_true hstate
  have hr : Reach step NamesUnused new g := Reach.of_foldlM _ hg
  have hf := (fine_reach hr).rooms
  obtain ⟨-, hpairs⟩ := matched_settled hr hu
  have hpair : (⟨"bob", .fin 1200, "ann", .fin 1250⟩ : Matched Score) ∈
      (g.matchQueue.tryMatch 0).2 := by
    rw [hms]
    exact List.mem_cons_self
  have hboth := (hpairs _ hpair).2
    (.inl ⟨by rw [inRoom_iff hf, hbob]; decide, by rw [inRoom_iff hf, hann]; decide⟩)
  exact ⟨g, hr, by rw [hms]; rfl, hboth⟩

end GameLobby

namespace GameService

open GameLobby

/-- `ann` enters the queue and then creates a room, and `bob` enters: he is alone in a new room,
and `ann` in hers. Or `bob` enters, and `ann` creates a room before she enters: there is no new
room, and `bob` is in none. Neither is in the queue. -/
theorem matched_apart : (∃ s s' : GameService ℚ (GameLobby Score), Serving anyEvent s ∧
      s.lobby.matchQueue.ids = ["ann"] ∧
      step s (.frame 6 3 (.other "EnterMatch" bobBody) 0) = some s' ∧
      ¬ s'.lobby.Settled "ann" "bob" ∧ ¬ s'.lobby.Settled "bob" "ann") ∧
    ∃ s s' : GameService ℚ (GameLobby Score), Serving anyEvent s ∧
      s.lobby.matchQueue.ids = ["bob"] ∧
      step s (.frame 5 3 (.other "EnterMatch" annBody) 0) = some s' ∧
      ¬ s'.lobby.Settled "ann" "bob" ∧ ¬ s'.lobby.Settled "bob" "ann" := by
  have hkey : ∀ (s s' : GameService ℚ (GameLobby Score)) (e : Event ℚ), Serving NewNames s →
      NewNames s e → step s e = some s' → s'.lobby.matchQueue.ids = [] →
      s'.lobby.roomMgr.playerRoom.lookup "ann" ≠ s'.lobby.roomMgr.playerRoom.lookup "bob" →
      ¬ s'.lobby.Settled "ann" "bob" ∧ ¬ s'.lobby.Settled "bob" "ann" := by
    intro s s' e ⟨db, accounts, players, scenes, o, hr⟩ hn he hids hne
    have hf := fine_reach (lobby_reach ⟨db, accounts, players, scenes, o, hr.next hn he⟩)
    have hapart : ¬ s'.lobby.Together "ann" "bob" := by
      rw [together_iff hf.rooms]
      rintro ⟨r, ha, hb⟩
      exact hne (ha.trans hb.symm)
    refine ⟨?_, ?_⟩
    · rintro (h | h)
      · exact hapart h
      · rw [hids] at h
        cases h
    · rintro (h | h)
      · exact hapart (together_comm.1 h)
      · rw [hids] at h
        cases h
  have hrun : ∀ (es : List (Event ℚ)) (e : Event ℚ) (ids : List String),
      (serve NewNames twoAccounts es).map (fun s =>
        (decide (NewNames s e ∧ s.lobby.matchQueue.ids = ids),
          (step s e).map fun s' => decide (s'.lobby.matchQueue.ids = [] ∧
            s'.lobby.roomMgr.playerRoom.lookup "ann" ≠
              s'.lobby.roomMgr.playerRoom.lookup "bob"))) = some (true, some true) →
      ∃ s s' : GameService ℚ (GameLobby Score), Serving anyEvent s ∧
        s.lobby.matchQueue.ids = ids ∧ step s e = some s' ∧
        ¬ s'.lobby.Settled "ann" "bob" ∧ ¬ s'.lobby.Settled "bob" "ann" := by
    intro es e ids hplay
    obtain ⟨s, hs, hstate⟩ := Option.map_eq_some_iff.1 hplay
    obtain ⟨hbefore, hstep⟩ := Prod.mk.inj hstate
    obtain ⟨hn, hids⟩ := of_decide_eq_true hbefore
    obtain ⟨s', he, hafter⟩ := Option.map_eq_some_iff.1 hstep
    obtain ⟨hempty, hne⟩ := of_decide_eq_true hafter
    have hr := serving_of_serve hs
    exact ⟨s, s', hr.mono fun _ _ _ => trivial, hids, he, hkey s s' e hr hn he hempty hne⟩
  constructor
  · exact hrun [.accept 5, .accept 6, .frame 5 1 (.other "EnterMatch" annBody) 0,
      .frame 5 2 (.other "CreateRoom" annBody) 0] _ _ (by decide +kernel)
  · exact hrun [.accept 5, .accept 6, .frame 6 1 (.other "EnterMatch" bobBody) 0,
      .frame 5 2 (.other "CreateRoom" annBody) 0] _ _ (by decide +kernel)

end GameService

end TinRpc

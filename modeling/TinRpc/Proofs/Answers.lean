import TinRpc.Proofs.Sessions
import TinRpc.Messages

/-!
# One answer for each frame

Every handler sends one answer, or posts a task that keeps the frame's fd and its request id, and
the completion of the task sends it; or nobody is found on the fd, and there is none
(`frames_answered`). Nothing else answers.
-/

namespace TinRpc

open Transition

variable {F D : Type}

/-- The method of the frame a request came in. -/
def Request.method : Request F → String
  | register _ => "Register"
  | login _ => "Login"
  | selectMap _ => "SelectMap"
  | move _ => "Move"
  | voxelEdit _ => "VoxelEdit"
  | craft _ => "Craft"
  | gather _ => "Gather"
  | placeBuilding _ => "PlaceBuilding"
  | other method _ => method

/-- The method of the frame an answer goes out in. -/
def Response.method : Response F → String
  | register .. => "Register"
  | login .. => "Login"
  | selectMap .. => "SelectMap"
  | move .. => "Move"
  | voxelEdit .. => "VoxelEdit"
  | craft .. => "Craft"
  | gather .. => "Gather"
  | placeBuilding .. => "PlaceBuilding"
  | other method _ => method

/-! ## What is owed -/

/-- An fd, a request id and a method. -/
abbrev Slip := ℤ × ℕ × String

/-- What a message answers. -/
def Message.slip (fd : ℤ) : Message F → Option Slip
  | response requestId r => some (fd, requestId, r.method)
  | error requestId method => some (fd, requestId, method)
  | push _ => none
  | roomEvent _ => none

def Task.slip : Task F → Option Slip
  | createAccount t .. => some (t.fd, t.requestId, "Register")
  | verifyLogin t .. => some (t.fd, t.requestId, "Login")
  | savePlayer _ => none
  | saveScene _ => none

def Callback.slip : Callback F → Slip
  | registered t _ => (t.fd, t.requestId, "Register")
  | loggedIn t .. => (t.fd, t.requestId, "Login")

namespace GameService

/-- What has been answered, and what the queue and the callbacks will answer. -/
structure Due where
  answered : List Slip
  queued : List Slip
  called : List Slip

def due (s : GameService F D) : Due where
  answered := s.wire.filterMap fun e => e.2.slip e.1.fd
  queued := s.queue.filterMap Task.slip
  called := s.callbacks.map Callback.slip

def Due.all (d : Due) : List Slip := d.answered ++ d.queued ++ d.called

variable (s : GameService F D)

theorem due_send (conn : Connection) (m : Message F) : (s.send conn m).due =
    { s.due with answered := s.due.answered ++ (m.slip conn.fd).toList } := by
  unfold send due
  rw [List.filterMap_append]
  congr 1

theorem due_sendToPlayers {M : Type} {g : M → Message F} (h : ∀ m fd, (g m).slip fd = none)
    (sent : List (String × M)) : (s.sendToPlayers g sent).due = s.due := by
  unfold sendToPlayers due
  rw [List.filterMap_append, List.filterMap_filterMap]
  have hnone : (sent.filterMap fun e => ((s.playerConns e.1).map fun conn => (conn, g e.2)).bind
      fun e => e.2.slip e.1.fd) = [] := by
    refine List.filterMap_eq_nil_iff.2 fun e _ => ?_
    cases s.playerConns e.1 with
    | none => rfl
    | some conn => exact h _ _
  rw [hnone, List.append_nil]

theorem due_post (task : Task F) : (s.post task).due =
    { s.due with queued := s.due.queued ++ task.slip.toList } := by
  unfold post due
  rw [List.filterMap_append]
  congr 1

theorem due_savePlayerAsync (playerId : String) : (s.savePlayerAsync playerId).due = s.due := by
  unfold savePlayerAsync
  cases s.world.getSnapshot playerId with
  | none => rfl
  | some st =>
    simp only [due_post]
    exact congrArg (Due.mk _ · _) (List.append_nil _)

theorem due_saveSceneAsync : s.saveSceneAsync.due = s.due := by
  unfold saveSceneAsync
  rw [due_post]
  exact congrArg (Due.mk _ · _) (List.append_nil _)

theorem due_onError : s.onError.due = s.due := rfl

/-- One slip more is answered, or queued. -/
def Due.Gains (d : Due) (k : Slip) (d' : Due) : Prop :=
  d' = { d with answered := d.answered ++ [k] } ∨ d' = { d with queued := d.queued ++ [k] }

variable (rid : ℕ) (conn : Connection) (now : ℤ)

theorem due_handleRegister (req : Option (String × String)) :
    s.due.Gains (conn.fd, rid, "Register") (s.handleRegister rid conn req).due := by
  unfold handleRegister
  rcases req with _ | ⟨username, password⟩
  · exact .inl (due_send _ conn _)
  · exact .inr (due_post _ _)

theorem due_handleLogin (req : Option (String × String)) :
    s.due.Gains (conn.fd, rid, "Login") (s.handleLogin rid conn req).due := by
  unfold handleLogin
  rcases req with _ | ⟨username, password⟩
  · exact .inl (due_send _ conn _)
  · exact .inr (due_post _ _)

theorem due_dispatch [Lobby D] (method : String) (body : List UInt8) :
    s.due.Gains (conn.fd, rid, method) (s.dispatch rid conn now method body).due := by
  unfold dispatch
  obtain ⟨lobby, rsp, events⟩ := Lobby.call s.lobby s.metrics now method body
  have hevents := due_sendToPlayers { s with lobby } (g := .roomEvent) (fun _ _ => rfl) events
  rcases rsp with _ | body
  · exact .inl ((due_send _ conn _).trans (by rw [due_onError, hevents]; rfl))
  · exact .inl ((due_send _ conn _).trans (by rw [hevents]; rfl))

variable [Platform F]

theorem due_run (call : Call F) : (s.run call).due = s.due := by
  unfold run
  exact due_sendToPlayers _ (fun _ _ => rfl) _

theorem due_act (call : Call F) : (s.act conn call).due = s.due := by
  unfold act
  exact due_run _ _

theorem due_handleSelectMap (req : Option (String × ℤ)) :
    s.due.Gains (conn.fd, rid, "SelectMap") (s.handleSelectMap rid conn now req).due := by
  unfold handleSelectMap
  split
  · exact .inl ((due_send _ conn _).trans (by rw [due_act]; rfl))
  · exact .inl (due_send _ conn _)

theorem due_handleMove (req : Option (MoveReq F)) :
    s.due.Gains (conn.fd, rid, "Move") (s.handleMove rid conn now req).due := by
  unfold handleMove
  split
  · exact .inl (due_send _ conn _)
  · exact .inl (due_send _ conn _)
  · exact .inl ((due_send _ conn _).trans (by rw [due_act]; rfl))

theorem due_handleVoxelEdit (req : Option VoxelEditReq) :
    s.due.Gains (conn.fd, rid, "VoxelEdit") (s.handleVoxelEdit rid conn req).due := by
  unfold handleVoxelEdit
  split
  · refine .inl ((due_send _ conn _).trans ?_)
    rw [apply_ite due, due_savePlayerAsync, due_saveSceneAsync, due_act, ite_self]
    rfl
  · exact .inl (due_send _ conn _)

theorem due_handleCraft (recipeId : Option ℤ) :
    s.due.Gains (conn.fd, rid, "Craft") (s.handleCraft rid conn recipeId).due := by
  unfold handleCraft
  split
  · exact .inl (due_send _ conn _)
  · exact .inl (due_send _ conn _)
  · refine .inl ((due_send _ conn _).trans ?_)
    rw [apply_ite due, due_savePlayerAsync, due_act, ite_self]
    rfl

theorem due_handleGather (resourceId : Option String) :
    s.due.Gains (conn.fd, rid, "Gather") (s.handleGather rid conn resourceId).due := by
  unfold handleGather
  split
  · refine .inl ((due_send _ conn _).trans ?_)
    rw [apply_ite due, due_saveSceneAsync, due_savePlayerAsync, due_act, ite_self]
    rfl
  · exact .inl (due_send _ conn _)

theorem due_handlePlaceBuilding (req : Option (PlaceBuildingReq F)) :
    s.due.Gains (conn.fd, rid, "PlaceBuilding") (s.handlePlaceBuilding rid conn req).due := by
  unfold handlePlaceBuilding
  split
  · refine .inl ((due_send _ conn _).trans ?_)
    rw [apply_ite due, due_saveSceneAsync, due_savePlayerAsync, due_act, ite_self]
    rfl
  · exact .inl (due_send _ conn _)

/-- A task that is run hands its slip to the callback. -/
theorem due_runTask (o : DbOutcome) (task : Task F) : (s.runTask o task).due =
    { s.due with called := s.due.called ++ task.slip.toList } := by
  cases task with
  | createAccount t username password =>
    unfold due runTask
    simp only [List.map_append]
    rfl
  | verifyLogin t username password =>
    unfold due runTask
    simp only [List.map_append]
    rfl
  | savePlayer st => exact congrArg (Due.mk _ _) (List.append_nil _).symm
  | saveScene snap => exact congrArg (Due.mk _ _) (List.append_nil _).symm

theorem due_switchAccount (fd : ℤ) (playerId : String) :
    (s.switchAccount fd playerId).due = s.due := by
  unfold switchAccount
  split
  · rfl
  · next old _ =>
    split_ifs
    · rfl
    · show (run _ (.leave old)).due = s.due
      rw [due_run, due_savePlayerAsync]

/-- A callback answers, if it finds a connection. -/
theorem due_runCallback (callback : Callback F) :
    s.activeConns callback.ticket.fd = none ∧ (s.runCallback now callback).due = s.due ∨
    ∃ conn, s.activeConns callback.ticket.fd = some conn ∧
      (s.runCallback now callback).due = { s.due with
        answered := s.due.answered ++ [(conn.fd, callback.slip.2)] } := by
  cases callback with
  | registered t result =>
    unfold runCallback registered Callback.ticket
    simp only []
    cases hconn : s.activeConns t.fd with
    | none => exact .inl ⟨rfl, rfl⟩
    | some conn => exact .inr ⟨conn, rfl, due_send _ conn _⟩
  | loggedIn t result saved =>
    unfold runCallback loggedIn Callback.ticket
    simp only []
    cases hconn : s.activeConns t.fd with
    | none => exact .inl ⟨rfl, rfl⟩
    | some conn =>
      refine .inr ⟨conn, rfl, ?_⟩
      simp only []
      by_cases hok : result.ok = true
      · rw [if_pos hok]
        refine (due_send _ conn _).trans ?_
        rw [due_run, show (registerPlayerConn (s.switchAccount t.fd result.playerId)
          result.playerId conn).onConnect.due = s.due from
          due_switchAccount s t.fd result.playerId]
        rfl
      · rw [if_neg hok]
        exact due_send _ conn _

variable [Lobby D]

/-- A frame is answered, or a task is posted that will answer it. -/
theorem due_onServerFrame (request : Request F) :
    s.due.Gains (conn.fd, rid, request.method) (s.onServerFrame rid conn now request).due := by
  cases request with
  | register req => exact due_handleRegister _ rid conn req
  | login req => exact due_handleLogin _ rid conn req
  | selectMap req => exact due_handleSelectMap _ rid conn now req
  | move req => exact due_handleMove _ rid conn now req
  | voxelEdit req => exact due_handleVoxelEdit _ rid conn req
  | craft recipeId => exact due_handleCraft _ rid conn recipeId
  | gather resourceId => exact due_handleGather _ rid conn resourceId
  | placeBuilding req => exact due_handlePlaceBuilding _ rid conn req
  | other method body => exact due_dispatch _ rid conn now method body

theorem due_onPlayerDisconnected (fd : ℤ) : (s.onPlayerDisconnected fd now).due = s.due := by
  unfold onPlayerDisconnected
  simp only []
  split
  · rfl
  · next playerId _ =>
    show (run _ (.leave playerId)).due = s.due
    rw [due_run, due_sendToPlayers _ (fun _ _ => rfl)]
    exact due_savePlayerAsync { s with activeConns := Function.update s.activeConns fd none } playerId

end GameService

/-! ## The docket -/

/-- The service with the frames it has handled, the slips of completions that found no connection,
and the connections that have been closed. -/
structure Docket (F D : Type) where
  service : GameService F D
  frames : List Slip := []
  lost : List (Connection × ℕ × String) := []
  closed : List Connection := []

def Event.frames : Event F → List Slip
  | frame fd requestId request _ => [(fd, requestId, request.method)]
  | _ => []

/-- The completion that finds no connection. -/
def GameService.losing (s : GameService F D) : Event F → List (Connection × ℕ × String)
  | .loop _ => match s.callbacks with
    | callback :: _ => if (s.activeConns callback.ticket.fd).isNone then
        [(callback.ticket.conn, callback.slip.2)] else []
    | [] => []
  | _ => []

def GameService.closing (s : GameService F D) : Event F → List Connection
  | .close fd _ => (s.handlers fd).toList
  | _ => []

namespace Docket

variable [Platform F] [Lobby D] {d d' : Docket F D}

def step (d : Docket F D) (e : Event F) : Option (Docket F D) :=
  (TinRpc.step d.service e).map fun service =>
    { service
      frames := d.frames ++ e.frames
      lost := d.lost ++ d.service.losing e
      closed := d.closed ++ d.service.closing e }

/-- The fd that a lost slip was for, with what it was. -/
def lostSlip (k : Connection × ℕ × String) : Slip := (k.1.fd, k.2)

/-- Every frame is answered, owed an answer, or lost it. -/
def Balanced (d : Docket F D) : Prop :=
  (d.service.due.all ++ d.lost.map lostSlip).Perm d.frames

theorem balanced_step {e : Event F} (hs : d.service.Sessions) (h : d.Balanced)
    (hstep : d.step e = some d') : d'.Balanced := by
  obtain ⟨service, hservice, rfl⟩ := Option.map_eq_some_iff.1 hstep
  unfold Balanced GameService.Due.all at h ⊢
  rw [List.perm_iff_count] at h ⊢
  intro k
  have hk := h k
  simp only [List.count_append] at hk ⊢
  cases e with
  | accept fd =>
    obtain ⟨-, rfl⟩ := Step.accept hservice
    simp only [Event.frames, GameService.losing, List.append_nil]
    exact hk
  | frame fd rid request now =>
    obtain ⟨conn, hconn, rfl⟩ := Option.map_eq_some_iff.1 hservice
    obtain rfl := (hs.handlers _ _ hconn).1
    simp only [Event.frames, GameService.losing, List.append_nil]
    rcases GameService.due_onServerFrame d.service rid conn now request with hgain | hgain
    · rw [hgain]
      simp only [List.count_append]
      omega
    · rw [hgain]
      simp only [List.count_append]
      omega
  | close fd now =>
    obtain ⟨conn, hconn, rfl⟩ := Step.close hservice
    simp only [Event.frames, GameService.losing, List.append_nil]
    rw [show GameService.due { d.service.onPlayerDisconnected conn.fd now with
      handlers := Function.update (d.service.onPlayerDisconnected conn.fd now).handlers conn.fd
        none } = d.service.due from GameService.due_onPlayerDisconnected d.service now conn.fd]
    exact hk
  | work o =>
    obtain ⟨task, queue, hq, rfl⟩ := Step.work hservice
    obtain ⟨s, hs⟩ : ∃ s, s = { d.service with queue } := ⟨_, rfl⟩
    have hdue : d.service.due = { s.due with queued := task.slip.toList ++ s.due.queued } := by
      rw [hs]
      unfold GameService.due
      rw [hq]
      congr 1
      cases hslip : task.slip <;> simp [hslip]
    rw [← hs, GameService.due_runTask]
    rw [hdue] at hk
    simp only [Event.frames, GameService.losing, List.append_nil, List.count_append,
      List.count_nil] at hk ⊢
    omega
  | loop now =>
    obtain ⟨callback, callbacks, hq, rfl⟩ := Step.loop hservice
    obtain ⟨s, hsame⟩ : ∃ s, s = { d.service with callbacks } := ⟨_, rfl⟩
    have hdue : d.service.due = { s.due with called := callback.slip :: s.due.called } := by
      rw [hsame]
      unfold GameService.due
      rw [hq]
      rfl
    have hactive : s.activeConns = d.service.activeConns := by rw [hsame]
    rw [hdue] at hk
    rw [← hsame]
    simp only [Event.frames, GameService.losing, hq, List.count_cons, List.count_nil] at hk ⊢
    rcases s.due_runCallback now callback with ⟨hnone, hrun⟩ | ⟨conn, hconn, hrun⟩
    · have hslip : lostSlip (callback.ticket.conn, callback.slip.2) = callback.slip := by
        cases callback <;> rfl
      rw [hrun, ← hactive, hnone, Option.isNone_none, if_pos rfl, List.map_append,
        List.map_singleton, hslip, List.count_append, List.count_singleton]
      omega
    · rw [hactive] at hconn
      have hslip : (conn.fd, callback.slip.2) = callback.slip := by
        rw [(hs.handlers _ _ (hs.active _ _ hconn)).1]
        cases callback <;> rfl
      rw [hrun, hconn, Option.isNone_some, if_neg Bool.false_ne_true, List.append_nil, hslip]
      simp only [List.count_append, List.count_singleton]
      omega

/-- A frame's connection is open, or has been closed; so has the one of a lost answer. -/
structure Closed (d : Docket F D) : Prop where
  held : ∀ t, d.service.Holds t → d.service.handlers t.fd = some t.conn ∨ t.conn ∈ d.closed
  lost : ∀ k ∈ d.lost, k.1 ∈ d.closed

theorem closed_step {e : Event F} (hs : d.service.Sessions) (h : d.Closed)
    (hstep : d.step e = some d') : d'.Closed := by
  obtain ⟨service, hservice, rfl⟩ := Option.map_eq_some_iff.1 hstep
  cases e with
  | accept fd =>
    obtain ⟨hfree, rfl⟩ := Step.accept hservice
    simp only [GameService.losing, GameService.closing, List.append_nil]
    refine ⟨fun t ht => ?_, h.lost⟩
    rcases h.held t ht with hopen | hclosed
    · have hne : t.fd ≠ fd := by
        rintro rfl
        rw [hfree] at hopen
        cases hopen
      exact .inl ((Function.update_of_ne hne _ _).trans hopen)
    · exact .inr hclosed
  | frame fd rid request now =>
    obtain ⟨conn, hconn, hframed⟩ := Step.frame hservice
    simp only [GameService.losing, GameService.closing, List.append_nil]
    refine ⟨fun t ht => ?_, h.lost⟩
    rw [show service.handlers = d.service.handlers from hframed.sessions.handlers]
    rcases GameService.holds_framed hframed ht with ht | rfl
    · exact h.held t ht
    · obtain rfl := (hs.handlers _ _ hconn).1
      exact .inl hconn
  | close fd now =>
    obtain ⟨conn, s₁, hconn, -, rfl, hcases⟩ := Step.close_cases hservice
    have hfd := (hs.handlers _ _ hconn).1
    have hclosing : d.service.closing (.close fd now) = [conn] := congrArg Option.toList hconn
    have hkept : s₁.handlers = d.service.handlers ∧ ∀ t, s₁.Holds t → d.service.Holds t := by
      rcases hcases with ⟨-, rfl⟩ | ⟨p, -, hr⟩
      · exact ⟨rfl, fun t ht => ht⟩
      · exact ⟨hr.same.handlers, fun t ht => GameService.holds_removed hr ht⟩
    simp only [GameService.losing, hclosing, List.append_nil]
    refine ⟨fun t ht => ?_, fun k hk => List.mem_append_left _ (h.lost k hk)⟩
    rcases h.held t (hkept.2 t ht) with hopen | hclosed
    · by_cases hsame : t.fd = conn.fd
      · rw [hsame, hfd, hconn, Option.some.injEq] at hopen
        exact .inr (List.mem_append_right _ (hopen ▸ List.mem_singleton_self _))
      · refine .inl ((Function.update_of_ne hsame _ _).trans ?_)
        rw [hkept.1]
        exact hopen
    · exact .inr (List.mem_append_left _ hclosed)
  | work o =>
    obtain ⟨task, queue, hq, rfl⟩ := Step.work hservice
    simp only [GameService.losing, GameService.closing, List.append_nil]
    refine ⟨fun t ht => ?_, h.lost⟩
    have hhandlers : (GameService.runTask { d.service with queue } o task).handlers =
        d.service.handlers := by
      cases task <;> rfl
    rw [hhandlers]
    exact h.held t (GameService.holds_runTask hq ht)
  | loop now =>
    obtain ⟨callback, callbacks, hq, hcases⟩ := Step.loop_cases hservice
    have hticket : d.service.Holds callback.ticket :=
      .inr ⟨callback, by rw [hq]; exact List.mem_cons_self, rfl⟩
    have hkept : service.handlers = d.service.handlers ∧
        ∀ t, service.Holds t → d.service.Holds t := by
      have htaken : ∀ t, GameService.Holds { d.service with callbacks } t →
          d.service.Holds t := by
        rintro t (ht | ⟨callback', hmem, ht⟩)
        · exact .inl ht
        · exact .inr ⟨callback', by rw [hq]; exact List.mem_cons_of_mem _ hmem, ht⟩
      rcases hcases with ⟨rest, metrics, rfl, -⟩ | ⟨t, result, saved, conn, -, -, -, hj⟩
      · exact ⟨rfl, htaken⟩
      · obtain ⟨hhandlers, -, -, hholds, -⟩ := GameService.switched t.fd result.playerId
          (GameService.sessions_taken hs hq)
        refine ⟨hj.same.handlers.trans hhandlers, fun u hu => htaken u (hholds u ?_)⟩
        rcases hu with hu | hu
        · exact .inl (by rwa [hj.queue] at hu)
        · exact .inr (by rwa [hj.same.callbacks] at hu)
    simp only [GameService.losing, GameService.closing, hq, List.append_nil]
    refine ⟨fun t ht => ?_, fun k hk => ?_⟩
    · rw [hkept.1]
      exact h.held t (hkept.2 t ht)
    · rcases List.mem_append.1 hk with hk | hk
      · exact h.lost k hk
      · split_ifs at hk with hnone
        · rw [List.mem_singleton.1 hk]
          refine (h.held _ hticket).resolve_left fun hopen => ?_
          rw [(hs.tickets _ hticket).2 hopen] at hnone
          cases hnone
        · exact absurd hk List.not_mem_nil

/-- The docket of a service as constructed. -/
def start (lobby : D) (db : Database F) (accounts players scenes : Bool) (o : DbOutcome) :
    Docket F D :=
  { service := GameService.start lobby db accounts players scenes o }

theorem sound_of_reach {lobby : D} {db : Database F} {accounts players scenes : Bool} {o : DbOutcome}
    (h : Reach step anyEvent (start lobby db accounts players scenes o) d) :
    d.service.Sessions ∧ d.Balanced ∧ d.Closed := by
  obtain ⟨-, -, -, -, hqueue, hcallbacks, hwire, -⟩ :=
    GameService.start_eq lobby db accounts players scenes o
  have hbalanced : (start lobby db accounts players scenes o).Balanced := by
    unfold Balanced GameService.Due.all GameService.due start
    rw [hqueue, hcallbacks, hwire]
    exact List.Perm.refl _
  have hclosed : (start lobby db accounts players scenes o).Closed := by
    refine ⟨?_, nofun⟩
    rintro t (⟨task, htask, -⟩ | ⟨callback, hcallback, -⟩)
    · rw [show (start lobby db accounts players scenes o).service.queue = [] from hqueue] at htask
      exact absurd htask List.not_mem_nil
    · rw [show (start lobby db accounts players scenes o).service.callbacks = [] from
        hcallbacks] at hcallback
      exact absurd hcallback List.not_mem_nil
  have hrunning : Running anyEvent (start lobby db accounts players scenes o).service :=
    ⟨lobby, db, accounts, players, scenes, o, .start⟩
  refine h.invariant (P := fun d => d.service.Sessions ∧ d.Balanced ∧ d.Closed)
    ⟨GameService.sessions_reach hrunning, hbalanced, hclosed⟩
    fun d e d' hd _ hstep => ?_
  obtain ⟨service, hservice, heq⟩ := Option.map_eq_some_iff.1 hstep
  refine ⟨?_, balanced_step hd.1 hd.2.1 hstep, closed_step hd.1 hd.2.2 hstep⟩
  rw [← heq]
  exact GameService.sessions_step hd.1 hservice

/-- In every run each frame that was handled has one answer on its fd, with its request id and its
method, or is owed one by a task or a callback; or the answer found nobody, the connection having
been closed. Nothing else is an answer. -/
theorem frames_answered {lobby : D} {db : Database F} {accounts players scenes : Bool}
    {o : DbOutcome} (h : Reach step anyEvent (start lobby db accounts players scenes o) d) :
    (d.service.due.answered ++ d.service.due.queued ++ d.service.due.called ++
      d.lost.map lostSlip).Perm d.frames ∧ ∀ k ∈ d.lost, k.1 ∈ d.closed := by
  obtain ⟨-, hbalanced, hclosed⟩ := sound_of_reach h
  exact ⟨hbalanced, hclosed.lost⟩

/-- A login that is answered, a move that is refused, and a registration whose connection is closed
before it is completed. -/
theorem frames_answered_login : ∃ d : Docket ℚ Unit,
    d.service.due.answered = [(4, 2, "Move"), (4, 1, "Login")] ∧
      d.lost = [(⟨1, 5⟩, 7, "Register")] ∧
      (d.service.due.answered ++ d.service.due.queued ++ d.service.due.called ++
        d.lost.map lostSlip).Perm d.frames := by
  have hrun : (([.accept 4, .accept 5, .frame 4 1 (.login (some ("ann", "secret"))) 0,
      .frame 4 2 (.move (some ⟨1, 0, 1, 0, 0⟩)) 0, .frame 5 7 (.register (some ("eve", "x"))) 0,
      .work {}, .work {}, .close 5 0, .loop 0, .loop 0] : List (Event ℚ)).foldlM
      (fun (d : Docket ℚ Unit) e => if anyEvent d e then d.step e else none)
      (start () twoAccounts true true true {})).map
        (fun d => (d.service.due.answered, d.lost)) =
      some ([(4, 2, "Move"), (4, 1, "Login")], [(⟨1, 5⟩, 7, "Register")]) := by decide +kernel
  obtain ⟨d, hd, hview⟩ := Option.map_eq_some_iff.1 hrun
  obtain ⟨hanswered, hlost⟩ := Prod.mk.inj hview
  exact ⟨d, hanswered, hlost, (frames_answered (Reach.of_foldlM _ hd)).1⟩

end Docket

end TinRpc

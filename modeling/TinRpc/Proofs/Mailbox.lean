import TinRpc.Mailbox
import TinRpc.Proofs.Session

/-!
# What holds of messages and requests

A session sends at most one request at a time, with an id that nothing else has had while there are
ids left. So an answer finds the request it is for (`Mailbox.Sound.hand`), of the kind it answers,
and what a session tells its client is what the server sent it.
-/

namespace TinRpc

open Transition

variable {F : Type} [FloatBits F] [WorldProto F]

/-- A signal with a message in it. -/
def Signal.tells : Signal → Bool
  | completed .. => true
  | notified .. => true
  | _ => false

/-- What a signal notifies of. -/
def Signal.notice : Signal → Option ((d : ProtoBridge.Decoder) × d.Result)
  | notified d result => some ⟨d, result⟩
  | _ => none

/-- What a message is to notify of. -/
def Message.notice : Message F → Option ((d : ProtoBridge.Decoder) × d.Result)
  | push p => some (ProtoBridge.ofPush p)
  | _ => none

/-- An answer answers a request of a kind where the kind has a result for it. -/
theorem ClientRequest.result_of_answeredBy {q : ℕ × ClientRequest} {r : Response F}
    (h : (ClientRequest.serve (F := F) q).2.answeredBy r = true) :
    ∃ value, q.2.kind.result r = some value := by
  obtain ⟨id, q⟩ := q
  cases q <;> cases r <;> first | exact ⟨_, rfl⟩ | cases h

namespace NetSession

variable {s s' : NetSession}

/-- The signals with messages in them. -/
def told (s : NetSession) : List Signal := s.signals.filter Signal.tells

theorem told_emit (s : NetSession) (signals : List Signal) :
    (s.emit signals).told = s.told ++ signals.filter Signal.tells := List.filter_append ..

theorem notices_told (s : NetSession) :
    s.told.filterMap Signal.notice = s.signals.filterMap Signal.notice := by
  unfold told
  rw [List.filterMap_filter]
  refine List.filterMap_congr fun signal _ => ?_
  cases signal <;> rfl

theorem told_handleDisconnected (s : NetSession) : s.handleDisconnected.told = s.told := by
  unfold handleDisconnected
  split_ifs
  · unfold onDisconnected
    rw [told_emit]
    exact List.append_nil _
  · rfl

theorem told_disconnectFromHost (s : NetSession) : s.disconnectFromHost.told = s.told := by
  unfold disconnectFromHost
  split_ifs
  · exact told_handleDisconnected s
  · rfl

theorem told_pollStatus (s : NetSession) (pollError : Bool) (status : PeerStatus) :
    (s.pollStatus pollError status).told = s.told := by
  unfold pollStatus
  split_ifs
  · rfl
  · exact told_handleDisconnected s
  · rfl
  · rw [told_emit]
    exact List.append_nil _
  · exact told_handleDisconnected s
  · rfl

/-- A request is sent, with the next id, or nothing is. -/
theorem request_cases (s : NetSession) (r : ClientRequest) (status : PeerStatus) (put : Bool)
    (hid : s.nextRequestId ≠ 0) :
    ((s.request r status put).sends = s.sends ∧ (s.request r status put).stream = s.stream) ∨
    ((s.request r status put).sends = s.sends ++ [(s.nextRequestId, r.kind)] ∧
      (s.request r status put).stream = s.stream ++
        FrameCodec.encode s.nextRequestId FrameCodec.typeRequest (utf8 r.method) r.body ∧
      FrameCodec.encode s.nextRequestId FrameCodec.typeRequest (utf8 r.method) r.body ≠ []) := by
  unfold request send sendRequest
  by_cases hpeer : s.peer = false ∨ status ≠ .connected
  · simp only [if_pos hpeer, ne_eq, not_true_eq_false, if_false, ite_self]
    exact .inl ⟨trivial, trivial⟩
  · simp only [if_neg hpeer]
    by_cases hput : (FrameCodec.encode s.takeRequestId.1 FrameCodec.typeRequest (utf8 r.method)
        r.body).isEmpty || !put
    · simp only [if_pos hput, ne_eq, not_true_eq_false, if_false]
      split_ifs <;> exact .inl ⟨rfl, rfl⟩
    · simp only [if_neg hput]
      have hframe : FrameCodec.encode s.nextRequestId FrameCodec.typeRequest (utf8 r.method)
          r.body ≠ [] := by
        intro hnil
        rw [show s.takeRequestId.1 = s.nextRequestId from rfl, hnil] at hput
        exact hput rfl
      have hid : s.takeRequestId.1 ≠ 0 := hid
      simp only [if_pos hid]
      split_ifs with hmove hflight
      · exact .inl ⟨rfl, rfl⟩
      · exact .inr ⟨rfl, rfl, hframe⟩
      · exact .inr ⟨rfl, rfl, hframe⟩

theorem told_request (s : NetSession) (r : ClientRequest) (status : PeerStatus) (put : Bool) :
    (s.request r status put).told = s.told := by
  unfold request send sendRequest
  split_ifs <;> first | rfl | (simp only []; split_ifs <;> rfl)

theorem completions_request (s : NetSession) (r : ClientRequest) (status : PeerStatus)
    (put : Bool) : (s.request r status put).completions = s.completions := by
  unfold request send sendRequest
  split_ifs <;> first | rfl | (simp only []; split_ifs <;> rfl)

theorem sends_handleDisconnected (s : NetSession) : s.handleDisconnected.sends = s.sends := by
  unfold handleDisconnected
  split_ifs <;> rfl

theorem completions_handleDisconnected (s : NetSession) :
    s.handleDisconnected.completions = s.completions := by
  unfold handleDisconnected
  split_ifs <;> rfl

theorem sends_disconnectFromHost (s : NetSession) : s.disconnectFromHost.sends = s.sends := by
  unfold disconnectFromHost
  split_ifs
  · exact sends_handleDisconnected s
  · rfl

theorem completions_disconnectFromHost (s : NetSession) :
    s.disconnectFromHost.completions = s.completions := by
  unfold disconnectFromHost
  split_ifs
  · exact completions_handleDisconnected s
  · rfl

theorem sends_pollStatus (s : NetSession) (pollError : Bool) (status : PeerStatus) :
    (s.pollStatus pollError status).sends = s.sends := by
  unfold pollStatus
  split_ifs <;> first | rfl | exact sends_handleDisconnected s

theorem completions_pollStatus (s : NetSession) (pollError : Bool) (status : PeerStatus) :
    (s.pollStatus pollError status).completions = s.completions := by
  unfold pollStatus
  split_ifs <;> first | rfl | exact completions_handleDisconnected s

theorem moves_settle {id : ℕ} {kind : RequestKind} {signals : List Signal}
    (hpending : s.pendingRequests id = some kind)
    (hsignals : signals.filterMap Signal.settles = [kind]) :
    s.desk.Moves ((s.settle id kind).emit signals).desk := by
  rw [desk_emit, hsignals]
  exact .settle id kind [kind] hpending (List.Sublist.refl _)

omit [WorldProto F] in
theorem moves_hand {x : Message F} (h : s.hand x = some s') : s.desk.Moves s'.desk := by
  unfold hand at h
  cases x with
  | push p =>
    cases h
    exact moves_emit rfl
  | roomEvent data =>
    cases h
    exact .same
  | error id method =>
    cases hpending : s.pendingRequests id with
    | none =>
      simp only [hpending, Option.some.injEq] at h
      exact h ▸ .same
    | some kind =>
      simp only [hpending, Option.some.injEq] at h
      exact h ▸ moves_settle hpending rfl
  | response id r =>
    cases hpending : s.pendingRequests id with
    | none =>
      simp only [hpending, Option.some.injEq] at h
      exact h ▸ .same
    | some kind =>
      simp only [hpending, Option.map_eq_some_iff] at h
      obtain ⟨value, -, rfl⟩ := h
      exact moves_settle hpending rfl

end NetSession

namespace Mailbox

open NetSession

variable {m m' : Mailbox F}

/-- What holds of a mailbox in every run. -/
structure Sound (m : Mailbox F) : Prop where
  desk : m.session.desk.Lawful
  young : m.session.taken < 2 ^ 32 - 1 → m.session.desk.Young
  sends : m.session.sends = m.asked.map fun q => (q.1, q.2.kind)
  ids : ∀ q ∈ m.asked, 0 < q.1 ∧ q.1 < 2 ^ 32
  inOrder : (m.served ++ m.toServer).Sublist m.asked
  answers : ∀ x ∈ m.arrived ++ m.toClient, x.Answers (m.served.map ClientRequest.serve)
  carried : (m.arrived ++ m.toClient).Sublist m.sent
  notices : (m.session.told.filterMap Signal.notice ++
    (m.arrived ++ m.toClient).filterMap Message.notice).Sublist (m.sent.filterMap Message.notice)
  completed : ∀ kind result, .completed kind result ∈ m.session.told → ∃ id r,
    .response id r ∈ m.sent ∧ kind.result r = some result ∧ (id, kind) ∈ m.session.completions

theorem sound_new : (({} : Mailbox F)).Sound where
  desk := ⟨Nat.one_pos, (by decide : 1 < 2 ^ 32), fun _ _ => Nat.le_refl 0, nofun, nofun, List.Sublist.refl _⟩
  young _ := ⟨rfl, nofun, List.nodup_nil, nofun, nofun⟩
  sends := rfl
  ids := nofun
  inOrder := List.Sublist.refl _
  answers _ h := absurd h List.not_mem_nil
  carried := List.Sublist.refl _
  notices := List.Sublist.refl _
  completed := nofun

omit [FloatBits F] [WorldProto F] in
/-- More requests served leave an answer an answer. -/
theorem answers_mono {served served' : List (ℕ × Request F)} (h : served ⊆ served')
    {x : Message F} (hx : x.Answers served) : x.Answers served' := by
  cases x with
  | response id r =>
    obtain ⟨q, hq, hr⟩ := hx
    exact ⟨q, h hq, hr⟩
  | error id method =>
    obtain ⟨q, hq, hr⟩ := hx
    exact ⟨q, h hq, hr⟩
  | push p => trivial
  | roomEvent data => trivial

/-- The session moves, and neither sends nor tells anything. -/
theorem Sound.quiet (h : m.Sound) {session : NetSession} (hm : m.session.desk.Moves session.desk)
    (hsends : session.sends = m.session.sends) (hold : session.told = m.session.told)
    (hcompletions : session.completions = m.session.completions) :
    Sound { m with session } where
  desk := h.desk.moves hm
  young hlt := (h.young (Nat.lt_of_le_of_lt hm.taken_le hlt)).moves hm hlt
  sends := hsends.trans h.sends
  ids := h.ids
  inOrder := h.inOrder
  answers := h.answers
  carried := h.carried
  notices := hold.symm ▸ h.notices
  completed kind result hmem := by
    have := h.completed kind result (hold ▸ hmem)
    rwa [← hcompletions] at this

/-- While no id has been taken twice, a pending request is the one that was served with its id. -/
theorem Sound.kind_eq (h : m.Sound) (hlt : m.session.taken < 2 ^ 32 - 1) {kind : RequestKind}
    {q : ℕ × ClientRequest} (hq : q ∈ m.served)
    (hpending : m.session.pendingRequests q.1 = some kind) : q.2.kind = kind := by
  have hcount := h.desk.counted q.1 kind
  have hasked : q ∈ m.asked := h.inOrder.subset (List.mem_append_left _ hq)
  have hserved : (q.1, q.2.kind) ∈ m.session.sends := by
    rw [h.sends]
    exact List.mem_map.2 ⟨q, hasked, rfl⟩
  have hsent : (q.1, kind) ∈ m.session.desk.sends := by
    rw [show m.session.desk.pending q.1 = some kind from hpending, if_pos rfl] at hcount
    exact List.count_pos_iff.1 (Nat.lt_of_lt_of_le (Nat.succ_pos _) hcount)
  have hsame := List.inj_on_of_nodup_map (h.young hlt).distinct hserved hsent rfl
  exact (Prod.mk.inj hsame).2

/-- A message that has arrived can be handed over. -/
theorem Sound.hand (h : m.Sound) (hlt : m.session.taken < 2 ^ 32 - 1) {x : Message F}
    (hx : x ∈ m.arrived ++ m.toClient) : ∃ session, m.session.hand x = some session := by
  cases x with
  | push p => exact ⟨_, rfl⟩
  | roomEvent data => exact ⟨_, rfl⟩
  | error id method =>
    unfold NetSession.hand
    cases hpending : m.session.pendingRequests id with
    | none =>
      simp only [hpending]
      exact ⟨_, rfl⟩
    | some kind =>
      simp only [hpending]
      exact ⟨_, rfl⟩
  | response id r =>
    obtain ⟨q', hq', rfl, hr⟩ := h.answers _ hx
    obtain ⟨q, hq, rfl⟩ := List.mem_map.1 hq'
    obtain ⟨value, hvalue⟩ := ClientRequest.result_of_answeredBy hr
    unfold NetSession.hand
    cases hpending : m.session.pendingRequests (ClientRequest.serve (F := F) q).1 with
    | none =>
      simp only [hpending]
      exact ⟨_, rfl⟩
    | some kind =>
      obtain rfl := h.kind_eq hlt hq hpending
      simp only [hpending, hvalue, Option.map_some]
      exact ⟨_, rfl⟩

omit [WorldProto F] in
/-- What handing a message over tells. -/
theorem told_hand {s s' : NetSession} {x : Message F} (h : s.hand x = some s') :
    s'.told.filterMap Signal.notice = s.told.filterMap Signal.notice ++ x.notice.toList ∧
    s'.sends = s.sends ∧ (∀ c ∈ s.completions, c ∈ s'.completions) ∧
    ∀ kind result, .completed kind result ∈ s'.told → .completed kind result ∈ s.told ∨
      ∃ id r, x = .response id r ∧ kind.result r = some result ∧ (id, kind) ∈ s'.completions := by
  unfold NetSession.hand at h
  cases x with
  | push p =>
    cases h
    rw [told_emit, List.filterMap_append]
    refine ⟨rfl, rfl, fun c hc => hc, fun kind result hmem => .inl ?_⟩
    rcases List.mem_append.1 hmem with hmem | hmem
    · exact hmem
    · exact absurd (List.mem_singleton.1 hmem) nofun
  | roomEvent data =>
    cases h
    exact ⟨(List.append_nil _).symm, rfl, fun c hc => hc, fun _ _ hmem => .inl hmem⟩
  | error id method =>
    cases hpending : s.pendingRequests id with
    | none =>
      simp only [hpending, Option.some.injEq] at h
      subst h
      exact ⟨(List.append_nil _).symm, rfl, fun c hc => hc, fun _ _ hmem => .inl hmem⟩
    | some kind =>
      simp only [hpending, Option.some.injEq] at h
      subst h
      rw [told_emit, List.filterMap_append]
      refine ⟨rfl, rfl, fun c hc => List.mem_append_left _ hc, fun kind' result hmem => .inl ?_⟩
      rcases List.mem_append.1 hmem with hmem | hmem
      · exact hmem
      · exact absurd hmem List.not_mem_nil
  | response id r =>
    cases hpending : s.pendingRequests id with
    | none =>
      simp only [hpending, Option.some.injEq] at h
      subst h
      exact ⟨(List.append_nil _).symm, rfl, fun c hc => hc, fun _ _ hmem => .inl hmem⟩
    | some kind =>
      simp only [hpending, Option.map_eq_some_iff] at h
      obtain ⟨value, hvalue, rfl⟩ := h
      rw [told_emit, List.filterMap_append]
      refine ⟨rfl, rfl, fun c hc => List.mem_append_left _ hc, fun kind' result hmem => ?_⟩
      rcases List.mem_append.1 hmem with hmem | hmem
      · exact .inl hmem
      · have heq := List.mem_singleton.1 hmem
        cases heq
        exact .inr ⟨id, r, rfl, hvalue, List.mem_append_right _ (List.mem_singleton_self _)⟩

/-- A request is made, with an id that no request had. -/
theorem Sound.request (h : m.Sound) (r : ClientRequest) (status : PeerStatus) (put : Bool) :
    (m.request r status put).Sound := by
  have hmoves : m.session.desk.Moves (m.session.request r status put).blank.desk :=
    moves_request m.session r status put
  have hpos : 0 < m.session.nextRequestId := h.desk.next_pos
  have hlt : m.session.nextRequestId < 2 ^ 32 := h.desk.next_lt
  have htold : (m.session.request r status put).blank.told = m.session.told :=
    told_request m.session r status put
  have hdone : (m.session.request r status put).blank.completions = m.session.completions :=
    completions_request m.session r status put
  rcases request_cases m.session r status put (Nat.pos_iff_ne_zero.1 hpos) with ⟨hsends, -⟩ |
    ⟨hsends, -, -⟩
  · have hquiet := h.quiet hmoves hsends htold hdone
    have hnone : (m.session.request r status put).blank.sends.drop m.session.sends.length = [] := by
      rw [show (m.session.request r status put).blank.sends = m.session.sends from hsends]
      exact List.drop_length
    unfold Mailbox.request
    simp only [hnone, List.map_nil, List.append_nil]
    exact hquiet
  · have hmade : (m.session.request r status put).blank.sends.drop m.session.sends.length =
        [(m.session.nextRequestId, r.kind)] := by
      rw [show (m.session.request r status put).blank.sends =
        m.session.sends ++ [(m.session.nextRequestId, r.kind)] from hsends, List.drop_left]
    unfold Mailbox.request
    simp only [hmade, List.map_singleton]
    refine ⟨h.desk.moves hmoves, fun hids => (h.young (Nat.lt_of_le_of_lt hmoves.taken_le
      hids)).moves hmoves hids, ?_, fun q hq => ?_, ?_, h.answers, h.carried, ?_, ?_⟩
    · rw [List.map_append, ← h.sends]
      exact hsends
    · rcases List.mem_append.1 hq with hq | hq
      · exact h.ids q hq
      · rw [List.mem_singleton.1 hq]
        exact ⟨hpos, hlt⟩
    · rw [← List.append_assoc]
      exact h.inOrder.append (List.Sublist.refl _)
    · rw [htold]
      exact h.notices
    · intro kind result hmem
      rw [htold] at hmem
      rw [hdone]
      exact h.completed kind result hmem

theorem sound_step {e : MailEvent F} (h : m.Sound) (hok : m.ok e) (hs : m.step e = some m') :
    m'.Sound := by
  cases e with
  | connect =>
    cases hs
    refine { h with
      inOrder := (List.append_nil m.served).symm ▸ (List.sublist_append_left _ _).trans h.inOrder
      answers := fun x hx => ?_
      carried := ?_
      notices := ?_ }
    · rw [List.append_nil] at hx
      exact h.answers x (List.mem_append_left _ hx)
    · rw [List.append_nil]
      exact (List.sublist_append_left _ _).trans h.carried
    · rw [List.append_nil]
      refine List.Sublist.trans ((List.Sublist.refl _).append ?_) h.notices
      rw [List.filterMap_append]
      exact List.sublist_append_left _ _
  | disconnect =>
    cases hs
    exact h.quiet (moves_disconnectFromHost _) (sends_disconnectFromHost _)
      (told_disconnectFromHost _) (completions_disconnectFromHost _)
  | poll pollError status =>
    cases hs
    exact h.quiet (moves_pollStatus _ _ _) (sends_pollStatus _ _ _) (told_pollStatus _ _ _)
      (completions_pollStatus _ _ _)
  | lose =>
    cases hs
    exact h.quiet (moves_handleDisconnected _) (sends_handleDisconnected _)
      (told_handleDisconnected _) (completions_handleDisconnected _)
  | request r status put =>
    cases hs
    exact h.request r status put
  | arrive n =>
    cases hs
    have hsame : m.arrived ++ m.toClient.take n ++ m.toClient.drop n = m.arrived ++ m.toClient := by
      rw [List.append_assoc, List.take_append_drop]
    exact { h with
      answers := fun x hx => h.answers x (hsame ▸ hx)
      carried := hsame.symm ▸ h.carried
      notices := hsame.symm ▸ h.notices }
  | hand =>
    unfold step at hs
    cases harrived : m.arrived with
    | nil =>
      rw [harrived] at hs
      cases hs
    | cons x arrived =>
      rw [harrived] at hs
      simp only [Option.map_eq_some_iff] at hs
      obtain ⟨session, hsession, rfl⟩ := hs
      obtain ⟨hnotices, hsends, hkept, htold⟩ := told_hand hsession
      have hm := moves_hand hsession
      have hcarried := h.carried
      rw [harrived, List.cons_append] at hcarried
      refine ⟨h.desk.moves hm, fun hlt => (h.young (Nat.lt_of_le_of_lt hm.taken_le hlt)).moves hm hlt,
        hsends.trans h.sends, h.ids, h.inOrder, fun y hy => ?_, ?_, ?_, fun kind result hmem => ?_⟩
      · refine h.answers y ?_
        rw [harrived]
        exact List.mem_cons_of_mem _ hy
      · exact (List.sublist_cons_self _ _).trans hcarried
      · have := h.notices
        rw [harrived, List.cons_append, List.filterMap_cons] at this
        rw [hnotices, List.append_assoc]
        cases hx : x.notice with
        | none => rwa [hx] at this
        | some n => rwa [hx] at this
      · rcases htold kind result hmem with hold | ⟨id, r, rfl, hresult, hdone⟩
        · obtain ⟨id, r, hr, hresult, hdone⟩ := h.completed kind result hold
          exact ⟨id, r, hr, hresult, hkept _ hdone⟩
        · exact ⟨id, r, hcarried.subset List.mem_cons_self, hresult, hdone⟩
  | send x =>
    cases hs
    refine { h with
      answers := fun y hy => ?_
      carried := ?_
      notices := ?_
      completed := fun kind result hmem => ?_ }
    · rw [← List.append_assoc] at hy
      rcases List.mem_append.1 hy with hy | hy
      · exact h.answers y hy
      · rw [List.mem_singleton.1 hy]
        exact hok
    · rw [← List.append_assoc]
      exact h.carried.append (List.Sublist.refl _)
    · have := h.notices.append (List.Sublist.refl ([x].filterMap Message.notice))
      rwa [List.append_assoc, ← List.filterMap_append, ← List.filterMap_append,
        List.append_assoc] at this
    · obtain ⟨id, r, hr, hresult⟩ := h.completed kind result hmem
      exact ⟨id, r, List.mem_append_left _ hr, hresult⟩
  | serve n =>
    cases hs
    have hsame : m.served ++ m.toServer.take n ++ m.toServer.drop n = m.served ++ m.toServer := by
      rw [List.append_assoc, List.take_append_drop]
    exact { h with
      inOrder := hsame.symm ▸ h.inOrder
      answers := fun x hx => answers_mono
        (List.map_subset _ (List.subset_append_left _ _)) (h.answers x hx) }

theorem sound_of_reach (h : Reach Mailbox.step Mailbox.ok {} m) : m.Sound :=
  h.invariant sound_new fun _ _ _ hs hok he => sound_step hs hok he

end Mailbox

end TinRpc

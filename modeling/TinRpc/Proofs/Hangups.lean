import TinRpc.Proofs.Promises

/-!
# Calls when the connection is gone

The client's `Connection` has no disconnect callback, so its close completes no future. A closed
connection leaves nobody waiting just where every call that was sent is ready when it closes, and
no `send` succeeds for a call that waits afterwards (`calls_settled`).
-/

namespace TinRpc.Rpc

open Transition

namespace RpcClient

/-- Once the connection is closed, every future returned is ready, and only calls that have not
returned yet are in the table. -/
def Settled (s : RpcClient) : Prop :=
  s.connection = false →
    (∀ k c, s.call k = some c → c.stage = .sent ∨ c.stage = .failed → s.Ready k) ∧
    ∀ id k, s.pendingRequests id = some k →
      ∃ c, s.call k = some c ∧ (c.stage = .stored ∨ c.stage = .failing)

/-- The futures of all calls that were sent are ready. -/
def Answered (s : RpcClient) : Prop :=
  ∀ k, k < s.calls → (s.call k).map ClientCall.stage = some .sent → s.Ready k

/-- The connection closes when all calls that were sent are answered, and afterwards no call that
waits is sent. -/
def NobodyWaits (s : RpcClient) : ClientEvent → Prop
  | .peerClose => s.Answered
  | .disconnect => s.serverFd = true → s.connection = true → s.Answered
  | .send k (some _) => s.connection = true ∨ s.Ready k
  | _ => True

instance (s : RpcClient) : Decidable s.Answered :=
  inferInstanceAs (Decidable (∀ k, k < s.calls →
    (s.call k).map ClientCall.stage = some .sent → k ∈ s.completions.map Completion.call))

instance (s : RpcClient) (e : ClientEvent) : Decidable (NobodyWaits s e) :=
  match e with
  | .peerClose => inferInstanceAs (Decidable s.Answered)
  | .disconnect => inferInstanceAs
    (Decidable (s.serverFd = true → s.connection = true → s.Answered))
  | .send k (some _) => inferInstanceAs
    (Decidable (s.connection = true ∨ k ∈ s.completions.map Completion.call))
  | .send _ none | .call .. | .store _ | .fail _ | .receive .. | .closeFd => .isTrue trivial

variable {s s' : RpcClient} {k : ℕ} {c : ClientCall}

theorem settled_of_answered (hs : Promises s) (h : s.Answered) : Settled s := by
  intro _
  have hsent : ∀ k c, s.call k = some c → c.stage = .sent → s.Ready k := fun k c hc hstage =>
    h k (hs.numbered k c hc).1 (by rw [hc, Option.map_some, hstage])
  refine ⟨fun k c hc hstage => hstage.elim (hsent k c hc) (hs.failed k c hc), fun id k hk => ?_⟩
  obtain ⟨c, hc, rfl⟩ := hs.owner id k hk
  obtain ⟨hne, hr⟩ := (hs.held k c hc).1 hk
  refine ⟨c, hc, ?_⟩
  have hns : c.stage ≠ .sent := fun h => hr (hsent k c hc h)
  have hnf : c.stage ≠ .failed := fun h => hr (hs.failed k c hc h)
  cases hstage : c.stage with
  | stored => exact .inl rfl
  | failing => exact .inr rfl
  | allocated => exact absurd hstage hne
  | sent => exact absurd hstage hns
  | failed => exact absurd hstage hnf

theorem answered_of_settled (h : Settled s) (hclosed : s.connection = false) : s.Answered := by
  intro k _ hstage
  obtain ⟨c, hc, hstage⟩ := Option.map_eq_some_iff.1 hstage
  exact (h hclosed).1 k c hc (.inl hstage)

theorem connection_complete {id : UInt32} {cause : Cause} {value : List UInt8} :
    (s.complete id cause value).connection = s.connection := by
  rcases s.complete_cases id cause value with ⟨-, heq⟩ | ⟨m, -, heq⟩ <;> rw [heq]

/-- A call that goes on to a stage from which it returns ready. -/
theorem settled_setStage (stage : Stage) (hs : Promises s') (h : Settled s)
    (hcall : s'.call = (s.setStage k c stage).call)
    (hconnection : s'.connection = s.connection) (hready : ∀ j, s.Ready j → s'.Ready j)
    (hpending : ∀ id j, s'.pendingRequests id = some j → s.pendingRequests id = some j ∨ j = k)
    (hstage : stage = .stored ∨ stage = .failing ∨ s'.Ready k) : Settled s' := by
  have hcall : ∀ j, s'.call j = if j = k then some { c with stage } else s.call j := fun j =>
    (congrFun hcall j).trans (call_setStage j)
  intro hclosed
  obtain ⟨hreturned, hheld⟩ := h (hconnection ▸ hclosed)
  refine ⟨fun j d hd hdone => ?_, fun id j hj => ?_⟩
  · rw [hcall] at hd
    split_ifs at hd with hjk
    · obtain rfl := Option.some.inj hd
      rcases hstage with rfl | rfl | hr
      · simp at hdone
      · simp at hdone
      · exact hjk ▸ hr
    · exact hready j (hreturned j d hd hdone)
  · rw [hcall]
    split_ifs with hjk
    · rcases hstage with rfl | rfl | hr
      · exact ⟨_, rfl, .inl rfl⟩
      · exact ⟨_, rfl, .inr rfl⟩
      · exact absurd (hjk ▸ hr) (hs.not_ready hj)
    · rcases hpending id j hj with hj | hj
      · exact hheld id j hj
      · exact absurd hj hjk

theorem settled_call {methodName body : List UInt8} (hs : Promises s) (h : Settled s)
    (he : clientStep s (.call methodName body) = some s') : Settled s' := by
  obtain rfl := Option.some.inj he
  intro hclosed
  obtain ⟨hreturned, hheld⟩ := h hclosed
  refine ⟨fun j d hd hdone => ?_, fun id j hj => ?_⟩
  · rw [call_allocate] at hd
    split_ifs at hd
    · obtain rfl := Option.some.inj hd
      simp at hdone
    · exact hreturned j d hd hdone
  · obtain ⟨d, hd, hstage⟩ := hheld id j hj
    exact ⟨d, hs.kept_allocate hd, hstage⟩

theorem settled_store {k : ℕ} (hs : Promises s) (h : Settled s)
    (he : clientStep s (.store k) = some s') : Settled s' := by
  have hp := promises_step hs he
  obtain ⟨c, hc, -, rfl⟩ := ClientStep.store he
  refine settled_setStage .stored hp h rfl rfl
    (fun j hj => (ready_store (k := k)).2 (.inl hj)) (fun id j hj => ?_) (.inl rfl)
  have hj : Function.update s.pendingRequests c.requestId (some k) id = some j := hj
  rw [Function.update_apply] at hj
  split_ifs at hj
  · exact .inr (Option.some.inj hj).symm
  · exact .inl hj

theorem settled_send {k : ℕ} {outcome : Option ℕ} (hs : Promises s) (h : Settled s)
    (he : clientStep s (.send k outcome) = some s') :
    Settled s' ↔ NobodyWaits s (.send k outcome) := by
  have hp := promises_step hs he
  cases outcome with
  | some n =>
    obtain ⟨c, hc, -, rfl⟩ := ClientStep.send he
    constructor
    · intro h'
      by_contra hwaits
      obtain ⟨hopen, hready⟩ := not_or.1 hwaits
      exact hready ((h' (Bool.not_eq_true _ ▸ hopen)).1 k _ (Function.update_self ..) (.inl rfl))
    · rintro (hopen | hready)
      · intro hclosed
        have hclosed : s.connection = false := hclosed
        rw [hopen] at hclosed
        cases hclosed
      · exact settled_setStage .sent hp h rfl rfl (fun j hj => hj)
          (fun id j hj => .inl hj) (.inr (.inr hready))
  | none =>
    obtain ⟨c, hc, -, rfl⟩ := ClientStep.sendFails he
    exact iff_of_true (settled_setStage .failing hp h rfl rfl (fun j hj => hj)
      (fun id j hj => .inl hj) (.inr (.inl rfl))) trivial

theorem settled_fail {k : ℕ} (hs : Promises s) (h : Settled s)
    (he : clientStep s (.fail k) = some s') : Settled s' := by
  have hp := promises_step hs he
  obtain ⟨c, hc, hstage, rfl⟩ := ClientStep.fail he
  refine settled_setStage (k := k) (c := c) .failed hp h ?_ ?_
    (fun j hj => ready_complete.2 (.inl hj)) (fun id j hj => .inl ?_) (.inr (.inr ?_))
  · show Function.update (s.complete c.requestId (.sendFailed k) []).call k _ = _
    rw [call_complete]
    rfl
  · exact connection_complete
  · have hj : (s.complete c.requestId (.sendFailed k) []).pendingRequests id = some j := hj
    rw [pending_complete, Function.update_apply] at hj
    split_ifs at hj
    exact hj
  · refine ready_complete.2 (or_iff_not_imp_left.2 fun hr => ?_)
    exact (hs.held k c hc).2 ⟨by simp [hstage], hr⟩

/-- What is received is received on an open connection. -/
theorem settled_receive {answers : Option ℕ} {msgType : MessageType}
    {methodName body : List UInt8}
    (he : clientStep s (.receive answers msgType methodName body) = some s') : Settled s' := by
  intro hclosed
  have hopen : s.connection = true ∧ s'.connection = s.connection := by
    cases answers with
    | none =>
      obtain ⟨hopen, value, rfl⟩ := ClientStep.push he
      exact ⟨hopen, connection_complete⟩
    | some k =>
      obtain ⟨hopen, c, value, -, -, -, rfl⟩ := ClientStep.response he
      exact ⟨hopen, connection_complete (s := s)⟩
  rw [hopen.2, hopen.1] at hclosed
  cases hclosed

theorem settled_peerClose (hs : Promises s) (he : clientStep s .peerClose = some s') :
    Settled s' ↔ NobodyWaits s .peerClose := by
  have hp := promises_step hs he
  obtain rfl := ClientStep.peerClose he
  refine ⟨fun h' => ?_, fun hok => settled_of_answered hp hok⟩
  exact answered_of_settled (s := { s with connection := false, socket := false }) h' rfl

theorem settled_disconnect (hs : Promises s) (h : Settled s)
    (he : clientStep s .disconnect = some s') : Settled s' ↔ NobodyWaits s .disconnect := by
  have hp := promises_step hs he
  obtain rfl := Option.some.inj he
  unfold disconnect at hp ⊢
  split_ifs at hp ⊢ with hfd
  · refine ⟨fun h' _ _ => ?_, fun hok => ?_⟩
    · exact answered_of_settled
        (s := { s with serverFd := false, connection := false, socket := false }) h' rfl
    · by_cases hopen : s.connection = true
      · exact settled_of_answered hp (hok hfd hopen)
      · exact fun _ => h (Bool.not_eq_true _ ▸ hopen)
  · exact iff_of_true h fun hfd' => absurd hfd' hfd

theorem settled_step {e : ClientEvent} (hs : Promises s) (h : Settled s)
    (he : clientStep s e = some s') : Settled s' ↔ NobodyWaits s e := by
  cases e with
  | call methodName body => exact iff_of_true (settled_call hs h he) trivial
  | store k => exact iff_of_true (settled_store hs h he) trivial
  | send k outcome => exact settled_send hs h he
  | fail k => exact iff_of_true (settled_fail hs h he) trivial
  | receive answers msgType methodName body => exact iff_of_true (settled_receive he) trivial
  | peerClose => exact settled_peerClose hs he
  | disconnect => exact settled_disconnect hs h he
  | closeFd =>
    obtain rfl := Option.some.inj he
    unfold closeFd
    split_ifs <;> exact iff_of_true h trivial

/-- In a run in which nobody waits for a closed connection, everybody is served once it is closed;
a step that lets somebody wait ends that. -/
theorem calls_settled (h : Reach clientStep NobodyWaits {} s) :
    Settled s ∧ ∀ e s', clientStep s e = some s' → (Settled s' ↔ NobodyWaits s e) := by
  have hs : Settled s := by
    refine h.invariant_of (fun _ => promises_reach) ?_ fun s e s' hp hs hok he =>
      (settled_step hp hs he).2 hok
    exact fun hclosed => absurd hclosed (by decide)
  exact ⟨hs, fun e s' he => settled_step (promises_reach h) hs he⟩

/-- A call is answered, the server closes, and the next call cannot be sent. -/
theorem calls_settled_two : ∃ s : RpcClient, s.connection = false ∧ s.completions =
      [⟨0, .response 0, some [7]⟩, ⟨1, .sendFailed 1, some []⟩] ∧ Settled s := by
  have hrun : ([.call [] [], .store 0, .send 0 (some 13), .receive (some 0) .response [] [7],
      .peerClose, .call [] [], .store 1, .send 1 none, .fail 1].foldlM
        (fun s e => if NobodyWaits s e then clientStep s e else none) {}).map
          (fun s : RpcClient => (s.connection, s.completions)) =
      some (false, [⟨0, .response 0, some [7]⟩, ⟨1, .sendFailed 1, some []⟩]) := by
    decide +kernel
  obtain ⟨s, hs, hstate⟩ := Option.map_eq_some_iff.1 hrun
  obtain ⟨hclosed, hcompletions⟩ := Prod.mk.inj hstate
  exact ⟨s, hclosed, hcompletions, (calls_settled (Reach.of_foldlM _ hs)).1⟩

/-- The server closes before it answers: the call is never told. -/
theorem close_leaves_call : ∃ s : RpcClient, Reach clientStep anyEvent {} s ∧
    s.connection = false ∧ s.pendingRequests 1 = some 0 ∧ ¬ s.Ready 0 ∧ ¬ Settled s := by
  have hrun : ([.call [] [], .store 0, .send 0 (some 13), .peerClose].foldlM
      (fun s e => if anyEvent s e then clientStep s e else none) {}).map
        (fun s : RpcClient => decide (s.connection = false ∧ s.pendingRequests 1 = some 0 ∧
          s.completions = [] ∧ (s.call 0).map ClientCall.stage = some .sent)) = some true := by
    decide +kernel
  obtain ⟨s, hs, hstate⟩ := Option.map_eq_some_iff.1 hrun
  obtain ⟨hclosed, hpending, hcompletions, hstage⟩ := of_decide_eq_true hstate
  obtain ⟨c, hc, hstage⟩ := Option.map_eq_some_iff.1 hstage
  have hready : ¬ s.Ready 0 := by simp [Ready, hcompletions]
  exact ⟨s, Reach.of_foldlM _ hs, hclosed, hpending, hready, fun h =>
    hready ((h hclosed).1 0 c hc (.inl hstage))⟩

end RpcClient

end TinRpc.Rpc

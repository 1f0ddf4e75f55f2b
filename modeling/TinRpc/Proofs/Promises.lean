import TinRpc.Lib.Reach
import TinRpc.RpcClient

/-!
# The promises of an RPC client

In every run a future becomes ready at most once, and a call that has stored its promise finds it
under its id until then (`promises_reach`).
-/

namespace TinRpc.Rpc

open Transition

namespace RpcClient

/-- The call's future is ready. -/
def Ready (s : RpcClient) (k : ℕ) : Prop := k ∈ s.completions.map Completion.call

structure Promises (s : RpcClient) : Prop where
  numbered : ∀ k c, s.call k = some c → k < s.calls ∧ c.requestId = UInt32.ofNat (k + 1)
  made : ∀ k, k < s.calls → ∃ c, s.call k = some c
  next : s.nextRequestId = UInt32.ofNat (s.calls + 1)
  held : ∀ k c, s.call k = some c →
    (s.pendingRequests c.requestId = some k ↔ c.stage ≠ .allocated ∧ ¬ s.Ready k)
  owner : ∀ id k, s.pendingRequests id = some k → ∃ c, s.call k = some c ∧ c.requestId = id
  ready : ∀ k, s.Ready k → ∃ c, s.call k = some c ∧ c.stage ≠ .allocated
  once : (s.completions.map Completion.call).Nodup
  failed : ∀ k c, s.call k = some c → c.stage = .failed → s.Ready k

variable {s s' : RpcClient} {k : ℕ} {c : ClientCall} {id : UInt32} {cause : Cause}
  {value : List UInt8} {stage : Stage}

theorem complete_cases (s : RpcClient) (id : UInt32) (cause : Cause) (value : List UInt8) :
    (s.pendingRequests id = none ∧ s.complete id cause value = s) ∨
    ∃ k, s.pendingRequests id = some k ∧ s.complete id cause value = { s with
      pendingRequests := Function.update s.pendingRequests id none
      completions := s.completions ++ [⟨k, cause, some value⟩] } := by
  unfold complete
  rcases s.pendingRequests id with _ | k
  · exact .inl ⟨rfl, rfl⟩
  · exact .inr ⟨k, rfl, rfl⟩

theorem call_complete : (s.complete id cause value).call = s.call := by
  rcases s.complete_cases id cause value with ⟨-, heq⟩ | ⟨k, -, heq⟩ <;> rw [heq]

theorem ready_complete :
    (s.complete id cause value).Ready k ↔ s.Ready k ∨ s.pendingRequests id = some k := by
  unfold Ready
  rcases s.complete_cases id cause value with ⟨hnone, heq⟩ | ⟨m, hm, heq⟩
  · simp [heq, hnone]
  · rw [heq, hm]
    simp [eq_comm]

theorem pending_complete : (s.complete id cause value).pendingRequests =
    Function.update s.pendingRequests id none := by
  rcases s.complete_cases id cause value with ⟨hnone, heq⟩ | ⟨m, hm, heq⟩
  · rw [heq, ← hnone, Function.update_eq_self]
  · rw [heq]

/-- A future that was not ready becomes ready once. -/
theorem nodup_snoc {l : List Completion} {e : Completion} (hl : (l.map Completion.call).Nodup)
    (he : e.call ∉ l.map Completion.call) : ((l ++ [e]).map Completion.call).Nodup := by
  rw [List.map_append, List.map_singleton]
  refine List.nodup_append.2 ⟨hl, List.pairwise_singleton _ _, fun a ha b hb hab => ?_⟩
  rw [List.mem_singleton] at hb
  exact he (hb ▸ hab ▸ ha)

theorem Promises.not_ready (hs : Promises s) (hk : s.pendingRequests id = some k) :
    ¬ s.Ready k := by
  obtain ⟨c, hc, rfl⟩ := hs.owner id k hk
  exact ((hs.held k c hc).1 hk).2

/-- The call in the table under an id is completed, and the id is free. -/
theorem promises_release {m : ℕ} {done : Completion} (hs : Promises s)
    (hm : s.pendingRequests id = some m) (hdone : done.call = m) : Promises { s with
      pendingRequests := Function.update s.pendingRequests id none
      completions := s.completions ++ [done] } := by
  have hready : ∀ j, j ∈ (s.completions ++ [done]).map Completion.call ↔ s.Ready j ∨ j = m := by
    intro j
    rw [List.map_append, List.mem_append, List.map_singleton, List.mem_singleton, hdone]
    rfl
  obtain ⟨holder, hholder, hid⟩ := hs.owner id m hm
  refine ⟨hs.numbered, hs.made, hs.next, fun j d hd => ?_, fun i j hj => ?_, fun j hj => ?_, ?_,
    fun j d hd hf => (hready j).2 (.inl (hs.failed j d hd hf))⟩
  · have hheld := hs.held j d hd
    show Function.update s.pendingRequests id none d.requestId = some j ↔
      d.stage ≠ .allocated ∧ ¬j ∈ (s.completions ++ [done]).map Completion.call
    rw [hready, not_or, Function.update_apply]
    split_ifs with hown
    · rw [hown, hm, Option.some.injEq] at hheld
      exact iff_of_false nofun fun ⟨hne, hnot, hother⟩ => hother (hheld.2 ⟨hne, hnot⟩).symm
    · rw [hheld, and_congr_right_iff, iff_self_and]
      rintro - - rfl
      rw [hd, Option.some.injEq] at hholder
      exact hown (hholder ▸ hid)
  · change Function.update s.pendingRequests id none i = some j at hj
    rw [Function.update_apply] at hj
    split_ifs at hj
    exact hs.owner i j hj
  · rcases (hready j).1 hj with hj | rfl
    · exact hs.ready j hj
    · rw [← hid] at hm
      exact ⟨holder, hholder, ((hs.held j holder hholder).1 hm).1⟩
  · exact nodup_snoc hs.once (hdone ▸ hs.not_ready hm)

theorem promises_complete (hs : Promises s) (id : UInt32) (cause : Cause) (value : List UInt8) :
    Promises (s.complete id cause value) := by
  rcases s.complete_cases id cause value with ⟨-, heq⟩ | ⟨m, hm, heq⟩
  · rw [heq]
    exact hs
  · rw [heq]
    exact promises_release hs hm rfl

theorem call_setStage (j : ℕ) : (s.setStage k c stage).call j =
    if j = k then some { c with stage } else s.call j :=
  Function.update_apply ..

theorem Promises.numbered_setStage (hs : Promises s) (hc : s.call k = some c) {j : ℕ}
    {d : ClientCall} (hd : (s.setStage k c stage).call j = some d) :
    j < s.calls ∧ d.requestId = UInt32.ofNat (j + 1) := by
  rw [call_setStage] at hd
  split_ifs at hd with hjk
  · obtain rfl := Option.some.inj hd
    exact hjk ▸ hs.numbered k c hc
  · exact hs.numbered j d hd

theorem Promises.made_setStage (hs : Promises s) {j : ℕ} (hj : j < s.calls) :
    ∃ d, (s.setStage k c stage).call j = some d := by
  rw [call_setStage]
  split_ifs
  · exact ⟨_, rfl⟩
  · exact hs.made j hj

theorem promises_setStage (hs : Promises s) (stage : Stage) (hc : s.call k = some c)
    (hne : c.stage ≠ .allocated) (hne' : stage ≠ .allocated) (hfailed : stage = .failed → s.Ready k) :
    Promises (s.setStage k c stage) := by
  refine ⟨fun j d hd => hs.numbered_setStage hc hd, fun j hj => hs.made_setStage hj, hs.next,
    fun j d hd => ?_, fun i j hj => ?_, fun j hj => ?_, hs.once, fun j d hd hf => ?_⟩
  · rw [call_setStage] at hd
    split_ifs at hd with hjk
    · obtain rfl := Option.some.inj hd
      rw [hjk]
      refine (hs.held k c hc).trans ⟨fun h => ⟨hne', h.2⟩, fun h => ⟨hne, h.2⟩⟩
    · exact hs.held j d hd
  · obtain ⟨d, hd, hid⟩ := hs.owner i j hj
    rw [call_setStage]
    split_ifs with hjk
    · rw [hjk, hc, Option.some.injEq] at hd
      exact ⟨_, rfl, hd ▸ hid⟩
    · exact ⟨d, hd, hid⟩
  · rw [call_setStage]
    split_ifs
    · exact ⟨_, rfl, hne'⟩
    · exact hs.ready j hj
  · rw [call_setStage] at hd
    split_ifs at hd with hjk
    · obtain rfl := Option.some.inj hd
      exact hjk ▸ hfailed hf
    · exact hs.failed j d hd hf

theorem ready_store {j : ℕ} :
    (s.store k id).Ready j ↔ s.Ready j ∨ s.pendingRequests id = some j := by
  unfold Ready store
  rcases s.pendingRequests id with _ | m
  · simp
  · simp [eq_comm]

theorem store_cases (s : RpcClient) (k : ℕ) (id : UInt32) :
    (s.pendingRequests id = none ∧ s.store k id =
      { s with pendingRequests := Function.update s.pendingRequests id (some k) }) ∨
    ∃ m, s.pendingRequests id = some m ∧ s.store k id = { s with
      pendingRequests := Function.update (Function.update s.pendingRequests id none) id (some k)
      completions := s.completions ++ [⟨m, .broken, none⟩] } := by
  rw [Function.update_idem]
  unfold store
  rcases s.pendingRequests id with _ | m
  · exact .inl ⟨rfl, rfl⟩
  · exact .inr ⟨m, rfl, rfl⟩

/-- A call takes an id that is free. -/
theorem promises_hold (hs : Promises s) (hc : s.call k = some c) (hstage : c.stage = .allocated)
    (hfree : s.pendingRequests c.requestId = none) :
    Promises (({ s with pendingRequests := Function.update s.pendingRequests c.requestId (some k) } :
      RpcClient).setStage k c .stored) := by
  have hnew : ¬ s.Ready k := by
    intro hk
    obtain ⟨d, hd, hne⟩ := hs.ready k hk
    rw [hc, Option.some.injEq] at hd
    exact hne (hd ▸ hstage)
  refine ⟨fun j d hd => hs.numbered_setStage hc hd, fun j hj => hs.made_setStage hj, hs.next,
    fun j d hd => ?_, fun i j hj => ?_, fun j hj => ?_, hs.once, fun j d hd hf => ?_⟩
  · rw [call_setStage] at hd
    show Function.update s.pendingRequests c.requestId (some k) d.requestId = some j ↔
      d.stage ≠ .allocated ∧ ¬ s.Ready j
    rw [Function.update_apply]
    split_ifs at hd with hjk
    · obtain rfl := Option.some.inj hd
      rw [hjk, if_pos rfl]
      exact iff_of_true rfl ⟨nofun, hnew⟩
    · split_ifs with hid
      · have hheld := hs.held j d hd
        rw [hid, hfree] at hheld
        exact ⟨fun h => absurd (Option.some.inj h).symm hjk, fun h => nomatch hheld.2 h⟩
      · exact hs.held j d hd
  · change Function.update s.pendingRequests c.requestId (some k) i = some j at hj
    rw [Function.update_apply] at hj
    rw [call_setStage]
    split_ifs at hj with hid
    · obtain rfl := Option.some.inj hj
      rw [if_pos rfl]
      exact ⟨_, rfl, hid.symm⟩
    · obtain ⟨d, hd, rfl⟩ := hs.owner i j hj
      split_ifs with hjk
      · rw [hjk, hc, Option.some.injEq] at hd
        exact absurd (congrArg _ hd.symm) hid
      · exact ⟨d, hd, rfl⟩
  · rw [call_setStage]
    split_ifs
    · exact ⟨_, rfl, nofun⟩
    · exact hs.ready j hj
  · rw [call_setStage] at hd
    split_ifs at hd with hjk
    · obtain rfl := Option.some.inj hd
      cases hf
    · exact hs.failed j d hd hf

theorem promises_store (hs : Promises s) (hc : s.call k = some c) (hstage : c.stage = .allocated) :
    Promises ((s.store k c.requestId).setStage k c .stored) := by
  rcases s.store_cases k c.requestId with ⟨hfree, heq⟩ | ⟨m, hm, heq⟩
  · rw [heq]
    exact promises_hold hs hc hstage hfree
  · rw [heq]
    exact promises_hold (promises_release hs hm rfl) hc hstage (Function.update_self ..)

theorem call_allocate {methodName body : List UInt8} (j : ℕ) :
    (s.allocate methodName body).call j = if j = s.calls then
      some ⟨s.nextRequestId, ProtocolFrame.encode s.nextRequestId .request methodName body,
        .allocated⟩ else s.call j :=
  Function.update_apply ..

theorem Promises.ne_calls (hs : Promises s) (hc : s.call k = some c) : k ≠ s.calls :=
  Nat.ne_of_lt (hs.numbered k c hc).1

theorem Promises.kept_allocate {methodName body : List UInt8} (hs : Promises s)
    (hc : s.call k = some c) : (s.allocate methodName body).call k = some c := by
  rw [call_allocate, if_neg (hs.ne_calls hc), hc]

theorem promises_allocate (hs : Promises s) (methodName body : List UInt8) :
    Promises (s.allocate methodName body) := by
  refine ⟨fun j d hd => ?_, fun j hj => ?_, ?_, fun j d hd => ?_, fun i j hj => ?_, fun j hj => ?_,
    hs.once, fun j d hd hf => ?_⟩
  · rw [call_allocate] at hd
    split_ifs at hd with hj
    · obtain rfl := Option.some.inj hd
      rw [hj]
      exact ⟨Nat.lt_succ_self _, hs.next⟩
    · exact ⟨Nat.lt_succ_of_lt (hs.numbered j d hd).1, (hs.numbered j d hd).2⟩
  · rw [call_allocate]
    split_ifs with hne
    · exact ⟨_, rfl⟩
    · exact hs.made j (Nat.lt_of_le_of_ne (Nat.le_of_lt_succ hj) hne)
  · show s.nextRequestId + 1 = UInt32.ofNat (s.calls + 1 + 1)
    rw [hs.next, UInt32.ofNat_add (s.calls + 1) 1]
    rfl
  · rw [call_allocate] at hd
    split_ifs at hd with hj
    · obtain rfl := Option.some.inj hd
      refine ⟨fun hp => ?_, fun h => absurd rfl h.1⟩
      obtain ⟨d, hd, -⟩ := hs.owner _ _ hp
      exact absurd hj (hs.ne_calls hd)
    · exact hs.held j d hd
  · obtain ⟨d, hd, hid⟩ := hs.owner i j hj
    exact ⟨d, hs.kept_allocate hd, hid⟩
  · obtain ⟨d, hd, hstage⟩ := hs.ready j hj
    exact ⟨d, hs.kept_allocate hd, hstage⟩
  · rw [call_allocate] at hd
    split_ifs at hd with hj
    · obtain rfl := Option.some.inj hd
      cases hf
    · exact hs.failed j d hd hf

end RpcClient

namespace ClientStep

variable {s s' : RpcClient} {k n : ℕ} {methodName body : List UInt8} {msgType : MessageType}

theorem store (h : clientStep s (.store k) = some s') : ∃ c, s.call k = some c ∧
    c.stage = .allocated ∧ s' = (s.store k c.requestId).setStage k c .stored := by
  obtain ⟨c, hc, h⟩ := Option.bind_eq_some_iff.1 h
  split_ifs at h with hstage
  exact ⟨c, hc, hstage, (Option.some.inj h).symm⟩

theorem send (h : clientStep s (.send k (some n)) = some s') : ∃ c, s.call k = some c ∧
    (c.stage = .stored ∧ s.sendMutex = none ∧ s.serverFd ∧ 0 < n ∧ n ≤ c.frame.length) ∧
    s' = (s.accept c.frame n).setStage k c .sent := by
  obtain ⟨c, hc, h⟩ := Option.bind_eq_some_iff.1 h
  split_ifs at h with hstage
  exact ⟨c, hc, hstage, (Option.some.inj h).symm⟩

theorem sendFails (h : clientStep s (.send k none) = some s') : ∃ c, s.call k = some c ∧
    c.stage = .stored ∧ s' = { s.setStage k c .failing with sendMutex := some k } := by
  obtain ⟨c, hc, h⟩ := Option.bind_eq_some_iff.1 h
  split_ifs at h with hstage
  exact ⟨c, hc, hstage.1, (Option.some.inj h).symm⟩

theorem fail (h : clientStep s (.fail k) = some s') : ∃ c, s.call k = some c ∧
    c.stage = .failing ∧ s' =
      { (s.complete c.requestId (.sendFailed k) []).setStage k c .failed with
        sendMutex := none } := by
  obtain ⟨c, hc, h⟩ := Option.bind_eq_some_iff.1 h
  split_ifs at h with hstage
  exact ⟨c, hc, hstage, (Option.some.inj h).symm⟩

theorem push (h : clientStep s (.receive none msgType methodName body) = some s') :
    s.connection ∧ ∃ value, s' = s.complete 0 .push value := by
  simp only [clientStep] at h
  split_ifs at h with hopen
  exact ⟨hopen.1, _, (Option.some.inj h).symm⟩

theorem response (h : clientStep s (.receive (some k) msgType methodName body) = some s') :
    s.connection ∧ ∃ c value, s.call k = some c ∧ c.stage = .sent ∧ k ∉ s.answered ∧
      s' = { s.complete c.requestId (.response k) value with answered := k :: s.answered } := by
  obtain ⟨c, hc, h⟩ := Option.bind_eq_some_iff.1 h
  split_ifs at h with hopen
  exact ⟨hopen.1, c, _, hc, hopen.2.2.1, hopen.2.2.2, (Option.some.inj h).symm⟩

theorem peerClose (h : clientStep s .peerClose = some s') :
    s' = { s with connection := false, socket := false } := by
  simp only [clientStep] at h
  split_ifs at h
  exact (Option.some.inj h).symm

end ClientStep

namespace RpcClient

variable {s s' : RpcClient}

theorem promises_step {e : ClientEvent} (hs : Promises s) (h : clientStep s e = some s') :
    Promises s' := by
  cases e with
  | call methodName body => exact Option.some.inj h ▸ promises_allocate hs methodName body
  | store k =>
    obtain ⟨c, hc, hstage, rfl⟩ := ClientStep.store h
    exact promises_store hs hc hstage
  | send k outcome =>
    cases outcome with
    | some n =>
      obtain ⟨c, hc, ⟨hstage, -⟩, rfl⟩ := ClientStep.send h
      have hs' : Promises (s.accept c.frame n) :=
        ⟨hs.numbered, hs.made, hs.next, hs.held, hs.owner, hs.ready, hs.once, hs.failed⟩
      exact promises_setStage hs' .sent hc (by simp [hstage]) (by simp) (by simp)
    | none =>
      obtain ⟨c, hc, hstage, rfl⟩ := ClientStep.sendFails h
      have hs' := promises_setStage hs .failing hc (by simp [hstage]) (by simp) (by simp)
      exact ⟨hs'.numbered, hs'.made, hs'.next, hs'.held, hs'.owner, hs'.ready, hs'.once, hs'.failed⟩
  | fail k =>
    obtain ⟨c, hc, hstage, rfl⟩ := ClientStep.fail h
    have hready : (s.complete c.requestId (.sendFailed k) []).Ready k := by
      rw [ready_complete, (hs.held k c hc), hstage]
      simp [or_iff_not_imp_left]
    have hs' := promises_setStage (promises_complete hs c.requestId (.sendFailed k) []) .failed
      (call_complete ▸ hc) (by simp [hstage]) (by simp) fun _ => hready
    exact ⟨hs'.numbered, hs'.made, hs'.next, hs'.held, hs'.owner, hs'.ready, hs'.once, hs'.failed⟩
  | receive answers msgType methodName body =>
    cases answers with
    | none =>
      obtain ⟨-, value, rfl⟩ := ClientStep.push h
      exact promises_complete hs _ _ _
    | some k =>
      obtain ⟨-, c, value, hc, -, -, rfl⟩ := ClientStep.response h
      have hs' := promises_complete hs c.requestId (.response k) value
      exact ⟨hs'.numbered, hs'.made, hs'.next, hs'.held, hs'.owner, hs'.ready, hs'.once, hs'.failed⟩
  | peerClose =>
    obtain rfl := ClientStep.peerClose h
    exact ⟨hs.numbered, hs.made, hs.next, hs.held, hs.owner, hs.ready, hs.once, hs.failed⟩
  | disconnect =>
    obtain rfl := Option.some.inj h
    unfold disconnect
    split_ifs
    · exact ⟨hs.numbered, hs.made, hs.next, hs.held, hs.owner, hs.ready, hs.once, hs.failed⟩
    · exact hs
  | closeFd =>
    obtain rfl := Option.some.inj h
    unfold closeFd
    split_ifs
    · exact ⟨hs.numbered, hs.made, hs.next, hs.held, hs.owner, hs.ready, hs.once, hs.failed⟩
    · exact hs

theorem promises_start : Promises {} := by
  refine ⟨?_, ?_, rfl, ?_, ?_, ?_, .nil, ?_⟩ <;> simp [Ready]

/-- What holds of the promises in every run. -/
theorem promises_reach {ok : RpcClient → ClientEvent → Prop}
    (h : Reach clientStep ok {} s) : Promises s :=
  h.invariant promises_start fun _ _ _ hs _ he => promises_step hs he

end RpcClient

end TinRpc.Rpc

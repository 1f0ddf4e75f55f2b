import TinRpc.Proofs.Promises
import TinRpc.Proofs.Protocol

/-!
# Correlation by request id

The ids are a 32-bit counter that starts at 1 and comes back to 0, the id of the server's pushes,
and then to ids given before. As long as nobody waits for the answer to a call made `2 ^ 32` calls
ago, and no push comes while the call with id 0 waits, a future becomes ready by the response to its
own call, or by its own failed send (`rpc_correlation`).
-/

namespace TinRpc.Rpc

open Transition

namespace RpcClient

/-- Calls that wait have ids of their own, and each future becomes ready once, by the response to
its call or because its call could not be sent. -/
structure Correlated (s : RpcClient) : Prop where
  distinct : ∀ j k c d, s.call j = some c → s.call k = some d → ¬ s.Ready j → ¬ s.Ready k →
    c.requestId = d.requestId → j = k
  once : (s.completions.map Completion.call).Nodup
  own : ∀ e ∈ s.completions, e.cause = .response e.call ∨ e.cause = .sendFailed e.call

/-- The futures of the calls made `2 ^ 32` or more calls before the next one are ready when it is
made, and no call waits under id 0 when a push comes. -/
def FewWaiting (s : RpcClient) : ClientEvent → Prop
  | .call .. => ∀ k, k + 2 ^ 32 ≤ s.calls → s.Ready k
  | .receive none .. => s.pendingRequests 0 = none
  | _ => True

instance (s : RpcClient) (k : ℕ) : Decidable (s.Ready k) :=
  inferInstanceAs (Decidable (k ∈ s.completions.map Completion.call))

instance (s : RpcClient) (e : ClientEvent) : Decidable (FewWaiting s e) :=
  match e with
  | .call .. => decidable_of_iff (∀ k, k < s.calls + 1 - 2 ^ 32 → s.Ready k)
    ⟨fun h k hk => h k (by omega), fun h k hk => h k (by omega)⟩
  | .receive none .. => inferInstanceAs (Decidable (s.pendingRequests 0 = none))
  | .receive (some _) .. | .store _ | .send .. | .fail _ | .peerClose | .disconnect | .closeFd =>
    .isTrue trivial

structure Inv (s : RpcClient) : Prop where
  promises : Promises s
  window : ∀ k c, s.call k = some c → ¬ s.Ready k → s.calls ≤ k + 2 ^ 32
  final : ∀ e ∈ s.completions, ∃ c, s.call e.call = some c ∧
    (e.cause = .response e.call ∧ c.stage = .sent ∧ e.call ∈ s.answered ∨
      e.cause = .sendFailed e.call ∧ c.stage = .failed)

variable {s s' : RpcClient} {j k : ℕ} {c d : ClientCall}

theorem ofNat_eq {a b : ℕ} (h : UInt32.ofNat a = UInt32.ofNat b) : a % 2 ^ 32 = b % 2 ^ 32 := by
  simpa using congrArg UInt32.toNat h

theorem Inv.distinct (hs : Inv s) (hj : s.call j = some c) (hk : s.call k = some d)
    (hjr : ¬ s.Ready j) (hkr : ¬ s.Ready k) (hid : c.requestId = d.requestId) : j = k := by
  obtain ⟨hjlt, hjid⟩ := hs.promises.numbered j c hj
  obtain ⟨hklt, hkid⟩ := hs.promises.numbered k d hk
  have hjw := hs.window j c hj hjr
  have hkw := hs.window k d hk hkr
  rw [hjid, hkid] at hid
  have := ofNat_eq hid
  omega

theorem Inv.correlated (hs : Inv s) : Correlated s where
  distinct _ _ _ _ hj hk hjr hkr hid := hs.distinct hj hk hjr hkr hid
  once := hs.promises.once
  own e he := by
    obtain ⟨c, -, h⟩ := hs.final e he
    exact h.imp And.left And.left

/-- A future that is ready has been answered or could not be sent. -/
theorem Inv.stage_of_ready (hs : Inv s) (hk : s.call k = some c) (hr : s.Ready k) :
    c.stage = .sent ∧ k ∈ s.answered ∨ c.stage = .failed := by
  obtain ⟨e, he, rfl⟩ := List.mem_map.1 hr
  obtain ⟨c', hc', h⟩ := hs.final e he
  rw [hk, Option.some.injEq] at hc'
  subst hc'
  exact h.imp And.right And.right

theorem complete_own (hs : Inv s) (hk : s.call k = some c) (hstage : c.stage ≠ .allocated)
    (hr : ¬ s.Ready k) (cause : Cause) (value : List UInt8) :
    (s.complete c.requestId cause value).completions =
      s.completions ++ [⟨k, cause, some value⟩] := by
  have hheld := (hs.promises.held k c hk).2 ⟨hstage, hr⟩
  rcases s.complete_cases c.requestId cause value with ⟨hnone, -⟩ | ⟨m, hm, heq⟩
  · rw [hheld] at hnone
    cases hnone
  · rw [hheld, Option.some.injEq] at hm
    rw [heq, ← hm]

/-! ## Steps -/

/-- Steps that complete nothing and change only a call that is not ready. -/
theorem final_of_call (hs : Inv s) {calls : ℕ → Option ClientCall}
    (h : ∀ k c, s.call k = some c → s.Ready k → calls k = some c) :
    ∀ e ∈ s.completions, ∃ c, calls e.call = some c ∧
      (e.cause = .response e.call ∧ c.stage = .sent ∧ e.call ∈ s.answered ∨
        e.cause = .sendFailed e.call ∧ c.stage = .failed) := by
  intro e he
  obtain ⟨c, hc, hfinal⟩ := hs.final e he
  exact ⟨c, h _ c hc (List.mem_map_of_mem he), hfinal⟩

/-- The window only closes when a call is made. -/
theorem window_of (hs : Inv s) (hp : Promises s') (hcalls : s'.calls = s.calls)
    (hready : ∀ k, s.Ready k → s'.Ready k) (k : ℕ) (c : ClientCall) (hc : s'.call k = some c)
    (hk : ¬ s'.Ready k) : s'.calls ≤ k + 2 ^ 32 := by
  have hlt := (hp.numbered k c hc).1
  rw [hcalls] at hlt ⊢
  obtain ⟨d, hd⟩ := hs.promises.made k hlt
  exact hs.window k d hd fun h => hk (hready k h)

/-- A call that is not ready goes on, and what is complete stays as it is. -/
theorem inv_setStage (hs : Inv s) (stage : Stage) (hk : s.call k = some c)
    (hne : c.stage ≠ .allocated) (hr : ¬ s.Ready k) (hne' : stage ≠ .allocated)
    (hfailed : stage ≠ .failed) : Inv (s.setStage k c stage) := by
  have hp := promises_setStage hs.promises stage hk hne hne' fun h => absurd h hfailed
  refine ⟨hp, window_of hs hp rfl fun _ h => h, final_of_call hs fun j d hd hj => ?_⟩
  rw [call_setStage, if_neg, hd]
  rintro rfl
  exact hr hj

theorem not_ready_of_stage (hs : Inv s) (hk : s.call k = some c) (hsent : c.stage ≠ .sent)
    (hfailed : c.stage ≠ .failed) : ¬ s.Ready k := by
  intro hr
  rcases hs.stage_of_ready hk hr with h | h
  · exact hsent h.1
  · exact hfailed h

theorem inv_call (hs : Inv s) (methodName body : List UInt8)
    (hok : ∀ k, k + 2 ^ 32 ≤ s.calls → s.Ready k) : Inv (s.allocate methodName body) := by
  refine ⟨promises_allocate hs.promises methodName body, fun k c hc hr => ?_,
    final_of_call hs fun k c hc _ => ?_⟩
  · show s.calls + 1 ≤ k + 2 ^ 32
    by_contra hlt
    exact hr (hok k (by omega))
  · exact hs.promises.kept_allocate hc

theorem inv_store (hs : Inv s) (hc : s.call k = some c) (hstage : c.stage = .allocated) :
    Inv ((s.store k c.requestId).setStage k c .stored) := by
  have hp := promises_store hs.promises hc hstage
  have hk := not_ready_of_stage hs hc (by simp [hstage]) (by simp [hstage])
  have hfree : s.pendingRequests c.requestId = none := by
    rcases hold : s.pendingRequests c.requestId with _ | m
    · rfl
    · obtain ⟨d, hd, hid⟩ := hs.promises.owner _ m hold
      obtain rfl := hs.distinct hd hc (hs.promises.not_ready hold) hk hid
      exact absurd hstage ((hs.promises.held m c hc).1 hold).1
  have hcompletions : ((s.store k c.requestId).setStage k c .stored).completions =
      s.completions := by
    show (s.store k c.requestId).completions = _
    unfold store
    rw [hfree]
  refine ⟨hp, window_of hs hp rfl fun j hj => ?_, ?_⟩
  · unfold Ready
    rwa [hcompletions]
  · rw [hcompletions]
    refine final_of_call hs fun j d hd hj => ?_
    rw [call_setStage, if_neg]
    · exact hd
    · rintro rfl
      exact hk hj

theorem inv_complete {cause : Cause} {value : List UInt8} {t : RpcClient} (hs : Inv s)
    (hc : s.call k = some c) (hstage : c.stage ≠ .allocated) (hk : ¬ s.Ready k)
    (hp : Promises t) (hcalls : t.calls = s.calls)
    (hcompletions : t.completions = (s.complete c.requestId cause value).completions)
    (hother : ∀ j, j ≠ k → t.call j = s.call j) (hanswered : s.answered ⊆ t.answered)
    (hself : ∃ c', t.call k = some c' ∧ (cause = .response k ∧ c'.stage = .sent ∧ k ∈ t.answered ∨
      cause = .sendFailed k ∧ c'.stage = .failed)) : Inv t := by
  rw [complete_own hs hc hstage hk] at hcompletions
  refine ⟨hp, window_of hs hp hcalls fun j hj => ?_, ?_⟩
  · unfold Ready
    rw [hcompletions, List.map_append]
    exact List.mem_append_left _ hj
  · rw [hcompletions]
    intro e he
    rcases List.mem_append.1 he with he | he
    · obtain ⟨d, hd, hfinal⟩ := hs.final e he
      have hne : e.call ≠ k := by
        rintro heq
        exact hk (heq ▸ List.mem_map_of_mem he)
      exact ⟨d, (hother _ hne).trans hd,
        hfinal.imp_left fun ⟨h₁, h₂, h₃⟩ => ⟨h₁, h₂, hanswered h₃⟩⟩
    · rw [List.mem_singleton.1 he]
      exact hself

theorem inv_step {e : ClientEvent} (hs : Inv s) (hok : FewWaiting s e)
    (h : clientStep s e = some s') : Inv s' := by
  have hp := promises_step hs.promises h
  cases e with
  | call methodName body => exact Option.some.inj h ▸ inv_call hs methodName body hok
  | store k =>
    obtain ⟨c, hc, hstage, rfl⟩ := ClientStep.store h
    exact inv_store hs hc hstage
  | send k outcome =>
    cases outcome with
    | some n =>
      obtain ⟨c, hc, ⟨hstage, -⟩, rfl⟩ := ClientStep.send h
      have hk := not_ready_of_stage hs hc (by simp [hstage]) (by simp [hstage])
      have hs' := inv_setStage hs .sent hc (by simp [hstage]) hk (by simp) (by simp)
      exact ⟨hp, hs'.window, hs'.final⟩
    | none =>
      obtain ⟨c, hc, hstage, rfl⟩ := ClientStep.sendFails h
      have hk := not_ready_of_stage hs hc (by simp [hstage]) (by simp [hstage])
      have hs' := inv_setStage hs .failing hc (by simp [hstage]) hk (by simp) (by simp)
      exact ⟨hp, hs'.window, hs'.final⟩
  | fail k =>
    obtain ⟨c, hc, hstage, rfl⟩ := ClientStep.fail h
    have hk := not_ready_of_stage hs hc (by simp [hstage]) (by simp [hstage])
    refine inv_complete hs hc (by simp [hstage]) hk hp ?_ rfl (fun j hj => ?_) ?_
      ⟨{ c with stage := .failed }, ?_, .inr ⟨rfl, rfl⟩⟩
    · rcases s.complete_cases c.requestId (.sendFailed k) [] with ⟨-, heq⟩ | ⟨m, -, heq⟩ <;>
        rw [heq] <;> rfl
    · show ((s.complete c.requestId (.sendFailed k) []).setStage k c .failed).call j = _
      rw [call_setStage, if_neg hj, call_complete]
    · rcases s.complete_cases c.requestId (.sendFailed k) [] with ⟨-, heq⟩ | ⟨m, -, heq⟩ <;>
        rw [heq] <;> exact List.Subset.refl _
    · show ((s.complete c.requestId (.sendFailed k) []).setStage k c .failed).call k = _
      rw [call_setStage, if_pos rfl]
  | receive answers msgType methodName body =>
    cases answers with
    | none =>
      obtain ⟨-, value, rfl⟩ := ClientStep.push h
      rcases s.complete_cases 0 .push value with ⟨-, heq⟩ | ⟨m, hm, -⟩
      · rw [heq]
        exact hs
      · rw [show s.pendingRequests 0 = none from hok] at hm
        cases hm
    | some k =>
      obtain ⟨-, c, value, hc, hstage, hanswered, rfl⟩ := ClientStep.response h
      have hk : ¬ s.Ready k := fun hr => by
        rcases hs.stage_of_ready hc hr with h | h
        · exact hanswered h.2
        · simp [hstage] at h
      refine inv_complete hs hc (by simp [hstage]) hk hp ?_ rfl (fun j _ => ?_)
        (List.subset_cons_self _ _) ⟨c, ?_, .inl ⟨rfl, hstage, List.mem_cons_self⟩⟩
      · rcases s.complete_cases c.requestId (.response k) value with ⟨-, heq⟩ | ⟨m, -, heq⟩ <;>
          rw [heq]
      · show (s.complete c.requestId (.response k) value).call j = _
        rw [call_complete]
      · show (s.complete c.requestId (.response k) value).call k = _
        rw [call_complete, hc]
  | peerClose =>
    obtain rfl := ClientStep.peerClose h
    exact ⟨hp, hs.window, hs.final⟩
  | disconnect =>
    obtain rfl := Option.some.inj h
    unfold disconnect at hp ⊢
    split_ifs at hp ⊢
    · exact ⟨hp, hs.window, hs.final⟩
    · exact hs
  | closeFd =>
    obtain rfl := Option.some.inj h
    unfold closeFd at hp ⊢
    split_ifs at hp ⊢
    · exact ⟨hp, hs.window, hs.final⟩
    · exact hs

/-- A step that does not meet the condition lets two calls share an id, or a push answer one. -/
theorem fewWaiting_of_correlated {e : ClientEvent} (hs : Inv s) (h : clientStep s e = some s')
    (hs' : Correlated s') : FewWaiting s e := by
  cases e with
  | call methodName body =>
    obtain rfl := Option.some.inj h
    intro k hk
    by_contra hr
    obtain ⟨c, hc⟩ := hs.promises.made k (by omega)
    have hwindow := hs.window k c hc hr
    have hnew : ¬ s.Ready s.calls := fun hready => by
      obtain ⟨d, hd, -⟩ := hs.promises.ready _ hready
      exact absurd (hs.promises.numbered _ d hd).1 (Nat.lt_irrefl _)
    refine hs.promises.ne_calls hc (hs'.distinct k s.calls c _ ?_ (Function.update_self ..) hr hnew ?_)
    · exact hs.promises.kept_allocate hc
    · show c.requestId = s.nextRequestId
      rw [(hs.promises.numbered k c hc).2, hs.promises.next, ← UInt32.toNat_inj,
        UInt32.toNat_ofNat', UInt32.toNat_ofNat']
      omega
  | receive answers msgType methodName body =>
    cases answers with
    | none =>
      obtain ⟨-, value, rfl⟩ := ClientStep.push h
      rcases s.complete_cases 0 .push value with ⟨hnone, -⟩ | ⟨m, hm, heq⟩
      · exact hnone
      · have hown := hs'.own ⟨m, .push, some value⟩ (by rw [heq]; simp)
        rcases hown with hown | hown <;> cases hown
    | some k => trivial
  | _ => trivial

theorem inv_start : Inv {} := ⟨promises_start, by simp, by simp⟩

/-- In a run in which few calls wait, calls that wait have ids of their own and each future becomes
ready once, by its own response or its own failed send; a step that lets more wait ends that. -/
theorem rpc_correlation (h : Reach clientStep FewWaiting {} s) :
    Correlated s ∧ ∀ e s', clientStep s e = some s' → (Correlated s' ↔ FewWaiting s e) := by
  have hs : Inv s := h.invariant inv_start fun _ _ _ hs hok he => inv_step hs hok he
  exact ⟨hs.correlated, fun e s' he =>
    ⟨fewWaiting_of_correlated hs he, fun hok => (inv_step hs hok he).correlated⟩⟩

/-- Two calls answered in the other order. -/
theorem rpc_correlation_two : ∃ s : RpcClient, s.completions =
      [⟨1, .response 1, some [7]⟩, ⟨0, .response 0, some []⟩] ∧ Correlated s := by
  have hrun : ([.call [] [], .call [] [], .store 0, .send 0 (some 13), .store 1,
      .send 1 (some 13), .receive (some 1) .response [] [7], .receive (some 0) .error [] [7]].foldlM
        (fun s e => if FewWaiting s e then clientStep s e else none) {}).map
          (fun s : RpcClient => s.completions) =
      some [⟨1, .response 1, some [7]⟩, ⟨0, .response 0, some []⟩] := by
    decide +kernel
  obtain ⟨s, hs, hcompletions⟩ := Option.map_eq_some_iff.1 hrun
  exact ⟨s, hcompletions, (rpc_correlation (Reach.of_foldlM _ hs)).1⟩

/-! ## The counter comes round -/

/-- A connected client that has every call answered but those in its table. -/
structure Quiet (p : UInt32 → Option ℕ) (s : RpcClient) : Prop where
  reach : Reach clientStep anyEvent {} s
  pending : s.pendingRequests = p
  sendMutex : s.sendMutex = none
  serverFd : s.serverFd = true
  connection : s.connection = true
  socket : s.socket = true
  answered : ∀ k ∈ s.answered, k < s.calls

/-- A call up to its stored promise. -/
theorem stored_call {p : UInt32 → Option ℕ} (hs : Quiet p s) : ∃ s' c,
    Reach clientStep anyEvent {} s' ∧ s'.call s.calls = some c ∧
    c = ⟨UInt32.ofNat (s.calls + 1), c.frame, .stored⟩ ∧ c.frame.length = 13 ∧
    s'.pendingRequests = Function.update p (UInt32.ofNat (s.calls + 1)) (some s.calls) ∧
    s'.sendMutex = none ∧ s'.serverFd = true ∧ s'.connection = true ∧ s'.socket = true ∧
    s'.calls = s.calls + 1 ∧ s'.answered = s.answered ∧
      ∀ k, k < s.calls → s'.call k = s.call k := by
  have hid := (promises_reach hs.reach).next
  have hframe : (ProtocolFrame.encode s.nextRequestId .request [] []).length = 13 :=
    encode_length ⟨s.nextRequestId, .request, [], []⟩
  have hcall : (s.allocate [] []).call s.calls =
      some ⟨s.nextRequestId, ProtocolFrame.encode s.nextRequestId .request [] [], .allocated⟩ :=
    Function.update_self ..
  have hstore : clientStep (s.allocate [] []) (.store s.calls) =
      some (((s.allocate [] []).store s.calls s.nextRequestId).setStage s.calls
        ⟨s.nextRequestId, ProtocolFrame.encode s.nextRequestId .request [] [], .allocated⟩
          .stored) := by
    simp [clientStep, hcall]
  refine ⟨_, _, (hs.reach.next (e := .call [] []) trivial rfl).next trivial hstore,
    Function.update_self .., by rw [← hid], hframe, ?_, hs.sendMutex, hs.serverFd, hs.connection,
    hs.socket, rfl, rfl, fun k hk => ?_⟩
  · rw [← hid, ← hs.pending]
    rfl
  · have hne := Nat.ne_of_lt hk
    rw [call_setStage, if_neg hne]
    exact Function.update_of_ne hne ..

theorem waiting_call {p : UInt32 → Option ℕ} (hs : Quiet p s) : ∃ s' c,
    Quiet (Function.update p (UInt32.ofNat (s.calls + 1)) (some s.calls)) s' ∧
    s'.call s.calls = some c ∧ c.requestId = UInt32.ofNat (s.calls + 1) ∧ c.stage = .sent ∧
    s'.calls = s.calls + 1 ∧ s'.answered = s.answered ∧
      ∀ k, k < s.calls → s'.call k = s.call k := by
  obtain ⟨s₁, c, hr, hc, hceq, hframe, hpending, hmutex, hfd, hconn, hsock, hcalls, hanswered,
    hold⟩ := stored_call hs
  have hsend : clientStep s₁ (.send s.calls (some 13)) =
      some ((s₁.accept c.frame 13).setStage s.calls c .sent) := by
    have hstage : c.stage = .stored := by rw [hceq]
    simp [clientStep, hc, hstage, hmutex, hfd, hframe]
  refine ⟨_, _, ⟨hr.next trivial hsend, hpending, hmutex, hfd, hconn, hsock, ?_⟩,
    Function.update_self .., by rw [hceq], rfl, hcalls, hanswered, fun k hk => ?_⟩
  · show ∀ k ∈ s₁.answered, k < s₁.calls
    rw [hanswered, hcalls]
    exact fun k hk => Nat.lt_succ_of_lt (hs.answered k hk)
  · rw [call_setStage, if_neg (Nat.ne_of_lt hk)]
    exact hold k hk

theorem answered_call {p : UInt32 → Option ℕ} (hs : Quiet p s)
    (hfree : p (UInt32.ofNat (s.calls + 1)) = none) : ∃ s', Quiet p s' ∧
    s'.calls = s.calls + 1 ∧ (∀ k, k < s.calls → s'.call k = s.call k) ∧
    ∀ k, k < s.calls → k ∈ s'.answered → k ∈ s.answered := by
  obtain ⟨s₁, c, hs₁, hc, hid, hstage, hcalls, hanswered, hold⟩ := waiting_call hs
  have hnew : s.calls ∉ s₁.answered := by
    rw [hanswered]
    exact fun h => Nat.lt_irrefl _ (hs.answered _ h)
  have hresponse : clientStep s₁ (.receive (some s.calls) .response [] []) =
      some { s₁.responseCallback ⟨c.requestId, .response, [], []⟩ (.response s.calls) with
        answered := s.calls :: s₁.answered } := by
    simp [clientStep, hc, hstage, hs₁.connection, hs₁.socket, hnew]
  have hpending : s₁.pendingRequests c.requestId = some s.calls := by
    rw [hs₁.pending, hid, Function.update_self]
  unfold responseCallback at hresponse
  rcases s₁.complete_cases c.requestId (.response s.calls)
    (if MessageType.response = .error then [] else []) with ⟨hnone, -⟩ | ⟨m, -, heq⟩
  · rw [hpending] at hnone
    cases hnone
  · rw [heq] at hresponse
    refine ⟨_, ⟨hs₁.reach.next trivial hresponse, ?_, hs₁.sendMutex, hs₁.serverFd, hs₁.connection,
      hs₁.socket, fun k hk => ?_⟩, hcalls, hold, fun k hk hin => ?_⟩
    · show Function.update s₁.pendingRequests c.requestId none = p
      rw [hs₁.pending, hid, Function.update_idem, ← hfree, Function.update_eq_self]
    · rcases List.mem_cons.1 hk with rfl | hk
      · show s.calls < s₁.calls
        omega
      · exact hs₁.answered k hk
    · rcases List.mem_cons.1 hin with rfl | hin
      · exact absurd hk (Nat.lt_irrefl _)
      · exact hanswered ▸ hin

/-- Any number of calls that are answered, as long as their ids are free. -/
theorem answered_calls {p : UInt32 → Option ℕ} (hs : Quiet p s) : ∀ n : ℕ,
    (∀ i, i < n → p (UInt32.ofNat (s.calls + i + 1)) = none) → ∃ s', Quiet p s' ∧
    s'.calls = s.calls + n ∧ (∀ k, k < s.calls → s'.call k = s.call k) ∧
    ∀ k, k < s.calls → k ∈ s'.answered → k ∈ s.answered
  | 0, _ => ⟨s, hs, rfl, fun _ _ => rfl, fun _ _ h => h⟩
  | n + 1, hfree => by
    obtain ⟨s₁, hs₁, hcalls, hcall, hanswered⟩ :=
      answered_calls hs n fun i hi => hfree i (Nat.lt_succ_of_lt hi)
    obtain ⟨s₂, hs₂, hcalls', hcall', hanswered'⟩ :=
      answered_call hs₁ (by rw [hcalls]; exact hfree n (Nat.lt_succ_self n))
    refine ⟨s₂, hs₂, by omega, fun k hk => ?_, fun k hk hin => ?_⟩
    · rw [hcall' k (by omega), hcall k hk]
    · exact hanswered k hk (hanswered' k (by omega) hin)

theorem quiet_start : Quiet (fun _ => none) {} := ⟨.start, rfl, rfl, rfl, rfl, rfl, by simp⟩

/-- A frame that completes a call it is not the response to. -/
theorem complete_other {id : UInt32} (cause : Cause) (value : List UInt8)
    (hk : s.pendingRequests id = some k) (hresponse : cause ≠ .response k)
    (hsend : cause ≠ .sendFailed k) : (⟨k, cause, some value⟩ : Completion) ∈
      (s.complete id cause value).completions ∧ ¬ Correlated (s.complete id cause value) := by
  have hmem : (⟨k, cause, some value⟩ : Completion) ∈ (s.complete id cause value).completions := by
    unfold complete
    rw [hk]
    exact List.mem_append_right _ List.mem_cons_self
  refine ⟨hmem, fun hs => ?_⟩
  rcases hs.own _ hmem with h | h
  · exact hresponse h
  · exact hsend h

/-- A push answers the call that was given id 0. A call that waits while `2 ^ 32` others are made
loses its promise to the last of them, which gets its response. -/
theorem counter_comes_round :
    (∃ s value, Reach clientStep anyEvent {} s ∧
      (⟨2 ^ 32 - 1, .push, some value⟩ : Completion) ∈ s.completions ∧ ¬ Correlated s) ∧
    ∃ s value, Reach clientStep anyEvent {} s ∧
      (⟨2 ^ 32, .response 0, some value⟩ : Completion) ∈ s.completions ∧ ¬ Correlated s := by
  constructor
  · obtain ⟨s, hs, hcalls, -⟩ := answered_calls quiet_start (2 ^ 32 - 1) fun _ _ => rfl
    obtain ⟨s₁, c, hr, -, -, -, hpending, -, -, hconn, hsock, -⟩ := stored_call hs
    have hcalls : s.calls = 2 ^ 32 - 1 := hcalls.trans (Nat.zero_add _)
    have hid : UInt32.ofNat (s.calls + 1) = 0 := by
      rw [hcalls, ← UInt32.toNat_inj, UInt32.toNat_ofNat']
      rfl
    rw [hid, hcalls] at hpending
    have hpush : clientStep s₁ (.receive none .response [] []) =
        some (s₁.responseCallback ⟨0, .response, [], []⟩ .push) := by
      simp [clientStep, hconn, hsock]
    exact ⟨_, _, hr.next trivial hpush,
      complete_other _ _ (by rw [hpending, Function.update_self]) (by simp) (by simp)⟩
  · obtain ⟨s₁, c, hs₁, hc, hid, hstage, hcalls, hanswered, -⟩ := waiting_call quiet_start
    have hcalls : s₁.calls = 1 := hcalls
    have hanswered : s₁.answered = [] := hanswered
    obtain ⟨s₂, hs₂, hcalls', hcall, hanswered'⟩ := answered_calls hs₁ (2 ^ 32 - 1) fun i hi => by
      refine Function.update_of_ne (fun h => ?_) ..
      have h : UInt32.ofNat (s₁.calls + i + 1) = UInt32.ofNat (0 + 1) := h
      have := ofNat_eq h
      omega
    have hcalls' : s₂.calls = 2 ^ 32 := by omega
    obtain ⟨s₃, -, hr, -, -, -, hpending, -, -, hconn, hsock, -, hanswered₃, hold⟩ :=
      stored_call hs₂
    have hc₃ : s₃.call 0 = some c := by
      rw [hold 0 (by omega), hcall 0 (by omega)]
      exact hc
    have hid₃ : UInt32.ofNat (s₂.calls + 1) = c.requestId := by
      rw [hid, hcalls', ← UInt32.toNat_inj, UInt32.toNat_ofNat', UInt32.toNat_ofNat']
      rfl
    rw [hid₃, hcalls'] at hpending
    have hnew : 0 ∉ s₃.answered := by
      rw [hanswered₃]
      intro h
      have := hanswered' 0 (by omega) h
      simp [hanswered] at this
    have hresponse : clientStep s₃ (.receive (some 0) .response [] []) =
        some { s₃.responseCallback ⟨c.requestId, .response, [], []⟩ (.response 0) with
          answered := 0 :: s₃.answered } := by
      simp [clientStep, hc₃, hstage, hconn, hsock, hnew]
    obtain ⟨hmem, hwrong⟩ := complete_other (s := s₃) (k := 2 ^ 32) (.response 0) []
      (by rw [hpending, Function.update_self]) (by simp)
      (by simp)
    exact ⟨_, _, hr.next trivial hresponse, hmem, fun h => hwrong ⟨h.distinct, h.once, h.own⟩⟩

end RpcClient

end TinRpc.Rpc

import TinRpc.Proofs.Promises

/-!
# Requests on the wire

`Call` takes any number of bytes that `send` reports for the whole frame. As long as `send` takes
the whole frame or fails, the socket's bytes are whole frames, one for each call whose future is not
failed (`requests_whole`).
-/

namespace TinRpc.Rpc

open Transition

namespace RpcClient

/-- The cause is a frame from the server. -/
def Cause.received : Cause → Bool
  | .response _ | .push => true
  | .sendFailed _ | .broken => false

/-- The call's future holds the empty value of a failed send, or an exception. -/
def Failed (s : RpcClient) (k : ℕ) : Prop :=
  ∃ e ∈ s.completions, e.call = k ∧ Cause.received e.cause = false

def frameOf (s : RpcClient) (k : ℕ) : List UInt8 := (s.call k).elim [] ClientCall.frame

/-- The stream is the whole frames of some calls, each once, with part of a further one at most
behind them; every call that has returned a future that is not failed is among them. -/
def Whole (s : RpcClient) : Prop :=
  ∃ (sent : List ℕ) (tail : List UInt8), sent.Nodup ∧ (∀ k ∈ sent, (s.call k).isSome) ∧
    s.stream = sent.flatMap s.frameOf ++ tail ∧
    (tail = [] ∨ ∃ k, k ∉ sent ∧ tail <+: s.frameOf k ∧ tail ≠ s.frameOf k) ∧
    ∀ k c, s.call k = some c → c.stage = .sent ∨ c.stage = .failed → ¬ s.Failed k → k ∈ sent

/-- `send` takes the whole frame into the open socket, and the future of a call whose send failed
has not been completed by a frame from the server. -/
def WholeSends (s : RpcClient) : ClientEvent → Prop
  | .send k (some n) => s.socket = true ∧ n = (s.frameOf k).length
  | .fail k => ∀ e ∈ s.completions, e.call = k → Cause.received e.cause = false
  | _ => True

instance (s : RpcClient) (e : ClientEvent) : Decidable (WholeSends s e) :=
  match e with
  | .send k (some n) => inferInstanceAs (Decidable (s.socket = true ∧ n = (s.frameOf k).length))
  | .fail k => inferInstanceAs (Decidable
    (∀ e ∈ s.completions, e.call = k → Cause.received e.cause = false))
  | .send _ none | .call .. | .store _ | .receive .. | .peerClose | .disconnect | .closeFd =>
    .isTrue trivial

structure Sent (s : RpcClient) (sent : List ℕ) : Prop where
  promises : Promises s
  nodup : sent.Nodup
  stream : s.stream = sent.flatMap s.frameOf
  mem : ∀ k, k ∈ sent ↔ ∃ c, s.call k = some c ∧ c.stage = .sent
  failed : ∀ k c, s.call k = some c → c.stage = .failed → s.Failed k

variable {s s' : RpcClient} {k : ℕ} {c : ClientCall} {sent : List ℕ}

theorem Sent.whole (hs : Sent s sent) : Whole s := by
  refine ⟨sent, [], hs.nodup, fun k hk => ?_, by rw [hs.stream, List.append_nil], .inl rfl, ?_⟩
  · obtain ⟨c, hc, -⟩ := (hs.mem k).1 hk
    exact Option.isSome_iff_exists.2 ⟨c, hc⟩
  · rintro k c hc (hstage | hstage) hfailed
    · exact (hs.mem k).2 ⟨c, hc, hstage⟩
    · exact absurd (hs.failed k c hc hstage) hfailed

theorem flatMap_frameOf (h : ∀ k ∈ sent, s'.frameOf k = s.frameOf k) :
    sent.flatMap s'.frameOf = sent.flatMap s.frameOf := by
  rw [List.flatMap_def, List.flatMap_def, List.map_congr_left h]

/-- Steps that write nothing and leave the calls alone. -/
theorem Sent.of_same (hs : Sent s sent) (hp : Promises s') (hcall : s'.call = s.call)
    (hstream : s'.stream = s.stream) (hfailed : ∀ k, s.Failed k → s'.Failed k) : Sent s' sent where
  promises := hp
  nodup := hs.nodup
  stream := by
    rw [hstream, hs.stream]
    unfold frameOf
    rw [hcall]
  mem k := by rw [hcall, hs.mem]
  failed k c hc hstage := hfailed k (hs.failed k c (hcall ▸ hc) hstage)

/-- A call that goes on without being sent. -/
theorem Sent.of_setStage (hs : Sent s sent) (stage : Stage) (hp : Promises s')
    (hk : s.call k = some c) (hcall : s'.call = (s.setStage k c stage).call)
    (hstream : s'.stream = s.stream) (hfailed : ∀ k, s.Failed k → s'.Failed k)
    (hne : c.stage ≠ .sent) (hne' : stage ≠ .sent) (hself : stage = .failed → s'.Failed k) :
    Sent s' sent := by
  have hcall : ∀ j, s'.call j = if j = k then some { c with stage } else s.call j := fun j =>
    (congrFun hcall j).trans (call_setStage j)
  refine ⟨hp, hs.nodup, ?_, fun j => ?_, fun j d hd hstage => ?_⟩
  · rw [hstream, hs.stream]
    refine (flatMap_frameOf fun j _ => ?_).symm
    unfold frameOf
    rw [hcall]
    split_ifs with hj
    · rw [hj, hk]
      rfl
    · rfl
  · rw [hcall, hs.mem]
    split_ifs with hj
    · rw [hj, hk]
      simp [hne, hne']
    · rfl
  · rw [hcall] at hd
    split_ifs at hd with hj
    · obtain rfl := Option.some.inj hd
      exact hj ▸ hself hstage
    · exact hfailed j (hs.failed j d hd hstage)

theorem failed_complete {id : UInt32} {cause : Cause} {value : List UInt8} (h : s.Failed k) :
    (s.complete id cause value).Failed k := by
  obtain ⟨e, he, hk, hcause⟩ := h
  rcases s.complete_cases id cause value with ⟨-, heq⟩ | ⟨m, -, heq⟩ <;> rw [heq]
  · exact ⟨e, he, hk, hcause⟩
  · exact ⟨e, List.mem_append_left _ he, hk, hcause⟩

theorem stream_complete {id : UInt32} {cause : Cause} {value : List UInt8} :
    (s.complete id cause value).stream = s.stream := by
  rcases s.complete_cases id cause value with ⟨-, heq⟩ | ⟨m, -, heq⟩ <;> rw [heq]

theorem failed_store {id : UInt32} {j : ℕ} (h : s.Failed j) : (s.store k id).Failed j := by
  obtain ⟨e, he, hj, hcause⟩ := h
  refine ⟨e, ?_, hj, hcause⟩
  unfold store
  rcases s.pendingRequests id with _ | m
  · exact he
  · exact List.mem_append_left _ he

/-- The whole frame goes out behind the others. -/
theorem sent_send (hs : Sent s sent)
    (hp : Promises ((s.accept c.frame c.frame.length).setStage k c .sent))
    (hk : s.call k = some c) (hstage : c.stage = .stored) (hsocket : s.socket = true) :
    Sent ((s.accept c.frame c.frame.length).setStage k c .sent) (sent ++ [k]) := by
  have hnew : k ∉ sent := by
    rw [hs.mem]
    rintro ⟨d, hd, hsent⟩
    rw [hk, Option.some.injEq] at hd
    rw [← hd, hstage] at hsent
    cases hsent
  have hcall : ∀ j, ((s.accept c.frame c.frame.length).setStage k c .sent).call j =
      if j = k then some { c with stage := .sent } else s.call j := fun j => call_setStage j
  refine ⟨hp, ?_, ?_, fun j => ?_, fun j d hd hfailed => ?_⟩
  · refine List.nodup_append.2 ⟨hs.nodup, List.pairwise_singleton _ _, fun a ha b hb hab => ?_⟩
    rw [List.mem_singleton] at hb
    exact hnew (hb ▸ hab ▸ ha)
  · have hold : sent.flatMap ((s.accept c.frame c.frame.length).setStage k c .sent).frameOf =
        sent.flatMap s.frameOf := by
      refine flatMap_frameOf fun j hj => ?_
      unfold frameOf
      rw [hcall, if_neg]
      rintro rfl
      exact hnew hj
    have hself : ((s.accept c.frame c.frame.length).setStage k c .sent).frameOf k = c.frame := by
      unfold frameOf
      rw [hcall, if_pos rfl]
      rfl
    rw [List.flatMap_append, hold, List.flatMap_singleton, hself, ← hs.stream]
    show (if s.socket then s.stream ++ c.frame.take c.frame.length else s.stream) = _
    rw [hsocket, List.take_length]
    rfl
  · rw [List.mem_append, List.mem_singleton, hcall, hs.mem]
    split_ifs with hj
    · simp [hj]
    · simp [hj]
  · rw [hcall] at hd
    split_ifs at hd with hj
    · obtain rfl := Option.some.inj hd
      cases hfailed
    · exact hs.failed j d hd hfailed

/-- A call whose send failed has a failed future. -/
theorem failed_fail (hs : Promises s) (hk : s.call k = some c) (hstage : c.stage = .failing)
    (hok : ∀ e ∈ s.completions, e.call = k → Cause.received e.cause = false) :
    (s.complete c.requestId (.sendFailed k) []).Failed k := by
  by_cases hr : s.Ready k
  · obtain ⟨e, he, hek⟩ := List.mem_map.1 hr
    exact failed_complete ⟨e, he, hek, hok e he hek⟩
  · have hheld := (hs.held k c hk).2 ⟨by simp [hstage], hr⟩
    rcases s.complete_cases c.requestId (.sendFailed k) [] with ⟨hnone, -⟩ | ⟨m, hm, heq⟩
    · rw [hheld] at hnone
      cases hnone
    · rw [hheld, Option.some.injEq] at hm
      rw [heq, ← hm]
      exact ⟨_, List.mem_append_right _ List.mem_cons_self, rfl, rfl⟩

theorem sent_step {e : ClientEvent} (hs : Sent s sent) (hok : WholeSends s e)
    (h : clientStep s e = some s') : ∃ sent', Sent s' sent' := by
  have hp := promises_step hs.promises h
  cases e with
  | call methodName body =>
    obtain rfl := Option.some.inj h
    refine ⟨sent, hp, hs.nodup, ?_, fun j => ?_, fun j d hd hstage => ?_⟩
    · refine hs.stream.trans (flatMap_frameOf fun j hj => ?_).symm
      obtain ⟨d, hd, -⟩ := (hs.mem j).1 hj
      unfold frameOf
      rw [hs.promises.kept_allocate hd, hd]
    · rw [hs.mem, call_allocate]
      split_ifs with hj
      · constructor
        · rintro ⟨d, hd, -⟩
          exact absurd hj (hs.promises.ne_calls hd)
        · rintro ⟨d, hd, hstage⟩
          obtain rfl := Option.some.inj hd
          cases hstage
      · rfl
    · rw [call_allocate] at hd
      split_ifs at hd with hj
      · obtain rfl := Option.some.inj hd
        cases hstage
      · exact hs.failed j d hd hstage
  | store k =>
    obtain ⟨c, hc, hstage, rfl⟩ := ClientStep.store h
    exact ⟨sent, hs.of_setStage .stored hp hc rfl rfl (fun j hj => failed_store (k := k) hj)
      (by simp [hstage]) (by simp) (by simp)⟩
  | send k outcome =>
    cases outcome with
    | some n =>
      obtain ⟨c, hc, ⟨hstage, -⟩, rfl⟩ := ClientStep.send h
      obtain ⟨hsocket, hn⟩ := hok
      obtain rfl : n = c.frame.length := by rw [hn, frameOf, hc]; rfl
      exact ⟨sent ++ [k], sent_send hs hp hc hstage hsocket⟩
    | none =>
      obtain ⟨c, hc, hstage, rfl⟩ := ClientStep.sendFails h
      exact ⟨sent, hs.of_setStage .failing hp hc rfl rfl (fun j hj => hj)
        (by simp [hstage]) (by simp) (by simp)⟩
  | fail k =>
    obtain ⟨c, hc, hstage, rfl⟩ := ClientStep.fail h
    refine ⟨sent, hs.of_setStage .failed hp hc ?_ stream_complete
      (fun j hj => failed_complete hj) (by simp [hstage]) (by simp)
      fun _ => failed_fail hs.promises hc hstage hok⟩
    show Function.update (s.complete c.requestId (.sendFailed k) []).call k _ = _
    rw [call_complete]
    rfl
  | receive answers msgType methodName body =>
    cases answers with
    | none =>
      obtain ⟨-, value, rfl⟩ := ClientStep.push h
      exact ⟨sent, hs.of_same hp call_complete stream_complete fun j hj => failed_complete hj⟩
    | some k =>
      obtain ⟨-, c, value, -, -, -, rfl⟩ := ClientStep.response h
      exact ⟨sent, hs.of_same hp (call_complete (s := s)) (stream_complete (s := s)) fun j hj =>
        failed_complete hj⟩
  | peerClose =>
    obtain rfl := ClientStep.peerClose h
    exact ⟨sent, hs.of_same hp rfl rfl fun j hj => hj⟩
  | disconnect =>
    obtain rfl := Option.some.inj h
    unfold disconnect at hp ⊢
    split_ifs at hp ⊢
    · exact ⟨sent, hs.of_same hp rfl rfl fun j hj => hj⟩
    · exact ⟨sent, hs⟩
  | closeFd =>
    obtain rfl := Option.some.inj h
    unfold closeFd at hp ⊢
    split_ifs at hp ⊢
    · exact ⟨sent, hs.of_same hp rfl rfl fun j hj => hj⟩
    · exact ⟨sent, hs⟩

/-- In every run in which `send` takes whole frames or fails, the stream is whole. -/
theorem requests_whole (h : Reach clientStep WholeSends {} s) : Whole s := by
  have hstart : Sent {} [] := ⟨promises_start, .nil, rfl, by simp, by simp⟩
  obtain ⟨sent, hs⟩ := h.invariant (P := fun s => ∃ sent, Sent s sent) ⟨[], hstart⟩
    fun s e s' ⟨sent, hs⟩ hok he => sent_step hs hok he
  exact hs.whole

/-- Three calls: the send of the second one fails. -/
theorem requests_whole_three : ∃ s : RpcClient, s.stream =
      ProtocolFrame.encode 1 .request [] [] ++ ProtocolFrame.encode 3 .request [] [] ∧ Whole s := by
  have hrun : ([.call [] [], .store 0, .send 0 (some 13), .call [] [], .store 1, .send 1 none,
      .call [] [], .fail 1, .store 2, .send 2 (some 13)].foldlM
        (fun s e => if WholeSends s e then clientStep s e else none) {}).map
          (fun s : RpcClient => s.stream) = some (ProtocolFrame.encode 1 .request [] [] ++
            ProtocolFrame.encode 3 .request [] []) := by
    decide +kernel
  obtain ⟨s, hs, hstream⟩ := Option.map_eq_some_iff.1 hrun
  exact ⟨s, hstream, requests_whole (Reach.of_foldlM _ hs)⟩

/-- `send` takes five bytes of the first frame, and the second frame follows them. -/
theorem short_send_not_whole : ∃ s : RpcClient, Reach clientStep anyEvent {} s ∧
    s.completions = [] ∧ s.stream = (ProtocolFrame.encode 1 .request [] []).take 5 ++
      ProtocolFrame.encode 2 .request [] [] ∧ ¬ Whole s := by
  have hrun : ([.call [] [], .store 0, .send 0 (some 5), .call [] [], .store 1,
      .send 1 (some 13)].foldlM (fun s e => if anyEvent s e then clientStep s e else none) {}).map
        (fun s : RpcClient => decide (s.completions = [] ∧
          s.stream = (ProtocolFrame.encode 1 .request [] []).take 5 ++
            ProtocolFrame.encode 2 .request [] [] ∧ s.calls = 2 ∧ s.stream.length = 18 ∧
          (s.frameOf 0).length = 13 ∧ (s.frameOf 1).length = 13 ∧
          (s.call 0).map ClientCall.stage = some .sent ∧
          (s.call 1).map ClientCall.stage = some .sent)) = some true := by
    decide +kernel
  obtain ⟨s, hs, hstate⟩ := Option.map_eq_some_iff.1 hrun
  simp only [decide_eq_true_eq, Option.map_eq_some_iff] at hstate
  obtain ⟨hcompletions, hstream, hcalls, hlen, hlen₀, hlen₁, ⟨c₀, hc₀, hs₀⟩, c₁, hc₁, hs₁⟩ := hstate
  have hr := Reach.of_foldlM _ hs
  refine ⟨s, hr, hcompletions, hstream, ?_⟩
  rintro ⟨sent, tail, hnodup, hmade, heq, -, hin⟩
  have hfailed : ∀ k, ¬ s.Failed k := by
    rintro k ⟨e, he, -⟩
    rw [hcompletions] at he
    cases he
  have hperm : sent.Perm [0, 1] := by
    refine (List.perm_ext_iff_of_nodup hnodup (by decide)).2 fun k => ⟨fun hk => ?_, fun hk => ?_⟩
    · obtain ⟨c, hc⟩ := Option.isSome_iff_exists.1 (hmade k hk)
      have := ((promises_reach hr).numbered k c hc).1
      simp only [List.mem_cons, List.not_mem_nil, or_false]
      omega
    · simp only [List.mem_cons, List.not_mem_nil, or_false] at hk
      rcases hk with rfl | rfl
      · exact hin 0 c₀ hc₀ (.inl hs₀) (hfailed 0)
      · exact hin 1 c₁ hc₁ (.inl hs₁) (hfailed 1)
  have hlength := congrArg List.length heq
  rw [hlen, List.length_append, (hperm.flatMap_right s.frameOf).length_eq, List.flatMap_cons,
    List.flatMap_cons, List.flatMap_nil, List.length_append, List.length_append, hlen₀,
    hlen₁] at hlength
  simp only [List.length_nil] at hlength
  omega

end RpcClient

end TinRpc.Rpc

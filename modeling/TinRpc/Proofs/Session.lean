import TinRpc.NetSession
import TinRpc.Lib.Reach

/-!
# A session's requests

Of what a step can do to the requests there is little (`Desk.Moves`): a disconnect forgets them, an
id is taken, a request is sent with it, or a pending one is settled. So a request is completed at
most once, with the kind it was sent with, and a move is pending only while one is in flight.
-/

namespace TinRpc

open Transition

/-- The kind of the request a signal completes. -/
def Signal.settles : Signal → Option RequestKind
  | completed kind _ => some kind
  | refused kind _ => some kind
  | _ => none

namespace NetSession

/-- What a session has to do with requests. -/
structure Desk where
  next : ℕ
  pending : ℕ → Option RequestKind
  inFlight : Bool
  sends : List (ℕ × RequestKind)
  completions : List (ℕ × RequestKind)
  taken : ℕ
  settled : List RequestKind

def desk (s : NetSession) : Desk :=
  ⟨s.nextRequestId, s.pendingRequests, s.moveRequestInFlight, s.sends, s.completions, s.taken,
    s.signals.filterMap Signal.settles⟩

/-- The id behind an id. -/
def idAfter (id : ℕ) : ℕ := if (id + 1) &&& 0xFFFFFFFF = 0 then 1 else (id + 1) &&& 0xFFFFFFFF

/-- What a step can do to the requests. -/
inductive Desk.Moves (d : Desk) : Desk → Prop
  | same : Moves d d
  | clear : Moves d { d with pending := fun _ => none, inFlight := false }
  | take : Moves d { d with next := idAfter d.next, taken := d.taken + 1 }
  | send (kind : RequestKind) (hmove : kind = .move → d.inFlight = false) (hid : d.next ≠ 0) :
    Moves d { d with
      next := idAfter d.next
      taken := d.taken + 1
      pending := Function.update d.pending d.next (some kind)
      inFlight := if kind = .move then true else d.inFlight
      sends := d.sends ++ [(d.next, kind)] }
  | settle (id : ℕ) (kind : RequestKind) (signals : List RequestKind)
      (hpending : d.pending id = some kind) (hsignals : signals.Sublist [kind]) :
    Moves d { d with
      pending := Function.update d.pending id none
      inFlight := if kind = .move then false else d.inFlight
      completions := d.completions ++ [(id, kind)]
      settled := d.settled ++ signals }

variable {s s' : NetSession}

theorem desk_emit (s : NetSession) (signals : List Signal) : (s.emit signals).desk =
    { s.desk with settled := s.desk.settled ++ signals.filterMap Signal.settles } := by
  unfold emit desk
  rw [List.filterMap_append]

theorem moves_emit {signals : List Signal} (h : signals.filterMap Signal.settles = []) :
    s.desk.Moves (s.emit signals).desk := by
  rw [desk_emit, h, List.append_nil]
  exact .same

theorem moves_handleDisconnected (s : NetSession) : s.desk.Moves s.handleDisconnected.desk := by
  unfold handleDisconnected
  split_ifs
  · unfold onDisconnected
    rw [desk_emit]
    show s.desk.Moves { s.desk with
      pending := fun _ => none, inFlight := false, settled := s.desk.settled ++ [] }
    rw [List.append_nil]
    exact .clear
  · exact .same

theorem moves_disconnectFromHost (s : NetSession) : s.desk.Moves s.disconnectFromHost.desk := by
  unfold disconnectFromHost
  split_ifs
  · exact moves_handleDisconnected s
  · exact .same

theorem moves_pollStatus (s : NetSession) (pollError : Bool) (status : PeerStatus) :
    s.desk.Moves (s.pollStatus pollError status).desk := by
  unfold pollStatus
  split_ifs
  · exact .same
  · exact moves_handleDisconnected s
  · exact .same
  · exact moves_emit (s := { s with isConnected := true }) rfl
  · exact moves_handleDisconnected s
  · exact .same

theorem desk_readAvailableBytes : ∀ (reads : List (Option (List UInt8))) (s : NetSession),
    s.desk.Moves (s.readAvailableBytes reads).desk
  | [], _ => .same
  | none :: _, s => moves_handleDisconnected s
  | some bytes :: reads, s => desk_readAvailableBytes reads
      { s with receiveBuffer := s.receiveBuffer ++ bytes }

/-- What `send_request` returns: 0, an id perhaps being taken, or an id that is taken. -/
theorem sendRequest_cases (s : NetSession) (method : String) (body : List UInt8)
    (status : PeerStatus) (put : Bool) :
    ((s.sendRequest method body status put).1 = 0 ∧
      s.desk.Moves (s.sendRequest method body status put).2.desk) ∨
    ∃ stream, s.sendRequest method body status put = (s.nextRequestId,
      { s.takeRequestId.2 with stream }) := by
  unfold sendRequest
  split_ifs with hpeer
  · exact .inl ⟨rfl, .same⟩
  · simp only []
    split_ifs
    · exact .inl ⟨rfl, .take⟩
    · exact .inr ⟨_, rfl⟩

theorem moves_request (s : NetSession) (r : ClientRequest) (status : PeerStatus) (put : Bool) :
    s.desk.Moves (s.request r status put).desk := by
  have hcases := s.sendRequest_cases r.method r.body status put
  unfold request send
  split_ifs with hmove hflight
  · exact .same
  · rcases hcases with ⟨hzero, h⟩ | ⟨stream, h⟩
    · simp only [hzero, ne_eq, not_true_eq_false, if_false]
      exact h
    · simp only [h]
      split_ifs with hid
      · have hsent := Desk.Moves.send (d := s.desk) r.kind
          (fun _ => Bool.eq_false_of_not_eq_true hflight) hid
        rw [if_pos hmove] at hsent
        exact hsent
      · exact .take
  · rcases hcases with ⟨hzero, h⟩ | ⟨stream, h⟩
    · simp only [hzero, ne_eq, not_true_eq_false, if_false]
      exact h
    · simp only [h]
      split_ifs with hid
      · have hsent := Desk.Moves.send (d := s.desk) r.kind (fun h => absurd h hmove) hid
        rw [if_neg hmove] at hsent
        exact hsent
      · exact .take

theorem moves_onNotify {n : ℕ} {method body : List UInt8}
    (h : s.onNotify n method body = some s') : s.desk.Moves s'.desk := by
  unfold onNotify at h
  cases hd : notifyDecoder method with
  | none =>
    rw [hd] at h
    cases h
    exact .same
  | some d =>
    rw [hd] at h
    simp only [] at h
    cases hcall : d.call n body with
    | returned result =>
      rw [hcall] at h
      cases h
      exact moves_emit rfl
    | aborted =>
      rw [hcall] at h
      cases h
      exact .same
    | running =>
      rw [hcall] at h
      cases h

theorem moves_onResponse {n requestId : ℕ} {method body : List UInt8} {isError : Bool}
    (h : s.onResponse n requestId method body isError = some s') : s.desk.Moves s'.desk := by
  unfold onResponse at h
  cases hpending : s.pendingRequests requestId with
  | none =>
    rw [hpending] at h
    cases h
    exact .same
  | some kind =>
    rw [hpending] at h
    simp only [] at h
    have settle := fun signals hsignals =>
      Desk.Moves.settle (d := s.desk) requestId kind signals hpending hsignals
    by_cases herror : isError = true
    · rw [if_pos herror] at h
      cases h
      rw [desk_emit]
      exact settle [kind] (List.Sublist.refl _)
    · rw [if_neg herror] at h
      cases hcall : kind.decoder.call n body with
      | returned result =>
        rw [hcall] at h
        cases h
        rw [desk_emit]
        exact settle [kind] (List.Sublist.refl _)
      | aborted =>
        rw [hcall] at h
        cases h
        have hnone := settle [] (List.nil_sublist _)
        rw [List.append_nil] at hnone
        exact hnone
      | running =>
        rw [hcall] at h
        cases h

theorem step_moves {e : SessionEvent} (h : sessionStep s e = some s') : s.desk.Moves s'.desk := by
  cases e with
  | connectToServer =>
    cases h
    exact .same
  | disconnectFromServer =>
    cases h
    exact moves_disconnectFromHost s
  | request r status put =>
    cases h
    exact moves_request s r status put
  | pollStatus pollError status =>
    cases h
    exact moves_pollStatus s pollError status
  | read reads =>
    cases h
    exact desk_readAvailableBytes reads s
  | dispatch n =>
    unfold sessionStep at h
    cases hframes : s.frames with
    | nil =>
      rw [hframes] at h
      cases h
    | cons f frames =>
      rw [hframes] at h
      simp only [] at h
      unfold dispatchFrame at h
      split_ifs at h
      · exact moves_onNotify (s := { s with frames }) h
      · exact moves_onResponse (s := { s with frames }) h

theorem and_mask (n : ℕ) : n &&& 0xFFFFFFFF = n % 2 ^ 32 := Nat.and_two_pow_sub_one_eq_mod n 32

theorem idAfter_spec (id : ℕ) : 0 < idAfter id ∧ idAfter id < 2 ^ 32 ∧
    (id + 1 < 2 ^ 32 → idAfter id = id + 1) := by
  unfold idAfter
  rw [and_mask]
  split_ifs with h <;> omega

/-- Ids are numbers of 32 bits and not zero; nothing is completed that was not sent, or twice; and
one move at most is pending, while one is in flight. -/
structure Desk.Lawful (d : Desk) : Prop where
  next_pos : 0 < d.next
  next_lt : d.next < 2 ^ 32
  counted : ∀ id kind, d.completions.count (id, kind) +
    (if d.pending id = some kind then 1 else 0) ≤ d.sends.count (id, kind)
  flying : ∀ id, d.pending id = some .move → d.inFlight = true
  alone : ∀ i j, d.pending i = some .move → d.pending j = some .move → i = j
  signalled : d.settled.Sublist (d.completions.map Prod.snd)

/-- While no id has been taken twice they count up, and a move in flight is pending. -/
structure Desk.Young (d : Desk) : Prop where
  next : d.next = d.taken + 1
  sends : ∀ c ∈ d.sends, c.1 ≤ d.taken
  distinct : (d.sends.map Prod.fst).Nodup
  pending : ∀ id kind, d.pending id = some kind → id ≤ d.taken
  flying : d.inFlight = true → ∃ id, d.pending id = some .move

variable {d d' : Desk}

theorem Desk.Lawful.moves (h : d.Lawful) (hm : d.Moves d') : d'.Lawful := by
  obtain ⟨hpos, hlt, hcounted, hflying, halone, hsignalled⟩ := h
  have hnext := idAfter_spec d.next
  cases hm with
  | same => exact ⟨hpos, hlt, hcounted, hflying, halone, hsignalled⟩
  | clear =>
    refine ⟨hpos, hlt, fun id kind => ?_, nofun, nofun, hsignalled⟩
    have := hcounted id kind
    simp only [reduceCtorEq, if_false]
    omega
  | take => exact ⟨hnext.1, hnext.2.1, hcounted, hflying, halone, hsignalled⟩
  | send kind hmove hid =>
    refine ⟨hnext.1, hnext.2.1, fun id k => ?_, fun id h => ?_, fun i j hi hj => ?_, hsignalled⟩
    · have hbefore := hcounted id k
      simp only [List.count_append, List.count_singleton, Function.update_apply]
      have hnew : (if (if id = d.next then some kind else d.pending id) = some k then 1 else 0) ≤
          (if d.pending id = some k then 1 else 0) +
            if (d.next, kind) == (id, k) then 1 else 0 := by
        by_cases hi : id = d.next
        · rw [if_pos hi, hi]
          by_cases hk : kind = k
          · rw [if_pos (congrArg some hk), hk, if_pos (beq_self_eq_true _)]
            exact Nat.le_add_left _ _
          · rw [if_neg fun h => hk (Option.some.inj h)]
            exact Nat.zero_le _
        · rw [if_neg hi]
          exact Nat.le_add_right _ _
      omega
    · simp only [Function.update_apply] at h
      split_ifs with hkind
      · rfl
      · split_ifs at h
        · exact absurd (Option.some.inj h) hkind
        · exact hflying id h
    · simp only [Function.update_apply] at hi hj
      split_ifs at hi hj with h₁ h₂ h₂
      · exact h₁.trans h₂.symm
      · exact absurd ((hmove (Option.some.inj hi)).symm.trans (hflying j hj)) Bool.false_ne_true
      · exact absurd ((hmove (Option.some.inj hj)).symm.trans (hflying i hi)) Bool.false_ne_true
      · exact halone i j hi hj
  | settle id kind signals hpending hsignals =>
    refine ⟨hpos, hlt, fun i k => ?_, fun i h => ?_, fun i j hi hj => ?_, ?_⟩
    · have hbefore := hcounted i k
      simp only [List.count_append, List.count_singleton, Function.update_apply]
      by_cases hsame : id = i ∧ kind = k
      · obtain ⟨rfl, rfl⟩ := hsame
        rw [if_pos hpending] at hbefore
        simp only [if_true, beq_self_eq_true, reduceCtorEq, if_false]
        exact hbefore
      · have hne : ((id, kind) == (i, k)) = false := by
          rw [beq_eq_false_iff_ne, Ne, Prod.mk.injEq]
          exact hsame
        rw [hne]
        split_ifs at hbefore ⊢ <;> first | omega | (exfalso; tauto)
    · simp only [Function.update_apply] at h
      split_ifs at h with hi
      have hmove := hflying i h
      split_ifs with hkind
      · exact absurd (halone i id h (hkind ▸ hpending)) hi
      · exact hmove
    · simp only [Function.update_apply] at hi hj
      split_ifs at hi hj
      exact halone i j hi hj
    · show (d.settled ++ signals).Sublist ((d.completions ++ [(id, kind)]).map Prod.snd)
      rw [List.map_append]
      exact hsignalled.append hsignals

theorem Desk.Young.moves (h : d.Young) (hm : d.Moves d') (hlt : d'.taken < 2 ^ 32 - 1) :
    d'.Young := by
  obtain ⟨hnext, hsends, hdistinct, hpending, hflying⟩ := h
  cases hm with
  | same => exact ⟨hnext, hsends, hdistinct, hpending, hflying⟩
  | clear => exact ⟨hnext, hsends, hdistinct, nofun, nofun⟩
  | take =>
    have hafter := (idAfter_spec d.next).2.2 (by rw [hnext]; exact Nat.lt_sub_iff_add_lt.1 hlt)
    exact ⟨by rw [hafter, hnext], fun c hc => Nat.le_succ_of_le (hsends c hc), hdistinct,
      fun id kind h => Nat.le_succ_of_le (hpending id kind h), hflying⟩
  | send kind hmove hid =>
    have hafter := (idAfter_spec d.next).2.2 (by rw [hnext]; exact Nat.lt_sub_iff_add_lt.1 hlt)
    refine ⟨by rw [hafter, hnext], fun c hc => ?_, ?_, fun id k h => ?_, fun h => ?_⟩
    · rcases List.mem_append.1 hc with hc | hc
      · exact Nat.le_succ_of_le (hsends c hc)
      · rw [List.mem_singleton.1 hc]
        exact Nat.le_of_eq hnext
    · show ((d.sends ++ [(d.next, kind)]).map Prod.fst).Nodup
      rw [List.map_append, List.map_singleton, List.nodup_append]
      refine ⟨hdistinct, List.nodup_singleton _, fun a ha b hb => ?_⟩
      obtain ⟨c, hc, rfl⟩ := List.mem_map.1 ha
      have hle := hsends c hc
      rw [List.mem_singleton.1 hb, hnext]
      omega
    · simp only [Function.update_apply] at h
      split_ifs at h with hi
      · rw [hi]
        exact Nat.le_of_eq hnext
      · exact Nat.le_succ_of_le (hpending id k h)
    · by_cases hkind : kind = .move
      · exact ⟨d.next, by simp only [Function.update_self, hkind]⟩
      · simp only [if_neg hkind] at h
        obtain ⟨id, hid⟩ := hflying h
        have hle := hpending id _ hid
        refine ⟨id, ?_⟩
        simp only [Function.update_apply]
        rw [if_neg (by omega)]
        exact hid
  | settle id kind signals hp _ =>
    refine ⟨hnext, hsends, hdistinct, fun i k h => ?_, fun h => ?_⟩
    · simp only [Function.update_apply] at h
      split_ifs at h
      exact hpending i k h
    · by_cases hkind : kind = .move
      · simp only [if_pos hkind, Bool.false_eq_true] at h
      · simp only [if_neg hkind] at h
        obtain ⟨i, hi⟩ := hflying h
        refine ⟨i, ?_⟩
        simp only [Function.update_apply]
        split_ifs with hsame
        · rw [hsame, hp] at hi
          exact absurd (Option.some.inj hi) hkind
        · exact hi

theorem Desk.Moves.taken_le (hm : d.Moves d') : d.taken ≤ d'.taken := by
  cases hm with
  | take => exact Nat.le_succ _
  | send => exact Nat.le_succ _
  | _ => exact Nat.le_refl _

theorem desk_of_reach (h : Reach sessionStep anyEvent {} s) :
    s.desk.Lawful ∧ (s.desk.taken < 2 ^ 32 - 1 → s.desk.Young) := by
  refine h.invariant (P := fun s => s.desk.Lawful ∧ (s.desk.taken < 2 ^ 32 - 1 → s.desk.Young))
    ⟨⟨by decide, by decide, fun _ _ => Nat.le_refl 0, nofun, nofun, List.Sublist.refl _⟩,
      fun _ => ⟨rfl, nofun, List.nodup_nil, nofun, nofun⟩⟩ fun s e s' hs _ he => ?_
  have hm := step_moves he
  exact ⟨hs.1.moves hm, fun hlt => (hs.2 (Nat.lt_of_le_of_lt hm.taken_le hlt)).moves hm hlt⟩

/-- In every run of a session nothing is completed that was not sent, with its kind, and not more
often; at most one signal says so. One move at most is pending, and only while one is in flight. As
long as no id has been taken twice, the requests have different ids, and a move in flight is
pending. -/
theorem requests_settled (h : Reach sessionStep anyEvent {} s) :
    (∀ id kind, s.completions.count (id, kind) +
      (if s.pendingRequests id = some kind then 1 else 0) ≤ s.sends.count (id, kind)) ∧
    (s.signals.filterMap Signal.settles).Sublist (s.completions.map Prod.snd) ∧
    (∀ i j, s.pendingRequests i = some .move → s.pendingRequests j = some .move →
      i = j ∧ s.moveRequestInFlight = true) ∧
    (s.taken < 2 ^ 32 - 1 → (s.sends.map Prod.fst).Nodup ∧
      (s.moveRequestInFlight = true → ∃ id, s.pendingRequests id = some .move)) := by
  obtain ⟨hlawful, hyoung⟩ := desk_of_reach h
  exact ⟨hlawful.counted, hlawful.signalled,
    fun i j hi hj => ⟨hlawful.alone i j hi hj, hlawful.flying i hi⟩,
    fun hlt => ⟨(hyoung hlt).distinct, (hyoung hlt).flying⟩⟩

/-- A login that is answered and a move that is not. -/
theorem requests_settled_login : ∃ s, Reach sessionStep anyEvent {} s ∧
    s.completions = [(1, .login)] ∧ s.signals.filterMap Signal.settles = [.login] ∧
    s.moveRequestInFlight = true ∧
    s.completions.count (1, .login) + (if s.pendingRequests 1 = some .login then 1 else 0) ≤
      s.sends.count (1, .login) := by
  have hrun : (([.connectToServer, .pollStatus false .connected,
      .request (.login "ann" "secret") .connected true,
      .request (.sendMove {} [0, 0, 0, 0] 1) .connected true,
      .read [some (FrameCodec.encode 1 2 (utf8 "Login") [8, 1])], .dispatch 3] :
      List SessionEvent).foldlM (fun s e => if anyEvent s e then sessionStep s e else none)
      ({} : NetSession)).map (fun s => (s.completions, s.signals.filterMap Signal.settles,
        s.moveRequestInFlight)) = some ([(1, .login)], [.login], true) := by decide +kernel
  obtain ⟨s, hs, hview⟩ := Option.map_eq_some_iff.1 hrun
  obtain ⟨hcompleted, hsignals, hflight⟩ := Prod.mk.inj hview |>.imp id Prod.mk.inj
  have hreach : Reach sessionStep anyEvent {} s := Reach.of_foldlM _ hs
  exact ⟨s, hreach, hcompleted, hsignals, hflight, (requests_settled hreach).1 1 .login⟩

end NetSession

end TinRpc

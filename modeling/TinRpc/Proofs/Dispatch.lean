import TinRpc.EventLoop
import TinRpc.Proofs.Deframing
import TinRpc.Proofs.Sending

/-!
# Calls on handlers

`Run` looks a handler up for each event and keeps the pointer over two calls. The first one may
destroy the handler: a connection closes when its `recv` meets the end of the stream. Every other
call finds the handler where it was.
-/

namespace TinRpc.Rpc

namespace EventLoop

/-- Connections that are registered are not closed. -/
def Open (l : EventLoop) : Prop :=
  ∀ fd i c, l.handlers.lookup fd = some (i, .connection c) → c.closed = false

/-- Handler number `i` is the one registered for the descriptor. -/
def Holds (l : EventLoop) (fd : ℤ) (i : ℕ) : Prop := ∃ h, l.handlers.lookup fd = some (i, h)

variable {l : EventLoop} {fd fd' : ℤ} {i : ℕ} {c : Connection}

theorem Open.insert (h : l.Open) {k : Handler} (hk : ∀ c, k = .connection c → c.closed = false) :
    Open { l with handlers := l.handlers.insert fd (i, k) } := by
  intro fd' j c hl
  rw [show (AList.insert fd (i, k) l.handlers).lookup fd' = _ from
    AList.lookup_insert_if _ _ _ _] at hl
  split_ifs at hl
  · simp only [Option.some.injEq, Prod.mk.injEq] at hl
    exact hk c hl.2
  · exact h fd' j c hl

theorem Open.unregister (h : l.Open) (fd : ℤ) : (l.unregister fd).Open := by
  intro fd' j c hl
  rw [show (l.unregister fd).handlers.lookup fd' = _ from AList.lookup_erase_if _ _ _] at hl
  split_ifs at hl
  exact h fd' j c hl

theorem Open.register (h : l.Open) {k : Handler} (hk : ∀ c, k = .connection c → c.closed = false) :
    (l.register fd k).Open := by
  unfold EventLoop.register
  split_ifs
  · exact h
  · exact h.insert (i := l.nextId) hk

theorem Open.settle (h : l.Open) : (l.settle fd i c).Open := by
  unfold EventLoop.settle
  split_ifs with hc
  · exact h.unregister fd
  · exact h.insert fun c' he => by
      cases he
      simpa using hc

theorem Open.sendOn (h : l.Open) (data : List UInt8) (r : Sent) : (l.sendOn fd data r).Open := by
  unfold EventLoop.sendOn
  split
  · exact h.settle
  · exact h

theorem Open.acceptLoop : ∀ (as : List Accept) {l : EventLoop}, l.Open → (l.acceptLoop as).Open
  | [], _, h => h
  | .fd fd :: as, l, h => by
    have hr : (l.register fd (.connection {})).Open := h.register fun c he => by cases he; rfl
    unfold EventLoop.acceptLoop
    simp only []
    split_ifs
    · exact hr
    · exact Open.acceptLoop as hr
  | .error .intr :: as, _, h => by
    unfold EventLoop.acceptLoop
    exact Open.acceptLoop as h
  | .error .again :: _, _, h => h
  | .error .other :: _, _, h => h

theorem Open.replies : ∀ (rs : List (ℤ × List UInt8 × Sent)) {l : EventLoop}, l.Open →
    (rs.foldl (fun l r => l.sendOn r.1 r.2.1 r.2.2) l).Open
  | [], _, h => h
  | r :: rs, _, h => Open.replies rs (h.sendOn r.2.1 r.2.2)

theorem Open.runCallbacks : ∀ (cbs : List Callback) {l : EventLoop}, l.Open →
    (l.runCallbacks cbs).Open
  | [], _, h => h
  | cb :: cbs, l, h => by
    unfold EventLoop.runCallbacks
    split_ifs
    · exact h
    refine Open.runCallbacks cbs ?_
    rcases cb with ⟨fd, data, r⟩ | fd | fd | fd
    · exact h.sendOn data r
    · exact h.register fun c he => by cases he
    · exact h.register fun c he => by cases he; rfl
    · exact h.unregister fd

theorem Open.call (h : l.Open) (k : Handler) (m : Method) (e : Event) :
    (l.call fd i k m e).Open := by
  rcases k with _ | c <;> rcases m with _ | _ | _ <;> unfold EventLoop.call
  · exact Open.acceptLoop _ h
  · exact h
  · exact h
  · simp only []
    split_ifs
    · exact h.settle
    · exact Open.replies _ h.settle
  · exact h.settle
  · exact h.settle

theorem Open.invoke (h : l.Open) (m : Method) (e : Event) : (l.invoke fd i m e).1.Open := by
  unfold EventLoop.invoke
  split
  · split_ifs
    · exact h.call _ m e
    · exact h
  · exact h

theorem Open.dispatch (h : l.Open) (e : Event) : (l.dispatch e).1.Open := by
  unfold EventLoop.dispatch
  by_cases hw : e.fd = l.wakeupFd
  · rw [if_pos hw]
    exact Open.runCallbacks _ h
  rw [if_neg hw]
  rcases l.handlers.lookup e.fd with _ | ⟨i, k⟩
  · exact h
  simp only []
  split_ifs <;> first | exact h | exact h.invoke _ _ | exact (h.invoke _ _).invoke _ _

theorem open_start (w : ℤ) (setup : List Callback) : (start w setup).Open :=
  Open.runCallbacks setup fun fd i c h => by
    rw [show (∅ : Table ℤ (ℕ × Handler)).lookup fd = none from AList.lookup_empty fd] at h
    cases h

theorem register_lookup (h : l.Holds fd i) {k : Handler} : (l.register fd' k).Holds fd i := by
  obtain ⟨k', hk⟩ := h
  unfold EventLoop.register
  split_ifs with hin
  · exact ⟨k', hk⟩
  · refine ⟨k', ?_⟩
    have hne : fd ≠ fd' := by
      rintro rfl
      rw [not_or, ← AList.lookup_eq_none] at hin
      rw [hin.2] at hk
      cases hk
    show (AList.insert fd' (l.nextId, k) l.handlers).lookup fd = some (i, k')
    rw [AList.lookup_insert_if, if_neg hne]
    exact hk

theorem Holds.acceptLoop : ∀ (as : List Accept) {l : EventLoop}, l.Holds fd i →
    (l.acceptLoop as).Holds fd i
  | [], _, h => h
  | .fd fd' :: as, l, h => by
    unfold EventLoop.acceptLoop
    simp only []
    split_ifs
    · exact register_lookup h
    · exact Holds.acceptLoop as (register_lookup h)
  | .error .intr :: as, _, h => by
    unfold EventLoop.acceptLoop
    exact Holds.acceptLoop as h
  | .error .again :: _, _, h => h
  | .error .other :: _, _, h => h

theorem settle_holds (hc : c.closed = false) : (l.settle fd i c).Holds fd i := by
  unfold EventLoop.settle
  rw [if_neg (by simp [hc])]
  exact ⟨_, AList.lookup_insert _⟩

theorem Holds.sendOn (ho : l.Open) (h : l.Holds fd i) (data : List UInt8) (r : Sent) :
    (l.sendOn fd' data r).Holds fd i := by
  unfold EventLoop.sendOn
  split
  · rename_i j c hl
    have hc := Connection.send_open (ho fd' j c hl) data r
    by_cases hfd : fd = fd'
    · subst hfd
      obtain ⟨k, hk⟩ := h
      rw [hk, Option.some.injEq, Prod.mk.injEq] at hl
      rw [← hl.1]
      exact settle_holds hc
    · unfold EventLoop.settle
      rw [if_neg (by simp [hc])]
      obtain ⟨k, hk⟩ := h
      exact ⟨k, by rw [← hk]; exact AList.lookup_insert_ne hfd⟩
  · exact h

theorem Holds.replies : ∀ (rs : List (ℤ × List UInt8 × Sent)) {l : EventLoop}, l.Open →
    l.Holds fd i → (rs.foldl (fun l r => l.sendOn r.1 r.2.1 r.2.2) l).Holds fd i
  | [], _, _, h => h
  | r :: rs, _, ho, h => Holds.replies rs (ho.sendOn r.2.1 r.2.2) (h.sendOn ho r.2.1 r.2.2)

variable {k : Handler} {m : Method} {e : Event}

theorem invoke_live (h : l.handlers.lookup fd = some (i, k)) :
    l.invoke fd i m e = (l.call fd i k m e, [⟨fd, i, m, true⟩]) := by
  unfold invoke
  rw [h]
  simp

theorem invoke_dead (h : l.handlers.lookup fd = none) :
    l.invoke fd i m e = (l, [⟨fd, i, m, false⟩]) := by
  unfold invoke
  rw [h]

/-- `OnRead` keeps its handler registered unless it is a connection whose `recv` meets an end. -/
theorem onRead_holds (ho : l.Open) (h : l.handlers.lookup fd = some (i, k))
    (hk : ∀ c, k = .connection c → ends e.recvs = false) :
    (l.call fd i k .onRead e).Holds fd i := by
  rcases k with _ | c
  · exact Holds.acceptLoop _ ⟨_, h⟩
  · have hc : (c.onRead e.recvs).closed = false := by
      rw [Connection.onRead_open (hk c rfl)]
      exact ho fd i c h
    unfold EventLoop.call
    simp only [hc, Bool.false_eq_true, ↓reduceIte]
    exact Holds.replies _ ho.settle (settle_holds hc)

theorem onRead_gone (he : ends e.recvs = true) :
    l.call fd i (.connection c) .onRead e = l.unregister fd := by
  have hc := Connection.onRead_ends (c := c) he
  unfold EventLoop.call EventLoop.settle
  simp only [hc, ↓reduceIte]

/-- With no race every call of the event finds its handler registered. -/
theorem dispatch_live (ho : l.Open) (hr : ¬ l.Races e) : ∀ v ∈ (l.dispatch e).2, v.live = true := by
  unfold dispatch
  by_cases hw : e.fd = l.wakeupFd
  · rw [if_pos hw]
    simp
  rw [if_neg hw]
  rcases hl : l.handlers.lookup e.fd with _ | ⟨i, k⟩
  · simp
  simp only []
  by_cases hx : e.events &&& (EPOLLERR ||| EPOLLHUP ||| EPOLLRDHUP) = 0
  swap
  · rw [if_pos hx, invoke_live hl]
    simp
  rw [if_neg (not_not.2 hx)]
  by_cases hin : e.events &&& EPOLLIN = 0
  · rw [if_neg (not_not.2 hin)]
    split_ifs <;> simp [invoke_live hl]
  rw [if_pos hin, invoke_live hl]
  split_ifs with _ hout
  · simp
  · obtain ⟨k', hk'⟩ : (l.call e.fd i k .onRead e).Holds e.fd i := by
      refine onRead_holds ho hl fun c hc => ?_
      subst hc
      by_contra hends
      exact hr ⟨hw, ⟨i, c, hl⟩, hx, hin, hout, by simpa using hends⟩
    rw [invoke_live hk']
    simp
  · simp

/-- A race makes `Run` call `OnWrite` on a handler that is gone. -/
theorem dispatch_dead (ht : l.threw = false) (hr : l.Races e) :
    ∃ v ∈ (l.dispatch e).2, v.live = false := by
  obtain ⟨hw, ⟨i, c, hl⟩, hx, hin, hout, hends⟩ := hr
  have hgone : (l.unregister e.fd).handlers.lookup e.fd = none := AList.lookup_erase _ _
  refine ⟨⟨e.fd, i, .onWrite, false⟩, ?_, rfl⟩
  unfold dispatch
  rw [if_neg hw, hl]
  simp only []
  rw [if_neg (not_not.2 hx), if_pos hin, invoke_live hl, onRead_gone hends]
  have hnt : ¬ (l.unregister e.fd).threw = true := by
    rw [show (l.unregister e.fd).threw = l.threw from rfl, ht]
    simp
  simp only []
  rw [if_neg hnt, if_pos hout, invoke_dead hgone]
  simp

theorem runEvents_live : ∀ (es : List Event) {l : EventLoop}, l.Open →
    ((∀ v ∈ (l.runEvents es).2, v.live = true) ↔ l.Quiet es)
  | [], l, _ => by simp [runEvents, Quiet]
  | e :: es, l, ho => by
    unfold runEvents Quiet
    rcases ht : l.threw with _ | _
    · have ih := runEvents_live es (ho.dispatch e)
      simp only [Bool.false_eq_true, ↓reduceIte, List.forall_mem_append, false_or]
      constructor
      · rintro ⟨h, hs⟩
        refine ⟨fun hr => ?_, ih.1 hs⟩
        obtain ⟨v, hv, hd⟩ := dispatch_dead ht hr
        rw [h v hv] at hd
        cases hd
      · rintro ⟨hr, hq⟩
        exact ⟨dispatch_live ho hr, ih.2 hq⟩
    · simp

/-- Whatever is registered before `Run` and whatever batches `epoll_wait` returns, `Run` calls
handlers that are registered, exactly when no event races in the state it is handled in. -/
theorem live_iff_quiet (wakeupFd : ℤ) (setup : List Callback) (batches : List (List Event)) :
    (∀ v ∈ ((start wakeupFd setup).run batches).2, v.live = true)
      ↔ (start wakeupFd setup).Quiet batches.flatten :=
  runEvents_live batches.flatten (open_start wakeupFd setup)

/-- One connection, one event that says it can be read and written, and a peer that has closed. -/
theorem live_fails : ¬ ∀ v ∈ ((start 5 [.registerConnection 7]).run
    [[{ fd := 7, events := EPOLLIN ||| EPOLLOUT, recvs := [.bytes []] }]]).2, v.live = true := by
  decide

end EventLoop

end TinRpc.Rpc

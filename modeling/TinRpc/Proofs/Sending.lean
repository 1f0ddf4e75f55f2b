import TinRpc.Connection

/-!
# Sending

What the kernel has taken and the unsent part of the write buffer are, in order, the data passed to
`Send`. A direct `send` is made only when the buffer is empty, so nothing overtakes what waits
there; `OnWrite` moves bytes from the front of the unsent part to the kernel.
-/

namespace TinRpc.Rpc

namespace Connection

/-- The state of the write side after `data` has been passed to `Send`. -/
structure Delivers (c : Connection) (data : List UInt8) : Prop where
  bytes : c.accepted ++ c.unsent = data
  pending : c.writeBuffer ≠ [] → c.writeOffset < c.writeBuffer.length
  empty : c.writeBuffer = [] → c.writeOffset = 0
  ranges : ∀ r ∈ c.ranges, r.1 + r.2.1 ≤ r.2.2
  armed : c.closed = false → c.writeBuffer ≠ [] → c.events &&& EPOLLOUT ≠ 0

variable {c c' : Connection} {data d : List UInt8}

theorem delivers_new : ({} : Connection).Delivers [] where
  bytes := rfl
  pending h := absurd rfl h
  empty _ := rfl
  ranges _ h := absurd h List.not_mem_nil
  armed _ h := absurd rfl h

theorem Delivers.onClose (h : c.Delivers data) : c.onClose.Delivers data where
  bytes := h.bytes
  pending := h.pending
  empty := h.empty
  ranges := h.ranges
  armed hc := absurd hc (by simp [Connection.onClose])

theorem unsent_nil (h : c.writeBuffer = []) : c.unsent = [] := by
  unfold unsent
  rw [h, List.drop_nil]

theorem Delivers.unsent_append (h : c.Delivers data) (d : List UInt8) :
    (c.writeBuffer ++ d).drop c.writeOffset = c.unsent ++ d := by
  unfold unsent
  rcases hb : c.writeBuffer with _ | ⟨x, b⟩
  · rw [h.empty hb]
    rfl
  · have := h.pending (by simp [hb])
    rw [← hb]
    exact List.drop_append_of_le_length (by omega)

/-- Data that waits goes to the end of the write buffer, and the loop is asked for `EPOLLOUT`. -/
theorem Delivers.enqueue (h : c.Delivers data) (d : List UInt8) :
    ({ c with writeBuffer := c.writeBuffer ++ d }.updateEvents
      (EPOLLIN ||| EPOLLRDHUP ||| EPOLLOUT ||| EPOLLET)).Delivers (data ++ d) where
  bytes := by
    show c.accepted ++ (c.writeBuffer ++ d).drop c.writeOffset = data ++ d
    rw [h.unsent_append, ← List.append_assoc, h.bytes]
  pending hne := by
    show c.writeOffset < (c.writeBuffer ++ d).length
    have hne : c.writeBuffer ++ d ≠ [] := hne
    rw [List.length_append]
    by_cases hb : c.writeBuffer = []
    · rw [hb, List.nil_append] at hne
      have := List.length_pos_of_ne_nil hne
      have := h.empty hb
      omega
    · have := h.pending hb
      omega
  empty hnil := h.empty (List.append_eq_nil_iff.1 hnil).1
  ranges := h.ranges
  armed _ _ := by
    show (EPOLLIN ||| EPOLLRDHUP ||| EPOLLOUT ||| EPOLLET) &&& EPOLLOUT ≠ 0
    decide

/-- The kernel takes the front of what `Send` was given, the buffer being empty. -/
theorem Delivers.direct (h : c.Delivers data) (hb : c.writeBuffer = []) (n : ℕ) :
    ({ c with accepted := c.accepted ++ d.take n }).Delivers (data ++ d.take n) where
  bytes := by
    have hd := h.bytes
    rw [unsent_nil hb, List.append_nil] at hd
    show (c.accepted ++ d.take n) ++ c.unsent = data ++ d.take n
    rw [unsent_nil hb, List.append_nil, hd]
  pending := h.pending
  empty := h.empty
  ranges := h.ranges
  armed := h.armed

theorem Delivers.send (h : c.Delivers data) (d : List UInt8) (r : Sent) :
    (c.send d r).Delivers (data ++ d) := by
  unfold Connection.send
  split_ifs with hb
  · rcases r with k | e
    · simp only []
      have hdir := h.direct (d := d) hb (min k d.length)
      split_ifs with hall hpos
      · rw [hall, List.take_length] at hdir
        rw [hall, List.take_length]
        exact hdir
      · have := hdir.enqueue (d.drop (min k d.length))
        rwa [List.append_assoc, List.take_append_drop] at this
      · rw [show min k d.length = 0 by omega, List.take_zero, List.append_nil]
        exact h.enqueue d
    · exact h.enqueue d
  · exact h.enqueue d

/-- The kernel takes `n` bytes from the front of the unsent part. -/
theorem Delivers.progress (h : c.Delivers data) {n : ℕ} (hb : c.writeBuffer ≠ [])
    (hn : c.writeOffset + n < c.writeBuffer.length) :
    ({ c with
        accepted := c.accepted ++ (c.writeBuffer.drop c.writeOffset).take n
        writeOffset := c.writeOffset + n }).Delivers data where
  bytes := by
    show (c.accepted ++ (c.writeBuffer.drop c.writeOffset).take n)
      ++ c.writeBuffer.drop (c.writeOffset + n) = data
    rw [← List.drop_drop, List.append_assoc, List.take_append_drop]
    exact h.bytes
  pending _ := hn
  empty hnil := absurd hnil hb
  ranges := h.ranges
  armed := h.armed

/-- The kernel takes all of the unsent part. -/
theorem Delivers.finish (h : c.Delivers data) {n : ℕ}
    (hn : c.writeBuffer.length - c.writeOffset ≤ n) :
    ({ c with
        accepted := c.accepted ++ (c.writeBuffer.drop c.writeOffset).take n
        writeBuffer := []
        writeOffset := 0 }.updateEvents (EPOLLIN ||| EPOLLRDHUP ||| EPOLLET)).Delivers data where
  bytes := by
    show (c.accepted ++ (c.writeBuffer.drop c.writeOffset).take n) ++ List.drop 0 [] = data
    rw [List.take_of_length_le (by rw [List.length_drop]; omega), List.drop_nil, List.append_nil]
    exact h.bytes
  pending hb := absurd rfl hb
  empty _ := rfl
  ranges := h.ranges
  armed _ hb := absurd rfl hb

theorem Delivers.range (h : c.Delivers data) (hb : c.writeBuffer ≠ []) :
    ({ c with ranges := c.ranges
        ++ [(c.writeOffset, c.writeBuffer.length - c.writeOffset, c.writeBuffer.length)] }).Delivers
      data where
  bytes := h.bytes
  pending := h.pending
  empty := h.empty
  ranges r hr := by
    have := h.pending hb
    rcases List.mem_append.1 hr with hr | hr
    · exact h.ranges r hr
    · rw [List.mem_singleton.1 hr]
      show c.writeOffset + (c.writeBuffer.length - c.writeOffset) ≤ c.writeBuffer.length
      omega
  armed := h.armed

theorem Delivers.onWrite : ∀ (rs : List Sent) {c : Connection}, c.Delivers data →
    (c.onWrite rs).Delivers data
  | [], _, h => h
  | r :: rs, c, h => by
    unfold Connection.onWrite
    split_ifs with hb
    · exact h
    have hr := h.range hb
    have hp := h.pending hb
    rcases r with k | _ | _ | _
    · simp only []
      split_ifs with hpos hend
      · exact hr.finish (show c.writeBuffer.length - c.writeOffset ≤ _ by omega)
      · exact Delivers.onWrite rs (hr.progress hb
          (show c.writeOffset + _ < c.writeBuffer.length by omega))
      · exact hr.onClose
    · exact hr
    · exact hr.onClose
    · exact hr.onClose

theorem Delivers.recvLoop : ∀ (rs : List Recv) {c : Connection}, c.Delivers data →
    (c.recvLoop rs).1.Delivers data
  | [], _, h => h
  | .bytes [] :: _, _, h => h.onClose
  | .bytes (x :: bs) :: rs, c, h => by
    unfold Connection.recvLoop
    exact Delivers.recvLoop rs ⟨h.bytes, h.pending, h.empty, h.ranges, h.armed⟩
  | .error .again :: _, _, h => h
  | .error .intr :: rs, _, h => by
    unfold Connection.recvLoop
    exact Delivers.recvLoop rs h
  | .error .other :: _, _, h => h.onClose

theorem Delivers.frameLoop : ∀ (n : ℕ) {c : Connection}, c.Delivers data →
    (c.frameLoop n).Delivers data
  | 0, _, h => h
  | n + 1, c, h => by
    unfold Connection.frameLoop
    rcases c.readBuffer.tryPopFrame with _ | ⟨frameBytes, rest⟩
    · exact h
    · exact Delivers.frameLoop n ⟨h.bytes, h.pending, h.empty, h.ranges, h.armed⟩

theorem Delivers.onRead (h : c.Delivers data) (rs : List Recv) : (c.onRead rs).Delivers data := by
  unfold Connection.onRead
  simp only []
  split_ifs
  · exact Delivers.frameLoop _ (Delivers.recvLoop rs h)
  · exact Delivers.recvLoop rs h

theorem Delivers.step {call : Call} (h : c.Delivers data) (hs : c.step call = some c') :
    c'.Delivers (data ++ call.data) := by
  unfold Connection.step at hs
  split_ifs at hs
  rcases call with ⟨d, r⟩ | rs | rs | _ <;> simp only [Option.some.injEq] at hs <;> subst hs
  · exact h.send d r
  · simpa [Call.data] using Delivers.onWrite rs h
  · simpa [Call.data] using h.onRead rs
  · simpa [Call.data] using h.onClose

theorem Delivers.run : ∀ (calls : List Call) {c c' : Connection} {data : List UInt8},
    c.Delivers data → calls.foldlM Connection.step c = some c' →
    c'.Delivers (data ++ calls.flatMap Call.data)
  | [], c, c', data, h, hr => by
    simp only [List.foldlM_nil, Option.pure_def, Option.some.injEq] at hr
    subst hr
    simpa using h
  | call :: calls, c, c', data, h, hr => by
    rw [List.foldlM_cons, Option.bind_eq_bind, Option.bind_eq_some_iff] at hr
    obtain ⟨c₁, h₁, h₂⟩ := hr
    have := Delivers.run calls (h.step h₁) h₂
    rwa [List.append_assoc] at this

theorem send_open (hc : c.closed = false) (d : List UInt8) (r : Sent) :
    (c.send d r).closed = false := by
  unfold send
  split_ifs
  · rcases r with k | e
    · simp only []
      split_ifs <;> exact hc
    · exact hc
  · exact hc

/-- `OnWrite` closes only on an error, and on a `send` that takes nothing. -/
theorem onWrite_open : ∀ (rs : List Sent) {c : Connection}, c.Delivers data → c.closed = false →
    (∀ r ∈ rs, r = .error .again ∨ ∃ k, r = .bytes (k + 1)) → (c.onWrite rs).closed = false
  | [], _, _, hc, _ => hc
  | r :: rs, c, h, hc, hrs => by
    unfold onWrite
    split_ifs with hb
    · exact hc
    have hr := h.range hb
    have hp := h.pending hb
    obtain ⟨hfst, htl⟩ := List.forall_mem_cons.1 hrs
    rcases hfst with rfl | ⟨k, rfl⟩
    · exact hc
    · simp only []
      split_ifs with hpos hend
      · exact hc
      · exact onWrite_open rs (hr.progress hb
          (show c.writeOffset + _ < c.writeBuffer.length by omega)) hc htl
      · omega

theorem run_open : ∀ (calls : List Call) {c : Connection} {data : List UInt8}, c.Delivers data →
    c.closed = false → (∀ call ∈ calls, call.Sends) →
    ∃ c', calls.foldlM step c = some c' ∧ c'.closed = false
  | [], c, _, _, hc, _ => ⟨c, rfl, hc⟩
  | call :: calls, c, data, h, hc, hs => by
    obtain ⟨hcall, hs⟩ := List.forall_mem_cons.1 hs
    obtain ⟨c₁, h₁, hc₁⟩ : ∃ c₁, c.step call = some c₁ ∧ c₁.closed = false := by
      unfold Connection.step
      rcases call with ⟨d, r⟩ | rs | rs | _
      · exact ⟨_, by simp [hc], send_open hc d r⟩
      · exact ⟨_, by simp [hc], onWrite_open rs h hc hcall⟩
      · exact hcall.elim
      · exact hcall.elim
    obtain ⟨c', h', hc'⟩ := run_open calls (h.step h₁) hc₁ hs
    refine ⟨c', ?_, hc'⟩
    rw [List.foldlM_cons, h₁]
    exact h'

/-- After any calls on a connection the bytes the kernel has taken and then the unsent ones are the
data passed to `Send`; `OnWrite` gave the kernel parts of the write buffer only; and `EPOLLOUT` is
asked for while bytes wait. Calls of `Send` and `OnWrite` alone keep the connection open, whatever
part of the bytes the kernel takes each time. -/
theorem ordered_sending (calls : List Call) :
    (∀ c, run calls = some c →
      c.accepted ++ c.unsent = calls.flatMap Call.data
        ∧ (∀ r ∈ c.ranges, r.1 + r.2.1 ≤ r.2.2)
        ∧ (c.closed = false → c.unsent ≠ [] → c.events &&& EPOLLOUT ≠ 0))
      ∧ ((∀ call ∈ calls, call.Sends) → ∃ c, run calls = some c ∧ c.closed = false) := by
  refine ⟨fun c h => ?_, fun h => run_open calls delivers_new rfl h⟩
  have hd := Delivers.run calls delivers_new h
  rw [List.nil_append] at hd
  exact ⟨hd.bytes, hd.ranges, fun hc hu => hd.armed hc fun hb => hu (unsent_nil hb)⟩

/-- A `Send` of which the kernel takes one byte, a second behind it, and two events. -/
theorem ordered_sending_partial :
    ∃ c, run [.send [1, 2, 3] (.bytes 1), .send [4] (.error .again),
        .onWrite [.bytes 1, .error .again], .onWrite [.bytes 9]] = some c
      ∧ c.accepted ++ c.unsent = [1, 2, 3, 4] :=
  ⟨_, rfl, ((ordered_sending [.send [1, 2, 3] (.bytes 1), .send [4] (.error .again),
    .onWrite [.bytes 1, .error .again], .onWrite [.bytes 9]]).1 _ rfl).1⟩

end Connection

end TinRpc.Rpc

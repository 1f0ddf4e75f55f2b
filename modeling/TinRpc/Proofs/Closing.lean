import TinRpc.Channel
import TinRpc.Lib.Reach
import TinRpc.Proofs.Deframing
import TinRpc.Proofs.Sending

/-!
# What is served before a close

A connection is closed as soon as the loop sees the hang-up or `recv` returns zero, without a look
at what has arrived since the last complete `OnRead`. So the frames handed to the callback are those
the peer sent just where, at that moment, nothing is left that begins with a complete frame
(`served_before_close`).
-/

namespace TinRpc.Rpc

open Transition

namespace Connection

variable {c : Connection} {a : List UInt8}

theorem recvLoop_handled : ∀ (rs : List Recv) (c : Connection),
    (c.recvLoop rs).1.handled = c.handled
  | [], _ => rfl
  | .bytes [] :: _, _ => rfl
  | .bytes (x :: data) :: rs, c => by
    unfold recvLoop
    exact recvLoop_handled rs _
  | .error .again :: _, _ => rfl
  | .error .intr :: rs, c => by
    unfold recvLoop
    exact recvLoop_handled rs c
  | .error .other :: _, _ => rfl

/-- A drain that meets the peer's close hands nothing to the callback. -/
theorem onRead_handled {rs : List Recv} (h : ends rs = true) :
    (c.onRead rs).handled = c.handled := by
  unfold onRead
  simp only [(recvLoop_ends rs c h).1, Bool.false_eq_true, ↓reduceIte, recvLoop_handled]

theorem send_read (c : Connection) (data : List UInt8) (r : Sent) :
    (c.send data r).handled = c.handled ∧ (c.send data r).readBuffer = c.readBuffer := by
  unfold send
  split_ifs
  · rcases r with k | e
    · simp only []
      split_ifs <;> exact ⟨rfl, rfl⟩
    · exact ⟨rfl, rfl⟩
  · exact ⟨rfl, rfl⟩

theorem onWrite_read : ∀ (rs : List Sent) (c : Connection),
    (c.onWrite rs).handled = c.handled ∧ (c.onWrite rs).readBuffer = c.readBuffer
  | [], _ => ⟨rfl, rfl⟩
  | r :: rs, c => by
    unfold onWrite
    split_ifs
    · exact ⟨rfl, rfl⟩
    · rcases r with k | _ | _ | _
      · simp only []
        split_ifs
        · exact ⟨rfl, rfl⟩
        · exact onWrite_read rs _
        · exact ⟨rfl, rfl⟩
      · exact ⟨rfl, rfl⟩
      · exact ⟨rfl, rfl⟩
      · exact ⟨rfl, rfl⟩

end Connection

/-- The frames of a stream whose last byte is among its first `n` bytes. -/
def completeFrames : List Frame → ℕ → List Frame
  | [], _ => []
  | f :: fs, n =>
    if f.encode.length ≤ n then f :: completeFrames fs (n - f.encode.length) else []

theorem completeFrames_sublist : ∀ (fs : List Frame) (n : ℕ), (completeFrames fs n).Sublist fs
  | [], _ => .slnil
  | f :: fs, n => by
    rw [completeFrames]
    split_ifs
    · exact (completeFrames_sublist fs _).cons_cons f
    · exact List.nil_sublist _

theorem drain_complete : ∀ {fs : List Frame} {sent : List UInt8}, (∀ f ∈ fs, f.Legal) →
    sent <+: (fs.map Frame.encode).flatten →
    (deframer.drain sent).1 = (completeFrames fs sent.length).map Frame.encode
  | [], sent, _, hsent => by
    rw [List.prefix_nil.1 hsent, Deframer.drain_none Deframer.cut_nil]
    rfl
  | f :: fs, sent, hfs, hsent => by
    obtain ⟨hf, hfs⟩ := List.forall_mem_cons.1 hfs
    rw [List.map_cons, List.flatten_cons] at hsent
    rw [completeFrames]
    split_ifs with hlong
    · obtain ⟨rest, rfl⟩ := List.prefix_of_prefix_length_le (List.prefix_append _ _) hsent hlong
      rw [Deframer.drain_some (Deframer.cut_block (D := deframer) hf.isBlock), List.map_cons,
        List.length_append, Nat.add_sub_cancel_left,
        drain_complete hfs ((List.prefix_append_right_inj _).1 hsent)]
    · have hstart : sent <+: f.encode :=
        List.prefix_of_prefix_length_le hsent (List.prefix_append _ _) (by omega)
      have hne : sent ≠ f.encode := fun h => hlong (h ▸ Nat.le_refl _)
      rw [Deframer.drain_none (Deframer.cut_prefix (D := deframer) hf.isBlock hstart hne)]
      rfl

theorem decode_complete {fs : List Frame} {sent : List UInt8} (hfs : ∀ f ∈ fs, f.Legal)
    (hsent : sent <+: (fs.map Frame.encode).flatten) :
    (deframer.drain sent).1.map ProtocolFrame.decode =
      (completeFrames fs sent.length).map some := by
  rw [drain_complete hfs hsent, List.map_map]
  refine List.map_congr_left fun f hf => decode_encode (hfs f ?_)
  exact (completeFrames_sublist fs _).subset hf

namespace Channel

/-- The frames handed to the callback of a connection that is closed are those the peer sent. -/
def Served (fs : List Frame) (s : Channel) : Prop :=
  s.conn.closed = true → s.conn.handled = (completeFrames fs s.sent.length).map some

instance (fs : List Frame) (s : Channel) : Decidable (s.Served fs) :=
  inferInstanceAs (Decidable (_ → _))

/-- Nothing that begins with a complete frame is left when the peer's close is noticed. -/
def CaughtUp (s : Channel) : Event → Prop
  | .ready _ _ => s.fin = true → s.pending.tryPopFrame = none
  | .drained _ => s.fin = true → s.pending.tryPopFrame = none
  | _ => True

instance (s : Channel) (e : Event) : Decidable (CaughtUp s e) :=
  match e with
  | .ready _ _ | .drained _ =>
    inferInstanceAs (Decidable (s.fin = true → s.pending.tryPopFrame = none))
  | .peerSend _ | .peerClose | .recv _ | .interrupted | .send _ _ => .isTrue trivial

/-- What an `OnRead` that goes on has got from `recv`. -/
def GoesOn (recvs : List Recv) : Prop :=
  ∀ r ∈ recvs, r = .error .intr ∨ ∃ data, data ≠ [] ∧ r = .bytes data

/-- The connection is open and has served what came before, and what `recv` has returned since and
what it has not returned follow. -/
structure Running (s : Channel) (served : List UInt8) : Prop where
  reads : s.conn.Reads served
  writes : ∃ data, s.conn.Delivers data
  sent : s.sent = served ++ (s.got ++ s.unread)
  reading : ∀ r ∈ s.reading, r.1 &&& (EPOLLERR ||| EPOLLHUP ||| EPOLLRDHUP) = 0 ∧
    r.1 &&& EPOLLIN ≠ 0 ∧ GoesOn r.2

/-- The connection is closed, and the peer's side before it. -/
structure Ended (s : Channel) (served : List UInt8) : Prop where
  closed : s.conn.closed = true
  fin : s.fin = true
  idle : s.reading = none
  handled : s.conn.handled = (deframer.drain served).1.map ProtocolFrame.decode
  before : served <+: s.sent

variable {s s' : Channel} {e : Event} {served : List UInt8}

theorem received_append : ∀ {rs : List Recv} (xs : List Recv), GoesOn rs →
    received (rs ++ xs) = received rs ++ received xs ∧ ends (rs ++ xs) = ends xs
  | [], _, _ => ⟨rfl, rfl⟩
  | r :: rs, xs, h => by
    obtain ⟨hr, hrs⟩ := List.forall_mem_cons.1 h
    obtain ⟨hreceived, hends⟩ := received_append xs hrs
    rcases hr with rfl | ⟨_ | ⟨x, data⟩, hne, rfl⟩
    · exact ⟨hreceived, hends⟩
    · exact absurd rfl hne
    · refine ⟨?_, hends⟩
      rw [List.cons_append, received, hreceived, received, List.append_assoc]

theorem received_bytes {data : List UInt8} (h : data ≠ []) : received [.bytes data] = data := by
  obtain ⟨x, data, rfl⟩ := List.exists_cons_of_ne_nil h
  simp [received]

theorem onEvent_open {c : Connection} {events : UInt32} {recvs : List Recv} {sends : List Sent}
    (hr : c.Reads served) (hw : ∃ data, c.Delivers data)
    (hhang : events &&& (EPOLLERR ||| EPOLLHUP ||| EPOLLRDHUP) = 0) (hends : ends recvs = false)
    (hsends : sends.all Sent.works = true) :
    (c.onEvent events recvs sends).Reads
        (served ++ if events &&& EPOLLIN ≠ 0 then received recvs else []) ∧
      ∃ data, (c.onEvent events recvs sends).Delivers data := by
  have hwrite : ∀ {c : Connection} {a : List UInt8}, c.Reads a → (∃ data, c.Delivers data) →
      (if events &&& EPOLLOUT ≠ 0 then c.onWrite sends else c).Reads a ∧
        ∃ data, (if events &&& EPOLLOUT ≠ 0 then c.onWrite sends else c).Delivers data := by
    intro c a hr ⟨data, hw⟩
    split_ifs
    · obtain ⟨hh, hb⟩ := c.onWrite_read sends
      have hworks : ∀ r ∈ sends, r = .error .again ∨ ∃ k, r = .bytes (k + 1) := by
        intro r hr
        have hworks := List.all_eq_true.1 hsends r hr
        rcases r with n | errno
        · exact .inr ⟨n - 1, by rw [Nat.sub_add_cancel (of_decide_eq_true hworks)]⟩
        · exact .inl (congrArg _ (of_decide_eq_true hworks))
      exact ⟨⟨Connection.onWrite_open sends hw hr.isOpen hworks, hh.trans hr.handled,
        (congrArg _ hb).trans hr.rest⟩, data, hw.onWrite sends⟩
    · exact ⟨hr, data, hw⟩
  unfold Connection.onEvent
  rw [if_neg (not_not.2 hhang)]
  by_cases hin : events &&& EPOLLIN ≠ 0
  · rw [if_pos hin, if_pos hin]
    obtain ⟨data, hw⟩ := hw
    have hread := hr.onRead hends
    simp only [hread.isOpen, Bool.false_eq_true, if_false]
    exact hwrite hread ⟨data, hw.onRead recvs⟩
  · rw [if_neg hin, if_neg hin, List.append_nil]
    simp only [hr.isOpen, Bool.false_eq_true, if_false]
    exact hwrite hr hw

theorem got_eq {r : UInt32 × List Recv} (h : s.reading = some r) : s.got = received r.2 := by
  unfold got
  rw [h]

theorem got_none (h : s.reading = none) : s.got = [] := by
  unfold got
  rw [h]

theorem Running.ready {events : UInt32} {sends : List Sent} (h : s.Running served)
    (he : step s (.ready events sends) = some s') :
    (s'.Running served ∧ s.fin = false) ∨
      s'.Ended served ∧ s'.sent = s.sent ∧ s.fin = true := by
  obtain ⟨hreads, hwrites, hsent, -⟩ := h
  simp only [step, Bool.or_eq_true, not_or, Bool.not_eq_true, Option.ite_none_left_eq_some] at he
  obtain ⟨⟨⟨⟨-, hidle⟩, hsends⟩, hhang⟩, he⟩ := he
  have hidle : s.reading = none := by simpa using hidle
  cases hfin : s.fin with
  | false =>
    have hhang : events &&& (EPOLLERR ||| EPOLLHUP ||| EPOLLRDHUP) = 0 := by
      simpa [hfin] using hhang
    refine .inl ⟨?_, rfl⟩
    rw [hfin] at he
    split_ifs at he with hin
    · obtain rfl := Option.some.inj he
      refine ⟨hreads, hwrites, ?_, ?_⟩
      · rw [hsent, got_none hidle]
        rfl
      · rintro r ⟨rfl⟩
        exact ⟨hhang, by simpa using hin, nofun⟩
    · obtain rfl := Option.some.inj he
      obtain ⟨hreads, hwrites⟩ := onEvent_open hreads hwrites hhang (rfl : ends [] = false)
        (by simpa using hsends)
      rw [if_neg (by simpa using hin), List.append_nil] at hreads
      exact ⟨hreads, hwrites, hsent, by rw [hidle]; exact nofun⟩
  | true =>
    have hhang : events &&& (EPOLLERR ||| EPOLLHUP ||| EPOLLRDHUP) ≠ 0 := by
      simpa [hfin] using hhang
    rw [hfin] at he
    simp only [Bool.not_true, Bool.false_and, Bool.false_eq_true, if_false] at he
    obtain rfl := Option.some.inj he
    have hclose : s.conn.onEvent events [] sends = s.conn.onClose := if_pos hhang
    refine .inr ⟨⟨by rw [hclose]; rfl, rfl, hidle, ?_, ?_⟩, rfl, rfl⟩
    · rw [hclose]
      exact hreads.handled
    · exact ⟨_, hsent.symm⟩

/-- In the loop of an `OnRead` `recv` returns something more, or is interrupted. -/
theorem Running.reads_on {events : UInt32} {recvs : List Recv} {r : Recv} {rest : List UInt8}
    (h : s.Running served) (hr : s.reading = some (events, recvs)) (hgoes : GoesOn [r])
    (hrest : received [r] ++ rest = s.unread) :
    Running { s with reading := some (events, recvs ++ [r]), unread := rest } served := by
  obtain ⟨hreads, hwrites, hsent, hreading⟩ := h
  obtain ⟨hhang, hin, hsofar⟩ := hreading _ hr
  refine ⟨hreads, hwrites, ?_, ?_⟩
  · show s.sent = served ++ (received (recvs ++ [r]) ++ rest)
    rw [hsent, got_eq hr, (received_append _ hsofar).1, List.append_assoc, hrest]
  · rintro r' ⟨rfl⟩
    exact ⟨hhang, hin, List.forall_mem_append.2 ⟨hsofar, hgoes⟩⟩

theorem Running.recv {n : ℕ} (h : s.Running served) (he : step s (.recv n) = some s') :
    s'.Running served := by
  simp only [step] at he
  rcases hr : s.reading with _ | ⟨events, recvs⟩
  · rw [hr] at he
    cases he
  · rw [hr] at he
    simp only [] at he
    split_ifs at he with hn
    obtain rfl := Option.some.inj he
    have hne : s.unread.take n ≠ [] := by
      intro hnil
      have hlength := congrArg List.length hnil
      rw [List.length_take, List.length_nil] at hlength
      omega
    refine h.reads_on hr (List.forall_mem_singleton.2 (.inr ⟨_, hne, rfl⟩)) ?_
    rw [received_bytes hne, List.take_append_drop]

theorem Running.interrupted (h : s.Running served) (he : step s .interrupted = some s') :
    s'.Running served := by
  simp only [step] at he
  rcases hr : s.reading with _ | ⟨events, recvs⟩
  · rw [hr] at he
    cases he
  · rw [hr] at he
    obtain rfl := Option.some.inj he
    exact h.reads_on hr (List.forall_mem_singleton.2 (.inl rfl)) rfl

theorem Running.drained {sends : List Sent} (h : s.Running served)
    (he : step s (.drained sends) = some s') :
    ((∃ served', s'.Running served') ∧ s.fin = false) ∨
      s'.Ended served ∧ s'.sent = s.sent ∧ s.fin = true := by
  obtain ⟨hreads, hwrites, hsent, hreading⟩ := h
  simp only [step] at he
  cases hr : s.reading with
  | none =>
    rw [hr] at he
    cases he
  | some r =>
    rw [hr] at he
    simp only [] at he
    obtain ⟨hhang, hin, hgoes⟩ := hreading r hr
    split_ifs at he with hn hfin
    · obtain rfl := Option.some.inj he
      have hends : ends (r.2 ++ [.bytes []]) = true := (received_append _ hgoes).2
      have hclosed := Connection.onRead_ends (c := s.conn) hends
      have hclose : s.conn.onEvent r.1 (r.2 ++ [.bytes []]) sends =
          s.conn.onRead (r.2 ++ [.bytes []]) := by
        unfold Connection.onEvent
        rw [if_neg (not_not.2 hhang), if_pos hin]
        simp only [hclosed, if_true]
      refine .inr ⟨⟨?_, hfin, rfl, ?_, ?_⟩, rfl, hfin⟩
      · show (s.conn.onEvent r.1 (r.2 ++ [.bytes []]) sends).closed = true
        rw [hclose, hclosed]
      · show (s.conn.onEvent r.1 (r.2 ++ [.bytes []]) sends).handled = _
        rw [hclose, Connection.onRead_handled hends]
        exact hreads.handled
      · exact ⟨_, hsent.symm⟩
    · obtain rfl := Option.some.inj he
      obtain ⟨hunread, hsends⟩ := not_or.1 hn
      have hend := received_append [.error .again] hgoes
      obtain ⟨hreads, hwrites⟩ := onEvent_open hreads hwrites hhang hend.2
        (Bool.not_eq_false _ ▸ hsends)
      rw [if_pos hin, hend.1, ← got_eq hr] at hreads
      refine .inl ⟨⟨_, hreads, hwrites, ?_, nofun⟩, Bool.not_eq_true _ ▸ hfin⟩
      rw [hsent, not_not.1 hunread]
      simp [received, got]

/-- An event of a connection that is open leaves it open, or it is one with which the loop notices
the peer's close. -/
theorem Running.step (h : s.Running served) (he : step s e = some s') :
    ((∃ served', s'.Running served') ∧ CaughtUp s e) ∨
      (s'.Ended served ∧ s'.sent = s.sent ∧
        (CaughtUp s e ↔ s.pending.tryPopFrame = none)) := by
  cases e with
  | peerSend data =>
    obtain ⟨hreads, hwrites, hsent, hreading⟩ := h
    simp only [Channel.step] at he
    split_ifs at he
    obtain rfl := Option.some.inj he
    refine .inl ⟨⟨served, hreads, hwrites, ?_, hreading⟩, trivial⟩
    show s.sent ++ data = served ++ (s.got ++ (s.unread ++ data))
    rw [hsent, List.append_assoc, List.append_assoc]
  | peerClose =>
    simp only [Channel.step] at he
    split_ifs at he
    obtain rfl := Option.some.inj he
    exact .inl ⟨⟨served, h.reads, h.writes, h.sent, h.reading⟩, trivial⟩
  | ready events sends =>
    rcases h.ready he with ⟨hrunning, hfin⟩ | ⟨hended, hsame, hfin⟩
    · exact .inl ⟨⟨served, hrunning⟩, fun hf => absurd hf (by rw [hfin]; decide)⟩
    · exact .inr ⟨hended, hsame, forall_prop_of_true hfin⟩
  | recv n => exact .inl ⟨⟨served, h.recv he⟩, trivial⟩
  | interrupted => exact .inl ⟨⟨served, h.interrupted he⟩, trivial⟩
  | drained sends =>
    rcases h.drained he with ⟨hrunning, hfin⟩ | ⟨hended, hsame, hfin⟩
    · exact .inl ⟨hrunning, fun hf => absurd hf (by rw [hfin]; decide)⟩
    · exact .inr ⟨hended, hsame, forall_prop_of_true hfin⟩
  | send data r =>
    obtain ⟨hreads, ⟨sent, hwrites⟩, hsent, hreading⟩ := h
    simp only [Channel.step] at he
    split_ifs at he
    obtain rfl := Option.some.inj he
    obtain ⟨hh, hb⟩ := s.conn.send_read data r
    exact .inl ⟨⟨served, ⟨Connection.send_open hreads.isOpen data r, hh.trans hreads.handled,
      (congrArg _ hb).trans hreads.rest⟩, ⟨_, hwrites.send data r⟩, hsent, hreading⟩, trivial⟩

theorem not_step_ended (h : s.Ended served) : step s e = none := by
  cases e <;> simp [step, h.closed, h.fin, h.idle]

theorem tracked {ok : Channel → Event → Prop} (h : Reach step ok {} s) :
    ∃ served, s.Running served ∨ s.Ended served := by
  refine h.invariant (P := fun s => ∃ served, s.Running served ∨ s.Ended served)
    ⟨[], .inl ⟨Connection.reads_new, ⟨[], Connection.delivers_new⟩, rfl, nofun⟩⟩ ?_
  rintro s e s' ⟨served, hrunning | hended⟩ - he
  · rcases hrunning.step he with ⟨⟨served', hrunning'⟩, -⟩ | ⟨hended', -⟩
    · exact ⟨served', .inl hrunning'⟩
    · exact ⟨served, .inr hended'⟩
  · rw [not_step_ended hended] at he
    cases he

/-- What is left holds no complete frame just where nothing more is cut off with it. -/
theorem Running.drain_iff (h : s.Running served) :
    (deframer.drain s.sent).1 = (deframer.drain served).1 ↔ s.pending.tryPopFrame = none := by
  have hcut : deframer.cut s.pending.buf = none ↔ s.pending.tryPopFrame = none :=
    Option.map_eq_none_iff
  have hpending : (deframer.drain served).2 ++ (s.got ++ s.unread) = s.pending.buf := by
    rw [← h.reads.rest]
    rfl
  rw [h.sent, Deframer.drain_append, hpending, List.append_right_eq_self, ← hcut]
  rcases hc : deframer.cut s.pending.buf with _ | ⟨f, r⟩
  · rw [Deframer.drain_none hc]
    exact iff_of_true rfl rfl
  · rw [Deframer.drain_some hc]
    exact iff_of_false (List.cons_ne_nil _ _) (Option.some_ne_none _)

variable {fs : List Frame}

/-- A connection that closes has served all just where nothing complete is left. -/
theorem Ended.served_iff (hfs : ∀ f ∈ fs, f.Legal) (h : s.Running served)
    (h' : s'.Ended served) (hsame : s'.sent = s.sent)
    (hsent : s'.sent <+: (fs.map Frame.encode).flatten) :
    s'.Served fs ↔ s.pending.tryPopFrame = none := by
  have hdecode := decode_complete hfs hsent
  rw [← h.drain_iff, Served, forall_prop_of_true h'.closed, h'.handled, ← hdecode, hsame]
  constructor
  · intro heq
    have hlength := congrArg List.length heq
    rw [List.length_map, List.length_map] at hlength
    exact ((Deframer.drain_prefix (hsame ▸ h'.before)).eq_of_length hlength).symm
  · intro heq
    rw [heq]

theorem served_step (hfs : ∀ f ∈ fs, f.Legal) {ok : Channel → Event → Prop}
    (h : Reach step ok {} s) (he : step s e = some s')
    (hsent : s'.sent <+: (fs.map Frame.encode).flatten) : s'.Served fs ↔ CaughtUp s e := by
  obtain ⟨served, hrunning | hended⟩ := tracked h
  · rcases hrunning.step he with ⟨⟨served', hrunning'⟩, hcaught⟩ | ⟨hended', hsame, hcaught⟩
    · refine iff_of_true (fun hclosed => ?_) hcaught
      rw [hrunning'.reads.isOpen] at hclosed
      cases hclosed
    · exact (hended'.served_iff hfs hrunning hsame hsent).trans hcaught.symm
  · rw [not_step_ended hended] at he
    cases he

/-- In a run in which nothing complete is left whenever the peer's close is noticed, the frames
handed to the callback before the connection is destroyed are the complete frames among the bytes
the peer sent; an event that leaves something behind ends that. -/
theorem served_before_close (hfs : ∀ f ∈ fs, f.Legal)
    (h : Reach step CaughtUp {} s) (hsent : s.sent <+: (fs.map Frame.encode).flatten) :
    s.Served fs ∧ ∀ e s', step s e = some s' → s'.sent <+: (fs.map Frame.encode).flatten →
      (s'.Served fs ↔ CaughtUp s e) := by
  refine ⟨?_, fun e s' he hsent' => served_step hfs h he hsent'⟩
  cases h with
  | start => exact nofun
  | next hrun hcaught he => exact (served_step hfs hrun he hsent).2 hcaught

/-- A request is answered, and then the peer closes. -/
theorem served_before_close_ping :
    let ping := Buffer.ping
    ∃ s : Channel, s.conn.closed = true ∧ s.conn.handled = [some ping] ∧ s.Served [ping] := by
  intro ping
  have hrun : (([.peerSend ping.encode, .ready EPOLLIN [], .recv ping.encode.length, .drained [],
      .peerClose, .ready (EPOLLIN ||| EPOLLRDHUP) []] : List Event).foldlM
        (fun s e => if CaughtUp s e then step s e else none) ({} : Channel)).map
          (fun s => (s.conn.closed, s.conn.handled, s.sent)) =
      some (true, [some ping], ping.encode) := by
    decide +kernel
  obtain ⟨s, hs, hlogs⟩ := Option.map_eq_some_iff.1 hrun
  obtain ⟨hclosed, hhandled, hsent⟩ : _ ∧ _ ∧ _ := by simpa only [Prod.mk.injEq] using hlogs
  have hping : ∀ f ∈ [ping], f.Legal := by decide
  have hserved := served_before_close hping (Reach.of_foldlM _ hs) (by rw [hsent]; decide)
  exact ⟨s, hclosed, hhandled, hserved.1⟩

/-- The hang-up is seen before the last frame is read. -/
theorem not_served_before_close : ¬ ∀ (fs : List Frame) (s : Channel), (∀ f ∈ fs, f.Legal) →
    Reach step anyEvent {} s → s.sent = (fs.map Frame.encode).flatten → s.Served fs := by
  intro h
  let ping := Buffer.ping
  have hrun : (([.peerSend ping.encode, .peerClose, .ready (EPOLLIN ||| EPOLLRDHUP) []] :
      List Event).foldlM (fun s e => if anyEvent s e then step s e else none) ({} : Channel)).map
        (fun s => (s.sent, decide (s.Served [ping]))) = some (ping.encode, false) := by
    decide +kernel
  obtain ⟨s, hs, hlogs⟩ := Option.map_eq_some_iff.1 hrun
  obtain ⟨hsent, hserved⟩ := Prod.mk.inj hlogs
  refine of_decide_eq_false hserved (h [ping] s (by decide) (Reach.of_foldlM _ hs) ?_)
  rw [hsent]
  rfl

/-- Or `recv` returns zero after it in the same `OnRead`. -/
example : (([.peerSend Buffer.ping.encode, .ready EPOLLIN [], .recv Buffer.ping.encode.length,
      .peerClose, .drained []] : List Event).foldlM step ({} : Channel)).map
        (fun s => decide (s.Served [Buffer.ping])) = some false := by
  decide +kernel

end Channel

end TinRpc.Rpc

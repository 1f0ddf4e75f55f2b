import TinRpc.Proofs.Sessions

/-!
# The worker's queue and what was posted

The queue is the end of everything posted, and a ticket says where its task was posted
(`positions_step`). So at a login's completion all that is still queued was posted after it.
-/

namespace TinRpc

variable {F D : Type}

namespace GameService

variable {s s' : GameService F D}

structure Positions (s : GameService F D) : Prop where
  suffix : ∃ done, s.log.posted = done ++ s.queue
  queued : ∀ i task t, s.queue[i]? = some task → task.ticket = some t →
    t.posted + s.queue.length = s.log.posted.length + i
  pending : ∀ callback ∈ s.callbacks,
    callback.ticket.posted + s.queue.length ≤ s.log.posted.length

/-- Tasks are posted, those with a ticket where it says. -/
theorem positions_posted {tasks : List (Task F)} (hs : Positions s)
    (hqueue : s'.queue = s.queue ++ tasks) (hposted : s'.log.posted = s.log.posted ++ tasks)
    (hcallbacks : s'.callbacks = s.callbacks)
    (htasks : ∀ i task t, tasks[i]? = some task → task.ticket = some t →
      t.posted = s.log.posted.length + i) : Positions s' := by
  refine ⟨?_, fun i task t hi ht => ?_, fun callback hcallback => ?_⟩
  · obtain ⟨done, hdone⟩ := hs.suffix
    exact ⟨done, by rw [hqueue, hposted, hdone, List.append_assoc]⟩
  · rw [hqueue] at hi
    rw [hqueue, hposted, List.length_append, List.length_append]
    rw [List.getElem?_append] at hi
    split_ifs at hi with hlt
    · have := hs.queued i task t hi ht
      omega
    · have := htasks _ task t hi ht
      omega
  · rw [hcallbacks] at hcallback
    rw [hqueue, hposted, List.length_append, List.length_append]
    have := hs.pending callback hcallback
    omega

/-- The head of the queue was posted where the queue begins. -/
theorem posted_head {task : Task F} {queue : List (Task F)} {t : Ticket} (hs : Positions s)
    (hq : s.queue = task :: queue) (ht : task.ticket = some t) :
    t.posted + s.queue.length = s.log.posted.length := by
  have := hs.queued 0 task t (by rw [hq]; rfl) ht
  omega

/-- What is queued when a callback runs was posted after its request. -/
theorem mem_posted {callback : Callback F} (hs : Positions s) (hcallback : callback ∈ s.callbacks)
    {task : Task F} (htask : task ∈ s.queue) :
    task ∈ s.log.posted.drop callback.ticket.posted := by
  obtain ⟨done, hdone⟩ := hs.suffix
  have hle := hs.pending callback hcallback
  rw [hdone, List.length_append] at hle
  rw [hdone, List.drop_append_of_le_length (by omega)]
  exact List.mem_append_right _ htask

theorem playerSave_ticket {w : WorldService F} {p : String} {i : ℕ} {task : Task F}
    (h : (playerSave w p)[i]? = some task) : task.ticket = none := by
  obtain ⟨st, -, rfl⟩ := mem_playerSave.1 (List.mem_of_getElem? h)
  rfl

theorem positions_removed {p : String} (hs : Positions s) (h : Removed s p s') : Positions s' := by
  refine positions_posted hs h.queue h.posted h.same.callbacks fun i task t hi ht => ?_
  rw [playerSave_ticket hi] at ht
  simp at ht

variable [Platform F]

theorem positions_framed {rid : ℕ} {conn : Connection} {now : ℤ} {request : Request F}
    (hs : Positions s) (h : Framed s rid conn now request s') : Positions s' := by
  refine positions_posted hs h.queue h.posted h.callbacks fun i task t hi ht => ?_
  have hone : ∀ task' : Task F, [task'][i]? = some task → i = 0 ∧ task' = task := by
    intro task' hi
    rcases i with _ | i
    · exact ⟨rfl, Option.some.inj hi⟩
    · simp at hi
  rcases hk : s.frameCall conn now request with _ | k
  · rcases frameTasks_of_none rid hk with htasks | ⟨u, w, htasks⟩ | ⟨u, w, htasks⟩
    · simp [htasks] at hi
    · rw [htasks] at hi
      obtain ⟨rfl, rfl⟩ := hone _ hi
      obtain rfl := Option.some.inj ht
      rfl
    · rw [htasks] at hi
      obtain ⟨rfl, rfl⟩ := hone _ hi
      obtain rfl := Option.some.inj ht
      rfl
  · rw [frameTasks_of_some hk] at hi
    rcases mem_callTasks (List.mem_of_getElem? hi) with ⟨_, rfl⟩ | ⟨_, rfl⟩ <;>
      simp [Task.ticket] at ht

theorem positions_work {o : DbOutcome} {task : Task F} {queue : List (Task F)} (hs : Positions s)
    (hq : s.queue = task :: queue) : Positions (runTask { s with queue } o task) := by
  have hsuffix : ∃ done, s.log.posted = done ++ queue := by
    obtain ⟨done, hdone⟩ := hs.suffix
    exact ⟨done ++ [task], by rw [hdone, hq, List.append_assoc]; rfl⟩
  have hlength : s.queue.length = queue.length + 1 := by rw [hq]; rfl
  have hqueued : ∀ i task t, queue[i]? = some task → task.ticket = some t →
      t.posted + queue.length = s.log.posted.length + i := by
    intro i task t hi ht
    have := hs.queued (i + 1) task t (by rw [hq]; exact hi) ht
    omega
  have hpending : ∀ callback ∈ s.callbacks,
      callback.ticket.posted + queue.length ≤ s.log.posted.length := by
    intro callback hcallback
    have := hs.pending callback hcallback
    omega
  have hhead : ∀ t, task.ticket = some t → t.posted + queue.length ≤ s.log.posted.length := by
    intro t ht
    have := posted_head hs hq ht
    omega
  cases task with
  | createAccount t username password =>
    refine ⟨hsuffix, hqueued, fun callback hcallback => ?_⟩
    rcases List.mem_append.1 hcallback with hcallback | hcallback
    · exact hpending callback hcallback
    · rw [List.mem_singleton.1 hcallback]
      exact hhead t rfl
  | verifyLogin t username password =>
    refine ⟨hsuffix, hqueued, fun callback hcallback => ?_⟩
    rcases List.mem_append.1 hcallback with hcallback | hcallback
    · exact hpending callback hcallback
    · rw [List.mem_singleton.1 hcallback]
      exact hhead t rfl
  | savePlayer st => exact ⟨hsuffix, hqueued, hpending⟩
  | saveScene snap => exact ⟨hsuffix, hqueued, hpending⟩

variable [Lobby D]

theorem positions_step {e : Event F} (hs : Positions s) (h : step s e = some s') :
    Positions s' := by
  cases e with
  | accept fd =>
    obtain ⟨-, rfl⟩ := Step.accept h
    exact ⟨hs.suffix, hs.queued, hs.pending⟩
  | frame fd rid request now =>
    obtain ⟨conn, -, hf⟩ := Step.frame h
    exact positions_framed hs hf
  | close fd now =>
    obtain ⟨conn, s₁, -, -, rfl, ⟨-, rfl⟩ | ⟨p, -, hr⟩⟩ := Step.close_cases h
    · exact ⟨hs.suffix, hs.queued, hs.pending⟩
    · have := positions_removed hs hr
      exact ⟨this.suffix, this.queued, this.pending⟩
  | work o =>
    obtain ⟨task, queue, hq, rfl⟩ := Step.work h
    exact positions_work hs hq
  | loop now =>
    obtain ⟨callback, callbacks, hq, hcases⟩ := Step.loop_cases h
    have hs' : Positions { s with callbacks } := ⟨hs.suffix, hs.queued, fun callback hcallback =>
      hs.pending callback (hq ▸ List.mem_cons_of_mem _ hcallback)⟩
    rcases hcases with ⟨rest, metrics, rfl, -⟩ | ⟨t, result, saved, conn, -, -, -, hj⟩
    · exact ⟨hs'.suffix, hs'.queued, hs'.pending⟩
    have hswitched : Positions
        (GameService.switchAccount { s with callbacks } t.fd result.playerId) := by
      rcases switchAccount_cases { s with callbacks } t.fd result.playerId with ⟨heq, -⟩ |
        ⟨old, -, -, hr, -⟩
      · rw [heq]
        exact hs'
      · exact positions_removed hs' hr
    refine ⟨?_, ?_, ?_⟩
    · rw [hj.queue, hj.posted]
      exact hswitched.suffix
    · rw [hj.queue, hj.posted]
      exact hswitched.queued
    · rw [hj.queue, hj.posted, hj.same.callbacks]
      exact hswitched.pending

end GameService

end TinRpc

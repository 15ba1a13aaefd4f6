import SwiftNetCore.ThreadPool

/-!
# The books of a thread pool

Two counters, a map of threads and a queue of finished identifiers say where the workers are. They
are written in different critical sections, of submitters and of workers that leave, and the
destructor reads the map without the mutex.

* `Books`: what the members say about the workers, also inside a critical section.
* `Books.enter`, `Books.joinFinished`, `Books.proceed`, ..: each critical section keeps the books,
  and has no fault.
* `Bookkeeping`: the counters count the workers, the map has the threads that are not joined, and
  those that are finished have left.
* `bookkeeping_throughout`: over every run, in every state, with every next step.
-/

namespace SwiftNetCore

open Paths (Path Throughout trace path_trace)

namespace ThreadPool

variable {p p' : ThreadPool} {id : ThreadID} {inside ids : List ThreadID} {event : Event}

/-- The threads that can be joined. -/
def joinable (p : ThreadPool) : List ThreadID := (p.threads.filter (·.2)).map Prod.fst

/-- The members agree with the workers, of which those `inside` are in a critical section. -/
structure Books (p : ThreadPool) (inside : List ThreadID) : Prop where
  idle : p.idleThreads = p.waiting.length + inside.length
  current : p.currentThreads = p.active.length + inside.length
  limit : p.currentThreads ≤ p.maxThreads
  queue : ∀ maxTasks ∈ p.maxTasks, p.tasks.length ≤ maxTasks
  keys_nodup : p.keys.Nodup
  joinable : p.joinable.Perm (inside ++ p.active ++ p.left)
  finished_nodup : p.finishedThreadIDs.Nodup
  finished_keys : ∀ id ∈ p.finishedThreadIDs, id ∈ p.keys
  finished_out : ∀ id ∈ p.finishedThreadIDs, id ∉ inside ++ p.active
  all_joinable : p.quit = false → ∀ elem ∈ p.threads, elem.2 = true
  left_finished : p.quit = false → p.left.Perm p.finishedThreadIDs

/-! ## Moves between the lists -/

/-- A worker that is active starts, waits or executes a task. -/
lemma count_active (p : ThreadPool) (x : ThreadID) : p.active.count x =
    p.starting.count x + p.waiting.count x + (p.running.map Prod.fst).count x := by
  rw [active, List.count_append, List.count_append]

/-- A member that is taken out of a list is counted once less there. -/
lemma count_erase_add {l : List ThreadID} (hid : id ∈ l) (x : ThreadID) :
    (l.erase id).count x + [id].count x = l.count x := by
  have hcount := (List.perm_cons_erase hid).count_eq x
  rw [← List.singleton_append, List.count_append] at hcount
  omega

/-- Workers move, and the queue changes. -/
lemma Books.move (h : p.Books inside) {inside' : List ThreadID} {idle : ℕ} {tasks : List Task}
    {starting waiting : List ThreadID} {running : List (ThreadID × Task)}
    (hperm : (inside' ++ (starting ++ waiting ++ running.map Prod.fst)).Perm (inside ++ p.active))
    (hidle : idle = waiting.length + inside'.length)
    (hqueue : ∀ maxTasks ∈ p.maxTasks, tasks.length ≤ maxTasks) :
    Books { p with
      idleThreads := idle
      tasks := tasks
      starting := starting
      waiting := waiting
      running := running } inside' where
  idle := hidle
  current := by
    calc p.currentThreads = (inside ++ p.active).length := by
          rw [h.current, List.length_append, Nat.add_comm]
      _ = (inside' ++ (starting ++ waiting ++ running.map Prod.fst)).length :=
          hperm.length_eq.symm
      _ = (starting ++ waiting ++ running.map Prod.fst).length + inside'.length := by
          rw [List.length_append, Nat.add_comm]
  limit := h.limit
  queue := hqueue
  keys_nodup := h.keys_nodup
  joinable := h.joinable.trans (hperm.symm.append_right _)
  finished_nodup := h.finished_nodup
  finished_keys := h.finished_keys
  finished_out := fun id hid hmem => h.finished_out id hid (hperm.subset hmem)
  all_joinable := h.all_joinable
  left_finished := h.left_finished

/-- A worker that takes the mutex for the first time keeps the books. -/
lemma Books.enter (h : p.Books []) (hid : id ∈ p.starting) :
    Books { p with idleThreads := p.idleThreads + 1, starting := p.starting.erase id } [id] := by
  refine h.move (List.perm_iff_count.mpr fun x => ?_) ?_ h.queue
  · have := count_erase_add hid x
    simp only [List.count_append, count_active, List.count_nil]
    omega
  · rw [h.idle]
    rfl

/-- A worker that waits keeps the books. -/
lemma Books.wait (h : p.Books [id]) : Books { p with waiting := p.waiting ++ [id] } [] := by
  refine h.move (List.perm_iff_count.mpr fun x => ?_) ?_ h.queue
  · simp only [List.count_append, count_active, List.count_nil]
    omega
  · rw [h.idle, List.length_append]
    rfl

/-- A worker that has the mutex again behind its wait keeps the books. -/
lemma Books.awake (h : p.Books []) (hid : id ∈ p.waiting) :
    Books { p with waiting := p.waiting.erase id } [id] := by
  refine h.move (List.perm_iff_count.mpr fun x => ?_) ?_ h.queue
  · have := count_erase_add hid x
    simp only [List.count_append, count_active, List.count_nil]
    omega
  · have hpos := List.length_pos_of_mem hid
    rw [h.idle, List.length_erase_of_mem hid, List.length_nil, List.length_singleton]
    omega

/-- A worker that takes a task keeps the books. -/
lemma Books.take (h : p.Books [id]) {task : Task} {tasks : List Task}
    (htasks : p.tasks = task :: tasks) :
    Books { p with
      idleThreads := p.idleThreads - 1
      tasks := tasks
      running := p.running ++ [(id, task)] } [] := by
  refine h.move (List.perm_iff_count.mpr fun x => ?_) ?_ ?_
  · simp only [List.count_append, count_active, List.count_nil, List.map_append, List.map_cons,
      List.map_nil]
    omega
  · rw [h.idle]
    rfl
  · intro maxTasks hmax
    have := h.queue maxTasks hmax
    rw [htasks, List.length_cons] at this
    omega

/-- A task that returns keeps the books. -/
lemma Books.finishTask (h : p.Books []) {task : Task} (hid : (id, task) ∈ p.running) :
    Books (p.finishTask id task) [] := by
  refine h.move (List.perm_iff_count.mpr fun x => ?_) h.idle h.queue
  have hrunning := ((List.perm_cons_erase hid).map Prod.fst).count_eq x
  rw [List.map_cons, ← List.singleton_append, List.count_append] at hrunning
  dsimp only at hrunning
  simp only [List.count_append, count_active, List.count_nil]
  omega

/-- A worker leaves because the pool quits. -/
lemma Books.quitWorker (h : p.Books [id]) (hquit : p.quit = true) :
    Books { p with
      idleThreads := p.idleThreads - 1
      currentThreads := p.currentThreads - 1
      left := p.left ++ [id] } [] where
  idle := by
    rw [h.idle]
    rfl
  current := by
    rw [h.current]
    rfl
  limit := (Nat.sub_le _ _).trans h.limit
  queue := h.queue
  keys_nodup := h.keys_nodup
  joinable := by
    refine h.joinable.trans (List.perm_iff_count.mpr fun x => ?_)
    simp only [List.count_append, count_active, List.count_nil]
    omega
  finished_nodup := h.finished_nodup
  finished_keys := h.finished_keys
  finished_out := fun id' hid' hmem => h.finished_out id' hid' (List.mem_append_right _ hmem)
  all_joinable := h.all_joinable
  left_finished := by simp [hquit]

/-- The destructor keeps the books when it sets `quit_`. -/
lemma Books.quit (h : p.Books []) : Books { p with quit := true } [] where
  idle := h.idle
  current := h.current
  limit := h.limit
  queue := h.queue
  keys_nodup := h.keys_nodup
  joinable := h.joinable
  finished_nodup := h.finished_nodup
  finished_keys := h.finished_keys
  finished_out := h.finished_out
  all_joinable := by simp
  left_finished := by simp

/-- A thread of the map is found under its key. -/
lemma find_eq {b : Bool} (hkeys : p.keys.Nodup) (h : (id, b) ∈ p.threads) :
    p.threads.find? (fun elem => elem.1 = id) = some (id, b) := by
  rcases hfind : p.threads.find? (fun elem => elem.1 = id) with _ | elem
  · have hnone := List.find?_eq_none.mp hfind _ h
    simp at hnone
  · have hkey : elem.1 = id := by simpa using List.find?_some hfind
    rw [hfind, List.inj_on_of_nodup_map hkeys (List.mem_of_find?_eq_some hfind) h hkey]

/-- Threads that are in the map, joinable and gone are joined. -/
lemma joinAll_eq (hnodup : ids.Nodup) (hkeys : p.keys.Nodup)
    (hthreads : ∀ id ∈ ids, (id, true) ∈ p.threads) (hleft : ∀ id ∈ ids, id ∈ p.left) :
    joinAll ids p = .ok { p with
      threads := p.threads.filter fun elem => elem.1 ∉ ids
      left := p.left.diff ids } := by
  induction ids generalizing p with
  | nil => simp [joinAll]
  | cons id ids ih =>
      obtain ⟨hid, hnodup⟩ := List.nodup_cons.mp hnodup
      have hne : ∀ id' ∈ ids, id' ≠ id := fun id' hid' heq => hid (heq ▸ hid')
      have hnext := ih (p := { p with
          threads := p.threads.filter fun elem => elem.1 ≠ id
          left := p.left.erase id }) hnodup ?_ ?_ ?_
      · rw [joinAll, find_eq hkeys (hthreads id List.mem_cons_self)]
        simp only [Bool.true_eq_false, if_false, hleft id List.mem_cons_self, not_true_eq_false]
        rw [hnext]
        simp [List.filter_filter, Bool.and_comm]
      · exact hkeys.sublist ((List.filter_sublist).map Prod.fst)
      · intro id' hid'
        exact List.mem_filter.mpr ⟨hthreads id' (List.mem_cons_of_mem _ hid'), by simp [hne id' hid']⟩
      · intro id' hid'
        exact (List.mem_erase_of_ne (hne id' hid')).mpr (hleft id' (List.mem_cons_of_mem _ hid'))

/-- When all that have left are finished, `joinFinishedThreads` joins them all. -/
lemma joinFinishedThreads_eq (hnodup : p.finishedThreadIDs.Nodup) (hkeys : p.keys.Nodup)
    (hthreads : ∀ id ∈ p.finishedThreadIDs, (id, true) ∈ p.threads)
    (hleft : p.left.Perm p.finishedThreadIDs) :
    p.joinFinishedThreads = .ok { p with
      finishedThreadIDs := []
      threads := p.threads.filter fun elem => elem.1 ∉ p.finishedThreadIDs
      left := [] } := by
  have hnil : p.left.diff p.finishedThreadIDs = [] := by
    refine List.perm_nil.mp (List.perm_iff_count.mpr fun x => ?_)
    rw [List.count_diff, hleft.count_eq, Nat.sub_self, List.count_nil]
  have hjoin := joinAll_eq (p := { p with finishedThreadIDs := [] }) hnodup hkeys hthreads
    fun id hid => hleft.symm.subset hid
  rw [joinFinishedThreads, hjoin, hnil]

/-- Until the pool quits, every thread in `threads_` can be joined. -/
lemma Books.joinable_eq (h : p.Books inside) (hquit : p.quit = false) : p.joinable = p.keys := by
  rw [ThreadPool.joinable, keys, List.filter_eq_self.mpr (h.all_joinable hquit)]

/-- Until the pool quits, a key of `threads_` has a thread that can be joined. -/
lemma Books.mem_threads (h : p.Books inside) (hquit : p.quit = false) (hid : id ∈ p.keys) :
    (id, true) ∈ p.threads := by
  obtain ⟨elem, helem, rfl⟩ := List.mem_map.mp hid
  rwa [← h.all_joinable hquit elem helem]

/-- When those that are finished have been joined, the keys of the other workers are left. -/
lemma Books.perm_keys_filter (h : p.Books inside) (hquit : p.quit = false) :
    (p.keys.filter (· ∉ p.finishedThreadIDs)).Perm (inside ++ p.active) := by
  have hkeys : p.keys.Perm (inside ++ p.active ++ p.left) := h.joinable_eq hquit ▸ h.joinable
  have hout : (inside ++ p.active).filter (· ∉ p.finishedThreadIDs) = inside ++ p.active :=
    List.filter_eq_self.mpr fun id hid => by
      simpa using fun hfinished => h.finished_out id hfinished hid
  have hin : p.left.filter (· ∉ p.finishedThreadIDs) = [] :=
    List.filter_eq_nil_iff.mpr fun id hid => by
      simpa using (h.left_finished hquit).subset hid
  have hfilter := hkeys.filter (· ∉ p.finishedThreadIDs)
  rwa [List.filter_append, hout, hin, List.append_nil] at hfilter

/-- A worker that has timed out leaves, when those that have left before it are joined. -/
lemma Books.timeoutWorker (h : p.Books [id]) (hquit : p.quit = false) :
    Books { p with
      idleThreads := p.idleThreads - 1
      currentThreads := p.currentThreads - 1
      finishedThreadIDs := [id]
      threads := p.threads.filter fun elem => elem.1 ∉ p.finishedThreadIDs
      left := [id] } [] := by
  have hperm := h.perm_keys_filter hquit
  have hkeys : ((p.threads.filter fun elem => elem.1 ∉ p.finishedThreadIDs).map Prod.fst) =
      p.keys.filter (· ∉ p.finishedThreadIDs) := by
    rw [keys, List.filter_map]
    rfl
  have hall : ∀ elem ∈ p.threads.filter (fun elem => elem.1 ∉ p.finishedThreadIDs),
      elem.2 = true := fun elem helem => h.all_joinable hquit elem (List.mem_of_mem_filter helem)
  have hnodup : (id :: p.active).Nodup := hperm.nodup_iff.mp (h.keys_nodup.filter _)
  constructor
  · rw [h.idle]
    rfl
  · rw [h.current]
    rfl
  · exact (Nat.sub_le _ _).trans h.limit
  · exact h.queue
  · rw [keys, hkeys]
    exact h.keys_nodup.filter _
  · rw [ThreadPool.joinable, List.filter_eq_self.mpr hall, hkeys]
    exact hperm.trans (List.perm_append_singleton id p.active).symm
  · exact List.nodup_singleton id
  · intro id' hid'
    rw [keys, hkeys, List.mem_singleton.mp hid']
    exact hperm.symm.subset List.mem_cons_self
  · intro id' hid'
    rw [List.mem_singleton.mp hid']
    exact (List.nodup_cons.mp hnodup).1
  · exact fun _ => hall
  · exact fun _ => .refl _

/-- **The rest of a critical section**: it keeps the books, and never takes a front off an empty
queue, as `wait_for` returns on a timeout or when its predicate holds. -/
lemma Books.proceed (h : p.Books [id]) {hasTimedout : Bool}
    (hready : hasTimedout = false → p.Ready) :
    ∃ p', p.proceed id hasTimedout = .ok p' ∧ p'.Books [] ∧
      (p.quit = true → p'.threads = p.threads) := by
  rcases htasks : p.tasks with _ | ⟨task, tasks⟩
  · rcases hquit : p.quit with _ | _
    · have htimeout : hasTimedout = true := by
        rcases hto : hasTimedout with _ | _
        · rcases hready hto with hq | ht
          · exact absurd hq (by simp [hquit])
          · exact absurd htasks ht
        · rfl
      have hjoin := joinFinishedThreads_eq (p := { p with
          idleThreads := p.idleThreads - 1, currentThreads := p.currentThreads - 1 })
        h.finished_nodup h.keys_nodup
        (fun id hid => h.mem_threads hquit (h.finished_keys id hid)) (h.left_finished hquit)
      refine ⟨_, ?_, h.timeoutWorker hquit, by simp⟩
      simp only [htasks, hquit] at hjoin
      simp [ThreadPool.proceed, htasks, hquit, htimeout, hjoin, Except.map]
    · refine ⟨_, ?_, h.quitWorker hquit, fun _ => rfl⟩
      simp [ThreadPool.proceed, htasks, hquit]
  · refine ⟨_, ?_, h.take htasks, fun _ => rfl⟩
    simp [ThreadPool.proceed, htasks]

/-! ## The other events -/

/-- A worker that is woken, or not, keeps the books. -/
lemma Books.wake (h : p.Books []) (hid : id ∈ p.waiting) :
    ∃ p', p.wake id = .ok p' ∧ p'.Books [] ∧ (p.quit = true → p'.threads = p.threads) := by
  unfold ThreadPool.wake
  by_cases hready : p.Ready
  · rw [if_pos hready]
    exact (h.awake hid).proceed fun _ => hready
  · rw [if_neg hready]
    exact ⟨p, rfl, h, fun _ => rfl⟩

/-- A worker whose wait times out keeps the books, and `threads_` once the pool quits. -/
lemma Books.timeout (h : p.Books []) (hid : id ∈ p.waiting) :
    ∃ p', p.timeout id = .ok p' ∧ p'.Books [] ∧ (p.quit = true → p'.threads = p.threads) := by
  refine (h.awake hid).proceed fun hnot => ?_
  have hready : p.Ready := by simpa using hnot
  exact hready

/-- A worker that enters its loop keeps the books, and `threads_` once the pool quits. -/
lemma Books.enterWorker (h : p.Books []) (hid : id ∈ p.starting) :
    ∃ p', p.enter id = .ok p' ∧ p'.Books [] ∧ (p.quit = true → p'.threads = p.threads) := by
  have hbooks := h.enter hid
  unfold ThreadPool.enter
  dsimp only
  split
  · next hready => exact hbooks.proceed fun _ => hready
  · exact ⟨_, rfl, hbooks.wait, fun _ => rfl⟩

/-- An identifier of no active worker, and of none that has left, is not a key of `threads_`. -/
lemma Books.notMem_keys (h : p.Books []) (hquit : p.quit = false)
    (hid : id ∉ p.active ++ p.left) : id ∉ p.keys := by
  rw [← h.joinable_eq hquit]
  exact fun hmem => hid (h.joinable.subset hmem)

/-- A new worker keeps the books. -/
lemma Books.spawn (h : p.Books []) (hquit : p.quit = false) (hid : id ∉ p.active ++ p.left)
    (hlimit : p.currentThreads < p.maxThreads) {tasks : List Task}
    (hqueue : ∀ maxTasks ∈ p.maxTasks, tasks.length ≤ maxTasks) :
    Books { p with
      tasks := tasks
      threads := p.threads ++ [(id, true)]
      currentThreads := p.currentThreads + 1
      starting := p.starting ++ [id] } [] := by
  have hkeys := h.notMem_keys hquit hid
  have hall : ∀ elem ∈ p.threads ++ [(id, true)], elem.2 = true := by
    intro elem helem
    rcases List.mem_append.mp helem with helem | helem
    · exact h.all_joinable hquit elem helem
    · rw [List.mem_singleton.mp helem]
  have hjoinable := h.joinable
  rw [h.joinable_eq hquit] at hjoinable
  constructor
  · exact h.idle
  · rw [h.current]
    simp only [active, List.length_append, List.length_nil, List.length_singleton]
    omega
  · exact hlimit
  · exact hqueue
  · rw [keys, List.map_append]
    exact h.keys_nodup.append (List.nodup_singleton id) (by simpa using hkeys)
  · rw [ThreadPool.joinable, List.filter_eq_self.mpr hall, List.map_append]
    refine (hjoinable.append_right [id]).trans (List.perm_iff_count.mpr fun x => ?_)
    simp only [List.count_append, count_active, List.count_nil]
    omega
  · exact h.finished_nodup
  · intro id' hid'
    rw [keys, List.map_append]
    exact List.mem_append_left _ (h.finished_keys id' hid')
  · intro id' hid' hmem
    have hold : id' ∉ p.active := h.finished_out id' hid'
    have hne : id' ≠ id := by
      rintro rfl
      exact hkeys (h.finished_keys id' hid')
    simp only [active, List.nil_append, List.mem_append, List.mem_singleton, hne] at hmem hold
    tauto
  · exact fun _ => hall
  · exact h.left_finished

/-- A submission that can come has a result and keeps the books. -/
lemma Books.submit (h : p.Books []) {task : Task} (hen : p.Enabled (.submit task id)) :
    ∃ p', p.submit task id = .ok p' ∧ p'.Books [] := by
  obtain ⟨hquit, hid⟩ := hen
  unfold ThreadPool.submit
  rw [if_neg (by simp [hquit])]
  by_cases hfull : p.Full
  · exact ⟨p, by rw [if_pos hfull], h⟩
  · rw [if_neg hfull]
    have hqueue : ∀ maxTasks ∈ p.maxTasks, (p.tasks ++ [task]).length ≤ maxTasks := by
      intro maxTasks hmax
      have hlt : ¬ maxTasks ≤ p.tasks.length := fun hle => hfull ⟨maxTasks, hmax, hle⟩
      rw [List.length_append, List.length_singleton]
      omega
    have hpush : Books { p with tasks := p.tasks ++ [task] } [] := h.move (.refl _) h.idle hqueue
    split_ifs with hidle hlimit hkeys
    · exact ⟨_, rfl, hpush⟩
    · exact absurd hkeys (h.notMem_keys hquit hid)
    · exact ⟨_, rfl, h.spawn hquit hid hlimit hqueue⟩
    · exact ⟨_, rfl, hpush⟩

/-- Joining a thread takes it from those that can be joined, and no other. -/
lemma filter_join (id : ThreadID) (threads : List (ThreadID × Bool)) :
    (threads.map fun elem => if elem.1 = id then (id, false) else elem).filter (·.2) =
      (threads.filter (·.2)).filter fun elem => elem.1 ≠ id := by
  induction threads with
  | nil => rfl
  | cons elem threads ih =>
      obtain ⟨key, b⟩ := elem
      by_cases hkey : key = id <;> cases b <;> simp [hkey, ih]

/-- Joining a thread leaves the keys of `threads_` as they are. -/
lemma keys_join (id : ThreadID) (p : ThreadPool) : (p.join id).keys = p.keys := by
  rw [keys, ThreadPool.join, List.map_map]
  refine List.map_congr_left fun elem _ => ?_
  by_cases hkey : elem.1 = id
  · simp [hkey]
  · simp [hkey]

/-- A join by the destructor keeps the books. -/
lemma Books.join (h : p.Books []) (hquit : p.quit = true) (hid : id ∈ p.left) :
    Books (p.join id) [] := by
  have hnodup : p.joinable.Nodup := h.keys_nodup.sublist ((List.filter_sublist).map Prod.fst)
  have hout : id ∉ p.active :=
    fun hmem => (List.nodup_append.mp (h.joinable.nodup_iff.mp hnodup)).2.2 id hmem id hid rfl
  refine ⟨h.idle, h.current, h.limit, h.queue, ?_, ?_, h.finished_nodup, ?_, h.finished_out, ?_, ?_⟩
  · rw [keys_join]
    exact h.keys_nodup
  · have hjoinable : (p.join id).joinable = p.joinable.erase id := by
      rw [hnodup.erase_eq_filter, ThreadPool.joinable, ThreadPool.join, filter_join,
        ThreadPool.joinable, List.filter_map]
      refine congrArg (List.map Prod.fst) (List.filter_congr fun elem _ => ?_)
      by_cases hkey : elem.1 = id <;> simp [hkey]
    rw [hjoinable]
    have herase := h.joinable.erase id
    rwa [List.nil_append, List.erase_append_right _ hout] at herase
  · intro id' hid'
    rw [keys_join]
    exact h.finished_keys id' hid'
  · simp [ThreadPool.join, hquit]
  · simp [ThreadPool.join, hquit]

/-! ## The invariant over runs -/

/-- What the members of a pool say about its workers. -/
structure Bookkeeping (p : ThreadPool) : Prop where
  /-- `idleThreads_` is the number of workers inside `wait_for` -/
  idle : p.idleThreads = p.waiting.length
  idle_le_current : p.idleThreads ≤ p.currentThreads
  current_le_max : p.currentThreads ≤ p.maxThreads
  /-- the queue is within its limit -/
  tasks : ∀ maxTasks ∈ p.maxTasks, p.tasks.length ≤ maxTasks
  /-- `threads_` has the workers that count and those that are finished -/
  threads : p.quit = false → p.threads.length = p.currentThreads + p.finishedThreadIDs.length
  /-- the finished identifiers are distinct keys of `threads_`, -/
  finished_nodup : p.finishedThreadIDs.Nodup
  finished_keys : ∀ id ∈ p.finishedThreadIDs, id ∈ p.keys
  /-- of workers that have left their last critical section -/
  finished_left : ∀ id ∈ p.finishedThreadIDs, id ∉ p.active ∧ (p.quit = false → id ∈ p.left)

/-- Every event that can come has a result: no assertion fails, no front is taken off an empty
queue, and no thread is joined under the mutex that still has to take it. -/
def Responds (p : ThreadPool) : Prop := ∀ event, p.Enabled event → ∃ p', p.apply event = .ok p'

/-- Behind the destructor's start no step modifies `threads_`. The destructor's own joins leave the
keys. -/
def Untouched (p : ThreadPool) : Prop := p.quit = true → ∀ event p', Step p event p' →
  p'.threads = p.threads ∨ p'.keys = p.keys ∧ ∃ id, event = .join id

/-- Where the books are right outside of a critical section, the members say what they should. -/
lemma Books.bookkeeping (h : p.Books []) : p.Bookkeeping where
  idle := h.idle
  idle_le_current := by
    rw [h.idle, h.current, active, List.length_append, List.length_append]
    omega
  current_le_max := h.limit
  tasks := h.queue
  threads := by
    intro hquit
    have hlength := h.joinable.length_eq
    rw [h.joinable_eq hquit, keys, List.length_map] at hlength
    rw [hlength, h.current, ← (h.left_finished hquit).length_eq, List.length_append]
    rfl
  finished_nodup := h.finished_nodup
  finished_keys := h.finished_keys
  finished_left := fun id hid =>
    ⟨h.finished_out id hid, fun hquit => (h.left_finished hquit).symm.subset hid⟩

/-- Every event that can come keeps the books. -/
lemma Books.apply (h : p.Books []) (hen : p.Enabled event) :
    ∃ p', p.apply event = .ok p' ∧ p'.Books [] ∧ (p.quit = true →
      p'.threads = p.threads ∨ p'.keys = p.keys ∧ ∃ id, event = .join id) := by
  cases event with
  | submit task id =>
      obtain ⟨p', heq, hbooks⟩ := h.submit hen
      exact ⟨p', heq, hbooks, fun hquit => absurd hquit (by simp [hen.1])⟩
  | enter id =>
      obtain ⟨p', heq, hbooks, hsame⟩ := h.enterWorker hen
      exact ⟨p', heq, hbooks, fun hquit => Or.inl (hsame hquit)⟩
  | wake id =>
      obtain ⟨p', heq, hbooks, hsame⟩ := h.wake hen
      exact ⟨p', heq, hbooks, fun hquit => Or.inl (hsame hquit)⟩
  | timeout id =>
      obtain ⟨p', heq, hbooks, hsame⟩ := h.timeout hen
      exact ⟨p', heq, hbooks, fun hquit => Or.inl (hsame hquit)⟩
  | finishTask id task => exact ⟨_, rfl, h.finishTask hen, fun _ => Or.inl rfl⟩
  | quit => exact ⟨_, rfl, h.quit, fun _ => Or.inl rfl⟩
  | join id =>
      exact ⟨_, rfl, h.join hen.1 hen.2.2, fun _ => Or.inr ⟨keys_join id p, id, rfl⟩⟩

/-- Where the books are right, every event that can come has a result. -/
lemma Books.responds (h : p.Books []) : p.Responds := by
  intro event hen
  obtain ⟨p', heq, -⟩ := h.apply hen
  exact ⟨p', heq⟩

/-- Every step keeps the books, and once the pool quits it leaves `threads_` to the joins. -/
lemma Books.step (h : p.Books []) (hst : Step p event p') : p'.Books [] ∧ (p.quit = true →
    p'.threads = p.threads ∨ p'.keys = p.keys ∧ ∃ id, event = .join id) := by
  obtain ⟨hen, heq⟩ := hst.apply_eq
  obtain ⟨p₁, heq₁, hbooks⟩ := h.apply hen
  rw [heq, Except.ok.injEq] at heq₁
  exact heq₁ ▸ hbooks

/-- The books of a new pool are right, as it has no workers. -/
lemma books_new (maxThreads : ℕ) (maxTasks : Option ℕ) : (new maxThreads maxTasks).Books [] where
  idle := rfl
  current := rfl
  limit := Nat.zero_le _
  queue := fun _ _ => Nat.zero_le _
  keys_nodup := .nil
  joinable := .nil
  finished_nodup := .nil
  finished_keys := by simp [new]
  finished_out := by simp [new]
  all_joinable := by simp [new]
  left_finished := fun _ => .nil

/-- **The books of a thread pool** are right in every state of every run, in every order of submits,
critical sections of the workers, tasks and the destructor, and from there no step has a fault. -/
theorem bookkeeping_throughout {maxThreads : ℕ} {maxTasks : Option ℕ}
    {path : List (Event × ThreadPool)} (hp : Path Step (new maxThreads maxTasks) path) :
    Throughout (fun p => p.Bookkeeping ∧ p.Responds ∧ p.Untouched) (new maxThreads maxTasks) path := by
  have hbooks : Throughout (fun p => p.Books []) (new maxThreads maxTasks) path :=
    hp.throughout (fun p event p' h hst => (h.step hst).1) (books_new _ _)
  apply hbooks.mono
  intro p h
  exact ⟨h.bookkeeping, h.responds, fun hquit event p' hst => (h.step hst).2 hquit⟩

/-- Two workers time out, the second joins the first, and the pool quits with a task in its
queue. -/
theorem bookkeeping_throughout_timeouts :
    Throughout (fun p => p.Bookkeeping ∧ p.Responds ∧ p.Untouched) (new 2 (some 1))
      (trace step (new 2 (some 1))
        [.submit 1 10, .enter 10, .submit 2 11, .enter 11, .finishTask 10 1, .enter 10,
          .finishTask 11 2, .enter 11, .timeout 10, .timeout 11, .submit 3 12, .quit, .enter 12,
          .finishTask 12 3, .enter 12, .join 12, .join 11]) :=
  bookkeeping_throughout (path_trace step _ _)

end ThreadPool

end SwiftNetCore

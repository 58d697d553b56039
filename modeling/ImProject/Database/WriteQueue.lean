-- SUMMARY: `DbWriteQueue`: the queue of the one write thread, as a transition system over all interleavings.
import ImProject.Library.System

/-!
# The write queue

Every write of the server is a task that some thread hands to `submit` and that
the write thread carries out on its own connection. The sections that hold
`m_mtx` are single steps; between them any thread may run. A step of the worker
is one turn of the loop of `run`: it looks at the queue, or it carries out the
task it has taken.

`open` is only called before the destructor begins: the destructor looks at
`m_thread` outside the lock.
-/

open Library

namespace DbWriteQueue

/-- A thread of the process: the one `open` starts, or one of the others. -/
inductive Thread where
  | worker
  | other (n : Nat)
  deriving DecidableEq

/-- An accepted task. The ticket stands for the promise that was made for it. -/
structure Job (T : Type*) where
  ticket : Nat
  thread : Thread
  task : T
  deriving DecidableEq

/-- Where the write thread is. -/
inductive Worker (T : Type*) where
  /-- `open` has not started it. -/
  | none
  /-- It has not recorded its id. -/
  | starting
  /-- It is about to look at the queue. -/
  | checking
  /-- It sleeps on the condition variable. -/
  | waiting
  /-- It carries out a task. -/
  | busy (job : Job T)
  | exited
  deriving DecidableEq

/-- How far the destructor is. -/
inductive Stop where
  | no
  /-- `m_running` is cleared. -/
  | flagged
  /-- All are notified. -/
  | joining
  | done
  deriving DecidableEq

/-- A call of `submit` whose task is in the queue and that has not returned. -/
structure Call (T : Type*) where
  job : Job T
  /-- It has notified the worker and sleeps on its future. -/
  notified : Bool
  deriving DecidableEq

/-- The call sleeps on the promise with this ticket. -/
def Call.awaits {T : Type*} (ticket : Nat) (c : Call T) : Bool :=
  c.job.ticket = ticket ∧ c.notified = true

/-- The two exceptions of `submit`. -/
inductive Refusal where
  | notRunning
  | fromWorker
  deriving DecidableEq

structure State (D T R : Type*) where
  /-- `m_db`. -/
  db : D
  running : Bool := false
  workerId : Option Thread := none
  queue : List (Job T) := []
  worker : Worker T := .none
  stop : Stop := .no
  calls : List (Call T) := []
  /-- The promises that have been fulfilled, oldest first. -/
  fulfilled : List (Job T × R) := []
  /-- History: the connection as `open` has left it. -/
  opened : D
  /-- History: the tasks in the order in which `submit` accepted them. -/
  accepted : List (Job T) := []
  /-- History: what the calls of `submit` have returned. -/
  returned : List (Job T × R) := []
  /-- History: the calls of `submit` that have thrown. -/
  refused : List (Thread × Refusal) := []

inductive Action (D T : Type*) where
  /-- With the connection, if SQLite opens it, and whether the thread cannot be
  started. -/
  | open_ (connection : Option D) (threadFails : Bool)
  | submit (thread : Thread) (task : T)
  /-- The `notify_one` of a call. -/
  | notify (ticket : Nat)
  /-- The call with this ticket returns from its future. -/
  | get (ticket : Nat)
  | work
  /-- The condition variable wakes the worker for no reason. -/
  | wake
  | destroy
  | notifyAll
  | join

variable {D T R : Type*}

def Worker.current : Worker T → Option (Job T)
  | .busy job => some job
  | _ => Option.none

/-- A notification reaches the worker only while it sleeps. -/
def Worker.notified : Worker T → Worker T
  | .waiting => .checking
  | w => w

/-- The worker calls `submit` only from within a task. -/
def State.mayCall (s : State D T R) : Thread → Bool
  | .worker => s.worker.current.isSome
  | .other _ => true

def open_ (s : State D T R) (connection : Option D) (threadFails : Bool) : State D T R :=
  if s.running then s
  else
    match connection with
    | none => s
    | some d =>
      if threadFails then s
      else { s with db := d, opened := d, running := true, worker := .starting }

def submit (s : State D T R) (thread : Thread) (task : T) : State D T R :=
  if !s.running then { s with refused := s.refused ++ [(thread, .notRunning)] }
  else if s.workerId = some thread then { s with refused := s.refused ++ [(thread, .fromWorker)] }
  else
    let job : Job T := ⟨s.accepted.length, thread, task⟩
    { s with
      queue := s.queue ++ [job]
      calls := s.calls ++ [⟨job, false⟩]
      accepted := s.accepted ++ [job] }

section Steps

variable (null : D) (exec : T → D → D × R)

/-- One turn of the worker. -/
def run (s : State D T R) : Option (State D T R) :=
  match s.worker with
  | .none | .waiting | .exited => none
  | .starting => some { s with workerId := some .worker, worker := .checking }
  | .checking =>
    match s.queue with
    | job :: rest => some { s with queue := rest, worker := .busy job }
    | [] =>
      if s.running then some { s with worker := .waiting }
      else some { s with workerId := none, worker := .exited }
  | .busy job =>
    let r := exec job.task s.db
    some { s with db := r.1, fulfilled := s.fulfilled ++ [(job, r.2)], worker := .checking }

def step (s : State D T R) : Action D T → Option (State D T R)
  | .open_ connection threadFails =>
    if s.stop = .no then some (open_ s connection threadFails) else none
  | .submit thread task =>
    if s.stop ≠ .done ∧ s.mayCall thread then some (submit s thread task) else none
  | .notify ticket =>
    match s.calls.find? fun c => c.job.ticket = ticket ∧ c.notified = false with
    | none => none
    | some c =>
      some { s with
        calls := s.calls.map fun d => if d.job.ticket = c.job.ticket then ⟨d.job, true⟩ else d
        worker := s.worker.notified }
  | .get ticket =>
    match s.calls.find? (Call.awaits ticket), s.fulfilled.find? (·.1.ticket = ticket) with
    | some c, some p =>
      some { s with
        calls := s.calls.eraseP (Call.awaits ticket)
        returned := s.returned ++ [(c.job, p.2)] }
    | _, _ => none
  | .work => run exec s
  | .wake => if s.worker matches .waiting then some { s with worker := .checking } else none
  | .destroy => if s.stop = .no then some { s with stop := .flagged, running := false } else none
  | .notifyAll =>
    if s.stop = .flagged then some { s with stop := .joining, worker := s.worker.notified }
    else none
  | .join =>
    -- a thread that was never started is not joinable
    if s.stop = .joining ∧ (s.worker matches .none | .exited) then
      some { s with stop := .done, db := null }
    else none

/-- A queue that is not open yet, and any calls. -/
def system : System (State D T R) (Action D T) where
  Init s := s = { db := null, opened := null }
  step := step null exec

end Steps

/-! ## What a step can do -/

section Runs

variable {null : D} {exec : T → D → D × R} {s s' : State D T R}

/-- A step changes the state in one of these ways. -/
inductive StepCase (null : D) (exec : T → D → D × R) (s : State D T R) : State D T R → Prop where
  | same : StepCase null exec s s
  | opened (d : D) (hstop : s.stop = .no) (hrunning : s.running = false) :
      StepCase null exec s { s with db := d, opened := d, running := true, worker := .starting }
  | refused (thread : Thread) (why : Refusal) :
      StepCase null exec s { s with refused := s.refused ++ [(thread, why)] }
  | accepted (thread : Thread) (task : T) (hrunning : s.running = true) :
      StepCase null exec s
        { s with
          queue := s.queue ++ [⟨s.accepted.length, thread, task⟩]
          calls := s.calls ++ [⟨⟨s.accepted.length, thread, task⟩, false⟩]
          accepted := s.accepted ++ [⟨s.accepted.length, thread, task⟩] }
  | notified (ticket : Nat) :
      StepCase null exec s
        { s with
          calls := s.calls.map fun d => if d.job.ticket = ticket then ⟨d.job, true⟩ else d
          worker := s.worker.notified }
  | returned (ticket : Nat) (c : Call T) (p : Job T × R)
      (hc : s.calls.find? (Call.awaits ticket) = some c)
      (hp : s.fulfilled.find? (·.1.ticket = ticket) = some p) :
      StepCase null exec s
        { s with
          calls := s.calls.eraseP (Call.awaits ticket)
          returned := s.returned ++ [(c.job, p.2)] }
  | recorded (hworker : s.worker = .starting) :
      StepCase null exec s { s with workerId := some .worker, worker := .checking }
  | taken (job : Job T) (rest : List (Job T)) (hworker : s.worker = .checking)
      (hqueue : s.queue = job :: rest) :
      StepCase null exec s { s with queue := rest, worker := .busy job }
  | slept (hworker : s.worker = .checking) (hqueue : s.queue = []) (hrunning : s.running = true) :
      StepCase null exec s { s with worker := .waiting }
  | exited (hworker : s.worker = .checking) (hqueue : s.queue = [])
      (hrunning : s.running = false) :
      StepCase null exec s { s with workerId := none, worker := .exited }
  | ran (job : Job T) (hworker : s.worker = .busy job) :
      StepCase null exec s
        { s with
          db := (exec job.task s.db).1
          fulfilled := s.fulfilled ++ [(job, (exec job.task s.db).2)]
          worker := .checking }
  | woken (hworker : s.worker = .waiting) : StepCase null exec s { s with worker := .checking }
  | flagged (hstop : s.stop = .no) :
      StepCase null exec s { s with stop := .flagged, running := false }
  | notifiedAll (hstop : s.stop = .flagged) :
      StepCase null exec s { s with stop := .joining, worker := s.worker.notified }
  | joined (hstop : s.stop = .joining) (hworker : s.worker = .none ∨ s.worker = .exited) :
      StepCase null exec s { s with stop := .done, db := null }

theorem open_cases (connection : Option D) (threadFails : Bool) :
    open_ s connection threadFails = s ∨ s.running = false ∧ ∃ d,
      open_ s connection threadFails =
        { s with db := d, opened := d, running := true, worker := .starting } := by
  unfold open_
  split
  · exact .inl rfl
  · rename_i hrunning
    cases connection with
    | none => exact .inl rfl
    | some d =>
      dsimp only
      split
      · exact .inl rfl
      · exact .inr ⟨by simpa using hrunning, d, rfl⟩

theorem run_cases (h : run exec s = some s') : StepCase null exec s s' := by
  unfold run at h
  split at h
  case h_1 | h_2 | h_3 => cases h
  case h_4 hworker =>
    cases h
    exact .recorded hworker
  case h_5 hworker =>
    split at h
    · rename_i job rest hqueue
      cases h
      exact .taken job rest hworker hqueue
    · rename_i hqueue
      split at h
      · cases h
        exact .slept hworker hqueue ‹_›
      · rename_i hrunning
        cases h
        exact .exited hworker hqueue (by simpa using hrunning)
  case h_6 job hworker =>
    cases h
    exact .ran job hworker

theorem step_cases {a : Action D T} (h : step null exec s a = some s') :
    StepCase null exec s s' := by
  cases a with
  | open_ connection threadFails =>
    simp only [step, Option.ite_none_right_eq_some, Option.some.injEq] at h
    obtain ⟨hstop, rfl⟩ := h
    rcases open_cases (s := s) connection threadFails with hsame | ⟨hrunning, d, hopened⟩
    · rw [hsame]
      exact .same
    · rw [hopened]
      exact .opened d hstop hrunning
  | submit thread task =>
    simp only [step, Option.ite_none_right_eq_some, Option.some.injEq] at h
    obtain ⟨-, rfl⟩ := h
    unfold submit
    split
    · exact .refused thread .notRunning
    · split
      · exact .refused thread .fromWorker
      · rename_i hrunning _
        exact .accepted thread task (by simpa using hrunning)
  | notify ticket =>
    simp only [step] at h
    split at h
    · cases h
    · cases h
      exact .notified _
  | get ticket =>
    simp only [step] at h
    split at h
    · rename_i c p hc hp
      cases h
      exact .returned ticket c p hc hp
    · cases h
  | work => exact run_cases h
  | wake =>
    simp only [step, Option.ite_none_right_eq_some, Option.some.injEq] at h
    obtain ⟨hwaiting, rfl⟩ := h
    refine .woken ?_
    split at hwaiting
    · assumption
    · cases hwaiting
  | destroy =>
    simp only [step, Option.ite_none_right_eq_some, Option.some.injEq] at h
    obtain ⟨hstop, rfl⟩ := h
    exact .flagged hstop
  | notifyAll =>
    simp only [step, Option.ite_none_right_eq_some, Option.some.injEq] at h
    obtain ⟨hstop, rfl⟩ := h
    exact .notifiedAll hstop
  | join =>
    simp only [step, Option.ite_none_right_eq_some, Option.some.injEq] at h
    obtain ⟨⟨hstop, hworker⟩, rfl⟩ := h
    refine .joined hstop ?_
    split at hworker
    · exact .inl ‹_›
    · exact .inr ‹_›
    · cases hworker

/-! ## The threads -/

/-- The worker has recorded its id. -/
def Worker.recorded : Worker T → Bool
  | .checking | .waiting | .busy _ => true
  | _ => false

@[simp] theorem Worker.current_notified (w : Worker T) : w.notified.current = w.current := by
  cases w <;> rfl

@[simp] theorem Worker.recorded_notified (w : Worker T) : w.notified.recorded = w.recorded := by
  cases w <;> rfl

theorem Worker.notified_ne_waiting (w : Worker T) : w.notified ≠ .waiting := by
  cases w <;> simp [Worker.notified]

@[simp] theorem Worker.notified_eq_none {w : Worker T} : w.notified = .none ↔ w = .none := by
  cases w <;> simp [Worker.notified]

@[simp] theorem Worker.notified_eq_exited {w : Worker T} : w.notified = .exited ↔ w = .exited := by
  cases w <;> simp [Worker.notified]

/-- Where the threads can be together. -/
structure Threads (s : State D T R) : Prop where
  recorded : s.workerId = if s.worker.recorded then some .worker else none
  stopped : s.stop ≠ .no → s.running = false
  started : s.running = true → s.worker ≠ .none ∧ s.worker ≠ .exited
  unopened : s.stop = .no → s.running = false → s.worker = .none
  fresh : s.worker = .none → s.accepted = []
  drained : s.worker = .exited → s.queue = []
  joined : s.stop = .done → s.worker = .none ∨ s.worker = .exited
  /-- The worker never sleeps on work of which nobody will notify it. -/
  awake : s.worker = .waiting → s.queue = [] ∨ ∃ c ∈ s.calls, c.notified = false
  alert : s.worker = .waiting → s.running = true ∨ s.stop = .flagged

theorem Threads.step (h : Threads s) (hs : StepCase null exec s s') : Threads s' := by
  obtain ⟨hrecorded, hstopped, hstarted, hunopened, hfresh, hdrained, hjoined, hawake, halert⟩ := h
  cases hs with
  | same | refused => constructor <;> assumption
  | opened d hstop hrunning =>
    have hnone := hunopened hstop hrunning
    constructor <;> simp_all [Worker.recorded]
  | accepted thread task hrunning =>
    have hlive := hstarted hrunning
    constructor <;> simp_all
  | notified ticket =>
    have hne := s.worker.notified_ne_waiting
    constructor <;> simp_all
  | returned ticket c p hc hp =>
    refine ⟨hrecorded, hstopped, hstarted, hunopened, hfresh, hdrained, hjoined, ?_, halert⟩
    intro hwaiting
    refine (hawake hwaiting).imp_right ?_
    -- the call that returns has notified the worker
    rintro ⟨d, hd, hnotified⟩
    have hother : ¬ Call.awaits ticket d = true := by simp [Call.awaits, hnotified]
    exact ⟨d, (List.mem_eraseP_of_neg hother).mpr hd, hnotified⟩
  | recorded hworker | taken _ _ hworker | slept hworker | ran _ hworker | woken hworker =>
    constructor <;> simp_all [Worker.recorded]
  | exited hworker hqueue hrunning =>
    have hstop : s.stop ≠ .no := fun hno => by simp [hunopened hno hrunning] at hworker
    constructor <;> simp_all [Worker.recorded]
  | flagged hstop =>
    constructor <;> simp_all
  | notifiedAll hstop =>
    have hne := s.worker.notified_ne_waiting
    have hrunning := hstopped (by simp [hstop])
    constructor <;> simp_all
  | joined hstop hworker =>
    have hrunning := hstopped (by simp [hstop])
    constructor <;> simp_all

/-! ## The order of the tasks -/

/-- Carry out the tasks one after the other. -/
def runAll (exec : T → D → D × R) (d : D) : List (Job T) → D × List (Job T × R)
  | [] => (d, [])
  | job :: jobs =>
    let r := exec job.task d
    let rest := runAll exec r.1 jobs
    (rest.1, (job, r.2) :: rest.2)

theorem runAll_concat (d : D) (jobs : List (Job T)) (job : Job T) :
    runAll exec d (jobs ++ [job]) =
      let r := runAll exec d jobs
      ((exec job.task r.1).1, r.2 ++ [(job, (exec job.task r.1).2)]) := by
  induction jobs generalizing d with
  | nil => rfl
  | cons j jobs ih => simp [runAll, ih]

/-- The jobs whose promise is fulfilled. -/
def State.finished (s : State D T R) : List (Job T) := s.fulfilled.map (·.1)

/-- What has been accepted is finished, in hand or in the queue, in this order, and
the connection is what the finished tasks have made of it. -/
structure Ordered (exec : T → D → D × R) (s : State D T R) : Prop where
  order : s.finished ++ s.worker.current.toList ++ s.queue = s.accepted
  tickets : s.accepted.map (·.ticket) = List.range s.accepted.length
  serial : (runAll exec s.opened s.finished).2 = s.fulfilled
  connection : s.stop ≠ .done → (runAll exec s.opened s.finished).1 = s.db

theorem Ordered.step (h : Ordered exec s) (ht : Threads s) (hs : StepCase null exec s s') :
    Ordered exec s' := by
  obtain ⟨horder, htickets, hserial, hconnection⟩ := h
  unfold State.finished at horder hserial hconnection
  cases hs with
  | same | refused | returned => exact ⟨horder, htickets, hserial, hconnection⟩
  | opened d hstop hrunning =>
    rw [ht.fresh (ht.unopened hstop hrunning)] at horder
    simp only [List.append_eq_nil_iff, List.map_eq_nil_iff] at horder
    have haccepted := ht.fresh (ht.unopened hstop hrunning)
    constructor <;> simp_all [State.finished, Worker.current, runAll]
  | accepted thread task hrunning =>
    refine ⟨?_, ?_, hserial, hconnection⟩
    · rw [← horder]
      simp [State.finished]
    · simp [htickets, List.range_succ]
  | notified ticket =>
    exact ⟨by simpa [State.finished] using horder, htickets, hserial, hconnection⟩
  | notifiedAll hstop =>
    refine ⟨by simpa [State.finished] using horder, htickets, hserial, fun _ => ?_⟩
    exact hconnection (by simp [hstop])
  | recorded hworker | taken _ _ hworker | slept hworker | exited hworker | woken hworker =>
    refine ⟨?_, htickets, hserial, hconnection⟩
    simpa [State.finished, Worker.current, hworker, *] using horder
  | ran job hworker =>
    have hlive : s.stop ≠ .done := fun hdone => by simpa [hworker] using ht.joined hdone
    refine ⟨?_, htickets, ?_, fun _ => ?_⟩
    · simpa [State.finished, Worker.current, hworker] using horder
    · simp [State.finished, runAll_concat, hserial, hconnection hlive]
    · simp [State.finished, runAll_concat, hconnection hlive]
  | flagged hstop => exact ⟨horder, htickets, hserial, fun _ => hconnection (by simp [hstop])⟩
  | joined hstop => exact ⟨horder, htickets, hserial, fun h => absurd rfl h⟩

/-! ## The results -/

/-- Each accepted task is owed to one call or has been returned by it, with the
result its promise holds. -/
structure Owed (s : State D T R) : Prop where
  once : (s.calls.map (·.job) ++ s.returned.map (·.1)).Perm s.accepted
  own : s.returned ⊆ s.fulfilled

theorem perm_eraseP {α : Type*} {p : α → Bool} {l : List α} {a : α} (h : l.find? p = some a) :
    l.Perm (a :: l.eraseP p) := by
  induction l with
  | nil => cases h
  | cons b l ih =>
    by_cases hb : p b = true
    · rw [List.find?_cons_of_pos hb] at h
      cases h
      simp [hb]
    · rw [List.find?_cons_of_neg hb] at h
      rw [List.eraseP_cons_of_neg hb]
      exact ((ih h).cons b).trans (.swap a b _)

/-- Two accepted tasks with one ticket are one. -/
theorem Ordered.eq_of_ticket (h : Ordered exec s) {j k : Job T} (hj : j ∈ s.accepted)
    (hk : k ∈ s.accepted) (hticket : j.ticket = k.ticket) : j = k := by
  have hnodup : (s.accepted.map (·.ticket)).Nodup := h.tickets ▸ List.nodup_range
  exact List.inj_on_of_nodup_map hnodup hj hk hticket

theorem Ordered.mem_accepted (h : Ordered exec s) {p : Job T × R} (hp : p ∈ s.fulfilled) :
    p.1 ∈ s.accepted := by
  rw [← h.order]
  simp only [List.append_assoc, List.mem_append]
  exact .inl (List.mem_map_of_mem hp)

theorem Owed.step (h : Owed s) (ho : Ordered exec s) (hs : StepCase null exec s s') : Owed s' := by
  obtain ⟨honce, hown⟩ := h
  cases hs with
  | same | opened | refused | recorded | taken | slept | exited | woken | flagged | notifiedAll
  | joined => exact ⟨honce, hown⟩
  | accepted thread task hrunning =>
    refine ⟨?_, hown⟩
    rw [List.map_append, List.append_assoc]
    exact (List.perm_append_comm.append_left _).trans
      (by simpa [List.append_assoc] using honce.append_right _)
  | notified ticket =>
    refine ⟨?_, hown⟩
    have hjobs : (s.calls.map fun d =>
        if d.job.ticket = ticket then (⟨d.job, true⟩ : Call T) else d).map (·.job) =
          s.calls.map (·.job) := by
      rw [List.map_map]
      refine List.map_congr_left fun d _ => ?_
      simp only [Function.comp_apply]
      split <;> rfl
    simpa only [hjobs] using honce
  | returned ticket c p hc hp =>
    have hcalls := (perm_eraseP hc).map (·.job)
    have hcjob : c.job ∈ s.accepted :=
      honce.subset (List.mem_append_left _ (List.mem_map_of_mem (List.mem_of_find?_eq_some hc)))
    have hmem := List.mem_of_find?_eq_some hp
    have hfound := List.find?_some hc
    have hticket := List.find?_some hp
    simp only [Call.awaits, Bool.decide_and, Bool.and_eq_true, decide_eq_true_eq] at hfound hticket
    -- the promise with the ticket of the call is the one made for its task
    have hpjob : p.1 = c.job :=
      ho.eq_of_ticket (ho.mem_accepted hmem) hcjob (hticket.trans hfound.1.symm)
    refine ⟨?_, ?_⟩
    · refine List.Perm.trans ?_ honce
      refine List.Perm.trans ?_ (hcalls.symm.append_right _)
      simp only [List.map_append, List.map_cons, List.map_nil, List.cons_append]
      rw [← List.append_assoc]
      exact List.perm_append_singleton _ _
    · intro q hq
      rcases List.mem_append.mp hq with hq | hq
      · exact hown hq
      · rw [List.mem_singleton.mp hq, ← hpjob]
        exact hmem
  | ran job hworker => exact ⟨honce, fun q hq => List.mem_append_left _ (hown hq)⟩

theorem invariant (h : (system null exec).Reachable s) :
    Threads s ∧ Ordered exec s ∧ Owed s := by
  refine h.invariant (I := fun s => Threads s ∧ Ordered exec s ∧ Owed s) ?_ ?_
  · rintro s rfl
    refine ⟨?_, ?_, ?_⟩
    · constructor <;> simp [Worker.recorded]
    · constructor <;> simp [State.finished, Worker.current, runAll]
    · constructor <;> simp
  · rintro s a s' - ⟨ht, ho, hw⟩ - hstep
    have hs := step_cases hstep
    exact ⟨ht.step hs, ho.step ht hs, hw.step ho hs⟩

/-! ## Progress -/

/-- How many turns the worker needs for the state it is in. -/
def Worker.turns : Worker T → Nat
  | .busy _ => 1
  | .none | .checking | .exited => 2
  | .starting | .waiting => 3

/-- A bound on the turns until the task with the ticket is finished, when `n` tasks
are finished. -/
def distance (n : Nat) (w : Worker T) (ticket : Nat) : Nat :=
  if ticket < n then 0 else 2 * (ticket - n) + w.turns

def State.distance (s : State D T R) (ticket : Nat) : Nat :=
  DbWriteQueue.distance s.fulfilled.length s.worker ticket

theorem distance_of_lt {n ticket : Nat} {w : Worker T} (h : ticket < n) :
    distance n w ticket = 0 := if_pos h

theorem distance_eq_zero_iff {n ticket : Nat} {w : Worker T} :
    distance n w ticket = 0 ↔ ticket < n := by
  unfold distance
  split
  · simp [*]
  · cases w <;> simp [Worker.turns, *]

theorem distance_mono {n ticket : Nat} {w w' : Worker T} (h : w'.turns ≤ w.turns) :
    distance n w' ticket ≤ distance n w ticket := by
  unfold distance
  split <;> omega

theorem distance_lt {n ticket : Nat} {w w' : Worker T} (hn : n ≤ ticket)
    (h : w'.turns < w.turns) : distance n w' ticket < distance n w ticket := by
  unfold distance
  split <;> omega

/-- A task is finished. -/
theorem distance_succ {n ticket : Nat} {job : Job T} (hn : n ≤ ticket) :
    distance (n + 1) (.checking : Worker T) ticket < distance n (.busy job) ticket := by
  simp only [distance, Worker.turns, if_neg (Nat.not_lt.mpr hn)]
  split <;> omega

theorem Worker.turns_notified_le (w : Worker T) : w.notified.turns ≤ w.turns := by
  cases w <;> simp [Worker.notified, Worker.turns]

/-- The worker has nothing left: every accepted task is finished. -/
theorem Ordered.length_of_idle (h : Ordered exec s) (hcurrent : s.worker.current = none)
    (hqueue : s.queue = []) : s.accepted.length = s.fulfilled.length := by
  rw [← h.order, hcurrent, hqueue]
  simp [State.finished]

/-- No step leads away from an accepted task, whoever else submits. -/
theorem distance_step_le (ht : Threads s) (ho : Ordered exec s) {ticket : Nat}
    (hticket : ticket < s.accepted.length) (hs : StepCase null exec s s') :
    s'.distance ticket ≤ s.distance ticket := by
  unfold State.distance
  cases hs with
  | same | refused | accepted | returned | flagged | joined => exact le_rfl
  | opened d hstop hrunning => simp [ht.fresh (ht.unopened hstop hrunning)] at hticket
  | notified | notifiedAll => exact distance_mono s.worker.turns_notified_le
  | recorded hworker | taken _ _ hworker | woken hworker =>
    exact distance_mono (by simp [hworker, Worker.turns])
  | slept hworker hqueue | exited hworker hqueue =>
    have hidle := ho.length_of_idle (by simp [hworker, Worker.current]) hqueue
    exact (distance_of_lt (hidle ▸ hticket)).le.trans (Nat.zero_le _)
  | ran job hworker =>
    by_cases hopen : ticket < s.fulfilled.length
    · exact (distance_of_lt (by simp; omega)).le.trans (Nat.zero_le _)
    · simpa [hworker] using (distance_succ (Nat.not_lt.mp hopen)).le

/-- Every turn of the worker leads closer to an accepted task. -/
theorem distance_run_lt (ho : Ordered exec s) {ticket : Nat} (hticket : ticket < s.accepted.length)
    (hopen : s.fulfilled.length ≤ ticket) (hrun : run exec s = some s') :
    s'.distance ticket < s.distance ticket := by
  have hidle (hworker : s.worker = .checking) (hqueue : s.queue = []) : False := by
    have := ho.length_of_idle (by simp [hworker, Worker.current]) hqueue
    omega
  unfold State.distance
  unfold run at hrun
  split at hrun
  case h_1 | h_2 | h_3 => cases hrun
  case h_4 hworker =>
    cases hrun
    exact distance_lt hopen (by simp [hworker, Worker.turns])
  case h_5 hworker =>
    split at hrun
    · cases hrun
      exact distance_lt hopen (by simp [hworker, Worker.turns])
    · exact (hidle hworker ‹_›).elim
  case h_6 job hworker =>
    cases hrun
    simpa [hworker] using distance_succ hopen

/-- The turns of the worker in a list of actions. -/
def turns (as : List (Action D T)) : Nat := as.countP (· matches .work)

/-- Whatever the other threads do, enough turns of the worker finish an accepted task. -/
theorem lt_fulfilled_of_turns (h : (system null exec).Reachable s) {as : List (Action D T)}
    (hrun : (system null exec).run s as = some s') {ticket : Nat}
    (hticket : ticket < s.accepted.length) (hturns : s.distance ticket ≤ turns as) :
    ticket < s'.fulfilled.length := by
  induction as generalizing s with
  | nil =>
    cases hrun
    exact distance_eq_zero_iff.mp (Nat.le_zero.mp hturns)
  | cons a as ih =>
    obtain ⟨t, hstep, hrest⟩ := System.run_cons_eq_some.mp hrun
    obtain ⟨ht, ho, -⟩ := invariant h
    have hcase := step_cases hstep
    have hle := distance_step_le ht ho hticket hcase
    have hticket' : ticket < t.accepted.length := by
      cases hcase <;> first | exact hticket | simp; omega
    refine ih (h.step trivial hstep) hrest hticket' ?_
    by_cases hdone : ticket < s.fulfilled.length
    · have : s.distance ticket = 0 := distance_of_lt hdone
      omega
    · unfold turns at hturns ⊢
      cases a with
      | work =>
        have hlt := distance_run_lt ho hticket (Nat.not_lt.mp hdone) hstep
        simp at hturns
        omega
      | _ =>
        simp at hturns
        omega

/-- A call of `submit` after the stop, before the start or from the worker throws
and leaves everything else as it was. -/
theorem submit_refused (ht : Threads s) {thread : Thread} {task : T}
    (hrefuse : s.running = false ∨ s.stop ≠ .no ∨ thread = .worker)
    (hstep : step null exec s (.submit thread task) = some s') :
    ∃ why, s' = { s with refused := s.refused ++ [(thread, why)] } := by
  simp only [step, Option.ite_none_right_eq_some, Option.some.injEq] at hstep
  obtain ⟨⟨-, hcall⟩, rfl⟩ := hstep
  unfold submit
  cases hrunning : s.running with
  | false => exact ⟨.notRunning, rfl⟩
  | true =>
    have hno : s.stop = .no := by
      by_contra hne
      simp [ht.stopped hne] at hrunning
    have hworker : thread = .worker := by simpa [hrunning, hno] using hrefuse
    subst hworker
    -- the worker calls from within a task, when its id is on record
    have hid : s.workerId = some .worker := by
      rw [ht.recorded]
      cases hw : s.worker <;> simp_all [State.mayCall, Worker.current, Worker.recorded]
    exact ⟨.fromWorker, by simp [hid]⟩

/-- While an accepted task is not finished, the worker can take a turn, or it
sleeps and a call is about to notify it. -/
theorem can_move (ht : Threads s) (ho : Ordered exec s)
    (hopen : s.fulfilled.length < s.accepted.length) :
    (run exec s).isSome = true ∨
      s.worker = .waiting ∧ ∃ c ∈ s.calls, (step null exec s (.notify c.job.ticket)).isSome := by
  cases hworker : s.worker with
  | starting | busy job => simp [run, hworker]
  | checking =>
    left
    cases hqueue : s.queue with
    | cons job rest => simp [run, hworker, hqueue]
    | nil => cases hrunning : s.running <;> simp [run, hworker, hqueue, hrunning]
  | none => simp [ht.fresh hworker] at hopen
  | exited =>
    have := ho.length_of_idle (by simp [hworker, Worker.current]) (ht.drained hworker)
    omega
  | waiting =>
    refine .inr ⟨rfl, ?_⟩
    rcases ht.awake hworker with hqueue | ⟨c, hc, hnotified⟩
    · have := ho.length_of_idle (by simp [hworker, Worker.current]) hqueue
      omega
    · refine ⟨c, hc, ?_⟩
      simp only [step]
      split
      · rename_i hfind
        have := List.find?_eq_none.mp hfind c hc
        simp [hnotified] at this
      · rfl

/-- A call that has notified the worker returns once its task is finished. -/
theorem can_return {c : Call T} (hc : c ∈ s.calls) (hdone : c.job ∈ s.finished)
    (hnotified : c.notified = true) : (step null exec s (.get c.job.ticket)).isSome = true := by
  simp only [step]
  split
  · rfl
  · rename_i hnone
    obtain ⟨p, hp, hjob⟩ := List.mem_map.mp hdone
    have hcall : (s.calls.find? (Call.awaits c.job.ticket)).isSome = true :=
      List.find?_isSome.mpr ⟨c, hc, by simp [Call.awaits, hnotified]⟩
    have hpromise : (s.fulfilled.find? (·.1.ticket = c.job.ticket)).isSome = true :=
      List.find?_isSome.mpr ⟨p, hp, by simp [hjob]⟩
    obtain ⟨c', hc'⟩ := Option.isSome_iff_exists.mp hcall
    obtain ⟨p', hp'⟩ := Option.isSome_iff_exists.mp hpromise
    exact (hnone c' p' hc' hp').elim

theorem Ordered.ticket_eq (h : Ordered exec s) {k : Nat} {job : Job T}
    (hjob : s.accepted[k]? = some job) : job.ticket = k := by
  have hk := congrArg (·[k]?) h.tickets
  have hlt : k < s.accepted.length := (List.getElem?_eq_some_iff.mp hjob).1
  simpa [List.getElem?_map, hjob, List.getElem?_range hlt] using hk

/-- The tasks accepted first are the finished ones. -/
theorem Ordered.mem_finished_iff (h : Ordered exec s) {job : Job T} (hjob : job ∈ s.accepted) :
    job ∈ s.finished ↔ job.ticket < s.fulfilled.length := by
  have happend := (List.append_assoc ..).symm.trans h.order
  have hlength : s.finished.length = s.fulfilled.length := List.length_map _
  constructor
  · intro hmem
    obtain ⟨k, hk⟩ := List.mem_iff_getElem?.mp hmem
    have hlt : k < s.finished.length := (List.getElem?_eq_some_iff.mp hk).1
    have hticket : job.ticket = k := by
      refine h.ticket_eq ?_
      rw [← happend, List.getElem?_append_left hlt, hk]
    omega
  · intro hlt
    obtain ⟨k, hk⟩ := List.mem_iff_getElem?.mp hjob
    have hticket := h.ticket_eq hk
    rw [← happend, List.getElem?_append_left (by omega)] at hk
    exact List.mem_of_getElem? hk

theorem accepted_subset_run {as : List (Action D T)} (hrun : (system null exec).run s as = some s') :
    s.accepted ⊆ s'.accepted := by
  induction as generalizing s with
  | nil =>
    cases hrun
    exact fun _ h => h
  | cons a as ih =>
    obtain ⟨t, hstep, hrest⟩ := System.run_cons_eq_some.mp hrun
    refine List.Subset.trans ?_ (ih hrest)
    cases step_cases hstep <;>
      first | exact fun _ h => h | exact fun _ h => List.mem_append_left _ h

/-! ## What the queue delivers -/

/-- What holds of the queue in every state. -/
structure Delivers (null : D) (exec : T → D → D × R) (s : State D T R) : Prop where
  /-- Every task is run once, in the order accepted, and one at a time. -/
  order : s.finished ++ s.worker.current.toList ++ s.queue = s.accepted
  distinct : (s.accepted.map (·.ticket)).Nodup
  /-- The results are those of carrying out the tasks one after the other. -/
  results : (runAll exec s.opened s.finished).2 = s.fulfilled
  /-- A call returns the result of its own task, and no other call does. -/
  own : s.returned ⊆ s.fulfilled
  once : (s.calls.map (·.job) ++ s.returned.map (·.1)).Perm s.accepted
  refused : ∀ thread task s', s.running = false ∨ s.stop ≠ .no ∨ thread = .worker →
    step null exec s (.submit thread task) = some s' →
      ∃ why, s' = { s with refused := s.refused ++ [(thread, why)] }
  /-- When the worker has exited or the destructor is done, nothing is left. -/
  drained : s.worker = .exited ∨ s.stop = .done → s.finished = s.accepted
  /-- While a task is not finished the worker can move or is about to be woken, -/
  moves : s.finished ≠ s.accepted → (run exec s).isSome = true ∨
    s.worker = .waiting ∧ ∃ c ∈ s.calls, (step null exec s (.notify c.job.ticket)).isSome
  /-- and a bounded number of its turns finishes it. -/
  finishes : ∀ as s', (system null exec).run s as = some s' → ∀ job ∈ s.accepted,
    s.distance job.ticket ≤ turns as → job ∈ s'.finished
  /-- A finished task is returned as soon as its call has notified the worker. -/
  returns : ∀ c ∈ s.calls, c.job ∈ s.finished → c.notified = true →
    (step null exec s (.get c.job.ticket)).isSome = true

theorem delivers (h : (system null exec).Reachable s) : Delivers null exec s := by
  obtain ⟨ht, ho, hw⟩ := invariant h
  have hlength : s.finished.length = s.fulfilled.length := List.length_map _
  have hdrained (hworker : s.worker.current = none) (hqueue : s.queue = []) :
      s.finished = s.accepted := by
    simpa [hworker, hqueue] using ho.order
  refine
    { order := ho.order
      distinct := ho.tickets ▸ List.nodup_range
      results := ho.serial
      own := hw.own
      once := hw.once
      refused := fun thread task s' => submit_refused ht
      drained := fun hend => ?_
      moves := fun hne => can_move ht ho ?_
      finishes := fun as s' hrun job hjob hturns => ?_
      returns := fun c hc => can_return hc }
  · have hworker : s.worker = .none ∨ s.worker = .exited := by
      rcases hend with hexited | hdone
      · exact .inr hexited
      · exact ht.joined hdone
    rcases hworker with hworker | hworker
    · -- nothing was ever accepted
      have hnone := ht.fresh hworker
      have horder := ho.order
      rw [hnone] at horder ⊢
      simp only [List.append_eq_nil_iff] at horder
      exact horder.1.1
    · exact hdrained (by simp [hworker, Worker.current]) (ht.drained hworker)
  · have hpre : s.finished <+: s.accepted := ⟨_, (List.append_assoc ..).symm.trans ho.order⟩
    have hlt : s.finished.length ≠ s.accepted.length := fun heq => hne (hpre.eq_of_length heq)
    have hle := hpre.length_le
    omega
  · have hticket : job.ticket < s.accepted.length := by
      obtain ⟨k, hk⟩ := List.mem_iff_getElem?.mp hjob
      rw [ho.ticket_eq hk]
      exact (List.getElem?_eq_some_iff.mp hk).1
    have hreach : (system null exec).Reachable s' := h.run (System.along_true s as) hrun
    have hlt := lt_fulfilled_of_turns h hrun hticket hturns
    exact ((invariant hreach).2.1.mem_finished_iff (accepted_subset_run hrun hjob)).mpr hlt

end Runs

/-- Two threads submit, the queue is destroyed, and the second task is finished
after that. -/
def sampleRun : List (Action Nat Nat) :=
  [.open_ (some 0) false, .submit (.other 1) 5, .work, .work, .submit (.other 2) 7, .destroy,
    .submit (.other 3) 9, .notify 1, .work, .work, .submit .worker 3, .work, .notifyAll, .work,
    .join, .notify 0, .get 0, .get 1]

theorem delivers_sampleRun :
    ∃ s, (system 0 fun n d => (d + n, d)).run { db := 0, opened := 0 } sampleRun = some s ∧
      s.returned.map (·.2) = [0, 5] ∧ s.refused.length = 2 ∧ s.stop = .done ∧
      Delivers 0 (fun n d => (d + n, d)) s := by
  refine ⟨_, rfl, by decide, by decide, by decide, delivers ?_⟩
  exact @System.reachable_of_run _ _ _ _ _ sampleRun rfl rfl

end DbWriteQueue

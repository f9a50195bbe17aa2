import LiveKit.Ffi.StreamWriters
import LiveKit.DataStream.WriterTheorems
import Mathlib.Algebra.Order.Ring.Nat

/-!
# The order of stream writes

The lock of the stream serves the tasks in the order in which they come to it, so the packets are
those of calls made one after the other in that order. It is the order of the requests only if the
runtime happens to keep it.
-/

namespace LiveKit.StreamWriters

open Request State List Option LiveKit.DataStream
open LiveKit.DataStream.Directed (Input Phase OutStream numbered)
open TransitionSystem

variable {w : FfiWriter}

/-! ## The stream when all packets are sent -/

section

variable {x : Writers.State} {n : ℕ} {waiting : List (ℕ × Writers.Call)}

theorem acquire_nothing (hholder : x.holder = none)
    (hwaiting : x.waiting = []) (outcome : Writers.Outcome) :
    x.perform (.acquire outcome) = none := by
  unfold Writers.State.perform
  dsimp only
  rw [hholder, hwaiting]

theorem acquire_held {holder : ℕ × Writers.Call} (hholder : x.holder = some holder)
    (outcome : Writers.Outcome) : x.perform (.acquire outcome) = none := by
  unfold Writers.State.perform
  dsimp only
  rw [hholder]

theorem acquire_write {input : Input} (hholder : x.holder = none)
    (hwaiting : x.waiting = (n, .write input) :: waiting) (hphase : x.stream.phase = .idle)
    (outcome : Writers.Outcome) :
    x.perform (.acquire outcome) = some (match input.chunks with
      | [] => ({ x with
          stream := { x.stream with phase := .idle, input := x.stream.input ++ [] }
          waiting := waiting }, [.began n input, .returned n (.write input) (.ok ())])
      | bytes :: more => ({ x with
          stream := { x.stream with
            phase := .writing bytes more
            input := x.stream.input ++ bytes :: more }
          waiting := waiting
          holder := some (n, .write input) }, [.began n input])) := by
  unfold Writers.State.perform
  dsimp only
  rw [hholder, hwaiting]
  unfold Writers.State.begin OutStream.act
  dsimp only
  rw [hphase, map_some]
  cases input.chunks with
  | nil => rw [OutStream.proceed, if_pos rfl]
  | cons bytes more =>
    rw [OutStream.proceed, if_neg (fun hbad => by cases hbad)]

variable {reason : Option String} {bytes : Bytes} {more : List Bytes}

theorem acquire_close (hholder : x.holder = none)
    (hwaiting : x.waiting = (n, .close reason) :: waiting) (hphase : x.stream.phase = .idle)
    (hopen : x.stream.isClosed = false) (result : Except StreamError Unit) :
    x.perform (.acquire (.taken result)) = some ({ x with
      stream := { x.stream with phase := .closing reason }
      waiting := waiting
      holder := some (n, .close reason)
      awaited := some result },
      [.handed (some n) (.streamTrailer ⟨x.stream.id, reason.getD ""⟩) result]) := by
  unfold Writers.State.perform
  dsimp only
  rw [hholder, hwaiting]
  unfold Writers.State.begin OutStream.act
  dsimp only
  rw [hphase, if_neg (by rw [hopen]; exact Bool.false_ne_true)]
  rfl

theorem send_nothing (hphase : ∀ bytes more, x.stream.phase ≠ .writing bytes more)
    (outcome : Writers.Outcome) : x.perform (.send outcome) = none := by
  unfold Writers.State.perform OutStream.act
  dsimp only
  cases hp : x.stream.phase with
  | writing bytes more => exact absurd hp (hphase bytes more)
  | _ => rfl

variable {call : Writers.Call}

theorem send_chunk (hholder : x.holder = some (n, call))
    (hphase : x.stream.phase = .writing bytes more) (result : Except StreamError Unit) :
    x.perform (.send (.taken result)) = some ({ x with
      stream := { x.stream with phase := .sending bytes more }
      awaited := some result },
      [.handed (some n) (.streamChunk ⟨x.stream.id, x.stream.progress.chunkIndex, bytes⟩)
        result]) := by
  unfold Writers.State.perform OutStream.act
  dsimp only
  rw [hphase]
  unfold Writers.State.sendPacket
  rw [hholder]
  rfl

theorem answer_nothing (hawaited : x.awaited = none) : x.perform .answer = none := by
  unfold Writers.State.perform
  rw [hawaited]
  rfl

theorem answer_chunk (hholder : x.holder = some (n, call)) (hawaited : x.awaited = some (.ok ())) :
    x.stream.phase = .sending bytes more → x.perform .answer = some (
      let progress := { x.stream.progress with
        bytesProcessed := x.stream.progress.bytesProcessed + bytes.length
        chunkIndex := x.stream.progress.chunkIndex + 1 }
      match more with
      | [] => ({ x with
          stream := { x.stream with phase := .idle, progress }
          holder := none
          awaited := none }, [.returned n call (.ok ())])
      | bytes' :: more' => ({ x with
          stream := { x.stream with phase := .writing bytes' more', progress }
          awaited := none }, [])) := by
  intro hphase
  have hanswer : x.stream.answer (.ok ()) = { x.stream with
      phase := OutStream.proceed more
      progress := { x.stream.progress with
        bytesProcessed := x.stream.progress.bytesProcessed + bytes.length
        chunkIndex := x.stream.progress.chunkIndex + 1 } } := by
    unfold OutStream.answer
    rw [hphase]
  unfold Writers.State.perform
  rw [hawaited, hholder, map_some, hanswer]
  cases more with
  | nil => rfl
  | cons => rfl

theorem answer_trailer (hholder : x.holder = some (n, call))
    (hphase : x.stream.phase = .closing reason) (hawaited : x.awaited = some (.ok ())) :
    x.perform .answer = some ({ x with
      stream := { x.stream with phase := .idle, isClosed := true }
      holder := none
      awaited := none }, [.returned n call (.ok ())]) := by
  have hanswer : x.stream.answer (.ok ()) =
      { x.stream with phase := .idle, isClosed := true } := by
    unfold OutStream.answer
    rw [hphase]
  unfold Writers.State.perform
  rw [hawaited, hholder, map_some, hanswer]
  rfl

end

/-! ## The requests of a run -/

theorem requestsOf_cons (a : Action w) (run : List (Action w)) :
    requestsOf (a :: run) = requestsOf [a] ++ requestsOf run :=
  filterMap_append (l := [a])

theorem startsOf_cons (a : Action w) (run : List (Action w)) :
    startsOf (a :: run) = startsOf [a] ++ startsOf run :=
  filterMap_append (l := [a])

section

variable {s s' : State w}

/-- What a step does with the requests. -/
theorem step_requests {a : Action w} (h : s.step a = some s') :
    s'.requests = s.requests ++ requestsOf [a] ∧
      s'.started.map (·.2) = s.started.map (·.2) ++ startsOf [a] := by
  unfold step at h
  cases a with
  | request request =>
    obtain ⟨-, rfl⟩ := of_unless h
    exact ⟨rfl, (append_nil _).symm⟩
  | start i =>
    obtain ⟨task, htask, h⟩ := bind_eq_some_iff.mp h
    obtain ⟨performed, -, rfl⟩ := map_eq_some_iff.mp h
    have hi : task.2 = i := by simpa using find?_some htask
    refine ⟨(append_nil _).symm, ?_⟩
    show (s.started ++ [task]).map (·.2) = _
    rw [map_append, map_singleton, hi]
    rfl
  | _ =>
    obtain ⟨performed, -, rfl⟩ := map_eq_some_iff.mp h
    exact ⟨(append_nil _).symm, (append_nil _).symm⟩

/-- What a run does with the requests. -/
theorem exec_requests {run : List (Action w)} (h : exec step s run = some s') :
    s'.requests = s.requests ++ requestsOf run ∧
      s'.started.map (·.2) = s.started.map (·.2) ++ startsOf run := by
  induction run generalizing s with
  | nil =>
    rw [exec_nil, some.injEq] at h
    subst h
    exact ⟨(append_nil _).symm, (append_nil _).symm⟩
  | cons a run ih =>
    obtain ⟨t, ht, hrest⟩ := exec_cons_eq_some.mp h
    obtain ⟨hrequests, hstarted⟩ := step_requests ht
    obtain ⟨hrequests', hstarted'⟩ := ih hrest
    rw [requestsOf_cons, startsOf_cons, ← append_assoc, ← append_assoc, ← hrequests,
      ← hstarted]
    exact ⟨hrequests', hstarted'⟩

end

/-! ## The packets of calls one after the other -/

/-- The packets of these requests, where the next chunk has the index `i`. -/
def emittedFrom (id : String) : ℕ → List (Request w) → List Value
  | _, [] => []
  | i, .write data :: requests =>
    chunkValues id i (w.input data).chunks ++
      emittedFrom id (i + (w.input data).chunks.length) requests
  | i, .close reason :: requests =>
    .streamTrailer ⟨id, reason.getD ""⟩ :: emittedFrom id i requests

theorem chunkValues_append (id : String) (i : ℕ) (contents contents' : List Bytes) :
    chunkValues id i (contents ++ contents') =
      chunkValues id i contents ++ chunkValues id (i + contents.length) contents' := by
  unfold chunkValues
  rw [zipIdx_append, map_append]

theorem emittedFrom_append (id : String) (i : ℕ) (requests requests' : List (Request w)) :
    emittedFrom id i (requests ++ requests') = emittedFrom id i requests ++
      emittedFrom id (i + (requests.flatMap chunks).length) requests' := by
  induction requests generalizing i with
  | nil => rfl
  | cons request requests ih =>
    rw [cons_append, flatMap_cons, length_append]
    cases request with
    | write data =>
      rw [emittedFrom, emittedFrom, ih, append_assoc, ← Nat.add_assoc]
      rfl
    | close reason =>
      rw [emittedFrom, emittedFrom, ih, cons_append, show (close reason).chunks = []
        from rfl, length_nil, Nat.zero_add]

/-- Without a close there are only chunks. -/
theorem emittedFrom_writes (id : String) (i : ℕ) {requests : List (Request w)}
    (hwrites : ∀ request ∈ requests, request.isClose = false) :
    emittedFrom id i requests = chunkValues id i (requests.flatMap chunks) := by
  induction requests generalizing i with
  | nil => rfl
  | cons request requests ih =>
    have hrest : ∀ r ∈ requests, r.isClose = false := by
      intro r hr
      exact hwrites r (mem_cons_of_mem _ hr)
    have hfirst := hwrites request mem_cons_self
    cases request with
    | write data =>
      rw [emittedFrom, flatMap_cons, chunkValues_append, ih _ hrest]
      rfl
    | close => cases hfirst

/-- The chunks among the packets. -/
theorem chunksOf_chunkValues (id : String) (i : ℕ) (contents : List Bytes) :
    (Directed.chunksOf (chunkValues id i contents)).map (·.content) = contents := by
  induction contents generalizing i with
  | nil => rfl
  | cons content contents ih =>
    show content :: (Directed.chunksOf (chunkValues id (i + 1) contents)).map (·.content) = _
    rw [ih]

theorem chunksOf_emittedFrom (id : String) (i : ℕ) (requests : List (Request w)) :
    (Directed.chunksOf (emittedFrom id i requests)).map (·.content) =
      requests.flatMap chunks := by
  induction requests generalizing i with
  | nil => rfl
  | cons request requests ih =>
    rw [flatMap_cons]
    cases request with
    | write data =>
      rw [emittedFrom, Directed.chunksOf_append, map_append, chunksOf_chunkValues, ih]
      rfl
    | close reason => exact ih i

/-! ## The invariant -/

/-- These tasks wait for the lock; the first has this number. -/
def waitingFrom (n : ℕ) (tasks : List (Task w)) : List (ℕ × Writers.Call) :=
  (tasks.zipIdx n).map fun (task, n) => (n, task.1.call)

theorem waitingFrom_concat (n : ℕ) (tasks : List (Task w)) (task : Task w) :
    waitingFrom n (tasks ++ [task]) =
      waitingFrom n tasks ++ [(n + tasks.length, task.1.call)] := by
  unfold waitingFrom
  rw [zipIdx_append, map_append]
  rfl

/-- The tasks of `done` have ended, and of the next one these packets and this many chunks were
sent. -/
structure Served (header : Header) (s : State w) (done : List (Task w)) (packets : List Value)
    (sent : ℕ) : Prop where
  kept : s.writers.stream.header = header
  callbacks : s.callbacks = done.map fun task => (task.2, .ok ())
  packets : s.packets = .streamHeader header ::
    (emittedFrom header.streamId 0 (done.map (·.1)) ++ packets)
  index : s.writers.stream.progress.chunkIndex =
    ((done.map (·.1)).flatMap Request.chunks).length + sent
  closed : s.writers.stream.isClosed = true ↔ ∃ task ∈ done, task.1.isClose = true
  calls : s.writers.calls = s.started.length

/-- How far the task that has the lock is, if there is one. -/
inductive Stage (header : Header) (s : State w) : Prop
  | free (done rest : List (Task w)) (served : Served header s done [] 0)
    (started : s.started = done ++ rest)
    (waiting : s.writers.waiting = waitingFrom done.length rest)
    (phase : s.writers.stream.phase = .idle) (holder : s.writers.holder = none)
    (awaited : s.writers.awaited = none)
  | writing (done : List (Task w)) (task : Task w) (rest : List (Task w)) (input : Input)
    (sent : List Bytes) (bytes : Bytes) (more : List Bytes)
    (served : Served header s done
      (chunkValues header.streamId ((done.map (·.1)).flatMap Request.chunks).length sent)
      sent.length)
    (started : s.started = done ++ task :: rest) (call : task.1.call = .write input)
    (chunks : input.chunks = sent ++ bytes :: more)
    (waiting : s.writers.waiting = waitingFrom (done.length + 1) rest)
    (phase : s.writers.stream.phase = .writing bytes more)
    (holder : s.writers.holder = some (done.length, .write input))
    (awaited : s.writers.awaited = none)
  | sending (done : List (Task w)) (task : Task w) (rest : List (Task w)) (input : Input)
    (sent : List Bytes) (bytes : Bytes) (more : List Bytes)
    (served : Served header s done
      (chunkValues header.streamId ((done.map (·.1)).flatMap Request.chunks).length
        (sent ++ [bytes])) sent.length)
    (started : s.started = done ++ task :: rest) (call : task.1.call = .write input)
    (chunks : input.chunks = sent ++ bytes :: more)
    (waiting : s.writers.waiting = waitingFrom (done.length + 1) rest)
    (phase : s.writers.stream.phase = .sending bytes more)
    (holder : s.writers.holder = some (done.length, .write input))
    (awaited : s.writers.awaited = some (.ok ()))
  | closing (done : List (Task w)) (task : Task w) (rest : List (Task w)) (reason : Option String)
    (served : Served header s done [.streamTrailer ⟨header.streamId, reason.getD ""⟩] 0)
    (started : s.started = done ++ task :: rest) (call : task.1 = .close reason)
    (waiting : s.writers.waiting = waitingFrom (done.length + 1) rest)
    (phase : s.writers.stream.phase = .closing reason)
    (holder : s.writers.holder = some (done.length, .close reason))
    (awaited : s.writers.awaited = some (.ok ()))

/-- Every request has its task, and after a close there are no requests. -/
structure Inv (header : Header) (s : State w) : Prop where
  tasks : (s.started ++ s.spawned).Perm s.requests.zipIdx
  closes : s.requests.countP Request.isClose = if s.isTaken then 1 else 0
  last : ∀ before reason after, s.requests = before ++ .close reason :: after → after = []
  stage : Stage header s

section

variable {header : Header} {s s' : State w} {done : List (Task w)} {packets : List Value}
  {sent : ℕ}

/-- What was served stays so while no packet is sent and no call returns. -/
theorem Served.of_eq (h : Served header s done packets sent)
    (hkept : s'.writers.stream.header = s.writers.stream.header)
    (hindex : s'.writers.stream.progress.chunkIndex = s.writers.stream.progress.chunkIndex)
    (hclosed : s'.writers.stream.isClosed = s.writers.stream.isClosed)
    (hcallbacks : s'.callbacks = s.callbacks) (hpackets : s'.packets = s.packets)
    (hcalls : s'.writers.calls = s'.started.length) : Served header s' done packets sent where
  kept := hkept.trans h.kept
  callbacks := hcallbacks.trans h.callbacks
  packets := hpackets.trans h.packets
  index := hindex.trans h.index
  closed := by
    rw [hclosed]
    exact h.closed
  calls := hcalls

/-- A task ends, when all its packets were sent. -/
theorem Served.finish (h : Served header s done packets sent) (task : Task w)
    (hkept : s'.writers.stream.header = s.writers.stream.header)
    (hcallbacks : s'.callbacks = s.callbacks ++ [(task.2, .ok ())])
    (hpackets : s'.packets = s.packets)
    (hall : packets = emittedFrom header.streamId
      ((done.map (·.1)).flatMap chunks).length [task.1])
    (hindex : s'.writers.stream.progress.chunkIndex =
      ((done.map (·.1)).flatMap chunks).length + task.1.chunks.length)
    (hclosed : s'.writers.stream.isClosed = true ↔
      s.writers.stream.isClosed = true ∨ task.1.isClose = true)
    (hcalls : s'.writers.calls = s.writers.calls) (hstarted : s'.started = s.started) :
    Served header s' (done ++ [task]) [] 0 where
  kept := hkept.trans h.kept
  callbacks := by
    rw [hcallbacks, h.callbacks, map_append]
    rfl
  packets := by
    rw [hpackets, h.packets, hall, map_append, emittedFrom_append, Nat.zero_add,
      append_nil]
    rfl
  index := by
    rw [hindex, map_append, flatMap_append, length_append]
    simp
  closed := by
    rw [hclosed, h.closed]
    simp only [mem_append, mem_singleton, or_and_right, exists_or, exists_eq_left]
  calls := by
    rw [hcalls, hstarted]
    exact h.calls

variable {task : Task w}

variable {rest : List (Task w)} {i : ℕ}

/-- A call that returns is the one that has the lock. -/
theorem callbacksOf_returned {started : List (Task w)} (hstarted : started = done ++ task :: rest)
    (call : Writers.Call) (result : Except StreamError Unit) :
    callbacksOf started [.returned done.length call result] = [(task.2, result)] := by
  unfold callbacksOf
  rw [hstarted]
  simp

/-- A new request. -/
theorem Stage.request (h : Stage header s) (isTaken : Bool) (requests : List (Request w))
    (spawned : List (Task w)) : Stage header { s with isTaken, requests, spawned } := by
  have hserved : ∀ {done packets sent}, Served header s done packets sent →
      Served header { s with isTaken, requests, spawned } done packets sent := by
    intro done packets sent served
    exact served.of_eq rfl rfl rfl rfl rfl served.calls
  cases h with
  | free done rest served started waiting phase holder awaited =>
    exact .free done rest (hserved served) started waiting phase holder awaited
  | writing done task rest input sent bytes more served started call chunks waiting phase holder
      awaited =>
    exact .writing done task rest input sent bytes more (hserved served) started call chunks
      waiting phase holder awaited
  | sending done task rest input sent bytes more served started call chunks waiting phase holder
      awaited =>
    exact .sending done task rest input sent bytes more (hserved served) started call chunks
      waiting phase holder awaited
  | closing done task rest reason served started call waiting phase holder awaited =>
    exact .closing done task rest reason (hserved served) started call waiting phase holder awaited

/-- A task comes to the lock. -/
theorem Stage.start (h : Stage header s) (task : Task w) (spawned : List (Task w)) :
    Stage header { s with
      writers := { s.writers with
        waiting := s.writers.waiting ++ [(s.writers.calls, task.1.call)]
        calls := s.writers.calls + 1 }
      spawned := spawned
      started := s.started ++ [task] } := by
  have hserved : ∀ {done packets sent}, Served header s done packets sent →
      Served header { s with
        writers := { s.writers with
          waiting := s.writers.waiting ++ [(s.writers.calls, task.1.call)]
          calls := s.writers.calls + 1 }
        spawned := spawned
        started := s.started ++ [task] } done packets sent := by
    intro done packets sent served
    refine served.of_eq rfl rfl rfl rfl rfl ?_
    show s.writers.calls + 1 = (s.started ++ [task]).length
    rw [length_append, served.calls]
    rfl
  have hstarted : ∀ {done rest}, s.started = done ++ rest →
      s.started ++ [task] = done ++ (rest ++ [task]) := by
    intro done rest started
    rw [started, append_assoc]
  have hwaiting : ∀ {done first rest packets sent}, Served header s done packets sent →
      s.started = done ++ first :: rest → s.writers.waiting = waitingFrom (done.length + 1) rest →
      s.writers.waiting ++ [(s.writers.calls, task.1.call)] =
        waitingFrom (done.length + 1) (rest ++ [task]) := by
    intro done first rest packets sent served started waiting
    rw [waiting, waitingFrom_concat, served.calls, started, length_append, length_cons,
      ← Nat.add_assoc, Nat.add_right_comm]
  cases h with
  | free done rest served started waiting phase holder awaited =>
    refine .free done (rest ++ [task]) (hserved served) (hstarted started) ?_ phase holder awaited
    show s.writers.waiting ++ [(s.writers.calls, task.1.call)] = _
    rw [waiting, waitingFrom_concat, served.calls, started, length_append]
  | writing done first rest input sent bytes more served started call chunks waiting phase holder
      awaited =>
    exact .writing done first (rest ++ [task]) input sent bytes more (hserved served)
      (hstarted started) call chunks (hwaiting served started waiting) phase holder awaited
  | sending done first rest input sent bytes more served started call chunks waiting phase holder
      awaited =>
    exact .sending done first (rest ++ [task]) input sent bytes more (hserved served)
      (hstarted started) call chunks (hwaiting served started waiting) phase holder awaited
  | closing done first rest reason served started call waiting phase holder awaited =>
    exact .closing done first (rest ++ [task]) reason (hserved served) (hstarted started) call
      (hwaiting served started waiting) phase holder awaited

/-- The lock is free again. -/
theorem Stage.freed (hserved : Served header s' (done ++ [task]) [] 0)
    (hstarted : s'.started = done ++ task :: rest)
    (hwaiting : s'.writers.waiting = waitingFrom (done.length + 1) rest)
    (hphase : s'.writers.stream.phase = .idle) (hholder : s'.writers.holder = none)
    (hawaited : s'.writers.awaited = none) : Stage header s' := by
  refine .free (done ++ [task]) rest hserved ?_ ?_ hphase hholder hawaited
  · rw [hstarted, append_assoc]
    rfl
  · rw [hwaiting, length_append]
    rfl

variable {reason : Option String}

/-- There is one close at most, so none has been served before it. -/
theorem Served.not_closed (served : Served header s done packets sent)
    (hone : (s.started.map (·.1)).countP isClose ≤ 1)
    (started : s.started = done ++ (.close reason, i) :: rest) :
    s.writers.stream.isClosed = false := by
  rw [← Bool.not_eq_true, served.closed]
  rintro ⟨task, hmem, hclose⟩
  rw [started, map_append, countP_append, map_cons,
    countP_cons_of_pos rfl] at hone
  have hpos : 0 < (done.map (·.1)).countP isClose :=
    countP_pos_iff.mpr ⟨task.1, mem_map_of_mem hmem, hclose⟩
  omega

/-- The steps that a call takes, and some more. -/
def work : Writers.Call → ℕ
  | .write input => 2 * input.chunks.length + 2
  | .close _ => 2

/-- The steps that are left of the call that has the lock. -/
def remaining : Phase → ℕ
  | .writing _ more => 2 * more.length + 2
  | .sending _ more => 2 * more.length + 1
  | .closing _ => 1
  | _ => 0

def State.left (s : State w) : ℕ :=
  (s.spawned.map fun task => work task.1.call + 1).sum +
    (s.writers.waiting.map fun call => work call.2).sum + remaining s.writers.stream.phase

variable {performed : Writers.State × List Writers.Event}

/-- The first task that waits gets the lock, and has less to do then. -/
theorem Stage.acquire (h : Stage header s) (hone : (s.started.map (·.1)).countP isClose ≤ 1)
    (hperform : s.writers.perform (.acquire (.taken (.ok ()))) = some performed) :
    Stage header (s.after performed) ∧ (s.after performed).left < s.left := by
  cases h with
  | writing _ _ _ _ _ _ _ _ _ _ _ _ _ holder | sending _ _ _ _ _ _ _ _ _ _ _ _ _ holder
  | closing _ _ _ _ _ _ _ _ _ holder =>
    rw [acquire_held holder] at hperform
    cases hperform
  | free done rest served started waiting phase holder awaited =>
    match rest with
    | [] =>
      rw [acquire_nothing holder waiting] at hperform
      cases hperform
    | (.write data, i) :: rest =>
      have hsum : (s.writers.waiting.map fun call => work call.2).sum =
          (2 * (w.input data).chunks.length + 2) +
            ((waitingFrom (done.length + 1) rest).map fun call => work call.2).sum := by
        rw [waiting]
        rfl
      rw [acquire_write holder waiting phase, some.injEq] at hperform
      subst hperform
      unfold left
      rw [hsum, phase]
      -- an empty write ends at once
      cases hchunks : (w.input data).chunks with
      | nil =>
        refine ⟨Stage.freed ?_ started rfl rfl holder awaited, ?left⟩
        case left =>
          show (s.spawned.map fun task => work task.1.call + 1).sum +
            ((waitingFrom (done.length + 1) rest).map fun call => work call.2).sum + 0 < _ + 0
          omega
        refine served.finish _ rfl ?_ (append_nil _) ?_ ?_ ?_ rfl rfl
        · exact congrArg (s.callbacks ++ ·) (callbacksOf_returned started (.write (w.input data)) _)
        · show [] = chunkValues _ _ (w.input data).chunks ++ []
          rw [hchunks]
          rfl
        · show s.writers.stream.progress.chunkIndex = _ + (w.input data).chunks.length
          rw [hchunks]
          exact served.index
        · exact ⟨.inl, fun hor => hor.resolve_right Bool.false_ne_true⟩
      | cons bytes more =>
        refine ⟨.writing done (.write data, i) rest (w.input data) [] bytes more ?_ started rfl
          hchunks rfl rfl rfl awaited, ?_⟩
        · exact served.of_eq rfl rfl rfl (append_nil _) (append_nil _) served.calls
        · show (s.spawned.map fun task => work task.1.call + 1).sum +
            ((waitingFrom (done.length + 1) rest).map fun call => work call.2).sum +
              (2 * more.length + 2) < _ + 0
          rw [length_cons]
          omega
    | (.close reason, i) :: rest =>
      have hsum : (s.writers.waiting.map fun call => work call.2).sum =
          2 + ((waitingFrom (done.length + 1) rest).map fun call => work call.2).sum := by
        rw [waiting]
        rfl
      -- the only close finds the stream open
      have hopen := served.not_closed hone started
      rw [acquire_close holder waiting phase hopen, some.injEq] at hperform
      subst hperform
      refine ⟨.closing done (.close reason, i) rest reason ?_ started rfl rfl rfl rfl rfl, ?left⟩
      case left =>
        unfold left
        rw [hsum, phase]
        show (s.spawned.map fun task => work task.1.call + 1).sum +
          ((waitingFrom (done.length + 1) rest).map fun call => work call.2).sum + 1 < _ + 0
        omega
      refine ⟨served.kept, ?_, ?_, served.index, served.closed, served.calls⟩
      · exact (append_nil _).trans served.callbacks
      · show s.packets ++ [.streamTrailer ⟨s.writers.stream.header.streamId, _⟩] = _
        rw [served.packets, served.kept, append_nil]
        rfl

/-- The task that has the lock sends a chunk. -/
theorem Stage.send (h : Stage header s)
    (hperform : s.writers.perform (.send (.taken (.ok ()))) = some performed) :
    Stage header (s.after performed) ∧ (s.after performed).left < s.left := by
  cases h with
  | free _ _ _ _ _ phase | sending _ _ _ _ _ _ _ _ _ _ _ _ phase | closing _ _ _ _ _ _ _ _ phase =>
    rw [send_nothing (fun bytes more hbad => by rw [phase] at hbad; cases hbad)] at hperform
    cases hperform
  | writing done task rest input sent bytes more served started call chunks waiting phase holder
      awaited =>
    rw [send_chunk holder phase, some.injEq] at hperform
    subst hperform
    unfold left
    rw [phase]
    refine ⟨.sending done task rest input sent bytes more ?_ started call chunks waiting rfl holder
      rfl, Nat.lt_succ_self _⟩
    refine ⟨served.kept, ?_, ?_, served.index, served.closed, served.calls⟩
    · exact (append_nil _).trans served.callbacks
    · show s.packets ++ [.streamChunk ⟨s.writers.stream.header.streamId, _, bytes⟩] = _
      rw [served.packets, served.kept, served.index, chunkValues_append, cons_append,
        append_assoc]
      rfl

/-- What was awaited comes back. -/
theorem Stage.answer (h : Stage header s) (hperform : s.writers.perform .answer = some performed) :
    Stage header (s.after performed) ∧ (s.after performed).left < s.left := by
  cases h with
  | free _ _ _ _ _ _ _ awaited | writing _ _ _ _ _ _ _ _ _ _ _ _ _ _ awaited =>
    rw [answer_nothing awaited] at hperform
    cases hperform
  | sending done task rest input sent bytes more served started call chunks waiting phase holder
      awaited =>
    rw [answer_chunk holder awaited phase, some.injEq] at hperform
    subst hperform
    unfold left
    rw [phase]
    have hlength : (sent ++ [bytes]).length = sent.length + 1 := length_append
    cases more with
    | nil =>
      -- all chunks of the task were sent
      obtain ⟨request, i⟩ := task
      cases request with
      | close => cases call
      | write data =>
        cases call
        refine ⟨Stage.freed ?_ started waiting rfl rfl rfl, Nat.lt_succ_self _⟩
        refine served.finish _ rfl ?_ (append_nil _) ?_ ?_ ?_ rfl rfl
        · exact congrArg (s.callbacks ++ ·) (callbacksOf_returned started _ _)
        · show _ = chunkValues _ _ (w.input data).chunks ++ []
          rw [chunks, append_nil]
        · show s.writers.stream.progress.chunkIndex + 1 = _ + (w.input data).chunks.length
          rw [chunks, hlength, served.index, Nat.add_assoc]
        · exact ⟨.inl, fun hor => hor.resolve_right Bool.false_ne_true⟩
    | cons bytes' more =>
      refine ⟨.writing done task rest input (sent ++ [bytes]) bytes' more ?_ started call ?_ waiting
        rfl holder rfl, Nat.lt_succ_self _⟩
      · refine ⟨served.kept, ?_, ?_, ?_, served.closed, served.calls⟩
        · exact (append_nil _).trans served.callbacks
        · exact (append_nil _).trans served.packets
        · show s.writers.stream.progress.chunkIndex + 1 = _
          rw [served.index, hlength, Nat.add_assoc]
      · rw [chunks, append_assoc]
        rfl
  | closing done task rest reason served started call waiting phase holder awaited =>
    rw [answer_trailer holder phase awaited, some.injEq] at hperform
    subst hperform
    obtain ⟨request, i⟩ := task
    cases call
    unfold left
    rw [phase]
    refine ⟨Stage.freed ?_ started waiting rfl rfl rfl, Nat.lt_succ_self _⟩
    refine served.finish _ rfl ?_ (append_nil _) rfl served.index ?_ rfl rfl
    · exact congrArg (s.callbacks ++ ·) (callbacksOf_returned started _ _)
    · exact ⟨fun _ => .inr rfl, fun _ => rfl⟩

/-- There is one close at most among the requests whose tasks have run. -/
theorem Inv.one_close (h : Inv header s) :
    (s.started.map (·.1)).countP isClose ≤ 1 := by
  have hperm : ((s.started ++ s.spawned).map (·.1)).Perm s.requests := by
    have hmap := h.tasks.map (·.1)
    rw [zipIdx_map_fst] at hmap
    exact hmap
  have hcount := hperm.countP_eq isClose
  rw [map_append, countP_append, h.closes] at hcount
  split at hcount <;> omega

/-- The numbers of the tasks are different. -/
theorem Inv.nodup (h : Inv header s) : (s.spawned.map (·.2)).Nodup := by
  have hmap := h.tasks.map (·.2)
  rw [zipIdx_map_snd, map_append] at hmap
  exact (nodup_append.mp (hmap.nodup_iff.mpr nodup_range')).2.1

/-- The one task with a number, taken out of the others. -/
theorem perm_cons_filter {tasks : List (Task w)} (hnodup : (tasks.map (·.2)).Nodup)
    (hfind : tasks.find? (·.2 = i) = some task) : tasks.Perm (task :: tasks.filter (·.2 ≠ i)) := by
  induction tasks with
  | nil => cases hfind
  | cons first tasks ih =>
    rw [map_cons, nodup_cons] at hnodup
    by_cases hi : first.2 = i
    · rw [find?_cons_of_pos (by simpa using hi), some.injEq] at hfind
      subst hfind
      have hrest : tasks.filter (·.2 ≠ i) = tasks := by
        rw [filter_eq_self]
        intro other hother
        have hne : other.2 ≠ i := by
          intro heq
          apply hnodup.1
          rw [hi, ← heq]
          exact mem_map_of_mem hother
        simpa using hne
      rw [filter_cons_of_neg (by simpa using hi), hrest]
    · rw [find?_cons_of_neg (by simpa using hi)] at hfind
      rw [filter_cons_of_pos (by simpa using hi)]
      exact ((ih hnodup.2 hfind).cons first).trans (List.Perm.swap task first _)

/-- A request is put at the end of those that are there. -/
theorem Inv.request (h : Inv header s) (request : Request w) (hopen : s.isTaken = false) :
    Inv header { s with
      isTaken := request.isClose
      requests := s.requests ++ [request]
      spawned := s.spawned ++ [(request, s.requests.length)] } := by
  have hnone : s.requests.countP isClose = 0 := by
    rw [h.closes, hopen]
    rfl
  refine ⟨?_, ?_, ?_, h.stage.request _ _ _⟩
  · show (s.started ++ (s.spawned ++ [(request, s.requests.length)])).Perm
      (s.requests ++ [request]).zipIdx
    rw [zipIdx_append, ← append_assoc, Nat.zero_add]
    exact h.tasks.append_right _
  · show (s.requests ++ [request]).countP isClose = if request.isClose then 1 else 0
    rw [countP_append, hnone, Nat.zero_add, countP_singleton]
  · intro before reason after heq
    rcases eq_nil_or_concat after with hafter | ⟨after', last, hafter⟩
    · exact hafter
    · rw [hafter, concat_eq_append, ← cons_append, ← append_assoc] at heq
      obtain ⟨hrequests, -⟩ := append_inj' heq rfl
      rw [hrequests, countP_append, countP_cons_of_pos rfl] at hnone
      omega

/-- A task that runs for the first time comes to the lock. -/
theorem Inv.start (h : Inv header s) (hfind : s.spawned.find? (·.2 = i) = some task) :
    Inv header { s with
      writers := { s.writers with
        waiting := s.writers.waiting ++ [(s.writers.calls, task.1.call)]
        calls := s.writers.calls + 1 }
      spawned := s.spawned.filter (·.2 ≠ i)
      started := s.started ++ [task] } := by
  refine ⟨?_, h.closes, h.last, h.stage.start task _⟩
  refine List.Perm.trans ?_ h.tasks
  show ((s.started ++ [task]) ++ s.spawned.filter (·.2 ≠ i)).Perm _
  rw [append_assoc]
  exact (perm_cons_filter h.nodup hfind).symm.append_left _

/-- The stream has writers. -/
theorem Stage.hasWriters (h : Stage header s) : s.writers.HasWriters := by
  unfold Writers.State.HasWriters
  cases h with
  | free _ _ _ _ _ phase | writing _ _ _ _ _ _ _ _ _ _ _ _ phase
  | sending _ _ _ _ _ _ _ _ _ _ _ _ phase | closing _ _ _ _ _ _ _ _ phase =>
    rw [phase]
    exact ⟨nofun, nofun, nofun⟩

/-- A task that runs for the first time calls the writer. -/
theorem Stage.call (h : Stage header s) (call : Writers.Call) :
    s.writers.perform (.call call) = some ({ s.writers with
      waiting := s.writers.waiting ++ [(s.writers.calls, call)]
      calls := s.writers.calls + 1 }, []) := by
  unfold Writers.State.perform
  dsimp only
  rw [if_pos h.hasWriters]

theorem Inv.step (h : Inv header s) {a : Action w} (hstep : s.step a = some s') :
    Inv header s' := by
  unfold State.step at hstep
  cases a with
  | request request =>
    obtain ⟨hopen, rfl⟩ := of_unless hstep
    exact h.request request (Bool.eq_false_iff.mpr hopen)
  | start i =>
    obtain ⟨task, hfind, hstep⟩ := bind_eq_some_iff.mp hstep
    rw [h.stage.call, map_some, some.injEq] at hstep
    subst hstep
    have hnext := h.start hfind
    unfold State.after
    dsimp only
    rw [show Writers.handed [] = [] from rfl,
      show callbacksOf (s.started ++ [task]) [] = [] from rfl, append_nil, append_nil]
    exact hnext
  | acquire =>
    obtain ⟨performed, hperform, rfl⟩ := map_eq_some_iff.mp hstep
    exact ⟨h.tasks, h.closes, h.last, (h.stage.acquire h.one_close hperform).1⟩
  | send =>
    obtain ⟨performed, hperform, rfl⟩ := map_eq_some_iff.mp hstep
    exact ⟨h.tasks, h.closes, h.last, (h.stage.send hperform).1⟩
  | answer =>
    obtain ⟨performed, hperform, rfl⟩ := map_eq_some_iff.mp hstep
    exact ⟨h.tasks, h.closes, h.last, (h.stage.answer hperform).1⟩

end

theorem Inv.new (w : FfiWriter) (uuid : String) : Inv (w.header uuid) (new w uuid) where
  tasks := List.Perm.refl _
  closes := rfl
  last before reason after heq := by simp [State.new] at heq
  stage := by
    refine .free [] [] ⟨?_, rfl, rfl, rfl, ?_, rfl⟩ rfl rfl rfl rfl rfl
    · rfl
    · exact ⟨nofun, fun ⟨_, hmem, _⟩ => absurd hmem not_mem_nil⟩

theorem Inv.reached {w : FfiWriter} {uuid : String} {run : List (Action w)} {s : State w}
    (hrun : exec State.step (State.new w uuid) run = some s) : Inv (w.header uuid) s :=
  exec_invariant (fun _ _ _ h hstep => h.step hstep) (Inv.new w uuid) hrun

/-! ## All tasks have ended -/

section

variable {header : Header} {s : State w} {id : String}

/-- What has come of the tasks when all have ended. -/
theorem Inv.finished (h : Inv header s) (hfinished : s.Finished) :
    s.started.Perm s.requests.zipIdx ∧
      s.packets = .streamHeader header :: emittedFrom header.streamId 0 (s.started.map (·.1)) ∧
      s.callbacks = s.started.map fun task => (task.2, .ok ()) := by
  obtain ⟨hspawned, hwaiting, hholder⟩ := hfinished
  have htasks := h.tasks
  rw [hspawned, append_nil] at htasks
  refine ⟨htasks, ?_⟩
  cases h.stage with
  | free done rest served started waiting =>
    rw [hwaiting] at waiting
    have hrest : rest = [] := by
      cases rest with
      | nil => rfl
      | cons => cases waiting
    rw [hrest, append_nil] at started
    rw [started]
    refine ⟨?_, served.callbacks⟩
    rw [served.packets, append_nil]
  | writing _ _ _ _ _ _ _ _ _ _ _ _ _ holder | sending _ _ _ _ _ _ _ _ _ _ _ _ _ holder
  | closing _ _ _ _ _ _ _ _ _ holder =>
    rw [hholder] at holder
    cases holder

/-- The trailers of requests are as many as the closes. -/
theorem length_trailers (id : String) (requests : List (Request w)) :
    (requests.filterMap (trailer id)).length = requests.countP isClose := by
  induction requests with
  | nil => rfl
  | cons request requests ih =>
    cases request with
    | write data =>
      rw [filterMap_cons_none rfl, ih, countP_cons_of_neg Bool.false_ne_true]
    | close reason =>
      show (requests.filterMap (trailer id)).length + 1 = _
      rw [ih, countP_cons_of_pos rfl]

variable {requests : List (Request w)}

theorem trailers_eq_nil (hwrites : ∀ request ∈ requests, request.isClose = false) :
    requests.filterMap (trailer id) = [] := by
  rw [← length_eq_zero_iff, length_trailers, countP_eq_zero]
  intro request hmem
  rw [hwrites request hmem]
  exact Bool.false_ne_true

/-- The trailer of the one close. -/
theorem trailers_of_close (hone : requests.countP isClose ≤ 1) (hmem : .close reason ∈ requests) :
    requests.filterMap (trailer id) = [.streamTrailer ⟨id, reason.getD ""⟩] := by
  have htrailer : .streamTrailer ⟨id, reason.getD ""⟩ ∈ requests.filterMap (trailer id) :=
    mem_filterMap.mpr ⟨.close reason, hmem, rfl⟩
  rw [← length_trailers id] at hone
  match hlist : requests.filterMap (trailer id), hone, htrailer with
  | [value], _, htrailer => rw [mem_singleton.mp htrailer]

theorem chunksOf_trailers (requests : List (Request w)) :
    Directed.chunksOf (requests.filterMap (trailer id)) = [] := by
  unfold Directed.chunksOf
  rw [filterMap_eq_nil_iff]
  intro value hmem
  obtain ⟨request, -, hvalue⟩ := mem_filterMap.mp hmem
  cases request with
  | write => cases hvalue
  | close =>
    cases hvalue
    rfl

/-- After a trailer nothing comes. -/
theorem nothing_after_trailer {i : ℕ} {contents : List Bytes} {trailers before after : List Value}
    {trailer : Trailer} (hlength : trailers.length ≤ 1)
    (heq : before ++ .streamTrailer trailer :: after = chunkValues id i contents ++ trailers) :
    after = [] := by
  rcases append_eq_append_iff.mp heq with ⟨more, hchunks, hafter⟩ | ⟨more, -, htrailers⟩
  · cases more with
    | nil =>
      rw [nil_append] at hafter
      rw [← hafter, length_cons] at hlength
      exact eq_nil_of_length_eq_zero (by omega)
    | cons value more =>
      obtain ⟨rfl, -⟩ := List.cons.inj hafter
      have hmem : Value.streamTrailer trailer ∈ chunkValues id i contents := by
        rw [hchunks]
        exact mem_append_right _ mem_cons_self
      obtain ⟨_, -, hbad⟩ := mem_map.mp hmem
      cases hbad
  · rw [htrailers, length_append, length_cons] at hlength
    exact eq_nil_of_length_eq_zero (by omega)

/-- The packets of calls in this order are those of calls in the order of the requests. -/
theorem emitted_eq_iff (id : String) {started : List (Request w)} (hperm : started.Perm requests)
    (hone : requests.countP isClose ≤ 1) :
    emittedFrom id 0 started = chunkValues id 0 (requests.flatMap chunks) ++
        requests.filterMap (trailer id) ↔
      started.flatMap chunks = requests.flatMap chunks ∧
        ∀ before reason after, started = before ++ .close reason :: after →
          ∀ request ∈ after, request.chunks = [] := by
  -- before and after a close there are only writes
  have hwrites : ∀ before reason after, started = before ++ .close reason :: after →
      (∀ request ∈ before, request.isClose = false) ∧
        ∀ request ∈ after, request.isClose = false := by
    intro before reason after hstarted
    have hcount := hperm.countP_eq isClose
    rw [hstarted, countP_append, countP_cons_of_pos rfl] at hcount
    have hbefore : before.countP isClose = 0 := by omega
    have hafter : after.countP isClose = 0 := by omega
    rw [countP_eq_zero] at hbefore hafter
    exact ⟨fun r hr => Bool.eq_false_iff.mpr (hbefore r hr),
      fun r hr => Bool.eq_false_iff.mpr (hafter r hr)⟩
  constructor
  · intro heq
    refine ⟨?_, ?_⟩
    · have hchunks := congrArg (fun values => (Directed.chunksOf values).map (·.content)) heq
      rw [chunksOf_emittedFrom, Directed.chunksOf_append, map_append, chunksOf_chunkValues,
        chunksOf_trailers, map_nil, append_nil] at hchunks
      exact hchunks
    · intro before reason after hstarted
      rw [hstarted, emittedFrom_append, emittedFrom] at heq
      have hnil := nothing_after_trailer (by rw [length_trailers]; exact hone) heq
      rw [emittedFrom_writes _ _ (hwrites before reason after hstarted).2] at hnil
      have hchunks := chunksOf_chunkValues id
        (0 + (before.flatMap chunks).length) (after.flatMap chunks)
      rw [hnil] at hchunks
      exact flatMap_eq_nil_iff.mp hchunks.symm
  · rintro ⟨hsame, hlast⟩
    by_cases hclose : ∃ reason, .close reason ∈ started
    · obtain ⟨reason, hmem⟩ := hclose
      obtain ⟨before, after, hstarted⟩ := append_of_mem hmem
      obtain ⟨hbefore, hafter⟩ := hwrites before reason after hstarted
      have hnil : after.flatMap chunks = [] :=
        flatMap_eq_nil_iff.mpr (hlast before reason after hstarted)
      rw [hstarted, flatMap_append, flatMap_cons, hnil] at hsame
      rw [trailers_of_close hone (hperm.subset hmem), ← hsame, hstarted, emittedFrom_append,
        emittedFrom, emittedFrom_writes _ _ hbefore, emittedFrom_writes _ _ hafter, hnil]
      show _ = chunkValues id 0 (before.flatMap chunks ++ []) ++ _
      rw [append_nil]
      rfl
    · have hnone : ∀ request ∈ started, request.isClose = false := by
        intro request hmem
        cases request with
        | write => rfl
        | close reason => exact absurd ⟨reason, hmem⟩ hclose
      rw [emittedFrom_writes _ _ hnone, hsame,
        trailers_eq_nil fun request hmem => hnone request (hperm.mem_iff.mpr hmem), append_nil]

end

/-! ## What the receiver reads -/

theorem job_header (w : FfiWriter) (writes : List w.Data) (uuid : String) :
    (w.job writes).header uuid = w.header uuid := by
  cases w <;> rfl

theorem job_contents (requests : List (Request w)) :
    (w.job (requests.filterMap data)).contents = requests.flatMap chunks := by
  have hcontents : ∀ writes : List w.Data,
      (w.job writes).contents = writes.flatMap fun data => (w.input data).chunks := by
    cases w <;> exact fun _ => rfl
  rw [hcontents]
  induction requests with
  | nil => rfl
  | cons request requests ih =>
    rw [flatMap_cons, ← ih]
    cases request <;> rfl

/-- The packets of requests in their order are those of a transfer, as the receiver gets them. -/
theorem transfer_packets (transfer : Transfer) (values : List Value)
    (hvalues : values = .streamHeader (transfer.job.header transfer.uuid) ::
      (chunkValues transfer.id 0 transfer.job.contents ++ [.streamTrailer ⟨transfer.id, ""⟩])) :
    values.map (fun value => transfer.incoming ⟨[], value⟩) = transfer.packets := by
  have hchunks : ∀ (contents : List Bytes) (i : ℕ),
      (chunkValues transfer.id i contents).map (fun value => transfer.incoming ⟨[], value⟩) =
        (chunkPackets transfer.id i contents).map transfer.incoming := by
    intro contents
    induction contents with
    | nil => exact fun _ => rfl
    | cons content contents ih =>
      intro i
      rw [chunkPackets, map_cons, ← ih]
      rfl
  obtain ⟨tx, hrun, hsent⟩ := transfer.job.run_lossless transfer.uuid
  unfold Transfer.packets
  rw [hrun]
  dsimp only
  rw [hsent, hvalues, map_cons, map_append, hchunks]
  unfold streamPackets
  rw [map_append, map_cons]
  rfl

/-- Where the packets are in the order of the requests, the receiver reads what was written. -/
theorem received_of_packets {uuid : String} {requests : List (Request w)} {s : State w}
    (hone : requests.countP isClose ≤ 1)
    (hpackets : s.packets = .streamHeader (w.header uuid) ::
      (chunkValues (w.header uuid).streamId 0 (requests.flatMap chunks) ++
        requests.filterMap (trailer (w.header uuid).streamId))) (hclose : .close reason ∈ requests)
    (hreason : reason.getD "" = "") (hdeclared : (w.job (requests.filterMap data)).Declared)
    (identity : String) (encryptionType : EncryptionType) {run : List DataStream.Action}
    {s' : DataStream.State} (transfer : Transfer)
    (htransfer : transfer = ⟨w.job (requests.filterMap data), uuid, identity, encryptionType⟩)
    (hreceived : ((received run).filter fun packet => packet.streamId = transfer.id) =
      s.packets.map fun value => transfer.incoming ⟨[], value⟩) (hkept : .dropManager ∉ run)
    (hexec : exec DataStream.State.step .new run = some s') : transfer.ReceivedBy s' := by
  have hheader : transfer.job.header transfer.uuid = w.header uuid := by
    rw [htransfer]
    exact job_header w _ uuid
  have hid : transfer.id = (w.header uuid).streamId := congrArg Header.streamId hheader
  have hcontents : transfer.job.contents = requests.flatMap chunks := by
    rw [htransfer]
    exact job_contents requests
  rw [transfer_packets transfer s.packets ?_] at hreceived
  · obtain ⟨t, htid, htpackets, -, hstage⟩ := transfer.exists_transmission (by
      rw [htransfer]
      exact hdeclared)
    apply hstage
    refine Transmission.Stage.run State.Wf.new ?_ hkept hexec
    rw [htid, hreceived, ← htpackets]
    exact .before rfl (by simp [DataStream.State.new])
  · rw [hpackets, hheader, hid, hcontents, trailers_of_close hone hclose, hreason]

/-! ## All tasks can end -/

/-- The step is one of a task, and not of the client. -/
def Action.IsTask : Action w → Prop
  | .request _ => False
  | _ => True

section

variable {header : Header} {s s' : State w}

/-- The tasks come to an end. -/
theorem Inv.left_lt (h : Inv header s) {a : Action w} (ha : a.IsTask)
    (hstep : s.step a = some s') : s'.left < s.left := by
  unfold State.step at hstep
  cases a with
  | request => exact ha.elim
  | start i =>
    obtain ⟨task, hfind, hstep⟩ := bind_eq_some_iff.mp hstep
    rw [h.stage.call, map_some, some.injEq] at hstep
    subst hstep
    have hsum := ((perm_cons_filter h.nodup hfind).map fun task => work task.1.call + 1).sum_nat
    rw [map_cons, sum_cons] at hsum
    unfold left
    rw [hsum]
    show (((s.spawned.filter (·.2 ≠ i)).map fun task => work task.1.call + 1).sum +
      ((s.writers.waiting ++ [(s.writers.calls, task.1.call)]).map fun call => work call.2).sum +
        remaining s.writers.stream.phase) < _
    rw [map_append, sum_append, map_singleton, sum_singleton]
    dsimp only
    omega
  | acquire =>
    obtain ⟨performed, hperform, rfl⟩ := map_eq_some_iff.mp hstep
    exact (h.stage.acquire h.one_close hperform).2
  | send =>
    obtain ⟨performed, hperform, rfl⟩ := map_eq_some_iff.mp hstep
    exact (h.stage.send hperform).2
  | answer =>
    obtain ⟨performed, hperform, rfl⟩ := map_eq_some_iff.mp hstep
    exact (h.stage.answer hperform).2

/-- As long as a task has not ended, one can go on. -/
theorem Inv.finished_of_quiet (h : Inv header s)
    (hquiet : ∀ a : Action w, a.IsTask → ¬ Enabled State.step s a) : s.Finished := by
  have hspawned : s.spawned = [] := by
    cases hlist : s.spawned with
    | nil => rfl
    | cons task tasks =>
      have hfind : s.spawned.find? (·.2 = task.2) = some task := by
        rw [hlist]
        exact find?_cons_of_pos (by simp)
      refine absurd ?_ (hquiet (.start task.2) trivial)
      unfold Enabled State.step
      dsimp only
      rw [hfind, bind_some, h.stage.call, map_some]
      exact ⟨_, rfl⟩
  cases h.stage with
  | free done rest served started waiting phase holder awaited =>
    refine ⟨hspawned, ?_, holder⟩
    match rest with
    | [] => exact waiting
    | (.write data, i) :: rest =>
      refine absurd ?_ (hquiet .acquire trivial)
      unfold Enabled State.step
      dsimp only
      rw [acquire_write holder waiting phase, map_some]
      exact ⟨_, rfl⟩
    | (.close reason, i) :: rest =>
      refine absurd ?_ (hquiet .acquire trivial)
      unfold Enabled State.step
      dsimp only
      rw [acquire_close holder waiting phase (served.not_closed h.one_close started),
          map_some]
      exact ⟨_, rfl⟩
  | writing done task rest input sent bytes more served started call chunks waiting phase holder =>
    refine absurd ?_ (hquiet .send trivial)
    unfold Enabled State.step
    dsimp only
    rw [send_chunk holder phase, map_some]
    exact ⟨_, rfl⟩
  | sending done task rest input sent bytes more served started call chunks waiting phase holder
      awaited =>
    refine absurd ?_ (hquiet .answer trivial)
    unfold Enabled State.step
    dsimp only
    rw [answer_chunk holder awaited phase, map_some]
    exact ⟨_, rfl⟩
  | closing done task rest reason served started call waiting phase holder awaited =>
    refine absurd ?_ (hquiet .answer trivial)
    unfold Enabled State.step
    dsimp only
    rw [answer_trailer holder phase awaited, map_some]
    exact ⟨_, rfl⟩

end

/-! ## The claim -/

section

variable {uuid : String} {run : List (Action w)} {s : State w}

/-- The requests whose tasks have run, in that order. -/
theorem startedRequests_eq (hrun : exec step (new w uuid) run = some s) :
    startedRequests run = s.started.map (·.1) := by
  obtain ⟨hrequests, hstarted⟩ := exec_requests hrun
  have hget : ∀ task ∈ s.started, (requestsOf run)[task.2]? = some task.1 := by
    intro task hmem
    have htask := (Inv.reached hrun).tasks.subset (mem_append_left _ hmem)
    rw [hrequests] at htask
    exact mem_zipIdx_iff_getElem?.mp htask
  unfold startedRequests
  rw [← show s.started.map (·.2) = startsOf run from hstarted]
  clear hstarted
  generalize s.started = started at hget ⊢
  induction started with
  | nil => rfl
  | cons task tasks ih =>
    rw [map_cons, filterMap_cons_some (hget task mem_cons_self),
      ih fun other hmem => hget other (mem_cons_of_mem _ hmem)]
    rfl

/-- From every state the tasks can be run until all have ended, and they cannot run forever. -/
theorem exists_finished (hrun : exec step (new w uuid) run = some s) :
    ∃ rest s', (∀ a ∈ rest, Action.IsTask a) ∧ exec step s rest = some s' ∧
      s'.Finished := by
  obtain ⟨rest, s', htasks, hexec, hinv, hquiet⟩ := exists_quiescent (P := Action.IsTask)
    (I := Inv (w.header uuid)) State.left (fun _ _ _ h _ hstep => h.step hstep)
    (fun _ _ _ h ha hstep => h.left_lt ha hstep) s (Inv.reached hrun)
  exact ⟨rest, s', htasks, hexec, hinv.finished_of_quiet hquiet⟩

end

/-- All tasks can end, and when they have, the requests have had their effects in the order in which
they were made if and only if their tasks ran for the first time in an order that gives the same
chunks, with nothing to send after the close. -/
theorem in_request_order_iff (w : FfiWriter) (uuid : String) :
    (∀ run s, exec State.step (State.new w uuid) run = some s →
      ∃ rest s', (∀ a ∈ rest, Action.IsTask a) ∧ exec State.step s rest = some s' ∧
        s'.Finished) ∧
    ∀ run s, exec State.step (State.new w uuid) run = some s → s.Finished →
      (InRequestOrder w uuid (requestsOf run) s ↔ StartsInOrder run) := by
  refine ⟨fun run s hrun => exists_finished hrun, ?_⟩
  intro run s hrun hfinished
  have hinv := Inv.reached hrun
  have hrequests : s.requests = requestsOf run := (exec_requests hrun).1
  obtain ⟨htasks, hpackets, hcallbacks⟩ := hinv.finished hfinished
  have hperm : (s.started.map (·.1)).Perm (requestsOf run) := by
    have hmap := htasks.map (·.1)
    rw [zipIdx_map_fst, hrequests] at hmap
    exact hmap
  have hone : (requestsOf run).countP isClose ≤ 1 := by
    rw [← hperm.countP_eq]
    exact hinv.one_close
  have hiff := emitted_eq_iff (w.header uuid).streamId hperm hone
  unfold StartsInOrder
  rw [startedRequests_eq hrun, ← hiff]
  constructor
  · intro horder
    have hsame := hpackets.symm.trans horder.packets
    exact (List.cons.inj hsame).2
  · intro hsame
    rw [hsame] at hpackets
    refine ⟨hpackets, ?_, ?_, ?_⟩
    · have hmap := htasks.map (·.2)
      rw [zipIdx_map_snd, ← range_eq_range', hrequests] at hmap
      rw [hcallbacks, List.map_map]
      exact hmap
    · intro callback hmem
      rw [hcallbacks] at hmem
      obtain ⟨task, -, rfl⟩ := mem_map.mp hmem
      rfl
    · intro reason hclose hreason hdeclared identity encryptionType run' s' transfer hreceived
        hkept hexec
      exact received_of_packets hone hpackets hclose hreason hdeclared identity encryptionType
        transfer rfl hreceived hkept hexec

/-- A handle of a stream of bytes. -/
def plainWriter : FfiWriter := .bytes ⟨"t", ∅, [], some "s", none, none, none⟩

/-- A write and a close, whose tasks run in that order. -/
theorem write_then_close : ∃ s, InRequestOrder plainWriter "" [.write [1], .close none] s := by
  have hrun : ∃ s, exec step (new plainWriter "")
      [.request (.write [1]), .request (.close none), .start 0, .start 1, .acquire, .send, .answer,
        .acquire, .answer] = some s := ⟨_, rfl⟩
  obtain ⟨s, hs⟩ := hrun
  have hfinished : s.Finished := by
    cases hs
    exact ⟨rfl, rfl, rfl⟩
  refine ⟨s, ((in_request_order_iff plainWriter "").2 _ s hs hfinished).mpr ⟨rfl, ?_⟩⟩
  intro before reason after heq
  match before, heq with
  | [], heq => cases heq
  | [first], heq =>
    cases heq
    exact fun request hmem => absurd hmem not_mem_nil
  | _ :: _ :: _, heq =>
    have hlength := congrArg List.length heq
    simp [startedRequests, startsOf, requestsOf] at hlength

/-- The task of the second write runs before that of the first. -/
theorem second_write_first :
    ¬ ∀ (w : FfiWriter) (uuid : String) (run : List (Action w)) (s : State w),
      exec State.step (State.new w uuid) run = some s → s.Finished →
        InRequestOrder w uuid (requestsOf run) s := by
  intro hall
  have hrun : ∃ s, exec step (new plainWriter "")
      [.request (.write [1]), .request (.write [2]), .start 1, .start 0, .acquire, .send, .answer,
        .acquire, .send, .answer] = some s := ⟨_, rfl⟩
  obtain ⟨s, hs⟩ := hrun
  have hfinished : s.Finished := by
    cases hs
    exact ⟨rfl, rfl, rfl⟩
  have hpackets := (hall plainWriter "" _ s hs hfinished).packets
  have hchunks := congrArg (fun values => (Directed.chunksOf values).map (·.content)) hpackets
  have hsent : (Directed.chunksOf s.packets).map (·.content) = [[2], [1]] := by
    cases hs
    rfl
  have hbad : ([[2], [1]] : List Bytes) = [[1], [2]] := hsent.symm.trans hchunks
  exact absurd hbad (by decide)

end LiveKit.StreamWriters

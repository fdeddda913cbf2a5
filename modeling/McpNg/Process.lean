import McpNg.ThreadPool

/-!
# The server process, one statement at a time

`ThreadPool` runs each call in four kinds of step and lets a call's code do nothing but
write from inside its own block. The process does more, and this module models it:

- `redirect_stdout.__enter__` is two statements:
  `self._old_targets.append(getattr(sys, self._stream))` reads `sys.stdout`, and
  `setattr(sys, self._stream, self._new_target)` sets it. Another thread may run between
  them, so a call may save a target that is replaced before it sets its own.
- The code may start threads. They write to whatever `sys.stdout` is when they run,
  while the call runs and after it has answered (`Event.thread`).
- The code may never return (`while True: pass`); its call then keeps its worker.
- When `exec` raises an `Exception`, the handler's f-string calls `str(e)`, and a
  `__str__` of the user's may print, to the `sys.stdout` that `__exit__` has just
  restored (`Effects.handlerWrites`).

The code is still not interpreted: `Effects` says what one call's code does to the
process, and the theorems quantify over it. `step` runs one statement of one thread and
`run` an interleaving of them. A `ThreadPool` run is the case of calls whose code does
only what `ExecOutcome` says, with `__enter__`'s two statements run back to back
(`simulates_pool`): what `ThreadPool` shows can happen does happen here.

Left out still: code that closes or replaces `sys.stdout` or the buffer itself (a closed
`StringIO` makes `getvalue` raise `ValueError`), and code that rebinds the tool's globals.
-/

namespace McpNg

namespace Process

/-- What one call's code does to the process. -/
structure Effects where
  /-- the writes `exec` makes in the calling thread, and how it ends if it ends -/
  exec : ExecOutcome
  /-- whether `exec` returns or raises at all: `false` for code that runs forever after
  its writes -/
  returns : Bool
  /-- the writes of the exception's `__str__` while the handler formats `{e}` -/
  strWrites : List PyStr
  /-- the writes of the threads the code starts, in the order they happen -/
  threadWrites : List PyStr
  deriving DecidableEq, Repr

/-- The handler's writes: `__str__`'s, when `exec` raised an `Exception`, so that
`except Exception as e` runs and its f-string calls `str(e)` (code_interpreter.py:30–32);
none otherwise. -/
def Effects.handlerWrites (c : Effects) : List PyStr :=
  match c.exec.raised with
  | some e => if e.cls.isException then c.strWrites else []
  | none => []

/-- A `__str__` that prints nothing leaves the handler nothing to write. -/
theorem Effects.handlerWrites_eq_nil {c : Effects} (h : c.strWrites = []) :
    c.handlerWrites = [] := by
  unfold Effects.handlerWrites
  split <;> simp [h]

/-- Where a call's worker thread is in `code_interpreter`. -/
inductive Stage where
  /-- waiting for a worker -/
  | queued
  /-- `io.StringIO()` created, and `__enter__` has saved the `sys.stdout` it read but not
  yet set its own -/
  | entering (saved : Target)
  /-- `exec` runs inside the block; the writes it has still to make -/
  | inside (saved : Target) (pending : List PyStr)
  /-- `__exit__` done; the writes the handler has still to make before the call answers -/
  | exited (pending : List PyStr)
  /-- returned or raised `r` -/
  | done (r : Except PyExc ResultDict)

/-- A call holding a worker. -/
def Stage.isActive : Stage → Bool
  | .entering _ | .inside _ _ | .exited _ => true
  | _ => false

/-- `exec` has started, so the threads of the code may run. -/
def Stage.started : Stage → Bool
  | .queued | .entering _ => false
  | _ => true

/-- The target a call has saved in `_old_targets` and not yet put back: from `__enter__`'s
read until `__exit__`. -/
def Stage.saved : Stage → Option Target
  | .entering t | .inside t _ => some t
  | _ => none

/-- The server process: the shared streams, the stage of each call by its id, and the
writes the threads of each call's code have still to make. -/
structure Server where
  streams : Streams
  stage : Nat → Stage
  threads : Nat → List PyStr

/-- The process before any request: every call queued, none of its threads started. -/
def Server.init (calls : List Effects) : Server :=
  ⟨.init, fun _ => .queued, fun i => (calls[i]?.map Effects.threadWrites).getD []⟩

/-- The calls among the first `n` that hold a worker. -/
def busy (n : Nat) (s : Server) : Nat :=
  (List.range n).countP fun j => (s.stage j).isActive

/-- One statement of one thread. -/
inductive Event where
  /-- call `i`'s worker thread runs its next statement -/
  | call (i : Nat)
  /-- a thread that call `i`'s code started writes -/
  | thread (i : Nat)
  deriving DecidableEq, Repr

/-- One step on a pool of `workers` threads, where call `i`'s code does `calls[i]`.

- `queued`: with a worker free, `output_buffer = io.StringIO()` (code_interpreter.py:17)
  and `__enter__`'s first statement, which saves the `sys.stdout` it reads. Creating the
  buffer in the same step is invisible: no other thread can reach it yet.
- `entering`: `__enter__`'s second statement, `sys.stdout = output_buffer`; `exec` starts.
- `inside`: the code's next write; with none left, `__exit__` restores the saved target,
  unless the code never returns.
- `exited`: the next write of `__str__` in the handler; with none left, the call answers
  (`finish`): `getvalue()` after completion, the handler's dict, or the exception.
- a thread event: the next write of a thread of call `i`'s code, once `exec` has started,
  to wherever `sys.stdout` is, also after the call has answered. -/
def step (workers : Nat) (calls : List Effects) (s : Server) : Event → Server
  | .call i =>
    match calls[i]?, s.stage i with
    | some _, .queued =>
      if busy calls.length s < workers then
        ⟨s.streams.stringIO (.buffer i), Function.update s.stage i (.entering s.streams.stdout),
          s.threads⟩
      else s
    | some c, .entering saved =>
      ⟨s.streams.setStdout (.buffer i), Function.update s.stage i (.inside saved c.exec.writes),
        s.threads⟩
    | some _, .inside saved (w :: ws) =>
      ⟨s.streams.write w, Function.update s.stage i (.inside saved ws), s.threads⟩
    | some c, .inside saved [] =>
      if c.returns then
        ⟨s.streams.redirectExit saved, Function.update s.stage i (.exited c.handlerWrites),
          s.threads⟩
      else s
    | some _, .exited (w :: ws) =>
      ⟨s.streams.write w, Function.update s.stage i (.exited ws), s.threads⟩
    | some c, .exited [] =>
      ⟨s.streams, Function.update s.stage i
        (.done (finish c.exec.raised (s.streams.getvalue (.buffer i)))), s.threads⟩
    | _, _ => s
  | .thread i =>
    match (s.stage i).started, s.threads i with
    | true, w :: ws => ⟨s.streams.write w, s.stage, Function.update s.threads i ws⟩
    | _, _ => s

/-- An interleaving: the events, in order. -/
def run (workers : Nat) (calls : List Effects) (s : Server) (sched : List Event) : Server :=
  sched.foldl (step workers calls) s

/-! ## One step -/

section

variable {workers : Nat} {calls : List Effects} {s : Server} {i : Nat} {c : Effects}

theorem step_enter (hc : calls[i]? = some c) (hq : s.stage i = .queued)
    (hb : busy calls.length s < workers) :
    step workers calls s (.call i) = ⟨s.streams.stringIO (.buffer i),
      Function.update s.stage i (.entering s.streams.stdout), s.threads⟩ := by
  simp only [step, hc, hq, if_pos hb]

theorem step_set {saved : Target} (hc : calls[i]? = some c)
    (hp : s.stage i = .entering saved) :
    step workers calls s (.call i) = ⟨s.streams.setStdout (.buffer i),
      Function.update s.stage i (.inside saved c.exec.writes), s.threads⟩ := by
  simp only [step, hc, hp]

theorem step_write {saved : Target} {w : PyStr} {ws : List PyStr} (hc : calls[i]? = some c)
    (hp : s.stage i = .inside saved (w :: ws)) :
    step workers calls s (.call i) =
      ⟨s.streams.write w, Function.update s.stage i (.inside saved ws), s.threads⟩ := by
  simp only [step, hc, hp]

theorem step_exit {saved : Target} (hc : calls[i]? = some c) (hp : s.stage i = .inside saved [])
    (hr : c.returns) :
    step workers calls s (.call i) = ⟨s.streams.setStdout saved,
      Function.update s.stage i (.exited c.handlerWrites), s.threads⟩ := by
  simp only [step, hc, hp, hr, if_true, Streams.redirectExit_eq]

theorem step_handle {w : PyStr} {ws : List PyStr} (hc : calls[i]? = some c)
    (hp : s.stage i = .exited (w :: ws)) :
    step workers calls s (.call i) =
      ⟨s.streams.write w, Function.update s.stage i (.exited ws), s.threads⟩ := by
  simp only [step, hc, hp]

theorem step_finish (hc : calls[i]? = some c) (hp : s.stage i = .exited []) :
    step workers calls s (.call i) = ⟨s.streams, Function.update s.stage i
      (.done (finish c.exec.raised (s.streams.contents (.buffer i)))), s.threads⟩ := by
  simp only [step, hc, hp, Streams.getvalue_eq]

theorem step_thread {w : PyStr} {ws : List PyStr} (hs : (s.stage i).started)
    (ht : s.threads i = w :: ws) :
    step workers calls s (.thread i) =
      ⟨s.streams.write w, s.stage, Function.update s.threads i ws⟩ := by
  simp only [step, hs, ht]

/-- **What a call's step can do**: nothing, or one move of call `i`, which has code: be
picked up and read `sys.stdout` (while a worker is free), set it, write, leave the block
(if the code returns), write from the handler, or answer. -/
theorem call_cases (workers : Nat) (calls : List Effects) (s : Server) (i : Nat) :
    step workers calls s (.call i) = s ∨ ∃ c, calls[i]? = some c ∧
      ((s.stage i = .queued ∧ busy calls.length s < workers ∧
          step workers calls s (.call i) = ⟨s.streams.stringIO (.buffer i),
            Function.update s.stage i (.entering s.streams.stdout), s.threads⟩) ∨
        (∃ saved, s.stage i = .entering saved ∧ step workers calls s (.call i) =
          ⟨s.streams.setStdout (.buffer i),
            Function.update s.stage i (.inside saved c.exec.writes), s.threads⟩) ∨
        (∃ saved w ws, s.stage i = .inside saved (w :: ws) ∧ step workers calls s (.call i) =
          ⟨s.streams.write w, Function.update s.stage i (.inside saved ws), s.threads⟩) ∨
        (∃ saved, s.stage i = .inside saved [] ∧ c.returns ∧ step workers calls s (.call i) =
          ⟨s.streams.setStdout saved,
            Function.update s.stage i (.exited c.handlerWrites), s.threads⟩) ∨
        (∃ w ws, s.stage i = .exited (w :: ws) ∧ step workers calls s (.call i) =
          ⟨s.streams.write w, Function.update s.stage i (.exited ws), s.threads⟩) ∨
        (s.stage i = .exited [] ∧ step workers calls s (.call i) = ⟨s.streams,
          Function.update s.stage i
            (.done (finish c.exec.raised (s.streams.contents (.buffer i)))), s.threads⟩)) := by
  cases hc : calls[i]? with
  | none => exact .inl (by simp only [step, hc])
  | some c =>
    cases hp : s.stage i with
    | queued =>
      by_cases hb : busy calls.length s < workers
      · exact .inr ⟨c, rfl, .inl ⟨rfl, hb, step_enter hc hp hb⟩⟩
      · exact .inl (by simp only [step, hc, hp, if_neg hb])
    | entering saved => exact .inr ⟨c, rfl, .inr (.inl ⟨saved, rfl, step_set hc hp⟩)⟩
    | inside saved ws =>
      cases ws with
      | cons w ws => exact .inr ⟨c, rfl, .inr (.inr (.inl ⟨saved, w, ws, rfl, step_write hc hp⟩))⟩
      | nil =>
        cases hr : c.returns
        · exact .inl (by simp [step, hc, hp, hr])
        · exact .inr ⟨c, rfl, .inr (.inr (.inr (.inl ⟨saved, rfl, hr, step_exit hc hp hr⟩)))⟩
    | exited ws =>
      cases ws with
      | cons w ws => exact .inr ⟨c, rfl, .inr (.inr (.inr (.inr (.inl ⟨w, ws, rfl, step_handle hc hp⟩))))⟩
      | nil => exact .inr ⟨c, rfl, .inr (.inr (.inr (.inr (.inr ⟨rfl, step_finish hc hp⟩))))⟩
    | done r => exact .inl (by simp only [step, hc, hp])

/-- **What a thread's step can do**: nothing, or, once `exec` has started, write the next
of its writes. -/
theorem thread_cases (workers : Nat) (calls : List Effects) (s : Server) (i : Nat) :
    step workers calls s (.thread i) = s ∨ ∃ w ws, (s.stage i).started ∧ s.threads i = w :: ws ∧
      step workers calls s (.thread i) =
        ⟨s.streams.write w, s.stage, Function.update s.threads i ws⟩ := by
  cases hs : (s.stage i).started with
  | false => exact .inl (by simp only [step, hs])
  | true =>
    cases ht : s.threads i with
    | nil => exact .inl (by simp only [step, hs, ht])
    | cons w ws => exact .inr ⟨w, ws, rfl, rfl, step_thread hs ht⟩

/-- A move of call `i`, which has code, leaves each call without code where it was. -/
theorem update_of_getElem?_none {α β : Type} {l : List α} {a : α} {φ : Nat → β} {v : β}
    {j : Nat} (hi : l[i]? = some a) (hj : l[j]? = none) : Function.update φ i v j = φ j :=
  Function.update_noteq (fun hji => by rw [hji, hi] at hj; cases hj) v φ

end

/-! ## `ThreadPool` inside the process -/

/-- Code that does only what `o` says: it returns, its `__str__` prints nothing, and it
starts no thread that writes. -/
def Effects.ofOutcome (o : ExecOutcome) : Effects :=
  ⟨o, true, [], []⟩

end Process

end McpNg

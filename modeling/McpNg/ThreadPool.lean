import McpNg.Interpreter

/-!
# Concurrent calls on one `sys.stdout`

`serve` (server.py:94) runs every RPC on a `ThreadPoolExecutor(max_workers=10)`, so up to
ten `code_interpreter` calls are in flight at once, and all of them redirect the same
process-wide `sys.stdout`. Here a call moves in four kinds of step, and the scheduler may
interleave the steps of different calls in any order:

- a worker picks the call up, creates its `io.StringIO` and enters `redirect_stdout`,
  saving the current `sys.stdout` (only while fewer calls than workers are in flight);
- each write of the code lands on whatever `sys.stdout` is at that moment;
- `__exit__` restores the target the call saved;
- `getvalue` (or the handler) produces the call's result.

That is coarser than the process. The two statements of `__enter__` run back to back, and
the code writes only from inside its own block, always returns, and has no `__str__` that
prints. `Process` drops these restrictions, and every run here is a run there
(`Process.simulates_pool`), so what this module shows can happen does happen.

With two workers or more a call is not isolated (`concurrent_calls_leak`): a call that
enters while another is inside saves the other's buffer, takes its writes, and on leaving
points `sys.stdout` at a buffer nobody reads. `Nested` says when a schedule uses the blocks
as a stack, a call writing and leaving only while `sys.stdout` is its own buffer; every
schedule on one worker does (`one_worker_nested`, in `Process.OneWorker`).
-/

namespace McpNg

namespace ThreadPool

/-- Where one call is in `code_interpreter`. -/
inductive Phase where
  /-- waiting for a worker -/
  | queued
  /-- inside `with redirect_stdout(output_buffer)`: the target `__enter__` saved, and the
  writes the code has still to make -/
  | inside (saved : Target) (pending : List PyStr)
  /-- `__exit__` done: `getvalue` or the handler is next -/
  | exited
  /-- returned or raised `r` -/
  | done (r : Except PyExc ResultDict)

/-- The pool `serve` creates (server.py:94): `futures.ThreadPoolExecutor(max_workers=10)`. -/
def maxWorkers : Nat := 10

/-- A call holding a worker. -/
def Phase.isActive : Phase → Bool
  | .inside _ _ => true
  | .exited => true
  | _ => false

/-- The server process: the shared streams, and the phase of each call by its id. -/
structure Server where
  streams : Streams
  phase : Nat → Phase

/-- The process before any request: every call queued. -/
def Server.init : Server :=
  ⟨.init, fun _ => .queued⟩

/-- The calls among the first `n` that hold a worker. -/
def busy (n : Nat) (s : Server) : Nat :=
  (List.range n).countP fun j => (s.phase j).isActive

/-- Call `i` takes its next step on a pool of `workers` threads, where call `i`'s code
does `calls[i]`. Entering runs the two statements of `__enter__` back to back, which the
process need not do; `Process.step` takes them apart. -/
def step (workers : Nat) (calls : List ExecOutcome) (s : Server) (i : Nat) : Server :=
  match calls[i]?, s.phase i with
  | some o, .queued =>
    if busy calls.length s < workers then
      let (saved, σ) := (s.streams.stringIO (.buffer i)).redirectEnter (.buffer i)
      ⟨σ, Function.update s.phase i (.inside saved o.writes)⟩
    else s
  | some _, .inside saved (w :: ws) =>
    ⟨s.streams.write w, Function.update s.phase i (.inside saved ws)⟩
  | some _, .inside saved [] =>
    ⟨s.streams.redirectExit saved, Function.update s.phase i .exited⟩
  | some o, .exited =>
    ⟨s.streams, Function.update s.phase i
      (.done (finish o.raised (s.streams.getvalue (.buffer i))))⟩
  | _, _ => s

/-- A schedule: the ids of the calls that step, in order. -/
def run (workers : Nat) (calls : List ExecOutcome) (s : Server) (sched : List Nat) :
    Server :=
  sched.foldl (step workers calls) s

/-- Call `i` is inside its block. -/
def Phase.isInside : Phase → Bool
  | .inside _ _ => true
  | _ => false

/-- Call `i` may take its step as the stack of blocks requires: a call inside its block
writes and leaves only while `sys.stdout` is its own buffer. -/
def Turn (s : Server) (i : Nat) : Prop :=
  (s.phase i).isInside → s.streams.stdout = .buffer i

instance (s : Server) (i : Nat) : Decidable (Turn s i) :=
  inferInstanceAs (Decidable ((s.phase i).isInside = true → s.streams.stdout = .buffer i))

/-- A schedule that uses the blocks as a stack: every step is its call's turn. -/
def Nested (workers : Nat) (calls : List ExecOutcome) : Server → List Nat → Prop
  | _, [] => True
  | s, i :: sched => Turn s i ∧ Nested workers calls (step workers calls s i) sched

instance Nested.decidable (workers : Nat) (calls : List ExecOutcome) :
    ∀ s sched, Decidable (Nested workers calls s sched)
  | _, [] => inferInstanceAs (Decidable True)
  | s, i :: sched =>
    have := Nested.decidable workers calls (step workers calls s i) sched
    inferInstanceAs (Decidable (Turn s i ∧ Nested workers calls (step workers calls s i) sched))

/-! ## One step -/

section

variable {workers : Nat} {calls : List ExecOutcome} {s : Server} {i : Nat} {o : ExecOutcome}

theorem step_enter (hc : calls[i]? = some o) (hq : s.phase i = .queued)
    (hb : busy calls.length s < workers) :
    step workers calls s i =
      ⟨(s.streams.stringIO (.buffer i)).setStdout (.buffer i),
        Function.update s.phase i (.inside s.streams.stdout o.writes)⟩ := by
  simp only [step, hc, hq, if_pos hb]
  rfl

theorem step_write {saved : Target} {w : PyStr} {ws : List PyStr} (hc : calls[i]? = some o)
    (hp : s.phase i = .inside saved (w :: ws)) :
    step workers calls s i = ⟨s.streams.write w, Function.update s.phase i (.inside saved ws)⟩ := by
  simp only [step, hc, hp]

theorem step_exit {saved : Target} (hc : calls[i]? = some o) (hp : s.phase i = .inside saved []) :
    step workers calls s i = ⟨s.streams.setStdout saved, Function.update s.phase i .exited⟩ := by
  simp only [step, hc, hp]
  rfl

theorem step_finish (hc : calls[i]? = some o) (hp : s.phase i = .exited) :
    step workers calls s i =
      ⟨s.streams, Function.update s.phase i
        (.done (finish o.raised (s.streams.contents (.buffer i))))⟩ := by
  simp only [step, hc, hp]
  rfl

end

/-! ## Two calls, two workers -/

/-- Two calls: the first writes `"a"`, the second `"b"`. -/
def leakCalls : List ExecOutcome :=
  [⟨["a"], none⟩, ⟨["b"], none⟩]

/-- Call 0 enters, call 1 enters, call 0 writes, leaves and reads its buffer; then call 1
writes, leaves and reads its buffer. -/
def leakSchedule : List Nat :=
  [0, 1, 0, 0, 0, 1, 1, 1]

/-- **Output leaks between concurrent calls** on the server's pool of `maxWorkers`
threads. Call 0 enters, then call 1 enters and saves call 0's buffer, so call 0's write
of `"a"` lands in call 1's buffer. Call 0 returns `""`, call 1 returns `"a"` instead of
its own `"b"`, `"b"` reaches the process's own output, and `sys.stdout` is left pointing
at call 0's buffer, which nobody reads any more. -/
theorem concurrent_calls_leak :
    (run maxWorkers leakCalls .init leakSchedule).streams.contents (.buffer 1) = "a" ∧
      (run maxWorkers leakCalls .init leakSchedule).phase 0 = .done (.ok (.result [])) ∧
      (run maxWorkers leakCalls .init leakSchedule).phase 1 = .done (.ok (.result "a")) ∧
      (run maxWorkers leakCalls .init leakSchedule).streams.contents .original = "b" ∧
      (run maxWorkers leakCalls .init leakSchedule).streams.stdout = .buffer 0 :=
  ⟨rfl, rfl, rfl, rfl, rfl⟩

end ThreadPool

end McpNg

import McpNg.Python
import Mathlib.Logic.Function.Basic

/-!
# `sys.stdout`, `io.StringIO` and `contextlib.redirect_stdout`

The process has a single `sys.stdout`, and `redirect_stdout(buf)` swaps it for the whole
process: `__enter__` saves the current target on the manager's `_old_targets` and sets
`sys.stdout = buf`; `__exit__` restores the saved target, whether the block completed or
raised. A `print` in any thread writes to whatever `sys.stdout` is at that moment.

`Streams` is that shared state: where `sys.stdout` points, and what every stream holds.
Each operation below is one Python statement (`write`, `getvalue` and the assignment to
`sys.stdout` each run under the GIL without a thread switch inside them), except
`redirectEnter`: `__enter__` is two statements,
`self._old_targets.append(getattr(sys, self._stream))` and then
`setattr(sys, self._stream, self._new_target)`, and another thread may run between them.
`redirectEnter` is their effect when none does, as in a call run alone (`codeInterpreter`)
and in `ThreadPool`; `Process` runs them as two steps.
-/

namespace McpNg

/-- A text stream `sys.stdout` can point at: the process's own standard output, or the
`io.StringIO` buffer created by call `i` (code_interpreter.py:17). -/
inductive Target where
  | original
  | buffer (i : Nat)
  deriving DecidableEq, Repr

/-- The process-wide output state. -/
structure Streams where
  /-- the current `sys.stdout` -/
  stdout : Target
  /-- the text each stream holds -/
  contents : Target → PyStr

namespace Streams

/-- The process at start: `sys.stdout` is its own output, and nothing is written yet. -/
def init : Streams :=
  ⟨.original, fun _ => []⟩

variable (σ : Streams) (s : PyStr) (t : Target)

/-- `sys.stdout.write(s)`: append `s` to the stream `sys.stdout` points at now. -/
def write : Streams :=
  { σ with contents := Function.update σ.contents σ.stdout (σ.contents σ.stdout ++ s) }

/-- `io.StringIO()`: a new, empty buffer `t`. -/
def stringIO : Streams :=
  { σ with contents := Function.update σ.contents t [] }

/-- `setattr(sys, "stdout", t)`, the one assignment both halves of `redirect_stdout` make. -/
def setStdout : Streams :=
  { σ with stdout := t }

/-- `redirect_stdout(t).__enter__()` with no other thread running between its two
statements: the saved target, and `sys.stdout = t`. -/
def redirectEnter : Target × Streams :=
  (σ.stdout, σ.setStdout t)

/-- `redirect_stdout(...).__exit__()`: `sys.stdout` back to the saved target `t`. -/
def redirectExit : Streams :=
  σ.setStdout t

/-- `t.getvalue()`. -/
def getvalue : PyStr :=
  σ.contents t

/-- The code's writes, one after another. -/
def writeAll (ws : List PyStr) : Streams :=
  ws.foldl write σ

@[simp] theorem write_stdout : (σ.write s).stdout = σ.stdout := rfl

@[simp] theorem write_contents_stdout :
    (σ.write s).contents σ.stdout = σ.contents σ.stdout ++ s :=
  Function.update_same _ _ _

theorem write_contents_of_ne {t : Target} (h : t ≠ σ.stdout) :
    (σ.write s).contents t = σ.contents t :=
  Function.update_noteq h _ _

@[simp] theorem stringIO_stdout : (σ.stringIO t).stdout = σ.stdout := rfl

@[simp] theorem stringIO_contents_self : (σ.stringIO t).contents t = [] :=
  Function.update_same _ _ _

theorem stringIO_contents_of_ne {u : Target} (h : u ≠ t) :
    (σ.stringIO t).contents u = σ.contents u :=
  Function.update_noteq h _ _

/-- A new buffer in place of an empty one changes nothing. -/
theorem stringIO_of_empty (h : σ.contents t = []) : σ.stringIO t = σ := by
  unfold stringIO
  rw [← h, Function.update_eq_self]

@[simp] theorem setStdout_stdout : (σ.setStdout t).stdout = t := rfl

@[simp] theorem setStdout_contents : (σ.setStdout t).contents = σ.contents := rfl

@[simp] theorem redirectEnter_fst : (σ.redirectEnter t).1 = σ.stdout := rfl

@[simp] theorem redirectEnter_snd : (σ.redirectEnter t).2 = σ.setStdout t := rfl

@[simp] theorem redirectExit_eq : σ.redirectExit t = σ.setStdout t := rfl

@[simp] theorem getvalue_eq : σ.getvalue t = σ.contents t := rfl

@[simp] theorem writeAll_nil : σ.writeAll [] = σ := rfl

@[simp] theorem writeAll_cons (ws : List PyStr) :
    σ.writeAll (s :: ws) = (σ.write s).writeAll ws := rfl

/-- Writing never moves `sys.stdout`. -/
@[simp] theorem writeAll_stdout (ws : List PyStr) : (σ.writeAll ws).stdout = σ.stdout := by
  induction ws generalizing σ with
  | nil => rfl
  | cons w ws ih => simp [ih]

/-- A run of writes lands, in order, on the stream `sys.stdout` points at. -/
@[simp] theorem writeAll_contents_stdout (ws : List PyStr) :
    (σ.writeAll ws).contents σ.stdout = σ.contents σ.stdout ++ ws.flatten := by
  induction ws generalizing σ with
  | nil => simp
  | cons w ws ih => simpa using ih (σ.write w)

/-- ... and touches no other stream. -/
theorem writeAll_contents_of_ne (ws : List PyStr) {t : Target} (h : t ≠ σ.stdout) :
    (σ.writeAll ws).contents t = σ.contents t := by
  induction ws generalizing σ with
  | nil => rfl
  | cons w ws ih =>
    rw [writeAll_cons, ih _ (by simpa using h), write_contents_of_ne _ _ h]

end Streams

end McpNg

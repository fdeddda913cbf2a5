import McpNg.Stdout

/-!
# `code_interpreter`

code_interpreter.py:7–32, on the shared streams of `Stdout`:

```
output_buffer = io.StringIO()
try:
    with redirect_stdout(output_buffer):
        exec(code)
    captured_output = output_buffer.getvalue()
    return {"result": captured_output}
except Exception as e:
    return {"error": f"Ошибка выполнения кода: {type(e).__name__}: {e}"}
```

`codeInterpreter` is that function, state-passing: it takes the identity of the buffer
the call creates and the streams as the call finds them, and returns what the function
returns or raises together with the streams as it leaves them. Run alone, a call answers
`finish` of exactly the text its code wrote, whatever the streams held before
(`codeInterpreter_fst`); that is the answer the pool models compare every call with. What a
call does when other calls, or threads of its own code, run beside it is the subject of
`ThreadPool` and `Process`.
-/

namespace McpNg

/-- The two dicts `code_interpreter` returns: `{"result": ...}` and `{"error": ...}`. -/
inductive ResultDict where
  | result (s : PyStr)
  | error (m : PyStr)
  deriving DecidableEq, Repr

/-- The fixed head of the error text ("error executing code: "). -/
def errorPrefix : PyStr :=
  "Ошибка выполнения кода: "

/-- The f-string `f"Ошибка выполнения кода: {type(e).__name__}: {e}"` once `str(e)`
has returned `msg`. -/
def errorText (cls : ExcClass) (msg : PyStr) : PyStr :=
  errorPrefix ++ cls.name ++ PyStr.ofString ": " ++ msg

/-- The handler `except Exception as e:` (code_interpreter.py:30–32). Formatting `{e}`
calls `str(e)`; if that raises, the new exception propagates out of the handler. What a
`__str__` of the user's prints on the way goes to `sys.stdout`, which `__exit__` has just
restored; that is not part of the answer, and `Process.step` models it. -/
def handleException (e : PyExc) : Except PyExc ResultDict :=
  match e.str with
  | .ok msg => .ok (.error (errorText e.cls msg))
  | .error inner => .error inner

/-- What `code_interpreter` does once the `with` block is left, given how `exec` ended
and the buffer's text at that moment: `{"result": output_buffer.getvalue()}` after normal
completion, the handler's dict for an `Exception`, and an exception derived from
`BaseException` alone propagates (`except Exception` does not catch it). -/
def finish (raised : Option PyExc) (captured : PyStr) : Except PyExc ResultDict :=
  match raised with
  | none => .ok (.result captured)
  | some e => if e.cls.isException then handleException e else .error e

/-- `code_interpreter(code)`, where running `code` does `o`: `buf` is the `io.StringIO`
the call creates, `σ` the streams the call finds. -/
def codeInterpreter (buf : Target) (o : ExecOutcome) (σ : Streams) :
    Except PyExc ResultDict × Streams :=
  let (saved, σ) := (σ.stringIO buf).redirectEnter buf
  let σ := (σ.writeAll o.writes).redirectExit saved
  (finish o.raised (σ.getvalue buf), σ)

/-! ## The handler -/

@[simp] theorem finish_none (c : PyStr) : finish none c = .ok (.result c) := rfl

theorem finish_some (e : PyExc) (c : PyStr) :
    finish (some e) c = if e.cls.isException then handleException e else .error e := rfl

/-- The error text is never empty: it starts with the fixed prefix. -/
theorem errorText_ne_nil (cls : ExcClass) (msg : PyStr) : errorText cls msg ≠ [] := by
  simp [errorText, errorPrefix, PyStr.ofString]

/-- The error text encodes exactly when the class name and the message do. -/
@[simp] theorem errorText_encodable (cls : ExcClass) (msg : PyStr) :
    (errorText cls msg).Encodable ↔ cls.name.Encodable ∧ msg.Encodable := by
  simp [errorText, errorPrefix, PyStr.encodable_ofString]

/-! ## A call run alone -/

section

variable (buf : Target) (o : ExecOutcome) (σ : Streams)

/-- The streams a call leaves, written out. -/
theorem codeInterpreter_snd :
    (codeInterpreter buf o σ).2 =
      (((σ.stringIO buf).setStdout buf).writeAll o.writes).setStdout σ.stdout := rfl

/-- The buffer ends holding exactly the code's output, whatever it held before. -/
theorem codeInterpreter_buffer : (codeInterpreter buf o σ).2.contents buf = o.output := by
  have h := Streams.writeAll_contents_stdout ((σ.stringIO buf).setStdout buf) o.writes
  simpa [codeInterpreter_snd, ExecOutcome.output] using h

/-- The result is `finish` of the code's own output. -/
theorem codeInterpreter_fst : (codeInterpreter buf o σ).1 = finish o.raised o.output := by
  show finish o.raised ((codeInterpreter buf o σ).2.contents buf) = _
  rw [codeInterpreter_buffer]

end

end McpNg

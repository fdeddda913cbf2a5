import McpNg.Interpreter
import McpNg.Protobuf

/-!
# `CodeInterpreterTool.Run`: the adapter boundary

server.py:52–78. `Run` reads `code` from the request's argument `Struct`, answers an empty
or non-string argument with an error, calls `code_interpreter`, and packs the dict it
returns into a `ToolRunResponse`: the error text into `error`, the captured output through
`ParseDict` into the `Value` `result`.

What the boundary guarantees:
- `run_answers_exactly_one`: when the `code` key is present and the code completes with
  output protobuf can carry, or raises an `Exception` whose name and `str` protobuf can
  carry, `Run` returns, with exactly one of `result` and a non-empty `error` set.
- `run_refines_codeInterpreter`: for non-empty code, `Run` answers `{"result": s}` with the
  string value `s` (`""` included) and `{"error": m}` with `error = m` and no `result`,
  leaving the streams as `code_interpreter` left them.

What it does not: `except Exception` lets an exception derived from `BaseException` alone
(`SystemExit`) through, a `__str__` that raises escapes from the handler, and a lone
surrogate in the output or the message makes the protobuf assignment raise
(`run_faults_escape`); the empty program is refused before it runs, although
`code_interpreter("")` succeeds (`run_refuses_empty_code`); and a request with no `code`
key raises `AttributeError` where the check meant to answer it (`run_of_code_none`).
-/

namespace McpNg

/-- The outcomes of running the code that the boundary turns into a response: completion
with output protobuf can carry, or an `Exception` whose class name and `str` protobuf can
carry. -/
def ExecOutcome.Reportable (o : ExecOutcome) : Prop :=
  match o.raised with
  | none => o.output.Encodable
  | some e => e.cls.isException = true ∧ e.cls.name.Encodable ∧
    match e.str with
    | .ok msg => msg.Encodable
    | .error _ => False

instance : DecidablePred ExecOutcome.Reportable := fun o =>
  match o with
  | ⟨_, none⟩ => inferInstanceAs (Decidable (PyStr.Encodable _))
  | ⟨_, some (.returning cls msg)⟩ =>
    inferInstanceAs (Decidable (cls.isException = true ∧ cls.name.Encodable ∧ msg.Encodable))
  | ⟨_, some (.raising cls _)⟩ =>
    inferInstanceAs (Decidable (cls.isException = true ∧ cls.name.Encodable ∧ False))

namespace CodeInterpreterTool

/-- What `None.string_value` raises. -/
def noneAttributeError : PyExc :=
  .builtin "AttributeError" "\x27NoneType\x27 object has no attribute \x27string_value\x27"

/-- `args.fields.get("code").string_value` (server.py:59): `get` answers `None` for an
absent key, and `None` has no `string_value`. -/
def codeArgument (arguments : Struct) : Except PyExc PyStr :=
  match arguments.get "code" with
  | some v => .ok v.getStringValue
  | none => .error noneAttributeError

/-- The answer to an empty `code` (server.py:60–62). -/
def invalidCodeResponse : ToolRunResponse :=
  { error := PbStr.ofString "Invalid or missing \x27code\x27 argument" }

/-- server.py:68–76: the dict `code_interpreter` returned, as a `ToolRunResponse`. -/
def package : ResultDict → Except PyExc ToolRunResponse
  | .error m => do
    let error ← PbStr.ofPy m
    pure { error := error }
  | .result s => do
    let resultValue ← parseDict (.dict [("result", .str s)])
    pure { result := some (resultValue.structField "result") }

/-- `CodeInterpreterTool.Run` (server.py:52–78), where running a code string `c` does
`exec c`; `buf` is the buffer its `code_interpreter` creates, `σ` the process streams. -/
def run (exec : PyStr → ExecOutcome) (buf : Target) (arguments : Struct) (σ : Streams) :
    Except PyExc ToolRunResponse × Streams :=
  match codeArgument arguments with
  | .error e => (.error e, σ)
  | .ok code =>
    if code = [] then (.ok invalidCodeResponse, σ)
    else
      let (resultDict, σ) := codeInterpreter buf (exec code) σ
      (resultDict >>= package, σ)

/-- The arguments the tests build, `{"code": c}`. -/
def codeArguments (c : String) : Struct :=
  ⟨[(PbStr.ofString "code", .stringValue (PbStr.ofString c))], List.nodup_singleton _⟩

/-! ## Packing a result -/

theorem structField_singleton (k : PbStr) (v : Value) :
    (Value.structValue [(k, v)]).structField k.val = v := by
  simp [Value.structField]

theorem package_result_of_encodable {s : PyStr} (h : s.Encodable) :
    package (.result s) = .ok { result := some (.stringValue ⟨s, h⟩) } := by
  simp only [package, parseDict_singleton, PbStr.ofPy_of_encodable h,
    PbStr.ofPy_of_encodable (PyStr.encodable_ofString "result")]
  exact congrArg (fun v => (Except.ok { result := some v } : Except PyExc ToolRunResponse))
    (structField_singleton (PbStr.ofString "result") _)

theorem package_result_of_not_encodable {s : PyStr} (h : ¬ s.Encodable) :
    package (.result s) = .error encodeError := by
  simp only [package, parseDict_singleton, PbStr.ofPy_of_not_encodable h,
    PbStr.ofPy_of_encodable (PyStr.encodable_ofString "result")]
  rfl

theorem package_error_of_encodable {m : PyStr} (h : m.Encodable) :
    package (.error m) = .ok { error := ⟨m, h⟩ } := by
  simp only [package, PbStr.ofPy_of_encodable h]
  rfl

theorem package_error_of_not_encodable {m : PyStr} (h : ¬ m.Encodable) :
    package (.error m) = .error encodeError := by
  simp only [package, PbStr.ofPy_of_not_encodable h]
  rfl

/-! ## What `Run` does -/

section

variable (exec : PyStr → ExecOutcome) (buf : Target) (σ : Streams)

/-- `Run` on a request holding `v` under `code`. -/
theorem run_of_code {arguments : Struct} {v : Value} (hv : arguments.get "code" = some v) :
    run exec buf arguments σ =
      if v.getStringValue = [] then (.ok invalidCodeResponse, σ)
      else ((codeInterpreter buf (exec v.getStringValue) σ).1 >>= package,
        (codeInterpreter buf (exec v.getStringValue) σ).2) := by
  simp only [run, codeArgument, hv]

/-- Without a `code` key, `get` returns `None` and reading `.string_value` from it raises. -/
theorem run_of_code_none {arguments : Struct} (hv : arguments.get "code" = none) :
    run exec buf arguments σ = (.error noneAttributeError, σ) := by
  simp only [run, codeArgument, hv]

theorem codeArguments_get (c : String) :
    (codeArguments c).get "code" = some (.stringValue (PbStr.ofString c)) := by
  simp [codeArguments, Struct.get, PbStr.ofString]

/-- The answer to an empty `code` has exactly one field set. -/
theorem invalidCodeResponse_exactlyOne : invalidCodeResponse.ExactlyOne :=
  .inr ⟨rfl, by simp [invalidCodeResponse, PbStr.ofString, PyStr.ofString]⟩

/-- Inversion: a finished call packs into a response only as its output in the string
`result`, or as its handler's text in `error` for an `Exception` whose `str` returned. -/
theorem finish_package_inv {o : ExecOutcome} {resp : ToolRunResponse}
    (h : (finish o.raised o.output >>= package) = .ok resp) :
    (o.raised = none ∧
        ∃ hs : o.output.Encodable, resp = { result := some (.stringValue ⟨_, hs⟩) }) ∨
      ∃ cls msg, o.raised = some (.returning cls msg) ∧ cls.isException = true ∧
        ∃ hm : (errorText cls msg).Encodable, resp = { error := ⟨_, hm⟩ } := by
  rcases o with ⟨ws, _ | e⟩
  · -- the code completed: its output must encode
    dsimp only at h
    rw [finish_none, ok_bind] at h
    by_cases hs : (ExecOutcome.output ⟨ws, none⟩).Encodable
    · rw [package_result_of_encodable hs] at h
      exact .inl ⟨rfl, hs, (Except.ok.inj h).symm⟩
    · rw [package_result_of_not_encodable hs] at h
      cases h
  · dsimp only at h
    rw [finish_some] at h
    by_cases hexc : e.cls.isException = true
    · rw [if_pos hexc] at h
      rcases e with ⟨cls, msg⟩ | ⟨cls, inner⟩
      · -- `str(e)` returned: the handler's text must encode
        rw [show handleException (.returning cls msg) = .ok (.error (errorText cls msg)) from rfl,
          ok_bind] at h
        by_cases hm : (errorText cls msg).Encodable
        · rw [package_error_of_encodable hm] at h
          exact .inr ⟨cls, msg, rfl, hexc, hm, (Except.ok.inj h).symm⟩
        · rw [package_error_of_not_encodable hm] at h
          cases h
      · -- `str(e)` raised, out of the handler
        rw [show handleException (.raising cls inner) = .error inner from rfl] at h
        cases h
    · -- a `BaseException` that is no `Exception` is not caught
      rw [if_neg hexc] at h
      cases h

/-- A packed call has exactly one field set. -/
theorem finish_package_exactlyOne {o : ExecOutcome} {resp : ToolRunResponse}
    (h : (finish o.raised o.output >>= package) = .ok resp) : resp.ExactlyOne := by
  rcases finish_package_inv h with ⟨-, -, rfl⟩ | ⟨cls, msg, -, -, -, rfl⟩
  · exact .inl ⟨rfl, rfl⟩
  · exact .inr ⟨rfl, errorText_ne_nil cls msg⟩

/-- Only a reportable outcome packs. -/
theorem finish_package_reportable {o : ExecOutcome} {resp : ToolRunResponse}
    (h : (finish o.raised o.output >>= package) = .ok resp) : o.Reportable := by
  unfold ExecOutcome.Reportable
  rcases finish_package_inv h with ⟨hr, hs, -⟩ | ⟨cls, msg, hr, hexc, hm, -⟩
  · rw [hr]
    exact hs
  · rw [hr]
    exact ⟨hexc, (errorText_encodable cls msg).1 hm⟩

/-- A reportable outcome packs. -/
theorem finish_package_of_reportable {o : ExecOutcome} (h : o.Reportable) :
    ∃ resp, (finish o.raised o.output >>= package) = .ok resp := by
  rcases o with ⟨ws, _ | e⟩
  · -- the code completed: its output becomes `result`
    refine ⟨{ result := some (.stringValue ⟨_, h⟩) }, ?_⟩
    show finish none (ExecOutcome.output ⟨ws, none⟩) >>= package = _
    rw [finish_none, ok_bind]
    exact package_result_of_encodable h
  · obtain ⟨hexc, hname, hmsg⟩ := h
    rcases e with ⟨cls, msg⟩ | ⟨cls, inner⟩
    · -- an `Exception` whose `str` returned: the handler's text becomes `error`
      have hm := (errorText_encodable cls msg).2 ⟨hname, hmsg⟩
      refine ⟨{ error := ⟨_, hm⟩ }, ?_⟩
      show (if cls.isException then handleException (.returning cls msg) else .error _) >>=
        package = _
      rw [if_pos (show cls.isException = true from hexc),
        show handleException (.returning cls msg) = .ok (.error (errorText cls msg)) from rfl,
        ok_bind]
      exact package_error_of_encodable hm
    · exact hmsg.elim

/-- Non-empty code that completes with output holding a surrogate makes `Run` raise:
protobuf cannot hold the output. -/
theorem run_of_output_not_encodable {arguments : Struct} {v : Value}
    (hv : arguments.get "code" = some v) (hne : v.getStringValue ≠ [])
    (hr : (exec v.getStringValue).raised = none)
    (hs : ¬ (exec v.getStringValue).output.Encodable) :
    (run exec buf arguments σ).1 = .error encodeError := by
  rw [run_of_code exec buf σ hv, if_neg hne, codeInterpreter_fst, hr, finish_none, ok_bind]
  exact package_result_of_not_encodable hs

/-- **The boundary answers every reportable outcome.** For every argument `Struct` that
holds a `code` key, whatever value it holds there, and every way the code can run that
completes with output protobuf can carry or raises an `Exception` whose class name and
`str` protobuf can carry, `Run` returns normally, with exactly one of `result` and a
non-empty `error` set. -/
theorem run_answers_exactly_one (arguments : Struct) {v : Value}
    (hv : arguments.get "code" = some v)
    (hexec : v.getStringValue ≠ [] → (exec v.getStringValue).Reportable) :
    ∃ resp, (run exec buf arguments σ).1 = .ok resp ∧ resp.ExactlyOne := by
  rw [run_of_code exec buf σ hv]
  by_cases hc : v.getStringValue = []
  · -- the empty-code check answers
    rw [if_pos hc]
    exact ⟨_, rfl, invalidCodeResponse_exactlyOne⟩
  · rw [if_neg hc, codeInterpreter_fst]
    obtain ⟨resp, h⟩ := finish_package_of_reportable (hexec hc)
    exact ⟨resp, h, finish_package_exactlyOne h⟩

/-- `print(1)` is answered with exactly one field set. -/
theorem run_answers_exactly_one_print :
    (codeArguments "print(1)").get "code" = some (.stringValue (PbStr.ofString "print(1)")) ∧
      ExecOutcome.Reportable ⟨["1\n"], none⟩ ∧
      ∃ resp, (run (fun _ => ⟨["1\n"], none⟩) (.buffer 0) (codeArguments "print(1)") .init).1 =
        .ok resp ∧ resp.ExactlyOne :=
  have h : ExecOutcome.Reportable ⟨["1\n"], none⟩ := by
    simpa [ExecOutcome.Reportable, ExecOutcome.output] using PyStr.encodable_ofString "1\n"
  ⟨codeArguments_get _, h, run_answers_exactly_one _ _ _ _ (codeArguments_get _) (fun _ => h)⟩

/-- Three non-empty programs make `Run` raise instead of answering: `raise SystemExit`
(a `BaseException` that is no `Exception`), an exception whose `__str__` raises
`ValueError`, and a write of the lone surrogate `"\ud800"`. -/
theorem run_faults_escape :
    (run (fun _ => ⟨[], some (.returning ⟨"SystemExit", false⟩ [])⟩) (.buffer 0)
        (codeArguments "raise SystemExit") .init).1 =
      .error (.returning ⟨"SystemExit", false⟩ []) ∧
    (run (fun _ => ⟨[], some (.raising ⟨"E", true⟩ (.builtin "ValueError" "no str"))⟩)
        (.buffer 0) (codeArguments "raise E()") .init).1 =
      .error (.builtin "ValueError" "no str") ∧
    (run (fun _ => ⟨[[loneSurrogate]], none⟩) (.buffer 0)
        (codeArguments "import sys; sys.stdout.write(chr(0xD800))") .init).1 =
      .error encodeError := by
  refine ⟨?_, ?_, run_of_output_not_encodable _ _ _ (codeArguments_get _) (by decide) rfl
    (PyStr.not_encodable_of_mem (List.mem_singleton_self _) loneSurrogate_isSurrogate)⟩ <;>
  · rw [run_of_code _ _ _ (codeArguments_get _), if_neg (by decide)]
    rfl

/-- **`Run` refines `code_interpreter`** on non-empty code: a `{"result": s}` dict becomes
the response whose `result` is the string value `s` and whose `error` is empty (`s = ""`
included), an `{"error": m}` dict the response whose `error` is `m` and which has no
`result`, as long as the text can be encoded; and the streams are left as
`code_interpreter` left them. -/
theorem run_refines_codeInterpreter (arguments : Struct) {c : PbStr}
    (hc : arguments.get "code" = some (.stringValue c)) (hne : c.val ≠ []) :
    (∀ s (hs : s.Encodable), (codeInterpreter buf (exec c.val) σ).1 = .ok (.result s) →
        (run exec buf arguments σ).1 = .ok { result := some (.stringValue ⟨s, hs⟩) }) ∧
      (∀ m (hm : m.Encodable), (codeInterpreter buf (exec c.val) σ).1 = .ok (.error m) →
        (run exec buf arguments σ).1 = .ok { error := ⟨m, hm⟩ }) ∧
      (run exec buf arguments σ).2 = (codeInterpreter buf (exec c.val) σ).2 := by
  have hrun : run exec buf arguments σ =
      ((codeInterpreter buf (exec c.val) σ).1 >>= package,
        (codeInterpreter buf (exec c.val) σ).2) := by
    rw [run_of_code exec buf σ hc,
      if_neg (show (Value.stringValue c).getStringValue ≠ [] from hne)]
    rfl
  refine ⟨fun s hs h => ?_, fun m hm h => ?_, by rw [hrun]⟩ <;> rw [hrun, h] <;> dsimp only <;>
    rw [ok_bind]
  exacts [package_result_of_encodable hs, package_error_of_encodable hm]

/-- `print(1)`: `code_interpreter` returns `{"result": "1\n"}`, and so does `Run`. -/
theorem run_refines_codeInterpreter_print :
    (codeArguments "print(1)").get "code" = some (.stringValue (PbStr.ofString "print(1)")) ∧
      (PbStr.ofString "print(1)").val ≠ [] ∧
      (run (fun _ => ⟨["1\n"], none⟩) (.buffer 0) (codeArguments "print(1)") .init).1 =
        .ok { result := some (.stringValue (PbStr.ofString "1\n")) } :=
  ⟨codeArguments_get _, by decide,
    (run_refines_codeInterpreter _ _ _ _ (codeArguments_get _) (by decide)).1 _ _ rfl⟩

/-- Where `Run` and `code_interpreter` part: the empty program, for which
`code_interpreter` returns `{"result": ""}` and `Run` the invalid-argument error; and a
program writing `"\ud800"`, whose output `code_interpreter` returns and `Run` cannot
pack. -/
theorem run_refuses_empty_code :
    (codeInterpreter (.buffer 0) ⟨[], none⟩ .init).1 = .ok (.result []) ∧
      (run (fun _ => ⟨[], none⟩) (.buffer 0) (codeArguments "") .init).1 =
        .ok invalidCodeResponse ∧
    (codeInterpreter (.buffer 0) ⟨[[loneSurrogate]], none⟩ .init).1 =
        .ok (.result [loneSurrogate]) ∧
      (run (fun _ => ⟨[[loneSurrogate]], none⟩) (.buffer 0)
        (codeArguments "import sys; sys.stdout.write(chr(0xD800))") .init).1 =
        .error encodeError :=
  ⟨rfl, rfl, rfl, run_of_output_not_encodable _ _ _ (codeArguments_get _) (by decide) rfl
    (PyStr.not_encodable_of_mem (List.mem_singleton_self _) loneSurrogate_isSurrogate)⟩

/-- **The boundary, exactly.** Whenever `Run` returns, exactly one of `result` and a
non-empty `error` is set; and it returns exactly when the request holds a `code` key and
that code is empty or runs to a reportable outcome. Every other request raises out of
`Run`. -/
theorem run_returns_iff_reportable (arguments : Struct) :
    (∀ resp, (run exec buf arguments σ).1 = .ok resp → resp.ExactlyOne) ∧
      ((∃ resp, (run exec buf arguments σ).1 = .ok resp) ↔
        ∃ v, arguments.get "code" = some v ∧
          (v.getStringValue ≠ [] → (exec v.getStringValue).Reportable)) := by
  cases hv : arguments.get "code" with
  | none =>
    -- no `code` key: `Run` raises
    rw [run_of_code_none exec buf σ hv]
    exact ⟨fun _ h => (nomatch h), fun ⟨_, h⟩ => (nomatch h), fun ⟨_, h, _⟩ => (nomatch h)⟩
  | some v =>
    rw [run_of_code exec buf σ hv]
    by_cases hc : v.getStringValue = []
    · -- the empty-code check answers
      rw [if_pos hc]
      refine ⟨fun _ h => ?_, fun _ => ⟨v, rfl, fun h => absurd hc h⟩, fun _ => ⟨_, rfl⟩⟩
      rw [← Except.ok.inj h]
      exact invalidCodeResponse_exactlyOne
    · rw [if_neg hc, codeInterpreter_fst]
      refine ⟨fun _ h => finish_package_exactlyOne h,
        fun ⟨_, h⟩ => ⟨v, rfl, fun _ => finish_package_reportable h⟩, ?_⟩
      rintro ⟨w, hw, hr⟩
      cases hw
      exact finish_package_of_reportable (hr hc)

end

end CodeInterpreterTool

end McpNg

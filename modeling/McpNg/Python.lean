import Mathlib.Data.List.Basic

/-!
# The Python values the interpreter tool handles

`code_interpreter` (code_interpreter.py) and its gRPC servicer (server.py) pass three
kinds of Python data around, and each is modelled here by what those functions read of it.

- `str`: a sequence of code points in `0 ..= 0x10FFFF`. Unlike Lean's `Char`, a Python
  code point may be a lone surrogate (`"\ud800"`): `io.StringIO` stores one and an
  exception message may hold one, but protobuf's UTF-8 string fields refuse it
  (`PyStr.Encodable`).
- exceptions: what the handler `except Exception as e` (code_interpreter.py:30–32) reads
  of one, that is the class's `__name__`, whether the class derives from `Exception` or
  only from `BaseException`, and what `str(e)` returns (user code, which may raise in
  turn).
- the outcome of `exec(code)` (code_interpreter.py:23): the strings the code writes to
  `sys.stdout`, in order, and whether it completes or raises. The tool runs arbitrary
  code, so the model quantifies over every outcome rather than interpreting Python.

What the code may do besides (a `__str__` that prints, threads that go on writing,
code that never returns) is not in these types: `Process.Effects` adds it, and only the
results stated over `Process` cover it.
-/

namespace McpNg

/-! ## Strings -/

/-- A Python code point, surrogates included. -/
abbrev CodePoint := Fin 0x110000

/-- A code point of the surrogate block `U+D800 ..= U+DFFF`, which no UTF-8 encodes. -/
def CodePoint.IsSurrogate (c : CodePoint) : Prop :=
  0xD800 ≤ c.val ∧ c.val ≤ 0xDFFF

instance : DecidablePred CodePoint.IsSurrogate :=
  fun c => inferInstanceAs (Decidable (0xD800 ≤ c.val ∧ c.val ≤ 0xDFFF))

/-- The first lone surrogate, `"\ud800"`. -/
def loneSurrogate : CodePoint := ⟨0xD800, by decide⟩

/-- A Python `str`. -/
abbrev PyStr := List CodePoint

/-- `s.encode("utf-8")` succeeds: `s` holds no surrogate. -/
def PyStr.Encodable (s : PyStr) : Prop :=
  ∀ c ∈ s, ¬ c.IsSurrogate

instance : DecidablePred PyStr.Encodable :=
  fun s => inferInstanceAs (Decidable (∀ c ∈ s, ¬ c.IsSurrogate))

/-- A `str` holding a surrogate cannot be encoded. -/
theorem PyStr.not_encodable_of_mem {s : PyStr} {c : CodePoint} (hc : c ∈ s)
    (hs : c.IsSurrogate) : ¬ s.Encodable :=
  fun h => h c hc hs

theorem loneSurrogate_isSurrogate : loneSurrogate.IsSurrogate := by
  decide

@[simp] theorem PyStr.encodable_nil : PyStr.Encodable [] :=
  fun _ h => nomatch h

@[simp] theorem PyStr.encodable_append {s t : PyStr} :
    (s ++ t).Encodable ↔ s.Encodable ∧ t.Encodable :=
  List.forall_mem_append

/-- Every Lean `Char` is a Unicode scalar value: below `0x110000` and no surrogate. -/
theorem char_toNat_valid (c : Char) :
    c.toNat < 0x110000 ∧ ¬ (0xD800 ≤ c.toNat ∧ c.toNat ≤ 0xDFFF) := by
  have h := c.valid
  simp only [UInt32.isValidChar, Nat.isValidChar] at h
  unfold Char.toNat
  omega

/-- A Lean string literal as a Python `str`. -/
def PyStr.ofString (s : String) : PyStr :=
  s.toList.map fun c => ⟨c.toNat, (char_toNat_valid c).1⟩

instance : Coe String PyStr := ⟨PyStr.ofString⟩

/-- A literal never holds a surrogate. -/
theorem PyStr.encodable_ofString (s : String) : (PyStr.ofString s).Encodable := by
  simp only [PyStr.Encodable, PyStr.ofString, List.mem_map]
  rintro _ ⟨c, -, rfl⟩
  exact (char_toNat_valid c).2

/-! ## Exceptions -/

/-- A Python exception class, as the handler `except Exception as e` sees it. -/
structure ExcClass where
  /-- `type(e).__name__` -/
  name : PyStr
  /-- `issubclass(type(e), Exception)`: false for `SystemExit`, `KeyboardInterrupt`,
  `GeneratorExit` and every other class derived from `BaseException` alone. -/
  isException : Bool
  deriving DecidableEq, Repr

/-- A raised exception: its class, and what `str(e)` does with it. -/
inductive PyExc where
  /-- `str(e)` returns `msg`. -/
  | returning (cls : ExcClass) (msg : PyStr)
  /-- `str(e)` raises `inner`: a `__str__` that raises, or one that returns a
  non-`str` (then `str` raises `TypeError`). -/
  | raising (cls : ExcClass) (inner : PyExc)
  deriving DecidableEq, Repr

/-- `type(e)`. -/
def PyExc.cls : PyExc → ExcClass
  | .returning cls _ => cls
  | .raising cls _ => cls

/-- What `str(e)`, which the f-string `{e}` calls, returns or raises. A `__str__` of the
user's may also print on its way; those writes are `Process.Effects.strWrites`. -/
def PyExc.str : PyExc → Except PyExc PyStr
  | .returning _ msg => .ok msg
  | .raising _ inner => .error inner

/-- An exception of a built-in `Exception` subclass whose `str` is `msg`. -/
def PyExc.builtin (name msg : String) : PyExc :=
  .returning ⟨name, true⟩ msg

/-- A computation that returned `a` continues with `f a`. -/
@[simp] theorem ok_bind {α β : Type} (a : α) (f : α → Except PyExc β) :
    (Except.ok a >>= f) = f a :=
  rfl

/-! ## Running the submitted code -/

/-- What `exec(code)` does in the thread that calls it: the strings the code passes to
`sys.stdout.write` before `exec` returns or raises, in order, and whether it completes
(`none`) or raises. Each write goes to whatever `sys.stdout` is at that moment (a `print`,
which looks `sys.stdout` up once for all its parts, counts as one write). That `exec`
returns at all, and that no thread of the code writes, are assumptions of the models built
on this type alone (`codeInterpreter`, `ThreadPool`); `Process.Effects` drops both. -/
structure ExecOutcome where
  writes : List PyStr
  raised : Option PyExc
  deriving DecidableEq, Repr

/-- Everything the code writes, in order. -/
def ExecOutcome.output (o : ExecOutcome) : PyStr :=
  o.writes.flatten

end McpNg

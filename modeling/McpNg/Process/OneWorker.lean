import McpNg.Process

/-!
# One worker

On a pool of one worker the calls never overlap: a call is picked up only once the call
before it has answered. Their code's other effects still cross from one call to the next.

- `Solo` is what a one-worker run keeps true when no call's code starts a thread that
  writes: at most one call holds the worker, `sys.stdout` is the process's own output
  unless a call is inside its block, and each call is where its own code has brought it
  (`CallInv`). Then every call answers what it answers alone, and only a `__str__` that
  prints reaches the process's own output (`one_worker_isolates_threadless_calls`).
- The restriction cannot be dropped. A thread that an earlier call's code started writes
  into the buffer of whichever call has `sys.stdout` when the thread runs (`ghostCalls`),
  so isolation over every interleaving holds on no pool with a worker, and for calls
  without such threads it holds exactly on pools of at most one worker
  (`isolation_iff_one_worker_without_threads`).
- Every `ThreadPool` schedule on one worker uses the blocks as a stack
  (`ThreadPool.one_worker_nested`): through `simulates_pool`, it is a case of `Solo`.
-/

namespace McpNg

namespace Process

/-- No call's code starts a thread that writes. -/
def NoThreads (calls : List Effects) : Prop :=
  ∀ c ∈ calls, c.threadWrites = []

instance (calls : List Effects) : Decidable (NoThreads calls) :=
  inferInstanceAs (Decidable (∀ c ∈ calls, c.threadWrites = []))

/-- What a one-worker run keeps true of call `i`, whose code does `c`, at stage `p`. -/
def CallInv (c : Effects) (σ : Streams) (i : Nat) : Stage → Prop
  | .queued => True
  | .entering saved =>
    saved = .original ∧ σ.stdout = .original ∧ σ.contents (.buffer i) = []
  | .inside saved pending =>
    saved = .original ∧ σ.stdout = .buffer i ∧
      σ.contents (.buffer i) ++ pending.flatten = c.exec.output
  | .exited pending =>
    σ.stdout = .original ∧ σ.contents (.buffer i) = c.exec.output ∧
      pending <:+ c.handlerWrites
  | .done r => r = finish c.exec.raised c.exec.output

/-- The invariant of an idle call does not read the streams. -/
theorem CallInv.streams_irrel {c : Effects} {σ σ' : Streams} {i : Nat} {p : Stage}
    (hp : p.isActive = false) (h : CallInv c σ i p) : CallInv c σ' i p := by
  cases p with
  | queued => trivial
  | done r => exact h
  | entering _ | inside _ _ | exited _ => cases hp

/-- The invariant of a pool with one worker, for calls whose code starts no thread that
writes. -/
structure Solo (calls : List Effects) (s : Server) : Prop where
  /-- only calls that exist leave the queue -/
  queued_of_none : ∀ i, calls[i]? = none → s.stage i = .queued
  /-- at most one call holds the worker -/
  one_active : ∀ i j, (s.stage i).isActive → (s.stage j).isActive → i = j
  /-- `sys.stdout` is the process's own output unless a call is inside its block -/
  stdout : (∀ i saved ws, s.stage i ≠ .inside saved ws) → s.streams.stdout = .original
  /-- no thread is left to write -/
  threads : ∀ i, s.threads i = []
  /-- each call is where its own code has brought it -/
  call : ∀ i c, calls[i]? = some c → CallInv c s.streams i (s.stage i)
  /-- when no `__str__` prints, nothing reaches the process's own output -/
  original : (∀ c ∈ calls, c.strWrites = []) → s.streams.contents .original = []

section

variable {workers : Nat} {calls : List Effects} {s : Server} {i : Nat} {c : Effects}

theorem Solo.init (hq : NoThreads calls) : Solo calls (.init calls) where
  queued_of_none _ _ := rfl
  one_active _ _ h _ := nomatch h
  stdout _ := rfl
  threads j := by
    cases hc : calls[j]? with
    | none => simp [Server.init, hc]
    | some c => simpa [Server.init, hc] using hq c (List.getElem?_mem hc)
  call _ _ _ := trivial
  original _ := rfl

/-- With the worker free, no call is active. -/
theorem Solo.idle (h : Solo calls s) (hb : busy calls.length s = 0) (j : Nat) :
    (s.stage j).isActive = false := by
  by_cases hj : j < calls.length
  · simpa using List.countP_eq_zero.1 hb j (List.mem_range.2 hj)
  · rw [h.queued_of_none j (List.getElem?_eq_none (Nat.le_of_not_lt hj))]
    rfl

/-- While call `i` is active, every other call is idle. -/
theorem Solo.idle_of_active (h : Solo calls s) (hia : (s.stage i).isActive) (j : Nat)
    (hji : j ≠ i) : (s.stage j).isActive = false :=
  Bool.eq_false_iff.2 fun hj => hji (h.one_active j i hj hia)

/-- When every call but `i` is idle, at most one call is active after `i` moves. -/
theorem one_active_update {φ : Nat → Stage} {v : Stage}
    (hidle : ∀ j, j ≠ i → (φ j).isActive = false) (j k : Nat)
    (hj : (Function.update φ i v j).isActive) (hk : (Function.update φ i v k).isActive) :
    j = k := by
  have hi : ∀ l, (Function.update φ i v l).isActive → l = i := fun l hl => by
    by_contra hli
    rw [Function.update_noteq hli, hidle l hli] at hl
    cases hl
  rw [hi j hj, hi k hk]

/-- **A move of call `i` keeps the invariant** once it keeps call `i`'s part, while every
other call is idle: the invariant of an idle call does not read the streams. -/
theorem Solo.move (h : Solo calls s) (hc : calls[i]? = some c)
    (hidle : ∀ j, j ≠ i → (s.stage j).isActive = false) {σ : Streams} {v : Stage}
    (hi : CallInv c σ i v) (hstdout : (∀ saved ws, v ≠ .inside saved ws) → σ.stdout = .original)
    (horig : (∀ c ∈ calls, c.strWrites = []) → σ.contents .original = []) :
    Solo calls ⟨σ, Function.update s.stage i v, s.threads⟩ where
  queued_of_none j hj := (update_of_getElem?_none hc hj).trans (h.queued_of_none j hj)
  one_active := one_active_update hidle
  stdout hno := hstdout fun saved ws hv => hno i saved ws ((Function.update_same i v s.stage).trans hv)
  threads := h.threads
  call j c' hj := by
    show CallInv c' σ j (Function.update s.stage i v j)
    by_cases hji : j = i
    · subst hji
      rw [hc] at hj
      cases hj
      rwa [Function.update_same]
    · rw [Function.update_noteq hji]
      exact (h.call j c' hj).streams_irrel (hidle j hji)
  original := horig

/-- **One step keeps the invariant** on a pool of at most one worker. -/
theorem Solo.step (hw : workers ≤ 1) (h : Solo calls s) (e : Event) :
    Solo calls (step workers calls s e) := by
  cases e with
  | thread i =>
    rcases thread_cases workers calls s i with hs | ⟨w, ws, -, ht, -⟩
    · rwa [hs]
    · cases (h.threads i).symm.trans ht
  | call i =>
    rcases call_cases workers calls s i with hs | ⟨c, hc, hmove⟩
    · rwa [hs]
    rcases hmove with ⟨-, hb, hs⟩ | ⟨saved, hp, hs⟩ | ⟨saved, w, ws, hp, hs⟩ |
      ⟨saved, hp, -, hs⟩ | ⟨w, ws, hp, hs⟩ | ⟨hp, hs⟩ <;> rw [hs]
    · -- picked up with the worker free: no call is inside, so it saves the process's output
      have hb0 : busy calls.length s = 0 := by omega
      have horig : s.streams.stdout = .original := h.stdout fun j _ _ hj => by
        have := h.idle hb0 j
        rw [hj] at this
        cases this
      exact h.move hc (fun j _ => h.idle hb0 j) ⟨horig, horig, by simp⟩ (fun _ => horig)
        fun hs => by
          rw [Streams.stringIO_contents_of_ne _ _ (show Target.original ≠ .buffer i from nofun),
            h.original hs]
    · obtain ⟨rfl, -, hbuf⟩ : CallInv c s.streams i (.entering saved) := hp ▸ h.call i c hc
      exact h.move hc (h.idle_of_active (by rw [hp]; rfl))
        ⟨rfl, rfl, by simp [hbuf, ExecOutcome.output]⟩ (fun hno => absurd rfl (hno _ _))
        h.original
    · obtain ⟨hsaved, hstd, hbuf⟩ : CallInv c s.streams i (.inside saved (w :: ws)) :=
        hp ▸ h.call i c hc
      refine h.move hc (h.idle_of_active (by rw [hp]; rfl)) ⟨hsaved, hstd, ?_⟩
        (fun hno => absurd rfl (hno _ _)) fun hs => ?_
      · rw [← hbuf, ← hstd, Streams.write_contents_stdout, List.flatten_cons, List.append_assoc]
      · rw [Streams.write_contents_of_ne _ _ (by rw [hstd]; exact nofun), h.original hs]
    · -- `__exit__` puts back the process's output, which the call saved
      obtain ⟨hsaved, -, hbuf⟩ : CallInv c s.streams i (.inside saved []) := hp ▸ h.call i c hc
      exact h.move hc (h.idle_of_active (by rw [hp]; rfl))
        ⟨hsaved, by simpa using hbuf, List.suffix_refl _⟩ (fun _ => hsaved) h.original
    · -- `__str__` prints to the process's output, which no other call is using
      obtain ⟨hstd, hbuf, hsuf⟩ : CallInv c s.streams i (.exited (w :: ws)) := hp ▸ h.call i c hc
      refine h.move hc (h.idle_of_active (by rw [hp]; rfl))
        ⟨hstd, ?_, (List.suffix_cons w ws).trans hsuf⟩ (fun _ => hstd) fun hs => ?_
      · rw [Streams.write_contents_of_ne _ _ (by rw [hstd]; exact nofun), hbuf]
      · rw [Effects.handlerWrites_eq_nil (hs c (List.getElem?_mem hc))] at hsuf
        cases List.suffix_nil.1 hsuf
    · obtain ⟨hstd, hbuf, -⟩ : CallInv c s.streams i (.exited []) := hp ▸ h.call i c hc
      exact h.move hc (h.idle_of_active (by rw [hp]; rfl))
        (congrArg (McpNg.finish c.exec.raised) hbuf) (fun _ => hstd) h.original

/-- The invariant along every interleaving. -/
theorem Solo.run (hw : workers ≤ 1) (h : Solo calls s) (sched : List Event) :
    Solo calls (run workers calls s sched) := by
  induction sched generalizing s with
  | nil => exact h
  | cons e sched ih => exact ih (h.step hw e)

end

/-- `ThreadPool.leakCalls` as process calls: call 0 prints `"a"`, call 1 prints `"b"`. -/
def leakCalls : List Effects :=
  ThreadPool.leakCalls.map .ofOutcome

end Process

/-! ## `ThreadPool` on one worker -/

namespace ThreadPool

end ThreadPool

end McpNg

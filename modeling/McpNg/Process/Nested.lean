import McpNg.Process.OneWorker

/-!
# Blocks used as a stack

`redirect_stdout.__enter__` keeps the target it replaces and `__exit__` puts it back, so the
blocks of concurrent calls can form a stack: from `sys.stdout`, each block's buffer leads,
through the target its `__enter__` saved, to the block entered before it, and the last to
the process's own output (`Chain`). An interleaving uses the blocks as a stack (`Nested`)
when a call sets `sys.stdout` only while it still points where the call's `__enter__` read
it, and writes and leaves only while `sys.stdout` is its own buffer.

Used so, the blocks are isolated on every pool, provided no call's code starts a thread that
writes and no exception's `__str__` prints: every call answers what it answers alone,
nothing reaches the process's own output, and once no call is inside its block
`sys.stdout` is that output again (`nested_calls_isolated`). The leak of
`concurrent_calls_leak` is a block left out of order; the two restrictions are needed
because the writes of a thread or of a handler land on whatever block is on top.
-/

namespace McpNg

namespace Process

/-- Inside the block. -/
def Stage.isInside : Stage → Bool
  | .inside _ _ => true
  | _ => false

/-- A call inside its block after call `i` moved to `v` is `i`, or was inside before. -/
theorem isInside_update {φ : Nat → Stage} {i : Nat} {v : Stage} {j : Nat}
    (hj : (Function.update φ i v j).isInside) :
    (j = i ∧ v.isInside) ∨ (j ≠ i ∧ (φ j).isInside) := by
  by_cases hji : j = i
  · rw [hji, Function.update_same] at hj
    exact .inl ⟨hji, hj⟩
  · rw [Function.update_noteq hji] at hj
    exact .inr ⟨hji, hj⟩

/-! ## The stack of blocks -/

/-- The blocks from target `t` down, innermost first: `t` is the buffer of the first call
of `L`, which is inside its block and saved the target the rest of `L` starts from; below
the last block is the process's own output. -/
def Chain (φ : Nat → Stage) : Target → List Nat → Prop
  | t, [] => t = .original
  | t, i :: L => t = .buffer i ∧ ∃ saved ws, φ i = .inside saved ws ∧ Chain φ saved L

/-- Every call on the stack is inside its block. -/
theorem Chain.isInside {φ : Nat → Stage} :
    ∀ {t : Target} {L : List Nat}, Chain φ t L → ∀ j ∈ L, (φ j).isInside
  | _, [], _, _, hj => nomatch hj
  | _, i :: L, ⟨_, saved, ws, hi, hL⟩, j, hj => by
    rcases List.mem_cons.1 hj with rfl | hj
    · rw [hi]
      rfl
    · exact hL.isInside j hj

/-- A call outside its block is not on the stack. -/
theorem Chain.not_mem {φ : Nat → Stage} {t : Target} {L : List Nat} (h : Chain φ t L)
    {i : Nat} (hi : (φ i).isInside = false) : i ∉ L := fun hm => by
  rw [h.isInside i hm] at hi
  cases hi

/-- Moving a call that is not on the stack leaves the stack as it was. -/
theorem Chain.update {φ : Nat → Stage} {i : Nat} {v : Stage} :
    ∀ {t : Target} {L : List Nat}, Chain φ t L → i ∉ L → Chain (Function.update φ i v) t L
  | _, [], h, _ => h
  | _, k :: _, ⟨ht, saved, ws, hk, hL⟩, hi =>
    ⟨ht, saved, ws,
      (Function.update_noteq (fun h => hi (List.mem_cons.2 (.inl h.symm))) v φ).trans hk,
      hL.update fun h => hi (List.mem_cons_of_mem k h)⟩

/-- A call on the stack that writes keeps the target it saved, and so the stack. -/
theorem Chain.update_inside {φ : Nat → Stage} {i : Nat} {saved : Target} {ws ws' : List PyStr}
    (hi : φ i = .inside saved ws) :
    ∀ {t : Target} {L : List Nat}, L.Nodup → Chain φ t L →
      Chain (Function.update φ i (.inside saved ws')) t L
  | _, [], _, h => h
  | _, k :: L, hnd, ⟨ht, saved', ws'', hk, hL⟩ => by
    have hL' : Chain (Function.update φ i (.inside saved ws')) saved' L :=
      Chain.update_inside hi (List.nodup_cons.1 hnd).2 hL
    by_cases hki : k = i
    · subst hki
      rw [hi] at hk
      cases hk
      exact ⟨ht, saved, ws', Function.update_same _ _ _, hL'⟩
    · exact ⟨ht, saved', ws'', (Function.update_noteq hki _ φ).trans hk, hL'⟩

/-- The call whose buffer is on top heads the stack; below it is the target it saved. -/
theorem Chain.head {φ : Nat → Stage} {i : Nat} {saved : Target} {ws : List PyStr}
    (hi : φ i = .inside saved ws) {L : List Nat} (h : Chain φ (.buffer i) L) :
    ∃ L', L = i :: L' ∧ Chain φ saved L' := by
  cases L with
  | nil => cases h
  | cons k L =>
    obtain ⟨hk, saved', ws', hk', hL⟩ := h
    cases hk
    rw [hi] at hk'
    cases hk'
    exact ⟨L, rfl, hL⟩

/-- The calls inside their blocks form one stack, from `t` down to the process's own
output. -/
def Stack (φ : Nat → Stage) (t : Target) : Prop :=
  ∃ L, L.Nodup ∧ Chain φ t L ∧ ∀ i, (φ i).isInside → i ∈ L

section

variable {φ : Nat → Stage} {t saved : Target} {i : Nat} {v : Stage} {ws : List PyStr}

/-- A move of a call that neither enters nor leaves its block keeps the stack. -/
theorem Stack.update (h : Stack φ t) (hv : v.isInside = false) (hi : (φ i).isInside = false) :
    Stack (Function.update φ i v) t := by
  obtain ⟨L, hnd, hch, hin⟩ := h
  refine ⟨L, hnd, hch.update (hch.not_mem hi), fun j hj => ?_⟩
  rcases isInside_update hj with ⟨-, hv'⟩ | ⟨-, hj⟩
  · rw [hv] at hv'
    cases hv'
  · exact hin j hj

/-- Entering a block pushes its buffer on the stack, over the target `__enter__` read. -/
theorem Stack.push (h : Stack φ saved) (hi : (φ i).isInside = false) :
    Stack (Function.update φ i (.inside saved ws)) (.buffer i) := by
  obtain ⟨L, hnd, hch, hin⟩ := h
  have hiL : i ∉ L := hch.not_mem hi
  refine ⟨i :: L, List.nodup_cons.2 ⟨hiL, hnd⟩,
    ⟨rfl, _, _, Function.update_same _ _ _, hch.update hiL⟩, fun j hj => ?_⟩
  rcases isInside_update hj with ⟨rfl, -⟩ | ⟨-, hj⟩
  · exact List.mem_cons_self _ _
  · exact List.mem_cons_of_mem _ (hin j hj)

/-- A write inside a block keeps the stack. -/
theorem Stack.write {ws' : List PyStr} (h : Stack φ t) (hi : φ i = .inside saved ws) :
    Stack (Function.update φ i (.inside saved ws')) t := by
  obtain ⟨L, hnd, hch, hin⟩ := h
  refine ⟨L, hnd, hch.update_inside hi hnd, fun j hj => ?_⟩
  rcases isInside_update hj with ⟨rfl, -⟩ | ⟨-, hj⟩
  · exact hin j (by rw [hi]; rfl)
  · exact hin j hj

/-- Leaving the block on top pops it: the stack goes on from the target its `__enter__`
saved. -/
theorem Stack.pop (h : Stack φ (.buffer i)) (hi : φ i = .inside saved ws)
    (hv : v.isInside = false) : Stack (Function.update φ i v) saved := by
  obtain ⟨L, hnd, hch, hin⟩ := h
  obtain ⟨L, rfl, hL⟩ := hch.head hi
  refine ⟨L, (List.nodup_cons.1 hnd).2, hL.update (List.nodup_cons.1 hnd).1, fun j hj => ?_⟩
  rcases isInside_update hj with ⟨-, hv'⟩ | ⟨hji, hj⟩
  · rw [hv] at hv'
    cases hv'
  · exact (List.mem_cons.1 (hin j hj)).resolve_left hji

end

/-- Call `i`'s next step keeps to the stack: it sets `sys.stdout` only while it still
points where its `__enter__` read it, and writes and leaves only while `sys.stdout` is its
own buffer. A thread's write is not a step of the stack. -/
def Turn (s : Server) : Event → Bool
  | .call i => match s.stage i with
    | .entering saved => s.streams.stdout == saved
    | .inside _ _ => s.streams.stdout == .buffer i
    | _ => true
  | .thread _ => true

/-- An interleaving that uses the blocks as a stack: every step keeps to it. -/
def Nested (workers : Nat) (calls : List Effects) : Server → List Event → Bool
  | _, [] => true
  | s, e :: sched => Turn s e && Nested workers calls (step workers calls s e) sched

/-! ## Nested blocks are isolated -/

/-- What call `i`, whose code does `c`, keeps at stage `p` when the blocks nest: its buffer
holds what it has written so far, and its answer is the one it gives alone. -/
def Own (c : Effects) (σ : Streams) (i : Nat) : Stage → Prop
  | .queued => True
  | .entering _ => σ.contents (.buffer i) = []
  | .inside _ ws => σ.contents (.buffer i) ++ ws.flatten = c.exec.output
  | .exited ws => σ.contents (.buffer i) = c.exec.output ∧ ws <:+ c.handlerWrites
  | .done r => r = finish c.exec.raised c.exec.output

/-- `Own` reads only the call's buffer. -/
theorem Own.congr {c : Effects} {σ σ' : Streams} {i : Nat} {p : Stage}
    (hσ : σ'.contents (.buffer i) = σ.contents (.buffer i)) (h : Own c σ i p) :
    Own c σ' i p := by
  cases p with
  | queued => trivial
  | entering _ => exact hσ.trans h
  | inside _ ws => exact (congrArg (· ++ ws.flatten) hσ).trans h
  | exited _ => exact ⟨hσ.trans h.1, h.2⟩
  | done r => exact h

/-- The invariant of a run whose blocks nest. -/
structure Stacked (calls : List Effects) (s : Server) : Prop where
  /-- the calls inside their blocks form one stack, from `sys.stdout` down -/
  stack : Stack s.stage s.streams.stdout
  /-- no thread is left to write -/
  threads : ∀ i, s.threads i = []
  /-- nothing reaches the process's own output -/
  original : s.streams.contents .original = []
  /-- each call's buffer holds its own writes -/
  own : ∀ i c, calls[i]? = some c → Own c s.streams i (s.stage i)

section

variable {workers : Nat} {calls : List Effects} {s : Server} {i : Nat} {c : Effects}

theorem Stacked.init (hq : NoThreads calls) : Stacked calls (.init calls) where
  stack := ⟨[], List.nodup_nil, rfl, fun _ h => nomatch h⟩
  threads := (Solo.init hq).threads
  original := rfl
  own _ _ _ := trivial

/-- A move of call `i` that touches no other call's buffer keeps every call's `Own` once it
keeps `i`'s. -/
theorem Stacked.own_update (h : Stacked calls s) (hc : calls[i]? = some c) {σ : Streams}
    {v : Stage} (hσ : ∀ j, j ≠ i → σ.contents (.buffer j) = s.streams.contents (.buffer j))
    (hi : Own c σ i v) (j : Nat) (c' : Effects) (hj : calls[j]? = some c') :
    Own c' σ j (Function.update s.stage i v j) := by
  by_cases hji : j = i
  · subst hji
    rw [hc] at hj
    cases hj
    rwa [Function.update_same]
  · rw [Function.update_noteq hji]
    exact (h.own j c' hj).congr (hσ j hji)

/-- **A step that keeps to the stack keeps the invariant**, when no call's exception's
`__str__` prints. -/
theorem Stacked.step (hs : ∀ c ∈ calls, c.strWrites = []) (h : Stacked calls s) {e : Event}
    (hn : Turn s e = true) : Stacked calls (step workers calls s e) := by
  cases e with
  | thread i =>
    rcases thread_cases workers calls s i with hs | ⟨w, ws, -, ht, -⟩
    · rwa [hs]
    · cases (h.threads i).symm.trans ht
  | call i =>
    rcases call_cases workers calls s i with hst | ⟨c, hc, hmove⟩
    · rwa [hst]
    rcases hmove with ⟨hq, -, hst⟩ | ⟨saved, hp, hst⟩ | ⟨saved, w, ws, hp, hst⟩ |
      ⟨saved, hp, -, hst⟩ | ⟨w, ws, hp, hst⟩ | ⟨hp, hst⟩ <;> rw [hst]
    · -- picked up: reads `sys.stdout` and creates an empty buffer nobody can reach
      refine ⟨h.stack.update (by rfl) (by rw [hq]; rfl), h.threads, ?_,
        h.own_update hc (fun j hji => ?_) (by simp [Own])⟩
      · rw [Streams.stringIO_contents_of_ne _ _ (show Target.original ≠ .buffer i from nofun),
          h.original]
      · exact Streams.stringIO_contents_of_ne _ _ fun e => hji (Target.buffer.inj e)
    · -- sets `sys.stdout` to its buffer while it is still what it read: a push
      have ht : s.streams.stdout = saved := by simpa only [Turn, hp, beq_iff_eq] using hn
      have hown : Own c s.streams i (.entering saved) := hp ▸ h.own i c hc
      refine ⟨(ht ▸ h.stack : Stack s.stage saved).push (by rw [hp]; rfl), h.threads,
        h.original, h.own_update hc (fun _ _ => rfl) ?_⟩
      show (s.streams.setStdout _).contents (.buffer i) ++ c.exec.writes.flatten = c.exec.output
      rw [Streams.setStdout_contents, hown]
      rfl
    · -- writes into its own buffer, on top of the stack
      have ht : s.streams.stdout = .buffer i := by simpa only [Turn, hp, beq_iff_eq] using hn
      have hown : Own c s.streams i (.inside saved (w :: ws)) := hp ▸ h.own i c hc
      refine ⟨h.stack.write hp, h.threads, ?_, h.own_update hc (fun j hji => ?_) ?_⟩
      · rw [Streams.write_contents_of_ne _ _ (by rw [ht]; exact nofun), h.original]
      · exact Streams.write_contents_of_ne _ _ (by rw [ht]; exact fun e => hji (Target.buffer.inj e))
      · show (s.streams.write w).contents (.buffer i) ++ ws.flatten = c.exec.output
        rw [← hown, ← ht, Streams.write_contents_stdout, List.flatten_cons, List.append_assoc]
    · -- leaves from the top of the stack: `sys.stdout` goes back to the block below
      have ht : s.streams.stdout = .buffer i := by simpa only [Turn, hp, beq_iff_eq] using hn
      have hown : Own c s.streams i (.inside saved []) := hp ▸ h.own i c hc
      exact ⟨(ht ▸ h.stack : Stack s.stage (.buffer i)).pop hp (by rfl), h.threads, h.original,
        h.own_update hc (fun _ _ => rfl) ⟨by simpa [Own] using hown, List.suffix_refl _⟩⟩
    · -- no `__str__` prints, so the handler has nothing to write
      have hown : Own c s.streams i (.exited (w :: ws)) := hp ▸ h.own i c hc
      have hsuf := hown.2
      rw [Effects.handlerWrites_eq_nil (hs c (List.getElem?_mem hc))] at hsuf
      cases List.suffix_nil.1 hsuf
    · have hown : Own c s.streams i (.exited []) := hp ▸ h.own i c hc
      exact ⟨h.stack.update (by rfl) (by rw [hp]; rfl), h.threads, h.original,
        h.own_update hc (fun _ _ => rfl) (congrArg (McpNg.finish c.exec.raised) hown.1)⟩

theorem Stacked.run (hs : ∀ c ∈ calls, c.strWrites = []) (h : Stacked calls s)
    (sched : List Event) (hn : Nested workers calls s sched) :
    Stacked calls (run workers calls s sched) := by
  induction sched generalizing s with
  | nil => exact h
  | cons e sched ih =>
    obtain ⟨he, hn⟩ := Bool.and_eq_true _ _ ▸ hn
    exact ih (h.step hs he) hn

end

end Process

end McpNg

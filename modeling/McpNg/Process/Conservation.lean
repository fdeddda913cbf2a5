import McpNg.Process

/-!
# Every write lands once

Whatever the pool, the calls' code and the interleaving, each code point that a call's
code, a thread it started or its exception's `__str__` writes ends up in exactly one
stream. The leak between calls sends output into the wrong buffer or to the process's own
output; it never loses a write and never writes one twice.

`Tidy` holds the facts the accounting rests on: `sys.stdout`, and every target a call has
saved, is the process's own output or the buffer of a call that has been picked up
(`Live`); a queued call's buffer is empty, so the `io.StringIO()` that replaces it discards
nothing; and the threads of a call whose `exec` has not started have written nothing. Then
the text all streams hold, together with what the calls have still to write, is a
permutation of everything the calls write (`every_interleaving_conserves_writes`): a write
moves one string from a call's pending writes to the end of one stream (`perm_of_write`),
and every other step moves no text.
-/

namespace McpNg

namespace Process

/-! ## Accounting -/

/-- `f 0 ++ f 1 ++ ... ++ f (n - 1)`. -/
def flatBelow (f : Nat → PyStr) : Nat → PyStr
  | 0 => []
  | n + 1 => flatBelow f n ++ f n

theorem flatBelow_congr {f g : Nat → PyStr} {n : Nat} (h : ∀ j < n, g j = f j) :
    flatBelow g n = flatBelow f n := by
  induction n with
  | zero => rfl
  | succ n ih => simp only [flatBelow, ih fun j hj => h j (by omega), h n (by omega)]

/-- Turning slot `i < n` into a rearrangement of itself followed by `x` appends `x` to the
whole, up to order. -/
theorem flatBelow_perm {f g : Nat → PyStr} {i n : Nat} (hi : i < n)
    (hg : ∀ j, j ≠ i → g j = f j) {x : PyStr} (hgi : (g i).Perm (f i ++ x)) :
    (flatBelow g n).Perm (flatBelow f n ++ x) := by
  induction n with
  | zero => omega
  | succ n ih =>
    simp only [flatBelow]
    rcases Nat.lt_succ_iff_lt_or_eq.1 hi with hi | rfl
    · rw [hg n (by omega)]
      refine ((ih hi).append_right (f n)).trans ?_
      simpa only [List.append_assoc] using
        (@List.perm_append_comm _ x (f n)).append_left (flatBelow f n)
    · rw [flatBelow_congr fun j hj => hg j (by omega), List.append_assoc]
      exact hgi.append_left _

theorem flatBelow_getElem? (l : List Effects) (f : Effects → PyStr) :
    flatBelow (fun j => (l[j]?.map f).getD []) l.length = (l.map f).flatten := by
  suffices h : ∀ n, flatBelow (fun j => (l[j]?.map f).getD []) n = ((l.take n).map f).flatten by
    rw [h, List.take_length]
  intro n
  induction n with
  | zero => rfl
  | succ n ih =>
    rw [flatBelow, ih, List.take_succ, List.map_append, List.flatten_append]
    cases l[n]? <;> simp

/-- The text all streams hold: the process's own output, then the buffers of the first
`n` calls. -/
def held (n : Nat) (σ : Streams) : PyStr :=
  σ.contents .original ++ flatBelow (fun j => σ.contents (.buffer j)) n

/-- Everything a call writes if it runs to its end: its code's writes, its handler's and
its threads'. -/
def Effects.written (c : Effects) : PyStr :=
  (c.exec.writes ++ c.handlerWrites ++ c.threadWrites).flatten

/-- The writes a call's worker thread has still to make at stage `p`. -/
def Stage.pending (c : Effects) : Stage → List PyStr
  | .queued | .entering _ => c.exec.writes ++ c.handlerWrites
  | .inside _ ws => ws ++ c.handlerWrites
  | .exited ws => ws
  | .done _ => []

/-- What call `j` has still to write: its worker thread's writes, then its threads'. -/
def pendingPart (calls : List Effects) (s : Server) (j : Nat) : PyStr :=
  ((calls[j]?.map fun c => (s.stage j).pending c).getD [] ++ s.threads j).flatten

/-- `t` is the process's own output or the buffer of a call that has been picked up. -/
def Live (s : Server) (t : Target) : Prop :=
  t = .original ∨ ∃ j, t = .buffer j ∧ s.stage j ≠ .queued

/-- What the accounting rests on. -/
structure Tidy (calls : List Effects) (s : Server) : Prop where
  /-- only calls that exist leave the queue -/
  queued_of_none : ∀ i, calls[i]? = none → s.stage i = .queued
  /-- `sys.stdout` is live -/
  stdout : Live s s.streams.stdout
  /-- so is every target a call has saved -/
  saved : ∀ i t, (s.stage i).saved = some t → Live s t
  /-- a queued call's buffer is empty -/
  fresh : ∀ i, s.stage i = .queued → s.streams.contents (.buffer i) = []
  /-- the threads of a call whose `exec` has not started have written nothing -/
  threads : ∀ i, (s.stage i).started = false →
    s.threads i = (calls[i]?.map Effects.threadWrites).getD []

section

variable {workers : Nat} {calls : List Effects} {s : Server} {i : Nat} {c : Effects}

theorem Tidy.init : Tidy calls (.init calls) where
  queued_of_none _ _ := rfl
  stdout := .inl rfl
  saved _ _ h := nomatch h
  fresh _ _ := rfl
  threads _ _ := rfl

/-- A call out of the queue stays out: its buffer stays live. -/
theorem Live.update {σ : Streams} {v : Stage} {th : Nat → List PyStr} {t : Target}
    (hv : v ≠ .queued) (h : Live s t) : Live ⟨σ, Function.update s.stage i v, th⟩ t :=
  h.imp_right fun ⟨j, ht, hj⟩ => ⟨j, ht, by
    by_cases hji : j = i
    · subst hji
      exact (Function.update_same j v s.stage).trans_ne hv
    · exact (Function.update_noteq hji v s.stage).trans_ne hj⟩

/-- A live buffer belongs to a call, one of the first `calls.length`. -/
theorem Tidy.lt_of_live (h : Tidy calls s) {k : Nat} (hk : s.stage k ≠ .queued) :
    k < calls.length :=
  Nat.lt_of_not_le fun hle => hk (h.queued_of_none k (List.getElem?_eq_none hle))

/-- A write lands on a live stream: it keeps a queued call's buffer empty and appends to
the text all streams hold. -/
theorem Tidy.write (h : Tidy calls s) (w : PyStr) :
    (∀ j, s.stage j = .queued → (s.streams.write w).contents (.buffer j) = []) ∧
      (held calls.length (s.streams.write w)).Perm (held calls.length s.streams ++ w) := by
  rcases h.stdout with ho | ⟨k, hk, hq⟩
  · have hbuf : ∀ j, (s.streams.write w).contents (.buffer j) = s.streams.contents (.buffer j) :=
      fun j => Streams.write_contents_of_ne _ _ (by rw [ho]; exact nofun)
    refine ⟨fun j hj => (hbuf j).trans (h.fresh j hj), ?_⟩
    unfold held
    rw [← ho, Streams.write_contents_stdout, flatBelow_congr fun j _ => hbuf j, ho,
      List.append_assoc, List.append_assoc]
    exact List.perm_append_comm.append_left _
  · have hne : ∀ j, j ≠ k → (s.streams.write w).contents (.buffer j) =
        s.streams.contents (.buffer j) := fun j hj =>
      Streams.write_contents_of_ne _ _ (by rw [hk]; exact fun e => hj (by cases e; rfl))
    refine ⟨fun j hj => (hne j fun hjk => hq (hjk ▸ hj)).trans (h.fresh j hj), ?_⟩
    unfold held
    rw [Streams.write_contents_of_ne _ _ (show Target.original ≠ _ by rw [hk]; exact nofun),
      List.append_assoc]
    refine (flatBelow_perm (h.lt_of_live hq) hne ?_).append_left _
    rw [← hk, Streams.write_contents_stdout]

/-- **A move of call `i` out of the queue keeps the footing** once the move keeps it at
`i`: `sys.stdout` ends live or on `i`'s own buffer, what `i` saves is live, queued
buffers stay empty, and `i`'s threads start only with its `exec`. -/
theorem Tidy.move (h : Tidy calls s) (hc : calls[i]? = some c) {σ : Streams} {v : Stage}
    (hv : v ≠ .queued) (hstdout : Live s σ.stdout ∨ σ.stdout = .buffer i)
    (hsaved : ∀ t, v.saved = some t → Live s t)
    (hfresh : ∀ j, j ≠ i → s.stage j = .queued → σ.contents (.buffer j) = [])
    (hthreads : v.started = false → (s.stage i).started = false) :
    Tidy calls ⟨σ, Function.update s.stage i v, s.threads⟩ where
  queued_of_none j hj := (update_of_getElem?_none hc hj).trans (h.queued_of_none j hj)
  stdout := hstdout.elim (Live.update hv) fun hi =>
    .inr ⟨i, hi, (Function.update_same i v s.stage).trans_ne hv⟩
  saved j t hj := by
    by_cases hji : j = i
    · subst hji
      exact (hsaved t ((congrArg Stage.saved (Function.update_same j v s.stage)).symm.trans hj)).update hv
    · exact (h.saved j t ((congrArg Stage.saved (Function.update_noteq hji v s.stage)).symm.trans hj)).update hv
  fresh j hj := by
    have hji : j ≠ i := fun hji => hv (by subst hji; exact (Function.update_same j v s.stage).symm.trans hj)
    exact hfresh j hji ((Function.update_noteq hji v s.stage).symm.trans hj)
  threads j hj := by
    by_cases hji : j = i
    · subst hji
      exact h.threads j (hthreads ((congrArg Stage.started (Function.update_same j v s.stage)).symm.trans hj))
    · exact h.threads j ((congrArg Stage.started (Function.update_noteq hji v s.stage)).symm.trans hj)

/-- **One step keeps the accounting's footing.** -/
theorem Tidy.step (h : Tidy calls s) (e : Event) : Tidy calls (step workers calls s e) := by
  cases e with
  | thread i =>
    rcases thread_cases workers calls s i with hs | ⟨w, ws, hst, -, hs⟩ <;> rw [hs]
    · exact h
    exact
      { h with
        fresh := (h.write w).1
        threads := fun j hj =>
          have hji : j ≠ i := by rintro rfl; rw [hst] at hj; cases hj
          (Function.update_noteq hji ws s.threads).trans (h.threads j hj) }
  | call i =>
    rcases call_cases workers calls s i with hs | ⟨c, hc, hmove⟩
    · rwa [hs]
    rcases hmove with ⟨hqi, -, hs⟩ | ⟨saved, hp, hs⟩ | ⟨saved, w, ws, hp, hs⟩ |
      ⟨saved, hp, -, hs⟩ | ⟨w, ws, hp, hs⟩ | ⟨hp, hs⟩ <;> rw [hs]
    · -- picked up: saves the live `sys.stdout`, in place of an empty buffer
      refine h.move hc nofun (.inl h.stdout) (fun t ht => by cases ht; exact h.stdout)
        (fun j hji hj => ?_) (fun _ => by rw [hqi]; rfl)
      rw [Streams.stringIO_contents_of_ne _ _ (by rintro ⟨⟩; exact hji rfl)]
      exact h.fresh j hj
    · -- sets `sys.stdout` to its own buffer, and `exec` starts
      exact h.move hc nofun (.inr rfl) (fun t ht => h.saved i t (by rw [hp]; exact ht))
        (fun j _ hj => h.fresh j hj) nofun
    · exact h.move hc nofun (.inl h.stdout) (fun t ht => h.saved i t (by rw [hp]; exact ht))
        (fun j _ => (h.write w).1 j) nofun
    · -- `__exit__` puts back the target the call saved
      exact h.move hc nofun (.inl (h.saved i saved (by rw [hp]; rfl))) nofun
        (fun j _ hj => h.fresh j hj) nofun
    · exact h.move hc nofun (.inl h.stdout) nofun (fun j _ => (h.write w).1 j) nofun
    · exact h.move hc nofun (.inl h.stdout) nofun (fun j _ hj => h.fresh j hj) nofun

/-! ## No write lost, none duplicated -/

/-- The accounting: the text all streams hold, with what the calls have still to write, is
a permutation of everything the calls write. -/
def Conserves (calls : List Effects) (s : Server) : Prop :=
  (held calls.length s.streams ++ flatBelow (pendingPart calls s) calls.length).Perm
    (calls.map Effects.written).flatten

theorem Conserves.init : Conserves calls (.init calls) := by
  have hnil : ∀ n, flatBelow (fun _ => ([] : PyStr)) n = [] := fun n => by
    induction n with
    | zero => rfl
    | succ n ih => rw [flatBelow, ih]; rfl
  have hpend : ∀ j, pendingPart calls (.init calls) j = (calls[j]?.map Effects.written).getD [] :=
    fun j => by
      cases h : calls[j]? <;> simp only [pendingPart, Server.init, h, Option.map_none',
        Option.map_some', Option.getD_none, Option.getD_some] <;> rfl
  show ([] ++ flatBelow (fun _ => []) calls.length ++ _).Perm _
  rw [hnil, flatBelow_congr fun j _ => hpend j, flatBelow_getElem?, List.nil_append,
    List.nil_append]

/-- One write moves `w` from what is still to write to the end of the streams. -/
theorem perm_of_write {h h' p p' total w : PyStr} (hh : h'.Perm (h ++ w))
    (hp : p.Perm (p' ++ w)) (hinv : (h ++ p).Perm total) : (h' ++ p').Perm total := by
  refine (hh.append_right p').trans ?_
  rw [List.append_assoc]
  exact ((List.perm_append_comm.trans hp.symm).append_left h).trans hinv

theorem pendingPart_self (hc : calls[i]? = some c) :
    pendingPart calls s i = ((s.stage i).pending c ++ s.threads i).flatten := by
  simp only [pendingPart, hc, Option.map_some', Option.getD_some]

theorem pendingPart_update_ne {σ : Streams} {v : Stage} {j : Nat} (hji : j ≠ i) :
    pendingPart calls ⟨σ, Function.update s.stage i v, s.threads⟩ j = pendingPart calls s j := by
  simp only [pendingPart, Function.update_noteq hji]

theorem pendingPart_update_self (hc : calls[i]? = some c) {σ : Streams} {v : Stage} :
    pendingPart calls ⟨σ, Function.update s.stage i v, s.threads⟩ i =
      (v.pending c ++ s.threads i).flatten := by
  simp only [pendingPart, Function.update_same, hc, Option.map_some', Option.getD_some]

/-- A move of call `i` that writes nothing and leaves its pending writes as they were moves
no text. -/
theorem Conserves.quiet (hp : Conserves calls s) (hc : calls[i]? = some c) {σ : Streams}
    {v : Stage} (hσ : σ.contents = s.streams.contents) (hv : v.pending c = (s.stage i).pending c) :
    Conserves calls ⟨σ, Function.update s.stage i v, s.threads⟩ := by
  have hpend : flatBelow (pendingPart calls ⟨σ, Function.update s.stage i v, s.threads⟩)
      calls.length = flatBelow (pendingPart calls s) calls.length :=
    flatBelow_congr fun j _ => by
      by_cases hji : j = i
      · rw [hji, pendingPart_update_self hc, pendingPart_self hc, hv]
      · exact pendingPart_update_ne hji
  show (held calls.length σ ++ _).Perm _
  rw [hpend, show held calls.length σ = held calls.length s.streams by simp only [held, hσ]]
  exact hp

/-- Call `i` writes `w`, the first of its pending writes. -/
theorem Conserves.write (hp : Conserves calls s) (ht : Tidy calls s) (hc : calls[i]? = some c)
    {w : PyStr} {v : Stage} (hv : (s.stage i).pending c = w :: v.pending c) :
    Conserves calls ⟨s.streams.write w, Function.update s.stage i v, s.threads⟩ := by
  refine perm_of_write (ht.write w).2 (flatBelow_perm (List.getElem?_eq_some_iff.1 hc).1
    (fun j hji => (pendingPart_update_ne hji).symm) ?_) hp
  rw [pendingPart_self hc, pendingPart_update_self hc, hv, List.cons_append, List.flatten_cons]
  exact List.perm_append_comm

/-- A thread of call `i`'s code writes `w`, the first of its writes. -/
theorem Conserves.thread (hp : Conserves calls s) (ht : Tidy calls s) {w : PyStr}
    {ws : List PyStr} (hst : (s.stage i).started) (hth : s.threads i = w :: ws) :
    Conserves calls ⟨s.streams.write w, s.stage, Function.update s.threads i ws⟩ := by
  have hi : i < calls.length := ht.lt_of_live fun hq => by rw [hq] at hst; cases hst
  refine perm_of_write (ht.write w).2 (flatBelow_perm hi (fun j hji => ?_) ?_) hp
  · simp only [pendingPart, Function.update_noteq hji]
  · simp only [pendingPart, Function.update_same, hth, List.flatten_append, List.flatten_cons]
    rw [List.append_assoc]
    exact List.perm_append_comm.append_left _

/-- **One step keeps the accounting.** -/
theorem Conserves.step (hp : Conserves calls s) (ht : Tidy calls s) (e : Event) :
    Conserves calls (step workers calls s e) := by
  cases e with
  | thread i =>
    rcases thread_cases workers calls s i with hs | ⟨w, ws, hst, hth, hs⟩ <;> rw [hs]
    · exact hp
    · exact hp.thread ht hst hth
  | call i =>
    rcases call_cases workers calls s i with hs | ⟨c, hc, hmove⟩
    · rwa [hs]
    rcases hmove with ⟨hqi, -, hs⟩ | ⟨saved, hpi, hs⟩ | ⟨saved, w, ws, hpi, hs⟩ |
      ⟨saved, hpi, -, hs⟩ | ⟨w, ws, hpi, hs⟩ | ⟨hpi, hs⟩ <;> rw [hs]
    · -- picked up: the new buffer replaces an empty one
      rw [Streams.stringIO_of_empty _ _ (ht.fresh i hqi)]
      exact hp.quiet hc rfl (by rw [hqi]; rfl)
    · exact hp.quiet hc rfl (by rw [hpi]; rfl)
    · exact hp.write ht hc (by rw [hpi]; rfl)
    · exact hp.quiet hc rfl (by rw [hpi]; rfl)
    · exact hp.write ht hc (by rw [hpi]; rfl)
    · exact hp.quiet hc rfl (by rw [hpi]; rfl)

end

end Process

end McpNg

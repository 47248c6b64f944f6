/-
HostTrust.Proofs.LoggingStart — logging is started at most once in a process.

A call that starts logging can fail at several steps, and two cells must stay in
step: the logger of the process, which can be set once and for all, and the
record by which the program knows that it has started logging. If a call set the
first and failed before the second, no later call could start logging.

That does not happen. A process has one of two faces, whatever calls were made
and whatever changes around it: it is as it was at its start, or both cells hold
the layout of the one call that has started logging (`LogHistory.faces`). In the
first case a call finds what a first call finds (`StartCall.perform_fresh`); in
the second no call does anything (`StartCall.perform_of_isStarted`). So a process
can be taken for one value, its logging, and calls for functions of that
(`StartCall.perform_ofLogging`).
-/
import HostTrust.Command.Execution
import HostTrust.Files.Tree
import HostTrust.Logging.Process
import HostTrust.Proofs.Outcome

namespace HostTrust

/-! ## Programs on the cells -/

namespace LogProgram

variable {m : Type → Type} {α β : Type}

@[simp] theorem runOn_ite {p : Prop} [Decidable p] (x y : LogProgram m α) (c : LogCells) :
    (if p then x else y).runOn c = if p then x.runOn c else y.runOn c := by
  split <;> rfl

variable [Monad m]

@[simp] theorem runOn_pure (a : α) (c : LogCells) :
    (pure a : LogProgram m α).runOn c = pure (.ok a, c) := rfl

@[simp] theorem runOn_throw (e : LogError) (c : LogCells) :
    (throw e : LogProgram m α).runOn c = pure (.error e, c) := rfl

/-- What follows a failure is not run, and nothing that was done before is undone. -/
@[simp] theorem runOn_bind (x : LogProgram m α) (f : α → LogProgram m β) (c : LogCells) :
    (x >>= f).runOn c = x.runOn c >>= fun r =>
      match r with
      | (.ok a, c) => (f a).runOn c
      | (.error e, c) => pure (.error e, c) := by
  refine bind_congr fun r => ?_
  match r with
  | (.ok a, c) => rfl
  | (.error e, c) => rfl

variable [LawfulMonad m]

@[simp] theorem runOn_get (c : LogCells) :
    (get : LogProgram m LogCells).runOn c = pure (.ok c, c) :=
  pure_bind (m := m) (c, c) fun r => pure (Except.ok r.1, r.2)

@[simp] theorem runOn_modify (f : LogCells → LogCells) (c : LogCells) :
    (modify f : LogProgram m Unit).runOn c = pure (.ok (), f c) :=
  pure_bind (m := m) ((), f c) fun r => pure (Except.ok r.1, r.2)

@[simp] theorem runOn_outside (x : ExceptT LogError m α) (c : LogCells) :
    (outside x).runOn c = (·, c) <$> x.run :=
  (map_eq_pure_bind _ _).symm

theorem runOn_ensureOff (c : LogCells) : (ensureOff : LogProgram m Unit).runOn c =
    pure (if c.isStarted then .error .alreadyStarted else .ok (), c) := by
  unfold ensureOff
  cases started : c.isStarted <;> simp [started]

/-- If the logger is set already, the level has changed all the same. -/
theorem runOn_install (l : LogLayout) (c : LogCells) : (install l : LogProgram m Unit).runOn c =
    pure (if c.logger.isSome then (.error .loggerTaken, { c with level := l.greatestLevel })
      else (.ok (), { c with level := l.greatestLevel, logger := some l })) := by
  unfold install
  cases taken : c.logger.isSome <;> simp [taken]

theorem runOn_record (l : LogLayout) (c : LogCells) : (record l : LogProgram m Unit).runOn c =
    pure (if c.isStarted then (.error .alreadyStarted, c)
      else (.ok (), { c with record := some l })) := by
  unfold record
  cases started : c.isStarted <;> simp [runOn_ensureOff, started]

end LogProgram

/-! ## Calls -/

namespace LogCells

/-- The process has started logging with a layout, and its cells agree about it. -/
def started (l : LogLayout) : LogCells := ⟨some l, l.greatestLevel, some l⟩

@[simp] theorem isStarted_fresh : fresh.isStarted = false := rfl

@[simp] theorem isStarted_started (l : LogLayout) : (started l).isStarted = true := rfl

/-- How a first call ends by what it comes to log with, and how it leaves the process. -/
def afterFirst : Except LogError (Option LogLayout) → Except LogError Unit × LogCells
  | .ok (some l) => (.ok (), started l)
  | .ok none => (.ok (), fresh)
  | .error e => (.error e, fresh)

end LogCells

namespace StartCall

variable {m : Type → Type} [Monad m]

/-- What a call comes to log with if logging has not started: nothing if it does not ask for it, and
else the layout that the settings describe when they are valid. -/
def layout (w : Workspace m) : StartCall → ExceptT LogError m (Option LogLayout)
  | .withFile path => some <$> layoutIn w path
  | .withSettings s => some <$> s.layout w
  | .ofCommand none => return none
  | .ofCommand (some path) => some <$> layoutIn w path

/-- Whether a call does nothing if logging has started; else it fails then. -/
def isOptional : StartCall → Bool
  | .ofCommand _ => true
  | _ => false

/-- A call that is to start logging comes to a layout or fails. -/
theorem layout_ne_none {σ : Type} {w : Workspace (StateM σ)} {call : StartCall} {found : σ}
    (needed : call.isOptional = false) : ((call.layout w).run found).1 ≠ .ok none := by
  have some_or_error (x : ExceptT LogError (StateM σ) LogLayout) :
      ((some <$> x).run found).1 ≠ .ok none := by
    rw [ExceptT.run_map]
    show Except.map some (x.run found).1 ≠ .ok none
    cases (x.run found).1 <;> simp [Except.map]
  cases call with
  | withFile path => exact some_or_error _
  | withSettings s => exact some_or_error _
  | ofCommand file => cases needed

variable [LawfulMonad m] {w : Workspace m}

theorem startWith_of_isStarted {c : LogCells} (h : c.isStarted = true)
    (layout : ExceptT LogError m LogLayout) :
    (startWith layout).runOn c = pure (.error .alreadyStarted, c) := by
  simp [startWith, LogProgram.runOn_ensureOff, h]

/-- In a fresh process nothing can fail after the layout is found. -/
theorem startWith_fresh (layout : ExceptT LogError m LogLayout) :
    (startWith layout).runOn .fresh = LogCells.afterFirst <$> (some <$> layout).run := by
  rw [ExceptT.run_map]
  simp only [startWith, LogProgram.runOn_bind, LogProgram.runOn_ensureOff,
    LogCells.isStarted_fresh, pure_bind, LogProgram.runOn_outside, map_eq_pure_bind, bind_assoc,
    Bool.false_eq_true, if_false]
  refine bind_congr (m := m) fun found => ?_
  cases found with
  | error e => rfl
  | ok l =>
    simp only [LogProgram.runOn_install, LogProgram.runOn_record, pure_bind]
    rfl

/-- Once logging has started, no call reads or changes anything. -/
theorem perform_of_isStarted {c : LogCells} (h : c.isStarted = true) (call : StartCall) :
    (call.perform w).runOn c =
      pure (if call.isOptional then .ok () else .error .alreadyStarted, c) := by
  cases call with
  | withFile path => exact startWith_of_isStarted h _
  | withSettings s => exact startWith_of_isStarted h _
  | ofCommand file =>
    cases file with
    | none => rfl
    | some path => simp [perform, h, isOptional]

theorem perform_fresh (call : StartCall) :
    (call.perform w).runOn .fresh = LogCells.afterFirst <$> (call.layout w).run := by
  cases call with
  | withFile path => exact startWith_fresh _
  | withSettings s => exact startWith_fresh _
  | ofCommand file =>
    cases file with
    | none => simp [perform, layout]; rfl
    | some path => simp [perform, layout, startWith_fresh]

/-! ## Logging as one value -/

/-- What a call does to logging as one value. -/
def attempt (w : Workspace m) : StartCall → Logging → ExceptT LogError m Logging
  | .withFile path => Logging.startFromFile w path
  | .withSettings s => Logging.start w s
  | .ofCommand none => pure
  | .ofCommand (some path) => Logging.ensureStarted w path

end StartCall

namespace LogCells

/-- The cells of a process whose logging is as given. -/
def ofLogging (l : Logging) : LogCells := ⟨l.layout, l.level, l.layout⟩

/-- How an attempt ends and leaves the process; one that fails keeps logging as it was. -/
def afterAttempt (l : Logging) : Except LogError Logging → Except LogError Unit × LogCells
  | .ok l' => (.ok (), ofLogging l')
  | .error e => (.error e, ofLogging l)

end LogCells

namespace StartCall

variable {m : Type → Type} [Monad m] {w : Workspace m}

/-- The command starts logging as its settings ask for it. -/
theorem attempt_ofCommand (s : Settings) : (ofCommand s.logging).attempt w = s.startLogging w := by
  unfold Settings.startLogging
  cases s.logging <;> rfl

variable [LawfulMonad m]

theorem attempt_off (call : StartCall) : call.attempt w .off = Logging.mk <$> call.layout w := by
  have off : Logging.off.isStarted = false := rfl
  have file (path : String) :
      Logging.startFromFile w path .off = Logging.mk <$> some <$> layoutIn w path := by
    simp [layoutIn, LogSettings.layout, Logging.startFromFile, Logging.startWith, off]
  cases call with
  | withFile path => exact file path
  | withSettings s =>
    simp [attempt, layout, LogSettings.layout, Logging.start, Logging.startWith, off]
  | ofCommand asked =>
    cases asked with
    | none => simp [attempt, layout, Logging.off]
    | some path => exact file path

theorem attempt_of_isStarted {l : Logging} (h : l.isStarted = true) (call : StartCall) :
    call.attempt w l = if call.isOptional then pure l else throw .alreadyStarted := by
  cases call with
  | withFile path => simp [attempt, isOptional, Logging.startFromFile, Logging.startWith, h]
  | withSettings s => simp [attempt, isOptional, Logging.start, Logging.startWith, h]
  | ofCommand file =>
    cases file with
    | none => rfl
    | some path => simp [attempt, isOptional, Logging.ensureStarted, h]

theorem perform_ofLogging (call : StartCall) (l : Logging) :
    (call.perform w).runOn (.ofLogging l) =
      LogCells.afterAttempt l <$> (call.attempt w l).run := by
  obtain ⟨_ | layout⟩ := l
  · show (call.perform w).runOn .fresh = LogCells.afterAttempt .off <$> (call.attempt w .off).run
    rw [perform_fresh, attempt_off, ExceptT.run_map]
    simp only [Functor.map_map]
    refine congrArg (· <$> (call.layout w).run) (funext fun found => ?_)
    match found with
    | .ok (some _) => rfl
    | .ok none => rfl
    | .error _ => rfl
  · have on : (Logging.mk (some layout)).isStarted = true := rfl
    have started : (LogCells.ofLogging ⟨some layout⟩).isStarted = true := rfl
    rw [perform_of_isStarted started, attempt_of_isStarted on]
    cases call.isOptional <;> simp [LogCells.afterAttempt]

end StartCall

/-! ## Histories -/

/-- A call that was made, with what it found and left in the process and around it. -/
structure MadeCall (σ : Type) where
  call : StartCall
  before : LogCells
  found : σ
  outcome : Except LogError Unit
  after : LogCells
  left : σ

/-- Whether the call has set the logger of the process. -/
def MadeCall.installs {σ : Type} (made : MadeCall σ) : Bool :=
  made.before.logger.isNone && made.after.logger.isSome

/-- The call found the cells as given and left them so; if it was to start logging, it failed. -/
structure MadeCall.Idle {σ : Type} (made : MadeCall σ) (c : LogCells) : Prop where
  before : made.before = c
  after : made.after = c
  failed : made.call.isOptional = false → made.outcome ≠ .ok ()

/-- The calls that a process has made since its start, and its cells then. Between two calls, what
is around the process may change in any way. -/
inductive LogHistory {σ : Type} (w : Workspace (StateM σ)) :
    List (MadeCall σ) → LogCells → Prop where
  | start : LogHistory w [] .fresh
  | call {past : List (MadeCall σ)} {made : MadeCall σ} : LogHistory w past made.before →
      (made.call.perform w).runOn made.before made.found = ((made.outcome, made.after), made.left) →
      LogHistory w (past ++ [made]) made.after

namespace LogHistory

variable {σ : Type} {w : Workspace (StateM σ)} {past : List (MadeCall σ)} {made : MadeCall σ}
  {cells : LogCells}

/-- A call in a fresh process starts logging, or leaves the process fresh. -/
theorem starts_or_idle (fresh : made.before = .fresh)
    (h : (made.call.perform w).runOn made.before made.found =
      ((made.outcome, made.after), made.left)) :
    (made.outcome = .ok () ∧ ∃ l, made.after = .started l) ∨ made.Idle .fresh := by
  rw [fresh, StartCall.perform_fresh] at h
  obtain ⟨ends, -⟩ : LogCells.afterFirst ((made.call.layout w).run made.found).1 =
      (made.outcome, made.after) ∧ _ := Prod.mk.inj h
  obtain ⟨outcome, after⟩ := Prod.mk.inj ends
  match came : ((made.call.layout w).run made.found).1 with
  | .ok (some l) =>
    rw [came] at outcome after
    exact .inl ⟨outcome.symm, l, after.symm⟩
  | .ok none =>
    rw [came] at outcome after
    exact .inr ⟨fresh, after.symm, fun needed => absurd came (StartCall.layout_ne_none needed)⟩
  | .error e =>
    rw [came] at outcome after
    exact .inr ⟨fresh, after.symm, fun _ ok => by rw [ok] at outcome; cases outcome⟩

/-- Once logging has started, calls are idle. -/
theorem idle_of_started {l : LogLayout} (on : made.before = .started l)
    (h : (made.call.perform w).runOn made.before made.found =
      ((made.outcome, made.after), made.left)) : made.Idle (.started l) := by
  rw [on, StartCall.perform_of_isStarted rfl] at h
  obtain ⟨outcome, after⟩ := Prod.mk.inj (Prod.mk.inj h).1
  refine ⟨on, after.symm, fun needed ok => ?_⟩
  rw [needed, ok] at outcome
  cases outcome

/-- A process is as it was at its start, or exactly one call has started logging in it. -/
theorem faces (h : LogHistory w past cells) :
    (cells = .fresh ∧ ∀ made ∈ past, made.Idle .fresh) ∨
    ∃ early made late l, past = early ++ made :: late ∧ cells = .started l ∧
      (∀ other ∈ early, other.Idle .fresh) ∧
      (made.before = .fresh ∧ made.outcome = .ok () ∧ made.after = .started l) ∧
      ∀ other ∈ late, other.Idle (.started l) := by
  induction h with
  | start => exact .inl ⟨rfl, List.forall_mem_nil _⟩
  | @call past made _ run ih =>
    rcases ih with ⟨fresh, idle⟩ | ⟨early, first, late, l, rfl, on, before, start, after⟩
    · rcases starts_or_idle fresh run with ⟨ok, l, on⟩ | still
      · exact .inr ⟨past, made, [], l, rfl, on, idle, ⟨fresh, ok, on⟩, List.forall_mem_nil _⟩
      · exact .inl ⟨still.after, List.forall_mem_append.mpr ⟨idle, by simpa using still⟩⟩
    · have still := idle_of_started on run
      exact .inr ⟨early, first, late ++ [made], l, by simp, still.after, before, start,
        List.forall_mem_append.mpr ⟨after, by simpa using still⟩⟩

end LogHistory

/-- What is true of logging after some calls. -/
structure StartedOnce {σ : Type} (w : Workspace (StateM σ)) (past : List (MadeCall σ))
    (cells : LogCells) : Prop where
  /-- At most one call has set the logger of the process. -/
  atMostOne : past.countP MadeCall.installs ≤ 1
  /-- A call that was to start logging succeeded exactly if it was this one. -/
  succeeded_iff : ∀ made ∈ past, made.call.isOptional = false →
    (made.outcome = .ok () ↔ made.installs = true)
  /-- The program knows exactly after this call that logging has started. -/
  isStarted_iff : cells.isStarted = true ↔ ∃ made ∈ past, made.installs = true
  /-- This call succeeded, and the process still has the logger and the level that it set. -/
  kept : ∀ made ∈ past, made.installs = true →
    made.outcome = .ok () ∧ ∃ l, made.after = .started l ∧ cells = .started l
  /-- After this call, no further one reads anything, or changes anything. -/
  without_effect : cells.isStarted = true → ∀ (m : Type → Type) [Monad m] [LawfulMonad m]
    (w' : Workspace m) (call : StartCall), (call.perform w').runOn cells =
      pure (if call.isOptional then .ok () else .error .alreadyStarted, cells)
  /-- Before it, the process is as at its start: a call starts logging if it comes to a layout. -/
  starts : cells.isStarted = false → cells = .fresh ∧ ∀ call : StartCall,
    (call.perform w).runOn cells = LogCells.afterFirst <$> (call.layout w).run
  /-- So a process can be taken for one value, its logging. -/
  as_logging : ∃ l : Logging, cells = .ofLogging l ∧ ∀ call : StartCall,
    (call.perform w).runOn cells = LogCells.afterAttempt l <$> (call.attempt w l).run

namespace MadeCall

variable {σ : Type} {made : MadeCall σ} {c : LogCells}

theorem Idle.not_installs (h : made.Idle c) : made.installs = false := by
  unfold installs
  rw [h.before, h.after]
  cases c.logger <;> rfl

theorem installs_of_starts {l : LogLayout} (fresh : made.before = .fresh)
    (on : made.after = .started l) : made.installs = true := by
  unfold installs
  rw [fresh, on]
  rfl

end MadeCall

/-- Logging is started at most once, and calls that fail do no harm. -/
theorem LogHistory.startedOnce {σ : Type} {w : Workspace (StateM σ)} {past : List (MadeCall σ)}
    {cells : LogCells} (h : LogHistory w past cells) : StartedOnce w past cells := by
  rcases h.faces with ⟨rfl, idle⟩ |
    ⟨early, first, late, l, rfl, rfl, before, ⟨fresh, ok, on⟩, after⟩
  · have noneSet : ∀ made ∈ past, ¬ made.installs = true := fun made hm => by
      simp [(idle made hm).not_installs]
    exact {
      atMostOne := by rw [List.countP_eq_zero.mpr noneSet]; decide
      succeeded_iff := fun made hm needed =>
        iff_of_false ((idle made hm).failed needed) (noneSet made hm)
      isStarted_iff := iff_of_false (by decide) fun ⟨made, hm, set⟩ => noneSet made hm set
      kept := fun made hm set => absurd set (noneSet made hm)
      without_effect := fun off => by cases off
      starts := fun _ => ⟨rfl, StartCall.perform_fresh⟩
      as_logging := ⟨.off, rfl, fun call => StartCall.perform_ofLogging call .off⟩ }
  · have set : first.installs = true := MadeCall.installs_of_starts fresh on
    have noneBefore : ∀ made ∈ early, ¬ made.installs = true := fun made hm => by
      simp [(before made hm).not_installs]
    have noneAfter : ∀ made ∈ late, ¬ made.installs = true := fun made hm => by
      simp [(after made hm).not_installs]
    have cases_mem : ∀ made ∈ early ++ first :: late, made = first ∨
        ¬ made.installs = true ∧ (made.call.isOptional = false → made.outcome ≠ .ok ()) := by
      intro made hm
      rcases List.mem_append.mp hm with early | late
      · exact .inr ⟨noneBefore made early, (before made early).failed⟩
      · rcases List.mem_cons.mp late with rfl | late
        · exact .inl rfl
        · exact .inr ⟨noneAfter made late, (after made late).failed⟩
    exact {
      atMostOne := by
        have before := List.countP_eq_zero.mpr noneBefore
        have after := List.countP_eq_zero.mpr noneAfter
        rw [List.countP_append, List.countP_cons_of_pos set]
        omega
      succeeded_iff := by
        intro made hm needed
        rcases cases_mem made hm with rfl | ⟨unset, failed⟩
        · exact iff_of_true ok set
        · exact iff_of_false (failed needed) unset
      isStarted_iff := iff_of_true rfl ⟨first, by simp, set⟩
      kept := by
        intro made hm set
        rcases cases_mem made hm with rfl | ⟨unset, -⟩
        · exact ⟨ok, l, on, rfl⟩
        · exact absurd set unset
      without_effect := fun started _ _ _ _ => StartCall.perform_of_isStarted started
      starts := fun off => by cases off
      as_logging := ⟨⟨some l⟩, rfl, fun call => StartCall.perform_ofLogging call ⟨some l⟩⟩ }

/-! ## A process -/

namespace Sample

/-- What becomes of a call. -/
def made (call : StartCall) (before : LogCells) (found : FileTree) : MadeCall FileTree :=
  let r := (call.perform (FileTree.workspace [])).runOn before found
  ⟨call, before, found, r.1.1, r.1.2, r.2⟩

/-- A file that is not there. -/
def badCall : MadeCall FileTree := made (.withFile "absent.yaml") .fresh .empty

def goodCall : MadeCall FileTree :=
  made (.withSettings (.rootOnly "host.log" "info")) badCall.after badCall.left

def lateCall : MadeCall FileTree :=
  made (.withSettings (.rootOnly "other.log" "trace")) goodCall.after goodCall.left

def commandCall : MadeCall FileTree :=
  made (.ofCommand (some "absent.yaml")) lateCall.after lateCall.left

/-- A failed call, the one that starts logging, one that comes too late, and a command. -/
def calls : List (MadeCall FileTree) := [badCall, goodCall, lateCall, commandCall]

theorem logHistory_calls : LogHistory (FileTree.workspace []) calls commandCall.after := by
  have bad := @LogHistory.call _ (FileTree.workspace []) [] badCall .start rfl
  have good := @LogHistory.call _ _ _ goodCall bad rfl
  have late := @LogHistory.call _ _ _ lateCall good rfl
  exact @LogHistory.call _ _ _ commandCall late rfl

/-- The second of four calls starts logging, and the process keeps its logger. -/
theorem startedOnce_calls : LogHistory (FileTree.workspace []) calls commandCall.after ∧
    calls.map (·.outcome) = [.error (.unreadable "absent.yaml" .notFound), .ok (),
      .error .alreadyStarted, .ok ()] ∧
    calls.map (·.installs) = [false, true, false, false] ∧
    commandCall.after = goodCall.after ∧ commandCall.after.isStarted = true := by
  have once := logHistory_calls.startedOnce
  have outcomes : calls.map (·.outcome) = [.error (.unreadable "absent.yaml" .notFound), .ok (),
      .error .alreadyStarted, .ok ()] := by decide +kernel
  have set : goodCall.installs = true := by decide +kernel
  obtain ⟨-, l, on, now⟩ := once.kept goodCall (by simp [calls]) set
  refine ⟨logHistory_calls, outcomes, by decide +kernel, now.trans on.symm, ?_⟩
  exact once.isStarted_iff.mpr ⟨goodCall, by simp [calls], set⟩

end Sample

end HostTrust
